import NoiContest.Lib.JsonText
import NoiContest.Lib.Outcome
import NoiContest.Lib.PyText
import NoiContest.Lib.Sha256

/- The pre-warmed seat pool of one contest. A command works on a snapshot with an expected
   revision; its receipt makes a repetition with the same arguments a replay. -/
namespace NoiContest.SeatPool
open JsonText Outcome

inductive PoolError where
  | configuration (message : String)
  | revisionConflict (message : String)
  | commandConflict (message : String)
  | seatState (message : String)
  | capacityExceeded (message : String)
  | noVerifiedSeat (message : String)
  | tooEarlyToRelease (message : String)
  | noSpareSeat (message : String)
  | keyError (message : String)
  deriving DecidableEq, Repr

inductive SeatState where
  | planned | warming | verified | reserved | released | frozen | collected
  deriving DecidableEq, Repr

def SeatState.text : SeatState → String
  | .planned => "planned"
  | .warming => "warming"
  | .verified => "verified"
  | .reserved => "reserved"
  | .released => "released"
  | .frozen => "frozen"
  | .collected => "collected"

inductive Role where
  | primary | spare
  deriving DecidableEq, Repr

structure Seat where
  slotNo : Nat
  seatKey : String
  role : Role
  state : SeatState := .planned
  uid : Option Int := none
  uname : String := ""
  containerRef : String := ""
  imageDigest : String := ""
  materialDigest : String := ""
  failureCount : Nat := 0
  lastError : String := ""
  reservedAtMs : Option Int := none
  releasedAtMs : Option Int := none
  frozenAtMs : Option Int := none
  collectedAtMs : Option Int := none
  deriving DecidableEq, Repr

/- The value dictionaries of the commands, one constructor for each set of keys. -/
inductive CommandValue where
  | seat (seat : Seat)
  | released (seats : List Seat)
  | replaced (failed : Option Seat) (replacement : Option Seat)
  | added (seats : List Seat)
  | capacity (added : List Seat) (targetMain targetSpares : Int)
  | schedule (beginAtMs releaseAtMs : Int)
  | frozen (seats : List Seat)
  | collected (seats : List Seat)
  deriving DecidableEq, Repr

/- The revision key of the value is the revision of the receipt. -/
structure CommandReceipt where
  commandId : String
  fingerprint : String
  revision : Nat
  value : CommandValue
  deriving DecidableEq, Repr

structure SeatPoolState where
  tid : String
  maxParticipants : Int
  spareCount : Int
  beginAtMs : Int
  releaseAtMs : Int
  revision : Nat
  seats : List Seat
  receipts : List CommandReceipt := []
  deriving DecidableEq, Repr

structure TransitionResult where
  state : SeatPoolState
  value : CommandValue
  replayed : Bool := false
  deriving DecidableEq, Repr

def fingerprint (operation : String) (arguments : List (String × Json)) : String :=
  Sha256.ofText (dumps (.obj [("operation", .str operation), ("arguments", .obj arguments)]))

def validateInt (name : String) (value minimum : Int) : Except PoolError Unit :=
  raiseIf (value < minimum)
    (.configuration (name ++ " must be an integer >= " ++ toString minimum))

def reservationState (nowMs releaseAtMs : Int) : SeatState :=
  if releaseAtMs ≤ nowMs then .released else .reserved

def defaultReleaseLeadMs : Int := 5 * 60 * 1000

def desiredCapacity (participantCount : Int) (minimumSpares : Int := 2)
    (sparePercent : Int := 10) : Except PoolError (Int × Int) := do
  validateInt "participant_count" participantCount 0
  validateInt "minimum_spares" minimumSpares 0
  validateInt "spare_percent" sparePercent 0
  return (participantCount, max minimumSpares ((participantCount * sparePercent + 99) / 100))

def seatKey (index : Nat) : String := "seat-" ++ PyText.threeDigits index

def Seat.planned (index : Nat) (role : Role) : Seat :=
  { slotNo := index, seatKey := SeatPool.seatKey index, role := role }

namespace SeatPoolState

def create (tid : String) (maxParticipants spareCount beginAtMs : Int)
    (releaseLeadMs : Int := defaultReleaseLeadMs) : Except PoolError SeatPoolState := do
  raiseIf (PyText.strip tid = "") (.configuration "tid cannot be empty")
  validateInt "max_participants" maxParticipants 0
  validateInt "spare_count" spareCount 0
  validateInt "begin_at_ms" beginAtMs 1
  validateInt "release_lead_ms" releaseLeadMs 0
  raiseIf (beginAtMs ≤ releaseLeadMs)
    (.configuration "release time cannot precede Unix epoch")
  return {
    tid := PyText.strip tid
    maxParticipants := maxParticipants
    spareCount := spareCount
    beginAtMs := beginAtMs
    releaseAtMs := beginAtMs - releaseLeadMs
    revision := 0
    seats := (List.range' 1 (maxParticipants + spareCount).toNat).map fun index =>
      Seat.planned index (if (index : Int) ≤ maxParticipants then .primary else .spare) }

def seat (pool : SeatPoolState) (slotNo : Nat) : Except PoolError Seat :=
  match pool.seats.find? (·.slotNo == slotNo) with
  | some seat => .ok seat
  | none => .error (.keyError ("unknown seat " ++ toString slotNo))

def assignment (pool : SeatPoolState) (uid : Int) : Option Seat :=
  pool.seats.find? (·.uid == some uid)

def stateCounts (pool : SeatPoolState) : List (SeatState × Nat) :=
  [.planned, .warming, .verified, .reserved, .released, .frozen, .collected].map fun state =>
    (state, (pool.seats.filter (·.state == state)).length)

def receipt (pool : SeatPoolState) (commandId : String) : Option CommandReceipt :=
  pool.receipts.find? (·.commandId == commandId)

/- What a command computes: its value, and the pool with its seats and updates. -/
structure Mutation where
  pool : SeatPoolState
  value : CommandValue

/-- The pool after a mutation, with the receipt of its command. -/
def recorded (pool : SeatPoolState) (changed : Mutation) (commandId fingerprint : String) :
    SeatPoolState :=
  { changed.pool with
    revision := pool.revision + 1
    receipts := pool.receipts ++ [⟨commandId, fingerprint, pool.revision + 1, changed.value⟩] }

def apply (pool : SeatPoolState) (operation : String) (arguments : List (String × Json))
    (commandId : String) (expectedRevision : Int) (mutate : Except PoolError Mutation) :
    Except PoolError TransitionResult :=
  if PyText.strip commandId = "" then .error (.configuration "command_id cannot be empty")
  else
    match pool.receipt commandId with
    | some receipt =>
      if receipt.fingerprint = fingerprint operation arguments then
        .ok { state := pool, value := receipt.value, replayed := true }
      else .error (.commandConflict "command_id was reused with different arguments")
    | none =>
      if expectedRevision = pool.revision then
        mutate.map fun changed =>
          { state := pool.recorded changed commandId (fingerprint operation arguments)
            value := changed.value }
      else .error (.revisionConflict ("expected revision " ++ toString expectedRevision ++
        ", current revision " ++ toString pool.revision))

def replaceSeat (seats : List Seat) (updated : Seat) : List Seat :=
  seats.map fun seat => if seat.slotNo = updated.slotNo then updated else seat

def withSeat (pool : SeatPoolState) (updated : Seat) : SeatPoolState :=
  { pool with seats := replaceSeat pool.seats updated }

def markWarming (pool : SeatPoolState) (slotNo : Nat) (nowMs : Int) (commandId : String)
    (expectedRevision : Int) : Except PoolError TransitionResult :=
  pool.apply "mark_warming" [("slot_no", .int slotNo), ("now_ms", .int nowMs)] commandId
    expectedRevision do
      let seat ← pool.seat slotNo
      raiseIf (seat.state ≠ .planned ∧ seat.state ≠ .warming ∧ seat.state ≠ .verified)
        (.seatState ("cannot warm a " ++ seat.state.text ++ " seat"))
      let updated := if seat.state = .planned then { seat with state := .warming } else seat
      return ⟨pool.withSeat updated, .seat updated⟩

def markVerified (pool : SeatPoolState) (slotNo : Nat) (containerRef imageDigest
    materialDigest : String) (nowMs : Int) (commandId : String) (expectedRevision : Int) :
    Except PoolError TransitionResult := do
  let container := PyText.strip containerRef
  let image := PyText.strip imageDigest
  let material := PyText.strip materialDigest
  raiseIf (container = "" ∨ image = "" ∨ material = "")
    (.configuration "all verification evidence is required")
  pool.apply "mark_verified" [("slot_no", .int slotNo), ("container_ref", .str container),
      ("image_digest", .str image), ("material_digest", .str material), ("now_ms", .int nowMs)]
    commandId expectedRevision do
      let seat ← pool.seat slotNo
      if seat.state = .verified then
        raiseIf ((seat.containerRef, seat.imageDigest, seat.materialDigest) ≠
          (container, image, material))
          (.commandConflict "verified evidence cannot be changed")
        return ⟨pool.withSeat seat, .seat seat⟩
      else
        raiseIf (seat.state ≠ .warming)
          (.seatState ("cannot verify a " ++ seat.state.text ++ " seat"))
        raiseIf (∃ other ∈ pool.seats, other.slotNo ≠ slotNo ∧ other.containerRef ≠ "" ∧
            other.containerRef = container)
          (.configuration "container_ref must be unique")
        let updated := { seat with
          state := .verified
          containerRef := container
          imageDigest := image
          materialDigest := material
          lastError := "" }
        return ⟨pool.withSeat updated, .seat updated⟩

def assigned (pool : SeatPoolState) : List Seat := pool.seats.filter (·.uid.isSome)

/-- The sort key `(seat.role == "spare", seat.slot_no)`. -/
def handedOutBefore (a b : Seat) : Prop :=
  if a.role = b.role then a.slotNo ≤ b.slotNo else b.role = .spare

instance : DecidableRel handedOutBefore := fun a b => by unfold handedOutBefore; infer_instance

def available (pool : SeatPoolState) : List Seat :=
  (pool.seats.filter fun seat => seat.state == .verified && seat.uid == none).insertionSort
    handedOutBefore

def reserve (pool : SeatPoolState) (uid : Int) (uname : String) (nowMs : Int)
    (commandId : String) (expectedRevision : Int) : Except PoolError TransitionResult := do
  validateInt "uid" uid 1
  let uname := PyText.strip uname
  raiseIf (uname = "") (.configuration "uname cannot be empty")
  pool.apply "reserve" [("uid", .int uid), ("uname", .str uname), ("now_ms", .int nowMs)]
    commandId expectedRevision
      (match pool.assignment uid with
      | some existing => do
        raiseIf (existing.uname ≠ uname) (.commandConflict "uid already has another username")
        return ⟨pool, .seat existing⟩
      | none => do
        raiseIf (pool.maxParticipants ≤ (pool.assigned.length : Int))
          (.capacityExceeded "maximum participant count reached")
        match pool.available with
        | [] => throw (.noVerifiedSeat "no verified seat is available")
        | chosen :: _ =>
          let target := reservationState nowMs pool.releaseAtMs
          let updated := { chosen with
            state := target
            uid := some uid
            uname := uname
            reservedAtMs := some nowMs
            releasedAtMs := if target = .released then some nowMs else none }
          return ⟨pool.withSeat updated, .seat updated⟩)

def release (pool : SeatPoolState) (uid nowMs : Int) (commandId : String)
    (expectedRevision : Int) : Except PoolError TransitionResult :=
  pool.apply "release" [("uid", .int uid), ("now_ms", .int nowMs)] commandId expectedRevision
    (match pool.assignment uid with
    | none => throw (.keyError ("uid " ++ toString uid ++ " has no seat"))
    | some seat =>
      if seat.state = .released ∨ seat.state = .frozen ∨ seat.state = .collected then
        return ⟨pool, .seat seat⟩
      else do
        raiseIf (seat.state ≠ .reserved)
          (.seatState ("cannot release a " ++ seat.state.text ++ " seat"))
        raiseIf (nowMs < pool.releaseAtMs)
          (.tooEarlyToRelease ("cannot release before " ++ toString pool.releaseAtMs))
        let updated := { seat with state := .released, releasedAtMs := some nowMs }
        return ⟨pool.withSeat updated, .seat updated⟩)

/- Commands on every seat in a given state give the changed seats as their value. -/
def markAll (pool : SeatPoolState) (selected : Seat → Bool) (mark : Seat → Seat)
    (value : List Seat → CommandValue) : Mutation :=
  ⟨{ pool with seats := pool.seats.map fun seat => if selected seat then mark seat else seat },
    value ((pool.seats.filter selected).map mark)⟩

def releaseDue (pool : SeatPoolState) (nowMs : Int) (commandId : String)
    (expectedRevision : Int) : Except PoolError TransitionResult :=
  pool.apply "release_due" [("now_ms", .int nowMs)] commandId expectedRevision
    (.ok (if nowMs < pool.releaseAtMs then ⟨pool, .released []⟩
      else pool.markAll (·.state == .reserved)
        (fun seat => { seat with state := .released, releasedAtMs := some nowMs }) .released))

def isFreeSpare (seat : Seat) : Bool :=
  seat.role == .spare && seat.state == .verified && seat.uid == none

def resetFailed (failed : Seat) (role : Role) (reason : String) : Seat :=
  { failed with
    role := role
    state := .planned
    uid := none
    uname := ""
    containerRef := ""
    imageDigest := ""
    materialDigest := ""
    failureCount := failed.failureCount + 1
    lastError := reason
    reservedAtMs := none
    releasedAtMs := none
    frozenAtMs := none
    collectedAtMs := none }

def takeOver (replacement failed : Seat) (nowMs releaseAtMs : Int) : Seat :=
  let target :=
    if failed.state = .released then .released else reservationState nowMs releaseAtMs
  { replacement with
    role := failed.role
    state := target
    uid := failed.uid
    uname := failed.uname
    reservedAtMs := some nowMs
    releasedAtMs := if target = .released then some nowMs else none }

def replaceFailed (pool : SeatPoolState) (slotNo : Nat) (reason : String) (nowMs : Int)
    (teacherApproved : Bool) (commandId : String) (expectedRevision : Int) :
    Except PoolError TransitionResult := do
  let reason := PyText.strip reason
  raiseIf (reason = "") (.configuration "failure reason cannot be empty")
  pool.apply "replace_failed" [("slot_no", .int slotNo), ("reason", .str reason),
      ("now_ms", .int nowMs), ("teacher_approved", .bool teacherApproved)]
    commandId expectedRevision do
      let failed ← pool.seat slotNo
      raiseIf (failed.state = .frozen ∨ failed.state = .collected)
        (.seatState ("cannot replace a " ++ failed.state.text ++ " seat"))
      if failed.state = .planned ∧ failed.uid = none then
        return ⟨pool, .replaced none none⟩
      else if failed.uid = none then
        let reset := resetFailed failed failed.role reason
        return ⟨pool.withSeat reset, .replaced (some reset) none⟩
      else
        match pool.seats.find? isFreeSpare with
        | none => throw (.noSpareSeat "no verified spare is available")
        | some replacement =>
          let reset := resetFailed failed .spare reason
          let moved := takeOver replacement failed nowMs pool.releaseAtMs
          return ⟨(pool.withSeat reset).withSeat moved, .replaced (some reset) (some moved)⟩

def nextSlot (pool : SeatPoolState) : Nat := (pool.seats.map (·.slotNo)).foldr max 0 + 1

def addedSeats (pool : SeatPoolState) (mains spares : Int) : List Seat :=
  (List.range' pool.nextSlot mains.toNat).map (Seat.planned · .primary) ++
    (List.range' (pool.nextSlot + mains.toNat) spares.toNat).map (Seat.planned · .spare)

def extended (pool : SeatPoolState) (mains spares : Int) : SeatPoolState :=
  { pool with
    seats := pool.seats ++ pool.addedSeats mains spares
    maxParticipants := pool.maxParticipants + mains
    spareCount := pool.spareCount + spares }

def grow (pool : SeatPoolState) (additionalMain additionalSpares : Int) (commandId : String)
    (expectedRevision : Int) : Except PoolError TransitionResult := do
  validateInt "additional_main" additionalMain 0
  validateInt "additional_spares" additionalSpares 0
  raiseIf (additionalMain + additionalSpares = 0)
    (.configuration "grow must add at least one seat")
  pool.apply "grow" [("additional_main", .int additionalMain),
      ("additional_spares", .int additionalSpares)] commandId expectedRevision
    (.ok ⟨pool.extended additionalMain additionalSpares,
      .added (pool.addedSeats additionalMain additionalSpares)⟩)

def reconcileRosterCapacity (pool : SeatPoolState) (participantCount minimumSpares
    sparePercent : Int) (commandId : String) (expectedRevision : Int) :
    Except PoolError TransitionResult := do
  let (targetMain, targetSpares) ← desiredCapacity participantCount minimumSpares sparePercent
  let additionalMain := max 0 (targetMain - pool.maxParticipants)
  let additionalSpares := max 0 (targetSpares - pool.spareCount)
  if additionalMain + additionalSpares = 0 then
    return { state := pool, value := .capacity [] targetMain targetSpares }
  else
    pool.apply "reconcile_roster_capacity" [("participant_count", .int participantCount),
        ("minimum_spares", .int minimumSpares), ("spare_percent", .int sparePercent)]
      commandId expectedRevision
      (.ok ⟨pool.extended additionalMain additionalSpares,
        .capacity (pool.addedSeats additionalMain additionalSpares) targetMain targetSpares⟩)

def reschedule (pool : SeatPoolState) (beginAtMs releaseLeadMs : Int) (commandId : String)
    (expectedRevision : Int) : Except PoolError TransitionResult := do
  validateInt "begin_at_ms" beginAtMs 1
  validateInt "release_lead_ms" releaseLeadMs 0
  raiseIf (beginAtMs ≤ releaseLeadMs)
    (.configuration "release time cannot precede Unix epoch")
  let releaseAtMs := beginAtMs - releaseLeadMs
  if beginAtMs = pool.beginAtMs ∧ releaseAtMs = pool.releaseAtMs then
    return { state := pool, value := .schedule beginAtMs releaseAtMs }
  else
    pool.apply "reschedule" [("begin_at_ms", .int beginAtMs),
        ("release_lead_ms", .int releaseLeadMs)] commandId expectedRevision
      (.ok ⟨{ pool with beginAtMs := beginAtMs, releaseAtMs := releaseAtMs },
        .schedule beginAtMs releaseAtMs⟩)

def freeze (pool : SeatPoolState) (nowMs : Int) (commandId : String) (expectedRevision : Int) :
    Except PoolError TransitionResult :=
  pool.apply "freeze" [("now_ms", .int nowMs)] commandId expectedRevision
    (.ok (pool.markAll
      (fun seat => seat.uid.isSome && (seat.state == .reserved || seat.state == .released))
      (fun seat => { seat with state := .frozen, frozenAtMs := some nowMs }) .frozen))

def collect (pool : SeatPoolState) (nowMs : Int) (commandId : String)
    (expectedRevision : Int) : Except PoolError TransitionResult :=
  pool.apply "collect" [("now_ms", .int nowMs)] commandId expectedRevision
    (.ok (pool.markAll (·.state == .frozen)
      (fun seat => { seat with state := .collected, collectedAtMs := some nowMs }) .collected))

end SeatPoolState
end NoiContest.SeatPool
