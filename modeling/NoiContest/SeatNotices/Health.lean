import Mathlib.Data.List.Forall2
import Mathlib.Algebra.BigOperators.Group.List.Basic
import NoiContest.SeatNotices.Retry

/- The health report of the seat notifications: each released seat of an active contest goes to
   one counter, the one that its current credentials say. -/
namespace NoiContest.SeatNotices

inductive Counter where
  | pending | retry | permanentFailed | sent | untracked | missingResource | invalidPool
  deriving DecidableEq, Repr

/- The delivery states that have a counter of their name. -/
def Counter.ofState : String → Option Counter
  | "pending" => some .pending
  | "retry" => some .retry
  | "permanent_failed" => some .permanentFailed
  | "sent" => some .sent
  | _ => none

structure Scan where
  counts : Counter → Nat := fun _ => 0
  maxRetryAttempts : Int := 0
  retryTimes : List String := []
  expected : List (String × Int × String × Int) := []
  releasedSlots : List Int := []
  releasedUids : List Int := []

def Scan.count (scan : Scan) (counter : Counter) : Scan :=
  { scan with counts := fun c => scan.counts c + if counter = c then 1 else 0 }

def Scan.delay (scan : Scan) (row : NotificationRow) : Scan :=
  { scan with
    maxRetryAttempts := max scan.maxRetryAttempts row.attempts
    retryTimes := if row.updatedAt = "" then scan.retryTimes
      else scan.retryTimes ++ [row.updatedAt] }

/- The two dictionaries that the report looks seats up in. -/
structure Lookups where
  revision : String × Int → Option Int
  notification : String × Int × String × Int → Option NotificationRow

/-- What the loop does with a released seat whose numbers are new in its pool. -/
def countCredential (lookups : Lookups) (tid : String) (uid slotNo : Int) (scan : Scan) : Scan :=
  match lookups.revision (tid, slotNo) with
  | none => scan.count .missingResource
  | some credentialRevision =>
    if credentialRevision < 1 then scan.count .invalidPool
    else
      let key := (tid, uid, "seat_ready", credentialRevision)
      if key ∈ scan.expected then scan.count .invalidPool
      else
        let scan := { scan with expected := key :: scan.expected }
        match lookups.notification key with
        | none => scan.count .untracked
        | some row =>
          match Counter.ofState row.state with
          | none => scan.count .invalidPool
          | some counter =>
            if row.state = "retry" then (scan.count counter).delay row else scan.count counter

def countSeat (lookups : Lookups) (tid : String) (scan : Scan) (seat : PyValue) : Scan :=
  match seat with
  | .mapping fields =>
    if equalsText (PyValue.get fields "state") "released" = false then scan
    else
      match seatNumbers fields with
      | none => scan.count .invalidPool
      | some (uid, slotNo) =>
        if uid ∈ scan.releasedUids ∨ slotNo ∈ scan.releasedSlots then scan.count .invalidPool
        else countCredential lookups tid uid slotNo
          { scan with
            releasedUids := uid :: scan.releasedUids
            releasedSlots := slotNo :: scan.releasedSlots }
  | _ => scan.count .invalidPool

def countPool (loads : String → Option PyValue) (lookups : Lookups) (scan : Scan)
    (pool : String × String) : Scan :=
  match seatsOf loads pool.2 with
  | none => scan.count .invalidPool
  | some seats =>
    seats.foldl (countSeat lookups pool.1) { scan with releasedSlots := [], releasedUids := [] }

def activeStates : List String := ["registered", "preparing", "ready", "collecting"]

namespace Tables
variable (tables : Tables)

def isActive (tid : String) : Bool :=
  match tables.contests.get? tid with
  | some state => activeStates.contains state
  | none => false

def activePools : List (String × String) :=
  tables.pools.items.filter fun pool => tables.isActive pool.1

def lookups : Lookups where
  revision := (tables.resources.filter fun resource => tables.isActive resource.1.1).get?
  notification key := (tables.notifications.filter fun row => tables.isActive row.tid).find?
    fun row => row.key == key

end Tables

structure HealthReport where
  counts : Counter → Nat
  maxRetryAttempts : Int
  oldestRetryAt : String

def seatNotificationHealth (loads : String → Option PyValue) (tables : Tables) : HealthReport :=
  let scan := tables.activePools.foldl (countPool loads tables.lookups) {}
  ⟨scan.counts, scan.maxRetryAttempts,
    match scan.retryTimes with
    | [] => ""
    | first :: rest => rest.foldl (fun least time => if time < least then time else least) first⟩

variable {loads : String → Option PyValue} {tables : Tables} {tid : String}

theorem lookup_revision (active : tables.isActive tid = true) (slotNo : Int) :
    tables.lookups.revision (tid, slotNo) = tables.revision tid slotNo := by
  ext revision
  simp [Tables.lookups, Tables.revision, Dict.get?_some, Dict.filter, active]

theorem lookup_notification (active : tables.isActive tid = true) (uid : Int) (kind : String)
    (revision : Int) : tables.lookups.notification (tid, uid, kind, revision) =
      tables.notifications.find? fun row => row.key == (tid, uid, kind, revision) := by
  simp only [Tables.lookups, List.find?_filter]
  congr 1
  funext row
  rw [Bool.eq_iff_iff]
  by_cases own : row.tid = tid
  · simp [own, active]
  · simp [NotificationRow.key, own]

/-- The notification of a student's credentials. -/
def Tables.readyNotice (tables : Tables) (tid : String) (uid revision : Int) :
    Option NotificationRow :=
  tables.notifications.find? fun row => row.key == (tid, uid, "seat_ready", revision)

def shares (uid slotNo : Int) (seat : Fields) : Bool :=
  match seatNumbers seat with
  | some numbers => numbers.1 == uid || numbers.2 == slotNo
  | none => false

/-- The counter that a released seat belongs to, among the released seats of its pool. -/
def Fits (tables : Tables) (tid : String) (released : List Fields) (seat : Fields) :
    Counter → Prop
  | .invalidPool => seatNumbers seat = none ∨ ∃ uid slotNo,
      seatNumbers seat = some (uid, slotNo) ∧ (2 ≤ released.countP (shares uid slotNo) ∨
        ∃ revision, tables.revision tid slotNo = some revision ∧ (revision < 1 ∨
          ∃ row, tables.readyNotice tid uid revision = some row ∧
            Counter.ofState row.state = none))
  | .missingResource => ∃ uid slotNo, seatNumbers seat = some (uid, slotNo) ∧
      tables.revision tid slotNo = none
  | .untracked => ∃ uid slotNo revision, seatNumbers seat = some (uid, slotNo) ∧
      tables.revision tid slotNo = some revision ∧ 1 ≤ revision ∧
      tables.readyNotice tid uid revision = none
  | counter => ∃ uid slotNo revision row, seatNumbers seat = some (uid, slotNo) ∧
      tables.revision tid slotNo = some revision ∧ 1 ≤ revision ∧
      tables.readyNotice tid uid revision = some row ∧ Counter.ofState row.state = some counter

/- The released seats among the first ones of a pool, and the entries that are no seats. -/
def released (seats : List PyValue) : List Fields := seats.filterMap releasedSeat

def isStray : PyValue → Bool
  | .mapping _ => false
  | _ => true

/-- What holds of a scan that has come some way through the seats of a pool. -/
structure Reached (tables : Tables) (tid : String) (all : List Fields) (start : Scan)
    (seats : List PyValue) (scan : Scan) : Prop where
  counted : ∃ verdicts, List.Forall₂ (Fits tables tid all) (released seats) verdicts ∧
    ∀ c, scan.counts c = start.counts c + verdicts.count c +
      if c = .invalidPool then seats.countP isStray else 0
  uids : ∀ uid ∈ scan.releasedUids, ∃ seat ∈ released seats, ∃ slotNo,
    seatNumbers seat = some (uid, slotNo)
  slots : ∀ slotNo ∈ scan.releasedSlots, ∃ seat ∈ released seats, ∃ uid,
    seatNumbers seat = some (uid, slotNo)
  expected : ∀ key ∈ scan.expected, key ∈ start.expected ∨
    key.1 = tid ∧ key.2.1 ∈ scan.releasedUids

/-- A released seat went to a counter, and its numbers may have been noted. -/
structure Counted (tid : String) (seat : Fields) (counter : Counter) (scan next : Scan) :
    Prop where
  counts : ∀ c, next.counts c = scan.counts c + if counter = c then 1 else 0
  grows : scan.releasedUids ⊆ next.releasedUids
  uids : ∀ uid ∈ next.releasedUids, uid ∈ scan.releasedUids ∨
    ∃ slotNo, seatNumbers seat = some (uid, slotNo)
  slots : ∀ slotNo ∈ next.releasedSlots, slotNo ∈ scan.releasedSlots ∨
    ∃ uid, seatNumbers seat = some (uid, slotNo)
  expected : ∀ key ∈ next.expected, key ∈ scan.expected ∨
    key.1 = tid ∧ key.2.1 ∈ next.releasedUids

theorem counted_count (seat : Fields) (scan : Scan) (counter : Counter) :
    Counted tid seat counter scan (scan.count counter) :=
  ⟨fun _ => rfl, List.Subset.refl _, fun _ => .inl, fun _ => .inl, fun _ => .inl⟩

theorem ofState_delivery {state : String} {counter : Counter}
    (known : Counter.ofState state = some counter) : counter = .pending ∨ counter = .retry ∨
      counter = .permanentFailed ∨ counter = .sent := by
  unfold Counter.ofState at known
  split at known <;> cases known <;> simp

/- What `countCredential` leaves as it was. -/
structure Credited (uid : Int) (counter : Counter) (tid : String) (scan next : Scan) : Prop where
  counts : ∀ c, next.counts c = scan.counts c + if counter = c then 1 else 0
  uids : next.releasedUids = scan.releasedUids
  slots : next.releasedSlots = scan.releasedSlots
  expected : ∀ key ∈ next.expected, key ∈ scan.expected ∨ key.1 = tid ∧ key.2.1 = uid

/- A released seat whose numbers are new in the pool: the counter of its credentials. -/
theorem countCredential_credited (all : List Fields) (scan : Scan) {seat : Fields}
    {uid slotNo : Int} (active : tables.isActive tid = true)
    (numbers : seatNumbers seat = some (uid, slotNo))
    (fresh : ∀ key ∈ scan.expected, ¬ (key.1 = tid ∧ key.2.1 = uid)) :
    ∃ counter, Fits tables tid all seat counter ∧
      Credited uid counter tid scan (countCredential tables.lookups tid uid slotNo scan) := by
  unfold countCredential
  rw [lookup_revision active]
  cases current : tables.revision tid slotNo with
  | none =>
    exact ⟨.missingResource, ⟨uid, slotNo, numbers, current⟩, fun _ => rfl, rfl, rfl, fun _ => .inl⟩
  | some credentialRevision =>
    by_cases low : credentialRevision < 1
    · simp only [low, if_true]
      exact ⟨.invalidPool, .inr ⟨uid, slotNo, numbers, .inr ⟨_, current, .inl low⟩⟩,
        fun _ => rfl, rfl, rfl, fun _ => .inl⟩
    · have high : 1 ≤ credentialRevision := not_lt.mp low
      have new : (tid, uid, "seat_ready", credentialRevision) ∉ scan.expected :=
        fun mem => fresh _ mem ⟨rfl, rfl⟩
      have kept : ∀ key ∈ (tid, uid, "seat_ready", credentialRevision) :: scan.expected,
          key ∈ scan.expected ∨ key.1 = tid ∧ key.2.1 = uid := by
        intro key mem
        rcases List.mem_cons.mp mem with rfl | old
        · exact .inr ⟨rfl, rfl⟩
        · exact .inl old
      simp only [low, if_false, new]
      rw [lookup_notification active]
      cases notice : tables.readyNotice tid uid credentialRevision with
      | none =>
        have absent := notice
        unfold Tables.readyNotice at absent
        rw [absent]
        exact ⟨.untracked, ⟨uid, slotNo, _, numbers, current, high, notice⟩, fun _ => rfl, rfl,
          rfl, kept⟩
      | some row =>
        have found := notice
        unfold Tables.readyNotice at found
        rw [found]
        cases state : Counter.ofState row.state with
        | none =>
          simp only [state]
          exact ⟨.invalidPool, .inr ⟨uid, slotNo, numbers, .inr ⟨_, current, .inr
            ⟨row, notice, state⟩⟩⟩, fun _ => rfl, rfl, rfl, kept⟩
        | some counter =>
          have delivered : ∃ uid slotNo revision row, seatNumbers seat = some (uid, slotNo) ∧
              tables.revision tid slotNo = some revision ∧ 1 ≤ revision ∧
              tables.readyNotice tid uid revision = some row ∧
              Counter.ofState row.state = some counter :=
            ⟨uid, slotNo, _, row, numbers, current, high, notice, state⟩
          simp only [state]
          refine ⟨counter, ?_, ?_⟩
          · rcases ofState_delivery state with rfl | rfl | rfl | rfl <;> exact delivered
          · split <;> exact ⟨fun _ => rfl, rfl, rfl, kept⟩

theorem shares_self {uid slotNo : Int} {seat : Fields}
    (numbers : seatNumbers seat = some (uid, slotNo)) : shares uid slotNo seat = true := by
  simp [shares, numbers]

/- A student or a slot that the pool has released before. -/
theorem repeated_shares {all before after : List Fields} {seat earlier : Fields}
    {uid slotNo : Int} (split : all = before ++ seat :: after)
    (numbers : seatNumbers seat = some (uid, slotNo)) (mem : earlier ∈ before)
    (same : shares uid slotNo earlier = true) : 2 ≤ all.countP (shares uid slotNo) := by
  have first : 0 < before.countP (shares uid slotNo) := List.countP_pos_iff.mpr ⟨_, mem, same⟩
  rw [split, List.countP_append, List.countP_cons, if_pos (shares_self numbers)]
  omega

section Steps
variable {all : List Fields} {start scan next : Scan} {seats rest : List PyValue} {seat : PyValue}
  {fields : Fields} {counter : Counter}

theorem Reached.released_step (reached : Reached tables tid all start seats scan)
    (counted : Counted tid fields counter scan next) (is_released : releasedSeat seat = some fields)
    (fits : Fits tables tid all fields counter) :
    Reached tables tid all start (seats ++ [seat]) next := by
  obtain ⟨⟨verdicts, fitting, counts⟩, uids, slots, keys⟩ := reached
  have one : released (seats ++ [seat]) = released seats ++ [fields] := by
    simp [released, is_released]
  have mapping : isStray seat = false := by
    cases seat with
    | mapping => rfl
    | _ => cases is_released
  refine ⟨⟨verdicts ++ [counter], ?_, fun c => ?_⟩, fun uid mem => ?_, fun slotNo mem => ?_,
    fun key mem => ?_⟩
  · rw [one]
    exact List.rel_append fitting (.cons fits .nil)
  · rw [counted.counts, counts, List.count_append, List.countP_append]
    simp only [List.count_singleton, List.countP_singleton, mapping, beq_iff_eq,
      Bool.false_eq_true, if_false, Nat.add_zero]
    omega
  · rcases counted.uids uid mem with old | ⟨slotNo, numbers⟩
    · obtain ⟨earlier, listed, found⟩ := uids uid old
      exact ⟨earlier, by rw [one]; exact List.mem_append_left _ listed, found⟩
    · exact ⟨fields, by simp [one], slotNo, numbers⟩
  · rcases counted.slots slotNo mem with old | ⟨uid, numbers⟩
    · obtain ⟨earlier, listed, found⟩ := slots slotNo old
      exact ⟨earlier, by rw [one]; exact List.mem_append_left _ listed, found⟩
    · exact ⟨fields, by simp [one], uid, numbers⟩
  · rcases counted.expected key mem with old | own
    · exact (keys key old).imp_right fun own => ⟨own.1, counted.grows own.2⟩
    · exact .inr own

theorem Reached.other_step (reached : Reached tables tid all start seats scan)
    (is_released : releasedSeat seat = none) (counts : ∀ c, next.counts c = scan.counts c +
      if c = .invalidPool then [seat].countP isStray else 0)
    (same : next.releasedUids = scan.releasedUids ∧ next.releasedSlots = scan.releasedSlots ∧
      next.expected = scan.expected) :
    Reached tables tid all start (seats ++ [seat]) next := by
  obtain ⟨⟨verdicts, fitting, before⟩, uids, slots, keys⟩ := reached
  have none : released (seats ++ [seat]) = released seats := by simp [released, is_released]
  obtain ⟨sameUids, sameSlots, sameKeys⟩ := same
  refine ⟨⟨verdicts, by rwa [none], fun c => ?_⟩, ?_, ?_, ?_⟩
  · rw [counts, before, List.countP_append]
    split <;> omega
  · rwa [sameUids, none]
  · rwa [sameSlots, none]
  · rwa [sameKeys, sameUids]

theorem countSeat_reached (active : tables.isActive tid = true)
    (split : all = released (seats ++ seat :: rest))
    (foreign : ∀ key ∈ start.expected, key.1 ≠ tid)
    (reached : Reached tables tid all start seats scan) :
    Reached tables tid all start (seats ++ [seat]) (countSeat tables.lookups tid scan seat) := by
  cases seat with
  | mapping fields =>
    cases state : equalsText (PyValue.get fields "state") "released" with
    | false =>
      simp only [countSeat, state, if_true]
      exact reached.other_step (by simp [releasedSeat, state]) (by simp [isStray]) ⟨rfl, rfl, rfl⟩
    | true =>
      have is_released : releasedSeat (.mapping fields) = some fields := by
        simp [releasedSeat, state]
      have all_split : all = released seats ++ fields :: released rest := by
        rw [split]
        simp [released, is_released]
      simp only [countSeat, state, Bool.true_eq_false, if_false]
      cases numbers : seatNumbers fields with
      | none =>
        exact reached.released_step (counted_count ..) is_released (.inl numbers)
      | some pair =>
        obtain ⟨uid, slotNo⟩ := pair
        dsimp only
        split
        · rename_i again
          -- The student or the slot was noted for an earlier seat of the pool.
          refine reached.released_step (counted_count ..) is_released
            (.inr ⟨uid, slotNo, numbers, .inl ?_⟩)
          rcases again with noted | noted
          · obtain ⟨earlier, listed, slot, found⟩ := reached.uids uid noted
            exact repeated_shares all_split numbers listed (by simp [shares, found])
          · obtain ⟨earlier, listed, student, found⟩ := reached.slots slotNo noted
            exact repeated_shares all_split numbers listed (by simp [shares, found])
        · rename_i new
          rw [not_or] at new
          have fresh : ∀ key ∈ scan.expected, ¬ (key.1 = tid ∧ key.2.1 = uid) := by
            rintro key mem ⟨own, rfl⟩
            rcases reached.expected key mem with before | noted
            · exact foreign key before own
            · exact new.1 noted.2
          obtain ⟨counter, fits, credited⟩ := countCredential_credited all
            { scan with
              releasedUids := uid :: scan.releasedUids
              releasedSlots := slotNo :: scan.releasedSlots } active numbers fresh
          refine reached.released_step ⟨credited.counts, ?_, ?_, ?_, ?_⟩ is_released fits
          · rw [credited.uids]
            exact List.subset_cons_self ..
          · rw [credited.uids]
            intro student mem
            rcases List.mem_cons.mp mem with rfl | old
            · exact .inr ⟨slotNo, numbers⟩
            · exact .inl old
          · rw [credited.slots]
            intro slot mem
            rcases List.mem_cons.mp mem with rfl | old
            · exact .inr ⟨uid, numbers⟩
            · exact .inl old
          · rw [credited.uids]
            intro key mem
            refine (credited.expected key mem).imp_right fun own => ⟨own.1, ?_⟩
            rw [own.2]
            exact List.mem_cons_self
  | _ =>
    exact reached.other_step rfl (fun c => by simp [countSeat, Scan.count, isStray, eq_comm])
      ⟨rfl, rfl, rfl⟩

theorem countSeats_reached (active : tables.isActive tid = true)
    (split : all = released (seats ++ rest)) (foreign : ∀ key ∈ start.expected, key.1 ≠ tid)
    (reached : Reached tables tid all start seats scan) :
    Reached tables tid all start (seats ++ rest)
      (rest.foldl (countSeat tables.lookups tid) scan) := by
  induction rest generalizing seats scan with
  | nil => simpa using reached
  | cons seat rest ih =>
    have next := countSeat_reached active split foreign reached
    have assoc : seats ++ seat :: rest = seats ++ [seat] ++ rest := by simp
    rw [assoc] at split ⊢
    exact ih split next

end Steps

/-- The released seats of a stored pool. -/
def poolSeats (loads : String → Option PyValue) (pool : String × String) : List Fields :=
  released ((seatsOf loads pool.2).getD [])

/-- What a pool adds to the counter of invalid ones besides its released seats: itself where it is
    malformed, else its entries that are no seats. -/
def unseated (loads : String → Option PyValue) (pool : String × String) : Nat :=
  match seatsOf loads pool.2 with
  | none => 1
  | some seats => seats.countP isStray

/-- The counters of the released seats of a pool, one for each. -/
def Verdicts (tables : Tables) (loads : String → Option PyValue) (pool : String × String)
    (verdicts : List Counter) : Prop :=
  List.Forall₂ (Fits tables pool.1 (poolSeats loads pool)) (poolSeats loads pool) verdicts

structure Surveyed (tables : Tables) (loads : String → Option PyValue)
    (pools : List (String × String)) (scan : Scan) : Prop where
  counted : ∃ verdicts, List.Forall₂ (Verdicts tables loads) pools verdicts ∧
    ∀ c, scan.counts c = verdicts.flatten.count c +
      if c = .invalidPool then (pools.map (unseated loads)).sum else 0
  expected : ∀ key ∈ scan.expected, key.1 ∈ pools.map Prod.fst

theorem countPool_surveyed {pools : List (String × String)} {pool : String × String} {scan : Scan}
    (active : tables.isActive pool.1 = true) (new : pool.1 ∉ pools.map Prod.fst)
    (surveyed : Surveyed tables loads pools scan) :
    Surveyed tables loads (pools ++ [pool]) (countPool loads tables.lookups scan pool) := by
  obtain ⟨⟨verdicts, fitting, counts⟩, expected⟩ := surveyed
  unfold countPool
  cases listed : seatsOf loads pool.2 with
  | none =>
    have none : poolSeats loads pool = [] := by simp [poolSeats, listed, released]
    refine ⟨⟨verdicts ++ [[]], List.rel_append fitting (.cons ?_ .nil), fun c => ?_⟩, ?_⟩
    · rw [Verdicts, none]
      exact .nil
    · simp only [Scan.count, counts, List.flatten_append, List.flatten_cons, List.flatten_nil,
        List.append_nil, List.map_append, List.sum_append, List.map_cons, List.map_nil,
        List.sum_cons, List.sum_nil, unseated, listed, eq_comm (a := Counter.invalidPool)]
      split <;> omega
    · intro key mem
      rw [List.map_append]
      exact List.mem_append_left _ (expected key mem)
  | some seats =>
    have all : poolSeats loads pool = released ([] ++ seats) := by simp [poolSeats, listed]
    have initial : Reached tables pool.1 (poolSeats loads pool) scan []
        { scan with releasedSlots := [], releasedUids := [] } :=
      ⟨⟨[], .nil, fun c => by simp⟩, by simp, by simp, fun _ => .inl⟩
    obtain ⟨⟨own, fits, added⟩, -, -, keys⟩ := countSeats_reached active all
      (fun key mem same => new (same ▸ expected key mem)) initial
    refine ⟨⟨verdicts ++ [own], List.rel_append fitting (.cons ?_ .nil), fun c => ?_⟩, ?_⟩
    · rw [Verdicts, all] at *
      exact fits
    · simp only [added, counts, List.flatten_append, List.flatten_cons, List.flatten_nil,
        List.append_nil, List.map_append, List.sum_append, List.map_cons, List.map_nil,
        List.sum_cons, List.sum_nil, unseated, listed, List.count_append, List.nil_append]
      split <;> omega
    · intro key mem
      rw [List.map_append]
      rcases keys key mem with old | ⟨same, -⟩
      · exact List.mem_append_left _ (expected key old)
      · exact List.mem_append_right _ (by simp [same])

theorem countPools_surveyed {pools rest : List (String × String)} {scan : Scan}
    (active : ∀ pool ∈ rest, tables.isActive pool.1 = true)
    (distinct : ((pools ++ rest).map Prod.fst).Nodup)
    (surveyed : Surveyed tables loads pools scan) :
    Surveyed tables loads (pools ++ rest) (rest.foldl (countPool loads tables.lookups) scan) := by
  induction rest generalizing pools scan with
  | nil => simpa using surveyed
  | cons pool rest ih =>
    have new : pool.1 ∉ pools.map Prod.fst := by
      rw [List.map_append, List.map_cons, List.nodup_append] at distinct
      exact fun mem => distinct.2.2 _ mem _ List.mem_cons_self rfl
    have next := countPool_surveyed (active pool List.mem_cons_self) new surveyed
    have assoc : pools ++ pool :: rest = pools ++ [pool] ++ rest := by simp
    rw [assoc] at distinct ⊢
    exact ih (fun pool mem => active pool (List.mem_cons_of_mem _ mem)) distinct next

theorem activePools_surveyed (tables : Tables) (loads : String → Option PyValue) :
    Surveyed tables loads tables.activePools
      (tables.activePools.foldl (countPool loads tables.lookups) {}) := by
  have distinct : ((([] : List (String × String)) ++ tables.activePools).map Prod.fst).Nodup :=
    (List.filter_sublist.map Prod.fst).nodup tables.pools.distinct
  have start : Surveyed tables loads [] {} := ⟨⟨[], .nil, fun c => by simp⟩, by simp⟩
  have active : ∀ pool ∈ tables.activePools, tables.isActive pool.1 = true :=
    fun pool mem => (List.mem_filter.mp mem).2
  simpa using countPools_surveyed active distinct start

/-- A row of the credentials that a released seat has now, which no older revision is. -/
def Tables.isCurrent (tables : Tables) (loads : String → Option PyValue) (row : NotificationRow) :
    Bool :=
  (tables.releasedSeats loads row.tid).any fun seat =>
    credentialKey (tables.revision row.tid) seat == some (row.uid, row.credentialRevision)

section Independence
variable {rows : List NotificationRow} {primary : (rows.map NotificationRow.key).Nodup}

theorem find?_of_filter {α : Type} {p q : α → Bool} {l l' : List α}
    (same : l'.filter p = l.filter p) (within : ∀ a, q a = true → p a = true) :
    l'.find? q = l.find? q := by
  have narrow : ∀ l : List α, l.find? q = (l.filter p).find? q := by
    intro l
    rw [List.find?_filter]
    congr 1
    funext a
    cases hit : q a with
    | true => simp [within a hit]
    | false => simp
  rw [narrow l', same, ← narrow l]

theorem readyNotice_current (same : rows.filter (tables.isCurrent loads) =
      tables.notifications.filter (tables.isCurrent loads))
    {seat : Fields} (mem : seat ∈ tables.releasedSeats loads tid) {uid slotNo revision : Int}
    (numbers : seatNumbers seat = some (uid, slotNo))
    (current : tables.revision tid slotNo = some revision) :
    (rows.find? fun row => row.key == (tid, uid, "seat_ready", revision)) =
      tables.notifications.find? fun row => row.key == (tid, uid, "seat_ready", revision) := by
  refine find?_of_filter same fun row own => ?_
  simp only [NotificationRow.key, beq_iff_eq, Prod.mk.injEq] at own
  obtain ⟨rfl, rfl, -, rfl⟩ := own
  exact List.any_eq_true.mpr ⟨seat, mem, by simp [credentialKey, numbers, current]⟩

theorem poolSeats_released {pool : String × String} (mem : pool ∈ tables.activePools) :
    poolSeats loads pool = tables.releasedSeats loads pool.1 := by
  have stored : tables.pools.get? pool.1 = some pool.2 :=
    Dict.get?_some.mpr (List.mem_filter.mp mem).1
  simp [poolSeats, Tables.releasedSeats, stored, released]

/- The same seats are found with the same rows. -/
theorem countSeat_agree {found found' : Lookups} {seat : PyValue} {scan : Scan}
    (revision : found'.revision = found.revision)
    (notification : ∀ fields uid slotNo current, releasedSeat seat = some fields →
      seatNumbers fields = some (uid, slotNo) → found.revision (tid, slotNo) = some current →
      found'.notification (tid, uid, "seat_ready", current) =
        found.notification (tid, uid, "seat_ready", current)) :
    countSeat found' tid scan seat = countSeat found tid scan seat := by
  cases seat with
  | mapping fields =>
    cases state : equalsText (PyValue.get fields "state") "released" with
    | false => simp [countSeat, state]
    | true =>
      cases numbers : seatNumbers fields with
      | none => simp [countSeat, numbers]
      | some pair =>
        obtain ⟨uid, slotNo⟩ := pair
        have credited : ∀ scan, countCredential found' tid uid slotNo scan =
            countCredential found tid uid slotNo scan := by
          intro scan
          unfold countCredential
          rw [revision]
          cases current : found.revision (tid, slotNo) with
          | none => rfl
          | some credentialRevision =>
            have same := notification fields uid slotNo _ (by simp [releasedSeat, state]) numbers
              current
            simp only [same]
        simp [countSeat, state, numbers, credited]
  | _ => rfl

/-- Rows of other credentials than the current ones do not matter to the report. -/
theorem health_current (same : rows.filter (tables.isCurrent loads) =
      tables.notifications.filter (tables.isCurrent loads)) :
    seatNotificationHealth loads { tables with notifications := rows, primary } =
      seatNotificationHealth loads tables := by
  have pools : ({ tables with notifications := rows, primary } : Tables).activePools =
      tables.activePools := rfl
  have scans : tables.activePools.foldl
      (countPool loads ({ tables with notifications := rows, primary } : Tables).lookups) {} =
      tables.activePools.foldl (countPool loads tables.lookups) {} := by
    refine List.foldl_ext _ _ _ fun scan pool mem => ?_
    have active : tables.isActive pool.1 = true := (List.mem_filter.mp mem).2
    have released_eq : poolSeats loads pool = tables.releasedSeats loads pool.1 :=
      poolSeats_released mem
    unfold countPool
    cases listed : seatsOf loads pool.2 with
    | none => rfl
    | some seats =>
      refine List.foldl_ext _ _ _ fun scan seat seated => countSeat_agree rfl ?_
      intro fields uid slotNo current is_released numbers found
      rw [lookup_revision active] at found
      have still : ({ tables with notifications := rows, primary } : Tables).isActive pool.1 =
        true := active
      rw [lookup_notification active, lookup_notification still]
      have listed_seat : fields ∈ tables.releasedSeats loads pool.1 := by
        rw [← released_eq]
        simp only [poolSeats, listed, Option.getD_some, released]
        exact List.mem_filterMap.mpr ⟨seat, seated, is_released⟩
      exact readyNotice_current same listed_seat numbers found
  unfold seatNotificationHealth
  rw [pools, scans]

end Independence

/-- A retry queues again exactly the failed notifications of the current credentials of released
    seats, or raises and changes nothing; and the health report counts each released seat of the
    active contests once, by its current credentials only. -/
theorem retry_and_health (loads : String → Option PyValue) (clock : Int × Int → String)
    (tid : String) (tables : Tables) :
    Effect.Ends (retryFailedSeatNotifications loads clock tid) tables
      (fun changed after => Retried loads clock tid tables changed after)
      (fun _ after => after = tables ∧ ¬ Retryable loads tid tables) ∧
    (∃ verdicts, List.Forall₂ (Verdicts tables loads) tables.activePools verdicts ∧
      ∀ c, (seatNotificationHealth loads tables).counts c = verdicts.flatten.count c +
        if c = .invalidPool then (tables.activePools.map (unseated loads)).sum else 0) ∧
    ∀ rows primary, rows.filter (tables.isCurrent loads) =
        tables.notifications.filter (tables.isCurrent loads) →
      seatNotificationHealth loads { tables with notifications := rows, primary } =
        seatNotificationHealth loads tables :=
  ⟨retry_ends, (activePools_surveyed tables loads).counted, fun _ _ same => health_current same⟩

end NoiContest.SeatNotices
