import NoiContest.SeatPool.Commands

/- What a successful command leaves of the seats. Slot numbers are the identity of a seat. -/
namespace NoiContest.SeatPool
open Outcome

def SeatPoolState.slots (pool : SeatPoolState) : List Nat := pool.seats.map (·.slotNo)

/-- A seat that the next student can get. -/
def Seat.IsFree (seat : Seat) : Prop := seat.state = .verified ∧ seat.uid = none

instance : DecidablePred Seat.IsFree := fun seat => by
  unfold Seat.IsFree
  infer_instance

namespace SeatPoolState
variable {pool : SeatPoolState} {commandId : String} {expectedRevision nowMs : Int}
  {result : TransitionResult}

section Recorded
variable {changed : Mutation} {fingerprint : String}

@[simp] theorem recorded_seats :
    (pool.recorded changed commandId fingerprint).seats = changed.pool.seats := rfl

@[simp] theorem recorded_revision :
    (pool.recorded changed commandId fingerprint).revision = pool.revision + 1 := rfl

@[simp] theorem recorded_maxParticipants :
    (pool.recorded changed commandId fingerprint).maxParticipants =
      changed.pool.maxParticipants := rfl

@[simp] theorem recorded_spareCount :
    (pool.recorded changed commandId fingerprint).spareCount = changed.pool.spareCount := rfl

@[simp] theorem recorded_receipts :
    (pool.recorded changed commandId fingerprint).receipts =
      pool.receipts ++ [⟨commandId, fingerprint, pool.revision + 1, changed.value⟩] := rfl

@[simp] theorem recorded_tid :
    (pool.recorded changed commandId fingerprint).tid = changed.pool.tid := rfl

end Recorded

section ReplaceSeat
variable {seats : List Seat} {updated seat : Seat}

theorem mem_replaceSeat : seat ∈ replaceSeat seats updated ↔
    (seat = updated ∧ updated.slotNo ∈ seats.map (·.slotNo)) ∨
      (seat ∈ seats ∧ seat.slotNo ≠ updated.slotNo) := by
  simp only [replaceSeat, List.mem_map]
  constructor
  · rintro ⟨old, mem, eq⟩
    by_cases hit : old.slotNo = updated.slotNo
    · rw [if_pos hit] at eq
      exact .inl ⟨eq.symm, old, mem, hit⟩
    · rw [if_neg hit] at eq
      exact .inr ⟨eq ▸ mem, eq ▸ hit⟩
  · rintro (⟨rfl, old, mem, hit⟩ | ⟨mem, other⟩)
    · exact ⟨old, mem, by rw [if_pos hit]⟩
    · exact ⟨seat, mem, by rw [if_neg other]⟩

@[simp] theorem replaceSeat_slots :
    (replaceSeat seats updated).map (·.slotNo) = seats.map (·.slotNo) := by
  rw [replaceSeat, List.map_map]
  apply List.map_congr_left
  intro old _
  by_cases hit : old.slotNo = updated.slotNo <;> simp [hit]

@[simp] theorem withSeat_slots : (pool.withSeat updated).slots = pool.slots := replaceSeat_slots

end ReplaceSeat

theorem seat_eq_of_slot (distinct : pool.slots.Nodup) {a b : Seat} (memA : a ∈ pool.seats)
    (memB : b ∈ pool.seats) (same : a.slotNo = b.slotNo) : a = b :=
  List.inj_on_of_nodup_map distinct memA memB same

theorem seat_ok {slotNo : Nat} {seat : Seat} (found : pool.seat slotNo = .ok seat) :
    seat ∈ pool.seats ∧ seat.slotNo = slotNo := by
  unfold SeatPoolState.seat at found
  split at found
  · rename_i seat' search
    cases found
    exact ⟨List.mem_of_find?_eq_some search, by simpa using List.find?_some search⟩
  · cases found

theorem assignment_some {uid : Int} {seat : Seat} (found : pool.assignment uid = some seat) :
    seat ∈ pool.seats ∧ seat.uid = some uid := by
  unfold assignment at found
  exact ⟨List.mem_of_find?_eq_some found, by simpa using List.find?_some found⟩

theorem mem_available {seat : Seat} :
    seat ∈ pool.available ↔ seat ∈ pool.seats ∧ seat.IsFree := by
  simp [available, Seat.IsFree]

/-- The seat that a student gets when one is reserved. -/
def reservedSeat (chosen : Seat) (uid : Int) (uname : String) (nowMs releaseAtMs : Int) : Seat :=
  let target := reservationState nowMs releaseAtMs
  { chosen with
    state := target
    uid := some uid
    uname := uname
    reservedAtMs := some nowMs
    releasedAtMs := if target = .released then some nowMs else none }

/- A reservation replays its receipt, finds the student seated, or hands out a free seat. -/
theorem reserve_ok {uid : Int} {uname : String}
    (done : pool.reserve uid uname nowMs commandId expectedRevision = .ok result) :
    result.state = pool ∨
    (∃ print existing, pool.receipt commandId = none ∧ pool.assignment uid = some existing ∧
      existing.uname = PyText.strip uname ∧ result.value = .seat existing ∧
      result.state = pool.recorded ⟨pool, .seat existing⟩ commandId print) ∨
    ∃ print chosen, pool.receipt commandId = none ∧ pool.assignment uid = none ∧
      (pool.assigned.length : Int) < pool.maxParticipants ∧ chosen ∈ pool.available ∧
      result.value = .seat
        (reservedSeat chosen uid (PyText.strip uname) nowMs pool.releaseAtMs) ∧
      result.state = pool.recorded
        ⟨pool.withSeat (reservedSeat chosen uid (PyText.strip uname) nowMs pool.releaseAtMs),
          .seat (reservedSeat chosen uid (PyText.strip uname) nowMs pool.releaseAtMs)⟩
        commandId print := by
  obtain ⟨_, _, done⟩ := bind_ok.mp done
  obtain ⟨_, _, done⟩ := bind_ok.mp done
  rcases apply_ok done with ⟨_, _, _, rfl⟩ | ⟨absent, _, changed, mutated, rfl⟩
  · exact .inl rfl
  · right
    split at mutated
    · rename_i existing found
      obtain ⟨_, same, mutated⟩ := bind_ok.mp mutated
      simp only [raiseIf_ok, ne_eq, not_not] at same
      simp only [pure_eq_ok] at mutated
      subst mutated
      exact .inl ⟨_, existing, absent, found, same, rfl, rfl⟩
    · rename_i unassigned
      obtain ⟨_, room, mutated⟩ := bind_ok.mp mutated
      simp only [raiseIf_ok, not_le] at room
      split at mutated
      · simp only [throw_ne_ok] at mutated
      · rename_i chosen rest handed
        simp only [pure_eq_ok] at mutated
        subst mutated
        exact .inr ⟨_, chosen, absent, unassigned, room, by simp [handed], rfl, rfl⟩

theorem releaseDue_ok (done : pool.releaseDue nowMs commandId expectedRevision = .ok result) :
    result.state = pool ∨
    (∃ print value, pool.receipt commandId = none ∧
      result.state = pool.recorded ⟨pool, value⟩ commandId print) ∨
    ∃ print value, pool.receipt commandId = none ∧ result.state = pool.recorded
      ⟨{ pool with seats := pool.seats.map fun seat => if seat.state == .reserved then
          { seat with state := .released, releasedAtMs := some nowMs } else seat }, value⟩
      commandId print := by
  rcases apply_ok done with ⟨_, _, _, rfl⟩ | ⟨absent, _, changed, mutated, rfl⟩
  · exact .inl rfl
  · right
    cases mutated
    by_cases early : nowMs < pool.releaseAtMs
    · exact .inl ⟨_, .released [], absent, by rw [if_pos early]⟩
    · exact .inr ⟨_, _, absent, by rw [if_neg early]; rfl⟩

/- A replacement replays, leaves an isolated seat alone, isolates a free seat, or moves the
   student of the failed seat to a free spare. -/
theorem replaceFailed_ok {slotNo : Nat} {reason : String} {approved : Bool}
    (done : pool.replaceFailed slotNo reason nowMs approved commandId expectedRevision =
      .ok result) :
    result.replayed = true ∨ ∃ print failed, result.replayed = false ∧
      failed ∈ pool.seats ∧ failed.slotNo = slotNo ∧ expectedRevision = pool.revision ∧
      ((failed.uid = none ∧ result.value = .replaced none none ∧
          result.state = pool.recorded ⟨pool, .replaced none none⟩ commandId print) ∨
        (∃ reset, failed.uid = none ∧ reset = resetFailed failed failed.role
            (PyText.strip reason) ∧ result.value = .replaced (some reset) none ∧
          result.state = pool.recorded ⟨pool.withSeat reset, .replaced (some reset) none⟩
            commandId print) ∨
        ∃ reset moved spare, failed.uid ≠ none ∧ spare ∈ pool.seats ∧ isFreeSpare spare = true ∧
          reset = resetFailed failed .spare (PyText.strip reason) ∧
          moved = takeOver spare failed nowMs pool.releaseAtMs ∧
          result.value = .replaced (some reset) (some moved) ∧
          result.state = pool.recorded
            ⟨(pool.withSeat reset).withSeat moved, .replaced (some reset) (some moved)⟩
            commandId print) := by
  obtain ⟨_, _, done⟩ := bind_ok.mp done
  rcases apply_ok done with ⟨_, _, _, rfl⟩ | ⟨absent, expected, changed, mutated, rfl⟩
  · exact .inl rfl
  · right
    obtain ⟨failed, found, mutated⟩ := bind_ok.mp mutated
    obtain ⟨mem, slot⟩ := seat_ok found
    obtain ⟨_, _, mutated⟩ := bind_ok.mp mutated
    refine ⟨fingerprint "replace_failed" [("slot_no", .int slotNo),
      ("reason", .str (PyText.strip reason)), ("now_ms", .int nowMs),
      ("teacher_approved", .bool approved)], failed, rfl, mem, slot, expected, ?_⟩
    split at mutated
    · rename_i idle
      simp only [pure_eq_ok] at mutated
      subst mutated
      exact .inl ⟨idle.2, rfl, rfl⟩
    · split at mutated
      · rename_i unassigned
        simp only [pure_eq_ok] at mutated
        subst mutated
        exact .inr (.inl ⟨_, unassigned, rfl, rfl, rfl⟩)
      · rename_i assigned
        split at mutated
        · simp only [throw_ne_ok] at mutated
        · rename_i spare search
          simp only [pure_eq_ok] at mutated
          subst mutated
          exact .inr (.inr ⟨_, _, spare, assigned, List.mem_of_find?_eq_some search,
            List.find?_some search, rfl, rfl, rfl, rfl⟩)

theorem grow_ok {mains spares : Int}
    (done : pool.grow mains spares commandId expectedRevision = .ok result) :
    result.replayed = true ∨
    ∃ print, result.replayed = false ∧ 0 ≤ mains ∧ 0 ≤ spares ∧ mains + spares ≠ 0 ∧
      expectedRevision = pool.revision ∧ result.value = .added (pool.addedSeats mains spares) ∧
      result.state = pool.recorded
        ⟨pool.extended mains spares, .added (pool.addedSeats mains spares)⟩ commandId print := by
  obtain ⟨_, main, done⟩ := bind_ok.mp done
  obtain ⟨_, spare, done⟩ := bind_ok.mp done
  obtain ⟨_, some, done⟩ := bind_ok.mp done
  simp only [validateInt, raiseIf_ok, not_lt] at main spare some
  rcases apply_ok done with ⟨_, _, _, rfl⟩ | ⟨_, expected, changed, mutated, rfl⟩
  · exact .inl rfl
  · cases mutated
    exact .inr ⟨_, rfl, main, spare, some, expected, rfl, rfl⟩

/- A mark leaves the pool alone or changes one seat, which keeps its student. -/
theorem markWarming_ok {slotNo : Nat}
    (done : pool.markWarming slotNo nowMs commandId expectedRevision = .ok result) :
    result.state = pool ∨ ∃ print value seat updated, seat ∈ pool.seats ∧
      seat.slotNo = slotNo ∧ updated = { seat with state := updated.state } ∧
      result.state = pool.recorded ⟨pool.withSeat updated, value⟩ commandId print := by
  rcases apply_ok done with ⟨_, _, _, rfl⟩ | ⟨_, _, changed, mutated, rfl⟩
  · exact .inl rfl
  · right
    obtain ⟨seat, found, mutated⟩ := bind_ok.mp mutated
    obtain ⟨mem, slot⟩ := seat_ok found
    obtain ⟨_, _, mutated⟩ := bind_ok.mp mutated
    simp only [pure_eq_ok] at mutated
    subst mutated
    refine ⟨_, _, seat, _, mem, slot, ?_, rfl⟩
    by_cases planned : seat.state = .planned <;> simp [planned]

theorem markVerified_ok {slotNo : Nat} {container image material : String}
    (done : pool.markVerified slotNo container image material nowMs commandId expectedRevision =
      .ok result) :
    result.state = pool ∨ ∃ print value seat updated, seat ∈ pool.seats ∧
      seat.slotNo = slotNo ∧ updated = { seat with
        state := .verified
        containerRef := PyText.strip container
        imageDigest := PyText.strip image
        materialDigest := PyText.strip material
        lastError := updated.lastError } ∧
      result.state = pool.recorded ⟨pool.withSeat updated, value⟩ commandId print := by
  obtain ⟨_, _, done⟩ := bind_ok.mp done
  rcases apply_ok done with ⟨_, _, _, rfl⟩ | ⟨_, _, changed, mutated, rfl⟩
  · exact .inl rfl
  · right
    obtain ⟨seat, found, mutated⟩ := bind_ok.mp mutated
    obtain ⟨mem, slot⟩ := seat_ok found
    split at mutated
    · rename_i verified
      obtain ⟨_, same, mutated⟩ := bind_ok.mp mutated
      simp only [raiseIf_ok, ne_eq, not_not, Prod.mk.injEq] at same
      simp only [pure_eq_ok] at mutated
      subst mutated
      refine ⟨_, _, seat, seat, mem, slot, ?_, rfl⟩
      rw [← same.1, ← same.2.1, ← same.2.2, ← verified]
    · obtain ⟨_, _, mutated⟩ := bind_ok.mp mutated
      obtain ⟨_, _, mutated⟩ := bind_ok.mp mutated
      simp only [pure_eq_ok] at mutated
      subst mutated
      exact ⟨_, _, seat, { seat with
        state := .verified
        containerRef := PyText.strip container
        imageDigest := PyText.strip image
        materialDigest := PyText.strip material
        lastError := "" }, mem, slot, rfl, rfl⟩

theorem apply_fresh {operation : String} {arguments : List (String × JsonText.Json)}
    {mutate : Except PoolError Mutation} (named : PyText.strip commandId ≠ "")
    (fresh : pool.receipt commandId = none) :
    pool.apply operation arguments commandId pool.revision mutate = mutate.map fun changed =>
      { state := pool.recorded changed commandId (fingerprint operation arguments)
        value := changed.value } := by
  simp [apply, named, fresh]

theorem seat_found (distinct : pool.slots.Nodup) {seat : Seat} (mem : seat ∈ pool.seats) :
    pool.seat seat.slotNo = .ok seat := by
  cases found : pool.seat seat.slotNo with
  | ok other =>
    obtain ⟨memOther, same⟩ := seat_ok found
    rw [seat_eq_of_slot distinct memOther mem same]
  | error message =>
    unfold SeatPoolState.seat at found
    split at found
    · cases found
    · rename_i missing
      simpa using List.find?_eq_none.mp missing seat mem

/-- The seat that a successful verification leaves. -/
def verifiedSeat (seat : Seat) (container image material : String) : Seat :=
  { seat with
    state := .verified
    containerRef := container
    imageDigest := image
    materialDigest := material
    lastError := "" }

/- The first command of a planned seat with an unused id. -/
theorem markWarming_planned (nowMs : Int) (commandId : String) (distinct : pool.slots.Nodup)
    {seat : Seat} (mem : seat ∈ pool.seats)
    (planned : seat.state = .planned) (named : PyText.strip commandId ≠ "")
    (fresh : pool.receipt commandId = none) :
    ∃ print, pool.markWarming seat.slotNo nowMs commandId pool.revision = .ok
      { state := pool.recorded ⟨pool.withSeat { seat with state := .warming },
          .seat { seat with state := .warming }⟩ commandId print
        value := .seat { seat with state := .warming } } := by
  rw [markWarming, apply_fresh named fresh, seat_found distinct mem]
  simp [planned, raiseIf, Except.map, pure, Except.pure]

/- The command that follows, which looks at the containers of the other seats. -/
theorem markVerified_warming (nowMs : Int) (commandId : String) (distinct : pool.slots.Nodup)
    {seat : Seat} (mem : seat ∈ pool.seats) (warming : seat.state = .warming) {container image material : String}
    (evidence : PyText.strip container ≠ "" ∧ PyText.strip image ≠ "" ∧
      PyText.strip material ≠ "")
    (named : PyText.strip commandId ≠ "") (fresh : pool.receipt commandId = none) :
    ∃ print, pool.markVerified seat.slotNo container image material nowMs commandId
        pool.revision = (raiseIf (∃ other ∈ pool.seats, other.slotNo ≠ seat.slotNo ∧
          other.containerRef ≠ "" ∧ other.containerRef = PyText.strip container)
          (.configuration "container_ref must be unique")).map fun _ =>
      { state := pool.recorded
          ⟨pool.withSeat (verifiedSeat seat (PyText.strip container) (PyText.strip image)
              (PyText.strip material)),
            .seat (verifiedSeat seat (PyText.strip container) (PyText.strip image)
              (PyText.strip material))⟩ commandId print
        value := .seat (verifiedSeat seat (PyText.strip container) (PyText.strip image)
          (PyText.strip material)) } := by
  refine ⟨fingerprint "mark_verified" [("slot_no", .int seat.slotNo),
    ("container_ref", .str (PyText.strip container)), ("image_digest", .str (PyText.strip image)),
    ("material_digest", .str (PyText.strip material)), ("now_ms", .int nowMs)], ?_⟩
  have unverified : ¬ seat.state = .verified := by
    rw [warming]
    decide
  rw [markVerified, raiseIf_neg (not_or.mpr ⟨evidence.1, not_or.mpr evidence.2⟩), ok_bind,
    apply_fresh named fresh, seat_found distinct mem, ok_bind, if_neg unverified,
    raiseIf_neg (not_not.mpr warming), ok_bind]
  by_cases taken : ∃ other ∈ pool.seats, other.slotNo ≠ seat.slotNo ∧
      other.containerRef ≠ "" ∧ other.containerRef = PyText.strip container
  · rw [raiseIf_pos taken]
    rfl
  · rw [raiseIf_neg taken]
    rfl

/-- The same slots with the same students. -/
structure SameSeating (before after : SeatPoolState) : Prop where
  slots : after.slots = before.slots
  students : ∀ seat ∈ after.seats, ∃ old ∈ before.seats,
    old.slotNo = seat.slotNo ∧ old.uid = seat.uid

theorem SameSeating.refl (pool : SeatPoolState) : SameSeating pool pool :=
  ⟨rfl, fun seat mem => ⟨seat, mem, rfl, rfl⟩⟩

theorem SameSeating.trans {first second third : SeatPoolState}
    (early : SameSeating first second) (late : SameSeating second third) :
    SameSeating first third := by
  refine ⟨late.slots.trans early.slots, fun seat mem => ?_⟩
  obtain ⟨middle, memMiddle, slot, uid⟩ := late.students seat mem
  obtain ⟨old, memOld, slot', uid'⟩ := early.students middle memMiddle
  exact ⟨old, memOld, slot'.trans slot, uid'.trans uid⟩

theorem withSeat_sameSeating {seat updated : Seat} (mem : seat ∈ pool.seats)
    (slot : updated.slotNo = seat.slotNo) (uid : updated.uid = seat.uid) :
    SameSeating pool (pool.withSeat updated) := by
  refine ⟨withSeat_slots, fun other inside => ?_⟩
  rcases mem_replaceSeat.mp inside with ⟨rfl, _⟩ | ⟨old, _⟩
  · exact ⟨seat, mem, slot.symm, uid.symm⟩
  · exact ⟨other, old, rfl, rfl⟩

theorem sameSeating_of_seats {other : SeatPoolState} (same : other.seats = pool.seats) :
    SameSeating pool other :=
  ⟨by rw [slots, slots, same], fun seat mem => ⟨seat, same ▸ mem, rfl, rfl⟩⟩

theorem markWarming_sameSeating {slotNo : Nat}
    (done : pool.markWarming slotNo nowMs commandId expectedRevision = .ok result) :
    SameSeating pool result.state := by
  rcases markWarming_ok done with same | ⟨print, value, seat, updated, mem, _, updates, state⟩
  · rw [same]
    exact .refl pool
  · rw [state]
    refine (withSeat_sameSeating mem ?_ ?_).trans (sameSeating_of_seats rfl)
    · rw [updates]
    · rw [updates]

theorem markVerified_sameSeating {slotNo : Nat} {container image material : String}
    (done : pool.markVerified slotNo container image material nowMs commandId expectedRevision =
      .ok result) : SameSeating pool result.state := by
  rcases markVerified_ok done with same | ⟨print, value, seat, updated, mem, _, updates, state⟩
  · rw [same]
    exact .refl pool
  · rw [state]
    refine (withSeat_sameSeating mem ?_ ?_).trans (sameSeating_of_seats rfl)
    · rw [updates]
    · rw [updates]

theorem le_foldr_max (slots : List Nat) : ∀ slot ∈ slots, slot ≤ slots.foldr max 0 := by
  induction slots with
  | nil => simp
  | cons first rest ih =>
    intro slot mem
    rcases List.mem_cons.mp mem with rfl | later
    · exact le_max_left _ _
    · exact (ih slot later).trans (le_max_right _ _)

theorem lt_nextSlot {slot : Nat} (mem : slot ∈ pool.slots) : slot < pool.nextSlot := by
  have bound := le_foldr_max _ slot mem
  unfold nextSlot
  unfold slots at bound
  omega

theorem addedSeats_slots (mains spares : Int) :
    (pool.addedSeats mains spares).map (·.slotNo) =
      List.range' pool.nextSlot (mains.toNat + spares.toNat) := by
  simp only [addedSeats, List.map_append, List.map_map]
  rw [← List.range'_append_1]
  simp [Function.comp_def, Seat.planned]

theorem mem_addedSeats {mains spares : Int} {seat : Seat}
    (mem : seat ∈ pool.addedSeats mains spares) :
    seat.uid = none ∧ seat.state = .planned ∧ seat.slotNo ∉ pool.slots := by
  have fields : seat.uid = none ∧ seat.state = .planned := by
    simp only [addedSeats, List.mem_append, List.mem_map] at mem
    rcases mem with ⟨_, _, rfl⟩ | ⟨_, _, rfl⟩ <;> exact ⟨rfl, rfl⟩
  refine ⟨fields.1, fields.2, fun known => ?_⟩
  have slot : seat.slotNo ∈ (pool.addedSeats mains spares).map (·.slotNo) :=
    List.mem_map_of_mem mem
  rw [addedSeats_slots, List.mem_range'_1] at slot
  have below := lt_nextSlot known
  omega

theorem extended_slots (mains spares : Int) : (pool.extended mains spares).slots =
    pool.slots ++ List.range' pool.nextSlot (mains.toNat + spares.toNat) := by
  rw [← addedSeats_slots]
  simp [extended, slots]

theorem extended_distinct {mains spares : Int} (distinct : pool.slots.Nodup) :
    (pool.extended mains spares).slots.Nodup := by
  rw [extended_slots]
  apply distinct.append (List.nodup_range' 1)
  intro slot known added
  have below := lt_nextSlot known
  rw [List.mem_range'_1] at added
  omega

end SeatPoolState
end NoiContest.SeatPool
