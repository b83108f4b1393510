import NoiContest.Pipeline.PoolFlows

/- Whose files the answer trees hold. `lent` is the spare that files of a student are being
   copied to before the replacement is committed. -/
namespace NoiContest.Pipeline
open SeatPool SeatPoolState

structure Isolated (lent : Option (Nat × Int)) (pool : SeatPoolState)
    (answers : Nat → List AnswerFile) : Prop where
  distinct : pool.slots.Nodup
  own : ∀ seat ∈ pool.seats, ∀ uid, seat.uid = some uid →
    ∀ file ∈ answers seat.slotNo, file.author = uid
  free : ∀ seat ∈ pool.seats, seat.IsFree → ∀ file ∈ answers seat.slotNo,
    ∃ uid, lent = some (seat.slotNo, uid) ∧ file.author = uid
  outside : ∀ slot, slot ∉ pool.slots → answers slot = []

theorem slot_mem {pool : SeatPoolState} {seat : Seat} (mem : seat ∈ pool.seats) :
    seat.slotNo ∈ pool.slots := List.mem_map_of_mem mem

theorem bySlot_of_mem {pool : SeatPoolState} {seat : Seat} (distinct : pool.slots.Nodup)
    (mem : seat ∈ pool.seats) : pool.bySlot seat.slotNo = some seat := by
  unfold SeatPoolState.bySlot
  cases search : pool.seats.find? (·.slotNo == seat.slotNo) with
  | none => simpa using List.find?_eq_none.mp search seat mem
  | some other =>
    have same : other.slotNo = seat.slotNo := by simpa using List.find?_some search
    rw [seat_eq_of_slot distinct (List.mem_of_find?_eq_some search) mem same]

theorem mem_of_bySlot {pool : SeatPoolState} {seat : Seat} {slotNo : Nat}
    (found : pool.bySlot slotNo = some seat) : seat ∈ pool.seats ∧ seat.slotNo = slotNo := by
  unfold SeatPoolState.bySlot at found
  exact ⟨List.mem_of_find?_eq_some found, by simpa using List.find?_some found⟩

namespace Isolated
variable {lent : Option (Nat × Int)} {pool pool' : SeatPoolState}
  {answers answers' : Nat → List AnswerFile}

theorem clean (isolated : Isolated none pool answers) {seat : Seat} (mem : seat ∈ pool.seats)
    (free : seat.IsFree) : answers seat.slotNo = [] := by
  apply List.eq_nil_iff_forall_not_mem.mpr
  intro file inside
  obtain ⟨_, impossible, _⟩ := isolated.free seat mem free file inside
  cases impossible

theorem returned (isolated : Isolated lent pool answers)
    (clean : ∀ seat ∈ pool.seats, seat.IsFree → answers seat.slotNo = []) :
    Isolated none pool answers where
  distinct := isolated.distinct
  own := isolated.own
  free seat mem free file inside := by simp [clean seat mem free] at inside
  outside := isolated.outside

theorem fewer (isolated : Isolated lent pool answers)
    (kept : ∀ slot, ∀ file ∈ answers' slot, file ∈ answers slot) :
    Isolated lent pool answers' where
  distinct := isolated.distinct
  own seat mem uid assigned file inside :=
    isolated.own seat mem uid assigned file (kept _ file inside)
  free seat mem free file inside := isolated.free seat mem free file (kept _ file inside)
  outside slot absent := by
    apply List.eq_nil_iff_forall_not_mem.mpr
    intro file inside
    simpa [isolated.outside slot absent] using kept slot file inside

/- Students write to their own seat only. -/
theorem written (isolated : Isolated lent pool answers) {student : Seat} {uid : Int}
    (mem : student ∈ pool.seats) (assigned : student.uid = some uid)
    (elsewhere : ∀ slot, slot ≠ student.slotNo → answers' slot = answers slot)
    (there : ∀ file ∈ answers' student.slotNo,
      file ∈ answers student.slotNo ∨ file.author = uid) : Isolated lent pool answers' where
  distinct := isolated.distinct
  own seat memSeat other owner file inside := by
    by_cases same : seat.slotNo = student.slotNo
    · have eq := seat_eq_of_slot isolated.distinct memSeat mem same
      subst eq
      have uids : other = uid := by
        rw [owner] at assigned
        exact Option.some.inj assigned
      rcases there file inside with old | new
      · exact isolated.own seat memSeat other owner file old
      · exact new.trans uids.symm
    · rw [elsewhere _ same] at inside
      exact isolated.own seat memSeat other owner file inside
  free seat memSeat free file inside := by
    by_cases same : seat.slotNo = student.slotNo
    · have eq := seat_eq_of_slot isolated.distinct memSeat mem same
      subst eq
      rw [free.2] at assigned
      cases assigned
    · rw [elsewhere _ same] at inside
      exact isolated.free seat memSeat free file inside
  outside slot absent := by
    have other : slot ≠ student.slotNo := fun same => absent (same ▸ slot_mem mem)
    rw [elsewhere _ other]
    exact isolated.outside slot absent

theorem same_seats (isolated : Isolated lent pool answers) (same : pool'.seats = pool.seats) :
    Isolated lent pool' answers := by
  have slots : pool'.slots = pool.slots := by rw [slots, slots, same]
  refine ⟨slots ▸ isolated.distinct, ?_, ?_, ?_⟩
  · rw [same]
    exact isolated.own
  · rw [same]
    exact isolated.free
  · rw [slots]
    exact isolated.outside

/- A seat is taken by a student whose files, if any, are the only ones in its tree. -/
theorem seated (isolated : Isolated lent pool answers) {updated : Seat} {uid : Int}
    (assigned : updated.uid = some uid)
    (theirs : ∀ file ∈ answers updated.slotNo, file.author = uid) :
    Isolated lent (pool.withSeat updated) answers where
  distinct := by simpa using isolated.distinct
  own seat mem other owner file inside := by
    rcases mem_replaceSeat.mp mem with ⟨rfl, _⟩ | ⟨old, _⟩
    · rw [assigned] at owner
      exact (theirs file inside).trans (Option.some.inj owner)
    · exact isolated.own seat old other owner file inside
  free seat mem free file inside := by
    rcases mem_replaceSeat.mp mem with ⟨rfl, _⟩ | ⟨old, _⟩
    · rw [free.2] at assigned
      cases assigned
    · exact isolated.free seat old free file inside
  outside slot absent := isolated.outside slot (by simpa using absent)

/- A seat is given up, and is not free until its slot was rebuilt. -/
theorem vacated (isolated : Isolated lent pool answers) {updated : Seat}
    (unassigned : updated.uid = none) (planned : updated.state = .planned) :
    Isolated lent (pool.withSeat updated) answers where
  distinct := by simpa using isolated.distinct
  own seat mem other owner file inside := by
    rcases mem_replaceSeat.mp mem with ⟨rfl, _⟩ | ⟨old, _⟩
    · rw [unassigned] at owner
      cases owner
    · exact isolated.own seat old other owner file inside
  free seat mem free file inside := by
    rcases mem_replaceSeat.mp mem with ⟨rfl, _⟩ | ⟨old, _⟩
    · have verified := free.1
      rw [planned] at verified
      cases verified
    · exact isolated.free seat old free file inside
  outside slot absent := isolated.outside slot (by simpa using absent)

/- The lent spare is no longer free once its student is bound to it. -/
theorem settled {slotNo : Nat} {uid : Int} (isolated : Isolated (some (slotNo, uid)) pool answers)
    (bound : ∀ seat ∈ pool.seats, seat.slotNo = slotNo → ¬ seat.IsFree) :
    Isolated none pool answers := by
  apply isolated.returned
  intro seat mem free
  apply List.eq_nil_iff_forall_not_mem.mpr
  intro file inside
  obtain ⟨_, same, _⟩ := isolated.free seat mem free file inside
  exact bound seat mem (congrArg Prod.fst (Option.some.inj same)).symm free

theorem released (isolated : Isolated lent pool answers) {nowMs : Int}
    (seats : pool'.seats = pool.seats.map fun seat => if seat.state == .reserved then
      { seat with state := .released, releasedAtMs := some nowMs } else seat) :
    Isolated lent pool' answers := by
  have slots : pool'.slots = pool.slots := by
    rw [slots, slots, seats, List.map_map]
    apply List.map_congr_left
    intro seat _
    by_cases due : seat.state = .reserved <;> simp [due]
  have kept : ∀ seat' ∈ pool'.seats, ∃ seat ∈ pool.seats, seat'.slotNo = seat.slotNo ∧
      seat'.uid = seat.uid ∧ (seat'.state = .verified → seat.state = .verified) := by
    intro seat' mem
    rw [seats, List.mem_map] at mem
    obtain ⟨seat, old, rfl⟩ := mem
    refine ⟨seat, old, ?_⟩
    by_cases due : seat.state = .reserved <;> simp [due]
  refine ⟨slots ▸ isolated.distinct, ?_, ?_, slots ▸ isolated.outside⟩
  · intro seat' mem uid assigned file inside
    obtain ⟨seat, old, slot, student, _⟩ := kept seat' mem
    rw [slot] at inside
    exact isolated.own seat old uid (student ▸ assigned) file inside
  · intro seat' mem free file inside
    obtain ⟨seat, old, slot, student, verified⟩ := kept seat' mem
    rw [slot] at inside ⊢
    exact isolated.free seat old ⟨verified free.1, student ▸ free.2⟩ file inside

/- Old seats are as they were and new ones are unassigned. -/
theorem grown (isolated : Isolated none pool answers) (distinct : pool'.slots.Nodup)
    (kept : ∀ slot ∈ pool.slots, pool'.bySlot slot = pool.bySlot slot)
    (added : ∀ seat ∈ pool'.seats, seat.slotNo ∉ pool.slots → seat.uid = none) :
    Isolated none pool' answers := by
  have old : ∀ seat ∈ pool'.seats, seat.slotNo ∈ pool.slots → seat ∈ pool.seats := by
    intro seat mem inside
    have found := kept _ inside
    rw [bySlot_of_mem distinct mem] at found
    exact (mem_of_bySlot found.symm).1
  refine ⟨distinct, ?_, ?_, ?_⟩
  · intro seat mem uid assigned file inside
    by_cases known : seat.slotNo ∈ pool.slots
    · exact isolated.own seat (old seat mem known) uid assigned file inside
    · rw [added seat mem known] at assigned
      cases assigned
  · intro seat mem free file inside
    by_cases known : seat.slotNo ∈ pool.slots
    · exact isolated.free seat (old seat mem known) free file inside
    · simp [isolated.outside _ known] at inside
  · intro slot absent
    apply isolated.outside
    intro known
    obtain ⟨seat, mem, rfl⟩ := List.mem_map.mp known
    have found := kept _ known
    rw [bySlot_of_mem isolated.distinct mem] at found
    exact absent ((mem_of_bySlot found).2 ▸ slot_mem (mem_of_bySlot found).1)

/- One emptied slot becomes an unassigned seat again. -/
theorem rebuilt (isolated : Isolated none pool answers) {slotNo : Nat}
    (distinct : pool'.slots.Nodup) (slots : ∀ slot, slot ∈ pool'.slots ↔ slot ∈ pool.slots)
    (kept : ∀ slot ∈ pool.slots, slot ≠ slotNo → pool'.bySlot slot = pool.bySlot slot)
    (unassigned : ∀ seat ∈ pool'.seats, seat.slotNo = slotNo → seat.uid = none)
    (empty : answers slotNo = []) : Isolated none pool' answers := by
  have old : ∀ seat ∈ pool'.seats, seat.slotNo ≠ slotNo → seat ∈ pool.seats := by
    intro seat mem other
    have found := kept _ ((slots _).mp (slot_mem mem)) other
    rw [bySlot_of_mem distinct mem] at found
    exact (mem_of_bySlot found.symm).1
  refine ⟨distinct, ?_, ?_, fun slot absent => isolated.outside slot (mt (slots slot).mpr absent)⟩
  · intro seat mem uid assigned file inside
    by_cases same : seat.slotNo = slotNo
    · rw [unassigned seat mem same] at assigned
      cases assigned
    · exact isolated.own seat (old seat mem same) uid assigned file inside
  · intro seat mem free file inside
    by_cases same : seat.slotNo = slotNo
    · rw [same, empty] at inside
      cases inside
    · exact isolated.free seat (old seat mem same) free file inside

end Isolated
end NoiContest.Pipeline
