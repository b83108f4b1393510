import NoiContest.Lib.Runs
import NoiContest.SeatPool.Effects

/- The representation invariant of the pool. Slots are numbered in order, roles add up to the
   capacities, and a seat has a student and its evidence exactly when its state says so. -/
namespace NoiContest.SeatPool
open Outcome

def SeatState.IsSeated (state : SeatState) : Prop :=
  state = .reserved ∨ state = .released ∨ state = .frozen ∨ state = .collected

def SeatState.IsProven (state : SeatState) : Prop := state ≠ .planned ∧ state ≠ .warming

theorem SeatState.IsSeated.proven {state : SeatState} (seated : state.IsSeated) :
    state.IsProven := by
  rcases seated with rfl | rfl | rfl | rfl <;> exact ⟨by decide, by decide⟩

theorem SeatState.verified_proven : SeatState.verified.IsProven := ⟨by decide, by decide⟩

structure Seat.WellFormed (seat : Seat) : Prop where
  seated : seat.uid ≠ none ↔ seat.state.IsSeated
  proven : seat.state.IsProven →
    seat.containerRef ≠ "" ∧ seat.imageDigest ≠ "" ∧ seat.materialDigest ≠ ""
  blank : ¬ seat.state.IsProven →
    seat.containerRef = "" ∧ seat.imageDigest = "" ∧ seat.materialDigest = ""

namespace SeatPoolState

/-- Everything but the counts, which hold again only at the end of a replacement. -/
structure Consistent (pool : SeatPoolState) : Prop where
  numbered : pool.slots = List.range' 1 pool.seats.length
  seats : ∀ seat ∈ pool.seats, seat.WellFormed
  students : ∀ a ∈ pool.seats, ∀ b ∈ pool.seats, a.uid ≠ none → a.uid = b.uid → a = b
  containers : ∀ a ∈ pool.seats, ∀ b ∈ pool.seats,
    a.containerRef ≠ "" → a.containerRef = b.containerRef → a = b

structure WellFormed (pool : SeatPoolState) : Prop extends Consistent pool where
  primaries : (pool.seats.countP (·.role == .primary) : Int) = pool.maxParticipants
  spares : (pool.seats.countP (·.role == .spare) : Int) = pool.spareCount
  room : (pool.seats.countP (·.uid.isSome) : Int) ≤ pool.maxParticipants

variable {pool : SeatPoolState} {seat updated : Seat}

theorem Consistent.distinct (consistent : pool.Consistent) : pool.slots.Nodup := by
  rw [consistent.numbered]
  exact List.nodup_range' 1

/- Counting around one changed seat. -/
theorem countP_replaceSeat (p : Seat → Bool) {seats : List Seat}
    (distinct : (seats.map (·.slotNo)).Nodup) (mem : seat ∈ seats)
    (slot : updated.slotNo = seat.slotNo) :
    (replaceSeat seats updated).countP p + (if p seat then 1 else 0) =
      seats.countP p + (if p updated then 1 else 0) := by
  induction seats with
  | nil => cases mem
  | cons head rest ih =>
    simp only [List.map_cons, List.nodup_cons, List.mem_map, not_exists, not_and] at distinct
    obtain ⟨fresh, distinct⟩ := distinct
    rcases List.mem_cons.mp mem with rfl | later
    · have untouched : replaceSeat rest updated = rest := by
        rw [replaceSeat]
        conv_rhs => rw [← List.map_id rest]
        apply List.map_congr_left
        intro other inside
        rw [if_neg (fun same => fresh other inside (same.trans slot))]
        rfl
      have head : replaceSeat (seat :: rest) updated = updated :: replaceSeat rest updated := by
        simp [replaceSeat, slot]
      rw [head, untouched, List.countP_cons, List.countP_cons]
      omega
    · have apart : head.slotNo ≠ updated.slotNo := fun same =>
        fresh seat later (same.trans slot).symm
      have kept : replaceSeat (head :: rest) updated = head :: replaceSeat rest updated := by
        simp [replaceSeat, apart]
      have counted := ih distinct later
      rw [kept, List.countP_cons, List.countP_cons]
      omega

theorem consistent_withSeat (consistent : pool.Consistent) (wellFormed : updated.WellFormed)
    (students : updated.uid ≠ none → ∀ other ∈ pool.seats, other.slotNo ≠ updated.slotNo →
      other.uid ≠ updated.uid)
    (containers : updated.containerRef ≠ "" → ∀ other ∈ pool.seats,
      other.slotNo ≠ updated.slotNo → other.containerRef ≠ updated.containerRef) :
    (pool.withSeat updated).Consistent where
  numbered := by
    rw [withSeat_slots, consistent.numbered]
    simp [withSeat, replaceSeat]
  seats other inside := by
    rcases mem_replaceSeat.mp inside with ⟨rfl, _⟩ | ⟨old, _⟩
    · exact wellFormed
    · exact consistent.seats other old
  students a memA b memB assigned same := by
    rcases mem_replaceSeat.mp memA with ⟨rfl, _⟩ | ⟨oldA, apartA⟩ <;>
      rcases mem_replaceSeat.mp memB with ⟨rfl, _⟩ | ⟨oldB, apartB⟩
    · rfl
    · exact absurd same.symm (students assigned b oldB apartB)
    · exact absurd same (students (same ▸ assigned) a oldA apartA)
    · exact consistent.students a oldA b oldB assigned same
  containers a memA b memB named same := by
    rcases mem_replaceSeat.mp memA with ⟨rfl, _⟩ | ⟨oldA, apartA⟩ <;>
      rcases mem_replaceSeat.mp memB with ⟨rfl, _⟩ | ⟨oldB, apartB⟩
    · rfl
    · exact absurd same.symm (containers named b oldB apartB)
    · exact absurd same (containers (same ▸ named) a oldA apartA)
    · exact consistent.containers a oldA b oldB named same

/- A seat whose student and container stay is still the only one with them. -/
theorem Consistent.uid_apart (consistent : pool.Consistent) (mem : seat ∈ pool.seats)
    (assigned : seat.uid ≠ none) : ∀ other ∈ pool.seats, other.slotNo ≠ seat.slotNo →
      other.uid ≠ seat.uid := by
  intro other inside apart same
  exact apart (congrArg Seat.slotNo (consistent.students seat mem other inside assigned same.symm)).symm

theorem Consistent.container_apart (consistent : pool.Consistent) (mem : seat ∈ pool.seats)
    (named : seat.containerRef ≠ "") : ∀ other ∈ pool.seats, other.slotNo ≠ seat.slotNo →
      other.containerRef ≠ seat.containerRef := by
  intro other inside apart same
  exact apart
    (congrArg Seat.slotNo (consistent.containers seat mem other inside named same.symm)).symm

/- One seat changes within its role. -/
theorem withSeat_wellFormed (wellFormed : pool.WellFormed) (mem : seat ∈ pool.seats)
    (slot : updated.slotNo = seat.slotNo) (role : updated.role = seat.role)
    (consistent : (pool.withSeat updated).Consistent)
    (room : updated.uid.isSome = true → seat.uid.isSome = true ∨
      (pool.seats.countP (·.uid.isSome) : Int) < pool.maxParticipants) :
    (pool.withSeat updated).WellFormed := by
  have distinct := wellFormed.distinct
  have mains := countP_replaceSeat (·.role == .primary) distinct mem slot
  have spares := countP_replaceSeat (·.role == .spare) distinct mem slot
  have students := countP_replaceSeat (·.uid.isSome) distinct mem slot
  have mains' := wellFormed.primaries
  have spares' := wellFormed.spares
  have room' := wellFormed.room
  simp only [role] at mains spares
  refine { consistent with primaries := ?_, spares := ?_, room := ?_ }
  · simp only [withSeat]
    omega
  · simp only [withSeat]
    omega
  · simp only [withSeat]
    by_cases seated : updated.uid.isSome = true
    · rcases room seated with before | free
      · simp only [seated, before, if_true] at students
        omega
      · simp only [seated, if_true] at students
        split at students <;> omega
    · simp only [seated, Bool.false_eq_true, if_false] at students
      split at students <;> omega

/- Receipts, revision and times do not matter. -/
theorem WellFormed.same {other : SeatPoolState} (wellFormed : pool.WellFormed)
    (seats : other.seats = pool.seats) (mains : other.maxParticipants = pool.maxParticipants)
    (spares : other.spareCount = pool.spareCount) : other.WellFormed := by
  have slots : other.slots = pool.slots := by rw [SeatPoolState.slots, SeatPoolState.slots, seats]
  refine { numbered := ?_, seats := ?_, students := ?_, containers := ?_, primaries := ?_,
           spares := ?_, room := ?_ }
  · rw [slots, seats]
    exact wellFormed.numbered
  · rw [seats]
    exact wellFormed.seats
  · rw [seats]
    exact wellFormed.students
  · rw [seats]
    exact wellFormed.containers
  · rw [seats, mains]
    exact wellFormed.primaries
  · rw [seats, spares]
    exact wellFormed.spares
  · rw [seats, mains]
    exact wellFormed.room

/- Commands on every seat change its state and times only. -/
structure Marks (mark : Seat → Seat) : Prop where
  slot : ∀ seat, (mark seat).slotNo = seat.slotNo
  role : ∀ seat, (mark seat).role = seat.role
  uid : ∀ seat, (mark seat).uid = seat.uid
  container : ∀ seat, (mark seat).containerRef = seat.containerRef
  wellFormed : ∀ seat, seat.WellFormed → (mark seat).WellFormed

theorem marked_wellFormed {mark : Seat → Seat} (marks : Marks mark)
    (wellFormed : pool.WellFormed) :
    ({ pool with seats := pool.seats.map mark } : SeatPoolState).WellFormed := by
  have same : ∀ a ∈ pool.seats, ∀ b ∈ pool.seats, a = b → mark a = mark b :=
    fun _ _ _ _ eq => congrArg mark eq
  refine { numbered := ?_, seats := ?_, students := ?_, containers := ?_, primaries := ?_,
           spares := ?_, room := ?_ }
  · have slots : (pool.seats.map mark).map (·.slotNo) = pool.slots := by
      simp [slots, Function.comp_def, marks.slot]
    simpa [SeatPoolState.slots, Function.comp_def, marks.slot] using wellFormed.numbered
  · intro seat inside
    obtain ⟨old, mem, rfl⟩ := List.mem_map.mp inside
    exact marks.wellFormed old (wellFormed.seats old mem)
  · intro a insideA b insideB assigned eq
    obtain ⟨oldA, memA, rfl⟩ := List.mem_map.mp insideA
    obtain ⟨oldB, memB, rfl⟩ := List.mem_map.mp insideB
    rw [marks.uid] at assigned eq
    rw [marks.uid] at eq
    exact same oldA memA oldB memB (wellFormed.students oldA memA oldB memB assigned eq)
  · intro a insideA b insideB named eq
    obtain ⟨oldA, memA, rfl⟩ := List.mem_map.mp insideA
    obtain ⟨oldB, memB, rfl⟩ := List.mem_map.mp insideB
    rw [marks.container] at named eq
    rw [marks.container] at eq
    exact same oldA memA oldB memB (wellFormed.containers oldA memA oldB memB named eq)
  · simpa [List.countP_map, Function.comp_def, marks.role] using wellFormed.primaries
  · simpa [List.countP_map, Function.comp_def, marks.role] using wellFormed.spares
  · simpa [List.countP_map, Function.comp_def, marks.uid] using wellFormed.room

/- Which seats a bulk command marks depends on the state alone. -/
theorem markAll_wellFormed {selected : Seat → Bool} {mark : Seat → Seat}
    {value : List Seat → CommandValue} (marks : Marks fun seat =>
      if selected seat then mark seat else seat) (wellFormed : pool.WellFormed) :
    (pool.markAll selected mark value).pool.WellFormed :=
  marked_wellFormed marks wellFormed

/- Growing -/

theorem planned_wellFormed (index : Nat) (role : Role) : (Seat.planned index role).WellFormed where
  seated := by simp [Seat.planned, SeatState.IsSeated]
  proven proven := absurd rfl proven.1
  blank _ := ⟨rfl, rfl, rfl⟩

theorem nextSlot_eq (numbered : pool.slots = List.range' 1 pool.seats.length) :
    pool.nextSlot = pool.seats.length + 1 := by
  have bound : ∀ n start, (List.range' start n).foldr max 0 = if n = 0 then 0 else start + n - 1 := by
    intro n
    induction n with
    | zero => simp
    | succ n ih =>
      intro start
      rw [List.range'_succ, List.foldr_cons, ih]
      split <;> split <;> omega
  unfold nextSlot
  rw [show pool.seats.map (·.slotNo) = pool.slots from rfl, numbered, bound]
  split <;> omega

theorem addedSeats_planned {mains spares : Int} (mem : seat ∈ pool.addedSeats mains spares) :
    ∃ index role, seat = Seat.planned index role := by
  simp only [addedSeats, List.mem_append, List.mem_map] at mem
  rcases mem with ⟨index, _, rfl⟩ | ⟨index, _, rfl⟩
  · exact ⟨index, .primary, rfl⟩
  · exact ⟨index, .spare, rfl⟩

theorem extended_wellFormed {mains spares : Int} (wellFormed : pool.WellFormed)
    (main : 0 ≤ mains) (spare : 0 ≤ spares) : (pool.extended mains spares).WellFormed := by
  have planned : ∀ seat ∈ pool.addedSeats mains spares, seat.uid = none ∧
      seat.containerRef = "" ∧ seat.WellFormed := by
    intro seat mem
    obtain ⟨index, role, rfl⟩ := addedSeats_planned mem
    exact ⟨rfl, rfl, planned_wellFormed index role⟩
  have length : (pool.addedSeats mains spares).length = mains.toNat + spares.toNat := by
    simp [addedSeats]
  refine { numbered := ?_, seats := ?_, students := ?_, containers := ?_, primaries := ?_,
           spares := ?_, room := ?_ }
  · rw [extended_slots, wellFormed.numbered, nextSlot_eq wellFormed.numbered]
    simp only [extended, List.length_append, length]
    rw [Nat.add_comm _ 1, List.range'_append_1]
  · intro seat inside
    rcases List.mem_append.mp inside with old | new
    · exact wellFormed.seats seat old
    · exact (planned seat new).2.2
  · intro a insideA b insideB assigned same
    rcases List.mem_append.mp insideA with oldA | newA
    · rcases List.mem_append.mp insideB with oldB | newB
      · exact wellFormed.students a oldA b oldB assigned same
      · rw [same, (planned b newB).1] at assigned
        exact absurd rfl assigned
    · exact absurd (planned a newA).1 assigned
  · intro a insideA b insideB named same
    rcases List.mem_append.mp insideA with oldA | newA
    · rcases List.mem_append.mp insideB with oldB | newB
      · exact wellFormed.containers a oldA b oldB named same
      · rw [same, (planned b newB).2.1] at named
        exact absurd rfl named
    · exact absurd (planned a newA).2.1 named
  · have before := wellFormed.primaries
    have added : (pool.addedSeats mains spares).countP (·.role == .primary) = mains.toNat := by
      simp [addedSeats, List.countP_map, Function.comp_def, Seat.planned]
    simp only [extended, List.countP_append, added]
    omega
  · have before := wellFormed.spares
    have added : (pool.addedSeats mains spares).countP (·.role == .spare) = spares.toNat := by
      simp [addedSeats, List.countP_map, Function.comp_def, Seat.planned]
    simp only [extended, List.countP_append, added]
    omega
  · have before := wellFormed.room
    have added : (pool.addedSeats mains spares).countP (·.uid.isSome) = 0 := by
      simp [addedSeats, List.countP_map, Function.comp_def, Seat.planned]
    simp only [extended, List.countP_append, added]
    omega

/- The commands -/

section Commands
variable {operation commandId : String} {arguments : List (String × JsonText.Json)}
  {expectedRevision nowMs : Int} {mutate : Except PoolError Mutation} {result : TransitionResult}

theorem apply_wellFormed (wellFormed : pool.WellFormed)
    (mutates : ∀ changed, mutate = .ok changed → changed.pool.WellFormed)
    (applied : pool.apply operation arguments commandId expectedRevision mutate = .ok result) :
    result.state.WellFormed := by
  rcases apply_ok applied with ⟨_, _, _, rfl⟩ | ⟨_, _, changed, mutated, rfl⟩
  · exact wellFormed
  · exact (mutates changed mutated).same rfl rfl rfl

/- A seat that keeps its slot, role, student and container needs no look at the others. -/
theorem kept_wellFormed (wellFormed : pool.WellFormed) (mem : seat ∈ pool.seats)
    (slot : updated.slotNo = seat.slotNo) (role : updated.role = seat.role)
    (uid : updated.uid = seat.uid) (container : updated.containerRef = seat.containerRef)
    (ok : updated.WellFormed) : (pool.withSeat updated).WellFormed := by
  apply withSeat_wellFormed wellFormed mem slot role
  · apply consistent_withSeat wellFormed.toConsistent ok
    · rw [uid, slot]
      exact wellFormed.uid_apart mem
    · rw [container, slot]
      exact wellFormed.container_apart mem
  · intro assigned
    exact .inl (uid ▸ assigned)

theorem markWarming_wellFormed {slotNo : Nat} (wellFormed : pool.WellFormed)
    (done : pool.markWarming slotNo nowMs commandId expectedRevision = .ok result) :
    result.state.WellFormed := by
  apply apply_wellFormed wellFormed _ done
  intro changed mutated
  obtain ⟨seat, found, mutated⟩ := bind_ok.mp mutated
  obtain ⟨mem, slot⟩ := seat_ok found
  obtain ⟨_, _, mutated⟩ := bind_ok.mp mutated
  simp only [pure_eq_ok] at mutated
  subst mutated
  have ok := wellFormed.seats seat mem
  by_cases planned : seat.state = .planned
  · simp only [planned, if_true]
    refine kept_wellFormed wellFormed mem rfl rfl rfl rfl ?_
    have empty := ok.blank (fun proven => proven.1 planned)
    have unassigned : seat.uid = none := by
      by_contra assigned
      simpa [planned, SeatState.IsSeated] using ok.seated.mp assigned
    refine ⟨?_, fun proven => absurd rfl proven.2, fun _ => empty⟩
    simp [unassigned, SeatState.IsSeated]
  · simp only [planned, if_false]
    exact kept_wellFormed wellFormed mem rfl rfl rfl rfl ok

theorem markVerified_wellFormed {slotNo : Nat} {container image material : String}
    (wellFormed : pool.WellFormed)
    (done : pool.markVerified slotNo container image material nowMs commandId expectedRevision =
      .ok result) : result.state.WellFormed := by
  obtain ⟨_, given, done⟩ := bind_ok.mp done
  simp only [raiseIf_ok, not_or] at given
  obtain ⟨named, imaged, approved⟩ := given
  apply apply_wellFormed wellFormed _ done
  intro changed mutated
  obtain ⟨seat, found, mutated⟩ := bind_ok.mp mutated
  obtain ⟨mem, slot⟩ := seat_ok found
  have ok := wellFormed.seats seat mem
  split at mutated
  · obtain ⟨_, _, mutated⟩ := bind_ok.mp mutated
    simp only [pure_eq_ok] at mutated
    subst mutated
    exact kept_wellFormed wellFormed mem rfl rfl rfl rfl ok
  · obtain ⟨_, warming, mutated⟩ := bind_ok.mp mutated
    obtain ⟨_, unused, mutated⟩ := bind_ok.mp mutated
    simp only [raiseIf_ok, ne_eq, not_not, not_exists, not_and] at warming unused
    simp only [pure_eq_ok] at mutated
    subst mutated
    have unassigned : seat.uid = none := by
      by_contra assigned
      simpa [warming, SeatState.IsSeated] using ok.seated.mp assigned
    refine withSeat_wellFormed wellFormed mem rfl rfl ?_ ?_
    · apply consistent_withSeat wellFormed.toConsistent
      · refine ⟨?_, fun _ => ⟨named, imaged, approved⟩, fun unproven => ?_⟩
        · simp [unassigned, SeatState.IsSeated]
        · exact absurd SeatState.verified_proven unproven
      · intro assigned
        exact absurd unassigned assigned
      · intro _ other inside apart same
        have used : other.containerRef ≠ "" := by
          rw [same]
          exact named
        exact unused other inside (slot ▸ apart) used same
    · intro assigned
      simp [unassigned] at assigned

theorem reservationState_seated (nowMs releaseAtMs : Int) :
    (reservationState nowMs releaseAtMs).IsSeated := by
  unfold reservationState
  split
  · exact .inr (.inl rfl)
  · exact .inl rfl

theorem reserved_wellFormed {uid : Int} {uname : String} {releaseAtMs : Int}
    (wellFormed : pool.WellFormed) (free : seat.IsFree) (mem : seat ∈ pool.seats)
    (unseated : pool.assignment uid = none)
    (room : (pool.assigned.length : Int) < pool.maxParticipants) :
    (pool.withSeat (reservedSeat seat uid uname nowMs releaseAtMs)).WellFormed := by
  have ok := wellFormed.seats seat mem
  have verified : seat.state.IsProven := by
    rw [free.1]
    exact SeatState.verified_proven
  have seated := reservationState_seated nowMs releaseAtMs
  refine withSeat_wellFormed wellFormed mem rfl rfl ?_ ?_
  · apply consistent_withSeat wellFormed.toConsistent
    · refine ⟨?_, fun _ => ok.proven verified, fun unproven => absurd seated.proven unproven⟩
      exact iff_of_true (by simp [reservedSeat]) seated
    · intro _ other inside _ same
      have taken : other.uid = some uid := same
      have absent := List.find?_eq_none.mp unseated other inside
      simp [taken] at absent
    · intro named other inside apart
      exact wellFormed.container_apart mem named other inside apart
  · intro _
    right
    rw [assigned, ← List.countP_eq_length_filter] at room
    exact room

theorem reserve_wellFormed {uid : Int} {uname : String} (wellFormed : pool.WellFormed)
    (done : pool.reserve uid uname nowMs commandId expectedRevision = .ok result) :
    result.state.WellFormed := by
  rcases reserve_ok done with same | ⟨print, existing, _, _, _, _, state⟩ |
    ⟨print, chosen, _, unseated, room, handed, _, state⟩
  · rw [same]
    exact wellFormed
  · rw [state]
    exact wellFormed.same rfl rfl rfl
  · obtain ⟨mem, free⟩ := mem_available.mp handed
    rw [state]
    exact (reserved_wellFormed wellFormed free mem unseated room).same rfl rfl rfl

theorem release_wellFormed {uid : Int} (wellFormed : pool.WellFormed)
    (done : pool.release uid nowMs commandId expectedRevision = .ok result) :
    result.state.WellFormed := by
  apply apply_wellFormed wellFormed _ done
  intro changed mutated
  split at mutated
  · simp only [throw_ne_ok] at mutated
  · rename_i seat found
    obtain ⟨mem, assigned⟩ := assignment_some found
    split at mutated
    · simp only [pure_eq_ok] at mutated
      subst mutated
      exact wellFormed
    · obtain ⟨_, reserved, mutated⟩ := bind_ok.mp mutated
      obtain ⟨_, _, mutated⟩ := bind_ok.mp mutated
      simp only [raiseIf_ok, ne_eq, not_not] at reserved
      simp only [pure_eq_ok] at mutated
      subst mutated
      have ok := wellFormed.seats seat mem
      refine kept_wellFormed wellFormed mem rfl rfl rfl rfl ?_
      have released : SeatState.released.IsSeated := .inr (.inl rfl)
      have before : seat.state.IsSeated := .inl reserved
      refine ⟨?_, fun _ => ok.proven before.proven, fun unproven => ?_⟩
      · exact iff_of_true (by simp [assigned]) released
      · exact absurd released.proven unproven

/- A mark that moves seated states to seated states. -/
theorem marks_of_seated {selected : Seat → Bool} {mark : Seat → Seat}
    (slot : ∀ seat, (mark seat).slotNo = seat.slotNo) (role : ∀ seat, (mark seat).role = seat.role)
    (uid : ∀ seat, (mark seat).uid = seat.uid)
    (evidence : ∀ seat, (mark seat).containerRef = seat.containerRef ∧
      (mark seat).imageDigest = seat.imageDigest ∧
      (mark seat).materialDigest = seat.materialDigest)
    (before : ∀ seat, selected seat = true → seat.state.IsSeated)
    (after : ∀ seat, (mark seat).state.IsSeated) :
    Marks fun seat => if selected seat then mark seat else seat := by
  refine ⟨fun seat => ?_, fun seat => ?_, fun seat => ?_, fun seat => ?_, fun seat ok => ?_⟩
  · split
    · exact slot seat
    · rfl
  · split
    · exact role seat
    · rfl
  · split
    · exact uid seat
    · rfl
  · split
    · exact (evidence seat).1
    · rfl
  · split
    · rename_i chosen
      obtain ⟨container, image, material⟩ := evidence seat
      refine ⟨?_, fun _ => ?_, fun unproven => absurd (after seat).proven unproven⟩
      · rw [uid]
        exact iff_of_true (ok.seated.mpr (before seat chosen)) (after seat)
      · rw [container, image, material]
        exact ok.proven (before seat chosen).proven
    · exact ok

theorem releaseDue_wellFormed (wellFormed : pool.WellFormed)
    (done : pool.releaseDue nowMs commandId expectedRevision = .ok result) :
    result.state.WellFormed := by
  apply apply_wellFormed wellFormed _ done
  intro changed mutated
  cases mutated
  split
  · exact wellFormed
  · apply markAll_wellFormed _ wellFormed
    refine marks_of_seated (fun _ => rfl) (fun _ => rfl) (fun _ => rfl)
      (fun _ => ⟨rfl, rfl, rfl⟩) ?_ ?_
    · intro seat reserved
      exact .inl (by simpa using reserved)
    · intro seat
      exact .inr (.inl rfl)

theorem freeze_wellFormed (wellFormed : pool.WellFormed)
    (done : pool.freeze nowMs commandId expectedRevision = .ok result) :
    result.state.WellFormed := by
  apply apply_wellFormed wellFormed _ done
  intro changed mutated
  cases mutated
  apply markAll_wellFormed _ wellFormed
  refine marks_of_seated (fun _ => rfl) (fun _ => rfl) (fun _ => rfl)
      (fun _ => ⟨rfl, rfl, rfl⟩) ?_ ?_
  · intro seat chosen
    simp only [Bool.and_eq_true, Bool.or_eq_true, beq_iff_eq] at chosen
    rcases chosen.2 with reserved | released
    · exact .inl reserved
    · exact .inr (.inl released)
  · intro seat
    exact .inr (.inr (.inl rfl))

theorem collect_wellFormed (wellFormed : pool.WellFormed)
    (done : pool.collect nowMs commandId expectedRevision = .ok result) :
    result.state.WellFormed := by
  apply apply_wellFormed wellFormed _ done
  intro changed mutated
  cases mutated
  apply markAll_wellFormed _ wellFormed
  refine marks_of_seated (fun _ => rfl) (fun _ => rfl) (fun _ => rfl)
      (fun _ => ⟨rfl, rfl, rfl⟩) ?_ ?_
  · intro seat frozen
    exact .inr (.inr (.inl (by simpa using frozen)))
  · intro seat
    exact .inr (.inr (.inr rfl))

/- The failed seat is blank again, in the role its student no longer needs. -/
theorem resetFailed_wellFormed (failed : Seat) (role : Role) (reason : String) :
    (resetFailed failed role reason).WellFormed where
  seated := by simp [resetFailed, SeatState.IsSeated]
  proven proven := absurd rfl proven.1
  blank _ := ⟨rfl, rfl, rfl⟩

theorem takeOver_seated (spare failed : Seat) (nowMs releaseAtMs : Int) :
    (takeOver spare failed nowMs releaseAtMs).state.IsSeated := by
  by_cases released : failed.state = .released
  · simp [takeOver, released, SeatState.IsSeated]
  · simpa [takeOver, released] using reservationState_seated nowMs releaseAtMs

/- The student, the role and the readiness of the failed seat move to the spare. -/
theorem replaced_wellFormed {failed spare : Seat} {reason : String} (wellFormed : pool.WellFormed)
    (memFailed : failed ∈ pool.seats) (student : failed.uid ≠ none) (memSpare : spare ∈ pool.seats)
    (free : isFreeSpare spare = true) :
    ((pool.withSeat (resetFailed failed .spare reason)).withSeat
      (takeOver spare failed nowMs pool.releaseAtMs)).WellFormed := by
  simp only [isFreeSpare, Bool.and_eq_true, beq_iff_eq] at free
  obtain ⟨⟨role, verified⟩, unassigned⟩ := free
  have apart : failed.slotNo ≠ spare.slotNo := by
    intro same
    rw [seat_eq_of_slot wellFormed.distinct memFailed memSpare same] at student
    exact student unassigned
  have ready := (wellFormed.seats spare memSpare).proven (by
    rw [verified]
    exact SeatState.verified_proven)
  have seated := takeOver_seated spare failed nowMs pool.releaseAtMs
  have vacated : (pool.withSeat (resetFailed failed .spare reason)).Consistent := by
    apply consistent_withSeat wellFormed.toConsistent (resetFailed_wellFormed failed .spare reason)
    · exact fun impossible => absurd rfl impossible
    · exact fun impossible => absurd rfl impossible
  have memSpare' : spare ∈ (pool.withSeat (resetFailed failed .spare reason)).seats :=
    mem_replaceSeat.mpr (.inr ⟨memSpare, Ne.symm apart⟩)
  have consistent : ((pool.withSeat (resetFailed failed .spare reason)).withSeat
      (takeOver spare failed nowMs pool.releaseAtMs)).Consistent := by
    apply consistent_withSeat vacated
    · refine ⟨iff_of_true student seated, fun _ => ready, fun unproven => ?_⟩
      exact absurd seated.proven unproven
    · intro _ other inside _ same
      have owner : other.uid = failed.uid := same
      rcases mem_replaceSeat.mp inside with ⟨rfl, _⟩ | ⟨old, away⟩
      · exact student owner.symm
      · exact wellFormed.uid_apart memFailed student other old away owner
    · intro named other inside away
      exact vacated.container_apart memSpare' named other inside away
  have counted : ∀ p : Seat → Bool,
      ((pool.withSeat (resetFailed failed .spare reason)).withSeat
        (takeOver spare failed nowMs pool.releaseAtMs)).seats.countP p +
          ((if p failed then 1 else 0) + (if p spare then 1 else 0)) =
        pool.seats.countP p + ((if p (resetFailed failed .spare reason) then 1 else 0) +
          (if p (takeOver spare failed nowMs pool.releaseAtMs) then 1 else 0)) := by
    intro p
    have first := countP_replaceSeat p wellFormed.distinct memFailed
      (show (resetFailed failed .spare reason).slotNo = failed.slotNo from rfl)
    have second := countP_replaceSeat p vacated.distinct memSpare'
      (show (takeOver spare failed nowMs pool.releaseAtMs).slotNo = spare.slotNo from rfl)
    simp only [withSeat] at second ⊢
    omega
  -- both kinds of seats are swapped one for one, and one student moves
  have mains := counted (·.role == .primary)
  have spares := counted (·.role == .spare)
  have students := counted (·.uid.isSome)
  have mainsBefore := wellFormed.primaries
  have sparesBefore := wellFormed.spares
  have room := wellFormed.room
  have owner : failed.uid.isSome = true := Option.isSome_iff_ne_none.mpr student
  have resetRole : (resetFailed failed .spare reason).role = .spare := rfl
  have resetUid : (resetFailed failed .spare reason).uid = none := rfl
  have movedRole : (takeOver spare failed nowMs pool.releaseAtMs).role = failed.role := rfl
  have movedUid : (takeOver spare failed nowMs pool.releaseAtMs).uid = failed.uid := rfl
  simp only [resetRole, movedRole, role] at mains spares
  simp only [resetUid, movedUid, unassigned, owner] at students
  refine { consistent with primaries := ?_, spares := ?_, room := ?_ }
  · change _ = pool.maxParticipants
    cases kept : failed.role <;> simp [kept] at mains <;> omega
  · change _ = pool.spareCount
    cases kept : failed.role <;> simp [kept] at spares <;> omega
  · change _ ≤ pool.maxParticipants
    simp at students
    omega

theorem replaceFailed_wellFormed {slotNo : Nat} {reason : String} {approved : Bool}
    (wellFormed : pool.WellFormed)
    (done : pool.replaceFailed slotNo reason nowMs approved commandId expectedRevision =
      .ok result) : result.state.WellFormed := by
  obtain ⟨_, _, done⟩ := bind_ok.mp done
  apply apply_wellFormed wellFormed _ done
  intro changed mutated
  obtain ⟨failed, found, mutated⟩ := bind_ok.mp mutated
  obtain ⟨mem, slot⟩ := seat_ok found
  obtain ⟨_, _, mutated⟩ := bind_ok.mp mutated
  split at mutated
  · simp only [pure_eq_ok] at mutated
    subst mutated
    exact wellFormed
  · split at mutated
    · rename_i unassigned
      simp only [pure_eq_ok] at mutated
      subst mutated
      refine withSeat_wellFormed wellFormed mem rfl rfl ?_ ?_
      · apply consistent_withSeat wellFormed.toConsistent (resetFailed_wellFormed failed _ _)
        · exact fun impossible => absurd rfl impossible
        · exact fun impossible => absurd rfl impossible
      · intro impossible
        simp [resetFailed] at impossible
    · rename_i student
      split at mutated
      · simp only [throw_ne_ok] at mutated
      · rename_i spare search
        simp only [pure_eq_ok] at mutated
        subst mutated
        exact replaced_wellFormed wellFormed mem student (List.mem_of_find?_eq_some search)
          (List.find?_some search)

theorem grow_wellFormed {mains spares : Int} (wellFormed : pool.WellFormed)
    (done : pool.grow mains spares commandId expectedRevision = .ok result) :
    result.state.WellFormed := by
  obtain ⟨_, main, done⟩ := bind_ok.mp done
  obtain ⟨_, spare, done⟩ := bind_ok.mp done
  obtain ⟨_, _, done⟩ := bind_ok.mp done
  simp only [validateInt, raiseIf_ok, not_lt] at main spare
  apply apply_wellFormed wellFormed _ done
  intro changed mutated
  cases mutated
  exact extended_wellFormed wellFormed main spare

theorem reconcileRosterCapacity_wellFormed {count minimum percent : Int}
    (wellFormed : pool.WellFormed)
    (done : pool.reconcileRosterCapacity count minimum percent commandId expectedRevision =
      .ok result) : result.state.WellFormed := by
  obtain ⟨⟨targetMain, targetSpares⟩, _, done⟩ := bind_ok.mp done
  dsimp only at done
  split at done
  · simp only [pure_eq_ok] at done
    subst done
    exact wellFormed
  · apply apply_wellFormed wellFormed _ done
    intro changed mutated
    cases mutated
    exact extended_wellFormed wellFormed (le_max_left _ _) (le_max_left _ _)

theorem reschedule_wellFormed {beginAtMs lead : Int} (wellFormed : pool.WellFormed)
    (done : pool.reschedule beginAtMs lead commandId expectedRevision = .ok result) :
    result.state.WellFormed := by
  obtain ⟨_, _, done⟩ := bind_ok.mp done
  obtain ⟨_, _, done⟩ := bind_ok.mp done
  obtain ⟨_, _, done⟩ := bind_ok.mp done
  dsimp only at done
  split at done
  · simp only [pure_eq_ok] at done
    subst done
    exact wellFormed
  · apply apply_wellFormed wellFormed _ done
    intro changed mutated
    cases mutated
    exact wellFormed.same rfl rfl rfl

end Commands

theorem afterCommand_wellFormed (wellFormed : pool.WellFormed) (c : Command) :
    (pool.afterCommand c).WellFormed := by
  unfold afterCommand
  split
  · rename_i result done
    unfold command at done
    cases operation : c.operation <;> simp only [operation] at done
    case markWarming => exact markWarming_wellFormed wellFormed done
    case markVerified => exact markVerified_wellFormed wellFormed done
    case reserve => exact reserve_wellFormed wellFormed done
    case release => exact release_wellFormed wellFormed done
    case releaseDue => exact releaseDue_wellFormed wellFormed done
    case replaceFailed => exact replaceFailed_wellFormed wellFormed done
    case grow => exact grow_wellFormed wellFormed done
    case reconcileRosterCapacity => exact reconcileRosterCapacity_wellFormed wellFormed done
    case reschedule => exact reschedule_wellFormed wellFormed done
    case freeze => exact freeze_wellFormed wellFormed done
    case collect => exact collect_wellFormed wellFormed done
  · exact wellFormed

/- The first seats are primary and the rest are spares. -/
theorem createdSeats_eq (mains spares : Nat) :
    ((List.range' 1 (mains + spares)).map fun index : Nat =>
      Seat.planned index (if (index : Int) ≤ (mains : Int) then Role.primary else Role.spare)) =
    (List.range' 1 mains).map (Seat.planned · .primary) ++
      (List.range' (1 + mains) spares).map (Seat.planned · .spare) := by
  rw [← List.range'_append_1, List.map_append]
  congr 1
  · apply List.map_congr_left
    intro index mem
    have below := (List.mem_range'_1.mp mem).2
    rw [if_pos (by omega)]
  · apply List.map_congr_left
    intro index mem
    have above := (List.mem_range'_1.mp mem).1
    rw [if_neg (by omega)]

theorem create_wellFormed {tid : String} {mains spares beginAtMs lead : Int}
    (created : create tid mains spares beginAtMs lead = .ok pool) : pool.WellFormed := by
  obtain ⟨_, _, created⟩ := bind_ok.mp created
  obtain ⟨_, main, created⟩ := bind_ok.mp created
  obtain ⟨_, spare, created⟩ := bind_ok.mp created
  obtain ⟨_, _, created⟩ := bind_ok.mp created
  obtain ⟨_, _, created⟩ := bind_ok.mp created
  obtain ⟨_, _, created⟩ := bind_ok.mp created
  simp only [validateInt, raiseIf_ok, not_lt] at main spare
  simp only [pure_eq_ok] at created
  obtain ⟨mains, rfl⟩ := Int.eq_ofNat_of_zero_le main
  obtain ⟨spares, rfl⟩ := Int.eq_ofNat_of_zero_le spare
  have seats : pool.seats = (List.range' 1 mains).map (Seat.planned · .primary) ++
      (List.range' (1 + mains) spares).map (Seat.planned · .spare) := by
    rw [← created, ← createdSeats_eq]
    have total : ((mains : Int) + (spares : Int)).toNat = mains + spares := by omega
    rw [total]
  have capacity : pool.maxParticipants = mains ∧ pool.spareCount = spares := by
    rw [← created]
    exact ⟨rfl, rfl⟩
  have planned : ∀ seat ∈ pool.seats, ∃ index role, seat = Seat.planned index role := by
    intro seat mem
    rw [seats] at mem
    simp only [List.mem_append, List.mem_map] at mem
    rcases mem with ⟨index, _, rfl⟩ | ⟨index, _, rfl⟩
    · exact ⟨index, .primary, rfl⟩
    · exact ⟨index, .spare, rfl⟩
  refine { numbered := ?_, seats := ?_, students := ?_, containers := ?_, primaries := ?_,
           spares := ?_, room := ?_ }
  · simp [slots, seats, Function.comp_def, Seat.planned, List.range'_append_1]
  · intro seat mem
    obtain ⟨index, role, rfl⟩ := planned seat mem
    exact planned_wellFormed index role
  · intro a memA b _ assigned
    obtain ⟨index, role, rfl⟩ := planned a memA
    exact absurd rfl assigned
  · intro a memA b _ named
    obtain ⟨index, role, rfl⟩ := planned a memA
    exact absurd rfl named
  · have other : (Role.spare == Role.primary) = false := rfl
    simp [seats, capacity.1, List.countP_map, Function.comp_def, Seat.planned, other]
  · have other : (Role.primary == Role.spare) = false := rfl
    simp [seats, capacity.2, List.countP_map, Function.comp_def, Seat.planned, other]
  · simp [seats, capacity.1, List.countP_map, Function.comp_def, Seat.planned]

/- The invariant in every state that commands reach from a new pool. -/
theorem reachable_wellFormed {tid : String} {mains spares beginAtMs lead : Int}
    (created : create tid mains spares beginAtMs lead = .ok pool) (commands : List Command) :
    (Runs.run afterCommand pool commands).WellFormed :=
  Runs.run_invariant WellFormed (fun _ c wellFormed => afterCommand_wellFormed wellFormed c)
    (create_wellFormed created) commands

/- One student comes, the seat fails, and a spare takes over. -/
def replacementCommands : List Command :=
  [⟨.markWarming 1 5, "w1", 0⟩, ⟨.markVerified 1 "c1" "image" "material" 6, "v1", 1⟩,
    ⟨.markWarming 2 5, "w2", 2⟩, ⟨.markVerified 2 "c2" "image" "material" 6, "v2", 3⟩,
    ⟨.reserve 7 "alice" 7, "r7", 4⟩, ⟨.replaceFailed 1 "broken" 8 true, "f1", 5⟩]

def oneOfEach : SeatPoolState :=
  (create "tid" 1 1 1000000).toOption.getD ⟨"", 0, 0, 0, 0, 0, [], []⟩

theorem pool_wellFormed_after_replacement :
    (Runs.run afterCommand oneOfEach replacementCommands).WellFormed :=
  have created : create "tid" 1 1 1000000 = .ok oneOfEach := by decide +kernel
  reachable_wellFormed created replacementCommands

end SeatPoolState
end NoiContest.SeatPool
