import NoiContest.SeatPool.Representation

/- What the students keep. A command never takes a seat away, moves a student only off the seat
   that it replaces, and brings the seat of a student only forward. -/
namespace NoiContest.SeatPool
open Outcome

/-- The states of a seat with a student, in their order. -/
def SeatState.rank : SeatState → Option Nat
  | .reserved => some 0
  | .released => some 1
  | .frozen => some 2
  | .collected => some 3
  | _ => none

def SeatState.Advances (before after : SeatState) : Prop :=
  ∃ low high, before.rank = some low ∧ after.rank = some high ∧ low ≤ high

theorem SeatState.IsSeated.advances_self {state : SeatState} (seated : state.IsSeated) :
    state.Advances state := by
  rcases seated with rfl | rfl | rfl | rfl
  · exact ⟨0, 0, rfl, rfl, le_rfl⟩
  · exact ⟨1, 1, rfl, rfl, le_rfl⟩
  · exact ⟨2, 2, rfl, rfl, le_rfl⟩
  · exact ⟨3, 3, rfl, rfl, le_rfl⟩

theorem SeatState.Advances.trans {first second third : SeatState}
    (early : first.Advances second) (late : second.Advances third) : first.Advances third := by
  obtain ⟨low, middle, isLow, isMiddle, below⟩ := early
  obtain ⟨middle', high, isMiddle', isHigh, below'⟩ := late
  cases isMiddle.symm.trans isMiddle'
  exact ⟨low, high, isLow, isHigh, below.trans below'⟩

namespace Operation

def nowMs : Operation → Option Int
  | .markWarming _ nowMs => some nowMs
  | .markVerified _ _ _ _ nowMs => some nowMs
  | .reserve _ _ nowMs => some nowMs
  | .release _ nowMs => some nowMs
  | .releaseDue nowMs => some nowMs
  | .replaceFailed _ _ nowMs _ => some nowMs
  | .grow _ _ => none
  | .reconcileRosterCapacity _ _ _ => none
  | .reschedule _ _ => none
  | .freeze nowMs => some nowMs
  | .collect nowMs => some nowMs

/-- The slot whose student the operation moves. -/
def replaces : Operation → Option Nat
  | .replaceFailed slotNo _ _ _ => some slotNo
  | _ => none

/-- The operation comes with a time at which the pool is released. -/
def Due (operation : Operation) (pool : SeatPoolState) : Prop :=
  ∃ nowMs, operation.nowMs = some nowMs ∧ pool.releaseAtMs ≤ nowMs

end Operation

namespace SeatPoolState
variable {pool after : SeatPoolState} {operation : Operation}

/-- What one operation leaves to the students. -/
structure Progress (operation : Operation) (before after : SeatPoolState) : Prop where
  /-- A seat is given up for another one only when it is replaced. -/
  seated : ∀ uid seat, before.assignment uid = some seat → ∃ seat',
    after.assignment uid = some seat' ∧
    (seat'.slotNo ≠ seat.slotNo → operation.replaces = some seat.slotNo) ∧
    seat.state.Advances seat'.state
  /-- A seat is released in time, or takes over from a released one. -/
  released : ∀ seat' ∈ after.seats, seat'.state = .released →
    (∃ seat ∈ before.seats, seat.slotNo = seat'.slotNo ∧ seat.state = .released) ∨
    (∃ failed ∈ before.seats, operation.replaces = some failed.slotNo ∧
      failed.state = .released ∧ failed.uid = seat'.uid) ∨
    operation.Due before

theorem assignment_of_mem (wellFormed : pool.WellFormed) {seat : Seat} {uid : Int}
    (mem : seat ∈ pool.seats) (assigned : seat.uid = some uid) :
    pool.assignment uid = some seat := by
  cases search : pool.assignment uid with
  | none =>
    have missing := List.find?_eq_none.mp search seat mem
    simp [assigned] at missing
  | some other =>
    obtain ⟨memOther, assignedOther⟩ := assignment_some search
    have same := wellFormed.students other memOther seat mem (by simp [assignedOther])
      (assignedOther.trans assigned.symm)
    rw [same]

theorem WellFormed.state_of_student (wellFormed : pool.WellFormed) {seat : Seat} {uid : Int}
    (mem : seat ∈ pool.seats) (assigned : seat.uid = some uid) : seat.state.IsSeated :=
  (wellFormed.seats seat mem).seated.mp (by simp [assigned])

/-- A seat in place: the student stays, and the state goes forward. -/
structure Stays (operation : Operation) (pool : SeatPoolState) (seat seat' : Seat) : Prop where
  slot : seat'.slotNo = seat.slotNo
  uid : ∀ uid, seat.uid = some uid → seat'.uid = some uid ∧ seat.state.Advances seat'.state
  released : seat'.state = .released → seat.state = .released ∨ operation.Due pool

theorem Stays.refl (wellFormed : pool.WellFormed) {seat : Seat} (mem : seat ∈ pool.seats) :
    Stays operation pool seat seat :=
  ⟨rfl, fun _ assigned => ⟨assigned, (wellFormed.state_of_student mem assigned).advances_self⟩,
    .inl⟩

/- Every seat goes its own way; seats without a student may be added. -/
theorem progress_of_stays (wellFormed : after.WellFormed)
    (kept : ∀ seat ∈ pool.seats, ∃ seat' ∈ after.seats, Stays operation pool seat seat')
    (came : ∀ seat' ∈ after.seats, seat'.state = .released →
      ∃ seat ∈ pool.seats, Stays operation pool seat seat') :
    Progress operation pool after := by
  constructor
  · intro uid seat found
    obtain ⟨mem, assigned⟩ := assignment_some found
    obtain ⟨seat', mem', stays⟩ := kept seat mem
    obtain ⟨assigned', advances⟩ := stays.uid uid assigned
    exact ⟨seat', assignment_of_mem wellFormed mem' assigned', fun away => absurd stays.slot away,
      advances⟩
  · intro seat' mem' released
    obtain ⟨seat, mem, stays⟩ := came seat' mem' released
    rcases stays.released released with before | due
    · exact .inl ⟨seat, mem, stays.slot.symm, before⟩
    · exact .inr (.inr due)

theorem progress_map (wellFormed : after.WellFormed) {mark : Seat → Seat}
    (seats : after.seats = pool.seats.map mark)
    (stays : ∀ seat ∈ pool.seats, Stays operation pool seat (mark seat)) :
    Progress operation pool after := by
  apply progress_of_stays wellFormed
  · intro seat mem
    exact ⟨mark seat, seats ▸ List.mem_map_of_mem mem, stays seat mem⟩
  · intro seat' mem' _
    rw [seats] at mem'
    obtain ⟨seat, mem, rfl⟩ := List.mem_map.mp mem'
    exact ⟨seat, mem, stays seat mem⟩

theorem progress_same (wellFormed : pool.WellFormed) (wellFormed' : after.WellFormed)
    (seats : after.seats = pool.seats) : Progress operation pool after :=
  progress_map wellFormed' (seats.trans (List.map_id' _).symm) fun _ mem =>
    Stays.refl wellFormed mem

theorem progress_withSeat (wellFormed : pool.WellFormed) (wellFormed' : after.WellFormed)
    {seat updated : Seat} (mem : seat ∈ pool.seats)
    (seats : after.seats = replaceSeat pool.seats updated)
    (stays : Stays operation pool seat updated) : Progress operation pool after := by
  apply progress_map wellFormed' seats
  intro other memOther
  by_cases hit : other.slotNo = updated.slotNo
  · have same := seat_eq_of_slot wellFormed.distinct memOther mem (hit.trans stays.slot)
    rw [if_pos hit, same]
    exact stays
  · rw [if_neg hit]
    exact Stays.refl wellFormed memOther

theorem progress_extended (wellFormed : pool.WellFormed) (wellFormed' : after.WellFormed)
    {mains spares : Int} (seats : after.seats = (pool.extended mains spares).seats) :
    Progress operation pool after := by
  apply progress_of_stays wellFormed'
  · intro seat mem
    exact ⟨seat, seats ▸ List.mem_append_left _ mem, Stays.refl wellFormed mem⟩
  · intro seat' mem' released
    rw [seats] at mem'
    rcases List.mem_append.mp mem' with old | new
    · exact ⟨seat', old, Stays.refl wellFormed old⟩
    · rw [(mem_addedSeats new).2.1] at released
      cases released

/- A blank seat may become anything but released. -/
theorem Stays.vacant {seat seat' : Seat} (slot : seat'.slotNo = seat.slotNo)
    (unassigned : seat.uid = none) (released : seat'.state = .released → operation.Due pool) :
    Stays operation pool seat seat' :=
  ⟨slot, fun _ assigned => absurd (unassigned.symm.trans assigned) nofun,
    fun is => .inr (released is)⟩

/- The commands -/

section Commands
variable {commandId : String} {expectedRevision nowMs : Int} {result : TransitionResult}

theorem progress_applied {name : String} {arguments : List (String × JsonText.Json)}
    {mutate : Except PoolError Mutation} (wellFormed : pool.WellFormed)
    (mutates : ∀ changed state, mutate = .ok changed → state.seats = changed.pool.seats →
      state.WellFormed → Progress operation pool state)
    (applied : pool.apply name arguments commandId expectedRevision mutate = .ok result)
    (wellFormed' : result.state.WellFormed) : Progress operation pool result.state := by
  rcases apply_ok applied with ⟨_, _, _, rfl⟩ | ⟨_, _, changed, mutated, rfl⟩
  · exact progress_same wellFormed wellFormed rfl
  · exact mutates changed _ mutated rfl wellFormed'

theorem markWarming_progress {slotNo : Nat} (wellFormed : pool.WellFormed)
    (wellFormed' : result.state.WellFormed)
    (done : pool.markWarming slotNo nowMs commandId expectedRevision = .ok result) :
    Progress operation pool result.state := by
  refine progress_applied wellFormed (fun changed state mutated seats formed => ?_) done wellFormed'
  obtain ⟨seat, found, mutated⟩ := bind_ok.mp mutated
  obtain ⟨mem, _⟩ := seat_ok found
  obtain ⟨_, _, mutated⟩ := bind_ok.mp mutated
  simp only [pure_eq_ok] at mutated
  subst mutated
  by_cases planned : seat.state = .planned
  · rw [if_pos planned] at seats
    have unassigned : seat.uid = none := by
      by_contra assigned
      have seated := (wellFormed.seats seat mem).seated.mp assigned
      simp [planned, SeatState.IsSeated] at seated
    exact progress_withSeat wellFormed formed mem seats (.vacant rfl unassigned nofun)
  · rw [if_neg planned] at seats
    exact progress_withSeat wellFormed formed mem seats (.refl wellFormed mem)

theorem markVerified_progress {slotNo : Nat} {container image material : String}
    (wellFormed : pool.WellFormed) (wellFormed' : result.state.WellFormed)
    (done : pool.markVerified slotNo container image material nowMs commandId expectedRevision =
      .ok result) : Progress operation pool result.state := by
  obtain ⟨_, _, done⟩ := bind_ok.mp done
  refine progress_applied wellFormed (fun changed state mutated seats formed => ?_) done wellFormed'
  obtain ⟨seat, found, mutated⟩ := bind_ok.mp mutated
  obtain ⟨mem, _⟩ := seat_ok found
  split at mutated
  · obtain ⟨_, _, mutated⟩ := bind_ok.mp mutated
    simp only [pure_eq_ok] at mutated
    subst mutated
    exact progress_withSeat wellFormed formed mem seats (.refl wellFormed mem)
  · obtain ⟨_, warming, mutated⟩ := bind_ok.mp mutated
    obtain ⟨_, _, mutated⟩ := bind_ok.mp mutated
    simp only [raiseIf_ok, ne_eq, not_not] at warming
    simp only [pure_eq_ok] at mutated
    subst mutated
    have unassigned : seat.uid = none := by
      by_contra assigned
      have seated := (wellFormed.seats seat mem).seated.mp assigned
      simp [warming, SeatState.IsSeated] at seated
    exact progress_withSeat wellFormed formed mem seats (.vacant rfl unassigned nofun)

theorem due_of_reservationState {releaseAtMs : Int}
    (released : reservationState nowMs releaseAtMs = .released) : releaseAtMs ≤ nowMs := by
  unfold reservationState at released
  split at released
  · rename_i due
    exact due
  · cases released

theorem reserve_progress {uid : Int} {uname : String} (wellFormed : pool.WellFormed)
    (wellFormed' : result.state.WellFormed)
    (done : pool.reserve uid uname nowMs commandId expectedRevision = .ok result) :
    Progress (.reserve uid uname nowMs) pool result.state := by
  rcases reserve_ok done with same | ⟨_, _, _, _, _, _, state⟩ |
    ⟨_, chosen, _, _, _, handed, _, state⟩
  · exact progress_same wellFormed wellFormed' (by rw [same])
  · exact progress_same wellFormed wellFormed' (by rw [state]; rfl)
  · obtain ⟨mem, free⟩ := mem_available.mp handed
    have seats : result.state.seats = replaceSeat pool.seats
        (reservedSeat chosen uid (PyText.strip uname) nowMs pool.releaseAtMs) := by
      rw [state]
      rfl
    exact progress_withSeat wellFormed wellFormed' mem seats
      (.vacant rfl free.2 fun released => ⟨nowMs, rfl, due_of_reservationState released⟩)

theorem reserved_advances {after : SeatState}
    (later : after = .reserved ∨ after = .released ∨ after = .frozen) :
    SeatState.reserved.Advances after := by
  rcases later with rfl | rfl | rfl
  · exact ⟨0, 0, rfl, rfl, le_rfl⟩
  · exact ⟨0, 1, rfl, rfl, by omega⟩
  · exact ⟨0, 2, rfl, rfl, by omega⟩

theorem release_progress {uid : Int} (wellFormed : pool.WellFormed)
    (wellFormed' : result.state.WellFormed)
    (done : pool.release uid nowMs commandId expectedRevision = .ok result) :
    Progress (.release uid nowMs) pool result.state := by
  refine progress_applied wellFormed (fun changed state mutated seats formed => ?_) done wellFormed'
  split at mutated
  · simp only [throw_ne_ok] at mutated
  · rename_i seat found
    obtain ⟨mem, _⟩ := assignment_some found
    split at mutated
    · simp only [pure_eq_ok] at mutated
      subst mutated
      exact progress_same wellFormed formed seats
    · obtain ⟨_, reserved, mutated⟩ := bind_ok.mp mutated
      obtain ⟨_, due, mutated⟩ := bind_ok.mp mutated
      simp only [raiseIf_ok, ne_eq, not_not, not_lt] at reserved due
      simp only [pure_eq_ok] at mutated
      subst mutated
      refine progress_withSeat wellFormed formed mem seats ⟨rfl, fun _ assigned => ?_, fun _ => ?_⟩
      · exact ⟨assigned, reserved ▸ reserved_advances (.inr (.inl rfl))⟩
      · exact .inr ⟨nowMs, rfl, due⟩

/- A command on every seat in a given state. -/
theorem markAll_progress {selected : Seat → Bool} {mark : Seat → Seat}
    {value : List Seat → CommandValue} (wellFormed : pool.WellFormed)
    (wellFormed' : after.WellFormed)
    (seats : after.seats = (pool.markAll selected mark value).pool.seats)
    (stays : ∀ seat, selected seat = true → Stays operation pool seat (mark seat)) :
    Progress operation pool after := by
  apply progress_map wellFormed' seats
  intro seat mem
  split
  · rename_i chosen
    exact stays seat chosen
  · exact Stays.refl wellFormed mem

theorem releaseDue_progress (wellFormed : pool.WellFormed) (wellFormed' : result.state.WellFormed)
    (done : pool.releaseDue nowMs commandId expectedRevision = .ok result) :
    Progress (.releaseDue nowMs) pool result.state := by
  refine progress_applied wellFormed (fun changed state mutated seats formed => ?_) done wellFormed'
  cases mutated
  split at seats
  · exact progress_same wellFormed formed seats
  · rename_i due
    refine markAll_progress wellFormed formed seats fun seat reserved => ?_
    have state : seat.state = .reserved := by simpa using reserved
    exact ⟨rfl, fun _ assigned => ⟨assigned, state ▸ reserved_advances (.inr (.inl rfl))⟩,
      fun _ => .inr ⟨nowMs, rfl, not_lt.mp due⟩⟩

theorem freeze_progress (wellFormed : pool.WellFormed) (wellFormed' : result.state.WellFormed)
    (done : pool.freeze nowMs commandId expectedRevision = .ok result) :
    Progress operation pool result.state := by
  refine progress_applied wellFormed (fun changed state mutated seats formed => ?_) done wellFormed'
  cases mutated
  refine markAll_progress wellFormed formed seats fun seat chosen => ?_
  simp only [Bool.and_eq_true, Bool.or_eq_true, beq_iff_eq] at chosen
  refine ⟨rfl, fun _ assigned => ⟨assigned, ?_⟩, nofun⟩
  rcases chosen.2 with reserved | released
  · exact reserved ▸ reserved_advances (.inr (.inr rfl))
  · exact ⟨1, 2, by rw [released]; rfl, rfl, by omega⟩

theorem collect_progress (wellFormed : pool.WellFormed) (wellFormed' : result.state.WellFormed)
    (done : pool.collect nowMs commandId expectedRevision = .ok result) :
    Progress operation pool result.state := by
  refine progress_applied wellFormed (fun changed state mutated seats formed => ?_) done wellFormed'
  cases mutated
  refine markAll_progress wellFormed formed seats fun seat chosen => ?_
  have frozen : seat.state = .frozen := by simpa using chosen
  exact ⟨rfl, fun _ assigned => ⟨assigned, 2, 3, by rw [frozen]; rfl, rfl, by omega⟩, nofun⟩

theorem takeOver_advances {failed spare : Seat} {releaseAtMs : Int}
    (state : failed.state = .reserved ∨ failed.state = .released) :
    failed.state.Advances (takeOver spare failed nowMs releaseAtMs).state := by
  rcases state with reserved | released
  · rw [reserved]
    apply reserved_advances
    by_cases due : releaseAtMs ≤ nowMs <;> simp [takeOver, reserved, reservationState, due]
  · have target : (takeOver spare failed nowMs releaseAtMs).state = .released := by
      simp [takeOver, released]
    rw [released, target]
    exact ⟨1, 1, rfl, rfl, le_rfl⟩

/- The student moves to the spare, and all other students stay. -/
theorem moved_progress {failed spare : Seat} {reason why : String} {approved : Bool}
    (wellFormed : pool.WellFormed) (wellFormed' : after.WellFormed)
    (mem : failed ∈ pool.seats) (memSpare : spare ∈ pool.seats)
    (free : isFreeSpare spare = true) (student : failed.uid ≠ none)
    (state : failed.state ≠ .frozen ∧ failed.state ≠ .collected)
    (seats : after.seats = ((pool.withSeat (resetFailed failed .spare reason)).withSeat
      (takeOver spare failed nowMs pool.releaseAtMs)).seats) :
    Progress (.replaceFailed failed.slotNo why nowMs approved) pool after := by
  simp only [isFreeSpare, Bool.and_eq_true, beq_iff_eq] at free
  obtain ⟨_, unassigned⟩ := free
  have waiting : failed.state = .reserved ∨ failed.state = .released := by
    rcases (wellFormed.seats failed mem).seated.mp student with is | is | is | is
    · exact .inl is
    · exact .inr is
    · exact absurd is state.1
    · exact absurd is state.2
  have memMoved : takeOver spare failed nowMs pool.releaseAtMs ∈ after.seats := by
    rw [seats]
    refine mem_replaceSeat.mpr (.inl ⟨rfl, ?_⟩)
    have slots : (pool.withSeat (resetFailed failed .spare reason)).slots = pool.slots :=
      withSeat_slots
    change spare.slotNo ∈ (pool.withSeat (resetFailed failed .spare reason)).slots
    rw [slots]
    exact List.mem_map_of_mem memSpare
  constructor
  · intro uid seat found
    obtain ⟨memSeat, assigned⟩ := assignment_some found
    by_cases hit : seat.slotNo = failed.slotNo
    · cases seat_eq_of_slot wellFormed.distinct memSeat mem hit
      exact ⟨_, assignment_of_mem wellFormed' memMoved assigned, fun _ => rfl,
        takeOver_advances waiting⟩
    · have apart : seat.slotNo ≠ spare.slotNo := by
        intro same
        rw [seat_eq_of_slot wellFormed.distinct memSeat memSpare same, unassigned] at assigned
        cases assigned
      have kept : seat ∈ after.seats := by
        rw [seats]
        exact mem_replaceSeat.mpr (.inr ⟨mem_replaceSeat.mpr (.inr ⟨memSeat, hit⟩), apart⟩)
      exact ⟨seat, assignment_of_mem wellFormed' kept assigned, fun away => absurd rfl away,
        (wellFormed.state_of_student memSeat assigned).advances_self⟩
  · intro seat' mem' released
    rw [seats] at mem'
    rcases mem_replaceSeat.mp mem' with ⟨rfl, _⟩ | ⟨inside, _⟩
    · by_cases already : failed.state = .released
      · exact .inr (.inl ⟨failed, mem, rfl, already, rfl⟩)
      · simp only [takeOver, if_neg already] at released
        exact .inr (.inr ⟨nowMs, rfl, due_of_reservationState released⟩)
    · rcases mem_replaceSeat.mp inside with ⟨rfl, _⟩ | ⟨old, _⟩
      · cases released
      · exact .inl ⟨seat', old, rfl, released⟩

theorem replaceFailed_progress {slotNo : Nat} {reason : String} {approved : Bool}
    (wellFormed : pool.WellFormed) (wellFormed' : result.state.WellFormed)
    (done : pool.replaceFailed slotNo reason nowMs approved commandId expectedRevision =
      .ok result) :
    Progress (.replaceFailed slotNo reason nowMs approved) pool result.state := by
  obtain ⟨_, _, done⟩ := bind_ok.mp done
  refine progress_applied wellFormed (fun changed state mutated seats formed => ?_) done wellFormed'
  obtain ⟨failed, found, mutated⟩ := bind_ok.mp mutated
  obtain ⟨mem, slot⟩ := seat_ok found
  obtain ⟨_, live, mutated⟩ := bind_ok.mp mutated
  rw [raiseIf_ok, not_or] at live
  split at mutated
  · simp only [pure_eq_ok] at mutated
    subst mutated
    exact progress_same wellFormed formed seats
  · split at mutated
    · rename_i unassigned
      simp only [pure_eq_ok] at mutated
      subst mutated
      exact progress_withSeat wellFormed formed mem seats (.vacant rfl unassigned (by rintro ⟨⟩))
    · rename_i student
      split at mutated
      · simp only [throw_ne_ok] at mutated
      · rename_i spare search
        simp only [pure_eq_ok] at mutated
        subst mutated
        rw [← slot]
        exact moved_progress wellFormed formed mem (List.mem_of_find?_eq_some search)
          (List.find?_some search) student live seats

theorem grow_progress {mains spares : Int} (wellFormed : pool.WellFormed)
    (wellFormed' : result.state.WellFormed)
    (done : pool.grow mains spares commandId expectedRevision = .ok result) :
    Progress operation pool result.state := by
  obtain ⟨_, _, done⟩ := bind_ok.mp done
  obtain ⟨_, _, done⟩ := bind_ok.mp done
  obtain ⟨_, _, done⟩ := bind_ok.mp done
  refine progress_applied wellFormed (fun changed state mutated seats formed => ?_) done wellFormed'
  cases mutated
  exact progress_extended wellFormed formed seats

theorem reconcileRosterCapacity_progress {count minimum percent : Int}
    (wellFormed : pool.WellFormed) (wellFormed' : result.state.WellFormed)
    (done : pool.reconcileRosterCapacity count minimum percent commandId expectedRevision =
      .ok result) : Progress operation pool result.state := by
  obtain ⟨⟨targetMain, targetSpares⟩, _, done⟩ := bind_ok.mp done
  dsimp only at done
  split at done
  · simp only [pure_eq_ok] at done
    subst done
    exact progress_same wellFormed wellFormed rfl
  · refine progress_applied wellFormed (fun changed state mutated seats formed => ?_) done
      wellFormed'
    cases mutated
    exact progress_extended wellFormed formed seats

theorem reschedule_progress {beginAtMs lead : Int} (wellFormed : pool.WellFormed)
    (wellFormed' : result.state.WellFormed)
    (done : pool.reschedule beginAtMs lead commandId expectedRevision = .ok result) :
    Progress operation pool result.state := by
  obtain ⟨_, _, done⟩ := bind_ok.mp done
  obtain ⟨_, _, done⟩ := bind_ok.mp done
  obtain ⟨_, _, done⟩ := bind_ok.mp done
  dsimp only at done
  split at done
  · simp only [pure_eq_ok] at done
    subst done
    exact progress_same wellFormed wellFormed rfl
  · refine progress_applied wellFormed (fun changed state mutated seats formed => ?_) done
      wellFormed'
    cases mutated
    exact progress_same wellFormed formed seats

end Commands

theorem command_progress (wellFormed : pool.WellFormed) {c : Command} {result : TransitionResult}
    (done : pool.command c = .ok result) : Progress c.operation pool result.state := by
  have wellFormed' : result.state.WellFormed := by
    have stored := afterCommand_wellFormed wellFormed c
    rwa [afterCommand, done] at stored
  unfold command at done
  cases operation : c.operation <;> simp only [operation] at done
  case markWarming => exact markWarming_progress wellFormed wellFormed' done
  case markVerified => exact markVerified_progress wellFormed wellFormed' done
  case reserve => exact reserve_progress wellFormed wellFormed' done
  case release => exact release_progress wellFormed wellFormed' done
  case releaseDue => exact releaseDue_progress wellFormed wellFormed' done
  case replaceFailed => exact replaceFailed_progress wellFormed wellFormed' done
  case grow => exact grow_progress wellFormed wellFormed' done
  case reconcileRosterCapacity =>
    exact reconcileRosterCapacity_progress wellFormed wellFormed' done
  case reschedule => exact reschedule_progress wellFormed wellFormed' done
  case freeze => exact freeze_progress wellFormed wellFormed' done
  case collect => exact collect_progress wellFormed wellFormed' done

/- Over a whole run a student who has a seat keeps one, and it never falls back. -/
theorem run_keeps_student (wellFormed : pool.WellFormed) (commands : List Command) {uid : Int}
    {seat : Seat} (found : pool.assignment uid = some seat) :
    ∃ seat', (Runs.run afterCommand pool commands).assignment uid = some seat' ∧
      seat.state.Advances seat'.state := by
  induction commands generalizing pool seat with
  | nil =>
    obtain ⟨mem, assigned⟩ := assignment_some found
    exact ⟨seat, found, (wellFormed.state_of_student mem assigned).advances_self⟩
  | cons c rest ih =>
    have next := afterCommand_wellFormed wellFormed c
    obtain ⟨middle, foundMiddle, early⟩ : ∃ middle,
        (pool.afterCommand c).assignment uid = some middle ∧
        seat.state.Advances middle.state := by
      obtain ⟨mem, assigned⟩ := assignment_some found
      unfold afterCommand
      split
      · rename_i result done
        obtain ⟨middle, foundMiddle, _, early⟩ := (command_progress wellFormed done).seated _ _ found
        exact ⟨middle, foundMiddle, early⟩
      · exact ⟨seat, found, (wellFormed.state_of_student mem assigned).advances_self⟩
    obtain ⟨seat', found', late⟩ := ih next foundMiddle
    exact ⟨seat', found', early.trans late⟩

/- Every successful command in every state that commands reach from a new pool. -/
theorem students_never_lose_a_seat {tid : String} {mains spares beginAtMs lead : Int}
    (created : create tid mains spares beginAtMs lead = .ok pool) (commands : List Command)
    (c : Command) {result : TransitionResult}
    (done : (Runs.run afterCommand pool commands).command c = .ok result) :
    Progress c.operation (Runs.run afterCommand pool commands) result.state :=
  command_progress (reachable_wellFormed created commands) done

/- The seat of the one student fails before the time of release. -/
theorem replaced_student_keeps_a_seat :
    ∃ result, (Runs.run afterCommand oneOfEach (replacementCommands.take 5)).command
        ⟨.replaceFailed 1 "broken" 8 true, "f1", 5⟩ = .ok result ∧
      Progress (.replaceFailed 1 "broken" 8 true)
        (Runs.run afterCommand oneOfEach (replacementCommands.take 5)) result.state := by
  have created : create "tid" 1 1 1000000 = .ok oneOfEach := by decide +kernel
  have accepted : ((Runs.run afterCommand oneOfEach (replacementCommands.take 5)).command
      ⟨.replaceFailed 1 "broken" 8 true, "f1", 5⟩).isOk = true := by decide +kernel
  cases done : (Runs.run afterCommand oneOfEach (replacementCommands.take 5)).command
      ⟨.replaceFailed 1 "broken" 8 true, "f1", 5⟩ with
  | error error => simp [done, Except.isOk, Except.toBool] at accepted
  | ok result => exact ⟨result, rfl, students_never_lose_a_seat created _ _ done⟩

end SeatPoolState
end NoiContest.SeatPool
