import NoiContest.LivePool.PoolRuns

/- Whether the slot of a failed seat can be given back to the pool. The rebuilt seat keeps the
   role that the replacement left, and the store accepts spares only. -/
namespace NoiContest.LivePool
open Outcome SeatPool SeatPoolState

/-- What a rebuild chooses: its command ids, its times and the new connection resource. -/
structure Rebuild where
  warmId : String
  verifyId : String
  warmAtMs : Int
  verifyAtMs : Int
  resource : PoolResource
  deriving Repr

/-- The repair of the slot on a pool that is stored. -/
def Rebuild.commit (rebuild : Rebuild) (pool : SeatPoolState) (slotNo : Nat) : PoolCommit :=
  .repair slotNo pool.revision
    [.warming slotNo rebuild.warmAtMs rebuild.warmId,
      .verified slotNo rebuild.resource.container rebuild.resource.imageDigest
        rebuild.resource.materialDigest rebuild.verifyAtMs rebuild.verifyId] rebuild.resource

/-- The ids are unused, the evidence is complete, and nothing of the resource is in use. -/
structure Rebuild.Fresh (rebuild : Rebuild) (tables : ContestTables) (pool : SeatPoolState)
    (slotNo : Nat) : Prop where
  slot : rebuild.resource.slotNo = slotNo
  ids : rebuild.warmId ≠ rebuild.verifyId
  warm : PyText.strip rebuild.warmId ≠ "" ∧ pool.receipt rebuild.warmId = none
  verify : PyText.strip rebuild.verifyId ≠ "" ∧ pool.receipt rebuild.verifyId = none
  evidence : rebuild.resource.container ≠ "" ∧ rebuild.resource.imageDigest ≠ "" ∧
    rebuild.resource.materialDigest ≠ ""
  trimmed : PyText.strip rebuild.resource.container = rebuild.resource.container ∧
    PyText.strip rebuild.resource.imageDigest = rebuild.resource.imageDigest ∧
    PyText.strip rebuild.resource.materialDigest = rebuild.resource.materialDigest
  unused : ∀ other ∈ tables.resources, other.token ≠ rebuild.resource.token ∧
    other.submitToken ≠ rebuild.resource.submitToken ∧
    other.container ≠ rebuild.resource.container

section Repair
variable {tables : ContestTables} {pool state : SeatPoolState} {rebuild : Rebuild} {slotNo : Nat}

theorem receipt_recorded {changed : Mutation} {commandId other print : String}
    (apart : commandId ≠ other) (unused : pool.receipt other = none) :
    (pool.recorded changed commandId print).receipt other = none := by
  refine List.find?_eq_none.mpr fun receipt mem same => ?_
  rw [recorded_receipts, List.mem_append, List.mem_singleton] at mem
  rcases mem with old | rfl
  · exact List.find?_eq_none.mp unused receipt old same
  · exact apart (by simpa using same)

/- The containers of the seats are those of the resources. -/
theorem container_unused (agreed : Agreed tables pool)
    (fresh : rebuild.Fresh tables pool slotNo) :
    ¬ ∃ other ∈ pool.seats, other.containerRef ≠ "" ∧
      other.containerRef = rebuild.resource.container := by
  rintro ⟨seat, mem, named, same⟩
  have active : seat.state ≠ .planned := by
    intro planned
    have blank := (agreed.wellFormed.seats seat mem).blank (by simp [SeatState.IsProven, planned])
    exact named blank.1
  obtain ⟨resource, memResource, slot⟩ :=
    List.mem_map.mp ((agreed.active seat.slotNo).mpr ⟨seat, mem, rfl, active⟩)
  have evidence := agreed.evidence seat mem resource memResource slot
  simp only [Seat.evidence, PoolResource.evidence, Prod.mk.injEq] at evidence
  exact (fresh.unused resource memResource).2.2 (evidence.1.symm.trans same)

/-- The rebuilt seat, and the state that the repair wants to store. -/
def Rebuild.seat (rebuild : Rebuild) (seat : Seat) : Seat :=
  verifiedSeat seat rebuild.resource.container rebuild.resource.imageDigest
    rebuild.resource.materialDigest

structure Rebuilt (rebuild : Rebuild) (pool : SeatPoolState) (seat : Seat)
    (state : SeatPoolState) : Prop where
  tid : state.tid = pool.tid
  revision : state.revision = pool.revision + 2
  seats : state.seats = replaceSeat pool.seats (rebuild.seat seat)

/- Both marks go through, whatever the role of the seat. -/
theorem marks_rebuilt (agreed : Agreed tables pool) {seat : Seat} (mem : seat ∈ pool.seats)
    (planned : seat.state = .planned) (fresh : rebuild.Fresh tables pool seat.slotNo) :
    ∃ state, [Mark.warming seat.slotNo rebuild.warmAtMs rebuild.warmId,
        Mark.verified seat.slotNo rebuild.resource.container rebuild.resource.imageDigest
          rebuild.resource.materialDigest rebuild.verifyAtMs rebuild.verifyId].foldlM Mark.run
        pool = .ok state ∧ Rebuilt rebuild pool seat state := by
  obtain ⟨print, warmed⟩ := markWarming_planned rebuild.warmAtMs rebuild.warmId agreed.distinct mem
    planned fresh.warm.1 fresh.warm.2
  let warming := { seat with state := .warming }
  let warmPool := pool.recorded ⟨pool.withSeat warming, .seat warming⟩ rebuild.warmId print
  have memWarming : warming ∈ warmPool.seats :=
    mem_replaceSeat.mpr (.inl ⟨rfl, List.mem_map.mpr ⟨seat, mem, rfl⟩⟩)
  have warmDistinct : warmPool.slots.Nodup := by
    rw [slots, recorded_seats, withSeat, replaceSeat_slots]
    exact agreed.distinct
  have evidence : PyText.strip rebuild.resource.container ≠ "" ∧
      PyText.strip rebuild.resource.imageDigest ≠ "" ∧
      PyText.strip rebuild.resource.materialDigest ≠ "" := by
    rw [fresh.trimmed.1, fresh.trimmed.2.1, fresh.trimmed.2.2]
    exact fresh.evidence
  obtain ⟨print', checked⟩ := markVerified_warming rebuild.verifyAtMs rebuild.verifyId warmDistinct
    memWarming rfl evidence fresh.verify.1 (receipt_recorded fresh.ids fresh.verify.2)
  have unused : ¬ ∃ other ∈ warmPool.seats, other.slotNo ≠ warming.slotNo ∧
      other.containerRef ≠ "" ∧ other.containerRef = PyText.strip rebuild.resource.container := by
    rintro ⟨other, memOther, apart, named, same⟩
    rw [fresh.trimmed.1] at same
    rcases mem_replaceSeat.mp memOther with ⟨rfl, -⟩ | ⟨old, -⟩
    · exact apart rfl
    · exact container_unused agreed fresh ⟨other, old, named, same⟩
  rw [raiseIf_neg unused, fresh.trimmed.1, fresh.trimmed.2.1, fresh.trimmed.2.2] at checked
  let verified := rebuild.seat warming
  let rebuilt := warmPool.recorded ⟨warmPool.withSeat verified, .seat verified⟩ rebuild.verifyId
    print'
  have second : Mark.run warmPool (.verified seat.slotNo rebuild.resource.container
      rebuild.resource.imageDigest rebuild.resource.materialDigest rebuild.verifyAtMs
      rebuild.verifyId) = .ok rebuilt := by
    rw [Mark.run, checked]
    rfl
  refine ⟨rebuilt, ?_, rfl, rfl, ?_⟩
  · rw [List.foldlM_cons, Mark.run, warmed, Except.map, ok_bind, List.foldlM_cons, second]
    rfl
  · have warmSeats : warmPool.seats = replaceSeat pool.seats warming := rfl
    rw [recorded_seats, withSeat, warmSeats, replaceSeat, replaceSeat, replaceSeat, List.map_map]
    refine List.map_congr_left fun other _ => ?_
    by_cases here : other.slotNo = seat.slotNo
    · simp [here, verified, warming, Rebuild.seat, verifiedSeat]
    · simp [here, verified, warming, Rebuild.seat, verifiedSeat]

/- The commit refuses a rebuilt seat for its role only. -/
theorem commitPoolRepair_rebuilt (agreed : Agreed tables pool) {seat : Seat}
    (mem : seat ∈ pool.seats) (planned : seat.state = .planned)
    (fresh : rebuild.Fresh tables pool seat.slotNo) (rebuilt : Rebuilt rebuild pool seat state) :
    (tables.commitPoolRepair pool.tid pool.revision state rebuild.resource seat.slotNo).isOk = true ↔
      seat.role = .spare := by
  have sameSlots : state.slots = pool.slots := by
    rw [slots, rebuilt.seats, replaceSeat_slots, slots]
  have memNew : rebuild.seat seat ∈ state.seats := by
    rw [rebuilt.seats, mem_replaceSeat]
    exact .inl ⟨rfl, List.mem_map.mpr ⟨seat, mem, rfl⟩⟩
  have after : state.bySlot seat.slotNo = some (rebuild.seat seat) :=
    bySlot_mem (sameSlots ▸ agreed.distinct) memNew
  have valid : ContestTables.validatePoolResource state rebuild.resource =
      .ok (rebuild.seat seat) := by
    rw [ContestTables.validatePoolResource, fresh.slot, after]
    simp [Rebuild.seat, verifiedSeat, Seat.evidence, PoolResource.evidence, raiseIf]
  have unseated : seat.uid = none := by
    by_contra student
    have seated := (agreed.wellFormed.seats seat mem).seated.mp student
    rw [planned] at seated
    rcases seated with is | is | is | is <;> cases is
  have others : ¬ ∃ slot ∈ pool.slots, slot ≠ seat.slotNo ∧ state.bySlot slot ≠ pool.bySlot slot := by
    rintro ⟨slot, listed, apart, changed⟩
    obtain ⟨other, memOther, rfl⟩ := List.mem_map.mp listed
    refine changed ?_
    rw [bySlot_mem agreed.distinct memOther]
    refine bySlot_mem (sameSlots ▸ agreed.distinct) ?_
    rw [rebuilt.seats, mem_replaceSeat]
    exact .inr ⟨memOther, apart⟩
  have free : tables.resource seat.slotNo = none := by
    cases found : tables.resource seat.slotNo with
    | none => rfl
    | some resource =>
      obtain ⟨memResource, slot⟩ := resource_some found
      obtain ⟨other, memOther, same, active⟩ :=
        (agreed.active seat.slotNo).mp (List.mem_map.mpr ⟨resource, memResource, slot⟩)
      rw [seat_eq_of_slot agreed.distinct memOther mem same] at active
      exact absurd planned active
  have insertable : ¬ ∃ other ∈ tables.resources, other.slotNo = rebuild.resource.slotNo ∨
      other.token = rebuild.resource.token ∨ other.submitToken = rebuild.resource.submitToken ∨
      other.container = rebuild.resource.container := by
    rintro ⟨other, memOther, same | token | submitToken | container⟩
    · have found := List.find?_eq_none.mp free other memOther
      simp [same, fresh.slot] at found
    · exact (fresh.unused other memOther).1 token
    · exact (fresh.unused other memOther).2.1 submitToken
    · exact (fresh.unused other memOther).2.2 container
  have expected : tables.expectRevision pool.revision "座位池已被其他操作更新" = .ok pool := by
    simp [ContestTables.expectRevision, agreed.stored]
  have clean : ¬ ((rebuild.seat seat).uid ≠ none ∨ (rebuild.seat seat).uname ≠ "") := by
    simp [Rebuild.seat, verifiedSeat, unseated, agreed.anonymous seat mem planned]
  rw [ContestTables.commitPoolRepair, raiseIf_neg (not_not.mpr rebuilt.tid), ok_bind,
    raiseIf_neg (not_not.mpr fresh.slot), ok_bind, valid, ok_bind, raiseIf_neg clean, ok_bind,
    expected, ok_bind]
  simp only [bySlot_mem agreed.distinct mem]
  rw [raiseIf_neg (by simp [sameSlots, planned, unseated]), ok_bind, raiseIf_neg others, ok_bind]
  by_cases spare : seat.role = .spare
  · rw [raiseIf_neg (by simp [Rebuild.seat, verifiedSeat, spare]), ok_bind,
      raiseIf_neg (by rw [rebuilt.revision]; omega), ok_bind, raiseIf_neg (not_not.mpr free), ok_bind,
      ContestTables.insertResource, raiseIf_neg insertable]
    simp [spare, Except.isOk, Except.toBool, pure, Except.pure]
  · rw [raiseIf_pos (.inr (by simpa [Rebuild.seat, verifiedSeat] using spare)), error_bind]
    simp [spare, Except.isOk, Except.toBool]

/- The isolated seat of a committed replacement. Only a student who is moved makes it a spare. -/
theorem replacement_leaves (agreed : Agreed tables pool) {reason commandId : String}
    {nowMs expectedRevision : Int} {approved : Bool} {result : TransitionResult}
    {bound : Option PoolResource} {written : ContestTables}
    (replaced : pool.replaceFailed slotNo reason nowMs approved commandId expectedRevision =
      .ok result)
    (committed : tables.commitPoolReplacement pool.tid expectedRevision result.state slotNo =
      .ok (bound, written)) {failed : Seat} (before : pool.bySlot slotNo = some failed) :
    ∃ seat ∈ result.state.seats, seat.slotNo = slotNo ∧ seat.state = .planned ∧
      (seat.role = .spare ↔ failed.uid ≠ none ∨ failed.role = .spare) := by
  obtain ⟨same, later, oldSeat, seat, replacement, found, after, planned, -⟩ :=
    commitPoolReplacement_cases agreed.stored committed
  cases before.symm.trans found
  obtain ⟨memFailed, slotFailed⟩ := bySlot_some before
  obtain ⟨memSeat, slotSeat⟩ := bySlot_some after
  have only (other : Seat) (mem : other ∈ pool.seats) (here : other.slotNo = slotNo) :
      other = failed := seat_eq_of_slot agreed.distinct mem memFailed (here.trans slotFailed.symm)
  refine ⟨seat, memSeat, slotSeat, planned, ?_⟩
  rcases replaceFailed_ok replaced with replayed | ⟨print, own, -, memOwn, slotOwn, -,
    ⟨unassigned, -, idle⟩ | ⟨reset, unassigned, isReset, -, emptied⟩ |
    ⟨reset, moved, spare, assigned, memSpare, free, isReset, isMoved, -, cutOver⟩⟩
  · rw [replaceFailed_replayed replaced replayed] at later
    omega
  · rw [idle, recorded_seats] at memSeat
    rw [only seat memSeat slotSeat]
    simp [only own memOwn slotOwn ▸ unassigned]
  · rw [emptied, recorded_seats, withSeat, mem_replaceSeat] at memSeat
    have slotReset : reset.slotNo = slotNo := by
      rw [isReset]
      exact slotOwn
    rcases memSeat with ⟨rfl, -⟩ | ⟨-, elsewhere⟩
    · rw [isReset, only own memOwn slotOwn, resetFailed]
      simp [only own memOwn slotOwn ▸ unassigned]
    · exact absurd (slotSeat.trans slotReset.symm) elsewhere
  · rw [cutOver, recorded_seats, withSeat, withSeat, mem_replaceSeat, mem_replaceSeat] at memSeat
    have slotReset : reset.slotNo = slotNo := by
      rw [isReset]
      exact slotOwn
    rcases memSeat with ⟨rfl, -⟩ | ⟨⟨rfl, -⟩ | ⟨-, elsewhere⟩, -⟩
    · have seated := takeOver_seated spare own nowMs pool.releaseAtMs
      rw [← isMoved, planned] at seated
      rcases seated with is | is | is | is <;> cases is
    · rw [isReset, resetFailed]
      simp [only own memOwn slotOwn ▸ assigned]
    · exact absurd (slotSeat.trans slotReset.symm) elsewhere

theorem rebuild_accepted_iff (agreed : Agreed tables pool) {reason commandId : String}
    {nowMs expectedRevision : Int} {approved : Bool} {result : TransitionResult}
    {bound : Option PoolResource} {written : ContestTables} {failed : Seat}
    (listed : pool.bySlot slotNo = some failed)
    (replaced : pool.replaceFailed slotNo reason nowMs approved commandId expectedRevision =
      .ok result)
    (committed : tables.commitPoolReplacement pool.tid expectedRevision result.state slotNo =
      .ok (bound, written))
    (fresh : rebuild.Fresh written result.state slotNo) :
    ((rebuild.commit result.state slotNo).apply written result.state).isOk = true ↔
      failed.uid ≠ none ∨ failed.role = .spare := by
  obtain ⟨after, -⟩ := replacement_agreed agreed replaced committed
  obtain ⟨seat, mem, rfl, planned, role⟩ := replacement_leaves agreed replaced committed listed
  obtain ⟨state, marked, rebuilt⟩ := marks_rebuilt after mem planned fresh
  rw [← role, ← commitPoolRepair_rebuilt after mem planned fresh rebuilt, Rebuild.commit,
    PoolCommit.apply, marked, Except.mapError, ok_bind]
  cases ContestTables.commitPoolRepair written result.state.tid result.state.revision state
    rebuild.resource seat.slotNo <;> rfl

end Repair

/- A failed seat that nobody had comes back for the spares only, in every state that a
   preparation and any commits reach. -/
theorem failed_capacity_repairable_iff {cfg : Pipeline.Config} {contest : Contest}
    {participants : Nat} {imageOutput : String} {outside : Nat → Preheating}
    {before : ContestTables} {prepared : ContestTables × SeatPoolState}
    (did : preparePool cfg contest participants imageOutput outside before = .ok prepared)
    (commits : List (Nat × PoolCommit)) {pool : SeatPoolState} {slotNo : Nat}
    {reason commandId : String} {nowMs expectedRevision : Int} {approved : Bool}
    {result : TransitionResult} {bound : Option PoolResource} {written : ContestTables}
    {failed : Seat} {rebuild : Rebuild}
    (stored : (Runs.run PoolBook.step (PoolBook.prepared prepared) commits).tables.pool = some pool)
    (listed : pool.bySlot slotNo = some failed)
    (replaced : pool.replaceFailed slotNo reason nowMs approved commandId expectedRevision =
      .ok result)
    (committed : (Runs.run PoolBook.step (PoolBook.prepared prepared)
      commits).tables.commitPoolReplacement pool.tid expectedRevision result.state slotNo =
        .ok (bound, written))
    (fresh : rebuild.Fresh written result.state slotNo) :
    ((rebuild.commit result.state slotNo).apply written result.state).isOk = true ↔
      failed.uid ≠ none ∨ failed.role = .spare := by
  obtain ⟨last, current⟩ := run_current (prepared_current (preparePool_agreed did)) commits
  cases current.agreed.stored.symm.trans stored
  exact rebuild_accepted_iff current.agreed listed replaced committed fresh

/- Nobody is seated yet, and the seat with the given number is broken. -/
def smallRebuild (slotNo : Nat) : Rebuild :=
  { warmId := "repair:warm", verifyId := "repair:verify", warmAtMs := 5, verifyAtMs := 6
    resource := {
      slotNo := slotNo
      token := "fresh-token"
      vncPass := "secret"
      submitToken := "fresh-submit"
      candidate := "CSP"
      container := "rebuilt"
      cip := "10.0.0.9"
      imageDigest := "image"
      materialDigest := "sha256:ab" } }

instance (rebuild : Rebuild) (tables : ContestTables) (pool : SeatPoolState) (slotNo : Nat) :
    Decidable (rebuild.Fresh tables pool slotNo) :=
  decidable_of_iff (_ ∧ _ ∧ _ ∧ _ ∧ _ ∧ _ ∧ _)
    ⟨fun ⟨a, b, c, d, e, f, g⟩ => ⟨a, b, c, d, e, f, g⟩,
      fun ⟨a, b, c, d, e, f, g⟩ => ⟨a, b, c, d, e, f, g⟩⟩

structure SmallReplacement where
  prepared : ContestTables × SeatPoolState
  result : TransitionResult
  committed : Option PoolResource × ContestTables

def smallReplacement (slotNo : Nat) : Except Pipeline.Raised SmallReplacement := do
  let prepared ← smallPrepared
  let result ← (prepared.2.replaceFailed slotNo "broken" 4 true "replace" 6).mapError .pool
  let committed ← (prepared.1.commitPoolReplacement prepared.2.tid 6 result.state slotNo).mapError
    .store
  return ⟨prepared, result, committed⟩

/- The replacement goes through and the rebuild brings in nothing that is in use. -/
theorem smallReplacement_ok (slotNo : Nat) (role : Role)
    (holds : (match smallReplacement slotNo with
      | .ok small => decide ((smallRebuild slotNo).Fresh small.committed.2 small.result.state slotNo ∧
          (small.prepared.2.bySlot slotNo).map (fun seat => (seat.uid, seat.role)) =
            some (none, role))
      | .error _ => false) = true) :
    ∃ prepared result bound written failed, smallPrepared = .ok prepared ∧
      prepared.2.bySlot slotNo = some failed ∧ failed.uid = none ∧ failed.role = role ∧
      prepared.2.replaceFailed slotNo "broken" 4 true "replace" 6 = .ok result ∧
      prepared.1.commitPoolReplacement prepared.2.tid 6 result.state slotNo =
        .ok (bound, written) ∧
      (smallRebuild slotNo).Fresh written result.state slotNo := by
  cases small : smallReplacement slotNo with
  | error error => simp [small] at holds
  | ok small' =>
    simp only [small, decide_eq_true_eq, Option.map_eq_some_iff, Prod.mk.injEq] at holds
    obtain ⟨fresh, failed, found, unassigned, kind⟩ := holds
    simp only [smallReplacement, bind_ok, mapError_ok, pure_eq_ok] at small
    obtain ⟨prepared, did, result, replaced, ⟨bound, written⟩, committed, rfl⟩ := small
    exact ⟨prepared, result, bound, written, failed, did, found, unassigned, kind, replaced,
      committed, fresh⟩

theorem failed_capacity_repairable_spare : ∃ prepared result bound written failed,
    smallPrepared = .ok prepared ∧ prepared.2.bySlot 2 = some failed ∧
      prepared.2.replaceFailed 2 "broken" 4 true "replace" 6 = .ok result ∧
      prepared.1.commitPoolReplacement prepared.2.tid 6 result.state 2 = .ok (bound, written) ∧
      ((((smallRebuild 2).commit result.state 2).apply written result.state).isOk = true ↔
        failed.uid ≠ none ∨ failed.role = .spare) := by
  obtain ⟨prepared, result, bound, written, failed, did, listed, -, -, replaced, committed, fresh⟩ :=
    smallReplacement_ok 2 .spare (by decide +kernel)
  exact ⟨prepared, result, bound, written, failed, did, listed, replaced, committed,
    failed_capacity_repairable_iff did [] (preparePool_agreed did).stored listed replaced committed
      fresh⟩

/- The first seat is primary and nobody sits there, so its slot is lost. -/
theorem primary_capacity_not_repairable : ∃ prepared result bound written,
    smallPrepared = .ok prepared ∧
      prepared.2.replaceFailed 1 "broken" 4 true "replace" 6 = .ok result ∧
      prepared.1.commitPoolReplacement prepared.2.tid 6 result.state 1 = .ok (bound, written) ∧
      (smallRebuild 1).Fresh written result.state 1 ∧
      ¬ (((smallRebuild 1).commit result.state 1).apply written result.state).isOk = true := by
  obtain ⟨prepared, result, bound, written, failed, did, listed, unassigned, primary, replaced,
    committed, fresh⟩ := smallReplacement_ok 1 .primary (by decide +kernel)
  refine ⟨prepared, result, bound, written, did, replaced, committed, fresh, ?_⟩
  rw [rebuild_accepted_iff (preparePool_agreed did) listed replaced committed fresh, unassigned,
    primary]
  simp

end NoiContest.LivePool
