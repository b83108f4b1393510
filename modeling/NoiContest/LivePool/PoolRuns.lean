import NoiContest.Lib.Runs
import NoiContest.LivePool.Prepare

/- Runs of the pool commits of a contest. A commit works on the pool that its procedure has
   loaded, which any number of other commits may have replaced in the meantime. -/
namespace NoiContest
open Outcome SeatPool SeatPoolState

namespace ContestTables

def seatByGatewayToken (tables : ContestTables) (token : String) : Option SeatRow :=
  tables.seats.find? (·.token == token)

def seatBySubmitToken (tables : ContestTables) (submitToken : String) : Option SeatRow :=
  tables.seats.find? (·.submitToken == submitToken)

end ContestTables

namespace LivePool
open Pipeline (Raised)

inductive Mark where
  | warming (slotNo : Nat) (nowMs : Int) (commandId : String)
  | verified (slotNo : Nat) (container image material : String) (nowMs : Int)
      (commandId : String)

def Mark.run (pool : SeatPoolState) : Mark → Except PoolError SeatPoolState
  | .warming slotNo nowMs commandId =>
    (pool.markWarming slotNo nowMs commandId pool.revision).map (·.state)
  | .verified slotNo container image material nowMs commandId =>
    (pool.markVerified slotNo container image material nowMs commandId pool.revision).map (·.state)

inductive PoolCommit where
  | reserve (uid : Int) (uname : String) (nowMs : Int) (commandId : String)
  | releaseDue (nowMs : Int) (commandId : String)
  | bindPoolSeat (uid : Int) (uname : String) (slotNo : Nat)
  | grow (additionalMain additionalSpares : Int) (commandId : String) (expectedRevision : Int)
      (marks : List Mark) (added : List PoolResource)
  | replaceFailed (slotNo : Nat) (reason : String) (nowMs : Int) (approved : Bool)
      (commandId : String) (expectedRevision : Int)
  | repair (slotNo : Nat) (expectedRevision : Int) (marks : List Mark) (resource : PoolResource)
  | reschedule (beginAtMs releaseLeadMs endAtMs : Int) (hydroRule commandId : String)
      (expectedBeginAtMs expectedEndAtMs observedAtMs : Int)
  /- What other parts of the program write to the contest row. -/
  | contest (row : Option Contest)

/-- The connection resources that a commit brings in. -/
def PoolCommit.added : PoolCommit → List PoolResource
  | .grow _ _ _ _ _ added => added
  | .repair _ _ _ resource => [resource]
  | _ => []

def PoolCommit.apply (tables : ContestTables) (pool : SeatPoolState) :
    PoolCommit → Except Raised ContestTables
  | .reserve uid uname nowMs commandId => do
    let result ← (pool.reserve uid uname nowMs commandId pool.revision).mapError .pool
    (tables.putSeatPool (some pool.revision) result.state).mapError .store
  | .releaseDue nowMs commandId => do
    let released ← (pool.releaseDue nowMs commandId pool.revision).mapError .pool
    if released.replayed = false ∧ released.state.revision ≠ pool.revision
    then (tables.putSeatPool (some pool.revision) released.state).mapError .store
    else return tables
  | .bindPoolSeat uid uname slotNo => (tables.bindPoolSeat uid uname slotNo).mapError .store
  | .grow additionalMain additionalSpares commandId expectedRevision marks added => do
    let grown ← (pool.grow additionalMain additionalSpares commandId expectedRevision).mapError
      .pool
    if grown.replayed then return tables
    else do
      let state ← (marks.foldlM Mark.run grown.state).mapError .pool
      (tables.commitPoolExpansion pool.tid expectedRevision state added).mapError .store
  | .replaceFailed slotNo reason nowMs approved commandId expectedRevision => do
    let replaced ← (pool.replaceFailed slotNo reason nowMs approved commandId
      expectedRevision).mapError .pool
    if replaced.replayed then return tables
    else do
      let committed ← (tables.commitPoolReplacement pool.tid expectedRevision replaced.state
        slotNo).mapError .store
      return committed.2
  | .repair slotNo expectedRevision marks resource => do
    let state ← (marks.foldlM Mark.run pool).mapError .pool
    (tables.commitPoolRepair pool.tid expectedRevision state resource slotNo).mapError .store
  | .reschedule beginAtMs releaseLeadMs endAtMs hydroRule commandId expectedBeginAtMs
      expectedEndAtMs observedAtMs => do
    let rescheduled ← (pool.reschedule beginAtMs releaseLeadMs commandId pool.revision).mapError
      .pool
    let committed ← (tables.commitScheduleSync expectedBeginAtMs expectedEndAtMs beginAtMs
      endAtMs hydroRule observedAtMs pool.revision rescheduled.state).mapError .store
    return committed.2
  | .contest row => return { tables with contest := row }

/-- The rows of the contest, with every state that the pool row has had. -/
structure PoolBook where
  tables : ContestTables
  stored : List SeatPoolState

/-- A commit on the stored state with the given number; a rejected one writes nothing. -/
def PoolBook.step (book : PoolBook) (input : Nat × PoolCommit) : PoolBook :=
  match book.stored[input.1]? with
  | none => book
  | some pool =>
    match input.2.apply book.tables pool with
    | .ok tables => ⟨tables, book.stored ++ tables.pool.toList⟩
    | .error _ => book

/-- The book after a preparation. -/
def PoolBook.prepared (prepared : ContestTables × SeatPoolState) : PoolBook :=
  ⟨prepared.1, [prepared.2]⟩

section Steps
variable {tables written : ContestTables} {pool loaded state : SeatPoolState} {book : PoolBook}

/-- The stored pool agrees with the rows, and every earlier state of it has a lower revision. -/
structure Current (book : PoolBook) (pool : SeatPoolState) : Prop where
  agreed : Agreed book.tables pool
  listed : pool ∈ book.stored
  earlier : ∀ old ∈ book.stored, old.WellFormed ∧ old.revision ≤ pool.revision ∧
    (old.revision = pool.revision → old = pool)

/- A compare-and-swap accepts what was computed from the stored pool only. -/
theorem Current.fresh (current : Current book pool) (mem : loaded ∈ book.stored)
    (same : (pool.revision : Int) = loaded.revision) : loaded = pool :=
  (current.earlier loaded mem).2.2 (by exact_mod_cast same.symm)

theorem mark_wellFormed (wellFormed : pool.WellFormed) {mark : Mark}
    (did : mark.run pool = .ok state) : state.WellFormed := by
  cases mark with
  | warming slotNo nowMs commandId =>
    obtain ⟨result, done, rfl⟩ := map_ok.mp did
    exact markWarming_wellFormed wellFormed done
  | verified slotNo container image material nowMs commandId =>
    obtain ⟨result, done, rfl⟩ := map_ok.mp did
    exact markVerified_wellFormed wellFormed done

theorem marks_wellFormed (wellFormed : pool.WellFormed) {marks : List Mark}
    (did : marks.foldlM Mark.run pool = .ok state) : state.WellFormed := by
  induction marks generalizing pool with
  | nil =>
    cases did
    exact wellFormed
  | cons mark rest ih =>
    rw [List.foldlM_cons, bind_ok] at did
    obtain ⟨next, first, did⟩ := did
    exact ih (mark_wellFormed wellFormed first) did

theorem reserve_agreed (agreed : Agreed tables pool) {uid nowMs expectedRevision : Int}
    {uname commandId : String} {result : TransitionResult}
    (done : pool.reserve uid uname nowMs commandId expectedRevision = .ok result) :
    Agreed (tables.withPool result.state) result.state ∧
      (result.state = pool ∨ pool.revision < result.state.revision) := by
  have wellFormed := reserve_wellFormed agreed.wellFormed done
  rcases reserve_ok done with same | ⟨print, existing, -, -, -, -, seated⟩ |
    ⟨print, chosen, -, -, -, free, -, handed⟩
  · rw [same]
    exact ⟨agreed.same rfl agreed.wellFormed rfl rfl rfl, .inl rfl⟩
  · refine ⟨agreed.same (by rw [seated]; rfl) wellFormed rfl rfl rfl, .inr ?_⟩
    rw [seated, recorded_revision]
    exact Nat.lt_succ_self _
  · obtain ⟨memChosen, verified, unseated⟩ := mem_available.mp free
    have target := reservationState_seated nowMs pool.releaseAtMs
    have carries : Carries chosen
        (reservedSeat chosen uid (PyText.strip uname) nowMs pool.releaseAtMs) := by
      have active : reservationState nowMs pool.releaseAtMs ≠ .planned ∧
          reservationState nowMs pool.releaseAtMs ≠ .warming := by
        rcases target with is | is | is | is <;> rw [is] <;> decide
      refine ⟨⟨rfl, ?_, active.2, rfl, fun planned => absurd planned active.1⟩,
        fun student => absurd unseated student⟩
      rw [verified]
      exact ⟨fun planned => absurd planned active.1, fun impossible => by cases impossible⟩
    refine ⟨agreed.withSeat memChosen carries (by rw [handed]; rfl) wellFormed rfl rfl rfl, .inr ?_⟩
    rw [handed, recorded_revision]
    exact Nat.lt_succ_self _

theorem releaseDue_agreed (agreed : Agreed tables pool) {nowMs expectedRevision : Int}
    {commandId : String} {result : TransitionResult}
    (done : pool.releaseDue nowMs commandId expectedRevision = .ok result) :
    Agreed (tables.withPool result.state) result.state ∧
      (result.state = pool ∨ pool.revision < result.state.revision) := by
  have wellFormed := releaseDue_wellFormed agreed.wellFormed done
  rcases releaseDue_ok done with same | ⟨print, value, -, early⟩ | ⟨print, value, -, released⟩
  · rw [same]
    exact ⟨agreed.same rfl agreed.wellFormed rfl rfl rfl, .inl rfl⟩
  · refine ⟨agreed.same (by rw [early]; rfl) wellFormed rfl rfl rfl, .inr ?_⟩
    rw [early, recorded_revision]
    exact Nat.lt_succ_self _
  · refine ⟨agreed.mapped (by rw [released]; rfl) ?_ wellFormed rfl rfl rfl, .inr ?_⟩
    · intro seat mem
      by_cases reserved : seat.state = .reserved
      · simp only [reserved, beq_self_eq_true, if_true]
        refine ⟨⟨rfl, ?_, by simp, rfl, fun impossible => by cases impossible⟩, fun _ => rfl⟩
        simp [reserved]
      · simp only [beq_iff_eq, reserved, if_false]
        exact agreed.carries mem
    · rw [released, recorded_revision]
      exact Nat.lt_succ_self _

theorem reschedule_agreed (agreed : Agreed tables pool)
    {beginAtMs releaseLeadMs expectedRevision : Int} {commandId : String}
    {result : TransitionResult}
    (done : pool.reschedule beginAtMs releaseLeadMs commandId expectedRevision = .ok result)
    (stored : written.pool = some result.state) (resources : written.resources = tables.resources)
    (rows : written.seats = tables.seats) :
    Agreed written result.state ∧ (result.state = pool ∨ pool.revision < result.state.revision) := by
  have wellFormed := reschedule_wellFormed agreed.wellFormed done
  obtain ⟨_, -, done⟩ := bind_ok.mp done
  obtain ⟨_, -, done⟩ := bind_ok.mp done
  obtain ⟨_, -, done⟩ := bind_ok.mp done
  dsimp only at done
  split at done
  · rw [pure_eq_ok] at done
    subst done
    exact ⟨agreed.same rfl wellFormed stored resources rows, .inl rfl⟩
  · rcases apply_ok done with ⟨_, _, _, rfl⟩ | ⟨_, _, changed, mutated, rfl⟩
    · exact ⟨agreed.same rfl wellFormed stored resources rows, .inl rfl⟩
    · cases mutated
      exact ⟨agreed.same rfl wellFormed stored resources rows, .inr (Nat.lt_succ_self _)⟩

/- One commit on any state that the pool row has had. -/
theorem apply_agreed (current : Current book pool) (mem : loaded ∈ book.stored)
    {commit : PoolCommit} (done : commit.apply book.tables loaded = .ok written) :
    ∃ next, Agreed written next ∧ (next = pool ∨ pool.revision < next.revision) := by
  have agreed := current.agreed
  have wellFormed := (current.earlier loaded mem).1
  cases commit with
  | reserve uid uname nowMs commandId =>
    simp only [PoolCommit.apply, bind_ok, mapError_ok] at done
    obtain ⟨result, reserved, saved⟩ := done
    obtain ⟨rfl, expected⟩ := putSeatPool_ok saved
    cases current.fresh mem (Option.some.inj (expected pool agreed.stored)).symm
    exact ⟨_, reserve_agreed agreed reserved⟩
  | releaseDue nowMs commandId =>
    simp only [PoolCommit.apply, bind_ok, mapError_ok] at done
    obtain ⟨result, released, saved⟩ := done
    split at saved
    · rw [mapError_ok] at saved
      obtain ⟨rfl, expected⟩ := putSeatPool_ok saved
      cases current.fresh mem (Option.some.inj (expected pool agreed.stored)).symm
      exact ⟨_, releaseDue_agreed agreed released⟩
    · cases saved
      exact ⟨pool, agreed, .inl rfl⟩
  | bindPoolSeat uid uname slotNo =>
    exact ⟨pool, bound_agreed agreed (mapError_ok.mp done), .inl rfl⟩
  | grow mains spares commandId expectedRevision marks added =>
    simp only [PoolCommit.apply, bind_ok, mapError_ok] at done
    obtain ⟨grown, extended, done⟩ := done
    split at done
    · cases done
      exact ⟨pool, agreed, .inl rfl⟩
    · simp only [bind_ok, mapError_ok] at done
      obtain ⟨state, marked, committed⟩ := done
      obtain ⟨next, same, later⟩ := expansion_agreed agreed
        (marks_wellFormed (grow_wellFormed wellFormed extended) marked) committed
      exact ⟨state, next, .inr (by omega)⟩
  | replaceFailed slotNo reason nowMs approved commandId expectedRevision =>
    simp only [PoolCommit.apply, bind_ok, mapError_ok] at done
    obtain ⟨result, replaced, done⟩ := done
    split at done
    · cases done
      exact ⟨pool, agreed, .inl rfl⟩
    · rename_i unreplayed
      simp only [bind_ok, mapError_ok, pure_eq_ok] at done
      obtain ⟨⟨bound, _⟩, committed, rfl⟩ := done
      obtain ⟨same, -⟩ := commitPoolReplacement_cases agreed.stored committed
      have expected : expectedRevision = loaded.revision := by
        rcases replaceFailed_ok replaced with replayed | ⟨_, _, _, _, _, expected, _⟩
        · exact absurd replayed unreplayed
        · exact expected
      cases current.fresh mem (same.trans expected)
      obtain ⟨next, -, later⟩ := replacement_agreed agreed replaced committed
      exact ⟨_, next, .inr (by omega)⟩
  | repair slotNo expectedRevision marks resource =>
    simp only [PoolCommit.apply, bind_ok, mapError_ok] at done
    obtain ⟨state, marked, committed⟩ := done
    obtain ⟨next, same, later⟩ := repair_agreed agreed (marks_wellFormed wellFormed marked)
      committed
    exact ⟨state, next, .inr (by omega)⟩
  | reschedule beginAtMs lead endAtMs rule commandId expectedBegin expectedEnd observedAtMs =>
    simp only [PoolCommit.apply, bind_ok, mapError_ok, pure_eq_ok] at done
    obtain ⟨result, rescheduled, ⟨contest, _⟩, committed, rfl⟩ := done
    obtain ⟨stored, resources, rows, current', found, same⟩ := commitScheduleSync_ok committed
    cases agreed.stored.symm.trans found
    cases current.fresh mem same
    exact ⟨_, reschedule_agreed agreed rescheduled stored resources rows⟩
  | contest row =>
    simp only [PoolCommit.apply, pure_eq_ok] at done
    cases done
    exact ⟨pool, { agreed with stored := agreed.stored }, .inl rfl⟩

/- Where the resources after a commit come from. -/
theorem apply_resources (current : Current book pool) {commit : PoolCommit}
    (done : commit.apply book.tables loaded = .ok written) :
    ∀ resource ∈ written.resources, resource ∈ commit.added ∨ ∃ old ∈ book.tables.resources,
      ∃ revision, resource = { old with credentialRevision := revision } := by
  have agreed := current.agreed
  have unchanged (same : written.resources = book.tables.resources) :
      ∀ resource ∈ written.resources, resource ∈ commit.added ∨ ∃ old ∈ book.tables.resources,
        ∃ revision, resource = { old with credentialRevision := revision } :=
    fun resource mem => .inr ⟨resource, same ▸ mem, _, rfl⟩
  cases commit with
  | reserve uid uname nowMs commandId =>
    simp only [PoolCommit.apply, bind_ok, mapError_ok] at done
    obtain ⟨result, -, saved⟩ := done
    exact unchanged (by rw [(putSeatPool_ok saved).1]; rfl)
  | releaseDue nowMs commandId =>
    simp only [PoolCommit.apply, bind_ok, mapError_ok] at done
    obtain ⟨result, -, saved⟩ := done
    split at saved
    · rw [mapError_ok] at saved
      exact unchanged (by rw [(putSeatPool_ok saved).1]; rfl)
    · cases saved
      exact unchanged rfl
  | bindPoolSeat uid uname slotNo =>
    obtain ⟨seats, rfl⟩ := ContestTables.bindPoolSeat_ok (mapError_ok.mp done)
    exact unchanged rfl
  | grow mains spares commandId expectedRevision marks added =>
    simp only [PoolCommit.apply, bind_ok, mapError_ok] at done
    obtain ⟨grown, -, done⟩ := done
    split at done
    · cases done
      exact unchanged rfl
    · simp only [bind_ok, mapError_ok, ContestTables.commitPoolExpansion, raiseIf_ok,
        pure_eq_ok] at done
      obtain ⟨_, -, _, -, _, -, _, -, _, -, _, -, _, -, _, -, _, -, resources, inserted, rfl⟩ := done
      obtain ⟨rfl, -⟩ := insertResources_ok agreed.unshared inserted
      intro resource mem
      rcases List.mem_append.mp mem with old | new
      · exact .inr ⟨resource, old, _, rfl⟩
      · exact .inl new
  | replaceFailed slotNo reason nowMs approved commandId expectedRevision =>
    simp only [PoolCommit.apply, bind_ok, mapError_ok] at done
    obtain ⟨result, replaced, done⟩ := done
    split at done
    · cases done
      exact unchanged rfl
    · simp only [bind_ok, mapError_ok, pure_eq_ok] at done
      obtain ⟨⟨bound, _⟩, committed, rfl⟩ := done
      obtain ⟨-, -, oldSeat, failed, replacement, -, -, -, search, -, ⟨-, rfl⟩ |
        ⟨seat, own, revision, seats, rfl, -, rfl⟩⟩ :=
        commitPoolReplacement_cases agreed.stored committed
      · intro resource mem
        exact .inr ⟨resource, (List.mem_filter.mp mem).1, _, rfl⟩
      · intro resource mem
        obtain ⟨old, memOld, rfl⟩ := List.mem_map.mp mem
        obtain ⟨-, -, -, memOwn, slotOwn⟩ := replacementFor_some search
        have memBefore := (List.mem_filter.mp memOld).1
        by_cases here : old.slotNo = seat.slotNo
        · rw [if_pos here]
          exact .inr ⟨own, memOwn, revision, rfl⟩
        · rw [if_neg here]
          exact .inr ⟨old, memBefore, _, rfl⟩
  | repair slotNo expectedRevision marks resource =>
    simp only [PoolCommit.apply, bind_ok, mapError_ok] at done
    obtain ⟨state, -, committed⟩ := done
    simp only [ContestTables.commitPoolRepair, bind_ok, raiseIf_ok] at committed
    obtain ⟨_, -, _, -, repaired, -, _, -, previous, -, committed⟩ := committed
    cases search : previous.bySlot slotNo with
    | none => simp [search] at committed
    | some before =>
      simp only [search, bind_ok, pure_eq_ok] at committed
      obtain ⟨_, -, _, -, _, -, _, -, _, -, resources, inserted, rfl⟩ := committed
      obtain ⟨rfl, -⟩ := insertResource_ok inserted
      intro other mem
      rcases List.mem_append.mp mem with old | new
      · exact .inr ⟨other, old, _, rfl⟩
      · exact .inl new
  | reschedule beginAtMs lead endAtMs rule commandId expectedBegin expectedEnd observedAtMs =>
    simp only [PoolCommit.apply, bind_ok, mapError_ok, pure_eq_ok] at done
    obtain ⟨result, -, ⟨contest, _⟩, committed, rfl⟩ := done
    exact unchanged (commitScheduleSync_ok committed).2.1
  | contest row =>
    simp only [PoolCommit.apply, pure_eq_ok] at done
    cases done
    exact unchanged rfl

theorem step_current (current : Current book pool) (input : Nat × PoolCommit) :
    ∃ next, Current (book.step input) next := by
  unfold PoolBook.step
  cases found : book.stored[input.1]? with
  | none => exact ⟨pool, current⟩
  | some loaded =>
    cases done : input.2.apply book.tables loaded with
    | error error =>
      simp only [done]
      exact ⟨pool, current⟩
    | ok written =>
      simp only [done]
      obtain ⟨next, agreed, later⟩ := apply_agreed current (List.mem_of_getElem? found) done
      refine ⟨next, agreed, ?_, ?_⟩
      · simp [agreed.stored]
      · intro old mem
        simp only [agreed.stored, Option.toList_some, List.mem_append, List.mem_singleton] at mem
        rcases mem with before | rfl
        · obtain ⟨wellFormed, below, unique⟩ := current.earlier old before
          rcases later with rfl | later
          · exact ⟨wellFormed, below, unique⟩
          · exact ⟨wellFormed, by omega, fun same => by omega⟩
        · exact ⟨agreed.wellFormed, le_refl _, fun _ => rfl⟩

theorem run_current (current : Current book pool) (commits : List (Nat × PoolCommit)) :
    ∃ last, Current (Runs.run PoolBook.step book commits) last :=
  Runs.run_invariant (fun book => ∃ pool, Current book pool)
    (fun _ input ⟨_, current⟩ => step_current current input) ⟨pool, current⟩ commits

theorem prepared_current (agreed : Agreed tables pool) :
    Current (PoolBook.prepared (tables, pool)) pool := by
  refine ⟨agreed, List.mem_singleton_self _, fun old mem => ?_⟩
  cases List.mem_singleton.mp mem
  exact ⟨agreed.wellFormed, le_refl _, fun _ => rfl⟩

theorem step_resources (current : Current book pool) (input : Nat × PoolCommit) :
    ∀ resource ∈ (book.step input).tables.resources, resource ∈ input.2.added ∨
      ∃ old ∈ book.tables.resources, ∃ revision,
        resource = { old with credentialRevision := revision } := by
  have unchanged : ∀ resource ∈ book.tables.resources, resource ∈ input.2.added ∨
      ∃ old ∈ book.tables.resources, ∃ revision,
        resource = { old with credentialRevision := revision } :=
    fun resource mem => .inr ⟨resource, mem, _, rfl⟩
  unfold PoolBook.step
  cases found : book.stored[input.1]? with
  | none => exact unchanged
  | some loaded =>
    cases done : input.2.apply book.tables loaded with
    | error error =>
      simp only [done]
      exact unchanged
    | ok written =>
      simp only [done]
      exact apply_resources current done

end Steps

section Tokens
variable {tables : ContestTables} {pool : SeatPoolState} {book : PoolBook}

/-- No connection resource carries one of the tokens. -/
def Retired (token submitToken : String) (resources : List PoolResource) : Prop :=
  ∀ resource ∈ resources, resource.token ≠ token ∧ resource.submitToken ≠ submitToken

theorem retired_unresolved (agreed : Agreed tables pool) {token submitToken : String}
    (retired : Retired token submitToken tables.resources) :
    tables.seatByGatewayToken token = none ∧ tables.seatBySubmitToken submitToken = none := by
  constructor <;>
  · refine List.find?_eq_none.mpr fun row mem carries => ?_
    obtain ⟨seat, -, resource, memResource, -, -, carried⟩ := agreed.rows row mem
    rw [beq_iff_eq, carried] at carries
    first
    | exact (retired resource memResource).1 carries
    | exact (retired resource memResource).2 carries

theorem step_retired (current : Current book pool) {token submitToken : String}
    (retired : Retired token submitToken book.tables.resources) {input : Nat × PoolCommit}
    (fresh : Retired token submitToken input.2.added) :
    Retired token submitToken (book.step input).tables.resources := by
  intro resource mem
  rcases step_resources current input resource mem with new | ⟨old, memOld, revision, rfl⟩
  · exact fresh resource new
  · exact retired old memOld

/- A resource whose slot has none after a commit leaves its tokens to nobody. -/
theorem removed_retired (current : Current book pool) {resource : PoolResource}
    (mem : resource ∈ book.tables.resources) {input : Nat × PoolCommit}
    (fresh : Retired resource.token resource.submitToken input.2.added)
    (removed : resource.slotNo ∉ (book.step input).tables.resources.map (·.slotNo)) :
    Retired resource.token resource.submitToken (book.step input).tables.resources := by
  intro other memOther
  rcases step_resources current input other memOther with new | ⟨old, memOld, revision, rfl⟩
  · exact fresh other new
  · have apart : old.slotNo ≠ resource.slotNo := fun same =>
      removed (List.mem_map.mpr ⟨_, memOther, same⟩)
    constructor
    · exact fun same => apart (current.agreed.tokens old memOld resource mem (.inl same))
    · exact fun same => apart (current.agreed.tokens old memOld resource mem (.inr same))

theorem run_retired (current : Current book pool) {token submitToken : String}
    (retired : Retired token submitToken book.tables.resources) {commits : List (Nat × PoolCommit)}
    (fresh : ∀ input ∈ commits, Retired token submitToken input.2.added) :
    Retired token submitToken (Runs.run PoolBook.step book commits).tables.resources := by
  induction commits generalizing book pool with
  | nil => exact retired
  | cons input rest ih =>
    obtain ⟨next, current'⟩ := step_current current input
    rw [Runs.run_cons]
    exact ih current' (step_retired current retired (fresh input List.mem_cons_self))
      fun later mem => fresh later (List.mem_cons_of_mem _ mem)

/-- The replacement of the seat goes through on the pool row with the given number. -/
def PoolBook.Replaces (book : PoolBook) (input : Nat × PoolCommit) (slotNo : Nat) : Prop :=
  ∃ loaded reason nowMs approved commandId expectedRevision result committed,
    book.stored[input.1]? = some loaded ∧
    input.2 = .replaceFailed slotNo reason nowMs approved commandId expectedRevision ∧
    loaded.replaceFailed slotNo reason nowMs approved commandId expectedRevision = .ok result ∧
    result.replayed = false ∧
    book.tables.commitPoolReplacement loaded.tid expectedRevision result.state slotNo =
      .ok committed

theorem replaced_removed (current : Current book pool) {input : Nat × PoolCommit} {slotNo : Nat}
    (replaces : book.Replaces input slotNo) :
    slotNo ∉ (book.step input).tables.resources.map (·.slotNo) ∧ input.2.added = [] := by
  obtain ⟨loaded, reason, nowMs, approved, commandId, expectedRevision, result, ⟨bound, written⟩,
    found, is, replaced, unreplayed, committed⟩ := replaces
  have next : (book.step input).tables = written := by
    simp [PoolBook.step, found, is, PoolCommit.apply, replaced, unreplayed, committed,
      Except.mapError]
  rw [next, is]
  refine ⟨fun mem => ?_, rfl⟩
  obtain ⟨resource, memResource, slot⟩ := List.mem_map.mp mem
  obtain ⟨-, -, oldSeat, failed, replacement, -, -, -, search, -, ⟨-, rfl⟩ |
    ⟨seat, own, revision, seats, rfl, -, rfl⟩⟩ :=
    commitPoolReplacement_cases current.agreed.stored committed
  · have apart := (List.mem_filter.mp memResource).2
    simp [slot] at apart
  · obtain ⟨old, memOld, rfl⟩ := List.mem_map.mp memResource
    have apart := (List.mem_filter.mp memOld).2
    obtain ⟨-, -, -, memOwn, slotOwn⟩ := replacementFor_some search
    by_cases here : old.slotNo = seat.slotNo
    · rw [if_pos here] at slot
      have same : old.slotNo = slotNo := here.trans (slotOwn.symm.trans slot)
      simp [same] at apart
    · rw [if_neg here] at slot
      simp [slot] at apart

end Tokens

/-- The resources are those of the active seats, and a student's row is that of the own slot. -/
structure TablesAgree (tables : ContestTables) (pool : SeatPoolState) : Prop where
  once : (tables.resources.map (·.slotNo)).Nodup
  active : ∀ slot, slot ∈ tables.resources.map (·.slotNo) ↔
    ∃ seat ∈ pool.seats, seat.slotNo = slot ∧ seat.state ≠ .planned
  evidence : ∀ seat ∈ pool.seats, ∀ resource ∈ tables.resources,
    resource.slotNo = seat.slotNo → resource.container = seat.containerRef ∧
      resource.imageDigest = seat.imageDigest ∧ resource.materialDigest = seat.materialDigest
  rows : ∀ row ∈ tables.seats, ∀ seat ∈ pool.seats, seat.uid = some row.uid →
    ∃ resource ∈ tables.resources, resource.slotNo = seat.slotNo ∧ row.token = resource.token ∧
      row.vncPass = resource.vncPass ∧ row.submitToken = resource.submitToken ∧
      row.container = resource.container

theorem Agreed.tablesAgree {tables : ContestTables} {pool : SeatPoolState}
    (agreed : Agreed tables pool) : TablesAgree tables pool where
  once := agreed.slots
  active := agreed.active
  evidence := by
    intro seat mem resource memResource same
    have evidence := agreed.evidence seat mem resource memResource same
    simp only [Seat.evidence, PoolResource.evidence, Prod.mk.injEq] at evidence
    exact ⟨evidence.1.symm, evidence.2.1.symm, evidence.2.2.symm⟩
  rows := by
    intro row mem seat memSeat student
    obtain ⟨own, memOwn, resource, memResource, seated, same, carried⟩ := agreed.rows row mem
    have itself : own = seat := agreed.wellFormed.students own memOwn seat memSeat
      (by simp [seated]) (seated.trans student.symm)
    refine ⟨resource, memResource, itself ▸ same, ?_⟩
    rw [carried]
    exact ⟨rfl, rfl, rfl, rfl⟩

/- After a preparation and any commits the three tables agree. The tokens of a replaced seat
   resolve to nobody, as long as no later resource is given them again. -/
theorem pool_commits_agree {cfg : Pipeline.Config} {contest : Contest} {participants : Nat}
    {imageOutput : String} {outside : Nat → Preheating} {before : ContestTables}
    {prepared : ContestTables × SeatPoolState}
    (did : preparePool cfg contest participants imageOutput outside before = .ok prepared)
    (commits : List (Nat × PoolCommit)) :
    let book := Runs.run PoolBook.step (PoolBook.prepared prepared)
    (∃ pool, (book commits).tables.pool = some pool ∧ TablesAgree (book commits).tables pool) ∧
    ∀ front replacement back slotNo, commits = front ++ replacement :: back →
      (book front).Replaces replacement slotNo →
      ∀ resource ∈ (book front).tables.resources, resource.slotNo = slotNo →
        (∀ input ∈ back, Retired resource.token resource.submitToken input.2.added) →
        (book commits).tables.seatByGatewayToken resource.token = none ∧
          (book commits).tables.seatBySubmitToken resource.submitToken = none := by
  intro book
  have start := prepared_current (preparePool_agreed did)
  constructor
  · obtain ⟨pool, current⟩ := run_current start commits
    exact ⟨pool, current.agreed.stored, current.agreed.tablesAgree⟩
  · rintro front replacement back slotNo rfl replaces resource mem rfl fresh
    obtain ⟨middle, before⟩ := run_current start front
    obtain ⟨removed, none⟩ := replaced_removed before replaces
    have retired := removed_retired before mem (by rw [none]; simp [Retired]) removed
    obtain ⟨next, after⟩ := step_current before replacement
    obtain ⟨last, current⟩ := run_current start (front ++ replacement :: back)
    refine retired_unresolved current.agreed ?_
    rw [Runs.run_append, Runs.run_cons]
    exact run_retired after retired fresh

/- Three seats for one student, who is moved to a spare. -/
def smallConfig : Pipeline.Config := { dockerImage := "noi", publicBase := ⟨"https", "oj", ""⟩ }

def smallContest : Contest :=
  { tid := "aaaaaaaaaaaaaaaaaaaaaaaa", files := ["a"], beginAtMs := 1000000000
    materialManifestSha256 := "ab" }

def smallPreheating (slotNo : Nat) : Preheating :=
  { warmAtMs := 1, verifyAtMs := 2, token := "token-" ++ toString slotNo, vncPass := "secret"
    submitToken := "submit-" ++ toString slotNo, containerImage := "image"
    containerAddress := "10.0.0." ++ toString slotNo }

def smallPrepared : Except Pipeline.Raised (ContestTables × SeatPoolState) :=
  preparePool smallConfig smallContest 1 "image finalizer-status-v1" smallPreheating
    { contest := some smallContest }

def smallCommits : List (Nat × PoolCommit) :=
  [(0, .reserve 7 "alice" 3 "reserve"), (1, .bindPoolSeat 7 "alice" 1),
    (1, .replaceFailed 1 "broken" 4 true "replace" 7)]

theorem smallPrepared_accepted : ∃ prepared, smallPrepared = .ok prepared :=
  Outcome.ok_of_isOk (by decide +kernel)

theorem pool_commits_agree_small : ∃ prepared, smallPrepared = .ok prepared ∧
    ∃ pool, (Runs.run PoolBook.step (PoolBook.prepared prepared) smallCommits).tables.pool =
        some pool ∧
      TablesAgree (Runs.run PoolBook.step (PoolBook.prepared prepared) smallCommits).tables
        pool := by
  obtain ⟨prepared, did⟩ := smallPrepared_accepted
  exact ⟨prepared, did, (pool_commits_agree did smallCommits).1⟩

end LivePool
end NoiContest
