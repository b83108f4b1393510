import NoiContest.Pipeline.IsolationRuns
import NoiContest.Pipeline.TableView

/- Whether one student can hold up the release of the others. Growing, binding and reserving
   come before the bulk release in one call, and an exception in any of them leaves the reserved
   seats as they were. -/
namespace NoiContest.Pipeline
open SeatPool SeatPoolState Flow

/-- A pool with this release boundary in which the given slots wait for their release. -/
structure Waits (waiting : List Nat) (releaseAtMs : Int) (pool : SeatPoolState) : Prop where
  distinct : pool.slots.Nodup
  boundary : pool.releaseAtMs = releaseAtMs
  reserved : ∀ slot ∈ waiting, ∃ seat ∈ pool.seats, seat.slotNo = slot ∧ seat.state = .reserved

def StillWaits (waiting : List Nat) (releaseAtMs : Int) (tables : ContestTables) : Prop :=
  ∃ pool, tables.pool = some pool ∧ Waits waiting releaseAtMs pool

/-- The calls that leave the stored pool as it is. -/
def LeavesPool : Call → Prop
  | .putSeatPool .. | .commitScheduleSync .. | .commitPoolExpansion .. |
    .commitPoolReplacement .. | .commitPoolRepair .. => False
  | _ => True

theorem preparatory_leavesPool (c : Call) (preparatory : Preparatory c) : LeavesPool c := by
  cases c
  all_goals trivial

section Untouched
variable {ε α β : Type} {T : ContestTables} {stored : Option SeatPoolState}

theorem tableView_monotone : Monotone tableView := by
  intro c T next next' weaker viewed
  refine ⟨fun raises raised => weaker _ _ (viewed.1 raises raised), ?_⟩
  have effect := viewed.2
  cases c
  all_goals first
    | exact weaker _ _ effect
    | exact fun answer => weaker _ _ (effect answer)
    | exact fun a b => weaker _ _ (effect a b)
    | exact fun a b c => weaker _ _ (effect a b c)

theorem leavesPool_call {c : Call} (leaves : LeavesPool c) (same : T.pool = stored) :
    tableView c T fun _ T' => T'.pool = stored := by
  cases c
  case bindPoolSeat uid uname slotNo =>
    refine ⟨fun _ _ => same, fun written bound => ?_⟩
    obtain ⟨seats, rfl⟩ := ContestTables.bindPoolSeat_ok bound
    exact same
  case seatPoolResources => exact ⟨fun _ _ => same, fun _ _ => same⟩
  case getContest => exact ⟨fun _ _ => same, same⟩
  case seatPool => exact ⟨fun _ _ => same, same⟩
  case setState => exact ⟨fun _ _ => same, same⟩
  case putSeatPool => cases leaves
  case commitScheduleSync => cases leaves
  case commitPoolExpansion => cases leaves
  case commitPoolReplacement => cases leaves
  case commitPoolRepair => cases leaves
  all_goals exact ⟨fun _ _ => same, fun _ => same⟩

theorem leavesPool_keeps {x : Program Call Answer Raised ε α} (leaves : Only LeavesPool x) :
    Keeps tableView (fun T => T.pool = stored) x :=
  leaves.keeps tableView_monotone fun _ is _ same => leavesPool_call is same

/- A part that leaves the pool alone, before the rest of a procedure. -/
theorem unmoved {x : Program Call Answer Raised ε α} {f : α → Program Call Answer Raised ε β}
    {post : β → ContestTables → Prop} {raised : ε → ContestTables → Prop}
    (leaves : Only LeavesPool x) (same : T.pool = stored)
    (next : ∀ a T', T'.pool = stored → Ends tableView (f a) T' post raised)
    (failed : ∀ e T', T'.pool = stored → raised e T') :
    Ends tableView (x >>= f) T post raised :=
  (leavesPool_keeps leaves T same).bind tableView_monotone next failed

theorem leaves_of_preparatory {x : Program Call Answer Raised ε α}
    (preparatory : Only Preparatory x) : Only LeavesPool x :=
  preparatory.mono preparatory_leavesPool

end Untouched

/- Growth -/

section Growth
variable {waiting : List Nat} {releaseAtMs : Int} {pool : SeatPoolState} {T : ContestTables}

theorem StillWaits.of (waits : Waits waiting releaseAtMs pool) (stored : T.pool = some pool) :
    StillWaits waiting releaseAtMs T := ⟨pool, stored, waits⟩

theorem markWarming_boundary {slotNo : Nat} {nowMs expectedRevision : Int} {commandId : String}
    {result : TransitionResult}
    (done : pool.markWarming slotNo nowMs commandId expectedRevision = .ok result) :
    result.state.releaseAtMs = pool.releaseAtMs := by
  rcases markWarming_ok done with same | ⟨_, _, _, _, _, _, _, state⟩
  · rw [same]
  · rw [state]
    rfl

theorem markVerified_boundary {slotNo : Nat} {container image material : String}
    {nowMs expectedRevision : Int} {commandId : String} {result : TransitionResult}
    (done : pool.markVerified slotNo container image material nowMs commandId expectedRevision =
      .ok result) : result.state.releaseAtMs = pool.releaseAtMs := by
  rcases markVerified_ok done with same | ⟨_, _, _, _, _, _, _, state⟩
  · rw [same]
  · rw [state]
    rfl

theorem provisionAdded_boundary (context : RuntimeContext) (tid : String) (expectedRevision : Int)
    (slots : List Nat) (state : SeatPoolState) (existingCips : List String)
    (attempted : List ResourceSpec) (added : List PoolResource) :
    Returns (fun provisioned => SameSeating state provisioned.1 ∧
        provisioned.1.releaseAtMs = state.releaseAtMs)
      (provisionAdded context tid expectedRevision slots state existingCips attempted added) := by
  induction slots generalizing state existingCips attempted added with
  | nil => exact returns_pure ⟨.refl state, rfl⟩
  | cons slotNo rest ih =>
    simp only [provisionAdded]
    refine Returns.bind returns_any fun warmAtMs _ => ?_
    refine Returns.bind (returns_onPool _ _) fun warming warmed => ?_
    refine Returns.bind returns_any fun spec _ => ?_
    refine Returns.bind returns_any fun resource _ => ?_
    refine Returns.bind returns_any fun verifyAtMs _ => ?_
    refine Returns.bind (returns_onPool _ _) fun verified marked => ?_
    have seating := (markWarming_sameSeating warmed).trans (markVerified_sameSeating marked)
    have boundary := (markVerified_boundary marked).trans (markWarming_boundary warmed)
    exact (ih verified.state _ _ _).mono fun _ later =>
      ⟨seating.trans later.1, later.2.trans boundary⟩

/- An expansion is committed over seats that it does not touch. -/
theorem commitPoolExpansion_waits {state : SeatPoolState} {tid : String} {revision : Int}
    {added : List PoolResource} (waits : Waits waiting releaseAtMs pool)
    (stored : T.pool = some pool) (distinct : state.slots.Nodup)
    (boundary : state.releaseAtMs = pool.releaseAtMs) :
    Ends tableView (commitPoolExpansion tid revision state added) T
      (fun _ T' => StillWaits waiting releaseAtMs T')
      (fun _ T' => T'.pool = some pool) := by
  refine ⟨fun _ _ => stored, fun written committed => ?_⟩
  obtain ⟨published, kept⟩ := ContestTables.commitPoolExpansion_ok stored committed
  refine ⟨state, published, distinct, boundary.trans waits.boundary, ?_⟩
  intro slot mem
  obtain ⟨seat, inside, sameSlot, reserved⟩ := waits.reserved slot mem
  have found := kept slot (sameSlot ▸ slot_mem inside)
  rw [← sameSlot, bySlot_of_mem waits.distinct inside] at found
  obtain ⟨there, slotNo⟩ := mem_of_bySlot found
  exact ⟨seat, there, sameSlot, reserved⟩

theorem holding_leaves {Locals α : Type} {locals : Locals} {body : Procedure α}
    (leaves : Only LeavesPool body) : Only LeavesPool (holding locals body) := Only.holding leaves

theorem leaves_keeps_waiting {ε α : Type} {x : Program Call Answer Raised ε α}
    (leaves : Only LeavesPool x) : Keeps tableView (StillWaits waiting releaseAtMs) x := by
  rintro T ⟨pool, stored, waits⟩
  exact (leavesPool_keeps leaves T stored).mono tableView_monotone
    (fun _ _ stored => StillWaits.of waits stored) fun _ _ stored => StillWaits.of waits stored

theorem commitOrRestore_waits {Locals α : Type} (staged unstaged : Locals) (revision : Int)
    {commit : Procedure α} (commits : Ends tableView commit T
      (fun _ T' => StillWaits waiting releaseAtMs T') fun _ T' => T'.pool = some pool)
    (waits : Waits waiting releaseAtMs pool) :
    Ends tableView (commitOrRestore staged unstaged revision commit) T
      (fun _ T' => StillWaits waiting releaseAtMs T')
      (fun _ T' => StillWaits waiting releaseAtMs T') := by
  unfold commitOrRestore
  rw [ends_orElse, holding, ends_mapError]
  refine commits.mono tableView_monotone (fun _ _ still => still) fun e T' stored => ?_
  have restores := leaves_of_preparatory (restorePoolGateway_only revision)
  exact unmoved (holding_leaves restores) stored (fun _ _ stored => StillWaits.of waits stored)
    fun _ _ stored => StillWaits.of waits stored

theorem growBody_waits (cfg : Config) (tid : String) (mains spares expectedRevision : Int) :
    Keeps tableView (StillWaits waiting releaseAtMs)
      (growBody cfg tid mains spares expectedRevision) := by
  rintro T ⟨pool, stored, waits⟩
  have failed {T' : ContestTables} (same : T'.pool = some pool) :
      StillWaits waiting releaseAtMs T' := StillWaits.of waits same
  unfold growBody
  refine unmoved (holding_leaves (only_call (by trivial))) stored (fun _ T₁ stored => ?_)
    fun _ _ => failed
  refine unmoved (holding_leaves (only_call (by trivial))) stored (fun row T₂ stored => ?_)
    fun _ _ => failed
  have read : Ends tableView (holding ({} : GrowLocals) seatPool) T₂
      (fun answer T' => answer = some pool ∧ T'.pool = some pool)
      (fun _ T' => T'.pool = some pool) := by
    rw [holding, ends_mapError, ends_seatPool]
    exact ⟨fun _ => stored, stored, stored⟩
  apply read.bind tableView_monotone _ fun _ _ => failed
  rintro answer T₃ ⟨rfl, stored⟩
  cases row with
  | none => exact failed stored
  | some contest =>
  dsimp only
  refine unmoved (holding_leaves only_pipelineRaiseIf) stored (fun _ T₄ stored => ?_)
    fun _ _ => failed
  refine unmoved (holding_leaves (leaves_of_preparatory (validateContestSnapshot_only contest)))
    stored (fun _ T₅ stored => ?_) fun _ _ => failed
  cases done : pool.grow mains spares (growId tid expectedRevision mains spares)
      expectedRevision with
  | error e => exact failed stored
  | ok grown =>
  rw [holding, ends_bind, ends_mapError, ends_onPool]
  refine ⟨fun _ impossible => (by cases impossible), fun _ is => ?_⟩
  cases is
  rcases grow_ok done with replayed | ⟨print, fresh, _, _, _, _, _, state⟩
  · simp only [replayed, if_true]
    exact failed stored
  simp only [fresh, Bool.false_eq_true, if_false]
  refine unmoved (holding_leaves only_pipelineRaiseIf) stored (fun _ T₆ stored => ?_)
    fun _ _ => failed
  refine unmoved (holding_leaves only_pipelineRaiseIf) stored (fun _ T₇ stored => ?_)
    fun _ _ => failed
  refine unmoved (holding_leaves (only_call (by trivial))) stored (fun status T₈ stored => ?_)
    fun _ _ => failed
  refine unmoved (holding_leaves only_pipelineRaiseIf) stored (fun _ T₉ stored => ?_)
    fun _ _ => failed
  refine unmoved (holding_leaves (only_call (by trivial))) stored (fun reachable T₁₀ stored => ?_)
    fun _ _ => failed
  refine unmoved (holding_leaves only_pipelineRaiseIf) stored (fun _ T₁₁ stored => ?_)
    fun _ _ => failed
  refine unmoved (holding_leaves (leaves_of_preparatory (poolRuntimeContext_only cfg contest pool)))
    stored (fun context T₁₂ stored => ?_) fun _ _ => failed
  have leaves := leaves_of_preparatory (provisionAdded_only context tid expectedRevision
    (addedSlots grown.value) grown.state (context.resources.map (·.cip)) [] [])
  have provisioned := leaves.keeps_returning tableView_monotone
    (fun _ is _ same => leavesPool_call is same)
    (provisionAdded_boundary context tid expectedRevision _ _ _ _ _) stored
  apply provisioned.bind tableView_monotone _ fun _ _ => failed
  rintro ⟨final, attempted, added⟩ T₁₃ ⟨stored, seating, boundary⟩
  dsimp only at seating boundary ⊢
  refine unmoved (holding_leaves only_checked) stored (fun conf T₁₄ stored => ?_) fun _ _ => failed
  refine unmoved (holding_leaves (leaves_of_preparatory (stagePoolGateway_only _ _))) stored
    (fun _ T₁₅ stored => ?_) fun _ _ => failed
  have distinct : final.slots.Nodup := by
    rw [seating.slots, state]
    exact extended_distinct waits.distinct
  refine Ends.bind tableView_monotone (commitOrRestore_waits _ _ _ (commitPoolExpansion_waits waits
      stored distinct (boundary.trans (by rw [state]; rfl))) waits)
    (fun _ T₁₆ still => ?_) fun _ _ still => still
  refine Ends.bind tableView_monotone (leaves_keeps_waiting (holding_leaves (only_call (by trivial)))
    T₁₆ still) (fun _ T₁₇ still => ?_) fun _ _ still => still
  exact Ends.bind tableView_monotone (leaves_keeps_waiting (holding_leaves (only_call (by trivial)))
    T₁₇ still) (fun _ T₁₈ still => still) fun _ _ still => still

theorem leaves_of_harmless {ε α : Type} {x : Program Call Answer Raised ε α}
    (harmless : Only Harmless x) : Only LeavesPool x := by
  refine harmless.mono fun c is => ?_
  cases c
  all_goals trivial

theorem growPool_waits (cfg : Config) (tid : String) (mains spares expectedRevision : Int) :
    Keeps tableView (StillWaits waiting releaseAtMs)
      (growPool cfg tid mains spares expectedRevision) := by
  unfold growPool
  apply Keeps.bind tableView_monotone (leaves_keeps_waiting (only_call (by trivial)))
  intro _
  apply Keeps.andFinally tableView_monotone
  · apply Keeps.orElse tableView_monotone (growBody_waits cfg tid mains spares expectedRevision)
    intro failed
    exact leaves_keeps_waiting (leaves_of_harmless (growFailed_harmless failed.1 failed.2))
  · apply leaves_keeps_waiting
    exact Only.bind (only_call (by trivial)) fun _ => only_call (by trivial)

theorem ensureAutomaticRosterCapacity_waits (cfg : Config) (tid : String)
    (roster : List Participant) :
    Keeps tableView (StillWaits waiting releaseAtMs)
      (ensureAutomaticRosterCapacity cfg tid roster) := by
  unfold ensureAutomaticRosterCapacity
  apply Keeps.bind tableView_monotone (leaves_keeps_waiting (only_call (by trivial)))
  intro row
  apply Keeps.bind tableView_monotone (leaves_keeps_waiting (only_call (by trivial)))
  intro stored
  match row, stored with
  | none, _ => exact keeps_raise
  | some _, none => exact keeps_raise
  | some contest, some pool =>
    apply Keeps.ite keeps_pure
    apply Keeps.bind tableView_monotone keeps_ofExcept
    rintro ⟨targetMain, targetSpares⟩
    apply Keeps.ite keeps_pure
    exact Keeps.bind tableView_monotone (growPool_waits cfg tid _ _ _) fun _ => keeps_pure

end Growth

/- Reservation and release -/

section Release
variable {waiting : List Nat} {releaseAtMs : Int} {pool : SeatPoolState} {T : ContestTables}

theorem Waits.same {other : SeatPoolState} (waits : Waits waiting releaseAtMs pool)
    (seats : other.seats = pool.seats) (boundary : other.releaseAtMs = pool.releaseAtMs) :
    Waits waiting releaseAtMs other where
  distinct := by
    rw [SeatPoolState.slots, seats]
    exact waits.distinct
  boundary := boundary.trans waits.boundary
  reserved := by
    rw [seats]
    exact waits.reserved

/- A reservation takes a free seat, which is none of those that wait. -/
theorem reserve_waits {uid nowMs expectedRevision : Int} {uname commandId : String}
    {result : TransitionResult} (waits : Waits waiting releaseAtMs pool)
    (done : pool.reserve uid uname nowMs commandId expectedRevision = .ok result) :
    Waits waiting releaseAtMs result.state := by
  rcases reserve_ok done with same | ⟨print, existing, _, _, _, _, state⟩ |
    ⟨print, chosen, _, _, _, handed, _, state⟩
  · rw [same]
    exact waits
  · rw [state]
    exact waits.same rfl rfl
  · obtain ⟨mem, free, _⟩ := mem_available.mp handed
    have seated : Waits waiting releaseAtMs
        (pool.withSeat (reservedSeat chosen uid (PyText.strip uname) nowMs pool.releaseAtMs)) := by
      refine ⟨by rw [withSeat_slots]; exact waits.distinct, waits.boundary, fun slot wanted => ?_⟩
      obtain ⟨seat, inside, sameSlot, reserved⟩ := waits.reserved slot wanted
      refine ⟨seat, mem_replaceSeat.mpr (.inr ⟨inside, ?_⟩), sameSlot, reserved⟩
      intro same
      have equal : seat = chosen := seat_eq_of_slot waits.distinct inside mem same
      rw [equal, free] at reserved
      cases reserved
    rw [state]
    exact seated.same rfl rfl

theorem savePoolState_ends {state : SeatPoolState} {revision : Option Int}
    (stored : T.pool = some pool) :
    Ends tableView (savePoolState revision state) T
      (fun saved T' => saved = state ∧ T'.pool = some state) (fun _ T' => T'.pool = some pool) := by
  refine ⟨fun _ _ => stored, fun written put => ?_⟩
  have swapped := put
  simp only [ContestTables.putSeatPool, stored, Outcome.bind_ok, Outcome.raiseIf_ok,
    Outcome.pure_eq_ok] at swapped
  obtain ⟨_, _, rfl⟩ := swapped
  exact ⟨rfl, rfl⟩

theorem reserveRoster_waits (tid : String) (nowMs : Int) (roster : List Participant)
    (waits : Waits waiting releaseAtMs pool) (stored : T.pool = some pool) :
    Ends tableView (reserveRoster tid nowMs roster pool) T
      (fun pool' T' => T'.pool = some pool' ∧ Waits waiting releaseAtMs pool')
      (fun _ T' => StillWaits waiting releaseAtMs T') := by
  induction roster generalizing pool T with
  | nil => exact ⟨stored, waits⟩
  | cons participant rest ih =>
    rw [reserveRoster]
    cases pool.assignment participant.uid with
    | some existing =>
      exact unmoved (only_call (by trivial)) stored (fun _ _ stored => ih waits stored)
        fun _ _ stored => StillWaits.of waits stored
    | none =>
      cases done : pool.reserve participant.uid participant.uname nowMs
          (reserveId tid participant.uid) pool.revision with
      | error e => exact StillWaits.of waits stored
      | ok result =>
        have still := reserve_waits waits done
        apply (savePoolState_ends stored).bind tableView_monotone _
          fun _ _ stored => StillWaits.of waits stored
        rintro state T' ⟨rfl, stored⟩
        split
        · exact unmoved (only_call (by trivial)) stored (fun _ _ stored => ih still stored)
            fun _ _ stored => StillWaits.of still stored
        · exact StillWaits.of still stored

/-- Every slot that waited is released. -/
def ReleasedAll (waiting : List Nat) (tables : ContestTables) : Prop :=
  ∃ pool, tables.pool = some pool ∧
    ∀ slot ∈ waiting, ∃ seat ∈ pool.seats, seat.slotNo = slot ∧ seat.state = .released

theorem not_released_of_waits {slot : Nat} (mem : slot ∈ waiting)
    (still : StillWaits waiting releaseAtMs T) : ¬ ReleasedAll waiting T := by
  rintro ⟨pool, stored, released⟩
  obtain ⟨pool', stored', waits⟩ := still
  rw [stored] at stored'
  cases stored'
  obtain ⟨seat, inside, sameSlot, reserved⟩ := waits.reserved slot mem
  obtain ⟨other, inside', sameSlot', state⟩ := released slot mem
  have equal : seat = other :=
    seat_eq_of_slot waits.distinct inside inside' (sameSlot.trans sameSlot'.symm)
  rw [equal, state] at reserved
  cases reserved

/- A release whose receipt is stored already is not saved. -/
theorem releaseDueSeats_repeated (tid : String) {nowMs : Int}
    (found : pool.receipt (releaseId tid pool.releaseAtMs pool.revision) ≠ none) :
    Keeps tableView (fun T' => T'.pool = some pool) (releaseDueSeats tid nowMs pool) := by
  unfold releaseDueSeats
  apply Keeps.ite _ keeps_pure
  intro T stored
  cases done : pool.releaseDue nowMs (releaseId tid pool.releaseAtMs pool.revision)
      pool.revision with
  | error e => exact stored
  | ok result =>
    rw [ends_bind, ends_onPool]
    refine ⟨fun _ impossible => (by cases impossible), fun _ is => ?_⟩
    cases is
    rcases apply_ok done with ⟨receipt, _, _, rfl⟩ | ⟨absent, _⟩
    · simp only [Bool.true_eq_false, false_and, if_false]
      exact stored
    · exact absurd absent found

theorem releaseId_visible (tid : String) (boundary : Int) (revision : Nat) :
    PyText.strip (releaseId tid boundary revision) ≠ "" := by
  apply PyText.strip_ne_empty (c := 'r') _ (by decide)
  simp [releaseId]

/- At or after the boundary, a first release is the write of a pool in which no seat waits. -/
theorem releaseDueSeats_first (tid : String) {nowMs : Int} {slot : Nat} (mem : slot ∈ waiting)
    (waits : Waits waiting releaseAtMs pool) (late : releaseAtMs ≤ nowMs)
    (absent : pool.receipt (releaseId tid pool.releaseAtMs pool.revision) = none) :
    ∃ state : SeatPoolState, ∃ uids : List Int,
      releaseDueSeats tid nowMs pool =
        (do
          let saved ← savePoolState (some pool.revision) state
          return (saved, uids)) ∧
      ∀ slot ∈ waiting, ∃ seat ∈ state.seats, seat.slotNo = slot ∧ seat.state = .released := by
  obtain ⟨seat, inside, _, reserved⟩ := waits.reserved slot mem
  have due : pool.releaseAtMs ≤ nowMs ∧ ∃ seat ∈ pool.seats, seat.state = .reserved :=
    ⟨waits.boundary ▸ late, seat, inside, reserved⟩
  obtain ⟨result, done, revision, replayed, seats⟩ : ∃ result : TransitionResult,
      pool.releaseDue nowMs (releaseId tid pool.releaseAtMs pool.revision) pool.revision =
        .ok result ∧ result.state.revision = pool.revision + 1 ∧ result.replayed = false ∧
      result.state.seats = pool.seats.map fun seat =>
        if seat.state == .reserved
        then { seat with state := .released, releasedAtMs := some nowMs } else seat := by
    unfold releaseDue SeatPoolState.apply
    rw [if_neg (releaseId_visible _ _ _), absent, if_neg (not_lt.mpr due.1)]
    simp only [if_true, Except.map]
    exact ⟨_, rfl, rfl, rfl, rfl⟩
  refine ⟨result.state, releasedUids result.value, ?_, fun slot wanted => ?_⟩
  · unfold releaseDueSeats
    rw [if_pos due, done]
    have later : result.replayed = false ∧ result.state.revision ≠ pool.revision := by
      rw [revision]
      exact ⟨replayed, by omega⟩
    change (do
      let saved ← if result.replayed = false ∧ result.state.revision ≠ pool.revision
        then savePoolState (some pool.revision) result.state else pure result.state
      return (saved, releasedUids result.value)) = _
    rw [if_pos later]
  · obtain ⟨seat, inside, sameSlot, reserved⟩ := waits.reserved slot wanted
    refine ⟨_, seats ▸ List.mem_map_of_mem inside, ?_, ?_⟩
    · simp [reserved, sameSlot]
    · simp [reserved]

end Release

/- The call as a whole -/

/-- What is checked between entering the contest and the first reservation. -/
def admission : Procedure (Contest × SeatPoolState × Int) := do
  let row ← getContest
  let stored ← seatPool
  match row, stored with
  | some contest, some pool =>
    raiseIf (contest.state ≠ .ready ∧ contest.state ≠ .preparing) "当前比赛状态不允许同步名单"
    validateContestSnapshot contest
    let nowMs ← clock
    return (contest, pool, nowMs)
  | _, _ => raise (.runtime "比赛尚未建立座位池")

def assignAndRelease (tid : String) (roster : List Participant) (growth : Growth) :
    Procedure RosterSync := do
  let (contest, pool, nowMs) ← admission
  let pool ← reserveRoster contest.tid nowMs roster pool
  let (pool, released) ← releaseDueSeats tid nowMs pool
  return {
    roster := roster.length
    assigned := pool.assigned.length
    released := released
    automaticGrowth := growth
    counts := pool.stateCounts
    releaseAtMs := pool.releaseAtMs }

theorem syncRoster_eq (cfg : Config) (fold : String → String) (tid : String) :
    syncRoster cfg fold tid = (do
      let listed ← hydroRoster
      let roster ← checked (validateRoster fold listed)
      let growth ← ensureAutomaticRosterCapacity cfg tid roster
      enter tid
      Program.andFinally (assignAndRelease tid roster growth) leave) := by
  unfold syncRoster
  congr 1
  funext listed
  congr 1
  funext roster
  congr 1
  funext growth
  congr 1
  funext _
  congr 1
  unfold assignAndRelease admission
  rw [bind_assoc]
  congr 1
  funext row
  rw [bind_assoc]
  congr 1
  funext stored
  match row, stored with
  | none, _ => rfl
  | some _, none => rfl
  | some contest, some pool =>
    dsimp only
    rw [bind_assoc]
    congr 1
    funext _
    rw [bind_assoc]
    congr 1
    funext _
    rw [bind_assoc]
    rfl

/-- Growth, binding and reservation raise nothing before the release, and the release is neither
    taken for a repetition nor is its write refused. -/
def Unhindered (cfg : Config) (tid : String) (roster : List Participant)
    (choices : Nat → Choice) (w : World) : Prop :=
  (ensureAutomaticRosterCapacity cfg tid roster).GoesThrough World.respond choices w
    fun _ choices w =>
  (enter tid).GoesThrough World.respond choices w fun _ choices w =>
  admission.GoesThrough World.respond choices w fun admitted choices w =>
  (reserveRoster admitted.1.tid admitted.2.2 roster admitted.2.1).GoesThrough World.respond
    choices w fun pool choices _ =>
  pool.receipt (releaseId tid pool.releaseAtMs pool.revision) = none ∧ (choices 0).raises = none

section Sync
variable {waiting : List Nat} {releaseAtMs : Int} {w : World}

theorem run_waits {x : Procedure α} (keeps : Keeps tableView (StillWaits waiting releaseAtMs) x)
    (still : StillWaits waiting releaseAtMs w.tables) (choices : Nat → Choice) :
    StillWaits waiting releaseAtMs (x.exec World.respond choices w).2.tables := by
  have meets := exec_of_tableView (keeps w.tables still) choices
  generalize x.exec World.respond choices w = ended at meets ⊢
  obtain ⟨result, w'⟩ := ended
  cases result <;> exact meets

theorem admission_ends {T : ContestTables} (still : StillWaits waiting releaseAtMs T) :
    Ends tableView admission T
      (fun admitted T' => T'.pool = some admitted.2.1 ∧ Waits waiting releaseAtMs admitted.2.1)
      (fun _ T' => StillWaits waiting releaseAtMs T') := by
  obtain ⟨pool, stored, waits⟩ := still
  have failed (T' : ContestTables) (same : T'.pool = some pool) :
      StillWaits waiting releaseAtMs T' := StillWaits.of waits same
  unfold admission
  refine unmoved (only_call (by trivial)) stored (fun row T₁ stored => ?_) fun _ => failed
  rw [ends_bind, ends_seatPool]
  refine ⟨fun _ => failed _ stored, ?_⟩
  rw [stored]
  cases row with
  | none => exact failed _ stored
  | some contest =>
    refine unmoved only_pipelineRaiseIf stored (fun _ T₂ stored => ?_) fun _ => failed
    refine unmoved (leaves_of_preparatory (validateContestSnapshot_only contest)) stored
      (fun _ T₃ stored => ?_) fun _ => failed
    exact unmoved (only_call (by trivial)) stored (fun nowMs T₄ stored => ⟨stored, waits⟩)
      fun _ => failed

theorem admission_late {choices : Nat → Choice} (late : ∀ n, releaseAtMs ≤ (choices n).clock) :
    Meets (fun admitted _ => releaseAtMs ≤ admitted.2.2) (fun _ _ => True)
      (admission.exec World.respond choices w) := by
  have yields : Yields (demonic World.respond fun _ choice _ => releaseAtMs ≤ choice.clock)
      admission fun admitted _ => releaseAtMs ≤ admitted.2.2 := by
    apply Yields.after
    intro row
    apply Yields.after
    intro stored
    match row, stored with
    | none, _ => exact yields_raise
    | some _, none => exact yields_raise
    | some contest, some pool =>
      apply Yields.after
      intro _
      apply Yields.after
      intro _ w choice permitted
      have answered : (World.respond .clock choice w).1 = .ok choice.clock := by
        cases raises : choice.raises <;>
          simp [World.respond, World.answer, raises, World.canRaise, World.perform]
      rw [answered]
      exact permitted
  apply exec_of_ends (yields w)
  apply obeys_of_choices
  exact late

theorem leave_exec (choices : Nat → Choice) (w : World) :
    ∃ w', leave.exec World.respond choices w = (.ok (), w') ∧ w'.tables = w.tables := by
  have ends : Ends tableView leave w.tables (fun _ T => T = w.tables) fun _ _ => False :=
    ends_leave.mpr rfl
  have meets := exec_of_tableView ends choices
  generalize leave.exec World.respond choices w = ended at meets ⊢
  obtain ⟨result, w'⟩ := ended
  cases result with
  | error e => exact meets.elim
  | ok _ => exact ⟨w', rfl, meets⟩

/- A write of the pool that was read last is refused only from outside. -/
theorem respond_putSeatPool {pool : SeatPoolState} (state : SeatPoolState) (choice : Choice)
    (stored : w.tables.pool = some pool) :
    (World.respond (.putSeatPool (some pool.revision) state) choice w).2.tables.pool =
      if choice.raises = none then some state else some pool := by
  have matching : w.tables.putSeatPool (some (pool.revision : Int)) state =
      .ok (w.tables.withPool state) := by
    simp [ContestTables.putSeatPool, stored, Outcome.raiseIf]
  unfold World.respond
  rw [World.edits_tables]
  cases raises : choice.raises with
  | none => simp [World.answer, raises, World.perform, matching, World.written,
      ContestTables.withPool]
  | some raised => simp [World.answer, raises, World.canRaise, World.broken, stored]

theorem exec_savePoolState {α : Type} (revision : Option Int) (state : SeatPoolState)
    (f : SeatPoolState → α) (choices : Nat → Choice) :
    ((do
      let saved ← savePoolState revision state
      return f saved : Procedure α).exec World.respond choices w).2 =
      (World.respond (.putSeatPool revision state) (choices 0) w).2 := by
  have written : (putSeatPool revision state).exec World.respond choices w =
      World.respond (.putSeatPool revision state) (choices 0) w := rfl
  unfold savePoolState
  rw [exec_bind, exec_bind, written]
  generalize World.respond (.putSeatPool revision state) (choices 0) w = ended
  obtain ⟨result, w'⟩ := ended
  cases result <;> rfl

/- With a seat that waits, the release is saved exactly when it is new and its write answers. -/
theorem releaseDueSeats_released_iff (tid : String) {nowMs : Int} {slot : Nat}
    {pool : SeatPoolState} (mem : slot ∈ waiting) (waits : Waits waiting releaseAtMs pool)
    (stored : w.tables.pool = some pool) (late : releaseAtMs ≤ nowMs) (choices : Nat → Choice) :
    ReleasedAll waiting ((releaseDueSeats tid nowMs pool).exec World.respond choices w).2.tables ↔
      pool.receipt (releaseId tid pool.releaseAtMs pool.revision) = none ∧
        (choices 0).raises = none := by
  by_cases absent : pool.receipt (releaseId tid pool.releaseAtMs pool.revision) = none
  · obtain ⟨state, uids, eq, released⟩ := releaseDueSeats_first tid mem waits late absent
    have written := respond_putSeatPool state (choices 0) stored
    have after := congrArg (·.tables.pool) (exec_savePoolState (w := w) (some ↑pool.revision) state
      (fun saved => (saved, uids)) choices)
    rw [eq]
    by_cases answers : (choices 0).raises = none
    · rw [if_pos answers] at written
      exact iff_of_true ⟨state, after.trans written, released⟩ ⟨absent, answers⟩
    · rw [if_neg answers] at written
      exact iff_of_false (not_released_of_waits mem (StillWaits.of waits (after.trans written)))
        fun held => answers held.2
  · refine iff_of_false (not_released_of_waits mem (StillWaits.of waits ?_)) fun held =>
      absent held.1
    have repeated : Keeps tableView (fun T => T.pool = some pool) (releaseDueSeats tid nowMs pool) :=
      releaseDueSeats_repeated tid absent
    have meets := exec_of_tableView (repeated w.tables stored) choices
    generalize (releaseDueSeats tid nowMs pool).exec World.respond choices w = ended at meets ⊢
    obtain ⟨result, w'⟩ := ended
    cases result <;> exact meets

/- With a seat that waits, the rest of the call releases exactly when it is not hindered. -/
theorem assignAndRelease_released_iff {slot : Nat} (mem : slot ∈ waiting) (tid : String)
    (roster : List Participant) (growth : Growth) {choices : Nat → Choice}
    (late : ∀ n, releaseAtMs ≤ (choices n).clock)
    (still : StillWaits waiting releaseAtMs w.tables) :
    ReleasedAll waiting ((assignAndRelease tid roster growth).exec World.respond choices w).2.tables
      ↔ admission.GoesThrough World.respond choices w fun admitted choices w =>
        (reserveRoster admitted.1.tid admitted.2.2 roster admitted.2.1).GoesThrough World.respond
          choices w fun pool choices _ =>
        pool.receipt (releaseId tid pool.releaseAtMs pool.revision) = none ∧
          (choices 0).raises = none := by
  have admits := exec_of_tableView (admission_ends still) choices
  have clocked := admission_late (w := w) late
  unfold assignAndRelease Program.GoesThrough
  rw [exec_bind]
  generalize admission.rest World.respond choices w = choices₁
  generalize admission.exec World.respond choices w = admitted at admits clocked ⊢
  obtain ⟨result, w₁⟩ := admitted
  cases result with
  | error e => exact iff_of_false (not_released_of_waits mem admits) id
  | ok admitted =>
  obtain ⟨contest, pool, nowMs⟩ := admitted
  obtain ⟨stored, waits⟩ := admits
  dsimp only at stored waits clocked ⊢
  have reserves := exec_of_tableView (reserveRoster_waits contest.tid nowMs roster waits stored)
    choices₁
  rw [exec_bind]
  generalize (reserveRoster contest.tid nowMs roster pool).rest World.respond choices₁ w₁ = choices₂
  generalize (reserveRoster contest.tid nowMs roster pool).exec World.respond choices₁ w₁ = reserved
    at reserves ⊢
  obtain ⟨result, w₂⟩ := reserved
  cases result with
  | error e => exact iff_of_false (not_released_of_waits mem reserves) id
  | ok pool' =>
  obtain ⟨stored, waits⟩ := reserves
  dsimp only at stored waits ⊢
  have releases := releaseDueSeats_released_iff tid mem waits stored clocked choices₂
  rw [exec_bind]
  generalize (releaseDueSeats tid nowMs pool').exec World.respond choices₂ w₂ = released
    at releases ⊢
  obtain ⟨result, w₃⟩ := released
  cases result with
  | error e => exact releases
  | ok saved => exact releases

/-- Every seat of the pool that was reserved is released in these tables. -/
def Released (pool : SeatPoolState) (tables : ContestTables) : Prop :=
  ∀ seat ∈ pool.seats, seat.state = .reserved → ∃ pool', tables.pool = some pool' ∧
    ∃ other ∈ pool'.seats, other.slotNo = seat.slotNo ∧ other.state = .released

def reservedSlots (pool : SeatPoolState) : List Nat :=
  (pool.seats.filter (·.state = .reserved)).map (·.slotNo)

theorem mem_reservedSlots {pool : SeatPoolState} {slot : Nat} :
    slot ∈ reservedSlots pool ↔
      ∃ seat ∈ pool.seats, seat.state = .reserved ∧ seat.slotNo = slot := by
  simp [reservedSlots, and_assoc]

theorem reservedSlots_waits {pool : SeatPoolState} (distinct : pool.slots.Nodup) :
    Waits (reservedSlots pool) pool.releaseAtMs pool where
  distinct := distinct
  boundary := rfl
  reserved := by
    intro slot mem
    obtain ⟨seat, inside, reserved, same⟩ := mem_reservedSlots.mp mem
    exact ⟨seat, inside, same, reserved⟩

theorem released_iff_releasedAll {pool : SeatPoolState} {seat : Seat} (inside : seat ∈ pool.seats)
    (reserved : seat.state = .reserved) (tables : ContestTables) :
    Released pool tables ↔ ReleasedAll (reservedSlots pool) tables := by
  constructor
  · intro released
    obtain ⟨pool', stored, _⟩ := released seat inside reserved
    refine ⟨pool', stored, fun slot mem => ?_⟩
    obtain ⟨waiting, inside, reserved, rfl⟩ := mem_reservedSlots.mp mem
    obtain ⟨other, stored', found⟩ := released waiting inside reserved
    rw [stored] at stored'
    cases stored'
    exact found
  · rintro ⟨pool', stored, released⟩ waiting inside reserved
    exact ⟨pool', stored, released waiting.slotNo
      (mem_reservedSlots.mpr ⟨waiting, inside, reserved, rfl⟩)⟩

theorem late_rest {x : Procedure α} {choices : Nat → Choice}
    (late : ∀ n, releaseAtMs ≤ (choices n).clock) (n : Nat) :
    releaseAtMs ≤ (x.rest World.respond choices w n).clock := by
  obtain ⟨used, eq⟩ := rest_suffix x choices w
  rw [eq]
  exact late _

theorem hydroRoster_tables (choice : Choice) (w : World) :
    (World.respond .hydroRoster choice w).2.tables = w.tables := by
  unfold World.respond
  rw [World.edits_tables]
  cases raises : choice.raises with
  | none => simp [World.answer, raises, World.perform]
  | some raised => simp [World.answer, raises, World.canRaise, World.broken]

theorem exec_syncRoster {cfg : Config} {fold : String → String} {tid : String}
    {roster : List Participant} {choices : Nat → Choice} (answered : (choices 0).raises = none)
    (valid : validateRoster fold (choices 0).roster = .ok roster) :
    (syncRoster cfg fold tid).exec World.respond choices w =
      (do
        let growth ← ensureAutomaticRosterCapacity cfg tid roster
        enter tid
        Program.andFinally (assignAndRelease tid roster growth) leave).exec World.respond
          (fun n => choices (n + 1)) (World.respond .hydroRoster (choices 0) w).2 := by
  have listed : hydroRoster.exec World.respond choices w =
      (.ok (choices 0).roster, (World.respond .hydroRoster (choices 0) w).2) := by
    change World.respond .hydroRoster (choices 0) w = _
    simp [World.respond, World.answer, answered, World.perform]
  rw [syncRoster_eq, exec_bind, listed]
  dsimp only
  rw [valid]
  rfl

/-- A call at or after the release boundary leaves a reserved seat behind exactly when something
    before the release raises, or the release itself is not written. -/
theorem reserved_released_iff (cfg : Config) (fold : String → String) (tid : String)
    (roster : List Participant) (choices : Nat → Choice) {pool : SeatPoolState}
    (stored : w.tables.pool = some pool) (distinct : pool.slots.Nodup)
    (answered : (choices 0).raises = none)
    (valid : validateRoster fold (choices 0).roster = .ok roster)
    (late : ∀ n, pool.releaseAtMs ≤ (choices n).clock) :
    Released pool ((syncRoster cfg fold tid).exec World.respond choices w).2.tables ↔
      (∀ seat ∈ pool.seats, seat.state ≠ .reserved) ∨
        Unhindered cfg tid roster (fun n => choices (n + 1))
          (World.respond .hydroRoster (choices 0) w).2 := by
  by_cases none : ∀ seat ∈ pool.seats, seat.state ≠ .reserved
  · exact iff_of_true (fun seat inside reserved => absurd reserved (none seat inside)) (.inl none)
  obtain ⟨seat, inside, reserved⟩ : ∃ seat ∈ pool.seats, seat.state = .reserved := by
    simpa using none
  have mem : seat.slotNo ∈ reservedSlots pool :=
    mem_reservedSlots.mpr ⟨seat, inside, reserved, rfl⟩
  rw [released_iff_releasedAll inside reserved, or_iff_right none]
  have waits := reservedSlots_waits distinct
  have still : StillWaits (reservedSlots pool) pool.releaseAtMs
      (World.respond .hydroRoster (choices 0) w).2.tables := by
    refine StillWaits.of waits ?_
    rw [hydroRoster_tables]
    exact stored
  rw [exec_syncRoster answered valid]
  unfold Unhindered
  generalize (World.respond .hydroRoster (choices 0) w).2 = w₁ at still ⊢
  have later : ∀ n, pool.releaseAtMs ≤ ((fun n => choices (n + 1)) n).clock :=
    fun n => late (n + 1)
  generalize (fun n => choices (n + 1)) = choices₁ at later ⊢
  have grows := run_waits (ensureAutomaticRosterCapacity_waits cfg tid roster) still choices₁
  have grownLate := late_rest (w := w₁) (x := ensureAutomaticRosterCapacity cfg tid roster) later
  rw [exec_bind]
  unfold Program.GoesThrough
  generalize (ensureAutomaticRosterCapacity cfg tid roster).rest World.respond choices₁ w₁ =
    choices₂ at grownLate ⊢
  generalize (ensureAutomaticRosterCapacity cfg tid roster).exec World.respond choices₁ w₁ =
    grown at grows ⊢
  obtain ⟨result, w₂⟩ := grown
  cases result with
  | error e => exact iff_of_false (not_released_of_waits mem grows) id
  | ok growth =>
  have entering : Keeps tableView (StillWaits (reservedSlots pool) pool.releaseAtMs) (enter tid) :=
    leaves_keeps_waiting (only_call (by trivial))
  have entered := run_waits (w := w₂) entering grows choices₂
  have enteredLate := late_rest (w := w₂) (x := enter tid) grownLate
  dsimp only
  rw [exec_bind]
  generalize (enter tid).rest World.respond choices₂ w₂ = choices₃ at enteredLate ⊢
  generalize (enter tid).exec World.respond choices₂ w₂ = entry at entered ⊢
  obtain ⟨result, w₃⟩ := entry
  cases result with
  | error e => exact iff_of_false (not_released_of_waits mem entered) id
  | ok _ =>
  dsimp only
  rw [exec_andFinally]
  obtain ⟨w₄, left, same⟩ := leave_exec ((assignAndRelease tid roster growth).rest World.respond
    choices₃ w₃) ((assignAndRelease tid roster growth).exec World.respond choices₃ w₃).2
  rw [left]
  dsimp only
  rw [same]
  exact assignAndRelease_released_iff mem tid roster growth enteredLate entered

end Sync

/- Two reserved seats at the release boundary; the second roster has the first account renamed. -/
namespace DueContest

def tid : String := "0123456789abcdef01234567"

def cfg : Config where
  dockerImage := "noi-desktop"
  publicBase := ⟨"https", "contest.example", ""⟩

def seat (slotNo : Nat) (uid : Int) (uname : String) : Seat :=
  { Seat.planned slotNo .primary with
    state := .reserved
    uid := some uid
    uname := uname
    containerRef := "seat-" ++ toString slotNo
    imageDigest := "sha256:image"
    materialDigest := "sha256:manifest" }

def resource (slotNo : Nat) : PoolResource where
  slotNo := slotNo
  token := "token-" ++ toString slotNo
  vncPass := "vnc"
  submitToken := "submit"
  candidate := "CSP" ++ PyText.threeDigits slotNo
  container := "seat-" ++ toString slotNo
  cip := "10.0.0.1" ++ toString slotNo
  imageDigest := "sha256:image"
  materialDigest := "sha256:manifest"

def pool : SeatPoolState where
  tid := tid
  maxParticipants := 2
  spareCount := 2
  beginAtMs := 1000000
  releaseAtMs := 700000
  revision := 9
  seats := [seat 1 7 "alice", seat 2 8 "bob"]

def world : World where
  tables :=
    { contest := some
        { tid := tid
          files := ["apple", "banana"]
          paperSha256 := "paper"
          materialManifestSha256 := "manifest"
          beginAtMs := 1000000
          endAtMs := 2000000
          state := .ready }
      pool := some pool
      resources := [resource 1, resource 2]
      seats := [] }

def choices (roster : List Participant) (_ : Nat) : Choice where
  clock := 700000
  document := some ⟨1000000, 2000000, ""⟩
  roster := roster

instance (pool : SeatPoolState) (tables : ContestTables) : Decidable (Released pool tables) := by
  unfold Released
  match same : tables.pool with
  | none => exact decidable_of_iff (∀ seat ∈ pool.seats, seat.state ≠ .reserved) (by simp)
  | some stored =>
    exact decidable_of_iff (∀ seat ∈ pool.seats, seat.state = .reserved →
      ∃ other ∈ stored.seats, other.slotNo = seat.slotNo ∧ other.state = .released) (by simp)

end DueContest

/- The host and the names are as they were, and both seats are released. -/
theorem release_of_two_seats :
    Released DueContest.pool ((syncRoster DueContest.cfg id DueContest.tid).exec World.respond
      (DueContest.choices [⟨7, "alice"⟩, ⟨8, "bob"⟩]) DueContest.world).2.tables :=
  (reserved_released_iff DueContest.cfg id DueContest.tid [⟨7, "alice"⟩, ⟨8, "bob"⟩]
    (DueContest.choices [⟨7, "alice"⟩, ⟨8, "bob"⟩]) rfl (by decide) rfl (by decide +kernel)
    (fun _ => le_refl 700000)).mpr (.inr (by
      unfold Unhindered
      decide +kernel))

/- Binding the renamed account is refused, and nobody is released. -/
theorem renamed_account_holds_up_release :
    validateRoster id [⟨7, "alicia"⟩, ⟨8, "bob"⟩] = .ok [⟨7, "alicia"⟩, ⟨8, "bob"⟩] ∧
      DueContest.pool.releaseAtMs ≤ (DueContest.choices [] 0).clock ∧
      ¬ Released DueContest.pool ((syncRoster DueContest.cfg id DueContest.tid).exec World.respond
        (DueContest.choices [⟨7, "alicia"⟩, ⟨8, "bob"⟩]) DueContest.world).2.tables := by
  decide +kernel

end NoiContest.Pipeline
