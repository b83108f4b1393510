import NoiContest.Lib.Runs
import NoiContest.Pipeline.TableView
import NoiContest.SeatPool.Commands

/- Following the times of the online judge: the pool's release boundary and the contest row
   are moved by one commit. -/
namespace NoiContest.Pipeline
open SeatPool SeatPoolState Flow

structure ScheduleSync where
  deadlineReached : Bool
  contest : Contest
  poolRevision : Nat

def scheduleId (tid : String) (beginAtMs endAtMs : Int) : String :=
  "schedule:" ++ tid ++ ":" ++ toString beginAtMs ++ ":" ++ toString endAtMs

def syncContestSchedule (tid : String) (beginAtMs endAtMs : Int) (hydroRule : String)
    (observedAtMs : Int) : Procedure ScheduleSync := do
  raiseIf (hydroRule ≠ "oi" ∨ beginAtMs ≤ 0 ∨ endAtMs ≤ beginAtMs) "OJ 比赛时间或赛制无效"
  enter tid
  Program.andFinally (do
    let row ← getContest
    let storedPool ← seatPool
    match row with
    | none => raise (.runtime "比赛已不在可同步时间的状态")
    | some contest =>
      raiseIf (contest.state ≠ .ready) "比赛已不在可同步时间的状态"
      match storedPool with
      | none => raise (.runtime "比赛座位池不存在")
      | some pool =>
        let rescheduled ← onPool (pool.reschedule beginAtMs contest.releaseLeadMs
          (scheduleId tid beginAtMs endAtMs) pool.revision)
        let deadlineReached := decide (endAtMs ≤ observedAtMs)
        if deadlineReached then pure ()
        else do
          let (cloudState, ip) ← cvmStatus
          raiseIf (cloudState.toUpper ≠ "RUNNING" ∨ ip = "") "比赛服务器未运行，无法同步新的截止时间"
          let reachable ← waitSsh
          raiseIf (reachable = false) "比赛服务器不可达，无法同步新的截止时间"
          let candidate := { contest with
            beginAtMs := beginAtMs
            endAtMs := endAtMs
            hydroRule := hydroRule }
          let _ ← run (.installFreezeWatchdog candidate)
        let updated ← commitScheduleSync contest.beginAtMs contest.endAtMs beginAtMs
          endAtMs hydroRule observedAtMs pool.revision rescheduled.state
        return {
          deadlineReached := deadlineReached
          contest := updated
          poolRevision := rescheduled.state.revision })
    leave

/-- One time change of the online judge and what the outside does during its sync. -/
structure ScheduleChange where
  beginAtMs : Int
  endAtMs : Int
  hydroRule : String
  observedAtMs : Int
  choices : Nat → Choice

def syncOutcome (tid : String) (w : World) (change : ScheduleChange) :
    Except Raised ScheduleSync × World :=
  (syncContestSchedule tid change.beginAtMs change.endAtMs change.hydroRule
    change.observedAtMs).exec World.respond change.choices w

def afterSync (tid : String) (w : World) (change : ScheduleChange) : World :=
  (syncOutcome tid w change).2

def Applied (tid : String) (w : World) (change : ScheduleChange) : Prop :=
  (syncOutcome tid w change).1.isOk = true

/-- The stored pool releases its seats the lead before the stored begin of the contest. -/
def Agree (w : World) : Prop :=
  ∃ contest ∈ w.tables.contest, ∃ pool ∈ w.tables.pool,
    pool.beginAtMs = contest.beginAtMs ∧
      pool.releaseAtMs = contest.beginAtMs - contest.releaseLeadMs

/-- The pool is already at the requested boundary, or no receipt of this schedule exists. -/
def Unreplayed (tid : String) (w : World) (change : ScheduleChange) : Prop :=
  ∀ contest ∈ w.tables.contest, ∀ pool ∈ w.tables.pool,
    (pool.beginAtMs = change.beginAtMs ∧
      pool.releaseAtMs = change.beginAtMs - contest.releaseLeadMs) ∨
    pool.receipt (scheduleId tid change.beginAtMs change.endAtMs) = none

instance (tid : String) : DecidableRel (Applied tid) := fun _ _ => by
  unfold Applied
  infer_instance

instance : DecidablePred Agree := fun _ => by
  unfold Agree
  infer_instance

instance (tid : String) : DecidableRel (Unreplayed tid) := fun _ _ => by
  unfold Unreplayed
  infer_instance

variable {tid : String} {w : World} {change : ScheduleChange}

/- A successful command leaves the pool alone because it is there already, replays a receipt,
   or moves the boundary. -/
theorem reschedule_ok {pool : SeatPoolState} {beginAtMs lead expectedRevision : Int}
    {commandId : String} {result : TransitionResult}
    (done : pool.reschedule beginAtMs lead commandId expectedRevision = .ok result) :
    (pool.beginAtMs = beginAtMs ∧ pool.releaseAtMs = beginAtMs - lead ∧ result.state = pool) ∨
    (¬ (beginAtMs = pool.beginAtMs ∧ beginAtMs - lead = pool.releaseAtMs) ∧
      pool.receipt commandId ≠ none ∧ result.state = pool) ∨
    (¬ (beginAtMs = pool.beginAtMs ∧ beginAtMs - lead = pool.releaseAtMs) ∧
      pool.receipt commandId = none ∧ result.state.beginAtMs = beginAtMs ∧
      result.state.releaseAtMs = beginAtMs - lead) := by
  obtain ⟨_, _, done⟩ := Outcome.bind_ok.mp done
  obtain ⟨_, _, done⟩ := Outcome.bind_ok.mp done
  obtain ⟨_, _, done⟩ := Outcome.bind_ok.mp done
  simp only at done
  split at done
  · rename_i there
    simp only [Outcome.pure_eq_ok] at done
    exact .inl ⟨there.1.symm, there.2.symm, by rw [← done]⟩
  · rename_i elsewhere
    rcases apply_ok done with ⟨receipt, found, _, rfl⟩ | ⟨absent, _, changed, moved, rfl⟩
    · exact .inr (.inl ⟨elsewhere, by simp [found], rfl⟩)
    · cases moved
      exact .inr (.inr ⟨elsewhere, absent, rfl, rfl⟩)

/-- What a sync that returns has done to the tables. -/
def Rescheduled (tid : String) (change : ScheduleChange) (before after : ContestTables) : Prop :=
  ∃ contest pool result, before.contest = some contest ∧ before.pool = some pool ∧
    pool.reschedule change.beginAtMs contest.releaseLeadMs
      (scheduleId tid change.beginAtMs change.endAtMs) pool.revision = .ok result ∧
    after.pool = some result.state ∧
    after.contest = some { contest with
      beginAtMs := change.beginAtMs
      endAtMs := change.endAtMs
      hydroRule := change.hydroRule
      timeSyncAtMs := change.observedAtMs
      timeSyncCheckedAtMs := change.observedAtMs
      timeSyncError := ""
      message := "已同步 OJ 比赛时间" }

theorem commitScheduleSync_ok {T written : ContestTables} {contest : Contest}
    {state : SeatPoolState} {b e b' e' observed revision : Int} {rule : String}
    {updated : Contest} (row : T.contest = some contest)
    (committed : T.commitScheduleSync b e b' e' rule observed revision state =
      .ok (updated, written)) :
    written.pool = some state ∧ written.contest = some { contest with
      beginAtMs := b'
      endAtMs := e'
      hydroRule := rule
      timeSyncAtMs := observed
      timeSyncCheckedAtMs := observed
      timeSyncError := ""
      message := "已同步 OJ 比赛时间" } := by
  unfold ContestTables.commitScheduleSync at committed
  simp only [row, Outcome.bind_ok, Outcome.pure_eq_ok, Prod.mk.injEq] at committed
  obtain ⟨_, _, _, _, _, _, _, _, _, rfl⟩ := committed
  exact ⟨rfl, rfl⟩

theorem syncContestSchedule_ends (tid : String) (change : ScheduleChange) (T : ContestTables) :
    Ends tableView (syncContestSchedule tid change.beginAtMs change.endAtMs change.hydroRule
        change.observedAtMs) T
      (fun _ T' => Rescheduled tid change T T') (fun _ T' => T' = T) := by
  unfold syncContestSchedule
  simp only [ends_bind, ends_raiseIf, ends_enter, ends_andFinally, ends_getContest, ends_seatPool,
    ends_leave, implies_true, true_and]
  intro _
  cases row : T.contest with
  | none => simp
  | some contest =>
    simp only [ends_bind, ends_raiseIf, implies_true, true_and]
    intro _
    cases stored : T.pool with
    | none => simp
    | some pool =>
      simp only [ends_bind, ends_onPool, implies_true, true_and]
      intro result rescheduled
      have commits : ∀ updated written, T.commitScheduleSync contest.beginAtMs contest.endAtMs
          change.beginAtMs change.endAtMs change.hydroRule change.observedAtMs pool.revision
          result.state = .ok (updated, written) → Rescheduled tid change T written := by
        intro updated written committed
        obtain ⟨pool', contest'⟩ := commitScheduleSync_ok row committed
        exact ⟨contest, pool, result, row, stored, rescheduled, pool', contest'⟩
      by_cases reached : change.endAtMs ≤ change.observedAtMs
      · simp only [reached, decide_true, if_true, ends_bind, ends_commitScheduleSync, ends_pure,
          implies_true, true_and]
        exact commits
      · simp only [reached, decide_false, Bool.false_eq_true, if_false, ends_bind, ends_cvmStatus,
          ends_raiseIf, ends_waitSsh, ends_run, ends_commitScheduleSync, ends_pure, implies_true,
          true_and]
        exact fun _ _ _ _ _ => commits

theorem syncOutcome_meets (tid : String) (w : World) (change : ScheduleChange) :
    Meets (fun _ w' => Rescheduled tid change w.tables w'.tables)
      (fun _ w' => w'.tables = w.tables) (syncOutcome tid w change) :=
  exec_of_tableView (syncContestSchedule_ends tid change w.tables) change.choices

theorem applied_reschedules (applied : Applied tid w change) :
    Rescheduled tid change w.tables (afterSync tid w change).tables := by
  have meets := syncOutcome_meets tid w change
  unfold afterSync
  unfold Applied at applied
  rcases outcome : syncOutcome tid w change with ⟨result, w'⟩
  rw [outcome] at meets applied
  cases result with
  | error e => cases applied
  | ok result => exact meets

/- An applied change leaves the two in agreement exactly when no receipt was replayed in its
   place. -/
theorem agree_after_sync_iff (applied : Applied tid w change) :
    Agree (afterSync tid w change) ↔ Unreplayed tid w change := by
  obtain ⟨contest, pool, result, row, stored, rescheduled, pool', contest'⟩ :=
    applied_reschedules applied
  have after : Agree (afterSync tid w change) ↔
      result.state.beginAtMs = change.beginAtMs ∧
        result.state.releaseAtMs = change.beginAtMs - contest.releaseLeadMs := by
    simp [Agree, pool', contest', Contest.releaseLeadMs]
  have unreplayed : Unreplayed tid w change ↔
      (pool.beginAtMs = change.beginAtMs ∧
        pool.releaseAtMs = change.beginAtMs - contest.releaseLeadMs) ∨
      pool.receipt (scheduleId tid change.beginAtMs change.endAtMs) = none := by
    simp [Unreplayed, row, stored]
  rw [after, unreplayed]
  rcases reschedule_ok rescheduled with ⟨there, release, same⟩ | ⟨elsewhere, found, same⟩ |
    ⟨_, absent, moved, release⟩
  · simp [same, there, release]
  · rw [same]
    constructor
    · rintro ⟨there, release⟩
      exact absurd ⟨there.symm, release.symm⟩ elsewhere
    · rintro (⟨there, release⟩ | absent)
      · exact absurd ⟨there.symm, release.symm⟩ elsewhere
      · exact absurd absent found
  · simp [moved, release, absent]

/- Agreement along a whole history of applied changes. -/
theorem schedule_agreement_iff (tid : String) (w : World) (changes : List ScheduleChange)
    (applied : Runs.Guarded (afterSync tid) (Applied tid) w changes) :
    Runs.AfterEach (afterSync tid) Agree w changes ↔
      Runs.Guarded (afterSync tid) (Unreplayed tid) w changes :=
  Runs.afterEach_iff_guarded (fun _ _ done => agree_after_sync_iff done) applied

/- A prepared contest whose times go back and forth between two schedules. -/
def preparedTid : String := "0123456789abcdef01234567"

def preparedWorld : World where
  tables :=
    { contest := some
        { tid := preparedTid
          files := ["apple"]
          beginAtMs := 1000000
          endAtMs := 2000000
          state := .ready }
      pool := (SeatPoolState.create preparedTid 1 1 1000000).toOption }

def moveTo (beginAtMs endAtMs : Int) : ScheduleChange :=
  ⟨beginAtMs, endAtMs, "oi", 900000, fun _ => {}⟩

theorem schedule_agreement_moved_twice :
    Runs.AfterEach (afterSync preparedTid) Agree preparedWorld
      [moveTo 1600000 2600000, moveTo 1000000 2000000] :=
  (schedule_agreement_iff preparedTid preparedWorld _ (by decide +kernel)).mpr (by decide +kernel)

theorem third_move_replays_the_first :
    Agree preparedWorld ∧
      Runs.Guarded (afterSync preparedTid) (Applied preparedTid) preparedWorld
        [moveTo 1600000 2600000, moveTo 1000000 2000000, moveTo 1600000 2600000] ∧
      ¬ Runs.AfterEach (afterSync preparedTid) Agree preparedWorld
        [moveTo 1600000 2600000, moveTo 1000000 2000000, moveTo 1600000 2600000] := by
  decide +kernel

end NoiContest.Pipeline
