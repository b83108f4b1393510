import NoiContest.Lib.Runs
import NoiContest.Pipeline.Calls
import NoiContest.SeatPool.Commands

/- The two pool steps at the end of a contest: collect freezes the assigned seats and
   finish_safe_wait marks them collected. Both belong to longer procedures that are run again
   with a later clock after a failure. -/
namespace NoiContest.Pipeline
open SeatPool SeatPoolState Flow

def poolStep (mark : SeatPoolState → Int → String → Int → Except PoolError TransitionResult)
    (commandId : String) (readClock : Procedure Int) : Procedure Unit := do
  match ← seatPool with
  | none => pure ()
  | some pool =>
    let nowMs ← readClock
    let marked ← onPool (mark pool nowMs commandId pool.revision)
    if marked.replayed then pure ()
    else do
      let _ ← savePoolState (some pool.revision) marked.state

def freezePool (tid : String) (endAtMs : Int) : Procedure Unit :=
  poolStep SeatPoolState.freeze ("freeze:" ++ tid ++ ":" ++ toString endAtMs) clock

/- The clock was read at the start of finish_safe_wait. -/
def collectPool (tid : String) (endAtMs nowMs : Int) : Procedure Unit :=
  poolStep SeatPoolState.collect ("collect:" ++ tid ++ ":" ++ toString endAtMs) (pure nowMs)

inductive FinishStep where
  | freeze | collect
  deriving DecidableEq, Repr

namespace FinishStep

def operation : FinishStep → String
  | freeze => "freeze"
  | collect => "collect"

def commandId (step : FinishStep) (tid : String) (endAtMs : Int) : String :=
  step.operation ++ ":" ++ tid ++ ":" ++ toString endAtMs

def mark : FinishStep → SeatPoolState → Int → String → Int → Except PoolError TransitionResult
  | freeze => SeatPoolState.freeze
  | collect => SeatPoolState.collect

def fingerprintAt (step : FinishStep) (nowMs : Int) : String :=
  fingerprint step.operation [("now_ms", .int nowMs)]

/-- The step on an undisturbed host whose clock shows the given time. -/
def run (step : FinishStep) (tid : String) (endAtMs nowMs : Int) (w : World) :
    Except Raised Unit × World :=
  let procedure := match step with
    | freeze => freezePool tid endAtMs
    | collect => collectPool tid endAtMs nowMs
  procedure.exec World.respond (fun _ => { clock := nowMs }) w

end FinishStep

/-- The world after further commands on the stored pool, those that raise are not saved. -/
def World.afterCommands (w : World) (commands : List Command) : World :=
  { w with tables := { w.tables with
    pool := w.tables.pool.map fun pool => Runs.run afterCommand pool commands } }

/-- A step that saved the pool at the first time succeeds when it is repeated at the second
    time, whatever commands came between, and leaves the seats as they are. -/
def RetrySucceeds (step : FinishStep) (tid : String) (endAtMs t₁ t₂ : Int) (w : World) : Prop :=
  (step.run tid endAtMs t₁ w).1 = .ok () →
  (step.run tid endAtMs t₁ w).2.tables.pool ≠ w.tables.pool →
  ∀ between : List Command,
    let failed := (step.run tid endAtMs t₁ w).2.afterCommands between
    (step.run tid endAtMs t₂ failed).1 = .ok () ∧
      (step.run tid endAtMs t₂ failed).2.tables.pool.map (·.seats) =
        failed.tables.pool.map (·.seats)

namespace FinishStep
variable {step : FinishStep} {tid : String} {endAtMs nowMs : Int} {pool : SeatPoolState}

theorem commandId_visible (step : FinishStep) (tid : String) (endAtMs : Int) :
    PyText.strip (step.commandId tid endAtMs) ≠ "" := by
  apply PyText.strip_ne_empty (c := ':') _ (by decide)
  simp [commandId]

theorem mark_applies (step : FinishStep) (pool : SeatPoolState) (nowMs : Int)
    (commandId : String) (expectedRevision : Int) : ∃ mutation : Mutation,
    step.mark pool nowMs commandId expectedRevision =
      pool.apply step.operation [("now_ms", .int nowMs)] commandId expectedRevision
        (.ok mutation) := by
  cases step with
  | freeze =>
    simp only [mark, SeatPoolState.freeze, operation]
    exact ⟨_, rfl⟩
  | collect =>
    simp only [mark, SeatPoolState.collect, operation]
    exact ⟨_, rfl⟩

theorem mark_replays {receipt : CommandReceipt}
    (found : pool.receipt (step.commandId tid endAtMs) = some receipt)
    (same : receipt.fingerprint = step.fingerprintAt nowMs) :
    step.mark pool nowMs (step.commandId tid endAtMs) pool.revision =
      .ok { state := pool, value := receipt.value, replayed := true } := by
  obtain ⟨mutation, applies⟩ := mark_applies step pool nowMs (step.commandId tid endAtMs)
    pool.revision
  rw [applies]
  unfold fingerprintAt at same
  simp [SeatPoolState.apply, commandId_visible, found, same]

theorem mark_conflicts {receipt : CommandReceipt}
    (found : pool.receipt (step.commandId tid endAtMs) = some receipt)
    (other : receipt.fingerprint ≠ step.fingerprintAt nowMs) :
    step.mark pool nowMs (step.commandId tid endAtMs) pool.revision =
      .error (.commandConflict "command_id was reused with different arguments") := by
  obtain ⟨mutation, applies⟩ := mark_applies step pool nowMs (step.commandId tid endAtMs)
    pool.revision
  rw [applies]
  unfold fingerprintAt at other
  simp [SeatPoolState.apply, commandId_visible, found, other]

theorem mark_appends (nowMs : Int)
    (absent : pool.receipt (step.commandId tid endAtMs) = none) :
    ∃ result receipt, step.mark pool nowMs (step.commandId tid endAtMs) pool.revision =
        .ok result ∧ result.replayed = false ∧ result.state.revision = pool.revision + 1 ∧
      result.state.receipt (step.commandId tid endAtMs) = some receipt ∧
      receipt.fingerprint = step.fingerprintAt nowMs := by
  obtain ⟨mutation, applies⟩ := mark_applies step pool nowMs (step.commandId tid endAtMs)
    pool.revision
  rw [applies]
  simp only [SeatPoolState.apply, commandId_visible, if_false, absent, if_true, Except.map]
  exact ⟨_, _, rfl, rfl, rfl, receipt_appended absent rfl, rfl⟩

theorem savePoolState_saves {w : World} (stored : w.tables.pool = some pool)
    (state : SeatPoolState) (choice : Choice) (calm : choice.raises = none)
    (unedited : choice.edits = []) :
    (savePoolState (some pool.revision) state).exec World.respond (fun _ => choice) w =
      (.ok state, { w with tables := w.tables.withPool state }) := by
  have put : w.tables.putSeatPool (some pool.revision) state =
      .ok (w.tables.withPool state) := by
    simp [ContestTables.putSeatPool, stored, Outcome.raiseIf]
  unfold savePoolState
  rw [exec_bind_steady]
  simp only [putSeatPool, call, exec_perform, World.respond, World.answer, calm, World.perform, World.written,
    put, unedited, List.foldl_nil]
  rfl

/- The step as its commands on the pool. -/
theorem run_eq (step : FinishStep) (tid : String) (endAtMs nowMs : Int) {w : World}
    (stored : w.tables.pool = some pool) :
    step.run tid endAtMs nowMs w =
      match step.mark pool nowMs (step.commandId tid endAtMs) pool.revision with
      | .error error => (.error (.pool error), w)
      | .ok marked =>
        if marked.replayed then (.ok (), w)
        else (.ok (), { w with tables := w.tables.withPool marked.state }) := by
  have poolStep_eq : ∀ clock : Procedure Int,
      clock.exec World.respond (fun _ => { clock := nowMs }) w = (.ok nowMs, w) →
      (poolStep step.mark (step.commandId tid endAtMs) clock).exec World.respond
        (fun _ => { clock := nowMs }) w =
      match step.mark pool nowMs (step.commandId tid endAtMs) pool.revision with
      | .error error => (.error (.pool error), w)
      | .ok marked =>
        if marked.replayed then (.ok (), w)
        else (.ok (), { w with tables := w.tables.withPool marked.state }) := by
    intro clock ticks
    unfold poolStep
    rw [exec_bind_steady]
    simp only [seatPool, call, exec_perform, World.respond, World.answer, World.perform, stored,
      List.foldl_nil]
    rw [exec_bind_steady, ticks]
    simp only
    rw [exec_bind_steady]
    cases step.mark pool nowMs (step.commandId tid endAtMs) pool.revision with
    | error error => rfl
    | ok marked =>
      simp only [onPool, exec_ofExcept, Except.mapError]
      by_cases replayed : marked.replayed = true
      · simp [replayed]
      · rw [if_neg replayed, if_neg replayed]
        rw [exec_bind_steady, savePoolState_saves stored _ _ rfl rfl]
        rfl
  cases step with
  | freeze => exact poolStep_eq _ rfl
  | collect => exact poolStep_eq _ rfl

theorem run_without_pool (step : FinishStep) (tid : String) (endAtMs nowMs : Int) {w : World}
    (stored : w.tables.pool = none) : step.run tid endAtMs nowMs w = (.ok (), w) := by
  have reads : ∀ clock : Procedure Int, (poolStep step.mark (step.commandId tid endAtMs) clock).exec
      World.respond (fun _ => { clock := nowMs }) w = (.ok (), w) := by
    intro clock
    unfold poolStep
    rw [exec_bind_steady]
    simp [seatPool, call, World.respond, World.answer, World.perform, stored]
  cases step with
  | freeze => exact reads _
  | collect => exact reads _

/- Whoever finds the receipt replays it or refuses, and saves nothing. -/
theorem run_with_receipt (nowMs : Int) {w : World} {receipt : CommandReceipt}
    (stored : w.tables.pool = some pool)
    (found : pool.receipt (step.commandId tid endAtMs) = some receipt) :
    (step.run tid endAtMs nowMs w).2 = w ∧
      ((step.run tid endAtMs nowMs w).1 = .ok () ↔
        receipt.fingerprint = step.fingerprintAt nowMs) := by
  rw [run_eq step tid endAtMs nowMs stored]
  by_cases same : receipt.fingerprint = step.fingerprintAt nowMs
  · rw [mark_replays found same]
    simp [same]
  · rw [mark_conflicts found same]
    simp [same]

theorem run_saves (nowMs : Int) {w : World} (stored : w.tables.pool = some pool)
    (absent : pool.receipt (step.commandId tid endAtMs) = none) :
    ∃ saved receipt, step.run tid endAtMs nowMs w =
        (.ok (), { w with tables := w.tables.withPool saved }) ∧
      saved.revision = pool.revision + 1 ∧
      saved.receipt (step.commandId tid endAtMs) = some receipt ∧
      receipt.fingerprint = step.fingerprintAt nowMs := by
  obtain ⟨result, receipt, marked, fresh, revision, found, fingerprinted⟩ :=
    mark_appends nowMs absent
  rw [run_eq step tid endAtMs nowMs stored, marked]
  exact ⟨result.state, receipt, by simp [fresh], revision, found, fingerprinted⟩

end FinishStep

theorem commands_keep_receipts (pool : SeatPoolState) (commands : List Command) :
    pool.receipts <+: (Runs.run afterCommand pool commands).receipts :=
  Runs.run_invariant (fun later : SeatPoolState => pool.receipts <+: later.receipts)
    (fun _ c kept => kept.trans (afterCommand_keeps_receipts c)) (List.prefix_refl _) commands

/- The clock is one of the fingerprinted arguments, so the receipt that the saved step left
   refuses its own repetition at another time. -/
theorem retry_succeeds_iff (step : FinishStep) (tid : String) (endAtMs t₁ t₂ : Int) (w : World) :
    RetrySucceeds step tid endAtMs t₁ t₂ w ↔
      (∀ pool, w.tables.pool = some pool → pool.receipt (step.commandId tid endAtMs) ≠ none) ∨
        step.fingerprintAt t₁ = step.fingerprintAt t₂ := by
  cases stored : w.tables.pool with
  | none =>
    have first := FinishStep.run_without_pool step tid endAtMs t₁ stored
    constructor
    · intro _
      exact .inl fun pool some => by cases some
    · intro _ _ saved
      exact absurd (by rw [first]) saved
  | some pool =>
    cases found : pool.receipt (step.commandId tid endAtMs) with
    | some receipt =>
      have unchanged := (FinishStep.run_with_receipt t₁ stored found).1
      constructor
      · intro _
        refine .inl fun other same => ?_
        cases same
        simp [found]
      · intro _ _ saved
        exact absurd (by rw [unchanged]) saved
    | none =>
      obtain ⟨saved, receipt, first, revision, left, fingerprinted⟩ :=
        FinishStep.run_saves t₁ stored found
      have changed : (step.run tid endAtMs t₁ w).2.tables.pool ≠ w.tables.pool := by
        rw [first, stored]
        intro same
        have same := congrArg SeatPoolState.revision (Option.some.inj same)
        omega
      constructor
      · intro retries
        have retried := (retries (by rw [first]) changed []).1
        rw [first] at retried
        have compared := (FinishStep.run_with_receipt t₂
          (w := World.afterCommands { w with tables := w.tables.withPool saved } []) rfl left).2
        exact .inr (fingerprinted.symm.trans (compared.mp retried))
      · rintro (impossible | same) _ _ between
        · exact absurd found (impossible pool rfl)
        · have kept := receipt_of_prefix (commands_keep_receipts saved between) left
          rw [first]
          have replay := FinishStep.run_with_receipt t₂
            (w := World.afterCommands { w with tables := w.tables.withPool saved } between)
            rfl kept
          refine ⟨replay.2.mpr (fingerprinted.trans same), ?_⟩
          rw [replay.1]

/- One student in a released seat, and a collection that fails after its freeze step. -/
def releasedWorld : World where
  tables :=
    { contest := none
      pool := some
        { tid := "0123456789abcdef01234567"
          maxParticipants := 1
          spareCount := 0
          beginAtMs := 400000
          releaseAtMs := 100000
          revision := 3
          seats := [{ Seat.planned 1 .primary with
            state := .released
            uid := some 7
            uname := "ada" }] } }

theorem repeated_freeze_conflicts :
    ¬ RetrySucceeds .freeze "0123456789abcdef01234567" 900000 900100 930100 releasedWorld := by
  intro retries
  have retried := (retries (by decide +kernel) (by decide +kernel) []).1
  exact absurd retried (by decide +kernel)

end NoiContest.Pipeline
