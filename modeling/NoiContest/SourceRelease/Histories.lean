import NoiContest.SourceRelease.Recovery

/- A completed rollback can be repeated, and then every history of operations on one plan. -/
namespace NoiContest.SourceRelease
open Flow Outcome

variable {planId : String} {start : Pointer} {disk : Disk} {row : Row}

/- Repeated rollbacks -/

section Repeated
variable {strict : Prop}

/-- The disk stays as it is, and only the environment makes a call fail. -/
abbrev Still (strict : Prop) (disk : Disk) : Raised → Disk → Prop :=
  fun _ d => d = disk ∧ ¬ strict

theorem still_read {file : File} {content : Content} {post : Content → Disk → Prop}
    (stored : disk.files file = some content) (next : post content disk) :
    Ends (keeping (· = disk) strict) (read file) disk post (Still strict disk) := by
  refine ends_read rfl (fun other found => ?_) fun failing _ => ⟨rfl, ?_⟩
  · rw [stored] at found
    cases found
    exact next
  · refine failing.resolve_right fun absent => ?_
    rw [stored] at absent
    cases absent

theorem still_readPointer {target : Option String} {post : Option String → Disk → Prop}
    (read : pointerTarget disk.pointer = .ok target) (next : post target disk) :
    Ends (keeping (· = disk) strict) readPointer disk post (Still strict disk) := by
  refine ends_readPointer rfl (fun other found => ?_) fun failing _ => ⟨rfl, ?_⟩
  · rw [read] at found
    cases found
    exact next
  · refine failing.resolve_right fun unreadable => ?_
    rw [read] at unreadable
    cases unreadable

theorem still_lexists {file : File} {post : Bool → Disk → Prop}
    (next : post (disk.files file).isSome disk) :
    Ends (keeping (· = disk) strict) (lexists file) disk post (Still strict disk) :=
  ends_lexists rfl next

theorem still_passes {bad : Prop} [Decidable bad] {message : String} {post : Unit → Disk → Prop}
    (fine : ¬ bad) (next : post () disk) :
    Ends (keeping (· = disk) strict) (refuse bad message) disk post (Still strict disk) :=
  ends_refuse (fun _ => next) fun holds => absurd holds fine

theorem still_directory {post : Unit → Disk → Prop} (next : post () disk) :
    Ends (keeping (· = disk) strict) (perform .transactionsDirectory) disk post
      (Still strict disk) :=
  ends_step rfl next fun loose _ => ⟨rfl, loose⟩

theorem rollbackCommitted_repeated (closed : Closed planId start row (disk.view planId)) :
    Ends (keeping (· = disk) strict) (rollbackCommitted planId) disk
      (fun report d => report.status = .rollbackVerified ∧ d = disk) (Still strict disk) := by
  obtain ⟨own, valid, view_eq⟩ := closed
  have unpending : disk.files .pending = none := congrArg View.pending view_eq
  have calm : disk.files .rollbackPending = none := congrArg View.rollbackPending view_eq
  have committed : disk.files (.committed planId) = some (committedReceiptOf row) :=
    congrArg View.committed view_eq
  have terminal : disk.files (.committedRollback planId) = some (verifiedOf row) :=
    congrArg View.committedRollback view_eq
  have read : pointerTarget disk.pointer = .ok row.previousPointer := by
    have at_start : disk.pointer = start := congrArg View.pointer view_eq
    rw [at_start]
    exact own.previous
  unfold rollbackCommitted
  rw [ends_bind]
  refine still_directory ?_
  rw [ends_bind]
  refine still_lexists ?_
  rw [ends_bind]
  refine still_passes (by simp [unpending]) ?_
  rw [ends_bind, loadCommitted, ends_bind]
  refine still_read committed ?_
  rw [valid]
  simp only [checked, ends_ofExcept_ok]
  rw [ends_bind]
  refine still_readPointer read ?_
  rw [ends_bind]
  refine still_lexists ?_
  rw [terminal, Option.isSome_some, if_pos rfl, finishedRollback, ends_bind, loadExactJson,
    ends_bind]
  refine still_read terminal ?_
  refine still_passes (not_not_intro rfl) ?_
  rw [ends_bind]
  refine still_lexists ?_
  rw [calm, Option.isSome_none, if_neg Bool.false_ne_true, ends_bind]
  exact still_passes (not_not_intro rfl) ⟨rfl, rfl⟩

theorem rollbackOwned_repeated (own_done : RolledBack planId start (disk.view planId)) :
    Ends (keeping (· = disk) strict) (rollbackOwned planId) disk
      (fun report d => report.status = .rollbackVerified ∧ d = disk) (Still strict disk) := by
  have unpending : disk.files .pending = none := by
    cases own_done with
    | unused _ pending _ => exact pending
    | recovered row own owner view_eq => exact congrArg View.pending view_eq
    | closed row closed => exact congrArg View.pending closed.view_eq
  unfold rollbackOwned
  rw [ends_bind]
  refine still_directory ?_
  rw [ends_bind]
  refine still_lexists ?_
  rw [unpending, Option.isSome_none, if_neg Bool.false_ne_true, rollbackRecorded, ends_bind]
  refine still_lexists ?_
  cases own_done with
  | unused unused _ calm =>
    have uncommitted : disk.files (.committed planId) = none := unused.committed
    have unrolled : disk.files (.rollback planId) = none := unused.rollback
    have calm : disk.files .rollbackPending = none := calm
    rw [uncommitted, Option.isSome_none, if_neg Bool.false_ne_true, ends_bind]
    refine still_lexists ?_
    rw [ends_bind]
    refine still_passes (by simp [calm]) ?_
    rw [ends_bind]
    refine still_lexists ?_
    rw [unrolled]
    exact ⟨rfl, rfl⟩
  | recovered row own owner view_eq =>
    have uncommitted : disk.files (.committed planId) = none := congrArg View.committed view_eq
    have calm : disk.files .rollbackPending = none := congrArg View.rollbackPending view_eq
    have stored : disk.files (.rollback planId) = some (rolledBackReceiptOf row) :=
      congrArg View.rollback view_eq
    have read : pointerTarget disk.pointer = .ok row.previousPointer := by
      have at_start : disk.pointer = start := congrArg View.pointer view_eq
      rw [at_start]
      exact own.previous
    have valid : validateRecovered planId (rolledBackReceiptOf row) =
        .ok ⟨{ row with phase := .rollbackVerified }, .rolledBack⟩ :=
      validateRecovered_ok.mpr ⟨rfl, own.plan, rfl, rfl, owner⟩
    rw [uncommitted, Option.isSome_none, if_neg Bool.false_ne_true, ends_bind]
    refine still_lexists ?_
    rw [ends_bind]
    refine still_passes (by simp [calm]) ?_
    rw [ends_bind]
    refine still_lexists ?_
    rw [stored, Option.isSome_some, if_pos rfl, ends_bind]
    refine still_read stored ?_
    rw [ends_bind, valid]
    simp only [checked, ends_ofExcept_ok]
    rw [ends_bind]
    refine still_readPointer read ?_
    rw [ends_bind]
    exact still_passes (not_not_intro rfl) ⟨rfl, rfl⟩
  | closed row closed =>
    have committed : disk.files (.committed planId) = some (committedReceiptOf row) :=
      congrArg View.committed closed.view_eq
    rw [committed]
    exact rollbackCommitted_repeated closed

end Repeated

/- Histories -/

inductive Operation where
  | apply (ownerPlanId : Option String) (scope : Scope)
  | recover
  | rollbackOwned
  | rollbackCommitted

def Operation.procedure (planId : String) : Operation → Procedure Report
  | .apply ownerPlanId scope => SourceRelease.apply planId ownerPlanId scope
  | .recover => SourceRelease.recover planId
  | .rollbackOwned => SourceRelease.rollbackOwned planId
  | .rollbackCommitted => SourceRelease.rollbackCommitted planId

/-- The three operations that bring a plan to its end after a crash. -/
def Operation.recovers : Operation → Prop
  | .apply .. => False
  | _ => True

/- An operation, its environment, and the number of calls it gets to make. -/
structure Run where
  operation : Operation
  choices : Nat → Choice
  calls : Nat

def Run.outcome (planId : String) (disk : Disk) (run : Run) : Option (Except Raised Report) × Disk :=
  (run.operation.procedure planId).cut respond run.calls run.choices disk

def afterRun (planId : String) (disk : Disk) (run : Run) : Disk := (run.outcome planId disk).2

/- What a crash leaves behind, and what holds when there was none. -/
theorem cut_kept {α : Type} (keep : Disk → Prop) {x : Procedure α} {post : α → Disk → Prop}
    {raised : Raised → Disk → Prop} (kept : keep disk)
    (ends : Ends (keeping keep False) x disk post raised) (calls : Nat) (choices : Nat → Choice) :
    keep (x.cut respond calls choices disk).2 ∧
      ∀ result, (x.cut respond calls choices disk).1 = some result →
        Meets post raised (result, (x.cut respond calls choices disk).2) :=
  cut_of_ends keep calls kept ends (obeysFor_of_all (fun _ _ _ never => never.elim) _ _ _ _)

/- What an operation leaves behind, and what its report says. -/
theorem outcome_staged (run : Run) (stage : Stage planId start (disk.view planId)) :
    Stage planId start ((afterRun planId disk run).view planId) ∧
      ∀ report, (run.outcome planId disk).1 = some (.ok report) →
        match run.operation with
        | .apply .. => True
        | .recover => Recovered planId start report ((afterRun planId disk run).view planId)
        | .rollbackOwned => report.status = .rollbackVerified ∧
            RolledBack planId start ((afterRun planId disk run).view planId)
        | .rollbackCommitted => report.status = .rollbackVerified ∧
            ∃ row, Closed planId start row ((afterRun planId disk run).view planId) := by
  obtain ⟨operation, choices, calls⟩ := run
  cases operation with
  | apply owner scope =>
    exact ⟨(cut_kept _ stage (apply_ends stage) calls choices).1, fun _ _ => trivial⟩
  | recover =>
    obtain ⟨kept, ended⟩ := cut_kept _ stage (recover_ends stage) calls choices
    exact ⟨kept, fun report returned => ended _ returned⟩
  | rollbackOwned =>
    obtain ⟨kept, ended⟩ := cut_kept _ stage (rollbackOwned_ends stage) calls choices
    exact ⟨kept, fun report returned => ended _ returned⟩
  | rollbackCommitted =>
    obtain ⟨kept, ended⟩ := cut_kept _ stage (rollbackCommitted_ends stage) calls choices
    exact ⟨kept, fun report returned => ended _ returned⟩

/-- The receipts of the plan and `current-source` say the same, and no marker is left. -/
structure Reconciled (planId : String) (start : Pointer) (view : View) : Prop where
  unmarked : ∀ content, view.pending = some content ∨ view.rollbackPending = some content →
    content.planId ≠ some planId
  rolledBack : view.rollback ≠ none ∨ view.committedRollback ≠ none → view.pointer = start
  recovered : ∀ receipt, view.rollback = some (.receipt receipt) →
    view.pointer = .of receipt.row.previousPointer
  undone : ∀ intent, view.committedRollback = some (.intent intent) →
    view.pointer = .of intent.previousPointer
  committed : view.committed ≠ none → view.rollback = none → view.committedRollback = none →
    ∃ receipt, view.committed = some (.receipt receipt) ∧
      view.pointer = .link receipt.row.newPointer

theorem reconciled_recovered (own : Own planId start row) : Reconciled planId start
    ⟨start, none, none, none, some (rolledBackReceiptOf row), none⟩ where
  unmarked content marker := by rcases marker with marker | marker <;> cases marker
  rolledBack _ := rfl
  recovered receipt stored := by
    cases stored
    exact own.pointer.symm
  undone intent stored := by cases stored
  committed stored := absurd rfl stored

theorem Closed.reconciled {view : View} (closed : Closed planId start row view) :
    Reconciled planId start view := by
  obtain ⟨own, _, rfl⟩ := closed
  exact
    { unmarked := fun content marker => by rcases marker with marker | marker <;> cases marker
      rolledBack := fun _ => rfl
      recovered := fun receipt stored => by cases stored
      undone := fun intent stored => by
        cases stored
        exact own.pointer.symm
      committed := fun _ _ unset => by cases unset }

theorem RolledBack.reconciled {view : View} (rolledBack : RolledBack planId start view) :
    Reconciled planId start view := by
  cases rolledBack with
  | unused unused pending calm =>
    exact
      { unmarked := fun content marker => by
          rw [pending, calm] at marker
          rcases marker with marker | marker <;> cases marker
        rolledBack := fun either => by
          rw [unused.rollback, unused.committedRollback] at either
          exact either.elim (absurd rfl) (absurd rfl)
        recovered := fun receipt stored => by
          rw [unused.rollback] at stored
          cases stored
        undone := fun intent stored => by
          rw [unused.committedRollback] at stored
          cases stored
        committed := fun stored => absurd unused.committed stored }
  | recovered row own owner view_eq =>
    rw [view_eq]
    exact reconciled_recovered own
  | closed row closed => exact closed.reconciled

theorem Recovered.reconciled {report : Report} {view : View}
    (recovered : Recovered planId start report view) : Reconciled planId start view := by
  cases recovered with
  | commit row own status view_eq =>
    rw [view_eq]
    exact
      { unmarked := fun content marker => by rcases marker with marker | marker <;> cases marker
        rolledBack := fun either => either.elim (absurd rfl) (absurd rfl)
        recovered := fun receipt stored => by cases stored
        undone := fun intent stored => by cases stored
        committed := fun _ _ _ => ⟨⟨row, .committed⟩, rfl, rfl⟩ }
  | rollback row own owner status view_eq =>
    rw [view_eq]
    exact reconciled_recovered own

/-- Repeating the operation changes nothing, and reports the same status when no call fails. -/
structure Repeats (planId : String) (operation : Operation) (report : Report) (disk : Disk) :
    Prop where
  still : ∀ (calls : Nat) (choices : Nat → Choice),
    ((operation.procedure planId).cut respond calls choices disk).2 = disk
  same : ∀ choices : Nat → Choice, (∀ n, (choices n).raises = none) →
    ∃ again, (operation.procedure planId).exec respond choices disk = (.ok again, disk) ∧
      again.status = report.status

theorem repeats_of_ends {operation : Operation} {report : Report}
    (verified : report.status = .rollbackVerified)
    (repeated : ∀ strict : Prop, Ends (keeping (· = disk) strict) (operation.procedure planId) disk
      (fun again d => again.status = .rollbackVerified ∧ d = disk) (Still strict disk)) :
    Repeats planId operation report disk where
  still calls choices := (cut_kept (· = disk) rfl (repeated False) calls choices).1
  same choices quiet := by
    have obeys : (operation.procedure planId).Obeys respond
        (fun _ choice _ => True → choice.raises = none) choices disk :=
      obeys_of_choices (fun n _ => quiet n) _ _
    have meets := exec_of_checking (repeated True) obeys
    cases ended : (operation.procedure planId).exec respond choices disk with
    | mk result d =>
      rw [ended] at meets
      cases result with
      | ok again =>
        obtain ⟨status, rfl⟩ := meets
        exact ⟨again, rfl, status.trans verified.symm⟩
      | error e => exact absurd trivial meets.2

theorem history_staged (planId : String) (start : Disk)
    (unused : Unused planId (start.view planId)) (history : List Run) :
    Stage planId start.pointer ((Runs.run (afterRun planId) start history).view planId) :=
  Runs.run_invariant (fun disk : Disk => Stage planId start.pointer (disk.view planId))
    (fun _ run stage => (outcome_staged run stage).1) (.unused _ unused rfl) history

theorem source_release_consistent (planId : String) (start : Disk)
    (unused : Unused planId (start.view planId)) (history : List Run) (run : Run) :
    let disk := Runs.run (afterRun planId) start history
    let later := afterRun planId disk run
    (run.operation.recovers → ∀ report, (run.outcome planId disk).1 = some (.ok report) →
      Reconciled planId start.pointer (later.view planId)) ∧
    (run.operation = .rollbackOwned ∨ run.operation = .rollbackCommitted →
      ∀ report, (run.outcome planId disk).1 = some (.ok report) →
        Repeats planId run.operation report later) ∧
    (∀ owner scope, run.operation = .apply owner scope → Terminal planId disk →
      later = disk ∧ ∀ report, (run.outcome planId disk).1 ≠ some (.ok report)) := by
  intro disk later
  obtain ⟨_, ended⟩ := outcome_staged run (history_staged planId start unused history)
  refine ⟨fun recovers report returned => ?_, fun either report returned => ?_,
    fun owner scope is_apply terminal => ?_⟩
  · have reached := ended report returned
    match operation_eq : run.operation with
    | .apply .. =>
      rw [operation_eq] at recovers
      exact recovers.elim
    | .recover =>
      rw [operation_eq] at reached
      exact Recovered.reconciled reached
    | .rollbackOwned =>
      rw [operation_eq] at reached
      exact reached.2.reconciled
    | .rollbackCommitted =>
      rw [operation_eq] at reached
      obtain ⟨_, _, closed⟩ := reached
      exact closed.reconciled
  · have reached := ended report returned
    rcases either with operation_eq | operation_eq <;> rw [operation_eq] at reached ⊢
    · exact repeats_of_ends reached.1 fun strict => rollbackOwned_repeated reached.2
    · obtain ⟨status, _, closed⟩ := reached
      exact repeats_of_ends status fun strict => rollbackCommitted_repeated closed
  · obtain ⟨operation, choices, calls⟩ := run
    subst is_apply
    obtain ⟨kept, refused⟩ := cut_kept (· = disk) rfl (apply_refused terminal) calls choices
    exact ⟨kept, fun report returned => refused _ returned⟩

section Sample

def sampleRoot : Disk := ⟨.absent, fun _ => none, fun _ => false, false⟩

def sampleRelease : String :=
  "0123456789abcdef0123456789abcdef01234567-0123456789ab"

def samplePlanned (_ : Nat) : Choice := { planned := ⟨"plan", sampleRelease⟩ }

/- The process dies right after the pointer was replaced. -/
def crashedApply : Run := ⟨.apply none .production, samplePlanned, 16⟩

def laterRollback : Run := ⟨.rollbackOwned, samplePlanned, 20⟩

theorem crashed_apply_reconciled :
    (Runs.run (afterRun "plan") sampleRoot [crashedApply]).pointer =
      .link (releasePointer sampleRelease) ∧
    Reconciled "plan" .absent ((afterRun "plan" (Runs.run (afterRun "plan") sampleRoot
      [crashedApply]) laterRollback).view "plan") := by
  refine ⟨by decide +kernel, ?_⟩
  have returned : (laterRollback.outcome "plan" (Runs.run (afterRun "plan") sampleRoot
      [crashedApply])).1.map Except.toOption =
        some (some ⟨.rollbackVerified, true, "plan", none⟩) := by decide +kernel
  obtain ⟨result, ended, value⟩ := Option.map_eq_some_iff.mp returned
  have unused : Unused "plan" (sampleRoot.view "plan") := by
    refine ⟨rfl, rfl, rfl, fun content stored => ?_, fun content stored => ?_⟩ <;> cases stored
  cases result with
  | error e => cases value
  | ok report =>
    exact (source_release_consistent "plan" sampleRoot unused [crashedApply] laterRollback).1
      trivial report ended

end Sample

end NoiContest.SourceRelease
