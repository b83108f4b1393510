import NoiContest.Lib.Runs
import NoiContest.InstallTransaction.Engine

/- What has to hold of a transaction directory after any runs and crashes, and the invariant that
   gives it: for every plan, what its files say about the events of the plan. -/
namespace NoiContest.InstallTransaction
open Flow Outcome

/-- The plan that an event is about; the start of a run is about none. -/
def Event.planId : Event → Option String
  | .began .. => none
  | .wrote row => some row.planId
  | .applied context .. | .rolledBack context .. | .verified context _ | .cleaned context .. =>
    some context.planId

def planLog (planId : String) (log : List Event) : List Event :=
  log.filter (·.planId = some planId)

def Applied (log : List Event) (phase : Phase) : Prop :=
  ∃ context pending, Event.applied context phase pending ∈ log

def RollbackCalled (log : List Event) : Prop :=
  ∃ context phase reply, Event.rolledBack context phase reply ∈ log

def Sealed (log : List Event) : Prop :=
  ∃ row, Event.wrote row ∈ log ∧ row.status = .committed

def RollbackChecked (log : List Event) : Prop :=
  ∃ context, Event.verified context (.ok (some (verificationOf context))) ∈ log

def CleanupChecked (log : List Event) (phase : Phase) : Prop :=
  ∃ context, Event.cleaned context phase (.ok (some (cleanupReplyOf phase))) ∈ log

def Event.verifiedRollback : Event → Option Phase
  | .rolledBack _ phase (.ok reply) =>
    if (receipt phase "rollback" reply).isOk then some phase else none
  | _ => none

/- In the order of the calls. -/
def verifiedRollbacks (log : List Event) : List Phase :=
  log.reverse.filterMap Event.verifiedRollback

/-- Whether the latest run began without a pending journal. -/
def freshRun : List Event → Bool
  | [] => false
  | .began _ resumed :: _ => !resumed
  | _ :: earlier => freshRun earlier

def Validates (setup : Setup) (row : Journal) : Prop :=
  validateJournal setup ⟨row.planId, row.backupManifestSha256⟩ (.journal row) = .ok row

def Allowed (setup : Setup) (earlier : List Event) : Event → Prop
  | .applied context phase pending =>
    (∃ row, pending = some (.journal row) ∧ row.planId = context.planId ∧
      ∀ before ∈ setup.phases.takeWhile (· ≠ phase), before ∈ row.receipts.keys) ∧
    ¬ RollbackCalled (planLog context.planId earlier) ∧ freshRun earlier = true
  | .rolledBack context _ _ => ¬ Sealed (planLog context.planId earlier)
  | .wrote row => Validates setup row
  | _ => True

def Ordered (setup : Setup) : List Event → Prop
  | [] => True
  | event :: earlier => Allowed setup earlier event ∧ Ordered setup earlier

/-- Every applied phase was rolled back, in the rollback order, and the whole was verified. -/
structure Unwound (setup : Setup) (log : List Event) : Prop where
  phases : ∃ targets : List Phase, targets.Sublist setup.rollbackOrder ∧
    (∀ phase, Applied log phase → phase ∈ targets) ∧ targets.Sublist (verifiedRollbacks log)
  checked : RollbackChecked log

structure CrashConsistent (setup : Setup) (disk : Disk) : Prop where
  ordered : Ordered setup disk.log
  exclusive : ∀ planId, disk.files (.final .committed planId) = none ∨
    disk.files (.final .rollbackVerified planId) = none
  unwound : ∀ planId, disk.files (.final .rollbackVerified planId) ≠ none →
    Unwound setup (planLog planId disk.log)

/- A run, its environment, and the number of calls it gets to make. -/
structure Run where
  context : Context
  choices : Nat → Choice
  calls : Nat

def Disk.begin (disk : Disk) (context : Context) : Disk :=
  disk.record (.began context (disk.files .pending).isSome)

def afterRun (setup : Setup) (disk : Disk) (run : Run) : Disk :=
  ((runLocked setup run.context).cut respond run.calls run.choices (disk.begin run.context)).2

/- The validity of a row without its identity. -/
structure Valid (setup : Setup) (row : Journal) : Prop where
  front_exact : row.completed = setup.phases.take row.completed.length
  receipts : ∀ phase, phase ∈ row.receipts.keys ↔ phase ∈ row.completed
  next : row.status = .applying → row.nextPhase = expectedNext setup row
  current : row.inProgress = none ∨ row.inProgress = expectedNext setup row
  undone : row.rollbackCompleted =
    (rollbackTargets setup row).take row.rollbackCompleted.length

theorem validateRow_ok {setup : Setup} {context : Context} {row row' : Journal} :
    validateRow setup context row = .ok row' ↔
      row.planId = context.planId ∧ row.backupManifestSha256 = context.backupManifestSha256 ∧
        Valid setup row ∧ row' = row := by
  simp only [validateRow, bind_ok, raiseIf_ok, pure_eq_ok, not_or, not_not,
    Decidable.not_and_iff_not_or_not]
  constructor
  · rintro ⟨_, ⟨plan, manifest⟩, _, ⟨front_exact, ⟨known, complete⟩⟩, _, next, _, current, _,
      undone, rfl⟩
    refine ⟨plan, manifest, ⟨front_exact, fun phase => ⟨fun mem => known mem,
      fun mem => complete mem⟩, fun applying => ?_, current, undone⟩, rfl⟩
    exact next.resolve_left (not_not_intro applying)
  · rintro ⟨plan, manifest, valid, rfl⟩
    refine ⟨(), ⟨plan, manifest⟩, (), ⟨valid.front_exact, fun phase mem =>
      (valid.receipts phase).mp mem, fun phase mem => (valid.receipts phase).mpr mem⟩, (),
      ?_, (), valid.current, (), valid.undone, rfl⟩
    exact Decidable.not_or_of_imp valid.next

theorem validates_iff {setup : Setup} {row : Journal} : Validates setup row ↔ Valid setup row := by
  simp [Validates, validateJournal, validateRow_ok]

theorem validateJournal_ok {setup : Setup} {context : Context} {content : Content}
    {row : Journal} : validateJournal setup context content = .ok row ↔
      content = .journal row ∧ row.planId = context.planId ∧
        row.backupManifestSha256 = context.backupManifestSha256 ∧ Valid setup row := by
  cases content with
  | journal own =>
    simp only [validateJournal, validateRow_ok, Content.journal.injEq]
    constructor
    · rintro ⟨plan, manifest, valid, rfl⟩
      exact ⟨rfl, plan, manifest, valid⟩
    · rintro ⟨rfl, plan, manifest, valid⟩
      exact ⟨plan, manifest, valid, rfl⟩
  | verification => simp [validateJournal]
  | cleanup => simp [validateJournal]
  | rollbackCleanup => simp [validateJournal]

theorem receipt_ok {phase : Phase} {action : String} {reply : Option Receipt} {value : Receipt} :
    receipt phase action reply = .ok value → reply = some value := by
  intro checked
  cases reply with
  | none => cases checked
  | some own =>
    simp only [receipt] at checked
    split at checked
    · exact congrArg some (Except.ok.inj checked)
    · cases checked

/- What a group of results asks of the runs: for which plans a call may fail after the receipt of
   the rollback was written. -/
structure Regime where
  setup : Setup
  loose : String → Prop

def Journal.context (row : Journal) : Context := ⟨row.planId, row.backupManifestSha256⟩

@[simp] theorem context_planId (row : Journal) : row.context.planId = row.planId := rfl

/- What the row of a plan says about the events of the plan. -/
structure Follows (regime : Regime) (log : List Event) (row : Journal) : Prop where
  valid : Valid regime.setup row
  applied : ∀ phase, Applied log phase → phase ∈ rollbackScope row
  forward : RollbackCalled log → row.status ≠ .applying ∧ row.status ≠ .committed
  is_sealed : Sealed log → row.status = .committed
  undone : row.rollbackCompleted.Sublist (verifiedRollbacks log)
  finished : row.status = .rollbackVerified →
    row.rollbackCompleted = rollbackTargets regime.setup row ∧ RollbackChecked log

/- The files and events of one plan. -/
structure PlanState where
  pending : Option Journal
  committed : Option Content
  rolledBack : Option Content
  verification : Option Content
  cleanup : Option Content
  log : List Event

def pendingOf (planId : String) : Option Content → Option Journal
  | some (.journal row) => if row.planId = planId then some row else none
  | _ => none

def Disk.plan (disk : Disk) (planId : String) : PlanState where
  pending := pendingOf planId (disk.files .pending)
  committed := disk.files (.final .committed planId)
  rolledBack := disk.files (.final .rollbackVerified planId)
  verification := disk.files (.rollbackVerification planId)
  cleanup := disk.files (.cleanup planId)
  log := planLog planId disk.log

structure Tracked (regime : Regime) (planId : String) (own : PlanState) : Prop where
  pending : ∀ row, own.pending = some row → Follows regime own.log row
  committed : ∀ content, own.committed = some content → own.rolledBack = none ∧
    ∃ row, content = .journal row ∧ row.status = .committed ∧ Follows regime own.log row ∧
      ∀ row', own.pending = some row' → row' = row
  rolledBack : ∀ content, own.rolledBack = some content →
    ∃ row, content = .journal row ∧ row.status = .rollbackVerified ∧
      Follows regime own.log row ∧
      ∀ row', own.pending = some row' →
        row' = row ∨ row'.status = .rollingBack ∧ regime.loose planId
  untouched : own.pending = none → own.committed = none → own.rolledBack = none → own.log = []
  verification : own.verification ≠ none → RollbackChecked own.log
  cleanup : ∀ content, own.cleanup = some content →
    (∃ row, own.committed = some (.journal row) ∧ content = cleanupOf regime.setup row.context) ∧
      ∀ phase ∈ regime.setup.phases, regime.setup.hasCommitCleanup phase = true →
        CleanupChecked own.log phase

structure Consistent (regime : Regime) (disk : Disk) : Prop where
  ordered : Ordered regime.setup disk.log
  kind : ∀ content, disk.files .pending = some content → ∃ row, content = .journal row
  tracked : ∀ planId, Tracked regime planId (disk.plan planId)

theorem Follows.unwound {regime : Regime} {log : List Event} {row : Journal}
    (follows : Follows regime log row) (done : row.status = .rollbackVerified) :
    Unwound regime.setup log := by
  obtain ⟨all, checked⟩ := follows.finished done
  refine ⟨⟨rollbackTargets regime.setup row, List.filter_sublist, fun phase applied => ?_, ?_⟩,
    checked⟩
  · have inside := follows.applied phase applied
    have known : phase ∈ regime.setup.phases := by
      rcases List.mem_append.mp inside with done | current
      · rw [follows.valid.front_exact] at done
        exact List.mem_of_mem_take done
      · have busy : row.inProgress = some phase := by simpa using current
        rcases follows.valid.current with idle | expected
        · rw [idle] at busy
          cases busy
        · rw [expected, expectedNext] at busy
          exact List.mem_of_getElem? busy
    simp [rollbackTargets, inside, regime.setup.covered phase known]
  · rw [← all]
    exact follows.undone

theorem Consistent.crashConsistent {regime : Regime} {disk : Disk}
    (consistent : Consistent regime disk) : CrashConsistent regime.setup disk where
  ordered := consistent.ordered
  exclusive planId := by
    cases found : disk.files (.final .committed planId) with
    | none => exact .inl rfl
    | some content => exact .inr ((consistent.tracked planId).committed content found).1
  unwound planId some := by
    obtain ⟨content, found⟩ := Option.ne_none_iff_exists'.mp some
    obtain ⟨row, _, status, follows, _⟩ := (consistent.tracked planId).rolledBack content found
    exact follows.unwound status

theorem consistent_empty (regime : Regime) : Consistent regime Disk.empty where
  ordered := trivial
  kind content found := by cases found
  tracked planId :=
    { pending := fun row found => by cases found
      committed := fun content found => by cases found
      rolledBack := fun content found => by cases found
      untouched := fun _ _ _ => rfl
      verification := fun found => absurd rfl found
      cleanup := fun content found => by cases found }

end NoiContest.InstallTransaction
