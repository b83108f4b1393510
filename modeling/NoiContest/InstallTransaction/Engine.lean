import NoiContest.Lib.Crash
import NoiContest.Lib.Dict
import NoiContest.Lib.Outcome
import NoiContest.Lib.PyText

/- The durable state machine of an install transaction. A write of a file is atomic: it puts the
   whole content in place or nothing, and may raise either way. A driver may raise or answer
   anything, and a reply of the wrong shape is none. The log is no file: it keeps what the
   statements speak about. -/
namespace NoiContest.InstallTransaction
open Flow Outcome

inductive Phase where
  | sourceRelease
  | controllerQuiesce
  | cleanMaterials
  | hydroIntegration
  | closedFrontend
  | controller
  | postInstallVerification
  deriving DecidableEq, Repr

def Phase.name : Phase → String
  | .sourceRelease => "source_release"
  | .controllerQuiesce => "controller_quiesce"
  | .cleanMaterials => "clean_materials"
  | .hydroIntegration => "hydro_integration"
  | .closedFrontend => "closed_frontend"
  | .controller => "controller"
  | .postInstallVerification => "post_install_verification"

/- The two orders of a transaction, and which drivers have the optional methods. -/
structure Setup where
  phases : List Phase
  rollbackOrder : List Phase
  hasCommitCleanup : Phase → Bool
  hasRollbackCleanup : Bool
  hasAfterPhaseCommitted : Bool
  distinct : phases.Nodup
  rollbackDistinct : rollbackOrder.Nodup
  covered : ∀ phase ∈ phases, phase ∈ rollbackOrder

/-- `PHASES` and `ROLLBACK_ORDER` -/
def upgrade (hasCommitCleanup : Phase → Bool) (hasRollbackCleanup hasAfterPhaseCommitted : Bool) :
    Setup where
  phases := [.sourceRelease, .controllerQuiesce, .hydroIntegration, .closedFrontend, .controller,
    .postInstallVerification]
  rollbackOrder := [.postInstallVerification, .controller, .hydroIntegration, .closedFrontend,
    .controllerQuiesce, .sourceRelease]
  hasCommitCleanup := hasCommitCleanup
  hasRollbackCleanup := hasRollbackCleanup
  hasAfterPhaseCommitted := hasAfterPhaseCommitted
  distinct := by decide
  rollbackDistinct := by decide
  covered := by decide

/-- `CLEAN_PHASES` and `CLEAN_ROLLBACK_ORDER` -/
def clean (hasCommitCleanup : Phase → Bool) (hasRollbackCleanup hasAfterPhaseCommitted : Bool) :
    Setup where
  phases := [.sourceRelease, .cleanMaterials, .hydroIntegration, .closedFrontend, .controller,
    .postInstallVerification]
  rollbackOrder := [.postInstallVerification, .controller, .hydroIntegration, .closedFrontend,
    .cleanMaterials, .sourceRelease]
  hasCommitCleanup := hasCommitCleanup
  hasRollbackCleanup := hasRollbackCleanup
  hasAfterPhaseCommitted := hasAfterPhaseCommitted
  distinct := by decide
  rollbackDistinct := by decide
  covered := by decide

inductive Raised where
  | transaction (message : String)
  | other (typeName : String)
  deriving DecidableEq, Repr

/-- `type(exc).__name__` -/
def Raised.typeName : Raised → String
  | .transaction _ => "InstallTransactionError"
  | .other typeName => typeName

structure Context where
  planId : String
  backupManifestSha256 : String
  deriving DecidableEq, Repr

inductive Status where
  | applying
  | rollingBack
  | rollbackVerified
  | manualIntervention
  | committed
  deriving DecidableEq, Repr

structure Receipt where
  phase : String
  action : String
  status : String
  evidenceSha256 : String
  deriving DecidableEq, Repr

structure Journal where
  planId : String
  backupManifestSha256 : String
  status : Status
  nextPhase : Option Phase
  inProgress : Option Phase := none
  completed : List Phase := []
  receipts : Dict Phase Receipt := Dict.empty
  rollbackCompleted : List Phase := []
  failure : Option String := none
  deriving DecidableEq

structure CleanupReply where
  phase : String
  action : String
  status : String
  deriving DecidableEq, Repr

inductive File where
  | pending
  | final (status : Status) (planId : String)
  | cleanup (planId : String)
  | rollbackVerification (planId : String)
  | rollbackCleanup (planId : String)
  deriving DecidableEq, Repr

inductive Content where
  | journal (row : Journal)
  | verification (status planId backupManifestSha256 : String)
  | cleanup (planId backupManifestSha256 status : String) (phases : List Phase)
  | rollbackCleanup (planId backupManifestSha256 status : String)
  deriving DecidableEq

inductive Call where
  | lexists (file : File)
  | read (file : File)
  | write (file : File) (content : Content)
  | unlink (file : File)
  | apply (context : Context) (phase : Phase)
  | rollback (context : Context) (phase : Phase) (receipt : Option Receipt)
  | commitCleanup (context : Context) (phase : Phase) (receipt : Option Receipt)
  | verifyRollback (context : Context)
  | rollbackCleanup (context : Context)
  | afterPhaseCommitted (context : Context) (phase : Phase) (receipt : Receipt)

@[reducible] def Answer : Call → Type
  | .lexists _ => Bool
  | .read _ => Content
  | .apply .. | .rollback .. => Option Receipt
  | .commitCleanup .. | .rollbackCleanup _ => Option CleanupReply
  | .verifyRollback _ => Option Content
  | _ => Unit

structure Choice where
  raises : Option Raised := none
  /-- Whether a write that raises has put its content in place. -/
  tookEffect : Bool := false
  receipt : Option Receipt := none
  cleanupReply : Option CleanupReply := none
  verification : Option Content := none

inductive Event where
  | began (context : Context) (resumed : Bool)
  | wrote (row : Journal)
  | applied (context : Context) (phase : Phase) (pending : Option Content)
  | rolledBack (context : Context) (phase : Phase) (reply : Except Raised (Option Receipt))
  | verified (context : Context) (reply : Except Raised (Option Content))
  | cleaned (context : Context) (phase : Phase) (reply : Except Raised (Option CleanupReply))

/- The newest event comes first. -/
structure Disk where
  files : File → Option Content
  log : List Event

namespace Disk

def empty : Disk := ⟨fun _ => none, []⟩

def record (disk : Disk) (event : Event) : Disk := { disk with log := event :: disk.log }

def recordRow (disk : Disk) : Content → Disk
  | .journal row => disk.record (.wrote row)
  | _ => disk

def put (disk : Disk) (file : File) (content : Option Content) : Disk :=
  { disk with files := fun other => if other = file then content else disk.files other }

def write (disk : Disk) (file : File) (content : Content) : Disk :=
  (disk.recordRow content).put file (some content)

end Disk

def Choice.answer {α : Type} (choice : Choice) (value : α) : Except Raised α :=
  match choice.raises with
  | some e => .error e
  | none => .ok value

def Choice.effect (choice : Choice) (before after : Disk) : Disk :=
  if choice.raises.isNone || choice.tookEffect then after else before

def respond : (c : Call) → Choice → Disk → Except Raised (Answer c) × Disk
  | .lexists file, _, disk => (.ok (disk.files file).isSome, disk)
  | .read file, choice, disk =>
    (match disk.files file with
    | some content => choice.answer content
    | none => .error (.other "FileNotFoundError"), disk)
  | .write file content, choice, disk =>
    (choice.answer (), choice.effect disk (disk.write file content))
  | .unlink file, choice, disk => (choice.answer (), choice.effect disk (disk.put file none))
  | .apply context phase, choice, disk =>
    (choice.answer choice.receipt, disk.record (.applied context phase (disk.files .pending)))
  | .rollback context phase _, choice, disk =>
    (choice.answer choice.receipt,
      disk.record (.rolledBack context phase (choice.answer choice.receipt)))
  | .commitCleanup context phase _, choice, disk =>
    (choice.answer choice.cleanupReply,
      disk.record (.cleaned context phase (choice.answer choice.cleanupReply)))
  | .verifyRollback context, choice, disk =>
    (choice.answer choice.verification,
      disk.record (.verified context (choice.answer choice.verification)))
  | .rollbackCleanup _, choice, disk => (choice.answer choice.cleanupReply, disk)
  | .afterPhaseCommitted .., choice, disk => (choice.answer (), disk)

abbrev Procedure (α : Type) : Type := Program Call Answer Raised Raised α

/- What a handler finds in the journal variable. -/
abbrev Holding (α : Type) : Type := Program Call Answer Raised (Raised × Journal) α

def call (c : Call) : Procedure (Answer c) := Program.perform c

def checked {α : Type} (result : Except Raised α) : Procedure α := .ofExcept result

def holding {α : Type} (journal : Journal) (body : Procedure α) : Holding α :=
  body.mapError fun error => (error, journal)

def lexists (file : File) : Procedure Bool := call (.lexists file)

def atomicJson (file : File) (content : Content) : Procedure Unit := call (.write file content)

def readExact (file : File) : Procedure Content := call (.read file)

def initialJournal (setup : Setup) (context : Context) : Except Raised Journal := do
  raiseIf (PyText.isLowerHexOf 64 context.planId = false ∨
      PyText.isLowerHexOf 64 context.backupManifestSha256 = false)
    (.transaction "transaction identity is invalid")
  return {
    planId := context.planId
    backupManifestSha256 := context.backupManifestSha256
    status := .applying
    nextPhase := setup.phases.head? }

def expectedNext (setup : Setup) (row : Journal) : Option Phase :=
  setup.phases[row.completed.length]?

def rollbackScope (row : Journal) : List Phase := row.completed ++ row.inProgress.toList

def rollbackTargets (setup : Setup) (row : Journal) : List Phase :=
  setup.rollbackOrder.filter (· ∈ rollbackScope row)

def validateRow (setup : Setup) (context : Context) (row : Journal) : Except Raised Journal := do
  raiseIf (row.planId ≠ context.planId ∨
      row.backupManifestSha256 ≠ context.backupManifestSha256)
    (.transaction "transaction journal identity differs")
  raiseIf (row.completed ≠ setup.phases.take row.completed.length ∨
      ¬ (row.receipts.keys ⊆ row.completed ∧ row.completed ⊆ row.receipts.keys))
    (.transaction "completed install phases are not an exact prefix")
  raiseIf (row.status = .applying ∧ row.nextPhase ≠ expectedNext setup row)
    (.transaction "next install phase differs")
  raiseIf (row.inProgress ≠ none ∧ row.inProgress ≠ expectedNext setup row)
    (.transaction "in-progress install phase differs")
  raiseIf (row.rollbackCompleted ≠
      (rollbackTargets setup row).take row.rollbackCompleted.length)
    (.transaction "completed rollback phases differ from durable intents")
  return row

def validateJournal (setup : Setup) (context : Context) : Content → Except Raised Journal
  | .journal row => validateRow setup context row
  | _ => .error (.transaction "transaction journal identity differs")

/-- `_receipt` -/
def receipt (phase : Phase) (action : String) (value : Option Receipt) : Except Raised Receipt :=
  match value with
  | some value =>
    if value.phase = phase.name ∧ value.action = action ∧ value.status = "verified" ∧
        PyText.isLowerHexOf 64 value.evidenceSha256 = true
    then .ok value else .error (.transaction (phase.name ++ " " ++ action ++ " receipt differs"))
  | none => .error (.transaction (phase.name ++ " " ++ action ++ " receipt differs"))

/- The final receipt is written after the pending journal says the same. -/
def finalize (context : Context) (journal : Journal) (status : Status) : Procedure Journal := do
  let journal := { journal with status := status }
  atomicJson .pending (.journal journal)
  let final := File.final status context.planId
  if ← lexists final then do
    let recorded ← readExact final
    checked (raiseIf (recorded ≠ .journal journal)
      (.transaction "durable service transaction receipt differs"))
  else atomicJson final (.journal journal)
  if ← lexists .pending then call (.unlink .pending) else pure ()
  return journal

/- One round of the loop over the two terminal states. -/
def finalReceipt (setup : Setup) (context : Context) (status : Status) :
    Procedure (Option Journal) := do
  let path := File.final status context.planId
  if ← lexists path then do
    let row ← checked (validateJournal setup context (← readExact path))
    checked (raiseIf (row.status ≠ status)
      (.transaction "durable service transaction status differs"))
    return some row
  else return none

def existingFinal (setup : Setup) (context : Context) : Procedure (Option Journal) := do
  let committed ← finalReceipt setup context .committed
  let rolledBack ← finalReceipt setup context .rollbackVerified
  match committed, rolledBack with
  | some _, some _ =>
    checked (.error (.transaction "conflicting durable service transaction receipts"))
  | some row, none => return some row
  | none, found => return found

def verificationOf (context : Context) : Content :=
  .verification "rollback_verified" context.planId context.backupManifestSha256

def rollbackCleanupOf (context : Context) : Content :=
  .rollbackCleanup context.planId context.backupManifestSha256 "verified"

/- The first half of `_verify_and_cleanup_rollback`. -/
def verifyOnce (context : Context) : Procedure Unit := do
  let verification := File.rollbackVerification context.planId
  if ← lexists verification then do
    let recorded ← readExact verification
    checked (raiseIf (recorded ≠ verificationOf context)
      (.transaction "durable rollback verification differs"))
  else do
    let reply ← call (.verifyRollback context)
    checked (raiseIf (reply ≠ some (verificationOf context))
      (.transaction "final rollback verification differs"))
    atomicJson verification (verificationOf context)

def cleanupOnce (context : Context) : Procedure Unit := do
  let path := File.rollbackCleanup context.planId
  if ← lexists path then do
    let recorded ← readExact path
    checked (raiseIf (recorded ≠ rollbackCleanupOf context)
      (.transaction "durable rollback cleanup differs"))
  else do
    let reply ← call (.rollbackCleanup context)
    checked (raiseIf (reply ≠ some ⟨"final_rollback", "cleanup", "verified"⟩)
      (.transaction "final rollback cleanup differs"))
    atomicJson path (rollbackCleanupOf context)

def verifyAndCleanupRollback (setup : Setup) (context : Context) : Procedure Unit := do
  verifyOnce context
  if setup.hasRollbackCleanup then cleanupOnce context else pure ()

def cleanupOf (setup : Setup) (context : Context) : Content :=
  .cleanup context.planId context.backupManifestSha256 "verified" setup.phases

def cleanupReplyOf (phase : Phase) : CleanupReply := ⟨phase.name, "commit_cleanup", "verified"⟩

def cleanupPhases (setup : Setup) (context : Context) (journal : Journal) :
    List Phase → Procedure Unit
  | [] => pure ()
  | phase :: rest => do
    if setup.hasCommitCleanup phase then do
      let result ← call (.commitCleanup context phase (journal.receipts.get? phase))
      checked (raiseIf (result ≠ some (cleanupReplyOf phase))
        (.transaction (phase.name ++ " commit cleanup differs")))
    else pure ()
    cleanupPhases setup context journal rest

def commitCleanup (setup : Setup) (context : Context) (journal : Journal) : Procedure Unit := do
  let path := File.cleanup context.planId
  if ← lexists path then do
    let value ← readExact path
    checked (raiseIf (value ≠ cleanupOf setup context)
      (.transaction "service install cleanup receipt differs"))
  else do
    cleanupPhases setup context journal setup.phases
    atomicJson path (cleanupOf setup context)

/- The loop of the forward pass, with the journal as it is in memory. -/
def applyPhases (setup : Setup) (context : Context) :
    List Phase → Journal → Holding Journal
  | [], journal => pure journal
  | phase :: rest, journal => do
    let journal := { journal with inProgress := some phase }
    holding journal (atomicJson .pending (.journal journal))
    let reply ← holding journal (call (.apply context phase))
    let verified ← holding journal (checked (receipt phase "apply" reply))
    let completed := journal.completed ++ [phase]
    let journal := { journal with
      completed := completed
      receipts := journal.receipts.set phase verified
      inProgress := none
      nextPhase := setup.phases[completed.length]? }
    holding journal (atomicJson .pending (.journal journal))
    if setup.hasAfterPhaseCommitted then
      holding journal (call (.afterPhaseCommitted context phase verified))
    else pure ()
    applyPhases setup context rest journal

def rollbackPhases (context : Context) (already : List Phase) :
    List Phase → Journal → Holding Journal
  | [], journal => pure journal
  | phase :: rest, journal =>
    if phase ∈ already then rollbackPhases context already rest journal
    else do
      let reply ← holding journal
        (call (.rollback context phase (journal.receipts.get? phase)))
      let _ ← holding journal (checked (receipt phase "rollback" reply))
      let journal := { journal with rollbackCompleted := journal.rollbackCompleted ++ [phase] }
      holding journal (atomicJson .pending (.journal journal))
      rollbackPhases context already rest journal

def rollBackBody (setup : Setup) (context : Context) (journal : Journal) : Holding Journal := do
  let journal ← rollbackPhases context journal.rollbackCompleted (rollbackTargets setup journal)
    journal
  holding journal (verifyAndCleanupRollback setup context)
  holding journal (finalize context journal .rollbackVerified)

/- A failure after the live verification is retryable, an earlier one stays manual. -/
def rollBack (setup : Setup) (context : Context) (journal : Journal) : Procedure Journal :=
  Program.orElse (rollBackBody setup context journal) fun failed => do
    let verified ← lexists (.rollbackVerification context.planId)
    let journal := { failed.2 with
      status := if verified then .rollingBack else .manualIntervention
      failure := some failed.1.typeName }
    atomicJson .pending (.journal journal)
    checked (.error failed.1)

/- A final receipt was found. -/
def recorded (setup : Setup) (context : Context) (final : Journal) : Procedure Journal := do
  if ← lexists .pending then do
    let pending ← checked (validateJournal setup context (← readExact .pending))
    checked (raiseIf (pending ≠ final)
      (.transaction "pending and durable final transaction differ"))
    call (.unlink .pending)
  else pure ()
  if final.status = .committed then commitCleanup setup context final else pure ()
  return final

/- A pending journal of an earlier run was found; it never goes forward. -/
def resume (setup : Setup) (context : Context) : Procedure Journal := do
  let journal ← checked (validateJournal setup context (← readExact .pending))
  match journal.status with
  | .committed => finalize context journal .committed
  | .rollbackVerified => finalize context journal .rollbackVerified
  | .manualIntervention =>
    checked (.error (.transaction "transaction requires manual intervention"))
  | .applying => do
    let journal := { journal with status := .rollingBack, failure := some "interrupted_apply" }
    atomicJson .pending (.journal journal)
    rollBack setup context journal
  | .rollingBack => rollBack setup context journal

def startFresh (setup : Setup) (context : Context) : Procedure Journal := do
  let journal ← checked (initialJournal setup context)
  atomicJson .pending (.journal journal)
  let outcome ← Program.attempt (applyPhases setup context setup.phases journal)
  match outcome with
  | .error (error, journal) => do
    let journal := { journal with status := .rollingBack, failure := some error.typeName }
    atomicJson .pending (.journal journal)
    rollBack setup context journal
  | .ok journal => do
    -- the cleanup is outside the boundary of the forward pass, so it never rolls back
    let committed ← finalize context journal .committed
    commitCleanup setup context committed
    return committed

/-- `_run_locked` -/
def runLocked (setup : Setup) (context : Context) : Procedure Journal := do
  match ← existingFinal setup context with
  | some final => recorded setup context final
  | none =>
    if ← lexists .pending then resume setup context else startFresh setup context

end NoiContest.InstallTransaction
