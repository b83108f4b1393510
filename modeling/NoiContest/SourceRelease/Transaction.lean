import NoiContest.Lib.Crash
import NoiContest.Lib.JsonText
import NoiContest.Lib.Outcome
import NoiContest.Lib.PyText
import NoiContest.Lib.Sha256

/- The transaction that stages a source release: one pointer, two pending markers and the receipts
   of every plan. A statement on a file is atomic and may raise before or after its effect. -/
namespace NoiContest.SourceRelease
open Flow Outcome

inductive Raised where
  | transaction (message : String)
  | other (typeName : String)
  deriving DecidableEq, Repr

inductive Scope where
  | qualificationLab
  | production
  deriving DecidableEq, Repr

def Scope.name : Scope → String
  | .qualificationLab => "qualification-lab"
  | .production => "production"

inductive Phase where
  | prepared
  | releaseInstalled
  | pointerCommitted
  | rollbackVerified
  deriving DecidableEq, Repr

def Phase.name : Phase → String
  | .prepared => "prepared"
  | .releaseInstalled => "release_installed"
  | .pointerCommitted => "pointer_committed"
  | .rollbackVerified => "rollback_verified"

structure Row where
  planId : String
  ownerPlanId : Option String
  scope : Scope
  phase : Phase
  releaseName : String
  previousPointer : Option String
  newPointer : String
  deriving DecidableEq, Repr

inductive ReceiptStatus where
  | committed
  | rolledBack
  deriving DecidableEq, Repr

def ReceiptStatus.name : ReceiptStatus → String
  | .committed => "committed"
  | .rolledBack => "rolled_back"

structure Receipt where
  row : Row
  status : ReceiptStatus
  deriving DecidableEq, Repr

inductive IntentStatus where
  | rollingBack
  | rollbackVerified
  deriving DecidableEq, Repr

structure Intent where
  planId : String
  committedReceiptSha256 : String
  previousPointer : Option String
  newPointer : String
  status : IntentStatus
  deriving DecidableEq, Repr

inductive File where
  | pending
  | rollbackPending
  | committed (planId : String)
  | rollback (planId : String)
  | committedRollback (planId : String)
  deriving DecidableEq, Repr

/- What is no JSON object of one of the three forms is `other`. -/
inductive Content where
  | pending (row : Row)
  | receipt (receipt : Receipt)
  | intent (intent : Intent)
  | other (text : String)
  deriving DecidableEq

/-- `current-source` -/
inductive Pointer where
  | absent
  | link (target : String)
  | other
  deriving DecidableEq, Repr

structure Disk where
  pointer : Pointer
  files : File → Option Content
  releases : String → Bool
  /-- Whether the staging tree of the latest apply is there. -/
  staging : Bool

structure Planned where
  planId : String
  releaseName : String

/- What neither reads nor changes a file of the transaction. -/
inductive Step where
  | prepareDirectories
  | transactionsDirectory
  | candidateIdentity
  | verifyRelease (name : String)
  | extractExact
  | restrictStaging

inductive Call where
  | plan
  | step (step : Step)
  | releaseExists (name : String)
  | makeStaging
  | installRelease (name : String)
  | stagingExists
  | lexists (file : File)
  | read (file : File)
  | write (file : File) (content : Content)
  | unlink (file : File)
  | readPointer
  | replacePointer (target : Option String)

@[reducible] def Answer : Call → Type
  | .plan => Planned
  | .lexists _ | .releaseExists _ | .stagingExists => Bool
  | .read _ => Content
  | .readPointer => Option String
  | _ => Unit

structure Choice where
  raises : Option Raised := none
  /-- Whether a statement that raises has had its effect. -/
  tookEffect : Bool := false
  planned : Planned := ⟨"", ""⟩

namespace Disk

def put (disk : Disk) (file : File) (content : Option Content) : Disk :=
  { disk with files := fun other => if other = file then content else disk.files other }

def point (disk : Disk) (pointer : Pointer) : Disk := { disk with pointer := pointer }

def install (disk : Disk) (name : String) : Disk :=
  { disk with
    releases := fun other => if other = name then true else disk.releases other
    staging := false }

end Disk

/-- A full match of `[a-f0-9]{40}-[a-f0-9]{12}`. -/
def isReleaseName (name : String) : Bool :=
  name.length == 53 && (name.toList.take 40).all PyText.isLowerHex && name.toList[40]? == some '-' &&
    (name.toList.drop 41).all PyText.isLowerHex

def releasePointer (name : String) : String := "source-releases/" ++ name

def isReleasePointer (target : String) : Bool :=
  target.toList.take 16 == "source-releases/".toList &&
    isReleaseName (String.ofList (target.toList.drop 16))

def pointerTarget : Pointer → Except Raised (Option String)
  | .absent => .ok none
  | .other => .error (.transaction "current-source is not a symbolic link")
  | .link target =>
    if isReleasePointer target then .ok (some target)
    else .error (.transaction "current-source target is unsafe")

def Pointer.of : Option String → Pointer
  | none => .absent
  | some target => .link target

def Choice.answer {α : Type} (choice : Choice) (value : Except Raised α) : Except Raised α :=
  match choice.raises with
  | some e => .error e
  | none => value

def Choice.effect (choice : Choice) (before after : Disk) : Disk :=
  if choice.raises.isNone || choice.tookEffect then after else before

def respond : (c : Call) → Choice → Disk → Except Raised (Answer c) × Disk
  | .plan, choice, disk => (choice.answer (.ok choice.planned), disk)
  | .lexists file, _, disk => (.ok (disk.files file).isSome, disk)
  | .releaseExists name, _, disk => (.ok (disk.releases name), disk)
  | .stagingExists, _, disk => (.ok disk.staging, disk)
  | .read file, choice, disk =>
    (match disk.files file with
    | some content => choice.answer (.ok content)
    | none => .error (.other "FileNotFoundError"), disk)
  | .write file content, choice, disk =>
    (choice.answer (.ok ()), choice.effect disk (disk.put file (some content)))
  | .unlink file, choice, disk =>
    (choice.answer (.ok ()), choice.effect disk (disk.put file none))
  | .readPointer, choice, disk => (choice.answer (pointerTarget disk.pointer), disk)
  | .replacePointer target, choice, disk =>
    (choice.answer (.ok ()), choice.effect disk (disk.point (.of target)))
  | .installRelease name, choice, disk =>
    (choice.answer (.ok ()), choice.effect disk (disk.install name))
  | .makeStaging, choice, disk =>
    (choice.answer (.ok ()), choice.effect disk { disk with staging := true })
  | .step _, choice, disk => (choice.answer (.ok ()), disk)

abbrev Procedure (α : Type) : Type := Program Call Answer Raised Raised α

def call (c : Call) : Procedure (Answer c) := Program.perform c

def checked {α : Type} (result : Except Raised α) : Procedure α := .ofExcept result

/-- `if bad: raise TransactionError(message)` -/
def refuse (bad : Prop) [Decidable bad] (message : String) : Procedure Unit :=
  checked (raiseIf bad (.transaction message))

def perform (step : Step) : Procedure Unit := call (.step step)

def lexists (file : File) : Procedure Bool := call (.lexists file)

def read (file : File) : Procedure Content := call (.read file)

def atomicJson (file : File) (content : Content) : Procedure Unit := call (.write file content)

def unlink (file : File) : Procedure Unit := call (.unlink file)

def readPointer : Procedure (Option String) := call .readPointer

inductive ReportStatus where
  | committed
  | commitRecovered
  | rollbackVerified
  deriving DecidableEq, Repr

structure Report where
  status : ReportStatus
  changed : Bool
  planId : String
  release : Option String
  deriving DecidableEq, Repr

def text : Option String → JsonText.Json
  | none => .null
  | some value => .str value

def Receipt.json (receipt : Receipt) : JsonText.Json :=
  .obj [("schema_version", .int 1), ("plan_id", .str receipt.row.planId),
    ("owner_plan_id", text receipt.row.ownerPlanId), ("scope", .str receipt.row.scope.name),
    ("phase", .str receipt.row.phase.name), ("release_name", .str receipt.row.releaseName),
    ("previous_pointer", text receipt.row.previousPointer),
    ("new_pointer", .str receipt.row.newPointer), ("status", .str receipt.status.name)]

/-- The digest of the canonical text. -/
def Receipt.sha256 (receipt : Receipt) : String :=
  Sha256.ofText (JsonText.dumps receipt.json ++ "\n")

def ownerDiffers (owner : Option String) : Prop :=
  ∃ planId, owner = some planId ∧ PyText.isLowerHexOf 64 planId = false

instance (owner : Option String) : Decidable (ownerDiffers owner) :=
  match owner with
  | none => isFalse fun ⟨_, eq, _⟩ => by cases eq
  | some planId => decidable_of_iff (PyText.isLowerHexOf 64 planId = false) (by
    simp [ownerDiffers])

def validatePending (planId : String) : Content → Except Raised Row
  | .pending row => do
    raiseIf (row.planId ≠ planId) (.transaction "pending transaction identity differs")
    raiseIf (ownerDiffers row.ownerPlanId) (.transaction "pending transaction owner differs")
    raiseIf (row.phase = .rollbackVerified) (.transaction "pending transaction phase differs")
    return row
  | .other _ => .error (.transaction "pending transaction is unreadable")
  | _ => .error (.transaction "pending transaction identity differs")

def loadPending (planId : String) : Procedure Row := do
  checked (validatePending planId (← read .pending))

def committedReceipt (row : Row) : Procedure Bool := do
  if ← lexists (.committed row.planId) then do
    let value ← read (.committed row.planId)
    refuse (value ≠ .receipt ⟨row, .committed⟩ ∨ row.phase ≠ .pointerCommitted)
      "committed receipt differs from pending transaction"
    return true
  else return false

def validateCommitted (planId : String) : Content → Except Raised Receipt
  | .receipt receipt => do
    raiseIf (receipt.row.planId ≠ planId ∨ receipt.row.phase ≠ .pointerCommitted ∨
        receipt.status ≠ .committed)
      (.transaction "committed receipt identity differs")
    raiseIf (ownerDiffers receipt.row.ownerPlanId) (.transaction "committed receipt owner differs")
    raiseIf (receipt.row.newPointer ≠ releasePointer receipt.row.releaseName ∨
        isReleaseName receipt.row.releaseName = false)
      (.transaction "committed receipt release identity differs")
    raiseIf (∃ previous ∈ receipt.row.previousPointer, isReleasePointer previous = false)
      (.transaction "committed receipt previous pointer differs")
    return receipt
  | .other _ => .error (.transaction "committed receipt is unreadable")
  | _ => .error (.transaction "committed receipt identity differs")

def loadCommitted (planId : String) : Procedure Receipt := do
  checked (validateCommitted planId (← read (.committed planId)))

def rollbackIntent (receipt : Receipt) : Intent where
  planId := receipt.row.planId
  committedReceiptSha256 := receipt.sha256
  previousPointer := receipt.row.previousPointer
  newPointer := receipt.row.newPointer
  status := .rollingBack

def verifiedIntent (receipt : Receipt) : Intent :=
  { rollbackIntent receipt with status := .rollbackVerified }

def loadExactJson (file : File) (expected : Content) (label : String) : Procedure Unit := do
  let observed ← read file
  refuse (observed ≠ expected) (label ++ " differs")

/- The terminal receipt of the rollback is there. -/
def finishedRollback (planId : String) (committed : Receipt) (current : Option String) :
    Procedure Report := do
  loadExactJson (.committedRollback planId) (.intent (verifiedIntent committed)) "rollback receipt"
  if ← lexists .rollbackPending then do
    loadExactJson .rollbackPending (.intent (rollbackIntent committed)) "rollback intent"
    refuse (current ≠ committed.row.previousPointer) "rolled back source pointer differs"
    unlink .rollbackPending
    return ⟨.rollbackVerified, false, planId, some committed.row.newPointer⟩
  else do
    refuse (current ≠ committed.row.previousPointer) "rolled back source pointer differs"
    return ⟨.rollbackVerified, false, planId, some committed.row.newPointer⟩

/- The intent is durable before the pointer moves. -/
def declareIntent (committed : Receipt) (current : Option String) : Procedure Unit := do
  if ← lexists .rollbackPending then do
    loadExactJson .rollbackPending (.intent (rollbackIntent committed)) "rollback intent"
    refuse (current ≠ some committed.row.newPointer ∧ current ≠ committed.row.previousPointer)
      "current-source changed outside the rollback transaction"
  else do
    refuse (current ≠ some committed.row.newPointer)
      "committed source release no longer owns current-source"
    atomicJson .rollbackPending (.intent (rollbackIntent committed))

/- Used by the rollback of a commit and by the recovery of an apply. -/
def restorePointer (row : Row) (current : Option String) (message : String) : Procedure Unit :=
  if current = some row.newPointer then call (.replacePointer row.previousPointer)
  else refuse (current ≠ row.previousPointer) message

def rollbackCommitted (planId : String) : Procedure Report := do
  perform .transactionsDirectory
  let unfinished ← lexists .pending
  refuse (unfinished = true) "unfinished source apply requires explicit recovery"
  let committed ← loadCommitted planId
  let current ← readPointer
  if ← lexists (.committedRollback planId) then finishedRollback planId committed current
  else do
    declareIntent committed current
    restorePointer committed.row current "current-source changed outside the rollback transaction"
    atomicJson (.committedRollback planId) (.intent (verifiedIntent committed))
    unlink .rollbackPending
    return ⟨.rollbackVerified, true, planId, some committed.row.newPointer⟩

def recover (planId : String) : Procedure Report := do
  perform .transactionsDirectory
  let row ← loadPending planId
  let current ← readPointer
  if ← committedReceipt row then do
    refuse (current ≠ some row.newPointer) "durably committed source pointer differs"
    unlink .pending
    return ⟨.commitRecovered, false, planId, some row.newPointer⟩
  else do
    restorePointer row current "current-source changed outside the pending transaction"
    atomicJson (.rollback planId) (.receipt ⟨{ row with phase := .rollbackVerified }, .rolledBack⟩)
    unlink .pending
    return ⟨.rollbackVerified, true, planId, none⟩

def validateRecovered (planId : String) : Content → Except Raised Receipt
  | .receipt receipt => do
    raiseIf (receipt.row.planId ≠ planId ∨ receipt.row.phase ≠ .rollbackVerified ∨
        receipt.status ≠ .rolledBack)
      (.transaction "source apply rollback receipt differs")
    raiseIf (ownerDiffers receipt.row.ownerPlanId)
      (.transaction "source apply rollback owner differs")
    return receipt
  | .other _ => .error (.transaction "source apply rollback receipt is unreadable")
  | _ => .error (.transaction "source apply rollback receipt differs")

/- What `rollback_owned` does once there is no pending apply. -/
def rollbackRecorded (planId : String) : Procedure Report := do
  if ← lexists (.committed planId) then rollbackCommitted planId
  else do
    let orphan ← lexists .rollbackPending
    refuse (orphan = true) "source rollback exists without its committed receipt"
    if ← lexists (.rollback planId) then do
      let recovered ← checked (validateRecovered planId (← read (.rollback planId)))
      let current ← readPointer
      refuse (current ≠ recovered.row.previousPointer) "rolled back source pointer differs"
      return ⟨.rollbackVerified, false, planId, some recovered.row.newPointer⟩
    else return ⟨.rollbackVerified, false, planId, none⟩

def rollbackOwned (planId : String) : Procedure Report := do
  perform .transactionsDirectory
  if ← lexists .pending then do
    let result ← recover planId
    if result.status = .rollbackVerified then return result
    else do
      refuse (result.status ≠ .commitRecovered) "source apply recovery result differs"
      rollbackRecorded planId
  else rollbackRecorded planId

def anyExists : List File → Procedure Bool
  | [] => return false
  | file :: rest => do
    if ← lexists file then return true else anyExists rest

def terminalPaths (planId : String) : List File :=
  [.committed planId, .rollback planId, .committedRollback planId]

/- The body of the boundary in `apply`, after the pending marker was written. -/
def stageAndCommit (row : Row) (reuse : Bool) : Procedure Report := do
  if reuse then pure () else do
    perform .extractExact
    call (.installRelease row.releaseName)
  atomicJson .pending (.pending { row with phase := .releaseInstalled })
  call (.replacePointer (some row.newPointer))
  let row := { row with phase := .pointerCommitted }
  atomicJson .pending (.pending row)
  atomicJson (.committed row.planId) (.receipt ⟨row, .committed⟩)
  unlink .pending
  return ⟨.committed, true, row.planId, some row.newPointer⟩

def apply (planId : String) (ownerPlanId : Option String) (scope : Scope) : Procedure Report := do
  let planned ← call .plan
  refuse (planned.planId ≠ planId) "plan ID differs after complete revalidation"
  perform .prepareDirectories
  let rolling ← lexists .rollbackPending
  refuse (rolling = true) "an unfinished source rollback requires explicit recovery"
  let unfinished ← lexists .pending
  refuse (unfinished = true) "an unfinished source transaction requires explicit recovery"
  let terminal ← anyExists (terminalPaths planId)
  refuse (terminal = true) "source transaction already has a durable terminal receipt"
  perform .candidateIdentity
  let reuse ← call (.releaseExists planned.releaseName)
  if reuse then perform (.verifyRelease planned.releaseName) else pure ()
  let previous ← readPointer
  let row : Row :=
    { planId := planId
      ownerPlanId := ownerPlanId
      scope := scope
      phase := .prepared
      releaseName := planned.releaseName
      previousPointer := previous
      newPointer := releasePointer planned.releaseName }
  atomicJson .pending (.pending row)
  if reuse then stageAndCommit row true
  else do
    call .makeStaging
    -- a staging tree that is left over stays as evidence
    Program.orElse (stageAndCommit row false) fun error => do
      let remains ← call .stagingExists
      if remains then perform .restrictStaging else pure ()
      checked (.error error)

end NoiContest.SourceRelease
