import NoiContest.HydroPlugin.MaterialPublication
import NoiContest.Lib.Flow

/- The apply action of the problem draft endpoint: clones of the contest's problems are made and
   verified, and one update of the contest puts them in the place of their sources. Each call is
   one of Hydro, of the journal, or of a helper that changes problem documents only. -/
namespace NoiContest.HydroPlugin.Draft
open Flow Flow.Program

inductive DraftFailure where
  | conflict | blocked (blockers : List String) | hydro | journalSave | typeError
  deriving DecidableEq, Repr

/-- What the handlers of the plugin throw -/
inductive Thrown where
  | submit (failure : Failure)
  | draft (failure : DraftFailure)
  | material (failure : MaterialFailure)
  deriving DecidableEq, Repr

structure DraftProblem where
  pid : String
  slug : String
  deriving DecidableEq, Repr

/- An apply request that parseProblemDraftRequest accepts. -/
structure DraftRequest where
  tid : String
  problems : List DraftProblem
  operationId : String
  approvalId : String
  preflightId : String
  deriving DecidableEq, Repr

/-- A record of the contest by problem, such as score: doc ids with the JSON text of a value -/
abbrev PidRecord := List (Int × String)

/- The part of orchestratorFileIo that is read again. -/
structure FileIoMarker where
  operationId : String
  preflightId : String
  approvalId : String
  sourcePids : List Int
  targetPids : List Int
  deriving DecidableEq, Repr

structure ContestDoc where
  docId : String
  pids : List Int
  score : Option PidRecord
  balloon : Option PidRecord
  orchestratorFileIo : Option FileIoMarker
  deriving DecidableEq, Repr

structure Resolved where
  docId : Int
  pid : String
  slug : String
  deriving DecidableEq, Repr

/-- What `buildProblemDraftPreflight` returns -/
structure Preflight where
  safeToApply : Bool
  blockers : List String
  preflightId : String
  contest : ContestDoc
  resolved : List Resolved
  score : Option PidRecord
  balloon : Option PidRecord
  deriving DecidableEq, Repr

structure Clone where
  docId : Int
  pid : String
  deriving DecidableEq, Repr

structure MappingItem where
  sourcePid : String
  sourceDocId : Int
  clonePid : String
  cloneDocId : Int
  slug : String
  verified : Bool
  deriving DecidableEq, Repr

structure DraftEntry where
  operationId : String
  preflightId : String
  approvalId : String
  tid : String
  fingerprint : String
  sourcePids : List Int := []
  targetPids : List Int := []
  mapping : List MappingItem := []
  hasScore : Bool := false
  sourceScore : Option PidRecord := none
  targetScore : Option PidRecord := none
  hasBalloon : Bool := false
  sourceBalloon : Option PidRecord := none
  targetBalloon : Option PidRecord := none
  complete : Bool := false
  createdAt : String
  completedAt : Option String := none
  deriving DecidableEq, Repr

/-- `problemDraftResult`, the body of a response with the status applied -/
structure DraftResult where
  operationId : String
  preflightId : String
  tid : String
  pids : List Int
  mapping : List MappingItem
  deriving DecidableEq, Repr

/- The filter and the change of the contest update; the filter asks for an OI contest that has
   not begun, with the problems, the score and the balloon of the source. -/
structure ContestUpdate where
  docId : String
  sourcePids : List Int
  sourceScore : Option PidRecord
  sourceBalloon : Option PidRecord
  targetScore : Option PidRecord
  targetBalloon : Option PidRecord
  marker : FileIoMarker
  deriving DecidableEq, Repr

inductive DraftCall where
  | entry (operationId : String)
  | changeEntry (operationId : String) (change : DraftEntry → DraftEntry)
  | insertEntry (operationId : String) (entry : DraftEntry)
  | saveProblemDraftIdempotencyState
  | inFlight (operationId : String)
  | setInFlight (operationId fingerprint : String)
  | deleteInFlight (operationId : String)
  | joined (operationId : String)
  | now
  | getContest (tid : String)
  | buildProblemDraftPreflight (tid : String) (problems : List DraftProblem)
  | ensureProblemDraftCloneDocument (item : Resolved) (contest : ContestDoc) (request : DraftRequest)
  | populateAndVerifyProblemDraftClone (item : Resolved) (clone : Clone) (request : DraftRequest)
  | countRecords (contestDocId : String)
  | findOneAndUpdate (update : ContestUpdate)

/- The entry of an id, when there is one, and the fingerprint of its promise. -/
abbrev DraftAnswer : DraftCall → Type
  | .entry _ => Option DraftEntry
  | .inFlight _ => Option String
  | .joined _ => DraftResult
  | .now => String
  | .getContest _ => ContestDoc
  | .buildProblemDraftPreflight .. => Preflight
  | .ensureProblemDraftCloneDocument .. => Clone
  | .countRecords _ => Nat
  | .findOneAndUpdate _ => Option ContestDoc
  | _ => Unit

abbrev DraftWork := Program DraftCall DraftAnswer Thrown Thrown

def ask (c : DraftCall) : DraftWork (DraftAnswer c) := perform c

def DraftProblem.json (problem : DraftProblem) : JsonText.Json :=
  .obj [("pid", .str problem.pid), ("slug", .str problem.slug)]

def problemDraftFingerprint (request : DraftRequest) : String :=
  Sha256.ofText (JsonText.dumps (.arr [.str "noi-fileio-apply-v1", .str request.tid,
    .str request.preflightId, .str request.approvalId,
    .arr (request.problems.map DraftProblem.json)]))

/-- `optionalContestFieldMatches` -/
def optionalFieldMatches (field : Option PidRecord) (has : Bool) (target : Option PidRecord) :
    Bool :=
  if has then field == target else field == none

def contestMatchesAppliedProblemDraft (tdoc : ContestDoc) (entry : DraftEntry) : Bool :=
  !entry.mapping.isEmpty && entry.mapping.all (·.verified) && tdoc.pids == entry.targetPids &&
    tdoc.orchestratorFileIo.any (fun marker =>
      marker.operationId == entry.operationId && marker.preflightId == entry.preflightId) &&
    optionalFieldMatches tdoc.score entry.hasScore entry.targetScore &&
    optionalFieldMatches tdoc.balloon entry.hasBalloon entry.targetBalloon

def problemDraftResult (entry : DraftEntry) : DraftResult where
  operationId := entry.operationId
  preflightId := entry.preflightId
  tid := entry.tid
  pids := entry.targetPids
  mapping := entry.mapping

def remapPidRecord (value : Option PidRecord) (sourcePids targetPids : List Int) :
    Option PidRecord :=
  value.map fun record => (sourcePids.zip targetPids).filterMap fun (source, target) =>
    (record.lookup source).map fun item => (target, item)

/-- A property of a missing object is read, which throws. -/
def entryOf (operationId : String) : DraftWork DraftEntry := do
  match ← ask (.entry operationId) with
  | some entry => return entry
  | none => Program.raise (.draft .typeError)

def changeAndSave (operationId : String) (change : DraftEntry → DraftEntry) : DraftWork Unit := do
  ask (.changeEntry operationId change)
  ask .saveProblemDraftIdempotencyState

def validateComplete (request : DraftRequest) : DraftWork DraftResult := do
  let entry ← entryOf request.operationId
  let tdoc ← ask (.getContest request.tid)
  raiseIf (contestMatchesAppliedProblemDraft tdoc entry = false) (.draft .conflict)
  return problemDraftResult entry

def MappingItem.ofClone (item : Resolved) (clone : Clone) : MappingItem where
  sourcePid := item.pid
  sourceDocId := item.docId
  clonePid := clone.pid
  cloneDocId := clone.docId
  slug := item.slug
  verified := false

def markVerified (sourceDocId : Int) (mapping : List MappingItem) : List MappingItem :=
  mapping.map fun item =>
    if item.sourceDocId = sourceDocId then { item with verified := true } else item

/- One clone: what an earlier attempt noted of it has to be the same clone. -/
def cloneProblem (request : DraftRequest) (contest : ContestDoc) (item : Resolved) :
    DraftWork MappingItem := do
  let clone ← ask (.ensureProblemDraftCloneDocument item contest request)
  let entry ← entryOf request.operationId
  let saved := entry.mapping.find? (·.sourceDocId == item.docId)
  raiseIf (saved.any (fun s => s.cloneDocId != clone.docId || s.clonePid != clone.pid) = true)
    (.draft .conflict)
  let current := saved.getD (.ofClone item clone)
  changeAndSave request.operationId fun e =>
    if saved.isSome then e else { e with mapping := e.mapping ++ [current] }
  ask (.populateAndVerifyProblemDraftClone item clone request)
  changeAndSave request.operationId fun e =>
    { e with mapping := markVerified item.docId e.mapping }
  return { current with verified := true }

def cloneProblems (request : DraftRequest) (contest : ContestDoc) :
    List Resolved → DraftWork (List MappingItem)
  | [] => return []
  | item :: rest => do
    let current ← cloneProblem request contest item
    return current :: (← cloneProblems request contest rest)

/- The contest takes the clones if it is still what the preflight saw, and has them else. -/
def switchContest (request : DraftRequest) (contestDocId : String) : DraftWork DraftResult := do
  let entry ← entryOf request.operationId
  let marker : FileIoMarker := {
    operationId := request.operationId, preflightId := request.preflightId,
    approvalId := request.approvalId, sourcePids := entry.sourcePids,
    targetPids := entry.targetPids }
  let updated ← ask (.findOneAndUpdate {
    docId := contestDocId, sourcePids := entry.sourcePids, sourceScore := entry.sourceScore,
    sourceBalloon := entry.sourceBalloon, targetScore := entry.targetScore,
    targetBalloon := entry.targetBalloon, marker })
  if updated.isNone then
    let found ← ask (.getContest request.tid)
    raiseIf (contestMatchesAppliedProblemDraft found entry = false) (.draft .conflict)
  let completedAt ← ask .now
  changeAndSave request.operationId fun e =>
    { e with complete := true, completedAt := some completedAt }
  return problemDraftResult (← entryOf request.operationId)

/- Every source is read and hashed again before the switch. -/
def confirmSources (request : DraftRequest) : DraftWork DraftResult := do
  let entry ← entryOf request.operationId
  let finalPreflight ← ask (.buildProblemDraftPreflight request.tid request.problems)
  raiseIf (finalPreflight.safeToApply = false ∨ finalPreflight.preflightId ≠ request.preflightId ∨
    finalPreflight.contest.pids ≠ entry.sourcePids) (.draft .conflict)
  let remainingRecords ← ask (.countRecords finalPreflight.contest.docId)
  raiseIf (0 < remainingRecords) (.draft (.blocked []))
  switchContest request finalPreflight.contest.docId

def cloneAndSwitch (request : DraftRequest) : DraftWork DraftResult := do
  let preflight ← ask (.buildProblemDraftPreflight request.tid request.problems)
  raiseIf (preflight.safeToApply = false) (.draft (.blocked preflight.blockers))
  raiseIf (preflight.preflightId ≠ request.preflightId) (.draft .conflict)
  let sourcePids := preflight.contest.pids
  let entry ← entryOf request.operationId
  raiseIf (entry.sourcePids ≠ [] ∧ entry.sourcePids ≠ sourcePids) (.draft .conflict)
  changeAndSave request.operationId fun e =>
    { e with sourcePids, hasScore := preflight.score.isSome, sourceScore := preflight.score,
             hasBalloon := preflight.balloon.isSome, sourceBalloon := preflight.balloon }
  let mapping ← cloneProblems request preflight.contest preflight.resolved
  raiseIf (mapping.any (!·.verified) = true) (.draft .conflict)
  let targetPids := mapping.map (·.cloneDocId)
  changeAndSave request.operationId fun e =>
    { e with mapping, targetPids,
             targetScore := remapPidRecord e.sourceScore e.sourcePids targetPids,
             targetBalloon := remapPidRecord e.sourceBalloon e.sourcePids targetPids }
  confirmSources request

/- The contest may have been switched by an attempt that died before it noted so. -/
def recoverApplied (request : DraftRequest) (entry : DraftEntry) : DraftWork DraftResult := do
  let applied ← ask (.getContest request.tid)
  if contestMatchesAppliedProblemDraft applied entry then
    let completedAt ← ask .now
    changeAndSave request.operationId fun e =>
      { e with complete := true, completedAt := some (e.completedAt.getD completedAt) }
    return problemDraftResult (← entryOf request.operationId)
  else
    raiseIf (applied.orchestratorFileIo.any (·.operationId == request.operationId) = true) (.draft .conflict)
    cloneAndSwitch request

/- The work of an apply request while it holds the contest. -/
def applyDraft (request : DraftRequest) : DraftWork DraftResult := do
  let entry ← entryOf request.operationId
  if entry.complete then validateComplete request
  else if entry.targetPids ≠ [] ∧ entry.mapping ≠ [] ∧ entry.mapping.all (·.verified) = true then
    recoverApplied request entry
  else cloneAndSwitch request

def DraftRequest.reservation (request : DraftRequest) (createdAt : String) : DraftEntry where
  operationId := request.operationId
  preflightId := request.preflightId
  approvalId := request.approvalId
  tid := request.tid
  fingerprint := problemDraftFingerprint request
  createdAt := createdAt

/- The operation id is reserved before any Hydro document is created. -/
def reserveOperation (request : DraftRequest) : DraftWork Unit := do
  if (← ask (.entry request.operationId)).isNone then
    ask (.insertEntry request.operationId (request.reservation (← ask .now)))
    ask .saveProblemDraftIdempotencyState

end NoiContest.HydroPlugin.Draft
