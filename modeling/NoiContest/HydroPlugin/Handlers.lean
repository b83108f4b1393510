import Mathlib.Data.Finset.Basic
import NoiContest.HydroPlugin.DraftApply

/- The three handlers of the plugin that change a contest, with the registries by which they
   keep out of each other's way. What the journals, the file system and Hydro answer is left
   open, so the handlers are read here for what they do with the registries on each path. -/
namespace NoiContest.HydroPlugin.Exclusion
open Flow Flow.Program Draft

structure Registries where
  contestSubmissionLeases : Dict String Nat := Dict.empty
  contestDraftMutations : Finset String := ∅
  contestMaterialMutations : Finset String := ∅

namespace Registries
variable (r : Registries) (tid : String)

/- A count of zero is falsy. -/
def leased : Bool := (r.contestSubmissionLeases.get? tid).any (· != 0)

def acquireContestSubmissionLease : Except Thrown Unit × Registries :=
  if tid ∈ r.contestDraftMutations ∨ tid ∈ r.contestMaterialMutations then
    (.error (.submit .problemDraftConflict), r)
  else
    (.ok (), { r with contestSubmissionLeases := r.contestSubmissionLeases.set tid
                        ((r.contestSubmissionLeases.get? tid).getD 0 + 1) })

/-- `contestSubmissionLeases.get(tid) || 1` -/
def leasesOrOne : Nat :=
  match r.contestSubmissionLeases.get? tid with
  | none | some 0 => 1
  | some count => count

def releaseContestSubmissionLease : Registries :=
  let remaining := r.leasesOrOne tid - 1
  if 0 < remaining then
    { r with contestSubmissionLeases := r.contestSubmissionLeases.set tid remaining }
  else { r with contestSubmissionLeases := r.contestSubmissionLeases.erase tid }

@[simp] theorem release_contestDraftMutations :
    (r.releaseContestSubmissionLease tid).contestDraftMutations = r.contestDraftMutations := by
  unfold releaseContestSubmissionLease
  dsimp only
  split <;> rfl

@[simp] theorem release_contestMaterialMutations :
    (r.releaseContestSubmissionLease tid).contestMaterialMutations =
      r.contestMaterialMutations := by
  unfold releaseContestSubmissionLease
  dsimp only
  split <;> rfl

theorem release_get? (tid' : String) :
    (r.releaseContestSubmissionLease tid).contestSubmissionLeases.get? tid' =
      if tid' = tid then
        if 0 < r.leasesOrOne tid - 1 then some (r.leasesOrOne tid - 1) else none
      else r.contestSubmissionLeases.get? tid' := by
  unfold releaseContestSubmissionLease
  dsimp only
  split
  · simp [Dict.get?_set]
  · simp [Dict.get?_erase]

def mutating : Bool :=
  tid ∈ r.contestDraftMutations || tid ∈ r.contestMaterialMutations || r.leased tid

def acquireContestDraftMutation : Except Thrown Unit × Registries :=
  if r.mutating tid then (.error (.draft .conflict), r)
  else (.ok (), { r with contestDraftMutations := insert tid r.contestDraftMutations })

def acquireContestMaterialMutation : Except Thrown Unit × Registries :=
  if r.mutating tid then (.error (.material .conflict), r)
  else (.ok (), { r with contestMaterialMutations := insert tid r.contestMaterialMutations })

end Registries

/-- The registry that a handler holds a contest in -/
inductive Registry where
  | lease | draft | material
  deriving DecidableEq, Repr

inductive SubmitCall where
  | entry (submissionId : String)
  | inFlight (submissionId : String)
  | setInFlight (submissionId fingerprint : String)
  | deleteInFlight (submissionId : String)
  | joined (promise : Nat)
  | getProblem (pid : String)
  | getContest (tid : String)
  | getStatus (tid : String) (uid : Int)
  | isOngoing (contest : HydroPlugin.ContestDoc) (attendance : Attendance)
  | now
  | getJournal (contestDocId : String) (uid : Int)
  | insertEntry (submissionId : String) (entry : Entry)
  | changeEntry (submissionId : String) (change : Entry → Entry)
  | saveIdempotencyState
  | addRecord (submission : Submission) (problemDocId : Int) (contestDocId : String)
  | updateStatus (contestDocId : String) (uid : Int) (rid : String) (problemDocId : Int)
  | incProblem (problemDocId : Int)
  | incUserInDomain (uid : Int)

abbrev SubmitAnswer : SubmitCall → Type
  | .entry _ => Option Entry
  | .inFlight _ => Option InFlight
  | .joined _ => String
  | .getProblem _ => Option Problem
  | .getContest _ => HydroPlugin.ContestDoc
  | .getStatus .. => Option Attendance
  | .isOngoing .. => Bool
  | .now => String
  | .getJournal .. => Option (List JournalItem)
  | .addRecord .. => Rid
  | _ => Unit

inductive MaterialCall where
  | entry (publicationId : String)
  | inFlight (publicationId : String)
  | setInFlight (publicationId fingerprint : String)
  | deleteInFlight (publicationId : String)
  | joined (publicationId : String)
  | now
  | timestamp
  | insertEntry (publicationId : String) (entry : MaterialEntry)
  | changeEntry (publicationId : String) (change : MaterialEntry → MaterialEntry)
  | saveMaterialIdempotencyState
  | getContest (tid : String)
  | putObject (path : String) (content : List UInt8)
  | getMeta (path : String)
  | getObject (path : String)
  | editContest (tid : String) (privateFiles : List PrivateFile) (marker : Marker)

abbrev MaterialAnswer : MaterialCall → Type
  | .entry _ => Option MaterialEntry
  | .inFlight _ => Option String
  | .joined _ => MaterialEntry
  | .now => Int
  | .timestamp => String
  | .getContest _ => Contest
  | .getMeta _ => Option FileMeta
  | .getObject _ => List UInt8
  | _ => Unit

inductive Call where
  | acquire (registry : Registry) (tid : String)
  | release (registry : Registry) (tid : String)
  | submit (c : SubmitCall)
  | draft (c : DraftCall)
  | material (c : MaterialCall)

abbrev Answer : Call → Type
  | .submit c => SubmitAnswer c
  | .draft c => DraftAnswer c
  | .material c => MaterialAnswer c
  | _ => Unit

abbrev SubmitWork := Program SubmitCall SubmitAnswer Thrown Thrown
abbrev MaterialWork := Program MaterialCall MaterialAnswer Thrown Thrown
abbrev Handler := Program Call Answer Thrown Thrown

/- Submit -/

section Submit

def post (c : SubmitCall) : SubmitWork (SubmitAnswer c) := perform c

def refuse {α : Type} (failure : Failure) : SubmitWork α := Program.raise (.submit failure)

def storedEntry (submissionId : String) : SubmitWork Entry := do
  match ← post (.entry submissionId) with
  | some entry => return entry
  | none => refuse .typeError

/- One flag of the entry, and the journal behind it. -/
def noteEntry (submissionId : String) (change : Entry → Entry) : SubmitWork Unit := do
  post (.changeEntry submissionId change)
  post .saveIdempotencyState

/- A recovery does not call updateStatus without evidence that it was called before. -/
def recoverStatus (submissionId contestDocId : String) (problemDocId uid : Int) :
    SubmitWork Unit := do
  let items ← post (.getJournal contestDocId uid)
  let rid := (← storedEntry submissionId).rid
  raiseIf ((existingSubmissionJournal rid problemDocId items).isNone = true)
    (.submit .submissionAmbiguous)
  noteEntry submissionId fun e => { e with statusUpdated := true }

def completeSubmissionEntry (submissionId contestDocId : String) (problemDocId uid : Int)
    (recovering : Bool) : SubmitWork String := do
  let entry ← storedEntry submissionId
  if !entry.statusUpdated && recovering then
    recoverStatus submissionId contestDocId problemDocId uid
  if !(← storedEntry submissionId).statusUpdated then
    post (.updateStatus contestDocId uid entry.rid problemDocId)
    noteEntry submissionId fun e => { e with statusUpdated := true }
  if !(← storedEntry submissionId).problemCounted then
    post (.incProblem problemDocId)
    noteEntry submissionId fun e => { e with problemCounted := true }
  if !(← storedEntry submissionId).userCounted then
    post (.incUserInDomain uid)
    noteEntry submissionId fun e => { e with userCounted := true }
  noteEntry submissionId fun e => { e with complete := true }
  return (← storedEntry submissionId).rid

def recoveryProblem (submission : Submission) : Option Int → SubmitWork Int
  | some problemDocId => return problemDocId
  | none => do
    match ← post (.getProblem submission.pid) with
    | none => refuse .problemNotFound
    | some problem => return problem.docId

def recoveryContest (submission : Submission) : Option String → SubmitWork String
  | some contestDocId => return contestDocId
  | none => return (← post (.getContest submission.tid)).docId

def recover (submission : Submission) : SubmitWork String := do
  let persisted ← storedEntry submission.submissionId
  let problemDocId ← recoveryProblem submission persisted.problemDocId
  let contestDocId ← recoveryContest submission persisted.contestDocId
  noteEntry submission.submissionId fun e =>
    { e with problemDocId := some problemDocId, contestDocId := some contestDocId,
             uid := some submission.uid }
  completeSubmissionEntry submission.submissionId contestDocId problemDocId submission.uid true

/- The promise is in the map while its owner awaits it. It is put there in the stretch of the
   event loop in which the work starts. -/
def shared (submission : Submission) (work : SubmitWork String) : SubmitWork String := do
  post (.setInFlight submission.submissionId submission.fingerprint)
  work.andFinally (post (.deleteInFlight submission.submissionId))

def addSubmission (submission : Submission) (problem : Problem)
    (contest : HydroPlugin.ContestDoc) : SubmitWork String := do
  if (← post (.entry submission.submissionId)).isNone then
    let createdAt ← post .now
    post (.insertEntry submission.submissionId (submission.reservation problem contest createdAt))
    post .saveIdempotencyState
    let rid ← post (.addRecord submission problem.docId contest.docId)
    noteEntry submission.submissionId fun e =>
      { e with rid := rid.text, phase := .recordCreated }
  completeSubmissionEntry submission.submissionId contest.docId problem.docId submission.uid false

/- All that a new submission does while it holds its lease. -/
def submitUnderLease (settings : Settings) (submission : Submission) : SubmitWork String := do
  match ← post (.getProblem submission.pid) with
  | none => refuse .problemNotFound
  | some problem =>
    let contest ← post (.getContest submission.tid)
    raiseIf ((contest.pids.any (·.contains problem.docId)) = false) (.submit .problemNotFound)
    let status ← post (.getStatus submission.tid submission.uid)
    let attendance ← ofExcept
      ((checkEligible settings submission problem contest status).mapError Thrown.submit)
    let current ← post (.entry submission.submissionId)
    raiseIf (fingerprintDiffers submission.fingerprint (current.map (·.fingerprint)) = true)
      (.submit .submissionConflict)
    let active ← post (.inFlight submission.submissionId)
    raiseIf (fingerprintDiffers submission.fingerprint (active.map (·.fingerprint)) = true)
      (.submit .submissionConflict)
    let ongoing ← post (.isOngoing contest attendance)
    raiseIf (current = none ∧ active = none ∧
      outsideWindow submission contest attendance ongoing = true) (.submit .contestNotLive)
    match active with
    | some active => post (.joined active.promise)
    | none => shared submission (addSubmission submission problem contest)

end Submit

/- Materials -/

section Material
variable (settings : MaterialSettings)

def publishing (c : MaterialCall) : MaterialWork (MaterialAnswer c) := perform c

def judged {α : Type} (check : Except MaterialFailure α) : MaterialWork α :=
  ofExcept (check.mapError Thrown.material)

def noteMaterial (publicationId : String) (change : MaterialEntry → MaterialEntry) :
    MaterialWork Unit := do
  publishing (.changeEntry publicationId change)
  publishing .saveMaterialIdempotencyState

def verifyStored (tdoc : Contest) (tid : String) (expected : Declared) : MaterialWork Bool := do
  match tdoc.privateFiles.filter (·.name == expected.name) with
  | [file] =>
    if file.size ≠ expected.size then return false
    else
      let source ← publishing (.getObject (materialStoragePath settings.domain tid expected.name))
      let actual ← judged (exactStreamSha256 source settings.maxBytes)
      return actual.2 == expected.size && actual.1 == expected.sha256
  | _ => return false

def verifyAllStored (tdoc : Contest) (tid : String) : List Declared → MaterialWork Bool
  | [] => return true
  | expected :: rest => do
    if ← verifyStored settings tdoc tid expected then verifyAllStored tdoc tid rest
    else return false

def verifyPublishedMaterials (tdoc : Contest) (entry : MaterialEntry) : MaterialWork Bool :=
  match tdoc.orchestratorMaterials with
  | none => return false
  | some marker =>
    if markerMatches marker entry then verifyAllStored settings tdoc entry.tid entry.attachments
    else return false

/- One attachment is put, and what the storage says of it is compared. -/
def uploadAttachment (tid publicationId : String) (attachment : Attachment) :
    MaterialWork PrivateFile := do
  let target := materialStoragePath settings.domain tid attachment.name
  publishing (.putObject target attachment.content)
  match ← publishing (.getMeta target) with
  | none => Program.raise (.material .conflict)
  | some fileMeta =>
    raiseIf (fileMeta.size ≠ attachment.size) (.material .conflict)
    let source ← publishing (.getObject target)
    let verified ← judged (exactStreamSha256 source settings.maxBytes)
    raiseIf (verified.2 ≠ attachment.size ∨ verified.1 ≠ attachment.sha256) (.material .conflict)
    let entry ← publishing (.entry publicationId)
    if !(entry.any (·.uploaded.contains attachment.name)) then
      noteMaterial publicationId (·.noted attachment.name)
    return uploadedFile attachment fileMeta

def uploadAll (tid publicationId : String) : List Attachment → MaterialWork (List PrivateFile)
  | [] => return []
  | attachment :: rest => do
    let file ← uploadAttachment settings tid publicationId attachment
    return file :: (← uploadAll tid publicationId rest)

def commitUnderMutation (request : MaterialRequest settings.maxBytes) (entry : MaterialEntry)
    (previousMarker : Option Marker) (publishedFiles : List PrivateFile) : MaterialWork Unit := do
  let tdoc ← publishing (.getContest request.tid)
  judged (commitChecks tdoc (← publishing .now) previousMarker)
  publishing (.editContest request.tid (unreserved tdoc ++ publishedFiles)
    (materialMarker request (materialPublicationFingerprint request)))
  let applied ← publishing (.getContest request.tid)
  raiseIf ((← verifyPublishedMaterials settings applied entry) = false) (.material .conflict)
  let completedAt ← publishing .timestamp
  noteMaterial request.publicationId fun e =>
    { e with complete := true, completedAt := some completedAt }

def uploadAndCommit (request : MaterialRequest settings.maxBytes) (entry : MaterialEntry)
    (tdoc : Contest) : MaterialWork Unit := do
  raiseIf (filesFit tdoc.orchestratorMaterials tdoc = false) (.material .conflict)
  let publishedFiles ← uploadAll settings request.tid request.publicationId request.attachments
  commitUnderMutation settings request entry tdoc.orchestratorMaterials publishedFiles

/- All that a publication does while it holds the contest. -/
def publishUnderMutation (request : MaterialRequest settings.maxBytes) (entry : MaterialEntry) :
    MaterialWork Unit := do
  let tdoc ← publishing (.getContest request.tid)
  raiseIf (started tdoc (← publishing .now) = true) (.material .blocked)
  raiseIf (tdoc.rule ≠ "oi") (.material (.badRequest "orchestrator material contest rule"))
  match tdoc.orchestratorMaterials with
  | none => uploadAndCommit settings request entry tdoc
  | some previousMarker =>
    if ← verifyPublishedMaterials settings tdoc entry then
      let completedAt ← publishing .timestamp
      noteMaterial request.publicationId fun e =>
        { e with complete := true, completedAt := some (e.completedAt.getD completedAt) }
    else
      raiseIf (isOwnedMaterialMarker settings previousMarker = false) (.material .conflict)
      uploadAndCommit settings request entry tdoc

def reserveMaterial (request : MaterialRequest settings.maxBytes) (fingerprint : String) :
    Option MaterialEntry → MaterialWork MaterialEntry
  | some entry => return entry
  | none => do
    let entry := request.reservation fingerprint (← publishing .timestamp)
    publishing (.insertEntry request.publicationId entry)
    publishing .saveMaterialIdempotencyState
    return entry

end Material

/- The handlers -/

section Handlers

def asks {α : Type} (work : SubmitWork α) : Handler α := work.lift Call.submit
def drafts {α : Type} (work : DraftWork α) : Handler α := work.lift Call.draft
def publishes {α : Type} (work : MaterialWork α) : Handler α := work.lift Call.material

def acquire (registry : Registry) (tid : String) : Handler Unit :=
  perform (Call.acquire registry tid)

def release (registry : Registry) (tid : String) : Handler Unit :=
  perform (Call.release registry tid)

/- What cannot be acquired is not released either. -/
def holding {α : Type} (registry : Registry) (tid : String) (work : Handler α) : Handler α := do
  acquire registry tid
  work.andFinally (release registry tid)

/-- `OrchestratorSubmitHandler.post` -/
def submitHandler (settings : Settings) (body : SubmitBody) : Handler String := do
  let submission ← ofExcept ((body.validate settings).mapError Thrown.submit)
  let persisted ← asks (post (.entry submission.submissionId))
  raiseIf (fingerprintDiffers submission.fingerprint (persisted.map (·.fingerprint)) = true)
    (.submit .submissionConflict)
  let pending ← asks (post (.inFlight submission.submissionId))
  raiseIf (fingerprintDiffers submission.fingerprint (pending.map (·.fingerprint)) = true)
    (.submit .submissionConflict)
  match pending, persisted with
  | some pending, _ => asks (post (.joined pending.promise))
  | none, some entry =>
    if entry.complete then return entry.rid
    else if entry.rid = "" then Program.raise (.submit .submissionAmbiguous)
    else asks (shared submission (recover submission))
  | none, none => holding .lease submission.tid (asks (submitUnderLease settings submission))

/-- The apply action of `OrchestratorProblemFileIoHandler.post`. The work belongs to the request
    that starts it, and others of the operation await it. -/
def draftHandler (request : DraftRequest) : Handler DraftResult := do
  let fingerprint := problemDraftFingerprint request
  let entry ← drafts (ask (.entry request.operationId))
  raiseIf (entry.any (·.fingerprint != fingerprint) = true) (.draft .conflict)
  let active ← drafts (ask (.inFlight request.operationId))
  raiseIf (active.any (· != fingerprint) = true) (.draft .conflict)
  if entry.any (·.complete) then drafts (validateComplete request)
  else
    match active with
    | some _ => drafts (ask (.joined request.operationId))
    | none => do
      drafts (ask (.setInFlight request.operationId fingerprint))
      let work : Handler DraftResult := do
        drafts (reserveOperation request)
        holding .draft request.tid (drafts (applyDraft request))
      work.andFinally (drafts (ask (.deleteInFlight request.operationId)))

/-- `OrchestratorMaterialHandler.post` -/
def materialHandler (settings : MaterialSettings) (body : MaterialBody) : Handler Unit := do
  raiseIf (materialTokenMatches settings body.headerToken = false) (.material .invalidToken)
  let request ← ofExcept ((body.parse settings).mapError Thrown.material)
  let fingerprint := materialPublicationFingerprint request
  raiseIf (request.publicationId ≠ fingerprint)
    (.material (.badRequest "orchestrator material publication id"))
  let entry ← publishes (publishing (.entry request.publicationId))
  raiseIf (entry.any (·.fingerprint != fingerprint) = true) (.material .conflict)
  let active ← publishes (publishing (.inFlight request.publicationId))
  raiseIf (active.any (· != fingerprint) = true) (.material .conflict)
  match active with
  | some _ =>
    let _ ← publishes (publishing (.joined request.publicationId))
    return
  | none =>
    publishes (publishing (.setInFlight request.publicationId fingerprint))
    let work : Handler Unit := do
      let entry ← publishes (reserveMaterial settings request fingerprint entry)
      holding .material request.tid (publishes (publishUnderMutation settings request entry))
    work.andFinally (publishes (publishing (.deleteInFlight request.publicationId)))

end Handlers

end NoiContest.HydroPlugin.Exclusion
