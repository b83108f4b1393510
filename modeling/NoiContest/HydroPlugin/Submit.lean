import NoiContest.HydroPlugin.Journal

/- The submit and submission-status endpoints. A request is suspended at each await, and what
   it awaits is its phase; a section runs from one await to the next without interruption. -/
namespace NoiContest.HydroPlugin

inductive SubmissionKind where
  | final | realtime
  deriving DecidableEq, Repr

/- Request fields after the String and Number conversions of the handler. -/
structure SubmitBody where
  headerToken : Option String
  tid : String
  uid : Int
  pid : String
  code : String
  lang : String
  submissionId : String
  submissionKind : String
  acceptedAtMs : Int
  deriving DecidableEq, Repr

structure Submission where
  tid : String
  uid : Int
  pid : String
  lang : String
  normalized : String
  kind : SubmissionKind
  acceptedAtMs : Int
  submissionId : String
  fingerprint : String
  deriving DecidableEq, Repr

structure Problem where
  docId : Int
  langs : Option (List String)
  deriving DecidableEq, Repr

structure ContestDoc where
  docId : String
  pids : Option (List Int)
  rule : String
  beginAt : Option Int
  endAt : Option Int
  duration : Option Rat
  deriving DecidableEq, Repr

structure Attendance where
  startAt : Option Int
  endAt : Option Int
  deriving DecidableEq, Repr

structure JournalItem where
  rid : String
  pid : Int
  status : Int
  score : Rat
  deriving DecidableEq, Repr

/- The fields of a Hydro record that the resolver reads. -/
structure Record where
  id : Rid
  domainId : String
  contest : String
  pid : Int
  uid : Int
  lang : String
  code : String
  orchestratorSubmissionId : String
  orchestratorPayloadSha256 : String
  judged : Bool
  status : Option Int
  score : Option Rat
  deriving DecidableEq

inductive Resolution where
  | unknown | unsupported | missing | multiple | pending | resolved (rid : String)
  deriving DecidableEq, Repr

inductive Reply where
  | rid (rid : String) | resolution (resolution : Resolution)
  deriving DecidableEq, Repr

inductive Lookup where
  | problem | contest (problem : Problem) | attendance (problem : Problem) (contest : ContestDoc)
  deriving DecidableEq, Repr

inductive Recovery where
  | problem | contest (problemDocId : Int)
  deriving DecidableEq, Repr

/-- What one run of completeSubmissionEntry works on. -/
structure Job where
  submissionId : String
  entry : Nat
  rid : String
  contestDocId : String
  problemDocId : Int
  uid : Int
  forStatus : Bool
  deriving DecidableEq, Repr

inductive Completion where
  | journal | status | problem | user
  deriving DecidableEq, Repr

inductive Phase where
  | lookingUp (submission : Submission) (stage : Lookup)
  | recovering (submission : Submission) (entry : Nat) (stage : Recovery)
  | adding (submission : Submission) (entry call : Nat) (contestDocId : String) (problemDocId : Int)
  | completing (job : Job) (stage : Completion)
  | finding (submissionId : String) (entry : Nat)
  | correlating (submissionId : String) (entry : Nat) (candidate : Record)
  | joined (promise : Nat)
  | settled (outcome : Except Failure Reply)
  | finished (outcome : Except Failure Reply)

/- What the awaited call of Hydro came back with. -/
inductive Answer where
  | problem (problem : Option Problem)
  | contest (contest : ContestDoc)
  | attendance (attendance : Option Attendance) (ongoing : Bool) (createdAt : String)
  | added (rid : Rid)
  | done
  | candidates (records : List Record)
  | journal (items : Option (List JournalItem))
  | failed

/-- `code.replace(/\r\n/g, "\n")` -/
def normalizeNewlines : List Char → List Char
  | '\r' :: '\n' :: rest => '\n' :: normalizeNewlines rest
  | c :: rest => c :: normalizeNewlines rest
  | [] => []

def payloadFingerprint (tid : String) (uid : Int) (pid lang code : String) : String :=
  Sha256.ofText (JsonText.dumps (.arr [.str tid, .int uid, .str pid, .str lang, .str code]))

def startsWith (front text : List Char) : Bool := text.take front.length == front

def includes (part text : List Char) : Bool := text.tails.any (startsWith part)

def pickCc14 (settings : Settings) : String :=
  let keys := (settings.langs.filter fun lang => !lang.2).map Prod.fst
  ((keys.find? (· == "cc.cc14o2")).or <| (keys.find? (· == "cc.cc14")).or <|
    (keys.find? fun key => startsWith ['c', 'c'] key.toList && includes ['1', '4'] key.toList).or <|
    keys.find? (· == "cc")).getD "cc"

def isSafeInteger (n : Int) : Bool := -(2 ^ 53 - 1) ≤ n && n ≤ 2 ^ 53 - 1

def tokenMatches (settings : Settings) (headerToken : Option String) : Bool :=
  settings.token != "" && headerToken == some settings.token

def kindOf (submissionKind : String) : Option SubmissionKind :=
  if submissionKind = "" ∨ submissionKind = "final" then some .final
  else if submissionKind = "realtime" then some .realtime
  else none

def SubmitBody.validate (settings : Settings) (body : SubmitBody) : Except Failure Submission :=
  if !tokenMatches settings body.headerToken then .error .invalidToken
  else
    match kindOf body.submissionKind with
    | none => .error (.badRequest "orchestrator payload")
    | some kind =>
      if !settings.isObjectId body.tid.toLower || !isSafeInteger body.uid || body.uid ≤ 0 ||
          body.pid == "" || body.code == "" ||
          (kind == .realtime && body.acceptedAtMs != 0 &&
            (!isSafeInteger body.acceptedAtMs || body.acceptedAtMs ≤ 0)) ||
          !PyText.isLowerHexOf 64 body.submissionId then
        .error (.badRequest "orchestrator payload")
      else if settings.maxCodeBytes < body.code.utf8ByteSize then .error .codeTooLarge
      else
        let tid := body.tid.toLower
        let lang := if body.lang = "" then pickCc14 settings else body.lang
        let normalized := String.ofList (normalizeNewlines body.code.toList)
        .ok { tid, uid := body.uid, pid := body.pid, lang, normalized, kind,
              acceptedAtMs := body.acceptedAtMs, submissionId := body.submissionId,
              fingerprint := payloadFingerprint tid body.uid body.pid lang normalized }

def acceptedAtInContestWindow (contest : ContestDoc) (attendance : Attendance)
    (acceptedAtMs : Int) : Bool :=
  match contest.beginAt, contest.endAt with
  | some globalBegin, some globalEnd =>
    let beginAt := match attendance.startAt with
      | none => globalBegin
      | some personal => max globalBegin personal
    let personalEnd := match attendance.endAt with
      | none => globalEnd
      | some personal => min globalEnd personal
    let endAt := match attendance.startAt, contest.duration with
      | some personal, some hours =>
        if 0 < hours then min personalEnd (personal + ⌊hours * 60 * 60 * 1000⌋) else personalEnd
      | _, _ => personalEnd
    beginAt ≤ acceptedAtMs && acceptedAtMs < endAt
  | _, _ => false

/- The checks on what the lookups returned, up to the second reading of the journal. -/
def checkEligible (settings : Settings) (submission : Submission) (problem : Problem)
    (contest : ContestDoc) : Option Attendance → Except Failure Attendance
  | none => .error .contestNotAttended
  | some attendance =>
    if submission.kind = .realtime ∧ contest.rule ≠ "oi" then
      .error (.badRequest "orchestrator contest rule")
    else
      let disabled := (settings.langs.lookup submission.lang).getD true
      let allowed := match problem.langs with
        | some (lang :: rest) => (lang :: rest).contains submission.lang
        | _ => true
      if disabled || !allowed then .error (.badRequest "orchestrator language")
      else .ok attendance

def outsideWindow (submission : Submission) (contest : ContestDoc) (attendance : Attendance)
    (ongoing : Bool) : Bool :=
  submission.kind == .realtime &&
    if 0 < submission.acceptedAtMs then
      !(isSafeInteger submission.acceptedAtMs &&
        acceptedAtInContestWindow contest attendance submission.acceptedAtMs)
    else !ongoing

def liftCheck {α : Type} : Except Failure α → Section α
  | .ok a => return a
  | .error failure => raise failure

/- A failed promise is an outcome, a dead process is not. -/
def settleWork (work : Section Phase) : Section Phase :=
  tryCatch work fun
    | .crash => throw .crash
    | .raised failure => return .settled (.error failure)

def finishEntry (settings : Settings) (job : Job) : Section Phase := do
  modifyEntry job.entry fun e => { e with complete := true }
  saveIdempotencyState settings
  let rid := (← readEntry job.entry).rid
  return .settled (.ok (if job.forStatus then .resolution (.resolved rid) else .rid rid))

def countUser (settings : Settings) (job : Job) : Section Phase := do
  if (← readEntry job.entry).userCounted then finishEntry settings job
  else return .completing job .user

def countProblem (settings : Settings) (job : Job) : Section Phase := do
  if (← readEntry job.entry).problemCounted then countUser settings job
  else return .completing job .problem

def updateStatus (settings : Settings) (job : Job) : Section Phase := do
  if (← readEntry job.entry).statusUpdated then countProblem settings job
  else
    callUpdateStatus job.submissionId job.rid
    return .completing job .status

def completeSubmissionEntry (settings : Settings) (job : Job) (recovering : Bool) :
    Section Phase := do
  let entry ← readEntry job.entry
  let job := { job with rid := entry.rid }
  if !entry.statusUpdated && recovering then return .completing job .journal
  else updateStatus settings job

/-- `existingSubmissionJournal` over the fetched status document -/
def existingSubmissionJournal (rid : String) (problemDocId : Int) :
    Option (List JournalItem) → Option JournalItem
  | none => none
  | some items =>
    match items.filter fun item => item.rid == rid && item.pid == problemDocId with
    | [item] => some item
    | _ => none

/- Each await of completeSubmissionEntry, resumed with its answer. -/
def resumeCompletion (settings : Settings) (job : Job) : Completion → Answer → Section Phase
  | .journal, .journal items => settleWork do
      let rid := (← readEntry job.entry).rid
      match existingSubmissionJournal rid job.problemDocId items with
      | none => raise .submissionAmbiguous
      | some _ =>
        modifyEntry job.entry fun e => { e with statusUpdated := true }
        saveIdempotencyState settings
        updateStatus settings job
  | .status, .done => settleWork do
      modifyEntry job.entry fun e => { e with statusUpdated := true }
      saveIdempotencyState settings
      countProblem settings job
  | .problem, .done => settleWork do
      modifyEntry job.entry fun e => { e with problemCounted := true }
      saveIdempotencyState settings
      countUser settings job
  | .user, .done => settleWork do
      modifyEntry job.entry fun e => { e with userCounted := true }
      saveIdempotencyState settings
      finishEntry settings job
  | _, .failed => return .settled (.error .hydro)
  | stage, _ => return .completing job stage

def Submission.job (submission : Submission) (entry : Nat) (contestDocId : String)
    (problemDocId : Int) : Job where
  submissionId := submission.submissionId
  entry := entry
  rid := ""
  contestDocId := contestDocId
  problemDocId := problemDocId
  uid := submission.uid
  forStatus := false

def recoverWith (settings : Settings) (submission : Submission) (entry : Nat)
    (problemDocId : Int) (contestDocId : String) : Section Phase := do
  modifyEntry entry fun e =>
    { e with problemDocId := some problemDocId, contestDocId := some contestDocId,
             uid := some submission.uid }
  saveIdempotencyState settings
  completeSubmissionEntry settings (submission.job entry contestDocId problemDocId) true

def recoverContest (settings : Settings) (submission : Submission) (entry : Nat)
    (problemDocId : Int) : Section Phase := do
  match (← readEntry entry).contestDocId with
  | none => return .recovering submission entry (.contest problemDocId)
  | some contestDocId => recoverWith settings submission entry problemDocId contestDocId

def recover (settings : Settings) (submission : Submission) (entry : Nat) : Section Phase := do
  match (← readEntry entry).problemDocId with
  | none => return .recovering submission entry .problem
  | some problemDocId => recoverContest settings submission entry problemDocId

def Submission.reservation (submission : Submission) (problem : Problem) (contest : ContestDoc)
    (createdAt : String) : Entry where
  fingerprint := submission.fingerprint
  contestDocId := some contest.docId
  problemDocId := some problem.docId
  publicPid := some submission.pid
  uid := some submission.uid
  lang := some submission.lang
  createdAt := createdAt

def reserveAndAdd (settings : Settings) (submission : Submission) (problem : Problem)
    (contest : ContestDoc) (createdAt : String) : Section Phase := do
  let entry ← insertEntry submission.submissionId
    (submission.reservation problem contest createdAt)
  saveIdempotencyState settings
  let call ← callAdd submission.submissionId entry
  return .adding submission entry call contest.docId problem.docId

def setInFlight (submissionId : String) (flight : InFlight) : Section Unit :=
  modifyJournal fun j => { j with inFlight := j.inFlight.set submissionId flight }

def fingerprintDiffers (fingerprint : String) (known : Option String) : Bool :=
  known.any (· != fingerprint)

/- The stretch after the last lookup: the journal and the in-flight map are read again. -/
def submitLookedUp (settings : Settings) (self : Nat) (submission : Submission)
    (problem : Problem) (contest : ContestDoc) (attendance : Option Attendance) (ongoing : Bool)
    (createdAt : String) : Section Phase := do
  let attendance ← liftCheck (checkEligible settings submission problem contest attendance)
  let j ← readJournal
  if fingerprintDiffers submission.fingerprint
      ((j.entryOf submission.submissionId).map (·.fingerprint)) then
    raise .submissionConflict
  else if fingerprintDiffers submission.fingerprint
      ((j.inFlight.get? submission.submissionId).map (·.fingerprint)) then
    raise .submissionConflict
  else
    match j.inFlight.get? submission.submissionId, j.entries.get? submission.submissionId with
    | some active, _ => return .joined active.promise
    | none, some entry =>
      let phase ← settleWork (completeSubmissionEntry settings
        (submission.job entry contest.docId problem.docId) false)
      setInFlight submission.submissionId ⟨submission.fingerprint, self⟩
      return phase
    | none, none =>
      if outsideWindow submission contest attendance ongoing then raise .contestNotLive
      else
        let phase ← settleWork (reserveAndAdd settings submission problem contest createdAt)
        setInFlight submission.submissionId ⟨submission.fingerprint, self⟩
        return phase

/- From the arrival of a POST to its first await. -/
def submit (settings : Settings) (self : Nat) (body : SubmitBody) (contestLocked : Bool) :
    Section Phase := do
  let submission ← liftCheck (body.validate settings)
  let j ← readJournal
  if fingerprintDiffers submission.fingerprint
      ((j.entryOf submission.submissionId).map (·.fingerprint)) then
    raise .submissionConflict
  else if fingerprintDiffers submission.fingerprint
      ((j.inFlight.get? submission.submissionId).map (·.fingerprint)) then
    raise .submissionConflict
  else
    match j.inFlight.get? submission.submissionId, j.entries.get? submission.submissionId with
    | some pending, _ => return .joined pending.promise
    | none, some entry =>
      let persisted ← readEntry entry
      if persisted.complete then return .finished (.ok (.rid persisted.rid))
      else if persisted.rid = "" then raise .submissionAmbiguous
      else
        let phase ← settleWork (recover settings submission entry)
        setInFlight submission.submissionId ⟨submission.fingerprint, self⟩
        return phase
    | none, none =>
      -- Other routes lock the contest while they change its problems or materials.
      if contestLocked then raise .problemDraftConflict
      else return .lookingUp submission .problem

def attachRid (settings : Settings) (submission : Submission) (entry call : Nat)
    (contestDocId : String) (problemDocId : Int) (rid : Rid) : Section Phase := do
  endAdd call (.returned rid)
  modifyEntry entry fun e => { e with rid := rid.text, phase := .recordCreated }
  saveIdempotencyState settings
  completeSubmissionEntry settings (submission.job entry contestDocId problemDocId) false

def truthy (text : Option String) : Bool := text.any (· != "")

def recordMatchesSubmissionEntry (settings : Settings) (record : Record) (submissionId : String)
    (entry : Entry) : Bool :=
  match entry.publicPid, entry.lang, entry.contestDocId, entry.uid, entry.problemDocId with
  | some publicPid, some lang, some contestDocId, some uid, some problemDocId =>
    publicPid != "" && lang != "" &&
    record.domainId == settings.domain && record.contest == contestDocId && record.pid == problemDocId &&
    record.uid == uid && record.lang == lang &&
    payloadFingerprint contestDocId uid publicPid lang
      (String.ofList (normalizeNewlines record.code.toList)) == entry.fingerprint &&
    record.orchestratorSubmissionId == submissionId &&
    record.orchestratorPayloadSha256 == entry.fingerprint && record.judged
  | _, _, _, _, _ => false

def resolution (r : Resolution) : Phase := .settled (.ok (.resolution r))

/- resolveAmbiguousSubmission up to the record query. -/
def resolveAmbiguousSubmission (submissionId : String) (ref : Nat) : Section Phase := do
  let entry ← readEntry ref
  if !truthy entry.publicPid || !truthy entry.lang then
    if entry.complete && entry.rid != "" then return resolution (.resolved entry.rid)
    else return resolution .unsupported
  else return .finding submissionId ref

def resumeFinding (settings : Settings) (submissionId : String) (ref : Nat)
    (records : List Record) : Section Phase := do
  let entry ← readEntry ref
  match records with
  | [] => return resolution .missing
  | [candidate] =>
    if !recordMatchesSubmissionEntry settings candidate submissionId entry then
      return resolution .pending
    else if entry.rid != "" && entry.rid != candidate.id.text then return resolution .multiple
    else return .correlating submissionId ref candidate
  | _ => return resolution .multiple

def resumeCorrelating (settings : Settings) (submissionId : String) (ref : Nat)
    (candidate : Record) (items : Option (List JournalItem)) : Section Phase := do
  let entry ← readEntry ref
  match existingSubmissionJournal candidate.id.text (entry.problemDocId.getD 0) items with
  | none => return resolution .pending
  | some item =>
    if some item.status ≠ candidate.status ∨ some item.score ≠ candidate.score then
      return resolution .pending
    else if entry.complete && entry.rid != "" then
      return resolution (.resolved candidate.id.text)
    else
      modifyEntry ref fun e =>
        { e with rid := candidate.id.text, phase := .recordCreated, statusUpdated := true }
      saveIdempotencyState settings
      completeSubmissionEntry settings
        { submissionId, entry := ref, rid := "", contestDocId := entry.contestDocId.getD "",
          problemDocId := entry.problemDocId.getD 0, uid := entry.uid.getD 0,
          forStatus := true } false

def setResolving (submissionId : String) (promise : Nat) : Section Unit :=
  modifyJournal fun j => { j with resolving := j.resolving.set submissionId promise }

def submissionStatus (settings : Settings) (self : Nat) (headerToken : Option String)
    (submissionId : String) : Section Phase := do
  if !tokenMatches settings headerToken then raise .invalidToken
  else if !PyText.isLowerHexOf 64 submissionId then
    raise (.badRequest "orchestrator submission status")
  else
    let j ← readJournal
    match j.entries.get? submissionId, j.resolving.get? submissionId with
    | none, _ => return .finished (.ok (.resolution .unknown))
    | some _, some active => return .joined active
    | some entry, none =>
      let phase ← settleWork (resolveAmbiguousSubmission submissionId entry)
      setResolving submissionId self
      return phase

/- One await returns. An answer that belongs to another call leaves the request waiting. -/
def resume (settings : Settings) (self : Nat) : Phase → Answer → Section Phase
  | .lookingUp submission .problem, .problem (some problem) =>
      return .lookingUp submission (.contest problem)
  | .lookingUp _ .problem, .problem none => raise .problemNotFound
  | .lookingUp submission (.contest problem), .contest contest =>
      if contest.pids.any (·.contains problem.docId) then
        return .lookingUp submission (.attendance problem contest)
      else raise .problemNotFound
  | .lookingUp submission (.attendance problem contest), .attendance attendance ongoing createdAt =>
      submitLookedUp settings self submission problem contest attendance ongoing createdAt
  | .lookingUp .., .failed => raise .hydro
  | .recovering submission entry .problem, .problem (some problem) =>
      settleWork (recoverContest settings submission entry problem.docId)
  | .recovering .., .problem none => return .settled (.error .problemNotFound)
  | .recovering submission entry (.contest problemDocId), .contest contest =>
      settleWork (recoverWith settings submission entry problemDocId contest.docId)
  | .recovering .., .failed => return .settled (.error .hydro)
  | .adding submission entry call contestDocId problemDocId, .added rid =>
      settleWork (attachRid settings submission entry call contestDocId problemDocId rid)
  | .adding _ _ call _ _, .failed => do
      endAdd call .threw
      return .settled (.error .hydro)
  | .completing job stage, answer => resumeCompletion settings job stage answer
  | .finding submissionId entry, .candidates records =>
      settleWork (resumeFinding settings submissionId entry records)
  | .finding .., .failed => return .settled (.error .hydro)
  | .correlating submissionId entry candidate, .journal items =>
      settleWork (resumeCorrelating settings submissionId entry candidate items)
  | .correlating .., .failed => return .settled (.error .hydro)
  | phase, _ => return phase

end NoiContest.HydroPlugin
