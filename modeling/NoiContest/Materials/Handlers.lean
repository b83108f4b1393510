import NoiContest.Materials.Tables
import NoiContest.Pipeline.Calls

/- The procedures that bring materials into a contest: registration, generation of a release by
   a job, staging of an upload, and approval, which publishes on the OJ and then promotes the
   revision in the store. -/
namespace NoiContest.Materials
open Flow JsonText
open Pipeline (Raised)

/- Work on files, Hydro documents and generated sources that gives nothing back. -/
inductive OutsideStep where
  | audit (action : String)
  | checkRegistration
  | readUploads
  | verifyReusableManualFiles
  | savePaper
  | saveTestdata
  | writeManifest
  | verifyRelease (rootPath : String)
  | verifyTestdata
  | startWorker
  | validatePreflight
  | generationGates
  | cloneGates
  deriving DecidableEq, Repr

structure PublicationRequest where
  tid : String
  revision : String
  paperSha256 : String
  testdataSha256 : String
  deriving DecidableEq, Repr

structure Release where
  revision : String
  content : RevisionContent
  deriving DecidableEq, Repr

/- `lifecycle` stands for the rest of the service, which moves the contest's state and brings or
   removes its seats and submissions. -/
inductive MaterialCall where
  | getContest
  | hasEvidence
  | upsertContest (registration : Registration)
  | clearMaterialSelection
  | setPaper (name sha256 : String) (size : Int)
  | setTestdata (name sha256 : String) (size files expandedSize : Int)
  | putArtifactRevision (revision : String) (state : RevisionState) (content : RevisionContent)
      (completed : Option MaterialTables.CompleteJob)
  | artifactRevision (revision : String)
  | artifactApprovalCandidate (revision : String)
  | approveArtifactWithPublication (revision approvedBy : String) (publication : Publication)
  | newJob
  | latestArtifactJob
  | artifactJob (jobId : String)
  | startArtifactJob (jobId revision : String) (details : JobDetails) (message : String)
  | updateArtifactJob (jobId : String) (state : JobState) (progress : Int)
      (message error : String) (details : Option JobDetails)
  | replaceContestPidMap (expectedSubmissionSession : String) (pidMap : List (String × String))
  | preflight
  | applyClones (operationId : String)
  | validateApply
  | generate (revision : String)
  | publish (request : PublicationRequest)
  | lifecycle (state : ContestState) (evidence : Bool)
  | outside (step : OutsideStep)

@[reducible] def MaterialAnswer : MaterialCall → Type
  | .getContest => Option Contest
  | .hasEvidence => Bool
  | .artifactRevision _ => Option ArtifactRevision
  | .artifactApprovalCandidate _ => ArtifactRevision
  | .newJob => String × String
  | .latestArtifactJob => Option ArtifactJob
  | .artifactJob _ => Option ArtifactJob
  | .startArtifactJob .. => ArtifactJob
  | .replaceContestPidMap .. => Contest
  | .preflight => String
  | .applyClones _ => String
  | .validateApply => List (String × String) × List String
  | .generate _ => Release
  | .publish _ => Publication
  | _ => Unit

/- `published` tells whether the OJ took a publication over, which its answer may not show. -/
structure MaterialChoice where
  raises : Option Raised := none
  session : String := ""
  job : String × String := ("", "")
  text : String := ""
  clones : List (String × String) × List String := ([], [])
  content : RevisionContent := { sourceSha256 := "", rootPath := "", manifest := .generated "" }
  published : Bool := true
  acknowledged : Bool := true
  paperSize : Int := 0
  testdataSize : Int := 0
  deriving DecidableEq

section Publishing

def publicationAttachments (request : PublicationRequest) (paperSize testdataSize : Int) :
    List Attachment :=
  [⟨MaterialTables.attachmentNames.1, request.paperSha256, paperSize⟩,
    ⟨MaterialTables.attachmentNames.2, request.testdataSha256, testdataSize⟩]

def publicationId (tid revision : String) (attachments : List Attachment) : String :=
  canonicalJsonSha256 (.arr [.str "noi-material-publication-v1", .str tid, .str revision,
    .arr (attachments.map (·.json))])

def publicationOf (request : PublicationRequest) (attachments : List Attachment) (ok : Bool) :
    Publication :=
  let receipt : Receipt :=
    { publicationId := publicationId request.tid.toLower request.revision attachments
      tid := request.tid.toLower
      revision := request.revision
      attachments }
  { ok, receipt, receiptSha256 := canonicalJsonSha256 receipt.json }

/- An acknowledged publication has replaced the marker, one without an answer may have. -/
def publish (m : MaterialTables) (request : PublicationRequest) (choice : MaterialChoice) :
    Publication × MaterialTables :=
  let attachments := publicationAttachments request choice.paperSize choice.testdataSize
  (publicationOf request attachments choice.acknowledged,
    if choice.acknowledged = true ∨ choice.published = true
    then { m with marker := some ⟨request.revision, attachments⟩ } else m)

end Publishing

namespace MaterialTables

def written (m : MaterialTables) (result : Except StoreError MaterialTables) :
    Except Raised Unit × MaterialTables :=
  match result with
  | .ok m' => (.ok (), m')
  | .error e => (.error (.store e), m)

def answered {α : Type} (m : MaterialTables) (result : Except StoreError (α × MaterialTables)) :
    Except Raised α × MaterialTables :=
  match result with
  | .ok (a, m') => (.ok a, m')
  | .error e => (.error (.store e), m)

def perform (tid : String) (m : MaterialTables) (choice : MaterialChoice) :
    (c : MaterialCall) → Except Raised (MaterialAnswer c) × MaterialTables
  | .getContest => (.ok m.contest, m)
  | .hasEvidence => (.ok m.evidence, m)
  | .upsertContest registration => m.written (m.upsertContest registration choice.session)
  | .clearMaterialSelection => m.written (m.clearMaterialSelection tid)
  | .setPaper name sha256 size => m.written (m.setPaper tid name sha256 size)
  | .setTestdata name sha256 size files expandedSize =>
    m.written (m.setTestdata tid name sha256 size files expandedSize)
  | .putArtifactRevision revision state content completed =>
    m.written (m.putArtifactRevision tid revision state content completed)
  | .artifactRevision revision => (.ok (m.revision? revision), m)
  | .artifactApprovalCandidate revision =>
    match m.artifactApprovalCandidate tid revision with
    | .ok row => (.ok row, m)
    | .error e => (.error (.store e), m)
  | .approveArtifactWithPublication revision approvedBy publication =>
    m.written (m.approveArtifact tid revision approvedBy (some publication))
  | .newJob => (.ok choice.job, m)
  | .latestArtifactJob => (.ok m.jobs.getLast?, m)
  | .artifactJob jobId => (.ok (m.job? jobId), m)
  | .startArtifactJob jobId revision details message =>
    m.answered (m.startArtifactJob tid jobId revision details message)
  | .updateArtifactJob jobId state progress message error details =>
    m.written (m.updateArtifactJob jobId state progress message error details)
  | .replaceContestPidMap session pidMap => m.answered (m.replaceContestPidMap tid session pidMap)
  | .preflight => (.ok choice.text, m)
  | .applyClones _ => (.ok choice.text, m)
  | .validateApply => (.ok choice.clones, m)
  | .generate revision => (.ok ⟨revision, choice.content⟩, m)
  | .publish request =>
    let published := publish m request choice
    (.ok published.1, published.2)
  | .lifecycle state evidence =>
    (.ok (), { m with contest := m.contest.map ({ · with state }), evidence })
  | .outside _ => (.ok (), m)

/- A publication that raises may have reached the OJ, every other raising call did nothing. -/
def broken (m : MaterialTables) (choice : MaterialChoice) : MaterialCall → MaterialTables
  | .publish request => (publish m request { choice with acknowledged := false }).2
  | _ => m

def respond (tid : String) (c : MaterialCall) (choice : MaterialChoice) (m : MaterialTables) :
    Except Raised (MaterialAnswer c) × MaterialTables :=
  match choice.raises with
  | some raised => (.error raised, m.broken choice c)
  | none => m.perform tid choice c

end MaterialTables

abbrev Material (α : Type) : Type := Program MaterialCall MaterialAnswer Raised Raised α

def call (c : MaterialCall) : Material (MaterialAnswer c) := Program.perform c

def getContest : Material (Option Contest) := call .getContest
def outside (step : OutsideStep) : Material Unit := call (.outside step)
def artifactJob (jobId : String) : Material (Option ArtifactJob) := call (.artifactJob jobId)
def artifactApprovalCandidate (revision : String) : Material ArtifactRevision :=
  call (.artifactApprovalCandidate revision)
def publishMaterials (request : PublicationRequest) : Material Publication := call (.publish request)
def updateArtifactJob (jobId : String) (state : JobState) (progress : Int)
    (message error : String) (details : Option JobDetails) : Material Unit :=
  call (.updateArtifactJob jobId state progress message error details)

def conflictIf (bad : Prop) [Decidable bad] (message : String) : Material Unit :=
  Program.raiseIf bad (.store (.submissionConflict message))

def raiseIf (bad : Prop) [Decidable bad] (message : String) : Material Unit :=
  Program.raiseIf bad (.runtime message)

/- Staging and approval -/

def manualFiles (contest : Contest) : List ManifestFile :=
  ⟨"paper.pdf", contest.paperSize, contest.paperSha256⟩ ::
    if contest.testdataSha256 = "" then []
    else [⟨"testdata.tar.gz", contest.testdataSize, contest.testdataSha256⟩]

def manualManifest (tid : String) (contest : Contest) : Manifest :=
  .manual tid contest.submissionSession (manualFiles contest)

def manualDigest (tid : String) (contest : Contest) : String :=
  Sha256.ofText (dumps (manualManifest tid contest).json ++ "\n")

def manualRevision (digest : String) : String := "manual-" ++ PyText.clip 16 digest

def manualContent (materialsDir tid : String) (contest : Contest) : RevisionContent where
  sourceSha256 := manualDigest tid contest
  rootPath := materialsDir ++ "/" ++ tid
  manifestSha256 := manualDigest tid contest
  manifest := manualManifest tid contest
  paperName := if contest.paperName = "" then "试题.pdf" else contest.paperName
  paperSha256 := contest.paperSha256
  paperSize := contest.paperSize
  testdataName := contest.testdataName
  testdataSha256 := contest.testdataSha256
  testdataSize := contest.testdataSize
  testdataFiles := contest.testdataFiles
  testdataExpandedSize := contest.testdataExpandedSize

def stageManualArtifact (materialsDir tid : String) : Material (Option ArtifactRevision) := do
  match ← getContest with
  | none => Program.raise (.runtime "人工材料缺少试题 PDF")
  | some contest =>
    raiseIf (contest.paperSha256 = "") "人工材料缺少试题 PDF"
    raiseIf (contest.testdataSha256 = "") "V1 人工材料缺少辅助自测数据"
    let revision := manualRevision (manualDigest tid contest)
    outside .writeManifest
    call (.putArtifactRevision revision .review (manualContent materialsDir tid contest) none)
    call (.artifactRevision revision)

/-- Publishes the bytes of a revision and promotes it. -/
def publishAndApprove (request : PublicationRequest) (approvedBy : String) : Material Unit := do
  let publication ← publishMaterials request
  raiseIf (publication.ok = false) "OJ 未确认接收比赛 PDF 与辅助自测数据"
  call (.approveArtifactWithPublication request.revision approvedBy publication)

def approveManualArtifact (materialsDir tid approvedBy expectedRevision : String) :
    Material Unit := do
  match ← stageManualArtifact materialsDir tid with
  | none => Program.raise (.external "'NoneType' object is not subscriptable")
  | some artifact =>
    conflictIf (expectedRevision ≠ "" ∧ artifact.revision ≠ expectedRevision)
      "材料已改变，请重新预览当前版本再发布"
    match ← getContest with
    | none => Program.raise (.external "'NoneType' object is not subscriptable")
    | some contest =>
      publishAndApprove
        { tid, revision := artifact.revision, paperSha256 := contest.paperSha256
          testdataSha256 := contest.testdataSha256 } approvedBy

def activateGeneratedArtifact (tid revision approvedBy : String) : Material Unit := do
  let artifact ← artifactApprovalCandidate revision
  outside (.verifyRelease artifact.content.rootPath)
  raiseIf (artifact.content.testdataSha256 = "") "V1 材料版本缺少辅助自测数据"
  outside .verifyTestdata
  publishAndApprove
    { tid, revision, paperSha256 := artifact.content.paperSha256
      testdataSha256 := artifact.content.testdataSha256 } approvedBy

def adminMaterialApprove (materialsDir tid revision approvedBy : String) : Material Unit := do
  outside (.audit "contest.materials.approve")
  match ← getContest with
  | none => activateGeneratedArtifact tid revision approvedBy
  | some contest =>
    if contest.materialsMode = "manual" then do
      conflictIf (¬ MaterialTables.MayChangeMaterials contest) "当前比赛状态不能修改材料"
      approveManualArtifact materialsDir tid approvedBy revision
    else activateGeneratedArtifact tid revision approvedBy

/- Registration -/

/-- What the registration form brings along. -/
structure RegistrationForm where
  registration : Registration
  paper : Option (String × String × Int) := none
  testdata : Option (String × String × Int × Int × Int) := none

def RegistrationForm.row (form : RegistrationForm) : Registration :=
  { form.registration with
    materialState := if form.registration.materialsMode = "ai" then "pending" else "review" }

def running (contest : Contest) : Prop :=
  contest.state = .preparing ∨ contest.state = .ready ∨ contest.state = .collecting ∨
    contest.state = .safeWait

instance (contest : Contest) : Decidable (running contest) := by
  unfold running
  infer_instance

def httpIf (bad : Prop) [Decidable bad] (message : String) : Material Unit :=
  Program.raiseIf bad (.external message)

/-- Everything that is checked before the row is written. -/
def checkForm (form : RegistrationForm) (existing : Option Contest) : Material Unit := do
  match existing with
  | none => pure ()
  | some contest => do
    httpIf (running contest) "比赛正在备赛、进行或收卷，禁止重新登记以免改变实时送评会话"
    let evidence ← call .hasEvidence
    httpIf (evidence = true) "本场已有座位、收卷证据或实时递交，禁止覆盖登记"
  httpIf (form.registration.materialsMode = "manual" ∧ form.paper = none ∧
      (existing.map (·.paperSha256)).getD "" = "") "首次登记比赛必须上传试题 PDF"
  outside .readUploads
  httpIf (form.testdata = none ∧ (existing.map (·.testdataSha256)).getD "" ≠ "" ∧
      existing.map (·.files) ≠ some form.registration.files)
    "题目文件名已变化，请重新选择与新题目匹配的测试数据 ZIP"
  if form.registration.materialsMode = "manual" ∧ existing ≠ none
  then outside .verifyReusableManualFiles
  else pure ()

def clearForGeneration (form : RegistrationForm) : Material Unit :=
  if form.registration.materialsMode = "ai" then call .clearMaterialSelection else pure ()

def savePaper : Option (String × String × Int) → Material Unit
  | none => pure ()
  | some (name, sha256, size) => do
    outside .savePaper
    call (.setPaper name sha256 size)

def saveTestdata : Option (String × String × Int × Int × Int) → Material Unit
  | none => pure ()
  | some (name, sha256, size, files, expandedSize) => do
    outside .saveTestdata
    call (.setTestdata name sha256 size files expandedSize)

def adminRegister (materialsDir tid : String) (form : RegistrationForm) : Material Unit := do
  outside .checkRegistration
  let existing ← getContest
  checkForm form existing
  outside (.audit "contest.register")
  call (.upsertContest form.row)
  clearForGeneration form
  savePaper form.paper
  saveTestdata form.testdata
  if form.registration.materialsMode = "manual"
  then do let _ ← stageManualArtifact materialsDir tid
  else pure ()

/- Generation -/

def registeredProblems (contest : Contest) : Except Raised (List (String × String)) := do
  match contest.pids with
  | none => throw (.runtime "登记题目映射损坏")
  | some pids =>
    Outcome.raiseIf (contest.files = [] ∨ ¬ contest.files.Nodup ∨
        ¬ contest.files.Perm (pids.map (·.1)))
      (.runtime "登记题目文件与 pid 映射不完整")
    let problems := contest.files.filterMap fun slug => (pids.find? (·.1 == slug)).map fun pair =>
      (slug, pair.2)
    Outcome.raiseIf (¬ (problems.map (·.2)).Nodup) (.runtime "登记题目 slug 或 pid 无效")
    return problems

/- A failed or interrupted job of the same session and problems is taken up again. -/
def resumed (session : String) (requested : List (String × String)) (details : JobDetails) :
    Option ArtifactJob → JobDetails
  | none => details
  | some previous =>
    if (previous.state = .error ∨ previous.state = .interrupted) ∧
        previous.details.submissionSession = session ∧
        previous.details.requestedProblems.map (·.1) = requested.map (·.1) then
      { details with
        requestedProblems := previous.details.requestedProblems
        approvalId := previous.details.approvalId
        preflight := previous.details.preflight
        operationId := previous.details.operationId
        apply := previous.details.apply
        resumedFrom := previous.jobId }
    else details

def approvalId (tid session jobId teacher : String) : String :=
  canonicalJsonSha256 (.arr [.str "teacher-fileio-approval-v1", .str tid, .str session, .str jobId,
    .str teacher])

def jobRevision (timestamp jobId : String) : String := "ai-" ++ timestamp ++ "-" ++ PyText.clip 12 jobId

def startJob (tid approvedBy : String) : Material ArtifactJob := do
  match ← getContest with
  | none => Program.raise (.store (.keyError ("比赛不存在: " ++ tid)))
  | some contest =>
    conflictIf (contest.materialsMode ≠ "ai") "本场不是 AI 材料模式"
    let requested ← Program.ofExcept (registeredProblems contest)
    raiseIf (¬ MaterialTables.isSession contest.submissionSession) "比赛提交会话无效"
    let teacher := PyText.strip approvedBy
    raiseIf (teacher = "" ∨ 256 < teacher.utf8ByteSize) "教师账号无效"
    let (jobId, timestamp) ← call .newJob
    let previous ← call .latestArtifactJob
    conflictIf (previous.map (·.state) = some .done) "本场材料已成功生成，不能直接重新生成"
    let details : JobDetails :=
      { submissionSession := contest.submissionSession, requestedProblems := requested
        approvedBy := teacher
        approvalId := approvalId tid contest.submissionSession jobId teacher }
    call (.startArtifactJob jobId (jobRevision timestamp jobId)
      (resumed contest.submissionSession requested details previous)
      "教师已批准克隆为本场私有题；任务已排队")

/-- A part of a job, whose failure is stored with the details as they are then. -/
abbrev JobPart (α : Type) : Type :=
  Program MaterialCall MaterialAnswer Raised (Raised × JobDetails) α

def during {α : Type} (details : JobDetails) (part : Material α) : JobPart α :=
  part.mapError fun error => (error, details)

def save (jobId : String) (details : JobDetails) (progress : Int) (message : String) :
    JobPart Unit :=
  during details (updateArtifactJob jobId .running progress message "" (some details))

def jobContest (details : JobDetails) : JobPart Contest := during details do
  match ← getContest with
  | none => Program.raise (.runtime "比赛不存在")
  | some contest =>
    raiseIf (¬ MaterialTables.MayChangeMaterials contest) "比赛已进入备赛或运行阶段"
    raiseIf (details.submissionSession ≠ contest.submissionSession)
      "比赛已重新登记，材料任务已过期"
    raiseIf (details.requestedProblems = []) "任务缺少原始题目映射"
    return contest

def withPreflight (details : JobDetails) : JobPart JobDetails :=
  match details.preflight with
  | some _ => return details
  | none => do
    let preflight ← during details (call .preflight)
    return { details with preflight := some preflight }

def preflightStage (jobId : String) (details : JobDetails) : JobPart JobDetails := do
  let details := { details with stage := "preflight" }
  save jobId details 5 "正在预检原题与正式数据指纹"
  let details ← withPreflight details
  during details (outside .validatePreflight)
  during details (outside .generationGates)
  let details := { details with stage := "preclone_gates_passed" }
  save jobId details 20 "正式数据指纹、AI 与可信校验工具已预检；尚未改动 Hydro"
  return details

@[irreducible] def operationId (tid preflight approvalId : String) : String :=
  canonicalJsonSha256 (.arr [.str tid, .str preflight, .str approvalId])

/-- `stored = details.get("operation_id") or expected` with `stored != expected` -/
def operationChanged (stored : Option String) (expected : String) : Prop :=
  ∃ operation ∈ stored, operation ≠ "" ∧ operation ≠ expected

instance (stored : Option String) (expected : String) :
    Decidable (operationChanged stored expected) := by
  unfold operationChanged
  infer_instance

def cloneStage (tid jobId : String) (contest : Contest) (details : JobDetails) :
    JobPart JobDetails := do
  let expected := operationId tid (details.preflight.getD "") details.approvalId
  during details (raiseIf (operationChanged details.operationId expected)
    "已保存的克隆操作号与教师批准不一致")
  let details := { details with operationId := some expected, stage := "applying_private_clones" }
  save jobId details 25 "预检已保存；正在克隆本场私有题并设置 slug.in/out"
  match details.apply with
  | some _ => return details
  | none =>
    let current ← during details (Program.ofExcept (registeredProblems contest))
    during details (raiseIf (current ≠ details.requestedProblems)
      "本场题目映射在预检后已改变，拒绝克隆")
    let applied ← during details (call (.applyClones expected))
    return { details with apply := some applied }

def bindStage (jobId : String) (contest : Contest) (details : JobDetails) :
    JobPart JobDetails := do
  let (clones, plan) ← during details (call .validateApply)
  let current ← during details (Program.ofExcept (registeredProblems contest))
  during details (raiseIf (current ≠ details.requestedProblems ∧ current ≠ clones)
    "本场题目映射既不是批准的原题，也不是已验证的私有克隆")
  let details := { details with fileIoPlan := plan, stage := "binding_private_clones" }
  save jobId details 40 "私有题全部验证通过；正在原子更新本场题目映射"
  let _ ← during details (call (.replaceContestPidMap details.submissionSession clones))
  return details

def generateStage (job : ArtifactJob) (details : JobDetails) : JobPart Unit := do
  during details (outside .cloneGates)
  let details := { details with stage := "generating" }
  save job.jobId details 55 "严格安全门已通过；正在生成 CSP 题面 PDF 与梯度自测"
  let release ← during details (call (.generate job.revision))
  let details := { details with stage := "review" }
  during details (call (.putArtifactRevision release.revision .review release.content
    (some (job.jobId, details))))

def jobBody (tid : String) (job : ArtifactJob) : JobPart Unit := do
  let contest ← jobContest job.details
  let details ← preflightStage job.jobId job.details
  let details ← cloneStage tid job.jobId contest details
  let details ← bindStage job.jobId contest details
  generateStage job details

def jobFailed (jobId : String) (error : Raised) (details : JobDetails) : Material Unit :=
  Program.orElse (do
    match ← artifactJob jobId with
    | none => pure ()
    | some current =>
      if current.state.active = true then
        updateArtifactJob jobId .error current.progress "材料生成失败，未发布；修复后可再次点击安全重试"
          error.text (some { details with stage := "error" })
      else pure ())
    fun _ => pure ()

def runJob (tid jobId : String) : Material Unit := do
  match ← artifactJob jobId with
  | none => pure ()
  | some job =>
    if job.state.active = false then pure ()
    else Program.orElse (jobBody tid job) fun failed => jobFailed jobId failed.1 failed.2

/-- The worker thread of the job goes on where the request ends. -/
def adminMaterialGenerate (tid approvedBy : String) : Material Unit := do
  outside (.audit "contest.materials.generate")
  let job ← startJob tid approvedBy
  Program.orElse (outside .startWorker) fun error => do
    Program.orElse (updateArtifactJob job.jobId .error 0 "材料后台任务未能启动，未发布" error.text
      (some job.details)) fun _ => pure ()
    Program.raise (.external "材料后台任务未能启动")
  runJob tid job.jobId

end NoiContest.Materials
