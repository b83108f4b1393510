import NoiContest.Store.Contest
import NoiContest.Lib.JsonText
import NoiContest.Lib.Outcome
import NoiContest.Lib.PyText
import NoiContest.Lib.Sha256

/- The material rows of one contest: its material columns, the artifact revisions and jobs, the
   stored publication receipts, and the marker that the OJ holds. Every function is one store
   transaction. Time stamps of the rows are left out, they only order lists for display. -/
namespace NoiContest.Materials
open Outcome JsonText

inductive RevisionState where
  | draft | review | approved | superseded
  deriving DecidableEq, Repr

def RevisionState.text : RevisionState → String
  | .draft => "draft"
  | .review => "review"
  | .approved => "approved"
  | .superseded => "superseded"

inductive JobState where
  | queued | running | done | error | interrupted
  deriving DecidableEq, Repr

def JobState.active (state : JobState) : Bool := state == .queued || state == .running

structure Attachment where
  name : String
  sha256 : String
  size : Int
  deriving DecidableEq, Repr

structure ManifestFile where
  path : String
  size : Int
  sha256 : String
  deriving DecidableEq, Repr

/-- A teacher's upload is bound to a submission session, a generated release is not. -/
inductive Manifest where
  | manual (tid submissionSession : String) (files : List ManifestFile)
  | generated (payload : String)
  deriving DecidableEq, Repr

def ManifestFile.json (file : ManifestFile) : Json :=
  .obj [("path", .str file.path), ("audience", .str "student"), ("size", .int file.size),
    ("sha256", .str file.sha256)]

def Manifest.json : Manifest → Json
  | .manual tid submissionSession files =>
    .obj [("schema_version", .int 1), ("tid", .str tid), ("mode", .str "manual"),
      ("status", .str "teacher_uploaded"), ("submission_session", .str submissionSession),
      ("files", .arr (files.map ManifestFile.json))]
  | .generated payload => .obj [("payload", .str payload)]

/-- The columns that a revision never changes. -/
structure RevisionContent where
  sourceSha256 : String
  rootPath : String
  manifestSha256 : String := ""
  manifest : Manifest
  fileIoPlan : List String := []
  warnings : List String := []
  paperName : String := ""
  paperSha256 : String := ""
  paperSize : Int := 0
  testdataName : String := ""
  testdataSha256 : String := ""
  testdataSize : Int := 0
  testdataFiles : Int := 0
  testdataExpandedSize : Int := 0
  deriving DecidableEq, Repr

def RevisionContent.columns (content : RevisionContent) : List (String × String) :=
  [("source_sha256", content.sourceSha256),
    ("root_path", content.rootPath),
    ("manifest_sha256", content.manifestSha256),
    ("manifest_json", dumps content.manifest.json),
    ("file_io_plan_json", dumps (.arr (content.fileIoPlan.map .str))),
    ("warnings_json", dumps (.arr (content.warnings.map .str))),
    ("paper_name", content.paperName),
    ("paper_sha256", content.paperSha256),
    ("paper_size", toString content.paperSize),
    ("testdata_name", content.testdataName),
    ("testdata_sha256", content.testdataSha256),
    ("testdata_size", toString content.testdataSize),
    ("testdata_files", toString content.testdataFiles),
    ("testdata_expanded_size", toString content.testdataExpandedSize)]

def RevisionContent.changed (stored content : RevisionContent) : List String :=
  ((stored.columns.zip content.columns).filter fun pair => pair.1.2 ≠ pair.2.2).map (·.1.1)

structure ArtifactRevision where
  revision : String
  state : RevisionState
  content : RevisionContent
  approvedBy : String := ""
  deriving DecidableEq, Repr

structure JobDetails where
  submissionSession : String
  requestedProblems : List (String × String)
  approvedBy : String
  approvalId : String
  stage : String := "queued"
  resumedFrom : String := ""
  preflight : Option String := none
  operationId : Option String := none
  apply : Option String := none
  warnings : List String := []
  fileIoPlan : List String := []
  deriving DecidableEq, Repr

structure ArtifactJob where
  jobId : String
  revision : String
  state : JobState := .queued
  progress : Int := 0
  message : String := ""
  error : String := ""
  details : JobDetails
  deriving DecidableEq, Repr

structure Receipt where
  publicationId : String
  tid : String
  revision : String
  attachments : List Attachment
  deriving DecidableEq, Repr

def Attachment.json (attachment : Attachment) : Json :=
  .obj [("name", .str attachment.name), ("sha256", .str attachment.sha256),
    ("size", .int attachment.size)]

def Receipt.json (receipt : Receipt) : Json :=
  .obj [("publication_id", .str receipt.publicationId), ("tid", .str receipt.tid),
    ("revision", .str receipt.revision), ("attachments", .arr (receipt.attachments.map (·.json)))]

def canonicalJsonSha256 (value : Json) : String := Sha256.ofText (dumps value)

/-- What the publisher returns, also the row of a stored receipt. -/
structure Publication where
  ok : Bool := true
  receipt : Receipt
  receiptSha256 : String
  deriving DecidableEq, Repr

/-- What the OJ holds for the contest. -/
structure Marker where
  revision : String
  attachments : List Attachment
  deriving DecidableEq, Repr

/- `evidence` stands for a stored seat or web submission. -/
structure MaterialTables where
  contest : Option Contest := none
  evidence : Bool := false
  revisions : List ArtifactRevision := []
  jobs : List ArtifactJob := []
  publications : List Publication := []
  marker : Option Marker := none
  deriving DecidableEq

structure Registration where
  tid : String
  title : String := ""
  files : List String
  pids : List (String × String) := []
  submissionMode : String := "both"
  beginAtMs : Int := 0
  endAtMs : Int := 0
  hydroRule : String := "oi"
  materialsMode : String := "manual"
  materialState : String := "review"
  maxParticipants : Int := 0
  spareSeats : Int := 2
  releaseLeadMinutes : Int := 5
  practiceGroups : Int := 3
  deriving DecidableEq, Repr

namespace MaterialTables

def revision? (m : MaterialTables) (revision : String) : Option ArtifactRevision :=
  m.revisions.find? (·.revision == revision)

def job? (m : MaterialTables) (jobId : String) : Option ArtifactJob :=
  m.jobs.find? (·.jobId == jobId)

def publication? (m : MaterialTables) (revision : String) : Option Publication :=
  m.publications.find? (·.receipt.revision == revision)

/-- A registration over an existing row keeps its paper and test data columns. -/
def registered (old : Option Contest) (registration : Registration) (submissionSession : String) :
    Contest :=
  { old.getD { tid := registration.tid, files := [] } with
    title := registration.title
    files := registration.files
    pids := some registration.pids
    submissionMode := registration.submissionMode
    submissionSession := submissionSession
    beginAtMs := registration.beginAtMs
    endAtMs := registration.endAtMs
    hydroRule := registration.hydroRule
    materialsMode := registration.materialsMode
    materialState := registration.materialState
    activeMaterialRevision := ""
    materialManifestSha256 := ""
    maxParticipants := registration.maxParticipants
    spareSeats := registration.spareSeats
    releaseLeadMinutes := registration.releaseLeadMinutes
    practiceGroups := registration.practiceGroups
    state := .registered
    message := "" }

def upsertContest (m : MaterialTables) (registration : Registration) (submissionSession : String) :
    Except StoreError MaterialTables := do
  raiseIf (m.contest ≠ none ∧ m.evidence = true)
    (.submissionConflict "cannot re-register a contest that still has run evidence")
  return { m with contest := some (registered m.contest registration submissionSession) }

def clearMaterialSelection (m : MaterialTables) (tid : String) : Except StoreError MaterialTables :=
  match m.contest with
  | none => .error (.keyError ("比赛不存在: " ++ tid))
  | some contest =>
    let cleared := { contest with
      paperName := ""
      paperSha256 := ""
      paperSize := 0
      testdataName := ""
      testdataSha256 := ""
      testdataSize := 0
      testdataFiles := 0
      testdataExpandedSize := 0
      materialState := "pending"
      activeMaterialRevision := ""
      materialManifestSha256 := "" }
    .ok { m with contest := some cleared }

def legacyManual : String := "legacy-manual"

def setPaper (m : MaterialTables) (tid name sha256 : String) (size : Int) :
    Except StoreError MaterialTables :=
  match m.contest with
  | none => .error (.keyError ("比赛不存在: " ++ tid))
  | some contest =>
    let updated := { contest with
      paperName := name
      paperSha256 := sha256
      paperSize := size
      materialState := if contest.materialsMode = "manual" then "approved"
        else contest.materialState
      activeMaterialRevision :=
        if contest.materialsMode = "manual" ∧ contest.activeMaterialRevision = ""
        then legacyManual else contest.activeMaterialRevision }
    .ok { m with contest := some updated }

def setTestdata (m : MaterialTables) (tid name sha256 : String) (size files expandedSize : Int) :
    Except StoreError MaterialTables :=
  match m.contest with
  | none => .error (.keyError ("比赛不存在: " ++ tid))
  | some contest =>
    let updated := { contest with
      testdataName := name
      testdataSha256 := sha256
      testdataSize := size
      testdataFiles := files
      testdataExpandedSize := expandedSize }
    .ok { m with contest := some updated }

/-- The job that a new revision completes, with its last details. -/
abbrev CompleteJob : Type := String × JobDetails

def completesJob (m : MaterialTables) (revision : String) (jobId : String) : Except StoreError Unit := do
  match m.job? jobId with
  | none => throw (.submissionConflict "材料任务已结束或版本不匹配")
  | some job =>
    raiseIf (job.state.active = false ∨ job.revision ≠ revision)
      (.submissionConflict "材料任务已结束或版本不匹配")
    raiseIf (m.revision? revision ≠ none) (.submissionConflict "材料 review 版本已存在且不可覆盖")

def finishJob (completed : CompleteJob) (job : ArtifactJob) : ArtifactJob :=
  if job.jobId = completed.1 then
    { job with
      state := .done
      progress := 100
      message := "材料已生成，等待教师审核 PDF 与机器报告"
      error := ""
      details := completed.2 }
  else job

def inserted (m : MaterialTables) (contest : Contest) (row : ArtifactRevision)
    (completed : Option CompleteJob) : MaterialTables :=
  { m with
    contest := some { contest with materialState := row.state.text }
    revisions := m.revisions ++ [row]
    jobs := match completed with
      | none => m.jobs
      | some completed => m.jobs.map (finishJob completed) }

def putArtifactRevision (m : MaterialTables) (tid revision : String) (state : RevisionState)
    (content : RevisionContent) (completed : Option CompleteJob) : Except StoreError MaterialTables := do
  match m.contest with
  | none => throw (.keyError ("比赛不存在: " ++ tid))
  | some contest =>
    match completed with
    | none => pure ()
    | some completed => m.completesJob revision completed.1
    match m.revision? revision with
    | some existing =>
      raiseIf (existing.content.changed content ≠ []) (.submissionConflict
        ("材料版本不可覆盖，差异字段: " ++
          String.intercalate ", " (existing.content.changed content)))
      return m
    | none => return m.inserted contest { revision, state, content } completed

/-- Preparation has begun once the contest leaves these states. -/
def MayChangeMaterials (contest : Contest) : Prop :=
  contest.state = .registered ∨ contest.state = .error

instance (contest : Contest) : Decidable (MayChangeMaterials contest) := by
  unfold MayChangeMaterials
  infer_instance

def approvable (contest : Contest) (revision : String) (row : Option ArtifactRevision) :
    Except StoreError ArtifactRevision := do
  raiseIf (¬ MayChangeMaterials contest) (.submissionConflict "座位预热开始后不能更换材料版本")
  match row with
  | none => throw (.submissionConflict "材料版本尚未完成机器校验")
  | some row =>
    raiseIf (row.state ≠ .review ∧ row.state ≠ .approved)
      (.submissionConflict "材料版本尚未完成机器校验")
    raiseIf (row.state = .approved ∧ (contest.materialState ≠ "approved" ∨
        contest.activeMaterialRevision ≠ revision))
      (.submissionConflict "已批准材料版本与比赛活动版本不一致")
    return row

def artifactApprovalCandidate (m : MaterialTables) (tid revision : String) :
    Except StoreError ArtifactRevision := do
  match m.contest with
  | none => throw (.keyError ("比赛不存在: " ++ tid))
  | some contest =>
    let row ← approvable contest revision (m.revision? revision)
    raiseIf (row.content.manifestSha256 = "" ∨ row.content.paperSha256 = "")
      (.submissionConflict "材料版本缺少 PDF 或完整清单")
    return row

def attachmentNames : String × String := ("01_比赛题面.pdf", "02_辅助自测数据.tar.gz")

def deliveredAttachments (content : RevisionContent) : List Attachment :=
  [⟨attachmentNames.1, content.paperSha256, content.paperSize⟩,
    ⟨attachmentNames.2, content.testdataSha256, content.testdataSize⟩]

def isSha256 (s : String) : Prop := PyText.isLowerHexOf 64 s = true

instance (s : String) : Decidable (isSha256 s) := by
  unfold isSha256
  infer_instance

def validateMaterialPublication (publication : Publication) (tid revision : String)
    (content : RevisionContent) : Except StoreError Publication := do
  raiseIf (publication.ok = false) (.submissionConflict "OJ 尚未确认材料发布成功")
  raiseIf (¬ isSha256 publication.receipt.publicationId ∨ ¬ isSha256 publication.receiptSha256)
    (.submissionConflict "OJ 材料发布回执摘要无效")
  raiseIf (publication.receipt.tid.toLower ≠ tid.toLower)
    (.submissionConflict "OJ 材料发布回执比赛不匹配")
  raiseIf (publication.receipt.revision ≠ revision)
    (.submissionConflict "OJ 材料发布回执版本不匹配")
  raiseIf (publication.receipt.attachments ≠ deliveredAttachments content)
    (.submissionConflict "OJ 与桌面材料的字节摘要不一致")
  let receipt : Receipt :=
    { publicationId := publication.receipt.publicationId
      tid := tid.toLower
      revision
      attachments := deliveredAttachments content }
  raiseIf (canonicalJsonSha256 receipt.json ≠ publication.receiptSha256)
    (.submissionConflict "OJ 材料发布回执校验失败")
  return { ok := true, receipt, receiptSha256 := publication.receiptSha256 }

/-- One receipt for each revision, and one revision for each publication id. -/
def storePublication (m : MaterialTables) (publication : Publication) : Except StoreError MaterialTables :=
  match m.publication? publication.receipt.revision with
  | some existing =>
    if existing = publication then .ok m
    else .error (.submissionConflict "OJ 材料发布回执发生冲突")
  | none =>
    if publication.receipt.publicationId ∈ m.publications.map (·.receipt.publicationId)
    then .error (.submissionConflict "OJ 材料发布编号已被其他版本占用")
    else .ok { m with publications := m.publications ++ [publication] }

def promote (revision approvedBy : String) (row : ArtifactRevision) : ArtifactRevision :=
  if row.revision = revision then { row with state := .approved, approvedBy := approvedBy }
  else if row.state = .approved then { row with state := .superseded }
  else row

def promoted (m : MaterialTables) (contest : Contest) (row : ArtifactRevision)
    (approvedBy : String) : MaterialTables :=
  let updated := { contest with
    materialState := "approved"
    activeMaterialRevision := row.revision
    materialManifestSha256 := row.content.manifestSha256
    paperName := row.content.paperName
    paperSha256 := row.content.paperSha256
    paperSize := row.content.paperSize
    testdataName := row.content.testdataName
    testdataSha256 := row.content.testdataSha256
    testdataSize := row.content.testdataSize
    testdataFiles := row.content.testdataFiles
    testdataExpandedSize := row.content.testdataExpandedSize }
  { m with
    contest := some updated
    revisions := m.revisions.map (promote row.revision approvedBy) }

/- `publication` is none for a promotion under a receipt that is stored already. -/
def approveArtifact (m : MaterialTables) (tid revision approvedBy : String)
    (publication : Option Publication) : Except StoreError MaterialTables := do
  match m.contest with
  | none => throw (.keyError ("比赛不存在: " ++ tid))
  | some contest =>
    let row ← approvable contest revision (m.revision? revision)
    raiseIf (row.content.manifestSha256 = "" ∨ row.content.paperSha256 = "" ∨
        row.content.testdataSha256 = "" ∨ row.content.paperSize ≤ 0 ∨
        row.content.testdataSize ≤ 0)
      (.submissionConflict "材料版本缺少 PDF、自测数据或完整清单")
    let m ← match publication with
      | some publication => do
        let stored ← validateMaterialPublication publication tid revision row.content
        m.storePublication stored
      | none => do
        raiseIf (m.publication? revision = none)
          (.submissionConflict "尚未保存 OJ 材料发布回执")
        pure m
    -- an approval that is repeated rewrites neither its date nor its teacher
    if row.state = .approved then return m
    else return m.promoted contest row approvedBy

def isJobId (s : String) : Prop := PyText.isLowerHexOf 32 s = true

instance (s : String) : Decidable (isJobId s) := by
  unfold isJobId
  infer_instance

/-- A letter or digit, and up to 63 of letters, digits, dots, underscores and hyphens. -/
def isRevision (s : String) : Prop :=
  match s.toList with
  | [] => False
  | c :: rest => c.isAlphanum = true ∧ rest.length ≤ 63 ∧
      (rest.all fun d => d.isAlphanum || d == '.' || d == '_' || d == '-') = true

instance (s : String) : Decidable (isRevision s) := by
  unfold isRevision
  split <;> infer_instance

/-- The only active job of the contest. -/
def startArtifactJob (m : MaterialTables) (tid jobId revision : String) (details : JobDetails)
    (message : String) : Except StoreError (ArtifactJob × MaterialTables) := do
  raiseIf (¬ isJobId jobId)
    (.valueError "artifact job_id must be 32 lowercase hexadecimal characters")
  raiseIf (¬ isRevision revision) (.valueError "artifact revision is invalid")
  match m.contest with
  | none => throw (.keyError ("比赛不存在: " ++ tid))
  | some contest =>
    raiseIf (contest.materialsMode ≠ "ai") (.submissionConflict "本场不是 AI 材料模式")
    raiseIf (¬ MayChangeMaterials contest) (.submissionConflict "比赛已进入备赛或运行阶段")
    raiseIf (∃ job ∈ m.jobs, job.state.active = true)
      (.submissionConflict "本场已有材料生成任务正在执行")
    raiseIf (m.evidence = true) (.submissionConflict "本场已有座位或递交证据，不能生成新材料")
    raiseIf (m.job? jobId ≠ none) (.submissionConflict "本场已有材料生成任务正在执行")
    let job : ArtifactJob := { jobId, revision, message := PyText.clip 2000 message, details }
    let contest := if contest.activeMaterialRevision = ""
      then { contest with materialState := "generating" } else contest
    return (job, { m with contest := some contest, jobs := m.jobs ++ [job] })

def updatedJob (job : ArtifactJob) (state : JobState) (progress : Int) (message error : String)
    (details : Option JobDetails) : ArtifactJob :=
  { job with
    state
    progress := max 0 (min 100 progress)
    message := PyText.clip 2000 message
    error := PyText.clip 8000 error
    details := details.getD job.details }

def withoutMaterials (contest : Contest) (state : JobState) : Contest :=
  if (state = .error ∨ state = .interrupted) ∧ contest.activeMaterialRevision = ""
  then { contest with materialState := "pending" } else contest

def updateArtifactJob (m : MaterialTables) (jobId : String) (state : JobState) (progress : Int)
    (message error : String) (details : Option JobDetails) : Except StoreError MaterialTables := do
  match m.job? jobId with
  | none => throw (.keyError ("材料任务不存在: " ++ jobId))
  | some current =>
    raiseIf (current.state.active = false ∧ state ≠ current.state)
      (.submissionConflict "已结束的材料任务不能重新激活")
    raiseIf (max 0 (min 100 progress) < current.progress)
      (.submissionConflict "材料任务进度不能倒退")
    return { m with
      contest := m.contest.map (withoutMaterials · state)
      jobs := m.jobs.map fun job =>
        if job.jobId = jobId then updatedJob job state progress message error details else job }

def isSession (s : String) : Prop := PyText.isLowerHexOf 32 s = true

instance (s : String) : Decidable (isSession s) := by
  unfold isSession
  infer_instance

/- The spelling of names and problem ids is checked by the caller. -/
def replaceContestPidMap (m : MaterialTables) (tid expectedSubmissionSession : String)
    (pidMap : List (String × String)) : Except StoreError (Contest × MaterialTables) := do
  raiseIf (¬ isSession expectedSubmissionSession)
    (.valueError "expected_submission_session is invalid")
  raiseIf (pidMap = []) (.valueError "pid_map must be a non-empty object")
  raiseIf (¬ (pidMap.map (·.2)).Nodup) (.valueError "pid_map values must be unique")
  match m.contest with
  | none => throw (.keyError ("比赛不存在: " ++ tid))
  | some contest =>
    raiseIf (¬ MayChangeMaterials contest)
      (.submissionConflict "比赛已进入备赛或运行阶段，不能替换题目映射")
    raiseIf (contest.submissionSession ≠ expectedSubmissionSession)
      (.submissionConflict "比赛已被重新登记，题目克隆结果已过期")
    raiseIf (¬ (contest.files.Nodup ∧ contest.files.Perm (pidMap.map (·.1))))
      (.submissionConflict "克隆映射必须与登记文件名完全一致")
    raiseIf (m.evidence = true) (.submissionConflict "本场已有座位或递交证据，不能替换题目映射")
    let updated := { contest with pids := some pidMap }
    return (updated, { m with contest := some updated })

end MaterialTables
end NoiContest.Materials
