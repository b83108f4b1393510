import Mathlib.Algebra.Ring.Nat
import NoiContest.Collection.Calls
import NoiContest.Collection.SubmissionId
import NoiContest.Pipeline.FinishRetry

/- Pipeline.collect: freezing the desktops, fetching the answers, choosing a source for every
   problem of every student, sending what no web submission covers, and the evidence. -/
namespace NoiContest.Collection
open Pipeline JsonText Flow

/- A handler that looks at local variables gets them with the error. -/
abbrev Holding (Locals α : Type) : Type := Program Call Answer Raised (Raised × Locals) α

def holding {Locals α : Type} (locals : Locals) (body : Procedure α) : Holding Locals α :=
  body.mapError fun error => (error, locals)

/- The rows that the judge has returned so far, under the uid and the problem. -/
abbrev Prefinalized := List ((Int × String) × Delivered)

/-- `_TID.fullmatch(rid)` -/
def isRid (rid : String) : Bool := PyText.isHexOf 24 rid

/- Confirming the web submissions -/

def finalizeProblem (uid : Int) (latest : List (String × WebRow)) (name : String)
    (prefinalized : Prefinalized) : Procedure Prefinalized := do
  match latest.lookup name with
  | none => pure prefinalized
  | some row =>
    if row.submissionId ≠ "" ∧ (prefinalized.lookup (uid, name)).isNone then
      Program.orElse (do
          let delivered ← call (.ensure row.id)
          pure (prefinalized ++ [((uid, name), delivered)]))
        fun _ => pure prefinalized
    else pure prefinalized

def finalizeProblems (uid : Int) (latest : List (String × WebRow)) :
    List String → Prefinalized → Procedure Prefinalized
  | [], prefinalized => pure prefinalized
  | name :: files, prefinalized => do
    let prefinalized ← finalizeProblem uid latest name prefinalized
    finalizeProblems uid latest files prefinalized

/- What was confirmed before an error stays confirmed. -/
def finalizeSeats (files : List String) : List Seat → Prefinalized → Holding Prefinalized Prefinalized
  | [], prefinalized => pure prefinalized
  | seat :: seats, prefinalized => do
    let latest ← holding prefinalized (call (.latestWebSubmissions seat.uid))
    let prefinalized ← holding prefinalized (finalizeProblems seat.uid latest files prefinalized)
    finalizeSeats files seats prefinalized

def finalizeRealtimeWeb (cfg : Config) (seats : List Seat) (files : List String)
    (prefinalized : Prefinalized) : Holding Prefinalized Prefinalized :=
  if cfg.submitEnabled = false ∨ cfg.realtimeJudge = false then pure prefinalized
  else do
    holding prefinalized (base (setState .collecting "确认网页实时评测记录"))
    finalizeSeats files seats prefinalized

/- The answers of one student -/

def answerRoot (outDir : String) (pooled : Bool) (seat : Seat) (slot : Option Nat) :
    Except Raised String :=
  match slot with
  | some slotNo => .ok (outDir ++ "/slots/" ++ PyText.threeDigits slotNo ++ "/answers")
  | none =>
    if pooled then .error (.runtime ("选手 " ++ seat.uname ++ " 的座位池映射丢失"))
    else .ok (outDir ++ "/" ++ toString seat.uid ++ "/answers")

def webItem (cfg : Config) (name : String) : Option WebRow → WebItem
  | some row => ⟨.ok, name ++ ".cpp", cfg.checkCode row.source name,
      some (⟨row.sha256, row.size⟩, row.createdAt)⟩
  | none => ⟨.missing, "", ["网页未提交 " ++ name ++ ".cpp（0 分）"], none⟩

def gatherWeb (cfg : Config) (dir : String) (latest : List (String × WebRow)) :
    List String → Dict String WebItem → Procedure (Dict String WebItem)
  | [], web => pure web
  | name :: files, web => do
    match latest.lookup name with
    | some row => call (.writeWebSource (dir ++ "/" ++ name ++ ".cpp") row.source)
    | none => pure ()
    gatherWeb cfg dir latest files (web.set name (webItem cfg name (latest.lookup name)))

/- The web submission of a problem is authoritative, the answer directory comes second. -/
def choose (item : FolderItem) (text : String) (web : WebItem) : Option WebRow → Chosen
  | some row =>
    { item :=
        { status := web.status, file := web.file, issues := web.issues,
          evidence := some ((web.evidence.map Prod.fst).getD ⟨"", 0⟩), origin := .webSubmit }
      source := row.source
      webRow := some row }
  | none =>
    { item :=
        { status := item.status, file := item.file, issues := item.issues,
          evidence := if item.file = "" then none
            else some ⟨Sha256.ofText text, text.utf8ByteSize⟩
          origin := .deadlineSnapshot }
      source := if item.file = "" then "" else text
      webRow := none }

def chooseProblem (root : String) (folder : Dict String FolderItem) (web : Dict String WebItem)
    (latest : List (String × WebRow)) (name : String) : Procedure Chosen := do
  match folder.get? name, web.get? name with
  | some item, some webItem =>
    let text ← (if item.file = "" then pure "" else call (.readAnswer root item.file))
    pure (choose item text webItem (latest.lookup name))
  | _, _ => Program.raise (.external "KeyError")

def chooseAll (root : String) (folder : Dict String FolderItem) (web : Dict String WebItem)
    (latest : List (String × WebRow)) :
    List String → Dict String Chosen → Procedure (Dict String Chosen)
  | [], chosen => pure chosen
  | name :: files, chosen => do
    let selected ← chooseProblem root folder web latest name
    chooseAll root folder web latest files (chosen.set name selected)

def gatherUser (cfg : Config) (outDir : String) (pooled : Bool) (files : List String)
    (seat : Seat) : Procedure UserAnswers := do
  let slot ← call (.seatPoolAssignment seat.uid)
  let root ← Program.ofExcept (answerRoot outDir pooled seat slot)
  let folder ← call (.checkAnswerTree root seat.candidate files)
  let latest ← call (.latestWebSubmissions seat.uid)
  let webDir := outDir ++ "/" ++ toString seat.uid ++ "/web"
  call (.makeWebDir webDir)
  let web ← gatherWeb cfg webDir latest files Dict.empty
  let chosen ← chooseAll root folder web latest files Dict.empty
  pure ⟨folder, web, chosen⟩

/- The reports are dictionaries under the user names. -/
def gather (cfg : Config) (outDir : String) (pooled : Bool) (files : List String) :
    List Seat → Dict String UserAnswers → Procedure (Dict String UserAnswers)
  | [], answers => pure answers
  | seat :: seats, answers => do
    let user ← gatherUser cfg outDir pooled files seat
    gather cfg outDir pooled files seats (answers.set seat.uname user)

/- The reports -/

def texts (items : List String) : Json := .arr (items.map .str)

def FolderItem.json (item : FolderItem) : Json :=
  .obj [("status", .str item.status.name), ("file", .str item.file), ("issues", texts item.issues)]

def WebItem.json (item : WebItem) : Json :=
  .obj ([("status", .str item.status.name), ("file", .str item.file),
    ("issues", texts item.issues)] ++
      match item.evidence with
      | some (evidence, submittedAt) => [("sha256", .str evidence.sha256),
          ("size", .int evidence.size), ("submitted_at", .str submittedAt)]
      | none => [])

def ReportItem.json (item : ReportItem) : Json :=
  .obj ([("status", .str item.status.name), ("file", .str item.file),
    ("issues", texts item.issues)] ++
      (match item.evidence with
      | some evidence => [("sha256", .str evidence.sha256), ("size", .int evidence.size)]
      | none => []) ++
      [("submission_source", .str item.origin.name),
        ("reuses_confirmed_submission", .bool (item.origin == .webSubmit))])

def dictJson {V : Type} (f : V → Json) (d : Dict String V) : Json :=
  .obj (d.items.map fun item => (item.1, f item.2))

def folderReport : Dict String UserAnswers → Json :=
  dictJson fun user => dictJson FolderItem.json user.folder

def webReport : Dict String UserAnswers → Json :=
  dictJson fun user => dictJson WebItem.json user.web

def selectionReport : Dict String UserAnswers → Json :=
  dictJson fun user => dictJson (fun chosen => .str chosen.item.origin.name) user.chosen

def mainReport : Dict String UserAnswers → Json :=
  dictJson fun user => dictJson (fun chosen => chosen.item.json) user.chosen

def writeReports (outDir : String) :
    List (String × Json) → Procedure (List (String × String))
  | [] => pure []
  | (file, payload) :: reports => do
    let digest ← call (.writeDurableJson (outDir ++ "/" ++ file) payload)
    let later ← writeReports outDir reports
    pure ((file, digest) :: later)

def reports (answers : Dict String UserAnswers) : List (String × Json) :=
  [("folder_report.json", folderReport answers), ("web_report.json", webReport answers),
    ("selection.json", selectionReport answers), ("report.json", mainReport answers)]

/- Sending -/

inductive LogEntry where
  | noPid
  | reused (rid : String) (preserved : Bool) (issues : Json)
  | notReused (error : String)
  | skipped (issues : List String)
  | sent (rid : String) (issues : List String)
  | badRid (rid : String) (issues : List String)
  | refused (fields : List (String × Json)) (issues : List String)

def LogEntry.ok : LogEntry → Bool
  | reused .. | skipped .. | sent .. => true
  | _ => false

def skipReason : String := "未收到规范目录下的非空代码，未向 OJ 代交"

def acceptedFields (rid : String) : List (String × Json) :=
  [("retryable", .bool false), ("rid", .str rid)]

def LogEntry.json : LogEntry → Json
  | noPid => .obj [("ok", .bool false), ("error", .str "未配置 Hydro pid")]
  | reused rid preserved issues => .obj [("ok", .bool true), ("rid", .str rid),
      ("reused_realtime", .bool true), ("source_preserved", .bool preserved), ("issues", issues)]
  | notReused error => .obj [("ok", .bool false), ("error", .str error),
      ("reused_realtime", .bool true)]
  | skipped issues => .obj [("ok", .bool true), ("skipped", .bool true), ("submitted", .bool false),
      ("reason", .str skipReason), ("issues", texts issues)]
  | sent rid issues => .obj (("ok", .bool true) :: acceptedFields rid ++
      [("source_preserved", .bool true), ("issues", texts issues)])
  | badRid rid issues => .obj (("ok", .bool false) :: acceptedFields rid ++
      [("source_preserved", .bool true), ("issues", texts issues),
        ("error", .str "OJ 未返回有效递交编号")])
  | refused fields issues => .obj (("ok", .bool false) :: fields ++
      [("source_preserved", .bool true), ("issues", texts issues)])

/- What the run knows when it sends. -/
structure Sending where
  tid : String
  session : String
  pids : List (String × String)
  prefinalized : Prefinalized

def reuse (delivered : Delivered) : Except Raised LogEntry :=
  if isRid delivered.rid = false then .error (.runtime "OJ 未返回有效递交编号")
  else match delivered.judgeIssues with
    | some issues =>
      .ok (.reused delivered.rid (delivered.judgeSource == delivered.source) issues)
    | none => .error (.external "JSONDecodeError")

def submitProblem (cfg : Config) (s : Sending) (uid : Int) (name : String) (chosen : Chosen) :
    Procedure LogEntry :=
  match (s.pids.lookup name).filter (· ≠ "") with
  | none => pure .noPid
  | some pid =>
    let judged := chosen.webRow.filter fun row => row.submissionId ≠ "" ∧ cfg.realtimeJudge = true
    match judged with
    | some row =>
      Program.orElse (do
          let delivered ← (match s.prefinalized.lookup (uid, name) with
            | some delivered => pure delivered
            | none => call (.ensure row.id))
          Program.ofExcept (reuse delivered))
        fun error => pure (.notReused error.text)
    | none =>
      if chosen.item.status ≠ .ok ∨ PyText.strip chosen.source = "" then
        pure (.skipped chosen.item.issues)
      else do
        let args : SubmitArgs := ⟨s.tid, uid, pid, chosen.source, submissionId s.session s.tid uid pid⟩
        match ← call (.submitOne args) with
        | .accepted rid =>
          if isRid rid then pure (.sent rid chosen.item.issues)
          else pure (.badRid rid chosen.item.issues)
        | .refused fields => pure (.refused fields chosen.item.issues)

def submitUser (cfg : Config) (s : Sending) (uid : Int) :
    List (String × Chosen) → Procedure (List (String × LogEntry))
  | [] => pure []
  | (name, chosen) :: rest => do
    let entry ← submitProblem cfg s uid name chosen
    let later ← submitUser cfg s uid rest
    pure ((name, entry) :: later)

def submitAll (cfg : Config) (s : Sending) (answers : Dict String UserAnswers) :
    List Seat → Procedure (List (Seat × List (String × LogEntry)))
  | [] => pure []
  | seat :: seats => do
    match answers.get? seat.uname with
    | none => Program.raise (.external "KeyError")
    | some user =>
      let log ← submitUser cfg s seat.uid user.chosen.items
      let later ← submitAll cfg s answers seats
      pure ((seat, log) :: later)

def failures (log : List (Seat × List (String × LogEntry))) : Nat :=
  (log.map fun user => user.2.countP fun entry => entry.2.ok == false).sum

/- The log is a dictionary under the user names. -/
def submitLog (log : List (Seat × List (String × LogEntry))) : Json :=
  dictJson (fun user => Json.obj (user.map fun entry => (entry.1, entry.2.json)))
    (log.foldl (fun d user => d.set user.1.uname user.2) Dict.empty)

def send (cfg : Config) (s : Sending) (answers : Dict String UserAnswers) (seats : List Seat) :
    Procedure (Nat × Json) :=
  if cfg.submitEnabled then do
    let log ← submitAll cfg s answers seats
    pure (failures log, submitLog log)
  else pure (0, .obj [("_status", .str "Hydro 回传已禁用")])

/- The evidence -/

structure Receipt where
  tid : String
  runId : String
  completedAtMs : Int
  cutoffAtMs : Int
  shutdownAfterMs : Int
  seatCount : Nat
  problemCount : Nat
  files : List (String × String)
  deriving DecidableEq, Repr

def Receipt.fields (receipt : Receipt) : List (String × Json) :=
  [("schema_version", .int 1), ("tid", .str receipt.tid), ("run_id", .str receipt.runId),
    ("completed_at_ms", .int receipt.completedAtMs), ("cutoff_at_ms", .int receipt.cutoffAtMs),
    ("shutdown_after_ms", .int receipt.shutdownAfterMs),
    ("seat_count", .int receipt.seatCount), ("problem_count", .int receipt.problemCount),
    ("submit_failures", .int 0),
    ("files", .obj (receipt.files.map fun file => (file.1, .str file.2)))]

def Receipt.json (receipt : Receipt) : Json := .obj receipt.fields

def shutdownAfter (cfg : Config) (contest : Contest) (completedAtMs : Int) : Int :=
  max completedAtMs ((if contest.endAtMs = 0 then completedAtMs else contest.endAtMs) +
    cfg.shutdownGraceMinutes * 60 * 1000)

/- What collect does once the desktops are frozen and the web submissions confirmed. -/
def archiveAndSend (cfg : Config) (tid : String) (contest : Contest) (seats : List Seat)
    (pooled : Bool) (prefinalized : Prefinalized) : Procedure (Dict String UserAnswers) := do
  base (setState .collecting "打包并下载提交")
  call (.packAnswers pooled)
  let runId ← call .newRunId
  let outDir := cfg.collectedDir ++ "/" ++ tid ++ "/" ++ runId
  call (.makeOutDir outDir)
  Program.andFinally (do
      call .getArchive
      call (.extract outDir))
    (call .removeRemoteArchive)
  let answers ← gather cfg outDir pooled contest.files seats Dict.empty
  let digests ← writeReports outDir (reports answers)
  let pids ← (match contest.pids with
    | some pids => pure pids
    | none => Program.raise (.external "JSONDecodeError"))
  let (failed, log) ← send cfg ⟨tid, contest.submissionSession, pids, prefinalized⟩ answers seats
  let logDigest ← call (.writeDurableJson (outDir ++ "/" ++ "submit_log.json") log)
  raiseIf (failed ≠ 0)
    ("已收卷 " ++ toString seats.length ++ " 人；报告位于 " ++ outDir ++ "；Hydro 回传失败 " ++
      toString failed ++ " 项，请查 submit_log.json 后重试收卷")
  let manifest ← call (.archiveTreeManifest outDir)
  let manifestDigest ← call (.writeDurableJson (outDir ++ "/" ++ "archive_manifest.json") manifest)
  let completedAtMs ← base clock
  let receipt : Receipt :=
    { tid := tid
      runId := runId
      completedAtMs := completedAtMs
      cutoffAtMs := contest.endAtMs
      shutdownAfterMs := shutdownAfter cfg contest completedAtMs
      seatCount := seats.length
      problemCount := contest.files.length
      files := digests ++ [("submit_log.json", logDigest), ("archive_manifest.json", manifestDigest)] }
  let receiptDigest ← call (.writeDurableJson (outDir ++ "/" ++ "collection_receipt.json") receipt.json)
  let committed ← call (.enterSafeWait
    { runId := runId
      collectionDir := outDir
      receiptSha256 := receiptDigest
      completedAtMs := completedAtMs
      shutdownAfterMs := receipt.shutdownAfterMs
      message := "已完成 " ++ toString seats.length ++ " 人收卷；未交题目已标记，答案已冻结，" ++
        "等待截止后 " ++ toString cfg.shutdownGraceMinutes ++ " 分钟安全关机" })
  raiseIf (committed = false) "回收凭据已生成，但安全等待状态提交失败"
  pure answers

/- The whole procedure -/

structure Finalizer where
  seats : List Seat
  files : List String
  prefinalized : Prefinalized

/- The local variables that the handler looks at: `finalize_realtime_web` and `desktops_frozen`. -/
structure Locals where
  finalizer : Option Finalizer := none
  frozen : Bool := false

def startCollecting : Procedure Unit := do
  let moved ← call (.transition [.ready, .error] .collecting "停止桌面并收卷")
  raiseIf (moved = false) "当前比赛状态不允许收卷"

def revokeOrStop : Procedure Unit :=
  Program.orElse (call .revokeDesktopAccess) fun error => do
    call .stopServerBestEffort
    Program.raise error

def claim (claimed : Bool) : Procedure Contest := do
  (if claimed then pure () else startCollecting)
  match ← base getContest with
  | none => raise "比赛未登记"
  | some contest => do
    revokeOrStop
    pure contest

def seatTable : Procedure (List Seat) := do
  let seats ← call .seats
  raiseIf (seats = []) "座位表为空，无法收卷"
  pure seats

/- Whether the contest has pool resources. -/
def freezeDesktops (seats : List Seat) : Procedure Bool := do
  call .ensureServer
  let reachable ← base waitSsh
  raiseIf (reachable = false) "收卷时 SSH 不可达"
  let resources ← base seatPoolResources
  let names := if resources = [] then seats.map (·.container) else resources.map (·.container)
  base (setState .collecting "冻结桌面")
  call (.freezeForCollection names)
  pure (resources ≠ [])

def collectBody (cfg : Config) (tid : String) (claimed : Bool) :
    Holding Locals (Dict String UserAnswers) := do
  let contest ← holding {} (claim claimed)
  let seats ← holding {} seatTable
  let started : Finalizer := ⟨seats, contest.files, []⟩
  let pooled ← holding { finalizer := some started } (freezeDesktops seats)
  holding { finalizer := some started, frozen := true } (base (freezePool tid contest.endAtMs))
  let prefinalized ← Program.mapError
    (fun failed => (failed.1, ⟨some { started with prefinalized := failed.2 }, true⟩))
    (finalizeRealtimeWeb cfg seats contest.files [])
  holding ⟨some { started with prefinalized := prefinalized }, true⟩
    (archiveAndSend cfg tid contest seats pooled prefinalized)

/-- `if "finalize_realtime_web" in locals()` -/
def finalizeAgain (cfg : Config) : Option Finalizer → Procedure Unit
  | none => pure ()
  | some f => quietly (Program.mapError Prod.fst (do
      let _ ← finalizeRealtimeWeb cfg f.seats f.files f.prefinalized))

def collectFailed {α : Type} (cfg : Config) (error : Raised) (locals : Locals) : Procedure α := do
  (if locals.frozen then pure () else quietly (call .stopServerBestEffort))
  finalizeAgain cfg locals.finalizer
  base (setState .error error.text)
  Program.raise error

/- The end of the `finally` block where the ingress may still be open. -/
def leaveUnconfirmed {α : Type} (outcome : Except Raised α) : Procedure α := do
  base leave
  match outcome with
  | .ok _ => do
    base (setState .error "收卷完成，但桌面公网入口未确认撤销")
    raise "桌面公网入口未确认撤销"
  | .error error => Program.raise error

/- The end of the `finally` block, with the outcome of closing the ingress. -/
def closed {α : Type} (outcome : Except Raised α) : Except Raised Unit → Procedure α
  | .ok _ => do
    base leave
    Program.ofExcept outcome
  | .error _ => do
    quietly (call .stopServerBestEffort)
    leaveUnconfirmed outcome

/- The `finally` block after the given outcome. -/
def closeCollect {α : Type} (outcome : Except Raised α) : Procedure α := do
  let revoked ← Program.attempt (call .revokeDesktopAccess)
  quietly (call .disableFrontend)
  closed outcome revoked

def collect (cfg : Config) (tid : String) (claimed : Bool) : Procedure (Dict String UserAnswers) := do
  base (enter tid)
  let outcome ← Program.attempt (Program.orElse (collectBody cfg tid claimed) fun failed =>
    collectFailed cfg failed.1 failed.2 : Procedure (Dict String UserAnswers))
  closeCollect outcome

end NoiContest.Collection
