import NoiContest.Lib.Effect
import NoiContest.Lib.Runs
import NoiContest.Materials.Handlers

/- Artifact jobs one after another: what a new job takes over from a failed one, how it uses a
   saved preflight answer, and how the plugin checks the preflight that a clone request names. -/
namespace NoiContest.Materials.SavedPreflight
open Effect JsonText Outcome
open Pipeline (Raised)

/- Slug and pid. -/
abbrev Problem : Type := String × String

abbrev Mapping : Type := List (String × Json)

def isTrue : Option Json → Bool
  | some (.bool true) => true
  | _ => false

def text? : Option Json → Option String
  | some (.str text) => some text
  | _ => none

def isInt : Option Json → Bool
  | some (.int _) => true
  | _ => false

def isMapping : Option Json → Bool
  | some (.obj _) => true
  | _ => false

/-- `hydro` stands for the text that _failure_message draws from the answer. -/
inductive Failure where
  | orchestration (message : String)
  | hydro (answer : Json) (fallback : String)
  | raised (error : Raised)

def preflightId (preflight : Mapping) : String := (text? (preflight.lookup "preflight_id")).getD ""

def areHashes : Option Json → Bool
  | some (.arr values) => values.all fun value => match value with
    | .str hash => PyText.isLowerHexOf 64 hash
    | _ => false
  | _ => false

/-- The slug of a valid item. -/
def checkItem (requested : List Problem) (seen : List String) : Json → Option String
  | .obj item =>
    match text? (item.lookup "slug") with
    | none => none
    | some slug =>
      if (requested.lookup slug).isNone ∨ slug ∈ seen ∨
          text? (item.lookup "pid") ≠ requested.lookup slug ∨
          isInt (item.lookup "doc_id") = false ∨
          (text? (item.lookup "content")).isNone ∨ (text? (item.lookup "title")).isNone ∨
          isMapping (item.lookup "time_ms") = false ∨
          isMapping (item.lookup "memory_mb") = false ∨
          areHashes (item.lookup "formal_input_sha256") = false
      then none else some slug
  | _ => none

def checkItems (requested : List Problem) : List String → List Json → Option (List String)
  | seen, [] => some seen
  | seen, item :: rest => do
    let slug ← checkItem requested seen item
    checkItems requested (slug :: seen) rest

def validatePreflight (tid : String) (requested : List Problem) (preflight : Mapping) :
    Except Failure Unit := do
  Outcome.raiseIf (isTrue (preflight.lookup "ok") = false ∨
      isTrue (preflight.lookup "safe_to_apply") = false ∨
      text? (preflight.lookup "tid") ≠ some tid ∨
      PyText.isLowerHexOf 64 (preflightId preflight) = false)
    (.orchestration "Hydro 题目预检没有通过安全门")
  match preflight.lookup "problems" with
  | some (.arr items) =>
    Outcome.raiseIf (items.length ≠ requested.length) (.orchestration "Hydro 题目预检数量不一致")
    match checkItems requested [] items with
    | none => throw (.orchestration "Hydro 题目预检内容无效")
    | some seen =>
      Outcome.raiseIf (∃ problem ∈ requested, problem.1 ∉ seen)
        (.orchestration "Hydro 题目预检集合不一致")
  | _ => throw (.orchestration "Hydro 题目预检数量不一致")

/- The plugin -/

structure ApplyRequest where
  tid : String
  problems : List Problem
  operationId : String
  approvalId : String
  preflightId : String

inductive PluginError where
  | blocked (blockers : List String) | conflict | raised (message : String)

def PluginError.text : PluginError → String
  | .blocked blockers => String.intercalate "," blockers
  | .conflict => "conflict"
  | .raised message => message

/-- The public part of a safe preflight. -/
structure Snapshot where
  preflightId : String
  contestTitle : String
  beginAt : String
  endAt : String
  problems : List Json

/- An entry of the draft journal, `copied` when every clone in it is verified. -/
structure Draft where
  fingerprint : String
  complete : Bool
  copied : Bool

/-- What the plugin finds in Hydro when it handles a request. `blockers` are those of the contest
    itself, `fileIo` is the operation whose clones the contest has, `same` are the other
    comparisons of the contest with an entry, and `clone` is the work behind the checks. -/
structure Hydro where
  blockers : List String
  fileIo : Option String
  source : List Problem → Except PluginError Snapshot
  drafts : String → Option Draft
  same : String → Bool
  result : String → Mapping
  clone : ApplyRequest → Except PluginError Mapping

namespace Hydro

def contestProblemDraftBlockers (h : Hydro) : List String :=
  h.blockers ++ if h.fileIo.isSome then ["file_io_clone_already_applied"] else []

def buildProblemDraftPreflight (h : Hydro) (tid : String) (problems : List Problem) :
    Except PluginError Mapping :=
  if h.contestProblemDraftBlockers ≠ [] then
    .ok [("safe_to_apply", .bool false),
      ("blockers", .arr (h.contestProblemDraftBlockers.map .str)), ("tid", .str tid),
      ("preflight_id", .str ""), ("problems", .arr [])]
  else do
    let snapshot ← h.source problems
    return [("safe_to_apply", .bool true), ("blockers", .arr []), ("tid", .str tid),
      ("preflight_id", .str snapshot.preflightId), ("contest_title", .str snapshot.contestTitle),
      ("begin_at", .str snapshot.beginAt), ("end_at", .str snapshot.endAt),
      ("problems", .arr snapshot.problems)]

def problemDraftFingerprint (r : ApplyRequest) : String :=
  Sha256.ofText (dumps (.arr [.str "noi-fileio-apply-v1", .str r.tid, .str r.preflightId,
    .str r.approvalId, .arr (r.problems.map fun problem =>
      .obj [("pid", .str problem.2), ("slug", .str problem.1)])]))

def contestMatchesAppliedProblemDraft (h : Hydro) (operationId : String) (entry : Draft) : Bool :=
  entry.copied && h.fileIo == some operationId && h.same operationId

/- A clone is made for the preflight that Hydro finds now. -/
def cloneFresh (h : Hydro) (r : ApplyRequest) : Except PluginError Mapping := do
  let preflight ← h.buildProblemDraftPreflight r.tid r.problems
  Outcome.raiseIf (isTrue (preflight.lookup "safe_to_apply") = false)
    (.blocked h.contestProblemDraftBlockers)
  Outcome.raiseIf (preflightId preflight ≠ r.preflightId) .conflict
  h.clone r

def apply (h : Hydro) (r : ApplyRequest) : Except PluginError Mapping :=
  match h.drafts r.operationId with
  | none => h.cloneFresh r
  | some entry =>
    if entry.fingerprint ≠ problemDraftFingerprint r then .error .conflict
    else if entry.complete = true ∨ entry.copied = true then
      if h.contestMatchesAppliedProblemDraft r.operationId entry then .ok (h.result r.operationId)
      else if entry.complete = true ∨ h.fileIo = some r.operationId then .error .conflict
      else h.cloneFresh r
    else h.cloneFresh r

end Hydro

/-- What the client makes of the response. -/
def clientAnswer : Except PluginError Mapping → Mapping
  | .ok body => ("ok", .bool true) :: ("retryable", .bool false) :: body
  | .error error => [("ok", .bool false), ("retryable", .bool false), ("error", .str error.text)]

/-- `HydroProblemDraftClient.operation_id` -/
def draftOperationId (tid preflightId approvalId : String) : Except Failure String := do
  Outcome.raiseIf (PyText.isHexOf 24 tid = false)
    (.raised (.valueError "tid must be a 24-character Mongo ObjectId"))
  Outcome.raiseIf (PyText.isLowerHexOf 64 preflightId = false)
    (.raised (.valueError "preflight_id must be 64 lowercase hexadecimal characters"))
  Outcome.raiseIf (PyText.isLowerHexOf 64 approvalId = false)
    (.raised (.valueError "approval_id must be 64 lowercase hexadecimal characters"))
  return Sha256.ofText (dumps (.arr [.str "noi-fileio-apply-v1", .str tid.toLower,
    .str preflightId, .str approvalId]))

/- Jobs -/

structure Details where
  submissionSession : String
  requestedProblems : List Problem
  approvedBy : String
  approvalId : String
  stage : String := "queued"
  resumedFrom : Option String := none
  preflight : Option Mapping := none
  operationId : Option String := none
  apply : Option Mapping := none
  warnings : List String := []
  fileIoPlan : List Json := []

structure Job where
  jobId : String
  state : JobState := .queued
  error : Option Failure := none
  details : Details

/- The contest row and the jobs of the contest, the latest one last. -/
structure Registry where
  contest : Contest
  jobs : List Job

/-- What a job finds outside of the rows. `bind` goes from _validate_apply to the clone map and
    the file plan, and `generate` from the clone snapshot to the stored revision. The store fails
    at write `brokenSave`, and the service restarts after write `restarted`. -/
structure Surroundings where
  contestState : ContestState
  preflight : List Problem → Except Failure Json
  gates : Mapping → Except Failure (List String)
  hydro : Hydro
  bind : Mapping → Except Failure (List Problem × List Json)
  generate : List Problem → Except Failure Unit
  brokenSave : Option Nat := none
  restarted : Option Nat := none

structure Request where
  jobId : String
  approvedBy : String

/-- The selected keys of a failed or interrupted job of the same session and slugs. -/
def resume (session : String) (requested : List Problem) (details : Details) :
    Option Job → Details
  | none => details
  | some previous =>
    if (previous.state = .error ∨ previous.state = .interrupted) ∧
        previous.details.submissionSession = session ∧
        (previous.details.requestedProblems.map (·.1)).Perm (requested.map (·.1)) then
      { details with
        requestedProblems := previous.details.requestedProblems
        approvalId := previous.details.approvalId
        preflight := previous.details.preflight
        operationId := previous.details.operationId
        apply := previous.details.apply
        resumedFrom := some previous.jobId }
    else details

def newDetails (contest : Contest) (requested : List Problem) (jobId teacher : String) :
    Details where
  submissionSession := contest.submissionSession
  requestedProblems := requested
  approvedBy := teacher
  approvalId := approvalId contest.tid contest.submissionSession jobId teacher

def start (r : Registry) (request : Request) : Except Failure Job := do
  let conflict (message : String) : Failure := .raised (.store (.submissionConflict message))
  Outcome.raiseIf (r.contest.materialsMode ≠ "ai") (conflict "本场不是 AI 材料模式")
  let requested ← (registeredProblems r.contest).mapError .raised
  Outcome.raiseIf (¬ MaterialTables.isSession r.contest.submissionSession)
    (.orchestration "比赛提交会话无效")
  let teacher := PyText.strip request.approvedBy
  Outcome.raiseIf (teacher = "" ∨ 256 < teacher.utf8ByteSize) (.orchestration "教师账号无效")
  Outcome.raiseIf (r.jobs.getLast?.map (·.state) = some .done)
    (conflict "本场材料已成功生成，不能直接重新生成")
  Outcome.raiseIf (∃ job ∈ r.jobs, job.state.active = true) (conflict "本场已有材料生成任务正在执行")
  return { jobId := request.jobId
           details := resume r.contest.submissionSession requested
             (newDetails r.contest requested request.jobId teacher) r.jobs.getLast? }

/- The dictionary of the worker, the rows as they are now, and the rows before each write. -/
structure Worker where
  details : Details
  contest : Contest
  stored : Details
  past : List (Contest × Details) := []

abbrev Work := EStateM Failure Worker

def orRaise {α : Type} (x : Except Failure α) : Work α :=
  match x with
  | .ok a => return a
  | .error failure => throw failure

def setDetails (f : Details → Details) : Work Unit :=
  modify fun w => { w with details := f w.details }

def written (w : Worker) (contest : Contest) (stored : Details) : Worker :=
  { w with contest, stored, past := w.past ++ [(w.contest, w.stored)] }

def save (env : Surroundings) (stage : String) : Work Unit := do
  setDetails fun details => { details with stage }
  let w ← get
  orRaise (Outcome.raiseIf (env.brokenSave = some w.past.length) (.raised (.external "store")))
  modify fun w => written w w.contest w.details

def mappingOf (answer : Json) (fallback : String) : Except Failure Mapping :=
  match answer with
  | .obj answer' =>
    if isTrue (answer'.lookup "ok") = true then .ok answer' else .error (.hydro answer fallback)
  | _ => .error (.hydro answer fallback)

/- The answer is kept before it is validated. -/
def obtainPreflight (env : Surroundings) : Work Mapping := do
  let w ← get
  match w.details.preflight with
  | some preflight => return preflight
  | none =>
    let answer ← orRaise (env.preflight w.details.requestedProblems)
    let preflight ← orRaise (mappingOf answer "Hydro 题目预检失败")
    setDetails fun details => { details with preflight := some preflight }
    return preflight

def obtainClones (env : Surroundings) (request : ApplyRequest) : Work Mapping := do
  let w ← get
  match w.details.apply with
  | some applied => return applied
  | none =>
    let current ← orRaise ((registeredProblems w.contest).mapError .raised)
    orRaise (Outcome.raiseIf (¬ current.Perm request.problems)
      (.orchestration "本场题目映射在预检后已改变，拒绝克隆"))
    let applied ← orRaise (mappingOf (.obj (clientAnswer (env.hydro.apply request)))
      "Hydro 私有题克隆失败")
    setDetails fun details => { details with apply := some applied }
    return applied

def bindAndGenerate (env : Surroundings) (applied : Mapping) : Work Unit := do
  let (clones, plan) ← orRaise (env.bind applied)
  setDetails fun details => { details with fileIoPlan := plan }
  save env "binding_private_clones"
  modify fun w => written w { w.contest with pids := some clones } w.stored
  save env "generating"
  orRaise (env.generate clones)

def cloneAndGenerate (env : Surroundings) (request : ApplyRequest) : Work Unit := do
  bindAndGenerate env (← obtainClones env request)

/- The part of the job that needs a preflight. `w` is the worker as the job began. -/
def goOn (env : Surroundings) (w : Worker) (preflight : Mapping) : Work Unit := do
  let tid := w.contest.tid
  let requested := w.details.requestedProblems
  orRaise (validatePreflight tid requested preflight)
  let warnings ← orRaise (env.gates preflight)
  setDetails fun details => { details with warnings }
  save env "preclone_gates_passed"
  let approvalId := w.details.approvalId
  orRaise (Outcome.raiseIf (PyText.isLowerHexOf 64 approvalId = false)
    (.orchestration "任务缺少有效的教师克隆批准号"))
  let expected ← orRaise (draftOperationId tid (preflightId preflight) approvalId)
  orRaise (Outcome.raiseIf (operationChanged w.details.operationId expected)
    (.orchestration "已保存的克隆操作号与教师批准不一致"))
  setDetails fun details => { details with operationId := some expected }
  save env "applying_private_clones"
  cloneAndGenerate env ⟨tid, requested, expected, approvalId, preflightId preflight⟩

def work (env : Surroundings) : Work Unit := do
  let w ← get
  orRaise (Outcome.raiseIf
    (¬ MaterialTables.MayChangeMaterials { w.contest with state := env.contestState })
    (.orchestration "比赛已进入备赛或运行阶段"))
  orRaise (Outcome.raiseIf (w.details.submissionSession ≠ w.contest.submissionSession)
    (.orchestration "比赛已重新登记，材料任务已过期"))
  orRaise (Outcome.raiseIf (w.details.requestedProblems = [])
    (.orchestration "任务缺少原始题目映射"))
  save env "preflight"
  let preflight ← obtainPreflight env
  goOn env w preflight

def startWorker (r : Registry) (job : Job) : Worker :=
  { details := job.details, contest := r.contest, stored := job.details }

/- A restart of the service leaves the rows as some write left them. -/
def settle (env : Surroundings) (job : Job) (w : Worker) (ended : Contest × Job) :
    Contest × Job :=
  match env.restarted with
  | none => ended
  | some writes =>
    match (w.past ++ [(w.contest, w.stored)])[writes]? with
    | none => ended
    | some rows => (rows.1, { job with state := .interrupted, details := rows.2 })

def runJob (env : Surroundings) (r : Registry) (job : Job) : Contest × Job :=
  match work env (startWorker r job) with
  | .ok _ w => settle env job w
      (w.contest, { job with state := .done, details := { w.details with stage := "review" } })
  | .error failure w => settle env job w
      (w.contest, { job with state := .error, error := some failure,
                             details := { w.details with stage := "error" } })

/-- One click of the teacher. -/
def Registry.step (r : Registry) (click : Request × Surroundings) : Registry :=
  match start r click.1 with
  | .error _ => r
  | .ok job =>
    let ended := runJob click.2 r job
    { contest := ended.1, jobs := r.jobs ++ [ended.2] }

/- What a job needs to complete -/

/-- The program returns, with the property of its result and of the worker. -/
abbrev Completes {α : Type} (x : Work α) (w : Worker) (post : α → Worker → Prop) : Prop :=
  Ends x w post fun _ _ => False

@[simp] theorem completes_orRaise {α : Type} {x : Except Failure α} {w : Worker}
    {post : α → Worker → Prop} :
    Completes (orRaise x) w post ↔ ∃ a, x = .ok a ∧ post a w := by
  cases x with
  | error failure => simp [orRaise, Completes]
  | ok a => simp [orRaise, Completes]

@[simp] theorem completes_setDetails {f : Details → Details} {w : Worker}
    {post : Unit → Worker → Prop} :
    Completes (setDetails f) w post ↔ post () { w with details := f w.details } := Iff.rfl

theorem mappingOf_clientAnswer {x : Except PluginError Mapping} {fallback : String}
    {applied : Mapping} :
    mappingOf (.obj (clientAnswer x)) fallback = .ok applied ↔
      ∃ body, x = .ok body ∧ clientAnswer (.ok body) = applied := by
  cases x with
  | error error => simp [mappingOf, clientAnswer, isTrue]
  | ok body => simp [mappingOf, clientAnswer, isTrue]

section Work
variable {env : Surroundings} {w : Worker}

theorem completes_save (unbroken : env.brokenSave = none) {stage : String}
    {post : Unit → Worker → Prop} :
    Completes (save env stage) w post ↔
      post () (written { w with details := { w.details with stage } } w.contest
        { w.details with stage }) := by
  simp [save, Completes, ends_bind, unbroken, setDetails]

theorem completes_saved {preflight : Mapping} (saved : w.details.preflight = some preflight)
    {post : Mapping → Worker → Prop} :
    Completes (obtainPreflight env) w post ↔ post preflight w := by
  simp [obtainPreflight, Completes, saved]

theorem completes_asked {preflight : Mapping} (unsaved : w.details.preflight = none)
    (answer : env.preflight w.details.requestedProblems = .ok (.obj preflight))
    (granted : isTrue (preflight.lookup "ok") = true) {post : Mapping → Worker → Prop} :
    Completes (obtainPreflight env) w post ↔
      post preflight { w with details := { w.details with preflight := some preflight } } := by
  simp [obtainPreflight, unsaved, answer, mappingOf, granted]

theorem completes_obtainClones {request : ApplyRequest} (unapplied : w.details.apply = none)
    {current : List Problem} (registered : registeredProblems w.contest = .ok current)
    (same : current.Perm request.problems) {post : Mapping → Worker → Prop} :
    Completes (obtainClones env request) w post ↔
      ∃ body, env.hydro.apply request = .ok body ∧
        post (clientAnswer (.ok body))
          { w with details := { w.details with apply := some (clientAnswer (.ok body)) } } := by
  simp [obtainClones, unapplied, registered, Except.mapError, same, mappingOf_clientAnswer]

end Work

theorem Hydro.safe_unmarked {h : Hydro} {tid : String} {problems : List Problem}
    {preflight : Mapping} (built : h.buildProblemDraftPreflight tid problems = .ok preflight)
    (safe : isTrue (preflight.lookup "safe_to_apply") = true) : h.fileIo = none := by
  unfold buildProblemDraftPreflight at built
  split at built
  · cases built
    simp [isTrue] at safe
  · rename_i unblocked
    have clear : h.contestProblemDraftBlockers = [] := by simpa using unblocked
    unfold contestProblemDraftBlockers at clear
    cases marked : h.fileIo with
    | none => rfl
    | some operation => simp [marked] at clear

/- The plugin clones nothing for a preflight other than the one it finds. -/
theorem Hydro.applied_current {h : Hydro} {r : ApplyRequest} {preflight body : Mapping}
    (built : h.buildProblemDraftPreflight r.tid r.problems = .ok preflight)
    (safe : isTrue (preflight.lookup "safe_to_apply") = true) (applied : h.apply r = .ok body) :
    r.preflightId = preflightId preflight := by
  have unmarked := safe_unmarked built safe
  have fresh : h.cloneFresh r = .ok body := by
    unfold apply at applied
    split at applied
    · exact applied
    · simp only [contestMatchesAppliedProblemDraft, unmarked] at applied
      split_ifs at applied
      all_goals simp_all
  simp only [cloneFresh, built, ok_bind, bind_ok, raiseIf_ok, not_not] at fresh
  obtain ⟨_, _, _, same, _⟩ := fresh
  exact same.symm

/-- Hydro's current preflight answer is safe and stable, and all that comes after it works. -/
structure Works (env : Surroundings) (tid : String) (requested : List Problem)
    (current : Mapping) : Prop where
  identified : PyText.isHexOf 24 tid = true
  state : env.contestState = .registered ∨ env.contestState = .error
  unbroken : env.brokenSave = none
  undisturbed : env.restarted = none
  answered : env.preflight requested = .ok (.obj current)
  safe : validatePreflight tid requested current = .ok ()
  gated : ∃ warnings, env.gates current = .ok warnings
  stable : ∃ preflight, env.hydro.buildProblemDraftPreflight tid requested = .ok preflight ∧
    isTrue (preflight.lookup "safe_to_apply") = true ∧
    preflightId preflight = preflightId current
  clones : ∀ r : ApplyRequest, r.tid = tid → r.problems = requested →
    r.preflightId = preflightId current → ∃ body, env.hydro.apply r = .ok body
  bound : ∀ r body, env.hydro.apply r = .ok body →
    ∃ bound, env.bind (clientAnswer (.ok body)) = .ok bound
  generated : ∀ clones, env.generate clones = .ok ()

/-- A saved answer passes the checks as they are now, and is for what Hydro has now. -/
structure Usable (env : Surroundings) (tid : String) (requested : List Problem)
    (current preflight : Mapping) : Prop where
  safe : validatePreflight tid requested preflight = .ok ()
  gated : ∃ warnings, env.gates preflight = .ok warnings
  current : preflightId preflight = preflightId current

theorem validated {tid : String} {requested : List Problem} {preflight : Mapping}
    (safe : validatePreflight tid requested preflight = .ok ()) :
    isTrue (preflight.lookup "ok") = true ∧
      PyText.isLowerHexOf 64 (preflightId preflight) = true := by
  unfold validatePreflight at safe
  obtain ⟨_, checked, _⟩ := bind_ok.mp safe
  rw [raiseIf_ok] at checked
  push Not at checked
  exact ⟨by simpa using checked.1, by simpa using checked.2.2.2⟩

/- The operation that a job stored is the one of the preflight and the approval it stored. -/
def Consistent (tid : String) (details : Details) : Prop :=
  ∀ operation ∈ details.operationId, ∃ preflight ∈ details.preflight,
    draftOperationId tid (preflightId preflight) details.approvalId = .ok operation

theorem consistent_unchanged {tid : String} {details : Details} (sound : Consistent tid details)
    {preflight : Mapping} (saved : ∀ stored ∈ details.preflight, stored = preflight)
    {expected : String}
    (operation : draftOperationId tid (preflightId preflight) details.approvalId = .ok expected) :
    ¬ operationChanged details.operationId expected := by
  rintro ⟨stored, mem, _, different⟩
  obtain ⟨answer, kept, same⟩ := sound stored mem
  rw [saved answer kept, operation] at same
  exact different (Except.ok.inj same).symm

section Completion
variable {env : Surroundings} {tid : String} {requested : List Problem} {current : Mapping}
  (works : Works env tid requested current)
include works

theorem completes_bindAndGenerate (w : Worker) {request : ApplyRequest} {body : Mapping}
    (applied : env.hydro.apply request = .ok body) :
    Completes (bindAndGenerate env (clientAnswer (.ok body))) w (fun _ _ => True) := by
  obtain ⟨⟨clones, plan⟩, bound⟩ := works.bound request body applied
  simp [bindAndGenerate, bound, completes_save works.unbroken, works.generated]

theorem completes_cloneAndGenerate {w : Worker} {request : ApplyRequest}
    (ofContest : request.tid = tid) (problems : request.problems = requested)
    (registered : registeredProblems w.contest = .ok requested)
    (unapplied : w.details.apply = none) :
    Completes (cloneAndGenerate env request) w (fun _ _ => True) ↔
      request.preflightId = preflightId current := by
  obtain ⟨found, built, safe, same⟩ := works.stable
  have listed : requested.Perm request.problems := by rw [problems]
  simp only [cloneAndGenerate, ends_bind, completes_obtainClones unapplied registered listed]
  constructor
  · rintro ⟨body, applied, _⟩
    rw [← same]
    exact Hydro.applied_current (by rw [ofContest, problems, built]) safe applied
  · intro named
    obtain ⟨body, applied⟩ := works.clones request ofContest problems named
    exact ⟨body, applied, completes_bindAndGenerate works _ applied⟩

/- From its preflight on, a job completes exactly if the answer is usable. -/
theorem completes_goOn {w v : Worker} (ofContest : w.contest.tid = tid)
    (problems : w.details.requestedProblems = requested)
    (registered : registeredProblems v.contest = .ok requested)
    (approved : PyText.isLowerHexOf 64 w.details.approvalId = true)
    (unapplied : v.details.apply = none) {preflight : Mapping}
    (sound : Consistent tid w.details)
    (saved : ∀ stored ∈ w.details.preflight, stored = preflight) :
    Completes (goOn env w preflight) v (fun _ _ => True) ↔
      Usable env tid requested current preflight := by
  have clone (v' : Worker) (contest : v'.contest = v.contest) (apply : v'.details.apply = none)
      (expected : String) :
      Completes (cloneAndGenerate env ⟨tid, requested, expected, w.details.approvalId,
        preflightId preflight⟩) v' (fun _ _ => True) ↔ preflightId preflight = preflightId current :=
    completes_cloneAndGenerate works rfl rfl (contest ▸ registered) apply
  unfold goOn
  simp only [ends_bind, completes_orRaise, completes_setDetails, completes_save works.unbroken,
    ofContest, problems, raiseIf_ok, approved]
  constructor
  · rintro ⟨_, safe, warnings, gated, _, _, expected, _, _, _, cloned⟩
    refine ⟨safe, ⟨warnings, gated⟩, (clone _ ?_ ?_ expected).mp cloned⟩
    · rfl
    · exact unapplied
  · rintro ⟨safe, ⟨warnings, gated⟩, same⟩
    obtain ⟨expected, operation⟩ : ∃ expected,
        draftOperationId tid (preflightId preflight) w.details.approvalId = .ok expected := by
      simp [draftOperationId, raiseIf_neg, works.identified, (validated safe).2, approved]
    refine ⟨(), safe, warnings, gated, (), by simp, expected, operation, (),
      consistent_unchanged sound saved operation, (clone _ ?_ ?_ expected).mpr same⟩
    · rfl
    · exact unapplied

end Completion

/- What a job leaves in the rows -/

theorem digest_isHex (text : String) : PyText.isLowerHexOf 64 (Sha256.ofText text) = true := by
  simp only [PyText.isLowerHexOf, Sha256.ofText, Sha256.hexdigest_length, beq_self_eq_true,
    Bool.true_and, List.all_eq_true]
  intro c mem
  obtain ⟨n, small, rfl⟩ := Sha256.hexdigest_digit mem
  have digits : ∀ n < 16, PyText.isLowerHex (Sha256.hexDigit n) = true := by decide
  exact digits n small

/-- Rows of the registration whose problems no job has replaced by clones. -/
structure Row (contest : Contest) (details : Details) (row : Contest × Details) : Prop where
  session : row.2.submissionSession = details.submissionSession
  problems : row.2.requestedProblems = details.requestedProblems
  approval : row.2.approvalId = details.approvalId
  consistent : Consistent contest.tid row.2
  unchanged : row.1 = contest ∨ row.2.apply ≠ none

structure Fine (contest : Contest) (details : Details) (w : Worker) : Prop where
  past : ∀ row ∈ w.past, Row contest details row
  stored : Row contest details (w.contest, w.stored)
  held : Row contest details (w.contest, w.details)

section Rows
variable {contest : Contest} {details : Details} {env : Surroundings} {w : Worker}

theorem ends_orRaise {α : Type} {x : Except Failure α} {post : α → Worker → Prop}
    {raised : Failure → Worker → Prop} (returned : ∀ a, x = .ok a → post a w)
    (failed : ∀ failure, raised failure w) : Ends (orRaise x) w post raised := by
  cases x with
  | error failure => exact failed failure
  | ok a => exact returned a rfl

theorem Fine.hold (fine : Fine contest details w) {held : Details}
    (row : Row contest details (w.contest, held)) :
    Fine contest details { w with details := held } :=
  ⟨fine.past, fine.stored, row⟩

theorem Fine.write (fine : Fine contest details w) {contest' : Contest} {stored : Details}
    (row : Row contest details (contest', stored)) (held : Row contest details (contest', w.details)) :
    Fine contest details (written w contest' stored) := by
  refine ⟨?_, row, held⟩
  intro row' mem
  rcases List.mem_append.mp mem with old | new
  · exact fine.past row' old
  · rw [List.mem_singleton.mp new]
    exact fine.stored

theorem save_fine (fine : Fine contest details w) (stage : String) :
    Ends (save env stage) w
      (fun _ t => Fine contest details t ∧ t.details = { w.details with stage } ∧
        t.stored = { w.details with stage })
      (fun _ t => Fine contest details t) := by
  have row : Row contest details (w.contest, { w.details with stage }) :=
    ⟨fine.held.session, fine.held.problems, fine.held.approval, fine.held.consistent,
      fine.held.unchanged⟩
  simp only [save, setDetails, ends_bind, ends_modify, ends_get]
  exact ends_orRaise (fun _ _ => ⟨(fine.hold row).write row row, rfl, rfl⟩) fun _ => fine.hold row

theorem obtainPreflight_fine (fine : Fine contest details w) :
    Ends (obtainPreflight env) w
      (fun preflight t => Fine contest details t ∧ t.details.preflight = some preflight)
      (fun _ t => Fine contest details t) := by
  unfold obtainPreflight
  rw [ends_bind, ends_get]
  split
  · rename_i preflight saved
    exact ⟨fine, saved⟩
  · rename_i unsaved
    rw [ends_bind]
    refine ends_orRaise (fun answer _ => ?_) fun _ => fine
    rw [ends_bind]
    refine ends_orRaise (fun preflight _ => ⟨fine.hold ?_, rfl⟩) fun _ => fine
    refine ⟨fine.held.session, fine.held.problems, fine.held.approval, ?_, fine.held.unchanged⟩
    intro operation stored
    obtain ⟨preflight', saved, _⟩ := fine.held.consistent operation stored
    rw [unsaved] at saved
    cases saved

theorem obtainClones_fine (fine : Fine contest details w) (request : ApplyRequest) :
    Ends (obtainClones env request) w
      (fun _ t => Fine contest details t ∧ t.details.apply ≠ none)
      (fun _ t => Fine contest details t) := by
  unfold obtainClones
  rw [ends_bind, ends_get]
  split
  · rename_i applied saved
    exact ⟨fine, by simp [saved]⟩
  · rw [ends_bind]
    refine ends_orRaise (fun current _ => ?_) fun _ => fine
    rw [ends_bind]
    refine ends_orRaise (fun _ _ => ?_) fun _ => fine
    rw [ends_bind]
    refine ends_orRaise (fun applied _ => ⟨fine.hold ?_, Option.some_ne_none _⟩) fun _ => fine
    exact ⟨fine.held.session, fine.held.problems, fine.held.approval, fine.held.consistent,
      .inr (Option.some_ne_none _)⟩

theorem bindAndGenerate_fine (fine : Fine contest details w) (applied' : w.details.apply ≠ none)
    (applied : Mapping) :
    Ends (bindAndGenerate env applied) w (fun _ t => Fine contest details t)
      (fun _ t => Fine contest details t) := by
  unfold bindAndGenerate
  rw [ends_bind]
  refine ends_orRaise (fun bound _ => ?_) fun _ => fine
  obtain ⟨clones, plan⟩ := bound
  simp only [ends_bind, setDetails, ends_modify]
  have planned : Fine contest details { w with details := { w.details with fileIoPlan := plan } } :=
    fine.hold ⟨fine.held.session, fine.held.problems, fine.held.approval, fine.held.consistent,
      fine.held.unchanged⟩
  refine (save_fine planned _).mono ?_ fun _ _ kept => kept
  rintro _ t ⟨kept, held, stored⟩
  have bound (row : Row contest details (t.contest, t.stored)) (cloned : Contest) :
      Row contest details (cloned, t.stored) :=
    ⟨row.session, row.problems, row.approval, row.consistent, .inr (by rw [stored]; exact applied')⟩
  have written := kept.write (bound kept.stored { t.contest with pids := some clones })
    (by rw [held, ← stored]; exact bound kept.stored _)
  refine (save_fine written _).mono ?_ fun _ _ kept => kept
  rintro _ u ⟨kept, _⟩
  exact ends_orRaise (fun _ _ => kept) fun _ => kept

theorem goOn_fine {v : Worker} (fine : Fine contest details v) (ofContest : w.contest.tid = contest.tid)
    (approval : w.details.approvalId = details.approvalId) {preflight : Mapping}
    (saved : v.details.preflight = some preflight) :
    Ends (goOn env w preflight) v (fun _ t => Fine contest details t)
      (fun _ t => Fine contest details t) := by
  unfold goOn
  rw [ends_bind]
  refine ends_orRaise (fun _ _ => ?_) fun _ => fine
  rw [ends_bind]
  refine ends_orRaise (fun warnings _ => ?_) fun _ => fine
  simp only [ends_bind, setDetails, ends_modify]
  have warned : Fine contest details { v with details := { v.details with warnings } } :=
    fine.hold ⟨fine.held.session, fine.held.problems, fine.held.approval, fine.held.consistent,
      fine.held.unchanged⟩
  refine (save_fine warned _).mono ?_ fun _ _ kept => kept
  rintro _ t ⟨kept, held, _⟩
  refine ends_orRaise (fun _ _ => ?_) fun _ => kept
  refine ends_orRaise (fun expected operation => ?_) fun _ => kept
  refine ends_orRaise (fun _ _ => ?_) fun _ => kept
  have named : Consistent contest.tid { t.details with operationId := some expected } := by
    intro operation' mem
    cases mem
    refine ⟨preflight, by rw [held]; exact saved, ?_⟩
    rw [← ofContest, kept.held.approval, ← approval]
    exact operation
  have chosen : Fine contest details
      { t with details := { t.details with operationId := some expected } } :=
    kept.hold ⟨kept.held.session, kept.held.problems, kept.held.approval, named,
      kept.held.unchanged⟩
  refine (save_fine chosen _).mono ?_ fun _ _ kept => kept
  rintro _ u ⟨kept, _⟩
  rw [cloneAndGenerate, ends_bind]
  refine (obtainClones_fine kept _).mono ?_ fun _ _ kept => kept
  rintro applied x ⟨kept, cloned⟩
  exact bindAndGenerate_fine kept cloned applied

theorem work_fine (fine : Fine contest details w) (ofContest : w.contest.tid = contest.tid) :
    Ends (work env) w (fun _ t => Fine contest details t) (fun _ t => Fine contest details t) := by
  unfold work
  rw [ends_bind, ends_get, ends_bind]
  refine ends_orRaise (fun _ _ => ?_) fun _ => fine
  rw [ends_bind]
  refine ends_orRaise (fun _ _ => ?_) fun _ => fine
  rw [ends_bind]
  refine ends_orRaise (fun _ _ => ?_) fun _ => fine
  rw [ends_bind]
  refine (save_fine fine _).mono ?_ fun _ _ kept => kept
  rintro _ t ⟨kept, _⟩
  rw [ends_bind]
  refine (obtainPreflight_fine kept).mono ?_ fun _ _ kept => kept
  rintro preflight u ⟨kept, saved⟩
  exact goOn_fine kept ofContest fine.held.approval saved

theorem runJob_returned {r : Registry} {job : Job} {u : Unit}
    (ran : work env (startWorker r job) = .ok u w) :
    runJob env r job = settle env job w
      (w.contest, { job with state := .done, details := { w.details with stage := "review" } }) := by
  simp only [runJob, ran]

theorem runJob_raised {r : Registry} {job : Job} {failure : Failure}
    (ran : work env (startWorker r job) = .error failure w) :
    runJob env r job = settle env job w
      (w.contest, { job with state := .error, error := some failure,
                             details := { w.details with stage := "error" } }) := by
  simp only [runJob, ran]

/- The rows as a job leaves them. -/
theorem runJob_row {r : Registry} {job : Job}
    (consistent : Consistent r.contest.tid job.details) :
    Row r.contest job.details ((runJob env r job).1, (runJob env r job).2.details) := by
  have began : Row r.contest job.details (r.contest, job.details) :=
    ⟨rfl, rfl, rfl, consistent, .inl rfl⟩
  have fine : Ends (work env) (startWorker r job) (fun _ t => Fine r.contest job.details t)
      (fun _ t => Fine r.contest job.details t) :=
    work_fine ⟨by simp [startWorker], began, began⟩ rfl
  have settled (w : Worker) (kept : Fine r.contest job.details w) (ended : Contest × Job)
      (row : Row r.contest job.details (ended.1, ended.2.details)) :
      Row r.contest job.details
        ((settle env job w ended).1, (settle env job w ended).2.details) := by
    unfold settle
    split
    · exact row
    · split
      · exact row
      · rename_i rows found
        rcases List.mem_append.mp (List.mem_of_getElem? found) with past | last
        · exact kept.past rows past
        · rw [List.mem_singleton.mp last]
          exact kept.stored
  have staged (w : Worker) (kept : Fine r.contest job.details w) (stage : String) :
      Row r.contest job.details (w.contest, { w.details with stage }) :=
    ⟨kept.held.session, kept.held.problems, kept.held.approval, kept.held.consistent,
      kept.held.unchanged⟩
  unfold Ends at fine
  cases ran : work env (startWorker r job) with
  | ok _ w =>
    rw [ran] at fine
    rw [runJob_returned ran]
    exact settled w fine _ (staged w fine "review")
  | error failure w =>
    rw [ran] at fine
    rw [runJob_raised ran]
    exact settled w fine _ (staged w fine "error")

end Rows

/- Histories -/

section Histories
variable {contest : Contest}

/-- A job of the registration that went by its rules. -/
structure Regular (contest : Contest) (details : Details) : Prop where
  problems : registeredProblems contest = .ok details.requestedProblems
  approved : PyText.isLowerHexOf 64 details.approvalId = true
  consistent : Consistent contest.tid details

/-- As long as no job recorded clones, the registration and its jobs are in order. -/
def InOrder (contest : Contest) (r : Registry) : Prop :=
  (∀ job ∈ r.jobs, job.details.submissionSession = contest.submissionSession →
    job.details.apply = none) →
  r.contest = contest ∧ ∀ job ∈ r.jobs,
    job.details.submissionSession = contest.submissionSession → Regular contest job.details

theorem start_ok {r : Registry} {request : Request} {job : Job}
    (started : start r request = .ok job) :
    ∃ requested teacher, registeredProblems r.contest = .ok requested ∧
      r.jobs.getLast?.map (·.state) ≠ some .done ∧ (∀ job ∈ r.jobs, job.state.active = false) ∧
      job.state = .queued ∧
      job.details = resume r.contest.submissionSession requested
        (newDetails r.contest requested request.jobId teacher) r.jobs.getLast? := by
  simp only [start, bind_ok, raiseIf_ok, pure_eq_ok, mapError_ok] at started
  obtain ⟨_, _, requested, registered, _, _, _, _, _, unfinished, _, idle, rfl⟩ := started
  refine ⟨requested, _, registered, unfinished, fun job mem => ?_, rfl, rfl⟩
  simpa using fun active => idle ⟨job, mem, active⟩

/-- The details of a new job are its own, or those of the failed job before it. -/
theorem resume_cases (session : String) (requested : List Problem) (details : Details)
    (previous : Option Job) :
    resume session requested details previous = details ∨
    ∃ job ∈ previous, job.details.submissionSession = session ∧
      resume session requested details previous =
        { details with
          requestedProblems := job.details.requestedProblems
          approvalId := job.details.approvalId
          preflight := job.details.preflight
          operationId := job.details.operationId
          apply := job.details.apply
          resumedFrom := some job.jobId } := by
  unfold resume
  split
  · exact .inl rfl
  · split
    · rename_i taken
      exact .inr ⟨_, rfl, taken.2.1, rfl⟩
    · exact .inl rfl

theorem newDetails_regular {requested : List Problem}
    (registered : registeredProblems contest = .ok requested) (jobId teacher : String) :
    Regular contest (newDetails contest requested jobId teacher) :=
  ⟨registered, digest_isHex _, by simp [Consistent, newDetails]⟩

/- What a started job begins with. -/
theorem start_regular {r : Registry} {request : Request} {job : Job}
    (regular : ∀ previous ∈ r.jobs,
      previous.details.submissionSession = r.contest.submissionSession →
      Regular r.contest previous.details)
    (started : start r request = .ok job) :
    job.details.submissionSession = r.contest.submissionSession ∧
      Regular r.contest job.details := by
  obtain ⟨requested, teacher, registered, _, _, _, details⟩ := start_ok started
  rw [details]
  rcases resume_cases r.contest.submissionSession requested
    (newDetails r.contest requested request.jobId teacher) r.jobs.getLast? with fresh | ⟨previous, mem, own, taken⟩
  · rw [fresh]
    exact ⟨rfl, newDetails_regular registered _ _⟩
  · rw [taken]
    have kept := regular previous (List.mem_of_getLast? mem) own
    exact ⟨rfl, kept.problems, kept.approved, kept.consistent⟩

theorem step_inOrder (r : Registry) (click : Request × Surroundings)
    (inOrder : InOrder contest r) : InOrder contest (r.step click) := by
  unfold Registry.step
  split
  · exact inOrder
  · rename_i job started
    intro unapplied
    dsimp only at unapplied ⊢
    obtain ⟨same, regular⟩ := inOrder fun job mem => unapplied job (List.mem_append_left _ mem)
    rw [← same] at regular
    obtain ⟨session, began⟩ := start_regular regular started
    have row : Row r.contest job.details
        ((runJob click.2 r job).1, (runJob click.2 r job).2.details) :=
      runJob_row began.consistent
    have own : (runJob click.2 r job).2.details.submissionSession = contest.submissionSession := by
      rw [row.session, session, same]
    refine ⟨row.unchanged.elim (fun kept => kept.trans same) fun applied => absurd
      (unapplied _ (List.mem_append_right _ (List.mem_singleton.mpr rfl)) own) applied, ?_⟩
    intro other mem session'
    rcases List.mem_append.mp mem with old | new
    · rw [← same] at session' ⊢
      exact regular other old session'
    · rw [List.mem_singleton.mp new, ← same]
      exact ⟨row.problems ▸ began.problems, row.approval ▸ began.approved, row.consistent⟩

theorem history_inOrder {older : List Job}
    (foreign : ∀ job ∈ older, job.details.submissionSession ≠ contest.submissionSession)
    (clicks : List (Request × Surroundings)) :
    InOrder contest (Runs.run Registry.step ⟨contest, older⟩ clicks) :=
  Runs.run_invariant _ step_inOrder
    (fun _ => ⟨rfl, fun job mem own => absurd own (foreign job mem)⟩) clicks

theorem start_unapplied {r : Registry} {request : Request} {job : Job}
    (unapplied : ∀ previous ∈ r.jobs,
      previous.details.submissionSession = r.contest.submissionSession →
      previous.details.apply = none)
    (started : start r request = .ok job) : job.details.apply = none := by
  obtain ⟨requested, teacher, _, _, _, _, details⟩ := start_ok started
  rw [details]
  rcases resume_cases r.contest.submissionSession requested
    (newDetails r.contest requested request.jobId teacher) r.jobs.getLast? with fresh | ⟨previous, mem, own, taken⟩
  · rw [fresh]
    rfl
  · rw [taken]
    exact unapplied previous (List.mem_of_getLast? mem) own

/- What is taken over: the preflight of the job before, if that job is of the registration. -/
theorem start_preflight {r : Registry} {request : Request} {job : Job}
    (regular : ∀ previous ∈ r.jobs,
      previous.details.submissionSession = r.contest.submissionSession →
      Regular r.contest previous.details)
    (started : start r request = .ok job) (preflight : Mapping) :
    preflight ∈ job.details.preflight ↔ ∃ previous ∈ r.jobs.getLast?,
      previous.details.submissionSession = r.contest.submissionSession ∧
      preflight ∈ previous.details.preflight := by
  obtain ⟨requested, teacher, registered, unfinished, idle, _, details⟩ := start_ok started
  rw [details]
  cases last : r.jobs.getLast? with
  | none => simp [resume, newDetails]
  | some previous =>
    have mem := List.mem_of_getLast? last
    by_cases own : previous.details.submissionSession = r.contest.submissionSession
    · have sameProblems : previous.details.requestedProblems = requested := by
        simpa [registered] using (regular previous mem own).problems.symm
      have ended : previous.state = .error ∨ previous.state = .interrupted := by
        have still := idle previous mem
        cases state : previous.state <;> simp_all [JobState.active]
      simp [resume, ended, own, sameProblems]
    · simp [resume, own, newDetails]

end Histories

theorem runJob_done_iff {env : Surroundings} (undisturbed : env.restarted = none) (r : Registry)
    (job : Job) :
    (runJob env r job).2.state = .done ↔
      Completes (work env) (startWorker r job) (fun _ _ => True) := by
  unfold Completes Ends
  cases ran : work env (startWorker r job) with
  | ok _ w => simp [runJob_returned ran, settle, undisturbed]
  | error failure w => simp [runJob_raised ran, settle, undisturbed]

theorem registered_nonempty {contest : Contest} {requested : List Problem}
    (registered : registeredProblems contest = .ok requested) : requested ≠ [] := by
  unfold registeredProblems at registered
  split at registered
  · cases registered
  · rename_i pids _
    simp only [bind_ok, raiseIf_ok, pure_eq_ok] at registered
    obtain ⟨_, sound, _, _, rfl⟩ := registered
    push Not at sound
    obtain ⟨slug, rest, files⟩ := List.exists_cons_of_ne_nil sound.1
    have known : slug ∈ pids.map (·.1) := sound.2.2.subset (files ▸ List.mem_cons_self)
    obtain ⟨pair, mem, named⟩ := List.mem_map.mp known
    have found : (pids.find? (·.1 == slug)).isSome := by
      rw [List.find?_isSome]
      exact ⟨pair, mem, by simpa using named⟩
    obtain ⟨pair', found⟩ := Option.isSome_iff_exists.mp found
    simp [files, found]

/- A job of a registration in order, when all works. -/
theorem completes_work {env : Surroundings} {r : Registry} {job : Job} {current : Mapping}
    (works : Works env r.contest.tid job.details.requestedProblems current)
    (registered : registeredProblems r.contest = .ok job.details.requestedProblems)
    (session : job.details.submissionSession = r.contest.submissionSession)
    (approved : PyText.isLowerHexOf 64 job.details.approvalId = true)
    (consistent : Consistent r.contest.tid job.details) (unapplied : job.details.apply = none) :
    Completes (work env) (startWorker r job) (fun _ _ => True) ↔
      ∀ preflight ∈ job.details.preflight,
        Usable env r.contest.tid job.details.requestedProblems current preflight := by
  have mayChange : MaterialTables.MayChangeMaterials { r.contest with state := env.contestState } :=
    works.state
  have onward {v : Worker} (contest : v.contest = r.contest) (apply : v.details.apply = none)
      {preflight : Mapping} (saved : ∀ stored ∈ job.details.preflight, stored = preflight) :
      Completes (goOn env (startWorker r job) preflight) v (fun _ _ => True) ↔
        Usable env r.contest.tid job.details.requestedProblems current preflight := by
    refine completes_goOn works (w := startWorker r job) rfl rfl ?_ approved apply consistent saved
    rw [contest]
    exact registered
  unfold work
  simp only [ends_bind, ends_get, completes_orRaise, completes_save works.unbroken, raiseIf_ok,
    startWorker, not_not, mayChange, session, registered_nonempty registered, ne_eq,
    not_false_eq_true, true_and, exists_const]
  rcases saved : job.details.preflight with _ | preflight
  · -- The job asks Hydro itself.
    refine (completes_asked rfl works.answered (validated works.safe).1).trans ?_
    refine (onward rfl unapplied (by simp [saved])).trans ?_
    exact iff_of_true ⟨works.safe, works.gated, rfl⟩ (by rintro _ ⟨⟩)
  · refine (completes_saved rfl).trans ?_
    refine (onward rfl unapplied (by simp [saved])).trans ?_
    simp

/-- In every history of jobs of one registration none of which recorded clones, a newly started
    job completes exactly if the job before it saved no preflight answer, or a usable one. -/
theorem retried_job_done_iff {contest : Contest} {older : List Job}
    (foreign : ∀ job ∈ older, job.details.submissionSession ≠ contest.submissionSession)
    (clicks : List (Request × Surroundings))
    (unapplied : ∀ job ∈ (Runs.run Registry.step ⟨contest, older⟩ clicks).jobs,
      job.details.submissionSession = contest.submissionSession → job.details.apply = none)
    {request : Request} {job : Job}
    (started : start (Runs.run Registry.step ⟨contest, older⟩ clicks) request = .ok job)
    {env : Surroundings} {current : Mapping}
    (works : Works env contest.tid job.details.requestedProblems current) :
    (runJob env (Runs.run Registry.step ⟨contest, older⟩ clicks) job).2.state = .done ↔
      ∀ previous ∈ (Runs.run Registry.step ⟨contest, older⟩ clicks).jobs.getLast?,
        previous.details.submissionSession = contest.submissionSession →
        ∀ preflight ∈ previous.details.preflight,
          Usable env contest.tid job.details.requestedProblems current preflight := by
  obtain ⟨same, regular⟩ := history_inOrder foreign clicks unapplied
  generalize Runs.run Registry.step ⟨contest, older⟩ clicks = r at *
  subst same
  obtain ⟨session, began⟩ := start_regular regular started
  rw [runJob_done_iff works.undisturbed, completes_work works began.problems session
    began.approved began.consistent (start_unapplied unapplied started)]
  simp only [start_preflight regular started]
  constructor
  · intro usable previous last own preflight saved
    exact usable preflight ⟨previous, last, own, saved⟩
  · rintro usable preflight ⟨previous, last, own, saved⟩
    exact usable previous last own preflight saved

/- One problem, a contest with a clarification on it, and the same contest without. -/

def sampleContest : Contest where
  tid := "0123456789abcdef01234567"
  files := ["sum"]
  pids := some [("sum", "P1")]
  submissionSession := "0123456789abcdef0123456789abcdef"
  materialsMode := "ai"

def sampleSnapshot : Snapshot where
  preflightId := String.ofList (List.replicate 64 'a')
  contestTitle := "Contest"
  beginAt := "2026-01-01T00:00:00.000Z"
  endAt := "2026-01-01T04:00:00.000Z"
  problems := [.obj [("pid", .str "P1"), ("doc_id", .int 3), ("slug", .str "sum"),
    ("title", .str "Sum"), ("content", .str "Add."), ("config", .obj []),
    ("time_ms", .obj [("max", .int 1000)]), ("memory_mb", .obj [("max", .int 256)]),
    ("formal_input_sha256", .arr [.str (String.ofList (List.replicate 64 'b'))])]]

def sampleHydro (blockers : List String) : Hydro where
  blockers
  fileIo := none
  source _ := .ok sampleSnapshot
  drafts _ := none
  same _ := true
  result _ := []
  clone _ := .ok []

def sampleAnswer (blockers : List String) : Mapping :=
  clientAnswer ((sampleHydro blockers).buildProblemDraftPreflight sampleContest.tid [("sum", "P1")])

def sampleSurroundings (blockers : List String) : Surroundings where
  contestState := .registered
  preflight _ := .ok (.obj (sampleAnswer blockers))
  gates _ := .ok []
  hydro := sampleHydro blockers
  bind _ := .ok ([("sum", "C1")], [])
  generate _ := .ok ()

def sampleRequest (jobId : String) : Request := ⟨jobId, "teacher"⟩

abbrev afterClicks (clicks : List (Request × Surroundings)) : Registry :=
  Runs.run Registry.step ⟨sampleContest, []⟩ clicks

def blockedClick : List (Request × Surroundings) :=
  [(sampleRequest "1", sampleSurroundings ["contest_has_problem_clarifications"])]

def brokenClick : List (Request × Surroundings) :=
  [(sampleRequest "1", { sampleSurroundings [] with
    gates := fun _ => .error (.raised (.external "AI provider")) })]

theorem sample_clones (r : ApplyRequest) (named : sampleSnapshot.preflightId = r.preflightId) :
    (sampleHydro []).apply r = .ok [] := by
  change (Outcome.raiseIf (sampleSnapshot.preflightId ≠ r.preflightId) PluginError.conflict >>=
    fun _ => Except.ok []) = .ok []
  rw [raiseIf_neg (not_not.mpr named), ok_bind]

theorem safe_of_isOk {tid : String} {requested : List Problem} {preflight : Mapping}
    (valid : (validatePreflight tid requested preflight).isOk = true) :
    validatePreflight tid requested preflight = .ok () := by
  obtain ⟨_, passed⟩ := Outcome.ok_of_isOk valid
  exact passed

theorem sample_works :
    Works (sampleSurroundings []) sampleContest.tid [("sum", "P1")] (sampleAnswer []) where
  identified := by decide +kernel
  state := .inl rfl
  unbroken := rfl
  undisturbed := rfl
  answered := rfl
  safe := safe_of_isOk (by decide +kernel)
  gated := ⟨[], rfl⟩
  stable := ⟨_, rfl, rfl, rfl⟩
  clones r _ _ named := ⟨[], sample_clones r named.symm⟩
  bound _ _ _ := ⟨_, rfl⟩
  generated _ := rfl

theorem unapplied_of_flags {r : Registry} (flags : r.jobs.all (·.details.apply.isNone) = true)
    {session : String} : ∀ job ∈ r.jobs, job.details.submissionSession = session →
      job.details.apply = none := by
  intro job mem _
  simpa using List.all_eq_true.mp flags job mem

/- The clarification is gone when the teacher clicks again, but the answer that named it stays. -/
theorem blocked_answer_stays :
    (∀ job ∈ (afterClicks blockedClick).jobs, job.details.submissionSession = sampleContest.submissionSession →
      job.details.apply = none) ∧
    ∃ job, start (afterClicks blockedClick) (sampleRequest "2") = .ok job ∧
      Works (sampleSurroundings []) sampleContest.tid job.details.requestedProblems
        (sampleAnswer []) ∧
      (runJob (sampleSurroundings []) (afterClicks blockedClick) job).2.state = .error := by
  refine ⟨unapplied_of_flags (r := afterClicks blockedClick) (by decide +kernel), ?_⟩
  have outcome : (start (afterClicks blockedClick) (sampleRequest "2")).toOption.map (fun job =>
      (job.details.requestedProblems,
        (runJob (sampleSurroundings []) (afterClicks blockedClick) job).2.state)) =
      some ([("sum", "P1")], .error) := by decide +kernel
  cases started : start (afterClicks blockedClick) (sampleRequest "2") with
  | error failure => simp [started, Except.toOption] at outcome
  | ok job =>
    simp only [started, Except.toOption, Option.map_some, Option.some.injEq,
      Prod.mk.injEq] at outcome
    exact ⟨job, rfl, outcome.1 ▸ sample_works, outcome.2⟩

/- The click is answered, nothing was applied, and the saved answer is still the valid one. -/
theorem brokenClick_saved :
    (start (afterClicks brokenClick) (sampleRequest "2")).toOption.map
        (·.details.requestedProblems) = some [("sum", "P1")] ∧
      (afterClicks brokenClick).jobs.all (·.details.apply.isNone) = true ∧
      ((afterClicks brokenClick).jobs.getLast?.bind (·.details.preflight)).all
        (fun preflight => (validatePreflight sampleContest.tid [("sum", "P1")] preflight).isOk &&
          preflightId preflight == preflightId (sampleAnswer [])) = true := by
  decide +kernel

/- A saved answer that is still true does no harm. -/
theorem current_answer_reused : ∃ job, start (afterClicks brokenClick) (sampleRequest "2") = .ok job ∧
    (runJob (sampleSurroundings []) (afterClicks brokenClick) job).2.state = .done := by
  obtain ⟨listed, flags, saved⟩ := brokenClick_saved
  cases started : start (afterClicks brokenClick) (sampleRequest "2") with
  | error failure => simp [started, Except.toOption] at listed
  | ok job =>
    simp only [started, Except.toOption, Option.map_some, Option.some.injEq] at listed
    have foreign : ∀ job ∈ ([] : List Job),
        job.details.submissionSession ≠ sampleContest.submissionSession := by simp
    have unapplied : ∀ job ∈ (afterClicks brokenClick).jobs,
        job.details.submissionSession = sampleContest.submissionSession →
        job.details.apply = none := unapplied_of_flags flags
    have works : Works (sampleSurroundings []) sampleContest.tid job.details.requestedProblems
        (sampleAnswer []) := by
      rw [listed]
      exact sample_works
    refine ⟨job, rfl, ?_⟩
    rw [retried_job_done_iff foreign brokenClick unapplied started works]
    intro previous last _ preflight mem
    rw [Option.mem_def] at last mem
    rw [last, Option.bind_some, mem, Option.all_some, Bool.and_eq_true, beq_iff_eq] at saved
    rw [listed]
    exact ⟨safe_of_isOk saved.1, ⟨[], rfl⟩, saved.2⟩

end NoiContest.Materials.SavedPreflight
