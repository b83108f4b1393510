import NoiContest.HydroPlugin.Process
import NoiContest.Lib.PyValue
import NoiContest.Outbox.Leases

/- One delivery of the real-time judge: what a worker posts for the row it claimed, how it reads
   the answer, and the transaction it writes the outcome with. -/
namespace NoiContest.WebOutbox

/- The body is what response.json() returns, or none when it raises. -/
inductive HttpReply where
  | requestException (text : String)
  | response (status : Nat) (body : Option PyValue) (text : String)

/-- `response.ok` -/
def okStatus (status : Nat) : Bool := !(400 ≤ status && status < 600)

/- The keys that process_once reads, with the defaults of its lookups. -/
structure SubmitResult where
  ok : Bool := false
  retryable : Bool := true
  ambiguous : Bool := false
  rid : String := ""
  error : PyValue := .text "Hydro submission failed"

def typeName : PyValue → String
  | .null => "NoneType"
  | .bool _ => "bool"
  | .int _ => "int"
  | .text _ => "str"
  | .list _ => "list"
  | .mapping _ => "dict"
  | .other _ => "float"

section Results
variable (c : PyValue.Conversions)

/-- `str(fields.get(key) or "")` -/
def textOf (fields : List (String × PyValue)) (key : String) : String :=
  let value := PyValue.get fields key
  if PyValue.truthy c value then PyValue.toStr c value else ""

def errorName : PyValue → String
  | .mapping fields =>
    match PyValue.get fields "error" with
    | .mapping error => textOf c error "name"
    | _ => ""
  | _ => ""

/- A refusal, or an acknowledgement without a rid. -/
def refused (status : Nat) (payload : PyValue) : SubmitResult :=
  let ambiguous := status == 409 && errorName c payload == "OrchestratorSubmissionAmbiguousError"
  { ambiguous
    retryable := !ambiguous &&
      (okStatus status || [401, 403, 408, 425, 429].contains status || 500 ≤ status)
    error := payload }

/-- `submit_one` from its request on. A payload that is no dict raises an AttributeError. -/
def submitOne : HttpReply → Except String SubmitResult
  | .requestException text => .ok { error := .text text }
  | .response status body text =>
    let payload := body.getD (.mapping [("text", .text (PyText.clip 300 text))])
    match okStatus status, payload with
    | true, .mapping fields =>
      let rid := PyValue.get fields "rid"
      if PyValue.truthy c rid then .ok { ok := true, retryable := false, rid := PyValue.toStr c rid }
      else .ok (refused c status payload)
    | true, value => .error s!"'{typeName value}' object has no attribute 'get'"
    | false, _ => .ok (refused c status payload)

/- The qualification marker blocks the request, an exception escapes submit_one, or there was
   an exchange. -/
inductive Attempt where
  | blocked
  | raised (error : String)
  | exchanged (reply : HttpReply)

def Attempt.result : Attempt → SubmitResult
  | .blocked => { retryable := false, error := .text "qualification collection retry failure" }
  | .raised error => { error := .text error }
  | .exchanged reply =>
    match submitOne c reply with
    | .ok result => result
    | .error error => { error := .text error }

/-- `resolve_submission`: the status, and the rid of a resolved one. -/
def resolveSubmission : HttpReply → String × Option String
  | .requestException _ => ("unavailable", none)
  | .response status body _ =>
    let fields := match body with
      | some (.mapping fields) => fields
      | _ => []
    let answer := textOf c fields "status"
    let rid := textOf c fields "rid"
    if okStatus status && answer == "resolved" && PyText.isLowerHexOf 24 rid then
      (answer, some rid)
    else if okStatus status &&
        ["missing", "multiple", "pending", "unknown", "unsupported"].contains answer then
      (answer, none)
    else ("unavailable", none)

end Results

/- The settings that __init__ accepts. -/
structure RealtimeJudge where
  leaseSeconds : Rat
  retryDelays : List Rat
  leased : 0 < leaseSeconds
  delays : retryDelays ≠ [] ∧ ∀ delay ∈ retryDelays, 0 ≤ delay

def sampleJudge : RealtimeJudge :=
  ⟨45, [1, 2, 5], by norm_num, by simp, by
    simp only [List.mem_cons, List.not_mem_nil, or_false]
    rintro delay (rfl | rfl | rfl) <;> norm_num⟩

def RealtimeJudge.retryDelay (judge : RealtimeJudge) (attempts : Nat) : Rat :=
  judge.retryDelays.get ⟨min (attempts - 1) (judge.retryDelays.length - 1), by
    have := List.length_pos_of_ne_nil judge.delays.1
    omega⟩

/-- `_error_text`; the parameter is what json.dumps or str make of another value. -/
def errorText (dumps : PyValue → String) : PyValue → String
  | .text text => text
  | value => dumps value

def JudgeKind.text : JudgeKind → String
  | .realtime => "realtime"
  | .final => "final"

/-- `effective_kind` of a row that is processed for a submission kind. -/
def WebSubmission.effectiveKind (row : WebSubmission) (kind : JudgeKind) : JudgeKind :=
  if kind = .final ∨ row.judgeKind = .final then .final else .realtime

/-- The form that submit_one posts for a claimed row. -/
def WebSubmission.body (row : WebSubmission) (token : String) (kind : JudgeKind) :
    HydroPlugin.SubmitBody where
  headerToken := some token
  tid := row.tid
  uid := row.uid
  pid := row.judgePid
  code := row.judgeSource
  lang := row.judgeLang
  submissionId := row.submissionId
  submissionKind := (row.effectiveKind kind).text
  acceptedAtMs := row.acceptedAtMs

/-- What process_once writes. The clock is read once for the retry and once for the check. -/
def RealtimeJudge.report (judge : RealtimeJudge) (c : PyValue.Conversions)
    (dumps : PyValue → String) (row : WebSubmission) (attempt : Attempt)
    (retryClock checkClock : Rat) : Operation :=
  let result := attempt.result c
  if result.ok && result.rid != "" then .markSubmitted row.id row.leaseToken result.rid
  else
    .markFailed row.id row.leaseToken (errorText dumps result.error)
      (if result.retryable then some (retryClock + judge.retryDelay row.attempts) else none)
      result.ambiguous (if result.ambiguous then some (checkClock + 2) else none)

/-- What resolve_ambiguous_once writes. -/
def resolutionReport (c : PyValue.Conversions) (row : WebSubmission) (reply : HttpReply)
    (now : Rat) : Operation :=
  match resolveSubmission c reply with
  | (_, some rid) => .finishAmbiguous row.id row.submissionId (some rid) "pending" now
  | (status, none) => .finishAmbiguous row.id row.submissionId none status now

section Answers
open HydroPlugin

def resolutionFields : Resolution → List (String × PyValue)
  | .unknown => [("status", .text "unknown")]
  | .unsupported => [("status", .text "unsupported")]
  | .missing => [("status", .text "missing")]
  | .multiple => [("status", .text "multiple")]
  | .pending => [("status", .text "pending")]
  | .resolved rid => [("status", .text "resolved"), ("rid", .text rid)]

/- The error classes of the plugin; those of Hydro and plain exceptions are the parameter. -/
def failureClass (hydro : Failure → Nat × String) : Failure → Nat × String
  | .codeTooLarge => (413, "OrchestratorCodeTooLargeError")
  | .submissionConflict => (409, "OrchestratorSubmissionConflictError")
  | .submissionAmbiguous => (409, "OrchestratorSubmissionAmbiguousError")
  | .problemDraftConflict => (409, "OrchestratorProblemDraftConflictError")
  | failure => hydro failure

/-- The response to a request that ended. -/
def httpReply (hydro : Failure → Nat × String) : Except Failure Reply → HttpReply
  | .ok (.rid rid) => .response 200 (some (.mapping [("rid", .text rid)])) ""
  | .ok (.resolution answer) => .response 200 (some (.mapping (resolutionFields answer))) ""
  | .error failure =>
    let error := failureClass hydro failure
    .response error.1 (some (.mapping [("error", .mapping [("name", .text error.2)])])) ""

end Answers

section Reading
open HydroPlugin
variable {c : PyValue.Conversions} {hydro : Failure → Nat × String}
  {outcome : Except Failure Reply}

theorem textOf_absent {fields : List (String × PyValue)} {key : String}
    (absent : PyValue.get fields key = .null) : textOf c fields key = "" := by
  simp [textOf, absent, PyValue.truthy]

theorem textOf_text {fields : List (String × PyValue)} {key text : String}
    (held : PyValue.get fields key = .text text) : textOf c fields key = text := by
  by_cases empty : text = "" <;> simp [textOf, held, PyValue.truthy, PyValue.toStr, empty]

theorem dict_result (status : Nat) (fields : List (String × PyValue)) (text : String) :
    (Attempt.exchanged (.response status (some (.mapping fields)) text)).result c =
      if okStatus status && PyValue.truthy c (PyValue.get fields "rid") then
        { ok := true, retryable := false, rid := PyValue.toStr c (PyValue.get fields "rid") }
      else refused c status (.mapping fields) := by
  simp only [Attempt.result, submitOne, Option.getD_some]
  cases okStatus status with
  | false => simp
  | true => cases held : PyValue.truthy c (PyValue.get fields "rid") <;> simp [held]

/-- The rid in the body of an answer. -/
def Names (outcome : Except Failure Reply) (rid : String) : Prop :=
  rid ≠ "" ∧ (outcome = .ok (.rid rid) ∨ outcome = .ok (.resolution (.resolved rid)))

/- A result is good only with the rid that the plugin answered with. -/
theorem good_result (good : ((Attempt.exchanged (httpReply hydro outcome)).result c).ok = true) :
    Names outcome ((Attempt.exchanged (httpReply hydro outcome)).result c).rid := by
  have other (status : Nat) (fields : List (String × PyValue))
      (missing : PyValue.truthy c (PyValue.get fields "rid") = false) :
      ((Attempt.exchanged (.response status (some (.mapping fields)) "")).result c).ok = false := by
    simp [dict_result, missing, refused]
  have named (fields : List (String × PyValue)) (rid : String)
      (body : PyValue.get fields "rid" = .text rid)
      (good : ((Attempt.exchanged (.response 200 (some (.mapping fields)) "")).result c).ok = true) :
      rid ≠ "" ∧
        ((Attempt.exchanged (.response 200 (some (.mapping fields)) "")).result c).rid = rid := by
    by_cases empty : rid = ""
    · rw [other 200 fields (by simp [body, empty, PyValue.truthy])] at good
      cases good
    · exact ⟨empty, by simp [dict_result, okStatus, body, PyValue.truthy, PyValue.toStr, empty]⟩
  cases outcome with
  | error failure =>
    rw [httpReply, other _ _ rfl] at good
    cases good
  | ok reply =>
    cases reply with
    | rid rid =>
      obtain ⟨filled, same⟩ := named [("rid", .text rid)] rid rfl good
      rw [httpReply, same]
      exact ⟨filled, .inl rfl⟩
    | resolution answer =>
      cases answer with
      | resolved rid =>
        obtain ⟨filled, same⟩ := named (resolutionFields (.resolved rid)) rid rfl good
        rw [httpReply, same]
        exact ⟨filled, .inr rfl⟩
      | _ =>
        rw [httpReply, other _ _ rfl] at good
        cases good

/- A rid is resolved only if the plugin answered with it. -/
theorem resolved_rid {rid : String}
    (resolved : (resolveSubmission c (httpReply hydro outcome)).2 = some rid) :
    Names outcome rid ∧ PyText.isLowerHexOf 24 rid = true := by
  have read (status : Nat) (fields : List (String × PyValue))
      (resolved : (resolveSubmission c (.response status (some (.mapping fields)) "")).2 = some rid) :
      textOf c fields "status" = "resolved" ∧ textOf c fields "rid" = rid ∧
        PyText.isLowerHexOf 24 rid = true := by
    unfold resolveSubmission at resolved
    dsimp only at resolved
    split at resolved
    · rename_i whole
      simp only [Bool.and_eq_true, beq_iff_eq] at whole
      obtain rfl := Option.some.inj resolved
      exact ⟨whole.1.2, rfl, whole.2⟩
    · split at resolved <;> cases resolved
  have silent (status : Nat) (fields : List (String × PyValue))
      (absent : PyValue.get fields "status" = .null) :
      (resolveSubmission c (.response status (some (.mapping fields)) "")).2 ≠ some rid := by
    intro answered
    have empty := (read _ _ answered).1
    rw [textOf_absent absent] at empty
    exact absurd empty (by decide)
  cases outcome with
  | error failure => exact absurd resolved (silent _ _ rfl)
  | ok reply =>
    cases reply with
    | rid text => exact absurd resolved (silent _ _ rfl)
    | resolution answer =>
      obtain ⟨status, text, hex⟩ := read _ _ resolved
      have said (said : String) (held : PyValue.get (resolutionFields answer) "status" = .text said) :
          said = "resolved" := (textOf_text held).symm.trans status
      cases answer with
      | resolved named =>
        obtain rfl : named = rid := by
          rw [← text]
          exact (textOf_text rfl).symm
        exact ⟨⟨hex_not_empty hex, .inr rfl⟩, hex⟩
      | _ => exact absurd (said _ rfl) (by decide)

end Reading

end NoiContest.WebOutbox
