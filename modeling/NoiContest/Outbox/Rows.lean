import Mathlib.Data.Rat.Init
import Mathlib.Algebra.Order.Ring.Rat
import NoiContest.Lib.Outcome
import NoiContest.Lib.SerialTable
import NoiContest.Lib.Sha256
import NoiContest.Lib.JsonText
import NoiContest.Lib.PyText
import NoiContest.Store.Contest

/- The web_submissions table of the store and the transactions on it. Each transaction is
   one BEGIN IMMEDIATE block, so it is a function on the whole table. Clock readings are
   arguments; the leases and retry times of the source are REAL columns, here rationals. -/
namespace NoiContest.WebOutbox
open Outcome

inductive JudgeState where
  | localOnly | pending | sending | retry | permanentFailed | ambiguous | submitted
  deriving DecidableEq, Repr

inductive JudgeKind where
  | realtime | final
  deriving DecidableEq, Repr

structure WebSubmission where
  id : Nat
  tid : String
  uid : Int
  problem : String
  source : String
  sha256 : String
  size : Nat
  clientNonce : String := ""
  submissionId : String := ""
  submissionSession : String := ""
  judgePid : String := ""
  judgeLang : String := ""
  judgeSource : String := ""
  judgeSha256 : String := ""
  judgeIssues : String := "[]"
  judgeState : JudgeState := .localOnly
  judgeKind : JudgeKind := .realtime
  acceptedAtMs : Int := 0
  rid : String := ""
  attempts : Nat := 0
  nextRetryAt : Rat := 0
  leaseUntil : Rat := 0
  leaseToken : String := ""
  lastError : String := ""
  resolutionAttempts : Nat := 0
  resolutionAfter : Rat := 0
  createdAt : String := ""
  deriving DecidableEq, Repr

structure Lane where
  tid : String
  uid : Int
  problem : String
  deriving DecidableEq, Repr

def WebSubmission.lane (row : WebSubmission) : Lane := ⟨row.tid, row.uid, row.problem⟩

abbrev Outbox := SerialTable WebSubmission WebSubmission.id

def Outbox.empty : Outbox := SerialTable.empty

def getWebSubmission (outbox : Outbox) (submissionRowId : Nat) : Option WebSubmission :=
  outbox.byKey submissionRowId

/- Legacy insert: the row stays local and no delivery transaction selects it. -/
def addWebSubmission (outbox : Outbox) (tid : String) (uid : Int) (problem source createdAt : String) :
    Outbox :=
  outbox.insert (fun id =>
    { id, tid, uid, problem, source, sha256 := Sha256.ofText source,
      size := source.utf8ByteSize, createdAt }) (fun _ => rfl)

structure EnqueueRequest where
  tid : String
  uid : Int
  problem : String
  source : String
  clientNonce : String
  submissionId : String
  submissionSession : String
  judgePid : String
  judgeLang : String
  judgeSource : String
  issues : List String
  acceptedAtMs : Int
  allowNew : Bool := true
  deriving DecidableEq, Repr

/- The immutable columns together with the values that a fresh row starts from. -/
def EnqueueRequest.row (request : EnqueueRequest) (createdAt : String) (id : Nat) : WebSubmission where
  id := id
  tid := request.tid
  uid := request.uid
  problem := request.problem
  source := request.source
  sha256 := Sha256.ofText request.source
  size := request.source.utf8ByteSize
  clientNonce := request.clientNonce
  submissionId := request.submissionId
  submissionSession := request.submissionSession
  judgePid := request.judgePid
  judgeLang := request.judgeLang
  judgeSource := request.judgeSource
  judgeSha256 := Sha256.ofText request.judgeSource
  judgeIssues := JsonText.dumps (.arr (request.issues.map .str))
  judgeState := .pending
  acceptedAtMs := request.acceptedAtMs
  createdAt := createdAt

def samePayload (a b : WebSubmission) : Bool :=
  a.tid == b.tid && a.uid == b.uid && a.problem == b.problem && a.source == b.source &&
  a.sha256 == b.sha256 && a.size == b.size && a.clientNonce == b.clientNonce &&
  a.submissionId == b.submissionId && a.submissionSession == b.submissionSession &&
  a.judgePid == b.judgePid && a.judgeLang == b.judgeLang && a.judgeSource == b.judgeSource &&
  a.judgeSha256 == b.judgeSha256 && a.judgeIssues == b.judgeIssues

def checkedReplay (existing wanted : WebSubmission) : Except StoreError (WebSubmission × Bool) :=
  if samePayload existing wanted then .ok (existing, true)
  else .error (.submissionConflict
    "submission nonce or idempotency id was reused with different payload")

def EnqueueRequest.validate (request : EnqueueRequest) : Except StoreError Unit := do
  raiseIf (request.clientNonce.isEmpty || request.clientNonce.length > 200)
    (.valueError "client_nonce must contain 1 to 200 characters")
  raiseIf (!PyText.isLowerHexOf 64 request.submissionId)
    (.valueError "submission_id must be 64 lowercase hexadecimal characters")
  raiseIf (request.submissionSession.isEmpty || request.judgePid.isEmpty || request.judgeLang.isEmpty)
    (.valueError "submission_session, judge_pid, and judge_lang are required")
  raiseIf (request.judgeSource.isEmpty) (.valueError "judge_source is required")
  raiseIf (request.acceptedAtMs ≤ 0)
    (.valueError "accepted_at_ms must be a positive Unix timestamp")

/- The run of the contest must still be the one the caller prepared the payload for. -/
def EnqueueRequest.checkMapping (request : EnqueueRequest) (contest : Contest) :
    Except StoreError Unit := do
  raiseIf (contest.submissionSession ≠ request.submissionSession)
    (.submissionConflict "contest submission session changed before enqueue")
  match contest.pids with
  | none => throw (.valueError "contest problem mapping is invalid")
  | some pidMap =>
    if (pidMap.lookup request.problem).getD "" ≠ request.judgePid then
      throw (.submissionConflict "contest problem mapping changed before enqueue")

def EnqueueRequest.checkWindow (request : EnqueueRequest) (contest : Contest) :
    Except StoreError Unit := do
  raiseIf (!request.allowNew)
    (.submissionClosed "new submission is outside the authoritative contest window")
  raiseIf (contest.state ≠ .ready)
    (.submissionClosed "contest stopped accepting new submissions before enqueue")
  if contest.beginAtMs ≠ 0 ∧ contest.endAtMs ≠ 0 then
    if contest.hydroRule ≠ "oi" ∨
        ¬ (contest.beginAtMs ≤ request.acceptedAtMs ∧ request.acceptedAtMs < contest.endAtMs) then
      throw (.submissionClosed "new submission is outside the frozen OI contest window")

/-- The flag of the result is the `replayed` key of the returned row. -/
def enqueueWebSubmission (outbox : Outbox) (contest : Option Contest) (request : EnqueueRequest)
    (createdAt : String) : Except StoreError (Outbox × WebSubmission × Bool) := do
  request.validate
  let some contest := contest | throw (.keyError s!"比赛不存在: {request.tid}")
  request.checkMapping contest
  match outbox.first? (fun row => row.tid == request.tid && row.uid == request.uid &&
      row.problem == request.problem && row.clientNonce == request.clientNonce) with
  | some existing =>
    let replay ← checkedReplay existing (request.row createdAt 0)
    return (outbox, replay)
  | none =>
  match outbox.first? (fun row => row.submissionId == request.submissionId) with
  | some existing =>
    let replay ← checkedReplay existing (request.row createdAt 0)
    return (outbox, replay)
  | none =>
  request.checkWindow contest
  return (outbox.insert (request.row createdAt) (fun _ => rfl),
    request.row createdAt outbox.nextKey, false)

structure LaneFilter where
  tid : Option String := none
  uid : Option Int := none
  problem : Option String := none
  deriving DecidableEq, Repr

def LaneFilter.admits (filter : LaneFilter) (row : WebSubmission) : Bool :=
  filter.tid.all (· == row.tid) && filter.uid.all (· == row.uid) &&
    filter.problem.all (· == row.problem)

def JudgeState.unsettled : JudgeState → Bool
  | .pending | .retry | .sending | .ambiguous => true
  | _ => false

def WebSubmission.due (row : WebSubmission) (now : Rat) : Bool :=
  ((row.judgeState == .pending || row.judgeState == .retry) && row.nextRetryAt ≤ now) ||
    (row.judgeState == .sending && row.leaseUntil ≤ now)

def blockedByOlder (outbox : Outbox) (row : WebSubmission) : Bool :=
  outbox.rows.any fun older =>
    older.lane == row.lane && older.id < row.id && older.judgeState.unsettled

def claimNextWebSubmission (outbox : Outbox) (now leaseSeconds : Rat) (filter : LaneFilter)
    (leaseToken : String) : Except StoreError (Outbox × Option WebSubmission) := do
  raiseIf (leaseSeconds ≤ 0) (.valueError "lease_seconds must be positive")
  match outbox.first? (fun row =>
      row.due now && filter.admits row && !blockedByOlder outbox row) with
  | none => return (outbox, none)
  | some row =>
    let claimed := outbox.update (fun r => r.id == row.id)
      (fun r => { r with judgeState := .sending, attempts := r.attempts + 1,
                         leaseUntil := now + leaseSeconds, leaseToken := leaseToken })
      (fun _ => rfl)
    return (claimed, claimed.byKey row.id)

def ambiguousWebSubmissionBlocker (outbox : Outbox) (submissionRowId : Nat) : Option Nat := do
  let target ← outbox.byKey submissionRowId
  let older ← outbox.first? (fun row =>
    row.lane == target.lane && row.id ≤ target.id && row.judgeState == .ambiguous)
  return older.id

/- An UPDATE that must hit exactly one row, or the transaction is rolled back. The row is
   selected by its primary key, so it hits at most one. -/
def updateOne (outbox : Outbox) (submissionRowId : Nat) (owned : WebSubmission → Bool)
    (change : WebSubmission → WebSubmission) (keeps : ∀ r, (change r).id = r.id)
    (lost : String) : Except StoreError Outbox :=
  match outbox.first? (fun r => r.id == submissionRowId && owned r) with
  | none => .error (.submissionLeaseLost lost)
  | some _ => .ok (outbox.update (fun r => r.id == submissionRowId && owned r) change keeps)

def WebSubmission.leasedBy (leaseToken : String) (row : WebSubmission) : Bool :=
  row.judgeState == .sending && row.leaseToken == leaseToken

def markWebSubmissionSubmitted (outbox : Outbox) (submissionRowId : Nat) (leaseToken rid : String) :
    Except StoreError Outbox := do
  raiseIf (rid.isEmpty) (.valueError "rid is required")
  updateOne outbox submissionRowId (·.leasedBy leaseToken)
    (fun r => { r with judgeState := .submitted, rid := rid, leaseUntil := 0, leaseToken := "",
                       nextRetryAt := 0, lastError := "" })
    (fun _ => rfl) "submission delivery lease was lost"

def markWebSubmissionFailed (outbox : Outbox) (submissionRowId : Nat) (leaseToken error : String)
    (retryAt : Option Rat) (ambiguous : Bool) (resolutionAfter : Option Rat) :
    Except StoreError Outbox := do
  raiseIf (ambiguous && retryAt.isSome)
    (.valueError "an ambiguous submission cannot be scheduled for retry")
  let state : JudgeState :=
    if ambiguous then .ambiguous else if retryAt.isNone then .permanentFailed else .retry
  raiseIf (resolutionAfter.isSome && !ambiguous)
    (.valueError "only ambiguous submissions have a resolution schedule")
  updateOne outbox submissionRowId (·.leasedBy leaseToken)
    (fun r => { r with judgeState := state, nextRetryAt := retryAt.getD 0, leaseUntil := 0,
                       leaseToken := "", lastError := PyText.clip 4000 error,
                       resolutionAfter := resolutionAfter.getD 0 })
    (fun _ => rfl) "submission delivery lease was lost"

def WebSubmission.resolutionDue (now : Rat) (row : WebSubmission) : Bool :=
  row.judgeState == .ambiguous && 0 < row.resolutionAfter && row.resolutionAfter ≤ now

def claimAmbiguousWebSubmission (outbox : Outbox) (now checkSeconds : Rat) :
    Except StoreError (Outbox × Option WebSubmission) := do
  raiseIf (checkSeconds ≤ 0) (.valueError "check_seconds must be positive")
  match outbox.first? (·.resolutionDue now) with
  | none => return (outbox, none)
  | some row =>
    let claimed := outbox.update (fun r => r.id == row.id && r.resolutionDue now)
      (fun r => { r with resolutionAttempts := r.resolutionAttempts + 1,
                         resolutionAfter := now + checkSeconds })
      (fun _ => rfl)
    return (claimed, claimed.byKey row.id)

inductive ResolutionStatus where
  | missing | multiple | pending | unknown | unsupported | unavailable
  deriving DecidableEq, Repr

def ResolutionStatus.text : ResolutionStatus → String
  | .missing => "missing"
  | .multiple => "multiple"
  | .pending => "pending"
  | .unknown => "unknown"
  | .unsupported => "unsupported"
  | .unavailable => "unavailable"

def ResolutionStatus.ofText (status : String) : Option ResolutionStatus :=
  [missing, multiple, pending, unknown, unsupported, unavailable].find? (·.text == status)

/- A final answer of the OJ parks the row; the other two are asked again after 30 seconds. -/
def ResolutionStatus.nextCheck (now : Rat) : ResolutionStatus → Rat
  | .missing | .multiple | .unknown | .unsupported => -1
  | .pending | .unavailable => now + 30

def WebSubmission.awaits (submissionId : String) (row : WebSubmission) : Bool :=
  row.submissionId == submissionId && row.judgeState == .ambiguous

def finishAmbiguousWebSubmission (outbox : Outbox) (submissionRowId : Nat) (submissionId : String)
    (rid : Option String) (resolutionStatus : String) (now : Rat) : Except StoreError Outbox :=
  match rid with
  | some rid =>
    let ridText := rid.toLower
    if !PyText.isLowerHexOf 24 ridText then
      .error (.valueError "resolved rid must be 24 lowercase hexadecimal characters")
    else
      updateOne outbox submissionRowId (·.awaits submissionId)
        (fun r => { r with judgeState := .submitted, rid := ridText, lastError := "",
                           resolutionAfter := 0 })
        (fun _ => rfl) "ambiguous submission state changed"
  | none =>
    match ResolutionStatus.ofText resolutionStatus with
    | none => .error (.valueError "invalid ambiguous resolution status")
    | some status =>
      updateOne outbox submissionRowId (·.awaits submissionId)
        (fun r => { r with lastError := s!"OJ 只读核对：{status.text}",
                           resolutionAfter := status.nextCheck now })
        (fun _ => rfl) "ambiguous submission state changed"

def JudgeState.requeueable : JudgeState → Bool
  | .pending | .retry | .sending | .permanentFailed => true
  | _ => false

/- The WHERE clause of the final requeue: the unfinished prefix of the target's lane. -/
def requeued (target row : WebSubmission) : Bool :=
  row.lane == target.lane && row.id ≤ target.id && row.judgeState.requeueable &&
    row.submissionId != ""

def WebSubmission.final (row : WebSubmission) : WebSubmission :=
  { row with judgeState := .pending, judgeKind := .final, nextRetryAt := 0, leaseUntil := 0,
             leaseToken := "" }

def requeueWebSubmissionForFinal (outbox : Outbox) (submissionRowId : Nat) :
    Except StoreError Outbox := do
  let some target := outbox.byKey submissionRowId
    | throw (.keyError s!"web submission does not exist: {submissionRowId}")
  raiseIf (target.submissionId = "" ∨ target.judgeState = .localOnly)
    (.valueError "legacy local-only submission has no Hydro payload")
  if target.judgeState = .submitted ∧ target.rid ≠ "" then
    return outbox
  if target.judgeState = .ambiguous then
    return outbox
  return outbox.update (requeued target) WebSubmission.final (fun _ => rfl)

def latestWebSubmission (outbox : Outbox) (lane : Lane) : Option WebSubmission :=
  outbox.last? (fun row => row.lane == lane)

/- contest_delivery_health(tid)["safe"]: the five open states are counted, legacy rows not. -/
def JudgeState.unfinished : JudgeState → Bool
  | .pending | .sending | .retry | .permanentFailed | .ambiguous => true
  | .localOnly | .submitted => false

def deliverySafe (outbox : Outbox) (tid : String) : Bool :=
  outbox.rows.all fun row =>
    !(row.tid == tid && row.submissionId != "" && row.judgeState.unfinished)

end NoiContest.WebOutbox
