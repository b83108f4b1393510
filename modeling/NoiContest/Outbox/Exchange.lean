import NoiContest.HydroPlugin.RecordRuns
import NoiContest.HydroPlugin.SingleRecord
import NoiContest.Outbox.ContestBook
import NoiContest.Outbox.Delivery

/- The outbox, its workers, the plugin and the messages between them as one system. A worker
   holds the row as it was claimed, a request can be sent again or late, an answer can be lost,
   delayed or read twice, and either process can stop at any point. -/
namespace NoiContest.WebOutbox
open HydroPlugin (Known Issued Plugin SubmitBody Submission payloadFingerprint normalizeNewlines)

/- What the system is built with: the predicate tells the ids of web submissions from those of
   the final collection, which are digests of other texts. -/
structure Setup where
  settings : HydroPlugin.Settings
  judge : RealtimeJudge
  token : String
  conversions : PyValue.Conversions
  dumps : PyValue → String
  hydro : HydroPlugin.Failure → Nat × String
  web : String → Bool

inductive Sender where
  | worker (row : WebSubmission)
  | checker (row : WebSubmission)
  | other

/- The senders stand in the order of the plugin's requests; the records are those that Hydro
   has named to the plugin. -/
structure Exchange where
  outbox : Outbox
  plugin : Plugin
  claimed : List WebSubmission
  checked : List WebSubmission
  senders : List Sender
  answers : List (Sender × HttpReply)
  issued : List Issued

def Exchange.start : Exchange :=
  ⟨Outbox.empty, Plugin.installed Dict.empty, [], [], [], [], []⟩

inductive Move where
  | transact (operation : Operation)
  | claim (now : Rat) (filter : LaneFilter) (leaseToken : String)
  | check (now : Rat)
  | post (claim : Nat) (kind : JudgeKind) (contestLocked : Bool) (saves : List HydroPlugin.Save)
  | query (check : Nat) (saves : List HydroPlugin.Save)
  | serve (event : HydroPlugin.Event)
  | answer (request : Nat)
  | receive (answer : Nat) (retryClock checkClock : Rat)
  | miss (claim : Nat) (attempt : Attempt) (retryClock checkClock : Rat)
  | missCheck (check : Nat) (reply : HttpReply) (now : Rat)

/- The row that the claim transaction returns. -/
def claimReply (outbox : Outbox) (now leaseSeconds : Rat) (filter : LaneFilter)
    (leaseToken : String) : Option WebSubmission :=
  match claimNextWebSubmission outbox now leaseSeconds filter leaseToken with
  | .ok (_, reply) => reply
  | .error _ => none

def checkReply (outbox : Outbox) (now checkSeconds : Rat) : Option WebSubmission :=
  match claimAmbiguousWebSubmission outbox now checkSeconds with
  | .ok (_, reply) => reply
  | .error _ => none

def Exchange.transact (s : Exchange) (operation : Operation) : Exchange :=
  { s with outbox := commit s.outbox operation }

/- An event of the plugin; a request that it takes up belongs to the sender. -/
def Exchange.plug (setup : Setup) (s : Exchange) (event : HydroPlugin.Event) (sender : Sender) :
    Exchange :=
  let plugin := s.plugin.stepAny setup.settings event
  { s with
    plugin
    senders := (s.senders ++ [sender]).take plugin.requests.length
    issued := s.issued ++ (s.plugin.issued setup.settings event).toList }

def Exchange.answer (setup : Setup) (s : Exchange) (request : Nat) : Exchange :=
  match s.plugin.requests[request]?, s.senders[request]? with
  | some r, some sender =>
    match r.phase with
    | .finished outcome =>
        { s with answers := s.answers ++ [(sender, httpReply setup.hydro outcome)] }
    | _ => s
  | _, _ => s

/- What the sender of a request does with its answer. -/
def Exchange.read (setup : Setup) (s : Exchange) (reply : HttpReply) (retryClock checkClock : Rat) :
    Sender → Exchange
  | .worker row => s.transact (setup.judge.report setup.conversions setup.dumps row
      (.exchanged reply) retryClock checkClock)
  | .checker row => s.transact (resolutionReport setup.conversions row reply checkClock)
  | .other => s

def Exchange.step (setup : Setup) (s : Exchange) : Move → Exchange
  | .transact operation => s.transact operation
  | .claim now filter leaseToken =>
      { s.transact (.claimNext now setup.judge.leaseSeconds filter leaseToken) with
        claimed := s.claimed ++
          (claimReply s.outbox now setup.judge.leaseSeconds filter leaseToken).toList }
  | .check now =>
      { s.transact (.claimAmbiguous now 30) with
        checked := s.checked ++ (checkReply s.outbox now 30).toList }
  | .post claim kind contestLocked saves =>
      match s.claimed[claim]? with
      | some row => s.plug setup
          (.post (.arrive (row.body setup.token kind) contestLocked saves)) (.worker row)
      | none => s
  | .query check saves =>
      match s.checked[check]? with
      | some row =>
        -- resolve_submission raises for any other id
        if PyText.isLowerHexOf 64 row.submissionId then
          s.plug setup (.status (some setup.token) row.submissionId saves) (.checker row)
        else s
      | none => s
  | .serve event => s.plug setup event .other
  | .answer request => s.answer setup request
  | .receive answer retryClock checkClock =>
      match s.answers[answer]? with
      | some (sender, reply) => s.read setup reply retryClock checkClock sender
      | none => s
  | .miss claim attempt retryClock checkClock =>
      match s.claimed[claim]? with
      | some row => s.transact (setup.judge.report setup.conversions setup.dumps row attempt
          retryClock checkClock)
      | none => s
  | .missCheck check reply now =>
      match s.checked[check]? with
      | some row => s.transact (resolutionReport setup.conversions row reply now)
      | none => s

/- The transactions that nobody writes an outcome with. -/
def Operation.plain (setup : Setup) : Operation → Bool
  | .enqueue _ request _ => setup.web request.submissionId
  | .addLocal .. => true
  | .requeueForFinal _ => true
  | _ => false

/-- Web submissions reach the plugin from the outbox only, and what a sender hears from anyone
    but the plugin names no record. -/
def Move.allowed (setup : Setup) : Move → Bool
  | .transact operation => operation.plain setup
  | .serve (.post (.arrive body _ _)) => !setup.web body.submissionId
  | .miss _ attempt _ _ => !(attempt.result setup.conversions).ok
  | .missCheck _ reply _ => (resolveSubmission setup.conversions reply).2.isNone
  | _ => true

/-- The digest that the plugin computes for the payload of a row. -/
def WebSubmission.fingerprint (settings : HydroPlugin.Settings) (row : WebSubmission) : String :=
  payloadFingerprint row.tid.toLower row.uid row.judgePid
    (if row.judgeLang = "" then HydroPlugin.pickCc14 settings else row.judgeLang)
    (String.ofList (normalizeNewlines row.judgeSource.toList))

/- A web id stands for the payload of a stored row. -/
def Exchange.known (setup : Setup) (s : Exchange) : Known where
  payload id fingerprint := setup.web id = true → ∃ row ∈ s.outbox.rows,
    row.submissionId = id ∧ row.fingerprint setup.settings = fingerprint
  issued := s.issued

def Stored (outbox : Outbox) (row : WebSubmission) : Prop :=
  ∃ stored ∈ outbox.rows, stored.receipt = row.receipt

def Sender.Suits (s : Exchange) (id : String) : Sender → Prop
  | .worker row => Stored s.outbox row ∧ row.submissionId = id
  | .checker row => Stored s.outbox row ∧ row.submissionId = id
  | .other => True

/-- The rows of the outbox and the records of Hydro. -/
structure Exchange.Agrees (setup : Setup) (s : Exchange) : Prop where
  ids : ∀ a ∈ s.outbox.rows, ∀ b ∈ s.outbox.rows, a.submissionId ≠ "" →
    a.submissionId = b.submissionId → a.id = b.id
  web : ∀ row ∈ s.outbox.rows, row.submissionId ≠ "" → setup.web row.submissionId = true
  legacy : ∀ row ∈ s.outbox.rows, row.submissionId = "" → row.judgeState = .localOnly
  submitted : ∀ row ∈ s.outbox.rows, row.judgeState = .submitted →
    (s.known setup).Names row.submissionId row.rid

/-- What everybody holds: claimed rows are stored, requests belong to their senders, answers
    tell the truth about the sender's submission. -/
structure Exchange.Sound (setup : Setup) (s : Exchange) : Prop extends s.Agrees setup where
  claimed : ∀ row ∈ s.claimed, Stored s.outbox row
  checked : ∀ row ∈ s.checked, Stored s.outbox row
  placed : s.senders.length = s.plugin.ids.length
  suits : ∀ (i : Nat) sender id, s.senders[i]? = some sender → s.plugin.ids[i]? = some id →
    sender.Suits s id
  answers : ∀ answer ∈ s.answers, ∃ id outcome, answer.2 = httpReply setup.hydro outcome ∧
    answer.1.Suits s id ∧ ∀ rid, Names outcome rid → (s.known setup).Names id rid
  backed : s.plugin.Backed (s.known setup)
  issued : ∀ i ∈ s.issued, (s.known setup).payload i.submissionId i.fingerprint
  alive : s.plugin.Alive setup.settings

end NoiContest.WebOutbox
