import NoiContest.Lib.Runs
import NoiContest.HydroPlugin.Process

/- The three calls of completeSubmissionEntry that Hydro must not execute twice for one
   submission id, which of them are executed in a run, and when a run keeps the two callers of
   completeSubmissionEntry apart. -/
namespace NoiContest.HydroPlugin

/-- `ContestModel.updateStatus`, `ProblemModel.inc` and `DomainModel.incUserInDomain` -/
inductive SubmitCall where
  | updateStatus | inc | incUserInDomain
  deriving DecidableEq, Repr

def SubmitCall.isCounter : SubmitCall → Bool
  | .updateStatus => false
  | _ => true

/- The flag that completeSubmissionEntry tests before the call and sets after it. -/
def Entry.did (e : Entry) : SubmitCall → Bool
  | .updateStatus => e.statusUpdated
  | .inc => e.problemCounted
  | .incUserInDomain => e.userCounted

def Phase.awaits : Phase → Option (String × SubmitCall)
  | .completing job .status => some (job.submissionId, .updateStatus)
  | .completing job .problem => some (job.submissionId, .inc)
  | .completing job .user => some (job.submissionId, .incUserInDomain)
  | _ => none

def Phase.counting (phase : Phase) (id : String) : Bool :=
  phase.awaits == some (id, .inc) || phase.awaits == some (id, .incUserInDomain)

/- A call that failed was not executed. -/
def Plugin.returned (p : Plugin) : Event → Option (String × SubmitCall)
  | .post (.resume request .done _) => (p.requests[request]?).bind (·.phase.awaits)
  | _ => none

structure Tally where
  plugin : Plugin
  executed : List (String × SubmitCall)

def Tally.step (settings : Settings) (t : Tally) (event : Event) : Tally where
  plugin := t.plugin.stepAny settings event
  executed := t.executed ++ (t.plugin.returned event).toList

/- One process, started on whatever journal file there is. -/
def Tally.start (settings : Settings) (file : Dict String Entry) : Tally where
  plugin := (Plugin.installed file).restart settings .saved
  executed := []

def Event.restarts : Event → Bool
  | .post (.restart _) => true
  | _ => false

def Save.survives : Save → Bool
  | .crashed _ => false
  | _ => true

def Event.crashFree : Event → Bool
  | .post (.arrive _ _ saves) => saves.all Save.survives
  | .post (.resume _ _ saves) => saves.all Save.survives
  | .post (.conclude _) => true
  | .post .crash => false
  | .post (.restart _) => false
  | .status _ _ saves => saves.all Save.survives

/- Calls of one kind for one id that have been executed or are under way. -/
def Tally.calls (t : Tally) (id : String) (call : SubmitCall) : Nat :=
  t.executed.count (id, call) + t.plugin.requests.countP (·.phase.awaits == some (id, call))

def willSave (saves : List Save) : Bool := saves.headD .saved == .saved

/- The entry that a submit works on when no other submit does. -/
def Journal.takesUp (j : Journal) (submission : Submission) : Option Entry :=
  if (j.inFlight.get? submission.submissionId).isSome then none
  else (j.entryOf submission.submissionId).filter (·.fingerprint == submission.fingerprint)

def eligible (settings : Settings) (submission : Submission) (problem : Problem)
    (contest : ContestDoc) (attendance : Option Attendance) : Bool :=
  (checkEligible settings submission problem contest attendance).isOk

/- The request goes on past updateStatus: it reads the counter flags of its entry next. -/
def Phase.goesOn (settings : Settings) (j : Journal) (saved : Bool) : Phase → Answer → Bool
  | .lookingUp submission (.attendance problem contest), .attendance attendance _ _ =>
      eligible settings submission problem contest attendance && (j.takesUp submission).isSome
  | .recovering _ ref .problem, .problem (some _) =>
      saved && (j.heap.read ref).any (·.2.contestDocId.isSome)
  | .recovering _ _ (.contest _), .contest _ => saved
  | .adding .., .added _ => saved
  | .completing job .journal, .journal items =>
      saved && (j.heap.read job.entry).any fun object =>
        (existingSubmissionJournal object.2.rid job.problemDocId items).isSome
  | .completing _ .status, .done => saved
  | .correlating _ ref candidate, .journal items =>
      saved && (j.heap.read ref).any fun object =>
        !(object.2.complete && object.2.rid != "") &&
        (existingSubmissionJournal candidate.id.text (object.2.problemDocId.getD 0) items).any
          fun item => some item.status == candidate.status && some item.score == candidate.score
  | _, _ => false

/- A submit that finds an unfinished entry with all it needs recovers it before its first
   await. -/
def SubmitBody.goesOn (settings : Settings) (j : Journal) (saved : Bool) (body : SubmitBody) :
    Bool :=
  match body.validate settings with
  | .error _ => false
  | .ok submission =>
    saved && (j.takesUp submission).any fun e =>
      !e.complete && e.rid != "" && e.problemDocId.isSome && e.contestDocId.isSome

def Plugin.goesOn (settings : Settings) (p : Plugin) : Event → Option String
  | .post (.arrive body _ saves) =>
      if body.goesOn settings p.journal (willSave saves) then some body.submissionId else none
  | .post (.resume request answer saves) => (p.requests[request]?).bind fun r =>
      if r.phase.goesOn settings p.journal (willSave saves) answer then some r.submissionId
      else none
  | _ => none

/- The request reserves its id, for which the journal has no entry. -/
def Phase.reserves (settings : Settings) (j : Journal) : Phase → Answer → Option String
  | .lookingUp submission (.attendance problem contest), .attendance attendance ongoing _ =>
      match checkEligible settings submission problem contest attendance with
      | .error _ => none
      | .ok attended =>
        if (j.entries.get? submission.submissionId).isNone &&
            (j.inFlight.get? submission.submissionId).isNone &&
            !outsideWindow submission contest attended ongoing then
          some submission.submissionId
        else none
  | _, _ => none

def Plugin.reserves (settings : Settings) (p : Plugin) : Event → Option String
  | .post (.resume request answer _) => (p.requests[request]?).bind fun r =>
      r.phase.reserves settings p.journal answer
  | _ => none

/- Pruning takes entries from the journal, never from the heap. -/
def Journal.everHeld (j : Journal) (id : String) : Bool := j.heap.objects.any (·.1 == id)

/-- No request goes on past updateStatus while another one of its id awaits a counter, and no
    id is reserved again after its entry was pruned. -/
structure Tally.CountsApart (settings : Settings) (t : Tally) (event : Event) : Prop where
  apart : ∀ id, t.plugin.goesOn settings event = some id →
    ∀ r ∈ t.plugin.requests, r.phase.counting id = false
  unpruned : ∀ id, t.plugin.reserves settings event = some id →
    t.plugin.journal.everHeld id = false

instance (settings : Settings) (t : Tally) (event : Event) :
    Decidable (t.CountsApart settings event) :=
  decidable_of_iff
    ((∀ id ∈ t.plugin.goesOn settings event,
      ∀ r ∈ t.plugin.requests, r.phase.counting id = false) ∧
      ∀ id ∈ t.plugin.reserves settings event, t.plugin.journal.everHeld id = false)
    ⟨fun turns => ⟨turns.1, turns.2⟩, fun turns => ⟨turns.apart, turns.unpruned⟩⟩

end NoiContest.HydroPlugin
