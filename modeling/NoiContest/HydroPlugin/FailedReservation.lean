import NoiContest.HydroPlugin.CounterMoves
import NoiContest.HydroPlugin.SingleRecord

/- What becomes of a submission whose reservation could not be saved, when the same payload is
   posted again. -/
namespace NoiContest.HydroPlugin
open Effect

/-- What Hydro answers to a submit request that it accepts. -/
structure Acceptance where
  problem : Problem
  contest : ContestDoc
  attendance : Attendance
  ongoing : Bool
  createdAt : String
  rid : Rid

def Accepts (settings : Settings) (submission : Submission) (a : Acceptance) : Prop :=
  a.contest.pids.any (·.contains a.problem.docId) = true ∧
    checkEligible settings submission a.problem a.contest (some a.attendance) = .ok a.attendance ∧
    outsideWindow submission a.contest a.attendance a.ongoing = false

instance (settings : Settings) (submission : Submission) (a : Acceptance) :
    Decidable (Accepts settings submission a) :=
  inferInstanceAs (Decidable (_ ∧
    checkEligible settings submission a.problem a.contest (some a.attendance) = .ok _ ∧ _))

/- Every answer that the request awaits, in turn, while saving works. -/
def answersOf (a : Acceptance) : List Answer :=
  [.problem (some a.problem), .contest a.contest,
    .attendance (some a.attendance) a.ongoing a.createdAt, .added a.rid, .done, .done, .done]

def wholeRequest (request : Nat) (body : SubmitBody) (a : Acceptance) : List PostEvent :=
  .arrive body false [] :: (answersOf a).map (.resume request · []) ++ [.conclude request]

/-- The request calls RecordModel.add and returns the id of the record. -/
def Served (settings : Settings) (p : Plugin) (body : SubmitBody) (a : Acceptance) : Prop :=
  let p' := Runs.run (Plugin.step settings) p (wholeRequest p.requests.length body a)
  p'.requests[p.requests.length]?.bind outcomeOf = some (.ok (.rid a.rid.text)) ∧
    ∃ call ∈ p'.journal.adds, call.submissionId = body.submissionId ∧
      call.outcome = .returned a.rid

/- Without an entry in memory -/

section Fresh
variable {settings : Settings} {j : Journal}

theorem save_saved : Ends (saveIdempotencyState settings) (j, [])
    (fun _ t => t.2 = [] ∧ t.1.heap = j.heap ∧ t.1.adds = j.adds) (fun _ _ => False) := by
  simp [saveIdempotencyState, modifyJournal, nextSave, Journal.write]

/-- The record call of the request, and the entry that waits for the rest. -/
structure Underway (id : String) (ref : Nat) (rid : Rid) (flags : Bool × Bool × Bool)
    (w : Journal × List Save) : Prop where
  saves : w.2 = []
  entry : ∃ e, w.1.heap.read ref = some (id, e) ∧ e.rid = rid.text ∧
    (e.statusUpdated, e.problemCounted, e.userCounted) = flags
  added : ∃ call ∈ w.1.adds, call.submissionId = id ∧ call.outcome = .returned rid

theorem Underway.same {id : String} {ref : Nat} {rid : Rid} {flags : Bool × Bool × Bool}
    {w t : Journal × List Save} (underway : Underway id ref rid flags w) (saves : t.2 = [])
    (heap : t.1.heap = w.1.heap) (adds : t.1.adds = w.1.adds) : Underway id ref rid flags t := by
  refine ⟨saves, ?_, ?_⟩
  · rw [heap]
    exact underway.entry
  · rw [adds]
    exact underway.added

/- Each call of completeSubmissionEntry that returns sets its flag and saves. -/
theorem flag_ends (flags' : Bool × Bool × Bool) {id : String} {ref : Nat} {rid : Rid}
    {flags : Bool × Bool × Bool} {w : Journal × List Save}
    (underway : Underway id ref rid flags w) {f : Entry → Entry}
    (sameRid : ∀ e, (f e).rid = e.rid)
    (set : ∀ e : Entry, (e.statusUpdated, e.problemCounted, e.userCounted) = flags →
      ((f e).statusUpdated, (f e).problemCounted, (f e).userCounted) = flags')
    {next : Section Phase} {post : Phase → Journal × List Save → Prop}
    (onward : ∀ t, Underway id ref rid flags' t → Ends next t post (fun _ _ => False)) :
    Ends (do modifyEntry ref f; saveIdempotencyState settings; next) w post (fun _ _ => False) := by
  obtain ⟨j, saves⟩ := w
  obtain ⟨rfl, ⟨e, found, text, holds⟩, added⟩ := underway
  simp only [modifyEntry, modifyJournal, ends_bind, ends_modify]
  refine save_saved.mono ?_ fun _ _ stuck => stuck
  rintro _ t ⟨empty, heap, adds⟩
  refine onward t ⟨empty, ⟨f e, ?_, (sameRid e).trans text, set e holds⟩, ?_⟩
  · rw [heap]
    simp [Journal.modifyEntry, Heap.read_modify, found]
  · rw [adds]
    exact added

theorem settle_ok {work : Section Phase} {w : Journal × List Save}
    {post : Phase → Journal × List Save → Prop} (ends : Ends work w post (fun _ _ => False)) :
    Ends (settleWork work) w post (fun _ _ => False) := by
  rw [settleWork, ends_tryCatch]
  exact ends.mono (fun _ _ held => held) fun _ _ stuck => stuck.elim

theorem readEntry_ok {w : Journal × List Save} {ref : Nat} {id : String} {e : Entry}
    (found : w.1.heap.read ref = some (id, e)) {α : Type} {f : Entry → Section α}
    {post : α → Journal × List Save → Prop} (onward : Ends (f e) w post (fun _ _ => False)) :
    Ends (readEntry ref >>= f) w post (fun _ _ => False) := by
  simpa [readEntry, readJournal, found] using onward

section Stages
variable {id : String} {ref : Nat} {rid : Rid} {job : Job} {w : Journal × List Save}

/-- The next stage of the request, with the flags that its entry has by then. -/
abbrev Reaches (id : String) (ref : Nat) (rid : Rid) (flags : Bool × Bool × Bool) (phase : Phase)
    (work : Section Phase) (w : Journal × List Save) : Prop :=
  Ends work w (fun phase' t => phase' = phase ∧ Underway id ref rid flags t) fun _ _ => False

theorem status_reached (underway : Underway id ref rid (false, false, false) w)
    (entry : job.entry = ref) :
    Reaches id ref rid (true, false, false) (.completing job .problem)
      (resumeCompletion settings job .status .done) w := by
  subst entry
  refine settle_ok ?_
  refine flag_ends (true, false, false) underway (fun _ => ?_) (fun e flags => ?_)
    fun t reached => ?_
  · rfl
  · simp_all
  · obtain ⟨e, found, _, flags⟩ := reached.entry
    refine readEntry_ok found ?_
    simpa [(Prod.mk.inj (Prod.mk.inj flags).2).1] using reached

theorem problem_reached (underway : Underway id ref rid (true, false, false) w)
    (entry : job.entry = ref) :
    Reaches id ref rid (true, true, false) (.completing job .user)
      (resumeCompletion settings job .problem .done) w := by
  subst entry
  refine settle_ok ?_
  refine flag_ends (true, true, false) underway (fun _ => ?_) (fun e flags => ?_)
    fun t reached => ?_
  · rfl
  · simp_all
  · obtain ⟨e, found, _, flags⟩ := reached.entry
    refine readEntry_ok found ?_
    simpa [(Prod.mk.inj (Prod.mk.inj flags).2).2] using reached

theorem user_reached (underway : Underway id ref rid (true, true, false) w)
    (entry : job.entry = ref) (forPost : job.forStatus = false) :
    Reaches id ref rid (true, true, true) (.settled (.ok (.rid rid.text)))
      (resumeCompletion settings job .user .done) w := by
  subst entry
  refine settle_ok ?_
  refine flag_ends (true, true, true) underway (fun _ => ?_) (fun e flags => ?_) fun t reached => ?_
  · rfl
  · simp_all
  · refine flag_ends (true, true, true) reached (fun _ => ?_) (fun _ flags => ?_)
      fun u finished => ?_
    · rfl
    · exact flags
    obtain ⟨e, found, text, _⟩ := finished.entry
    refine readEntry_ok found ?_
    simpa [forPost, text] using finished

/- RecordModel.add has returned. -/
theorem added_reached {submission : Submission} {call : Nat} {contest : String} {problem : Int}
    {e : Entry} (saves : w.2 = []) (found : w.1.heap.read ref = some (submission.submissionId, e))
    (flags : (e.statusUpdated, e.problemCounted, e.userCounted) = (false, false, false))
    (running : w.1.adds[call]? = some ⟨submission.submissionId, ref, .running⟩) :
    Reaches submission.submissionId ref rid (false, false, false)
      (.completing { submission.job ref contest problem with rid := rid.text } .status)
      (settleWork (attachRid settings submission ref call contest problem rid)) w := by
  obtain ⟨j, saves'⟩ := w
  obtain rfl : saves' = [] := saves
  refine settle_ok ?_
  simp only [attachRid, endAdd, modifyEntry, modifyJournal, ends_bind, ends_modify]
  refine save_saved.mono ?_ fun _ _ stuck => stuck
  rintro _ t ⟨empty, heap, adds⟩
  have read : t.1.heap.read ref = some (submission.submissionId,
      { e with rid := rid.text, phase := .recordCreated }) := by
    rw [heap]
    simp [Journal.modifyEntry, Journal.endAdd, Heap.read_modify, found]
  have call' : ∃ c ∈ t.1.adds, c.submissionId = submission.submissionId ∧
      c.outcome = .returned rid := by
    refine ⟨⟨submission.submissionId, ref, .returned rid⟩, ?_, rfl, rfl⟩
    rw [adds]
    refine List.mem_of_getElem? (i := call) ?_
    simp [Journal.modifyEntry, Journal.endAdd, running]
  obtain ⟨early, _⟩ := Prod.mk.inj flags
  refine readEntry_ok read ?_
  simp only [early, Bool.not_false, Bool.and_false, Bool.false_eq_true, if_false]
  refine readEntry_ok read ?_
  simp only [early, Bool.false_eq_true, if_false, callUpdateStatus, modifyJournal, ends_bind,
    ends_modify, ends_pure]
  exact ⟨trivial, empty, ⟨_, read, rfl, flags⟩, call'⟩

end Stages

/- The second look at the journal finds nothing, and the reservation is saved. -/
theorem reservation_reached {self : Nat} {submission : Submission} {a : Acceptance}
    (accepts : Accepts settings submission a)
    (absent : j.entries.get? submission.submissionId = none)
    (idle : j.inFlight.get? submission.submissionId = none) :
    Ends (submitLookedUp settings self submission a.problem a.contest (some a.attendance)
        a.ongoing a.createdAt) (j, [])
      (fun phase t => ∃ ref call e,
        phase = .adding submission ref call a.contest.docId a.problem.docId ∧ t.2 = [] ∧
        t.1.heap.read ref = some (submission.submissionId, e) ∧
        (e.statusUpdated, e.problemCounted, e.userCounted) = (false, false, false) ∧
        t.1.adds[call]? = some ⟨submission.submissionId, ref, .running⟩)
      (fun _ _ => False) := by
  obtain ⟨_, eligible, inside⟩ := accepts
  have unknown : j.entryOf submission.submissionId = none := by
    simp [Journal.entryOf, absent]
  simp only [submitLookedUp, eligible, liftCheck, readJournal, ends_bind, ends_pure, ends_get,
    unknown, idle, absent, fingerprintDiffers, Option.map_none, Option.any_none,
    Bool.false_eq_true, if_false, inside]
  refine settle_ok ?_
  simp only [reserveAndAdd, insertEntry, callAdd, readJournal, modifyJournal, ends_bind, ends_get,
    ends_modify, ends_pure]
  refine save_saved.mono ?_ fun _ _ stuck => stuck
  rintro _ t ⟨empty, heap, _⟩
  simp only [setInFlight, modifyJournal, ends_modify]
  refine ⟨_, _, submission.reservation a.problem a.contest a.createdAt, rfl, empty, ?_, rfl, ?_⟩
  · simp [heap, Journal.callAdd, Journal.insertEntry, Heap.read_allocate]
  · simp [Journal.callAdd]

end Fresh

section Requests
variable {settings : Settings} {p : Plugin} {request : Nat}

theorem resume_step (answer : Answer) {r : Request} {post : Phase → Journal × List Save → Prop}
    (found : p.requests[request]? = some r)
    (ends : Ends (resume settings request r.phase answer) (p.journal, []) post
      (fun _ _ => False)) :
    ∃ phase t, post phase t ∧ p.step settings (.resume request answer []) =
      { p with journal := t.1, requests := p.setPhase request phase } := by
  unfold Ends at ends
  rw [Plugin.step, found]
  dsimp only
  unfold Plugin.perform
  split at ends
  · rename_i phase t outcome
    exact ⟨phase, t, ends, by simp only [outcome]⟩
  · exact ends.elim

theorem setPhase_self {r : Request} {phase : Phase} (found : p.requests[request]? = some r) :
    (p.setPhase request phase)[request]? = some { r with phase } := by
  simp [Plugin.setPhase, found]

/- A stage of the request, from one await to the next. -/
theorem stage_step (answer : Answer) {r : Request} {phase : Phase} {id : String} {ref : Nat}
    {rid : Rid} {flags : Bool × Bool × Bool} (found : p.requests[request]? = some r)
    (reaches : Reaches id ref rid flags phase (resume settings request r.phase answer)
      (p.journal, [])) :
    (p.step settings (.resume request answer [])).requests[request]? = some { r with phase } ∧
      Underway id ref rid flags ((p.step settings (.resume request answer [])).journal, []) := by
  obtain ⟨_, ⟨j, saves⟩, ⟨rfl, underway⟩, eq⟩ := resume_step answer found reaches
  obtain rfl : saves = [] := underway.saves
  rw [eq]
  exact ⟨setPhase_self found, underway⟩

theorem conclude_settled {r : Request} {outcome : Except Failure Reply}
    (found : p.requests[request]? = some { r with phase := .settled outcome })
    (posted : r.kind = .submit) :
    (p.step settings (.conclude request)).requests[request]? =
        some { r with phase := .finished outcome } ∧
      (p.step settings (.conclude request)).journal.adds = p.journal.adds := by
  have concluded : p.step settings (.conclude request) =
      { p with journal := p.journal.forget .submit r.submissionId,
               requests := p.setPhase request (.finished outcome) } := by
    simp [Plugin.step, Plugin.conclude, found, posted]
  rw [concluded]
  exact ⟨by simpa using setPhase_self found, rfl⟩

/- From the record call on, each stage has its answer. -/
theorem finished_of_adding {r : Request} {submission : Submission} {ref call : Nat}
    {contest : String} {problem : Int} {e : Entry} {rid : Rid}
    (found : p.requests[request]? = some r) (posted : r.kind = .submit)
    (adding : r.phase = .adding submission ref call contest problem)
    (read : p.journal.heap.read ref = some (submission.submissionId, e))
    (flags : (e.statusUpdated, e.problemCounted, e.userCounted) = (false, false, false))
    (running : p.journal.adds[call]? = some ⟨submission.submissionId, ref, .running⟩)
    {id : String} (named : submission.submissionId = id) :
    let p' := Runs.run (Plugin.step settings) p [.resume request (.added rid) [],
      .resume request .done [], .resume request .done [], .resume request .done [],
      .conclude request]
    p'.requests[request]?.bind outcomeOf = some (.ok (.rid rid.text)) ∧
      ∃ call ∈ p'.journal.adds, call.submissionId = id ∧ call.outcome = .returned rid := by
  subst named
  have reached : Reaches submission.submissionId ref rid (false, false, false)
      (.completing { submission.job ref contest problem with rid := rid.text } .status)
      (resume settings request r.phase (.added rid)) (p.journal, []) := by
    rw [adding]
    exact added_reached (w := (p.journal, [])) rfl read flags running
  obtain ⟨found, underway⟩ := stage_step (.added rid) found reached
  obtain ⟨found, underway⟩ := stage_step .done found (status_reached underway rfl)
  obtain ⟨found, underway⟩ := stage_step .done found (problem_reached underway rfl)
  obtain ⟨found, underway⟩ := stage_step .done found (user_reached underway rfl rfl)
  simp only [Runs.run_cons, Runs.run_nil]
  obtain ⟨finished, adds⟩ := conclude_settled found posted
  exact ⟨by rw [finished]; rfl, by rw [adds]; exact underway.added⟩

/- A lookup only moves its request on. -/
theorem lookup_step (answer : Answer) {r : Request} {phase : Phase}
    (found : p.requests[request]? = some r)
    (looks : ∀ w, resume settings request r.phase answer w = .ok phase w) :
    (p.step settings (.resume request answer [])).requests[request]? = some { r with phase } ∧
      (p.step settings (.resume request answer [])).journal = p.journal := by
  have moved : p.step settings (.resume request answer []) =
      { p with requests := p.setPhase request phase } := by
    simp [Plugin.step, found, Plugin.perform, looks]
  rw [moved]
  exact ⟨setPhase_self found, rfl⟩

variable {body : SubmitBody} {submission : Submission} {a : Acceptance}

theorem arrive_step (up : p.up = true) (valid : body.validate settings = .ok submission)
    (absent : p.journal.entries.get? submission.submissionId = none)
    (idle : p.journal.inFlight.get? submission.submissionId = none) :
    (p.step settings (.arrive body false [])).requests[p.requests.length]? =
        some ⟨.submit, body.submissionId, .lookingUp submission .problem⟩ ∧
      (p.step settings (.arrive body false [])).journal = p.journal := by
  have unknown : p.journal.entryOf submission.submissionId = none := by
    simp [Journal.entryOf, absent]
  have begun : submit settings p.requests.length body false (p.journal, []) =
      .ok (.lookingUp submission .problem) (p.journal, []) := by
    simp [submit, valid, liftCheck, readJournal, unknown, idle, absent, fingerprintDiffers, bind,
      EStateM.bind, pure, EStateM.pure, get, getThe, MonadStateOf.get, EStateM.get]
  simp [Plugin.step, up, Plugin.perform, begun]

theorem reservation_step {r : Request} (accepts : Accepts settings submission a)
    (found : p.requests[request]? = some r)
    (looking : r.phase = .lookingUp submission (.attendance a.problem a.contest))
    (absent : p.journal.entries.get? submission.submissionId = none)
    (idle : p.journal.inFlight.get? submission.submissionId = none) :
    let p' := p.step settings
      (.resume request (.attendance (some a.attendance) a.ongoing a.createdAt) [])
    ∃ ref call e, p'.requests[request]? =
        some { r with phase := .adding submission ref call a.contest.docId a.problem.docId } ∧
      p'.journal.heap.read ref = some (submission.submissionId, e) ∧
      (e.statusUpdated, e.problemCounted, e.userCounted) = (false, false, false) ∧
      p'.journal.adds[call]? = some ⟨submission.submissionId, ref, .running⟩ := by
  obtain ⟨_, t, ⟨ref, call, e, rfl, _, read, flags, running⟩, eq⟩ := resume_step
    (.attendance (some a.attendance) a.ongoing a.createdAt) found
    (by rw [looking]; exact reservation_reached accepts absent idle)
  exact ⟨ref, call, e, by rw [eq]; exact setPhase_self found, by rw [eq]; exact read, flags,
    by rw [eq]; exact running⟩

theorem run_wholeRequest (body : SubmitBody) (a : Acceptance) :
    Runs.run (Plugin.step settings) p (wholeRequest request body a) =
      Runs.run (Plugin.step settings)
        ((((p.step settings (.arrive body false [])).step settings
          (.resume request (.problem (some a.problem)) [])).step settings
          (.resume request (.contest a.contest) [])).step settings
          (.resume request (.attendance (some a.attendance) a.ongoing a.createdAt) []))
        [.resume request (.added a.rid) [], .resume request .done [], .resume request .done [],
          .resume request .done [], .conclude request] := by
  simp only [wholeRequest, answersOf, List.map_cons, List.map_nil, List.cons_append,
    List.nil_append, Runs.run_cons, Runs.run_nil]

theorem served_of_absent (up : p.up = true) (valid : body.validate settings = .ok submission)
    (accepts : Accepts settings submission a)
    (absent : p.journal.entries.get? submission.submissionId = none)
    (idle : p.journal.inFlight.get? submission.submissionId = none) :
    Served settings p body a := by
  have listed (w : Journal × List Save) :
      resume settings p.requests.length (.lookingUp submission (.contest a.problem))
        (.contest a.contest) w =
          .ok (.lookingUp submission (.attendance a.problem a.contest)) w := by
    simp only [resume, accepts.1, if_true]
    rfl
  obtain ⟨found, same⟩ := arrive_step up valid absent idle
  obtain ⟨found, same'⟩ := lookup_step (.problem (some a.problem)) found fun _ => rfl
  rw [same] at same'
  obtain ⟨found, same⟩ := lookup_step (.contest a.contest) found listed
  rw [same'] at same
  obtain ⟨ref, call, e, found, read, flags, running⟩ := reservation_step accepts found rfl
    (by rw [same]; exact absent) (by rw [same]; exact idle)
  unfold Served
  rw [run_wholeRequest]
  exact finished_of_adding found rfl rfl read flags running (validate_id valid)

end Requests

/- With an entry or a pending request in memory -/

/-- The request does not look anything up any more. -/
def Phase.past : Phase → Bool
  | .recovering .. | .completing .. | .joined _ | .settled _ | .finished _ => true
  | _ => false

def Calls (called : List String) (w : Journal × List Save) : Prop := w.1.calledFor = called

/-- A section that makes no record call and leaves its request past the lookups. -/
def Passive (called : List String) (work : Section Phase) : Prop :=
  ∀ w, Calls called w →
    Ends work w (fun phase t => phase.past = true ∧ Calls called t) fun _ t => Calls called t

section Passive
variable {settings : Settings} {called : List String}

theorem passive_pure {phase : Phase} (past : phase.past = true) : Passive called (pure phase) :=
  fun _ same => ⟨past, same⟩

theorem passive_raise {failure : Failure} : Passive called (raise failure) := fun _ same => same

theorem Passive.after {α : Type} {x : Section α} {f : α → Section Phase}
    (first : Keeps (Calls called) x) (second : ∀ a, Passive called (f a)) :
    Passive called (x >>= f) := by
  intro w same
  rw [ends_bind]
  exact (first w same).mono (fun a t kept => second a t kept) fun _ _ kept => kept

theorem Passive.ite {c : Prop} [Decidable c] {x y : Section Phase} (yes : Passive called x)
    (no : Passive called y) : Passive called (if c then x else y) := by
  by_cases holds : c
  · simpa [holds] using yes
  · simpa [holds] using no

theorem Passive.settle {work : Section Phase} (passive : Passive called work) :
    Passive called (settleWork work) := by
  intro w same
  rw [settleWork, ends_tryCatch]
  refine (passive w same).mono (fun _ _ kept => kept) ?_
  intro fault t kept
  cases fault with
  | crash => exact kept
  | raised failure => exact ⟨rfl, kept⟩

theorem keeps_calls_modify {f : Journal → Journal} (same : ∀ j, (f j).calledFor = j.calledFor) :
    Keeps (Calls called) (modifyJournal f) :=
  keeps_modify fun w kept => (same w.1).trans kept

theorem keeps_calls_save : Keeps (Calls called) (saveIdempotencyState settings) := by
  refine (keeps_calls_modify fun j => ?_).bind fun _ => Keeps.bind (fun _ kept => kept) ?_
  · unfold Journal.prune
    split <;> rfl
  · have write : Keeps (Calls called) (modifyJournal (·.write)) := keeps_calls_modify fun _ => rfl
    intro outcome
    cases outcome with
    | saved => exact write
    | failed written => exact (write.bind fun _ => keeps_raise _).ite (keeps_raise _)
    | crashed written => exact (write.bind fun _ => keeps_throw).ite keeps_throw

theorem keeps_calls_modifyEntry (ref : Nat) (f : Entry → Entry) :
    Keeps (Calls called) (modifyEntry ref f) := keeps_calls_modify fun _ => rfl

theorem finishEntry_passive (job : Job) : Passive called (finishEntry settings job) :=
  .after (keeps_calls_modifyEntry _ _) fun _ => .after keeps_calls_save fun _ =>
    .after (keeps_readEntry _) fun _ => passive_pure rfl

theorem countUser_passive (job : Job) : Passive called (countUser settings job) :=
  .after (keeps_readEntry _) fun _ => (finishEntry_passive job).ite (passive_pure rfl)

theorem countProblem_passive (job : Job) : Passive called (countProblem settings job) :=
  .after (keeps_readEntry _) fun _ => (countUser_passive job).ite (passive_pure rfl)

theorem updateStatus_passive (job : Job) : Passive called (updateStatus settings job) :=
  .after (keeps_readEntry _) fun _ => (countProblem_passive job).ite
    (.after (keeps_calls_modify fun _ => rfl) fun _ => passive_pure rfl)

theorem completeSubmissionEntry_passive (job : Job) (recovering : Bool) :
    Passive called (completeSubmissionEntry settings job recovering) :=
  .after (keeps_readEntry _) fun _ => (passive_pure rfl).ite (updateStatus_passive _)

theorem flag_passive {ref : Nat} {f : Entry → Entry} {next : Section Phase}
    (passive : Passive called next) :
    Passive called (do modifyEntry ref f; saveIdempotencyState settings; next) :=
  .after (keeps_calls_modifyEntry _ _) fun _ => .after keeps_calls_save fun _ => passive

theorem resumeCompletion_passive (job : Job) (stage : Completion) (answer : Answer) :
    Passive called (resumeCompletion settings job stage answer) := by
  unfold resumeCompletion
  split
  · refine (Passive.after (keeps_readEntry _) fun entry => ?_).settle
    dsimp only
    split
    · exact passive_raise
    · exact flag_passive (updateStatus_passive job)
  · exact (flag_passive (countProblem_passive job)).settle
  · exact (flag_passive (countUser_passive job)).settle
  · exact (flag_passive (finishEntry_passive job)).settle
  · exact passive_pure rfl
  · exact passive_pure rfl

theorem recoverWith_passive (submission : Submission) (entry : Nat) (problemDocId : Int)
    (contestDocId : String) :
    Passive called (recoverWith settings submission entry problemDocId contestDocId) :=
  flag_passive (completeSubmissionEntry_passive _ true)

theorem recoverContest_passive (submission : Submission) (entry : Nat) (problemDocId : Int) :
    Passive called (recoverContest settings submission entry problemDocId) := by
  refine .after (keeps_readEntry _) fun e => ?_
  cases e.contestDocId with
  | none => exact passive_pure rfl
  | some contestDocId => exact recoverWith_passive _ _ _ _

theorem recover_passive (submission : Submission) (entry : Nat) :
    Passive called (recover settings submission entry) := by
  refine .after (keeps_readEntry _) fun e => ?_
  cases e.problemDocId with
  | none => exact passive_pure rfl
  | some problemDocId => exact recoverContest_passive _ _ _

theorem resume_passive {self : Nat} {phase : Phase} (past : phase.past = true) (answer : Answer) :
    Passive called (resume settings self phase answer) := by
  cases phase with
  | recovering submission entry stage =>
    -- Only the awaited lookup goes on; another answer leaves the request where it is.
    have stays : Passive called (pure (.recovering submission entry stage)) := passive_pure rfl
    cases answer with
    | problem found =>
      cases found with
      | none => cases stage <;> exact passive_pure rfl
      | some problem =>
        cases stage with
        | problem => exact (recoverContest_passive submission entry problem.docId).settle
        | contest problemDocId => exact stays
    | contest contest =>
      cases stage with
      | problem => exact stays
      | contest problemDocId =>
        exact (recoverWith_passive submission entry problemDocId contest.docId).settle
    | failed => cases stage <;> exact passive_pure rfl
    | _ => cases stage <;> exact stays
  | completing job stage => exact resumeCompletion_passive job stage answer
  | joined promise => exact passive_pure rfl
  | settled outcome => exact passive_pure rfl
  | finished outcome => exact passive_pure rfl
  | _ => cases past

/- The promise that the request left in flight changes no record call. -/
theorem Passive.inFlight {work : Section Phase} (passive : Passive called work) (id : String)
    (flight : InFlight) :
    Passive called (do let phase ← work; setInFlight id flight; return phase) := by
  intro w same
  rw [ends_bind]
  refine (passive w same).mono ?_ fun _ _ kept => kept
  intro phase t kept
  simp only [setInFlight, modifyJournal, ends_bind, ends_modify, ends_pure]
  exact ⟨kept.1, kept.2⟩

/- Whoever finds an entry or a pending request in memory does not look anything up. -/
theorem submit_passive {self : Nat} {body : SubmitBody} {submission : Submission}
    {w : Journal × List Save} (valid : body.validate settings = .ok submission)
    (present : ¬ (w.1.entries.get? submission.submissionId = none ∧
      w.1.inFlight.get? submission.submissionId = none)) (same : Calls called w) :
    Ends (submit settings self body false) w
      (fun phase t => phase.past = true ∧ Calls called t) (fun _ t => Calls called t) := by
  simp only [submit, valid, liftCheck, readJournal, ends_bind, ends_pure, ends_get]
  refine Passive.ite passive_raise (Passive.ite passive_raise ?_) w same
  cases flight : w.1.inFlight.get? submission.submissionId with
  | some pending => exact passive_pure rfl
  | none =>
    cases entry : w.1.entries.get? submission.submissionId with
    | none => exact (present ⟨entry, flight⟩).elim
    | some ref =>
      refine .after (keeps_readEntry ref) fun persisted => ?_
      refine .ite (passive_pure rfl) (.ite passive_raise ?_)
      exact (recover_passive submission ref).settle.inFlight _ _

end Passive

section Answered
variable {settings : Settings} {p : Plugin} {request : Nat} {called : List String}

/-- The request will never call RecordModel.add, and nobody else has called since. -/
structure Answered (request : Nat) (called : List String) (p : Plugin) : Prop where
  past : ∀ r, p.requests[request]? = some r → r.phase.past = true
  same : p.journal.calledFor = called

theorem setPhase_past {phase : Phase} (past : phase.past = true) :
    ∀ r, (p.setPhase request phase)[request]? = some r → r.phase.past = true := by
  intro r found
  rw [Plugin.setPhase, List.getElem?_modify_eq] at found
  cases before : p.requests[request]? with
  | none => simp [before] at found
  | some r' =>
    obtain rfl : { r' with phase } = r := by simpa [before] using found
    exact past

theorem perform_answered {work : Section Phase} {saves : List Save}
    {record : Phase → List Request}
    (ends : Ends work (p.journal, saves) (fun phase t => phase.past = true ∧ Calls called t)
      fun _ t => Calls called t)
    (recorded : ∀ phase, phase.past = true →
      ∀ r, (record phase)[request]? = some r → r.phase.past = true) :
    Answered request called (p.perform work saves record) := by
  unfold Ends at ends
  unfold Plugin.perform
  cases outcome : work (p.journal, saves) with
  | ok phase t =>
    simp only [outcome] at ends
    exact ⟨recorded phase ends.1, ends.2⟩
  | error fault t =>
    simp only [outcome] at ends
    cases fault with
    | raised failure => exact ⟨recorded _ rfl, ends⟩
    | crash => exact ⟨by simp, ends⟩

theorem arrive_answered {body : SubmitBody} {submission : Submission} (up : p.up = true)
    (valid : body.validate settings = .ok submission)
    (present : ¬ (p.journal.entries.get? submission.submissionId = none ∧
      p.journal.inFlight.get? submission.submissionId = none)) :
    Answered p.requests.length p.journal.calledFor (p.step settings (.arrive body false [])) := by
  simp only [Plugin.step, up, if_true]
  refine perform_answered (submit_passive valid present rfl) ?_
  intro phase past r found
  obtain rfl : _ = r := by simpa using found
  exact past

theorem resume_answered (answered : Answered request called p) (answer : Answer) :
    Answered request called (p.step settings (.resume request answer [])) := by
  cases found : p.requests[request]? with
  | none => simpa [Plugin.step, found] using answered
  | some r =>
    simp only [Plugin.step, found]
    exact perform_answered (resume_passive (answered.past r found) answer _ answered.same)
      fun _ past => setPhase_past past

theorem conclude_answered (answered : Answered request called p) :
    Answered request called (p.step settings (.conclude request)) := by
  simp only [Plugin.step, Plugin.conclude]
  split
  · exact answered
  · rename_i r found
    split
    · refine ⟨setPhase_past rfl, ?_⟩
      cases r.kind <;> exact answered.same
    · split
      · exact ⟨setPhase_past rfl, answered.same⟩
      · exact answered
    · exact answered

theorem resumes_answered (answers : List Answer) : ∀ {p : Plugin}, Answered request called p →
    Answered request called
      (Runs.run (Plugin.step settings) p (answers.map (.resume request · []))) := by
  induction answers with
  | nil => exact fun answered => answered
  | cons answer rest ih => exact fun answered => ih (resume_answered answered answer)

theorem not_served_of_present {body : SubmitBody} {submission : Submission} {a : Acceptance}
    (up : p.up = true) (valid : body.validate settings = .ok submission)
    (uncalled : body.submissionId ∉ p.journal.calledFor)
    (present : ¬ (p.journal.entries.get? submission.submissionId = none ∧
      p.journal.inFlight.get? submission.submissionId = none)) :
    ¬ Served settings p body a := by
  rintro ⟨_, call, mem, named, _⟩
  have asked : Answered p.requests.length p.journal.calledFor (Runs.run (Plugin.step settings)
      (p.step settings (.arrive body false []))
      ((answersOf a).map (.resume p.requests.length · []))) :=
    resumes_answered (answersOf a) (arrive_answered up valid present)
  have answered : Answered p.requests.length p.journal.calledFor (Plugin.step settings
      (Runs.run (Plugin.step settings) (p.step settings (.arrive body false []))
        ((answersOf a).map (.resume p.requests.length · []))) (.conclude p.requests.length)) :=
    conclude_answered asked
  refine uncalled ?_
  rw [← answered.same, ← named]
  refine List.mem_map_of_mem ?_
  simpa [wholeRequest, Runs.run_append] using mem

end Answered

/-- A reservation that could not be saved stays in the memory of the process. The same payload
    gets its record iff neither an entry nor a promise of the id is left when it comes again. -/
theorem posted_again_served_iff (settings : Settings) (file : Dict String Entry)
    (events : List Event) (body : SubmitBody) (submission : Submission) (a : Acceptance)
    (up : (Runs.run (Plugin.stepAny settings) (Plugin.installed file) events).up = true)
    (uncalled : body.submissionId ∉
      (Runs.run (Plugin.stepAny settings) (Plugin.installed file) events).journal.calledFor)
    (valid : body.validate settings = .ok submission)
    (accepts : Accepts settings submission a) :
    Served settings (Runs.run (Plugin.stepAny settings) (Plugin.installed file) events) body a ↔
      (Runs.run (Plugin.stepAny settings) (Plugin.installed file) events).journal.entries.get?
          body.submissionId = none ∧
        (Runs.run (Plugin.stepAny settings) (Plugin.installed file) events).journal.inFlight.get?
          body.submissionId = none := by
  generalize Runs.run (Plugin.stepAny settings) (Plugin.installed file) events = p at *
  have named := validate_id valid
  constructor
  · intro served
    by_contra present
    rw [← named] at present
    exact not_served_of_present up valid uncalled present served
  · rintro ⟨absent, idle⟩
    rw [← named] at absent idle
    exact served_of_absent up valid accepts absent idle

theorem sampleRid_named : "rid-1" ≠ "" := by decide

def sampleAcceptance : Acceptance where
  problem := ⟨3, none⟩
  contest := ⟨"0123456789abcdef01234567", some [3], "oi", some 10, some 20, none⟩
  attendance := ⟨none, none⟩
  ongoing := true
  createdAt := "2026-01-01T00:00:00.000Z"
  rid := ⟨"rid-1", sampleRid_named⟩

/- The disk is full when the first request stores its reservation. -/
def failedReservation : List Event :=
  ([startPlugin, .arrive sampleBody false [], .resume 0 sampleProblem [],
    .resume 0 sampleContestDoc [], .resume 0 sampleAttendance [.failed false],
    .conclude 0]).map .post

theorem sample_accepted : ∃ submission, sampleBody.validate sampleSettings = .ok submission ∧
    Accepts sampleSettings submission sampleAcceptance := by
  have checked : (match sampleBody.validate sampleSettings with
      | .ok submission => decide (Accepts sampleSettings submission sampleAcceptance)
      | .error _ => false) = true := by
    decide +kernel
  split at checked
  · rename_i submission valid
    exact ⟨submission, valid, of_decide_eq_true checked⟩
  · cases checked

/- The plugin has restarted, so that its memory holds what the file holds. -/
def failedThenRestarted : List Event := failedReservation ++ [.post .crash, .post startPlugin]

theorem restarted_plugin_serves :
    Served sampleSettings
      (Runs.run (Plugin.stepAny sampleSettings) (Plugin.installed Dict.empty) failedThenRestarted)
      sampleBody sampleAcceptance := by
  obtain ⟨submission, valid, accepts⟩ := sample_accepted
  have restarted : (Runs.run (Plugin.stepAny sampleSettings) (Plugin.installed Dict.empty)
      failedThenRestarted).up = true := by decide +kernel
  have uncalled : sampleBody.submissionId ∉ (Runs.run (Plugin.stepAny sampleSettings)
      (Plugin.installed Dict.empty) failedThenRestarted).journal.calledFor := by decide +kernel
  have served := posted_again_served_iff sampleSettings Dict.empty failedThenRestarted sampleBody
    submission sampleAcceptance restarted uncalled valid accepts
  rw [served]
  decide +kernel

/- What the run and a later request with the same body leave behind, evaluated once. -/
theorem failedReservation_outcomes :
    let p := Runs.run (Plugin.stepAny sampleSettings) (Plugin.installed Dict.empty)
      failedReservation
    let later := Runs.run (Plugin.step sampleSettings) p
      (wholeRequest 1 sampleBody sampleAcceptance)
    (p.requests.map outcomeOf = [some (.error .journalSave)] ∧ p.journal.adds = []) ∧
      later.requests.map outcomeOf =
        [some (.error .journalSave), some (.error .submissionAmbiguous)] ∧
      later.journal.adds = [] := by
  delta Plugin.stepAny Plugin.step resume resumeFinding submit SubmitBody.validate
    recordMatchesSubmissionEntry
  rw [payloadFingerprint_knowing]
  decide +kernel

/- No record was ever called for, yet the retry is told that one may exist. -/
theorem failed_reservation_poisons :
    let p := Runs.run (Plugin.stepAny sampleSettings) (Plugin.installed Dict.empty)
      failedReservation
    p.requests.map outcomeOf = [some (.error .journalSave)] ∧ p.journal.adds = [] ∧
      (∃ submission, sampleBody.validate sampleSettings = .ok submission ∧
        Accepts sampleSettings submission sampleAcceptance) ∧
      (Runs.run (Plugin.step sampleSettings) p
          (wholeRequest 1 sampleBody sampleAcceptance)).requests.map outcomeOf =
        [some (.error .journalSave), some (.error .submissionAmbiguous)] ∧
      (Runs.run (Plugin.step sampleSettings) p
          (wholeRequest 1 sampleBody sampleAcceptance)).journal.adds = [] :=
  ⟨failedReservation_outcomes.1.1, failedReservation_outcomes.1.2, sample_accepted,
    failedReservation_outcomes.2⟩

end NoiContest.HydroPlugin
