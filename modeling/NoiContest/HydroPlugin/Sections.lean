import NoiContest.HydroPlugin.Process

/- A property of the journal that the primitives keep is kept by every section, so by every
   event. The only primitive with a precondition is the reservation of a new id. -/
namespace NoiContest.HydroPlugin
open Effect

structure Closed (settings : Settings) (P : Journal × List Save → Prop) : Prop where
  save : Keeps P (saveIdempotencyState settings)
  modifyEntry : ∀ ref f, Keeps P (modifyEntry ref f)
  endAdd : ∀ call outcome, Keeps P (endAdd call outcome)
  callUpdateStatus : ∀ id rid, Keeps P (callUpdateStatus id rid)
  setInFlight : ∀ id flight, Keeps P (setInFlight id flight)
  setResolving : ∀ id promise, Keeps P (setResolving id promise)
  reserve : ∀ w submission problem contest createdAt, P w →
    w.1.entries.get? submission.submissionId = none →
    Ends (reserveAndAdd settings submission problem contest createdAt) w
      (fun _ t => P t) (fun _ t => P t)

section Sections
variable {settings : Settings} {P : Journal × List Save → Prop}

theorem keeps_raise {α : Type} (failure : Failure) :
    Keeps P (raise failure : Section α) := keeps_throw

theorem keeps_readJournal : Keeps P readJournal := keeps_get.bind fun _ => keeps_pure

theorem keeps_readEntry (ref : Nat) : Keeps P (readEntry ref) := by
  refine keeps_readJournal.bind fun j => ?_
  cases j.heap.read ref with
  | none => exact keeps_raise _
  | some object => exact keeps_pure

theorem keeps_liftCheck {α : Type} (check : Except Failure α) :
    Keeps P (liftCheck check) := by
  cases check with
  | error failure => exact keeps_raise failure
  | ok a => exact keeps_pure

theorem keeps_settleWork {work : Section Phase} (kept : Keeps P work) :
    Keeps P (settleWork work) := by
  refine kept.tryCatch fun fault => ?_
  cases fault with
  | crash => exact keeps_throw
  | raised failure => exact keeps_pure

theorem settled_ends {work : Section Phase} {w : Journal × List Save}
    (ends : Ends work w (fun _ t => P t) (fun _ t => P t)) :
    Ends (settleWork work) w (fun _ t => P t) (fun _ t => P t) := by
  rw [settleWork, ends_tryCatch]
  refine ends.mono (fun _ _ kept => kept) ?_
  intro fault t kept
  cases fault with
  | crash => exact kept
  | raised failure => exact kept

theorem keeps_resolveAmbiguousSubmission (id : String) (ref : Nat) :
    Keeps P (resolveAmbiguousSubmission id ref) :=
  (keeps_readEntry _).bind fun _ => (keeps_pure.ite keeps_pure).ite keeps_pure

theorem keeps_resumeFinding (id : String) (ref : Nat) (records : List Record) :
    Keeps P (resumeFinding settings id ref records) := by
  refine (keeps_readEntry _).bind fun entry => ?_
  split
  · exact keeps_pure
  · exact keeps_pure.ite (keeps_pure.ite keeps_pure)
  · exact keeps_pure

variable (closed : Closed settings P)
include closed

theorem keeps_finishEntry (job : Job) : Keeps P (finishEntry settings job) :=
  (closed.modifyEntry _ _).bind fun _ => closed.save.bind fun _ =>
    (keeps_readEntry _).bind fun _ => keeps_pure

theorem keeps_countUser (job : Job) : Keeps P (countUser settings job) :=
  (keeps_readEntry _).bind fun _ => (keeps_finishEntry closed job).ite keeps_pure

theorem keeps_countProblem (job : Job) : Keeps P (countProblem settings job) :=
  (keeps_readEntry _).bind fun _ => (keeps_countUser closed job).ite keeps_pure

theorem keeps_updateStatus (job : Job) : Keeps P (updateStatus settings job) :=
  (keeps_readEntry _).bind fun _ => (keeps_countProblem closed job).ite
    ((closed.callUpdateStatus _ _).bind fun _ => keeps_pure)

theorem keeps_completeSubmissionEntry (job : Job) (recovering : Bool) :
    Keeps P (completeSubmissionEntry settings job recovering) :=
  (keeps_readEntry _).bind fun _ => keeps_pure.ite (keeps_updateStatus closed _)

theorem keeps_resumeCompletion (job : Job) (stage : Completion) (answer : Answer) :
    Keeps P (resumeCompletion settings job stage answer) := by
  unfold resumeCompletion
  split
  · refine keeps_settleWork ((keeps_readEntry _).bind fun entry => ?_)
    dsimp only
    split
    · exact keeps_raise _
    · exact (closed.modifyEntry _ _).bind fun _ => closed.save.bind fun _ => keeps_updateStatus closed job
  · exact keeps_settleWork ((closed.modifyEntry _ _).bind fun _ =>
      closed.save.bind fun _ => keeps_countProblem closed job)
  · exact keeps_settleWork ((closed.modifyEntry _ _).bind fun _ =>
      closed.save.bind fun _ => keeps_countUser closed job)
  · exact keeps_settleWork ((closed.modifyEntry _ _).bind fun _ =>
      closed.save.bind fun _ => keeps_finishEntry closed job)
  · exact keeps_pure
  · exact keeps_pure

theorem keeps_recoverWith (submission : Submission) (entry : Nat) (problemDocId : Int)
    (contestDocId : String) :
    Keeps P (recoverWith settings submission entry problemDocId contestDocId) :=
  (closed.modifyEntry _ _).bind fun _ => closed.save.bind fun _ =>
    keeps_completeSubmissionEntry closed _ true

theorem keeps_recoverContest (submission : Submission) (entry : Nat) (problemDocId : Int) :
    Keeps P (recoverContest settings submission entry problemDocId) := by
  refine (keeps_readEntry _).bind fun e => ?_
  cases e.contestDocId with
  | none => exact keeps_pure
  | some contestDocId => exact keeps_recoverWith closed _ _ _ _

theorem keeps_recover (submission : Submission) (entry : Nat) :
    Keeps P (recover settings submission entry) := by
  refine (keeps_readEntry _).bind fun e => ?_
  cases e.problemDocId with
  | none => exact keeps_pure
  | some problemDocId => exact keeps_recoverContest closed _ _ _

theorem keeps_submitLookedUp (self : Nat) (submission : Submission) (problem : Problem)
    (contest : ContestDoc) (attendance : Option Attendance) (ongoing : Bool)
    (createdAt : String) :
    Keeps P (submitLookedUp settings self submission problem contest attendance
      ongoing createdAt) := by
  refine (keeps_liftCheck _).bind fun attended => ?_
  intro w sound
  simp only [readJournal, ends_bind, ends_get, ends_pure, ends_ite]
  refine ⟨fun _ => keeps_raise _ w sound, fun _ => ⟨fun _ => keeps_raise _ w sound, fun _ => ?_⟩⟩
  split
  · exact sound
  · exact ((keeps_settleWork (keeps_completeSubmissionEntry closed _ false)).bind fun _ =>
      (closed.setInFlight _ _).bind fun _ => keeps_pure) w sound
  · rename_i absent
    rw [ends_ite]
    refine ⟨fun _ => keeps_raise _ w sound, fun _ => ?_⟩
    rw [ends_bind]
    refine (settled_ends (closed.reserve _ _ _ _ _ sound absent)).mono ?_ fun _ _ kept => kept
    exact fun phase t kept => ((closed.setInFlight _ _).bind fun _ => keeps_pure) t kept

theorem keeps_submit (self : Nat) (body : SubmitBody) (contestLocked : Bool) :
    Keeps P (submit settings self body contestLocked) := by
  refine (keeps_liftCheck _).bind fun submission => keeps_readJournal.bind fun j => ?_
  refine (keeps_raise _).ite ((keeps_raise _).ite ?_)
  split
  · exact keeps_pure
  · refine (keeps_readEntry _).bind fun persisted => keeps_pure.ite ((keeps_raise _).ite ?_)
    exact (keeps_settleWork (keeps_recover closed _ _)).bind fun _ =>
      (closed.setInFlight _ _).bind fun _ => keeps_pure
  · exact (keeps_raise _).ite keeps_pure

theorem keeps_attachRid (submission : Submission) (entry call : Nat) (contestDocId : String)
    (problemDocId : Int) (rid : Rid) :
    Keeps P
      (attachRid settings submission entry call contestDocId problemDocId rid) :=
  (closed.endAdd _ _).bind fun _ => (closed.modifyEntry _ _).bind fun _ => closed.save.bind fun _ =>
    keeps_completeSubmissionEntry closed _ false

theorem keeps_resumeCorrelating (id : String) (ref : Nat) (candidate : Record)
    (items : Option (List JournalItem)) :
    Keeps P (resumeCorrelating settings id ref candidate items) := by
  refine (keeps_readEntry _).bind fun entry => ?_
  split
  · exact keeps_pure
  · exact keeps_pure.ite (keeps_pure.ite ((closed.modifyEntry _ _).bind fun _ =>
      closed.save.bind fun _ => keeps_completeSubmissionEntry closed _ false))

theorem keeps_submissionStatus (self : Nat) (headerToken : Option String) (id : String) :
    Keeps P (submissionStatus settings self headerToken id) := by
  refine (keeps_raise _).ite ((keeps_raise _).ite (keeps_readJournal.bind fun j => ?_))
  split
  · exact keeps_pure
  · exact keeps_pure
  · exact (keeps_settleWork (keeps_resolveAmbiguousSubmission _ _)).bind fun _ =>
      (closed.setResolving _ _).bind fun _ => keeps_pure

theorem keeps_resume (self : Nat) (phase : Phase) (answer : Answer) :
    Keeps P (resume settings self phase answer) := by
  unfold resume
  split
  · exact keeps_pure
  · exact keeps_raise _
  · exact keeps_pure.ite (keeps_raise _)
  · exact keeps_submitLookedUp closed _ _ _ _ _ _ _
  · exact keeps_raise _
  · exact keeps_settleWork (keeps_recoverContest closed _ _ _)
  · exact keeps_pure
  · exact keeps_settleWork (keeps_recoverWith closed _ _ _ _)
  · exact keeps_pure
  · exact keeps_settleWork (keeps_attachRid closed _ _ _ _ _ _)
  · exact (closed.endAdd _ _).bind fun _ => keeps_pure
  · exact keeps_resumeCompletion closed _ _ _
  · exact keeps_settleWork (keeps_resumeFinding _ _ _)
  · exact keeps_pure
  · exact keeps_settleWork (keeps_resumeCorrelating closed _ _ _ _)
  · exact keeps_pure
  · exact keeps_pure

end Sections

end NoiContest.HydroPlugin
