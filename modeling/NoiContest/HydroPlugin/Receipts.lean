import NoiContest.Lib.Runs
import NoiContest.HydroPlugin.ReceiptInvariant
import NoiContest.HydroPlugin.Sections

/- Receipt integrity of the submit endpoint: which record ids reach a complete entry or a
   contest status, over every interleaving of POSTs, crashes and restarts. -/
namespace NoiContest.HydroPlugin
open Effect

section Completing
variable {settings : Settings} {others : List Phase} {job : Job}

/- While completeSubmissionEntry runs, its entry has the record id of the job. -/
structure Busy (others : List Phase) (job : Job) (w : Journal × List Save) : Prop where
  inv : Inv w.1 others
  rid : w.1.HasRid job

def Phase.Of (job : Job) : Phase → Prop
  | .settled _ => True
  | .completing other _ => other = job
  | _ => False

def Works (others : List Phase) (job : Job) (work : Section Phase) : Prop :=
  ∀ w, Busy others job w → Ends work w
    (fun phase t => Busy others job t ∧ phase.Of job) (fun _ t => Busy others job t)

/-- The section leaves the invariant for all requests, its own new phase included. -/
def Goes (others : List Phase) (work : Section Phase) (w : Journal × List Save) : Prop :=
  Ends work w (fun phase t => Inv t.1 (phase :: others)) (fun _ t => Inv t.1 others)

theorem works_pure {phase : Phase} (of : phase.Of job) : Works others job (pure phase) :=
  fun _ busy => ⟨busy, of⟩

theorem Works.after {α : Type} {x : Section α} {f : α → Section Phase}
    (first : Keeps (Busy others job) x) (second : ∀ a, Works others job (f a)) :
    Works others job (x >>= f) := by
  intro w busy
  rw [ends_bind]
  exact (first w busy).mono (fun a t kept => second a t kept) fun _ _ kept => kept

theorem Works.ite {c : Prop} [Decidable c] {x y : Section Phase} (yes : Works others job x)
    (no : Works others job y) : Works others job (if c then x else y) := by
  by_cases holds : c
  · simpa [holds] using yes
  · simpa [holds] using no

theorem busy_heap {w t : Journal × List Save} (busy : Busy others job w) (inv : Inv t.1 others)
    (heap : t.1.heap = w.1.heap) : Busy others job t :=
  ⟨inv, by simpa only [Journal.HasRid, heap] using busy.rid⟩

theorem keeps_busy_save : Keeps (Busy others job) (saveIdempotencyState settings) := by
  intro w busy
  refine (save_inv busy.inv).mono ?_ ?_
  · rintro _ t ⟨inv, eq⟩
    exact busy_heap busy inv (by rw [eq]; simp [Journal.write])
  · rintro _ t ⟨inv, heap⟩
    exact busy_heap busy inv heap

/- Setting a flag is allowed as the entry has a record id. -/
theorem keeps_busy_modifyEntry {f : Entry → Entry} (same : ∀ e, (f e).rid = e.rid) :
    Keeps (Busy others job) (modifyEntry job.entry f) := by
  refine keeps_modify ?_
  rintro ⟨j, saves⟩ ⟨inv, e, found, ne, eq⟩
  refine ⟨modifyEntry_inv inv ?_, f e, ?_, by rwa [same], by rwa [same]⟩
  · intro id e' found'
    rw [found] at found'
    obtain ⟨rfl, rfl⟩ := Prod.mk.inj (Option.some.inj found')
    exact ⟨same _, fun _ => ne⟩
  · simp [Journal.modifyEntry, Heap.read_modify, found]

theorem keeps_busy_callUpdateStatus :
    Keeps (Busy others job) (callUpdateStatus job.submissionId job.rid) := by
  refine keeps_modify ?_
  rintro ⟨j, saves⟩ ⟨inv, e, found, ne, eq⟩
  refine ⟨callUpdateStatus_inv inv ?_, e, found, ne, eq⟩
  have returned := (inv.objects _ _ e found).returned ne
  rwa [eq] at returned

theorem finishEntry_works : Works others job (finishEntry settings job) :=
  .after (keeps_busy_modifyEntry fun _ => rfl) fun _ => .after keeps_busy_save fun _ =>
    .after (keeps_readEntry _) fun _ => works_pure trivial

theorem countUser_works : Works others job (countUser settings job) :=
  .after (keeps_readEntry _) fun _ => finishEntry_works.ite (works_pure rfl)

theorem countProblem_works : Works others job (countProblem settings job) :=
  .after (keeps_readEntry _) fun _ => countUser_works.ite (works_pure rfl)

theorem updateStatus_works : Works others job (updateStatus settings job) :=
  .after (keeps_readEntry _) fun _ => countProblem_works.ite
    (.after keeps_busy_callUpdateStatus fun _ => works_pure rfl)

theorem Works.goes {work : Section Phase} {w : Journal × List Save} (works : Works others job work)
    (busy : Busy others job w) : Goes others work w := by
  refine (works w busy).mono ?_ fun _ _ kept => kept.inv
  rintro phase t ⟨kept, of⟩
  cases phase with
  | settled outcome => exact kept.inv.cons trivial rfl
  | completing other stage =>
    obtain rfl : other = job := of
    exact kept.inv.cons kept.rid rfl
  | _ => exact of.elim

theorem Goes.settle {work : Section Phase} {w : Journal × List Save} (goes : Goes others work w) :
    Goes others (settleWork work) w := by
  rw [Goes, settleWork, ends_tryCatch]
  refine goes.mono (fun _ _ kept => kept) ?_
  intro fault t kept
  cases fault with
  | crash => exact kept
  | raised failure => exact kept.cons trivial rfl

theorem resumeCompletion_goes {stage : Completion} {answer : Answer} {w : Journal × List Save}
    (busy : Busy others job w) : Goes others (resumeCompletion settings job stage answer) w := by
  unfold resumeCompletion
  split
  · refine Goes.settle (Works.goes (.after (keeps_readEntry _) fun entry => ?_) busy)
    dsimp only
    split
    · exact fun _ held => held
    · exact .after (keeps_busy_modifyEntry fun _ => rfl) fun _ => .after keeps_busy_save fun _ =>
        updateStatus_works
  · exact Goes.settle (Works.goes (.after (keeps_busy_modifyEntry fun _ => rfl) fun _ =>
      .after keeps_busy_save fun _ => countProblem_works) busy)
  · exact Goes.settle (Works.goes (.after (keeps_busy_modifyEntry fun _ => rfl) fun _ =>
      .after keeps_busy_save fun _ => countUser_works) busy)
  · exact Goes.settle (Works.goes (.after (keeps_busy_modifyEntry fun _ => rfl) fun _ =>
      .after keeps_busy_save fun _ => finishEntry_works) busy)
  · exact busy.inv.cons trivial rfl
  · exact busy.inv.cons busy.rid rfl

end Completing

section Handlers
variable {settings : Settings} {others : List Phase} {w : Journal × List Save}

theorem Goes.bind {α : Type} {x : Section α} {f : α → Section Phase}
    (first : Ends x w (fun a t => Goes others (f a) t) (fun _ t => Inv t.1 others)) :
    Goes others (x >>= f) w := by
  rw [Goes, ends_bind]
  exact first

theorem goes_pure {phase : Phase} (inv : Inv w.1 others) (holds : phase.Holds w.1)
    (quiet : phase.addingId = none) : Goes others (pure phase) w := inv.cons holds quiet

theorem goes_raise {failure : Failure} (inv : Inv w.1 others) :
    Goes others (raise failure) w := inv

/- Reading an entry changes nothing; what was read is what the heap holds. -/
theorem readEntry_ends {ref : Nat} (inv : Inv w.1 others) :
    Ends (readEntry ref) w (fun e t => t = w ∧ ∃ id, w.1.heap.read ref = some (id, e))
      (fun _ t => Inv t.1 others) := by
  simp only [readEntry, readJournal, ends_bind, ends_get, ends_pure]
  cases found : w.1.heap.read ref with
  | none => exact inv
  | some object => exact ⟨rfl, object.1, rfl⟩

theorem completeSubmissionEntry_goes {job : Job} {recovering : Bool} (inv : Inv w.1 others)
    (filled : w.1.Filled job.submissionId job.entry) :
    Goes others (completeSubmissionEntry settings job recovering) w := by
  obtain ⟨e, found, ne⟩ := filled
  refine Goes.bind ((readEntry_ends inv).mono ?_ fun _ _ kept => kept)
  rintro e' t ⟨rfl, id, found'⟩
  rw [found] at found'
  obtain ⟨rfl, rfl⟩ := Prod.mk.inj (Option.some.inj found')
  have busy : Busy others { job with rid := e.rid } t := ⟨inv, e, found, ne, rfl⟩
  dsimp only
  split
  · exact inv.cons busy.rid rfl
  · exact updateStatus_works.goes busy

theorem filled_heap {t : Journal × List Save} {id : String} {ref : Nat}
    (filled : w.1.Filled id ref) (heap : t.1.heap = w.1.heap) : t.1.Filled id ref := by
  simpa only [Journal.Filled, heap] using filled

theorem save_goes {f : Unit → Section Phase} {id : String} {ref : Nat} (inv : Inv w.1 others)
    (filled : w.1.Filled id ref)
    (next : ∀ t, Inv t.1 others → t.1.Filled id ref → Goes others (f ()) t) :
    Goes others (saveIdempotencyState settings >>= f) w := by
  refine Goes.bind ((save_inv inv).mono ?_ fun _ _ kept => kept.1)
  rintro - t ⟨invT, eq⟩
  exact next t invT (filled_heap filled (by rw [eq]; simp [Journal.write]))

theorem modifyEntry_filled {j : Journal} {id : String} {ref : Nat} {f : Entry → Entry}
    (same : ∀ e, (f e).rid = e.rid) (filled : j.Filled id ref) :
    (j.modifyEntry ref f).Filled id ref := by
  obtain ⟨e, found, ne⟩ := filled
  exact ⟨f e, by simp [Journal.modifyEntry, Heap.read_modify, found], by rwa [same]⟩

theorem recoverWith_goes {submission : Submission} {ref : Nat} {problem : Int} {contest : String}
    (inv : Inv w.1 others) (filled : w.1.Filled submission.submissionId ref) :
    Goes others (recoverWith settings submission ref problem contest) w := by
  let update : Entry → Entry := fun e =>
    { e with problemDocId := some problem, contestDocId := some contest,
             uid := some submission.uid }
  have kept : Inv (w.1.modifyEntry ref update) others := modifyEntry_inv inv fun id e found =>
    ⟨rfl, (inv.objects ref id e found).flags⟩
  have still : (w.1.modifyEntry ref update).Filled submission.submissionId ref :=
    modifyEntry_filled (fun _ => rfl) filled
  refine Goes.bind ?_
  simp only [modifyEntry, modifyJournal, ends_modify]
  exact save_goes kept still fun t invT filledT => completeSubmissionEntry_goes invT filledT

theorem recoverContest_goes {submission : Submission} {ref : Nat} {problem : Int}
    (inv : Inv w.1 others) (filled : w.1.Filled submission.submissionId ref) :
    Goes others (recoverContest settings submission ref problem) w := by
  refine Goes.bind ((readEntry_ends inv).mono ?_ fun _ _ kept => kept)
  rintro e t ⟨rfl, -⟩
  cases e.contestDocId with
  | none => exact inv.cons filled rfl
  | some contest => exact recoverWith_goes inv filled

theorem recover_goes {submission : Submission} {ref : Nat} (inv : Inv w.1 others)
    (filled : w.1.Filled submission.submissionId ref) :
    Goes others (recover settings submission ref) w := by
  refine Goes.bind ((readEntry_ends inv).mono ?_ fun _ _ kept => kept)
  rintro e t ⟨rfl, -⟩
  cases e.problemDocId with
  | none => exact inv.cons filled rfl
  | some problem => exact recoverContest_goes inv filled

theorem reserveAndAdd_goes {submission : Submission} {problem : Problem} {contest : ContestDoc}
    {createdAt : String} (inv : Inv w.1 others)
    (absent : w.1.entries.get? submission.submissionId = none) :
    Goes others (reserveAndAdd settings submission problem contest createdAt) w := by
  obtain ⟨j, saves⟩ := w
  have calm := not_threw_absent inv absent
  have alone := not_adding_absent inv absent
  obtain ⟨invNew, unfilled⟩ := insertEntry_inv inv absent
    (show (submission.reservation problem contest createdAt).rid = "" from rfl) ⟨rfl, rfl⟩
  simp only [Goes, reserveAndAdd, insertEntry, callAdd, readJournal, modifyJournal, ends_bind,
    ends_get, ends_modify, ends_pure]
  refine (save_inv invNew).mono ?_ fun _ _ kept => kept.1
  rintro - t ⟨invT, eq⟩
  -- The reservation survives pruning, and the file now has it.
  have pruned := prune_unfilled (n := settings.maxEntries) invNew unfilled
  have adds : t.1.adds = j.adds := by simp [eq, Journal.write, Journal.insertEntry]
  refine callAdd_inv invT ?_ ?_ ?_ alone
  · rw [eq]
    exact pruned
  · rw [eq]
    exact write_filedUnfilled pruned
  · rwa [adds]

theorem attachRid_goes {submission : Submission} {ref call : Nat} {contest : String}
    {problem : Int} {rid : Rid}
    (inv : Inv w.1 (.adding submission ref call contest problem :: others)) :
    Goes others (attachRid settings submission ref call contest problem rid) w := by
  have pending : w.1.Pending submission.submissionId ref call :=
    inv.threads (.adding submission ref call contest problem) List.mem_cons_self
  have returned : Returned (w.1.endAdd call (.returned rid)).adds submission.submissionId
      rid.text := ⟨_, endAdd_mem_self pending.running, rfl, rid, rfl, rfl⟩
  have calm : ¬ Threw (w.1.endAdd call (.returned rid)).adds submission.submissionId := by
    intro threw
    rcases endAdd_threw_inv pending.running threw with old | ⟨same, -⟩
    · exact pending.calm old
    · cases same
  obtain ⟨invFilled, filled⟩ :=
    fillEntry_inv (endAdd_inv inv) pending.unfilled returned calm inv.only_adder
  refine Goes.bind ?_
  simp only [endAdd, modifyJournal, ends_modify]
  refine Goes.bind ?_
  simp only [modifyEntry, modifyJournal, ends_modify]
  exact save_goes invFilled filled fun t invT filledT =>
    completeSubmissionEntry_goes invT filledT

/- The second reading of the journal met a reserved entry whose record never came back, and
   nobody is working on it. -/
def Journal.landsOnUnfilled (j : Journal) (submission : Submission) : Bool :=
  match j.entryOf submission.submissionId with
  | some e => e.fingerprint == submission.fingerprint && e.rid == "" &&
      (j.inFlight.get? submission.submissionId).isNone
  | none => false

def passes (check : Except Failure Attendance) : Bool :=
  match check with
  | .ok _ => true
  | .error _ => false

theorem setInFlight_goes {phase : Phase} {id : String} {flight : InFlight}
    (inv : Inv w.1 (phase :: others)) :
    Goes others (setInFlight id flight >>= fun _ => pure phase) w := by
  refine Goes.bind ?_
  simp only [setInFlight, modifyJournal, ends_modify]
  exact setInFlight_inv inv

theorem Goes.withFlight {work : Section Phase} {id : String} {flight : InFlight}
    (goes : Goes others work w) :
    Goes others (settleWork work >>= fun phase =>
      setInFlight id flight >>= fun _ => pure phase) w :=
  Goes.bind (goes.settle.mono (fun _ _ inv => setInFlight_goes inv) fun _ _ inv => inv)

theorem entryOf_some {j : Journal} {id : String} {ref : Nat} (inv : Inv j others)
    (entry : j.entries.get? id = some ref) :
    ∃ e, j.entryOf id = some e ∧ j.heap.read ref = some (id, e) := by
  obtain ⟨e, found⟩ := inv.owned id ref entry
  exact ⟨e, by simp [Journal.entryOf, entry, found], found⟩

theorem submitLookedUp_goes {self : Nat} {submission : Submission} {problem : Problem}
    {contest : ContestDoc} {attendance : Option Attendance} {ongoing : Bool} {createdAt : String}
    (inv : Inv w.1 others)
    (safe : passes (checkEligible settings submission problem contest attendance) = true →
      w.1.landsOnUnfilled submission = false) :
    Goes others (submitLookedUp settings self submission problem contest attendance ongoing
      createdAt) w := by
  refine Goes.bind ?_
  cases checked : checkEligible settings submission problem contest attendance with
  | error failure => exact inv
  | ok attended =>
    have lands := safe (by simp [checked, passes])
    simp only [liftCheck, ends_pure]
    refine Goes.bind ?_
    simp only [readJournal, ends_bind, ends_get, ends_pure]
    split
    · exact goes_raise inv
    · rename_i sameEntry
      split
      · exact goes_raise inv
      · split
        · exact goes_pure inv trivial rfl
        · rename_i ref idle entry
          obtain ⟨e, known, found⟩ := entryOf_some inv entry
          have filled : w.1.Filled submission.submissionId ref := by
            refine ⟨e, found, fun empty => ?_⟩
            have same : e.fingerprint = submission.fingerprint := by
              simpa [known, fingerprintDiffers] using sameEntry
            simp [Journal.landsOnUnfilled, known, same, empty, idle] at lands
          exact Goes.withFlight (completeSubmissionEntry_goes inv filled)
        · rename_i absent
          split
          · exact goes_raise inv
          · exact Goes.withFlight (reserveAndAdd_goes inv absent)

theorem submit_goes {self : Nat} {body : SubmitBody} {contestLocked : Bool}
    (inv : Inv w.1 others) : Goes others (submit settings self body contestLocked) w := by
  refine Goes.bind ?_
  cases body.validate settings with
  | error failure => exact inv
  | ok submission =>
    simp only [liftCheck, ends_pure]
    refine Goes.bind ?_
    simp only [readJournal, ends_bind, ends_get, ends_pure]
    split
    · exact goes_raise inv
    · split
      · exact goes_raise inv
      · split
        · exact goes_pure inv trivial rfl
        · rename_i ref idle entry
          obtain ⟨e, -, found⟩ := entryOf_some inv entry
          refine Goes.bind ((readEntry_ends inv).mono ?_ fun _ _ kept => kept)
          rintro e' t ⟨rfl, id, found'⟩
          rw [found] at found'
          obtain ⟨rfl, rfl⟩ := Prod.mk.inj (Option.some.inj found')
          split
          · exact goes_pure inv trivial rfl
          · split
            · exact goes_raise inv
            · rename_i ne
              exact Goes.withFlight (recover_goes inv ⟨e, found, ne⟩)
        · split
          · exact goes_raise inv
          · exact goes_pure inv trivial rfl

/- The step that goes wrong: a POST that looked up before the reservation resumes after the
   record call of that reservation failed. -/
def landsOnUnfilled (settings : Settings) (j : Journal) : Phase → Answer → Bool
  | .lookingUp submission (.attendance problem contest), .attendance attendance _ _ =>
      passes (checkEligible settings submission problem contest attendance) &&
        j.landsOnUnfilled submission
  | _, _ => false

theorem resume_goes {self : Nat} {phase : Phase} {answer : Answer}
    (inv : Inv w.1 (phase :: others)) (safe : landsOnUnfilled settings w.1 phase answer = false) :
    Goes others (resume settings self phase answer) w := by
  have rest := inv.tail
  have holds := inv.threads phase List.mem_cons_self
  unfold resume
  split
  · exact goes_pure rest trivial rfl
  · exact goes_raise rest
  · split
    · exact goes_pure rest trivial rfl
    · exact goes_raise rest
  · refine submitLookedUp_goes rest fun passed => ?_
    simpa [landsOnUnfilled, passed] using safe
  · exact goes_raise rest
  · exact Goes.settle (recoverContest_goes rest holds)
  · exact goes_pure rest trivial rfl
  · exact Goes.settle (recoverWith_goes rest holds)
  · exact goes_pure rest trivial rfl
  · exact Goes.settle (attachRid_goes inv)
  · refine Goes.bind ?_
    simp only [endAdd, modifyJournal, ends_modify]
    exact goes_pure (endAdd_inv inv) trivial rfl
  · exact resumeCompletion_goes ⟨rest, holds⟩
  · exact holds.elim
  · exact holds.elim
  · exact holds.elim
  · exact holds.elim
  · exact inv

end Handlers

structure Plugin.Honest (p : Plugin) : Prop where
  file : p.journal.FileHonest
  live : p.up = true → Inv p.journal (p.requests.map (·.phase))
  down : p.up = false → p.requests = []

theorem installed_honest : (Plugin.installed Dict.empty).Honest where
  file := {
    objects := by intro ref id e found; simp [Plugin.installed, Heap.empty, Heap.read] at found
    filed := by intro id e found; simp [Plugin.installed] at found
    updates := by intro u mem; simp [Plugin.installed] at mem
    failedFiled := by rintro id ⟨call, mem, -⟩; simp [Plugin.installed] at mem }
  live up := by simp [Plugin.installed] at up
  down _ := rfl

theorem drop_honest {j : Journal} (honest : j.FileHonest) : Plugin.Honest ⟨j.drop, false, []⟩ where
  file := ⟨honest.objects, honest.filed, honest.updates, honest.failedFiled⟩
  live up := by simp at up
  down _ := rfl

theorem perform_honest {p : Plugin} {work : Section Phase} {saves : List Save}
    {record : Phase → List Request} {others : List Phase} (up : p.up = true)
    (goes : Goes others work (p.journal, saves))
    (placed : ∀ phase, ((record phase).map (·.phase)).Perm (phase :: others)) :
    (p.perform work saves record).Honest := by
  unfold Goes Ends at goes
  unfold Plugin.perform
  split at goes <;> rename_i outcome
  · simp only [outcome]
    exact ⟨goes.toFileHonest, fun _ => goes.perm (placed _).symm, by simp [up]⟩
  · rename_i fault w
    cases fault with
    | crash =>
      simp only [outcome]
      exact drop_honest goes.toFileHonest
    | raised failure =>
      simp only [outcome]
      have finished : Inv w.1 (.finished (.error failure) :: others) := goes.cons trivial rfl
      exact ⟨goes.toFileHonest, fun _ => finished.perm (placed _).symm, by simp [up]⟩

theorem phases_perm {requests : List Request} {i : Nat} {r : Request}
    (found : requests[i]? = some r) :
    (requests.map (·.phase)).Perm (r.phase :: (requests.map (·.phase)).eraseIdx i) := by
  obtain ⟨bound, eq⟩ := List.getElem?_eq_some_iff.mp found
  have perm := List.getElem_cons_eraseIdx_perm (l := requests.map (·.phase)) (n := i)
    (by simpa using bound)
  simpa [eq] using perm.symm

theorem setPhase_perm {p : Plugin} {i : Nat} {r : Request} (found : p.requests[i]? = some r)
    (phase : Phase) :
    ((p.setPhase i phase).map (·.phase)).Perm
      (phase :: (p.requests.map (·.phase)).eraseIdx i) := by
  obtain ⟨bound, -⟩ := List.getElem?_eq_some_iff.mp found
  have placed : (p.setPhase i phase).map (·.phase) = (p.requests.map (·.phase)).set i phase := by
    refine List.ext_getElem? fun n => ?_
    simp only [Plugin.setPhase, List.getElem?_map, List.getElem?_modify, List.getElem?_set,
      List.length_map]
    by_cases same : i = n
    · subst same
      simp [bound]
    · simp [same]
  rw [placed]
  exact List.set_perm_cons_eraseIdx (by simpa using bound) phase

theorem load_inv {j : Journal} (honest : j.FileHonest) : Inv j.load [] where
  objects := by
    intro ref id e found
    rcases foldl_loadEntry_reads _ _ found with old | new
    · exact honest.objects ref id e old
    · exact honest.filed id e (Dict.get?_some.mpr new)
  filed := honest.filed
  updates := honest.updates
  failedFiled := honest.failedFiled
  owned := by
    intro id ref entry
    obtain ⟨e, found, -⟩ := foldl_loadEntry_owned j.file.items j.file.items (Dict.empty, j.heap)
      (fun _ mem => mem) (by simp) id ref entry
    exact ⟨e, found⟩
  failed := by
    intro id threw
    obtain ⟨e, filed, empty⟩ := honest.failedFiled id threw
    have key : id ∈ j.load.entries.keys := by
      refine ((foldl_loadEntry j.file.items (Dict.empty, j.heap)).1 id).mpr (.inl ?_)
      exact List.mem_map_of_mem (f := Prod.fst) (Dict.get?_some.mp filed)
    obtain ⟨ref, entry⟩ := Dict.mem_keys.mp key
    obtain ⟨e', found, mem⟩ := foldl_loadEntry_owned j.file.items j.file.items
      (Dict.empty, j.heap) (fun _ mem => mem) (by simp) id ref entry
    have same : e' = e := Option.some.inj ((Dict.get?_some.mpr mem).symm.trans filed)
    exact ⟨ref, entry, e', found, same ▸ empty⟩
  threads := by simp
  distinct := List.nodup_nil

theorem restart_honest {settings : Settings} {p : Plugin} (save : Save) (honest : p.Honest) :
    (p.restart settings save).Honest := by
  have loaded : Inv (p.journal.load, [save]).1 [] := load_inv honest.file
  have ends := @save_inv _ settings _ loaded
  unfold Ends at ends
  unfold Plugin.restart
  split at ends <;> rename_i outcome
  · simp only [outcome]
    exact ⟨ends.1.toFileHonest, fun _ => ends.1, by simp⟩
  · simp only [outcome]
    exact drop_honest ends.1.toFileHonest

theorem forget_inv {j : Journal} {phases : List Phase} (inv : Inv j phases) (kind : RequestKind)
    (id : String) : Inv (j.forget kind id) phases := by
  cases kind <;>
    exact { inv with threads := fun phase mem => (inv.threads phase mem).same rfl rfl rfl rfl }

theorem conclude_honest {p : Plugin} (request : Nat) (honest : p.Honest) :
    (p.conclude request).Honest := by
  unfold Plugin.conclude
  split
  · exact honest
  · rename_i r found
    have up : p.up = true := by
      by_contra down
      simp [honest.down (by simpa using down)] at found
    have others := ((honest.live up).perm (phases_perm found)).tail
    split
    · rename_i outcome _
      have concluded := forget_inv others r.kind r.submissionId
      have mine : Phase.Holds (p.journal.forget r.kind r.submissionId) (.finished outcome) := trivial
      refine ⟨concluded.toFileHonest, fun _ => ?_, by simp [up]⟩
      exact (concluded.cons mine rfl).perm (setPhase_perm found _).symm
    · split
      · rename_i outcome _
        have mine : Phase.Holds p.journal (.finished outcome) := trivial
        refine ⟨honest.file, fun _ => ?_, by simp [up]⟩
        exact (others.cons mine rfl).perm (setPhase_perm found _).symm
      · exact honest
    · exact honest

/- No request resumes onto a reservation whose record call is over without a record. -/
def keepsReceipts (settings : Settings) (p : Plugin) : PostEvent → Prop
  | .resume request answer _ => ∀ r, r ∈ p.requests[request]? →
      landsOnUnfilled settings p.journal r.phase answer = false
  | _ => True

instance (settings : Settings) (p : Plugin) (event : PostEvent) :
    Decidable (keepsReceipts settings p event) :=
  match event with
  | .resume .. => inferInstanceAs (Decidable (∀ r, r ∈ _ → _))
  | .arrive .. | .conclude .. | .crash | .restart .. => isTrue trivial

theorem step_honest {settings : Settings} (p : Plugin) (event : PostEvent) (honest : p.Honest)
    (safe : keepsReceipts settings p event) : (p.step settings event).Honest := by
  cases event with
  | arrive body contestLocked saves =>
    simp only [Plugin.step]
    split
    · rename_i up
      refine perform_honest up (submit_goes (honest.live up)) fun phase => ?_
      simp only [List.map_append, List.map_cons, List.map_nil]
      exact List.perm_append_singleton phase (p.requests.map (·.phase))
    · exact honest
  | resume request answer saves =>
    simp only [Plugin.step]
    split
    · exact honest
    · rename_i r found
      have up : p.up = true := by
        by_contra down
        simp [honest.down (by simpa using down)] at found
      exact perform_honest up
        (resume_goes ((honest.live up).perm (phases_perm found)) (safe r found))
        (setPhase_perm found)
  | conclude request => exact conclude_honest request honest
  | crash => exact drop_honest honest.file
  | restart save =>
    simp only [Plugin.step]
    split
    · exact honest
    · exact restart_honest save honest

/-- What the endpoint promises: complete entries and status updates carry a record id that the
    record call of their entry returned; after a failed call the entry stays incomplete, in
    memory and on disk, and a POST of the same payload is refused as ambiguous. -/
structure ReceiptIntegrity (settings : Settings) (p : Plugin) : Prop where
  completed : ∀ ref id e, p.journal.heap.read ref = some (id, e) → e.complete = true →
    e.rid ≠ "" ∧ Returned p.journal.adds id e.rid
  filed : ∀ id e, p.journal.file.get? id = some e → e.complete = true →
    e.rid ≠ "" ∧ Returned p.journal.adds id e.rid
  updated : ∀ u ∈ p.journal.statusUpdates,
    u.rid ≠ "" ∧ Returned p.journal.adds u.submissionId u.rid
  failedFiled : ∀ id, Threw p.journal.adds id →
    ∃ e, p.journal.file.get? id = some e ∧ e.rid = "" ∧ e.complete = false
  failed : p.up = true → ∀ id, Threw p.journal.adds id →
    ∃ e, p.journal.entryOf id = some e ∧ e.rid = "" ∧ e.complete = false ∧
      (p.journal.inFlight.get? id = none →
        ∀ self body contestLocked saves submission, body.validate settings = .ok submission →
          submission.submissionId = id → submission.fingerprint = e.fingerprint →
          submit settings self body contestLocked (p.journal, saves) =
            .error (.raised .submissionAmbiguous) (p.journal, saves))

theorem Returned.nonempty {adds : List AddCall} {id rid : String}
    (returned : Returned adds id rid) : rid ≠ "" := by
  obtain ⟨-, -, -, r, -, text⟩ := returned
  exact text ▸ r.nonempty

theorem Entry.Honest.completed {adds : List AddCall} {id : String} {e : Entry}
    (honest : e.Honest adds id) (complete : e.complete = true) :
    e.rid ≠ "" ∧ Returned adds id e.rid :=
  ⟨honest.flags (.inl complete), honest.returned (honest.flags (.inl complete))⟩

theorem submit_unfilled {settings : Settings} {j : Journal} {self : Nat} {body : SubmitBody}
    {contestLocked : Bool} {saves : List Save} {submission : Submission} {ref : Nat} {e : Entry}
    (valid : body.validate settings = .ok submission)
    (entry : j.entries.get? submission.submissionId = some ref)
    (found : j.heap.read ref = some (submission.submissionId, e))
    (same : submission.fingerprint = e.fingerprint) (incomplete : e.complete = false)
    (empty : e.rid = "") (idle : j.inFlight.get? submission.submissionId = none) :
    submit settings self body contestLocked (j, saves) =
      .error (.raised .submissionAmbiguous) (j, saves) := by
  have known : j.entryOf submission.submissionId = some e := by
    simp [Journal.entryOf, entry, found]
  simp [submit, valid, liftCheck, readJournal, readEntry, known, idle, entry, found,
    fingerprintDiffers, same, incomplete, empty, raise, bind, EStateM.bind, pure, EStateM.pure,
    get, getThe, MonadStateOf.get, EStateM.get, throw, throwThe, MonadExceptOf.throw,
    EStateM.throw]

theorem honest_integrity {settings : Settings} {p : Plugin} (honest : p.Honest) :
    ReceiptIntegrity settings p where
  completed ref id e found := (honest.file.objects ref id e found).completed
  filed id e found := (honest.file.filed id e found).completed
  updated u mem := ⟨(honest.file.updates u mem).nonempty, honest.file.updates u mem⟩
  failedFiled id threw := by
    obtain ⟨e, found, empty⟩ := honest.file.failedFiled id threw
    refine ⟨e, found, empty, ?_⟩
    cases complete : e.complete with
    | false => rfl
    | true => exact absurd empty ((honest.file.filed id e found).flags (.inl complete))
  failed up id threw := by
    have inv := honest.live up
    obtain ⟨ref, unfilled⟩ := inv.failed id threw
    obtain ⟨e, found, empty, incomplete⟩ := unfilled.incomplete inv
    refine ⟨e, by simp [Journal.entryOf, unfilled.1, found], empty, incomplete, ?_⟩
    rintro idle self body contestLocked saves submission valid rfl same
    exact submit_unfilled valid unfilled.1 found same incomplete empty idle

/- A status update, once asked for, stays in the log. -/
theorem update_closed (settings : Settings) (u : StatusUpdate) :
    Closed settings (fun w => u ∈ w.1.statusUpdates) := by
  have save : Keeps (fun w : Journal × List Save => u ∈ w.1.statusUpdates)
      (saveIdempotencyState settings) := by
    have prune : Keeps (fun w : Journal × List Save => u ∈ w.1.statusUpdates)
        (modifyJournal (·.prune settings.maxEntries)) :=
      keeps_modify fun w mem => by simpa using mem
    have write : Keeps (fun w : Journal × List Save => u ∈ w.1.statusUpdates)
        (modifyJournal (·.write)) := keeps_modify fun _ mem => mem
    refine prune.bind fun _ => Keeps.bind (fun _ mem => mem) fun outcome => ?_
    cases outcome with
    | saved => exact write
    | failed written => exact (write.bind fun _ => keeps_raise _).ite (keeps_raise _)
    | crashed written => exact (write.bind fun _ => keeps_throw).ite keeps_throw
  have insert : ∀ id entry, Keeps (fun w : Journal × List Save => u ∈ w.1.statusUpdates)
      (insertEntry id entry) := fun id entry =>
    keeps_readJournal.bind fun _ => Keeps.bind (keeps_modify fun _ mem => mem) fun _ => keeps_pure
  have add : ∀ id entry, Keeps (fun w : Journal × List Save => u ∈ w.1.statusUpdates)
      (callAdd id entry) := fun id entry =>
    keeps_readJournal.bind fun _ => Keeps.bind (keeps_modify fun _ mem => mem) fun _ => keeps_pure
  exact {
    save := save
    modifyEntry := fun _ _ => keeps_modify fun _ mem => mem
    endAdd := fun _ _ => keeps_modify fun _ mem => mem
    callUpdateStatus := fun _ _ => keeps_modify fun _ mem => List.mem_append_left _ mem
    setInFlight := fun _ _ => keeps_modify fun _ mem => mem
    setResolving := fun _ _ => keeps_modify fun _ mem => mem
    reserve := fun w submission problem contest createdAt mem _ =>
      ((insert _ _).bind fun _ => save.bind fun _ => (add _ _).bind fun _ => keeps_pure) w mem }

theorem perform_keeps_update {p : Plugin} {work : Section Phase} {saves : List Save}
    {record : Phase → List Request} {u : StatusUpdate}
    (kept : Keeps (fun w : Journal × List Save => u ∈ w.1.statusUpdates) work)
    (mem : u ∈ p.journal.statusUpdates) :
    u ∈ (p.perform work saves record).journal.statusUpdates := by
  have ends := kept (p.journal, saves) mem
  unfold Ends at ends
  unfold Plugin.perform
  split at ends <;> rename_i outcome
  · simpa only [outcome] using ends
  · rename_i fault _
    cases fault with
    | crash => simpa only [outcome, Journal.drop] using ends
    | raised failure => simpa only [outcome] using ends

theorem step_keeps_update {settings : Settings} {u : StatusUpdate} (p : Plugin)
    (event : PostEvent) (mem : u ∈ p.journal.statusUpdates) :
    u ∈ (p.step settings event).journal.statusUpdates := by
  have closed := update_closed settings u
  cases event with
  | arrive body contestLocked saves =>
    simp only [Plugin.step]
    split
    · exact perform_keeps_update (keeps_submit closed _ body contestLocked) mem
    · exact mem
  | resume request answer saves =>
    simp only [Plugin.step]
    split
    · exact mem
    · exact perform_keeps_update (keeps_resume closed _ _ _) mem
  | conclude request =>
    simp only [Plugin.step, Plugin.conclude]
    split
    · exact mem
    · split
      · rename_i r _ _ _ _
        cases r.kind <;> exact mem
      · split <;> exact mem
      · exact mem
  | crash => exact mem
  | restart save =>
    simp only [Plugin.step]
    split
    · exact mem
    · have ends := closed.save (p.journal.load, [save]) mem
      unfold Ends at ends
      unfold Plugin.restart
      split at ends <;> rename_i outcome <;> simpa only [outcome, Journal.drop] using ends

/- The excluded step does what the endpoint must not do: it reports an empty record id. -/
theorem submitLookedUp_unfilled {settings : Settings} {w : Journal × List Save} {self : Nat}
    {submission : Submission} {problem : Problem} {contest : ContestDoc}
    {attendance : Option Attendance} {ongoing : Bool} {createdAt : String} {others : List Phase}
    (inv : Inv w.1 others)
    (passed : passes (checkEligible settings submission problem contest attendance) = true)
    (lands : w.1.landsOnUnfilled submission = true) :
    Ends (submitLookedUp settings self submission problem contest attendance ongoing createdAt) w
      (fun _ t => ⟨submission.submissionId, ""⟩ ∈ t.1.statusUpdates) (fun _ _ => False) := by
  cases checked : checkEligible settings submission problem contest attendance with
  | error failure => simp [checked, passes] at passed
  | ok attended =>
    cases entry : w.1.entries.get? submission.submissionId with
    | none => simp [Journal.landsOnUnfilled, Journal.entryOf, entry] at lands
    | some ref =>
      obtain ⟨e, known, found⟩ := entryOf_some inv entry
      simp only [Journal.landsOnUnfilled, known, Bool.and_eq_true, beq_iff_eq,
        Option.isNone_iff_eq_none] at lands
      obtain ⟨⟨same, empty⟩, idle⟩ := lands
      have early : e.statusUpdated = false := by
        cases updated : e.statusUpdated with
        | false => rfl
        | true => exact absurd empty ((inv.objects ref _ e found).flags (.inr updated))
      simp [submitLookedUp, checked, liftCheck, readJournal, known, idle, entry, fingerprintDiffers,
        same, settleWork, completeSubmissionEntry, readEntry, Submission.job, found, early,
        updateStatus, callUpdateStatus, modifyJournal, setInFlight, Journal.callUpdateStatus, empty]

theorem unsafe_step_updates {settings : Settings} {p : Plugin} {event : PostEvent}
    (honest : p.Honest) (bad : ¬ keepsReceipts settings p event) :
    ∃ u ∈ (p.step settings event).journal.statusUpdates, u.rid = "" := by
  cases event with
  | resume request answer saves =>
    simp only [keepsReceipts, not_forall, Bool.not_eq_false, Option.mem_def] at bad
    obtain ⟨r, found, lands⟩ := bad
    have up : p.up = true := by
      by_contra down
      simp [honest.down (by simpa using down)] at found
    cases phase : r.phase with
    | lookingUp submission stage =>
      cases stage with
      | attendance problem contest =>
        cases answer with
        | attendance attendance ongoing createdAt =>
          simp only [phase, landsOnUnfilled, Bool.and_eq_true] at lands
          have ends := @submitLookedUp_unfilled settings (p.journal, saves) request submission
            problem contest attendance ongoing createdAt _ (honest.live up) lands.1 lands.2
          unfold Ends at ends
          refine ⟨⟨submission.submissionId, ""⟩, ?_, rfl⟩
          simp only [Plugin.step, found, Plugin.perform, phase, resume]
          split at ends
          · rename_i outcome
            simpa only [outcome] using ends
          · exact ends.elim
        | _ => simp [phase, landsOnUnfilled] at lands
      | _ => simp [phase, landsOnUnfilled] at lands
    | _ => simp [phase, landsOnUnfilled] at lands
  | _ => exact absurd trivial bad

theorem run_keeps_update {settings : Settings} {u : StatusUpdate} {p : Plugin}
    (events : List PostEvent) (mem : u ∈ p.journal.statusUpdates) :
    u ∈ (Runs.run (Plugin.step settings) p events).journal.statusUpdates :=
  Runs.run_invariant (fun p => u ∈ p.journal.statusUpdates)
    (fun p event held => step_keeps_update p event held) mem events

theorem guarded_or_empty_update {settings : Settings} (events : List PostEvent) :
    ∀ p : Plugin, p.Honest →
      Runs.Guarded (Plugin.step settings) (keepsReceipts settings) p events ∨
        ∃ u ∈ (Runs.run (Plugin.step settings) p events).journal.statusUpdates, u.rid = "" := by
  induction events with
  | nil => exact fun _ _ => .inl trivial
  | cons event rest ih =>
    intro p honest
    by_cases safe : keepsReceipts settings p event
    · rcases ih _ (step_honest p event honest safe) with guarded | found
      · exact .inl ⟨safe, guarded⟩
      · exact .inr found
    · obtain ⟨u, mem, empty⟩ := unsafe_step_updates honest safe
      exact .inr ⟨u, run_keeps_update rest mem, empty⟩

/-- Over every interleaving the endpoint keeps its promise exactly when no POST that looked up
    before a reservation resumes after the record call of that reservation failed. -/
theorem receipts_intact_iff (settings : Settings) (events : List PostEvent) :
    ReceiptIntegrity settings
        (Runs.run (Plugin.step settings) (Plugin.installed Dict.empty) events) ↔
      Runs.Guarded (Plugin.step settings) (keepsReceipts settings)
        (Plugin.installed Dict.empty) events := by
  constructor
  · intro intact
    rcases guarded_or_empty_update events _ installed_honest with guarded | ⟨u, mem, empty⟩
    · exact guarded
    · exact absurd empty (intact.updated u mem).1
  · intro guarded
    exact honest_integrity
      (Runs.guarded_run_invariant Plugin.Honest step_honest installed_honest guarded)

/- Two POSTs of one submission: the second is still looking up when the record call of the
   first fails, and then finds its reservation. -/
def overtakenRun : List PostEvent :=
  ([startPlugin, .arrive sampleBody false [], .arrive sampleBody false []] : List PostEvent) ++
    lookUp 0 ++ ([.resume 0 .failed [], .conclude 0] : List PostEvent) ++ lookUp 1 ++
    ([.resume 1 .done [], .resume 1 .done [], .resume 1 .done []] : List PostEvent)

theorem overtaken_post_completes_without_record :
    ¬ ∀ settings events, ReceiptIntegrity settings
      (Runs.run (Plugin.step settings) (Plugin.installed Dict.empty) events) := by
  intro intact
  have completed := (intact sampleSettings overtakenRun).completed 0
  have entry : (((Runs.run (Plugin.step sampleSettings) (Plugin.installed Dict.empty)
      overtakenRun).journal.heap.read 0).map fun object => (object.2.complete, object.2.rid)) =
        some (true, "") := by
    delta Plugin.step resume resumeFinding submit SubmitBody.validate recordMatchesSubmissionEntry
    rw [payloadFingerprint_knowing]
    decide +kernel
  obtain ⟨⟨id, e⟩, found, eq⟩ := Option.map_eq_some_iff.mp entry
  obtain ⟨complete, empty⟩ := Prod.mk.inj eq
  exact (completed id e found complete).1 empty

end NoiContest.HydroPlugin
