import NoiContest.InstallTransaction.WholeRuns

/- Final receipts stay where they are, and a later run returns them as long as no call failed
   between the receipt of a rollback and the end of the run that wrote it. -/
namespace NoiContest.InstallTransaction
open Flow Outcome

/- Final receipts stay -/

section Stays
variable {status : Status} {planId : String} {content : Content} {ε α β : Type}

def Stays (status : Status) (planId : String) (content : Content) (disk : Disk) : Prop :=
  disk.files (.final status planId) = some content

/-- No call of the program touches the receipt. -/
def Harmless (status : Status) (planId : String) (content : Content)
    (x : Program Call Answer Raised ε α) : Prop :=
  ∀ disk, Stays status planId content disk →
    Ends (checking respond (fun _ _ _ => True) fun c choice disk =>
      Stays status planId content (respond c choice disk).2) x disk
      (fun _ disk => Stays status planId content disk)
      (fun _ disk => Stays status planId content disk)

theorem harmless_bind {x : Program Call Answer Raised ε α} {f : α → Program Call Answer Raised ε β}
    (first : Harmless status planId content x) (then_ : ∀ a, Harmless status planId content (f a)) :
    Harmless status planId content (x >>= f) := fun disk stays =>
  Ends.bind checking_monotone (first disk stays) (fun a disk stays => then_ a disk stays)
    fun _ _ stays => stays

theorem harmless_ite {c : Prop} [Decidable c] {x y : Program Call Answer Raised ε α}
    (holds : Harmless status planId content x) (fails : Harmless status planId content y) :
    Harmless status planId content (if c then x else y) := by
  split
  · exact holds
  · exact fails

theorem harmless_pure (a : α) :
    Harmless status planId content (pure a : Program Call Answer Raised ε α) :=
  fun _ stays => stays

theorem harmless_checked (result : Except Raised α) :
    Harmless status planId content (checked result) := by
  intro disk stays
  cases result <;> exact stays

theorem harmless_orElse {ε' : Type} {x : Program Call Answer Raised ε α}
    {handle : ε → Program Call Answer Raised ε' α} (body : Harmless status planId content x)
    (handler : ∀ e, Harmless status planId content (handle e)) :
    Harmless status planId content (x.orElse handle) := by
  intro disk stays
  rw [ends_orElse]
  exact (body disk stays).mono checking_monotone (fun _ _ stays => stays)
    fun e disk stays => handler e disk stays

theorem harmless_attempt {ε' : Type} {x : Program Call Answer Raised ε α}
    (body : Harmless status planId content x) :
    Harmless status planId content (x.attempt : Program Call Answer Raised ε' (Except ε α)) := by
  intro disk stays
  rw [ends_attempt]
  exact body disk stays

theorem harmless_holding {journal : Journal} {x : Procedure α}
    (body : Harmless status planId content x) :
    Harmless status planId content (holding journal x) := by
  intro disk stays
  rw [holding, ends_mapError]
  exact body disk stays

/-- Everything but a write to the receipt. -/
def Call.spares (status : Status) (planId : String) : Call → Prop
  | .write file _ | .unlink file => file ≠ .final status planId
  | _ => True

theorem effect_stays (choice : Choice) {before after : Disk}
    (old : Stays status planId content before) (new : Stays status planId content after) :
    Stays status planId content (choice.effect before after) := by
  unfold Choice.effect
  split
  · exact new
  · exact old

theorem put_stays {file : File} (apart : file ≠ .final status planId) {disk : Disk}
    (content' : Option Content) (stays : Stays status planId content disk) :
    Stays status planId content (disk.put file content') := by
  simpa [Stays, Disk.put, apart.symm] using stays

theorem spared_stays {c : Call} (spares : c.spares status planId) (choice : Choice) (disk : Disk)
    (stays : Stays status planId content disk) :
    Stays status planId content (respond c choice disk).2 := by
  cases c with
  | write file content' =>
    refine effect_stays choice stays (put_stays spares _ ?_)
    cases content' <;> exact stays
  | unlink file => exact effect_stays choice stays (put_stays spares _ stays)
  | _ => exact stays

theorem harmless_call (c : Call) (spares : c.spares status planId) :
    Harmless status planId content (call c) := by
  intro disk stays choice _
  have still := spared_stays spares choice disk stays
  refine ⟨still, ?_⟩
  generalize (respond c choice disk).1 = answer
  cases answer <;> exact still

theorem harmless_finalize (context : Context) (journal : Journal) (own : Status) :
    Harmless status planId content (finalize context journal own) := by
  unfold finalize
  refine harmless_bind (harmless_call _ (by simp [Call.spares])) fun _ disk stays => ?_
  rw [ends_bind]
  refine fun choice _ => ⟨stays, ?_⟩
  have rest : Harmless status planId content (do
      if ← lexists .pending then call (.unlink .pending) else pure ()
      return { journal with status := own }) :=
    harmless_bind (harmless_call _ trivial) fun _ => harmless_ite
      (harmless_bind (harmless_call _ (by simp [Call.spares])) fun _ => harmless_pure _)
      (harmless_pure _)
  -- the receipt is written only where there is none
  refine ends_ite.mpr ⟨fun _ => ?_, fun missing => ?_⟩
  · exact harmless_bind (harmless_call (.read (.final own context.planId)) trivial)
      (fun _ => harmless_bind (harmless_checked _) fun _ => rest) disk stays
  · have apart : File.final own context.planId ≠ .final status planId := by
      intro same
      rw [same, show disk.files (.final status planId) = some content from stays] at missing
      exact missing rfl
    exact harmless_bind (harmless_call (.write (.final own context.planId) _) apart)
      (fun _ => rest) disk stays

theorem harmless_finalReceipt (setup : Setup) (context : Context) (own : Status) :
    Harmless status planId content (finalReceipt setup context own) :=
  harmless_bind (harmless_call _ trivial) fun _ => harmless_ite
    (harmless_bind (harmless_call _ trivial) fun _ => harmless_bind (harmless_checked _) fun _ =>
      harmless_bind (harmless_checked _) fun _ => harmless_pure _)
    (harmless_pure _)

theorem harmless_existingFinal (setup : Setup) (context : Context) :
    Harmless status planId content (existingFinal setup context) := by
  refine harmless_bind (harmless_finalReceipt setup context _) fun committed =>
    harmless_bind (harmless_finalReceipt setup context _) fun rolledBack => ?_
  cases committed with
  | none => exact harmless_pure _
  | some row =>
    cases rolledBack with
    | none => exact harmless_pure _
    | some _ => exact harmless_checked _

theorem harmless_verifyAndCleanupRollback (setup : Setup) (context : Context) :
    Harmless status planId content (verifyAndCleanupRollback setup context) :=
  harmless_bind
    (harmless_bind (harmless_call _ trivial) fun _ => harmless_ite
      (harmless_bind (harmless_call _ trivial) fun _ => harmless_checked _)
      (harmless_bind (harmless_call _ trivial) fun _ => harmless_bind (harmless_checked _)
        fun _ => harmless_call _ (by simp [Call.spares])))
    fun _ => harmless_ite
      (harmless_bind (harmless_call _ trivial) fun _ => harmless_ite
        (harmless_bind (harmless_call _ trivial) fun _ => harmless_checked _)
        (harmless_bind (harmless_call _ trivial) fun _ => harmless_bind (harmless_checked _)
          fun _ => harmless_call _ (by simp [Call.spares])))
      (harmless_pure _)

theorem harmless_cleanupPhases (setup : Setup) (context : Context) (journal : Journal)
    (phases : List Phase) :
    Harmless status planId content (cleanupPhases setup context journal phases) := by
  induction phases with
  | nil => exact harmless_pure _
  | cons phase rest ih =>
    exact harmless_ite
      (harmless_bind (harmless_call _ trivial) fun _ => harmless_bind (harmless_checked _)
        fun _ => ih)
      ih

theorem harmless_commitCleanup (setup : Setup) (context : Context) (journal : Journal) :
    Harmless status planId content (commitCleanup setup context journal) :=
  harmless_bind (harmless_call _ trivial) fun _ => harmless_ite
    (harmless_bind (harmless_call _ trivial) fun _ => harmless_checked _)
    (harmless_bind (harmless_cleanupPhases setup context journal setup.phases) fun _ =>
      harmless_call _ (by simp [Call.spares]))

theorem harmless_writePending (row : Journal) :
    Harmless status planId content (atomicJson .pending (.journal row)) :=
  harmless_call _ (by simp [Call.spares])

theorem harmless_applyPhases (setup : Setup) (context : Context) (phases : List Phase)
    (journal : Journal) :
    Harmless status planId content (applyPhases setup context phases journal) := by
  induction phases generalizing journal with
  | nil => exact harmless_pure _
  | cons phase rest ih =>
    exact harmless_bind (harmless_holding (harmless_writePending _)) fun _ =>
      harmless_bind (harmless_holding (harmless_call _ trivial)) fun _ =>
      harmless_bind (harmless_holding (harmless_checked _)) fun _ =>
      harmless_bind (harmless_holding (harmless_writePending _)) fun _ =>
      harmless_ite
        (harmless_bind (harmless_holding (harmless_call _ trivial)) fun _ => ih _)
        (ih _)

theorem harmless_rollbackPhases (context : Context) (already phases : List Phase)
    (journal : Journal) :
    Harmless status planId content (rollbackPhases context already phases journal) := by
  induction phases generalizing journal with
  | nil => exact harmless_pure _
  | cons phase rest ih =>
    unfold rollbackPhases
    exact harmless_ite (ih _)
      (harmless_bind (harmless_holding (harmless_call _ trivial)) fun _ =>
        harmless_bind (harmless_holding (harmless_checked _)) fun _ =>
        harmless_bind (harmless_holding (harmless_writePending _)) fun _ => ih _)

theorem harmless_rollBack (setup : Setup) (context : Context) (journal : Journal) :
    Harmless status planId content (rollBack setup context journal) :=
  harmless_orElse
    (harmless_bind (harmless_rollbackPhases context _ _ _) fun _ =>
      harmless_bind (harmless_holding (harmless_verifyAndCleanupRollback setup context)) fun _ =>
      harmless_holding (harmless_finalize context _ _))
    fun _ => harmless_bind (harmless_call _ trivial) fun _ =>
      harmless_bind (harmless_writePending _) fun _ => harmless_checked _

theorem harmless_recorded (setup : Setup) (context : Context) (final : Journal) :
    Harmless status planId content (recorded setup context final) := by
  have rest : Harmless status planId content (do
      if final.status = .committed then commitCleanup setup context final else Pure.pure ()
      return final) :=
    harmless_ite (harmless_bind (harmless_commitCleanup setup context final) fun _ =>
      harmless_pure _) (harmless_pure _)
  exact harmless_bind (harmless_call _ trivial) fun _ => harmless_ite
    (harmless_bind (harmless_call _ trivial) fun _ => harmless_bind (harmless_checked _) fun _ =>
      harmless_bind (harmless_checked _) fun _ =>
      harmless_bind (harmless_call _ (by simp [Call.spares])) fun _ => rest)
    rest

theorem harmless_resume (setup : Setup) (context : Context) :
    Harmless status planId content (resume setup context) := by
  refine harmless_bind (harmless_call _ trivial) fun _ => harmless_bind (harmless_checked _)
    fun journal => ?_
  cases journal.status with
  | committed => exact harmless_finalize context journal _
  | rollbackVerified => exact harmless_finalize context journal _
  | manualIntervention => exact harmless_checked _
  | applying =>
    exact harmless_bind (harmless_writePending _) fun _ => harmless_rollBack setup context _
  | rollingBack => exact harmless_rollBack setup context journal

theorem harmless_startFresh (setup : Setup) (context : Context) :
    Harmless status planId content (startFresh setup context) := by
  refine harmless_bind (harmless_checked _) fun journal =>
    harmless_bind (harmless_writePending _) fun _ =>
    harmless_bind (harmless_attempt (harmless_applyPhases setup context _ journal))
      fun outcome => ?_
  cases outcome with
  | ok journal =>
    exact harmless_bind (harmless_finalize context journal _) fun _ =>
      harmless_bind (harmless_commitCleanup setup context _) fun _ => harmless_pure _
  | error failed =>
    exact harmless_bind (harmless_writePending _) fun _ => harmless_rollBack setup context _

theorem harmless_runLocked (setup : Setup) (context : Context) :
    Harmless status planId content (runLocked setup context) := by
  refine harmless_bind (harmless_existingFinal setup context) fun final => ?_
  cases final with
  | some row => exact harmless_recorded setup context row
  | none =>
    exact harmless_bind (harmless_call _ trivial) fun _ => harmless_ite
      (harmless_resume setup context) (harmless_startFresh setup context)

theorem afterRun_stays (setup : Setup) (disk : Disk) (run : Run)
    (stays : Stays status planId content disk) :
    Stays status planId content (afterRun setup disk run) := by
  have began : Stays status planId content (disk.begin run.context) := stays
  exact (cut_of_ends (Stays status planId content) run.calls began (harmless_runLocked setup run.context _ began)
    (obeysFor_of_all (fun _ _ _ => trivial) _ _ _ _)).1

end Stays

/- A later run -/

/-- The files can be read and written, and a driver cleans up as it should. -/
def Works (c : Call) (choice : Choice) (_ : Disk) : Prop :=
  choice.raises = none ∧ match c with
    | .commitCleanup _ phase _ => choice.cleanupReply = some (cleanupReplyOf phase)
    | _ => True

instance (c : Call) (choice : Choice) (disk : Disk) : Decidable (Works c choice disk) := by
  unfold Works
  cases c <;> infer_instance

section Working
variable {regime : Regime} {context : Context} {disk : Disk} {row : Journal} {α : Type}
  {post : α → Disk → Prop} {raised : Raised → Disk → Prop}

abbrev working : Transformer Call Answer Raised Disk := demonic respond Works

theorem working_lexists {file : File} {post : Bool → Disk → Prop}
    (next : post (disk.files file).isSome disk) :
    Ends working (lexists file) disk post raised := fun _ _ => next

theorem working_read {file : File} {content : Content} {post : Content → Disk → Prop}
    (stored : disk.files file = some content) (next : post content disk) :
    Ends working (readExact file) disk post raised := by
  intro choice works
  simp only [respond, stored, Choice.answer, works.1]
  exact next

theorem working_write {file : File} {content : Content} {post : Unit → Disk → Prop}
    (next : post () (disk.write file content)) :
    Ends working (atomicJson file content) disk post raised := by
  intro choice works
  simp only [respond, Choice.answer, Choice.effect, works.1]
  exact next

theorem working_unlink {file : File} {post : Unit → Disk → Prop}
    (next : post () (disk.put file none)) :
    Ends working (call (.unlink file)) disk post raised := by
  intro choice works
  simp only [respond, Choice.answer, Choice.effect, works.1]
  exact next

theorem working_cleanupCall {phase : Phase} {given : Option Receipt}
    {post : Option CleanupReply → Disk → Prop}
    (next : post (some (cleanupReplyOf phase))
      (disk.record (.cleaned context phase (.ok (some (cleanupReplyOf phase)))))) :
    Ends working (call (.commitCleanup context phase given)) disk post raised := by
  intro choice works
  simp only [respond, Choice.answer, works.1, works.2]
  exact next

theorem working_checked {result : Except Raised α} {a : α} (ok : result = .ok a)
    (next : post a disk) : Ends working (checked result) disk post raised := by
  rw [ok]
  exact next

theorem working_passes {bad : Prop} [Decidable bad] {error : Raised} {post : Unit → Disk → Prop}
    (fine : ¬ bad) (next : post () disk) :
    Ends working (checked (raiseIf bad error)) disk post raised :=
  working_checked (raiseIf_ok.mpr fine) next

theorem working_cleanupPhases {setup : Setup} (phases : List Phase) :
    Ends working (cleanupPhases setup context row phases) disk (fun _ _ => True)
      (fun _ _ => False) := by
  induction phases generalizing disk with
  | nil => trivial
  | cons phase rest ih =>
    rw [cleanupPhases, ends_ite]
    refine ⟨fun _ => ?_, fun _ => ih⟩
    rw [ends_bind]
    refine working_cleanupCall ?_
    rw [ends_bind]
    exact working_passes (not_not_intro rfl) ih

/- The receipt of the cleanup, if there is one, repeats the final receipt. -/
theorem working_commitCleanup {setup : Setup}
    (agreed : ∀ content, disk.files (.cleanup context.planId) = some content →
      content = cleanupOf setup context) :
    Ends working (commitCleanup setup context row) disk (fun _ _ => True)
      (fun _ _ => False) := by
  unfold commitCleanup
  rw [ends_bind]
  refine working_lexists ?_
  rw [ends_ite]
  constructor
  · intro there
    obtain ⟨content, stored⟩ := Option.isSome_iff_exists.mp there
    have same := agreed content stored
    rw [ends_bind]
    refine working_read stored ?_
    exact working_passes (not_not_intro same) trivial
  · intro _
    rw [ends_bind]
    exact (working_cleanupPhases setup.phases).mono demonic_monotone
      (fun _ _ _ => working_write trivial) fun _ _ never => never

theorem validated {setup : Setup} (valid : Valid setup row) (identity : row.context = context) :
    validateJournal setup context (.journal row) = .ok row := by
  subst identity
  exact validateJournal_ok.mpr ⟨rfl, rfl, rfl, valid⟩

/- What the invariant says about a final receipt, when no failure came after it. -/
theorem Recorded.settled (found : Recorded context disk row) (consistent : Consistent regime disk)
    (strict : ¬ regime.loose context.planId) : Valid regime.setup row ∧
      (∀ status, status = .committed ∨ status = .rollbackVerified → status ≠ row.status →
        disk.files (.final status context.planId) = none) ∧
      (∀ pending, (disk.plan context.planId).pending = some pending → pending = row) := by
  have tracked := consistent.tracked context.planId
  obtain ⟨final, stored, _⟩ := found
  rcases final with status | status <;> rw [status] at stored ⊢
  · obtain ⟨unrolled, own, same, _, follows, compatible⟩ := tracked.committed _ stored
    cases same
    refine ⟨follows.valid, fun other final apart => ?_, compatible⟩
    rw [final.resolve_left apart]
    exact unrolled
  · obtain ⟨own, same, _, follows, compatible⟩ := tracked.rolledBack _ stored
    cases same
    refine ⟨follows.valid, fun other final apart => ?_, fun pending is_pending =>
      (compatible pending is_pending).resolve_right fun later => strict later.2⟩
    rw [final.resolve_right apart]
    cases uncommitted : disk.files (.final .committed context.planId) with
    | none => rfl
    | some content =>
      have unrolled := (tracked.committed content uncommitted).1
      exact absurd (stored.symm.trans unrolled) (Option.some_ne_none _)

theorem working_finalReceipt {setup : Setup} {post : Option Journal → Disk → Prop}
    (valid : Valid setup row) (identity : row.context = context)
    (stored : disk.files (.final row.status context.planId) = some (.journal row))
    (next : post (some row) disk) :
    Ends working (finalReceipt setup context row.status) disk post raised := by
  unfold finalReceipt
  rw [ends_bind]
  refine working_lexists ?_
  rw [stored, Option.isSome_some, if_pos rfl, ends_bind]
  refine working_read stored ?_
  rw [ends_bind]
  refine working_checked (validated valid identity) ?_
  rw [ends_bind]
  exact working_passes (not_not_intro rfl) next

theorem working_noReceipt {setup : Setup} {status : Status} {post : Option Journal → Disk → Prop}
    (absent : disk.files (.final status context.planId) = none) (next : post none disk) :
    Ends working (finalReceipt setup context status) disk post raised := by
  unfold finalReceipt
  rw [ends_bind]
  refine working_lexists ?_
  rw [absent]
  exact next

theorem working_recorded (found : Recorded context disk row) (consistent : Consistent regime disk)
    (strict : ¬ regime.loose context.planId) (unoccupied : Owned context.planId disk) :
    Ends working (recorded regime.setup context row) disk (fun j _ => j = row)
      (fun _ _ => False) := by
  obtain ⟨valid, _, compatible⟩ := found.settled consistent strict
  have cleaning : ∀ d, d.files (.cleanup context.planId) = disk.files (.cleanup context.planId) →
      Ends working (do
        if row.status = .committed then commitCleanup regime.setup context row else pure ()
        return row) d (fun j _ => j = row) (fun _ _ => False) := by
    intro d same
    rw [ends_ite]
    refine ⟨fun committed => ?_, fun _ => rfl⟩
    rw [ends_bind]
    refine (working_commitCleanup fun content cleaned => ?_).mono demonic_monotone
      (fun _ _ _ => rfl) fun _ _ never => never
    rw [same] at cleaned
    obtain ⟨⟨own, final, eq⟩, _⟩ := (consistent.tracked context.planId).cleanup content cleaned
    have stored := found.stored
    rw [committed] at stored
    have final : disk.files (.final .committed context.planId) = some (.journal own) := final
    rw [stored] at final
    cases final
    rw [eq, found.identity]
  unfold recorded
  rw [ends_bind]
  refine working_lexists ?_
  rw [ends_ite]
  constructor
  · intro there
    obtain ⟨content, stored⟩ := Option.isSome_iff_exists.mp there
    obtain ⟨pending, rfl⟩ := consistent.kind content stored
    have same : pending = row := compatible pending (by
      simp [Disk.plan, stored, pendingOf, unoccupied pending stored])
    subst same
    rw [ends_bind]
    refine working_read stored ?_
    rw [ends_bind]
    refine working_checked (validated valid found.identity) ?_
    rw [ends_bind]
    refine working_passes (not_not_intro rfl) ?_
    rw [ends_bind]
    exact working_unlink (cleaning _ (by simp [Disk.put]))
  · intro _
    exact cleaning disk rfl

theorem working_runLocked (found : Recorded context disk row)
    (consistent : Consistent regime disk) (strict : ¬ regime.loose context.planId)
    (unoccupied : Owned context.planId disk) :
    Ends working (runLocked regime.setup context) disk (fun j _ => j = row)
      (fun _ _ => False) := by
  obtain ⟨valid, others, _⟩ := found.settled consistent strict
  have existing : Ends working (existingFinal regime.setup context) disk
      (fun final d => final = some row ∧ d = disk) (fun _ _ => False) := by
    have stored := found.stored
    unfold existingFinal
    rw [ends_bind]
    rcases found.final with status | status
    · rw [← status]
      refine working_finalReceipt valid found.identity stored ?_
      rw [ends_bind]
      exact working_noReceipt (others _ (.inr rfl) (by simp [status])) ⟨rfl, rfl⟩
    · refine working_noReceipt (others _ (.inl rfl) (by simp [status])) ?_
      rw [ends_bind, ← status]
      exact working_finalReceipt valid found.identity stored ⟨rfl, rfl⟩
  unfold runLocked
  rw [ends_bind]
  refine existing.mono demonic_monotone (fun final d held => ?_) fun _ _ never => never
  obtain ⟨rfl, rfl⟩ := held
  exact working_recorded found consistent strict unoccupied

end Working

/- Histories -/

/-- In a run that may roll the plan back, no call fails once the receipt of the rollback is
    there. -/
def QuietRun (setup : Setup) (planId : String) (disk : Disk) (run : Run) : Prop :=
  run.context.planId = planId → Unreceipted run.context disk → ¬ RollbackSealed disk →
    (runLocked setup run.context).ObeysFor respond (QuietSeal run.context) run.calls run.choices
      (disk.begin run.context)

instance (context : Context) (disk : Disk) : Decidable (Unreceipted context disk) :=
  inferInstanceAs (Decidable ((disk.plan context.planId).rolledBack = none))

instance (disk : Disk) : Decidable (RollbackSealed disk) := by
  unfold RollbackSealed
  infer_instance

instance (context : Context) (c : Call) (choice : Choice) (disk : Disk) :
    Decidable (QuietSeal context c choice disk) :=
  inferInstanceAs (Decidable ((respond c choice disk).1.isOk = true ∨
    Unreceipted context (respond c choice disk).2))

instance (setup : Setup) (planId : String) (disk : Disk) (run : Run) :
    Decidable (QuietRun setup planId disk run) :=
  inferInstanceAs (Decidable (run.context.planId = planId → Unreceipted run.context disk →
    ¬ RollbackSealed disk → (runLocked setup run.context).ObeysFor respond
      (QuietSeal run.context) run.calls run.choices (disk.begin run.context)))

theorem quiet_history_consistent (setup : Setup) (planId : String) (history : List Run)
    (quiet : Runs.Guarded (afterRun setup) (QuietRun setup planId) Disk.empty history) :
    Consistent ⟨setup, (· ≠ planId)⟩ (Runs.run (afterRun setup) Disk.empty history) := by
  refine Runs.guarded_run_invariant (Consistent ⟨setup, (· ≠ planId)⟩)
    (fun disk run consistent quiet => ?_) (consistent_empty _) quiet
  by_cases tolerant : run.context.planId ≠ planId ∨ ¬ Unreceipted run.context disk ∨
      RollbackSealed disk
  · refine (afterRun_ends run consistent (fun unreceipted unsettled _ => ?_)
      (obeysFor_of_all (fun _ _ _ => Or.inl True.intro) _ _ _ _)).1
    exact tolerant.resolve_right fun later =>
      later.elim (fun receipted => receipted unreceipted) unsettled
  · rw [not_or, not_or, not_not, not_not] at tolerant
    obtain ⟨own, unreceipted, unsettled⟩ := tolerant
    exact (afterRun_ends run consistent (fun _ _ never => False.elim never)
      ((quiet own unreceipted unsettled).mono fun _ _ _ held => Or.inr held)).1

theorem terminal_receipt_returned (setup : Setup) (earlier later : List Run) (row : Journal)
    (final : row.status = .committed ∨ row.status = .rollbackVerified)
    (stored : (Runs.run (afterRun setup) Disk.empty earlier).files
      (.final row.status row.planId) = some (.journal row))
    (quiet : Runs.Guarded (afterRun setup) (QuietRun setup row.planId) Disk.empty
      (earlier ++ later))
    (unoccupied : Owned row.planId (Runs.run (afterRun setup) Disk.empty (earlier ++ later)))
    (choices : Nat → Choice)
    (works : (runLocked setup row.context).Obeys respond Works choices
      ((Runs.run (afterRun setup) Disk.empty (earlier ++ later)).begin row.context)) :
    ((runLocked setup row.context).exec respond choices
      ((Runs.run (afterRun setup) Disk.empty (earlier ++ later)).begin row.context)).1 =
        .ok row := by
  have consistent := quiet_history_consistent setup row.planId _ quiet
  have stays : Stays row.status row.planId (.journal row)
      (Runs.run (afterRun setup) Disk.empty (earlier ++ later)) := by
    rw [Runs.run_append]
    exact Runs.run_invariant (Stays row.status row.planId (.journal row))
      (fun disk run stays => afterRun_stays setup disk run stays) stored later
  have found : Recorded row.context
      ((Runs.run (afterRun setup) Disk.empty (earlier ++ later)).begin row.context) row :=
    ⟨final, stays, rfl⟩
  have meets := exec_of_ends (working_runLocked found (consistent.began row.context)
    (not_not_intro rfl) unoccupied) works
  cases ended : (runLocked setup row.context).exec respond choices
    ((Runs.run (afterRun setup) Disk.empty (earlier ++ later)).begin row.context) with
  | mk result d =>
    rw [ended] at meets
    cases result with
    | ok j => exact congrArg Except.ok meets
    | error e => exact meets.elim

section Sample
open Runs

/- The first driver raises and is rolled back; with a failure, the removal of the pending journal
   raises too. -/
def rollbackRun (fails : Bool) : Run where
  context := sampleContext
  choices n :=
    { raises := if n = 5 ∨ fails ∧ n = 16 then some (.other "OSError") else none
      receipt := some ⟨"source_release", "rollback", "verified", sampleDigest⟩
      verification := some (verificationOf sampleContext) }
  calls := 19

def sampleRolledBack : Journal where
  planId := sampleDigest
  backupManifestSha256 := sampleDigest
  status := .rollbackVerified
  nextPhase := some .sourceRelease
  inProgress := some .sourceRelease
  rollbackCompleted := [.sourceRelease]
  failure := some "OSError"

/- The second run crashes after its first call, and the third one returns the receipt. -/
theorem receipt_returned_after_crash :
    ((runLocked sampleUpgrade sampleRolledBack.context).exec respond (fun _ => {})
      ((run (afterRun sampleUpgrade) Disk.empty
        ([rollbackRun false] ++ [sampleRun sampleUpgrade 1])).begin sampleRolledBack.context)).1 =
          .ok sampleRolledBack := by
  have before : (run (afterRun sampleUpgrade) Disk.empty [rollbackRun false]).files
        (.final sampleRolledBack.status sampleRolledBack.planId) = some (.journal sampleRolledBack) ∧
      Guarded (afterRun sampleUpgrade) (QuietRun sampleUpgrade sampleRolledBack.planId) Disk.empty
        ([rollbackRun false] ++ [sampleRun sampleUpgrade 1]) ∧
      (run (afterRun sampleUpgrade) Disk.empty
        ([rollbackRun false] ++ [sampleRun sampleUpgrade 1])).files .pending = none ∧
      (runLocked sampleUpgrade sampleRolledBack.context).Obeys respond Works (fun _ => {})
        ((run (afterRun sampleUpgrade) Disk.empty
          ([rollbackRun false] ++ [sampleRun sampleUpgrade 1])).begin sampleRolledBack.context) := by
    decide +kernel
  obtain ⟨stored, quiet, closed, works⟩ := before
  refine terminal_receipt_returned sampleUpgrade [rollbackRun false] [sampleRun sampleUpgrade 1]
    sampleRolledBack (.inr rfl) stored quiet (fun row found => ?_) (fun _ => {}) works
  rw [closed] at found
  cases found

/- The handler of the rollback rewrites the pending journal next to the final receipt. -/
theorem failed_unlink_blocks_reruns :
    ¬ ∀ (setup : Setup) (earlier later : List Run) (row : Journal),
      row.status = .committed ∨ row.status = .rollbackVerified →
      (run (afterRun setup) Disk.empty earlier).files (.final row.status row.planId) =
        some (.journal row) →
      Owned row.planId (run (afterRun setup) Disk.empty (earlier ++ later)) →
      ∀ choices : Nat → Choice, (runLocked setup row.context).Obeys respond Works choices
        ((run (afterRun setup) Disk.empty (earlier ++ later)).begin row.context) →
      ((runLocked setup row.context).exec respond choices
        ((run (afterRun setup) Disk.empty (earlier ++ later)).begin row.context)).1 =
          .ok row := by
  intro claim
  have blocked : (run (afterRun sampleUpgrade) Disk.empty [rollbackRun true]).files
        (.final sampleRolledBack.status sampleRolledBack.planId) = some (.journal sampleRolledBack) ∧
      (run (afterRun sampleUpgrade) Disk.empty ([rollbackRun true] ++ [])).files .pending =
        some (.journal { sampleRolledBack with status := .rollingBack }) ∧
      (runLocked sampleUpgrade sampleRolledBack.context).Obeys respond Works (fun _ => {})
        ((run (afterRun sampleUpgrade) Disk.empty ([rollbackRun true] ++ [])).begin
          sampleRolledBack.context) ∧
      ((runLocked sampleUpgrade sampleRolledBack.context).exec respond (fun _ => {})
        ((run (afterRun sampleUpgrade) Disk.empty ([rollbackRun true] ++ [])).begin
          sampleRolledBack.context)).1.isOk = false := by
    decide +kernel
  obtain ⟨stored, pending, works, raises⟩ := blocked
  have returned := claim sampleUpgrade [rollbackRun true] [] sampleRolledBack (.inr rfl) stored
    (fun row found => by
      rw [pending] at found
      cases found
      rfl)
    (fun _ => {}) works
  exact Bool.false_ne_true (raises.symm.trans (congrArg Except.isOk returned))

end Sample

end NoiContest.InstallTransaction
