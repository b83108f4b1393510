import NoiContest.InstallTransaction.RollbackPass

/- A whole run, from the look at the final receipts to its result, and then histories of runs that
   end or crash anywhere. -/
namespace NoiContest.InstallTransaction
open Flow Outcome

variable {regime : Regime} {context : Context} {tolerant : Prop} {disk : Disk} {row : Journal}

theorem context_of_identity (plan : row.planId = context.planId)
    (manifest : row.backupManifestSha256 = context.backupManifestSha256) :
    row.context = context := by
  rw [Journal.context, plan, manifest]

theorem identity_of_validated {setup : Setup} {content : Content}
    (validated : validateJournal setup context content = .ok row) :
    content = .journal row ∧ row.context = context := by
  obtain ⟨rfl, plan, manifest, _⟩ := validateJournal_ok.mp validated
  exact ⟨rfl, context_of_identity plan manifest⟩

/- The final receipts -/

section Finals
variable {post : Option Journal → Disk → Prop} {raised : Raised → Disk → Prop}

theorem finalReceipt_ends {status : Status} (consistent : Consistent regime disk)
    (absent : disk.files (.final status context.planId) = none → post none disk)
    (found : ∀ row, disk.files (.final status context.planId) = some (.journal row) →
      row.context = context → row.status = status → post (some row) disk)
    (failed : ∀ e, raised e disk) :
    Ends (keeping regime context tolerant) (finalReceipt regime.setup context status) disk post
      raised := by
  unfold finalReceipt
  rw [ends_bind]
  refine ends_lexists consistent ?_
  rw [ends_ite]
  constructor
  · intro _
    rw [ends_bind]
    refine ends_readExact consistent (fun content stored => ?_) failed
    rw [ends_bind]
    refine ends_checked (fun row validated => ?_) failed
    obtain ⟨rfl, identity⟩ := identity_of_validated validated
    rw [ends_bind]
    refine ends_checked (fun _ agreed => ?_) failed
    simp only [raiseIf_ok, not_not] at agreed
    exact found row stored identity agreed
  · intro missing
    exact absent (by simpa using missing)

theorem existingFinal_ends (consistent : Consistent regime disk)
    (absent : Undecided context disk → post none disk)
    (found : ∀ row, row.status = .committed ∨ row.status = .rollbackVerified →
      disk.files (.final row.status context.planId) = some (.journal row) →
      row.context = context → post (some row) disk)
    (failed : ∀ e, raised e disk) :
    Ends (keeping regime context tolerant) (existingFinal regime.setup context) disk post
      raised := by
  unfold existingFinal
  rw [ends_bind]
  refine finalReceipt_ends consistent (fun uncommitted => ?_)
    (fun row stored identity status => ?_) failed
  · rw [ends_bind]
    refine finalReceipt_ends consistent (fun unrolled => absent ⟨uncommitted, unrolled⟩)
      (fun row stored identity status => ?_) failed
    exact found row (.inr status) (status ▸ stored) identity
  · rw [ends_bind]
    refine finalReceipt_ends consistent
      (fun _ => found row (.inl status) (status ▸ stored) identity)
      (fun _ _ _ _ => failed _) failed

end Finals

/-- A final receipt of the plan, as the files say. -/
structure Recorded (context : Context) (disk : Disk) (row : Journal) : Prop where
  final : row.status = .committed ∨ row.status = .rollbackVerified
  stored : disk.files (.final row.status context.planId) = some (.journal row)
  identity : row.context = context

theorem Recorded.decided (found : Recorded context disk row) :
    ¬ ((disk.plan context.planId).committed = none ∧
      (disk.plan context.planId).rolledBack = none) := by
  rintro ⟨uncommitted, unrolled⟩
  have stored := found.stored
  rcases found.final with status | status <;> rw [status] at stored
  · exact Option.some_ne_none _ (stored.symm.trans uncommitted)
  · exact Option.some_ne_none _ (stored.symm.trans unrolled)

/-- What the result of a run says when it is committed. -/
def Concluded (context : Context) (journal : Journal) (disk : Disk) : Prop :=
  journal.context = context ∧ (disk.plan context.planId).committed = some (.journal journal)

theorem recorded_ends (consistent : Consistent regime disk) (found : Recorded context disk row) :
    Ends (keeping regime context tolerant) (recorded regime.setup context row) disk
      (fun j d => Consistent regime d ∧ j = row ∧ (row.status = .committed →
        Concluded context row d ∧ (d.plan context.planId).cleanup ≠ none))
      (fun _ d => Consistent regime d) := by
  have cleaning : ∀ d, Consistent regime d → d.files (.final row.status context.planId) =
      some (.journal row) → Ends (keeping regime context tolerant)
        (do if row.status = .committed then commitCleanup regime.setup context row else pure ()
            return row) d
        (fun j d => Consistent regime d ∧ j = row ∧ (row.status = .committed →
          Concluded context row d ∧ (d.plan context.planId).cleanup ≠ none))
        (fun _ d => Consistent regime d) := by
    intro d consistent stored
    rw [ends_ite]
    constructor
    · intro committed
      rw [committed] at stored
      rw [ends_bind]
      refine (commitCleanup_ends consistent found.identity stored).mono checking_monotone
        (fun _ d held => ?_) fun _ _ held => held
      obtain ⟨consistent, kept, cleaned⟩ := held
      exact ⟨consistent, rfl, fun _ => ⟨⟨found.identity, kept⟩, cleaned⟩⟩
    · intro uncommitted
      exact ⟨consistent, rfl, fun committed => absurd committed uncommitted⟩
  unfold recorded
  rw [ends_bind]
  refine ends_lexists consistent ?_
  rw [ends_ite]
  constructor
  · intro _
    rw [ends_bind]
    refine ends_readExact consistent (fun content stored => ?_) fun _ => consistent
    rw [ends_bind]
    refine ends_checked (fun pending validated => ?_) fun _ => consistent
    obtain ⟨rfl, identity⟩ := identity_of_validated validated
    have closed := consistent.unlinkPending context.planId (owned_of_stored stored identity)
      found.decided
    rw [ends_bind]
    refine ends_checked (fun _ _ => ?_) fun _ => consistent
    rw [ends_bind]
    exact ends_unlink consistent closed (cleaning _ closed (by simpa [Disk.put] using found.stored))
      (fun _ _ => consistent) fun _ _ => closed
  · intro _
    exact cleaning disk consistent found.stored

/- A pending journal of an earlier run -/

theorem same_status {status : Status} (same : row.status = status) :
    { row with status := status } = row := by
  cases row
  cases same
  rfl

/- There is no cleanup before there is a final receipt. -/
theorem Undecided.uncleaned (undecided : Undecided context disk)
    (consistent : Consistent regime disk) : (disk.plan context.planId).cleanup = none := by
  cases cleaned : (disk.plan context.planId).cleanup with
  | none => rfl
  | some content =>
    obtain ⟨⟨row, committed, _⟩, _⟩ := (consistent.tracked _).cleanup content cleaned
    rw [undecided.1] at committed
    cases committed

/-- The pending journal says committed, and there is no final receipt of that yet. -/
def SealedOnly (context : Context) (disk : Disk) : Prop :=
  disk.files (.final .committed context.planId) = none ∧
    ∃ row, disk.files .pending = some (.journal row) ∧ row.status = .committed

/-- The pending journal says that the rollback was verified, so the run only has to close it. -/
def RollbackSealed (disk : Disk) : Prop :=
  (match disk.files .pending with
  | some (.journal row) => decide (row.status = .rollbackVerified)
  | _ => false) = true

theorem RollbackSealed.of_stored (stored : disk.files .pending = some (.journal row)) :
    RollbackSealed disk ↔ row.status = .rollbackVerified := by
  simp [RollbackSealed, stored]

theorem resume_ends (strict : ¬ RollbackSealed disk → tolerant → regime.loose context.planId)
    (consistent : Consistent regime disk) (undecided : Undecided context disk) :
    Ends (keeping regime context tolerant) (resume regime.setup context) disk
      (fun j d => Consistent regime d ∧ (j.status = .committed →
        SealedOnly context disk ∧ Concluded context j d ∧
          (d.plan context.planId).cleanup = none))
      (fun _ d => Consistent regime d) := by
  unfold resume
  rw [ends_bind]
  refine ends_readExact consistent (fun content stored => ?_) fun _ => consistent
  rw [ends_bind]
  refine ends_checked (fun row validated => ?_) fun _ => consistent
  obtain ⟨rfl, identity⟩ := identity_of_validated validated
  have follows := consistent.follows stored identity
  have owned := owned_of_stored stored identity
  have unsealed : row.status ≠ .committed → ¬ Sealed (disk.plan context.planId).log :=
    fun other written => other (follows.is_sealed written)
  cases status : row.status with
  | committed =>
    have sealable : Sealable regime context disk row :=
      ⟨consistent, owned, identity, undecided, (same_status status).symm ▸ follows⟩
    refine (sealCommitted_ends sealable).mono checking_monotone (fun j d held => ?_)
      fun _ _ held => held
    obtain ⟨consistent', _, identity', concluded, cleanup⟩ := held
    refine ⟨consistent', fun _ => ⟨⟨undecided.1, row, stored, status⟩, ⟨identity', concluded⟩, ?_⟩⟩
    rw [cleanup]
    exact undecided.uncleaned consistent
  | rollbackVerified =>
    subst identity
    obtain ⟨first, second, third⟩ :=
      consistent.sealRolledBack row owned undecided status follows
    refine ends_finalize undecided.2 consistent ?_ ?_ ?_ ⟨?_, fun committed => ?_⟩
      ⟨fun _ _ => consistent, fun _ _ => ?_, fun _ _ => ?_, fun _ _ => ?_⟩ <;>
      rw [same_status status] at *
    · exact first
    · exact second
    · exact third
    · exact third
    · rw [status] at committed
      cases committed
    · exact first
    · exact second
    · exact third
  | manualIntervention => exact consistent
  | applying =>
    have retreat := follows.retreat (unsealed (by simp [status]))
    have interrupted : Follows regime (disk.plan context.planId).log
        { row with status := .rollingBack, failure := some "interrupted_apply" } :=
      retreat.failure _
    have written := consistent.write_own
      { row with status := .rollingBack, failure := some "interrupted_apply" } owned identity
      undecided interrupted
    rw [ends_bind]
    refine ends_atomicJson consistent written ?_ (fun _ _ => consistent) fun _ _ => written
    have retreating : Retreating regime context _
        { row with status := .rollingBack, failure := some "interrupted_apply" } :=
      ⟨written, stored_write_pending disk _, identity, undecided_write_pending undecided _, rfl⟩
    have unsettled : ¬ RollbackSealed disk := by simp [RollbackSealed.of_stored stored, status]
    refine (rollBack_ends (strict unsettled) retreating).mono checking_monotone (fun j d held => ?_)
      fun _ _ held => held
    refine ⟨held.1, fun committed => ?_⟩
    rw [held.2] at committed
    cases committed
  | rollingBack =>
    have unsettled : ¬ RollbackSealed disk := by simp [RollbackSealed.of_stored stored, status]
    refine (rollBack_ends (strict unsettled)
      ⟨consistent, stored, identity, undecided, status⟩).mono checking_monotone
      (fun j d held => ?_) fun _ _ held => held
    refine ⟨held.1, fun committed => ?_⟩
    rw [held.2] at committed
    cases committed

/- A first run -/

theorem follows_initial {setup : Setup} (row : Journal) (status : row.status = .applying)
    (next : row.nextPhase = setup.phases.head?) (idle : row.inProgress = none)
    (completed : row.completed = []) (receipts : row.receipts = Dict.empty)
    (kept : row.rollbackCompleted = []) (loose : String → Prop) :
    Follows ⟨setup, loose⟩ [] row where
  valid :=
    { front_exact := by simp [completed]
      receipts := fun phase => by simp [completed, receipts]
      next := fun _ => by simp [next, expectedNext, completed, List.head?_eq_getElem?]
      current := .inl idle
      undone := by simp [kept] }
  applied phase called := by
    obtain ⟨_, _, mem⟩ := called
    cases mem
  forward called := by
    obtain ⟨_, _, _, mem⟩ := called
    cases mem
  is_sealed written := by
    obtain ⟨_, mem, _⟩ := written
    cases mem
  undone := by simp [kept]
  finished eq := by
    rw [status] at eq
    cases eq

theorem initialJournal_ok {setup : Setup} (initial : initialJournal setup context = .ok row) :
    row = {
      planId := context.planId
      backupManifestSha256 := context.backupManifestSha256
      status := .applying
      nextPhase := setup.phases.head? } := by
  simp only [initialJournal, bind_ok, raiseIf_ok, pure_eq_ok] at initial
  obtain ⟨_, _, eq⟩ := initial
  exact eq.symm

/- After the last phase only the seal is missing. -/
theorem Ahead.sealable (ahead : Ahead regime context disk row []) :
    Sealable regime context disk row := by
  have follows := ahead.consistent.follows ahead.stored ahead.identity
  refine ⟨ahead.consistent, owned_of_stored ahead.stored ahead.identity, ahead.identity,
    ahead.undecided, ?_⟩
  exact
    { valid :=
        { front_exact := follows.valid.front_exact
          receipts := follows.valid.receipts
          next := fun eq => by cases eq
          current := follows.valid.current
          undone := follows.valid.undone }
      applied := follows.applied
      forward := fun called => absurd called ahead.unrolled
      is_sealed := fun _ => rfl
      undone := follows.undone
      finished := fun eq => by cases eq }

theorem startFresh_ends (strict : tolerant → regime.loose context.planId)
    (consistent : Consistent regime disk) (undecided : Undecided context disk)
    (unpending : disk.files .pending = none) (fresh : freshRun disk.log = true) :
    Ends (keeping regime context tolerant) (startFresh regime.setup context) disk
      (fun j d => Consistent regime d ∧ (j.status = .committed →
        Concluded context j d ∧ (d.plan context.planId).cleanup ≠ none))
      (fun _ d => Consistent regime d) := by
  have owned : Owned context.planId disk := fun row stored => by
    rw [unpending] at stored
    cases stored
  have untouched : (disk.plan context.planId).log = [] :=
    (consistent.tracked context.planId).untouched (by simp [Disk.plan, unpending]) undecided.1
      undecided.2
  unfold startFresh
  rw [ends_bind]
  refine ends_checked (fun row initial => ?_) fun _ => consistent
  have row_eq := initialJournal_ok initial
  have identity : row.context = context := by
    rw [row_eq]
    rfl
  have follows : Follows regime (disk.plan context.planId).log row := by
    rw [untouched]
    exact follows_initial row (by rw [row_eq]) (by rw [row_eq]) (by rw [row_eq]) (by rw [row_eq])
      (by rw [row_eq]) (by rw [row_eq]) _
  have written := consistent.write_own row owned identity undecided follows
  rw [ends_bind]
  refine ends_atomicJson consistent written ?_ (fun _ _ => consistent) fun _ _ => written
  have ahead : Ahead regime context (disk.write .pending (.journal row)) row regime.setup.phases :=
    { consistent := written
      stored := stored_write_pending disk row
      identity := identity
      undecided := undecided_write_pending undecided row
      status := by rw [row_eq]
      idle := by rw [row_eq]
      rest := by simp [row_eq]
      kept := by rw [row_eq]
      fresh := fresh }
  rw [ends_bind, ends_attempt]
  refine (applyPhases_ends regime.setup.phases ahead).mono checking_monotone
    (fun row' d ahead => ?_) fun failed d held => ?_
  · simp only [ends_bind]
    refine (sealCommitted_ends ahead.sealable).mono checking_monotone (fun j d held => ?_)
      fun _ _ held => held
    obtain ⟨consistent, _, identity, committed, _⟩ := held
    refine (commitCleanup_ends consistent identity committed).mono checking_monotone
      (fun _ d held => ?_) fun _ _ held => held
    obtain ⟨consistent, kept, cleaned⟩ := held
    exact ⟨consistent, fun _ => ⟨⟨identity, kept⟩, cleaned⟩⟩
  · obtain ⟨broken, open_⟩ := held
    have written := broken.consistent.write_own
      { failed.2 with status := .rollingBack, failure := some failed.1.typeName } broken.owned
      broken.identity open_ (broken.follows.failure _)
    simp only [ends_bind]
    refine ends_atomicJson broken.consistent written ?_ (fun _ _ => broken.consistent)
      fun _ _ => written
    have retreating : Retreating regime context _
        { failed.2 with status := .rollingBack, failure := some failed.1.typeName } :=
      ⟨written, stored_write_pending d _, broken.identity, undecided_write_pending open_ _, rfl⟩
    refine (rollBack_ends strict retreating).mono checking_monotone (fun j d held => ?_)
      fun _ _ held => held
    refine ⟨held.1, fun committed => ?_⟩
    rw [held.2] at committed
    cases committed

/- The whole run -/

theorem runLocked_ends (strict : Undecided context disk → ¬ RollbackSealed disk → tolerant →
      regime.loose context.planId)
    (consistent : Consistent regime disk)
    (fresh : freshRun disk.log = !(disk.files .pending).isSome) :
    Ends (keeping regime context tolerant) (runLocked regime.setup context) disk
      (fun j d => Consistent regime d ∧ (j.status = .committed → Concluded context j d ∧
        ((d.plan context.planId).cleanup ≠ none ↔ ¬ SealedOnly context disk)))
      (fun _ d => Consistent regime d) := by
  unfold runLocked
  rw [ends_bind]
  refine existingFinal_ends consistent (fun undecided => ?_)
    (fun row final stored identity => ?_) fun _ => consistent
  · rw [ends_bind]
    refine ends_lexists consistent ?_
    rw [ends_ite]
    constructor
    · intro _
      refine (resume_ends (strict undecided) consistent undecided).mono checking_monotone
        (fun j d held => ?_) fun _ _ held => held
      refine ⟨held.1, fun committed => ?_⟩
      obtain ⟨sealed_, concluded, uncleaned⟩ := held.2 committed
      exact ⟨concluded, iff_of_false (not_not_intro uncleaned) (not_not_intro sealed_)⟩
    · intro missing
      have unpending : disk.files .pending = none := by simpa using missing
      have unsettled : ¬ RollbackSealed disk := by simp [RollbackSealed, unpending]
      refine (startFresh_ends (strict undecided unsettled) consistent undecided unpending
        (by simp [fresh, unpending])).mono checking_monotone (fun j d held => ?_)
        fun _ _ held => held
      refine ⟨held.1, fun committed => ?_⟩
      obtain ⟨concluded, cleaned⟩ := held.2 committed
      refine ⟨concluded, iff_of_true cleaned ?_⟩
      rintro ⟨_, row, stored, _⟩
      rw [unpending] at stored
      cases stored
  · refine (recorded_ends consistent ⟨final, stored, identity⟩).mono checking_monotone
      (fun j d held => ?_) fun _ _ held => held
    obtain ⟨consistent, rfl, concluded⟩ := held
    refine ⟨consistent, fun committed => ?_⟩
    obtain ⟨concluded, cleaned⟩ := concluded committed
    refine ⟨concluded, iff_of_true cleaned ?_⟩
    rintro ⟨unset, _⟩
    rw [committed, unset] at stored
    cases stored

/- Histories -/

/- A run that may crash, with what its result says when it has one. -/
theorem afterRun_ends (run : Run) (consistent : Consistent regime disk)
    (strict : Unreceipted run.context disk → ¬ RollbackSealed disk → tolerant →
      regime.loose run.context.planId)
    (permitted : (runLocked regime.setup run.context).ObeysFor respond
      (fun c choice disk => tolerant ∨ QuietSeal run.context c choice disk) run.calls run.choices
      (disk.begin run.context)) :
    Consistent regime (afterRun regime.setup disk run) ∧
      ∀ journal, ((runLocked regime.setup run.context).cut respond run.calls run.choices
        (disk.begin run.context)).1 = some (.ok journal) → journal.status = .committed →
        Concluded run.context journal (afterRun regime.setup disk run) ∧
          (((afterRun regime.setup disk run).plan run.context.planId).cleanup ≠ none ↔
            ¬ SealedOnly run.context disk) := by
  have begun := consistent.began run.context
  have strict_begun : Undecided run.context (disk.begin run.context) →
      ¬ RollbackSealed (disk.begin run.context) → tolerant →
        regime.loose run.context.planId := fun undecided =>
    strict (by simpa [Unreceipted, Disk.begin, Event.planId] using undecided.2)
  have whole := runLocked_ends strict_begun begun rfl
  obtain ⟨kept, ended⟩ := cut_of_ends (Consistent regime) run.calls begun whole permitted
  exact ⟨kept, fun journal returned committed => (ended _ returned).2 committed⟩

/- With the failures that the program has to live with anyway, nothing is asked of a run. -/
theorem history_consistent (setup : Setup) (history : List Run) :
    Consistent ⟨setup, fun _ => True⟩ (Runs.run (afterRun setup) Disk.empty history) :=
  Runs.run_invariant (Consistent ⟨setup, fun _ => True⟩)
    (fun _ run consistent => (afterRun_ends run consistent (fun _ _ _ => trivial)
      (obeysFor_of_all (fun _ _ _ => Or.inl True.intro) _ _ _ _)).1)
    (consistent_empty _) history

theorem any_history_crash_consistent (setup : Setup) (history : List Run) :
    CrashConsistent setup (Runs.run (afterRun setup) Disk.empty history) :=
  (history_consistent setup history).crashConsistent

/-- The cleanup receipt of the plan is there, and every driver that cleans up has done so. -/
def CleanedUp (setup : Setup) (context : Context) (disk : Disk) : Prop :=
  disk.files (.cleanup context.planId) = some (cleanupOf setup context) ∧
    ∀ phase ∈ setup.phases, setup.hasCommitCleanup phase = true →
      CleanupChecked (planLog context.planId disk.log) phase

theorem committed_result_cleaned_iff (setup : Setup) (history : List Run) (run : Run)
    (journal : Journal)
    (returned : ((runLocked setup run.context).cut respond run.calls run.choices
      ((Runs.run (afterRun setup) Disk.empty history).begin run.context)).1 = some (.ok journal))
    (committed : journal.status = .committed) :
    CleanedUp setup run.context (Runs.run (afterRun setup) Disk.empty (history ++ [run])) ↔
      ¬ SealedOnly run.context (Runs.run (afterRun setup) Disk.empty history) := by
  rw [Runs.run_append, Runs.run_cons, Runs.run_nil]
  obtain ⟨consistent, concludes⟩ := afterRun_ends run (history_consistent setup history)
    (fun _ _ _ => trivial) (obeysFor_of_all (fun _ _ _ => Or.inl True.intro) _ _ _ _)
  obtain ⟨⟨identity, stored⟩, exactly⟩ := concludes journal returned committed
  rw [← exactly]
  constructor
  · rintro ⟨found, _⟩ unset
    exact Option.some_ne_none _ (found.symm.trans unset)
  · intro found
    obtain ⟨content, found⟩ := Option.ne_none_iff_exists'.mp found
    obtain ⟨⟨row, final, rfl⟩, checked⟩ := (consistent.tracked _).cleanup content found
    rw [stored] at final
    cases final
    rw [identity] at found
    exact ⟨found, checked⟩

section Sample

def sampleDigest : String := "abababababababababababababababababababababababababababababababab"

def sampleContext : Context := ⟨sampleDigest, sampleDigest⟩

/- The drivers answer well, and the n-th phase is applied by the call after its intent. -/
def sampleChoices (setup : Setup) (n : Nat) : Choice where
  receipt := setup.phases[(n - 5) / 3]?.map fun phase =>
    ⟨phase.name, "apply", "verified", sampleDigest⟩
  cleanupReply := setup.phases[n - 28]?.map cleanupReplyOf

def sampleRun (setup : Setup) (calls : Nat) : Run := ⟨sampleContext, sampleChoices setup, calls⟩

def sampleUpgrade : Setup := upgrade (fun _ => true) false false

/-- A committed result, and whether there is a receipt of the cleanup. -/
def committedResult (cleaned : Bool) : Option (Except Raised Journal) × Disk → Bool
  | (some (.ok journal), disk) => decide (journal.status = .committed) &&
    ((disk.files (.cleanup sampleDigest)).isSome == cleaned)
  | _ => false

theorem committedResult_spec {cleaned : Bool} {ended : Option (Except Raised Journal) × Disk}
    (is_committed : committedResult cleaned ended = true) :
    (∃ journal, ended.1 = some (.ok journal) ∧ journal.status = .committed) ∧
      (ended.2.files (.cleanup sampleDigest)).isSome = cleaned := by
  obtain ⟨result, disk⟩ := ended
  match result with
  | some (.ok journal) =>
    simp only [committedResult, Bool.and_eq_true, decide_eq_true_eq, beq_iff_eq] at is_committed
    exact ⟨⟨journal, rfl, is_committed.1⟩, is_committed.2⟩
  | some (.error _) | none => cases is_committed

/- The first run of a plan, without a crash. -/
theorem first_run_cleaned :
    CleanedUp sampleUpgrade sampleContext
      (Runs.run (afterRun sampleUpgrade) Disk.empty ([] ++ [sampleRun sampleUpgrade 36])) := by
  set run := sampleRun sampleUpgrade 36 with run_eq
  have is_committed : committedResult true ((runLocked sampleUpgrade run.context).cut respond
      run.calls run.choices ((Runs.run (afterRun sampleUpgrade) Disk.empty []).begin
        run.context)) = true := by
    rw [run_eq]
    decide +kernel
  obtain ⟨⟨journal, returned, committed⟩, _⟩ := committedResult_spec is_committed
  refine (committed_result_cleaned_iff sampleUpgrade [] run journal returned committed).mpr ?_
  rintro ⟨_, row, stored, _⟩
  cases stored

/- The process dies right after the seal, and the next run returns the committed journal. -/
theorem sealed_restart_not_cleaned :
    ¬ ∀ (setup : Setup) (history : List Run) (run : Run) (journal : Journal),
      ((runLocked setup run.context).cut respond run.calls run.choices
        ((Runs.run (afterRun setup) Disk.empty history).begin run.context)).1 =
          some (.ok journal) → journal.status = .committed →
      CleanedUp setup run.context (Runs.run (afterRun setup) Disk.empty (history ++ [run])) := by
  intro claim
  set rerun := sampleRun sampleUpgrade 9 with rerun_eq
  have is_committed : committedResult false ((runLocked sampleUpgrade rerun.context).cut respond
      rerun.calls rerun.choices ((Runs.run (afterRun sampleUpgrade) Disk.empty
        [sampleRun sampleUpgrade 23]).begin rerun.context)) = true := by
    rw [rerun_eq]
    decide +kernel
  obtain ⟨⟨journal, returned, committed⟩, uncleaned⟩ := committedResult_spec is_committed
  have found := (claim sampleUpgrade [sampleRun sampleUpgrade 23] rerun journal returned
    committed).1
  rw [Runs.run_append, Runs.run_cons, Runs.run_nil, afterRun] at found
  have identity : rerun.context.planId = sampleDigest := rfl
  rw [← identity, found] at uncleaned
  cases uncleaned

end Sample

end NoiContest.InstallTransaction
