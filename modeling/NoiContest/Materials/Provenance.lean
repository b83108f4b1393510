import NoiContest.Materials.Handlers
import NoiContest.Materials.RevisionChanges
import NoiContest.Lib.Threads

/- Which registration a contest's material comes from. Revisions and jobs outlive a registration,
   and an approval looks at no submission session, so the sessions have to be followed through
   every interleaving of registrations, jobs, stagings and approvals. -/
namespace NoiContest.Materials
open Flow
open Pipeline (Raised)

/-- Revisions that no artifact row carries. -/
def Reserved (revision : String) : Prop := revision = "" ∨ revision = MaterialTables.legacyManual

instance (revision : String) : Decidable (Reserved revision) := by
  unfold Reserved
  infer_instance

def Manifest.boundTo (submissionSession : String) : Manifest → Prop
  | .manual _ session _ => session = submissionSession
  | .generated _ => False

instance (submissionSession : String) (manifest : Manifest) :
    Decidable (manifest.boundTo submissionSession) := by
  unfold Manifest.boundTo
  cases manifest <;> infer_instance

/-- The revision is a staging bound to the session, or the result of a job of the session. -/
def ProducedUnder (m : MaterialTables) (revision submissionSession : String) : Prop :=
  (∃ row ∈ m.revisions, row.revision = revision ∧
    row.content.manifest.boundTo submissionSession) ∨
  ∃ job ∈ m.jobs, job.revision = revision ∧ job.state = .done ∧
    job.details.submissionSession = submissionSession

instance (m : MaterialTables) (revision submissionSession : String) :
    Decidable (ProducedUnder m revision submissionSession) := by
  unfold ProducedUnder
  infer_instance

/-- Rows are never lost, and neither their content nor a job's session changes. -/
structure Grows (m m' : MaterialTables) : Prop where
  rows : ∀ row ∈ m.revisions, ∃ row' ∈ m'.revisions,
    row'.revision = row.revision ∧ row'.content = row.content
  jobs : ∀ job ∈ m.jobs, ∃ job' ∈ m'.jobs, job'.jobId = job.jobId ∧
    job'.revision = job.revision ∧
    job'.details.submissionSession = job.details.submissionSession ∧
    (job.state = .done → job'.state = .done)

theorem Grows.refl (m : MaterialTables) : Grows m m where
  rows row mem := ⟨row, mem, rfl, rfl⟩
  jobs job mem := ⟨job, mem, rfl, rfl, rfl, id⟩

theorem Grows.of_same {m m' : MaterialTables} (rows : m'.revisions = m.revisions)
    (jobs : m'.jobs = m.jobs) : Grows m m' where
  rows row mem := ⟨row, rows ▸ mem, rfl, rfl⟩
  jobs job mem := ⟨job, jobs ▸ mem, rfl, rfl, rfl, id⟩

theorem ProducedUnder.grow {m m' : MaterialTables} {revision session : String}
    (produced : ProducedUnder m revision session) (grows : Grows m m') :
    ProducedUnder m' revision session := by
  rcases produced with ⟨row, mem, same, bound⟩ | ⟨job, mem, same, done, own⟩
  · obtain ⟨row', mem', revision', content⟩ := grows.rows row mem
    exact .inl ⟨row', mem', revision'.trans same, content ▸ bound⟩
  · obtain ⟨job', mem', _, revision', session', stays⟩ := grows.jobs job mem
    exact .inr ⟨job', mem', revision'.trans same, stays done, session'.trans own⟩

structure Sound (m : MaterialTables) : Prop where
  active : ∀ contest, m.contest = some contest → Reserved contest.activeMaterialRevision ∨
    ProducedUnder m contest.activeMaterialRevision contest.submissionSession
  rows : ∀ row ∈ m.revisions, ¬ Reserved row.revision
  jobs : ∀ job ∈ m.jobs, ¬ Reserved job.revision
  receipts : ∀ publication ∈ m.publications, ¬ Reserved publication.receipt.revision
  ids : (m.jobs.map (·.jobId)).Nodup

/-- A thread has seen a job of this id with details of this session. -/
def Known (m : MaterialTables) (fact : String × String) : Prop :=
  ∃ job ∈ m.jobs, job.jobId = fact.1 ∧ job.details.submissionSession = fact.2

theorem Known.grow {m m' : MaterialTables} {fact : String × String} (known : Known m fact)
    (grows : Grows m m') : Known m' fact := by
  obtain ⟨job, mem, same, session⟩ := known
  obtain ⟨job', mem', same', _, session', _⟩ := grows.jobs job mem
  exact ⟨job', mem', same'.trans same, session'.trans session⟩

section Transactions
variable {m m' : MaterialTables} {tid revision approvedBy : String}

/-- A transaction that leaves rows, jobs and receipts alone is sound with its new contest. -/
theorem Sound.withContest (sound : Sound m) (contest : Option Contest)
    (active : ∀ c, contest = some c → Reserved c.activeMaterialRevision ∨
      ProducedUnder m c.activeMaterialRevision c.submissionSession) :
    Sound { m with contest := contest } where
  active := active
  rows := sound.rows
  jobs := sound.jobs
  receipts := sound.receipts
  ids := sound.ids

theorem upsertContest_sound {registration : Registration} {session : String} (sound : Sound m)
    (done : m.upsertContest registration session = .ok m') : Sound m' ∧ Grows m m' := by
  simp only [MaterialTables.upsertContest, Outcome.bind_ok, Outcome.raiseIf_ok,
    Outcome.pure_eq_ok] at done
  obtain ⟨_, _, rfl⟩ := done
  refine ⟨sound.withContest _ ?_, Grows.of_same rfl rfl⟩
  rintro _ ⟨⟩
  exact .inl (.inl rfl)

theorem clearMaterialSelection_sound (sound : Sound m)
    (done : m.clearMaterialSelection tid = .ok m') : Sound m' ∧ Grows m m' := by
  unfold MaterialTables.clearMaterialSelection at done
  cases stored : m.contest with
  | none => simp [stored] at done
  | some contest =>
    simp only [stored] at done
    cases done
    refine ⟨sound.withContest _ ?_, Grows.of_same rfl rfl⟩
    rintro _ ⟨⟩
    exact .inl (.inl rfl)

theorem setPaper_sound {name sha256 : String} {size : Int} (sound : Sound m)
    (done : m.setPaper tid name sha256 size = .ok m') : Sound m' ∧ Grows m m' := by
  unfold MaterialTables.setPaper at done
  cases stored : m.contest with
  | none => simp [stored] at done
  | some contest =>
    simp only [stored] at done
    cases done
    refine ⟨sound.withContest _ ?_, Grows.of_same rfl rfl⟩
    rintro _ ⟨⟩
    dsimp only
    split
    · exact .inl (.inr rfl)
    · exact sound.active contest stored

theorem setTestdata_sound {name sha256 : String} {size files expandedSize : Int} (sound : Sound m)
    (done : m.setTestdata tid name sha256 size files expandedSize = .ok m') :
    Sound m' ∧ Grows m m' := by
  unfold MaterialTables.setTestdata at done
  cases stored : m.contest with
  | none => simp [stored] at done
  | some contest =>
    simp only [stored] at done
    cases done
    refine ⟨sound.withContest _ ?_, Grows.of_same rfl rfl⟩
    rintro _ ⟨⟩
    exact sound.active contest stored

theorem replaceContestPidMap_sound {session : String} {pidMap : List (String × String)}
    {contest : Contest} (sound : Sound m)
    (done : m.replaceContestPidMap tid session pidMap = .ok (contest, m')) :
    Sound m' ∧ Grows m m' := by
  unfold MaterialTables.replaceContestPidMap at done
  cases stored : m.contest with
  | none => simp [stored, Outcome.bind_ok] at done
  | some old =>
    simp only [stored, Outcome.bind_ok, Outcome.raiseIf_ok, Outcome.pure_eq_ok] at done
    obtain ⟨_, _, _, _, _, _, _, _, _, _, _, _, _, _, same⟩ := done
    cases same
    refine ⟨sound.withContest _ ?_, Grows.of_same rfl rfl⟩
    rintro _ ⟨⟩
    exact sound.active old stored

theorem job_eq_of_id (ids : (m.jobs.map (·.jobId)).Nodup) {a b : ArtifactJob} (memA : a ∈ m.jobs)
    (memB : b ∈ m.jobs) (same : a.jobId = b.jobId) : a = b :=
  List.inj_on_of_nodup_map ids memA memB same

/-- A change of one job that keeps what its revision comes from. -/
structure KeepsOrigin (job job' : ArtifactJob) : Prop where
  jobId : job'.jobId = job.jobId
  revision : job'.revision = job.revision
  session : job'.details.submissionSession = job.details.submissionSession
  done : job.state = .done → job'.state = .done

theorem KeepsOrigin.refl (job : ArtifactJob) : KeepsOrigin job job := ⟨rfl, rfl, rfl, id⟩

theorem Sound.mapJobs (sound : Sound m) (contest : Option Contest) {f : ArtifactJob → ArtifactJob}
    (keeps : ∀ job ∈ m.jobs, KeepsOrigin job (f job))
    (active : ∀ c, contest = some c → ∃ old, m.contest = some old ∧
      c.activeMaterialRevision = old.activeMaterialRevision ∧
      c.submissionSession = old.submissionSession) :
    Sound { m with contest := contest, jobs := m.jobs.map f } ∧
      Grows m { m with contest := contest, jobs := m.jobs.map f } := by
  have grows : Grows m { m with contest := contest, jobs := m.jobs.map f } := by
    refine ⟨fun row mem => ⟨row, mem, rfl, rfl⟩, fun job mem => ?_⟩
    exact ⟨f job, List.mem_map_of_mem mem, (keeps job mem).jobId, (keeps job mem).revision,
      (keeps job mem).session, (keeps job mem).done⟩
  refine ⟨⟨?_, sound.rows, ?_, sound.receipts, ?_⟩, grows⟩
  · intro c is
    obtain ⟨old, stored, revision, session⟩ := active c is
    rw [revision, session]
    exact (sound.active old stored).imp_right fun produced => produced.grow grows
  · intro job mem
    obtain ⟨old, memOld, rfl⟩ := List.mem_map.mp mem
    rw [(keeps old memOld).revision]
    exact sound.jobs old memOld
  · have same : (m.jobs.map f).map (·.jobId) = m.jobs.map (·.jobId) := by
      rw [List.map_map]
      exact List.map_congr_left fun job mem => (keeps job mem).jobId
    rw [same]
    exact sound.ids

theorem updateArtifactJob_sound {jobId message error : String} {state : JobState} {progress : Int}
    {details : Option JobDetails} (sound : Sound m)
    (own : ∀ d, details = some d → Known m (jobId, d.submissionSession))
    (done : m.updateArtifactJob jobId state progress message error details = .ok m') :
    Sound m' ∧ Grows m m' := by
  unfold MaterialTables.updateArtifactJob at done
  cases found : m.job? jobId with
  | none => simp [found] at done
  | some current =>
    simp only [found, Outcome.bind_ok, Outcome.raiseIf_ok, Outcome.pure_eq_ok] at done
    obtain ⟨_, ended, _, _, rfl⟩ := done
    obtain ⟨mem, isId⟩ := job?_mem found
    apply sound.mapJobs
    · intro job memJob
      split
      · next same =>
        have equal : job = current := job_eq_of_id sound.ids memJob mem (same.trans isId.symm)
        subst equal
        refine ⟨rfl, rfl, ?_, ?_⟩
        · cases details with
          | none => rfl
          | some d =>
            obtain ⟨other, memOther, sameOther, session⟩ := own d rfl
            have equal : other = job :=
              job_eq_of_id sound.ids memOther memJob (sameOther.trans same.symm)
            rw [equal] at session
            exact session.symm
        · intro finished
          by_contra changes
          exact ended ⟨by rw [finished]; rfl, fun kept => changes (kept.trans finished)⟩
      · exact KeepsOrigin.refl job
    · intro c is
      obtain ⟨old, stored, rfl⟩ := Option.map_eq_some_iff.mp is
      refine ⟨old, stored, ?_⟩
      unfold MaterialTables.withoutMaterials
      split <;> exact ⟨rfl, rfl⟩

theorem startArtifactJob_sound {jobId message : String} {details : JobDetails} {job : ArtifactJob}
    (sound : Sound m) (free : ¬ Reserved revision)
    (done : m.startArtifactJob tid jobId revision details message = .ok (job, m')) :
    Sound m' ∧ Grows m m' ∧ Known m' (job.jobId, job.details.submissionSession) := by
  unfold MaterialTables.startArtifactJob at done
  cases stored : m.contest with
  | none => simp [stored, Outcome.bind_ok] at done
  | some contest =>
    simp only [stored, Outcome.bind_ok, Outcome.raiseIf_ok, Outcome.pure_eq_ok, not_not] at done
    obtain ⟨_, _, _, _, _, _, _, _, _, _, _, _, _, absent, same⟩ := done
    cases same
    have grows : Grows m
        { m with
          contest := some (if contest.activeMaterialRevision = ""
            then { contest with materialState := "generating" } else contest)
          jobs := m.jobs ++ [{ jobId, revision, message := PyText.clip 2000 message, details }] } :=
      ⟨fun row mem => ⟨row, mem, rfl, rfl⟩,
        fun job mem => ⟨job, List.mem_append_left _ mem, rfl, rfl, rfl, id⟩⟩
    refine ⟨⟨?_, sound.rows, ?_, sound.receipts, ?_⟩, grows, ?_⟩
    · rintro _ ⟨⟩
      have before := (sound.active contest stored).imp_right fun produced => produced.grow grows
      split
      · exact before
      · exact before
    · intro job mem
      rcases List.mem_append.mp mem with old | new
      · exact sound.jobs job old
      · rw [List.mem_singleton.mp new]
        exact free
    · rw [List.map_append, List.nodup_append]
      refine ⟨sound.ids, List.nodup_singleton _, ?_⟩
      intro a memA b memB same
      obtain ⟨other, memOther, rfl⟩ := List.mem_map.mp memA
      have isId : b = jobId := by simpa using memB
      have found := List.find?_eq_none.mp absent other memOther
      simp [same.trans isId] at found
    · exact ⟨_, List.mem_append_right _ (List.mem_singleton.mpr rfl), rfl, rfl⟩

/- What a stored job and its last details have in common. -/
theorem finishJob_keeps (sound : Sound m) {completed : MaterialTables.CompleteJob}
    (own : Known m (completed.1, completed.2.submissionSession)) {job : ArtifactJob}
    (mem : job ∈ m.jobs) : KeepsOrigin job (MaterialTables.finishJob completed job) := by
  unfold MaterialTables.finishJob
  split
  · next same =>
    obtain ⟨other, memOther, sameOther, session⟩ := own
    have equal : other = job :=
      job_eq_of_id sound.ids memOther mem (sameOther.trans same.symm)
    rw [equal] at session
    exact ⟨rfl, rfl, session.symm, fun _ => rfl⟩
  · exact KeepsOrigin.refl job

theorem Sound.addRow (sound : Sound m) {row : ArtifactRevision} (free : ¬ Reserved row.revision) :
    Sound { m with revisions := m.revisions ++ [row] } ∧
      Grows m { m with revisions := m.revisions ++ [row] } := by
  have grows : Grows m { m with revisions := m.revisions ++ [row] } :=
    ⟨fun row mem => ⟨row, List.mem_append_left _ mem, rfl, rfl⟩,
      fun job mem => ⟨job, mem, rfl, rfl, rfl, id⟩⟩
  refine ⟨⟨?_, ?_, sound.jobs, sound.receipts, sound.ids⟩, grows⟩
  · intro contest stored
    exact (sound.active contest stored).imp_right fun produced => produced.grow grows
  · intro other mem
    rcases List.mem_append.mp mem with old | new
    · exact sound.rows other old
    · rw [List.mem_singleton.mp new]
      exact free

theorem Grows.trans {m'' : MaterialTables} (first : Grows m m') (second : Grows m' m'') :
    Grows m m'' where
  rows := by
    intro row mem
    obtain ⟨row', mem', revision', content'⟩ := first.rows row mem
    obtain ⟨row'', mem'', revision'', content''⟩ := second.rows row' mem'
    exact ⟨row'', mem'', revision''.trans revision', content''.trans content'⟩
  jobs := by
    intro job mem
    obtain ⟨job', mem', id', revision', session', done'⟩ := first.jobs job mem
    obtain ⟨job'', mem'', id'', revision'', session'', done''⟩ := second.jobs job' mem'
    exact ⟨job'', mem'', id''.trans id', revision''.trans revision', session''.trans session',
      fun finished => done'' (done' finished)⟩

theorem inserted_sound {contest : Contest} {row : ArtifactRevision}
    {completed : Option MaterialTables.CompleteJob} (sound : Sound m)
    (stored : m.contest = some contest) (free : ¬ Reserved row.revision)
    (own : ∀ pair, completed = some pair → Known m (pair.1, pair.2.submissionSession)) :
    Sound (m.inserted contest row completed) ∧ Grows m (m.inserted contest row completed) := by
  obtain ⟨added, grows⟩ := sound.addRow free
  cases completed with
  | none =>
    refine ⟨added.withContest _ ?_, grows.trans (Grows.of_same rfl rfl)⟩
    rintro _ ⟨⟩
    exact added.active contest stored
  | some pair =>
    have finished := added.mapJobs (some { contest with materialState := row.state.text })
      (fun job mem => finishJob_keeps added ((own pair rfl).grow grows) mem)
      (fun c is => ⟨contest, stored, by cases is; exact ⟨rfl, rfl⟩⟩)
    exact ⟨finished.1, grows.trans finished.2⟩

theorem putArtifactRevision_sound {state : RevisionState} {content : RevisionContent}
    {completed : Option MaterialTables.CompleteJob} (sound : Sound m)
    (free : completed = none → ¬ Reserved revision)
    (own : ∀ pair, completed = some pair → Known m (pair.1, pair.2.submissionSession))
    (done : m.putArtifactRevision tid revision state content completed = .ok m') :
    Sound m' ∧ Grows m m' := by
  unfold MaterialTables.putArtifactRevision at done
  cases stored : m.contest with
  | none => simp [stored] at done
  | some contest =>
    simp only [stored] at done
    have named : ¬ Reserved revision ∧ (m' = m ∨
        m' = m.inserted contest { revision, state, content } completed) := by
      cases completed with
      | none =>
        refine ⟨free rfl, ?_⟩
        cases found : m.revision? revision with
        | none =>
          simp only [found] at done
          cases done
          exact .inr rfl
        | some existing =>
          simp only [found, Outcome.bind_ok, Outcome.pure_eq_ok] at done
          obtain ⟨_, _, same⟩ := done
          exact .inl same.symm
      | some pair =>
        simp only [Outcome.bind_ok] at done
        obtain ⟨_, completes, rest⟩ := done
        unfold MaterialTables.completesJob at completes
        cases job : m.job? pair.1 with
        | none => simp [job] at completes
        | some job' =>
          simp only [job, Outcome.bind_ok, Outcome.raiseIf_ok, not_not, not_or] at completes
          obtain ⟨_, ⟨_, isRevision⟩, absent⟩ := completes
          refine ⟨isRevision ▸ sound.jobs job' (job?_mem job).1, ?_⟩
          simp only [absent] at rest
          cases rest
          exact .inr rfl
    obtain ⟨named, rfl | rfl⟩ := named
    · exact ⟨sound, Grows.refl m'⟩
    · exact inserted_sound sound stored named own

theorem Sound.addReceipt (sound : Sound m) {publication : Publication}
    (free : ¬ Reserved publication.receipt.revision) :
    Sound { m with publications := m.publications ++ [publication] } where
  active := sound.active
  rows := sound.rows
  jobs := sound.jobs
  receipts := by
    intro other mem
    rcases List.mem_append.mp mem with old | new
    · exact sound.receipts other old
    · rw [List.mem_singleton.mp new]
      exact free
  ids := sound.ids

theorem promoted_sound {contest : Contest} {row : ArtifactRevision} (approvedBy : String)
    (sound : Sound m)
    (produced : ProducedUnder m row.revision contest.submissionSession) :
    Sound (m.promoted contest row approvedBy) ∧ Grows m (m.promoted contest row approvedBy) := by
  have kept := promote_keeps row.revision approvedBy
  have grows : Grows m (m.promoted contest row approvedBy) :=
    ⟨fun row' mem => ⟨_, List.mem_map_of_mem mem, kept row'⟩,
      fun job mem => ⟨job, mem, rfl, rfl, rfl, id⟩⟩
  refine ⟨⟨?_, ?_, sound.jobs, sound.receipts, sound.ids⟩, grows⟩
  · rintro _ ⟨⟩
    exact .inr (produced.grow grows)
  · intro other mem
    obtain ⟨old, memOld, rfl⟩ := List.mem_map.mp mem
    rw [(kept old).1]
    exact sound.rows old memOld

theorem approveArtifact_sound {publication : Publication} (sound : Sound m)
    (own : ∀ contest, m.contest = some contest →
      ProducedUnder m revision contest.submissionSession)
    (done : m.approveArtifact tid revision approvedBy (some publication) = .ok m') :
    Sound m' ∧ Grows m m' := by
  obtain ⟨contest, row, m₁, present, memRow, sameRow, -, receipted, rfl⟩ := approveArtifact_ok done
  have receipt : Sound m₁ ∧ Grows m m₁ := by
    cases receipted with
    | kept => exact ⟨sound, Grows.refl m⟩
    | added stored receiptFor first =>
      refine ⟨sound.addReceipt ?_, Grows.of_same rfl rfl⟩
      rw [receiptFor.revision]
      exact sound.rows row memRow
  split
  · exact receipt
  · have produced : ProducedUnder m₁ row.revision contest.submissionSession := by
      rw [sameRow]
      exact (own contest present).grow receipt.2
    obtain ⟨sound', grows'⟩ := promoted_sound approvedBy receipt.1 produced
    exact ⟨sound', receipt.2.trans grows'⟩

end Transactions

/- Interleavings -/

inductive MaterialEntry where
  | register (form : RegistrationForm)
  | upsert (registration : Registration)
  | generate (approvedBy : String)
  | runJob (jobId : String)
  | stage
  | approve (revision approvedBy : String)
  | lifecycle (state : ContestState) (evidence : Bool)

section Protocol
variable (materialsDir tid : String)

def MaterialEntry.program : MaterialEntry → Material Unit
  | .register form => adminRegister materialsDir tid form
  | .upsert registration => call (.upsertContest registration)
  | .generate approvedBy => adminMaterialGenerate tid approvedBy
  | .runJob jobId => Materials.runJob tid jobId
  | .stage => do
    let _ ← stageManualArtifact materialsDir tid
  | .approve revision approvedBy => adminMaterialApprove materialsDir tid revision approvedBy
  | .lifecycle state evidence => call (.lifecycle state evidence)

def materialSystem : System MaterialCall MaterialAnswer Raised Raised MaterialChoice MaterialTables
    MaterialEntry where
  program := MaterialEntry.program materialsDir tid
  respond := MaterialTables.respond tid

/-- The jobs that a thread knows, with the sessions of their details. -/
abbrev KnownJobs : Type := List (String × String)

def learned (φ : KnownJobs) : (c : MaterialCall) → Except Raised (MaterialAnswer c) → KnownJobs
  | .artifactJob jobId, .ok (some job) =>
    (jobId, job.details.submissionSession) :: (job.jobId, job.details.submissionSession) :: φ
  | .startArtifactJob .., .ok job => (job.jobId, job.details.submissionSession) :: φ
  | _, _ => φ

/- Details are written for a known job under its session, and no row gets a reserved name. -/
def provenance : Protocol MaterialCall MaterialAnswer Raised MaterialEntry KnownJobs where
  idle := []
  initial _ := []
  permitted _ φ
    | .updateArtifactJob jobId _ _ _ _ (some details) => (jobId, details.submissionSession) ∈ φ
    | .putArtifactRevision _ _ _ (some (jobId, details)) => (jobId, details.submissionSession) ∈ φ
    | .putArtifactRevision revision _ _ none => ¬ Reserved revision
    | .startArtifactJob _ revision _ _ => ¬ Reserved revision
    | _ => True
  after _ := learned

section Threads
variable {materialsDir tid : String}

theorem subset_learned (φ : KnownJobs) (c : MaterialCall)
    (answer : Except Raised (MaterialAnswer c)) : φ ⊆ learned φ c answer := by
  unfold learned
  split
  · exact fun fact mem => List.mem_cons_of_mem _ (List.mem_cons_of_mem _ mem)
  · exact fun fact mem => List.mem_cons_of_mem _ mem
  · exact fun fact mem => mem

/-- Calls that ask nothing of the jobs that a thread knows. -/
def Ordinary : MaterialCall → Prop
  | .updateArtifactJob _ _ _ _ _ (some _) => False
  | .putArtifactRevision _ _ _ (some _) => False
  | .putArtifactRevision revision _ _ none => ¬ Reserved revision
  | .startArtifactJob _ revision _ _ => ¬ Reserved revision
  | _ => True

theorem permitted_of_ordinary {entry : MaterialEntry} {φ : KnownJobs} {c : MaterialCall}
    (ordinary : Ordinary c) : provenance.permitted entry φ c := by
  cases c
  case updateArtifactJob jobId state progress message error details =>
    cases details with
    | none => trivial
    | some details => cases ordinary
  case putArtifactRevision revision state content completed =>
    cases completed with
    | none => exact ordinary
    | some completed => cases ordinary
  case startArtifactJob => exact ordinary
  all_goals trivial

section Following
variable {entry : MaterialEntry} {φ facts : KnownJobs} {ε α : Type}

/- What a thread knows, it goes on knowing. -/
theorem ordinary_keeps {x : Program MaterialCall MaterialAnswer Raised ε α}
    (ordinary : Only Ordinary x) : Keeps (provenance.spec entry) (facts ⊆ ·) x :=
  ordinary.keeps (provenance.spec_monotone entry) fun c is φ known =>
    ⟨permitted_of_ordinary is, fun answer => List.Subset.trans known (subset_learned φ c answer)⟩

theorem ordinary_follows {x : Program MaterialCall MaterialAnswer Raised ε α}
    (ordinary : Only Ordinary x) : provenance.Follows entry (fun _ => True) φ x := by
  have kept : Keeps (provenance.spec entry) (([] : KnownJobs) ⊆ ·) x := ordinary_keeps ordinary
  exact (kept φ (List.nil_subset _)).mono (provenance.spec_monotone entry)
    (fun _ _ _ => trivial) fun _ _ _ => trivial

theorem ordinary_call {c : MaterialCall} (ordinary : Ordinary c) : Only Ordinary (call c) :=
  only_perform ordinary

theorem ordinary_raiseIf {bad : Prop} [Decidable bad] {error : ε} :
    Only Ordinary (Program.raiseIf bad error : Program MaterialCall MaterialAnswer Raised ε Unit) :=
  only_raiseIf

theorem manualRevision_free (digest : String) : ¬ Reserved (manualRevision digest) := by
  rintro (empty | legacy)
  · have chars := congrArg String.toList empty
    simp [manualRevision] at chars
  · have chars := congrArg String.toList legacy
    simp [manualRevision, MaterialTables.legacyManual] at chars

theorem jobRevision_free (timestamp jobId : String) : ¬ Reserved (jobRevision timestamp jobId) := by
  rintro (empty | legacy)
  · have chars := congrArg String.toList empty
    simp [jobRevision] at chars
  · have chars := congrArg String.toList legacy
    simp [jobRevision, MaterialTables.legacyManual] at chars

theorem stageManualArtifact_ordinary : Only Ordinary (stageManualArtifact materialsDir tid) := by
  unfold stageManualArtifact
  apply Only.bind (ordinary_call (by trivial))
  intro stored
  cases stored with
  | none => exact only_raise
  | some contest =>
    apply Only.bind ordinary_raiseIf
    intro _
    apply Only.bind ordinary_raiseIf
    intro _
    apply Only.bind (ordinary_call (by trivial))
    intro _
    apply Only.bind (ordinary_call (by exact manualRevision_free _))
    exact fun _ => ordinary_call (by trivial)

theorem publishAndApprove_ordinary (request : PublicationRequest) (approvedBy : String) :
    Only Ordinary (publishAndApprove request approvedBy) := by
  apply Only.bind (ordinary_call (by trivial))
  intro publication
  exact Only.bind ordinary_raiseIf fun _ => ordinary_call (by trivial)

theorem activateGeneratedArtifact_ordinary (revision approvedBy : String) :
    Only Ordinary (activateGeneratedArtifact tid revision approvedBy) := by
  apply Only.bind (ordinary_call (by trivial))
  intro artifact
  apply Only.bind (ordinary_call (by trivial))
  intro _
  apply Only.bind ordinary_raiseIf
  intro _
  exact Only.bind (ordinary_call (by trivial)) fun _ => publishAndApprove_ordinary _ _

theorem approveManualArtifact_ordinary (approvedBy expectedRevision : String) :
    Only Ordinary (approveManualArtifact materialsDir tid approvedBy expectedRevision) := by
  apply Only.bind stageManualArtifact_ordinary
  intro staged
  cases staged with
  | none => exact only_raise
  | some artifact =>
    apply Only.bind ordinary_raiseIf
    intro _
    apply Only.bind (ordinary_call (by trivial))
    intro stored
    cases stored with
    | none => exact only_raise
    | some contest => exact publishAndApprove_ordinary _ _

theorem adminMaterialApprove_ordinary (revision approvedBy : String) :
    Only Ordinary (adminMaterialApprove materialsDir tid revision approvedBy) := by
  apply Only.bind (ordinary_call (by trivial))
  intro _
  apply Only.bind (ordinary_call (by trivial))
  intro stored
  cases stored with
  | none => exact activateGeneratedArtifact_ordinary _ _
  | some contest =>
    apply Only.ite
    · exact Only.bind ordinary_raiseIf fun _ => approveManualArtifact_ordinary _ _
    · exact activateGeneratedArtifact_ordinary _ _

theorem checkForm_ordinary (form : RegistrationForm) (existing : Option Contest) :
    Only Ordinary (checkForm form existing) := by
  have rest : Only Ordinary (do
      httpIf (form.registration.materialsMode = "manual" ∧ form.paper = none ∧
        (existing.map (·.paperSha256)).getD "" = "") "首次登记比赛必须上传试题 PDF"
      outside .readUploads
      httpIf (form.testdata = none ∧ (existing.map (·.testdataSha256)).getD "" ≠ "" ∧
          existing.map (·.files) ≠ some form.registration.files)
        "题目文件名已变化，请重新选择与新题目匹配的测试数据 ZIP"
      if form.registration.materialsMode = "manual" ∧ existing ≠ none
      then outside .verifyReusableManualFiles
      else pure ()) := by
    apply Only.bind ordinary_raiseIf
    intro _
    apply Only.bind (ordinary_call (by trivial))
    intro _
    apply Only.bind ordinary_raiseIf
    exact fun _ => Only.ite (ordinary_call (by trivial)) only_pure
  unfold checkForm
  cases existing with
  | none => exact rest
  | some contest =>
    apply Only.bind ordinary_raiseIf
    intro _
    apply Only.bind (ordinary_call (by trivial))
    intro _
    exact Only.bind ordinary_raiseIf fun _ => rest

theorem adminRegister_ordinary (form : RegistrationForm) :
    Only Ordinary (adminRegister materialsDir tid form) := by
  have paper : Only Ordinary (savePaper form.paper) := by
    cases form.paper with
    | none => exact only_pure
    | some saved => exact Only.bind (ordinary_call (by trivial)) fun _ => ordinary_call (by trivial)
  have testdata : Only Ordinary (saveTestdata form.testdata) := by
    cases form.testdata with
    | none => exact only_pure
    | some saved => exact Only.bind (ordinary_call (by trivial)) fun _ => ordinary_call (by trivial)
  apply Only.bind (ordinary_call (by trivial))
  intro _
  apply Only.bind (ordinary_call (by trivial))
  intro existing
  apply Only.bind (checkForm_ordinary form existing)
  intro _
  apply Only.bind (ordinary_call (by trivial))
  intro _
  apply Only.bind (ordinary_call (by trivial))
  intro _
  apply Only.bind (Only.ite (ordinary_call (by trivial)) only_pure)
  intro _
  apply Only.bind paper
  intro _
  apply Only.bind testdata
  intro _
  exact Only.ite (stageManualArtifact_ordinary.bind fun _ => only_pure) only_pure

/- A part of a job under details of this session. -/
section Jobs
variable {session : String} {details : JobDetails}

theorem during_ends {part : Material α} (ordinary : Only Ordinary part) (known : facts ⊆ φ)
    (own : details.submissionSession = session) :
    Ends (provenance.spec entry) (during details part) φ (fun _ φ' => facts ⊆ φ')
      (fun failed φ' => facts ⊆ φ' ∧ failed.2.submissionSession = session) := by
  rw [during, ends_mapError]
  exact (ordinary_keeps ordinary φ known).mono (provenance.spec_monotone entry)
    (fun _ _ known => known) fun _ _ known => ⟨known, own⟩

theorem during_onward {part : Material α} {β : Type} {f : α → JobPart β}
    {post : β → KnownJobs → Prop} (ordinary : Only Ordinary part) (known : facts ⊆ φ)
    (own : details.submissionSession = session)
    (next : ∀ a φ', facts ⊆ φ' → Ends (provenance.spec entry) (f a) φ' post
      (fun failed φ' => facts ⊆ φ' ∧ failed.2.submissionSession = session)) :
    Ends (provenance.spec entry) (during details part >>= f) φ post
      (fun failed φ' => facts ⊆ φ' ∧ failed.2.submissionSession = session) :=
  (during_ends ordinary known own).bind (provenance.spec_monotone entry) next fun _ _ held => held

theorem save_onward {jobId message : String} {progress : Int} {β : Type} {f : Unit → JobPart β}
    {post : β → KnownJobs → Prop} (fact : (jobId, session) ∈ facts) (known : facts ⊆ φ)
    (own : details.submissionSession = session)
    (next : ∀ a φ', facts ⊆ φ' → Ends (provenance.spec entry) (f a) φ' post
      (fun failed φ' => facts ⊆ φ' ∧ failed.2.submissionSession = session)) :
    Ends (provenance.spec entry) (save jobId details progress message >>= f) φ post
      (fun failed φ' => facts ⊆ φ' ∧ failed.2.submissionSession = session) := by
  have saved : Ends (provenance.spec entry) (save jobId details progress message) φ
      (fun _ φ' => facts ⊆ φ')
      (fun failed φ' => facts ⊆ φ' ∧ failed.2.submissionSession = session) := by
    rw [save, during, ends_mapError]
    refine ⟨?_, fun answer => ?_⟩
    · change (jobId, details.submissionSession) ∈ φ
      rw [own]
      exact known fact
    · cases answer with
      | ok _ => exact known
      | error _ => exact ⟨known, own⟩
  exact saved.bind (provenance.spec_monotone entry) next fun _ _ held => held

theorem ofExcept_ordinary {result : Except Raised α} :
    Only Ordinary (Program.ofExcept result : Material α) := only_ofExcept

theorem jobContest_ends (known : facts ⊆ φ) (own : details.submissionSession = session) :
    Ends (provenance.spec entry) (jobContest details) φ (fun _ φ' => facts ⊆ φ')
      (fun failed φ' => facts ⊆ φ' ∧ failed.2.submissionSession = session) := by
  apply during_ends _ known own
  apply Only.bind (ordinary_call (by trivial))
  intro stored
  cases stored with
  | none => exact only_raise
  | some contest =>
    apply Only.bind ordinary_raiseIf
    intro _
    apply Only.bind ordinary_raiseIf
    intro _
    exact Only.bind ordinary_raiseIf fun _ => only_pure

theorem preflightStage_ends {jobId : String} (fact : (jobId, session) ∈ facts) (known : facts ⊆ φ)
    (own : details.submissionSession = session) :
    Ends (provenance.spec entry) (preflightStage jobId details) φ
      (fun details φ' => facts ⊆ φ' ∧ details.submissionSession = session)
      (fun failed φ' => facts ⊆ φ' ∧ failed.2.submissionSession = session) := by
  unfold preflightStage
  dsimp only
  apply save_onward fact known (by exact own)
  intro _ φ known
  have read : Ends (provenance.spec entry) (withPreflight { details with stage := "preflight" }) φ
      (fun details φ' => facts ⊆ φ' ∧ details.submissionSession = session)
      (fun failed φ' => facts ⊆ φ' ∧ failed.2.submissionSession = session) := by
    unfold withPreflight
    dsimp only
    cases details.preflight with
    | some preflight => exact ⟨known, own⟩
    | none =>
      exact during_onward (ordinary_call (by trivial)) known (by exact own) fun _ φ known => ⟨known, own⟩
  refine read.bind (provenance.spec_monotone entry) (fun details φ held => ?_) fun _ _ held => held
  obtain ⟨known, own⟩ := held
  apply during_onward (ordinary_call (by trivial)) known (by exact own)
  intro _ φ known
  apply during_onward (ordinary_call (by trivial)) known (by exact own)
  intro _ φ known
  exact save_onward fact known (by exact own) fun _ φ known => ⟨known, own⟩

theorem cloneStage_ends {jobId : String} (contest : Contest) (fact : (jobId, session) ∈ facts)
    (known : facts ⊆ φ) (own : details.submissionSession = session) :
    Ends (provenance.spec entry) (cloneStage tid jobId contest details) φ
      (fun details φ' => facts ⊆ φ' ∧ details.submissionSession = session)
      (fun failed φ' => facts ⊆ φ' ∧ failed.2.submissionSession = session) := by
  unfold cloneStage
  apply during_onward ordinary_raiseIf known (by exact own)
  intro _ φ known
  apply save_onward fact known (by exact own)
  intro _ φ known
  dsimp only
  cases details.apply with
  | some applied => exact ⟨known, own⟩
  | none =>
    apply during_onward ofExcept_ordinary known (by exact own)
    intro current φ known
    apply during_onward ordinary_raiseIf known (by exact own)
    intro _ φ known
    exact during_onward (ordinary_call (by trivial)) known (by exact own) fun _ φ known => ⟨known, own⟩

theorem bindStage_ends {jobId : String} (contest : Contest) (fact : (jobId, session) ∈ facts)
    (known : facts ⊆ φ) (own : details.submissionSession = session) :
    Ends (provenance.spec entry) (bindStage jobId contest details) φ
      (fun details φ' => facts ⊆ φ' ∧ details.submissionSession = session)
      (fun failed φ' => facts ⊆ φ' ∧ failed.2.submissionSession = session) := by
  unfold bindStage
  apply during_onward (ordinary_call (by trivial)) known (by exact own)
  intro validated φ known
  apply during_onward ofExcept_ordinary known (by exact own)
  intro current φ known
  apply during_onward ordinary_raiseIf known (by exact own)
  intro _ φ known
  apply save_onward fact known (by exact own)
  intro _ φ known
  exact during_onward (ordinary_call (by trivial)) known (by exact own) fun _ φ known => ⟨known, own⟩

theorem generateStage_ends {job : ArtifactJob} (fact : (job.jobId, session) ∈ facts)
    (known : facts ⊆ φ) (own : details.submissionSession = session) :
    Ends (provenance.spec entry) (generateStage job details) φ (fun _ φ' => facts ⊆ φ')
      (fun failed φ' => facts ⊆ φ' ∧ failed.2.submissionSession = session) := by
  unfold generateStage
  apply during_onward (ordinary_call (by trivial)) known (by exact own)
  intro _ φ known
  apply save_onward fact known (by exact own)
  intro _ φ known
  apply during_onward (ordinary_call (by trivial)) known (by exact own)
  intro release φ known
  rw [during, ends_mapError]
  refine ⟨?_, fun answer => ?_⟩
  · change (job.jobId, details.submissionSession) ∈ φ
    rw [own]
    exact known fact
  · cases answer with
    | ok _ => exact known
    | error _ => exact ⟨known, own⟩

theorem jobBody_ends {job : ArtifactJob} (fact : (job.jobId, session) ∈ facts)
    (known : facts ⊆ φ) (own : job.details.submissionSession = session) :
    Ends (provenance.spec entry) (jobBody tid job) φ (fun _ φ' => facts ⊆ φ')
      (fun failed φ' => facts ⊆ φ' ∧ failed.2.submissionSession = session) := by
  have monotone := provenance.spec_monotone entry
  unfold jobBody
  apply Ends.bind monotone (jobContest_ends known own) _ fun _ _ held => held
  intro contest φ known
  apply Ends.bind monotone (preflightStage_ends fact known own) _ fun _ _ held => held
  intro details φ held
  apply Ends.bind monotone (cloneStage_ends contest fact held.1 held.2) _ fun _ _ held => held
  intro details φ held
  apply Ends.bind monotone (bindStage_ends contest fact held.1 held.2) _ fun _ _ held => held
  intro details φ held
  exact generateStage_ends fact held.1 held.2

theorem jobFailed_follows {jobId : String} {error : Raised}
    (known : (jobId, details.submissionSession) ∈ φ) :
    provenance.Follows entry (fun _ => True) φ (jobFailed jobId error details) := by
  unfold Protocol.Follows jobFailed
  rw [ends_orElse, ends_bind]
  refine ⟨trivial, fun answer => ?_⟩
  match answer with
  | .error raised => exact trivial
  | .ok none => exact trivial
  | .ok (some current) =>
    have still : (jobId, details.submissionSession) ∈
        learned φ (.artifactJob jobId) (.ok (some current)) := subset_learned _ _ _ known
    change Ends (provenance.spec entry) (if current.state.active = true then _ else pure ()) _ _ _
    rw [ends_ite]
    refine ⟨fun _ => ⟨still, fun answer => ?_⟩, fun _ => trivial⟩
    cases answer <;> trivial

theorem runJob_follows (jobId : String) :
    provenance.Follows entry (fun _ => True) φ (runJob tid jobId) := by
  unfold Protocol.Follows runJob
  rw [ends_bind]
  refine ⟨trivial, fun answer => ?_⟩
  match answer with
  | .error raised => exact trivial
  | .ok none => exact trivial
  | .ok (some job) =>
    change Ends (provenance.spec entry) (if job.state.active = false then pure () else _) _ _ _
    rw [ends_ite]
    refine ⟨fun _ => trivial, fun _ => ?_⟩
    rw [ends_orElse]
    -- the handler names the job by the id it was asked for, the body by the stored one
    let own : KnownJobs :=
      [(jobId, job.details.submissionSession), (job.jobId, job.details.submissionSession)]
    have body : Ends (provenance.spec entry) (jobBody tid job)
        (learned φ (.artifactJob jobId) (.ok (some job))) (fun _ φ' => own ⊆ φ')
        (fun failed φ' => own ⊆ φ' ∧ failed.2.submissionSession = job.details.submissionSession) :=
      jobBody_ends (by simp [own]) (by simp [own, learned]) rfl
    apply body.mono (provenance.spec_monotone entry)
    · exact fun _ _ _ => trivial
    · intro failed φ' held
      apply jobFailed_follows
      rw [held.2]
      exact held.1 (by simp [own])

theorem startJob_ends (approvedBy : String) :
    Ends (provenance.spec entry) (startJob tid approvedBy) φ
      (fun job φ' => (job.jobId, job.details.submissionSession) ∈ φ') fun _ _ => True := by
  have quiet {β : Type} {part : Material β} {f : β → Material ArtifactJob} {φ : KnownJobs}
      (ordinary : Only Ordinary part)
      (next : ∀ b φ', Ends (provenance.spec entry) (f b) φ'
        (fun job φ' => (job.jobId, job.details.submissionSession) ∈ φ') fun _ _ => True) :
      Ends (provenance.spec entry) (part >>= f) φ
        (fun job φ' => (job.jobId, job.details.submissionSession) ∈ φ') fun _ _ => True :=
    Ends.bind (provenance.spec_monotone entry) (ordinary_follows ordinary)
      (fun b φ' _ => next b φ') fun _ _ _ => trivial
  unfold startJob
  generalize PyText.strip approvedBy = teacher
  apply quiet (ordinary_call (by trivial))
  intro stored φ
  cases stored with
  | none => exact trivial
  | some contest =>
    apply quiet ordinary_raiseIf
    intro _ φ
    apply quiet ofExcept_ordinary
    intro requested φ
    apply quiet ordinary_raiseIf
    intro _ φ
    apply quiet ordinary_raiseIf
    intro _ φ
    apply quiet (ordinary_call (by trivial))
    intro names φ
    apply quiet (ordinary_call (by trivial))
    intro previous φ
    apply quiet ordinary_raiseIf
    intro _ φ
    refine ⟨jobRevision_free _ _, fun answer => ?_⟩
    cases answer with
    | ok job => exact List.mem_cons_self
    | error _ => exact trivial

theorem adminMaterialGenerate_follows (approvedBy : String) :
    provenance.Follows entry (fun _ => True) φ (adminMaterialGenerate tid approvedBy) := by
  have monotone := provenance.spec_monotone entry
  apply Ends.bind monotone (ordinary_follows (ordinary_call (by trivial))) _ fun _ _ _ => trivial
  intro _ φ _
  apply Ends.bind monotone (startJob_ends approvedBy) _ fun _ _ _ => trivial
  intro job φ known
  rw [ends_bind, ends_orElse]
  refine ⟨trivial, fun answer => ?_⟩
  cases answer with
  | ok _ => exact runJob_follows job.jobId
  | error _ =>
    -- the request fails, after it has tried to close the job under the job's own details
    change Ends (provenance.spec entry) (_ >>= _) _ _ _
    rw [ends_bind, ends_orElse]
    refine ⟨known, fun answer => ?_⟩
    cases answer <;> trivial

end Jobs

theorem entry_follows (entry : MaterialEntry) :
    provenance.Follows entry (fun _ => True) (provenance.initial entry)
      ((materialSystem materialsDir tid).program entry) := by
  cases entry with
  | register form => exact ordinary_follows (adminRegister_ordinary form)
  | upsert registration => exact ordinary_follows (ordinary_call (by trivial))
  | generate approvedBy => exact adminMaterialGenerate_follows approvedBy
  | runJob jobId => exact runJob_follows jobId
  | stage => exact ordinary_follows (stageManualArtifact_ordinary.bind fun _ => only_pure)
  | approve revision approvedBy =>
    exact ordinary_follows (adminMaterialApprove_ordinary revision approvedBy)
  | lifecycle state evidence => exact ordinary_follows (ordinary_call (by trivial))

end Following

/-- The jobs that a thread knows are stored, with these sessions. -/
def Informed (m : MaterialTables) (phases : Nat → KnownJobs) : Prop :=
  ∀ i, ∀ fact ∈ phases i, Known m fact

def Provenance (m : MaterialTables) (phases : Nat → KnownJobs) : Prop :=
  Sound m ∧ Informed m phases

/-- An approval that goes through is of a revision of the current registration. -/
def ApprovesOwn (tid : String) (_ : MaterialEntry) :
    MaterialCall → MaterialChoice → MaterialTables → Prop
  | .approveArtifactWithPublication revision approvedBy publication, choice, m =>
    choice.raises = none →
      (m.approveArtifact tid revision approvedBy (some publication)).isOk = true →
      ∀ contest ∈ m.contest, ProducedUnder m revision contest.submissionSession
  | _, _, _ => True

/- The origin is looked at first, it takes no digests. -/
instance (tid : String) (entry : MaterialEntry) (c : MaterialCall) (choice : MaterialChoice)
    (m : MaterialTables) : Decidable (ApprovesOwn tid entry c choice m) := by
  cases c
  case approveArtifactWithPublication revision approvedBy publication =>
    exact if own : ∀ contest ∈ m.contest, ProducedUnder m revision contest.submissionSession
      then isTrue fun _ _ => own
      else decidable_of_iff (choice.raises = none →
        (m.approveArtifact tid revision approvedBy (some publication)).isOk = true →
        ∀ contest ∈ m.contest, ProducedUnder m revision contest.submissionSession) Iff.rfl
  all_goals exact isTrue trivial

section Steps
variable {m : MaterialTables} {entry : MaterialEntry} {φ : KnownJobs} {choice : MaterialChoice}

theorem written_sound {result : Except StoreError MaterialTables} (sound : Sound m)
    (keeps : ∀ m', result = .ok m' → Sound m' ∧ Grows m m') :
    Sound (m.written result).2 ∧ Grows m (m.written result).2 := by
  cases result with
  | ok m' => exact keeps m' rfl
  | error e => exact ⟨sound, Grows.refl m⟩

theorem publish_sound (sound : Sound m) (request : PublicationRequest) (choice : MaterialChoice) :
    Sound (publish m request choice).2 ∧ Grows m (publish m request choice).2 := by
  unfold publish
  dsimp only
  split
  · exact ⟨⟨sound.active, sound.rows, sound.jobs, sound.receipts, sound.ids⟩,
      Grows.of_same rfl rfl⟩
  · exact ⟨sound, Grows.refl m⟩

theorem broken_sound (sound : Sound m) (c : MaterialCall) :
    Sound (m.broken choice c) ∧ Grows m (m.broken choice c) := by
  unfold MaterialTables.broken
  split
  · exact publish_sound sound _ _
  · exact ⟨sound, Grows.refl m⟩

theorem lifecycle_sound (sound : Sound m) (state : ContestState) (evidence : Bool) :
    Sound { m with contest := m.contest.map ({ · with state }), evidence } ∧
      Grows m { m with contest := m.contest.map ({ · with state }), evidence } := by
  refine ⟨⟨?_, sound.rows, sound.jobs, sound.receipts, sound.ids⟩, Grows.of_same rfl rfl⟩
  intro contest is
  obtain ⟨old, stored, rfl⟩ := Option.map_eq_some_iff.mp is
  exact sound.active old stored

/- What one call does to the rows, and what its thread learns. -/
theorem perform_sound {c : MaterialCall} (sound : Sound m)
    (known : ∀ fact ∈ φ, Known m fact) (permitted : provenance.permitted entry φ c)
    (own : ApprovesOwn tid entry c choice m) (calm : choice.raises = none) :
    Sound (m.perform tid choice c).2 ∧ Grows m (m.perform tid choice c).2 ∧
      ∀ fact ∈ learned φ c (m.perform tid choice c).1, Known (m.perform tid choice c).2 fact := by
  have quiet {m' : MaterialTables} (held : Sound m' ∧ Grows m m') :
      Sound m' ∧ Grows m m' ∧ ∀ fact ∈ φ, Known m' fact :=
    ⟨held.1, held.2, fun fact mem => (known fact mem).grow held.2⟩
  have unchanged : Sound m ∧ Grows m m ∧ ∀ fact ∈ φ, Known m fact := quiet ⟨sound, Grows.refl m⟩
  cases c
  case upsertContest registration =>
    exact quiet (written_sound sound fun _ done => upsertContest_sound sound done)
  case clearMaterialSelection =>
    exact quiet (written_sound sound fun _ done => clearMaterialSelection_sound sound done)
  case setPaper => exact quiet (written_sound sound fun _ done => setPaper_sound sound done)
  case setTestdata => exact quiet (written_sound sound fun _ done => setTestdata_sound sound done)
  case putArtifactRevision revision state content completed =>
    refine quiet (written_sound sound fun _ done => putArtifactRevision_sound sound ?_ ?_ done)
    · rintro rfl
      exact permitted
    · rintro pair rfl
      exact known _ permitted
  case approveArtifactWithPublication revision approvedBy publication =>
    refine quiet (written_sound sound fun m' done => approveArtifact_sound sound ?_ done)
    exact own calm (by rw [done]; rfl)
  case updateArtifactJob jobId state progress message error details =>
    refine quiet (written_sound sound fun _ done => updateArtifactJob_sound sound ?_ done)
    rintro d rfl
    exact known _ permitted
  case artifactApprovalCandidate revision =>
    simp only [MaterialTables.perform]
    split <;> exact unchanged
  case artifactJob jobId =>
    refine ⟨sound, Grows.refl m, ?_⟩
    simp only [MaterialTables.perform]
    cases found : m.job? jobId with
    | none => exact known
    | some job =>
      obtain ⟨mem, isId⟩ := job?_mem found
      intro fact memFact
      rcases List.mem_cons.mp memFact with rfl | memFact
      · exact ⟨job, mem, isId, rfl⟩
      · rcases List.mem_cons.mp memFact with rfl | memFact
        · exact ⟨job, mem, rfl, rfl⟩
        · exact known fact memFact
  case startArtifactJob jobId revision details message =>
    simp only [MaterialTables.perform, MaterialTables.answered]
    cases done : m.startArtifactJob tid jobId revision details message with
    | error e => exact unchanged
    | ok started =>
      obtain ⟨sound', grows, is⟩ := startArtifactJob_sound sound permitted done
      refine ⟨sound', grows, fun fact memFact => ?_⟩
      rcases List.mem_cons.mp memFact with rfl | memFact
      · exact is
      · exact (known fact memFact).grow grows
  case replaceContestPidMap session pidMap =>
    simp only [MaterialTables.perform, MaterialTables.answered]
    cases done : m.replaceContestPidMap tid session pidMap with
    | error e => exact unchanged
    | ok replaced => exact quiet (replaceContestPidMap_sound sound done)
  case publish request => exact quiet (publish_sound sound request choice)
  case lifecycle state evidence => exact quiet (lifecycle_sound sound state evidence)
  all_goals exact unchanged

theorem respond_sound {c : MaterialCall} (sound : Sound m) (known : ∀ fact ∈ φ, Known m fact)
    (permitted : provenance.permitted entry φ c) (own : ApprovesOwn tid entry c choice m) :
    Sound (MaterialTables.respond tid c choice m).2 ∧
      Grows m (MaterialTables.respond tid c choice m).2 ∧
      ∀ fact ∈ learned φ c (MaterialTables.respond tid c choice m).1,
        Known (MaterialTables.respond tid c choice m).2 fact := by
  unfold MaterialTables.respond
  cases raised : choice.raises with
  | none => exact perform_sound sound known permitted own raised
  | some error =>
    obtain ⟨sound', grows⟩ : Sound (m.broken choice c) ∧ Grows m (m.broken choice c) :=
      broken_sound sound c
    have same : learned φ c (.error error) = φ := by cases c <;> rfl
    refine ⟨sound', grows, fun fact mem => ?_⟩
    dsimp only at mem
    rw [same] at mem
    exact (known fact mem).grow grows

theorem call_keeps (m : MaterialTables) (phases : Nat → KnownJobs) (i : Nat)
    (entry : MaterialEntry) (c : MaterialCall) (choice : MaterialChoice)
    (held : Provenance m phases) (permitted : provenance.permitted entry (phases i) c)
    (_ : (materialSystem materialsDir tid).waits c m = false)
    (own : ApprovesOwn tid entry c choice m) :
    Provenance ((materialSystem materialsDir tid).respond c choice m).2
      (Function.update phases i (provenance.after entry (phases i) c
        ((materialSystem materialsDir tid).respond c choice m).1)) := by
  obtain ⟨sound, informed⟩ := held
  obtain ⟨sound', grows, learns⟩ := respond_sound sound (informed i) permitted own
  refine ⟨sound', fun j fact mem => ?_⟩
  by_cases same : j = i
  · subst same
    rw [Function.update_self] at mem
    exact learns fact mem
  · rw [Function.update_of_ne same] at mem
    exact (informed j fact mem).grow grows

theorem start_keeps (m : MaterialTables) (phases : Nat → KnownJobs) (i : Nat)
    (entry : MaterialEntry) (held : Provenance m phases) (_ : phases i = provenance.idle) :
    Provenance m (Function.update phases i (provenance.initial entry)) := by
  refine ⟨held.1, fun j fact mem => ?_⟩
  by_cases same : j = i
  · subst same
    rw [Function.update_self] at mem
    cases mem
  · rw [Function.update_of_ne same] at mem
    exact held.2 j fact mem

end Steps

theorem empty_sound : Sound {} where
  active := by
    intro contest stored
    cases stored
  rows := by simp
  jobs := by simp
  receipts := by simp
  ids := List.nodup_nil

theorem reached_sound {schedule : List (Schedule MaterialEntry MaterialChoice)}
    (approvals : Runs.Guarded (materialSystem materialsDir tid).advance
      ((materialSystem materialsDir tid).Meets (ApprovesOwn tid)) ⟨{}, []⟩ schedule) :
    Sound (Runs.run (materialSystem materialsDir tid).advance ⟨{}, []⟩ schedule).state := by
  have idle : Provenance {} fun _ => provenance.idle :=
    ⟨empty_sound, fun i fact mem => by cases mem⟩
  obtain ⟨_, _, sound, _⟩ := Protocol.run_keeps entry_follows start_keeps call_keeps
    ⟨_, Protocol.agree_none {}, idle⟩ approvals
  exact sound

end Threads

/- In an interleaving from an empty database, approved material with a receipt comes from the
   current registration, as long as every approval that goes through is of such a revision. -/
theorem approved_material_is_own {schedule : List (Schedule MaterialEntry MaterialChoice)}
    (approvals : Runs.Guarded (materialSystem materialsDir tid).advance
      ((materialSystem materialsDir tid).Meets (ApprovesOwn tid)) ⟨{}, []⟩ schedule) :
    let m := (Runs.run (materialSystem materialsDir tid).advance ⟨{}, []⟩ schedule).state
    ∀ contest, m.contest = some contest → contest.materialState = "approved" →
      m.publication? contest.activeMaterialRevision ≠ none →
      ProducedUnder m contest.activeMaterialRevision contest.submissionSession := by
  intro m contest stored _ published
  have sound : Sound m := reached_sound approvals
  obtain ⟨publication, found⟩ := Option.ne_none_iff_exists'.mp published
  have free : ¬ Reserved contest.activeMaterialRevision := by
    have named : publication.receipt.revision = contest.activeMaterialRevision := by
      simpa using List.find?_some found
    rw [← named]
    exact sound.receipts publication (List.mem_of_find?_eq_some found)
  exact (sound.active contest stored).resolve_left free

section Approving
variable {tid materialsDir revision : String} {m : MaterialTables} {contest : Contest}
  {row : ArtifactRevision} {choices : Nat → MaterialChoice}

open MaterialTables

theorem isSha256_ofText (text : String) : isSha256 (Sha256.ofText text) := by
  have digit : ∀ n < 16, PyText.isLowerHex (Sha256.hexDigit n) = true := by decide
  simp only [isSha256, PyText.isLowerHexOf, Sha256.ofText, Sha256.hexdigest_length,
    Bool.and_eq_true, beq_self_eq_true, true_and, List.all_eq_true]
  intro c mem
  obtain ⟨n, small, rfl⟩ := Sha256.hexdigest_digit mem
  exact digit n small

/- A publication that the OJ acknowledges for the row's own bytes passes every check. -/
theorem acknowledged_validates (request : PublicationRequest) (content : RevisionContent) :
    validateMaterialPublication (publicationOf request (deliveredAttachments content) true)
      request.tid request.revision content =
      .ok (publicationOf request (deliveredAttachments content) true) := by
  have lower : request.tid.toLower.toLower = request.tid.toLower :=
    Std.Http.Internal.IsLowerCase.isLowerCase_toLower
  have id : isSha256 (publicationId request.tid.toLower request.revision
      (deliveredAttachments content)) := isSha256_ofText _
  have receipt (value : JsonText.Json) : isSha256 (canonicalJsonSha256 value) := isSha256_ofText _
  simp [validateMaterialPublication, publicationOf, id, receipt, lower, Outcome.raiseIf]

/-- A row whose every part is there, which is the first to be published. -/
structure Approvable (m : MaterialTables) (contest : Contest) (row : ArtifactRevision) : Prop where
  stored : m.contest = some contest
  may : MayChangeMaterials contest
  found : m.revision? row.revision = some row
  review : row.state = .review
  complete : ¬ (row.content.manifestSha256 = "" ∨ row.content.paperSha256 = "" ∨
    row.content.testdataSha256 = "" ∨ row.content.paperSize ≤ 0 ∨ row.content.testdataSize ≤ 0)
  first : m.publications = []

theorem Approvable.approvable_ok (ready : Approvable m contest row) :
    approvable contest row.revision (some row) = .ok row := by
  simp [approvable, ready.may, ready.review, Outcome.raiseIf]

theorem approveArtifact_acknowledged (ready : Approvable m contest row)
    (request : PublicationRequest) (named : request.revision = row.revision) (approvedBy : String) :
    let publication := publicationOf request (deliveredAttachments row.content) true
    m.approveArtifact request.tid row.revision approvedBy (some publication) =
      .ok ({ m with publications := [publication] }.promoted contest row approvedBy) := by
  intro publication
  have kept : m.storePublication publication = .ok { m with publications := [publication] } := by
    simp [storePublication, publication?, ready.first]
  have validated : validateMaterialPublication publication request.tid row.revision
      row.content = .ok publication := named ▸ acknowledged_validates request row.content
  simp only [approveArtifact, ready.stored, ready.found, ready.approvable_ok, Outcome.ok_bind,
    Outcome.raiseIf_neg ready.complete, validated, kept, ready.review]
  rfl

theorem exec_publishAndApprove (tid : String) (m : MaterialTables) (request : PublicationRequest)
    (approvedBy : String)
    (calm : ∀ n, (choices n).raises = none) (acknowledged : (choices 0).acknowledged = true) :
    let attachments :=
      publicationAttachments request (choices 0).paperSize (choices 0).testdataSize
    let published := { m with marker := some ⟨request.revision, attachments⟩ }
    ((publishAndApprove request approvedBy).exec (respond tid) choices m).2 =
      (published.written (published.approveArtifact tid request.revision approvedBy
        (some (publicationOf request attachments true)))).2 := by
  intro attachments published
  simp [publishAndApprove, publishMaterials, call, exec_bind, respond, calm, perform, publish,
    acknowledged, raiseIf, Program.raiseIf, publicationOf]
  rfl

theorem exec_activateGeneratedArtifact (approvedBy : String)
    (calm : ∀ n, (choices n).raises = none) (ready : Approvable m contest row) :
    (activateGeneratedArtifact tid row.revision approvedBy).exec (respond tid) choices m =
      (publishAndApprove ⟨tid, row.revision, row.content.paperSha256, row.content.testdataSha256⟩
        approvedBy).exec (respond tid) (fun n => choices (n + 3)) m := by
  have complete := ready.complete
  simp only [not_or] at complete
  have candidate : m.artifactApprovalCandidate tid row.revision = .ok row := by
    simp [MaterialTables.artifactApprovalCandidate, ready.stored, ready.found,
      ready.approvable_ok, complete, Outcome.raiseIf]
  simp [activateGeneratedArtifact, Materials.artifactApprovalCandidate, outside, call, exec_bind,
    respond, calm, perform, candidate, complete, raiseIf, Program.raiseIf]

/- An approval of a generated revision that the OJ acknowledges goes through. -/
theorem exec_adminMaterialApprove (tid materialsDir approvedBy : String)
    (calm : ∀ n, (choices n).raises = none) (ready : Approvable m contest row)
    (generated : contest.materialsMode ≠ "manual")
    (acknowledged : (choices 5).acknowledged = true)
    (paperSize : (choices 5).paperSize = row.content.paperSize)
    (testdataSize : (choices 5).testdataSize = row.content.testdataSize) :
    let request : PublicationRequest :=
      ⟨tid, row.revision, row.content.paperSha256, row.content.testdataSha256⟩
    ((adminMaterialApprove materialsDir tid row.revision approvedBy).exec (respond tid)
        choices m).2 =
      { m with
        marker := some ⟨row.revision, deliveredAttachments row.content⟩
        publications := [publicationOf request (deliveredAttachments row.content) true]
      }.promoted contest row approvedBy := by
  intro request
  have activated : (adminMaterialApprove materialsDir tid row.revision approvedBy).exec
      (respond tid) choices m =
      (activateGeneratedArtifact tid row.revision approvedBy).exec (respond tid)
        (fun n => choices (n + 2)) m := by
    simp [adminMaterialApprove, outside, getContest, call, exec_bind, respond, calm, perform,
      ready.stored, generated]
  have delivered : publicationAttachments request (choices 5).paperSize (choices 5).testdataSize =
      deliveredAttachments row.content := by
    rw [paperSize, testdataSize]
    rfl
  let published := { m with marker := some ⟨row.revision, deliveredAttachments row.content⟩ }
  have ready' : Approvable published contest row :=
    ⟨ready.stored, ready.may, ready.found, ready.review, ready.complete, ready.first⟩
  have ended := exec_publishAndApprove tid m request approvedBy (fun n => calm (n + 5)) acknowledged
  simp only [delivered] at ended
  rw [activated, exec_activateGeneratedArtifact approvedBy (fun n => calm _) ready]
  refine ended.trans ?_
  have approved := approveArtifact_acknowledged ready' request rfl approvedBy
  dsimp only at approved ⊢
  rw [show request.revision = row.revision from rfl, show tid = request.tid from rfl, approved]
  rfl

end Approving

section Examples

def someTid : String := "0123456789abcdef01234567"

def firstSession : String := "11111111111111111111111111111111"
def secondSession : String := "22222222222222222222222222222222"

def byGeneration : RegistrationForm where
  registration :=
    { tid := someTid, files := ["apples"], pids := [("apples", "P1000")], materialsMode := "ai" }

def generatedContent : RevisionContent :=
  { sourceSha256 := "cc", rootPath := "/artifacts", manifestSha256 := "dd"
    manifest := .generated "files", paperSha256 := "aa", paperSize := 10
    testdataSha256 := "bb", testdataSize := 20 }

def someJobId : String := "0123456789abcdef0123456789abcdef"

def environment (session : String) (_ : Nat) : MaterialChoice :=
  { session, job := (someJobId, "20250101"), text := "applied"
    clones := ([("apples", "P1001")], []), content := generatedContent
    paperSize := 10, testdataSize := 20 }

def generatedRevision : String := jobRevision "20250101" someJobId

abbrev Procedures : Type := List (MaterialEntry × (Nat → MaterialChoice))

def registration (session : String) : Procedures :=
  [(.register byGeneration, environment session)]

def generation (session : String) : Procedures := [(.generate "teacher", environment session)]

def approval (session : String) : Procedures :=
  [(.approve generatedRevision "teacher", environment session)]

abbrev someSystem : System MaterialCall MaterialAnswer Raised Raised MaterialChoice MaterialTables
    MaterialEntry := materialSystem "/materials" someTid

def someContest (session problem materialState : String) : Contest :=
  { tid := someTid, files := ["apples"], pids := some [("apples", problem)]
    submissionMode := "both", submissionSession := session, materialsMode := "ai"
    hydroRule := "oi", materialState := materialState, maxParticipants := 0 }

def generatedJob : ArtifactJob where
  jobId := someJobId
  revision := generatedRevision
  state := .done
  progress := 100
  message := "材料已生成，等待教师审核 PDF 与机器报告"
  details :=
    { submissionSession := firstSession, requestedProblems := [("apples", "P1000")]
      approvedBy := "teacher"
      approvalId := approvalId someTid firstSession someJobId "teacher"
      stage := "review", preflight := some "applied"
      operationId := some (operationId someTid "applied"
        (approvalId someTid firstSession someJobId "teacher"))
      apply := some "applied" }

def generatedRow : ArtifactRevision where
  revision := generatedRevision
  state := .review
  content := generatedContent

def generatedTables : MaterialTables where
  contest := some (someContest firstSession "P1001" "review")
  revisions := [generatedRow]
  jobs := [generatedJob]

def approvedTables (contest : Contest) : MaterialTables :=
  let request : PublicationRequest :=
    ⟨someTid, generatedRow.revision, generatedRow.content.paperSha256,
      generatedRow.content.testdataSha256⟩
  let attachments := MaterialTables.deliveredAttachments generatedRow.content
  { generatedTables with
    contest := some contest
    marker := some ⟨generatedRow.revision, attachments⟩
    publications := [publicationOf request attachments true]
  }.promoted contest generatedRow "teacher"

theorem someSystem_free (c : MaterialCall) (m : MaterialTables) :
    someSystem.waits c m = false := rfl

theorem registration_outcome :
    someSystem.outcome (registration firstSession) {} =
      { contest := some (someContest firstSession "P1000" "pending") } := by
  decide +kernel

theorem generation_outcome :
    someSystem.outcome (generation firstSession)
      { contest := some (someContest firstSession "P1000" "pending") } = generatedTables := by
  rfl

theorem registration_again_outcome :
    someSystem.outcome (registration secondSession) generatedTables =
      { generatedTables with
        contest := some (someContest secondSession "P1000" "pending") } := by
  rfl

theorem generatedRow_approvable (session problem materialState : String) :
    Approvable { generatedTables with
        contest := some (someContest session problem materialState) }
      (someContest session problem materialState) generatedRow := by
  have found : generatedTables.revision? generatedRow.revision = some generatedRow := by
    decide +kernel
  exact ⟨rfl, .inl rfl, found, rfl, by decide, rfl⟩

theorem approval_outcome (session problem materialState later : String) :
    someSystem.outcome (approval later)
      { generatedTables with contest := some (someContest session problem materialState) } =
      approvedTables (someContest session problem materialState) := by
  have ready := generatedRow_approvable session problem materialState
  have other : (someContest session problem materialState).materialsMode ≠ "manual" := by
    simp [someContest]
  have calm : ∀ n, (environment later n).raises = none := fun _ => rfl
  have ended := exec_adminMaterialApprove someTid "/materials" "teacher" calm ready other rfl rfl rfl
  rw [approval, System.outcome, System.outcome, approvedTables]
  exact ended

def ownProcedures : Procedures :=
  registration firstSession ++ (generation firstSession ++ approval firstSession)

/- The contest is registered again before the approval. -/
def staleProcedures : Procedures :=
  registration firstSession ++
    (generation firstSession ++ (registration secondSession ++ approval secondSession))

theorem ownProcedures_obey :
    someSystem.AllObey (ApprovesOwn someTid) ownProcedures {} := by
  rw [ownProcedures, System.allObey_append, System.allObey_append, registration_outcome,
    generation_outcome]
  decide +kernel

theorem ownProcedures_outcome : someSystem.outcome ownProcedures {} =
    approvedTables (someContest firstSession "P1001" "review") := by
  rw [ownProcedures, System.outcome_append, System.outcome_append, registration_outcome,
    generation_outcome]
  exact approval_outcome _ _ _ _

theorem staleProcedures_outcome : someSystem.outcome staleProcedures {} =
    approvedTables (someContest secondSession "P1000" "pending") := by
  rw [staleProcedures, System.outcome_append, System.outcome_append, System.outcome_append,
    registration_outcome, generation_outcome, registration_again_outcome]
  exact approval_outcome _ _ _ _

theorem procedures_run (procedures : Procedures) :
    (Runs.run someSystem.advance ⟨{}, []⟩ (someSystem.inTurn 0 procedures {})).state =
        someSystem.outcome procedures {} ∧
      (Runs.Guarded someSystem.advance (someSystem.Meets (ApprovesOwn someTid)) ⟨{}, []⟩
          (someSystem.inTurn 0 procedures {}) ↔
        someSystem.AllObey (ApprovesOwn someTid) procedures {}) :=
  System.run_inTurn (ApprovesOwn someTid) someSystem_free procedures ⟨{}, []⟩

theorem generated_material_is_own :
    let m := (Runs.run someSystem.advance ⟨{}, []⟩ (someSystem.inTurn 0 ownProcedures {})).state
    ∃ contest ∈ m.contest,
      ProducedUnder m contest.activeMaterialRevision contest.submissionSession := by
  obtain ⟨ran, guarded⟩ := procedures_run ownProcedures
  have own := approved_material_is_own "/materials" someTid (guarded.mpr ownProcedures_obey)
  rw [ran, ownProcedures_outcome] at own ⊢
  exact ⟨_, rfl, own _ rfl rfl (by decide +kernel)⟩

theorem earlier_material_approved :
    let m := (Runs.run someSystem.advance ⟨{}, []⟩ (someSystem.inTurn 0 staleProcedures {})).state
    ∃ contest ∈ m.contest, contest.materialState = "approved" ∧
      m.publication? contest.activeMaterialRevision ≠ none ∧
      ¬ ProducedUnder m contest.activeMaterialRevision contest.submissionSession := by
  rw [(procedures_run staleProcedures).1, staleProcedures_outcome]
  decide +kernel

end Examples
end Protocol
end NoiContest.Materials
