import NoiContest.Lib.Runs
import NoiContest.Materials.RevisionChanges

/- The life cycle of the artifact jobs of a contest, over any order of the store transactions
   that write to its jobs, revisions and registration. -/
namespace NoiContest.Materials
open Outcome

namespace MaterialTables

def interrupt (job : ArtifactJob) : ArtifactJob :=
  if job.state.active then
    { job with
      state := .interrupted
      error := "编排服务重启，原任务已安全中断；再次点击可从已保存预检继续" }
  else job

/- Jobs of other contests are interrupted along with these. -/
def recoverInterruptedArtifactJobs (m : MaterialTables) : Nat × MaterialTables :=
  let rows := m.jobs.filter (·.state.active)
  if rows = [] then (0, m)
  else (rows.length, { m with
    contest := m.contest.map (withoutMaterials · .interrupted)
    jobs := m.jobs.map interrupt })

end MaterialTables

/- `lifecycle` stands for the rest of the service, as in the procedures. -/
inductive JobTransaction where
  | startArtifactJob (jobId revision : String) (details : JobDetails) (message : String)
  | updateArtifactJob (jobId : String) (state : JobState) (progress : Int)
      (message error : String) (details : Option JobDetails)
  | recoverInterruptedArtifactJobs
  | putArtifactRevision (revision : String) (state : RevisionState) (content : RevisionContent)
      (completed : Option MaterialTables.CompleteJob)
  | approveArtifact (revision approvedBy : String) (publication : Option Publication)
  | upsertContest (registration : Registration) (submissionSession : String)
  | lifecycle (state : ContestState) (evidence : Bool)

namespace JobTransaction

def apply (tid : String) (m : MaterialTables) : JobTransaction → Except StoreError MaterialTables
  | .startArtifactJob jobId revision details message =>
    (m.startArtifactJob tid jobId revision details message).map (·.2)
  | .updateArtifactJob jobId state progress message error details =>
    m.updateArtifactJob jobId state progress message error details
  | .recoverInterruptedArtifactJobs => .ok m.recoverInterruptedArtifactJobs.2
  | .putArtifactRevision revision state content completed =>
    m.putArtifactRevision tid revision state content completed
  | .approveArtifact revision approvedBy publication =>
    m.approveArtifact tid revision approvedBy publication
  | .upsertContest registration submissionSession => m.upsertContest registration submissionSession
  | .lifecycle state evidence =>
    .ok { m with
      contest := m.contest.map fun contest => { contest with state := state }
      evidence := evidence }

/-- No caller finishes a job by an update, or registers a contest whose materials are under way. -/
def Called : JobTransaction → Prop
  | .updateArtifactJob _ state _ _ _ _ => state ≠ .done
  | .upsertContest registration _ => registration.materialState ≠ "generating"
  | _ => True

instance : DecidablePred Called := fun transaction => by
  unfold Called
  split <;> infer_instance

end JobTransaction

/-- The job that a revision is for. -/
def JobTransaction.completes : JobTransaction → Option String
  | .putArtifactRevision _ _ _ completed => completed.map (·.1)
  | _ => none

/-- A transaction that raises is rolled back. -/
def MaterialTables.step (tid : String) (m : MaterialTables) (transaction : JobTransaction) :
    MaterialTables :=
  (transaction.apply tid m).toOption.getD m

/-- The transaction inserts the revision of the job for it. -/
def Completes (tid : String) (m : MaterialTables) (transaction : JobTransaction)
    (job : ArtifactJob) : Prop :=
  ∃ state content details,
    transaction = .putArtifactRevision job.revision state content (some (job.jobId, details)) ∧
    m.revision? job.revision = none ∧
    (m.step tid transaction).revision? job.revision =
      some { revision := job.revision, state, content }

/-- What a transaction does to the jobs. -/
structure JobStep (tid : String) (m : MaterialTables) (transaction : JobTransaction) : Prop where
  kept : ∀ job ∈ m.jobs, ∃ job' ∈ (m.step tid transaction).jobs,
    job'.jobId = job.jobId ∧ job'.revision = job.revision ∧ job.progress ≤ job'.progress ∧
    (job.state.active = false → job'.state = job.state) ∧
    (job.state ≠ .done → (job'.state = .done ↔ Completes tid m transaction job))
  started : ∀ job ∈ (m.step tid transaction).jobs, job.jobId ∉ m.jobs.map (·.jobId) →
    job.state = .queued

/-- What holds of the jobs and of the contest row in every state. -/
structure JobsSound (m : MaterialTables) : Prop where
  distinct : (m.jobs.map (·.jobId)).Nodup
  single : m.jobs.countP (·.state.active) ≤ 1
  bounded : ∀ job ∈ m.jobs, job.progress ≤ 100
  done : ∀ job ∈ m.jobs, job.state = .done → job.progress = 100 ∧
    ∃ row ∈ m.revisions, row.revision = job.revision
  generating : ∀ contest ∈ m.contest, contest.materialState = "generating" →
    contest.activeMaterialRevision = "" ∧ ∃ job ∈ m.jobs, job.state.active = true

section Changes
variable {m m' : MaterialTables} {tid : String} {transaction : JobTransaction}

/-- One job under a transaction. -/
structure Moves (tid : String) (m : MaterialTables) (transaction : JobTransaction)
    (job job' : ArtifactJob) : Prop where
  jobId : job'.jobId = job.jobId
  revision : job'.revision = job.revision
  progress : job.progress ≤ job'.progress
  bounded : job'.progress ≤ 100
  closed : job.state.active = false → job'.state = job.state
  opened : job'.state.active = true → job.state.active = true
  done : job'.state = .done →
    job.state = .done ∨ job'.progress = 100 ∧ Completes tid m transaction job
  completed : job.state ≠ .done → Completes tid m transaction job → job'.state = .done

theorem Moves.refl (sound : JobsSound m) {job : ArtifactJob} (mem : job ∈ m.jobs)
    (other : ¬ Completes tid m transaction job) : Moves tid m transaction job job where
  jobId := rfl
  revision := rfl
  progress := le_rfl
  bounded := sound.bounded job mem
  closed _ := rfl
  opened active := active
  done := .inl
  completed _ completes := absurd completes other

theorem jobStep_map {change : ArtifactJob → ArtifactJob} (same : m.step tid transaction = m')
    (jobs : m'.jobs = m.jobs.map change)
    (moves : ∀ job ∈ m.jobs, Moves tid m transaction job (change job)) :
    JobStep tid m transaction := by
  subst same
  constructor
  · intro job mem
    have moved := moves job mem
    refine ⟨change job, jobs ▸ List.mem_map_of_mem mem, moved.jobId, moved.revision, moved.progress,
      moved.closed, fun unfinished => ⟨fun finished => ?_, moved.completed unfinished⟩⟩
    rcases moved.done finished with before | ⟨_, completes⟩
    · exact absurd before unfinished
    · exact completes
  · intro job mem new
    rw [jobs] at mem
    obtain ⟨old, memOld, rfl⟩ := List.mem_map.mp mem
    exact absurd ((moves old memOld).jobId ▸ List.mem_map_of_mem memOld) new

/- The state after the jobs have moved; what is left to show is about the contest row. -/
theorem sound_map (sound : JobsSound m) {change : ArtifactJob → ArtifactJob}
    (same : m.step tid transaction = m') (jobs : m'.jobs = m.jobs.map change)
    (revisions : ∀ row ∈ m.revisions, ∃ row' ∈ m'.revisions, row'.revision = row.revision)
    (moves : ∀ job ∈ m.jobs, Moves tid m transaction job (change job))
    (generating : ∀ contest ∈ m'.contest, contest.materialState = "generating" →
      contest.activeMaterialRevision = "" ∧ ∃ job ∈ m.jobs, (change job).state.active = true) :
    JobsSound m' := by
  constructor
  · have ids : m.jobs.map ((·.jobId) ∘ change) = m.jobs.map (·.jobId) :=
      List.map_congr_left fun job mem => (moves job mem).jobId
    rw [jobs, List.map_map, ids]
    exact sound.distinct
  · rw [jobs, List.countP_map]
    exact (List.countP_mono_left fun job mem active => (moves job mem).opened active).trans
      sound.single
  · intro job mem
    rw [jobs] at mem
    obtain ⟨old, memOld, rfl⟩ := List.mem_map.mp mem
    exact (moves old memOld).bounded
  · intro job mem finished
    rw [jobs] at mem
    obtain ⟨old, memOld, rfl⟩ := List.mem_map.mp mem
    have moved := moves old memOld
    rcases moved.done finished with before | ⟨full, state, content, details, _, _, inserted⟩
    · obtain ⟨full, row, memRow, named⟩ := sound.done old memOld before
      obtain ⟨row', memRow', kept⟩ := revisions row memRow
      exact ⟨le_antisymm moved.bounded (full ▸ moved.progress), row', memRow',
        kept.trans (named.trans moved.revision.symm)⟩
    · rw [same] at inserted
      obtain ⟨memRow, named⟩ := revision?_mem inserted
      exact ⟨full, _, memRow, named.trans moved.revision.symm⟩
  · intro contest stored state
    obtain ⟨unset, job, mem, active⟩ := generating contest stored state
    exact ⟨unset, change job, jobs ▸ List.mem_map_of_mem mem, active⟩

theorem not_completes {job : ArtifactJob} (other : transaction.completes ≠ some job.jobId) :
    ¬ Completes tid m transaction job := by
  rintro ⟨state, content, details, rfl, _⟩
  exact other rfl

/- A transaction that changes no job. -/
theorem quiet_step (sound : JobsSound m) (same : m.step tid transaction = m')
    (jobs : m'.jobs = m.jobs)
    (revisions : ∀ row ∈ m.revisions, ∃ row' ∈ m'.revisions, row'.revision = row.revision)
    (other : ∀ job ∈ m.jobs, ¬ Completes tid m transaction job)
    (generating : ∀ contest ∈ m'.contest, contest.materialState = "generating" →
      contest.activeMaterialRevision = "" ∧ ∃ job ∈ m.jobs, job.state.active = true) :
    JobsSound m' ∧ JobStep tid m transaction := by
  have mapped : m'.jobs = m.jobs.map id := jobs.trans (List.map_id _).symm
  have moves : ∀ job ∈ m.jobs, Moves tid m transaction job (id job) :=
    fun job mem => .refl sound mem (other job mem)
  exact ⟨sound_map sound same mapped revisions moves generating, jobStep_map same mapped moves⟩

theorem unchanged_step (sound : JobsSound m) (same : m.step tid transaction = m) :
    JobsSound m ∧ JobStep tid m transaction := by
  refine quiet_step sound same rfl (fun row mem => ⟨row, mem, rfl⟩) ?_ sound.generating
  rintro job _ ⟨state, content, details, _, absent, present⟩
  rw [same, absent] at present
  cases present

end Changes

section Transactions
variable {m m' : MaterialTables} {tid jobId revision : String} {details : Option JobDetails}

theorem startArtifactJob_ok {details : JobDetails} {message : String} {job : ArtifactJob}
    (done : m.startArtifactJob tid jobId revision details message = .ok (job, m')) :
    ∃ contest, m.contest = some contest ∧ (∀ job ∈ m.jobs, job.state.active = false) ∧
      job.jobId ∉ m.jobs.map (·.jobId) ∧ job.state = .queued ∧ job.progress = 0 ∧
      m' = { m with
        contest := some (if contest.activeMaterialRevision = ""
          then { contest with materialState := "generating" } else contest)
        jobs := m.jobs ++ [job] } := by
  unfold MaterialTables.startArtifactJob at done
  cases stored : m.contest with
  | none => simp [stored, bind_ok] at done
  | some contest =>
    simp only [stored, bind_ok, raiseIf_ok, pure_eq_ok, Prod.mk.injEq] at done
    obtain ⟨_, -, _, -, _, -, _, -, _, idle, _, -, _, fresh, rfl, rfl⟩ := done
    refine ⟨contest, rfl, by simpa using idle, ?_, rfl, rfl, rfl⟩
    intro mem
    obtain ⟨other, memOther, same⟩ := List.mem_map.mp mem
    rw [not_not] at fresh
    have missing := List.find?_eq_none.mp fresh other memOther
    simp [same] at missing

/- The job that is started is the only active one. -/
theorem start_step {details : JobDetails} {message : String} {job : ArtifactJob}
    (sound : JobsSound m)
    (same : m.step tid (.startArtifactJob jobId revision details message) = m')
    (done : m.startArtifactJob tid jobId revision details message = .ok (job, m')) :
    JobsSound m' ∧ JobStep tid m (.startArtifactJob jobId revision details message) := by
  obtain ⟨contest, stored, idle, fresh, queued, zero, is⟩ := startArtifactJob_ok done
  have jobs : m'.jobs = m.jobs ++ [job] := by rw [is]
  have revisions : m'.revisions = m.revisions := by rw [is]
  have other : ∀ job, ¬ Completes tid m (.startArtifactJob jobId revision details message) job :=
    fun job => not_completes (by simp [JobTransaction.completes])
  refine ⟨⟨?_, ?_, ?_, ?_, ?_⟩, ⟨?_, ?_⟩⟩
  · rw [jobs, List.map_append]
    exact List.nodup_append.mpr ⟨sound.distinct, List.nodup_singleton _,
      fun id mem id' mem' => by
        rw [List.map_singleton, List.mem_singleton] at mem'
        rintro rfl
        exact fresh (mem' ▸ mem)⟩
  · have none : m.jobs.countP (·.state.active) = 0 := by
      rw [List.countP_eq_zero]
      intro job mem
      simp [idle job mem]
    rw [jobs, List.countP_append, none, Nat.zero_add]
    exact List.countP_le_length
  · intro other mem
    rw [jobs] at mem
    rcases List.mem_append.mp mem with old | new
    · exact sound.bounded other old
    · rw [List.mem_singleton.mp new, zero]
      decide
  · intro other mem finished
    rw [jobs] at mem
    rcases List.mem_append.mp mem with old | new
    · rw [revisions]
      exact sound.done other old finished
    · rw [List.mem_singleton.mp new, queued] at finished
      cases finished
  · intro after present generating
    refine ⟨?_, job, jobs ▸ List.mem_append_right _ (List.mem_singleton_self _), by rw [queued]; rfl⟩
    rw [is] at present
    cases present
    split at generating
    · rename_i unset
      rwa [if_pos unset]
    · obtain ⟨_, busy, memBusy, active⟩ := sound.generating contest stored generating
      rw [idle busy memBusy] at active
      cases active
  · intro old mem
    exact ⟨old, same ▸ jobs ▸ List.mem_append_left _ mem, rfl, rfl, le_rfl, fun _ => rfl,
      fun unfinished => iff_of_false unfinished (other old)⟩
  · intro added mem new
    rw [same, jobs] at mem
    rcases List.mem_append.mp mem with old | here
    · exact absurd (List.mem_map_of_mem old) new
    · rw [List.mem_singleton.mp here, queued]

theorem withoutMaterials_generating {contest : Contest} {state : JobState}
    (generating : (MaterialTables.withoutMaterials contest state).materialState = "generating") :
    contest.materialState = "generating" ∧
      (MaterialTables.withoutMaterials contest state).activeMaterialRevision =
        contest.activeMaterialRevision ∧
      ((state = .error ∨ state = .interrupted) → contest.activeMaterialRevision ≠ "") := by
  unfold MaterialTables.withoutMaterials at generating ⊢
  by_cases clears : (state = .error ∨ state = .interrupted) ∧ contest.activeMaterialRevision = ""
  · rw [if_pos clears] at generating
    exact absurd generating (by decide : ("pending" : String) ≠ "generating")
  · rw [if_neg clears] at generating ⊢
    exact ⟨generating, rfl, fun ended => mt (And.intro ended) clears⟩

theorem updateArtifactJob_ok {state : JobState} {progress : Int} {message error : String}
    (done : m.updateArtifactJob jobId state progress message error details = .ok m') :
    ∃ current, m.job? jobId = some current ∧
      (current.state.active = false → state = current.state) ∧
      current.progress ≤ max 0 (min 100 progress) ∧
      m' = { m with
        contest := m.contest.map (MaterialTables.withoutMaterials · state)
        jobs := m.jobs.map fun job => if job.jobId = jobId
          then MaterialTables.updatedJob job state progress message error details else job } := by
  unfold MaterialTables.updateArtifactJob at done
  cases found : m.job? jobId with
  | none => simp [found] at done
  | some current =>
    simp only [found, bind_ok, raiseIf_ok, pure_eq_ok, not_and, not_not, not_lt] at done
    obtain ⟨_, closed, _, forward, rfl⟩ := done
    exact ⟨current, rfl, closed, forward, rfl⟩

theorem update_step {state : JobState} {progress : Int} {message error : String}
    (sound : JobsSound m) (unfinished : state ≠ .done)
    (same : m.step tid (.updateArtifactJob jobId state progress message error details) = m')
    (done : m.updateArtifactJob jobId state progress message error details = .ok m') :
    JobsSound m' ∧
      JobStep tid m (.updateArtifactJob jobId state progress message error details) := by
  obtain ⟨current, found, closed, forward, is⟩ := updateArtifactJob_ok done
  obtain ⟨memCurrent, named⟩ := job?_mem found
  have only : ∀ job ∈ m.jobs, job.jobId = jobId → job = current := fun job mem here =>
    List.inj_on_of_nodup_map sound.distinct mem memCurrent (here.trans named.symm)
  have other : ∀ job, ¬ Completes tid m
      (.updateArtifactJob jobId state progress message error details) job :=
    fun job => not_completes (by simp [JobTransaction.completes])
  have moves : ∀ job ∈ m.jobs, Moves tid m
      (.updateArtifactJob jobId state progress message error details) job
      (if job.jobId = jobId then MaterialTables.updatedJob job state progress message error details
        else job) := by
    intro job mem
    by_cases here : job.jobId = jobId
    · rw [if_pos here]
      have itself := only job mem here
      refine ⟨rfl, rfl, itself ▸ forward, ?_, ?_, ?_, fun finished => absurd finished unfinished,
        fun _ completes => absurd completes (other job)⟩
      · simp only [MaterialTables.updatedJob]
        omega
      · intro ended
        rw [itself] at ended ⊢
        exact closed ended
      · intro active
        by_contra ended
        rw [Bool.not_eq_true] at ended
        have kept := closed (itself ▸ ended)
        rw [itself, ← kept] at ended
        exact absurd (active.symm.trans ended) (by decide)
    · rw [if_neg here]
      exact .refl sound mem (other job)
  have jobs : m'.jobs = m.jobs.map fun job => if job.jobId = jobId
      then MaterialTables.updatedJob job state progress message error details else job := by rw [is]
  refine ⟨sound_map sound same jobs (fun row mem => ⟨row, by rw [is]; exact mem, rfl⟩) moves ?_,
    jobStep_map same jobs moves⟩
  intro contest stored generating
  rw [is] at stored
  obtain ⟨before, present, rfl⟩ := Option.map_eq_some_iff.mp stored
  obtain ⟨generating, unchanged, kept⟩ := withoutMaterials_generating generating
  obtain ⟨unset, job, mem, active⟩ := sound.generating before present generating
  refine ⟨unchanged.trans unset, job, mem, ?_⟩
  by_cases here : job.jobId = jobId
  · rw [if_pos here]
    have running : state ≠ .error ∧ state ≠ .interrupted :=
      ⟨fun ended => kept (.inl ended) unset, fun ended => kept (.inr ended) unset⟩
    cases state with
    | queued => rfl
    | running => rfl
    | done => exact absurd rfl unfinished
    | error => exact absurd rfl running.1
    | interrupted => exact absurd rfl running.2
  · rw [if_neg here]
    exact active

/- With no active job there is nothing to recover, with one the contest is set back. -/
theorem recover_step (sound : JobsSound m) :
    JobsSound m.recoverInterruptedArtifactJobs.2 ∧
      JobStep tid m .recoverInterruptedArtifactJobs := by
  have other : ∀ job, ¬ Completes tid m .recoverInterruptedArtifactJobs job :=
    fun job => not_completes (by simp [JobTransaction.completes])
  have same : m.step tid .recoverInterruptedArtifactJobs = m.recoverInterruptedArtifactJobs.2 := rfl
  by_cases idle : m.jobs.filter (·.state.active) = []
  · have is : m.recoverInterruptedArtifactJobs.2 = m := by
      simp [MaterialTables.recoverInterruptedArtifactJobs, idle]
    rw [is] at same ⊢
    exact unchanged_step sound same
  · have is : m.recoverInterruptedArtifactJobs.2 = { m with
        contest := m.contest.map (MaterialTables.withoutMaterials · .interrupted)
        jobs := m.jobs.map MaterialTables.interrupt } := by
      simp [MaterialTables.recoverInterruptedArtifactJobs, idle]
    have jobs : m.recoverInterruptedArtifactJobs.2.jobs = m.jobs.map MaterialTables.interrupt := by
      rw [is]
    have moves : ∀ job ∈ m.jobs, Moves tid m .recoverInterruptedArtifactJobs job
        (MaterialTables.interrupt job) := by
      intro job mem
      unfold MaterialTables.interrupt
      split
      · rename_i active
        refine ⟨rfl, rfl, le_rfl, sound.bounded job mem, fun ended => ?_, nofun, nofun,
          fun _ completes => absurd completes (other job)⟩
        rw [active] at ended
        cases ended
      · exact .refl sound mem (other job)
    refine ⟨sound_map sound same jobs (fun row mem => ⟨row, by rw [is]; exact mem, rfl⟩) moves ?_,
      jobStep_map same jobs moves⟩
    intro contest stored generating
    rw [is] at stored
    obtain ⟨before, present, rfl⟩ := Option.map_eq_some_iff.mp stored
    obtain ⟨generating, _, kept⟩ := withoutMaterials_generating generating
    exact absurd (sound.generating before present generating).1 (kept (.inr rfl))

theorem RevisionState.not_generating (state : RevisionState) : state.text ≠ "generating" := by
  cases state <;> decide

theorem inserted_revision? {contest : Contest} {row : ArtifactRevision}
    {completed : Option MaterialTables.CompleteJob} (absent : m.revision? row.revision = none) :
    (m.inserted contest row completed).revision? row.revision = some row := by
  unfold MaterialTables.revision? at absent
  simp only [MaterialTables.revision?, MaterialTables.inserted, List.find?_append, absent,
    Option.none_or]
  simp

theorem putArtifactRevision_completes {state : RevisionState} {content : RevisionContent}
    {completed : MaterialTables.CompleteJob}
    (done : m.putArtifactRevision tid revision state content (some completed) = .ok m') :
    ∃ job, m.job? completed.1 = some job ∧ job.state.active = true ∧ job.revision = revision := by
  unfold MaterialTables.putArtifactRevision at done
  cases stored : m.contest with
  | none => simp [stored] at done
  | some contest =>
    simp only [stored, bind_ok] at done
    obtain ⟨_, checked, -⟩ := done
    unfold MaterialTables.completesJob at checked
    cases found : m.job? completed.1 with
    | none => simp [found] at checked
    | some job =>
      simp only [found, bind_ok, raiseIf_ok, not_or, not_not] at checked
      obtain ⟨_, ⟨active, named⟩, -⟩ := checked
      exact ⟨job, rfl, by simpa using active, named⟩

theorem put_step {state : RevisionState} {content : RevisionContent}
    {completed : Option MaterialTables.CompleteJob} (sound : JobsSound m)
    (same : m.step tid (.putArtifactRevision revision state content completed) = m')
    (done : m.putArtifactRevision tid revision state content completed = .ok m') :
    JobsSound m' ∧ JobStep tid m (.putArtifactRevision revision state content completed) := by
  rcases putArtifactRevision_ok done with is | ⟨contest, stored, absent, is⟩
  · rw [is] at same ⊢
    exact unchanged_step sound same
  · have revisions : ∀ row ∈ m.revisions, ∃ row' ∈ m'.revisions, row'.revision = row.revision := by
      intro row mem
      exact ⟨row, by rw [is]; exact List.mem_append_left _ mem, rfl⟩
    have settled : ∀ after ∈ m'.contest, after.materialState ≠ "generating" := by
      intro after present
      rw [is] at present
      cases present
      exact state.not_generating
    cases completed with
    | none =>
      exact quiet_step sound same (by rw [is]; rfl) revisions
        (fun job _ => not_completes (by simp [JobTransaction.completes]))
        fun after present generating => absurd generating (settled after present)
    | some completed =>
      obtain ⟨owner, found, active, named⟩ := putArtifactRevision_completes done
      obtain ⟨memOwner, ownId⟩ := job?_mem found
      have only : ∀ job ∈ m.jobs, job.jobId = completed.1 → job = owner := fun job mem here =>
        List.inj_on_of_nodup_map sound.distinct mem memOwner (here.trans ownId.symm)
      have jobs : m'.jobs = m.jobs.map (MaterialTables.finishJob completed) := by rw [is]; rfl
      have completes : Completes tid m
          (.putArtifactRevision revision state content (some completed)) owner := by
        refine ⟨state, content, completed.2, ?_, named ▸ absent, ?_⟩
        · rw [named, ownId]
        · rw [same, is, named]
          exact inserted_revision? absent
      have moves : ∀ job ∈ m.jobs, Moves tid m
          (.putArtifactRevision revision state content (some completed)) job
          (MaterialTables.finishJob completed job) := by
        intro job mem
        unfold MaterialTables.finishJob
        split
        · rename_i here
          have itself := only job mem here
          refine ⟨rfl, rfl, sound.bounded job mem, le_rfl, fun ended => ?_, nofun,
            fun _ => .inr ⟨rfl, itself ▸ completes⟩, fun _ _ => rfl⟩
          rw [itself, active] at ended
          cases ended
        · rename_i other
          exact .refl sound mem (not_completes fun here => other (Option.some.inj here).symm)
      exact ⟨sound_map sound same jobs revisions moves fun after present generating =>
        absurd generating (settled after present), jobStep_map same jobs moves⟩

theorem approve_step {approvedBy : String} {publication : Option Publication} (sound : JobsSound m)
    (same : m.step tid (.approveArtifact revision approvedBy publication) = m')
    (done : m.approveArtifact tid revision approvedBy publication = .ok m') :
    JobsSound m' ∧ JobStep tid m (.approveArtifact revision approvedBy publication) := by
  obtain ⟨contest, row, m₁, stored, memRow, own, -, receipted, is⟩ := approveArtifact_ok done
  have first : m₁.jobs = m.jobs ∧ m₁.revisions = m.revisions ∧ m₁.contest = m.contest := by
    cases receipted <;> exact ⟨rfl, rfl, rfl⟩
  by_cases approved : row.state = .approved
  · rw [if_pos approved] at is
    refine quiet_step sound same (is ▸ first.1) (fun row mem => ⟨row, ?_, rfl⟩)
      (fun job _ => not_completes (by simp [JobTransaction.completes])) ?_
    · rw [is, first.2.1]
      exact mem
    · rw [is, first.2.2]
      exact sound.generating
  · rw [if_neg approved] at is
    refine quiet_step sound same (by rw [is]; exact first.1) (fun other mem => ?_)
      (fun job _ => not_completes (by simp [JobTransaction.completes])) ?_
    · rw [is]
      exact ⟨_, List.mem_map_of_mem (first.2.1 ▸ mem), (promote_keeps _ _ other).1⟩
    · intro after present generating
      rw [is] at present
      cases present
      exact absurd generating (by decide : ("approved" : String) ≠ "generating")

theorem upsert_step {registration : Registration} {submissionSession : String}
    (sound : JobsSound m) (settled : registration.materialState ≠ "generating")
    (same : m.step tid (.upsertContest registration submissionSession) = m')
    (done : m.upsertContest registration submissionSession = .ok m') :
    JobsSound m' ∧ JobStep tid m (.upsertContest registration submissionSession) := by
  obtain ⟨_, -, done⟩ := bind_ok.mp done
  rw [pure_eq_ok] at done
  refine quiet_step sound same (by rw [← done]) (fun row mem => ⟨row, by rw [← done]; exact mem, rfl⟩)
    (fun job _ => not_completes (by simp [JobTransaction.completes])) ?_
  intro after present generating
  rw [← done] at present
  cases present
  exact absurd generating settled

theorem lifecycle_step {state : ContestState} {evidence : Bool} (sound : JobsSound m) :
    JobsSound (m.step tid (.lifecycle state evidence)) ∧
      JobStep tid m (.lifecycle state evidence) := by
  refine quiet_step sound rfl rfl (fun row mem => ⟨row, mem, rfl⟩)
    (fun job _ => not_completes (by simp [JobTransaction.completes])) ?_
  intro after present generating
  obtain ⟨before, stored, rfl⟩ := Option.map_eq_some_iff.mp present
  exact sound.generating before stored generating

/- Every transaction. -/
theorem transaction_step (sound : JobsSound m) (transaction : JobTransaction)
    (called : transaction.Called) :
    JobsSound (m.step tid transaction) ∧ JobStep tid m transaction := by
  cases applied : transaction.apply tid m with
  | error e =>
    have same : m.step tid transaction = m := by
      simp [MaterialTables.step, applied, Except.toOption]
    rw [same]
    exact unchanged_step sound same
  | ok m' =>
    have same : m.step tid transaction = m' := by
      simp [MaterialTables.step, applied, Except.toOption]
    rw [same]
    cases transaction with
    | startArtifactJob jobId revision details message =>
      obtain ⟨⟨job, _⟩, done, rfl⟩ := map_ok.mp applied
      exact start_step sound same done
    | updateArtifactJob jobId state progress message error details =>
      exact update_step sound called same applied
    | recoverInterruptedArtifactJobs =>
      cases applied
      exact recover_step sound
    | putArtifactRevision revision state content completed => exact put_step sound same applied
    | approveArtifact revision approvedBy publication => exact approve_step sound same applied
    | upsertContest registration submissionSession => exact upsert_step sound called same applied
    | lifecycle state evidence =>
      rw [← same]
      exact lifecycle_step sound

end Transactions

theorem run_sound {m : MaterialTables} {tid : String} (sound : JobsSound m)
    (transactions : List JobTransaction)
    (called : ∀ transaction ∈ transactions, transaction.Called) :
    JobsSound (Runs.run (MaterialTables.step tid) m transactions) ∧
      Runs.Guarded (MaterialTables.step tid) (JobStep tid) m transactions := by
  induction transactions generalizing m with
  | nil => exact ⟨sound, trivial⟩
  | cons transaction rest ih =>
    obtain ⟨next, step⟩ := transaction_step sound transaction
      (called transaction List.mem_cons_self)
    obtain ⟨last, guarded⟩ := ih next fun later mem => called later (List.mem_cons_of_mem _ mem)
    exact ⟨last, step, guarded⟩

/- From an empty store, with any transactions in any order. -/
theorem artifact_jobs_life_cycle (tid : String) (transactions : List JobTransaction)
    (called : ∀ transaction ∈ transactions, transaction.Called) :
    JobsSound (Runs.run (MaterialTables.step tid) {} transactions) ∧
      Runs.Guarded (MaterialTables.step tid) (JobStep tid) {} transactions := by
  have start : JobsSound {} := by
    refine ⟨List.nodup_nil, Nat.zero_le 1, ?_, ?_, ?_⟩
    · exact fun job mem => absurd mem List.not_mem_nil
    · exact fun job mem => absurd mem List.not_mem_nil
    · rintro contest ⟨⟩
  exact run_sound start transactions called

/- A job that fails is followed by one that is completed. -/
def retriedJob : List JobTransaction :=
  [.upsertContest { tid := "t", files := ["a"], materialsMode := "ai", materialState := "pending" }
      "s",
    .startArtifactJob "0123456789abcdef0123456789abcdef" "r1"
      { submissionSession := "s", requestedProblems := [], approvedBy := "", approvalId := "" } "已排队",
    .updateArtifactJob "0123456789abcdef0123456789abcdef" .error 40 "失败" "boom" none,
    .startArtifactJob "00000000000000000000000000000000" "r2"
      { submissionSession := "s", requestedProblems := [], approvedBy := "", approvalId := "" } "已排队",
    .updateArtifactJob "00000000000000000000000000000000" .running 50 "生成" "" none,
    .putArtifactRevision "r2" .review
      { sourceSha256 := "", rootPath := "/r2", manifest := .generated "" }
      (some ("00000000000000000000000000000000",
        { submissionSession := "s", requestedProblems := [], approvedBy := "", approvalId := "" }))]

theorem retried_job_life_cycle :
    (Runs.run (MaterialTables.step "t") {} retriedJob).jobs.map (·.state) = [.error, .done] ∧
      JobsSound (Runs.run (MaterialTables.step "t") {} retriedJob) :=
  ⟨by decide +kernel, (artifact_jobs_life_cycle "t" retriedJob (by decide)).1⟩

end NoiContest.Materials
