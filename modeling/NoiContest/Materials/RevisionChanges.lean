import NoiContest.Materials.Tables

/- What the material transactions do to the revisions and to the stored receipts. -/
namespace NoiContest.Materials
open Outcome

variable {m m' : MaterialTables} {tid revision approvedBy : String}

theorem revision?_mem {row : ArtifactRevision} (found : m.revision? revision = some row) :
    row ∈ m.revisions ∧ row.revision = revision :=
  ⟨List.mem_of_find?_eq_some found, by simpa using List.find?_some found⟩

theorem revision?_none (found : m.revision? revision = none) :
    ∀ row ∈ m.revisions, row.revision ≠ revision := by
  simpa [MaterialTables.revision?] using found

theorem job?_mem {jobId : String} {job : ArtifactJob} (found : m.job? jobId = some job) :
    job ∈ m.jobs ∧ job.jobId = jobId :=
  ⟨List.mem_of_find?_eq_some found, by simpa using List.find?_some found⟩

theorem publication?_mem {publication : Publication}
    (found : m.publication? revision = some publication) :
    publication ∈ m.publications ∧ publication.receipt.revision = revision :=
  ⟨List.mem_of_find?_eq_some found, by simpa using List.find?_some found⟩

theorem publication?_none (found : m.publication? revision = none) :
    ∀ publication ∈ m.publications, publication.receipt.revision ≠ revision := by
  simpa [MaterialTables.publication?] using found

/- A retry of a stored revision changes nothing. -/
theorem putArtifactRevision_ok {state : RevisionState} {content : RevisionContent}
    {completed : Option MaterialTables.CompleteJob}
    (done : m.putArtifactRevision tid revision state content completed = .ok m') :
    m' = m ∨ ∃ contest, m.contest = some contest ∧ m.revision? revision = none ∧
      m' = m.inserted contest { revision, state, content } completed := by
  unfold MaterialTables.putArtifactRevision at done
  cases stored : m.contest with
  | none => simp [stored] at done
  | some contest =>
    cases found : m.revision? revision with
    | none =>
      refine .inr ⟨contest, rfl, rfl, ?_⟩
      cases completed with
      | none =>
        simp only [stored, found] at done
        cases done
        rfl
      | some pair =>
        simp only [stored, found, bind_ok] at done
        obtain ⟨_, -, done⟩ := done
        cases done
        rfl
    | some existing =>
      refine .inl ?_
      cases completed with
      | none =>
        simp only [stored, found, bind_ok, pure_eq_ok] at done
        obtain ⟨_, -, same⟩ := done
        exact same.symm
      | some pair =>
        simp only [stored, found, bind_ok, pure_eq_ok] at done
        obtain ⟨_, -, _, -, same⟩ := done
        exact same.symm

theorem approvable_row {contest : Contest} {found : Option ArtifactRevision}
    {row : ArtifactRevision}
    (done : MaterialTables.approvable contest revision found = .ok row) :
    found = some row ∧ (row.state = .review ∨ row.state = .approved) := by
  unfold MaterialTables.approvable at done
  cases found with
  | none => simp [bind_ok] at done
  | some other =>
    simp only [bind_ok, raiseIf_ok, pure_eq_ok] at done
    obtain ⟨_, -, _, reviewed, _, -, rfl⟩ := done
    refine ⟨rfl, ?_⟩
    rw [not_and_or, not_not, not_not] at reviewed
    exact reviewed

/-- A receipt that the store takes for the revision. -/
structure ReceiptFor (tid revision : String) (content : RevisionContent) (stored : Publication) :
    Prop where
  ok : stored.ok = true
  tid : stored.receipt.tid = tid.toLower
  revision : stored.receipt.revision = revision
  attachments : stored.receipt.attachments = MaterialTables.deliveredAttachments content
  digest : canonicalJsonSha256 stored.receipt.json = stored.receiptSha256

theorem validateMaterialPublication_ok {publication stored : Publication}
    {content : RevisionContent}
    (done : MaterialTables.validateMaterialPublication publication tid revision content =
      .ok stored) : ReceiptFor tid revision content stored := by
  simp only [MaterialTables.validateMaterialPublication, bind_ok, raiseIf_ok, pure_eq_ok,
    ne_eq, not_not] at done
  obtain ⟨_, -, _, -, _, -, _, -, _, -, _, digest, rfl⟩ := done
  exact ⟨rfl, rfl, rfl, rfl, digest⟩

theorem storePublication_ok {publication : Publication}
    (done : m.storePublication publication = .ok m') :
    (m' = m ∧ publication ∈ m.publications) ∨
      (m.publication? publication.receipt.revision = none ∧
        m' = { m with publications := m.publications ++ [publication] }) := by
  unfold MaterialTables.storePublication at done
  cases found : m.publication? publication.receipt.revision with
  | some existing =>
    rw [found] at done
    dsimp only at done
    split at done
    · rename_i same
      cases done
      exact .inl ⟨rfl, same ▸ (publication?_mem found).1⟩
    · cases done
  | none =>
    rw [found] at done
    dsimp only at done
    split at done
    · cases done
    · cases done
      exact .inr ⟨rfl, rfl⟩

/-- The receipts after an approval of the row, which then has one. -/
inductive Receipted (m : MaterialTables) (tid : String) (row : ArtifactRevision) :
    MaterialTables → Prop where
  | kept (publication : Publication) (mem : publication ∈ m.publications)
      (own : publication.receipt.revision = row.revision) : Receipted m tid row m
  | added (publication : Publication) (receipt : ReceiptFor tid row.revision row.content publication)
      (first : m.publication? row.revision = none) :
      Receipted m tid row { m with publications := m.publications ++ [publication] }

theorem approved_ok {contest : Contest} {row : ArtifactRevision} {m₁ : MaterialTables}
    (done : (if row.state = .approved then pure m₁
      else pure (m₁.promoted contest row approvedBy) : Except StoreError MaterialTables) = .ok m') :
    m' = if row.state = .approved then m₁ else m₁.promoted contest row approvedBy := by
  by_cases approved : row.state = .approved
  · rw [if_pos approved] at done ⊢
    cases done
    rfl
  · rw [if_neg approved] at done ⊢
    cases done
    rfl

/- An approval that goes through is of a stored row, under a receipt for it. -/
theorem approveArtifact_ok {publication : Option Publication}
    (done : m.approveArtifact tid revision approvedBy publication = .ok m') :
    ∃ contest row m₁, m.contest = some contest ∧ row ∈ m.revisions ∧ row.revision = revision ∧
      (row.state = .review ∨ row.state = .approved) ∧ Receipted m tid row m₁ ∧
      m' = if row.state = .approved then m₁ else m₁.promoted contest row approvedBy := by
  unfold MaterialTables.approveArtifact at done
  cases present : m.contest with
  | none => simp [present] at done
  | some contest =>
    simp only [present, bind_ok] at done
    obtain ⟨row, approved, _, -, done⟩ := done
    obtain ⟨found, reviewed⟩ := approvable_row approved
    obtain ⟨mem, own⟩ := revision?_mem found
    cases publication with
    | some publication =>
      simp only [bind_ok] at done
      obtain ⟨stored, validated, m₁, kept, done⟩ := done
      refine ⟨contest, row, m₁, rfl, mem, own, reviewed, ?_, approved_ok done⟩
      have receipt := validateMaterialPublication_ok validated
      rcases storePublication_ok kept with ⟨rfl, memStored⟩ | ⟨first, rfl⟩
      · exact .kept stored memStored (receipt.revision.trans own.symm)
      · rw [receipt.revision, ← own] at first
        exact .added stored (own ▸ receipt) first
    | none =>
      simp only [bind_ok, raiseIf_ok, pure_eq_ok] at done
      obtain ⟨_, present, _, rfl, done⟩ := done
      obtain ⟨stored, found⟩ := Option.ne_none_iff_exists'.mp present
      obtain ⟨memStored, ownStored⟩ := publication?_mem found
      exact ⟨contest, row, m, rfl, mem, own, reviewed,
        .kept stored memStored (ownStored.trans own.symm), approved_ok done⟩

theorem startArtifactJob_same {jobId message : String} {details : JobDetails} {job : ArtifactJob}
    (done : m.startArtifactJob tid jobId revision details message = .ok (job, m')) :
    m'.revisions = m.revisions ∧ m'.publications = m.publications := by
  unfold MaterialTables.startArtifactJob at done
  cases stored : m.contest with
  | none => simp [stored, bind_ok] at done
  | some contest =>
    simp only [stored, bind_ok, pure_eq_ok, Prod.mk.injEq] at done
    obtain ⟨_, -, _, -, _, -, _, -, _, -, _, -, _, -, -, rfl⟩ := done
    exact ⟨rfl, rfl⟩

theorem updateArtifactJob_same {jobId message error : String} {state : JobState} {progress : Int}
    {details : Option JobDetails}
    (done : m.updateArtifactJob jobId state progress message error details = .ok m') :
    m'.revisions = m.revisions ∧ m'.publications = m.publications := by
  unfold MaterialTables.updateArtifactJob at done
  cases found : m.job? jobId with
  | none => simp [found] at done
  | some current =>
    simp only [found, bind_ok, pure_eq_ok] at done
    obtain ⟨_, -, _, -, rfl⟩ := done
    exact ⟨rfl, rfl⟩

theorem clearMaterialSelection_same (done : m.clearMaterialSelection tid = .ok m') :
    m'.revisions = m.revisions ∧ m'.publications = m.publications := by
  unfold MaterialTables.clearMaterialSelection at done
  split at done
  · cases done
  · cases done
    exact ⟨rfl, rfl⟩

theorem upsertContest_same {registration : Registration} {submissionSession : String}
    (done : m.upsertContest registration submissionSession = .ok m') :
    m'.revisions = m.revisions ∧ m'.publications = m.publications := by
  obtain ⟨_, -, done⟩ := bind_ok.mp done
  cases done
  exact ⟨rfl, rfl⟩

theorem promote_keeps (revision approvedBy : String) (row : ArtifactRevision) :
    (MaterialTables.promote revision approvedBy row).revision = row.revision ∧
      (MaterialTables.promote revision approvedBy row).content = row.content := by
  unfold MaterialTables.promote
  split
  · exact ⟨rfl, rfl⟩
  · split <;> exact ⟨rfl, rfl⟩

end NoiContest.Materials
