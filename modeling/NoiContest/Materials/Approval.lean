import NoiContest.Lib.JsonParse
import NoiContest.Materials.RevisionChanges

/- What stays true of approvals and their receipts under every sequence of the material
   transactions. The stored receipt is read back from its text, as the store does. -/
namespace NoiContest.Materials
open Outcome JsonText

/-- A row of material_publications. -/
structure PublicationRow where
  tid : String
  revision : String
  publicationId : String
  receiptSha256 : String
  receiptJson : String
  deriving DecidableEq, Repr

def Publication.row (tid : String) (publication : Publication) : PublicationRow where
  tid := tid
  revision := publication.receipt.revision
  publicationId := publication.receipt.publicationId
  receiptSha256 := publication.receiptSha256
  receiptJson := dumps publication.receipt.json

def textField (fields : List (String × Json)) (name : String) : Option String :=
  match fields.lookup name with
  | some (.str text) => some text
  | _ => none

def intField (fields : List (String × Json)) (name : String) : Option Int :=
  match fields.lookup name with
  | some (.int n) => some n
  | _ => none

/-- The fields of a stored receipt. -/
def decodeMaterialPublication (row : PublicationRow) : Except String (List (String × Json)) :=
  match loads row.receiptJson with
  | some (.obj fields) =>
    if textField fields "publication_id" ≠ some row.publicationId ∨
        canonicalJsonSha256 (.obj fields) ≠ row.receiptSha256
    then .error "OJ 材料发布回执摘要不一致"
    else .ok fields
  | _ => .error "OJ 材料发布回执已损坏"

def Attachment.ofJson : Json → Option Attachment
  | .obj fields => do
    let name ← textField fields "name"
    let sha256 ← textField fields "sha256"
    let size ← intField fields "size"
    return { name, sha256, size }
  | _ => none

def attachmentsField (fields : List (String × Json)) : Option (List Attachment) :=
  match fields.lookup "attachments" with
  | some (.arr items) => items.mapM Attachment.ofJson
  | _ => none

/-- A transaction on the rows of one contest. `others` is any write of the rest of the service
    to the contest row, or of seats and submissions. -/
inductive ApprovalCall where
  | putArtifactRevision (revision : String) (state : RevisionState) (content : RevisionContent)
      (completed : Option MaterialTables.CompleteJob) (fresh : state = .draft ∨ state = .review)
  | startArtifactJob (jobId revision : String) (details : JobDetails) (message : String)
  | updateArtifactJob (jobId : String) (state : JobState) (progress : Int) (message error : String)
      (details : Option JobDetails)
  | approveArtifactWithPublication (revision approvedBy : String) (publication : Publication)
  | approveArtifact (revision approvedBy : String)
  | clearMaterialSelection
  | upsertContest (registration : Registration) (submissionSession : String)
  | others (contest : Option Contest) (evidence : Bool)

def ApprovalCall.apply (tid : String) (m : MaterialTables) :
    ApprovalCall → Except StoreError MaterialTables
  | .putArtifactRevision revision state content completed _ =>
    m.putArtifactRevision tid revision state content completed
  | .startArtifactJob jobId revision details message =>
    (m.startArtifactJob tid jobId revision details message).map (·.2)
  | .updateArtifactJob jobId state progress message error details =>
    m.updateArtifactJob jobId state progress message error details
  | .approveArtifactWithPublication revision approvedBy publication =>
    m.approveArtifact tid revision approvedBy (some publication)
  | .approveArtifact revision approvedBy => m.approveArtifact tid revision approvedBy none
  | .clearMaterialSelection => m.clearMaterialSelection tid
  | .upsertContest registration submissionSession =>
    m.upsertContest { registration with tid := tid } submissionSession
  | .others contest evidence => .ok { m with contest, evidence }

/-- The material rows of every contest. -/
abbrev MaterialStore : Type := String → MaterialTables

/- A unique column may hold a value of another contest's row, which is `taken`. -/
structure StoreCall where
  tid : String
  call : ApprovalCall
  taken : Option StoreError := none

def StoreCall.apply (store : MaterialStore) (c : StoreCall) : Except StoreError MaterialStore :=
  match c.taken with
  | some error => .error error
  | none => (c.call.apply c.tid (store c.tid)).map fun m other => if other = c.tid then m else store other

/-- A transaction that raises is rolled back. -/
def MaterialStore.commit (store : MaterialStore) (c : StoreCall) : MaterialStore :=
  match c.apply store with
  | .ok next => next
  | .error _ => store

def MaterialStore.empty : MaterialStore := fun _ => {}

/-- The receipt of the revision decodes and lists the revision's two files. -/
def HasReceipt (tid : String) (m : MaterialTables) (row : ArtifactRevision) : Prop :=
  ∃ publication fields, m.publication? row.revision = some publication ∧
    decodeMaterialPublication (publication.row tid) = .ok fields ∧
    textField fields "tid" = some tid.toLower ∧
    textField fields "revision" = some row.revision ∧
    attachmentsField fields = some (MaterialTables.deliveredAttachments row.content)

/-- At most one approved revision, and receipts for all that are or were approved. -/
structure Approved (tid : String) (m : MaterialTables) : Prop where
  keys : (m.revisions.map (·.revision)).Nodup
  one : ∀ a ∈ m.revisions, ∀ b ∈ m.revisions, a.state = .approved → b.state = .approved → a = b
  receipts : ∀ row ∈ m.revisions, row.state = .approved ∨ row.state = .superseded →
    HasReceipt tid m row

/-- Rows stay with their content, and a superseded one stays superseded. -/
def RowsKept (before after : MaterialTables) : Prop :=
  ∀ row ∈ before.revisions, ∃ row' ∈ after.revisions, row'.revision = row.revision ∧
    row'.content = row.content ∧ (row.state = .superseded → row'.state = .superseded)

section Receipts

theorem canonical_attachment (attachment : Attachment) :
    canonical attachment.json = .obj [("name", .str attachment.name),
      ("sha256", .str attachment.sha256), ("size", .int attachment.size)] := by
  simp [Attachment.json, canonical, canonicalFields, List.insertionSort]

/-- The fields of a receipt in the order of its text. -/
def storedFields (receipt : Receipt) : List (String × Json) :=
  [("attachments", .arr (receipt.attachments.map fun attachment => canonical attachment.json)),
    ("publication_id", .str receipt.publicationId), ("revision", .str receipt.revision),
    ("tid", .str receipt.tid)]

theorem canonical_receipt (receipt : Receipt) :
    canonical receipt.json = .obj (storedFields receipt) := by
  simp [Receipt.json, canonical, canonicalFields, canonicalItems_map, List.insertionSort,
    storedFields]

theorem ofJson_attachment (attachment : Attachment) :
    Attachment.ofJson (canonical attachment.json) = some attachment := by
  rw [canonical_attachment]
  rfl

theorem ofJson_attachments (attachments : List Attachment) :
    (attachments.map fun attachment => canonical attachment.json).mapM Attachment.ofJson =
      some attachments := by
  induction attachments with
  | nil => rfl
  | cons attachment rest ih => simp [ofJson_attachment, ih]

/- What was stored is read back. -/
theorem decode_row {tid revision : String} {content : RevisionContent} {publication : Publication}
    (receipt : ReceiptFor tid revision content publication) :
    ∃ fields, decodeMaterialPublication (publication.row tid) = .ok fields ∧
      textField fields "tid" = some tid.toLower ∧ textField fields "revision" = some revision ∧
      attachmentsField fields = some (MaterialTables.deliveredAttachments content) := by
  have decoded : loads (publication.row tid).receiptJson =
      some (.obj (storedFields publication.receipt)) := by
    rw [Publication.row, loads_dumps, canonical_receipt]
  have digest : canonicalJsonSha256 (.obj (storedFields publication.receipt)) =
      (publication.row tid).receiptSha256 := by
    rw [← canonical_receipt, canonicalJsonSha256, dumps_canonical]
    exact receipt.digest
  refine ⟨storedFields publication.receipt, ?_, congrArg some receipt.tid,
    congrArg some receipt.revision, ?_⟩
  · unfold decodeMaterialPublication
    rw [decoded]
    dsimp only
    rw [if_neg]
    rintro (other | changed)
    · exact other rfl
    · exact changed digest
  · exact (ofJson_attachments _).trans (congrArg some receipt.attachments)

end Receipts

/-- The invariant of the rows of one contest. -/
structure Audited (tid : String) (m : MaterialTables) : Prop where
  keys : (m.revisions.map (·.revision)).Nodup
  one : ∀ a ∈ m.revisions, ∀ b ∈ m.revisions, a.state = .approved → b.state = .approved → a = b
  stored : ∀ publication ∈ m.publications, ∃ row ∈ m.revisions,
    ReceiptFor tid row.revision row.content publication
  published : ∀ row ∈ m.revisions, row.state = .approved ∨ row.state = .superseded →
    ∃ publication ∈ m.publications, publication.receipt.revision = row.revision

section Steps
variable {m m' : MaterialTables} {tid : String}

theorem row_eq (audited : Audited tid m) {a b : ArtifactRevision} (memA : a ∈ m.revisions)
    (memB : b ∈ m.revisions) (same : a.revision = b.revision) : a = b :=
  List.inj_on_of_nodup_map audited.keys memA memB same

theorem Audited.approved (audited : Audited tid m) : Approved tid m where
  keys := audited.keys
  one := audited.one
  receipts := by
    intro row mem state
    obtain ⟨publication, memPublication, own⟩ := audited.published row mem state
    cases found : m.publication? row.revision with
    | none => exact absurd own (publication?_none found publication memPublication)
    | some first =>
      obtain ⟨memFirst, ownFirst⟩ := publication?_mem found
      obtain ⟨row', mem', receipt⟩ := audited.stored first memFirst
      have same : row' = row := row_eq audited mem' mem (receipt.revision.symm.trans ownFirst)
      obtain ⟨fields, decoded⟩ := decode_row (same ▸ receipt)
      exact ⟨first, fields, found, decoded⟩

theorem RowsKept.refl (m : MaterialTables) : RowsKept m m := fun row mem => ⟨row, mem, rfl, rfl, id⟩

theorem RowsKept.trans {m'' : MaterialTables} (first : RowsKept m m') (second : RowsKept m' m'') :
    RowsKept m m'' := by
  intro row mem
  obtain ⟨row', mem', revision', content', stays'⟩ := first row mem
  obtain ⟨row'', mem'', revision'', content'', stays''⟩ := second row' mem'
  exact ⟨row'', mem'', revision''.trans revision', content''.trans content', stays'' ∘ stays'⟩

/- Most transactions leave the revisions and the receipts alone. -/
theorem Audited.of_same (audited : Audited tid m) (revisions : m'.revisions = m.revisions)
    (publications : m'.publications = m.publications) : Audited tid m' ∧ RowsKept m m' := by
  refine ⟨⟨?_, ?_, ?_, ?_⟩, ?_⟩
  · rw [revisions]
    exact audited.keys
  · rw [revisions]
    exact audited.one
  · rw [revisions, publications]
    exact audited.stored
  · rw [revisions, publications]
    exact audited.published
  · unfold RowsKept
    rw [revisions]
    exact RowsKept.refl m

theorem inserted_audited {contest : Contest} {row : ArtifactRevision}
    {completed : Option MaterialTables.CompleteJob} (audited : Audited tid m)
    (first : m.revision? row.revision = none) (fresh : row.state = .draft ∨ row.state = .review) :
    Audited tid (m.inserted contest row completed) ∧ RowsKept m (m.inserted contest row completed) := by
  have unapproved : row.state ≠ .approved ∧ row.state ≠ .superseded := by
    rcases fresh with state | state <;> rw [state] <;> decide
  refine ⟨⟨?_, ?_, ?_, ?_⟩, ?_⟩
  · simp only [MaterialTables.inserted, List.map_append, List.map_cons, List.map_nil]
    refine List.Nodup.append audited.keys (List.nodup_singleton _) ?_
    rw [List.disjoint_singleton]
    intro mem
    obtain ⟨old, memOld, same⟩ := List.mem_map.mp mem
    exact revision?_none first old memOld same
  · intro a memA b memB approvedA approvedB
    rcases List.mem_append.mp memA with oldA | newA
    · rcases List.mem_append.mp memB with oldB | newB
      · exact audited.one a oldA b oldB approvedA approvedB
      · rw [List.mem_singleton.mp newB] at approvedB
        exact absurd approvedB unapproved.1
    · rw [List.mem_singleton.mp newA] at approvedA
      exact absurd approvedA unapproved.1
  · intro publication mem
    obtain ⟨old, memOld, receipt⟩ := audited.stored publication mem
    exact ⟨old, List.mem_append_left _ memOld, receipt⟩
  · intro other mem state
    rcases List.mem_append.mp mem with old | new
    · exact audited.published other old state
    · rw [List.mem_singleton.mp new] at state
      rcases state with approved | superseded
      · exact absurd approved unapproved.1
      · exact absurd superseded unapproved.2
  · exact fun old mem => ⟨old, List.mem_append_left _ mem, rfl, rfl, id⟩

/- After storing a receipt for a row, the row has one. -/
theorem receipted_audited {row : ArtifactRevision} (audited : Audited tid m)
    (mem : row ∈ m.revisions) (receipted : Receipted m tid row m') :
    Audited tid m' ∧ m'.revisions = m.revisions ∧
      ∃ publication ∈ m'.publications, publication.receipt.revision = row.revision := by
  cases receipted with
  | kept publication memPublication own => exact ⟨audited, rfl, publication, memPublication, own⟩
  | added publication receipt first =>
    refine ⟨⟨audited.keys, audited.one, ?_, ?_⟩, rfl, publication,
      List.mem_append_right _ List.mem_cons_self, receipt.revision⟩
    · intro other memOther
      rcases List.mem_append.mp memOther with old | new
      · exact audited.stored other old
      · rw [List.mem_singleton.mp new]
        exact ⟨row, mem, receipt⟩
    · intro other memOther state
      obtain ⟨found, memFound, own⟩ := audited.published other memOther state
      exact ⟨found, List.mem_append_left _ memFound, own⟩

theorem promoted_audited {contest : Contest} {row : ArtifactRevision} {approvedBy : String}
    (audited : Audited tid m) (mem : row ∈ m.revisions) (reviewed : row.state = .review)
    (receipted : ∃ publication ∈ m.publications, publication.receipt.revision = row.revision) :
    Audited tid (m.promoted contest row approvedBy) ∧ RowsKept m (m.promoted contest row approvedBy) := by
  have keeps := promote_keeps row.revision approvedBy
  have state (other : ArtifactRevision) :
      (MaterialTables.promote row.revision approvedBy other).state =
        if other.revision = row.revision then .approved
        else if other.state = .approved then .superseded else other.state := by
    unfold MaterialTables.promote
    split_ifs <;> rfl
  refine ⟨⟨?_, ?_, ?_, ?_⟩, ?_⟩
  · have names : (MaterialTables.promote row.revision approvedBy · |>.revision) =
        ArtifactRevision.revision := funext fun other => (keeps other).1
    simp only [MaterialTables.promoted, List.map_map, Function.comp_def, names]
    exact audited.keys
  · intro a memA b memB approvedA approvedB
    obtain ⟨oldA, memOldA, rfl⟩ := List.mem_map.mp memA
    obtain ⟨oldB, memOldB, rfl⟩ := List.mem_map.mp memB
    have chosen {other : ArtifactRevision}
        (approved : (MaterialTables.promote row.revision approvedBy other).state = .approved) :
        other.revision = row.revision := by
      rw [state] at approved
      split_ifs at approved with here
      · exact here
      · contradiction
    have same : oldA = oldB := row_eq audited memOldA memOldB
      ((chosen approvedA).trans (chosen approvedB).symm)
    rw [same]
  · intro publication memPublication
    obtain ⟨old, memOld, receipt⟩ := audited.stored publication memPublication
    refine ⟨_, List.mem_map_of_mem memOld, ?_⟩
    rw [(keeps old).1, (keeps old).2]
    exact receipt
  · intro other memOther approved
    obtain ⟨old, memOld, rfl⟩ := List.mem_map.mp memOther
    rw [(keeps old).1]
    rw [state] at approved
    split_ifs at approved with here current
    · rw [here]
      exact receipted
    · exact audited.published old memOld (.inl current)
    · exact audited.published old memOld approved
  · intro old memOld
    refine ⟨_, List.mem_map_of_mem memOld, (keeps old).1, (keeps old).2, ?_⟩
    intro superseded
    rw [state]
    split_ifs with here current
    · have same : old = row := row_eq audited memOld mem here
      rw [same, reviewed] at superseded
      cases superseded
    · rfl
    · exact superseded

theorem approveArtifact_audited {revision approvedBy : String} {publication : Option Publication}
    (audited : Audited tid m)
    (done : m.approveArtifact tid revision approvedBy publication = .ok m') :
    Audited tid m' ∧ RowsKept m m' := by
  obtain ⟨contest, row, m₁, -, mem, -, reviewed, receipted, rfl⟩ := approveArtifact_ok done
  obtain ⟨audited₁, same, published⟩ := receipted_audited audited mem receipted
  have kept : RowsKept m m₁ := by
    unfold RowsKept
    rw [same]
    exact RowsKept.refl m
  split
  · exact ⟨audited₁, kept⟩
  · rename_i unapproved
    have promoted : Audited tid (m₁.promoted contest row approvedBy) ∧
        RowsKept m₁ (m₁.promoted contest row approvedBy) :=
      promoted_audited audited₁ (same ▸ mem) (reviewed.resolve_right unapproved) published
    exact ⟨promoted.1, kept.trans promoted.2⟩

theorem apply_audited {call : ApprovalCall} (audited : Audited tid m)
    (done : call.apply tid m = .ok m') : Audited tid m' ∧ RowsKept m m' := by
  cases call with
  | putArtifactRevision revision state content completed fresh =>
    rcases putArtifactRevision_ok done with rfl | ⟨contest, -, first, rfl⟩
    · exact ⟨audited, RowsKept.refl _⟩
    · exact inserted_audited audited first fresh
  | startArtifactJob jobId revision details message =>
    obtain ⟨⟨job, after⟩, started, rfl⟩ := map_ok.mp done
    exact audited.of_same (startArtifactJob_same started).1 (startArtifactJob_same started).2
  | updateArtifactJob jobId state progress message error details =>
    exact audited.of_same (updateArtifactJob_same done).1 (updateArtifactJob_same done).2
  | approveArtifactWithPublication revision approvedBy publication =>
    change m.approveArtifact tid revision approvedBy (some publication) = .ok m' at done
    exact approveArtifact_audited audited done
  | approveArtifact revision approvedBy =>
    change m.approveArtifact tid revision approvedBy none = .ok m' at done
    exact approveArtifact_audited audited done
  | clearMaterialSelection =>
    exact audited.of_same (clearMaterialSelection_same done).1 (clearMaterialSelection_same done).2
  | upsertContest registration submissionSession =>
    exact audited.of_same (upsertContest_same done).1 (upsertContest_same done).2
  | others contest evidence =>
    cases done
    exact audited.of_same rfl rfl

theorem commit_rejected {store : MaterialStore} {c : StoreCall} {error : StoreError}
    (rejected : c.apply store = .error error) : store.commit c = store := by
  unfold MaterialStore.commit
  rw [rejected]

theorem commit_audited {store : MaterialStore} (audited : ∀ tid, Audited tid (store tid))
    (c : StoreCall) (tid : String) :
    Audited tid (store.commit c tid) ∧ RowsKept (store tid) (store.commit c tid) := by
  have unchanged : Audited tid (store tid) ∧ RowsKept (store tid) (store tid) :=
    ⟨audited tid, RowsKept.refl _⟩
  unfold MaterialStore.commit
  cases done : c.apply store with
  | error error => exact unchanged
  | ok next =>
    unfold StoreCall.apply at done
    split at done
    · cases done
    · obtain ⟨m, applied, rfl⟩ := map_ok.mp done
      dsimp only
      by_cases here : tid = c.tid
      · subst here
        rw [if_pos rfl]
        exact apply_audited (audited c.tid) applied
      · rw [if_neg here]
        exact unchanged

theorem run_audited {store : MaterialStore} (audited : ∀ tid, Audited tid (store tid))
    (calls : List StoreCall) (tid : String) :
    Audited tid (calls.foldl MaterialStore.commit store tid) ∧
      RowsKept (store tid) (calls.foldl MaterialStore.commit store tid) := by
  induction calls generalizing store with
  | nil => exact ⟨audited tid, RowsKept.refl _⟩
  | cons c rest ih =>
    obtain ⟨audited', kept⟩ := ih fun tid => (commit_audited audited c tid).1
    exact ⟨audited', (commit_audited audited c tid).2.trans kept⟩

theorem empty_audited (tid : String) : Audited tid (MaterialStore.empty tid) := by
  constructor <;> simp [MaterialStore.empty]

end Steps

theorem approvals_hold (earlier later : List StoreCall) (tid : String) :
    Approved tid (earlier.foldl MaterialStore.commit MaterialStore.empty tid) ∧
      RowsKept (earlier.foldl MaterialStore.commit MaterialStore.empty tid)
        (later.foldl MaterialStore.commit (earlier.foldl MaterialStore.commit MaterialStore.empty)
          tid) ∧
      ∀ c error, c.apply (earlier.foldl MaterialStore.commit MaterialStore.empty) = .error error →
        (earlier.foldl MaterialStore.commit MaterialStore.empty).commit c =
          earlier.foldl MaterialStore.commit MaterialStore.empty := by
  have reached := fun tid => (run_audited empty_audited earlier tid).1
  exact ⟨(reached tid).approved, (run_audited reached later tid).2, fun c error => commit_rejected⟩

end NoiContest.Materials
