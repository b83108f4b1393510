import Mathlib.Algebra.Order.BigOperators.Group.List
import NoiContest.HydroPlugin.MaterialPublication
import NoiContest.Lib.Effect

/- What a publication request leaves of an earlier publication of the same contest. The marker
   is written last, but the attachments are written over the published ones before it. -/
namespace NoiContest.HydroPlugin
open Effect

/- The stored object has the size and the digest that are recorded. -/
def Held (settings : MaterialSettings) (tid : String) (storage : Dict String (List UInt8))
    (d : Declared) : Prop :=
  ∃ source, storage.get? (materialStoragePath settings.domain tid d.name) = some source ∧
    source.length = d.size ∧ Sha256.hexdigest source = d.sha256

/- The contest document shows the publication: its marker, and each file once. -/
structure Contest.Lists (tdoc : Contest) (marker : Marker) : Prop where
  marked : tdoc.orchestratorMaterials = some marker
  filed : ∀ d ∈ marker.attachments, ∃ file,
    tdoc.privateFiles.filter (·.name == d.name) = [file] ∧ file.size = d.size

def MaterialRequest.marker {maxBytes : Nat} (request : MaterialRequest maxBytes) : Marker :=
  materialMarker request (materialPublicationFingerprint request)

/-- The publication of the request verifies in the plugin's own sense. -/
def Published (settings : MaterialSettings) (prev : MaterialRequest settings.maxBytes)
    (shelf : Shelf) : Prop :=
  verifyPublishedMaterials settings shelf.storage [] shelf.contest
    (prev.reservation (materialPublicationFingerprint prev) "") = .ok true

section Reading
variable {settings : MaterialSettings} {storage : Dict String (List UInt8)} {tdoc : Contest}
  {tid : String}

theorem verifyAttachment_true {d : Declared} (small : d.size ≤ settings.maxBytes) :
    verifyAttachment settings storage tdoc tid false d = .ok true ↔
      (∃ file, tdoc.privateFiles.filter (·.name == d.name) = [file] ∧ file.size = d.size) ∧
      Held settings tid storage d := by
  unfold verifyAttachment
  split
  · rename_i file only
    rw [only]
    by_cases size : file.size = d.size
    · simp only [size, ne_eq, not_true_eq_false, if_false, Bool.false_eq_true]
      cases found : storage.get? (materialStoragePath settings.domain tid d.name) with
      | none => simp [Held, found]
      | some source =>
        have listed : ∃ file', [file] = [file'] ∧ file'.size = (d.size : Int) := ⟨file, rfl, size⟩
        simp only [Outcome.map_ok, Held, found, Option.some.injEq, exists_eq_left', listed,
          true_and]
        constructor
        · rintro ⟨actual, read, same⟩
          unfold exactStreamSha256 at read
          split at read
          · cases read
          · cases read
            simpa using same
        · rintro ⟨length, digest⟩
          refine ⟨(Sha256.hexdigest source, source.length), ?_, by simp [length, digest]⟩
          rw [exactStreamSha256, if_neg (by omega)]
    · simp only [size, ne_eq, not_false_eq_true, if_true, Except.ok.injEq, Bool.false_eq_true,
        false_iff, not_and]
      rintro ⟨file', same, size'⟩ -
      obtain rfl := List.singleton_inj.mp same
      exact size size'
  · rename_i several
    simp only [Except.ok.injEq, Bool.false_eq_true, false_iff, not_and]
    rintro ⟨file, only, -⟩
    exact absurd only (several file)

theorem verifyAttachments_true : ∀ {declared : List Declared},
    (∀ d ∈ declared, d.size ≤ settings.maxBytes) →
    (verifyAttachments settings storage tdoc tid [] declared = .ok true ↔
      ∀ d ∈ declared, (∃ file, tdoc.privateFiles.filter (·.name == d.name) = [file] ∧
        file.size = d.size) ∧ Held settings tid storage d)
  | [], _ => by simp [verifyAttachments]
  | d :: rest, small => by
    have first : verifyAttachment settings storage tdoc tid false d = .ok true ↔ _ :=
      verifyAttachment_true (small d List.mem_cons_self)
    have later := verifyAttachments_true fun d' mem => small d' (List.mem_cons_of_mem _ mem)
    rw [verifyAttachments]
    simp only [List.headD_nil, List.tail_nil, List.forall_mem_cons]
    rw [← first]
    cases checked : verifyAttachment settings storage tdoc tid false d with
    | error failure => simp
    | ok fine =>
      cases fine with
      | false => simp
      | true => simpa using later

end Reading

section Publications
variable {settings : MaterialSettings} {prev : MaterialRequest settings.maxBytes}

theorem declared_small {d : Declared} (mem : d ∈ prev.declared) : d.size ≤ settings.maxBytes := by
  obtain ⟨attachment, listed, rfl⟩ := List.mem_map.mp mem
  exact (List.single_le_sum (by simp) attachment.size
    (List.mem_map.mpr ⟨attachment, listed, rfl⟩)).trans prev.bounded

theorem markerMatches_iff {marker : Marker} : markerMatches marker
    (prev.reservation (materialPublicationFingerprint prev) "") = true ↔ marker = prev.marker := by
  obtain ⟨version, publicationId, revision, fingerprint, attachments⟩ := marker
  simp [markerMatches, MaterialRequest.reservation, MaterialRequest.marker, materialMarker, and_assoc]

theorem published_iff {shelf : Shelf} : Published settings prev shelf ↔
    shelf.contest.Lists prev.marker ∧
      ∀ d ∈ prev.declared, Held settings prev.tid shelf.storage d := by
  unfold Published verifyPublishedMaterials
  cases marked : shelf.contest.orchestratorMaterials with
  | none =>
    simp only [Except.ok.injEq, Bool.false_eq_true, false_iff, not_and]
    intro lists
    simp [lists.marked] at marked
  | some marker =>
    dsimp only
    by_cases same : marker = prev.marker
    · have matched := markerMatches_iff.mpr same
      rw [matched]
      have small : ∀ d ∈ prev.declared, d.size ≤ settings.maxBytes := fun d mem =>
        declared_small mem
      have attachments : verifyAttachments settings shelf.storage shelf.contest prev.tid []
          prev.declared = .ok true ↔ _ := verifyAttachments_true small
      simp only [Bool.not_true, Bool.false_eq_true, if_false]
      refine attachments.trans ⟨fun all => ?_, fun both d mem => ?_⟩
      · exact ⟨⟨same ▸ marked, fun d mem => (all d mem).1⟩, fun d mem => (all d mem).2⟩
      · exact ⟨both.1.filed d mem, both.2 d mem⟩
    · have differs : markerMatches marker
          (prev.reservation (materialPublicationFingerprint prev) "") = false := by
        simpa using fun matched => same (markerMatches_iff.mp matched)
      rw [differs]
      simp only [Bool.not_false, if_true, Except.ok.injEq, Bool.false_eq_true, false_iff, not_and]
      intro lists
      exact absurd (Option.some.inj (marked.symm.trans lists.marked)) same

end Publications

/- The upload writes the bytes that are published under that name already. -/
def Attachment.Keeps (attachment : Attachment) (declared : List Declared) : Prop :=
  ∀ d ∈ declared, d.name = attachment.name →
    d.size = attachment.size ∧ d.sha256 = attachment.sha256

def Upload.passes (settings : MaterialSettings) (upload : Upload) (attachment : Attachment)
    (entry : MaterialEntry) : Bool :=
  upload.put == .returned && (upload.confirms settings attachment).isOk &&
    (entry.uploaded.contains attachment.name || upload.save)

def uploadsPass (settings : MaterialSettings) : List Upload → List Attachment → MaterialEntry →
    Bool
  | _, [], _ => true
  | uploads, attachment :: rest, entry =>
    (uploads.headD unanswered).passes settings attachment entry &&
      uploadsPass settings uploads.tail rest (entry.noted attachment.name)

/- No put up to the first call that fails overwrites an attachment with other bytes. -/
def UploadsKeep (settings : MaterialSettings) (declared : List Declared) :
    List Upload → List Attachment → MaterialEntry → Prop
  | _, [], _ => True
  | uploads, attachment :: rest, entry =>
    ((uploads.headD unanswered).put.effective = true → attachment.Keeps declared) ∧
      ((uploads.headD unanswered).passes settings attachment entry = true →
        UploadsKeep settings declared uploads.tail rest (entry.noted attachment.name))

section Uploading
variable {settings : MaterialSettings} {tid : String} {declared : List Declared} {s : Shelf}

theorem materialStoragePath_injective {domain tid name name' : String}
    (same : materialStoragePath domain tid name = materialStoragePath domain tid name') :
    name = name' := by
  simpa [materialStoragePath] using same

theorem held_set {name : String} {content : List UInt8} {d : Declared} {storage : Dict String (List UInt8)} :
    Held settings tid (storage.set (materialStoragePath settings.domain tid name) content) d ↔
      if d.name = name then content.length = d.size ∧ Sha256.hexdigest content = d.sha256
      else Held settings tid storage d := by
  by_cases same : d.name = name
  · simp [Held, same]
  · have other : materialStoragePath settings.domain tid d.name ≠
        materialStoragePath settings.domain tid name :=
      fun eq => same (materialStoragePath_injective eq)
    simp [Held, same, Dict.get?_set_ne other]

theorem putObject_ends {path : String} {content : List UInt8} {put : Done} :
    Ends (putObject path content put) s
      (fun _ t => put = .returned ∧
        t = { s with storage := s.storage.set path content })
      (fun _ t => put ≠ .returned ∧ t = if put.effective then
        { s with storage := s.storage.set path content } else s) := by
  cases put with
  | returned => exact ⟨rfl, rfl⟩
  | threw effective =>
    cases effective
    · exact ⟨by simp, rfl⟩
    · exact ⟨by simp, rfl⟩

theorem saveMaterial_ends {works : Bool} :
    Ends (saveMaterialIdempotencyState settings works) s
      (fun _ t => works = true ∧ t.contest = s.contest ∧ t.storage = s.storage)
      (fun _ t => works = false ∧ t.contest = s.contest ∧ t.storage = s.storage) := by
  cases works
  · exact ⟨rfl, rfl, rfl⟩
  · exact ⟨rfl, rfl, rfl⟩

theorem changeEntry_ends {publicationId : String} {change : MaterialEntry → MaterialEntry}
    {failed : MaterialFailure → Shelf → Prop} :
    Ends (changeEntry publicationId change) s
      (fun _ t => t.contest = s.contest ∧ t.storage = s.storage) failed := by
  rw [changeEntry, ends_modify]
  cases s.entries.get? publicationId <;> exact ⟨rfl, rfl⟩

theorem noteUploaded_ends {name : String} {save : Bool} {entry : MaterialEntry} :
    Ends (noteUploaded settings name save entry) s
      (fun noted t => noted = entry.noted name ∧ (entry.uploaded.contains name || save) = true ∧
        t.contest = s.contest ∧ t.storage = s.storage)
      (fun _ t => (entry.uploaded.contains name || save) = false ∧ t.contest = s.contest ∧
        t.storage = s.storage) := by
  unfold noteUploaded
  cases known : entry.uploaded.contains name with
  | true => exact ⟨rfl, rfl, rfl, rfl⟩
  | false =>
    simp only [Bool.not_false, if_true, ends_bind, Bool.false_or]
    refine changeEntry_ends.mono ?_ fun _ _ kept => kept
    rintro - t ⟨contest, storage⟩
    refine saveMaterial_ends.mono ?_ ?_
    · rintro - t' ⟨works, contest', storage'⟩
      exact ⟨rfl, works, contest'.trans contest, storage'.trans storage⟩
    · rintro - t' ⟨broken, contest', storage'⟩
      exact ⟨broken, contest'.trans contest, storage'.trans storage⟩

/- The files that a commit lists are those of the request. -/
def Uploaded (files : List PrivateFile) (attachments : List Attachment) : Prop :=
  List.Forall₂ (fun (file : PrivateFile) (attachment : Attachment) =>
    file.name = attachment.name ∧ file.size = attachment.size) files attachments

theorem confirms_size {upload : Upload} {attachment : Attachment} {fileMeta : FileMeta}
    (confirmed : upload.confirms settings attachment = .ok fileMeta) :
    fileMeta.size = attachment.size := by
  unfold Upload.confirms at confirmed
  split at confirmed
  · cases confirmed
  · cases confirmed
  · split at confirmed
    · cases confirmed
    · rename_i size
      split at confirmed
      · cases confirmed
      · split at confirmed
        · cases confirmed
        · split at confirmed
          · cases confirmed
          · cases confirmed
            simpa using size

/- One put against all that is declared: its own attachment, and the others as before. -/
theorem held_after_put {attachment : Attachment} {rest : List Attachment}
    (fresh : attachment.name ∉ rest.map (·.name)) (storage : Dict String (List UInt8)) :
    (∀ d ∈ declared, d.name ∉ rest.map (·.name) → Held settings tid
        (storage.set (materialStoragePath settings.domain tid attachment.name)
          attachment.content) d) ↔
      (∀ d ∈ declared, d.name ∉ (attachment :: rest).map (·.name) →
        Held settings tid storage d) ∧ attachment.Keeps declared := by
  constructor
  · intro all
    constructor
    · intro d mem outside
      have split : d.name ≠ attachment.name ∧ d.name ∉ rest.map (·.name) := by
        simpa using outside
      have held := held_set.mp (all d mem split.2)
      simpa [split.1] using held
    · intro d mem same
      have held := held_set.mp (all d mem (same ▸ fresh))
      simp only [same, if_true] at held
      exact ⟨by rw [attachment.measured]; exact held.1.symm,
        by rw [attachment.digested]; exact held.2.symm⟩
  · rintro ⟨others, keeps⟩ d mem outside
    rw [held_set]
    by_cases same : d.name = attachment.name
    · obtain ⟨size, digest⟩ := keeps d mem same
      simp [same, size, digest, attachment.measured, ← attachment.digested]
    · rw [if_neg same]
      refine others d mem ?_
      simpa [same] using outside

/- What an upload loop leaves of the declared objects, whichever way it ends. -/
structure UploadsLeft (settings : MaterialSettings) (tid : String) (declared : List Declared)
    (uploads : List Upload) (attachments : List Attachment) (entry : MaterialEntry)
    (s t : Shelf) : Prop where
  contest : t.contest = s.contest
  held : (∀ d ∈ declared, Held settings tid t.storage d) ↔
    (∀ d ∈ declared, d.name ∉ attachments.map (·.name) → Held settings tid s.storage d) ∧
      UploadsKeep settings declared uploads attachments entry

theorem confirms_isOk {upload : Upload} {attachment : Attachment} {fileMeta : FileMeta}
    (confirmed : upload.confirms settings attachment = .ok fileMeta) :
    (upload.confirms settings attachment).isOk = true := by
  rw [confirmed]
  rfl

/- The loop stopped at its first attachment. -/
theorem stopped_left {uploads : List Upload} {attachment : Attachment} {rest : List Attachment}
    {entry : MaterialEntry} {t : Shelf}
    (fresh : attachment.name ∉ rest.map (·.name))
    (pending : ∀ d ∈ declared, d.name ∈ (attachment :: rest).map (·.name) →
      Held settings tid s.storage d) (contest : t.contest = s.contest)
    (storage : t.storage = if (uploads.headD unanswered).put.effective then
      s.storage.set (materialStoragePath settings.domain tid attachment.name) attachment.content
      else s.storage)
    (stops : (uploads.headD unanswered).passes settings attachment entry = false) :
    UploadsLeft settings tid declared uploads (attachment :: rest) entry s t where
  contest := contest
  held := by
    have keep : UploadsKeep settings declared uploads (attachment :: rest) entry ↔
        ((uploads.headD unanswered).put.effective = true → attachment.Keeps declared) := by
      simp only [UploadsKeep, stops, Bool.false_eq_true, false_imp_iff, and_true]
    rw [keep, storage]
    by_cases effective : (uploads.headD unanswered).put.effective = true
    · simp only [effective, if_true, true_imp_iff]
      rw [← held_after_put fresh]
      refine ⟨fun all d mem _ => all d mem, fun all d mem => ?_⟩
      by_cases inside : d.name ∈ rest.map (·.name)
      · have other : d.name ≠ attachment.name := fun same => fresh (same ▸ inside)
        rw [held_set, if_neg other]
        exact pending d mem (List.mem_cons_of_mem _ inside)
      · exact all d mem inside
    · simp only [effective, if_false, false_imp_iff, and_true, Bool.false_eq_true]
      refine ⟨fun all d mem _ => all d mem, fun all d mem => ?_⟩
      by_cases inside : d.name ∈ (attachment :: rest).map (·.name)
      · exact pending d mem inside
      · exact all d mem inside

/-- The loop by its first attachment: what is put under one name stays, as the names differ. -/
theorem uploadAttachments_ends : ∀ {attachments : List Attachment} {uploads : List Upload}
    {entry : MaterialEntry} {s : Shelf}, (attachments.map (·.name)).Nodup →
    (∀ d ∈ declared, d.name ∈ attachments.map (·.name) → Held settings tid s.storage d) →
    Ends (uploadAttachments settings tid uploads attachments entry) s
      (fun files t => UploadsLeft settings tid declared uploads attachments entry s t ∧
        uploadsPass settings uploads attachments entry = true ∧ Uploaded files attachments)
      (fun _ t => UploadsLeft settings tid declared uploads attachments entry s t ∧
        uploadsPass settings uploads attachments entry = false)
  | [], uploads, entry, s, _, _ => by
    refine ⟨⟨rfl, ?_⟩, rfl, List.Forall₂.nil⟩
    simp [UploadsKeep]
  | attachment :: rest, uploads, entry, s, distinct, pending => by
    obtain ⟨fresh, distinctRest⟩ : attachment.name ∉ rest.map (·.name) ∧
        (rest.map (·.name)).Nodup := List.nodup_cons.mp distinct
    let upload := uploads.headD unanswered
    rw [uploadAttachments, ends_bind]
    refine putObject_ends.mono ?_ ?_
    · rintro - t ⟨returned, rfl⟩
      have effective : upload.put.effective = true := by rw [returned]; rfl
      have stop : upload.passes settings attachment entry = false →
          ∀ t : Shelf, t.contest = s.contest → t.storage = s.storage.set
            (materialStoragePath settings.domain tid attachment.name) attachment.content →
          UploadsLeft settings tid declared uploads (attachment :: rest) entry s t ∧
            uploadsPass settings uploads (attachment :: rest) entry = false := by
        intro stops t contest storage
        refine ⟨stopped_left fresh pending contest ?_ stops, ?_⟩
        · rw [storage, if_pos effective]
        · rw [uploadsPass, stops, Bool.false_and]
      cases confirmed : upload.confirms settings attachment with
      | error failure =>
        exact stop (by simp [Upload.passes, confirmed, Except.isOk, Except.toBool]) _ rfl rfl
      | ok fileMeta =>
        have isOk := confirms_isOk confirmed
        rw [ends_bind]
        refine noteUploaded_ends.mono ?_ ?_
        · rintro noted t ⟨rfl, saved, contest, storage⟩
          have passes : upload.passes settings attachment entry = true := by
            have saved' : (entry.uploaded.contains attachment.name || upload.save) = true := saved
            have returned' : upload.put = .returned := returned
            rw [Upload.passes, isOk, saved', returned']
            rfl
          have pendingRest : ∀ d ∈ declared, d.name ∈ rest.map (·.name) →
              Held settings tid t.storage d := by
            intro d mem inside
            have other : d.name ≠ attachment.name := fun same => fresh (same ▸ inside)
            rw [storage, held_set, if_neg other]
            exact pending d mem (List.mem_cons_of_mem _ inside)
          have left : ∀ u : Shelf, UploadsLeft settings tid declared uploads.tail rest
              (entry.noted attachment.name) t u →
              UploadsLeft settings tid declared uploads (attachment :: rest) entry s u := by
            rintro u ⟨contestU, heldU⟩
            refine ⟨contestU.trans contest, heldU.trans ?_⟩
            rw [storage, held_after_put fresh, UploadsKeep]
            have first : (attachment.Keeps declared ∧ UploadsKeep settings declared uploads.tail
                rest (entry.noted attachment.name)) ↔
                ((upload.put.effective = true → attachment.Keeps declared) ∧
                  (upload.passes settings attachment entry = true → UploadsKeep settings declared
                    uploads.tail rest (entry.noted attachment.name))) := by
              simp [effective, passes]
            rw [and_assoc, first]
          have passAll : uploadsPass settings uploads (attachment :: rest) entry =
              uploadsPass settings uploads.tail rest (entry.noted attachment.name) := by
            rw [uploadsPass]
            change (upload.passes settings attachment entry && _) = _
            rw [passes, Bool.true_and]
          rw [ends_bind]
          refine (uploadAttachments_ends distinctRest pendingRest).mono ?_ ?_
          · rintro files u ⟨leftU, passed, files_⟩
            exact ⟨left u leftU, passAll.trans passed,
              .cons ⟨rfl, confirms_size confirmed⟩ files_⟩
          · rintro failure u ⟨leftU, passed⟩
            exact ⟨left u leftU, passAll.trans passed⟩
        · rintro failure t ⟨unsaved, contest, storage⟩
          have stops : upload.passes settings attachment entry = false := by
            have unsaved' : (entry.uploaded.contains attachment.name || upload.save) = false :=
              unsaved
            rw [Upload.passes, unsaved', Bool.and_false]
          exact stop stops t contest storage
    · rintro failure t ⟨threw, rfl⟩
      have stops : upload.passes settings attachment entry = false := by
        have differs : (upload.put == .returned) = false := beq_false_of_ne threw
        rw [Upload.passes, differs, Bool.false_and, Bool.false_and]
      refine ⟨stopped_left fresh pending ?_ ?_ stops, ?_⟩
      · split <;> rfl
      · change _ = if upload.put.effective = true then _ else _
        split <;> rfl
      · rw [uploadsPass]
        change (upload.passes settings attachment entry && _) = _
        rw [stops, Bool.false_and]

end Uploading

/- Others leave the marker and the two published files as they find them. -/
structure LeavesAlone (others : Contest → Contest) : Prop where
  marker : ∀ tdoc, (others tdoc).orchestratorMaterials = tdoc.orchestratorMaterials
  files : ∀ tdoc, reservedFiles (others tdoc) = reservedFiles tdoc

structure Surroundings.LeaveAlone (around : Surroundings) : Prop where
  beforeRead : LeavesAlone around.beforeRead
  beforeCommit : LeavesAlone around.beforeCommit
  beforeEdit : LeavesAlone around.beforeEdit
  afterEdit : LeavesAlone around.afterEdit

section Committing
variable {settings : MaterialSettings} {prev request : MaterialRequest settings.maxBytes}
  {around : Surroundings} {s : Shelf}

theorem declared_reserved {d : Declared} (mem : d ∈ prev.declared) :
    d.name ∈ materialAttachmentNames := by
  obtain ⟨attachment, listed, rfl⟩ := List.mem_map.mp mem
  rw [← prev.named]
  exact List.mem_map.mpr ⟨attachment, listed, rfl⟩

/- A reserved name is looked up among the reserved files only. -/
theorem filter_reserved {name : String} (reserved : name ∈ materialAttachmentNames)
    (tdoc : Contest) : tdoc.privateFiles.filter (·.name == name) =
      (reservedFiles tdoc).filter (·.name == name) := by
  rw [reservedFiles, List.filter_filter]
  refine List.filter_congr fun file _ => ?_
  by_cases same : file.name = name
  · simp [same, reserved]
  · simp [same]

theorem lists_congr {tdoc tdoc' : Contest}
    (marker : tdoc'.orchestratorMaterials = tdoc.orchestratorMaterials)
    (files : reservedFiles tdoc' = reservedFiles tdoc) :
    tdoc'.Lists prev.marker ↔ tdoc.Lists prev.marker := by
  have same : ∀ d ∈ prev.marker.attachments, tdoc'.privateFiles.filter (·.name == d.name) =
      tdoc.privateFiles.filter (·.name == d.name) := by
    intro d mem
    have mem : d ∈ prev.declared := mem
    have reserved := declared_reserved mem
    rw [filter_reserved reserved, filter_reserved reserved, files]
  constructor
  · rintro ⟨marked, filed⟩
    exact ⟨marker ▸ marked, fun d mem => same d mem ▸ filed d mem⟩
  · rintro ⟨marked, filed⟩
    exact ⟨marker.trans marked, fun d mem => (same d mem).symm ▸ filed d mem⟩

theorem LeavesAlone.lists {others : Contest → Contest} (alone : LeavesAlone others)
    (tdoc : Contest) : (others tdoc).Lists prev.marker ↔ tdoc.Lists prev.marker :=
  lists_congr (alone.marker tdoc) (alone.files tdoc)

theorem Uploaded.names {files : List PrivateFile} {attachments : List Attachment}
    (uploaded : Uploaded files attachments) :
    files.map (·.name) = attachments.map (·.name) := by
  induction uploaded with
  | nil => rfl
  | cons same _ ih => simp [same.1, ih]

theorem Uploaded.find {files : List PrivateFile} {attachments : List Attachment}
    (uploaded : Uploaded files attachments) (distinct : (attachments.map (·.name)).Nodup)
    {attachment : Attachment} (mem : attachment ∈ attachments) :
    ∃ file, files.filter (·.name == attachment.name) = [file] ∧ file.size = attachment.size := by
  induction uploaded with
  | nil => cases mem
  | @cons file first files rest same later ih =>
    obtain ⟨fresh, distinctRest⟩ : first.name ∉ rest.map (·.name) ∧ (rest.map (·.name)).Nodup :=
      List.nodup_cons.mp distinct
    rcases List.mem_cons.mp mem with rfl | inside
    · refine ⟨file, ?_, same.2⟩
      have none_later : files.filter (·.name == attachment.name) = [] := by
        refine List.filter_eq_nil_iff.mpr fun other there hit => fresh ?_
        rw [← Uploaded.names later, ← (by simpa using hit : other.name = attachment.name)]
        exact List.mem_map.mpr ⟨other, there, rfl⟩
      rw [List.filter_cons, if_pos (by simp [same.1]), none_later]
    · have other : file.name ≠ attachment.name := by
        rw [same.1]
        exact fun eq => fresh (eq ▸ List.mem_map.mpr ⟨attachment, inside, rfl⟩)
      rw [List.filter_cons, if_neg (by simpa using other)]
      exact ih distinctRest inside

theorem request_distinct (request : MaterialRequest settings.maxBytes) :
    (request.attachments.map (·.name)).Nodup := by
  rw [request.named]
  decide

def Contest.edited (tdoc : Contest) (privateFiles : List PrivateFile) (marker : Marker) :
    Contest :=
  { tdoc with privateFiles, orchestratorMaterials := some marker }

/- An edit that took effect shows its own publication and no other. -/
theorem edited_lists {tdoc now : Contest} {published : List PrivateFile}
    (uploaded : Uploaded published request.attachments) :
    (now.edited (unreserved tdoc ++ published) request.marker).Lists prev.marker ↔
      request.marker = prev.marker := by
  constructor
  · intro lists
    exact Option.some.inj lists.marked
  · intro same
    refine ⟨congrArg some same, fun d mem => ?_⟩
    have declared : d ∈ request.declared := by
      have attachments : request.marker.attachments = prev.marker.attachments := by rw [same]
      rw [← attachments] at mem
      exact mem
    obtain ⟨attachment, listed, rfl⟩ := List.mem_map.mp declared
    obtain ⟨file, only, size⟩ := uploaded.find (request_distinct request) listed
    refine ⟨file, ?_, size⟩
    have outside : (unreserved tdoc).filter (·.name == attachment.name) = [] := by
      refine List.filter_eq_nil_iff.mpr fun other there hit => ?_
      have reserved := declared_reserved declared
      simp only [unreserved, List.mem_filter, Bool.not_eq_true'] at there
      simp only [beq_iff_eq] at hit
      simp [hit, reserved] at there
    change (unreserved tdoc ++ published).filter _ = _
    rw [List.filter_append, outside, List.nil_append]
    exact only

/- The commit is reached with the marker unchanged, and its edit takes effect. -/
def Surroundings.editTakes (around : Surroundings) (tdoc : Contest)
    (previousMarker : Option Marker) : Bool :=
  !around.commitReadFails &&
    (commitChecks (around.beforeCommit tdoc) around.commitNow previousMarker).isOk &&
    around.edit.effective

@[simp] theorem ends_failWhen {bad : Bool} {failure : MaterialFailure}
    {post : Unit → Shelf → Prop} {raised : MaterialFailure → Shelf → Prop} :
    Ends (failWhen bad failure) s post raised ↔
      (bad = true → raised failure s) ∧ (bad = false → post () s) := by
  cases bad <;> simp [failWhen]

theorem getContest_ends {others : Contest → Contest} {fails : Bool} :
    Ends (getContest others fails) s
      (fun tdoc t => fails = false ∧ tdoc = others s.contest ∧
        t = { s with contest := others s.contest })
      (fun _ t => fails = true ∧ t = { s with contest := others s.contest }) := by
  rw [getContest, ends_bind, ends_modify, ends_bind, ends_failWhen]
  exact ⟨fun broken => ⟨broken, rfl⟩, fun fine => ⟨fine, rfl, rfl⟩⟩

theorem completeMaterialEntry_ends {publicationId : String}
    {change : MaterialEntry → MaterialEntry} {works : Bool} :
    Ends (completeMaterialEntry settings publicationId change works) s
      (fun _ t => t.contest = s.contest ∧ t.storage = s.storage)
      (fun _ t => t.contest = s.contest ∧ t.storage = s.storage) := by
  rw [completeMaterialEntry, ends_bind]
  refine changeEntry_ends.mono ?_ fun _ _ kept => kept
  rintro - t ⟨contest, storage⟩
  refine saveMaterial_ends.mono ?_ ?_
  · rintro - u ⟨-, contest', storage'⟩
    exact ⟨contest'.trans contest, storage'.trans storage⟩
  · rintro - u ⟨-, contest', storage'⟩
    exact ⟨contest'.trans contest, storage'.trans storage⟩

theorem editContest_ends {others : Contest → Contest} {privateFiles : List PrivateFile}
    {marker : Marker} {edit : Done} :
    Ends (editContest others privateFiles marker edit) s
      (fun _ t => edit = .returned ∧ t.storage = s.storage ∧
        t.contest = (others s.contest).edited privateFiles marker)
      (fun _ t => t.storage = s.storage ∧ t.contest = if edit.effective then
        (others s.contest).edited privateFiles marker else others s.contest) := by
  cases edit with
  | returned => exact ⟨rfl, rfl, rfl⟩
  | threw effective => cases effective <;> exact ⟨rfl, rfl⟩

/- What the commit leaves of a contest that shows the earlier publication. -/
structure CommitLeft (prev request : MaterialRequest settings.maxBytes) (takes : Bool)
    (s t : Shelf) : Prop where
  storage : t.storage = s.storage
  lists : t.contest.Lists prev.marker ↔ (takes = true → request.marker = prev.marker)

/-- The commit writes no object, and the contest shows the earlier publication after it unless
    an edit for another one took effect. -/
theorem commitPublication_ends (alone : around.LeaveAlone) (entry : MaterialEntry)
    {previousMarker : Option Marker} {published : List PrivateFile}
    (uploaded : Uploaded published request.attachments) (lists : s.contest.Lists prev.marker) :
    Ends (commitPublication settings around request entry previousMarker published) s
      (fun _ t => CommitLeft prev request (around.editTakes s.contest previousMarker) s t)
      (fun _ t => CommitLeft prev request (around.editTakes s.contest previousMarker) s t) := by
  have before : (around.beforeCommit s.contest).Lists prev.marker :=
    (alone.beforeCommit.lists _).mpr lists
  rw [commitPublication, ends_bind]
  refine getContest_ends.mono ?_ ?_
  · rintro tdoc t ⟨reads, rfl, rfl⟩
    cases checked : commitChecks (around.beforeCommit s.contest) around.commitNow
        previousMarker with
    | error failure =>
      have untaken : around.editTakes s.contest previousMarker = false := by
        simp [Surroundings.editTakes, checked, Except.isOk, Except.toBool]
      exact ⟨rfl, by simp [untaken, before]⟩
    | ok _ =>
      have takes : around.editTakes s.contest previousMarker = around.edit.effective := by
        simp [Surroundings.editTakes, checked, reads, Except.isOk, Except.toBool]
      have ready : (around.beforeEdit (around.beforeCommit s.contest)).Lists prev.marker :=
        (alone.beforeEdit.lists _).mpr before
      have edited : ∀ now : Contest, (now.edited (unreserved (around.beforeCommit s.contest) ++
          published) request.marker).Lists prev.marker ↔ request.marker = prev.marker :=
        fun now => edited_lists uploaded
      change Ends (editContest _ _ _ _ >>= _) _ _ _
      rw [ends_bind]
      refine editContest_ends.mono ?_ ?_
      · rintro - t ⟨returned, storage, contest⟩
        have final : ∀ u : Shelf, u.storage = t.storage →
            u.contest = around.afterEdit t.contest →
            CommitLeft prev request (around.editTakes s.contest previousMarker) s u := by
          intro u storage' contest'
          refine ⟨storage'.trans storage, ?_⟩
          rw [contest', alone.afterEdit.lists, contest, takes, returned]
          exact (edited _).trans (by simp [Done.effective])
        rw [ends_bind]
        refine getContest_ends.mono ?_ ?_
        · rintro applied u ⟨-, rfl, rfl⟩
          rw [ends_bind, ends_get]
          split
          · exact final _ rfl rfl
          · exact final _ rfl rfl
          · refine completeMaterialEntry_ends.mono ?_ ?_
            · rintro - v ⟨contest', storage'⟩
              exact final v storage' contest'
            · rintro - v ⟨contest', storage'⟩
              exact final v storage' contest'
        · rintro failure u ⟨-, rfl⟩
          exact final _ rfl rfl
      · rintro failure t ⟨storage, contest⟩
        refine ⟨storage, ?_⟩
        rw [contest, takes]
        by_cases effective : around.edit.effective = true
        · simp only [effective, if_true, true_imp_iff]
          exact edited _
        · simp only [effective, if_false, false_imp_iff, iff_true, Bool.false_eq_true]
          exact ready
  · rintro failure t ⟨broken, rfl⟩
    have untaken : around.editTakes s.contest previousMarker = false := by
      simp [Surroundings.editTakes, broken]
    exact ⟨rfl, by simp [untaken, before]⟩

end Committing

/- What a request goes on to upload: the checks before its first write all pass. -/
def uploadPlan (settings : MaterialSettings) (around : Surroundings) (body : MaterialBody)
    (shelf : Shelf) : Option (MaterialRequest settings.maxBytes × MaterialEntry × Option Marker) :=
  match body.parse settings with
  | .error _ => none
  | .ok request =>
    let fingerprint := materialPublicationFingerprint request
    let known := shelf.entries.get? request.publicationId
    let entry := known.getD (request.reservation fingerprint around.createdAt)
    if !materialTokenMatches settings body.headerToken || request.publicationId != fingerprint ||
        known.any (·.fingerprint != fingerprint) ||
        (shelf.inFlight.get? request.publicationId).isSome ||
        (known.isNone && !around.reserve) ||
        (shelf.draftMutation || shelf.materialMutation || shelf.submissionLeases != 0) ||
        around.readFails then none
    else
      match openingChecks settings around entry shelf.storage (around.beforeRead shelf.contest) with
      | .ok (.toUpload previousMarker) => some (request, entry, previousMarker)
      | _ => none

/-- The request overwrites no published attachment with other bytes before it fails, and no edit
    for another publication takes effect. -/
def KeepsPublished (settings : MaterialSettings) (around : Surroundings) (body : MaterialBody)
    (prev : MaterialRequest settings.maxBytes) (shelf : Shelf) : Prop :=
  ∀ request entry previousMarker,
    uploadPlan settings around body shelf = some (request, entry, previousMarker) →
    UploadsKeep settings prev.declared around.uploads request.attachments entry ∧
      (uploadsPass settings around.uploads request.attachments entry = true →
        around.editTakes (around.beforeRead shelf.contest) previousMarker = true →
        request.marker = prev.marker)

section Requests
variable {settings : MaterialSettings} {prev : MaterialRequest settings.maxBytes}
  {around : Surroundings} {body : MaterialBody} {shelf : Shelf}

/- The goal of every way out of a request. -/
def Decides (settings : MaterialSettings) (around : Surroundings) (body : MaterialBody)
    (prev : MaterialRequest settings.maxBytes) (shelf t : Shelf) : Prop :=
  Published settings prev t ↔ KeepsPublished settings around body prev shelf

/- A request that goes on to upload succeeds only when every upload passes. -/
def Passed (settings : MaterialSettings) (around : Surroundings) (body : MaterialBody)
    (shelf : Shelf) : Prop :=
  ∀ request entry previousMarker,
    uploadPlan settings around body shelf = some (request, entry, previousMarker) →
    uploadsPass settings around.uploads request.attachments entry = true

theorem idle_passed (idle : uploadPlan settings around body shelf = none) :
    Passed settings around body shelf := by
  intro request entry previousMarker plan
  simp [idle] at plan


/- Without an upload only others have changed the contest. -/
theorem idle_decides (published : Published settings prev shelf) (alone : around.LeaveAlone)
    (idle : uploadPlan settings around body shelf = none) {t : Shelf}
    (storage : t.storage = shelf.storage)
    (contest : t.contest = shelf.contest ∨ t.contest = around.beforeRead shelf.contest) :
    Decides settings around body prev shelf t := by
  have keeps : KeepsPublished settings around body prev shelf := by
    intro request entry previousMarker plan
    simp [idle] at plan
  refine iff_of_true (published_iff.mpr ?_) keeps
  obtain ⟨lists, held⟩ := published_iff.mp published
  refine ⟨?_, storage ▸ held⟩
  rcases contest with same | read
  · exact same ▸ lists
  · rw [read]
    exact (alone.beforeRead.lists _).mpr lists

/- The objects and the contest of a publication that uploads, put together. -/
theorem upload_decides (published : Published settings prev shelf)
    {request : MaterialRequest settings.maxBytes} {entry : MaterialEntry}
    {previousMarker : Option Marker}
    (plan : uploadPlan settings around body shelf = some (request, entry, previousMarker))
    {s t : Shelf} (storage : s.storage = shelf.storage)
    (left : UploadsLeft settings prev.tid prev.declared around.uploads request.attachments entry
      s t) {u : Shelf} (untouched : u.storage = t.storage)
    (lists : u.contest.Lists prev.marker ↔
      (uploadsPass settings around.uploads request.attachments entry = true →
        around.editTakes (around.beforeRead shelf.contest) previousMarker = true →
        request.marker = prev.marker)) :
    Decides settings around body prev shelf u := by
  obtain ⟨-, held⟩ := published_iff.mp published
  have before : ∀ d ∈ prev.declared, d.name ∉ request.attachments.map (·.name) →
      Held settings prev.tid s.storage d := fun d mem _ => storage ▸ held d mem
  have keeps : KeepsPublished settings around body prev shelf ↔
      UploadsKeep settings prev.declared around.uploads request.attachments entry ∧
      (uploadsPass settings around.uploads request.attachments entry = true →
        around.editTakes (around.beforeRead shelf.contest) previousMarker = true →
        request.marker = prev.marker) := by
    constructor
    · exact fun all => all request entry previousMarker plan
    · intro both request' entry' previousMarker' plan'
      rw [plan] at plan'
      obtain ⟨rfl, rfl, rfl⟩ : request = request' ∧ entry = entry' ∧
          previousMarker = previousMarker' := by simpa using plan'
      exact both
  rw [Decides, keeps, published_iff, untouched, left.held, lists]
  constructor
  · rintro ⟨shown, -, kept⟩
    exact ⟨kept, shown⟩
  · rintro ⟨kept, shown⟩
    exact ⟨shown, before, kept⟩

/- The request's own facts once its body was read and nothing stands in its way. -/
structure Admitted (settings : MaterialSettings) (around : Surroundings) (body : MaterialBody)
    (shelf : Shelf) (request : MaterialRequest settings.maxBytes) (entry : MaterialEntry) :
    Prop where
  plan : around.readFails = false → uploadPlan settings around body shelf =
    match openingChecks settings around entry shelf.storage
      (around.beforeRead shelf.contest) with
    | .ok (.toUpload previousMarker) => some (request, entry, previousMarker)
    | _ => none
  unread : around.readFails = true → uploadPlan settings around body shelf = none

theorem publishUnderLock_ends (published : Published settings prev shelf)
    (alone : around.LeaveAlone) {request : MaterialRequest settings.maxBytes}
    {entry : MaterialEntry} (admitted : Admitted settings around body shelf request entry)
    (contestOf : request.tid = prev.tid) {s : Shelf} (contest : s.contest = shelf.contest)
    (storage : s.storage = shelf.storage) :
    Ends (publishUnderLock settings around request entry) s
      (fun _ t => Decides settings around body prev shelf t ∧ Passed settings around body shelf)
      (fun _ t => Decides settings around body prev shelf t) := by
  rw [publishUnderLock, ends_bind]
  refine getContest_ends.mono ?_ ?_
  · rintro tdoc t ⟨reads, rfl, read⟩
    have contestT : t.contest = around.beforeRead shelf.contest := by rw [read, contest]
    have storageT : t.storage = shelf.storage := by rw [read, storage]
    have plan := admitted.plan reads
    rw [ends_bind, ends_get, contest, storageT]
    cases opened : openingChecks settings around entry shelf.storage
        (around.beforeRead shelf.contest) with
    | error failure =>
      rw [opened] at plan
      exact idle_decides published alone plan storageT (.inr contestT)
    | ok opening =>
      rw [opened] at plan
      cases opening with
      | published =>
        refine completeMaterialEntry_ends.mono ?_ ?_
        · rintro - u ⟨contest', storage'⟩
          exact ⟨idle_decides published alone plan (storage'.trans storageT)
            (.inr (contest'.trans contestT)), idle_passed plan⟩
        · rintro - u ⟨contest', storage'⟩
          exact idle_decides published alone plan (storage'.trans storageT)
            (.inr (contest'.trans contestT))
      | toUpload previousMarker =>
        obtain ⟨lists, held⟩ := published_iff.mp published
        have shown : (around.beforeRead shelf.contest).Lists prev.marker :=
          (alone.beforeRead.lists _).mpr lists
        have pending : ∀ d ∈ prev.declared, d.name ∈ request.attachments.map (·.name) →
            Held settings prev.tid t.storage d := fun d mem _ => storageT ▸ held d mem
        rw [ends_bind, contestOf]
        refine (uploadAttachments_ends (request_distinct request) pending).mono ?_ ?_
        · rintro files u ⟨left, passed, uploaded⟩
          have shownU : u.contest.Lists prev.marker := by rw [left.contest, contestT]; exact shown
          refine (commitPublication_ends alone entry uploaded shownU).mono ?_ ?_
          · rintro - v ⟨untouched, listed⟩
            refine ⟨upload_decides published plan storageT left untouched ?_, ?_⟩
            · rw [listed, left.contest, contestT]
              simp [passed]
            · intro request' entry' previousMarker' plan'
              rw [plan] at plan'
              obtain ⟨rfl, rfl, rfl⟩ : request = request' ∧ entry = entry' ∧
                  previousMarker = previousMarker' := by simpa using plan'
              exact passed
          · rintro - v ⟨untouched, listed⟩
            refine upload_decides published plan storageT left untouched ?_
            rw [listed, left.contest, contestT]
            simp [passed]
        · rintro failure u ⟨left, stopped⟩
          refine upload_decides published plan storageT left rfl ?_
          rw [left.contest, contestT]
          simp [stopped, shown]
  · rintro failure t ⟨broken, rfl⟩
    exact idle_decides published alone (admitted.unread broken) storage
      (.inr (congrArg around.beforeRead contest))

theorem reserveEntry_ends {request : MaterialRequest settings.maxBytes} {fingerprint : String} :
    Ends (reserveEntry settings around request fingerprint) shelf
      (fun entry t => entry = (shelf.entries.get? request.publicationId).getD
          (request.reservation fingerprint around.createdAt) ∧
        ((shelf.entries.get? request.publicationId).isNone && !around.reserve) = false ∧
        t = { shelf with entries := t.entries })
      (fun _ t => ((shelf.entries.get? request.publicationId).isNone && !around.reserve) = true ∧
        t.contest = shelf.contest ∧ t.storage = shelf.storage) := by
  rw [reserveEntry, ends_bind, ends_get]
  cases known : shelf.entries.get? request.publicationId with
  | some entry => exact ⟨rfl, rfl, rfl⟩
  | none =>
    rw [ends_bind, ends_modify, ends_bind, saveMaterialIdempotencyState, ends_bind, ends_modify,
      ends_failWhen]
    refine ⟨fun broken => ⟨by simpa using broken, rfl, rfl⟩, fun works => ?_⟩
    exact ⟨rfl, by simpa using works, rfl⟩

theorem underMaterialMutation_ends {work : Publication Unit} {s : Shelf}
    (busy : (s.draftMutation || s.materialMutation || s.submissionLeases != 0) = true →
      Decides settings around body prev shelf s)
    (works : (s.draftMutation || s.materialMutation || s.submissionLeases != 0) = false →
      Ends work { s with materialMutation := true }
        (fun _ t => Decides settings around body prev shelf t ∧ Passed settings around body shelf)
        (fun _ t => Decides settings around body prev shelf t)) :
    Ends (underMaterialMutation work) s
      (fun _ t => Decides settings around body prev shelf t ∧ Passed settings around body shelf)
      (fun _ t => Decides settings around body prev shelf t) := by
  rw [underMaterialMutation, ends_bind, acquireContestMaterialMutation, ends_bind, ends_get,
    ends_bind, ends_failWhen]
  refine ⟨busy, fun free => ?_⟩
  rw [ends_modify, ends_bind, ends_tryCatch]
  refine (works free).mono (fun _ t kept => kept) ?_
  intro failure t kept
  rw [ends_bind, ends_modify]
  exact kept

/-- Every way out of a request: the earlier publication verifies after it exactly when the
    request wrote nothing else over it. -/
theorem post_decides (published : Published settings prev shelf) (alone : around.LeaveAlone)
    (sameContest : ∀ request, body.parse settings = .ok request → request.tid = prev.tid) :
    Ends (OrchestratorMaterialHandler.post settings around body) shelf
      (fun _ t => Decides settings around body prev shelf t ∧ Passed settings around body shelf)
      (fun _ t => Decides settings around body prev shelf t) := by
  have idle : ∀ t : Shelf, uploadPlan settings around body shelf = none →
      t.contest = shelf.contest → t.storage = shelf.storage →
      Decides settings around body prev shelf t := fun t plan contest storage =>
    idle_decides published alone plan storage (.inl contest)
  rw [OrchestratorMaterialHandler.post, ends_bind, ends_failWhen]
  cases parsed : body.parse settings with
  | error failure =>
    have plan : uploadPlan settings around body shelf = none := by simp [uploadPlan, parsed]
    exact ⟨fun _ => idle _ plan rfl rfl, fun _ => idle _ plan rfl rfl⟩
  | ok request =>
    let fingerprint := materialPublicationFingerprint request
    refine ⟨fun token => idle _ (by simp [uploadPlan, parsed, token]) rfl rfl, fun token => ?_⟩
    dsimp only
    rw [ends_bind, ends_failWhen]
    refine ⟨fun other => idle _ (by simp [uploadPlan, parsed, other]) rfl rfl, fun derived => ?_⟩
    rw [ends_bind, ends_get, ends_bind, ends_failWhen]
    refine ⟨fun foreign => idle _ (by simp [uploadPlan, parsed, foreign]) rfl rfl,
      fun known => ?_⟩
    cases flight : shelf.inFlight.get? request.publicationId with
    | some active =>
      have plan : uploadPlan settings around body shelf = none := by
        simp [uploadPlan, parsed, flight]
      dsimp only
      rw [ends_bind, ends_failWhen]
      refine ⟨fun _ => idle _ plan rfl rfl, fun _ => ?_⟩
      cases around.joined with
      | error failure => exact idle _ plan rfl rfl
      | ok entry => exact ⟨idle _ plan rfl rfl, idle_passed plan⟩
    | none =>
      change Ends (publish settings around request fingerprint) shelf _ _
      rw [publish, ends_bind]
      refine reserveEntry_ends.mono ?_ ?_
      · rintro entry t ⟨rfl, reserved, same⟩
        have contest : t.contest = shelf.contest := by rw [same]
        have storage : t.storage = shelf.storage := by rw [same]
        have flags : (t.draftMutation || t.materialMutation || t.submissionLeases != 0) =
            (shelf.draftMutation || shelf.materialMutation || shelf.submissionLeases != 0) := by
          rw [same]
        rw [ends_bind]
        refine underMaterialMutation_ends ?_ ?_
        · intro busy
          rw [flags] at busy
          exact idle _ (by simp [uploadPlan, parsed, busy]) contest storage
        · intro free
          rw [flags] at free
          have admitted : Admitted settings around body shelf request
              ((shelf.entries.get? request.publicationId).getD
                (request.reservation fingerprint around.createdAt)) := by
            constructor
            · intro reads
              rw [uploadPlan, parsed]
              simp only [token, derived, known, flight, reserved, free, reads]
              rfl
            · intro broken
              simp [uploadPlan, parsed, broken]
          exact publishUnderLock_ends published alone admitted (sameContest request parsed)
            contest storage
      · rintro failure t ⟨unsaved, contest, storage⟩
        exact idle _ (by simp [uploadPlan, parsed, unsaved]) contest storage

end Requests

def sampleMaterials : MaterialSettings where
  token := "orchestrator-token"
  maxBytes := 1048576
  maxEntries := 100

def sampleAttachment (name : String) (content : List UInt8) : Attachment :=
  ⟨⟨name, Sha256.hexdigest content, content.length⟩, content, rfl, rfl⟩

def sampleDraft (revision : String) (statement : List UInt8) (small : statement.length ≤ 1000) :
    MaterialRequest sampleMaterials.maxBytes where
  publicationId := ""
  tid := "0123456789abcdef01234567"
  revision := revision
  attachments := [sampleAttachment "01_比赛题面.pdf" statement,
    sampleAttachment "02_辅助自测数据.tar.gz" [2]]
  named := rfl
  bounded := by
    simp [sampleAttachment, sampleMaterials]
    omega

/- What the runs below use of a release, so that no proof computes its id. -/
structure SampleRelease (request : MaterialRequest sampleMaterials.maxBytes) (revision : String)
    (statement : List UInt8) : Prop where
  identity : request.publicationId = materialPublicationFingerprint request
  tid : request.tid = "0123456789abcdef01234567"
  revision : request.revision = revision
  attachments : request.attachments = [sampleAttachment "01_比赛题面.pdf" statement,
    sampleAttachment "02_辅助自测数据.tar.gz" [2]]

theorem sampleDraft_release (revision : String) (statement : List UInt8)
    (small : statement.length ≤ 1000) :
    SampleRelease (sampleDraft revision statement small).identified revision statement :=
  ⟨identified_publicationId _, rfl, rfl, rfl⟩

def oldRelease : MaterialRequest sampleMaterials.maxBytes :=
  (sampleDraft "r1" [5] (by decide)).identified

def newRelease : MaterialRequest sampleMaterials.maxBytes :=
  (sampleDraft "r2" [6, 6] (by decide)).identified

theorem oldRelease_sample : SampleRelease oldRelease "r1" [5] := sampleDraft_release _ _ _

theorem newRelease_sample : SampleRelease newRelease "r2" [6, 6] := sampleDraft_release _ _ _

/- A contest that shows the release and has not started. -/
def sampleShelf (release : MaterialRequest sampleMaterials.maxBytes) : Shelf where
  contest :=
    { beginAt := some 1000
      rule := "oi"
      privateFiles := release.declared.map fun d => ⟨d.name, d.size, "", ""⟩
      orchestratorMaterials := some release.marker }
  storage := release.attachments.foldl (fun storage attachment =>
    storage.set (materialStoragePath "system" release.tid attachment.name)
      attachment.content) Dict.empty
  entries := Dict.empty
  inFlight := Dict.empty
  draftMutation := false
  materialMutation := false
  submissionLeases := 0

/- The first upload goes through, the second put throws and writes nothing. -/
def sampleSurroundings : Surroundings where
  createdAt := "2026-01-01T00:00:00.000Z"
  reserve := true
  joined := .error .hydro
  beforeRead := id
  readFails := false
  now := 10
  lostReads := []
  reconfirm := true
  uploads := [⟨.returned, some (some ⟨2, "", ""⟩), some [6, 6], true⟩, unanswered]
  beforeCommit := id
  commitReadFails := false
  commitNow := 11
  beforeEdit := id
  edit := .returned
  afterEdit := id
  appliedReadFails := false
  appliedLostReads := []
  completedAt := "2026-01-01T00:00:01.000Z"
  confirm := true

theorem sample_alone : sampleSurroundings.LeaveAlone :=
  ⟨⟨fun _ => rfl, fun _ => rfl⟩, ⟨fun _ => rfl, fun _ => rfl⟩, ⟨fun _ => rfl, fun _ => rfl⟩,
    ⟨fun _ => rfl, fun _ => rfl⟩⟩

section
variable {old new : MaterialRequest sampleMaterials.maxBytes}

theorem sample_declared {request : MaterialRequest sampleMaterials.maxBytes} {revision : String}
    {statement : List UInt8} (release : SampleRelease request revision statement) :
    request.declared = [⟨"01_比赛题面.pdf", Sha256.hexdigest statement, statement.length⟩,
      ⟨"02_辅助自测数据.tar.gz", Sha256.hexdigest [2], 1⟩] := by
  rw [MaterialRequest.declared, release.attachments]
  rfl

theorem sample_files (first : SampleRelease old "r1" [5]) :
    (sampleShelf old).contest.privateFiles =
      [⟨"01_比赛题面.pdf", 1, "", ""⟩, ⟨"02_辅助自测数据.tar.gz", 1, "", ""⟩] := by
  simp [sampleShelf, sample_declared first]

theorem sample_published (first : SampleRelease old "r1" [5]) :
    Published sampleMaterials old (sampleShelf old) := by
  have stored : (sampleShelf old).storage = (Dict.empty.set (materialStoragePath "system" old.tid
      "01_比赛题面.pdf") [5]).set (materialStoragePath "system" old.tid "02_辅助自测数据.tar.gz") [2] := by
    simp [sampleShelf, first.attachments, sampleAttachment]
  refine published_iff.mpr ⟨⟨rfl, fun d mem => ?_⟩, fun d mem => ?_⟩
  · rw [show old.marker.attachments = old.declared from rfl, sample_declared first] at mem
    rw [sample_files first]
    simp only [List.mem_cons, List.not_mem_nil, or_false] at mem
    rcases mem with rfl | rfl
    · exact ⟨⟨"01_比赛题面.pdf", 1, "", ""⟩, by decide, rfl⟩
    · exact ⟨⟨"02_辅助自测数据.tar.gz", 1, "", ""⟩, by decide, rfl⟩
  · rw [sample_declared first] at mem
    rw [stored, first.tid]
    simp only [List.mem_cons, List.not_mem_nil, or_false] at mem
    rcases mem with rfl | rfl
    · exact ⟨[5], by decide, rfl, rfl⟩
    · exact ⟨[2], by decide, rfl, rfl⟩

theorem sample_parsed (second : SampleRelease new "r2" [6, 6]) :
    (new.body "orchestrator-token").parse sampleMaterials = .ok new := by
  refine parse_body new "orchestrator-token" ?_ ?_ ?_ ?_
  · rw [second.identity]
    exact hexdigest_lowerHex _
  · rw [second.tid]
    decide
  · rw [second.revision]
    decide
  · intro attachment mem
    rw [second.attachments] at mem
    simp only [List.mem_cons, List.not_mem_nil, or_false] at mem
    rcases mem with rfl | rfl <;> exact List.cons_ne_nil _ _

theorem sample_owned (first : SampleRelease old "r1" [5]) :
    isOwnedMaterialMarker sampleMaterials old.marker = true := by
  have declared : ∀ d ∈ old.declared, PyText.isLowerHexOf 64 d.sha256 = true ∧
      isSafeInteger d.size = true ∧ 0 < d.size ∧ d.size ≤ sampleMaterials.maxBytes := by
    intro d mem
    rw [sample_declared first] at mem
    simp only [List.mem_cons, List.not_mem_nil, or_false] at mem
    rcases mem with rfl | rfl
    · exact ⟨hexdigest_lowerHex _, by decide, by decide, by decide⟩
    · exact ⟨hexdigest_lowerHex _, by decide, by decide, by decide⟩
  have names : ∀ d ∈ old.declared, d.name ∈ materialAttachmentNames :=
    fun d mem => declared_reserved mem
  have publicationId : PyText.isLowerHexOf 64 old.marker.publicationId = true := by
    rw [show old.marker.publicationId = old.publicationId from rfl, first.identity]
    exact hexdigest_lowerHex _
  have fingerprint : PyText.isLowerHexOf 64 old.marker.fingerprint = true := hexdigest_lowerHex _
  have revision : isRevision old.marker.revision = true := by
    rw [show old.marker.revision = old.revision from rfl, first.revision]
    decide
  have version : old.marker.version = 1 := rfl
  have listed : (old.marker.attachments.map (·.name)) = materialAttachmentNames := by
    rw [show old.marker.attachments = old.declared from rfl, sample_declared first]
    rfl
  have length : old.marker.attachments.length = materialAttachmentNames.length := by
    rw [← listed, List.length_map]
  have items : old.marker.attachments.all (fun item =>
      materialAttachmentNames.contains item.name && PyText.isLowerHexOf 64 item.sha256 &&
        isSafeInteger item.size && 0 < item.size && item.size ≤ sampleMaterials.maxBytes) =
      true := by
    refine List.all_eq_true.mpr fun d mem => ?_
    simp [names d mem, declared d mem]
  unfold isOwnedMaterialMarker
  rw [version, publicationId, fingerprint, revision, length, listed, items]
  decide

/- The new release passes every check, so it goes on to its first upload. -/
theorem sample_plan (first : SampleRelease old "r1" [5]) (second : SampleRelease new "r2" [6, 6]) :
    uploadPlan sampleMaterials sampleSurroundings (new.body "orchestrator-token")
      (sampleShelf old) =
    some (new, new.reservation (materialPublicationFingerprint new) "2026-01-01T00:00:00.000Z",
      some old.marker) := by
  have differs : markerMatches old.marker (new.reservation
      (materialPublicationFingerprint new) "2026-01-01T00:00:00.000Z") = false := by
    have revision : (old.marker.revision == new.revision) = false := by
      rw [show old.marker.revision = old.revision from rfl, first.revision, second.revision]
      decide
    simp [markerMatches, MaterialRequest.reservation, revision]
  have marked : (sampleShelf old).contest.orchestratorMaterials = some old.marker := rfl
  have fits : filesFit (some old.marker) (sampleShelf old).contest = true := by
    rw [filesFit, reservedFiles, sample_files first]
    decide
  have opened : openingChecks sampleMaterials sampleSurroundings (new.reservation
      (materialPublicationFingerprint new) "2026-01-01T00:00:00.000Z") (sampleShelf old).storage
      (sampleShelf old).contest = .ok (.toUpload (some old.marker)) := by
    have verified : verifyPublishedMaterials sampleMaterials (sampleShelf old).storage []
        (sampleShelf old).contest (new.reservation (materialPublicationFingerprint new)
          "2026-01-01T00:00:00.000Z") = .ok false := by
      simp [verifyPublishedMaterials, marked, differs]
    have later : started (sampleShelf old).contest sampleSurroundings.now = false := rfl
    have rule : (sampleShelf old).contest.rule = "oi" := rfl
    have lost : sampleSurroundings.lostReads = [] := rfl
    simp [openingChecks, later, rule, marked, lost, verified, sample_owned first, fits]
  have token : materialTokenMatches sampleMaterials (new.body "orchestrator-token").headerToken =
      true := by
    rw [show (new.body "orchestrator-token").headerToken = some "orchestrator-token" from rfl]
    decide
  have unread : sampleSurroundings.beforeRead (sampleShelf old).contest =
      (sampleShelf old).contest := rfl
  have fresh : (sampleShelf old).entries.get? new.publicationId = none := rfl
  have idle : (sampleShelf old).inFlight.get? new.publicationId = none := rfl
  have stamped : sampleSurroundings.createdAt = "2026-01-01T00:00:00.000Z" := rfl
  have derived : (new.publicationId != materialPublicationFingerprint new) = false := by
    rw [← second.identity]
    exact bne_self_eq_false _
  rw [uploadPlan, sample_parsed second]
  dsimp only
  rw [fresh, idle, token, derived, unread, stamped, Option.getD_none, opened]
  rfl

theorem sample_same (first : SampleRelease old "r1" [5]) (second : SampleRelease new "r2" [6, 6]) :
    ∀ request, (new.body "orchestrator-token").parse sampleMaterials = .ok request →
      request.tid = old.tid := by
  intro request parsed
  rw [sample_parsed second] at parsed
  rw [← Except.ok.inj parsed, first.tid, second.tid]

/- The statement's upload goes through, and nothing answers the next one. -/
theorem sample_fails (first : SampleRelease old "r1" [5])
    (second : SampleRelease new "r2" [6, 6]) :
    ∃ failure t, OrchestratorMaterialHandler.post sampleMaterials sampleSurroundings
      (new.body "orchestrator-token") (sampleShelf old) = .error failure t := by
  have ends := post_decides (sample_published first) sample_alone (sample_same first second)
  cases ran : OrchestratorMaterialHandler.post sampleMaterials sampleSurroundings
      (new.body "orchestrator-token") (sampleShelf old) with
  | ok entry t =>
    rw [Ends, ran] at ends
    have passed := ends.2 _ _ _ (sample_plan first second)
    have stops : uploadsPass sampleMaterials sampleSurroundings.uploads new.attachments
        (new.reservation (materialPublicationFingerprint new) "2026-01-01T00:00:00.000Z") =
        false := by
      rw [second.attachments, show sampleSurroundings.uploads =
        [⟨.returned, some (some ⟨2, "", ""⟩), some [6, 6], true⟩, unanswered] from rfl,
        uploadsPass, uploadsPass]
      exact Bool.and_false _
    rw [stops] at passed
    cases passed
  | error failure t => exact ⟨failure, t, rfl⟩

theorem sample_overwrites (first : SampleRelease old "r1" [5])
    (second : SampleRelease new "r2" [6, 6]) :
    ¬ KeepsPublished sampleMaterials sampleSurroundings (new.body "orchestrator-token") old
      (sampleShelf old) := by
  intro keeps
  have published : (⟨"01_比赛题面.pdf", Sha256.hexdigest [5], 1⟩ : Declared) ∈ old.declared := by
    rw [sample_declared first]
    exact List.mem_cons_self
  have uploaded := (keeps _ _ _ (sample_plan first second)).1
  rw [second.attachments] at uploaded
  exact absurd (uploaded.1 rfl _ published rfl).1 (by decide)

theorem sample_unpublished (first : SampleRelease old "r1" [5])
    (second : SampleRelease new "r2" [6, 6]) :
    ∃ failure t, OrchestratorMaterialHandler.post sampleMaterials sampleSurroundings
      (new.body "orchestrator-token") (sampleShelf old) = .error failure t ∧
      ¬ Published sampleMaterials old t := by
  obtain ⟨failure, t, ran⟩ := sample_fails first second
  have ends := post_decides (sample_published first) sample_alone (sample_same first second)
  rw [Ends, ran] at ends
  exact ⟨failure, t, ran, fun still => sample_overwrites first second (ends.mp still)⟩

end

/-- After a publication request that fails, the earlier publication of the contest verifies
    exactly when no published attachment was overwritten with other bytes before the failure and
    no edit for another publication took effect. -/
theorem failed_publication_keeps_iff (settings : MaterialSettings) (around : Surroundings)
    (body : MaterialBody) (prev : MaterialRequest settings.maxBytes) (shelf t : Shelf)
    (failure : MaterialFailure) (published : Published settings prev shelf)
    (alone : around.LeaveAlone)
    (sameContest : ∀ request, body.parse settings = .ok request → request.tid = prev.tid)
    (failed : OrchestratorMaterialHandler.post settings around body shelf = .error failure t) :
    Published settings prev t ↔ KeepsPublished settings around body prev shelf := by
  have decides := post_decides published alone sameContest
  rw [Ends, failed] at decides
  exact decides

/- The first upload replaces the statement that students read, and the second one fails. -/
theorem overwritten_before_failure :
    Published sampleMaterials oldRelease (sampleShelf oldRelease) ∧
    ∃ failure t, OrchestratorMaterialHandler.post sampleMaterials sampleSurroundings
      (newRelease.body "orchestrator-token") (sampleShelf oldRelease) = .error failure t ∧
      ¬ Published sampleMaterials oldRelease t :=
  ⟨sample_published oldRelease_sample, sample_unpublished oldRelease_sample newRelease_sample⟩

theorem failed_publication_decided :
    ∃ failure t, OrchestratorMaterialHandler.post sampleMaterials sampleSurroundings
      (newRelease.body "orchestrator-token") (sampleShelf oldRelease) = .error failure t ∧
      (Published sampleMaterials oldRelease t ↔ KeepsPublished sampleMaterials sampleSurroundings
        (newRelease.body "orchestrator-token") oldRelease (sampleShelf oldRelease)) := by
  obtain ⟨failure, t, ran⟩ := sample_fails oldRelease_sample newRelease_sample
  exact ⟨failure, t, ran, failed_publication_keeps_iff _ _ _ _ _ _ _
    (sample_published oldRelease_sample) sample_alone
    (sample_same oldRelease_sample newRelease_sample) ran⟩

end NoiContest.HydroPlugin
