import Mathlib.Data.List.Perm.Basic
import NoiContest.Collection.Receipt

/- The evidence that collect leaves behind verifies, and whatever verifies under the same recorded
   digest is the same evidence, unless two of the documents collide under the digest. -/
namespace NoiContest.Collection
open Pipeline JsonText Outcome FilePath FileSystem

variable {c : Codec} {h : Host} {contest : Contest} {receipt : Json}

theorem checkFiles_ok {directory : Path} {files : List (String × Json)} {names : List String}
    {u : Unit} : checkFiles c h directory files names = .ok u ↔ ∀ name ∈ names,
      (h.plainFile (directory ++ [name])).map c.digest = some (strOf c (getField files name)) := by
  induction names with
  | nil => simp [checkFiles]
  | cons name names ih =>
    rw [checkFiles, bind_ok, List.forall_mem_cons, ← ih]
    simp only [checkFile, raiseIf_ok, not_not]
    exact ⟨fun ⟨_, first, rest⟩ => ⟨first, rest⟩, fun ⟨first, rest⟩ => ⟨(), first, rest⟩⟩

theorem document_ok {path : Path} {message : String} {content : Bytes} :
    document h path message = .ok content ↔ h.plainFile path = some content := by
  rw [document]
  cases h.plainFile path <;> simp

theorem parsed_ok {value : Option Json} {message : String} {json : Json} :
    parsed value message = .ok json ↔ value = some json := by
  cases value <;> simp [parsed]

/- What a successful verification has seen. -/
structure Verified (c : Codec) (h : Host) (contest : Contest) (receipt : Json) (directory : Path)
    (content : Bytes) (files : List (String × Json)) (manifest : Bytes) (persisted : Json)
    (entries : List (String × Evidence)) : Prop where
  located : h.evidenceDirectory contest = .ok directory
  stored : h.plainFile (receiptPath directory) = some content
  recorded : c.digest content = contest.collectionReceiptSha256
  receiptRead : c.decode content = some receipt
  complete : receiptFiles c contest receipt = .ok files
  matched : ∀ name ∈ expectedFiles,
    (h.plainFile (directory ++ [name])).map c.digest = some (strOf c (getField files name))
  listed : h.plainFile (manifestPath directory) = some manifest
  manifestRead : c.decode manifest = some persisted
  current : archiveTreeManifest c h.files directory = .ok entries
  alike : Alike persisted (manifestJson entries)

theorem verified_iff : verifyCollectionReceipt c h contest = .ok receipt ↔
    ∃ directory content files manifest persisted entries,
      Verified c h contest receipt directory content files manifest persisted entries := by
  simp only [verifyCollectionReceipt, bind_ok, raiseIf_ok, document_ok, parsed_ok, checkFiles_ok,
    not_not, pure, Except.pure]
  constructor
  · rintro ⟨directory, located, content, stored, _, recorded, receipt', read, files, complete, _,
      matched, manifest, listed, persisted, manifestRead, entries, current, _, alike, same⟩
    cases same
    exact ⟨directory, content, files, manifest, persisted, entries, located, stored, recorded,
      read, complete, matched, listed, manifestRead, current, alike⟩
  · rintro ⟨directory, content, files, manifest, persisted, entries, v⟩
    exact ⟨directory, v.located, content, v.stored, (), v.recorded, receipt, v.receiptRead, files,
      v.complete, (), v.matched, manifest, v.listed, persisted, v.manifestRead, entries, v.current,
      (), v.alike, rfl⟩

/- Manifests that are alike list the same files. -/

theorem canonical_obj (fields : List (String × Json)) : canonical (.obj fields) =
    .obj ((fields.map fun field => (field.1, canonical field.2)).insertionSort
      fun a b => a.1 ≤ b.1) := by
  rw [canonical, canonicalFields_map]

theorem evidence_canonical (evidence : Evidence) : canonical evidence.json = evidence.json := by
  have first : "sha256" ≤ "size" := by decide
  rw [Evidence.json, canonical_obj]
  simp [first, canonical]

theorem evidence_json_injective {evidence evidence' : Evidence}
    (same : evidence.json = evidence'.json) : evidence = evidence' := by
  simp only [Evidence.json, Json.obj.injEq, List.cons.injEq, Prod.mk.injEq, Json.str.injEq,
    Json.int.injEq, true_and, and_true] at same
  cases evidence
  cases evidence'
  rw [Evidence.mk.injEq]
  exact same

theorem numbers_entries (entries : List (String × Evidence)) :
    numbersFields (entries.map fun entry => (entry.1, entry.2.json)) =
      entries.map fun entry => (entry.1, entry.2.json) := by
  induction entries with
  | nil => rfl
  | cons entry entries ih =>
    rw [List.map_cons, numbersFields, ih]
    simp [Evidence.json, numbers, numbersFields]

theorem numbers_manifest (entries : List (String × Evidence)) :
    numbers (manifestJson entries) = manifestJson entries := by
  simp [manifestJson, numbers, numbersFields, numbers_entries]

theorem manifest_canonical (entries : List (String × Evidence)) :
    canonical (manifestJson entries) = .obj [("files", .obj
      ((entries.map fun entry => (entry.1, entry.2.json)).insertionSort fun a b => a.1 ≤ b.1)),
      ("schema_version", .int 1)] := by
  have first : ¬ "schema_version" ≤ "files" := by decide
  have values : entries.map ((fun field => (field.1, canonical field.2)) ∘
      fun entry : String × Evidence => (entry.1, entry.2.json)) =
      entries.map fun entry => (entry.1, entry.2.json) :=
    List.map_congr_left fun entry _ => congrArg _ (evidence_canonical entry.2)
  rw [manifestJson, canonical_obj]
  simp [List.orderedInsert, first, canonical, canonicalFields_map, values]

theorem manifest_perm {entries entries' : List (String × Evidence)}
    (same : dumps (manifestJson entries) = dumps (manifestJson entries')) :
    entries.Perm entries' := by
  have read := loads_dumps (manifestJson entries)
  rw [same, loads_dumps, manifest_canonical, manifest_canonical] at read
  simp only [Option.some.injEq, Json.obj.injEq, List.cons.injEq, Prod.mk.injEq, true_and,
    and_true] at read
  have perm := (List.perm_insertionSort _ _).symm.trans
    ((List.Perm.of_eq read).trans (List.perm_insertionSort _ _))
  refine (List.map_perm_map_iff ?_).mp perm.symm
  rintro ⟨name, evidence⟩ ⟨name', evidence'⟩ eq
  obtain ⟨rfl, json⟩ := Prod.mk.inj eq
  exact Prod.ext rfl (evidence_json_injective json)

theorem alike_canonical (entries : List (String × Evidence)) :
    Alike (canonical (manifestJson entries)) (manifestJson entries) := by
  have plain : numbers (canonical (manifestJson entries)) = canonical (manifestJson entries) := by
    rw [manifest_canonical, ← sort_map Evidence.json]
    simp [numbers, numbersFields, numbers_entries]
  rw [Alike, plain, dumps_canonical, numbers_manifest]

/- What a manifest lists -/

/-- A regular file below the directory, by its relative name, digest and size. -/
def Lists (c : Codec) (files : Files) (directory : Path) (entry : String × Evidence) : Prop :=
  ∃ path content, (path, .file content) ∈ files ∧ directory <+: path ∧ directory ≠ path ∧
    entry.1 ∉ excluded ∧ entry = (relativeText directory path, ⟨c.digest content, content.length⟩)

theorem mem_manifestOf {directory : Path} {files : Files} {entries : List (String × Evidence)}
    (listed : manifestOf c directory files = .ok entries) (entry : String × Evidence) :
    entry ∈ entries ↔ ∃ path content, (path, .file content) ∈ files ∧ entry.1 ∉ excluded ∧
      entry = (relativeText directory path, ⟨c.digest content, content.length⟩) := by
  induction files generalizing entries with
  | nil =>
    cases listed
    simp
  | cons first rest ih =>
    obtain ⟨path, node⟩ := first
    unfold manifestOf at listed
    dsimp only at listed
    split at listed
    · next out =>
      rw [ih listed]
      refine exists_congr fun p => exists_congr fun content => ?_
      rw [List.mem_cons]
      refine ⟨fun ⟨mem, held⟩ => ⟨.inr mem, held⟩, fun ⟨mem, named, eq⟩ => ?_⟩
      rcases mem with head | mem
      · cases head
        rw [eq] at named
        exact absurd out named
      · exact ⟨mem, named, eq⟩
    · next kept =>
      cases node with
      | link => cases listed
      | directory =>
        rw [ih listed]
        simp
      | file content =>
        obtain ⟨later, rest_listed, eq⟩ := bind_ok.mp listed
        cases eq
        rw [List.mem_cons, ih rest_listed]
        constructor
        · rintro (rfl | ⟨p, text, mem, held⟩)
          · exact ⟨path, content, List.mem_cons_self, kept, rfl⟩
          · exact ⟨p, text, List.mem_cons_of_mem _ mem, held⟩
        · rintro ⟨p, text, mem, held⟩
          rcases List.mem_cons.mp mem with head | mem
          · cases head
            exact .inl held.2
          · exact .inr ⟨p, text, mem, held⟩

theorem mem_manifest {files : Files} {directory : Path} {entries : List (String × Evidence)}
    (listed : archiveTreeManifest c files directory = .ok entries) (entry : String × Evidence) :
    entry ∈ entries ↔ Lists c files directory entry := by
  rw [mem_manifestOf listed, Lists]
  refine exists_congr fun path => exists_congr fun content => ?_
  rw [entriesBelow, List.mem_insertionSort, List.mem_filter, decide_eq_true_iff, and_assoc,
    and_assoc]

/- Two verifications -/

/-- The documents of one name differ, but not in their digests. -/
def Collide (c : Codec) (h h' : Host) (directory directory' : Path) (name : String) : Prop :=
  ∃ a b, h.plainFile (directory ++ [name]) = some a ∧
    h'.plainFile (directory' ++ [name]) = some b ∧ a ≠ b ∧ c.digest a = c.digest b

/- The directories of two hosts that verify under one record hold the same files by name, digest
   and size, unless the receipts or the manifests collide. -/
theorem verified_evidence_agrees {h' : Host} {receipt' : Json}
    (first : verifyCollectionReceipt c h contest = .ok receipt)
    (second : verifyCollectionReceipt c h' contest = .ok receipt') :
    ∃ directory directory', h.evidenceDirectory contest = .ok directory ∧
      h'.evidenceDirectory contest = .ok directory' ∧
      (Collide c h h' directory directory' "collection_receipt.json" ∨
        Collide c h h' directory directory' "archive_manifest.json" ∨
        receipt' = receipt ∧ ∀ entry, Lists c h.files directory entry ↔
          Lists c h'.files directory' entry) := by
  obtain ⟨d, content, files, manifest, persisted, entries, v⟩ := verified_iff.mp first
  obtain ⟨d', content', files', manifest', persisted', entries', v'⟩ := verified_iff.mp second
  refine ⟨d, d', v.located, v'.located, ?_⟩
  by_cases text : content = content'
  · subst text
    cases (v.receiptRead.symm.trans v'.receiptRead)
    cases (v.complete.symm.trans v'.complete)
    have named : "archive_manifest.json" ∈ expectedFiles := List.mem_cons_self
    have digests := (v.matched _ named).trans (v'.matched _ named).symm
    have listed : h.plainFile (d ++ ["archive_manifest.json"]) = some manifest := v.listed
    have listed' : h'.plainFile (d' ++ ["archive_manifest.json"]) = some manifest' := v'.listed
    rw [listed, listed', Option.map_some, Option.map_some] at digests
    by_cases same : manifest = manifest'
    · subst same
      cases (v.manifestRead.symm.trans v'.manifestRead)
      have alike := v.alike.symm.trans v'.alike
      rw [numbers_manifest, numbers_manifest] at alike
      have perm := manifest_perm alike
      refine .inr (.inr ⟨rfl, fun entry => ?_⟩)
      rw [← mem_manifest v.current, ← mem_manifest v'.current]
      exact perm.mem_iff
    · exact .inr (.inl ⟨manifest, manifest', listed, listed', same, Option.some.inj digests⟩)
  · exact .inl ⟨content, content', v.stored, v'.stored, text,
      v.recorded.trans v'.recorded.symm⟩

/- What collect leaves behind -/

theorem lookup_iff {fields : List (String × Json)} (once : (fields.map Prod.fst).Nodup)
    {name : String} {value : Json} : fields.lookup name = some value ↔ (name, value) ∈ fields := by
  induction fields with
  | nil => simp
  | cons field fields ih =>
    rw [List.map_cons, List.nodup_cons] at once
    rw [List.lookup_cons, List.mem_cons]
    by_cases same : name = field.1
    · subst same
      rw [beq_self_eq_true]
      constructor
      · rintro eq
        cases eq
        exact .inl rfl
      · rintro (eq | mem)
        · exact congrArg some (congrArg Prod.snd eq).symm
        · exact absurd (List.mem_map.mpr ⟨_, mem, rfl⟩) once.1
    · rw [beq_false_of_ne same, ih once.2]
      exact ⟨.inr, fun either => either.resolve_left fun eq => same (congrArg Prod.fst eq)⟩

theorem lookup_perm {fields fields' : List (String × Json)} (perm : fields.Perm fields')
    (once : (fields.map Prod.fst).Nodup) (name : String) :
    fields.lookup name = fields'.lookup name := by
  refine Option.ext fun value => ?_
  rw [lookup_iff once, lookup_iff ((perm.map _).nodup once)]
  exact perm.mem_iff

/- The fields of an object that was written and read again. -/
theorem lookup_canonical {fields : List (String × Json)} (once : (fields.map Prod.fst).Nodup)
    (name : String) : ((fields.map fun field => (field.1, canonical field.2)).insertionSort
      fun a b => a.1 ≤ b.1).lookup name = (fields.lookup name).map canonical := by
  have keys : (fields.map fun field => (field.1, canonical field.2)).map Prod.fst =
      fields.map Prod.fst := by
    rw [List.map_map]
    rfl
  rw [← lookup_perm (List.perm_insertionSort _ _).symm (keys ▸ once)]
  clear once keys
  induction fields with
  | nil => rfl
  | cons field fields ih =>
    rw [List.map_cons, List.lookup_cons, List.lookup_cons]
    cases name == field.1 <;> simp [ih]

/- The evidence of a run on the host: the documents with the contents that were written, and the
   record of the contest. -/
structure Kept (c : Codec) (h : Host) (contest : Contest) (directory : Path) (receipt : Receipt)
    (answers : Dict String UserAnswers) (log : Json) (entries : List (String × Evidence)) :
    Prop where
  located : h.evidenceDirectory contest = .ok directory
  manifest : archiveTreeManifest c h.files directory = .ok entries
  documents : ∀ file ∈ reports answers ++
    [("submit_log.json", log), ("archive_manifest.json", manifestJson entries)],
    h.plainFile (directory ++ [file.1]) = some (c.encode file.2)
  named : receipt.files = (reports answers ++
    [("submit_log.json", log), ("archive_manifest.json", manifestJson entries)]).map
      fun file => (file.1, c.digest (c.encode file.2))
  stored : h.plainFile (receiptPath directory) = some (c.encode receipt.json)
  recorded : contest.collectionReceiptSha256 = c.digest (c.encode receipt.json)
  ofContest : receipt.tid = contest.tid
  ofRun : receipt.runId = contest.collectionRunId

theorem strOr_str (c : Codec) (s : String) : strOr c (.str s) = s := by
  rw [strOr, falsy]
  split
  · next empty => exact (beq_iff_eq.mp empty).symm
  · rfl

def fileFields (files : List (String × String)) : List (String × Json) :=
  files.map fun file => (file.1, Json.str file.2)

/- The files of a receipt, in the order of their upload and in that of the shutdown's check. -/
theorem mem_expectedFiles {name : String} :
    name ∈ ["folder_report.json", "web_report.json", "selection.json", "report.json",
      "submit_log.json", "archive_manifest.json"] ↔ name ∈ expectedFiles := by
  rw [expectedFiles]
  simp only [List.mem_cons, List.not_mem_nil, or_false]
  constructor
  · rintro (folder | web | selection | report | log | archive)
    exacts [.inr (.inl folder), .inr (.inr (.inr (.inr (.inr web)))),
      .inr (.inr (.inr (.inl selection))), .inr (.inr (.inl report)),
      .inr (.inr (.inr (.inr (.inl log)))), .inl archive]
  · rintro (archive | folder | report | selection | log | web)
    exacts [.inr (.inr (.inr (.inr (.inr archive)))), .inl folder,
      .inr (.inr (.inr (.inl report))), .inr (.inr (.inl selection)),
      .inr (.inr (.inr (.inr (.inl log)))), .inr (.inl web)]

theorem receiptFiles_canonical (c : Codec) {receipt : Receipt} (ofContest : receipt.tid = contest.tid)
    (ofRun : receipt.runId = contest.collectionRunId)
    (names : receipt.files.map Prod.fst = ["folder_report.json", "web_report.json",
      "selection.json", "report.json", "submit_log.json", "archive_manifest.json"]) :
    receiptFiles c contest (canonical receipt.json) =
      .ok ((fileFields receipt.files).insertionSort fun a b => a.1 ≤ b.1) := by
  have files : canonical (.obj (fileFields receipt.files)) =
      .obj ((fileFields receipt.files).insertionSort fun a b => a.1 ≤ b.1) := by
    rw [canonical_obj, fileFields, List.map_map]
    rfl
  have keys : ((∀ file ∈ (fileFields receipt.files).insertionSort fun a b => a.1 ≤ b.1,
      file.1 ∈ expectedFiles) ∧ ∀ name ∈ expectedFiles,
        name ∈ ((fileFields receipt.files).insertionSort fun a b => a.1 ≤ b.1).map Prod.fst) := by
    have members : ∀ name, name ∈ ((fileFields receipt.files).insertionSort
        fun a b => a.1 ≤ b.1).map Prod.fst ↔ name ∈ expectedFiles := by
      intro name
      rw [((List.perm_insertionSort _ _).map _).mem_iff, fileFields, List.map_map]
      change name ∈ receipt.files.map Prod.fst ↔ _
      rw [names, mem_expectedFiles]
    exact ⟨fun file mem => (members _).mp (List.mem_map_of_mem mem),
      fun name expected => (members name).mpr expected⟩
  have once : (receipt.fields.map Prod.fst).Nodup := by
    change List.Nodup ["schema_version", "tid", "run_id", "completed_at_ms", "cutoff_at_ms",
      "shutdown_after_ms", "seat_count", "problem_count", "submit_failures", "files"]
    decide
  have look := lookup_canonical once
  rw [Receipt.json, canonical_obj]
  generalize (receipt.fields.map fun field => (field.1, canonical field.2)).insertionSort
    (fun a b => a.1 ≤ b.1) = fields at look ⊢
  have schema : fields.lookup "schema_version" = some (.int 1) := look _
  have tid : fields.lookup "tid" = some (.str receipt.tid) := look _
  have run : fields.lookup "run_id" = some (.str receipt.runId) := look _
  have failures : fields.lookup "submit_failures" = some (.int 0) := look _
  have named : fields.lookup "files" = some (canonical (.obj (fileFields receipt.files))) := look _
  simp only [receiptFiles, fieldsOf, ok_bind, getField, schema, tid, run, failures, named, files,
    Option.getD_some, isOne, strOr_str, intOf]
  rw [raiseIf_neg (by decide), ok_bind, raiseIf_neg (not_not.mpr ofContest), ok_bind,
    raiseIf_neg (not_not.mpr ofRun), ok_bind, raiseIf_neg (by decide), ok_bind]
  simp only [Except.mapError, ok_bind]
  rw [raiseIf_neg (not_not.mpr keys)]
  rfl

theorem kept_evidence_verifies {directory : Path} {receipt : Receipt}
    {answers : Dict String UserAnswers} {log : Json} {entries : List (String × Evidence)}
    (kept : Kept c h contest directory receipt answers log entries) :
    verifyCollectionReceipt c h contest = .ok (canonical receipt.json) := by
  have names : receipt.files.map Prod.fst = ["folder_report.json", "web_report.json",
      "selection.json", "report.json", "submit_log.json", "archive_manifest.json"] := by
    rw [kept.named]
    rfl
  have once : ((fileFields receipt.files).map Prod.fst).Nodup := by
    rw [fileFields, List.map_map]
    change (receipt.files.map Prod.fst).Nodup
    rw [names]
    decide
  refine verified_iff.mpr ⟨directory, c.encode receipt.json,
    (fileFields receipt.files).insertionSort fun a b => a.1 ≤ b.1, c.encode (manifestJson entries),
    canonical (manifestJson entries), entries, ?_⟩
  exact
    { located := kept.located
      stored := kept.stored
      recorded := kept.recorded.symm
      receiptRead := c.reads _
      complete := receiptFiles_canonical c kept.ofContest kept.ofRun names
      matched := by
        intro name expected
        have member : name ∈ receipt.files.map Prod.fst := by
          rw [names]
          exact mem_expectedFiles.mpr expected
        obtain ⟨⟨file, digest⟩, mem, rfl⟩ := List.mem_map.mp member
        have field : ((fileFields receipt.files).insertionSort fun a b => a.1 ≤ b.1).lookup file =
            some (Json.str digest) := by
          rw [← lookup_perm (List.perm_insertionSort _ _).symm once, lookup_iff once]
          exact List.mem_map.mpr ⟨_, mem, rfl⟩
        rw [kept.named] at mem
        obtain ⟨document, written, eq⟩ := List.mem_map.mp mem
        cases eq
        rw [kept.documents document written, getField, field]
        rfl
      listed := kept.documents ("archive_manifest.json", manifestJson entries)
        (List.mem_append_right _ (List.mem_cons_of_mem _ (List.mem_singleton_self _)))
      manifestRead := c.reads _
      current := kept.manifest
      alike := alike_canonical entries }

end NoiContest.Collection
