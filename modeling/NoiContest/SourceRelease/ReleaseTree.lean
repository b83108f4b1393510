import NoiContest.SourceRelease.Extraction

/- The writer and the verifier of a release agree unless the umask or a size stands between. -/
namespace NoiContest.SourceRelease
open Outcome FilePath

/- The row that counts for its name. -/
def Expected (rows : List SourceRow) (row : SourceRow) : Prop :=
  expectedRow rows row.name = some row

theorem expectedRow_some {rows : List SourceRow} {name : String} {row : SourceRow}
    (found : expectedRow rows name = some row) : row ∈ rows ∧ row.name = name := by
  rw [expectedRow, List.find?_eq_some_iff_append] at found
  obtain ⟨same, before, after, split, _⟩ := found
  refine ⟨?_, of_decide_eq_true same⟩
  rw [← List.mem_reverse, split]
  simp

theorem expected_found {rows : List SourceRow} {name : String} {row : SourceRow}
    (found : expectedRow rows name = some row) : Expected rows row := by
  rw [Expected, (expectedRow_some found).2, found]

theorem expected_unique {row other : SourceRow} (expected : Expected rows row)
    (expected' : Expected rows other) (same : row.path = other.path) : row = other := by
  have name : row.name = other.name := by rw [SourceRow.name, SourceRow.name, same]
  rw [Expected, name, expected'] at expected
  exact (Option.some.inj expected).symm

section Names
variable {rows : List SourceRow} (checked : Checked rows)
include checked

theorem expected_checked {row : SourceRow} (expected : Expected rows row) :
    row.path ≠ [] ∧ ∀ part ∈ row.path, IsName part :=
  checked row (expectedRow_some expected).1

theorem name_injective {path : Path} (names : ∀ part ∈ path, IsName part) {row : SourceRow}
    (mem : row ∈ rows) (same : row.name = join (rootName :: path)) : row.path = path := by
  have root : IsName rootName := by decide
  have whole := join_injective (p := rootName :: row.path) (q := rootName :: path) (by simp)
    (by simp) (List.forall_mem_cons.mpr ⟨root, (checked row mem).2⟩)
    (List.forall_mem_cons.mpr ⟨root, names⟩) same
  exact (List.cons.inj whole).2

theorem expected_of_mem {row : SourceRow} (mem : row ∈ rows) :
    ∃ last, Expected rows last ∧ last.name = row.name ∧ last.path = row.path := by
  have found : (expectedRow rows row.name).isSome := by
    rw [expectedRow, List.find?_isSome]
    exact ⟨row, List.mem_reverse.mpr mem, by simp⟩
  obtain ⟨last, isLast⟩ := Option.isSome_iff_exists.mp found
  obtain ⟨memLast, same⟩ := expectedRow_some isLast
  exact ⟨last, expected_found isLast, same, name_injective checked (checked row mem).2 memLast same⟩

theorem mem_directories {path : Path} (filled : path ≠ []) (names : ∀ part ∈ path, IsName part) :
    join (rootName :: path) ∈ directories rows ↔
      ∃ row, Expected rows row ∧ path ∈ parents row.path := by
  have root : IsName rootName := by decide
  have valid := List.forall_mem_cons.mpr ⟨root, names⟩
  simp only [directories, List.mem_cons, List.mem_flatMap, List.mem_map]
  constructor
  · rintro (top | ⟨row, mem, parent, up, same⟩)
    · have whole := join_injective (p := rootName :: path) (q := [rootName]) (by simp) (by simp)
        valid (by simpa using root) top
      exact absurd (List.cons.inj whole).2 filled
    · obtain ⟨nonempty, starts, proper⟩ := mem_parents.mp up
      obtain rfl := join_injective nonempty (by simp) (fun part inside =>
        List.forall_mem_cons.mpr ⟨root, (checked row mem).2⟩ part (starts.subset inside)) valid same
      obtain ⟨last, expected, -, samePath⟩ := expected_of_mem checked mem
      refine ⟨last, expected, mem_parents.mpr ⟨filled, ?_, ?_⟩⟩
      · rw [samePath]
        exact (List.cons_prefix_cons.mp starts).2
      · rintro rfl
        exact proper (by rw [samePath])
  · rintro ⟨row, expected, up⟩
    obtain ⟨-, starts, proper⟩ := mem_parents.mp up
    refine Or.inr ⟨row, (expectedRow_some expected).1, rootName :: path, mem_parents.mpr ⟨by simp,
      List.cons_prefix_cons.mpr ⟨rfl, starts⟩, ?_⟩, rfl⟩
    intro whole
    exact proper (List.cons.inj whole).2

theorem expectedRelative_some {path : Path} (names : ∀ part ∈ path, IsName part)
    {row : SourceRow} :
    expectedRelative rows path = some row ↔ Expected rows row ∧ row.path = path := by
  constructor
  · intro found
    obtain ⟨mem, same⟩ := expectedRow_some found
    exact ⟨expected_found found, name_injective checked names mem same⟩
  · rintro ⟨expected, rfl⟩
    exact expected

end Names

/- The tree has the expected files and the directories above them, the modes of the files as
   given by `mode`, and the content of a file up to a collision of the digests. -/
structure Matches (mode : SourceRow → Mode) (rows : List SourceRow) (t : Tree) : Prop where
  root : t.root = .directory 0o755
  once : (t.entries.map Prod.fst).Nodup
  placed : ∀ e ∈ t.entries,
    (∃ row, Expected rows row ∧ e.1 ∈ parents row.path ∧ e.2 = .directory 0o755) ∨
    ∃ row content, Expected rows row ∧ e = (row.path, .file (mode row) 1 content) ∧
      content.length = row.bytes ∧ Sha256.hexdigest content = row.sha256
  files : ∀ row, Expected rows row →
    ∃ content, (row.path, .file (mode row) 1 content) ∈ t.entries
  above : ∀ row, Expected rows row → ∀ parent ∈ parents row.path,
    (parent, .directory 0o755) ∈ t.entries

section Writer

theorem lookup_keys {entries : List (Path × Node)} {path : Path} :
    entries.lookup path = none ↔ path ∉ entries.map Prod.fst := by
  rw [List.lookup_eq_none_iff]
  simp only [List.mem_map, not_exists, not_and, bne_iff_ne, ne_eq]
  exact ⟨fun absent e mem same => absent e mem same.symm,
    fun absent e mem same => absent e mem same.symm⟩

theorem lookup_mem {entries : List (Path × Node)} {path : Path} {node : Node}
    (found : entries.lookup path = some node) : (path, node) ∈ entries := by
  obtain ⟨before, after, rfl, -⟩ := List.lookup_eq_some_iff.mp found
  simp

theorem nodup_append_one {entries : List (Path × Node)} {e : Path × Node}
    (once : (entries.map Prod.fst).Nodup) (fresh : entries.lookup e.1 = none) :
    ((entries ++ [e]).map Prod.fst).Nodup := by
  rw [List.map_append, List.map_singleton]
  exact List.nodup_append.mpr ⟨once, List.nodup_singleton _, fun a mem b memB same =>
    lookup_keys.mp fresh (by rw [List.mem_singleton] at memB; rwa [← memB, ← same])⟩

/- The directories in the way are made, and nothing else. -/
theorem makeParents_ok {umask : Mode} {target : Path} {paths : List Path}
    {entries made : List (Path × Node)}
    (done : paths.foldlM (makeParent umask target) entries = .ok made)
    (once : (entries.map Prod.fst).Nodup) :
    (made.map Prod.fst).Nodup ∧ (∀ e ∈ entries, e ∈ made) ∧
      (∀ e ∈ made, e ∈ entries ∨ e.1 ∈ paths ∧ ∃ mode, e.2 = .directory mode) ∧
      ∀ path ∈ paths, ∃ mode, (path, .directory mode) ∈ made := by
  induction paths generalizing entries with
  | nil =>
    rw [List.foldlM_nil, pure_eq_ok] at done
    subst done
    exact ⟨once, fun e mem => mem, fun e mem => Or.inl mem, by simp⟩
  | cons path rest ih =>
    rw [List.foldlM_cons, bind_ok] at done
    obtain ⟨next, step, later⟩ := done
    have first : (next.map Prod.fst).Nodup ∧ (∀ e ∈ entries, e ∈ next) ∧
        (∀ e ∈ next, e ∈ entries ∨ e.1 = path ∧ ∃ mode, e.2 = .directory mode) ∧
        ∃ mode, (path, .directory mode) ∈ next := by
      unfold makeParent at step
      split at step
      · rename_i absent
        obtain rfl := Except.ok.inj step
        refine ⟨nodup_append_one once absent, by simp +contextual, ?_, _,
          List.mem_append_right _ (List.mem_singleton.mpr rfl)⟩
        intro e mem
        rcases List.mem_append.mp mem with old | new
        · exact Or.inl old
        · rw [List.mem_singleton] at new
          exact Or.inr ⟨by rw [new], _, by rw [new]⟩
      · rename_i mode found
        obtain rfl := Except.ok.inj step
        exact ⟨once, fun e mem => mem, fun e mem => Or.inl mem, mode, lookup_mem found⟩
      · cases step
    obtain ⟨onceNext, kept, news, mode, made'⟩ := first
    obtain ⟨onceMade, kept', news', all⟩ := ih later onceNext
    refine ⟨onceMade, fun e mem => kept' e (kept e mem), fun e mem => ?_, ?_⟩
    · rcases news' e mem with old | ⟨inRest, directory⟩
      · rcases news e old with older | ⟨same, directory⟩
        · exact Or.inl older
        · exact Or.inr ⟨by simp [same], directory⟩
      · exact Or.inr ⟨List.mem_cons_of_mem _ inRest, directory⟩
    · exact List.forall_mem_cons.mpr ⟨⟨mode, kept' _ made'⟩, all⟩

/- The file of a row as it was extracted. -/
def Extracted (umask : Mode) (row : SourceRow) (e : Path × Node) : Prop :=
  ∃ content, e = (row.path, .file (row.fileMode &&& ~~~umask) 1 content) ∧
    content.length = row.bytes ∧ Sha256.hexdigest content = row.sha256

structure Staged (umask : Mode) (rows : List SourceRow) (s : Staging) : Prop where
  once : (s.entries.map Prod.fst).Nodup
  placed : ∀ e ∈ s.entries, ∃ row, Expected rows row ∧
    (e.1 ∈ parents row.path ∧ (∃ mode, e.2 = .directory mode) ∨ Extracted umask row e)
  files : ∀ name ∈ s.observed, ∃ row, expectedRow rows name = some row ∧
    (∃ e ∈ s.entries, Extracted umask row e) ∧
    ∀ parent ∈ parents row.path, ∃ mode, (parent, .directory mode) ∈ s.entries

theorem createFile_staged {umask : Mode} {rows : List SourceRow} {s : Staging}
    (staged : Staged umask rows s) {row : SourceRow} {name : String}
    (found : expectedRow rows name = some row) {content : List UInt8}
    (size : content.length = row.bytes) (hash : Sha256.hexdigest content = row.sha256)
    {entries : List (Path × Node)}
    (created : createFile umask s.entries row content = .ok entries) :
    Staged umask rows { entries, observed := s.observed ++ [name] } := by
  unfold createFile at created
  obtain ⟨made, parentsMade, created⟩ := bind_ok.mp created
  obtain ⟨once, kept, news, all⟩ := makeParents_ok parentsMade staged.once
  split at created
  · cases created
  · rename_i fresh
    rw [pure_eq_ok] at created
    subst created
    have absent : made.lookup row.path = none := Option.not_isSome_iff_eq_none.mp fresh
    have file : Extracted umask row (row.path, .file (row.fileMode &&& ~~~umask) 1 content) :=
      ⟨content, rfl, size, hash⟩
    have expected := expected_found found
    refine ⟨nodup_append_one once absent, fun e mem => ?_, fun known mem => ?_⟩
    · rcases List.mem_append.mp mem with old | new
      · rcases news e old with older | ⟨up, directory⟩
        · exact staged.placed e older
        · exact ⟨row, expected, Or.inl ⟨up, directory⟩⟩
      · rw [List.mem_singleton] at new
        exact ⟨row, expected, Or.inr (new ▸ file)⟩
    · rcases List.mem_append.mp mem with old | new
      · obtain ⟨other, foundOther, ⟨e, inside, extracted⟩, above⟩ := staged.files known old
        refine ⟨other, foundOther, ⟨e, List.mem_append_left _ (kept e inside), extracted⟩, ?_⟩
        intro parent up
        obtain ⟨mode, there⟩ := above parent up
        exact ⟨mode, List.mem_append_left _ (kept _ there)⟩
      · rw [List.mem_singleton] at new
        subst new
        refine ⟨row, found, ⟨_, List.mem_append_right _ (List.mem_singleton.mpr rfl), file⟩, ?_⟩
        intro parent up
        obtain ⟨mode, there⟩ := all parent up
        exact ⟨mode, List.mem_append_left _ there⟩

theorem extractMember_staged {umask : Mode} {rows : List SourceRow} {s next : Staging}
    {m : TarMember} (staged : Staged umask rows s)
    (done : extractMember umask rows s m = .ok next) : Staged umask rows next := by
  unfold extractMember at done
  split at done
  · split at done
    · obtain rfl := Except.ok.inj done
      exact staged
    · cases done
  · split at done
    · cases done
    · rename_i row found
      obtain ⟨_, _, done⟩ := bind_ok.mp done
      obtain ⟨_, same, done⟩ := bind_ok.mp done
      obtain ⟨entries, created, done⟩ := bind_ok.mp done
      rw [pure_eq_ok] at done
      subst done
      simp only [raiseIf_ok, not_or, ne_eq, not_not] at same
      exact createFile_staged staged found same.1 same.2.1 created

theorem archive_staged {umask : Mode} {rows : List SourceRow} {archive : List TarMember}
    {s final : Staging} (staged : Staged umask rows s)
    (done : archive.foldlM (extractMember umask rows) s = .ok final) :
    Staged umask rows final := by
  induction archive generalizing s with
  | nil =>
    rw [List.foldlM_nil, pure_eq_ok] at done
    exact done ▸ staged
  | cons m rest ih =>
    rw [List.foldlM_cons, bind_ok] at done
    obtain ⟨next, step, later⟩ := done
    exact ih (extractMember_staged staged step) later

theorem normalize_path (e : Path × Node) : (normalize e).1 = e.1 := by
  obtain ⟨path, node⟩ := e
  cases node <;> rfl

theorem extracted_matches {umask : Mode} {rows : List SourceRow} {archive : List TarMember}
    {written : Tree} (accepted : extractExact umask rows archive = .ok written) :
    Matches (fun row => row.fileMode &&& ~~~umask) rows written := by
  unfold extractExact at accepted
  obtain ⟨final, run, accepted⟩ := bind_ok.mp accepted
  obtain ⟨_, complete, accepted⟩ := bind_ok.mp accepted
  rw [pure_eq_ok] at accepted
  subst accepted
  have start : Staged umask rows { entries := [], observed := [] } :=
    ⟨List.nodup_nil, by simp, by simp⟩
  have staged := archive_staged start run
  simp only [raiseIf_ok, not_exists, not_and, not_not] at complete
  have seen : ∀ row, Expected rows row → row.name ∈ final.observed :=
    fun row expected => complete row (expectedRow_some expected).1
  refine ⟨rfl, ?_, fun e mem => ?_, fun row expected => ?_, fun row expected parent up => ?_⟩
  · rw [List.map_map, show Prod.fst ∘ normalize = Prod.fst from funext normalize_path]
    exact staged.once
  · obtain ⟨e, old, rfl⟩ := List.mem_map.mp mem
    obtain ⟨row, expected, ⟨up, mode, directory⟩ | ⟨content, rfl, size, hash⟩⟩ :=
      staged.placed e old
    · refine Or.inl ⟨row, expected, by rwa [normalize_path], ?_⟩
      obtain ⟨path, node⟩ := e
      obtain rfl : node = .directory mode := directory
      rfl
    · exact Or.inr ⟨row, content, expected, rfl, size, hash⟩
  · obtain ⟨same, found, ⟨e, inside, content, rfl, _, _⟩, _⟩ := staged.files _ (seen row expected)
    obtain rfl := Option.some.inj (expected.symm.trans found)
    exact ⟨content, List.mem_map.mpr ⟨_, inside, rfl⟩⟩
  · obtain ⟨same, found, _, above⟩ := staged.files _ (seen row expected)
    obtain rfl := Option.some.inj (expected.symm.trans found)
    obtain ⟨mode, there⟩ := above parent up
    exact List.mem_map.mpr ⟨_, there, rfl⟩

end Writer

section Verifier

theorem readOnce_whole {n : Nat} (small : n < maxRead) {content : List UInt8}
    (size : (readOnce (n + 1) content).length = n) :
    readOnce (n + 1) content = content ∧ content.length = n := by
  rw [readOnce, List.length_take] at size
  have whole : content.length = n := by omega
  exact ⟨List.take_of_length_le (by omega), whole⟩

theorem readOnce_exact {n : Nat} (small : n < maxRead) {content : List UInt8}
    (size : content.length = n) : readOnce (n + 1) content = content :=
  List.take_of_length_le (by omega)

theorem readOnce_le {n : Nat} {content : List UInt8}
    (size : (readOnce (n + 1) content).length = n) : n ≤ maxRead := by
  rw [readOnce, List.length_take] at size
  omega

theorem verifyRelease_ok {rows : List SourceRow} {t : Tree} :
    verifyRelease rows t = .ok () ↔ t.root = .directory 0o755 ∧
      (∀ e ∈ t.entries, verifyEntry rows e = .ok ()) ∧
      ∀ row ∈ rows, row.name ∈ observedFiles t := by
  unfold verifyRelease
  rw [bind_ok]
  simp only [raiseIf_ok, bind_ok, forM_ok, not_not, ne_eq, not_exists, not_and]
  constructor
  · rintro ⟨_, root, _, entries, complete⟩
    exact ⟨root, entries, complete⟩
  · rintro ⟨root, entries, complete⟩
    exact ⟨(), root, (), entries, complete⟩

theorem mem_observedFiles {t : Tree} {name : String} :
    name ∈ observedFiles t ↔
      ∃ e ∈ t.entries, (∀ mode, e.2 ≠ .directory mode) ∧ join (rootName :: e.1) = name := by
  simp only [observedFiles, List.mem_filterMap]
  refine exists_congr fun e => and_congr_right fun _ => ?_
  obtain ⟨path, node⟩ := e
  cases node <;> simp

variable {rows : List SourceRow} (checked : Checked rows)
include checked

theorem verifyEntry_ok {path : Path} (filled : path ≠ []) (names : ∀ part ∈ path, IsName part)
    {node : Node} :
    verifyEntry rows (path, node) = .ok () ↔
      (∃ row, Expected rows row ∧ path ∈ parents row.path ∧ node = .directory 0o755) ∨
      ∃ row content, Expected rows row ∧ row.path = path ∧
        node = .file row.fileMode 1 content ∧
        (readOnce (row.bytes + 1) content).length = row.bytes ∧
        Sha256.hexdigest (readOnce (row.bytes + 1) content) = row.sha256 := by
  cases node with
  | directory mode =>
    simp only [verifyEntry, raiseIf_ok, not_or, not_not, ne_eq,
      mem_directories checked filled names]
    constructor
    · rintro ⟨⟨row, expected, up⟩, rfl⟩
      exact Or.inl ⟨row, expected, up, rfl⟩
    · rintro (⟨row, expected, up, same⟩ | ⟨row, content, _, _, same, _⟩)
      · exact ⟨⟨row, expected, up⟩, Node.directory.inj same⟩
      · cases same
  | file mode links content =>
    constructor
    · intro verified
      simp only [verifyEntry] at verified
      cases found : expectedRelative rows path with
      | none => rw [found] at verified; cases verified
      | some row =>
        rw [found] at verified
        obtain ⟨_, one, verified⟩ := bind_ok.mp verified
        simp only [raiseIf_ok, not_or, not_not, ne_eq] at one verified
        obtain ⟨expected, same⟩ := (expectedRelative_some checked names).mp found
        obtain ⟨size, hash, rfl⟩ := verified
        exact Or.inr ⟨row, content, expected, same, by rw [one], size, hash⟩
    · rintro (⟨row, _, _, same⟩ | ⟨row, _, expected, rfl, same, size, hash⟩)
      · cases same
      · obtain ⟨rfl, rfl, rfl⟩ := Node.file.inj same
        have found : expectedRelative rows row.path = some row :=
          (expectedRelative_some checked names).mpr ⟨expected, rfl⟩
        simp only [verifyEntry, found]
        simp only [bind_ok, raiseIf_ok, not_or, not_not, ne_eq]
        exact ⟨(), trivial, size, hash, trivial⟩
  | symlink | special =>
    constructor
    · intro verified
      cases verified
    · rintro (⟨row, _, _, same⟩ | ⟨row, _, _, _, same, _⟩) <;> cases same

theorem parents_named {row : SourceRow} (expected : Expected rows row) {path : Path}
    (up : path ∈ parents row.path) : path ≠ [] ∧ ∀ part ∈ path, IsName part := by
  obtain ⟨filled, starts, -⟩ := mem_parents.mp up
  exact ⟨filled, fun part mem => (expected_checked checked expected).2 part (starts.subset mem)⟩

theorem matches_named {mode : SourceRow → Mode} {t : Tree} (fits : Matches mode rows t)
    {e : Path × Node} (mem : e ∈ t.entries) : e.1 ≠ [] ∧ ∀ part ∈ e.1, IsName part := by
  rcases fits.placed e mem with ⟨row, expected, up, _⟩ | ⟨row, content, expected, rfl, _⟩
  · exact parents_named checked expected up
  · exact expected_checked checked expected

theorem matches_real {mode : SourceRow → Mode} {t : Tree} (fits : Matches mode rows t) :
    t.Real where
  named := fun e mem => matches_named checked fits mem
  once := fits.once
  closed := by
    intro e mem parent up
    rcases fits.placed e mem with ⟨row, expected, inside, _⟩ | ⟨row, content, expected, rfl, _⟩
    · exact ⟨_, fits.above row expected parent (parents_parents up inside)⟩
    · exact ⟨_, fits.above row expected parent up⟩

theorem matches_verified {t : Tree} (fits : Matches SourceRow.fileMode rows t)
    (small : ∀ row, Expected rows row → row.bytes < maxRead) : verifyRelease rows t = .ok () := by
  refine verifyRelease_ok.mpr ⟨fits.root, fun e mem => ?_, fun row mem => ?_⟩
  · obtain ⟨filled, names⟩ := matches_named checked fits mem
    refine (verifyEntry_ok checked filled names).mpr ?_
    rcases fits.placed e mem with ⟨row, expected, up, directory⟩ |
      ⟨row, content, expected, rfl, size, hash⟩
    · exact Or.inl ⟨row, expected, up, directory⟩
    · have whole := readOnce_exact (small row expected) size
      exact Or.inr ⟨row, content, expected, rfl, rfl, by rw [whole, size], by rw [whole, hash]⟩
  · obtain ⟨last, expected, sameName, -⟩ := expected_of_mem checked mem
    obtain ⟨content, inside⟩ := fits.files last expected
    exact mem_observedFiles.mpr ⟨_, inside, by simp, sameName⟩

theorem verified_matches {t : Tree} (real : t.Real) (verified : verifyRelease rows t = .ok ())
    (small : ∀ row, Expected rows row → row.bytes < maxRead) :
    Matches SourceRow.fileMode rows t := by
  obtain ⟨root, entries, complete⟩ := verifyRelease_ok.mp verified
  have each := fun e mem => (verifyEntry_ok checked (real.named e mem).1 (real.named e mem).2).mp
    (entries e mem)
  have files : ∀ row, Expected rows row →
      ∃ content, (row.path, .file row.fileMode 1 content) ∈ t.entries := by
    intro row expected
    obtain ⟨e, mem, plain, name⟩ := mem_observedFiles.mp
      (complete row (expectedRow_some expected).1)
    have path := name_injective checked (real.named e mem).2 (expectedRow_some expected).1 name.symm
    rcases each e mem with ⟨_, _, _, directory⟩ | ⟨other, content, expected', same, node, _⟩
    · exact absurd directory (plain _)
    · obtain rfl := expected_unique expected expected' (path.trans same.symm)
      refine ⟨content, ?_⟩
      rw [path, ← node]
      exact mem
  refine ⟨root, real.once, fun e mem => ?_, files, fun row expected parent up => ?_⟩
  · rcases each e mem with directory | ⟨row, content, expected, same, node, size, hash⟩
    · exact Or.inl directory
    · obtain ⟨whole, length⟩ := readOnce_whole (small row expected) size
      rw [whole] at hash
      refine Or.inr ⟨row, content, expected, ?_, length, hash⟩
      rw [same, ← node]
  · obtain ⟨content, mem⟩ := files row expected
    obtain ⟨mode, there⟩ := real.closed _ mem parent up
    rcases each _ there with ⟨_, _, _, directory⟩ | ⟨_, _, _, _, node, _⟩
    · rwa [Node.directory.inj directory] at there
    · cases node

end Verifier

end NoiContest.SourceRelease
