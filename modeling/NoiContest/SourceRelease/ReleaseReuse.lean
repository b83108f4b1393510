import NoiContest.SourceRelease.ReleaseTree

/- When a release that was extracted can be used again. -/
namespace NoiContest.SourceRelease
open Outcome FilePath

/- Two trees with the same entries. -/
def Same (t s : Tree) : Prop := t.root = s.root ∧ ∀ e, e ∈ t.entries ↔ e ∈ s.entries

/- No two contents of one path have the same size and digest. -/
def NoCollision (t s : Tree) : Prop :=
  ∀ path mode mode' links links' content content',
    (path, .file mode links content) ∈ t.entries → (path, .file mode' links' content') ∈ s.entries →
    content.length = content'.length → Sha256.hexdigest content = Sha256.hexdigest content' →
    content = content'

theorem unmasked_iff {x y : Mode} : x &&& ~~~y = x ↔ y &&& x = 0 := by
  constructor
  · intro kept
    rw [← kept]
    ext i
    simp only [BitVec.getElem_and, BitVec.getElem_not]
    cases y[i] <;> simp
  · intro apart
    ext i inside
    have bit := congrArg (fun z : Mode => z[i]) apart
    simp only [BitVec.getElem_and, BitVec.getElem_not] at bit ⊢
    cases xi : x[i] <;> cases yi : y[i] <;> simp_all

theorem entry_unique {entries : List (Path × Node)} (once : (entries.map Prod.fst).Nodup)
    {path : Path} {node other : Node} (mem : (path, node) ∈ entries)
    (mem' : (path, other) ∈ entries) : node = other :=
  congrArg Prod.snd (List.inj_on_of_nodup_map once mem mem' rfl)

theorem matches_subset {mode : SourceRow → Mode} {rows : List SourceRow} {t s : Tree}
    (fits : Matches mode rows t) (fits' : Matches mode rows s) (free : NoCollision t s) :
    ∀ e ∈ t.entries, e ∈ s.entries := by
  intro e mem
  rcases fits.placed e mem with ⟨row, expected, up, directory⟩ |
    ⟨row, content, expected, rfl, size, hash⟩
  · have there := fits'.above row expected _ up
    rwa [← directory] at there
  · obtain ⟨content', there⟩ := fits'.files row expected
    rcases fits'.placed _ there with ⟨_, _, _, directory⟩ | ⟨other, same, expected', node, size', hash'⟩
    · cases directory
    · obtain ⟨path, file⟩ := Prod.mk.inj node
      obtain ⟨-, -, rfl⟩ := Node.file.inj file
      obtain rfl := expected_unique expected expected' path
      have equal := free _ _ _ _ _ _ _ mem there (size.trans size'.symm) (hash.trans hash'.symm)
      rwa [equal]

theorem NoCollision.symm {t s : Tree} (free : NoCollision t s) : NoCollision s t :=
  fun path mode mode' links links' content content' mem mem' size hash =>
    (free path mode' mode links' links content' content mem' mem size.symm hash.symm).symm

theorem matches_same {mode : SourceRow → Mode} {rows : List SourceRow} {t s : Tree}
    (fits : Matches mode rows t) (fits' : Matches mode rows s) (free : NoCollision t s) :
    Same t s :=
  ⟨fits.root.trans fits'.root.symm, fun e =>
    ⟨matches_subset fits fits' free e, matches_subset fits' fits free.symm e⟩⟩

section Longer

/- One more byte at the end of a file. -/
def longer (target : Path) : Path × Node → Path × Node
  | (path, .file mode links content) =>
    (path, .file mode links (if path = target then content ++ [0] else content))
  | entry => entry

theorem longer_path (target : Path) (e : Path × Node) : (longer target e).1 = e.1 := by
  obtain ⟨path, node⟩ := e
  cases node <;> rfl

theorem longer_directory {target path : Path} {node : Node} {mode : Mode} :
    longer target (path, node) = (path, .directory mode) ↔ node = .directory mode := by
  cases node <;> simp [longer]

def lengthen (target : Path) (t : Tree) : Tree := { t with entries := t.entries.map (longer target) }

theorem lengthen_keys (target : Path) (t : Tree) :
    (lengthen target t).entries.map Prod.fst = t.entries.map Prod.fst := by
  rw [lengthen, List.map_map, show Prod.fst ∘ longer target = Prod.fst from
    funext (longer_path target)]

theorem lengthen_real {target : Path} {t : Tree} (real : t.Real) : (lengthen target t).Real where
  named := by
    intro e mem
    obtain ⟨e, old, rfl⟩ := List.mem_map.mp mem
    rw [longer_path]
    exact real.named e old
  once := by
    rw [lengthen_keys]
    exact real.once
  closed := by
    intro e mem parent up
    obtain ⟨e, old, rfl⟩ := List.mem_map.mp mem
    rw [longer_path] at up
    obtain ⟨mode, there⟩ := real.closed e old parent up
    exact ⟨mode, List.mem_map.mpr ⟨_, there, rfl⟩⟩

theorem lengthen_observed (target : Path) (t : Tree) :
    observedFiles (lengthen target t) = observedFiles t := by
  rw [observedFiles, observedFiles, lengthen, List.filterMap_map]
  refine congrArg (fun f => List.filterMap f t.entries) (funext fun e => ?_)
  obtain ⟨path, node⟩ := e
  cases node <;> rfl

theorem lengthen_free {rows : List SourceRow} {mode : SourceRow → Mode} {t : Tree}
    (fits : Matches mode rows t) (target : Path) : NoCollision (lengthen target t) t := by
  intro path m m' links links' content content' mem mem' size _
  obtain ⟨⟨path', node⟩, old, same⟩ := List.mem_map.mp mem
  obtain rfl : path = path' := by
    have kept := longer_path target (path', node)
    rwa [same] at kept
  obtain rfl := entry_unique fits.once old mem'
  rw [longer] at same
  obtain ⟨-, file⟩ := Prod.mk.inj same
  obtain ⟨-, -, rfl⟩ := Node.file.inj file
  split_ifs at size ⊢
  · simp at size
  · rfl

theorem lengthen_differs {rows : List SourceRow} {mode : SourceRow → Mode} {t : Tree}
    (fits : Matches mode rows t) {row : SourceRow} (expected : Expected rows row) : ¬ Same (lengthen row.path t) t := by
  intro same
  obtain ⟨content, mem⟩ := fits.files row expected
  have there : (row.path, .file (mode row) 1 (content ++ [0])) ∈ (lengthen row.path t).entries :=
    List.mem_map.mpr ⟨_, mem, by simp [longer]⟩
  have file := entry_unique fits.once mem ((same.2 _).mp there)
  have contents := (Node.file.inj file).2.2
  simp at contents

/- Nobody reads the last byte of a file that fills a whole read. -/
theorem lengthen_verified {rows : List SourceRow} (checked : Checked rows)
    {mode : SourceRow → Mode} {t : Tree} (fits : Matches mode rows t)
    (verified : verifyRelease rows t = .ok ()) {row : SourceRow} (expected : Expected rows row)
    (full : row.bytes = maxRead) : verifyRelease rows (lengthen row.path t) = .ok () := by
  obtain ⟨root, entries, complete⟩ := verifyRelease_ok.mp verified
  refine verifyRelease_ok.mpr ⟨root, fun e mem => ?_, fun other mem => ?_⟩
  · obtain ⟨⟨path, node⟩, old, rfl⟩ := List.mem_map.mp mem
    have same : verifyEntry rows (longer row.path (path, node)) = verifyEntry rows (path, node) := by
      rcases fits.placed _ old with ⟨_, _, _, directory⟩ | ⟨other, content, expected', file, size, _⟩
      · obtain rfl : node = .directory 0o755 := directory
        rfl
      · obtain ⟨rfl, rfl⟩ := Prod.mk.inj file
        rw [longer]
        split_ifs with here
        · obtain rfl := expected_unique expected' expected here
          have found : expectedRelative rows other.path = some other :=
            (expectedRelative_some checked (expected_checked checked expected').2).mpr
              ⟨expected', rfl⟩
          have read : readOnce (other.bytes + 1) (content ++ [0]) =
              readOnce (other.bytes + 1) content := by
            rw [readOnce, readOnce, List.take_append_of_le_length (by omega)]
          simp only [verifyEntry, found, read]
        · rfl
    rw [same]
    exact entries _ old
  · rw [lengthen_observed]
    exact complete other mem

end Longer

/- No bit of a file's mode is in the umask, and no file fills a whole read. -/
def Reusable (umask : Mode) (rows : List SourceRow) : Prop :=
  ∀ row, Expected rows row → umask &&& row.fileMode = 0 ∧ row.bytes < maxRead

theorem release_reused {umask : Mode} {rows : List SourceRow} {archive : List TarMember}
    {written : Tree} (checked : Checked rows)
    (accepted : extractExact umask rows archive = .ok written) :
    (verifyRelease rows written = .ok () ∧
      ∀ tree : Tree, tree.Real → NoCollision tree written → ¬ Same tree written →
        ∃ raised, verifyRelease rows tree = .error raised) ↔
    Reusable umask rows := by
  have fits := extracted_matches accepted
  constructor
  · rintro ⟨verified, unique⟩ row expected
    obtain ⟨content, mem⟩ := fits.files row expected
    obtain ⟨filled, names⟩ := expected_checked checked expected
    have entry := (verifyRelease_ok.mp verified).2.1 _ mem
    rcases (verifyEntry_ok checked filled names).mp entry with ⟨_, _, _, directory⟩ |
      ⟨other, _, expected', path, file, size, _⟩
    · cases directory
    obtain rfl := expected_unique expected' expected path
    obtain ⟨kept, -, rfl⟩ := Node.file.inj file
    refine ⟨unmasked_iff.mp kept, lt_of_le_of_ne (readOnce_le size) fun full => ?_⟩
    obtain ⟨raised, rejected⟩ := unique (lengthen other.path written)
      (lengthen_real (matches_real checked fits)) (lengthen_free fits _)
      (lengthen_differs fits expected)
    rw [lengthen_verified checked fits verified expected full] at rejected
    cases rejected
  · intro reusable
    have small := fun row expected => (reusable row expected).2
    have modes : Matches SourceRow.fileMode rows written := by
      have kept : ∀ row, Expected rows row → row.fileMode &&& ~~~umask = row.fileMode :=
        fun row expected => unmasked_iff.mpr (reusable row expected).1
      refine ⟨fits.root, fits.once, fun e mem => ?_, fun row expected => ?_, fits.above⟩
      · rcases fits.placed e mem with directory | ⟨row, content, expected, file, facts⟩
        · exact Or.inl directory
        · exact Or.inr ⟨row, content, expected, by rw [file, kept row expected], facts⟩
      · obtain ⟨content, mem⟩ := fits.files row expected
        exact ⟨content, by rwa [kept row expected] at mem⟩
    refine ⟨matches_verified checked modes small, fun tree real free other => ?_⟩
    cases verdict : verifyRelease rows tree with
    | error raised => exact ⟨raised, rfl⟩
    | ok =>
      exact absurd (matches_same (verified_matches checked real verdict small) modes free) other

def sampleRow : SourceRow where
  path := ["docs", "README"]
  mode := "100644"
  bytes := 0
  sha256 := "e3b0c44298fc1c149afbf4c8996fb92427ae41e4649b934ca495991b7852b855"

def sampleArchive : List TarMember :=
  [{ name := rootName ++ "/", kind := .directory, mode := 0o775, content := [] },
    { name := rootName ++ "/docs/README", kind := .regular, mode := 0o644, content := [] }]

def sampleWritten (mode : Mode) : Tree where
  root := .directory 0o755
  entries := [(["docs"], .directory 0o755), (["docs", "README"], .file mode 1 [])]

theorem sample_release :
    extractExact 0o022 [sampleRow] sampleArchive = .ok (sampleWritten 0o644) ∧
      verifyRelease [sampleRow] (sampleWritten 0o644) = .ok () := by
  have written : extractExact 0o022 [sampleRow] sampleArchive = .ok (sampleWritten 0o644) := by
    decide +kernel
  refine ⟨written, ((release_reused (by decide) written).mpr ?_).1⟩
  intro row expected
  have only := (expectedRow_some expected).1
  rw [List.mem_singleton] at only
  subst only
  decide

/- Under umask 077 the file gets mode 0600. -/
theorem private_umask_rejected :
    extractExact 0o077 [sampleRow] sampleArchive = .ok (sampleWritten 0o600) ∧
      verifyRelease [sampleRow] (sampleWritten 0o600) =
        .error (.transaction "existing release file differs") := by
  decide +kernel

end NoiContest.SourceRelease
