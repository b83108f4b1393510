import Mathlib.Tactic.Ring
import NoiContest.TestdataUpload.Entries

/- When the files of an accepted upload are exact pairs. -/
namespace NoiContest.TestdataUpload
variable {lib : Libraries} {limits : Limits} {problems : List String}

/- The parts of an archive name around its last slash. -/
def filePart (name : String) : String :=
  String.ofList (name.toList.reverse.takeWhile (· ≠ '/')).reverse

def folderPart (name : String) : String :=
  String.ofList (name.toList.take (name.length - ((filePart name).length + 1)))

/- The names of the regular files of the archive in the folder p that have the suffix k. -/
def filesIn (lib : Libraries) (u : Upload) (p k : String) : List String :=
  (((u.archive.filter fun m => !m.directory).map Member.name).filter fun name =>
    folderPart name = p ∧ kind lib (filePart name) = k).map filePart

structure ExactPairs (lib : Libraries) (problems : List String) (g : Nat) (u : Upload) : Prop where
  inputs : ∀ p ∈ problems, (filesIn lib u p ".in").length = g
  outputs : ∀ p ∈ problems, (filesIn lib u p ".out").length = g
  distinct : ∀ p ∈ problems, ((filesIn lib u p ".in").map (foldedStem lib)).Nodup
  paired : ∀ p ∈ problems, ((filesIn lib u p ".in").map (foldedStem lib)).Perm
    ((filesIn lib u p ".out").map (foldedStem lib))
  nothingElse : ∀ m ∈ u.archive, (m.directory = true ∧ m.name ∈ problems) ∨
    m.directory = false ∧ ∃ p ∈ problems, ∃ k ∈ [".in", ".out"],
      filePart m.name ∈ filesIn lib u p k ∧ m.name = p ++ "/" ++ filePart m.name
  count : u.files = 2 * g * problems.length

/- No two files of one problem folder have names that differ only in their case. -/
def CaseDistinct (lib : Libraries) (entries : List Entry) : Prop :=
  ∀ e ∈ entries, ∀ e' ∈ entries, e.folder = e'.folder →
    kind lib e.filename = kind lib e'.filename →
    foldedStem lib e.filename = foldedStem lib e'.filename → e.filename = e'.filename

/- The archive in terms of the entries -/

theorem filePart_path {e : Entry} (clean : '/' ∉ e.filename.toList) :
    filePart e.path = e.filename := by
  refine String.toList_injective ?_
  have all : ∀ c ∈ e.filename.toList.reverse, (decide (c ≠ '/')) = true := by
    intro c mem
    rw [List.mem_reverse] at mem
    exact decide_eq_true fun slash => clean (slash ▸ mem)
  have path : e.path.toList.reverse =
      e.filename.toList.reverse ++ '/' :: e.folder.toList.reverse := by
    simp [Entry.path]
  rw [filePart, String.toList_ofList, path, List.takeWhile_append_of_pos all,
    List.takeWhile_cons_of_neg (by simp), List.append_nil, List.reverse_reverse]

theorem folderPart_path {e : Entry} (clean : '/' ∉ e.filename.toList) :
    folderPart e.path = e.folder := by
  refine String.toList_injective ?_
  have length : e.path.length - (e.filename.length + 1) = e.folder.toList.length := by
    simp only [Entry.path, String.length_append, String.length_toList]
    have one : "/".length = 1 := rfl
    omega
  rw [folderPart, filePart_path clean, String.toList_ofList, length]
  simp [Entry.path]

theorem fileMember_ok {e : Entry} {m : Member} (packed : fileMember e = .ok m) :
    m.name = e.path ∧ m.directory = false ∧ e.info.content = some m.data ∧
      m = ⟨e.path, false, 0o444, m.data⟩ := by
  unfold fileMember at packed
  split at packed
  · cases packed
  · rename_i content found
    obtain ⟨_, length, packed⟩ := Outcome.bind_ok.mp packed
    rw [Outcome.raiseIf_ok, not_not, List.length_take] at length
    rw [Outcome.pure_eq_ok] at packed
    subst packed
    have whole : content.take (e.info.fileSize + 1) = content :=
      List.take_of_length_le (by omega)
    exact ⟨rfl, rfl, by rw [found, whole], rfl⟩

theorem files_names {entries : List Entry} {files : List Member}
    (packed : List.Forall₂ (fun e m => fileMember e = .ok m) entries files) :
    files.map Member.name = entries.map Entry.path ∧ ∀ m ∈ files, m.directory = false := by
  induction packed with
  | nil => exact ⟨rfl, nofun⟩
  | cons first _ ih =>
    obtain ⟨name, directory, -⟩ := fileMember_ok first
    exact ⟨by rw [List.map_cons, List.map_cons, name, ih.1],
      List.forall_mem_cons.mpr ⟨directory, ih.2⟩⟩

/- The directories of the archive are the problem folders and its files the sorted entries. -/
theorem archive_ok {entries : List Entry} {archive : List Member}
    (packed : archiveMembers entries = .ok archive) :
    ∃ files, archive = ((directories entries).sort (· ≤ ·)).map directoryMember ++ files ∧
      List.Forall₂ (fun e m => fileMember e = .ok m) (entries.insertionSort ByParts) files := by
  obtain ⟨files, read, packed⟩ := Outcome.bind_ok.mp packed
  rw [Outcome.pure_eq_ok] at packed
  exact ⟨files, packed.symm, Outcome.mapM_ok.mp read⟩

theorem archive_files {entries : List Entry} {archive : List Member}
    (packed : archiveMembers entries = .ok archive) :
    ((archive.filter fun m => !m.directory).map Member.name).Perm (entries.map Entry.path) := by
  obtain ⟨files, rfl, read⟩ := archive_ok packed
  obtain ⟨names, regular⟩ := files_names read
  have dirs : (((directories entries).sort (· ≤ ·)).map directoryMember).filter
      (fun m => !m.directory) = [] := by
    rw [List.filter_eq_nil_iff]
    intro m mem
    obtain ⟨d, -, rfl⟩ := List.mem_map.mp mem
    simp [directoryMember]
  have all : files.filter (fun m => !m.directory) = files := by
    rw [List.filter_eq_self]
    intro m mem
    simp [regular m mem]
  rw [List.filter_append, dirs, all, List.nil_append, names]
  exact (List.perm_insertionSort ByParts entries).map Entry.path

def entriesIn (lib : Libraries) (entries : List Entry) (p k : String) : List Entry :=
  entries.filter fun e => e.folder = p ∧ kind lib e.filename = k

theorem filesIn_perm {groups : Option Nat} {infolist : List ZipInfo} {u : Upload}
    (accepted : Accepted lib problems groups infolist u) (p k : String) :
    (filesIn lib u p k).Perm
      ((entriesIn lib (normalizedEntries lib problems infolist) p k).map Entry.filename) := by
  have names := ((archive_files accepted.archive).filter fun name =>
    folderPart name = p ∧ kind lib (filePart name) = k).map filePart
  refine names.trans (.of_eq ?_)
  rw [List.filter_map, List.map_map, entriesIn]
  have clean := accepted.clean
  have same : ((normalizedEntries lib problems infolist).filter
      ((fun name => decide (folderPart name = p ∧ kind lib (filePart name) = k)) ∘ Entry.path)) =
      (normalizedEntries lib problems infolist).filter
        fun e => e.folder = p ∧ kind lib e.filename = k := by
    refine List.filter_congr fun e mem => ?_
    rw [Function.comp_apply, folderPart_path (clean e mem), filePart_path (clean e mem)]
  rw [same]
  refine List.map_congr_left fun e mem => ?_
  exact filePart_path (clean e (List.mem_filter.mp mem).1)

/- Counting -/

theorem entries_length {entries : List Entry} {n : Nat} (nodup : problems.Nodup)
    (folders : ∀ e ∈ entries, e.folder ∈ problems)
    (each : ∀ p ∈ problems, (entries.filter fun e => e.folder = p).length = n) :
    entries.length = problems.length * n := by
  induction problems generalizing entries with
  | nil =>
    cases entries with
    | nil => simp
    | cons e rest => exact absurd (folders e List.mem_cons_self) List.not_mem_nil
  | cons p rest ih =>
    rw [List.nodup_cons] at nodup
    have split := List.length_eq_length_filter_add (l := entries) fun e => decide (e.folder = p)
    have others : (entries.filter fun e => !decide (e.folder = p)).length = rest.length * n := by
      refine ih nodup.2 ?_ ?_
      · intro e mem
        simp only [List.mem_filter, Bool.not_eq_true', decide_eq_false_iff_not] at mem
        exact (List.mem_cons.mp (folders e mem.1)).resolve_left mem.2
      · intro q memQ
        have apart : q ≠ p := fun same => nodup.1 (same ▸ memQ)
        rw [← each q (List.mem_cons_of_mem _ memQ), List.filter_filter]
        refine congrArg List.length (List.filter_congr fun e _ => ?_)
        by_cases here : e.folder = q <;> simp [here, apart]
    rw [split, each p List.mem_cons_self, others, List.length_cons]
    ring

theorem folder_length {entries : List Entry} (kinds : ∀ e ∈ entries,
    kind lib e.filename = ".in" ∨ kind lib e.filename = ".out") (p : String) :
    (entries.filter fun e => e.folder = p).length =
      (entriesIn lib entries p ".in").length + (entriesIn lib entries p ".out").length := by
  have split := List.length_eq_length_filter_add (l := entries.filter fun e => e.folder = p)
    fun e => decide (kind lib e.filename = ".in")
  rw [split, List.filter_filter, List.filter_filter, entriesIn, entriesIn]
  refine congrArg₂ (· + ·) (congrArg List.length (List.filter_congr fun e _ => ?_))
    (congrArg List.length (List.filter_congr fun e mem => ?_))
  · by_cases here : e.folder = p <;> simp [here]
  · rcases kinds e mem with input | output
    · simp [input]
    · simp [output]

/-- The case-folded stems of the files with suffix k in the folder p. -/
def stemsIn (lib : Libraries) (entries : List Entry) (p k : String) : Finset String :=
  ((entriesIn lib entries p k).map fun e => foldedStem lib e.filename).toFinset

theorem outputs_gathered {g : Grouping} (gathered : Gathered lib problems g) (p : String) :
    g.outputGroups p = stemsIn lib g.normalized p ".out" := by
  rw [gathered.outputs, stemsIn, entriesIn]
  congr 2
  refine List.filter_congr fun e mem => ?_
  rcases gathered.kinds e mem with input | output
  · simp [input]
  · simp [output]

theorem checkGroups_iff {g : Grouping} (gathered : Gathered lib problems g) (expected : Nat)
    (p : String) : checkGroups (some expected) g p = .ok () ↔
      stemsIn lib g.normalized p ".in" = stemsIn lib g.normalized p ".out" ∧
        (stemsIn lib g.normalized p ".in").card = expected := by
  have inputs : g.inputGroups p = stemsIn lib g.normalized p ".in" := gathered.inputs p
  simp only [checkGroups, inputs, outputs_gathered gathered, Outcome.bind_ok, Outcome.raiseIf_ok,
    not_not, exists_const]

/- What the checks of the groups say about the entries. -/
theorem groups_ok {g : Nat} {infolist : List ZipInfo} {u : Upload}
    (accepted : Accepted lib problems (some g) infolist u) {p : String} (mem : p ∈ problems) :
    stemsIn lib (normalizedEntries lib problems infolist) p ".in" =
      stemsIn lib (normalizedEntries lib problems infolist) p ".out" ∧
    (stemsIn lib (normalizedEntries lib problems infolist) p ".in").card = g := by
  obtain ⟨grouping, gathered, entries, -, checked⟩ := accepted.grouped
  rw [← entries]
  exact (checkGroups_iff gathered g p).mp (checked p mem)

theorem stems_nodup {infolist : List ZipInfo} {groups : Option Nat} {u : Upload}
    (accepted : Accepted lib problems groups infolist u)
    (distinct : CaseDistinct lib (normalizedEntries lib problems infolist)) (p k : String) :
    ((entriesIn lib (normalizedEntries lib problems infolist) p k).map
      fun e => foldedStem lib e.filename).Nodup := by
  obtain ⟨grouping, gathered, entries, -, -⟩ := accepted.grouped
  have paths := gathered.distinct
  rw [entries] at paths
  refine List.Nodup.map_on ?_ ((List.Nodup.of_map _ paths).filter _)
  intro e mem e' mem' same
  simp only [entriesIn, List.mem_filter, decide_eq_true_eq] at mem mem'
  have filename := distinct e mem.1 e' mem'.1 (mem.2.1.trans mem'.2.1.symm)
    (mem.2.2.trans mem'.2.2.symm) same
  refine List.inj_on_of_nodup_map paths mem.1 mem'.1 ?_
  rw [Entry.path, Entry.path, filename, mem.2.1, mem'.2.1]

theorem exact_of_distinct {g : Nat} {infolist : List ZipInfo} {u : Upload}
    (accepted : Accepted lib problems (some g) infolist u) (nodup : problems.Nodup)
    (distinct : CaseDistinct lib (normalizedEntries lib problems infolist)) :
    ExactPairs lib problems g u := by
  obtain ⟨grouping, gathered, entries, -, -⟩ := accepted.grouped
  have folders := gathered.folders
  have kinds := gathered.kinds
  rw [entries] at folders kinds
  have stems : ∀ p k, ((filesIn lib u p k).map (foldedStem lib)).Perm
      ((entriesIn lib (normalizedEntries lib problems infolist) p k).map
        fun e => foldedStem lib e.filename) := by
    intro p k
    have perm := (filesIn_perm accepted p k).map (foldedStem lib)
    rwa [List.map_map] at perm
  have nodups := stems_nodup accepted distinct
  have inputs : ∀ p ∈ problems,
      (entriesIn lib (normalizedEntries lib problems infolist) p ".in").length = g := by
    intro p mem
    have card := (groups_ok accepted mem).2
    rwa [stemsIn, List.toFinset_card_of_nodup (nodups p ".in"), List.length_map] at card
  have outputs : ∀ p ∈ problems,
      (entriesIn lib (normalizedEntries lib problems infolist) p ".out").length = g := by
    intro p mem
    obtain ⟨same, card⟩ := groups_ok accepted mem
    rw [same] at card
    rwa [stemsIn, List.toFinset_card_of_nodup (nodups p ".out"), List.length_map] at card
  have lengths : ∀ p k, (filesIn lib u p k).length =
      (entriesIn lib (normalizedEntries lib problems infolist) p k).length := by
    intro p k
    rw [(filesIn_perm accepted p k).length_eq, List.length_map]
  refine ⟨?_, ?_, ?_, ?_, ?_, ?_⟩
  · intro p mem
    rw [lengths, inputs p mem]
  · intro p mem
    rw [lengths, outputs p mem]
  · intro p _
    exact (stems p ".in").nodup_iff.mpr (nodups p ".in")
  · intro p mem
    refine (stems p ".in").trans (List.Perm.trans ?_ (stems p ".out").symm)
    exact List.perm_of_nodup_nodup_toFinset_eq (nodups p ".in") (nodups p ".out")
      (groups_ok accepted mem).1
  · intro m mem
    obtain ⟨files, archive, read⟩ := archive_ok accepted.archive
    rw [archive] at mem
    rcases List.mem_append.mp mem with directory | file
    · obtain ⟨d, memD, rfl⟩ := List.mem_map.mp directory
      rw [Finset.mem_sort, directories, List.mem_toFinset] at memD
      obtain ⟨e, memE, rfl⟩ := List.mem_map.mp memD
      exact .inl ⟨rfl, folders e memE⟩
    · right
      obtain ⟨names, regular⟩ := files_names read
      have named : m.name ∈ ((normalizedEntries lib problems infolist).insertionSort ByParts).map
          Entry.path := names ▸ List.mem_map_of_mem file
      obtain ⟨e, memE, name⟩ := List.mem_map.mp named
      rw [List.mem_insertionSort] at memE
      have part := filePart_path (accepted.clean e memE)
      rw [← name, part]
      refine ⟨regular m file, e.folder, folders e memE, kind lib e.filename, ?_, ?_, rfl⟩
      · simpa using kinds e memE
      · refine (filesIn_perm accepted _ _).mem_iff.mpr (List.mem_map.mpr ⟨e, ?_, rfl⟩)
        simp [entriesIn, memE]
  · have each : ∀ p ∈ problems, ((normalizedEntries lib problems infolist).filter
        fun e => e.folder = p).length = g + g := by
      intro p mem
      rw [folder_length kinds p, inputs p mem, outputs p mem]
    rw [accepted.files, entries_length nodup folders each]
    ring

theorem distinct_of_exact {g : Nat} {infolist : List ZipInfo} {u : Upload} (positive : 0 < g)
    (accepted : Accepted lib problems (some g) infolist u)
    (exact_pairs : ExactPairs lib problems g u) :
    problems.Nodup ∧ CaseDistinct lib (normalizedEntries lib problems infolist) := by
  obtain ⟨grouping, gathered, entries, -, -⟩ := accepted.grouped
  have folders := gathered.folders
  have kinds := gathered.kinds
  rw [entries] at folders kinds
  have stems : ∀ p ∈ problems, ∀ k ∈ [".in", ".out"],
      ((entriesIn lib (normalizedEntries lib problems infolist) p k).map
        fun e => foldedStem lib e.filename).Nodup := by
    intro p mem k memK
    have perm := (filesIn_perm accepted p k).map (foldedStem lib)
    rw [List.map_map] at perm
    rw [← Function.comp_def (foldedStem lib), ← perm.nodup_iff]
    simp only [List.mem_cons, List.not_mem_nil, or_false] at memK
    rcases memK with rfl | rfl
    · exact exact_pairs.distinct p mem
    · exact (exact_pairs.paired p mem).nodup_iff.mp (exact_pairs.distinct p mem)
  constructor
  · have each : ∀ p ∈ problems.dedup, ((normalizedEntries lib problems infolist).filter
        fun e => e.folder = p).length = g + g := by
      intro p mem
      rw [List.mem_dedup] at mem
      rw [folder_length kinds p, ← exact_pairs.inputs p mem]
      conv_rhs => arg 2; rw [exact_pairs.inputs p mem, ← exact_pairs.outputs p mem]
      rw [(filesIn_perm accepted p ".in").length_eq, (filesIn_perm accepted p ".out").length_eq,
        List.length_map, List.length_map]
    have count := exact_pairs.count
    rw [accepted.files, entries_length (List.nodup_dedup problems)
      (fun e mem => List.mem_dedup.mpr (folders e mem)) each] at count
    have lengths : problems.dedup.length = problems.length := by
      have double : problems.dedup.length * (g + g) = problems.length * (g + g) := by
        rw [count]
        ring
      exact Nat.eq_of_mul_eq_mul_right (by omega) double
    have same := (List.dedup_sublist problems).eq_of_length lengths
    rw [← same]
    exact List.nodup_dedup problems
  · intro e mem e' mem' folder kinds_eq stem
    have one : e ∈ entriesIn lib (normalizedEntries lib problems infolist) e.folder
        (kind lib e.filename) := by
      simp [entriesIn, mem]
    have two : e' ∈ entriesIn lib (normalizedEntries lib problems infolist) e.folder
        (kind lib e.filename) := by
      simp [entriesIn, mem', folder, kinds_eq]
    have nodup := stems e.folder (folders e mem) (kind lib e.filename) (by simpa using kinds e mem)
    rw [List.inj_on_of_nodup_map nodup one two stem]

theorem upload_exact_pairs (lib : Libraries) (stream : List UInt8) (filename : Option String)
    (limits : Limits) (problems : List String) (g : Nat) (u : Upload)
    (accepted : readTestdataUpload lib stream filename limits problems (some g) = .ok u) :
    ExactPairs lib problems g u ↔
      problems.Nodup ∧
        CaseDistinct lib (normalizedEntries lib problems (zipEntries lib limits stream)) := by
  obtain ⟨range, facts⟩ := upload_ok accepted
  have positive : 0 < g := Nat.lt_of_lt_of_le Nat.two_pos (range g rfl).1
  constructor
  · exact distinct_of_exact positive facts
  · rintro ⟨nodup, distinct⟩
    exact exact_of_distinct facts nodup distinct

/- ASCII names, and a ZIP reader that finds the given entries. -/
def sampleLibraries (infolist : List ZipInfo) : Libraries where
  lower := String.toLower
  casefold := String.toLower
  isDecimal := Char.isDigit
  ignoreCase := fun a b => a.toLower == b.toLower
  repr := fun s => "'" ++ s ++ "'"
  openZip := fun _ => .ok infolist
  gzipTar := fun members => members.flatMap Member.data

def sampleFile (filename : String) : ZipInfo := ⟨filename, 0o100644 * 2 ^ 16, 0, 2, some [49, 10]⟩

/- Enough for a ZIP to be accepted, stage by stage. -/
theorem repack_accepts {g n k : Nat} {name : String} {infolist : List ZipInfo}
    {candidates : List (ZipInfo × List String)} {wrapped : Bool} {entries : List Entry}
    (scans : (infolist.foldlM (scanEntry lib limits) {}).map (fun s => s.candidates.length) = .ok n)
    (regular : regularEntries infolist = candidates) (some_file : candidates ≠ [])
    (wrapper : stripWrapper lib problems candidates = wrapped)
    (groups : (candidates.foldlM (groupEntry lib problems wrapped) {}).map
      (fun g => g.normalized.length) = .ok n)
    (normalized : candidates.map (entryOf lib problems wrapped) = entries)
    (folders : problems.toFinset ⊆ (entries.map Entry.folder).toFinset)
    (stems : ∀ p ∈ problems, stemsIn lib entries p ".in" = stemsIn lib entries p ".out" ∧
      (stemsIn lib entries p ".in").card = g)
    (members : (archiveMembers entries).map List.length = .ok k) :
    ∃ u, repack lib limits problems (some g) name infolist = .ok u ∧ u.files = entries.length := by
  obtain ⟨scan, scanned, -⟩ := Outcome.map_ok.mp scans
  obtain ⟨grouping, grouped, -⟩ := Outcome.map_ok.mp groups
  obtain ⟨archive, packed, -⟩ := Outcome.map_ok.mp members
  obtain ⟨found, -⟩ := scan_ok scanned
  simp only [List.nil_append, regular] at found
  obtain ⟨gathered, same⟩ := group_ok gathered_start grouped
  rw [List.nil_append, normalized] at same
  have present : problems.toFinset \ grouping.present = ∅ := by
    rw [gathered.present, same, Finset.sdiff_eq_empty_iff_subset]
    exact folders
  have checked : problems.forM (checkGroups (some g) grouping) = .ok () := by
    refine Outcome.forM_ok.mpr fun p mem => ?_
    rw [checkGroups_iff gathered, same]
    exact stems p mem
  refine ⟨⟨name, archive, scan.candidates.length, scan.expandedSize⟩, ?_, ?_⟩
  · simp only [repack, scanned, Outcome.ok_bind, found, Outcome.raiseIf_neg some_file, wrapper,
      grouped, present, Outcome.raiseIf_neg (not_not_intro rfl), checked, same, packed]
    rfl
  · simp only [found, ← normalized, List.length_map]

theorem readTestdataUpload_eq {stream : List UInt8} {filename : Option String} {name : String}
    {groups : Option Nat} {infolist : List ZipInfo} (named : uploadName lib filename = .ok name)
    (short : stream.length ≤ limits.maximum) (registered : problems ≠ [])
    (range : ∀ g ∈ groups, 2 ≤ g ∧ g ≤ 4)
    (opened : lib.openZip (stream.take (limits.maximum + 1)) = .ok infolist) :
    readTestdataUpload lib stream filename limits problems groups =
      repack lib limits problems groups name infolist := by
  have whole : ¬ limits.maximum < (stream.take (limits.maximum + 1)).length := by
    rw [List.length_take]
    omega
  have inside : ¬ ∃ g ∈ groups, ¬ (2 ≤ g ∧ g ≤ 4) := by
    rintro ⟨g, mem, outside⟩
    exact outside (range g mem)
  simp only [readTestdataUpload, named, Outcome.ok_bind, Outcome.raiseIf_neg whole,
    Outcome.raiseIf_neg registered, Outcome.raiseIf_neg inside, openArchive, opened,
    Except.mapError]

def sampleUpload (filenames : List String) : Except Failure Upload :=
  readTestdataUpload (sampleLibraries (filenames.map sampleFile)) [80, 75] (some "data.zip")
    ⟨1024, 1024, 20⟩ ["apple"] (some 2)

theorem sampleUpload_eq (filenames : List String) : sampleUpload filenames =
    repack (sampleLibraries (filenames.map sampleFile)) ⟨1024, 1024, 20⟩ ["apple"] (some 2)
      "data.zip" (filenames.map sampleFile) := by
  have named : uploadName (sampleLibraries []) (some "data.zip") = .ok "data.zip" := by
    decide +kernel
  exact readTestdataUpload_eq named (by decide) (by decide) (by simp) rfl

def sampleEntry (filename : String) : Entry :=
  ⟨sampleFile ("apple/" ++ filename), "apple", filename⟩

/- The repository's own shape of a ZIP without a wrapper. -/
theorem sampleUpload_accepts {filenames : List String} {n k : Nat}
    (scans : (((filenames.map ("apple/" ++ ·)).map sampleFile).foldlM
      (scanEntry (sampleLibraries []) ⟨1024, 1024, 20⟩) {}).map (fun s => s.candidates.length) =
        .ok n)
    (regular : regularEntries ((filenames.map ("apple/" ++ ·)).map sampleFile) =
      (filenames.map sampleEntry).map fun e => (e.info, [e.folder, e.filename]))
    (some_file : filenames ≠ [])
    (wrapper : stripWrapper (sampleLibraries []) ["apple"]
      ((filenames.map sampleEntry).map fun e => (e.info, [e.folder, e.filename])) = false)
    (groups : (((filenames.map sampleEntry).map fun e => (e.info, [e.folder, e.filename])).foldlM
      (groupEntry (sampleLibraries []) ["apple"] false) {}).map (fun g => g.normalized.length) =
        .ok n)
    (stems : stemsIn (sampleLibraries []) (filenames.map sampleEntry) "apple" ".in" =
        stemsIn (sampleLibraries []) (filenames.map sampleEntry) "apple" ".out" ∧
      (stemsIn (sampleLibraries []) (filenames.map sampleEntry) "apple" ".in").card = 2)
    (members : (archiveMembers (filenames.map sampleEntry)).map List.length = .ok k) :
    ∃ u, sampleUpload (filenames.map ("apple/" ++ ·)) = .ok u ∧ u.files = filenames.length := by
  rw [sampleUpload_eq]
  have normalized : ((filenames.map sampleEntry).map fun e => (e.info, [e.folder, e.filename])).map
      (entryOf (sampleLibraries []) ["apple"] false) = filenames.map sampleEntry := by
    rw [List.map_map, List.map_map]
    rfl
  have folders : ["apple"].toFinset ⊆ ((filenames.map sampleEntry).map Entry.folder).toFinset := by
    obtain ⟨first, rest, rfl⟩ := List.exists_cons_of_ne_nil some_file
    simp [sampleEntry]
  obtain ⟨u, packed, files⟩ := repack_accepts scans regular (by simpa using some_file) wrapper
    groups normalized folders (by simpa using stems) members
  exact ⟨u, packed, by rw [files, List.length_map]⟩

theorem case_variant_is_extra : ∃ u,
    sampleUpload (["1.in", "1.IN", "1.out", "2.in", "2.out"].map ("apple/" ++ ·)) = .ok u ∧
    ¬ ExactPairs (sampleLibraries []) ["apple"] 2 u := by
  obtain ⟨u, accepted, files⟩ := @sampleUpload_accepts
    ["1.in", "1.IN", "1.out", "2.in", "2.out"] 5 6 (by decide +kernel) (by decide +kernel)
    (by simp) (by decide +kernel) (by decide +kernel) (by decide +kernel) (by decide +kernel)
  refine ⟨u, accepted, fun exact_pairs => ?_⟩
  have count := exact_pairs.count
  rw [files] at count
  exact absurd count (by decide)

theorem sample_entries {filenames : List String}
    (regular : regularEntries ((filenames.map ("apple/" ++ ·)).map sampleFile) =
      (filenames.map sampleEntry).map fun e => (e.info, [e.folder, e.filename]))
    (wrapper : stripWrapper (sampleLibraries []) ["apple"]
      ((filenames.map sampleEntry).map fun e => (e.info, [e.folder, e.filename])) = false) :
    normalizedEntries (sampleLibraries []) ["apple"]
      ((filenames.map ("apple/" ++ ·)).map sampleFile) = filenames.map sampleEntry := by
  rw [normalizedEntries, regular, wrapper, List.map_map, List.map_map]
  rfl

theorem sample_pairs : ∃ u,
    sampleUpload (["1.in", "1.out", "2.in", "2.out"].map ("apple/" ++ ·)) = .ok u ∧
    ExactPairs (sampleLibraries
      ((["1.in", "1.out", "2.in", "2.out"].map ("apple/" ++ ·)).map sampleFile)) ["apple"] 2 u := by
  have regular : regularEntries
      ((["1.in", "1.out", "2.in", "2.out"].map ("apple/" ++ ·)).map sampleFile) =
      (["1.in", "1.out", "2.in", "2.out"].map sampleEntry).map
        fun e => (e.info, [e.folder, e.filename]) := by decide +kernel
  have wrapper : stripWrapper (sampleLibraries []) ["apple"]
      ((["1.in", "1.out", "2.in", "2.out"].map sampleEntry).map
        fun e => (e.info, [e.folder, e.filename])) = false := by decide +kernel
  obtain ⟨u, accepted, -⟩ := @sampleUpload_accepts ["1.in", "1.out", "2.in", "2.out"] 4 5
    (by decide +kernel) regular (by simp) wrapper (by decide +kernel) (by decide +kernel)
    (by decide +kernel)
  refine ⟨u, accepted, (upload_exact_pairs _ _ _ _ _ _ u accepted).mpr ⟨List.nodup_singleton _, ?_⟩⟩
  have entries := sample_entries regular wrapper
  have distinct : CaseDistinct (sampleLibraries [])
      (["1.in", "1.out", "2.in", "2.out"].map sampleEntry) := by
    unfold CaseDistinct
    decide +kernel
  rw [← entries] at distinct
  exact distinct

end NoiContest.TestdataUpload
