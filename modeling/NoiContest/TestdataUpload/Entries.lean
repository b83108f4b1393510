import NoiContest.TestdataUpload.Upload

/- What an accepted upload keeps of the ZIP: its regular entries under their normalized
   paths. -/
namespace NoiContest.TestdataUpload
variable {lib : Libraries} {limits : Limits} {problems : List String}

/- The entry is a file that the upload does not ignore. -/
def Kept (info : ZipInfo) : Prop :=
  let parts := pathParts (forwardSlashes info.filename)
  parts ≠ [] ∧ parts.head? ≠ some "__MACOSX" ∧ parts.getLast? ≠ some ".DS_Store" ∧
    isDir info = false

instance (info : ZipInfo) : Decidable (Kept info) := inferInstanceAs (Decidable (_ ∧ _ ∧ _ ∧ _))

def regularEntries (infolist : List ZipInfo) : List (ZipInfo × List String) :=
  (infolist.filter fun info => Kept info).map fun info =>
    (info, pathParts (forwardSlashes info.filename))

def entryOf (lib : Libraries) (problems : List String) (wrapped : Bool)
    (candidate : ZipInfo × List String) : Entry :=
  let parts := targetParts lib problems wrapped candidate.2
  ⟨candidate.1, parts.headD "", (parts.getLast?).getD ""⟩

/-- The regular entries of a ZIP under their normalized paths. -/
def normalizedEntries (lib : Libraries) (problems : List String) (infolist : List ZipInfo) :
    List Entry :=
  (regularEntries infolist).map
    (entryOf lib problems (stripWrapper lib problems (regularEntries infolist)))

def kind (lib : Libraries) (filename : String) : String := lib.lower (suffix filename)

def foldedStem (lib : Libraries) (filename : String) : String := lib.casefold (stem filename)

/- The scan -/

def Scan.after (s : Scan) (info : ZipInfo) : Scan :=
  if Kept info then {
    candidates := s.candidates ++ [(info, pathParts (forwardSlashes info.filename))]
    expandedSize := s.expandedSize + info.fileSize }
  else s

theorem scanEntry_ok {s s' : Scan} {info : ZipInfo}
    (scanned : scanEntry lib limits s info = .ok s') : s' = s.after info := by
  simp only [scanEntry] at scanned
  obtain ⟨-, -, scanned⟩ := Outcome.bind_ok.mp scanned
  obtain ⟨-, -, scanned⟩ := Outcome.bind_ok.mp scanned
  split at scanned
  · rename_i ignored
    have other : ¬ Kept info := by
      rintro ⟨some, noMac, noStore, -⟩
      rcases ignored with empty | mac | store
      · exact some empty
      · exact noMac mac
      · exact noStore store
    rw [Outcome.pure_eq_ok] at scanned
    rw [Scan.after, if_neg other, scanned]
  · rename_i counts
    simp only [not_or] at counts
    obtain ⟨-, -, scanned⟩ := Outcome.bind_ok.mp scanned
    obtain ⟨-, -, scanned⟩ := Outcome.bind_ok.mp scanned
    split at scanned
    · rename_i directory
      have other : ¬ Kept info := by
        rintro ⟨-, -, -, file⟩
        rw [directory] at file
        cases file
      rw [Outcome.pure_eq_ok] at scanned
      rw [Scan.after, if_neg other, scanned]
    · rename_i file
      obtain ⟨-, -, scanned⟩ := Outcome.bind_ok.mp scanned
      obtain ⟨-, -, scanned⟩ := Outcome.bind_ok.mp scanned
      obtain ⟨-, -, scanned⟩ := Outcome.bind_ok.mp scanned
      have kept : Kept info := ⟨counts.1, counts.2.1, counts.2.2, by simpa using file⟩
      rw [Outcome.pure_eq_ok] at scanned
      rw [Scan.after, if_pos kept, ← scanned]

theorem scan_ok {infolist : List ZipInfo} {s s' : Scan}
    (scanned : infolist.foldlM (scanEntry lib limits) s = .ok s') :
    s'.candidates = s.candidates ++ regularEntries infolist ∧
      s'.expandedSize = s.expandedSize +
        ((regularEntries infolist).map fun candidate => candidate.1.fileSize).sum := by
  induction infolist generalizing s with
  | nil =>
    rw [List.foldlM_nil, Outcome.pure_eq_ok] at scanned
    subst scanned
    simp [regularEntries]
  | cons info rest ih =>
    rw [List.foldlM_cons] at scanned
    obtain ⟨next, first, others⟩ := Outcome.bind_ok.mp scanned
    obtain ⟨candidates, size⟩ := ih others
    rw [candidates, size, scanEntry_ok first]
    by_cases kept : Kept info
    · simp [Scan.after, kept, regularEntries, Nat.add_assoc]
    · simp [Scan.after, kept, regularEntries]

/- The grouping -/

/- What the second loop has gathered, in terms of its entries. -/
structure Gathered (lib : Libraries) (problems : List String) (g : Grouping) : Prop where
  seen : g.seen = (g.normalized.map Entry.path).toFinset
  distinct : (g.normalized.map Entry.path).Nodup
  present : g.present = (g.normalized.map Entry.folder).toFinset
  inputs : ∀ p, g.inputGroups p = ((g.normalized.filter fun e =>
    e.folder = p ∧ kind lib e.filename = ".in").map fun e => foldedStem lib e.filename).toFinset
  outputs : ∀ p, g.outputGroups p = ((g.normalized.filter fun e =>
    e.folder = p ∧ kind lib e.filename ≠ ".in").map fun e => foldedStem lib e.filename).toFinset
  folders : ∀ e ∈ g.normalized, e.folder ∈ problems
  kinds : ∀ e ∈ g.normalized, kind lib e.filename = ".in" ∨ kind lib e.filename = ".out"

theorem gathered_start : Gathered lib problems {} where
  seen := rfl
  distinct := List.nodup_nil
  present := rfl
  inputs := fun _ => rfl
  outputs := fun _ => rfl
  folders := nofun
  kinds := nofun

theorem groupEntry_ok {wrapped : Bool} {g g' : Grouping} {candidate : ZipInfo × List String}
    (grouped : groupEntry lib problems wrapped g candidate = .ok g') :
    let e := entryOf lib problems wrapped candidate
    targetParts lib problems wrapped candidate.2 = [e.folder, e.filename] ∧
    e.folder ∈ problems ∧ (kind lib e.filename = ".in" ∨ kind lib e.filename = ".out") ∧
    e.path ∉ g.seen ∧
    g' = {
      normalized := g.normalized ++ [e]
      seen := insert e.path g.seen
      present := insert e.folder g.present
      inputGroups := if kind lib e.filename = ".in" then
        addStem g.inputGroups e.folder (foldedStem lib e.filename) else g.inputGroups
      outputGroups := if kind lib e.filename = ".in" then g.outputGroups else
        addStem g.outputGroups e.folder (foldedStem lib e.filename) } := by
  unfold groupEntry at grouped
  split at grouped
  · rename_i problem filename parts
    have same : entryOf lib problems wrapped candidate = ⟨candidate.1, problem, filename⟩ := by
      simp [entryOf, parts]
    simp only [same]
    obtain ⟨_, member, grouped⟩ := Outcome.bind_ok.mp grouped
    obtain ⟨_, kinds, grouped⟩ := Outcome.bind_ok.mp grouped
    obtain ⟨_, fresh, grouped⟩ := Outcome.bind_ok.mp grouped
    rw [Outcome.raiseIf_ok, not_not] at member
    rw [Outcome.raiseIf_ok, not_or, not_and_or, not_not, not_not] at kinds
    rw [Outcome.raiseIf_ok] at fresh
    rw [Outcome.pure_eq_ok] at grouped
    exact ⟨parts, member, kinds.1, fresh, grouped.symm⟩
  · cases grouped

theorem gathered_step {wrapped : Bool} {g g' : Grouping} {candidate : ZipInfo × List String}
    (gathered : Gathered lib problems g)
    (grouped : groupEntry lib problems wrapped g candidate = .ok g') :
    Gathered lib problems g' := by
  obtain ⟨-, member, kinds, fresh, rfl⟩ := groupEntry_ok grouped
  generalize entryOf lib problems wrapped candidate = e at *
  rw [gathered.seen, List.mem_toFinset] at fresh
  refine ⟨?_, ?_, ?_, ?_, ?_, ?_, ?_⟩
  · ext path
    simp [gathered.seen]
  · rw [List.map_append]
    refine gathered.distinct.append (List.nodup_singleton _) ?_
    simpa using fresh
  · ext folder
    simp [gathered.present]
  · intro p
    by_cases input : kind lib e.filename = ".in"
    · by_cases here : e.folder = p
      · ext stem
        simp [input, here, addStem, gathered.inputs]
      · have there : p ≠ e.folder := Ne.symm here
        simp [input, here, there, addStem, gathered.inputs]
    · simp [input, gathered.inputs]
  · intro p
    by_cases input : kind lib e.filename = ".in"
    · simp [input, gathered.outputs]
    · by_cases here : e.folder = p
      · ext stem
        simp [input, here, addStem, gathered.outputs]
      · have there : p ≠ e.folder := Ne.symm here
        simp [input, here, there, addStem, gathered.outputs]
  · intro f mem
    rcases List.mem_append.mp mem with old | new
    · exact gathered.folders f old
    · rw [List.mem_singleton.mp new]
      exact member
  · intro f mem
    rcases List.mem_append.mp mem with old | new
    · exact gathered.kinds f old
    · rw [List.mem_singleton.mp new]
      exact kinds

theorem group_ok {wrapped : Bool} {candidates : List (ZipInfo × List String)} {g g' : Grouping}
    (gathered : Gathered lib problems g)
    (grouped : candidates.foldlM (groupEntry lib problems wrapped) g = .ok g') :
    Gathered lib problems g' ∧
      g'.normalized = g.normalized ++ candidates.map (entryOf lib problems wrapped) := by
  induction candidates generalizing g with
  | nil =>
    rw [List.foldlM_nil, Outcome.pure_eq_ok] at grouped
    subst grouped
    exact ⟨gathered, by simp⟩
  | cons candidate rest ih =>
    rw [List.foldlM_cons] at grouped
    obtain ⟨next, first, others⟩ := Outcome.bind_ok.mp grouped
    obtain ⟨gathered', normalized⟩ := ih (gathered_step gathered first) others
    refine ⟨gathered', ?_⟩
    rw [normalized]
    obtain ⟨-, -, -, -, rfl⟩ := groupEntry_ok first
    simp

theorem group_parts {wrapped : Bool} {candidates : List (ZipInfo × List String)} {g g' : Grouping}
    (grouped : candidates.foldlM (groupEntry lib problems wrapped) g = .ok g') :
    ∀ candidate ∈ candidates, targetParts lib problems wrapped candidate.2 =
      [(entryOf lib problems wrapped candidate).folder,
        (entryOf lib problems wrapped candidate).filename] := by
  induction candidates generalizing g with
  | nil => nofun
  | cons candidate rest ih =>
    rw [List.foldlM_cons] at grouped
    obtain ⟨next, first, others⟩ := Outcome.bind_ok.mp grouped
    exact List.forall_mem_cons.mpr ⟨(groupEntry_ok first).1, ih others⟩

theorem pathParts_clean {rawPath part : String} (mem : part ∈ pathParts rawPath) :
    '/' ∉ part.toList := by
  obtain ⟨memPart, -⟩ := List.mem_filter.mp mem
  obtain ⟨chars, memChars, rfl⟩ := List.mem_map.mp memPart
  rw [String.toList_ofList]
  intro slash
  have clean := PyText.splitOnP_parts memChars '/' slash
  simp at clean

theorem targetParts_rest {wrapped : Bool} {parts : List String} {folder filename : String}
    (target : targetParts lib problems wrapped parts = [folder, filename]) :
    filename ∈ parts := by
  unfold targetParts at target
  split at target
  · cases target
  · rename_i first rest found
    have last : filename ∈ first :: rest := by
      rw [List.cons.injEq] at target
      rw [target.2]
      simp
    rw [← found] at last
    split at last
    · exact List.mem_of_mem_tail last
    · exact last

/- What an accepted upload has established about the entries of its ZIP. -/
structure Accepted (lib : Libraries) (problems : List String) (groups : Option Nat)
    (infolist : List ZipInfo) (u : Upload) : Prop where
  grouped : ∃ g, Gathered lib problems g ∧ g.normalized = normalizedEntries lib problems infolist ∧
    problems.toFinset ⊆ g.present ∧ ∀ p ∈ problems, checkGroups groups g p = .ok ()
  clean : ∀ e ∈ normalizedEntries lib problems infolist, '/' ∉ e.filename.toList
  archive : archiveMembers (normalizedEntries lib problems infolist) = .ok u.archive
  files : u.files = (normalizedEntries lib problems infolist).length
  size : u.expandedSize =
    ((normalizedEntries lib problems infolist).map fun e => e.info.fileSize).sum

theorem repack_ok {groups : Option Nat} {name : String} {infolist : List ZipInfo} {u : Upload}
    (packed : repack lib limits problems groups name infolist = .ok u) :
    Accepted lib problems groups infolist u := by
  simp only [repack] at packed
  obtain ⟨scan, scanned, packed⟩ := Outcome.bind_ok.mp packed
  obtain ⟨_, _, packed⟩ := Outcome.bind_ok.mp packed
  obtain ⟨g, folded, packed⟩ := Outcome.bind_ok.mp packed
  obtain ⟨_, missing, packed⟩ := Outcome.bind_ok.mp packed
  obtain ⟨_, checked, packed⟩ := Outcome.bind_ok.mp packed
  obtain ⟨archive, members, packed⟩ := Outcome.bind_ok.mp packed
  rw [Outcome.pure_eq_ok] at packed
  obtain ⟨candidates, size⟩ := scan_ok scanned
  simp only [List.nil_append, Nat.zero_add] at candidates size
  rw [candidates] at folded
  obtain ⟨gathered, normalized⟩ := group_ok gathered_start folded
  have parts := group_parts folded
  have entries : g.normalized = normalizedEntries lib problems infolist := normalized
  subst packed
  refine ⟨⟨g, gathered, entries, ?_, Outcome.forM_ok.mp checked⟩, ?_, entries ▸ members, ?_, ?_⟩
  · rw [Outcome.raiseIf_ok, not_not, Finset.sdiff_eq_empty_iff_subset] at missing
    exact missing
  · intro e mem
    obtain ⟨candidate, memCandidate, rfl⟩ := List.mem_map.mp mem
    have filename := targetParts_rest (parts candidate memCandidate)
    obtain ⟨info, -, rfl⟩ := List.mem_map.mp memCandidate
    exact pathParts_clean filename
  · simp [candidates, normalizedEntries]
  · simp only [size, normalizedEntries, List.map_map]
    rfl

/-- The entries of the ZIP in the stream. -/
def zipEntries (lib : Libraries) (limits : Limits) (stream : List UInt8) : List ZipInfo :=
  match lib.openZip (stream.take (limits.maximum + 1)) with
  | .ok infolist => infolist
  | .error _ => []

theorem upload_ok {stream : List UInt8} {filename : Option String} {groups : Option Nat}
    {u : Upload}
    (accepted : readTestdataUpload lib stream filename limits problems groups = .ok u) :
    (∀ g ∈ groups, 2 ≤ g ∧ g ≤ 4) ∧
      Accepted lib problems groups (zipEntries lib limits stream) u := by
  simp only [readTestdataUpload] at accepted
  obtain ⟨name, _, accepted⟩ := Outcome.bind_ok.mp accepted
  obtain ⟨_, _, accepted⟩ := Outcome.bind_ok.mp accepted
  obtain ⟨_, _, accepted⟩ := Outcome.bind_ok.mp accepted
  obtain ⟨_, range, accepted⟩ := Outcome.bind_ok.mp accepted
  obtain ⟨infolist, opened, packed⟩ := Outcome.bind_ok.mp accepted
  refine ⟨?_, ?_⟩
  · rw [Outcome.raiseIf_ok] at range
    intro g mem
    by_contra outside
    exact range ⟨g, mem, outside⟩
  · have found : zipEntries lib limits stream = infolist := by
      rw [openArchive, Outcome.mapError_ok] at opened
      rw [zipEntries, opened]
    rw [found]
    exact repack_ok packed

end NoiContest.TestdataUpload
