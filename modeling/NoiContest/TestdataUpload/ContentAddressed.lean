import Mathlib.Algebra.BigOperators.Group.List.Basic
import NoiContest.TestdataUpload.Pairs

/- The packed archive depends on the content of the ZIP only. -/
namespace NoiContest.TestdataUpload
variable {lib : Libraries} {limits : Limits} {problems : List String}

/- The ZIP has these bytes under this normalized path. -/
def Holds (lib : Libraries) (problems : List String) (infolist : List ZipInfo)
    (folder filename : String) (bytes : List UInt8) : Prop :=
  ∃ e ∈ normalizedEntries lib problems infolist,
    e.folder = folder ∧ e.filename = filename ∧ e.info.content = some bytes

/- An entry without what the ZIP says beyond its path and bytes. -/
structure Content where
  folder : String
  filename : String
  bytes : List UInt8
  deriving DecidableEq, Repr

def Entry.item (e : Entry) : Content := ⟨e.folder, e.filename, (e.info.content).getD []⟩

def Content.member (c : Content) : Member :=
  ⟨c.folder ++ "/" ++ c.filename, false, 0o444, c.bytes⟩

theorem fileMember_item {e : Entry} {m : Member} (packed : fileMember e = .ok m) :
    m = e.item.member ∧ e.info.content = some e.item.bytes ∧
      e.info.fileSize = e.item.bytes.length := by
  obtain ⟨-, -, content, same⟩ := fileMember_ok packed
  have bytes : e.item.bytes = m.data := by simp [Entry.item, content]
  refine ⟨?_, by rw [content, bytes], ?_⟩
  · rw [same]
    simp [Content.member, Entry.item, Entry.path, content]
  · unfold fileMember at packed
    rw [content] at packed
    obtain ⟨_, length, packed⟩ := Outcome.bind_ok.mp packed
    rw [Outcome.raiseIf_ok, not_not] at length
    rw [Outcome.pure_eq_ok] at packed
    rw [bytes, ← packed]
    exact length.symm

theorem members_items {entries : List Entry} {files : List Member}
    (read : List.Forall₂ (fun e m => fileMember e = .ok m) entries files) :
    files = entries.map (fun e => e.item.member) ∧
      ∀ e ∈ entries, e.info.content = some e.item.bytes ∧
        e.info.fileSize = e.item.bytes.length := by
  induction read with
  | nil => exact ⟨rfl, nofun⟩
  | cons first _ ih =>
    obtain ⟨same, facts⟩ := fileMember_item first
    exact ⟨by rw [List.map_cons, same, ih.1], List.forall_mem_cons.mpr ⟨facts, ih.2⟩⟩

/- What an accepted upload says about the items of its ZIP. -/
theorem accepted_items {groups : Option Nat} {infolist : List ZipInfo} {u : Upload}
    (accepted : Accepted lib problems groups infolist u) :
    (∀ e ∈ normalizedEntries lib problems infolist, e.info.content = some e.item.bytes ∧
      e.info.fileSize = e.item.bytes.length) ∧
    u.archive = ((directories (normalizedEntries lib problems infolist)).sort (· ≤ ·)).map
        directoryMember ++
      ((normalizedEntries lib problems infolist).insertionSort ByParts).map
        fun e => e.item.member := by
  obtain ⟨files, archive, read⟩ := archive_ok accepted.archive
  obtain ⟨members, facts⟩ := members_items read
  exact ⟨fun e mem => facts e ((List.mem_insertionSort ByParts).mpr mem), by rw [archive, members]⟩

theorem items_nodup {groups : Option Nat} {infolist : List ZipInfo} {u : Upload}
    (accepted : Accepted lib problems groups infolist u) :
    ((normalizedEntries lib problems infolist).map Entry.item).Nodup := by
  obtain ⟨g, gathered, entries, -, -⟩ := accepted.grouped
  have paths := gathered.distinct
  rw [entries] at paths
  refine List.Nodup.of_map (fun c : Content => c.folder ++ "/" ++ c.filename) ?_
  rwa [List.map_map]

theorem mem_items {infolist : List ZipInfo} (c : Content)
    (read : ∀ e ∈ normalizedEntries lib problems infolist, e.info.content = some e.item.bytes) :
    c ∈ (normalizedEntries lib problems infolist).map Entry.item ↔
      Holds lib problems infolist c.folder c.filename c.bytes := by
  constructor
  · intro mem
    obtain ⟨e, memE, rfl⟩ := List.mem_map.mp mem
    exact ⟨e, memE, rfl, rfl, read e memE⟩
  · rintro ⟨e, memE, folder, filename, content⟩
    refine List.mem_map.mpr ⟨e, memE, ?_⟩
    simp [Entry.item, folder, filename, content]

/- Sorting by the path gives one list for one content. -/
theorem sorted_items {entries entries' : List Entry}
    (distinct : (entries.map Entry.path).Nodup)
    (same : (entries.map Entry.item).Perm (entries'.map Entry.item)) :
    (entries.insertionSort ByParts).map Entry.item =
      (entries'.insertionSort ByParts).map Entry.item := by
  let before (c c' : Content) : Prop :=
    toLex (c.folder, c.filename) ≤ toLex (c'.folder, c'.filename)
  have total : Std.Total ByParts := ⟨fun a b =>
    le_total (toLex (a.folder, a.filename)) (toLex (b.folder, b.filename))⟩
  have transitive : IsTrans Entry ByParts := ⟨fun a b c ab bc => le_trans ab bc⟩
  have ordered : ∀ l : List Entry, ((l.insertionSort ByParts).map Entry.item).Pairwise before :=
    fun l => List.pairwise_map.mpr (List.pairwise_insertionSort ByParts l)
  have perms : ((entries.insertionSort ByParts).map Entry.item).Perm
      ((entries'.insertionSort ByParts).map Entry.item) :=
    ((List.perm_insertionSort ByParts entries).map _).trans
      (same.trans ((List.perm_insertionSort ByParts entries').map _).symm)
  refine perms.eq_of_pairwise ?_ (ordered entries) (ordered entries')
  intro a b memA memB ab ba
  have key := le_antisymm ab ba
  have names : a.folder = b.folder ∧ a.filename = b.filename := by simpa using key
  have memB' := perms.symm.subset memB
  obtain ⟨e, memE, rfl⟩ := List.mem_map.mp memA
  obtain ⟨e', memE', rfl⟩ := List.mem_map.mp memB'
  rw [List.mem_insertionSort] at memE memE'
  have path : e.path = e'.path := by
    rw [Entry.path, Entry.path, show e.folder = e'.folder from names.1,
      show e.filename = e'.filename from names.2]
  rw [List.inj_on_of_nodup_map distinct memE memE' path]

theorem upload_content_addressed (lib : Libraries) (problems : List String)
    (stream stream' : List UInt8) (filename filename' : Option String) (limits limits' : Limits)
    (groups groups' : Option Nat) (u u' : Upload)
    (accepted : readTestdataUpload lib stream filename limits problems groups = .ok u)
    (accepted' : readTestdataUpload lib stream' filename' limits' problems groups' = .ok u')
    (same : ∀ folder filename bytes,
      Holds lib problems (zipEntries lib limits stream) folder filename bytes ↔
        Holds lib problems (zipEntries lib limits' stream') folder filename bytes) :
    u.payload lib = u'.payload lib ∧ u.digest lib = u'.digest lib ∧ u.files = u'.files ∧
      u.expandedSize = u'.expandedSize := by
  obtain ⟨-, facts⟩ := upload_ok accepted
  obtain ⟨-, facts'⟩ := upload_ok accepted'
  obtain ⟨read, archive⟩ := accepted_items facts
  obtain ⟨read', archive'⟩ := accepted_items facts'
  have items : ((normalizedEntries lib problems (zipEntries lib limits stream)).map
      Entry.item).Perm ((normalizedEntries lib problems (zipEntries lib limits' stream')).map
        Entry.item) := by
    refine (List.perm_ext_iff_of_nodup (items_nodup facts) (items_nodup facts')).mpr fun c => ?_
    rw [mem_items c fun e mem => (read e mem).1, mem_items c fun e mem => (read' e mem).1]
    exact same c.folder c.filename c.bytes
  have folders : directories (normalizedEntries lib problems (zipEntries lib limits stream)) =
      directories (normalizedEntries lib problems (zipEntries lib limits' stream')) := by
    have perm := items.map Content.folder
    rw [List.map_map, List.map_map] at perm
    exact List.toFinset_eq_of_perm _ _ perm
  have files := sorted_items (by
    obtain ⟨g, gathered, entries, -, -⟩ := facts.grouped
    exact entries ▸ gathered.distinct) items
  have archives : u.archive = u'.archive := by
    have members := congrArg (List.map Content.member) files
    rw [List.map_map, List.map_map] at members
    rw [archive, archive', folders]
    exact congrArg _ members
  have sizes : ∀ {infolist : List ZipInfo},
      (∀ e ∈ normalizedEntries lib problems infolist, e.info.content = some e.item.bytes ∧
        e.info.fileSize = e.item.bytes.length) →
      (normalizedEntries lib problems infolist).map (fun e => e.info.fileSize) =
        ((normalizedEntries lib problems infolist).map Entry.item).map fun c => c.bytes.length := by
    intro infolist read
    rw [List.map_map]
    exact List.map_congr_left fun e mem => (read e mem).2
  refine ⟨by rw [Upload.payload, Upload.payload, archives], ?_, ?_, ?_⟩
  · rw [Upload.digest, Upload.digest, Upload.payload, Upload.payload, archives]
  · have lengths := items.length_eq
    rwa [List.length_map, List.length_map, ← facts.files, ← facts'.files] at lengths
  · rw [facts.size, facts'.size, sizes read, sizes read']
    exact (items.map _).sum_eq

/- One content in two ZIPs: at the root, and in another order inside a wrapper. -/
def plainZip : List ZipInfo :=
  ["apple/1.in", "apple/1.out", "apple/2.in", "apple/2.out"].map sampleFile

def wrappedZip : List ZipInfo :=
  ["data/", "data/T1_Apple/2.out", "data/T1_Apple/1.in", "__MACOSX/a", "data/T1_Apple/1.out",
    "data/T1_Apple/2.in"].map sampleFile

def twoZips : Libraries :=
  { sampleLibraries [] with
    openZip := fun payload => .ok (if payload.length = 2 then plainZip else wrappedZip) }

def twoUpload (stream : List UInt8) : Except Failure Upload :=
  readTestdataUpload twoZips stream (some "data.zip") ⟨1024, 1024, 20⟩ ["apple"] (some 2)

def plainEntries : List Entry :=
  ["1.in", "1.out", "2.in", "2.out"].map sampleEntry

def wrappedEntries : List Entry := ["2.out", "1.in", "1.out", "2.in"].map fun filename =>
  ⟨sampleFile ("data/T1_Apple/" ++ filename), "apple", filename⟩

theorem plain_normalized : regularEntries plainZip =
      plainEntries.map (fun e => (e.info, ["apple", e.filename])) ∧
    stripWrapper twoZips ["apple"] (plainEntries.map fun e => (e.info, ["apple", e.filename])) =
      false ∧
    (plainEntries.map fun e => (e.info, ["apple", e.filename])).map
      (entryOf twoZips ["apple"] false) = plainEntries := by
  refine ⟨?_, ?_, ?_⟩ <;> decide +kernel

theorem wrapped_normalized : regularEntries wrappedZip =
      wrappedEntries.map (fun e => (e.info, ["data", "T1_Apple", e.filename])) ∧
    stripWrapper twoZips ["apple"]
      (wrappedEntries.map fun e => (e.info, ["data", "T1_Apple", e.filename])) = true ∧
    (wrappedEntries.map fun e => (e.info, ["data", "T1_Apple", e.filename])).map
      (entryOf twoZips ["apple"] true) = wrappedEntries := by
  refine ⟨?_, ?_, ?_⟩ <;> decide +kernel

theorem plain_accepted : ∃ u, twoUpload [80, 75] = .ok u := by
  have named : uploadName twoZips (some "data.zip") = .ok "data.zip" := by decide +kernel
  obtain ⟨regular, wrapper, normalized⟩ := plain_normalized
  obtain ⟨u, packed, -⟩ := @repack_accepts twoZips ⟨1024, 1024, 20⟩ ["apple"] 2 4 5 "data.zip"
    plainZip _ false plainEntries (by decide +kernel) regular (by simp [plainEntries]) wrapper
    (by decide +kernel) normalized (by decide +kernel) (by decide +kernel) (by decide +kernel)
  exact ⟨u, (readTestdataUpload_eq named (by decide) (by decide) (by simp) rfl).trans packed⟩

theorem wrapped_accepted : ∃ u, twoUpload [80, 75, 3] = .ok u := by
  have named : uploadName twoZips (some "data.zip") = .ok "data.zip" := by decide +kernel
  obtain ⟨regular, wrapper, normalized⟩ := wrapped_normalized
  obtain ⟨u, packed, -⟩ := @repack_accepts twoZips ⟨1024, 1024, 20⟩ ["apple"] 2 4 5 "data.zip"
    wrappedZip _ true wrappedEntries (by decide +kernel) regular (by simp [wrappedEntries]) wrapper
    (by decide +kernel) normalized (by decide +kernel) (by decide +kernel) (by decide +kernel)
  exact ⟨u, (readTestdataUpload_eq named (by decide) (by decide) (by simp) rfl).trans packed⟩

theorem same_content (folder filename : String) (bytes : List UInt8) :
    Holds twoZips ["apple"] plainZip folder filename bytes ↔
      Holds twoZips ["apple"] wrappedZip folder filename bytes := by
  obtain ⟨regular, wrapper, normalized⟩ := plain_normalized
  obtain ⟨regular', wrapper', normalized'⟩ := wrapped_normalized
  have plain : normalizedEntries twoZips ["apple"] plainZip = plainEntries := by
    rw [normalizedEntries, regular, wrapper, normalized]
  have wrapped : normalizedEntries twoZips ["apple"] wrappedZip = wrappedEntries := by
    rw [normalizedEntries, regular', wrapper', normalized']
  simp only [Holds, plain, wrapped, plainEntries, wrappedEntries, sampleEntry, sampleFile,
    List.map_cons, List.map_nil, List.mem_cons, List.not_mem_nil, or_false, exists_eq_or_imp,
    exists_eq_left]
  constructor
  · rintro (first | second | third | fourth)
    exacts [.inr (.inl first), .inr (.inr (.inl second)), .inr (.inr (.inr third)), .inl fourth]
  · rintro (fourth | first | second | third)
    exacts [.inr (.inr (.inr fourth)), .inl first, .inr (.inl second), .inr (.inr (.inl third))]

theorem wrapped_zip_agrees : ∃ u u', twoUpload [80, 75] = .ok u ∧ twoUpload [80, 75, 3] = .ok u' ∧
    u.payload twoZips = u'.payload twoZips ∧ u.digest twoZips = u'.digest twoZips ∧
    u.files = u'.files ∧ u.expandedSize = u'.expandedSize := by
  obtain ⟨u, accepted⟩ := plain_accepted
  obtain ⟨u', accepted'⟩ := wrapped_accepted
  exact ⟨u, u', accepted, accepted',
    upload_content_addressed _ _ _ _ _ _ _ _ _ _ u u' accepted accepted' same_content⟩

end NoiContest.TestdataUpload
