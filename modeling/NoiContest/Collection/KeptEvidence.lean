import NoiContest.Collection.Evidence
import NoiContest.Collection.ReceiptLaws

/- What collect commits, finish_safe_wait accepts: the evidence of any run verifies on a host that
   keeps what the run wrote. -/
namespace NoiContest.Collection
open Pipeline JsonText Flow FilePath FileSystem

/- The host keeps the documents that were written below the directory until then, and the files
   that the manifest was taken of. -/
structure Keeps (c : Codec) (h : Host) (t : Log) (text : String) (directory : Path) : Prop where
  documents : ∀ file payload digest,
    Did t (.writeDurableJson (text ++ "/" ++ file) payload) digest →
      digest = c.digest (c.encode payload) ∧
        h.plainFile (directory ++ [file]) = some (c.encode payload)
  manifest : ∀ listing, Did t (.archiveTreeManifest text) listing →
    ∃ entries, archiveTreeManifest c h.files directory = .ok entries ∧
      listing = manifestJson entries

/- The row of the contest after the commit of the safe wait. -/
structure Records (row : Contest) (tid : String) (evidence : SafeWait) : Prop where
  tid : row.tid = tid
  runId : row.collectionRunId = evidence.runId
  receiptSha256 : row.collectionReceiptSha256 = evidence.receiptSha256

variable {c : Codec} {h : Host} {cfg : Config} {tid : String} {claimed : Bool} {front back : Log}

theorem Written.digests {t : Log} {text : String} {directory : Path}
    (keeps : Keeps c h t text directory) {documents : List (String × Json)}
    {digests : List (String × String)} (written : Written t text documents digests) :
    digests = documents.map fun file => (file.1, c.digest (c.encode file.2)) := by
  induction written with
  | nil => rfl
  | cons head _ ih =>
    rw [List.map_cons, ← ih]
    exact congrArg (· :: _) (Prod.ext head.1.symm (keeps.documents _ _ _ head.2).1)

theorem Written.kept {t : Log} {text : String} {directory : Path}
    (keeps : Keeps c h t text directory) {documents : List (String × Json)}
    {digests : List (String × String)} (written : Written t text documents digests) :
    ∀ file ∈ documents, h.plainFile (directory ++ [file.1]) = some (c.encode file.2) := by
  induction written with
  | nil => exact List.forall_mem_nil _
  | cons head _ ih =>
    exact List.forall_mem_cons.mpr ⟨(keeps.documents _ _ _ head.2).2, ih⟩

theorem kept_of_run {evidence : SafeWait} {answer : Except Raised Bool} {row : Contest}
    {directory : Path}
    (run : CollectTrace cfg tid claimed (front ++ ⟨.enterSafeWait evidence, answer⟩ :: back))
    (records : Records row tid evidence) (located : h.evidenceDirectory row = .ok directory)
    (keeps : Keeps c h front evidence.collectionDir directory) :
    ∃ receipt answers log entries, Kept c h row directory receipt answers log entries ∧
      receipt.completedAtMs = evidence.completedAtMs ∧
      receipt.shutdownAfterMs = evidence.shutdownAfterMs := by
  obtain ⟨contest, seats, answers, prefinalized, log, manifest, receipt, pooled, _, _, _, listing,
    seals⟩ := run.grounded
  obtain ⟨entries, current, rfl⟩ := keeps.manifest _ listing
  have stored := keeps.documents _ _ _ seals.written
  refine ⟨receipt, answers, log, entries, ?_, seals.completed, seals.shutdown⟩
  exact
    { located := located
      manifest := current
      documents := seals.named.kept keeps
      named := seals.named.digests keeps
      stored := stored.2
      recorded := records.receiptSha256.trans stored.1
      ofContest := seals.ofContest.trans records.tid.symm
      ofRun := seals.run.trans records.runId.symm }

def sampleEncode (value : Json) : Bytes := (dumps value).toUTF8.data.toList

def sampleDecode (bytes : Bytes) : Option Json := (String.fromUTF8? ⟨bytes.toArray⟩).bind loads

theorem sample_reads (value : Json) :
    sampleDecode (sampleEncode value) = some (canonical value) := by
  have whole : (⟨(sampleEncode value).toArray⟩ : ByteArray) = (dumps value).toUTF8 := by
    rw [sampleEncode, Array.toArray_toList]
  have valid : (dumps value).toUTF8.IsValidUTF8 := (dumps value).isValidUTF8
  rw [sampleDecode, whole, String.fromUTF8?, dif_pos valid]
  exact loads_dumps value

/-- A checksum in the place of the digest. -/
def checksum (bytes : Bytes) : String :=
  toString (bytes.foldl (fun sum byte => (sum * 31 + byte.toNat) % 1000003) 7)

def sampleCodec : Codec where
  encode := sampleEncode
  decode := sampleDecode
  reads := sample_reads
  digest := checksum
  intOfText := fun _ => none
  reprOf := fun _ => ""

def diskConfig : Config := { sampleConfig with collectedDir := "/c" }

def diskText : String := "/c/t/r"

def diskDirectory : Path := ["c", "t", "r"]

def answerFile : Path × Node Bytes :=
  (diskDirectory ++ ["BJ-01", "add", "add.cpp"], .file "int main() { return 0; }".toUTF8.data.toList)

def emptyDisk : Files := [(["c"], .directory), (["c", "t"], .directory)]

def diskRespond (c : Call) (_ : Unit) (disk : Files) : Except Raised (Answer c) × Files :=
  match c with
  | .newRunId => (.ok "r", disk)
  | .makeOutDir _ => (.ok (), disk ++ [(diskDirectory, .directory)])
  | .extract _ => (.ok (), disk ++ [(diskDirectory ++ ["BJ-01"], .directory),
      (diskDirectory ++ ["BJ-01", "add"], .directory), answerFile])
  | .writeDurableJson path payload =>
    (.ok (checksum (sampleEncode payload)), disk ++ [(pathParts path, .file (sampleEncode payload))])
  | .archiveTreeManifest _ =>
    ((archiveTreeManifest sampleCodec disk diskDirectory).map manifestJson, disk)
  | c => (sampleAnswer c, disk)

def diskProgram : Procedure (Dict String UserAnswers) := collect diskConfig "t" false

def diskHost : Host where
  cwd := []
  files := (diskProgram.exec diskRespond (fun _ => ()) emptyDisk).2
  collectedDir := "/c"

/-- The same answers without the disk. -/
def keptAnswer : (c : Call) → Except Raised (Answer c)
  | .newRunId => .ok "r"
  | .writeDurableJson _ payload => .ok (checksum (sampleEncode payload))
  | .archiveTreeManifest _ =>
    (archiveTreeManifest sampleCodec diskHost.files diskDirectory).map manifestJson
  | c => sampleAnswer c

def keptRespond (c : Call) (_ : Unit) (s : Unit) : Except Raised (Answer c) × Unit :=
  (keptAnswer c, s)

def keptTrace : Log := recorded keptRespond diskProgram (fun _ => ()) ()

theorem kept_run : CollectTrace diskConfig "t" false keptTrace :=
  ⟨_, emits_recorded (fun _ _ _ => trivial) ..⟩

def keptFiles : List String := "collection_receipt.json" :: expectedFiles

def written : Event Call Answer Raised → Option (String × Option Bytes)
  | ⟨.writeDurableJson path payload, _⟩ => some (path, some (sampleEncode payload))
  | _ => none

def writtenPath : Event Call Answer Raised → Option String
  | ⟨.writeDurableJson path _, _⟩ => some path
  | _ => none

def commitsText : Event Call Answer Raised → Bool
  | ⟨.enterSafeWait evidence, _⟩ => evidence.collectionDir == diskText
  | _ => false

/-- The disk ends with what was written: both sides build the same documents, so no byte of them is
    computed. -/
theorem kept_written : keptTrace.filterMap written =
    (keptTrace.filterMap writtenPath).map fun path => (path, diskHost.plainFile (pathParts path)) := by
  rfl

theorem kept_paths : ∀ path ∈ keptTrace.filterMap writtenPath, ∃ file ∈ keptFiles,
    path = diskText ++ "/" ++ file ∧ pathParts path = diskDirectory ++ [file] := by
  decide +kernel

theorem kept_commits : keptTrace.any commitsText = true := by
  decide +kernel

theorem kept_keeps {front : Log} (earlier : front <+: keptTrace) :
    Keeps sampleCodec diskHost front diskText diskDirectory where
  documents file payload digest did := by
    have mem := did.mono earlier
    have digested : keptAnswer (.writeDurableJson (diskText ++ "/" ++ file) payload) = .ok digest :=
      (recorded_steady mem).symm
    have stored : (diskText ++ "/" ++ file, some (sampleEncode payload)) ∈
        keptTrace.filterMap written := List.mem_filterMap.mpr ⟨_, mem, rfl⟩
    rw [kept_written, List.mem_map] at stored
    obtain ⟨path, listed, held⟩ := stored
    obtain ⟨file', _, named, parts⟩ := kept_paths path listed
    obtain ⟨same, bytes⟩ := Prod.mk.inj held
    have file_eq : file' = file := (String.append_right_inj _).mp (named.symm.trans same)
    rw [parts, file_eq] at bytes
    exact ⟨(Except.ok.inj digested).symm, bytes⟩
  manifest listing did := by
    have taken : (archiveTreeManifest sampleCodec diskHost.files diskDirectory).map
        manifestJson = .ok listing := (recorded_steady (did.mono earlier)).symm
    obtain ⟨entries, current, eq⟩ := Outcome.map_ok.mp taken
    exact ⟨entries, current, eq.symm⟩

def keptRow (evidence : SafeWait) : Contest :=
  { sampleContest with
    tid := "t"
    collectionRunId := evidence.runId
    collectionDir := diskText
    collectionReceiptSha256 := evidence.receiptSha256 }

theorem kept_records (evidence : SafeWait) : Records (keptRow evidence) "t" evidence :=
  ⟨rfl, rfl, rfl⟩

theorem kept_wait : ∃ front back evidence answer,
    keptTrace = front ++ ⟨.enterSafeWait evidence, answer⟩ :: back ∧
      Keeps sampleCodec diskHost front evidence.collectionDir diskDirectory := by
  obtain ⟨⟨c, answer⟩, mem, is⟩ := List.any_eq_true.mp kept_commits
  obtain ⟨front, back, split⟩ := List.append_of_mem mem
  cases c with
  | enterSafeWait evidence =>
    refine ⟨front, back, evidence, answer, split, ?_⟩
    rw [beq_iff_eq.mp is]
    exact kept_keeps ⟨_, split.symm⟩
  | _ => cases is

/-- Another host with the same evidence. -/
def spareHost : Host :=
  { diskHost with cwd := ["spare"], files := (["spare"], .directory) :: diskHost.files }

def emptyEvidence : SafeWait := ⟨"", "", "", 0, 0, ""⟩

theorem hosts_locate : (diskHost.evidenceDirectory (keptRow emptyEvidence)).toOption =
      some diskDirectory ∧
    (spareHost.evidenceDirectory (keptRow emptyEvidence)).toOption = some diskDirectory := by
  decide +kernel

theorem of_toOption {ε α : Type} {result : Except ε α} {value : α}
    (returned : result.toOption = some value) : result = .ok value := by
  cases result with
  | ok other => exact congrArg _ (Option.some.inj returned)
  | error e => cases returned

theorem disk_located (evidence : SafeWait) :
    diskHost.evidenceDirectory (keptRow evidence) = .ok diskDirectory :=
  of_toOption hosts_locate.1

theorem spare_located (evidence : SafeWait) :
    spareHost.evidenceDirectory (keptRow evidence) = .ok diskDirectory :=
  of_toOption hosts_locate.2

theorem spare_keeps {t : Log} {text : String}
    (keeps : Keeps sampleCodec diskHost t text diskDirectory) :
    Keeps sampleCodec spareHost t text diskDirectory := by
  have apart : ∀ (files : Files) (file : String), node ((["spare"], .directory) :: files)
      (diskDirectory ++ [file]) = node files (diskDirectory ++ [file]) := fun _ _ => rfl
  have below : archiveTreeManifest sampleCodec spareHost.files diskDirectory =
      archiveTreeManifest sampleCodec diskHost.files diskDirectory := by
    have outside : ¬ (diskDirectory <+: ["spare"] ∧ diskDirectory ≠ ["spare"]) := by decide
    rw [archiveTreeManifest, archiveTreeManifest, entriesBelow, entriesBelow, spareHost,
      List.filter_cons_of_neg (by simpa using outside)]
  constructor
  · intro file payload digest did
    obtain ⟨digested, stored⟩ := keeps.documents file payload digest did
    refine ⟨digested, ?_⟩
    rw [← stored, Host.plainFile, Host.plainFile, spareHost, apart]
  · rw [below]
    exact keeps.manifest

theorem sample_evidence_agrees : ∃ row directory directory',
    diskHost.evidenceDirectory row = .ok directory ∧
      spareHost.evidenceDirectory row = .ok directory' ∧
      (Collide sampleCodec diskHost spareHost directory directory' "collection_receipt.json" ∨
        Collide sampleCodec diskHost spareHost directory directory' "archive_manifest.json" ∨
        ∀ entry, Lists sampleCodec diskHost.files directory entry ↔
          Lists sampleCodec spareHost.files directory' entry) := by
  obtain ⟨front, back, evidence, answer, split, keeps⟩ := kept_wait
  obtain ⟨_, _, _, _, kept, _⟩ := kept_of_run (split ▸ kept_run) (kept_records evidence)
    (disk_located evidence) keeps
  obtain ⟨_, _, _, _, kept', _⟩ := kept_of_run (split ▸ kept_run) (kept_records evidence)
    (spare_located evidence) (spare_keeps keeps)
  obtain ⟨directory, directory', located, located', agree⟩ :=
    verified_evidence_agrees (kept_evidence_verifies kept) (kept_evidence_verifies kept')
  exact ⟨_, directory, directory', located, located',
    agree.imp_right fun rest => rest.imp_right And.right⟩

end NoiContest.Collection
