import Mathlib.Data.List.DropRight
import NoiContest.Lib.FilePath
import NoiContest.SourceRelease.Transaction

/- The tree that extract_exact writes for a source archive, and the trees that verify_release
   accepts for its manifest. -/
namespace NoiContest.SourceRelease
open Outcome FilePath

def rootName : String := "noi-linux-contest-system-v1"

/- The permission bits of a file, S_IMODE. -/
abbrev Mode := BitVec 12

/- A row of the manifest. The path is split at its slashes. -/
structure SourceRow where
  path : Path
  mode : String
  bytes : Nat
  sha256 : String
  deriving DecidableEq, Repr

def SourceRow.name (row : SourceRow) : String := FilePath.join (rootName :: row.path)

def SourceRow.fileMode (row : SourceRow) : Mode := if row.mode = "100755" then 0o755 else 0o644

/- What the check of a candidate promises of the paths in its manifest. -/
def Checked (rows : List SourceRow) : Prop :=
  ∀ row ∈ rows, row.path ≠ [] ∧ ∀ part ∈ row.path, IsName part

instance (rows : List SourceRow) : Decidable (Checked rows) :=
  inferInstanceAs (Decidable (∀ row ∈ rows, _))

/-- `expected.get(name)`: a later row replaces an earlier one of the same path. -/
def expectedRow (rows : List SourceRow) (name : String) : Option SourceRow :=
  rows.reverse.find? fun row => decide (row.name = name)

def directories (rows : List SourceRow) : List String :=
  rootName :: rows.flatMap fun row => (parents (rootName :: row.path)).map FilePath.join

inductive MemberKind where
  | directory
  | regular
  | other
  deriving DecidableEq, Repr

/- A member of a tar archive. -/
structure TarMember where
  name : String
  kind : MemberKind
  mode : Nat
  content : List UInt8
  deriving DecidableEq, Repr

/- What lstat and the content tell of an entry. -/
inductive Node where
  | directory (mode : Mode)
  | file (mode : Mode) (links : Nat) (content : List UInt8)
  | symlink
  | special
  deriving DecidableEq, Repr

structure Tree where
  /-- What lstat tells of the directory itself. -/
  root : Node
  entries : List (Path × Node)
  deriving DecidableEq, Repr

/- Every entry has one name of its own in a directory of the tree. -/
structure Tree.Real (t : Tree) : Prop where
  named : ∀ e ∈ t.entries, e.1 ≠ [] ∧ ∀ part ∈ e.1, IsName part
  once : (t.entries.map Prod.fst).Nodup
  closed : ∀ e ∈ t.entries, ∀ parent ∈ parents e.1, ∃ mode, (parent, .directory mode) ∈ t.entries

/-- `target.parent.mkdir(parents=True, exist_ok=True, mode=0o755)`, one directory at a time -/
def makeParent (umask : Mode) (target : Path) (entries : List (Path × Node)) (path : Path) :
    Except Raised (List (Path × Node)) :=
  match entries.lookup path with
  | none =>
    let mode : Mode := if path.length + 1 = target.length then 0o755 else 0o777
    .ok (entries ++ [(path, .directory (mode &&& ~~~umask))])
  | some (.directory _) => .ok entries
  | some _ => .error (.other "FileExistsError")

/- The process runs as root, so no permission stands in its way. -/
def createFile (umask : Mode) (entries : List (Path × Node)) (row : SourceRow)
    (content : List UInt8) : Except Raised (List (Path × Node)) := do
  let entries ← (parents row.path).foldlM (makeParent umask row.path) entries
  if (entries.lookup row.path).isSome then .error (.other "FileExistsError")
  else return entries ++ [(row.path, .file (row.fileMode &&& ~~~umask) 1 content)]

def differs : Raised := .transaction "source archive member differs"

structure Staging where
  entries : List (Path × Node)
  observed : List String
  deriving DecidableEq, Repr

def extractMember (umask : Mode) (rows : List SourceRow) (staging : Staging) (m : TarMember) :
    Except Raised Staging :=
  if m.kind = .directory then
    if String.ofList (m.name.toList.rdropWhile (· == '/')) ∈ directories rows then .ok staging
    else .error (.transaction "source archive has an unexpected directory")
  else
    match expectedRow rows m.name with
    | none => .error (.transaction "source archive has an unexpected entry")
    | some row => do
      raiseIf (m.kind ≠ .regular ∨ m.name ∈ staging.observed)
        (.transaction "source archive has an unexpected entry")
      raiseIf (m.content.length ≠ row.bytes ∨ Sha256.hexdigest m.content ≠ row.sha256 ∨
        m.mode &&& 0o777 ≠ row.fileMode.toNat) differs
      let entries ← createFile umask staging.entries row m.content
      return { entries, observed := staging.observed ++ [m.name] }

/-- `os.chmod(directory, 0o755)` -/
def normalize : Path × Node → Path × Node
  | (path, .directory _) => (path, .directory 0o755)
  | entry => entry

def extractExact (umask : Mode) (rows : List SourceRow) (archive : List TarMember) :
    Except Raised Tree := do
  let staging ← archive.foldlM (extractMember umask rows) { entries := [], observed := [] }
  raiseIf (∃ row ∈ rows, row.name ∉ staging.observed) (.transaction "source archive is incomplete")
  return { root := .directory 0o755, entries := staging.entries.map normalize }

/- Linux reads at most this many bytes at once. -/
def maxRead : Nat := 0x7ffff000

/-- `os.read(descriptor, n)` at the start of a file -/
def readOnce (n : Nat) (content : List UInt8) : List UInt8 := content.take (min n maxRead)

/- The row of a path below the release. -/
def expectedRelative (rows : List SourceRow) (path : Path) : Option SourceRow :=
  expectedRow rows (FilePath.join (rootName :: path))

def verifyEntry (rows : List SourceRow) : Path × Node → Except Raised Unit
  | (path, .directory mode) =>
    raiseIf (FilePath.join (rootName :: path) ∉ directories rows ∨ mode ≠ 0o755)
      (.transaction "existing release directory mode differs")
  | (path, .file mode links content) =>
    match expectedRelative rows path with
    | none => .error (.transaction "existing release contains an unexpected entry")
    | some row => do
      raiseIf (links ≠ 1) (.transaction "existing release contains an unexpected entry")
      let raw := readOnce (row.bytes + 1) content
      raiseIf (raw.length ≠ row.bytes ∨ Sha256.hexdigest raw ≠ row.sha256 ∨ mode ≠ row.fileMode)
        (.transaction "existing release file differs")
  | _ => .error (.transaction "existing release contains an unexpected entry")

/- The rest of the name after the root. -/
def observedFiles (tree : Tree) : List String :=
  tree.entries.filterMap fun entry => match entry.2 with
    | .directory _ => none
    | _ => some (FilePath.join (rootName :: entry.1))

def verifyRelease (rows : List SourceRow) (release : Tree) : Except Raised Unit := do
  raiseIf (release.root ≠ .directory 0o755)
    (.transaction "existing release root metadata differs")
  release.entries.forM (verifyEntry rows)
  raiseIf (∃ row ∈ rows, row.name ∉ observedFiles release)
    (.transaction "existing release is incomplete")

end NoiContest.SourceRelease
