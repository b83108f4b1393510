import NoiContest.Collection.Collect
import NoiContest.Lib.FileSystem
import NoiContest.Lib.JsonParse
import NoiContest.Lib.Outcome

/- Pipeline._verify_collection_receipt over the file tree of the host. -/
namespace NoiContest.Collection
open Pipeline JsonText Outcome FilePath FileSystem

abbrev Bytes := List UInt8

abbrev Files := FileSystem.Tree Bytes

/- What the standard library makes of texts and values. -/
structure Codec where
  encode : Json → Bytes
  decode : Bytes → Option Json
  reads (value : Json) : decode (encode value) = some (canonical value)
  digest : Bytes → String
  /-- `int(text)` -/
  intOfText : String → Option Int
  /-- `str(value)` for a list or a dictionary -/
  reprOf : Json → String

structure Host where
  cwd : Path
  files : Files
  /-- `orchestrator.collected_dir` -/
  collectedDir : String

/- Paths -/

def pathParts (text : String) : List String :=
  ((text.toList.splitOn '/').map String.ofList).filter fun part => part ≠ "" ∧ part ≠ "."

def Host.base (h : Host) (text : String) : Path :=
  if text.toList.head? == some '/' then [] else h.cwd

def found (path : Option Path) : Except Raised Path :=
  match path with
  | some path => .ok path
  | none => .error (.runtime "Symlink loop")

/-- `Path(text).resolve()` -/
def Host.resolveText (h : Host) (text : String) : Except Raised Path :=
  found (resolve h.files (h.base text) (pathParts text))

/-- `Path(text).is_symlink()` -/
def Host.isSymlink (h : Host) (text : String) : Bool :=
  match (pathParts text).getLast? with
  | none => false
  | some name =>
    if name = ".." then false
    else match resolve h.files (h.base text) (pathParts text).dropLast with
      | some parent => (linkAt h.files (parent ++ [name])).isSome
      | none => false

/- The directory that the contest names, below the archive root of the contest. -/
def Host.evidenceDirectory (h : Host) (contest : Contest) : Except Raised Path := do
  let root ← h.resolveText h.collectedDir
  let contestRoot ← found (resolve h.files root (pathParts contest.tid))
  Outcome.raiseIf (h.isSymlink contest.collectionDir = true) (.runtime "回收目录不能是符号链接")
  let directory ← h.resolveText contest.collectionDir
  Outcome.raiseIf (¬ contestRoot <+: directory) (.runtime "回收目录超出本场归档根目录")
  Outcome.raiseIf (node h.files directory ≠ some .directory) (.runtime "回收目录不存在或不是可信目录")
  return directory

/-- A regular file that is not reached through a link. -/
def Host.plainFile (h : Host) (path : Path) : Option Bytes :=
  match node h.files path with
  | some (.file content) => some content
  | _ => none

/- The tree manifest -/

def relativeText (root path : Path) : String := join (path.drop root.length)

def entriesBelow (files : Files) (root : Path) : Files :=
  (files.filter fun e => root <+: e.1 ∧ root ≠ e.1).insertionSort fun a b => join a.1 ≤ join b.1

def excluded : List String := ["archive_manifest.json", "collection_receipt.json"]

def manifestOf (c : Codec) (root : Path) : Files → Except Raised (List (String × Evidence))
  | [] => .ok []
  | (path, entry) :: rest =>
    let name := relativeText root path
    if name ∈ excluded then manifestOf c root rest
    else match entry with
      | .link .. => .error (.runtime ("回收目录含符号链接: " ++ name))
      | .directory => manifestOf c root rest
      | .file content => do
        let later ← manifestOf c root rest
        return (name, ⟨c.digest content, content.length⟩) :: later

def archiveTreeManifest (c : Codec) (files : Files) (root : Path) :
    Except Raised (List (String × Evidence)) := manifestOf c root (entriesBelow files root)

def Evidence.json (evidence : Evidence) : Json :=
  .obj [("sha256", .str evidence.sha256), ("size", .int evidence.size)]

def manifestJson (entries : List (String × Evidence)) : Json :=
  .obj [("schema_version", .int 1),
    ("files", .obj (entries.map fun entry => (entry.1, entry.2.json)))]

/- Values -/

/-- `fields.get(name)` -/
def getField (fields : List (String × Json)) (name : String) : Json :=
  (fields.lookup name).getD .null

/-- `str(value)` -/
def strOf (c : Codec) : Json → String
  | .null => "None"
  | .bool b => if b then "True" else "False"
  | .int n => toString n
  | .str s => s
  | value => c.reprOf value

def falsy : Json → Bool
  | .null | .bool false | .int 0 | .arr [] | .obj [] => true
  | .str s => s == ""
  | _ => false

/-- `str(value or "")` -/
def strOr (c : Codec) (value : Json) : String := if falsy value then "" else strOf c value

/-- `value == 1`, which holds of true as well -/
def isOne : Json → Bool
  | .int n => n == 1
  | .bool b => b
  | _ => false

/-- `int(value)` -/
def intOf (c : Codec) : Json → Except Raised Int
  | .int n => .ok n
  | .bool b => .ok (if b then 1 else 0)
  | .str s => match c.intOfText s with
    | some n => .ok n
    | none => .error (.valueError "invalid literal for int()")
  | _ => .error (.external "TypeError")

mutual

/-- Booleans are numbers when values are compared. -/
def numbers : Json → Json
  | .bool b => .int (if b then 1 else 0)
  | .arr items => .arr (numbersItems items)
  | .obj fields => .obj (numbersFields fields)
  | value => value

def numbersItems : List Json → List Json
  | [] => []
  | item :: rest => numbers item :: numbersItems rest

def numbersFields : List (String × Json) → List (String × Json)
  | [] => []
  | (name, value) :: rest => (name, numbers value) :: numbersFields rest

end

/-- `a == b`, whatever the order of the keys. -/
def Alike (a b : Json) : Prop := dumps (numbers a) = dumps (numbers b)

instance (a b : Json) : Decidable (Alike a b) := inferInstanceAs (Decidable (_ = _))

/- The receipt -/

def expectedFiles : List String :=
  ["archive_manifest.json", "folder_report.json", "report.json", "selection.json",
    "submit_log.json", "web_report.json"]

def incomplete : Raised := .runtime "回收凭据语义不完整"

def fieldsOf : Json → Except Raised (List (String × Json))
  | .obj fields => .ok fields
  | _ => .error (.external "AttributeError")

/- The files that a receipt of the contest names. -/
def receiptFiles (c : Codec) (contest : Contest) (receipt : Json) :
    Except Raised (List (String × Json)) := do
  let fields ← fieldsOf receipt
  Outcome.raiseIf (isOne (getField fields "schema_version") = false) incomplete
  Outcome.raiseIf (strOr c (getField fields "tid") ≠ contest.tid) incomplete
  Outcome.raiseIf (strOr c (getField fields "run_id") ≠ contest.collectionRunId) incomplete
  let failures ← intOf c ((fields.lookup "submit_failures").getD (.int (-1)))
  Outcome.raiseIf (failures ≠ 0) incomplete
  let files ← (fieldsOf (getField fields "files")).mapError fun _ => incomplete
  Outcome.raiseIf (¬ ((∀ file ∈ files, file.1 ∈ expectedFiles) ∧
    ∀ name ∈ expectedFiles, name ∈ files.map Prod.fst)) incomplete
  return files

def checkFile (c : Codec) (h : Host) (directory : Path) (files : List (String × Json))
    (name : String) : Except Raised Unit :=
  Outcome.raiseIf ((h.plainFile (directory ++ [name])).map c.digest ≠
    some (strOf c (getField files name))) (.runtime ("回收证据文件校验失败: " ++ name))

def checkFiles (c : Codec) (h : Host) (directory : Path) (files : List (String × Json)) :
    List String → Except Raised Unit
  | [] => .ok ()
  | name :: names => do
    checkFile c h directory files name
    checkFiles c h directory files names

def document (h : Host) (path : Path) (message : String) : Except Raised Bytes :=
  match h.plainFile path with
  | some content => .ok content
  | none => .error (.runtime message)

def parsed (value : Option Json) (message : String) : Except Raised Json :=
  match value with
  | some value => .ok value
  | none => .error (.runtime message)

def receiptPath (directory : Path) : Path := directory ++ ["collection_receipt.json"]
def manifestPath (directory : Path) : Path := directory ++ ["archive_manifest.json"]

def verifyCollectionReceipt (c : Codec) (h : Host) (contest : Contest) : Except Raised Json := do
  let directory ← h.evidenceDirectory contest
  let content ← document h (receiptPath directory) "回收凭据不存在或类型异常"
  Outcome.raiseIf (c.digest content ≠ contest.collectionReceiptSha256) (.runtime "回收凭据摘要不匹配")
  let receipt ← parsed (c.decode content) "回收凭据无法读取"
  let files ← receiptFiles c contest receipt
  checkFiles c h directory files expectedFiles
  let manifest ← document h (manifestPath directory) "回收文件清单无法读取"
  let persisted ← parsed (c.decode manifest) "回收文件清单无法读取"
  let entries ← archiveTreeManifest c h.files directory
  Outcome.raiseIf (¬ Alike persisted (manifestJson entries)) (.runtime "回收文件树与冻结清单不一致")
  return receipt

end NoiContest.Collection
