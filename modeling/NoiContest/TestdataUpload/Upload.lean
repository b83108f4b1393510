import Mathlib.Algebra.Ring.Nat
import Mathlib.Data.Finset.Basic
import Mathlib.Data.Finset.Sort
import Mathlib.Data.List.Sort
import Mathlib.Data.Prod.Lex
import Mathlib.Data.String.Basic
import NoiContest.Lib.Outcome
import NoiContest.Lib.PyText
import NoiContest.Lib.Sha256

/- The upload of practice data: a ZIP of the teacher is checked and packed again, as
   read_testdata_upload in services/materials.py does. -/
namespace NoiContest.TestdataUpload

/- An entry of the ZIP directory. The content is what reading the entry gives, none where the
   reader raises. -/
structure ZipInfo where
  filename : String
  externalAttr : Nat
  flagBits : Nat
  fileSize : Nat
  content : Option (List UInt8)
  deriving DecidableEq, Repr

structure Member where
  name : String
  directory : Bool
  mode : Nat
  data : List UInt8
  deriving DecidableEq, Repr

inductive ZipError where
  | badZipFile
  | raised
  deriving DecidableEq, Repr

/- The parts of Python that the upload calls. `ignoreCase` compares a character of a pattern
   with one of the text under re.IGNORECASE; the packed archive is a function of its members,
   since all the time stamps are zero. -/
structure Libraries where
  lower : String → String
  casefold : String → String
  isDecimal : Char → Bool
  ignoreCase : Char → Char → Bool
  repr : String → String
  openZip : List UInt8 → Except ZipError (List ZipInfo)
  gzipTar : List Member → List UInt8

inductive Failure where
  | materialError (message : String)
  | raised
  deriving DecidableEq, Repr

structure Limits where
  maximum : Nat
  expandedMaximum : Nat
  maximumFiles : Nat
  deriving DecidableEq, Repr

def forwardSlashes (s : String) : String := s.map fun c => if c = '\\' then '/' else c

def hasControl (s : String) : Bool := s.toList.any fun c => c.toNat < 32

def endsWith (suffix s : String) : Bool := suffix.toList.isSuffixOf s.toList

def baseName (s : String) : String :=
  PyText.strip (String.ofList ((s.toList.splitOn '/').getLastD []))

/- The folder of a problem -/

def isSeparator (c : Char) : Bool := c == '_' || c == '.' || c == ' ' || c == '-'

/-- A full match of `t?\d+[_. -]+`. -/
def isNumbering (lib : Libraries) (front : List Char) : Bool :=
  let number := if (front.head?.any (lib.ignoreCase 't')) then front.tail else front
  let separators := number.dropWhile lib.isDecimal
  number.head?.any lib.isDecimal && !separators.isEmpty && separators.all isSeparator

def matchesProblem (lib : Libraries) (problem value : String) : Bool :=
  let front := value.toList.take (value.length - problem.length)
  let name := value.toList.drop (value.length - problem.length)
  (front.isEmpty || isNumbering lib front) && name.length == problem.length &&
    (problem.toList.zip name).all fun pair => lib.ignoreCase pair.1 pair.2

def canonicalProblemFolder (lib : Libraries) (problems : List String) (value : String) : String :=
  if value ∈ problems then value
  else (problems.find? fun problem => matchesProblem lib problem value).getD value

/- The first loop: which entries are files of the upload -/

structure Scan where
  candidates : List (ZipInfo × List String) := []
  expandedSize : Nat := 0

/-- The parts of PurePosixPath for a path that is not absolute. -/
def pathParts (rawPath : String) : List String :=
  ((rawPath.toList.splitOn '/').map String.ofList).filter fun part => part ≠ "" ∧ part ≠ "."

def isAbsolute (rawPath : String) : Bool := rawPath.toList.head? == some '/'

def fileType (info : ZipInfo) : Nat := (info.externalAttr / 2 ^ 16) % 2 ^ 16 / 2 ^ 12 * 2 ^ 12

def isDir (info : ZipInfo) : Bool := endsWith "/" info.filename

def scanEntry (lib : Libraries) (limits : Limits) (s : Scan) (info : ZipInfo) :
    Except Failure Scan := do
  Outcome.raiseIf (Char.ofNat 0 ∈ info.filename.toList)
    (.materialError ("测试数据包含非法路径: " ++ lib.repr info.filename))
  let rawPath := forwardSlashes info.filename
  let parts := pathParts rawPath
  Outcome.raiseIf (isAbsolute rawPath = true ∨
      parts.any (fun part => part == "" || part == "." || part == ".." || hasControl part) = true)
    (.materialError ("测试数据包含非法路径: " ++ lib.repr info.filename))
  if parts = [] ∨ parts.head? = some "__MACOSX" ∨ parts.getLast? = some ".DS_Store" then
    return s
  Outcome.raiseIf (fileType info ∉ [0, 0o100000, 0o040000])
    (.materialError ("测试数据包含不允许的特殊文件: " ++ info.filename))
  Outcome.raiseIf (info.flagBits % 2 = 1)
    (.materialError ("测试数据不能使用加密 ZIP 条目: " ++ info.filename))
  if isDir info = true then return s
  Outcome.raiseIf (240 < rawPath.length) (.materialError ("测试数据路径过长: " ++ rawPath))
  let s : Scan := {
    candidates := s.candidates ++ [(info, parts)]
    expandedSize := s.expandedSize + info.fileSize }
  Outcome.raiseIf (limits.maximumFiles < s.candidates.length)
    (.materialError ("测试数据文件数超过 " ++ toString limits.maximumFiles ++ " 个限制"))
  Outcome.raiseIf (limits.expandedMaximum < s.expandedSize)
    (.materialError ("测试数据解压后超过 " ++ toString limits.expandedMaximum ++ " 字节限制"))
  return s

/- One folder around all the files that is not the folder of a problem. -/
def stripWrapper (lib : Libraries) (problems : List String)
    (candidates : List (ZipInfo × List String)) : Bool :=
  let firstParts := (candidates.map fun candidate => candidate.2.headD "").toFinset
  decide (firstParts.card = 1) &&
    !decide (firstParts.image (canonicalProblemFolder lib problems) ⊆ problems.toFinset)

def targetParts (lib : Libraries) (problems : List String) (wrapped : Bool)
    (parts : List String) : List String :=
  match if wrapped then parts.tail else parts with
  | [] => []
  | folder :: rest => canonicalProblemFolder lib problems folder :: rest

/- The second loop: the files by problem -/

/-- Where the last period is, unless it starts or ends the name. -/
def suffixLength (name : String) : Nat :=
  let tail := name.toList.reverse.takeWhile (· ≠ '.')
  if tail ≠ [] ∧ tail.length + 1 < name.length then tail.length + 1 else 0

def suffix (name : String) : String :=
  String.ofList (name.toList.drop (name.length - suffixLength name))

def stem (name : String) : String :=
  String.ofList (name.toList.take (name.length - suffixLength name))

structure Entry where
  info : ZipInfo
  folder : String
  filename : String
  deriving DecidableEq, Repr

def Entry.path (e : Entry) : String := e.folder ++ "/" ++ e.filename

structure Grouping where
  normalized : List Entry := []
  seen : Finset String := ∅
  present : Finset String := ∅
  inputGroups : String → Finset String := fun _ => ∅
  outputGroups : String → Finset String := fun _ => ∅

def addStem (groups : String → Finset String) (problem stem : String) : String → Finset String :=
  fun p => if p = problem then insert stem (groups p) else groups p

def misplaced (parts : List String) : Failure :=
  .materialError ("测试数据必须按 题目名/N.in 与 题目名/N.out 的目录结构存放；发现: " ++
    "/".intercalate parts)

def groupEntry (lib : Libraries) (problems : List String) (wrapped : Bool) (g : Grouping)
    (candidate : ZipInfo × List String) : Except Failure Grouping :=
  match targetParts lib problems wrapped candidate.2 with
  | [problem, filename] => do
    Outcome.raiseIf (problem ∉ problems) (misplaced [problem, filename])
    let suffix := lib.lower (suffix filename)
    let stem := lib.casefold (stem filename)
    let entry : Entry := ⟨candidate.1, problem, filename⟩
    Outcome.raiseIf ((suffix ≠ ".in" ∧ suffix ≠ ".out") ∨ stem = "")
      (.materialError ("辅助数据只允许成对的 .in/.out 文件；发现: " ++ entry.path))
    Outcome.raiseIf (entry.path ∈ g.seen)
      (.materialError ("测试数据包含重复路径: " ++ entry.path))
    return {
      normalized := g.normalized ++ [entry]
      seen := insert entry.path g.seen
      present := insert problem g.present
      inputGroups := if suffix = ".in" then addStem g.inputGroups problem stem else g.inputGroups
      outputGroups :=
        if suffix = ".in" then g.outputGroups else addStem g.outputGroups problem stem }
  | parts => .error (misplaced parts)

/- The checks of the groups -/

local instance names_transitive : IsTrans String (· ≤ ·) := inferInstance

local instance names_antisymmetric : Std.Antisymm (fun a b : String => a ≤ b) := inferInstance

local instance names_total : Std.Total (fun a b : String => a ≤ b) := inferInstance

def sorted (names : Finset String) : String := ",".intercalate (names.sort (· ≤ ·))

def unpaired (problem : String) (inputs outputs : Finset String) : String :=
  let detail :=
    (if inputs \ outputs = ∅ then [] else ["缺少 .out: " ++ sorted (inputs \ outputs)]) ++
    (if outputs \ inputs = ∅ then [] else ["缺少 .in: " ++ sorted (outputs \ inputs)])
  "题目 " ++ problem ++ " 的辅助数据没有成对: " ++ "；".intercalate detail

def checkGroups (groupsPerProblem : Option Nat) (g : Grouping) (problem : String) :
    Except Failure Unit := do
  let inputs := g.inputGroups problem
  let outputs := g.outputGroups problem
  Outcome.raiseIf (inputs ≠ outputs) (.materialError (unpaired problem inputs outputs))
  match groupsPerProblem with
  | some expected =>
    Outcome.raiseIf (inputs.card ≠ expected) (.materialError
      ("题目 " ++ problem ++ " 必须恰好包含 " ++ toString expected ++ " 组 .in/.out，当前为 " ++
        toString inputs.card ++ " 组"))
  | none =>
    Outcome.raiseIf (¬ (2 ≤ inputs.card ∧ inputs.card ≤ 4)) (.materialError
      ("题目 " ++ problem ++ " 必须包含 2 到 4 组 .in/.out，当前为 " ++
        toString inputs.card ++ " 组"))

/- The archive -/

def directoryMember (directory : String) : Member := ⟨directory, true, 0o555, []⟩

/- Tuples of parts are compared part by part. -/
def ByParts (a b : Entry) : Prop := toLex (a.folder, a.filename) ≤ toLex (b.folder, b.filename)

instance : DecidableRel ByParts := fun a b =>
  inferInstanceAs (Decidable (toLex (a.folder, a.filename) ≤ toLex (b.folder, b.filename)))

def fileMember (e : Entry) : Except Failure Member :=
  match e.info.content with
  | none => .error .raised
  | some content => do
    let data := content.take (e.info.fileSize + 1)
    Outcome.raiseIf (data.length ≠ e.info.fileSize)
      (.materialError ("测试数据条目长度异常: " ++ e.info.filename))
    return ⟨e.path, false, 0o444, data⟩

def directories (entries : List Entry) : Finset String := (entries.map Entry.folder).toFinset

def archiveMembers (entries : List Entry) : Except Failure (List Member) := do
  let files ← (entries.insertionSort ByParts).mapM fileMember
  return ((directories entries).sort (· ≤ ·)).map directoryMember ++ files

/- The archive is kept as its members; `payload` and `digest` are what the caller gets. -/
structure Upload where
  name : String
  archive : List Member
  files : Nat
  expandedSize : Nat

def Upload.payload (lib : Libraries) (u : Upload) : List UInt8 := lib.gzipTar u.archive

def Upload.digest (lib : Libraries) (u : Upload) : String := Sha256.hexdigest (u.payload lib)

def uploadName (lib : Libraries) (filename : Option String) : Except Failure String := do
  let given := match filename with
    | none => "测试数据.zip"
    | some s => if s = "" then "测试数据.zip" else s
  let name := baseName (forwardSlashes given)
  Outcome.raiseIf (name = "" ∨ 128 < name.length ∨ hasControl name = true ∨
      endsWith ".zip" (lib.lower name) = false)
    (.materialError "测试数据文件名必须是合法的 ZIP 文件名")
  return name

def openArchive (lib : Libraries) (payload : List UInt8) : Except Failure (List ZipInfo) :=
  (lib.openZip payload).mapError fun
    | .badZipFile => .materialError "上传内容不是有效的 ZIP 文件"
    | .raised => .raised

def repack (lib : Libraries) (limits : Limits) (problems : List String)
    (groupsPerProblem : Option Nat) (name : String) (infolist : List ZipInfo) :
    Except Failure Upload := do
  let scan ← infolist.foldlM (scanEntry lib limits) {}
  Outcome.raiseIf (scan.candidates = []) (.materialError "测试数据 ZIP 中没有文件")
  let wrapped := stripWrapper lib problems scan.candidates
  let g ← scan.candidates.foldlM (groupEntry lib problems wrapped) {}
  let missing := problems.toFinset \ g.present
  Outcome.raiseIf (missing ≠ ∅) (.materialError ("测试数据缺少题目目录: " ++ sorted missing))
  problems.forM (checkGroups groupsPerProblem g)
  let archive ← archiveMembers g.normalized
  return {
    name, archive
    files := scan.candidates.length
    expandedSize := scan.expandedSize }

def readTestdataUpload (lib : Libraries) (stream : List UInt8) (filename : Option String)
    (limits : Limits) (problems : List String) (groupsPerProblem : Option Nat) :
    Except Failure Upload := do
  let name ← uploadName lib filename
  let payload := stream.take (limits.maximum + 1)
  Outcome.raiseIf (limits.maximum < payload.length)
    (.materialError ("测试数据 ZIP 超过 " ++ toString limits.maximum ++ " 字节限制"))
  Outcome.raiseIf (problems = []) (.materialError "登记题目为空，无法校验测试数据")
  Outcome.raiseIf (∃ g ∈ groupsPerProblem, ¬ (2 ≤ g ∧ g ≤ 4))
    (.materialError "每题辅助数据组数必须在 2 到 4 之间")
  let infolist ← openArchive lib payload
  repack lib limits problems groupsPerProblem name infolist

end NoiContest.TestdataUpload
