import Mathlib.Data.Finset.Sort
import Mathlib.Data.List.DropRight
import Mathlib.Data.String.Basic
import NoiContest.InputDigest.Normalizers
import NoiContest.Lib.PyText

/- The sample inputs of a Markdown statement, as extract_sample_input_hashes in
   services/artifact_workflow.py finds them. -/
namespace NoiContest.SampleInputs

/- `replace("\r\n", "\n")` -/
def joinLineEnds : List Char → List Char
  | [] => []
  | [c] => [c]
  | c :: next :: rest =>
    if c = '\r' ∧ next = '\n' then '\n' :: joinLineEnds rest
    else c :: joinLineEnds (next :: rest)

def linesOf (markdown : String) : List String :=
  (((joinLineEnds markdown.toList).map fun c => if c = '\r' then '\n' else c).splitOn '\n').map
    String.ofList

/- The lazy group of the heading pattern: what is left of the line without trailing spaces and
   number signs, but at least its first character. -/
def headingText (text : List Char) : List Char :=
  let rest := ((text.rdropWhile PyText.isSpace).rdropWhile (· = '#')).rdropWhile PyText.isSpace
  if rest = [] then text.take 1 else rest

/-- `_HEADING.match(line.strip())` with its second group -/
def heading (line : String) : Option (List Char) :=
  let cs := (PyText.strip line).toList
  let level := (cs.takeWhile (· = '#')).length
  let rest := cs.dropWhile (· = '#')
  let text := rest.dropWhile PyText.isSpace
  if 1 ≤ level ∧ level ≤ 6 ∧ rest.head?.any PyText.isSpace = true ∧ text ≠ [] then
    some (headingText text)
  else none

/- The title without the characters of emphasis. -/
def titleOf (text : List Char) : String :=
  PyText.strip (String.ofList (text.filter fun c => c != '*' && c != '_' && c != '\x60'))

/- Two words with white space between them. -/
def dropWords? (first second cs : List Char) : Option (List Char) := do
  let rest ← PyText.dropWord? first cs
  if rest.head?.any PyText.isSpace then PyText.dropWord? second (rest.dropWhile PyText.isSpace)
  else none

def dropSampleInput? (cs : List Char) : Option (List Char) :=
  (PyText.dropWord? "输入样例".toList cs).orElse fun _ =>
    (PyText.dropWord? "样例输入".toList cs).orElse fun _ =>
      (dropWords? "sample".toList "input".toList cs).orElse fun _ =>
        dropWords? "input".toList "sample".toList cs

/- An Arabic number with an optional sign, or a Chinese one. -/
def isNumber (isDecimal : Char → Bool) (cs : List Char) : Bool :=
  let digits :=
    if cs.head?.any (fun c => c == '#' || c == '№') then cs.tail.dropWhile PyText.isSpace else cs
  (!digits.isEmpty && digits.all isDecimal) ||
    (!cs.isEmpty && cs.all fun c => "一二三四五六七八九十".toList.contains c)

/-- `_SAMPLE_INPUT_HEADING.fullmatch(title)` -/
def isSampleInput (isDecimal : Char → Bool) (title : String) : Bool :=
  match dropSampleInput? title.toList with
  | none => false
  | some rest =>
    let open' := if rest.getLast?.any (fun c => c == ':' || c == '：') then rest.dropLast else rest
    let number := (open'.rdropWhile PyText.isSpace).dropWhile PyText.isSpace
    number.isEmpty || isNumber isDecimal number

structure Marker where
  char : Char
  length : Nat
  deriving DecidableEq, Repr

/-- `_FENCE.match(line)` with its group -/
def fence (line : String) : Option Marker :=
  let cs := line.toList.dropWhile PyText.isSpace
  match cs.head? with
  | none => none
  | some char =>
    let length := (cs.takeWhile (· = char)).length
    if (char = '\x60' ∨ char = '~') ∧ 3 ≤ length ∧
        (cs.dropWhile (· = char)).all (fun c => c != '\x60' && c != '~') = true then
      some ⟨char, length⟩
    else none

/-- `closing.match(line)` -/
def closes (marker : Marker) (line : String) : Bool :=
  let cs := line.toList.dropWhile PyText.isSpace
  decide (marker.length ≤ (cs.takeWhile (· = marker.char)).length) &&
    (cs.dropWhile (· = marker.char)).all PyText.isSpace

inductive Reason where
  | noFence
  | unclosed
  | empty
  | extraContent
  deriving DecidableEq, Repr

inductive Warning where
  | section (label : String) (reason : Reason)
  | noHeading
  deriving DecidableEq, Repr

def Reason.text : Reason → String
  | .noFence => "标题后未找到 fenced code block，样例抽取未完全确认"
  | .unclosed => "fenced code block 未闭合，样例抽取未完全确认"
  | .empty => "fenced code block 为空，样例抽取未完全确认"
  | .extraContent => "标题与代码块之间含额外内容，已抽取但请教师确认"

def Warning.text : Warning → String
  | .section label reason => label ++ ": " ++ reason.text
  | .noHeading => "未识别到输入样例 / Sample Input 标题，样例抽取未完全确认"

/- The search for the first fence after a heading: whether other content was passed, and the
   marker of the fence with the lines after it. -/
def findFence (skippedContent : Bool) : List String → Bool × Option (Marker × List String)
  | [] => (skippedContent, none)
  | line :: rest =>
    if (heading line).isSome then (skippedContent, none)
    else match fence line with
      | some marker => (skippedContent, some (marker, rest))
      | none => findFence (skippedContent || PyText.strip line != "") rest

/- The lines of the block and the lines after its closing line. -/
def closeBlock (marker : Marker) : List String → Option (List String × List String)
  | [] => none
  | line :: rest =>
    if closes marker line then some ([], rest)
    else (closeBlock marker rest).map fun found => (line :: found.1, found.2)

def sampleBytes (content : List String) : List UInt8 :=
  ("\n".intercalate content).toUTF8.toList

structure Extraction where
  hashes : Finset String := ∅
  warnings : List Warning := []
  foundHeading : Bool := false

def Extraction.warn (s : Extraction) (label : String) (reason : Reason) : Extraction :=
  { s with warnings := s.warnings ++ [.section label reason] }

/- The body of the loop at an accepted heading. -/
def extractSection (label : String) (rest : List String) (s : Extraction) : Extraction :=
  let s := { s with foundHeading := true }
  let (skippedContent, fenceMatch) := findFence false rest
  match fenceMatch with
  | none => s.warn label .noFence
  | some (marker, after) =>
    match closeBlock marker after with
    | none => s.warn label .unclosed
    | some (content, _) =>
      let sample := sampleBytes content
      if PyBytes.strip sample = [] then s.warn label .empty
      else
        let s := { s with hashes := insert (InputDigest.normalizedInputDigest sample) s.hashes }
        if skippedContent then s.warn label .extraContent else s

def labelOf (title : String) : String := if title = "" then "样例输入" else title

def acceptedTitle (isDecimal : Char → Bool) (line : String) : Option String :=
  match heading line with
  | none => none
  | some text => if isSampleInput isDecimal (titleOf text) then some (titleOf text) else none

def extractLines (isDecimal : Char → Bool) (s : Extraction) : List String → Extraction
  | [] => s
  | line :: rest =>
    match acceptedTitle isDecimal line with
    | none => extractLines isDecimal s rest
    | some title => extractLines isDecimal (extractSection (labelOf title) rest s) rest

def extractSampleInputHashes (isDecimal : Char → Bool) (markdown : String) :
    List String × List Warning :=
  let s := extractLines isDecimal {} (linesOf markdown)
  (s.hashes.sort (· ≤ ·), if s.foundHeading then s.warnings else s.warnings ++ [.noHeading])

end NoiContest.SampleInputs
