import NoiContest.Lib.Dict
import NoiContest.Lib.FreshNames
import NoiContest.Lib.Outcome
import NoiContest.Lib.PyText
import NoiContest.Lib.PyValue

/- The student filenames of a Hydro contest, as services/problem_mapping.py chooses them. -/
namespace NoiContest.ProblemMapping

abbrev Value := PyValue

abbrev Document := List (String × PyValue)

def Document.get (d : Document) (key : String) : Value := PyValue.get d key

/- What yaml.safe_load raises: a YAMLError, or an exception of one of its constructors. -/
inductive LoadError where
  | yamlError
  | raised
  deriving DecidableEq, Repr

/- The parts of Python and of its YAML package that the mapping calls. -/
structure Builtins extends PyValue.Conversions where
  lower : String → String
  safeLoad : String → Except LoadError Value

inductive Failure where
  | problemMappingError (message : String)
  | raised
  deriving DecidableEq, Repr

def isSlugLetter (c : Char) : Bool := 'a' ≤ c && c ≤ 'z'

def isSlugChar (c : Char) : Bool := isSlugLetter c || ('0' ≤ c && c ≤ '9') || c == '_'

/-- `_SLUG.fullmatch` -/
def isSlug (s : String) : Bool :=
  match s.toList with
  | [] => false
  | c :: rest => isSlugLetter c && rest.all isSlugChar && decide (rest.length ≤ 63)

def endsInSuffix (cs : List Char) : Option (List Char) :=
  let cut (word : List Char) :=
    let stem := cs.take (cs.length - (word.length + 1))
    let suffix := cs.drop (cs.length - (word.length + 1))
    if suffix.head? = some '.' ∧ PyText.dropWord? word suffix.tail = some [] then some stem
    else none
  (cut ['i', 'n']).or (cut ['o', 'u', 't'])

/- `re.sub` with the pattern of the two suffixes; the end of the pattern also matches before a
   line feed that ends the text. -/
def dropSuffix (s : String) : String :=
  let cs := s.toList
  match endsInSuffix cs with
  | some stem => String.ofList stem
  | none =>
    if cs.getLast? = some '\n' then
      match endsInSuffix cs.dropLast with
      | some stem => String.ofList (stem ++ ['\n'])
      | none => s
    else s

/- The fields of a config value that is a mapping or the text of one. -/
def configFields (b : Builtins) : Value → Except Failure Document
  | .mapping fields => .ok fields
  | .text s =>
    if PyText.strip s ≠ "" then
      match b.safeLoad s with
      | .ok (.mapping fields) => .ok fields
      | .ok _ => .ok []
      | .error .yamlError => .ok []
      | .error .raised => .error .raised
    else .ok []
  | _ => .ok []

def filenameOf (b : Builtins) (config : Document) : String :=
  match config.get "filename" with
  | .text filename =>
    let candidate := dropSuffix (b.lower (PyText.strip filename))
    if isSlug candidate then candidate else ""
  | _ => ""

/-- `_configured_filename` -/
def configuredFilename (b : Builtins) (value : Value) : Except Failure String :=
  (configFields b value).map (filenameOf b)

structure Problem where
  docId : Int
  pid : String
  filename : String
  safePid : String
  deriving DecidableEq, Repr

def readDocIds (b : Builtins) (docIds : List Int) : List Value → Except Failure (List Int)
  | [] => .ok docIds
  | .bool _ :: _ => .error (.problemMappingError "Hydro 比赛题目编号无效")
  | value :: rest =>
    match PyValue.toInt b.toConversions value with
    | .overflow => .error .raised
    | .refused => .error (.problemMappingError "Hydro 比赛题目编号无效")
    | .number docId =>
      if docId ≤ 0 ∨ docId ∈ docIds then
        .error (.problemMappingError "Hydro 比赛题目编号无效或重复")
      else readDocIds b (docIds ++ [docId]) rest

def publicPid (b : Builtins) (problem : Document) (docId : Int) : String :=
  let pid := problem.get "pid"
  PyText.strip (if PyValue.truthy b.toConversions pid then PyValue.toStr b.toConversions pid
    else toString docId)

def safePid (b : Builtins) (pid : String) : String :=
  if isSlug (b.lower pid) then b.lower pid else ""

def actualId (b : Builtins) : Value → PyValue.Conversion
  | .bool _ => .refused
  | value => PyValue.toInt b.toConversions value

def readProblem (b : Builtins) (getProblem : Int → Value) (docId : Int) :
    Except Failure Problem :=
  match getProblem docId with
  | .mapping problem =>
    match actualId b (Document.get problem "docId") with
    | .overflow => .error .raised
    | .refused => .error (.problemMappingError
        ("Hydro 题目 docId=" ++ toString docId ++ " 返回编号无效"))
    | .number actual =>
      if actual ≠ docId then .error (.problemMappingError
        ("Hydro 题目 docId=" ++ toString docId ++ " 不属于本场比赛"))
      else do
        let pid := publicPid b problem docId
        let filename ← configuredFilename b (Document.get problem "config")
        return { docId, pid, filename, safePid := safePid b pid }
  | _ => .error (.problemMappingError ("无法读取本场 Hydro 题目 docId=" ++ toString docId))

inductive Source where
  | configFilename
  | pid
  | fallback
  deriving DecidableEq, Repr

def Source.text : Source → String
  | .configFilename => "config.filename"
  | .pid => "pid"
  | .fallback => "fallback"

/- A problem with its places in the lists `assigned` and `sources`. -/
structure Slot where
  item : Problem
  assigned : Option (String × Source)
  deriving DecidableEq, Repr

/-- The names that the counter of a pass counts. -/
def contenders (candidate : Problem → String) (slots : List Slot) : List String :=
  ((slots.filter fun slot => slot.assigned = none).map fun slot => candidate slot.item).filter
    (· ≠ "")

/- The passes over the filenames and over the public pids. -/
def assignUnique (candidate : Problem → String) (source : Source) (counted : List String) :
    List String → List Slot → List Slot × List String
  | used, [] => ([], used)
  | used, slot :: rest =>
    let name := candidate slot.item
    if slot.assigned = none ∧ name ≠ "" ∧ counted.count name = 1 ∧ name ∉ used then
      let (later, used) := assignUnique candidate source counted (name :: used) rest
      ({ slot with assigned := some (name, source) } :: later, used)
    else
      let (later, used) := assignUnique candidate source counted used rest
      (slot :: later, used)

def fallbackName (n : Nat) : String := "problem" ++ toString n

structure Named where
  item : Problem
  slug : String
  source : Source
  deriving DecidableEq, Repr

def assignFallbacks (used : List String) (fallback : Nat) : List Slot → List Named
  | [] => []
  | slot :: rest =>
    match slot.assigned with
    | some (slug, source) => ⟨slot.item, slug, source⟩ :: assignFallbacks used fallback rest
    | none =>
      let number := FreshNames.firstFree fallbackName used fallback
      let slug := fallbackName number
      ⟨slot.item, slug, .fallback⟩ :: assignFallbacks (slug :: used) (number + 1) rest

def assignSlugs (problems : List Problem) : List Named :=
  let slots := problems.map fun item => ⟨item, none⟩
  let (slots, used) := assignUnique Problem.filename .configFilename
    (contenders Problem.filename slots) [] slots
  let (slots, used) := assignUnique Problem.safePid .pid
    (contenders Problem.safePid slots) used slots
  assignFallbacks used 1 slots

structure Detail where
  position : Nat
  docId : Int
  pid : String
  slug : String
  source : String
  inputFilename : String
  outputFilename : String
  deriving DecidableEq, Repr

def detail (position : Nat) (named : Named) : Detail where
  position := position
  docId := named.item.docId
  pid := named.item.pid
  slug := named.slug
  source := named.source.text
  inputFilename := named.slug ++ ".in"
  outputFilename := named.slug ++ ".out"

structure Mapping where
  slugs : List String
  pidMap : Dict String String
  details : List Detail

/- The dict comprehension writes the entries in order. -/
def pidMapOf (named : List Named) : Dict String String :=
  named.foldl (fun map named => map.set named.slug named.item.pid) Dict.empty

def mappingOf (named : List Named) : Mapping where
  slugs := named.map Named.slug
  pidMap := pidMapOf named
  details := (named.zipIdx 1).map fun pair => detail pair.2 pair.1

def rawPids : Value → Option (List Value)
  | .list [] => none
  | .list values => some values
  | _ => none

def autoProblemMapping (b : Builtins) (contest : Document) (getProblem : Int → Value) :
    Except Failure Mapping := do
  match rawPids (contest.get "pids") with
  | none => .error (.problemMappingError "Hydro 比赛没有题目，无法自动生成文件名")
  | some values =>
    let docIds ← readDocIds b [] values
    Outcome.raiseIf (100 < docIds.length) (.problemMappingError "Hydro 比赛题目数量超过 100")
    let problems ← docIds.mapM (readProblem b getProblem)
    return mappingOf (assignSlugs problems)

end NoiContest.ProblemMapping
