import NoiContest.Lib.JsonText
import NoiContest.Lib.Outcome
import NoiContest.Noictl.Keys

/- A configuration file with its environment references expanded, and the view of it with the
   values left out that must not be shown. -/
namespace NoiContest.Noictl
open Outcome PyText

/-- A float by its text. -/
structure PyFloat where
  repr : String
  finite : Bool
  plain : ' ' ∉ repr.toList
  deriving DecidableEq

/-- A leaf; `other` is a value of another type, such as a date, by its text. -/
inductive Scalar where
  | null
  | bool (value : Bool)
  | int (value : Int)
  | float (value : PyFloat)
  | str (value : String)
  | other (text : String)
  deriving DecidableEq

/-- `str(value)` -/
def Scalar.text : Scalar → String
  | .null => "None"
  | .bool b => if b then "True" else "False"
  | .int n => toString n
  | .float x => x.repr
  | .str s => s
  | .other t => t

/-- A key of a YAML mapping; `other` is one that is no string. -/
inductive Key where
  | str (name : String)
  | other
  deriving DecidableEq

inductive Tree (κ : Type) where
  | scalar (value : Scalar)
  | list (items : List (Tree κ))
  | dict (fields : List (κ × Tree κ))

inductive Part where
  | key (name : String)
  | index (position : Nat)
  deriving DecidableEq

/- A YAML mapping has each key once. -/
mutual

def Distinct : Tree Key → Prop
  | .scalar _ => True
  | .list items => DistinctItems items
  | .dict fields => (fields.map Prod.fst).Nodup ∧ DistinctFields fields

def DistinctItems : List (Tree Key) → Prop
  | [] => True
  | item :: rest => Distinct item ∧ DistinctItems rest

def DistinctFields : List (Key × Tree Key) → Prop
  | [] => True
  | (_, item) :: rest => Distinct item ∧ DistinctFields rest

end

/-- What the YAML parser gives for a file. -/
structure RawConfig where
  tree : Tree Key
  distinct : Distinct tree

abbrev Path := List Part

def pathText (path : Path) : String :=
  path.foldl (fun output part =>
    match part with
    | .index i => output ++ "[" ++ toString i ++ "]"
    | .key name => output ++ (if output.isEmpty then "" else ".") ++ name) ""

/- References `${NAME}` and `${NAME:-default}`. -/

inductive Piece where
  | plain (c : Char)
  | ref (name : String) (fallback : Option String)

def isNameStart (c : Char) : Bool := c.isUpper || c == '_'

def isNameChar (c : Char) : Bool := isNameStart c || c.isDigit

/-- One match of `_ENV` at the start of a text, with what follows it. -/
def readRef : List Char → Option (Piece × List Char)
  | '$' :: '\x7b' :: rest =>
    let name := rest.takeWhile isNameChar
    if name.head?.any isNameStart then
      match rest.dropWhile isNameChar with
      | '\x7d' :: after => some (.ref (String.ofList name) none, after)
      | ':' :: '-' :: more =>
        match more.dropWhile (· ≠ '\x7d') with
        | _ :: after =>
          some (.ref (String.ofList name) (some (String.ofList (more.takeWhile (· ≠ '\x7d')))), after)
        | [] => none
      | _ => none
    else none
  | _ => none

/-- The pieces of a text that is not longer than the bound. -/
def readPieces : Nat → List Char → List Piece
  | 0, _ => []
  | _, [] => []
  | n + 1, c :: rest =>
    match readRef (c :: rest) with
    | some (piece, after) => piece :: readPieces n after
    | none => .plain c :: readPieces n rest

def pieces (text : String) : List Piece := readPieces text.toList.length text.toList

abbrev Env := String → Option String

/-- Where a part of a value comes from. -/
inductive Origin where
  | environment (name : String)
  | default (name : String)
  deriving DecidableEq

def Origin.text : Origin → String
  | .environment name => "environment:" ++ name
  | .default name => "default:" ++ name

structure Expansion where
  text : List Char := []
  origins : List Origin := []
  secrets : List String := []

def Expansion.append (a b : Expansion) : Expansion :=
  ⟨a.text ++ b.text, a.origins ++ b.origins, a.secrets ++ b.secrets⟩

/-- The function `replace` -/
def expandPiece (env : Env) : Piece → Except String Expansion
  | .plain c => .ok ⟨[c], [], []⟩
  | .ref name fallback =>
    match env name with
    | some replacement =>
      .ok ⟨replacement.toList, [.environment name],
        if sensitiveEnvName name then [replacement] else []⟩
    | none =>
      match fallback with
      | some default => .ok ⟨default.toList, [.default name], []⟩
      | none => .error "missing_environment"

/-- `dict.fromkeys` -/
def fromKeys (texts : List String) : List String :=
  texts.foldl (fun seen text => if text ∈ seen then seen else seen ++ [text]) []

def sourceText (origins : List Origin) : String :=
  if origins = [] then "file"
  else String.intercalate "," (fromKeys (origins.map Origin.text))

structure Expanded where
  value : Scalar
  source : String
  secrets : List String

def expandScalar (env : Env) : Scalar → Except String Expanded
  | .str text => do
    let parts ← (pieces text).mapM (expandPiece env)
    let whole := parts.foldl Expansion.append {}
    return ⟨.str (String.ofList whole.text), sourceText whole.origins, whole.secrets⟩
  | value => .ok ⟨value, "file", []⟩

/-- What `_expand` writes down besides its result. -/
structure Log where
  sources : List (Path × String)
  secrets : List String

def Log.append (a b : Log) : Log := ⟨a.sources ++ b.sources, a.secrets ++ b.secrets⟩

mutual

def expand (env : Env) (path : Path) : Tree Key → Except String (Tree String × Log)
  | .scalar value => do
    let expanded ← expandScalar env value
    return (.scalar expanded.value, ⟨[(path, expanded.source)], expanded.secrets⟩)
  | .list items => do
    let (items, log) ← expandItems env path 0 items
    return (.list items, log)
  | .dict fields => do
    let (fields, log) ← expandFields env path fields
    return (.dict fields, log)

def expandItems (env : Env) (path : Path) (position : Nat) :
    List (Tree Key) → Except String (List (Tree String) × Log)
  | [] => .ok ([], ⟨[], []⟩)
  | item :: rest => do
    let (item, log) ← expand env (path ++ [.index position]) item
    let (rest, later) ← expandItems env path (position + 1) rest
    return (item :: rest, log.append later)

def expandFields (env : Env) (path : Path) :
    List (Key × Tree Key) → Except String (List (String × Tree String) × Log)
  | [] => .ok ([], ⟨[], []⟩)
  | (.other, _) :: _ => .error "non_string_key"
  | (.str key, item) :: rest => do
    let (item, log) ← expand env (path ++ [.key key]) item
    let (rest, later) ← expandFields env path rest
    return ((key, item) :: rest, log.append later)

end

structure ConfigState where
  effective : Tree String
  sources : List (Path × String)
  secretCandidates : List String

/-- The part of `_load_config_state` behind the YAML parser; the shared validator is any test of
    the expanded configuration. -/
def loadConfigState (validate : Tree String → Bool) (env : Env) (raw : RawConfig) :
    Except String ConfigState := do
  match raw.tree with
  | .dict _ => pure ()
  | _ => throw "invalid_root"
  let (effective, log) ← expand env [] raw.tree
  raiseIf (validate effective = false) "validation_failed"
  return ⟨effective, log.sources, log.secrets⟩

/-- `state.sources.get(path, "file")`; each path was written once. -/
def sourceAt (sources : List (Path × String)) (path : Path) : String :=
  ((sources.find? fun entry => entry.1 = path).map Prod.snd).getD "file"

/-- `part.partition(":")`, the last of the three -/
def afterColon (part : List Char) : List Char := (part.dropWhile (· ≠ ':')).tail

def sourceIsSafe (source : String) : Bool :=
  source == "file" || (source.toList.splitOn ',').all fun part =>
    let name := String.ofList (afterColon part)
    !name.isEmpty && !sensitiveEnvName name &&
      (!"environment:".toList.isPrefixOf part || decide (name ∈ safeEnvNames))

mutual

/-- `_flatten_strings` -/
def flattenStrings : Tree String → List String
  | .scalar .null => []
  | .scalar value => [value.text]
  | .list items => flattenItems items
  | .dict fields => flattenFields fields

def flattenItems : List (Tree String) → List String
  | [] => []
  | item :: rest => flattenStrings item ++ flattenItems rest

def flattenFields : List (String × Tree String) → List String
  | [] => []
  | (key, item) :: rest => key :: flattenStrings item ++ flattenFields rest

end

/-- What a part of the configuration becomes, the entries written to the source map, and the texts
    that must not show up. -/
structure View (α : Type) where
  shown : α
  sources : List (String × String)
  candidates : List String

def text (s : String) : Tree String := .scalar (.str s)

def hiddenView (display : Path) (class_ : String) (candidates : List String) :
    View (Tree String) :=
  ⟨text ("<redacted:" ++ class_ ++ ">"), [(pathText display, "redacted")], candidates⟩

def nearestKey (path : Path) : String :=
  (path.reverse.findSome? fun part =>
    match part with
    | .key name => some name
    | .index _ => none).getD ""

def classAt (path : Path) : KeyClass :=
  if nearestKey path = "" then .container else classifyKey (nearestKey path)

def isKnown (path : Path) (key : String) : Bool :=
  decide (key ∈ knownKeys) ||
    ((nearestKey path == "validators" || nearestKey path == "oracles") && isDynamicSlug key)

/-- `result[key] = value` -/
def put (fields : List (String × Tree String)) (key : String) (value : Tree String) :
    List (String × Tree String) :=
  if key ∈ fields.map Prod.fst then
    fields.map fun field => if field.1 = key then (key, value) else field
  else fields ++ [(key, value)]

def redactScalar (source : String) (class_ : KeyClass) (display : Path) (value : Scalar) :
    View (Tree String) :=
  let hidden := hiddenView display "unclassified" (flattenStrings (.scalar value))
  match value with
  | .other _ => hidden
  | .float ⟨_, false, _⟩ => hidden
  | value =>
    if class_ ≠ .safe ∨ sourceIsSafe source = false then hidden
    else
      match value with
      | .str s =>
        if looksSensitiveString s then hidden
        else ⟨.scalar value, [(pathText display, source)], []⟩
      | value => ⟨.scalar value, [(pathText display, source)], []⟩

/-- The values under a key of a redacted class are hidden as a whole. -/
def unlessRedacted (path display : Path) (value : Tree String) (view : View (Tree String)) :
    View (Tree String) :=
  if (classAt path).isRedacted then
    hiddenView display (classAt path).name (flattenStrings value)
  else view

mutual

def redact (sources : List (Path × String)) (original display : Path) :
    Tree String → View (Tree String)
  | .scalar value =>
    unlessRedacted original display (.scalar value)
      (redactScalar (sourceAt sources original) (classAt original) display value)
  | .list items =>
    let view := redactItems sources original display 0 items
    unlessRedacted original display (.list items)
      ⟨.list view.shown, view.sources, view.candidates⟩
  | .dict fields =>
    let view := redactFields sources original display 0 [] fields
    unlessRedacted original display (.dict fields)
      ⟨.dict view.shown, view.sources, view.candidates⟩

def redactItems (sources : List (Path × String)) (original display : Path) (position : Nat) :
    List (Tree String) → View (List (Tree String))
  | [] => ⟨[], [], []⟩
  | item :: rest =>
    let view := redact sources (original ++ [.index position]) (display ++ [.index position]) item
    let later := redactItems sources original display (position + 1) rest
    ⟨view.shown :: later.shown, view.sources ++ later.sources,
      view.candidates ++ later.candidates⟩

/-- With the number of hidden keys and the fields so far. -/
def redactFields (sources : List (Path × String)) (original display : Path) (hidden : Nat)
    (result : List (String × Tree String)) :
    List (String × Tree String) → View (List (String × Tree String))
  | [] => ⟨result, [], []⟩
  | (key, item) :: rest =>
    if isKnown original key then
      let view := redact sources (original ++ [.key key]) (display ++ [.key key]) item
      let later := redactFields sources original display hidden (put result key view.shown) rest
      ⟨later.shown, view.sources ++ later.sources, view.candidates ++ later.candidates⟩
    else
      let safeKey := "unclassified_" ++ toString (hidden + 1)
      let view := hiddenView (display ++ [.key safeKey]) "unclassified" (key :: flattenStrings item)
      let later :=
        redactFields sources original display (hidden + 1) (put result safeKey view.shown) rest
      ⟨later.shown, view.sources ++ later.sources, view.candidates ++ later.candidates⟩

end

/-- Later entries of the source map replace earlier ones. -/
def sourceMap (entries : List (String × String)) : List (String × String) :=
  entries.foldl (fun map entry =>
    if entry.1 ∈ map.map Prod.fst then
      map.map fun old => if old.1 = entry.1 then entry else old
    else map ++ [entry]) []

def redactConfig (state : ConfigState) : View (Tree String) :=
  let view := redact state.sources [] [] state.effective
  ⟨view.shown, sourceMap view.sources, state.secretCandidates ++ view.candidates⟩

/- Dates and the like, which json.dumps refuses, and floats that are not finite are never shown. -/
def dumpsScalar : Scalar → String
  | .null => "null"
  | .bool b => if b then "true" else "false"
  | .int n => toString n
  | .float x => x.repr
  | .str s => JsonText.quote s
  | .other _ => ""

mutual

/-- `json.dumps` with raw Unicode, sorted keys and compact separators -/
def dumps : Tree String → String
  | .scalar value => dumpsScalar value
  | .list items => "[" ++ String.intercalate "," (dumpsItems items) ++ "]"
  | .dict fields => "\x7b" ++ String.intercalate "," ((JsonText.sortFields (dumpsFields fields)).map
      fun field => JsonText.quote field.1 ++ ":" ++ field.2) ++ "\x7d"

def dumpsItems : List (Tree String) → List String
  | [] => []
  | item :: rest => dumps item :: dumpsItems rest

def dumpsFields : List (String × Tree String) → List (String × String)
  | [] => []
  | (key, item) :: rest => (key, dumps item) :: dumpsFields rest

end

/-- `_installation_config_binding` -/
def installationConfigBinding (sha256 : String → String) (state : ConfigState) : String :=
  sha256 (dumps (redactConfig state).shown)

/-- The `redacted_effective_sha256` of a support bundle. -/
def redactedEffectiveSha256 (sha256 : String → String) (state : ConfigState) : String :=
  sha256 (dumps (redactConfig state).shown)

end NoiContest.Noictl
