import NoiContest.ClosedFrontend.RuleText
import NoiContest.Lib.BraceBlocks
import NoiContest.Lib.Outcome
import NoiContest.Lib.TextLines

/- Hardening a Caddyfile: the submit route of the Hydro sites is answered with 404, and the closed
   frontend is imported. Sites are found by counting braces line by line. -/
namespace NoiContest.ClosedFrontend
open PyText TextLines BraceBlocks Outcome

def isDomainChar (c : Char) : Bool := c.isAlphanum || c == '.' || c == '-'

/-- What `_domain` lets through: `[A-Za-z0-9](?:[A-Za-z0-9.-]*[A-Za-z0-9])?` with a dot and no two
    dots in a row. -/
structure Domain where
  name : Text
  chars : ∀ c ∈ name, isDomainChar c = true
  dotted : '.' ∈ name
  ends : (name.head?.any Char.isAlphanum && name.getLast?.any Char.isAlphanum) = true
  single : name.IsChain fun a b => ¬ (a = '.' ∧ b = '.')

def strip (line : Text) : Text := ((line.dropWhile isSpace).reverse.dropWhile isSpace).reverse

def httpSite : Text := ":80".toList

/-- `stripped == f"{target} {"` with the brace -/
def opens (target : Text) (line : Line) : Bool := strip line == target ++ " \x7b".toList

def importLine (snippet : Text) : Text := "import ".toList ++ snippet

def isImport (snippet : Text) (line : Line) : Bool := strip line == importLine snippet

def ruleLines (line : Line) : List Line :=
  let indent := line.takeWhile isSpace ++ "  ".toList
  [indent ++ marker ++ "\n".toList,
   indent ++ "handle /orchestrator/submit* \x7b\n".toList,
   indent ++ "  respond 404\n".toList,
   indent ++ "\x7d\n".toList]

/- The insertions for a line at depth zero, with the lines from it on; a target whose block has the
   marker somewhere gets none. -/
def insertions (targets : List Text) (line : Line) (rest : List Line) : List Line :=
  targets.flatMap fun target =>
    if opens target line && markerCount (takeBlock net 0 (line :: rest)).flatten == 0
    then ruleLines line else []

def insertRules (targets : List Text) : Int → List Line → List Line
  | _, [] => []
  | d, line :: rest =>
    line :: (if d = 0 then insertions targets line rest else []) ++
      insertRules targets (d + net line) rest

def endsWithNewline (line : Line) : Bool := line.getLast? == some '\n'

/-- `lines[-1] += "\n"` where the newline is missing -/
def endLast : List Line → List Line
  | [] => []
  | [last] => [if endsWithNewline last then last else last ++ ['\n']]
  | line :: rest => line :: endLast rest

def siteBlocks (target : Text) (lines : List Line) : List Text :=
  (blocks net (opens target) 0 lines).map List.flatten

def checkSite (lines : List Line) (target : Text) : Except String Unit :=
  match siteBlocks target lines with
  | [block] => raiseIf (ruleCount block ≠ 1) "Hydro submit hardening rule differs"
  | _ => .error "Caddy site block count differs"

/-- `_harden_once` -/
def hardenOnce (domain : Text) (snippet : Text) (text : Text) : Except String Text := do
  let lines := splitlines text
  [httpSite, domain].forM (checkSite lines)
  raiseIf (lines.countP (isImport snippet) ≠ 1) "closed frontend import count differs"
  raiseIf (markerCount text ≠ 2) "Hydro submit hardening marker count differs"
  return text

/-- The lines that the transform makes before it checks itself. -/
def hardenLines (domain : Text) (snippet : Text) (lines : List Line) : List Line :=
  let lines := insertRules [httpSite, domain] 0 lines
  if lines.countP (isImport snippet) = 0 then
    endLast lines ++ ["\n".toList, importLine snippet ++ "\n".toList]
  else lines

def hardenText (domain : Text) (snippet : Text) (text : Text) : Except String Text := do
  let lines := splitlines text
  raiseIf (∃ target ∈ [httpSite, domain], siteBlocks target lines = []) "Caddy site block differs"
  let hardened := insertRules [httpSite, domain] 0 lines
  raiseIf (1 < hardened.countP (isImport snippet)) "closed frontend import is duplicated"
  let desired := (hardenLines domain snippet lines).flatten
  let again ← hardenOnce domain snippet desired
  raiseIf (desired ≠ again) "Caddy transform is not idempotent"
  return desired

/-- `harden_caddyfile` on bytes -/
def hardenCaddyfile (raw : ByteArray) (domain : Domain) (snippet : String) :
    Except String ByteArray :=
  match String.fromUTF8? raw with
  | none => .error "Caddyfile is not UTF-8"
  | some text => do
    let desired ← hardenText domain.name snippet.toList text.toList
    return (String.ofList desired).toUTF8

end NoiContest.ClosedFrontend
