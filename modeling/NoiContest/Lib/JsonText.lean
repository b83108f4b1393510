import Mathlib.Data.List.Sort

/- Compact JSON texts with sorted keys and raw Unicode, the form that Python's json.dumps
   gives under sort_keys, ensure_ascii=False and the separators comma and colon. -/
namespace JsonText

inductive Json where
  | null
  | bool : Bool → Json
  | int : Int → Json
  | str : String → Json
  | arr : List Json → Json
  | obj : List (String × Json) → Json

def hexDigit (n : Nat) : Char := if n < 10 then Char.ofNat (48 + n) else Char.ofNat (87 + n)

def escapeChar (c : Char) : List Char :=
  if c = '"' then ['\\', '"']
  else if c = '\\' then ['\\', '\\']
  else if c = '\n' then ['\\', 'n']
  else if c = '\r' then ['\\', 'r']
  else if c = '\t' then ['\\', 't']
  else if c.toNat = 8 then ['\\', 'b']
  else if c.toNat = 12 then ['\\', 'f']
  else if c.toNat < 32 then
    ['\\', 'u', '0', '0', hexDigit (c.toNat / 16), hexDigit (c.toNat % 16)]
  else [c]

/- How a character is written: with a short escape, as four hexadecimal digits, or as itself. -/
inductive Written (c : Char) : List Char → Prop where
  | short {d : Char} (known : d ∈ ['"', '\\', 'n', 'r', 't', 'b', 'f']) : Written c ['\\', d]
  | code {n m : Nat} (high : n < 16) (low : m < 16) :
      Written c ['\\', 'u', '0', '0', hexDigit n, hexDigit m]
  | plain (apart : c ≠ '"') : Written c [c]

theorem escapeChar_written (c : Char) : Written c (escapeChar c) := by
  unfold escapeChar
  refine iteInduction (fun _ => .short (by decide)) fun apart => ?_
  iterate 6 refine iteInduction (fun _ => .short (by decide)) fun _ => ?_
  exact iteInduction (fun small => .code (by omega) (by omega)) fun _ => .plain apart

def quote (s : String) : String :=
  "\"" ++ String.ofList (s.toList.flatMap escapeChar) ++ "\""

/- Keys are compared by code point, as Python compares strings. -/
def sortFields (fields : List (String × String)) : List (String × String) :=
  fields.insertionSort (fun a b => a.1 ≤ b.1)

mutual

def dumps : Json → String
  | .null => "null"
  | .bool b => if b then "true" else "false"
  | .int n => toString n
  | .str s => quote s
  | .arr items => "[" ++ String.intercalate "," (dumpsItems items) ++ "]"
  | .obj fields => "\x7b" ++ String.intercalate ","
      ((sortFields (dumpsFields fields)).map fun field => quote field.1 ++ ":" ++ field.2) ++ "\x7d"

def dumpsItems : List Json → List String
  | [] => []
  | item :: rest => dumps item :: dumpsItems rest

def dumpsFields : List (String × Json) → List (String × String)
  | [] => []
  | (name, value) :: rest => (name, dumps value) :: dumpsFields rest

end

example : dumps (.obj [("operation", .str "freeze"),
    ("arguments", .obj [("now_ms", .int 5), ("names", .arr [.str "a\"b", .null])])]) =
    "\x7b\"arguments\":\x7b\"names\":[\"a\\\"b\",null],\"now_ms\":5\x7d,\"operation\":\"freeze\"\x7d" := by
  decide +kernel

end JsonText
