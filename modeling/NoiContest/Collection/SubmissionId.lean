import NoiContest.Lib.JsonText
import NoiContest.Lib.Sha256

/- The idempotency keys of services/hydro_submit.py: the digest of a compact JSON array in ASCII. -/
namespace NoiContest.Collection

/-- A backslash, u and four digits. -/
def unicodeEscape (n : Nat) : List Char :=
  '\\' :: 'u' :: [n / 4096 % 16, n / 256 % 16, n / 16 % 16, n % 16].map JsonText.hexDigit

/-- A character under ensure_ascii=True, as a surrogate pair above the basic plane. -/
def asciiChar (c : Char) : List Char :=
  if c = '"' then ['\\', '"']
  else if c = '\\' then ['\\', '\\']
  else if c = '\n' then ['\\', 'n']
  else if c = '\r' then ['\\', 'r']
  else if c = '\t' then ['\\', 't']
  else if c.toNat = 8 then ['\\', 'b']
  else if c.toNat = 12 then ['\\', 'f']
  else if 32 ≤ c.toNat ∧ c.toNat < 127 then [c]
  else if c.toNat < 0x10000 then unicodeEscape c.toNat
  else unicodeEscape (0xd800 + (c.toNat - 0x10000) / 1024) ++
    unicodeEscape (0xdc00 + (c.toNat - 0x10000) % 1024)

def asciiQuote (s : String) : List Char := '"' :: s.toList.flatMap asciiChar ++ ['"']

/- An item of the arrays that are hashed. -/
inductive Item where
  | text (s : String)
  | number (n : Int)
  deriving DecidableEq, Repr

def Item.dumps : Item → List Char
  | text s => asciiQuote s
  | number n => (toString n).toList

/-- `json.dumps(items, ensure_ascii=True, separators=(",", ":"))` -/
def dumpsItems (items : List Item) : String :=
  String.ofList ('[' :: (List.intercalate [','] (items.map Item.dumps)) ++ [']'])

def finalIdentity (session tid : String) (uid : Int) (pid : String) : List Item :=
  [.text session, .text tid, .number uid, .text pid]

def realtimeIdentity (session tid : String) (uid : Int) (pid clientNonce : String) : List Item :=
  [.text "web-v1", .text session, .text tid, .number uid, .text pid, .text clientNonce]

/-- `HydroSubmitter.submission_id` -/
def submissionId (session tid : String) (uid : Int) (pid : String) : String :=
  Sha256.ofText (dumpsItems (finalIdentity session tid uid pid))

/-- `HydroSubmitter.realtime_submission_id` -/
def realtimeSubmissionId (session tid : String) (uid : Int) (pid clientNonce : String) : String :=
  Sha256.ofText (dumpsItems (realtimeIdentity session tid uid pid clientNonce))

end NoiContest.Collection
