import Mathlib.Data.Finset.Basic
import NoiContest.Lib.Base64Url
import NoiContest.Lib.Outcome
import NoiContest.Lib.PyText
import NoiContest.Lib.PyValue
import NoiContest.Lib.Sha256
import NoiContest.Lib.TextSize

/- The tickets that the plugin gives to teachers and the sessions of the orchestrator:
   makeTeacherTicket of the plugin and services/teacher_sso.py. -/
namespace NoiContest.TeacherSso
open JsonText

inductive Raised where
  | valueError (message : String)
  | overflowError
  | recursionError
  deriving DecidableEq, Repr

/- What json.loads raises: a JSONDecodeError or UnicodeDecodeError, which are ValueErrors, or a
   RecursionError. -/
inductive LoadError where
  | valueError
  | recursionError
  deriving DecidableEq, Repr

/- The parts of Python that the service calls. -/
structure Python extends PyValue.Conversions where
  jsonLoads : List UInt8 → Except LoadError PyValue

def utf8 (s : String) : List UInt8 := s.toUTF8.data.toList

structure TeacherIdentity where
  uid : Int
  uname : String
  tid : Option String
  expiresAt : Int
  technical : Bool
  deriving DecidableEq, Repr

def isTid (s : String) : Bool := PyText.isLowerHexOf 24 s

/-- `_TOKEN.fullmatch` -/
def isToken (s : String) : Bool :=
  decide (16 ≤ s.length) && decide (s.length ≤ 4096) && s.toList.all Base64Url.isDigit

def isSignature (s : String) : Bool :=
  decide (s.length = 43) && s.toList.all Base64Url.isDigit

def isNonce (s : String) : Bool :=
  decide (16 ≤ s.length) && decide (s.length ≤ 128) && s.toList.all Base64Url.isDigit

def b64encode (bytes : List UInt8) : String := String.ofList (Base64Url.encode bytes)

def sign (key purpose payload : String) : String :=
  b64encode (Sha256.hmac (utf8 key) (utf8 ("noi-teacher-" ++ purpose ++ "-v1:" ++ payload)))

/- The plugin -/

structure Teacher where
  uid : Nat
  uname : String
  tid : String
  deriving DecidableEq, Repr

/- The checks of the console handler, and the text of an ObjectId. -/
structure Admitted (t : Teacher) : Prop where
  positive : 0 < t.uid
  safe : t.uid ≤ 2 ^ 53 - 1
  named : t.uname ≠ ""
  short : TextSize.utf16Length t.uname ≤ 128
  objectId : PyText.isHexOf 24 t.tid = true

/- The nonce has eighteen random bytes; `now` counts milliseconds. -/
def ticketFields (t : Teacher) (nonce : List UInt8) (now : Nat) : List (String × Json) :=
  let issuedAt := now / 1000
  [("exp", .int (issuedAt + 60)), ("iat", .int issuedAt), ("nonce", .str (b64encode nonce)),
    ("tid", .str t.tid.toLower), ("uid", .int t.uid), ("uname", .str t.uname), ("v", .int 1)]

def ticketPayload (t : Teacher) (nonce : List UInt8) (now : Nat) : String :=
  b64encode (utf8 (dumps (.obj (ticketFields t nonce now))))

def makeTeacherTicket (key : String) (t : Teacher) (nonce : List UInt8) (now : Nat) : String :=
  let encoded := ticketPayload t nonce now
  encoded ++ "." ++ sign key "ticket" encoded

/- The orchestrator -/

def invalid (message : String) : Raised := .valueError ("invalid " ++ message)

def b64decode (value : String) : Except Raised (List UInt8) := do
  Outcome.raiseIf (isToken value = false) (invalid "SSO token encoding")
  match Base64Url.decode value.toList with
  | none => .error (.valueError ("Invalid base64-encoded string: number of data characters (" ++
      toString value.length ++ ") cannot be 1 more than a multiple of 4"))
  | some bytes => .ok bytes

def splitToken (token : String) : Except Raised (String × String) := do
  Outcome.raiseIf (4096 + 1 + 43 < token.length) (invalid "SSO token encoding")
  match token.toList.splitOn '.' with
  | [payload, signature] => do
    Outcome.raiseIf (isToken (String.ofList payload) = false ∨
      isSignature (String.ofList signature) = false) (invalid "SSO token encoding")
    return (String.ofList payload, String.ofList signature)
  | _ => .error (invalid "SSO token encoding")

/- What the two verifiers differ in. -/
structure Kind where
  purpose : String
  label : String
  fields : List String
  hasNonce : Bool
  maximumLifetime : Int
  deriving DecidableEq, Repr

/- Every error of the decoder is a ValueError. -/
def loadPayload (py : Python) (kind : Kind) (payloadText : String) : Except Raised PyValue :=
  match b64decode payloadText with
  | .error _ => .error (invalid (kind.label ++ " payload"))
  | .ok bytes =>
    match py.jsonLoads bytes with
    | .ok payload => .ok payload
    | .error .valueError => .error (invalid (kind.label ++ " payload"))
    | .error .recursionError => .error .recursionError

def intField (py : Python) (kind : Kind) (payload : List (String × PyValue)) (name : String) :
    Except Raised Int :=
  match PyValue.toInt py.toConversions (PyValue.get payload name) with
  | .number n => .ok n
  | .refused => .error (invalid (kind.label ++ " values"))
  | .overflow => .error .overflowError

/- The checks on the decoded payload. -/
def checkPayload (py : Python) (kind : Kind) (now : Int) :
    PyValue → Except Raised TeacherIdentity
  | .mapping payload => do
    Outcome.raiseIf ((payload.map Prod.fst).toFinset ≠ kind.fields.toFinset)
      (invalid (kind.label ++ " fields"))
    let version ← intField py kind payload "v"
    let uid ← intField py kind payload "uid"
    let issuedAt ← intField py kind payload "iat"
    let expiresAt ← intField py kind payload "exp"
    let uname := PyValue.toStr py.toConversions (PyValue.get payload "uname")
    let tid := (PyValue.toStr py.toConversions (PyValue.get payload "tid")).toLower
    let nonce := PyValue.toStr py.toConversions (PyValue.get payload "nonce")
    Outcome.raiseIf (version ≠ 1 ∨ uid ≤ 0 ∨ uname = "" ∨ 128 < uname.length ∨ isTid tid = false ∨
        (kind.hasNonce = true ∧ isNonce nonce = false) ∨ now + 30 < issuedAt ∨ expiresAt < now ∨
        expiresAt ≤ issuedAt ∨ kind.maximumLifetime < expiresAt - issuedAt)
      (.valueError ("expired or invalid " ++ kind.label))
    return { uid, uname, tid := some tid, expiresAt, technical := false }
  | _ => .error (invalid (kind.label ++ " fields"))

/- The body that verify_hydro_ticket and verify_session share. -/
def verifyToken (py : Python) (kind : Kind) (token key : String) (now : Int) :
    Except Raised TeacherIdentity := do
  let (payloadText, signature) ← splitToken token
  Outcome.raiseIf (signature ≠ sign key kind.purpose payloadText)
    (invalid (kind.label ++ " signature"))
  let payload ← loadPayload py kind payloadText
  checkPayload py kind now payload

def ticketKind (maximumLifetime : Int) : Kind where
  purpose := "ticket"
  label := "SSO ticket"
  fields := ["v", "uid", "uname", "tid", "iat", "exp", "nonce"]
  hasNonce := true
  maximumLifetime := maximumLifetime

def sessionKind : Kind where
  purpose := "session"
  label := "teacher session"
  fields := ["v", "uid", "uname", "tid", "iat", "exp"]
  hasNonce := false
  maximumLifetime := 24 * 60 * 60

def verifyHydroTicket (py : Python) (ticket key : String) (now : Int)
    (maximumLifetime : Int := 120) : Except Raised TeacherIdentity :=
  verifyToken py (ticketKind maximumLifetime) ticket key now

def verifySession (py : Python) (token key : String) (now : Int) :
    Except Raised TeacherIdentity :=
  verifyToken py sessionKind token key now

def sessionFields (identity : TeacherIdentity) (now lifetime : Int) : List (String × Json) :=
  [("v", .int 1), ("uid", .int identity.uid), ("uname", .str identity.uname),
    ("tid", match identity.tid with
      | some tid => .str tid
      | none => .null),
    ("iat", .int now), ("exp", .int (now + lifetime))]

def sessionPayload (identity : TeacherIdentity) (now lifetime : Int) : String :=
  b64encode (utf8 (dumps (.obj (sessionFields identity now lifetime))))

def issueSession (identity : TeacherIdentity) (key : String) (now : Int)
    (lifetime : Int := 12 * 60 * 60) : String :=
  let encoded := sessionPayload identity now lifetime
  encoded ++ "." ++ sign key "session" encoded

end NoiContest.TeacherSso
