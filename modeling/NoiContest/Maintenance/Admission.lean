import Mathlib.Tactic.Linarith
import NoiContest.Maintenance.Lease

/- The controller's side of the maintenance guard: what it asks, and which reply it accepts. -/
namespace NoiContest.Maintenance
open Outcome

def shutdownReserveMs : Int := 150000

/-- `settings(server)`: the pinned machine id, or nothing where the guard is switched off. -/
def settings (c : PyValue.Conversions) (server : Fields) : Except String (Option PyValue) := do
  let fields ← match server.lookup "maintenance_guard" with
    | none => .ok [("enabled", PyValue.bool false)]
    | some (.mapping fields) => .ok fields
    | some _ => .error "maintenance_guard.enabled must be boolean"
  let enabled ← match fields.lookup "enabled" with
    | none => .ok false
    | some (.bool b) => .ok b
    | some _ => .error "maintenance_guard.enabled must be boolean"
  if enabled = false then return none
  raiseIf (PyText.isLowerHexOf 32 (textOf c fields "machine_id") = false)
    "maintenance_guard requires the dedicated host machine_id"
  return some (PyValue.get fields "machine_id")

/-- `re.fullmatch(r"[0-9a-f-]{36}", s)` -/
def isBootId (s : String) : Bool :=
  s.length == 36 && s.toList.all fun ch => PyText.isLowerHex ch || ch == '-'

/- Equality with a machine id, which is a text or a number of 32 digits. -/
def sameMachine : PyValue → PyValue → Bool
  | .text s, .text t => s == t
  | .int m, .int n => m == n
  | _, _ => false

def areLockPaths : PyValue → Bool
  | .list items => items.length == lockPaths.length &&
      (items.zip lockPaths).all fun pair => equalsText pair.1 pair.2
  | _ => false

def timestamp (result : Fields) (key : String) : Except String Int :=
  match PyValue.get result key with
  | .int n => .ok n
  | _ => .error "invalid maintenance status timestamp/pid"

def verifyStatus (c : PyValue.Conversions) (equal : Nat → Int → Bool) (result : PyValue)
    (nonce : String) (machineId : PyValue) (tid : Option String) (now requiredUntilMs : Int) :
    Except String Fields := do
  let result ← match result with
    | .mapping fields => .ok fields
    | _ => .error "invalid maintenance status schema"
  raiseIf (equalsInt equal (PyValue.get result "schema_version") 1 = false)
    "invalid maintenance status schema"
  let checkedAtMs ← timestamp result "checked_at_ms"
  let expiresAtMs ← timestamp result "expires_at_ms"
  let remainingMs ← timestamp result "remaining_ms"
  let pid ← timestamp result "pid"
  raiseIf (equalsText (PyValue.get result "state") "protected" = false ∨
      equalsText (PyValue.get result "nonce") nonce = false ∨
      sameMachine (PyValue.get result "machine_id") machineId = false ∨
      areLockPaths (PyValue.get result "locks") = false ∨ pid ≤ 1 ∨
      isBootId (textOf c result "boot_id") = false ∨
      PyText.isLowerHexOf 24 (textOf c result "tid") = false)
    "maintenance host/lease/lock proof mismatch"
  raiseIf (∃ own ∈ tid, equalsText (PyValue.get result "tid") own = false)
    "maintenance lease belongs to another contest"
  raiseIf (5000 < |checkedAtMs - now|) "maintenance status stale or host clock skew"
  -- The margin of five seconds is for the skew and the latency together.
  let availableUntil := min expiresAtMs (checkedAtMs + remainingMs) - 5000
  raiseIf (requiredUntilMs < now ∨ availableUntil < requiredUntilMs)
    "maintenance lease cannot cover contest/archive/shutdown"
  return result

/- Up to when the host has to stay protected for a contest. -/
def requiredUntil (now : Int) : Option (PyValue × PyValue) → Except String Int
  | none => .ok (now + shutdownReserveMs)
  | some (.int endAtMs, .int graceMinutes) =>
    if graceMinutes < 30 then .error "invalid protected contest/archive period"
    else .ok (max (now + shutdownReserveMs) (endAtMs + graceMinutes * 60000 + shutdownReserveMs))
  | some _ => .error "invalid protected contest/archive period"

/-- `require_protection` once the reply is there: its length as a text, its value, and the time.
    The period is the end of the contest with the grace in minutes. -/
def requireProtection (c : PyValue.Conversions) (equal : Nat → Int → Bool) (server : Fields)
    (nonce : String) (rawLength : Nat) (value : PyValue) (time : ℚ) (tid : Option String)
    (period : Option (PyValue × PyValue)) : Except String (Option Fields) := do
  match ← settings c server with
  | none => return none
  | some machineId =>
    raiseIf (8192 < rawLength) "oversized maintenance status"
    let now := nowMs time
    let required ← requiredUntil now period
    return some (← verifyStatus c equal value nonce machineId tid now required)

end NoiContest.Maintenance
