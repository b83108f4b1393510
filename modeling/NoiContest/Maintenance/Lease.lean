import Mathlib.Data.Rat.Floor
import NoiContest.Lib.Outcome
import NoiContest.Lib.PyText
import NoiContest.Lib.PyValue

/- The maintenance lease of the contest host and its deadline by two clocks. Times of clocks are
   exact, in seconds; the program computes with whole milliseconds. -/
namespace NoiContest.Maintenance
open Outcome

def schema : Int := 1

def maxWindowMs : Int := 4 * 60 * 60 * 1000

def closeReserveMs : Int := 45000

def lockPaths : List String :=
  ["/var/lib/dpkg/lock-frontend", "/var/lib/dpkg/lock",
   "/var/lib/apt/lists/lock", "/var/cache/apt/archives/lock"]

/-- `int(x)` -/
def truncate (x : ℚ) : Int := if 0 ≤ x then ⌊x⌋ else ⌈x⌉

theorem truncate_pos {x : ℚ} : 0 < truncate x ↔ 1 ≤ x := by
  unfold truncate
  split
  · rw [Int.floor_pos]
  · rename_i negative
    rw [Int.ceil_pos]
    constructor <;> intro <;> linarith

/-- `int(time.time() * 1000)`; the time since 1970 is not negative. -/
def nowMs (time : ℚ) : Int := ⌊time * 1000⌋

abbrev Fields := List (String × PyValue)

/- What an accepted lease is used for. -/
structure Lease where
  machineId : String
  bootId : String
  tid : PyValue
  windowEndMs : Int

def integer : PyValue → Except String Int
  | .int n => .ok n
  | _ => .error "integer required"

/-- `value == n` for a number n, where values of other classes may equal it as well. -/
def equalsInt (equal : Nat → Int → Bool) (value : PyValue) (n : Int) : Bool :=
  match value with
  | .int m => m == n
  | .bool b => (if b then 1 else 0) == n
  | .other k => equal k n
  | _ => false

def equalsText (value : PyValue) (s : String) : Bool :=
  match value with
  | .text t => t == s
  | _ => false

def isTrue : PyValue → Bool
  | .bool b => b
  | _ => false

/-- `re.fullmatch(r"[A-Za-z0-9_.-]{1,64}", s)` -/
def isOwner (s : String) : Bool :=
  1 ≤ s.length && s.length ≤ 64 && s.toList.all fun c =>
    ('a' ≤ c && c ≤ 'z') || ('A' ≤ c && c ≤ 'Z') || ('0' ≤ c && c ≤ '9') || c == '_' || c == '.' ||
      c == '-'

/- `str(value.get(key, ""))` -/
def textOf (c : PyValue.Conversions) (fields : Fields) (key : String) : String :=
  match fields.lookup key with
  | some value => PyValue.toStr c value
  | none => ""

variable (c : PyValue.Conversions) (equal : Nat → Int → Bool)

def validateLease (value : PyValue) (machineId bootId : String) (now : Int) :
    Except String Lease := do
  let fields ← match value with
    | .mapping fields => .ok fields
    | _ => .error "unsupported lease schema"
  raiseIf (equalsInt equal (PyValue.get fields "schema_version") schema = false)
    "unsupported lease schema"
  raiseIf (isTrue (PyValue.get fields "dedicated_contest_host") = false)
    "dedicated contest host approval missing"
  raiseIf (PyText.isLowerHexOf 32 (textOf c fields "machine_id") = false) "invalid machine id"
  raiseIf (equalsText (PyValue.get fields "machine_id") machineId = false ∨
    equalsText (PyValue.get fields "boot_id") bootId = false)
    "wrong host or boot; a reboot needs fresh approval"
  raiseIf (PyText.isLowerHexOf 24 (textOf c fields "tid") = false) "invalid fresh contest id"
  raiseIf (isOwner (textOf c fields "approved_by") = false) "responsible owner missing"
  let start ← integer (PyValue.get fields "window_start_ms")
  let finish ← integer (PyValue.get fields "window_end_ms")
  let reviewed ← integer (PyValue.get fields "maintenance_reviewed_at_ms")
  raiseIf (¬ (0 < finish - start ∧ finish - start ≤ maxWindowMs) ∨
    ¬ (start ≤ now ∧ now < finish - 180000)) "outside approved bounded window"
  raiseIf (¬ (start ≤ reviewed ∧ reviewed ≤ now))
    "pre-race update review must be within this window"
  raiseIf (isTrue (PyValue.get fields "maintenance_review_complete") = false)
    "pre-race update and trigger review not confirmed"
  return ⟨machineId, bootId, PyValue.get fields "tid", finish⟩

structure Deadline where
  expires : Int
  bootExpires : ℚ

def Deadline.start (lease : Lease) (wall : Int) (boot : ℚ) : Deadline :=
  let expires := lease.windowEndMs - closeReserveMs
  ⟨expires, boot + (expires - wall) / 1000⟩

def Deadline.remainingMs (deadline : Deadline) (wall : Int) (boot : ℚ) : Int :=
  max 0 (min (deadline.expires - wall) (truncate ((deadline.bootExpires - boot) * 1000)))

/- Time is left as long as either clock has a millisecond to go. -/
theorem remaining_pos {deadline : Deadline} {wall : Int} {boot : ℚ} :
    0 < deadline.remainingMs wall boot ↔
      wall < deadline.expires ∧ 1 ≤ (deadline.bootExpires - boot) * 1000 := by
  unfold Deadline.remainingMs
  rw [lt_max_iff, lt_min_iff, truncate_pos]
  constructor
  · rintro (impossible | ⟨first, second⟩)
    · omega
    · exact ⟨by omega, second⟩
  · rintro ⟨first, second⟩
    exact .inr ⟨by omega, second⟩

/-- The reply of `Guard.status`, from its two readings of the wall clock and the one of the boot
    clock. -/
def statusReply (lease : Lease) (deadline : Deadline) (active : Bool) (wall : Int) (boot : ℚ)
    (checkedAtMs pid : Int) (nonce : String) : Except String PyValue := do
  let remaining := deadline.remainingMs wall boot
  raiseIf (active = false ∨ remaining ≤ 0) "maintenance lease expired or closing"
  return .mapping [("schema_version", .int schema), ("state", .text "protected"),
    ("nonce", .text nonce), ("machine_id", .text lease.machineId),
    ("boot_id", .text lease.bootId), ("tid", lease.tid), ("pid", .int pid),
    ("checked_at_ms", .int checkedAtMs), ("expires_at_ms", .int deadline.expires),
    ("remaining_ms", .int remaining), ("locks", .list (lockPaths.map .text))]

end NoiContest.Maintenance
