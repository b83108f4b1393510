import NoiContest.Maintenance.Admission

/- Whether an accepted proof of protection covers the contest: the guard's clocks and the
   controller's run at one rate with constant offsets, and the reply takes its time. -/
namespace NoiContest.Maintenance
open Outcome

/-- One question to the guard. Instants and offsets are in seconds; the deadline was set up from a
    reading of the wall clock and a later one of the boot clock. -/
structure Exchange where
  lease : Lease
  pid : Int
  nonce : String
  wallOffset : ℚ
  bootOffset : ℚ
  controllerOffset : ℚ
  wallRead : ℚ
  bootRead : ℚ
  asked : ℚ
  delivered : ℚ
  set_up : wallRead ≤ bootRead
  in_order : asked ≤ delivered
  in_time : delivered ≤ asked + 10

namespace Exchange
variable (x : Exchange)

def wall (instant : ℚ) : Int := nowMs (instant + x.wallOffset)

def boot (instant : ℚ) : ℚ := instant + x.bootOffset

def controller (instant : ℚ) : ℚ := instant + x.controllerOffset

def deadline : Deadline := Deadline.start x.lease (x.wall x.wallRead) (x.boot x.bootRead)

/-- `Deadline.remaining_ms` at an instant -/
def remaining (instant : ℚ) : Int := x.deadline.remainingMs (x.wall instant) (x.boot instant)

/-- `Guard.status`, computed at one instant -/
def reply : Except String PyValue :=
  statusReply x.lease x.deadline true (x.wall x.asked) (x.boot x.asked) (x.wall x.asked) x.pid
    x.nonce

def now : Int := nowMs (x.controller x.delivered)

/-- Up to when a contest with this end and grace needs protection. -/
def required (endAtMs graceMinutes : Int) : Int :=
  max (x.now + shutdownReserveMs) (endAtMs + graceMinutes * 60000 + shutdownReserveMs)

/-- The controller takes the reply for proof. -/
def Accepted (c : PyValue.Conversions) (equal : Nat → Int → Bool) (server : Fields)
    (tid : Option String) (period : Option (PyValue × PyValue)) : Prop :=
  ∃ value rawLength result, x.reply = .ok value ∧
    requireProtection c equal server x.nonce rawLength value (x.controller x.delivered) tid
      period = .ok (some result)

/-- The guard has time left at all controller times up to one millisecond before the end. -/
def Covers (required : Int) : Prop :=
  ∀ instant, x.now ≤ x.controller instant * 1000 → x.controller instant * 1000 + 1 < required →
    0 < x.remaining instant

/-- By how many milliseconds the guard's wall clock is ahead of the controller's. -/
def lead : ℚ := (x.wallOffset - x.controllerOffset) * 1000

/- What rounding and the time between its two readings add to the guard's boot deadline. -/
def bootSlack : ℚ := (x.bootRead + x.wallOffset) * 1000 - x.wall x.wallRead

theorem bootSlack_nonneg : 0 ≤ x.bootSlack := by
  have rounded : (x.wall x.wallRead : ℚ) ≤ (x.wallRead + x.wallOffset) * 1000 := Int.floor_le _
  have later := x.set_up
  unfold bootSlack
  linarith

theorem wall_before {instant : ℚ} {limit : Int} :
    x.wall instant < limit ↔ (instant + x.wallOffset) * 1000 < limit := Int.floor_lt

/- The skew that the controller sees hides a lead by as much as the reply is late. -/
theorem lead_lt : x.lead < x.wall x.asked - x.now + (x.delivered - x.asked) * 1000 + 1 := by
  have read : (x.asked + x.wallOffset) * 1000 < x.wall x.asked + 1 := Int.lt_floor_add_one _
  have arrived : (x.now : ℚ) ≤ (x.delivered + x.controllerOffset) * 1000 := Int.floor_le _
  unfold lead
  linarith

/- Both clocks of the guard, read off the controller's. -/
theorem remaining_pos_iff (instant : ℚ) : 0 < x.remaining instant ↔
    x.controller instant * 1000 + x.lead < x.deadline.expires ∧
      x.controller instant * 1000 + x.lead ≤ x.deadline.expires - 1 + x.bootSlack := by
  unfold remaining
  rw [remaining_pos, wall_before]
  have same : (x.deadline.bootExpires - x.boot instant) * 1000 =
      x.deadline.expires + x.bootSlack - (x.controller instant * 1000 + x.lead) := by
    simp only [deadline, Deadline.start, boot, bootSlack, controller, lead]
    ring
  have wall : (instant + x.wallOffset) * 1000 = x.controller instant * 1000 + x.lead := by
    simp only [controller, lead]
    ring
  rw [same, wall]
  constructor <;> rintro ⟨first, second⟩ <;> exact ⟨first, by linarith⟩

theorem controller_at (time : ℚ) : x.controller (time - x.controllerOffset) = time := by
  simp [controller]

/- Coverage as a comparison of two ends, where there is a controller time to cover. -/
theorem covers_iff {required : Int} (ahead : x.now + 1 < required) :
    x.Covers required ↔ required + x.lead ≤ x.deadline.expires + min 1 x.bootSlack := by
  have ahead : (x.now : ℚ) + 1 < required := by exact_mod_cast ahead
  constructor
  · intro covers
    have at_time : ∀ time : ℚ, (x.now : ℚ) ≤ time → time + 1 < required →
        time + x.lead < x.deadline.expires ∧
          time + x.lead ≤ x.deadline.expires - 1 + x.bootSlack := by
      intro time first last
      have left := (x.remaining_pos_iff (time / 1000 - x.controllerOffset)).mp
        (covers _ (by rw [controller_at]; linarith) (by rw [controller_at]; linarith))
      rw [controller_at] at left
      simpa using left
    have wall : (required : ℚ) - 1 + x.lead ≤ x.deadline.expires := by
      by_contra late
      rw [not_le] at late
      have late_time := (at_time (max x.now (x.deadline.expires - x.lead)) (le_max_left _ _)
        (by rw [← lt_sub_iff_add_lt]; exact max_lt (by linarith) (by linarith))).1
      have := le_max_right (x.now : ℚ) (x.deadline.expires - x.lead)
      linarith
    have boot : (required : ℚ) - 1 + x.lead ≤ x.deadline.expires - 1 + x.bootSlack := by
      by_contra late
      rw [not_le] at late
      obtain ⟨time, after, before⟩ := exists_between
        (max_lt (show (x.now : ℚ) < required - 1 by linarith)
          (show x.deadline.expires - 1 + x.bootSlack - x.lead < (required : ℚ) - 1 by linarith))
      obtain ⟨first, second⟩ := max_lt_iff.mp after
      have := (at_time time first.le (by linarith)).2
      linarith
    rcases min_cases 1 x.bootSlack with ⟨eq, -⟩ | ⟨eq, -⟩ <;> rw [eq] <;> linarith
  · intro fits instant _ last
    have one := min_le_left 1 x.bootSlack
    have slack := min_le_right 1 x.bootSlack
    exact (x.remaining_pos_iff instant).mpr ⟨by linarith, by linarith⟩

end Exchange

/- What acceptance says about the times. -/
theorem verifyStatus_times {c : PyValue.Conversions} {equal : Nat → Int → Bool} {fields : Fields}
    {nonce : String} {machineId : PyValue} {tid : Option String} {now required : Int}
    {result : Fields}
    (accepted : verifyStatus c equal (.mapping fields) nonce machineId tid now required =
      .ok result) :
    ∃ expires, PyValue.get fields "expires_at_ms" = .int expires ∧ required ≤ expires - 5000 := by
  simp only [verifyStatus, ok_bind] at accepted
  obtain ⟨_, _, accepted⟩ := bind_ok.mp accepted
  obtain ⟨checkedAt, _, accepted⟩ := bind_ok.mp accepted
  obtain ⟨expires, expiresRead, accepted⟩ := bind_ok.mp accepted
  obtain ⟨remaining, _, accepted⟩ := bind_ok.mp accepted
  obtain ⟨pid, _, accepted⟩ := bind_ok.mp accepted
  obtain ⟨_, _, accepted⟩ := bind_ok.mp accepted
  obtain ⟨_, _, accepted⟩ := bind_ok.mp accepted
  obtain ⟨_, _, accepted⟩ := bind_ok.mp accepted
  obtain ⟨_, covered, _⟩ := bind_ok.mp accepted
  rw [raiseIf_ok, not_or, not_lt, not_lt] at covered
  refine ⟨expires, ?_, le_trans covered.2 (sub_le_sub_right (min_le_left _ _) _)⟩
  unfold timestamp at expiresRead
  split at expiresRead
  · rename_i found
    cases expiresRead
    exact found
  · cases expiresRead

namespace Exchange
variable {x : Exchange}

theorem reply_expires {value : PyValue} (replied : x.reply = .ok value) :
    ∃ fields, value = .mapping fields ∧
      PyValue.get fields "expires_at_ms" = .int x.deadline.expires := by
  unfold reply statusReply at replied
  obtain ⟨_, _, replied⟩ := bind_ok.mp replied
  obtain rfl := pure_eq_ok.mp replied
  exact ⟨_, rfl, rfl⟩

theorem accepted_of {c : PyValue.Conversions} {equal : Nat → Int → Bool} {server : Fields}
    {tid : Option String} {period : Option (PyValue × PyValue)} (rawLength : Nat)
    (taken : ((x.reply >>= fun value => requireProtection c equal server x.nonce rawLength value
      (x.controller x.delivered) tid period).toOption.getD none).isSome = true) :
    x.Accepted c equal server tid period := by
  cases replied : x.reply with
  | error e => simp [replied, Except.toOption] at taken
  | ok value =>
    rw [replied, ok_bind] at taken
    cases outcome : requireProtection c equal server x.nonce rawLength value
      (x.controller x.delivered) tid period with
    | error e => simp [outcome, Except.toOption] at taken
    | ok result =>
      obtain ⟨fields, rfl⟩ := Option.isSome_iff_exists.mp (by simpa [outcome, Except.toOption]
        using taken)
      exact ⟨value, rawLength, fields, replied, outcome⟩

/- An accepted reply leaves the margin before the guard's own end. -/
theorem accepted_margin {c : PyValue.Conversions} {equal : Nat → Int → Bool} {server : Fields}
    {tid : Option String} {period : Option (PyValue × PyValue)}
    (accepted : x.Accepted c equal server tid period) :
    ∃ required, requiredUntil x.now period = .ok required ∧
      required ≤ x.deadline.expires - 5000 := by
  obtain ⟨value, rawLength, result, replied, taken⟩ := accepted
  obtain ⟨fields, rfl, expires⟩ := reply_expires replied
  unfold requireProtection at taken
  obtain ⟨config, -, taken⟩ := bind_ok.mp taken
  cases config with
  | none => cases pure_eq_ok.mp taken
  | some machineId =>
    obtain ⟨_, _, taken⟩ := bind_ok.mp taken
    obtain ⟨required, asked, taken⟩ := bind_ok.mp taken
    obtain ⟨_, verified, _⟩ := bind_ok.mp taken
    obtain ⟨expires', read, margin⟩ := verifyStatus_times verified
    obtain rfl : x.deadline.expires = expires' := by simpa using expires.symm.trans read
    exact ⟨required, asked, margin⟩

theorem requiredUntil_later {now required : Int} {period : Option (PyValue × PyValue)}
    (asked : requiredUntil now period = .ok required) : now + shutdownReserveMs ≤ required := by
  unfold requiredUntil at asked
  split at asked
  · cases asked
    exact le_rfl
  · split at asked
    · cases asked
    · cases asked
      exact le_max_left _ _
  · cases asked

end Exchange

/-- An accepted proof covers the contest exactly when the guard's wall clock is not further ahead
    of the controller's than the guard's end is after the required one, which is five seconds at
    least. -/
theorem accepted_covers_iff (x : Exchange) (c : PyValue.Conversions) (equal : Nat → Int → Bool)
    (server : Fields) (tid : Option String) (endAtMs graceMinutes : Int)
    (accepted : x.Accepted c equal server tid (some (.int endAtMs, .int graceMinutes))) :
    x.required endAtMs graceMinutes + 5000 ≤ x.deadline.expires ∧
      (x.Covers (x.required endAtMs graceMinutes) ↔
        x.required endAtMs graceMinutes + x.lead ≤ x.deadline.expires + min 1 x.bootSlack) := by
  obtain ⟨required', asked, margin⟩ := Exchange.accepted_margin accepted
  have later := Exchange.requiredUntil_later asked
  simp only [requiredUntil] at asked
  split at asked
  · cases asked
  · cases asked
    have reserve : shutdownReserveMs = 150000 := rfl
    exact ⟨by unfold Exchange.required; omega, x.covers_iff (by unfold Exchange.required; omega)⟩

/-- The margin of five seconds is enough for skew and delay together. -/
theorem prompt_reply_covers {x : Exchange} {c : PyValue.Conversions} {equal : Nat → Int → Bool}
    {server : Fields} {tid : Option String} {period : Option (PyValue × PyValue)} {required : Int}
    (accepted : x.Accepted c equal server tid period)
    (asked : requiredUntil x.now period = .ok required)
    (prompt : x.wall x.asked - x.now + (x.delivered - x.asked) * 1000 + 1 ≤ 5000) :
    x.Covers required := by
  obtain ⟨required', same, margin⟩ := Exchange.accepted_margin accepted
  obtain rfl : required = required' := by simpa using asked.symm.trans same
  have later := Exchange.requiredUntil_later asked
  have reserve : shutdownReserveMs = 150000 := rfl
  have margin : (required : ℚ) ≤ x.deadline.expires - 5000 := by exact_mod_cast margin
  have lead := x.lead_lt
  have slack : 0 ≤ min 1 x.bootSlack := le_min zero_le_one x.bootSlack_nonneg
  exact (x.covers_iff (by omega)).mpr (by linarith)

/- A guard five seconds ahead of the controller's later time, whose reply takes ten seconds. -/
namespace SampleGuard

def conversions : PyValue.Conversions :=
  ⟨fun _ => none, fun _ => .refused, fun _ => "", fun _ => false⟩

def machineId : String := "0123456789abcdef0123456789abcdef"

def bootId : String := "01234567-89ab-cdef-0123-456789abcdef"

def tid : String := "0123456789abcdef01234567"

def manifest : PyValue := .mapping [("schema_version", .int 1),
  ("dedicated_contest_host", .bool true), ("machine_id", .text machineId),
  ("boot_id", .text bootId), ("tid", .text tid), ("approved_by", .text "owner"),
  ("window_start_ms", .int 1000000), ("window_end_ms", .int 3010000),
  ("maintenance_reviewed_at_ms", .int 1000000), ("maintenance_review_complete", .bool true)]

def server : Fields :=
  [("maintenance_guard", .mapping [("enabled", .bool true), ("machine_id", .text machineId)])]

def exchange : Exchange where
  lease := ⟨machineId, bootId, .text tid, 3010000⟩
  pid := 4321
  nonce := "00112233445566778899aabbccddeeff"
  wallOffset := 1015
  bootOffset := 0
  controllerOffset := 1000
  wallRead := 0
  bootRead := 0
  asked := 0
  delivered := 10
  set_up := le_rfl
  in_order := by norm_num
  in_time := by norm_num

theorem approved : validateLease conversions (fun _ _ => false) manifest machineId bootId
    (exchange.wall exchange.wallRead) = .ok exchange.lease := by
  have read : exchange.wall exchange.wallRead = 1015000 := by decide +kernel
  rw [read]
  rfl

theorem accepted : exchange.Accepted conversions (fun _ _ => false) server (some tid)
    (some (.int 1010000, .int 30)) :=
  Exchange.accepted_of 500 (by decide +kernel)

end SampleGuard

theorem sample_coverage :
    SampleGuard.exchange.required 1010000 30 + 5000 ≤ SampleGuard.exchange.deadline.expires ∧
      (SampleGuard.exchange.Covers (SampleGuard.exchange.required 1010000 30) ↔
        SampleGuard.exchange.required 1010000 30 + SampleGuard.exchange.lead ≤
          SampleGuard.exchange.deadline.expires + min 1 SampleGuard.exchange.bootSlack) :=
  accepted_covers_iff _ _ _ _ _ 1010000 30 SampleGuard.accepted

/- Ten seconds of delay hide ten seconds of lead from the skew check, and the margin is five. -/
theorem delayed_reply_uncovered :
    ¬ ∀ (x : Exchange) (c : PyValue.Conversions) (equal : Nat → Int → Bool) (server : Fields)
      (tid : Option String) (endAtMs graceMinutes : Int) (manifest : PyValue)
      (machineId bootId : String),
      validateLease c equal manifest machineId bootId (x.wall x.wallRead) = .ok x.lease →
      x.Accepted c equal server tid (some (.int endAtMs, .int graceMinutes)) →
      x.Covers (x.required endAtMs graceMinutes) := by
  intro covers
  have left := covers SampleGuard.exchange SampleGuard.conversions (fun _ _ => false)
    SampleGuard.server (some SampleGuard.tid) 1010000 30 SampleGuard.manifest
    SampleGuard.machineId SampleGuard.bootId SampleGuard.approved SampleGuard.accepted 1959
    (by decide +kernel) (by decide +kernel)
  exact absurd left (by decide +kernel)

end NoiContest.Maintenance
