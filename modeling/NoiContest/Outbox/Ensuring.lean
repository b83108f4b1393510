import NoiContest.Outbox.Draining
import NoiContest.Outbox.ExchangeRuns

/- The collection waits for one row: it requeues the unfinished prefix of the row's lane and
   delivers it, oldest first, until the row itself has its rid. -/
namespace NoiContest.WebOutbox
open Outcome

def JudgeState.text : JudgeState → String
  | .localOnly => "local"
  | .pending => "pending"
  | .sending => "sending"
  | .retry => "retry"
  | .permanentFailed => "permanent_failed"
  | .ambiguous => "ambiguous"
  | .submitted => "submitted"

/-- The store's errors, and the three of RealtimeJudgeError. -/
inductive EnsureError where
  | store (error : StoreError)
  | ambiguous (message : String)
  | permanent (message : String)
  | timeout (message : String)

def WebSubmission.hasRid (row : WebSubmission) : Bool :=
  row.judgeState == .submitted && row.rid != ""

/-- The row that a pass of the loop starts from, and whether it is returned at once. -/
def ensureRow (outbox : Outbox) (submissionRowId : Nat) :
    Except EnsureError (WebSubmission × Bool) := do
  let some row := outbox.byKey submissionRowId
    | throw (.store (.keyError s!"web submission does not exist: {submissionRowId}"))
  match ambiguousWebSubmissionBlocker outbox row.id with
  | some blocker =>
    throw (.ambiguous (s!"本题递交 #{blocker} 的 OJ 结果待核对；已禁止自动重发不确定递交，" ++
      "后续网页版本已保存，核对成功后按原顺序送评"))
  | none =>
  if row.hasRid then return (row, true)
  else
    raiseIf (row.judgeState = .permanentFailed) (.permanent
      (if row.lastError != "" then row.lastError else "Hydro permanently rejected submission"))
    raiseIf (row.judgeState = .ambiguous)
      (.ambiguous "OJ 递交结果不确定；已禁止自动重发，等待只读核对")
    raiseIf (row.judgeState = .localOnly ∨ row.submissionId = "")
      (.permanent "legacy local-only submission has no real-time Hydro payload")
    return (row, false)

def WebSubmission.laneOnly (row : WebSubmission) : LaneFilter :=
  ⟨some row.tid, some row.uid, some row.problem⟩

/-- The loop of `ensure_submitted`; no row after so many passes means that it still runs. -/
def Worker.ensureLoop (worker : Worker) (submissionRowId : Nat) (deadline : Rat)
    (after : Nat → Rat) : (passes call : Nat) → Outbox →
    Except EnsureError (Outbox × Option WebSubmission)
  | 0, _, outbox => .ok (outbox, none)
  | passes + 1, call, outbox => do
    let (row, found) ← ensureRow outbox submissionRowId
    if found then return (outbox, some row)
    else
      let (next, _) ← (worker.processOnce call row.laneOnly .final outbox).mapError .store
      let latest := (next.byKey submissionRowId).getD row
      if latest.hasRid then return (next, some latest)
      else
        raiseIf (deadline ≤ after call) (.timeout
          (s!"Hydro rid not available before timeout; state={latest.judgeState.text} " ++
            s!"error={latest.lastError}"))
        worker.ensureLoop submissionRowId deadline after passes (call + 1) next

/-- `ensure_submitted`, with the reading of the clock at its start and after each pass. -/
def Worker.ensureSubmitted (worker : Worker) (submissionRowId : Nat)
    (timeoutSeconds pollInterval start : Rat) (after : Nat → Rat) (passes : Nat) (outbox : Outbox) :
    Except EnsureError (Outbox × Option WebSubmission) := do
  raiseIf (timeoutSeconds ≤ 0 ∨ pollInterval ≤ 0)
    (.store (.valueError "timeout_seconds and poll_interval must be positive"))
  let requeued ← (requeueWebSubmissionForFinal outbox submissionRowId).mapError .store
  worker.ensureLoop submissionRowId (start + timeoutSeconds) after passes 0 requeued

/- The unfinished rows of the lane up to the target. -/
def inFront (target row : WebSubmission) : Bool :=
  row.lane == target.lane && row.id ≤ target.id && row.judgeState.unsettled

/-- What is left of the requeued prefix, with the target at its end. -/
structure Line (worker : Worker) (rids : String → String) (target : WebSubmission)
    (outbox : Outbox) (heads : List WebSubmission) : Prop where
  rows : outbox.rows.filter (inFront target) = heads
  queued : target ∈ heads
  fresh : ∀ row ∈ heads, row.judgeState = .pending ∧ row.nextRetryAt = 0 ∧
    row.submissionId ≠ "" ∧ worker.Accepts rids row

section Lines
variable {worker : Worker} {rids : String → String} {target row : WebSubmission}
  {outbox : Outbox} {heads rest : List WebSubmission}

theorem inFront_iff : inFront target row = true ↔
    row.lane = target.lane ∧ row.id ≤ target.id ∧ row.judgeState.unsettled = true := by
  simp [inFront, and_assoc]

theorem Line.mem (line : Line worker rids target outbox heads) :
    row ∈ heads ↔ row ∈ outbox.rows ∧ inFront target row = true := by
  rw [← line.rows, List.mem_filter]

/- A row of the line is due as soon as the clock is at zero or later, and first of its lane. -/
theorem Line.head (line : Line worker rids target outbox (row :: rest)) {now : Rat}
    (late : 0 ≤ now) : outbox.first? (ready outbox now target.laneOnly) = some row := by
  have first : outbox.first? (inFront target) = some row := by
    rw [SerialTable.first?, ← List.head?_filter, line.rows]
    rfl
  obtain ⟨mem, front, least⟩ := first_iff.mp first
  obtain ⟨lane, less, waiting⟩ := inFront_iff.mp front
  have admitted (r : WebSubmission) : target.laneOnly.admits r = true ↔ r.lane = target.lane := by
    simp only [WebSubmission.laneOnly, LaneFilter.admits, Option.all_some, Bool.and_eq_true,
      beq_iff_eq, WebSubmission.lane, Lane.mk.injEq, and_assoc]
    constructor
    · rintro ⟨tid, uid, problem⟩
      exact ⟨tid.symm, uid.symm, problem.symm⟩
    · rintro ⟨tid, uid, problem⟩
      exact ⟨tid.symm, uid.symm, problem.symm⟩
  refine first_iff.mpr ⟨mem, ready_iff.mpr ⟨(admitted row).mpr lane, waiting, ?_⟩, ?_⟩
  · intro older memOlder sameLane earlier unsettled
    have inLine : older ∈ row :: rest := line.mem.mpr ⟨memOlder,
      inFront_iff.mpr ⟨sameLane.trans lane, Nat.le_trans earlier less, unsettled⟩⟩
    obtain ⟨pending, retry, -⟩ := line.fresh older inLine
    simp [WebSubmission.due, pending, retry, late]
  · intro other memOther isReady
    obtain ⟨ownLane, unsettled, -⟩ := ready_iff.mp isReady
    by_cases below : other.id ≤ target.id
    · exact least other memOther (inFront_iff.mpr ⟨(admitted other).mp ownLane, below, unsettled⟩)
    · omega

/- Delivering the head leaves the rest of the line. -/
theorem Line.deliver (line : Line worker rids target outbox (row :: rest)) (rid : String)
    (other : row.id ≠ target.id) : Line worker rids target (deliver outbox row rid) rest := by
  have first : outbox.first? (inFront target) = some row := by
    rw [SerialTable.first?, ← List.head?_filter, line.rows]
    rfl
  have left := filter_deliver (q := inFront target) first
    (show inFront target (row.delivered rid) = false by simp [inFront]) fun _ _ => rfl
  rw [line.rows] at left
  refine ⟨(List.cons.inj left).2.symm, ?_, fun r held => line.fresh r (List.mem_cons_of_mem _ held)⟩
  exact (List.mem_cons.mp line.queued).resolve_left fun same => other (by rw [same])

/- A pass of the loop finds the target waiting and goes on to process_once. -/
theorem Line.waits (line : Line worker rids target outbox heads) :
    ensureRow outbox target.id = .ok (target, false) := by
  obtain ⟨mem, -⟩ := line.mem.mp line.queued
  obtain ⟨pending, -, named, -⟩ := line.fresh target line.queued
  have found : outbox.byKey target.id = some target := SerialTable.byKey_some_iff.mpr ⟨mem, rfl⟩
  have clear : ambiguousWebSubmissionBlocker outbox target.id = none := by
    have none : outbox.first? (fun r => r.lane == target.lane && r.id ≤ target.id &&
        r.judgeState == .ambiguous) = none := by
      refine SerialTable.first_none.mpr fun r memR => ?_
      by_contra hit
      simp only [Bool.not_eq_false, Bool.and_eq_true, beq_iff_eq, decide_eq_true_eq] at hit
      obtain ⟨⟨lane, less⟩, stuck⟩ := hit
      have inLine : r ∈ heads :=
        line.mem.mpr ⟨memR, inFront_iff.mpr ⟨lane, less, by rw [stuck]; rfl⟩⟩
      cases stuck.symm.trans (line.fresh r inLine).1
    simp [ambiguousWebSubmissionBlocker, found, none]
  simp [ensureRow, found, clear, WebSubmission.hasRid, pending, named, raiseIf]

/- The passes of the loop deliver the line from its head, and end with the target. -/
theorem ensureLoop_delivers {deadline : Rat} {after : Nat → Rat} {passes call : Nat}
    (line : Line worker rids target outbox heads) (late : ∀ call, 0 ≤ (worker.clock call).claim)
    (intime : ∀ i < heads.length, after (call + i) < deadline) (enough : heads.length ≤ passes) :
    ∃ last : Outbox,
      worker.ensureLoop target.id deadline after passes call outbox =
        .ok (last, some (target.delivered (rids target.submissionId))) ∧
      last.rows = outbox.rows.map fun row =>
        if heads.any (·.id == row.id) = true then row.delivered (rids row.submissionId) else row := by
  induction heads generalizing passes call outbox with
  | nil => exact absurd line.queued List.not_mem_nil
  | cons row rest ih =>
    obtain ⟨passes, rfl⟩ : ∃ n, passes = n + 1 := ⟨passes - 1, by
      simp only [List.length_cons] at enough
      omega⟩
    obtain ⟨mem, -⟩ := line.mem.mp List.mem_cons_self
    have memTarget := (line.mem.mp line.queued).1
    obtain ⟨-, -, -, accepts⟩ := line.fresh row List.mem_cons_self
    have posted : worker.processOnce call target.laneOnly .final outbox = _ :=
      processOnce_head accepts (line.head (late call))
    have filled : rids row.submissionId ≠ "" := (accepts row .final rfl).2.2
    have later : ∀ other ∈ rest, row.id < other.id := by
      have sorted : (row :: rest).Pairwise (·.id < ·.id) :=
        line.rows ▸ outbox.ordered.filter (inFront target)
      exact fun other held => List.rel_of_pairwise_cons sorted held
    have apart : ∀ other ∈ rest, other.id ≠ row.id := fun other held => (later other held).ne'
    simp only [Worker.ensureLoop, line.waits, ok_bind, posted, Except.mapError]
    by_cases own : row.id = target.id
    · obtain rfl := outbox.rows_injective mem memTarget own
      obtain rfl : rest = [] := List.eq_nil_iff_forall_not_mem.mpr fun other held => by
        have := (inFront_iff.mp (line.mem.mp (List.mem_cons_of_mem _ held)).2).2.1
        have := later other held
        omega
      have found : (deliver outbox row (rids row.submissionId)).byKey row.id =
          some (row.delivered (rids row.submissionId)) :=
        SerialTable.byKey_some_iff.mpr ⟨(mem_deliver mem).mpr (.inr rfl), rfl⟩
      have done : (row.delivered (rids row.submissionId)).hasRid = true := by
        simp [WebSubmission.hasRid, WebSubmission.delivered, filled]
      refine ⟨deliver outbox row (rids row.submissionId), ?_, ?_⟩
      · simp only [found, Option.getD_some, done]
        rfl
      · rw [← deliver_rows mem apart]
        simp
    · have left := line.deliver (rids row.submissionId) own
      have found : (deliver outbox row (rids row.submissionId)).byKey target.id = some target :=
        SerialTable.byKey_some_iff.mpr ⟨(left.mem.mp left.queued).1, rfl⟩
      have waiting : target.hasRid = false := by
        simp [WebSubmission.hasRid, (line.fresh target line.queued).1]
      have soon : after call < deadline := intime 0 (Nat.succ_pos _)
      obtain ⟨last, looped, rows⟩ := @ih _ passes (call + 1) left (fun i bound => by
        have := intime (i + 1) (Nat.succ_lt_succ bound)
        rwa [Nat.add_comm i 1, ← Nat.add_assoc] at this) (Nat.le_of_succ_le_succ enough)
      refine ⟨last, ?_, rows.trans (deliver_rows mem apart)⟩
      simp only [found, Option.getD_some, waiting, raiseIf_neg (not_le.mpr soon), ok_bind]
      exact looped

end Lines

section Requeue
variable {target : WebSubmission} {outbox : Outbox}

theorem run_legacy (operations : List Operation) :
    ∀ row ∈ (Runs.run commit Outbox.empty operations).rows, row.submissionId = "" →
      row.judgeState = .localOnly :=
  Runs.run_invariant (fun outbox : Outbox => ∀ row ∈ outbox.rows, row.submissionId = "" →
      row.judgeState = .localOnly)
    (fun _ _ legacy _ mem blank => commit_legacy legacy mem blank)
    (fun _ mem => absurd mem List.not_mem_nil) operations

theorem final_id (row : WebSubmission) : row.final.id = row.id := rfl

theorem requeue_ok (mem : target ∈ outbox.rows) (named : target.submissionId ≠ "")
    (unfinished : target.judgeState.requeueable = true) :
    requeueWebSubmissionForFinal outbox target.id =
      .ok (outbox.update (requeued target) WebSubmission.final final_id) := by
  have found : outbox.byKey target.id = some target := SerialTable.byKey_some_iff.mpr ⟨mem, rfl⟩
  have queued : ¬ (target.submissionId = "" ∨ target.judgeState = .localOnly) := by
    rintro (blank | legacy)
    · exact named blank
    · simp [legacy, JudgeState.requeueable] at unfinished
  have unsent : target.judgeState ≠ .submitted := by
    intro submitted
    simp [submitted, JudgeState.requeueable] at unfinished
  have clear : target.judgeState ≠ .ambiguous := by
    intro stuck
    simp [stuck, JudgeState.requeueable] at unfinished
  simp only [requeueWebSubmissionForFinal, found, raiseIf_neg queued, ok_bind, unsent, clear,
    false_and, if_false]
  rfl

theorem requeueable_or_ambiguous {state : JudgeState} (unsettled : state.unsettled = true) :
    state.requeueable = true ∨ state = .ambiguous := by
  cases state <;> simp_all [JudgeState.unsettled, JudgeState.requeueable]

theorem blocker_none (mem : target ∈ outbox.rows) :
    ambiguousWebSubmissionBlocker outbox target.id = none ↔ ∀ row ∈ outbox.rows,
      row.lane = target.lane → row.id ≤ target.id → row.judgeState ≠ .ambiguous := by
  have found : outbox.byKey target.id = some target := SerialTable.byKey_some_iff.mpr ⟨mem, rfl⟩
  have first : ambiguousWebSubmissionBlocker outbox target.id =
      (outbox.first? fun row => row.lane == target.lane && row.id ≤ target.id &&
        row.judgeState == .ambiguous).map (·.id) := by
    simp only [ambiguousWebSubmissionBlocker, found, Option.bind_eq_bind, Option.bind_some]
    cases outbox.first? _ <;> rfl
  rw [first, Option.map_eq_none_iff, SerialTable.first_none]
  simp only [Bool.and_eq_false_iff, beq_eq_false_iff_ne, decide_eq_false_iff_not, or_assoc]
  refine forall_congr' fun row => forall_congr' fun _ => ⟨?_, ?_⟩
  · rintro (lane | later | clear) sameLane earlier
    · exact absurd sameLane lane
    · exact absurd earlier later
    · exact clear
  · intro clear
    by_cases sameLane : row.lane = target.lane
    · by_cases earlier : row.id ≤ target.id
      · exact .inr (.inr (clear sameLane earlier))
      · exact .inr (.inl earlier)
    · exact .inl sameLane

/- The requeue makes the unfinished prefix of the lane a line. -/
theorem requeue_line {worker : Worker} {rids : String → String}
    (legacy : ∀ row ∈ outbox.rows, row.submissionId = "" → row.judgeState = .localOnly)
    (mem : target ∈ outbox.rows) (named : target.submissionId ≠ "")
    (unfinished : target.judgeState.requeueable = true)
    (clear : ambiguousWebSubmissionBlocker outbox target.id = none)
    (accepts : ∀ row ∈ outbox.rows, requeued target row = true → worker.Accepts rids row) :
    Line worker rids target.final
      (outbox.update (requeued target) WebSubmission.final final_id)
      ((outbox.rows.filter (requeued target)).map WebSubmission.final) where
  rows := by
    rw [SerialTable.update_rows, List.filter_map]
    have selects : ∀ row ∈ outbox.rows, (inFront target.final ∘ fun row =>
        if requeued target row = true then row.final else row) row = requeued target row := by
      intro row held
      by_cases hit : requeued target row = true
      · have := hit
        simp only [requeued, Bool.and_eq_true, beq_iff_eq, decide_eq_true_eq] at this
        simp only [Function.comp, hit, if_true]
        exact inFront_iff.mpr ⟨this.1.1.1, this.1.1.2, rfl⟩
      · have miss : requeued target row = false := by simpa using hit
        simp only [Function.comp, miss, Bool.false_eq_true, if_false]
        by_contra front
        obtain ⟨lane, earlier, unsettled⟩ := inFront_iff.mp (Bool.not_eq_false _ ▸ front)
        rcases requeueable_or_ambiguous unsettled with revived | stuck
        · have filled : row.submissionId ≠ "" := by
            intro blank
            rw [legacy row held blank] at revived
            cases revived
          exact hit (by simp [requeued, show row.lane = target.lane from lane,
            show row.id ≤ target.id from earlier, revived, filled])
        · exact (blocker_none mem).mp clear row held lane earlier stuck
    rw [List.filter_congr selects]
    refine List.map_congr_left fun row held => ?_
    rw [if_pos (List.mem_filter.mp held).2]
  queued := List.mem_map.mpr ⟨target, List.mem_filter.mpr ⟨mem, by
    simp [requeued, unfinished, named]⟩, rfl⟩
  fresh := by
    intro row held
    obtain ⟨old, inPrefix, rfl⟩ := List.mem_map.mp held
    obtain ⟨memOld, hit⟩ := List.mem_filter.mp inPrefix
    have filled : old.submissionId ≠ "" := by
      simp only [requeued, Bool.and_eq_true, bne_iff_ne] at hit
      exact hit.2
    exact ⟨rfl, rfl, filled, accepts old memOld hit⟩

end Requeue

/-- Whatever happened to the outbox before: when the OJ accepts the unfinished rows of the lane up
    to the target, none of them is ambiguous and the passes end before the deadline, the target
    comes back with its rid, every one of these rows is delivered as a final submission, and no
    other row changes. -/
theorem ensure_delivers_lane_prefix (worker : Worker) (rids : String → String)
    (operations : List Operation) (target : WebSubmission)
    (timeoutSeconds pollInterval start : Rat) (after : Nat → Rat) (passes : Nat)
    (mem : target ∈ (Runs.run commit Outbox.empty operations).rows)
    (unfinished : target.judgeState.requeueable = true)
    (clear : ambiguousWebSubmissionBlocker (Runs.run commit Outbox.empty operations) target.id =
      none)
    (accepts : ∀ row ∈ (Runs.run commit Outbox.empty operations).rows,
      requeued target row = true → worker.Accepts rids row)
    (late : ∀ call, 0 ≤ (worker.clock call).claim)
    (positive : 0 < timeoutSeconds ∧ 0 < pollInterval)
    (intime : ∀ i < ((Runs.run commit Outbox.empty operations).rows.filter (requeued target)).length,
      after i < start + timeoutSeconds)
    (enough : ((Runs.run commit Outbox.empty operations).rows.filter (requeued target)).length ≤
      passes) :
    ∃ last : Outbox,
      worker.ensureSubmitted target.id timeoutSeconds pollInterval start after passes
          (Runs.run commit Outbox.empty operations) =
        .ok (last, some (target.final.delivered (rids target.submissionId))) ∧
      last.rows = (Runs.run commit Outbox.empty operations).rows.map fun row =>
        if requeued target row = true then row.final.delivered (rids row.submissionId) else row := by
  have legacy := run_legacy operations
  generalize Runs.run commit Outbox.empty operations = outbox at *
  have named : target.submissionId ≠ "" := by
    intro blank
    rw [legacy target mem blank] at unfinished
    cases unfinished
  have line := requeue_line legacy mem named unfinished clear accepts
  obtain ⟨last, looped, rows⟩ := ensureLoop_delivers line late
    (fun i bound => by
      rw [Nat.zero_add]
      exact intime i (by simpa using bound)) (by simpa using enough)
  refine ⟨last, ?_, ?_⟩
  · have valid : ¬ (timeoutSeconds ≤ 0 ∨ pollInterval ≤ 0) :=
      not_or.mpr ⟨not_le.mpr positive.1, not_le.mpr positive.2⟩
    simp only [Worker.ensureSubmitted, raiseIf_neg valid, ok_bind,
      requeue_ok mem named unfinished, Except.mapError]
    exact looped
  · rw [rows, SerialTable.update_rows]
    refine (List.map_map ..).trans (List.map_congr_left fun row held => ?_)
    have queued : ((outbox.rows.filter (requeued target)).map WebSubmission.final).any
        (·.id == row.id) = requeued target row := by
      rw [Bool.eq_iff_iff, List.any_eq_true]
      constructor
      · rintro ⟨other, inLine, same⟩
        obtain ⟨old, inPrefix, rfl⟩ := List.mem_map.mp inLine
        obtain ⟨memOld, hit⟩ := List.mem_filter.mp inPrefix
        rwa [outbox.rows_injective held memOld (beq_iff_eq.mp same).symm]
      · exact fun hit => ⟨row.final, List.mem_map.mpr ⟨row, List.mem_filter.mpr ⟨held, hit⟩, rfl⟩,
          beq_self_eq_true _⟩
    by_cases hit : requeued target row = true
    · have same : row.final.id = row.id := rfl
      simp only [Function.comp, hit, if_true, same, queued]
      rfl
    · simp only [Function.comp, hit, if_false, queued, Bool.false_eq_true]

/- The OJ refused the first of three versions for good; the collection asks for the second. -/
def refusedFirstRun : List Operation :=
  threeVersions ++ [.claimNext 10 90 {} "w1", .markFailed 1 "w1" "HTTP 400" none false none]

def refusedFirst : Outbox := Runs.run commit Outbox.empty refusedFirstRun

def secondVersion : WebSubmission := (refusedFirst.byKey 2).get (by decide +kernel)

/- What the run leaves behind, evaluated once. -/
theorem refusedFirst_waiting :
    (∀ row ∈ refusedFirst.rows, row.submissionId ≠ "") ∧ refusedFirst.rows.length ≤ 3 ∧
      secondVersion.judgeState.requeueable = true ∧
      ambiguousWebSubmissionBlocker refusedFirst secondVersion.id = none ∧
      (refusedFirst.rows.map fun row =>
        if requeued secondVersion row = true then row.final.delivered row.submissionId
        else row).map (·.judgeState) = [.submitted, .submitted, .pending] := by
  decide +kernel

theorem second_version_collected :
    ∃ last : Outbox,
      sampleDelivery.ensureSubmitted secondVersion.id 120 1 10 (fun _ => 10) 3 refusedFirst =
        .ok (last, some (secondVersion.final.delivered secondVersion.submissionId)) ∧
      last.rows.map (·.judgeState) = [.submitted, .submitted, .pending] := by
  obtain ⟨named, length, unfinished, clear, states⟩ := refusedFirst_waiting
  have found : refusedFirst.byKey 2 = some secondVersion := (Option.some_get _).symm
  have three : (refusedFirst.rows.filter (requeued secondVersion)).length ≤ 3 :=
    (List.length_filter_le ..).trans length
  obtain ⟨last, ensured, rows⟩ := ensure_delivers_lane_prefix sampleDelivery (fun id => id)
    refusedFirstRun secondVersion 120 1 10 (fun _ => 10) 3 (SerialTable.byKey_some_iff.mp found).1
    unfinished clear (fun row mem _ => sampleDelivery_accepts (named row mem))
    (fun _ => show (0 : Rat) ≤ 10 by norm_num) (by norm_num)
    (fun _ _ => show (10 : Rat) < 10 + 120 by norm_num) three
  refine ⟨last, ensured, ?_⟩
  rw [rows]
  exact states

end NoiContest.WebOutbox
