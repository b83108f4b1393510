import NoiContest.Outbox.ContestBook
import NoiContest.Outbox.Delivery
import NoiContest.Outbox.Fifo

/- Progress of a worker that is alone at the table while the OJ answers: which rows a drain
   delivers, and in which order. -/
namespace NoiContest.WebOutbox
open Outcome

/- The readings of the clock in one call of process_once. -/
structure Readings where
  claim : Rat
  retry : Rat
  check : Rat

/- A worker, what its HTTP exchanges come to, and what is drawn for each call: the readings of
   the clock and the lease token. -/
structure Worker where
  judge : RealtimeJudge
  conversions : PyValue.Conversions
  dumps : PyValue → String
  exchange : WebSubmission → JudgeKind → Attempt
  clock : Nat → Readings
  token : Nat → String

/-- `process_once`; the number counts the calls. -/
def Worker.processOnce (worker : Worker) (call : Nat) (filter : LaneFilter) (kind : JudgeKind)
    (outbox : Outbox) : Except StoreError (Outbox × Option WebSubmission) := do
  let time := worker.clock call
  let (claimed, reply) ← claimNextWebSubmission outbox time.claim worker.judge.leaseSeconds filter
    (worker.token call)
  match reply with
  | none => return (claimed, none)
  | some row =>
    match (worker.judge.report worker.conversions worker.dumps row (worker.exchange row kind)
        time.retry time.check).apply claimed with
    | .ok next => return (next, next.byKey row.id)
    | .error (.submissionLeaseLost _) => return (claimed, claimed.byKey row.id)
    | .error other => throw other

/-- `drain`, from a call on. -/
def Worker.drain (worker : Worker) : (limit call : Nat) → Outbox →
    Except StoreError (Outbox × List WebSubmission)
  | 0, _, outbox => .ok (outbox, [])
  | limit + 1, call, outbox => do
    let (next, reply) ← worker.processOnce call {} .realtime outbox
    match reply with
    | none => return (next, [])
    | some row =>
      let (last, rest) ← worker.drain limit (call + 1) next
      return (last, row :: rest)

/-- A row after its delivery. -/
def WebSubmission.delivered (rid : String) (row : WebSubmission) : WebSubmission :=
  { row with judgeState := .submitted, rid := rid, attempts := row.attempts + 1, leaseUntil := 0,
             leaseToken := "", nextRetryAt := 0, lastError := "" }

@[simp] theorem delivered_id (rid : String) (row : WebSubmission) :
    (row.delivered rid).id = row.id := rfl

@[simp] theorem delivered_settled (rid : String) (row : WebSubmission) :
    (row.delivered rid).judgeState.unsettled = false := rfl

/- A row can be reached when everything in front of it in its lane is due. -/
def ready (outbox : Outbox) (now : Rat) (filter : LaneFilter) (row : WebSubmission) : Bool :=
  filter.admits row && row.judgeState.unsettled && outbox.rows.all fun older =>
    !(older.lane == row.lane && older.id ≤ row.id && older.judgeState.unsettled) || older.due now

section Claim

theorem first_least {outbox : Outbox} {p : WebSubmission → Bool} {row other : WebSubmission}
    (found : outbox.first? p = some row) (mem : other ∈ outbox.rows) (hit : p other = true) :
    row.id ≤ other.id := by
  obtain ⟨-, front, back, split, early⟩ := List.find?_eq_some_iff_append.mp found
  rw [split] at mem
  rcases List.mem_append.mp mem with before | after
  · have miss := early other before
    simp [hit] at miss
  · rcases List.mem_cons.mp after with same | later
    · exact Nat.le_of_eq (by rw [same])
    · have sorted := (List.pairwise_append.mp (split ▸ outbox.ordered)).2.1
      exact Nat.le_of_lt (List.rel_of_pairwise_cons sorted later)

/- The first match is the match with the least key. -/
theorem first_iff {outbox : Outbox} {p : WebSubmission → Bool} {row : WebSubmission} :
    outbox.first? p = some row ↔
      row ∈ outbox.rows ∧ p row = true ∧ ∀ other ∈ outbox.rows, p other = true → row.id ≤ other.id := by
  constructor
  · intro found
    obtain ⟨mem, hit⟩ := SerialTable.first_some found
    exact ⟨mem, hit, fun other memOther hitOther => first_least found memOther hitOther⟩
  · rintro ⟨mem, hit, least⟩
    cases found : outbox.first? p with
    | none =>
      have miss := SerialTable.first_none.mp found row mem
      rw [hit] at miss
      cases miss
    | some other =>
      obtain ⟨memOther, hitOther⟩ := SerialTable.first_some found
      have below := least other memOther hitOther
      have above := first_least found mem hit
      rw [outbox.rows_injective memOther mem (by omega)]

variable {outbox : Outbox} {now : Rat} {filter : LaneFilter} {row : WebSubmission}

theorem ready_iff : ready outbox now filter row = true ↔
    filter.admits row = true ∧ row.judgeState.unsettled = true ∧
      ∀ older ∈ outbox.rows, older.lane = row.lane → older.id ≤ row.id →
        older.judgeState.unsettled = true → older.due now = true := by
  simp only [ready, Bool.and_eq_true, List.all_eq_true, Bool.or_eq_true, Bool.not_eq_true',
    Bool.and_eq_false_iff, beq_eq_false_iff_ne, decide_eq_false_iff_not, and_assoc]
  refine and_congr_right fun _ => and_congr_right fun _ => forall_congr' fun older =>
    forall_congr' fun _ => ⟨?_, ?_⟩
  · intro held lane less waiting
    rcases held with ((other | later) | settled) | due
    · exact absurd lane other
    · exact absurd less later
    · rw [waiting] at settled
      cases settled
    · exact due
  · intro held
    by_cases lane : older.lane = row.lane
    · by_cases less : older.id ≤ row.id
      · cases waiting : older.judgeState.unsettled with
        | true => exact .inr (held lane less waiting)
        | false => exact .inl (.inr rfl)
      · exact .inl (.inl (.inr less))
    · exact .inl (.inl (.inl lane))

theorem admits_lane {other : WebSubmission} (lane : other.lane = row.lane) :
    filter.admits other = filter.admits row := by
  simp only [WebSubmission.lane, Lane.mk.injEq] at lane
  simp only [LaneFilter.admits, lane.1, lane.2.1, lane.2.2]

/- The first row that can be reached is the one that a claim selects. -/
theorem claim_selects_first :
    outbox.first? (fun row => row.due now && filter.admits row && !blockedByOlder outbox row) =
      outbox.first? (ready outbox now filter) := by
  have selectable : ∀ r ∈ outbox.rows,
      (r.due now && filter.admits r && !blockedByOlder outbox r) = true →
      ready outbox now filter r = true := by
    intro r mem selected
    simp only [Bool.and_eq_true, Bool.not_eq_true'] at selected
    refine ready_iff.mpr ⟨selected.1.2, due_unsettled selected.1.1, ?_⟩
    intro older memOlder lane less waiting
    rcases Nat.lt_or_eq_of_le less with earlier | same
    · have clear := List.any_eq_false.mp selected.2 older memOlder
      simp [lane, earlier, waiting] at clear
    · rw [outbox.rows_injective memOlder mem same]
      exact selected.1.1
  cases found : outbox.first? (ready outbox now filter) with
  | none =>
    refine SerialTable.first_none.mpr fun r mem => ?_
    have unready := SerialTable.first_none.mp found r mem
    cases selected : r.due now && filter.admits r && !blockedByOlder outbox r with
    | false => rfl
    | true =>
      rw [selectable r mem selected] at unready
      cases unready
  | some head =>
    obtain ⟨mem, isReady, least⟩ := first_iff.mp found
    obtain ⟨admitted, waiting, front⟩ := ready_iff.mp isReady
    refine first_iff.mpr ⟨mem, ?_, fun r memR selected => least r memR (selectable r memR selected)⟩
    have free : blockedByOlder outbox head = false := by
      refine List.any_eq_false.mpr fun older memOlder => ?_
      simp only [Bool.and_eq_true, beq_iff_eq, decide_eq_true_eq]
      rintro ⟨⟨lane, less⟩, unsettled⟩
      -- what blocks the head could be reached before it
      have reached : ready outbox now filter older = true := by
        refine ready_iff.mpr ⟨(admits_lane lane).trans admitted, unsettled, ?_⟩
        intro other memOther laneOther lessOther unsettledOther
        exact front other memOther (laneOther.trans lane) (by omega) unsettledOther
      have := least older memOlder reached
      omega
    simp [front head mem rfl (Nat.le_refl _) waiting, admitted, free]

theorem outbox_ext {a b : Outbox} (rows : a.rows = b.rows) (next : a.nextKey = b.nextKey) :
    a = b := by
  cases a
  cases b
  cases rows
  cases next
  rfl

def deliver (outbox : Outbox) (row : WebSubmission) (rid : String) : Outbox :=
  outbox.update (fun r => r.id == row.id) (·.delivered rid) (delivered_id rid)

theorem mem_deliver {rid : String} {r : WebSubmission} (mem : row ∈ outbox.rows) :
    r ∈ (deliver outbox row rid).rows ↔ (r ∈ outbox.rows ∧ r.id ≠ row.id) ∨ r = row.delivered rid := by
  rw [deliver, SerialTable.mem_update]
  simp only [beq_eq_false_iff_ne, beq_iff_eq]
  refine or_congr_right ⟨?_, ?_⟩
  · rintro ⟨old, memOld, same, rfl⟩
    rw [outbox.rows_injective memOld mem same]
  · rintro rfl
    exact ⟨row, mem, rfl, rfl⟩

theorem delivered_not_due (rid : String) (row : WebSubmission) (now : Rat) :
    (row.delivered rid).due now = false := rfl

/- A delivery leaves the other rows within reach. -/
theorem ready_deliver {rid : String} {r : WebSubmission} (mem : row ∈ outbox.rows)
    (isReady : ready outbox now filter row = true) :
    ready (deliver outbox row rid) now filter r = ready outbox now filter r := by
  rw [Bool.eq_iff_iff, ready_iff, ready_iff]
  refine and_congr_right fun _ => and_congr_right fun _ => ⟨?_, ?_⟩
  · intro front older memOlder lane less waiting
    by_cases same : older.id = row.id
    · rw [outbox.rows_injective memOlder mem same]
      obtain ⟨-, unsettled, own⟩ := ready_iff.mp isReady
      exact own row mem rfl (Nat.le_refl _) unsettled
    · exact front older ((mem_deliver mem).mpr (.inl ⟨memOlder, same⟩)) lane less waiting
  · intro front older memOlder lane less waiting
    rcases (mem_deliver mem).mp memOlder with ⟨old, -⟩ | rfl
    · exact front older old lane less waiting
    · cases waiting

/- Delivering the first selected row takes it from the selection and leaves the others. -/
theorem filter_deliver {p q : WebSubmission → Bool} {rid : String}
    (found : outbox.first? p = some row) (settled : q (row.delivered rid) = false)
    (others : ∀ r, r.id ≠ row.id → q r = p r) :
    outbox.rows.filter p = row :: (deliver outbox row rid).rows.filter q := by
  obtain ⟨isSelected, front, back, split, early⟩ := List.find?_eq_some_iff_append.mp found
  have sorted := List.pairwise_append.mp (split ▸ outbox.ordered)
  have rest : (deliver outbox row rid).rows.filter q =
      outbox.rows.filter fun r => p r && r.id != row.id := by
    have rows : (deliver outbox row rid).rows = outbox.rows.map fun r =>
        if (r.id == row.id) = true then r.delivered rid else r := rfl
    have selects : ∀ r ∈ outbox.rows,
        (q ∘ fun r => if (r.id == row.id) = true then r.delivered rid else r) r =
          (p r && r.id != row.id) := by
      intro r mem
      by_cases same : r.id = row.id
      · obtain rfl := outbox.rows_injective mem (SerialTable.first_some found).1 same
        simp [settled]
      · simp [same, others r same]
    rw [rows, List.filter_map, List.filter_congr selects]
    refine (List.map_congr_left fun r held => ?_).trans (List.map_id _)
    have other : r.id ≠ row.id := by
      have kept := (List.mem_filter.mp held).2
      simp only [Bool.and_eq_true, bne_iff_ne] at kept
      exact kept.2
    simp [other]
  have nothing : front.filter p = [] :=
    List.filter_eq_nil_iff.mpr fun r held => by simpa using early r held
  have nothing' : front.filter (fun r => p r && r.id != row.id) = [] :=
    List.filter_eq_nil_iff.mpr fun r held => by
      have miss := early r held
      simp only [Bool.not_eq_true'] at miss
      simp [miss]
  have same : back.filter (fun r => p r && r.id != row.id) = back.filter p :=
    List.filter_congr fun r held => by
      have later := List.rel_of_pairwise_cons sorted.2.1 held
      have apart : r.id ≠ row.id := by omega
      simp [apart]
  rw [rest, split, List.filter_append, List.filter_append, nothing, nothing', List.filter_cons,
    List.filter_cons, if_pos isSelected, same]
  simp

/- The rows that can be reached, before and after the first one is delivered. -/
theorem ready_rows (rid : String) (found : outbox.first? (ready outbox now filter) = some row) :
    outbox.rows.filter (ready outbox now filter) =
      row :: (deliver outbox row rid).rows.filter (ready (deliver outbox row rid) now filter) := by
  obtain ⟨mem, isReady⟩ := SerialTable.first_some found
  exact filter_deliver found (by simp [ready, delivered_settled]) fun r _ =>
    ready_deliver mem isReady

/- The rows of a delivery, once the rest of its batch is delivered as well. -/
theorem deliver_rows {rids : String → String} {rest : List WebSubmission} (mem : row ∈ outbox.rows)
    (once : ∀ other ∈ rest, other.id ≠ row.id) :
    ((deliver outbox row (rids row.submissionId)).rows.map fun r =>
        if rest.any (·.id == r.id) = true then r.delivered (rids r.submissionId) else r) =
      outbox.rows.map fun r =>
        if (row :: rest).any (·.id == r.id) = true then r.delivered (rids r.submissionId) else r := by
  refine (List.map_map ..).trans (List.map_congr_left fun r held => ?_)
  by_cases same : r.id = row.id
  · obtain rfl := outbox.rows_injective held mem same
    have apart : rest.any (·.id == r.id) = false :=
      List.any_eq_false.mpr fun other inRest => by simpa using once other inRest
    simp only [Function.comp, beq_self_eq_true, if_true, delivered_id, apart, List.any_cons,
      Bool.true_or, Bool.false_eq_true, if_false]
  · simp [same, Ne.symm same]

end Claim

/-- The OJ answers every request for the row with the rid of its submission id. -/
def Worker.Accepts (worker : Worker) (rids : String → String) (row : WebSubmission) : Prop :=
  ∀ sent kind, sent.receipt = row.receipt →
    ((worker.exchange sent kind).result worker.conversions).ok = true ∧
    ((worker.exchange sent kind).result worker.conversions).rid = rids row.submissionId ∧
    rids row.submissionId ≠ ""

/-- The OJ answers for every waiting row, and no retry time or lease of a row runs out between
    the calls. -/
structure Worker.Served (worker : Worker) (rids : String → String) (now : Rat) (outbox : Outbox) :
    Prop where
  accepts : ∀ row ∈ outbox.rows, row.judgeState.unsettled = true → worker.Accepts rids row
  steady : ∀ call, ∀ row ∈ outbox.rows, row.due (worker.clock call).claim = row.due now

section Calls
variable {worker : Worker} {rids : String → String} {now : Rat} {outbox : Outbox}
  {filter : LaneFilter} {kind : JudgeKind} {row : WebSubmission} {call : Nat}

theorem Served.deliver (served : worker.Served rids now outbox) (mem : row ∈ outbox.rows)
    (rid : String) : worker.Served rids now (deliver outbox row rid) where
  accepts r held waiting := by
    rcases (mem_deliver mem).mp held with ⟨old, -⟩ | rfl
    · exact served.accepts r old waiting
    · cases waiting
  steady call r held := by
    rcases (mem_deliver mem).mp held with ⟨old, -⟩ | rfl
    · exact served.steady call r old
    · rw [delivered_not_due, delivered_not_due]

theorem ready_steady (served : worker.Served rids now outbox) (call : Nat) :
    ready outbox (worker.clock call).claim filter = ready outbox now filter := by
  funext r
  rw [Bool.eq_iff_iff, ready_iff, ready_iff]
  refine and_congr_right fun _ => and_congr_right fun _ => forall_congr' fun older =>
    forall_congr' fun mem => ?_
  rw [served.steady call older mem]

/- Claiming a row and then writing its result touches that row only. -/
theorem written_rows (row : WebSubmission) {lease result : WebSubmission → WebSubmission}
    {owned : WebSubmission → Bool} {rid : String}
    (holds : owned (lease row) = true) (final : result (lease row) = row.delivered rid)
    (keeps : ∀ r, (lease r).id = r.id) (mem : row ∈ outbox.rows) :
    ((outbox.rows.map fun r => if (r.id == row.id) = true then lease r else r).map fun r =>
        if (r.id == row.id && owned r) = true then result r else r) =
      (deliver outbox row rid).rows := by
  refine (List.map_map ..).trans (List.map_congr_left fun r held => ?_)
  by_cases same : r.id = row.id
  · obtain rfl := outbox.rows_injective held mem same
    simp [keeps, holds, final]
  · simp [same]

theorem processOnce_idle (served : worker.Served rids now outbox)
    (nothing : outbox.first? (ready outbox now filter) = none) :
    worker.processOnce call filter kind outbox = .ok (outbox, none) := by
  rw [← ready_steady served call, ← claim_selects_first] at nothing
  simp only [Worker.processOnce, claimNextWebSubmission,
    raiseIf_neg (not_le.mpr worker.judge.leased), ok_bind, nothing]
  rfl

/- One call claims the first row within reach and writes the rid into it. -/
theorem processOnce_head (accepts : worker.Accepts rids row)
    (found : outbox.first? (ready outbox (worker.clock call).claim filter) = some row) :
    worker.processOnce call filter kind outbox =
      .ok (deliver outbox row (rids row.submissionId),
        some (row.delivered (rids row.submissionId))) := by
  have mem := (SerialTable.first_some found).1
  rw [← claim_selects_first] at found
  let lease (r : WebSubmission) : WebSubmission :=
    { r with
      judgeState := .sending
      attempts := r.attempts + 1
      leaseUntil := (worker.clock call).claim + worker.judge.leaseSeconds
      leaseToken := worker.token call }
  let claimed : Outbox := outbox.update (fun r => r.id == row.id) lease (fun _ => rfl)
  have held : lease row ∈ claimed.rows :=
    SerialTable.mem_update.mpr (.inr ⟨row, mem, beq_self_eq_true _, rfl⟩)
  have reply : claimed.byKey row.id = some (lease row) := SerialTable.byKey_some_iff.mpr ⟨held, rfl⟩
  have claims : claimNextWebSubmission outbox (worker.clock call).claim worker.judge.leaseSeconds
      filter (worker.token call) = .ok (claimed, some (lease row)) := by
    rw [claimNextWebSubmission, raiseIf_neg (not_le.mpr worker.judge.leased), ok_bind, found,
      ← reply]
    rfl
  obtain ⟨ok, rid, filled⟩ := accepts (lease row) kind rfl
  have reports : worker.judge.report worker.conversions worker.dumps (lease row)
      (worker.exchange (lease row) kind) (worker.clock call).retry (worker.clock call).check =
      .markSubmitted row.id (worker.token call) (rids row.submissionId) := by
    simp [RealtimeJudge.report, ok, rid, filled, lease]
  have owned : claimed.first? (fun r => r.id == row.id && r.leasedBy (worker.token call)) =
      some (lease row) := by
    refine first_iff.mpr ⟨held, by simp [lease, WebSubmission.leasedBy], fun other _ hit => ?_⟩
    simp only [Bool.and_eq_true, beq_iff_eq] at hit
    exact Nat.le_of_eq hit.1.symm
  have written : (Operation.markSubmitted row.id (worker.token call)
      (rids row.submissionId)).apply claimed = .ok (deliver outbox row (rids row.submissionId)) := by
    have named : ¬ (rids row.submissionId).isEmpty = true := by simpa using filled
    rw [Operation.apply, markWebSubmissionSubmitted, raiseIf_neg named, ok_bind, updateOne, owned]
    refine congrArg Except.ok (outbox_ext ?_ rfl)
    exact written_rows row (by simp [lease, WebSubmission.leasedBy]) rfl (fun _ => rfl) mem
  have answered : (deliver outbox row (rids row.submissionId)).byKey row.id =
      some (row.delivered (rids row.submissionId)) :=
    SerialTable.byKey_some_iff.mpr ⟨(mem_deliver mem).mpr (.inr rfl), rfl⟩
  simp only [Worker.processOnce, claims, ok_bind, reports, written]
  exact congrArg (fun reply => Except.ok (_, reply)) answered

end Calls

def sampleDelivery : Worker where
  judge := sampleJudge
  conversions := ⟨fun _ => none, fun _ => .refused, fun _ => "", fun _ => true⟩
  dumps := fun _ => ""
  exchange row _ :=
    .exchanged (.response 200 (some (.mapping [("rid", .text row.submissionId)])) "")
  clock _ := ⟨10, 10, 10⟩
  token call := toString call

/- Three saved versions of one problem. -/
def savedVersions : Outbox := (Runs.run History.step History.empty threeVersions).outbox

theorem sampleDelivery_accepts {row : WebSubmission} (filled : row.submissionId ≠ "") :
    sampleDelivery.Accepts (fun id => id) row := by
  intro sent kind same
  have same : sent.receipt.submissionId = row.receipt.submissionId := by rw [same]
  have id : sent.submissionId = row.submissionId := same
  simp [sampleDelivery, Attempt.result, submitOne, okStatus, PyValue.get, PyValue.truthy,
    PyValue.toStr, id, filled]

/- What the run leaves behind, evaluated once. -/
theorem savedVersions_waiting :
    (∀ row ∈ savedVersions.rows, row.submissionId ≠ "" ∧ ready savedVersions 10 {} row = true) ∧
      (savedVersions.rows.map fun row =>
        if (savedVersions.rows.take 2).any (·.id == row.id) then row.delivered row.submissionId
        else row).map (·.judgeState) = [.submitted, .submitted, .pending] := by
  decide +kernel

theorem sampleDelivery_served : sampleDelivery.Served (fun id => id) 10 savedVersions where
  accepts row mem _ := sampleDelivery_accepts (savedVersions_waiting.1 row mem).1
  steady _ _ _ := rfl

end NoiContest.WebOutbox
