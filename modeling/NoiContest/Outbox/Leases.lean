import NoiContest.Outbox.RowChanges
import Mathlib.Data.List.Induction

/- Ambiguous rows and delivery leases, over every interleaving of workers. A row whose outcome
   is unknown leaves that state only by an exact resolution, and a completion counts only while
   its token is the one that the latest claim of the row has issued. -/
namespace NoiContest.WebOutbox
open Outcome

section Parked
variable {outbox next : Outbox} {operation : Operation} {row row' : WebSubmission}

/- What a transaction can do to a row that is ambiguous. -/
theorem ambiguous_step (step : RowStep outbox operation row row')
    (ambiguous : row.judgeState = .ambiguous) :
    row'.judgeState = .ambiguous ∨ ∃ submissionId rid status now,
      operation = .finishAmbiguous row.id submissionId (some rid) status now ∧
        PyText.isLowerHexOf 24 rid.toLower = true ∧ row'.judgeState = .submitted ∧
        row'.rid = rid.toLower := by
  rcases step with rfl | change
  · exact .inl ambiguous
  · cases change with
    | claimed due head answered => simp [WebSubmission.due, ambiguous] at due
    | submitted owned named => simp [WebSubmission.leasedBy, ambiguous] at owned
    | failed owned unsent => simp [WebSubmission.leasedBy, ambiguous] at owned
    | polled waiting => exact .inl ambiguous
    | resolved waiting hex => exact .inr ⟨_, _, _, _, rfl, hex, rfl, rfl⟩
    | unresolved waiting lastError resolutionAfter => exact .inl ambiguous
    | requeued found hit => simp [WebOutbox.requeued, ambiguous, JudgeState.requeueable] at hit

/- A submitted row is never touched again. -/
theorem submitted_step (step : RowStep outbox operation row row')
    (submitted : row.judgeState = .submitted) : row' = row := by
  rcases step with same | change
  · exact same
  · cases change with
    | claimed due head answered => simp [WebSubmission.due, submitted] at due
    | submitted owned named => simp [WebSubmission.leasedBy, submitted] at owned
    | failed owned unsent => simp [WebSubmission.leasedBy, submitted] at owned
    | polled waiting => simp [submitted] at waiting
    | resolved waiting hex => simp [submitted] at waiting
    | unresolved waiting lastError resolutionAfter => simp [submitted] at waiting
    | requeued found hit => simp [WebOutbox.requeued, submitted, JudgeState.requeueable] at hit

/-- The row of this id waits for its resolution, or has had it. -/
def Parked (id : Nat) (outbox : Outbox) : Prop :=
  ∃ row ∈ outbox.rows, row.id = id ∧ (row.judgeState = .ambiguous ∨ row.judgeState = .submitted)

theorem commit_parked {id : Nat} (outbox : Outbox) (operation : Operation)
    (parked : Parked id outbox) : Parked id (commit outbox operation) := by
  obtain ⟨row, mem, rfl, state⟩ := parked
  obtain ⟨row', mem', step⟩ := effect_keeps (commit_effect outbox operation) mem
  refine ⟨row', mem', step.same_id, ?_⟩
  rcases state with ambiguous | submitted
  · rcases ambiguous_step step ambiguous with still | ⟨_, _, _, _, _, _, submitted, _⟩
    · exact .inl still
    · exact .inr submitted
  · rw [submitted_step step submitted]
    exact .inr submitted

theorem parked_not_claimed {now leaseSeconds : Rat} {filter : LaneFilter} {leaseToken : String}
    {claimed : WebSubmission} {id : Nat} (parked : Parked id outbox)
    (done : claimNextWebSubmission outbox now leaseSeconds filter leaseToken =
      .ok (next, some claimed)) : claimed.id ≠ id := by
  obtain ⟨row, mem, due, -, -, same, -⟩ := claimNext_some done
  rintro rfl
  obtain ⟨parkedRow, memParked, sameId, state⟩ := parked
  have itself : parkedRow = row := outbox.rows_injective memParked mem (sameId.trans same)
  rw [itself] at state
  rcases state with ambiguous | submitted
  · simp [WebSubmission.due, ambiguous] at due
  · simp [WebSubmission.due, submitted] at due

/- The claimed row is the head of its lane. -/
theorem claimed_before_ambiguous {now leaseSeconds : Rat} {filter : LaneFilter}
    {leaseToken : String} {claimed : WebSubmission} (mem : row ∈ outbox.rows)
    (ambiguous : row.judgeState = .ambiguous)
    (done : claimNextWebSubmission outbox now leaseSeconds filter leaseToken =
      .ok (next, some claimed)) (lane : claimed.lane = row.lane) : claimed.id < row.id := by
  obtain ⟨head, memHead, due, -, free, same, changed⟩ := claimNext_some done
  have laneHead : claimed.lane = head.lane := by
    have answer : next.byKey claimed.id = some claimed := by
      obtain ⟨_, -, done⟩ := bind_ok.mp done
      split at done
      · cases done
      · simp only [pure_eq_ok, Prod.mk.injEq] at done
        have keyed := (SerialTable.byKey_some_iff.mp done.2).2
        rw [← done.1, keyed]
        exact done.2
    obtain ⟨memClaimed, -⟩ := SerialTable.byKey_some_iff.mp answer
    rw [changed] at memClaimed
    rcases SerialTable.mem_update.mp memClaimed with ⟨_, miss⟩ | ⟨old, memOld, hit, rfl⟩
    · simp [same] at miss
    · have itself : old = head := outbox.rows_injective memOld memHead (by simpa using hit)
      rw [← itself]
      rfl
  rcases Nat.lt_trichotomy claimed.id row.id with less | equal | more
  · exact less
  · have itself : head = row := outbox.rows_injective memHead mem (same.symm.trans equal)
    simp [WebSubmission.due, itself, ambiguous] at due
  · have clear := List.any_eq_false.mp free row mem
    have older : row.id < head.id := same ▸ more
    simp [← lane, laneHead, older, ambiguous, JudgeState.unsettled] at clear

def laneOnly (row : WebSubmission) : LaneFilter := ⟨some row.tid, some row.uid, some row.problem⟩

theorem laneOnly_admits {other : WebSubmission} :
    (laneOnly row).admits other = true ↔ other.lane = row.lane := by
  simp only [laneOnly, LaneFilter.admits, Option.all_some, Bool.and_eq_true, beq_iff_eq,
    WebSubmission.lane, Lane.mk.injEq]
  constructor
  · rintro ⟨⟨tid, uid⟩, problem⟩
    exact ⟨tid.symm, uid.symm, problem.symm⟩
  · rintro ⟨tid, uid, problem⟩
    exact ⟨⟨tid.symm, uid.symm⟩, problem.symm⟩

/- The due head of a lane is claimed by a claim for the lane, whatever the other lanes hold. -/
theorem lane_head_claimed {now leaseSeconds : Rat} (leaseToken : String) (mem : row ∈ outbox.rows)
    (due : row.due now = true) (positive : 0 < leaseSeconds)
    (head : ∀ older ∈ outbox.rows, older.lane = row.lane → older.id < row.id →
      older.judgeState.unsettled = false) :
    ∃ next claimed, claimNextWebSubmission outbox now leaseSeconds (laneOnly row) leaseToken =
      .ok (next, some claimed) ∧ claimed.id = row.id := by
  have free : blockedByOlder outbox row = false := by
    refine List.any_eq_false.mpr fun older memOlder => ?_
    simp only [Bool.and_eq_true, beq_iff_eq, decide_eq_true_eq]
    rintro ⟨⟨lane, less⟩, waiting⟩
    rw [head older memOlder lane less] at waiting
    cases waiting
  have eligible : (row.due now && (laneOnly row).admits row && !blockedByOlder outbox row) =
      true := by
    simp [due, laneOnly_admits, free]
  obtain ⟨first, found⟩ : ∃ first, outbox.first? (fun row' =>
      row'.due now && (laneOnly row).admits row' && !blockedByOlder outbox row') = some first := by
    refine Option.ne_none_iff_exists'.mp fun absent => ?_
    have miss := SerialTable.first_none.mp absent row mem
    rw [eligible] at miss
    cases miss
  obtain ⟨memFirst, selected⟩ := SerialTable.first_some found
  simp only [Bool.and_eq_true, Bool.not_eq_true', laneOnly_admits] at selected
  have same : first.id = row.id := by
    rcases Nat.lt_trichotomy first.id row.id with less | equal | more
    · have settled := head first memFirst selected.1.2 less
      rw [due_unsettled selected.1.1] at settled
      cases settled
    · exact equal
    · have clear := List.any_eq_false.mp selected.2 row mem
      simp [selected.1.2, more, due_unsettled due] at clear
  let lease (r : WebSubmission) : WebSubmission :=
    { r with
      judgeState := .sending
      attempts := r.attempts + 1
      leaseUntil := now + leaseSeconds
      leaseToken := leaseToken }
  let next : Outbox := outbox.update (fun r => r.id == first.id) lease (fun _ => rfl)
  have answer : next.byKey first.id = some (lease first) :=
    SerialTable.byKey_some_iff.mpr
      ⟨SerialTable.mem_update.mpr (.inr ⟨first, memFirst, beq_self_eq_true _, rfl⟩), rfl⟩
  refine ⟨next, lease first, ?_, same⟩
  rw [claimNextWebSubmission, raiseIf_neg (not_le.mpr positive), ok_bind, found, ← answer]
  rfl

/-- What an ambiguous row does to the table, and what may happen to it. -/
structure HoldsLane (outbox : Outbox) (row : WebSubmission) : Prop where
  younger_waits : ∀ now leaseSeconds filter leaseToken next claimed,
    claimNextWebSubmission outbox now leaseSeconds filter leaseToken = .ok (next, some claimed) →
      claimed.lane = row.lane → claimed.id < row.id
  requeue_keeps : ∀ id next, requeueWebSubmissionForFinal outbox id = .ok next → row ∈ next.rows
  only_resolved : ∀ operation, ∀ row' ∈ (commit outbox operation).rows, row'.id = row.id →
    row'.judgeState ≠ .ambiguous → ∃ submissionId rid status now,
      operation = .finishAmbiguous row.id submissionId (some rid) status now ∧
        PyText.isLowerHexOf 24 rid.toLower = true ∧ row'.judgeState = .submitted ∧
        row'.rid = rid.toLower
  others_go_on : ∀ other ∈ outbox.rows, other.lane ≠ row.lane → ∀ now leaseSeconds leaseToken,
    other.due now = true → 0 < leaseSeconds →
      (∀ older ∈ outbox.rows, older.lane = other.lane → older.id < other.id →
        older.judgeState.unsettled = false) →
      ∃ next claimed, claimNextWebSubmission outbox now leaseSeconds (laneOnly other) leaseToken =
        .ok (next, some claimed) ∧ claimed.id = other.id

theorem ambiguous_holds_lane (mem : row ∈ outbox.rows) (ambiguous : row.judgeState = .ambiguous) :
    HoldsLane outbox row where
  younger_waits _ _ _ _ _ _ := claimed_before_ambiguous mem ambiguous
  requeue_keeps := by
    intro id next done
    obtain ⟨row', mem', step⟩ := effect_keeps (requeueForFinal_effect done) mem
    rcases step with rfl | change
    · exact mem'
    · cases change with
      | requeued found hit => simp [WebOutbox.requeued, ambiguous, JudgeState.requeueable] at hit
  only_resolved := by
    intro operation row' mem' same left
    have step := effect_follows (commit_effect outbox operation) mem mem' same
    exact (ambiguous_step step ambiguous).resolve_left left
  others_go_on := by
    intro other memOther _ now leaseSeconds leaseToken due positive head
    exact lane_head_claimed leaseToken memOther due positive head

end Parked

/- In every interleaving, a row that is ambiguous is never claimed again, and for as long as it
   stays so it holds up its lane and nothing else. -/
theorem ambiguous_never_replayed {outbox : Outbox} {row : WebSubmission} (mem : row ∈ outbox.rows)
    (ambiguous : row.judgeState = .ambiguous) (operations : List Operation) :
    let later := Runs.run commit outbox operations
    Parked row.id later ∧
      (∀ now leaseSeconds filter leaseToken next claimed,
        claimNextWebSubmission later now leaseSeconds filter leaseToken =
          .ok (next, some claimed) → claimed.id ≠ row.id) ∧
      ∀ row' ∈ later.rows, row'.id = row.id → row'.judgeState = .ambiguous →
        HoldsLane later row' := by
  intro later
  have parked : Parked row.id later :=
    Runs.run_invariant (Parked row.id) (fun s i => commit_parked s i)
      ⟨row, mem, rfl, .inl ambiguous⟩ operations
  exact ⟨parked, fun _ _ _ _ _ _ => parked_not_claimed parked,
    fun _ mem' _ still => ambiguous_holds_lane mem' still⟩

/- The first of three versions gets no answer. The collection requeues the second, and a worker
   asks for work long after every lease has run out. -/
def unansweredRun : List Operation :=
  threeVersions ++ [.claimNext 10 90 {} "w1", .markFailed 1 "w1" "timeout" none true (some 40)]

theorem unanswered_version_parked :
    Parked 1 (Runs.run commit (Runs.run commit Outbox.empty unansweredRun)
      [.requeueForFinal 2, .claimNext 500 90 {} "w2"]) := by
  have stored : ∃ row ∈ (Runs.run commit Outbox.empty unansweredRun).rows,
      row.id = 1 ∧ row.judgeState = .ambiguous := by decide +kernel
  obtain ⟨row, mem, same, ambiguous⟩ := stored
  rw [← same]
  exact (ambiguous_never_replayed mem ambiguous _).1

/- Leases -/

/-- The transaction claims the row and issues this token. -/
def Operation.Claims (outbox : Outbox) (id : Nat) (token : String) : Operation → Prop
  | .claimNext now leaseSeconds filter leaseToken => leaseToken = token ∧
      ∃ next claimed, claimNextWebSubmission outbox now leaseSeconds filter leaseToken =
        .ok (next, some claimed) ∧ claimed.id = id
  | _ => False

/-- The transaction gives the row back for the final delivery. -/
def Operation.Requeues (outbox : Outbox) (id : Nat) : Operation → Prop
  | .requeueForFinal target => ∃ row ∈ outbox.rows, row.id = id ∧
      ∃ next, requeueWebSubmissionForFinal outbox target = .ok next ∧ row.final ∈ next.rows
  | _ => False

def tableAfter (operations : List Operation) : Outbox := Runs.run commit Outbox.empty operations

/-- The token is the one that the latest claim of the row has issued, and the row was not
    requeued since. -/
def LatestClaim (operations : List Operation) (id : Nat) (token : String) : Prop :=
  ∃ front claim back, operations = front ++ claim :: back ∧
    claim.Claims (tableAfter front) id token ∧
    ∀ middle operation rest, back = middle ++ operation :: rest →
      (∀ other, ¬ operation.Claims (tableAfter (front ++ claim :: middle)) id other) ∧
      ¬ operation.Requeues (tableAfter (front ++ claim :: middle)) id

theorem tableAfter_concat (operations : List Operation) (operation : Operation) :
    tableAfter (operations ++ [operation]) = commit (tableAfter operations) operation := by
  rw [tableAfter, Runs.run_append]
  rfl

theorem latestClaim_new {operations : List Operation} {operation : Operation} {id : Nat}
    {token : String} (claims : operation.Claims (tableAfter operations) id token) :
    LatestClaim (operations ++ [operation]) id token := by
  refine ⟨operations, operation, [], rfl, claims, ?_⟩
  intro middle other rest split
  simp at split

theorem latestClaim_kept {operations : List Operation} {operation : Operation} {id : Nat}
    {token : String} (latest : LatestClaim operations id token)
    (unclaimed : ∀ other, ¬ operation.Claims (tableAfter operations) id other)
    (kept : ¬ operation.Requeues (tableAfter operations) id) :
    LatestClaim (operations ++ [operation]) id token := by
  obtain ⟨front, claim, back, rfl, claims, quiet⟩ := latest
  refine ⟨front, claim, back ++ [operation], by simp, claims, ?_⟩
  intro middle other rest split
  rcases List.append_eq_append_iff.mp split with ⟨more, rfl, last⟩ | ⟨more, rfl, last⟩
  · -- the step is the new one, or nothing is left for it
    cases more with
    | nil =>
      simp only [List.nil_append, List.cons.injEq, List.nil_eq] at last
      obtain ⟨rfl, -⟩ := last
      rw [List.append_nil] at *
      exact ⟨unclaimed, kept⟩
    | cons head more =>
      simp at last
  · cases more with
    | nil =>
      simp only [List.nil_append, List.cons.injEq] at last
      obtain ⟨rfl, -⟩ := last
      rw [List.append_nil] at *
      exact ⟨unclaimed, kept⟩
    | cons head more =>
      simp only [List.cons_append, List.cons.injEq] at last
      obtain ⟨rfl, rfl⟩ := last
      exact quiet middle _ _ rfl

/-- The bookkeeping of the delivery columns in a table that came about from the empty one. -/
structure Ledger (operations : List Operation) : Prop where
  leased : ∀ row ∈ (tableAfter operations).rows, row.judgeState = .sending →
    LatestClaim operations row.id row.leaseToken
  named : ∀ row ∈ (tableAfter operations).rows, row.rid ≠ "" ↔ row.judgeState = .submitted

theorem appended_fresh {operation : Operation} {make : Nat → WebSubmission}
    (appends : operation.Appends make) (n : Nat) :
    (make n).rid = "" ∧ (make n).judgeState ≠ .sending ∧ (make n).judgeState ≠ .submitted := by
  cases operation with
  | enqueue contest request createdAt =>
    rw [show make = request.row createdAt from appends]
    exact ⟨rfl, by simp [EnqueueRequest.row], by simp [EnqueueRequest.row]⟩
  | addLocal tid uid problem source createdAt =>
    cases appends
    exact ⟨rfl, by simp, by simp⟩
  | _ => cases appends

theorem hex_not_empty {s : String} (hex : PyText.isLowerHexOf 24 s = true) : s ≠ "" := by
  rintro rfl
  revert hex
  decide

theorem rowChange_named {outbox : Outbox} {operation : Operation} {row row' : WebSubmission}
    (change : RowChange outbox row operation row')
    (named : row.rid ≠ "" ↔ row.judgeState = .submitted) :
    row'.rid ≠ "" ↔ row'.judgeState = .submitted := by
  cases change with
  | claimed due head answered =>
    have unsent : row.judgeState ≠ .submitted := by
      intro submitted
      simp [WebSubmission.due, submitted] at due
    simpa [unsent] using named
  | submitted owned rid =>
    simpa using rid
  | failed owned unsent =>
    have sending : row.judgeState ≠ .submitted := by
      intro submitted
      simp [WebSubmission.leasedBy, submitted] at owned
    simpa [sending, unsent.1] using named
  | polled waiting => exact named
  | resolved waiting hex => simpa using hex_not_empty hex
  | unresolved waiting lastError resolutionAfter => exact named
  | requeued found hit =>
    have unsent : row.judgeState ≠ .submitted := by
      intro submitted
      simp [WebOutbox.requeued, submitted, JudgeState.requeueable] at hit
    simpa [WebSubmission.final, unsent] using named

/- A row that is on its way was so before, under the same token, or was claimed just now. -/
theorem rowStep_sending {outbox : Outbox} {operation : Operation} {row row' : WebSubmission}
    (step : RowStep outbox operation row row') (sending : row'.judgeState = .sending) :
    operation.Claims outbox row.id row'.leaseToken ∨ row' = row := by
  rcases step with same | change
  · exact .inr same
  · cases change with
    | claimed due head answered => exact .inl ⟨rfl, answered⟩
    | submitted owned named => cases sending
    | failed owned unsent => exact absurd sending unsent.2
    | polled waiting => simp [waiting] at sending
    | resolved waiting hex => cases sending
    | unresolved waiting lastError resolutionAfter => simp [waiting] at sending
    | requeued found hit => cases sending

theorem claims_row {outbox next : Outbox} {id : Nat} {token : String} {operation : Operation}
    (claims : operation.Claims outbox id token) (done : operation.apply outbox = .ok next) :
    ∃ row ∈ outbox.rows, row.id = id ∧ ∃ row' ∈ next.rows, row'.id = id ∧
      row'.leaseToken = token ∧ row'.attempts = row.attempts + 1 := by
  cases operation with
  | claimNext now leaseSeconds filter leaseToken =>
    obtain ⟨rfl, after, claimed, answered, same⟩ := claims
    obtain ⟨row, mem, -, -, -, sameRow, changed⟩ := claimNext_some answered
    have applied : Operation.apply outbox (.claimNext now leaseSeconds filter leaseToken) =
        .ok after := by
      rw [Operation.apply, answered]
      rfl
    rw [applied] at done
    cases done
    refine ⟨row, mem, sameRow.symm.trans same, { row with
      judgeState := .sending
      attempts := row.attempts + 1
      leaseUntil := now + leaseSeconds
      leaseToken := leaseToken }, ?_, sameRow.symm.trans same, rfl, rfl⟩
    rw [changed]
    exact SerialTable.mem_update.mpr (.inr ⟨row, mem, beq_self_eq_true _, rfl⟩)
  | _ => cases claims

theorem apply_of_claims {outbox : Outbox} {id : Nat} {token : String} {operation : Operation}
    (claims : operation.Claims outbox id token) :
    operation.apply outbox = .ok (commit outbox operation) := by
  cases operation with
  | claimNext now leaseSeconds filter leaseToken =>
    obtain ⟨-, after, claimed, answered, -⟩ := claims
    have applied : Operation.apply outbox (.claimNext now leaseSeconds filter leaseToken) =
        .ok after := by
      rw [Operation.apply, answered]
      rfl
    rw [commit, applied]
  | _ => cases claims

theorem unchanged_not_claimed {outbox : Outbox} {operation : Operation} {row : WebSubmission}
    (mem : row ∈ outbox.rows) (still : row ∈ (commit outbox operation).rows) (token : String) :
    ¬ operation.Claims outbox row.id token := by
  intro claims
  obtain ⟨old, memOld, sameOld, new, memNew, sameNew, -, counted⟩ :=
    claims_row claims (apply_of_claims claims)
  have first : old = row := outbox.rows_injective memOld mem sameOld
  have second : new = row := (commit outbox operation).rows_injective memNew still sameNew
  rw [first, second] at counted
  omega

theorem sending_not_requeued {outbox : Outbox} {operation : Operation} {row : WebSubmission}
    (mem : row ∈ outbox.rows) (still : row ∈ (commit outbox operation).rows)
    (sending : row.judgeState = .sending) : ¬ operation.Requeues outbox row.id := by
  intro requeues
  cases operation with
  | requeueForFinal target =>
    obtain ⟨old, memOld, sameOld, next, done, memFinal⟩ := requeues
    have first : old = row := outbox.rows_injective memOld mem sameOld
    have after : commit outbox (.requeueForFinal target) = next := by
      rw [commit, Operation.apply, done]
    rw [after] at still
    have second : old.final = row := next.rows_injective memFinal still sameOld
    rw [← second] at sending
    cases sending
  | _ => cases requeues

theorem ledger_step (operations : List Operation) (operation : Operation)
    (ledger : Ledger operations) : Ledger (operations ++ [operation]) := by
  have effect := commit_effect (tableAfter operations) operation
  constructor
  · intro row' mem' sending
    have memHere := mem'
    rw [tableAfter_concat] at memHere
    rcases effect_origin effect memHere with ⟨row, mem, step⟩ | ⟨make, appends, rfl⟩
    · rcases rowStep_sending step sending with claims | same
      · rw [step.same_id]
        exact latestClaim_new claims
      · subst same
        exact latestClaim_kept (ledger.leased row' mem sending)
          (unchanged_not_claimed mem memHere) (sending_not_requeued mem memHere sending)
    · exact absurd sending (appended_fresh appends _).2.1
  · intro row' mem'
    rw [tableAfter_concat] at mem'
    rcases effect_origin effect mem' with ⟨row, mem, same | change⟩ | ⟨make, appends, rfl⟩
    · rw [same]
      exact ledger.named row mem
    · exact rowChange_named change (ledger.named row mem)
    · obtain ⟨blank, -, unsent⟩ := appended_fresh appends (tableAfter operations).nextKey
      simp [blank, unsent]

/- By induction on the run, from its last transaction. -/
theorem ledger_always (operations : List Operation) : Ledger operations := by
  induction operations using List.reverseRecOn with
  | nil =>
    constructor
    · intro row mem
      simp [tableAfter, Outbox.empty] at mem
    · intro row mem
      simp [tableAfter, Outbox.empty] at mem
  | append_singleton operations operation ih => exact ledger_step operations operation ih

/-- A worker's report on the row, with the token that it holds. -/
inductive Report (id : Nat) (leaseToken : String) : Operation → Prop where
  | submitted (rid : String) (named : rid ≠ "") :
      Report id leaseToken (.markSubmitted id leaseToken rid)
  | failed (error : String) (retryAt : Option Rat) (ambiguous : Bool)
      (resolutionAfter : Option Rat) (retries : ambiguous = true → retryAt = none)
      (resolves : ambiguous = false → resolutionAfter = none) :
      Report id leaseToken
        (.markFailed id leaseToken error retryAt ambiguous resolutionAfter)

theorem updateOne_lost {outbox : Outbox} {id : Nat} {owned : WebSubmission → Bool}
    {change : WebSubmission → WebSubmission} {keeps : ∀ r, (change r).id = r.id} {lost : String}
    (stale : ∀ r ∈ outbox.rows, r.id = id → owned r = false) :
    updateOne outbox id owned change keeps lost = .error (.submissionLeaseLost lost) := by
  have none : outbox.first? (fun r => r.id == id && owned r) = none := by
    refine SerialTable.first_none.mpr fun r mem => ?_
    cases same : r.id == id with
    | false => rfl
    | true => exact stale r mem (by simpa using same)
  rw [updateOne, none]

/- Without the lease of the row, a report is refused. -/
theorem report_refused {outbox : Outbox} {operation : Operation} {id : Nat} {token : String}
    (report : Report id token operation)
    (stale : ∀ r ∈ outbox.rows, r.id = id → r.leasedBy token = false) :
    operation.apply outbox = .error (.submissionLeaseLost "submission delivery lease was lost") := by
  cases report with
  | submitted rid named =>
    have fine : ¬ rid.isEmpty = true := by simpa using named
    rw [Operation.apply, markWebSubmissionSubmitted, raiseIf_neg fine, ok_bind]
    exact updateOne_lost stale
  | failed error retryAt ambiguous resolutionAfter retries resolves =>
    have fine : ¬ (ambiguous && retryAt.isSome) = true := by
      cases ambiguous with
      | false => simp
      | true => simp [retries rfl]
    have scheduled : ¬ (resolutionAfter.isSome && !ambiguous) = true := by
      cases ambiguous with
      | false => simp [resolves rfl]
      | true => simp
    rw [Operation.apply, markWebSubmissionFailed, raiseIf_neg fine, ok_bind, raiseIf_neg scheduled,
      ok_bind]
    exact updateOne_lost stale

theorem leasedBy_iff {row : WebSubmission} {token : String} :
    row.leasedBy token = true ↔ row.judgeState = .sending ∧ row.leaseToken = token := by
  simp [WebSubmission.leasedBy]

/- A report changes at most its own row, and that only under the lease. -/
theorem report_changes {outbox : Outbox} {operation : Operation} {id : Nat} {token : String}
    (report : Report id token operation) {row : WebSubmission} (mem : row ∈ outbox.rows)
    (changes : row ∉ (commit outbox operation).rows) :
    row.id = id ∧ row.leasedBy token = true := by
  obtain ⟨row', mem', same | change⟩ := effect_keeps (commit_effect outbox operation) mem
  · rw [same] at mem'
    exact absurd mem' changes
  · cases report with
    | submitted rid named =>
      cases change with
      | submitted owned rid => exact ⟨rfl, owned⟩
    | failed error retryAt ambiguous resolutionAfter retries resolves =>
      cases change with
      | failed owned unsent => exact ⟨rfl, owned⟩

theorem submitted_forever {outbox : Outbox} {row : WebSubmission} (mem : row ∈ outbox.rows)
    (submitted : row.judgeState = .submitted) (more : List Operation) :
    row ∈ (Runs.run commit outbox more).rows := by
  refine Runs.run_invariant (fun table : Outbox => row ∈ table.rows) ?_ mem more
  intro table operation here
  obtain ⟨row', mem', step⟩ := effect_keeps (commit_effect table operation) here
  rw [submitted_step step submitted] at mem'
  exact mem'

/- In every interleaving from the empty table, a report touches only the row whose latest claim
   issued its token, a stale one is refused, and a submitted row is final. -/
theorem reports_fenced (operations : List Operation) :
    (∀ operation id token, Report id token operation →
      (∀ row ∈ (tableAfter operations).rows,
        row ∉ (commit (tableAfter operations) operation).rows →
          row.id = id ∧ LatestClaim operations id token) ∧
      (¬ LatestClaim operations id token →
        operation.apply (tableAfter operations) =
            .error (.submissionLeaseLost "submission delivery lease was lost") ∧
          commit (tableAfter operations) operation = tableAfter operations)) ∧
    (∀ row ∈ (tableAfter operations).rows, row.judgeState = .submitted → ∀ more,
      row ∈ (tableAfter (operations ++ more)).rows) ∧
    ∀ row ∈ (tableAfter operations).rows, row.rid ≠ "" ↔ row.judgeState = .submitted := by
  have ledger := ledger_always operations
  refine ⟨fun operation id token report => ⟨?_, ?_⟩, ?_, ledger.named⟩
  · intro row mem changes
    obtain ⟨same, owned⟩ := report_changes report mem changes
    obtain ⟨sending, issued⟩ := leasedBy_iff.mp owned
    have latest := ledger.leased row mem sending
    rw [same, issued] at latest
    exact ⟨same, latest⟩
  · intro stale
    have refused : operation.apply (tableAfter operations) =
        .error (.submissionLeaseLost "submission delivery lease was lost") := by
      refine report_refused report fun row mem same => ?_
      by_contra owned
      obtain ⟨sending, issued⟩ := leasedBy_iff.mp (Bool.not_eq_false _ ▸ owned)
      have latest := ledger.leased row mem sending
      rw [same, issued] at latest
      exact stale latest
    exact ⟨refused, by rw [commit, refused]⟩
  · intro row mem submitted more
    rw [tableAfter, Runs.run_append]
    exact submitted_forever mem submitted more

end NoiContest.WebOutbox
