import NoiContest.Outbox.Fifo

/- What a transaction can do to one row. The statement for a whole table is that a transaction
   keeps it, appends one fresh row, or changes each row in one of the ways below. -/
namespace NoiContest.WebOutbox
open Outcome

/-- The change of a row by a transaction on its table. -/
inductive RowChange (outbox : Outbox) (row : WebSubmission) : Operation → WebSubmission → Prop where
  | claimed {now leaseSeconds : Rat} {filter : LaneFilter} {leaseToken : String}
      (due : row.due now = true) (head : blockedByOlder outbox row = false)
      (answered : ∃ next claimed, claimNextWebSubmission outbox now leaseSeconds filter leaseToken =
        .ok (next, some claimed) ∧ claimed.id = row.id) :
      RowChange outbox row (.claimNext now leaseSeconds filter leaseToken)
        { row with judgeState := .sending, attempts := row.attempts + 1,
                   leaseUntil := now + leaseSeconds, leaseToken := leaseToken }
  | submitted {leaseToken rid : String} (owned : row.leasedBy leaseToken = true)
      (named : rid.isEmpty = false) :
      RowChange outbox row (.markSubmitted row.id leaseToken rid)
        { row with judgeState := .submitted, rid := rid, leaseUntil := 0, leaseToken := "",
                   nextRetryAt := 0, lastError := "" }
  | failed {leaseToken error : String} {retryAt : Option Rat} {ambiguous : Bool}
      {resolutionAfter : Option Rat} (owned : row.leasedBy leaseToken = true)
      {state : JudgeState} (unsent : state ≠ .submitted ∧ state ≠ .sending) :
      RowChange outbox row (.markFailed row.id leaseToken error retryAt ambiguous resolutionAfter)
        { row with judgeState := state, nextRetryAt := retryAt.getD 0, leaseUntil := 0,
                   leaseToken := "", lastError := PyText.clip 4000 error,
                   resolutionAfter := resolutionAfter.getD 0 }
  | polled {now checkSeconds : Rat} (waiting : row.judgeState = .ambiguous) :
      RowChange outbox row (.claimAmbiguous now checkSeconds)
        { row with resolutionAttempts := row.resolutionAttempts + 1,
                   resolutionAfter := now + checkSeconds }
  | resolved {submissionId rid status : String} {now : Rat} (waiting : row.judgeState = .ambiguous)
      (hex : PyText.isLowerHexOf 24 rid.toLower = true) :
      RowChange outbox row (.finishAmbiguous row.id submissionId (some rid) status now)
        { row with judgeState := .submitted, rid := rid.toLower, lastError := "",
                   resolutionAfter := 0 }
  | unresolved {submissionId status : String} {now : Rat} (waiting : row.judgeState = .ambiguous)
      (lastError : String) (resolutionAfter : Rat) :
      RowChange outbox row (.finishAmbiguous row.id submissionId none status now)
        { row with lastError := lastError, resolutionAfter := resolutionAfter }
  | requeued {id : Nat} {target : WebSubmission} (found : outbox.byKey id = some target)
      (hit : WebOutbox.requeued target row = true) :
      RowChange outbox row (.requeueForFinal id) row.final

/-- The rows that a transaction may append. -/
def Operation.Appends : Operation → (Nat → WebSubmission) → Prop
  | .enqueue _ request createdAt, make => make = request.row createdAt
  | .addLocal tid uid problem source createdAt, make => make = fun id =>
      { id, tid, uid, problem, source, sha256 := Sha256.ofText source,
        size := source.utf8ByteSize, createdAt }
  | _, _ => False

/-- What a transaction can do to the table. -/
inductive Effect (outbox : Outbox) (operation : Operation) : Outbox → Prop where
  | same : Effect outbox operation outbox
  | added (make : Nat → WebSubmission) (keyed : ∀ n, (make n).id = n)
      (appends : operation.Appends make) : Effect outbox operation (outbox.insert make keyed)
  | changed (p : WebSubmission → Bool) (f : WebSubmission → WebSubmission)
      (keeps : ∀ r, (f r).id = r.id)
      (each : ∀ r ∈ outbox.rows, p r = true → RowChange outbox r operation (f r)) :
      Effect outbox operation (outbox.update p f keeps)

section Transactions
variable {outbox next : Outbox}

theorem updateOne_ok {id : Nat} {owned : WebSubmission → Bool}
    {change : WebSubmission → WebSubmission} {keeps : ∀ r, (change r).id = r.id} {lost : String}
    (done : updateOne outbox id owned change keeps lost = .ok next) :
    next = outbox.update (fun r => r.id == id && owned r) change keeps := by
  unfold updateOne at done
  split at done
  · cases done
  · cases done
    rfl

theorem updateOne_effect {operation : Operation} {id : Nat} {owned : WebSubmission → Bool}
    {change : WebSubmission → WebSubmission} {keeps : ∀ r, (change r).id = r.id} {lost : String}
    (done : updateOne outbox id owned change keeps lost = .ok next)
    (each : ∀ r, r.id = id → owned r = true → RowChange outbox r operation (change r)) :
    Effect outbox operation next := by
  rw [updateOne_ok done]
  refine .changed _ _ _ fun r _ hit => ?_
  rw [Bool.and_eq_true, beq_iff_eq] at hit
  exact each r hit.1 hit.2

theorem enqueue_effect {contest : Option Contest} {request : EnqueueRequest} {createdAt : String}
    {reply : WebSubmission × Bool}
    (done : enqueueWebSubmission outbox contest request createdAt = .ok (next, reply)) :
    Effect outbox (.enqueue contest request createdAt) next := by
  obtain ⟨_, -, done⟩ := bind_ok.mp done
  split at done
  · obtain ⟨_, -, done⟩ := bind_ok.mp done
    split at done
    · obtain ⟨_, -, done⟩ := bind_ok.mp done
      cases done
      exact .same
    · split at done
      · obtain ⟨_, -, done⟩ := bind_ok.mp done
        cases done
        exact .same
      · obtain ⟨_, -, done⟩ := bind_ok.mp done
        cases done
        exact .added _ _ rfl
  · cases done

theorem claimNext_some {now leaseSeconds : Rat} {filter : LaneFilter} {leaseToken : String}
    {claimed : WebSubmission}
    (done : claimNextWebSubmission outbox now leaseSeconds filter leaseToken =
      .ok (next, some claimed)) :
    ∃ row ∈ outbox.rows, row.due now = true ∧ filter.admits row = true ∧
      blockedByOlder outbox row = false ∧ claimed.id = row.id ∧
      next = outbox.update (fun r => r.id == row.id)
        (fun r => { r with judgeState := .sending, attempts := r.attempts + 1,
                           leaseUntil := now + leaseSeconds, leaseToken := leaseToken })
        (fun _ => rfl) := by
  obtain ⟨_, -, done⟩ := bind_ok.mp done
  split at done
  · cases done
  · rename_i row found
    obtain ⟨mem, selected⟩ := SerialTable.first_some found
    simp only [Bool.and_eq_true, Bool.not_eq_true'] at selected
    simp only [pure_eq_ok, Prod.mk.injEq] at done
    obtain ⟨rfl, answer⟩ := done
    exact ⟨row, mem, selected.1.1, selected.1.2, selected.2,
      (SerialTable.byKey_some_iff.mp answer).2, rfl⟩

theorem claimNext_effect {now leaseSeconds : Rat} {filter : LaneFilter} {leaseToken : String}
    {reply : Option WebSubmission}
    (done : claimNextWebSubmission outbox now leaseSeconds filter leaseToken = .ok (next, reply)) :
    Effect outbox (.claimNext now leaseSeconds filter leaseToken) next := by
  cases reply with
  | none =>
    obtain ⟨_, -, done⟩ := bind_ok.mp done
    split at done
    · cases done
      exact .same
    · rename_i row found
      simp only [pure_eq_ok, Prod.mk.injEq] at done
      obtain ⟨mem, -⟩ := SerialTable.first_some found
      -- the claimed row is still there
      have missing := SerialTable.first_none.mp done.2 _
        (SerialTable.mem_update.mpr (.inr ⟨row, mem, beq_self_eq_true _, rfl⟩))
      simp at missing
  | some claimed =>
    obtain ⟨row, mem, due, admitted, head, same, rfl⟩ := claimNext_some done
    refine .changed _ _ _ fun r memR hit => ?_
    have itself : r = row := outbox.rows_injective memR mem (by simpa using hit)
    subst itself
    exact .claimed due head ⟨_, claimed, done, same⟩

theorem markSubmitted_effect {id : Nat} {leaseToken rid : String}
    (done : markWebSubmissionSubmitted outbox id leaseToken rid = .ok next) :
    Effect outbox (.markSubmitted id leaseToken rid) next := by
  obtain ⟨_, named, done⟩ := bind_ok.mp done
  refine updateOne_effect done ?_
  rintro r rfl owned
  exact .submitted owned (by simpa using named)

theorem markFailed_effect {id : Nat} {leaseToken error : String} {retryAt : Option Rat}
    {ambiguous : Bool} {resolutionAfter : Option Rat}
    (done : markWebSubmissionFailed outbox id leaseToken error retryAt ambiguous resolutionAfter =
      .ok next) :
    Effect outbox (.markFailed id leaseToken error retryAt ambiguous resolutionAfter) next := by
  obtain ⟨_, -, done⟩ := bind_ok.mp done
  obtain ⟨_, -, done⟩ := bind_ok.mp done
  refine updateOne_effect done ?_
  rintro r rfl owned
  refine .failed owned ?_
  cases ambiguous <;> cases retryAt <;> simp

theorem claimAmbiguous_effect {now checkSeconds : Rat} {reply : Option WebSubmission}
    (done : claimAmbiguousWebSubmission outbox now checkSeconds = .ok (next, reply)) :
    Effect outbox (.claimAmbiguous now checkSeconds) next := by
  obtain ⟨_, -, done⟩ := bind_ok.mp done
  split at done
  · cases done
    exact .same
  · cases done
    refine .changed _ _ _ fun r _ hit => ?_
    simp only [WebSubmission.resolutionDue, Bool.and_eq_true, beq_iff_eq] at hit
    exact .polled hit.2.1.1

theorem awaits_ambiguous {submissionId : String} {row : WebSubmission}
    (owned : row.awaits submissionId = true) : row.judgeState = .ambiguous := by
  simp only [WebSubmission.awaits, Bool.and_eq_true, beq_iff_eq] at owned
  exact owned.2

theorem finishAmbiguous_effect {id : Nat} {submissionId status : String} {rid : Option String}
    {now : Rat}
    (done : finishAmbiguousWebSubmission outbox id submissionId rid status now = .ok next) :
    Effect outbox (.finishAmbiguous id submissionId rid status now) next := by
  unfold finishAmbiguousWebSubmission at done
  cases rid with
  | some rid =>
    dsimp only at done
    split at done
    · cases done
    · rename_i hex
      refine updateOne_effect done ?_
      rintro r rfl owned
      exact .resolved (awaits_ambiguous owned) (by simpa using hex)
  | none =>
    dsimp only at done
    split at done
    · cases done
    · refine updateOne_effect done ?_
      rintro r rfl owned
      exact .unresolved (awaits_ambiguous owned) _ _

theorem requeueForFinal_effect {id : Nat} (done : requeueWebSubmissionForFinal outbox id = .ok next) :
    Effect outbox (.requeueForFinal id) next := by
  unfold requeueWebSubmissionForFinal at done
  split at done
  · rename_i target found
    obtain ⟨_, -, done⟩ := bind_ok.mp done
    split at done
    · cases done
      exact .same
    · split at done
      · cases done
        exact .same
      · cases done
        exact .changed _ _ _ fun r _ hit => .requeued found hit
  · cases done

theorem apply_effect {operation : Operation} (done : operation.apply outbox = .ok next) :
    Effect outbox operation next := by
  cases operation with
  | enqueue contest request createdAt =>
    obtain ⟨⟨after, reply⟩, applied, rfl⟩ := map_ok.mp done
    exact enqueue_effect applied
  | addLocal tid uid problem source createdAt =>
    cases done
    exact .added _ _ rfl
  | claimNext now leaseSeconds filter leaseToken =>
    obtain ⟨⟨after, reply⟩, applied, rfl⟩ := map_ok.mp done
    exact claimNext_effect applied
  | markSubmitted id leaseToken rid => exact markSubmitted_effect done
  | markFailed id leaseToken error retryAt ambiguous resolutionAfter =>
    exact markFailed_effect done
  | claimAmbiguous now checkSeconds =>
    obtain ⟨⟨after, reply⟩, applied, rfl⟩ := map_ok.mp done
    exact claimAmbiguous_effect applied
  | finishAmbiguous id submissionId rid status now => exact finishAmbiguous_effect done
  | requeueForFinal id => exact requeueForFinal_effect done

theorem commit_effect (outbox : Outbox) (operation : Operation) :
    Effect outbox operation (commit outbox operation) := by
  unfold commit
  split
  · rename_i next done
    exact apply_effect done
  · exact .same

end Transactions

/-- The row stays as it was, or is changed in one of the ways above. -/
def RowStep (outbox : Outbox) (operation : Operation) (row row' : WebSubmission) : Prop :=
  row' = row ∨ RowChange outbox row operation row'

theorem RowChange.same_id {outbox : Outbox} {operation : Operation} {row row' : WebSubmission}
    (change : RowChange outbox row operation row') : row'.id = row.id := by
  cases change <;> rfl

theorem RowStep.same_id {outbox : Outbox} {operation : Operation} {row row' : WebSubmission}
    (step : RowStep outbox operation row row') : row'.id = row.id := by
  rcases step with rfl | change
  · rfl
  · exact change.same_id

/- No row is lost. -/
theorem effect_keeps {outbox next : Outbox} {operation : Operation}
    (effect : Effect outbox operation next) {row : WebSubmission} (mem : row ∈ outbox.rows) :
    ∃ row' ∈ next.rows, RowStep outbox operation row row' := by
  cases effect with
  | same => exact ⟨row, mem, .inl rfl⟩
  | added make keyed appends => exact ⟨row, SerialTable.mem_insert.mpr (.inl mem), .inl rfl⟩
  | changed p f keeps each =>
    cases hit : p row with
    | false => exact ⟨row, SerialTable.mem_update.mpr (.inl ⟨mem, hit⟩), .inl rfl⟩
    | true =>
      exact ⟨f row, SerialTable.mem_update.mpr (.inr ⟨row, mem, hit, rfl⟩),
        .inr (each row mem hit)⟩

/- Every row is an older one after its change, or the fresh one. -/
theorem effect_origin {outbox next : Outbox} {operation : Operation}
    (effect : Effect outbox operation next) {row' : WebSubmission} (mem : row' ∈ next.rows) :
    (∃ row ∈ outbox.rows, RowStep outbox operation row row') ∨
      ∃ make, operation.Appends make ∧ row' = make outbox.nextKey := by
  cases effect with
  | same => exact .inl ⟨row', mem, .inl rfl⟩
  | added make keyed appends =>
    rcases SerialTable.mem_insert.mp mem with old | fresh
    · exact .inl ⟨row', old, .inl rfl⟩
    · exact .inr ⟨make, appends, fresh⟩
  | changed p f keeps each =>
    rcases SerialTable.mem_update.mp mem with ⟨old, -⟩ | ⟨row, old, hit, rfl⟩
    · exact .inl ⟨row', old, .inl rfl⟩
    · exact .inl ⟨row, old, .inr (each row old hit)⟩

/- A row of the table before is followed by the row of its id. -/
theorem effect_follows {outbox next : Outbox} {operation : Operation}
    (effect : Effect outbox operation next) {row row' : WebSubmission} (mem : row ∈ outbox.rows)
    (mem' : row' ∈ next.rows) (same : row'.id = row.id) : RowStep outbox operation row row' := by
  obtain ⟨found, memFound, step⟩ := effect_keeps effect mem
  have itself : found = row' := next.rows_injective memFound mem' (by rw [step.same_id, same])
  rw [← itself]
  exact step

end NoiContest.WebOutbox
