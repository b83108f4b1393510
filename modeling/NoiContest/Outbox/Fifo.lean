import NoiContest.Lib.Runs
import NoiContest.Lib.OrderedLog
import NoiContest.Outbox.Rows

/- Delivery order inside one lane. An interleaving of workers is a list of transactions;
   a transaction that raises leaves the table as it was. -/
namespace NoiContest.WebOutbox
open Outcome

inductive Operation where
  | enqueue (contest : Option Contest) (request : EnqueueRequest) (createdAt : String)
  | addLocal (tid : String) (uid : Int) (problem source createdAt : String)
  | claimNext (now leaseSeconds : Rat) (filter : LaneFilter) (leaseToken : String)
  | markSubmitted (submissionRowId : Nat) (leaseToken rid : String)
  | markFailed (submissionRowId : Nat) (leaseToken error : String) (retryAt : Option Rat)
      (ambiguous : Bool) (resolutionAfter : Option Rat)
  | claimAmbiguous (now checkSeconds : Rat)
  | finishAmbiguous (submissionRowId : Nat) (submissionId : String) (rid : Option String)
      (resolutionStatus : String) (now : Rat)
  | requeueForFinal (submissionRowId : Nat)

def Operation.apply (outbox : Outbox) : Operation → Except StoreError Outbox
  | .enqueue contest request createdAt =>
      (enqueueWebSubmission outbox contest request createdAt).map (·.1)
  | .addLocal tid uid problem source createdAt =>
      .ok (addWebSubmission outbox tid uid problem source createdAt)
  | .claimNext now leaseSeconds filter leaseToken =>
      (claimNextWebSubmission outbox now leaseSeconds filter leaseToken).map (·.1)
  | .markSubmitted id leaseToken rid => markWebSubmissionSubmitted outbox id leaseToken rid
  | .markFailed id leaseToken error retryAt ambiguous resolutionAfter =>
      markWebSubmissionFailed outbox id leaseToken error retryAt ambiguous resolutionAfter
  | .claimAmbiguous now checkSeconds =>
      (claimAmbiguousWebSubmission outbox now checkSeconds).map (·.1)
  | .finishAmbiguous id submissionId rid status now =>
      finishAmbiguousWebSubmission outbox id submissionId rid status now
  | .requeueForFinal id => requeueWebSubmissionForFinal outbox id

def commit (outbox : Outbox) (operation : Operation) : Outbox :=
  match operation.apply outbox with
  | .ok next => next
  | .error _ => outbox

structure Delivery where
  lane : Lane
  id : Nat
  deriving DecidableEq, Repr

def WebSubmission.delivery (row : WebSubmission) : Delivery := ⟨row.lane, row.id⟩

/- The rows that the last transaction turned to 'submitted'. -/
def newDeliveries (before after : Outbox) : List Delivery :=
  (after.rows.filter fun row => row.judgeState == .submitted &&
    !before.rows.any fun old => old.id == row.id && old.judgeState == .submitted).map (·.delivery)

structure History where
  outbox : Outbox
  deliveries : List Delivery

def History.empty : History := ⟨Outbox.empty, []⟩

def History.step (h : History) (operation : Operation) : History :=
  let next := commit h.outbox operation
  ⟨next, h.deliveries ++ newDeliveries h.outbox next⟩

def InLaneOrder (deliveries : List Delivery) : Prop :=
  deliveries.Pairwise fun x y => x.lane = y.lane → x.id < y.id

instance (deliveries : List Delivery) : Decidable (InLaneOrder deliveries) :=
  inferInstanceAs (Decidable (List.Pairwise _ deliveries))

/-- Rows of a lane became submitted in id order, and for any two submitted rows of a lane
    the older one was marked first. -/
def History.Fifo (h : History) : Prop :=
  InLaneOrder h.deliveries ∧
    ∀ a ∈ h.outbox.rows, ∀ b ∈ h.outbox.rows, a.lane = b.lane → a.id < b.id →
      a.judgeState = .submitted → b.judgeState = .submitted →
      OrderedLog.Before h.deliveries a.delivery b.delivery

def JudgeState.engaged : JudgeState → Bool
  | .sending | .ambiguous | .submitted => true
  | _ => false

/- The requeue would give a permanently failed row back to delivery although a younger row
   of its lane is submitted, unresolved, or on its way and not put back as well. -/
def revivesBehind (outbox : Outbox) (target : WebSubmission) : Bool :=
  outbox.rows.any fun row => requeued target row && row.judgeState == .permanentFailed &&
    outbox.rows.any fun younger => younger.lane == row.lane && row.id < younger.id &&
      younger.judgeState.engaged && !requeued target younger

def keepsOrder (outbox : Outbox) : Operation → Prop
  | .requeueForFinal id => ∀ target, outbox.byKey id = some target →
      (target.judgeState = .submitted ∧ target.rid ≠ "") ∨ target.judgeState = .ambiguous ∨
        revivesBehind outbox target = false
  | _ => True

instance (outbox : Outbox) (operation : Operation) : Decidable (keepsOrder outbox operation) :=
  match operation with
  | .requeueForFinal id => inferInstanceAs (Decidable (∀ target, target ∈ outbox.byKey id → _))
  | .enqueue .. | .addLocal .. | .claimNext .. | .markSubmitted .. | .markFailed ..
  | .claimAmbiguous .. | .finishAmbiguous .. => isTrue trivial

/-- What one transaction can do to the table. -/
inductive Change (outbox : Outbox) : Outbox → Prop where
  | same : Change outbox outbox
  | added (make : Nat → WebSubmission) (keyed : ∀ n, (make n).id = n)
      (fresh : ∀ n, (make n).judgeState.engaged = false) : Change outbox (outbox.insert make keyed)
  | claimed (row : WebSubmission) (mem : row ∈ outbox.rows)
      (waiting : row.judgeState.unsettled = true) (head : blockedByOlder outbox row = false)
      (f : WebSubmission → WebSubmission) (keeps : ∀ r, (f r).id = r.id)
      (lane : ∀ r, (f r).lane = r.lane) (sends : ∀ r, (f r).judgeState = .sending) :
      Change outbox (outbox.update (fun r => r.id == row.id) f keeps)
  | resolved (p : WebSubmission → Bool) (f : WebSubmission → WebSubmission)
      (inFlight : ∀ r, p r = true → r.judgeState = .sending ∨ r.judgeState = .ambiguous)
      (keeps : ∀ r, (f r).id = r.id) (lane : ∀ r, (f r).lane = r.lane) :
      Change outbox (outbox.update p f keeps)
  | revived (target : WebSubmission) (quiet : revivesBehind outbox target = false) :
      Change outbox (outbox.update (requeued target) WebSubmission.final (fun _ => rfl))

theorem due_unsettled {row : WebSubmission} {now : Rat} (due : row.due now = true) :
    row.judgeState.unsettled = true := by
  cases state : row.judgeState <;> simp_all [WebSubmission.due, JudgeState.unsettled]

theorem updateOne_change {outbox next : Outbox} {id : Nat} {owned : WebSubmission → Bool}
    {change : WebSubmission → WebSubmission} {keeps : ∀ r, (change r).id = r.id} {lost : String}
    (done : updateOne outbox id owned change keeps lost = .ok next)
    (inFlight : ∀ r, owned r = true → r.judgeState = .sending ∨ r.judgeState = .ambiguous)
    (lane : ∀ r, (change r).lane = r.lane) : Change outbox next := by
  unfold updateOne at done
  split at done
  · cases done
  · cases done
    refine .resolved _ _ ?_ _ lane
    intro r hit
    simp only [Bool.and_eq_true] at hit
    exact inFlight r hit.2

theorem enqueue_change {outbox next : Outbox} {contest : Option Contest}
    {request : EnqueueRequest} {createdAt : String} {reply : WebSubmission × Bool}
    (done : enqueueWebSubmission outbox contest request createdAt = .ok (next, reply)) :
    Change outbox next := by
  obtain ⟨_, -, done⟩ := bind_ok.mp done
  split at done
  · obtain ⟨_, -, done⟩ := bind_ok.mp done
    -- A repeated nonce or submission id answers with the stored row.
    split at done
    · obtain ⟨_, -, done⟩ := bind_ok.mp done
      cases done
      exact .same
    · split at done
      · obtain ⟨_, -, done⟩ := bind_ok.mp done
        cases done
        exact .same
      · obtain ⟨_, -, done⟩ := bind_ok.mp done
        cases done
        exact .added _ _ fun _ => rfl
  · cases done

theorem claimNext_change {outbox next : Outbox} {now leaseSeconds : Rat} {filter : LaneFilter}
    {leaseToken : String} {reply : Option WebSubmission}
    (done : claimNextWebSubmission outbox now leaseSeconds filter leaseToken = .ok (next, reply)) :
    Change outbox next := by
  obtain ⟨_, -, done⟩ := bind_ok.mp done
  split at done
  · cases done
    exact .same
  · rename_i row found
    cases done
    obtain ⟨mem, selected⟩ := SerialTable.first_some found
    simp only [Bool.and_eq_true, Bool.not_eq_true'] at selected
    refine .claimed row mem (due_unsettled selected.1.1) selected.2 _ _ ?_ ?_
    · exact fun _ => rfl
    · exact fun _ => rfl

theorem leasedBy_inFlight {leaseToken : String} {row : WebSubmission}
    (owned : row.leasedBy leaseToken = true) :
    row.judgeState = .sending ∨ row.judgeState = .ambiguous := by
  simp [WebSubmission.leasedBy] at owned
  exact .inl owned.1

theorem markSubmitted_change {outbox next : Outbox} {id : Nat} {leaseToken rid : String}
    (done : markWebSubmissionSubmitted outbox id leaseToken rid = .ok next) :
    Change outbox next := by
  obtain ⟨_, -, done⟩ := bind_ok.mp done
  exact updateOne_change done (fun _ => leasedBy_inFlight) fun _ => rfl

theorem markFailed_change {outbox next : Outbox} {id : Nat} {leaseToken error : String}
    {retryAt : Option Rat} {ambiguous : Bool} {resolutionAfter : Option Rat}
    (done : markWebSubmissionFailed outbox id leaseToken error retryAt ambiguous resolutionAfter =
      .ok next) : Change outbox next := by
  obtain ⟨_, -, done⟩ := bind_ok.mp done
  obtain ⟨_, -, done⟩ := bind_ok.mp done
  exact updateOne_change done (fun _ => leasedBy_inFlight) fun _ => rfl

theorem claimAmbiguous_change {outbox next : Outbox} {now checkSeconds : Rat}
    {reply : Option WebSubmission}
    (done : claimAmbiguousWebSubmission outbox now checkSeconds = .ok (next, reply)) :
    Change outbox next := by
  obtain ⟨_, -, done⟩ := bind_ok.mp done
  split at done
  · cases done
    exact .same
  · cases done
    refine .resolved _ _ ?_ _ ?_
    · intro r hit
      simp [WebSubmission.resolutionDue] at hit
      exact .inr hit.2.1.1
    · exact fun _ => rfl

theorem awaits_inFlight {submissionId : String} {row : WebSubmission}
    (owned : row.awaits submissionId = true) :
    row.judgeState = .sending ∨ row.judgeState = .ambiguous := by
  simp [WebSubmission.awaits] at owned
  exact .inr owned.2

theorem finishAmbiguous_change {outbox next : Outbox} {id : Nat} {submissionId status : String}
    {rid : Option String} {now : Rat}
    (done : finishAmbiguousWebSubmission outbox id submissionId rid status now = .ok next) :
    Change outbox next := by
  unfold finishAmbiguousWebSubmission at done
  split at done
  · dsimp only at done
    split at done
    · cases done
    · exact updateOne_change done (fun _ => awaits_inFlight) fun _ => rfl
  · split at done
    · cases done
    · exact updateOne_change done (fun _ => awaits_inFlight) fun _ => rfl

theorem requeueForFinal_change {outbox next : Outbox} {id : Nat}
    (quiet : keepsOrder outbox (.requeueForFinal id))
    (done : requeueWebSubmissionForFinal outbox id = .ok next) : Change outbox next := by
  unfold requeueWebSubmissionForFinal at done
  split at done
  · rename_i target found
    obtain ⟨_, -, done⟩ := bind_ok.mp done
    split at done
    · cases done
      exact .same
    · rename_i unsent
      split at done
      · cases done
        exact .same
      · rename_i settled
        cases done
        refine .revived target ?_
        rcases quiet target found with submitted | ambiguous | calm
        · exact absurd submitted unsent
        · exact absurd ambiguous settled
        · exact calm
  · cases done

/- Every transaction of a run, raising or not, is one of the five changes. -/
theorem commit_change {outbox : Outbox} {operation : Operation}
    (quiet : keepsOrder outbox operation) : Change outbox (commit outbox operation) := by
  unfold commit
  split
  · rename_i next done
    cases operation with
    | enqueue contest request createdAt =>
      obtain ⟨⟨after, reply⟩, applied, rfl⟩ := map_ok.mp done
      exact enqueue_change applied
    | addLocal tid uid problem source createdAt =>
      cases done
      exact .added _ _ fun _ => rfl
    | claimNext now leaseSeconds filter leaseToken =>
      obtain ⟨⟨after, reply⟩, applied, rfl⟩ := map_ok.mp done
      exact claimNext_change applied
    | markSubmitted id leaseToken rid => exact markSubmitted_change done
    | markFailed id leaseToken error retryAt ambiguous resolutionAfter =>
      exact markFailed_change done
    | claimAmbiguous now checkSeconds =>
      obtain ⟨⟨after, reply⟩, applied, rfl⟩ := map_ok.mp done
      exact claimAmbiguous_change applied
    | finishAmbiguous id submissionId rid status now => exact finishAmbiguous_change done
    | requeueForFinal id => exact requeueForFinal_change quiet done
  · exact .same

/-- Below a row that is on its way or delivered, nothing of its lane is still open. -/
def LaneSettled (outbox : Outbox) : Prop :=
  ∀ a ∈ outbox.rows, ∀ b ∈ outbox.rows, a.lane = b.lane → a.id < b.id →
    b.judgeState.engaged = true → a.judgeState.unsettled = false

theorem requeued_settled {target row : WebSubmission} (hit : requeued target row = true)
    (settled : row.judgeState.unsettled = false) : row.judgeState = .permanentFailed := by
  cases state : row.judgeState <;>
    simp_all [requeued, JudgeState.requeueable, JudgeState.unsettled]

theorem inFlight_engaged {row : WebSubmission}
    (inFlight : row.judgeState = .sending ∨ row.judgeState = .ambiguous) :
    row.judgeState.engaged = true ∧ row.judgeState.unsettled = true := by
  rcases inFlight with state | state <;> simp [state, JudgeState.engaged, JudgeState.unsettled]

theorem added_settled {outbox : Outbox} {make : Nat → WebSubmission}
    {keyed : ∀ n, (make n).id = n} (fresh : ∀ n, (make n).judgeState.engaged = false)
    (settled : LaneSettled outbox) : LaneSettled (outbox.insert make keyed) := by
  intro a ha b hb lane older engaged
  rcases SerialTable.mem_insert.mp hb with oldB | rfl
  · rcases SerialTable.mem_insert.mp ha with oldA | rfl
    · exact settled a oldA b oldB lane older engaged
    · have := outbox.below b oldB
      rw [keyed] at older
      omega
  · simp [fresh] at engaged

theorem claimed_settled {outbox : Outbox} {row : WebSubmission} (mem : row ∈ outbox.rows)
    (waiting : row.judgeState.unsettled = true) (head : blockedByOlder outbox row = false)
    {f : WebSubmission → WebSubmission} {keeps : ∀ r, (f r).id = r.id}
    (lanes : ∀ r, (f r).lane = r.lane) (settled : LaneSettled outbox) :
    LaneSettled (outbox.update (fun r => r.id == row.id) f keeps) := by
  have itself : ∀ r ∈ outbox.rows, (r.id == row.id) = true → r = row := fun r memR same =>
    outbox.rows_injective memR mem (by simpa using same)
  intro a ha b hb lane older engaged
  rcases SerialTable.mem_update.mp ha with ⟨memA, -⟩ | ⟨oldA, memA, hitA, rfl⟩
  · rcases SerialTable.mem_update.mp hb with ⟨memB, -⟩ | ⟨oldB, memB, hitB, rfl⟩
    · exact settled a memA b memB lane older engaged
    · -- The claim takes only the head of a lane.
      obtain rfl := itself oldB memB hitB
      rw [lanes] at lane
      rw [keeps] at older
      have free := List.any_eq_false.mp head a memA
      simpa [lane, older] using free
  · obtain rfl := itself oldA memA hitA
    rw [lanes] at lane
    rw [keeps] at older
    rcases SerialTable.mem_update.mp hb with ⟨memB, -⟩ | ⟨oldB, memB, hitB, rfl⟩
    · have := settled oldA memA b memB lane older engaged
      simp [waiting] at this
    · obtain rfl := itself oldB memB hitB
      rw [keeps] at older
      omega

theorem resolved_settled {outbox : Outbox} {p : WebSubmission → Bool}
    (inFlight : ∀ r, p r = true → r.judgeState = .sending ∨ r.judgeState = .ambiguous)
    {f : WebSubmission → WebSubmission} {keeps : ∀ r, (f r).id = r.id}
    (lanes : ∀ r, (f r).lane = r.lane) (settled : LaneSettled outbox) :
    LaneSettled (outbox.update p f keeps) := by
  intro a ha b hb lane older engaged
  obtain ⟨oldB, memB, laneB, idB, engagedB⟩ : ∃ oldB ∈ outbox.rows, oldB.lane = b.lane ∧
      oldB.id = b.id ∧ oldB.judgeState.engaged = true := by
    rcases SerialTable.mem_update.mp hb with ⟨memB, -⟩ | ⟨oldB, memB, hitB, rfl⟩
    · exact ⟨b, memB, rfl, rfl, engaged⟩
    · exact ⟨oldB, memB, (lanes _).symm, (keeps _).symm, (inFlight_engaged (inFlight _ hitB)).1⟩
  rcases SerialTable.mem_update.mp ha with ⟨memA, -⟩ | ⟨oldA, memA, hitA, rfl⟩
  · exact settled a memA oldB memB (by rw [lane, laneB]) (by omega) engagedB
  · rw [lanes] at lane
    rw [keeps] at older
    have := settled oldA memA oldB memB (by rw [lane, laneB]) (by omega) engagedB
    simp [(inFlight_engaged (inFlight _ hitA)).2] at this

theorem revived_settled {outbox : Outbox} {target : WebSubmission}
    (quiet : revivesBehind outbox target = false) (settled : LaneSettled outbox) :
    LaneSettled (outbox.update (requeued target) WebSubmission.final (fun _ => rfl)) := by
  intro a ha b hb lane older engaged
  rcases SerialTable.mem_update.mp hb with ⟨memB, missB⟩ | ⟨oldB, -, -, rfl⟩
  · rcases SerialTable.mem_update.mp ha with ⟨memA, -⟩ | ⟨oldA, memA, hitA, rfl⟩
    · exact settled a memA b memB lane older engaged
    · have failed := requeued_settled hitA (settled oldA memA b memB lane older engaged)
      have calm := List.any_eq_false.mp quiet oldA memA
      have sameLane : b.lane = oldA.lane := lane.symm
      have younger : oldA.id < b.id := older
      simp only [hitA, failed, Bool.true_and, beq_self_eq_true, List.any_eq_true, not_exists,
        not_and] at calm
      exact absurd (by simp [sameLane, younger, engaged, missB]) (calm b memB)
  · simp [WebSubmission.final, JudgeState.engaged] at engaged

theorem change_settled {outbox next : Outbox} (change : Change outbox next)
    (settled : LaneSettled outbox) : LaneSettled next := by
  cases change with
  | same => exact settled
  | added make keyed fresh => exact added_settled fresh settled
  | claimed row mem waiting head f keeps lanes sends =>
    exact claimed_settled mem waiting head lanes settled
  | resolved p f inFlight keeps lanes => exact resolved_settled inFlight lanes settled
  | revived target quiet => exact revived_settled quiet settled

/- A submitted row is never touched again. -/
theorem change_keeps_submitted {outbox next : Outbox} (change : Change outbox next)
    {row : WebSubmission} (mem : row ∈ outbox.rows) (submitted : row.judgeState = .submitted) :
    row ∈ next.rows := by
  cases change with
  | same => exact mem
  | added make keyed fresh => exact SerialTable.mem_insert.mpr (.inl mem)
  | claimed head memHead waiting _ f keeps lanes sends =>
    refine SerialTable.mem_update.mpr (.inl ⟨mem, ?_⟩)
    cases hit : row.id == head.id with
    | false => rfl
    | true =>
      obtain rfl := outbox.rows_injective mem memHead (by simpa using hit)
      simp [submitted, JudgeState.unsettled] at waiting
  | resolved p f inFlight keeps lanes =>
    refine SerialTable.mem_update.mpr (.inl ⟨mem, ?_⟩)
    cases hit : p row with
    | false => rfl
    | true => rcases inFlight row hit with state | state <;> simp [submitted] at state
  | revived target quiet =>
    refine SerialTable.mem_update.mpr (.inl ⟨mem, ?_⟩)
    simp [requeued, submitted, JudgeState.requeueable]

theorem change_submits_open {outbox next : Outbox} (change : Change outbox next)
    {row : WebSubmission} (mem : row ∈ next.rows) (submitted : row.judgeState = .submitted) :
    row ∈ outbox.rows ∨
      ∃ old ∈ outbox.rows, old.delivery = row.delivery ∧ old.judgeState.unsettled = true := by
  cases change with
  | same => exact .inl mem
  | added make keyed fresh =>
    rcases SerialTable.mem_insert.mp mem with old | rfl
    · exact .inl old
    · have := fresh outbox.nextKey
      simp [submitted, JudgeState.engaged] at this
  | claimed head memHead waiting _ f keeps lanes sends =>
    rcases SerialTable.mem_update.mp mem with ⟨old, -⟩ | ⟨old, -, -, rfl⟩
    · exact .inl old
    · simp [sends] at submitted
  | resolved p f inFlight keeps lanes =>
    rcases SerialTable.mem_update.mp mem with ⟨old, -⟩ | ⟨old, memOld, hit, rfl⟩
    · exact .inl old
    · exact .inr ⟨old, memOld, by simp [WebSubmission.delivery, keeps, lanes],
        (inFlight_engaged (inFlight old hit)).2⟩
  | revived target quiet =>
    rcases SerialTable.mem_update.mp mem with ⟨old, -⟩ | ⟨old, -, -, rfl⟩
    · exact .inl old
    · simp [WebSubmission.final] at submitted

theorem mem_newDeliveries {before after : Outbox} {d : Delivery} :
    d ∈ newDeliveries before after ↔ ∃ row ∈ after.rows, row.judgeState = .submitted ∧
      (∀ old ∈ before.rows, old.id = row.id → old.judgeState ≠ .submitted) ∧
      row.delivery = d := by
  simp [newDeliveries, and_assoc]

theorem newDeliveries_ordered (before after : Outbox) :
    InLaneOrder (newDeliveries before after) := by
  refine List.pairwise_map.mpr ((after.ordered.filter _).imp ?_)
  intro a b less _
  exact less

/-- The deliveries are exactly the submitted rows, and each lane was served in id order. -/
structure History.Sound (h : History) : Prop where
  settled : LaneSettled h.outbox
  recorded : ∀ d, d ∈ h.deliveries ↔
    ∃ row ∈ h.outbox.rows, row.judgeState = .submitted ∧ row.delivery = d
  ordered : InLaneOrder h.deliveries

theorem empty_sound : History.empty.Sound where
  settled := by intro a ha; simp [History.empty, Outbox.empty] at ha
  recorded := by intro d; simp [History.empty, Outbox.empty]
  ordered := List.Pairwise.nil

theorem step_recorded {h : History} {next : Outbox} (sound : h.Sound)
    (change : Change h.outbox next) (d : Delivery) :
    d ∈ h.deliveries ++ newDeliveries h.outbox next ↔
      ∃ row ∈ next.rows, row.judgeState = .submitted ∧ row.delivery = d := by
  rw [List.mem_append, sound.recorded, mem_newDeliveries]
  constructor
  · rintro (⟨row, mem, submitted, eq⟩ | ⟨row, mem, submitted, -, eq⟩)
    · exact ⟨row, change_keeps_submitted change mem submitted, submitted, eq⟩
    · exact ⟨row, mem, submitted, eq⟩
  · rintro ⟨row, mem, submitted, eq⟩
    by_cases known : row ∈ h.outbox.rows
    · exact .inl ⟨row, known, submitted, eq⟩
    · refine .inr ⟨row, mem, submitted, ?_, eq⟩
      intro old memOld same submittedOld
      have stays := change_keeps_submitted change memOld submittedOld
      exact known (next.rows_injective stays mem same ▸ memOld)

/- Whatever is delivered now is younger than everything its lane delivered before. -/
theorem step_ordered {h : History} {next : Outbox} (sound : h.Sound)
    (change : Change h.outbox next) :
    InLaneOrder (h.deliveries ++ newDeliveries h.outbox next) := by
  refine List.pairwise_append.mpr ⟨sound.ordered, newDeliveries_ordered _ _, ?_⟩
  intro x hx y hy lane
  obtain ⟨earlier, memE, submittedE, rfl⟩ := (sound.recorded x).mp hx
  obtain ⟨row, mem, submitted, unseen, rfl⟩ := mem_newDeliveries.mp hy
  rcases change_submits_open change mem submitted with known | ⟨old, memOld, same, waiting⟩
  · exact absurd submitted (unseen row known rfl)
  · rw [← same] at lane ⊢
    rcases Nat.lt_trichotomy earlier.id old.id with less | equal | more
    · exact less
    · obtain rfl := h.outbox.rows_injective memE memOld equal
      simp [submittedE, JudgeState.unsettled] at waiting
    · have closed := sound.settled old memOld earlier memE lane.symm more
        (by simp [submittedE, JudgeState.engaged])
      simp [waiting] at closed

theorem step_sound (h : History) (operation : Operation) (sound : h.Sound)
    (quiet : keepsOrder h.outbox operation) : (h.step operation).Sound where
  settled := change_settled (commit_change quiet) sound.settled
  recorded := step_recorded sound (commit_change quiet)
  ordered := step_ordered sound (commit_change quiet)

theorem sound_fifo {h : History} (sound : h.Sound) : h.Fifo := by
  refine ⟨sound.ordered, ?_⟩
  intro a ha b hb lane older submittedA submittedB
  have recordedA := (sound.recorded a.delivery).mpr ⟨a, ha, submittedA, rfl⟩
  have recordedB := (sound.recorded b.delivery).mpr ⟨b, hb, submittedB, rfl⟩
  refine OrderedLog.before_of_pairwise sound.ordered recordedA recordedB ?_ ?_
  · intro same
    have : a.id = b.id := congrArg Delivery.id same
    omega
  · intro back
    have : b.id < a.id := back lane.symm
    omega

/-- In every interleaving without a requeue that revives a failed row behind a younger one
    of its lane, the lanes are first in, first out. -/
theorem lanes_fifo_without_revival (operations : List Operation)
    (quiet : Runs.Guarded History.step (fun h operation => keepsOrder h.outbox operation)
      History.empty operations) :
    (Runs.run History.step History.empty operations).Fifo :=
  sound_fifo (Runs.guarded_run_invariant History.Sound step_sound empty_sound quiet)

/- One student saves three versions of one problem. The first is rejected by the OJ, the
   second is delivered, and the collection then requeues the newest. -/
def sampleContest : Contest where
  tid := "t"
  files := []
  pids := some [("sum", "P1")]
  submissionSession := "s"
  state := .ready

def sampleRequest (nonce : String) (digit : Char) : EnqueueRequest where
  tid := "t"
  uid := 7
  problem := "sum"
  source := nonce
  clientNonce := nonce
  submissionId := String.ofList (List.replicate 64 digit)
  submissionSession := "s"
  judgePid := "P1"
  judgeLang := "cc.cc14o2"
  judgeSource := nonce
  issues := []
  acceptedAtMs := 1

def threeVersions : List Operation :=
  [("v1", 'a'), ("v2", 'b'), ("v3", 'c')].map fun version =>
    .enqueue (some sampleContest) (sampleRequest version.1 version.2) ""

def deliverNext (token : String) (id : Nat) : List Operation :=
  [.claimNext 10 90 {} token, .markSubmitted id token "000000000000000000000000"]

def revivalRun : List Operation :=
  threeVersions ++ [.claimNext 10 90 {} "w1", .markFailed 1 "w1" "HTTP 400" none false none] ++
    deliverNext "w2" 2 ++ [.requeueForFinal 3] ++ deliverNext "w3" 1

theorem requeue_delivers_older_version_last :
    ¬ ∀ operations, (Runs.run History.step History.empty operations).Fifo := by
  intro fifo
  have ordered := (fifo revivalRun).1
  revert ordered
  decide +kernel

/- Requeueing before the second version goes out keeps the order. -/
def requeueFirstRun : List Operation :=
  threeVersions ++ [.claimNext 10 90 {} "w1", .markFailed 1 "w1" "HTTP 400" none false none,
    .requeueForFinal 3] ++ deliverNext "w2" 1 ++ deliverNext "w3" 2

theorem requeueFirstRun_fifo : (Runs.run History.step History.empty requeueFirstRun).Fifo :=
  lanes_fifo_without_revival requeueFirstRun (by decide +kernel)

end NoiContest.WebOutbox
