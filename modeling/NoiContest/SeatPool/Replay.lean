import NoiContest.Lib.Runs
import NoiContest.SeatPool.Commands

/- What a command answers when its id was used before. Two commands look at the pool before
   they look at the receipts. -/
namespace NoiContest.SeatPool
open JsonText Outcome

namespace Operation

/-- The operation name and the arguments that a command is fingerprinted with. -/
def recordedCall : Operation → String × List (String × Json)
  | .markWarming slotNo nowMs => ("mark_warming", [("slot_no", .int slotNo), ("now_ms", .int nowMs)])
  | .markVerified slotNo container image material nowMs =>
    ("mark_verified", [("slot_no", .int slotNo), ("container_ref", .str (PyText.strip container)),
      ("image_digest", .str (PyText.strip image)),
      ("material_digest", .str (PyText.strip material)), ("now_ms", .int nowMs)])
  | .reserve uid uname nowMs =>
    ("reserve", [("uid", .int uid), ("uname", .str (PyText.strip uname)), ("now_ms", .int nowMs)])
  | .release uid nowMs => ("release", [("uid", .int uid), ("now_ms", .int nowMs)])
  | .releaseDue nowMs => ("release_due", [("now_ms", .int nowMs)])
  | .replaceFailed slotNo reason nowMs approved =>
    ("replace_failed", [("slot_no", .int slotNo), ("reason", .str (PyText.strip reason)),
      ("now_ms", .int nowMs), ("teacher_approved", .bool approved)])
  | .grow mains spares =>
    ("grow", [("additional_main", .int mains), ("additional_spares", .int spares)])
  | .reconcileRosterCapacity count minimum percent =>
    ("reconcile_roster_capacity", [("participant_count", .int count),
      ("minimum_spares", .int minimum), ("spare_percent", .int percent)])
  | .reschedule beginAtMs lead =>
    ("reschedule", [("begin_at_ms", .int beginAtMs), ("release_lead_ms", .int lead)])
  | .freeze nowMs => ("freeze", [("now_ms", .int nowMs)])
  | .collect nowMs => ("collect", [("now_ms", .int nowMs)])

def print (operation : Operation) : String :=
  fingerprint operation.recordedCall.1 operation.recordedCall.2

/-- The arguments pass the checks that a command makes before anything else. -/
def Accepted : Operation → Prop
  | .markVerified _ container image material _ =>
    PyText.strip container ≠ "" ∧ PyText.strip image ≠ "" ∧ PyText.strip material ≠ ""
  | .reserve uid uname _ => 1 ≤ uid ∧ PyText.strip uname ≠ ""
  | .replaceFailed _ reason _ _ => PyText.strip reason ≠ ""
  | .grow mains spares => 0 ≤ mains ∧ 0 ≤ spares ∧ mains + spares ≠ 0
  | .reconcileRosterCapacity count minimum percent => 0 ≤ count ∧ 0 ≤ minimum ∧ 0 ≤ percent
  | .reschedule beginAtMs lead => 1 ≤ beginAtMs ∧ 0 ≤ lead ∧ lead < beginAtMs
  | _ => True

/-- The pool already has the capacity or the times that the command asks for. -/
def Settled (pool : SeatPoolState) : Operation → Prop
  | .reconcileRosterCapacity count minimum percent =>
    count ≤ pool.maxParticipants ∧ max minimum ((count * percent + 99) / 100) ≤ pool.spareCount
  | .reschedule beginAtMs lead =>
    beginAtMs = pool.beginAtMs ∧ beginAtMs - lead = pool.releaseAtMs
  | _ => False

instance : DecidablePred Accepted := fun operation => by
  cases operation <;> unfold Accepted <;> infer_instance

instance (pool : SeatPoolState) : DecidablePred (Settled pool) := fun operation => by
  cases operation <;> unfold Settled <;> infer_instance

end Operation

namespace SeatPoolState
variable {pool : SeatPoolState} {operation : Operation}

theorem validateInt_ok {name : String} {value minimum : Int} (enough : minimum ≤ value) :
    validateInt name value minimum = .ok () := raiseIf_neg (not_lt.mpr enough)

theorem validateInt_error {name : String} {value minimum : Int} (small : value < minimum) :
    validateInt name value minimum = .error
      (.configuration (name ++ " must be an integer >= " ++ toString minimum)) := raiseIf_pos small

theorem desiredCapacity_eq {count minimum percent : Int} (participants : 0 ≤ count)
    (spares : 0 ≤ minimum) (share : 0 ≤ percent) : desiredCapacity count minimum percent =
      .ok (count, max minimum ((count * percent + 99) / 100)) := by
  simp only [desiredCapacity, validateInt_ok participants, validateInt_ok spares,
    validateInt_ok share, ok_bind]
  rfl

/- Nothing is added exactly when both targets are met. -/
theorem no_growth_iff {targetMain targetSpares main spares : Int} :
    max 0 (targetMain - main) + max 0 (targetSpares - spares) = 0 ↔
      targetMain ≤ main ∧ targetSpares ≤ spares := by
  omega

theorem check_passed {α : Type} {bad : Prop} [Decidable bad] {error : PoolError}
    {body : Except PoolError α} (fine : ¬ bad) : (raiseIf bad error >>= fun _ => body) = body := by
  rw [raiseIf_neg fine, ok_bind]

theorem apply_after_check {bad : Prop} [Decidable bad] {error : PoolError} {name : String}
    {arguments : List (String × Json)} {mutate : Except PoolError Mutation} (fine : ¬ bad)
    (commandId : String) (expectedRevision : Int) :
    (raiseIf bad error >>= fun _ => pool.apply name arguments commandId expectedRevision mutate) =
      pool.apply name arguments commandId expectedRevision mutate := check_passed fine

/- Every command is its checks, its early return, and otherwise the receipt log. -/
theorem command_eq_apply (accepted : operation.Accepted) (unsettled : ¬ operation.Settled pool) :
    ∃ mutate, ∀ commandId expectedRevision,
      pool.command ⟨operation, commandId, expectedRevision⟩ =
        pool.apply operation.recordedCall.1 operation.recordedCall.2 commandId expectedRevision
          mutate := by
  cases operation with
  | markWarming slotNo nowMs =>
    simp only [command, markWarming, Operation.recordedCall]
    exact ⟨_, fun _ _ => rfl⟩
  | release uid nowMs =>
    simp only [command, release, Operation.recordedCall]
    exact ⟨_, fun _ _ => rfl⟩
  | releaseDue nowMs =>
    simp only [command, releaseDue, Operation.recordedCall]
    exact ⟨_, fun _ _ => rfl⟩
  | freeze nowMs =>
    simp only [command, freeze, Operation.recordedCall]
    exact ⟨_, fun _ _ => rfl⟩
  | collect nowMs =>
    simp only [command, collect, Operation.recordedCall]
    exact ⟨_, fun _ _ => rfl⟩
  | markVerified slotNo container image material nowMs =>
    obtain ⟨named, imaged, approved⟩ := accepted
    have complete : ¬ (PyText.strip container = "" ∨ PyText.strip image = "" ∨
        PyText.strip material = "") := by simp [named, imaged, approved]
    exact ⟨_, apply_after_check complete⟩
  | reserve uid uname nowMs =>
    obtain ⟨positive, named⟩ := accepted
    exact ⟨_, fun commandId expectedRevision => (check_passed (not_lt.mpr positive)).trans
      (apply_after_check named commandId expectedRevision)⟩
  | replaceFailed slotNo reason nowMs approved =>
    have given : PyText.strip reason ≠ "" := accepted
    exact ⟨_, apply_after_check given⟩
  | grow mains spares =>
    obtain ⟨main, spare, some⟩ := accepted
    exact ⟨_, fun commandId expectedRevision => (check_passed (not_lt.mpr main)).trans
      ((check_passed (not_lt.mpr spare)).trans
        (apply_after_check some commandId expectedRevision))⟩
  | reconcileRosterCapacity count minimum percent =>
    obtain ⟨participants, spares, share⟩ := accepted
    refine ⟨.ok ⟨pool.extended (max 0 (count - pool.maxParticipants))
        (max 0 (max minimum ((count * percent + 99) / 100) - pool.spareCount)),
      .capacity (pool.addedSeats (max 0 (count - pool.maxParticipants))
        (max 0 (max minimum ((count * percent + 99) / 100) - pool.spareCount))) count
        (max minimum ((count * percent + 99) / 100))⟩, fun commandId expectedRevision => ?_⟩
    simp only [command, reconcileRosterCapacity, desiredCapacity_eq participants spares share,
      ok_bind, if_neg (mt no_growth_iff.mp unsettled)]
    rfl
  | reschedule beginAtMs lead =>
    obtain ⟨positive, nonneg, before⟩ := accepted
    refine ⟨.ok ⟨{ pool with beginAtMs := beginAtMs, releaseAtMs := beginAtMs - lead },
      .schedule beginAtMs (beginAtMs - lead)⟩, fun commandId expectedRevision => ?_⟩
    simp only [command, reschedule, validateInt_ok positive, validateInt_ok nonneg,
      raiseIf_neg (not_le.mpr before), ok_bind]
    exact if_neg unsettled

theorem command_settled (accepted : operation.Accepted) (settled : operation.Settled pool) :
    ∃ value, ∀ commandId expectedRevision,
      pool.command ⟨operation, commandId, expectedRevision⟩ =
        .ok { state := pool, value := value } := by
  cases operation with
  | reconcileRosterCapacity count minimum percent =>
    obtain ⟨participants, spares, share⟩ := accepted
    refine ⟨.capacity [] count (max minimum ((count * percent + 99) / 100)),
      fun commandId expectedRevision => ?_⟩
    simp only [command, reconcileRosterCapacity, desiredCapacity_eq participants spares share,
      ok_bind, if_pos (no_growth_iff.mpr settled)]
    rfl
  | reschedule beginAtMs lead =>
    obtain ⟨positive, nonneg, before⟩ := accepted
    refine ⟨.schedule beginAtMs (beginAtMs - lead), fun commandId expectedRevision => ?_⟩
    simp only [command, reschedule, validateInt_ok positive, validateInt_ok nonneg,
      raiseIf_neg (not_le.mpr before), ok_bind]
    exact if_pos settled
  | _ => exact absurd settled id

theorem command_refused (pool : SeatPoolState) (refused : ¬ operation.Accepted) :
    ∃ message, ∀ commandId expectedRevision,
      pool.command ⟨operation, commandId, expectedRevision⟩ = .error (.configuration message) := by
  cases operation with
  | markVerified slotNo container image material nowMs =>
    have missing : PyText.strip container = "" ∨ PyText.strip image = "" ∨
        PyText.strip material = "" := by
      simpa only [Operation.Accepted, not_and_or, not_not] using refused
    refine ⟨"all verification evidence is required", fun commandId expectedRevision => ?_⟩
    simp only [command, markVerified, raiseIf_pos missing, error_bind]
  | reserve uid uname nowMs =>
    by_cases positive : 1 ≤ uid
    · have unnamed : PyText.strip uname = "" := by
        by_contra named
        exact refused ⟨positive, named⟩
      refine ⟨"uname cannot be empty", fun commandId expectedRevision => ?_⟩
      simp only [command, reserve, validateInt_ok positive, raiseIf_pos unnamed, ok_bind,
        error_bind]
    · refine ⟨"uid" ++ " must be an integer >= " ++ toString (1 : Int),
        fun commandId expectedRevision => ?_⟩
      simp only [command, reserve, validateInt_error (not_le.mp positive), error_bind]
  | replaceFailed slotNo reason nowMs approved =>
    refine ⟨"failure reason cannot be empty", fun commandId expectedRevision => ?_⟩
    simp only [command, replaceFailed, raiseIf_pos (not_not.mp refused), error_bind]
  | grow mains spares =>
    by_cases main : 0 ≤ mains
    · by_cases spare : 0 ≤ spares
      · have nothing : mains + spares = 0 := by
          by_contra some
          exact refused ⟨main, spare, some⟩
        refine ⟨"grow must add at least one seat", fun commandId expectedRevision => ?_⟩
        simp only [command, grow, validateInt_ok main, validateInt_ok spare, raiseIf_pos nothing,
          ok_bind, error_bind]
      · refine ⟨"additional_spares" ++ " must be an integer >= " ++ toString (0 : Int),
          fun commandId expectedRevision => ?_⟩
        simp only [command, grow, validateInt_ok main, validateInt_error (not_le.mp spare),
          ok_bind, error_bind]
    · refine ⟨"additional_main" ++ " must be an integer >= " ++ toString (0 : Int),
        fun commandId expectedRevision => ?_⟩
      simp only [command, grow, validateInt_error (not_le.mp main), error_bind]
  | reconcileRosterCapacity count minimum percent =>
    have unknown : ∃ message, desiredCapacity count minimum percent =
        .error (.configuration message) := by
      by_cases participants : 0 ≤ count
      · by_cases spares : 0 ≤ minimum
        · have share : percent < 0 := by
            by_contra share
            exact refused ⟨participants, spares, not_lt.mp share⟩
          refine ⟨"spare_percent" ++ " must be an integer >= " ++ toString (0 : Int), ?_⟩
          simp only [desiredCapacity, validateInt_ok participants, validateInt_ok spares,
            validateInt_error share, ok_bind, error_bind]
        · refine ⟨"minimum_spares" ++ " must be an integer >= " ++ toString (0 : Int), ?_⟩
          simp only [desiredCapacity, validateInt_ok participants,
            validateInt_error (not_le.mp spares), ok_bind, error_bind]
      · refine ⟨"participant_count" ++ " must be an integer >= " ++ toString (0 : Int), ?_⟩
        simp only [desiredCapacity, validateInt_error (not_le.mp participants), error_bind]
    obtain ⟨message, unknown⟩ := unknown
    refine ⟨message, fun commandId expectedRevision => ?_⟩
    simp only [command, reconcileRosterCapacity, unknown, error_bind]
  | reschedule beginAtMs lead =>
    by_cases positive : 1 ≤ beginAtMs
    · by_cases nonneg : 0 ≤ lead
      · have late : beginAtMs ≤ lead := by
          by_contra before
          exact refused ⟨positive, nonneg, not_le.mp before⟩
        refine ⟨"release time cannot precede Unix epoch", fun commandId expectedRevision => ?_⟩
        simp only [command, reschedule, validateInt_ok positive, validateInt_ok nonneg,
          raiseIf_pos late, ok_bind, error_bind]
      · refine ⟨"release_lead_ms" ++ " must be an integer >= " ++ toString (0 : Int),
          fun commandId expectedRevision => ?_⟩
        simp only [command, reschedule, validateInt_ok positive,
          validateInt_error (not_le.mp nonneg), ok_bind, error_bind]
    · refine ⟨"begin_at_ms" ++ " must be an integer >= " ++ toString (1 : Int),
        fun commandId expectedRevision => ?_⟩
      simp only [command, reschedule, validateInt_error (not_le.mp positive), error_bind]
  | _ => exact absurd trivial refused

/- Receipts in use -/

section Reused
variable {commandId : String} {expectedRevision : Int} {result : TransitionResult}

/- What changed the pool went through the receipt log and left a receipt. -/
theorem changed_leaves_receipt
    (applied : pool.command ⟨operation, commandId, expectedRevision⟩ = .ok result)
    (changed : pool.revision < result.state.revision) :
    PyText.strip commandId ≠ "" ∧ result.replayed = false ∧
      ∃ receipt, result.state.receipt commandId = some receipt ∧
        receipt.fingerprint = operation.print ∧ receipt.value = result.value := by
  by_cases accepted : operation.Accepted
  · by_cases settled : operation.Settled pool
    · obtain ⟨value, eq⟩ := command_settled accepted settled
      rw [eq] at applied
      cases applied
      exact absurd changed (lt_irrefl _)
    · obtain ⟨mutate, eq⟩ := command_eq_apply accepted settled
      rw [eq] at applied
      refine ⟨fun unnamed => ?_, ?_⟩
      · simp [apply, unnamed] at applied
      · rcases apply_ok applied with ⟨_, _, _, rfl⟩ | ⟨absent, _, mutation, _, rfl⟩
        · exact absurd changed (lt_irrefl _)
        · exact ⟨rfl, _, receipt_appended absent rfl, rfl, rfl⟩
  · obtain ⟨message, eq⟩ := command_refused pool accepted
    rw [eq] at applied
    cases applied

/-- The answer that a repeated command owes its caller. -/
def Replays (pool : SeatPoolState) (c : Command) (value : CommandValue) : Prop :=
  pool.command c = .ok { state := pool, value := value, replayed := true }

def Conflicts (pool : SeatPoolState) (c : Command) : Prop :=
  ∃ message, pool.command c = .error (.commandConflict message)

instance (c : Command) (value : CommandValue) : Decidable (Replays pool c value) := by
  unfold Replays
  infer_instance

theorem replays_iff {receipt : CommandReceipt} (named : PyText.strip commandId ≠ "")
    (found : pool.receipt commandId = some receipt) (same : receipt.fingerprint = operation.print)
    (accepted : operation.Accepted) :
    Replays pool ⟨operation, commandId, expectedRevision⟩ receipt.value ↔
      ¬ operation.Settled pool := by
  unfold Replays
  constructor
  · intro replayed settled
    obtain ⟨value, eq⟩ := command_settled accepted settled
    rw [eq] at replayed
    cases replayed
  · intro unsettled
    obtain ⟨mutate, eq⟩ := command_eq_apply accepted unsettled
    rw [eq, apply, if_neg named, found]
    exact if_pos same

theorem conflicts_iff {receipt : CommandReceipt} (named : PyText.strip commandId ≠ "")
    (found : pool.receipt commandId = some receipt) :
    Conflicts pool ⟨operation, commandId, expectedRevision⟩ ↔
      operation.Accepted ∧ ¬ operation.Settled pool ∧ operation.print ≠ receipt.fingerprint := by
  unfold Conflicts
  by_cases accepted : operation.Accepted
  · by_cases settled : operation.Settled pool
    · obtain ⟨value, eq⟩ := command_settled accepted settled
      simp [eq, settled]
    · obtain ⟨mutate, eq⟩ := command_eq_apply accepted settled
      rw [eq, apply, if_neg named, found]
      by_cases same : receipt.fingerprint = operation.print
      · simp [Operation.print] at same
        simp [accepted, settled, same, Operation.print]
      · have other : receipt.fingerprint ≠
          fingerprint operation.recordedCall.1 operation.recordedCall.2 := same
        simp [accepted, settled, other, Ne.symm same]
  · obtain ⟨message, eq⟩ := command_refused pool accepted
    simp [eq, accepted]

end Reused

/- After any later commands, a repetition replays its first value and a reuse of the id
   conflicts exactly when no check and no early return comes before the receipt log. -/
theorem command_reuse_iff {c : Command} {result : TransitionResult}
    (applied : pool.command c = .ok result) (changed : pool.revision < result.state.revision)
    (later : List Command) (expectedRevision : Int) (other : Operation) (otherRevision : Int) :
    (Replays (Runs.run afterCommand result.state later)
        ⟨c.operation, c.commandId, expectedRevision⟩ result.value ∧
      (other.recordedCall ≠ c.operation.recordedCall →
        Conflicts (Runs.run afterCommand result.state later)
          ⟨other, c.commandId, otherRevision⟩)) ↔
    ¬ c.operation.Settled (Runs.run afterCommand result.state later) ∧
      (other.recordedCall ≠ c.operation.recordedCall → other.Accepted ∧
        ¬ other.Settled (Runs.run afterCommand result.state later) ∧
        other.print ≠ c.operation.print) := by
  obtain ⟨named, _, receipt, found, print, value⟩ := changed_leaves_receipt applied changed
  have kept : result.state.receipts <+: (Runs.run afterCommand result.state later).receipts :=
    Runs.run_invariant (fun later : SeatPoolState => result.state.receipts <+: later.receipts)
      (fun _ c kept => kept.trans (afterCommand_keeps_receipts c)) (List.prefix_refl _) later
  have still := receipt_of_prefix kept found
  have accepted : c.operation.Accepted := by
    by_contra refused
    obtain ⟨message, eq⟩ := command_refused pool refused
    rw [eq] at applied
    cases applied
  rw [← value, replays_iff named still print accepted, conflicts_iff named still, print]

/- A pool of three seats grows for a roster of five, twice under one id. -/
def smallPool : SeatPoolState :=
  (SeatPoolState.create "tid" 1 2 1000000).toOption.getD
    ⟨"", 0, 0, 0, 0, 0, [], []⟩

def rosterOfFive : Command := ⟨.reconcileRosterCapacity 5 2 10, "roster-5", 0⟩

def grownForFive : TransitionResult :=
  (smallPool.command rosterOfFive).toOption.getD ⟨smallPool, .added [], false⟩

theorem command_reuse_after_freeze :
    (Replays (Runs.run afterCommand (smallPool.afterCommand ⟨.freeze 5, "freeze", 0⟩)
        [⟨.collect 6, "collect", 1⟩]) ⟨.freeze 5, "freeze", 0⟩ (.frozen []) ∧
      ((Operation.freeze 7).recordedCall ≠ (Operation.freeze 5).recordedCall →
        Conflicts (Runs.run afterCommand (smallPool.afterCommand ⟨.freeze 5, "freeze", 0⟩)
          [⟨.collect 6, "collect", 1⟩]) ⟨.freeze 7, "freeze", 2⟩)) :=
  (@command_reuse_iff smallPool ⟨.freeze 5, "freeze", 0⟩ _
    (by decide +kernel) (by decide +kernel) _ 0 (.freeze 7) 2).mpr
      ⟨id, fun _ => ⟨trivial, id, by decide +kernel⟩⟩

theorem repeated_reconcile_is_no_replay :
    SeatPoolState.create "tid" 1 2 1000000 = .ok smallPool ∧
      smallPool.command rosterOfFive = .ok grownForFive ∧
      smallPool.revision < grownForFive.state.revision ∧
      ¬ Replays grownForFive.state rosterOfFive grownForFive.value := by
  decide +kernel

end SeatPoolState
end NoiContest.SeatPool
