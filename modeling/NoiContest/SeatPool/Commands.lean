import NoiContest.SeatPool.State

/- The commands as data, and what every one of them does to the receipts. -/
namespace NoiContest.SeatPool
open Outcome

inductive Operation where
  | markWarming (slotNo : Nat) (nowMs : Int)
  | markVerified (slotNo : Nat) (containerRef imageDigest materialDigest : String) (nowMs : Int)
  | reserve (uid : Int) (uname : String) (nowMs : Int)
  | release (uid nowMs : Int)
  | releaseDue (nowMs : Int)
  | replaceFailed (slotNo : Nat) (reason : String) (nowMs : Int) (teacherApproved : Bool)
  | grow (additionalMain additionalSpares : Int)
  | reconcileRosterCapacity (participantCount minimumSpares sparePercent : Int)
  | reschedule (beginAtMs releaseLeadMs : Int)
  | freeze (nowMs : Int)
  | collect (nowMs : Int)

structure Command where
  operation : Operation
  commandId : String
  expectedRevision : Int

namespace SeatPoolState

def command (pool : SeatPoolState) (c : Command) : Except PoolError TransitionResult :=
  match c.operation with
  | .markWarming slotNo nowMs => pool.markWarming slotNo nowMs c.commandId c.expectedRevision
  | .markVerified slotNo container image material nowMs =>
    pool.markVerified slotNo container image material nowMs c.commandId c.expectedRevision
  | .reserve uid uname nowMs => pool.reserve uid uname nowMs c.commandId c.expectedRevision
  | .release uid nowMs => pool.release uid nowMs c.commandId c.expectedRevision
  | .releaseDue nowMs => pool.releaseDue nowMs c.commandId c.expectedRevision
  | .replaceFailed slotNo reason nowMs approved =>
    pool.replaceFailed slotNo reason nowMs approved c.commandId c.expectedRevision
  | .grow mains spares => pool.grow mains spares c.commandId c.expectedRevision
  | .reconcileRosterCapacity count minimum percent =>
    pool.reconcileRosterCapacity count minimum percent c.commandId c.expectedRevision
  | .reschedule beginAtMs lead => pool.reschedule beginAtMs lead c.commandId c.expectedRevision
  | .freeze nowMs => pool.freeze nowMs c.commandId c.expectedRevision
  | .collect nowMs => pool.collect nowMs c.commandId c.expectedRevision

/-- The stored pool after a command, one that raises is not saved. -/
def afterCommand (pool : SeatPoolState) (c : Command) : SeatPoolState :=
  match pool.command c with
  | .ok result => result.state
  | .error _ => pool

variable {pool : SeatPoolState} {operation : String} {arguments : List (String × JsonText.Json)}
  {commandId : String} {expectedRevision : Int} {mutate : Except PoolError Mutation}
  {result : TransitionResult}

/- Everything a successful command can do: replay its receipt, or run on the expected
   revision and append a receipt. -/
theorem apply_ok (applied : pool.apply operation arguments commandId expectedRevision mutate =
    .ok result) :
    (∃ receipt, pool.receipt commandId = some receipt ∧
      receipt.fingerprint = fingerprint operation arguments ∧
      result = { state := pool, value := receipt.value, replayed := true }) ∨
    (pool.receipt commandId = none ∧ expectedRevision = pool.revision ∧
      ∃ changed, mutate = .ok changed ∧
        result = { state := pool.recorded changed commandId (fingerprint operation arguments)
                   value := changed.value }) := by
  unfold apply at applied
  split at applied
  · cases applied
  · split at applied
    · rename_i receipt found
      split at applied
      · rename_i same
        simp only [Except.ok.injEq] at applied
        exact .inl ⟨receipt, found, same, applied.symm⟩
      · cases applied
    · rename_i absent
      split at applied
      · rename_i expected
        obtain ⟨changed, mutated, eq⟩ := map_ok.mp applied
        exact .inr ⟨absent, expected, changed, mutated, eq.symm⟩
      · cases applied

theorem apply_keeps_receipts (applied : pool.apply operation arguments commandId
    expectedRevision mutate = .ok result) : pool.receipts <+: result.state.receipts := by
  rcases apply_ok applied with ⟨_, _, _, rfl⟩ | ⟨_, _, _, _, rfl⟩
  · exact List.prefix_refl _
  · exact List.prefix_append _ _

theorem command_keeps_receipts {c : Command} (applied : pool.command c = .ok result) :
    pool.receipts <+: result.state.receipts := by
  unfold command at applied
  cases operation : c.operation <;> simp only [operation] at applied
  case markWarming => exact apply_keeps_receipts applied
  case release => exact apply_keeps_receipts applied
  case releaseDue => exact apply_keeps_receipts applied
  case freeze => exact apply_keeps_receipts applied
  case collect => exact apply_keeps_receipts applied
  case markVerified =>
    obtain ⟨_, _, applied⟩ := bind_ok.mp applied
    exact apply_keeps_receipts applied
  case reserve =>
    obtain ⟨_, _, applied⟩ := bind_ok.mp applied
    obtain ⟨_, _, applied⟩ := bind_ok.mp applied
    exact apply_keeps_receipts applied
  case replaceFailed =>
    obtain ⟨_, _, applied⟩ := bind_ok.mp applied
    exact apply_keeps_receipts applied
  case grow =>
    obtain ⟨_, _, applied⟩ := bind_ok.mp applied
    obtain ⟨_, _, applied⟩ := bind_ok.mp applied
    obtain ⟨_, _, applied⟩ := bind_ok.mp applied
    exact apply_keeps_receipts applied
  case reconcileRosterCapacity =>
    obtain ⟨⟨targetMain, targetSpares⟩, _, applied⟩ := bind_ok.mp applied
    simp only at applied
    split at applied
    · simp only [pure_eq_ok] at applied
      exact applied ▸ List.prefix_refl _
    · exact apply_keeps_receipts applied
  case reschedule =>
    obtain ⟨_, _, applied⟩ := bind_ok.mp applied
    obtain ⟨_, _, applied⟩ := bind_ok.mp applied
    obtain ⟨_, _, applied⟩ := bind_ok.mp applied
    simp only at applied
    split at applied
    · simp only [pure_eq_ok] at applied
      exact applied ▸ List.prefix_refl _
    · exact apply_keeps_receipts applied

theorem afterCommand_keeps_receipts (c : Command) :
    pool.receipts <+: (pool.afterCommand c).receipts := by
  unfold afterCommand
  split
  · rename_i result applied
    exact command_keeps_receipts applied
  · exact List.prefix_refl _

/- The first receipt of an id answers for it, whatever was appended since. -/
theorem receipt_of_prefix {later : SeatPoolState} {receipt : CommandReceipt}
    (kept : pool.receipts <+: later.receipts) (found : pool.receipt commandId = some receipt) :
    later.receipt commandId = some receipt := by
  obtain ⟨appended, eq⟩ := kept
  unfold SeatPoolState.receipt at found ⊢
  rw [← eq, List.find?_append, found]
  rfl

theorem receipt_appended {front : List CommandReceipt} {added : CommandReceipt}
    (absent : front.find? (·.commandId == commandId) = none) (named : added.commandId = commandId) :
    (front ++ [added]).find? (·.commandId == commandId) = some added := by
  rw [List.find?_append, absent]
  simp [named]

end SeatPoolState
end NoiContest.SeatPool
