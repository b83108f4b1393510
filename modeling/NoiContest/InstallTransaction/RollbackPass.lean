import NoiContest.InstallTransaction.ForwardPass

/- The rollback, its verification and the handler around it. -/
namespace NoiContest.InstallTransaction
open Flow Outcome

variable {regime : Regime} {context : Context} {tolerant : Prop} {disk : Disk} {row : Journal}
  {phase : Phase}

theorem ends_rollback {post : Option Receipt → Disk → Prop} {raised : Raised → Disk → Prop}
    {given : Option Receipt}
    (kept : ∀ reply, Consistent regime (disk.record (.rolledBack context phase reply)))
    (next : ∀ reply, post reply (disk.record (.rolledBack context phase (.ok reply))))
    (failed : ∀ e, raised e (disk.record (.rolledBack context phase (.error e)))) :
    Ends (keeping regime context tolerant) (call (.rollback context phase given)) disk post
      raised := by
  intro choice _
  refine ⟨kept _, ?_⟩
  simp only [respond, Choice.answer]
  split
  · exact failed _
  · exact next _

theorem ends_verifyRollback {post : Option Content → Disk → Prop} {raised : Raised → Disk → Prop}
    (kept : ∀ reply, Consistent regime (disk.record (.verified context reply)))
    (next : ∀ reply, post reply (disk.record (.verified context (.ok reply))))
    (failed : ∀ e, raised e (disk.record (.verified context (.error e)))) :
    Ends (keeping regime context tolerant) (call (.verifyRollback context)) disk post raised := by
  intro choice _
  refine ⟨kept _, ?_⟩
  simp only [respond, Choice.answer]
  split
  · exact failed _
  · exact next _

theorem ends_rollbackCleanup {post : Option CleanupReply → Disk → Prop}
    {raised : Raised → Disk → Prop} (consistent : Consistent regime disk)
    (next : ∀ reply, post reply disk) (failed : ∀ e, raised e disk) :
    Ends (keeping regime context tolerant) (call (.rollbackCleanup context)) disk post raised := by
  intro choice _
  refine ⟨consistent, ?_⟩
  simp only [respond, Choice.answer]
  split
  · exact failed _
  · exact next _

/-- The journal in memory is the one on disk, and the rollback is under way. -/
structure Retreating (regime : Regime) (context : Context) (disk : Disk) (row : Journal) :
    Prop where
  consistent : Consistent regime disk
  stored : disk.files .pending = some (.journal row)
  identity : row.context = context
  undecided : Undecided context disk
  status : row.status = .rollingBack

namespace Retreating

theorem follows (retreating : Retreating regime context disk row) :
    Follows regime (disk.plan context.planId).log row :=
  retreating.consistent.follows retreating.stored retreating.identity

theorem unsealed (retreating : Retreating regime context disk row) :
    ¬ Sealed (disk.plan context.planId).log := by
  intro written
  have status := retreating.follows.is_sealed written
  rw [retreating.status] at status
  cases status

theorem broken (retreating : Retreating regime context disk row) :
    Broken regime context disk row where
  consistent := retreating.consistent
  owned := owned_of_stored retreating.stored retreating.identity
  identity := retreating.identity
  uncommitted := retreating.undecided.1
  follows := retreating.follows.retreat retreating.unsealed
  verified final := absurd retreating.undecided.2 final

/- A driver of the rollback was called. -/
theorem record (retreating : Retreating regime context disk row) {event : Event}
    (about : event.planId = some context.planId) (allowed : Allowed regime.setup disk.log event)
    (grows : Follows regime (event :: (disk.plan context.planId).log) row) :
    Retreating regime context (disk.record event) row := by
  have plan : (disk.record event).plan context.planId = { disk.plan context.planId with
      log := event :: (disk.plan context.planId).log } := by
    rw [plan_record, if_pos about]
  have undecided := retreating.undecided
  refine ⟨?_, retreating.stored, retreating.identity, ?_, retreating.status⟩
  · refine retreating.consistent.record context.planId about allowed (fun absent => ?_)
      fun other _ present => ?_
    · rw [plan_pending retreating.stored retreating.identity] at absent
      cases absent.1
    · rcases present with own | final | final
      · rw [plan_pending retreating.stored retreating.identity] at own
        cases own
        exact grows
      · rw [undecided.1] at final
        cases final
      · rw [undecided.2] at final
        cases final
  · unfold Undecided
    rw [plan]
    exact undecided

/- The journal moves on, in memory and on disk. -/
theorem write (retreating : Retreating regime context disk row) (row' : Journal)
    (identity : row'.context = context) (status : row'.status = .rollingBack)
    (follows : Follows regime (disk.plan context.planId).log row') :
    Retreating regime context (disk.write .pending (.journal row')) row' where
  consistent := retreating.consistent.write_own row'
    (owned_of_stored retreating.stored retreating.identity) identity retreating.undecided follows
  stored := stored_write_pending disk row'
  identity := identity
  undecided := undecided_write_pending retreating.undecided row'
  status := status

end Retreating

theorem mem_take_of_drop {targets rest : List Phase} {i k : Nat} (distinct : targets.Nodup)
    (drop : targets.drop i = phase :: rest) : phase ∈ targets.take k ↔ i < k := by
  have inside : i < targets.length := by
    by_contra beyond
    rw [List.drop_eq_nil_of_le (Nat.le_of_not_lt beyond)] at drop
    cases drop
  have here : targets[i] = phase := by
    rw [List.drop_eq_getElem_cons inside] at drop
    exact (List.cons.inj drop).1
  rw [List.mem_take_iff_getElem]
  constructor
  · rintro ⟨j, bound, eq⟩
    have same : j = i := by
      rw [← here] at eq
      exact (distinct.getElem_inj_iff).mp eq
    omega
  · intro earlier
    exact ⟨i, by omega, here⟩

theorem take_succ_of_drop {targets rest : List Phase} {i : Nat}
    (drop : targets.drop i = phase :: rest) : targets.take (i + 1) = targets.take i ++ [phase] := by
  have here : targets[i]? = some phase := by
    rw [← List.head?_drop, drop]
    rfl
  rw [List.take_add_one, here]
  rfl

theorem drop_succ_of_drop {targets rest : List Phase} {i : Nat}
    (drop : targets.drop i = phase :: rest) : targets.drop (i + 1) = rest := by
  rw [← List.drop_drop, drop]
  rfl

theorem rollbackTargets_distinct (setup : Setup) (row : Journal) :
    (rollbackTargets setup row).Nodup := setup.rollbackDistinct.filter _

/- A phase was rolled back and verified, which the journal is about to say. -/
theorem Follows.undo {log : List Event} {reply : Option Receipt} {value : Receipt}
    (follows : Follows regime log row) (status : row.status = .rollingBack)
    (verified : receipt phase "rollback" reply = .ok value)
    (exact_targets : row.rollbackCompleted ++ [phase] =
      (rollbackTargets regime.setup row).take (row.rollbackCompleted ++ [phase]).length) :
    Follows regime (.rolledBack context phase (.ok reply) :: log)
      { row with rollbackCompleted := row.rollbackCompleted ++ [phase] } := by
  have called : Follows regime (.rolledBack context phase (.ok reply) :: log) row :=
    follows.undoing ⟨by rw [status]; decide, by rw [status]; decide⟩
  exact
    { valid :=
        { front_exact := follows.valid.front_exact
          receipts := follows.valid.receipts
          next := follows.valid.next
          current := follows.valid.current
          undone := exact_targets }
      applied := called.applied
      forward := called.forward
      is_sealed := called.is_sealed
      undone := by
        rw [verifiedRollbacks_cons]
        simp only [Event.verifiedRollback, verified, Except.isOk, Except.toBool, if_true]
        exact follows.undone.append_right [phase]
      finished := fun eq => by
        have eq : row.status = .rollbackVerified := eq
        rw [status] at eq
        cases eq }

theorem rollbackPhases_ends {targets already : List Phase} (rest : List Phase) (i k : Nat)
    (retreating : Retreating regime context disk row)
    (all : rollbackTargets regime.setup row = targets) (skipped : already = targets.take k)
    (left : rest = targets.drop i) (progress : row.rollbackCompleted = targets.take (max i k)) :
    Ends (keeping regime context tolerant) (rollbackPhases context already rest row) disk
      (fun row' d => Retreating regime context d row' ∧
        row'.rollbackCompleted = rollbackTargets regime.setup row')
      (fun failed d => Broken regime context d failed.2) := by
  induction rest generalizing disk row i with
  | nil =>
    refine ⟨retreating, ?_⟩
    have beyond : targets.length ≤ i := List.drop_eq_nil_iff.mp left.symm
    rw [progress, all, List.take_of_length_le (le_trans beyond (le_max_left i k))]
  | cons phase rest ih =>
    have distinct : targets.Nodup := all ▸ rollbackTargets_distinct regime.setup row
    rw [rollbackPhases, skipped, ends_ite, mem_take_of_drop distinct left.symm]
    constructor
    · intro earlier
      rw [← skipped]
      refine ih (i + 1) retreating all (drop_succ_of_drop left.symm).symm ?_
      rw [progress, max_eq_right (Nat.le_of_lt earlier), max_eq_right earlier]
    · intro later
      have reached : k ≤ i := Nat.le_of_not_lt later
      rw [max_eq_left reached] at progress
      have follows := retreating.follows
      have called : ∀ reply, Retreating regime context
          (disk.record (.rolledBack context phase reply)) row := fun reply =>
        retreating.record rfl retreating.unsealed (follows.undoing
          ⟨by rw [retreating.status]; decide, by rw [retreating.status]; decide⟩)
      have extended : row.rollbackCompleted ++ [phase] = targets.take (i + 1) := by
        rw [progress, take_succ_of_drop left.symm]
      rw [ends_bind]
      refine ends_holding (ends_rollback (fun reply => (called reply).consistent)
        (fun reply => ?_) fun e => (called (.error e)).broken)
      rw [ends_bind]
      refine ends_holding (ends_checked (fun value verified => ?_)
        fun e => (called (.ok reply)).broken)
      set row' : Journal := { row with rollbackCompleted := row.rollbackCompleted ++ [phase] }
        with row'_eq
      have plan : ((disk.record (.rolledBack context phase (.ok reply))).plan
          context.planId).log = .rolledBack context phase (.ok reply) ::
            (disk.plan context.planId).log := by
        simp [Event.planId]
      have undone : Follows regime ((disk.record (.rolledBack context phase (.ok reply))).plan
          context.planId).log row' := by
        rw [plan]
        refine follows.undo retreating.status verified ?_
        rw [all, extended, List.length_take]
        exact List.take_eq_take_min
      have next := (called (.ok reply)).write row' retreating.identity
        retreating.status undone
      have behind : Broken regime context (disk.record (.rolledBack context phase (.ok reply)))
          row' :=
        { (called (.ok reply)).broken with
          identity := retreating.identity
          follows := undone.retreat (called (.ok reply)).unsealed }
      rw [ends_bind]
      refine ends_holding (ends_atomicJson (called (.ok reply)).consistent next.consistent ?_
        (fun _ _ => behind) fun _ _ => next.broken)
      rw [← skipped]
      refine ih (i + 1) next ?_ (drop_succ_of_drop left.symm).symm ?_
      · rw [← all]
        rfl
      · rw [max_eq_left (le_trans reached (Nat.le_succ i))]
        exact extended

theorem plan_write_verification (context : Context) (disk : Disk) :
    (disk.write (.rollbackVerification context.planId) (verificationOf context)).plan
      context.planId =
      { disk.plan context.planId with verification := some (verificationOf context) } := by
  simp [Disk.write, Disk.recordRow, verificationOf]

theorem verifyOnce_ends (retreating : Retreating regime context disk row) :
    Ends (keeping regime context tolerant) (verifyOnce context) disk
      (fun _ d => Retreating regime context d row ∧ RollbackChecked (d.plan context.planId).log ∧
        (d.plan context.planId).verification ≠ none)
      (fun _ d => Broken regime context d row) := by
  unfold verifyOnce
  rw [ends_bind]
  refine ends_lexists retreating.consistent ?_
  rw [ends_ite]
  constructor
  · intro there
    have found : (disk.plan context.planId).verification ≠ none :=
      Option.isSome_iff_ne_none.mp there
    rw [ends_bind]
    refine ends_readExact retreating.consistent (fun content _ => ?_) fun _ => retreating.broken
    exact ends_checked (fun _ _ => ⟨retreating, (retreating.consistent.tracked
      context.planId).verification found, found⟩) fun _ => retreating.broken
  · intro _
    have called : ∀ reply, Retreating regime context (disk.record (.verified context reply)) row :=
      fun reply => retreating.record rfl trivial retreating.follows.verified
    rw [ends_bind]
    refine ends_verifyRollback (fun reply => (called reply).consistent) (fun reply => ?_)
      fun e => (called (.error e)).broken
    rw [ends_bind]
    refine ends_checked (fun _ agreed => ?_) fun e => (called (.ok reply)).broken
    simp only [raiseIf_ok, not_not] at agreed
    have checked : RollbackChecked ((disk.record (.verified context (.ok reply))).plan
        context.planId).log := by
      refine ⟨context, ?_⟩
      rw [agreed]
      simp [Event.planId]
    have written := (called (.ok reply)).consistent.writeVerification
      context.planId "rollback_verified" context.backupManifestSha256 checked
    have plan := plan_write_verification context (disk.record (.verified context (.ok reply)))
    have next : Retreating regime context ((disk.record (.verified context (.ok reply))).write
        (.rollbackVerification context.planId) (verificationOf context)) row := by
      refine ⟨written, (called (.ok reply)).stored, retreating.identity, ?_, retreating.status⟩
      unfold Undecided
      rw [plan]
      exact (called (.ok reply)).undecided
    refine ends_atomicJson (called (.ok reply)).consistent written ⟨next, ?_, ?_⟩
      (fun _ _ => (called (.ok reply)).broken) fun _ _ => next.broken
    · rw [plan]
      exact checked
    · rw [plan]
      exact Option.some_ne_none _

theorem cleanupOnce_ends (retreating : Retreating regime context disk row)
    (checked : RollbackChecked (disk.plan context.planId).log)
    (found : (disk.plan context.planId).verification ≠ none) :
    Ends (keeping regime context tolerant) (cleanupOnce context) disk
      (fun _ d => Retreating regime context d row ∧ RollbackChecked (d.plan context.planId).log ∧
        (d.plan context.planId).verification ≠ none)
      (fun _ d => Broken regime context d row) := by
  unfold cleanupOnce
  rw [ends_bind]
  refine ends_lexists retreating.consistent ?_
  rw [ends_ite]
  constructor
  · intro _
    rw [ends_bind]
    refine ends_readExact retreating.consistent (fun content _ => ?_) fun _ => retreating.broken
    exact ends_checked (fun _ _ => ⟨retreating, checked, found⟩) fun _ => retreating.broken
  · intro _
    have written : Consistent regime (disk.write (.rollbackCleanup context.planId)
        (rollbackCleanupOf context)) :=
      retreating.consistent.writeRollbackCleanup "verified" context.backupManifestSha256
    have plan : (disk.write (.rollbackCleanup context.planId) (rollbackCleanupOf context)).plan
        context.planId = disk.plan context.planId := by
      simp [Disk.write, Disk.recordRow, rollbackCleanupOf]
    have next : Retreating regime context (disk.write (.rollbackCleanup context.planId)
        (rollbackCleanupOf context)) row := by
      refine ⟨written, retreating.stored, retreating.identity, ?_, retreating.status⟩
      unfold Undecided
      rw [plan]
      exact retreating.undecided
    rw [ends_bind]
    refine ends_rollbackCleanup retreating.consistent (fun reply => ?_) fun _ => retreating.broken
    rw [ends_bind]
    refine ends_checked (fun _ _ => ?_) fun _ => retreating.broken
    exact ends_atomicJson retreating.consistent written ⟨next, plan ▸ checked, plan ▸ found⟩
      (fun _ _ => retreating.broken) fun _ _ => next.broken

/- The pending journal, the final receipt, and the pending journal gone. -/
theorem Consistent.sealRolledBack (consistent : Consistent regime disk) (row : Journal)
    (owned : Owned row.planId disk) (undecided : Undecided row.context disk)
    (status : row.status = .rollbackVerified)
    (follows : Follows regime (disk.plan row.planId).log row) :
    Consistent regime (disk.write .pending (.journal row)) ∧
      Consistent regime ((disk.write .pending (.journal row)).write
        (.final .rollbackVerified row.planId) (.journal row)) ∧
      Consistent regime (((disk.write .pending (.journal row)).write
        (.final .rollbackVerified row.planId) (.journal row)).put .pending none) := by
  obtain ⟨uncommitted, unrolled⟩ := undecided
  have first := consistent.writePending owned uncommitted (.inl unrolled) follows
  have second := first.writeRolledBack row (stored_write_pending _ _) status
    (by simpa [Disk.write, Disk.recordRow, Event.planId, pendingOf] using uncommitted)
  refine ⟨first, second, second.unlinkPending row.planId (fun row' same => ?_) ?_⟩
  · have same : row' = row := by
      simpa [Disk.write, Disk.recordRow, Disk.record, Disk.put, eq_comm] using same
    rw [same]
  · simp [Disk.write, Disk.recordRow, Event.planId]

/- A failure here finds the verification on disk, so the handler does not ask for help. -/
theorem sealRolledBack_ends (strict : tolerant → regime.loose context.planId)
    (retreating : Retreating regime context disk row)
    (all : row.rollbackCompleted = rollbackTargets regime.setup row)
    (checked : RollbackChecked (disk.plan context.planId).log)
    (found : (disk.plan context.planId).verification ≠ none) :
    Ends (keeping regime context tolerant) (finalize context row .rollbackVerified) disk
      (fun j d => Consistent regime d ∧ j.status = .rollbackVerified)
      (fun _ d => Broken regime context d row) := by
  have follows := retreating.follows
  have start := retreating.broken
  have unsealed := retreating.unsealed
  obtain ⟨consistent, stored, rfl, ⟨uncommitted, unrolled⟩, status⟩ := retreating
  have sealing : Follows regime (disk.plan row.planId).log
      { row with status := .rollbackVerified } :=
    { valid :=
        { front_exact := follows.valid.front_exact
          receipts := follows.valid.receipts
          next := fun eq => by cases eq
          current := follows.valid.current
          undone := follows.valid.undone }
      applied := follows.applied
      forward := fun _ => ⟨by simp, by simp⟩
      is_sealed := fun written => absurd written unsealed
      undone := follows.undone
      finished := fun _ => ⟨all, checked⟩ }
  have owned : Owned row.planId disk := owned_of_stored stored rfl
  obtain ⟨first, second, third⟩ := consistent.sealRolledBack
    { row with status := .rollbackVerified } owned ⟨uncommitted, unrolled⟩ rfl sealing
  have back := start.follows
  set receipt : Journal := { row with status := .rollbackVerified }
  have sealed_once : Follows regime (.wrote receipt :: (disk.plan row.planId).log)
      { row with status := .rollingBack } := back.wrote fun eq => by cases eq
  have sealed_twice : Follows regime
      (.wrote receipt :: .wrote receipt :: (disk.plan row.planId).log)
      { row with status := .rollingBack } := sealed_once.wrote fun eq => by cases eq
  have owned_sealed : Owned row.planId (disk.write .pending
      (.journal { row with status := .rollbackVerified })) := owned_write_pending _ rfl
  refine ends_finalize unrolled consistent first second third ⟨third, rfl⟩
    ⟨fun _ _ => start, fun _ _ => ?_, fun _ permitted => ?_, fun _ permitted => ?_⟩
  · refine ⟨first, owned_sealed, rfl, ?_, ?_, fun final => absurd ?_ final⟩
    · simpa [Disk.write, Disk.recordRow, Event.planId] using uncommitted
    · rw [log_write_pending { row with status := .rollbackVerified } (rfl : _ = row.context)]
      exact sealed_once
    · simpa [Disk.write, Disk.recordRow, Event.planId] using unrolled
  · -- from here on the receipt of the rollback is there
    have loose : regime.loose row.planId := permitted.elim strict fun unset => by
      simp [Unreceipted, Disk.write, Disk.recordRow, Event.planId] at unset
    refine ⟨second, fun row'' same => owned_sealed row'' ?_, rfl, ?_, ?_, fun _ => ⟨?_, loose⟩⟩
    · simpa [Disk.write, Disk.recordRow, Disk.record, Disk.put] using same
    · simpa [Disk.write, Disk.recordRow, Event.planId] using uncommitted
    · simp only [Disk.write, Disk.recordRow, Event.planId, plan_put_rolledBack, plan_put_pending,
        plan_record, context_planId, if_true]
      exact sealed_twice
    · simpa [Disk.write, Disk.recordRow, Event.planId] using found
  · have loose : regime.loose row.planId := permitted.elim strict fun unset => by
      simp [Unreceipted, Disk.write, Disk.recordRow, Event.planId] at unset
    refine ⟨third, fun row'' same => ?_, rfl, ?_, ?_, fun _ => ⟨?_, loose⟩⟩
    · simp [Disk.put] at same
    · simpa [Disk.write, Disk.recordRow, Event.planId] using uncommitted
    · simp only [Disk.write, Disk.recordRow, Event.planId, plan_put_rolledBack, plan_put_pending,
        plan_record, context_planId, if_true]
      exact sealed_twice
    · simpa [Disk.write, Disk.recordRow, Event.planId] using found

theorem rollBackBody_ends (strict : tolerant → regime.loose context.planId)
    (retreating : Retreating regime context disk row) :
    Ends (keeping regime context tolerant) (rollBackBody regime.setup context row) disk
      (fun j d => Consistent regime d ∧ j.status = .rollbackVerified)
      (fun failed d => Broken regime context d failed.2) := by
  unfold rollBackBody
  have undone := retreating.follows.valid.undone
  refine Ends.bind checking_monotone
    (rollbackPhases_ends (rollbackTargets regime.setup row) 0 row.rollbackCompleted.length
      retreating rfl undone (by simp) (by simpa using undone)) (fun row' d held => ?_)
    fun _ _ held => held
  obtain ⟨retreating, all⟩ := held
  have verifying : Ends (keeping regime context tolerant)
      (verifyAndCleanupRollback regime.setup context) d
      (fun _ d => Retreating regime context d row' ∧
        RollbackChecked (d.plan context.planId).log ∧
        (d.plan context.planId).verification ≠ none)
      (fun _ d => Broken regime context d row') := by
    unfold verifyAndCleanupRollback
    refine Ends.bind checking_monotone (verifyOnce_ends retreating) (fun _ d held => ?_)
      fun _ _ held => held
    rw [ends_ite]
    exact ⟨fun _ => cleanupOnce_ends held.1 held.2.1 held.2.2, fun _ => held⟩
  rw [ends_bind]
  refine (ends_holding verifying).mono checking_monotone (fun _ d held => ?_)
    fun _ _ held => held
  exact ends_holding (sealRolledBack_ends strict held.1 all held.2.1 held.2.2)

/- The handler writes the journal once more, whatever failed. -/
theorem rollBack_ends (strict : tolerant → regime.loose context.planId)
    (retreating : Retreating regime context disk row) :
    Ends (keeping regime context tolerant) (rollBack regime.setup context row) disk
      (fun j d => Consistent regime d ∧ j.status = .rollbackVerified)
      (fun _ d => Consistent regime d) := by
  unfold rollBack
  rw [ends_orElse]
  refine (rollBackBody_ends strict retreating).mono checking_monotone (fun _ _ held => held)
    fun failed d broken => ?_
  rw [ends_bind]
  refine ends_lexists broken.consistent ?_
  set status : Status := if (d.files (.rollbackVerification context.planId)).isSome
    then .rollingBack else .manualIntervention with status_eq
  have follows : Follows regime (d.plan context.planId).log
      { failed.2 with status := status, failure := some failed.1.typeName } := by
    have back := broken.follows
    have other : status ≠ .applying ∧ status ≠ .committed ∧ status ≠ .rollbackVerified := by
      rw [status_eq]
      split <;> decide
    exact
      { valid :=
          { front_exact := back.valid.front_exact
            receipts := back.valid.receipts
            next := fun eq => absurd eq other.1
            current := back.valid.current
            undone := back.valid.undone }
        applied := back.applied
        forward := fun _ => ⟨other.1, other.2.1⟩
        is_sealed := fun written => by cases back.is_sealed written
        undone := back.undone
        finished := fun eq => absurd eq other.2.2 }
  have identity : failed.2.planId = context.planId := congrArg Context.planId broken.identity
  have owned := broken.owned
  have uncommitted := broken.uncommitted
  have written : Consistent regime (d.write .pending (.journal
      { failed.2 with status := status, failure := some failed.1.typeName })) := by
    refine broken.consistent.writePending (by rw [identity]; exact owned)
      (by rw [identity]; exact uncommitted) ?_ (by rw [identity]; exact follows)
    rw [identity]
    by_cases final : (d.plan context.planId).rolledBack = none
    · exact .inl final
    · refine .inr ?_
      have there : (d.files (.rollbackVerification context.planId)).isSome = true :=
        Option.isSome_iff_ne_none.mpr (broken.verified final).1
      rw [status_eq, there]
      exact ⟨rfl, (broken.verified final).2⟩
  rw [ends_bind]
  exact ends_atomicJson broken.consistent written written (fun _ _ => broken.consistent)
    fun _ _ => written

end NoiContest.InstallTransaction
