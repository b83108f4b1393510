import NoiContest.InstallTransaction.CrashConsistency

/- What one call does to the files and events of a plan, and that the invariant survives it. -/
namespace NoiContest.InstallTransaction
open Flow Outcome

variable {regime : Regime} {context : Context} {disk : Disk} {row : Journal} {log : List Event}
  {event : Event} {planId : String}

/- The events of a plan -/

theorem planLog_cons (planId : String) (event : Event) (log : List Event) :
    planLog planId (event :: log) =
      if event.planId = some planId then event :: planLog planId log else planLog planId log := by
  by_cases own : event.planId = some planId <;> simp [planLog, own]

theorem applied_cons {phase : Phase} : Applied (event :: log) phase →
    (∃ context pending, event = .applied context phase pending) ∨ Applied log phase := by
  rintro ⟨context, pending, mem⟩
  rcases List.mem_cons.mp mem with rfl | old
  · exact .inl ⟨context, pending, rfl⟩
  · exact .inr ⟨context, pending, old⟩

theorem rollbackCalled_cons : RollbackCalled (event :: log) →
    (∃ context phase reply, event = .rolledBack context phase reply) ∨ RollbackCalled log := by
  rintro ⟨context, phase, reply, mem⟩
  rcases List.mem_cons.mp mem with rfl | old
  · exact .inl ⟨context, phase, reply, rfl⟩
  · exact .inr ⟨context, phase, reply, old⟩

theorem sealed_cons : Sealed (event :: log) →
    (∃ row, event = .wrote row ∧ row.status = .committed) ∨ Sealed log := by
  rintro ⟨row, mem, status⟩
  rcases List.mem_cons.mp mem with rfl | old
  · exact .inl ⟨row, rfl, status⟩
  · exact .inr ⟨row, old, status⟩

theorem RollbackChecked.cons (checked : RollbackChecked log) : RollbackChecked (event :: log) := by
  obtain ⟨context, mem⟩ := checked
  exact ⟨context, List.mem_cons_of_mem _ mem⟩

theorem CleanupChecked.cons {phase : Phase} (checked : CleanupChecked log phase) :
    CleanupChecked (event :: log) phase := by
  obtain ⟨context, mem⟩ := checked
  exact ⟨context, List.mem_cons_of_mem _ mem⟩

theorem verifiedRollbacks_cons (event : Event) (log : List Event) :
    verifiedRollbacks (event :: log) =
      verifiedRollbacks log ++ event.verifiedRollback.toList := by
  cases verified : event.verifiedRollback <;>
    simp [verifiedRollbacks, List.filterMap_append, verified]

/- A row keeps following the log when the new event fits it. -/
theorem Follows.cons (follows : Follows regime log row)
    (applied : ∀ context phase pending, event = .applied context phase pending →
      phase ∈ rollbackScope row)
    (rolledBack : ∀ context phase reply, event = .rolledBack context phase reply →
      row.status ≠ .applying ∧ row.status ≠ .committed)
    (wrote : ∀ row', event = .wrote row' → row'.status = .committed → row.status = .committed) :
    Follows regime (event :: log) row where
  valid := follows.valid
  applied phase called := by
    rcases applied_cons called with ⟨context, pending, eq⟩ | old
    · exact applied context phase pending eq
    · exact follows.applied phase old
  forward called := by
    rcases rollbackCalled_cons called with ⟨context, phase, reply, eq⟩ | old
    · exact rolledBack context phase reply eq
    · exact follows.forward old
  is_sealed written := by
    rcases sealed_cons written with ⟨row', eq, status⟩ | old
    · exact wrote row' eq status
    · exact follows.is_sealed old
  undone := by
    rw [verifiedRollbacks_cons]
    exact follows.undone.trans (List.sublist_append_left _ _)
  finished done := ⟨(follows.finished done).1, (follows.finished done).2.cons⟩

theorem Follows.wrote (follows : Follows regime log row) {row' : Journal}
    (fits : row'.status = .committed → row.status = .committed) :
    Follows regime (.wrote row' :: log) row :=
  follows.cons (fun _ _ _ eq => by cases eq) (fun _ _ _ eq => by cases eq)
    fun row'' eq => by
      cases eq
      exact fits

theorem Follows.verified (follows : Follows regime log row) {context : Context}
    {reply : Except Raised (Option Content)} :
    Follows regime (.verified context reply :: log) row :=
  follows.cons (fun _ _ _ eq => by cases eq) (fun _ _ _ eq => by cases eq)
    fun _ eq => by cases eq

theorem Follows.cleaned (follows : Follows regime log row) {context : Context} {phase : Phase}
    {reply : Except Raised (Option CleanupReply)} :
    Follows regime (.cleaned context phase reply :: log) row :=
  follows.cons (fun _ _ _ eq => by cases eq) (fun _ _ _ eq => by cases eq)
    fun _ eq => by cases eq

theorem Follows.called (follows : Follows regime log row) {context : Context} {phase : Phase}
    {pending : Option Content} (inside : phase ∈ rollbackScope row) :
    Follows regime (.applied context phase pending :: log) row :=
  follows.cons (fun _ _ _ eq => by cases eq; exact inside) (fun _ _ _ eq => by cases eq)
    fun _ eq => by cases eq

theorem Follows.undoing (follows : Follows regime log row) {context : Context} {phase : Phase}
    {reply : Except Raised (Option Receipt)}
    (retreating : row.status ≠ .applying ∧ row.status ≠ .committed) :
    Follows regime (.rolledBack context phase reply :: log) row :=
  follows.cons (fun _ _ _ eq => by cases eq) (fun _ _ _ _ => retreating)
    fun _ eq => by cases eq

/- The files of a plan -/

@[simp] theorem plan_record (disk : Disk) (event : Event) (planId : String) :
    (disk.record event).plan planId = if event.planId = some planId
      then { disk.plan planId with log := event :: (disk.plan planId).log }
      else disk.plan planId := by
  by_cases own : event.planId = some planId <;>
    simp [Disk.plan, Disk.record, planLog_cons, own]

@[simp] theorem plan_put_pending (disk : Disk) (content : Option Content) (planId : String) :
    (disk.put .pending content).plan planId =
      { disk.plan planId with pending := pendingOf planId content } := by
  simp [Disk.plan, Disk.put]

@[simp] theorem plan_put_committed (disk : Disk) (content : Option Content)
    (planId planId' : String) : (disk.put (.final .committed planId') content).plan planId =
      if planId = planId' then { disk.plan planId with committed := content }
      else disk.plan planId := by
  by_cases own : planId = planId' <;> simp [Disk.plan, Disk.put, own]

@[simp] theorem plan_put_rolledBack (disk : Disk) (content : Option Content)
    (planId planId' : String) : (disk.put (.final .rollbackVerified planId') content).plan planId =
      if planId = planId' then { disk.plan planId with rolledBack := content }
      else disk.plan planId := by
  by_cases own : planId = planId' <;> simp [Disk.plan, Disk.put, own]

@[simp] theorem plan_put_verification (disk : Disk) (content : Option Content)
    (planId planId' : String) : (disk.put (.rollbackVerification planId') content).plan planId =
      if planId = planId' then { disk.plan planId with verification := content }
      else disk.plan planId := by
  by_cases own : planId = planId' <;> simp [Disk.plan, Disk.put, own]

@[simp] theorem plan_put_cleanup (disk : Disk) (content : Option Content)
    (planId planId' : String) : (disk.put (.cleanup planId') content).plan planId =
      if planId = planId' then { disk.plan planId with cleanup := content }
      else disk.plan planId := by
  by_cases own : planId = planId' <;> simp [Disk.plan, Disk.put, own]

@[simp] theorem plan_put_rollbackCleanup (disk : Disk) (content : Option Content)
    (planId planId' : String) :
    (disk.put (.rollbackCleanup planId') content).plan planId = disk.plan planId := by
  simp [Disk.plan, Disk.put]

@[simp] theorem log_put (disk : Disk) (file : File) (content : Option Content) :
    (disk.put file content).log = disk.log := rfl

@[simp] theorem log_record (disk : Disk) (event : Event) :
    (disk.record event).log = event :: disk.log := rfl

@[simp] theorem pendingOf_none (planId : String) : pendingOf planId none = none := rfl

theorem pendingOf_own (row : Journal) : pendingOf row.planId (some (.journal row)) = some row := by
  simp [pendingOf]

theorem pendingOf_other {planId : String} (other : row.planId ≠ planId) :
    pendingOf planId (some (.journal row)) = none := by
  simp [pendingOf, other]

/- Steps -/

/-- The pending journal, if there is one, is of the plan. -/
def Owned (planId : String) (disk : Disk) : Prop :=
  ∀ row, disk.files .pending = some (.journal row) → row.planId = planId

theorem Consistent.unpending (consistent : Consistent regime disk) (owned : Owned planId disk)
    {other : String} (apart : other ≠ planId) : (disk.plan other).pending = none := by
  cases found : disk.files .pending with
  | none => simp [Disk.plan, found, pendingOf]
  | some content =>
    obtain ⟨row, rfl⟩ := consistent.kind content found
    rw [Disk.plan]
    simp only [found]
    exact pendingOf_other fun same => apart (same.symm.trans (owned row found))

/- Only the plan of the run is looked at again. -/
theorem Consistent.step {disk' : Disk} (consistent : Consistent regime disk) (planId : String)
    (ordered : Ordered regime.setup disk'.log)
    (kind : ∀ content, disk'.files .pending = some content → ∃ row, content = .journal row)
    (others : ∀ other, other ≠ planId → disk'.plan other = disk.plan other)
    (own : Tracked regime planId (disk'.plan planId)) : Consistent regime disk' where
  ordered := ordered
  kind := kind
  tracked other := by
    by_cases same : other = planId
    · rw [same]
      exact own
    · rw [others other same]
      exact consistent.tracked other

theorem Consistent.began (consistent : Consistent regime disk) (context : Context) :
    Consistent regime (disk.begin context) := by
  refine consistent.step context.planId ⟨trivial, consistent.ordered⟩ consistent.kind
    (fun other _ => by simp [Disk.begin, Event.planId]) ?_
  simpa [Disk.begin, Event.planId] using consistent.tracked context.planId

/- A driver was called for a plan that has a file. -/
theorem Tracked.record {own : PlanState} (tracked : Tracked regime planId own)
    (present : ¬ (own.pending = none ∧ own.committed = none ∧ own.rolledBack = none))
    (grows : ∀ row, Follows regime own.log row →
      (own.pending = some row ∨ own.committed = some (.journal row) ∨
        own.rolledBack = some (.journal row)) → Follows regime (event :: own.log) row) :
    Tracked regime planId { own with log := event :: own.log } where
  pending row found := grows row (tracked.pending row found) (.inl found)
  committed content found := by
    obtain ⟨open_, row, rfl, status, follows, same⟩ := tracked.committed content found
    exact ⟨open_, row, rfl, status, grows row follows (.inr (.inl found)), same⟩
  rolledBack content found := by
    obtain ⟨row, rfl, status, follows, same⟩ := tracked.rolledBack content found
    exact ⟨row, rfl, status, grows row follows (.inr (.inr found)), same⟩
  untouched pending committed rolledBack := absurd ⟨pending, committed, rolledBack⟩ present
  verification found := (tracked.verification found).cons
  cleanup content found := ⟨(tracked.cleanup content found).1, fun phase mem has =>
    ((tracked.cleanup content found).2 phase mem has).cons⟩

theorem Consistent.record (consistent : Consistent regime disk) (planId : String)
    (about : event.planId = some planId) (allowed : Allowed regime.setup disk.log event)
    (present : ¬ ((disk.plan planId).pending = none ∧ (disk.plan planId).committed = none ∧
      (disk.plan planId).rolledBack = none))
    (grows : ∀ row, Follows regime (disk.plan planId).log row →
      ((disk.plan planId).pending = some row ∨
        (disk.plan planId).committed = some (.journal row) ∨
        (disk.plan planId).rolledBack = some (.journal row)) →
      Follows regime (event :: (disk.plan planId).log) row) :
    Consistent regime (disk.record event) := by
  refine consistent.step planId ⟨allowed, consistent.ordered⟩ consistent.kind
    (fun other apart => ?_) ?_
  · have foreign : event.planId ≠ some other := by
      rw [about]
      exact fun same => apart (Option.some.inj same).symm
    simp [foreign]
  · rw [plan_record, if_pos about]
    exact (consistent.tracked planId).record present grows

/- The pending journal is replaced while the plan has no final receipt, or by the handler of
   the rollback. -/
theorem Consistent.writePending (consistent : Consistent regime disk)
    (owned : Owned row.planId disk) (uncommitted : (disk.plan row.planId).committed = none)
    (fits : (disk.plan row.planId).rolledBack = none ∨ row.status = .rollingBack ∧
      regime.loose row.planId)
    (follows : Follows regime (disk.plan row.planId).log row) :
    Consistent regime (disk.write .pending (.journal row)) := by
  have tracked := consistent.tracked row.planId
  refine consistent.step row.planId ⟨validates_iff.mpr follows.valid, consistent.ordered⟩
    (fun content found => ⟨row, ?_⟩) (fun other apart => ?_) ?_
  · simpa [Disk.write, Disk.put] using found.symm
  · have foreign : row.planId ≠ other := fun same => apart same.symm
    have unset := consistent.unpending owned apart
    simp [Disk.write, Disk.recordRow, Event.planId, foreign, pendingOf_other foreign, ← unset]
  · simp only [Disk.write, Disk.recordRow, plan_put_pending, plan_record, Event.planId,
      pendingOf_own, if_true]
    exact
      { pending := fun row' found => by
          cases found
          exact follows.wrote id
        committed := fun content found => by
          rw [uncommitted] at found
          cases found
        rolledBack := fun content found => by
          obtain ⟨final, rfl, status, ends, _⟩ := tracked.rolledBack content found
          have retreating := fits.resolve_left fun none => by
            rw [found] at none
            cases none
          refine ⟨final, rfl, status, ends.wrote fun committed => ?_, fun row' same => ?_⟩
          · rw [retreating.1] at committed
            cases committed
          · cases same
            exact .inr retreating
        untouched := fun none => by cases none
        verification := fun found => (tracked.verification found).cons
        cleanup := fun content found => by
          obtain ⟨⟨final, committed, _⟩, _⟩ := tracked.cleanup content found
          rw [uncommitted] at committed
          cases committed }

/- A final receipt repeats the pending journal. -/
theorem Consistent.writeCommitted (consistent : Consistent regime disk) (row : Journal)
    (stored : disk.files .pending = some (.journal row)) (status : row.status = .committed)
    (absent : (disk.plan row.planId).committed = none)
    (undecided : (disk.plan row.planId).rolledBack = none) :
    Consistent regime (disk.write (.final .committed row.planId) (.journal row)) := by
  have tracked := consistent.tracked row.planId
  have pending : (disk.plan row.planId).pending = some row := by
    simp [Disk.plan, stored, pendingOf]
  have follows := tracked.pending row pending
  refine consistent.step row.planId ⟨validates_iff.mpr follows.valid, consistent.ordered⟩
    consistent.kind (fun other apart => ?_) ?_
  · have foreign : row.planId ≠ other := fun same => apart same.symm
    simp [Disk.write, Disk.recordRow, Event.planId, foreign, apart]
  · simp only [Disk.write, Disk.recordRow, plan_put_committed, plan_record, Event.planId, if_true]
    exact
      { pending := fun row' found => by
          have found : (disk.plan row.planId).pending = some row' := found
          rw [pending] at found
          cases found
          exact follows.wrote id
        committed := fun content found => by
          cases found
          refine ⟨undecided, row, rfl, status, follows.wrote id, fun row' found => ?_⟩
          have found : (disk.plan row.planId).pending = some row' := found
          rw [pending] at found
          exact (Option.some.inj found).symm
        rolledBack := fun content found => by
          have found : (disk.plan row.planId).rolledBack = some content := found
          rw [undecided] at found
          cases found
        untouched := fun absent => by
          have absent : (disk.plan row.planId).pending = none := absent
          rw [pending] at absent
          cases absent
        verification := fun found => (tracked.verification found).cons
        cleanup := fun content found => by
          obtain ⟨⟨final, committed, _⟩, _⟩ := tracked.cleanup content found
          rw [absent] at committed
          cases committed }

theorem Consistent.writeRolledBack (consistent : Consistent regime disk) (row : Journal)
    (stored : disk.files .pending = some (.journal row)) (status : row.status = .rollbackVerified)
    (uncommitted : (disk.plan row.planId).committed = none) :
    Consistent regime (disk.write (.final .rollbackVerified row.planId) (.journal row)) := by
  have tracked := consistent.tracked row.planId
  have pending : (disk.plan row.planId).pending = some row := by
    simp [Disk.plan, stored, pendingOf]
  have follows := tracked.pending row pending
  refine consistent.step row.planId ⟨validates_iff.mpr follows.valid, consistent.ordered⟩
    consistent.kind (fun other apart => ?_) ?_
  · have foreign : row.planId ≠ other := fun same => apart same.symm
    simp [Disk.write, Disk.recordRow, Event.planId, foreign, apart]
  · simp only [Disk.write, Disk.recordRow, plan_put_rolledBack, plan_record, Event.planId, if_true]
    exact
      { pending := fun row' found => by
          have found : (disk.plan row.planId).pending = some row' := found
          rw [pending] at found
          cases found
          exact follows.wrote id
        committed := fun content found => by
          have found : (disk.plan row.planId).committed = some content := found
          rw [uncommitted] at found
          cases found
        rolledBack := fun content found => by
          cases found
          refine ⟨row, rfl, status, follows.wrote id, fun row' found => .inl ?_⟩
          have found : (disk.plan row.planId).pending = some row' := found
          rw [pending] at found
          exact (Option.some.inj found).symm
        untouched := fun absent => by
          have absent : (disk.plan row.planId).pending = none := absent
          rw [pending] at absent
          cases absent
        verification := fun found => (tracked.verification found).cons
        cleanup := fun content found => by
          obtain ⟨⟨final, committed, _⟩, _⟩ := tracked.cleanup content found
          rw [uncommitted] at committed
          cases committed }

/- The pending journal goes once there is a final receipt. -/
theorem Consistent.unlinkPending (consistent : Consistent regime disk) (planId : String)
    (owned : Owned planId disk)
    (decided : ¬ ((disk.plan planId).committed = none ∧ (disk.plan planId).rolledBack = none)) :
    Consistent regime (disk.put .pending none) := by
  have tracked := consistent.tracked planId
  refine consistent.step planId consistent.ordered (fun content found => ?_)
    (fun other apart => ?_) ?_
  · simp [Disk.put] at found
  · rw [plan_put_pending, pendingOf_none, ← consistent.unpending owned apart]
  · rw [plan_put_pending, pendingOf_none]
    exact
      { pending := fun row found => by cases found
        committed := fun content found => by
          obtain ⟨undecided, row, rfl, status, follows, _⟩ := tracked.committed content found
          exact ⟨undecided, row, rfl, status, follows, fun row' found => by cases found⟩
        rolledBack := fun content found => by
          obtain ⟨row, rfl, status, follows, _⟩ := tracked.rolledBack content found
          exact ⟨row, rfl, status, follows, fun row' found => by cases found⟩
        untouched := fun _ committed rolledBack => absurd ⟨committed, rolledBack⟩ decided
        verification := tracked.verification
        cleanup := tracked.cleanup }

theorem Consistent.writeVerification (consistent : Consistent regime disk)
    (planId status manifest : String) (checked : RollbackChecked (disk.plan planId).log) :
    Consistent regime (disk.write (.rollbackVerification planId)
      (.verification status planId manifest)) := by
  have tracked := consistent.tracked planId
  refine consistent.step planId consistent.ordered consistent.kind
    (fun other apart => by simp [Disk.write, Disk.recordRow, apart]) ?_
  simp only [Disk.write, Disk.recordRow, plan_put_verification, if_true]
  exact
    { pending := tracked.pending
      committed := tracked.committed
      rolledBack := tracked.rolledBack
      untouched := tracked.untouched
      verification := fun _ => checked
      cleanup := tracked.cleanup }

theorem Consistent.writeRollbackCleanup (consistent : Consistent regime disk)
    (status manifest : String) : Consistent regime (disk.write (.rollbackCleanup planId)
      (.rollbackCleanup planId manifest status)) := by
  refine consistent.step planId consistent.ordered consistent.kind
    (fun other apart => by simp [Disk.write, Disk.recordRow]) ?_
  simpa [Disk.write, Disk.recordRow] using consistent.tracked planId

theorem Consistent.writeCleanup (consistent : Consistent regime disk)
    (committed : (disk.plan row.planId).committed = some (.journal row))
    (cleaned : ∀ phase ∈ regime.setup.phases, regime.setup.hasCommitCleanup phase = true →
      CleanupChecked (disk.plan row.planId).log phase) :
    Consistent regime (disk.write (.cleanup row.planId) (cleanupOf regime.setup row.context)) := by
  have tracked := consistent.tracked row.planId
  refine consistent.step row.planId consistent.ordered consistent.kind
    (fun other apart => by simp [Disk.write, Disk.recordRow, cleanupOf, apart]) ?_
  simp only [Disk.write, Disk.recordRow, cleanupOf, plan_put_cleanup, context_planId, if_true]
  exact
    { pending := tracked.pending
      committed := tracked.committed
      rolledBack := tracked.rolledBack
      untouched := tracked.untouched
      verification := tracked.verification
      cleanup := fun content found => by
        cases found
        exact ⟨⟨row, committed, rfl⟩, cleaned⟩ }

end NoiContest.InstallTransaction
