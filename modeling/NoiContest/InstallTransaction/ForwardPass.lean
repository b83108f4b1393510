import NoiContest.InstallTransaction.DurableSteps

/- The forward pass, from the initial journal to the seal and the cleanup after it. -/
namespace NoiContest.InstallTransaction
open Flow Outcome

/-- The plan has no receipt of a rollback. -/
def Unreceipted (context : Context) (disk : Disk) : Prop :=
  (disk.plan context.planId).rolledBack = none

/-- A call that fails leaves no receipt of a rollback behind. -/
def QuietSeal (context : Context) (c : Call) (choice : Choice) (disk : Disk) : Prop :=
  (respond c choice disk).1.isOk = true ∨ Unreceipted context (respond c choice disk).2

/-- What holds when a call fails on the disk, and the regime allows it. -/
def FailsAt (context : Context) (tolerant : Prop) (raised : Raised → Disk → Prop) (disk : Disk) :
    Prop := ∀ e, tolerant ∨ Unreceipted context disk → raised e disk

/-- Every call leaves the directory consistent. -/
abbrev keeping (regime : Regime) (context : Context) (tolerant : Prop) :
    Transformer Call Answer Raised Disk :=
  checking respond (fun c choice disk => tolerant ∨ QuietSeal context c choice disk)
    fun c choice disk => Consistent regime (respond c choice disk).2

variable {regime : Regime} {context : Context} {tolerant : Prop} {disk : Disk} {row : Journal}
  {α : Type}

section Calls
variable {raised : Raised → Disk → Prop} {file : File} {content : Content} {phase : Phase}

theorem ends_lexists {post : Bool → Disk → Prop} (consistent : Consistent regime disk)
    (next : post (disk.files file).isSome disk) :
    Ends (keeping regime context tolerant) (lexists file) disk post raised :=
  fun _ _ => ⟨consistent, next⟩

theorem ends_readExact {post : Content → Disk → Prop} (consistent : Consistent regime disk)
    (next : ∀ content, disk.files file = some content → post content disk)
    (failed : ∀ e, raised e disk) :
    Ends (keeping regime context tolerant) (readExact file) disk post raised := by
  intro choice _
  refine ⟨consistent, ?_⟩
  cases found : disk.files file with
  | none =>
    simp only [respond, found]
    exact failed _
  | some content =>
    simp only [respond, found, Choice.answer]
    split
    · exact failed _
    · exact next content found

/- A statement on a file that may raise before or after its effect. -/
theorem effect_cases (choice : Choice) {after : Disk} {post : Unit → Disk → Prop}
    (permitted : tolerant ∨ (choice.answer ()).isOk = true ∨
      Unreceipted context (choice.effect disk after))
    (next : post () after)
    (failed : FailsAt context tolerant raised disk)
    (late : FailsAt context tolerant raised after) :
    Ends (keeping regime context tolerant) (Program.ofExcept (choice.answer ()) : Procedure Unit)
      (choice.effect disk after) post raised := by
  unfold Choice.answer Choice.effect at permitted ⊢
  cases raises : choice.raises with
  | none => exact next
  | some e =>
    rw [raises] at permitted
    have quiet := permitted.imp_right fun either => either.resolve_left (by simp [Except.isOk,
      Except.toBool])
    cases effect : choice.tookEffect with
    | true =>
      rw [effect] at quiet
      exact late e quiet
    | false =>
      rw [effect] at quiet
      exact failed e quiet

theorem effect_kept (choice : Choice) {after : Disk} (before : Consistent regime disk)
    (kept : Consistent regime after) : Consistent regime (choice.effect disk after) := by
  unfold Choice.effect
  split
  · exact kept
  · exact before

theorem ends_atomicJson {post : Unit → Disk → Prop} (before : Consistent regime disk)
    (kept : Consistent regime (disk.write file content)) (next : post () (disk.write file content))
    (failed : FailsAt context tolerant raised disk)
    (late : FailsAt context tolerant raised (disk.write file content)) :
    Ends (keeping regime context tolerant) (atomicJson file content) disk post raised :=
  fun choice permitted =>
    ⟨effect_kept choice before kept, effect_cases choice permitted next failed late⟩

theorem ends_unlink {post : Unit → Disk → Prop} (before : Consistent regime disk)
    (kept : Consistent regime (disk.put file none)) (next : post () (disk.put file none))
    (failed : FailsAt context tolerant raised disk)
    (late : FailsAt context tolerant raised (disk.put file none)) :
    Ends (keeping regime context tolerant) (call (.unlink file)) disk post raised :=
  fun choice permitted =>
    ⟨effect_kept choice before kept, effect_cases choice permitted next failed late⟩

theorem ends_apply {post : Option Receipt → Disk → Prop}
    (kept : Consistent regime (disk.record (.applied context phase (disk.files .pending))))
    (next : ∀ reply, post reply (disk.record (.applied context phase (disk.files .pending))))
    (failed : ∀ e, raised e (disk.record (.applied context phase (disk.files .pending)))) :
    Ends (keeping regime context tolerant) (call (.apply context phase)) disk post raised := by
  intro choice _
  refine ⟨kept, ?_⟩
  simp only [respond, Choice.answer]
  split
  · exact failed _
  · exact next _

theorem ends_commitCleanup {post : Option CleanupReply → Disk → Prop} {given : Option Receipt}
    (kept : ∀ reply, Consistent regime (disk.record (.cleaned context phase reply)))
    (next : ∀ reply, post reply (disk.record (.cleaned context phase (.ok reply))))
    (failed : ∀ e, raised e (disk.record (.cleaned context phase (.error e)))) :
    Ends (keeping regime context tolerant) (call (.commitCleanup context phase given)) disk post
      raised := by
  intro choice _
  refine ⟨kept _, ?_⟩
  simp only [respond, Choice.answer]
  split
  · exact failed _
  · exact next _

theorem ends_afterPhaseCommitted {post : Unit → Disk → Prop} {given : Receipt}
    (consistent : Consistent regime disk) (next : post () disk) (failed : ∀ e, raised e disk) :
    Ends (keeping regime context tolerant) (call (.afterPhaseCommitted context phase given)) disk
      post raised := by
  intro choice _
  refine ⟨consistent, ?_⟩
  simp only [respond, Choice.answer]
  split
  · exact failed _
  · exact next

theorem ends_checked {result : Except Raised α} {post : α → Disk → Prop}
    (next : ∀ a, result = .ok a → post a disk) (failed : ∀ e, raised e disk) :
    Ends (keeping regime context tolerant) (checked result) disk post raised := by
  cases result with
  | ok a => exact next a rfl
  | error e => exact failed e

theorem ends_holding {journal : Journal} {body : Procedure α} {post : α → Disk → Prop}
    {raised : Raised × Journal → Disk → Prop}
    (ends : Ends (keeping regime context tolerant) body disk post fun e d =>
      raised (e, journal) d) :
    Ends (keeping regime context tolerant) (holding journal body) disk post raised := by
  rw [holding, ends_mapError]
  exact ends

end Calls

theorem plan_pending (stored : disk.files .pending = some (.journal row))
    (identity : row.context = context) :
    (disk.plan context.planId).pending = some row := by
  subst identity
  simp [Disk.plan, stored, pendingOf]

theorem owned_of_stored (stored : disk.files .pending = some (.journal row))
    (identity : row.context = context) : Owned context.planId disk := by
  intro row' found
  rw [stored] at found
  cases found
  exact congrArg Context.planId identity

theorem Consistent.follows (consistent : Consistent regime disk)
    (stored : disk.files .pending = some (.journal row))
    (identity : row.context = context) :
    Follows regime (disk.plan context.planId).log row :=
  (consistent.tracked context.planId).pending row (plan_pending stored identity)

/-- Neither of the two final receipts is there. -/
def Undecided (context : Context) (disk : Disk) : Prop :=
  (disk.plan context.planId).committed = none ∧ (disk.plan context.planId).rolledBack = none

/- Sealing -/

theorem ends_finalize {status : Status} {post : Journal → Disk → Prop}
    {raised : Raised → Disk → Prop}
    (absent : disk.files (.final status context.planId) = none)
    (before : Consistent regime disk)
    (is_sealed : Consistent regime (disk.write .pending (.journal { row with status := status })))
    (final : Consistent regime ((disk.write .pending (.journal { row with status := status })).write
      (.final status context.planId) (.journal { row with status := status })))
    (closed : Consistent regime (((disk.write .pending
      (.journal { row with status := status })).write (.final status context.planId)
        (.journal { row with status := status })).put .pending none))
    (next : post { row with status := status } (((disk.write .pending
      (.journal { row with status := status })).write (.final status context.planId)
        (.journal { row with status := status })).put .pending none))
    (failed : FailsAt context tolerant raised disk ∧
      FailsAt context tolerant raised
        (disk.write .pending (.journal { row with status := status })) ∧
      FailsAt context tolerant raised
        ((disk.write .pending (.journal { row with status := status })).write
          (.final status context.planId) (.journal { row with status := status })) ∧
      FailsAt context tolerant raised
        (((disk.write .pending (.journal { row with status := status })).write
          (.final status context.planId) (.journal { row with status := status })).put .pending
            none)) :
    Ends (keeping regime context tolerant) (finalize context row status) disk post raised := by
  unfold finalize
  rw [ends_bind]
  refine ends_atomicJson before is_sealed ?_ failed.1 failed.2.1
  rw [ends_bind]
  refine ends_lexists is_sealed ?_
  have still : (disk.write .pending (.journal { row with status := status })).files
      (.final status context.planId) = none := by
    simpa [Disk.write, Disk.recordRow, Disk.record, Disk.put] using absent
  rw [still, Option.isSome_none]
  simp only [Bool.false_eq_true, if_false]
  rw [ends_bind]
  refine ends_atomicJson is_sealed final ?_ failed.2.1 failed.2.2.1
  rw [ends_bind]
  refine ends_lexists final ?_
  have there : (((disk.write .pending (.journal { row with status := status })).write
      (.final status context.planId) (.journal { row with status := status })).files
        .pending).isSome = true := by
    simp [Disk.write, Disk.recordRow, Disk.record, Disk.put]
  rw [there, if_pos rfl, ends_bind]
  exact ends_unlink final closed next failed.2.2.1 failed.2.2.2

/-- Nothing but the seal is missing. -/
structure Sealable (regime : Regime) (context : Context) (disk : Disk) (row : Journal) : Prop where
  consistent : Consistent regime disk
  owned : Owned context.planId disk
  identity : row.context = context
  undecided : Undecided context disk
  follows : Follows regime (disk.plan context.planId).log { row with status := .committed }

theorem sealCommitted_ends (sealable : Sealable regime context disk row) :
    Ends (keeping regime context tolerant) (finalize context row .committed) disk
      (fun j d => Consistent regime d ∧ j.status = .committed ∧ j.context = context ∧
        (d.plan context.planId).committed = some (.journal j) ∧
        (d.plan context.planId).cleanup = (disk.plan context.planId).cleanup)
      (fun _ d => Consistent regime d) := by
  obtain ⟨consistent, owned, rfl, ⟨uncommitted, unrolled⟩, follows⟩ := sealable
  have first : Consistent regime
      (disk.write .pending (.journal { row with status := .committed })) :=
    consistent.writePending owned uncommitted (.inl unrolled) follows
  have second := first.writeCommitted { row with status := .committed }
    (by simp [Disk.write, Disk.recordRow, Disk.record, Disk.put]) rfl
    (by simpa [Disk.write, Disk.recordRow, Event.planId, pendingOf] using uncommitted)
    (by simpa [Disk.write, Disk.recordRow, Event.planId, pendingOf] using unrolled)
  have third := second.unlinkPending row.planId
    (by
      intro row'' found
      have found : row'' = { row with status := .committed } := by
        simpa [Disk.write, Disk.recordRow, Disk.record, Disk.put, eq_comm] using found
      rw [found])
    (by simp [Disk.write, Disk.recordRow, Event.planId])
  refine ends_finalize uncommitted consistent first second third ⟨third, rfl, rfl, ?_, ?_⟩
    ⟨fun _ _ => consistent, fun _ _ => first, fun _ _ => second, fun _ _ => third⟩
  · simp [Disk.write, Disk.recordRow, Event.planId]
  · simp [Disk.write, Disk.recordRow, Event.planId]

/- The cleanup after the seal -/

theorem cleanupPhases_ends (phases : List Phase) (consistent : Consistent regime disk)
    (committed : (disk.plan context.planId).committed = some (.journal row)) :
    Ends (keeping regime context tolerant) (cleanupPhases regime.setup context row phases) disk
      (fun _ d => Consistent regime d ∧ (d.plan context.planId).committed = some (.journal row) ∧
        (∀ phase, CleanupChecked (disk.plan context.planId).log phase →
          CleanupChecked (d.plan context.planId).log phase) ∧
        ∀ phase ∈ phases, regime.setup.hasCommitCleanup phase = true →
          CleanupChecked (d.plan context.planId).log phase)
      (fun _ d => Consistent regime d) := by
  induction phases generalizing disk with
  | nil => exact ⟨consistent, committed, fun _ checked => checked, fun _ mem => by cases mem⟩
  | cons phase rest ih =>
    rw [cleanupPhases, ends_ite]
    constructor
    · intro has
      have kept : ∀ reply, Consistent regime (disk.record (.cleaned context phase reply)) :=
        fun reply => consistent.record context.planId rfl trivial
          (fun absent => by
            rw [committed] at absent
            cases absent.2.1) fun _ follows _ => follows.cleaned
      have still : ∀ reply, ((disk.record (.cleaned context phase reply)).plan
          context.planId).committed = some (.journal row) := by
        intro reply
        simpa [Event.planId] using committed
      rw [ends_bind]
      refine ends_commitCleanup kept (fun reply => ?_) fun e => kept _
      rw [ends_bind]
      refine ends_checked (fun _ agreed => ?_) fun e => kept _
      simp only [raiseIf_ok, not_not] at agreed
      refine (ih (kept (.ok reply)) (still _)).mono checking_monotone (fun _ d held => ?_)
        fun _ _ held => held
      obtain ⟨consistent', committed', carried, all⟩ := held
      have here : CleanupChecked ((disk.record (.cleaned context phase (.ok reply))).plan
          context.planId).log phase := by
        refine ⟨context, ?_⟩
        rw [agreed]
        simp [Event.planId]
      refine ⟨consistent', committed', fun other checked => carried other ?_,
        fun other mem has => ?_⟩
      · rw [plan_record]
        simp only [Event.planId, if_true]
        exact checked.cons
      · rcases List.mem_cons.mp mem with rfl | later
        · exact carried other here
        · exact all other later has
    · intro lacks
      refine (ih consistent committed).mono checking_monotone (fun _ d held => ?_)
        fun _ _ held => held
      obtain ⟨consistent', committed', carried, all⟩ := held
      refine ⟨consistent', committed', carried, fun other mem has => ?_⟩
      rcases List.mem_cons.mp mem with rfl | later
      · exact absurd has lacks
      · exact all other later has

theorem commitCleanup_ends (consistent : Consistent regime disk)
    (identity : row.context = context)
    (committed : (disk.plan context.planId).committed = some (.journal row)) :
    Ends (keeping regime context tolerant) (commitCleanup regime.setup context row) disk
      (fun _ d => Consistent regime d ∧ (d.plan context.planId).committed = some (.journal row) ∧
        (d.plan context.planId).cleanup ≠ none)
      (fun _ d => Consistent regime d) := by
  subst identity
  unfold commitCleanup
  rw [ends_bind]
  refine ends_lexists consistent ?_
  rw [ends_ite]
  constructor
  · intro there
    rw [ends_bind]
    refine ends_readExact consistent (fun content found => ?_) fun _ => consistent
    refine ends_checked (fun _ _ => ⟨consistent, committed, ?_⟩) fun _ => consistent
    simp only [Disk.plan]
    rw [found]
    exact Option.some_ne_none _
  · intro _
    rw [ends_bind]
    refine (cleanupPhases_ends regime.setup.phases consistent committed).mono checking_monotone
      (fun _ d held => ?_) fun _ _ held => held
    obtain ⟨consistent, committed, _, all⟩ := held
    have written := consistent.writeCleanup committed all
    refine ends_atomicJson consistent written ⟨written, ?_, ?_⟩ (fun _ _ => consistent)
      fun _ _ => written
    · simpa [Disk.write, Disk.recordRow, cleanupOf] using committed
    · simp [Disk.write, Disk.recordRow, cleanupOf]

/- The forward pass -/

/-- Between two phases the journal in memory is the one on disk. -/
structure Ahead (regime : Regime) (context : Context) (disk : Disk) (row : Journal)
    (rest : List Phase) : Prop where
  consistent : Consistent regime disk
  stored : disk.files .pending = some (.journal row)
  identity : row.context = context
  undecided : Undecided context disk
  status : row.status = .applying
  idle : row.inProgress = none
  rest : regime.setup.phases = row.completed ++ rest
  kept : row.rollbackCompleted = []
  fresh : freshRun disk.log = true

/-- What a handler finds: the journal in memory, which may be ahead of the one on disk. -/
structure Broken (regime : Regime) (context : Context) (disk : Disk) (row : Journal) : Prop where
  consistent : Consistent regime disk
  owned : Owned context.planId disk
  identity : row.context = context
  uncommitted : (disk.plan context.planId).committed = none
  follows : Follows regime (disk.plan context.planId).log { row with status := .rollingBack }
  verified : (disk.plan context.planId).rolledBack ≠ none →
    (disk.plan context.planId).verification ≠ none ∧ regime.loose context.planId

theorem Follows.retreat {log : List Event} (follows : Follows regime log row)
    (unsealed : ¬ Sealed log) : Follows regime log { row with status := .rollingBack } where
  valid :=
    { front_exact := follows.valid.front_exact
      receipts := follows.valid.receipts
      next := fun eq => by cases eq
      current := follows.valid.current
      undone := follows.valid.undone }
  applied := follows.applied
  forward _ := ⟨by simp, by simp⟩
  is_sealed written := absurd written unsealed
  undone := follows.undone
  finished eq := by cases eq

/- Only a reader looks at the failure of a journal. -/
theorem Follows.failure {log : List Event} (follows : Follows regime log row)
    (failure : Option String) : Follows regime log { row with failure := failure } :=
  ⟨⟨follows.valid.front_exact, follows.valid.receipts, follows.valid.next,
    follows.valid.current, follows.valid.undone⟩, follows.applied, follows.forward,
    follows.is_sealed, follows.undone, follows.finished⟩

theorem expectedNext_rest {rest : List Phase} {phase : Phase}
    (phases : regime.setup.phases = row.completed ++ phase :: rest) :
    expectedNext regime.setup row = some phase := by
  rw [expectedNext, phases]
  simp

/- Before an apply the journal on disk names the phase. -/
theorem Ahead.start {rest : List Phase} {phase : Phase}
    (ahead : Ahead regime context disk row (phase :: rest)) :
    Follows regime (disk.plan context.planId).log { row with inProgress := some phase } := by
  have follows := ahead.consistent.follows ahead.stored ahead.identity
  refine
    { valid :=
        { front_exact := follows.valid.front_exact
          receipts := follows.valid.receipts
          next := follows.valid.next
          current := .inr (expectedNext_rest ahead.rest).symm
          undone := by simp [ahead.kept] }
      applied := fun other called => ?_
      forward := follows.forward
      is_sealed := follows.is_sealed
      undone := follows.undone
      finished := fun eq => ?_ }
  · have inside := follows.applied other called
    simp only [rollbackScope, ahead.idle, Option.toList_none, List.append_nil] at inside
    simp [rollbackScope, inside]
  · have eq : row.status = .rollbackVerified := eq
    rw [ahead.status] at eq
    cases eq

theorem Ahead.unsealed {rest : List Phase} (ahead : Ahead regime context disk row rest) :
    ¬ Sealed (disk.plan context.planId).log := by
  intro written
  have status := (ahead.consistent.follows ahead.stored ahead.identity).is_sealed written
  rw [ahead.status] at status
  cases status

theorem Ahead.unrolled {rest : List Phase} (ahead : Ahead regime context disk row rest) :
    ¬ RollbackCalled (disk.plan context.planId).log := by
  intro called
  exact ((ahead.consistent.follows ahead.stored ahead.identity).forward called).1 ahead.status

theorem undecided_write_pending (undecided : Undecided context disk) (row : Journal) :
    Undecided context (disk.write .pending (.journal row)) := by
  have same := undecided
  unfold Undecided at same ⊢
  simp only [Disk.write, Disk.recordRow, plan_put_pending, plan_record]
  split <;> exact same

theorem log_write_pending (row : Journal) (identity : row.context = context) :
    ((disk.write .pending (.journal row)).plan context.planId).log =
      .wrote row :: (disk.plan context.planId).log := by
  subst identity
  simp [Disk.write, Disk.recordRow, Event.planId]

theorem stored_write_pending (disk : Disk) (row : Journal) :
    (disk.write .pending (.journal row)).files .pending = some (.journal row) := by
  simp [Disk.write, Disk.put]

theorem owned_write_pending (row : Journal) (identity : row.context = context) :
    Owned context.planId (disk.write .pending (.journal row)) :=
  owned_of_stored (stored_write_pending disk row) identity

theorem Consistent.write_own (consistent : Consistent regime disk) (row : Journal)
    (owned : Owned context.planId disk) (identity : row.context = context)
    (undecided : Undecided context disk)
    (follows : Follows regime (disk.plan context.planId).log row) :
    Consistent regime (disk.write .pending (.journal row)) := by
  have uncommitted := undecided.1
  have unrolled := undecided.2
  rw [← identity] at owned uncommitted unrolled follows
  exact consistent.writePending owned uncommitted (.inl unrolled) follows

theorem mem_takeWhile_front {front rest : List Phase} {phase other : Phase}
    (distinct : (front ++ phase :: rest).Nodup)
    (before : other ∈ (front ++ phase :: rest).takeWhile (· ≠ phase)) : other ∈ front := by
  induction front with
  | nil => simp at before
  | cons first front ih =>
    have apart : first ≠ phase := by
      rintro rfl
      simp at distinct
    simp only [List.cons_append, List.takeWhile_cons, decide_eq_true_eq] at before
    rw [if_pos (by simpa using apart)] at before
    rcases List.mem_cons.mp before with rfl | later
    · exact List.mem_cons_self
    · exact List.mem_cons_of_mem _ (ih (List.nodup_cons.mp distinct).2 later)

theorem applyPhases_ends (rest : List Phase) (ahead : Ahead regime context disk row rest) :
    Ends (keeping regime context tolerant) (applyPhases regime.setup context rest row) disk
      (fun row' d => Ahead regime context d row' [])
      (fun failed d => Broken regime context d failed.2 ∧ Undecided context d) := by
  induction rest generalizing disk row with
  | nil => exact ahead
  | cons phase rest ih =>
    have owned := owned_of_stored ahead.stored ahead.identity
    have intent := ahead.start
    have written := ahead.consistent.write_own { row with inProgress := some phase } owned
      ahead.identity ahead.undecided intent
    have early : Broken regime context disk { row with inProgress := some phase } :=
      ⟨ahead.consistent, owned, ahead.identity, ahead.undecided.1,
        intent.retreat ahead.unsealed, fun final => absurd ahead.undecided.2 final⟩
    rw [applyPhases]
    simp only [ends_bind]
    -- the intent is durable before the driver is called
    set marked := { row with inProgress := some phase } with marked_eq
    set named := disk.write .pending (.journal marked) with named_eq
    have open_named : Undecided context named := undecided_write_pending ahead.undecided marked
    have log_named : (named.plan context.planId).log =
        .wrote marked :: (disk.plan context.planId).log := log_write_pending marked ahead.identity
    have unsealed_named : ¬ Sealed (named.plan context.planId).log := by
      rw [log_named]
      intro written
      rcases sealed_cons written with ⟨other, eq, status⟩ | old
      · cases eq
        have status : row.status = .committed := status
        rw [ahead.status] at status
        cases status
      · exact ahead.unsealed old
    have intent_named : Follows regime (named.plan context.planId).log marked := by
      rw [log_named]
      exact intent.wrote id
    have unrolled_named : ¬ RollbackCalled (named.plan context.planId).log := by
      rw [log_named]
      intro called
      rcases rollbackCalled_cons called with ⟨_, _, _, eq⟩ | old
      · cases eq
      · exact ahead.unrolled old
    have stored_named : named.files .pending = some (.journal marked) :=
      stored_write_pending disk marked
    have owned_named : Owned context.planId named :=
      owned_write_pending marked ahead.identity
    have late : Broken regime context named marked :=
      ⟨written, owned_named, ahead.identity, open_named.1,
        intent_named.retreat unsealed_named, fun final => absurd open_named.2 final⟩
    have allowed : Allowed regime.setup named.log
        (.applied context phase (named.files .pending)) := by
      refine ⟨⟨marked, stored_named, congrArg Context.planId ahead.identity,
        fun before mem => ?_⟩, unrolled_named, ?_⟩
      · rw [ahead.rest] at mem
        have done := mem_takeWhile_front (ahead.rest ▸ regime.setup.distinct) mem
        exact (intent.valid.receipts before).mpr done
      · exact ahead.fresh
    have called : Consistent regime (named.record (.applied context phase
        (named.files .pending))) := by
      refine written.record context.planId rfl allowed (fun absent => ?_)
        fun other follows present => ?_
      · rw [plan_pending stored_named ahead.identity] at absent
        cases absent.1
      · rcases present with own | final | final
        · rw [plan_pending stored_named ahead.identity] at own
          cases own
          exact follows.called (by simp [marked_eq, rollbackScope])
        · rw [open_named.1] at final
          cases final
        · rw [open_named.2] at final
          cases final
    set asked := named.record (.applied context phase (named.files .pending)) with asked_eq
    have plan_asked : asked.plan context.planId = { named.plan context.planId with
        log := .applied context phase (named.files .pending) ::
          (named.plan context.planId).log } := by
      simp [asked_eq, Event.planId]
    have intent_asked : Follows regime (asked.plan context.planId).log marked := by
      rw [plan_asked]
      exact intent_named.called (by simp [marked_eq, rollbackScope])
    have unsealed_asked : ¬ Sealed (asked.plan context.planId).log := by
      rw [plan_asked]
      intro written
      rcases sealed_cons written with ⟨_, eq, _⟩ | old
      · cases eq
      · exact unsealed_named old
    have open_asked : Undecided context asked := by
      unfold Undecided
      rw [plan_asked]
      exact open_named
    have failing : Broken regime context asked marked :=
      ⟨called, owned_named, ahead.identity, open_asked.1, intent_asked.retreat unsealed_asked,
        fun final => absurd open_asked.2 final⟩
    refine ends_holding (ends_atomicJson ahead.consistent written ?_
      (fun _ _ => ⟨early, ahead.undecided⟩) fun _ _ => ⟨late, open_named⟩)
    refine ends_holding (ends_apply called (fun reply => ?_) fun e => ⟨failing, open_asked⟩)
    refine ends_holding (ends_checked (fun verified agreed => ?_)
      fun e => ⟨failing, open_asked⟩)
    -- the receipt is durable before the next phase
    set done : Journal := { marked with
      completed := marked.completed ++ [phase]
      receipts := marked.receipts.set phase verified
      inProgress := none
      nextPhase := regime.setup.phases[(marked.completed ++ [phase]).length]? } with done_eq
    have rest_done : regime.setup.phases = done.completed ++ rest := by
      simp [done_eq, marked_eq, ahead.rest]
    have follows_done : Follows regime (asked.plan context.planId).log done := by
      refine
        { valid :=
            { front_exact := by
                rw [rest_done, List.take_left']
                rfl
              receipts := fun other => ?_
              next := fun _ => rfl
              current := .inl rfl
              undone := by simp [done_eq, marked_eq, ahead.kept] }
          applied := fun other call => ?_
          forward := intent_asked.forward
          is_sealed := intent_asked.is_sealed
          undone := intent_asked.undone
          finished := fun eq => ?_ }
      · have known := intent_asked.valid.receipts other
        simp only [done_eq, Dict.mem_keys_set, List.mem_append, List.mem_singleton, known]
        exact or_comm
      · have inside := intent_asked.applied other call
        simpa [rollbackScope, done_eq, marked_eq] using inside
      · have eq : row.status = .rollbackVerified := eq
        rw [ahead.status] at eq
        cases eq
    have owned_asked : Owned context.planId asked := owned_named
    have finished := called.write_own done owned_asked ahead.identity open_asked
      follows_done
    have log_done : ((asked.write .pending (.journal done)).plan context.planId).log =
        .wrote done :: (asked.plan context.planId).log := log_write_pending done ahead.identity
    have open_done : Undecided context (asked.write .pending (.journal done)) :=
      undecided_write_pending open_asked done
    have next : Ahead regime context (asked.write .pending (.journal done)) done rest :=
      ⟨finished, stored_write_pending asked done, ahead.identity, open_done, ahead.status, rfl,
        rest_done, ahead.kept, ahead.fresh⟩
    have unsealed_done := next.unsealed
    have behind : Broken regime context asked done :=
      ⟨called, owned_asked, ahead.identity, open_asked.1, follows_done.retreat unsealed_asked,
        fun final => absurd open_asked.2 final⟩
    have after : Broken regime context (asked.write .pending (.journal done)) done :=
      ⟨finished, owned_write_pending done ahead.identity, ahead.identity, open_done.1,
        (finished.follows next.stored ahead.identity).retreat unsealed_done,
        fun final => absurd open_done.2 final⟩
    refine ends_holding (ends_atomicJson called finished ?_ (fun _ _ => ⟨behind, open_asked⟩)
      fun _ _ => ⟨after, open_done⟩)
    rw [ends_ite]
    refine ⟨fun _ => ?_, fun _ => ih next⟩
    rw [ends_bind]
    exact ends_holding (ends_afterPhaseCommitted finished (ih next) fun e => ⟨after, open_done⟩)

end NoiContest.InstallTransaction
