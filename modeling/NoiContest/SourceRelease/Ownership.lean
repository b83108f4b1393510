import NoiContest.SourceRelease.Histories

/- Histories of several plans, and which of them may move the pointer back. -/
namespace NoiContest.SourceRelease
open Flow Outcome

variable {planId other : String} {start : Pointer} {disk : Disk} {row : Row}

/- The files that an operation writes -/

/-- A call of an operation on the plan; it writes no receipt of another one. -/
def Call.OfPlan (planId : String) : Call → Prop
  | .write file _ | .unlink file =>
    file = .pending ∨ file = .rollbackPending ∨ file ∈ terminalPaths planId
  | _ => True

abbrev OnlyPlan (planId : String) {α : Type} (x : Procedure α) : Prop :=
  Only (Call.OfPlan planId) x

theorem only_call {c : Call} (own : c.OfPlan planId) : OnlyPlan planId (call c) :=
  only_perform own

theorem only_checked {α : Type} (result : Except Raised α) : OnlyPlan planId (checked result) :=
  only_ofExcept

theorem only_pending {content : Content} : OnlyPlan planId (atomicJson .pending content) :=
  only_call (.inl rfl)

theorem only_unlinkPending : OnlyPlan planId (unlink .pending) := only_call (.inl rfl)

theorem only_unlinkRollbackPending : OnlyPlan planId (unlink .rollbackPending) :=
  only_call (.inr (.inl rfl))

theorem only_lexists {file : File} : OnlyPlan planId (lexists file) := only_perform trivial

theorem only_read {file : File} : OnlyPlan planId (read file) := only_perform trivial

theorem only_readPointer : OnlyPlan planId readPointer := only_perform trivial

theorem only_step {step : Step} : OnlyPlan planId (perform step) := only_perform trivial

theorem only_replacePointer {target : Option String} :
    OnlyPlan planId (call (.replacePointer target)) := only_perform trivial

theorem only_loadExactJson {file : File} {expected : Content} {label : String} :
    OnlyPlan planId (loadExactJson file expected label) :=
  only_read.bind fun _ => only_checked _

theorem only_restorePointer {current : Option String} {message : String} :
    OnlyPlan planId (restorePointer row current message) :=
  Only.ite only_replacePointer (only_checked _)

theorem only_finishedRollback {committed : Receipt} {current : Option String} :
    OnlyPlan planId (finishedRollback planId committed current) :=
  only_loadExactJson.bind fun _ => only_lexists.bind fun _ => Only.ite
    (only_loadExactJson.bind fun _ => (only_checked _).bind fun _ =>
      only_unlinkRollbackPending.bind fun _ => only_pure)
    ((only_checked _).bind fun _ => only_pure)

theorem only_declareIntent {committed : Receipt} {current : Option String} :
    OnlyPlan planId (declareIntent committed current) :=
  only_lexists.bind fun _ => Only.ite
    (only_loadExactJson.bind fun _ => only_checked _)
    ((only_checked _).bind fun _ => only_call (.inr (.inl rfl)))

theorem only_rollbackCommitted : OnlyPlan planId (rollbackCommitted planId) :=
  only_step.bind fun _ => only_lexists.bind fun _ => (only_checked _).bind fun _ =>
    Only.bind (only_read.bind fun _ => only_checked _) fun _ => only_readPointer.bind fun _ =>
    only_lexists.bind fun _ => Only.ite only_finishedRollback
      (only_declareIntent.bind fun _ => only_restorePointer.bind fun _ =>
        Only.bind (only_call (.inr (.inr (by simp [terminalPaths])))) fun _ =>
        only_unlinkRollbackPending.bind fun _ => only_pure)

theorem only_recover : OnlyPlan planId (recover planId) :=
  only_step.bind fun _ => Only.bind (only_read.bind fun _ => only_checked _) fun row =>
    only_readPointer.bind fun _ =>
    Only.bind (only_lexists.bind fun _ => Only.ite
        (only_read.bind fun _ => (only_checked _).bind fun _ => only_pure) only_pure)
      fun _ => Only.ite
        ((only_checked _).bind fun _ => only_unlinkPending.bind fun _ => only_pure)
        (only_restorePointer.bind fun _ =>
          Only.bind (only_call (.inr (.inr (by simp [terminalPaths])))) fun _ =>
          only_unlinkPending.bind fun _ => only_pure)

theorem only_rollbackOwned : OnlyPlan planId (rollbackOwned planId) := by
  have recorded : OnlyPlan planId (rollbackRecorded planId) :=
    only_lexists.bind fun _ => Only.ite only_rollbackCommitted
      (only_lexists.bind fun _ => (only_checked _).bind fun _ => only_lexists.bind fun _ =>
        Only.ite
          (only_read.bind fun _ => (only_checked _).bind fun _ => only_readPointer.bind fun _ =>
            (only_checked _).bind fun _ => only_pure)
          only_pure)
  exact only_step.bind fun _ => only_lexists.bind fun _ => Only.ite
    (only_recover.bind fun _ => Only.ite only_pure ((only_checked _).bind fun _ => recorded))
    recorded

theorem only_stageAndCommit {reuse : Bool} (own : row.planId = planId) :
    OnlyPlan planId (stageAndCommit row reuse) := by
  have rest : OnlyPlan planId (do
      atomicJson .pending (.pending { row with phase := .releaseInstalled })
      call (.replacePointer (some row.newPointer))
      atomicJson .pending (.pending { row with phase := .pointerCommitted })
      atomicJson (.committed row.planId)
        (.receipt ⟨{ row with phase := .pointerCommitted }, .committed⟩)
      unlink .pending
      return ⟨.committed, true, row.planId, some row.newPointer⟩ : Procedure Report) :=
    only_pending.bind fun _ => only_replacePointer.bind fun _ => only_pending.bind fun _ =>
      Only.bind (only_call (.inr (.inr (by simp [terminalPaths, own])))) fun _ =>
      only_unlinkPending.bind fun _ => only_pure
  have install : OnlyPlan planId (call (.installRelease row.releaseName)) := only_perform trivial
  exact Only.ite rest (only_step.bind fun _ => install.bind fun _ => rest)

theorem only_anyExists (files : List File) : OnlyPlan planId (anyExists files) := by
  induction files with
  | nil => exact only_pure
  | cons file rest ih => exact only_lexists.bind fun _ => Only.ite only_pure ih

theorem only_apply {owner : Option String} {scope : Scope} :
    OnlyPlan planId (apply planId owner scope) := by
  have plan : OnlyPlan planId (call .plan) := only_perform trivial
  have releaseExists : ∀ name, OnlyPlan planId (call (.releaseExists name)) :=
    fun name => only_perform trivial
  have makeStaging : OnlyPlan planId (call .makeStaging) := only_perform trivial
  have stagingExists : OnlyPlan planId (call .stagingExists) := only_perform trivial
  refine plan.bind fun planned => (only_checked _).bind fun _ => only_step.bind fun _ =>
    only_lexists.bind fun _ => (only_checked _).bind fun _ => only_lexists.bind fun _ =>
    (only_checked _).bind fun _ => (only_anyExists _).bind fun _ => (only_checked _).bind fun _ =>
    only_step.bind fun _ => (releaseExists _).bind fun reuse => ?_
  have rest : ∀ row : Row, row.planId = planId → OnlyPlan planId (do
      atomicJson .pending (.pending row)
      if reuse then stageAndCommit row true
      else do
        call .makeStaging
        Program.orElse (stageAndCommit row false) fun error => do
          let remains ← call .stagingExists
          if remains then perform .restrictStaging else pure ()
          checked (.error error)) := fun row own =>
    only_pending.bind fun _ => Only.ite (only_stageAndCommit own)
      (makeStaging.bind fun _ => Only.orElse (only_stageAndCommit own) fun _ =>
        stagingExists.bind fun _ => Only.ite (only_step.bind fun _ => only_checked _)
          (only_checked _))
  exact Only.ite (only_step.bind fun _ => only_readPointer.bind fun _ => rest _ rfl)
    (only_readPointer.bind fun _ => rest _ rfl)

/-- The receipts of a plan. -/
def receiptsOf (planId : String) (disk : Disk) : List (Option Content) :=
  (terminalPaths planId).map disk.files

theorem effect_receipts (choice : Choice) {after : Disk}
    (same : receiptsOf other after = receiptsOf other disk) :
    receiptsOf other (choice.effect disk after) = receiptsOf other disk := by
  unfold Choice.effect
  split
  · exact same
  · rfl

theorem put_receipts {file : File} (own : file = .pending ∨ file = .rollbackPending ∨
    file ∈ terminalPaths planId) (apart : other ≠ planId) (content : Option Content) :
    receiptsOf other (disk.put file content) = receiptsOf other disk := by
  rcases own with rfl | rfl | mem
  · simp [receiptsOf, terminalPaths, Disk.put]
  · simp [receiptsOf, terminalPaths, Disk.put]
  · simp only [terminalPaths, List.mem_cons, List.not_mem_nil, or_false] at mem
    rcases mem with rfl | rfl | rfl <;> simp [receiptsOf, terminalPaths, Disk.put, apart]

theorem receiptsOf_respond {c : Call} (own : c.OfPlan planId) (apart : other ≠ planId)
    (choice : Choice) (disk : Disk) :
    receiptsOf other (respond c choice disk).2 = receiptsOf other disk := by
  cases c with
  | write file content => exact effect_receipts choice (put_receipts own apart _)
  | unlink file => exact effect_receipts choice (put_receipts own apart _)
  | replacePointer | installRelease | makeStaging => exact effect_receipts choice rfl
  | _ => rfl

theorem receiptsOf_exec {α : Type} {x : Procedure α} (only : OnlyPlan planId x)
    (apart : other ≠ planId) (choices : Nat → Choice) (disk : Disk) :
    receiptsOf other (x.exec respond choices disk).2 = receiptsOf other disk := by
  induction only generalizing disk choices with
  | done result => rfl
  | call own rest ih =>
    exact (ih _ _ _).trans (receiptsOf_respond own apart (choices 0) disk)

/- Operations that change nothing -/

/-- No marker is left, so no operation is under way. -/
structure Idle (disk : Disk) : Prop where
  pending : disk.files .pending = none
  rollbackPending : disk.files .rollbackPending = none

theorem recover_idle (idle : Idle disk) :
    Ends (keeping (· = disk) False) (recover planId) disk (fun _ _ => False)
      (fun _ d => d = disk) := by
  unfold recover
  rw [ends_bind]
  refine ends_step rfl ?_ fun _ _ => rfl
  rw [ends_bind, loadPending, ends_bind]
  refine ends_read rfl (fun content stored => ?_) fun _ _ => rfl
  rw [idle.pending] at stored
  cases stored

/-- The plan was rolled back and the pointer is where it was before the plan. -/
def Undone (planId : String) (disk : Disk) : Prop :=
  (disk.files (.committedRollback planId)).isSome = true ∧
    ∃ receipt, disk.files (.committed planId) = some (.receipt receipt) ∧
      disk.pointer = .of receipt.row.previousPointer

/- What holds of a rollback that may not move the pointer. -/
theorem rollbackCommitted_refused (idle : Idle disk)
    (disowned : ∀ receipt, disk.files (.committed planId) = some (.receipt receipt) →
      disk.files (.committedRollback planId) = none →
      disk.pointer ≠ .link receipt.row.newPointer) :
    Ends (keeping (· = disk) False) (rollbackCommitted planId) disk
      (fun report d => d = disk ∧ report.status = .rollbackVerified ∧ report.changed = false ∧
        Undone planId disk)
      (fun _ d => d = disk) := by
  unfold rollbackCommitted
  rw [ends_bind]
  refine ends_step rfl ?_ fun _ _ => rfl
  rw [ends_bind]
  refine ends_lexists rfl ?_
  rw [ends_bind]
  refine ends_refuse (fun _ => ?_) fun _ _ => rfl
  rw [ends_bind, loadCommitted, ends_bind]
  refine ends_read rfl (fun content stored => ?_) fun _ _ => rfl
  refine ends_checked (fun receipt valid => ?_) fun _ _ => rfl
  obtain ⟨rfl, _, _⟩ := validateCommitted_ok valid
  rw [ends_bind]
  refine ends_readPointer rfl (fun current read => ?_) fun _ _ => rfl
  have current_eq := pointer_of_target read
  rw [ends_bind]
  refine ends_lexists rfl ?_
  rw [ends_ite]
  constructor
  · intro there
    rw [finishedRollback, ends_bind, loadExactJson, ends_bind]
    refine ends_read rfl (fun _ _ => ?_) fun _ _ => rfl
    refine ends_refuse (fun _ => ?_) fun _ _ => rfl
    rw [ends_bind]
    refine ends_lexists rfl ?_
    rw [idle.rollbackPending, Option.isSome_none, if_neg Bool.false_ne_true, ends_bind]
    refine ends_refuse (fun same => ⟨rfl, rfl, rfl, there, receipt, stored, ?_⟩) fun _ _ => rfl
    rw [← not_not.mp same]
    exact current_eq.symm
  · intro missing
    have missing : disk.files (.committedRollback planId) = none := by simpa using missing
    rw [ends_bind, declareIntent, ends_bind]
    refine ends_lexists rfl ?_
    rw [idle.rollbackPending, Option.isSome_none, if_neg Bool.false_ne_true, ends_bind]
    refine ends_refuse (fun owned => ?_) fun _ _ => rfl
    rw [not_not] at owned
    rw [owned] at current_eq
    exact absurd current_eq.symm (disowned receipt stored missing)

theorem rollbackOwned_idle (idle : Idle disk) {post : Report → Disk → Prop}
    {raised : Raised → Disk → Prop} {keep : Disk → Prop} (kept : keep disk)
    (failed : ∀ e, raised e disk)
    (committed : (disk.files (.committed planId)).isSome = true →
      Ends (keeping keep False) (rollbackCommitted planId) disk post raised)
    (absent : disk.files (.committed planId) = none → (disk.files (.rollback planId)).isSome = false ∧
      post ⟨.rollbackVerified, false, planId, none⟩ disk) :
    Ends (keeping keep False) (rollbackOwned planId) disk post raised := by
  unfold rollbackOwned
  rw [ends_bind]
  refine ends_step kept ?_ fun _ => failed
  rw [ends_bind]
  refine ends_lexists kept ?_
  rw [idle.pending, Option.isSome_none, if_neg Bool.false_ne_true, rollbackRecorded, ends_bind]
  refine ends_lexists kept ?_
  rw [ends_ite]
  refine ⟨committed, fun missing => ?_⟩
  obtain ⟨unrolled, done⟩ := absent (by simpa using missing)
  rw [ends_bind]
  refine ends_lexists kept ?_
  rw [ends_bind]
  refine ends_refuse (fun _ => ?_) fun _ => failed
  rw [ends_bind]
  refine ends_lexists kept ?_
  rw [unrolled]
  exact done

/- Histories of several plans -/

/- An operation that somebody runs to its end, and its environment. -/
structure Turn where
  planId : String
  operation : Operation
  choices : Nat → Choice

def Turn.outcome (disk : Disk) (turn : Turn) : Except Raised Report × Disk :=
  (turn.operation.procedure turn.planId).exec respond turn.choices disk

/- The disk, and the applied plans that were not rolled back, the latest one first. -/
structure Ledger where
  disk : Disk
  live : List String

def Ledger.advance (ledger : Ledger) (turn : Turn) : Ledger where
  disk := (turn.outcome ledger.disk).2
  live :=
    match turn.operation with
    | .apply .. => turn.planId :: ledger.live
    | .rollbackOwned | .rollbackCommitted => ledger.live.filter (· ≠ turn.planId)
    | .recover => ledger.live

def Ledger.Succeeds (ledger : Ledger) (turn : Turn) : Prop :=
  (turn.outcome ledger.disk).1.isOk = true

instance (ledger : Ledger) (turn : Turn) : Decidable (ledger.Succeeds turn) :=
  inferInstanceAs (Decidable ((turn.outcome ledger.disk).1.isOk = true))

/-- No two plans that are applied and not rolled back have installed the same release. -/
def Ledger.Unshared (ledger : Ledger) : Prop :=
  ∀ planId ∈ ledger.live, ∀ other ∈ ledger.live, ∀ receipt receipt',
    ledger.disk.files (.committed planId) = some (.receipt receipt) →
    ledger.disk.files (.committed other) = some (.receipt receipt') →
    receipt.row.newPointer = receipt'.row.newPointer → planId = other

/-- The pointer is what the latest plan has installed, and so on down to the first one. -/
def Chain (start : Pointer) (disk : Disk) : List String → Pointer → Prop
  | [], pointer => pointer = start
  | planId :: rest, pointer => ∃ row before,
    receiptsOf planId disk = [some (committedReceiptOf row), none, none] ∧
      Own planId before row ∧ pointer = .link row.newPointer ∧ Chain start disk rest before

structure Sound (start : Pointer) (ledger : Ledger) : Prop where
  idle : Idle ledger.disk
  distinct : ledger.live.Nodup
  chain : Chain start ledger.disk ledger.live ledger.disk.pointer
  others : ∀ planId ∉ ledger.live, receiptsOf planId ledger.disk = [none, none, none] ∨
    ∃ row, receiptsOf planId ledger.disk =
      [some (committedReceiptOf row), none, some (verifiedOf row)]

theorem receiptsOf_eq {committed rollback committedRollback : Option Content} :
    receiptsOf planId disk = [committed, rollback, committedRollback] ↔
      disk.files (.committed planId) = committed ∧ disk.files (.rollback planId) = rollback ∧
        disk.files (.committedRollback planId) = committedRollback := by
  simp [receiptsOf, terminalPaths]

theorem Chain.frame {disk' : Disk} {live : List String} {pointer : Pointer}
    (chain : Chain start disk live pointer)
    (same : ∀ planId ∈ live, receiptsOf planId disk' = receiptsOf planId disk) :
    Chain start disk' live pointer := by
  induction live generalizing pointer with
  | nil => exact chain
  | cons planId rest ih =>
    obtain ⟨row, before, receipts, own, pointer_eq, chain⟩ := chain
    exact ⟨row, before, (same planId List.mem_cons_self).trans receipts, own, pointer_eq,
      ih chain fun other mem => same other (List.mem_cons_of_mem _ mem)⟩

theorem Chain.receipts {live : List String} {pointer : Pointer}
    (chain : Chain start disk live pointer) (mem : planId ∈ live) :
    ∃ row, receiptsOf planId disk = [some (committedReceiptOf row), none, none] := by
  induction live generalizing pointer with
  | nil => cases mem
  | cons own rest ih =>
    obtain ⟨row, before, receipts, _, _, chain⟩ := chain
    rcases List.mem_cons.mp mem with rfl | later
    · exact ⟨row, receipts⟩
    · exact ih chain later

/- A plan that is not the latest one does not find its release behind the pointer. -/
theorem Sound.disowned {ledger : Ledger} (sound : Sound start ledger) (unshared : ledger.Unshared)
    (not_latest : ledger.live.head? ≠ some planId) (receipt : Receipt)
    (stored : ledger.disk.files (.committed planId) = some (.receipt receipt))
    (unrolled : ledger.disk.files (.committedRollback planId) = none) :
    ledger.disk.pointer ≠ .link receipt.row.newPointer := by
  intro owned
  by_cases live : planId ∈ ledger.live
  · obtain ⟨disk, plans⟩ := ledger
    cases plans with
    | nil => cases live
    | cons latest rest =>
      obtain ⟨row, before, receipts, own, pointer_eq, _⟩ := sound.chain
      have stored' := (receiptsOf_eq.mp receipts).1
      have owned : disk.pointer = .link receipt.row.newPointer := owned
      rw [pointer_eq] at owned
      have same := unshared latest List.mem_cons_self planId live _ _ stored' stored
        (Pointer.link.inj owned)
      exact not_latest (congrArg some same)
  · rcases sound.others planId live with receipts | ⟨row, receipts⟩
    · rw [(receiptsOf_eq.mp receipts).1] at stored
      cases stored
    · rw [(receiptsOf_eq.mp receipts).2.2] at unrolled
      cases unrolled

/- What a whole run without a crash comes to. -/
theorem exec_kept {α : Type} {keep : Disk → Prop} {x : Procedure α} {post : α → Disk → Prop}
    {raised : Raised → Disk → Prop} (ends : Ends (keeping keep False) x disk post raised)
    (choices : Nat → Choice) : Meets post raised (x.exec respond choices disk) := by
  have obeys : x.Obeys respond (fun _ choice _ => False → choice.raises = none) choices disk :=
    obeys_of_choices (fun _ never => never.elim) _ _
  exact exec_of_checking ends obeys

theorem exec_succeeds {α : Type} {keep : Disk → Prop} {x : Procedure α} {post : α → Disk → Prop}
    {raised : Raised → Disk → Prop} (ends : Ends (keeping keep False) x disk post raised)
    {choices : Nat → Choice} (succeeds : (x.exec respond choices disk).1.isOk = true) :
    ∃ a, post a (x.exec respond choices disk).2 := by
  have meets := exec_kept ends choices
  cases ended : x.exec respond choices disk with
  | mk result d =>
    rw [ended] at meets succeeds
    cases result with
    | ok a => exact ⟨a, meets⟩
    | error e => cases succeeds

theorem filter_absent {live : List String} (absent : planId ∉ live) :
    live.filter (· ≠ planId) = live := by
  rw [List.filter_eq_self]
  intro other mem
  have apart : other ≠ planId := fun same => absent (same ▸ mem)
  simpa using apart

theorem view_of_receipts {committed rollback committedRollback : Option Content}
    (idle : Idle disk)
    (receipts : receiptsOf planId disk = [committed, rollback, committedRollback]) :
    disk.view planId = ⟨disk.pointer, none, none, committed, rollback, committedRollback⟩ := by
  obtain ⟨rfl, rfl, rfl⟩ := receiptsOf_eq.mp receipts
  rw [← idle.pending]
  simp [Disk.view, idle.pending, idle.rollbackPending]

/- An operation that rolls back what `rollback_committed` does. -/
theorem Sound.rollback {ledger : Ledger} (sound : Sound start ledger) (unshared : ledger.Unshared)
    {x : Procedure Report} (only : OnlyPlan planId x)
    (via : ∀ {keep : Disk → Prop} {post : Report → Disk → Prop} {raised : Raised → Disk → Prop},
      Ends (keeping keep False) (rollbackCommitted planId) ledger.disk post raised →
      keep ledger.disk → (∀ e, raised e ledger.disk) →
      Ends (keeping keep False) x ledger.disk post raised)
    {choices : Nat → Choice}
    (succeeds : (x.exec respond choices ledger.disk).1.isOk = true) :
    Sound start
      ⟨(x.exec respond choices ledger.disk).2, ledger.live.filter (· ≠ planId)⟩ := by
  by_cases latest : ledger.live.head? = some planId
  · -- the pointer goes back to where it was before the plan
    obtain ⟨disk, live⟩ := ledger
    obtain ⟨rest, rfl⟩ : ∃ rest, live = planId :: rest := by
      cases live with
      | nil => cases latest
      | cons own rest =>
        cases latest
        exact ⟨rest, rfl⟩
    obtain ⟨row, before, receipts, own, pointer_eq, chain⟩ := sound.chain
    have view_eq := view_of_receipts sound.idle receipts
    rw [show disk.pointer = .link row.newPointer from pointer_eq] at view_eq
    have stage : Stage planId before (disk.view planId) := view_eq ▸ .committed row own
    have whole := via (rollbackCommitted_ends stage) stage fun _ => trivial
    obtain ⟨_, _, row', own', _, closed⟩ := exec_succeeds whole succeeds
    set disk' := (x.exec respond choices disk).2
    have fresh := List.nodup_cons.mp sound.distinct
    have rest_eq : (planId :: rest).filter (· ≠ planId) = rest := by
      rw [List.filter_cons_of_neg (by simp), filter_absent fresh.1]
    have still : ∀ other, other ≠ planId → receiptsOf other disk' = receiptsOf other disk :=
      fun other apart => receiptsOf_exec only apart choices disk
    rw [rest_eq]
    refine ⟨⟨congrArg View.pending closed, congrArg View.rollbackPending closed⟩, fresh.2, ?_,
      fun other absent => ?_⟩
    · have at_before : disk'.pointer = before := congrArg View.pointer closed
      rw [at_before]
      exact chain.frame fun other mem => still other fun same => fresh.1 (same ▸ mem)
    · by_cases same : other = planId
      · subst same
        exact .inr ⟨row', receiptsOf_eq.mpr ⟨congrArg View.committed closed,
          congrArg View.rollback closed, congrArg View.committedRollback closed⟩⟩
      · rw [still other same]
        exact sound.others other fun mem =>
          (List.mem_cons.mp mem).elim same absent
  · -- anything else changes nothing
    have whole := via (rollbackCommitted_refused sound.idle fun receipt stored unrolled =>
      sound.disowned unshared latest receipt stored unrolled) rfl fun _ => rfl
    obtain ⟨_, same, _, _, undone, _⟩ := exec_succeeds whole succeeds
    have dead : planId ∉ ledger.live := fun mem => by
      obtain ⟨row, receipts⟩ := sound.chain.receipts mem
      rw [(receiptsOf_eq.mp receipts).2.2] at undone
      cases undone
    rw [same, filter_absent dead]
    exact sound

theorem Sound.unapplied {ledger : Ledger} (sound : Sound start ledger)
    (absent : ledger.disk.files (.committed planId) = none) : planId ∉ ledger.live ∧
      (ledger.disk.files (.rollback planId)).isSome = false := by
  have dead : planId ∉ ledger.live := fun mem => by
    obtain ⟨row, receipts⟩ := sound.chain.receipts mem
    rw [(receiptsOf_eq.mp receipts).1] at absent
    cases absent
  refine ⟨dead, ?_⟩
  rcases sound.others planId dead with receipts | ⟨row, receipts⟩ <;>
    rw [(receiptsOf_eq.mp receipts).2.1] <;> rfl

theorem Sound.apply {ledger : Ledger} (sound : Sound start ledger) {owner : Option String}
    {scope : Scope} {choices : Nat → Choice}
    (succeeds : ((apply planId owner scope).exec respond choices ledger.disk).1.isOk = true) :
    Sound start ⟨((SourceRelease.apply planId owner scope).exec respond choices ledger.disk).2,
      planId :: ledger.live⟩ := by
  by_cases terminal : Terminal planId ledger.disk
  · obtain ⟨_, never⟩ := exec_succeeds (apply_refused terminal) succeeds
    exact never.elim
  · have absent : ∀ file ∈ terminalPaths planId, ledger.disk.files file = none := by
      intro file mem
      cases there : ledger.disk.files file with
      | none => rfl
      | some content => exact absurd ⟨file, mem, by rw [there]; rfl⟩ terminal
    have uncommitted := absent (.committed planId) (by simp [terminalPaths])
    have unused : Unused planId (ledger.disk.view planId) := by
      refine ⟨uncommitted, absent _ (by simp [terminalPaths]), absent _ (by simp [terminalPaths]),
        fun content stored => ?_, fun content stored => ?_⟩
      · exact absurd (sound.idle.pending.symm.trans stored) (by simp)
      · exact absurd (sound.idle.rollbackPending.symm.trans stored) (by simp)
    obtain ⟨_, row, own, view_eq⟩ := exec_succeeds
      (apply_ends (.unused _ unused rfl)) succeeds
    have dead := (sound.unapplied uncommitted).1
    set disk' := ((SourceRelease.apply planId owner scope).exec respond choices ledger.disk).2
    have still : ∀ other, other ≠ planId →
        receiptsOf other disk' = receiptsOf other ledger.disk :=
      fun other apart => receiptsOf_exec only_apply apart choices ledger.disk
    refine ⟨⟨congrArg View.pending view_eq, congrArg View.rollbackPending view_eq⟩,
      List.nodup_cons.mpr ⟨dead, sound.distinct⟩, ?_, fun other outside => ?_⟩
    · refine ⟨row, ledger.disk.pointer, receiptsOf_eq.mpr ⟨congrArg View.committed view_eq,
        congrArg View.rollback view_eq, congrArg View.committedRollback view_eq⟩, own,
        congrArg View.pointer view_eq, ?_⟩
      exact sound.chain.frame fun other mem => still other fun same => dead (same ▸ mem)
    · rw [List.mem_cons, not_or] at outside
      rw [still other outside.1]
      exact sound.others other outside.2

theorem Sound.advance {ledger : Ledger} (sound : Sound start ledger) (unshared : ledger.Unshared)
    (turn : Turn) (succeeds : ledger.Succeeds turn) : Sound start (ledger.advance turn) := by
  obtain ⟨planId, operation, choices⟩ := turn
  cases operation with
  | apply owner scope => exact sound.apply succeeds
  | recover =>
    obtain ⟨_, never⟩ := exec_succeeds (recover_idle sound.idle) succeeds
    exact never.elim
  | rollbackCommitted =>
    exact sound.rollback unshared only_rollbackCommitted (fun ends _ _ => ends) succeeds
  | rollbackOwned =>
    by_cases committed : (ledger.disk.files (.committed planId)).isSome = true
    · refine sound.rollback unshared only_rollbackOwned (fun ends kept failed => ?_) succeeds
      exact rollbackOwned_idle sound.idle kept failed (fun _ => ends) fun absent => by
        rw [absent] at committed
        cases committed
    · -- there is nothing to roll back
      have absent : ledger.disk.files (.committed planId) = none := by simpa using committed
      obtain ⟨dead, unrolled⟩ := sound.unapplied absent
      have whole : Ends (keeping (· = ledger.disk) False) (SourceRelease.rollbackOwned planId)
          ledger.disk (fun _ d => d = ledger.disk) (fun _ d => d = ledger.disk) :=
        rollbackOwned_idle sound.idle rfl (fun _ => rfl)
          (fun there => absurd there committed) fun _ => ⟨unrolled, rfl⟩
      obtain ⟨_, same⟩ := exec_succeeds whole succeeds
      have step_eq : ledger.advance ⟨planId, .rollbackOwned, choices⟩ = ledger := by
        rw [Ledger.advance]
        simp only [filter_absent dead]
        exact congrArg (Ledger.mk · ledger.live) same
      rw [step_eq]
      exact sound

theorem sound_start (start : Disk) (empty : ∀ file, start.files file = none) :
    Sound start.pointer ⟨start, []⟩ where
  idle := ⟨empty _, empty _⟩
  distinct := List.nodup_nil
  chain := rfl
  others _ _ := .inl (receiptsOf_eq.mpr ⟨empty _, empty _, empty _⟩)

section Sample

def sampleTurn (operation : Operation) : Turn := ⟨"plan", operation, samplePlanned⟩

def sampleApply : Turn := sampleTurn (.apply none .production)

def sampleRollback : Turn := sampleTurn .rollbackCommitted

theorem sample_succeeds : Ledger.Succeeds ⟨sampleRoot, []⟩ sampleApply ∧
    Ledger.Succeeds (Ledger.advance ⟨sampleRoot, []⟩ sampleApply) sampleRollback := by
  decide +kernel

/- Three plans in turn; the last one installs the release of the first one again. -/
def sharedHistory : List Turn :=
  [("first", sampleRelease), ("second", "0123456789abcdef0123456789abcdef01234567-0123456789ac"),
    ("third", sampleRelease)].map fun (planId, release) =>
      ⟨planId, .apply none .production, fun _ => { planned := ⟨planId, release⟩ }⟩

/- Every plan succeeds, and the rollback of the first one moves the pointer of the third. -/
theorem sharedHistory_undone :
    Runs.Guarded Ledger.advance Ledger.Succeeds ⟨sampleRoot, []⟩ sharedHistory ∧
      ((rollbackCommitted "first").exec respond samplePlanned
          (Runs.run Ledger.advance ⟨sampleRoot, []⟩ sharedHistory).disk).2.pointer ≠
        (Runs.run Ledger.advance ⟨sampleRoot, []⟩ sharedHistory).disk.pointer ∧
      (Runs.run Ledger.advance ⟨sampleRoot, []⟩ sharedHistory).live.head? ≠ some "first" := by
  decide +kernel

end Sample

end NoiContest.SourceRelease
