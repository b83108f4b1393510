import NoiContest.SourceRelease.Stages

/- What every operation on a plan does to its stage, crash by crash, and then whole histories. -/
namespace NoiContest.SourceRelease
open Flow Outcome

variable {planId : String} {start : Pointer} {disk : Disk} {row : Row}

/-- Every call leaves the plan in one of its stages. -/
abbrev staged (planId : String) (start : Pointer) : Transformer Call Answer Raised Disk :=
  keeping (fun disk => Stage planId start (disk.view planId)) False

abbrev Anywhere {ε : Type} : ε → Disk → Prop := fun _ _ => True

/- The checks of the loaders -/

theorem validatePending_ok {content : Content} :
    validatePending planId content = .ok row ↔ content = .pending row ∧ row.planId = planId ∧
      ¬ ownerDiffers row.ownerPlanId ∧ row.phase ≠ .rollbackVerified := by
  cases content with
  | pending own =>
    simp only [validatePending, bind_ok, raiseIf_ok, pure_eq_ok, not_not, Content.pending.injEq]
    constructor
    · rintro ⟨_, plan, _, owner, _, phase, rfl⟩
      exact ⟨rfl, plan, owner, phase⟩
    · rintro ⟨rfl, plan, owner, phase⟩
      exact ⟨(), plan, (), owner, (), phase, rfl⟩
  | receipt => simp [validatePending]
  | intent => simp [validatePending]
  | other => simp [validatePending]

theorem validateCommitted_ok {content : Content} {receipt : Receipt}
    (valid : validateCommitted planId content = .ok receipt) :
    content = .receipt receipt ∧ receipt.row.planId = planId ∧ receipt.status = .committed := by
  cases content with
  | receipt own =>
    simp only [validateCommitted, bind_ok, raiseIf_ok, pure_eq_ok, not_or, not_not] at valid
    obtain ⟨_, ⟨plan, _, status⟩, _, _, _, _, _, _, rfl⟩ := valid
    exact ⟨rfl, plan, status⟩
  | pending => cases valid
  | intent => cases valid
  | other => cases valid

theorem validateRecovered_ok {content : Content} {receipt : Receipt} :
    validateRecovered planId content = .ok receipt ↔ content = .receipt receipt ∧
      receipt.row.planId = planId ∧ receipt.row.phase = .rollbackVerified ∧
        receipt.status = .rolledBack ∧ ¬ ownerDiffers receipt.row.ownerPlanId := by
  cases content with
  | receipt own =>
    simp only [validateRecovered, bind_ok, raiseIf_ok, pure_eq_ok, not_or, not_not,
      Content.receipt.injEq]
    constructor
    · rintro ⟨_, ⟨plan, phase, status⟩, _, owner, rfl⟩
      exact ⟨rfl, plan, phase, status, owner⟩
    · rintro ⟨rfl, plan, phase, status, owner⟩
      exact ⟨(), ⟨plan, phase, status⟩, (), owner, rfl⟩
  | pending => simp [validateRecovered]
  | intent => simp [validateRecovered]
  | other => simp [validateRecovered]

theorem point_same {pointer : Pointer} (same : disk.pointer = pointer) :
    disk.point pointer = disk := by
  subst same
  rfl

/- Only a pointer of the plan is moved, and it moves back to where it was. -/
theorem restorePointer_ends {current : Option String} {message : String}
    {post : Unit → Disk → Prop} (own : Own planId start row)
    (read : pointerTarget disk.pointer = .ok current)
    (kept : Stage planId start (disk.view planId))
    (restored : Stage planId start ((disk.point start).view planId))
    (next : post () (disk.point start)) :
    Ends (staged planId start) (restorePointer row current message) disk post Anywhere := by
  unfold restorePointer
  rw [ends_ite]
  constructor
  · intro _
    have back := own.pointer
    exact ends_replacePointer kept (back ▸ restored) (back ▸ next)
      fun _ _ => ⟨trivial, trivial⟩
  · intro _
    refine ends_refuse (fun same => ?_) fun _ _ => trivial
    have at_start : disk.pointer = start := by
      rw [← own.pointer, ← not_not.mp same]
      exact (pointer_of_target read).symm
    rw [point_same at_start] at next
    exact next

/- The recovery of an interrupted apply -/

theorem committedReceipt_ends {post : Bool → Disk → Prop}
    (kept : Stage planId start (disk.view planId))
    (absent : disk.files (.committed row.planId) = none → post false disk)
    (found : disk.files (.committed row.planId) = some (committedReceiptOf row) → post true disk) :
    Ends (staged planId start) (committedReceipt row) disk post Anywhere := by
  unfold committedReceipt
  rw [ends_bind]
  refine ends_lexists kept ?_
  rw [ends_ite]
  constructor
  · intro _
    rw [ends_bind]
    refine ends_read kept (fun content stored => ?_) fun _ _ => trivial
    rw [ends_bind]
    refine ends_refuse (fun agreed => ?_) fun _ _ => trivial
    rw [not_or, not_not] at agreed
    rw [agreed.1] at stored
    exact found stored
  · intro missing
    exact absent (by simpa using missing)

/-- What a recovery of the apply comes to. -/
inductive Recovered (planId : String) (start : Pointer) (report : Report) (view : View) : Prop
  | commit (row : Row) (own : Own planId start row) (status : report.status = .commitRecovered)
    (view_eq : view =
      ⟨.link row.newPointer, none, none, some (committedReceiptOf row), none, none⟩)
  | rollback (row : Row) (own : Own planId start row) (owner : ¬ ownerDiffers row.ownerPlanId)
    (status : report.status = .rollbackVerified)
    (view_eq : view = ⟨start, none, none, none, some (rolledBackReceiptOf row), none⟩)

theorem Stage.of_pending {view : View} (stage : Stage planId start view) (row : Row)
    (pending : view.pending = some (.pending row)) (plan : row.planId = planId) :
    Own planId start row ∧ view.rollbackPending = none ∧ view.committedRollback = none ∧
      (view.committed = none ∧ Stage planId start { view with pointer := start } ∨
        view = ⟨.link row.newPointer, some (.pending row), none, some (committedReceiptOf row),
          none, none⟩) := by
  cases stage with
  | unused view unused =>
    exact absurd (congrArg some plan) (unused.pending _ pending)
  | applying row' own =>
    cases pending
    exact ⟨own, rfl, rfl, .inl ⟨rfl, .applying row own start (.inl rfl)⟩⟩
  | receiptWritten row' own =>
    cases pending
    exact ⟨own, rfl, rfl, .inr rfl⟩
  | recovering row' own =>
    cases pending
    exact ⟨own, rfl, rfl, .inl ⟨rfl, .recovering row own⟩⟩
  | committed | rolledBack | declared | verified | closed => cases pending

theorem recover_ends (stage : Stage planId start (disk.view planId)) :
    Ends (staged planId start) (recover planId) disk
      (fun report d => Recovered planId start report (d.view planId)) Anywhere := by
  unfold recover
  rw [ends_bind]
  refine ends_step stage ?_ fun _ _ => trivial
  rw [ends_bind, loadPending, ends_bind]
  refine ends_read stage (fun content stored => ?_) fun _ _ => trivial
  refine ends_checked (fun row valid => ?_) fun _ _ => trivial
  obtain ⟨rfl, plan, owner, _⟩ := validatePending_ok.mp valid
  obtain ⟨own, calm, unrolled, either⟩ := stage.of_pending row stored plan
  rw [ends_bind]
  refine ends_readPointer stage (fun current read => ?_) fun _ _ => trivial
  rw [ends_bind]
  refine committedReceipt_ends stage (fun absent => ?_) fun found => ?_
  · obtain ⟨uncommitted, restored⟩ := either.resolve_right fun view_eq => by
      have there := congrArg View.committed view_eq
      rw [plan] at absent
      exact Option.some_ne_none _ (there.symm.trans absent)
    have written : (((disk.point start).put (.rollback planId)
        (some (rolledBackReceiptOf row))).view planId) =
          ⟨start, some (.pending row), none, none, some (rolledBackReceiptOf row), none⟩ := by
      have marker : (disk.view planId).pending = some (.pending row) := stored
      simp [marker, uncommitted, calm, unrolled]
    have closed : ((((disk.point start).put (.rollback planId)
        (some (rolledBackReceiptOf row))).put .pending none).view planId) =
          ⟨start, none, none, none, some (rolledBackReceiptOf row), none⟩ := by
      rw [view_put_pending, written]
    rw [if_neg Bool.false_ne_true, ends_bind]
    refine restorePointer_ends own read stage restored ?_
    rw [ends_bind]
    refine ends_write restored (written ▸ .recovering row own) ?_ fun _ _ => ⟨trivial, trivial⟩
    rw [ends_bind]
    exact ends_unlink (written ▸ .recovering row own) (closed ▸ .rolledBack row own)
      (.rollback row own owner rfl closed) fun _ _ => ⟨trivial, trivial⟩
  · have view_eq := either.resolve_left fun early => by
      rw [plan] at found
      exact Option.some_ne_none _ (found.symm.trans early.1)
    have closed : ((disk.put .pending none).view planId) =
        ⟨.link row.newPointer, none, none, some (committedReceiptOf row), none, none⟩ := by
      rw [view_put_pending, view_eq]
    rw [if_pos rfl, ends_bind]
    refine ends_refuse (fun _ => ?_) fun _ _ => trivial
    rw [ends_bind]
    exact ends_unlink stage (closed ▸ .committed row own) (.commit row own rfl closed)
      fun _ _ => ⟨trivial, trivial⟩

/- The rollback of a commit -/

/-- The rollback of a commit came to its end, with a receipt that can be loaded again. -/
structure Closed (planId : String) (start : Pointer) (row : Row) (view : View) : Prop where
  own : Own planId start row
  valid : validateCommitted planId (committedReceiptOf row) = .ok ⟨row, .committed⟩
  view_eq : view = ⟨start, none, none, some (committedReceiptOf row), none, some (verifiedOf row)⟩

/-- The files of a plan whose rollback is under way. -/
def rollingView (row : Row) (pointer : Pointer) (intent terminal : Option Content) : View :=
  ⟨pointer, none, intent, some (committedReceiptOf row), none, terminal⟩

theorem Stage.of_committed {view : View} (stage : Stage planId start view) (row : Row)
    (unfinished : view.pending = none)
    (committed : view.committed = some (committedReceiptOf row)) :
    Own planId start row ∧ (view.pointer = start ∨ view.pointer = .link row.newPointer) ∧
      view = rollingView row view.pointer view.rollbackPending view.committedRollback ∧
      (view.committedRollback = none ∨ view.pointer = start) := by
  cases stage with
  | unused view unused =>
    rw [unused.committed] at committed
    cases committed
  | applying | receiptWritten | recovering => cases unfinished
  | rolledBack => cases committed
  | committed row own =>
    cases committed
    exact ⟨own, .inr rfl, rfl, .inl rfl⟩
  | declared row own pointer moved =>
    cases committed
    exact ⟨own, moved, rfl, .inl rfl⟩
  | verified row own =>
    cases committed
    exact ⟨own, .inl rfl, rfl, .inr rfl⟩
  | closed row own =>
    cases committed
    exact ⟨own, .inl rfl, rfl, .inr rfl⟩

theorem loadExactJson_ends {file : File} {expected : Content} {label : String}
    {post : Unit → Disk → Prop} (stage : Stage planId start (disk.view planId))
    (next : disk.files file = some expected → post () disk) :
    Ends (staged planId start) (loadExactJson file expected label) disk post Anywhere := by
  unfold loadExactJson
  rw [ends_bind]
  refine ends_read stage (fun content stored => ?_) fun _ _ => trivial
  refine ends_refuse (fun same => ?_) fun _ _ => trivial
  rw [not_not.mp same] at stored
  exact next stored

theorem finishedRollback_ends {current : Option String} {terminal intent : Option Content}
    (stage : Stage planId start (disk.view planId)) (own : Own planId start row)
    (valid : validateCommitted planId (committedReceiptOf row) = .ok ⟨row, .committed⟩)
    (view_eq : disk.view planId = rollingView row start intent terminal) :
    Ends (staged planId start) (finishedRollback planId ⟨row, .committed⟩ current) disk
      (fun report d => report.status = .rollbackVerified ∧
        ∃ row, Closed planId start row (d.view planId)) Anywhere := by
  unfold finishedRollback
  rw [ends_bind]
  refine loadExactJson_ends stage fun stored => ?_
  have terminal_eq : terminal = some (verifiedOf row) :=
    (congrArg View.committedRollback view_eq).symm.trans stored
  subst terminal_eq
  rw [ends_bind]
  refine ends_lexists stage ?_
  rw [ends_ite]
  constructor
  · intro _
    have closed : (disk.put .rollbackPending none).view planId =
        ⟨start, none, none, some (committedReceiptOf row), none, some (verifiedOf row)⟩ := by
      rw [view_put_rollbackPending, view_eq]
      rfl
    rw [ends_bind]
    refine loadExactJson_ends stage fun _ => ?_
    rw [ends_bind]
    refine ends_refuse (fun _ => ?_) fun _ _ => trivial
    rw [ends_bind]
    exact ends_unlink stage (closed ▸ .closed row own) ⟨rfl, row, own, valid, closed⟩
      fun _ _ => ⟨trivial, trivial⟩
  · intro missing
    have missing : (disk.view planId).rollbackPending = none := by
      simpa [Disk.view] using missing
    rw [view_eq] at missing
    have intent_eq : intent = none := missing
    subst intent_eq
    rw [ends_bind]
    exact ends_refuse (fun _ => ⟨rfl, row, own, valid, view_eq⟩) fun _ _ => trivial

theorem declareIntent_ends {current : Option String} {intent : Option Content} {pointer : Pointer}
    {post : Unit → Disk → Prop} (stage : Stage planId start (disk.view planId))
    (own : Own planId start row) (moved : pointer = start ∨ pointer = .link row.newPointer)
    (view_eq : disk.view planId = rollingView row pointer intent none)
    (next : ∀ d, d.view planId = rollingView row pointer (some (intentOf row)) none → post () d) :
    Ends (staged planId start) (declareIntent ⟨row, .committed⟩ current) disk post Anywhere := by
  unfold declareIntent
  rw [ends_bind]
  refine ends_lexists stage ?_
  rw [ends_ite]
  constructor
  · intro _
    rw [ends_bind]
    refine loadExactJson_ends stage fun stored => ?_
    refine ends_refuse (fun _ => next disk ?_) fun _ _ => trivial
    have intent_eq : intent = some (intentOf row) :=
      (congrArg View.rollbackPending view_eq).symm.trans stored
    rw [view_eq, intent_eq]
  · intro _
    have written : (disk.put .rollbackPending (some (intentOf row))).view planId =
        rollingView row pointer (some (intentOf row)) none := by
      rw [view_put_rollbackPending, view_eq]
      rfl
    rw [ends_bind]
    refine ends_refuse (fun _ => ?_) fun _ _ => trivial
    exact ends_write stage (written ▸ .declared row own pointer moved) (next _ written)
      fun _ _ => ⟨trivial, trivial⟩

theorem rollbackCommitted_ends (stage : Stage planId start (disk.view planId)) :
    Ends (staged planId start) (rollbackCommitted planId) disk
      (fun report d => report.status = .rollbackVerified ∧
        ∃ row, Closed planId start row (d.view planId)) Anywhere := by
  unfold rollbackCommitted
  rw [ends_bind]
  refine ends_step stage ?_ fun _ _ => trivial
  rw [ends_bind]
  refine ends_lexists stage ?_
  rw [ends_bind]
  refine ends_refuse (fun unfinished => ?_) fun _ _ => trivial
  have unfinished : (disk.view planId).pending = none := by simpa [Disk.view] using unfinished
  rw [ends_bind, loadCommitted, ends_bind]
  refine ends_read stage (fun content stored => ?_) fun _ _ => trivial
  refine ends_checked (fun receipt valid => ?_) fun _ _ => trivial
  obtain ⟨rfl, plan, status⟩ := validateCommitted_ok valid
  obtain ⟨row, _⟩ := receipt
  dsimp only at status
  subst status
  obtain ⟨own, moved, view_eq, terminal⟩ := stage.of_committed row unfinished stored
  rw [ends_bind]
  refine ends_readPointer stage (fun current read => ?_) fun _ _ => trivial
  rw [ends_bind]
  refine ends_lexists stage ?_
  rw [ends_ite]
  constructor
  · intro there
    have at_start := terminal.resolve_left fun absent => by
      have absent : disk.files (.committedRollback planId) = none := absent
      rw [absent] at there
      cases there
    rw [at_start] at view_eq
    exact finishedRollback_ends stage own valid view_eq
  · intro missing
    have missing : (disk.view planId).committedRollback = none := by
      simpa [Disk.view] using missing
    rw [missing] at view_eq
    rw [ends_bind]
    refine declareIntent_ends stage own moved view_eq fun d declared => ?_
    have pointer_eq : d.pointer = disk.pointer := congrArg View.pointer declared
    have restored : (d.point start).view planId =
        rollingView row start (some (intentOf row)) none := by
      rw [view_point, declared]
      rfl
    have verified : ((d.point start).put (.committedRollback planId)
        (some (verifiedOf row))).view planId =
          rollingView row start (some (intentOf row)) (some (verifiedOf row)) := by
      rw [view_put_committedRollback, restored]
      rfl
    have closed : (((d.point start).put (.committedRollback planId)
        (some (verifiedOf row))).put .rollbackPending none).view planId =
          rollingView row start none (some (verifiedOf row)) := by
      rw [view_put_rollbackPending, verified]
      rfl
    rw [ends_bind]
    refine restorePointer_ends own (pointer_eq ▸ read)
      (declared ▸ .declared row own _ moved) (restored ▸ .declared row own start (.inl rfl)) ?_
    rw [ends_bind]
    refine ends_write (restored ▸ .declared row own start (.inl rfl))
      (verified ▸ .verified row own) ?_ fun _ _ => ⟨trivial, trivial⟩
    rw [ends_bind]
    exact ends_unlink (verified ▸ .verified row own) (closed ▸ .closed row own)
      ⟨rfl, row, own, valid, closed⟩ fun _ _ => ⟨trivial, trivial⟩

/- The rollback of whatever the plan has left -/

/-- How a plan looks after `rollback_owned` has succeeded. -/
inductive RolledBack (planId : String) (start : Pointer) (view : View) : Prop
  | unused (unused : Unused planId view) (pending : view.pending = none)
    (calm : view.rollbackPending = none)
  | recovered (row : Row) (own : Own planId start row) (owner : ¬ ownerDiffers row.ownerPlanId)
    (view_eq : view = ⟨start, none, none, none, some (rolledBackReceiptOf row), none⟩)
  | closed (row : Row) (closed : Closed planId start row view)

theorem Stage.of_rollback {view : View} (stage : Stage planId start view)
    (unpending : view.pending = none) (uncommitted : view.committed = none) {content : Content}
    (stored : view.rollback = some content) : ∃ row, Own planId start row ∧
      content = rolledBackReceiptOf row ∧
      view = ⟨start, none, none, none, some (rolledBackReceiptOf row), none⟩ := by
  cases stage with
  | unused view unused =>
    rw [unused.rollback] at stored
    cases stored
  | applying | receiptWritten | recovering => cases unpending
  | rolledBack row own =>
    cases stored
    exact ⟨row, own, rfl, rfl⟩
  | committed | declared | verified | closed => cases uncommitted

theorem Stage.of_nothing {view : View} (stage : Stage planId start view)
    (unpending : view.pending = none) (uncommitted : view.committed = none)
    (unrolled : view.rollback = none) : Unused planId view ∧ view.pointer = start := by
  cases stage with
  | unused view unused same => exact ⟨unused, same⟩
  | applying | receiptWritten | recovering => cases unpending
  | rolledBack => cases unrolled
  | committed | declared | verified | closed => cases uncommitted

theorem rollbackRecorded_ends (stage : Stage planId start (disk.view planId))
    (unpending : disk.files .pending = none) :
    Ends (staged planId start) (rollbackRecorded planId) disk
      (fun report d => report.status = .rollbackVerified ∧
        RolledBack planId start (d.view planId)) Anywhere := by
  unfold rollbackRecorded
  rw [ends_bind]
  refine ends_lexists stage ?_
  rw [ends_ite]
  constructor
  · intro _
    refine (rollbackCommitted_ends stage).mono checking_monotone (fun report d held => ?_)
      fun _ _ held => held
    obtain ⟨status, row, closed⟩ := held
    exact ⟨status, .closed row closed⟩
  · intro uncommitted
    have uncommitted : disk.files (.committed planId) = none := by simpa using uncommitted
    rw [ends_bind]
    refine ends_lexists stage ?_
    rw [ends_bind]
    refine ends_refuse (fun calm => ?_) fun _ _ => trivial
    have calm : disk.files .rollbackPending = none := by simpa using calm
    rw [ends_bind]
    refine ends_lexists stage ?_
    rw [ends_ite]
    constructor
    · intro _
      rw [ends_bind]
      refine ends_read stage (fun content stored => ?_) fun _ _ => trivial
      rw [ends_bind]
      refine ends_checked (fun recovered valid => ?_) fun _ _ => trivial
      rw [ends_bind]
      refine ends_readPointer stage (fun current _ => ?_) fun _ _ => trivial
      rw [ends_bind]
      refine ends_refuse (fun _ => ⟨rfl, ?_⟩) fun _ _ => trivial
      obtain ⟨rfl, _, _, _, owner⟩ := validateRecovered_ok.mp valid
      obtain ⟨row, own, same, view_eq⟩ := stage.of_rollback unpending uncommitted stored
      cases same
      exact .recovered row own owner view_eq
    · intro unrolled
      have unrolled : disk.files (.rollback planId) = none := by simpa using unrolled
      exact ⟨rfl, .unused (stage.of_nothing unpending uncommitted unrolled).1 unpending calm⟩

theorem rollbackOwned_ends (stage : Stage planId start (disk.view planId)) :
    Ends (staged planId start) (rollbackOwned planId) disk
      (fun report d => report.status = .rollbackVerified ∧
        RolledBack planId start (d.view planId)) Anywhere := by
  unfold rollbackOwned
  rw [ends_bind]
  refine ends_step stage ?_ fun _ _ => trivial
  rw [ends_bind]
  refine ends_lexists stage ?_
  rw [ends_ite]
  constructor
  · intro _
    rw [ends_bind]
    refine (recover_ends stage).mono checking_monotone (fun report d recovered => ?_)
      fun _ _ held => held
    rw [ends_ite]
    cases recovered with
    | rollback row own owner status view_eq =>
      exact ⟨fun _ => ⟨status, .recovered row own owner view_eq⟩,
        fun other => absurd status other⟩
    | commit row own status view_eq =>
      constructor
      · intro rolledBack
        rw [status] at rolledBack
        cases rolledBack
      · intro _
        rw [ends_bind]
        refine ends_refuse (fun _ => ?_) fun _ _ => trivial
        exact rollbackRecorded_ends (view_eq ▸ .committed row own)
          (congrArg View.pending view_eq)
  · intro missing
    exact rollbackRecorded_ends stage (by simpa using missing)

/- The apply -/

/-- A receipt says that the plan came to its end. -/
def Terminal (planId : String) (disk : Disk) : Prop :=
  ∃ file ∈ terminalPaths planId, (disk.files file).isSome = true

section Reading
variable {keep : Disk → Prop} {strict : Prop} {raised : Raised → Disk → Prop}

theorem anyExists_ends {files : List File} {post : Bool → Disk → Prop} (kept : keep disk)
    (next : ∀ found : Bool, (found = true ↔ ∃ file ∈ files, (disk.files file).isSome = true) →
      post found disk) :
    Ends (keeping keep strict) (anyExists files) disk post raised := by
  induction files with
  | nil => exact next false (by simp)
  | cons file rest ih =>
    rw [anyExists, ends_bind]
    refine ends_lexists kept ?_
    rw [ends_ite]
    constructor
    · intro there
      exact next true (by simp [there])
    · intro missing
      refine ih fun found known => next found ?_
      rw [known]
      simp [missing]

end Reading

/- The pointer moves between two markers, and the receipt comes before the marker goes. -/
theorem stageAndCommit_ends {reuse : Bool} (own : Own planId start row)
    (view_eq : disk.view planId = ⟨start, some (.pending row), none, none, none, none⟩) :
    Ends (staged planId start) (stageAndCommit row reuse) disk
      (fun _ d => ∃ row, Own planId start row ∧ d.view planId =
        ⟨.link row.newPointer, none, none, some (committedReceiptOf row), none, none⟩)
      (fun _ d => Stage planId start (d.view planId)) := by
  obtain ⟨rfl, previous⟩ := own
  set installed : Row := { row with phase := .releaseInstalled } with installed_eq
  set done : Row := { row with phase := .pointerCommitted } with done_eq
  have own : Own row.planId start row := ⟨rfl, previous⟩
  have own_installed : Own row.planId start installed := ⟨rfl, previous⟩
  have own_done : Own row.planId start done := ⟨rfl, previous⟩
  have rest : ∀ d : Disk, d.view row.planId =
      ⟨start, some (.pending row), none, none, none, none⟩ →
      Ends (staged row.planId start) (do
        atomicJson .pending (.pending installed)
        call (.replacePointer (some row.newPointer))
        atomicJson .pending (.pending done)
        atomicJson (.committed row.planId) (.receipt ⟨done, .committed⟩)
        unlink .pending
        return ⟨.committed, true, row.planId, some row.newPointer⟩ : Procedure Report) d
        (fun _ d => ∃ row', Own row.planId start row' ∧ d.view row.planId =
          ⟨.link row'.newPointer, none, none, some (committedReceiptOf row'), none, none⟩)
        (fun _ d => Stage row.planId start (d.view row.planId)) := by
    intro d prepared
    have before : Stage row.planId start (d.view row.planId) :=
      prepared ▸ .applying row own start (.inl rfl)
    set d₁ := d.put .pending (some (.pending installed)) with d₁_eq
    have view₁ : d₁.view row.planId =
        ⟨start, some (.pending installed), none, none, none, none⟩ := by
      rw [d₁_eq, view_put_pending, prepared]
    have stage₁ : Stage row.planId start (d₁.view row.planId) :=
      view₁ ▸ .applying installed own_installed start (.inl rfl)
    set d₂ := d₁.point (.of (some row.newPointer)) with d₂_eq
    have view₂ : d₂.view row.planId =
        ⟨.link row.newPointer, some (.pending installed), none, none, none, none⟩ := by
      rw [d₂_eq, view_point, view₁]
      rfl
    have stage₂ : Stage row.planId start (d₂.view row.planId) :=
      view₂ ▸ .applying installed own_installed _ (.inr rfl)
    set d₃ := d₂.put .pending (some (.pending done)) with d₃_eq
    have view₃ : d₃.view row.planId =
        ⟨.link row.newPointer, some (.pending done), none, none, none, none⟩ := by
      rw [d₃_eq, view_put_pending, view₂]
    have stage₃ : Stage row.planId start (d₃.view row.planId) :=
      view₃ ▸ .applying done own_done _ (.inr rfl)
    set d₄ := d₃.put (.committed row.planId) (some (.receipt ⟨done, .committed⟩)) with d₄_eq
    have view₄ : d₄.view row.planId = ⟨.link row.newPointer, some (.pending done), none,
        some (committedReceiptOf done), none, none⟩ := by
      rw [d₄_eq, view_put_committed, view₃]
      rfl
    have stage₄ : Stage row.planId start (d₄.view row.planId) :=
      view₄ ▸ .receiptWritten done own_done
    have view₅ : (d₄.put .pending none).view row.planId =
        ⟨.link row.newPointer, none, none, some (committedReceiptOf done), none, none⟩ := by
      rw [view_put_pending, view₄]
    have stage₅ : Stage row.planId start ((d₄.put .pending none).view row.planId) :=
      view₅ ▸ .committed done own_done
    simp only [ends_bind]
    refine ends_write before stage₁ ?_ fun _ _ => ⟨before, stage₁⟩
    refine ends_replacePointer stage₁ stage₂ ?_ fun _ _ => ⟨stage₁, stage₂⟩
    refine ends_write stage₂ stage₃ ?_ fun _ _ => ⟨stage₂, stage₃⟩
    refine ends_write stage₃ stage₄ ?_ fun _ _ => ⟨stage₃, stage₄⟩
    exact ends_unlink stage₄ stage₅ ⟨done, own_done, view₅⟩ fun _ _ => ⟨stage₄, stage₅⟩
  have stage : Stage row.planId start (disk.view row.planId) :=
    view_eq ▸ .applying row own start (.inl rfl)
  unfold stageAndCommit
  rw [ends_ite]
  constructor
  · intro _
    exact rest disk view_eq
  · intro _
    rw [ends_bind]
    refine ends_step stage ?_ fun _ _ => stage
    rw [ends_bind]
    exact fun choice permitted => ⟨effect_kept choice stage stage,
      ends_effect permitted (rest _ view_eq) fun _ _ => ⟨stage, stage⟩⟩

theorem apply_ends {owner : Option String} {scope : Scope}
    (stage : Stage planId start (disk.view planId)) :
    Ends (staged planId start) (apply planId owner scope) disk
      (fun _ d => ∃ row, Own planId start row ∧ d.view planId =
        ⟨.link row.newPointer, none, none, some (committedReceiptOf row), none, none⟩)
      Anywhere := by
  have failed : ¬ False → ∀ e : Raised, Anywhere e disk := fun _ _ => trivial
  unfold apply
  rw [ends_bind]
  refine ends_plan stage (fun planned => ?_) failed
  rw [ends_bind]
  refine ends_refuse (fun _ => ?_) fun _ _ => trivial
  rw [ends_bind]
  refine ends_step stage ?_ failed
  rw [ends_bind]
  refine ends_lexists stage ?_
  rw [ends_bind]
  refine ends_refuse (fun calm => ?_) fun _ _ => trivial
  rw [ends_bind]
  refine ends_lexists stage ?_
  rw [ends_bind]
  refine ends_refuse (fun unpending => ?_) fun _ _ => trivial
  rw [ends_bind]
  refine anyExists_ends stage fun found known => ?_
  rw [ends_bind]
  refine ends_refuse (fun fresh => ?_) fun _ _ => trivial
  -- nothing of the plan is there, so this is its first apply
  have absent : ∀ file ∈ terminalPaths planId, disk.files file = none := by
    intro file mem
    rw [known] at fresh
    cases there : disk.files file with
    | none => rfl
    | some content => exact absurd ⟨file, mem, by rw [there]; rfl⟩ fresh
  have view_eq : disk.view planId = ⟨start, none, none, none, none, none⟩ := by
    have calm : disk.files .rollbackPending = none := by simpa using calm
    have unpending : disk.files .pending = none := by simpa using unpending
    have uncommitted := absent (.committed planId) (by simp [terminalPaths])
    have unrolled := absent (.rollback planId) (by simp [terminalPaths])
    have unclosed := absent (.committedRollback planId) (by simp [terminalPaths])
    have at_start : disk.pointer = start := (stage.of_nothing unpending uncommitted unrolled).2
    simp [Disk.view, calm, unpending, uncommitted, unrolled, unclosed, at_start]
  rw [ends_bind]
  refine ends_step stage ?_ failed
  rw [ends_bind]
  refine ends_releaseExists stage fun reuse => ?_
  have rest : Ends (staged planId start) (do
      let previous ← readPointer
      let row : Row :=
        { planId := planId
          ownerPlanId := owner
          scope := scope
          phase := .prepared
          releaseName := planned.releaseName
          previousPointer := previous
          newPointer := releasePointer planned.releaseName }
      atomicJson .pending (.pending row)
      if reuse then stageAndCommit row true
      else do
        call .makeStaging
        Program.orElse (stageAndCommit row false) fun error => do
          let remains ← call .stagingExists
          if remains then perform .restrictStaging else pure ()
          checked (.error error)) disk
      (fun _ d => ∃ row, Own planId start row ∧ d.view planId =
        ⟨.link row.newPointer, none, none, some (committedReceiptOf row), none, none⟩)
      Anywhere := by
    rw [ends_bind]
    refine ends_readPointer stage (fun previous read => ?_) fun _ _ => trivial
    set row : Row :=
      { planId := planId
        ownerPlanId := owner
        scope := scope
        phase := .prepared
        releaseName := planned.releaseName
        previousPointer := previous
        newPointer := releasePointer planned.releaseName }
    have at_start : disk.pointer = start := congrArg View.pointer view_eq
    have own : Own planId start row := ⟨rfl, at_start ▸ read⟩
    have prepared : (disk.put .pending (some (.pending row))).view planId =
        ⟨start, some (.pending row), none, none, none, none⟩ := by
      rw [view_put_pending, view_eq]
    have staged_row : Stage planId start ((disk.put .pending (some (.pending row))).view planId) :=
      prepared ▸ .applying row own start (.inl rfl)
    simp only [ends_bind]
    refine ends_write stage staged_row ?_ fun _ _ => ⟨trivial, trivial⟩
    rw [ends_ite]
    constructor
    · intro _
      exact (stageAndCommit_ends own prepared).mono checking_monotone (fun _ _ held => held)
        fun _ _ _ => trivial
    · intro _
      simp only [ends_bind]
      refine fun choice permitted => ⟨effect_kept choice staged_row staged_row,
        ends_effect permitted ?_ fun _ _ => ⟨trivial, trivial⟩⟩
      set scratch : Disk :=
        { disk.put .pending (some (.pending row)) with staging := true } with scratch_eq
      have prepared_scratch : scratch.view planId =
          ⟨start, some (.pending row), none, none, none, none⟩ := prepared
      rw [ends_orElse]
      refine (stageAndCommit_ends own prepared_scratch).mono checking_monotone (fun _ _ held => held)
        fun error d kept => ?_
      rw [ends_bind]
      refine ends_stagingExists kept fun remains => ?_
      rw [ends_ite]
      constructor
      · intro _
        rw [ends_bind]
        exact ends_step kept trivial fun _ _ => trivial
      · intro _
        trivial
  rw [ends_ite]
  constructor
  · intro _
    rw [ends_bind]
    exact ends_step stage rest failed
  · intro _
    exact rest

/- A plan that came to its end is refused before anything is written. -/
theorem apply_refused {owner : Option String} {scope : Scope} (terminal : Terminal planId disk) :
    Ends (keeping (· = disk) False) (apply planId owner scope) disk (fun _ _ => False)
      (fun _ d => d = disk) := by
  have failed : ¬ False → ∀ e : Raised, (fun _ d => d = disk) e disk := fun _ _ => rfl
  unfold apply
  rw [ends_bind]
  refine ends_plan rfl (fun planned => ?_) failed
  rw [ends_bind]
  refine ends_refuse (fun _ => ?_) fun _ _ => rfl
  rw [ends_bind]
  refine ends_step rfl ?_ failed
  rw [ends_bind]
  refine ends_lexists rfl ?_
  rw [ends_bind]
  refine ends_refuse (fun _ => ?_) fun _ _ => rfl
  rw [ends_bind]
  refine ends_lexists rfl ?_
  rw [ends_bind]
  refine ends_refuse (fun _ => ?_) fun _ _ => rfl
  rw [ends_bind]
  refine anyExists_ends rfl fun found known => ?_
  rw [ends_bind]
  exact ends_refuse (fun fresh => absurd (known.mpr terminal) fresh) fun _ _ => rfl

end NoiContest.SourceRelease
