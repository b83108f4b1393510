import NoiContest.Lib.Runs
import NoiContest.SourceRelease.Transaction

/- The stages of one plan between any two calls, as what the pointer and the files of the plan look
   like, and the calls that lead from one to the next. -/
namespace NoiContest.SourceRelease
open Flow Outcome

/-- The plan that a marker or a receipt is of. -/
def Content.planId : Content → Option String
  | .pending row => some row.planId
  | .receipt own => some own.row.planId
  | .intent own => some own.planId
  | .other _ => none

/- What a plan can see of the disk. -/
structure View where
  pointer : Pointer
  pending : Option Content
  rollbackPending : Option Content
  committed : Option Content
  rollback : Option Content
  committedRollback : Option Content

def Disk.view (disk : Disk) (planId : String) : View where
  pointer := disk.pointer
  pending := disk.files .pending
  rollbackPending := disk.files .rollbackPending
  committed := disk.files (.committed planId)
  rollback := disk.files (.rollback planId)
  committedRollback := disk.files (.committedRollback planId)

def committedReceiptOf (row : Row) : Content := .receipt ⟨row, .committed⟩

def rolledBackReceiptOf (row : Row) : Content :=
  .receipt ⟨{ row with phase := .rollbackVerified }, .rolledBack⟩

def intentOf (row : Row) : Content := .intent (rollbackIntent ⟨row, .committed⟩)

def verifiedOf (row : Row) : Content := .intent (verifiedIntent ⟨row, .committed⟩)

/-- The marker of the plan's apply, which remembers the pointer from before. -/
structure Own (planId : String) (start : Pointer) (row : Row) : Prop where
  plan : row.planId = planId
  previous : pointerTarget start = .ok row.previousPointer

/-- No file is of the plan. -/
structure Unused (planId : String) (view : View) : Prop where
  committed : view.committed = none
  rollback : view.rollback = none
  committedRollback : view.committedRollback = none
  pending : ∀ content, view.pending = some content → content.planId ≠ some planId
  rollbackPending : ∀ content, view.rollbackPending = some content → content.planId ≠ some planId

inductive Stage (planId : String) (start : Pointer) : View → Prop
  | unused (view : View) (unused : Unused planId view) (same : view.pointer = start) :
    Stage planId start view
  | applying (row : Row) (own : Own planId start row) (pointer : Pointer)
    (moved : pointer = start ∨ pointer = .link row.newPointer) :
    Stage planId start ⟨pointer, some (.pending row), none, none, none, none⟩
  | receiptWritten (row : Row) (own : Own planId start row) :
    Stage planId start
      ⟨.link row.newPointer, some (.pending row), none, some (committedReceiptOf row), none, none⟩
  | recovering (row : Row) (own : Own planId start row) :
    Stage planId start ⟨start, some (.pending row), none, none, some (rolledBackReceiptOf row), none⟩
  | committed (row : Row) (own : Own planId start row) :
    Stage planId start ⟨.link row.newPointer, none, none, some (committedReceiptOf row), none, none⟩
  | rolledBack (row : Row) (own : Own planId start row) :
    Stage planId start ⟨start, none, none, none, some (rolledBackReceiptOf row), none⟩
  | declared (row : Row) (own : Own planId start row) (pointer : Pointer)
    (moved : pointer = start ∨ pointer = .link row.newPointer) :
    Stage planId start
      ⟨pointer, none, some (intentOf row), some (committedReceiptOf row), none, none⟩
  | verified (row : Row) (own : Own planId start row) :
    Stage planId start
      ⟨start, none, some (intentOf row), some (committedReceiptOf row), none,
        some (verifiedOf row)⟩
  | closed (row : Row) (own : Own planId start row) :
    Stage planId start
      ⟨start, none, none, some (committedReceiptOf row), none, some (verifiedOf row)⟩

/- Pointers -/

theorem pointer_of_target {pointer : Pointer} {target : Option String}
    (read : pointerTarget pointer = .ok target) : Pointer.of target = pointer := by
  cases pointer with
  | absent =>
    cases read
    rfl
  | other => cases read
  | link own =>
    simp only [pointerTarget] at read
    split at read
    · cases read
      rfl
    · cases read

theorem Own.pointer {planId : String} {start : Pointer} {row : Row}
    (own : Own planId start row) : Pointer.of row.previousPointer = start :=
  pointer_of_target own.previous

/- The files of a plan -/

variable {disk : Disk} {planId : String} {content : Option Content}

@[simp] theorem view_put_pending : (disk.put .pending content).view planId =
    { disk.view planId with pending := content } := by
  simp [Disk.view, Disk.put]

@[simp] theorem view_put_rollbackPending : (disk.put .rollbackPending content).view planId =
    { disk.view planId with rollbackPending := content } := by
  simp [Disk.view, Disk.put]

@[simp] theorem view_put_committed : (disk.put (.committed planId) content).view planId =
    { disk.view planId with committed := content } := by
  simp [Disk.view, Disk.put]

@[simp] theorem view_put_rollback : (disk.put (.rollback planId) content).view planId =
    { disk.view planId with rollback := content } := by
  simp [Disk.view, Disk.put]

@[simp] theorem view_put_committedRollback :
    (disk.put (.committedRollback planId) content).view planId =
      { disk.view planId with committedRollback := content } := by
  simp [Disk.view, Disk.put]

@[simp] theorem view_point (pointer : Pointer) : (disk.point pointer).view planId =
    { disk.view planId with pointer := pointer } := rfl

@[simp] theorem view_install (name : String) : (disk.install name).view planId =
    disk.view planId := rfl

@[simp] theorem view_staging (staging : Bool) :
    ({ disk with staging := staging } : Disk).view planId = disk.view planId := rfl

/- Calls -/

/-- Every call keeps a property of the disk; in a strict run no call raises by itself. -/
abbrev keeping (keep : Disk → Prop) (strict : Prop) : Transformer Call Answer Raised Disk :=
  checking respond (fun _ choice _ => strict → choice.raises = none)
    fun c choice disk => keep (respond c choice disk).2

section Calls
variable {keep : Disk → Prop} {strict : Prop} {α : Type} {post : α → Disk → Prop}
  {raised : Raised → Disk → Prop} {file : File}

theorem ends_lexists {post : Bool → Disk → Prop} (kept : keep disk)
    (next : post (disk.files file).isSome disk) :
    Ends (keeping keep strict) (lexists file) disk post raised :=
  fun _ _ => ⟨kept, next⟩

theorem ends_releaseExists {name : String} {post : Bool → Disk → Prop} (kept : keep disk)
    (next : ∀ there, post there disk) :
    Ends (keeping keep strict) (call (.releaseExists name)) disk post raised :=
  fun _ _ => ⟨kept, next _⟩

theorem ends_stagingExists {post : Bool → Disk → Prop} (kept : keep disk)
    (next : ∀ there, post there disk) :
    Ends (keeping keep strict) (call .stagingExists) disk post raised :=
  fun _ _ => ⟨kept, next _⟩

theorem ends_answer {choice : Choice} {result : Except Raised α}
    (permitted : strict → choice.raises = none) (next : ∀ a, result = .ok a → post a disk)
    (refused : ∀ e, result = .error e → raised e disk) (failed : ¬ strict → ∀ e, raised e disk) :
    Ends (keeping keep strict) (Program.ofExcept (choice.answer result) : Procedure α) disk post
      raised := by
  unfold Choice.answer
  cases raises : choice.raises with
  | none =>
    cases result with
    | ok a => exact next a rfl
    | error e => exact refused e rfl
  | some e =>
    refine failed (fun holds => ?_) e
    rw [permitted holds] at raises
    cases raises

theorem ends_plan {post : Planned → Disk → Prop} (kept : keep disk)
    (next : ∀ planned, post planned disk) (failed : ¬ strict → ∀ e, raised e disk) :
    Ends (keeping keep strict) (call .plan) disk post raised :=
  fun _ permitted => ⟨kept, ends_answer permitted (fun _ _ => next _) (fun _ eq => by cases eq)
    failed⟩

theorem ends_step {step : Step} {post : Unit → Disk → Prop} (kept : keep disk)
    (next : post () disk) (failed : ¬ strict → ∀ e, raised e disk) :
    Ends (keeping keep strict) (perform step) disk post raised :=
  fun _ permitted => ⟨kept, ends_answer permitted (fun _ _ => next) (fun _ eq => by cases eq)
    failed⟩

theorem ends_read {post : Content → Disk → Prop} (kept : keep disk)
    (next : ∀ content, disk.files file = some content → post content disk)
    (failed : ¬ strict ∨ disk.files file = none → ∀ e, raised e disk) :
    Ends (keeping keep strict) (read file) disk post raised := by
  intro choice permitted
  refine ⟨kept, ?_⟩
  cases found : disk.files file with
  | none =>
    simp only [respond, found]
    exact failed (.inr found) _
  | some content =>
    simp only [respond, found]
    refine ends_answer permitted (fun _ eq => ?_) (fun _ eq => by cases eq)
      fun loose => failed (.inl loose)
    cases eq
    exact next content found

theorem ends_readPointer {post : Option String → Disk → Prop} (kept : keep disk)
    (next : ∀ target, pointerTarget disk.pointer = .ok target → post target disk)
    (failed : ¬ strict ∨ (pointerTarget disk.pointer).isOk = false → ∀ e, raised e disk) :
    Ends (keeping keep strict) readPointer disk post raised :=
  fun _ permitted => ⟨kept, ends_answer permitted next
    (fun e eq => failed (.inr (by rw [eq]; rfl)) e) fun loose => failed (.inl loose)⟩

theorem effect_kept (choice : Choice) {after : Disk} (before : keep disk) (kept : keep after) :
    keep (choice.effect disk after) := by
  unfold Choice.effect
  split
  · exact kept
  · exact before

theorem ends_effect {choice : Choice} {after : Disk} {post : Unit → Disk → Prop}
    (permitted : strict → choice.raises = none) (next : post () after)
    (failed : ¬ strict → ∀ e, raised e disk ∧ raised e after) :
    Ends (keeping keep strict) (Program.ofExcept (choice.answer (.ok ())) : Procedure Unit)
      (choice.effect disk after) post raised := by
  unfold Choice.answer Choice.effect
  cases raises : choice.raises with
  | none => exact next
  | some e =>
    have loose : ¬ strict := fun holds => by
      rw [permitted holds] at raises
      cases raises
    cases effect : choice.tookEffect with
    | true => exact (failed loose e).2
    | false => exact (failed loose e).1

theorem ends_write {content : Content} {post : Unit → Disk → Prop} (before : keep disk)
    (kept : keep (disk.put file (some content))) (next : post () (disk.put file (some content)))
    (failed : ¬ strict → ∀ e, raised e disk ∧ raised e (disk.put file (some content))) :
    Ends (keeping keep strict) (atomicJson file content) disk post raised :=
  fun choice permitted => ⟨effect_kept choice before kept, ends_effect permitted next failed⟩

theorem ends_unlink {post : Unit → Disk → Prop} (before : keep disk)
    (kept : keep (disk.put file none)) (next : post () (disk.put file none))
    (failed : ¬ strict → ∀ e, raised e disk ∧ raised e (disk.put file none)) :
    Ends (keeping keep strict) (unlink file) disk post raised :=
  fun choice permitted => ⟨effect_kept choice before kept, ends_effect permitted next failed⟩

theorem ends_replacePointer {target : Option String} {post : Unit → Disk → Prop}
    (before : keep disk) (kept : keep (disk.point (.of target)))
    (next : post () (disk.point (.of target)))
    (failed : ¬ strict → ∀ e, raised e disk ∧ raised e (disk.point (.of target))) :
    Ends (keeping keep strict) (call (.replacePointer target)) disk post raised :=
  fun choice permitted => ⟨effect_kept choice before kept, ends_effect permitted next failed⟩

theorem ends_refuse {bad : Prop} [Decidable bad] {message : String} {post : Unit → Disk → Prop}
    (next : ¬ bad → post () disk) (failed : bad → ∀ e, raised e disk) :
    Ends (keeping keep strict) (refuse bad message) disk post raised := by
  unfold refuse checked raiseIf
  by_cases holds : bad
  · rw [if_pos holds]
    exact failed holds _
  · rw [if_neg holds]
    exact next holds

theorem ends_checked {result : Except Raised α} (next : ∀ a, result = .ok a → post a disk)
    (failed : result.isOk = false → ∀ e, raised e disk) :
    Ends (keeping keep strict) (checked result) disk post raised := by
  cases result with
  | ok a => exact next a rfl
  | error e => exact failed rfl e

end Calls

end NoiContest.SourceRelease
