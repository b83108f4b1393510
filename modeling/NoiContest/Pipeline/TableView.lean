import NoiContest.Pipeline.Calls

/- What a call means for the tables of the contest when everything outside is unknown: it may
   raise without an effect, reads see the rows, statements change them, and any other call
   answers anything and leaves them alone. -/
namespace NoiContest.Pipeline
open SeatPool Flow

def tableView : Transformer Call Answer Raised ContestTables := fun c tables next =>
  (World.canRaise c = true → ∀ raised, next (.error raised) tables) ∧
  match c, next with
  | .getContest, next => next (.ok tables.contest) tables
  | .seatPool, next => next (.ok tables.pool) tables
  | .seatPoolResources, next => ∀ resources, resources.Perm tables.resources →
      next (.ok resources) tables
  | .putSeatPool expectedRevision state, next => ∀ written,
      tables.putSeatPool expectedRevision state = .ok written → next (.ok ()) written
  | .commitScheduleSync b e b' e' rule observed revision state, next => ∀ contest written,
      tables.commitScheduleSync b e b' e' rule observed revision state = .ok (contest, written) →
        next (.ok contest) written
  | .bindPoolSeat uid uname slotNo, next => ∀ written,
      tables.bindPoolSeat uid uname slotNo = .ok written → next (.ok ()) written
  | .commitPoolExpansion tid revision state added, next => ∀ written,
      tables.commitPoolExpansion tid revision state added = .ok written → next (.ok ()) written
  | .commitPoolReplacement tid revision state slotNo, next => ∀ bound written,
      tables.commitPoolReplacement tid revision state slotNo = .ok (bound, written) →
        next (.ok bound) written
  | .commitPoolRepair tid revision state resource slotNo, next => ∀ written,
      tables.commitPoolRepair tid revision state resource slotNo = .ok written →
        next (.ok ()) written
  | .setState state message, next => next (.ok ()) (tables.setState state message)
  | _, next => ∀ answer, next (.ok answer) tables

namespace World

theorem perform_views (c : Call) (choice : Choice) (w : World)
    (next : Except Raised (Answer c) → ContestTables → Prop)
    (viewed : tableView c w.tables next) :
    next (w.perform choice c).1 (w.perform choice c).2.tables := by
  obtain ⟨raises, effect⟩ := viewed
  cases c
  case enter tid =>
    simp only [perform, World.enter]
    split
    · exact raises rfl _
    · split
      · exact raises rfl _
      · exact effect ()
  case seatPoolResources => exact effect _ (List.perm_insertionSort _ _)
  case putSeatPool =>
    simp only [perform, written]
    split
    · exact effect _ (by assumption)
    · exact raises rfl _
  case commitScheduleSync =>
    simp only [perform, committed]
    split
    · exact effect _ _ (by assumption)
    · exact raises rfl _
  case bindPoolSeat =>
    simp only [perform, written]
    split
    · exact effect _ (by assumption)
    · exact raises rfl _
  case commitPoolExpansion =>
    simp only [perform, written]
    split
    · exact effect _ (by assumption)
    · exact raises rfl _
  case commitPoolReplacement =>
    simp only [perform, committed]
    split
    · exact effect _ _ (by assumption)
    · exact raises rfl _
  case commitPoolRepair =>
    simp only [perform, written]
    split
    · exact effect _ (by assumption)
    · exact raises rfl _
  case run command =>
    simp only [perform, onAnswers_tables]
    exact effect _
  case getContest => exact effect
  case seatPool => exact effect
  case setState => exact effect
  all_goals exact effect _

theorem respond_views (c : Call) (choice : Choice) (w : World)
    (next : Except Raised (Answer c) → ContestTables → Prop)
    (viewed : tableView c w.tables next) :
    next (respond c choice w).1 (respond c choice w).2.tables := by
  have answered : next (w.answer choice c).1 (w.answer choice c).2.tables := by
    unfold answer
    split
    · split
      · simp only [broken_tables]
        exact viewed.1 (by assumption) _
      · exact perform_views c choice w next viewed
    · exact perform_views c choice w next viewed
  simpa [respond, edits_tables] using answered

end World

section Rules
variable {T : ContestTables} {raised : Raised → ContestTables → Prop}

@[simp] theorem ends_getContest {post : Option Contest → ContestTables → Prop} :
    Ends tableView getContest T post raised ↔
      (∀ e, raised e T) ∧ post T.contest T := by
  simp [getContest, call, tableView, World.canRaise]

@[simp] theorem ends_seatPool {post : Option SeatPoolState → ContestTables → Prop} :
    Ends tableView seatPool T post raised ↔ (∀ e, raised e T) ∧ post T.pool T := by
  simp [seatPool, call, tableView, World.canRaise]

@[simp] theorem ends_enter {tid : String} {post : Unit → ContestTables → Prop} :
    Ends tableView (enter tid) T post raised ↔ (∀ e, raised e T) ∧ post () T :=
  ⟨fun ends => ⟨ends.1 rfl, ends.2 ()⟩, fun ends => ⟨fun _ => ends.1, fun _ => ends.2⟩⟩

@[simp] theorem ends_leave {post : Unit → ContestTables → Prop} :
    Ends tableView leave T post raised ↔ post () T :=
  ⟨fun ends => ends.2 (), fun ends => ⟨fun impossible => absurd impossible (by decide),
    fun _ => ends⟩⟩

@[simp] theorem ends_cvmStatus {post : String × String → ContestTables → Prop} :
    Ends tableView cvmStatus T post raised ↔
      (∀ e, raised e T) ∧ ∀ status, post status T := by
  simp [cvmStatus, call, tableView, World.canRaise]

@[simp] theorem ends_waitSsh {post : Bool → ContestTables → Prop} :
    Ends tableView waitSsh T post raised ↔
      (∀ e, raised e T) ∧ ∀ reachable, post reachable T := by
  simp [waitSsh, call, tableView, World.canRaise]

@[simp] theorem ends_run {command : HostCommand} {post : String → ContestTables → Prop} :
    Ends tableView (run command) T post raised ↔
      (∀ e, raised e T) ∧ ∀ output, post output T := by
  simp [run, call, tableView, World.canRaise]

@[simp] theorem ends_commitScheduleSync {b e b' e' observed revision : Int} {rule : String}
    {state : SeatPoolState} {post : Contest → ContestTables → Prop} :
    Ends tableView (commitScheduleSync b e b' e' rule observed revision state) T post
        raised ↔
      (∀ e, raised e T) ∧ ∀ contest written,
        T.commitScheduleSync b e b' e' rule observed revision state = .ok (contest, written) →
          post contest written := by
  simp [commitScheduleSync, call, tableView, World.canRaise]

@[simp] theorem ends_raise {α : Type} {e : Raised} {post : α → ContestTables → Prop} :
    Ends tableView (raise e) T post raised ↔ raised e T := Iff.rfl

@[simp] theorem ends_raiseIf {bad : Prop} [Decidable bad] {message : String}
    {post : Unit → ContestTables → Prop} :
    Ends tableView (raiseIf bad message) T post raised ↔
      (bad → raised (.runtime message) T) ∧ (¬ bad → post () T) := by
  simp [Pipeline.raiseIf]

theorem ends_onPool {α : Type} {result : Except PoolError α} {post : α → ContestTables → Prop} :
    Ends tableView (onPool result) T post raised ↔
      (∀ e, result = .error e → raised (.pool e) T) ∧ ∀ a, result = .ok a → post a T := by
  cases result <;> simp [onPool, Except.mapError]

end Rules

variable {α : Type} {x : Procedure α} {w : World} {post : α → ContestTables → Prop}
  {raised : Raised → ContestTables → Prop}

theorem exec_of_tableView (ends : Ends tableView x w.tables post raised)
    (choices : Nat → Choice) :
    Meets (fun a w' => post a w'.tables) (fun e w' => raised e w'.tables)
      (x.exec World.respond choices w) := by
  have held : Ends (demonic World.respond fun _ _ _ => True) x w
      (fun a w' => post a w'.tables) (fun e w' => raised e w'.tables) :=
    ends_of_view demonic_monotone
      (fun c s next viewed choice _ => World.respond_views c choice s next viewed) ends
  exact exec_of_ends held (obeys_trivial x choices w)

end NoiContest.Pipeline
