import NoiContest.Pipeline.AnswerTrees
import NoiContest.Pipeline.Segments
import NoiContest.Pipeline.TableView

/- The calls of the pool procedures against the answer trees, under the condition that no
   call of a replacement fails while a free seat holds copied files. -/
namespace NoiContest.Pipeline
open SeatPool SeatPoolState Flow

def FreeSeatsEmpty (w : World) : Prop :=
  ∀ pool ∈ w.tables.pool, ∀ seat ∈ pool.seats, seat.IsFree → w.answers seat.slotNo = []

def OwnFilesOnly (w : World) : Prop :=
  ∀ pool ∈ w.tables.pool, ∀ seat ∈ pool.seats, ∀ uid ∈ seat.uid,
    ∀ file ∈ w.answers seat.slotNo, file.author = uid

instance : DecidablePred FreeSeatsEmpty := fun _ => by
  unfold FreeSeatsEmpty
  infer_instance

instance : DecidablePred OwnFilesOnly := fun _ => by
  unfold OwnFilesOnly
  infer_instance

def sortedResources (tables : ContestTables) : List PoolResource :=
  tables.resources.insertionSort (fun a b => a.slotNo ≤ b.slotNo)

def copySource : Call → Option Nat
  | .run (.copyAnswers source _) => some source
  | _ => none

/-- A call that fails leaves the free seats empty, and a copy starts only when the gateway
    configuration without the failed seat can be built. -/
def CopyGoesThrough (c : Call) (choice : Choice) (w : World) : Prop :=
  ((World.respond c choice w).1.isOk = true ∨ FreeSeatsEmpty (World.respond c choice w).2) ∧
    ∀ source ∈ copySource c,
      (poolGatewayConf ((sortedResources w.tables).filter (·.slotNo != source))).isOk = true

instance (c : Call) (choice : Choice) (w : World) : Decidable (CopyGoesThrough c choice w) := by
  unfold CopyGoesThrough
  infer_instance

/-- Every world that a call leaves behind has to satisfy the property. -/
def isolating : Transformer Call Answer Raised World := fun c w next =>
  ∀ choice, CopyGoesThrough c choice w →
    OwnFilesOnly (World.respond c choice w).2 ∧
      next (World.respond c choice w).1 (World.respond c choice w).2

theorem isolating_monotone : Monotone isolating :=
  fun _ _ _ _ weaker holds choice through =>
    ⟨(holds choice through).1, weaker _ _ (holds choice through).2⟩

/- What is known between two calls of a procedure. The blank slot was emptied and has no
   student. -/
structure Steady (pool : SeatPoolState) (resources : List PoolResource)
    (lent : Option (Nat × Int)) (blank : Option Nat) (w : World) : Prop where
  stored : w.tables.pool = some pool
  rows : w.tables.resources = resources
  isolated : Isolated lent pool w.answers
  blank : ∀ slot ∈ blank, w.answers slot = [] ∧
    ∀ seat ∈ pool.seats, seat.slotNo = slot → seat.uid = none

/-- The calls that neither change the pool and its resources nor copy answers. -/
def Harmless : Call → Prop
  | .putSeatPool .. | .commitScheduleSync .. | .commitPoolExpansion .. |
    .commitPoolReplacement .. | .commitPoolRepair .. | .run (.copyAnswers ..) => False
  | _ => True

variable {pool : SeatPoolState} {resources : List PoolResource} {lent : Option (Nat × Int)}
  {blank : Option Nat} {w : World}

namespace Steady

theorem own (steady : Steady pool resources lent blank w) : OwnFilesOnly w := by
  intro pool' stored seat mem uid assigned file inside
  have same : pool' = pool := by
    have stored : w.tables.pool = some pool' := stored
    rw [steady.stored] at stored
    exact (Option.some.inj stored).symm
  subst same
  exact steady.isolated.own seat mem uid assigned file inside

theorem returned (steady : Steady pool resources lent blank w) (clean : FreeSeatsEmpty w) :
    Steady pool resources none blank w where
  stored := steady.stored
  rows := steady.rows
  isolated := steady.isolated.returned (clean pool steady.stored)
  blank := steady.blank

/- Fewer files, and the same tables as far as the pool goes. -/
theorem fewer {w' : World} (steady : Steady pool resources lent blank w)
    (stored : w'.tables.pool = w.tables.pool) (rows : w'.tables.resources = w.tables.resources)
    (kept : ∀ slot, ∀ file ∈ w'.answers slot, file ∈ w.answers slot) :
    Steady pool resources lent blank w' where
  stored := stored.trans steady.stored
  rows := rows.trans steady.rows
  isolated := steady.isolated.fewer kept
  blank slot mem := by
    obtain ⟨empty, unassigned⟩ := steady.blank slot mem
    refine ⟨?_, unassigned⟩
    apply List.eq_nil_iff_forall_not_mem.mpr
    intro file inside
    simpa [empty] using kept slot file inside

theorem edited (steady : Steady pool resources lent blank w) (edit : Edit) :
    Steady pool resources lent blank (w.edited edit) := by
  unfold World.edited
  rw [steady.stored]
  simp only [Option.bind_some]
  split
  · exact steady
  · rename_i student found
    obtain ⟨mem, assigned⟩ := assignment_some found
    have elsewhere : ∀ files : List AnswerFile, ∀ slot, slot ≠ student.slotNo →
        (w.setAnswers student.slotNo files).answers slot = w.answers slot := by
      intro files slot other
      simp [World.setAnswers, other]
    refine ⟨steady.stored, steady.rows, ?_, ?_⟩
    · apply steady.isolated.written mem assigned (elsewhere _)
      intro file inside
      simp only [World.setAnswers, if_true] at inside
      split at inside
      · exact .inl (List.mem_filter.mp inside).1
      · rcases List.mem_append.mp inside with old | new
        · exact .inl (List.mem_filter.mp old).1
        · rw [List.mem_singleton.mp new]
          exact .inr rfl
    · intro slot mem'
      obtain ⟨empty, unassigned⟩ := steady.blank slot mem'
      refine ⟨?_, unassigned⟩
      rw [elsewhere _ slot ?_]
      · exact empty
      · rintro rfl
        rw [unassigned student mem rfl] at assigned
        cases assigned

theorem edits (steady : Steady pool resources lent blank w) (edits : List Edit) :
    Steady pool resources lent blank (edits.foldl World.edited w) := by
  induction edits generalizing w with
  | nil => exact steady
  | cons edit rest ih => exact ih (steady.edited edit)

end Steady

theorem remove_fewer (w : World) (slotNo : Nat) (reached : AnswerFile → Bool) (slot : Nat) :
    ∀ file ∈ (w.remove slotNo reached).answers slot, file ∈ w.answers slot := by
  intro file inside
  unfold World.remove World.setAnswers at inside
  simp only at inside
  split at inside
  · rename_i same
    rw [same]
    exact (List.mem_filter.mp inside).1
  · exact inside

theorem onAnswers_fewer (w : World) {command : HostCommand}
    (harmless : Harmless (.run command)) (reached : AnswerFile → Bool) (slot : Nat) :
    ∀ file ∈ (w.onAnswers command reached).answers slot, file ∈ w.answers slot := by
  cases command
  case copyAnswers => cases harmless
  case removeSlot spec => exact remove_fewer w spec.slotNo reached slot
  case removeHome slotNo => exact remove_fewer w slotNo reached slot
  all_goals exact fun _ inside => inside

theorem harmless_perform {c : Call} (harmless : Harmless c) (choice : Choice)
    (steady : Steady pool resources lent blank w) :
    Steady pool resources lent blank (w.perform choice c).2 := by
  have same : ∀ w' : World, w'.tables.pool = w.tables.pool →
      w'.tables.resources = w.tables.resources → w'.answers = w.answers →
      Steady pool resources lent blank w' := fun w' stored rows answers =>
    steady.fewer stored rows fun slot file inside => answers ▸ inside
  cases c
  case enter tid =>
    simp only [World.perform, World.enter]
    split
    · exact steady
    · split
      · exact steady
      · exact same _ rfl rfl rfl
  case leave => exact same _ rfl rfl rfl
  case setState state message => exact same _ rfl rfl rfl
  case bindPoolSeat uid uname slotNo =>
    simp only [World.perform, World.written]
    split
    · rename_i written bound
      obtain ⟨seats, rfl⟩ := ContestTables.bindPoolSeat_ok bound
      exact same _ rfl rfl rfl
    · exact steady
  case run command =>
    exact steady.fewer (by simp [World.perform, World.onAnswers_tables])
      (by simp [World.perform, World.onAnswers_tables]) (onAnswers_fewer w harmless _)
  all_goals first | exact steady | cases harmless

theorem harmless_respond {c : Call} (harmless : Harmless c) (choice : Choice)
    (steady : Steady pool resources lent blank w) :
    Steady pool resources lent blank (World.respond c choice w).2 := by
  have performed := harmless_perform harmless choice steady
  have broken : Steady pool resources lent blank (w.broken choice c) := by
    cases c
    case run command =>
      exact steady.fewer (by simp [World.broken, World.onAnswers_tables])
        (by simp [World.broken, World.onAnswers_tables]) (onAnswers_fewer w harmless _)
    all_goals exact steady
  apply Steady.edits
  unfold World.answer
  split
  · split
    · exact broken
    · exact performed
  · exact performed

theorem harmless_call {c : Call} (harmless : Harmless c)
    (steady : Steady pool resources none blank w) :
    isolating c w fun _ w' => Steady pool resources none blank w' := by
  intro choice _
  have after := harmless_respond harmless choice steady
  exact ⟨after.own, after⟩

/- A procedure of harmless calls keeps what is known. -/
theorem harmless_keeps {ε α : Type} {x : Program Call Answer Raised ε α}
    (harmless : Only Harmless x) : Keeps isolating (Steady pool resources none blank) x :=
  harmless.keeps isolating_monotone fun _ is _ steady => harmless_call is steady

/- While a spare is lent, a failed call has left it empty. -/
theorem harmless_call_lent {c : Call} (harmless : Harmless c)
    (steady : Steady pool resources lent blank w) :
    Ends isolating (call c) w (fun _ w' => Steady pool resources lent blank w')
      (fun _ w' => Steady pool resources none blank w') := by
  intro choice through
  have after := harmless_respond harmless choice steady
  refine ⟨after.own, ?_⟩
  cases answered : (World.respond c choice w).1 with
  | ok a => exact after
  | error e =>
    rcases through.1 with succeeded | clean
    · rw [answered] at succeeded
      cases succeeded
    · exact after.returned clean

/-- No file of a student is in another student's slot, in a free slot, or outside the pool. -/
def IsolatedWorld (w : World) : Prop :=
  ∀ pool, w.tables.pool = some pool → Isolated none pool w.answers

theorem IsolatedWorld.steady (isolated : IsolatedWorld w) (stored : w.tables.pool = some pool) :
    Steady pool w.tables.resources none none w :=
  ⟨stored, rfl, isolated pool stored, fun _ impossible => by cases impossible⟩

theorem Steady.world (steady : Steady pool resources none blank w) : IsolatedWorld w := by
  intro pool' stored
  rw [steady.stored] at stored
  cases stored
  exact steady.isolated

theorem Steady.unblank (steady : Steady pool resources lent blank w) :
    Steady pool resources lent none w :=
  ⟨steady.stored, steady.rows, steady.isolated, fun _ impossible => by cases impossible⟩

theorem harmless_pool {c : Call} (harmless : Harmless c) (choice : Choice) (w : World) :
    (World.respond c choice w).2.tables.pool = w.tables.pool := by
  apply World.respond_views c choice w fun _ tables => tables.pool = w.tables.pool
  cases c
  case bindPoolSeat uid uname slotNo =>
    refine ⟨fun _ _ => rfl, fun written bound => ?_⟩
    obtain ⟨seats, rfl⟩ := ContestTables.bindPoolSeat_ok bound
    rfl
  case putSeatPool => cases harmless
  case commitScheduleSync => cases harmless
  case commitPoolExpansion => cases harmless
  case commitPoolReplacement => cases harmless
  case commitPoolRepair => cases harmless
  all_goals simp [tableView, ContestTables.setState, ContestTables.updateContest]

theorem harmless_world {ε α : Type} {x : Program Call Answer Raised ε α}
    (harmless : Only Harmless x) : Keeps isolating IsolatedWorld x := by
  apply harmless.keeps isolating_monotone
  intro c is w isolated choice through
  cases stored : w.tables.pool with
  | some pool =>
    have after := (harmless_call is (isolated.steady stored)) choice through
    exact ⟨after.1, after.2.world⟩
  | none =>
    have same := harmless_pool is choice w
    rw [stored] at same
    constructor
    · intro pool some
      rw [same] at some
      cases some
    · intro pool some
      rw [same] at some
      cases some

theorem preparatory_harmless (c : Call) (preparatory : Preparatory c) : Harmless c := by
  cases c
  case run command => cases command <;> trivial
  all_goals trivial

/-- The answer of a call that can raise: an error without more effect than a broken command,
    or its work. Edits come after. -/
theorem respond_cases {c : Call} (choice : Choice) (w : World) :
    (∃ e, World.respond c choice w =
      (.error e, choice.edits.foldl World.edited (w.broken choice c))) ∨
    World.respond c choice w = ((w.perform choice c).1,
      choice.edits.foldl World.edited (w.perform choice c).2) := by
  unfold World.respond World.answer
  split
  · rename_i e _
    split
    · exact .inl ⟨e, rfl⟩
    · exact .inr rfl
  · exact .inr rfl

theorem IsolatedWorld.edits (isolated : IsolatedWorld w) (edits : List Edit) :
    IsolatedWorld (edits.foldl World.edited w) := by
  intro pool stored
  rw [World.edits_tables] at stored
  exact ((isolated.steady stored).edits edits).isolated

theorem IsolatedWorld.own (isolated : IsolatedWorld w) : OwnFilesOnly w :=
  fun pool stored => (isolated.steady stored).own pool stored

end NoiContest.Pipeline
