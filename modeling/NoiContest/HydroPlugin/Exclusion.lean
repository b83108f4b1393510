import Mathlib.Data.Finset.Card
import NoiContest.HydroPlugin.Handlers
import NoiContest.Lib.Threads

/- Submissions, problem drafts and material publications of one contest keep out of each other's
   way. A step is one call of one handler. The event loop switches at awaits only, so what holds
   of every interleaving of the calls holds of every interleaving at the awaits. -/
namespace NoiContest.HydroPlugin.Exclusion
open Flow Flow.Program Draft

inductive Request where
  | submit (body : SubmitBody)
  | draft (request : DraftRequest)
  | material (body : MaterialBody)

/-- Whatever the journals, the file system and Hydro answer, exceptions included -/
abbrev Choice := (c : Call) → Except Thrown (Answer c)

def handler (settings : Settings) (materialSettings : MaterialSettings) : Request → Handler Unit
  | .submit body => do
    let _ ← submitHandler settings body
    return
  | .draft request => do
    let _ ← draftHandler request
    return
  | .material body => materialHandler materialSettings body

def respond : (c : Call) → Choice → Registries → Except Thrown (Answer c) × Registries
  | .acquire .lease tid, _, r => r.acquireContestSubmissionLease tid
  | .acquire .draft tid, _, r => r.acquireContestDraftMutation tid
  | .acquire .material tid, _, r => r.acquireContestMaterialMutation tid
  | .release .lease tid, _, r => (.ok (), r.releaseContestSubmissionLease tid)
  | .release .draft tid, _, r =>
      (.ok (), { r with contestDraftMutations := r.contestDraftMutations.erase tid })
  | .release .material tid, _, r =>
      (.ok (), { r with contestMaterialMutations := r.contestMaterialMutations.erase tid })
  | c, choice, r => (choice c, r)

def plugin (settings : Settings) (materialSettings : MaterialSettings) :
    System Call Answer Thrown Thrown Choice Registries Request where
  program := handler settings materialSettings
  respond := respond

/-- What a handler holds between an acquire that returned and its release. -/
abbrev Hold := Option (Registry × String)

def holdAfter (hold : Hold) : (c : Call) → Except Thrown (Answer c) → Hold
  | .acquire registry tid, .ok _ => some (registry, tid)
  | .release _ _, _ => none
  | _, _ => hold

/- A handler acquires once before it releases, and it releases what it has acquired. -/
def orderly (hold : Hold) : Call → Prop
  | .acquire _ _ => hold = none
  | .release registry tid => hold = some (registry, tid)
  | _ => True

def protocol : Protocol Call Answer Thrown Request Hold where
  idle := none
  initial := fun _ => none
  permitted := fun _ => orderly
  after := fun _ => holdAfter

section Follows
variable {request : Request}

/-- Work that neither acquires nor releases -/
def Steady {α : Type} (request : Request) (work : Handler α) : Prop :=
  ∀ hold, Flow.Keeps (protocol.spec request) (· = hold) work

theorem lift_steady {C α : Type} (embed : C → Call)
    (free : ∀ hold c, orderly hold (embed c))
    (same : ∀ hold c answer, holdAfter hold (embed c) answer = hold)
    (work : Program C (fun c => Answer (embed c)) Thrown Thrown α) :
    Steady request (work.lift embed) := by
  intro hold held eq
  rw [ends_lift]
  have kept : Flow.Keeps (fun c s next => protocol.spec request (embed c) s next) (· = hold)
      work := by
    refine keeps_of_calls (fun c s _ _ weaker => protocol.spec_monotone request _ s _ _ weaker) ?_
    intro c held eq
    exact ⟨free held c, fun answer => (same held c answer).trans eq⟩
  exact kept held eq

theorem asks_steady {α : Type} (work : SubmitWork α) : Steady request (asks work) :=
  lift_steady .submit (fun _ _ => trivial) (fun _ _ _ => rfl) work

theorem drafts_steady {α : Type} (work : DraftWork α) : Steady request (drafts work) :=
  lift_steady .draft (fun _ _ => trivial) (fun _ _ _ => rfl) work

theorem publishes_steady {α : Type} (work : MaterialWork α) : Steady request (publishes work) :=
  lift_steady .material (fun _ _ => trivial) (fun _ _ _ => rfl) work

/-- Whichever way the work ends, its handler holds nothing then. -/
abbrev LeavesNothing {α : Type} (request : Request) (work : Handler α) : Prop :=
  Flow.Keeps (protocol.spec request) (· = none) work

theorem bind_leaves {α β : Type} {x : Handler α} {f : α → Handler β}
    (first : LeavesNothing request x) (second : ∀ a, LeavesNothing request (f a)) :
    LeavesNothing request (x >>= f) :=
  first.bind (protocol.spec_monotone request) second

theorem release_ends {registry : Registry} {tid : String} {post : Unit → Hold → Prop}
    {raised : Thrown → Hold → Prop} (returned : post () none) (threw : ∀ e, raised e none) :
    Ends (protocol.spec request) (release registry tid) (some (registry, tid)) post raised := by
  refine ⟨rfl, fun answer => ?_⟩
  cases answer with
  | ok _ => exact returned
  | error e => exact threw e

theorem holding_leaves {α : Type} {registry : Registry} {tid : String} {work : Handler α}
    (steady : Steady request work) : LeavesNothing request (holding registry tid work) := by
  rintro hold rfl
  rw [holding, ends_bind]
  refine ⟨rfl, fun answer => ?_⟩
  cases answer with
  | error e => exact rfl
  | ok _ =>
    have worked := steady (some (registry, tid)) (some (registry, tid)) rfl
    change Ends _ (work.andFinally (release registry tid)) (some (registry, tid)) _ _
    rw [ends_andFinally]
    refine worked.mono (protocol.spec_monotone request) ?_ ?_
    · rintro a _ rfl
      exact release_ends rfl fun _ => rfl
    · rintro e _ rfl
      exact release_ends rfl fun _ => rfl

theorem submitHandler_leaves (settings : Settings) (body : SubmitBody) :
    LeavesNothing request (submitHandler settings body) := by
  refine bind_leaves keeps_ofExcept fun submission => bind_leaves (asks_steady _ none)
    fun persisted => bind_leaves keeps_raiseIf fun _ => bind_leaves (asks_steady _ none)
    fun pending => bind_leaves keeps_raiseIf fun _ => ?_
  split
  · exact asks_steady _ none
  · exact keeps_pure.ite (Flow.keeps_raise.ite (asks_steady _ none))
  · exact holding_leaves (asks_steady _)

theorem draftHandler_leaves (draft : DraftRequest) :
    LeavesNothing request (draftHandler draft) := by
  refine bind_leaves (drafts_steady _ none) fun entry => bind_leaves keeps_raiseIf fun _ =>
    bind_leaves (drafts_steady _ none) fun active => bind_leaves keeps_raiseIf fun _ =>
    .ite (drafts_steady _ none) ?_
  split
  · exact drafts_steady _ none
  · refine bind_leaves (drafts_steady _ none) fun _ => .andFinally
      (protocol.spec_monotone request) ?_ (drafts_steady _ none)
    exact bind_leaves (drafts_steady _ none) fun _ => holding_leaves (drafts_steady _)

theorem materialHandler_leaves (settings : MaterialSettings) (body : MaterialBody) :
    LeavesNothing request (materialHandler settings body) := by
  refine bind_leaves keeps_raiseIf fun _ => bind_leaves keeps_ofExcept fun publication =>
    bind_leaves keeps_raiseIf fun _ => bind_leaves (publishes_steady _ none) fun entry =>
    bind_leaves keeps_raiseIf fun _ => bind_leaves (publishes_steady _ none) fun active =>
    bind_leaves keeps_raiseIf fun _ => ?_
  split
  · exact bind_leaves (publishes_steady _ none) fun _ => keeps_pure
  · refine bind_leaves (publishes_steady _ none) fun _ => .andFinally
      (protocol.spec_monotone request) ?_ (publishes_steady _ none)
    exact bind_leaves (publishes_steady _ none) fun _ => holding_leaves (publishes_steady _)

/- Every path through a handler keeps to the protocol and ends with nothing held. -/
theorem handler_follows (settings : Settings) (materialSettings : MaterialSettings)
    (request : Request) :
    protocol.Follows request (· = none) none (handler settings materialSettings request) := by
  have leaves : LeavesNothing request (handler settings materialSettings request) := by
    cases request with
    | submit body => exact bind_leaves (submitHandler_leaves settings body) fun _ => keeps_pure
    | draft request => exact bind_leaves (draftHandler_leaves request) fun _ => keeps_pure
    | material body => exact materialHandler_leaves materialSettings body
  exact leaves none rfl

end Follows

/- The registries and what the handlers hold -/

/-- The handlers that hold the contest in the registry -/
def Holders (holds : Nat → Hold) (registry : Registry) (tid : String) (holders : Finset Nat) :
    Prop :=
  ∀ i, i ∈ holders ↔ holds i = some (registry, tid)

structure Exclusive (r : Registries) (holds : Nat → Hold) : Prop where
  leases : ∀ tid, ∃ holders, Holders holds .lease tid holders ∧
    r.contestSubmissionLeases.get? tid =
      if holders.card = 0 then none else some holders.card
  drafts : ∀ tid, tid ∈ r.contestDraftMutations ↔ ∃ i, holds i = some (.draft, tid)
  materials : ∀ tid, tid ∈ r.contestMaterialMutations ↔ ∃ i, holds i = some (.material, tid)
  alone : ∀ i j registry registry' tid, registry ≠ .lease → holds i = some (registry, tid) →
    holds j = some (registry', tid) → i = j

section Steps
variable {r : Registries} {holds : Nat → Hold} {i : Nat} {tid : String}

theorem leased_iff (exclusive : Exclusive r holds) :
    r.leased tid = true ↔ ∃ i, holds i = some (.lease, tid) := by
  obtain ⟨holders, of, count⟩ := exclusive.leases tid
  rw [Registries.leased, count]
  constructor
  · intro truthy
    by_cases none' : holders.card = 0
    · simp [none'] at truthy
    · obtain ⟨i, mem⟩ := Finset.card_ne_zero.mp none'
      exact ⟨i, (of i).mp mem⟩
  · rintro ⟨i, held⟩
    have some' : holders.card ≠ 0 := Finset.card_ne_zero.mpr ⟨i, (of i).mpr held⟩
    simp [some']

/- A contest is free for a mutation when nobody holds it in any registry. -/
theorem mutating_iff (exclusive : Exclusive r holds) :
    r.mutating tid = false ↔ ∀ i registry, holds i ≠ some (registry, tid) := by
  have leased : r.leased tid = true ↔ ∃ i, holds i = some (.lease, tid) := leased_iff exclusive
  have drafting := exclusive.drafts tid
  have publishing := exclusive.materials tid
  rw [Registries.mutating, Bool.or_eq_false_iff, Bool.or_eq_false_iff, decide_eq_false_iff_not,
    decide_eq_false_iff_not, drafting, publishing, ← Bool.not_eq_true, leased, not_exists,
    not_exists, not_exists]
  constructor
  · rintro ⟨⟨noDraft, noMaterial⟩, noLease⟩ i registry
    cases registry with
    | lease => exact noLease i
    | draft => exact noDraft i
    | material => exact noMaterial i
  · exact fun free => ⟨⟨fun i => free i .draft, fun i => free i .material⟩, fun i => free i .lease⟩

theorem holders_update {registry : Registry} {holders : Finset Nat}
    (of : Holders holds registry tid holders) (hold : Hold) :
    Holders (Function.update holds i hold) registry tid
      (if hold = some (registry, tid) then insert i holders else holders.erase i) := by
  intro j
  by_cases same : j = i
  · subst same
    by_cases taken : hold = some (registry, tid) <;> simp [taken]
  · by_cases taken : hold = some (registry, tid) <;>
      simp [taken, same, of j]

/- A handler that takes a mutation is alone with the contest. -/
theorem alone_update (exclusive : Exclusive r holds) (hold : Hold)
    (free : ∀ registry tid, hold = some (registry, tid) → ∀ j registry',
      holds j = some (registry', tid) → registry = .lease ∧ registry' = .lease) :
    ∀ j k registry registry' tid, registry ≠ .lease →
      Function.update holds i hold j = some (registry, tid) →
      Function.update holds i hold k = some (registry', tid) → j = k := by
  intro j k registry registry' tid mutation first second
  simp only [Function.update_apply] at first second
  by_cases ofJ : j = i <;> by_cases ofK : k = i
  · exact ofJ.trans ofK.symm
  · rw [if_pos ofJ] at first
    rw [if_neg ofK] at second
    exact absurd (free registry tid first k registry' second).1 mutation
  · rw [if_neg ofJ] at first
    rw [if_pos ofK] at second
    exact absurd (free registry' tid second j registry first).2 mutation
  · rw [if_neg ofJ] at first
    rw [if_neg ofK] at second
    exact exclusive.alone j k registry registry' tid mutation first second

theorem exists_update (holds : Nat → Hold) (i : Nat) (hold : Hold) (x : Registry × String) :
    (∃ j, Function.update holds i hold j = some x) ↔
      hold = some x ∨ ∃ j, j ≠ i ∧ holds j = some x := by
  constructor
  · rintro ⟨j, held⟩
    by_cases same : j = i
    · subst same
      exact .inl (by simpa using held)
    · exact .inr ⟨j, same, by simpa [same] using held⟩
  · rintro (held | ⟨j, other, held⟩)
    · exact ⟨i, by simpa using held⟩
    · exact ⟨j, by simpa [other] using held⟩

/- A handler that holds nothing is no holder of anything. -/
theorem others_of_none (empty : holds i = none) (x : Registry × String) :
    (∃ j, j ≠ i ∧ holds j = some x) ↔ ∃ j, holds j = some x := by
  constructor
  · exact fun ⟨j, _, held⟩ => ⟨j, held⟩
  · rintro ⟨j, held⟩
    refine ⟨j, ?_, held⟩
    rintro rfl
    rw [empty] at held
    cases held

/- The count of a lease that the step is not about. -/
theorem leases_kept (exclusive : Exclusive r holds) {hold : Hold} (tid : String)
    (before : holds i ≠ some (.lease, tid)) (after : hold ≠ some (.lease, tid)) :
    ∃ holders, Holders (Function.update holds i hold) .lease tid holders ∧
      r.contestSubmissionLeases.get? tid =
        if holders.card = 0 then none else some holders.card := by
  obtain ⟨holders, of, count⟩ := exclusive.leases tid
  refine ⟨holders, ?_, count⟩
  have updated := holders_update (i := i) of hold
  have absent : i ∉ holders := fun mem => before ((of i).mp mem)
  rwa [if_neg after, Finset.erase_eq_of_notMem absent] at updated

theorem acquire_lease_keeps (exclusive : Exclusive r holds) (empty : holds i = none)
    (free : ¬ (tid ∈ r.contestDraftMutations ∨ tid ∈ r.contestMaterialMutations)) :
    Exclusive { r with contestSubmissionLeases := r.contestSubmissionLeases.set tid
                         ((r.contestSubmissionLeases.get? tid).getD 0 + 1) }
      (Function.update holds i (some (.lease, tid))) where
  leases := by
    intro tid'
    by_cases same : tid' = tid
    · subst same
      obtain ⟨holders, of, count⟩ := exclusive.leases tid'
      have updated := holders_update (i := i) of (some (.lease, tid'))
      rw [if_pos rfl] at updated
      have absent : i ∉ holders := by
        intro mem
        rw [(of i).mp mem] at empty
        cases empty
      refine ⟨_, updated, ?_⟩
      rw [Finset.card_insert_of_notMem absent, Dict.get?_set_self, count]
      by_cases none' : holders.card = 0 <;> simp [none']
    · simp only [Dict.get?_set_ne same]
      exact leases_kept exclusive tid' (by simp [empty]) (by simpa using Ne.symm same)
  drafts := by
    intro tid'
    rw [exists_update, others_of_none empty]
    simpa using exclusive.drafts tid'
  materials := by
    intro tid'
    rw [exists_update, others_of_none empty]
    simpa using exclusive.materials tid'
  alone := by
    refine alone_update exclusive _ ?_
    intro registry tid' eq j registry' held
    obtain ⟨rfl, rfl⟩ := Prod.mk.inj (Option.some.inj eq)
    refine ⟨rfl, ?_⟩
    cases registry' with
    | lease => rfl
    | draft => exact absurd (.inl ((exclusive.drafts _).mpr ⟨j, held⟩)) free
    | material => exact absurd (.inr ((exclusive.materials _).mpr ⟨j, held⟩)) free

/- A contest that is held by nobody else can be taken for a mutation. -/
theorem alone_of_free (exclusive : Exclusive r holds) {registry : Registry}
    (free : ∀ j registry', holds j ≠ some (registry', tid)) :
    ∀ j k registry₁ registry₂ tid', registry₁ ≠ .lease →
      Function.update holds i (some (registry, tid)) j = some (registry₁, tid') →
      Function.update holds i (some (registry, tid)) k = some (registry₂, tid') → j = k := by
  refine alone_update exclusive _ ?_
  intro registry₁ tid' eq j registry' held
  obtain ⟨rfl, rfl⟩ := Prod.mk.inj (Option.some.inj eq)
  exact absurd held (free j registry')

theorem acquire_draft_keeps (exclusive : Exclusive r holds) (empty : holds i = none)
    (free : r.mutating tid = false) :
    Exclusive { r with contestDraftMutations := insert tid r.contestDraftMutations }
      (Function.update holds i (some (.draft, tid))) where
  leases := fun tid' => leases_kept exclusive tid' (by simp [empty]) (by simp)
  drafts := by
    intro tid'
    rw [exists_update, others_of_none empty, Finset.mem_insert, exclusive.drafts]
    simp [eq_comm]
  materials := by
    intro tid'
    rw [exists_update, others_of_none empty]
    simpa using exclusive.materials tid'
  alone := alone_of_free exclusive ((mutating_iff exclusive).mp free)

theorem acquire_material_keeps (exclusive : Exclusive r holds) (empty : holds i = none)
    (free : r.mutating tid = false) :
    Exclusive { r with contestMaterialMutations := insert tid r.contestMaterialMutations }
      (Function.update holds i (some (.material, tid))) where
  leases := fun tid' => leases_kept exclusive tid' (by simp [empty]) (by simp)
  drafts := by
    intro tid'
    rw [exists_update, others_of_none empty]
    simpa using exclusive.drafts tid'
  materials := by
    intro tid'
    rw [exists_update, others_of_none empty, Finset.mem_insert, exclusive.materials]
    simp [eq_comm]
  alone := alone_of_free exclusive ((mutating_iff exclusive).mp free)

theorem alone_of_release (exclusive : Exclusive r holds) :
    ∀ j k registry₁ registry₂ tid', registry₁ ≠ .lease →
      Function.update holds i none j = some (registry₁, tid') →
      Function.update holds i none k = some (registry₂, tid') → j = k :=
  alone_update exclusive none nofun

/- The other holders of what is released, and all holders of anything else. -/
theorem others_of_held (exclusive : Exclusive r holds) {registry : Registry}
    (held : holds i = some (registry, tid)) (registry' : Registry) (mutation : registry' ≠ .lease)
    (tid' : String) :
    (∃ j, j ≠ i ∧ holds j = some (registry', tid')) ↔
      (registry', tid') ≠ (registry, tid) ∧ ∃ j, holds j = some (registry', tid') := by
  constructor
  · rintro ⟨j, other, held'⟩
    refine ⟨?_, j, held'⟩
    intro eq
    obtain ⟨rfl, rfl⟩ := Prod.mk.inj eq
    exact other (exclusive.alone j i _ _ _ mutation held' held)
  · rintro ⟨differs, j, held'⟩
    refine ⟨j, ?_, held'⟩
    rintro rfl
    exact differs (Option.some.inj (held'.symm.trans held))

theorem release_lease_keeps (exclusive : Exclusive r holds)
    (held : holds i = some (.lease, tid)) :
    Exclusive (r.releaseContestSubmissionLease tid) (Function.update holds i none) where
  leases := by
    intro tid'
    rw [Registries.release_get?]
    by_cases same : tid' = tid
    · subst same
      obtain ⟨holders, of, count⟩ := exclusive.leases tid'
      have mem : i ∈ holders := (of i).mpr held
      have some' : holders.card ≠ 0 := Finset.card_ne_zero.mpr ⟨i, mem⟩
      have counted : r.leasesOrOne tid' = holders.card := by
        rw [Registries.leasesOrOne, count, if_neg some']
        split <;> simp_all
      have updated := holders_update (i := i) of none
      rw [if_neg (by rintro ⟨⟩)] at updated
      refine ⟨_, updated, ?_⟩
      rw [Finset.card_erase_of_mem mem, if_pos rfl, counted]
      by_cases last : holders.card - 1 = 0
      · simp [last]
      · simp [Nat.pos_of_ne_zero last, last]
    · rw [if_neg same]
      exact leases_kept exclusive tid' (by rw [held]; simpa using Ne.symm same) (by rintro ⟨⟩)
  drafts := by
    intro tid'
    rw [exists_update, others_of_held exclusive held .draft (by rintro ⟨⟩),
      Registries.release_contestDraftMutations, exclusive.drafts]
    simp
  materials := by
    intro tid'
    rw [exists_update, others_of_held exclusive held .material (by rintro ⟨⟩),
      Registries.release_contestMaterialMutations, exclusive.materials]
    simp
  alone := alone_of_release exclusive

theorem release_draft_keeps (exclusive : Exclusive r holds) (held : holds i = some (.draft, tid)) :
    Exclusive { r with contestDraftMutations := r.contestDraftMutations.erase tid }
      (Function.update holds i none) where
  leases := fun tid' => leases_kept exclusive tid' (by simp [held]) nofun
  drafts := by
    intro tid'
    rw [exists_update, others_of_held exclusive held .draft nofun, Finset.mem_erase, exclusive.drafts]
    simp
  materials := by
    intro tid'
    rw [exists_update, others_of_held exclusive held .material nofun, exclusive.materials]
    simp
  alone := alone_of_release exclusive

theorem release_material_keeps (exclusive : Exclusive r holds)
    (held : holds i = some (.material, tid)) :
    Exclusive { r with contestMaterialMutations := r.contestMaterialMutations.erase tid }
      (Function.update holds i none) where
  leases := fun tid' => leases_kept exclusive tid' (by simp [held]) nofun
  drafts := by
    intro tid'
    rw [exists_update, others_of_held exclusive held .draft nofun, exclusive.drafts]
    simp
  materials := by
    intro tid'
    rw [exists_update, others_of_held exclusive held .material nofun, Finset.mem_erase, exclusive.materials]
    simp
  alone := alone_of_release exclusive

/- Each call of a handler that keeps to the protocol. -/
theorem call_keeps (c : Call) (choice : Choice) (exclusive : Exclusive r holds)
    (permitted : orderly (holds i) c) :
    Exclusive (respond c choice r).2
      (Function.update holds i (holdAfter (holds i) c (respond c choice r).1)) := by
  have unmoved : Function.update holds i (holds i) = holds := Function.update_eq_self i holds
  cases c with
  | acquire registry tid =>
    cases registry with
    | lease =>
      by_cases taken : tid ∈ r.contestDraftMutations ∨ tid ∈ r.contestMaterialMutations
      · simpa [respond, Registries.acquireContestSubmissionLease, taken, holdAfter] using exclusive
      · simpa only [respond, Registries.acquireContestSubmissionLease, if_neg taken, holdAfter]
          using acquire_lease_keeps exclusive permitted taken
    | draft =>
      cases free : r.mutating tid with
      | true =>
        simpa [respond, Registries.acquireContestDraftMutation, free, holdAfter] using exclusive
      | false =>
        simpa [respond, Registries.acquireContestDraftMutation, free, holdAfter]
          using acquire_draft_keeps exclusive permitted free
    | material =>
      cases free : r.mutating tid with
      | true =>
        simpa [respond, Registries.acquireContestMaterialMutation, free, holdAfter] using exclusive
      | false =>
        simpa [respond, Registries.acquireContestMaterialMutation, free, holdAfter]
          using acquire_material_keeps exclusive permitted free
  | release registry tid =>
    cases registry with
    | lease => exact release_lease_keeps exclusive permitted
    | draft => exact release_draft_keeps exclusive permitted
    | material => exact release_material_keeps exclusive permitted
  | submit c => simpa only [respond, holdAfter, unmoved] using exclusive
  | draft c => simpa only [respond, holdAfter, unmoved] using exclusive
  | material c => simpa only [respond, holdAfter, unmoved] using exclusive

theorem empty_exclusive : Exclusive {} fun _ => none where
  leases := fun tid => ⟨∅, fun i => by simp, by simp⟩
  drafts := fun tid => by simp
  materials := fun tid => by simp
  alone := nofun

end Steps

/- Whole runs -/

/-- The handlers with what is left of them, the registries, and what each handler holds -/
abbrev Running := Threads Call Answer Thrown Thrown Registries Request × (Nat → Hold)

def idlePlugin : Running := (⟨{}, []⟩, fun _ => none)

def run (settings : Settings) (materialSettings : MaterialSettings)
    (schedule : List (Schedule Request Choice)) : Running :=
  Runs.run (protocol.trace (plugin settings materialSettings)) idlePlugin schedule

/-- The handlers that are between an acquire of the contest and its release -/
def Running.within (running : Running) (registry : Registry) (tid : String) : Finset Nat :=
  (Finset.range running.1.threads.length).filter fun i => running.2 i = some (registry, tid)

structure MutuallyExclusive (running : Running) : Prop where
  counted : ∀ tid, (running.1.state.contestSubmissionLeases.get? tid).getD 0 =
    (running.within .lease tid).card
  drafting : ∀ tid, tid ∈ running.1.state.contestDraftMutations ↔
    (running.within .draft tid).Nonempty
  publishing : ∀ tid, tid ∈ running.1.state.contestMaterialMutations ↔
    (running.within .material tid).Nonempty
  alone : ∀ tid, (running.within .draft tid ∪ running.within .material tid).Nonempty →
    (running.within .draft tid).card + (running.within .material tid).card = 1 ∧
      (running.1.state.contestSubmissionLeases.get? tid).getD 0 = 0
  quiet : (∀ thread ∈ running.1.threads, ∃ result, thread.2 = .done result) →
    running.1.state = {}

section Whole
variable {running : Running}

/- What holds of all indices shows in the handlers that were started. -/
theorem mem_within (agree : protocol.Agree (fun _ hold => hold = none) running.1 running.2)
    {i : Nat} {registry : Registry} {tid : String} :
    i ∈ running.within registry tid ↔ running.2 i = some (registry, tid) := by
  rw [Running.within, Finset.mem_filter, Finset.mem_range]
  refine ⟨And.right, fun held => ⟨?_, held⟩⟩
  by_contra outside
  rw [agree.beyond i (Nat.le_of_not_lt outside)] at held
  cases held

theorem idle_of_done (agree : protocol.Agree (fun _ hold => hold = none) running.1 running.2)
    (done : ∀ thread ∈ running.1.threads, ∃ result, thread.2 = .done result) (i : Nat) :
    running.2 i = none := by
  cases found : running.1.threads[i]? with
  | none => exact agree.beyond i (List.getElem?_eq_none_iff.mp found)
  | some thread =>
    obtain ⟨request, program⟩ := thread
    obtain ⟨result, rfl⟩ := done _ (List.mem_of_getElem? found)
    have follows := agree.follows i request _ found
    cases result <;> exact follows

theorem exclusive_of_agree
    (agree : protocol.Agree (fun _ hold => hold = none) running.1 running.2)
    (exclusive : Exclusive running.1.state running.2) : MutuallyExclusive running := by
  have counted (tid : String) :
      (running.1.state.contestSubmissionLeases.get? tid).getD 0 =
        (running.within .lease tid).card := by
    obtain ⟨holders, of, count⟩ := exclusive.leases tid
    have same : running.within .lease tid = holders := by
      ext i
      rw [mem_within agree, of]
    rw [count, same]
    by_cases none' : holders.card = 0 <;> simp [none']
  refine ⟨counted, fun tid => ?_, fun tid => ?_, fun tid held => ?_, fun done => ?_⟩
  · rw [exclusive.drafts]
    exact exists_congr fun i => (mem_within agree).symm
  · rw [exclusive.materials]
    exact exists_congr fun i => (mem_within agree).symm
  · obtain ⟨i, mem⟩ := held
    -- The handler of the mutation is the only one in any of the registries.
    have sole : ∃ registry, registry ≠ .lease ∧ running.2 i = some (registry, tid) := by
      rcases Finset.mem_union.mp mem with draft | material
      · exact ⟨.draft, nofun, (mem_within agree).mp draft⟩
      · exact ⟨.material, nofun, (mem_within agree).mp material⟩
    obtain ⟨registry, mutation, holds⟩ := sole
    have others (registry' : Registry) : running.within registry' tid =
        if registry' = registry then {i} else ∅ := by
      ext j
      rw [mem_within agree]
      by_cases same : registry' = registry
      · subst same
        rw [if_pos rfl, Finset.mem_singleton]
        exact ⟨fun held => (exclusive.alone i j _ _ tid mutation holds held).symm,
          fun eq => eq ▸ holds⟩
      · rw [if_neg same]
        refine iff_of_false ?_ (Finset.notMem_empty j)
        intro held
        obtain rfl := exclusive.alone i j _ _ tid mutation holds held
        exact same (Prod.mk.inj (Option.some.inj (held.symm.trans holds))).1
    rw [counted, others, others, others, if_neg mutation.symm]
    cases registry with
    | lease => exact absurd rfl mutation
    | draft => simp
    | material => simp
  · have idle := idle_of_done agree done
    have leases : running.1.state.contestSubmissionLeases = Dict.empty := by
      refine Dict.eq_empty fun tid => ?_
      obtain ⟨holders, of, count⟩ := exclusive.leases tid
      have none' : holders = ∅ := by
        ext i
        simp [of i, idle]
      simpa [none'] using count
    have drafts : running.1.state.contestDraftMutations = ∅ := by
      ext tid
      simp [exclusive.drafts, idle]
    have materials : running.1.state.contestMaterialMutations = ∅ := by
      ext tid
      simp [exclusive.materials, idle]
    cases state : running.1.state
    simp_all

end Whole

/-- However the handlers interleave and whatever throws in them, the registries say who works on
    a contest, a mutation works alone, and nothing is left behind. -/
theorem contest_changes_exclusive (settings : Settings) (materialSettings : MaterialSettings)
    (schedule : List (Schedule Request Choice)) :
    MutuallyExclusive (run settings materialSettings schedule) := by
  have kept : protocol.Agree (fun _ hold => hold = none)
        (run settings materialSettings schedule).1 (run settings materialSettings schedule).2 ∧
      Exclusive (run settings materialSettings schedule).1.state
        (run settings materialSettings schedule).2 := by
    refine Runs.run_invariant (fun running : Running =>
      protocol.Agree (fun _ hold => hold = none) running.1 running.2 ∧
        Exclusive running.1.state running.2) ?_ ⟨Protocol.agree_none _, empty_exclusive⟩ schedule
    intro running action held
    have meets : (plugin settings materialSettings).Meets (fun _ _ _ _ => True) running.1
        action := by
      cases action with
      | start entry => exact trivial
      | step i choice => exact fun _ _ _ => trivial
    refine Protocol.trace_keeps (handler_follows settings materialSettings) ?_ ?_ running action
      held meets
    · intro s holds i entry exclusive idle
      have empty : holds i = none := idle
      have unmoved : Function.update holds i none = holds := by
        rw [← empty, Function.update_eq_self]
      exact unmoved.symm ▸ exclusive
    · intro s holds i entry c choice exclusive permitted _ _
      exact call_keeps c choice exclusive permitted
  exact exclusive_of_agree kept.1 kept.2

end NoiContest.HydroPlugin.Exclusion
