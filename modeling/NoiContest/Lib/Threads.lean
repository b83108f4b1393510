import NoiContest.Lib.Flow
import NoiContest.Lib.Runs
import Mathlib.Logic.Function.Basic

/- Threads that share one state. Each runs a program, and one step is one call of one thread, so
   a run is a list of scheduling decisions and stands for an interleaving. A protocol says for
   each thread which calls its phase permits and which phase an answer leads to; phases are
   seen by invariants only, never by the programs. -/
namespace Flow

/-- The programs that may be started, how the state answers a call, and which calls wait. -/
structure System (Call : Type) (Answer : Call → Type) (η ε Choice σ Entry : Type) where
  program : Entry → Program Call Answer η ε Unit
  respond : (c : Call) → Choice → σ → Except η (Answer c) × σ
  waits : Call → σ → Bool := fun _ _ => false

structure Threads (Call : Type) (Answer : Call → Type) (η ε σ Entry : Type) where
  state : σ
  threads : List (Entry × Program Call Answer η ε Unit) := []

/-- The call that a thread makes when it is scheduled next. -/
def Threads.nextCall {Call : Type} {Answer : Call → Type} {η ε σ Entry : Type}
    (k : Threads Call Answer η ε σ Entry) (i : Nat) : Option (Entry × Call) :=
  match k.threads[i]? with
  | some (entry, .call c _) => some (entry, c)
  | _ => none

inductive Schedule (Entry Choice : Type) where
  | start (entry : Entry)
  | step (thread : Nat) (choice : Choice)
  deriving DecidableEq

structure Protocol (Call : Type) (Answer : Call → Type) (η Entry Phase : Type) where
  idle : Phase
  initial : Entry → Phase
  permitted : Entry → Phase → Call → Prop
  after : Entry → Phase → (c : Call) → Except η (Answer c) → Phase

variable {Call : Type} {Answer : Call → Type} {η ε ε' α β σ Choice Entry Phase : Type}

namespace System
variable (sys : System Call Answer η ε Choice σ Entry)

def advance (k : Threads Call Answer η ε σ Entry) :
    Schedule Entry Choice → Threads Call Answer η ε σ Entry
  | .start entry => { k with threads := k.threads ++ [(entry, sys.program entry)] }
  | .step i choice =>
    match k.threads[i]? with
    | some (entry, .call c next) =>
      if sys.waits c k.state then k
      else
        let answered := sys.respond c choice k.state
        { state := answered.2, threads := k.threads.set i (entry, next answered.1) }
    | _ => k

/-- The condition holds of the call that the step makes, if it makes one. -/
def Meets (condition : Entry → Call → Choice → σ → Prop) (k : Threads Call Answer η ε σ Entry) :
    Schedule Entry Choice → Prop
  | .start _ => True
  | .step i choice => ∀ called ∈ k.nextCall i, sys.waits called.2 k.state = false →
    condition called.1 called.2 choice k.state

instance {condition : Entry → Call → Choice → σ → Prop}
    [∀ entry c choice s, Decidable (condition entry c choice s)]
    (k : Threads Call Answer η ε σ Entry) :
    (action : Schedule Entry Choice) → Decidable (sys.Meets condition k action)
  | .start _ => isTrue trivial
  | .step i choice => inferInstanceAs (Decidable (∀ called ∈ k.nextCall i,
    sys.waits called.2 k.state = false → condition called.1 called.2 choice k.state))

variable {sys} {k : Threads Call Answer η ε σ Entry}

/- What one step can do. -/
theorem advance_cases (sys : System Call Answer η ε Choice σ Entry)
    (k : Threads Call Answer η ε σ Entry) (action : Schedule Entry Choice) :
    (∃ entry, action = .start entry ∧
      sys.advance k action = { k with threads := k.threads ++ [(entry, sys.program entry)] }) ∨
    (∃ i choice entry c next, action = .step i choice ∧ k.threads[i]? = some (entry, .call c next) ∧
      sys.waits c k.state = false ∧
      sys.advance k action =
        { state := (sys.respond c choice k.state).2
          threads := k.threads.set i (entry, next (sys.respond c choice k.state).1) }) ∨
    sys.advance k action = k := by
  cases action with
  | start entry => exact .inl ⟨entry, rfl, rfl⟩
  | step i choice =>
    rcases found : k.threads[i]? with _ | ⟨entry, _ | ⟨c, next⟩⟩
    · exact .inr (.inr (by simp [advance, found]))
    · exact .inr (.inr (by simp [advance, found]))
    · cases waiting : sys.waits c k.state with
      | true => exact .inr (.inr (by simp [advance, found, waiting]))
      | false =>
        exact .inr (.inl ⟨i, choice, entry, c, next, rfl, found, waiting,
          by simp [advance, found, waiting]⟩)

/- Procedures that run one after another -/

/-- The steps of a thread whose program is not interrupted. -/
def uninterrupted (sys : System Call Answer η ε Choice σ Entry) (thread : Nat) :
    Program Call Answer η ε Unit → (Nat → Choice) → σ → List (Schedule Entry Choice)
  | .done _, _, _ => []
  | .call c next, choices, s =>
    let answered := sys.respond c (choices 0) s
    .step thread (choices 0) ::
      uninterrupted sys thread (next answered.1) (fun n => choices (n + 1)) answered.2

/-- Each procedure starts when the one before it is done. -/
def inTurn (sys : System Call Answer η ε Choice σ Entry) (thread : Nat) :
    List (Entry × (Nat → Choice)) → σ → List (Schedule Entry Choice)
  | [], _ => []
  | (entry, choices) :: rest, s =>
    .start entry :: uninterrupted sys thread (sys.program entry) choices s ++
      inTurn sys (thread + 1) rest ((sys.program entry).exec sys.respond choices s).2

/-- The state after the procedures. -/
def outcome (sys : System Call Answer η ε Choice σ Entry) :
    List (Entry × (Nat → Choice)) → σ → σ
  | [], s => s
  | (entry, choices) :: rest, s =>
    outcome sys rest ((sys.program entry).exec sys.respond choices s).2

/-- Every call of every procedure meets the condition. -/
def AllObey (sys : System Call Answer η ε Choice σ Entry)
    (condition : Entry → Call → Choice → σ → Prop) : List (Entry × (Nat → Choice)) → σ → Prop
  | [], _ => True
  | (entry, choices) :: rest, s =>
    (sys.program entry).Obeys sys.respond (condition entry) choices s ∧
      AllObey sys condition rest ((sys.program entry).exec sys.respond choices s).2

def decideAllObey (sys : System Call Answer η ε Choice σ Entry)
    {condition : Entry → Call → Choice → σ → Prop}
    [∀ entry c choice s, Decidable (condition entry c choice s)] :
    (jobs : List (Entry × (Nat → Choice))) → (s : σ) → Decidable (AllObey sys condition jobs s)
  | [], _ => isTrue trivial
  | (entry, choices) :: rest, s =>
    @instDecidableAnd _ _ _ (decideAllObey sys rest
      ((sys.program entry).exec sys.respond choices s).2)

instance {sys : System Call Answer η ε Choice σ Entry}
    {condition : Entry → Call → Choice → σ → Prop}
    [∀ entry c choice s, Decidable (condition entry c choice s)]
    (jobs : List (Entry × (Nat → Choice))) (s : σ) : Decidable (AllObey sys condition jobs s) :=
  decideAllObey sys jobs s

section InTurn
variable (condition : Entry → Call → Choice → σ → Prop)

theorem run_uninterrupted (free : ∀ c s, sys.waits c s = false)
    (k : Threads Call Answer η ε σ Entry) {i : Nat} {entry : Entry}
    {x : Program Call Answer η ε Unit} (found : k.threads[i]? = some (entry, x))
    (choices : Nat → Choice) :
    Runs.run sys.advance k (uninterrupted sys i x choices k.state) =
        { state := (x.exec sys.respond choices k.state).2
          threads := k.threads.set i (entry, .done (x.exec sys.respond choices k.state).1) } ∧
      (Runs.Guarded sys.advance (sys.Meets condition) k (uninterrupted sys i x choices k.state) ↔
        x.Obeys sys.respond (condition entry) choices k.state) := by
  induction x generalizing k choices with
  | done result =>
    refine ⟨?_, Iff.rfl⟩
    have same : k.threads.set i (entry, .done result) = k.threads := by
      obtain ⟨inside, at_i⟩ := List.getElem?_eq_some_iff.mp found
      rw [← at_i, List.set_getElem_self]
    exact congrArg (Threads.mk k.state) same.symm
  | call c next ih =>
    have inside := (List.getElem?_eq_some_iff.mp found).choose
    have stepped : sys.advance k (.step i (choices 0)) =
        { state := (sys.respond c (choices 0) k.state).2
          threads := k.threads.set i (entry, next (sys.respond c (choices 0) k.state).1) } := by
      simp [advance, found, free]
    have onward := ih (sys.respond c (choices 0) k.state).1 (sys.advance k (.step i (choices 0)))
      (by rw [stepped]; simp [inside]) (fun n => choices (n + 1))
    rw [stepped] at onward
    dsimp only at onward
    obtain ⟨ran, guarded⟩ := onward
    constructor
    · rw [uninterrupted, Runs.run_cons, stepped, ran]
      simp [Program.exec]
    · have here : sys.Meets condition k (.step i (choices 0)) ↔
          condition entry c (choices 0) k.state := by
        simp [Meets, Threads.nextCall, found, free]
      exact and_congr here (stepped ▸ guarded)

theorem outcome_append (front back : List (Entry × (Nat → Choice))) (s : σ) :
    outcome sys (front ++ back) s = outcome sys back (outcome sys front s) := by
  induction front generalizing s with
  | nil => rfl
  | cons job rest ih => exact ih _

theorem allObey_append (front back : List (Entry × (Nat → Choice))) (s : σ) :
    AllObey sys condition (front ++ back) s ↔
      AllObey sys condition front s ∧ AllObey sys condition back (outcome sys front s) := by
  induction front generalizing s with
  | nil => exact (iff_of_eq (true_and _)).symm
  | cons job rest ih => exact (and_congr Iff.rfl (ih _)).trans and_assoc.symm

/- Procedures one after another are one of the interleavings. -/
theorem run_inTurn (free : ∀ c s, sys.waits c s = false) (jobs : List (Entry × (Nat → Choice)))
    (k : Threads Call Answer η ε σ Entry) :
    (Runs.run sys.advance k (inTurn sys k.threads.length jobs k.state)).state =
        outcome sys jobs k.state ∧
      (Runs.Guarded sys.advance (sys.Meets condition) k
          (inTurn sys k.threads.length jobs k.state) ↔
        AllObey sys condition jobs k.state) := by
  induction jobs generalizing k with
  | nil => exact ⟨rfl, Iff.rfl⟩
  | cons job rest ih =>
    obtain ⟨entry, choices⟩ := job
    have started : sys.advance k (.start entry) =
        { k with threads := k.threads ++ [(entry, sys.program entry)] } := rfl
    obtain ⟨ran, guarded⟩ := run_uninterrupted condition free (sys.advance k (.start entry))
      List.getElem?_concat_length choices
    have after := ih (Runs.run sys.advance (sys.advance k (.start entry))
      (uninterrupted sys k.threads.length (sys.program entry) choices k.state))
    rw [started] at ran guarded after
    rw [ran] at after
    simp only [List.length_set, List.length_append, List.length_singleton] at after
    constructor
    · rw [inTurn, Runs.run_append, Runs.run_cons, started, ran, after.1]
      rfl
    · rw [inTurn, Runs.guarded_append, Runs.run_cons, started, ran, after.2]
      exact and_congr ((iff_of_eq (true_and _)).trans guarded) Iff.rfl

end InTurn

end System

namespace Protocol
variable (P : Protocol Call Answer η Entry Phase)

/-- A call is one that the phase permits, and any answer may come. -/
def spec (entry : Entry) : Transformer Call Answer η Phase := fun c φ next =>
  P.permitted entry φ c ∧ ∀ answer, next answer (P.after entry φ c answer)

theorem spec_monotone (entry : Entry) : Monotone (P.spec entry) :=
  fun _ _ _ _ weaker holds => ⟨holds.1, fun answer => weaker _ _ (holds.2 answer)⟩

/-- The program makes only permitted calls, and ends in a phase with the property. -/
def Follows (entry : Entry) (ended : Phase → Prop) (φ : Phase) (x : Program Call Answer η ε α) :
    Prop :=
  Ends (P.spec entry) x φ (fun _ => ended) (fun _ => ended)

/-- Each thread follows the protocol from its phase, and there are no phases beyond them. -/
structure Agree (ended : Entry → Phase → Prop) (k : Threads Call Answer η ε σ Entry)
    (phases : Nat → Phase) : Prop where
  follows : ∀ i entry x, k.threads[i]? = some (entry, x) →
    P.Follows entry (ended entry) (phases i) x
  beyond : ∀ i, k.threads.length ≤ i → phases i = P.idle

variable {P} {sys : System Call Answer η ε Choice σ Entry} {ended : Entry → Phase → Prop}
  {Inv : σ → (Nat → Phase) → Prop} {condition : Entry → Call → Choice → σ → Prop}

theorem agree_start {k : Threads Call Answer η ε σ Entry} {phases : Nat → Phase}
    (agree : P.Agree ended k phases) {entry : Entry}
    (follows : P.Follows entry (ended entry) (P.initial entry) (sys.program entry)) :
    P.Agree ended { k with threads := k.threads ++ [(entry, sys.program entry)] }
      (Function.update phases k.threads.length (P.initial entry)) where
  follows := by
    intro i entry' x found
    dsimp only at found
    rcases Nat.lt_trichotomy i k.threads.length with less | rfl | greater
    · rw [List.getElem?_append_left less] at found
      rw [Function.update_of_ne (Nat.ne_of_lt less)]
      exact agree.follows i entry' x found
    · rw [List.getElem?_concat_length] at found
      cases found
      rw [Function.update_self]
      exact follows
    · rw [List.getElem?_eq_none (by simp; omega)] at found
      cases found
  beyond := by
    intro i outside
    rw [List.length_append, List.length_singleton] at outside
    rw [Function.update_of_ne (by omega)]
    exact agree.beyond i (by omega)

theorem agree_step {k : Threads Call Answer η ε σ Entry} {phases : Nat → Phase}
    (agree : P.Agree ended k phases) {i : Nat} {entry : Entry} {c : Call}
    {next : Except η (Answer c) → Program Call Answer η ε Unit}
    (found : k.threads[i]? = some (entry, .call c next)) (answer : Except η (Answer c)) (s : σ) :
    P.Agree ended { state := s, threads := k.threads.set i (entry, next answer) }
      (Function.update phases i (P.after entry (phases i) c answer)) where
  follows := by
    intro j entry' x there
    dsimp only at there
    rw [List.getElem?_set] at there
    by_cases same : i = j
    · subst same
      have inside := (List.getElem?_eq_some_iff.mp found).choose
      simp only [if_true, inside] at there
      cases there
      rw [Function.update_self]
      exact (agree.follows i entry _ found).2 answer
    · rw [if_neg same] at there
      rw [Function.update_of_ne (Ne.symm same)]
      exact agree.follows j entry' x there
  beyond := by
    intro j outside
    rw [List.length_set] at outside
    have inside := (List.getElem?_eq_some_iff.mp found).choose
    rw [Function.update_of_ne (by omega)]
    exact agree.beyond j outside

variable (P sys) in
/-- One step, with the phases that the answers have led the threads to. -/
def trace (k : Threads Call Answer η ε σ Entry × (Nat → Phase)) (action : Schedule Entry Choice) :
    Threads Call Answer η ε σ Entry × (Nat → Phase) :=
  (sys.advance k.1 action,
    match action with
    | .start entry => Function.update k.2 k.1.threads.length (P.initial entry)
    | .step i choice =>
      match k.1.threads[i]? with
      | some (entry, .call c _) =>
        if sys.waits c k.1.state then k.2
        else Function.update k.2 i (P.after entry (k.2 i) c (sys.respond c choice k.1.state).1)
      | _ => k.2)

/- The invariant rule for interleavings: every entry follows the protocol, and a permitted call
   that meets the condition keeps the invariant of the state and the phases. -/
theorem trace_keeps
    (follows : ∀ entry, P.Follows entry (ended entry) (P.initial entry) (sys.program entry))
    (starts : ∀ s phases i entry, Inv s phases → phases i = P.idle →
      Inv s (Function.update phases i (P.initial entry)))
    (steps : ∀ s phases i entry c choice, Inv s phases → P.permitted entry (phases i) c →
      sys.waits c s = false → condition entry c choice s →
      Inv (sys.respond c choice s).2
        (Function.update phases i (P.after entry (phases i) c (sys.respond c choice s).1)))
    (k : Threads Call Answer η ε σ Entry × (Nat → Phase)) (action : Schedule Entry Choice)
    (held : P.Agree ended k.1 k.2 ∧ Inv k.1.state k.2)
    (meets : sys.Meets condition k.1 action) :
    P.Agree ended (P.trace sys k action).1 (P.trace sys k action).2 ∧
      Inv (P.trace sys k action).1.state (P.trace sys k action).2 := by
  obtain ⟨agree, inv⟩ := held
  cases action with
  | start entry =>
    exact ⟨agree_start agree (follows entry),
      starts _ _ _ entry inv (agree.beyond _ (Nat.le_refl _))⟩
  | step i choice =>
    rcases found : k.1.threads[i]? with _ | ⟨entry, _ | ⟨c, next⟩⟩
    · simpa only [trace, System.advance, found] using ⟨agree, inv⟩
    · simpa only [trace, System.advance, found] using ⟨agree, inv⟩
    · cases waiting : sys.waits c k.1.state with
      | true =>
        simp only [trace, System.advance, found, waiting, if_true]
        exact ⟨agree, inv⟩
      | false =>
        have allowed : condition entry c choice k.1.state :=
          meets (entry, c) (by simp [Threads.nextCall, found]) waiting
        simp only [trace, System.advance, found, waiting, Bool.false_eq_true, if_false]
        exact ⟨agree_step agree found _ _,
          steps _ _ i entry c choice inv (agree.follows i entry _ found).1 waiting allowed⟩

theorem advance_keeps
    (follows : ∀ entry, P.Follows entry (ended entry) (P.initial entry) (sys.program entry))
    (starts : ∀ s phases i entry, Inv s phases → phases i = P.idle →
      Inv s (Function.update phases i (P.initial entry)))
    (steps : ∀ s phases i entry c choice, Inv s phases → P.permitted entry (phases i) c →
      sys.waits c s = false → condition entry c choice s →
      Inv (sys.respond c choice s).2
        (Function.update phases i (P.after entry (phases i) c (sys.respond c choice s).1)))
    (k : Threads Call Answer η ε σ Entry) (action : Schedule Entry Choice)
    (held : ∃ phases, P.Agree ended k phases ∧ Inv k.state phases)
    (meets : sys.Meets condition k action) :
    ∃ phases, P.Agree ended (sys.advance k action) phases ∧
      Inv (sys.advance k action).state phases := by
  obtain ⟨phases, kept⟩ := held
  exact ⟨_, trace_keeps follows starts steps (k, phases) action kept meets⟩

theorem run_keeps
    (follows : ∀ entry, P.Follows entry (ended entry) (P.initial entry) (sys.program entry))
    (starts : ∀ s phases i entry, Inv s phases → phases i = P.idle →
      Inv s (Function.update phases i (P.initial entry)))
    (steps : ∀ s phases i entry c choice, Inv s phases → P.permitted entry (phases i) c →
      sys.waits c s = false → condition entry c choice s →
      Inv (sys.respond c choice s).2
        (Function.update phases i (P.after entry (phases i) c (sys.respond c choice s).1)))
    {k : Threads Call Answer η ε σ Entry} {schedule : List (Schedule Entry Choice)}
    (held : ∃ phases, P.Agree ended k phases ∧ Inv k.state phases)
    (meets : Runs.Guarded sys.advance (sys.Meets condition) k schedule) :
    ∃ phases, P.Agree ended (Runs.run sys.advance k schedule) phases ∧
      Inv (Runs.run sys.advance k schedule).state phases :=
  Runs.guarded_run_invariant _ (advance_keeps follows starts steps) held meets

/- With no threads running, nothing is asked of the programs. -/
theorem agree_none (s : σ) :
    P.Agree ended (⟨s, []⟩ : Threads Call Answer η ε σ Entry) fun _ => P.idle where
  follows := by
    intro i entry x found
    cases found
  beyond := fun _ _ => rfl

end Protocol
end Flow
