import Mathlib.Data.List.Basic

/- Runs of a total transition function over a list of inputs. An interleaving of atomic
   operations is a list of inputs, so a statement about every list is one about every
   interleaving. A guard is a condition on the state before a step and on its input. -/
namespace Runs
variable {State Input : Type}

def run (step : State → Input → State) (s : State) (inputs : List Input) : State :=
  inputs.foldl step s

def Guarded (step : State → Input → State) (guard : State → Input → Prop) :
    State → List Input → Prop
  | _, [] => True
  | s, i :: rest => guard s i ∧ Guarded step guard (step s i) rest

def decideGuarded (step : State → Input → State) (guard : State → Input → Prop)
    [∀ s i, Decidable (guard s i)] : (s : State) → (inputs : List Input) →
    Decidable (Guarded step guard s inputs)
  | _, [] => isTrue trivial
  | s, i :: rest => @instDecidableAnd _ _ _ (decideGuarded step guard (step s i) rest)

instance {step : State → Input → State} {guard : State → Input → Prop}
    [∀ s i, Decidable (guard s i)] (s : State) (inputs : List Input) :
    Decidable (Guarded step guard s inputs) := decideGuarded step guard s inputs

variable {step : State → Input → State} {guard : State → Input → Prop}

@[simp] theorem run_nil (s : State) : run step s [] = s := rfl

@[simp] theorem run_cons (s : State) (i : Input) (rest : List Input) :
    run step s (i :: rest) = run step (step s i) rest := rfl

theorem run_append (s : State) (front back : List Input) :
    run step s (front ++ back) = run step (run step s front) back := by
  simp [run]

theorem guarded_append (s : State) (front back : List Input) :
    Guarded step guard s (front ++ back) ↔
      Guarded step guard s front ∧ Guarded step guard (run step s front) back := by
  induction front generalizing s with
  | nil => simp [Guarded]
  | cons i rest ih => simp [Guarded, ih, and_assoc]

/- The invariant rule: one step lemma gives the statement for every guarded run. -/
theorem guarded_run_invariant (inv : State → Prop)
    (preserved : ∀ s i, inv s → guard s i → inv (step s i)) {s : State} {inputs : List Input}
    (start : inv s) (guarded : Guarded step guard s inputs) : inv (run step s inputs) := by
  induction inputs generalizing s with
  | nil => exact start
  | cons i rest ih => exact ih (preserved s i start guarded.1) guarded.2

/- A guard that holds of every step which the invariant and another guard allow. -/
theorem guarded_of_invariant (inv : State → Prop) {guard' : State → Input → Prop}
    (preserved : ∀ s i, inv s → guard s i → inv (step s i) ∧ guard' s i) {s : State}
    {inputs : List Input} (start : inv s) (guarded : Guarded step guard s inputs) :
    Guarded step guard' s inputs := by
  induction inputs generalizing s with
  | nil => trivial
  | cons i rest ih =>
    obtain ⟨next, held⟩ := preserved s i start guarded.1
    exact ⟨held, ih next guarded.2⟩

theorem run_invariant (inv : State → Prop) (preserved : ∀ s i, inv s → inv (step s i))
    {s : State} (start : inv s) (inputs : List Input) : inv (run step s inputs) := by
  induction inputs generalizing s with
  | nil => exact start
  | cons i rest ih => exact ih (preserved s i start)

/- The same for a condition on the inputs alone. -/
theorem allowed_run_invariant (inv : State → Prop) {allowed : Input → Prop}
    (preserved : ∀ s i, inv s → allowed i → inv (step s i)) {s : State} {inputs : List Input}
    (start : inv s) (each : ∀ i ∈ inputs, allowed i) : inv (run step s inputs) := by
  induction inputs generalizing s with
  | nil => exact start
  | cons i rest ih =>
    exact ih (preserved s i start (each i List.mem_cons_self)) fun j mem =>
      each j (List.mem_cons_of_mem _ mem)

/-- The property holds after every step of the run. -/
def AfterEach (step : State → Input → State) (P : State → Prop) : State → List Input → Prop
  | _, [] => True
  | s, i :: rest => P (step s i) ∧ AfterEach step P (step s i) rest

def decideAfterEach (step : State → Input → State) (P : State → Prop) [DecidablePred P] :
    (s : State) → (inputs : List Input) → Decidable (AfterEach step P s inputs)
  | _, [] => isTrue trivial
  | s, i :: rest => @instDecidableAnd _ _ _ (decideAfterEach step P (step s i) rest)

instance {step : State → Input → State} {P : State → Prop} [DecidablePred P] (s : State)
    (inputs : List Input) : Decidable (AfterEach step P s inputs) :=
  decideAfterEach step P s inputs

/- A step lemma with an exact condition lifts to runs with the condition at every step. -/
theorem afterEach_iff_guarded {P : State → Prop} {assumed : State → Input → Prop}
    (exact_step : ∀ s i, assumed s i → (P (step s i) ↔ guard s i)) {s : State}
    {inputs : List Input} (held : Guarded step assumed s inputs) :
    AfterEach step P s inputs ↔ Guarded step guard s inputs := by
  induction inputs generalizing s with
  | nil => exact Iff.rfl
  | cons i rest ih => exact and_congr (exact_step s i held.1) (ih held.2)

end Runs
