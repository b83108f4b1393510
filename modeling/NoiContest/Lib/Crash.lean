import NoiContest.Lib.Flow

/- Runs that end in the middle, as when the process dies between two calls: what was done stays
   done. A check looks at every call of a run, with the state before it. -/
namespace Flow

variable {Call : Type} {Answer : Call → Type} {η ε α σ Choice : Type}

namespace Program

/-- The first calls of a run; no result when there are more of them. -/
def cut (respond : (c : Call) → Choice → σ → Except η (Answer c) × σ) :
    Nat → Program Call Answer η ε α → (Nat → Choice) → σ → Option (Except ε α) × σ
  | _, .done result, _, s => (some result, s)
  | 0, .call _ _, _, s => (none, s)
  | n + 1, .call c next, choices, s =>
    let answered := respond c (choices 0) s
    cut respond n (next answered.1) (fun n => choices (n + 1)) answered.2

/-- The calls that a run gets to make are allowed. -/
def ObeysFor (respond : (c : Call) → Choice → σ → Except η (Answer c) × σ)
    (allowed : Call → Choice → σ → Prop) :
    Nat → Program Call Answer η ε α → (Nat → Choice) → σ → Prop
  | _, .done _, _, _ => True
  | 0, .call _ _, _, _ => True
  | n + 1, .call c next, choices, s =>
    allowed c (choices 0) s ∧
      ObeysFor respond allowed n (next (respond c (choices 0) s).1) (fun n => choices (n + 1))
        (respond c (choices 0) s).2

def decideObeysFor (respond : (c : Call) → Choice → σ → Except η (Answer c) × σ)
    {allowed : Call → Choice → σ → Prop} [∀ c choice s, Decidable (allowed c choice s)] :
    (n : Nat) → (x : Program Call Answer η ε α) → (choices : Nat → Choice) → (s : σ) →
      Decidable (x.ObeysFor respond allowed n choices s)
  | n, .done _, _, _ => isTrue (by cases n <;> trivial)
  | 0, .call _ _, _, _ => isTrue trivial
  | n + 1, .call c next, choices, s =>
    @instDecidableAnd _ _ _ (decideObeysFor respond n (next (respond c (choices 0) s).1)
      (fun n => choices (n + 1)) (respond c (choices 0) s).2)

instance (respond : (c : Call) → Choice → σ → Except η (Answer c) × σ)
    {allowed : Call → Choice → σ → Prop} [∀ c choice s, Decidable (allowed c choice s)] (n : Nat)
    (x : Program Call Answer η ε α) (choices : Nat → Choice) (s : σ) :
    Decidable (x.ObeysFor respond allowed n choices s) := decideObeysFor respond n x choices s

end Program

variable {respond : (c : Call) → Choice → σ → Except η (Answer c) × σ}
  {allowed checks : Call → Choice → σ → Prop} {s : σ} {post : α → σ → Prop}
  {raised : ε → σ → Prop}

@[simp] theorem cut_done (result : Except ε α) (n : Nat) (choices : Nat → Choice) (s : σ) :
    (Program.done result : Program Call Answer η ε α).cut respond n choices s =
      (some result, s) := by
  cases n <;> rfl

/-- The demonic environment, with a check that every call has to pass. -/
def checking (respond : (c : Call) → Choice → σ → Except η (Answer c) × σ)
    (allowed checks : Call → Choice → σ → Prop) : Transformer Call Answer η σ :=
  fun c s next => ∀ choice, allowed c choice s →
    checks c choice s ∧ next (respond c choice s).1 (respond c choice s).2

theorem checking_monotone : Monotone (checking respond allowed checks) :=
  fun _ _ _ _ weaker holds choice permitted =>
    ⟨(holds choice permitted).1, weaker _ _ (holds choice permitted).2⟩

theorem obeysFor_of_all (all : ∀ c choice s, allowed c choice s) (n : Nat)
    (x : Program Call Answer η ε α) (choices : Nat → Choice) (s : σ) :
    x.ObeysFor respond allowed n choices s := by
  induction x generalizing s choices n with
  | done result => cases n <;> trivial
  | call c next ih =>
    cases n with
    | zero => trivial
    | succ n => exact ⟨all c (choices 0) s, ih _ n _ _⟩

theorem Program.ObeysFor.mono {allowed' : Call → Choice → σ → Prop} {n : Nat}
    {x : Program Call Answer η ε α} {choices : Nat → Choice}
    (obeys : x.ObeysFor respond allowed n choices s)
    (weaker : ∀ c choice s, allowed c choice s → allowed' c choice s) :
    x.ObeysFor respond allowed' n choices s := by
  induction x generalizing s choices n with
  | done result => cases n <;> trivial
  | call c next ih =>
    cases n with
    | zero => trivial
    | succ n => exact ⟨weaker _ _ _ obeys.1, ih _ obeys.2⟩

theorem exec_of_checking {x : Program Call Answer η ε α} {choices : Nat → Choice}
    (ends : Ends (checking respond allowed checks) x s post raised)
    (obeys : x.Obeys respond allowed choices s) : Meets post raised (x.exec respond choices s) := by
  induction x generalizing s choices with
  | done result => cases result <;> exact ends
  | call c next ih => exact ih _ (ends (choices 0) obeys.1).2 obeys.2

theorem obeys_of_checking {x : Program Call Answer η ε α} {choices : Nat → Choice}
    (ends : Ends (checking respond allowed checks) x s post raised)
    (obeys : x.Obeys respond allowed choices s) : x.Obeys respond checks choices s := by
  induction x generalizing s choices with
  | done result => trivial
  | call c next ih =>
    obtain ⟨here, onward⟩ := ends (choices 0) obeys.1
    exact ⟨here, ih _ onward obeys.2⟩

/- What every call leaves behind is also what a crash leaves behind, and a run that got to its end
   has its result. -/
theorem cut_of_ends (P : σ → Prop) {x : Program Call Answer η ε α} {choices : Nat → Choice}
    (n : Nat) (start : P s)
    (ends : Ends (checking respond allowed fun c choice s => P (respond c choice s).2) x s post
      raised)
    (permitted : x.ObeysFor respond allowed n choices s) :
    P (x.cut respond n choices s).2 ∧ ∀ result, (x.cut respond n choices s).1 = some result →
      Meets post raised (result, (x.cut respond n choices s).2) := by
  induction x generalizing s choices n with
  | done outcome =>
    rw [cut_done]
    refine ⟨start, fun result ended => ?_⟩
    rw [← Option.some.inj ended]
    cases outcome <;> exact ends
  | call c next ih =>
    cases n with
    | zero => exact ⟨start, fun result ended => by cases ended⟩
    | succ n =>
      obtain ⟨here, onward⟩ := ends (choices 0) permitted.1
      exact ih _ n here onward permitted.2

end Flow
