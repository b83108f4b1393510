import NoiContest.Lib.Flow

/- Runs with a record, beside the state, of whether every call so far met a condition. -/
namespace Flow
open Program

variable {Call : Type} {Answer : Call → Type} {η ε α σ Choice : Type}

/-- The demonic environment on a state with its record. -/
def watching (respond : (c : Call) → Choice → σ → Except η (Answer c) × σ)
    (allowed fine : Call → Choice → σ → Prop) : Transformer Call Answer η (σ × Prop) :=
  fun c s next => ∀ choice, allowed c choice s.1 →
    next (respond c choice s.1).1 ((respond c choice s.1).2, s.2 ∧ fine c choice s.1)

variable {respond : (c : Call) → Choice → σ → Except η (Answer c) × σ}
  {allowed fine : Call → Choice → σ → Prop} {s : σ} {met : Prop}

theorem watching_monotone : Monotone (watching respond allowed fine) :=
  fun _ _ _ _ weaker holds choice permitted => weaker _ _ (holds choice permitted)

/- At the end the record says whether the run obeyed the condition. -/
theorem exec_of_watching {x : Program Call Answer η ε α} {choices : Nat → Choice}
    {post : α → σ × Prop → Prop} {raised : ε → σ × Prop → Prop}
    (ends : Ends (watching respond allowed fine) x (s, met) post raised)
    (obeys : x.Obeys respond allowed choices s) :
    Meets (fun a t => post a (t, met ∧ x.Obeys respond fine choices s))
      (fun e t => raised e (t, met ∧ x.Obeys respond fine choices s))
      (x.exec respond choices s) := by
  induction x generalizing s choices met with
  | done result =>
    have recorded : (met ∧ (done result : Program Call Answer η ε α).Obeys respond fine choices s)
        = met := propext (and_iff_left trivial)
    rw [recorded]
    cases result <;> exact ends
  | call c next ih =>
    have later := ih _ (ends (choices 0) obeys.1) obeys.2
    have recorded : ((met ∧ fine c (choices 0) s) ∧
        (next (respond c (choices 0) s).1).Obeys respond fine (fun n => choices (n + 1))
          (respond c (choices 0) s).2) =
        (met ∧ (call c next).Obeys respond fine choices s) := propext and_assoc
    rw [recorded] at later
    exact later

end Flow
