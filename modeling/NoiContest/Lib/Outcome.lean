import Mathlib.Data.List.Basic
import Mathlib.Data.List.Forall2

/- Inversion of checked code written in the Except monad. -/
namespace Outcome
variable {ε α β : Type}

/-- `if bad: raise error` -/
def raiseIf (bad : Prop) [Decidable bad] (error : ε) : Except ε Unit :=
  if bad then .error error else .ok ()

@[simp] theorem raiseIf_ok {bad : Prop} [Decidable bad] {error : ε} {u : Unit} :
    raiseIf bad error = .ok u ↔ ¬ bad := by
  by_cases holds : bad <;> simp [raiseIf, holds]

theorem raiseIf_neg {bad : Prop} [Decidable bad] {error : ε} (fine : ¬ bad) :
    raiseIf bad error = .ok () := if_neg fine

theorem raiseIf_pos {bad : Prop} [Decidable bad] {error : ε} (holds : bad) :
    raiseIf bad error = .error error := if_pos holds

@[simp] theorem ok_bind {a : α} {f : α → Except ε β} : (Except.ok a >>= f) = f a := rfl

@[simp] theorem error_bind {e : ε} {f : α → Except ε β} : (Except.error e >>= f) = .error e := rfl

theorem ok_of_isOk {x : Except ε α} (accepted : x.isOk = true) : ∃ a, x = .ok a := by
  cases x with
  | error e => cases accepted
  | ok a => exact ⟨a, rfl⟩

theorem bind_ok {x : Except ε α} {f : α → Except ε β} {b : β} :
    (x >>= f) = .ok b ↔ ∃ a, x = .ok a ∧ f a = .ok b := by
  cases x with
  | error e => simp [bind, Except.bind]
  | ok a => simp [bind, Except.bind]

theorem map_ok {x : Except ε α} {f : α → β} {b : β} :
    x.map f = .ok b ↔ ∃ a, x = .ok a ∧ f a = b := by
  cases x with
  | error e => simp [Except.map]
  | ok a => simp [Except.map]

@[simp] theorem mapError_ok {δ : Type} {x : Except ε α} {f : ε → δ} {a : α} :
    x.mapError f = .ok a ↔ x = .ok a := by
  cases x <;> simp [Except.mapError]

@[simp] theorem throw_ne_ok {e : ε} {a : α} : ((throw e : Except ε α) = .ok a) ↔ False := by
  simp [throw, throwThe, MonadExceptOf.throw]

@[simp] theorem pure_eq_ok {a b : α} : ((pure a : Except ε α) = .ok b) ↔ a = b := by
  simp [pure, Except.pure]

theorem mapM_ok {f : α → Except ε β} {l : List α} {results : List β} :
    l.mapM f = .ok results ↔ List.Forall₂ (fun a b => f a = .ok b) l results := by
  induction l generalizing results with
  | nil =>
    rw [List.mapM_nil, List.forall₂_nil_left_iff, pure_eq_ok, eq_comm]
  | cons a rest ih =>
    rw [List.mapM_cons, bind_ok, List.forall₂_cons_left_iff]
    constructor
    · rintro ⟨b, first, later⟩
      obtain ⟨bs, others, rest⟩ := bind_ok.mp later
      exact ⟨b, bs, first, ih.mp others, (pure_eq_ok.mp rest).symm⟩
    · rintro ⟨b, bs, first, others, rfl⟩
      exact ⟨b, first, bind_ok.mpr ⟨bs, ih.mpr others, rfl⟩⟩

theorem mapM_each {f : α → Except ε β} {l : List α} {results : List β}
    (done : l.mapM f = .ok results) : ∀ a ∈ l, ∃ b, f a = .ok b := by
  have pairs := mapM_ok.mp done
  induction pairs with
  | nil => nofun
  | cons first rest ih => exact List.forall_mem_cons.mpr ⟨⟨_, first⟩, ih (mapM_ok.mpr rest)⟩

theorem mapM_mem {f : α → Except ε β} {l : List α} {results : List β}
    (done : l.mapM f = .ok results) : ∀ b ∈ results, ∃ a ∈ l, f a = .ok b := by
  have pairs := mapM_ok.mp done
  clear done
  induction pairs with
  | nil => nofun
  | cons first rest ih =>
    refine List.forall_mem_cons.mpr ⟨⟨_, List.mem_cons_self, first⟩, fun b mem => ?_⟩
    obtain ⟨a, inside, given⟩ := ih b mem
    exact ⟨a, List.mem_cons_of_mem _ inside, given⟩

theorem forM_ok {f : α → Except ε Unit} {l : List α} {u : Unit} :
    l.forM f = .ok u ↔ ∀ a ∈ l, f a = .ok () := by
  induction l with
  | nil => simp [pure, Except.pure]
  | cons a rest ih =>
    change (f a >>= fun _ => rest.forM f) = _ ↔ _
    rw [bind_ok, List.forall_mem_cons, ih]
    exact ⟨fun ⟨_, first, others⟩ => ⟨first, others⟩, fun ⟨first, others⟩ => ⟨_, first, others⟩⟩

end Outcome
