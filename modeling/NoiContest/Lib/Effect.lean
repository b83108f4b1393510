import Mathlib.Data.List.Basic

/- Programs over a state that may raise. A raised error keeps what was written before it, as
   in Python and JavaScript. `Ends` is the weakest precondition with one postcondition for
   each way out, and its rules follow the constructors of the monad. -/
namespace Effect
variable {ε σ α β : Type}

def Ends (x : EStateM ε σ α) (s : σ) (post : α → σ → Prop) (raised : ε → σ → Prop) : Prop :=
  match x s with
  | .ok a t => post a t
  | .error e t => raised e t

variable {s : σ} {post : β → σ → Prop} {raised : ε → σ → Prop}

@[simp] theorem ends_pure {b : β} : Ends (pure b) s post raised ↔ post b s := Iff.rfl

@[simp] theorem ends_throw {e : ε} : Ends (throw e) s post raised ↔ raised e s := Iff.rfl

@[simp] theorem ends_get {post : σ → σ → Prop} : Ends get s post raised ↔ post s s := Iff.rfl

@[simp] theorem ends_set {t : σ} {post : PUnit → σ → Prop} :
    Ends (set t) s post raised ↔ post ⟨⟩ t := Iff.rfl

@[simp] theorem ends_modify {f : σ → σ} {post : PUnit → σ → Prop} :
    Ends (modify f) s post raised ↔ post ⟨⟩ (f s) := Iff.rfl

@[simp] theorem ends_modifyGet {f : σ → β × σ} :
    Ends (modifyGet f) s post raised ↔ post (f s).1 (f s).2 := Iff.rfl

@[simp] theorem ends_bind {x : EStateM ε σ α} {f : α → EStateM ε σ β} :
    Ends (x >>= f) s post raised ↔ Ends x s (fun a t => Ends (f a) t post raised) raised := by
  unfold Ends
  cases run : x s <;> simp [bind, EStateM.bind, run]

@[simp] theorem ends_map {x : EStateM ε σ α} {f : α → β} :
    Ends (f <$> x) s post raised ↔ Ends x s (fun a t => post (f a) t) raised := by
  unfold Ends
  cases run : x s <;> simp [Functor.map, EStateM.map, run]

@[simp] theorem ends_tryCatch {x : EStateM ε σ β} {handle : ε → EStateM ε σ β} :
    Ends (tryCatch x handle) s post raised ↔
      Ends x s post (fun e t => Ends (handle e) t post raised) := by
  unfold Ends
  cases run : x s <;>
    simp [tryCatch, tryCatchThe, MonadExceptOf.tryCatch, EStateM.tryCatch, run,
      EStateM.Backtrackable.restore, EStateM.dummyRestore]

@[simp] theorem ends_ite {c : Prop} [Decidable c] {x y : EStateM ε σ β} :
    Ends (if c then x else y) s post raised ↔
      (c → Ends x s post raised) ∧ (¬ c → Ends y s post raised) := by
  by_cases holds : c <;> simp [holds]

theorem Ends.mono {x : EStateM ε σ β} {post' : β → σ → Prop} {raised' : ε → σ → Prop}
    (ends : Ends x s post raised) (onPost : ∀ b t, post b t → post' b t)
    (onRaised : ∀ e t, raised e t → raised' e t) : Ends x s post' raised' := by
  unfold Ends at ends ⊢
  cases run : x s with
  | ok b t =>
    rw [run] at ends
    exact onPost b t ends
  | error e t =>
    rw [run] at ends
    exact onRaised e t ends

theorem Ends.and {x : EStateM ε σ β} {post' : β → σ → Prop} {raised' : ε → σ → Prop}
    (first : Ends x s post raised) (second : Ends x s post' raised') :
    Ends x s (fun b t => post b t ∧ post' b t) (fun e t => raised e t ∧ raised' e t) := by
  unfold Ends at *
  cases run : x s <;> simp_all

/-- Whichever way the program ends, the property of the state survives. -/
def Keeps (P : σ → Prop) (x : EStateM ε σ α) : Prop :=
  ∀ s, P s → Ends x s (fun _ t => P t) (fun _ t => P t)

variable {P : σ → Prop}

theorem keeps_pure {b : β} : Keeps P (pure b : EStateM ε σ β) := fun _ holds => holds

theorem keeps_throw {e : ε} : Keeps P (throw e : EStateM ε σ β) := fun _ holds => holds

theorem keeps_get : Keeps P (get : EStateM ε σ σ) := fun _ holds => holds

theorem keeps_modify {f : σ → σ} (kept : ∀ s, P s → P (f s)) :
    Keeps P (modify f : EStateM ε σ PUnit) := fun s holds => kept s holds

theorem Keeps.bind {x : EStateM ε σ α} {f : α → EStateM ε σ β} (first : Keeps P x)
    (second : ∀ a, Keeps P (f a)) : Keeps P (x >>= f) := by
  intro s holds
  rw [ends_bind]
  exact (first s holds).mono (fun a t kept => second a t kept) fun _ _ kept => kept

theorem Keeps.tryCatch {x : EStateM ε σ β} {handle : ε → EStateM ε σ β} (body : Keeps P x)
    (handler : ∀ e, Keeps P (handle e)) : Keeps P (tryCatch x handle) := by
  intro s holds
  rw [ends_tryCatch]
  exact (body s holds).mono (fun _ _ kept => kept) fun e t kept => handler e t kept

theorem Keeps.ite {c : Prop} [Decidable c] {x y : EStateM ε σ β} (yes : Keeps P x)
    (no : Keeps P y) : Keeps P (if c then x else y) := by
  by_cases holds : c
  · simpa [holds] using yes
  · simpa [holds] using no

end Effect
