import Mathlib.Data.List.Basic

/- Programs as trees of calls to their environment. An answer is a value or an error raised by
   the call, and the rest of the program is a function of it, so one text of a procedure serves
   both sequential runs and interleavings with other procedures. The errors of a program may
   carry more than those of its calls, such as the local variables that a handler looks at.
   `Ends` is the weakest precondition over a predicate transformer for each call. -/
namespace Flow

inductive Program (Call : Type) (Answer : Call → Type) (η ε α : Type) where
  | done (result : Except ε α)
  | call (c : Call) (next : Except η (Answer c) → Program Call Answer η ε α)

variable {Call : Type} {Answer : Call → Type} {η ε ε' α β σ Choice : Type}

namespace Program

def bind : Program Call Answer η ε α → (α → Program Call Answer η ε β) → Program Call Answer η ε β
  | .done (.ok a), f => f a
  | .done (.error e), _ => .done (.error e)
  | .call c next, f => .call c fun answer => (next answer).bind f

instance : Monad (Program Call Answer η ε) where
  pure a := .done (.ok a)
  bind := bind

def perform (c : Call) : Program Call Answer η η (Answer c) := .call c .done

def raise (e : ε) : Program Call Answer η ε α := .done (.error e)

def ofExcept (result : Except ε α) : Program Call Answer η ε α := .done result

/-- `if bad: raise error` -/
def raiseIf (bad : Prop) [Decidable bad] (error : ε) : Program Call Answer η ε Unit :=
  if bad then raise error else pure ()

/-- The outcome of a body as a value. -/
def attempt : Program Call Answer η ε α → Program Call Answer η ε' (Except ε α)
  | .done result => .done (.ok result)
  | .call c next => .call c fun answer => (next answer).attempt

/-- `try: body` with `except Exception as e: handle(e)` -/
def orElse (body : Program Call Answer η ε α) (handle : ε → Program Call Answer η ε' α) :
    Program Call Answer η ε' α :=
  body.attempt >>= fun
    | .ok a => pure a
    | .error e => handle e

def mapError (f : ε → ε') (body : Program Call Answer η ε α) : Program Call Answer η ε' α :=
  body.orElse fun e => raise (f e)

/-- `try: body` with `finally: cleanup` -/
def andFinally (body : Program Call Answer η ε α) (cleanup : Program Call Answer η ε Unit) :
    Program Call Answer η ε α :=
  body.attempt >>= fun result => cleanup >>= fun _ => ofExcept result

/-- The same procedure in a system with more calls. -/
def lift {Call' : Type} {Answer' : Call' → Type} (embed : Call → Call') :
    Program Call (fun c => Answer' (embed c)) η ε α → Program Call' Answer' η ε α
  | .done result => .done result
  | .call c next => .call (embed c) fun answer => (next answer).lift embed

/-- A sequential run: the n-th call meets the n-th choice of the environment. -/
def exec (respond : (c : Call) → Choice → σ → Except η (Answer c) × σ) :
    Program Call Answer η ε α → (Nat → Choice) → σ → Except ε α × σ
  | .done result, _, s => (result, s)
  | .call c next, choices, s =>
    let answered := respond c (choices 0) s
    (next answered.1).exec respond (fun n => choices (n + 1)) answered.2

/-- The choices that a run leaves to what comes after it. -/
def rest (respond : (c : Call) → Choice → σ → Except η (Answer c) × σ) :
    Program Call Answer η ε α → (Nat → Choice) → σ → Nat → Choice
  | .done _, choices, _ => choices
  | .call c next, choices, s =>
    (next (respond c (choices 0) s).1).rest respond (fun n => choices (n + 1))
      (respond c (choices 0) s).2

/-- The run returns, and what comes after it has the property. -/
def GoesThrough (respond : (c : Call) → Choice → σ → Except η (Answer c) × σ)
    (x : Program Call Answer η ε α) (choices : Nat → Choice) (s : σ)
    (after : α → (Nat → Choice) → σ → Prop) : Prop :=
  match x.exec respond choices s with
  | (.ok a, t) => after a (x.rest respond choices s) t
  | (.error _, _) => False

/-- Every call of the run meets the condition. -/
def Obeys (respond : (c : Call) → Choice → σ → Except η (Answer c) × σ)
    (allowed : Call → Choice → σ → Prop) :
    Program Call Answer η ε α → (Nat → Choice) → σ → Prop
  | .done _, _, _ => True
  | .call c next, choices, s =>
    allowed c (choices 0) s ∧
      (next (respond c (choices 0) s).1).Obeys respond allowed (fun n => choices (n + 1))
        (respond c (choices 0) s).2

/-- Every state that a call of the run leaves behind has the property. -/
def Visits (respond : (c : Call) → Choice → σ → Except η (Answer c) × σ) (P : σ → Prop) :
    Program Call Answer η ε α → (Nat → Choice) → σ → Prop
  | .done _, _, _ => True
  | .call c next, choices, s =>
    P (respond c (choices 0) s).2 ∧
      (next (respond c (choices 0) s).1).Visits respond P (fun n => choices (n + 1))
        (respond c (choices 0) s).2

section Decidable
variable (respond : (c : Call) → Choice → σ → Except η (Answer c) × σ)

def decideObeys {allowed : Call → Choice → σ → Prop}
    [∀ c choice s, Decidable (allowed c choice s)] :
    (x : Program Call Answer η ε α) → (choices : Nat → Choice) → (s : σ) →
      Decidable (x.Obeys respond allowed choices s)
  | .done _, _, _ => isTrue trivial
  | .call c next, choices, s =>
    @instDecidableAnd _ _ _ (decideObeys (next (respond c (choices 0) s).1)
      (fun n => choices (n + 1)) (respond c (choices 0) s).2)

def decideVisits {P : σ → Prop} [DecidablePred P] :
    (x : Program Call Answer η ε α) → (choices : Nat → Choice) → (s : σ) →
      Decidable (x.Visits respond P choices s)
  | .done _, _, _ => isTrue trivial
  | .call c next, choices, s =>
    @instDecidableAnd _ _ _ (decideVisits (next (respond c (choices 0) s).1)
      (fun n => choices (n + 1)) (respond c (choices 0) s).2)

instance {allowed : Call → Choice → σ → Prop} [∀ c choice s, Decidable (allowed c choice s)]
    (x : Program Call Answer η ε α) (choices : Nat → Choice) (s : σ) :
    Decidable (x.Obeys respond allowed choices s) := decideObeys respond x choices s

instance {P : σ → Prop} [DecidablePred P] (x : Program Call Answer η ε α)
    (choices : Nat → Choice) (s : σ) : Decidable (x.Visits respond P choices s) :=
  decideVisits respond x choices s

instance {after : α → (Nat → Choice) → σ → Prop} [∀ a choices s, Decidable (after a choices s)]
    (x : Program Call Answer η ε α) (choices : Nat → Choice) (s : σ) :
    Decidable (x.GoesThrough respond choices s after) :=
  match ended : x.exec respond choices s with
  | (.ok a, t) => decidable_of_iff (after a (x.rest respond choices s) t) (by
    simp [GoesThrough, ended])
  | (.error _, _) => isFalse (by simp [GoesThrough, ended])

end Decidable

end Program

open Program

abbrev Transformer (Call : Type) (Answer : Call → Type) (η σ : Type) : Type :=
  (c : Call) → σ → (Except η (Answer c) → σ → Prop) → Prop

def Ends (spec : Transformer Call Answer η σ) : Program Call Answer η ε α → σ →
    (α → σ → Prop) → (ε → σ → Prop) → Prop
  | .done (.ok a), s, post, _ => post a s
  | .done (.error e), s, _, raised => raised e s
  | .call c next, s, post, raised =>
    spec c s fun answer t => Ends spec (next answer) t post raised

/-- Every allowed choice of the environment has to be answered for. -/
def demonic (respond : (c : Call) → Choice → σ → Except η (Answer c) × σ)
    (allowed : Call → Choice → σ → Prop) : Transformer Call Answer η σ :=
  fun c s next => ∀ choice, allowed c choice s →
    next (respond c choice s).1 (respond c choice s).2

def Monotone (spec : Transformer Call Answer η σ) : Prop :=
  ∀ c s (next next' : Except η (Answer c) → σ → Prop),
    (∀ answer t, next answer t → next' answer t) → spec c s next → spec c s next'

variable {respond : (c : Call) → Choice → σ → Except η (Answer c) × σ}
  {allowed : Call → Choice → σ → Prop} {spec : Transformer Call Answer η σ}
  {s : σ} {post : β → σ → Prop} {raised : ε → σ → Prop} {raised' : ε' → σ → Prop}

theorem demonic_monotone : Monotone (demonic respond allowed) :=
  fun _ _ _ _ weaker holds choice permitted => weaker _ _ (holds choice permitted)

@[simp] theorem ends_pure {b : β} : Ends spec (pure b) s post raised ↔ post b s := Iff.rfl

@[simp] theorem ends_raise {e : ε} : Ends spec (raise e) s post raised ↔ raised e s := Iff.rfl

@[simp] theorem ends_ofExcept_ok {b : β} :
    Ends spec (ofExcept (.ok b)) s post raised ↔ post b s := Iff.rfl

@[simp] theorem ends_ofExcept_error {e : ε} :
    Ends spec (ofExcept (.error e)) s post raised ↔ raised e s := Iff.rfl

@[simp] theorem ends_perform {c : Call} {post : Answer c → σ → Prop} {raised : η → σ → Prop} :
    Ends spec (perform c) s post raised ↔
      spec c s fun answer t => Ends spec (ofExcept answer) t post raised := Iff.rfl

@[simp] theorem ends_bind {x : Program Call Answer η ε α} {f : α → Program Call Answer η ε β} :
    Ends spec (x >>= f) s post raised ↔
      Ends spec x s (fun a t => Ends spec (f a) t post raised) raised := by
  have step : ∀ s, Ends spec (x.bind f) s post raised =
      Ends spec x s (fun a t => Ends spec (f a) t post raised) raised := by
    induction x with
    | done result => cases result <;> intro s <;> rfl
    | call c next ih =>
      intro s
      exact congrArg (spec c s) (funext fun answer => funext fun t => ih answer t)
  exact iff_of_eq (step s)

@[simp] theorem ends_attempt {x : Program Call Answer η ε α} {post : Except ε α → σ → Prop} :
    Ends spec x.attempt s post raised' ↔
      Ends spec x s (fun a t => post (.ok a) t) (fun e t => post (.error e) t) := by
  have step : ∀ s, Ends spec x.attempt s post raised' =
      Ends spec x s (fun a t => post (.ok a) t) (fun e t => post (.error e) t) := by
    induction x with
    | done result => cases result <;> intro s <;> rfl
    | call c next ih =>
      intro s
      exact congrArg (spec c s) (funext fun answer => funext fun t => ih answer t)
  exact iff_of_eq (step s)

@[simp] theorem ends_orElse {x : Program Call Answer η ε β}
    {handle : ε → Program Call Answer η ε' β} :
    Ends spec (x.orElse handle) s post raised' ↔
      Ends spec x s post (fun e t => Ends spec (handle e) t post raised') := by
  simp [orElse]

@[simp] theorem ends_mapError {f : ε → ε'} {x : Program Call Answer η ε β} :
    Ends spec (x.mapError f) s post raised' ↔
      Ends spec x s post (fun e t => raised' (f e) t) := by
  simp [mapError]

@[simp] theorem ends_andFinally {x : Program Call Answer η ε β}
    {cleanup : Program Call Answer η ε Unit} :
    Ends spec (x.andFinally cleanup) s post raised ↔
      Ends spec x s (fun b t => Ends spec cleanup t (fun _ => post b) raised)
        (fun e t => Ends spec cleanup t (fun _ => raised e) raised) := by
  simp [andFinally]

@[simp] theorem ends_ite {c : Prop} [Decidable c] {x y : Program Call Answer η ε β} :
    Ends spec (if c then x else y) s post raised ↔
      (c → Ends spec x s post raised) ∧ (¬ c → Ends spec y s post raised) := by
  by_cases holds : c <;> simp [holds]

@[simp] theorem ends_raiseIf {bad : Prop} [Decidable bad] {e : ε}
    {post : Unit → σ → Prop} :
    Ends spec (Program.raiseIf bad e) s post raised ↔
      (bad → raised e s) ∧ (¬ bad → post () s) := by
  simp [Program.raiseIf]

theorem Ends.mono (monotone : Monotone spec) {x : Program Call Answer η ε β}
    {post' : β → σ → Prop} {raised' : ε → σ → Prop} (ends : Ends spec x s post raised)
    (onPost : ∀ b t, post b t → post' b t) (onRaised : ∀ e t, raised e t → raised' e t) :
    Ends spec x s post' raised' := by
  induction x generalizing s with
  | done result =>
    cases result with
    | ok b => exact onPost b s ends
    | error e => exact onRaised e s ends
  | call c next ih => exact monotone c s _ _ (fun answer t held => ih answer held) ends

/- A precondition over a view of the state carries over when the view's transformer says no
   more than the calls do. -/
theorem ends_of_view {τ : Type} {view : σ → τ} {viewed : Transformer Call Answer η τ}
    (monotone : Monotone spec)
    (refines : ∀ c s (next : Except η (Answer c) → τ → Prop), viewed c (view s) next →
      spec c s fun answer t => next answer (view t))
    {x : Program Call Answer η ε β} {post : β → τ → Prop} {raised : ε → τ → Prop}
    (ends : Ends viewed x (view s) post raised) :
    Ends spec x s (fun b t => post b (view t)) (fun e t => raised e (view t)) := by
  induction x generalizing s with
  | done result => cases result <;> exact ends
  | call c next ih =>
    exact monotone c s _ _ (fun answer t held => ih answer held) (refines c s _ ends)

/- An environment that makes one choice for every call. -/
theorem exec_bind_steady (x : Program Call Answer η ε α) (f : α → Program Call Answer η ε β)
    (choice : Choice) (s : σ) :
    (x >>= f).exec respond (fun _ => choice) s =
      match x.exec respond (fun _ => choice) s with
      | (.ok a, t) => (f a).exec respond (fun _ => choice) t
      | (.error e, t) => (.error e, t) := by
  induction x generalizing s with
  | done result => cases result <;> rfl
  | call c next ih => exact ih _ _

/- Sequencing, where the second part meets the choices that the first one left. -/
theorem exec_bind (x : Program Call Answer η ε α) (f : α → Program Call Answer η ε β)
    (choices : Nat → Choice) (s : σ) :
    (x >>= f).exec respond choices s =
      match x.exec respond choices s with
      | (.ok a, t) => (f a).exec respond (x.rest respond choices s) t
      | (.error e, t) => (.error e, t) := by
  induction x generalizing s choices with
  | done result => cases result <;> rfl
  | call c next ih => exact ih _ _ _

theorem bind_assoc {γ : Type} (x : Program Call Answer η ε α) (f : α → Program Call Answer η ε β)
    (g : β → Program Call Answer η ε γ) : x >>= f >>= g = x >>= fun a => f a >>= g := by
  change (x.bind f).bind g = x.bind fun a => (f a).bind g
  induction x with
  | done result => cases result <;> rfl
  | call c next ih => exact congrArg (Program.call c) (funext ih)

/- A run uses up the choices from the front. -/
theorem rest_suffix (x : Program Call Answer η ε α) (choices : Nat → Choice) (s : σ) :
    ∃ used, x.rest respond choices s = fun n => choices (n + used) := by
  induction x generalizing s choices with
  | done result => exact ⟨0, rfl⟩
  | call c next ih =>
    obtain ⟨used, eq⟩ := ih (respond c (choices 0) s).1 (fun n => choices (n + 1))
      (respond c (choices 0) s).2
    exact ⟨used + 1, eq⟩

theorem exec_attempt (x : Program Call Answer η ε α) (choices : Nat → Choice) (s : σ) :
    (x.attempt : Program Call Answer η ε' (Except ε α)).exec respond choices s =
      (.ok (x.exec respond choices s).1, (x.exec respond choices s).2) := by
  induction x generalizing s choices with
  | done result => rfl
  | call c next ih => exact ih _ _ _

theorem rest_attempt (x : Program Call Answer η ε α) (choices : Nat → Choice) (s : σ) :
    (x.attempt : Program Call Answer η ε' (Except ε α)).rest respond choices s =
      x.rest respond choices s := by
  induction x generalizing s choices with
  | done result => rfl
  | call c next ih => exact ih _ _ _

theorem exec_andFinally (x : Program Call Answer η ε α) (cleanup : Program Call Answer η ε Unit)
    (choices : Nat → Choice) (s : σ) :
    (x.andFinally cleanup).exec respond choices s =
      match cleanup.exec respond (x.rest respond choices s) (x.exec respond choices s).2 with
      | (.ok _, t) => ((x.exec respond choices s).1, t)
      | (.error e, t) => (.error e, t) := by
  rw [Program.andFinally, exec_bind, exec_attempt, rest_attempt]
  dsimp only
  rw [exec_bind]
  generalize cleanup.exec respond (x.rest respond choices s) (x.exec respond choices s).2 = closed
  obtain ⟨result, t⟩ := closed
  cases result <;> rfl

@[simp] theorem exec_perform (c : Call) (choices : Nat → Choice) (s : σ) :
    (perform c : Program Call Answer η η (Answer c)).exec respond choices s =
      respond c (choices 0) s := rfl

@[simp] theorem rest_perform (c : Call) (choices : Nat → Choice) (s : σ) :
    (perform c : Program Call Answer η η (Answer c)).rest respond choices s =
      fun n => choices (n + 1) := rfl

@[simp] theorem rest_pure (a : α) (choices : Nat → Choice) (s : σ) :
    (pure a : Program Call Answer η ε α).rest respond choices s = choices := rfl

@[simp] theorem exec_pure (a : α) (choices : Nat → Choice) (s : σ) :
    (pure a : Program Call Answer η ε α).exec respond choices s = (.ok a, s) := rfl

@[simp] theorem exec_ofExcept (result : Except ε α) (choices : Nat → Choice) (s : σ) :
    (ofExcept result : Program Call Answer η ε α).exec respond choices s = (result, s) := rfl

/- Sequencing, with a description of the first part. -/
theorem Ends.bind (monotone : Monotone spec) {x : Program Call Answer η ε α}
    {f : α → Program Call Answer η ε β} {middle : α → σ → Prop} {failed : ε → σ → Prop}
    (first : Ends spec x s middle failed)
    (second : ∀ a t, middle a t → Ends spec (f a) t post raised)
    (onRaised : ∀ e t, failed e t → raised e t) : Ends spec (x >>= f) s post raised := by
  rw [ends_bind]
  exact first.mono monotone second onRaised

/- Two descriptions of one demonic run hold together. -/
theorem Ends.both {x : Program Call Answer η ε β} {post' : β → σ → Prop} {raised' : ε → σ → Prop}
    (first : Ends (demonic respond allowed) x s post raised)
    (second : Ends (demonic respond allowed) x s post' raised') :
    Ends (demonic respond allowed) x s (fun b t => post b t ∧ post' b t)
      (fun e t => raised e t ∧ raised' e t) := by
  induction x generalizing s with
  | done result => cases result <;> exact ⟨first, second⟩
  | call c next ih =>
    intro choice permitted
    exact ih _ (first choice permitted) (second choice permitted)

/-- Partial correctness: from any state, a normal end has the property. -/
def Yields (spec : Transformer Call Answer η σ) (x : Program Call Answer η ε β)
    (post : β → σ → Prop) : Prop :=
  ∀ s, Ends spec x s post fun _ _ => True

section Yields
variable {x : Program Call Answer η ε β}

theorem yields_raise {e : ε} : Yields spec (raise e : Program Call Answer η ε β) post :=
  fun _ => trivial

theorem Yields.ite {c : Prop} [Decidable c] {y : Program Call Answer η ε β}
    (yes : c → Yields spec x post) (no : ¬ c → Yields spec y post) :
    Yields spec (if c then x else y) post := by
  intro s
  rw [ends_ite]
  exact ⟨fun holds => yes holds s, fun fails => no fails s⟩

theorem Yields.mono (monotone : Monotone spec) {post' : β → σ → Prop} (yields : Yields spec x post)
    (weaker : ∀ b t, post b t → post' b t) : Yields spec x post' :=
  fun s => (yields s).mono monotone weaker fun _ _ _ => trivial

theorem Yields.orElse {handle : ε → Program Call Answer η ε' β} (monotone : Monotone spec)
    (body : Yields spec x post) (handler : ∀ e, Yields spec (handle e) post) :
    Yields spec (x.orElse handle) post := by
  intro s
  rw [ends_orElse]
  exact (body s).mono monotone (fun _ _ held => held) fun e t _ => handler e t

/- Where nothing is known of the first part. -/
theorem Yields.after {x : Program Call Answer η ε α} {f : α → Program Call Answer η ε β}
    (rest : ∀ a, Yields (demonic respond allowed) (f a) post) :
    Yields (demonic respond allowed) (x >>= f) post := by
  intro s
  rw [ends_bind]
  induction x generalizing s with
  | done result =>
    cases result with
    | ok a => exact rest a s
    | error e => trivial
  | call c next ih => exact fun choice _ => ih _ _

end Yields

/-- Whichever way the program ends, the property of the state survives. -/
def Keeps (spec : Transformer Call Answer η σ) (P : σ → Prop)
    (x : Program Call Answer η ε α) : Prop :=
  ∀ s, P s → Ends spec x s (fun _ t => P t) (fun _ t => P t)

section Keeps
variable {P : σ → Prop} {x : Program Call Answer η ε α} {y : Program Call Answer η ε β}

theorem keeps_pure {a : α} : Keeps spec P (pure a : Program Call Answer η ε α) :=
  fun _ holds => holds

theorem keeps_raise {e : ε} : Keeps spec P (raise e : Program Call Answer η ε α) :=
  fun _ holds => holds

theorem keeps_ofExcept {result : Except ε α} :
    Keeps spec P (ofExcept result : Program Call Answer η ε α) := by
  intro s holds
  cases result <;> exact holds

theorem keeps_raiseIf {bad : Prop} [Decidable bad] {e : ε} :
    Keeps spec P (Program.raiseIf bad e : Program Call Answer η ε Unit) := by
  intro s holds
  rw [ends_raiseIf]
  exact ⟨fun _ => holds, fun _ => holds⟩

theorem Keeps.bind {f : α → Program Call Answer η ε β} (monotone : Monotone spec)
    (first : Keeps spec P x) (second : ∀ a, Keeps spec P (f a)) : Keeps spec P (x >>= f) := by
  intro s holds
  rw [ends_bind]
  exact (first s holds).mono monotone (fun a t kept => second a t kept) fun _ _ kept => kept

theorem Keeps.orElse {handle : ε → Program Call Answer η ε' α} (monotone : Monotone spec)
    (body : Keeps spec P x) (handler : ∀ e, Keeps spec P (handle e)) :
    Keeps spec P (x.orElse handle) := by
  intro s holds
  rw [ends_orElse]
  exact (body s holds).mono monotone (fun _ _ kept => kept) fun e t kept => handler e t kept

theorem Keeps.mapError {f : ε → ε'} (body : Keeps spec P x) :
    Keeps spec P (x.mapError f) := by
  intro s holds
  rw [ends_mapError]
  exact body s holds

theorem Keeps.attempt (body : Keeps spec P x) :
    Keeps spec P (x.attempt : Program Call Answer η ε' (Except ε α)) := by
  intro s holds
  rw [ends_attempt]
  exact body s holds

theorem Keeps.andFinally {cleanup : Program Call Answer η ε Unit} (monotone : Monotone spec)
    (body : Keeps spec P x) (closing : Keeps spec P cleanup) :
    Keeps spec P (x.andFinally cleanup) := by
  intro s holds
  rw [ends_andFinally]
  exact (body s holds).mono monotone (fun _ t kept => closing t kept)
    fun _ t kept => closing t kept

theorem Keeps.ite {c : Prop} [Decidable c] {y : Program Call Answer η ε α}
    (yes : Keeps spec P x) (no : Keeps spec P y) : Keeps spec P (if c then x else y) := by
  by_cases holds : c
  · simpa [holds] using yes
  · simpa [holds] using no

/- What every call preserves, every program does. -/
theorem keeps_of_calls (monotone : Monotone spec)
    (calls : ∀ c s, P s → spec c s fun _ t => P t) : Keeps spec P x := by
  intro s holds
  induction x generalizing s with
  | done result => cases result <;> exact holds
  | call c next ih =>
    exact monotone c s _ _ (fun answer t kept => ih answer t kept) (calls c s holds)

end Keeps

/-- Every call that the program can reach is of the given kind. -/
inductive Only (kind : Call → Prop) : Program Call Answer η ε α → Prop
  | done (result : Except ε α) : Only kind (.done result)
  | call {c : Call} {next : Except η (Answer c) → Program Call Answer η ε α} (is : kind c)
      (rest : ∀ answer, Only kind (next answer)) : Only kind (.call c next)

section Only
variable {kind : Call → Prop} {x : Program Call Answer η ε α}

theorem only_pure {a : α} : Only kind (pure a : Program Call Answer η ε α) := .done _

theorem only_raise {e : ε} : Only kind (raise e : Program Call Answer η ε α) := .done _

theorem only_ofExcept {result : Except ε α} :
    Only kind (ofExcept result : Program Call Answer η ε α) := .done _

theorem only_raiseIf {bad : Prop} [Decidable bad] {e : ε} :
    Only kind (Program.raiseIf bad e : Program Call Answer η ε Unit) := by
  unfold Program.raiseIf
  split
  · exact only_raise
  · exact only_pure

theorem only_perform {c : Call} (is : kind c) :
    Only kind (perform c : Program Call Answer η η (Answer c)) := .call is fun _ => .done _

theorem Only.bind {f : α → Program Call Answer η ε β} (first : Only kind x)
    (second : ∀ a, Only kind (f a)) : Only kind (x >>= f) := by
  induction first with
  | done result =>
    cases result with
    | ok a => exact second a
    | error e => exact .done _
  | call is _ ih => exact .call is ih

theorem Only.attempt (body : Only kind x) :
    Only kind (x.attempt : Program Call Answer η ε' (Except ε α)) := by
  induction body with
  | done result => exact .done _
  | call is _ ih => exact .call is ih

theorem Only.orElse {handle : ε → Program Call Answer η ε' α} (body : Only kind x)
    (handler : ∀ e, Only kind (handle e)) : Only kind (x.orElse handle) := by
  apply Only.bind body.attempt
  intro result
  cases result with
  | ok a => exact only_pure
  | error e => exact handler e

theorem Only.mapError {f : ε → ε'} (body : Only kind x) : Only kind (x.mapError f) :=
  body.orElse fun _ => only_raise

theorem Only.andFinally {cleanup : Program Call Answer η ε Unit} (body : Only kind x)
    (closing : Only kind cleanup) : Only kind (x.andFinally cleanup) :=
  Only.bind body.attempt fun _ => closing.bind fun _ => only_ofExcept

theorem Only.ite {c : Prop} [Decidable c] {y : Program Call Answer η ε α} (yes : Only kind x)
    (no : Only kind y) : Only kind (if c then x else y) := by
  by_cases holds : c
  · simpa [holds] using yes
  · simpa [holds] using no

theorem Only.mono {kind' : Call → Prop} (only : Only kind x) (wider : ∀ c, kind c → kind' c) :
    Only kind' x := by
  induction only with
  | done result => exact .done _
  | call is _ ih => exact .call (wider _ is) ih

/- Calls of a kind that preserves a property make a program that preserves it. -/
theorem Only.keeps (monotone : Monotone spec) {P : σ → Prop}
    (calls : ∀ c, kind c → ∀ s, P s → spec c s fun _ t => P t) (only : Only kind x) :
    Keeps spec P x := by
  intro s holds
  induction only generalizing s with
  | done result => cases result <;> exact holds
  | call is _ ih =>
    exact monotone _ s _ _ (fun answer t kept => ih answer t kept) (calls _ is s holds)

/-- Every value that the program can return satisfies the property, whatever the calls do. -/
inductive Returns (P : α → Prop) : Program Call Answer η ε α → Prop
  | ok {a : α} (holds : P a) : Returns P (.done (.ok a))
  | error (e : ε) : Returns P (.done (.error e))
  | call {c : Call} {next : Except η (Answer c) → Program Call Answer η ε α}
      (rest : ∀ answer, Returns P (next answer)) : Returns P (.call c next)

variable {P : α → Prop} {Q : β → Prop}

theorem returns_pure {b : β} (holds : Q b) :
    Returns Q (pure b : Program Call Answer η ε β) := .ok holds

theorem returns_raise {e : ε} : Returns Q (raise e : Program Call Answer η ε β) := .error e

theorem Returns.bind {f : α → Program Call Answer η ε β} (first : Returns P x)
    (second : ∀ a, P a → Returns Q (f a)) : Returns Q (x >>= f) := by
  induction first with
  | ok holds => exact second _ holds
  | error e => exact .error e
  | call _ ih => exact .call ih

theorem Returns.mono {P' : α → Prop} (returns : Returns P x) (weaker : ∀ a, P a → P' a) :
    Returns P' x := by
  induction returns with
  | ok holds => exact .ok (weaker _ holds)
  | error e => exact .error e
  | call _ ih => exact .call ih

theorem returns_any : Returns (fun _ => True) x := by
  induction x with
  | done result =>
    cases result with
    | ok a => exact .ok trivial
    | error e => exact .error e
  | call c next ih => exact .call ih

/- A value property of its own next to the preserved one. -/
theorem Only.keeps_returning (monotone : Monotone spec) {R : σ → Prop}
    (calls : ∀ c, kind c → ∀ s, R s → spec c s fun _ t => R t) (only : Only kind x)
    (returns : Returns P x) {s : σ} (holds : R s) :
    Ends spec x s (fun a t => R t ∧ P a) (fun _ t => R t) := by
  induction only generalizing s with
  | done result =>
    cases returns with
    | ok value => exact ⟨holds, value⟩
    | error e => exact holds
  | call is _ ih =>
    cases returns with
    | call rest =>
      exact monotone _ s _ _ (fun answer t kept => ih answer (rest answer) kept)
        (calls _ is s holds)

end Only

section Lift
variable {Call' : Type} {Answer' : Call' → Type} {embed : Call → Call'}

@[simp] theorem ends_lift {spec : Transformer Call' Answer' η σ}
    {x : Program Call (fun c => Answer' (embed c)) η ε β} :
    Ends spec (x.lift embed) s post raised ↔
      Ends (fun c s next => spec (embed c) s next) x s post raised := by
  have step : ∀ s, Ends spec (x.lift embed) s post raised =
      Ends (fun c s next => spec (embed c) s next) x s post raised := by
    induction x with
    | done result => cases result <;> intro s <;> rfl
    | call c next ih =>
      intro s
      exact congrArg (spec (embed c) s) (funext fun answer => funext fun t => ih answer t)
  exact iff_of_eq (step s)

theorem Only.lift {kind : Call' → Prop} {x : Program Call (fun c => Answer' (embed c)) η ε α}
    (only : Only (fun c => kind (embed c)) x) : Only kind (x.lift embed) := by
  induction only with
  | done result => exact .done _
  | call is _ ih => exact .call is ih

end Lift

def Meets (post : β → σ → Prop) (raised : ε → σ → Prop) : Except ε β × σ → Prop
  | (.ok b, s) => post b s
  | (.error e, s) => raised e s

/- A run whose calls are all allowed ends as the precondition says. -/
theorem exec_of_ends {x : Program Call Answer η ε β} {choices : Nat → Choice}
    (ends : Ends (demonic respond allowed) x s post raised)
    (obeys : x.Obeys respond allowed choices s) :
    Meets post raised (x.exec respond choices s) := by
  induction x generalizing s choices with
  | done result => cases result <;> exact ends
  | call c next ih => exact ih _ (ends (choices 0) obeys.1) obeys.2

/- The same for a transformer that says more than the demonic one, such as a property of every
   state on the way. -/
theorem visits_of_ends {P : σ → Prop}
    (tells : ∀ c s next choice, spec c s next → allowed c choice s →
      P (respond c choice s).2 ∧ next (respond c choice s).1 (respond c choice s).2)
    {x : Program Call Answer η ε β} {choices : Nat → Choice} (ends : Ends spec x s post raised)
    (obeys : x.Obeys respond allowed choices s) :
    x.Visits respond P choices s ∧ Meets post raised (x.exec respond choices s) := by
  induction x generalizing s choices with
  | done result => cases result <;> exact ⟨trivial, ends⟩
  | call c next ih =>
    obtain ⟨here, onward⟩ := tells c s _ (choices 0) ends obeys.1
    obtain ⟨later, meets⟩ := ih _ onward obeys.2
    exact ⟨⟨here, later⟩, meets⟩

theorem obeys_trivial (x : Program Call Answer η ε β) (choices : Nat → Choice) (s : σ) :
    x.Obeys respond (fun _ _ _ => True) choices s := by
  induction x generalizing s choices with
  | done result => trivial
  | call c next ih => exact ⟨trivial, ih _ _ _⟩

theorem obeys_of_choices {fine : Choice → Prop} {choices : Nat → Choice}
    (all : ∀ n, fine (choices n)) (x : Program Call Answer η ε β) (s : σ) :
    x.Obeys respond (fun _ choice _ => fine choice) choices s := by
  induction x generalizing s choices with
  | done result => trivial
  | call c next ih => exact ⟨all 0, ih _ (fun n => all (n + 1)) _⟩

end Flow
