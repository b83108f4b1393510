import NoiContest.Lib.Flow

/- What a program does to an environment that may answer anything: its calls with their answers in
   order, up to its end or to any point before it. Nothing is assumed about what others do between
   two calls, so a law of these traces holds in every interleaving. -/
namespace Flow
open Program

variable {Call : Type} {Answer : Call → Type} {η ε α β σ Choice : Type}

structure Event (Call : Type) (Answer : Call → Type) (η : Type) where
  call : Call
  answer : Except η (Answer call)

abbrev Trace (Call : Type) (Answer : Call → Type) (η : Type) : Type := List (Event Call Answer η)

/-- The traces of a program, with the outcome of those that are complete. -/
inductive Emits (allowed : Event Call Answer η → Prop) :
    Program Call Answer η ε α → Trace Call Answer η → Option (Except ε α) → Prop
  | done (result : Except ε α) : Emits allowed (.done result) [] (some result)
  | stopped (c : Call) (next : Except η (Answer c) → Program Call Answer η ε α) :
    Emits allowed (.call c next) [] none
  | call {c : Call} {next : Except η (Answer c) → Program Call Answer η ε α}
      {trace : Trace Call Answer η} {out : Option (Except ε α)} (answer : Except η (Answer c))
      (permitted : allowed ⟨c, answer⟩) (rest : Emits allowed (next answer) trace out) :
    Emits allowed (.call c next) (⟨c, answer⟩ :: trace) out

/-- Every call has its grounds in the events before it. -/
def Grounded (grounds : Trace Call Answer η → Call → Prop) :
    Trace Call Answer η → Trace Call Answer η → Prop
  | _, [] => True
  | before, event :: later =>
    grounds before event.call ∧ Grounded grounds (before ++ [event]) later

variable {grounds : Trace Call Answer η → Call → Prop} {allowed : Event Call Answer η → Prop}
  {before : Trace Call Answer η} {post : α → Trace Call Answer η → Prop}
  {raised : ε → Trace Call Answer η → Prop}

theorem Grounded.split {front back : Trace Call Answer η} {event : Event Call Answer η}
    (grounded : Grounded grounds before (front ++ event :: back)) :
    grounds (before ++ front) event.call := by
  induction front generalizing before with
  | nil =>
    rw [List.append_nil]
    exact grounded.1
  | cons first front ih =>
    have later := ih grounded.2
    rwa [List.append_assoc] at later

/-- Every allowed answer to a call with grounds has to be coped with. -/
def tracing (allowed : Event Call Answer η → Prop) (grounds : Trace Call Answer η → Call → Prop) :
    Transformer Call Answer η (Trace Call Answer η) :=
  fun c before next => grounds before c ∧
    ∀ answer, allowed ⟨c, answer⟩ → next answer (before ++ [⟨c, answer⟩])

theorem tracing_monotone : Monotone (tracing allowed grounds) :=
  fun _ _ _ _ weaker holds =>
    ⟨holds.1, fun answer permitted => weaker _ _ (holds.2 answer permitted)⟩

/- A precondition over traces is a law of every trace, and of the outcomes of the complete ones. -/
theorem Emits.grounded {x : Program Call Answer η ε α} {trace : Trace Call Answer η}
    {out : Option (Except ε α)} (emits : Emits allowed x trace out)
    (ends : Ends (tracing allowed grounds) x before post raised) :
    Grounded grounds before trace ∧ ∀ result, out = some result →
      Meets post raised (result, before ++ trace) := by
  induction emits generalizing before with
  | done result =>
    refine ⟨trivial, fun result' same => ?_⟩
    rw [← Option.some.inj same, List.append_nil]
    cases result <;> exact ends
  | stopped => exact ⟨trivial, nofun⟩
  | call answer permitted _ ih =>
    obtain ⟨later, outcome⟩ := ih (ends.2 answer permitted)
    refine ⟨⟨ends.1, later⟩, fun result same => ?_⟩
    have meets := outcome result same
    rwa [List.append_assoc] at meets

/-- The trace of a sequential run. -/
def recorded (respond : (c : Call) → Choice → σ → Except η (Answer c) × σ) :
    Program Call Answer η ε α → (Nat → Choice) → σ → Trace Call Answer η
  | .done _, _, _ => []
  | .call c next, choices, s =>
    ⟨c, (respond c (choices 0) s).1⟩ ::
      recorded respond (next (respond c (choices 0) s).1) (fun n => choices (n + 1))
        (respond c (choices 0) s).2

theorem emits_recorded {respond : (c : Call) → Choice → σ → Except η (Answer c) × σ}
    (permitted : ∀ c choice s, allowed ⟨c, (respond c choice s).1⟩)
    (x : Program Call Answer η ε α) (choices : Nat → Choice) (s : σ) :
    Emits allowed x (recorded respond x choices s) (some (x.exec respond choices s).1) := by
  induction x generalizing s choices with
  | done result => exact .done result
  | call c next ih => exact .call _ (permitted c _ s) (ih _ _ _)

/-- The event is in the trace. -/
def Did (trace : Trace Call Answer η) (c : Call) (answer : Answer c) : Prop :=
  ⟨c, .ok answer⟩ ∈ trace

theorem Did.mono {trace longer : Trace Call Answer η} {c : Call} {answer : Answer c}
    (did : Did trace c answer) (extends_ : trace <+: longer) : Did longer c answer :=
  extends_.subset did

theorem did_last {c : Call} {answer : Answer c} :
    Did (before ++ [⟨c, .ok answer⟩]) c answer :=
  List.mem_append_right _ (List.mem_singleton_self _)

/- Calls that have their grounds from here on. -/
theorem Only.traced_from {kind : Call → Prop} {x : Program Call Answer η ε α}
    (free : ∀ c, kind c → ∀ t, before <+: t → grounds t c) (only : Only kind x) :
    Ends (tracing allowed grounds) x before
      (fun _ t => ∃ new, t = before ++ new ∧ ∀ e ∈ new, kind e.call)
      (fun _ t => ∃ new, t = before ++ new ∧ ∀ e ∈ new, kind e.call) := by
  induction only generalizing before with
  | done result => cases result <;> exact ⟨[], (List.append_nil _).symm, nofun⟩
  | @call c next is _ ih =>
    refine ⟨free _ is before List.prefix_rfl, fun answer _ => ?_⟩
    have first : ∀ {t}, (∃ new, t = before ++ [⟨c, answer⟩] ++ new ∧ ∀ e ∈ new, kind e.call) →
        ∃ new, t = before ++ new ∧ ∀ e ∈ new, kind e.call := by
      rintro t ⟨new, rfl, all⟩
      exact ⟨⟨c, answer⟩ :: new, by simp, List.forall_mem_cons.mpr ⟨is, all⟩⟩
    exact (ih answer fun c is t more => free c is t
      ((List.prefix_append ..).trans more)).mono tracing_monotone (fun _ _ => first)
        fun _ _ => first

/- Calls that need no grounds. -/
theorem Only.traced {kind : Call → Prop} {x : Program Call Answer η ε α}
    (free : ∀ c, kind c → ∀ t, grounds t c) (only : Only kind x) :
    Ends (tracing allowed grounds) x before
      (fun _ t => ∃ new, t = before ++ new ∧ ∀ e ∈ new, kind e.call)
      (fun _ t => ∃ new, t = before ++ new ∧ ∀ e ∈ new, kind e.call) :=
  only.traced_from fun c is t _ => free c is t

/- An environment that always gives the same answers. -/
theorem recorded_steady {answer : (c : Call) → Except η (Answer c)} {x : Program Call Answer η ε α}
    {choices : Nat → Choice} {s : σ} {event : Event Call Answer η}
    (mem : event ∈ recorded (fun c _ s => (answer c, s)) x choices s) :
    event.answer = answer event.call := by
  induction x generalizing choices s with
  | done result => exact absurd mem List.not_mem_nil
  | call c next ih =>
    rcases List.mem_cons.mp mem with rfl | later
    · rfl
    · exact ih _ later

end Flow
