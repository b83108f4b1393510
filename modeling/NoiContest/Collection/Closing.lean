import NoiContest.Collection.Evidence

/- How a run of collect ends: the ingress is closed and the lock left whatever happened, and the
   state that it leaves behind tells a confirmed collection from any other outcome. -/
namespace NoiContest.Collection
open Pipeline Flow

variable {cfg : Config} {tid : String} {t : Log}

/-- The attempts to write the state of the contest, with their success. -/
def stateWrite : Event Call Answer Raised → Option (ContestState × Bool)
  | ⟨.base (.setState state _), answer⟩ => some (state, answer.toBool)
  | ⟨.transition _ state _, answer⟩ => some (state, answer.toOption == some true)
  | ⟨.enterSafeWait _, answer⟩ => some (.safeWait, answer.toOption == some true)
  | ⟨.markSafeEnded .., answer⟩ => some (.safeEnded, answer.toOption == some true)
  | _ => none

def lastWrite (t : Log) : Option (ContestState × Bool) := (t.filterMap stateWrite).getLast?

theorem lastWrite_append {new : Log} (silent : new.filterMap stateWrite = []) :
    lastWrite (t ++ new) = lastWrite t := by
  rw [lastWrite, List.filterMap_append, silent, List.append_nil]
  rfl

theorem lastWrite_last {event : Event Call Answer Raised} {write : ContestState × Bool}
    (writes : stateWrite event = some write) : lastWrite (t ++ [event]) = some write := by
  rw [lastWrite, List.filterMap_append, List.filterMap_cons_some writes]
  exact List.getLast?_concat

/-- The lock is kept in the process, and leaving it cannot fail. -/
def Unlocks (event : Event Call Answer Raised) : Prop :=
  ∀ error, event ≠ ⟨.base .leave, .error error⟩

/- The runs of a part, with both ways to end. -/
abbrev Finishes {ε α : Type} (x : Program Call Answer Raised ε α) (t : Log) (post : α → Log → Prop)
    (raised : ε → Log → Prop) : Prop :=
  Ends (tracing Unlocks fun _ _ => True) x t post raised

def Anything {ε : Type} (_ : ε) (_ : Log) : Prop := True

theorem finishes_anyhow {ε α : Type} (x : Program Call Answer Raised ε α) :
    Finishes x t Anything Anything := by
  induction x generalizing t with
  | done result => cases result <;> trivial
  | call c next ih => exact ⟨trivial, fun answer _ => ih answer⟩

theorem Finishes.then {ε α β : Type} {x : Program Call Answer Raised ε α}
    {f : α → Program Call Answer Raised ε β} {M : α → Log → Prop} {F : ε → Log → Prop}
    {post : β → Log → Prop} {raised : ε → Log → Prop} (first : Finishes x t M F)
    (second : ∀ a t', M a t' → Finishes (f a) t' post raised)
    (onRaised : ∀ e t', F e t' → raised e t') : Finishes (x >>= f) t post raised :=
  Ends.bind tracing_monotone first second onRaised

/- Where nothing is known of the first part. -/
theorem finishes_later {ε α β : Type} {x : Program Call Answer Raised ε α}
    {f : α → Program Call Answer Raised ε β} {post : β → Log → Prop}
    (later : ∀ a t', Finishes (f a) t' post Anything) : Finishes (x >>= f) t post Anything :=
  (finishes_anyhow x).then (fun a t' _ => later a t') fun _ _ _ => trivial

def Waiting (_ : Dict String UserAnswers) (t : Log) : Prop :=
  lastWrite t = some (.safeWait, true)

def Failed (_ : Raised) (t : Log) : Prop := (lastWrite t).map Prod.fst = some .error

theorem archiveAndSend_waits (contest : Contest) (seats : List Seat) (pooled : Bool)
    (prefinalized : Prefinalized) :
    Finishes (archiveAndSend cfg tid contest seats pooled prefinalized) t Waiting Anything := by
  rw [archiveAndSend]
  iterate 8 refine finishes_later fun _ _ => ?_
  refine finishes_later fun sent _ => ?_
  obtain ⟨failed, log⟩ := sent
  iterate 6 refine finishes_later fun _ _ => ?_
  refine Finishes.then (M := fun committed t' => committed = true →
    lastWrite t' = some (.safeWait, true)) (F := Anything) ?_ ?_ fun _ _ _ => trivial
  · refine ⟨trivial, fun answer _ => ?_⟩
    cases answer with
    | error e => trivial
    | ok committed =>
      rintro rfl
      exact lastWrite_last rfl
  · intro committed t' written
    cases committed with
    | false => trivial
    | true => exact written rfl

theorem collectBody_waits (claimed : Bool) :
    Finishes (collectBody cfg tid claimed) t Waiting Anything := by
  rw [collectBody]
  iterate 5 refine finishes_later fun _ _ => ?_
  exact ends_mapError.mpr (archiveAndSend_waits _ _ _ _)

theorem quietly_returns (body : Procedure Unit) :
    Finishes (quietly body) t Anything fun _ _ => False :=
  ends_orElse.mpr (finishes_anyhow body)

theorem collectFailed_fails {α : Type} (error : Raised) (locals : Locals) :
    Finishes (collectFailed cfg error locals : Procedure α) t (fun _ _ => False) Failed := by
  rw [collectFailed]
  refine Finishes.then (M := Anything) (F := fun _ _ => False) ?_
    (fun _ t₁ _ => ?_) nofun
  · split
    · trivial
    · exact quietly_returns _
  refine Finishes.then (M := Anything) (F := fun _ _ => False) ?_
    (fun _ t₂ _ => ?_) nofun
  · cases locals.finalizer with
    | none => trivial
    | some f => exact quietly_returns _
  -- The write itself may raise; it is the last one in either case.
  refine ⟨trivial, fun answer _ => ?_⟩
  have written : Failed error (t₂ ++ [⟨.base (.setState .error error.text), answer⟩]) := by
    rw [Failed, lastWrite_last rfl]
    rfl
  cases answer <;> exact written

theorem collected_or_failed (claimed : Bool) :
    Finishes (Program.orElse (collectBody cfg tid claimed) fun failed =>
      collectFailed cfg failed.1 failed.2) t Waiting Failed :=
  ends_orElse.mpr (Ends.mono tracing_monotone (collectBody_waits claimed) (fun _ _ held => held)
    fun failed _ _ => (collectFailed_fails failed.1 failed.2).mono tracing_monotone
      (fun _ _ held => held.elim) fun _ _ held => held)

/- What the `finally` block does: the ingress is revoked and the frontend closed before the lock is
   left. Where the revocation is not confirmed the server is stopped, and only the state may be
   written after that. -/
inductive Closed : Log → Except Raised (Dict String UserAnswers) → Prop
  | confirmed {front : Log} {frontend : Except Raised Unit}
      {out : Except Raised (Dict String UserAnswers)} :
      Closed (front ++ [⟨.revokeDesktopAccess, .ok ()⟩] ++ [⟨.disableFrontend, frontend⟩] ++
        [⟨.base .leave, .ok ()⟩]) out
  | stopped {front rest : Log} {error error' : Raised} {frontend stop : Except Raised Unit}
      (last : ∀ event ∈ rest, ∃ state message, event.call = .base (.setState state message)) :
      Closed (front ++ [⟨.revokeDesktopAccess, .error error⟩] ++ [⟨.disableFrontend, frontend⟩] ++
        [⟨.stopServerBestEffort, stop⟩] ++ [⟨.base .leave, .ok ()⟩] ++ rest) (.error error')

/-- The outcome that the state of the contest tells. -/
def Told : Except Raised (Dict String UserAnswers) → Log → Prop
  | .ok answers, t => Waiting answers t
  | .error error, t => Failed error t

def Ended (out : Except Raised (Dict String UserAnswers)) (t : Log) : Prop :=
  Closed t out ∧ Told out t

theorem Told.append {out : Except Raised (Dict String UserAnswers)}
    (told : Told out t) (new : Log) (silent : new.filterMap stateWrite = []) : Told out (t ++ new) := by
  cases out with
  | ok answers => exact (lastWrite_append silent).trans told
  | error error => exact (congrArg (Option.map Prod.fst) (lastWrite_append silent)).trans told

theorem ended_written {error error' : Raised} {frontend stop written : Except Raised Unit}
    {message : String} :
    Ended (.error error') (t ++ [⟨.revokeDesktopAccess, .error error⟩] ++
      [⟨.disableFrontend, frontend⟩] ++ [⟨.stopServerBestEffort, stop⟩] ++
      [⟨.base .leave, .ok ()⟩] ++ [⟨.base (.setState .error message), written⟩]) := by
  refine ⟨.stopped (List.forall_mem_singleton.mpr ⟨_, _, rfl⟩), ?_⟩
  rw [Told, Failed, lastWrite_last rfl]
  rfl

theorem ended_failed {error error' : Raised} {frontend stop : Except Raised Unit}
    (told : Told (.error error') (t ++ [⟨.revokeDesktopAccess, .error error⟩] ++
      [⟨.disableFrontend, frontend⟩] ++ [⟨.stopServerBestEffort, stop⟩] ++
      [⟨.base .leave, .ok ()⟩])) :
    Ended (.error error') (t ++ [⟨.revokeDesktopAccess, .error error⟩] ++
      [⟨.disableFrontend, frontend⟩] ++ [⟨.stopServerBestEffort, stop⟩] ++
      [⟨.base .leave, .ok ()⟩]) := by
  have closing : Closed (t ++ [⟨.revokeDesktopAccess, .error error⟩] ++
      [⟨.disableFrontend, frontend⟩] ++ [⟨.stopServerBestEffort, stop⟩] ++
      [⟨.base .leave, .ok ()⟩] ++ []) (.error error') := .stopped (List.forall_mem_nil _)
  rw [List.append_nil] at closing
  exact ⟨closing, told⟩

theorem closeCollect_ends (outcome : Except Raised (Dict String UserAnswers)) (t : Log)
    (told : Told outcome t) :
    Finishes (closeCollect outcome) t (fun answers => Ended (.ok answers))
      fun error => Ended (.error error) := by
  refine ⟨trivial, fun revoked _ => ?_⟩
  have told := told.append [⟨.revokeDesktopAccess, revoked⟩] rfl
  cases revoked with
  | ok _ =>
    refine ⟨trivial, fun frontend _ => ?_⟩
    have told := told.append [⟨.disableFrontend, frontend⟩] rfl
    have onward : Finishes (closed outcome (.ok ())) (t ++ [⟨.revokeDesktopAccess, .ok ()⟩] ++
        [⟨.disableFrontend, frontend⟩]) (fun answers => Ended (.ok answers))
        fun error => Ended (.error error) := by
      refine ⟨trivial, fun left unlocks => ?_⟩
      cases left with
      | error e => exact absurd rfl (unlocks e)
      | ok _ =>
        have told := told.append [⟨.base .leave, .ok ()⟩] rfl
        cases outcome <;> exact ⟨.confirmed, told⟩
    cases frontend <;> exact onward
  | error error =>
    refine ⟨trivial, fun frontend _ => ?_⟩
    have told := told.append [⟨.disableFrontend, frontend⟩] rfl
    have onward : Finishes (closed outcome (.error error)) (t ++
        [⟨.revokeDesktopAccess, .error error⟩] ++ [⟨.disableFrontend, frontend⟩])
        (fun answers => Ended (.ok answers)) fun error => Ended (.error error) := by
      refine ⟨trivial, fun stop _ => ?_⟩
      have told := told.append [⟨.stopServerBestEffort, stop⟩] rfl
      have leaving : Finishes (leaveUnconfirmed outcome) (t ++
          [⟨.revokeDesktopAccess, .error error⟩] ++ [⟨.disableFrontend, frontend⟩] ++
          [⟨.stopServerBestEffort, stop⟩]) (fun answers => Ended (.ok answers))
          fun error => Ended (.error error) := by
        refine ⟨trivial, fun left unlocks => ?_⟩
        cases left with
        | error e => exact absurd rfl (unlocks e)
        | ok _ =>
          have told := told.append [⟨.base .leave, .ok ()⟩] rfl
          cases outcome with
          | error error' =>
            exact ended_failed told
          | ok answers =>
            -- The collection is complete, but this is not what the state says any more.
            refine ⟨trivial, fun written _ => ?_⟩
            cases written with
            | ok _ => exact ended_written
            | error e => exact ended_written
      cases stop <;> exact leaving
    cases frontend <;> exact onward

theorem sample_returns : ∃ answers,
    ((collect sampleConfig sampleTid false).exec sampleRespond (fun _ => ()) ()).1 = .ok answers := by
  have returned : ((collect sampleConfig sampleTid false).exec sampleRespond
      (fun _ => ()) ()).1.toBool = true := by decide +kernel
  cases result : ((collect sampleConfig sampleTid false).exec sampleRespond (fun _ => ()) ()).1 with
  | ok answers => exact ⟨answers, rfl⟩
  | error e =>
    rw [result] at returned
    cases returned

end NoiContest.Collection
