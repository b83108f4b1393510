import NoiContest.Collection.SafeWait

/- Every run of collect, in any environment and up to any point: a code is sent on the choice that
   the evidence records, and the safe wait is entered on complete evidence. -/
namespace NoiContest.Collection
open Pipeline Flow

variable {cfg : Config} {tid : String} {files : List String} {t : Log}

theorem only_quiet {c : Call} (quiet : Quiet c) : Only Quiet (call c) := only_perform quiet

theorem Only.quietly {body : Procedure Unit} (only : Only Quiet body) : Only Quiet (quietly body) :=
  only.orElse fun _ => only_pure

theorem finalizeProblem_only (uid : Int) (latest : List (String × WebRow)) (name : String)
    (prefinalized : Prefinalized) :
    Only Quiet (finalizeProblem uid latest name prefinalized) := by
  rw [finalizeProblem]
  split
  · exact only_pure
  · split
    · exact ((only_quiet (by trivial)).bind fun _ => only_pure).orElse fun _ => only_pure
    · exact only_pure

theorem finalizeProblems_only (uid : Int) (latest : List (String × WebRow)) (names : List String)
    (prefinalized : Prefinalized) :
    Only Quiet (finalizeProblems uid latest names prefinalized) := by
  induction names generalizing prefinalized with
  | nil => exact only_pure
  | cons name names ih => exact (finalizeProblem_only uid latest name _).bind fun _ => ih _

theorem finalizeSeats_only (seats : List Seat) (prefinalized : Prefinalized) :
    Only Quiet (finalizeSeats files seats prefinalized) := by
  induction seats generalizing prefinalized with
  | nil => exact only_pure
  | cons seat seats ih =>
    exact (only_quiet (by trivial)).mapError.bind fun latest =>
      (finalizeProblems_only seat.uid latest files _).mapError.bind fun _ => ih _

theorem finalizeRealtimeWeb_only (seats : List Seat) (prefinalized : Prefinalized) :
    Only Quiet (finalizeRealtimeWeb cfg seats files prefinalized) := by
  rw [finalizeRealtimeWeb]
  split
  · exact only_pure
  · exact (only_base _).mapError.bind fun _ => finalizeSeats_only seats prefinalized

theorem finalizeAgain_only (finalizer : Option Finalizer) :
    Only Quiet (finalizeAgain cfg finalizer) := by
  cases finalizer with
  | none => exact only_pure
  | some f => exact Only.quietly ((finalizeRealtimeWeb_only _ _).bind fun _ => only_pure).mapError

theorem collectFailed_only {α : Type} (error : Raised) (locals : Locals) :
    Only Quiet (collectFailed cfg error locals : Procedure α) := by
  have stopping : Only Quiet (if locals.frozen then pure ()
      else quietly (call .stopServerBestEffort)) :=
    only_pure.ite (Only.quietly (only_quiet (by trivial)))
  exact stopping.bind fun _ => (finalizeAgain_only _).bind fun _ =>
    (only_base _).bind fun _ => only_raise

theorem closed_only {α : Type} (outcome : Except Raised α) (revoked : Except Raised Unit) :
    Only Quiet (closed outcome revoked) := by
  cases revoked with
  | ok _ => exact (only_base _).bind fun _ => only_ofExcept
  | error e =>
    refine (Only.quietly (only_quiet (by trivial))).bind fun _ => (only_base _).bind fun _ => ?_
    cases outcome with
    | ok a => exact (only_base _).bind fun _ => only_raise
    | error e => exact only_raise

theorem closeCollect_only {α : Type} (outcome : Except Raised α) :
    Only Quiet (closeCollect outcome) :=
  (only_quiet (by trivial)).attempt.bind fun revoked =>
    (Only.quietly (only_quiet (by trivial))).bind fun _ => closed_only outcome revoked

section Body
variable {grounds : Log → Call → Prop} (free : ∀ c, Quiet c → ∀ t, grounds t c)
include free

theorem runs_base {α β : Type} {body : Pipeline.Procedure α} {f : α → Procedure β}
    {post : β → Log → Prop} (later : ∀ a t', t <+: t' → Runs grounds (f a) t' post) :
    Runs grounds (base body >>= f) t post :=
  runs_quiet (only_base body) free later

theorem claim_runs (claimed : Bool) :
    Runs grounds (claim claimed) t fun contest t' => t <+: t' ∧
      Did t' (.base .getContest) (some contest) ∧ Did t' .revokeDesktopAccess () := by
  rw [claim]
  have allowing : Only Quiet (if claimed = true then pure () else startCollecting) :=
    only_pure.ite ((only_quiet (by trivial)).bind fun _ => only_raiseIf)
  refine runs_quiet allowing free fun _ t₁ m₁ => ?_
  refine runs_step (c := .base .getContest) (free _ (by trivial) _) fun row m₂ did => ?_
  cases row with
  | none => trivial
  | some contest =>
    refine Runs.then (M := fun _ t' => t <+: t' ∧ Did t' (.base .getContest) (some contest) ∧
      Did t' .revokeDesktopAccess ()) (runs_orElse ?_) fun _ _ held => held
    refine ⟨free _ (by trivial) _, fun answer _ => ?_⟩
    have more := List.prefix_append (t₁ ++ [⟨.base .getContest, .ok (some contest)⟩])
      [(⟨.revokeDesktopAccess, answer⟩ : Event Call Answer Raised)]
    cases answer with
    | ok _ => exact ⟨(m₁.trans m₂).trans more, did.mono more, did_last⟩
    | error e => exact runs_step (free _ (by trivial) _) fun _ _ _ => trivial

theorem seatTable_runs :
    Runs grounds seatTable t fun seats t' => t <+: t' ∧ Did t' .seats seats ∧ seats ≠ [] := by
  rw [seatTable]
  refine runs_step (free _ (by trivial) _) fun seats more did => ?_
  exact runs_raiseIf fun filled => ⟨more, did, filled⟩

theorem freezeDesktops_runs (seats : List Seat) :
    Runs grounds (freezeDesktops seats) t fun _ t' => t <+: t' ∧
      ∃ containers, Did t' (.freezeForCollection containers) () := by
  rw [freezeDesktops]
  refine runs_step (free _ (by trivial) _) fun _ m₁ _ => ?_
  refine runs_base free fun reachable t₂ m₂ => runs_raiseIf fun _ => ?_
  refine runs_base free fun resources t₃ m₃ => ?_
  refine runs_base free fun _ t₄ m₄ => ?_
  refine runs_step (free _ (by trivial) _) fun _ m₅ frozen => ?_
  exact ⟨(((m₁.trans m₂).trans m₃).trans m₄).trans m₅, _, frozen⟩

/- What a run has done before it packs the answers, whatever is asked of the rest. -/
theorem collectBody_runs (claimed : Bool)
    (rest : ∀ contest seats pooled prefinalized t', t <+: t' →
      Did t' (.base .getContest) (some contest) → Did t' .seats seats → seats ≠ [] →
      Did t' .revokeDesktopAccess () → (∃ containers, Did t' (.freezeForCollection containers) ()) →
      PrefinalizedRead t' prefinalized →
      Runs grounds (archiveAndSend cfg tid contest seats pooled prefinalized) t' fun _ _ => True) :
    Runs grounds (collectBody cfg tid claimed) t fun _ _ => True := by
  rw [collectBody]
  refine Runs.then (runs_mapError (claim_runs free claimed)) ?_
  rintro contest t₁ ⟨m₁, registered, revoked⟩
  refine Runs.then (runs_mapError (seatTable_runs free)) ?_
  rintro seats t₂ ⟨m₂, listed, filled⟩
  refine Runs.then (runs_mapError (freezeDesktops_runs free seats)) ?_
  rintro pooled t₃ ⟨m₃, frozen⟩
  refine runs_quiet (only_base _).mapError free fun _ t₄ m₄ => ?_
  refine Runs.then (runs_mapError (finalizeRealtimeWeb_runs free seats nofun)) ?_
  rintro prefinalized t₅ ⟨m₅, confirmed⟩
  have m := (m₃.trans m₄).trans m₅
  exact runs_mapError (rest contest seats pooled prefinalized t₅ (m₁.trans (m₂.trans m))
    (registered.mono (m₂.trans m)) (listed.mono m) filled (revoked.mono (m₂.trans m))
    (frozen.imp fun _ did => did.mono (m₄.trans m₅)) confirmed)

/- A law of the calls of the body is one of collect. -/
theorem collect_runs (claimed : Bool)
    (body : ∀ t', t <+: t' →
      Runs grounds (collectBody cfg tid claimed) t' fun _ _ => True) :
    Runs grounds (collect cfg tid claimed) t fun _ _ => True := by
  rw [collect]
  refine runs_base free fun _ t₁ m₁ => ?_
  refine Runs.then (M := fun _ _ => True) ?_ fun outcome t₂ _ => ?_
  · refine ends_attempt.mpr (ends_orElse.mpr ?_)
    refine Ends.mono tracing_monotone (body t₁ m₁) (fun _ _ held => held) fun failed t' _ => ?_
    exact ((collectFailed_only failed.1 failed.2).traced free).mono tracing_monotone
      (fun _ _ _ => trivial) fun _ _ _ => trivial
  · exact ((closeCollect_only outcome).traced free).mono tracing_monotone
      (fun _ _ _ => trivial) fun _ _ _ => trivial

end Body

theorem collect_grounded (claimed : Bool) :
    Runs (grounds cfg tid) (collect cfg tid claimed) t fun _ _ => True :=
  collect_runs grounds_free claimed fun _ _ => collectBody_runs grounds_free claimed
    fun _ _ _ _ _ _ registered listed filled revoked frozen confirmed =>
      archiveAndSend_runs registered listed filled revoked frozen confirmed

/-- Any trace of collect, complete or broken off. -/
def CollectTrace (cfg : Config) (tid : String) (claimed : Bool) (trace : Log) : Prop :=
  ∃ out, Emits (fun _ => True) (collect cfg tid claimed) trace out

theorem CollectTrace.grounded {claimed : Bool} {front back : Log} {event : Event Call Answer Raised}
    (run : CollectTrace cfg tid claimed (front ++ event :: back)) :
    grounds cfg tid front event.call := by
  obtain ⟨out, emits⟩ := run
  exact (emits.grounded (collect_grounded (t := []) claimed)).1.split

end NoiContest.Collection
