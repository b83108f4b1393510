import NoiContest.Collection.Evidence

/- Pipeline.finish_safe_wait: the shutdown of the contest host after the grace period. What it
   destroys, it destroys on verified evidence and confirmed deliveries only, in any environment. -/
namespace NoiContest.Collection
open Pipeline Flow

inductive Finished where
  | gracePeriod (shutdownAfterMs : Int)
  | deliveryPending (health : DeliveryHealth)
  | ended (delivery : DeliveryHealth)
  deriving DecidableEq, Repr

def removeDesktops : Procedure Unit := do
  let reachable ← base waitSsh
  raiseIf (reachable = false) "安全关机前比赛服务器不可达"
  let resources ← base seatPoolResources
  let seats ← call .seats
  let names := if resources = [] then seats.map (·.container) else resources.map (·.container)
  (if names = [] then pure () else call (.removeContainers names))
  call .removeFreezeWatchdog
  call .removeGateway

/- What is left once the deliveries are known to be safe. -/
def shutDown (tid : String) (contest : Contest) (nowMs : Int) (delivery : DeliveryHealth) :
    Procedure Finished := do
  call .revokeDesktopAccess
  call .disableFrontend
  let status ← base cvmStatus
  (if status.1.toUpper = "RUNNING" then removeDesktops else pure ())
  base (collectPool tid contest.endAtMs nowMs)
  call .stopServerBestEffort
  let final ← base cvmStatus
  raiseIf (final.1.toUpper ≠ "STOPPED") "比赛服务器尚未确认关机"
  let observedAtMs ← base clock
  let marked ← call (.markSafeEnded observedAtMs "代码送达、回收凭据和服务器关机均已确认")
  raiseIf (marked = false) "安全结束状态提交失败"
  pure (.ended delivery)

def afterGrace (tid : String) (contest : Contest) (nowMs : Int) : Procedure Finished := do
  call (.verifyCollectionReceipt contest)
  let delivery ← call .contestDeliveryHealth
  if delivery.safe = false then do
    base (setState .safeWait "已过安全关机时间，但仍有代码未确认送达；入口保持关闭并继续等待")
    pure (.deliveryPending delivery)
  else shutDown tid contest nowMs delivery

def finishBody (tid : String) : Procedure Finished := do
  match ← base getContest with
  | none => raise "比赛未处于安全等待状态"
  | some contest => do
    raiseIf (contest.state ≠ .safeWait) "比赛未处于安全等待状态"
    let nowMs ← base clock
    if nowMs < contest.shutdownAfterMs then pure (.gracePeriod contest.shutdownAfterMs)
    else afterGrace tid contest nowMs

/- `typeName` is the name of the exception's class. -/
def finishFailed {α : Type} (typeName : Raised → String) (error : Raised) : Procedure α := do
  match ← base getContest with
  | some contest => do
    (if contest.state = .safeWait then
      base (setState .safeWait ("安全关机尚未完成，入口保持关闭并将重试：" ++ typeName error))
    else pure ())
    Program.raise error
  | none => Program.raise error

def finishSafeWait (typeName : Raised → String) (tid : String) : Procedure Finished := do
  base (enter tid)
  Program.andFinally (Program.orElse (finishBody tid) (finishFailed typeName)) (base leave)

variable {tid : String} {typeName : Raised → String} {t : Log}

/- The deliveries were found safe after the evidence of the waiting contest had been verified and
   the grace period was over. -/
structure Cleared (t : Log) (contest : Contest) (nowMs : Int) : Prop where
  waiting : Did t (.base .getContest) (some contest) ∧ contest.state = .safeWait
  overdue : Did t (.base .clock) nowMs ∧ contest.shutdownAfterMs ≤ nowMs
  verified : Did t (.verifyCollectionReceipt contest) ()
  delivered : ∃ health, Did t .contestDeliveryHealth health ∧ health.safe = true

/- Nobody can come in any more. -/
structure ShutOff (t : Log) (contest : Contest) (nowMs : Int) : Prop extends
    Cleared t contest nowMs where
  revoked : Did t .revokeDesktopAccess ()
  closed : Did t .disableFrontend ()

theorem Cleared.mono {t' : Log} {contest : Contest} {nowMs : Int}
    (cleared : Cleared t contest nowMs) (more : t <+: t') : Cleared t' contest nowMs where
  waiting := cleared.waiting.imp_left fun did => did.mono more
  overdue := cleared.overdue.imp_left fun did => did.mono more
  verified := cleared.verified.mono more
  delivered := cleared.delivered.imp fun _ both => ⟨both.1.mono more, both.2⟩

theorem ShutOff.mono {t' : Log} {contest : Contest} {nowMs : Int}
    (off : ShutOff t contest nowMs) (more : t <+: t') : ShutOff t' contest nowMs :=
  { off.toCleared.mono more with
    revoked := off.revoked.mono more
    closed := off.closed.mono more }

/-- The server was seen stopped after the stop, and the clock was read then. -/
def SeenStopped (t : Log) (observedAtMs : Int) : Prop :=
  ∃ front ip stopped, t = front ++ [⟨.base .cvmStatus, .ok (stopped, ip)⟩,
      ⟨.base .clock, .ok observedAtMs⟩] ∧
    stopped.toUpper = "STOPPED" ∧ Did front .stopServerBestEffort ()

/- What each call of finish_safe_wait needs. -/
def finishGrounds (t : Log) : Call → Prop
  | .removeContainers names => names ≠ [] ∧ ∃ contest nowMs, ShutOff t contest nowMs ∧
      ∃ status, Did t (.base .cvmStatus) status ∧ status.1.toUpper = "RUNNING"
  | .removeFreezeWatchdog | .removeGateway | .stopServerBestEffort
  | .base (.putSeatPool ..) => ∃ contest nowMs, ShutOff t contest nowMs
  | .revokeDesktopAccess | .disableFrontend => ∃ contest nowMs, Cleared t contest nowMs
  | .markSafeEnded observedAtMs _ => (∃ contest nowMs, ShutOff t contest nowMs) ∧
      SeenStopped t observedAtMs
  | .base (.setState state _) => state = .safeWait
  | .verifyCollectionReceipt contest => ∃ nowMs, Did t (.base .clock) nowMs ∧
      contest.shutdownAfterMs ≤ nowMs
  | .base (.enter _) | .base .leave | .base .clock | .base .getContest | .base .seatPool
  | .base .seatPoolResources | .base .cvmStatus | .base .waitSsh | .seats
  | .contestDeliveryHealth => True
  | _ => False

theorem collectPool_only (endAtMs nowMs : Int) :
    Only (fun c => c = .base .seatPool ∨ ∃ revision state, c = .base (.putSeatPool revision state))
      (base (collectPool tid endAtMs nowMs)) := by
  refine Only.lift ?_
  rw [collectPool, poolStep]
  refine (only_perform (.inl rfl)).bind fun stored => ?_
  cases stored with
  | none => exact only_pure
  | some pool =>
    refine only_pure.bind fun now => only_ofExcept.bind fun marked => ?_
    split
    · exact only_pure
    · refine Only.bind ?_ fun _ => only_pure
      exact (only_perform (.inr ⟨_, _, rfl⟩)).bind fun _ => only_pure

theorem removeDesktops_runs {contest : Contest} {nowMs : Int} (off : ShutOff t contest nowMs)
    (running : ∃ status, Did t (.base .cvmStatus) status ∧ status.1.toUpper = "RUNNING") :
    Runs finishGrounds removeDesktops t fun _ t' => t <+: t' := by
  rw [removeDesktops]
  refine runs_step (c := .base .waitSsh) trivial fun reachable m₁ _ => runs_raiseIf fun _ => ?_
  refine runs_step (c := .base .seatPoolResources) trivial fun resources m₂ _ => ?_
  refine runs_step (c := .seats) trivial fun seats m₃ _ => ?_
  have m := (m₁.trans m₂).trans m₃
  generalize (if resources = [] then seats.map (·.container)
    else resources.map (·.container)) = names
  refine Runs.then (M := fun _ t' => t <+: t') ?_ fun _ t₄ m₄ => ?_
  · split
    · exact m
    · next filled =>
      refine runs_call ⟨filled, contest, nowMs, off.mono m, ?_⟩ fun _ =>
        m.trans (List.prefix_append ..)
      exact running.imp fun _ both => ⟨both.1.mono m, both.2⟩
  · refine runs_step ⟨contest, nowMs, off.mono m₄⟩ fun _ m₅ _ => ?_
    exact runs_call ⟨contest, nowMs, off.mono (m₄.trans m₅)⟩ fun _ =>
      (m₄.trans m₅).trans (List.prefix_append ..)

theorem shutDown_runs {contest : Contest} {nowMs : Int} (cleared : Cleared t contest nowMs)
    (delivery : DeliveryHealth) :
    Runs finishGrounds (shutDown tid contest nowMs delivery) t fun _ _ => True := by
  rw [shutDown]
  refine runs_step ⟨contest, nowMs, cleared⟩ fun _ m₁ revoked => ?_
  refine runs_step ⟨contest, nowMs, cleared.mono m₁⟩ fun _ m₂ closed => ?_
  have off : ShutOff _ contest nowMs := ⟨(cleared.mono m₁).mono m₂, revoked.mono m₂, closed⟩
  refine runs_step (c := .base .cvmStatus) trivial fun status m₃ seen => ?_
  have off := off.mono m₃
  refine Runs.then (M := fun _ t' => ShutOff t' contest nowMs) ?_ fun _ t₄ off => ?_
  · split
    · next running =>
      exact (removeDesktops_runs off ⟨status, seen, running⟩).mono fun _ _ more => off.mono more
    · exact off
  refine Runs.then (M := fun _ t' => ShutOff t' contest nowMs) ?_ fun _ t₅ off => ?_
  · refine Ends.mono tracing_monotone ((collectPool_only _ _).traced_from ?_) ?_ fun _ _ _ => trivial
    · rintro c (rfl | ⟨revision, state, rfl⟩) t' more
      · trivial
      · exact ⟨contest, nowMs, off.mono more⟩
    · rintro _ t' ⟨new, rfl, _⟩
      exact off.mono (List.prefix_append ..)
  refine runs_step ⟨contest, nowMs, off⟩ fun _ m₆ stopped => ?_
  refine runs_step (c := .base .cvmStatus) trivial fun final m₇ _ => runs_raiseIf fun down => ?_
  refine runs_step (c := .base .clock) trivial fun observedAtMs m₈ _ => ?_
  refine runs_step ?_ fun marked _ _ => runs_raiseIf fun _ => trivial
  refine ⟨⟨contest, nowMs, off.mono ((m₆.trans m₇).trans m₈)⟩, _, final.2, final.1, ?_,
    not_not.mp down, stopped⟩
  rw [List.append_assoc]
  rfl

theorem finishBody_runs : Runs finishGrounds (finishBody tid) t fun _ _ => True := by
  rw [finishBody]
  refine runs_step (c := .base .getContest) trivial fun row m₁ registered => ?_
  cases row with
  | none => trivial
  | some contest =>
    refine runs_raiseIf fun waiting => ?_
    refine runs_step (c := .base .clock) trivial fun nowMs m₂ read => ?_
    change Runs finishGrounds (if nowMs < contest.shutdownAfterMs then _ else _) _ _
    split
    · trivial
    next overdue =>
    have overdue := not_lt.mp overdue
    rw [afterGrace]
    refine runs_step ⟨nowMs, read, overdue⟩ fun _ m₃ verified => ?_
    refine runs_step (c := .contestDeliveryHealth) trivial fun health m₄ known => ?_
    change Runs finishGrounds (if health.safe = false then _ else _) _ _
    split
    · exact runs_step (c := .base (.setState ..)) rfl fun _ _ _ => trivial
    next safe =>
    have m := m₃.trans m₄
    exact shutDown_runs ⟨⟨registered.mono (m₂.trans m), not_not.mp waiting⟩,
      ⟨read.mono m, overdue⟩, verified.mono m₄, health, known, Bool.of_not_eq_false safe⟩ health

theorem finishFailed_runs {α : Type} (error : Raised) :
    Runs finishGrounds (finishFailed typeName error : Procedure α) t fun _ _ => True := by
  rw [finishFailed]
  refine runs_step (c := .base .getContest) trivial fun row _ _ => ?_
  cases row with
  | none => trivial
  | some contest =>
    refine Runs.then (M := fun _ _ => True) ?_ fun _ _ _ => trivial
    split
    · exact runs_call (c := .base (.setState ..)) rfl fun _ => trivial
    · trivial

theorem finishSafeWait_runs :
    Runs finishGrounds (finishSafeWait typeName tid) t fun _ _ => True := by
  rw [finishSafeWait]
  refine runs_step (c := .base (.enter tid)) trivial fun _ _ _ => ?_
  have leaving : ∀ {t}, Runs finishGrounds (base leave) t fun _ _ => True :=
    runs_call (c := .base .leave) trivial fun _ => trivial
  have guarded : ∀ {t}, Runs finishGrounds (Program.orElse (finishBody tid)
      (finishFailed typeName) : Procedure Finished) t fun _ _ => True :=
    ends_orElse.mpr (Ends.mono tracing_monotone finishBody_runs (fun _ _ held => held)
      fun error _ _ => finishFailed_runs error)
  exact ends_andFinally.mpr (Ends.mono tracing_monotone guarded (fun _ _ _ => leaving)
    fun _ _ _ => leaving)

/- Every call of any run of finish_safe_wait, complete or broken off, has its grounds. -/
theorem finish_acts_on_grounds {front back : Log} {event : Event Call Answer Raised}
    {out : Option (Except Raised Finished)}
    (emits : Emits (fun _ => True) (finishSafeWait typeName tid) (front ++ event :: back) out) :
    finishGrounds front event.call :=
  (emits.grounded (finishSafeWait_runs (t := []))).1.split

/- A host that runs until the stop, and a contest whose grace period is over. -/

def waitingContest : Contest where
  tid := sampleTid
  files := ["add"]
  endAtMs := 1000
  shutdownAfterMs := 1500
  state := .safeWait

def finishRespond (c : Call) (_ : Unit) (stopped : Bool) : Except Raised (Answer c) × Bool :=
  match c with
  | .base .getContest => (.ok (some waitingContest), stopped)
  | .base .cvmStatus => (.ok (if stopped then "STOPPED" else "RUNNING", "10.0.0.2"), stopped)
  | .stopServerBestEffort => (.ok (), true)
  | c => (sampleAnswer c, stopped)

def finishTrace : Log :=
  recorded finishRespond (finishSafeWait Raised.text sampleTid) (fun _ => ()) false

def marksEnded : Event Call Answer Raised → Bool
  | ⟨.markSafeEnded .., _⟩ => true
  | _ => false

theorem finish_marks : finishTrace.any marksEnded = true := by decide +kernel

theorem finish_marked_on_grounds : ∃ front observedAtMs, front <+: finishTrace ∧
    (∃ contest nowMs, ShutOff front contest nowMs) ∧ SeenStopped front observedAtMs := by
  obtain ⟨⟨c, answer⟩, mem, is⟩ := List.any_eq_true.mp finish_marks
  obtain ⟨front, back, split⟩ := List.append_of_mem mem
  cases c with
  | markSafeEnded observedAtMs message =>
    have emits : Emits (fun _ => True) (finishSafeWait Raised.text sampleTid) finishTrace _ :=
      emits_recorded (fun _ _ _ => trivial) ..
    rw [split] at emits
    exact ⟨front, observedAtMs, ⟨_, split.symm⟩, finish_acts_on_grounds emits⟩
  | _ => cases is

end NoiContest.Collection
