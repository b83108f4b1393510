import NoiContest.Desktop.Access

/- The public entrance fails closed: a reconciliation leaves the one rule of the running contest,
   no rule of ours, or a contest server that was told to stop. -/
namespace NoiContest.Desktop
open Pipeline (Raised)
open Flow

abbrev cloud : Transformer DeskCall DeskAnswer Raised Desk :=
  demonic Desk.respond fun _ _ _ => True

theorem cloud_monotone : Monotone cloud := demonic_monotone

def Closed (cfg : AccessConfig) (d : Desk) : Prop := managedRules cfg d.rules = []

/-- One managed rule, and it is the exact rule of this contest, before its deadline. -/
def OpenFor (cfg : AccessConfig) (tid : String) (endAtMs : Int) (d : Desk) : Prop :=
  d.nowMs < endAtMs ∧ ∃ rule, managedRules cfg d.rules = [rule] ∧
    exactIpv4TcpAccept rule cfg.sourceCidr cfg.port = true ∧
    rule.priority = some cfg.priority ∧
    desktopDescription cfg tid endAtMs = .ok rule.description

/- What single calls do -/

namespace Desk

theorem respond_rules (d : Desk) (choice : CloudChoice) {c : DeskCall}
    (reads : ∀ rule, c ≠ .authorize rule) (revokes : ∀ ids, c ≠ .revoke ids) :
    (respond c choice d).2.rules = d.rules := by
  cases c with
  | authorize rule => exact absurd rfl (reads rule)
  | revoke ids => exact absurd rfl (revokes ids)
  | _ => cases raises : choice.raises <;> simp [respond, raises, canRaise, effect, stored]

theorem respond_contests (d : Desk) (choice : CloudChoice) {c : DeskCall}
    (keeps : ∀ tid state message, c ≠ .setState tid state message) :
    (respond c choice d).2.contests = d.contests := by
  cases c with
  | setState tid state message => exact absurd rfl (keeps tid state message)
  | authorize rule =>
    cases raises : choice.raises <;> cases taken : choice.authorizes <;>
      simp [respond, raises, canRaise, effect, stored, taken]
  | _ => cases raises : choice.raises <;> simp [respond, raises, canRaise, effect, stored]

theorem respond_stops (d : Desk) (choice : CloudChoice) (c : DeskCall) :
    (respond c choice d).2.stops = d.stops + if c matches .stopServer then 1 else 0 := by
  cases c with
  | authorize rule =>
    cases raises : choice.raises <;> cases taken : choice.authorizes <;>
      simp [respond, raises, canRaise, effect, stored, taken]
  | _ => cases raises : choice.raises <;> simp [respond, raises, canRaise, effect, stored]

theorem respond_ingress {d : Desk} {choice : CloudChoice} {rules : List Rule}
    (answered : (respond .ingress choice d).1 = .ok rules) :
    rules = (respond .ingress choice d).2.rules := by
  revert answered
  cases raises : choice.raises <;>
    simp [respond, raises, canRaise, effect, stored, answer, eq_comm]

theorem respond_listed {d : Desk} {choice : CloudChoice} {listed : List RegisteredContest}
    (answered : (respond .contests choice d).1 = .ok listed) :
    listed = (respond .contests choice d).2.contests := by
  revert answered
  cases raises : choice.raises <;>
    simp [respond, raises, canRaise, effect, stored, answer, eq_comm]

theorem respond_clock (d : Desk) (choice : CloudChoice) :
    (respond .clock choice d).1 = .ok (respond .clock choice d).2.nowMs := by
  cases raises : choice.raises <;> simp [respond, raises, canRaise, effect, stored, answer]

end Desk

theorem stops_kept {α : Type} (x : Cloud α) (n : Nat) : Keeps cloud (fun d => n ≤ d.stops) x := by
  apply keeps_of_calls cloud_monotone
  intro c d counted choice _
  rw [Desk.respond_stops]
  omega

/-- Calls that leave the stored contests alone. -/
def Stateless : DeskCall → Prop
  | .setState .. => False
  | _ => True

theorem contests_kept {α : Type} {x : Cloud α} (only : Only Stateless x)
    (listed : List RegisteredContest) : Keeps cloud (fun d => d.contests = listed) x := by
  apply Only.keeps cloud_monotone _ only
  intro c stateless d same choice _
  rw [Desk.respond_contests d choice, same]
  intro tid state message is
  subst is
  exact stateless

/- The client of the cloud -/

section Client
variable {cfg : AccessConfig}

/- A snapshot is taken of the rules as they are. -/
theorem desktopSnapshot_exact (enabled : cfg.enabled = true) (tid : String) (endAtMs : Int)
    (validateTopology : Bool) :
    Yields cloud (desktopSnapshot cfg tid endAtMs validateTopology) fun snapshot d =>
      ∃ server description, snapshot = snapshotOf cfg server d.rules description ∧
        (tid ≠ "" → desktopDescription cfg tid endAtMs = .ok description) := by
  unfold desktopSnapshot
  apply Yields.ite
  · intro disabled
    simp [enabled] at disabled
  intro _
  apply Yields.after
  intro server d
  simp only [readIngress, ends_bind, ends_perform]
  intro choice _
  cases answered : (Desk.respond .ingress choice d).1 with
  | error e => trivial
  | ok rules =>
    have exact : rules = (Desk.respond .ingress choice d).2.rules :=
      Desk.respond_ingress answered
    cases wanted : desiredDescription cfg tid endAtMs with
    | error e => trivial
    | ok description =>
      refine ⟨server, description, by rw [← exact], ?_⟩
      intro named
      rw [← wanted, desiredDescription, if_neg named]

theorem confirmClosed_closed (enabled : cfg.enabled = true) (tries : Nat) :
    Yields cloud (confirmClosed cfg tries) fun _ d => Closed cfg d := by
  induction tries with
  | zero => exact yields_raise
  | succ tries ih =>
    apply Yields.after
    intro current
    apply Yields.ite
    · intro _ d
      apply Ends.bind cloud_monotone (desktopSnapshot_exact enabled "" 0 true d)
      · intro verified d' exact
        obtain ⟨server, description, taken, _⟩ := exact
        rw [ends_ite]
        constructor
        · intro closed
          rw [taken] at closed
          exact closed_unmanaged closed
        · intro _
          exact ih d'
      · exact fun _ _ _ => trivial
    · intro _
      exact Yields.after fun _ => ih

theorem revokeDesktopAccess_closed (enabled : cfg.enabled = true) :
    Yields cloud (revokeDesktopAccess cfg) fun _ d => Closed cfg d := by
  apply Yields.ite
  · intro disabled
    simp [enabled] at disabled
  · intro _
    exact Yields.after fun _ => confirmClosed_closed enabled 20

theorem beforeDeadline_early (endAtMs : Int) (message : String) (rules : List Rule) (d : Desk)
    (same : d.rules = rules) :
    Ends cloud (beforeDeadline cfg endAtMs message) d
      (fun _ d' => d'.rules = rules ∧ d'.nowMs < endAtMs) fun _ _ => True := by
  simp only [beforeDeadline, readClock, ends_bind, ends_perform]
  intro choice _
  have kept := Desk.respond_rules d choice (c := .clock) (by simp) (by simp)
  rw [Desk.respond_clock, ends_ofExcept_ok, ends_ite]
  constructor
  · intro _
    exact Yields.after (fun _ => yields_raise) _
  · intro early
    exact ⟨kept.trans same, by simpa using early⟩

/- A snapshot that shows the entrance open, followed by a look at the clock. -/
theorem accept_open {tid : String} {endAtMs : Int} (named : tid ≠ "") {snapshot : Snapshot}
    (message : String) {d : Desk} (isOpen : snapshot.isOpen = true)
    (exact : ∃ server description, snapshot = snapshotOf cfg server d.rules description ∧
      (tid ≠ "" → desktopDescription cfg tid endAtMs = .ok description)) :
    Ends cloud (do beforeDeadline cfg endAtMs message; return snapshot) d
      (fun _ d' => OpenFor cfg tid endAtMs d') fun _ _ => True := by
  obtain ⟨server, description, taken, described⟩ := exact
  apply Ends.bind cloud_monotone (beforeDeadline_early endAtMs message d.rules d rfl)
  · intro _ d' early
    rw [taken] at isOpen
    obtain ⟨rule, single, desired⟩ := open_exact isOpen
    refine ⟨early.2, rule, ?_, isDesired_exact (described named) desired⟩
    rw [early.1]
    exact single
  · exact fun _ _ _ => trivial

theorem awaitOpen_open (enabled : cfg.enabled = true) {tid : String} (named : tid ≠ "")
    (endAtMs : Int) (tries : Nat) :
    Yields cloud (awaitOpen cfg tid endAtMs tries) fun _ d => OpenFor cfg tid endAtMs d := by
  induction tries with
  | zero => exact Yields.after fun _ => Yields.after fun _ => yields_raise
  | succ tries ih =>
    intro d
    apply Ends.bind cloud_monotone (desktopSnapshot_exact enabled tid endAtMs true d)
    · intro current d' exact
      simp only [ends_ite]
      refine ⟨fun isOpen => accept_open named _ isOpen exact, fun _ =>
        ⟨fun _ => ?_, fun _ => ⟨fun _ => ?_, fun _ => ih d'⟩⟩⟩
      · exact Yields.after (fun _ => yields_raise) d'
      · exact Yields.after (fun _ => yields_raise) d'
    · exact fun _ _ _ => trivial

theorem openDesktopAccess_open (enabled : cfg.enabled = true) {tid : String} (named : tid ≠ "")
    (endAtMs : Int) (snapshot : Snapshot) :
    Yields cloud (openDesktopAccess cfg tid endAtMs snapshot) fun _ d =>
      OpenFor cfg tid endAtMs d := by
  unfold openDesktopAccess
  apply Yields.after
  intro _
  apply Yields.after
  intro _
  apply Yields.after
  intro _
  apply Yields.after
  intro description
  exact Yields.after fun _ => awaitOpen_open enabled named endAtMs 20

theorem ensureDesktopAccess_open (enabled : cfg.enabled = true) {tid : String} (named : tid ≠ "")
    (endAtMs : Int) :
    Yields cloud (ensureDesktopAccess cfg tid endAtMs) fun _ d => OpenFor cfg tid endAtMs d := by
  apply Yields.ite
  · intro disabled
    simp [enabled] at disabled
  intro _
  apply Yields.orElse cloud_monotone
  · apply Yields.after
    intro _ d
    apply Ends.bind cloud_monotone (desktopSnapshot_exact enabled tid endAtMs true d)
    · intro snapshot d' exact
      simp only [failIf, ends_bind, ends_raiseIf, ends_ite]
      refine ⟨fun _ => trivial, fun _ => ⟨fun _ => trivial, fun _ => ⟨fun isOpen => ?_, fun _ => ?_⟩⟩⟩
      · rw [← ends_bind]
        exact accept_open named _ isOpen exact
      · exact openDesktopAccess_open enabled named endAtMs snapshot d'
    · exact fun _ _ _ => trivial
  · exact fun _ => Yields.after fun _ => yields_raise

end Client

/- None of the client's calls touches the stored contests. -/

section Stateless
variable (cfg : AccessConfig)

theorem stateless_desktopSnapshot (tid : String) (endAtMs : Int) (validateTopology : Bool) :
    Only Stateless (desktopSnapshot cfg tid endAtMs validateTopology) := by
  have proven : Only Stateless (provenServer cfg validateTopology) := by
    apply Only.ite
    · apply Only.bind (only_perform trivial)
      intro topology
      exact Only.bind only_ofExcept fun _ => only_pure
    · exact only_pure
  apply Only.ite only_pure
  apply Only.bind proven
  intro server
  apply Only.bind (only_perform trivial)
  intro rules
  exact Only.bind only_ofExcept fun _ => only_pure

theorem stateless_revokePending (tries : Nat) (pending : List String) :
    Only Stateless (revokePending cfg tries pending) := by
  induction tries generalizing pending with
  | zero => cases pending <;> exact only_pure
  | succ tries ih =>
    cases pending with
    | nil => exact only_pure
    | cons id pending =>
      apply Only.orElse (only_perform trivial)
      intro error
      apply Only.bind (stateless_desktopSnapshot cfg _ _ _)
      intro current
      apply Only.ite only_pure
      exact Only.ite only_raise (ih _)

theorem stateless_revokeBatches (batches : List (List String)) :
    Only Stateless (revokeBatches cfg batches) := by
  induction batches with
  | nil => exact only_pure
  | cons batch rest ih => exact Only.bind (stateless_revokePending cfg _ _) fun _ => ih

theorem stateless_revokeSnapshot (snapshot : Snapshot) :
    Only Stateless (revokeSnapshot cfg snapshot) := by
  apply Only.ite only_pure
  exact Only.bind only_raiseIf fun _ => stateless_revokeBatches cfg _

theorem stateless_revokeTolerantly : Only Stateless (revokeTolerantly cfg) := by
  apply Only.bind (stateless_desktopSnapshot cfg _ _ _)
  intro snapshot
  apply Only.orElse (stateless_revokeSnapshot cfg snapshot)
  intro error
  exact Only.bind (stateless_desktopSnapshot cfg _ _ _) fun _ => Only.ite only_raise only_pure

theorem stateless_confirmClosed (tries : Nat) : Only Stateless (confirmClosed cfg tries) := by
  induction tries with
  | zero => exact only_raise
  | succ tries ih =>
    apply Only.bind (stateless_desktopSnapshot cfg _ _ _)
    intro current
    apply Only.ite
    · exact Only.bind (stateless_desktopSnapshot cfg _ _ _) fun _ => Only.ite only_pure ih
    · exact Only.bind only_raiseIf fun _ => ih

theorem stateless_revokeDesktopAccess : Only Stateless (revokeDesktopAccess cfg) := by
  apply Only.ite (stateless_desktopSnapshot cfg _ _ _)
  exact Only.bind (stateless_revokeTolerantly cfg) fun _ => stateless_confirmClosed cfg 20

theorem stateless_confirmUnmanaged (tries : Nat) : Only Stateless (confirmUnmanaged cfg tries) := by
  induction tries with
  | zero => exact only_raise
  | succ tries ih =>
    exact Only.bind (stateless_desktopSnapshot cfg _ _ _) fun _ => Only.ite only_pure ih

theorem stateless_beforeDeadline (endAtMs : Int) (message : String) :
    Only Stateless (beforeDeadline cfg endAtMs message) := by
  apply Only.bind (only_perform trivial)
  intro now
  apply Only.ite _ only_pure
  exact Only.bind (stateless_revokeDesktopAccess cfg) fun _ => only_raise

theorem stateless_awaitCleared (tries : Nat) : Only Stateless (awaitCleared cfg tries) := by
  induction tries with
  | zero => exact only_raise
  | succ tries ih =>
    exact Only.bind (stateless_desktopSnapshot cfg _ _ _) fun _ => Only.ite only_pure ih

theorem stateless_awaitOpen (tid : String) (endAtMs : Int) (tries : Nat) :
    Only Stateless (awaitOpen cfg tid endAtMs tries) := by
  have revoked (snapshot : Snapshot) (message : String) : Only Stateless (do
      revokeSnapshot cfg snapshot
      fail message : Cloud Snapshot) :=
    Only.bind (stateless_revokeSnapshot cfg snapshot) fun _ => only_raise
  induction tries with
  | zero => exact Only.bind (stateless_desktopSnapshot cfg _ _ _) fun final => revoked final _
  | succ tries ih =>
    apply Only.bind (stateless_desktopSnapshot cfg _ _ _)
    intro current
    apply Only.ite (Only.bind (stateless_beforeDeadline cfg _ _) fun _ => only_pure)
    exact Only.ite (revoked current _) (Only.ite (revoked current _) ih)

theorem stateless_openDesktopAccess (tid : String) (endAtMs : Int) (snapshot : Snapshot) :
    Only Stateless (openDesktopAccess cfg tid endAtMs snapshot) := by
  apply Only.bind (stateless_revokeSnapshot cfg snapshot)
  intro _
  apply Only.bind (Only.ite only_pure (stateless_awaitCleared cfg 20))
  intro _
  apply Only.bind (stateless_beforeDeadline cfg _ _)
  intro _
  apply Only.bind only_ofExcept
  intro description
  exact Only.bind (only_perform trivial) fun _ => stateless_awaitOpen cfg tid endAtMs 20

theorem stateless_ensureDesktopAccess (tid : String) (endAtMs : Int) :
    Only Stateless (ensureDesktopAccess cfg tid endAtMs) := by
  apply Only.ite (stateless_desktopSnapshot cfg _ _ _)
  apply Only.orElse
  · apply Only.bind (stateless_beforeDeadline cfg _ _)
    intro _
    apply Only.bind (stateless_desktopSnapshot cfg _ _ _)
    intro snapshot
    apply Only.bind only_raiseIf
    intro _
    apply Only.bind only_raiseIf
    intro _
    apply Only.ite _ (stateless_openDesktopAccess cfg tid endAtMs snapshot)
    exact Only.bind (stateless_beforeDeadline cfg _ _) fun _ => only_pure
  · intro openError
    apply Only.bind (Only.orElse _ fun _ => only_raise) fun _ => only_raise
    exact Only.bind (stateless_revokeTolerantly cfg) fun _ => stateless_confirmUnmanaged cfg 20

end Stateless

/- The pipeline -/

section Pipeline
variable {cfg : AccessConfig}

/- Once the server was told to stop, the count of that stays. -/
theorem stopServer_counts {α : Type} {handle : Raised → Cloud Unit} {error : Raised} {n : Nat}
    {post : α → Desk → Prop} {d : Desk} (counted : n ≤ d.stops) :
    Ends cloud (Program.orElse stopServerBestEffort handle >>= fun _ => Program.raise error) d
      post fun _ d' => n < d'.stops := by
  rw [ends_bind, ends_orElse]
  simp only [stopServerBestEffort, ends_perform]
  intro choice _
  have stopped : n + 1 ≤ (Desk.respond .stopServer choice d).2.stops := by
    rw [Desk.respond_stops]
    simpa using counted
  cases (Desk.respond .stopServer choice d).1 with
  | ok _ => exact stopped
  | error e => exact stops_kept (handle e) (n + 1) _ stopped

/- Revoking closes the entrance, or fails and leaves the count of stops. -/
theorem revokeDesktopAccess_ends (enabled : cfg.enabled = true) (d : Desk) :
    Ends cloud (revokeDesktopAccess cfg) d (fun _ d' => Closed cfg d')
      fun _ d' => d.stops ≤ d'.stops := by
  have closes := revokeDesktopAccess_closed enabled d
  have counts := stops_kept (revokeDesktopAccess cfg) d.stops d (le_refl _)
  apply (closes.both counts).mono cloud_monotone
  · exact fun _ _ held => held.1
  · exact fun _ _ held => held.2

theorem closeOrStop_fails_closed (enabled : cfg.enabled = true) (d : Desk) :
    Ends cloud (closeOrStop cfg) d (fun _ d' => Closed cfg d') fun _ d' => d.stops < d'.stops := by
  unfold closeOrStop
  rw [ends_orElse]
  apply (revokeDesktopAccess_ends enabled d).mono cloud_monotone
  · exact fun _ _ closed => closed
  · exact fun _ _ counted => stopServer_counts counted

theorem failClosedDesktopCleanup_fails_closed (enabled : cfg.enabled = true) (d : Desk) :
    Ends cloud (failClosedDesktopCleanup cfg) d (fun _ d' => Closed cfg d')
      fun _ d' => d.stops < d'.stops := by
  unfold failClosedDesktopCleanup
  rw [ends_orElse]
  apply (revokeDesktopAccess_ends enabled d).mono cloud_monotone
  · exact fun _ _ closed => closed
  · exact fun _ _ counted => stopServer_counts counted

/- Closed, or the server was told to stop. -/
theorem cleanUpAfter_fails_closed {α : Type} (enabled : cfg.enabled = true) (error : Raised)
    (message : String) {n : Nat} {post : α → Desk → Prop} {d : Desk} (counted : n ≤ d.stops) :
    Ends cloud (cleanUpAfter cfg error message) d post
      fun _ d' => Closed cfg d' ∨ n < d'.stops := by
  unfold cleanUpAfter
  rw [ends_bind, ends_orElse]
  apply (failClosedDesktopCleanup_fails_closed enabled d).mono cloud_monotone
  · exact fun _ _ closed => Or.inl closed
  · exact fun _ _ stopped => Or.inr (lt_of_le_of_lt counted stopped)

theorem registered_named (contest : RegisteredContest) : contest.1.tid ≠ "" := by
  intro unnamed
  have checked := contest.2
  rw [unnamed] at checked
  exact absurd checked (by decide)

/- An entrance that opens for a contest leaves the contests as they are. -/
theorem openFor_open (enabled : cfg.enabled = true) (contest : RegisteredContest) (d : Desk) :
    Ends cloud (openFor cfg contest) d
      (fun _ d' => d'.contests = d.contests ∧ OpenFor cfg contest.1.tid contest.1.endAtMs d')
      fun _ _ => True := by
  have readings : Only Stateless (validateReadyGateway cfg) := by
    apply Only.bind (only_perform trivial)
    intro status
    exact Only.bind only_raiseIf fun _ => only_raiseIf
  apply Ends.bind cloud_monotone (contests_kept readings d.contests d rfl) _ fun _ _ _ => trivial
  intro _ t same
  have maintained : Ends cloud (Program.orElse (checkMaintenance contest) fun error => do
      setState contest.1.tid .error "系统维护保护失效；桌面入口收回，需人工处理"
      Program.raise error) t (fun _ t => t.contests = d.contests) fun _ _ => True := by
    -- a lost maintenance protection is stored as an error, and then raised
    rw [ends_orElse]
    have checked : Only Stateless (checkMaintenance contest) := only_perform trivial
    apply (contests_kept checked d.contests t same).mono cloud_monotone
    · exact fun _ _ same => same
    · exact fun _ t _ => Yields.after (fun _ => yields_raise) t
  apply maintained.bind cloud_monotone _ fun _ _ _ => trivial
  intro _ t same
  have opens := ensureDesktopAccess_open enabled (registered_named contest) contest.1.endAtMs t
  have keeps := contests_kept (stateless_ensureDesktopAccess cfg contest.1.tid contest.1.endAtMs)
    d.contests t same
  apply (keeps.both opens).mono cloud_monotone
  · exact fun _ _ held => held
  · exact fun _ _ _ => trivial

theorem desiredDesktopAccess_single (d : Desk) :
    Ends cloud desiredDesktopAccess d
      (fun desired d' => d'.contests = d.contests ∧
        ∀ contest ∈ desired.1, d.contests.filter (·.1.state == .ready) = [contest])
      fun _ _ => True := by
  have clocked : Only Stateless readClock := only_perform trivial
  apply Ends.bind cloud_monotone (contests_kept clocked d.contests d rfl) _ fun _ _ _ => trivial
  intro now t same
  simp only [readContests, ends_bind, ends_perform]
  intro choice _
  have kept : (Desk.respond .contests choice t).2.contests = d.contests := by
    rw [Desk.respond_contests t choice (by simp), same]
  cases answered : (Desk.respond .contests choice t).1 with
  | error e => trivial
  | ok listed =>
    have exact : listed = d.contests := (Desk.respond_listed answered).trans kept
    rw [ends_ofExcept_ok, exact]
    split
    · rename_i contest single
      rw [ends_ite]
      constructor
      · intro _
        refine ⟨kept, ?_⟩
        intro found is
        rw [← Option.mem_some.mp is]
        exact single
      · exact fun _ => ⟨kept, by simp⟩
    · exact ⟨kept, by simp⟩
    · exact ⟨kept, by simp⟩

def FailsClosed (cfg : AccessConfig) (d : Desk) : Except Raised AccessStatus × Desk → Prop
  | (.ok status, d') =>
    if status.desiredOpen then
      d'.contests = d.contests ∧ ∃ contest : RegisteredContest,
        d.contests.filter (·.1.state == .ready) = [contest] ∧
        OpenFor cfg contest.1.tid contest.1.endAtMs d'
    else Closed cfg d'
  | (.error _, d') => Closed cfg d' ∨ d.stops < d'.stops

theorem desired_or_cleaned (enabled : cfg.enabled = true) (message : String) (d : Desk) :
    Ends cloud (Program.orElse desiredDesktopAccess fun error => cleanUpAfter cfg error message) d
      (fun desired t => (t.contests = d.contests ∧
        ∀ contest ∈ desired.1, d.contests.filter (·.1.state == .ready) = [contest]) ∧
        d.stops ≤ t.stops)
      fun _ t => Closed cfg t ∨ d.stops < t.stops := by
  rw [ends_orElse]
  have counts := stops_kept desiredDesktopAccess d.stops d (le_refl _)
  apply ((desiredDesktopAccess_single d).both counts).mono cloud_monotone
  · exact fun _ _ held => held
  · exact fun error t held => cleanUpAfter_fails_closed enabled error message held.2

theorem opened_or_cleaned (enabled : cfg.enabled = true) (contest : RegisteredContest)
    (message : String) {stops : Nat} {t : Desk} (counted : stops ≤ t.stops) :
    Ends cloud (Program.orElse (openFor cfg contest) fun error => cleanUpAfter cfg error message) t
      (fun _ t' => t'.contests = t.contests ∧ OpenFor cfg contest.1.tid contest.1.endAtMs t')
      fun _ t' => Closed cfg t' ∨ stops < t'.stops := by
  rw [ends_orElse]
  have counts := stops_kept (openFor cfg contest) stops t counted
  apply ((openFor_open enabled contest t).both counts).mono cloud_monotone
  · exact fun _ _ held => held.1
  · exact fun error t' held => cleanUpAfter_fails_closed enabled error message held.2

theorem reconcile_ends (enabled : cfg.enabled = true) (closing : Bool) (d : Desk) :
    Ends cloud (reconcileDesktopAccess cfg closing) d
      (fun status d' => FailsClosed cfg d (.ok status, d'))
      fun error d' => FailsClosed cfg d (.error error, d') := by
  have shut (tell : Snapshot → AccessStatus) (closed : ∀ s, (tell s).desiredOpen = false) (t : Desk)
      (counted : d.stops ≤ t.stops) :
      Ends cloud (do let status ← closeOrStop cfg; return tell status) t
        (fun status d' => FailsClosed cfg d (.ok status, d'))
        fun error d' => FailsClosed cfg d (.error error, d') := by
    apply Ends.bind cloud_monotone (closeOrStop_fails_closed enabled t)
    · intro status d' none
      simp only [ends_pure, FailsClosed, closed]
      exact none
    · exact fun _ _ stopped => Or.inr (lt_of_le_of_lt counted stopped)
  unfold reconcileDesktopAccess
  simp only [ends_ite]
  refine ⟨fun disabled => ?_, fun _ => ⟨fun _ => ?_, fun _ => ?_⟩⟩
  · simp [enabled] at disabled
  · exact shut _ (fun _ => rfl) d (le_refl _)
  apply (desired_or_cleaned enabled _ d).bind cloud_monotone _ fun _ _ failed => failed
  intro desired t held
  obtain ⟨wanted, reason⟩ := desired
  obtain ⟨⟨same, single⟩, counted⟩ := held
  cases wanted with
  | none => exact shut _ (fun _ => rfl) t counted
  | some contest =>
    apply (opened_or_cleaned enabled contest _ counted).bind cloud_monotone _
      fun _ _ failed => failed
    intro snapshot t' opened
    exact ⟨opened.1.trans same, contest, single contest rfl, opened.2⟩

theorem reconcile_fails_closed (enabled : cfg.enabled = true) (closing : Bool)
    (choices : Nat → CloudChoice) (d : Desk) :
    FailsClosed cfg d ((reconcileDesktopAccess cfg closing).exec Desk.respond choices d) := by
  have meets := exec_of_ends (reconcile_ends enabled closing d) (obeys_trivial _ choices _)
  generalize (reconcileDesktopAccess cfg closing).exec Desk.respond choices d = ended at meets ⊢
  obtain ⟨result, d'⟩ := ended
  cases result <;> exact meets

end Pipeline

/- A running contest whose rule is published, without a rule before. -/

def directAccess : AccessConfig :=
  { enabled := true, instanceId := "i-noi", securityGroupId := "sg-noi",
    sourceCidr := "198.51.100.0/24" }

def readyDesk : Desk :=
  { contests := [⟨{ tid := "0123456789abcdef01234567", files := [], endAtMs := 1000,
                    state := .ready }, by decide +kernel⟩] }

def healthyCloud : CloudChoice :=
  { topology :=
      { groups := [{ securityGroupId := "sg-noi", groupType := "normal" }]
        instances := [{ instanceId := "i-noi", status := "Running", securityGroups := ["sg-noi"],
                        eip := "203.0.113.10" }] } }

example : ((reconcileDesktopAccess directAccess false).exec Desk.respond
    (fun _ => healthyCloud) readyDesk).1.map (·.desiredOpen) = .ok true := by decide +kernel

theorem reconcile_opens_ready_contest :
    FailsClosed directAccess readyDesk
      ((reconcileDesktopAccess directAccess false).exec Desk.respond
        (fun _ => healthyCloud) readyDesk) :=
  reconcile_fails_closed rfl false _ readyDesk

end NoiContest.Desktop
