import NoiContest.Collection.Readings

/- What collect sends to the OJ, and what its log says of a problem when nothing failed. -/
namespace NoiContest.Collection
open Pipeline Flow

variable {cfg : Config} {files : List String} {t : Log} {grounds : Log → Call → Prop}

theorem runs_orElse {ε ε' α : Type} {x : Program Call Answer Raised ε α}
    {handle : ε → Program Call Answer Raised ε' α} {post : α → Log → Prop}
    (body : Runs grounds x t post fun e t' => Runs grounds (handle e) t' post) :
    Runs grounds (x.orElse handle) t post :=
  ends_orElse.mpr body

theorem runs_mapError {ε ε' α : Type} {x : Program Call Answer Raised ε α} {f : ε → ε'}
    {post : α → Log → Prop} (body : Runs grounds x t post) : Runs grounds (x.mapError f) t post :=
  ends_mapError.mpr body

/- Confirming -/

section Finalize
variable (free : ∀ c, Quiet c → ∀ t, grounds t c)
include free

theorem finalizeProblem_runs {uid : Int} {latest : List (String × WebRow)}
    {prefinalized : Prefinalized} (name : String) (read : Did t (.latestWebSubmissions uid) latest)
    (known : PrefinalizedRead t prefinalized) :
    Runs grounds (finalizeProblem uid latest name prefinalized) t fun result t' =>
      t <+: t' ∧ PrefinalizedRead t' result := by
  rw [finalizeProblem]
  split
  · exact ⟨List.prefix_rfl, known⟩
  next row found =>
  split
  · next fresh =>
    refine runs_orElse ?_
    refine ⟨free _ (by trivial) _, fun answer _ => ?_⟩
    have more := List.prefix_append t [⟨Call.ensure row.id, answer⟩]
    cases answer with
    | error e => exact ⟨more, known.mono more⟩
    | ok delivered =>
      refine ⟨more, fun uid' name' delivered' mem => ?_⟩
      rcases List.mem_append.mp mem with old | new
      · exact known.mono more uid' name' delivered' old
      · cases List.mem_singleton.mp new
        exact ⟨latest, row, read.mono more, found, fresh.1, did_last⟩
  · exact ⟨List.prefix_rfl, known⟩

theorem finalizeProblems_runs {uid : Int} {latest : List (String × WebRow)} (names : List String)
    {prefinalized : Prefinalized} (read : Did t (.latestWebSubmissions uid) latest)
    (known : PrefinalizedRead t prefinalized) :
    Runs grounds (finalizeProblems uid latest names prefinalized) t fun result t' =>
      t <+: t' ∧ PrefinalizedRead t' result := by
  induction names generalizing t prefinalized with
  | nil => exact ⟨List.prefix_rfl, known⟩
  | cons name names ih =>
    rw [finalizeProblems]
    refine (finalizeProblem_runs free name read known).then ?_
    rintro result t' ⟨more, known'⟩
    exact (ih (read.mono more) known').mono fun _ _ post => ⟨more.trans post.1, post.2⟩

theorem finalizeSeats_runs (seats : List Seat) {prefinalized : Prefinalized}
    (known : PrefinalizedRead t prefinalized) :
    Runs grounds (finalizeSeats files seats prefinalized) t fun result t' =>
      t <+: t' ∧ PrefinalizedRead t' result := by
  induction seats generalizing t prefinalized with
  | nil => exact ⟨List.prefix_rfl, known⟩
  | cons seat seats ih =>
    rw [finalizeSeats]
    refine Runs.then (runs_mapError (runs_call (P := fun latest t' =>
      t <+: t' ∧ Did t' (.latestWebSubmissions seat.uid) latest) (free _ (by trivial) _)
      fun _ => ⟨List.prefix_append .., did_last⟩)) ?_
    rintro latest t₁ ⟨m₁, read⟩
    refine Runs.then (runs_mapError (finalizeProblems_runs free files read (known.mono m₁))) ?_
    rintro result t₂ ⟨m₂, known₂⟩
    exact (ih known₂).mono fun _ _ post => ⟨(m₁.trans m₂).trans post.1, post.2⟩

theorem finalizeRealtimeWeb_runs (seats : List Seat) {prefinalized : Prefinalized}
    (known : PrefinalizedRead t prefinalized) :
    Runs grounds (finalizeRealtimeWeb cfg seats files prefinalized) t fun result t' =>
      t <+: t' ∧ PrefinalizedRead t' result := by
  rw [finalizeRealtimeWeb]
  split
  · exact ⟨List.prefix_rfl, known⟩
  · refine Runs.then (runs_mapError (runs_call (c := .base (.setState .collecting "确认网页实时评测记录"))
      (P := fun _ t' => t <+: t') (free _ (by trivial) _) fun _ => List.prefix_append ..)) ?_
    intro _ t₁ m₁
    exact (finalizeSeats_runs free seats (known.mono m₁)).mono fun _ _ post =>
      ⟨m₁.trans post.1, post.2⟩

end Finalize

/- Sending -/

/-- The code of a problem may be sent, with these arguments. -/
def Sendable (cfg : Config) (s : Sending) (uid : Int) (name : String) (chosen : Chosen)
    (args : SubmitArgs) : Prop :=
  ∃ pid, s.pids.lookup name = some pid ∧
    args = ⟨s.tid, uid, pid, chosen.source, submissionId s.session s.tid uid pid⟩ ∧
    chosen.item.status = .ok ∧ PyText.strip chosen.source ≠ "" ∧
    ∀ row, chosen.webRow = some row → row.submissionId = "" ∨ cfg.realtimeJudge = false

/- What an entry of the log rests on. -/
inductive Settled (t : Log) (cfg : Config) (s : Sending) (uid : Int) (name : String)
    (chosen : Chosen) : LogEntry → Prop
  | failed {entry : LogEntry} (bad : entry.ok = false) : Settled t cfg s uid name chosen entry
  | reused {row : WebRow} {delivered : Delivered} {preserved : Bool} {issues : JsonText.Json}
      (web : chosen.webRow = some row) (judged : row.submissionId ≠ "")
      (valid : isRid delivered.rid = true)
      (known : s.prefinalized.lookup (uid, name) = some delivered ∨
        Did t (.ensure row.id) delivered) :
      Settled t cfg s uid name chosen (.reused delivered.rid preserved issues)
  | skipped (empty : chosen.item.status ≠ .ok ∨ PyText.strip chosen.source = "") :
      Settled t cfg s uid name chosen (.skipped chosen.item.issues)
  | sent {args : SubmitArgs} {rid : String} (sendable : Sendable cfg s uid name chosen args)
      (did : Did t (.submitOne args) (.accepted rid)) (valid : isRid rid = true) :
      Settled t cfg s uid name chosen (.sent rid chosen.item.issues)

theorem Settled.mono {t' : Log} {s : Sending} {uid : Int} {name : String} {chosen : Chosen}
    {entry : LogEntry} (settled : Settled t cfg s uid name chosen entry) (more : t <+: t') :
    Settled t' cfg s uid name chosen entry := by
  cases settled with
  | failed bad => exact .failed bad
  | reused web judged valid known => exact .reused web judged valid (known.imp id (·.mono more))
  | skipped empty => exact .skipped empty
  | sent sendable did valid => exact .sent sendable (did.mono more) valid

theorem reuse_ok {delivered : Delivered} {entry : LogEntry} (done : reuse delivered = .ok entry) :
    isRid delivered.rid = true ∧ ∃ preserved issues,
      entry = .reused delivered.rid preserved issues := by
  rw [reuse] at done
  split at done
  · cases done
  · next valid =>
    split at done
    · cases done
      exact ⟨Bool.of_not_eq_false valid, _, _, rfl⟩
    · cases done

section Send
variable (free : ∀ c, Quiet c → ∀ t, grounds t c)
include free

theorem submitProblem_runs {s : Sending} {uid : Int} {name : String} {chosen : Chosen}
    (mayed : ∀ args, Sendable cfg s uid name chosen args → grounds t (.submitOne args)) :
    Runs grounds (submitProblem cfg s uid name chosen) t fun entry t' =>
      t <+: t' ∧ Settled t' cfg s uid name chosen entry := by
  rw [submitProblem]
  split
  · exact ⟨List.prefix_rfl, .failed rfl⟩
  next pid named =>
  have pid_named := (Option.filter_eq_some_iff.mp named).1
  dsimp only
  split
  · next row judged =>
    obtain ⟨web, judged⟩ := Option.filter_eq_some_iff.mp judged
    have judged := (of_decide_eq_true judged).1
    have finish : ∀ delivered t', t <+: t' → (s.prefinalized.lookup (uid, name) = some delivered ∨
        Did t' (.ensure row.id) delivered) →
        Runs grounds (Program.ofExcept (reuse delivered)) t'
          (fun entry t'' => t <+: t'' ∧ Settled t'' cfg s uid name chosen entry)
          fun error t'' => Runs grounds (pure (LogEntry.notReused error.text) : Procedure LogEntry)
            t'' fun entry t₃ => t <+: t₃ ∧ Settled t₃ cfg s uid name chosen entry := by
      intro delivered t' more known
      cases done : reuse delivered with
      | error e => exact ⟨more, .failed rfl⟩
      | ok entry =>
        obtain ⟨valid, preserved, issues, rfl⟩ := reuse_ok done
        exact ⟨more, .reused web judged valid known⟩
    refine runs_orElse ?_
    split
    · next delivered known => exact finish delivered t List.prefix_rfl (.inl known)
    · refine ⟨free _ (by trivial) _, fun answer _ => ?_⟩
      have more := List.prefix_append t [⟨Call.ensure row.id, answer⟩]
      cases answer with
      | error e => exact ⟨more, .failed rfl⟩
      | ok delivered => exact finish delivered _ more (.inr did_last)
  · next judged =>
    split
    · next empty => exact ⟨List.prefix_rfl, .skipped empty⟩
    · next filled =>
      rw [not_or, not_not] at filled
      have sendable : Sendable cfg s uid name chosen
          ⟨s.tid, uid, pid, chosen.source, submissionId s.session s.tid uid pid⟩ := by
        refine ⟨pid, pid_named, rfl, filled.1, filled.2, fun row web => ?_⟩
        rw [web, Option.filter_eq_none_iff] at judged
        have undecided := judged row rfl
        rw [decide_eq_true_iff, not_and_or, not_not, Bool.not_eq_true] at undecided
        exact undecided
      refine runs_step (mayed _ sendable) fun result more did => ?_
      cases result with
      | refused fields => exact ⟨more, .failed rfl⟩
      | accepted rid =>
        change Runs grounds (if isRid rid then _ else _) _ _
        split
        · next valid => exact ⟨more, .sent sendable did valid⟩
        · exact ⟨more, .failed rfl⟩

theorem submitUser_runs {s : Sending} {uid : Int} (items : List (String × Chosen))
    (mayed : ∀ item ∈ items, ∀ args t', t <+: t' → Sendable cfg s uid item.1 item.2 args →
      grounds t' (.submitOne args)) :
    Runs grounds (submitUser cfg s uid items) t fun log t' => t <+: t' ∧
      log.map Prod.fst = items.map Prod.fst ∧ ∀ name chosen entry, (name, chosen) ∈ items →
        (name, entry) ∈ log → (items.map Prod.fst).Nodup →
          Settled t' cfg s uid name chosen entry := by
  induction items generalizing t with
  | nil => exact ⟨List.prefix_rfl, rfl, fun _ _ _ mem => absurd mem List.not_mem_nil⟩
  | cons item items ih =>
    obtain ⟨name, chosen⟩ := item
    rw [submitUser]
    refine (submitProblem_runs free fun args =>
      mayed _ List.mem_cons_self args t List.prefix_rfl).then ?_
    rintro entry t₁ ⟨m₁, settled⟩
    refine Runs.then (ih fun item mem args t' more =>
      mayed item (List.mem_cons_of_mem _ mem) args t' (m₁.trans more)) ?_
    rintro log t₂ ⟨m₂, same, all⟩
    refine ⟨m₁.trans m₂, by rw [List.map_cons, List.map_cons, same], ?_⟩
    intro other value given mem logged once
    rw [List.map_cons, List.nodup_cons] at once
    have apart : ∀ {v : Chosen}, (name, v) ∉ items := fun inside =>
      once.1 (List.mem_map.mpr ⟨_, inside, rfl⟩)
    have apart' : ∀ {e : LogEntry}, (name, e) ∉ log := fun inside =>
      once.1 (same ▸ List.mem_map.mpr ⟨_, inside, rfl⟩)
    rcases List.mem_cons.mp mem with first | later
    · cases first
      rcases List.mem_cons.mp logged with first | later
      · cases first
        exact settled.mono m₂
      · exact absurd later apart'
    · rcases List.mem_cons.mp logged with first | logged
      · cases first
        exact absurd later apart
      · exact all other value given later logged once.2

/- The log of every student has an entry for every problem, and each entry has its grounds. -/
def LogSettled (t : Log) (cfg : Config) (s : Sending) (answers : Dict String UserAnswers)
    (seats : List Seat) (log : List (Seat × List (String × LogEntry))) : Prop :=
  log.map Prod.fst = seats ∧ ∀ seat entries, (seat, entries) ∈ log →
    ∃ user, answers.get? seat.uname = some user ∧
      entries.map Prod.fst = user.chosen.keys ∧ ∀ name chosen entry,
        user.chosen.get? name = some chosen → (name, entry) ∈ entries →
          Settled t cfg s seat.uid name chosen entry

omit free in
theorem LogSettled.mono {t' : Log} {s : Sending} {answers : Dict String UserAnswers}
    {seats : List Seat} {log : List (Seat × List (String × LogEntry))}
    (settled : LogSettled t cfg s answers seats log) (more : t <+: t') :
    LogSettled t' cfg s answers seats log := by
  refine ⟨settled.1, fun seat entries mem => ?_⟩
  obtain ⟨user, got, names, all⟩ := settled.2 seat entries mem
  exact ⟨user, got, names, fun name chosen entry found logged =>
    (all name chosen entry found logged).mono more⟩

theorem submitAll_runs {s : Sending} {answers : Dict String UserAnswers} (seats : List Seat)
    (mayed : ∀ seat ∈ seats, ∀ user name chosen args t', t <+: t' →
      answers.get? seat.uname = some user → user.chosen.get? name = some chosen →
      Sendable cfg s seat.uid name chosen args → grounds t' (.submitOne args)) :
    Runs grounds (submitAll cfg s answers seats) t fun log t' =>
      t <+: t' ∧ LogSettled t' cfg s answers seats log := by
  induction seats generalizing t with
  | nil => exact ⟨List.prefix_rfl, rfl, nofun⟩
  | cons seat seats ih =>
    rw [submitAll]
    split
    · trivial
    next user got =>
    refine (submitUser_runs free user.chosen.items fun item mem args t' more =>
      mayed seat List.mem_cons_self user item.1 item.2 args t' more got
        (Dict.get?_some.mpr mem)).then ?_
    rintro log t₁ ⟨m₁, names, settled⟩
    refine Runs.then (ih fun other mem user name chosen args t' more =>
      mayed other (List.mem_cons_of_mem _ mem) user name chosen args t' (m₁.trans more)) ?_
    rintro later t₂ ⟨m₂, all⟩
    refine ⟨m₁.trans m₂, by rw [List.map_cons, all.1], fun other entries mem => ?_⟩
    rcases List.mem_cons.mp mem with first | rest
    · cases first
      exact ⟨user, got, names, fun name chosen entry found logged =>
        (settled name chosen entry (Dict.get?_some.mp found) logged user.chosen.distinct).mono m₂⟩
    · exact all.2 other entries rest

end Send

end NoiContest.Collection
