import NoiContest.Collection.Evidence

/- A run of collect sends at most one code for a seat and a problem, in the order of the table. -/
namespace NoiContest.Collection
open Pipeline Flow

variable {cfg : Config} {tid : String} {t : Log} {grounds : Log → Call → Prop}

def sentPair : Event Call Answer Raised → Option (Int × String)
  | ⟨.submitOne args, _⟩ => some (args.uid, args.pid)
  | _ => none

/-- The students and problems that codes were sent for. -/
def sent (t : Log) : List (Int × String) := t.filterMap sentPair

def cell (pids : List (String × String)) (uid : Int) (name : String) : Option (Int × String) :=
  (pids.lookup name).map fun pid => (uid, pid)

def table (files : List String) (pids : List (String × String)) (seats : List Seat) :
    List (Int × String) :=
  seats.flatMap fun seat => files.filterMap (cell pids seat.uid)

def Unsent : Call → Prop
  | .submitOne _ => False
  | _ => True

theorem sent_unsent {c : Call} (unsent : Unsent c) (answer : Except Raised (Answer c)) :
    sent (t ++ [⟨c, answer⟩]) = sent t := by
  have silent : sentPair ⟨c, answer⟩ = none := by
    cases c with
    | submitOne args => exact unsent.elim
    | _ => rfl
  rw [sent, List.filterMap_append, List.filterMap_cons_none silent, List.filterMap_nil,
    List.append_nil]
  rfl

theorem sent_submit {args : SubmitArgs} (answer : Except Raised SubmitResult) :
    sent (t ++ [⟨.submitOne args, answer⟩]) = sent t ++ [(args.uid, args.pid)] := by
  rw [sent, List.filterMap_append]
  rfl

theorem unsent_of_quiet {c : Call} (quiet : Quiet c) : Unsent c := by
  cases c with
  | submitOne args => exact quiet.elim
  | _ => trivial

/- Nothing is sent by a part of quiet calls. -/
theorem Runs.unsent {ε α : Type} {x : Program Call Answer Raised ε α} {middle : α → Log → Prop}
    {t₀ : Log} (free : ∀ c, Unsent c → ∀ t, grounds t c) (same : sent t = sent t₀)
    (runs : Runs (fun _ => Quiet) x t middle) :
    Runs grounds x t fun a t' => middle a t' ∧ sent t' = sent t₀ := by
  induction x generalizing t with
  | done result =>
    cases result with
    | ok a => exact ⟨runs, same⟩
    | error e => trivial
  | call c next ih =>
    have unsent := unsent_of_quiet runs.1
    exact ⟨free c unsent t, fun answer permitted =>
      ih answer ((sent_unsent unsent answer).trans same) (runs.2 answer permitted)⟩

theorem Runs.silent {ε α β : Type} {x : Program Call Answer Raised ε α}
    {f : α → Program Call Answer Raised ε β} {M : α → Log → Prop} {post : β → Log → Prop}
    (free : ∀ c, Unsent c → ∀ t, grounds t c) (first : Runs (fun _ => Quiet) x t M)
    (later : ∀ a t', M a t' → sent t' = sent t → Runs grounds (f a) t' post) :
    Runs grounds (x >>= f) t post :=
  (first.unsent free rfl).then fun a t' both => later a t' both.1 both.2

section Send
variable (free : ∀ c, Unsent c → ∀ t, grounds t c) {s : Sending}
include free

/-- What was sent since then is some of these, in order. -/
def Sends (t : Log) (pairs : List (Int × String)) (t' : Log) : Prop :=
  t <+: t' ∧ ∃ new, sent t' = sent t ++ new ∧ new.Sublist pairs

omit free in
theorem Sends.none {t' : Log} {pairs : List (Int × String)} (more : t <+: t')
    (same : sent t' = sent t) : Sends t pairs t' :=
  ⟨more, [], by rw [same, List.append_nil], List.nil_sublist _⟩

omit free in
theorem Sends.trans {t₁ t₂ : Log} {first second : List (Int × String)} (before : Sends t first t₁)
    (after : Sends t₁ second t₂) : Sends t (first ++ second) t₂ := by
  obtain ⟨m₁, new₁, eq₁, sub₁⟩ := before
  obtain ⟨m₂, new₂, eq₂, sub₂⟩ := after
  exact ⟨m₁.trans m₂, new₁ ++ new₂, by rw [eq₂, eq₁, List.append_assoc], sub₁.append sub₂⟩

/-- Whatever may be sent next keeps to these pairs. -/
def MaySend (grounds : Log → Call → Prop) (t : Log) (pairs : List (Int × String)) : Prop :=
  ∀ t' new args, t <+: t' → sent t' = sent t ++ new →
    (new ++ [(args.uid, args.pid)]).Sublist pairs → grounds t' (.submitOne args)

omit free in
theorem MaySend.after {t₁ : Log} {first second : List (Int × String)}
    (may : MaySend grounds t (first ++ second)) (before : Sends t first t₁) :
    MaySend grounds t₁ second := by
  obtain ⟨m₁, new₁, eq₁, sub₁⟩ := before
  intro t' new args more eq sub
  refine may t' (new₁ ++ new) args (m₁.trans more) (by rw [eq, eq₁, List.append_assoc]) ?_
  rw [List.append_assoc]
  exact sub₁.append sub

omit free in
theorem MaySend.first {first second : List (Int × String)}
    (may : MaySend grounds t (first ++ second)) : MaySend grounds t first :=
  fun t' new args more eq sub => may t' new args more eq (sub.trans (List.sublist_append_left ..))

theorem submitProblem_sends {uid : Int} {name : String} {chosen : Chosen}
    (may : MaySend grounds t (cell s.pids uid name).toList) :
    Runs grounds (submitProblem cfg s uid name chosen) t fun _ =>
      Sends t (cell s.pids uid name).toList := by
  have still : ∀ {pairs}, Sends t pairs t := Sends.none List.prefix_rfl rfl
  rw [submitProblem]
  split
  · exact still
  next pid named =>
  have known : cell s.pids uid name = some (uid, pid) := by
    rw [cell, (Option.filter_eq_some_iff.mp named).1]
    rfl
  rw [known] at may ⊢
  dsimp only
  split
  · next row _ =>
    refine runs_orElse ?_
    split
    · next delivered _ =>
      change Runs grounds (Program.ofExcept (reuse delivered)) _ _ _
      cases reuse delivered <;> exact still
    · refine ⟨free _ (by trivial) _, fun answer _ => ?_⟩
      have after : Sends t (Option.some (uid, pid)).toList (t ++ [⟨.ensure row.id, answer⟩]) :=
        .none (List.prefix_append ..) (sent_unsent (by trivial) answer)
      cases answer with
      | error e => exact after
      | ok delivered =>
        change Runs grounds (Program.ofExcept (reuse delivered)) _ _ _
        cases reuse delivered <;> exact after
  · split
    · exact still
    · refine runs_step (may t [] _ List.prefix_rfl (List.append_nil _).symm (List.Sublist.refl _))
        fun result more _ => ?_
      have after : Sends t (Option.some (uid, pid)).toList _ :=
        ⟨more, [(uid, pid)], sent_submit _, List.Sublist.refl _⟩
      cases result with
      | refused fields => exact after
      | accepted rid =>
        change Runs grounds (if isRid rid then _ else _) _ _
        split <;> exact after

theorem submitUser_sends {uid : Int} (items : List (String × Chosen))
    (may : MaySend grounds t ((items.map Prod.fst).filterMap (cell s.pids uid))) :
    Runs grounds (submitUser cfg s uid items) t fun _ =>
      Sends t ((items.map Prod.fst).filterMap (cell s.pids uid)) := by
  induction items generalizing t with
  | nil => exact .none List.prefix_rfl rfl
  | cons item items ih =>
    have row : ((item :: items).map Prod.fst).filterMap (cell s.pids uid) =
        (cell s.pids uid item.1).toList ++ (items.map Prod.fst).filterMap (cell s.pids uid) := by
      rw [List.map_cons, List.filterMap_cons]
      cases cell s.pids uid item.1 <;> rfl
    rw [row] at may ⊢
    rw [submitUser]
    refine (submitProblem_sends free may.first).then fun entry t₁ first => ?_
    exact (ih (may.after first)).then fun later t₂ second => first.trans second

def row (pids : List (String × String)) (answers : Dict String UserAnswers) (seat : Seat) :
    List (Int × String) :=
  match answers.get? seat.uname with
  | some user => user.chosen.keys.filterMap (cell pids seat.uid)
  | none => []

theorem submitAll_sends {answers : Dict String UserAnswers} (seats : List Seat)
    (may : MaySend grounds t (seats.flatMap (row s.pids answers))) :
    Runs grounds (submitAll cfg s answers seats) t fun _ =>
      Sends t (seats.flatMap (row s.pids answers)) := by
  induction seats generalizing t with
  | nil => exact .none List.prefix_rfl rfl
  | cons seat seats ih =>
    rw [List.flatMap_cons] at may ⊢
    rw [submitAll]
    split
    · trivial
    next user got =>
    have mine : row s.pids answers seat =
        (user.chosen.items.map Prod.fst).filterMap (cell s.pids seat.uid) := by
      rw [row, got]
      rfl
    rw [mine] at may ⊢
    refine (submitUser_sends free user.chosen.items may.first).then fun log t₁ first => ?_
    exact (ih (may.after first)).then fun later t₂ second => first.trans second

end Send

theorem rows_sublist (pids : List (String × String)) (seats : List Seat) {files : List String}
    {answers : Dict String UserAnswers}
    (order : ∀ uname user, answers.get? uname = some user → user.chosen.keys.Sublist files) :
    (seats.flatMap (row pids answers)).Sublist (table files pids seats) := by
  induction seats with
  | nil => exact List.Sublist.refl _
  | cons seat seats ih =>
    rw [List.flatMap_cons, table, List.flatMap_cons]
    refine List.Sublist.append ?_ ih
    rw [row]
    split
    · next user got => exact (order _ user got).filterMap _
    · exact List.nil_sublist _

/- What was sent so far and is to be sent next stands in the table that the run works on. -/
def InTable (t : Log) (pairs : List (Int × String)) : Prop :=
  ∃ contest pids seats, Did t (.base .getContest) (some contest) ∧ contest.pids = some pids ∧
    Did t .seats seats ∧ pairs.Sublist (table contest.files pids seats)

def inOrder (t : Log) : Call → Prop
  | .submitOne args => InTable t (sent t ++ [(args.uid, args.pid)])
  | _ => True

theorem inOrder_free (c : Call) (unsent : Unsent c) (t : Log) : inOrder t c := by
  cases c with
  | submitOne args => exact unsent.elim
  | _ => trivial

theorem InTable.mono {t' : Log} {pairs : List (Int × String)} (known : InTable t pairs)
    (more : t <+: t') : InTable t' pairs := by
  obtain ⟨contest, pids, seats, registered, mapped, listed, sub⟩ := known
  exact ⟨contest, pids, seats, registered.mono more, mapped, listed.mono more, sub⟩

theorem runs_still {ε α β : Type} {x : Program Call Answer Raised ε α}
    {f : α → Program Call Answer Raised ε β} {post : β → Log → Prop} (only : Only Quiet x)
    (later : ∀ a t', t <+: t' → sent t' = sent t → Runs inOrder (f a) t' post) :
    Runs inOrder (x >>= f) t post := by
  refine Runs.silent inOrder_free (M := fun _ t' => t <+: t') ?_ later
  refine (only.traced fun _ quiet _ => quiet).mono tracing_monotone ?_ fun _ _ _ => trivial
  rintro a t' ⟨new, rfl, _⟩
  exact List.prefix_append ..

theorem runs_unsent {ε α : Type} {x : Program Call Answer Raised ε α} (only : Only Unsent x) :
    Runs inOrder x t fun _ _ => True :=
  (only.traced inOrder_free).mono tracing_monotone (fun _ _ _ => trivial) fun _ _ _ => trivial

theorem writeReports_only (outDir : String) (documents : List (String × JsonText.Json)) :
    Only Quiet (writeReports outDir documents) := by
  induction documents with
  | nil => exact only_pure
  | cons document documents ih =>
    exact (only_quiet (by trivial)).bind fun _ => ih.bind fun _ => only_pure

theorem send_sends {answers : Dict String UserAnswers} {s : Sending} (seats : List Seat)
    (may : MaySend inOrder t (seats.flatMap (row s.pids answers))) :
    Runs inOrder (send cfg s answers seats) t fun _ _ => True := by
  rw [send]
  split
  · exact (submitAll_sends inOrder_free seats may).then fun _ _ _ => trivial
  · trivial

theorem archiveAndSend_in_order {contest : Contest} {seats : List Seat} {pooled : Bool}
    {prefinalized : Prefinalized} (registered : Did t (.base .getContest) (some contest))
    (listed : Did t .seats seats) (unsent : sent t = []) :
    Runs inOrder (archiveAndSend cfg tid contest seats pooled prefinalized) t
      fun _ _ => True := by
  rw [archiveAndSend]
  refine runs_still (only_base _) fun _ t₁ m₁ s₁ => ?_
  refine runs_still (only_quiet (by trivial)) fun _ t₂ m₂ s₂ => ?_
  refine runs_still (only_quiet (by trivial)) fun runId t₃ m₃ s₃ => ?_
  refine runs_still (only_quiet (by trivial)) fun _ t₄ m₄ s₄ => ?_
  refine runs_still (((only_quiet (by trivial)).bind fun _ => only_quiet (by trivial)).andFinally
    (only_quiet (by trivial))) fun _ t₅ m₅ s₅ => ?_
  refine Runs.silent inOrder_free (gather_runs (fun _ quiet _ => quiet)
    ⟨_, pooled, contest.files⟩ seats [] Dict.empty gathered_nil) ?_
  rintro answers t₆ ⟨m₆, gathered⟩ s₆
  refine runs_still (writeReports_only _ _) fun digests t₇ m₇ s₇ => ?_
  have m := (((((m₁.trans m₂).trans m₃).trans m₄).trans m₅).trans m₆).trans m₇
  have none : sent t₇ = [] := by rw [s₇, s₆, s₅, s₄, s₃, s₂, s₁, unsent]
  split
  case h_2 => trivial
  next pids known =>
  have order := rows_sublist pids seats fun uname user got => by
    obtain ⟨owner, _, _, reading⟩ := gathered.read uname user got
    exact reading.order
  have may : MaySend inOrder t₇ (seats.flatMap (row pids answers)) := by
    intro t' new args more eq sub
    rw [none, List.nil_append] at eq
    refine ⟨contest, pids, seats, registered.mono (m.trans more), known,
      listed.mono (m.trans more), ?_⟩
    rw [eq]
    exact sub.trans order
  refine (send_sends (t := t₇) (s := ⟨tid, contest.submissionSession, pids, prefinalized⟩) seats
    may).then ?_
  rintro ⟨failed, log⟩ t₈ _
  refine runs_unsent ?_
  have unsent_call : ∀ {c}, Unsent c → Only Unsent (call c) := only_perform
  refine (unsent_call (by trivial)).bind fun _ => only_raiseIf.bind fun _ => ?_
  refine (unsent_call (by trivial)).bind fun _ => (unsent_call (by trivial)).bind fun _ => ?_
  refine ((only_base clock).mono fun _ => unsent_of_quiet).bind fun _ => ?_
  refine (unsent_call (by trivial)).bind fun _ => (unsent_call (by trivial)).bind fun _ => ?_
  exact only_raiseIf.bind fun _ => only_pure

theorem collectBody_in_order (claimed : Bool) (unsent : sent t = []) :
    Runs inOrder (collectBody cfg tid claimed) t fun _ _ => True := by
  have quiet : ∀ c, Quiet c → ∀ _ : Log, Quiet c := fun _ quiet _ => quiet
  rw [collectBody]
  refine Runs.silent inOrder_free (runs_mapError (claim_runs quiet claimed)) ?_
  rintro contest t₁ ⟨_, registered, _⟩ s₁
  refine Runs.silent inOrder_free (runs_mapError (seatTable_runs quiet)) ?_
  rintro seats t₂ ⟨m₂, listed, _⟩ s₂
  refine Runs.silent inOrder_free (runs_mapError (freezeDesktops_runs quiet seats)) ?_
  rintro pooled t₃ ⟨m₃, _⟩ s₃
  refine runs_still (only_base _).mapError fun _ t₄ m₄ s₄ => ?_
  refine runs_still (finalizeRealtimeWeb_only seats []).mapError fun _ t₅ m₅ s₅ => ?_
  have m := (m₃.trans m₄).trans m₅
  exact runs_mapError (archiveAndSend_in_order (registered.mono (m₂.trans m)) (listed.mono m)
    (by rw [s₅, s₄, s₃, s₂, s₁, unsent]))

theorem collect_in_order (claimed : Bool) :
    Runs inOrder (collect cfg tid claimed) [] fun _ _ => True := by
  rw [collect]
  refine runs_still (only_base _) fun _ t₁ _ s₁ => ?_
  refine Runs.then (M := fun _ _ => True) ?_ fun outcome t₂ _ =>
    runs_unsent ((closeCollect_only outcome).mono fun _ => unsent_of_quiet)
  refine ends_attempt.mpr (ends_orElse.mpr ?_)
  refine Ends.mono tracing_monotone (collectBody_in_order claimed s₁) (fun _ _ held => held)
    fun failed t' _ => ?_
  exact runs_unsent ((collectFailed_only failed.1 failed.2).mono fun _ => unsent_of_quiet)

theorem in_table_of_grounded {before trace : Log} (grounded : Grounded inOrder before trace)
    (known : sent before = [] ∨ InTable before (sent before)) :
    sent (before ++ trace) = [] ∨ InTable (before ++ trace) (sent (before ++ trace)) := by
  induction trace generalizing before with
  | nil =>
    rw [List.append_nil]
    exact known
  | cons event trace ih =>
    have step : sent (before ++ [event]) = [] ∨
        InTable (before ++ [event]) (sent (before ++ [event])) := by
      obtain ⟨c, answer⟩ := event
      by_cases unsent : Unsent c
      · rw [sent_unsent unsent]
        exact known.imp_right fun held => held.mono (List.prefix_append ..)
      · cases c with
        | submitOne args =>
          rw [sent_submit]
          exact .inr (grounded.1.mono (List.prefix_append ..))
        | _ => exact absurd trivial unsent
    have later := ih grounded.2 step
    rwa [List.append_assoc, List.singleton_append] at later

/- At any point of any run, the codes that were sent are those of some cells of the table of the
   seats and the mapped problems that the run works on, each at most once and in its order. -/
theorem sent_follows_table {claimed : Bool} {trace : Log}
    (run : CollectTrace cfg tid claimed trace) : sent trace = [] ∨ InTable trace (sent trace) := by
  obtain ⟨out, emits⟩ := run
  exact in_table_of_grounded (emits.grounded (collect_in_order claimed)).1 (.inl rfl)

theorem sample_follows_table : InTable sampleTrace (sent sampleTrace) := by
  rcases sent_follows_table sample_run with none | known
  · obtain ⟨front, back, args, answer, split⟩ := sample_submission
    have pair : sentPair ⟨.submitOne args, answer⟩ = some (args.uid, args.pid) := rfl
    rw [split, sent, List.filterMap_append, List.filterMap_cons_some pair] at none
    exact absurd (List.append_eq_nil_iff.mp none).2 (List.cons_ne_nil _ _)
  · exact known

end NoiContest.Collection
