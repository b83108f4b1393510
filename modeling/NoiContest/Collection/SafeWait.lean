import NoiContest.Collection.Sending

/- Two laws of collect in any environment: what it sends follows the choices that its own evidence
   records, and it commits the safe wait only on complete evidence. -/
namespace NoiContest.Collection
open Pipeline Flow

variable {cfg : Config} {tid : String} {files : List String} {t : Log}

/- What the run has read of the contest before it sends. -/
structure Collected (t : Log) (cfg : Config) (contest : Contest) (seats : List Seat)
    (place : Place) (answers : Dict String UserAnswers) : Prop where
  registered : Did t (.base .getContest) (some contest)
  listed : Did t .seats seats
  filled : seats ≠ []
  revoked : Did t .revokeDesktopAccess ()
  frozen : ∃ containers, Did t (.freezeForCollection containers) ()
  packed : Did t (.packAnswers place.pooled) ()
  fetched : Did t .getArchive ()
  extracted : Did t (.extract place.outDir) ()
  problems : place.files = contest.files
  gathered : Gathered t cfg place seats answers

theorem Collected.mono {t' : Log} {contest : Contest} {seats : List Seat} {place : Place}
    {answers : Dict String UserAnswers}
    (collected : Collected t cfg contest seats place answers) (more : t <+: t') :
    Collected t' cfg contest seats place answers where
  registered := collected.registered.mono more
  listed := collected.listed.mono more
  filled := collected.filled
  revoked := collected.revoked.mono more
  frozen := collected.frozen.imp fun _ did => did.mono more
  packed := collected.packed.mono more
  fetched := collected.fetched.mono more
  extracted := collected.extracted.mono more
  problems := collected.problems
  gathered := collected.gathered.mono more

/-- The documents are written below the directory, with these digests. -/
def Written (t : Log) (outDir : String) (documents : List (String × JsonText.Json))
    (digests : List (String × String)) : Prop :=
  List.Forall₂ (fun document digest => document.1 = digest.1 ∧
    Did t (.writeDurableJson (outDir ++ "/" ++ document.1) document.2) digest.2) documents digests

theorem Written.mono {t' : Log} {outDir : String} {documents : List (String × JsonText.Json)}
    {digests : List (String × String)} (written : Written t outDir documents digests)
    (more : t <+: t') : Written t' outDir documents digests :=
  written.imp fun _ _ one => ⟨one.1, one.2.mono more⟩

/-- The grounds for sending. -/
def SendGrounds (cfg : Config) (tid : String) (t : Log) (args : SubmitArgs) : Prop :=
  ∃ contest seats answers place digests pids prefinalized seat user name chosen,
    Collected t cfg contest seats place answers ∧
    Written t place.outDir (reports answers) digests ∧
    contest.pids = some pids ∧ PrefinalizedRead t prefinalized ∧ seat ∈ seats ∧
    answers.get? seat.uname = some user ∧ user.chosen.get? name = some chosen ∧
    Sendable cfg ⟨tid, contest.submissionSession, pids, prefinalized⟩ seat.uid name chosen args

/-- The log of the sending: every entry has its grounds and none is a failure. -/
def SentLog (t : Log) (cfg : Config) (tid : String) (contest : Contest) (seats : List Seat)
    (answers : Dict String UserAnswers) (prefinalized : Prefinalized) (log : JsonText.Json) : Prop :=
  if cfg.submitEnabled then ∃ pids entries, contest.pids = some pids ∧
    LogSettled t cfg ⟨tid, contest.submissionSession, pids, prefinalized⟩ answers seats entries ∧
    failures entries = 0 ∧ log = submitLog entries
  else log = .obj [("_status", .str "Hydro 回传已禁用")]

/- The receipt of a run names its documents. -/
structure Seals (t : Log) (cfg : Config) (tid : String) (contest : Contest) (seats : List Seat)
    (documents : List (String × JsonText.Json)) (receipt : Receipt) (evidence : SafeWait) :
    Prop where
  ofContest : receipt.tid = tid
  run : receipt.runId = evidence.runId
  seatCount : receipt.seatCount = seats.length
  problemCount : receipt.problemCount = contest.files.length
  cutoff : receipt.cutoffAtMs = contest.endAtMs
  completed : receipt.completedAtMs = evidence.completedAtMs
  shutdown : receipt.shutdownAfterMs = evidence.shutdownAfterMs
  boundary : evidence.shutdownAfterMs = shutdownAfter cfg contest evidence.completedAtMs
  directory : evidence.collectionDir = cfg.collectedDir ++ "/" ++ tid ++ "/" ++ evidence.runId
  named : Written t evidence.collectionDir documents receipt.files
  written : Did t (.writeDurableJson (evidence.collectionDir ++ "/" ++ "collection_receipt.json")
    receipt.json) evidence.receiptSha256

/-- The grounds for the safe wait. -/
def WaitGrounds (cfg : Config) (tid : String) (t : Log) (evidence : SafeWait) : Prop :=
  ∃ contest seats answers prefinalized log manifest receipt, ∃ pooled,
    Collected t cfg contest seats ⟨evidence.collectionDir, pooled, contest.files⟩ answers ∧
    PrefinalizedRead t prefinalized ∧ SentLog t cfg tid contest seats answers prefinalized log ∧
    Did t (.archiveTreeManifest evidence.collectionDir) manifest ∧
    Seals t cfg tid contest seats (reports answers ++
      [("submit_log.json", log), ("archive_manifest.json", manifest)]) receipt evidence

def grounds (cfg : Config) (tid : String) (t : Log) : Call → Prop
  | .submitOne args => SendGrounds cfg tid t args
  | .enterSafeWait evidence => WaitGrounds cfg tid t evidence
  | _ => True

theorem grounds_free (c : Call) (quiet : Quiet c) (t : Log) : grounds cfg tid t c := by
  cases c <;> trivial

theorem only_base {α : Type} (body : Pipeline.Procedure α) : Only Quiet (base body) := by
  refine Only.lift ?_
  induction body with
  | done result => exact .done result
  | call c next ih => exact .call trivial ih

theorem writeReports_runs (outDir : String) (documents : List (String × JsonText.Json)) :
    Runs (grounds cfg tid) (writeReports outDir documents) t fun digests t' =>
      t <+: t' ∧ Written t' outDir documents digests := by
  induction documents generalizing t with
  | nil => exact ⟨List.prefix_rfl, .nil⟩
  | cons document documents ih =>
    rw [writeReports]
    refine runs_step (grounds_free _ (by trivial) _) fun digest m₁ did => ?_
    refine Runs.then ih ?_
    rintro digests t₂ ⟨m₂, written⟩
    exact ⟨m₁.trans m₂, .cons ⟨rfl, did.mono m₂⟩ written⟩

theorem send_runs {s : Sending} {answers : Dict String UserAnswers} {seats : List Seat}
    (mayed : ∀ seat ∈ seats, ∀ user name chosen args t', t <+: t' →
      answers.get? seat.uname = some user → user.chosen.get? name = some chosen →
      Sendable cfg s seat.uid name chosen args → grounds cfg tid t' (.submitOne args)) :
    Runs (grounds cfg tid) (send cfg s answers seats) t fun result t' => t <+: t' ∧
      if cfg.submitEnabled then ∃ entries, LogSettled t' cfg s answers seats entries ∧
        failures entries = result.1 ∧ result.2 = submitLog entries
      else result.2 = .obj [("_status", .str "Hydro 回传已禁用")] := by
  rw [send]
  by_cases enabled : cfg.submitEnabled = true
  · simp only [enabled, if_true]
    refine (submitAll_runs grounds_free seats mayed).then ?_
    rintro entries t' ⟨more, settled⟩
    exact ⟨more, entries, settled, rfl, rfl⟩
  · simp only [enabled, if_false, Bool.false_eq_true]
    exact ⟨List.prefix_rfl, rfl⟩

theorem SentLog.mono {t' : Log} {contest : Contest} {seats : List Seat}
    {answers : Dict String UserAnswers} {prefinalized : Prefinalized} {log : JsonText.Json}
    (sent : SentLog t cfg tid contest seats answers prefinalized log) (more : t <+: t') :
    SentLog t' cfg tid contest seats answers prefinalized log := by
  by_cases enabled : cfg.submitEnabled = true
  · rw [SentLog, if_pos enabled] at sent ⊢
    obtain ⟨pids, entries, known, settled, none, eq⟩ := sent
    exact ⟨pids, entries, known, settled.mono more, none, eq⟩
  · rw [SentLog, if_neg enabled] at sent ⊢
    exact sent

theorem fetch_runs {outDir : String} {α : Type} {f : Unit → Procedure α}
    {post : α → Log → Prop}
    (later : ∀ t', t <+: t' → Did t' .getArchive () → Did t' (.extract outDir) () →
      Runs (grounds cfg tid) (f ()) t' post) :
    Runs (grounds cfg tid) (Program.andFinally (do
        call .getArchive
        call (.extract outDir)) (call .removeRemoteArchive) >>= f) t post := by
  have cleaned : ∀ t', Runs (grounds cfg tid) (call .removeRemoteArchive) t' fun _ t'' =>
      t' <+: t'' := fun t' => runs_call (grounds_free _ (by trivial) _) fun _ => List.prefix_append ..
  refine Runs.then (M := fun _ t' => t <+: t' ∧ Did t' .getArchive () ∧
    Did t' (.extract outDir) ()) ?_ fun _ t' held => later t' held.1 held.2.1 held.2.2
  rw [Runs, ends_andFinally]
  have body : Runs (grounds cfg tid) (do
      call .getArchive
      call (.extract outDir)) t fun _ t' => t <+: t' ∧ Did t' .getArchive () ∧
        Did t' (.extract outDir) () := by
    refine runs_step (grounds_free _ (by trivial) _) fun _ m₁ got => ?_
    exact runs_call (grounds_free _ (by trivial) _) fun _ =>
      ⟨m₁.trans (List.prefix_append ..), got.mono (List.prefix_append ..), did_last⟩
  refine Ends.mono tracing_monotone body ?_ ?_
  · rintro _ t' ⟨more, got, extracted⟩
    exact (cleaned t').mono fun _ t'' last => ⟨more.trans last, got.mono last, extracted.mono last⟩
  · intro _ t' _
    exact (cleaned t').mono fun _ _ _ => trivial

theorem archiveAndSend_runs {contest : Contest} {seats : List Seat} {pooled : Bool}
    {prefinalized : Prefinalized} (registered : Did t (.base .getContest) (some contest))
    (listed : Did t .seats seats) (filled : seats ≠ []) (revoked : Did t .revokeDesktopAccess ())
    (frozen : ∃ containers, Did t (.freezeForCollection containers) ())
    (confirmed : PrefinalizedRead t prefinalized) :
    Runs (grounds cfg tid) (archiveAndSend cfg tid contest seats pooled prefinalized) t
      fun _ _ => True := by
  rw [archiveAndSend]
  refine runs_quiet (only_base _) grounds_free fun _ t₁ m₁ => ?_
  refine runs_step (grounds_free _ (by trivial) _) fun _ m₂ packed => ?_
  refine runs_step (grounds_free _ (by trivial) _) fun runId m₃ _ => ?_
  refine runs_step (grounds_free _ (by trivial) _) fun _ m₄ _ => ?_
  refine fetch_runs fun t₅ m₅ got extracted => ?_
  have m := (((m₁.trans m₂).trans m₃).trans m₄).trans m₅
  have packed := ((packed.mono m₃).mono m₄).mono m₅
  refine (gather_runs grounds_free ⟨_, pooled, contest.files⟩ seats [] Dict.empty
    gathered_nil).then ?_
  rintro answers t₆ ⟨m₆, gathered⟩
  rw [List.nil_append] at gathered
  have m := m.trans m₆
  have collected : Collected t₆ cfg contest seats
      ⟨cfg.collectedDir ++ "/" ++ tid ++ "/" ++ runId, pooled, contest.files⟩ answers :=
    ⟨registered.mono m, listed.mono m, filled, revoked.mono m,
      frozen.imp fun _ did => did.mono m, packed.mono m₆, got.mono m₆, extracted.mono m₆, rfl,
      gathered⟩
  have confirmed := confirmed.mono m
  refine (writeReports_runs _ (reports answers)).then ?_
  rintro digests t₇ ⟨m₇, written⟩
  have collected := collected.mono m₇
  have confirmed := confirmed.mono m₇
  split
  case h_2 => trivial
  next pids known =>
  refine (send_runs (t := t₇) fun seat mem user name chosen args t' more got found sendable => ?_).then ?_
  · exact ⟨contest, seats, answers, _, digests, pids, prefinalized, seat, user, name, chosen,
      collected.mono more, written.mono more, known, confirmed.mono more, mem, got, found, sendable⟩
  rintro ⟨failed, log⟩ t₈ ⟨m₈, sent⟩
  refine runs_step (grounds_free _ (by trivial) _) fun logDigest m₉ logWritten => ?_
  refine runs_raiseIf fun none => ?_
  have none := not_not.mp none
  have sent : SentLog t₈ cfg tid contest seats answers prefinalized log := by
    unfold SentLog
    split at sent
    · next enabled =>
      obtain ⟨entries, settled, count, eq⟩ := sent
      rw [if_pos enabled]
      exact ⟨pids, entries, known, settled, count.trans none, eq⟩
    · next disabled =>
      rw [if_neg disabled]
      exact sent
  refine runs_step (grounds_free _ (by trivial) _) fun manifest m₁₀ listing => ?_
  refine runs_step (grounds_free _ (by trivial) _) fun manifestDigest m₁₁ manifestWritten => ?_
  refine runs_quiet (only_base _) grounds_free fun completedAtMs t₁₂ m₁₂ => ?_
  refine runs_step (grounds_free _ (by trivial) _) fun receiptDigest m₁₃ receiptWritten => ?_
  have last := ((m₁₀.trans m₁₁).trans m₁₂).trans m₁₃
  refine runs_step ?_ fun committed _ _ => runs_raiseIf fun _ => trivial
  refine ⟨contest, seats, answers, prefinalized, log, manifest,
    ⟨tid, runId, completedAtMs, contest.endAtMs, shutdownAfter cfg contest completedAtMs,
      seats.length, contest.files.length, digests ++ [("submit_log.json", logDigest),
        ("archive_manifest.json", manifestDigest)]⟩, pooled,
    collected.mono ((m₈.trans m₉).trans last), confirmed.mono ((m₈.trans m₉).trans last),
    sent.mono (m₉.trans last), listing.mono ((m₁₁.trans m₁₂).trans m₁₃), ?_⟩
  exact
    { ofContest := rfl
      run := rfl
      seatCount := rfl
      problemCount := rfl
      cutoff := rfl
      completed := rfl
      shutdown := rfl
      boundary := rfl
      directory := rfl
      named := by
        refine List.rel_append (written.mono ((m₈.trans m₉).trans last)) ?_
        exact .cons ⟨rfl, logWritten.mono last⟩
          (.cons ⟨rfl, manifestWritten.mono (m₁₂.trans m₁₃)⟩ .nil)
      written := receiptWritten }

end NoiContest.Collection
