import NoiContest.HydroPlugin.Sections

/- What the status endpoint may conclude about an ambiguous submission. One call of
   resolveAmbiguousSubmission runs over the records and the contest journal of Hydro; its calls
   may throw, its saves may fail, and the process may die in them. -/
namespace NoiContest.HydroPlugin
open Effect

/- The side of Hydro: its records, the student's contest journal, and the calls that throw. -/
structure Hydro where
  records : List Record
  journal : Option (List JournalItem)
  throws : Phase → Bool

/-- The filter of the record query: the identity fields and both private markers. -/
def carries (settings : Settings) (submissionId : String) (entry : Entry) (record : Record) :
    Bool :=
  record.domainId == settings.domain && entry.contestDocId == some record.contest &&
  entry.problemDocId == some record.pid && entry.uid == some record.uid &&
  entry.lang == some record.lang && record.orchestratorSubmissionId == submissionId &&
  record.orchestratorPayloadSha256 == entry.fingerprint

/- The answer to the call that the phase awaits. The query has a limit of two. -/
def Hydro.answer (hydro : Hydro) (settings : Settings) (j : Journal) (phase : Phase) : Answer :=
  if hydro.throws phase then .failed
  else
    match phase with
    | .finding submissionId ref =>
      match j.heap.read ref with
      | some (_, entry) =>
        .candidates ((hydro.records.filter (carries settings submissionId entry)).take 2)
      | none => .failed
    | .correlating .. => .journal hydro.journal
    | _ => .done

/- Awaits in turn, each answered at once. -/
def awaits (settings : Settings) (hydro : Hydro) : Nat → Phase → Section Phase
  | 0, phase => return phase
  | n + 1, phase => do
    let phase ← resume settings 0 phase (hydro.answer settings (← readJournal) phase)
    awaits settings hydro n phase

/-- A query of the records, one of the contest journal, and two counters. -/
def resolutionRun (settings : Settings) (hydro : Hydro) (submissionId : String) (ref : Nat) :
    Section Phase := do
  let phase ← settleWork (resolveAmbiguousSubmission submissionId ref)
  awaits settings hydro 4 phase

/-- `payloadFingerprint` of the code of a record under the other fields of the entry -/
def codeFingerprint (entry : Entry) (record : Record) : Option String := do
  let contestDocId ← entry.contestDocId
  let uid ← entry.uid
  let publicPid ← entry.publicPid
  let lang ← entry.lang
  return payloadFingerprint contestDocId uid publicPid lang
    (String.ofList (normalizeNewlines record.code.toList))

/-- What the records and the contest journal say for the rid of an entry. -/
structure Correlated (settings : Settings) (hydro : Hydro) (submissionId : String) (entry : Entry)
    (record : Record) (item : JournalItem) : Prop where
  unique : hydro.records.filter (carries settings submissionId entry) = [record]
  code : codeFingerprint entry record = some entry.fingerprint
  judged : record.judged = true
  noted : ∃ problem items, entry.problemDocId = some problem ∧ hydro.journal = some items ∧
    items.filter (fun item => item.rid == record.id.text && item.pid == problem) = [item]
  status : some item.status = record.status
  score : some item.score = record.score

def Proved (settings : Settings) (hydro : Hydro) (submissionId : String) (entry : Entry)
    (rid : String) : Prop :=
  ∃ record item, record.id.text = rid ∧ Correlated settings hydro submissionId entry record item

/- A stored entry that the endpoint may resolve, as it stands when the call begins. -/
structure Question where
  settings : Settings
  hydro : Hydro
  submissionId : String
  ref : Nat
  entry : Entry
  start : Journal × List Save
  stored : start.1.heap.read ref = some (submissionId, entry)
  named : truthy entry.publicPid = true
  inLanguage : truthy entry.lang = true

def Question.Proved (q : Question) : String → Prop :=
  HydroPlugin.Proved q.settings q.hydro q.submissionId q.entry

/-- The entry has taken the proved rid, and Hydro was not asked to change the contest. -/
structure Question.Adopted (q : Question) (rid : String) (w : Journal × List Save) : Prop where
  proved : q.Proved rid
  same : q.entry.rid = "" ∨ q.entry.rid = rid
  holds : ∃ e, w.1.heap.read q.ref = some (q.submissionId, e) ∧ e.rid = rid ∧
    e.statusUpdated = true
  contest : w.1.statusUpdates = q.start.1.statusUpdates

/-- Where the call stands, with a number of awaits that are enough from there. -/
inductive Question.Stage (q : Question) : Nat → Phase → Journal × List Save → Prop where
  | finding {n : Nat} : Stage q (n + 4) (.finding q.submissionId q.ref) q.start
  | correlating {n : Nat} {record : Record}
      (unique : q.hydro.records.filter (carries q.settings q.submissionId q.entry) = [record])
      (full : recordMatchesSubmissionEntry q.settings record q.submissionId q.entry = true)
      (same : q.entry.rid = "" ∨ q.entry.rid = record.id.text) :
      Stage q (n + 3) (.correlating q.submissionId q.ref record) q.start
  | untouched {n : Nat} {outcome : Except Failure Reply}
      (unresolved : ∀ rid, outcome ≠ .ok (.resolution (.resolved rid))) :
      Stage q n (.settled outcome) q.start
  | replayed {n : Nat} {rid : String} (proved : q.Proved rid) :
      Stage q n (.settled (.ok (.resolution (.resolved rid)))) q.start
  | problem {n : Nat} {job : Job} {rid : String} {w : Journal × List Save} (of : job.entry = q.ref)
      (forStatus : job.forStatus = true) (adopted : q.Adopted rid w) :
      Stage q (n + 2) (.completing job .problem) w
  | user {n : Nat} {job : Job} {rid : String} {w : Journal × List Save} (of : job.entry = q.ref)
      (forStatus : job.forStatus = true) (adopted : q.Adopted rid w) :
      Stage q (n + 1) (.completing job .user) w
  | resolved {n : Nat} {rid : String} {w : Journal × List Save} (adopted : q.Adopted rid w) :
      Stage q n (.settled (.ok (.resolution (.resolved rid)))) w
  | threw {n : Nat} {failure : Failure} {rid : String} {w : Journal × List Save}
      (adopted : q.Adopted rid w) : Stage q n (.settled (.error failure)) w

namespace Question
variable {q : Question} {rid : String}

theorem keeps_adopted_save : Keeps (q.Adopted rid) (saveIdempotencyState q.settings) := by
  have same {f : Journal → Journal} (heap : ∀ j, (f j).heap = j.heap)
      (updates : ∀ j, (f j).statusUpdates = j.statusUpdates) :
      Keeps (q.Adopted rid) (modifyJournal f) := by
    refine keeps_modify fun w adopted => ?_
    exact ⟨adopted.proved, adopted.same, by simpa only [heap] using adopted.holds,
      (updates w.1).trans adopted.contest⟩
  have write : Keeps (q.Adopted rid) (modifyJournal (·.write)) := same (fun _ => rfl) fun _ => rfl
  refine (same (fun j => ?_) fun j => ?_).bind fun _ => Keeps.bind (fun _ adopted => ?_) ?_
  · unfold Journal.prune
    split <;> rfl
  · unfold Journal.prune
    split <;> rfl
  · exact ⟨adopted.proved, adopted.same, adopted.holds, adopted.contest⟩
  · intro outcome
    cases outcome with
    | saved => exact write
    | failed written => exact (write.bind fun _ => keeps_raise _).ite (keeps_raise _)
    | crashed written => exact (write.bind fun _ => keeps_throw).ite keeps_throw

/- The flags and the phase may change, the rid does not. -/
theorem keeps_adopted_modifyEntry {f : Entry → Entry} (sameRid : ∀ e, (f e).rid = e.rid)
    (updated : ∀ e, e.statusUpdated = true → (f e).statusUpdated = true) :
    Keeps (q.Adopted rid) (modifyEntry q.ref f) := by
  refine keeps_modify fun w adopted => ⟨adopted.proved, adopted.same, ?_, adopted.contest⟩
  obtain ⟨e, found, text, noted⟩ := adopted.holds
  exact ⟨f e, by simp [Journal.modifyEntry, Heap.read_modify, found], (sameRid e).trans text,
    updated e noted⟩

/-- A section that goes on from an adopted rid, whatever throws. -/
def Onward (q : Question) (n : Nat) (rid : String) (work : Section Phase) : Prop :=
  ∀ w, q.Adopted rid w → Ends work w (q.Stage n) fun _ t => q.Adopted rid t

theorem Onward.after {n : Nat} {α : Type} {x : Section α} {f : α → Section Phase}
    (first : Keeps (q.Adopted rid) x) (second : ∀ a, q.Onward n rid (f a)) :
    q.Onward n rid (x >>= f) := by
  intro w adopted
  rw [ends_bind]
  exact (first w adopted).mono (fun a t kept => second a t kept) fun _ _ kept => kept

theorem Onward.ite {n : Nat} {c : Prop} [Decidable c] {x y : Section Phase}
    (yes : q.Onward n rid x) (no : q.Onward n rid y) : q.Onward n rid (if c then x else y) := by
  by_cases holds : c
  · simpa [holds] using yes
  · simpa [holds] using no

theorem settle_adopted (rid : String) {n : Nat} {work : Section Phase} {w : Journal × List Save}
    (ends : Ends work w (q.Stage n) fun _ t => q.Adopted rid t) :
    Ends (settleWork work) w (q.Stage n) fun _ t => ∃ rid, q.Adopted rid t := by
  rw [settleWork, ends_tryCatch]
  refine ends.mono (fun _ _ reached => reached) ?_
  intro fault t kept
  cases fault with
  | crash => exact ⟨rid, kept⟩
  | raised failure => exact .threw kept

/- The entry that the job works on, read while the rid stands. -/
theorem onward_readEntry {n : Nat} {f : Entry → Section Phase}
    (next : ∀ e, e.rid = rid → e.statusUpdated = true → q.Onward n rid (f e)) :
    q.Onward n rid (readEntry q.ref >>= f) := by
  intro w adopted
  obtain ⟨e, found, text, noted⟩ := adopted.holds
  simpa [readEntry, readJournal, found] using next e text noted w adopted

section Completion
variable {job : Job} {n : Nat}

theorem finishEntry_onward (of : job.entry = q.ref) (forStatus : job.forStatus = true) :
    q.Onward n rid (finishEntry q.settings job) := by
  unfold finishEntry
  rw [of]
  refine .after (keeps_adopted_modifyEntry (fun _ => ?_) fun _ noted => ?_) fun _ =>
    .after keeps_adopted_save fun _ => onward_readEntry fun e text _ w adopted => ?_
  · rfl
  · exact noted
  · simp only [forStatus, if_true, text, ends_pure]
    exact .resolved adopted

theorem countUser_onward (of : job.entry = q.ref) (forStatus : job.forStatus = true) :
    q.Onward (n + 1) rid (countUser q.settings job) := by
  unfold countUser
  rw [of]
  refine onward_readEntry fun e _ _ => (finishEntry_onward of forStatus).ite ?_
  exact fun w adopted => .user of forStatus adopted

theorem countProblem_onward (of : job.entry = q.ref) (forStatus : job.forStatus = true) :
    q.Onward (n + 2) rid (countProblem q.settings job) := by
  unfold countProblem
  rw [of]
  refine onward_readEntry fun e _ _ => (countUser_onward of forStatus).ite ?_
  exact fun w adopted => .problem of forStatus adopted

/- The status is noted, so Hydro's updateStatus is not called. -/
theorem completeSubmissionEntry_onward (of : job.entry = q.ref) (forStatus : job.forStatus = true) :
    q.Onward (n + 2) rid (completeSubmissionEntry q.settings job false) := by
  unfold completeSubmissionEntry
  rw [of]
  refine onward_readEntry fun e _ _ => ?_
  simp only [Bool.and_false, Bool.false_eq_true, if_false, updateStatus]
  refine onward_readEntry fun e _ noted => ?_
  simp only [noted, if_true]
  exact countProblem_onward rfl forStatus

theorem flag_onward {f : Entry → Entry} {next : Section Phase} (of : job.entry = q.ref)
    (sameRid : ∀ e, (f e).rid = e.rid)
    (updated : ∀ e, e.statusUpdated = true → (f e).statusUpdated = true)
    (onward : q.Onward n rid next) :
    q.Onward n rid
      (do modifyEntry job.entry f; saveIdempotencyState q.settings; next) := by
  rw [of]
  exact .after (keeps_adopted_modifyEntry sameRid updated) fun _ =>
    .after keeps_adopted_save fun _ => onward

end Completion

/- What the full check of a record says beyond the filter of the query. -/
theorem full_check {record : Record}
    (full : recordMatchesSubmissionEntry q.settings record q.submissionId q.entry = true) :
    codeFingerprint q.entry record = some q.entry.fingerprint ∧ record.judged = true ∧
      ∃ problem, q.entry.problemDocId = some problem := by
  unfold recordMatchesSubmissionEntry at full
  split at full
  · rename_i publicPid lang contestDocId uid problemDocId pid spoken contest student problem
    simp only [Bool.and_eq_true, beq_iff_eq] at full
    refine ⟨?_, full.2, problemDocId, problem⟩
    simp [codeFingerprint, contest, student, pid, spoken, full.1.1.1.2]
  · cases full

theorem existing_unique {text : String} {problem : Int} {items : Option (List JournalItem)}
    {item : JournalItem} (existing : existingSubmissionJournal text problem items = some item) :
    ∃ listed, items = some listed ∧
      listed.filter (fun item => item.rid == text && item.pid == problem) = [item] := by
  cases items with
  | none => cases existing
  | some listed =>
    refine ⟨listed, rfl, ?_⟩
    unfold existingSubmissionJournal at existing
    dsimp only at existing
    split at existing
    · rename_i only
      obtain rfl := Option.some.inj existing
      exact only
    · cases existing

theorem start_readEntry {α : Type} {f : Entry → Section α} {post : α → Journal × List Save → Prop}
    {raised : Fault → Journal × List Save → Prop}
    (onward : Ends (f q.entry) q.start post raised) :
    Ends (readEntry q.ref >>= f) q.start post raised := by
  simpa [readEntry, readJournal, q.stored] using onward

theorem settle_calm {work : Section Phase} {w : Journal × List Save}
    {post : Phase → Journal × List Save → Prop} {raised : Fault → Journal × List Save → Prop}
    (calm : Ends work w post fun _ _ => False) : Ends (settleWork work) w post raised := by
  rw [settleWork, ends_tryCatch]
  exact calm.mono (fun _ _ held => held) fun _ _ stuck => stuck.elim

theorem take_two_single {records : List Record} {candidate : Record}
    (only : records.take 2 = [candidate]) : records = [candidate] := by
  match records, only with
  | [_], only => simpa using only
  | _ :: _ :: _, only => simp at only

theorem finding_step {n : Nat} :
    Ends (settleWork (resumeFinding q.settings q.submissionId q.ref
      ((q.hydro.records.filter (carries q.settings q.submissionId q.entry)).take 2))) q.start
      (q.Stage (n + 3)) fun _ t => ∃ rid, q.Adopted rid t := by
  refine settle_calm (start_readEntry ?_)
  split
  · exact .untouched (by simp)
  · rename_i candidate only
    have unique := take_two_single only
    simp only [ends_ite, Bool.not_eq_true', Bool.not_eq_false]
    refine ⟨fun _ => .untouched (by simp), fun full => ⟨fun _ => .untouched (by simp), ?_⟩⟩
    intro agrees
    refine .correlating unique full ?_
    simpa [Classical.or_iff_not_imp_left] using agrees
  · exact .untouched (by simp)

/- The result of Hydro's own judging is compared before the entry is touched. -/
theorem correlating_step {n : Nat} {record : Record}
    (unique : q.hydro.records.filter (carries q.settings q.submissionId q.entry) = [record])
    (full : recordMatchesSubmissionEntry q.settings record q.submissionId q.entry = true)
    (same : q.entry.rid = "" ∨ q.entry.rid = record.id.text) :
    Ends (settleWork (resumeCorrelating q.settings q.submissionId q.ref record q.hydro.journal))
      q.start (q.Stage (n + 2)) fun _ t => ∃ rid, q.Adopted rid t := by
  obtain ⟨code, judged, problem, problemOf⟩ := full_check full
  -- The work that remains when the journal has its item.
  have adopts (proved : q.Proved record.id.text) (job : Job)
      (of : job.entry = q.ref) (forStatus : job.forStatus = true) :
      Ends (do
        modifyEntry q.ref fun e =>
          { e with rid := record.id.text, phase := .recordCreated, statusUpdated := true }
        saveIdempotencyState q.settings
        completeSubmissionEntry q.settings job false) q.start (q.Stage (n + 2))
        fun _ t => q.Adopted record.id.text t := by
    simp only [modifyEntry, modifyJournal, ends_bind, ends_modify]
    have taken : q.Adopted record.id.text (q.start.1.modifyEntry q.ref fun e =>
        { e with rid := record.id.text, phase := .recordCreated, statusUpdated := true },
        q.start.2) := by
      refine ⟨proved, same, ⟨_, by simp [Journal.modifyEntry, Heap.read_modify, q.stored]; rfl,
        rfl, rfl⟩, rfl⟩
    exact (keeps_adopted_save _ taken).mono
      (fun _ t kept => completeSubmissionEntry_onward of forStatus t kept) fun _ _ kept => kept
  refine settle_adopted record.id.text (start_readEntry ?_)
  rw [problemOf, Option.getD_some]
  cases existing : existingSubmissionJournal record.id.text problem q.hydro.journal with
  | none => exact .untouched (by simp)
  | some item =>
    obtain ⟨items, listed, noted⟩ := existing_unique existing
    simp only [ends_ite]
    refine ⟨fun _ => .untouched (by simp), fun equal => ?_⟩
    obtain ⟨status, score⟩ : some item.status = record.status ∧ some item.score = record.score := by
      simpa using equal
    have proved : q.Proved record.id.text :=
      ⟨record, item, rfl, unique, code, judged, ⟨problem, items, problemOf, listed, noted⟩,
        status, score⟩
    exact ⟨fun _ => .replayed proved, fun _ => adopts proved _ rfl rfl⟩

/- One await of the call. -/
theorem stage_step {n : Nat} {phase : Phase} {w : Journal × List Save}
    (stage : q.Stage (n + 1) phase w) :
    Ends (resume q.settings 0 phase (q.hydro.answer q.settings w.1 phase)) w (q.Stage n)
      fun _ t => ∃ rid, q.Adopted rid t := by
  cases stage with
  | finding =>
    unfold Hydro.answer
    split
    · exact .untouched (by simp)
    · simp only [q.stored]
      exact finding_step
  | correlating unique full same =>
    unfold Hydro.answer
    split
    · exact .untouched (by simp)
    · exact correlating_step unique full same
  | untouched unresolved => exact .untouched unresolved
  | replayed proved => exact .replayed proved
  | resolved adopted => exact .resolved adopted
  | threw adopted => exact .threw adopted
  | problem of forStatus adopted =>
    unfold Hydro.answer
    split
    · exact .threw adopted
    · refine settle_adopted _ (flag_onward of (fun _ => ?_) (fun _ noted => ?_)
        (countUser_onward of forStatus) _ adopted)
      · rfl
      · exact noted
  | user of forStatus adopted =>
    unfold Hydro.answer
    split
    · exact .threw adopted
    · refine settle_adopted _ (flag_onward of (fun _ => ?_) (fun _ noted => ?_)
        (finishEntry_onward of forStatus) _ adopted)
      · rfl
      · exact noted

theorem awaits_stage (n : Nat) : ∀ {phase : Phase} {w : Journal × List Save}, q.Stage n phase w →
    Ends (awaits q.settings q.hydro n phase) w (q.Stage 0) fun _ t => ∃ rid, q.Adopted rid t := by
  induction n with
  | zero => exact fun stage => stage
  | succ n ih =>
    intro phase w stage
    simp only [awaits, readJournal, ends_bind, ends_get, ends_pure]
    exact (stage_step stage).mono (fun _ _ next => ih next) fun _ _ kept => kept

theorem run_stage : Ends (resolutionRun q.settings q.hydro q.submissionId q.ref) q.start
    (q.Stage 0) fun _ t => ∃ rid, q.Adopted rid t := by
  have asked : Ends (resolveAmbiguousSubmission q.submissionId q.ref) q.start (q.Stage 4)
      fun _ _ => False := by
    refine start_readEntry ?_
    simp only [q.named, q.inLanguage, Bool.not_true, Bool.or_self, Bool.false_eq_true, if_false]
    exact .finding
  rw [resolutionRun, ends_bind]
  exact (settle_calm asked).mono (fun _ _ stage => awaits_stage 4 stage) fun _ _ kept => kept

end Question

/-- What one call leaves alone, whichever way it ends. -/
structure Respects (settings : Settings) (hydro : Hydro) (submissionId : String) (ref : Nat)
    (entry : Entry) (start t : Journal × List Save) : Prop where
  unproved : (∀ rid, ¬ Proved settings hydro submissionId entry rid) → t = start
  contest : t.1.statusUpdates = start.1.statusUpdates
  rid : entry.rid ≠ "" → ∃ e, t.1.heap.read ref = some (submissionId, e) ∧ e.rid = entry.rid

namespace Question
variable {q : Question}

theorem start_respects (q : Question) :
    Respects q.settings q.hydro q.submissionId q.ref q.entry q.start q.start where
  unproved := fun _ => rfl
  contest := rfl
  rid := fun _ => ⟨q.entry, q.stored, rfl⟩

theorem Adopted.respects {rid : String} {t : Journal × List Save} (adopted : q.Adopted rid t) :
    Respects q.settings q.hydro q.submissionId q.ref q.entry q.start t where
  unproved := fun unproved => absurd adopted.proved (unproved rid)
  contest := adopted.contest
  rid := by
    intro known
    obtain ⟨e, found, text, _⟩ := adopted.holds
    exact ⟨e, found, text.trans (adopted.same.resolve_left known).symm⟩

end Question

/-- The status endpoint says resolved only for a rid that the records and the contest journal
    prove. Any other answer leaves everything as it was, and nothing happens without a proof. -/
theorem ambiguous_resolution_sound (settings : Settings) (hydro : Hydro) (submissionId : String)
    (ref : Nat) (entry : Entry) (start : Journal × List Save)
    (stored : start.1.heap.read ref = some (submissionId, entry))
    (named : truthy entry.publicPid = true) (inLanguage : truthy entry.lang = true) :
    Ends (resolutionRun settings hydro submissionId ref) start
      (fun phase t => Respects settings hydro submissionId ref entry start t ∧
        ∃ outcome, phase = .settled outcome ∧
          (∀ rid, outcome = .ok (.resolution (.resolved rid)) →
            Proved settings hydro submissionId entry rid) ∧
          (∀ reply, outcome = .ok reply → (∀ rid, reply ≠ .resolution (.resolved rid)) →
            t = start))
      (fun _ t => Respects settings hydro submissionId ref entry start t) := by
  have unchanged := Question.start_respects
    ⟨settings, hydro, submissionId, ref, entry, start, stored, named, inLanguage⟩
  have ended := Question.run_stage
    (q := ⟨settings, hydro, submissionId, ref, entry, start, stored, named, inLanguage⟩)
  refine ended.mono ?_ fun _ t crashed => crashed.choose_spec.respects
  intro phase t stage
  cases stage with
  | untouched unresolved =>
    exact ⟨unchanged, _, rfl, fun rid same => absurd same (unresolved rid), fun _ _ _ => rfl⟩
  | replayed proved =>
    refine ⟨unchanged, _, rfl, ?_, fun _ _ _ => rfl⟩
    intro rid same
    cases same
    exact proved
  | resolved adopted =>
    refine ⟨adopted.respects, _, rfl, ?_, ?_⟩
    · intro rid same
      cases same
      exact adopted.proved
    · intro reply same unresolved
      cases same
      exact absurd rfl (unresolved _)
  | threw adopted => exact ⟨adopted.respects, _, rfl, nofun, nofun⟩

/- A reserved entry, the one record that carries its markers, and its judged journal item. -/
def reservedEntry : Entry where
  fingerprint := payloadFingerprint "0123456789abcdef01234567" 7 "P1" "cc.cc14o2" "int main(){}"
  contestDocId := some "0123456789abcdef01234567"
  problemDocId := some 3
  publicPid := some "P1"
  uid := some 7
  lang := some "cc.cc14o2"

def judgedHydro : Hydro where
  records := [⟨⟨"rid-1", by decide⟩, "system", "0123456789abcdef01234567", 3, 7, "cc.cc14o2",
    "int main(){}", sampleId, reservedEntry.fingerprint, true, some 1, some 100⟩]
  journal := some [⟨"rid-1", 3, 1, 100⟩]
  throws := fun _ => false

def reservedJournal : Journal :=
  { (Plugin.installed Dict.empty).journal with
    entries := Dict.empty.set sampleId 0, heap := Heap.empty.allocate (sampleId, reservedEntry) }

def resolvedRid : EStateM.Result Fault (Journal × List Save) Phase → Option String
  | .ok (.settled (.ok (.resolution (.resolved rid)))) _ => some rid
  | _ => none

/- What holds of every phase that a resolution ends in holds of the one that resolved. -/
theorem resolved_of_ends {x : EStateM Fault (Journal × List Save) Phase} {start : Journal × List Save}
    {good : Phase → Journal × List Save → Prop} {bad : Fault → Journal × List Save → Prop}
    {rid : String} (ends : Ends x start good bad) (resolved : resolvedRid (x start) = some rid) :
    ∃ t, good (.settled (.ok (.resolution (.resolved rid)))) t := by
  unfold Ends at ends
  unfold resolvedRid at resolved
  split at resolved
  · rename_i found t ended
    rw [ended] at ends
    exact ⟨t, Option.some.inj resolved ▸ ends⟩
  · cases resolved

theorem judged_record_resolves :
    Proved sampleSettings judgedHydro sampleId reservedEntry "rid-1" := by
  have sound := ambiguous_resolution_sound sampleSettings judgedHydro sampleId 0 reservedEntry
    (reservedJournal, []) rfl (by decide) (by decide)
  have resolved : resolvedRid (resolutionRun sampleSettings judgedHydro sampleId 0
      (reservedJournal, [])) = some "rid-1" := by
    simp only [resolutionRun, awaits, judgedHydro, reservedJournal, reservedEntry]
    delta resume resumeFinding recordMatchesSubmissionEntry
    rw [payloadFingerprint_knowing]
    decide +kernel
  obtain ⟨_, _, _, same, proved, _⟩ := resolved_of_ends sound resolved
  cases same
  exact proved "rid-1" rfl

end NoiContest.HydroPlugin
