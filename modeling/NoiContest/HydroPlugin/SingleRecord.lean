import NoiContest.Lib.Runs
import NoiContest.HydroPlugin.Sections

/- At most one OJ record per submission id. The order file, memory, call carries the proof: an
   id is called for only after it is in the file, the file never loses an id, and a section
   that finds the id in memory does not call again. -/
namespace NoiContest.HydroPlugin
open Effect

def Journal.calledFor (j : Journal) : List String := j.adds.map (·.submissionId)

/- What a crash cannot destroy. -/
structure Journal.Durable (j : Journal) : Prop where
  filed : ∀ id ∈ j.calledFor, id ∈ j.file.keys
  once : j.calledFor.Nodup

structure Journal.Reserved (j : Journal) : Prop extends j.Durable where
  loaded : ∀ id ∈ j.file.keys, id ∈ j.entries.keys
  fits : j.entries.size ≤ j.peak

/- The journal never had to be pruned. -/
def Journal.Fits (settings : Settings) (j : Journal) : Prop := j.peak ≤ settings.maxEntries

def Sound (settings : Settings) (w : Journal × List Save) : Prop :=
  w.1.Fits settings → w.1.Reserved

theorem image_keys (j : Journal) : j.image.keys = j.entries.keys := by
  simp [Journal.image, Dict.mapValues, Dict.keys, Function.comp_def]

theorem prune_fitting {settings : Settings} {j : Journal} (reserved : j.Reserved)
    (fits : j.Fits settings) : j.prune settings.maxEntries = j := by
  have small : j.entries.size ≤ settings.maxEntries := reserved.fits.trans fits
  simp [Journal.prune, small]

@[simp] theorem prune_peak (n : Nat) (j : Journal) : (j.prune n).peak = j.peak := by
  unfold Journal.prune
  split <;> rfl

@[simp] theorem write_calledFor (j : Journal) : j.write.calledFor = j.calledFor := rfl

theorem write_reserved {j : Journal} (reserved : j.Reserved) : j.write.Reserved where
  filed := by
    intro id called
    simp only [Journal.write, image_keys]
    exact reserved.loaded id (reserved.filed id called)
  once := reserved.once
  loaded := by
    intro id mem
    simpa only [Journal.write, image_keys] using mem
  fits := reserved.fits

/- After a save that returned, the file holds everything that is in memory. -/
theorem save_ends {settings : Settings} {w : Journal × List Save} (sound : Sound settings w) :
    Ends (saveIdempotencyState settings) w
      (fun _ t => Sound settings t ∧ t.1.peak = w.1.peak ∧ t.1.calledFor = w.1.calledFor ∧
        (w.1.Fits settings → t.1.file.keys = w.1.entries.keys ∧ t.1.entries = w.1.entries))
      (fun _ t => Sound settings t) := by
  obtain ⟨j, saves⟩ := w
  have pruned : Sound settings (j.prune settings.maxEntries, saves.tail) := by
    intro fits
    have before : j.Fits settings := by simpa [Journal.Fits] using fits
    rw [prune_fitting (sound before) before]
    exact sound before
  have written : Sound settings ((j.prune settings.maxEntries).write, saves.tail) := by
    intro fits
    exact write_reserved (pruned fits)
  simp only [saveIdempotencyState, modifyJournal, nextSave, ends_bind, ends_modify,
    ends_modifyGet]
  cases saves.headD .saved with
  | saved =>
    simp only [ends_modify]
    refine ⟨written, by simp [Journal.write], ?_, ?_⟩
    · unfold Journal.prune
      split <;> rfl
    · intro fits
      rw [prune_fitting (sound fits) fits]
      exact ⟨image_keys j, rfl⟩
  | failed writes =>
    cases writes
    · simpa [raise] using pruned
    · simpa [raise] using written
  | crashed writes =>
    cases writes
    · simpa using pruned
    · simpa using written

section Sections
variable {settings : Settings}

theorem keeps_save : Keeps (Sound settings) (saveIdempotencyState settings) := by
  intro w sound
  exact (save_ends sound).mono (fun _ _ kept => kept.1) fun _ _ kept => kept

theorem keeps_modifyJournal {f : Journal → Journal} (entries : ∀ j, (f j).entries = j.entries)
    (file : ∀ j, (f j).file = j.file) (called : ∀ j, (f j).calledFor = j.calledFor)
    (peak : ∀ j, (f j).peak = j.peak) : Keeps (Sound settings) (modifyJournal f) := by
  refine keeps_modify ?_
  intro w sound fits
  have old := sound (by simpa [Journal.Fits, peak] using fits)
  exact {
    filed := by simpa only [called, file] using old.filed
    once := by simpa only [called] using old.once
    loaded := by simpa only [entries, file] using old.loaded
    fits := by simpa only [entries, peak] using old.fits }

theorem keeps_modifyEntry (ref : Nat) (f : Entry → Entry) :
    Keeps (Sound settings) (modifyEntry ref f) :=
  keeps_modifyJournal (fun _ => rfl) (fun _ => rfl) (fun _ => rfl) fun _ => rfl

theorem endAdd_calledFor (j : Journal) (call : Nat) (outcome : AddOutcome) :
    (j.endAdd call outcome).calledFor = j.calledFor := by
  refine List.ext_getElem? fun i => ?_
  simp only [Journal.calledFor, Journal.endAdd, List.getElem?_map, List.getElem?_modify]
  by_cases same : call = i <;> cases j.adds[i]? <;> simp [same]

theorem keeps_endAdd (call : Nat) (outcome : AddOutcome) :
    Keeps (Sound settings) (endAdd call outcome) :=
  keeps_modifyJournal (fun _ => rfl) (fun _ => rfl) (fun j => endAdd_calledFor j call outcome)
    fun _ => rfl

theorem keeps_callUpdateStatus (id rid : String) :
    Keeps (Sound settings) (callUpdateStatus id rid) :=
  keeps_modifyJournal (fun _ => rfl) (fun _ => rfl) (fun _ => rfl) fun _ => rfl

theorem keeps_setInFlight (id : String) (flight : InFlight) :
    Keeps (Sound settings) (setInFlight id flight) :=
  keeps_modifyJournal (fun _ => rfl) (fun _ => rfl) (fun _ => rfl) fun _ => rfl

theorem keeps_setResolving (id : String) (promise : Nat) :
    Keeps (Sound settings) (setResolving id promise) :=
  keeps_modifyJournal (fun _ => rfl) (fun _ => rfl) (fun _ => rfl) fun _ => rfl

/- The only section that calls RecordModel.add starts from an id that is not in memory. -/
theorem reserveAndAdd_ends {w : Journal × List Save} {submission : Submission}
    {problem : Problem} {contest : ContestDoc} {createdAt : String} (sound : Sound settings w)
    (absent : w.1.entries.get? submission.submissionId = none) :
    Ends (reserveAndAdd settings submission problem contest createdAt) w
      (fun _ t => Sound settings t) (fun _ t => Sound settings t) := by
  obtain ⟨j, saves⟩ := w
  let id := submission.submissionId
  let inserted := j.insertEntry id (submission.reservation problem contest createdAt)
  have before : inserted.Fits settings → j.Fits settings := fun fits =>
    (Nat.le_max_left _ _).trans fits
  have soundInserted : Sound settings (inserted, saves) := by
    intro fits
    have old := sound (before fits)
    exact {
      filed := old.filed
      once := old.once
      loaded := fun known mem => Dict.mem_keys_set.mpr (.inr (old.loaded known mem))
      fits := Nat.le_max_right _ _ }
  simp only [reserveAndAdd, insertEntry, callAdd, readJournal, modifyJournal, ends_bind, ends_get,
    ends_modify, ends_pure]
  refine (save_ends soundInserted).mono ?_ fun _ _ kept => kept
  rintro - t ⟨soundT, peakT, calledT, filedT⟩ fits
  have fitsInserted : inserted.Fits settings := (Nat.le_of_eq peakT.symm).trans fits
  obtain ⟨fileT, entriesT⟩ := filedT fitsInserted
  have old := soundT fits
  have inFile : id ∈ t.1.file.keys := by
    rw [fileT]
    exact Dict.mem_keys_set.mpr (.inl rfl)
  have fresh : id ∉ t.1.calledFor := by
    rw [calledT]
    intro called
    have start := sound (before fitsInserted)
    exact Dict.get?_none.mp absent (start.loaded id (start.filed id called))
  have called : (t.1.callAdd id j.heap.fresh).calledFor = t.1.calledFor ++ [id] := by
    simp [Journal.calledFor, Journal.callAdd]
  exact {
    filed := by
      intro known mem
      rcases List.mem_append.mp (called ▸ mem) with earlier | now
      · exact old.filed known earlier
      · exact List.mem_singleton.mp now ▸ inFile
    once := by
      change (t.1.callAdd id j.heap.fresh).calledFor.Nodup
      rw [called]
      exact old.once.append (List.nodup_singleton id) (by simpa using fresh)
    loaded := old.loaded
    fits := old.fits }

theorem sound_closed : Closed settings (Sound settings) where
  save := keeps_save
  modifyEntry := keeps_modifyEntry
  endAdd := keeps_endAdd
  callUpdateStatus := keeps_callUpdateStatus
  setInFlight := keeps_setInFlight
  setResolving := keeps_setResolving
  reserve _ _ _ _ _ sound absent := reserveAndAdd_ends sound absent

end Sections

/- Between sections: the memory covers the file while the process is up, and the file covers
   the calls always. -/
structure Plugin.Sound (settings : Settings) (p : Plugin) : Prop where
  durable : p.journal.Fits settings → p.journal.Durable
  reserved : p.up = true → p.journal.Fits settings → p.journal.Reserved

theorem crashed_sound {settings : Settings} {j : Journal}
    (durable : j.Fits settings → j.Durable) : Plugin.Sound settings ⟨j.drop, false, []⟩ where
  durable fits := ⟨(durable fits).filed, (durable fits).once⟩
  reserved up := by simp at up

theorem perform_sound {settings : Settings} {p : Plugin} {work : Section Phase}
    {saves : List Save} {record : Phase → List Request}
    (kept : Keeps (HydroPlugin.Sound settings) work) (up : p.up = true)
    (sound : p.Sound settings) : (p.perform work saves record).Sound settings := by
  have ends := kept (p.journal, saves) (sound.reserved up)
  unfold Ends at ends
  unfold Plugin.perform
  split at ends <;> rename_i outcome
  · simp only [outcome]
    exact ⟨fun fits => (ends fits).toDurable, fun _ fits => ends fits⟩
  · rename_i fault _
    cases fault with
    | crash =>
      simp only [outcome]
      exact crashed_sound fun fits => (ends fits).toDurable
    | raised failure =>
      simp only [outcome]
      exact ⟨fun fits => (ends fits).toDurable, fun _ fits => ends fits⟩

theorem forget_sound {settings : Settings} {p : Plugin} {kind : RequestKind} {id : String}
    {requests : List Request} (sound : p.Sound settings) :
    Plugin.Sound settings { p with journal := p.journal.forget kind id, requests } := by
  cases kind with
  | submit =>
    exact ⟨fun fits => ⟨(sound.durable fits).filed, (sound.durable fits).once⟩,
      fun up fits => ⟨⟨(sound.durable fits).filed, (sound.durable fits).once⟩,
        (sound.reserved up fits).loaded, (sound.reserved up fits).fits⟩⟩
  | status =>
    exact ⟨fun fits => ⟨(sound.durable fits).filed, (sound.durable fits).once⟩,
      fun up fits => ⟨⟨(sound.durable fits).filed, (sound.durable fits).once⟩,
        (sound.reserved up fits).loaded, (sound.reserved up fits).fits⟩⟩

theorem conclude_sound {settings : Settings} {p : Plugin} (request : Nat)
    (sound : p.Sound settings) : (p.conclude request).Sound settings := by
  unfold Plugin.conclude
  split
  · exact sound
  · split
    · exact forget_sound sound
    · split
      · exact ⟨sound.durable, sound.reserved⟩
      · exact sound
    · exact sound

theorem load_reserved {j : Journal} (durable : j.Durable) : j.load.Reserved where
  filed := durable.filed
  once := durable.once
  loaded := by
    intro id mem
    exact ((foldl_loadEntry j.file.items (Dict.empty, j.heap)).1 id).mpr (.inl mem)
  fits := by
    have size := (foldl_loadEntry j.file.items (Dict.empty, j.heap)).2
    simp only [Dict.size, Dict.empty, List.length_nil, Nat.zero_add] at size
    exact size.trans (Nat.le_max_right _ _)

theorem restart_sound {settings : Settings} {p : Plugin} (save : Save)
    (sound : p.Sound settings) : (p.restart settings save).Sound settings := by
  have loaded : HydroPlugin.Sound settings (p.journal.load, [save]) := fun fits =>
    load_reserved (sound.durable ((Nat.le_max_left _ _).trans fits))
  have ends := keeps_save (p.journal.load, [save]) loaded
  unfold Ends at ends
  unfold Plugin.restart
  split at ends <;> rename_i outcome
  · simp only [outcome]
    exact ⟨fun fits => (ends fits).toDurable, fun _ fits => ends fits⟩
  · simp only [outcome]
    exact crashed_sound fun fits => (ends fits).toDurable

/- Requests exist only while the process is up. -/
structure Plugin.Alive (settings : Settings) (p : Plugin) : Prop extends p.Sound settings where
  down : p.up = false → p.requests = []

theorem perform_down {p : Plugin} {work : Section Phase} {saves : List Save}
    {record : Phase → List Request} (up : p.up = true) :
    (p.perform work saves record).up = false → (p.perform work saves record).requests = [] := by
  unfold Plugin.perform
  split <;> simp [up]

theorem step_alive {settings : Settings} (p : Plugin) (event : PostEvent)
    (alive : p.Alive settings) : (p.step settings event).Alive settings := by
  cases event with
  | arrive body contestLocked saves =>
    simp only [Plugin.step]
    split
    · rename_i up
      exact ⟨perform_sound (keeps_submit sound_closed _ body contestLocked) up alive.toSound, perform_down up⟩
    · exact alive
  | resume request answer saves =>
    simp only [Plugin.step]
    split
    · exact alive
    · rename_i r found
      have up : p.up = true := by
        by_contra down
        simp [alive.down (by simpa using down)] at found
      exact ⟨perform_sound (keeps_resume sound_closed _ _ _) up alive.toSound, perform_down up⟩
  | conclude request =>
    refine ⟨conclude_sound request alive.toSound, ?_⟩
    intro down
    have before : p.up = false := by
      revert down
      simp only [Plugin.step, Plugin.conclude]
      repeat' split
      all_goals exact id
    simp [Plugin.step, Plugin.conclude, alive.down before]
  | crash => exact ⟨crashed_sound alive.durable, fun _ => rfl⟩
  | restart save =>
    simp only [Plugin.step]
    split
    · exact alive
    · refine ⟨restart_sound save alive.toSound, fun _ => ?_⟩
      unfold Plugin.restart
      split <;> rfl

theorem stepAny_alive {settings : Settings} (p : Plugin) (event : Event)
    (alive : p.Alive settings) : (p.stepAny settings event).Alive settings := by
  cases event with
  | post event => exact step_alive p event alive
  | status headerToken submissionId saves =>
    simp only [Plugin.stepAny]
    split
    · rename_i up
      exact ⟨perform_sound (keeps_submissionStatus sound_closed _ _ _) up alive.toSound, perform_down up⟩
    · exact alive

theorem installed_alive (settings : Settings) (file : Dict String Entry) :
    (Plugin.installed file).Alive settings where
  durable _ := ⟨by simp [Plugin.installed, Journal.calledFor],
    by simp [Plugin.installed, Journal.calledFor]⟩
  reserved up := by simp [Plugin.installed] at up
  down _ := rfl

/-- In every run that never needs pruning, Hydro is asked at most once for a record of a
    submission id, from whatever journal file the plugin was started with. -/
theorem record_added_at_most_once (settings : Settings) (file : Dict String Entry)
    (events : List Event)
    (fits : (Runs.run (Plugin.stepAny settings) (Plugin.installed file) events).journal.peak ≤
      settings.maxEntries) (submissionId : String) :
    ((Runs.run (Plugin.stepAny settings) (Plugin.installed file) events).journal.adds.filter
      fun call => call.submissionId == submissionId).length ≤ 1 := by
  have alive := Runs.run_invariant (Plugin.Alive settings) stepAny_alive
    (installed_alive settings file) events
  have once := (alive.durable fits).once
  rw [← List.countP_eq_length_filter]
  have counted := List.nodup_iff_count_le_one.mp once submissionId
  simpa [Journal.calledFor, List.count, List.countP_map, Function.comp_def] using counted

/- The process dies while the record call is under way, and the orchestrator retries. -/
def lostResponseRun : List Event :=
  ([startPlugin, .arrive sampleBody false []] ++ lookUp 0 ++
    [.crash, startPlugin, .arrive sampleBody false []]).map .post

theorem lostResponseRun_adds_once :
    ((Runs.run (Plugin.stepAny sampleSettings) (Plugin.installed Dict.empty)
      lostResponseRun).journal.adds.filter fun call => call.submissionId == sampleId).length ≤ 1 := by
  have fits : (Runs.run (Plugin.stepAny sampleSettings) (Plugin.installed Dict.empty)
      lostResponseRun).journal.peak ≤ sampleSettings.maxEntries := by
    delta Plugin.stepAny Plugin.step resume resumeFinding submit SubmitBody.validate
      recordMatchesSubmissionEntry
    rw [payloadFingerprint_knowing]
    decide +kernel
  exact record_added_at_most_once sampleSettings Dict.empty lostResponseRun fits sampleId

end NoiContest.HydroPlugin
