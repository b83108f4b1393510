import NoiContest.HydroPlugin.Process

/- What holds of the journal, the file and all suspended requests at every await of the submit
   endpoint, and that the primitives keep it. Phases are those of the requests that are not
   running now, so the running one states its own facts separately. -/
namespace NoiContest.HydroPlugin
open Effect

def Returned (adds : List AddCall) (id rid : String) : Prop :=
  ∃ call ∈ adds, call.submissionId = id ∧ ∃ r : Rid, call.outcome = .returned r ∧ r.text = rid

def Threw (adds : List AddCall) (id : String) : Prop :=
  ∃ call ∈ adds, call.submissionId = id ∧ call.outcome = .threw

/-- A record id came from Hydro, and no side effect is recorded without one. -/
structure Entry.Honest (adds : List AddCall) (id : String) (e : Entry) : Prop where
  returned : e.rid ≠ "" → Returned adds id e.rid
  flags : e.complete = true ∨ e.statusUpdated = true → e.rid ≠ ""

def Journal.Filled (j : Journal) (id : String) (ref : Nat) : Prop :=
  ∃ e, j.heap.read ref = some (id, e) ∧ e.rid ≠ ""

def Journal.HasRid (j : Journal) (job : Job) : Prop :=
  ∃ e, j.heap.read job.entry = some (job.submissionId, e) ∧ e.rid ≠ "" ∧ e.rid = job.rid

/- The journal's entry for the id has no record id yet. -/
def Journal.Unfilled (j : Journal) (id : String) (ref : Nat) : Prop :=
  j.entries.get? id = some ref ∧ ∃ e, j.heap.read ref = some (id, e) ∧ e.rid = ""

def Journal.FiledUnfilled (j : Journal) (id : String) : Prop :=
  ∃ e, j.file.get? id = some e ∧ e.rid = ""

structure Journal.Pending (j : Journal) (id : String) (ref call : Nat) : Prop where
  unfilled : j.Unfilled id ref
  filed : j.FiledUnfilled id
  running : j.adds[call]? = some ⟨id, ref, .running⟩
  calm : ¬ Threw j.adds id

def Phase.Holds (j : Journal) : Phase → Prop
  | .adding submission ref call _ _ => j.Pending submission.submissionId ref call
  | .completing job _ => j.HasRid job
  | .recovering submission ref _ => j.Filled submission.submissionId ref
  -- Only status queries resolve entries, and no such query is running.
  | .finding .. => False
  | .correlating .. => False
  | _ => True

theorem Phase.Holds.same {j j' : Journal} {phase : Phase} (holds : phase.Holds j)
    (entries : j'.entries = j.entries) (heap : j'.heap = j.heap) (file : j'.file = j.file)
    (adds : j'.adds = j.adds) : phase.Holds j' := by
  cases phase with
  | adding submission ref call contest problem =>
    have pending : j.Pending submission.submissionId ref call := holds
    exact ⟨by simpa only [Journal.Unfilled, entries, heap] using pending.unfilled,
      by simpa only [Journal.FiledUnfilled, file] using pending.filed,
      by simpa only [adds] using pending.running, by simpa only [adds] using pending.calm⟩
  | completing job stage => simpa only [Phase.Holds, Journal.HasRid, heap] using holds
  | recovering submission ref stage => simpa only [Phase.Holds, Journal.Filled, heap] using holds
  | _ => exact holds

def Phase.addingId : Phase → Option String
  | .adding submission _ _ _ _ => some submission.submissionId
  | _ => none

/- The part of the invariant that a crash leaves standing. -/
structure Journal.FileHonest (j : Journal) : Prop where
  objects : ∀ ref id e, j.heap.read ref = some (id, e) → e.Honest j.adds id
  filed : ∀ id e, j.file.get? id = some e → e.Honest j.adds id
  updates : ∀ u ∈ j.statusUpdates, Returned j.adds u.submissionId u.rid
  failedFiled : ∀ id, Threw j.adds id → j.FiledUnfilled id

structure Inv (j : Journal) (phases : List Phase) : Prop extends j.FileHonest where
  owned : ∀ id ref, j.entries.get? id = some ref → ∃ e, j.heap.read ref = some (id, e)
  failed : ∀ id, Threw j.adds id → ∃ ref, j.Unfilled id ref
  threads : ∀ phase ∈ phases, phase.Holds j
  distinct : (phases.filterMap Phase.addingId).Nodup

variable {j : Journal} {phases : List Phase}

theorem Inv.perm {others : List Phase} (inv : Inv j phases) (perm : phases.Perm others) :
    Inv j others :=
  { inv with
    threads := fun phase mem => inv.threads phase (perm.mem_iff.mpr mem)
    distinct := (perm.filterMap _).nodup_iff.mp inv.distinct }

theorem Inv.tail {phase : Phase} (inv : Inv j (phase :: phases)) : Inv j phases :=
  { inv with
    threads := fun other mem => inv.threads other (List.mem_cons_of_mem _ mem)
    distinct := by
      have sub : (phases.filterMap Phase.addingId).Sublist
          ((phase :: phases).filterMap Phase.addingId) :=
        (List.sublist_cons_self phase phases).filterMap _
      exact sub.nodup inv.distinct }

theorem Inv.cons {phase : Phase} (inv : Inv j phases) (holds : phase.Holds j)
    (quiet : phase.addingId = none) : Inv j (phase :: phases) :=
  { inv with
    threads := List.forall_mem_cons.mpr ⟨holds, inv.threads⟩
    distinct := by simpa [List.filterMap_cons, quiet] using inv.distinct }

/- No suspended request waits for a record of an id that another one adds. -/
theorem Inv.only_adder {submission : Submission} {ref call : Nat} {contest : String}
    {problem : Int} (inv : Inv j (.adding submission ref call contest problem :: phases)) :
    ∀ phase ∈ phases, phase.addingId ≠ some submission.submissionId := by
  intro phase mem same
  have nodup := inv.distinct
  simp only [List.filterMap_cons, Phase.addingId, List.nodup_cons] at nodup
  exact nodup.1 (List.mem_filterMap.mpr ⟨phase, mem, same⟩)

theorem Journal.Unfilled.incomplete {id : String} {ref : Nat} (inv : Inv j phases)
    (unfilled : j.Unfilled id ref) :
    ∃ e, j.heap.read ref = some (id, e) ∧ e.rid = "" ∧ e.complete = false := by
  obtain ⟨-, e, found, empty⟩ := unfilled
  refine ⟨e, found, empty, ?_⟩
  cases complete : e.complete with
  | false => rfl
  | true => exact absurd empty ((inv.objects ref id e found).flags (.inl complete))

/- Edits of an entry that keep its record id. -/
theorem modifyEntry_inv {ref : Nat} {f : Entry → Entry} (inv : Inv j phases)
    (keeps : ∀ id e, j.heap.read ref = some (id, e) →
      (f e).rid = e.rid ∧ ((f e).complete = true ∨ (f e).statusUpdated = true → e.rid ≠ "")) :
    Inv (j.modifyEntry ref f) phases := by
  have forward : ∀ other id e, j.heap.read other = some (id, e) →
      ∃ e', (j.modifyEntry ref f).heap.read other = some (id, e') ∧ e'.rid = e.rid := by
    intro other id e found
    simp only [Journal.modifyEntry, Heap.read_modify]
    by_cases same : other = ref
    · subst same
      exact ⟨f e, by simp [found], (keeps id e found).1⟩
    · exact ⟨e, by simp [same, found], rfl⟩
  have unfilled : ∀ id other, j.Unfilled id other → (j.modifyEntry ref f).Unfilled id other := by
    rintro id other ⟨entry, e, found, empty⟩
    obtain ⟨e', found', same⟩ := forward other id e found
    exact ⟨entry, e', found', same.trans empty⟩
  exact {
    objects := by
      intro other id e found
      simp only [Journal.modifyEntry, Heap.read_modify] at found
      by_cases same : other = ref
      · subst same
        simp only [if_true, Option.map_eq_some_iff] at found
        obtain ⟨⟨id', old⟩, before, eq⟩ := found
        obtain ⟨rfl, rfl⟩ := Prod.mk.inj eq
        obtain ⟨rid, flags⟩ := keeps id' old before
        have honest := inv.objects other id' old before
        exact ⟨fun ne => by rw [rid] at ne ⊢; exact honest.returned ne,
          fun set => by rw [rid]; exact flags set⟩
      · simp only [same, if_false] at found
        exact inv.objects other id e found
    filed := inv.filed
    updates := inv.updates
    failedFiled := inv.failedFiled
    owned := by
      intro id other entry
      obtain ⟨e, found⟩ := inv.owned id other entry
      obtain ⟨e', found', -⟩ := forward other id e found
      exact ⟨e', found'⟩
    failed := fun id threw => (inv.failed id threw).imp (unfilled id)
    threads := by
      intro phase mem
      have holds := inv.threads phase mem
      cases phase with
      | adding submission other call contest problem =>
        exact ⟨unfilled _ _ holds.unfilled, holds.filed, holds.running, holds.calm⟩
      | completing job stage =>
        obtain ⟨e, found, ne, eq⟩ := holds
        obtain ⟨e', found', same⟩ := forward _ _ e found
        exact ⟨e', found', by rwa [same], by rwa [same]⟩
      | recovering submission other stage =>
        obtain ⟨e, found, ne⟩ := holds
        obtain ⟨e', found', same⟩ := forward _ _ e found
        exact ⟨e', found', by rwa [same]⟩
      | _ => exact holds
    distinct := inv.distinct }

@[simp] theorem prune_heap (n : Nat) (j : Journal) : (j.prune n).heap = j.heap := by
  unfold Journal.prune
  split <;> rfl

@[simp] theorem prune_adds (n : Nat) (j : Journal) : (j.prune n).adds = j.adds := by
  unfold Journal.prune
  split <;> rfl

@[simp] theorem prune_file (n : Nat) (j : Journal) : (j.prune n).file = j.file := by
  unfold Journal.prune
  split <;> rfl

@[simp] theorem prune_statusUpdates (n : Nat) (j : Journal) :
    (j.prune n).statusUpdates = j.statusUpdates := by
  unfold Journal.prune
  split <;> rfl

@[simp] theorem prune_inFlight (n : Nat) (j : Journal) : (j.prune n).inFlight = j.inFlight := by
  unfold Journal.prune
  split <;> rfl

theorem prune_entries_sub {n : Nat} {id : String} {ref : Nat}
    (kept : (j.prune n).entries.get? id = some ref) : j.entries.get? id = some ref := by
  unfold Journal.prune at kept
  split at kept
  · exact kept
  · rw [Dict.get?_some] at kept ⊢
    exact (List.mem_filter.mp kept).1

/- Pruning takes complete entries only. -/
theorem prune_keeps_incomplete {n : Nat} {id : String} {ref : Nat} {e : Entry}
    (entry : j.entries.get? id = some ref) (found : j.heap.read ref = some (id, e))
    (incomplete : e.complete = false) : (j.prune n).entries.get? id = some ref := by
  unfold Journal.prune
  split
  · exact entry
  · rw [Dict.get?_some] at entry ⊢
    refine List.mem_filter.mpr ⟨entry, ?_⟩
    simp only [Bool.not_eq_true', List.contains_eq_mem, decide_eq_false_iff_not, List.mem_map]
    rintro ⟨⟨id', created⟩, taken, rfl⟩
    have listed := (List.mem_insertionSort _).mp (List.mem_of_mem_take taken)
    obtain ⟨⟨id'', ref'⟩, mem, hit⟩ := List.mem_filterMap.mp listed
    obtain ⟨object, found', hit⟩ := Option.bind_eq_some_iff.mp hit
    split at hit
    · rename_i complete
      obtain ⟨rfl, -⟩ := Prod.mk.inj (Option.some.inj hit)
      have same : ref' = ref := by
        have first := Dict.get?_some.mpr mem
        have second := Dict.get?_some.mpr entry
        exact Option.some.inj (first.symm.trans second)
      subst same
      rw [found] at found'
      obtain rfl := Option.some.inj found'
      simp [incomplete] at complete
    · cases hit

theorem prune_unfilled {n : Nat} {id : String} {ref : Nat} (inv : Inv j phases)
    (unfilled : j.Unfilled id ref) : (j.prune n).Unfilled id ref := by
  obtain ⟨e, found, empty, incomplete⟩ := unfilled.incomplete inv
  exact ⟨prune_keeps_incomplete unfilled.1 found incomplete, e, by simpa using found, empty⟩

theorem prune_inv (n : Nat) (inv : Inv j phases) : Inv (j.prune n) phases where
  objects := by simpa using inv.objects
  filed := by simpa using inv.filed
  updates := by simpa using inv.updates
  failedFiled := by simpa [Journal.FiledUnfilled] using inv.failedFiled
  owned := by
    intro id ref kept
    simpa using inv.owned id ref (prune_entries_sub kept)
  failed := by
    intro id threw
    exact (inv.failed id (by simpa using threw)).imp fun ref => prune_unfilled inv
  threads := by
    intro phase mem
    have holds := inv.threads phase mem
    cases phase with
    | adding submission ref call contest problem =>
      exact ⟨prune_unfilled inv holds.unfilled, by simpa [Journal.FiledUnfilled] using holds.filed,
        by simpa using holds.running, by simpa using holds.calm⟩
    | completing job stage => simpa [Phase.Holds, Journal.HasRid] using holds
    | recovering submission ref stage => simpa [Phase.Holds, Journal.Filled] using holds
    | _ => exact holds
  distinct := inv.distinct

theorem image_get {id : String} {ref : Nat} {e : Entry} (entry : j.entries.get? id = some ref)
    (found : j.heap.read ref = some (id, e)) : j.image.get? id = some e := by
  rw [Dict.get?_some] at entry ⊢
  exact List.mem_map.mpr ⟨(id, ref), entry, by simp [found]⟩

theorem image_get_inv {id : String} {e : Entry} (inv : Inv j phases)
    (found : j.image.get? id = some e) :
    ∃ ref, j.entries.get? id = some ref ∧ j.heap.read ref = some (id, e) := by
  obtain ⟨⟨id', ref⟩, mem, eq⟩ := List.mem_map.mp (Dict.get?_some.mp found)
  obtain ⟨rfl, value⟩ := Prod.mk.inj eq
  have entry := Dict.get?_some.mpr mem
  obtain ⟨old, read⟩ := inv.owned id' ref entry
  simp only [read] at value
  exact ⟨ref, entry, value ▸ read⟩

theorem write_filedUnfilled {id : String} {ref : Nat} (unfilled : j.Unfilled id ref) :
    j.write.FiledUnfilled id := by
  obtain ⟨entry, e, found, empty⟩ := unfilled
  exact ⟨e, image_get entry found, empty⟩

theorem write_inv (inv : Inv j phases) : Inv j.write phases where
  objects := inv.objects
  filed := by
    intro id e found
    obtain ⟨ref, -, read⟩ := image_get_inv inv found
    exact inv.objects ref id e read
  updates := inv.updates
  failedFiled := by
    intro id threw
    obtain ⟨ref, unfilled⟩ := inv.failed id threw
    exact write_filedUnfilled unfilled
  owned := inv.owned
  failed := inv.failed
  threads := by
    intro phase mem
    have holds := inv.threads phase mem
    cases phase with
    | adding submission ref call contest problem =>
      exact ⟨holds.unfilled, write_filedUnfilled holds.unfilled, holds.running, holds.calm⟩
    | completing job stage => exact holds
    | recovering submission ref stage => exact holds
    | _ => exact holds
  distinct := inv.distinct

/- A save touches the map and the file only, and after success the file has what the map has. -/
theorem save_inv {settings : Settings} {w : Journal × List Save} (inv : Inv w.1 phases) :
    Ends (saveIdempotencyState settings) w
      (fun _ t => Inv t.1 phases ∧ t.1 = (w.1.prune settings.maxEntries).write)
      (fun _ t => Inv t.1 phases ∧ t.1.heap = w.1.heap) := by
  have pruned := prune_inv settings.maxEntries inv
  have written := write_inv pruned
  simp only [saveIdempotencyState, modifyJournal, nextSave, ends_bind, ends_modify,
    ends_modifyGet]
  cases w.2.headD .saved with
  | saved => exact ⟨written, rfl⟩
  | failed writes =>
    cases writes
    · simpa [raise] using pruned
    · simpa [raise, Journal.write] using written
  | crashed writes =>
    cases writes
    · simpa using pruned
    · simpa [Journal.write] using written

theorem callUpdateStatus_inv {id rid : String} (inv : Inv j phases)
    (returned : Returned j.adds id rid) : Inv (j.callUpdateStatus id rid) phases :=
  { inv with
    updates := by
      intro u mem
      rcases List.mem_append.mp mem with old | new
      · exact inv.updates u old
      · rw [List.mem_singleton.mp new]
        exact returned
    threads := fun phase mem => (inv.threads phase mem).same rfl rfl rfl rfl }

theorem setInFlight_inv {inFlight : Dict String InFlight} (inv : Inv j phases) :
    Inv { j with inFlight } phases :=
  { inv with threads := fun phase mem => (inv.threads phase mem).same rfl rfl rfl rfl }

/- A reservation: a new object under an id that the journal does not know. -/
theorem insertEntry_inv {id : String} {entry : Entry} (inv : Inv j phases)
    (absent : j.entries.get? id = none) (empty : entry.rid = "")
    (flags : entry.complete = false ∧ entry.statusUpdated = false) :
    Inv (j.insertEntry id entry) phases ∧ (j.insertEntry id entry).Unfilled id j.heap.fresh := by
  have old : ∀ ref object, j.heap.read ref = some object →
      (j.insertEntry id entry).heap.read ref = some object := by
    intro ref object found
    have := Heap.read_bound found
    have distinct : ref ≠ j.heap.fresh := by omega
    simp [Journal.insertEntry, Heap.read_allocate, distinct, found]
  have known : ∀ other ref, j.entries.get? other = some ref →
      (j.insertEntry id entry).entries.get? other = some ref := by
    intro other ref known
    have distinct : other ≠ id := by
      rintro rfl
      simp [absent] at known
    simp [Journal.insertEntry, Dict.get?_set, distinct, known]
  have unfilled : ∀ other ref, j.Unfilled other ref →
      (j.insertEntry id entry).Unfilled other ref := by
    rintro other ref ⟨entryOther, e, found, emptyOther⟩
    exact ⟨known other ref entryOther, e, old _ _ found, emptyOther⟩
  have new : (j.insertEntry id entry).heap.read j.heap.fresh = some (id, entry) := by
    simp [Journal.insertEntry, Heap.read_allocate]
  constructor
  · exact {
      objects := by
        intro ref other e found
        by_cases same : ref = j.heap.fresh
        · subst same
          rw [new] at found
          obtain ⟨rfl, rfl⟩ := Prod.mk.inj (Option.some.inj found)
          exact ⟨fun ne => absurd empty ne, fun set => by simp [flags] at set⟩
        · simp only [Journal.insertEntry, Heap.read_allocate, same, if_false] at found
          exact inv.objects ref other e found
      filed := inv.filed
      updates := inv.updates
      failedFiled := inv.failedFiled
      owned := by
        intro other ref entryOther
        by_cases same : other = id
        · subst same
          have : ref = j.heap.fresh := by simpa [Journal.insertEntry] using entryOther.symm
          exact ⟨entry, this ▸ new⟩
        · have before : j.entries.get? other = some ref := by
            simpa [Journal.insertEntry, Dict.get?_set, same] using entryOther
          exact (inv.owned other ref before).imp fun e => old ref (other, e)
      failed := fun other threw => (inv.failed other threw).imp (unfilled other)
      threads := by
        intro phase mem
        have holds := inv.threads phase mem
        cases phase with
        | adding submission ref call contest problem =>
          exact ⟨unfilled _ _ holds.unfilled, holds.filed, holds.running, holds.calm⟩
        | completing job stage => exact holds.imp fun e => And.imp_left (old _ _)
        | recovering submission ref stage => exact holds.imp fun e => And.imp_left (old _ _)
        | _ => exact holds
      distinct := inv.distinct }
  · exact ⟨by simp [Journal.insertEntry], entry, new, empty⟩

theorem not_adding_absent {id : String} (inv : Inv j phases)
    (absent : j.entries.get? id = none) : ∀ phase ∈ phases, phase.addingId ≠ some id := by
  intro phase mem same
  cases phase with
  | adding submission ref call contest problem =>
    obtain rfl := Option.some.inj same
    have pending : j.Pending submission.submissionId ref call := inv.threads _ mem
    exact absurd pending.unfilled.1 (by simp [absent])
  | _ => cases same

theorem not_threw_absent {id : String} (inv : Inv j phases)
    (absent : j.entries.get? id = none) : ¬ Threw j.adds id := by
  intro threw
  obtain ⟨ref, entry, -⟩ := inv.failed id threw
  simp [absent] at entry

theorem Returned.append {adds more : List AddCall} {id rid : String}
    (returned : Returned adds id rid) : Returned (adds ++ more) id rid := by
  obtain ⟨call, mem, same⟩ := returned
  exact ⟨call, List.mem_append_left _ mem, same⟩

theorem threw_append_running {adds : List AddCall} {id other : String} {ref : Nat}
    (threw : Threw (adds ++ [⟨id, ref, .running⟩]) other) : Threw adds other := by
  obtain ⟨call, mem, same, outcome⟩ := threw
  rcases List.mem_append.mp mem with old | new
  · exact ⟨call, old, same, outcome⟩
  · rw [List.mem_singleton.mp new] at outcome
    cases outcome

theorem callAdd_inv {submission : Submission} {ref : Nat} {contest : String} {problem : Int}
    (inv : Inv j phases) (unfilled : j.Unfilled submission.submissionId ref)
    (filed : j.FiledUnfilled submission.submissionId)
    (calm : ¬ Threw j.adds submission.submissionId)
    (alone : ∀ phase ∈ phases, phase.addingId ≠ some submission.submissionId) :
    Inv (j.callAdd submission.submissionId ref)
      (.adding submission ref j.adds.length contest problem :: phases) where
  objects id ref e found := ⟨fun ne => ((inv.objects id ref e found).returned ne).append,
    (inv.objects id ref e found).flags⟩
  filed id e found := ⟨fun ne => ((inv.filed id e found).returned ne).append,
    (inv.filed id e found).flags⟩
  updates u mem := (inv.updates u mem).append
  failedFiled id threw := inv.failedFiled id (threw_append_running threw)
  owned := inv.owned
  failed id threw := inv.failed id (threw_append_running threw)
  threads := by
    refine List.forall_mem_cons.mpr ⟨?_, ?_⟩
    · exact ⟨unfilled, filed, by simp [Journal.callAdd], fun threw =>
        calm (threw_append_running threw)⟩
    · intro phase mem
      have holds := inv.threads phase mem
      cases phase with
      | adding other ref' call contest' problem' =>
        have pending : j.Pending other.submissionId ref' call := holds
        obtain ⟨bound, -⟩ := List.getElem?_eq_some_iff.mp pending.running
        exact ⟨pending.unfilled, pending.filed,
          by simpa [Journal.callAdd, List.getElem?_append_left bound] using pending.running,
          fun threw => pending.calm (threw_append_running threw)⟩
      | completing job stage => exact holds
      | recovering other ref' stage => exact holds
      | _ => exact holds
  distinct := by
    simp only [List.filterMap_cons, Phase.addingId, List.nodup_cons]
    refine ⟨?_, inv.distinct⟩
    intro mem
    obtain ⟨phase, inPhases, same⟩ := List.mem_filterMap.mp mem
    exact alone phase inPhases same

section EndAdd
variable {id : String} {ref call : Nat} {outcome : AddOutcome}

theorem endAdd_mem_inv (running : j.adds[call]? = some ⟨id, ref, .running⟩) {c : AddCall}
    (mem : c ∈ (j.endAdd call outcome).adds) : c ∈ j.adds ∨ c = ⟨id, ref, outcome⟩ := by
  obtain ⟨i, found⟩ := List.mem_iff_getElem?.mp mem
  simp only [Journal.endAdd, List.getElem?_modify] at found
  by_cases same : call = i
  · subst same
    simp only [running, if_true, Option.map_eq_map, Option.map_some, Option.some.injEq] at found
    exact .inr found.symm
  · simp only [same, if_false] at found
    exact .inl (List.mem_iff_getElem?.mpr ⟨i, by simpa using found⟩)

theorem endAdd_mem (running : j.adds[call]? = some ⟨id, ref, .running⟩) {c : AddCall}
    (mem : c ∈ j.adds) (ended : c.outcome ≠ .running) : c ∈ (j.endAdd call outcome).adds := by
  obtain ⟨i, found⟩ := List.mem_iff_getElem?.mp mem
  have distinct : call ≠ i := by
    rintro rfl
    rw [running] at found
    exact ended (Option.some.inj found ▸ rfl)
  exact List.mem_iff_getElem?.mpr ⟨i, by simp [Journal.endAdd, distinct, found]⟩

theorem endAdd_mem_self (running : j.adds[call]? = some ⟨id, ref, .running⟩) :
    ⟨id, ref, outcome⟩ ∈ (j.endAdd call outcome).adds :=
  List.mem_iff_getElem?.mpr ⟨call, by simp [Journal.endAdd, running]⟩

theorem endAdd_returned (running : j.adds[call]? = some ⟨id, ref, .running⟩) {other rid : String}
    (returned : Returned j.adds other rid) : Returned (j.endAdd call outcome).adds other rid := by
  obtain ⟨c, mem, same, r, isReturned, text⟩ := returned
  exact ⟨c, endAdd_mem running mem (by simp [isReturned]), same, r, isReturned, text⟩

theorem endAdd_threw_inv (running : j.adds[call]? = some ⟨id, ref, .running⟩) {other : String}
    (threw : Threw (j.endAdd call outcome).adds other) :
    Threw j.adds other ∨ (outcome = .threw ∧ other = id) := by
  obtain ⟨c, mem, same, isThrew⟩ := threw
  rcases endAdd_mem_inv running mem with old | rfl
  · exact .inl ⟨c, old, same, isThrew⟩
  · exact .inr ⟨isThrew, same.symm⟩

theorem endAdd_running_ne (running : j.adds[call]? = some ⟨id, ref, .running⟩) {other : Nat}
    {c : AddCall} (found : j.adds[other]? = some c) (distinct : c.submissionId ≠ id) :
    (j.endAdd call outcome).adds[other]? = some c := by
  have ne : call ≠ other := by
    rintro rfl
    rw [running] at found
    exact distinct (Option.some.inj found ▸ rfl)
  simp [Journal.endAdd, ne, found]

end EndAdd

/- The call of an adding request ended; the other requests keep their facts, and the entry is
   still without a record id. -/
theorem endAdd_inv {submission : Submission} {ref call : Nat} {contest : String} {problem : Int}
    {outcome : AddOutcome}
    (inv : Inv j (.adding submission ref call contest problem :: phases)) :
    Inv (j.endAdd call outcome) phases := by
  have pending : j.Pending submission.submissionId ref call :=
    inv.threads (.adding submission ref call contest problem) List.mem_cons_self
  have alone := inv.only_adder
  exact {
    objects := fun ref' id e found =>
      ⟨fun ne => endAdd_returned pending.running ((inv.objects ref' id e found).returned ne),
        (inv.objects ref' id e found).flags⟩
    filed := fun id e found =>
      ⟨fun ne => endAdd_returned pending.running ((inv.filed id e found).returned ne),
        (inv.filed id e found).flags⟩
    updates := fun u mem => endAdd_returned pending.running (inv.updates u mem)
    failedFiled := by
      intro id threw
      rcases endAdd_threw_inv pending.running threw with old | ⟨-, rfl⟩
      · exact inv.failedFiled id old
      · exact pending.filed
    owned := inv.owned
    failed := by
      intro id threw
      rcases endAdd_threw_inv pending.running threw with old | ⟨-, rfl⟩
      · exact inv.failed id old
      · exact ⟨ref, pending.unfilled⟩
    threads := by
      intro phase mem
      have holds := inv.threads phase (List.mem_cons_of_mem _ mem)
      cases phase with
      | adding other ref' call' contest' problem' =>
        have held : j.Pending other.submissionId ref' call' := holds
        have distinct : other.submissionId ≠ submission.submissionId := fun same =>
          alone _ mem (congrArg some same)
        refine ⟨held.unfilled, held.filed,
          endAdd_running_ne pending.running held.running distinct, ?_⟩
        intro threw
        rcases endAdd_threw_inv pending.running threw with old | ⟨-, same⟩
        · exact held.calm old
        · exact distinct same
      | completing job stage => exact holds
      | recovering other ref' stage => exact holds
      | _ => exact holds
    distinct := inv.tail.distinct }

/- The record id arrives at an unfilled entry that no failed call and no other request needs. -/
theorem fillEntry_inv {id : String} {ref : Nat} {rid : Rid} (inv : Inv j phases)
    (unfilled : j.Unfilled id ref) (returned : Returned j.adds id rid.text)
    (calm : ¬ Threw j.adds id) (alone : ∀ phase ∈ phases, phase.addingId ≠ some id) :
    Inv (j.modifyEntry ref fun e => { e with rid := rid.text, phase := .recordCreated }) phases ∧
      (j.modifyEntry ref fun e => { e with rid := rid.text, phase := .recordCreated }).Filled
        id ref := by
  obtain ⟨entry, old, foundOld, empty⟩ := unfilled
  have other : ∀ ref' id' e, j.heap.read ref' = some (id', e) → (id' ≠ id ∨ e.rid ≠ "") →
      (j.modifyEntry ref fun e => { e with rid := rid.text, phase := .recordCreated }).heap.read
        ref' = some (id', e) := by
    intro ref' id' e found differs
    have ne : ref' ≠ ref := by
      rintro rfl
      rw [foundOld] at found
      obtain ⟨rfl, rfl⟩ := Prod.mk.inj (Option.some.inj found)
      rcases differs with h | h
      · exact h rfl
      · exact h empty
    simp [Journal.modifyEntry, Heap.read_modify, ne, found]
  have unfilledOther : ∀ id' ref', id' ≠ id → j.Unfilled id' ref' →
      (j.modifyEntry ref fun e => { e with rid := rid.text, phase := .recordCreated }).Unfilled
        id' ref' := by
    rintro id' ref' differs ⟨entry', e, found, empty'⟩
    exact ⟨entry', e, other ref' id' e found (.inl differs), empty'⟩
  have new : (j.modifyEntry ref fun e =>
      { e with rid := rid.text, phase := .recordCreated }).heap.read ref =
        some (id, { old with rid := rid.text, phase := .recordCreated }) := by
    simp [Journal.modifyEntry, Heap.read_modify, foundOld]
  constructor
  · exact {
      objects := by
        intro ref' id' e found
        by_cases same : ref' = ref
        · subst same
          rw [new] at found
          obtain ⟨rfl, rfl⟩ := Prod.mk.inj (Option.some.inj found)
          exact ⟨fun _ => returned, fun _ => rid.nonempty⟩
        · simp only [Journal.modifyEntry, Heap.read_modify, same, if_false] at found
          exact inv.objects ref' id' e found
      filed := inv.filed
      updates := inv.updates
      failedFiled := inv.failedFiled
      owned := by
        intro id' ref' entry'
        obtain ⟨e, found⟩ := inv.owned id' ref' entry'
        by_cases same : ref' = ref
        · subst same
          rw [foundOld] at found
          obtain ⟨rfl, rfl⟩ := Prod.mk.inj (Option.some.inj found)
          exact ⟨_, new⟩
        · exact ⟨e, by simp [Journal.modifyEntry, Heap.read_modify, same, found]⟩
      failed := by
        intro id' threw
        have differs : id' ≠ id := fun same => calm (same ▸ threw)
        exact (inv.failed id' threw).imp fun ref' => unfilledOther id' ref' differs
      threads := by
        intro phase mem
        have holds := inv.threads phase mem
        cases phase with
        | adding submission ref' call contest problem =>
          have held : j.Pending submission.submissionId ref' call := holds
          exact ⟨unfilledOther _ _ (fun same => alone _ mem (congrArg some same)) held.unfilled,
            held.filed, held.running, held.calm⟩
        | completing job stage =>
          obtain ⟨e, found, ne, eq⟩ := holds
          exact ⟨e, other _ _ e found (.inr ne), ne, eq⟩
        | recovering submission ref' stage =>
          obtain ⟨e, found, ne⟩ := holds
          exact ⟨e, other _ _ e found (.inr ne), ne⟩
        | _ => exact holds
      distinct := inv.distinct }
  · exact ⟨_, new, rid.nonempty⟩

end NoiContest.HydroPlugin
