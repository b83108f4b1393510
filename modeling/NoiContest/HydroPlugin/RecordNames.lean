import NoiContest.HydroPlugin.CounterMoves

/- Where the record ids come from that the plugin answers with. Every one of them was named by
   Hydro for the same submission id: as the record that RecordModel.add made, or as the only
   record with the markers of the entry. The statement is about every event, pruning and a
   second reservation of one id included. -/
namespace NoiContest.HydroPlugin
open Effect

/-- A record of Hydro, with the submission id and the payload it was made for. -/
structure Issued where
  submissionId : String
  fingerprint : String
  rid : String
  deriving DecidableEq

/- What the answer to a call tells about the records of Hydro. -/
def Phase.issued (settings : Settings) (j : Journal) : Phase → Answer → Option Issued
  | .adding submission _ _ _ _, .added rid =>
      some ⟨submission.submissionId, submission.fingerprint, rid.text⟩
  | .finding submissionId ref, .candidates [record] => (j.heap.read ref).bind fun object =>
      if recordMatchesSubmissionEntry settings record submissionId object.2 then
        some ⟨record.orchestratorSubmissionId, record.orchestratorPayloadSha256, record.id.text⟩
      else none
  | _, _ => none

def Plugin.issued (settings : Settings) (p : Plugin) : Event → Option Issued
  | .post (.resume request answer _) => (p.requests[request]?).bind fun r =>
      r.phase.issued settings p.journal answer
  | _ => none

theorem matches_markers {settings : Settings} {record : Record} {id : String} {e : Entry}
    (full : recordMatchesSubmissionEntry settings record id e = true) :
    record.orchestratorSubmissionId = id ∧ record.orchestratorPayloadSha256 = e.fingerprint := by
  unfold recordMatchesSubmissionEntry at full
  split at full
  · simp only [Bool.and_eq_true, beq_iff_eq] at full
    exact ⟨full.1.1.2, full.1.2⟩
  · cases full

/-- The payload of each submission id that was posted, and the records named so far. -/
structure Known where
  payload : String → String → Prop
  issued : List Issued

structure Known.Within (old new : Known) : Prop where
  payload : ∀ id fingerprint, old.payload id fingerprint → new.payload id fingerprint
  issued : ∀ i ∈ old.issued, i ∈ new.issued

def Known.Names (known : Known) (id rid : String) : Prop :=
  ∃ i ∈ known.issued, i.submissionId = id ∧ i.rid = rid

theorem Known.Within.names {old new : Known} (within : old.Within new) {id rid : String}
    (names : old.Names id rid) : new.Names id rid := by
  obtain ⟨i, mem, same⟩ := names
  exact ⟨i, within.issued i mem, same⟩

structure Entry.Backed (known : Known) (id : String) (e : Entry) : Prop where
  payload : known.payload id e.fingerprint
  rid : e.rid ≠ "" → known.Names id e.rid

def Journal.Owned (j : Journal) (id : String) (ref : Nat) : Prop :=
  ∃ e, j.heap.read ref = some (id, e)

/-- Every object and every entry of the file is backed, and the in-flight maps name requests of
    their id. The list has the id of each request. -/
structure Journal.Backed (known : Known) (ids : List String) (j : Journal) : Prop where
  objects : ∀ ref id e, j.heap.read ref = some (id, e) → e.Backed known id
  file : ∀ item ∈ j.file.items, item.2.Backed known item.1
  entries : ∀ id ref, j.entries.get? id = some ref → j.Owned id ref
  owners : ∀ kind id promise, j.owner kind id = some promise → ids[promise]? = some id

/- An entry without a record id is answered with the empty id. -/
def Reply.Backed (known : Known) (id : String) : Reply → Prop
  | .rid text => text = "" ∨ known.Names id text
  | .resolution (.resolved text) => text = "" ∨ known.Names id text
  | _ => True

def Phase.Backed (known : Known) (ids : List String) (j : Journal) (id : String) : Phase → Prop
  | .lookingUp submission _ =>
      submission.submissionId = id ∧ known.payload id submission.fingerprint
  | .recovering submission ref _ =>
      submission.submissionId = id ∧ known.payload id submission.fingerprint ∧ j.Owned id ref
  | .adding submission ref _ _ _ =>
      submission.submissionId = id ∧ known.payload id submission.fingerprint ∧ j.Owned id ref
  | .completing job _ => j.Owned id job.entry
  | .finding submissionId ref => submissionId = id ∧ j.Owned id ref
  | .correlating submissionId ref candidate =>
      submissionId = id ∧ j.Owned id ref ∧ known.Names id candidate.id.text
  | .joined promise => ids[promise]? = some id
  | .settled (.ok reply) => reply.Backed known id
  | .finished (.ok reply) => reply.Backed known id
  | .settled (.error _) => True
  | .finished (.error _) => True

section Growth
variable {old new : Known} {ids ids' : List String} {j j' : Journal} {id : String}

theorem Entry.Backed.mono {e : Entry} (backed : e.Backed old id) (within : old.Within new) :
    e.Backed new id :=
  ⟨within.payload _ _ backed.payload, fun named => within.names (backed.rid named)⟩

theorem Journal.Backed.mono (backed : j.Backed old ids) (within : old.Within new)
    (more : ∀ (promise : Nat) id, ids[promise]? = some id → ids'[promise]? = some id) :
    j.Backed new ids' where
  objects ref id e found := (backed.objects ref id e found).mono within
  file item mem := (backed.file item mem).mono within
  entries := backed.entries
  owners kind id promise owner := more _ _ (backed.owners kind id promise owner)

theorem Reply.Backed.mono {reply : Reply} (backed : reply.Backed old id)
    (within : old.Within new) : reply.Backed new id := by
  cases reply with
  | rid rid => exact backed.imp_right within.names
  | resolution resolution =>
    cases resolution with
    | resolved rid => exact backed.imp_right within.names
    | _ => trivial

theorem Phase.Backed.mono {phase : Phase} (backed : phase.Backed old ids j id)
    (within : old.Within new)
    (more : ∀ (promise : Nat) id, ids[promise]? = some id → ids'[promise]? = some id)
    (held : ∀ ref, j.Owned id ref → j'.Owned id ref) : phase.Backed new ids' j' id := by
  cases phase with
  | lookingUp submission stage => exact ⟨backed.1, within.payload _ _ backed.2⟩
  | recovering submission ref stage =>
    exact ⟨backed.1, within.payload _ _ backed.2.1, held _ backed.2.2⟩
  | adding submission ref call contestDocId problemDocId =>
    exact ⟨backed.1, within.payload _ _ backed.2.1, held _ backed.2.2⟩
  | completing job stage => exact held _ backed
  | finding submissionId ref => exact ⟨backed.1, held _ backed.2⟩
  | correlating submissionId ref candidate =>
    exact ⟨backed.1, held _ backed.2.1, within.names backed.2.2⟩
  | joined promise => exact more _ _ backed
  | settled outcome =>
    cases outcome with
    | error failure => trivial
    | ok reply => exact Reply.Backed.mono backed within
  | finished outcome =>
    cases outcome with
    | error failure => trivial
    | ok reply => exact Reply.Backed.mono backed within

end Growth

/- The journal after a stretch that started from the base: backed, and no object was lost. -/
structure Carried (known : Known) (ids : List String) (base j : Journal) : Prop
    extends j.Backed known ids where
  held : ∀ id ref, base.Owned id ref → j.Owned id ref

section Primitives
variable {settings : Settings} {known : Known} {ids : List String} {base j : Journal}

theorem Carried.same {j' : Journal} (carried : Carried known ids base j)
    (heap : j'.heap = j.heap) (file : j'.file = j.file) (entries : j'.entries = j.entries)
    (owner : j'.owner = j.owner) : Carried known ids base j' where
  objects := by rw [heap]; exact carried.objects
  file := by rw [file]; exact carried.file
  entries id ref entry := by
    rw [Journal.Owned, heap]
    exact carried.entries id ref (entries ▸ entry)
  owners := by rw [owner]; exact carried.owners
  held id ref owned := by
    rw [Journal.Owned, heap]
    exact carried.held id ref owned

theorem prune_owner (n : Nat) (j : Journal) : (j.prune n).owner = j.owner := by
  funext kind id
  cases kind <;> simp [Journal.owner]

theorem prune_carried (n : Nat) (carried : Carried known ids base j) :
    Carried known ids base (j.prune n) where
  objects := by rw [prune_heap]; exact carried.objects
  file := by rw [prune_file]; exact carried.file
  entries id ref entry := by
    rw [Journal.Owned, prune_heap]
    exact carried.entries id ref (prune_entries_sub entry)
  owners := by rw [prune_owner]; exact carried.owners
  held id ref owned := by
    rw [Journal.Owned, prune_heap]
    exact carried.held id ref owned

/- The file gets the objects that the map names. -/
theorem write_carried (carried : Carried known ids base j) : Carried known ids base j.write where
  objects := carried.objects
  file := by
    intro item mem
    simp only [Journal.write, Journal.image, Dict.mapValues, List.mem_map] at mem
    obtain ⟨⟨id, ref⟩, entry, rfl⟩ := mem
    obtain ⟨e, found⟩ := carried.entries id ref (Dict.get?_some.mpr entry)
    simpa only [found] using carried.objects ref id e found
  entries := carried.entries
  owners := carried.owners
  held := carried.held

theorem save_carried {w : Journal × List Save} (carried : Carried known ids base w.1) :
    Ends (saveIdempotencyState settings) w (fun _ t => Carried known ids base t.1)
      (fun _ t => Carried known ids base t.1) := by
  obtain ⟨j, saves⟩ := w
  have pruned := prune_carried settings.maxEntries carried
  have written := write_carried pruned
  simp only [saveIdempotencyState, modifyJournal, nextSave, ends_bind, ends_modify,
    ends_modifyGet]
  cases saves.headD .saved with
  | saved => exact written
  | failed writes =>
    cases writes
    · simpa [raise] using pruned
    · simpa [raise] using written
  | crashed writes =>
    cases writes
    · simpa using pruned
    · simpa using written

theorem modifyEntry_owned {id : String} {ref other : Nat} {f : Entry → Entry}
    (owned : j.Owned id ref) : (j.modifyEntry other f).Owned id ref := by
  obtain ⟨e, found⟩ := owned
  simp only [Journal.Owned, Journal.modifyEntry, Heap.read_modify]
  by_cases same : ref = other
  · subst same
    exact ⟨f e, by simp [found]⟩
  · exact ⟨e, by simp [same, found]⟩

theorem modifyEntry_carried {ref : Nat} {f : Entry → Entry} (carried : Carried known ids base j)
    (change : ∀ id e, j.heap.read ref = some (id, e) → e.Backed known id →
      (f e).Backed known id) : Carried known ids base (j.modifyEntry ref f) where
  objects other id e found := by
    simp only [Journal.modifyEntry, Heap.read_modify] at found
    by_cases same : other = ref
    · simp only [same, if_true, Option.map_eq_some_iff] at found
      obtain ⟨⟨id', e'⟩, old, eq⟩ := found
      obtain ⟨rfl, rfl⟩ := Prod.mk.inj eq
      exact change _ _ old (carried.objects _ _ _ old)
    · simp only [same, if_false] at found
      exact carried.objects other id e found
  file := carried.file
  entries id ref' entry := modifyEntry_owned (carried.entries id ref' entry)
  owners := carried.owners
  held id ref' owned := modifyEntry_owned (carried.held id ref' owned)

end Primitives

/-- The stretch leads to a backed journal and a backed phase. -/
def Leads (known : Known) (ids : List String) (base : Journal) (id : String)
    (work : Section Phase) (w : Journal × List Save) : Prop :=
  Ends work w (fun phase t => Carried known ids base t.1 ∧ phase.Backed known ids t.1 id)
    (fun _ t => Carried known ids base t.1)

def Stays (known : Known) (ids : List String) (base : Journal) (id : String)
    (work : Section Phase) : Prop :=
  ∀ w, Carried known ids base w.1 → Leads known ids base id work w

section Rules
variable {settings : Settings} {known : Known} {ids : List String} {base : Journal} {id : String}
  {ref : Nat}

theorem stays_pure {phase : Phase}
    (backed : ∀ j, Carried known ids base j → phase.Backed known ids j id) :
    Stays known ids base id (pure phase) := fun w carried => ⟨carried, backed w.1 carried⟩

theorem stays_raise {failure : Failure} : Stays known ids base id (raise failure) :=
  fun _ carried => carried

theorem Stays.ite {c : Prop} [Decidable c] {x y : Section Phase}
    (yes : c → Stays known ids base id x) (no : ¬ c → Stays known ids base id y) :
    Stays known ids base id (if c then x else y) := by
  intro w carried
  rw [Leads, ends_ite]
  exact ⟨fun holds => yes holds w carried, fun fails => no fails w carried⟩

theorem Leads.settle {work : Section Phase} {w : Journal × List Save}
    (leads : Leads known ids base id work w) : Leads known ids base id (settleWork work) w := by
  rw [Leads, settleWork, ends_tryCatch]
  refine leads.mono (fun _ _ kept => kept) ?_
  intro fault t kept
  cases fault with
  | crash => exact kept
  | raised failure => exact ⟨kept, trivial⟩

theorem Stays.settle {work : Section Phase} (stays : Stays known ids base id work) :
    Stays known ids base id (settleWork work) := fun w carried => (stays w carried).settle

theorem stays_readEntry {f : Entry → Section Phase} (owned : base.Owned id ref)
    (next : ∀ e, e.Backed known id → Stays known ids base id (f e)) :
    Stays known ids base id (readEntry ref >>= f) := by
  intro w carried
  obtain ⟨e, found⟩ := carried.held id ref owned
  simp only [Leads, readEntry, readJournal, ends_bind, ends_get, ends_pure, found]
  exact next e (carried.objects ref id e found) w carried

theorem stays_modifyEntry {f : Unit → Section Phase} {change : Entry → Entry}
    (owned : base.Owned id ref)
    (backed : ∀ e : Entry, e.Backed known id → (change e).Backed known id)
    (next : Stays known ids base id (f ())) :
    Stays known ids base id (modifyEntry ref change >>= f) := by
  intro w carried
  simp only [Leads, modifyEntry, modifyJournal, ends_bind, ends_modify]
  refine next _ (modifyEntry_carried carried ?_)
  intro id' e found kept
  obtain ⟨mine, found'⟩ := carried.held id ref owned
  rw [found] at found'
  obtain ⟨rfl, -⟩ := Prod.mk.inj (Option.some.inj found')
  exact backed e kept

theorem stays_save {f : Unit → Section Phase} (next : Stays known ids base id (f ())) :
    Stays known ids base id (saveIdempotencyState settings >>= f) := by
  intro w carried
  rw [Leads, ends_bind]
  exact (save_carried carried).mono (fun _ t kept => next t kept) fun _ _ kept => kept

/- Every answer reads the record id off the entry. -/
theorem backed_rid {e : Entry} (backed : e.Backed known id) :
    e.rid = "" ∨ known.Names id e.rid :=
  (Classical.em (e.rid = "")).imp_right backed.rid

end Rules

section Completing
variable {settings : Settings} {known : Known} {ids : List String} {base : Journal} {id : String}
  (job : Job) (owned : base.Owned id job.entry)
include owned

theorem completing_backed (stage : Completion) {j : Journal} (carried : Carried known ids base j) :
    (Phase.completing job stage).Backed known ids j id := carried.held id job.entry owned

theorem finishEntry_stays : Stays known ids base id (finishEntry settings job) := by
  refine stays_modifyEntry owned (fun e backed => ⟨backed.payload, backed.rid⟩) ?_
  refine stays_save (stays_readEntry owned fun e backed => stays_pure fun j _ => ?_)
  have named := backed_rid backed
  change Reply.Backed known id (if job.forStatus = true then _ else _)
  split
  · exact named
  · exact named

theorem countUser_stays : Stays known ids base id (countUser settings job) :=
  stays_readEntry owned fun _ _ => .ite (fun _ => finishEntry_stays job owned) fun _ =>
    stays_pure fun _ => completing_backed job owned _

theorem countProblem_stays : Stays known ids base id (countProblem settings job) :=
  stays_readEntry owned fun _ _ => .ite (fun _ => countUser_stays job owned) fun _ =>
    stays_pure fun _ => completing_backed job owned _

theorem updateStatus_stays : Stays known ids base id (updateStatus settings job) := by
  refine stays_readEntry owned fun _ _ => .ite (fun _ => countProblem_stays job owned) fun _ => ?_
  intro w carried
  rw [Leads, ends_bind, callUpdateStatus, modifyJournal, ends_modify, ends_pure]
  have called : Carried known ids base (w.1.callUpdateStatus job.submissionId job.rid) :=
    carried.same rfl rfl rfl rfl
  exact ⟨called, completing_backed job owned _ called⟩

theorem completeSubmissionEntry_stays (recovering : Bool) :
    Stays known ids base id (completeSubmissionEntry settings job recovering) :=
  stays_readEntry owned fun e _ => .ite
    (fun _ => stays_pure fun _ => completing_backed { job with rid := e.rid } owned _)
    fun _ => updateStatus_stays { job with rid := e.rid } owned

theorem resumeCompletion_stays (stage : Completion) (answer : Answer) :
    Stays known ids base id (resumeCompletion settings job stage answer) := by
  have flag : ∀ {change : Entry → Entry} {f : Section Phase},
      (∀ e, (change e).fingerprint = e.fingerprint ∧ (change e).rid = e.rid) →
      Stays known ids base id f → Stays known ids base id (do
        modifyEntry job.entry change
        saveIdempotencyState settings
        f) := by
    intro change f same stays
    refine stays_modifyEntry owned (fun e backed => ?_) (stays_save stays)
    exact ⟨by rw [(same e).1]; exact backed.payload, by rw [(same e).2]; exact backed.rid⟩
  unfold resumeCompletion
  split
  · refine .settle (stays_readEntry owned fun e _ => ?_)
    dsimp only
    split
    · exact stays_raise
    · exact flag (fun _ => ⟨rfl, rfl⟩) (updateStatus_stays job owned)
  · exact .settle (flag (fun _ => ⟨rfl, rfl⟩) (countProblem_stays job owned))
  · exact .settle (flag (fun _ => ⟨rfl, rfl⟩) (countUser_stays job owned))
  · exact .settle (flag (fun _ => ⟨rfl, rfl⟩) (finishEntry_stays job owned))
  · exact stays_pure fun _ _ => trivial
  · exact stays_pure fun _ => completing_backed job owned _

end Completing

section Recovering
variable {settings : Settings} {known : Known} {ids : List String} {base : Journal} {id : String}
  {submission : Submission} {ref : Nat} (owned : base.Owned id ref)
  (same : submission.submissionId = id) (posted : known.payload id submission.fingerprint)
include owned

theorem recoverWith_stays (submission : Submission) (problemDocId : Int) (contestDocId : String) :
    Stays known ids base id (recoverWith settings submission ref problemDocId contestDocId) :=
  stays_modifyEntry owned (fun _ backed => ⟨backed.payload, backed.rid⟩)
    (stays_save (completeSubmissionEntry_stays _ owned true))

include same posted

theorem recoverContest_stays (problemDocId : Int) :
    Stays known ids base id (recoverContest settings submission ref problemDocId) := by
  refine stays_readEntry owned fun e _ => ?_
  cases e.contestDocId with
  | none => exact stays_pure fun j carried => ⟨same, posted, carried.held id ref owned⟩
  | some contestDocId => exact recoverWith_stays owned submission problemDocId contestDocId

theorem recover_stays : Stays known ids base id (recover settings submission ref) := by
  refine stays_readEntry owned fun e _ => ?_
  cases e.problemDocId with
  | none => exact stays_pure fun j carried => ⟨same, posted, carried.held id ref owned⟩
  | some problemDocId => exact recoverContest_stays owned same posted problemDocId

omit same posted

theorem attachRid_stays (submission : Submission) {call : Nat} {contestDocId : String}
    {problemDocId : Int} {rid : Rid} (named : known.Names id rid.text) :
    Stays known ids base id
      (attachRid settings submission ref call contestDocId problemDocId rid) := by
  intro w carried
  rw [Leads, attachRid, ends_bind, endAdd, modifyJournal, ends_modify]
  have ended : Carried known ids base (w.1.endAdd call (.returned rid)) :=
    carried.same rfl rfl rfl rfl
  have onward : Stays known ids base id (do
      modifyEntry ref fun e => { e with rid := rid.text, phase := .recordCreated }
      saveIdempotencyState settings
      completeSubmissionEntry settings (submission.job ref contestDocId problemDocId) false) :=
    stays_modifyEntry owned (fun _ backed => ⟨backed.payload, fun _ => named⟩)
      (stays_save (completeSubmissionEntry_stays _ owned false))
  exact onward _ ended

theorem resumeFinding_leads {records : List Record}
    (named : ∀ record e, records = [record] → base.heap.read ref = some (id, e) →
      recordMatchesSubmissionEntry settings record id e = true → known.Names id record.id.text)
    {saves : List Save} (carried : Carried known ids base base) :
    Leads known ids base id (resumeFinding settings id ref records) (base, saves) := by
  obtain ⟨e, found⟩ := owned
  simp only [Leads, resumeFinding, readEntry, readJournal, ends_bind, ends_get, ends_pure, found]
  split
  · exact ⟨carried, trivial⟩
  · rename_i candidate
    simp only [ends_ite]
    refine ⟨fun _ => ⟨carried, trivial⟩, fun full => ⟨fun _ => ⟨carried, trivial⟩, fun _ => ?_⟩⟩
    exact ⟨carried, rfl, ⟨e, found⟩, named candidate e rfl found (by simpa using full)⟩
  · exact ⟨carried, trivial⟩

theorem resumeCorrelating_stays {candidate : Record} {items : Option (List JournalItem)}
    (named : known.Names id candidate.id.text) :
    Stays known ids base id (resumeCorrelating settings id ref candidate items) := by
  refine stays_readEntry owned fun e _ => ?_
  cases existingSubmissionJournal candidate.id.text (e.problemDocId.getD 0) items with
  | none => exact stays_pure fun _ _ => trivial
  | some item =>
    refine .ite (fun _ => stays_pure fun _ _ => trivial) fun _ =>
      .ite (fun _ => stays_pure fun _ _ => .inr named) fun _ => ?_
    exact stays_modifyEntry owned (fun _ backed => ⟨backed.payload, fun _ => named⟩)
      (stays_save (completeSubmissionEntry_stays _ owned false))

end Recovering

section Handlers
variable {settings : Settings} {known : Known} {ids : List String} {base : Journal} {id : String}
  {self : Nat} {saves : List Save}

theorem Journal.Backed.carried (backed : base.Backed known ids) : Carried known ids base base :=
  ⟨backed, fun _ _ held => held⟩

/- A request enters the in-flight map of its kind under its own place. -/
theorem leads_setInFlight {work : Section Phase} {w : Journal × List Save} (flight : InFlight)
    (mine : flight.promise = self) (here : ids[self]? = some id)
    (leads : Leads known ids base id work w) : Leads known ids base id (do
      let phase ← work
      setInFlight id flight
      return phase) w := by
  rw [Leads, ends_bind]
  refine leads.mono ?_ fun _ _ kept => kept
  rintro phase ⟨j, rest⟩ ⟨kept, backed⟩
  rw [ends_bind, setInFlight, modifyJournal, ends_modify, ends_pure]
  refine ⟨⟨⟨kept.objects, kept.file, kept.entries, ?_⟩, kept.held⟩,
    backed.mono ⟨fun _ _ h => h, fun _ h => h⟩ (fun _ _ h => h) fun _ h => h⟩
  intro kind other promise owner
  cases kind with
  | status => exact kept.owners .status other promise owner
  | submit =>
    by_cases same : other = id
    · subst same
      simp only [Journal.owner, Dict.get?_set_self, Option.map_some, Option.some.injEq] at owner
      rw [← owner, mine]
      exact here
    · refine kept.owners .submit other promise ?_
      simpa only [Journal.owner, Dict.get?_set_ne same] using owner

theorem leads_setResolving {work : Section Phase} {w : Journal × List Save}
    (here : ids[self]? = some id) (leads : Leads known ids base id work w) :
    Leads known ids base id (do
      let phase ← work
      setResolving id self
      return phase) w := by
  rw [Leads, ends_bind]
  refine leads.mono ?_ fun _ _ kept => kept
  rintro phase ⟨j, rest⟩ ⟨kept, backed⟩
  rw [ends_bind, setResolving, modifyJournal, ends_modify, ends_pure]
  refine ⟨⟨⟨kept.objects, kept.file, kept.entries, ?_⟩, kept.held⟩,
    backed.mono ⟨fun _ _ h => h, fun _ h => h⟩ (fun _ _ h => h) fun _ h => h⟩
  intro kind other promise owner
  cases kind with
  | submit => exact kept.owners .submit other promise owner
  | status =>
    by_cases same : other = id
    · subst same
      simp only [Journal.owner, Dict.get?_set_self, Option.some.injEq] at owner
      rw [← owner]
      exact here
    · refine kept.owners .status other promise ?_
      simpa only [Journal.owner, Dict.get?_set_ne same] using owner

/- The reservation is a new object without a record id. -/
theorem insertEntry_carried {e : Entry} (backed : base.Backed known ids)
    (fresh : e.Backed known id) :
    Carried known ids base (base.insertEntry id e) ∧
      (base.insertEntry id e).Owned id base.heap.fresh := by
  have grown : ∀ id' ref, base.Owned id' ref → (base.insertEntry id e).Owned id' ref := by
    rintro id' ref ⟨e', found⟩
    have bound := Heap.read_bound found
    have distinct : ref ≠ base.heap.fresh := by omega
    exact ⟨e', by simpa [Journal.insertEntry, Heap.read_allocate, distinct] using found⟩
  have here : (base.insertEntry id e).Owned id base.heap.fresh :=
    ⟨e, by simp [Journal.insertEntry, Heap.read_allocate]⟩
  refine ⟨⟨⟨?_, backed.file, ?_, ?_⟩, grown⟩, here⟩
  · intro ref id' e' found
    simp only [Journal.insertEntry, Heap.read_allocate] at found
    by_cases same : ref = base.heap.fresh
    · simp only [same, if_true] at found
      obtain ⟨rfl, rfl⟩ := Prod.mk.inj (Option.some.inj found)
      exact fresh
    · simp only [same, if_false] at found
      exact backed.objects ref id' e' found
  · intro id' ref entry
    simp only [Journal.insertEntry, Dict.get?_set] at entry
    by_cases same : id' = id
    · simp only [same, if_true] at entry
      obtain rfl := Option.some.inj entry
      exact same ▸ here
    · simp only [same, if_false] at entry
      exact grown id' ref (backed.entries id' ref entry)
  · intro kind other promise owner
    exact backed.owners kind other promise (by cases kind <;> exact owner)

theorem reserveAndAdd_leads {submission : Submission} {problem : Problem} {contest : ContestDoc}
    {createdAt : String} (same : submission.submissionId = id)
    (posted : known.payload id submission.fingerprint) (backed : base.Backed known ids) :
    Leads known ids base id (reserveAndAdd settings submission problem contest createdAt)
      (base, saves) := by
  have fresh : (submission.reservation problem contest createdAt).Backed known id :=
    ⟨posted, fun filled => (filled rfl).elim⟩
  obtain ⟨inserted, here⟩ := insertEntry_carried backed fresh
  rw [← same] at inserted here
  simp only [Leads, reserveAndAdd, insertEntry, callAdd, readJournal, modifyJournal, ends_bind,
    ends_get, ends_modify, ends_pure]
  have onward : ∀ {t : Journal}, Carried known ids (base.insertEntry submission.submissionId
      (submission.reservation problem contest createdAt)) t → Carried known ids base t :=
    fun carried => ⟨carried.toBacked, fun _ _ held => carried.held _ _ (inserted.held _ _ held)⟩
  refine (save_carried inserted.toBacked.carried).mono ?_ fun _ t kept => onward kept
  intro _ t kept
  have called : Carried known ids (base.insertEntry submission.submissionId
      (submission.reservation problem contest createdAt))
      (t.1.callAdd submission.submissionId base.heap.fresh) := kept.same rfl rfl rfl rfl
  exact ⟨onward called, same, posted, same ▸ called.held _ _ here⟩

theorem submitLookedUp_leads {submission : Submission} {problem : Problem} {contest : ContestDoc}
    {attendance : Option Attendance} {ongoing : Bool} {createdAt : String}
    (here : ids[self]? = some id) (same : submission.submissionId = id)
    (posted : known.payload id submission.fingerprint) (backed : base.Backed known ids) :
    Leads known ids base id
      (submitLookedUp settings self submission problem contest attendance ongoing createdAt)
      (base, saves) := by
  have start := backed.carried
  unfold submitLookedUp
  cases checkEligible settings submission problem contest attendance with
  | error failure => exact start
  | ok attended =>
    simp only [Leads, liftCheck, readJournal, ends_bind, ends_pure, ends_get, ends_ite]
    refine ⟨fun _ => start, fun _ => ⟨fun _ => start, fun _ => ?_⟩⟩
    cases flight : base.inFlight.get? submission.submissionId with
    | some active =>
      refine ⟨start, backed.owners .submit id active.promise ?_⟩
      simp [Journal.owner, ← same, flight]
    | none =>
      cases entry : base.entries.get? submission.submissionId with
      | some ref =>
        have owned : base.Owned id ref := same ▸ backed.entries _ ref entry
        have stays : Stays known ids base id (settleWork (completeSubmissionEntry settings
            (submission.job ref contest.docId problem.docId) false)) :=
          (completeSubmissionEntry_stays _ owned false).settle
        simpa only [Leads, ends_bind, ends_pure, same] using
          leads_setInFlight ⟨submission.fingerprint, self⟩ rfl here (stays (base, saves) start)
      | none =>
        rw [ends_ite]
        refine ⟨fun _ => start, fun _ => ?_⟩
        simpa only [Leads, ends_bind, ends_pure, same] using
          leads_setInFlight ⟨submission.fingerprint, self⟩ rfl here
            (reserveAndAdd_leads same posted backed).settle

theorem submit_leads {body : SubmitBody} {contestLocked : Bool}
    (here : ids[self]? = some body.submissionId)
    (posted : ∀ submission, body.validate settings = .ok submission →
      known.payload submission.submissionId submission.fingerprint)
    (backed : base.Backed known ids) :
    Leads known ids base body.submissionId (submit settings self body contestLocked)
      (base, saves) := by
  have start := backed.carried
  unfold submit
  cases valid : body.validate settings with
  | error failure => exact start
  | ok submission =>
    have same := validate_id valid
    have sent := posted submission valid
    rw [← same] at here ⊢
    simp only [Leads, liftCheck, readJournal, ends_bind, ends_pure, ends_get, ends_ite]
    refine ⟨fun _ => start, fun _ => ⟨fun _ => start, fun _ => ?_⟩⟩
    cases flight : base.inFlight.get? submission.submissionId with
    | some pending =>
      refine ⟨start, backed.owners .submit _ pending.promise ?_⟩
      simp [Journal.owner, flight]
    | none =>
      cases entry : base.entries.get? submission.submissionId with
      | some ref =>
        have owned := backed.entries _ ref entry
        obtain ⟨e, found⟩ := owned
        simp only [readEntry, readJournal, ends_bind, ends_get, ends_pure, found, ends_ite]
        refine ⟨fun _ => ⟨start, backed_rid (backed.objects _ _ _ found)⟩, fun _ =>
          ⟨fun _ => start, fun _ => ?_⟩⟩
        simpa only [Leads, ends_bind, ends_pure] using
          leads_setInFlight ⟨submission.fingerprint, self⟩ rfl here
            ((recover_stays ⟨e, found⟩ rfl sent).settle (base, saves) start)
      | none =>
        simp only [ends_ite]
        exact ⟨fun _ => start, fun _ => ⟨start, rfl, sent⟩⟩

theorem submissionStatus_leads {headerToken : Option String} (here : ids[self]? = some id)
    (backed : base.Backed known ids) :
    Leads known ids base id (submissionStatus settings self headerToken id) (base, saves) := by
  have start := backed.carried
  unfold submissionStatus
  simp only [Leads, ends_ite, readJournal, ends_bind, ends_get, ends_pure]
  refine ⟨fun _ => start, fun _ => ⟨fun _ => start, fun _ => ?_⟩⟩
  cases entry : base.entries.get? id with
  | none => exact ⟨start, trivial⟩
  | some ref =>
    have owned := backed.entries id ref entry
    cases active : base.resolving.get? id with
    | some promise => exact ⟨start, backed.owners .status id promise active⟩
    | none =>
      have asks : Stays known ids base id (resolveAmbiguousSubmission id ref) :=
        stays_readEntry owned fun e kept => .ite
          (fun _ => .ite (fun _ => stays_pure fun _ _ => backed_rid kept)
            fun _ => stays_pure fun _ _ => trivial)
          fun _ => stays_pure fun _ carried => ⟨rfl, carried.held id ref owned⟩
      simpa only [Leads, ends_bind, ends_pure] using
        leads_setResolving here (asks.settle (base, saves) start)

/- One await returns. What the event told about records is known already. -/
theorem resume_leads {phase : Phase} {answer : Answer} (here : ids[self]? = some id)
    (backed : base.Backed known ids) (mine : phase.Backed known ids base id)
    (added : ∀ submission ref call contestDocId problemDocId rid,
      phase = .adding submission ref call contestDocId problemDocId → answer = .added rid →
      known.Names submission.submissionId rid.text)
    (found : ∀ ref record e, phase = .finding id ref → answer = .candidates [record] →
      base.heap.read ref = some (id, e) →
      recordMatchesSubmissionEntry settings record id e = true → known.Names id record.id.text) :
    Leads known ids base id (resume settings self phase answer) (base, saves) := by
  have start := backed.carried
  have idle : ∀ {outcome : Except Failure Reply}, (Phase.settled outcome).Backed known ids base id →
      Leads known ids base id (pure (.settled outcome)) (base, saves) := fun kept => ⟨start, kept⟩
  unfold resume
  split
  · exact ⟨start, mine⟩
  · exact start
  · rw [Leads, ends_ite]
    exact ⟨fun _ => ⟨start, mine⟩, fun _ => start⟩
  · exact submitLookedUp_leads here mine.1 mine.2 backed
  · exact start
  · exact (recoverContest_stays mine.2.2 mine.1 mine.2.1 _).settle _ start
  · exact idle trivial
  · exact (recoverWith_stays mine.2.2 _ _ _).settle _ start
  · exact idle trivial
  · have named := added _ _ _ _ _ _ rfl rfl
    rw [mine.1] at named
    exact (attachRid_stays mine.2.2 _ named).settle _ start
  · rw [Leads, ends_bind, endAdd, modifyJournal, ends_modify, ends_pure]
    exact ⟨start.same rfl rfl rfl rfl, trivial⟩
  · exact resumeCompletion_stays _ mine _ _ _ start
  · obtain ⟨rfl, owned⟩ := mine
    refine (resumeFinding_leads owned ?_ start).settle
    rintro record e rfl read full
    exact found _ record e rfl rfl read full
  · exact idle trivial
  · obtain ⟨rfl, owned, named⟩ := mine
    exact (resumeCorrelating_stays owned named).settle _ start
  · exact idle trivial
  · exact ⟨start, mine⟩

end Handlers

end NoiContest.HydroPlugin
