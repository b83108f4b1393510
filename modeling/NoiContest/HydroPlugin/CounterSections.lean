import NoiContest.HydroPlugin.Counters
import NoiContest.HydroPlugin.ReceiptInvariant
import NoiContest.HydroPlugin.Sections

/- What one section does to the entries and to its own request: flags are only ever set, every
   object keeps its id, and a request that comes to await one of the three calls has just read
   that call's flag as unset. -/
namespace NoiContest.HydroPlugin
open Effect

def Journal.owner (j : Journal) : RequestKind → String → Option Nat
  | .submit, id => (j.inFlight.get? id).map (·.promise)
  | .status, id => j.resolving.get? id

structure Edited (base j : Journal) : Prop where
  objects : ∀ ref id e', j.heap.read ref = some (id, e') →
    ∃ e, base.heap.read ref = some (id, e) ∧ ∀ call, e'.did call = false → e.did call = false
  held : ∀ ref id e, base.heap.read ref = some (id, e) → ∃ e', j.heap.read ref = some (id, e')
  entries : ∀ id ref, j.entries.get? id = some ref → base.entries.get? id = some ref
  owners : ∀ kind id, j.owner kind id = base.owner kind id

theorem Edited.refl (j : Journal) : Edited j j :=
  ⟨fun _ _ e found => ⟨e, found, fun _ unset => unset⟩, fun _ _ e found => ⟨e, found⟩,
    fun _ _ entry => entry, fun _ _ => rfl⟩

theorem Edited.trans {base j next : Journal} (first : Edited base j) (second : Edited j next) :
    Edited base next where
  objects ref id e' found := by
    obtain ⟨e, mid, unsetMid⟩ := second.objects ref id e' found
    obtain ⟨e₀, old, unset⟩ := first.objects ref id e mid
    exact ⟨e₀, old, fun call h => unset call (unsetMid call h)⟩
  held ref id e found := by
    obtain ⟨e', mid⟩ := first.held ref id e found
    exact second.held ref id e' mid
  entries id ref entry := first.entries id ref (second.entries id ref entry)
  owners kind id := (second.owners kind id).trans (first.owners kind id)

theorem Edited.of_same {base j : Journal} (heap : j.heap = base.heap)
    (entries : j.entries = base.entries) (inFlight : j.inFlight = base.inFlight)
    (resolving : j.resolving = base.resolving) : Edited base j where
  objects ref id e found := ⟨e, heap ▸ found, fun _ unset => unset⟩
  held ref id e found := ⟨e, heap ▸ found⟩
  entries id ref entry := entries ▸ entry
  owners kind id := by cases kind <;> simp [Journal.owner, inFlight, resolving]

theorem modifyEntry_edited (j : Journal) (ref : Nat) {f : Entry → Entry}
    (sets : ∀ e call, (f e).did call = false → e.did call = false) :
    Edited j (j.modifyEntry ref f) where
  objects other id e' found := by
    simp only [Journal.modifyEntry, Heap.read_modify] at found
    by_cases same : other = ref
    · simp only [same, if_true, Option.map_eq_some_iff] at found
      obtain ⟨⟨id', e⟩, old, eq⟩ := found
      obtain ⟨rfl, rfl⟩ := Prod.mk.inj eq
      exact ⟨e, same ▸ old, sets e⟩
    · simp only [same, if_false] at found
      exact ⟨e', found, fun _ unset => unset⟩
  held other id e found := by
    simp only [Journal.modifyEntry, Heap.read_modify]
    by_cases same : other = ref
    · subst same
      exact ⟨f e, by simp [found]⟩
    · exact ⟨e, by simp [same, found]⟩
  entries _ _ entry := entry
  owners kind _ := by cases kind <;> rfl

@[simp] theorem prune_resolving (n : Nat) (j : Journal) : (j.prune n).resolving = j.resolving := by
  unfold Journal.prune
  split <;> rfl

theorem prune_edited (n : Nat) (j : Journal) : Edited j (j.prune n) where
  objects ref id e found := ⟨e, by simpa using found, fun _ unset => unset⟩
  held ref id e found := ⟨e, by simpa using found⟩
  entries _ _ entry := prune_entries_sub entry
  owners kind id := by cases kind <;> simp [Journal.owner]

/- A save touches the map by pruning only, and it returns only when the file was written. -/
theorem save_edits {settings : Settings} {w : Journal × List Save} :
    Ends (saveIdempotencyState settings) w
      (fun _ t => Edited w.1 t.1 ∧ t.1.heap = w.1.heap ∧ willSave w.2 = true)
      (fun _ t => Edited w.1 t.1) := by
  obtain ⟨j, saves⟩ := w
  have pruned := prune_edited settings.maxEntries j
  have written : Edited j (j.prune settings.maxEntries).write :=
    pruned.trans (.of_same rfl rfl rfl rfl)
  simp only [saveIdempotencyState, modifyJournal, nextSave, ends_bind, ends_modify,
    ends_modifyGet]
  cases next : saves.headD .saved with
  | saved => exact ⟨written, by simp [Journal.write], by simp only [willSave, next]; rfl⟩
  | failed writes =>
    cases writes
    · simpa [raise] using pruned
    · simpa [raise] using written
  | crashed writes =>
    cases writes
    · simpa using pruned
    · simpa using written

/- What a request works on. -/
def Phase.entry : Phase → Option (String × Nat)
  | .recovering submission ref _ => some (submission.submissionId, ref)
  | .adding submission ref _ _ _ => some (submission.submissionId, ref)
  | .completing job _ => some (job.submissionId, job.entry)
  | .finding id ref => some (id, ref)
  | .correlating id ref _ => some (id, ref)
  | _ => none

/- Only a submit calls updateStatus: a status query has set the flag before it goes on. -/
def Phase.suits : RequestKind → Phase → Prop
  | .submit, .finding .. => False
  | .submit, .correlating .. => False
  | .status, .lookingUp .. => False
  | .status, .recovering .. => False
  | .status, .adding .. => False
  | .status, .completing _ stage => stage = .problem ∨ stage = .user
  | _, _ => True

/- A request in one of these phases is the one in its in-flight map. -/
def Phase.owns : Phase → Bool
  | .lookingUp .. => false
  | .joined _ => false
  | .finished _ => false
  | _ => true

theorem Phase.awaits_entry {phase : Phase} {id : String} {call : SubmitCall}
    (awaits : phase.awaits = some (id, call)) : ∃ ref, phase.entry = some (id, ref) := by
  cases phase with
  | completing job stage =>
    cases stage with
    | journal => simp [Phase.awaits] at awaits
    | status => exact ⟨job.entry, by simp_all [Phase.awaits, Phase.entry]⟩
    | problem => exact ⟨job.entry, by simp_all [Phase.awaits, Phase.entry]⟩
    | user => exact ⟨job.entry, by simp_all [Phase.awaits, Phase.entry]⟩
  | _ => simp [Phase.awaits] at awaits

theorem Phase.awaits_owns {phase : Phase} {id : String} {call : SubmitCall}
    (awaits : phase.awaits = some (id, call)) : phase.owns = true := by
  cases phase with
  | completing job stage => rfl
  | _ => simp [Phase.awaits] at awaits

/- The request goes on with its entry, and what it awaits was read as not done yet. `mayCount`
   is the condition under which it may come to await a counter. -/
structure Phase.Follows (kind : RequestKind) (id : String) (ref : Nat) (mayCount : Prop)
    (j : Journal) (phase : Phase) : Prop where
  owns : phase.owns = true
  suits : phase.suits kind
  entry : ∀ known, phase.entry = some known → known = (id, ref)
  unset : ∀ known call, phase.awaits = some (known, call) →
    ∃ e, j.heap.read ref = some (id, e) ∧ e.did call = false
  counter : ∀ known call, phase.awaits = some (known, call) → call.isCounter = true → mayCount

section Sections
variable {settings : Settings} {base : Journal} {kind : RequestKind} {id : String} {ref : Nat}
  {mayCount : Prop}

theorem settled_follows (j : Journal) (outcome : Except Failure Reply) :
    (Phase.settled outcome).Follows kind id ref mayCount j where
  owns := rfl
  suits := by cases kind <;> trivial
  entry known eq := by simp [Phase.entry] at eq
  unset known call eq := by simp [Phase.awaits] at eq
  counter known call eq := by simp [Phase.awaits] at eq

/-- From any state that edits of the base lead to, the section leads to another one. -/
def FollowsAt (base : Journal) (kind : RequestKind) (id : String) (ref : Nat) (mayCount : Prop)
    (work : Section Phase) (w : Journal × List Save) : Prop :=
  Ends work w (fun phase t => Edited base t.1 ∧ phase.Follows kind id ref mayCount t.1)
    (fun _ t => Edited base t.1)

theorem FollowsAt.settle {work : Section Phase} {w : Journal × List Save}
    (follows : FollowsAt base kind id ref mayCount work w) :
    FollowsAt base kind id ref mayCount (settleWork work) w := by
  rw [FollowsAt, settleWork, ends_tryCatch]
  refine follows.mono (fun _ _ kept => kept) ?_
  intro fault t edited
  cases fault with
  | crash => exact edited
  | raised failure => exact ⟨edited, settled_follows _ _⟩

theorem follows_pure {w : Journal × List Save} {phase : Phase} (edited : Edited base w.1)
    (follows : phase.Follows kind id ref mayCount w.1) :
    FollowsAt base kind id ref mayCount (pure phase) w := ⟨edited, follows⟩

theorem follows_raise {w : Journal × List Save} {failure : Failure} (edited : Edited base w.1) :
    FollowsAt base kind id ref mayCount (raise failure) w := edited

theorem follows_ite {w : Journal × List Save} {c : Prop} [Decidable c] {x y : Section Phase}
    (yes : c → FollowsAt base kind id ref mayCount x w)
    (no : ¬ c → FollowsAt base kind id ref mayCount y w) :
    FollowsAt base kind id ref mayCount (if c then x else y) w := by
  rw [FollowsAt, ends_ite]
  exact ⟨yes, no⟩

theorem follows_readEntry {w : Journal × List Save} {f : Entry → Section Phase} {e : Entry}
    (found : w.1.heap.read ref = some (id, e))
    (next : FollowsAt base kind id ref mayCount (f e) w) :
    FollowsAt base kind id ref mayCount (readEntry ref >>= f) w := by
  simp only [FollowsAt, readEntry, readJournal, ends_bind, ends_get, ends_pure, found]
  exact next

theorem follows_modifyEntry {w : Journal × List Save} {f : Unit → Section Phase}
    {change : Entry → Entry} (edited : Edited base w.1)
    (sets : ∀ e call, (change e).did call = false → e.did call = false)
    (next : ∀ t : Journal × List Save, t.1 = w.1.modifyEntry ref change → t.2 = w.2 →
      Edited base t.1 → FollowsAt base kind id ref mayCount (f ()) t) :
    FollowsAt base kind id ref mayCount (modifyEntry ref change >>= f) w := by
  simp only [FollowsAt, modifyEntry, modifyJournal, ends_bind, ends_modify]
  exact next _ rfl rfl (edited.trans (modifyEntry_edited _ _ sets))

theorem follows_save {w : Journal × List Save} {f : Unit → Section Phase}
    (edited : Edited base w.1)
    (next : ∀ t : Journal × List Save, t.1.heap = w.1.heap → willSave w.2 = true →
      Edited base t.1 → FollowsAt base kind id ref mayCount (f ()) t) :
    FollowsAt base kind id ref mayCount (saveIdempotencyState settings >>= f) w := by
  rw [FollowsAt, ends_bind]
  refine save_edits.mono ?_ fun _ t kept => edited.trans kept
  rintro - t ⟨kept, heap, saved⟩
  exact next t heap saved (edited.trans kept)

end Sections

section Completing
variable {settings : Settings} {base : Journal} {kind : RequestKind} {mayCount : Prop}
  {job : Job} {e₀ : Entry} {w : Journal × List Save}

theorem completing_follows (job : Job) {stage : Completion} {e : Entry} (j : Journal)
    (suits : (Phase.completing job stage).suits kind)
    (found : j.heap.read job.entry = some (job.submissionId, e))
    (unset : ∀ known call, (Phase.completing job stage).awaits = some (known, call) →
      e.did call = false)
    (counter : mayCount ∨ stage = .journal ∨ stage = .status) :
    (Phase.completing job stage).Follows kind job.submissionId job.entry mayCount j where
  owns := rfl
  suits := suits
  entry known eq := (Option.some.inj eq).symm
  unset known call eq := ⟨e, found, unset known call eq⟩
  counter known call eq isCounter := by
    rcases counter with may | rfl | rfl
    · exact may
    · simp [Phase.awaits] at eq
    · obtain ⟨-, rfl⟩ := Prod.mk.inj (Option.some.inj eq)
      simp [SubmitCall.isCounter] at isCounter

variable (held : base.heap.read job.entry = some (job.submissionId, e₀))
include held

theorem finishEntry_follows (edited : Edited base w.1) :
    FollowsAt base kind job.submissionId job.entry mayCount (finishEntry settings job) w := by
  refine follows_modifyEntry edited (fun e call => by cases call <;> exact id) ?_
  intro t₁ _ _ edited₁
  refine follows_save edited₁ fun t₂ _ _ edited₂ => ?_
  obtain ⟨e, found⟩ := edited₂.held _ _ _ held
  exact follows_readEntry found (follows_pure edited₂ (settled_follows _ _))

variable (may : mayCount)
include may

theorem countUser_follows (edited : Edited base w.1) :
    FollowsAt base kind job.submissionId job.entry mayCount (countUser settings job) w := by
  obtain ⟨e, found⟩ := edited.held _ _ _ held
  refine follows_readEntry found (follows_ite (fun _ => finishEntry_follows held edited) ?_)
  intro unset
  refine follows_pure edited (completing_follows job _ ?_ found ?_ (.inl may))
  · cases kind with
    | submit => trivial
    | status => exact .inr rfl
  · intro known call eq
    obtain ⟨-, rfl⟩ := Prod.mk.inj (Option.some.inj eq)
    simpa [Entry.did] using unset

theorem countProblem_follows (edited : Edited base w.1) :
    FollowsAt base kind job.submissionId job.entry mayCount (countProblem settings job) w := by
  obtain ⟨e, found⟩ := edited.held _ _ _ held
  refine follows_readEntry found (follows_ite (fun _ => countUser_follows held may edited) ?_)
  intro unset
  refine follows_pure edited (completing_follows job _ ?_ found ?_ (.inl may))
  · cases kind with
    | submit => trivial
    | status => exact .inl rfl
  · intro known call eq
    obtain ⟨-, rfl⟩ := Prod.mk.inj (Option.some.inj eq)
    simpa [Entry.did] using unset

omit held may in
/- Whoever is not a submit must have set the flag before. -/
theorem updateStatus_follows (job : Job)
    (held : base.heap.read job.entry = some (job.submissionId, e₀)) (may : mayCount) (edited : Edited base w.1)
    (ready : kind = .submit ∨
      ∃ e, w.1.heap.read job.entry = some (job.submissionId, e) ∧ e.statusUpdated = true) :
    FollowsAt base kind job.submissionId job.entry mayCount (updateStatus settings job) w := by
  obtain ⟨e, found⟩ := edited.held _ _ _ held
  refine follows_readEntry found (follows_ite (fun _ => countProblem_follows held may edited) ?_)
  intro unset
  have submit : kind = .submit := by
    rcases ready with submit | ⟨e', found', done⟩
    · exact submit
    · rw [found] at found'
      obtain ⟨-, rfl⟩ := Prod.mk.inj (Option.some.inj found')
      exact absurd done unset
  subst submit
  rw [FollowsAt, ends_bind, callUpdateStatus, modifyJournal, ends_modify, ends_pure]
  have called : Edited w.1 (w.1.callUpdateStatus job.submissionId job.rid) :=
    .of_same rfl rfl rfl rfl
  refine ⟨edited.trans called, completing_follows job _ trivial found ?_ (.inr (.inr rfl))⟩
  intro known call eq
  obtain ⟨-, rfl⟩ := Prod.mk.inj (Option.some.inj eq)
  simpa [Entry.did] using unset

omit held may in
theorem completeSubmissionEntry_follows (job : Job)
    (held : base.heap.read job.entry = some (job.submissionId, e₀)) (may : mayCount)
    {recovering : Bool} (edited : Edited base w.1)
    (ready : kind = .submit ∨ recovering = false ∧
      ∃ e, w.1.heap.read job.entry = some (job.submissionId, e) ∧ e.statusUpdated = true) :
    FollowsAt base kind job.submissionId job.entry mayCount
      (completeSubmissionEntry settings job recovering) w := by
  obtain ⟨e, found⟩ := edited.held _ _ _ held
  refine follows_readEntry found (follows_ite ?_ ?_)
  · intro waits
    have submit : kind = .submit := by
      rcases ready with submit | ⟨rfl, -⟩
      · exact submit
      · simp at waits
    subst submit
    exact follows_pure edited (completing_follows { job with rid := e.rid } _ trivial
      found (fun _ _ eq => by simp [Phase.awaits] at eq) (.inr (.inl rfl)))
  · exact fun _ => updateStatus_follows { job with rid := e.rid } held may edited
      (ready.imp_right And.right)

end Completing

end NoiContest.HydroPlugin
