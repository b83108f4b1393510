import NoiContest.HydroPlugin.CounterMoves

/- Over a whole run of one process: each of the three calls is executed or under way at most
   once for an id, as long as the requests of one id take turns at the counters. -/
namespace NoiContest.HydroPlugin
open Effect

/- While the process is up. A flag that is unset means a call that was never executed, and so
   does a call that is under way. -/
structure Tally.Open (t : Tally) : Prop where
  single : ∀ ref ref' id e e', t.plugin.journal.heap.read ref = some (id, e) →
    t.plugin.journal.heap.read ref' = some (id, e') → ref = ref'
  named : ∀ id ref, t.plugin.journal.entries.get? id = some ref →
    ∃ e, t.plugin.journal.heap.read ref = some (id, e)
  sits : ∀ (i : Nat) (r : Request), t.plugin.requests[i]? = some r →
    r.Sits t.plugin.journal i
  untouched : ∀ ref id e call, t.plugin.journal.heap.read ref = some (id, e) →
    e.did call = false → t.executed.count (id, call) = 0
  known : ∀ id call, (id, call) ∈ t.executed →
    ∃ ref e, t.plugin.journal.heap.read ref = some (id, e)
  fresh : ∀ (i : Nat) (r : Request) id call, t.plugin.requests[i]? = some r →
    r.phase.awaits = some (id, call) → t.executed.count (id, call) = 0
  apart : ∀ (i k : Nat) (r r' : Request) id, t.plugin.requests[i]? = some r →
    t.plugin.requests[k]? = some r' → r.phase.counting id = true → r'.phase.counting id = true → i = k

structure Tally.Inv (t : Tally) : Prop where
  once : ∀ id call, t.executed.count (id, call) ≤ 1
  serving : t.plugin.up = true → t.Open
  down : t.plugin.up = false → t.plugin.requests = []

/- What a run needs to know of an event that returned one of the calls. -/
structure Marked (t : Tally) (own : Nat) (j : Journal) (ret : Option (String × SubmitCall)) :
    Prop where
  awaited : ∀ known call, ret = some (known, call) →
    ∃ r, t.plugin.requests[own]? = some r ∧ r.phase.awaits = some (known, call)
  done : ∀ known call, ret = some (known, call) →
    ∃ ref e, t.plugin.journal.heap.read ref = some (known, e) ∧ j.Did known ref call

theorem counting_awaits {phase : Phase} {id : String} (counting : phase.counting id = true) :
    ∃ call, phase.awaits = some (id, call) ∧ call.isCounter = true := by
  simp only [Phase.counting, Bool.or_eq_true, beq_iff_eq] at counting
  rcases counting with awaits | awaits
  · exact ⟨.inc, awaits, rfl⟩
  · exact ⟨.incUserInDomain, awaits, rfl⟩

theorem awaits_counting {phase : Phase} {id : String} {call : SubmitCall}
    (awaits : phase.awaits = some (id, call)) (counter : call.isCounter = true) :
    phase.counting id = true := by
  cases call with
  | updateStatus => simp [SubmitCall.isCounter] at counter
  | inc => simp [Phase.counting, awaits]
  | incUserInDomain => simp [Phase.counting, awaits]

theorem everHeld_read {j : Journal} {id : String} (absent : j.everHeld id = false) {ref : Nat}
    {e : Entry} : j.heap.read ref ≠ some (id, e) := by
  intro found
  have mem : (id, e) ∈ j.heap.objects := List.mem_of_getElem? found
  simp only [Journal.everHeld, List.any_eq_false, beq_iff_eq] at absent
  exact absent _ mem rfl

/- Two requests that await the same call for the same id are one request: a counter by the
   invariant, updateStatus because only the submit in the in-flight map calls it. -/
theorem Tally.Open.alone {t : Tally} (inv : t.Open) {i k : Nat} {r r' : Request} {id : String}
    {call : SubmitCall} (first : t.plugin.requests[i]? = some r)
    (second : t.plugin.requests[k]? = some r') (awaits : r.phase.awaits = some (id, call))
    (awaits' : r'.phase.awaits = some (id, call)) : i = k := by
  by_cases counter : call.isCounter = true
  · exact inv.apart i k r r' id first second (awaits_counting awaits counter)
      (awaits_counting awaits' counter)
  · obtain rfl : call = .updateStatus := by
      cases call with
      | updateStatus => rfl
      | _ => simp [SubmitCall.isCounter] at counter
    have submits : ∀ (n : Nat) (q : Request), t.plugin.requests[n]? = some q →
        q.phase.awaits = some (id, .updateStatus) →
        t.plugin.journal.owner .submit id = some n := by
      intro n q found waits
      have sits := inv.sits n q found
      obtain ⟨ref, entry⟩ := Phase.awaits_entry waits
      obtain ⟨same, -⟩ := sits.entry _ _ entry
      have kind : q.kind = .submit := by
        cases kind : q.kind with
        | submit => rfl
        | status =>
          have suits := sits.suits
          rw [kind] at suits
          cases phase : q.phase with
          | completing job stage =>
            rw [phase] at suits waits
            rcases suits with rfl | rfl <;> simp [Phase.awaits] at waits
          | _ => simp [phase, Phase.awaits] at waits
      have owner := sits.owner (Phase.awaits_owns waits)
      rwa [kind, ← same] at owner
    have eq := (submits i r first awaits).symm.trans (submits k r' second awaits')
    exact Option.some.inj eq

section Steps
variable {t : Tally} {self : Nat} {kind : RequestKind} {id : String} {mayCount : Prop}
  {j : Journal} {phase : Phase} {requests : List Request} {ret : Option (String × SubmitCall)}

/- The request list after the event, which changed one place of it. -/
structure Placed (before : List Request) (own : Nat) (r : Request) (after : List Request) :
    Prop where
  here : after[own]? = some r
  elsewhere : ∀ k, k ≠ own → after[k]? = before[k]?

theorem count_returned (executed : List (String × SubmitCall)) (call : String × SubmitCall) :
    (executed ++ ret.toList).count call =
      executed.count call + if ret = some call then 1 else 0 := by
  rw [List.count_append]
  cases ret with
  | none => simp
  | some returned => by_cases same : returned = call <;> simp [same]

/- An id has one entry object: a reservation is the first one. -/
theorem moved_single (inv : t.Open)
    (moved : Moved self kind id mayCount t.plugin.journal j phase) {ref ref' : Nat}
    {known : String} {e e' : Entry} (found : j.heap.read ref = some (known, e))
    (found' : j.heap.read ref' = some (known, e')) : ref = ref' := by
  rcases moved.objects ref known e found with ⟨old, read, -⟩ | ⟨rfl, rfl, absent⟩
  · rcases moved.objects ref' known e' found' with ⟨old', read', -⟩ | ⟨rfl, rfl, absent⟩
    · exact inv.single ref ref' known old old' read read'
    · exact absurd read (everHeld_read absent)
  · rcases moved.objects ref' known e' found' with ⟨old', read', -⟩ | ⟨rfl, -, -⟩
    · exact absurd read' (everHeld_read absent)
    · rfl

theorem moved_untouched (inv : t.Open)
    (moved : Moved self kind id mayCount t.plugin.journal j phase) (marked : Marked t self j ret)
    {ref : Nat} {known : String} {e : Entry} {call : SubmitCall}
    (found : j.heap.read ref = some (known, e)) (unset : e.did call = false) :
    (t.executed ++ ret.toList).count (known, call) = 0 := by
  have other : ret ≠ some (known, call) := by
    intro same
    obtain ⟨ref', old, read, did⟩ := marked.done known call same
    obtain ⟨e', found'⟩ := moved.held ref' known old read
    obtain rfl := moved_single inv moved found found'
    simp [did e found] at unset
  rw [count_returned, if_neg other, Nat.add_zero]
  rcases moved.objects ref known e found with ⟨old, read, flags⟩ | ⟨-, rfl, absent⟩
  · exact inv.untouched ref known old call read (flags call unset)
  · refine List.count_eq_zero.mpr fun mem => ?_
    obtain ⟨ref', old, read⟩ := inv.known known call mem
    exact everHeld_read absent read

/-- The step lemma: a move of one request keeps the invariant, if it comes to await a counter
    only while no other request of its id does. -/
theorem moved_open (inv : t.Open)
    (moved : Moved self kind id mayCount t.plugin.journal j phase) (marked : Marked t self j ret)
    (placed : Placed t.plugin.requests self ⟨kind, id, phase⟩ requests)
    (turns : mayCount → ∀ (k : Nat) (r : Request), k ≠ self → t.plugin.requests[k]? = some r →
      r.phase.counting id = false) (up : Bool) :
    Tally.Open ⟨⟨j, up, requests⟩, t.executed ++ ret.toList⟩ where
  single ref ref' known e e' found found' := moved_single inv moved found found'
  named known ref entry := by
    rcases moved.entries known ref entry with old | found
    · obtain ⟨e, read⟩ := inv.named known ref old
      exact moved.held ref known e read
    · exact found
  sits k r found := by
    by_cases same : k = self
    · subst same
      obtain rfl := Option.some.inj (placed.here.symm.trans found)
      exact moved.sits
    · have old := inv.sits k r ((placed.elsewhere k same).symm.trans found)
      refine ⟨fun owns => ?_, old.suits, ?_, old.looking⟩
      · have mine := old.owner owns
        rcases moved.owners r.kind r.submissionId with kept | ⟨rfl, rfl, free | taken⟩
        · exact kept.trans mine
        · rw [free] at mine
          cases mine
        · exact absurd (Option.some.inj (mine.symm.trans taken)) same
      · intro known ref entry
        obtain ⟨named, e, read⟩ := old.entry known ref entry
        exact ⟨named, moved.held ref known e read⟩
  untouched ref known e call found unset := moved_untouched inv moved marked found unset
  known known call mem := by
    have before : ∃ ref e, t.plugin.journal.heap.read ref = some (known, e) := by
      rcases List.mem_append.mp mem with old | new
      · exact inv.known known call old
      · obtain ⟨r, found, awaits⟩ := marked.awaited known call (by simpa using new)
        obtain ⟨ref, entry⟩ := Phase.awaits_entry awaits
        obtain ⟨-, e, read⟩ := (inv.sits self r found).entry known ref entry
        exact ⟨ref, e, read⟩
    obtain ⟨ref, e, read⟩ := before
    exact ⟨ref, moved.held ref known e read⟩
  fresh k r known call found awaits := by
    by_cases same : k = self
    · subst same
      obtain rfl := Option.some.inj (placed.here.symm.trans found)
      obtain ⟨ref, e, read, unset⟩ := moved.unset known call awaits
      exact moved_untouched inv moved marked read unset
    · have old := (placed.elsewhere k same).symm.trans found
      have other : ret ≠ some (known, call) := by
        intro returned
        obtain ⟨r', found', awaits'⟩ := marked.awaited known call returned
        exact same (inv.alone old found' awaits awaits')
      rw [count_returned, if_neg other, Nat.add_zero]
      exact inv.fresh k r known call old awaits
  apart i k r r' known found found' counting counting' := by
    have mine : ∀ (n : Nat) (q : Request), n ≠ self → requests[n]? = some q →
        q.phase.counting known = true → phase.counting known = true → False := by
      intro n q other place counts own
      obtain ⟨call, awaits, counter⟩ := counting_awaits own
      obtain ⟨ref, entry⟩ := Phase.awaits_entry awaits
      obtain ⟨rfl, -⟩ := moved.sits.entry known ref entry
      have quiet := turns (moved.counter known call awaits counter) n q other
        ((placed.elsewhere n other).symm.trans place)
      simp [counts] at quiet
    by_cases first : i = self
    · by_cases second : k = self
      · rw [first, second]
      · subst first
        obtain rfl := Option.some.inj (placed.here.symm.trans found)
        exact (mine k r' second found' counting' counting).elim
    · by_cases second : k = self
      · subst second
        obtain rfl := Option.some.inj (placed.here.symm.trans found')
        exact (mine i r first found counting counting').elim
      · exact inv.apart i k r r' known ((placed.elsewhere i first).symm.trans found)
          ((placed.elsewhere k second).symm.trans found') counting counting'

theorem returned_once (inv : t.Inv) (serving : t.Open) (marked : Marked t self j ret)
    (known : String) (call : SubmitCall) : (t.executed ++ ret.toList).count (known, call) ≤ 1 := by
  rw [count_returned]
  by_cases returned : ret = some (known, call)
  · obtain ⟨r, found, awaits⟩ := marked.awaited known call returned
    simp [serving.fresh self r known call found awaits, returned]
  · rw [if_neg returned]
    exact inv.once known call

theorem placed_append (before : List Request) (r : Request) :
    Placed before before.length r (before ++ [r]) where
  here := by simp
  elsewhere k distinct := by
    rcases Nat.lt_or_gt_of_ne distinct with earlier | later
    · exact List.getElem?_append_left earlier
    · have beyond : (before ++ [r]).length ≤ k := by
        rw [List.length_append, List.length_singleton]
        omega
      exact (List.getElem?_eq_none beyond).trans (List.getElem?_eq_none (Nat.le_of_lt later)).symm

theorem placed_setPhase {p : Plugin} {r : Request} (found : p.requests[self]? = some r)
    (phase : Phase) :
    Placed p.requests self ⟨r.kind, r.submissionId, phase⟩ (p.setPhase self phase) where
  here := by simp [Plugin.setPhase, found]
  elsewhere k distinct := by
    rw [Plugin.setPhase, List.getElem?_modify]
    have other : ¬ self = k := fun same => distinct same.symm
    simp [other]

/-- A section keeps the invariant, however it ends. -/
theorem perform_inv {work : Section Phase} {saves : List Save} {record : Phase → List Request}
    (inv : t.Inv) (up : t.plugin.up = true)
    (moves : MovesAt self kind id mayCount t.plugin.journal work (t.plugin.journal, saves))
    (marks : Ends work (t.plugin.journal, saves) (fun _ w => Marked t self w.1 ret)
      (fun _ w => Marked t self w.1 ret))
    (placed : ∀ phase, Placed t.plugin.requests self ⟨kind, id, phase⟩ (record phase))
    (turns : mayCount → ∀ (k : Nat) (r : Request), k ≠ self → t.plugin.requests[k]? = some r →
      r.phase.counting id = false) :
    Tally.Inv ⟨t.plugin.perform work saves record, t.executed ++ ret.toList⟩ := by
  have serving := inv.serving up
  have both := Ends.and moves marks
  unfold Ends at both
  unfold Plugin.perform
  split at both <;> rename_i outcome
  · obtain ⟨moved, marked⟩ := both
    simp only [outcome]
    exact ⟨returned_once inv serving marked,
      fun _ => moved_open serving moved marked (placed _) turns _, fun down => by simp [up] at down⟩
  · obtain ⟨edited, marked⟩ := both
    rename_i fault _
    simp only [outcome]
    cases fault with
    | crash =>
      exact ⟨returned_once inv serving marked, fun running => by simp at running, fun _ => rfl⟩
    | raised failure =>
      have moved : Moved self kind id mayCount t.plugin.journal _ (.finished (.error failure)) :=
        finished_moved (edited (by simp)) _
      exact ⟨returned_once inv serving marked,
        fun _ => moved_open serving moved marked (placed _) turns _,
        fun down => by simp [up] at down⟩

theorem silent_marked (self : Nat) (j : Journal) : Marked t self j none where
  awaited known call eq := by cases eq
  done known call eq := by cases eq

theorem ends_silent {work : Section Phase} {w : Journal × List Save} :
    Ends work w (fun _ u => Marked t self u.1 none) (fun _ u => Marked t self u.1 none) := by
  unfold Ends
  split <;> exact silent_marked _ _

theorem finished_sits (j : Journal) (own : Nat) (kind : RequestKind) (id : String)
    (outcome : Except Failure Reply) : Request.Sits j own ⟨kind, id, .finished outcome⟩ where
  owner owns := by simp [Phase.owns] at owns
  suits := by cases kind <;> trivial
  entry _ _ eq := by cases eq
  looking _ _ eq := by cases eq

/- The owner of a settled promise leaves its in-flight map, and nobody else does. -/
theorem conclude_inv (inv : t.Inv) (request : Nat) :
    Tally.Inv ⟨t.plugin.conclude request, t.executed ++ (none : Option _).toList⟩ := by
  have same : Tally.Inv ⟨t.plugin, t.executed ++ (none : Option _).toList⟩ := by
    simpa using inv
  unfold Plugin.conclude
  cases found : t.plugin.requests[request]? with
  | none => exact same
  | some r =>
    have up : t.plugin.up = true := by
      by_contra down
      simp [inv.down (by simpa using down)] at found
    have serving := inv.serving up
    have once := returned_once inv serving (silent_marked request t.plugin.journal)
    have finish : ∀ (j : Journal) (outcome : Except Failure Reply),
        Moved request r.kind r.submissionId False t.plugin.journal j (.finished outcome) →
        Tally.Inv ⟨{ t.plugin with
            journal := j
            requests := t.plugin.setPhase request (.finished outcome) },
          t.executed ++ (none : Option _).toList⟩ := by
      intro j outcome moved
      exact ⟨once, fun _ => moved_open serving moved (silent_marked _ _) (placed_setPhase found _)
        (fun impossible => impossible.elim) _, fun down => by simp [up] at down⟩
    dsimp only
    cases phase : r.phase with
    | settled outcome =>
      refine finish _ outcome ?_
      have owner := (serving.sits request r found).owner (by simp [phase, Phase.owns])
      have idle : Moved request r.kind r.submissionId False t.plugin.journal t.plugin.journal
          (.finished outcome) := finished_moved (.refl _) _
      cases kind : r.kind with
      | submit =>
        rw [kind] at idle owner
        refine { idle with owners := ?_, sits := finished_sits _ _ _ _ _ }
        intro other known
        by_cases mine : other = .submit ∧ known = r.submissionId
        · exact .inr ⟨mine.1, mine.2, .inr owner⟩
        · refine .inl ?_
          cases other with
          | submit =>
            have distinct : known ≠ r.submissionId := fun eq => mine ⟨rfl, eq⟩
            simp [Journal.owner, Journal.forget, Dict.get?_erase, distinct]
          | status => rfl
      | status =>
        rw [kind] at idle owner
        refine { idle with owners := ?_, sits := finished_sits _ _ _ _ _ }
        intro other known
        by_cases mine : other = .status ∧ known = r.submissionId
        · exact .inr ⟨mine.1, mine.2, .inr owner⟩
        · refine .inl ?_
          cases other with
          | submit => rfl
          | status =>
            have distinct : known ≠ r.submissionId := fun eq => mine ⟨rfl, eq⟩
            simp [Journal.owner, Journal.forget, Dict.get?_erase, distinct]
    | joined promise =>
      dsimp only
      split
      · exact finish _ _ (finished_moved (.refl _) _)
      · exact same
    | _ => exact same

end Steps

/- An answer that is not the awaited one leaves everything as it was. -/
theorem perform_stays {p : Plugin} {request : Nat} {r : Request} {work : Section Phase}
    {saves : List Save} (found : p.requests[request]? = some r)
    (stays : work (p.journal, saves) = .ok r.phase (p.journal, saves)) :
    p.perform work saves (p.setPhase request) = p := by
  have same : p.setPhase request r.phase = p.requests := by
    refine List.ext_getElem? fun k => ?_
    rw [Plugin.setPhase, List.getElem?_modify]
    by_cases here : request = k
    · subst here
      simp [found]
    · simp [here]
  simp [Plugin.perform, stays, same]

theorem resume_marked (settings : Settings) (answer : Answer) (saves : List Save) {t : Tally}
    {request : Nat} {r : Request} (serving : t.Open)
    (found : t.plugin.requests[request]? = some r) :
    Ends (resume settings request r.phase answer) (t.plugin.journal, saves)
      (fun _ w => Marked t request w.1 (t.plugin.returned (.post (.resume request answer saves))))
      (fun _ w => Marked t request w.1
        (t.plugin.returned (.post (.resume request answer saves)))) := by
  cases awaits : t.plugin.returned (.post (.resume request answer saves)) with
  | none => exact ends_silent
  | some returned =>
    obtain ⟨id, call⟩ := returned
    have isDone : answer = .done ∧ r.phase.awaits = some (id, call) := by
      cases answer <;> simp_all [Plugin.returned]
    obtain ⟨rfl, awaited⟩ := isDone
    cases phase : r.phase with
    | completing job stage =>
      rw [phase] at awaited
      have sits := serving.sits request r found
      obtain ⟨-, e, held⟩ := sits.entry job.submissionId job.entry (by rw [phase]; rfl)
      obtain rfl : job.submissionId = id := by
        obtain ⟨ref, entry⟩ := Phase.awaits_entry awaited
        exact congrArg Prod.fst (Option.some.inj entry)
      have marked : ∀ j : Journal, j.Did job.submissionId job.entry call →
          Marked t request j (some (job.submissionId, call)) := by
        intro j did
        constructor
        · intro known call' eq
          obtain ⟨rfl, rfl⟩ := Prod.mk.inj (Option.some.inj eq)
          exact ⟨r, found, by rw [phase]; exact awaited⟩
        · intro known call' eq
          obtain ⟨rfl, rfl⟩ := Prod.mk.inj (Option.some.inj eq)
          exact ⟨job.entry, e, held, did⟩
      exact (resumeCompletion_done held awaited).mono (fun _ w did => marked w.1 did)
        fun _ w did => marked w.1 did
    | _ => simp [phase, Phase.awaits] at awaited

/-- The invariant over one event of a process that is not started again. -/
theorem step_inv {settings : Settings} (t : Tally) (event : Event) (inv : t.Inv)
    (guarded : event.restarts = false ∧ t.CountsApart settings event) :
    (t.step settings event).Inv := by
  obtain ⟨running, turns⟩ := guarded
  cases event with
  | status headerToken submissionId saves =>
    simp only [Tally.step, Plugin.stepAny]
    split
    · rename_i up
      have moves : MovesAt t.plugin.requests.length .status submissionId False t.plugin.journal
          (submissionStatus settings t.plugin.requests.length headerToken submissionId)
          (t.plugin.journal, saves) := submissionStatus_moves (inv.serving up).named
      exact perform_inv inv up moves ends_silent (fun phase => placed_append _ _)
        (fun impossible => impossible.elim)
    · simpa [Plugin.returned] using inv
  | post event =>
    cases event with
    | arrive body contestLocked saves =>
      simp only [Tally.step, Plugin.stepAny, Plugin.step]
      split
      · rename_i up
        refine perform_inv inv up (submit_moves (inv.serving up).named id) ends_silent
          (fun phase => placed_append _ _) ?_
        intro goes k r distinct found
        exact turns.apart body.submissionId (by simp [Plugin.goesOn, goes]) r
          (List.mem_of_getElem? found)
      · simpa [Plugin.returned] using inv
    | resume request answer saves =>
      cases found : t.plugin.requests[request]? with
      | none =>
        have quiet : t.plugin.returned (.post (.resume request answer saves)) = none := by
          cases answer <;> simp [Plugin.returned, found]
        simpa [Tally.step, Plugin.stepAny, Plugin.step, found, quiet] using inv
      | some r =>
        have up : t.plugin.up = true := by
          by_contra down
          simp [inv.down (by simpa using down)] at found
        have serving := inv.serving up
        have marks := resume_marked settings answer saves serving found
        have moves := resume_moves settings saves answer
          (r.phase.goesOn settings t.plugin.journal (willSave saves) answer = true ∨
            r.phase.counting r.submissionId = true) (serving.sits request r found) serving.named
          .inl .inr fun id reserves => turns.unpruned id (by simpa [Plugin.reserves, found])
        rcases moves with ⟨stays, silent⟩ | moves
        · have quiet : t.plugin.returned (.post (.resume request answer saves)) = none := by
            cases answer <;> simp_all [Plugin.returned]
          simp only [Tally.step, Plugin.stepAny, Plugin.step, found, quiet]
          rw [perform_stays found (stays _)]
          simpa using inv
        · simp only [Tally.step, Plugin.stepAny, Plugin.step, found]
          refine perform_inv inv up moves marks (placed_setPhase found) ?_
          rintro (goes | counting) k q distinct other
          · exact turns.apart r.submissionId (by simp [Plugin.goesOn, found, goes]) q
              (List.mem_of_getElem? other)
          · by_contra counts
            exact distinct (serving.apart k request q r r.submissionId other found
              (by simpa using counts) counting)
    | conclude request => exact conclude_inv inv request
    | crash =>
      refine ⟨fun id call => ?_, fun up => by simp [Tally.step, Plugin.stepAny, Plugin.step,
        Plugin.crash] at up, fun _ => rfl⟩
      simpa [Tally.step, Plugin.returned] using inv.once id call
    | restart save => simp [Event.restarts] at running

theorem foldl_loadEntry_objects (items : List (String × Entry))
    (loaded : Dict String Nat × Heap (String × Entry)) :
    (items.foldl loadEntry loaded).2.objects = loaded.2.objects ++ items := by
  induction items generalizing loaded with
  | nil => simp
  | cons item rest ih => simp [ih, loadEntry, Heap.allocate]

theorem restart_saved (settings : Settings) (p : Plugin) :
    p.restart settings .saved = ⟨(p.journal.load.prune settings.maxEntries).write, true, []⟩ := rfl

/- Right after the start every entry of the file is one object. -/
theorem start_inv (settings : Settings) (file : Dict String Entry) :
    (Tally.start settings file).Inv where
  once id call := by simp [Tally.start]
  down _ := by simp [Tally.start, restart_saved]
  serving _ := by
    have heap : (Tally.start settings file).plugin.journal.heap.objects = file.items := by
      simp only [Tally.start, restart_saved, Journal.write, prune_heap, Journal.load,
        foldl_loadEntry_objects]
      rfl
    have nothing : (Tally.start settings file).plugin.requests = [] := rfl
    refine ⟨?_, ?_, ?_, ?_, ?_, ?_, ?_⟩
    · intro ref ref' id e e' found found'
      simp only [Heap.read, heap] at found found'
      obtain ⟨bound, at_⟩ := List.getElem?_eq_some_iff.mp found
      obtain ⟨bound', at_'⟩ := List.getElem?_eq_some_iff.mp found'
      refine (List.nodup_iff_injective_get.mp file.distinct ?_ :
        (⟨ref, by simpa using bound⟩ : Fin _) = ⟨ref', by simpa using bound'⟩) |> Fin.mk.inj
      simp [at_, at_']
    · intro id ref entry
      have kept : (file.items.foldl loadEntry (Dict.empty, Heap.empty)).1.get? id = some ref :=
        prune_entries_sub (j := (Plugin.installed file).journal.load) entry
      obtain ⟨e, found, -⟩ := foldl_loadEntry_owned file.items file.items
        (Dict.empty, Heap.empty) (fun _ mem => mem) (fun _ _ impossible => by simp at impossible)
        id ref kept
      refine ⟨e, ?_⟩
      simp only [Tally.start, restart_saved, Journal.write, prune_heap]
      exact found
    · intro i r found
      simp [nothing] at found
    · intro ref id e call _ _
      simp [Tally.start]
    · intro id call mem
      simp [Tally.start] at mem
    · intro i r id call found
      simp [nothing] at found
    · intro i k r r' id found
      simp [nothing] at found

theorem countP_le_one {α : Type} {p : α → Bool} : ∀ {l : List α},
    (∀ (i k : Nat) (a b : α), l[i]? = some a → l[k]? = some b → p a = true → p b = true → i = k) →
    l.countP p ≤ 1
  | [], _ => by simp
  | a :: rest, alone => by
    have later : rest.countP p ≤ 1 := countP_le_one fun i k b c first second hit hit' =>
      Nat.succ.inj (alone (i + 1) (k + 1) b c (by simpa using first) (by simpa using second) hit
        hit')
    by_cases here : p a = true
    · have none_later : rest.countP p = 0 := by
        refine List.countP_eq_zero.mpr fun b mem hit => ?_
        obtain ⟨k, found⟩ := List.getElem?_of_mem mem
        have same := alone 0 (k + 1) a b rfl (by simpa using found) here hit
        omega
      simp [here, none_later]
    · simpa [here] using later

theorem Tally.Inv.calls_le_one {t : Tally} (inv : t.Inv) (id : String) (call : SubmitCall) :
    t.calls id call ≤ 1 := by
  unfold Tally.calls
  cases up : t.plugin.up with
  | false => simpa [inv.down up] using inv.once id call
  | true =>
    have serving := inv.serving up
    by_cases waiting : ∃ r ∈ t.plugin.requests, r.phase.awaits = some (id, call)
    · obtain ⟨r, mem, awaits⟩ := waiting
      obtain ⟨i, found⟩ := List.getElem?_of_mem mem
      have one : t.plugin.requests.countP (·.phase.awaits == some (id, call)) ≤ 1 := by
        refine countP_le_one fun i k a b first second hit hit' => ?_
        exact serving.alone first second (by simpa using hit) (by simpa using hit')
      rw [serving.fresh i r id call found awaits]
      omega
    · have none_waiting : t.plugin.requests.countP (·.phase.awaits == some (id, call)) = 0 :=
        List.countP_eq_zero.mpr fun r mem hit => waiting ⟨r, mem, by simpa using hit⟩
      rw [none_waiting]
      exact inv.once id call

def sampleRid : Rid := ⟨"0123456789abcdef0123456a", by decide⟩

/- The record that Hydro made for the sample submission, judged. -/
def sampleRecord : Record where
  id := sampleRid
  domainId := "system"
  contest := "0123456789abcdef01234567"
  pid := 3
  uid := 7
  lang := "cc.cc14o2"
  code := "int main(){}"
  orchestratorSubmissionId := sampleId
  orchestratorPayloadSha256 :=
    payloadFingerprint "0123456789abcdef01234567" 7 "P1" "cc.cc14o2" "int main(){}"
  judged := true
  status := some 1
  score := some 100

def sampleItem : JournalItem := ⟨"0123456789abcdef0123456a", 3, 1, 100⟩

/- A submit up to its call of ProblemModel.inc. -/
def countingSubmit : List Event :=
  (PostEvent.arrive sampleBody false [] :: lookUp 0).map .post ++
    [.post (.resume 0 (.added sampleRid) []), .post (.resume 0 .done [])]

/- A status query resolves the entry of a submit that awaits ProblemModel.inc. -/
def recountedRun : List Event :=
  countingSubmit ++
  ([.status (some "orchestrator-token") sampleId [],
    .post (.resume 1 (.candidates [sampleRecord]) []),
    .post (.resume 1 (.journal (some [sampleItem])) []),
    .post (.resume 0 .done []), .post (.resume 1 .done []),
    .post (.resume 0 .done []), .post (.resume 1 .done [])] : List Event)

/- The same query, but its last answer comes when the submit is done. -/
def orderlyRun : List Event :=
  countingSubmit ++
  ([.status (some "orchestrator-token") sampleId [],
    .post (.resume 1 (.candidates [sampleRecord]) []),
    .post (.resume 0 .done []), .post (.resume 0 .done []), .post (.conclude 0),
    .post (.resume 1 (.journal (some [sampleItem])) [])] : List Event)

/- The calls of the first run, and that no request of the second one goes on past a counter. -/
theorem sample_runs :
    (Runs.run (Tally.step sampleSettings) (Tally.start sampleSettings Dict.empty)
        recountedRun).executed = [(sampleId, .updateStatus), (sampleId, .inc), (sampleId, .inc),
          (sampleId, .incUserInDomain), (sampleId, .incUserInDomain)] ∧
      Runs.Guarded (Tally.step sampleSettings) (fun t event => event.restarts = false ∧
        t.CountsApart sampleSettings event) (Tally.start sampleSettings Dict.empty) orderlyRun := by
  -- the digest of the sample is looked up before the runs are evaluated
  delta recountedRun orderlyRun sampleRecord Tally.step Plugin.stepAny Plugin.step resume
    resumeFinding submit SubmitBody.validate recordMatchesSubmissionEntry
  rw [payloadFingerprint_knowing]
  decide +kernel

theorem recounted_twice : (∀ event ∈ recountedRun, event.crashFree = true) ∧
    (Runs.run (Tally.step sampleSettings) (Tally.start sampleSettings Dict.empty)
      recountedRun).executed.count (sampleId, .inc) = 2 ∧
    (Runs.run (Tally.step sampleSettings) (Tally.start sampleSettings Dict.empty)
      recountedRun).executed.count (sampleId, .incUserInDomain) = 2 := by
  rw [sample_runs.1]
  refine ⟨by decide, ?_⟩
  simp

/-- In every run of one process in which no request goes on past updateStatus while another one
    of its id awaits a counter, and no pruned id is reserved again, each of the three calls is
    executed or under way at most once for an id. -/
theorem calls_executed_once (settings : Settings) (file : Dict String Entry)
    (events : List Event)
    (turns : Runs.Guarded (Tally.step settings) (fun t event => event.restarts = false ∧
      t.CountsApart settings event) (Tally.start settings file) events)
    (id : String) (call : SubmitCall) :
    (Runs.run (Tally.step settings) (Tally.start settings file) events).calls id call ≤ 1 :=
  (Runs.guarded_run_invariant Tally.Inv step_inv (start_inv settings file) turns).calls_le_one id
    call

theorem orderly_counts_once :
    (Runs.run (Tally.step sampleSettings) (Tally.start sampleSettings Dict.empty)
      orderlyRun).calls sampleId .inc ≤ 1 :=
  calls_executed_once sampleSettings Dict.empty orderlyRun sample_runs.2 sampleId .inc

end NoiContest.HydroPlugin
