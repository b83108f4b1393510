import NoiContest.HydroPlugin.CounterSections

/- What one event does to its request and to the journal: each handler stretch, from the state
   in which the request is suspended, ends in a move of that request alone. -/
namespace NoiContest.HydroPlugin
open Effect

/- A suspended request is the one in its in-flight map when it works on an entry, and the
   entry is one of its id. -/
structure Request.Sits (j : Journal) (own : Nat) (r : Request) : Prop where
  owner : r.phase.owns = true → j.owner r.kind r.submissionId = some own
  suits : r.phase.suits r.kind
  entry : ∀ known ref, r.phase.entry = some (known, ref) →
    known = r.submissionId ∧ ∃ e, j.heap.read ref = some (known, e)
  looking : ∀ submission stage, r.phase = .lookingUp submission stage →
    submission.submissionId = r.submissionId

/-- The whole effect of a section on the journal and on its own request. -/
structure Moved (own : Nat) (kind : RequestKind) (id : String) (mayCount : Prop)
    (base j : Journal) (phase : Phase) : Prop where
  objects : ∀ ref known e', j.heap.read ref = some (known, e') →
    (∃ e, base.heap.read ref = some (known, e) ∧
      ∀ call, e'.did call = false → e.did call = false) ∨
    (ref = base.heap.fresh ∧ known = id ∧ base.everHeld id = false)
  held : ∀ ref known e, base.heap.read ref = some (known, e) →
    ∃ e', j.heap.read ref = some (known, e')
  entries : ∀ known ref, j.entries.get? known = some ref →
    base.entries.get? known = some ref ∨ ∃ e, j.heap.read ref = some (known, e)
  owners : ∀ other known, j.owner other known = base.owner other known ∨
    (other = kind ∧ known = id ∧ (base.owner kind id = none ∨ base.owner kind id = some own))
  sits : Request.Sits j own ⟨kind, id, phase⟩
  unset : ∀ known call, phase.awaits = some (known, call) →
    ∃ ref e, j.heap.read ref = some (known, e) ∧ e.did call = false
  counter : ∀ known call, phase.awaits = some (known, call) → call.isCounter = true → mayCount

section Moves
variable {self : Nat} {kind : RequestKind} {id : String} {ref : Nat} {mayCount : Prop}
  {base j j' : Journal} {phase : Phase}

theorem follows_moved {e₀ : Entry} (held : base.heap.read ref = some (id, e₀))
    (edited : Edited base j) (follows : phase.Follows kind id ref mayCount j)
    (heap : j'.heap = j.heap) (entries : j'.entries = j.entries)
    (owners : ∀ other known, j'.owner other known = j.owner other known ∨
      (other = kind ∧ known = id ∧ (base.owner kind id = none ∨ base.owner kind id = some self)))
    (owner : j'.owner kind id = some self) : Moved self kind id mayCount base j' phase where
  objects ref known e' found := .inl (edited.objects ref known e' (heap ▸ found))
  held ref known e found := by
    rw [heap]
    exact edited.held ref known e found
  entries known ref entry := .inl (edited.entries known ref (entries ▸ entry))
  owners other known := by
    rw [← edited.owners other known]
    exact owners other known
  sits := {
    owner := fun _ => owner
    suits := follows.suits
    entry := by
      intro known ref' eq
      obtain ⟨rfl, rfl⟩ := Prod.mk.inj (follows.entry _ eq)
      rw [heap]
      exact ⟨rfl, edited.held _ _ _ held⟩
    looking := by
      rintro submission stage eq
      have owns := follows.owns
      simp only at eq
      simp [eq, Phase.owns] at owns }
  unset known call eq := by
    obtain ⟨e, found, undone⟩ := follows.unset known call eq
    obtain ⟨ref', entry⟩ := Phase.awaits_entry eq
    obtain ⟨rfl, -⟩ := Prod.mk.inj (follows.entry _ entry)
    exact ⟨ref, e, heap ▸ found, undone⟩
  counter := follows.counter

/- Outside the work on an entry: the request looks something up, waits for another one, or is
   done. -/
theorem idle_moved (edited : Edited base j) (idle : phase.owns = false)
    (suits : phase.suits kind) (looking : ∀ submission stage,
      phase = .lookingUp submission stage → submission.submissionId = id) :
    Moved self kind id mayCount base j phase where
  objects ref known e' found := .inl (edited.objects ref known e' found)
  held := edited.held
  entries known ref entry := .inl (edited.entries known ref entry)
  owners other known := .inl (edited.owners other known)
  sits := {
    owner := fun owns => by simp [idle] at owns
    suits := suits
    entry := fun known ref eq => by cases phase <;> simp [Phase.owns, Phase.entry] at idle eq
    looking := looking }
  unset known call eq := by simp [Phase.awaits_owns eq] at idle
  counter known call eq := by simp [Phase.awaits_owns eq] at idle

theorem finished_moved (edited : Edited base j) (outcome : Except Failure Reply) :
    Moved self kind id mayCount base j (.finished outcome) :=
  idle_moved edited rfl (by cases kind <;> trivial) fun _ _ eq => by cases eq

theorem joined_moved (promise : Nat) : Moved self kind id mayCount base base (.joined promise) :=
  idle_moved (.refl base) rfl (by cases kind <;> trivial) fun _ _ eq => by cases eq

theorem lookingUp_moved {submission : Submission} (stage : Lookup)
    (same : submission.submissionId = id) :
    Moved self .submit id mayCount base base (.lookingUp submission stage) := by
  refine idle_moved (.refl base) rfl trivial ?_
  intro other stage' eq
  cases eq
  exact same

end Moves

section Claims
variable {settings : Settings} {self : Nat} {id : String} {ref : Nat} {mayCount : Prop}
  {base : Journal} {w : Journal × List Save}

/- A section that is cut off by a crash leaves no process to look at. -/
def MovesAt (self : Nat) (kind : RequestKind) (id : String) (mayCount : Prop) (base : Journal)
    (work : Section Phase) (w : Journal × List Save) : Prop :=
  Ends work w (fun phase t => Moved self kind id mayCount base t.1 phase)
    (fun fault t => fault ≠ .crash → Edited base t.1)

/- A submit enters the in-flight map with the work it has just begun. -/
theorem follows_setInFlight {work : Section Phase} (flight : InFlight) {e₀ : Entry}
    (held : base.heap.read ref = some (id, e₀)) (free : base.owner .submit id = none)
    (mine : flight.promise = self)
    (follows : FollowsAt base .submit id ref mayCount work w) :
    MovesAt self .submit id mayCount base (do
      let phase ← work
      setInFlight id flight
      return phase) w := by
  rw [MovesAt, ends_bind]
  refine follows.mono ?_ fun _ _ kept _ => kept
  rintro phase ⟨j, saves⟩ ⟨edited, kept⟩
  rw [ends_bind, setInFlight, modifyJournal, ends_modify, ends_pure]
  change Moved self .submit id mayCount base { j with inFlight := j.inFlight.set id flight } phase
  refine follows_moved held edited kept rfl rfl ?_ (by simp [Journal.owner, mine])
  intro other known
  by_cases same : other = .submit ∧ known = id
  · exact .inr ⟨same.1, same.2, .inl free⟩
  · refine .inl ?_
    cases other with
    | submit =>
      have distinct : known ≠ id := fun eq => same ⟨rfl, eq⟩
      simp [Journal.owner, Dict.get?_set_ne distinct]
    | status => rfl

theorem follows_setResolving {work : Section Phase} {e₀ : Entry}
    (held : base.heap.read ref = some (id, e₀)) (free : base.owner .status id = none)
    (follows : FollowsAt base .status id ref mayCount work w) :
    MovesAt self .status id mayCount base (do
      let phase ← work
      setResolving id self
      return phase) w := by
  rw [MovesAt, ends_bind]
  refine follows.mono ?_ fun _ _ kept _ => kept
  rintro phase ⟨j, saves⟩ ⟨edited, kept⟩
  rw [ends_bind, setResolving, modifyJournal, ends_modify, ends_pure]
  change Moved self .status id mayCount base { j with resolving := j.resolving.set id self } phase
  refine follows_moved held edited kept rfl rfl ?_ (by simp [Journal.owner])
  intro other known
  by_cases same : other = .status ∧ known = id
  · exact .inr ⟨same.1, same.2, .inl free⟩
  · refine .inl ?_
    cases other with
    | submit => rfl
    | status =>
      have distinct : known ≠ id := fun eq => same ⟨rfl, eq⟩
      simp [Journal.owner, Dict.get?_set_ne distinct]

/- The reservation is the one object that appears, and its id had none. -/
theorem reserveAndAdd_ends_moved {submission : Submission} {problem : Problem}
    {contest : ContestDoc} {createdAt : String} {saves : List Save} :
    Ends (reserveAndAdd settings submission problem contest createdAt) (base, saves)
      (fun phase t => Edited (base.insertEntry submission.submissionId
          (submission.reservation problem contest createdAt)) t.1 ∧
        ∃ call contestDocId problemDocId,
          phase = .adding submission base.heap.fresh call contestDocId problemDocId)
      (fun _ t => Edited (base.insertEntry submission.submissionId
          (submission.reservation problem contest createdAt)) t.1) := by
  simp only [reserveAndAdd, insertEntry, callAdd, readJournal, modifyJournal, ends_bind, ends_get,
    ends_modify, ends_pure]
  refine save_edits.mono ?_ fun _ _ kept => kept
  rintro - t ⟨edited, -⟩
  exact ⟨edited.trans (.of_same rfl rfl rfl rfl), _, _, _, rfl⟩

theorem inserted_moved {submission : Submission} {e : Entry} {flight : InFlight} {j : Journal}
    {phase : Phase} (free : base.owner .submit submission.submissionId = none)
    (absent : base.everHeld submission.submissionId = false) (mine : flight.promise = self)
    (edited : Edited (base.insertEntry submission.submissionId e) j)
    (began : (∃ outcome, phase = .settled outcome) ∨ ∃ call contestDocId problemDocId,
      phase = .adding submission base.heap.fresh call contestDocId problemDocId) :
    Moved self .submit submission.submissionId mayCount base
      { j with inFlight := j.inFlight.set submission.submissionId flight } phase := by
  have new : ∃ e', j.heap.read base.heap.fresh = some (submission.submissionId, e') :=
    edited.held base.heap.fresh submission.submissionId e
      (by simp [Journal.insertEntry, Heap.read_allocate])
  have silent : phase.awaits = none := by
    rcases began with ⟨outcome, rfl⟩ | ⟨call, contestDocId, problemDocId, rfl⟩ <;> rfl
  exact {
    objects := by
      intro ref known e' found
      obtain ⟨old, read, unset⟩ := edited.objects ref known e' found
      simp only [Journal.insertEntry, Heap.read_allocate] at read
      by_cases same : ref = base.heap.fresh
      · simp only [same, if_true] at read
        obtain ⟨rfl, -⟩ := Prod.mk.inj (Option.some.inj read)
        exact .inr ⟨same, rfl, absent⟩
      · simp only [same, if_false] at read
        exact .inl ⟨old, read, unset⟩
    held := by
      intro ref known old read
      refine edited.held ref known old ?_
      have bound := Heap.read_bound read
      have distinct : ref ≠ base.heap.fresh := by omega
      simpa [Journal.insertEntry, Heap.read_allocate, distinct] using read
    entries := by
      intro known ref entry
      have kept := edited.entries known ref entry
      simp only [Journal.insertEntry, Dict.get?_set] at kept
      by_cases same : known = submission.submissionId
      · simp only [same, if_true] at kept
        obtain rfl := Option.some.inj kept
        exact .inr (same ▸ new)
      · simp only [same, if_false] at kept
        exact .inl kept
    owners := by
      intro other known
      by_cases same : other = .submit ∧ known = submission.submissionId
      · exact .inr ⟨same.1, same.2, .inl free⟩
      · refine .inl ?_
        have kept : j.owner other known = base.owner other known :=
          (edited.owners other known).trans (by cases other <;> rfl)
        cases other with
        | submit =>
          have distinct : known ≠ submission.submissionId := fun eq => same ⟨rfl, eq⟩
          simpa [Journal.owner, Dict.get?_set_ne distinct] using kept
        | status => exact kept
    sits := {
      owner := fun _ => by simp [Journal.owner, mine]
      suits := by
        rcases began with ⟨outcome, rfl⟩ | ⟨call, contestDocId, problemDocId, rfl⟩ <;> trivial
      entry := by
        intro known ref eq
        rcases began with ⟨outcome, rfl⟩ | ⟨call, contestDocId, problemDocId, rfl⟩
        · simp [Phase.entry] at eq
        · obtain ⟨rfl, rfl⟩ := Prod.mk.inj (Option.some.inj eq)
          exact ⟨rfl, new⟩
      looking := by
        rintro other stage rfl
        rcases began with ⟨outcome, eq⟩ | ⟨call, contestDocId, problemDocId, eq⟩ <;> cases eq }
    unset := fun known call eq => by simp [silent] at eq
    counter := fun known call eq => by simp [silent] at eq }

end Claims

section Work
variable {settings : Settings} {kind : RequestKind} {mayCount : Prop} {base : Journal}
  {saves : List Save} {submission : Submission} {ref : Nat} {e₀ : Entry}

theorem recoverWith_follows {problemDocId : Int} {contestDocId : String}
    {w : Journal × List Save} (held : base.heap.read ref = some (submission.submissionId, e₀))
    (may : willSave w.2 = true → mayCount) (edited : Edited base w.1) :
    FollowsAt base .submit submission.submissionId ref mayCount
      (recoverWith settings submission ref problemDocId contestDocId) w := by
  refine follows_modifyEntry edited (fun e call => by cases call <;> exact id) ?_
  intro t₁ _ same edited₁
  refine follows_save edited₁ fun t₂ _ saved edited₂ => ?_
  exact completeSubmissionEntry_follows (submission.job ref contestDocId problemDocId) held
    (may (same ▸ saved)) edited₂ (.inl rfl)

theorem recovering_follows {j : Journal} (stage : Recovery) :
    (Phase.recovering submission ref stage).Follows .submit submission.submissionId ref
      mayCount j where
  owns := rfl
  suits := trivial
  entry known eq := (Option.some.inj eq).symm
  unset known call eq := by simp [Phase.awaits] at eq
  counter known call eq := by simp [Phase.awaits] at eq

theorem recoverContest_follows {problemDocId : Int}
    (held : base.heap.read ref = some (submission.submissionId, e₀))
    (may : willSave saves = true → e₀.contestDocId.isSome = true → mayCount) :
    FollowsAt base .submit submission.submissionId ref mayCount
      (recoverContest settings submission ref problemDocId) (base, saves) := by
  refine follows_readEntry held ?_
  cases known : e₀.contestDocId with
  | none => exact follows_pure (.refl base) (recovering_follows _)
  | some contestDocId =>
    exact recoverWith_follows held (fun saved => may saved (by simp [known])) (.refl base)

theorem recover_follows (settings : Settings)
    (held : base.heap.read ref = some (submission.submissionId, e₀))
    (may : willSave saves = true → e₀.problemDocId.isSome = true →
      e₀.contestDocId.isSome = true → mayCount) :
    FollowsAt base .submit submission.submissionId ref mayCount (recover settings submission ref)
      (base, saves) := by
  refine follows_readEntry held ?_
  cases known : e₀.problemDocId with
  | none => exact follows_pure (.refl base) (recovering_follows _)
  | some problemDocId =>
    exact recoverContest_follows held fun saved => may saved (by simp [known])

theorem attachRid_follows {call : Nat} {contestDocId : String} {problemDocId : Int} {rid : Rid}
    (held : base.heap.read ref = some (submission.submissionId, e₀))
    (may : willSave saves = true → mayCount) :
    FollowsAt base .submit submission.submissionId ref mayCount
      (attachRid settings submission ref call contestDocId problemDocId rid) (base, saves) := by
  rw [FollowsAt, attachRid, ends_bind, endAdd, modifyJournal, ends_modify]
  have ended : Edited base (base.endAdd call (.returned rid)) := .of_same rfl rfl rfl rfl
  refine follows_modifyEntry ended (fun e call => by cases call <;> exact id) ?_
  intro t₁ _ same edited₁
  refine follows_save edited₁ fun t₂ _ saved edited₂ => ?_
  rw [same] at saved
  exact completeSubmissionEntry_follows (submission.job ref contestDocId problemDocId) held
    (may saved) edited₂ (.inl rfl)

/- A resolver sets the status flag itself, so it goes straight on to the counters. -/
theorem resumeCorrelating_follows {id : String} {candidate : Record}
    {items : Option (List JournalItem)} (held : base.heap.read ref = some (id, e₀))
    (may : (Phase.correlating id ref candidate).goesOn settings base (willSave saves)
      (.journal items) = true → mayCount) :
    FollowsAt base .status id ref mayCount
      (resumeCorrelating settings id ref candidate items) (base, saves) := by
  refine follows_readEntry held ?_
  cases found : existingSubmissionJournal candidate.id.text (e₀.problemDocId.getD 0) items with
  | none => exact follows_pure (.refl base) (settled_follows _ _)
  | some item =>
    refine follows_ite (fun _ => follows_pure (.refl base) (settled_follows _ _)) fun agrees => ?_
    refine follows_ite (fun _ => follows_pure (.refl base) (settled_follows _ _)) fun open_ => ?_
    refine follows_modifyEntry (.refl base) ?_ ?_
    · intro e call unset
      cases call with
      | updateStatus => simp [Entry.did] at unset
      | inc => exact unset
      | incUserInDomain => exact unset
    intro t₁ changed same edited₁
    refine follows_save edited₁ fun t₂ heap saved edited₂ => ?_
    have counts : mayCount := by
      rw [same] at saved
      refine may ?_
      simp only [not_or, not_not] at agrees
      simp [Phase.goesOn, held, found, saved, agrees]
      cases complete : e₀.complete <;> simp_all
    let job : Job :=
      { submissionId := id, entry := ref, rid := "", contestDocId := e₀.contestDocId.getD "",
        problemDocId := e₀.problemDocId.getD 0, uid := e₀.uid.getD 0, forStatus := true }
    refine completeSubmissionEntry_follows job held counts edited₂ (.inr ⟨rfl, ?_⟩)
    refine ⟨{ e₀ with rid := candidate.id.text, phase := .recordCreated, statusUpdated := true },
      ?_, rfl⟩
    change t₂.1.heap.read ref = some (id, _)
    rw [heap, changed]
    simp [Journal.modifyEntry, Heap.read_modify, held]

/- Each await of completeSubmissionEntry. The counter that has just returned is the only way to
   the next counter but for the awaits before the counters. -/
theorem resumeCompletion_follows {job : Job} {stage : Completion} {answer : Answer}
    (held : base.heap.read job.entry = some (job.submissionId, e₀))
    (suits : (Phase.completing job stage).suits kind)
    (may : (Phase.completing job stage).goesOn settings base (willSave saves) answer = true →
      mayCount)
    (counts : (Phase.completing job stage).counting job.submissionId = true → mayCount) :
    (∀ w, resumeCompletion settings job stage answer w = .ok (.completing job stage) w) ∧
        (answer = .done → (Phase.completing job stage).awaits = none) ∨
      FollowsAt base kind job.submissionId job.entry mayCount
        (resumeCompletion settings job stage answer) (base, saves) := by
  unfold resumeCompletion
  split
  · refine .inr (FollowsAt.settle (follows_readEntry held ?_))
    have submit : kind = .submit := by
      cases kind with
      | submit => rfl
      | status => rcases suits with eq | eq <;> cases eq
    subst submit
    dsimp only
    split
    · exact follows_raise (.refl base)
    · rename_i found
      refine follows_modifyEntry (.refl base) ?_ ?_
      · intro e call unset
        cases call with
        | updateStatus => simp [Entry.did] at unset
        | inc => exact unset
        | incUserInDomain => exact unset
      intro t₁ _ same edited₁
      refine follows_save edited₁ fun t₂ _ saved edited₂ => ?_
      rw [same] at saved
      have goes : mayCount := may (by simp [Phase.goesOn, saved, held, found])
      exact updateStatus_follows job held goes edited₂ (.inl rfl)
  · refine .inr (FollowsAt.settle (follows_modifyEntry (.refl base) ?_ ?_))
    · intro e call unset
      cases call with
      | updateStatus => simp [Entry.did] at unset
      | inc => exact unset
      | incUserInDomain => exact unset
    intro t₁ _ same edited₁
    refine follows_save edited₁ fun t₂ _ saved edited₂ => ?_
    rw [same] at saved
    exact countProblem_follows held (may (by simp [Phase.goesOn, saved])) edited₂
  · refine .inr (FollowsAt.settle (follows_modifyEntry (.refl base) ?_ ?_))
    · intro e call unset
      cases call with
      | updateStatus => exact unset
      | inc => simp [Entry.did] at unset
      | incUserInDomain => exact unset
    intro t₁ _ _ edited₁
    refine follows_save edited₁ fun t₂ _ _ edited₂ => ?_
    exact countUser_follows held (counts (by simp [Phase.counting, Phase.awaits])) edited₂
  · refine .inr (FollowsAt.settle (follows_modifyEntry (.refl base) ?_ ?_))
    · intro e call unset
      cases call with
      | updateStatus => exact unset
      | inc => exact unset
      | incUserInDomain => simp [Entry.did] at unset
    intro t₁ _ _ edited₁
    exact follows_save edited₁ fun t₂ _ _ edited₂ => finishEntry_follows held edited₂
  · exact .inr (follows_pure (.refl base) (settled_follows _ _))
  · rename_i notStatus notProblem notUser
    refine .inl ⟨fun w => rfl, fun returned => ?_⟩
    cases stage with
    | journal => rfl
    | status => exact (notStatus rfl returned).elim
    | problem => exact (notProblem rfl returned).elim
    | user => exact (notUser rfl returned).elim

def Journal.Did (j : Journal) (id : String) (ref : Nat) (call : SubmitCall) : Prop :=
  ∀ e, j.heap.read ref = some (id, e) → e.did call = true

theorem Edited.did {j : Journal} {id : String} {call : SubmitCall} (edited : Edited base j)
    (did : base.Did id ref call) : j.Did id ref call := by
  intro e found
  obtain ⟨old, read, unset⟩ := edited.objects ref id e found
  by_contra undone
  have before := unset call (by simpa using undone)
  simp [did old read] at before

/- The flag is set before anything else happens, so an exception later leaves it set. -/
theorem settleWork_did {id : String} {call : SubmitCall} {change : Entry → Entry}
    {next : Section Phase} (held : base.heap.read ref = some (id, e₀))
    (sets : ∀ e, (change e).did call = true)
    (follows : ∀ w, Edited (base.modifyEntry ref change) w.1 →
      FollowsAt (base.modifyEntry ref change) .submit id ref True next w) :
    Ends (settleWork do
        modifyEntry ref change
        saveIdempotencyState settings
        next) (base, saves)
      (fun _ t => t.1.Did id ref call) (fun _ t => t.1.Did id ref call) := by
  have did : (base.modifyEntry ref change).Did id ref call := by
    intro e found
    simp only [Journal.modifyEntry, Heap.read_modify, held, if_true, Option.map_some,
      Option.some.injEq, Prod.mk.injEq, true_and] at found
    exact found ▸ sets e₀
  have work : FollowsAt (base.modifyEntry ref change) .submit id ref True
      (saveIdempotencyState settings >>= fun _ => next) (base.modifyEntry ref change, saves) :=
    follows_save (.refl _) fun t _ _ edited => follows t edited
  rw [settleWork, ends_tryCatch, ends_bind, modifyEntry, modifyJournal, ends_modify]
  refine Ends.mono work (fun _ _ kept => kept.1.did did) ?_
  intro fault t edited
  cases fault with
  | crash => exact edited.did did
  | raised failure => exact edited.did did

/- A call that returned has its flag set, whatever the section does after that. -/
theorem resumeCompletion_done {job : Job} {stage : Completion} {call : SubmitCall}
    (held : base.heap.read job.entry = some (job.submissionId, e₀))
    (awaits : (Phase.completing job stage).awaits = some (job.submissionId, call)) :
    Ends (resumeCompletion settings job stage .done) (base, saves)
      (fun _ t => t.1.Did job.submissionId job.entry call)
      (fun _ t => t.1.Did job.submissionId job.entry call) := by
  have still : ∀ change : Entry → Entry, (base.modifyEntry job.entry change).heap.read job.entry =
      some (job.submissionId, change e₀) := by
    intro change
    simp [Journal.modifyEntry, Heap.read_modify, held]
  cases stage with
  | journal => simp [Phase.awaits] at awaits
  | status =>
    obtain ⟨-, rfl⟩ := Prod.mk.inj (Option.some.inj awaits)
    exact settleWork_did held (fun _ => rfl) fun w edited =>
      countProblem_follows (still _) trivial edited
  | problem =>
    obtain ⟨-, rfl⟩ := Prod.mk.inj (Option.some.inj awaits)
    exact settleWork_did held (fun _ => rfl) fun w edited =>
      countUser_follows (still _) trivial edited
  | user =>
    obtain ⟨-, rfl⟩ := Prod.mk.inj (Option.some.inj awaits)
    exact settleWork_did held (fun _ => rfl) fun w edited => finishEntry_follows (still _) edited

end Work

section Handlers
variable {settings : Settings} {self : Nat} {id : String} {mayCount : Prop} {base : Journal}
  {saves : List Save}

theorem entryOf_named (named : ∀ known ref, base.entries.get? known = some ref →
    ∃ e, base.heap.read ref = some (known, e)) {ref : Nat}
    (entry : base.entries.get? id = some ref) :
    ∃ e, base.heap.read ref = some (id, e) ∧ base.entryOf id = some e := by
  obtain ⟨e, found⟩ := named id ref entry
  exact ⟨e, found, by simp [Journal.entryOf, entry, found]⟩

theorem takesUp_some {submission : Submission} {e : Entry}
    (free : base.inFlight.get? submission.submissionId = none)
    (known : base.entryOf submission.submissionId = some e)
    (agrees : ¬ fingerprintDiffers submission.fingerprint
      ((base.entryOf submission.submissionId).map (·.fingerprint)) = true) :
    base.takesUp submission = some e := by
  have same : e.fingerprint = submission.fingerprint := by
    simpa [fingerprintDiffers, known] using agrees
  simp [Journal.takesUp, free, known, same]

theorem movesAt_raise {kind : RequestKind} {failure : Failure} :
    MovesAt self kind id mayCount base (raise failure) (base, saves) := fun _ => Edited.refl base

theorem validate_id {body : SubmitBody} {submission : Submission}
    (valid : body.validate settings = .ok submission) :
    submission.submissionId = body.submissionId := by
  unfold SubmitBody.validate at valid
  split at valid
  · cases valid
  · split at valid
    · cases valid
    · split at valid
      · cases valid
      · split at valid
        · cases valid
        · cases valid
          rfl

variable (named : ∀ known ref, base.entries.get? known = some ref →
    ∃ e, base.heap.read ref = some (known, e))
include named

theorem submitLookedUp_moves {submission : Submission} {problem : Problem} {contest : ContestDoc}
    {attendance : Option Attendance} {ongoing : Bool} {createdAt : String}
    (may : eligible settings submission problem contest attendance = true →
      (base.takesUp submission).isSome = true → mayCount)
    (unpruned : ∀ attended,
      checkEligible settings submission problem contest attendance = .ok attended →
      base.entries.get? submission.submissionId = none →
      base.inFlight.get? submission.submissionId = none →
      outsideWindow submission contest attended ongoing = false →
      base.everHeld submission.submissionId = false) :
    MovesAt self .submit submission.submissionId mayCount base
      (submitLookedUp settings self submission problem contest attendance ongoing createdAt)
      (base, saves) := by
  unfold submitLookedUp
  cases checked : checkEligible settings submission problem contest attendance with
  | error failure => exact fun _ => Edited.refl base
  | ok attended =>
    have isEligible : eligible settings submission problem contest attendance = true := by
      simp [eligible, checked, Except.isOk, Except.toBool]
    rw [MovesAt, ends_bind]
    simp only [liftCheck, ends_pure, readJournal, ends_bind, ends_get, ends_ite]
    refine ⟨fun _ => movesAt_raise, fun agrees => ⟨fun _ => movesAt_raise, fun _ => ?_⟩⟩
    cases flight : base.inFlight.get? submission.submissionId with
    | some active => exact joined_moved active.promise
    | none =>
      have free : base.owner .submit submission.submissionId = none := by
        simp [Journal.owner, flight]
      cases entry : base.entries.get? submission.submissionId with
      | some ref =>
        obtain ⟨e, found, known⟩ := entryOf_named named entry
        have held : mayCount := may isEligible (by rw [takesUp_some flight known agrees]; rfl)
        exact follows_setInFlight _ found free rfl (FollowsAt.settle
          (completeSubmissionEntry_follows (submission.job ref contest.docId problem.docId)
            found held (.refl base) (.inl rfl)))
      | none =>
        simp only [ends_ite]
        refine ⟨fun _ => movesAt_raise, fun inside => ?_⟩
        have absent := unpruned attended checked entry flight (by simpa using inside)
        rw [ends_bind, settleWork, ends_tryCatch]
        refine reserveAndAdd_ends_moved.mono ?_ ?_
        · rintro phase ⟨j, rest⟩ ⟨edited, began⟩
          rw [ends_bind, setInFlight, modifyJournal, ends_modify, ends_pure]
          exact inserted_moved free absent rfl edited (.inr began)
        · rintro fault ⟨j, rest⟩ edited
          cases fault with
          | crash => exact fun alive => absurd rfl alive
          | raised failure =>
            exact inserted_moved free absent rfl edited (.inl ⟨_, rfl⟩)

theorem submit_moves {body : SubmitBody} {contestLocked : Bool}
    (may : body.goesOn settings base (willSave saves) = true → mayCount) :
    MovesAt self .submit body.submissionId mayCount base
      (submit settings self body contestLocked) (base, saves) := by
  unfold submit
  cases valid : body.validate settings with
  | error failure => exact fun _ => Edited.refl base
  | ok submission =>
    rw [← validate_id valid, MovesAt, ends_bind]
    simp only [liftCheck, ends_pure, readJournal, ends_bind, ends_get, ends_ite]
    refine ⟨fun _ => movesAt_raise, fun agrees => ⟨fun _ => movesAt_raise, fun _ => ?_⟩⟩
    cases flight : base.inFlight.get? submission.submissionId with
    | some pending => exact joined_moved pending.promise
    | none =>
      have free : base.owner .submit submission.submissionId = none := by
        simp [Journal.owner, flight]
      cases entry : base.entries.get? submission.submissionId with
      | some ref =>
        obtain ⟨e, found, known⟩ := entryOf_named named entry
        have taken := takesUp_some flight known agrees
        simp only [readEntry, readJournal, ends_bind, ends_get, ends_pure, found, ends_ite]
        refine ⟨fun _ => finished_moved (.refl base) _, fun unfinished =>
          ⟨fun _ => movesAt_raise, fun recorded => ?_⟩⟩
        have ready : willSave saves = true → e.problemDocId.isSome = true →
            e.contestDocId.isSome = true → mayCount := by
          intro saved problem contest
          refine may ?_
          simp [SubmitBody.goesOn, valid, saved, taken, problem, contest, recorded]
          simpa using unfinished
        have claimed := follows_setInFlight ⟨submission.fingerprint, self⟩ found free rfl
          (FollowsAt.settle (recover_follows settings found ready))
        simpa only [MovesAt, ends_bind, ends_pure] using claimed
      | none =>
        simp only [ends_ite]
        exact ⟨fun _ => movesAt_raise, fun _ => lookingUp_moved _ rfl⟩

theorem submissionStatus_moves {headerToken : Option String} :
    MovesAt self .status id mayCount base (submissionStatus settings self headerToken id)
      (base, saves) := by
  unfold submissionStatus
  simp only [MovesAt, ends_ite, readJournal, ends_bind, ends_get, ends_pure]
  refine ⟨fun _ => movesAt_raise, fun _ => ⟨fun _ => movesAt_raise, fun _ => ?_⟩⟩
  cases entry : base.entries.get? id with
  | none => exact finished_moved (.refl base) _
  | some ref =>
    obtain ⟨e, found, -⟩ := entryOf_named named entry
    cases active : base.resolving.get? id with
    | some promise => exact joined_moved promise
    | none =>
      refine follows_setResolving found (by simp [Journal.owner, active]) (FollowsAt.settle ?_)
      refine follows_readEntry found (follows_ite (fun _ => follows_ite ?_ ?_) fun _ => ?_)
      · exact fun _ => follows_pure (.refl base) (settled_follows _ _)
      · exact fun _ => follows_pure (.refl base) (settled_follows _ _)
      · exact follows_pure (.refl base) {
          owns := rfl
          suits := trivial
          entry := fun known eq => (Option.some.inj eq).symm
          unset := fun known call eq => by simp [Phase.awaits] at eq
          counter := fun known call eq => by simp [Phase.awaits] at eq }

end Handlers

section Resumed
variable {settings : Settings} {self : Nat} {r : Request} {mayCount : Prop} {base : Journal}
  {saves : List Save} {ref : Nat}

/- A request that keeps its entry stays the one in its in-flight map. -/
theorem follows_stays {kind : RequestKind} {id : String} {work : Section Phase} {e₀ : Entry}
    (held : base.heap.read ref = some (id, e₀)) (mine : base.owner kind id = some self)
    (follows : FollowsAt base kind id ref mayCount work (base, saves)) :
    MovesAt self kind id mayCount base work (base, saves) := by
  refine Ends.mono follows ?_ fun _ _ kept _ => kept
  rintro phase ⟨j, rest⟩ ⟨edited, kept⟩
  exact follows_moved held edited kept rfl rfl (fun _ _ => .inl rfl)
    ((edited.owners _ _).trans mine)

theorem resumeFinding_follows {id : String} {records : List Record} {e₀ : Entry}
    (held : base.heap.read ref = some (id, e₀)) :
    FollowsAt base .status id ref mayCount (resumeFinding settings id ref records)
      (base, saves) := by
  refine follows_readEntry held ?_
  split
  · exact follows_pure (.refl base) (settled_follows _ _)
  · refine follows_ite (fun _ => follows_pure (.refl base) (settled_follows _ _)) fun _ => ?_
    refine follows_ite (fun _ => follows_pure (.refl base) (settled_follows _ _)) fun _ => ?_
    exact follows_pure (.refl base) {
      owns := rfl
      suits := trivial
      entry := fun known eq => (Option.some.inj eq).symm
      unset := fun known call eq => by simp [Phase.awaits] at eq
      counter := fun known call eq => by simp [Phase.awaits] at eq }
  · exact follows_pure (.refl base) (settled_follows _ _)

/-- One answer moves the request it is for, or is not the one the request waits for. -/
theorem resume_moves (settings : Settings) (saves : List Save) (answer : Answer) (mayCount : Prop)
    (sits : r.Sits base self)
    (named : ∀ known ref, base.entries.get? known = some ref →
      ∃ e, base.heap.read ref = some (known, e))
    (may : r.phase.goesOn settings base (willSave saves) answer = true → mayCount)
    (counts : r.phase.counting r.submissionId = true → mayCount)
    (unpruned : ∀ id, r.phase.reserves settings base answer = some id →
      base.everHeld id = false) :
    (∀ w, resume settings self r.phase answer w = .ok r.phase w) ∧
        (answer = .done → r.phase.awaits = none) ∨
      MovesAt self r.kind r.submissionId mayCount base (resume settings self r.phase answer)
        (base, saves) := by
  obtain ⟨kind, id, phase⟩ := r
  obtain ⟨owner, suits, entry, looking⟩ := sits
  dsimp only at *
  cases phase with
  | lookingUp submission stage =>
    obtain rfl := looking submission stage rfl
    cases kind with
    | status => exact suits.elim
    | submit =>
      cases stage with
      | problem =>
        cases answer with
        | problem found =>
          cases found with
          | none => exact .inr movesAt_raise
          | some problem => exact .inr (lookingUp_moved _ rfl)
        | failed => exact .inr movesAt_raise
        | _ => exact .inl ⟨fun w => rfl, fun _ => rfl⟩
      | contest problem =>
        cases answer with
        | contest contest =>
          refine .inr ?_
          rw [MovesAt, resume, ends_ite]
          exact ⟨fun _ => lookingUp_moved _ rfl, fun _ => movesAt_raise⟩
        | failed => exact .inr movesAt_raise
        | _ => exact .inl ⟨fun w => rfl, fun _ => rfl⟩
      | attendance problem contest =>
        cases answer with
        | attendance attendance ongoing createdAt =>
          refine .inr (submitLookedUp_moves named ?_ ?_)
          · intro isEligible taken
            exact may (by simp [Phase.goesOn, isEligible, taken])
          · intro attended checked absent free inside
            exact unpruned _ (by simp [Phase.reserves, checked, absent, free, inside])
        | failed => exact .inr movesAt_raise
        | _ => exact .inl ⟨fun w => rfl, fun _ => rfl⟩
  | recovering submission ref stage =>
    obtain ⟨rfl, e, held⟩ := entry _ _ rfl
    cases kind with
    | status => exact suits.elim
    | submit =>
      have mine := owner rfl
      cases stage with
      | problem =>
        cases answer with
        | problem found =>
          cases found with
          | none =>
            exact .inr (follows_stays held mine (follows_pure (.refl base) (settled_follows _ _)))
          | some problem =>
            refine .inr (follows_stays held mine (FollowsAt.settle
              (recoverContest_follows held fun saved known => may ?_)))
            simp [Phase.goesOn, saved, held, known]
        | failed =>
          exact .inr (follows_stays held mine (follows_pure (.refl base) (settled_follows _ _)))
        | _ => exact .inl ⟨fun w => rfl, fun _ => rfl⟩
      | contest problemDocId =>
        cases answer with
        | contest contest =>
          exact .inr (follows_stays held mine (FollowsAt.settle
            (recoverWith_follows held (fun saved => may saved) (.refl base))))
        | problem found =>
          cases found with
          | none =>
            exact .inr (follows_stays held mine (follows_pure (.refl base) (settled_follows _ _)))
          | some problem => exact .inl ⟨fun w => rfl, fun _ => rfl⟩
        | failed =>
          exact .inr (follows_stays held mine (follows_pure (.refl base) (settled_follows _ _)))
        | _ => exact .inl ⟨fun w => rfl, fun _ => rfl⟩
  | adding submission ref call contestDocId problemDocId =>
    obtain ⟨rfl, e, held⟩ := entry _ _ rfl
    cases kind with
    | status => exact suits.elim
    | submit =>
      have mine := owner rfl
      cases answer with
      | added rid =>
        exact .inr (follows_stays held mine (FollowsAt.settle
          (attachRid_follows held fun saved => may saved)))
      | failed =>
        refine .inr (follows_stays held mine ?_)
        rw [FollowsAt, resume, ends_bind, endAdd, modifyJournal, ends_modify, ends_pure]
        exact ⟨.of_same rfl rfl rfl rfl, settled_follows _ _⟩
      | _ => exact .inl ⟨fun w => rfl, fun _ => rfl⟩
  | completing job stage =>
    obtain ⟨rfl, e, held⟩ := entry _ _ rfl
    refine (resumeCompletion_follows held suits may counts).imp id fun follows => ?_
    exact follows_stays held (owner rfl) follows
  | finding id' ref =>
    obtain ⟨rfl, e, held⟩ := entry _ _ rfl
    cases kind with
    | submit => exact suits.elim
    | status =>
      have mine := owner rfl
      cases answer with
      | candidates records =>
        exact .inr (follows_stays held mine (FollowsAt.settle (resumeFinding_follows held)))
      | failed =>
        exact .inr (follows_stays held mine (follows_pure (.refl base) (settled_follows _ _)))
      | _ => exact .inl ⟨fun w => rfl, fun _ => rfl⟩
  | correlating id' ref candidate =>
    obtain ⟨rfl, e, held⟩ := entry _ _ rfl
    cases kind with
    | submit => exact suits.elim
    | status =>
      have mine := owner rfl
      cases answer with
      | journal items =>
        exact .inr (follows_stays held mine (FollowsAt.settle
          (resumeCorrelating_follows held may)))
      | failed =>
        exact .inr (follows_stays held mine (follows_pure (.refl base) (settled_follows _ _)))
      | _ => exact .inl ⟨fun w => rfl, fun _ => rfl⟩
  | joined promise => exact .inl ⟨fun w => rfl, fun _ => rfl⟩
  | settled outcome => exact .inl ⟨fun w => rfl, fun _ => rfl⟩
  | finished outcome => exact .inl ⟨fun w => rfl, fun _ => rfl⟩

end Resumed

end NoiContest.HydroPlugin
