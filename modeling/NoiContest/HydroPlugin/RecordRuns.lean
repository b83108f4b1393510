import NoiContest.HydroPlugin.RecordNames

/- The same over whole events: a process that is posted to, crashes, loads its file and answers
   stays backed by records of Hydro. -/
namespace NoiContest.HydroPlugin
open Effect

def Plugin.ids (p : Plugin) : List String := p.requests.map (·.submissionId)

/-- Whatever the plugin holds, in memory or in the file, is backed by records of Hydro. -/
structure Plugin.Backed (known : Known) (p : Plugin) : Prop where
  journal : p.journal.Backed known p.ids
  requests : ∀ r ∈ p.requests, r.phase.Backed known p.ids p.journal r.submissionId

section Process
variable {settings : Settings} {known : Known} {p : Plugin}

theorem Plugin.Backed.mono {old : Known} (backed : p.Backed old) (within : old.Within known) :
    p.Backed known where
  journal := backed.journal.mono within fun _ _ h => h
  requests r mem := (backed.requests r mem).mono within (fun _ _ h => h) fun _ h => h

theorem drop_backed {j : Journal} {ids : List String} (backed : j.Backed known ids) :
    Plugin.Backed known ⟨j.drop, false, []⟩ where
  journal := {
    objects := backed.objects
    file := backed.file
    entries := fun id ref entry => by simp [Journal.drop] at entry
    owners := fun kind id promise owner => by
      cases kind <;> simp [Journal.owner, Journal.drop] at owner }
  requests r mem := absurd mem List.not_mem_nil

/- A stretch of one request, which takes a place in the list or keeps the one it has. -/
theorem perform_backed {work : Section Phase} {saves : List Save} {record : Phase → List Request}
    {ids : List String} {id : String} (leads : Leads known ids p.journal id work (p.journal, saves))
    (others : ∀ r ∈ p.requests, r.phase.Backed known ids p.journal r.submissionId)
    (named : ∀ phase, (record phase).map (·.submissionId) = ids)
    (places : ∀ phase, ∀ r ∈ record phase, (r.submissionId = id ∧ r.phase = phase) ∨
      r ∈ p.requests) : (p.perform work saves record).Backed known := by
  have records : ∀ {j : Journal} {phase : Phase} {up : Bool}, Carried known ids p.journal j →
      phase.Backed known ids j id → Plugin.Backed known ⟨j, up, record phase⟩ := by
    intro j phase up carried mine
    have same : (⟨j, up, record phase⟩ : Plugin).ids = ids := named phase
    refine ⟨by rw [same]; exact carried.toBacked, fun r mem => ?_⟩
    rw [same]
    rcases places phase r mem with ⟨rfl, rfl⟩ | old
    · exact mine
    · exact (others r old).mono ⟨fun _ _ h => h, fun _ h => h⟩ (fun _ _ h => h)
        fun ref owned => carried.held _ ref owned
  unfold Leads Ends at leads
  unfold Plugin.perform
  split at leads <;> rename_i outcome
  · simp only [outcome]
    exact records leads.1 leads.2
  · rename_i fault _
    simp only [outcome]
    cases fault with
    | crash => exact drop_backed leads.toBacked
    | raised failure => exact records leads trivial

theorem load_backed {j : Journal} {ids : List String} (backed : j.Backed known ids) :
    j.load.Backed known [] where
  objects ref id e found := by
    rcases foldl_loadEntry_reads j.file.items (Dict.empty, j.heap) found with old | new
    · exact backed.objects ref id e old
    · exact backed.file _ new
  file := backed.file
  entries id ref entry := by
    obtain ⟨e, found, -⟩ := foldl_loadEntry_owned j.file.items j.file.items (Dict.empty, j.heap)
      (fun _ mem => mem) (fun _ _ impossible => by simp at impossible) id ref entry
    exact ⟨e, found⟩
  owners kind id promise owner := by
    cases kind <;> simp [Journal.owner, Journal.load] at owner

theorem restart_backed (save : Save) (backed : p.Backed known) :
    (p.restart settings save).Backed known := by
  have saved : Ends (saveIdempotencyState settings) (p.journal.load, [save])
      (fun _ t => Carried known [] p.journal.load t.1)
      (fun _ t => Carried known [] p.journal.load t.1) :=
    save_carried (load_backed backed.journal).carried
  unfold Ends at saved
  unfold Plugin.restart
  split at saved <;> rename_i outcome
  · simp only [outcome]
    exact ⟨saved.toBacked, fun r mem => absurd mem List.not_mem_nil⟩
  · simp only [outcome]
    exact drop_backed saved.toBacked

theorem setPhase_ids (request : Nat) (phase : Phase) :
    (p.setPhase request phase).map (·.submissionId) = p.ids := by
  refine List.ext_getElem? fun i => ?_
  simp only [Plugin.setPhase, Plugin.ids, List.getElem?_map, List.getElem?_modify]
  by_cases same : request = i <;> cases p.requests[i]? <;> simp [same]

theorem setPhase_places {request : Nat} {r : Request} (found : p.requests[request]? = some r)
    (phase : Phase) : ∀ r' ∈ p.setPhase request phase,
      (r'.submissionId = r.submissionId ∧ r'.phase = phase) ∨ r' ∈ p.requests := by
  intro r' mem
  obtain ⟨i, at_⟩ := List.getElem?_of_mem mem
  simp only [Plugin.setPhase, List.getElem?_modify] at at_
  by_cases same : request = i
  · subst same
    obtain rfl : { r with phase } = r' := by simpa [found] using at_
    exact .inl ⟨rfl, rfl⟩
  · exact .inr (List.mem_of_getElem? (by simpa [same] using at_))

theorem id_here {request : Nat} {r : Request} (found : p.requests[request]? = some r) :
    p.ids[request]? = some r.submissionId := by
  simp [Plugin.ids, found]

theorem forget_carried {j : Journal} {ids : List String} {kind : RequestKind} {id : String}
    (backed : j.Backed known ids) : Carried known ids j (j.forget kind id) := by
  have fewer : ∀ other known promise, (j.forget kind id).owner other known = some promise →
      j.owner other known = some promise := by
    intro other known promise owner
    by_cases same : known = id <;> cases kind <;> cases other <;>
      simp_all [Journal.owner, Journal.forget, Dict.get?_erase]
  cases kind with
  | submit =>
    exact ⟨⟨backed.objects, backed.file, backed.entries, fun other known promise owner =>
      backed.owners _ _ _ (fewer other known promise owner)⟩, fun _ _ held => held⟩
  | status =>
    exact ⟨⟨backed.objects, backed.file, backed.entries, fun other known promise owner =>
      backed.owners _ _ _ (fewer other known promise owner)⟩, fun _ _ held => held⟩

/- Who joined a promise gets the answer of a request for the same id. -/
theorem conclude_backed (request : Nat) (backed : p.Backed known) :
    (p.conclude request).Backed known := by
  have finishes : ∀ {j : Journal} {r : Request} {outcome : Except Failure Reply},
      p.requests[request]? = some r → Carried known p.ids p.journal j →
      (Phase.finished outcome).Backed known p.ids p.journal r.submissionId →
      Plugin.Backed known
        { p with journal := j, requests := p.setPhase request (.finished outcome) } := by
    intro j r outcome found carried mine
    have same : (⟨j, p.up, p.setPhase request (.finished outcome)⟩ : Plugin).ids = p.ids :=
      setPhase_ids request _
    refine ⟨by rw [same]; exact carried.toBacked, fun r' mem => ?_⟩
    rw [same]
    have kept : r'.phase.Backed known p.ids p.journal r'.submissionId := by
      rcases setPhase_places found _ r' mem with ⟨same, now⟩ | old
      · rw [same, now]
        exact mine
      · exact backed.requests r' old
    exact kept.mono ⟨fun _ _ h => h, fun _ h => h⟩ (fun _ _ h => h)
      fun ref owned => carried.held _ ref owned
  unfold Plugin.conclude
  cases found : p.requests[request]? with
  | none => exact backed
  | some r =>
    have mine := backed.requests r (List.mem_of_getElem? found)
    dsimp only
    cases phase : r.phase with
    | settled outcome =>
      rw [phase] at mine
      refine finishes found (forget_carried backed.journal) ?_
      cases outcome <;> exact mine
    | joined promise =>
      dsimp only
      split
      · rename_i outcome answered
        rw [phase] at mine
        refine finishes found backed.journal.carried ?_
        obtain ⟨owner, place, ended⟩ := Option.bind_eq_some_iff.mp answered
        have same : owner.submissionId = r.submissionId := by
          have here := id_here place
          rw [mine] at here
          exact (Option.some.inj here).symm
        have kept := backed.requests owner (List.mem_of_getElem? place)
        rw [same] at kept
        unfold outcomeOf at ended
        split at ended
        · rename_i given settled
          obtain rfl : given = outcome := Option.some.inj ended
          rw [settled] at kept
          cases given <;> exact kept
        · rename_i given finished
          obtain rfl : given = outcome := Option.some.inj ended
          rw [finished] at kept
          exact kept
        · cases ended
      · exact backed
    | _ => exact backed

/- Who posts tells the plugin the payload of the submission id. -/
def Event.Posts (settings : Settings) (known : Known) : Event → Prop
  | .post (.arrive body _ _) => ∀ submission, body.validate settings = .ok submission →
      known.payload submission.submissionId submission.fingerprint
  | _ => True

theorem arrive_backed {kind : RequestKind} {id : String} {work : Section Phase}
    {saves : List Save} (backed : p.Backed known)
    (leads : p.journal.Backed known (p.ids ++ [id]) → (p.ids ++ [id])[p.requests.length]? = some id →
      Leads known (p.ids ++ [id]) p.journal id work (p.journal, saves)) :
    (p.perform work saves fun phase => p.requests ++ [⟨kind, id, phase⟩]).Backed known := by
  have more : ∀ (promise : Nat) other, p.ids[promise]? = some other →
      (p.ids ++ [id])[promise]? = some other := by
    intro promise other found
    obtain ⟨bound, -⟩ := List.getElem?_eq_some_iff.mp found
    rw [List.getElem?_append_left bound, found]
  have here : (p.ids ++ [id])[p.requests.length]? = some id := by
    simp [Plugin.ids]
  have still : ∀ {a b : Known}, a = b → a.Within b := by
    rintro a b rfl
    exact ⟨fun _ _ h => h, fun _ h => h⟩
  refine perform_backed (leads (backed.journal.mono (still rfl) more) here) ?_ ?_ ?_
  · exact fun r mem => (backed.requests r mem).mono (still rfl) more fun _ h => h
  · intro phase
    simp [Plugin.ids]
  · intro phase r mem
    rcases List.mem_append.mp mem with old | new
    · exact .inr old
    · rw [List.mem_singleton.mp new]
      exact .inl ⟨rfl, rfl⟩

/-- The step lemma: an event keeps the plugin backed, if its records are known and what it
    posts is the payload of its id. -/
theorem stepAny_backed (event : Event) (backed : p.Backed known) (posts : event.Posts settings known)
    (told : ∀ i, p.issued settings event = some i → i ∈ known.issued) :
    (p.stepAny settings event).Backed known := by
  cases event with
  | status headerToken id saves =>
    simp only [Plugin.stepAny]
    split
    · exact arrive_backed backed fun kept here => submissionStatus_leads here kept
    · exact backed
  | post event =>
    cases event with
    | arrive body contestLocked saves =>
      simp only [Plugin.stepAny, Plugin.step]
      split
      · exact arrive_backed backed fun kept here => submit_leads here posts kept
      · exact backed
    | resume request answer saves =>
      simp only [Plugin.stepAny, Plugin.step]
      split
      · exact backed
      · rename_i r found
        have mine := backed.requests r (List.mem_of_getElem? found)
        refine perform_backed (resume_leads (id_here found) backed.journal mine ?_ ?_)
          backed.requests (setPhase_ids request) (setPhase_places found)
        · rintro submission ref call contestDocId problemDocId rid phase rfl
          exact ⟨_, told ⟨submission.submissionId, submission.fingerprint, rid.text⟩
            (by simp [Plugin.issued, Phase.issued, found, phase]), rfl, rfl⟩
        · rintro ref record e phase rfl read full
          exact ⟨_, told ⟨record.orchestratorSubmissionId, record.orchestratorPayloadSha256,
            record.id.text⟩ (by simp [Plugin.issued, Phase.issued, found, phase, read, full]),
            (matches_markers full).1, rfl⟩
    | conclude request => exact conclude_backed request backed
    | crash => exact drop_backed backed.journal
    | restart save =>
      simp only [Plugin.stepAny, Plugin.step]
      split
      · exact backed
      · exact restart_backed save backed

theorem phase_issued_payload {phase : Phase} {answer : Answer} {ids : List String} {j : Journal}
    {id : String} {i : Issued} (backed : j.Backed known ids) (mine : phase.Backed known ids j id)
    (told : phase.issued settings j answer = some i) :
    known.payload i.submissionId i.fingerprint := by
  unfold Phase.issued at told
  split at told
  · cases told
    exact mine.1 ▸ mine.2.1
  · rename_i id' ref record
    obtain ⟨rfl, e, found⟩ := mine
    simp only [found, Option.bind_some] at told
    split at told
    · rename_i full
      cases told
      rw [(matches_markers full).1, (matches_markers full).2]
      exact (backed.objects ref _ e found).payload
    · cases told
  · cases told

/- A record that an event tells about was made for the payload of its id. -/
theorem issued_payload {event : Event} {i : Issued} (backed : p.Backed known)
    (told : p.issued settings event = some i) : known.payload i.submissionId i.fingerprint := by
  unfold Plugin.issued at told
  split at told
  · obtain ⟨r, found, told⟩ := Option.bind_eq_some_iff.mp told
    exact phase_issued_payload backed.journal
      (backed.requests r (List.mem_of_getElem? found)) told
  · cases told

/- The id of the request that an event brings. -/
def Event.arriving : Event → Option String
  | .post (.arrive body _ _) => some body.submissionId
  | .status _ submissionId _ => some submissionId
  | _ => none

theorem perform_ids {work : Section Phase} {saves : List Save} {record : Phase → List Request}
    {ids : List String} (named : ∀ phase, (record phase).map (·.submissionId) = ids) :
    (p.perform work saves record).ids <+: ids := by
  unfold Plugin.perform
  split
  · rw [← named]
    exact List.prefix_rfl
  · rw [← named]
    exact List.prefix_rfl
  · exact List.nil_prefix

/- Requests keep their places until the process stops. -/
theorem stepAny_ids (settings : Settings) (p : Plugin) (event : Event) :
    (p.stepAny settings event).ids <+: p.ids ++ event.arriving.toList := by
  have idle : p.ids <+: p.ids ++ event.arriving.toList := List.prefix_append _ _
  have stays {q : Plugin} (same : q.ids <+: p.ids) : q.ids <+: p.ids ++ event.arriving.toList :=
    same.trans idle
  cases event with
  | status headerToken id saves =>
    simp only [Plugin.stepAny]
    split
    · exact perform_ids fun phase => by simp [Plugin.ids, Event.arriving]
    · exact idle
  | post event =>
    cases event with
    | arrive body contestLocked saves =>
      simp only [Plugin.stepAny, Plugin.step]
      split
      · exact perform_ids fun phase => by simp [Plugin.ids, Event.arriving]
      · exact idle
    | resume request answer saves =>
      simp only [Plugin.stepAny, Plugin.step]
      split
      · exact idle
      · exact stays (perform_ids (setPhase_ids request))
    | conclude request =>
      refine stays ?_
      simp only [Plugin.stepAny, Plugin.step, Plugin.conclude]
      split
      · exact List.prefix_rfl
      · split
        · exact ⟨[], (List.append_nil _).trans (setPhase_ids request _)⟩
        · split
          · exact ⟨[], (List.append_nil _).trans (setPhase_ids request _)⟩
          · exact List.prefix_rfl
        · exact List.prefix_rfl
    | crash => exact stays List.nil_prefix
    | restart save =>
      refine stays ?_
      simp only [Plugin.stepAny, Plugin.step]
      split
      · exact List.prefix_rfl
      · unfold Plugin.restart
        split <;> exact List.nil_prefix

end Process

end NoiContest.HydroPlugin
