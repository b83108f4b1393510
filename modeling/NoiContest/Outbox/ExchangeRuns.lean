import NoiContest.HydroPlugin.CountedOnce
import NoiContest.Outbox.Exchange

/- Safety of the delivery over every interleaving: a row is submitted only with a record that
   Hydro made for the id and the payload of this very row. -/
namespace NoiContest.WebOutbox
open HydroPlugin (Known Issued Plugin SubmitBody Submission payloadFingerprint normalizeNewlines)

/-- The operation writes a rid into the row. -/
def Operation.Delivers (row : WebSubmission) (rid : String) : Operation → Prop
  | .markSubmitted id _ text => id = row.id ∧ text = rid
  | .finishAmbiguous id _ (some text) _ _ => id = row.id ∧ text.toLower = rid
  | _ => False

section Table
variable {outbox : Outbox} {operation : Operation} {row row' : WebSubmission}

theorem rowChange_online (change : RowChange outbox row operation row') :
    row.judgeState ≠ .localOnly := by
  intro legacy
  cases change with
  | claimed due _ _ => simp [WebSubmission.due, legacy] at due
  | submitted owned _ => simp [WebSubmission.leasedBy, legacy] at owned
  | failed owned _ => simp [WebSubmission.leasedBy, legacy] at owned
  | polled waiting => cases legacy.symm.trans waiting
  | resolved waiting _ => cases legacy.symm.trans waiting
  | unresolved waiting _ _ => cases legacy.symm.trans waiting
  | requeued _ hit => simp [requeued, JudgeState.requeueable, legacy] at hit

theorem rowStep_delivers (step : RowStep outbox operation row row')
    (submitted : row'.judgeState = .submitted) : row' = row ∨ operation.Delivers row row'.rid := by
  rcases step with rfl | change
  · exact .inl rfl
  · refine .inr ?_
    cases change with
    | claimed _ _ _ => cases submitted
    | submitted _ _ => exact ⟨rfl, rfl⟩
    | failed _ unsent => exact absurd submitted unsent.1
    | polled waiting => cases waiting.symm.trans submitted
    | resolved _ _ => exact ⟨rfl, rfl⟩
    | unresolved waiting _ _ => cases waiting.symm.trans submitted
    | requeued _ _ => cases submitted

/- Where a row comes from: an older one, a legacy insert, or an enqueue under a new id. -/
theorem commit_origin (mem : row' ∈ (commit outbox operation).rows) :
    (∃ row ∈ outbox.rows, RowStep outbox operation row row') ∨
      (row'.submissionId = "" ∧ row'.judgeState = .localOnly) ∨
      ∃ contest request createdAt, operation = .enqueue contest request createdAt ∧
        row' = request.row createdAt outbox.nextKey ∧
        PyText.isLowerHexOf 64 request.submissionId = true ∧
        ∀ row ∈ outbox.rows, row.submissionId ≠ request.submissionId := by
  rcases effect_origin (commit_effect outbox operation) mem with old | ⟨make, appends, rfl⟩
  · exact .inl old
  · cases operation with
    | addLocal tid uid problem source createdAt =>
      cases appends
      exact .inr (.inl ⟨rfl, rfl⟩)
    | enqueue contest request createdAt =>
      cases appends
      unfold commit at mem
      split at mem
      · rename_i next done
        obtain ⟨⟨after, reply⟩, applied, rfl⟩ := Outcome.map_ok.mp done
        obtain ⟨valid, stored, rfl, -, ⟨_, _, rfl, _⟩ | ⟨_, _, _, rfl, _⟩ |
          ⟨-, freshId, -, rfl, -⟩⟩ := enqueue_cases applied
        · exact .inl ⟨_, mem, .inl rfl⟩
        · exact .inl ⟨_, mem, .inl rfl⟩
        · have accepted : Accepted (request.row createdAt 0) := validate_accepted valid 0
          refine .inr (.inr ⟨_, request, createdAt, rfl, rfl, accepted.submission, ?_⟩)
          intro row held same
          have miss := SerialTable.first_none.mp freshId row held
          simp [sameId, same] at miss
      · exact .inl ⟨_, mem, .inl rfl⟩
    | _ => cases appends

/- No operation takes up a row without an idempotency id. -/
theorem commit_legacy
    (legacy : ∀ row ∈ outbox.rows, row.submissionId = "" → row.judgeState = .localOnly)
    (mem : row' ∈ (commit outbox operation).rows) (blank : row'.submissionId = "") :
    row'.judgeState = .localOnly := by
  rcases commit_origin mem with ⟨old, held, step⟩ | ⟨-, inserted⟩ | ⟨_, request, _, _, rfl, hex, -⟩
  · have kept := (receipt_fields (rowStep_receipt step)).2.2.2.2.1
    have untouched := legacy old held (kept.symm.trans blank)
    rcases step with rfl | change
    · exact untouched
    · exact absurd untouched (rowChange_online change)
  · exact inserted
  · rw [show request.submissionId = "" from blank] at hex
    cases hex

theorem commit_stored (stored : Stored outbox row) : Stored (commit outbox operation) row := by
  obtain ⟨held, mem, same⟩ := stored
  obtain ⟨held', mem', step⟩ := effect_keeps (commit_effect outbox operation) mem
  exact ⟨held', mem', (rowStep_receipt step).trans same⟩

theorem receipt_fingerprint (settings : HydroPlugin.Settings) (same : row'.receipt = row.receipt) :
    row'.fingerprint settings = row.fingerprint settings := by
  have field (r : WebSubmission) : r.fingerprint settings = r.receipt.fingerprint settings := rfl
  rw [field, same, ← field]

/- A row is the only one with its receipt. -/
theorem stored_unique {held : WebSubmission} (stored : Stored outbox row) (mem : held ∈ outbox.rows)
    (same : held.id = row.id) : held.receipt = row.receipt := by
  obtain ⟨other, memOther, sameOther⟩ := stored
  have itself : other = held :=
    outbox.rows_injective memOther mem ((receipt_fields sameOther).1.trans same.symm)
  exact itself ▸ sameOther

theorem claimReply_stored {now leaseSeconds : Rat} {filter : LaneFilter} {leaseToken : String}
    (reply : claimReply outbox now leaseSeconds filter leaseToken = some row) :
    Stored (commit outbox (.claimNext now leaseSeconds filter leaseToken)) row := by
  unfold claimReply at reply
  split at reply
  · rename_i next answer done
    subst reply
    have committed : commit outbox (.claimNext now leaseSeconds filter leaseToken) = next := by
      simp [commit, Operation.apply, done, Except.map]
    rw [committed]
    obtain ⟨_, -, done⟩ := Outcome.bind_ok.mp done
    split at done
    · cases done
    · simp only [Outcome.pure_eq_ok, Prod.mk.injEq] at done
      exact ⟨row, done.1 ▸ (SerialTable.byKey_some_iff.mp done.2).1, rfl⟩
  · cases reply

theorem checkReply_stored {now checkSeconds : Rat}
    (reply : checkReply outbox now checkSeconds = some row) :
    Stored (commit outbox (.claimAmbiguous now checkSeconds)) row := by
  unfold checkReply at reply
  split at reply
  · rename_i next answer done
    subst reply
    have committed : commit outbox (.claimAmbiguous now checkSeconds) = next := by
      simp [commit, Operation.apply, done, Except.map]
    rw [committed]
    obtain ⟨_, -, done⟩ := Outcome.bind_ok.mp done
    split at done
    · cases done
    · simp only [Outcome.pure_eq_ok, Prod.mk.injEq] at done
      exact ⟨row, done.1 ▸ (SerialTable.byKey_some_iff.mp done.2).1, rfl⟩
  · cases reply

end Table

/- Nothing that anybody relies on is taken back. -/
structure Exchange.Grows (s s' : Exchange) : Prop where
  rows : ∀ row, Stored s.outbox row → Stored s'.outbox row
  issued : ∀ i ∈ s.issued, i ∈ s'.issued

section Growth
variable {setup : Setup} {s s' : Exchange}

theorem Exchange.Grows.known (grows : s.Grows s') : (s.known setup).Within (s'.known setup) where
  payload id fingerprint posted isWeb := by
    obtain ⟨row, mem, named, digest⟩ := posted isWeb
    obtain ⟨row', mem', same⟩ := grows.rows row ⟨row, mem, rfl⟩
    exact ⟨row', mem', (receipt_fields same).2.2.2.2.1.trans named,
      (receipt_fingerprint _ same).trans digest⟩
  issued := grows.issued

theorem Exchange.Grows.suits (grows : s.Grows s') {id : String} {sender : Sender}
    (suits : sender.Suits s id) : sender.Suits s' id := by
  cases sender with
  | worker row => exact ⟨grows.rows row suits.1, suits.2⟩
  | checker row => exact ⟨grows.rows row suits.1, suits.2⟩
  | other => trivial

theorem transact_grows (s : Exchange) (operation : Operation) : s.Grows (s.transact operation) :=
  ⟨fun _ stored => commit_stored stored, fun _ mem => mem⟩

theorem transact_agrees {operation : Operation} (agrees : s.Agrees setup)
    (enqueued : ∀ contest request createdAt, operation = .enqueue contest request createdAt →
      setup.web request.submissionId = true)
    (named : ∀ row ∈ s.outbox.rows, ∀ rid, operation.Delivers row rid →
      (s.known setup).Names row.submissionId rid) : (s.transact operation).Agrees setup where
  ids := by
    intro a memA b memB filled same
    rcases commit_origin memA with ⟨a', oldA, stepA⟩ | ⟨blank, -⟩ |
      ⟨_, request, createdAt, rfl, rfl, hex, fresh⟩
    · have keptA := (receipt_fields (rowStep_receipt stepA))
      rcases commit_origin memB with ⟨b', oldB, stepB⟩ | ⟨blank, -⟩ |
        ⟨_, request, createdAt, rfl, rfl, hex, fresh⟩
      · have keptB := (receipt_fields (rowStep_receipt stepB))
        rw [keptA.1, keptB.1]
        rw [keptA.2.2.2.2.1] at filled same
        rw [keptB.2.2.2.2.1] at same
        exact agrees.ids a' oldA b' oldB filled same
      · exact absurd (same.trans blank) filled
      · exact absurd (keptA.2.2.2.2.1.symm.trans same) (fresh a' oldA)
    · exact absurd blank filled
    · rcases commit_origin memB with ⟨b', oldB, stepB⟩ | ⟨blank, -⟩ | ⟨_, _, _, eq, rfl, -, -⟩
      · have keptB := (receipt_fields (rowStep_receipt stepB))
        exact absurd (keptB.2.2.2.2.1.symm.trans same.symm) (fresh b' oldB)
      · exact absurd (same.trans blank) filled
      · rfl
  web := by
    intro row mem filled
    rcases commit_origin mem with ⟨old, held, step⟩ | ⟨blank, -⟩ |
      ⟨contest, request, createdAt, rfl, rfl, -, -⟩
    · have kept := (receipt_fields (rowStep_receipt step)).2.2.2.2.1
      rw [kept] at filled ⊢
      exact agrees.web old held filled
    · exact absurd blank filled
    · exact enqueued contest request createdAt rfl
  legacy _ mem blank := commit_legacy agrees.legacy mem blank
  submitted := by
    intro row mem submitted
    rcases commit_origin mem with ⟨old, held, step⟩ | ⟨-, legacy⟩ | ⟨_, request, createdAt, _, rfl, _⟩
    · have kept := (receipt_fields (rowStep_receipt step)).2.2.2.2.1
      rcases rowStep_delivers step submitted with rfl | delivers
      · exact agrees.submitted row held submitted
      · rw [kept]
        exact named old held row.rid delivers
    · cases legacy.symm.trans submitted
    · cases submitted

theorem transact_sound {operation : Operation} (sound : s.Sound setup)
    (enqueued : ∀ contest request createdAt, operation = .enqueue contest request createdAt →
      setup.web request.submissionId = true)
    (named : ∀ row ∈ s.outbox.rows, ∀ rid, operation.Delivers row rid →
      (s.known setup).Names row.submissionId rid) : (s.transact operation).Sound setup := by
  have grows := transact_grows s operation
  have within : (s.known setup).Within ((s.transact operation).known setup) := grows.known
  exact {
    toAgrees := transact_agrees sound.toAgrees enqueued named
    claimed := fun row mem => grows.rows row (sound.claimed row mem)
    checked := fun row mem => grows.rows row (sound.checked row mem)
    placed := sound.placed
    suits := fun i sender id place held => grows.suits (sound.suits i sender id place held)
    answers := by
      intro answer mem
      obtain ⟨id, outcome, sent, suits, honest⟩ := sound.answers answer mem
      exact ⟨id, outcome, sent, grows.suits suits, fun rid names => within.names (honest rid names)⟩
    backed := sound.backed.mono within
    issued := fun i mem => within.payload _ _ (sound.issued i mem)
    alive := sound.alive }

/- An operation that writes no rid needs no evidence. -/
theorem silent_sound {operation : Operation} (sound : s.Sound setup)
    (enqueued : ∀ contest request createdAt, operation = .enqueue contest request createdAt →
      setup.web request.submissionId = true)
    (silent : ∀ row rid, ¬ operation.Delivers row rid) : (s.transact operation).Sound setup :=
  transact_sound sound enqueued fun row _ rid delivers => absurd delivers (silent row rid)

section Reports
variable {c : PyValue.Conversions} {dumps : PyValue → String} {judge : RealtimeJudge}
  {row held : WebSubmission} {attempt : Attempt} {reply : HttpReply} {rid : String}
  {retryClock checkClock : Rat}

theorem report_no_enqueue {contest : Option Contest} {request : EnqueueRequest}
    {createdAt : String} :
    judge.report c dumps row attempt retryClock checkClock ≠ .enqueue contest request createdAt := by
  unfold RealtimeJudge.report
  dsimp only
  split <;> exact fun impossible => by cases impossible

theorem resolutionReport_no_enqueue {contest : Option Contest} {request : EnqueueRequest}
    {createdAt : String} :
    resolutionReport c row reply checkClock ≠ .enqueue contest request createdAt := by
  unfold resolutionReport
  split <;> exact fun impossible => by cases impossible

theorem report_delivers
    (delivers : (judge.report c dumps row attempt retryClock checkClock).Delivers held rid) :
    (attempt.result c).ok = true ∧ row.id = held.id ∧ (attempt.result c).rid = rid := by
  unfold RealtimeJudge.report at delivers
  dsimp only at delivers
  split at delivers
  · rename_i good
    rw [Bool.and_eq_true] at good
    exact ⟨good.1, delivers⟩
  · exact delivers.elim

theorem resolutionReport_delivers
    (delivers : (resolutionReport c row reply checkClock).Delivers held rid) :
    ∃ text, (resolveSubmission c reply).2 = some text ∧ row.id = held.id ∧ text.toLower = rid := by
  unfold resolutionReport at delivers
  split at delivers
  · rename_i status text resolved
    exact ⟨text, by rw [resolved], delivers⟩
  · exact delivers.elim

end Reports

/- The answer is about the submission of the row that its sender holds. -/
theorem read_sound {sender : Sender} {id : String}
    {outcome : Except HydroPlugin.Failure HydroPlugin.Reply} {retryClock checkClock : Rat}
    (sound : s.Sound setup) (suits : sender.Suits s id)
    (honest : ∀ rid, Names outcome rid → (s.known setup).Names id rid) :
    (s.read setup (httpReply setup.hydro outcome) retryClock checkClock sender).Sound setup := by
  have mine {row held : WebSubmission} (stored : Stored s.outbox row) (named : row.submissionId = id)
      (mem : held ∈ s.outbox.rows) (same : row.id = held.id) : held.submissionId = id :=
    ((receipt_fields (stored_unique stored mem same.symm)).2.2.2.2.1).trans named
  cases sender with
  | worker row =>
    refine transact_sound sound (fun _ _ _ eq => absurd eq report_no_enqueue) ?_
    intro held mem rid delivers
    obtain ⟨good, same, rfl⟩ := report_delivers delivers
    rw [mine suits.1 suits.2 mem same]
    exact honest _ (good_result good)
  | checker row =>
    refine transact_sound sound (fun _ _ _ eq => absurd eq resolutionReport_no_enqueue) ?_
    intro held mem rid delivers
    obtain ⟨text, resolved, same, rfl⟩ := resolutionReport_delivers delivers
    obtain ⟨names, hex⟩ := resolved_rid resolved
    rw [mine suits.1 suits.2 mem same, PyText.lowerHex_toLower hex]
    exact honest _ names
  | other => exact sound

theorem answer_sound (request : Nat) (sound : s.Sound setup) :
    (s.answer setup request).Sound setup := by
  unfold Exchange.answer
  split
  · rename_i r sender found place
    split
    · rename_i outcome phase
      refine { sound with answers := ?_ }
      intro answer mem
      rcases List.mem_append.mp mem with old | new
      · exact sound.answers answer old
      · obtain rfl := List.mem_singleton.mp new
        refine ⟨r.submissionId, outcome, rfl,
          sound.suits request sender r.submissionId place (HydroPlugin.id_here found), ?_⟩
        have backed := sound.backed.requests r (List.mem_of_getElem? found)
        rw [phase] at backed
        rintro rid ⟨filled, rfl | rfl⟩
        · exact backed.resolve_left filled
        · exact backed.resolve_left filled
    · exact sound
  · exact sound

theorem plug_grows (s : Exchange) (event : HydroPlugin.Event) (sender : Sender) :
    s.Grows (s.plug setup event sender) :=
  ⟨fun _ stored => stored, fun _ mem => List.mem_append_left _ mem⟩

theorem plug_sound {event : HydroPlugin.Event} {sender : Sender} (sound : s.Sound setup)
    (posts : event.Posts setup.settings (s.known setup))
    (suits : ∀ id, event.arriving = some id → sender.Suits s id) :
    (s.plug setup event sender).Sound setup := by
  have grows : s.Grows (s.plug setup event sender) := plug_grows s event sender
  have within : (s.known setup).Within ((s.plug setup event sender).known setup) := grows.known
  have front := HydroPlugin.stepAny_ids setup.settings s.plugin event
  have counted : (s.plugin.stepAny setup.settings event).requests.length =
      (s.plugin.stepAny setup.settings event).ids.length := by simp [Plugin.ids]
  have bound : (s.plugin.stepAny setup.settings event).ids.length ≤ s.senders.length + 1 := by
    refine front.length_le.trans ?_
    rw [List.length_append, sound.placed]
    cases event.arriving <;> simp
  exact {
    ids := sound.ids
    web := sound.web
    legacy := sound.legacy
    submitted := fun row mem submitted => within.names (sound.submitted row mem submitted)
    claimed := sound.claimed
    checked := sound.checked
    placed := by
      simp only [Exchange.plug, List.length_take, List.length_append, List.length_singleton]
      omega
    suits := by
      intro i who id place held
      refine grows.suits ?_
      have early : i < (s.plugin.stepAny setup.settings event).ids.length :=
        (List.getElem?_eq_some_iff.mp held).1
      have among : (s.senders ++ [sender])[i]? = some who := by
        simp only [Exchange.plug] at place
        rwa [List.getElem?_take_of_lt (by omega)] at place
      have named : (s.plugin.ids ++ event.arriving.toList)[i]? = some id := by
        obtain ⟨rest, whole⟩ := front
        rw [← whole, List.getElem?_append_left early]
        exact held
      by_cases old : i < s.senders.length
      · rw [List.getElem?_append_left old] at among
        rw [List.getElem?_append_left (sound.placed ▸ old)] at named
        exact sound.suits i who id among named
      · have last : i = s.senders.length := by omega
        subst last
        rw [List.getElem?_append_right (Nat.le_refl _)] at among
        rw [sound.placed, List.getElem?_append_right (Nat.le_refl _)] at named
        simp only [Nat.sub_self] at among named
        obtain rfl : sender = who := by simpa using among
        refine suits id ?_
        cases arrives : event.arriving with
        | none => simp [arrives] at named
        | some other => simpa [arrives] using named
    answers := by
      intro answer mem
      obtain ⟨id, outcome, sent, suits, honest⟩ := sound.answers answer mem
      exact ⟨id, outcome, sent, grows.suits suits, fun rid names => within.names (honest rid names)⟩
    backed := by
      refine HydroPlugin.stepAny_backed event (sound.backed.mono within) ?_ ?_
      · cases event with
        | status => trivial
        | post event => cases event <;> trivial
      · intro i told
        simp [Exchange.known, Exchange.plug, told]
    issued := by
      intro i mem
      rcases List.mem_append.mp mem with old | new
      · exact sound.issued i old
      · have told : s.plugin.issued setup.settings event = some i := by simpa using new
        exact within.payload _ _ (HydroPlugin.issued_payload sound.backed told)
    alive := HydroPlugin.stepAny_alive _ _ sound.alive }

/- What a worker posts is the payload of the row it claimed. -/
theorem body_payload {settings : HydroPlugin.Settings} {row : WebSubmission} {token : String}
    {kind : JudgeKind} {submission : Submission}
    (valid : (row.body token kind).validate settings = .ok submission) :
    submission.submissionId = row.submissionId ∧
      submission.fingerprint = row.fingerprint settings := by
  unfold SubmitBody.validate at valid
  split at valid
  · cases valid
  · split at valid
    · cases valid
    · split at valid
      · cases valid
      · split at valid
        · cases valid
        · cases valid
          exact ⟨rfl, rfl⟩

theorem post_posts {row : WebSubmission} {kind : JudgeKind} {contestLocked : Bool}
    {saves : List HydroPlugin.Save} (stored : Stored s.outbox row) :
    (HydroPlugin.Event.post (.arrive (row.body setup.token kind) contestLocked saves)).Posts
      setup.settings (s.known setup) := by
  intro submission valid _
  obtain ⟨same, digest⟩ := body_payload valid
  obtain ⟨held, mem, receipt⟩ := stored
  exact ⟨held, mem, (receipt_fields receipt).2.2.2.2.1.trans same.symm,
    (receipt_fingerprint _ receipt).trans digest.symm⟩

theorem plain_sound {operation : Operation} (sound : s.Sound setup)
    (plain : operation.plain setup = true) : (s.transact operation).Sound setup := by
  refine silent_sound sound ?_ ?_
  · rintro contest request createdAt rfl
    exact plain
  · intro row rid delivers
    cases operation with
    | markSubmitted => cases plain
    | finishAmbiguous => cases plain
    | _ => exact delivers

/-- The step lemma: every move keeps the agreement. -/
theorem move_sound (s : Exchange) (move : Move) (sound : s.Sound setup)
    (allowed : move.allowed setup = true) : (s.step setup move).Sound setup := by
  cases move with
  | transact operation => exact plain_sound sound allowed
  | claim now filter leaseToken =>
    have kept : (s.transact (.claimNext now setup.judge.leaseSeconds filter leaseToken)).Sound setup :=
      silent_sound sound (fun _ _ _ eq => by cases eq) fun _ _ delivers => delivers
    refine { kept with claimed := ?_ }
    intro row mem
    rcases List.mem_append.mp mem with old | new
    · exact kept.claimed row old
    · exact claimReply_stored (by simpa using new)
  | check now =>
    have kept : (s.transact (.claimAmbiguous now 30)).Sound setup :=
      silent_sound sound (fun _ _ _ eq => by cases eq) fun _ _ delivers => delivers
    refine { kept with checked := ?_ }
    intro row mem
    rcases List.mem_append.mp mem with old | new
    · exact kept.checked row old
    · exact checkReply_stored (by simpa using new)
  | post claim kind contestLocked saves =>
    simp only [Exchange.step]
    split
    · rename_i row held
      have stored := sound.claimed row (List.mem_of_getElem? held)
      refine plug_sound sound (post_posts stored) ?_
      rintro id arrives
      exact ⟨stored, Option.some.inj arrives⟩
    · exact sound
  | query check saves =>
    simp only [Exchange.step]
    split
    · rename_i row held
      split
      · refine plug_sound sound trivial ?_
        rintro id arrives
        exact ⟨sound.checked row (List.mem_of_getElem? held), Option.some.inj arrives⟩
      · exact sound
    · exact sound
  | serve event =>
    refine plug_sound sound ?_ fun id arrives => trivial
    cases event with
    | status => trivial
    | post event =>
      cases event with
      | arrive body contestLocked saves =>
        intro submission valid isWeb
        rw [HydroPlugin.validate_id valid] at isWeb
        exact absurd isWeb (by simpa [Move.allowed] using allowed)
      | _ => trivial
  | answer request => exact answer_sound request sound
  | receive answer retryClock checkClock =>
    simp only [Exchange.step]
    split
    · rename_i sender reply held
      obtain ⟨id, outcome, rfl, suits, honest⟩ := sound.answers _ (List.mem_of_getElem? held)
      exact read_sound sound suits honest
    · exact sound
  | miss claim attempt retryClock checkClock =>
    simp only [Exchange.step]
    split
    · refine silent_sound sound (fun _ _ _ eq => absurd eq report_no_enqueue) ?_
      intro row rid delivers
      exact absurd (report_delivers delivers).1 (by simpa [Move.allowed] using allowed)
    · exact sound
  | missCheck check reply now =>
    simp only [Exchange.step]
    split
    · refine silent_sound sound (fun _ _ _ eq => absurd eq resolutionReport_no_enqueue) ?_
      intro row rid delivers
      obtain ⟨text, resolved, -⟩ := resolutionReport_delivers delivers
      simp [Move.allowed, resolved] at allowed
    · exact sound

theorem start_sound (setup : Setup) : Exchange.start.Sound setup where
  ids a mem := absurd mem (List.not_mem_nil)
  web row mem := absurd mem (List.not_mem_nil)
  legacy row mem := absurd mem (List.not_mem_nil)
  submitted row mem := absurd mem (List.not_mem_nil)
  claimed row mem := absurd mem (List.not_mem_nil)
  checked row mem := absurd mem (List.not_mem_nil)
  placed := rfl
  suits i sender id place := by simp [Exchange.start] at place
  answers answer mem := absurd mem (List.not_mem_nil)
  backed := {
    journal := {
      objects := fun ref id e found => by simp [Exchange.start, Plugin.installed, Heap.read, Heap.empty] at found
      file := fun item mem => absurd mem List.not_mem_nil
      entries := fun id ref entry => by cases entry
      owners := fun kind id promise owner => by cases kind <;> cases owner }
    requests := fun r mem => absurd mem List.not_mem_nil }
  issued i mem := absurd mem (List.not_mem_nil)
  alive := HydroPlugin.installed_alive setup.settings Dict.empty

end Growth

/-- Over every interleaving of workers, checkers, plugin and lost messages: the rid of a
    submitted row is that of a record which Hydro made for the id and the payload of this row.
    As long as the journal never has to be pruned, Hydro is asked for one record of it at most. -/
theorem submitted_row_has_its_record (setup : Setup) (moves : List Move)
    (allowed : ∀ move ∈ moves, move.allowed setup = true) :
    ∀ row ∈ (Runs.run (Exchange.step setup) .start moves).outbox.rows,
      row.judgeState = .submitted →
      (∃ i ∈ (Runs.run (Exchange.step setup) .start moves).issued,
        i.submissionId = row.submissionId ∧ i.rid = row.rid ∧
          i.fingerprint = row.fingerprint setup.settings) ∧
      ((Runs.run (Exchange.step setup) .start moves).plugin.journal.Fits setup.settings →
        (Runs.run (Exchange.step setup) .start moves).plugin.journal.calledFor.count
          row.submissionId ≤ 1) := by
  have sound := Runs.allowed_run_invariant (Exchange.Sound setup) move_sound (start_sound setup)
    allowed
  intro row mem submitted
  refine ⟨?_, fun fits =>
    List.nodup_iff_count_le_one.mp (sound.alive.durable fits).once row.submissionId⟩
  obtain ⟨i, told, same, rid⟩ := sound.submitted row mem submitted
  refine ⟨i, told, same, rid, ?_⟩
  have filled : row.submissionId ≠ "" := by
    intro blank
    cases (sound.legacy row mem blank).symm.trans submitted
  obtain ⟨held, memHeld, named, digest⟩ := sound.issued i told (same ▸ sound.web row mem filled)
  have itself : held = row := (Runs.run (Exchange.step setup) .start moves).outbox.rows_injective
    memHeld mem (sound.ids held memHeld row mem (by rwa [named, same]) (named.trans same))
  rw [← digest, itself]

/- The plugin dies while Hydro makes the record. The second POST is told that the result is
   ambiguous, and the check finds the record. -/
def sampleSetup : Setup where
  settings := HydroPlugin.sampleSettings
  judge := sampleJudge
  token := "orchestrator-token"
  conversions := ⟨fun _ => none, fun _ => .refused, fun _ => "", fun _ => true⟩
  dumps := fun _ => ""
  hydro := fun _ => (500, "Error")
  web := (· == HydroPlugin.sampleId)

def sampleWebRequest : EnqueueRequest where
  tid := "0123456789abcdef01234567"
  uid := 7
  problem := "sum"
  source := "int main(){}"
  clientNonce := "n"
  submissionId := HydroPlugin.sampleId
  submissionSession := "s"
  judgePid := "P1"
  judgeLang := "cc.cc14o2"
  judgeSource := "int main(){}"
  issues := []
  acceptedAtMs := 15

def recoveredMoves : List Move :=
  ([.serve (.post HydroPlugin.startPlugin),
    .transact (.enqueue (some sampleContest) sampleWebRequest ""), .claim 10 {} "w1",
    .post 0 .realtime false []] : List Move) ++
  (HydroPlugin.lookUp 0).map (fun event => .serve (.post event)) ++
  ([.serve (.post .crash), .serve (.post HydroPlugin.startPlugin),
    .miss 0 (.exchanged (.requestException "timed out")) 20 20, .claim 30 {} "w2",
    .post 1 .realtime false [], .answer 0, .receive 0 40 40, .check 50, .query 0 [],
    .serve (.post (.resume 1 (.candidates [HydroPlugin.sampleRecord]) [])),
    .serve (.post (.resume 1 (.journal (some [HydroPlugin.sampleItem])) [])),
    .serve (.post (.resume 1 .done [])), .serve (.post (.resume 1 .done [])),
    .serve (.post (.conclude 1)), .answer 1, .receive 1 60 60] : List Move)

theorem recovered_row :
    (Runs.run (Exchange.step sampleSetup) .start recoveredMoves).outbox.rows.map
      (fun row => (row.judgeState, row.rid)) = [(.submitted, "0123456789abcdef0123456a")] := by
  delta recoveredMoves HydroPlugin.sampleRecord Exchange.step Exchange.plug Plugin.issued
    HydroPlugin.Phase.issued Plugin.stepAny Plugin.step HydroPlugin.resume
    HydroPlugin.resumeFinding HydroPlugin.submit SubmitBody.validate
    HydroPlugin.recordMatchesSubmissionEntry
  rw [HydroPlugin.payloadFingerprint_knowing]
  decide +kernel

theorem recovered_row_has_its_record :
    ∃ row ∈ (Runs.run (Exchange.step sampleSetup) .start recoveredMoves).outbox.rows,
      row.rid = "0123456789abcdef0123456a" ∧
      ∃ i ∈ (Runs.run (Exchange.step sampleSetup) .start recoveredMoves).issued,
        i.submissionId = row.submissionId ∧ i.rid = row.rid ∧
          i.fingerprint = row.fingerprint sampleSetup.settings := by
  have delivered : (JudgeState.submitted, "0123456789abcdef0123456a") ∈
      (Runs.run (Exchange.step sampleSetup) .start recoveredMoves).outbox.rows.map
        (fun row => (row.judgeState, row.rid)) := recovered_row ▸ List.mem_cons_self
  obtain ⟨row, mem, same⟩ := List.mem_map.mp delivered
  obtain ⟨submitted, rid⟩ := Prod.mk.inj same
  exact ⟨row, mem, rid, (submitted_row_has_its_record sampleSetup recoveredMoves
    (by decide +kernel) row mem submitted).1⟩

end NoiContest.WebOutbox
