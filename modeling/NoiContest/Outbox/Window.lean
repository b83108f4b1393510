import NoiContest.Outbox.ContestBook

/- What an enqueue promises in every book that a run of the transactions reaches. -/
namespace NoiContest.WebOutbox
open Outcome

/-- What an enqueue promises on a stored book. A nonce or an idempotency id names one row, its
    repetition answers that row or conflicts, and a row is added inside the contest window. -/
structure ContestBook.Idempotent (book : ContestBook) : Prop where
  /- The legacy insert writes rows with neither key. -/
  unique : ∀ a ∈ book.outbox.rows, ∀ b ∈ book.outbox.rows, a.submissionId ≠ "" →
    (a.lane = b.lane ∧ a.clientNonce = b.clientNonce) ∨ a.submissionId = b.submissionId → a = b
  replay : ∀ row ∈ book.outbox.rows, ∀ request createdAt stored, row.clientNonce ≠ "" →
    sameNonce request row = true → samePayload row (request.row createdAt 0) = true →
    book.contests request.tid = some stored →
    stored.submissionSession = request.submissionSession → 0 < request.acceptedAtMs →
    enqueueWebSubmission book.outbox (book.contests request.tid) request createdAt =
        .ok (book.outbox, row, true) ∧
      book.commit (.enqueue request createdAt) = book
  conflict : ∀ row ∈ book.outbox.rows, ∀ request createdAt,
    sameNonce request row = true ∨ sameId request row = true →
    samePayload row (request.row createdAt 0) = false →
    (∃ error, enqueueWebSubmission book.outbox (book.contests request.tid) request createdAt =
        .error error) ∧
      book.commit (.enqueue request createdAt) = book
  window : ∀ operation, ∀ row ∈ (book.commit operation).outbox.rows, row.submissionId ≠ "" →
    (∀ old ∈ book.outbox.rows, old.id ≠ row.id) →
    ∃ stored pidMap, book.contests row.tid = some stored ∧
      row.submissionSession = stored.submissionSession ∧ stored.pids = some pidMap ∧
      (pidMap.lookup row.problem).getD "" = row.judgePid ∧ stored.state = .ready ∧
      (stored.beginAtMs ≠ 0 ∧ stored.endAtMs ≠ 0 → stored.hydroRule = "oi" ∧
        stored.beginAtMs ≤ row.acceptedAtMs ∧ row.acceptedAtMs < stored.endAtMs)

section Promises
variable {book : ContestBook} {request : EnqueueRequest} {createdAt : String}
  {row : WebSubmission}

theorem samePayload_fields (same : samePayload row (request.row createdAt 0) = true) :
    row.lane = ⟨request.tid, request.uid, request.problem⟩ ∧
      row.clientNonce = request.clientNonce ∧ row.submissionId = request.submissionId ∧
      row.submissionSession = request.submissionSession ∧ row.judgePid = request.judgePid ∧
      row.judgeLang = request.judgeLang ∧ row.judgeSource = request.judgeSource := by
  simp only [samePayload, EnqueueRequest.row, Bool.and_eq_true, beq_iff_eq] at same
  simp [WebSubmission.lane, same]

theorem validate_of_accepted (accepted : Accepted row)
    (same : samePayload row (request.row createdAt 0) = true) (late : 0 < request.acceptedAtMs) :
    request.validate = .ok () := by
  obtain ⟨-, nonce, submission, session, pid, lang, source⟩ := samePayload_fields same
  obtain ⟨nonceFits, hex, payload⟩ := accepted
  rw [nonce] at nonceFits
  rw [submission] at hex
  rw [session, pid, lang, source] at payload
  simp [EnqueueRequest.validate, bind_ok, nonceFits, hex, payload, late]

/- The row that a nonce finds is the one row with that nonce. -/
theorem first_sameNonce (keys : UniqueKeys book.outbox) (mem : row ∈ book.outbox.rows)
    (named : row.clientNonce ≠ "") (hit : sameNonce request row = true) :
    book.outbox.first? (sameNonce request) = some row := by
  cases found : book.outbox.first? (sameNonce request) with
  | none =>
    rw [SerialTable.first_none.mp found row mem] at hit
    cases hit
  | some other =>
    obtain ⟨memOther, hitOther⟩ := SerialTable.first_some found
    obtain ⟨lane, nonce⟩ := sameNonce_iff.mp hit
    obtain ⟨laneOther, nonceOther⟩ := sameNonce_iff.mp hitOther
    have id := keys.nonce row mem other memOther named (lane.trans laneOther.symm)
      (nonce.trans nonceOther.symm)
    rw [book.outbox.rows_injective memOther mem id.symm]

theorem commit_enqueue_same {reply : WebSubmission × Bool}
    (answered : enqueueWebSubmission book.outbox (book.contests request.tid) request createdAt =
      .ok (book.outbox, reply)) : book.commit (.enqueue request createdAt) = book := by
  simp only [ContestBook.commit, BookOperation.apply, answered, Except.map]

theorem commit_enqueue_error {error : StoreError}
    (refused : enqueueWebSubmission book.outbox (book.contests request.tid) request createdAt =
      .error error) : book.commit (.enqueue request createdAt) = book := by
  simp only [ContestBook.commit, BookOperation.apply, refused, Except.map]

/- A stored row that shares a key with an answered request is the row of the answer. -/
theorem replayed_row (keys : UniqueKeys book.outbox) (valid : request.validate = .ok ())
    (mem : row ∈ book.outbox.rows) (shares : sameNonce request row = true ∨ sameId request row = true)
    {existing : WebSubmission} {reply : WebSubmission × Bool} (memExisting : existing ∈ book.outbox.rows)
    (replayed : checkedReplay existing (request.row createdAt 0) = .ok reply) : existing = row := by
  have accepted : Accepted (request.row createdAt 0) := validate_accepted valid 0
  obtain ⟨same, -⟩ := checkedReplay_ok.mp replayed
  obtain ⟨lane, nonce, submission, -⟩ := samePayload_fields same
  refine book.outbox.rows_injective memExisting mem ?_
  rcases shares with byNonce | byId
  · obtain ⟨laneRow, nonceRow⟩ := sameNonce_iff.mp byNonce
    refine keys.nonce existing memExisting row mem ?_ (lane.trans laneRow.symm)
      (nonce.trans nonceRow.symm)
    intro blank
    have given : request.clientNonce.isEmpty = false := accepted.nonce.1
    rw [← nonce, blank] at given
    cases given
  · have rowId : row.submissionId = request.submissionId := by simpa [sameId] using byId
    refine keys.submission existing memExisting row mem ?_ (submission.trans rowId.symm)
    intro blank
    have hex : PyText.isLowerHexOf 64 request.submissionId = true := accepted.submission
    rw [← submission, blank] at hex
    cases hex

theorem repeated_replays (sound : book.Sound) (mem : row ∈ book.outbox.rows) {stored : Contest}
    (named : row.clientNonce ≠ "") (hit : sameNonce request row = true)
    (same : samePayload row (request.row createdAt 0) = true)
    (registered : book.contests request.tid = some stored)
    (session : stored.submissionSession = request.submissionSession)
    (late : 0 < request.acceptedAtMs) :
    enqueueWebSubmission book.outbox (book.contests request.tid) request createdAt =
      .ok (book.outbox, row, true) := by
  have online : row.submissionId ≠ "" := fun blank => named (sound.local_rows row mem blank)
  obtain ⟨lane, -, -, ownSession, pid, -⟩ := samePayload_fields same
  have tid : row.tid = request.tid := congrArg Lane.tid lane
  have problem : row.problem = request.problem := congrArg Lane.problem lane
  obtain ⟨pidMap, mapping, mapped⟩ := sound.fits row mem online stored (tid ▸ registered)
    (session.trans ownSession.symm)
  have checked : request.checkMapping stored = .ok () :=
    checkMapping_ok.mpr ⟨session, pidMap, mapping, problem ▸ pid ▸ mapped⟩
  have valid := validate_of_accepted (sound.accepted row mem online) same late
  have found := first_sameNonce sound.keys mem named hit
  have replayed : checkedReplay row (request.row createdAt 0) = .ok (row, true) :=
    checkedReplay_ok.mpr ⟨same, rfl⟩
  unfold sameNonce at found
  simp only [enqueueWebSubmission, valid, registered, checked, found, replayed, ok_bind]
  rfl

theorem changed_conflicts (sound : book.Sound) (mem : row ∈ book.outbox.rows)
    (shares : sameNonce request row = true ∨ sameId request row = true)
    (differs : samePayload row (request.row createdAt 0) = false) :
    ∃ error, enqueueWebSubmission book.outbox (book.contests request.tid) request createdAt =
      .error error := by
  cases done : enqueueWebSubmission book.outbox (book.contests request.tid) request createdAt with
  | error error => exact ⟨error, rfl⟩
  | ok answer =>
    exfalso
    have refuted {existing : WebSubmission} (memExisting : existing ∈ book.outbox.rows)
        (valid : request.validate = .ok ())
        (replayed : checkedReplay existing (request.row createdAt 0) = .ok answer.2) : False := by
      have itself := replayed_row sound.keys valid mem shares memExisting replayed
      rw [itself] at replayed
      rw [(checkedReplay_ok.mp replayed).1] at differs
      cases differs
    obtain ⟨valid, stored, -, -, ⟨existing, found, -, replayed⟩ |
      ⟨-, existing, found, -, replayed⟩ | ⟨freshNonce, freshId, -⟩⟩ := enqueue_cases done
    · exact refuted (SerialTable.first_some found).1 valid replayed
    · exact refuted (SerialTable.first_some found).1 valid replayed
    · rcases shares with byNonce | byId
      · rw [SerialTable.first_none.mp freshNonce row mem] at byNonce
        cases byNonce
      · rw [SerialTable.first_none.mp freshId row mem] at byId
        cases byId

/- Only an enqueue adds a row with an idempotency id. -/
theorem fresh_row {operation : BookOperation} {next : ContestBook}
    (done : operation.apply book = .ok next) (mem : row ∈ next.outbox.rows)
    (online : row.submissionId ≠ "") (fresh : ∀ old ∈ book.outbox.rows, old.id ≠ row.id) :
    ∃ (request : EnqueueRequest) (createdAt : String) (stored : Contest),
      book.contests request.tid = some stored ∧
      request.checkMapping stored = .ok () ∧ request.checkWindow stored = .ok () ∧
      row = request.row createdAt book.outbox.nextKey := by
  have old (kept : row ∈ book.outbox.rows) {P : Prop} : P := absurd rfl (fresh row kept)
  cases operation with
  | enqueue request createdAt =>
    obtain ⟨answer, applied, rfl⟩ := map_ok.mp done
    obtain ⟨-, stored, registered, mapped, ⟨-, -, same, -⟩ | ⟨-, -, -, same, -⟩ |
      ⟨-, -, window, grown, -⟩⟩ := enqueue_cases applied
    · exact old (same ▸ mem)
    · exact old (same ▸ mem)
    · dsimp only at mem
      rw [grown] at mem
      rcases SerialTable.mem_insert.mp mem with kept | new
      · exact old kept
      · exact ⟨request, createdAt, stored, registered, mapped, window, new⟩
  | outbox operation other =>
    obtain ⟨after, applied, rfl⟩ := map_ok.mp done
    rcases delivered_of_other other applied row mem with ⟨before, kept, same⟩ | ⟨blank, -⟩
    · exact absurd (receipt_fields same).1.symm (fresh before kept)
    · exact absurd blank online
  | upsertContest registration submissionSession =>
    obtain ⟨after, -, rfl⟩ := map_ok.mp done
    exact old mem
  | replaceContestPidMap tid expected pidMap =>
    obtain ⟨after, -, rfl⟩ := map_ok.mp done
    exact old mem
  | commitScheduleSync tid pool expectedBegin expectedEnd beginAtMs endAtMs hydroRule observed
      expectedRevision poolState =>
    obtain ⟨after, -, rfl⟩ := map_ok.mp done
    exact old mem
  | setState tid state message =>
    cases done
    exact old mem
  | transition tid fromStates toState message =>
    cases done
    exact old mem
  | rewrite tid columns keeps =>
    cases done
    exact old mem
  | seats tid present =>
    cases done
    exact old mem
  | resetSeats tid =>
    cases done
    exact old (SerialTable.mem_remove.mp mem).1

theorem commit_fresh_row {operation : BookOperation}
    (mem : row ∈ (book.commit operation).outbox.rows) (online : row.submissionId ≠ "")
    (fresh : ∀ old ∈ book.outbox.rows, old.id ≠ row.id) :
    ∃ (request : EnqueueRequest) (createdAt : String) (stored : Contest),
      book.contests request.tid = some stored ∧
      request.checkMapping stored = .ok () ∧ request.checkWindow stored = .ok () ∧
      row = request.row createdAt book.outbox.nextKey := by
  unfold ContestBook.commit at mem
  split at mem
  · rename_i next done
    exact fresh_row done mem online fresh
  · exact absurd rfl (fresh row mem)

end Promises

theorem sound_idempotent {book : ContestBook} (sound : book.Sound) : book.Idempotent where
  unique := by
    intro a memA b memB online shares
    refine book.outbox.rows_injective memA memB ?_
    rcases shares with ⟨lane, nonce⟩ | submission
    · refine sound.keys.nonce a memA b memB ?_ lane nonce
      intro blank
      have given := (sound.accepted a memA online).nonce.1
      rw [blank] at given
      cases given
    · exact sound.keys.submission a memA b memB online submission
  replay := by
    intro row mem request createdAt stored named hit same registered session late
    have answered := repeated_replays sound mem named hit same registered session late
    exact ⟨answered, commit_enqueue_same answered⟩
  conflict := by
    intro row mem request createdAt shares differs
    obtain ⟨error, refused⟩ := changed_conflicts sound mem shares differs
    exact ⟨⟨error, refused⟩, commit_enqueue_error refused⟩
  window := by
    intro operation row mem online fresh
    obtain ⟨request, createdAt, stored, registered, mapped, window, rfl⟩ :=
      commit_fresh_row mem online fresh
    obtain ⟨session, pidMap, mapping, pid⟩ := checkMapping_ok.mp mapped
    obtain ⟨-, ready, bounds⟩ := checkWindow_ok.mp window
    exact ⟨stored, pidMap, registered, session.symm, mapping, pid, ready, bounds⟩

theorem enqueue_idempotent (operations : List BookOperation) :
    (operations.foldl ContestBook.commit ContestBook.empty).Idempotent :=
  sound_idempotent (run_sound emptyBook_sound operations)

end NoiContest.WebOutbox
