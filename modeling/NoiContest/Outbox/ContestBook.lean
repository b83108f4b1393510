import NoiContest.Outbox.RowChanges
import NoiContest.Materials.Tables
import NoiContest.Store.PoolTables

/- Enqueueing next to the transactions that register, open, close and reschedule contests. -/
namespace NoiContest.WebOutbox
open Outcome

/-- The contests table and the outbox, with the contests that have seats. -/
structure ContestBook where
  contests : String → Option Contest
  seats : String → Bool
  outbox : Outbox

def ContestBook.empty : ContestBook := ⟨fun _ => none, fun _ => false, Outbox.empty⟩

/-- Seats or web submissions of the contest. -/
def ContestBook.evidence (book : ContestBook) (tid : String) : Bool :=
  book.seats tid || book.outbox.rows.any (·.tid == tid)

def ContestBook.tables (book : ContestBook) (tid : String) : Materials.MaterialTables :=
  { contest := book.contests tid, evidence := book.evidence tid }

def ContestBook.setContest (book : ContestBook) (tid : String) (contest : Option Contest) :
    ContestBook :=
  { book with contests := fun other => if other = tid then contest else book.contests other }

def Operation.enqueues : Operation → Bool
  | .enqueue .. => true
  | _ => false

inductive BookOperation where
  | enqueue (request : EnqueueRequest) (createdAt : String)
  | outbox (operation : Operation) (other : operation.enqueues = false)
  | upsertContest (registration : Materials.Registration) (submissionSession : String)
  | replaceContestPidMap (tid expectedSubmissionSession : String) (pidMap : List (String × String))
  | setState (tid : String) (state : ContestState) (message : String)
  | transition (tid : String) (fromStates : List ContestState) (toState : ContestState)
      (message : String)
  | commitScheduleSync (tid : String) (pool : Option SeatPool.SeatPoolState)
      (expectedBeginAtMs expectedEndAtMs beginAtMs endAtMs : Int) (hydroRule : String)
      (observedAtMs expectedPoolRevision : Int) (poolState : SeatPool.SeatPoolState)
  /- A write to columns of the contest that an enqueue does not compare. -/
  | rewrite (tid : String) (columns : Contest → Contest)
      (keeps : ∀ contest, (columns contest).submissionSession = contest.submissionSession ∧
        (columns contest).pids = contest.pids)
  | seats (tid : String) (present : Bool)
  | resetSeats (tid : String)

def BookOperation.apply (book : ContestBook) : BookOperation → Except StoreError ContestBook
  | .enqueue request createdAt =>
    (enqueueWebSubmission book.outbox (book.contests request.tid) request createdAt).map
      fun answer => { book with outbox := answer.1 }
  | .outbox operation _ => (operation.apply book.outbox).map ({ book with outbox := · })
  | .upsertContest registration submissionSession =>
    ((book.tables registration.tid).upsertContest registration submissionSession).map
      (book.setContest registration.tid ·.contest)
  | .replaceContestPidMap tid expected pidMap =>
    ((book.tables tid).replaceContestPidMap tid expected pidMap).map
      (book.setContest tid ·.2.contest)
  | .setState tid state message =>
    .ok (book.setContest tid
      ((book.contests tid).map fun contest => { contest with state, message }))
  | .transition tid fromStates toState message =>
    .ok (book.setContest tid (({ contest := book.contests tid } : ContestTables).transition
      fromStates toState message).2.contest)
  | .commitScheduleSync tid pool expectedBegin expectedEnd beginAtMs endAtMs hydroRule observed
      expectedRevision poolState =>
    (({ contest := book.contests tid, pool := pool } : ContestTables).commitScheduleSync
      expectedBegin expectedEnd beginAtMs endAtMs hydroRule observed expectedRevision
      poolState).map fun answer => book.setContest tid answer.2.contest
  | .rewrite tid columns _ => .ok (book.setContest tid ((book.contests tid).map columns))
  | .seats tid present =>
    .ok { book with seats := fun other => if other = tid then present else book.seats other }
  | .resetSeats tid =>
    .ok { book with
      seats := fun other => if other = tid then false else book.seats other
      outbox := book.outbox.remove (·.tid == tid) }

def ContestBook.commit (book : ContestBook) (operation : BookOperation) : ContestBook :=
  match operation.apply book with
  | .ok next => next
  | .error _ => book

/-- The row without the columns that a delivery writes. -/
def WebSubmission.receipt (row : WebSubmission) : WebSubmission :=
  { row with
    judgeState := .pending, judgeKind := .realtime, rid := "", attempts := 0, nextRetryAt := 0
    leaseUntil := 0, leaseToken := "", lastError := "", resolutionAttempts := 0
    resolutionAfter := 0 }

/- Deliveries leave the receipt alone. -/
theorem rowStep_receipt {outbox : Outbox} {operation : Operation} {row row' : WebSubmission}
    (step : RowStep outbox operation row row') : row'.receipt = row.receipt := by
  rcases step with rfl | change
  · rfl
  · cases change <;> rfl

/-- One row for each browser submission and for each idempotency id. -/
structure UniqueKeys (outbox : Outbox) : Prop where
  nonce : ∀ a ∈ outbox.rows, ∀ b ∈ outbox.rows, a.clientNonce ≠ "" → a.lane = b.lane →
    a.clientNonce = b.clientNonce → a.id = b.id
  submission : ∀ a ∈ outbox.rows, ∀ b ∈ outbox.rows, a.submissionId ≠ "" →
    a.submissionId = b.submissionId → a.id = b.id

/-- What the checks of an enqueue left in a stored row. -/
structure Accepted (row : WebSubmission) : Prop where
  nonce : row.clientNonce.isEmpty = false ∧ row.clientNonce.length ≤ 200
  submission : PyText.isLowerHexOf 64 row.submissionId = true
  payload : row.submissionSession.isEmpty = false ∧ row.judgePid.isEmpty = false ∧
    row.judgeLang.isEmpty = false ∧ row.judgeSource.isEmpty = false

/-- The payload of the row fits the contest as long as the contest's session is the row's. -/
def Fits (contests : String → Option Contest) (row : WebSubmission) : Prop :=
  ∀ contest, contests row.tid = some contest → contest.submissionSession = row.submissionSession →
    ∃ pidMap, contest.pids = some pidMap ∧ (pidMap.lookup row.problem).getD "" = row.judgePid

structure ContestBook.Sound (book : ContestBook) : Prop where
  keys : UniqueKeys book.outbox
  accepted : ∀ row ∈ book.outbox.rows, row.submissionId ≠ "" → Accepted row
  local_rows : ∀ row ∈ book.outbox.rows, row.submissionId = "" → row.clientNonce = ""
  fits : ∀ row ∈ book.outbox.rows, row.submissionId ≠ "" → Fits book.contests row
  present : ∀ row ∈ book.outbox.rows, row.submissionId ≠ "" → book.contests row.tid ≠ none

section Enqueue
variable {outbox next : Outbox} {contest : Option Contest} {request : EnqueueRequest}
  {createdAt : String} {reply : WebSubmission × Bool}

def sameNonce (request : EnqueueRequest) (row : WebSubmission) : Bool :=
  row.tid == request.tid && row.uid == request.uid && row.problem == request.problem &&
    row.clientNonce == request.clientNonce

def sameId (request : EnqueueRequest) (row : WebSubmission) : Bool :=
  row.submissionId == request.submissionId

/- What an enqueue that returns has checked, and which of its three ways it went. -/
theorem enqueue_cases
    (done : enqueueWebSubmission outbox contest request createdAt = .ok (next, reply)) :
    request.validate = .ok () ∧ ∃ stored, contest = some stored ∧
      request.checkMapping stored = .ok () ∧
      ((∃ existing, outbox.first? (sameNonce request) = some existing ∧ next = outbox ∧
          checkedReplay existing (request.row createdAt 0) = .ok reply) ∨
        (outbox.first? (sameNonce request) = none ∧
          ∃ existing, outbox.first? (sameId request) = some existing ∧ next = outbox ∧
            checkedReplay existing (request.row createdAt 0) = .ok reply) ∨
        (outbox.first? (sameNonce request) = none ∧ outbox.first? (sameId request) = none ∧
          request.checkWindow stored = .ok () ∧
          next = outbox.insert (request.row createdAt) (fun _ => rfl) ∧
          reply = (request.row createdAt outbox.nextKey, false))) := by
  obtain ⟨_, valid, done⟩ := bind_ok.mp done
  refine ⟨valid, ?_⟩
  cases contest with
  | none => cases done
  | some stored =>
    obtain ⟨_, mapped, done⟩ := bind_ok.mp done
    refine ⟨stored, rfl, mapped, ?_⟩
    have byNonce : (fun row : WebSubmission => row.tid == request.tid && row.uid == request.uid &&
        row.problem == request.problem && row.clientNonce == request.clientNonce) =
          sameNonce request := rfl
    have byId : (fun row : WebSubmission => row.submissionId == request.submissionId) =
      sameId request := rfl
    rw [byNonce, byId] at done
    cases foundNonce : outbox.first? (sameNonce request) with
    | some existing =>
      rw [foundNonce] at done
      obtain ⟨answer, replayed, done⟩ := bind_ok.mp done
      cases done
      exact .inl ⟨existing, rfl, rfl, replayed⟩
    | none =>
      rw [foundNonce] at done
      cases foundId : outbox.first? (sameId request) with
      | some existing =>
        rw [foundId] at done
        obtain ⟨answer, replayed, done⟩ := bind_ok.mp done
        cases done
        exact .inr (.inl ⟨rfl, existing, rfl, rfl, replayed⟩)
      | none =>
        rw [foundId] at done
        obtain ⟨_, window, done⟩ := bind_ok.mp done
        cases done
        exact .inr (.inr ⟨rfl, rfl, window, rfl, rfl⟩)

theorem validate_accepted (valid : request.validate = .ok ()) (id : Nat) :
    Accepted (request.row createdAt id) := by
  simp only [EnqueueRequest.validate, bind_ok, raiseIf_ok, exists_const] at valid
  obtain ⟨nonce, hex, payload, source, _⟩ := valid
  simp only [Bool.or_eq_true, decide_eq_true_eq, not_or, Bool.not_eq_true, not_lt] at nonce payload
  exact ⟨nonce, by simpa [EnqueueRequest.row] using hex, payload.1.1, payload.1.2, payload.2,
    by simpa [EnqueueRequest.row] using source⟩

theorem checkMapping_ok {stored : Contest} :
    request.checkMapping stored = .ok () ↔ stored.submissionSession = request.submissionSession ∧
      ∃ pidMap, stored.pids = some pidMap ∧
        (pidMap.lookup request.problem).getD "" = request.judgePid := by
  unfold EnqueueRequest.checkMapping
  cases mapping : stored.pids with
  | none => simp [bind_ok]
  | some pidMap =>
    by_cases same : (pidMap.lookup request.problem).getD "" = request.judgePid
    · simp [bind_ok, same, pure, Except.pure]
    · simp [bind_ok, same]

theorem checkedReplay_ok {existing wanted : WebSubmission} {reply : WebSubmission × Bool} :
    checkedReplay existing wanted = .ok reply ↔
      samePayload existing wanted = true ∧ reply = (existing, true) := by
  unfold checkedReplay
  by_cases same : samePayload existing wanted = true
  · simp only [same, if_true, Except.ok.injEq, true_and]
    exact eq_comm
  · simp [same]

theorem checkWindow_ok {stored : Contest} :
    request.checkWindow stored = .ok () ↔ request.allowNew = true ∧ stored.state = .ready ∧
      (stored.beginAtMs ≠ 0 ∧ stored.endAtMs ≠ 0 → stored.hydroRule = "oi" ∧
        stored.beginAtMs ≤ request.acceptedAtMs ∧ request.acceptedAtMs < stored.endAtMs) := by
  unfold EnqueueRequest.checkWindow
  simp only [bind_ok, raiseIf_ok, exists_const, Bool.not_eq_true', Bool.not_eq_false, ne_eq,
    not_not]
  refine and_congr_right fun _ => and_congr_right fun _ => ?_
  by_cases bounds : ¬stored.beginAtMs = 0 ∧ ¬stored.endAtMs = 0
  · rw [if_pos bounds]
    by_cases outside : ¬stored.hydroRule = "oi" ∨
        ¬ (stored.beginAtMs ≤ request.acceptedAtMs ∧ request.acceptedAtMs < stored.endAtMs)
    · rw [if_pos outside]
      simp only [throw_ne_ok, false_iff]
      intro inside
      obtain ⟨rule, window⟩ := inside bounds
      rcases outside with other | late
      · exact other rule
      · exact late window
    · rw [if_neg outside]
      rw [not_or, not_not, not_not] at outside
      exact ⟨fun _ _ => outside, fun _ => rfl⟩
  · rw [if_neg bounds]
    exact ⟨fun _ both => absurd both bounds, fun _ => rfl⟩

theorem sameNonce_iff {row : WebSubmission} :
    sameNonce request row = true ↔ row.lane = ⟨request.tid, request.uid, request.problem⟩ ∧
      row.clientNonce = request.clientNonce := by
  simp [sameNonce, WebSubmission.lane, and_assoc]

end Enqueue

section Sound
variable {book : ContestBook}

/- A write to the contest row of one contest. -/
theorem setContest_sound {tid : String} {contest : Option Contest} (sound : book.Sound)
    (keeps : contest.map (fun c => (c.submissionSession, c.pids)) =
        (book.contests tid).map (fun c => (c.submissionSession, c.pids)) ∨
      ∀ row ∈ book.outbox.rows, row.submissionId ≠ "" → row.tid ≠ tid) :
    (book.setContest tid contest).Sound where
  keys := sound.keys
  accepted := sound.accepted
  local_rows := sound.local_rows
  fits := by
    intro row mem online found stored session
    by_cases here : row.tid = tid
    · rcases keeps with same | free
      · simp only [ContestBook.setContest, here, if_true] at stored
        rw [stored] at same
        obtain ⟨old, before, pair⟩ := Option.map_eq_some_iff.mp same.symm
        obtain ⟨sessionOld, pidsOld⟩ := Prod.mk.injEq .. ▸ pair
        obtain ⟨pidMap, mapping, pid⟩ :=
          sound.fits row mem online old (here ▸ before) (sessionOld.trans session)
        exact ⟨pidMap, pidsOld ▸ mapping, pid⟩
      · exact absurd here (free row mem online)
    · simp only [ContestBook.setContest, here, if_false] at stored
      exact sound.fits row mem online found stored session
  present := by
    intro row mem online
    by_cases here : row.tid = tid
    · rcases keeps with same | free
      · simp only [ContestBook.setContest, here, if_true]
        rintro rfl
        have old := sound.present row mem online
        rw [here] at old
        simp only [Option.map_none] at same
        exact old (Option.map_eq_none_iff.mp same.symm)
      · exact absurd here (free row mem online)
    · simp only [ContestBook.setContest, here, if_false]
      exact sound.present row mem online

theorem receipt_fields {row row' : WebSubmission} (same : row'.receipt = row.receipt) :
    row'.id = row.id ∧ row'.tid = row.tid ∧ row'.lane = row.lane ∧
      row'.clientNonce = row.clientNonce ∧ row'.submissionId = row.submissionId ∧
      row'.submissionSession = row.submissionSession ∧ row'.judgePid = row.judgePid := by
  have field {β : Type} (f : WebSubmission → β) (reads : ∀ r : WebSubmission, f r.receipt = f r) :
      f row' = f row := by rw [← reads, same, reads]
  exact ⟨field (·.id) fun _ => rfl, field (·.tid) fun _ => rfl, field (·.lane) fun _ => rfl,
    field (·.clientNonce) fun _ => rfl, field (·.submissionId) fun _ => rfl,
    field (·.submissionSession) fun _ => rfl, field (·.judgePid) fun _ => rfl⟩

theorem accepted_receipt {row row' : WebSubmission} (same : row'.receipt = row.receipt)
    (accepted : Accepted row) : Accepted row' := by
  have field {β : Type} (f : WebSubmission → β) (reads : ∀ r : WebSubmission, f r.receipt = f r) :
      f row' = f row := by rw [← reads, same, reads]
  obtain ⟨nonce, submission, payload⟩ := accepted
  constructor
  · rw [field (·.clientNonce) fun _ => rfl]
    exact nonce
  · rw [field (·.submissionId) fun _ => rfl]
    exact submission
  · rw [field (·.submissionSession) fun _ => rfl, field (·.judgePid) fun _ => rfl,
      field (·.judgeLang) fun _ => rfl, field (·.judgeSource) fun _ => rfl]
    exact payload

/-- Every row of the new table is an old one after a delivery, or has no idempotency id. -/
def Delivered (before after : Outbox) : Prop :=
  ∀ row' ∈ after.rows, (∃ row ∈ before.rows, row'.receipt = row.receipt) ∨
    (row'.submissionId = "" ∧ row'.clientNonce = "")

theorem delivered_of_other {outbox next : Outbox} {operation : Operation}
    (other : operation.enqueues = false) (done : operation.apply outbox = .ok next) :
    Delivered outbox next := by
  intro row' mem'
  rcases effect_origin (apply_effect done) mem' with ⟨row, mem, step⟩ | ⟨make, appends, rfl⟩
  · exact .inl ⟨row, mem, rowStep_receipt step⟩
  · cases operation with
    | enqueue => cases other
    | addLocal tid uid problem source createdAt =>
      cases appends
      exact .inr ⟨rfl, rfl⟩
    | _ => cases appends

theorem delivered_sound {next : Outbox} (sound : book.Sound)
    (delivered : Delivered book.outbox next) : ({ book with outbox := next } : ContestBook).Sound := by
  have online {row' : WebSubmission} (mem' : row' ∈ next.rows) (named : row'.submissionId ≠ "") :
      ∃ row ∈ book.outbox.rows, row'.receipt = row.receipt :=
    (delivered row' mem').resolve_right fun blank => named blank.1
  constructor
  · constructor
    · intro a memA b memB named lane nonce
      obtain ⟨a', memA', sameA⟩ := (delivered a memA).resolve_right fun blank => named blank.2
      obtain ⟨b', memB', sameB⟩ := (delivered b memB).resolve_right fun blank =>
        named (nonce.trans blank.2)
      obtain ⟨idA, -, laneA, nonceA, -⟩ := receipt_fields sameA
      obtain ⟨idB, -, laneB, nonceB, -⟩ := receipt_fields sameB
      rw [idA, idB]
      rw [laneA, laneB] at lane
      rw [nonceA, nonceB] at nonce
      rw [nonceA] at named
      exact sound.keys.nonce a' memA' b' memB' named lane nonce
    · intro a memA b memB named submission
      obtain ⟨a', memA', sameA⟩ := online memA named
      obtain ⟨b', memB', sameB⟩ := online memB (submission ▸ named)
      obtain ⟨idA, -, -, -, submissionA, -⟩ := receipt_fields sameA
      obtain ⟨idB, -, -, -, submissionB, -⟩ := receipt_fields sameB
      rw [idA, idB]
      rw [submissionA, submissionB] at submission
      rw [submissionA] at named
      exact sound.keys.submission a' memA' b' memB' named submission
  · intro row mem named
    obtain ⟨row', mem', same⟩ := online mem named
    obtain ⟨-, -, -, -, submission, -⟩ := receipt_fields same
    exact accepted_receipt same (sound.accepted row' mem' (submission ▸ named))
  · intro row mem blank
    rcases delivered row mem with ⟨row', mem', same⟩ | ⟨-, nonce⟩
    · obtain ⟨-, -, -, nonce, submission, -⟩ := receipt_fields same
      rw [nonce]
      exact sound.local_rows row' mem' (submission ▸ blank)
    · exact nonce
  · intro row mem named contest stored session
    obtain ⟨row', mem', same⟩ := online mem named
    obtain ⟨-, tid, lane, -, submission, ownSession, pid⟩ := receipt_fields same
    have problem : row.problem = row'.problem := congrArg Lane.problem lane
    rw [problem, pid]
    exact sound.fits row' mem' (submission ▸ named) contest (tid ▸ stored) (session.trans ownSession)
  · intro row mem named
    obtain ⟨row', mem', same⟩ := online mem named
    obtain ⟨-, tid, -, -, submission, -⟩ := receipt_fields same
    dsimp only
    rw [tid]
    exact sound.present row' mem' (submission ▸ named)

theorem enqueue_sound {next : Outbox} {request : EnqueueRequest} {createdAt : String}
    {reply : WebSubmission × Bool} (sound : book.Sound)
    (done : enqueueWebSubmission book.outbox (book.contests request.tid) request createdAt =
      .ok (next, reply)) : ({ book with outbox := next } : ContestBook).Sound := by
  obtain ⟨valid, stored, registered, mapped, ⟨-, -, rfl, -⟩ | ⟨-, -, -, rfl, -⟩ |
    ⟨freshNonce, freshId, -, rfl, -⟩⟩ := enqueue_cases done
  · exact sound
  · exact sound
  have accepted : Accepted (request.row createdAt book.outbox.nextKey) :=
    validate_accepted valid _
  have origin {row : WebSubmission}
      (mem : row ∈ (book.outbox.insert (request.row createdAt) fun _ => rfl).rows) :
      row ∈ book.outbox.rows ∨ row = request.row createdAt book.outbox.nextKey :=
    SerialTable.mem_insert.mp mem
  have otherNonce (row : WebSubmission) (mem : row ∈ book.outbox.rows)
      (lane : row.lane = ⟨request.tid, request.uid, request.problem⟩) :
      row.clientNonce ≠ request.clientNonce := by
    intro same
    have hit := sameNonce_iff.mpr ⟨lane, same⟩
    rw [SerialTable.first_none.mp freshNonce row mem] at hit
    cases hit
  have otherId (row : WebSubmission) (mem : row ∈ book.outbox.rows) :
      row.submissionId ≠ request.submissionId := by
    have miss := SerialTable.first_none.mp freshId row mem
    simpa [sameId] using miss
  constructor
  · constructor
    · intro a memA b memB named lane nonce
      rcases origin memA with oldA | rfl <;>
        rcases origin memB with oldB | rfl
      · exact sound.keys.nonce a oldA b oldB named lane nonce
      · exact absurd nonce (otherNonce a oldA lane)
      · exact absurd nonce.symm (otherNonce b oldB lane.symm)
      · rfl
    · intro a memA b memB named submission
      rcases origin memA with oldA | rfl <;>
        rcases origin memB with oldB | rfl
      · exact sound.keys.submission a oldA b oldB named submission
      · exact absurd submission (otherId a oldA)
      · exact absurd submission.symm (otherId b oldB)
      · rfl
  · intro row mem named
    rcases origin mem with old | rfl
    · exact sound.accepted row old named
    · exact accepted
  · intro row mem blank
    rcases origin mem with old | rfl
    · exact sound.local_rows row old blank
    · have hex := accepted.submission
      rw [blank] at hex
      cases hex
  · intro row mem named
    rcases origin mem with old | rfl
    · exact sound.fits row old named
    · intro contest found _
      cases registered.symm.trans found
      exact (checkMapping_ok.mp mapped).2
  · intro row mem named
    rcases origin mem with old | rfl
    · exact sound.present row old named
    · intro missing
      cases registered.symm.trans missing

/- Registering anew needs a contest without submissions. -/
theorem no_evidence {tid : String} (free : book.contests tid = none ∨ book.evidence tid = false)
    (sound : book.Sound) :
    ∀ row ∈ book.outbox.rows, row.submissionId ≠ "" → row.tid ≠ tid := by
  rintro row mem named rfl
  rcases free with missing | none
  · exact sound.present row mem named missing
  · simp only [ContestBook.evidence, Bool.or_eq_false_iff, List.any_eq_false] at none
    exact none.2 row mem (beq_self_eq_true _)

theorem map_sound {tid : String} {columns : Contest → Contest} (sound : book.Sound)
    (keeps : ∀ contest, (columns contest).submissionSession = contest.submissionSession ∧
      (columns contest).pids = contest.pids) :
    (book.setContest tid ((book.contests tid).map columns)).Sound := by
  refine setContest_sound sound (.inl ?_)
  cases book.contests tid with
  | none => rfl
  | some contest => simp [keeps contest]

theorem transition_contest (contest : Option Contest) (fromStates : List ContestState)
    (toState : ContestState) (message : String) :
    (({ contest := contest } : ContestTables).transition fromStates toState message).2.contest =
      contest.map fun stored =>
        if stored.state ∈ fromStates then { stored with state := toState, message } else stored := by
  cases contest with
  | none => rfl
  | some stored =>
    by_cases allowed : stored.state ∈ fromStates <;>
      simp [ContestTables.transition, ContestTables.setState, ContestTables.updateContest, allowed]

theorem apply_sound {operation : BookOperation} {next : ContestBook} (sound : book.Sound)
    (done : operation.apply book = .ok next) : next.Sound := by
  cases operation with
  | enqueue request createdAt =>
    obtain ⟨answer, applied, rfl⟩ := map_ok.mp done
    exact enqueue_sound sound applied
  | outbox operation other =>
    obtain ⟨after, applied, rfl⟩ := map_ok.mp done
    exact delivered_sound sound (delivered_of_other other applied)
  | upsertContest registration submissionSession =>
    obtain ⟨after, applied, rfl⟩ := map_ok.mp done
    obtain ⟨_, free, -⟩ := bind_ok.mp applied
    refine setContest_sound sound (.inr (no_evidence ?_ sound))
    rw [raiseIf_ok, not_and_or, not_not, Bool.not_eq_true] at free
    exact free
  | replaceContestPidMap tid expected pidMap =>
    obtain ⟨after, applied, rfl⟩ := map_ok.mp done
    simp only [Materials.MaterialTables.replaceContestPidMap, bind_ok] at applied
    obtain ⟨_, -, _, -, _, -, applied⟩ := applied
    refine setContest_sound sound (.inr (no_evidence (.inr ?_) sound))
    split at applied
    · cases applied
    · simp only [bind_ok, raiseIf_ok, Bool.not_eq_true] at applied
      obtain ⟨_, -, _, -, _, -, _, free, -⟩ := applied
      exact free
  | setState tid state message =>
    cases done
    exact map_sound sound fun _ => ⟨rfl, rfl⟩
  | transition tid fromStates toState message =>
    cases done
    rw [transition_contest]
    refine map_sound sound fun contest => ?_
    by_cases allowed : contest.state ∈ fromStates
    · rw [if_pos allowed]
      exact ⟨rfl, rfl⟩
    · rw [if_neg allowed]
      exact ⟨rfl, rfl⟩
  | commitScheduleSync tid pool expectedBegin expectedEnd beginAtMs endAtMs hydroRule observed
      expectedRevision poolState =>
    obtain ⟨⟨contest, after⟩, applied, rfl⟩ := map_ok.mp done
    unfold ContestTables.commitScheduleSync at applied
    cases found : book.contests tid with
    | none =>
      simp only [found] at applied
      cases applied
    | some stored =>
      simp only [found, bind_ok, pure_eq_ok, Prod.mk.injEq] at applied
      obtain ⟨_, -, _, -, _, -, _, -, -, rfl⟩ := applied
      refine setContest_sound sound (.inl ?_)
      rw [found]
      rfl
  | rewrite tid columns keeps =>
    cases done
    exact map_sound sound keeps
  | seats tid present =>
    cases done
    exact ⟨sound.keys, sound.accepted, sound.local_rows, sound.fits, sound.present⟩
  | resetSeats tid =>
    cases done
    have delivered : Delivered book.outbox (book.outbox.remove (·.tid == tid)) := by
      intro row mem
      exact .inl ⟨row, (SerialTable.mem_remove.mp mem).1, rfl⟩
    have kept := delivered_sound sound delivered
    exact ⟨kept.keys, kept.accepted, kept.local_rows, kept.fits, kept.present⟩

theorem commit_sound (sound : book.Sound) (operation : BookOperation) :
    (book.commit operation).Sound := by
  unfold ContestBook.commit
  split
  · rename_i next done
    exact apply_sound sound done
  · exact sound

theorem run_sound (sound : book.Sound) (operations : List BookOperation) :
    (operations.foldl ContestBook.commit book).Sound := by
  induction operations generalizing book with
  | nil => exact sound
  | cons operation rest ih => exact ih (commit_sound sound operation)

theorem emptyBook_sound : ContestBook.empty.Sound := by
  constructor
  · constructor <;> simp [ContestBook.empty, Outbox.empty]
  all_goals simp [ContestBook.empty, Outbox.empty]

end Sound

end NoiContest.WebOutbox
