import NoiContest.LivePool.PoolRuns
import NoiContest.SeatPool.Progress

/- The credential revisions of the students. A student who is moved gets a higher revision than
   before, so that the notification of the new seat has a row of its own. -/
namespace NoiContest
open Outcome SeatPool SeatPoolState JsonText

/-- The key of a row of seat_notifications, whose other columns tell of its delivery. -/
structure Notice where
  uid : Int
  kind : String
  credentialRevision : Int
  notificationId : String
  deriving DecidableEq, Repr

namespace Notice

def row (notices : List Notice) (uid : Int) (kind : String) (credentialRevision : Int) :
    Option Notice :=
  notices.find? fun notice => notice.uid == uid && notice.kind == kind &&
    notice.credentialRevision == credentialRevision

/- A row with the same key stays as it is. -/
def queueSeatNotification (notices : List Notice) (uid : Int) (kind : String)
    (credentialRevision : Int) (notificationId : String) :
    Except StoreError (Notice × List Notice) :=
  match row notices uid kind credentialRevision with
  | some notice => .ok (notice, notices)
  | none => do
    raiseIf (∃ notice ∈ notices, notice.notificationId = notificationId)
      (.integrityError "UNIQUE constraint failed: seat_notifications.notification_id")
    let notice := ⟨uid, kind, credentialRevision, notificationId⟩
    return (notice, notices ++ [notice])

end Notice

namespace HydroNotify

def notificationId (tid : String) (uid seatRevision : Int) : Except StoreError String := do
  raiseIf (PyText.isHexOf 24 tid = false)
    (.valueError "tid must be a 24-character Mongo ObjectId")
  raiseIf (uid ≤ 1) (.valueError "uid must identify a student user")
  raiseIf (128 < (toString seatRevision).length) (.valueError "seat_revision is invalid")
  return Sha256.ofText (dumps (.arr [.str "noi-seat-ready-v1", .str tid.toLower, .int uid,
    .str (toString seatRevision)]))

end HydroNotify

namespace ContestTables

/- The body of the loop over the seats; what it raises is logged. -/
def noticeReleased (tables : ContestTables) (tid : String) (notices : List Notice) (seat : Seat) :
    Except StoreError (List Notice) :=
  let uid := seat.uid.getD 0
  if seat.state ≠ .released ∨ uid = 0 then .ok notices
  else
    match tables.resource seat.slotNo with
    | none => throw (.keyError "seat resource unavailable")
    | some resource => do
      let credentialRevision :=
        if resource.credentialRevision = 0 then 1 else resource.credentialRevision
      let notificationId ← HydroNotify.notificationId tid uid credentialRevision
      let queued ← Notice.queueSeatNotification notices uid "seat_ready" credentialRevision
        notificationId
      return queued.2

/-- The rows that a pass of the notifier leaves before it sends anything. -/
def notifyReleasedSeats (tables : ContestTables) (tid : String) (notices : List Notice) :
    List Notice :=
  match tables.pool with
  | none => notices
  | some pool => pool.seats.foldl
      (fun notices seat => (tables.noticeReleased tid notices seat).toOption.getD notices) notices

/-- A teacher asks for another notification; an HTTP error has its status and text. -/
def resendNotification (tables : ContestTables) (tid : String) (notices : List Notice) (uid : Int)
    (nonce : String) (nowMs : Int) : Except (Nat × String) (List Notice) := do
  raiseIf (PyText.isLowerHexOf 32 nonce = false) (400, "补发页面已失效，请刷新学生座位页")
  raiseIf (¬ ∃ contest ∈ tables.contest, contest.state = .ready ∧ nowMs < contest.endAtMs)
    (409, "当前比赛未开放或已结束，不能补发入口")
  match tables.pool.bind fun pool => pool.seats.find? (·.uid.getD 0 == uid) with
  | none => throw (409, "该学生尚无已发放座位")
  | some seat =>
    raiseIf (seat.state ≠ .released) (409, "该学生尚无已发放座位")
    match tables.resource seat.slotNo with
    | none => throw (409, "座位资源不可用，请先检查座位状态")
    | some resource => do
      let notificationId := Sha256.ofText ("seat-reminder:" ++ tid ++ ":" ++ toString uid ++ ":" ++
        toString resource.credentialRevision ++ ":" ++ nonce)
      let queued ← (Notice.queueSeatNotification notices uid ("seat_reminder:" ++ nonce)
        resource.credentialRevision notificationId).mapError fun _ => (500, "")
      return queued.2

/-- The slot of a student with the credential revision of its connection resource. -/
def seating (tables : ContestTables) (uid : Int) : Option (Nat × Int) := do
  let pool ← tables.pool
  let seat ← pool.assignment uid
  let resource ← tables.resource seat.slotNo
  return (seat.slotNo, resource.credentialRevision)

end ContestTables

namespace LivePool

structure NoticeBook where
  book : PoolBook
  notices : List Notice := []

inductive NoticeInput where
  | commit (input : Nat × PoolCommit)
  | notify
  | resend (uid : Int) (nonce : String) (nowMs : Int)

/-- The connection resources that a step brings in. -/
def NoticeInput.added : NoticeInput → List PoolResource
  | .commit input => input.2.added
  | _ => []

def NoticeBook.step (tid : String) (s : NoticeBook) : NoticeInput → NoticeBook
  | .commit input => { s with book := s.book.step input }
  | .notify => { s with notices := s.book.tables.notifyReleasedSeats tid s.notices }
  | .resend uid nonce nowMs => { s with
      notices := (s.book.tables.resendNotification tid s.notices uid nonce nowMs).toOption.getD
        s.notices }

/-- A student who has a seat keeps one, and a move to another slot brings a higher revision, for
    which no notification is there. -/
def FreshCredentials (tid : String) (s : NoticeBook) (input : NoticeInput) : Prop :=
  ∀ uid slot revision, s.book.tables.seating uid = some (slot, revision) →
    ∃ slot' revision', (s.step tid input).book.tables.seating uid = some (slot', revision') ∧
      revision ≤ revision' ∧ (slot' ≠ slot → revision < revision' ∧
        Notice.row (s.step tid input).notices uid "seat_ready" revision' = none)

section Rotation
variable {tables written : ContestTables} {pool next loaded state : SeatPoolState}
  {book : PoolBook} {added : List PoolResource}

/-- What a commit does to the revisions. -/
structure Rotates (tables written : ContestTables) (pool next : SeatPoolState)
    (added : List PoolResource) : Prop where
  resources : ∀ resource ∈ written.resources, resource ∈ added ∨
    ∃ old ∈ tables.resources, old.credentialRevision ≤ resource.credentialRevision
  students : ∀ seat ∈ pool.seats, ∀ uid, seat.uid = some uid →
    ∀ resource ∈ tables.resources, resource.slotNo = seat.slotNo →
      ∃ seat' ∈ next.seats, seat'.uid = some uid ∧
        ∃ resource' ∈ written.resources, resource'.slotNo = seat'.slotNo ∧
          resource.credentialRevision ≤ resource'.credentialRevision ∧
          (seat'.slotNo ≠ seat.slotNo →
            resource.credentialRevision < resource'.credentialRevision)

/- Nobody moves, and resources only come. -/
theorem Rotates.still (resources : written.resources = tables.resources ++ added)
    (stay : ∀ seat ∈ pool.seats, seat.uid ≠ none →
      ∃ seat' ∈ next.seats, seat'.uid = seat.uid ∧ seat'.slotNo = seat.slotNo) :
    Rotates tables written pool next added := by
  constructor
  · intro resource mem
    rw [resources] at mem
    rcases List.mem_append.mp mem with old | new
    · exact .inr ⟨resource, old, le_rfl⟩
    · exact .inl new
  · intro seat mem uid assigned resource memResource same
    obtain ⟨seat', mem', uid', slot'⟩ := stay seat mem (by simp [assigned])
    refine ⟨seat', mem', uid'.trans assigned, resource, ?_, same.trans slot'.symm, le_rfl,
      fun moved => absurd slot' moved⟩
    rw [resources]
    exact List.mem_append_left _ memResource

theorem Rotates.untouched (resources : written.resources = tables.resources)
    (stay : ∀ seat ∈ pool.seats, seat.uid ≠ none →
      ∃ seat' ∈ next.seats, seat'.uid = seat.uid ∧ seat'.slotNo = seat.slotNo) :
    Rotates tables written pool next added := by
  refine { Rotates.still (resources.trans (List.append_nil _).symm) stay with resources := ?_ }
  intro resource mem
  exact .inr ⟨resource, resources ▸ mem, le_rfl⟩

theorem stay_of_progress {operation : Operation} (wellFormed : pool.WellFormed)
    (progress : Progress operation pool next) (remains : operation.replaces = none) :
    ∀ seat ∈ pool.seats, seat.uid ≠ none →
      ∃ seat' ∈ next.seats, seat'.uid = seat.uid ∧ seat'.slotNo = seat.slotNo := by
  intro seat mem assigned
  obtain ⟨uid, student⟩ := Option.ne_none_iff_exists'.mp assigned
  obtain ⟨seat', found, moved, _⟩ :=
    progress.seated uid seat (assignment_of_mem wellFormed mem student)
  obtain ⟨mem', student'⟩ := assignment_some found
  refine ⟨seat', mem', student'.trans student.symm, ?_⟩
  by_contra away
  have replaced := moved away
  rw [remains] at replaced
  cases replaced

/-- The revision that the resource of a student's new seat gets. -/
def rotated (tables : ContestTables) (failedSlot : Nat) (resource : PoolResource) : Int :=
  max (resource.credentialRevision + 1)
    (match tables.resource failedSlot with
    | some failedResource => failedResource.credentialRevision + 1
    | none => 2)

theorem commitPoolReplacement_rotates {tid : String} {revision : Int} {failedSlot : Nat}
    {bound : Option PoolResource} (stored : tables.pool = some pool)
    (committed : tables.commitPoolReplacement tid revision state failedSlot =
      .ok (bound, written)) :
    ∃ oldSeat failed replacement, pool.bySlot failedSlot = some oldSeat ∧
      state.bySlot failedSlot = some failed ∧ failed.state = .planned ∧
      tables.replacementFor state (oldSeat.uid.getD 0) = .ok replacement ∧
      (∀ slot ∈ pool.slots, slot ∉ failedSlot :: (replacement.map (·.1.slotNo)).toList →
        state.bySlot slot = pool.bySlot slot) ∧
      written.resources = (tables.resources.filter (·.slotNo != failedSlot)).map fun other =>
        match replacement with
        | none => other
        | some (seat, resource) => if other.slotNo = seat.slotNo
          then { resource with credentialRevision := rotated tables failedSlot resource }
          else other := by
  obtain ⟨_, _, oldSeat, failed, replacement, before, after, planned, search, kept, _⟩ :=
    commitPoolReplacement_cases stored committed
  refine ⟨oldSeat, failed, replacement, before, after, planned, search, kept, ?_⟩
  simp only [ContestTables.commitPoolReplacement, bind_ok, raiseIf_ok] at committed
  obtain ⟨_, _, previous, found, _, _, committed⟩ := committed
  cases stored.symm.trans (ContestTables.expectRevision_ok found).1
  simp only [before, after, bind_ok, raiseIf_ok] at committed
  obtain ⟨_, _, replacement', search', _, _, _, _, committed⟩ := committed
  cases search.symm.trans search'
  cases replacement with
  | none =>
    simp only [pure_eq_ok, Prod.mk.injEq] at committed
    rw [← committed.2]
    exact (List.map_id _).symm
  | some pair =>
    simp only [bind_ok, pure_eq_ok, Prod.mk.injEq] at committed
    obtain ⟨_, _, _, rfl⟩ := committed
    rfl

/- A replacement leaves the resource of every other slot, with a revision that is not lower. -/
theorem replacement_revisions (failedSlot : Nat) {replacement : Option (Seat × PoolResource)}
    (unshared : (tables.resources.map (·.slotNo)).Nodup)
    (search : ∀ pair ∈ replacement, pair.2 ∈ tables.resources ∧ pair.2.slotNo = pair.1.slotNo)
    {old : PoolResource} (mem : old ∈ tables.resources) :
    let after := match replacement with
      | none => old
      | some (seat, resource) => if old.slotNo = seat.slotNo
        then { resource with credentialRevision := rotated tables failedSlot resource }
        else old
    after.slotNo = old.slotNo ∧ old.credentialRevision ≤ after.credentialRevision := by
  intro after
  cases replacement with
  | none => exact ⟨rfl, le_rfl⟩
  | some pair =>
    obtain ⟨seat, resource⟩ := pair
    obtain ⟨memResource, slot⟩ := search _ rfl
    by_cases here : old.slotNo = seat.slotNo
    · have itself : old = resource :=
        List.inj_on_of_nodup_map unshared mem memResource (here.trans slot.symm)
      have is : after = { resource with
          credentialRevision := rotated tables failedSlot resource } := if_pos here
      rw [is, itself]
      refine ⟨rfl, ?_⟩
      have above : resource.credentialRevision + 1 ≤ rotated tables failedSlot resource :=
        le_max_left _ _
      change resource.credentialRevision ≤ rotated tables failedSlot resource
      omega
    · have is : after = old := if_neg here
      rw [is]
      exact ⟨rfl, le_rfl⟩

theorem replaceFailed_slots {slotNo : Nat} {reason : String} {nowMs : Int} {approved : Bool}
    {commandId : String} {expectedRevision : Int} {result : TransitionResult}
    (replaced : pool.replaceFailed slotNo reason nowMs approved commandId expectedRevision =
      .ok result) : result.state.slots = pool.slots := by
  rcases replaceFailed_ok replaced with replayed | ⟨print, failed, -, -, -, -, ⟨-, -, state⟩ |
    ⟨reset, -, -, -, state⟩ | ⟨reset, moved, spare, -, -, -, -, -, -, state⟩⟩
  · rw [replaceFailed_replayed replaced replayed]
  · rw [state]
    rfl
  · rw [state]
    exact withSeat_slots
  · rw [state]
    exact withSeat_slots.trans withSeat_slots

/- A replacement moves the student of the failed seat, if there is one, and nobody else. -/
theorem replacement_rotates (agreed : Agreed tables pool) (agreed' : Agreed written state)
    {slotNo : Nat} {reason : String} {nowMs : Int} {approved : Bool} {commandId : String}
    {expectedRevision : Int} {result : TransitionResult} {tid : String} {revision : Int}
    {bound : Option PoolResource}
    (replaced : pool.replaceFailed slotNo reason nowMs approved commandId expectedRevision =
      .ok result) (is : result.state = state)
    (committed : tables.commitPoolReplacement tid revision result.state slotNo =
      .ok (bound, written)) : Rotates tables written pool state added := by
  have progress := replaceFailed_progress agreed.wellFormed (is ▸ agreed'.wellFormed) replaced
  subst is
  obtain ⟨oldSeat, failed, replacement, before, after, planned, search, kept, resources⟩ :=
    commitPoolReplacement_rotates agreed.stored committed
  have connected : ∀ pair ∈ replacement, pair.2 ∈ tables.resources ∧
      pair.2.slotNo = pair.1.slotNo := by
    rintro ⟨seat, resource⟩ rfl
    obtain ⟨-, -, -, mem, slot⟩ := replacementFor_some search
    exact ⟨mem, slot⟩
  constructor
  · intro resource mem
    rw [resources] at mem
    obtain ⟨old, memOld, rfl⟩ := List.mem_map.mp mem
    have memBefore := (List.mem_filter.mp memOld).1
    exact .inr ⟨old, memBefore, (replacement_revisions slotNo agreed.slots connected memBefore).2⟩
  · intro seat mem uid assigned resource memResource slot
    obtain ⟨seat', found, moved, -⟩ :=
      progress.seated uid seat (assignment_of_mem agreed.wellFormed mem assigned)
    obtain ⟨mem', assigned'⟩ := assignment_some found
    refine ⟨seat', mem', assigned', ?_⟩
    by_cases same : seat'.slotNo = seat.slotNo
    · -- the seat that fails has nobody any more, so this is another one
      have other : resource.slotNo ≠ slotNo := by
        intro here
        obtain ⟨memFailed, slotFailed⟩ := bySlot_some after
        have itself := seat_eq_of_slot agreed'.distinct mem' memFailed
          (same.trans (slot.symm.trans (here.trans slotFailed.symm)))
        have seated := (agreed'.wellFormed.seats seat' mem').seated.mp (by simp [assigned'])
        rw [itself, planned] at seated
        simp [SeatState.IsSeated] at seated
      obtain ⟨slotAfter, notLower⟩ := replacement_revisions slotNo agreed.slots connected
        memResource
      refine ⟨_, ?_, slotAfter.trans (slot.trans same.symm), notLower, fun away => absurd same away⟩
      rw [resources]
      exact List.mem_map.mpr ⟨resource, List.mem_filter.mpr ⟨memResource, by simpa using other⟩, rfl⟩
    · have failing : slotNo = seat.slotNo := Option.some.inj (moved same)
      obtain ⟨memOld, slotOld⟩ := bySlot_some before
      have itself : oldSeat = seat :=
        seat_eq_of_slot agreed.distinct memOld mem (slotOld.trans failing)
      cases replacement with
      | none =>
        -- a student without an account number is not moved
        have listed : seat'.slotNo ∈ pool.slots := by
          rw [← replaceFailed_slots replaced]
          exact List.mem_map_of_mem mem'
        have untouched := kept seat'.slotNo listed (by simpa [failing] using same)
        have memBefore := bySlot_same agreed'.distinct mem' untouched.symm
        have stayed := agreed.wellFormed.students seat' memBefore seat mem (by simp [assigned'])
          (assigned'.trans assigned.symm)
        exact absurd (congrArg Seat.slotNo stayed) same
      | some pair =>
        obtain ⟨target, own⟩ := pair
        obtain ⟨-, memTarget, student, memOwn, slotOwn⟩ := replacementFor_some search
        rw [itself, assigned] at student
        have seatTarget : target = seat' := agreed'.wellFormed.students target memTarget seat' mem'
          (by simp [student]) (student.trans assigned'.symm)
        subst seatTarget
        have found' : tables.resource slotNo = some resource := by
          cases search' : tables.resource slotNo with
          | none =>
            refine absurd ?_ (resource_none search')
            exact List.mem_map.mpr ⟨resource, memResource, slot.trans failing.symm⟩
          | some other =>
            obtain ⟨memOther, slotOther⟩ := resource_some search'
            rw [agreed.resource_eq memOther memResource
              (slotOther.trans (failing.trans slot.symm))]
        have higher : resource.credentialRevision < rotated tables slotNo own := by
          have above : resource.credentialRevision + 1 ≤ rotated tables slotNo own := by
            rw [rotated, found']
            exact le_max_right _ _
          omega
        refine ⟨{ own with credentialRevision := rotated tables slotNo own }, ?_, slotOwn,
          higher.le, fun _ => higher⟩
        rw [resources]
        refine List.mem_map.mpr ⟨own, List.mem_filter.mpr ⟨memOwn, ?_⟩, if_pos slotOwn⟩
        rw [slotOwn]
        simpa [failing] using same

/- Every commit. -/
theorem apply_rotates {commit : PoolCommit} (current : Current book pool)
    (mem : loaded ∈ book.stored) (done : commit.apply book.tables loaded = .ok written)
    (agreed' : Agreed written next) : Rotates book.tables written pool next commit.added := by
  have agreed := current.agreed
  have idle (same : written = book.tables) :
      Rotates book.tables written pool next commit.added := by
    subst same
    cases agreed.stored.symm.trans agreed'.stored
    exact .untouched rfl fun seat mem _ => ⟨seat, mem, rfl, rfl⟩
  cases commit with
  | reserve uid uname nowMs commandId =>
    simp only [PoolCommit.apply, bind_ok, mapError_ok] at done
    obtain ⟨result, reserved, saved⟩ := done
    obtain ⟨rfl, expected⟩ := putSeatPool_ok saved
    cases current.fresh mem (Option.some.inj (expected pool agreed.stored)).symm
    cases agreed'.stored
    exact .untouched rfl (stay_of_progress agreed.wellFormed
      (reserve_progress agreed.wellFormed agreed'.wellFormed reserved) rfl)
  | releaseDue nowMs commandId =>
    simp only [PoolCommit.apply, bind_ok, mapError_ok] at done
    obtain ⟨result, released, saved⟩ := done
    split at saved
    · rw [mapError_ok] at saved
      obtain ⟨rfl, expected⟩ := putSeatPool_ok saved
      cases current.fresh mem (Option.some.inj (expected pool agreed.stored)).symm
      cases agreed'.stored
      exact .untouched rfl (stay_of_progress agreed.wellFormed
        (releaseDue_progress agreed.wellFormed agreed'.wellFormed released) rfl)
    · rw [pure_eq_ok] at saved
      exact idle saved.symm
  | bindPoolSeat uid uname slotNo =>
    obtain ⟨seats, rfl⟩ := ContestTables.bindPoolSeat_ok (mapError_ok.mp done)
    cases agreed.stored.symm.trans agreed'.stored
    exact .untouched rfl fun seat mem _ => ⟨seat, mem, rfl, rfl⟩
  | grow mains spares commandId expectedRevision marks added =>
    simp only [PoolCommit.apply, bind_ok, mapError_ok] at done
    obtain ⟨grown, -, done⟩ := done
    split at done
    · rw [pure_eq_ok] at done
      exact idle done.symm
    · simp only [bind_ok, mapError_ok] at done
      obtain ⟨state, -, committed⟩ := done
      obtain ⟨stored, kept⟩ := ContestTables.commitPoolExpansion_ok agreed.stored committed
      cases agreed'.stored.symm.trans stored
      simp only [ContestTables.commitPoolExpansion, bind_ok, raiseIf_ok, pure_eq_ok] at committed
      obtain ⟨_, -, _, -, _, -, _, -, _, -, _, -, _, -, _, -, resources, inserted, rfl⟩ := committed
      exact .still (insertResources_ok agreed.unshared inserted).1 fun seat mem _ =>
        ⟨seat, bySlot_same agreed.distinct mem (kept _ (List.mem_map_of_mem mem)), rfl, rfl⟩
  | replaceFailed slotNo reason nowMs approved commandId expectedRevision =>
    simp only [PoolCommit.apply, bind_ok, mapError_ok] at done
    obtain ⟨result, replaced, done⟩ := done
    split at done
    · rw [pure_eq_ok] at done
      exact idle done.symm
    · rename_i unreplayed
      simp only [bind_ok, mapError_ok, pure_eq_ok] at done
      obtain ⟨⟨bound, _⟩, committed, rfl⟩ := done
      obtain ⟨same, -⟩ := commitPoolReplacement_cases agreed.stored committed
      have expected : expectedRevision = loaded.revision := by
        rcases replaceFailed_ok replaced with replayed | ⟨_, _, _, _, _, expected, _⟩
        · exact absurd replayed unreplayed
        · exact expected
      cases current.fresh mem (same.trans expected)
      have stored := ContestTables.commitPoolReplacement_ok committed
      exact replacement_rotates agreed agreed' replaced
        (Option.some.inj (stored.symm.trans agreed'.stored)) committed
  | repair slotNo expectedRevision marks resource =>
    simp only [PoolCommit.apply, bind_ok, mapError_ok] at done
    obtain ⟨state, -, committed⟩ := done
    obtain ⟨stored, -, kept⟩ := ContestTables.commitPoolRepair_ok agreed.stored committed
    cases agreed'.stored.symm.trans stored
    simp only [ContestTables.commitPoolRepair, bind_ok, raiseIf_ok] at committed
    obtain ⟨_, -, _, -, repaired, -, _, -, previous, found, committed⟩ := committed
    cases agreed.stored.symm.trans (ContestTables.expectRevision_ok found).1
    cases search : pool.bySlot slotNo with
    | none => simp [search] at committed
    | some before =>
      simp only [search, bind_ok, raiseIf_ok, pure_eq_ok, not_or, not_not] at committed
      obtain ⟨_, ⟨-, -, unseated⟩, _, -, _, -, _, -, _, -, resources, inserted, rfl⟩ := committed
      refine .still (insertResource_ok inserted).1 fun seat mem assigned => ?_
      have other : seat.slotNo ≠ slotNo := by
        intro here
        obtain ⟨memBefore, slotBefore⟩ := bySlot_some search
        rw [seat_eq_of_slot agreed.distinct mem memBefore (here.trans slotBefore.symm)] at assigned
        exact assigned unseated
      exact ⟨seat, bySlot_same agreed.distinct mem (kept _ (List.mem_map_of_mem mem) other), rfl,
        rfl⟩
  | reschedule beginAtMs lead endAtMs rule commandId expectedBegin expectedEnd observedAtMs =>
    simp only [PoolCommit.apply, bind_ok, mapError_ok, pure_eq_ok] at done
    obtain ⟨result, rescheduled, ⟨contest, _⟩, committed, rfl⟩ := done
    obtain ⟨stored, resources, -, current', found, same⟩ := commitScheduleSync_ok committed
    cases agreed.stored.symm.trans found
    cases current.fresh mem same
    cases agreed'.stored.symm.trans stored
    have progress : Progress (.reschedule beginAtMs lead) pool result.state :=
      reschedule_progress agreed.wellFormed agreed'.wellFormed rescheduled
    exact .untouched resources (stay_of_progress agreed.wellFormed progress rfl)
  | contest row =>
    simp only [PoolCommit.apply, pure_eq_ok] at done
    subst done
    cases agreed.stored.symm.trans agreed'.stored
    exact .untouched rfl fun seat mem _ => ⟨seat, mem, rfl, rfl⟩

theorem step_rotates (current : Current book pool) (input : Nat × PoolCommit) :
    ∃ next, Current (book.step input) next ∧
      Rotates book.tables (book.step input).tables pool next input.2.added := by
  obtain ⟨next, current'⟩ := step_current current input
  refine ⟨next, current', ?_⟩
  have agreed' := current'.agreed
  have idle (same : book.step input = book) :
      Rotates book.tables (book.step input).tables pool next input.2.added := by
    rw [same] at agreed' ⊢
    cases current.agreed.stored.symm.trans agreed'.stored
    exact .untouched rfl fun seat mem _ => ⟨seat, mem, rfl, rfl⟩
  cases found : book.stored[input.1]? with
  | none => exact idle (by simp [PoolBook.step, found])
  | some loaded =>
    cases done : input.2.apply book.tables loaded with
    | error error => exact idle (by simp [PoolBook.step, found, done])
    | ok written =>
      have stepped : (book.step input).tables = written := by simp [PoolBook.step, found, done]
      rw [stepped] at agreed' ⊢
      exact apply_rotates current (List.mem_of_getElem? found) done agreed'

end Rotation

section Notices
variable {s : NoticeBook} {tables : ContestTables} {pool : SeatPoolState} {tid : String}

theorem seating_iff (agreed : Agreed tables pool) {uid : Int} {slot : Nat} {revision : Int} :
    tables.seating uid = some (slot, revision) ↔ ∃ seat ∈ pool.seats, seat.uid = some uid ∧
      seat.slotNo = slot ∧ ∃ resource ∈ tables.resources, resource.slotNo = seat.slotNo ∧
        resource.credentialRevision = revision := by
  simp only [ContestTables.seating, agreed.stored, bind, pure, Option.bind_some,
    Option.bind_eq_some_iff, Option.some.injEq, Prod.mk.injEq]
  constructor
  · rintro ⟨seat, found, resource, own, slot, revision⟩
    obtain ⟨mem, assigned⟩ := assignment_some found
    obtain ⟨memResource, same⟩ := resource_some own
    exact ⟨seat, mem, assigned, slot, resource, memResource, same, revision⟩
  · rintro ⟨seat, mem, assigned, slot, resource, memResource, same, revision⟩
    refine ⟨seat, assignment_of_mem agreed.wellFormed mem assigned, resource, ?_, slot, revision⟩
    cases search : tables.resource seat.slotNo with
    | none => exact absurd (List.mem_map.mpr ⟨resource, memResource, same⟩) (resource_none search)
    | some other =>
      obtain ⟨memOther, slotOther⟩ := resource_some search
      rw [agreed.resource_eq memOther memResource (slotOther.trans same.symm)]

/-- The student of a notification has a seat with a revision that is not lower. -/
def Backed (tables : ContestTables) (pool : SeatPoolState) (notice : Notice) : Prop :=
  notice.kind = "seat_ready" → ∃ seat ∈ pool.seats, seat.uid = some notice.uid ∧
    ∃ resource ∈ tables.resources, resource.slotNo = seat.slotNo ∧
      notice.credentialRevision ≤ resource.credentialRevision

structure Tracked (s : NoticeBook) (pool : SeatPoolState) : Prop where
  current : Current s.book pool
  positive : ∀ resource ∈ s.book.tables.resources, 1 ≤ resource.credentialRevision
  backed : ∀ notice ∈ s.notices, Backed s.book.tables pool notice

theorem queueSeatNotification_ok {notices : List Notice} {uid : Int} {kind : String}
    {revision : Int} {notificationId : String} {queued : Notice × List Notice}
    (done : Notice.queueSeatNotification notices uid kind revision notificationId = .ok queued) :
    ∀ notice ∈ queued.2, notice ∈ notices ∨ notice = ⟨uid, kind, revision, notificationId⟩ := by
  unfold Notice.queueSeatNotification at done
  split at done
  · cases done
    exact fun notice mem => .inl mem
  · simp only [bind_ok, pure_eq_ok] at done
    obtain ⟨_, _, rfl⟩ := done
    intro notice mem
    rcases List.mem_append.mp mem with old | new
    · exact .inl old
    · exact .inr (List.mem_singleton.mp new)

theorem noticeReleased_backed (positive : ∀ resource ∈ tables.resources,
      1 ≤ resource.credentialRevision) {seat : Seat} (mem : seat ∈ pool.seats)
    {notices notices' : List Notice}
    (backed : ∀ notice ∈ notices, Backed tables pool notice)
    (done : tables.noticeReleased tid notices seat = .ok notices') :
    ∀ notice ∈ notices', Backed tables pool notice := by
  simp only [ContestTables.noticeReleased] at done
  split at done
  · cases done
    exact backed
  · rename_i released
    split at done
    · simp only [throw_ne_ok] at done
    · rename_i resource found
      simp only [bind_ok, pure_eq_ok] at done
      obtain ⟨_, _, queued, inserted, rfl⟩ := done
      intro notice memNotice
      rcases queueSeatNotification_ok inserted notice memNotice with old | rfl
      · exact backed notice old
      · intro _
        obtain ⟨memResource, slot⟩ := resource_some found
        have above := positive resource memResource
        refine ⟨seat, mem, ?_, resource, memResource, slot, ?_⟩
        · cases student : seat.uid with
          | none => simp [student] at released
          | some uid => rfl
        · change (if resource.credentialRevision = 0 then 1 else resource.credentialRevision) ≤ _
          rw [if_neg (by omega)]

/- The loop over the seats, from its end. -/
theorem notifyReleasedSeats_backed (tracked : Tracked s pool) :
    ∀ notice ∈ s.book.tables.notifyReleasedSeats tid s.notices,
      Backed s.book.tables pool notice := by
  have loop : ∀ seats : List Seat, (∀ seat ∈ seats, seat ∈ pool.seats) →
      ∀ notices : List Notice, (∀ notice ∈ notices, Backed s.book.tables pool notice) →
      ∀ notice ∈ seats.foldl (fun notices seat =>
          (s.book.tables.noticeReleased tid notices seat).toOption.getD notices) notices,
        Backed s.book.tables pool notice := by
    intro seats
    induction seats with
    | nil => exact fun _ _ backed => backed
    | cons seat rest ih =>
      intro inside notices backed
      refine ih (fun other mem => inside other (List.mem_cons_of_mem _ mem)) _ ?_
      dsimp only
      cases done : s.book.tables.noticeReleased tid notices seat with
      | error e => exact backed
      | ok notices' =>
        exact noticeReleased_backed tracked.positive (inside seat List.mem_cons_self) backed done
  rw [ContestTables.notifyReleasedSeats, tracked.current.agreed.stored]
  exact loop pool.seats (fun _ mem => mem) s.notices tracked.backed

/- A reminder is of another kind. -/
theorem resendNotification_backed (tracked : Tracked s pool) {uid : Int} {nonce : String}
    {nowMs : Int} {notices : List Notice}
    (done : s.book.tables.resendNotification tid s.notices uid nonce nowMs = .ok notices) :
    ∀ notice ∈ notices, Backed s.book.tables pool notice := by
  simp only [ContestTables.resendNotification, bind_ok] at done
  obtain ⟨_, _, _, _, done⟩ := done
  split at done
  · simp only [throw_ne_ok] at done
  · simp only [bind_ok] at done
    obtain ⟨_, _, done⟩ := done
    split at done
    · simp only [throw_ne_ok] at done
    · simp only [bind_ok, mapError_ok, pure_eq_ok] at done
      obtain ⟨queued, inserted, rfl⟩ := done
      intro notice mem
      rcases queueSeatNotification_ok inserted notice mem with old | rfl
      · exact tracked.backed notice old
      · intro same
        have letter := congrArg (fun text : String => text.toList[7]?) same
        simp at letter

theorem commit_tracked (tracked : Tracked s pool) (input : Nat × PoolCommit)
    (positive : ∀ resource ∈ input.2.added, 1 ≤ resource.credentialRevision) :
    (∃ next, Tracked (s.step tid (.commit input)) next) ∧
      FreshCredentials tid s (.commit input) := by
  obtain ⟨next, current', rotates⟩ := step_rotates tracked.current input
  constructor
  · refine ⟨next, current', fun resource mem => ?_, fun notice mem ready => ?_⟩
    · rcases rotates.resources resource mem with new | ⟨old, memOld, notLower⟩
      · exact positive resource new
      · exact (tracked.positive old memOld).trans notLower
    · obtain ⟨seat, memSeat, assigned, resource, memResource, slot, below⟩ :=
        tracked.backed notice mem ready
      obtain ⟨seat', mem', assigned', resource', memResource', slot', notLower, -⟩ :=
        rotates.students seat memSeat _ assigned resource memResource slot
      exact ⟨seat', mem', assigned', resource', memResource', slot', below.trans notLower⟩
  · intro uid slot revision seated
    obtain ⟨seat, memSeat, assigned, rfl, resource, memResource, same, rfl⟩ :=
      (seating_iff tracked.current.agreed).mp seated
    obtain ⟨seat', mem', assigned', resource', memResource', slot', notLower, higher⟩ :=
      rotates.students seat memSeat _ assigned resource memResource same
    refine ⟨seat'.slotNo, resource'.credentialRevision, (seating_iff current'.agreed).mpr
      ⟨seat', mem', assigned', rfl, resource', memResource', slot', rfl⟩, notLower, fun moved => ?_⟩
    refine ⟨higher moved, List.find?_eq_none.mpr fun notice mem found => ?_⟩
    simp only [Bool.and_eq_true, beq_iff_eq] at found
    obtain ⟨⟨student, ready⟩, revision⟩ := found
    obtain ⟨own, memOwn, ownAssigned, ownResource, memOwnResource, ownSlot, below⟩ :=
      tracked.backed notice mem ready
    rw [student] at ownAssigned
    have itself := tracked.current.agreed.wellFormed.students own memOwn seat memSeat
      (by simp [ownAssigned]) (ownAssigned.trans assigned.symm)
    have sameResource := tracked.current.agreed.resource_eq memOwnResource memResource
      (ownSlot.trans ((congrArg Seat.slotNo itself).trans same.symm))
    rw [sameResource] at below
    have above := higher moved
    omega

/- A step that writes notifications only. -/
theorem still_fresh {input : NoticeInput} (same : (s.step tid input).book = s.book) :
    FreshCredentials tid s input := by
  intro uid slot revision seated
  exact ⟨slot, revision, same ▸ seated, le_rfl, fun moved => absurd rfl moved⟩

theorem step_tracked (tracked : Tracked s pool) (input : NoticeInput)
    (positive : ∀ resource ∈ input.added, 1 ≤ resource.credentialRevision) :
    (∃ next, Tracked (s.step tid input) next) ∧ FreshCredentials tid s input := by
  cases input with
  | commit input => exact commit_tracked tracked input positive
  | notify =>
    exact ⟨⟨pool, tracked.current, tracked.positive, notifyReleasedSeats_backed tracked⟩,
      still_fresh rfl⟩
  | resend uid nonce nowMs =>
    refine ⟨⟨pool, tracked.current, tracked.positive, ?_⟩, still_fresh rfl⟩
    change ∀ notice ∈ (s.book.tables.resendNotification tid s.notices uid nonce
      nowMs).toOption.getD s.notices, _
    cases done : s.book.tables.resendNotification tid s.notices uid nonce nowMs with
    | error e => exact tracked.backed
    | ok notices => exact resendNotification_backed tracked done

theorem mem_putSeatPoolResource {written : ContestTables} {added : PoolResource}
    (done : tables.putSeatPoolResource added = .ok written) :
    ∀ resource ∈ written.resources, resource = added ∨ resource ∈ tables.resources := by
  obtain ⟨_, _, done⟩ := bind_ok.mp done
  rw [pure_eq_ok] at done
  subst done
  intro resource mem
  dsimp only at mem
  split_ifs at mem
  · obtain ⟨old, memOld, rfl⟩ := List.mem_map.mp mem
    by_cases here : old.slotNo = added.slotNo
    · exact .inl (if_pos here)
    · exact .inr (by rwa [if_neg here])
  · rcases List.mem_append.mp mem with old | new
    · exact .inr old
    · exact .inl (List.mem_singleton.mp new)

/- The seats of a new pool have the first revision. -/
theorem preheatSlot_positive {contestId image material : String} {outside : Nat → Preheating}
    {state : SeatPoolState} {slotNo : Nat} {written : ContestTables × SeatPoolState}
    (did : preheatSlot contestId image material outside (tables, state) slotNo = .ok written)
    (positive : ∀ resource ∈ tables.resources, 1 ≤ resource.credentialRevision) :
    ∀ resource ∈ written.1.resources, 1 ≤ resource.credentialRevision := by
  simp only [preheatSlot, bind_ok, mapError_ok, pure_eq_ok] at did
  obtain ⟨_, _, _, saved, _, _, _, _, added, put, _, _, _, saved', rfl⟩ := did
  rw [(putSeatPool_ok saved').1]
  rw [(putSeatPool_ok saved).1] at put
  intro resource mem
  rcases mem_putSeatPoolResource put resource mem with rfl | old
  · exact le_rfl
  · exact positive resource old

theorem preheat_positive {contestId image material : String} {outside : Nat → Preheating}
    {todo : List Nat} {start done : ContestTables × SeatPoolState}
    (did : todo.foldlM (preheatSlot contestId image material outside) start = .ok done)
    (positive : ∀ resource ∈ start.1.resources, 1 ≤ resource.credentialRevision) :
    ∀ resource ∈ done.1.resources, 1 ≤ resource.credentialRevision := by
  induction todo generalizing start with
  | nil =>
    cases did
    exact positive
  | cons slot rest ih =>
    rw [List.foldlM_cons, bind_ok] at did
    obtain ⟨next, first, did⟩ := did
    exact ih did (preheatSlot_positive first positive)

theorem preparePool_positive {cfg : Pipeline.Config} {contest : Contest} {participants : Nat}
    {imageOutput : String} {outside : Nat → Preheating} {before : ContestTables}
    {prepared : ContestTables × SeatPoolState}
    (did : preparePool cfg contest participants imageOutput outside before = .ok prepared) :
    ∀ resource ∈ prepared.1.resources, 1 ≤ resource.credentialRevision := by
  simp only [preparePool, bind_ok, mapError_ok, pure_eq_ok] at did
  obtain ⟨_, -, _, -, _, -, _, -, image, -, pool, -, initial, saved, _, looped, _, -, rfl⟩ := did
  refine preheat_positive looped ?_
  rw [(putSeatPool_ok saved).1]
  exact nofun

/- A pool from its preparation on, whatever the commits and the notifier do. The resources that
   come later are new, as all resources that are made for a slot. -/
theorem credentials_stay_fresh {cfg : Pipeline.Config} {contest : Contest} {participants : Nat}
    {imageOutput : String} {outside : Nat → Preheating} {before : ContestTables}
    {prepared : ContestTables × SeatPoolState}
    (did : preparePool cfg contest participants imageOutput outside before = .ok prepared)
    (tid : String) (inputs : List NoticeInput)
    (fresh : ∀ input ∈ inputs, ∀ resource ∈ input.added, resource.credentialRevision = 1) :
    Runs.Guarded (NoticeBook.step tid) (FreshCredentials tid) ⟨PoolBook.prepared prepared, []⟩
      inputs := by
  have start : Tracked ⟨PoolBook.prepared prepared, []⟩ prepared.2 :=
    ⟨prepared_current (preparePool_agreed did), preparePool_positive did, nofun⟩
  generalize (⟨PoolBook.prepared prepared, []⟩ : NoticeBook) = s at start
  generalize prepared.2 = pool at start
  clear did
  induction inputs generalizing s pool with
  | nil => trivial
  | cons input rest ih =>
    have positive : ∀ resource ∈ input.added, 1 ≤ resource.credentialRevision :=
      fun resource mem => (fresh input List.mem_cons_self resource mem).ge
    obtain ⟨⟨next, tracked⟩, rotated⟩ := step_tracked start input positive
    exact ⟨rotated, ih (fun later mem => fresh later (List.mem_cons_of_mem _ mem)) _ _ tracked⟩

end Notices

/- The student is told of the first seat, moved, and told of the second one. -/
def noticedReplacement : List NoticeInput :=
  [.commit (0, .reserve 7 "alice" 999999999 "reserve"), .commit (1, .bindPoolSeat 7 "alice" 1),
    .notify, .commit (1, .replaceFailed 1 "broken" 999999999 true "replace" 7), .notify]

theorem credentials_stay_fresh_small : ∃ prepared, smallPrepared = .ok prepared ∧
    Runs.Guarded (NoticeBook.step smallContest.tid) (FreshCredentials smallContest.tid)
      ⟨PoolBook.prepared prepared, []⟩ noticedReplacement := by
  obtain ⟨prepared, did⟩ := smallPrepared_accepted
  exact ⟨prepared, did, credentials_stay_fresh did smallContest.tid noticedReplacement
    (by simp [noticedReplacement, NoticeInput.added, PoolCommit.added])⟩

end LivePool
end NoiContest
