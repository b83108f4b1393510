import NoiContest.LivePool.Agreement

/- Every transaction of the pool keeps the relation of the three tables. -/
namespace NoiContest.LivePool
open Outcome SeatPool SeatPoolState

variable {tables written : ContestTables} {pool state : SeatPoolState}

section Rows

theorem upsertSeat_ok {seats seats' : List SeatRow} {row : SeatRow}
    (done : ContestTables.upsertSeat seats row = .ok seats') :
    ∀ row' ∈ seats', row' = row ∨ (row' ∈ seats ∧ row'.uid ≠ row.uid) := by
  obtain ⟨_, -, done⟩ := bind_ok.mp done
  rw [pure_eq_ok] at done
  intro row' mem
  rw [← done] at mem
  split at mem
  · obtain ⟨old, memOld, eq⟩ := List.mem_map.mp mem
    split at eq
    · exact .inl eq.symm
    · rename_i other
      exact .inr (eq ▸ ⟨memOld, other⟩)
  · rename_i absent
    rcases List.mem_append.mp mem with old | new
    · exact .inr ⟨old, fun same => absent (same ▸ List.mem_map_of_mem old)⟩
    · exact .inl (List.mem_singleton.mp new)

theorem insertResource_ok {resources resources' : List PoolResource} {added : PoolResource}
    (done : ContestTables.insertResource resources added = .ok resources') :
    resources' = resources ++ [added] ∧ ∀ other ∈ resources, other.slotNo ≠ added.slotNo ∧
      other.token ≠ added.token ∧ other.submitToken ≠ added.submitToken := by
  obtain ⟨_, unique, done⟩ := bind_ok.mp done
  rw [pure_eq_ok] at done
  refine ⟨done.symm, fun other mem => ?_⟩
  simp only [raiseIf_ok, not_exists, not_and, not_or] at unique
  obtain ⟨slot, token, submitToken, -⟩ := unique other mem
  exact ⟨slot, token, submitToken⟩

/-- No two resources share a slot or a token. -/
structure Unshared (resources : List PoolResource) : Prop where
  slots : (resources.map (·.slotNo)).Nodup
  tokens : ∀ a ∈ resources, ∀ b ∈ resources,
    a.token = b.token ∨ a.submitToken = b.submitToken → a.slotNo = b.slotNo

theorem insertResource_unshared {resources resources' : List PoolResource} {added : PoolResource}
    (unshared : Unshared resources)
    (done : ContestTables.insertResource resources added = .ok resources') : Unshared resources' := by
  obtain ⟨rfl, unique⟩ := insertResource_ok done
  constructor
  · rw [List.map_append, List.nodup_append']
    refine ⟨unshared.slots, List.nodup_singleton _, ?_⟩
    simp only [List.map_cons, List.map_nil, List.disjoint_singleton]
    intro mem
    obtain ⟨other, memOther, same⟩ := List.mem_map.mp mem
    exact (unique other memOther).1 same
  · intro a memA b memB shared
    rcases List.mem_append.mp memA with oldA | newA
    · rcases List.mem_append.mp memB with oldB | newB
      · exact unshared.tokens a oldA b oldB shared
      · rw [List.mem_singleton.mp newB] at shared
        exact absurd shared (not_or.mpr (unique a oldA).2)
    · rw [List.mem_singleton.mp newA] at shared ⊢
      rcases List.mem_append.mp memB with oldB | newB
      · exact absurd (shared.imp Eq.symm Eq.symm) (not_or.mpr (unique b oldB).2)
      · rw [List.mem_singleton.mp newB]

theorem insertResources_ok {added resources resources' : List PoolResource}
    (unshared : Unshared resources)
    (done : added.foldlM ContestTables.insertResource resources = .ok resources') :
    resources' = resources ++ added ∧ Unshared resources' := by
  induction added generalizing resources with
  | nil =>
    cases done
    exact ⟨(List.append_nil _).symm, unshared⟩
  | cons first rest ih =>
    rw [List.foldlM_cons, bind_ok] at done
    obtain ⟨next, inserted, done⟩ := done
    obtain ⟨grown, unshared'⟩ := ih (insertResource_unshared unshared inserted) done
    rw [(insertResource_ok inserted).1] at grown
    exact ⟨grown.trans (List.append_assoc _ _ _), unshared'⟩

theorem Agreed.unshared (agreed : Agreed tables pool) : Unshared tables.resources :=
  ⟨agreed.slots, agreed.tokens⟩

end Rows

section Commits

theorem validatePoolResource_ok {resource : PoolResource} {seat : Seat}
    (valid : ContestTables.validatePoolResource state resource = .ok seat) :
    seat ∈ state.seats ∧ seat.slotNo = resource.slotNo ∧ seat.state = .verified ∧
      seat.evidence = resource.evidence := by
  unfold ContestTables.validatePoolResource at valid
  cases found : state.bySlot resource.slotNo with
  | none => simp [found] at valid
  | some other =>
    simp only [found, bind_ok, raiseIf_ok, pure_eq_ok, ne_eq, not_not] at valid
    obtain ⟨_, verified, _, evidence, rfl⟩ := valid
    obtain ⟨mem, slot⟩ := bySlot_some found
    exact ⟨mem, slot, verified, evidence⟩

theorem putSeatPool_ok {expected : Option Int}
    (committed : tables.putSeatPool expected state = .ok written) :
    written = tables.withPool state ∧
      ∀ current, tables.pool = some current → expected = some (current.revision : Int) := by
  unfold ContestTables.putSeatPool at committed
  cases stored : tables.pool with
  | none =>
    simp only [stored, bind_ok, pure_eq_ok] at committed
    obtain ⟨_, -, rfl⟩ := committed
    exact ⟨rfl, fun current impossible => by cases impossible⟩
  | some current =>
    simp only [stored, bind_ok, raiseIf_ok, pure_eq_ok, ne_eq, not_not] at committed
    obtain ⟨_, expected, rfl⟩ := committed
    refine ⟨rfl, ?_⟩
    rintro _ ⟨⟩
    exact expected

theorem commitScheduleSync_ok {expectedBegin expectedEnd beginAtMs endAtMs : Int}
    {hydroRule : String} {observed expected : Int} {contest : Contest}
    (committed : tables.commitScheduleSync expectedBegin expectedEnd beginAtMs endAtMs hydroRule
      observed expected state = .ok (contest, written)) :
    written.pool = some state ∧ written.resources = tables.resources ∧
      written.seats = tables.seats ∧
      ∃ current, tables.pool = some current ∧ (current.revision : Int) = expected := by
  unfold ContestTables.commitScheduleSync at committed
  cases present : tables.contest with
  | none => simp [present] at committed
  | some before =>
    simp only [present, bind_ok, pure_eq_ok, Prod.mk.injEq] at committed
    obtain ⟨_, -, _, -, current, found, _, -, -, rfl⟩ := committed
    exact ⟨rfl, rfl, rfl, current, ContestTables.expectRevision_ok found⟩

/- A student is bound to the resource of the own seat. -/
theorem bound_agreed (agreed : Agreed tables pool) {uid : Int} {uname : String} {slotNo : Nat}
    (bound : tables.bindPoolSeat uid uname slotNo = .ok written) : Agreed written pool := by
  unfold ContestTables.bindPoolSeat at bound
  rw [agreed.stored] at bound
  cases found : tables.resource slotNo with
  | none => simp [found] at bound
  | some resource =>
    cases search : pool.bySlot slotNo with
    | none => simp [found, search] at bound
    | some seat =>
      simp only [found, search, bind_ok, raiseIf_ok, pure_eq_ok] at bound
      obtain ⟨_, identity, _, -, seats, upserted, rfl⟩ := bound
      obtain ⟨memSeat, slot⟩ := bySlot_some search
      obtain ⟨memResource, slotResource⟩ := resource_some found
      simp only [ne_eq, not_or, not_not, not_and] at identity
      have seated : seat.state.IsSeated := by
        by_cases reserved : seat.state = .reserved
        · exact .inl reserved
        · exact .inr (.inl (identity.2.2 reserved))
      have assigned := (agreed.wellFormed.seats seat memSeat).seated.mpr seated
      obtain ⟨own, is⟩ := Option.ne_none_iff_exists'.mp assigned
      have student : seat.uid = some uid := by
        rw [is]
        rw [is] at identity
        exact congrArg some identity.1
      refine { agreed with rows := ?_, stored := rfl }
      intro row mem
      rcases upsertSeat_ok upserted row mem with rfl | ⟨old, -⟩
      · exact ⟨seat, memSeat, resource, memResource, student, slotResource.trans slot.symm, rfl⟩
      · exact agreed.rows row old

theorem validated_all {added : List PoolResource} {seen seen' : List Nat}
    (done : added.foldlM (fun seen resource => do
      let _ ← ContestTables.validatePoolResource state resource
      raiseIf (resource.slotNo ∈ seen) (StoreError.valueError "新增座位编号重复")
      return resource.slotNo :: seen) seen = .ok seen') :
    ∀ resource ∈ added, ∃ seat ∈ state.seats, seat.slotNo = resource.slotNo ∧
      seat.state = .verified ∧ seat.evidence = resource.evidence := by
  induction added generalizing seen with
  | nil => simp
  | cons first rest ih =>
    simp only [List.foldlM_cons, bind_ok, pure_eq_ok] at done
    obtain ⟨_, ⟨seat, valid, -⟩, done⟩ := done
    rintro resource (_ | ⟨_, later⟩)
    · exact ⟨seat, validatePoolResource_ok valid⟩
    · exact ih done resource later

/- Seats that stand in both pools under the same slot are the same seats. -/
theorem bySlot_same (distinct : pool.slots.Nodup) {seat : Seat} (mem : seat ∈ pool.seats)
    (same : state.bySlot seat.slotNo = pool.bySlot seat.slotNo) : seat ∈ state.seats :=
  (bySlot_some (same.trans (bySlot_mem distinct mem))).1

theorem expansion_agreed (agreed : Agreed tables pool) {tid : String} {revision : Int}
    {added : List PoolResource} (wellFormed : state.WellFormed)
    (committed : tables.commitPoolExpansion tid revision state added = .ok written) :
    Agreed written state ∧ (pool.revision : Int) = revision ∧ revision < state.revision := by
  simp only [ContestTables.commitPoolExpansion, bind_ok, raiseIf_ok, pure_eq_ok] at committed
  obtain ⟨_, -, _, -, _, validated, previous, found, _, apart, _, kept, _, complete, _, later,
    resources, inserted, rfl⟩ := committed
  obtain ⟨stored, same⟩ := ContestTables.expectRevision_ok found
  cases agreed.stored.symm.trans stored
  simp only [not_exists, not_and, not_not, ne_eq] at apart kept complete
  obtain ⟨grown, unshared⟩ := insertResources_ok agreed.unshared inserted
  have valid := validated_all validated
  have outside : ∀ seat ∈ pool.seats, seat.slotNo ∉ added.map (·.slotNo) := by
    intro seat mem new
    obtain ⟨resource, memResource, slot⟩ := List.mem_map.mp new
    exact apart resource memResource (slot ▸ List.mem_map_of_mem mem)
  refine ⟨?_, same, by omega⟩
  refine agreed.joined wellFormed rfl grown unshared.slots unshared.tokens rfl ?_ ?_ ?_ ?_
  · exact fun seat mem _ => bySlot_same agreed.distinct mem (kept _ (List.mem_map_of_mem mem))
  · intro seat mem
    by_cases old : seat.slotNo ∈ pool.slots
    · have before : seat ∈ pool.seats := bySlot_same wellFormed.distinct mem (kept _ old).symm
      exact .inl ⟨before, outside seat before⟩
    · obtain ⟨resource, memResource, slot⟩ :=
        List.mem_map.mp (complete seat.slotNo (List.mem_map_of_mem mem) old)
      obtain ⟨own, memOwn, slotOwn, verified, evidence⟩ := valid resource memResource
      have itself : own = seat :=
        SeatPoolState.seat_eq_of_slot wellFormed.distinct memOwn mem (slotOwn.trans slot)
      exact .inr ⟨resource, memResource, slot, itself ▸ verified, itself ▸ evidence⟩
  · intro resource mem
    obtain ⟨seat, memSeat, slot, verified, -⟩ := valid resource mem
    exact ⟨seat, memSeat, slot, verified⟩
  · exact fun seat mem new => absurd new (outside seat mem)

theorem repair_agreed (agreed : Agreed tables pool) {tid : String} {revision : Int}
    {resource : PoolResource} {slotNo : Nat} (wellFormed : state.WellFormed)
    (committed : tables.commitPoolRepair tid revision state resource slotNo = .ok written) :
    Agreed written state ∧ (pool.revision : Int) = revision ∧ revision < state.revision := by
  simp only [ContestTables.commitPoolRepair, bind_ok, raiseIf_ok, ne_eq, not_not] at committed
  obtain ⟨_, -, _, slot, repaired, valid, _, -, previous, found, committed⟩ := committed
  obtain ⟨stored, same⟩ := ContestTables.expectRevision_ok found
  cases agreed.stored.symm.trans stored
  obtain ⟨memRepaired, slotRepaired, verified, evidence⟩ := validatePoolResource_ok valid
  cases search : pool.bySlot slotNo with
  | none => simp [search] at committed
  | some before =>
    simp only [search, bind_ok, raiseIf_ok, pure_eq_ok, not_or, not_not] at committed
    obtain ⟨_, ⟨⟨new, old⟩, -, unseated⟩, _, kept, _, -, _, later, _, -, resources, inserted,
      rfl⟩ := committed
    simp only [not_exists, not_and, not_not] at kept
    obtain ⟨memBefore, slotBefore⟩ := bySlot_some search
    have grown := (insertResource_ok inserted).1
    have unshared := insertResource_unshared agreed.unshared inserted
    have single (slot' : Nat) : slot' ∈ [resource].map (·.slotNo) ↔ slot' = slotNo := by
      rw [List.map_cons, List.map_nil, List.mem_singleton, slot]
    refine ⟨?_, same, by omega⟩
    refine agreed.joined wellFormed rfl grown unshared.slots unshared.tokens rfl ?_ ?_ ?_ ?_
    · intro seat mem other
      rw [single] at other
      exact bySlot_same agreed.distinct mem (kept _ (List.mem_map_of_mem mem) other)
    · intro seat mem
      by_cases here : seat.slotNo = slotNo
      · have itself : repaired = seat := SeatPoolState.seat_eq_of_slot wellFormed.distinct
          memRepaired mem (slotRepaired.trans (slot.trans here.symm))
        exact .inr ⟨resource, List.mem_singleton_self _, slot.trans here.symm, itself ▸ verified,
          itself ▸ evidence⟩
      · refine .inl ⟨?_, (single _).not.mpr here⟩
        exact bySlot_same wellFormed.distinct mem
          (kept _ (old _ (List.mem_map_of_mem mem)) here).symm
    · intro other mem
      rw [List.mem_singleton.mp mem]
      exact ⟨repaired, memRepaired, slotRepaired, verified⟩
    · intro seat mem new
      rw [single] at new
      have itself : seat = before :=
        SeatPoolState.seat_eq_of_slot agreed.distinct mem memBefore (new.trans slotBefore.symm)
      rw [itself]
      exact unseated

/- What a replacement that is committed has checked and written. -/
theorem commitPoolReplacement_cases {tid : String} {revision : Int} {failedSlot : Nat}
    {bound : Option PoolResource} (stored : tables.pool = some pool)
    (committed : tables.commitPoolReplacement tid revision state failedSlot =
      .ok (bound, written)) :
    (pool.revision : Int) = revision ∧ revision < state.revision ∧
      ∃ oldSeat failed replacement, pool.bySlot failedSlot = some oldSeat ∧
        state.bySlot failedSlot = some failed ∧ failed.state = .planned ∧
        tables.replacementFor state (oldSeat.uid.getD 0) = .ok replacement ∧
        (∀ slot ∈ pool.slots, slot ∉ failedSlot :: (replacement.map (·.1.slotNo)).toList →
          state.bySlot slot = pool.bySlot slot) ∧
        ((replacement = none ∧ written = { tables.withPool state with
            resources := tables.resources.filter (·.slotNo != failedSlot) }) ∨
          ∃ seat resource credentialRevision seats, replacement = some (seat, resource) ∧
            ContestTables.upsertSeat tables.seats (ContestTables.seatRow (oldSeat.uid.getD 0)
              (if seat.uname = "" then oldSeat.uname else seat.uname) resource) = .ok seats ∧
            written = { tables.withPool state with
              resources := (tables.resources.filter (·.slotNo != failedSlot)).map fun other =>
                if other.slotNo = seat.slotNo
                then { resource with credentialRevision := credentialRevision } else other
              seats := seats }) := by
  simp only [ContestTables.commitPoolReplacement, bind_ok, raiseIf_ok] at committed
  obtain ⟨_, -, previous, found, _, later, committed⟩ := committed
  obtain ⟨stored', same⟩ := ContestTables.expectRevision_ok found
  cases stored.symm.trans stored'
  refine ⟨same, by omega, ?_⟩
  cases before : pool.bySlot failedSlot with
  | none => simp [before] at committed
  | some oldSeat =>
    cases after : state.bySlot failedSlot with
    | none => simp [before, after] at committed
    | some failed =>
      simp only [before, after, bind_ok, raiseIf_ok, ne_eq, not_not] at committed
      obtain ⟨_, planned, replacement, search, _, -, _, kept, committed⟩ := committed
      simp only [not_exists, not_and, not_not] at kept
      refine ⟨oldSeat, failed, replacement, rfl, rfl, planned, search, kept, ?_⟩
      cases replacement with
      | none =>
        simp only [pure_eq_ok, Prod.mk.injEq] at committed
        exact .inl ⟨rfl, committed.2.symm⟩
      | some found =>
        simp only [bind_ok, pure_eq_ok, Prod.mk.injEq] at committed
        obtain ⟨seats, upserted, -, same⟩ := committed
        exact .inr ⟨found.1, found.2, _, seats, rfl, upserted, same.symm⟩

theorem replacementFor_some {uid : Int} {seat : Seat} {resource : PoolResource}
    (found : tables.replacementFor state uid = .ok (some (seat, resource))) :
    uid ≠ 0 ∧ seat ∈ state.seats ∧ seat.uid = some uid ∧ resource ∈ tables.resources ∧
      resource.slotNo = seat.slotNo := by
  unfold ContestTables.replacementFor at found
  by_cases nobody : uid = 0
  · simp [nobody] at found
  · rw [if_neg nobody] at found
    cases search : state.seats.find? (fun seat => seat.uid.getD 0 == uid) with
    | none => simp [search] at found
    | some replacement =>
      simp only [search, bind_ok] at found
      obtain ⟨_, -, found⟩ := found
      cases connection : tables.resource replacement.slotNo with
      | none => simp [connection] at found
      | some own =>
        simp only [connection, bind_ok, pure_eq_ok, Option.some.injEq, Prod.mk.injEq] at found
        obtain ⟨_, -, rfl, rfl⟩ := found
        obtain ⟨mem, slot⟩ := resource_some connection
        refine ⟨nobody, List.mem_of_find?_eq_some search, ?_, mem, slot⟩
        have student := List.find?_some search
        rw [beq_iff_eq] at student
        cases own : replacement.uid with
        | none => simp [own] at student; exact absurd student.symm nobody
        | some other => simpa [own] using student

theorem replacementFor_none {uid : Int} (found : tables.replacementFor state uid = .ok none) :
    uid = 0 := by
  unfold ContestTables.replacementFor at found
  by_cases nobody : uid = 0
  · exact nobody
  · rw [if_neg nobody] at found
    cases search : state.seats.find? (fun seat => seat.uid.getD 0 == uid) with
    | none => simp [search] at found
    | some replacement =>
      simp only [search, bind_ok] at found
      obtain ⟨_, -, found⟩ := found
      cases connection : tables.resource replacement.slotNo with
      | none => simp [connection] at found
      | some own =>
        simp only [connection, bind_ok, pure_eq_ok] at found
        obtain ⟨_, -, impossible⟩ := found
        cases impossible

theorem replaceFailed_replayed {slotNo : Nat} {reason : String} {nowMs : Int} {approved : Bool}
    {commandId : String} {expectedRevision : Int} {result : TransitionResult}
    (done : pool.replaceFailed slotNo reason nowMs approved commandId expectedRevision =
      .ok result) (replayed : result.replayed = true) : result.state = pool := by
  obtain ⟨_, -, done⟩ := bind_ok.mp done
  rcases SeatPoolState.apply_ok done with ⟨_, _, _, rfl⟩ | ⟨_, _, _, _, rfl⟩
  · rfl
  · cases replayed

/- The failed seat had no student, so no seat row is concerned. -/
theorem emptied_agreed (agreed : Agreed tables pool) {f : Seat → Seat} {slotNo : Nat}
    (seats : state.seats = pool.seats.map f)
    (reset : ∀ seat ∈ pool.seats, seat.slotNo = slotNo →
      seat.uid = none ∧ (f seat).slotNo = slotNo ∧ (f seat).state = .planned ∧ (f seat).uname = "")
    (others : ∀ seat ∈ pool.seats, seat.slotNo ≠ slotNo → f seat = seat)
    (wellFormed : state.WellFormed) :
    Agreed { tables.withPool state with
      resources := tables.resources.filter (·.slotNo != slotNo) } state := by
  refine agreed.isolated seats (fun seat mem here => (reset seat mem here).2)
    (fun seat mem here => by rw [others seat mem here]; exact agreed.stands mem) wellFormed rfl
    (List.map_id _).symm (fun resource _ => ⟨resource.credentialRevision, rfl⟩) ?_
  intro row mem
  obtain ⟨seat, memSeat, resource, memResource, student, same, carried⟩ := agreed.rows row mem
  have elsewhere : seat.slotNo ≠ slotNo := by
    intro here
    rw [(reset seat memSeat here).1] at student
    cases student
  refine ⟨seat, ?_, resource, ?_, student, same, carried⟩
  · rw [seats, ← others seat memSeat elsewhere]
    exact List.mem_map_of_mem memSeat
  · exact List.mem_filter.mpr ⟨memResource, by simpa [same] using elsewhere⟩

theorem replacementFor_unassigned {oldSeat : Seat} {replacement : Option (Seat × PoolResource)}
    (unassigned : oldSeat.uid = none)
    (search : tables.replacementFor state (oldSeat.uid.getD 0) = .ok replacement) :
    replacement = none := by
  cases replacement with
  | none => rfl
  | some pair =>
    refine absurd ?_ (replacementFor_some search).1
    rw [unassigned]
    rfl

theorem takeOver_stands {spare failed : Seat} {nowMs releaseAtMs : Int}
    (free : isFreeSpare spare = true) :
    Stands spare (takeOver spare failed nowMs releaseAtMs) := by
  have verified : spare.state = .verified := by
    simp only [isFreeSpare, Bool.and_eq_true, beq_iff_eq] at free
    exact free.1.2
  have seated := SeatPoolState.takeOver_seated spare failed nowMs releaseAtMs
  have active : (takeOver spare failed nowMs releaseAtMs).state ≠ .planned ∧
      (takeOver spare failed nowMs releaseAtMs).state ≠ .warming := by
    rcases seated with is | is | is | is <;> rw [is] <;> decide
  refine ⟨rfl, ?_, active.2, rfl, fun planned => absurd planned active.1⟩
  rw [verified]
  exact ⟨fun planned => absurd planned active.1, fun impossible => by cases impossible⟩

/- The student of the failed seat sits at the spare, under the resource of the spare. -/
theorem cutOver_agreed (agreed : Agreed tables pool) {slotNo : Nat} {reason : String}
    {nowMs : Int} {failed spare reset moved : Seat} {replacement : Option (Seat × PoolResource)}
    (memFailed : failed ∈ pool.seats) (slotFailed : failed.slotNo = slotNo)
    (assigned : failed.uid ≠ none) (memSpare : spare ∈ pool.seats)
    (free : isFreeSpare spare = true) (isReset : reset = resetFailed failed .spare reason)
    (isMoved : moved = takeOver spare failed nowMs pool.releaseAtMs)
    (seats : state.seats =
      SeatPoolState.replaceSeat (SeatPoolState.replaceSeat pool.seats reset) moved)
    (wellFormed : state.WellFormed)
    (search : tables.replacementFor state (failed.uid.getD 0) = .ok replacement)
    (kept : ∀ slot ∈ pool.slots, slot ∉ slotNo :: (replacement.map (·.1.slotNo)).toList →
      state.bySlot slot = pool.bySlot slot)
    (outcome : (replacement = none ∧ written = { tables.withPool state with
        resources := tables.resources.filter (·.slotNo != slotNo) }) ∨
      ∃ seat resource credentialRevision rows, replacement = some (seat, resource) ∧
        ContestTables.upsertSeat tables.seats (ContestTables.seatRow (failed.uid.getD 0)
          (if seat.uname = "" then failed.uname else seat.uname) resource) = .ok rows ∧
        written = { tables.withPool state with
          resources := (tables.resources.filter (·.slotNo != slotNo)).map fun other =>
            if other.slotNo = seat.slotNo
            then { resource with credentialRevision := credentialRevision } else other
          seats := rows }) : Agreed written state := by
  have slotReset : reset.slotNo = slotNo := by
    rw [isReset]
    exact slotFailed
  have slotMoved : moved.slotNo = spare.slotNo := by rw [isMoved]; rfl
  have unseated : spare.uid = none := by
    simp only [isFreeSpare, Bool.and_eq_true, beq_iff_eq] at free
    exact free.2
  have apart : spare.slotNo ≠ slotNo := by
    intro here
    have itself : spare = failed := SeatPoolState.seat_eq_of_slot agreed.distinct memSpare memFailed
      (here.trans slotFailed.symm)
    exact assigned (itself ▸ unseated)
  have studentMoved : moved.uid = failed.uid := by rw [isMoved]; rfl
  have memMoved : moved ∈ state.seats := by
    rw [seats, SeatPoolState.mem_replaceSeat, SeatPoolState.replaceSeat_slots, slotMoved]
    exact .inl ⟨rfl, List.mem_map_of_mem memSpare⟩
  rcases outcome with ⟨nobody, -⟩ | ⟨seat, resource, credentialRevision, rows, somebody, upserted,
    rfl⟩
  · -- a student without an account number is not moved, so the spare could not change
    subst nobody
    have same := kept spare.slotNo (List.mem_map_of_mem memSpare) (by simpa using apart)
    rw [bySlot_mem agreed.distinct memSpare, ← slotMoved,
      bySlot_mem wellFormed.distinct memMoved] at same
    cases same
    exact absurd (studentMoved.symm.trans unseated) assigned
  · cases somebody
    obtain ⟨-, memSeat, student, memResource, slotResource⟩ := replacementFor_some search
    have studentFailed : failed.uid = some (failed.uid.getD 0) := by
      obtain ⟨uid, is⟩ := Option.ne_none_iff_exists'.mp assigned
      rw [is]
      rfl
    have itself : moved = seat := by
      refine wellFormed.students moved memMoved seat memSeat (studentMoved ▸ assigned) ?_
      rw [studentMoved, student, ← studentFailed]
    subst itself
    have recredited : ∀ other ∈ tables.resources, ∃ revision,
        (if other.slotNo = moved.slotNo
          then { resource with credentialRevision := credentialRevision } else other) =
        { other with credentialRevision := revision } := by
      intro other mem
      by_cases here : other.slotNo = moved.slotNo
      · rw [if_pos here, agreed.resource_eq mem memResource (here.trans slotResource.symm)]
        exact ⟨_, rfl⟩
      · rw [if_neg here]
        exact ⟨other.credentialRevision, rfl⟩
    have mapped : state.seats = pool.seats.map fun seat =>
        if seat.slotNo = slotNo then reset
        else if seat.slotNo = spare.slotNo then moved else seat := by
      rw [seats, replaceSeat, replaceSeat, List.map_map]
      refine List.map_congr_left fun seat _ => ?_
      by_cases here : seat.slotNo = slotNo
      · simp [here, slotReset, slotMoved, Ne.symm apart]
      · simp [here, slotReset, slotMoved]
    refine agreed.isolated mapped ?_ ?_ wellFormed rfl rfl recredited ?_
    · intro seat _ here
      rw [if_pos here]
      exact ⟨slotReset, by rw [isReset]; rfl, by rw [isReset]; rfl⟩
    · intro seat mem elsewhere
      rw [if_neg elsewhere]
      by_cases here : seat.slotNo = spare.slotNo
      · rw [if_pos here, seat_eq_of_slot agreed.distinct mem memSpare here, isMoved]
        exact takeOver_stands free
      · rw [if_neg here]
        exact agreed.stands mem
    · intro row mem
      rcases upsertSeat_ok upserted row mem with rfl | ⟨old, other⟩
      · refine ⟨moved, memMoved, { resource with credentialRevision := credentialRevision }, ?_,
          student, slotResource, rfl⟩
        refine List.mem_map.mpr ⟨resource, List.mem_filter.mpr ⟨memResource, ?_⟩, if_pos slotResource⟩
        simpa [slotResource, slotMoved] using apart
      · obtain ⟨own, memOwn, connection, memConnection, seated, same, carried⟩ :=
          agreed.rows row old
        have notFailed : own.slotNo ≠ slotNo := by
          intro here
          rw [seat_eq_of_slot agreed.distinct memOwn memFailed (here.trans slotFailed.symm),
            studentFailed] at seated
          exact other (Option.some.inj seated).symm
        have notSpare : own.slotNo ≠ spare.slotNo := by
          intro here
          rw [seat_eq_of_slot agreed.distinct memOwn memSpare here, unseated] at seated
          cases seated
        refine ⟨own, ?_, connection, ?_, seated, same, carried⟩
        · rw [mapped]
          refine List.mem_map.mpr ⟨own, memOwn, ?_⟩
          rw [if_neg notFailed, if_neg notSpare]
        · refine List.mem_map.mpr ⟨connection, List.mem_filter.mpr ⟨memConnection, ?_⟩, ?_⟩
          · simpa [same] using notFailed
          · rw [if_neg]
            rw [same, slotMoved]
            exact notSpare

theorem replacement_agreed (agreed : Agreed tables pool) {slotNo : Nat} {reason : String}
    {nowMs : Int} {approved : Bool} {commandId : String} {expectedRevision : Int}
    {result : TransitionResult} {tid : String} {revision : Int} {bound : Option PoolResource}
    (replaced : pool.replaceFailed slotNo reason nowMs approved commandId expectedRevision =
      .ok result)
    (committed : tables.commitPoolReplacement tid revision result.state slotNo =
      .ok (bound, written)) :
    Agreed written result.state ∧ (pool.revision : Int) = revision ∧
      revision < result.state.revision := by
  have wellFormed := SeatPoolState.replaceFailed_wellFormed agreed.wellFormed replaced
  obtain ⟨same, later, oldSeat, after, replacement, before, found, planned, search, kept,
    outcome⟩ := commitPoolReplacement_cases agreed.stored committed
  refine ⟨?_, same, later⟩
  obtain ⟨memOld, slotOld⟩ := bySlot_some before
  have only (seat : Seat) (mem : seat ∈ pool.seats) (here : seat.slotNo = slotNo) :
      seat = oldSeat :=
    SeatPoolState.seat_eq_of_slot agreed.distinct mem memOld (here.trans slotOld.symm)
  rcases SeatPoolState.replaceFailed_ok replaced with replayed | ⟨print, failed, -, memFailed,
    slotFailed, -, ⟨unassigned, -, idle⟩ | ⟨reset, unassigned, isReset, -, emptied⟩ |
    ⟨reset, moved, spare, assigned, memSpare, free, isReset, isMoved, -, cutOver⟩⟩
  · rw [replaceFailed_replayed replaced replayed] at later
    omega
  · have failedOld := only failed memFailed slotFailed
    have nobody := replacementFor_unassigned (failedOld ▸ unassigned) search
    have seats : result.state.seats = pool.seats := by
      rw [idle]
      rfl
    have sameBySlot : result.state.bySlot slotNo = pool.bySlot slotNo := by
      rw [SeatPoolState.bySlot, SeatPoolState.bySlot, seats]
    rw [sameBySlot, before] at found
    cases found
    rcases outcome with ⟨-, rfl⟩ | ⟨_, _, _, _, somebody, -⟩
    · refine emptied_agreed agreed (f := id) (seats.trans (List.map_id _).symm) ?_
        (fun _ _ _ => rfl) wellFormed
      intro seat mem here
      rw [only seat mem here]
      exact ⟨failedOld ▸ unassigned, slotOld, planned, agreed.anonymous oldSeat memOld planned⟩
    · rw [nobody] at somebody
      cases somebody
  · have failedOld := only failed memFailed slotFailed
    have nobody := replacementFor_unassigned (failedOld ▸ unassigned) search
    have slotReset : reset.slotNo = slotNo := by
      rw [isReset]
      exact slotFailed
    have seats : result.state.seats = pool.seats.map fun seat =>
        if seat.slotNo = reset.slotNo then reset else seat := by
      rw [emptied]
      rfl
    rcases outcome with ⟨-, rfl⟩ | ⟨_, _, _, _, somebody, -⟩
    · refine emptied_agreed agreed seats ?_ ?_ wellFormed
      · intro seat mem here
        rw [if_pos (here.trans slotReset.symm)]
        refine ⟨?_, slotReset, by rw [isReset]; rfl, by rw [isReset]; rfl⟩
        rw [only seat mem here, ← failedOld]
        exact unassigned
      · intro seat mem here
        rw [if_neg fun same => here (same.trans slotReset)]
    · rw [nobody] at somebody
      cases somebody
  · have failedOld := only failed memFailed slotFailed
    exact cutOver_agreed agreed memFailed slotFailed assigned memSpare free isReset isMoved
      (by rw [cutOver]; rfl) wellFormed (failedOld ▸ search) kept (failedOld ▸ outcome)

end Commits

end NoiContest.LivePool
