import NoiContest.SeatPool.Representation
import NoiContest.Store.PoolTables

/- The relation between the seats of the stored pool, their connection resources and the legacy
   seat rows, and what each transaction on the pool has to show to keep it. -/
namespace NoiContest.LivePool
open Outcome SeatPool

/-- The relation of the three tables while a contest is open. -/
structure Agreed (tables : ContestTables) (pool : SeatPoolState) : Prop where
  stored : tables.pool = some pool
  wellFormed : pool.WellFormed
  anonymous : ∀ seat ∈ pool.seats, seat.state = .planned → seat.uname = ""
  settled : ∀ seat ∈ pool.seats, seat.state ≠ .warming
  slots : (tables.resources.map (·.slotNo)).Nodup
  tokens : ∀ a ∈ tables.resources, ∀ b ∈ tables.resources,
    a.token = b.token ∨ a.submitToken = b.submitToken → a.slotNo = b.slotNo
  active : ∀ slot, slot ∈ tables.resources.map (·.slotNo) ↔
    ∃ seat ∈ pool.seats, seat.slotNo = slot ∧ seat.state ≠ .planned
  evidence : ∀ seat ∈ pool.seats, ∀ resource ∈ tables.resources,
    resource.slotNo = seat.slotNo → seat.evidence = resource.evidence
  rows : ∀ row ∈ tables.seats, ∃ seat ∈ pool.seats, ∃ resource ∈ tables.resources,
    seat.uid = some row.uid ∧ resource.slotNo = seat.slotNo ∧
      row = ContestTables.seatRow row.uid row.uname resource

section Lookup
variable {tables : ContestTables} {pool : SeatPoolState} {slotNo : Nat}

theorem bySlot_some {seat : Seat} (found : pool.bySlot slotNo = some seat) :
    seat ∈ pool.seats ∧ seat.slotNo = slotNo :=
  ⟨List.mem_of_find?_eq_some found, by simpa using List.find?_some found⟩

theorem bySlot_mem (distinct : pool.slots.Nodup) {seat : Seat} (mem : seat ∈ pool.seats) :
    pool.bySlot seat.slotNo = some seat := by
  cases found : pool.bySlot seat.slotNo with
  | none =>
    have missing := List.find?_eq_none.mp found seat mem
    simp at missing
  | some other =>
    obtain ⟨memOther, same⟩ := bySlot_some found
    rw [SeatPoolState.seat_eq_of_slot distinct memOther mem same]

theorem bySlot_none (missing : slotNo ∉ pool.slots) : pool.bySlot slotNo = none := by
  refine List.find?_eq_none.mpr fun seat mem same => missing ?_
  rw [beq_iff_eq] at same
  exact same ▸ List.mem_map_of_mem mem

theorem resource_some {resource : PoolResource} (found : tables.resource slotNo = some resource) :
    resource ∈ tables.resources ∧ resource.slotNo = slotNo :=
  ⟨List.mem_of_find?_eq_some found, by simpa using List.find?_some found⟩

theorem resource_none (missing : tables.resource slotNo = none) :
    slotNo ∉ tables.resources.map (·.slotNo) := by
  intro mem
  obtain ⟨resource, memResource, same⟩ := List.mem_map.mp mem
  have other := List.find?_eq_none.mp missing resource memResource
  simp [same] at other

end Lookup

section Agreed
variable {tables written : ContestTables} {pool : SeatPoolState}

theorem Agreed.distinct (agreed : Agreed tables pool) : pool.slots.Nodup :=
  agreed.wellFormed.distinct

theorem Agreed.resource_eq (agreed : Agreed tables pool) {a b : PoolResource}
    (memA : a ∈ tables.resources) (memB : b ∈ tables.resources) (same : a.slotNo = b.slotNo) :
    a = b :=
  List.inj_on_of_nodup_map agreed.slots memA memB same

/-- A seat after a change that is none of the resources' business. -/
structure Stands (seat seat' : Seat) : Prop where
  slot : seat'.slotNo = seat.slotNo
  planned : seat'.state = .planned ↔ seat.state = .planned
  settled : seat'.state ≠ .warming
  evidence : seat'.evidence = seat.evidence
  named : seat'.state = .planned → seat'.uname = ""

/-- The same, with the student that the seat had. -/
structure Carries (seat seat' : Seat) : Prop extends Stands seat seat' where
  student : seat.uid ≠ none → seat'.uid = seat.uid

theorem Agreed.stands (agreed : Agreed tables pool) {seat : Seat} (mem : seat ∈ pool.seats) :
    Stands seat seat :=
  ⟨rfl, Iff.rfl, agreed.settled seat mem, rfl, agreed.anonymous seat mem⟩

theorem Agreed.carries (agreed : Agreed tables pool) {seat : Seat} (mem : seat ∈ pool.seats) :
    Carries seat seat :=
  ⟨agreed.stands mem, fun _ => rfl⟩

/- Every seat of the pool is changed in such a way, or not at all. -/
theorem Agreed.mapped (agreed : Agreed tables pool) {state : SeatPoolState} {f : Seat → Seat}
    (seats : state.seats = pool.seats.map f) (carries : ∀ seat ∈ pool.seats, Carries seat (f seat))
    (wellFormed : state.WellFormed) (stored : written.pool = some state)
    (resources : written.resources = tables.resources) (rows : written.seats = tables.seats) :
    Agreed written state where
  stored := stored
  wellFormed := wellFormed
  anonymous := by
    intro seat mem
    obtain ⟨old, memOld, rfl⟩ := List.mem_map.mp (seats ▸ mem)
    exact (carries old memOld).named
  settled := by
    intro seat mem
    obtain ⟨old, memOld, rfl⟩ := List.mem_map.mp (seats ▸ mem)
    exact (carries old memOld).settled
  slots := resources ▸ agreed.slots
  tokens := resources ▸ agreed.tokens
  active := by
    intro slot
    rw [resources, agreed.active slot, seats]
    constructor
    · rintro ⟨seat, mem, same, active⟩
      have carried := carries seat mem
      exact ⟨f seat, List.mem_map_of_mem mem, carried.slot.trans same,
        fun planned => active (carried.planned.mp planned)⟩
    · rintro ⟨seat, mem, same, active⟩
      obtain ⟨old, memOld, rfl⟩ := List.mem_map.mp mem
      have carried := carries old memOld
      exact ⟨old, memOld, carried.slot.symm.trans same,
        fun planned => active (carried.planned.mpr planned)⟩
  evidence := by
    rw [seats, resources]
    intro seat mem resource memResource same
    obtain ⟨old, memOld, rfl⟩ := List.mem_map.mp mem
    have carried := carries old memOld
    rw [carried.evidence]
    exact agreed.evidence old memOld resource memResource (same.trans carried.slot)
  rows := by
    rw [seats, resources, rows]
    intro row mem
    obtain ⟨seat, memSeat, resource, memResource, student, same, carried⟩ := agreed.rows row mem
    have moved := carries seat memSeat
    have assigned : seat.uid ≠ none := by simp [student]
    exact ⟨f seat, List.mem_map_of_mem memSeat, resource, memResource,
      (moved.student assigned).trans student, same.trans moved.slot.symm, carried⟩

theorem Agreed.same (agreed : Agreed tables pool) {state : SeatPoolState}
    (seats : state.seats = pool.seats) (wellFormed : state.WellFormed)
    (stored : written.pool = some state) (resources : written.resources = tables.resources)
    (rows : written.seats = tables.seats) : Agreed written state := by
  exact agreed.mapped (seats.trans (List.map_id _).symm) (fun _ mem => agreed.carries mem)
    wellFormed stored resources rows

/- One seat of the pool is changed in such a way. -/
theorem Agreed.withSeat (agreed : Agreed tables pool) {state : SeatPoolState}
    {seat updated : Seat} (mem : seat ∈ pool.seats) (carries : Carries seat updated)
    (seats : state.seats = SeatPoolState.replaceSeat pool.seats updated)
    (wellFormed : state.WellFormed) (stored : written.pool = some state)
    (resources : written.resources = tables.resources) (rows : written.seats = tables.seats) :
    Agreed written state := by
  refine agreed.mapped seats ?_ wellFormed stored resources rows
  intro other memOther
  by_cases here : other.slotNo = updated.slotNo
  · rw [if_pos here]
    have itself : other = seat :=
      SeatPoolState.seat_eq_of_slot agreed.distinct memOther mem (here.trans carries.slot)
    exact itself ▸ carries
  · rw [if_neg here]
    exact agreed.carries memOther

/- Fresh resources come in with the verified seats of their slots. -/
theorem Agreed.joined (agreed : Agreed tables pool) {state : SeatPoolState}
    {added : List PoolResource} (wellFormed : state.WellFormed) (stored : written.pool = some state)
    (resources : written.resources = tables.resources ++ added)
    (slots : (written.resources.map (·.slotNo)).Nodup)
    (tokens : ∀ a ∈ written.resources, ∀ b ∈ written.resources,
      a.token = b.token ∨ a.submitToken = b.submitToken → a.slotNo = b.slotNo)
    (rows : written.seats = tables.seats)
    (kept : ∀ seat ∈ pool.seats, seat.slotNo ∉ added.map (·.slotNo) → seat ∈ state.seats)
    (origin : ∀ seat ∈ state.seats, (seat ∈ pool.seats ∧ seat.slotNo ∉ added.map (·.slotNo)) ∨
      ∃ resource ∈ added, resource.slotNo = seat.slotNo ∧ seat.state = .verified ∧
        seat.evidence = resource.evidence)
    (covered : ∀ resource ∈ added, ∃ seat ∈ state.seats, seat.slotNo = resource.slotNo ∧
      seat.state = .verified)
    (unseated : ∀ seat ∈ pool.seats, seat.slotNo ∈ added.map (·.slotNo) → seat.uid = none) :
    Agreed written state where
  stored := stored
  wellFormed := wellFormed
  anonymous := by
    intro seat mem planned
    rcases origin seat mem with ⟨old, -⟩ | ⟨resource, -, -, verified, -⟩
    · exact agreed.anonymous seat old planned
    · rw [verified] at planned
      cases planned
  settled := by
    intro seat mem
    rcases origin seat mem with ⟨old, -⟩ | ⟨resource, -, -, verified, -⟩
    · exact agreed.settled seat old
    · rw [verified]
      decide
  slots := slots
  tokens := tokens
  active := by
    intro slot
    rw [resources, List.map_append, List.mem_append]
    constructor
    · rintro (old | new)
      · obtain ⟨seat, mem, same, active⟩ := (agreed.active slot).mp old
        refine ⟨seat, kept seat mem ?_, same, active⟩
        rw [resources, List.map_append, List.nodup_append'] at slots
        exact fun new => slots.2.2 (same ▸ old) new
      · obtain ⟨resource, mem, same⟩ := List.mem_map.mp new
        obtain ⟨seat, memSeat, slot, verified⟩ := covered resource mem
        exact ⟨seat, memSeat, slot.trans same, by rw [verified]; decide⟩
    · rintro ⟨seat, mem, same, active⟩
      rcases origin seat mem with ⟨old, -⟩ | ⟨resource, memResource, slot, -⟩
      · exact .inl ((agreed.active slot).mpr ⟨seat, old, same, active⟩)
      · exact .inr (List.mem_map.mpr ⟨resource, memResource, slot.trans same⟩)
  evidence := by
    intro seat mem resource memResource same
    rcases origin seat mem with ⟨old, outside⟩ | ⟨own, memOwn, slot, -, evidence⟩
    · rw [resources] at memResource
      rcases List.mem_append.mp memResource with before | new
      · exact agreed.evidence seat old resource before same
      · exact absurd (same ▸ List.mem_map_of_mem new) outside
    · have itself : resource = own := List.inj_on_of_nodup_map slots memResource
        (resources ▸ List.mem_append_right _ memOwn) (same.trans slot.symm)
      rw [evidence, itself]
  rows := by
    intro row mem
    rw [rows] at mem
    obtain ⟨seat, memSeat, resource, memResource, student, same, carried⟩ := agreed.rows row mem
    refine ⟨seat, kept seat memSeat fun new => ?_, resource,
      resources ▸ List.mem_append_left _ memResource, student, same, carried⟩
    rw [unseated seat memSeat new] at student
    cases student

/- A slot is isolated and loses its resource. Only credential revisions change besides. -/
theorem Agreed.isolated (agreed : Agreed tables pool) {state : SeatPoolState} {f : Seat → Seat}
    {g : PoolResource → PoolResource} {slotNo : Nat} (seats : state.seats = pool.seats.map f)
    (reset : ∀ seat ∈ pool.seats, seat.slotNo = slotNo →
      (f seat).slotNo = slotNo ∧ (f seat).state = .planned ∧ (f seat).uname = "")
    (others : ∀ seat ∈ pool.seats, seat.slotNo ≠ slotNo → Stands seat (f seat))
    (wellFormed : state.WellFormed) (stored : written.pool = some state)
    (resources : written.resources = (tables.resources.filter (·.slotNo != slotNo)).map g)
    (recredited : ∀ resource ∈ tables.resources, ∃ revision, g resource =
      { resource with credentialRevision := revision })
    (rows : ∀ row ∈ written.seats, ∃ seat ∈ state.seats, ∃ resource ∈ written.resources,
      seat.uid = some row.uid ∧ resource.slotNo = seat.slotNo ∧
        row = ContestTables.seatRow row.uid row.uname resource) : Agreed written state where
  stored := stored
  wellFormed := wellFormed
  anonymous := by
    intro seat mem planned
    obtain ⟨old, memOld, rfl⟩ := List.mem_map.mp (seats ▸ mem)
    by_cases here : old.slotNo = slotNo
    · exact (reset old memOld here).2.2
    · exact (others old memOld here).named planned
  settled := by
    intro seat mem
    obtain ⟨old, memOld, rfl⟩ := List.mem_map.mp (seats ▸ mem)
    by_cases here : old.slotNo = slotNo
    · rw [(reset old memOld here).2.1]
      decide
    · exact (others old memOld here).settled
  slots := by
    have same : (written.resources.map (·.slotNo)) =
        (tables.resources.filter (·.slotNo != slotNo)).map (·.slotNo) := by
      rw [resources, List.map_map]
      refine List.map_congr_left fun resource mem => ?_
      obtain ⟨revision, eq⟩ := recredited resource (List.mem_filter.mp mem).1
      simp [eq]
    rw [same]
    exact agreed.slots.sublist (List.filter_sublist.map _)
  tokens := by
    rw [resources]
    intro a memA b memB shared
    obtain ⟨oldA, memOldA, rfl⟩ := List.mem_map.mp memA
    obtain ⟨oldB, memOldB, rfl⟩ := List.mem_map.mp memB
    obtain ⟨revisionA, eqA⟩ := recredited oldA (List.mem_filter.mp memOldA).1
    obtain ⟨revisionB, eqB⟩ := recredited oldB (List.mem_filter.mp memOldB).1
    rw [eqA, eqB] at shared ⊢
    exact agreed.tokens oldA (List.mem_filter.mp memOldA).1 oldB (List.mem_filter.mp memOldB).1
      shared
  active := by
    intro slot
    constructor
    · intro mem
      rw [resources] at mem
      obtain ⟨resource, memResource, same⟩ := List.mem_map.mp mem
      obtain ⟨old, memOld, rfl⟩ := List.mem_map.mp memResource
      obtain ⟨memBefore, apart⟩ := List.mem_filter.mp memOld
      obtain ⟨revision, eq⟩ := recredited old memBefore
      rw [eq] at same
      obtain ⟨seat, memSeat, sameSlot, active⟩ := (agreed.active slot).mp
        (List.mem_map.mpr ⟨old, memBefore, same⟩)
      have elsewhere : seat.slotNo ≠ slotNo := by
        rw [sameSlot, ← same]
        simpa using apart
      have stands := others seat memSeat elsewhere
      exact ⟨f seat, seats ▸ List.mem_map_of_mem memSeat, stands.slot.trans sameSlot,
        fun planned => active (stands.planned.mp planned)⟩
    · rintro ⟨seat, mem, sameSlot, active⟩
      obtain ⟨old, memOld, rfl⟩ := List.mem_map.mp (seats ▸ mem)
      by_cases here : old.slotNo = slotNo
      · exact absurd (reset old memOld here).2.1 active
      · have stands := others old memOld here
        obtain ⟨resource, memResource, same⟩ := List.mem_map.mp ((agreed.active slot).mpr
          ⟨old, memOld, stands.slot.symm.trans sameSlot, fun planned => active (stands.planned.mpr planned)⟩)
        obtain ⟨revision, eq⟩ := recredited resource memResource
        have apart : resource.slotNo ≠ slotNo := by
          rw [same, ← sameSlot, stands.slot]
          exact here
        rw [resources]
        refine List.mem_map.mpr ⟨g resource, List.mem_map_of_mem
          (List.mem_filter.mpr ⟨memResource, by simpa using apart⟩), ?_⟩
        rw [eq]
        exact same
  evidence := by
    rw [seats, resources]
    intro seat mem resource memResource same
    obtain ⟨old, memOld, rfl⟩ := List.mem_map.mp mem
    obtain ⟨before, memBefore, rfl⟩ := List.mem_map.mp memResource
    obtain ⟨memTables, apart⟩ := List.mem_filter.mp memBefore
    obtain ⟨revision, eq⟩ := recredited before memTables
    rw [eq] at same ⊢
    by_cases here : old.slotNo = slotNo
    · rw [(reset old memOld here).1] at same
      simp only [bne_iff_ne, ne_eq] at apart
      exact absurd same apart
    · have stands := others old memOld here
      rw [stands.evidence]
      exact agreed.evidence old memOld before memTables (same.trans stands.slot)
  rows := rows

end Agreed

end NoiContest.LivePool
