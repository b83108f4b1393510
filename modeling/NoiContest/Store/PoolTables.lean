import NoiContest.SeatPool.Effects
import NoiContest.Store.Contest

/- The rows of one contest in contests, seat_pools, seat_pool_resources and seats, and the
   store transactions on them. A transaction that raises leaves every row as it was. The
   revision column of seat_pools is written from state_json by every statement, so the row is
   the state. Uniqueness of tokens and containers is that of the rows of this contest. -/
namespace NoiContest
open Outcome SeatPool

structure PoolResource where
  slotNo : Nat
  token : String
  vncPass : String
  submitToken : String
  candidate : String
  container : String
  cip : String
  imageDigest : String
  materialDigest : String
  credentialRevision : Int := 1
  deriving DecidableEq, Repr

structure SeatRow where
  uid : Int
  uname : String
  token : String
  vncPass : String
  submitToken : String
  candidate : String
  container : String
  cip : String
  deriving DecidableEq, Repr

structure ContestTables where
  contest : Option Contest
  pool : Option SeatPoolState := none
  resources : List PoolResource := []
  seats : List SeatRow := []
  deriving DecidableEq, Repr

/- The container, image and material that a seat was verified with and a resource carries. -/
def PoolResource.evidence (resource : PoolResource) : String × String × String :=
  (resource.container, resource.imageDigest, resource.materialDigest)

def SeatPool.Seat.evidence (seat : Seat) : String × String × String :=
  (seat.containerRef, seat.imageDigest, seat.materialDigest)

def SeatPool.SeatPoolState.bySlot (pool : SeatPoolState) (slotNo : Nat) : Option Seat :=
  pool.seats.find? (·.slotNo == slotNo)

namespace ContestTables

def resource (tables : ContestTables) (slotNo : Nat) : Option PoolResource :=
  tables.resources.find? (·.slotNo == slotNo)

def withPool (tables : ContestTables) (state : SeatPoolState) : ContestTables :=
  { tables with pool := some state }

def updateContest (tables : ContestTables) (f : Contest → Contest) : ContestTables :=
  { tables with contest := tables.contest.map f }

/-- The compare of a compare-and-swap on seat_pools, with the state that it found. -/
def expectRevision (tables : ContestTables) (expected : Int) (message : String) :
    Except StoreError SeatPoolState :=
  match tables.pool with
  | some current =>
    if current.revision = expected then .ok current else .error (.submissionConflict message)
  | none => .error (.submissionConflict message)

def putSeatPool (tables : ContestTables) (expectedRevision : Option Int)
    (state : SeatPoolState) : Except StoreError ContestTables := do
  match tables.pool with
  | none =>
    raiseIf (expectedRevision ≠ none ∧ expectedRevision ≠ some (-1))
      (.submissionConflict "座位池已被其他操作更新")
    return tables.withPool state
  | some current =>
    raiseIf (expectedRevision ≠ some (current.revision : Int))
      (.submissionConflict "座位池已被其他操作更新")
    return tables.withPool state

def commitScheduleSync (tables : ContestTables) (expectedBeginAtMs expectedEndAtMs beginAtMs
    endAtMs : Int) (hydroRule : String) (observedAtMs expectedPoolRevision : Int)
    (poolState : SeatPoolState) : Except StoreError (Contest × ContestTables) := do
  match tables.contest with
  | none => throw (.submissionConflict "比赛已不在可同步时间的状态")
  | some contest =>
    raiseIf (contest.state ≠ .ready) (.submissionConflict "比赛已不在可同步时间的状态")
    raiseIf (contest.beginAtMs ≠ expectedBeginAtMs ∨ contest.endAtMs ≠ expectedEndAtMs)
      (.submissionConflict "比赛时间已被其他流程更新")
    let _ ← tables.expectRevision expectedPoolRevision "座位池已被其他流程更新"
    raiseIf (poolState.revision < expectedPoolRevision)
      (.submissionConflict "座位池时间 revision 无效")
    let updated := { contest with
      beginAtMs := beginAtMs
      endAtMs := endAtMs
      hydroRule := hydroRule
      timeSyncAtMs := observedAtMs
      timeSyncCheckedAtMs := observedAtMs
      timeSyncError := ""
      message := "已同步 OJ 比赛时间" }
    return (updated, { tables.withPool poolState with contest := some updated })

def validatePoolResource (state : SeatPoolState) (resource : PoolResource) :
    Except StoreError Seat := do
  match state.bySlot resource.slotNo with
  | none => throw (.submissionConflict "新增座位尚未完成验收")
  | some seat =>
    raiseIf (seat.state ≠ .verified) (.submissionConflict "新增座位尚未完成验收")
    raiseIf (seat.evidence ≠ resource.evidence)
      (.submissionConflict "新增座位验收证据与连接资源不一致")
    return seat

/-- The primary key and the UNIQUE columns of seat_pool_resources. -/
def insertResource (resources : List PoolResource) (added : PoolResource) :
    Except StoreError (List PoolResource) := do
  raiseIf (∃ other ∈ resources, other.slotNo = added.slotNo ∨ other.token = added.token ∨
      other.submitToken = added.submitToken ∨ other.container = added.container)
    (.integrityError "UNIQUE constraint failed: seat_pool_resources")
  return resources ++ [added]

def commitPoolExpansion (tables : ContestTables) (tid : String) (expectedRevision : Int)
    (state : SeatPoolState) (added : List PoolResource) : Except StoreError ContestTables := do
  raiseIf (state.tid ≠ tid) (.valueError "座位池比赛标识不一致")
  raiseIf (added = []) (.valueError "座位池扩容至少需要一个新增资源")
  let _ ← added.foldlM (fun seen resource => do
    let _ ← validatePoolResource state resource
    raiseIf (resource.slotNo ∈ seen) (.valueError "新增座位编号重复")
    return resource.slotNo :: seen) []
  let previous ← tables.expectRevision expectedRevision "座位池已被其他操作更新"
  raiseIf (∃ resource ∈ added, resource.slotNo ∈ previous.slots)
    (.submissionConflict "扩容不得覆盖原有座位")
  raiseIf (∃ slot ∈ previous.slots, state.bySlot slot ≠ previous.bySlot slot)
    (.submissionConflict "扩容不得修改原有座位或学生映射")
  raiseIf (¬ (∀ slot ∈ state.slots, slot ∉ previous.slots → slot ∈ added.map (·.slotNo)))
    (.submissionConflict "新增座位必须全部完成验收后一次发布")
  raiseIf (state.revision ≤ expectedRevision) (.submissionConflict "扩容后的座位池 revision 无效")
  let resources ← added.foldlM insertResource tables.resources
  return { tables.withPool state with
    resources := resources
    contest := tables.contest.map fun contest => { contest with
      maxParticipants := state.maxParticipants
      spareSeats := state.spareCount } }

/- An insert into seats that replaces the row of the same student. -/
def upsertSeat (seats : List SeatRow) (row : SeatRow) : Except StoreError (List SeatRow) := do
  raiseIf (∃ other ∈ seats, other.uid ≠ row.uid ∧ other.token = row.token)
    (.integrityError "UNIQUE constraint failed: seats.token")
  return if row.uid ∈ seats.map (·.uid)
    then seats.map fun other => if other.uid = row.uid then row else other
    else seats ++ [row]

def seatRow (uid : Int) (uname : String) (resource : PoolResource) : SeatRow :=
  { uid := uid
    uname := uname
    token := resource.token
    vncPass := resource.vncPass
    submitToken := resource.submitToken
    candidate := resource.candidate
    container := resource.container
    cip := resource.cip }

def bindPoolSeat (tables : ContestTables) (uid : Int) (uname : String) (slotNo : Nat) :
    Except StoreError ContestTables := do
  match tables.pool, tables.resource slotNo with
  | some pool, some resource =>
    match pool.bySlot slotNo with
    | none => throw (.submissionConflict "座位池身份绑定与当前状态不一致")
    | some seat =>
      raiseIf (seat.uid.getD 0 ≠ uid ∨ seat.uname ≠ uname ∨
          (seat.state ≠ .reserved ∧ seat.state ≠ .released))
        (.submissionConflict "座位池身份绑定与当前状态不一致")
      raiseIf (seat.evidence ≠ resource.evidence)
        (.submissionConflict "座位验收证据与连接资源不一致")
      let seats ← upsertSeat tables.seats (seatRow uid uname resource)
      return { tables with seats := seats }
  | _, _ => throw (.keyError "座位池资源不存在")

/-- The seat that took the student over and its resource, none where nobody sat. -/
def replacementFor (tables : ContestTables) (state : SeatPoolState) (uid : Int) :
    Except StoreError (Option (Seat × PoolResource)) :=
  if uid = 0 then return none
  else match state.seats.find? (fun seat => seat.uid.getD 0 == uid) with
  | none => throw (.submissionConflict "备用座位未正确接管学生")
  | some replacement => do
    raiseIf (replacement.state ≠ .reserved ∧ replacement.state ≠ .released)
      (.submissionConflict "备用座位未正确接管学生")
    match tables.resource replacement.slotNo with
    | none => throw (.submissionConflict "备用座位连接资源不存在")
    | some resource =>
      raiseIf (replacement.evidence ≠ resource.evidence)
        (.submissionConflict "备用座位验收证据不一致")
      return some (replacement, resource)

def commitPoolReplacement (tables : ContestTables) (tid : String) (expectedRevision : Int)
    (state : SeatPoolState) (failedSlot : Nat) :
    Except StoreError (Option PoolResource × ContestTables) := do
  raiseIf (state.tid ≠ tid) (.valueError "座位池比赛标识不一致")
  let previous ← tables.expectRevision expectedRevision "座位池已被其他操作更新"
  raiseIf (state.revision ≤ expectedRevision) (.submissionConflict "替换后的座位池 revision 无效")
  match previous.bySlot failedSlot, state.bySlot failedSlot with
  | some oldSeat, some failed =>
    raiseIf (failed.state ≠ .planned) (.submissionConflict "故障座位状态不允许替换")
    let uid := oldSeat.uid.getD 0
    let replacement ← tables.replacementFor state uid
    raiseIf (¬ ((∀ slot ∈ previous.slots, slot ∈ state.slots) ∧
        ∀ slot ∈ state.slots, slot ∈ previous.slots))
      (.submissionConflict "故障替换不得改变座位池容量")
    let changed := failedSlot :: (replacement.map (·.1.slotNo)).toList
    raiseIf (∃ slot ∈ previous.slots, slot ∉ changed ∧ state.bySlot slot ≠ previous.bySlot slot)
      (.submissionConflict "故障替换不得修改其他学生座位")
    let kept := tables.resources.filter (·.slotNo != failedSlot)
    match replacement with
    | none => return (none, { tables.withPool state with resources := kept })
    | some (replacement, resource) =>
      let credentialRevision := max (resource.credentialRevision + 1)
        (match tables.resource failedSlot with
        | some failedResource => failedResource.credentialRevision + 1
        | none => 2)
      let bound := { resource with credentialRevision := credentialRevision }
      let uname := if replacement.uname = "" then oldSeat.uname else replacement.uname
      let seats ← upsertSeat tables.seats (seatRow uid uname resource)
      return (some bound, { tables.withPool state with
        resources := kept.map fun other =>
          if other.slotNo = replacement.slotNo then bound else other
        seats := seats })
  | _, _ => throw (.submissionConflict "故障座位状态不允许替换")

def commitPoolRepair (tables : ContestTables) (tid : String) (expectedRevision : Int)
    (state : SeatPoolState) (resource : PoolResource) (repairedSlot : Nat) :
    Except StoreError ContestTables := do
  raiseIf (state.tid ≠ tid) (.valueError "座位池比赛标识不一致")
  raiseIf (resource.slotNo ≠ repairedSlot) (.valueError "修复资源与座位编号不一致")
  let repaired ← validatePoolResource state resource
  raiseIf (repaired.uid ≠ none ∨ repaired.uname ≠ "")
    (.submissionConflict "修复后的备用座位不得绑定学生")
  let previous ← tables.expectRevision expectedRevision "座位池已被其他操作更新"
  match previous.bySlot repairedSlot with
  | none => throw (.submissionConflict "只有已隔离且未绑定的座位可以恢复容量")
  | some before =>
    raiseIf (¬ ((∀ slot ∈ previous.slots, slot ∈ state.slots) ∧
        ∀ slot ∈ state.slots, slot ∈ previous.slots) ∨
        before.state ≠ .planned ∨ before.uid ≠ none)
      (.submissionConflict "只有已隔离且未绑定的座位可以恢复容量")
    raiseIf (∃ slot ∈ previous.slots, slot ≠ repairedSlot ∧
        state.bySlot slot ≠ previous.bySlot slot)
      (.submissionConflict "容量恢复不得修改其他座位")
    raiseIf (repaired.failureCount ≠ before.failureCount ∨ repaired.role ≠ .spare)
      (.submissionConflict "容量恢复不得重置故障历史或备用角色")
    raiseIf (state.revision ≤ expectedRevision)
      (.submissionConflict "容量恢复后的 revision 无效")
    raiseIf (tables.resource repairedSlot ≠ none)
      (.submissionConflict "待恢复座位仍残留旧连接资源")
    let resources ← insertResource tables.resources resource
    return { tables.withPool state with resources := resources }

def setState (tables : ContestTables) (state : ContestState) (message : String) :
    ContestTables :=
  tables.updateContest fun contest => { contest with state := state, message := message }

def transition (tables : ContestTables) (fromStates : List ContestState)
    (toState : ContestState) (message : String) : Bool × ContestTables :=
  match tables.contest with
  | some contest =>
    if contest.state ∈ fromStates then (true, tables.setState toState message)
    else (false, tables)
  | none => (false, tables)

/- Binding a student writes to the seat rows only. -/
theorem bindPoolSeat_ok {tables written : ContestTables} {uid : Int} {uname : String}
    {slotNo : Nat} (bound : tables.bindPoolSeat uid uname slotNo = .ok written) :
    ∃ seats, written = { tables with seats := seats } := by
  unfold bindPoolSeat at bound
  split at bound
  · split at bound
    · simp at bound
    · simp only [bind_ok, pure_eq_ok] at bound
      obtain ⟨_, _, _, _, seats, _, rfl⟩ := bound
      exact ⟨seats, rfl⟩
  · simp at bound

theorem expectRevision_ok {tables : ContestTables} {expected : Int} {message : String}
    {current : SeatPoolState} (found : tables.expectRevision expected message = .ok current) :
    tables.pool = some current ∧ (current.revision : Int) = expected := by
  unfold expectRevision at found
  split at found
  · split at found
    · rename_i stored matching
      cases found
      exact ⟨stored, matching⟩
    · cases found
  · cases found

/- An expansion is published over an untouched pool. -/
theorem commitPoolExpansion_ok {tables written : ContestTables} {tid : String} {revision : Int}
    {state pool : SeatPoolState} {added : List PoolResource} (stored : tables.pool = some pool)
    (committed : tables.commitPoolExpansion tid revision state added = .ok written) :
    written.pool = some state ∧
      ∀ slot ∈ pool.slots, state.bySlot slot = pool.bySlot slot := by
  simp only [commitPoolExpansion, bind_ok, raiseIf_ok, pure_eq_ok] at committed
  obtain ⟨_, _, _, _, _, _, previous, expected, _, _, _, kept, _, _, _, _, resources, _, rfl⟩ :=
    committed
  obtain ⟨stored', _⟩ := expectRevision_ok expected
  rw [stored] at stored'
  cases stored'
  simp only [not_exists, not_and, not_not, ne_eq] at kept
  exact ⟨rfl, kept⟩

theorem commitPoolReplacement_ok {tables written : ContestTables} {tid : String}
    {revision : Int} {state : SeatPoolState} {failedSlot : Nat} {bound : Option PoolResource}
    (committed : tables.commitPoolReplacement tid revision state failedSlot =
      .ok (bound, written)) : written.pool = some state := by
  simp only [commitPoolReplacement, bind_ok, raiseIf_ok] at committed
  obtain ⟨_, _, previous, _, _, _, committed⟩ := committed
  split at committed
  · simp only [bind_ok, raiseIf_ok] at committed
    obtain ⟨_, _, replacement, _, _, _, _, _, committed⟩ := committed
    split at committed
    · simp only [pure_eq_ok, Prod.mk.injEq] at committed
      rw [← committed.2]
      rfl
    · simp only [bind_ok, pure_eq_ok, Prod.mk.injEq] at committed
      obtain ⟨_, _, _, rfl⟩ := committed
      rfl
  · simp at committed

/- A repair gives one isolated slot back and leaves the rest of the pool alone. -/
theorem commitPoolRepair_ok {tables written : ContestTables} {tid : String} {revision : Int}
    {state pool : SeatPoolState} {resource : PoolResource} {slotNo : Nat}
    (stored : tables.pool = some pool)
    (committed : tables.commitPoolRepair tid revision state resource slotNo = .ok written) :
    written.pool = some state ∧ (∀ slot, slot ∈ state.slots ↔ slot ∈ pool.slots) ∧
      ∀ slot ∈ pool.slots, slot ≠ slotNo → state.bySlot slot = pool.bySlot slot := by
  simp only [commitPoolRepair, bind_ok, raiseIf_ok] at committed
  obtain ⟨_, _, _, _, _, _, _, _, previous, expected, committed⟩ := committed
  obtain ⟨stored', _⟩ := expectRevision_ok expected
  rw [stored] at stored'
  cases stored'
  split at committed
  · simp at committed
  · simp only [bind_ok, raiseIf_ok, pure_eq_ok, not_or, not_not] at committed
    obtain ⟨_, ⟨⟨old, new⟩, _, _⟩, _, kept, _, _, _, _, _, _, _, _, rfl⟩ := committed
    simp only [not_exists, not_and, not_not, ne_eq] at kept
    exact ⟨rfl, fun slot => ⟨new slot, old slot⟩, kept⟩

end ContestTables
end NoiContest
