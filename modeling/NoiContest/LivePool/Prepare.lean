import NoiContest.LivePool.Commits
import NoiContest.Pipeline.PoolContext

/- The section of a preparation that builds the pool. Every seat is warmed, gets its connection
   resource and is verified before the next one. -/
namespace NoiContest
open Outcome SeatPool

namespace ContestTables

def resetSeats (tables : ContestTables) : ContestTables := { tables with seats := [] }

def deleteSeatPool (tables : ContestTables) : ContestTables :=
  { tables with pool := none, resources := [] }

/-- An insert into seat_pool_resources that replaces the row of the same slot. -/
def putSeatPoolResource (tables : ContestTables) (resource : PoolResource) :
    Except StoreError ContestTables := do
  raiseIf (∃ other ∈ tables.resources, other.slotNo ≠ resource.slotNo ∧
      (other.token = resource.token ∨ other.submitToken = resource.submitToken ∨
        other.container = resource.container))
    (.integrityError "UNIQUE constraint failed: seat_pool_resources")
  return { tables with
    resources := if resource.slotNo ∈ tables.resources.map (·.slotNo)
      then tables.resources.map fun other =>
        if other.slotNo = resource.slotNo then resource else other
      else tables.resources ++ [resource] }

end ContestTables

namespace LivePool
open Pipeline SeatPoolState

/-- What one seat gets from the clock, the random source and the container host. -/
structure Preheating where
  warmAtMs : Int
  verifyAtMs : Int
  token : String
  vncPass : String
  submitToken : String
  containerImage : String
  containerAddress : String
  deriving Repr

def warmId (tid : String) (slotNo : Nat) : String := "warm:" ++ tid ++ ":" ++ toString slotNo

def verifyId (tid : String) (slotNo : Nat) : String := "verify:" ++ tid ++ ":" ++ toString slotNo

def seatContainer (tid : String) (slotNo : Nat) : String :=
  "seat-" ++ PyText.clip 8 tid ++ "-slot-" ++ PyText.threeDigits slotNo

def preheatSlot (tid image material : String) (outside : Nat → Preheating)
    (stored : ContestTables × SeatPoolState) (slotNo : Nat) :
    Except Raised (ContestTables × SeatPoolState) := do
  let seen := outside slotNo
  let warming ← (stored.2.markWarming slotNo seen.warmAtMs (warmId tid slotNo)
    stored.2.revision).mapError .pool
  let tables ← (stored.1.putSeatPool (some stored.2.revision) warming.state).mapError .store
  let name := seatContainer tid slotNo
  raiseIf (PyText.strip seen.containerImage ≠ image) (.runtime ("容器 " ++ name ++ " 使用了非预期镜像"))
  let cip := PyText.strip seen.containerAddress
  raiseIf (cip = "") (.runtime ("容器 " ++ name ++ " 未取得内网 IP"))
  let tables ← (tables.putSeatPoolResource {
    slotNo := slotNo
    token := seen.token
    vncPass := seen.vncPass
    submitToken := seen.submitToken
    candidate := "CSP" ++ PyText.threeDigits slotNo
    container := name
    cip := cip
    imageDigest := image
    materialDigest := material }).mapError .store
  let verified ← (warming.state.markVerified slotNo name image material seen.verifyAtMs
    (verifyId tid slotNo) warming.state.revision).mapError .pool
  let tables ← (tables.putSeatPool (some warming.state.revision) verified.state).mapError .store
  return (tables, verified.state)

def desktopImage (output : String) : Except Raised String :=
  match PyText.words output with
  | [imageId, contract] =>
    if contract = desktopImageContract then .ok imageId
    else .error (.runtime "比赛镜像桌面就绪契约不匹配；禁止创建或切换座位")
  | _ => .error (.runtime "比赛镜像无法提供桌面就绪契约")

/-- From the reset of the rows to the verified pool; the roster has so many participants. -/
def preparePool (cfg : Config) (contest : Contest) (participants : Nat) (imageOutput : String)
    (outside : Nat → Preheating) (tables : ContestTables) :
    Except Raised (ContestTables × SeatPoolState) := do
  raiseIf (tables.seats ≠ [] ∨ tables.pool ≠ none)
    (.runtime ("本轮已有座位或学生递交（包括已建立的座位池），不能重新备赛；请重试收卷，" ++
      "如确需重开请在 Hydro 新建比赛"))
  let (targetMain, targetSpares) ← (desiredCapacity participants).mapError .pool
  let totalLimit := cfg.seatPoolTotalMaximum.getD cfg.seatPoolMaximum
  raiseIf (cfg.seatPoolMaximum < targetMain) (.runtime ("OJ 报名人数 " ++ toString targetMain ++
    " 超过安全上限 " ++ toString cfg.seatPoolMaximum))
  raiseIf (totalLimit < targetMain + targetSpares) (.runtime ("所需座位 " ++
    toString (targetMain + targetSpares) ++ " 超过总安全上限 " ++ toString totalLimit))
  let image ← desktopImage imageOutput
  let pool ← (create contest.tid targetMain targetSpares contest.beginAtMs
    contest.releaseLeadMs).mapError .pool
  let tables ← (tables.resetSeats.deleteSeatPool.putSeatPool none pool).mapError .store
  let prepared ← pool.slots.foldlM
    (preheatSlot contest.tid image (materialDigest contest) outside) (tables, pool)
  raiseIf (prepared.1.resources = []) (.runtime "座位池缺少可验收的直连资源")
  return prepared

section Evidence

theorem warmId_injective {tid : String} {a b : Nat} (same : warmId tid a = warmId tid b) : a = b := by
  rw [warmId, warmId, String.append_right_inj] at same
  exact PyText.decimal_injective same

theorem verifyId_injective {tid : String} {a b : Nat} (same : verifyId tid a = verifyId tid b) :
    a = b := by
  rw [verifyId, verifyId, String.append_right_inj] at same
  exact PyText.decimal_injective same

theorem warmId_ne_verifyId (tid : String) (a b : Nat) : warmId tid a ≠ verifyId tid b := by
  intro same
  have first := congrArg (·.toList.head?) same
  simp [warmId, verifyId] at first

theorem strip_seatContainer (tid : String) (slotNo : Nat) :
    PyText.strip (seatContainer tid slotNo) = seatContainer tid slotNo := by
  refine PyText.strip_trimmed ?_ ?_
  · intro c first
    simp [seatContainer] at first
    rw [← first]
    decide
  · rw [seatContainer, PyText.threeDigits, ← String.append_assoc]
    exact PyText.append_last Nat.repr_ne_empty (PyText.decimal_last slotNo)

theorem ofText_last (text : String) :
    ∀ c ∈ (Sha256.ofText text).toList.getLast?, PyText.isSpace c = false := by
  have visible : ∀ n < 16, PyText.isSpace (Sha256.hexDigit n) = false := by decide
  intro c last
  obtain ⟨n, below, rfl⟩ := Sha256.hexdigest_digit (List.mem_of_mem_getLast? last)
  exact visible n below

theorem materialDigest_trimmed (contest : Contest) :
    materialDigest contest ≠ "" ∧ PyText.strip (materialDigest contest) = materialDigest contest := by
  have prefixed (text : String) (filled : text ≠ "")
      (last : ∀ c ∈ text.toList.getLast?, PyText.isSpace c = false) :
      "sha256:" ++ text ≠ "" ∧ PyText.strip ("sha256:" ++ text) = "sha256:" ++ text := by
    refine ⟨by simp, PyText.strip_trimmed ?_ (PyText.append_last filled last)⟩
    intro c first
    simp at first
    rw [← first]
    decide
  by_cases manifest : PyText.strip contest.materialManifestSha256 ≠ ""
  · rw [materialDigest, if_pos manifest]
    exact prefixed _ manifest (PyText.strip_last _)
  · rw [materialDigest, if_neg manifest]
    refine prefixed _ ?_ (ofText_last _)
    intro empty
    have length := Sha256.hexdigest_length (String.intercalate "\x00"
      [orElseText contest.activeMaterialRevision "legacy-manual", contest.paperSha256,
        contest.testdataSha256]).toUTF8.toList
    rw [Sha256.ofText] at empty
    rw [empty] at length
    cases length

theorem desktopImage_ok {output image : String} (found : desktopImage output = .ok image) :
    image ≠ "" ∧ PyText.strip image = image := by
  unfold desktopImage at found
  split at found
  · rename_i imageId contract split
    by_cases same : contract = desktopImageContract
    · rw [if_pos same] at found
      cases found
      exact PyText.strip_word (s := output) (split ▸ List.mem_cons_self)
    · rw [if_neg same] at found
      cases found
  · cases found

end Evidence

section Preheat
variable {tid image material : String} {outside : Nat → Preheating}
  {tables written : ContestTables} {pool state : SeatPoolState} {done : List Nat}

/-- The rows after some of the slots went through the loop. -/
structure Preheated (tid : String) (done : List Nat) (tables : ContestTables)
    (pool : SeatPoolState) : Prop where
  agreed : Agreed tables pool
  rest : ∀ seat ∈ pool.seats, seat.slotNo ∉ done → seat.state = .planned
  receipts : ∀ receipt ∈ pool.receipts, ∃ slot ∈ done,
    receipt.commandId = warmId tid slot ∨ receipt.commandId = verifyId tid slot

theorem putSeatPoolResource_ok {resource : PoolResource}
    (done : tables.putSeatPoolResource resource = .ok written)
    (fresh : resource.slotNo ∉ tables.resources.map (·.slotNo)) :
    written = { tables with resources := tables.resources ++ [resource] } ∧
      ∀ other ∈ tables.resources, other.token ≠ resource.token ∧
        other.submitToken ≠ resource.submitToken := by
  obtain ⟨_, unique, done⟩ := bind_ok.mp done
  rw [pure_eq_ok, if_neg fresh] at done
  refine ⟨done.symm, fun other mem => ?_⟩
  simp only [raiseIf_ok, not_exists, not_and, not_or] at unique
  have apart : other.slotNo ≠ resource.slotNo := fun same => fresh (same ▸ List.mem_map_of_mem mem)
  obtain ⟨token, submitToken, -⟩ := unique other mem apart
  exact ⟨token, submitToken⟩

theorem receipt_unused {receipts : List CommandReceipt} {pool : SeatPoolState}
    (is : pool.receipts = receipts) {commandId : String}
    (unused : ∀ receipt ∈ receipts, receipt.commandId ≠ commandId) :
    pool.receipt commandId = none := by
  refine List.find?_eq_none.mpr fun receipt mem same => ?_
  exact unused receipt (is ▸ mem) (by simpa using same)

/- What one pass through the loop writes. -/
theorem preheatSlot_ok (ready : Preheated tid done tables pool)
    (images : image ≠ "" ∧ PyText.strip image = image)
    (materials : material ≠ "" ∧ PyText.strip material = material) {slotNo : Nat}
    (listed : slotNo ∈ pool.slots) (fresh : slotNo ∉ done)
    (did : preheatSlot tid image material outside (tables, pool) slotNo = .ok (written, state)) :
    ∃ seat ∈ pool.seats, seat.slotNo = slotNo ∧ seat.state = .planned ∧ ∃ added : PoolResource,
      added.slotNo = slotNo ∧ added.evidence = (seatContainer tid slotNo, image, material) ∧
      (∀ other ∈ tables.resources, other.token ≠ added.token ∧
        other.submitToken ≠ added.submitToken) ∧
      written = { tables with pool := some state, resources := tables.resources ++ [added] } ∧
      state.seats = pool.seats.map (fun other => if other.slotNo = slotNo
        then verifiedSeat seat (seatContainer tid slotNo) image material else other) ∧
      state.WellFormed ∧
      ∀ receipt ∈ state.receipts, receipt ∈ pool.receipts ∨
        receipt.commandId = warmId tid slotNo ∨ receipt.commandId = verifyId tid slotNo := by
  obtain ⟨seat, memSeat, rfl⟩ := List.mem_map.mp listed
  have planned := ready.rest seat memSeat fresh
  have unused (id : String) (is : ∀ slot ∈ done, id ≠ warmId tid slot ∧ id ≠ verifyId tid slot) :
      ∀ receipt ∈ pool.receipts, receipt.commandId ≠ id := by
    intro receipt mem same
    obtain ⟨slot, memSlot, named | named⟩ := ready.receipts receipt mem
    · exact (is slot memSlot).1 (same.symm.trans named)
    · exact (is slot memSlot).2 (same.symm.trans named)
  have warmFresh := unused (warmId tid seat.slotNo) fun slot memSlot =>
    ⟨fun same => fresh (warmId_injective same ▸ memSlot), warmId_ne_verifyId tid _ _⟩
  have verifyFresh := unused (verifyId tid seat.slotNo) fun slot memSlot =>
    ⟨(warmId_ne_verifyId tid _ _).symm, fun same => fresh (verifyId_injective same ▸ memSlot)⟩
  obtain ⟨print, warmed⟩ := markWarming_planned (outside seat.slotNo).warmAtMs
    (warmId tid seat.slotNo) ready.agreed.distinct memSeat planned
    (PyText.strip_ne_empty (c := 'w') (by simp [warmId]) (by decide)) (receipt_unused rfl warmFresh)
  simp only [preheatSlot, bind_ok, mapError_ok, raiseIf_ok, pure_eq_ok, warmed, Except.ok.injEq] at did
  obtain ⟨_, rfl, tables₁, saved₁, _, -, _, -, tables₂, added, verified, marked, tables₃, saved₃, did⟩ :=
    did
  obtain ⟨rfl, -⟩ := putSeatPool_ok saved₁
  have free : seat.slotNo ∉ tables.resources.map (·.slotNo) := by
    rw [ready.agreed.active]
    rintro ⟨other, memOther, same, active⟩
    rw [seat_eq_of_slot ready.agreed.distinct memOther memSeat same] at active
    exact active planned
  obtain ⟨rfl, unique⟩ := putSeatPoolResource_ok added free
  let warming := { seat with state := .warming }
  let warmPool := pool.recorded ⟨pool.withSeat warming, .seat warming⟩ (warmId tid seat.slotNo) print
  have memWarming : warming ∈ warmPool.seats :=
    mem_replaceSeat.mpr (.inl ⟨rfl, List.mem_map.mpr ⟨seat, memSeat, rfl⟩⟩)
  have warmDistinct : warmPool.slots.Nodup := by
    rw [slots, recorded_seats, withSeat, replaceSeat_slots]
    exact ready.agreed.distinct
  have verifyUnused : ∀ receipt ∈ pool.receipts ++ [⟨warmId tid seat.slotNo, print,
      pool.revision + 1, .seat warming⟩], receipt.commandId ≠ verifyId tid seat.slotNo := by
    intro receipt mem
    rcases List.mem_append.mp mem with old | new
    · exact verifyFresh receipt old
    · rw [List.mem_singleton.mp new]
      exact warmId_ne_verifyId tid _ _
  have evidence : PyText.strip (seatContainer tid seat.slotNo) ≠ "" ∧ PyText.strip image ≠ "" ∧
      PyText.strip material ≠ "" := by
    rw [strip_seatContainer, images.2, materials.2]
    exact ⟨by simp [seatContainer], images.1, materials.1⟩
  obtain ⟨print', checked⟩ := markVerified_warming (outside seat.slotNo).verifyAtMs
    (verifyId tid seat.slotNo) warmDistinct memWarming rfl evidence
    (PyText.strip_ne_empty (c := 'v') (by simp [verifyId]) (by decide))
    (receipt_unused rfl verifyUnused)
  have wellFormed := markVerified_wellFormed (markWarming_wellFormed ready.agreed.wellFormed warmed)
    marked
  obtain ⟨_, -, rfl⟩ := map_ok.mp (checked.symm.trans marked)
  obtain ⟨rfl, -⟩ := putSeatPool_ok saved₃
  cases did
  refine ⟨seat, memSeat, rfl, planned, _, rfl, rfl, unique, rfl, ?_, wellFormed, ?_⟩
  · have warmSeats : warmPool.seats = replaceSeat pool.seats warming := rfl
    rw [recorded_seats, withSeat, warmSeats, replaceSeat, replaceSeat, List.map_map]
    refine List.map_congr_left fun other _ => ?_
    by_cases here : other.slotNo = seat.slotNo
    · simp [here, warming, verifiedSeat, strip_seatContainer, images.2, materials.2]
    · simp [here, warming, verifiedSeat]
  · intro receipt mem
    have warmReceipts : warmPool.receipts = pool.receipts ++ [⟨warmId tid seat.slotNo, print,
        pool.revision + 1, .seat warming⟩] := rfl
    rw [recorded_receipts, warmReceipts, List.mem_append, List.mem_append, List.mem_singleton,
      List.mem_singleton] at mem
    rcases mem with (old | rfl) | rfl
    · exact .inl old
    · exact .inr (.inl rfl)
    · exact .inr (.inr rfl)

theorem preheatSlot_preheated (ready : Preheated tid done tables pool)
    (images : image ≠ "" ∧ PyText.strip image = image)
    (materials : material ≠ "" ∧ PyText.strip material = material) {slotNo : Nat}
    (listed : slotNo ∈ pool.slots) (fresh : slotNo ∉ done)
    (did : preheatSlot tid image material outside (tables, pool) slotNo = .ok (written, state)) :
    Preheated tid (slotNo :: done) written state ∧ state.slots = pool.slots := by
  obtain ⟨seat, memSeat, slot, planned, added, slotAdded, evidence, unique, rfl, seats, wellFormed,
    receipts⟩ := preheatSlot_ok ready images materials listed fresh did
  have agreed := ready.agreed
  have unseated : seat.uid = none := by
    by_contra student
    have seated := (agreed.wellFormed.seats seat memSeat).seated.mp student
    rw [planned] at seated
    rcases seated with is | is | is | is <;> cases is
  have only (other : Seat) (mem : other ∈ pool.seats) (here : other.slotNo = slotNo) :
      other = seat := seat_eq_of_slot agreed.distinct mem memSeat (here.trans slot.symm)
  have free : slotNo ∉ tables.resources.map (·.slotNo) := by
    rw [agreed.active]
    rintro ⟨other, memOther, same, active⟩
    exact active (only other memOther same ▸ planned)
  have single (slot' : Nat) : slot' ∈ [added].map (·.slotNo) ↔ slot' = slotNo := by
    rw [List.map_cons, List.map_nil, List.mem_singleton, slotAdded]
  have origin : ∀ other ∈ state.seats, (other ∈ pool.seats ∧ other.slotNo ≠ slotNo) ∨
      (other.slotNo = slotNo ∧
        other = verifiedSeat seat (seatContainer tid slotNo) image material) := by
    intro other mem
    obtain ⟨old, memOld, rfl⟩ := List.mem_map.mp (seats ▸ mem)
    by_cases here : old.slotNo = slotNo
    · rw [if_pos here]
      exact .inr ⟨slot, rfl⟩
    · rw [if_neg here]
      exact .inl ⟨memOld, here⟩
  have memVerified : verifiedSeat seat (seatContainer tid slotNo) image material ∈ state.seats := by
    rw [seats]
    exact List.mem_map.mpr ⟨seat, memSeat, if_pos slot⟩
  refine ⟨⟨?_, ?_, ?_⟩, ?_⟩
  · refine agreed.joined wellFormed rfl rfl ?_ ?_ rfl ?_ ?_ ?_ ?_
    · rw [List.map_append, List.nodup_append']
      refine ⟨agreed.slots, List.nodup_singleton _, ?_⟩
      simpa [slotAdded] using free
    · intro a memA b memB shared
      rcases List.mem_append.mp memA with oldA | newA <;>
        rcases List.mem_append.mp memB with oldB | newB
      · exact agreed.tokens a oldA b oldB shared
      · rw [List.mem_singleton.mp newB] at shared
        exact absurd shared (not_or.mpr (unique a oldA))
      · rw [List.mem_singleton.mp newA] at shared
        exact absurd (shared.imp Eq.symm Eq.symm) (not_or.mpr (unique b oldB))
      · rw [List.mem_singleton.mp newA, List.mem_singleton.mp newB]
    · intro other mem elsewhere
      rw [single] at elsewhere
      rw [seats]
      exact List.mem_map.mpr ⟨other, mem, if_neg elsewhere⟩
    · intro other mem
      rcases origin other mem with ⟨old, elsewhere⟩ | ⟨here, rfl⟩
      · exact .inl ⟨old, (single _).not.mpr elsewhere⟩
      · exact .inr ⟨added, List.mem_singleton_self _, slotAdded.trans here.symm, rfl,
          evidence.symm⟩
    · intro resource mem
      rw [List.mem_singleton.mp mem]
      exact ⟨_, memVerified, slot.trans slotAdded.symm, rfl⟩
    · intro other mem here
      rw [only other mem ((single _).mp here)]
      exact unseated
  · intro other mem waits
    rw [List.mem_cons, not_or] at waits
    rcases origin other mem with ⟨old, -⟩ | ⟨here, -⟩
    · exact ready.rest other old waits.2
    · exact absurd here waits.1
  · intro receipt mem
    rcases receipts receipt mem with old | own
    · obtain ⟨slot', memSlot, named⟩ := ready.receipts receipt old
      exact ⟨slot', List.mem_cons_of_mem _ memSlot, named⟩
    · exact ⟨slotNo, List.mem_cons_self, own⟩
  · rw [SeatPoolState.slots, SeatPoolState.slots, seats, List.map_map]
    refine List.map_congr_left fun other _ => ?_
    by_cases here : other.slotNo = slotNo
    · simp [here, verifiedSeat, slot]
    · simp [here]

/- The loop over the slots that are left. -/
theorem preheat_agreed (images : image ≠ "" ∧ PyText.strip image = image)
    (materials : material ≠ "" ∧ PyText.strip material = material) {todo : List Nat}
    (ready : Preheated tid done tables pool) (listed : ∀ slot ∈ todo, slot ∈ pool.slots)
    (fresh : ∀ slot ∈ todo, slot ∉ done) (distinct : todo.Nodup)
    (did : todo.foldlM (preheatSlot tid image material outside) (tables, pool) =
      .ok (written, state)) : Agreed written state := by
  induction todo generalizing done tables pool with
  | nil =>
    cases did
    exact ready.agreed
  | cons slot rest ih =>
    rw [List.foldlM_cons, bind_ok] at did
    obtain ⟨⟨tables', pool'⟩, first, did⟩ := did
    rw [List.nodup_cons] at distinct
    obtain ⟨ready', same⟩ := preheatSlot_preheated ready images materials
      (listed slot List.mem_cons_self) (fresh slot List.mem_cons_self) first
    refine ih ready' ?_ ?_ distinct.2 did
    · exact fun slot' mem => same ▸ listed slot' (List.mem_cons_of_mem _ mem)
    · intro slot' mem
      rw [List.mem_cons, not_or]
      exact ⟨fun here => distinct.1 (here ▸ mem), fresh slot' (List.mem_cons_of_mem _ mem)⟩

theorem create_agreed {contestId : String} {mains spares beginAtMs lead : Int}
    (created : create contestId mains spares beginAtMs lead = .ok pool)
    (stored : tables.pool = some pool) (resources : tables.resources = [])
    (seats : tables.seats = []) : Preheated tid [] tables pool := by
  have wellFormed := create_wellFormed created
  simp only [create, bind_ok, raiseIf_ok, pure_eq_ok] at created
  obtain ⟨_, -, _, -, _, -, _, -, _, -, _, -, rfl⟩ := created
  have planned : ∀ seat ∈ (List.range' 1 (mains + spares).toNat).map (fun index : Nat =>
      Seat.planned index (if (index : Int) ≤ mains then .primary else .spare)),
      seat.state = .planned ∧ seat.uname = "" := by
    intro seat mem
    obtain ⟨index, -, rfl⟩ := List.mem_map.mp mem
    exact ⟨rfl, rfl⟩
  refine ⟨⟨stored, wellFormed, fun seat mem _ => (planned seat mem).2, ?_, ?_, ?_, ?_, ?_, ?_⟩,
    fun seat mem _ => (planned seat mem).1, fun receipt mem => by cases mem⟩
  · intro seat mem
    rw [(planned seat mem).1]
    decide
  · simp [resources]
  · simp [resources]
  · intro slot
    simp only [resources, List.map_nil, List.not_mem_nil, false_iff]
    rintro ⟨seat, mem, -, active⟩
    exact active (planned seat mem).1
  · simp [resources]
  · simp [seats]

theorem preparePool_agreed {cfg : Config} {contest : Contest} {participants : Nat}
    {imageOutput : String}
    (did : preparePool cfg contest participants imageOutput outside tables = .ok (written, state)) :
    Agreed written state := by
  simp only [preparePool, bind_ok, mapError_ok, raiseIf_ok, pure_eq_ok] at did
  obtain ⟨_, -, ⟨targetMain, targetSpares⟩, -, _, -, _, -, image, found, pool, created, initial,
    saved, ⟨_, _⟩, looped, _, -, same⟩ := did
  cases same
  obtain ⟨rfl, -⟩ := putSeatPool_ok saved
  exact preheat_agreed (desktopImage_ok found) (materialDigest_trimmed contest)
    (create_agreed created rfl rfl rfl) (fun _ mem => mem) (fun _ _ => List.not_mem_nil)
    (create_wellFormed created).distinct looped

end Preheat

end LivePool
end NoiContest
