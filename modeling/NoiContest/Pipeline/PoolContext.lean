import NoiContest.Lib.IPv4
import NoiContest.Pipeline.Calls

/- What the pool procedures check and build before they touch a seat: the registration, the
   resources of the pool, the running host, one new slot, and the gateway configuration. -/
namespace NoiContest.Pipeline
open SeatPool

structure PublicUrl where
  scheme : String
  hostname : String
  path : String
  deriving DecidableEq, Repr

/- public_base_url is kept as urlparse splits it. -/
structure Config where
  dockerImage : String
  publicBase : PublicUrl
  seatPoolMaximum : Int := 30
  seatPoolTotalMaximum : Option Int := none
  deriving DecidableEq, Repr

def desktopImageContract : String := "finalizer-status-v1"

def isWebMode (contest : Contest) : Bool :=
  contest.submissionMode == "web" || contest.submissionMode == "both"

def validateContestSnapshot (contest : Contest) : Procedure Unit := do
  -- registrations without a snapshot stay recoverable
  if contest.beginAtMs = 0 ∨ contest.endAtMs = 0 then pure ()
  else do
    match ← hydroContest with
    | none => raise (.runtime "Hydro 比赛不存在，请重新登记比赛")
    | some document =>
      raiseIf (document.beginAtMs ≠ contest.beginAtMs ∨ document.endAtMs ≠ contest.endAtMs ∨
          document.rule ≠ contest.hydroRule)
        "Hydro 比赛时间或赛制在登记后已修改；请重新登记再备赛"
      raiseIf (isWebMode contest = true ∧ document.rule ≠ "oi") "网页实时评测只允许 Hydro OI 赛制"

def orElseText (text fallback : String) : String := if text = "" then fallback else text

def materialDigest (contest : Contest) : String :=
  let manifest := PyText.strip contest.materialManifestSha256
  if manifest ≠ "" then "sha256:" ++ manifest
  else "sha256:" ++ Sha256.ofText (String.intercalate "\x00"
    [orElseText contest.activeMaterialRevision "legacy-manual", contest.paperSha256,
      contest.testdataSha256])

def inspectDesktopImageContract (imageRef : String) : Procedure String := do
  let output ← run (.inspectDesktopImage imageRef)
  match PyText.words output with
  | [imageId, contract] =>
    raiseIf (contract ≠ desktopImageContract) "比赛镜像桌面就绪契约不匹配；禁止创建或切换座位"
    return imageId
  | _ => raise (.runtime "比赛镜像无法提供桌面就绪契约")

def checkPoolSeat (resources : List PoolResource) (seat : Seat) : Except Raised Unit :=
  match resources.find? (·.slotNo == seat.slotNo) with
  | none =>
    if seat.state = .planned then .ok ()
    else .error (.runtime ("座位 " ++ toString seat.slotNo ++ " 缺少连接资源"))
  | some resource =>
    if seat.state = .planned then .error (.runtime "待建座位仍残留旧连接资源，请先排障")
    else if seat.evidence ≠ resource.evidence then
      .error (.runtime ("座位 " ++ toString seat.slotNo ++ " 的验收证据不一致"))
    else .ok ()

def activeSeats (pool : SeatPoolState) : List Seat := pool.seats.filter (·.state != .planned)

/-- The image and the material that every active seat was verified with. -/
def verifiedPoolInventory (resources : List PoolResource) (pool : SeatPoolState) :
    Except Raised (String × String) := do
  Outcome.raiseIf (¬ (resources.map (·.slotNo)).Nodup) (.runtime "座位池连接资源编号重复")
  pool.seats.forM (checkPoolSeat resources)
  Outcome.raiseIf (∃ resource ∈ resources,
      resource.slotNo ∉ (activeSeats pool).map (·.slotNo))
    (.runtime "座位池存在未纳入状态机的连接资源")
  match ((activeSeats pool).map (·.imageDigest)).dedup,
      ((activeSeats pool).map (·.materialDigest)).dedup with
  | [image], [material] => return (image, material)
  | _, _ => throw (.runtime "现有座位未使用同一镜像和材料版本，禁止现场变更")

structure RuntimeContext where
  resources : List PoolResource
  imageDigest : String
  materialDigest : String
  networkGateway : String
  deriving DecidableEq, Repr

def verifiedContext (cfg : Config) (contest : Contest) (pool : SeatPoolState)
    (resources : List PoolResource) : Procedure RuntimeContext := do
  let (image, material) ← checked (verifiedPoolInventory resources pool)
  raiseIf (material ≠ materialDigest contest) "已批准材料版本与现有座位不一致，禁止现场变更"
  let expectedImageId ← inspectDesktopImageContract cfg.dockerImage
  raiseIf (expectedImageId = "" ∨ expectedImageId ≠ image)
    "比赛镜像已变化，禁止把不同镜像混入现有座位池"
  let networkGateway := PyText.strip (← run .networkGateway)
  match IPv4.parse networkGateway with
  | none => raise (.runtime "隔离网络网关地址无效")
  | some gateway =>
    raiseIf (gateway.isPrivate = false) "隔离网络必须使用内网 IPv4 网关"
    let paper := PyText.strip (← run .paperDigest)
    raiseIf (paper ≠ contest.paperSha256) "远端试题 PDF 与已批准版本不一致"
    raiseIf (isWebMode contest = true ∧ (cfg.publicBase.scheme ≠ "https" ∨
        cfg.publicBase.hostname = "" ∨ (cfg.publicBase.path ≠ "" ∧ cfg.publicBase.path ≠ "/")))
      "网页提交模式要求有效的 HTTPS public_base_url"
    return {
      resources := resources
      imageDigest := image
      materialDigest := material
      networkGateway := networkGateway }

def poolRuntimeContext (cfg : Config) (contest : Contest) (pool : SeatPoolState) :
    Procedure RuntimeContext := do
  verifiedContext cfg contest pool (← seatPoolResources)

def newPoolResourceSpec (tid : String) (slotNo : Nat) : Procedure ResourceSpec := do
  let (token, vncPass, submitToken) ← newCredentials slotNo
  return {
    slotNo := slotNo
    token := token
    vncPass := vncPass
    submitToken := submitToken
    candidate := "CSP" ++ PyText.threeDigits slotNo
    container := "seat-" ++ PyText.clip 8 tid ++ "-slot-" ++ PyText.threeDigits slotNo }

/-- Creates one slot that is still unassigned and checks it. -/
def provisionPoolSlot (context : RuntimeContext) (spec : ResourceSpec)
    (existingCips : List String) : Procedure PoolResource := do
  let _ ← run (.makeAnswerDirectories spec.slotNo)
  let _ ← run (.runContainer spec)
  let actualImageId := PyText.strip (← run (.containerImage spec.container))
  raiseIf (actualImageId ≠ context.imageDigest) ("容器 " ++ spec.container ++ " 使用了非预期镜像")
  let cip := PyText.strip (← run (.containerAddress spec.container))
  match IPv4.parse cip with
  | none => raise (.runtime ("容器 " ++ spec.container ++ " 未取得有效内网 IP"))
  | some address =>
    raiseIf (address.isPrivate = false ∨ cip ∈ existingCips)
      ("容器 " ++ spec.container ++ " 的内网 IP 无效或重复")
    let _ ← run (.seatReadiness spec.container cip)
    return {
      slotNo := spec.slotNo
      token := spec.token
      vncPass := spec.vncPass
      submitToken := spec.submitToken
      candidate := spec.candidate
      container := spec.container
      cip := cip
      imageDigest := context.imageDigest
      materialDigest := context.materialDigest }

def isTokenChar (c : Char) : Bool :=
  ('A' ≤ c && c ≤ 'Z') || ('a' ≤ c && c ≤ 'z') || ('0' ≤ c && c ≤ '9') || c == '_' || c == '-'

/-- A full match of `[A-Za-z0-9_-]{16,64}`. -/
def isGatewayToken (token : String) : Bool :=
  decide (16 ≤ token.length ∧ token.length ≤ 64) && token.toList.all isTokenChar

def checkGatewayEntry (seen : List (String × String)) (resource : PoolResource) :
    Except Raised (List (String × String)) := do
  Outcome.raiseIf (isGatewayToken resource.token = false) (.runtime "座位网关 token 格式无效")
  match IPv4.parse resource.cip with
  | none => throw (.runtime "座位网关内网 IP 无效")
  | some address =>
    Outcome.raiseIf (address.isPrivate = false) (.runtime "座位网关只允许隔离网络 IPv4 地址")
    Outcome.raiseIf (resource.token ∈ seen.map Prod.fst ∨ resource.cip ∈ seen.map Prod.snd)
      (.runtime "座位网关存在重复 token 或内网 IP")
    return (resource.token, resource.cip) :: seen

/- The rendered text is a function of the resources, the contest and the configuration. -/
def poolGatewayConf (resources : List PoolResource) : Except Raised (List PoolResource) := do
  let sorted := resources.insertionSort (fun a b => a.slotNo ≤ b.slotNo)
  let _ ← sorted.foldlM checkGatewayEntry []
  return sorted

/- The switch keeps a backup of the configuration before it, named by the revision. -/
def stagePoolGateway (revision : Int) (conf : List PoolResource) : Procedure Unit := do
  let _ ← run (.putGatewayConf revision conf)
  let _ ← run (.switchGateway revision)

def restorePoolGateway (revision : Int) : Procedure Unit := do
  let _ ← run (.restoreGateway revision)

def cleanupIncrementalSlots : List ResourceSpec → Procedure Unit
  | [] => pure ()
  | spec :: rest => do
    let _ ← run (.removeSlot spec)
    cleanupIncrementalSlots rest

end NoiContest.Pipeline
