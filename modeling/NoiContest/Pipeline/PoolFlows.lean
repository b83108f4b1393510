import NoiContest.Pipeline.PoolContext

/- The procedures that change the pool of a ready contest: following the roster, growing,
   replacing a failed seat and rebuilding its slot. A handler that looks at local variables
   gets them with the error. -/
namespace NoiContest.Pipeline
open SeatPool Flow

abbrev Holding (Locals α : Type) : Type := Program Call Answer Raised (Raised × Locals) α

/-- Runs a part of a body while its local variables have the given values. -/
def holding {Locals α : Type} (locals : Locals) (body : Procedure α) : Holding Locals α :=
  body.mapError fun error => (error, locals)

/-- `try: body` with an `except Exception` that only writes to the log. -/
def quietly (body : Procedure Unit) : Procedure Unit := body.orElse fun _ => pure ()

def onlyIf (condition : Prop) [Decidable condition] (body : Procedure Unit) : Procedure Unit :=
  if condition then body else pure ()

def reportReady (message : String) : Procedure Unit := do
  match ← getContest with
  | some contest => onlyIf (contest.state = .ready) (setState .ready message)
  | none => pure ()

def restoreStaged (remote : Bool) : Option Int → Procedure Unit
  | some revision => onlyIf (remote = true) (quietly (restorePoolGateway revision))
  | none => pure ()

/-- A commit after the gateway was switched; a failed one switches it back. -/
def commitOrRestore {Locals α : Type} (staged unstaged : Locals) (revision : Int)
    (commit : Procedure α) : Holding Locals α :=
  Program.orElse (holding staged commit) fun failed => do
    holding staged (restorePoolGateway revision)
    Program.raise (failed.1, unstaged)

/- Growing -/

structure PoolChange where
  replayed : Bool
  revision : Nat
  added : List Nat
  counts : List (SeatState × Nat)
  deriving DecidableEq, Repr

structure GrowLocals where
  remote : Bool := false
  attempted : List ResourceSpec := []
  stagedBackup : Option Int := none
  committed : Bool := false

def addedSlots : CommandValue → List Nat
  | .added seats => seats.map (·.slotNo)
  | _ => []

/- The loop over the added slots, with the pool state, the addresses and the new resources. -/
def provisionAdded (context : RuntimeContext) (tid : String) (expectedRevision : Int) : List Nat → SeatPoolState → List String → List ResourceSpec →
    List PoolResource →
    Holding GrowLocals (SeatPoolState × List ResourceSpec × List PoolResource)
  | [], state, _, attempted, resources => pure (state, attempted, resources)
  | slotNo :: rest, state, existingCips, attempted, resources => do
    let locals : GrowLocals := { remote := true, attempted := attempted }
    let warmId := "warm:grow:" ++ tid ++ ":r" ++ toString expectedRevision ++ ":" ++
      toString slotNo
    let warmAtMs ← holding locals clock
    let warming ← holding locals
      (onPool (state.markWarming slotNo warmAtMs warmId state.revision))
    let spec ← holding locals (newPoolResourceSpec tid slotNo)
    let attempted := attempted ++ [spec]
    let locals : GrowLocals := { locals with attempted := attempted }
    let resource ← holding locals (provisionPoolSlot context spec existingCips)
    let verifyId := "verify:grow:" ++ tid ++ ":r" ++ toString expectedRevision ++ ":" ++
      toString slotNo
    let verifyAtMs ← holding locals clock
    let verified ← holding locals (onPool (warming.state.markVerified slotNo resource.container
      context.imageDigest context.materialDigest verifyAtMs verifyId warming.state.revision))
    provisionAdded context tid expectedRevision rest verified.state
      (resource.cip :: existingCips) attempted (resources ++ [resource])

def growId (tid : String) (expectedRevision additionalMain additionalSpares : Int) : String :=
  "grow:" ++ tid ++ ":r" ++ toString expectedRevision ++ ":" ++ toString additionalMain ++ ":" ++
    toString additionalSpares

def growBody (cfg : Config) (tid : String) (additionalMain additionalSpares
    expectedRevision : Int) : Holding GrowLocals PoolChange := do
  holding {} acquireDeploymentLock
  let row ← holding {} getContest
  let stored ← holding {} seatPool
  match row, stored with
  | some contest, some pool =>
    holding {} (raiseIf (contest.state ≠ .ready) "只有运行中的比赛可以现场扩容")
    holding {} (validateContestSnapshot contest)
    let grown ← holding {} (onPool (pool.grow additionalMain additionalSpares
      (growId tid expectedRevision additionalMain additionalSpares) expectedRevision))
    if grown.replayed then
      return ⟨true, grown.state.revision, addedSlots grown.value, grown.state.stateCounts⟩
    else do
      let participantLimit := cfg.seatPoolMaximum
      let totalLimit := cfg.seatPoolTotalMaximum.getD participantLimit
      holding {} (raiseIf (participantLimit < grown.state.maxParticipants)
        ("正式参赛人数不能超过安全上限 " ++ toString participantLimit))
      holding {} (raiseIf (totalLimit < (grown.state.seats.length : Int))
        ("座位总数不能超过安全上限 " ++ toString totalLimit))
      let (cloudState, ip) ← holding {} cvmStatus
      holding {} (raiseIf (cloudState.toUpper ≠ "RUNNING" ∨ ip = "")
        "比赛服务器未运行，禁止现场扩容")
      let reached : GrowLocals := { remote := true }
      let reachable ← holding reached waitSsh
      holding reached (raiseIf (reachable = false) "SSH 等待超时")
      let context ← holding reached (poolRuntimeContext cfg contest pool)
      let (state, attempted, newResources) ← provisionAdded context tid expectedRevision
        (addedSlots grown.value) grown.state (context.resources.map (·.cip)) [] []
      let provisioned : GrowLocals := { remote := true, attempted := attempted }
      let conf ← holding provisioned
        (checked (poolGatewayConf (context.resources ++ newResources)))
      holding provisioned (stagePoolGateway state.revision conf)
      let staged := { provisioned with stagedBackup := some (state.revision : Int) }
      commitOrRestore staged provisioned state.revision
        (commitPoolExpansion tid expectedRevision state newResources)
      let committed := { staged with committed := true }
      let _ ← holding committed (run (.removeBackup state.revision))
      holding { committed with stagedBackup := none } (setState .ready
        ("自动扩容完成：新增 " ++ toString newResources.length ++ " 个座位，座位池共 " ++
          toString state.seats.length ++ " 个"))
      return ⟨false, state.revision, addedSlots grown.value, state.stateCounts⟩
  | _, _ => holding {} (raise (.runtime "比赛尚未建立座位池"))

def growFailed {α : Type} (error : Raised) (locals : GrowLocals) : Procedure α := do
  restoreStaged locals.remote locals.stagedBackup
  onlyIf (locals.remote ∧ locals.attempted ≠ [] ∧ ¬ locals.committed)
    (quietly (cleanupIncrementalSlots locals.attempted))
  reportReady ("自动扩容失败，原座位池保持运行：" ++ error.text)
  raise error

def growPool (cfg : Config) (tid : String) (additionalMain additionalSpares
    expectedRevision : Int) : Procedure PoolChange := do
  enter tid
  Program.andFinally
    (Program.orElse (growBody cfg tid additionalMain additionalSpares expectedRevision)
      fun failed => growFailed failed.1 failed.2)
    (do
      releaseDeploymentLock
      leave)

/- Following the roster -/

def reserveId (tid : String) (uid : Int) : String := "reserve:" ++ tid ++ ":" ++ toString uid

def reserveRoster (tid : String) (nowMs : Int) :
    List Participant → SeatPoolState → Procedure SeatPoolState
  | [], pool => pure pool
  | participant :: rest, pool => do
    match pool.assignment participant.uid with
    | some existing =>
      -- the pool and the seat rows are separate transactions, so the row is bound again
      bindPoolSeat participant.uid participant.uname existing.slotNo
      reserveRoster tid nowMs rest pool
    | none =>
      let result ← onPool (pool.reserve participant.uid participant.uname nowMs
        (reserveId tid participant.uid) pool.revision)
      let pool ← savePoolState (some pool.revision) result.state
      match result.value with
      | .seat seat => bindPoolSeat participant.uid participant.uname seat.slotNo
      | _ => raise (.pool (.keyError "slot_no"))
      reserveRoster tid nowMs rest pool

structure Growth where
  grown : Bool
  added : List Nat
  deriving DecidableEq, Repr

def ensureAutomaticRosterCapacity (cfg : Config) (tid : String) (roster : List Participant) :
    Procedure Growth := do
  let row ← getContest
  let stored ← seatPool
  match row, stored with
  | some contest, some pool =>
    if contest.state ≠ .ready then return ⟨false, []⟩
    else do
      let (targetMain, targetSpares) ← onPool (desiredCapacity roster.length)
      let additionalMain := max 0 (targetMain - pool.maxParticipants)
      let additionalSpares := max 0 (targetSpares - pool.spareCount)
      if additionalMain + additionalSpares = 0 then return ⟨false, []⟩
      else do
        let result ← growPool cfg tid additionalMain additionalSpares pool.revision
        return ⟨true, result.added⟩
  | _, _ => raise (.runtime "比赛尚未建立座位池")

def checkParticipant (fold : String → String) (seen : List Participant)
    (participant : Participant) : Except Raised (List Participant) := do
  let uname := PyText.strip participant.uname
  Outcome.raiseIf (participant.uid < 1 ∨ uname = "") (.runtime "OJ 报名名单包含无效账号")
  Outcome.raiseIf (participant.uid ∈ seen.map (·.uid) ∨
      fold uname ∈ seen.map (fun other => fold other.uname))
    (.runtime "OJ 报名名单包含重复账号")
  return seen ++ [⟨participant.uid, uname⟩]

/- The case folding of names is any function. -/
def validateRoster (fold : String → String) (roster : List Participant) :
    Except Raised (List Participant) :=
  roster.foldlM (checkParticipant fold) []

structure RosterSync where
  roster : Nat
  assigned : Nat
  released : List Int
  automaticGrowth : Growth
  counts : List (SeatState × Nat)
  releaseAtMs : Int
  deriving DecidableEq, Repr

def releaseId (tid : String) (releaseAtMs : Int) (revision : Nat) : String :=
  "release:" ++ tid ++ ":" ++ toString releaseAtMs ++ ":r" ++ toString revision

def releasedUids : CommandValue → List Int
  | .released seats => seats.filterMap (·.uid)
  | _ => []

/- A release that was saved leaves no reserved seat, so it is not replayed at every poll. -/
def releaseDueSeats (tid : String) (nowMs : Int) (pool : SeatPoolState) :
    Procedure (SeatPoolState × List Int) := do
  if pool.releaseAtMs ≤ nowMs ∧ ∃ seat ∈ pool.seats, seat.state = .reserved then do
    let released ← onPool (pool.releaseDue nowMs
      (releaseId tid pool.releaseAtMs pool.revision) pool.revision)
    let saved ← if released.replayed = false ∧ released.state.revision ≠ pool.revision
      then savePoolState (some pool.revision) released.state
      else pure released.state
    return (saved, releasedUids released.value)
  else return (pool, [])

def syncRoster (cfg : Config) (fold : String → String) (tid : String) : Procedure RosterSync := do
  let roster ← checked (validateRoster fold (← hydroRoster))
  let growth ← ensureAutomaticRosterCapacity cfg tid roster
  enter tid
  Program.andFinally (do
    let row ← getContest
    let stored ← seatPool
    match row, stored with
    | some contest, some pool =>
      raiseIf (contest.state ≠ .ready ∧ contest.state ≠ .preparing) "当前比赛状态不允许同步名单"
      validateContestSnapshot contest
      let nowMs ← clock
      let pool ← reserveRoster contest.tid nowMs roster pool
      let (pool, released) ← releaseDueSeats tid nowMs pool
      return {
        roster := roster.length
        assigned := pool.assigned.length
        released := released
        automaticGrowth := growth
        counts := pool.stateCounts
        releaseAtMs := pool.releaseAtMs }
    | _, _ => raise (.runtime "比赛尚未建立座位池"))
    leave

/- Rebuilding a slot -/

def repairId (step tid : String) (slotNo failureCount : Nat) : String :=
  "repair:" ++ step ++ ":" ++ tid ++ ":" ++ toString slotNo ++ ":failure:" ++
    toString failureCount

/- What the handler of the rebuild looks at; a body that raised has not committed. -/
structure RepairLocals where
  stagedBackup : Option Int := none

def rebuildSlot (tid : String) (slotNo failureCount : Nat) (expectedRevision : Int)
    (context : RuntimeContext) (spec : ResourceSpec) (state : SeatPoolState) :
    Holding RepairLocals Nat := do
  let resource ← holding {} (provisionPoolSlot context spec (context.resources.map (·.cip)))
  let verifyAtMs ← holding {} clock
  let verified ← holding {} (onPool (state.markVerified slotNo resource.container
    resource.imageDigest resource.materialDigest verifyAtMs
    (repairId "verify" tid slotNo failureCount) state.revision))
  let state := verified.state
  let conf ← holding {} (checked (poolGatewayConf (context.resources ++ [resource])))
  holding {} (stagePoolGateway state.revision conf)
  holding { stagedBackup := some (state.revision : Int) }
    (commitPoolRepair tid expectedRevision state resource slotNo)
  holding {} (quietly do let _ ← run (.removeBackup state.revision))
  return state.revision

def repairIsolatedPoolSlot (cfg : Config) (tid : String) (slotNo : Nat)
    (expectedRevision : Int) (contest : Contest) : Procedure Nat := do
  match ← seatPool with
  | none => raise (.runtime "容量修复前座位池已变化")
  | some pool =>
    raiseIf ((pool.revision : Int) ≠ expectedRevision) "容量修复前座位池已变化"
    let failed ← onPool (pool.seat slotNo)
    raiseIf (failed.state ≠ .planned ∨ failed.uid ≠ none ∨ failed.failureCount < 1)
      "目标座位不处于可恢复的隔离状态"
    let context ← poolRuntimeContext cfg contest pool
    let spec ← newPoolResourceSpec tid slotNo
    -- the last bytes of the student are with the replacement, a spare starts empty
    let _ ← run (.removeHome slotNo)
    let warmAtMs ← clock
    let warming ← onPool (pool.markWarming slotNo warmAtMs
      (repairId "warm" tid slotNo failed.failureCount) pool.revision)
    Program.orElse
      (rebuildSlot tid slotNo failed.failureCount expectedRevision context spec
        warming.state)
      fun raised => do
        restoreStaged true raised.2.stagedBackup
        quietly (cleanupIncrementalSlots [spec])
        raise raised.1

def repairPoolCapacity (cfg : Config) (tid : String) (slotNo : Nat) (expectedRevision : Int) :
    Procedure Nat := do
  enter tid
  Program.andFinally (do
    acquireDeploymentLock
    match ← getContest with
    | none => raise (.runtime "只有运行中的比赛可以恢复备用容量")
    | some contest =>
      raiseIf (contest.state ≠ .ready) "只有运行中的比赛可以恢复备用容量"
      validateContestSnapshot contest
      let (cloudState, ip) ← cvmStatus
      raiseIf (cloudState.toUpper ≠ "RUNNING" ∨ ip = "") "比赛服务器未运行，禁止恢复备用容量"
      let reachable ← waitSsh
      raiseIf (reachable = false) "SSH 等待超时"
      let revision ← repairIsolatedPoolSlot cfg tid slotNo expectedRevision contest
      setState .ready ("座位 " ++ PyText.threeDigits slotNo ++ " 已重建，备用容量恢复")
      return revision)
    (do
      releaseDeploymentLock
      leave)

/- Replacing a failed seat -/

structure Replacement where
  replayed : Bool
  revision : Nat
  failed : Option Seat
  replacement : Option Seat
  credentialRevision : Option Int := none
  capacityRecovered : Bool := false
  capacityRevision : Nat := 0
  deriving DecidableEq, Repr

structure ReplaceLocals where
  remote : Bool := false
  stagedBackup : Option Int := none
  pausedByUs : Bool := false
  committed : Bool := false
  failedContainer : String := ""

def failedOf : CommandValue → Option Seat
  | .replaced failed _ => failed
  | _ => none

def replacementOf : CommandValue → Option Seat
  | .replaced _ replacement => replacement
  | _ => none

def findResource (resources : List PoolResource) (slotNo : Nat) (message : String) :
    Except Raised PoolResource :=
  match resources.find? (·.slotNo == slotNo) with
  | some resource => .ok resource
  | none => .error (.runtime message)

/- Stops a running container; whether this procedure paused it. -/
def pauseFailed (locals : ReplaceLocals) : Holding ReplaceLocals Bool := do
  let status := PyText.strip (← holding locals (run (.containerStatus locals.failedContainer)))
  if status = "running" then do
    let _ ← holding locals (run (.pauseContainer locals.failedContainer))
    return true
  else do
    holding locals (raiseIf (status ≠ "paused" ∧ status ≠ "exited" ∧ status ≠ "dead")
      ("故障容器状态 " ++ orElseText status "unknown" ++ " 不允许安全切换"))
    return false

def replaceMessage (slotNo : Nat) (replacement : Option Seat) (recovered : Bool) : String :=
  "故障座位 " ++ PyText.threeDigits slotNo ++ " 已隔离" ++
    (match replacement with
    | some seat => "，学生已切换到备用座位 " ++ PyText.threeDigits seat.slotNo
    | none => "") ++
    (if recovered then "；原槽位已重建并恢复备用容量" else "；备用容量恢复失败，请立即执行容量修复")

def copyToReplacement (context : RuntimeContext) (slotNo : Nat) (replacement : Option Seat) :
    Procedure Unit := do
  match replacement with
  | none => pure ()
  | some seat =>
    let _ ← checked (findResource context.resources seat.slotNo "备用座位连接资源不存在")
    let _ ← run (.copyAnswers slotNo seat.slotNo)

def replaceBody (cfg : Config) (tid : String) (slotNo : Nat) (reason : String)
    (expectedRevision : Int) : Holding ReplaceLocals Replacement := do
  holding {} acquireDeploymentLock
  let row ← holding {} getContest
  let stored ← holding {} seatPool
  match row, stored with
  | some contest, some pool =>
    holding {} (raiseIf (contest.state ≠ .ready) "只有运行中的比赛可以替换故障座位")
    holding {} (validateContestSnapshot contest)
    let nowMs ← holding {} clock
    let replaced ← holding {} (onPool (pool.replaceFailed slotNo reason nowMs true
      ("replace:" ++ tid ++ ":r" ++ toString expectedRevision ++ ":" ++ toString slotNo)
      expectedRevision))
    let replacement := replacementOf replaced.value
    if replaced.replayed then
      return {
        replayed := true
        revision := replaced.state.revision
        failed := failedOf replaced.value
        replacement := replacement }
    else do
      let (cloudState, ip) ← holding {} cvmStatus
      holding {} (raiseIf (cloudState.toUpper ≠ "RUNNING" ∨ ip = "")
        "比赛服务器未运行，禁止替换故障座位")
      let reached : ReplaceLocals := { remote := true }
      let reachable ← holding reached waitSsh
      holding reached (raiseIf (reachable = false) "SSH 等待超时")
      let context ← holding reached (poolRuntimeContext cfg contest pool)
      let failedResource ← holding reached
        (checked (findResource context.resources slotNo "故障座位连接资源不存在"))
      let found := { reached with failedContainer := failedResource.container }
      let pausedByUs ← pauseFailed found
      let stopped := { found with pausedByUs := pausedByUs }
      holding stopped (copyToReplacement context slotNo replacement)
      let conf ← holding stopped
        (checked (poolGatewayConf (context.resources.filter (·.slotNo != slotNo))))
      holding stopped (stagePoolGateway replaced.state.revision conf)
      let staged := { stopped with stagedBackup := some (replaced.state.revision : Int) }
      let bound ← commitOrRestore staged stopped replaced.state.revision
        (commitPoolReplacement tid expectedRevision replaced.state slotNo)
      let committed := { staged with committed := true }
      let _ ← holding committed (run (.removeBackup replaced.state.revision))
      let finished := { committed with stagedBackup := none }
      holding finished (quietly do
        let _ ← run (.removeContainer failedResource.container))
      -- the cutover is committed, a failed rebuild leaves a slot for the capacity repair
      let rebuilt ← holding finished (Program.attempt (repairIsolatedPoolSlot cfg tid slotNo
        replaced.state.revision contest))
      let recovered := rebuilt.isOk
      holding finished (setState .ready (replaceMessage slotNo replacement recovered))
      return {
        replayed := false
        revision := replaced.state.revision
        failed := failedOf replaced.value
        replacement := replacement
        credentialRevision := bound.map (·.credentialRevision)
        capacityRecovered := recovered
        capacityRevision := rebuilt.toOption.getD replaced.state.revision }
  | _, _ => holding {} (raise (.runtime "比赛尚未建立座位池"))

def replaceFailed {α : Type} (error : Raised) (locals : ReplaceLocals) : Procedure α := do
  restoreStaged locals.remote locals.stagedBackup
  onlyIf (locals.remote ∧ locals.failedContainer ≠ "" ∧ locals.pausedByUs ∧ ¬ locals.committed)
    (quietly do let _ ← run (.unpauseContainer locals.failedContainer))
  reportReady ("故障座位替换失败，原连接保持不变：" ++ error.text)
  raise error

def replaceFailedSeat (cfg : Config) (tid : String) (slotNo : Nat) (reason : String)
    (expectedRevision : Int) (teacherApproved : Bool) : Procedure Replacement := do
  if teacherApproved = false then raise (.teacherApproval "故障座位替换必须由教师明确确认")
  else do
    enter tid
    Program.andFinally
      (Program.orElse (replaceBody cfg tid slotNo reason expectedRevision)
        fun failed => replaceFailed failed.1 failed.2)
      (do
        releaseDeploymentLock
        leave)

end NoiContest.Pipeline
