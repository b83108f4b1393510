import NoiContest.Desktop.Rules

/- Publishing and closing the public desktop entrance. Cloud calls may fail, a mutation that was
   sent may have taken effect whatever the cloud answered, and reads show the rules as they are. -/
namespace NoiContest.Desktop
open Pipeline (Raised)
open Flow

/-- Registration refuses every other tid. -/
abbrev RegisteredContest : Type := { contest : Contest // PyText.isHexOf 24 contest.tid = true }

def RegisteredContest.withState (contest : RegisteredContest) (state : ContestState)
    (message : String) : RegisteredContest :=
  ⟨{ contest.1 with state := state, message := message }, contest.2⟩

structure Desk where
  contests : List RegisteredContest := []
  rules : List Rule := []
  nowMs : Int := 0
  /- How often the best-effort stop of the contest server was called. -/
  stops : Nat := 0

inductive DeskCall where
  | contests
  | clock
  | cvmStatus
  | topology
  | ingress
  | authorize (rule : Rule)
  | revoke (ruleIds : List String)
  | checkMaintenance (contest : RegisteredContest)
  | setState (tid : String) (state : ContestState) (message : String)
  | stopServer

@[reducible] def DeskAnswer : DeskCall → Type
  | .contests => List RegisteredContest
  | .clock => Int
  | .cvmStatus => String × String
  | .topology => Topology
  | .ingress => List Rule
  | _ => Unit

structure CloudChoice where
  raises : Option Raised := none
  elapsedMs : Nat := 0
  status : String × String := ("RUNNING", "203.0.113.10")
  topology : Topology := {}
  /- Whether an authorization takes effect, under which id, and which ids a revocation drops. -/
  authorizes : Bool := true
  newRuleId : String := "sgr-new"
  drops : String → Bool := fun _ => true

namespace Desk

def canRaise : DeskCall → Bool
  | .clock => false
  | _ => true

/-- What the call does to the cloud and to the store, raising or not. -/
def effect (d : Desk) (choice : CloudChoice) : DeskCall → Desk
  | .authorize rule =>
    if choice.authorizes then
      { d with rules := d.rules ++ [{ rule with ruleId := choice.newRuleId }] }
    else d
  | .revoke ruleIds =>
    { d with rules := d.rules.filter fun rule => !(ruleIds.contains rule.ruleId &&
        choice.drops rule.ruleId) }
  | .stopServer => { d with stops := d.stops + 1 }
  | _ => d

def answer (d : Desk) (choice : CloudChoice) : (c : DeskCall) → DeskAnswer c
  | .contests => d.contests
  | .clock => d.nowMs
  | .cvmStatus => choice.status
  | .topology => choice.topology
  | .ingress => d.rules
  | .authorize _ => ()
  | .revoke _ => ()
  | .checkMaintenance _ => ()
  | .setState .. => ()
  | .stopServer => ()

def stored (d : Desk) : DeskCall → Desk
  | .setState tid state message =>
    { d with contests := d.contests.map fun contest =>
        if contest.1.tid = tid then contest.withState state message else contest }
  | _ => d

def respond (c : DeskCall) (choice : CloudChoice) (d : Desk) : Except Raised (DeskAnswer c) × Desk :=
  let later := ({ d with nowMs := d.nowMs + choice.elapsedMs }).effect choice c
  match choice.raises with
  | some raised =>
    if canRaise c then (.error raised, later) else (.ok (later.answer choice c), later.stored c)
  | none => (.ok (later.answer choice c), later.stored c)

end Desk

abbrev Cloud (α : Type) : Type := Program DeskCall DeskAnswer Raised Raised α

def readContests : Cloud (List RegisteredContest) := Program.perform DeskCall.contests
def readClock : Cloud Int := Program.perform DeskCall.clock
def cvmStatus : Cloud (String × String) := Program.perform DeskCall.cvmStatus
def readTopology : Cloud Topology := Program.perform DeskCall.topology
def readIngress : Cloud (List Rule) := Program.perform DeskCall.ingress
def authorize (rule : Rule) : Cloud Unit := Program.perform (DeskCall.authorize rule)
def revoke (ruleIds : List String) : Cloud Unit := Program.perform (DeskCall.revoke ruleIds)
def checkMaintenance (contest : RegisteredContest) : Cloud Unit :=
  Program.perform (DeskCall.checkMaintenance contest)
def setState (tid : String) (state : ContestState) (message : String) : Cloud Unit :=
  Program.perform (DeskCall.setState tid state message)
def stopServerBestEffort : Cloud Unit := Program.perform DeskCall.stopServer

def fail {α : Type} (message : String) : Cloud α := Program.raise (.runtime message)

def failIf (bad : Prop) [Decidable bad] (message : String) : Cloud Unit :=
  Program.raiseIf bad (.runtime message)

/- The client of the cloud -/

def provenServer (cfg : AccessConfig) (validateTopology : Bool) : Cloud (Option Instance) :=
  if validateTopology then do
    let topology ← readTopology
    let server ← Program.ofExcept (validatedInstance cfg topology)
    return some server
  else pure none

/-- Without a contest any managed rule is the desired one. -/
def desiredDescription (cfg : AccessConfig) (tid : String) (endAtMs : Int) :
    Except Raised String :=
  if tid = "" then .ok "" else desktopDescription cfg tid endAtMs

/-- A read of the rules, after a proof of the topology where one is wanted. -/
def desktopSnapshot (cfg : AccessConfig) (tid : String) (endAtMs : Int)
    (validateTopology : Bool) : Cloud Snapshot :=
  if cfg.enabled = false then pure disabledSnapshot
  else do
    let server ← provenServer cfg validateTopology
    let rules ← readIngress
    let description ← Program.ofExcept (desiredDescription cfg tid endAtMs)
    return snapshotOf cfg server rules description

/- After an error the ids that are gone need no second try; if none went, the error stands. -/
def revokePending (cfg : AccessConfig) : Nat → List String → Cloud Unit
  | _, [] => pure ()
  | 0, _ => pure ()
  | tries + 1, pending => Program.orElse (revoke pending) fun error => do
    let current ← desktopSnapshot cfg "" 0 false
    let remaining := pending.filter (· ∈ current.managedRuleIds)
    if remaining = [] then pure ()
    else if remaining = pending then Program.raise error
    else revokePending cfg tries remaining

def revokeBatches (cfg : AccessConfig) : List (List String) → Cloud Unit
  | [] => pure ()
  | batch :: rest => do
    revokePending cfg batch.length batch
    revokeBatches cfg rest

def revokeSnapshot (cfg : AccessConfig) (snapshot : Snapshot) : Cloud Unit := do
  if snapshot.managed = [] then pure ()
  else do
    failIf ("" ∈ snapshot.managedRuleIds) "自管桌面入站规则缺少稳定 rule ID，拒绝模糊删除"
    revokeBatches cfg (snapshot.managedRuleIds.toChunks 100)

/- Another reconciler may have removed the same ids, so an error counts only if rules remain. -/
def revokeTolerantly (cfg : AccessConfig) : Cloud Unit := do
  let snapshot ← desktopSnapshot cfg "" 0 false
  Program.orElse (revokeSnapshot cfg snapshot) fun error => do
    let raced ← desktopSnapshot cfg "" 0 false
    if raced.managedCount ≠ 0 then Program.raise error else pure ()

def confirmClosed (cfg : AccessConfig) : Nat → Cloud Snapshot
  | 0 => fail "桌面入站规则撤销后未收敛"
  | tries + 1 => do
    let current ← desktopSnapshot cfg "" 0 false
    if current.closed then do
      -- detached groups are unsafe, but never keep our own rule from being revoked first
      let verified ← desktopSnapshot cfg "" 0 true
      if verified.closed then return verified else confirmClosed cfg tries
    else do
      failIf (current.conflictCount ≠ 0) "安全组存在非编排服务管理的公网桌面入站规则"
      confirmClosed cfg tries

def revokeDesktopAccess (cfg : AccessConfig) : Cloud Snapshot := do
  if cfg.enabled = false then desktopSnapshot cfg "" 0 true
  else do
    revokeTolerantly cfg
    confirmClosed cfg 20

def confirmUnmanaged (cfg : AccessConfig) : Nat → Cloud Unit
  | 0 => fail "开放失败后的桌面入站规则回收未收敛"
  | tries + 1 => do
    let current ← desktopSnapshot cfg "" 0 false
    if current.managedCount = 0 then pure () else confirmUnmanaged cfg tries

def revokeOwnedAfterFailedOpen (cfg : AccessConfig) : Cloud Unit := do
  revokeTolerantly cfg
  confirmUnmanaged cfg 20

/-- Closes again when the deadline has passed meanwhile. -/
def beforeDeadline (cfg : AccessConfig) (endAtMs : Int) (message : String) : Cloud Unit := do
  let now ← readClock
  if endAtMs ≤ now then do
    let _ ← revokeDesktopAccess cfg
    fail message
  else pure ()

def awaitCleared (cfg : AccessConfig) : Nat → Cloud Unit
  | 0 => fail "旧桌面入站规则未收敛，拒绝开放新规则"
  | tries + 1 => do
    let cleared ← desktopSnapshot cfg "" 0 true
    if cleared.managedCount = 0 then pure () else awaitCleared cfg tries

def awaitOpen (cfg : AccessConfig) (tid : String) (endAtMs : Int) : Nat → Cloud Snapshot
  | 0 => do
    let final ← desktopSnapshot cfg tid endAtMs true
    revokeSnapshot cfg final
    fail "桌面入站规则开放后未收敛"
  | tries + 1 => do
    let current ← desktopSnapshot cfg tid endAtMs true
    if current.isOpen then do
      beforeDeadline cfg endAtMs "比赛在入站规则收敛时已截止，已撤销"
      return current
    else if current.conflictCount ≠ 0 then do
      revokeSnapshot cfg current
      fail "开放桌面入站规则时检测到未托管规则"
    else if current.managementHealthy = false then do
      revokeSnapshot cfg current
      fail "开放桌面入站规则时 OJ /32 管理规则发生漂移"
    else awaitOpen cfg tid endAtMs tries

def desktopRule (cfg : AccessConfig) (description : String) : Rule where
  ipProtocol := "TCP"
  portRange := toString cfg.port ++ "/" ++ toString cfg.port
  sourceCidrIp := cfg.sourceCidr
  policy := "accept"
  priority := some cfg.priority
  nicType := "intranet"
  description := description

def clearStale (cfg : AccessConfig) (snapshot : Snapshot) : Cloud Unit :=
  if snapshot.managed = [] then pure () else awaitCleared cfg 20

def openDesktopAccess (cfg : AccessConfig) (tid : String) (endAtMs : Int)
    (snapshot : Snapshot) : Cloud Snapshot := do
  revokeSnapshot cfg snapshot
  clearStale cfg snapshot
  beforeDeadline cfg endAtMs "比赛已截止，拒绝授权桌面入站规则"
  let description ← Program.ofExcept (desktopDescription cfg tid endAtMs)
  authorize (desktopRule cfg description)
  awaitOpen cfg tid endAtMs 20

def managementMissing (cfg : AccessConfig) : String :=
  let ports := "/".intercalate ((([22, 80, cfg.port] : List Int).dedup.mergeSort).map toString)
  let purpose := if cfg.port = 443 then "管理与验收" else "管理与回退"
  "安全组缺少 OJ /32 的 TCP " ++ ports ++ " " ++ purpose ++ "规则"

def ensureDesktopAccessLocked (cfg : AccessConfig) (tid : String) (endAtMs : Int) :
    Cloud Snapshot := do
  beforeDeadline cfg endAtMs "比赛已截止，拒绝开放桌面入站规则"
  let snapshot ← desktopSnapshot cfg tid endAtMs true
  failIf (snapshot.conflictCount ≠ 0) "安全组存在非编排服务管理的公网桌面入站规则"
  failIf (snapshot.managementHealthy = false) (managementMissing cfg)
  if snapshot.isOpen then do
    beforeDeadline cfg endAtMs "比赛在验收入站规则时已截止，已撤销"
    return snapshot
  else openDesktopAccess cfg tid endAtMs snapshot

/- An authorization may have been committed although it failed, so a failure is followed by a
   removal of every rule of ours. -/
def ensureDesktopAccess (cfg : AccessConfig) (tid : String) (endAtMs : Int) : Cloud Snapshot := do
  if cfg.enabled = false then desktopSnapshot cfg "" 0 true
  else Program.orElse (ensureDesktopAccessLocked cfg tid endAtMs) fun openError => do
    Program.orElse (revokeOwnedAfterFailedOpen cfg) fun cleanupError =>
      fail ("桌面入站规则开放失败，且自管规则未确认回收: " ++ cleanupError.text)
    Program.raise openError

/- The pipeline -/

def failClosedDesktopCleanup (cfg : AccessConfig) : Cloud Snapshot :=
  Program.orElse (revokeDesktopAccess cfg) fun _ => do
    Program.orElse stopServerBestEffort fun stopError =>
      fail ("桌面公网入口未确认撤销，且比赛服务器停机失败: " ++ stopError.text)
    fail "桌面公网入口未确认撤销；已执行比赛服务器停机兜底"

def validateReadyGateway (cfg : AccessConfig) : Cloud Unit := do
  let (state, ip) ← cvmStatus
  failIf (state.toUpper ≠ "RUNNING" ∨ ip = "") "比赛 ECS 未运行，拒绝开放桌面公网入口"
  failIf (∃ configured ∈ cfg.configuredIp, configured ≠ ip)
    ("桌面入口 IP " ++ cfg.configuredIp.getD "" ++ " 与比赛 ECS EIP " ++ ip ++ " 不一致")

def desiredDesktopAccess : Cloud (Option RegisteredContest × String) := do
  let now ← readClock
  let listed ← readContests
  match listed.filter (·.1.state == .ready) with
  | [contest] =>
    if now < contest.1.endAtMs then return (some contest, "one active ready contest")
    else return (none, "ready contest is at or past deadline")
  | [] => return (none, "no ready contest")
  | _ => return (none, "multiple ready contests")

structure AccessStatus where
  snapshot : Snapshot
  desiredOpen : Bool
  healthy : Bool
  reason : String := ""
  tid : String := ""
  endAtMs : Int := 0
  deriving DecidableEq, Repr

/-- Closing may fail, and then the contest server is stopped before the error goes on. -/
def closeOrStop (cfg : AccessConfig) : Cloud Snapshot :=
  Program.orElse (revokeDesktopAccess cfg) fun error => do
    Program.orElse stopServerBestEffort fun _ => pure ()
    Program.raise error

/-- Cleans up, and names the cleanup's failure where it fails too. -/
def cleanUpAfter {α : Type} (cfg : AccessConfig) (error : Raised) (message : String) : Cloud α := do
  let _ ← Program.orElse (failClosedDesktopCleanup cfg) fun cleanupError =>
    fail (message ++ cleanupError.text)
  Program.raise error

def openFor (cfg : AccessConfig) (contest : RegisteredContest) : Cloud Snapshot := do
  validateReadyGateway cfg
  Program.orElse (checkMaintenance contest) fun error => do
    setState contest.1.tid .error "系统维护保护失效；桌面入口收回，需人工处理"
    Program.raise error
  ensureDesktopAccess cfg contest.1.tid contest.1.endAtMs

/- `closing` is the flag of a service that shuts down. -/
def reconcileDesktopAccess (cfg : AccessConfig) (closing : Bool) : Cloud AccessStatus := do
  if cfg.enabled = false then
    return { snapshot := disabledSnapshot, desiredOpen := false, healthy := true }
  else if closing then do
    let status ← closeOrStop cfg
    return { snapshot := status, desiredOpen := false, healthy := status.closed,
             reason := "orchestrator service is closing" }
  else do
    let (desired, reason) ← Program.orElse desiredDesktopAccess fun stateError =>
      cleanUpAfter cfg stateError "无法读取桌面入口期望状态，且失败关闭未完全收敛: "
    match desired with
    | none => do
      let status ← closeOrStop cfg
      return { snapshot := status, desiredOpen := false,
               healthy := status.closed && status.conflictCount == 0 &&
                 status.managementHealthy && reason == "no ready contest",
               reason := reason }
    | some contest => do
      let status ← Program.orElse (openFor cfg contest) fun openError =>
        cleanUpAfter cfg openError "桌面入口开放对账失败，且失败关闭未完全收敛: "
      return { snapshot := status, desiredOpen := true, healthy := status.healthy,
               reason := reason, tid := contest.1.tid, endAtMs := contest.1.endAtMs }

end NoiContest.Desktop
