import NoiContest.Lib.Outcome
import NoiContest.Lib.PyText
import NoiContest.Pipeline.Calls

/- Ingress rules of the contest security group, and what one read of them says about the public
   desktop entrance. -/
namespace NoiContest.Desktop
open Pipeline

/- An attribute that is not a string reads as the empty string. The priority is None where
   int() rejects it. -/
structure Rule where
  ruleId : String := ""
  description : String := ""
  policy : String := ""
  ipProtocol : String := ""
  portRange : String := ""
  sourceCidrIp : String := ""
  nicType : String := ""
  priority : Option Int := none
  ipv6SourceCidrIp : String := ""
  sourceGroupId : String := ""
  sourceGroupOwnerAccount : String := ""
  sourcePrefixListId : String := ""
  portRangeListId : String := ""
  sourcePortRange : String := ""
  destCidrIp : String := ""
  ipv6DestCidrIp : String := ""
  destGroupId : String := ""
  destPrefixListId : String := ""
  deriving DecidableEq, Repr

/- The desktop_access section with its defaults, the id of the contest server, and the address
   in gateway_public_base_url where its host is one. -/
structure AccessConfig where
  enabled : Bool
  instanceId : String
  securityGroupId : String
  port : Int := 80
  sourceCidr : String
  priority : Int := 20
  managementSources : List String := []
  descriptionPrefix : String := "NOI-DESKTOP-DIRECT-MANAGED"
  configuredIp : Option String := none
  deriving DecidableEq, Repr

structure Instance where
  instanceId : String
  status : String := ""
  securityGroups : List String := []
  eip : String := ""
  deriving DecidableEq, Repr

structure SecurityGroup where
  securityGroupId : String
  groupType : String := ""
  serviceManaged : Bool := false
  deriving DecidableEq, Repr

/- What the cloud lists around the security group; only the number of network interfaces
   matters. -/
structure Topology where
  groups : List SecurityGroup := []
  instances : List Instance := []
  groupInterfaces : Nat := 0
  secondaryInterfaces : Nat := 0
  deriving DecidableEq, Repr

def runtimeError {α : Type} (message : String) : Except Raised α := .error (.runtime message)

/-- Match one plain four-tuple rule, never an address or port list rule. -/
def exactIpv4TcpAccept (rule : Rule) (source : String) (port : Int) : Bool :=
  (rule.policy.toLower == "" || rule.policy.toLower == "accept") &&
    rule.ipProtocol.toLower == "tcp" &&
    rule.portRange == toString port ++ "/" ++ toString port &&
    rule.sourceCidrIp == source &&
    rule.nicType.toLower == "intranet" &&
    rule.ipv6SourceCidrIp == "" && rule.sourceGroupId == "" &&
    rule.sourceGroupOwnerAccount == "" && rule.sourcePrefixListId == "" &&
    rule.portRangeListId == "" && rule.sourcePortRange == "" && rule.destCidrIp == "" &&
    rule.ipv6DestCidrIp == "" && rule.destGroupId == "" && rule.destPrefixListId == ""

def desktopDescription (cfg : AccessConfig) (tid : String) (endAtMs : Int) :
    Except Raised String := do
  Outcome.raiseIf (PyText.isHexOf 24 tid = false) (.valueError "桌面入站规则的比赛 tid 无效")
  Outcome.raiseIf (endAtMs ≤ 0) (.valueError "桌面入站规则缺少截止时间")
  return cfg.descriptionPrefix ++ " instance=" ++ cfg.instanceId ++ " tid=" ++ tid ++ " end=" ++
    toString endAtMs

def managedMarker (cfg : AccessConfig) : String :=
  cfg.descriptionPrefix ++ " instance=" ++ cfg.instanceId ++ " "

def isManaged (cfg : AccessConfig) (rule : Rule) : Bool :=
  (managedMarker cfg).toList.isPrefixOf rule.description.toList

def managedRules (cfg : AccessConfig) (rules : List Rule) : List Rule :=
  rules.filter (isManaged cfg)

def isDesired (cfg : AccessConfig) (description : String) (rule : Rule) : Bool :=
  isManaged cfg rule && exactIpv4TcpAccept rule cfg.sourceCidr cfg.port &&
    rule.priority == some cfg.priority &&
    (description == "" || rule.description == description)

def managementPairs (cfg : AccessConfig) : List (String × Int) :=
  cfg.managementSources.dedup.flatMap fun source =>
    ([22, 80, cfg.port] : List Int).dedup.map fun port => (source, port)

/- A foreign rule is either the first of its management pair or a conflict. -/
def classifyForeign (cfg : AccessConfig) (seen : List (String × Int) × List Rule) (rule : Rule) :
    List (String × Int) × List Rule :=
  if isManaged cfg rule then seen
  else
    match (managementPairs cfg).find? fun pair => exactIpv4TcpAccept rule pair.1 pair.2 with
    | some pair => if pair ∈ seen.1 then (seen.1, seen.2 ++ [rule]) else (seen.1 ++ [pair], seen.2)
    | none => (seen.1, seen.2 ++ [rule])

structure Snapshot where
  enabled : Bool
  isOpen : Bool
  closed : Bool
  healthy : Bool
  managedCount : Nat := 0
  conflictCount : Nat := 0
  managementHealthy : Bool := false
  managementMissingCount : Nat := 0
  managedRuleIds : List String := []
  securityGroupId : String := ""
  eip : String := ""
  instanceState : String := ""
  managed : List Rule := []
  deriving DecidableEq, Repr

def disabledSnapshot : Snapshot :=
  { enabled := false, isOpen := false, closed := true, healthy := true }

/-- Proves that the group is a normal one and serves the contest server only. -/
def validatedInstance (cfg : AccessConfig) (topology : Topology) : Except Raised Instance :=
  match topology.groups.filter (·.securityGroupId == cfg.securityGroupId) with
  | [group] =>
    if group.groupType.toLower ≠ "normal" then runtimeError "桌面直连只允许专用普通 basic 安全组"
    else if group.serviceManaged then runtimeError "桌面直连不允许服务托管安全组"
    else match topology.instances with
    | [server] =>
      if server.instanceId ≠ cfg.instanceId then
        runtimeError "比赛安全组绑定了非目标 ECS，拒绝开放桌面端口"
      else if cfg.securityGroupId ∉ server.securityGroups then
        runtimeError "配置的桌面安全组未绑定到比赛 ECS，拒绝修改入站规则"
      else if server.securityGroups.length ≠ 1 then
        runtimeError "比赛 ECS 还绑定其他安全组，无法证明桌面端口已失败关闭"
      else if topology.groupInterfaces ≠ 0 then
        runtimeError "比赛安全组还绑定辅助 ENI，无法证明主网卡专属"
      else if topology.secondaryInterfaces ≠ 0 then
        runtimeError "比赛 ECS 还绑定辅助 ENI，其他安全组可能绕过桌面关闭策略"
      else if server.eip = "" then runtimeError "比赛 ECS 未绑定固定 EIP，拒绝开放桌面"
      else .ok server
    | _ => runtimeError "比赛安全组不是目标 ECS 专属，拒绝开放桌面端口"
  | _ => runtimeError "配置的桌面安全组不存在或查询结果不唯一"

def knownState (server : Option Instance) : String :=
  let state := (server.map (·.status.toUpper)).getD "UNKNOWN"
  if state ∈ ["PENDING", "RUNNING", "STARTING", "STOPPING", "STOPPED"] then state else "UNKNOWN"

/- The snapshot of rules that were read, for the description of a wanted rule or none. -/
def snapshotOf (cfg : AccessConfig) (server : Option Instance) (rules : List Rule)
    (description : String) : Snapshot :=
  let managed := managedRules cfg rules
  let desired := rules.filter (isDesired cfg description)
  let foreign := rules.foldl (classifyForeign cfg) ([], [])
  let missing := (managementPairs cfg).filter (· ∉ foreign.1)
  let managementHealthy := missing.isEmpty
  let desiredOpen := managed.length == 1 && desired.length == 1 && foreign.2.isEmpty &&
    managementHealthy
  let closed := managed.isEmpty && foreign.2.isEmpty
  { enabled := true
    isOpen := desiredOpen
    closed := closed
    healthy := if description = "" then closed && managementHealthy else desiredOpen
    managedCount := managed.length
    conflictCount := foreign.2.length
    managementHealthy := managementHealthy
    managementMissingCount := missing.length
    managedRuleIds := managed.map (·.ruleId)
    securityGroupId := cfg.securityGroupId
    eip := (server.map (·.eip)).getD ""
    instanceState := knownState server
    managed := managed }

theorem closed_unmanaged {cfg : AccessConfig} {server : Option Instance} {rules : List Rule}
    {description : String} (closed : (snapshotOf cfg server rules description).closed = true) :
    managedRules cfg rules = [] := by
  simp only [snapshotOf, Bool.and_eq_true, List.isEmpty_iff] at closed
  exact closed.1

theorem uncounted_unmanaged {cfg : AccessConfig} {server : Option Instance} {rules : List Rule}
    {description : String}
    (uncounted : (snapshotOf cfg server rules description).managedCount = 0) :
    managedRules cfg rules = [] := List.length_eq_zero_iff.mp uncounted

/- An open snapshot has one managed rule, and that is the desired one. -/
theorem open_exact {cfg : AccessConfig} {server : Option Instance} {rules : List Rule}
    {description : String} (isOpen : (snapshotOf cfg server rules description).isOpen = true) :
    ∃ rule, managedRules cfg rules = [rule] ∧ isDesired cfg description rule = true := by
  simp only [snapshotOf, Bool.and_eq_true, beq_iff_eq] at isOpen
  obtain ⟨⟨⟨single, one⟩, _⟩, _⟩ := isOpen
  obtain ⟨rule, managed⟩ := List.length_eq_one_iff.mp single
  obtain ⟨wanted, desired⟩ := List.length_eq_one_iff.mp one
  have mem : wanted ∈ rules.filter (isDesired cfg description) := by simp [desired]
  obtain ⟨inside, holds⟩ := List.mem_filter.mp mem
  have marked : isManaged cfg wanted = true := by
    simp only [isDesired, Bool.and_eq_true] at holds
    exact holds.1.1.1
  have same : wanted = rule := by
    have kept : wanted ∈ managedRules cfg rules := List.mem_filter.mpr ⟨inside, marked⟩
    rw [managed] at kept
    exact List.mem_singleton.mp kept
  exact ⟨rule, managed, same ▸ holds⟩

theorem desktopDescription_ne_empty {cfg : AccessConfig} {tid : String} {endAtMs : Int}
    {description : String} (described : desktopDescription cfg tid endAtMs = .ok description) :
    description ≠ "" := by
  simp only [desktopDescription] at described
  obtain ⟨_, _, described⟩ := Outcome.bind_ok.mp described
  obtain ⟨_, _, described⟩ := Outcome.bind_ok.mp described
  rw [← Outcome.pure_eq_ok.mp described]
  intro empty
  have nothing := congrArg String.toList empty
  simp at nothing

/- The rule of a contest has its exact description. -/
theorem isDesired_exact {cfg : AccessConfig} {tid : String} {endAtMs : Int} {rule : Rule}
    {description : String} (described : desktopDescription cfg tid endAtMs = .ok description)
    (desired : isDesired cfg description rule = true) :
    exactIpv4TcpAccept rule cfg.sourceCidr cfg.port = true ∧
      rule.priority = some cfg.priority ∧
      desktopDescription cfg tid endAtMs = .ok rule.description := by
  have filled := desktopDescription_ne_empty described
  simp only [isDesired, Bool.and_eq_true, Bool.or_eq_true, beq_iff_eq] at desired
  obtain ⟨⟨⟨_, exact⟩, priority⟩, same⟩ := desired
  rcases same with empty | same
  · exact absurd empty filled
  · exact ⟨exact, priority, same ▸ described⟩

end NoiContest.Desktop
