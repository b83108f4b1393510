import NoiContest.Lib.Watch
import NoiContest.Pipeline.AnswerIsolation

/- The gateway of a contest next to its stored rows. A switch installs the whole configuration
   or leaves the old one, and a backup is named by the revision it was saved for. -/
namespace NoiContest.Pipeline
open SeatPool SeatPoolState Flow

structure Gateway where
  /-- The configuration that is served. -/
  live : List PoolResource
  pending : Int → Option (List PoolResource) := fun _ => none
  backups : Int → Option (List PoolResource) := fun _ => none

/- The commits that publish a pool. -/
inductive Publication where
  | expansion
  | replacement
  | repair
  deriving DecidableEq, Repr

structure GatewayHost where
  world : World
  gateway : Gateway
  /-- The commit that went through last. -/
  published : Option Publication := none

structure GatewayChoice extends Choice where
  /-- Whether a command that raises has had its effect on a file of the gateway. -/
  tookEffect : Bool := false

namespace Gateway

def save (files : Int → Option (List PoolResource)) (revision : Int)
    (conf : Option (List PoolResource)) : Int → Option (List PoolResource) :=
  fun other => if other = revision then conf else files other

/- A command that needs a file which is not there fails. -/
def perform (gateway : Gateway) : HostCommand → Option Gateway
  | .putGatewayConf revision conf =>
    some { gateway with pending := save gateway.pending revision (some conf) }
  | .switchGateway revision => (gateway.pending revision).map fun conf =>
    { live := conf
      pending := save gateway.pending revision none
      backups := save gateway.backups revision (some gateway.live) }
  | .restoreGateway revision => (gateway.backups revision).map fun conf =>
    { gateway with live := conf }
  | .removeBackup revision => some { gateway with backups := save gateway.backups revision none }
  | _ => some gateway

/- What a command leaves that raised; a switch has at most saved its backup. -/
def broken (gateway : Gateway) (tookEffect : Bool) (command : HostCommand) : Gateway :=
  match command with
  | .switchGateway revision =>
    if tookEffect then { gateway with backups := save gateway.backups revision (some gateway.live) }
    else gateway
  | command => if tookEffect then (gateway.perform command).getD gateway else gateway

end Gateway

def Publication.of : Call → Option Publication
  | .commitPoolExpansion .. => some .expansion
  | .commitPoolReplacement .. => some .replacement
  | .commitPoolRepair .. => some .repair
  | _ => none

namespace GatewayHost

/- The host has answered a command, which may need a file of the gateway. -/
def onCommand (host : GatewayHost) (tookEffect : Bool) (command : HostCommand)
    (answered : Except Raised String × World) : Except Raised String × GatewayHost :=
  match answered with
  | (.ok output, w) =>
    match host.gateway.perform command with
    | some gateway => (.ok output, { host with world := w, gateway := gateway })
    | none => (.error (.external "exit status 1"), { host with world := w })
  | (.error e, w) =>
    (.error e, { host with world := w, gateway := host.gateway.broken tookEffect command })

def respond : (c : Call) → GatewayChoice → GatewayHost → Except Raised (Answer c) × GatewayHost
  | .run command, choice, host =>
    host.onCommand choice.tookEffect command
      (World.respond (.run command) choice.toChoice host.world)
  | c, choice, host =>
    let answered := World.respond c choice.toChoice host.world
    (answered.1, { host with
      world := answered.2
      published := if answered.1.isOk then (Publication.of c).or host.published
        else host.published })

end GatewayHost

/-- The token of a row and the address it leads to. -/
def location (resource : PoolResource) : String × String :=
  (resource.token, resource.cip)

/-- The gateway serves exactly the pairs of the stored rows. -/
def GatewayHost.Agrees (host : GatewayHost) : Prop :=
  (host.gateway.live.map location).Perm (host.world.tables.resources.map location)

instance (host : GatewayHost) : Decidable host.Agrees := by
  unfold GatewayHost.Agrees
  infer_instance

/- The operations on the pool of a running contest. -/
inductive SeatOperation where
  | growPool (tid : String) (additionalMain additionalSpares expectedRevision : Int)
  | replaceFailedSeat (tid : String) (slotNo : Nat) (reason : String) (expectedRevision : Int)
      (teacherApproved : Bool)
  | repairPoolCapacity (tid : String) (slotNo : Nat) (expectedRevision : Int)

def SeatOperation.procedure (cfg : Config) : SeatOperation → Procedure Unit
  | .growPool tid additionalMain additionalSpares expectedRevision => do
    let _ ← Pipeline.growPool cfg tid additionalMain additionalSpares expectedRevision
  | .replaceFailedSeat tid slotNo reason expectedRevision teacherApproved => do
    let _ ← Pipeline.replaceFailedSeat cfg tid slotNo reason expectedRevision teacherApproved
  | .repairPoolCapacity tid slotNo expectedRevision => do
    let _ ← Pipeline.repairPoolCapacity cfg tid slotNo expectedRevision

end NoiContest.Pipeline
