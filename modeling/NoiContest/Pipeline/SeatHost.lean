import NoiContest.Lib.Crash
import NoiContest.Pipeline.Gateway

/- The contest host with the bytes of the answers: the tree of every slot, the status of every
   container, and what each student wrote last and has not removed. A student edits the tree of
   the current slot, and only while a container of that slot is running. -/
namespace NoiContest.Pipeline
open SeatPool SeatPoolState Flow

inductive ContainerStatus where
  | running
  | paused
  | exited
  | dead
  deriving DecidableEq, Repr

def ContainerStatus.text : ContainerStatus → String
  | .running => "running"
  | .paused => "paused"
  | .exited => "exited"
  | .dead => "dead"

/-- The bytes of the files by their paths. -/
abbrev Tree : Type := String → Option (List UInt8)

structure SeatHost where
  world : World
  trees : Nat → Tree
  /-- A removed container has no status. -/
  containers : String → Option ContainerStatus
  kept : Int → Tree

/- A file is written, or removed when there are no bytes. -/
structure Write where
  uid : Int
  path : String
  bytes : Option (List UInt8)

structure SeatChoice extends Choice where
  /-- Whether a container command that raises has had its effect. -/
  tookEffect : Bool := false
  /-- Whether `docker rm -f … || true` leaves the container behind. -/
  containerStays : Bool := false
  /-- The tree that a broken copy or removal leaves behind. -/
  left : Tree := fun _ => none
  writes : List Write := []

namespace SeatHost

def setTree (host : SeatHost) (slotNo : Nat) (tree : Tree) : SeatHost :=
  { host with trees := fun slot => if slot = slotNo then tree else host.trees slot }

def setContainer (host : SeatHost) (name : String) (status : Option ContainerStatus) : SeatHost :=
  { host with containers := fun other => if other = name then status else host.containers other }

/-- `cp -a source/. target/` -/
def overlay (source target : Tree) : Tree := fun path => (source path).or (target path)

def noFiles : Tree := fun _ => none

/- What a command prints and leaves; a container in the wrong status makes it fail. -/
def perform (host : SeatHost) (choice : SeatChoice) (output : String) :
    HostCommand → Option (String × SeatHost)
  | .runContainer spec =>
    if (host.containers spec.container).isSome then none
    else some (output, host.setContainer spec.container (some .running))
  | .containerStatus name => (host.containers name).map fun status => (status.text, host)
  | .pauseContainer name =>
    if host.containers name = some .running ∨ host.containers name = some .paused then
      some (output, host.setContainer name (some .paused))
    else none
  | .unpauseContainer name =>
    if host.containers name = some .running ∨ host.containers name = some .paused then
      some (output, host.setContainer name (some .running))
    else none
  | .removeContainer name => some (output, host.setContainer name none)
  | .copyAnswers source target =>
    some (output, host.setTree target (overlay (host.trees source) (host.trees target)))
  | .removeSlot spec =>
    some (output, (if choice.containerStays then host
      else host.setContainer spec.container none).setTree spec.slotNo noFiles)
  | .removeHome slotNo => some (output, host.setTree slotNo noFiles)
  | _ => some (output, host)

/- What a command leaves that raised. -/
def broken (host : SeatHost) (choice : SeatChoice) : HostCommand → SeatHost
  | .copyAnswers _ target => host.setTree target choice.left
  | .removeSlot spec =>
    (if choice.tookEffect then host.setContainer spec.container none else host).setTree
      spec.slotNo choice.left
  | .removeHome slotNo => host.setTree slotNo choice.left
  | command =>
    if choice.tookEffect then ((host.perform choice "" command).map Prod.snd).getD host else host

def onCommand (host : SeatHost) (choice : SeatChoice) (command : HostCommand)
    (answered : Except Raised String × World) : Except Raised String × SeatHost :=
  match answered with
  | (.ok output, w) =>
    match host.perform choice output command with
    | some (printed, after) => (.ok printed, { after with world := w })
    | none => (.error (.external "exit status 1"), { host with world := w })
  | (.error e, w) => (.error e, { host.broken choice command with world := w })

def answer : (c : Call) → SeatChoice → SeatHost → Except Raised (Answer c) × SeatHost
  | .run command, choice, host =>
    host.onCommand choice command (World.respond (.run command) choice.toChoice host.world)
  | c, choice, host =>
    let answered := World.respond c choice.toChoice host.world
    (answered.1, { host with world := answered.2 })

/-- Whether a container of the slot is running. -/
def Writable (host : SeatHost) (slotNo : Nat) : Prop :=
  ∃ row ∈ host.world.tables.resources, row.slotNo = slotNo ∧
    host.containers row.container = some .running

instance (host : SeatHost) (slotNo : Nat) : Decidable (host.Writable slotNo) := by
  unfold Writable
  infer_instance

def write (host : SeatHost) (edit : Write) : SeatHost :=
  match host.world.tables.pool.bind (·.assignment edit.uid) with
  | none => host
  | some seat =>
    if host.Writable seat.slotNo then
      { host with
        trees := fun slot path => if slot = seat.slotNo ∧ path = edit.path then edit.bytes
          else host.trees slot path
        kept := fun uid path => if uid = edit.uid ∧ path = edit.path then edit.bytes
          else host.kept uid path }
    else host

def respond (c : Call) (choice : SeatChoice) (host : SeatHost) :
    Except Raised (Answer c) × SeatHost :=
  ((answer c choice host).1, choice.writes.foldl write (answer c choice host).2)

/-- The tree of the slot has every file that the student wrote and has not removed. -/
def Holds (host : SeatHost) (slotNo : Nat) (uid : Int) : Prop :=
  ∀ path bytes, host.kept uid path = some bytes → host.trees slotNo path = some bytes

/-- The student has a seat, and its slot is this one. -/
def SeatedAt (host : SeatHost) (slotNo : Nat) (uid : Int) : Prop :=
  ∃ pool, host.world.tables.pool = some pool ∧ ∃ seat ∈ pool.seats, seat.slotNo = slotNo ∧
    seat.uid = some uid

/-- The current slot of every assigned student holds the student's files. -/
def AnswersKept (host : SeatHost) : Prop :=
  ∀ slotNo uid, host.SeatedAt slotNo uid → host.Holds slotNo uid

end SeatHost

/-- The slot whose home directory a call removes. -/
def removedHome : Call → Option Nat
  | .run (.removeHome slotNo) => some slotNo
  | .run (.removeSlot spec) => some spec.slotNo
  | _ => none

/-- After the call all answers are there and nobody lost the seat; a home that it removes is that
    of a slot without a student. -/
def LosesNothing (c : Call) (choice : SeatChoice) (host : SeatHost) : Prop :=
  (SeatHost.respond c choice host).2.AnswersKept ∧
  (∀ slotNo uid, host.SeatedAt slotNo uid →
    ∃ slotNo', (SeatHost.respond c choice host).2.SeatedAt slotNo' uid) ∧
  ∀ slotNo ∈ removedHome c, ∀ uid, ¬ host.SeatedAt slotNo uid

end NoiContest.Pipeline
