import NoiContest.Lib.Flow
import NoiContest.Store.PoolTables

/- The calls of the pool procedures and the world they act on: the rows of one contest, the
   set of busy contests and the answer trees of the slots. The choice of a call is what the
   outside decides: whether it raises, what it prints, what the clock shows, what a broken
   command left behind, and which files students edit before the next call. -/
namespace NoiContest.Pipeline
open SeatPool

inductive Raised where
  | runtime (message : String)
  | valueError (message : String)
  | teacherApproval (message : String)
  | pool (error : PoolError)
  | store (error : StoreError)
  | external (message : String)
  deriving DecidableEq, Repr

def Raised.text : Raised → String
  | .runtime message | .valueError message | .teacherApproval message | .external message =>
    message
  | .pool error => match error with
    | .configuration m | .revisionConflict m | .commandConflict m | .seatState m
    | .capacityExceeded m | .noVerifiedSeat m | .tooEarlyToRelease m | .noSpareSeat m
    | .keyError m => m
  | .store error => match error with
    | .valueError m | .keyError m | .submissionConflict m | .submissionClosed m
    | .submissionLeaseLost m | .integrityError m => m

structure AnswerFile where
  path : String
  author : Int
  deriving DecidableEq, Repr

structure Edit where
  uid : Int
  path : String
  deletes : Bool := false
  deriving DecidableEq, Repr

structure World where
  tables : ContestTables
  busy : Bool := false
  answers : Nat → List AnswerFile := fun _ => []

structure Participant where
  uid : Int
  uname : String
  deriving DecidableEq, Repr

/- The fields of the Hydro document that are compared with a registration. -/
structure HydroContest where
  beginAtMs : Int
  endAtMs : Int
  rule : String
  deriving DecidableEq, Repr

structure ResourceSpec where
  slotNo : Nat
  token : String
  vncPass : String
  submitToken : String
  candidate : String
  container : String
  deriving DecidableEq, Repr

/- Commands on the contest host. Those on a slot name it, for its home directory. -/
inductive HostCommand where
  | inspectDesktopImage (imageRef : String)
  | networkGateway
  | paperDigest
  | makeAnswerDirectories (slotNo : Nat)
  | runContainer (spec : ResourceSpec)
  | containerImage (container : String)
  | containerAddress (container : String)
  | seatReadiness (container cip : String)
  | putGatewayConf (revision : Int) (resources : List PoolResource)
  | switchGateway (revision : Int)
  | restoreGateway (revision : Int)
  | removeBackup (revision : Int)
  | removeSlot (spec : ResourceSpec)
  | removeHome (slotNo : Nat)
  | containerStatus (container : String)
  | pauseContainer (container : String)
  | unpauseContainer (container : String)
  | removeContainer (container : String)
  | copyAnswers (source target : Nat)
  | installFreezeWatchdog (candidate : Contest)
  deriving DecidableEq, Repr

inductive Call where
  | enter (tid : String)
  | leave
  | acquireDeploymentLock
  | releaseDeploymentLock
  | clock
  | getContest
  | seatPool
  | seatPoolResources
  | putSeatPool (expectedRevision : Option Int) (state : SeatPoolState)
  | commitScheduleSync (expectedBeginAtMs expectedEndAtMs beginAtMs endAtMs : Int)
      (hydroRule : String) (observedAtMs expectedPoolRevision : Int) (poolState : SeatPoolState)
  | bindPoolSeat (uid : Int) (uname : String) (slotNo : Nat)
  | commitPoolExpansion (tid : String) (expectedRevision : Int) (state : SeatPoolState)
      (added : List PoolResource)
  | commitPoolReplacement (tid : String) (expectedRevision : Int) (state : SeatPoolState)
      (failedSlot : Nat)
  | commitPoolRepair (tid : String) (expectedRevision : Int) (state : SeatPoolState)
      (resource : PoolResource) (repairedSlot : Nat)
  | setState (state : ContestState) (message : String)
  | hydroContest
  | hydroRoster
  | cvmStatus
  | waitSsh
  | newCredentials (slotNo : Nat)
  | run (command : HostCommand)

@[reducible] def Answer : Call → Type
  | .clock => Int
  | .getContest => Option Contest
  | .seatPool => Option SeatPoolState
  | .seatPoolResources => List PoolResource
  | .commitScheduleSync .. => Contest
  | .commitPoolReplacement .. => Option PoolResource
  | .hydroContest => Option HydroContest
  | .hydroRoster => List Participant
  | .cvmStatus => String × String
  | .waitSsh => Bool
  | .newCredentials _ => String × String × String
  | .run _ => String
  | _ => Unit

structure Choice where
  raises : Option Raised := none
  clock : Int := 0
  output : String := ""
  status : String × String := ("RUNNING", "10.0.0.2")
  reachable : Bool := true
  document : Option HydroContest := none
  roster : List Participant := []
  credentials : String × String × String := ("", "", "")
  /- The files that a broken copy or removal has already dealt with. -/
  reached : AnswerFile → Bool := fun _ => false
  edits : List Edit := []

namespace World

def setAnswers (w : World) (slotNo : Nat) (files : List AnswerFile) : World :=
  { w with answers := fun slot => if slot = slotNo then files else w.answers slot }

/-- `cp -a source/. target/`, a file of the same path is replaced. -/
def merge (copied target : List AnswerFile) : List AnswerFile :=
  copied ++ target.filter fun file => file.path ∉ copied.map (·.path)

def copy (w : World) (source target : Nat) (reached : AnswerFile → Bool) : World :=
  w.setAnswers target (merge ((w.answers source).filter reached) (w.answers target))

def remove (w : World) (slotNo : Nat) (reached : AnswerFile → Bool) : World :=
  w.setAnswers slotNo ((w.answers slotNo).filter fun file => !reached file)

/- The effect of a command on the answer trees; a broken one reaches some of the files. -/
def onAnswers (w : World) (command : HostCommand) (reached : AnswerFile → Bool) : World :=
  match command with
  | .copyAnswers source target => w.copy source target reached
  | .removeSlot spec => w.remove spec.slotNo reached
  | .removeHome slotNo => w.remove slotNo reached
  | _ => w

def edited (w : World) (edit : Edit) : World :=
  match w.tables.pool.bind (·.assignment edit.uid) with
  | none => w
  | some seat =>
    let others := (w.answers seat.slotNo).filter (·.path != edit.path)
    w.setAnswers seat.slotNo
      (if edit.deletes then others else others ++ [⟨edit.path, edit.uid⟩])

def written (w : World) (result : Except StoreError ContestTables) : Except Raised Unit × World :=
  match result with
  | .ok tables => (.ok (), { w with tables := tables })
  | .error error => (.error (.store error), w)

def committed {α : Type} (w : World) (result : Except StoreError (α × ContestTables)) :
    Except Raised α × World :=
  match result with
  | .ok (a, tables) => (.ok a, { w with tables := tables })
  | .error error => (.error (.store error), w)

def enter (w : World) (tid : String) : Except Raised Unit × World :=
  if ¬ PyText.isHexOf 24 tid then (.error (.valueError "比赛 tid 必须是 24 位 ObjectId"), w)
  else if w.busy then (.error (.runtime ("比赛 " ++ tid ++ " 已有流程在运行")), w)
  else (.ok (), { w with busy := true })

/- Releasing a lock and reading the clock or the random source cannot raise. -/
def canRaise : Call → Bool
  | .leave | .releaseDeploymentLock | .clock | .newCredentials _ => false
  | _ => true

def perform (w : World) (choice : Choice) : (c : Call) → Except Raised (Answer c) × World
  | .enter tid => w.enter tid
  | .leave => (.ok (), { w with busy := false })
  | .acquireDeploymentLock => (.ok (), w)
  | .releaseDeploymentLock => (.ok (), w)
  | .clock => (.ok choice.clock, w)
  | .getContest => (.ok w.tables.contest, w)
  | .seatPool => (.ok w.tables.pool, w)
  | .seatPoolResources =>
    (.ok (w.tables.resources.insertionSort (fun a b => a.slotNo ≤ b.slotNo)), w)
  | .putSeatPool expectedRevision state => w.written (w.tables.putSeatPool expectedRevision state)
  | .commitScheduleSync expectedBeginAtMs expectedEndAtMs beginAtMs endAtMs hydroRule
      observedAtMs expectedPoolRevision poolState =>
    w.committed (w.tables.commitScheduleSync expectedBeginAtMs expectedEndAtMs beginAtMs endAtMs
      hydroRule observedAtMs expectedPoolRevision poolState)
  | .bindPoolSeat uid uname slotNo => w.written (w.tables.bindPoolSeat uid uname slotNo)
  | .commitPoolExpansion tid expectedRevision state added =>
    w.written (w.tables.commitPoolExpansion tid expectedRevision state added)
  | .commitPoolReplacement tid expectedRevision state failedSlot =>
    w.committed (w.tables.commitPoolReplacement tid expectedRevision state failedSlot)
  | .commitPoolRepair tid expectedRevision state resource repairedSlot =>
    w.written (w.tables.commitPoolRepair tid expectedRevision state resource repairedSlot)
  | .setState state message => (.ok (), { w with tables := w.tables.setState state message })
  | .hydroContest => (.ok choice.document, w)
  | .hydroRoster => (.ok choice.roster, w)
  | .cvmStatus => (.ok choice.status, w)
  | .waitSsh => (.ok choice.reachable, w)
  | .newCredentials _ => (.ok choice.credentials, w)
  | .run command => (.ok choice.output, w.onAnswers command fun _ => true)

def broken (w : World) (choice : Choice) : Call → World
  | .run command => w.onAnswers command choice.reached
  | _ => w

def answer (w : World) (choice : Choice) (c : Call) : Except Raised (Answer c) × World :=
  match choice.raises with
  | some raised => if canRaise c then (.error raised, w.broken choice c) else w.perform choice c
  | none => w.perform choice c

def respond (c : Call) (choice : Choice) (w : World) : Except Raised (Answer c) × World :=
  ((w.answer choice c).1, choice.edits.foldl edited (w.answer choice c).2)

theorem edited_tables (w : World) (edit : Edit) : (w.edited edit).tables = w.tables := by
  unfold edited
  split <;> rfl

theorem edits_tables (w : World) (edits : List Edit) :
    (edits.foldl edited w).tables = w.tables := by
  induction edits generalizing w with
  | nil => rfl
  | cons edit rest ih => rw [List.foldl_cons, ih, edited_tables]

theorem onAnswers_tables (w : World) (command : HostCommand) (reached : AnswerFile → Bool) :
    (w.onAnswers command reached).tables = w.tables := by
  unfold onAnswers
  split <;> rfl

theorem broken_tables (w : World) (choice : Choice) (c : Call) :
    (w.broken choice c).tables = w.tables := by
  unfold broken
  split
  · exact onAnswers_tables _ _ _
  · rfl

end World

abbrev Procedure (α : Type) : Type := Flow.Program Call Answer Raised Raised α

def call (c : Call) : Procedure (Answer c) := Flow.Program.perform c

def raise {α : Type} (error : Raised) : Procedure α := Flow.Program.raise error

def raiseIf (bad : Prop) [Decidable bad] (message : String) : Procedure Unit :=
  Flow.Program.raiseIf bad (.runtime message)

def checked {α : Type} (result : Except Raised α) : Procedure α := .ofExcept result

/- The calls under their names, each with the type of its answer. -/
def enter (tid : String) : Procedure Unit := call (.enter tid)
def leave : Procedure Unit := call .leave
def acquireDeploymentLock : Procedure Unit := call .acquireDeploymentLock
def releaseDeploymentLock : Procedure Unit := call .releaseDeploymentLock
def clock : Procedure Int := call .clock
def getContest : Procedure (Option Contest) := call .getContest
def seatPool : Procedure (Option SeatPoolState) := call .seatPool
def seatPoolResources : Procedure (List PoolResource) := call .seatPoolResources
def putSeatPool (expectedRevision : Option Int) (state : SeatPoolState) : Procedure Unit :=
  call (.putSeatPool expectedRevision state)
def commitScheduleSync (expectedBeginAtMs expectedEndAtMs beginAtMs endAtMs : Int)
    (hydroRule : String) (observedAtMs expectedPoolRevision : Int) (poolState : SeatPoolState) :
    Procedure Contest :=
  call (.commitScheduleSync expectedBeginAtMs expectedEndAtMs beginAtMs endAtMs hydroRule
    observedAtMs expectedPoolRevision poolState)
def bindPoolSeat (uid : Int) (uname : String) (slotNo : Nat) : Procedure Unit :=
  call (.bindPoolSeat uid uname slotNo)
def commitPoolExpansion (tid : String) (expectedRevision : Int) (state : SeatPoolState)
    (added : List PoolResource) : Procedure Unit :=
  call (.commitPoolExpansion tid expectedRevision state added)
def commitPoolReplacement (tid : String) (expectedRevision : Int) (state : SeatPoolState)
    (failedSlot : Nat) : Procedure (Option PoolResource) :=
  call (.commitPoolReplacement tid expectedRevision state failedSlot)
def commitPoolRepair (tid : String) (expectedRevision : Int) (state : SeatPoolState)
    (resource : PoolResource) (repairedSlot : Nat) : Procedure Unit :=
  call (.commitPoolRepair tid expectedRevision state resource repairedSlot)
def setState (state : ContestState) (message : String) : Procedure Unit :=
  call (.setState state message)
def hydroContest : Procedure (Option HydroContest) := call .hydroContest
def hydroRoster : Procedure (List Participant) := call .hydroRoster
def cvmStatus : Procedure (String × String) := call .cvmStatus
def waitSsh : Procedure Bool := call .waitSsh
def newCredentials (slotNo : Nat) : Procedure (String × String × String) :=
  call (.newCredentials slotNo)
def run (command : HostCommand) : Procedure String := call (.run command)

/-- A command of the pure pool, its error raised as it is. -/
def onPool {α : Type} (result : Except PoolError α) : Procedure α :=
  .ofExcept (result.mapError .pool)

def savePoolState (previousRevision : Option Int) (state : SeatPoolState) :
    Procedure SeatPoolState := do
  putSeatPool previousRevision state
  return state

end NoiContest.Pipeline
