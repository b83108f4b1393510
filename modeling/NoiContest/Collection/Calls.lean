import NoiContest.Lib.Dict
import NoiContest.Lib.JsonText
import NoiContest.Lib.Sha256
import NoiContest.Lib.Trace
import NoiContest.Pipeline.PoolFlows

/- The data and the calls of Pipeline.collect and Pipeline.finish_safe_wait. The answers of the
   calls are left open: the database, the answer trees and the OJ may change between two calls. -/
namespace NoiContest.Collection
open Pipeline JsonText Flow

/- A row of the seats of a contest. -/
structure Seat where
  uid : Int
  uname : String
  candidate : String
  container : String
  deriving DecidableEq, Repr

/- A row of web_submissions as latest_web_submissions returns it. -/
structure WebRow where
  id : Int
  submissionId : String
  source : String
  sha256 : String
  size : Int
  createdAt : String
  deriving DecidableEq, Repr

/- The row that the judge returns. None stands for a column that json.loads rejects. -/
structure Delivered where
  rid : String
  judgeSource : String
  source : String
  judgeIssues : Option Json

inductive Status where
  | ok | invalidFilename | missing
  deriving DecidableEq, Repr

def Status.name : Status → String
  | ok => "ok"
  | invalidFilename => "invalid_filename"
  | missing => "missing"

structure FolderItem where
  status : Status
  file : String
  issues : List String
  deriving DecidableEq, Repr

structure Evidence where
  sha256 : String
  size : Int
  deriving DecidableEq, Repr

structure WebItem where
  status : Status
  file : String
  issues : List String
  evidence : Option (Evidence × String)
  deriving DecidableEq, Repr

inductive Origin where
  | webSubmit | deadlineSnapshot
  deriving DecidableEq, Repr

def Origin.name : Origin → String
  | webSubmit => "web_submit"
  | deadlineSnapshot => "deadline_snapshot"

structure ReportItem where
  status : Status
  file : String
  issues : List String
  evidence : Option Evidence
  origin : Origin
  deriving DecidableEq, Repr

/- What was selected for a problem of a student. -/
structure Chosen where
  item : ReportItem
  source : String
  webRow : Option WebRow
  deriving DecidableEq, Repr

structure UserAnswers where
  folder : Dict String FolderItem
  web : Dict String WebItem
  chosen : Dict String Chosen

structure SubmitArgs where
  tid : String
  uid : Int
  pid : String
  code : String
  submissionId : String
  deriving DecidableEq, Repr

/- The dictionary that submit_one returns: with a rid when the OJ accepted the code. -/
inductive SubmitResult where
  | accepted (rid : String)
  | refused (fields : List (String × Json))

structure SafeWait where
  runId : String
  collectionDir : String
  receiptSha256 : String
  completedAtMs : Int
  shutdownAfterMs : Int
  message : String
  deriving DecidableEq, Repr

structure DeliveryHealth where
  counts : List (String × Nat)
  unfinished : Nat
  deriving DecidableEq, Repr

def DeliveryHealth.safe (health : DeliveryHealth) : Bool := health.unfinished == 0

inductive Call where
  /- the calls that the pool procedures make too -/
  | base (c : Pipeline.Call)
  | transition (fromStates : List ContestState) (toState : ContestState) (message : String)
  | revokeDesktopAccess
  | stopServerBestEffort
  | disableFrontend
  | seats
  | latestWebSubmissions (uid : Int)
  | ensure (row : Int)
  | ensureServer
  | freezeForCollection (containers : List String)
  | packAnswers (pooled : Bool)
  | newRunId
  | makeOutDir (dir : String)
  | getArchive
  | extract (dir : String)
  | removeRemoteArchive
  | seatPoolAssignment (uid : Int)
  | checkAnswerTree (root candidate : String) (files : List String)
  | makeWebDir (dir : String)
  | writeWebSource (path code : String)
  | readAnswer (root file : String)
  | writeDurableJson (path : String) (payload : Json)
  | submitOne (args : SubmitArgs)
  | archiveTreeManifest (dir : String)
  | enterSafeWait (evidence : SafeWait)
  | verifyCollectionReceipt (contest : Contest)
  | contestDeliveryHealth
  | removeContainers (containers : List String)
  | removeFreezeWatchdog
  | removeGateway
  | markSafeEnded (observedAtMs : Int) (message : String)

@[reducible] def Answer : Call → Type
  | .base c => Pipeline.Answer c
  | .transition .. | .enterSafeWait _ | .markSafeEnded .. => Bool
  | .seats => List Seat
  | .latestWebSubmissions _ => List (String × WebRow)
  | .ensure _ => Delivered
  | .newRunId => String
  | .seatPoolAssignment _ => Option Nat
  | .checkAnswerTree .. => Dict String FolderItem
  | .readAnswer .. | .writeDurableJson .. => String
  | .submitOne _ => SubmitResult
  | .archiveTreeManifest _ => Json
  | .contestDeliveryHealth => DeliveryHealth
  | _ => Unit

abbrev Procedure (α : Type) : Type := Program Call Answer Raised Raised α

def call (c : Call) : Procedure (Answer c) := Program.perform c

/-- A part that the pool procedures share. -/
def base {α : Type} (body : Pipeline.Procedure α) : Procedure α := body.lift Call.base

def raise {α : Type} (message : String) : Procedure α := Program.raise (.runtime message)

def raiseIf (bad : Prop) [Decidable bad] (message : String) : Procedure Unit :=
  Program.raiseIf bad (.runtime message)

/-- `try: body` with an `except Exception` that only writes to the log. -/
def quietly (body : Procedure Unit) : Procedure Unit := body.orElse fun _ => pure ()

structure Config where
  submitEnabled : Bool
  /-- `self.realtime_judge is not None` -/
  realtimeJudge : Bool
  shutdownGraceMinutes : Int
  collectedDir : String
  /-- the advisory hints of services/static_check.py -/
  checkCode : String → String → List String

end NoiContest.Collection
