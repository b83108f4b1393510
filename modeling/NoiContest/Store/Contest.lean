import Mathlib.Data.List.Basic

/- Rows of the contests table and the exceptions of the SQLite store. JSON columns are kept
   decoded. Times are integral Unix milliseconds. -/
namespace NoiContest

inductive ContestState where
  | registered | preparing | ready | collecting | safeWait | safeEnded | done | error
  deriving DecidableEq, Repr

inductive StoreError where
  | valueError (message : String)
  | keyError (message : String)
  | submissionConflict (message : String)
  | submissionClosed (message : String)
  | submissionLeaseLost (message : String)
  | integrityError (message : String)
  deriving DecidableEq, Repr

structure Contest where
  tid : String
  files : List String
  /- None stands for a column that json.loads rejects. -/
  pids : Option (List (String × String)) := some []
  submissionMode : String := "folder"
  submissionSession : String := ""
  title : String := ""
  materialsMode : String := "manual"
  paperName : String := ""
  paperSha256 : String := ""
  paperSize : Int := 0
  testdataName : String := ""
  testdataSha256 : String := ""
  testdataSize : Int := 0
  testdataFiles : Int := 0
  testdataExpandedSize : Int := 0
  beginAtMs : Int := 0
  endAtMs : Int := 0
  hydroRule : String := ""
  materialState : String := "pending"
  activeMaterialRevision : String := ""
  materialManifestSha256 : String := ""
  maxParticipants : Int := 15
  spareSeats : Int := 2
  releaseLeadMinutes : Int := 5
  practiceGroups : Int := 3
  timeSyncAtMs : Int := 0
  timeSyncCheckedAtMs : Int := 0
  timeSyncError : String := ""
  collectionRunId : String := ""
  collectionDir : String := ""
  collectionReceiptSha256 : String := ""
  collectionCompletedAtMs : Int := 0
  shutdownAfterMs : Int := 0
  shutdownVerifiedAtMs : Int := 0
  state : ContestState := .registered
  message : String := ""
  deriving DecidableEq, Repr

/-- The `int(value or 5)` of the source: a stored zero means the default lead. -/
def Contest.releaseLeadMs (contest : Contest) : Int :=
  (if contest.releaseLeadMinutes = 0 then 5 else contest.releaseLeadMinutes) * 60 * 1000

end NoiContest
