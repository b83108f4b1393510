import NoiContest.Collection.CollectRuns

/- The two laws of collect, with a run that they apply to. -/
namespace NoiContest.Collection
open Pipeline Flow

variable {cfg : Config} {tid : String} {claimed : Bool} {front back : Log}

/-- The code that a student's problem is sent with: the web submission, or else the student's own
    file under the required name. -/
def Selected (t : Log) (cfg : Config) (place : Place) (seat : Seat) (name code : String) : Prop :=
  ∃ latest, Did t (.latestWebSubmissions seat.uid) latest ∧
    match latest.lookup name with
    | some row => code = row.source ∧ (row.submissionId = "" ∨ cfg.realtimeJudge = false)
    | none => ∃ root folder item, OwnRoot t place seat root ∧
        Did t (.checkAnswerTree root seat.candidate place.files) folder ∧
        folder.get? name = some item ∧ item.status = .ok ∧ item.file ≠ "" ∧
        Did t (.readAnswer root item.file) code

theorem strip_empty : PyText.strip "" = "" := by decide +kernel

theorem Chose.selected {t : Log} {place : Place} {seat : Seat} {name : String} {chosen : Chosen}
    (chose : Chose t cfg place seat name chosen) (accepted : chosen.item.status = .ok)
    (filled : PyText.strip chosen.source ≠ "") (unjudged : ∀ row, chosen.webRow = some row →
      row.submissionId = "" ∨ cfg.realtimeJudge = false) :
    Selected t cfg place seat name chosen.source := by
  obtain ⟨root, folder, item, latest, text, own, tree, found, web, read, rfl⟩ := chose
  refine ⟨latest, web, ?_⟩
  cases given : latest.lookup name with
  | some row =>
    rw [given] at unjudged
    exact ⟨rfl, unjudged row rfl⟩
  | none =>
    rw [given] at accepted filled
    by_cases unnamed : item.file = ""
    · refine absurd strip_empty ?_
      simpa [choose, unnamed] using filled
    · refine ⟨root, folder, item, own, tree, found, accepted, unnamed, ?_⟩
      simpa [choose, unnamed] using read unnamed

/- What collect sends, at any point of any run: the selected code of a seat and a problem of the
   contest, not blank, under the problem's pid and the stable key of the student and the problem,
   after the reports that record the selection were written. -/
structure Sent (t : Log) (cfg : Config) (tid : String) (args : SubmitArgs) (contest : Contest)
    (pids : List (String × String)) (place : Place) (seat : Seat) (name : String) : Prop where
  registered : Did t (.base .getContest) (some contest)
  mapped : contest.pids = some pids
  problems : place.files = contest.files
  problem : name ∈ contest.files
  pid : pids.lookup name = some args.pid
  ofContest : args.tid = tid
  ofSeat : args.uid = seat.uid
  key : args.submissionId = submissionId contest.submissionSession tid seat.uid args.pid
  filled : PyText.strip args.code ≠ ""
  selected : Selected t cfg place seat name args.code
  recorded : ∃ answers digests, Written t place.outDir (reports answers) digests ∧
    ∃ user chosen, answers.get? seat.uname = some user ∧ user.chosen.get? name = some chosen ∧
      chosen.source = args.code

theorem safe_wait_has_evidence {evidence : SafeWait} {answer : Except Raised Bool}
    (run : CollectTrace cfg tid claimed (front ++ ⟨.enterSafeWait evidence, answer⟩ :: back)) :
    WaitGrounds cfg tid front evidence := run.grounded

/- A contest with one seat and one answer file, where every call succeeds. -/

def sampleConfig : Config where
  submitEnabled := true
  realtimeJudge := false
  shutdownGraceMinutes := 30
  collectedDir := "/collected"
  checkCode := fun _ _ => []

def sampleTid : String := "66a0f1e2d3c4b5a697887766"

def sampleContest : Contest where
  tid := sampleTid
  files := ["add"]
  pids := some [("add", "P1")]
  endAtMs := 1000

def sampleSeats : List Seat := [⟨7, "amy", "BJ-01", "seat-1"⟩]

def sampleRid : String := "0123456789abcdef01234567"

/-- What the pool procedures' calls return; the ones that collect does not make return nothing. -/
def sampleBase : (c : Pipeline.Call) → Except Raised (Pipeline.Answer c)
  | .getContest => .ok (some sampleContest)
  | .clock => .ok 2000
  | .waitSsh => .ok true
  | .seatPool => .ok none
  | .seatPoolResources => .ok []
  | .enter _ | .leave | .setState .. => .ok ()
  | _ => .error (.external "")

def sampleAnswer : (c : Call) → Except Raised (Answer c)
  | .base c => sampleBase c
  | .transition .. | .enterSafeWait _ | .markSafeEnded .. => .ok true
  | .seats => .ok sampleSeats
  | .latestWebSubmissions _ => .ok []
  | .ensure _ => .error (.external "")
  | .newRunId => .ok "20260101T000000Z"
  | .seatPoolAssignment _ => .ok none
  | .checkAnswerTree .. => .ok (Dict.empty.set "add" ⟨.ok, "BJ-01/add/add.cpp", []⟩)
  | .readAnswer .. => .ok "int main() { return 0; }"
  | .writeDurableJson .. => .ok "digest"
  | .submitOne _ => .ok (.accepted sampleRid)
  | .archiveTreeManifest _ => .ok (.obj [])
  | .contestDeliveryHealth => .ok ⟨[], 0⟩
  | .revokeDesktopAccess | .stopServerBestEffort | .disableFrontend | .ensureServer
  | .freezeForCollection _ | .packAnswers _ | .makeOutDir _ | .getArchive | .extract _
  | .removeRemoteArchive | .makeWebDir _ | .writeWebSource .. | .verifyCollectionReceipt _
  | .removeContainers _ | .removeFreezeWatchdog | .removeGateway => .ok ()

def sampleRespond (c : Call) (_ : Unit) (s : Unit) : Except Raised (Answer c) × Unit :=
  (sampleAnswer c, s)

def sampleTrace : Log := recorded sampleRespond (collect sampleConfig sampleTid false) (fun _ => ()) ()

theorem sample_run : CollectTrace sampleConfig sampleTid false sampleTrace :=
  ⟨_, emits_recorded (fun _ _ _ => trivial) ..⟩

theorem sample_seats {seats : List Seat} (did : Did sampleTrace .seats seats) :
    seats = sampleSeats := by
  exact Except.ok.inj (recorded_steady did)

def isSubmit : Event Call Answer Raised → Bool
  | ⟨.submitOne _, _⟩ => true
  | _ => false

def entersWait : Event Call Answer Raised → Bool
  | ⟨.enterSafeWait _, _⟩ => true
  | _ => false

theorem sample_sends : sampleTrace.any isSubmit = true := by decide +kernel

theorem sample_waits : sampleTrace.any entersWait = true := by decide +kernel

theorem sample_submission : ∃ front back args answer,
    sampleTrace = front ++ ⟨.submitOne args, answer⟩ :: back := by
  obtain ⟨⟨c, answer⟩, mem, is⟩ := List.any_eq_true.mp sample_sends
  obtain ⟨front, back, split⟩ := List.append_of_mem mem
  cases c with
  | submitOne args => exact ⟨front, back, args, answer, split⟩
  | _ => cases is

theorem sample_wait : ∃ front back evidence answer,
    sampleTrace = front ++ ⟨.enterSafeWait evidence, answer⟩ :: back := by
  obtain ⟨⟨c, answer⟩, mem, is⟩ := List.any_eq_true.mp sample_waits
  obtain ⟨front, back, split⟩ := List.append_of_mem mem
  cases c with
  | enterSafeWait evidence => exact ⟨front, back, evidence, answer, split⟩
  | _ => cases is

theorem sample_wait_has_evidence : ∃ front evidence, front <+: sampleTrace ∧
    WaitGrounds sampleConfig sampleTid front evidence := by
  obtain ⟨front, back, evidence, answer, split⟩ := sample_wait
  exact ⟨front, evidence, ⟨_, split.symm⟩, safe_wait_has_evidence (split ▸ sample_run)⟩

end NoiContest.Collection
