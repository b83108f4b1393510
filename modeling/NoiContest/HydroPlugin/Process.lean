import NoiContest.HydroPlugin.Submit

/- The plugin process: its requests, the order in which the event loop resumes them, crashes
   and restarts. A run is a list of events, so it is one interleaving at the awaits. -/
namespace NoiContest.HydroPlugin

inductive RequestKind where
  | submit | status
  deriving DecidableEq, Repr

structure Request where
  kind : RequestKind
  submissionId : String
  phase : Phase

structure Plugin where
  journal : Journal
  up : Bool
  requests : List Request

/- Before the first start there is at most a journal file. -/
def Plugin.installed (file : Dict String Entry) : Plugin where
  journal := { entries := Dict.empty, heap := Heap.empty, inFlight := Dict.empty,
               resolving := Dict.empty, file, adds := [], statusUpdates := [], peak := 0 }
  up := false
  requests := []

inductive PostEvent where
  | arrive (body : SubmitBody) (contestLocked : Bool) (saves : List Save)
  | resume (request : Nat) (answer : Answer) (saves : List Save)
  | conclude (request : Nat)
  | crash
  | restart (save : Save)

inductive Event where
  | post (event : PostEvent)
  | status (headerToken : Option String) (submissionId : String) (saves : List Save)

def Plugin.crash (p : Plugin) : Plugin := ⟨p.journal.drop, false, []⟩

/- A section ends at an await, with an exception of its handler, or with the process. -/
def Plugin.perform (p : Plugin) (work : Section Phase) (saves : List Save)
    (record : Phase → List Request) : Plugin :=
  match work (p.journal, saves) with
  | .ok phase w => { p with journal := w.1, requests := record phase }
  | .error (.raised failure) w =>
      { p with journal := w.1, requests := record (.finished (.error failure)) }
  | .error .crash w => ⟨w.1.drop, false, []⟩

def Plugin.setPhase (p : Plugin) (request : Nat) (phase : Phase) : List Request :=
  p.requests.modify request fun r => { r with phase }

def Journal.forget (j : Journal) (kind : RequestKind) (submissionId : String) : Journal :=
  match kind with
  | .submit => { j with inFlight := j.inFlight.erase submissionId }
  | .status => { j with resolving := j.resolving.erase submissionId }

def outcomeOf (request : Request) : Option (Except Failure Reply) :=
  match request.phase with
  | .settled outcome => some outcome
  | .finished outcome => some outcome
  | _ => none

/- The owner of a settled promise runs its finally block; who joined it gets its outcome. -/
def Plugin.conclude (p : Plugin) (request : Nat) : Plugin :=
  match p.requests[request]? with
  | none => p
  | some r =>
    match r.phase with
    | .settled outcome =>
        { p with journal := p.journal.forget r.kind r.submissionId,
                 requests := p.setPhase request (.finished outcome) }
    | .joined promise =>
        match p.requests[promise]?.bind outcomeOf with
        | some outcome => { p with requests := p.setPhase request (.finished outcome) }
        | none => p
    | _ => p

/- exports.apply saves the loaded journal once before it accepts requests. -/
def Plugin.restart (settings : Settings) (p : Plugin) (save : Save) : Plugin :=
  match saveIdempotencyState settings (p.journal.load, [save]) with
  | .ok _ w => ⟨w.1, true, []⟩
  | .error _ w => ⟨w.1.drop, false, []⟩

def Plugin.step (settings : Settings) (p : Plugin) : PostEvent → Plugin
  | .arrive body contestLocked saves =>
      if p.up then
        p.perform (submit settings p.requests.length body contestLocked) saves
          fun phase => p.requests ++ [⟨.submit, body.submissionId, phase⟩]
      else p
  | .resume request answer saves =>
      match p.requests[request]? with
      | none => p
      | some r => p.perform (resume settings request r.phase answer) saves (p.setPhase request)
  | .conclude request => p.conclude request
  | .crash => p.crash
  | .restart save => if p.up then p else p.restart settings save

def Plugin.stepAny (settings : Settings) (p : Plugin) : Event → Plugin
  | .post event => p.step settings event
  | .status headerToken submissionId saves =>
      if p.up then
        p.perform (submissionStatus settings p.requests.length headerToken submissionId) saves
          fun phase => p.requests ++ [⟨.status, submissionId, phase⟩]
      else p

/- Loading turns every key of the file into a key of the memory. -/
theorem foldl_loadEntry (items : List (String × Entry))
    (loaded : Dict String Nat × Heap (String × Entry)) :
    (∀ id, id ∈ (items.foldl loadEntry loaded).1.keys ↔
      id ∈ items.map Prod.fst ∨ id ∈ loaded.1.keys) ∧
    (items.foldl loadEntry loaded).1.size ≤ loaded.1.size + items.length := by
  induction items generalizing loaded with
  | nil => simp
  | cons item rest ih =>
    obtain ⟨keys, size⟩ := ih (loadEntry loaded item)
    constructor
    · intro id
      rw [List.foldl_cons, keys]
      simp only [loadEntry, Dict.mem_keys_set, List.map_cons, List.mem_cons]
      tauto
    · have grown : (loadEntry loaded item).1.size ≤ loaded.1.size + 1 := Dict.size_set_le _ _ _
      simp only [List.foldl_cons, List.length_cons]
      omega

/- Every loaded entry stands under its own id and comes from the file. -/
theorem foldl_loadEntry_owned (source : List (String × Entry)) :
    ∀ (items : List (String × Entry)) (loaded : Dict String Nat × Heap (String × Entry)),
    (∀ item ∈ items, item ∈ source) →
    (∀ id ref, loaded.1.get? id = some ref → ∃ e, loaded.2.read ref = some (id, e) ∧
      (id, e) ∈ source) →
    ∀ id ref, (items.foldl loadEntry loaded).1.get? id = some ref →
      ∃ e, (items.foldl loadEntry loaded).2.read ref = some (id, e) ∧ (id, e) ∈ source
  | [], _, _, owned => owned
  | item :: rest, loaded, inSource, owned => by
    refine foldl_loadEntry_owned source rest _ (fun other mem =>
      inSource other (List.mem_cons_of_mem _ mem)) ?_
    intro id ref entry
    simp only [loadEntry, Dict.get?_set] at entry
    by_cases same : id = item.1
    · subst same
      obtain rfl : loaded.2.fresh = ref := by simpa using entry
      exact ⟨item.2, by simp [loadEntry, Heap.read_allocate], inSource item List.mem_cons_self⟩
    · simp only [same, if_false] at entry
      obtain ⟨e, found, mem⟩ := owned id ref entry
      have old := Heap.read_bound found
      have distinct : ref ≠ loaded.2.fresh := by omega
      exact ⟨e, by simp [loadEntry, Heap.read_allocate, distinct, found], mem⟩

theorem foldl_loadEntry_reads (items : List (String × Entry))
    (loaded : Dict String Nat × Heap (String × Entry)) {ref : Nat} {object : String × Entry}
    (found : (items.foldl loadEntry loaded).2.read ref = some object) :
    loaded.2.read ref = some object ∨ object ∈ items := by
  induction items generalizing loaded with
  | nil => exact .inl found
  | cons item rest ih =>
    rcases ih (loadEntry loaded item) found with old | new
    · simp only [loadEntry, Heap.read_allocate] at old
      split at old
      · exact .inr (by simp [Option.some.inj old])
      · exact .inl old
    · exact .inr (List.mem_cons_of_mem _ new)

/- One student and one problem of a running OI contest. -/
def sampleSettings : Settings where
  token := "orchestrator-token"
  maxCodeBytes := 524288
  maxEntries := 100
  isObjectId := PyText.isHexOf 24
  langs := [("cc.cc14o2", false)]

def sampleId : String := String.ofList (List.replicate 64 'a')

def sampleBody : SubmitBody where
  headerToken := some "orchestrator-token"
  tid := "0123456789abcdef01234567"
  uid := 7
  pid := "P1"
  code := "int main(){}"
  lang := ""
  submissionId := sampleId
  submissionKind := "realtime"
  acceptedAtMs := 15

def sampleFingerprint : String :=
  "61185fd1139b81f01bcd1a510628401c13c660fdc40f8d64566b5dfb90cf163e"

/-- `payloadFingerprint` with the value for the sample looked up, for the evaluation of runs. -/
def fingerprintKnowing (tid : String) (uid : Int) (pid lang code : String) : String :=
  if tid = "0123456789abcdef01234567" ∧ uid = 7 ∧ pid = "P1" ∧ lang = "cc.cc14o2" ∧
      code = "int main(){}" then sampleFingerprint
  else payloadFingerprint tid uid pid lang code

theorem sampleFingerprint_eq :
    payloadFingerprint "0123456789abcdef01234567" 7 "P1" "cc.cc14o2" "int main(){}" =
      sampleFingerprint := by
  decide +kernel

theorem payloadFingerprint_knowing : payloadFingerprint = fingerprintKnowing := by
  funext tid uid pid lang code
  unfold fingerprintKnowing
  split_ifs with same
  · obtain ⟨rfl, rfl, rfl, rfl, rfl⟩ := same
    exact sampleFingerprint_eq
  · rfl

def sampleProblem : Answer := .problem (some ⟨3, none⟩)

def sampleContestDoc : Answer :=
  .contest ⟨"0123456789abcdef01234567", some [3], "oi", some 10, some 20, none⟩

def sampleAttendance : Answer := .attendance (some ⟨none, none⟩) true "2026-01-01T00:00:00.000Z"

def startPlugin : PostEvent := .restart .saved

/-- The three lookups of a POST, the last of which ends in `RecordModel.add`. -/
def lookUp (request : Nat) : List PostEvent :=
  [.resume request sampleProblem [], .resume request sampleContestDoc [],
    .resume request sampleAttendance []]

end NoiContest.HydroPlugin
