import NoiContest.HydroPlugin.Submit
import NoiContest.Lib.Runs

/- The notify endpoint of the Hydro plugin: one message for one notification id, whatever the
   requests, their retries, the failures of the journal and the crashes of the process. -/
namespace NoiContest.HydroPlugin.Notify
open JsonText

structure Payload where
  purpose : String
  uid : Int
  contestTitle : String
  desktopUrl : String
  candidate : String
  studentPassword : String
  availableAt : String
  deriving DecidableEq, Repr

inductive Failure where
  | invalidToken | badRequest (what : String) | notificationConflict | journalSave | hydro
  deriving DecidableEq, Repr

/-- A property of the request body. -/
inductive Field where
  | undefined | text (value : String) | other
  deriving DecidableEq, Repr

structure Body where
  headerToken : Option String
  onlyKnownFields : Bool
  notificationId : String
  purpose : String
  uid : Int
  contestTitle : Field
  desktopUrl : Field
  candidate : Field
  studentPassword : Field
  availableAt : Field
  deriving DecidableEq, Repr

/-- `normalizeUrl` stands for the URL class with the checks of normalizeNotificationUrl. -/
structure NotifySettings where
  token : String
  maxEntries : Nat
  allowedHosts : List String
  normalizeUrl : List String → String → Option String

/-- The code points that String.prototype.trim removes. -/
def isTrimmed (c : Char) : Bool :=
  let n := c.toNat
  (9 ≤ n && n ≤ 13) || n == 0x20 || n == 0xa0 || n == 0x1680 || (0x2000 ≤ n && n ≤ 0x200a) ||
    n == 0x2028 || n == 0x2029 || n == 0x202f || n == 0x205f || n == 0x3000 || n == 0xfeff

def trimText (s : String) : String :=
  String.ofList (((s.toList.dropWhile isTrimmed).reverse.dropWhile isTrimmed).reverse)

def isControl (c : Char) : Bool := c.toNat ≤ 0x1f || c.toNat == 0x7f

def notificationText (field : Field) (key : String) (maximumBytes : Nat) (trim optional : Bool) :
    Except Failure String :=
  match field with
  | .text given =>
    let value := if trim then trimText given else given
    if (!optional && value == "") || maximumBytes < value.utf8ByteSize ||
        value.toList.any isControl then
      .error (.badRequest ("orchestrator notification " ++ key))
    else .ok value
  | .undefined =>
    if optional then .ok "" else .error (.badRequest ("orchestrator notification " ++ key))
  | .other => .error (.badRequest ("orchestrator notification " ++ key))

def normalizeNotificationUrl (settings : NotifySettings) (value : String) :
    Except Failure String :=
  match settings.normalizeUrl settings.allowedHosts value with
  | some url => .ok url
  | none => .error (.badRequest "orchestrator notification desktop_url")

def Body.parse (settings : NotifySettings) (body : Body) : Except Failure Payload :=
  if settings.token = "" ∨ body.headerToken ≠ some settings.token then .error .invalidToken
  else if !body.onlyKnownFields || !PyText.isLowerHexOf 64 body.notificationId ||
      body.purpose != "seat_ready" || !isSafeInteger body.uid || body.uid ≤ 1 then
    .error (.badRequest "orchestrator notification payload")
  else if settings.allowedHosts = [] then
    .error (.badRequest "orchestrator notification allowed hosts")
  else do
    let contestTitle ← notificationText body.contestTitle "contest_title" 512 true false
    let desktopUrl ← notificationText body.desktopUrl "desktop_url" 2048 true false
    let desktopUrl ← normalizeNotificationUrl settings desktopUrl
    let candidate ← notificationText body.candidate "candidate" 128 true false
    let studentPassword ←
      notificationText body.studentPassword "student_password" 256 false false
    let availableAt ← notificationText body.availableAt "available_at" 128 true true
    return { purpose := body.purpose, uid := body.uid, contestTitle, desktopUrl, candidate,
             studentPassword, availableAt }

def notificationFingerprint (payload : Payload) : String :=
  Sha256.ofText (dumps (.arr [.str payload.purpose, .int payload.uid, .str payload.contestTitle,
    .str payload.desktopUrl, .str payload.candidate, .str payload.studentPassword,
    .str payload.availableAt]))

/- An object whose keys are printed in the order given. -/
def orderedObject (fields : List (String × String)) : String :=
  "\x7b" ++ String.intercalate "," (fields.map fun field => quote field.1 ++ ":" ++ field.2) ++
    "\x7d"

def seatReadyMessage : String :=
  "【NOI Linux 考试桌面已开放】\n\n比赛：\x7bcontest\x7d\n开放时间：\x7bavailable_at\x7d\n\n" ++
    "请关闭以前的远程桌面标签页，使用下面的个人专属入口。\n桌面入口：\x7bdesktop:link\x7d\n\n" ++
    "准考证号：\x7bcandidate\x7d\n登录密码：\x7bpassword\x7d\n\n" ++
    "请勿把个人链接、准考证号或密码转发给其他同学。"

def notificationContent (payload : Payload) (notificationId : String) : String :=
  let availableAt := if payload.availableAt = "" then "收到本消息后即可登录" else payload.availableAt
  orderedObject [("message", quote seatReadyMessage),
    ("params", orderedObject [("contest", quote payload.contestTitle),
      ("available_at", quote availableAt), ("desktop", quote payload.desktopUrl),
      ("candidate", quote payload.candidate), ("password", quote payload.studentPassword),
      ("_notification_id", quote notificationId)])]

structure Entry where
  fingerprint : String
  messageId : String := ""
  complete : Bool := false
  createdAt : String
  deriving DecidableEq, Repr

/- A message of Hydro's system user, with the request that made it. -/
structure Message where
  id : String
  uid : Int
  content : String
  notificationId : String
  payload : Payload
  deriving DecidableEq, Repr

/- What a request awaits. `answer` is what findOne has read, once it has. -/
inductive Phase where
  | finding (entry : Nat) (answer : Option (Option String))
  | sending (entry : Nat) (inserted : Option String)
  | joined (promise : Nat)
  | settled (outcome : Except Failure String)
  | finished (outcome : Except Failure String)

structure Request where
  notificationId : String
  payload : Payload
  phase : Phase

structure InFlight where
  fingerprint : String
  promise : Nat
  deriving DecidableEq, Repr

/- The process with its memory, the journal file, the messages of Hydro, and the valid requests
   so far in the order in which they came. -/
structure Plugin where
  entries : Dict String Nat
  heap : Heap Entry
  inFlight : Dict String InFlight
  file : Dict String Entry
  up : Bool
  requests : List Request
  messages : List Message
  received : List (String × Payload)

/- Before the first start there is neither a journal file nor a message. -/
def Plugin.installed : Plugin where
  entries := Dict.empty
  heap := Heap.empty
  inFlight := Dict.empty
  file := Dict.empty
  up := false
  requests := []
  messages := []
  received := []

namespace Plugin

/- Only complete entries are removable, oldest first. -/
def pruneNotificationIdempotencyState (maxEntries : Nat) (p : Plugin) : Plugin :=
  if p.entries.size ≤ maxEntries then p
  else
    let completed := p.entries.items.filterMap fun item =>
      (p.heap.read item.2).bind fun entry =>
        if entry.complete then some (item.1, entry.createdAt) else none
    let removable := completed.insertionSort (fun a b => a.2 ≤ b.2)
    let removed := (removable.take (p.entries.size - maxEntries)).map Prod.fst
    { p with entries := p.entries.filter fun item => !removed.contains item.1 }

/-- `JSON.stringify(notificationIdempotencyState)` -/
def image (p : Plugin) : Dict String Entry :=
  p.entries.mapValues fun _ ref =>
    (p.heap.read ref).getD { fingerprint := "", createdAt := "" }

def write (p : Plugin) : Plugin := { p with file := p.image }

def crash (p : Plugin) : Plugin :=
  { p with entries := Dict.empty, inFlight := Dict.empty, requests := [], up := false }

/-- How a save ends, with the process as it is then. -/
inductive Saved where
  | saved (p : Plugin) | failed (p : Plugin) | crashed (p : Plugin)

/- The rename is atomic, and what follows it can still raise. -/
def saveNotificationIdempotencyState (settings : NotifySettings) (p : Plugin) (save : Save) :
    Saved :=
  let p := p.pruneNotificationIdempotencyState settings.maxEntries
  match save with
  | .saved => .saved p.write
  | .failed written => .failed (if written then p.write else p)
  | .crashed written => .crashed (if written then p.write else p).crash

def request (p : Plugin) (r : Request) : Plugin := { p with requests := p.requests ++ [r] }

def setPhase (p : Plugin) (i : Nat) (phase : Phase) : Plugin :=
  { p with requests := p.requests.modify i fun r => { r with phase } }

/- `entries[notificationId] = current` for an entry that was just built. -/
def reserve (p : Plugin) (notificationId fingerprint createdAt : String) : Plugin :=
  { p with entries := p.entries.set notificationId p.heap.fresh,
           heap := p.heap.allocate { fingerprint, createdAt } }

def own (p : Plugin) (notificationId fingerprint : String) (promise : Nat) : Plugin :=
  { p with inFlight := p.inFlight.set notificationId ⟨fingerprint, promise⟩ }

/- The owner of the promise: its work runs up to the first await. -/
def begin (settings : NotifySettings) (p : Plugin) (notificationId : String) (payload : Payload)
    (createdAt : String) (save : Save) : Plugin :=
  let fingerprint := notificationFingerprint payload
  let owned (p : Plugin) (phase : Phase) : Plugin :=
    (p.request ⟨notificationId, payload, phase⟩).own notificationId fingerprint p.requests.length
  match p.entries.get? notificationId with
  | some ref =>
    match p.heap.read ref with
    | some entry =>
      if entry.complete then owned p (.settled (.ok entry.messageId))
      else owned p (.finding ref none)
    | none => owned p (.finding ref none)
  | none =>
    match saveNotificationIdempotencyState settings
      (p.reserve notificationId fingerprint createdAt) save with
    | .saved p' => owned p' (.finding p.heap.fresh none)
    | .failed p' => owned p' (.settled (.error .journalSave))
    | .crashed p' => p'

/-- The journal has an entry of the id for another payload. -/
def Reserved (p : Plugin) (notificationId : String) (payload : Payload) : Prop :=
  ∃ ref ∈ p.entries.get? notificationId, ∃ entry ∈ p.heap.read ref,
    entry.fingerprint ≠ notificationFingerprint payload

instance (p : Plugin) (notificationId : String) (payload : Payload) :
    Decidable (p.Reserved notificationId payload) := by
  unfold Reserved
  infer_instance

def serve (settings : NotifySettings) (p : Plugin) (notificationId : String) (payload : Payload)
    (createdAt : String) (save : Save) : Plugin :=
  let refused := p.request ⟨notificationId, payload, .finished (.error .notificationConflict)⟩
  if p.Reserved notificationId payload then refused
  else
    match p.inFlight.get? notificationId with
    | some active =>
      if active.fingerprint ≠ notificationFingerprint payload then refused
      else p.request ⟨notificationId, payload, .joined active.promise⟩
    | none => p.begin settings notificationId payload createdAt save

def post (settings : NotifySettings) (p : Plugin) (body : Body) (createdAt : String)
    (save : Save) : Plugin :=
  match body.parse settings with
  | .error _ => p
  | .ok payload =>
    let p := { p with received := p.received ++ [(body.notificationId, payload)] }
    p.serve settings body.notificationId payload createdAt save

/-- `findOne(\x7b from: 1, to: uid, content \x7d)` -/
def findOne (p : Plugin) (r : Request) : Option String :=
  (p.messages.find? fun m =>
    m.uid = r.payload.uid ∧ m.content = notificationContent r.payload r.notificationId).map (·.id)

def completeEntry (p : Plugin) (ref : Nat) (messageId : String) : Plugin :=
  { p with heap := p.heap.modify ref fun entry => { entry with messageId, complete := true } }

def finish (settings : NotifySettings) (p : Plugin) (i ref : Nat) (messageId : String)
    (save : Save) : Plugin :=
  let p := p.completeEntry ref messageId
  match saveNotificationIdempotencyState settings p save with
  | .saved p => p.setPhase i (.settled (.ok messageId))
  | .failed p => p.setPhase i (.settled (.error .journalSave))
  | .crashed p => p

def insert (p : Plugin) (r : Request) (messageId : String) : Plugin :=
  { p with messages := p.messages ++ [⟨messageId, r.payload.uid,
      notificationContent r.payload r.notificationId, r.notificationId, r.payload⟩] }

/- Hydro carries out the call that the request awaits. -/
def perform (p : Plugin) (i : Nat) (messageId : String) : Plugin :=
  match p.requests[i]? with
  | some r =>
    match r.phase with
    | .finding ref none => p.setPhase i (.finding ref (some (p.findOne r)))
    | .sending ref none => (p.insert r messageId).setPhase i (.sending ref (some messageId))
    | _ => p
  | none => p

/- The awaited call returns. -/
def resume (settings : NotifySettings) (p : Plugin) (i : Nat) (save : Save) : Plugin :=
  match p.requests[i]? with
  | some r =>
    match r.phase with
    | .finding ref (some none) => p.setPhase i (.sending ref none)
    | .finding ref (some (some messageId)) => p.finish settings i ref messageId save
    | .sending ref (some messageId) => p.finish settings i ref messageId save
    | _ => p
  | none => p

/- The awaited call throws, whether Hydro carried it out or not. -/
def fail (p : Plugin) (i : Nat) : Plugin :=
  match p.requests[i]? with
  | some r =>
    match r.phase with
    | .finding .. => p.setPhase i (.settled (.error .hydro))
    | .sending .. => p.setPhase i (.settled (.error .hydro))
    | _ => p
  | none => p

def outcomeOf (r : Request) : Option (Except Failure String) :=
  match r.phase with
  | .settled outcome => some outcome
  | .finished outcome => some outcome
  | _ => none

def release (p : Plugin) (notificationId : String) : Plugin :=
  { p with inFlight := p.inFlight.erase notificationId }

/- The owner of a settled promise runs its finally block; who joined it gets its outcome. -/
def conclude (p : Plugin) (i : Nat) : Plugin :=
  match p.requests[i]? with
  | some r =>
    match r.phase with
    | .settled outcome =>
      (p.release r.notificationId).setPhase i (.finished outcome)
    | .joined promise =>
      match p.requests[promise]?.bind outcomeOf with
      | some outcome => p.setPhase i (.finished outcome)
      | none => p
    | _ => p
  | none => p

def load (p : Plugin) : Plugin :=
  let loaded := p.file.items.foldl (fun (loaded : Dict String Nat × Heap Entry) item =>
    (loaded.1.set item.1 loaded.2.fresh, loaded.2.allocate item.2)) (Dict.empty, p.heap)
  { p with entries := loaded.1, heap := loaded.2, inFlight := Dict.empty, requests := [] }

/- The journal is saved once before the routes are added, if notifications are allowed at all. -/
def restart (settings : NotifySettings) (p : Plugin) (save : Save) : Plugin :=
  if settings.allowedHosts = [] then { p.load with up := true }
  else
    match saveNotificationIdempotencyState settings p.load save with
    | .saved p => { p with up := true }
    | .failed p => p.crash
    | .crashed p => p

end Plugin

inductive Event where
  | post (body : Body) (createdAt : String) (save : Save)
  | perform (request : Nat) (messageId : String)
  | resume (request : Nat) (save : Save)
  | fail (request : Nat)
  | conclude (request : Nat)
  | crash
  | restart (save : Save)

def Plugin.step (settings : NotifySettings) (p : Plugin) : Event → Plugin
  | .post body createdAt save => if p.up then p.post settings body createdAt save else p
  | .perform i messageId => p.perform i messageId
  | .resume i save => p.resume settings i save
  | .fail i => p.fail i
  | .conclude i => p.conclude i
  | .crash => p.crash
  | .restart save => if p.up then p else p.restart settings save

/- One message for an id -/

def Phase.owns : Phase → Bool
  | .finding .. | .sending .. | .settled _ => true
  | _ => false

def Phase.works : Phase → Bool
  | .finding .. | .sending .. => true
  | _ => false

/-- The request has looked for the message in vain and has not inserted it. -/
def Phase.clear : Phase → Bool
  | .finding _ (some none) | .sending _ none => true
  | _ => false

structure Sound (p : Plugin) : Prop where
  owned : ∀ (i : Nat) (r : Request), p.requests[i]? = some r → r.phase.owns = true →
    ∃ fingerprint, p.inFlight.get? r.notificationId = some ⟨fingerprint, i⟩
  first : ∀ (i : Nat) (r : Request), p.requests[i]? = some r → r.phase.works = true →
    p.received.lookup r.notificationId = some r.payload
  clear : ∀ (i : Nat) (r : Request), p.requests[i]? = some r → r.phase.clear = true →
    ∀ m ∈ p.messages, m.notificationId ≠ r.notificationId
  single : (p.messages.map (·.notificationId)).Nodup
  author : ∀ m ∈ p.messages, p.received.lookup m.notificationId = some m.payload ∧
    m.uid = m.payload.uid ∧ m.content = notificationContent m.payload m.notificationId

/-- What the journal is apart from. -/
structure Same (p p' : Plugin) : Prop where
  requests : p'.requests = p.requests
  inFlight : p'.inFlight = p.inFlight
  messages : p'.messages = p.messages
  received : p'.received = p.received

section Steps
variable {settings : NotifySettings} {p p' : Plugin}

theorem Sound.same (sound : Sound p) (same : Same p p') : Sound p' := by
  obtain ⟨requests, inFlight, messages, received⟩ := same
  constructor
  · rw [requests, inFlight]
    exact sound.owned
  · rw [requests, received]
    exact sound.first
  · rw [requests, messages]
    exact sound.clear
  · rw [messages]
    exact sound.single
  · rw [messages, received]
    exact sound.author

theorem Sound.crash (sound : Sound p) (idle : p'.requests = [])
    (messages : p'.messages = p.messages) (received : p'.received = p.received) : Sound p' := by
  constructor
  · simp [idle]
  · simp [idle]
  · simp [idle]
  · rw [messages]
    exact sound.single
  · rw [messages, received]
    exact sound.author

open Plugin in
theorem save_same (save : Save) :
    match saveNotificationIdempotencyState settings p save with
    | .saved p' => Same p p'
    | .failed p' => Same p p'
    | .crashed p' => p'.requests = [] ∧ p'.messages = p.messages ∧ p'.received = p.received := by
  have pruned : Same p (p.pruneNotificationIdempotencyState settings.maxEntries) := by
    unfold pruneNotificationIdempotencyState
    split <;> exact ⟨rfl, rfl, rfl, rfl⟩
  obtain ⟨requests, inFlight, messages, received⟩ := pruned
  cases save with
  | saved => exact ⟨requests, inFlight, messages, received⟩
  | failed written => cases written <;> exact ⟨requests, inFlight, messages, received⟩
  | crashed written => cases written <;> exact ⟨rfl, messages, received⟩

theorem Phase.owns_of_works {phase : Phase} (works : phase.works = true) : phase.owns = true := by
  cases phase <;> first | rfl | cases works

theorem Phase.works_of_clear {phase : Phase} (clear : phase.clear = true) : phase.works = true := by
  cases phase <;> first | rfl | cases clear

theorem request_at {r r' : Request} {i : Nat} (found : (p.request r).requests[i]? = some r') :
    p.requests[i]? = some r' ∨ (i = p.requests.length ∧ r' = r) := by
  have found : (p.requests ++ [r])[i]? = some r' := found
  rcases Nat.lt_trichotomy i p.requests.length with old | rfl | past
  · rw [List.getElem?_append_left old] at found
    exact .inl found
  · rw [List.getElem?_concat_length] at found
    exact .inr ⟨rfl, (Option.some.inj found).symm⟩
  · rw [List.getElem?_eq_none (by simp; omega)] at found
    cases found

theorem Sound.request (sound : Sound p) {r : Request} (idle : r.phase.owns = false) :
    Sound (p.request r) := by
  have busy {i : Nat} {r' : Request} (found : (p.request r).requests[i]? = some r')
      (owns : r'.phase.owns = true) : p.requests[i]? = some r' := by
    rcases request_at found with old | ⟨_, rfl⟩
    · exact old
    · rw [idle] at owns
      cases owns
  constructor
  · exact fun i r' found owns => sound.owned i r' (busy found owns) owns
  · exact fun i r' found works =>
      sound.first i r' (busy found (Phase.owns_of_works works)) works
  · exact fun i r' found clear => sound.clear i r'
      (busy found (Phase.owns_of_works (Phase.works_of_clear clear))) clear
  · exact sound.single
  · exact sound.author

/- The owner of a new promise. -/
theorem Sound.own (sound : Sound p) {id fingerprint : String} {payload : Payload} {phase : Phase}
    (free : p.inFlight.get? id = none) (first : p.received.lookup id = some payload)
    (blank : phase.clear = false) :
    Sound ((p.request ⟨id, payload, phase⟩).own id fingerprint p.requests.length) := by
  constructor
  · intro i r found owns
    rcases request_at found with old | ⟨rfl, rfl⟩
    · obtain ⟨fingerprint', held⟩ := sound.owned i r old owns
      have other : r.notificationId ≠ id := by
        rintro rfl
        rw [free] at held
        cases held
      exact ⟨fingerprint', (Dict.get?_set_ne other).trans held⟩
    · exact ⟨fingerprint, Dict.get?_set_self⟩
  · intro i r found works
    rcases request_at found with old | ⟨_, rfl⟩
    · exact sound.first i r old works
    · exact first
  · intro i r found clear
    rcases request_at found with old | ⟨_, rfl⟩
    · exact sound.clear i r old clear
    · rw [blank] at clear
      cases clear
  · exact sound.single
  · exact sound.author

theorem setPhase_at {i j : Nat} {phase : Phase} {r' : Request}
    (found : (p.setPhase i phase).requests[j]? = some r') :
    (i ≠ j ∧ p.requests[j]? = some r') ∨
      i = j ∧ ∃ r, p.requests[j]? = some r ∧ r' = { r with phase } := by
  rw [Plugin.setPhase, List.getElem?_modify, Option.map_eq_map, Option.map_eq_some_iff] at found
  obtain ⟨r, old, rfl⟩ := found
  by_cases same : i = j
  · exact .inr ⟨same, r, old, by simp [same]⟩
  · exact .inl ⟨same, by simpa [same] using old⟩

/- A request goes on to another phase. -/
theorem Sound.setPhase (sound : Sound p) {i : Nat} {r : Request} {phase : Phase}
    (found : p.requests[i]? = some r) (owns : phase.owns = true → r.phase.owns = true)
    (works : phase.works = true → r.phase.works = true)
    (clear : phase.clear = true → ∀ m ∈ p.messages, m.notificationId ≠ r.notificationId) :
    Sound (p.setPhase i phase) := by
  constructor
  · intro j r' found' owns'
    rcases setPhase_at found' with ⟨_, old⟩ | ⟨rfl, r'', old, rfl⟩
    · exact sound.owned j r' old owns'
    · obtain rfl : r = r'' := by simpa [found] using old
      exact sound.owned i r found (owns owns')
  · intro j r' found' works'
    rcases setPhase_at found' with ⟨_, old⟩ | ⟨rfl, r'', old, rfl⟩
    · exact sound.first j r' old works'
    · obtain rfl : r = r'' := by simpa [found] using old
      exact sound.first i r found (works works')
  · intro j r' found' clear'
    rcases setPhase_at found' with ⟨_, old⟩ | ⟨rfl, r'', old, rfl⟩
    · exact sound.clear j r' old clear'
    · obtain rfl : r = r'' := by simpa [found] using old
      exact clear clear'
  · exact sound.single
  · exact sound.author

/- The owner gives its promise up. -/
theorem Sound.release (sound : Sound p) {i : Nat} {r : Request} {outcome : Except Failure String}
    (found : p.requests[i]? = some r) (owns : r.phase.owns = true) :
    Sound ((p.release r.notificationId).setPhase i (.finished outcome)) := by
  obtain ⟨fingerprint, held⟩ := sound.owned i r found owns
  constructor
  · intro j r' found' owns'
    rcases setPhase_at found' with ⟨other, old⟩ | ⟨rfl, r'', old, rfl⟩
    · obtain ⟨fingerprint', held'⟩ := sound.owned j r' old owns'
      have distinct : r'.notificationId ≠ r.notificationId := by
        intro same
        rw [same, held] at held'
        exact other (congrArg InFlight.promise (Option.some.inj held'))
      exact ⟨fingerprint', by
        simp [Plugin.release, Plugin.setPhase, Dict.get?_erase, distinct, held']⟩
    · cases owns'
  · intro j r' found' works'
    rcases setPhase_at found' with ⟨_, old⟩ | ⟨rfl, r'', old, rfl⟩
    · exact sound.first j r' old works'
    · cases works'
  · intro j r' found' clear'
    rcases setPhase_at found' with ⟨_, old⟩ | ⟨rfl, r'', old, rfl⟩
    · exact sound.clear j r' old clear'
    · cases clear'
  · exact sound.single
  · exact sound.author

/- The only step that makes a message: the owner of the id, which found none. -/
theorem Sound.insert (sound : Sound p) {i ref : Nat} {r : Request}
    (found : p.requests[i]? = some r) (sending : r.phase = .sending ref none)
    (messageId : String) :
    Sound ((p.insert r messageId).setPhase i (.sending ref (some messageId))) := by
  have first := sound.first i r found (by rw [sending]; rfl)
  have absent := sound.clear i r found (by rw [sending]; rfl)
  have held := sound.owned i r found (by rw [sending]; rfl)
  constructor
  · intro j r' found' owns'
    rcases setPhase_at found' with ⟨_, old⟩ | ⟨rfl, r'', old, rfl⟩
    · exact sound.owned j r' old owns'
    · obtain rfl : r = r'' := by simpa [Plugin.insert, found] using old
      exact held
  · intro j r' found' works'
    rcases setPhase_at found' with ⟨_, old⟩ | ⟨rfl, r'', old, rfl⟩
    · exact sound.first j r' old works'
    · obtain rfl : r = r'' := by simpa [Plugin.insert, found] using old
      exact first
  · intro j r' found' clear' m mem
    rcases setPhase_at found' with ⟨other, old⟩ | ⟨rfl, r'', old, rfl⟩
    · rcases List.mem_append.mp mem with before | new
      · exact sound.clear j r' old clear' m before
      · -- Two owners of one id would share its promise.
        rw [List.mem_singleton.mp new]
        intro same
        obtain ⟨fingerprint, mine⟩ := held
        obtain ⟨fingerprint', other'⟩ := sound.owned j r' old
          (Phase.owns_of_works (Phase.works_of_clear clear'))
        rw [← same, mine] at other'
        exact other (congrArg InFlight.promise (Option.some.inj other'))
    · cases clear'
  · have fresh : r.notificationId ∉ p.messages.map (·.notificationId) := by
      intro mem
      obtain ⟨m, mem', same⟩ := List.mem_map.mp mem
      exact absent m mem' same
    have distinct := List.Nodup.append sound.single (List.nodup_singleton r.notificationId)
      (by simpa using fresh)
    simpa [Plugin.insert, Plugin.setPhase] using distinct
  · intro m mem
    rcases List.mem_append.mp mem with before | new
    · exact sound.author m before
    · rw [List.mem_singleton.mp new]
      exact ⟨first, rfl, rfl⟩

theorem begin_sound (sound : Sound p) {id : String} {payload : Payload}
    (free : p.inFlight.get? id = none) (first : p.received.lookup id = some payload)
    (createdAt : String) (save : Save) :
    Sound (p.begin settings id payload createdAt save) := by
  unfold Plugin.begin
  dsimp only
  split
  · split
    · split
      · exact sound.own free first rfl
      · exact sound.own free first rfl
    · exact sound.own free first rfl
  · have reserved : Same p (p.reserve id (notificationFingerprint payload) createdAt) :=
      ⟨rfl, rfl, rfl, rfl⟩
    have saved := @save_same settings (p.reserve id (notificationFingerprint payload) createdAt)
      save
    have owned {p' : Plugin} (same : Same (p.reserve id (notificationFingerprint payload)
        createdAt) p') (phase : Phase) (blank : phase.clear = false) :
        Sound ((p'.request ⟨id, payload, phase⟩).own id (notificationFingerprint payload)
          p'.requests.length) :=
      Sound.own ((sound.same reserved).same same) (by rw [same.inFlight]; exact free)
        (by rw [same.received]; exact first) blank
    split
    · rename_i p' ended
      rw [ended] at saved
      exact owned saved _ rfl
    · rename_i p' ended
      rw [ended] at saved
      exact owned saved _ rfl
    · rename_i p' ended
      rw [ended] at saved
      exact sound.crash saved.1 saved.2.1 saved.2.2

theorem serve_sound (sound : Sound p) {id : String} {payload : Payload}
    (first : ¬ p.Reserved id payload → p.received.lookup id = some payload) (createdAt : String)
    (save : Save) : Sound (p.serve settings id payload createdAt save) := by
  unfold Plugin.serve
  dsimp only
  split
  · exact sound.request rfl
  · rename_i unreserved
    split
    · split
      · exact sound.request rfl
      · exact sound.request rfl
    · rename_i free
      exact begin_sound sound free (first unreserved) createdAt save

theorem received_sound (sound : Sound p) (id : String) (payload : Payload) :
    Sound { p with received := p.received ++ [(id, payload)] } := by
  have kept {id' : String} {payload' : Payload}
      (known : p.received.lookup id' = some payload') :
      (p.received ++ [(id, payload)]).lookup id' = some payload' := by
    rw [List.lookup_append, known, Option.some_or]
  constructor
  · exact sound.owned
  · exact fun i r found works => kept (sound.first i r found works)
  · exact sound.clear
  · exact sound.single
  · exact fun m mem => ⟨kept (sound.author m mem).1, (sound.author m mem).2⟩

theorem finish_sound (sound : Sound p) {i ref : Nat} {r : Request}
    (found : p.requests[i]? = some r) (works : r.phase.works = true) (messageId : String)
    (save : Save) : Sound (p.finish settings i ref messageId save) := by
  unfold Plugin.finish
  dsimp only
  have completed : Same p (p.completeEntry ref messageId) := ⟨rfl, rfl, rfl, rfl⟩
  have saved := @save_same settings (p.completeEntry ref messageId) save
  have settled {p' : Plugin} (same : Same (p.completeEntry ref messageId) p')
      (outcome : Except Failure String) : Sound (p'.setPhase i (.settled outcome)) :=
    ((sound.same completed).same same).setPhase (by rw [same.requests]; exact found)
      (fun _ => Phase.owns_of_works works) (fun works' => by cases works')
      (fun clear => by cases clear)
  split
  · rename_i p' ended
    rw [ended] at saved
    exact settled saved _
  · rename_i p' ended
    rw [ended] at saved
    exact settled saved _
  · rename_i p' ended
    rw [ended] at saved
    exact sound.crash saved.1 saved.2.1 saved.2.2

/- A search that finds nothing shows that no message of the id exists. -/
theorem find_none (sound : Sound p) {i : Nat} {r : Request} (found : p.requests[i]? = some r)
    (works : r.phase.works = true) (nothing : p.findOne r = none) :
    ∀ m ∈ p.messages, m.notificationId ≠ r.notificationId := by
  intro m mem same
  obtain ⟨first, uid, content⟩ := sound.author m mem
  have payload : m.payload = r.payload := by
    rw [same, sound.first i r found works] at first
    exact (Option.some.inj first).symm
  have missed := List.find?_eq_none.mp (Option.map_eq_none_iff.mp nothing) m mem
  simp [uid, content, payload, same] at missed

theorem perform_sound (sound : Sound p) (i : Nat) (messageId : String) :
    Sound (p.perform i messageId) := by
  unfold Plugin.perform
  split
  · rename_i r found
    split
    · rename_i ref looking
      have works : r.phase.works = true := by rw [looking]; rfl
      refine sound.setPhase found (fun _ => Phase.owns_of_works works) (fun _ => works) ?_
      intro clear
      cases seen : p.findOne r with
      | none => exact find_none sound found works seen
      | some m =>
        rw [seen] at clear
        cases clear
    · rename_i ref sending
      exact sound.insert found sending messageId
    · exact sound
  · exact sound

theorem resume_sound (sound : Sound p) (i : Nat) (save : Save) :
    Sound (p.resume settings i save) := by
  unfold Plugin.resume
  split
  · rename_i r found
    split
    · rename_i ref missed
      have works : r.phase.works = true := by rw [missed]; rfl
      exact sound.setPhase found (fun _ => Phase.owns_of_works works) (fun _ => works)
        fun _ => sound.clear i r found (by rw [missed]; rfl)
    · rename_i ref messageId hit
      exact finish_sound sound found (by rw [hit]; rfl) messageId save
    · rename_i ref messageId sent
      exact finish_sound sound found (by rw [sent]; rfl) messageId save
    · exact sound
  · exact sound

theorem fail_sound (sound : Sound p) (i : Nat) : Sound (p.fail i) := by
  have thrown {r : Request} (found : p.requests[i]? = some r) (works : r.phase.works = true) :
      Sound (p.setPhase i (.settled (.error .hydro))) :=
    sound.setPhase found (fun _ => Phase.owns_of_works works) (fun works' => by cases works')
      (fun clear => by cases clear)
  unfold Plugin.fail
  split
  · rename_i r found
    split
    · rename_i finding
      exact thrown found (by rw [finding]; rfl)
    · rename_i sending
      exact thrown found (by rw [sending]; rfl)
    · exact sound
  · exact sound

theorem conclude_sound (sound : Sound p) (i : Nat) : Sound (p.conclude i) := by
  unfold Plugin.conclude
  split
  · rename_i r found
    split
    · rename_i outcome settled
      exact sound.release found (by rw [settled]; rfl)
    · split
      · exact sound.setPhase found (fun owns => by cases owns) (fun works => by cases works)
          (fun clear => by cases clear)
      · exact sound
    · exact sound
  · exact sound

theorem restart_sound (sound : Sound p) (save : Save) : Sound (p.restart settings save) := by
  have loaded : Sound p.load := sound.crash rfl rfl rfl
  unfold Plugin.restart
  split
  · exact loaded.same ⟨rfl, rfl, rfl, rfl⟩
  · have saved := @save_same settings p.load save
    split
    · rename_i p' ended
      rw [ended] at saved
      exact (loaded.same saved).same ⟨rfl, rfl, rfl, rfl⟩
    · rename_i p' ended
      rw [ended] at saved
      exact (loaded.same saved).crash rfl rfl rfl
    · rename_i p' ended
      rw [ended] at saved
      exact loaded.crash saved.1 saved.2.1 saved.2.2

/-- A request with another payload than the first one of its id comes while the journal has an
    entry of the id with another fingerprint. -/
def Admissible (settings : NotifySettings) (p : Plugin) : Event → Prop
  | .post body _ _ =>
    match body.parse settings with
    | .error _ => True
    | .ok payload => p.up = true →
      (∀ first ∈ p.received.lookup body.notificationId, payload = first) ∨
        p.Reserved body.notificationId payload
  | _ => True

instance (settings : NotifySettings) (p : Plugin) : (event : Event) →
    Decidable (Admissible settings p event)
  | .post body _ _ => by
    unfold Admissible
    dsimp only
    split <;> infer_instance
  | .perform .. | .resume .. | .fail _ | .conclude _ | .crash | .restart _ => isTrue trivial

theorem step_sound (p : Plugin) (event : Event) (sound : Sound p)
    (admissible : Admissible settings p event) : Sound (p.step settings event) := by
  cases event with
  | post body createdAt save =>
    rw [Plugin.step]
    split
    · rename_i up
      unfold Plugin.post
      split
      · exact sound
      · rename_i payload parsed
        refine serve_sound (received_sound sound _ _) ?_ createdAt save
        intro unreserved
        rw [Admissible, parsed] at admissible
        rcases admissible up with same | reserved
        · dsimp only
          rw [List.lookup_append]
          cases known : p.received.lookup body.notificationId with
          | none => simp
          | some first => simp [same first known]
        · exact absurd reserved unreserved
    · exact sound
  | perform i messageId => exact perform_sound sound i messageId
  | resume i save => exact resume_sound sound i save
  | fail i => exact fail_sound sound i
  | conclude i => exact conclude_sound sound i
  | crash => exact sound.crash rfl rfl rfl
  | restart save =>
    rw [Plugin.step]
    split
    · exact sound
    · exact restart_sound sound save

end Steps

theorem installed_sound : Sound Plugin.installed := by
  constructor <;> simp [Plugin.installed]

/-- In every run whose requests are admissible, a notification id has at most one message, and
    only the payload that the id was first used with made one. -/
theorem notification_created_at_most_once (settings : NotifySettings) (events : List Event)
    (admissible : Runs.Guarded (Plugin.step settings) (Admissible settings) Plugin.installed
      events) :
    let p := Runs.run (Plugin.step settings) Plugin.installed events
    (p.messages.map (·.notificationId)).Nodup ∧
      ∀ m ∈ p.messages, p.received.lookup m.notificationId = some m.payload := by
  have sound : Sound (Runs.run (Plugin.step settings) Plugin.installed events) :=
    Runs.guarded_run_invariant Sound step_sound installed_sound admissible
  exact ⟨sound.single, fun m mem => (sound.author m mem).1⟩

def sampleSettings : NotifySettings where
  token := "orchestrator-token"
  maxEntries := 100
  allowedHosts := ["desk.example"]
  normalizeUrl _ url := some url

def sampleBody (uid : Int) : Body where
  headerToken := some "orchestrator-token"
  onlyKnownFields := true
  notificationId := String.ofList (List.replicate 64 'a')
  purpose := "seat_ready"
  uid
  contestTitle := .text "C"
  desktopUrl := .text "https://desk.example/"
  candidate := .text "1"
  studentPassword := .text "p"
  availableAt := .undefined

/- The message is inserted, but the process stops before the request knows. -/
def sentUnnoticed (request : Nat) : List Event :=
  [.perform request "", .resume request .saved, .perform request "m1", .crash, .restart .saved]

/- The retry after the restart finds the message. -/
theorem retry_finds_message :
    let p := Runs.run (Plugin.step sampleSettings) Plugin.installed
      ([.restart .saved, .post (sampleBody 7) "t" .saved] ++ sentUnnoticed 0 ++
        [.post (sampleBody 7) "t" .saved, .perform 0 "", .resume 0 .saved])
    (p.messages.map (·.notificationId)).Nodup ∧
      ∀ m ∈ p.messages, p.received.lookup m.notificationId = some m.payload :=
  notification_created_at_most_once sampleSettings _ (by decide +kernel)

/- The reservation could not be saved, and the next request with it goes on without saving. After
   a crash the journal knows nothing of the id, and another payload makes a second message. -/
theorem unsaved_reservation_forgotten :
    (Runs.run (Plugin.step sampleSettings) Plugin.installed
      ([.restart .saved, .post (sampleBody 7) "t" (.failed false), .conclude 0,
        .post (sampleBody 7) "t" .saved] ++ sentUnnoticed 1 ++
        [.post (sampleBody 8) "t" .saved, .perform 0 "", .resume 0 .saved,
          .perform 0 "m2"])).messages.map (fun m => (m.notificationId, m.payload.uid)) =
      [((sampleBody 7).notificationId, 7), ((sampleBody 8).notificationId, 8)] := by
  decide +kernel

end NoiContest.HydroPlugin.Notify
