import Mathlib.Data.List.Sort
import Mathlib.Data.Rat.Floor
import NoiContest.Lib.Dict
import NoiContest.Lib.Effect
import NoiContest.Lib.Heap
import NoiContest.Lib.JsonText
import NoiContest.Lib.PyText
import NoiContest.Lib.Sha256

/- The submit idempotency journal of the Hydro plugin: the entries in memory, the file that
   survives a crash, and what the plugin asked Hydro to do. Entries are shared objects, so a
   request that fetched one keeps it whatever happens to the journal map. -/
namespace NoiContest.HydroPlugin

structure Settings where
  token : String
  domain : String := "system"
  maxCodeBytes : Nat
  maxEntries : Nat
  /-- `ObjectId.isValid` of the bson package. -/
  isObjectId : String → Bool
  /-- Language keys of Hydro with their `disabled` flag. -/
  langs : List (String × Bool)

inductive Failure where
  | invalidToken | badRequest (what : String) | codeTooLarge | submissionConflict
  | submissionAmbiguous | problemNotFound | contestNotAttended | contestNotLive
  | problemDraftConflict | journalSave | hydro | typeError
  deriving DecidableEq, Repr

inductive EntryPhase where
  | reserved | recordCreated
  deriving DecidableEq, Repr

/- Journals written by older versions lack some of the fields. -/
structure Entry where
  fingerprint : String
  rid : String := ""
  contestDocId : Option String := none
  problemDocId : Option Int := none
  publicPid : Option String := none
  uid : Option Int := none
  lang : Option String := none
  statusUpdated : Bool := false
  problemCounted : Bool := false
  userCounted : Bool := false
  complete : Bool := false
  phase : EntryPhase := .reserved
  createdAt : String := ""
  deriving DecidableEq, Repr

/- The record id that Hydro prints; a printed ObjectId is never empty. -/
structure Rid where
  text : String
  nonempty : text ≠ ""
  deriving DecidableEq

inductive AddOutcome where
  | running | returned (rid : Rid) | threw
  deriving DecidableEq

/-- A call of `RecordModel.add` for a journal entry. -/
structure AddCall where
  submissionId : String
  entry : Nat
  outcome : AddOutcome
  deriving DecidableEq

/-- A call of `ContestModel.updateStatus`. -/
structure StatusUpdate where
  submissionId : String
  rid : String
  deriving DecidableEq

structure InFlight where
  fingerprint : String
  promise : Nat
  deriving DecidableEq

/- What a process holds in memory, the journal file, and the calls made so far. The last
   field records the largest size the journal ever had. -/
structure Journal where
  entries : Dict String Nat
  heap : Heap (String × Entry)
  inFlight : Dict String InFlight
  resolving : Dict String Nat
  file : Dict String Entry
  adds : List AddCall
  statusUpdates : List StatusUpdate
  peak : Nat

inductive Save where
  | saved | failed (written : Bool) | crashed (written : Bool)
  deriving DecidableEq, Repr

inductive Fault where
  | crash | raised (failure : Failure)
  deriving DecidableEq, Repr

/- A synchronous stretch of the event loop, with the outcomes of its next file writes. -/
abbrev Section := EStateM Fault (Journal × List Save)

def readJournal : Section Journal := do return (← get).1

def modifyJournal (f : Journal → Journal) : Section Unit := modify fun w => (f w.1, w.2)

def raise {α : Type} (failure : Failure) : Section α := throw (.raised failure)

/-- A property read on a missing object is a TypeError. -/
def readEntry (ref : Nat) : Section Entry := do
  match (← readJournal).heap.read ref with
  | some object => return object.2
  | none => raise .typeError

def Journal.modifyEntry (j : Journal) (ref : Nat) (f : Entry → Entry) : Journal :=
  { j with heap := j.heap.modify ref fun object => (object.1, f object.2) }

def modifyEntry (ref : Nat) (f : Entry → Entry) : Section Unit :=
  modifyJournal (·.modifyEntry ref f)

def Journal.entryOf (j : Journal) (submissionId : String) : Option Entry := do
  let ref ← j.entries.get? submissionId
  let object ← j.heap.read ref
  return object.2

/- Only complete entries are removable, oldest first. Ties keep the journal's order. -/
def Journal.prune (maxEntries : Nat) (j : Journal) : Journal :=
  if j.entries.size ≤ maxEntries then j
  else
    let completed := j.entries.items.filterMap fun item =>
      (j.heap.read item.2).bind fun object =>
        if object.2.complete then some (item.1, object.2.createdAt) else none
    let removable := completed.insertionSort (fun a b => a.2 ≤ b.2)
    let removed := (removable.take (j.entries.size - maxEntries)).map Prod.fst
    { j with entries := j.entries.filter fun item => !removed.contains item.1 }

/-- `JSON.stringify(idempotencyState)` keeps every entry under its submission id. -/
def Journal.image (j : Journal) : Dict String Entry :=
  j.entries.mapValues fun _ ref =>
    match j.heap.read ref with
    | some object => object.2
    | none => { fingerprint := "" }

def Journal.write (j : Journal) : Journal := { j with file := j.image }

def nextSave : Section Save := modifyGet fun w => (w.2.headD .saved, (w.1, w.2.tail))

/- The rename is atomic, and what follows it can still raise. -/
def saveIdempotencyState (settings : Settings) : Section Unit := do
  modifyJournal (·.prune settings.maxEntries)
  match ← nextSave with
  | .saved => modifyJournal (·.write)
  | .failed written =>
    if written then modifyJournal (·.write)
    raise .journalSave
  | .crashed written =>
    if written then modifyJournal (·.write)
    throw .crash

/-- `idempotencyState.entries[submissionId] = entry` for an entry that was just built. -/
def Journal.insertEntry (j : Journal) (submissionId : String) (entry : Entry) : Journal :=
  let entries := j.entries.set submissionId j.heap.fresh
  { j with entries, heap := j.heap.allocate (submissionId, entry),
           peak := max j.peak entries.size }

def insertEntry (submissionId : String) (entry : Entry) : Section Nat := do
  let ref := (← readJournal).heap.fresh
  modifyJournal (·.insertEntry submissionId entry)
  return ref

def Journal.callAdd (j : Journal) (submissionId : String) (entry : Nat) : Journal :=
  { j with adds := j.adds ++ [⟨submissionId, entry, .running⟩] }

def callAdd (submissionId : String) (entry : Nat) : Section Nat := do
  let call := (← readJournal).adds.length
  modifyJournal (·.callAdd submissionId entry)
  return call

def Journal.endAdd (j : Journal) (call : Nat) (outcome : AddOutcome) : Journal :=
  { j with adds := j.adds.modify call fun a => { a with outcome } }

def endAdd (call : Nat) (outcome : AddOutcome) : Section Unit :=
  modifyJournal (·.endAdd call outcome)

def Journal.callUpdateStatus (j : Journal) (submissionId rid : String) : Journal :=
  { j with statusUpdates := j.statusUpdates ++ [⟨submissionId, rid⟩] }

def callUpdateStatus (submissionId rid : String) : Section Unit :=
  modifyJournal (·.callUpdateStatus submissionId rid)

/- The journal of a process that is down: only the file is left. -/
def Journal.drop (j : Journal) : Journal :=
  { j with entries := Dict.empty, inFlight := Dict.empty, resolving := Dict.empty }

def loadEntry (loaded : Dict String Nat × Heap (String × Entry)) (item : String × Entry) :
    Dict String Nat × Heap (String × Entry) :=
  (loaded.1.set item.1 loaded.2.fresh, loaded.2.allocate item)

/-- `loadIdempotencyState`: every entry of the file becomes a new object. -/
def Journal.load (j : Journal) : Journal :=
  let loaded := j.file.items.foldl loadEntry (Dict.empty, j.heap)
  { j with entries := loaded.1, heap := loaded.2, inFlight := Dict.empty,
           resolving := Dict.empty, peak := max j.peak j.file.size }

end NoiContest.HydroPlugin
