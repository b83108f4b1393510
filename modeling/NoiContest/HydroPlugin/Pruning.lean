import Mathlib.Data.Rat.Defs
import NoiContest.Lib.Eviction

/- The four journals of the plugin and the pruners of one shape that keep them within their
   limits. An entry is whatever JSON.parse or a request put there: only `complete` and
   `createdAt` are read. -/
namespace NoiContest.HydroPlugin.Pruning

inductive Value where
  | undefined | null
  | boolean (b : Bool)
  | number (n : ℚ)
  | string (s : String)
  | array (items : List Value)
  | object (fields : List (String × Value))

def Value.truthy : Value → Bool
  | .undefined => false
  | .null => false
  | .boolean b => b
  | .number n => n != 0
  | .string s => s != ""
  | .array _ => true
  | .object _ => true

/- `String(value)`; the printing of numbers, arrays and objects is left to the language. -/
def Value.text (print : Value → String) : Value → String
  | .undefined => "undefined"
  | .null => "null"
  | .boolean b => if b then "true" else "false"
  | .string s => s
  | value => print value

/-- `localeCompare` under some locale: consistent, with equal rank for texts it does not tell
    apart. -/
structure Locale where
  print : Value → String
  localeCompare : String → String → Int
  total : ∀ a b, localeCompare a b ≤ 0 ∨ localeCompare b a ≤ 0
  trans : ∀ a b c, localeCompare a b ≤ 0 → localeCompare b c ≤ 0 → localeCompare a c ≤ 0

structure JournalEntry where
  complete : Value := .undefined
  createdAt : Value := .undefined
  others : List (String × Value) := []

def JournalEntry.isComplete (entry : JournalEntry) : Bool := entry.complete.truthy

namespace Locale

/-- The comparator of the sort: not newer. -/
def createdBefore (locale : Locale) (left right : JournalEntry) : Bool :=
  locale.localeCompare (left.createdAt.text locale.print) (right.createdAt.text locale.print) ≤ 0

theorem createdBefore_total (locale : Locale) (a b : JournalEntry) :
    locale.createdBefore a b = true ∨ locale.createdBefore b a = true := by
  simpa [createdBefore] using locale.total _ _

theorem createdBefore_trans (locale : Locale) (a b c : JournalEntry)
    (first : locale.createdBefore a b = true) (second : locale.createdBefore b c = true) :
    locale.createdBefore a c = true :=
  decide_eq_true (locale.trans _ _ _ (of_decide_eq_true first) (of_decide_eq_true second))

/- The shape that the four pruners share. -/
def pruneEntries (locale : Locale) (limit : Int) (entries : Dict String JournalEntry) :
    Dict String JournalEntry :=
  if (entries.size : Int) ≤ limit then entries
  else
    let removeCount := (entries.size - limit).toNat
    entries.evict locale.createdBefore JournalEntry.isComplete removeCount

end Locale

/- The limits are safe integers of at least 100 once the plugin has started. -/
structure Limits where
  idempotency : Int := 20000
  notificationIdempotency : Int := 20000
  problemDraftIdempotency : Int := 2000
  materialIdempotency : Int := 2000

structure Journals where
  idempotency : Dict String JournalEntry
  notificationIdempotency : Dict String JournalEntry
  problemDraftIdempotency : Dict String JournalEntry
  materialIdempotency : Dict String JournalEntry

namespace Journals
variable (locale : Locale) (limits : Limits) (state : Journals)

def pruneIdempotencyState : Journals :=
  let entries := locale.pruneEntries limits.idempotency state.idempotency
  { state with idempotency := entries }

def pruneNotificationIdempotencyState : Journals :=
  let entries := locale.pruneEntries limits.notificationIdempotency state.notificationIdempotency
  { state with notificationIdempotency := entries }

def pruneProblemDraftIdempotencyState : Journals :=
  let entries := locale.pruneEntries limits.problemDraftIdempotency state.problemDraftIdempotency
  { state with problemDraftIdempotency := entries }

def pruneMaterialIdempotencyState : Journals :=
  let entries := locale.pruneEntries limits.materialIdempotency state.materialIdempotency
  { state with materialIdempotency := entries }

end Journals

def completeCount (entries : Dict String JournalEntry) : Nat :=
  entries.items.countP fun item => item.2.isComplete

/-- What pruning to a limit may do to a journal. -/
structure Pruned (locale : Locale) (limit : Int) (before after : Dict String JournalEntry) :
    Prop where
  untouched : ∀ id entry, after.get? id = some entry → before.get? id = some entry
  complete_only : ∀ id entry, before.get? id = some entry → after.get? id = none →
    entry.isComplete = true
  incomplete_stay : ∀ id entry, before.get? id = some entry → entry.isComplete = false →
    after.get? id = some entry
  deleted : after.size + min (before.size - limit).toNat (completeCount before) = before.size
  oldest : ∀ id entry id' entry', before.get? id = some entry → after.get? id = none →
    after.get? id' = some entry' → entry'.isComplete = true →
    locale.createdBefore entry entry' = true

variable {locale : Locale} {limit : Int} {entries : Dict String JournalEntry} {id : String}
  {entry : JournalEntry}

theorem pruneEntries_deleted (present : entries.get? id = some entry)
    (gone : (locale.pruneEntries limit entries).get? id = none) : entry.isComplete = true := by
  unfold Locale.pruneEntries at gone
  split at gone
  · cases gone.symm.trans present
  · exact Dict.evicted_may present gone

theorem pruneEntries_kept (kept : (locale.pruneEntries limit entries).get? id = some entry) :
    entries.get? id = some entry := by
  unfold Locale.pruneEntries at kept
  split at kept
  · exact kept
  · exact Dict.evict_kept kept

theorem pruneEntries_pruned : Pruned locale limit entries (locale.pruneEntries limit entries) where
  untouched _ _ kept := pruneEntries_kept kept
  complete_only _ _ present gone := pruneEntries_deleted present gone
  incomplete_stay id entry present incomplete := by
    cases after : (locale.pruneEntries limit entries).get? id with
    | none =>
      rw [pruneEntries_deleted present after] at incomplete
      cases incomplete
    | some entry' => exact (pruneEntries_kept after).symm.trans present
  deleted := by
    unfold Locale.pruneEntries
    split
    · omega
    · exact Dict.evict_size
  oldest id entry id' entry' present gone kept complete := by
    unfold Locale.pruneEntries at gone kept
    split at gone
    · cases gone.symm.trans present
    · rename_i exceeds
      rw [if_neg exceeds] at kept
      exact Dict.evicted_before locale.createdBefore_total locale.createdBefore_trans present gone
        kept complete

end NoiContest.HydroPlugin.Pruning
