import Mathlib.Algebra.Group.Int.Defs
import Mathlib.Algebra.Ring.Nat
import Mathlib.Data.List.Sort
import Mathlib.Data.List.Dedup
import Mathlib.Data.Prod.Lex
import NoiContest.Lib.Dict
import NoiContest.Lib.Effect
import NoiContest.Lib.Outcome
import NoiContest.Lib.PyValue

/- The notifications of released seats: three tables of all contests, and the teacher's retry of
   the failed ones. The seats are what json.loads makes of the stored pool, whatever that is. -/
namespace NoiContest.SeatNotices
open Effect Outcome

/-- A row of seat_notifications. -/
structure NotificationRow where
  tid : String
  uid : Int
  kind : String
  credentialRevision : Int
  notificationId : String
  state : String
  attempts : Int
  lastError : String
  sentAt : String
  updatedAt : String
  deriving DecidableEq, Repr

def NotificationRow.key (row : NotificationRow) : String × Int × String × Int :=
  (row.tid, row.uid, row.kind, row.credentialRevision)

/- The states of the contests, the JSON texts of the pools and the credential revisions of the
   slots; a pool is the row of a tid, a resource the row of a tid and a slot. -/
structure Tables where
  contests : Dict String String
  pools : Dict String String
  resources : Dict (String × Int) Int
  notifications : List NotificationRow
  primary : (notifications.map NotificationRow.key).Nodup

inductive Failure where
  | keyError (message : String)
  | submissionConflict (message : String)
  | overflowError
  deriving DecidableEq, Repr

abbrev Fields := List (String × PyValue)

/-- `value == s` -/
def equalsText (value : PyValue) (s : String) : Bool :=
  match value with
  | .text t => t == s
  | _ => false

/-- The list of seats; a text that json.loads refuses and any other shape are a ValueError. -/
def seatsOf (loads : String → Option PyValue) (stateJson : String) : Option (List PyValue) :=
  match loads stateJson with
  | some (.mapping fields) =>
    match PyValue.get fields "seats" with
    | .list seats => some seats
    | _ => none
  | _ => none

def releasedSeat : PyValue → Option Fields
  | .mapping fields => if equalsText (PyValue.get fields "state") "released" then some fields
      else none
  | _ => none

/-- The student and the slot, where both are numbers that can be one; True is no number here. -/
def seatNumbers (seat : Fields) : Option (Int × Int) :=
  match PyValue.get seat "uid", PyValue.get seat "slot_no" with
  | .int uid, .int slotNo => if uid ≤ 1 ∨ slotNo ≤ 0 then none else some (uid, slotNo)
  | _, _ => none

/-- A student with the current credential revision of the slot. -/
def credentialKey (revision : Int → Option Int) (seat : Fields) : Option (Int × Int) := do
  let numbers ← seatNumbers seat
  let credentialRevision ← revision numbers.2
  return (numbers.1, credentialRevision)

/-- `kind LIKE 'seat_reminder:%'`: an underscore is any character, and case does not count. -/
def likeSeatReminder (kind : String) : Bool :=
  let pattern := "seat_reminder:".toList
  pattern.length ≤ kind.length && (pattern.zip kind.toList).all fun pair =>
    pair.1 == '_' || pair.1 == pair.2.toLower

def isSeatNotice (kind : String) : Bool := kind == "seat_ready" || likeSeatReminder kind

namespace Tables
variable (tables : Tables)

def revision (tid : String) (slotNo : Int) : Option Int := tables.resources.get? (tid, slotNo)

/-- The rows that a statement for a key changes. -/
def failedFor (tid : String) (key : Int × Int) (row : NotificationRow) : Bool :=
  row.tid == tid && row.uid == key.1 && isSeatNotice row.kind &&
    row.credentialRevision == key.2 && row.state == "permanent_failed"

def requeueRow (now : String) (row : NotificationRow) : NotificationRow :=
  { row with state := "pending", lastError := "", updatedAt := now }

/-- One UPDATE statement, with the number of its rows. -/
def requeue (tid : String) (now : String) (key : Int × Int) (tables : Tables) : Nat × Tables :=
  (tables.notifications.countP (failedFor tid key),
   { tables with
     notifications := tables.notifications.map fun row =>
       if failedFor tid key row then requeueRow now row else row
     primary := by
       rw [List.map_map]
       refine (congrArg List.Nodup (List.map_congr_left fun row _ => ?_)).mpr tables.primary
       simp only [Function.comp_apply]
       split <;> rfl })

/-- The keys of a pool's released seats, or what stands against a retry. -/
def retryKeys (loads : String → Option PyValue) (tid : String) :
    Except Failure (List (Int × Int)) := do
  match tables.contests.get? tid with
  | none => throw (.keyError "比赛不存在")
  | some state =>
    if state ≠ "ready" then throw (.submissionConflict "只有已就绪比赛可以重试入口通知")
  match tables.pools.get? tid with
  | none => throw (.submissionConflict "比赛缺少可重试的座位池")
  | some stateJson =>
    match seatsOf loads stateJson with
    | none => throw (.submissionConflict "座位池状态无效，拒绝重试通知")
    | some seats =>
      match (seats.filterMap releasedSeat).mapM (credentialKey (tables.revision tid)) with
      | none => throw (.submissionConflict "已发放座位与当前凭据不一致，拒绝重试通知")
      | some keys => return keys

end Tables

/-- `with self._tx()`: an error takes back what the body wrote. -/
def transaction {α : Type} (body : EStateM Failure Tables α) : EStateM Failure Tables α :=
  fun tables =>
    match body tables with
    | .ok a after => .ok a after
    | .error e _ => .error e tables

def reading {α : Type} (f : Tables → Except Failure α) : EStateM Failure Tables α :=
  fun tables =>
    match f tables with
    | .ok a => .ok a tables
    | .error e => .error e tables

/- One statement for each key; SQLite has no integers of more than 64 bits. -/
def requeueKey (tid : String) (clock : Int × Int → String) (changed : Nat) (key : Int × Int) :
    EStateM Failure Tables Nat := do
  if 2 ^ 63 ≤ key.1 then throw .overflowError
  let rows ← modifyGet (Tables.requeue tid (clock key) key)
  return changed + rows

/-- The clock gives the time of each statement. -/
def retryFailedSeatNotifications (loads : String → Option PyValue) (clock : Int × Int → String)
    (tid : String) : EStateM Failure Tables Nat :=
  transaction do
    let keys ← reading fun tables => tables.retryKeys loads tid
    (keys.dedup.insertionSort fun a b => toLex a ≤ toLex b).foldlM (requeueKey tid clock) 0

variable {loads : String → Option PyValue} {clock : Int × Int → String} {tid : String}
  {tables : Tables}

theorem ends_transaction {α : Type} {body : EStateM Failure Tables α}
    {post : α → Tables → Prop} {raised : Failure → Tables → Prop} :
    Ends (transaction body) tables post raised ↔
      Ends body tables post fun e _ => raised e tables := by
  unfold Ends transaction
  cases body tables <;> rfl

theorem ends_reading {α : Type} {f : Tables → Except Failure α} {post : α → Tables → Prop}
    {raised : Failure → Tables → Prop} : Ends (reading f) tables post raised ↔
      match f tables with
      | .ok a => post a tables
      | .error e => raised e tables := by
  unfold Ends reading
  cases f tables <;> rfl

/- The seats of a contest that hold a desktop now. -/
def Tables.releasedSeats (tables : Tables) (loads : String → Option PyValue) (tid : String) :
    List Fields :=
  (((tables.pools.get? tid).bind (seatsOf loads)).getD []).filterMap releasedSeat

/-- A failed notification of a released seat's current credentials. -/
def Tables.Due (tables : Tables) (loads : String → Option PyValue) (tid : String)
    (row : NotificationRow) : Prop :=
  row.tid = tid ∧ isSeatNotice row.kind = true ∧ row.state = "permanent_failed" ∧
    ∃ seat ∈ tables.releasedSeats loads tid,
      credentialKey (tables.revision tid) seat = some (row.uid, row.credentialRevision)

/- What a retry may do when it returns. -/
structure Retried (loads : String → Option PyValue) (clock : Int × Int → String) (tid : String)
    (tables : Tables) (changed : Nat) (after : Tables) : Prop where
  ready : tables.contests.get? tid = some "ready"
  keyed : ∀ seat ∈ tables.releasedSeats loads tid,
    (credentialKey (tables.revision tid) seat).isSome = true
  others : after.contests = tables.contests ∧ after.pools = tables.pools ∧
    after.resources = tables.resources
  due : ∃ due : NotificationRow → Bool, (∀ row, due row = true ↔ tables.Due loads tid row) ∧
    changed = tables.notifications.countP due ∧
    after.notifications = tables.notifications.map fun row =>
      if due row then Tables.requeueRow (clock (row.uid, row.credentialRevision)) row else row

theorem retryKeys_ok {keys : List (Int × Int)} (read : tables.retryKeys loads tid = .ok keys) :
    tables.contests.get? tid = some "ready" ∧
      (tables.releasedSeats loads tid).mapM (credentialKey (tables.revision tid)) = some keys := by
  unfold Tables.retryKeys at read
  cases contest : tables.contests.get? tid with
  | none =>
    rw [contest] at read
    cases read
  | some state =>
    by_cases ready : state = "ready"
    · subst ready
      simp only [contest, ne_eq, not_true_eq_false, if_false] at read
      cases pool : tables.pools.get? tid with
      | none => simp [pool] at read
      | some stateJson =>
        cases listed : seatsOf loads stateJson with
        | none => simp [pool, listed] at read
        | some seats =>
          simp only [pool, listed] at read
          simp only [Tables.releasedSeats, pool, Option.bind_some, listed, Option.getD_some]
          split at read
          · cases read
          · rename_i keys' keyed
            cases read
            exact ⟨trivial, keyed⟩
    · simp only [contest, ne_eq, ready, not_false_eq_true, if_true] at read
      cases read

/- A row that was queued again is not failed any more, so its key is the only one to find it. -/
theorem failedFor_requeued (key : Int × Int) (now : String) (row : NotificationRow) :
    Tables.failedFor tid key (Tables.requeueRow now row) = false := by
  simp [Tables.failedFor, Tables.requeueRow]

theorem failedFor_key {key : Int × Int} {row : NotificationRow}
    (failed : Tables.failedFor tid key row = true) : key = (row.uid, row.credentialRevision) := by
  simp only [Tables.failedFor, Bool.and_eq_true, beq_iff_eq] at failed
  obtain ⟨⟨⟨⟨-, uid⟩, -⟩, revision⟩, -⟩ := failed
  exact Prod.ext uid.symm revision.symm

theorem countP_changed {α : Type} {p q r : α → Bool} {f : α → α} (rows : List α)
    (changed : ∀ row, p row = true → q (f row) = false ∧ r row = true)
    (kept : ∀ row, p row = false → q (f row) = r row) :
    rows.countP p + (rows.map f).countP q = rows.countP r := by
  induction rows with
  | nil => rfl
  | cons row rest ih =>
    simp only [List.map_cons, List.countP_cons]
    cases hit : p row with
    | true =>
      obtain ⟨gone, counted⟩ := changed row hit
      simp only [gone, counted, if_true, Bool.false_eq_true, if_false]
      omega
    | false =>
      rw [kept row hit]
      simp only [Bool.false_eq_true, if_false]
      omega

theorem requeueKeys_ends (keys : List (Int × Int)) (changed : Nat) (tables : Tables) :
    Ends (keys.foldlM (requeueKey tid clock) changed) tables
      (fun total after => after.contests = tables.contests ∧ after.pools = tables.pools ∧
        after.resources = tables.resources ∧
        total = changed + tables.notifications.countP
          (fun row => keys.any fun key => Tables.failedFor tid key row) ∧
        after.notifications = tables.notifications.map fun row =>
          if keys.any fun key => Tables.failedFor tid key row
          then Tables.requeueRow (clock (row.uid, row.credentialRevision)) row else row)
      fun _ _ => ∃ key ∈ keys, 2 ^ 63 ≤ key.1 := by
  induction keys generalizing changed tables with
  | nil => simp
  | cons key rest ih =>
    simp only [List.foldlM_cons, requeueKey, ends_bind, ends_ite, ends_throw, ends_modifyGet,
      ends_pure]
    refine ⟨fun large => ⟨key, List.mem_cons_self, large⟩, fun _ => ?_⟩
    refine (ih _ _).mono ?_ ?_
    case refine_2 =>
      rintro _ _ ⟨key', mem, large⟩
      exact ⟨key', List.mem_cons_of_mem _ mem, large⟩
    rintro total after ⟨contests, pools, resources, count, rows⟩
    have once : ∀ row, Tables.failedFor tid key row = true →
        (rest.any fun key' => Tables.failedFor tid key'
          (if Tables.failedFor tid key row then Tables.requeueRow (clock key) row else row)) = false
        ∧ ((key :: rest).any fun key' => Tables.failedFor tid key' row) = true := by
      intro row failed
      rw [if_pos failed]
      exact ⟨by simp [failedFor_requeued], by simp [failed]⟩
    have same : ∀ row, Tables.failedFor tid key row = false →
        (rest.any fun key' => Tables.failedFor tid key'
          (if Tables.failedFor tid key row then Tables.requeueRow (clock key) row else row)) =
        (key :: rest).any fun key' => Tables.failedFor tid key' row := by
      intro row fine
      simp [fine]
    refine ⟨contests, pools, resources, ?_, ?_⟩
    · have total_eq := countP_changed
        (q := fun row => rest.any fun key' => Tables.failedFor tid key' row)
        (f := fun row => if Tables.failedFor tid key row then Tables.requeueRow (clock key) row
          else row) tables.notifications once same
      simp only [Tables.requeue] at count
      omega
    · rw [rows]
      simp only [Tables.requeue, List.map_map]
      refine List.map_congr_left fun row _ => ?_
      simp only [Function.comp_apply]
      cases failed : Tables.failedFor tid key row with
      | true =>
        obtain ⟨gone, found⟩ := once row failed
        rw [failed] at gone
        rw [if_neg (by simpa using gone), if_pos found, failedFor_key failed]
        rfl
      | false =>
        have agree := same row failed
        rw [failed] at agree
        simp only [Bool.false_eq_true, if_false] at agree ⊢
        rw [agree]

theorem mapM_some {α β : Type} {f : α → Option β} {l : List α} {bs : List β}
    (all : l.mapM f = some bs) : ∀ b, b ∈ bs ↔ ∃ a ∈ l, f a = some b := by
  induction l generalizing bs with
  | nil =>
    rw [List.mapM_nil] at all
    obtain rfl := Option.some.inj all
    simp
  | cons a rest ih =>
    rw [List.mapM_cons] at all
    obtain ⟨first, head, all⟩ := Option.bind_eq_some_iff.mp all
    obtain ⟨others, tail, all⟩ := Option.bind_eq_some_iff.mp all
    obtain rfl := Option.some.inj all
    intro b
    rw [List.mem_cons, ih tail b]
    simp [head, eq_comm]

theorem mapM_total {α β : Type} {f : α → Option β} {l : List α}
    (all : ∀ a ∈ l, ∃ b, f a = some b) : ∃ bs, l.mapM f = some bs := by
  induction l with
  | nil => exact ⟨[], List.mapM_nil⟩
  | cons a rest ih =>
    obtain ⟨b, head⟩ := all a List.mem_cons_self
    obtain ⟨bs, tail⟩ := ih fun a mem => all a (List.mem_cons_of_mem _ mem)
    exact ⟨b :: bs, by simp [List.mapM_cons, head, tail]⟩

theorem mapM_each {α β : Type} {f : α → Option β} {l : List α} {bs : List β}
    (all : l.mapM f = some bs) : ∀ a ∈ l, ∃ b ∈ bs, f a = some b := by
  induction l generalizing bs with
  | nil => simp
  | cons a rest ih =>
    rw [List.mapM_cons] at all
    obtain ⟨first, head, all⟩ := Option.bind_eq_some_iff.mp all
    obtain ⟨others, tail, all⟩ := Option.bind_eq_some_iff.mp all
    obtain rfl := Option.some.inj all
    intro a' mem
    rcases List.mem_cons.mp mem with rfl | later
    · exact ⟨first, List.mem_cons_self, head⟩
    · obtain ⟨b, listed, found⟩ := ih tail a' later
      exact ⟨b, List.mem_cons_of_mem _ listed, found⟩

theorem retryKeys_due {keys : List (Int × Int)} (read : tables.retryKeys loads tid = .ok keys)
    (row : NotificationRow) : (keys.any fun key => Tables.failedFor tid key row) = true ↔
      tables.Due loads tid row := by
  have listed := mapM_some (retryKeys_ok read).2
  simp only [List.any_eq_true, Tables.Due]
  constructor
  · rintro ⟨key, mem, failed⟩
    obtain ⟨seat, released, keyed⟩ := (listed key).mp mem
    rw [failedFor_key failed] at keyed
    simp only [Tables.failedFor, Bool.and_eq_true, beq_iff_eq] at failed
    exact ⟨failed.1.1.1.1, failed.1.1.2, failed.2, seat, released, keyed⟩
  · rintro ⟨own, notice, failed, seat, released, keyed⟩
    exact ⟨_, (listed _).mpr ⟨seat, released, keyed⟩,
      by simp [Tables.failedFor, own, notice, failed]⟩

/-- Nothing stands against a retry. -/
structure Retryable (loads : String → Option PyValue) (tid : String) (tables : Tables) : Prop where
  ready : tables.contests.get? tid = some "ready"
  pool : ∃ stateJson seats, tables.pools.get? tid = some stateJson ∧
    seatsOf loads stateJson = some seats
  keyed : ∀ seat ∈ tables.releasedSeats loads tid,
    ∃ key, credentialKey (tables.revision tid) seat = some key ∧ key.1 < 2 ^ 63

theorem retryKeys_total (retryable : Retryable loads tid tables) :
    ∃ keys, tables.retryKeys loads tid = .ok keys := by
  obtain ⟨ready, ⟨stateJson, seats, pool, listed⟩, keyed⟩ := retryable
  simp only [Tables.releasedSeats, pool, Option.bind_some, listed, Option.getD_some] at keyed
  obtain ⟨keys, all⟩ := mapM_total fun seat mem => (keyed seat mem).imp fun _ found => found.1
  exact ⟨keys, by simp [Tables.retryKeys, ready, pool, listed, all, pure, Except.pure]⟩

theorem retry_ends : Ends (retryFailedSeatNotifications loads clock tid) tables
    (fun changed after => Retried loads clock tid tables changed after)
    fun _ after => after = tables ∧ ¬ Retryable loads tid tables := by
  unfold retryFailedSeatNotifications
  rw [ends_transaction, ends_bind, ends_reading]
  cases read : tables.retryKeys loads tid with
  | error e =>
    refine ⟨rfl, fun retryable => ?_⟩
    obtain ⟨keys, ok⟩ := retryKeys_total retryable
    cases read.symm.trans ok
  | ok keys =>
    obtain ⟨ready, keyed⟩ := retryKeys_ok read
    have due := retryKeys_due read
    have sorted : ∀ key, key ∈ keys.dedup.insertionSort (fun a b => toLex a ≤ toLex b) ↔
        key ∈ keys := fun key => by rw [List.mem_insertionSort, List.mem_dedup]
    refine (requeueKeys_ends _ 0 tables).mono ?_ ?_
    · rintro changed after ⟨contests, pools, resources, count, rows⟩
      refine ⟨ready, fun seat mem => ?_, ⟨contests, pools, resources⟩, _, fun row => ?_,
        count.trans (Nat.zero_add _), rows⟩
      · obtain ⟨key, -, found⟩ := mapM_each keyed seat mem
        simp [found]
      · rw [← due row]
        simp [sorted]
    · rintro e after ⟨key, mem, large⟩
      refine ⟨rfl, fun retryable => ?_⟩
      obtain ⟨seat, released, found⟩ := (mapM_some keyed key).mp ((sorted key).mp mem)
      obtain ⟨key', found', small⟩ := retryable.keyed seat released
      obtain rfl : key = key' := by simpa using found.symm.trans found'
      omega

end NoiContest.SeatNotices
