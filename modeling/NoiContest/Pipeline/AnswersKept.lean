import NoiContest.Pipeline.SeatHost

/- Answers along the operations on a running contest. A seat that fails is stopped before its
   files are copied, so between the copy and the commit the spare has all that the student has
   written. -/
namespace NoiContest.Pipeline
open SeatPool SeatPoolState Flow

/-- Every call that the operations make is answered for by what it may lose. -/
def answering : Transformer Call Answer Raised SeatHost :=
  checking SeatHost.respond (fun _ _ _ => True) LosesNothing

theorem answering_monotone : Monotone answering := checking_monotone

/-- A student has one seat. -/
def OneSeat (pool : SeatPoolState) : Prop :=
  ∀ a ∈ pool.seats, ∀ b ∈ pool.seats, ∀ uid, a.uid = some uid → b.uid = some uid →
    a.slotNo = b.slotNo

/-- The slot has no student. -/
def Vacant (pool : SeatPoolState) (slotNo : Nat) : Prop :=
  ∀ seat ∈ pool.seats, seat.slotNo = slotNo → seat.uid = none

/- What is known between two calls. -/
structure Held (stored : Option SeatPoolState) (rows : List PoolResource) (host : SeatHost) :
    Prop where
  samePool : host.world.tables.pool = stored
  sameRows : host.world.tables.resources = rows
  distinct : ∀ pool ∈ stored, pool.slots.Nodup
  oneSeat : ∀ pool ∈ stored, OneSeat pool
  kept : ∀ pool ∈ stored, ∀ seat ∈ pool.seats, ∀ uid, seat.uid = some uid →
    host.Holds seat.slotNo uid

/-- Answers are kept, in a pool that has no slot and no student twice. -/
def Answered (host : SeatHost) : Prop :=
  Held host.world.tables.pool host.world.tables.resources host

variable {stored : Option SeatPoolState} {pool : SeatPoolState} {rows : List PoolResource}
  {host : SeatHost} {ε α β : Type}

namespace Held

theorem answered (held : Held stored rows host) : Answered host := by
  unfold Answered
  rw [held.samePool, held.sameRows]
  exact held

theorem answersKept (held : Held stored rows host) : host.AnswersKept := by
  rintro slotNo uid ⟨pool, there, seat, mem, rfl, assigned⟩
  rw [held.samePool] at there
  exact held.kept pool there seat mem uid assigned

theorem vacant (held : Held (some pool) rows host) {slotNo : Nat} (vacant : Vacant pool slotNo)
    (uid : Int) : ¬ host.SeatedAt slotNo uid := by
  rintro ⟨pool', there, seat, mem, slot, assigned⟩
  rw [held.samePool] at there
  cases there
  rw [vacant seat mem slot] at assigned
  cases assigned

/- The same pool, and every tree that somebody sits at unchanged. -/
theorem update {after : SeatHost} (held : Held stored rows host)
    (pool_eq : after.world.tables.pool = host.world.tables.pool)
    (rows_eq : after.world.tables.resources = host.world.tables.resources)
    (kept_eq : after.kept = host.kept)
    (trees : ∀ pool ∈ stored, ∀ seat ∈ pool.seats, seat.uid ≠ none →
      after.trees seat.slotNo = host.trees seat.slotNo) : Held stored rows after where
  samePool := pool_eq.trans held.samePool
  sameRows := rows_eq.trans held.sameRows
  distinct := held.distinct
  oneSeat := held.oneSeat
  kept pool there seat mem uid assigned path bytes wrote := by
    rw [trees pool there seat mem (by rw [assigned]; simp)]
    rw [kept_eq] at wrote
    exact held.kept pool there seat mem uid assigned path bytes wrote

/- A student edits the own tree. -/
theorem write (held : Held stored rows host) (edit : Write) : Held stored rows (host.write edit) := by
  unfold SeatHost.write
  split
  · exact held
  · rename_i own found
    split
    · rw [held.samePool] at found
      obtain ⟨pool, there, found⟩ := Option.bind_eq_some_iff.mp found
      obtain ⟨memOwn, assignedOwn⟩ := assignment_some found
      refine ⟨held.samePool, held.sameRows, held.distinct, held.oneSeat, ?_⟩
      intro pool' there' seat mem uid assigned path bytes wrote
      have same : pool' = pool := Option.some.inj (there'.symm.trans there)
      subst same
      dsimp only at wrote ⊢
      by_cases mine : uid = edit.uid
      · subst mine
        have slot := held.oneSeat pool' there' seat mem own memOwn _ assigned assignedOwn
        by_cases here : path = edit.path
        · rw [if_pos ⟨rfl, here⟩] at wrote
          rw [if_pos ⟨slot, here⟩]
          exact wrote
        · rw [if_neg fun both => here both.2] at wrote
          rw [if_neg fun both => here both.2]
          exact held.kept pool' there' seat mem _ assigned path bytes wrote
      · have other : seat.slotNo ≠ own.slotNo := by
          intro slot
          rw [seat_eq_of_slot (held.distinct pool' there') mem memOwn slot, assignedOwn] at assigned
          exact mine (Option.some.inj assigned).symm
        rw [if_neg fun both => mine both.1] at wrote
        rw [if_neg fun both => other both.1]
        exact held.kept pool' there' seat mem uid assigned path bytes wrote
    · exact held

theorem writes (held : Held stored rows host) (edits : List Write) :
    Held stored rows (edits.foldl SeatHost.write host) := by
  induction edits generalizing host with
  | nil => exact held
  | cons edit rest ih => exact ih (held.write edit)

end Held

/- What a call does to the host before the edits after it. -/

theorem respond_store {c : Call} (choice : SeatChoice) (host : SeatHost)
    (other : ∀ command, c ≠ .run command) : SeatHost.answer c choice host =
      ((World.respond c choice.toChoice host.world).1,
        { host with world := (World.respond c choice.toChoice host.world).2 }) := by
  cases c
  case run command => exact absurd rfl (other command)
  all_goals rfl

theorem run_tables (command : HostCommand) (choice : Choice) (w : World) :
    (World.respond (.run command) choice w).2.tables = w.tables :=
  World.respond_views (.run command) choice w (fun _ tables => tables = w.tables)
    ⟨fun _ _ => rfl, fun _ => rfl⟩

theorem answer_run (command : HostCommand) (choice : SeatChoice) (host : SeatHost) :
    ∃ w, w.tables = host.world.tables ∧
      ((∃ e after, SeatHost.answer (.run command) choice host =
          (.error e, { after with world := w }) ∧
        (after = host ∨ after = host.broken choice command)) ∨
      ∃ output printed after, SeatHost.answer (.run command) choice host =
          (.ok printed, { after with world := w }) ∧
        host.perform choice output command = some (printed, after)) := by
  have tables := run_tables command choice.toChoice host.world
  have answering : SeatHost.answer (.run command) choice host = host.onCommand choice command
      (World.respond (.run command) choice.toChoice host.world) := rfl
  generalize World.respond (.run command) choice.toChoice host.world = answered
    at tables answering
  obtain ⟨result, w⟩ := answered
  refine ⟨w, tables, ?_⟩
  cases result with
  | error e => exact .inl ⟨e, _, answering, .inr rfl⟩
  | ok output =>
    cases performed : host.perform choice output command with
    | none =>
      simp only [SeatHost.onCommand, performed] at answering
      exact .inl ⟨_, host, answering, .inl rfl⟩
    | some pair =>
      simp only [SeatHost.onCommand, performed] at answering
      exact .inr ⟨output, pair.1, pair.2, answering, performed⟩

/- Calls that change neither the pool and its resources nor a tree. -/
def Gentle : Call → Prop
  | .putSeatPool .. | .commitScheduleSync .. | .commitPoolExpansion .. |
    .commitPoolReplacement .. | .commitPoolRepair .. | .run (.copyAnswers ..) |
    .run (.removeSlot _) | .run (.removeHome _) => False
  | _ => True

theorem provisioning_gentle (c : Call) (provisioning : Provisioning c) : Gentle c := by
  cases c
  case run command => cases command <;> trivial
  all_goals trivial

theorem gentle_tables {c : Call} (gentle : Gentle c) (choice : Choice) (w : World) :
    (World.respond c choice w).2.tables.pool = w.tables.pool ∧
      (World.respond c choice w).2.tables.resources = w.tables.resources := by
  apply World.respond_views c choice w fun _ tables =>
    tables.pool = w.tables.pool ∧ tables.resources = w.tables.resources
  cases c
  case bindPoolSeat uid uname slotNo =>
    refine ⟨fun _ _ => ⟨rfl, rfl⟩, fun written bound => ?_⟩
    obtain ⟨seats, rfl⟩ := ContestTables.bindPoolSeat_ok bound
    exact ⟨rfl, rfl⟩
  case putSeatPool => cases gentle
  case commitScheduleSync => cases gentle
  case commitPoolExpansion => cases gentle
  case commitPoolReplacement => cases gentle
  case commitPoolRepair => cases gentle
  all_goals simp [tableView, ContestTables.setState, ContestTables.updateContest]

theorem perform_gentle {command : HostCommand} (gentle : Gentle (.run command))
    {choice : SeatChoice} {output printed : String} {after : SeatHost}
    (performed : host.perform choice output command = some (printed, after)) :
    after.trees = host.trees ∧ after.kept = host.kept := by
  cases command
  case copyAnswers | removeSlot | removeHome => cases gentle
  case containerStatus name =>
    obtain ⟨status, _, eq⟩ := Option.map_eq_some_iff.mp performed
    cases eq
    exact ⟨rfl, rfl⟩
  case runContainer | pauseContainer | unpauseContainer =>
    simp only [SeatHost.perform] at performed
    split at performed
    all_goals
      cases performed
      try exact ⟨rfl, rfl⟩
  all_goals
    cases performed
    exact ⟨rfl, rfl⟩

theorem broken_gentle {command : HostCommand} (gentle : Gentle (.run command))
    (choice : SeatChoice) :
    (host.broken choice command).trees = host.trees ∧
      (host.broken choice command).kept = host.kept := by
  have attempted : ∀ h, (host.perform choice "" command).map Prod.snd = some h →
      h.trees = host.trees ∧ h.kept = host.kept := by
    intro h done
    obtain ⟨⟨printed, after⟩, performed, rfl⟩ := Option.map_eq_some_iff.mp done
    exact perform_gentle gentle performed
  have either : (if choice.tookEffect then
      ((host.perform choice "" command).map Prod.snd).getD host else host).trees = host.trees ∧
      (if choice.tookEffect then
        ((host.perform choice "" command).map Prod.snd).getD host else host).kept = host.kept := by
    split
    · cases tried : (host.perform choice "" command).map Prod.snd with
      | none => exact ⟨rfl, rfl⟩
      | some h => exact attempted h tried
    · exact ⟨rfl, rfl⟩
  cases command
  case copyAnswers | removeSlot | removeHome => cases gentle
  all_goals exact either

theorem Held.gentle (held : Held stored rows host) {c : Call} (gentle : Gentle c)
    (choice : SeatChoice) : Held stored rows (SeatHost.answer c choice host).2 := by
  cases c
  case run command =>
    have unchanged : ∀ (w : World) (after : SeatHost), w.tables = host.world.tables →
        after.trees = host.trees ∧ after.kept = host.kept →
        Held stored rows { after with world := w } := fun w after tables same =>
      held.update (by rw [tables]) (by rw [tables]) same.2 fun _ _ _ _ _ => by rw [same.1]
    obtain ⟨w, tables, ⟨e, after, answered, left⟩ | ⟨output, printed, after, answered, performed⟩⟩ :=
      answer_run command choice host
    · rw [answered]
      refine unchanged w after tables ?_
      rcases left with rfl | rfl
      · exact ⟨rfl, rfl⟩
      · exact broken_gentle gentle choice
    · rw [answered]
      exact unchanged w after tables (perform_gentle gentle performed)
  all_goals
    rw [respond_store choice host (by simp)]
    obtain ⟨pool_eq, rows_eq⟩ := gentle_tables gentle choice.toChoice host.world
    exact held.update pool_eq rows_eq rfl fun _ _ _ _ _ => rfl

/- Everybody keeps the seat in a pool that stays. -/
theorem Held.seated {rows' : List PoolResource} {after : SeatHost} (held : Held stored rows host)
    (later : Held stored rows' after) (slotNo : Nat) (uid : Int)
    (seated : host.SeatedAt slotNo uid) : ∃ slotNo', after.SeatedAt slotNo' uid := by
  obtain ⟨pool, there, seat⟩ := seated
  exact ⟨slotNo, pool, later.samePool.trans (held.samePool.symm.trans there), seat⟩

theorem gentle_call {c : Call} (gentle : Gentle c) (held : Held stored rows host) :
    answering c host fun _ after => Held stored rows after := by
  intro choice _
  have after := (held.gentle gentle choice).writes choice.writes
  refine ⟨⟨after.answersKept, held.seated after, fun slotNo removed => ?_⟩, after⟩
  cases c
  case run command => cases command <;> first | exact gentle.elim | cases removed
  all_goals cases removed

theorem gentle_keeps {x : Program Call Answer Raised ε α} (gentle : Only Gentle x) :
    Keeps answering (Held stored rows) x :=
  gentle.keeps answering_monotone fun _ is _ held => gentle_call is held

/- Chaining a part that is gentle before the rest of a procedure. -/
theorem gently {x : Program Call Answer Raised ε α} {f : α → Program Call Answer Raised ε β}
    {post : β → SeatHost → Prop} {raised : ε → SeatHost → Prop} (gentle : Only Gentle x)
    (held : Held stored rows host) (failed : ∀ e h, Held stored rows h → raised e h)
    (next : ∀ a h, Held stored rows h → Ends answering (f a) h post raised) :
    Ends answering (x >>= f) host post raised :=
  (gentle_keeps gentle host held).bind answering_monotone next failed

/- Removing and copying trees -/

/- Only the tree of a vacant slot changed. -/
theorem Held.elsewhere {after : SeatHost} {slotNo : Nat} {tree : Tree}
    (held : Held (some pool) rows host) (vacant : Vacant pool slotNo)
    (tables : after.world.tables = host.world.tables) (kept : after.kept = host.kept)
    (trees : after.trees = (host.setTree slotNo tree).trees) : Held (some pool) rows after := by
  refine held.update (by rw [tables]) (by rw [tables]) kept fun pool' there seat mem assigned => ?_
  cases there
  rw [trees]
  exact if_neg fun same => assigned (vacant seat mem same)

theorem Held.inWorld (held : Held stored rows host) {w : World}
    (tables : w.tables = host.world.tables) : Held stored rows { host with world := w } :=
  held.update (by rw [tables]) (by rw [tables]) rfl fun _ _ _ _ _ => rfl

/- What a removal leaves of the trees, whether it went through or not. -/
theorem removal_trees (host : SeatHost) {command : HostCommand} {slotNo : Nat}
    (removes : removedHome (.run command) = some slotNo) (choice : SeatChoice) :
    (∃ tree, (host.broken choice command).trees = (host.setTree slotNo tree).trees ∧
      (host.broken choice command).kept = host.kept) ∧
    ∀ output printed after, host.perform choice output command = some (printed, after) →
      ∃ tree, after.trees = (host.setTree slotNo tree).trees ∧ after.kept = host.kept := by
  cases command
  case removeHome slot =>
    cases removes
    refine ⟨⟨choice.left, rfl, rfl⟩, fun output printed after performed => ?_⟩
    cases performed
    exact ⟨SeatHost.noFiles, rfl, rfl⟩
  case removeSlot spec =>
    cases removes
    constructor
    · dsimp only [SeatHost.broken]
      split <;> exact ⟨choice.left, rfl, rfl⟩
    · intro output printed after performed
      cases performed
      split <;> exact ⟨SeatHost.noFiles, rfl, rfl⟩
  all_goals cases removes

/- A slot that loses its home has no student. -/
theorem removal_call {command : HostCommand} {slotNo : Nat}
    (removes : removedHome (.run command) = some slotNo) (held : Held (some pool) rows host)
    (vacant : Vacant pool slotNo) :
    answering (.run command) host fun _ after => Held (some pool) rows after := by
  intro choice _
  obtain ⟨⟨tree, trees, kept⟩, performs⟩ := removal_trees host removes choice
  have answered : Held (some pool) rows (SeatHost.answer (.run command) choice host).2 := by
    obtain ⟨w, tables, ⟨e, after, answered, left⟩ | ⟨output, printed, after, answered, performed⟩⟩ :=
      answer_run command choice host
    · rw [answered]
      rcases left with rfl | rfl
      · exact held.inWorld tables
      · exact held.elsewhere vacant tables kept trees
    · rw [answered]
      obtain ⟨tree, trees, kept⟩ := performs output printed after performed
      exact held.elsewhere vacant tables kept trees
  have after := answered.writes choice.writes
  refine ⟨⟨after.answersKept, held.seated after, fun slot removed => ?_⟩, after⟩
  cases removed.symm.trans removes
  exact held.vacant vacant

/- Stopping the failed seat -/

theorem write_containers (host : SeatHost) (edit : Write) :
    (host.write edit).containers = host.containers := by
  unfold SeatHost.write
  split
  · rfl
  · split <;> rfl

theorem writes_containers (host : SeatHost) (edits : List Write) :
    (edits.foldl SeatHost.write host).containers = host.containers := by
  induction edits generalizing host with
  | nil => rfl
  | cons edit rest ih => exact (ih _).trans (write_containers host edit)

/- The answer is the status of the container. -/
theorem containerStatus_call (held : Held stored rows host) (name : String) :
    Ends answering (run (.containerStatus name)) host
      (fun status after => Held stored rows after ∧
        ∃ s, after.containers name = some s ∧ status = s.text)
      (fun _ after => Held stored rows after) := by
  intro choice permitted
  obtain ⟨lost, after⟩ := gentle_call (c := .run (.containerStatus name)) trivial held choice
    permitted
  refine ⟨lost, ?_⟩
  unfold SeatHost.respond at after ⊢
  obtain ⟨w, _, ⟨e, left, answered, _⟩ | ⟨output, printed, left, answered, performed⟩⟩ :=
    answer_run (.containerStatus name) choice host
  · rw [answered] at after ⊢
    exact after
  · rw [answered] at after ⊢
    obtain ⟨status, there, eq⟩ := Option.map_eq_some_iff.mp performed
    cases eq
    refine ⟨after, status, ?_, rfl⟩
    rw [writes_containers]
    exact there

theorem pauseContainer_call (held : Held stored rows host) (name : String) :
    Ends answering (run (.pauseContainer name)) host
      (fun _ after => Held stored rows after ∧ after.containers name ≠ some .running)
      (fun _ after => Held stored rows after) := by
  intro choice permitted
  obtain ⟨lost, after⟩ := gentle_call (c := .run (.pauseContainer name)) trivial held choice
    permitted
  refine ⟨lost, ?_⟩
  unfold SeatHost.respond at after ⊢
  obtain ⟨w, _, ⟨e, left, answered, _⟩ | ⟨output, printed, left, answered, performed⟩⟩ :=
    answer_run (.pauseContainer name) choice host
  · rw [answered] at after ⊢
    exact after
  · rw [answered] at after ⊢
    refine ⟨after, ?_⟩
    simp only [SeatHost.perform] at performed
    split at performed
    · cases performed
      rw [writes_containers]
      simp [SeatHost.setContainer]
    · cases performed

theorem strip_status (status : ContainerStatus) (other : PyText.strip status.text ≠ "running") :
    status ≠ .running := by
  rintro rfl
  exact other (by decide)

/- Afterwards the container of the failed seat is not running. -/
theorem pauseFailed_stops (held : Held stored rows host) (locals : ReplaceLocals) :
    Ends answering (pauseFailed locals) host
      (fun _ after => Held stored rows after ∧
        after.containers locals.failedContainer ≠ some .running)
      (fun _ after => Held stored rows after) := by
  unfold pauseFailed
  rw [ends_bind, holding, ends_mapError]
  refine (containerStatus_call held _).mono answering_monotone (fun found after read => ?_)
    fun _ _ kept => kept
  dsimp only
  generalize stripped : PyText.strip found = text
  obtain ⟨held, status, there, named⟩ := read
  rw [ends_ite]
  refine ⟨fun _ => ?_, fun other => ?_⟩
  · rw [ends_bind, holding, ends_mapError]
    exact pauseContainer_call held _
  · rw [ends_bind, holding, ends_mapError, raiseIf, Flow.ends_raiseIf]
    refine ⟨fun _ => held, fun _ => ⟨held, ?_⟩⟩
    rw [there]
    rw [← stripped, named] at other
    exact fun same => strip_status status other (Option.some.inj same)

/- Moving the answers -/

/-- The student of the failed slot is to move to a slot without a student. -/
def Moves (pool : SeatPoolState) (slotNo : Nat) (replacement : Option Seat) : Prop :=
  ∀ moved ∈ replacement, (∃ failed ∈ pool.seats, failed.slotNo = slotNo ∧
    moved.uid = failed.uid) ∧ Vacant pool moved.slotNo

/-- The failed seat is stopped, and the new slot has all that its student wrote. -/
structure Handover (pool : SeatPoolState) (rows : List PoolResource) (container : String)
    (replacement : Option Seat) (host : SeatHost) : Prop where
  held : Held (some pool) rows host
  stopped : host.containers container ≠ some .running
  copied : ∀ moved ∈ replacement, ∀ uid, moved.uid = some uid → host.Holds moved.slotNo uid

namespace Handover
variable {container : String} {replacement : Option Seat} {slotNo : Nat}

theorem write (handover : Handover pool rows container replacement host)
    (moves : Moves pool slotNo replacement)
    (only : ∀ row ∈ rows, row.slotNo = slotNo → row.container = container) (edit : Write) :
    Handover pool rows container replacement (host.write edit) := by
  refine ⟨handover.held.write edit, ?_, ?_⟩
  · rw [write_containers]
    exact handover.stopped
  · intro moved taken uid owner
    obtain ⟨⟨failed, memFailed, slot, student⟩, vacant⟩ := moves moved taken
    have before := handover.copied moved taken uid owner
    unfold SeatHost.write
    split
    · exact before
    · rename_i own found
      split
      · rename_i writable
        rw [handover.held.samePool] at found
        obtain ⟨memOwn, assignedOwn⟩ := assignment_some found
        have others : uid ≠ edit.uid := by
          -- the student of the failed seat has no running container
          rintro rfl
          have here := handover.held.oneSeat pool rfl own memOwn failed memFailed _ assignedOwn
            (student ▸ owner)
          obtain ⟨row, mem, at_, running⟩ := writable
          rw [handover.held.sameRows] at mem
          rw [only row mem (at_.trans (here.trans slot))] at running
          exact handover.stopped running
        have apart : moved.slotNo ≠ own.slotNo := by
          intro same
          rw [vacant own memOwn same.symm] at assignedOwn
          cases assignedOwn
        intro path bytes wrote
        dsimp only at wrote ⊢
        rw [if_neg fun both => others both.1] at wrote
        rw [if_neg fun both => apart both.1]
        exact before path bytes wrote
      · exact before

theorem writes (handover : Handover pool rows container replacement host)
    (moves : Moves pool slotNo replacement)
    (only : ∀ row ∈ rows, row.slotNo = slotNo → row.container = container) (edits : List Write) :
    Handover pool rows container replacement (edits.foldl SeatHost.write host) := by
  induction edits generalizing host with
  | nil => exact handover
  | cons edit rest ih => exact ih (handover.write moves only edit)

end Handover

section Replacing
variable {container : String} {replacement : Option Seat} {slotNo : Nat}

/- A copy that reports success brings everything over, a broken one harms nobody. -/
theorem copyAnswers_call {moved : Seat} (moves : Moves pool slotNo (some moved))
    (only : ∀ row ∈ rows, row.slotNo = slotNo → row.container = container)
    (held : Held (some pool) rows host) (stopped : host.containers container ≠ some .running) :
    Ends answering (run (.copyAnswers slotNo moved.slotNo)) host
      (fun _ after => Handover pool rows container (some moved) after)
      (fun _ after => Held (some pool) rows after) := by
  intro choice _
  obtain ⟨⟨failed, memFailed, slot, student⟩, vacant⟩ := moves moved rfl
  unfold LosesNothing SeatHost.respond
  obtain ⟨w, tables, ⟨e, left, answered, either⟩ | ⟨output, printed, left, answered, performed⟩⟩ :=
    answer_run (.copyAnswers slotNo moved.slotNo) choice host
  · rw [answered]
    have before : Held (some pool) rows { left with world := w } := by
      rcases either with rfl | rfl
      · exact held.inWorld tables
      · exact held.elsewhere vacant tables rfl rfl
    have after := before.writes choice.writes
    exact ⟨⟨after.answersKept, held.seated after, fun _ removed => by cases removed⟩, after⟩
  · rw [answered]
    cases performed
    have before : Handover pool rows container (some moved)
        { host.setTree moved.slotNo (SeatHost.overlay (host.trees slotNo)
          (host.trees moved.slotNo)) with world := w } := by
      refine ⟨held.elsewhere vacant tables rfl rfl, stopped, ?_⟩
      rintro _ ⟨⟩ uid owner path bytes wrote
      have own := held.kept pool rfl failed memFailed uid (student ▸ owner) path bytes wrote
      rw [slot] at own
      simp [SeatHost.setTree, SeatHost.overlay, own]
    have after := before.writes moves only choice.writes
    exact ⟨⟨after.held.answersKept, held.seated after.held, fun _ removed => by cases removed⟩,
      after⟩

theorem copyToReplacement_ends (context : RuntimeContext) (moves : Moves pool slotNo replacement)
    (only : ∀ row ∈ rows, row.slotNo = slotNo → row.container = container)
    (held : Held (some pool) rows host) (stopped : host.containers container ≠ some .running) :
    Ends answering (copyToReplacement context slotNo replacement) host
      (fun _ after => Handover pool rows container replacement after)
      (fun _ after => Held (some pool) rows after) := by
  cases replacement with
  | none => exact ⟨held, stopped, fun _ impossible => by cases impossible⟩
  | some moved =>
    unfold copyToReplacement
    dsimp only
    cases findResource context.resources moved.slotNo "备用座位连接资源不存在" with
    | error e => exact held
    | ok spareResource =>
      exact (copyAnswers_call moves only held stopped).bind answering_monotone
        (fun _ _ handover => handover) fun _ _ kept => kept

/- The commands of the gateway do not touch the containers. -/
theorem gateway_call {command : HostCommand} (gentle : Gentle (.run command))
    (containers : ∀ choice : SeatChoice, ∀ h : SeatHost, (h.broken choice command) = h ∧
      ∀ output, h.perform choice output command = some (output, h))
    (moves : Moves pool slotNo replacement)
    (only : ∀ row ∈ rows, row.slotNo = slotNo → row.container = container)
    (handover : Handover pool rows container replacement host) :
    Ends answering (run command) host
      (fun _ after => Handover pool rows container replacement after)
      (fun _ after => Held (some pool) rows after) := by
  intro choice permitted
  obtain ⟨lost, after⟩ := gentle_call gentle handover.held choice permitted
  refine ⟨lost, ?_⟩
  have same : ∃ w, (SeatHost.answer (.run command) choice host).2 = { host with world := w } ∧
      w.tables = host.world.tables := by
    obtain ⟨w, tables, ⟨e, left, answered, either⟩ | ⟨output, printed, left, answered, done⟩⟩ :=
      answer_run command choice host
    · refine ⟨w, ?_, tables⟩
      rw [answered]
      rcases either with rfl | rfl
      · rfl
      · rw [(containers choice host).1]
    · refine ⟨w, ?_, tables⟩
      rw [answered]
      rw [(containers choice host).2 output] at done
      cases done
      rfl
  obtain ⟨w, same, tables⟩ := same
  have later : Handover pool rows container replacement
      (SeatHost.respond (.run command) choice host).2 := by
    unfold SeatHost.respond
    rw [same]
    exact Handover.writes ⟨handover.held.inWorld tables, handover.stopped, handover.copied⟩
      moves only choice.writes
  cases (SeatHost.respond (.run command) choice host).1 with
  | ok output => exact later
  | error e => exact after

theorem stagePoolGateway_handover (moves : Moves pool slotNo replacement)
    (only : ∀ row ∈ rows, row.slotNo = slotNo → row.container = container) (revision : Int)
    (conf : List PoolResource) (handover : Handover pool rows container replacement host) :
    Ends answering (stagePoolGateway revision conf) host
      (fun _ after => Handover pool rows container replacement after)
      (fun _ after => Held (some pool) rows after) := by
  have idle : ∀ choice : SeatChoice, ∀ h : SeatHost,
      (if choice.tookEffect then h else h) = h := fun choice h => by split <;> rfl
  have put : Gentle (.run (.putGatewayConf revision conf)) := trivial
  have switch : Gentle (.run (.switchGateway revision)) := trivial
  have putting := gateway_call put (fun choice h => ⟨idle choice h, fun _ => rfl⟩) moves only
    handover
  refine putting.bind answering_monotone (fun _ _ handover => ?_) fun _ _ kept => kept
  have switching := gateway_call switch (fun choice h => ⟨idle choice h, fun _ => rfl⟩) moves only
    handover
  exact switching.bind answering_monotone (fun _ _ handover => handover) fun _ _ kept => kept

end Replacing

/- Commits -/

/-- A pool that may be stored next: everybody has a seat in it, with the answers. -/
structure Successor (pool pool' : SeatPoolState) (host : SeatHost) : Prop where
  distinct : pool'.slots.Nodup
  oneSeat : OneSeat pool'
  kept : ∀ seat ∈ pool'.seats, ∀ uid, seat.uid = some uid → host.Holds seat.slotNo uid
  seated : ∀ seat ∈ pool.seats, ∀ uid, seat.uid = some uid →
    ∃ seat' ∈ pool'.seats, seat'.uid = some uid

theorem Held.successor (held : Held (some pool) rows host) : Successor pool pool host :=
  ⟨held.distinct pool rfl, held.oneSeat pool rfl, held.kept pool rfl,
    fun seat mem _ assigned => ⟨seat, mem, assigned⟩⟩

/- The same students on the same slots. -/
theorem Successor.seating {pool' pool'' : SeatPoolState} (successor : Successor pool pool' host)
    (seating : SameSeating pool' pool'') : Successor pool pool'' host where
  distinct := by
    rw [seating.slots]
    exact successor.distinct
  oneSeat a memA b memB uid assignedA assignedB := by
    obtain ⟨oldA, memOldA, slotA, uidA⟩ := seating.students a memA
    obtain ⟨oldB, memOldB, slotB, uidB⟩ := seating.students b memB
    rw [← slotA, ← slotB]
    exact successor.oneSeat oldA memOldA oldB memOldB uid (uidA.trans assignedA)
      (uidB.trans assignedB)
  kept seat mem uid assigned := by
    obtain ⟨old, memOld, slot, student⟩ := seating.students seat mem
    rw [← slot]
    exact successor.kept old memOld uid (student.trans assigned)
  seated seat mem uid assigned := by
    obtain ⟨old, memOld, owner⟩ := successor.seated seat mem uid assigned
    have slot : old.slotNo ∈ pool''.slots := seating.slots ▸ slot_mem memOld
    obtain ⟨new, memNew, same⟩ := List.mem_map.mp slot
    obtain ⟨before, memBefore, slotBefore, student⟩ := seating.students new memNew
    have eq := seat_eq_of_slot successor.distinct memBefore memOld (slotBefore.trans same)
    exact ⟨new, memNew, by rw [← student, eq]; exact owner⟩

/- A growth adds slots without students. -/
theorem Successor.extended (held : Held (some pool) rows host) (mains spares : Int) :
    Successor pool (pool.extended mains spares) host := by
  have old : ∀ seat ∈ (pool.extended mains spares).seats, ∀ uid, seat.uid = some uid →
      seat ∈ pool.seats := by
    intro seat mem uid assigned
    rcases List.mem_append.mp mem with known | fresh
    · exact known
    · rw [(mem_addedSeats fresh).1] at assigned
      cases assigned
  refine ⟨extended_distinct (held.distinct pool rfl), ?_, ?_, ?_⟩
  · intro a memA b memB uid assignedA assignedB
    exact held.oneSeat pool rfl a (old a memA uid assignedA) b (old b memB uid assignedB) uid
      assignedA assignedB
  · exact fun seat mem uid assigned =>
      held.kept pool rfl seat (old seat mem uid assigned) uid assigned
  · exact fun seat mem uid assigned => ⟨seat, List.mem_append_left _ mem, assigned⟩

theorem withSeat_free {updated : Seat} (unassigned : updated.uid = none)
    (held : Held (some pool) rows host) (vacant : Vacant pool updated.slotNo) :
    Successor pool (pool.withSeat updated) host := by
  have old : ∀ seat ∈ (pool.withSeat updated).seats, ∀ uid, seat.uid = some uid →
      seat ∈ pool.seats := by
    intro seat mem uid assigned
    rcases mem_replaceSeat.mp mem with ⟨rfl, _⟩ | ⟨known, _⟩
    · rw [unassigned] at assigned
      cases assigned
    · exact known
  refine ⟨by simpa using held.distinct pool rfl, ?_, ?_, ?_⟩
  · intro a memA b memB uid assignedA assignedB
    exact held.oneSeat pool rfl a (old a memA uid assignedA) b (old b memB uid assignedB) uid
      assignedA assignedB
  · exact fun seat mem uid assigned =>
      held.kept pool rfl seat (old seat mem uid assigned) uid assigned
  · intro seat mem uid assigned
    refine ⟨seat, mem_replaceSeat.mpr (.inr ⟨mem, fun same => ?_⟩), assigned⟩
    rw [vacant seat mem same] at assigned
    cases assigned

/- The student of a failed seat goes to the spare that has the files. -/
theorem Successor.moved {failed spare reset moved : Seat} {uid : Int}
    (held : Held (some pool) rows host) (memFailed : failed ∈ pool.seats)
    (assigned : failed.uid = some uid) (memSpare : spare ∈ pool.seats) (free : spare.uid = none)
    (resetSlot : reset.slotNo = failed.slotNo) (unassigned : reset.uid = none)
    (movedSlot : moved.slotNo = spare.slotNo) (owner : moved.uid = some uid)
    (copied : host.Holds moved.slotNo uid) :
    Successor pool ((pool.withSeat reset).withSeat moved) host := by
  have distinct := held.distinct pool rfl
  have apart : failed.slotNo ≠ spare.slotNo := by
    intro same
    rw [seat_eq_of_slot distinct memFailed memSpare same, free] at assigned
    cases assigned
  have cases_ : ∀ seat ∈ ((pool.withSeat reset).withSeat moved).seats, ∀ other,
      seat.uid = some other → seat = moved ∨ seat ∈ pool.seats ∧ other ≠ uid := by
    intro seat mem other student
    rcases mem_replaceSeat.mp mem with ⟨rfl, _⟩ | ⟨mem, _⟩
    · exact .inl rfl
    · rcases mem_replaceSeat.mp mem with ⟨rfl, _⟩ | ⟨known, elsewhere⟩
      · rw [unassigned] at student
        cases student
      · refine .inr ⟨known, ?_⟩
        rintro rfl
        exact elsewhere ((held.oneSeat pool rfl seat known failed memFailed _ student assigned).trans
          resetSlot.symm)
  refine ⟨by simpa using distinct, ?_, ?_, ?_⟩
  · intro a memA b memB other ownsA ownsB
    rcases cases_ a memA other ownsA with rfl | ⟨knownA, otherA⟩
    · rcases cases_ b memB other ownsB with rfl | ⟨_, otherB⟩
      · rfl
      · rw [owner] at ownsA
        exact absurd (Option.some.inj ownsA).symm otherB
    · rcases cases_ b memB other ownsB with rfl | ⟨knownB, _⟩
      · rw [owner] at ownsB
        exact absurd (Option.some.inj ownsB).symm otherA
      · exact held.oneSeat pool rfl a knownA b knownB other ownsA ownsB
  · intro seat mem other student
    rcases cases_ seat mem other student with rfl | ⟨known, _⟩
    · rw [owner] at student
      cases student
      exact copied
    · exact held.kept pool rfl seat known other student
  · intro seat mem other student
    have there : ∃ old ∈ (pool.withSeat reset).seats, old.slotNo = moved.slotNo :=
      ⟨spare, mem_replaceSeat.mpr (.inr ⟨memSpare, fun same => apart (same.trans resetSlot).symm⟩),
        movedSlot.symm⟩
    by_cases mine : other = uid
    · subst mine
      exact ⟨moved, mem_replaceSeat.mpr (.inl ⟨rfl, List.mem_map.mpr there⟩), owner⟩
    · refine ⟨seat, mem_replaceSeat.mpr (.inr ⟨mem_replaceSeat.mpr (.inr ⟨mem, ?_⟩), ?_⟩),
        student⟩
      · intro same
        rw [seat_eq_of_slot distinct mem memFailed (same.trans resetSlot), assigned] at student
        exact mine (Option.some.inj student).symm
      · intro same
        rw [seat_eq_of_slot distinct mem memSpare (same.trans movedSlot), free] at student
        cases student

theorem replaceFailed_moves {slotNo : Nat} {reason commandId : String} {nowMs revision : Int}
    {result : TransitionResult} (distinct : pool.slots.Nodup)
    (done : pool.replaceFailed slotNo reason nowMs true commandId revision = .ok result)
    (fresh : result.replayed = false) : Moves pool slotNo (replacementOf result.value) := by
  rcases replaceFailed_ok done with replayed |
    ⟨print, failed, _, memFailed, slot, _, ⟨_, value, _⟩ | ⟨reset, _, _, value, _⟩ |
      ⟨reset, moved, spare, _, memSpare, free, _, moves, value, _⟩⟩
  · rw [fresh] at replayed
    cases replayed
  · rw [value]
    exact fun _ impossible => by cases impossible
  · rw [value]
    exact fun _ impossible => by cases impossible
  · rw [value]
    rintro _ ⟨⟩
    refine ⟨⟨failed, memFailed, slot, by rw [moves]; rfl⟩, fun seat mem same => ?_⟩
    simp only [isFreeSpare, Bool.and_eq_true, beq_iff_eq] at free
    have eq : seat = spare := seat_eq_of_slot distinct mem memSpare (by rw [same, moves]; rfl)
    rw [eq]
    exact free.2

theorem replaceFailed_successor {slotNo : Nat} {reason commandId container : String}
    {nowMs revision : Int} {result : TransitionResult}
    (done : pool.replaceFailed slotNo reason nowMs true commandId revision = .ok result)
    (fresh : result.replayed = false)
    (handover : Handover pool rows container (replacementOf result.value) host) :
    Successor pool result.state host := by
  have held := handover.held
  rcases replaceFailed_ok done with replayed |
    ⟨print, failed, _, memFailed, slot, _, ⟨_, value, state⟩ | ⟨reset, unassigned, resets, value,
      state⟩ | ⟨reset, moved, spare, student, memSpare, free, resets, moves, value, state⟩⟩
  · rw [fresh] at replayed
    cases replayed
  · rw [state]
    exact held.successor.seating (sameSeating_of_seats rfl)
  · have vacant : Vacant pool reset.slotNo := by
      intro seat mem same
      rw [resets] at same
      rw [seat_eq_of_slot (held.distinct pool rfl) mem memFailed same]
      exact unassigned
    rw [state]
    exact (withSeat_free (by rw [resets]; rfl) held vacant).seating (sameSeating_of_seats rfl)
  · obtain ⟨uid, assigned⟩ := Option.ne_none_iff_exists'.mp student
    simp only [isFreeSpare, Bool.and_eq_true, beq_iff_eq] at free
    have owner : moved.uid = some uid := by rw [moves]; exact assigned
    rw [state]
    exact (Successor.moved held memFailed assigned memSpare free.2 (by rw [resets]; rfl)
      (by rw [resets]; rfl) (by rw [moves]; rfl) owner
      (handover.copied moved (by rw [value]; rfl) uid owner)).seating (sameSeating_of_seats rfl)

theorem Successor.inWorld {pool' : SeatPoolState} (successor : Successor pool pool' host)
    {w : World} (published : w.tables.pool = some pool') :
    Held (some pool') w.tables.resources { host with world := w } where
  samePool := published
  sameRows := rfl
  distinct := by
    rintro _ ⟨⟩
    exact successor.distinct
  oneSeat := by
    rintro _ ⟨⟩
    exact successor.oneSeat
  kept := by
    rintro _ ⟨⟩
    exact successor.kept

/- A commit stores the next pool or leaves the old one. -/
theorem commit_call {c : Call} {pool' : SeatPoolState} (held : Held (some pool) rows host)
    (successor : Successor pool pool' host) (other : ∀ command, c ≠ .run command)
    (publishes : tableView c host.world.tables fun answer tables =>
      (answer.isOk = false ∧ tables = host.world.tables) ∨
        (answer.isOk = true ∧ tables.pool = some pool')) :
    Ends answering (call c) host (fun _ after => ∃ rows', Held (some pool') rows' after)
      (fun _ after => Held (some pool) rows after) := by
  intro choice _
  have kept : removedHome c = none := by
    cases c
    case run command => exact absurd rfl (other command)
    all_goals rfl
  have outcome := World.respond_views c choice.toChoice host.world _ publishes
  unfold LosesNothing SeatHost.respond
  rw [respond_store choice host other, kept]
  dsimp only
  generalize World.respond c choice.toChoice host.world = answered at outcome ⊢
  obtain ⟨result, w⟩ := answered
  rcases outcome with ⟨failed, tables⟩ | ⟨succeeded, published⟩
  · have after := (held.inWorld tables).writes choice.writes
    refine ⟨⟨after.answersKept, held.seated after, fun _ removed => by cases removed⟩, ?_⟩
    cases result with
    | error e => exact after
    | ok value => cases failed
  · have after := (successor.inWorld published).writes choice.writes
    refine ⟨⟨after.answersKept, ?_, fun _ removed => by cases removed⟩, ?_⟩
    · rintro slotNo uid ⟨pool₀, there, seat, mem, _, assigned⟩
      rw [held.samePool] at there
      cases there
      obtain ⟨seat', mem', owner⟩ := successor.seated seat mem uid assigned
      exact ⟨seat'.slotNo, pool', after.samePool, seat', mem', rfl, owner⟩
    · cases result with
      | error e => cases succeeded
      | ok value => exact ⟨_, after⟩

theorem commitPoolExpansion_call {state : SeatPoolState} (held : Held (some pool) rows host)
    (successor : Successor pool state host) (tid : String) (revision : Int)
    (added : List PoolResource) :
    Ends answering (commitPoolExpansion tid revision state added) host
      (fun _ after => ∃ rows', Held (some state) rows' after)
      (fun _ after => Held (some pool) rows after) := by
  refine commit_call held successor (by simp) ⟨fun _ _ => .inl ⟨rfl, rfl⟩, ?_⟩
  intro written committed
  exact .inr ⟨rfl, (ContestTables.commitPoolExpansion_ok held.samePool committed).1⟩

theorem commitPoolReplacement_call {state : SeatPoolState} (held : Held (some pool) rows host)
    (successor : Successor pool state host) (tid : String) (revision : Int) (slotNo : Nat) :
    Ends answering (commitPoolReplacement tid revision state slotNo) host
      (fun _ after => ∃ rows', Held (some state) rows' after)
      (fun _ after => Held (some pool) rows after) := by
  refine commit_call held successor (by simp) ⟨fun _ _ => .inl ⟨rfl, rfl⟩, ?_⟩
  intro bound written committed
  exact .inr ⟨rfl, ContestTables.commitPoolReplacement_ok committed⟩

theorem commitPoolRepair_call {state : SeatPoolState} (held : Held (some pool) rows host)
    (successor : Successor pool state host) (tid : String) (revision : Int)
    (resource : PoolResource) (slotNo : Nat) :
    Ends answering (commitPoolRepair tid revision state resource slotNo) host
      (fun _ after => ∃ rows', Held (some state) rows' after)
      (fun _ after => Held (some pool) rows after) := by
  refine commit_call held successor (by simp) ⟨fun _ _ => .inl ⟨rfl, rfl⟩, ?_⟩
  intro written committed
  exact .inr ⟨rfl, (ContestTables.commitPoolRepair_ok held.samePool committed).1⟩

/- The parts that the operations share. -/

theorem provisioning_only_gentle {x : Program Call Answer Raised ε α}
    (provisioning : Only Provisioning x) : Only Gentle x := provisioning.mono provisioning_gentle

theorem stagePoolGateway_gentle (revision : Int) (conf : List PoolResource) :
    Only Gentle (stagePoolGateway revision conf) :=
  Only.bind (only_call trivial) fun _ => Only.bind (only_call trivial) fun _ => only_pure

theorem restorePoolGateway_gentle (revision : Int) : Only Gentle (restorePoolGateway revision) :=
  Only.bind (only_call trivial) fun _ => only_pure

theorem restoreStaged_gentle (remote : Bool) (staged : Option Int) :
    Only Gentle (restoreStaged remote staged) := by
  cases staged with
  | none => exact only_pure
  | some revision => exact Only.onlyIf (Only.quietly (restorePoolGateway_gentle revision))

theorem reportReady_gentle (message : String) : Only Gentle (reportReady message) := by
  unfold reportReady
  refine Only.bind (only_call trivial) fun row => ?_
  match row with
  | none => exact only_pure
  | some contest => exact Only.onlyIf (only_call trivial)

theorem closing_gentle : Only Gentle (do
    releaseDeploymentLock
    leave) := Only.bind (only_call trivial) fun _ => only_call trivial

theorem run_gentle {command : HostCommand} (gentle : Gentle (.run command)) :
    Only Gentle (do let _ ← run command) := Only.bind (only_call gentle) fun _ => only_pure

theorem gentle_answered {x : Program Call Answer Raised ε α} (gentle : Only Gentle x) :
    Keeps answering Answered x := fun host answered =>
  (gentle_keeps gentle host answered).mono answering_monotone (fun _ _ held => held.answered)
    fun _ _ held => held.answered

theorem cleanupIncrementalSlots_ends (specs : List ResourceSpec)
    (held : Held (some pool) rows host) (vacant : ∀ spec ∈ specs, Vacant pool spec.slotNo) :
    Ends answering (cleanupIncrementalSlots specs) host
      (fun _ after => Held (some pool) rows after)
      (fun _ after => Held (some pool) rows after) := by
  induction specs generalizing host with
  | nil => exact held
  | cons spec rest ih =>
    have first : Ends answering (run (.removeSlot spec)) host
        (fun _ after => Held (some pool) rows after)
        (fun _ after => Held (some pool) rows after) := by
      have removes : removedHome (.run (.removeSlot spec)) = some spec.slotNo := rfl
      have call := removal_call removes held (vacant spec List.mem_cons_self)
      exact answering_monotone _ _ _ _ (fun answer after kept => by
        cases answer <;> exact kept) call
    exact first.bind answering_monotone
      (fun _ after held => ih held fun other mem => vacant other (List.mem_cons_of_mem _ mem))
      fun _ _ kept => kept

theorem quietly_ends {P : SeatHost → Prop} {body : Procedure Unit}
    (ends : Ends answering body host (fun _ => P) fun _ => P) :
    Ends answering (quietly body) host (fun _ => P) fun _ => P := by
  rw [quietly, ends_orElse]
  exact ends.mono answering_monotone (fun _ _ kept => kept) fun _ _ kept => kept

theorem seatPool_ends (held : Held stored rows host) :
    Ends answering seatPool host
      (fun found after => found = stored ∧ Held stored rows after)
      (fun _ after => Held stored rows after) := by
  intro choice permitted
  obtain ⟨lost, after⟩ := gentle_call (c := .seatPool) trivial held choice permitted
  refine ⟨lost, ?_⟩
  have view := World.respond_views .seatPool choice.toChoice host.world
    (fun answer _ => ∀ found, answer = .ok found → found = stored)
    ⟨fun _ _ _ impossible => (by cases impossible), fun found same =>
      (Except.ok.inj same).symm.trans held.samePool⟩
  have same : (SeatHost.respond .seatPool choice host).1 =
      (World.respond .seatPool choice.toChoice host.world).1 := by
    unfold SeatHost.respond
    rw [respond_store choice host (by simp)]
  rw [same]
  cases answered : (World.respond .seatPool choice.toChoice host.world).1 with
  | ok found => exact ⟨view found answered, after⟩
  | error e => exact after

theorem seatPoolResources_ends (held : Held stored rows host) :
    Ends answering seatPoolResources host
      (fun found after => found.Perm rows ∧ Held stored rows after)
      (fun _ after => Held stored rows after) := by
  intro choice permitted
  obtain ⟨lost, after⟩ := gentle_call (c := .seatPoolResources) trivial held choice permitted
  refine ⟨lost, ?_⟩
  have view := World.respond_views .seatPoolResources choice.toChoice host.world
    (fun answer _ => ∀ found, answer = .ok found → found.Perm rows)
    ⟨fun _ _ _ impossible => (by cases impossible), fun resources perm found same =>
      (Except.ok.inj same) ▸ (held.sameRows ▸ perm)⟩
  have same : (SeatHost.respond .seatPoolResources choice host).1 =
      (World.respond .seatPoolResources choice.toChoice host.world).1 := by
    unfold SeatHost.respond
    rw [respond_store choice host (by simp)]
  rw [same]
  cases answered : (World.respond .seatPoolResources choice.toChoice host.world).1 with
  | ok found => exact ⟨view found answered, after⟩
  | error e => exact after

/- The context names the stored rows, and no slot has two of them. -/
theorem poolRuntimeContext_answers (cfg : Config) (contest : Contest) (pool : SeatPoolState)
    (held : Held stored rows host) :
    Ends answering (poolRuntimeContext cfg contest pool) host
      (fun context after => Held stored rows after ∧ context.resources.Perm rows ∧
        (rows.map (·.slotNo)).Nodup)
      (fun _ after => Held stored rows after) := by
  unfold poolRuntimeContext
  refine (seatPoolResources_ends held).bind answering_monotone ?_ fun _ _ kept => kept
  rintro found h ⟨perm, held⟩
  refine ((verifiedContext_provisioning cfg contest pool found).mono
    provisioning_gentle).keeps_returning answering_monotone (fun _ is _ held => gentle_call is held)
      (verifiedContext_distinct cfg contest pool found) held |>.mono answering_monotone ?_
        fun _ _ kept => kept
  rintro context h ⟨held, listed, distinct⟩
  exact ⟨held, listed ▸ perm, (perm.map _).nodup_iff.mp distinct⟩

/- A command of the pure pool and what it returned. -/
theorem pooling {Locals : Type} {locals : Locals} {result : Except PoolError α}
    {f : α → Holding Locals β} {post : β → SeatHost → Prop}
    {raised : Raised × Locals → SeatHost → Prop} (failed : ∀ e, raised (e, locals) host)
    (next : ∀ a, result = .ok a → Ends answering (f a) host post raised) :
    Ends answering (holding locals (onPool result) >>= f) host post raised := by
  cases result with
  | ok a => exact next a rfl
  | error e => exact failed _

theorem holding_ends {Locals : Type} {locals : Locals} {body : Procedure α}
    {post : α → SeatHost → Prop} {P : SeatHost → Prop}
    (ends : Ends answering body host post fun _ => P) :
    Ends answering (holding locals body) host post fun e after => e.2 = locals ∧ P after := by
  rw [holding, ends_mapError]
  exact ends.mono answering_monotone (fun _ _ kept => kept) fun _ _ kept => ⟨rfl, kept⟩

/- Rebuilding a slot -/

theorem rebuildSlot_answers (tid : String) (slotNo failureCount : Nat) (expectedRevision : Int)
    (context : RuntimeContext) (spec : ResourceSpec) {state : SeatPoolState}
    (held : Held (some pool) rows host) (seating : SameSeating pool state) :
    Ends answering (rebuildSlot tid slotNo failureCount expectedRevision context spec state) host
      (fun _ => Answered) (fun _ after => Held (some pool) rows after) := by
  unfold rebuildSlot
  refine gently (Only.holding (provisioning_only_gentle (provisionPoolSlot_provisioning _ _ _)))
    held (fun _ _ kept => kept) fun resource h₁ held => ?_
  refine gently (Only.holding (only_call trivial)) held (fun _ _ kept => kept)
    fun verifyAtMs h₂ held => ?_
  generalize marking : state.markVerified slotNo resource.container _ _ verifyAtMs _ state.revision =
    outcome
  refine pooling (fun _ => held) fun verified marked => ?_
  have seating := seating.trans (markVerified_sameSeating (marking.trans marked))
  refine gently (Only.holding only_checked) held (fun _ _ kept => kept) fun conf h₃ held => ?_
  refine gently (Only.holding (stagePoolGateway_gentle _ _)) held (fun _ _ kept => kept)
    fun _ h₄ held => ?_
  rw [ends_bind, holding, ends_mapError]
  refine (commitPoolRepair_call held (held.successor.seating seating) tid expectedRevision
    resource slotNo).mono answering_monotone (fun _ h₅ committed => ?_) fun _ _ kept => kept
  obtain ⟨rows', held⟩ := committed
  -- nothing raises any more
  rw [ends_bind, holding, ends_mapError, quietly, ends_orElse]
  have backup : Gentle (.run (.removeBackup verified.state.revision)) := trivial
  exact (gentle_keeps (run_gentle backup) h₅ held).mono answering_monotone (fun _ _ held => held.answered) fun _ _ held => held.answered

/- The resources of a new slot name that slot. -/
theorem newPoolResourceSpec_ends (tid : String) (slotNo : Nat) (held : Held stored rows host) :
    Ends answering (newPoolResourceSpec tid slotNo) host
      (fun spec after => Held stored rows after ∧ spec.slotNo = slotNo)
      (fun _ after => Held stored rows after) := by
  have returns : Returns (fun spec => spec.slotNo = slotNo) (newPoolResourceSpec tid slotNo) :=
    Returns.bind returns_any fun _ _ => returns_pure rfl
  exact (provisioning_only_gentle (newPoolResourceSpec_provisioning tid slotNo)).keeps_returning
    answering_monotone (fun _ is _ held => gentle_call is held) returns held

theorem repairIsolatedPoolSlot_answers (cfg : Config) (tid : String) (slotNo : Nat)
    (expectedRevision : Int) (contest : Contest) :
    Keeps answering Answered
      (repairIsolatedPoolSlot cfg tid slotNo expectedRevision contest) := by
  intro host answered
  unfold repairIsolatedPoolSlot
  refine (seatPool_ends answered).bind answering_monotone ?_ fun _ _ held => held.answered
  rintro _ h₁ ⟨rfl, held⟩
  generalize host.world.tables.pool = stored at held ⊢
  generalize host.world.tables.resources = rows at held
  cases stored with
  | none => exact held.answered
  | some pool =>
    refine gently only_pipelineRaiseIf held (fun _ _ kept => kept.answered) fun _ h₂ held => ?_
    cases found : pool.seat slotNo with
    | error e => exact held.answered
    | ok failed =>
      obtain ⟨mem, slot⟩ := seat_ok found
      change Ends answering (raiseIf _ _ >>= _) h₂ _ _
      rw [ends_bind, raiseIf, Flow.ends_raiseIf]
      refine ⟨fun _ => held.answered, fun idle => ?_⟩
      simp only [not_or, not_not] at idle
      have vacant : Vacant pool slotNo := by
        intro seat memSeat same
        rw [seat_eq_of_slot (held.distinct pool rfl) memSeat mem (same.trans slot.symm)]
        exact idle.2.1
      refine gently (provisioning_only_gentle (poolRuntimeContext_provisioning cfg contest pool))
        held (fun _ _ kept => kept.answered) fun context h₃ held => ?_
      refine (newPoolResourceSpec_ends tid slotNo held).bind answering_monotone ?_
        fun _ _ held => held.answered
      rintro spec h₄ ⟨held, rfl⟩
      have removes : removedHome (.run (.removeHome spec.slotNo)) = some spec.slotNo := rfl
      have removing : Ends answering (run (.removeHome spec.slotNo)) h₄
          (fun _ after => Held (some pool) rows after)
          (fun _ after => Held (some pool) rows after) :=
        answering_monotone _ _ _ _ (fun answer after kept => by cases answer <;> exact kept)
          (removal_call removes held vacant)
      refine removing.bind answering_monotone (fun _ h₅ held => ?_) fun _ _ held => held.answered
      refine gently (only_call trivial) held (fun _ _ kept => kept.answered)
        fun warmAtMs h₆ held => ?_
      generalize marking : pool.markWarming spec.slotNo warmAtMs
        (repairId "warm" tid spec.slotNo failed.failureCount) pool.revision = marked
      cases marked with
      | error e => exact held.answered
      | ok warming =>
        change Ends answering (Program.orElse _ _) h₆ _ _
        rw [ends_orElse]
        refine (rebuildSlot_answers tid spec.slotNo failed.failureCount expectedRevision context
          spec held (markWarming_sameSeating marking)).mono answering_monotone
            (fun _ _ kept => kept) fun raised h₇ held => ?_
        refine gently (restoreStaged_gentle _ _) held (fun _ _ kept => kept.answered)
          fun _ h₈ held => ?_
        refine (quietly_ends (cleanupIncrementalSlots_ends [spec] held fun other mem => ?_)).bind
          answering_monotone (fun _ _ held => held.answered) fun _ _ held => held.answered
        rw [List.mem_singleton.mp mem]
        exact vacant

theorem repairPoolCapacity_answers (cfg : Config) (tid : String) (slotNo : Nat)
    (expectedRevision : Int) :
    Keeps answering Answered (repairPoolCapacity cfg tid slotNo expectedRevision) := by
  intro host answered
  unfold repairPoolCapacity
  have calm : ∀ {ε α : Type} {x : Program Call Answer Raised ε α}, Only Gentle x →
      Keeps answering Answered x := gentle_answered
  refine Keeps.bind answering_monotone (calm (only_call (by trivial))) (fun _ => ?_) host answered
  refine Keeps.andFinally answering_monotone ?_ (calm closing_gentle)
  refine Keeps.bind answering_monotone (calm (only_call (by trivial))) fun _ => ?_
  refine Keeps.bind answering_monotone (calm (only_call (by trivial))) fun row => ?_
  cases row with
  | none => exact keeps_raise
  | some contest =>
    refine Keeps.bind answering_monotone (calm only_pipelineRaiseIf) fun _ => ?_
    refine Keeps.bind answering_monotone (calm (provisioning_only_gentle
      (validateContestSnapshot_provisioning contest))) fun _ => ?_
    refine Keeps.bind answering_monotone (calm (only_call (by trivial))) fun status => ?_
    refine Keeps.bind answering_monotone (calm only_pipelineRaiseIf) fun _ => ?_
    refine Keeps.bind answering_monotone (calm (only_call (by trivial))) fun reachable => ?_
    refine Keeps.bind answering_monotone (calm only_pipelineRaiseIf) fun _ => ?_
    refine Keeps.bind answering_monotone (repairIsolatedPoolSlot_answers cfg tid slotNo
      expectedRevision contest) fun revision => ?_
    exact Keeps.bind answering_monotone (calm (only_call (by trivial))) fun _ => keeps_pure

/- Growing -/

/-- The slots that a failed growth gives up have no student. -/
def Retractable (locals : GrowLocals) (host : SeatHost) : Prop :=
  Answered host ∧ (locals.committed = false → locals.attempted = [] ∨
    ∃ pool, host.world.tables.pool = some pool ∧
      ∀ spec ∈ locals.attempted, Vacant pool spec.slotNo)

theorem Held.retractable (held : Held (some pool) rows host) {locals : GrowLocals}
    (vacant : ∀ spec ∈ locals.attempted, Vacant pool spec.slotNo) : Retractable locals host :=
  ⟨held.answered, fun _ => .inr ⟨pool, held.samePool, vacant⟩⟩

theorem provisionAdded_answers (context : RuntimeContext) (tid : String) (expectedRevision : Int)
    (slots : List Nat) (state : SeatPoolState) (existingCips : List String)
    (attempted : List ResourceSpec) (resources : List PoolResource)
    (held : Held (some pool) rows host) (vacantSlots : ∀ slotNo ∈ slots, Vacant pool slotNo)
    (vacant : ∀ spec ∈ attempted, Vacant pool spec.slotNo) :
    Ends answering (provisionAdded context tid expectedRevision slots state existingCips
      attempted resources) host
      (fun provisioned after => Held (some pool) rows after ∧ SameSeating state provisioned.1 ∧
        ∀ spec ∈ provisioned.2.1, Vacant pool spec.slotNo)
      (fun e after => Retractable e.2 after) := by
  induction slots generalizing host state existingCips attempted resources with
  | nil => exact ⟨held, .refl state, vacant⟩
  | cons slotNo rest ih =>
    simp only [provisionAdded]
    have retract : ∀ locals : GrowLocals, (∀ spec ∈ locals.attempted, Vacant pool spec.slotNo) →
        ∀ h, Held (some pool) rows h → Retractable locals h :=
      fun locals all h held => held.retractable all
    rw [ends_bind]
    refine (holding_ends (gentle_keeps (only_call (by trivial)) host held)).mono answering_monotone
      (fun warmAtMs h₁ held => ?_) fun e h kept => by rw [kept.1]; exact retract _ vacant h kept.2
    generalize marking : state.markWarming slotNo warmAtMs _ state.revision = marked
    refine pooling (fun _ => retract _ vacant h₁ held) fun warming warmed => ?_
    rw [warmed] at marking
    rw [ends_bind]
    refine (holding_ends (newPoolResourceSpec_ends tid slotNo held)).mono answering_monotone ?_
      fun e h kept => by rw [kept.1]; exact retract _ vacant h kept.2
    rintro spec h₂ ⟨held, named⟩
    have vacant' : ∀ other ∈ attempted ++ [spec], Vacant pool other.slotNo := by
      intro other mem
      rcases List.mem_append.mp mem with old | new
      · exact vacant other old
      · rw [List.mem_singleton.mp new, named]
        exact vacantSlots slotNo List.mem_cons_self
    rw [ends_bind]
    refine (holding_ends (gentle_keeps (provisioning_only_gentle
      (provisionPoolSlot_provisioning context spec existingCips)) h₂ held)).mono
        answering_monotone (fun resource h₃ held => ?_)
        fun e h kept => by rw [kept.1]; exact retract _ vacant' h kept.2
    rw [ends_bind]
    refine (holding_ends (gentle_keeps (only_call (by trivial)) h₃ held)).mono answering_monotone
      (fun verifyAtMs h₄ held => ?_) fun e h kept => by rw [kept.1]; exact retract _ vacant' h kept.2
    generalize verifying : warming.state.markVerified slotNo resource.container _ _ verifyAtMs _ _ =
      outcome
    refine pooling (fun _ => retract _ vacant' h₄ held) fun verified marked => ?_
    refine (ih verified.state _ _ _ held (fun other mem => vacantSlots other
      (List.mem_cons_of_mem _ mem)) vacant').mono answering_monotone ?_ fun _ _ kept => kept
    rintro provisioned h₅ ⟨held, seating, all⟩
    exact ⟨held, ((markWarming_sameSeating marking).trans
      (markVerified_sameSeating (verifying.trans marked))).trans seating, all⟩

theorem commitOrRestore_answers {Locals : Type} {staged unstaged : Locals} {revision : Int}
    {commit : Procedure α} {post : α → SeatHost → Prop}
    (commits : Ends answering commit host post fun _ after => Held (some pool) rows after) :
    Ends answering (commitOrRestore staged unstaged revision commit) host post
      fun e after => (e.2 = staged ∨ e.2 = unstaged) ∧ Held (some pool) rows after := by
  unfold commitOrRestore
  rw [ends_orElse, holding, ends_mapError]
  refine commits.mono answering_monotone (fun _ _ kept => kept) fun e h held => ?_
  rw [ends_bind, holding, ends_mapError]
  exact (gentle_keeps (restorePoolGateway_gentle revision) h held).mono answering_monotone
    (fun _ _ held => ⟨.inr rfl, held⟩) fun _ _ held => ⟨.inl rfl, held⟩

theorem growBody_answers (cfg : Config) (tid : String) (mains spares expectedRevision : Int)
    (answered : Answered host) :
    Ends answering (growBody cfg tid mains spares expectedRevision) host (fun _ => Answered)
      fun e after => Retractable e.2 after := by
  have early : ∀ (locals : GrowLocals) {stored rows h}, locals.attempted = [] →
      Held stored rows h → Retractable locals h := fun locals _ _ _ none held =>
    ⟨held.answered, fun _ => .inl none⟩
  have first : ∀ {γ : Type} {x : Procedure γ} {locals : GrowLocals} {stored rows h},
      locals.attempted = [] → Only Gentle x → Held stored rows h →
      Ends answering (holding locals x) h (fun _ after => Held stored rows after)
        fun e after => Retractable e.2 after := fun none gentle held =>
    (holding_ends (gentle_keeps gentle _ held)).mono answering_monotone (fun _ _ kept => kept)
      fun e h kept => by rw [kept.1]; exact early _ none kept.2
  unfold growBody
  refine (first rfl (only_call (by trivial)) answered).bind answering_monotone (fun _ h₁ held => ?_)
    fun _ _ kept => kept
  refine (first rfl (only_call (by trivial)) held).bind answering_monotone (fun row h₂ held => ?_)
    fun _ _ kept => kept
  refine (holding_ends (seatPool_ends held)).bind answering_monotone ?_
    fun e h kept => by rw [kept.1]; exact early _ rfl kept.2
  rintro _ h₃ ⟨rfl, held⟩
  generalize host.world.tables.pool = stored at held ⊢
  generalize host.world.tables.resources = rows at held
  match row, stored with
  | none, _ => exact early _ rfl held
  | some _, none => exact early _ rfl held
  | some contest, some pool =>
    refine (first rfl only_pipelineRaiseIf held).bind answering_monotone
      (fun _ h₄ held => ?_) fun _ _ kept => kept
    refine (first rfl (provisioning_only_gentle
      (validateContestSnapshot_provisioning contest)) held).bind answering_monotone
        (fun _ h₅ held => ?_) fun _ _ kept => kept
    refine pooling (fun _ => early _ rfl held) fun grown done => ?_
    rcases grow_ok done with replayed | ⟨print, fresh, _, _, _, _, value, state⟩
    · simp only [replayed, if_true]
      exact held.answered
    · simp only [fresh, Bool.false_eq_true, if_false]
      refine (first rfl only_pipelineRaiseIf held).bind answering_monotone
        (fun _ h₆ held => ?_) fun _ _ kept => kept
      refine (first rfl only_pipelineRaiseIf held).bind answering_monotone
        (fun _ h₇ held => ?_) fun _ _ kept => kept
      refine (first rfl (only_call (by trivial)) held).bind answering_monotone
        (fun status h₈ held => ?_) fun _ _ kept => kept
      refine (first rfl only_pipelineRaiseIf held).bind answering_monotone
        (fun _ h₉ held => ?_) fun _ _ kept => kept
      refine (first rfl (only_call (by trivial)) held).bind answering_monotone
        (fun reachable h₁₀ held => ?_) fun _ _ kept => kept
      refine (first rfl only_pipelineRaiseIf held).bind answering_monotone
        (fun _ h₁₁ held => ?_) fun _ _ kept => kept
      refine (first rfl (provisioning_only_gentle (poolRuntimeContext_provisioning cfg contest
        pool)) held).bind answering_monotone (fun context h₁₂ held => ?_) fun _ _ kept => kept
      have fresh_slots : ∀ slotNo ∈ addedSlots grown.value, Vacant pool slotNo := by
        intro slotNo mem
        rw [value] at mem
        obtain ⟨seat, added, rfl⟩ := List.mem_map.mp mem
        intro other known same
        exact absurd (same ▸ slot_mem known) (mem_addedSeats added).2.2
      refine (provisionAdded_answers context tid expectedRevision _ grown.state _ [] [] held
        fresh_slots fun _ impossible => by cases impossible).bind answering_monotone ?_
          fun _ _ kept => kept
      rintro ⟨final, attempted, added⟩ h₁₃ ⟨held, seating, vacant⟩
      dsimp only at seating vacant ⊢
      have given_up : ∀ (locals : GrowLocals) (h : SeatHost), locals.attempted = attempted →
          Held (some pool) rows h → Retractable locals h :=
        fun locals h same held => held.retractable (same ▸ vacant)
      have later : ∀ {γ : Type} {x : Procedure γ} {locals : GrowLocals} {h},
          locals.attempted = attempted → Only Gentle x → Held (some pool) rows h →
          Ends answering (holding locals x) h (fun _ after => Held (some pool) rows after)
            fun e after => Retractable e.2 after := fun same gentle held =>
        (holding_ends (gentle_keeps gentle _ held)).mono answering_monotone (fun _ _ kept => kept)
          fun e h kept => by rw [kept.1]; exact given_up _ h same kept.2
      refine (later rfl only_checked held).bind answering_monotone (fun conf h₁₄ held => ?_)
        fun _ _ kept => kept
      refine (later rfl (stagePoolGateway_gentle _ _) held).bind answering_monotone
        (fun _ h₁₅ held => ?_) fun _ _ kept => kept
      have successor : Successor pool final h₁₅ := by
        refine Successor.seating ?_ seating
        rw [state]
        exact (Successor.extended held mains spares).seating (sameSeating_of_seats rfl)
      refine (commitOrRestore_answers (commitPoolExpansion_call held successor tid
        expectedRevision added)).bind answering_monotone (fun _ h₁₆ committed => ?_) ?_
      · obtain ⟨rows', held⟩ := committed
        have done : ∀ {γ : Type} {x : Procedure γ} {locals : GrowLocals} {h},
            locals.committed = true → Only Gentle x → Answered h →
            Ends answering (holding locals x) h (fun _ after => Answered after)
              fun e after => Retractable e.2 after := fun committed gentle answered =>
          (holding_ends (gentle_answered gentle _ answered)).mono answering_monotone
            (fun _ _ kept => kept) fun e h kept => ⟨kept.2, fun pending => by
              rw [kept.1, committed] at pending
              cases pending⟩
        refine (done rfl (only_call (by trivial)) held.answered).bind answering_monotone
          (fun _ h₁₇ answered => ?_) fun _ _ kept => kept
        exact (done rfl (only_call (by trivial)) answered).bind answering_monotone
          (fun _ _ answered => answered) fun _ _ kept => kept
      · rintro e h ⟨either, held⟩
        refine given_up e.2 h ?_ held
        rcases either with same | same <;> rw [same]

theorem growFailed_answers (error : Raised) (locals : GrowLocals)
    (retractable : Retractable locals host) :
    Ends answering (growFailed error locals : Procedure α) host (fun _ => Answered)
      fun _ => Answered := by
  obtain ⟨answered, vacant⟩ := retractable
  unfold growFailed
  refine gently (restoreStaged_gentle _ _) answered (fun _ _ held => held.answered)
    fun _ h₁ held => ?_
  have cleanup : Ends answering (onlyIf (locals.remote ∧ locals.attempted ≠ [] ∧
      ¬ locals.committed) (quietly (cleanupIncrementalSlots locals.attempted))) h₁
      (fun _ => Answered) fun _ => Answered := by
    unfold onlyIf
    rw [ends_ite]
    refine ⟨fun condition => quietly_ends ?_, fun _ => held.answered⟩
    have pending : locals.committed = false := by simpa using condition.2.2
    rcases vacant pending with none | ⟨pool, stored, vacant⟩
    · exact absurd none condition.2.1
    · rw [stored] at held
      exact (cleanupIncrementalSlots_ends _ held vacant).mono answering_monotone
        (fun _ _ held => held.answered) fun _ _ held => held.answered
  refine cleanup.bind answering_monotone (fun _ h₂ answered => ?_) fun _ _ answered => answered
  exact (gentle_answered (reportReady_gentle _) h₂ answered).bind answering_monotone
    (fun _ _ answered => answered) fun _ _ answered => answered

theorem growPool_answers (cfg : Config) (tid : String) (mains spares expectedRevision : Int) :
    Keeps answering Answered (growPool cfg tid mains spares expectedRevision) := by
  unfold growPool
  refine Keeps.bind answering_monotone (gentle_answered (only_call (by trivial))) fun _ => ?_
  refine Keeps.andFinally answering_monotone (fun host answered => ?_)
    (gentle_answered closing_gentle)
  rw [ends_orElse]
  exact (growBody_answers cfg tid mains spares expectedRevision answered).mono answering_monotone
    (fun _ _ answered => answered) fun e h retractable => growFailed_answers e.1 e.2 retractable

/- Replacing -/

theorem replaceBody_answers (cfg : Config) (tid : String) (slotNo : Nat) (reason : String)
    (expectedRevision : Int) :
    Keeps answering Answered (replaceBody cfg tid slotNo reason expectedRevision) := by
  intro host answered
  unfold replaceBody
  have failed : ∀ {stored rows} (e : Raised × ReplaceLocals) (h : SeatHost),
      Held stored rows h → Answered h := fun _ _ held => held.answered
  refine gently (Only.holding (only_call (by trivial))) answered failed fun _ h₁ held => ?_
  refine gently (Only.holding (only_call (by trivial))) held failed fun row h₂ held => ?_
  refine (holding_ends (seatPool_ends held)).bind answering_monotone ?_
    fun _ _ kept => kept.2.answered
  rintro _ h₃ ⟨rfl, held⟩
  generalize host.world.tables.pool = stored at held ⊢
  generalize host.world.tables.resources = rows at held
  match row, stored with
  | none, _ => exact held.answered
  | some _, none => exact held.answered
  | some contest, some pool =>
    refine gently (Only.holding only_pipelineRaiseIf) held failed fun _ h₄ held => ?_
    refine gently (Only.holding (provisioning_only_gentle
      (validateContestSnapshot_provisioning contest))) held failed fun _ h₅ held => ?_
    refine gently (Only.holding (only_call (by trivial))) held failed fun nowMs h₆ held => ?_
    generalize replacing : pool.replaceFailed slotNo reason nowMs true _ expectedRevision = outcome
    refine pooling (fun _ => held.answered) fun replaced returned => ?_
    have done := replacing.trans returned
    by_cases replayed : replaced.replayed = true
    · simp only [replayed, if_true]
      exact held.answered
    · have fresh : replaced.replayed = false := by simpa using replayed
      simp only [fresh, Bool.false_eq_true, if_false]
      have moves := replaceFailed_moves (held.distinct pool rfl) done fresh
      refine gently (Only.holding (only_call (by trivial))) held failed fun status h₇ held => ?_
      refine gently (Only.holding only_pipelineRaiseIf) held failed fun _ h₈ held => ?_
      refine gently (Only.holding (only_call (by trivial))) held failed fun reachable h₉ held => ?_
      refine gently (Only.holding only_pipelineRaiseIf) held failed fun _ h₁₀ held => ?_
      refine (holding_ends (poolRuntimeContext_answers cfg contest pool held)).bind
        answering_monotone ?_ fun _ _ kept => kept.2.answered
      rintro context h₁₁ ⟨held, listed, distinct⟩
      cases finding : findResource context.resources slotNo "故障座位连接资源不存在" with
      | error e => exact held.answered
      | ok failedResource =>
        obtain ⟨there, slot⟩ := findResource_ok finding
        have only : ∀ row ∈ rows, row.slotNo = slotNo →
            row.container = failedResource.container := fun row mem same => by
          rw [List.inj_on_of_nodup_map distinct mem (listed.subset there) (same.trans slot.symm)]
        change Ends answering (pauseFailed _ >>= _) h₁₁ _ _
        refine (pauseFailed_stops held _).bind answering_monotone ?_
          fun _ _ held => held.answered
        rintro pausedByUs h₁₂ ⟨held, stopped⟩
        refine (holding_ends (copyToReplacement_ends context moves only held stopped)).bind
          answering_monotone (fun _ h₁₃ handover => ?_) fun _ _ kept => kept.2.answered
        cases building : poolGatewayConf (context.resources.filter (·.slotNo != slotNo)) with
        | error e => exact handover.held.answered
        | ok conf =>
          change Ends answering (holding _ (stagePoolGateway _ conf) >>= _) h₁₃ _ _
          refine (holding_ends (stagePoolGateway_handover moves only _ conf handover)).bind
            answering_monotone (fun _ h₁₄ handover => ?_) fun _ _ kept => kept.2.answered
          refine (commitOrRestore_answers (commitPoolReplacement_call handover.held
            (replaceFailed_successor done fresh handover) tid expectedRevision slotNo)).bind
              answering_monotone (fun bound h₁₅ committed => ?_) fun _ _ kept => kept.2.answered
          obtain ⟨rows', held⟩ := committed
          refine gently (Only.holding (only_call (by trivial))) held failed fun _ h₁₆ held => ?_
          refine gently (Only.holding (Only.quietly (run_gentle (by trivial)))) held failed
            fun _ h₁₇ held => ?_
          refine (holding_ends ((repairIsolatedPoolSlot_answers cfg tid slotNo _
            contest).attempt h₁₇ held.answered)).bind answering_monotone
              (fun rebuilt h₁₈ answered => ?_) fun _ _ kept => kept.2
          exact gently (Only.holding (only_call (by trivial))) answered failed
            fun _ _ held => held.answered

theorem replaceFailed_gentle (error : Raised) (locals : ReplaceLocals) :
    Only Gentle (replaceFailed error locals : Procedure α) := by
  unfold replaceFailed
  refine (restoreStaged_gentle _ _).bind fun _ => ?_
  refine Only.bind (Only.onlyIf (Only.quietly (run_gentle (by trivial)))) fun _ => ?_
  exact (reportReady_gentle _).bind fun _ => only_raise

theorem replaceFailedSeat_answers (cfg : Config) (tid : String) (slotNo : Nat) (reason : String)
    (expectedRevision : Int) (teacherApproved : Bool) :
    Keeps answering Answered
      (replaceFailedSeat cfg tid slotNo reason expectedRevision teacherApproved) := by
  unfold replaceFailedSeat
  apply Keeps.ite keeps_raise
  refine Keeps.bind answering_monotone (gentle_answered (only_call (by trivial))) fun _ => ?_
  refine Keeps.andFinally answering_monotone ?_ (gentle_answered closing_gentle)
  exact Keeps.orElse answering_monotone
    (replaceBody_answers cfg tid slotNo reason expectedRevision)
    fun failed => gentle_answered (replaceFailed_gentle failed.1 failed.2)

theorem operation_answers (cfg : Config) (operation : SeatOperation) :
    Keeps answering Answered (operation.procedure cfg) := by
  cases operation with
  | growPool tid mains spares revision =>
    exact (growPool_answers cfg tid mains spares revision).bind answering_monotone
      fun _ => keeps_pure
  | replaceFailedSeat tid slotNo reason revision approved =>
    exact (replaceFailedSeat_answers cfg tid slotNo reason revision approved).bind
      answering_monotone fun _ => keeps_pure
  | repairPoolCapacity tid slotNo revision =>
    exact (repairPoolCapacity_answers cfg tid slotNo revision).bind answering_monotone
      fun _ => keeps_pure

section Histories
variable (cfg : Config)

abbrev SeatRun : Type := SeatOperation × (Nat → SeatChoice)

def afterSeatOperation (host : SeatHost) (run : SeatRun) : SeatHost :=
  ((run.1.procedure cfg).exec SeatHost.respond run.2 host).2

/-- No call of the operation loses an answer. -/
def NothingLost (host : SeatHost) (run : SeatRun) : Prop :=
  (run.1.procedure cfg).Obeys SeatHost.respond LosesNothing run.2 host

theorem nothing_lost (run : SeatRun) (answered : Answered host) :
    NothingLost cfg host run ∧ Answered (afterSeatOperation cfg host run) := by
  have ends := operation_answers cfg run.1 host answered
  have free : (run.1.procedure cfg).Obeys SeatHost.respond (fun _ _ _ => True) run.2 host :=
    obeys_trivial _ _ _
  refine ⟨obeys_of_checking ends free, ?_⟩
  have meets := exec_of_checking ends free
  unfold afterSeatOperation
  generalize (run.1.procedure cfg).exec SeatHost.respond run.2 host = ended at meets ⊢
  obtain ⟨result, after⟩ := ended
  cases result <;> exact meets

/- Over every history of operations, whatever fails in them, in a pool that has no slot and no
   student twice. -/
theorem no_answers_lost (start : SeatHost)
    (distinct : ∀ pool ∈ start.world.tables.pool, pool.slots.Nodup)
    (oneSeat : ∀ pool ∈ start.world.tables.pool, OneSeat pool) (kept : start.AnswersKept)
    (history : List SeatRun) :
    Runs.Guarded (afterSeatOperation cfg) (NothingLost cfg) start history := by
  have answered : Answered start := ⟨rfl, rfl, distinct, oneSeat,
    fun pool there seat mem uid assigned =>
      kept seat.slotNo uid ⟨pool, there, seat, mem, rfl, assigned⟩⟩
  clear distinct oneSeat kept
  induction history generalizing start with
  | nil => trivial
  | cons run rest ih =>
    obtain ⟨here, after⟩ := nothing_lost cfg run answered
    exact ⟨here, ih _ after⟩

end Histories

section Sample

/- The two students have one file each; the seat of the first has stopped. -/
def seatHost : SeatHost where
  world := TwoStudents.world
  trees
    | 1 => fun path => if path = "apple/apple.cpp" then some [97] else none
    | 2 => fun path => if path = "banana/banana.cpp" then some [98] else none
    | _ => SeatHost.noFiles
  containers := fun name =>
    if name = TwoStudents.container 1 then some .exited
    else if name ∈ [2, 3, 4].map TwoStudents.container then some .running
    else none
  kept
    | 7 => fun path => if path = "apple/apple.cpp" then some [97] else none
    | 8 => fun path => if path = "banana/banana.cpp" then some [98] else none
    | _ => SeatHost.noFiles

def replaceStopped : SeatRun :=
  (.replaceFailedSeat TwoStudents.tid 1 "broken" 9 true,
    fun n => { TwoStudents.choices false n with })

theorem seatHost_kept : seatHost.AnswersKept := by
  rintro slotNo uid ⟨_, there, seat, mem, rfl, assigned⟩
  cases there
  simp only [TwoStudents.pool, List.mem_cons, List.not_mem_nil, or_false] at mem
  rcases mem with rfl | rfl | rfl | rfl
  · cases assigned
    exact fun _ _ wrote => wrote
  · cases assigned
    exact fun _ _ wrote => wrote
  · cases assigned
  · cases assigned

/- The student goes on at the third slot. -/
theorem replacement_loses_nothing :
    ((afterSeatOperation TwoStudents.cfg seatHost replaceStopped).world.tables.pool.bind
      (·.assignment 7)).map (·.slotNo) = some 3 ∧
    NothingLost TwoStudents.cfg seatHost replaceStopped := by
  have guarded := no_answers_lost TwoStudents.cfg seatHost
    (by rintro _ ⟨⟩; decide) (by rintro _ ⟨⟩; unfold OneSeat; decide) seatHost_kept
    [replaceStopped]
  exact ⟨by decide +kernel, guarded.1⟩

end Sample

end NoiContest.Pipeline
