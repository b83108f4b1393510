import NoiContest.Lib.Runs
import NoiContest.Pipeline.IsolationRuns

/- A replacement moves the files of a student to a spare before the pool says so. -/
namespace NoiContest.Pipeline
open SeatPool SeatPoolState Flow

section Replacing
variable {pool : SeatPoolState} {resources : List PoolResource} {w : World}
  {ε α β : Type}

/-- The spare that a replacement copies to, with the student whose files are copied. -/
def lentSpare (replacement : Option Seat) : Option (Nat × Int) :=
  replacement.bind fun moved => moved.uid.map fun uid => (moved.slotNo, uid)

theorem copy_steady {failed spare : Seat} {uid : Int} (reached : AnswerFile → Bool)
    (steady : Steady pool resources none none w) (memFailed : failed ∈ pool.seats)
    (assigned : failed.uid = some uid) (memSpare : spare ∈ pool.seats) (free : spare.IsFree) :
    Steady pool resources (some (spare.slotNo, uid)) none
      (w.copy failed.slotNo spare.slotNo reached) := by
  have elsewhere : ∀ slot, slot ≠ spare.slotNo →
      (w.copy failed.slotNo spare.slotNo reached).answers slot = w.answers slot := by
    intro slot other
    simp [World.copy, World.setAnswers, other]
  have copied : ∀ file ∈ (w.copy failed.slotNo spare.slotNo reached).answers spare.slotNo,
      file.author = uid := by
    intro file inside
    have empty : w.answers spare.slotNo = [] := steady.isolated.clean memSpare free
    simp only [World.copy, World.setAnswers, World.merge, if_true, empty, List.filter_nil,
      List.append_nil] at inside
    exact steady.isolated.own failed memFailed uid assigned file (List.mem_filter.mp inside).1
  refine ⟨steady.stored, steady.rows, ⟨steady.isolated.distinct, ?_, ?_, ?_⟩,
    fun _ impossible => by cases impossible⟩
  · intro seat mem other owner file inside
    have apart : seat.slotNo ≠ spare.slotNo := by
      intro same
      rw [seat_eq_of_slot steady.isolated.distinct mem memSpare same, free.2] at owner
      cases owner
    rw [elsewhere _ apart] at inside
    exact steady.isolated.own seat mem other owner file inside
  · intro seat mem vacant file inside
    by_cases same : seat.slotNo = spare.slotNo
    · rw [same] at inside ⊢
      exact ⟨uid, rfl, copied file inside⟩
    · rw [elsewhere _ same, steady.isolated.clean mem vacant] at inside
      cases inside
  · intro slot absent
    have apart : slot ≠ spare.slotNo := fun same => absent (same ▸ slot_mem memSpare)
    rw [elsewhere _ apart]
    exact steady.isolated.outside slot absent

/- The published pool of a replacement, when the files of the lent spare are its student's. -/
theorem replaceFailed_isolated {slotNo : Nat} {reason commandId : String}
    {nowMs expectedRevision : Int} {result : TransitionResult}
    (done : pool.replaceFailed slotNo reason nowMs true commandId expectedRevision = .ok result)
    (fresh : result.replayed = false) {answers : Nat → List AnswerFile}
    (isolated : Isolated (lentSpare (replacementOf result.value)) pool answers) :
    Isolated none result.state answers := by
  rcases replaceFailed_ok done with replayed |
    ⟨print, failed, _, memFailed, _, _, ⟨_, value, state⟩ | ⟨reset, _, resets, value, state⟩ |
      ⟨reset, moved, spare, student, memSpare, free, resets, moves, value, state⟩⟩
  · rw [fresh] at replayed
    cases replayed
  · rw [value] at isolated
    have unlent : Isolated none pool answers := isolated
    rw [state]
    exact unlent.same_seats rfl
  · rw [value] at isolated
    have vacated : Isolated none (pool.withSeat reset) answers :=
      Isolated.vacated isolated (by rw [resets]; rfl) (by rw [resets]; rfl)
    rw [state]
    exact vacated.same_seats rfl
  · obtain ⟨uid, assigned⟩ := Option.ne_none_iff_exists'.mp student
    have owner : moved.uid = some uid := by rw [moves]; exact assigned
    have slot : moved.slotNo = spare.slotNo := by rw [moves]; rfl
    have lent : lentSpare (replacementOf result.value) = some (moved.slotNo, uid) := by
      simp [value, replacementOf, lentSpare, owner]
    rw [lent] at isolated
    have idle : spare.IsFree := by
      simp only [isFreeSpare, Bool.and_eq_true, beq_iff_eq] at free
      exact ⟨free.1.2, free.2⟩
    have vacated : Isolated (some (moved.slotNo, uid)) (pool.withSeat reset) answers :=
      isolated.vacated (by rw [resets]; rfl) (by rw [resets]; rfl)
    have seated : Isolated (some (moved.slotNo, uid))
        ((pool.withSeat reset).withSeat moved) answers := by
      apply vacated.seated owner
      intro file inside
      rw [slot] at inside
      obtain ⟨author, same, authored⟩ := isolated.free spare memSpare idle file inside
      rw [authored]
      exact (congrArg Prod.snd (Option.some.inj same)).symm
    have settled : Isolated none ((pool.withSeat reset).withSeat moved) answers := by
      apply seated.settled
      intro seat mem same vacant
      rcases mem_replaceSeat.mp mem with ⟨rfl, _⟩ | ⟨_, other⟩
      · rw [vacant.2] at owner
        cases owner
      · exact other same
    rw [state]
    exact settled.same_seats rfl

theorem poolRuntimeContext_isolated (cfg : Config) (contest : Contest)
    (steady : Steady pool resources none none w) :
    Ends isolating (poolRuntimeContext cfg contest pool) w
      (fun context w' => Steady pool resources none none w' ∧
        context.resources = resources.insertionSort (fun a b => a.slotNo ≤ b.slotNo))
      (fun _ w' => IsolatedWorld w') := by
  have read : Ends isolating seatPoolResources w
      (fun listed w' => Steady pool resources none none w' ∧
        listed = resources.insertionSort (fun a b => a.slotNo ≤ b.slotNo))
      (fun _ w' => IsolatedWorld w') := by
    intro choice through
    have after := (harmless_call (c := .seatPoolResources) trivial steady) choice through
    refine ⟨after.1, ?_⟩
    rcases respond_cases (c := .seatPoolResources) choice w with ⟨e, eq⟩ | eq
    · rw [eq] at after ⊢
      exact after.2.world
    · rw [eq] at after ⊢
      exact ⟨after.2, by rw [← steady.rows]⟩
  unfold poolRuntimeContext
  apply read.bind isolating_monotone _ fun _ _ kept => kept
  rintro listed w' ⟨steady, rfl⟩
  exact ((harmless_of_preparatory (verifiedContext_only cfg contest pool _)).keeps_returning
    isolating_monotone (fun c is w steady => harmless_call (w := w) is steady)
    (verifiedContext_resources cfg contest pool _) steady).mono isolating_monotone
    (fun _ _ kept => kept) fun _ _ kept => kept.world

/- The files are with the spare, and the gateway can be configured without the failed seat. -/
theorem copyToReplacement_isolated {slotNo : Nat} {reason commandId : String}
    {nowMs expectedRevision : Int} {result : TransitionResult} (context : RuntimeContext)
    (done : pool.replaceFailed slotNo reason nowMs true commandId expectedRevision = .ok result)
    (fresh : result.replayed = false) (steady : Steady pool resources none none w) :
    Ends isolating (copyToReplacement context slotNo (replacementOf result.value)) w
      (fun _ w' => Steady pool resources (lentSpare (replacementOf result.value)) none w' ∧
        (lentSpare (replacementOf result.value) = none ∨
          (poolGatewayConf ((resources.insertionSort (fun a b => a.slotNo ≤ b.slotNo)).filter
            (·.slotNo != slotNo))).isOk = true))
      (fun _ w' => IsolatedWorld w') := by
  have idle : ∀ unreplaced : Option Seat, unreplaced = none →
      Ends isolating (copyToReplacement context slotNo unreplaced) w
        (fun _ w' => Steady pool resources (lentSpare unreplaced) none w' ∧
          (lentSpare unreplaced = none ∨
            (poolGatewayConf ((resources.insertionSort (fun a b => a.slotNo ≤ b.slotNo)).filter
              (·.slotNo != slotNo))).isOk = true))
        (fun _ w' => IsolatedWorld w') := by
    rintro _ rfl
    exact ⟨steady, .inl rfl⟩
  rcases replaceFailed_ok done with replayed |
    ⟨print, failed, _, memFailed, slotFailed, _, ⟨_, value, _⟩ | ⟨reset, _, _, value, _⟩ |
      ⟨reset, moved, spare, student, memSpare, free, _, moves, value, _⟩⟩
  · rw [fresh] at replayed
    cases replayed
  · exact idle _ (by rw [value]; rfl)
  · exact idle _ (by rw [value]; rfl)
  · obtain ⟨uid, assigned⟩ := Option.ne_none_iff_exists'.mp student
    have owner : moved.uid = some uid := by rw [moves]; exact assigned
    have slot : moved.slotNo = spare.slotNo := by rw [moves]; rfl
    have vacant : spare.IsFree := by
      simp only [isFreeSpare, Bool.and_eq_true, beq_iff_eq] at free
      exact ⟨free.1.2, free.2⟩
    have replacement : replacementOf result.value = some moved := by rw [value]; rfl
    have lent : lentSpare (some moved) = some (spare.slotNo, uid) := by
      simp [lentSpare, owner, slot]
    rw [replacement, lent]
    unfold copyToReplacement
    dsimp only
    cases checking : findResource context.resources moved.slotNo "备用座位连接资源不存在" with
    | error e => exact steady.world
    | ok spareResource =>
      have copying : Ends isolating (run (.copyAnswers slotNo moved.slotNo)) w
          (fun _ w' => Steady pool resources (some (spare.slotNo, uid)) none w' ∧
            (poolGatewayConf ((resources.insertionSort (fun a b => a.slotNo ≤ b.slotNo)).filter
              (·.slotNo != slotNo))).isOk = true)
          (fun _ w' => IsolatedWorld w') := by
        intro choice through
        have built := through.2 slotNo rfl
        rw [sortedResources, steady.rows] at built
        rcases respond_cases (c := .run (.copyAnswers slotNo moved.slotNo)) choice w with
          ⟨e, eq⟩ | eq
        · have kept : Steady pool resources (some (spare.slotNo, uid)) none
              (choice.edits.foldl World.edited
                (w.broken choice (.run (.copyAnswers slotNo moved.slotNo)))) := by
            apply Steady.edits
            rw [slot, ← slotFailed]
            exact copy_steady choice.reached steady memFailed assigned memSpare vacant
          have clean := through.1
          rw [eq] at clean ⊢
          rcases clean with impossible | clean
          · cases impossible
          · exact ⟨kept.own, (kept.returned clean).world⟩
        · have kept : Steady pool resources (some (spare.slotNo, uid)) none
              (choice.edits.foldl World.edited
                (w.perform choice (.run (.copyAnswers slotNo moved.slotNo))).2) := by
            apply Steady.edits
            rw [slot, ← slotFailed]
            exact copy_steady (fun _ => true) steady memFailed assigned memSpare vacant
          rw [eq]
          exact ⟨kept.own, kept, built⟩
      exact copying.bind isolating_monotone (fun _ _ kept => ⟨kept.1, .inr kept.2⟩)
        fun _ _ kept => kept

/- Both commands of the switch leave an empty spare when they fail. -/
theorem stagePoolGateway_isolated {lent : Option (Nat × Int)} (revision : Int)
    (conf : List PoolResource) (steady : Steady pool resources lent none w) :
    Ends isolating (stagePoolGateway revision conf) w
      (fun _ w' => Steady pool resources lent none w') (fun _ w' => IsolatedWorld w') := by
  refine Ends.bind isolating_monotone
    (harmless_call_lent (c := .run (.putGatewayConf revision conf)) trivial steady)
    (fun _ w₁ steady => ?_) fun _ _ kept => kept.world
  exact Ends.bind isolating_monotone
    (harmless_call_lent (c := .run (.switchGateway revision)) trivial steady)
    (fun _ _ kept => kept) fun _ _ kept => kept.world

theorem commitPoolReplacement_isolated {slotNo : Nat} {reason commandId : String}
    {nowMs expectedRevision : Int} {result : TransitionResult} (tid : String) (revision : Int)
    (done : pool.replaceFailed slotNo reason nowMs true commandId expectedRevision = .ok result)
    (fresh : result.replayed = false)
    (steady : Steady pool resources (lentSpare (replacementOf result.value)) none w) :
    Ends isolating (commitPoolReplacement tid revision result.state slotNo) w
      (fun _ w' => IsolatedWorld w') (fun _ w' => IsolatedWorld w') := by
  intro choice through
  have failing : ∀ e : Raised,
      World.respond (.commitPoolReplacement tid revision result.state slotNo) choice w =
        (.error e, choice.edits.foldl World.edited w) →
      OwnFilesOnly (choice.edits.foldl World.edited w) ∧
        IsolatedWorld (choice.edits.foldl World.edited w) := by
    intro e eq
    have kept := steady.edits choice.edits
    have clean := through.1
    rw [eq] at clean
    rcases clean with impossible | clean
    · cases impossible
    · exact ⟨kept.own, (kept.returned clean).world⟩
  rcases respond_cases (c := .commitPoolReplacement tid revision result.state slotNo) choice w
    with ⟨e, eq⟩ | eq
  · have after := failing e eq
    rw [eq]
    exact after
  · cases committed : w.tables.commitPoolReplacement tid revision result.state slotNo with
    | error e =>
      simp only [World.perform, World.committed, committed] at eq
      have after := failing _ eq
      rw [eq]
      exact after
    | ok pair =>
      obtain ⟨bound, written⟩ := pair
      have published := ContestTables.commitPoolReplacement_ok committed
      simp only [World.perform, World.committed, committed] at eq
      have world : IsolatedWorld { w with tables := written } := by
        intro pool' stored
        have stored : written.pool = some pool' := stored
        rw [published] at stored
        cases stored
        exact replaceFailed_isolated done fresh steady.isolated
      have after := world.edits choice.edits
      rw [eq]
      exact ⟨after.own, after⟩

theorem pauseFailed_harmless (locals : ReplaceLocals) : Only Harmless (pauseFailed locals) := by
  unfold pauseFailed
  refine Only.bind (holding_call_harmless (by trivial)) fun status => ?_
  dsimp only
  split
  · exact Only.bind (holding_call_harmless (by trivial)) fun _ => only_pure
  · exact holding_raiseIf_harmless.bind fun _ => only_pure

theorem holding_isolated {Locals : Type} {locals : Locals} {body : Procedure α}
    {post : α → World → Prop}
    (ends : Ends isolating body w post fun _ w' => IsolatedWorld w') :
    Ends isolating (holding locals body) w post fun _ w' => IsolatedWorld w' := by
  rw [holding, ends_mapError]
  exact ends

theorem replaceBody_isolated (cfg : Config) (tid : String) (slotNo : Nat) (reason : String)
    (expectedRevision : Int) (isolated : IsolatedWorld w) :
    Ends isolating (replaceBody cfg tid slotNo reason expectedRevision) w
      (fun _ w' => IsolatedWorld w') (fun _ w' => IsolatedWorld w') := by
  unfold replaceBody
  refine onward_world (holding_call_harmless (by trivial)) isolated fun _ w₁ isolated => ?_
  refine onward_world (holding_call_harmless (by trivial)) isolated fun row w₂ isolated => ?_
  apply (holding_isolated (seatPool_isolated isolated)).bind isolating_monotone _
    fun _ _ kept => kept
  rintro stored w₃ ⟨same, isolated⟩
  match row, stored with
  | some contest, some pool =>
    have steady := isolated.steady same
    refine onward holding_raiseIf_harmless steady fun _ w₄ steady => ?_
    refine onward (Only.holding (harmless_of_preparatory (validateContestSnapshot_only contest)))
      steady fun _ w₅ steady => ?_
    refine onward (holding_call_harmless (by trivial)) steady fun nowMs w₆ steady => ?_
    apply onward_pool steady.world
    intro replaced done
    by_cases replayed : replaced.replayed = true
    · simp only [replayed, if_true]
      exact steady.world
    · have fresh : replaced.replayed = false := by simpa using replayed
      simp only [fresh, Bool.false_eq_true, if_false]
      refine onward (holding_call_harmless (by trivial)) steady fun status w₇ steady => ?_
      refine onward holding_raiseIf_harmless steady fun _ w₈ steady => ?_
      refine onward (holding_call_harmless (by trivial)) steady fun reachable w₉ steady => ?_
      refine onward holding_raiseIf_harmless steady fun _ w₁₀ steady => ?_
      apply (holding_isolated (poolRuntimeContext_isolated cfg contest steady)).bind
        isolating_monotone _ fun _ _ kept => kept
      rintro context w₁₁ ⟨steady, listed⟩
      refine onward (Only.holding only_checked) steady fun failedResource w₁₂ steady => ?_
      refine onward (pauseFailed_harmless _) steady fun pausedByUs w₁₃ steady => ?_
      apply (holding_isolated (copyToReplacement_isolated context done fresh steady)).bind
        isolating_monotone _ fun _ _ kept => kept
      rintro _ w₁₄ ⟨steady, buildable⟩
      rw [← listed] at buildable
      cases building : poolGatewayConf (context.resources.filter (·.slotNo != slotNo)) with
      | error e =>
        rw [building] at buildable
        rcases buildable with unlent | impossible
        · rw [unlent] at steady
          exact steady.world
        · cases impossible
      | ok conf =>
        refine (holding_isolated (stagePoolGateway_isolated _ conf steady)).bind
          isolating_monotone (fun _ w₁₅ steady => ?_) fun _ _ kept => kept
        refine (commitOrRestore_isolated _ _ _ (commitPoolReplacement_isolated tid _ done fresh
          steady)).bind isolating_monotone (fun bound w₁₆ isolated => ?_) fun _ _ kept => kept
        refine onward_world (holding_call_harmless (by trivial)) isolated
          fun _ w₁₇ isolated => ?_
        refine onward_world (Only.holding (Only.quietly (Only.bind (only_call (by trivial))
          fun _ => only_pure))) isolated fun _ w₁₈ isolated => ?_
        have rebuilding : ∀ locals : ReplaceLocals, Ends isolating (holding locals
            (Program.attempt (repairIsolatedPoolSlot cfg tid slotNo replaced.state.revision
              contest))) w₁₈ (fun _ w' => IsolatedWorld w') (fun _ w' => IsolatedWorld w') :=
          fun _ => holding_isolated (Keeps.attempt (fun w isolated =>
            repairIsolatedPoolSlot_isolated (w := w) cfg tid slotNo replaced.state.revision
              contest isolated) w₁₈ isolated)
        refine (rebuilding _).bind isolating_monotone (fun rebuilt w₁₉ isolated => ?_)
          fun _ _ kept => kept
        exact onward_world (holding_call_harmless (by trivial)) isolated fun _ _ kept => kept
  | none, _ => exact isolated
  | some _, none => exact isolated

theorem replaceFailed_harmless (error : Raised) (locals : ReplaceLocals) :
    Only Harmless (replaceFailed error locals : Procedure α) := by
  unfold replaceFailed
  refine (harmless_of_preparatory (restoreStaged_only _ _)).bind fun _ => ?_
  refine Only.bind (Only.onlyIf (Only.quietly ?_)) fun _ => ?_
  · exact Only.bind (only_call (by trivial)) fun _ => only_pure
  · exact (Only.reportReady _).bind fun _ => only_raise

theorem replaceFailedSeat_isolated (cfg : Config) (tid : String) (slotNo : Nat) (reason : String)
    (expectedRevision : Int) (teacherApproved : Bool) :
    Keeps isolating IsolatedWorld
      (replaceFailedSeat cfg tid slotNo reason expectedRevision teacherApproved) := by
  unfold replaceFailedSeat
  have closing : Only Harmless (do
      releaseDeploymentLock
      leave) := Only.bind (only_call (by trivial)) fun _ => only_call (by trivial)
  have body : Keeps isolating IsolatedWorld (Program.orElse
      (replaceBody cfg tid slotNo reason expectedRevision)
      fun failed => replaceFailed failed.1 failed.2) :=
    Keeps.orElse isolating_monotone
      (fun _ isolated => replaceBody_isolated cfg tid slotNo reason expectedRevision isolated)
      fun failed => harmless_world (replaceFailed_harmless failed.1 failed.2)
  apply Keeps.ite keeps_raise
  intro w isolated
  refine onward_world (only_call (by trivial)) isolated fun _ w' isolated => ?_
  exact Keeps.andFinally isolating_monotone body (harmless_world closing) w' isolated

end Replacing

/- Histories of pool operations -/

inductive PoolOperation where
  | syncRoster (tid : String)
  | growPool (tid : String) (additionalMain additionalSpares expectedRevision : Int)
  | replaceFailedSeat (tid : String) (slotNo : Nat) (reason : String) (expectedRevision : Int)
      (teacherApproved : Bool)
  | repairPoolCapacity (tid : String) (slotNo : Nat) (expectedRevision : Int)

def PoolOperation.procedure (cfg : Config) (fold : String → String) :
    PoolOperation → Procedure Unit
  | .syncRoster tid => do let _ ← Pipeline.syncRoster cfg fold tid
  | .growPool tid additionalMain additionalSpares expectedRevision => do
    let _ ← Pipeline.growPool cfg tid additionalMain additionalSpares expectedRevision
  | .replaceFailedSeat tid slotNo reason expectedRevision teacherApproved => do
    let _ ← Pipeline.replaceFailedSeat cfg tid slotNo reason expectedRevision teacherApproved
  | .repairPoolCapacity tid slotNo expectedRevision => do
    let _ ← Pipeline.repairPoolCapacity cfg tid slotNo expectedRevision

theorem procedure_isolated (cfg : Config) (fold : String → String) (operation : PoolOperation) :
    Keeps isolating IsolatedWorld (operation.procedure cfg fold) := by
  cases operation with
  | syncRoster tid =>
    exact Keeps.bind isolating_monotone
      (fun _ isolated => syncRoster_isolated cfg fold tid isolated) fun _ => keeps_pure
  | growPool tid mains spares revision =>
    exact Keeps.bind isolating_monotone
      (fun _ isolated => growPool_isolated cfg tid mains spares revision isolated)
      fun _ => keeps_pure
  | replaceFailedSeat tid slotNo reason revision approved =>
    exact Keeps.bind isolating_monotone
      (replaceFailedSeat_isolated cfg tid slotNo reason revision approved) fun _ => keeps_pure
  | repairPoolCapacity tid slotNo revision =>
    exact Keeps.bind isolating_monotone
      (fun _ isolated => repairPoolCapacity_isolated cfg tid slotNo revision isolated)
      fun _ => keeps_pure

abbrev PoolRun : Type := List (PoolOperation × (Nat → Choice))

section Histories
variable (cfg : Config) (fold : String → String)

def afterOperation (w : World) (entry : PoolOperation × (Nat → Choice)) : World :=
  ((entry.1.procedure cfg fold).exec World.respond entry.2 w).2

/-- No call of the operation fails while a free seat holds copied files. -/
def CopiesGoThrough (w : World) (entry : PoolOperation × (Nat → Choice)) : Prop :=
  (entry.1.procedure cfg fold).Obeys World.respond CopyGoesThrough entry.2 w

/-- After every call of the operation, assigned seats hold files of their student only. -/
def OwnFilesThroughout (w : World) (entry : PoolOperation × (Nat → Choice)) : Prop :=
  (entry.1.procedure cfg fold).Visits World.respond OwnFilesOnly entry.2 w

instance (w : World) (entry : PoolOperation × (Nat → Choice)) :
    Decidable (CopiesGoThrough cfg fold w entry) := by
  unfold CopiesGoThrough
  infer_instance

instance (w : World) (entry : PoolOperation × (Nat → Choice)) :
    Decidable (OwnFilesThroughout cfg fold w entry) := by
  unfold OwnFilesThroughout
  infer_instance

/- Answer isolation after every call of a whole history, when copies go through. -/
theorem own_files_when_copies_go_through (w : World) (history : PoolRun)
    (isolated : IsolatedWorld w)
    (through : Runs.Guarded (afterOperation cfg fold) (CopiesGoThrough cfg fold) w history) :
    Runs.Guarded (afterOperation cfg fold) (OwnFilesThroughout cfg fold) w history := by
  apply Runs.guarded_of_invariant IsolatedWorld _ isolated through
  intro w entry isolated through
  have ends := procedure_isolated cfg fold entry.1 w isolated
  obtain ⟨visited, meets⟩ := visits_of_ends
    (fun c s next choice holds allowed => holds choice allowed) ends through
  refine ⟨?_, visited⟩
  unfold afterOperation
  rcases outcome : (entry.1.procedure cfg fold).exec World.respond entry.2 w with ⟨result, w'⟩
  rw [outcome] at meets
  cases result <;> exact meets

end Histories

/- Two students with one file each, and two verified spares. -/
namespace TwoStudents

def tid : String := "0123456789abcdef01234567"

def cfg : Config where
  dockerImage := "noi-desktop"
  publicBase := ⟨"https", "contest.example", ""⟩

def container (slotNo : Nat) : String := "seat-01234567-slot-" ++ PyText.threeDigits slotNo

def seat (slotNo : Nat) (role : Role) : Seat :=
  { Seat.planned slotNo role with
    state := .verified
    containerRef := container slotNo
    imageDigest := "sha256:image"
    materialDigest := "sha256:manifest" }

def student (slotNo : Nat) (uid : Int) (uname : String) : Seat :=
  { seat slotNo .primary with
    state := .released
    uid := some uid
    uname := uname }

def resource (slotNo : Nat) : PoolResource where
  slotNo := slotNo
  token := "gateway-token-" ++ PyText.threeDigits slotNo
  vncPass := "vnc"
  submitToken := "submit"
  candidate := "CSP" ++ PyText.threeDigits slotNo
  container := container slotNo
  cip := "10.0.0.1" ++ toString slotNo
  imageDigest := "sha256:image"
  materialDigest := "sha256:manifest"

def pool : SeatPoolState where
  tid := tid
  maxParticipants := 2
  spareCount := 2
  beginAtMs := 1000000
  releaseAtMs := 700000
  revision := 9
  seats := [student 1 7 "alice", student 2 8 "bob", seat 3 .spare, seat 4 .spare]

def world : World where
  tables :=
    { contest := some
        { tid := tid
          files := ["apple", "banana"]
          paperSha256 := "paper"
          materialManifestSha256 := "manifest"
          beginAtMs := 1000000
          endAtMs := 2000000
          state := .ready }
      pool := some pool
      resources := [1, 2, 3, 4].map resource
      seats := [⟨7, "alice", "gateway-token-001", "vnc", "submit", "CSP001", container 1,
          "10.0.0.11"⟩,
        ⟨8, "bob", "gateway-token-002", "vnc", "submit", "CSP002", container 2, "10.0.0.12"⟩] }
  answers
    | 1 => [⟨"apple/apple.cpp", 7⟩]
    | 2 => [⟨"banana/banana.cpp", 8⟩]
    | _ => []

/- The host answers up to the switch of the gateway, which may break. -/
def choices (switchBreaks : Bool) : Nat → Choice
  | 9 => { output := "sha256:image finalizer-status-v1" }
  | 10 => { output := "10.0.0.1" }
  | 11 => { output := "paper" }
  | 12 => { output := "exited" }
  | 15 => { raises := if switchBreaks then some (.external "ssh") else none }
  | _ => { clock := 900000, document := some ⟨1000000, 2000000, ""⟩ }

def replace (slotNo : Nat) (switchBreaks : Bool) : PoolOperation × (Nat → Choice) :=
  (.replaceFailedSeat tid slotNo "broken" 9 true, choices switchBreaks)

theorem world_isolated : IsolatedWorld world := by
  intro stored same
  cases same
  refine ⟨by decide, ?_, ?_, ?_⟩
  · intro seat mem uid assigned file inside
    simp only [pool, List.mem_cons, List.not_mem_nil, or_false] at mem
    rcases mem with rfl | rfl | rfl | rfl
    · cases assigned
      rw [List.mem_singleton.mp inside]
    · cases assigned
      rw [List.mem_singleton.mp inside]
    · cases assigned
    · cases assigned
  · intro seat mem free file inside
    simp only [pool, List.mem_cons, List.not_mem_nil, or_false] at mem
    rcases mem with rfl | rfl | rfl | rfl
    · cases free.2
    · cases free.2
    · cases inside
    · cases inside
  · intro slot absent
    rcases slot with _ | _ | _ | _
    · rfl
    · exact absurd (by decide) absent
    · exact absurd (by decide) absent
    · rfl

end TwoStudents

theorem own_files_after_replacement :
    Runs.Guarded (afterOperation TwoStudents.cfg id) (OwnFilesThroughout TwoStudents.cfg id)
      TwoStudents.world [TwoStudents.replace 1 false] :=
  own_files_when_copies_go_through TwoStudents.cfg id TwoStudents.world _
    TwoStudents.world_isolated (by decide +kernel)

/- The switch breaks after the copy, and the next replacement takes the same spare. -/
theorem second_student_gets_first_students_file :
    IsolatedWorld TwoStudents.world ∧
      ¬ Runs.Guarded (afterOperation TwoStudents.cfg id) (OwnFilesThroughout TwoStudents.cfg id)
        TwoStudents.world [TwoStudents.replace 1 true, TwoStudents.replace 2 false] :=
  ⟨TwoStudents.world_isolated, by decide +kernel⟩

end NoiContest.Pipeline
