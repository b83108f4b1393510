import NoiContest.Pipeline.IsolationSpec

/- Answer isolation along whole runs of the pool procedures. -/
namespace NoiContest.Pipeline
open SeatPool SeatPoolState Flow

variable {pool : SeatPoolState} {resources : List PoolResource} {w : World}
  {ε α β : Type}

theorem steady_call {c : Call} (harmless : Harmless c)
    (steady : Steady pool resources none none w) :
    Ends isolating (call c) w (fun _ w' => Steady pool resources none none w')
      (fun _ w' => IsolatedWorld w') :=
  (harmless_keeps (only_call harmless) w steady).mono isolating_monotone (fun _ _ kept => kept)
    fun _ _ kept => kept.world

theorem savePoolState_isolated {state : SeatPoolState}
    (steady : Steady pool resources none none w) (isolated : Isolated none state w.answers) :
    Ends isolating (savePoolState (some pool.revision) state) w
      (fun saved w' => saved = state ∧ Steady state resources none none w')
      (fun _ w' => IsolatedWorld w') := by
  have put : Ends isolating (putSeatPool (some pool.revision) state) w
      (fun _ w' => Steady state resources none none w') (fun _ w' => IsolatedWorld w') := by
    intro choice _
    rcases respond_cases (c := .putSeatPool (some pool.revision) state) choice w with
      ⟨e, eq⟩ | eq
    · rw [eq]
      have kept := (steady.edits choice.edits).world
      exact ⟨kept.own, kept⟩
    · have swapped : w.tables.putSeatPool (some pool.revision) state =
          .ok (w.tables.withPool state) := by
        simp [ContestTables.putSeatPool, steady.stored, Outcome.raiseIf]
      rw [eq]
      simp only [World.perform, World.written, swapped]
      have written : Steady state resources none none
          { w with tables := w.tables.withPool state } :=
        ⟨rfl, steady.rows, isolated, fun _ impossible => by cases impossible⟩
      have kept := written.edits choice.edits
      exact ⟨kept.own, kept⟩
  exact put.bind isolating_monotone (fun _ _ kept => ⟨rfl, kept⟩) fun _ _ kept => kept

theorem reserve_isolated {uid nowMs : Int} {uname commandId : String} {expectedRevision : Int}
    {result : TransitionResult}
    (done : pool.reserve uid uname nowMs commandId expectedRevision = .ok result)
    {answers : Nat → List AnswerFile} (isolated : Isolated none pool answers) :
    Isolated none result.state answers := by
  rcases reserve_ok done with same | ⟨print, existing, _, _, _, _, state⟩ |
    ⟨print, chosen, _, _, _, handed, _, state⟩
  · rw [same]
    exact isolated
  · rw [state]
    exact isolated.same_seats rfl
  · obtain ⟨mem, free⟩ := mem_available.mp handed
    have seated : Isolated none (pool.withSeat (reservedSeat chosen uid (PyText.strip uname)
        nowMs pool.releaseAtMs)) answers := by
      apply isolated.seated rfl
      intro file inside
      have empty : answers chosen.slotNo = [] := isolated.clean mem free
      simp [reservedSeat, empty] at inside
    rw [state]
    exact seated.same_seats rfl

theorem releaseDue_isolated {nowMs expectedRevision : Int} {commandId : String}
    {result : TransitionResult}
    (done : pool.releaseDue nowMs commandId expectedRevision = .ok result)
    {answers : Nat → List AnswerFile} (isolated : Isolated none pool answers) :
    Isolated none result.state answers := by
  rcases releaseDue_ok done with same | ⟨print, value, _, state⟩ | ⟨print, value, _, state⟩
  · rw [same]
    exact isolated
  · rw [state]
    exact isolated.same_seats rfl
  · rw [state]
    exact isolated.released rfl

theorem reserveRoster_isolated (tid : String) (nowMs : Int) (roster : List Participant)
    (steady : Steady pool resources none none w) :
    Ends isolating (reserveRoster tid nowMs roster pool) w
      (fun pool' w' => Steady pool' resources none none w') (fun _ w' => IsolatedWorld w') := by
  induction roster generalizing pool w with
  | nil => exact steady
  | cons participant rest ih =>
    rw [reserveRoster]
    cases pool.assignment participant.uid with
    | some existing =>
      have bound := steady_call
        (c := .bindPoolSeat participant.uid participant.uname existing.slotNo) trivial steady
      exact bound.bind isolating_monotone (fun _ _ kept => ih kept) fun _ _ kept => kept
    | none =>
      cases done : pool.reserve participant.uid participant.uname nowMs
          (reserveId tid participant.uid) pool.revision with
      | error e => exact steady.world
      | ok result =>
        have saved := savePoolState_isolated steady (reserve_isolated done steady.isolated)
        apply saved.bind isolating_monotone _ fun _ _ kept => kept
        rintro state w' ⟨rfl, kept⟩
        split
        · rename_i seat _
          have bound := steady_call
            (c := .bindPoolSeat participant.uid participant.uname seat.slotNo) trivial kept
          exact bound.bind isolating_monotone (fun _ _ kept => ih kept) fun _ _ kept => kept
        · exact kept.world

/- Chaining a harmless part before the rest of a procedure. -/
theorem onward {x : Program Call Answer Raised ε α} {f : α → Program Call Answer Raised ε β}
    {post : β → World → Prop} {blank : Option Nat} (harmless : Only Harmless x)
    (steady : Steady pool resources none blank w)
    (next : ∀ a w', Steady pool resources none blank w' →
      Ends isolating (f a) w' post fun _ w' => IsolatedWorld w') :
    Ends isolating (x >>= f) w post fun _ w' => IsolatedWorld w' :=
  (harmless_keeps harmless w steady).bind isolating_monotone next fun _ _ kept => kept.world

theorem onward_world {x : Program Call Answer Raised ε α}
    {f : α → Program Call Answer Raised ε β} {post : β → World → Prop}
    (harmless : Only Harmless x) (isolated : IsolatedWorld w)
    (next : ∀ a w', IsolatedWorld w' →
      Ends isolating (f a) w' post fun _ w' => IsolatedWorld w') :
    Ends isolating (x >>= f) w post fun _ w' => IsolatedWorld w' :=
  (harmless_world harmless w isolated).bind isolating_monotone next fun _ _ kept => kept

theorem onward_onPool {result : Except PoolError α} {f : α → Procedure β}
    {post : β → World → Prop} (isolated : IsolatedWorld w)
    (next : ∀ a, result = .ok a → Ends isolating (f a) w post fun _ w' => IsolatedWorld w') :
    Ends isolating (onPool result >>= f) w post fun _ w' => IsolatedWorld w' := by
  cases result with
  | error e => exact isolated
  | ok a => exact next a rfl

theorem onward_pool {Locals : Type} {locals : Locals} {result : Except PoolError α}
    {f : α → Holding Locals β} {post : β → World → Prop}
    (isolated : IsolatedWorld w)
    (next : ∀ a, result = .ok a → Ends isolating (f a) w post fun _ w' => IsolatedWorld w') :
    Ends isolating (holding locals (onPool result) >>= f) w post
      fun _ w' => IsolatedWorld w' := by
  cases result with
  | error e => exact isolated
  | ok a => exact next a rfl

theorem seatPool_isolated (isolated : IsolatedWorld w) :
    Ends isolating seatPool w (fun stored w' => w'.tables.pool = stored ∧ IsolatedWorld w')
      (fun _ w' => IsolatedWorld w') := by
  intro choice through
  have kept := (harmless_world (only_call (c := .seatPool) trivial) w isolated) choice through
  have same := harmless_pool (c := .seatPool) trivial choice w
  refine ⟨kept.1, ?_⟩
  have after : IsolatedWorld (World.respond .seatPool choice w).2 := by
    have ends := kept.2
    cases answered : (World.respond .seatPool choice w).1 with
    | ok stored =>
      rw [answered] at ends
      exact ends
    | error e =>
      rw [answered] at ends
      exact ends
  rcases respond_cases (c := .seatPool) choice w with ⟨e, eq⟩ | eq
  · rw [eq] at after ⊢
    exact after
  · rw [eq] at after same ⊢
    exact ⟨same, after⟩

theorem releaseDueSeats_isolated (tid : String) (nowMs : Int)
    (steady : Steady pool resources none none w) :
    Ends isolating (releaseDueSeats tid nowMs pool) w (fun _ w' => IsolatedWorld w')
      (fun _ w' => IsolatedWorld w') := by
  unfold releaseDueSeats
  split
  · cases done : pool.releaseDue nowMs (releaseId tid pool.releaseAtMs pool.revision)
        pool.revision with
    | error e => exact steady.world
    | ok result =>
      dsimp only [onPool, Except.mapError]
      rw [ends_bind, ends_ofExcept_ok]
      split
      · have saved := savePoolState_isolated steady (releaseDue_isolated done steady.isolated)
        exact saved.bind isolating_monotone (fun _ _ kept => kept.2.world) fun _ _ kept => kept
      · exact steady.world
  · exact steady.world

theorem returns_onPool {Locals : Type} (locals : Locals) (result : Except PoolError α) :
    Returns (fun a => result = .ok a) (holding locals (onPool result)) := by
  cases result with
  | ok a => exact .ok rfl
  | error e => exact .error _

theorem provisionAdded_seating (context : RuntimeContext) (tid : String) (expectedRevision : Int)
    (slots : List Nat) (state : SeatPoolState) (existingCips : List String)
    (attempted : List ResourceSpec) (added : List PoolResource) :
    Returns (fun provisioned => SameSeating state provisioned.1)
      (provisionAdded context tid expectedRevision slots state existingCips attempted added) := by
  induction slots generalizing state existingCips attempted added with
  | nil => exact returns_pure (.refl state)
  | cons slotNo rest ih =>
    simp only [provisionAdded]
    refine Returns.bind returns_any fun warmAtMs _ => ?_
    refine Returns.bind (returns_onPool _ _) fun warming warmed => ?_
    refine Returns.bind returns_any fun spec _ => ?_
    refine Returns.bind returns_any fun resource _ => ?_
    refine Returns.bind returns_any fun verifyAtMs _ => ?_
    refine Returns.bind (returns_onPool _ _) fun verified marked => ?_
    have seating := (markWarming_sameSeating warmed).trans (markVerified_sameSeating marked)
    exact (ih verified.state _ _ _).mono fun _ later => seating.trans later

/- The commit of an expansion publishes unassigned seats on slots that nobody had. -/
theorem commitPoolExpansion_isolated (tid : String) (revision : Int) (added : List PoolResource)
    {grown state : SeatPoolState} {mains spares : Int}
    (steady : Steady pool resources none none w)
    (extends_ : grown.seats = (pool.extended mains spares).seats)
    (seating : SameSeating grown state) :
    Ends isolating (commitPoolExpansion tid revision state added) w
      (fun _ w' => IsolatedWorld w') (fun _ w' => Steady pool resources none none w') := by
  intro choice _
  rcases respond_cases (c := .commitPoolExpansion tid revision state added) choice w with
    ⟨e, eq⟩ | eq
  · rw [eq]
    have kept := steady.edits choice.edits
    exact ⟨kept.own, kept⟩
  · rw [eq]
    simp only [World.perform, World.written]
    cases committed : w.tables.commitPoolExpansion tid revision state added with
    | error e =>
      have kept := steady.edits choice.edits
      exact ⟨kept.own, kept⟩
    | ok written =>
      obtain ⟨published, kept⟩ := ContestTables.commitPoolExpansion_ok steady.stored committed
      have slots : state.slots = (pool.extended mains spares).slots := by
        rw [seating.slots, SeatPoolState.slots, SeatPoolState.slots, extends_]
      have isolated : Isolated none state w.answers := by
        apply steady.isolated.grown _ kept
        · intro seat mem outside
          obtain ⟨old, memOld, slot, uid⟩ := seating.students seat mem
          rw [extends_] at memOld
          rcases List.mem_append.mp memOld with known | fresh
          · exact absurd (slot ▸ slot_mem known) outside
          · rw [← uid]
            exact (mem_addedSeats fresh).1
        · rw [slots]
          exact extended_distinct steady.isolated.distinct
      have world : IsolatedWorld { w with tables := written } := by
        intro pool' stored
        have stored : written.pool = some pool' := stored
        rw [published] at stored
        cases stored
        exact isolated
      have after := world.edits choice.edits
      exact ⟨after.own, after⟩

theorem harmless_of_preparatory {x : Program Call Answer Raised ε α}
    (preparatory : Only Preparatory x) : Only Harmless x := preparatory.mono preparatory_harmless

theorem holding_call_harmless {Locals : Type} {locals : Locals} {c : Call} (harmless : Harmless c) :
    Only Harmless (holding locals (call c)) := Only.holding (only_call harmless)

theorem holding_raiseIf_harmless {Locals : Type} {locals : Locals} {bad : Prop} [Decidable bad]
    {message : String} : Only Harmless (holding locals (raiseIf bad message)) :=
  Only.holding only_pipelineRaiseIf

theorem commitOrRestore_isolated {Locals : Type} (staged unstaged : Locals) (revision : Int)
    {commit : Procedure α} {post : α → World → Prop}
    (commits : Ends isolating commit w post fun _ w' => IsolatedWorld w') :
    Ends isolating (commitOrRestore staged unstaged revision commit) w post
      (fun _ w' => IsolatedWorld w') := by
  unfold commitOrRestore
  rw [ends_orElse, holding, ends_mapError]
  refine commits.mono isolating_monotone (fun _ _ kept => kept) fun e w' isolated => ?_
  exact onward_world (Only.holding (harmless_of_preparatory (restorePoolGateway_only revision)))
    isolated fun _ _ kept => kept

theorem growBody_isolated (cfg : Config) (tid : String) (mains spares expectedRevision : Int)
    (isolated : IsolatedWorld w) :
    Ends isolating (growBody cfg tid mains spares expectedRevision) w
      (fun _ w' => IsolatedWorld w') (fun _ w' => IsolatedWorld w') := by
  unfold growBody
  refine onward_world (holding_call_harmless (by trivial)) isolated fun _ w₁ isolated => ?_
  refine onward_world (holding_call_harmless (by trivial)) isolated fun row w₂ isolated => ?_
  have read : Ends isolating (holding ({} : GrowLocals) seatPool) w₂
      (fun stored w' => w'.tables.pool = stored ∧ IsolatedWorld w')
      (fun _ w' => IsolatedWorld w') := by
    unfold holding
    rw [ends_mapError]
    exact seatPool_isolated isolated
  apply read.bind isolating_monotone _ fun _ _ kept => kept
  rintro stored w₃ ⟨same, isolated⟩
  match row, stored with
  | some contest, some pool =>
    have steady := isolated.steady same
    refine onward holding_raiseIf_harmless steady fun _ w₄ steady => ?_
    refine onward (Only.holding (harmless_of_preparatory (validateContestSnapshot_only contest))) steady
      fun _ w₅ steady => ?_
    apply onward_pool steady.world
    intro grown done
    rcases grow_ok done with replayed | ⟨print, fresh, _, _, _, _, _, state⟩
    · simp only [replayed, if_true]
      exact steady.world
    · simp only [fresh, Bool.false_eq_true, if_false]
      refine onward holding_raiseIf_harmless steady fun _ w₆ steady => ?_
      refine onward holding_raiseIf_harmless steady fun _ w₇ steady => ?_
      refine onward (holding_call_harmless (by trivial)) steady fun status w₈ steady => ?_
      refine onward holding_raiseIf_harmless steady fun _ w₉ steady => ?_
      refine onward (holding_call_harmless (by trivial)) steady fun reachable w₁₀ steady => ?_
      refine onward holding_raiseIf_harmless steady fun _ w₁₁ steady => ?_
      refine onward (Only.holding (harmless_of_preparatory (poolRuntimeContext_only cfg contest pool))) steady
        fun context w₁₂ steady => ?_
      have provisioned := (harmless_of_preparatory (provisionAdded_only context tid
        expectedRevision (addedSlots grown.value) grown.state (context.resources.map (·.cip)) []
        [])).keeps_returning isolating_monotone
          (fun c is w steady => harmless_call (w := w) is steady)
          (provisionAdded_seating context tid expectedRevision _ _ _ _ _) steady
      apply provisioned.bind isolating_monotone _ fun _ _ kept => kept.world
      rintro ⟨final, attempted, added⟩ w₁₃ ⟨steady, seating⟩
      dsimp only at seating ⊢
      refine onward (Only.holding only_checked) steady fun conf w₁₄ steady => ?_
      refine onward (Only.holding (harmless_of_preparatory (stagePoolGateway_only _ _))) steady
        fun _ w₁₅ steady => ?_
      have extended : grown.state.seats = (pool.extended mains spares).seats := by rw [state]; rfl
      have commits := (commitPoolExpansion_isolated tid expectedRevision added steady extended
        seating).mono isolating_monotone (fun _ _ kept => kept) fun _ _ kept => kept.world
      refine Ends.bind isolating_monotone (commitOrRestore_isolated _ _ _ commits)
        (fun _ w₁₆ isolated => ?_) fun _ _ kept => kept
      refine onward_world (holding_call_harmless (by trivial)) isolated fun _ w₁₇ isolated => ?_
      refine onward_world (holding_call_harmless (by trivial)) isolated fun _ w₁₈ isolated => ?_
      exact isolated
  | none, _ => exact isolated
  | some _, none => exact isolated

theorem Only.reportReady (message : String) : Only Harmless (reportReady message) := by
  unfold Pipeline.reportReady
  refine Only.bind (only_call (by trivial)) fun row => ?_
  match row with
  | none => exact only_pure
  | some contest =>
    exact Only.onlyIf (only_call (by trivial))

theorem growFailed_harmless (error : Raised) (locals : GrowLocals) :
    Only Harmless (growFailed error locals : Procedure α) := by
  unfold growFailed
  refine (harmless_of_preparatory (restoreStaged_only _ _)).bind fun _ => ?_
  refine Only.bind (Only.onlyIf (Only.quietly ?_)) fun _ => ?_
  · exact harmless_of_preparatory (cleanupIncrementalSlots_only _)
  · exact (Only.reportReady _).bind fun _ => only_raise

theorem growPool_isolated (cfg : Config) (tid : String) (mains spares expectedRevision : Int)
    (isolated : IsolatedWorld w) :
    Ends isolating (growPool cfg tid mains spares expectedRevision) w
      (fun _ w' => IsolatedWorld w') (fun _ w' => IsolatedWorld w') := by
  unfold growPool
  refine onward_world (only_call (by trivial)) isolated fun _ w' isolated => ?_
  have closing : Only Harmless (do
      releaseDeploymentLock
      leave) := Only.bind (only_call (by trivial)) fun _ => only_call (by trivial)
  have body : Keeps isolating IsolatedWorld (Program.orElse
      (growBody cfg tid mains spares expectedRevision)
      fun failed => growFailed failed.1 failed.2) :=
    Keeps.orElse isolating_monotone
      (fun _ isolated => growBody_isolated cfg tid mains spares expectedRevision isolated)
      fun failed => harmless_world (growFailed_harmless failed.1 failed.2)
  exact Keeps.andFinally isolating_monotone body (harmless_world closing) w' isolated

theorem ensureAutomaticRosterCapacity_isolated (cfg : Config) (tid : String)
    (roster : List Participant) (isolated : IsolatedWorld w) :
    Ends isolating (ensureAutomaticRosterCapacity cfg tid roster) w
      (fun _ w' => IsolatedWorld w') (fun _ w' => IsolatedWorld w') := by
  unfold ensureAutomaticRosterCapacity
  refine onward_world (only_call (by trivial)) isolated fun row w₁ isolated => ?_
  refine onward_world (only_call (by trivial)) isolated fun stored w₂ isolated => ?_
  match row, stored with
  | some contest, some pool =>
    dsimp only
    split
    · exact isolated
    · apply onward_onPool isolated
      rintro ⟨targetMain, targetSpares⟩ _
      dsimp only
      split
      · exact isolated
      · exact (growPool_isolated cfg tid _ _ _ isolated).bind isolating_monotone
          (fun _ _ kept => kept) fun _ _ kept => kept
  | none, _ => exact isolated
  | some _, none => exact isolated

theorem syncRoster_isolated (cfg : Config) (fold : String → String) (tid : String)
    (isolated : IsolatedWorld w) :
    Ends isolating (syncRoster cfg fold tid) w
      (fun _ w' => IsolatedWorld w') (fun _ w' => IsolatedWorld w') := by
  unfold syncRoster
  refine onward_world (only_call (by trivial)) isolated fun listed w₁ isolated => ?_
  refine onward_world only_checked isolated fun roster w₂ isolated => ?_
  refine (ensureAutomaticRosterCapacity_isolated cfg tid roster isolated).bind
    isolating_monotone (fun growth w₃ isolated => ?_) fun _ _ kept => kept
  refine onward_world (only_call (by trivial)) isolated fun _ w₄ isolated => ?_
  refine Keeps.andFinally isolating_monotone (fun w isolated => ?_)
    (harmless_world (only_call (by trivial))) w₄ isolated
  refine onward_world (only_call (by trivial)) isolated fun row w₅ isolated => ?_
  refine (seatPool_isolated isolated).bind isolating_monotone (fun stored w₆ read => ?_)
    fun _ _ kept => kept
  obtain ⟨same, isolated⟩ := read
  match row, stored with
  | some contest, some pool =>
    have steady := isolated.steady same
    refine onward only_pipelineRaiseIf steady fun _ w₇ steady => ?_
    refine onward (harmless_of_preparatory (validateContestSnapshot_only contest)) steady
      fun _ w₈ steady => ?_
    refine onward (only_call (by trivial)) steady fun nowMs w₉ steady => ?_
    refine (reserveRoster_isolated contest.tid nowMs roster steady).bind isolating_monotone
      (fun pool w₁₀ steady => ?_) fun _ _ kept => kept
    exact (releaseDueSeats_isolated tid nowMs steady).bind isolating_monotone
      (fun _ _ kept => kept) fun _ _ kept => kept
  | none, _ => exact isolated
  | some _, none => exact isolated

/- Rebuilding starts from an empty tree that nobody can write to. -/
theorem removeHome_isolated {slotNo : Nat} (steady : Steady pool resources none none w)
    (unassigned : ∀ seat ∈ pool.seats, seat.slotNo = slotNo → seat.uid = none) :
    Ends isolating (run (.removeHome slotNo)) w
      (fun _ w' => Steady pool resources none (some slotNo) w') (fun _ w' => IsolatedWorld w') := by
  intro choice through
  have kept := (harmless_call (c := .run (.removeHome slotNo)) (by trivial) steady) choice through
  refine ⟨kept.1, ?_⟩
  rcases respond_cases (c := .run (.removeHome slotNo)) choice w with ⟨e, eq⟩ | eq
  · rw [eq] at kept ⊢
    exact kept.2.world
  · rw [eq]
    have fewer : Steady pool resources none none (w.remove slotNo fun _ => true) :=
      steady.fewer rfl rfl (remove_fewer w slotNo fun _ => true)
    have emptied : Steady pool resources none (some slotNo) (w.remove slotNo fun _ => true) := by
      refine ⟨fewer.stored, fewer.rows, fewer.isolated, ?_⟩
      rintro slot ⟨⟩
      exact ⟨by simp [World.remove, World.setAnswers], unassigned⟩
    exact emptied.edits choice.edits

theorem commitPoolRepair_isolated (tid : String) (revision : Int) (resource : PoolResource)
    {state : SeatPoolState} {slotNo : Nat} (steady : Steady pool resources none (some slotNo) w)
    (seating : SameSeating pool state) :
    Ends isolating (commitPoolRepair tid revision state resource slotNo) w
      (fun _ w' => IsolatedWorld w') (fun _ w' => IsolatedWorld w') := by
  intro choice _
  rcases respond_cases (c := .commitPoolRepair tid revision state resource slotNo) choice w with
    ⟨e, eq⟩ | eq
  · rw [eq]
    have kept := (steady.edits choice.edits).world
    exact ⟨kept.own, kept⟩
  · rw [eq]
    simp only [World.perform, World.written]
    cases committed : w.tables.commitPoolRepair tid revision state resource slotNo with
    | error e =>
      have kept := (steady.edits choice.edits).world
      exact ⟨kept.own, kept⟩
    | ok written =>
      obtain ⟨published, slots, kept⟩ := ContestTables.commitPoolRepair_ok steady.stored committed
      obtain ⟨empty, unassigned⟩ := steady.blank slotNo rfl
      have isolated : Isolated none state w.answers := by
        apply steady.isolated.rebuilt _ slots kept _ empty
        · rw [seating.slots]
          exact steady.isolated.distinct
        · intro seat mem slot
          obtain ⟨old, memOld, slotOld, uid⟩ := seating.students seat mem
          rw [← uid]
          exact unassigned old memOld (slotOld.trans slot)
      have world : IsolatedWorld { w with tables := written } := by
        intro pool' stored
        have stored : written.pool = some pool' := stored
        rw [published] at stored
        cases stored
        exact isolated
      have after := world.edits choice.edits
      exact ⟨after.own, after⟩

theorem rebuildSlot_isolated (tid : String) (slotNo failureCount : Nat) (expectedRevision : Int)
    (context : RuntimeContext) (spec : ResourceSpec) {state : SeatPoolState}
    (steady : Steady pool resources none (some slotNo) w) (seating : SameSeating pool state) :
    Ends isolating (rebuildSlot tid slotNo failureCount expectedRevision context spec state) w
      (fun _ w' => IsolatedWorld w') (fun _ w' => IsolatedWorld w') := by
  unfold rebuildSlot
  refine onward (Only.holding (harmless_of_preparatory (provisionPoolSlot_only _ _ _))) steady
    fun resource w₁ steady => ?_
  refine onward (holding_call_harmless (by trivial)) steady fun verifyAtMs w₂ steady => ?_
  generalize marking : state.markVerified slotNo resource.container _ _ verifyAtMs _ state.revision =
    outcome
  apply onward_pool steady.world
  intro verified marked
  have seating := seating.trans (markVerified_sameSeating (marking.trans marked))
  refine onward (Only.holding only_checked) steady fun conf w₃ steady => ?_
  refine onward (Only.holding (harmless_of_preparatory (stagePoolGateway_only _ _))) steady
    fun _ w₄ steady => ?_
  have commits : ∀ locals : RepairLocals, Ends isolating (holding locals
      (commitPoolRepair tid expectedRevision verified.state resource slotNo)) w₄
      (fun _ w' => IsolatedWorld w') (fun _ w' => IsolatedWorld w') := by
    intro locals
    rw [holding, ends_mapError]
    exact commitPoolRepair_isolated tid expectedRevision resource steady seating
  refine (commits _).bind isolating_monotone (fun _ w₅ isolated => ?_) fun _ _ kept => kept
  refine onward_world (Only.holding (Only.quietly ?_)) isolated fun _ _ kept => kept
  exact Only.bind (only_call (by trivial)) fun _ => only_pure

theorem repairIsolatedPoolSlot_isolated (cfg : Config) (tid : String) (slotNo : Nat)
    (expectedRevision : Int) (contest : Contest) (isolated : IsolatedWorld w) :
    Ends isolating (repairIsolatedPoolSlot cfg tid slotNo expectedRevision contest) w
      (fun _ w' => IsolatedWorld w') (fun _ w' => IsolatedWorld w') := by
  unfold repairIsolatedPoolSlot
  refine (seatPool_isolated isolated).bind isolating_monotone (fun stored w₁ read => ?_)
    fun _ _ kept => kept
  obtain ⟨same, isolated⟩ := read
  cases stored with
  | none => exact isolated
  | some pool =>
    have steady := isolated.steady same
    refine onward only_pipelineRaiseIf steady fun _ w₂ steady => ?_
    apply onward_onPool steady.world
    intro failed found
    obtain ⟨mem, slot⟩ := seat_ok found
    rw [ends_bind, raiseIf, Flow.ends_raiseIf]
    refine ⟨fun _ => steady.world, fun idle => ?_⟩
    simp only [not_or, not_not] at idle
    have unassigned : ∀ seat ∈ pool.seats, seat.slotNo = slotNo → seat.uid = none := by
      intro seat memSeat same
      rw [seat_eq_of_slot steady.isolated.distinct memSeat mem (same.trans slot.symm)]
      exact idle.2.1
    refine onward (harmless_of_preparatory (poolRuntimeContext_only cfg contest pool)) steady
      fun context w₃ steady => ?_
    refine onward (harmless_of_preparatory (newPoolResourceSpec_only tid slotNo)) steady
      fun spec w₄ steady => ?_
    refine (removeHome_isolated steady unassigned).bind isolating_monotone
      (fun _ w₅ steady => ?_) fun _ _ kept => kept
    refine onward (only_call (by trivial)) steady fun warmAtMs w₆ steady => ?_
    generalize marking : pool.markWarming slotNo warmAtMs
      (repairId "warm" tid slotNo failed.failureCount) pool.revision = marked
    refine onward_onPool steady.world fun warming warmed => ?_
    rw [← marking] at warmed
    rw [ends_orElse]
    refine (rebuildSlot_isolated tid slotNo failed.failureCount expectedRevision context spec
      steady (markWarming_sameSeating warmed)).mono isolating_monotone (fun _ _ kept => kept)
      fun failed w₇ isolated => ?_
    refine onward_world (harmless_of_preparatory (restoreStaged_only _ _)) isolated
      fun _ w₈ isolated => ?_
    exact onward_world (Only.quietly (harmless_of_preparatory (cleanupIncrementalSlots_only _)))
      isolated fun _ _ kept => kept

theorem repairPoolCapacity_isolated (cfg : Config) (tid : String) (slotNo : Nat)
    (expectedRevision : Int) (isolated : IsolatedWorld w) :
    Ends isolating (repairPoolCapacity cfg tid slotNo expectedRevision) w
      (fun _ w' => IsolatedWorld w') (fun _ w' => IsolatedWorld w') := by
  unfold repairPoolCapacity
  refine onward_world (only_call (by trivial)) isolated fun _ w₁ isolated => ?_
  have closing : Only Harmless (do
      releaseDeploymentLock
      leave) := Only.bind (only_call (by trivial)) fun _ => only_call (by trivial)
  refine Keeps.andFinally isolating_monotone (fun w isolated => ?_) (harmless_world closing) w₁
    isolated
  refine onward_world (only_call (by trivial)) isolated fun _ w₂ isolated => ?_
  refine onward_world (only_call (by trivial)) isolated fun row w₃ isolated => ?_
  cases row with
  | none => exact isolated
  | some contest =>
    refine onward_world only_pipelineRaiseIf isolated fun _ w₄ isolated => ?_
    refine onward_world (harmless_of_preparatory (validateContestSnapshot_only contest)) isolated
      fun _ w₅ isolated => ?_
    refine onward_world (only_call (by trivial)) isolated fun status w₆ isolated => ?_
    refine onward_world only_pipelineRaiseIf isolated fun _ w₇ isolated => ?_
    refine onward_world (only_call (by trivial)) isolated fun reachable w₈ isolated => ?_
    refine onward_world only_pipelineRaiseIf isolated fun _ w₉ isolated => ?_
    refine (repairIsolatedPoolSlot_isolated cfg tid slotNo expectedRevision contest isolated).bind
      isolating_monotone (fun revision w₁₀ isolated => ?_) fun _ _ kept => kept
    exact onward_world (only_call (by trivial)) isolated fun _ _ kept => kept

end NoiContest.Pipeline
