import NoiContest.Pipeline.PoolFlows

/- Which calls the parts of the pool procedures make: reads, and commands on the host. -/
namespace NoiContest.Pipeline
open SeatPool Flow

/-- Reads, the clock, fresh credentials, and host commands other than a copy of answers. -/
def Preparatory : Call → Prop
  | .getContest | .seatPool | .seatPoolResources | .hydroContest | .clock | .cvmStatus |
    .waitSsh | .newCredentials _ => True
  | .run (.copyAnswers ..) => False
  | .run _ => True
  | _ => False

/-- Reads, the clock, fresh credentials, and what checks the host or creates a slot. -/
def Provisioning : Call → Prop
  | .getContest | .seatPool | .seatPoolResources | .hydroContest | .clock | .cvmStatus |
    .waitSsh | .newCredentials _ => True
  | .run (.inspectDesktopImage _) | .run .networkGateway | .run .paperDigest |
    .run (.makeAnswerDirectories _) | .run (.runContainer _) | .run (.containerImage _) |
    .run (.containerAddress _) | .run (.seatReadiness ..) => True
  | _ => False

theorem provisioning_preparatory (c : Call) (provisioning : Provisioning c) : Preparatory c := by
  cases c
  case run command => cases command <;> trivial
  all_goals trivial

variable {ε α : Type} {kind : Call → Prop}

theorem only_onPool {result : Except PoolError α} : Only kind (onPool result) := only_ofExcept

theorem only_checked {result : Except Raised α} : Only kind (checked result) := only_ofExcept

theorem only_call {c : Call} (is : kind c) : Only kind (call c) := only_perform is

theorem only_pipelineRaiseIf {bad : Prop} [Decidable bad] {message : String} :
    Only kind (raiseIf bad message) := only_raiseIf

theorem validateContestSnapshot_provisioning (contest : Contest) :
    Only Provisioning (validateContestSnapshot contest) := by
  unfold validateContestSnapshot
  apply Only.ite only_pure
  apply Only.bind (only_call trivial)
  intro document
  cases document with
  | none => exact only_raise
  | some document => exact only_pipelineRaiseIf.bind fun _ => only_pipelineRaiseIf

theorem inspectDesktopImageContract_provisioning (imageRef : String) :
    Only Provisioning (inspectDesktopImageContract imageRef) := by
  unfold inspectDesktopImageContract
  apply Only.bind (only_call trivial)
  intro output
  split
  · exact only_pipelineRaiseIf.bind fun _ => only_pure
  · exact only_raise

theorem verifiedContext_provisioning (cfg : Config) (contest : Contest) (pool : SeatPoolState)
    (resources : List PoolResource) :
    Only Provisioning (verifiedContext cfg contest pool resources) := by
  unfold verifiedContext
  apply only_checked.bind
  intro inventory
  apply only_pipelineRaiseIf.bind
  intro _
  apply (inspectDesktopImageContract_provisioning _).bind
  intro expectedImageId
  apply only_pipelineRaiseIf.bind
  intro _
  apply Only.bind (only_call trivial)
  intro gateway
  dsimp only
  split
  · exact only_raise
  · apply only_pipelineRaiseIf.bind
    intro _
    apply Only.bind (only_call trivial)
    intro paper
    apply only_pipelineRaiseIf.bind
    intro _
    exact only_pipelineRaiseIf.bind fun _ => only_pure

theorem verifiedContext_resources (cfg : Config) (contest : Contest) (pool : SeatPoolState)
    (resources : List PoolResource) :
    Returns (fun context => context.resources = resources)
      (verifiedContext cfg contest pool resources) := by
  unfold verifiedContext
  refine Returns.bind returns_any fun inventory _ => ?_
  refine Returns.bind returns_any fun _ _ => ?_
  refine Returns.bind returns_any fun expectedImageId _ => ?_
  refine Returns.bind returns_any fun _ _ => ?_
  refine Returns.bind returns_any fun gateway _ => ?_
  dsimp only
  split
  · exact returns_raise
  · refine Returns.bind returns_any fun _ _ => ?_
    refine Returns.bind returns_any fun paper _ => ?_
    refine Returns.bind returns_any fun _ _ => ?_
    exact Returns.bind returns_any fun _ _ => returns_pure rfl

theorem verifiedContext_distinct (cfg : Config) (contest : Contest) (pool : SeatPoolState)
    (resources : List PoolResource) :
    Returns (fun context => context.resources = resources ∧ (resources.map (·.slotNo)).Nodup)
      (verifiedContext cfg contest pool resources) := by
  cases inventory : verifiedPoolInventory resources pool with
  | error e =>
    unfold verifiedContext
    rw [inventory]
    exact .error e
  | ok found =>
    simp only [verifiedPoolInventory, Outcome.bind_ok, Outcome.raiseIf_ok, not_not] at inventory
    obtain ⟨_, distinct, _⟩ := inventory
    exact (verifiedContext_resources cfg contest pool resources).mono
      fun _ same => ⟨same, distinct⟩

theorem poolRuntimeContext_provisioning (cfg : Config) (contest : Contest)
    (pool : SeatPoolState) : Only Provisioning (poolRuntimeContext cfg contest pool) :=
  Only.bind (only_call trivial) fun _ => verifiedContext_provisioning cfg contest pool _

theorem newPoolResourceSpec_provisioning (tid : String) (slotNo : Nat) :
    Only Provisioning (newPoolResourceSpec tid slotNo) :=
  Only.bind (only_call trivial) fun _ => only_pure

theorem provisionPoolSlot_provisioning (context : RuntimeContext) (spec : ResourceSpec)
    (existingCips : List String) :
    Only Provisioning (provisionPoolSlot context spec existingCips) := by
  unfold provisionPoolSlot
  apply Only.bind (only_call trivial)
  intro _
  apply Only.bind (only_call trivial)
  intro _
  apply Only.bind (only_call trivial)
  intro image
  apply only_pipelineRaiseIf.bind
  intro _
  apply Only.bind (only_call trivial)
  intro cip
  dsimp only
  split
  · exact only_raise
  · apply only_pipelineRaiseIf.bind
    intro _
    exact Only.bind (only_call trivial) fun _ => only_pure

theorem stagePoolGateway_only (revision : Int) (conf : List PoolResource) :
    Only Preparatory (stagePoolGateway revision conf) :=
  Only.bind (only_call trivial) fun _ => Only.bind (only_call trivial) fun _ => only_pure

theorem restorePoolGateway_only (revision : Int) :
    Only Preparatory (restorePoolGateway revision) :=
  Only.bind (only_call trivial) fun _ => only_pure

theorem cleanupIncrementalSlots_only (specs : List ResourceSpec) :
    Only Preparatory (cleanupIncrementalSlots specs) := by
  induction specs with
  | nil => exact only_pure
  | cons spec rest ih => exact Only.bind (only_call trivial) fun _ => ih

theorem Only.quietly {body : Procedure Unit} (only : Only kind body) : Only kind (quietly body) :=
  only.orElse fun _ => only_pure

theorem Only.onlyIf {condition : Prop} [Decidable condition] {body : Procedure Unit}
    (only : Only kind body) : Only kind (onlyIf condition body) := only.ite only_pure

theorem restoreStaged_only (remote : Bool) (stagedBackup : Option Int) :
    Only Preparatory (restoreStaged remote stagedBackup) := by
  cases stagedBackup with
  | none => exact only_pure
  | some revision => exact Only.onlyIf (Only.quietly (restorePoolGateway_only revision))

theorem Only.holding {Locals : Type} {locals : Locals} {body : Procedure α}
    (only : Only kind body) : Only kind (holding locals body) := only.mapError

theorem provisionAdded_provisioning (context : RuntimeContext) (tid : String)
    (expectedRevision : Int) (slots : List Nat) (state : SeatPoolState) (existingCips : List String)
    (attempted : List ResourceSpec) (resources : List PoolResource) :
    Only Provisioning (provisionAdded context tid expectedRevision slots state existingCips
      attempted resources) := by
  induction slots generalizing state existingCips attempted resources with
  | nil => exact only_pure
  | cons slotNo rest ih =>
    simp only [provisionAdded]
    refine Only.bind (Only.holding (only_call trivial)) fun warmAtMs => ?_
    refine Only.bind (Only.holding only_onPool) fun warming => ?_
    refine Only.bind (Only.holding (newPoolResourceSpec_provisioning tid slotNo)) fun spec => ?_
    refine Only.bind (Only.holding (provisionPoolSlot_provisioning context spec existingCips))
      fun resource => ?_
    refine Only.bind (Only.holding (only_call trivial)) fun verifyAtMs => ?_
    refine Only.bind (Only.holding only_onPool) fun verified => ?_
    exact ih _ _ _ _

theorem findResource_ok {resources : List PoolResource} {slotNo : Nat} {message : String}
    {resource : PoolResource} (found : findResource resources slotNo message = .ok resource) :
    resource ∈ resources ∧ resource.slotNo = slotNo := by
  unfold findResource at found
  split at found
  · rename_i there
    cases found
    exact ⟨List.mem_of_find?_eq_some there, by simpa using List.find?_some there⟩
  · cases found

theorem validateContestSnapshot_only (contest : Contest) :
    Only Preparatory (validateContestSnapshot contest) :=
  (validateContestSnapshot_provisioning contest).mono provisioning_preparatory

theorem verifiedContext_only (cfg : Config) (contest : Contest) (pool : SeatPoolState)
    (resources : List PoolResource) :
    Only Preparatory (verifiedContext cfg contest pool resources) :=
  (verifiedContext_provisioning cfg contest pool resources).mono provisioning_preparatory

theorem poolRuntimeContext_only (cfg : Config) (contest : Contest) (pool : SeatPoolState) :
    Only Preparatory (poolRuntimeContext cfg contest pool) :=
  (poolRuntimeContext_provisioning cfg contest pool).mono provisioning_preparatory

theorem newPoolResourceSpec_only (tid : String) (slotNo : Nat) :
    Only Preparatory (newPoolResourceSpec tid slotNo) :=
  (newPoolResourceSpec_provisioning tid slotNo).mono provisioning_preparatory

theorem provisionPoolSlot_only (context : RuntimeContext) (spec : ResourceSpec)
    (existingCips : List String) :
    Only Preparatory (provisionPoolSlot context spec existingCips) :=
  (provisionPoolSlot_provisioning context spec existingCips).mono provisioning_preparatory

theorem provisionAdded_only (context : RuntimeContext) (tid : String) (expectedRevision : Int)
    (slots : List Nat) (state : SeatPoolState) (existingCips : List String)
    (attempted : List ResourceSpec) (resources : List PoolResource) :
    Only Preparatory (provisionAdded context tid expectedRevision slots state existingCips
      attempted resources) :=
  (provisionAdded_provisioning context tid expectedRevision slots state existingCips attempted
    resources).mono provisioning_preparatory

end NoiContest.Pipeline
