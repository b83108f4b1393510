import NoiContest.Pipeline.Gateway

/- The gateway and the stored rows along the operations on a running contest: what a call means
   for both when everything else is unknown, and what follows for a whole operation. -/
namespace NoiContest.Pipeline
open SeatPool SeatPoolState Flow

def restores : Call → Bool
  | .run (.restoreGateway _) => true
  | _ => false

def removesBackup : Call → Bool
  | .run (.removeBackup _) => true
  | _ => false

/-- The restore command does its work whenever it is tried. -/
def RestoreSucceeds (c : Call) (choice : GatewayChoice) (host : GatewayHost) : Prop :=
  restores c = true → (GatewayHost.respond c choice host).1.isOk = true

/-- Removing the backup of an expansion or a replacement that was committed does not raise. -/
def RemovalSucceeds (c : Call) (choice : GatewayChoice) (host : GatewayHost) : Prop :=
  removesBackup c = true → host.published ≠ some .repair →
    (GatewayHost.respond c choice host).1.isOk = true

instance (c : Call) (choice : GatewayChoice) (host : GatewayHost) :
    Decidable (RestoreSucceeds c choice host) := by
  unfold RestoreSucceeds
  infer_instance

instance (c : Call) (choice : GatewayChoice) (host : GatewayHost) :
    Decidable (RemovalSucceeds c choice host) := by
  unfold RemovalSucceeds
  infer_instance

/- The rows, the gateway, and whether every removal so far went through. -/
structure GatewayView where
  rows : List PoolResource
  gateway : Gateway
  published : Option Publication
  removed : Prop

def gatewayView (s : GatewayHost × Prop) : GatewayView :=
  ⟨s.1.world.tables.resources, s.1.gateway, s.1.published, s.2⟩

def gatewaySpec : Transformer Call Answer Raised GatewayView := fun c v next =>
  match c, next with
  | .seatPoolResources, next => (∀ e, next (.error e) v) ∧
      ∀ resources, resources.Perm v.rows → next (.ok resources) v
  | .commitPoolExpansion _ _ _ added, next => (∀ e, next (.error e) v) ∧
      (added ≠ [] →
        next (.ok ()) { v with rows := v.rows ++ added, published := some .expansion })
  | .commitPoolReplacement _ _ _ failedSlot, next => (∀ e, next (.error e) v) ∧
      ∀ bound rows, ((v.rows.map (·.slotNo)).Nodup →
          rows.map location = (v.rows.filter (·.slotNo != failedSlot)).map location) →
        next (.ok bound) { v with rows := rows, published := some .replacement }
  | .commitPoolRepair _ _ _ resource _, next => (∀ e, next (.error e) v) ∧
      next (.ok ()) { v with rows := v.rows ++ [resource], published := some .repair }
  | .run (.putGatewayConf revision conf), next =>
      (∀ e gateway, gateway.live = v.gateway.live →
        next (.error e) { v with gateway := gateway }) ∧
      ∀ output gateway, gateway.live = v.gateway.live → gateway.pending revision = some conf →
        next (.ok output) { v with gateway := gateway }
  | .run (.switchGateway revision), next =>
      (∀ e gateway, gateway.live = v.gateway.live →
        next (.error e) { v with gateway := gateway }) ∧
      ∀ output gateway, v.gateway.pending revision = some gateway.live →
        gateway.backups revision = some v.gateway.live →
        next (.ok output) { v with gateway := gateway }
  | .run (.restoreGateway revision), next =>
      ∀ output gateway, v.gateway.backups revision = some gateway.live →
        next (.ok output) { v with gateway := gateway }
  | .run (.removeBackup revision), next =>
      (∀ e gateway, gateway.live = v.gateway.live →
        (∀ conf, gateway.backups revision = some conf →
          v.gateway.backups revision = some conf) →
        next (.error e)
          { v with gateway := gateway, removed := v.removed ∧ v.published = some .repair }) ∧
      ∀ output gateway, gateway.live = v.gateway.live →
        next (.ok output) { v with gateway := gateway }
  | _, next => (∀ e, next (.error e) v) ∧ ∀ answer, next (.ok answer) v

theorem gatewaySpec_monotone : Monotone gatewaySpec := by
  intro c v next next' weaker holds
  cases c
  case run command =>
    cases command
    case putGatewayConf => exact ⟨fun e g live => weaker _ _ (holds.1 e g live),
      fun output g live staged => weaker _ _ (holds.2 output g live staged)⟩
    case switchGateway => exact ⟨fun e g live => weaker _ _ (holds.1 e g live),
      fun output g installed saved => weaker _ _ (holds.2 output g installed saved)⟩
    case restoreGateway => exact fun output g saved => weaker _ _ (holds output g saved)
    case removeBackup => exact ⟨fun e g live kept => weaker _ _ (holds.1 e g live kept),
      fun output g live => weaker _ _ (holds.2 output g live)⟩
    all_goals exact ⟨fun e => weaker _ _ (holds.1 e), fun answer => weaker _ _ (holds.2 answer)⟩
  case seatPoolResources => exact ⟨fun e => weaker _ _ (holds.1 e),
    fun resources same => weaker _ _ (holds.2 resources same)⟩
  case commitPoolExpansion => exact ⟨fun e => weaker _ _ (holds.1 e),
    fun some => weaker _ _ (holds.2 some)⟩
  case commitPoolReplacement => exact ⟨fun e => weaker _ _ (holds.1 e),
    fun bound rows same => weaker _ _ (holds.2 bound rows same)⟩
  case commitPoolRepair => exact ⟨fun e => weaker _ _ (holds.1 e), weaker _ _ holds.2⟩
  all_goals exact ⟨fun e => weaker _ _ (holds.1 e), fun answer => weaker _ _ (holds.2 answer)⟩

/- The rows that the commits write. -/

theorem insertResources_rows {resources added written : List PoolResource}
    (inserted : added.foldlM ContestTables.insertResource resources = .ok written) :
    written = resources ++ added := by
  induction added generalizing resources with
  | nil =>
    cases inserted
    simp
  | cons row rest ih =>
    simp only [List.foldlM_cons, Outcome.bind_ok, ContestTables.insertResource, Outcome.raiseIf_ok,
      Outcome.pure_eq_ok] at inserted
    obtain ⟨_, ⟨_, _, rfl⟩, later⟩ := inserted
    simp [ih later]

theorem commitPoolExpansion_rows {tables written : ContestTables} {tid : String} {revision : Int}
    {state : SeatPoolState} {added : List PoolResource}
    (committed : tables.commitPoolExpansion tid revision state added = .ok written) :
    added ≠ [] ∧ written.resources = tables.resources ++ added := by
  simp only [ContestTables.commitPoolExpansion, Outcome.bind_ok, Outcome.raiseIf_ok,
    Outcome.pure_eq_ok] at committed
  obtain ⟨_, _, _, some, _, _, previous, _, _, _, _, _, _, _, _, _, resources, inserted, rfl⟩ :=
    committed
  exact ⟨some, insertResources_rows inserted⟩

theorem commitPoolRepair_rows {tables written : ContestTables} {tid : String} {revision : Int}
    {state : SeatPoolState} {resource : PoolResource} {slotNo : Nat}
    (committed : tables.commitPoolRepair tid revision state resource slotNo = .ok written) :
    written.resources = tables.resources ++ [resource] := by
  simp only [ContestTables.commitPoolRepair, Outcome.bind_ok, Outcome.raiseIf_ok] at committed
  obtain ⟨_, _, _, _, _, _, _, _, previous, _, committed⟩ := committed
  split at committed
  · simp at committed
  · simp only [Outcome.bind_ok, Outcome.raiseIf_ok, Outcome.pure_eq_ok] at committed
    obtain ⟨_, _, _, _, _, _, _, _, _, _, resources, inserted, rfl⟩ := committed
    simp only [ContestTables.insertResource, Outcome.bind_ok, Outcome.pure_eq_ok] at inserted
    obtain ⟨_, _, rfl⟩ := inserted
    rfl

/- The rebound row keeps its token and address. -/
theorem rebound_locations {rows : List PoolResource} {resource : PoolResource} {slotNo : Nat}
    (revision : Int) (distinct : (rows.map (·.slotNo)).Nodup)
    (found : rows.find? (·.slotNo == slotNo) = some resource) (keep : PoolResource → Bool) :
    ((rows.filter keep).map fun other => if other.slotNo = slotNo then
      { resource with credentialRevision := revision } else other).map location =
        (rows.filter keep).map location := by
  rw [List.map_map]
  apply List.map_congr_left
  intro other mem
  have inside := (List.mem_filter.mp mem).1
  have slot : resource.slotNo = slotNo := by simpa using List.find?_some found
  by_cases same : other.slotNo = slotNo
  · have eq : other = resource := List.inj_on_of_nodup_map distinct inside
      (List.mem_of_find?_eq_some found) (same.trans slot.symm)
    subst eq
    simp [slot, location]
  · simp [same]

theorem commitPoolReplacement_rows {tables written : ContestTables} {tid : String}
    {revision : Int} {state : SeatPoolState} {failedSlot : Nat} {bound : Option PoolResource}
    (committed : tables.commitPoolReplacement tid revision state failedSlot =
      .ok (bound, written)) (distinct : (tables.resources.map (·.slotNo)).Nodup) :
    written.resources.map location =
      (tables.resources.filter (·.slotNo != failedSlot)).map location := by
  simp only [ContestTables.commitPoolReplacement, Outcome.bind_ok, Outcome.raiseIf_ok] at committed
  obtain ⟨_, _, previous, _, _, _, committed⟩ := committed
  split at committed
  · rename_i oldSeat failed _ _
    simp only [Outcome.bind_ok, Outcome.raiseIf_ok] at committed
    obtain ⟨_, _, replacement, taken, _, _, _, _, committed⟩ := committed
    cases replacement with
    | none =>
      simp only [Outcome.pure_eq_ok, Prod.mk.injEq] at committed
      rw [← committed.2]
    | some pair =>
      obtain ⟨replacement, resource⟩ := pair
      simp only [Outcome.bind_ok, Outcome.pure_eq_ok, Prod.mk.injEq] at committed
      obtain ⟨_, _, _, rfl⟩ := committed
      have found : tables.resources.find? (·.slotNo == replacement.slotNo) = some resource := by
        unfold ContestTables.replacementFor at taken
        split at taken
        · simp at taken
        · split at taken
          · simp at taken
          · simp only [Outcome.bind_ok, Outcome.raiseIf_ok] at taken
            obtain ⟨_, _, taken⟩ := taken
            split at taken
            · simp at taken
            · rename_i row there
              simp only [Outcome.bind_ok, Outcome.raiseIf_ok, Outcome.pure_eq_ok,
                Option.some.injEq, Prod.mk.injEq] at taken
              obtain ⟨_, _, rfl, rfl⟩ := taken
              exact there
      exact rebound_locations _ distinct found _
  · simp at committed

theorem putSeatPool_rows {tables written : ContestTables} {expectedRevision : Option Int}
    {state : SeatPoolState} (put : tables.putSeatPool expectedRevision state = .ok written) :
    written.resources = tables.resources := by
  unfold ContestTables.putSeatPool at put
  split at put
  all_goals
    simp only [Outcome.bind_ok, Outcome.pure_eq_ok] at put
    obtain ⟨_, _, rfl⟩ := put
    rfl

theorem commitScheduleSync_rows {tables written : ContestTables}
    {b e b' e' observed revision : Int} {rule : String} {state : SeatPoolState}
    {contest : Contest}
    (committed : tables.commitScheduleSync b e b' e' rule observed revision state =
      .ok (contest, written)) : written.resources = tables.resources := by
  unfold ContestTables.commitScheduleSync at committed
  split at committed
  · cases committed
  · simp only [Outcome.bind_ok, Outcome.pure_eq_ok, Prod.mk.injEq] at committed
    obtain ⟨_, _, _, _, _, _, _, _, _, rfl⟩ := committed
    rfl

theorem recorded {fine : Prop} {removed : Prop} (holds : fine) : (removed ∧ fine) = removed :=
  propext (and_iff_left holds)

/- A call that is no command on the host. -/
theorem gateway_respond_store {c : Call} (choice : GatewayChoice) (host : GatewayHost)
    (removed : Prop) (next : Except Raised (Answer c) → GatewayView → Prop)
    (other : ∀ command, c ≠ .run command)
    (viewed : tableView c host.world.tables fun answer tables => next answer
      { rows := tables.resources
        gateway := host.gateway
        published := if answer.isOk then (Publication.of c).or host.published else host.published
        removed := removed }) :
    next (GatewayHost.respond c choice host).1 (gatewayView ((GatewayHost.respond c choice host).2,
      removed ∧ RemovalSucceeds c choice host)) := by
  have fine : RemovalSucceeds c choice host := by
    intro removes
    cases c
    case run command => exact absurd rfl (other command)
    all_goals cases removes
  rw [recorded fine]
  have held := World.respond_views c choice.toChoice host.world _ viewed
  cases c
  case run command => exact absurd rfl (other command)
  all_goals exact held

/- A command on the host leaves the rows alone. -/
theorem run_rows (command : HostCommand) (choice : Choice) (w : World) :
    (World.respond (.run command) choice w).2.tables.resources = w.tables.resources :=
  World.respond_views (.run command) choice w
    (fun _ tables => tables.resources = w.tables.resources) ⟨fun _ _ => rfl, fun _ => rfl⟩

theorem gateway_run_cases (command : HostCommand) (choice : GatewayChoice) (host : GatewayHost) :
    ∃ w, w.tables.resources = host.world.tables.resources ∧
      ((∃ e gateway, GatewayHost.respond (.run command) choice host =
          (.error e, { host with world := w, gateway := gateway }) ∧
        (gateway = host.gateway ∨ gateway = host.gateway.broken choice.tookEffect command)) ∨
      ∃ output gateway, GatewayHost.respond (.run command) choice host =
          (.ok output, { host with world := w, gateway := gateway }) ∧
        host.gateway.perform command = some gateway) := by
  have rows := run_rows command choice.toChoice host.world
  have answering : GatewayHost.respond (.run command) choice host =
      host.onCommand choice.tookEffect command
        (World.respond (.run command) choice.toChoice host.world) := rfl
  generalize World.respond (.run command) choice.toChoice host.world = answered
    at rows answering
  obtain ⟨answer, w⟩ := answered
  refine ⟨w, rows, ?_⟩
  cases answer with
  | error e => exact .inl ⟨e, _, answering, .inr rfl⟩
  | ok output =>
    cases performed : host.gateway.perform command with
    | none =>
      simp only [GatewayHost.onCommand, performed] at answering
      exact .inl ⟨_, _, answering, .inl rfl⟩
    | some gateway =>
      simp only [GatewayHost.onCommand, performed] at answering
      exact .inr ⟨output, gateway, answering, rfl⟩

/- A broken command leaves the configuration that is served, but for a restore. -/
theorem broken_live (gateway : Gateway) (tookEffect : Bool) (command : HostCommand)
    (other : restores (.run command) = false) :
    (gateway.broken tookEffect command).live = gateway.live := by
  cases command <;> cases tookEffect <;> first | rfl | cases other

theorem gateway_respond_run (command : HostCommand) (choice : GatewayChoice)
    (s : GatewayHost × Prop) (next : Except Raised String → GatewayView → Prop)
    (permitted : RestoreSucceeds (.run command) choice s.1)
    (viewed : gatewaySpec (.run command) (gatewayView s) next) :
    next (GatewayHost.respond (.run command) choice s.1).1
      (gatewayView ((GatewayHost.respond (.run command) choice s.1).2,
        s.2 ∧ RemovalSucceeds (.run command) choice s.1)) := by
  obtain ⟨host, removed⟩ := s
  unfold RestoreSucceeds at permitted
  unfold RemovalSucceeds
  obtain ⟨w, rows, ⟨e, gateway, answered, left⟩ | ⟨output, gateway, answered, performed⟩⟩ :=
    gateway_run_cases command choice host
  · -- the command raised
    rw [answered] at permitted ⊢
    have live : restores (.run command) = false → gateway.live = host.gateway.live := by
      rintro other
      rcases left with rfl | rfl
      · rfl
      · exact broken_live _ _ _ other
    unfold gatewayView
    dsimp only
    rw [rows]
    cases command
    case removeBackup revision =>
      have record : (removesBackup (.run (.removeBackup revision)) = true →
          host.published ≠ some .repair → (Except.error e : Except Raised String).isOk = true) =
            (host.published = some .repair) := by
        simp [removesBackup, Except.isOk, Except.toBool]
      rw [record]
      refine viewed.1 e gateway (live rfl) fun conf kept => ?_
      rcases left with rfl | rfl
      · exact kept
      · cases took : choice.tookEffect with
        | false =>
          rw [took] at kept
          exact kept
        | true =>
          rw [took] at kept
          simp [Gateway.broken, Gateway.perform, Gateway.save] at kept
    case restoreGateway => cases permitted rfl
    all_goals rw [recorded fun impossible => by cases impossible]
    case putGatewayConf => exact viewed.1 e gateway (live rfl)
    case switchGateway => exact viewed.1 e gateway (live rfl)
    all_goals
      have same : gateway = host.gateway := by
        rcases left with rfl | rfl
        · rfl
        · cases choice.tookEffect <;> rfl
      rw [same]
      exact viewed.1 e
  · have record : (removed ∧ (removesBackup (.run command) = true →
        host.published ≠ some .repair → (Except.ok output : Except Raised String).isOk = true)) =
          removed := recorded fun _ _ => rfl
    rw [answered]
    unfold gatewayView
    dsimp only
    rw [record, rows]
    cases command
    case putGatewayConf revision conf =>
      cases performed
      exact viewed.2 output _ rfl (by simp [Gateway.save])
    case switchGateway revision =>
      obtain ⟨conf, staged, rfl⟩ := Option.map_eq_some_iff.mp performed
      exact viewed.2 output _ staged (by simp [Gateway.save, gatewayView])
    case restoreGateway revision =>
      obtain ⟨conf, saved, rfl⟩ := Option.map_eq_some_iff.mp performed
      exact viewed output _ saved
    case removeBackup revision =>
      cases performed
      exact viewed.2 output _ rfl
    all_goals
      cases performed
      exact viewed.2 output

/- The view says no more than the calls do. -/
theorem gateway_refines (c : Call) (s : GatewayHost × Prop)
    (next : Except Raised (Answer c) → GatewayView → Prop)
    (viewed : gatewaySpec c (gatewayView s) next) :
    watching GatewayHost.respond RestoreSucceeds RemovalSucceeds c s fun answer t =>
      next answer (gatewayView t) := by
  intro choice permitted
  obtain ⟨host, removed⟩ := s
  cases c
  case run command => exact gateway_respond_run command choice _ next permitted viewed
  case commitPoolExpansion =>
    refine gateway_respond_store choice host removed next (by simp) ⟨fun _ => viewed.1, ?_⟩
    intro written committed
    obtain ⟨some, rows⟩ := commitPoolExpansion_rows committed
    rw [rows]
    exact viewed.2 some
  case commitPoolReplacement =>
    refine gateway_respond_store choice host removed next (by simp) ⟨fun _ => viewed.1, ?_⟩
    intro bound written committed
    exact viewed.2 bound _ (commitPoolReplacement_rows committed)
  case commitPoolRepair =>
    refine gateway_respond_store choice host removed next (by simp) ⟨fun _ => viewed.1, ?_⟩
    intro written committed
    rw [commitPoolRepair_rows committed]
    exact viewed.2
  case seatPoolResources =>
    exact gateway_respond_store choice host removed next (by simp) ⟨fun _ => viewed.1, viewed.2⟩
  case putSeatPool =>
    refine gateway_respond_store choice host removed next (by simp) ⟨fun _ => viewed.1, ?_⟩
    intro written put
    rw [putSeatPool_rows put]
    exact viewed.2 _
  case commitScheduleSync =>
    refine gateway_respond_store choice host removed next (by simp) ⟨fun _ => viewed.1, ?_⟩
    intro contest written committed
    rw [commitScheduleSync_rows committed]
    exact viewed.2 _
  case bindPoolSeat =>
    refine gateway_respond_store choice host removed next (by simp) ⟨fun _ => viewed.1, ?_⟩
    intro written bound
    obtain ⟨seats, rfl⟩ := ContestTables.bindPoolSeat_ok bound
    exact viewed.2 _
  case getContest | seatPool | setState =>
    exact gateway_respond_store choice host removed next (by simp)
      ⟨fun _ => viewed.1, viewed.2 _⟩
  all_goals
    exact gateway_respond_store choice host removed next (by simp)
      ⟨fun _ => viewed.1, fun _ => viewed.2 _⟩

/- What is known between the calls. -/

variable {v : GatewayView} {rows conf : List PoolResource} {revision : Int} {ε α β : Type}

def GatewayView.Serves (v : GatewayView) (conf : List PoolResource) : Prop :=
  (conf.map location).Perm (v.rows.map location)

/-- The gateway agrees with the rows, and no removal has failed. -/
structure Sound (v : GatewayView) : Prop where
  agrees : v.Serves v.gateway.live
  removed : v.removed

/-- The backup of the revision agrees with the rows. -/
structure Restorable (revision : Int) (v : GatewayView) : Prop where
  saved : ∃ old, v.gateway.backups revision = some old ∧ v.Serves old
  removed : v.removed

/-- The pool of a growth or a replacement is stored, and the backup of its revision, if it is
    there, is that of the rows before. -/
structure Published (revision : Int) (v : GatewayView) : Prop where
  sound : Sound v
  guarded : v.published ≠ some .repair
  outdated : ∀ old, v.gateway.backups revision = some old → ¬ v.Serves old

/-- What the handler of a growth or a replacement finds. -/
def Handled (remote : Bool) (v : GatewayView) : Option Int → Prop
  | none => Sound v
  | some revision => remote = true ∧ ¬ v.removed ∧
      ∀ old, v.gateway.backups revision = some old → ¬ v.Serves old

/-- The gateway agrees with the rows exactly when no removal has failed. -/
def Decided (v : GatewayView) : Prop := v.Serves v.gateway.live ↔ v.removed

theorem Sound.decided (sound : Sound v) : Decided v :=
  ⟨fun _ => sound.removed, fun _ => sound.agrees⟩

/- The calls that leave the gateway and the rows alone. -/
def Calm : Call → Prop
  | .commitPoolExpansion .. | .commitPoolReplacement .. | .commitPoolRepair .. |
    .run (.putGatewayConf ..) | .run (.switchGateway _) | .run (.restoreGateway _) |
    .run (.removeBackup _) => False
  | _ => True

theorem provisioning_calm (c : Call) (provisioning : Provisioning c) : Calm c := by
  cases c
  case run command => cases command <;> trivial
  all_goals trivial

theorem calm_call {c : Call} (calm : Calm c) : gatewaySpec c v fun _ t => t = v := by
  cases c
  case run command =>
    cases command
    case putGatewayConf | switchGateway | restoreGateway | removeBackup => exact calm.elim
    all_goals exact ⟨fun _ => rfl, fun _ => rfl⟩
  case commitPoolExpansion | commitPoolReplacement | commitPoolRepair => exact calm.elim
  case seatPoolResources => exact ⟨fun _ => rfl, fun _ _ => rfl⟩
  all_goals exact ⟨fun _ => rfl, fun _ => rfl⟩

theorem calm_ends {x : Program Call Answer Raised ε α} (calm : Only Calm x) :
    Ends gatewaySpec x v (fun _ t => t = v) fun _ t => t = v :=
  calm.keeps gatewaySpec_monotone (P := fun t => t = v)
    (fun c is s same => by rw [same]; exact calm_call is) v rfl

theorem calmly {x : Procedure α} {f : α → Procedure β} {post : β → GatewayView → Prop}
    {raised : Raised → GatewayView → Prop} (calm : Only Calm x)
    (failed : ∀ e, raised e v) (next : ∀ a, Ends gatewaySpec (f a) v post raised) :
    Ends gatewaySpec (x >>= f) v post raised :=
  (calm_ends calm).bind gatewaySpec_monotone (fun a t same => by rw [same]; exact next a)
    fun e t same => by rw [same]; exact failed e

theorem calmly_holding {Locals : Type} {locals : Locals} {x : Procedure α}
    {f : α → Holding Locals β} {post : β → GatewayView → Prop}
    {raised : Raised × Locals → GatewayView → Prop} (calm : Only Calm x)
    (failed : ∀ e, raised (e, locals) v) (next : ∀ a, Ends gatewaySpec (f a) v post raised) :
    Ends gatewaySpec (holding locals x >>= f) v post raised := by
  rw [ends_bind, holding, ends_mapError]
  exact (calm_ends calm).mono gatewaySpec_monotone (fun a t same => by rw [same]; exact next a)
    fun e t same => by rw [same]; exact failed e

theorem poolRuntimeContext_ends (cfg : Config) (contest : Contest) (pool : SeatPoolState) :
    Ends gatewaySpec (poolRuntimeContext cfg contest pool) v
      (fun context t => t = v ∧ context.resources.Perm v.rows ∧ (v.rows.map (·.slotNo)).Nodup)
      (fun _ t => t = v) := by
  refine ⟨fun _ => rfl, fun resources same => ?_⟩
  have calm := (verifiedContext_provisioning cfg contest pool resources).mono provisioning_calm
  have calls : ∀ c, Calm c → ∀ s, s = v → gatewaySpec c s fun _ t => t = v :=
    fun c is s eq => by rw [eq]; exact calm_call is
  refine (calm.keeps_returning gatewaySpec_monotone calls
    (verifiedContext_distinct cfg contest pool resources) rfl).mono gatewaySpec_monotone ?_
    fun _ _ kept => kept
  rintro context t ⟨rfl, listed, distinct⟩
  exact ⟨rfl, listed ▸ same, (same.map _).nodup_iff.mp distinct⟩

/- The switch of the gateway and the commit after it. -/

theorem poolGatewayConf_perm {resources conf : List PoolResource}
    (built : poolGatewayConf resources = .ok conf) : conf.Perm resources := by
  simp only [poolGatewayConf, Outcome.bind_ok, Outcome.pure_eq_ok] at built
  obtain ⟨_, _, rfl⟩ := built
  exact List.perm_insertionSort _ _

/- The gateway was switched to the configuration, and the old one is kept as a backup. -/
structure Switched (before : GatewayView) (conf : List PoolResource) (revision : Int)
    (v : GatewayView) : Prop where
  rows : v.rows = before.rows
  live : v.gateway.live = conf
  saved : v.gateway.backups revision = some before.gateway.live
  removed : v.removed

theorem Switched.restorable (switched : Switched v conf revision w) (sound : Sound v) :
    Restorable revision w :=
  ⟨⟨_, switched.saved, by unfold GatewayView.Serves; rw [switched.rows]; exact sound.agrees⟩,
    switched.removed⟩

theorem stagePoolGateway_ends (sound : Sound v) (revision : Int) (conf : List PoolResource) :
    Ends gatewaySpec (stagePoolGateway revision conf) v (fun _ => Switched v conf revision)
      (fun _ => Sound) := by
  have unchanged : ∀ gateway : Gateway, gateway.live = v.gateway.live →
      Sound { v with gateway := gateway } := fun gateway live =>
    ⟨by unfold GatewayView.Serves; rw [live]; exact sound.agrees, sound.removed⟩
  refine ⟨fun e gateway live => unchanged gateway live, fun output staged live pending => ?_⟩
  refine ⟨fun e gateway still => unchanged gateway (still.trans live),
    fun output gateway installed saved => ⟨rfl, ?_, ?_, sound.removed⟩⟩
  · exact Option.some.inj (installed.symm.trans pending)
  · rw [saved]
    exact congrArg some live

theorem restorePoolGateway_ends (restorable : Restorable revision v) :
    Ends gatewaySpec (restorePoolGateway revision) v (fun _ => Sound) fun _ _ => False := by
  intro output gateway saved
  obtain ⟨⟨old, kept, serves⟩, removed⟩ := restorable
  have same : old = gateway.live := Option.some.inj (kept.symm.trans saved)
  exact ⟨same ▸ serves, removed⟩

theorem commitOrRestore_ends {Locals : Type} {staged unstaged : Locals} {commit : Procedure α}
    {post : α → GatewayView → Prop} (restorable : Restorable revision v)
    (commits : Ends gatewaySpec commit v post fun _ t => t = v) :
    Ends gatewaySpec (commitOrRestore staged unstaged revision commit) v post
      fun e t => e.2 = unstaged ∧ Sound t := by
  unfold commitOrRestore
  rw [ends_orElse, holding, ends_mapError]
  refine commits.mono gatewaySpec_monotone (fun _ _ kept => kept) fun e t same => ?_
  rw [same, ends_bind, holding, ends_mapError]
  exact (restorePoolGateway_ends restorable).mono gatewaySpec_monotone
    (fun _ _ sound => ⟨rfl, sound⟩) fun _ _ impossible => impossible.elim

/- A removal that raises leaves the mark, and the handler the old backup at most. -/
theorem removeBackup_ends (published : Published revision v) :
    Ends gatewaySpec (run (.removeBackup revision)) v (fun _ => Sound)
      fun _ t => Handled true t (some revision) := by
  refine ⟨fun e gateway live kept => ⟨rfl, ?_, ?_⟩, fun output gateway live => ?_⟩
  · exact fun removed => published.guarded removed.2
  · exact fun old saved => published.outdated old (kept old saved)
  · exact ⟨by unfold GatewayView.Serves; rw [live]; exact published.sound.agrees,
      published.sound.removed⟩

theorem restoreStaged_ends {remote : Bool} {staged : Option Int} (handled : Handled remote v staged) :
    Ends gatewaySpec (restoreStaged remote staged) v (fun _ => Decided) fun _ _ => False := by
  cases staged with
  | none => exact handled.decided
  | some revision =>
    obtain ⟨rfl, failed, outdated⟩ := handled
    simp only [restoreStaged, onlyIf, if_true, quietly]
    rw [ends_orElse]
    intro output gateway saved
    exact ⟨fun serves => (outdated _ saved serves).elim, fun removed => (failed removed).elim⟩

/- The parts that leave gateway and rows alone. -/

theorem provisioning_only_calm {x : Program Call Answer Raised ε α}
    (provisioning : Only Provisioning x) : Only Calm x := provisioning.mono provisioning_calm

theorem cleanupIncrementalSlots_calm (specs : List ResourceSpec) :
    Only Calm (cleanupIncrementalSlots specs) := by
  induction specs with
  | nil => exact only_pure
  | cons spec rest ih => exact Only.bind (only_call trivial) fun _ => ih

theorem reportReady_calm (message : String) : Only Calm (reportReady message) := by
  unfold reportReady
  refine Only.bind (only_call trivial) fun row => ?_
  match row with
  | none => exact only_pure
  | some contest => exact Only.onlyIf (only_call trivial)

theorem closing_calm : Only Calm (do
    releaseDeploymentLock
    leave) := Only.bind (only_call trivial) fun _ => only_call trivial

theorem run_calm {command : HostCommand} (calm : Calm (.run command)) :
    Only Calm (do let _ ← run command) := Only.bind (only_call calm) fun _ => only_pure

theorem calm_keeps {P : GatewayView → Prop} {x : Program Call Answer Raised ε α}
    (calm : Only Calm x) : Keeps gatewaySpec P x := by
  intro v holds
  exact (calm_ends calm).mono gatewaySpec_monotone (fun _ t same => by rw [same]; exact holds)
    fun _ t same => by rw [same]; exact holds

/- Rebuilding a slot -/

/-- What the handler of a rebuild finds. -/
def Undoable (v : GatewayView) : Option Int → Prop
  | none => Sound v
  | some revision => Restorable revision v

theorem commitPoolRepair_ends {before : GatewayView} {resource : PoolResource}
    (switched : Switched before conf revision v)
    (built : conf.Perm (before.rows ++ [resource])) (tid : String) (expectedRevision : Int)
    (state : SeatPoolState) (slotNo : Nat) :
    Ends gatewaySpec (commitPoolRepair tid expectedRevision state resource slotNo) v
      (fun _ t => Sound t ∧ t.published = some .repair) fun _ t => t = v := by
  refine ⟨fun _ => rfl, ⟨?_, switched.removed⟩, rfl⟩
  unfold GatewayView.Serves
  rw [switched.live, switched.rows]
  exact built.map _

theorem rebuildSlot_ends (sound : Sound v) (tid : String) (slotNo failureCount : Nat)
    (expectedRevision : Int) (context : RuntimeContext) (spec : ResourceSpec)
    (state : SeatPoolState) (listed : context.resources.Perm v.rows) :
    Ends gatewaySpec (rebuildSlot tid slotNo failureCount expectedRevision context spec state) v
      (fun _ => Sound) fun e t => Undoable t e.2.stagedBackup := by
  unfold rebuildSlot
  refine calmly_holding (provisioning_only_calm (provisionPoolSlot_provisioning _ _ _))
    (fun _ => sound) fun resource => ?_
  refine calmly_holding (only_call trivial) (fun _ => sound) fun verifyAtMs => ?_
  generalize state.markVerified slotNo resource.container _ _ verifyAtMs _ state.revision = marked
  refine calmly_holding only_onPool (fun _ => sound) fun verified => ?_
  cases building : poolGatewayConf (context.resources ++ [resource]) with
  | error e => exact sound
  | ok conf =>
    have built : conf.Perm (v.rows ++ [resource]) :=
      (poolGatewayConf_perm building).trans (listed.append_right _)
    rw [ends_bind, holding, ends_mapError]
    change Ends gatewaySpec (holding _ (stagePoolGateway _ conf) >>= _) v _ _
    rw [ends_bind, holding, ends_mapError]
    refine (stagePoolGateway_ends sound _ conf).mono gatewaySpec_monotone
      (fun _ w switched => ?_) fun _ _ kept => kept
    rw [ends_bind, holding, ends_mapError]
    refine (commitPoolRepair_ends switched built tid expectedRevision _ slotNo).mono
      gatewaySpec_monotone (fun _ u committed => ?_) fun _ t same => ?_
    · -- the removal of the backup is guarded
      obtain ⟨sound, published⟩ := committed
      rw [ends_bind, holding, ends_mapError, quietly, ends_orElse]
      refine ⟨fun e gateway live kept => ?_, fun output gateway live => ?_⟩
      · exact ⟨by unfold GatewayView.Serves; rw [live]; exact sound.agrees,
          sound.removed, published⟩
      · exact ⟨by unfold GatewayView.Serves; rw [live]; exact sound.agrees, sound.removed⟩
    · rw [same]
      exact switched.restorable sound

theorem repairIsolatedPoolSlot_keeps (cfg : Config) (tid : String) (slotNo : Nat)
    (expectedRevision : Int) (contest : Contest) :
    Keeps gatewaySpec Sound (repairIsolatedPoolSlot cfg tid slotNo expectedRevision contest) := by
  intro v sound
  unfold repairIsolatedPoolSlot
  refine calmly (only_call trivial) (fun _ => sound) fun stored => ?_
  cases stored with
  | none => exact sound
  | some pool =>
    refine calmly only_pipelineRaiseIf (fun _ => sound) fun _ => ?_
    refine calmly only_onPool (fun _ => sound) fun failed => ?_
    refine calmly only_pipelineRaiseIf (fun _ => sound) fun _ => ?_
    refine (poolRuntimeContext_ends cfg contest pool).bind gatewaySpec_monotone ?_
      fun _ _ same => same ▸ sound
    rintro context v ⟨rfl, listed, _⟩
    refine calmly (provisioning_only_calm (newPoolResourceSpec_provisioning tid slotNo))
      (fun _ => sound) fun spec => ?_
    refine calmly (only_call trivial) (fun _ => sound) fun _ => ?_
    refine calmly (only_call trivial) (fun _ => sound) fun warmAtMs => ?_
    generalize pool.markWarming slotNo warmAtMs
      (repairId "warm" tid slotNo failed.failureCount) pool.revision = marked
    refine calmly only_onPool (fun _ => sound) fun warming => ?_
    rw [ends_orElse]
    refine (rebuildSlot_ends sound tid slotNo failed.failureCount expectedRevision context spec
      warming.state listed).mono gatewaySpec_monotone (fun _ _ kept => kept) fun raised t undo => ?_
    have restored : Ends gatewaySpec (restoreStaged true raised.2.stagedBackup) t
        (fun _ => Sound) fun _ _ => False := by
      revert undo
      cases raised.2.stagedBackup with
      | none => exact fun undo => undo
      | some revision =>
        intro undo
        simp only [restoreStaged, onlyIf, if_true, quietly]
        rw [ends_orElse]
        exact (restorePoolGateway_ends undo).mono gatewaySpec_monotone (fun _ _ kept => kept)
          fun _ _ impossible => impossible.elim
    refine restored.bind gatewaySpec_monotone (fun _ u sound => ?_)
      fun _ _ impossible => impossible.elim
    exact calmly (Only.quietly (cleanupIncrementalSlots_calm _)) (fun _ => sound)
      fun _ => sound

/- Growing and replacing -/

theorem commitPoolExpansion_ends {before : GatewayView} {added : List PoolResource}
    (sound : Sound before) (switched : Switched before conf revision v)
    (built : conf.Perm (before.rows ++ added)) (tid : String) (expectedRevision : Int)
    (state : SeatPoolState) :
    Ends gatewaySpec (commitPoolExpansion tid expectedRevision state added) v
      (fun _ => Published revision) fun _ t => t = v := by
  refine ⟨fun _ => rfl, fun some => ⟨⟨?_, switched.removed⟩, by simp, fun old saved serves => ?_⟩⟩
  · unfold GatewayView.Serves
    rw [switched.live, switched.rows]
    exact built.map _
  · -- the backup has fewer entries than there are rows
    have same : old = before.gateway.live := Option.some.inj (saved.symm.trans switched.saved)
    have fewer := (same ▸ serves.length_eq : (before.gateway.live.map location).length = _)
    have agrees := sound.agrees.length_eq
    have positive := List.length_pos_of_ne_nil some
    simp only [switched.rows, List.length_map, List.length_append] at fewer agrees
    omega

theorem commitPoolReplacement_ends {before : GatewayView} {failed : PoolResource}
    (sound : Sound before) (switched : Switched before conf revision v)
    (distinct : (before.rows.map (·.slotNo)).Nodup) (there : failed ∈ before.rows)
    (built : conf.Perm (before.rows.filter (·.slotNo != failed.slotNo))) (tid : String)
    (expectedRevision : Int) (state : SeatPoolState) :
    Ends gatewaySpec (commitPoolReplacement tid expectedRevision state failed.slotNo) v
      (fun _ => Published revision) fun _ t => t = v := by
  refine ⟨fun _ => rfl, fun bound rows written => ?_⟩
  rw [switched.rows] at written
  refine ⟨⟨?_, switched.removed⟩, by simp, fun old saved serves => ?_⟩
  · unfold GatewayView.Serves
    rw [switched.live, written distinct]
    exact built.map _
  · -- the backup has an entry more than there are rows
    have same : old = before.gateway.live := Option.some.inj (saved.symm.trans switched.saved)
    have more := (same ▸ serves.length_eq : (before.gateway.live.map location).length = _)
    have agrees := sound.agrees.length_eq
    have lost : (before.rows.filter (·.slotNo != failed.slotNo)).length < before.rows.length :=
      List.length_filter_lt_length_iff_exists.mpr ⟨failed, there, by simp⟩
    simp only [written distinct, List.length_map] at more agrees
    omega

theorem provisionAdded_ends (context : RuntimeContext) (tid : String) (expectedRevision : Int)
    (slots : List Nat) (state : SeatPoolState) (existingCips : List String)
    (attempted : List ResourceSpec) (resources : List PoolResource) :
    Ends gatewaySpec (provisionAdded context tid expectedRevision slots state existingCips
      attempted resources) v (fun _ t => t = v) fun e t => t = v ∧ e.2.stagedBackup = none := by
  induction slots generalizing state existingCips attempted resources with
  | nil => rfl
  | cons slotNo rest ih =>
    simp only [provisionAdded]
    refine calmly_holding (only_call trivial) (fun _ => ⟨rfl, rfl⟩) fun warmAtMs => ?_
    generalize state.markWarming slotNo warmAtMs _ state.revision = marked
    refine calmly_holding only_onPool (fun _ => ⟨rfl, rfl⟩) fun warming => ?_
    refine calmly_holding (provisioning_only_calm (newPoolResourceSpec_provisioning tid slotNo))
      (fun _ => ⟨rfl, rfl⟩) fun spec => ?_
    refine calmly_holding (provisioning_only_calm (provisionPoolSlot_provisioning _ _ _))
      (fun _ => ⟨rfl, rfl⟩) fun resource => ?_
    refine calmly_holding (only_call trivial) (fun _ => ⟨rfl, rfl⟩) fun verifyAtMs => ?_
    generalize warming.state.markVerified slotNo resource.container _ _ verifyAtMs _ _ = verifying
    refine calmly_holding only_onPool (fun _ => ⟨rfl, rfl⟩) fun verified => ?_
    exact ih _ _ _ _

theorem growBody_ends (sound : Sound v) (cfg : Config) (tid : String)
    (mains spares expectedRevision : Int) :
    Ends gatewaySpec (growBody cfg tid mains spares expectedRevision) v (fun _ => Sound)
      fun e t => Handled e.2.remote t e.2.stagedBackup := by
  unfold growBody
  refine calmly_holding (only_call trivial) (fun _ => sound) fun _ => ?_
  refine calmly_holding (only_call trivial) (fun _ => sound) fun row => ?_
  refine calmly_holding (only_call trivial) (fun _ => sound) fun stored => ?_
  match row, stored with
  | none, _ => exact sound
  | some _, none => exact sound
  | some contest, some pool =>
    refine calmly_holding only_pipelineRaiseIf (fun _ => sound) fun _ => ?_
    refine calmly_holding (provisioning_only_calm (validateContestSnapshot_provisioning contest))
      (fun _ => sound) fun _ => ?_
    refine calmly_holding only_onPool (fun _ => sound) fun grown => ?_
    rw [ends_ite]
    refine ⟨fun _ => sound, fun _ => ?_⟩
    refine calmly_holding only_pipelineRaiseIf (fun _ => sound) fun _ => ?_
    refine calmly_holding only_pipelineRaiseIf (fun _ => sound) fun _ => ?_
    refine calmly_holding (only_call trivial) (fun _ => sound) fun status => ?_
    refine calmly_holding only_pipelineRaiseIf (fun _ => sound) fun _ => ?_
    refine calmly_holding (only_call trivial) (fun _ => sound) fun reachable => ?_
    refine calmly_holding only_pipelineRaiseIf (fun _ => sound) fun _ => ?_
    rw [ends_bind, holding, ends_mapError]
    refine (poolRuntimeContext_ends cfg contest pool).mono gatewaySpec_monotone ?_
      fun _ _ same => same ▸ sound
    rintro context v ⟨rfl, listed, _⟩
    refine (provisionAdded_ends context tid expectedRevision _ _ _ _ _).bind
      gatewaySpec_monotone ?_ fun e t failed => by rw [failed.1, failed.2]; exact sound
    rintro ⟨state, attempted, added⟩ v rfl
    dsimp only
    cases building : poolGatewayConf (context.resources ++ added) with
    | error e => exact sound
    | ok conf =>
      have built : conf.Perm (v.rows ++ added) :=
        (poolGatewayConf_perm building).trans (listed.append_right _)
      change Ends gatewaySpec (holding _ (stagePoolGateway _ conf) >>= _) v _ _
      rw [ends_bind, holding, ends_mapError]
      refine (stagePoolGateway_ends sound _ conf).mono gatewaySpec_monotone
        (fun _ w switched => ?_) fun _ _ kept => kept
      refine (commitOrRestore_ends (switched.restorable sound)
        (commitPoolExpansion_ends sound switched built tid expectedRevision state)).bind
          gatewaySpec_monotone (fun _ u published => ?_) fun e t failed => by
            rw [failed.1]
            exact failed.2
      rw [ends_bind, holding, ends_mapError]
      refine (removeBackup_ends published).mono gatewaySpec_monotone (fun _ t sound => ?_)
        fun _ _ kept => kept
      exact calmly_holding (only_call trivial) (fun _ => sound) fun _ => sound

theorem pauseFailed_ends (locals : ReplaceLocals) :
    Ends gatewaySpec (pauseFailed locals) v (fun _ t => t = v)
      fun e t => t = v ∧ e.2 = locals := by
  unfold pauseFailed
  refine calmly_holding (only_call trivial) (fun _ => ⟨rfl, rfl⟩) fun status => ?_
  dsimp only
  generalize PyText.strip status = text
  rw [ends_ite]
  refine ⟨fun _ => ?_, fun _ => ?_⟩
  · exact calmly_holding (only_call trivial) (fun _ => ⟨rfl, rfl⟩) fun _ => rfl
  · exact calmly_holding only_pipelineRaiseIf (fun _ => ⟨rfl, rfl⟩) fun _ => rfl

theorem copyToReplacement_calm (context : RuntimeContext) (slotNo : Nat)
    (replacement : Option Seat) : Only Calm (copyToReplacement context slotNo replacement) := by
  cases replacement with
  | none => exact only_pure
  | some seat => exact Only.bind only_checked fun _ => run_calm trivial

theorem replaceBody_ends (sound : Sound v) (cfg : Config) (tid : String) (slotNo : Nat)
    (reason : String) (expectedRevision : Int) :
    Ends gatewaySpec (replaceBody cfg tid slotNo reason expectedRevision) v (fun _ => Sound)
      fun e t => Handled e.2.remote t e.2.stagedBackup := by
  unfold replaceBody
  refine calmly_holding (only_call trivial) (fun _ => sound) fun _ => ?_
  refine calmly_holding (only_call trivial) (fun _ => sound) fun row => ?_
  refine calmly_holding (only_call trivial) (fun _ => sound) fun stored => ?_
  match row, stored with
  | none, _ => exact sound
  | some _, none => exact sound
  | some contest, some pool =>
    refine calmly_holding only_pipelineRaiseIf (fun _ => sound) fun _ => ?_
    refine calmly_holding (provisioning_only_calm (validateContestSnapshot_provisioning contest))
      (fun _ => sound) fun _ => ?_
    refine calmly_holding (only_call trivial) (fun _ => sound) fun nowMs => ?_
    generalize pool.replaceFailed slotNo reason nowMs true _ expectedRevision = replacing
    refine calmly_holding only_onPool (fun _ => sound) fun replaced => ?_
    rw [ends_ite]
    refine ⟨fun _ => sound, fun _ => ?_⟩
    refine calmly_holding (only_call trivial) (fun _ => sound) fun status => ?_
    refine calmly_holding only_pipelineRaiseIf (fun _ => sound) fun _ => ?_
    refine calmly_holding (only_call trivial) (fun _ => sound) fun reachable => ?_
    refine calmly_holding only_pipelineRaiseIf (fun _ => sound) fun _ => ?_
    rw [ends_bind, holding, ends_mapError]
    refine (poolRuntimeContext_ends cfg contest pool).mono gatewaySpec_monotone ?_
      fun _ _ same => same ▸ sound
    rintro context v ⟨rfl, listed, distinct⟩
    cases finding : findResource context.resources slotNo "故障座位连接资源不存在" with
    | error e => exact sound
    | ok failed =>
      obtain ⟨there, slot⟩ := findResource_ok finding
      subst slot
      change Ends gatewaySpec (pauseFailed _ >>= _) v _ _
      refine (pauseFailed_ends _).bind gatewaySpec_monotone ?_ fun e t stopped => by
        rw [stopped.1, stopped.2]
        exact sound
      rintro pausedByUs v rfl
      refine calmly_holding (copyToReplacement_calm context _ _) (fun _ => sound) fun _ => ?_
      cases building : poolGatewayConf (context.resources.filter (·.slotNo != failed.slotNo)) with
      | error e => exact sound
      | ok conf =>
        have built : conf.Perm (v.rows.filter (·.slotNo != failed.slotNo)) :=
          (poolGatewayConf_perm building).trans (listed.filter _)
        change Ends gatewaySpec (holding _ (stagePoolGateway _ conf) >>= _) v _ _
        rw [ends_bind, holding, ends_mapError]
        refine (stagePoolGateway_ends sound _ conf).mono gatewaySpec_monotone
          (fun _ w switched => ?_) fun _ _ kept => kept
        refine (commitOrRestore_ends (switched.restorable sound) (commitPoolReplacement_ends sound
          switched distinct (listed.subset there) built tid expectedRevision _)).bind
            gatewaySpec_monotone (fun bound u published => ?_) fun e t failed => by
              rw [failed.1]
              exact failed.2
        rw [ends_bind, holding, ends_mapError]
        refine (removeBackup_ends published).mono gatewaySpec_monotone (fun _ t sound => ?_)
          fun _ _ kept => kept
        refine calmly_holding (Only.quietly (run_calm trivial)) (fun _ => sound) fun _ => ?_
        rw [ends_bind, holding, ends_mapError]
        refine ((repairIsolatedPoolSlot_keeps cfg tid failed.slotNo _ contest).attempt t
          sound).mono gatewaySpec_monotone (fun rebuilt t sound => ?_) fun _ _ sound => sound
        exact calmly_holding (only_call trivial) (fun _ => sound) fun _ => sound

theorem growFailed_decides (error : Raised) (locals : GrowLocals)
    (handled : Handled locals.remote v locals.stagedBackup) :
    Ends gatewaySpec (growFailed error locals : Procedure α) v (fun _ => Decided)
      fun _ => Decided := by
  unfold growFailed
  refine (restoreStaged_ends handled).bind gatewaySpec_monotone (fun _ t decided => ?_)
    fun _ _ impossible => impossible.elim
  refine calmly (Only.onlyIf (Only.quietly (cleanupIncrementalSlots_calm _))) (fun _ => decided)
    fun _ => ?_
  exact calmly (reportReady_calm _) (fun _ => decided) fun _ => decided

theorem replaceFailed_decides (error : Raised) (locals : ReplaceLocals)
    (handled : Handled locals.remote v locals.stagedBackup) :
    Ends gatewaySpec (replaceFailed error locals : Procedure α) v (fun _ => Decided)
      fun _ => Decided := by
  unfold replaceFailed
  refine (restoreStaged_ends handled).bind gatewaySpec_monotone (fun _ t decided => ?_)
    fun _ _ impossible => impossible.elim
  refine calmly (Only.onlyIf (Only.quietly (run_calm trivial))) (fun _ => decided) fun _ => ?_
  exact calmly (reportReady_calm _) (fun _ => decided) fun _ => decided

theorem finally_decides {body : Procedure α}
    (decides : Ends gatewaySpec body v (fun _ => Decided) fun _ => Decided) :
    Ends gatewaySpec (body.andFinally do
      releaseDeploymentLock
      leave) v (fun _ => Decided) fun _ => Decided := by
  rw [ends_andFinally]
  exact decides.mono gatewaySpec_monotone (fun _ t decided => calm_keeps closing_calm t decided)
    fun _ t decided => calm_keeps closing_calm t decided

theorem growPool_decides (sound : Sound v) (cfg : Config) (tid : String)
    (mains spares expectedRevision : Int) :
    Ends gatewaySpec (growPool cfg tid mains spares expectedRevision) v (fun _ => Decided)
      fun _ => Decided := by
  unfold growPool
  refine calmly (only_call trivial) (fun _ => sound.decided) fun _ => finally_decides ?_
  rw [ends_orElse]
  exact (growBody_ends sound cfg tid mains spares expectedRevision).mono gatewaySpec_monotone
    (fun _ _ sound => sound.decided) fun e t handled => growFailed_decides e.1 e.2 handled

theorem replaceFailedSeat_decides (sound : Sound v) (cfg : Config) (tid : String) (slotNo : Nat)
    (reason : String) (expectedRevision : Int) (teacherApproved : Bool) :
    Ends gatewaySpec (replaceFailedSeat cfg tid slotNo reason expectedRevision teacherApproved) v
      (fun _ => Decided) fun _ => Decided := by
  unfold replaceFailedSeat
  rw [ends_ite]
  refine ⟨fun _ => sound.decided, fun _ => ?_⟩
  refine calmly (only_call trivial) (fun _ => sound.decided) fun _ => finally_decides ?_
  rw [ends_orElse]
  exact (replaceBody_ends sound cfg tid slotNo reason expectedRevision).mono gatewaySpec_monotone
    (fun _ _ sound => sound.decided) fun e t handled => replaceFailed_decides e.1 e.2 handled

theorem repairPoolCapacity_decides (sound : Sound v) (cfg : Config) (tid : String) (slotNo : Nat)
    (expectedRevision : Int) :
    Ends gatewaySpec (repairPoolCapacity cfg tid slotNo expectedRevision) v (fun _ => Decided)
      fun _ => Decided := by
  unfold repairPoolCapacity
  refine calmly (only_call trivial) (fun _ => sound.decided) fun _ => finally_decides ?_
  refine calmly (only_call trivial) (fun _ => sound.decided) fun _ => ?_
  refine calmly (only_call trivial) (fun _ => sound.decided) fun row => ?_
  cases row with
  | none => exact sound.decided
  | some contest =>
    refine calmly only_pipelineRaiseIf (fun _ => sound.decided) fun _ => ?_
    refine calmly (provisioning_only_calm (validateContestSnapshot_provisioning contest))
      (fun _ => sound.decided) fun _ => ?_
    refine calmly (only_call trivial) (fun _ => sound.decided) fun status => ?_
    refine calmly only_pipelineRaiseIf (fun _ => sound.decided) fun _ => ?_
    refine calmly (only_call trivial) (fun _ => sound.decided) fun reachable => ?_
    refine calmly only_pipelineRaiseIf (fun _ => sound.decided) fun _ => ?_
    refine (repairIsolatedPoolSlot_keeps cfg tid slotNo expectedRevision contest v sound).bind
      gatewaySpec_monotone (fun revision t sound => ?_) fun _ _ sound => sound.decided
    exact calmly (only_call trivial) (fun _ => sound.decided) fun _ => sound.decided

theorem operation_decides (sound : Sound v) (cfg : Config) (operation : SeatOperation) :
    Ends gatewaySpec (operation.procedure cfg) v (fun _ => Decided) fun _ => Decided := by
  cases operation with
  | growPool tid mains spares revision =>
    exact (growPool_decides sound cfg tid mains spares revision).bind gatewaySpec_monotone
      (fun _ _ decided => decided) fun _ _ decided => decided
  | replaceFailedSeat tid slotNo reason revision approved =>
    exact (replaceFailedSeat_decides sound cfg tid slotNo reason revision approved).bind
      gatewaySpec_monotone (fun _ _ decided => decided) fun _ _ decided => decided
  | repairPoolCapacity tid slotNo revision =>
    exact (repairPoolCapacity_decides sound cfg tid slotNo revision).bind gatewaySpec_monotone
      (fun _ _ decided => decided) fun _ _ decided => decided

/- After an operation, returned or raised, the gateway serves exactly the stored pairs if and
   only if the removal of its backup right after the commit did not raise. -/
theorem gateway_agrees_iff (cfg : Config) (operation : SeatOperation) (host : GatewayHost)
    (choices : Nat → GatewayChoice) (agrees : host.Agrees)
    (restored : (operation.procedure cfg).Obeys GatewayHost.respond RestoreSucceeds choices host) :
    ((operation.procedure cfg).exec GatewayHost.respond choices host).2.Agrees ↔
      (operation.procedure cfg).Obeys GatewayHost.respond RemovalSucceeds choices host := by
  have sound : Sound (gatewayView (host, True)) := ⟨agrees, trivial⟩
  have meets := exec_of_watching (ends_of_view watching_monotone gateway_refines
    (operation_decides sound cfg operation)) restored
  rw [true_and] at meets
  generalize (operation.procedure cfg).exec GatewayHost.respond choices host = ended
    at meets ⊢
  obtain ⟨result, after⟩ := ended
  cases result <;> exact meets

/- The pool of the two students behind a gateway that serves all four seats. -/
section Sample

def gatewayHost : GatewayHost :=
  ⟨TwoStudents.world, ⟨[1, 2, 3, 4].map TwoStudents.resource, fun _ => none, fun _ => none⟩, none⟩

def gatewayChoices (removalRaises : Bool) : Nat → GatewayChoice
  | 17 => { TwoStudents.choices false 17 with
      raises := if removalRaises then some (.external "ssh") else none }
  | n => { TwoStudents.choices false n with }

def replaceFirst : SeatOperation := .replaceFailedSeat TwoStudents.tid 1 "broken" 9 true

theorem removed_backup_agrees :
    ((replaceFirst.procedure TwoStudents.cfg).exec GatewayHost.respond (gatewayChoices false)
      gatewayHost).2.Agrees := by
  have run : (replaceFirst.procedure TwoStudents.cfg).Obeys GatewayHost.respond RestoreSucceeds
        (gatewayChoices false) gatewayHost ∧
      (replaceFirst.procedure TwoStudents.cfg).Obeys GatewayHost.respond RemovalSucceeds
        (gatewayChoices false) gatewayHost := by decide +kernel
  exact (gateway_agrees_iff TwoStudents.cfg replaceFirst gatewayHost (gatewayChoices false)
    (by decide +kernel) run.1).mpr run.2

/- The failed seat is reachable again although the student was moved. -/
theorem removal_fails_old_token_served :
    ¬ ∀ (cfg : Config) (operation : SeatOperation) (host : GatewayHost)
      (choices : Nat → GatewayChoice), host.Agrees →
      (operation.procedure cfg).Obeys GatewayHost.respond RestoreSucceeds choices host →
      ((operation.procedure cfg).exec GatewayHost.respond choices host).2.Agrees := by
  intro claim
  have run : (replaceFirst.procedure TwoStudents.cfg).Obeys GatewayHost.respond RestoreSucceeds
        (gatewayChoices true) gatewayHost ∧
      ¬ ((replaceFirst.procedure TwoStudents.cfg).exec GatewayHost.respond (gatewayChoices true)
        gatewayHost).2.Agrees := by decide +kernel
  exact run.2 (claim TwoStudents.cfg replaceFirst gatewayHost (gatewayChoices true)
    (by decide +kernel) run.1)

end Sample

end NoiContest.Pipeline
