/-
The states of a container.

A container is created, may start to run and exits.  Its state is written at a start, at a stop,
when a start fails after its reply, and when a deployment completes.  `lifeStep` takes these in
any order, with anything happening to the rest of the orchestrator in between; the events of the
orchestrator are runs of it.

A start asks nothing about the state of its container.  So the states move forward as long as no
start names a container that has exited, or one whose protocon is deployed.
-/
import Carrels.Orchestrator.Slots
import Carrels.Orchestrator.Objects

namespace Carrels
namespace Orchestrator

open ByteMemory Monitor StepSystem

variable {M : Type}

/-! ## Events of a container's life -/

inductive LifeEvent (M : Type)
  /-- A CRI request; whether a cothread can be spawned. -/
  | request (op : BitVec 16) (request : CriObject) (spawnOk : Bool)
  /-- `cri_runtime_deploy_complete` -/
  | complete (pcId : BitVec 32) (failed : Bool)
  /-- Anything that leaves the containers alone. -/
  | other (t : State M)

def lifeStep (cfg : Config) (port : Port M) (s : State M) : LifeEvent M → Option (State M)
  | .request op request spawnOk => (processRequest cfg port spawnOk s op request).map (·.1)
  | .complete pcId failed => some (criRuntimeDeployComplete s pcId failed)
  | .other t => some { t with containers := s.containers }

/-- `CREATE_CONTAINER` comes with state 0, as the shim sends it. -/
def CreatesInZero (_ : State M) : LifeEvent M → Prop
  | .request op request _ => CriOp.ofNumber op = some .createContainer → request.state = 0
  | _ => True

/-- The container runs, and its protocon has been deployed. -/
def CriObject.Deployed (o : CriObject) : Prop := o.state = 1 ∧ o.reason = carrelsRunning

instance (o : CriObject) : Decidable o.Deployed := inferInstanceAs (Decidable (_ ∧ _))

/-- No start names a container that has exited or one whose protocon is deployed. -/
def StartsAnew (s : State M) : LifeEvent M → Prop
  | .request op request _ =>
    CriOp.ofNumber op = some .startContainer →
      ∀ i ∈ find s.containers request.id,
        (s.containers i).state ≠ 2 ∧ ¬ (s.containers i).Deployed
  | _ => True

instance (s : State M) : (e : LifeEvent M) → Decidable (CreatesInZero s e)
  | .request _ _ _ => inferInstanceAs (Decidable (_ → _))
  | .complete _ _ | .other _ => inferInstanceAs (Decidable True)

instance (s : State M) : (e : LifeEvent M) → Decidable (StartsAnew s e)
  | .request _ _ _ => inferInstanceAs (Decidable (_ → _))
  | .complete _ _ | .other _ => inferInstanceAs (Decidable True)

/-! ## Moving forward -/

/-- `CREATED` (0) becomes `RUNNING` (1) or `EXITED` (2), and `RUNNING` becomes `EXITED`. -/
inductive Forward : BitVec 32 → BitVec 32 → Prop
  | stays (a : BitVec 32) : Forward a a
  | starts : Forward 0 1
  | fails : Forward 0 2
  | exits : Forward 1 2

/-- The event is a stop of the container with this id. -/
def LifeEvent.Stops (e : LifeEvent M) (id : List UInt8) : Prop :=
  ∃ op request spawnOk, e = .request op request spawnOk ∧
    CriOp.ofNumber op = some .stopContainer ∧ request.id = id

/-- What an event may do with the object in one slot. -/
structure SlotForward (port : Port M) (s : State M) (e : LifeEvent M) (s' : State M)
    (o o' : CriObject) : Prop where
  created : o.present = false → o'.present = true → o'.state = 0
  forward : o.present = true → o'.present = true → o'.id = o.id ∧ Forward o.state o'.state
  exits : o.present = true → o.Deployed → o'.present = true → o'.state = 2 →
    e.Stops o.id ∧ StoppedBy port o.networkNs s.monitor s'.monitor

def MovesForward (port : Port M) (s : State M) (e : LifeEvent M) (s' : State M) : Prop :=
  ∀ i, SlotForward port s e s' (s.containers i) (s'.containers i)

/-- The states there are. -/
def StateRange (s : State M) : Prop :=
  ∀ i, (s.containers i).present = true →
    (s.containers i).state = 0 ∨ (s.containers i).state = 1 ∨ (s.containers i).state = 2

section

variable {port : Port M} {s s' : State M} {e : LifeEvent M}

theorem StateRange.next (h : StateRange s) (hmoves : MovesForward port s e s') :
    StateRange s' := by
  intro i hpresent
  cases hbefore : (s.containers i).present with
  | false => exact .inl ((hmoves i).created hbefore hpresent)
  | true =>
    have hrange := h i hbefore
    obtain ⟨-, hforward⟩ := (hmoves i).forward hbefore hpresent
    generalize (s.containers i).state = a at hrange hforward
    generalize (s'.containers i).state = b at hforward ⊢
    cases hforward with
    | stays => exact hrange
    | starts => exact .inr (.inl rfl)
    | fails | exits => exact .inr (.inr rfl)

theorem SlotForward.refl (o : CriObject) : SlotForward port s e s' o o where
  created hfalse htrue := absurd (hfalse.symm.trans htrue) Bool.false_ne_true
  forward _ _ := ⟨rfl, .stays _⟩
  exits _ hdeployed _ hexited := absurd (hdeployed.1.symm.trans hexited) (by decide)

theorem SlotForward.cleared (o : CriObject) : SlotForward port s e s' o {} where
  created _ htrue := absurd htrue Bool.false_ne_true
  forward _ htrue := absurd htrue Bool.false_ne_true
  exits _ _ htrue := absurd htrue Bool.false_ne_true

theorem SlotForward.new {o o' : CriObject} (hfree : o.present = false) (hstate : o'.state = 0) :
    SlotForward port s e s' o o' where
  created _ _ := hstate
  forward htrue := absurd (hfree.symm.trans htrue) Bool.false_ne_true
  exits htrue := absurd (hfree.symm.trans htrue) Bool.false_ne_true

theorem SlotForward.undeployed {o o' : CriObject} (hpresent : o.present = true)
    (hid : o'.id = o.id) (hforward : Forward o.state o'.state) (hnot : ¬ o.Deployed) :
    SlotForward port s e s' o o' where
  created hfalse := absurd (hfalse.symm.trans hpresent) Bool.false_ne_true
  forward _ _ := ⟨hid, hforward⟩
  exits _ hdeployed := absurd hdeployed hnot

theorem MovesForward.same (h : s'.containers = s.containers) : MovesForward port s e s' := by
  intro i
  rw [h]
  exact .refl _

theorem MovesForward.update {i : Nat} {o : CriObject}
    (h : s'.containers = Function.update s.containers i o)
    (hi : SlotForward port s e s' (s.containers i) o) : MovesForward port s e s' := by
  intro j
  rw [h]
  by_cases hj : j = i
  · subst hj
    rwa [Function.update_self]
  · rw [Function.update_of_ne hj]
    exact .refl _

/-! ## The events -/

theorem complete_forward (pcId : BitVec 32) (failed : Bool) :
    MovesForward port s e (criRuntimeDeployComplete s pcId failed) := by
  obtain ⟨hsame, -⟩ | ⟨i, -, hawaits, hset⟩ := criRuntimeDeployComplete_cases s pcId failed
  · rw [hsame]
    exact .same rfl
  · obtain ⟨hpresent, hstate, -, hreason⟩ := awaitsDeploy_iff.mp hawaits
    have hnot : ¬ (s.containers i).Deployed := fun hdeployed =>
      absurd (hreason.symm.trans hdeployed.2) (by decide)
    rw [hset]
    cases failed with
    | true =>
      refine .update (i := i) rfl (.undeployed hpresent rfl ?_ hnot)
      rw [hstate]
      exact .exits
    | false => exact .update (i := i) rfl (.undeployed hpresent rfl (.stays _) hnot)

variable {cfg : Config} {request response : CriObject} {result : CriResult} {op : BitVec 16}
  {spawnOk : Bool}

theorem createContainer_forward (hzero : request.state = 0)
    (h : createContainer s request = (s', response, result)) : MovesForward port s e s' := by
  rw [createContainer] at h
  cases hi : allocate s.containers with
  | none =>
    rw [hi] at h
    obtain ⟨rfl, -⟩ := Prod.mk.inj h
    exact .same rfl
  | some i =>
    rw [hi] at h
    obtain ⟨rfl, -⟩ := Prod.mk.inj h
    exact .update (i := i) rfl (.new (allocate_spec hi).2 hzero)

theorem removeContainer_forward (h : removeContainer s request = (s', response, result)) :
    MovesForward port s e s' := by
  rw [removeContainer] at h
  split at h
  case h_1 =>
    obtain ⟨rfl, -⟩ := Prod.mk.inj h
    exact .same rfl
  case h_2 i _ =>
    obtain ⟨rfl, -⟩ := Prod.mk.inj h
    exact .update (i := i) rfl (.cleared _)

theorem start_containers (cfg : Config) (spawnOk : Bool) (s : State M) (i : Nat) :
    ∃ o : CriObject, (startAfterReply cfg spawnOk (markStarted s i) i).containers =
        Function.update s.containers i o ∧
      o.present = (s.containers i).present ∧ o.id = (s.containers i).id ∧
      (o.state = 1 ∨ o.state = 2) := by
  obtain ⟨t, ⟨hs, heq⟩ | ⟨pcId, hs, heq⟩⟩ := startAfterReply_cases cfg spawnOk (markStarted s i) i
  all_goals
    have ht : t.containers = (markStarted s i).containers :=
      (orchestratorCriStart_sameCri hs).containers
    have hupdate : ∀ o, Function.update t.containers i o = Function.update s.containers i o :=
      fun o => by rw [ht, markStarted, State.setContainer, State.tick, Function.update_idem]
    have hself : t.containers i = { s.containers i with
        state := 1, startedAt := s.timestamp + 1, reason := carrelsStarting } := by
      rw [ht]
      exact Function.update_self ..
    have hpresent : (t.containers i).present = (s.containers i).present := by rw [hself]
    have hid : (t.containers i).id = (s.containers i).id := by rw [hself]
    have hstate : (t.containers i).state = 1 := by rw [hself]
    rw [heq]
  · exact ⟨_, hupdate _, hpresent, hid, .inr rfl⟩
  · exact ⟨_, hupdate _, hpresent, hid, .inl hstate⟩

/-- A container that is created, or runs without its protocon, runs or fails. -/
theorem start_forward {i : Nat} (hi : find s.containers request.id = some i)
    (hrange : StateRange s) (hstate : (s.containers i).state ≠ 2)
    (hnot : ¬ (s.containers i).Deployed) :
    MovesForward port s e (startAfterReply cfg spawnOk (markStarted s i) i) := by
  obtain ⟨-, hpresent, -⟩ := find_spec hi
  obtain ⟨o, hupdate, -, hid, hwritten⟩ := start_containers cfg spawnOk s i
  refine .update hupdate (.undeployed hpresent hid ?_ hnot)
  obtain hzero | hone | htwo := hrange i hpresent
  · obtain h | h := hwritten
    · rw [hzero, h]
      exact .starts
    · rw [hzero, h]
      exact .fails
  · obtain h | h := hwritten
    · rw [hone, h]
      exact .stays 1
    · rw [hone, h]
      exact .exits
  · exact absurd htwo hstate

/-- A stop of a running container follows the stop of its protocon. -/
theorem stopContainer_forward (hop : CriOp.ofNumber op = some .stopContainer)
    (hrange : StateRange s) (h : stopContainer cfg port s request = some (s', response, result)) :
    MovesForward port s (.request op request spawnOk) s' := by
  obtain ⟨-, rfl⟩ | ⟨i, hi, ⟨-, hstate, rfl⟩ | ⟨hstate, ⟨-, m, -, rfl⟩ | ⟨-, -, m, hm, rfl⟩⟩⟩ :=
    stopContainer_cases h
  · exact .same rfl
  · obtain ⟨-, hpresent, -⟩ := find_spec hi
    refine .update (i := i) rfl (.undeployed hpresent rfl ?_ fun hdeployed => hstate hdeployed.1)
    show Forward (s.containers i).state 2
    obtain h | h | h := hrange i hpresent
    · rw [h]
      exact .fails
    · exact absurd h hstate
    · rw [h]
      exact .stays 2
  · exact .same rfl
  · obtain ⟨-, hpresent, hid⟩ := find_spec hi
    refine .update (i := i) rfl
      ⟨fun hfalse => absurd (hfalse.symm.trans hpresent) Bool.false_ne_true,
        fun _ _ => ⟨rfl, ?_⟩, fun _ _ _ _ => ⟨⟨op, request, spawnOk, rfl, hop, hid.symm⟩, hm⟩⟩
    show Forward (s.containers i).state 2
    rw [hstate]
    exact .exits

theorem processRequest_forward (hrange : StateRange s)
    (hzero : CreatesInZero s (.request op request spawnOk))
    (hanew : StartsAnew s (.request op request spawnOk))
    (h : processRequest cfg port spawnOk s op request = some (s', response, result)) :
    MovesForward port s (.request op request spawnOk) s' := by
  by_cases hstart : CriOp.ofNumber op = some .startContainer
  · obtain ⟨-, rfl⟩ | ⟨i, hi, rfl⟩ := processRequest_start hstart h
    · exact .same rfl
    · obtain ⟨hstate, hnot⟩ := hanew hstart i hi
      exact start_forward hi hrange hstate hnot
  · replace h := processRequest_other hstart h
    by_cases hchanges : ∃ c, CriOp.ofNumber op = some c ∧ c.changesContainer = true
    · obtain ⟨c, hc, hchanges⟩ := hchanges
      rw [dispatch, hc] at h
      cases c
      case startContainer => exact absurd hc hstart
      case createContainer => exact createContainer_forward (hzero hc) (Option.some.inj h)
      case stopContainer => exact stopContainer_forward hc hrange h
      case removeContainer => exact removeContainer_forward (Option.some.inj h)
      all_goals cases hchanges
    · obtain ⟨sandboxes, images, nextId, timestamp, rfl⟩ := dispatch_frame h fun c hc =>
        Bool.eq_false_iff.mpr fun htrue => hchanges ⟨c, hc, htrue⟩
      exact .same rfl

theorem lifeStep_forward (hrange : StateRange s) (hzero : CreatesInZero s e)
    (hanew : StartsAnew s e) (h : lifeStep cfg port s e = some s') : MovesForward port s e s' := by
  cases e with
  | request op request spawnOk =>
    obtain ⟨⟨t, response, result⟩, hreq, rfl⟩ := Option.map_eq_some_iff.mp h
    exact processRequest_forward hrange hzero hanew hreq
  | complete pcId failed =>
    obtain rfl := Option.some.inj h
    exact complete_forward pcId failed
  | other t =>
    obtain rfl := Option.some.inj h
    exact .same rfl

end

/-! ## Every run -/

/-- The events of an orderly run. -/
def Orderly (s : State M) (e : LifeEvent M) : Prop := CreatesInZero s e ∧ StartsAnew s e

instance (s : State M) (e : LifeEvent M) : Decidable (Orderly s e) :=
  inferInstanceAs (Decidable (_ ∧ _))

section

variable {cfg : Config} {port : Port M} {s₀ s s' : State M}

theorem StateRange.of_reaches (h₀ : ∀ i, (s₀.containers i).present = false)
    (h : Reaches (lifeStep cfg port) Orderly s₀ s) : StateRange s := by
  apply h.invariant
  · intro i hpresent
    exact absurd ((h₀ i).symm.trans hpresent) Bool.false_ne_true
  · intro s e s' hrange hok hs
    exact hrange.next (lifeStep_forward hrange hok.1 hok.2 hs)

/-- A container that has exited and is not removed stays so. -/
theorem exited_of_reaches {i : Nat} (hrange : StateRange s)
    (hexited : (s.containers i).present = true ∧ (s.containers i).state = 2)
    (h : Reaches (lifeStep cfg port)
      (fun s e => Orderly s e ∧ (s.containers i).present = true) s s')
    (hpresent : (s'.containers i).present = true) : (s'.containers i).state = 2 := by
  suffices hinv : StateRange s' ∧
      ((s'.containers i).present = true → (s'.containers i).state = 2) from hinv.2 hpresent
  apply h.invariant
  · exact ⟨hrange, fun _ => hexited.2⟩
  · rintro s e s' ⟨hrange, hstate⟩ ⟨hok, hbefore⟩ hs
    have hmoves := lifeStep_forward hrange hok.1 hok.2 hs
    refine ⟨hrange.next hmoves, fun hafter => ?_⟩
    obtain ⟨-, hforward⟩ := (hmoves i).forward hbefore hafter
    rw [hstate hbefore] at hforward
    generalize (s'.containers i).state = b at hforward
    cases hforward
    rfl

end

/-- What a run does to the containers: each event from a state it reaches moves them forward, and
a container that has exited stays so until it is removed. -/
structure MovesOn (cfg : Config) (port : Port M) (ok : State M → LifeEvent M → Prop)
    (s : State M) : Prop where
  forward : ∀ e s', ok s e → lifeStep cfg port s e = some s' → MovesForward port s e s'
  exited : ∀ i, (s.containers i).present = true → (s.containers i).state = 2 →
    ∀ s', Reaches (lifeStep cfg port) (fun s e => ok s e ∧ (s.containers i).present = true) s s' →
      (s'.containers i).present = true → (s'.containers i).state = 2

/-- Containers move forward in every run whose starts name no container that has exited and none
whose protocon is deployed. -/
theorem containersMoveForward (cfg : Config) (port : Port M) {s₀ s : State M}
    (h₀ : ∀ i, (s₀.containers i).present = false)
    (h : Reaches (lifeStep cfg port) Orderly s₀ s) : MovesOn cfg port Orderly s := by
  have hrange := StateRange.of_reaches h₀ h
  constructor
  · intro e s' hok hs
    exact lifeStep_forward hrange hok.1 hok.2 hs
  · intro i hpresent hstate s' hreach hpresent'
    exact exited_of_reaches hrange ⟨hpresent, hstate⟩ hreach hpresent'

/-! ## The orchestrator -/

/-- The events of the orchestrator whose requests are orderly. -/
def OrderlyEvent (s : State M) : Event M → Prop
  | .request op request spawnOk => Orderly s (.request op request spawnOk)
  | _ => True

instance (s : State M) : (e : Event M) → Decidable (OrderlyEvent s e)
  | .request op request spawnOk =>
    inferInstanceAs (Decidable (Orderly s (.request op request spawnOk)))
  | .shell _ _ | .notifiedMonitor | .fsReply _ _ | .yield | .fsMounted | .imageProbed _
  | .monitor _ => inferInstanceAs (Decidable True)

section

variable {cfg : Config} {port : Port M} {s₀ s s' : State M}

/-- The rest of the orchestrator moves. -/
theorem lifeRun_other (h : s'.containers = s.containers)
    (hreach : Reaches (lifeStep cfg port) Orderly s₀ s) :
    Reaches (lifeStep cfg port) Orderly s₀ s' := by
  refine hreach.tail (e := .other s') ⟨trivial, trivial⟩ ?_
  rw [lifeStep, ← h]

theorem Settles.lifeRun (h : Settles s s') : Reaches (lifeStep cfg port) Orderly s s' := by
  cases h with
  | same h => exact lifeRun_other h.containers .refl
  | completed t pcId failed ht h =>
    have hbefore : Reaches (lifeStep cfg port) Orderly s t := lifeRun_other ht.containers .refl
    apply lifeRun_other h.containers
    exact hbefore.tail (e := .complete pcId failed) ⟨trivial, trivial⟩ rfl

/-- A run of the orchestrator is a run of its containers' lives. -/
theorem lifeRun_of_reaches (h : Reaches (step cfg port) OrderlyEvent s₀ s) :
    Reaches (lifeStep cfg port) Orderly s₀ s := by
  induction h with
  | refl => exact .refl
  | @tail s s' e _ hok hs ih =>
    cases e with
    | request op request spawnOk => exact ih.tail hok hs
    | shell | fsReply | notifiedMonitor | yield | fsMounted | imageProbed | monitor =>
      exact ih.trans (step_settles hs nofun).lifeRun

end

theorem startedRun_orderly :
    RunMeets (step onePort readyPort) OrderlyEvent { monitor := () } startedRun := by
  decide +kernel

theorem containersMoveForward_startedState :
    MovesOn onePort readyPort Orderly startedState ∧ (startedState.containers 0).Deployed := by
  have hreach : Reaches (lifeStep onePort readyPort) Orderly { monitor := () } startedState :=
    lifeRun_of_reaches (reaches_of_run startedRun_orderly (Option.some_get _).symm)
  exact ⟨containersMoveForward onePort readyPort (fun _ => rfl) hreach, by decide +kernel⟩

/-! ## Starts without a check -/

/-- A start of the first container. -/
def startFirst : LifeEvent Unit := .request CriOp.startContainer.number firstContainer true

/-- The image is there, and a container is created and stopped. -/
def exitedRun : List (LifeEvent Unit) :=
  [.other { monitor := (), fsInit := true, criCHelloAvailable := true },
    .request CriOp.createContainer.number helloContainer true,
    .request CriOp.stopContainer.number firstContainer true]

def exitedState : State Unit :=
  (run (lifeStep onePort readyPort) { monitor := () } exitedRun).get (by decide +kernel)

def restartedState : State Unit :=
  (lifeStep onePort readyPort exitedState startFirst).get (by decide +kernel)

theorem exitedRun_meets :
    RunMeets (lifeStep onePort readyPort) CreatesInZero { monitor := () } exitedRun := by
  decide +kernel

/-- A container that has exited runs again when it is started; and one whose protocon is deployed
exits without a stop when it is started and there is no slot for it. -/
theorem not_containersMoveForward :
    (¬ ∀ (cfg : Config) (port : Port Unit) (s₀ s : State Unit),
      (∀ i, (s₀.containers i).present = false) →
        Reaches (lifeStep cfg port) CreatesInZero s₀ s → MovesOn cfg port CreatesInZero s) ∧
    ∃ s', lifeStep onePort readyPort startedState startFirst = some s' ∧
      (startedState.containers 0).Deployed ∧ (s'.containers 0).present = true ∧
      (s'.containers 0).state = 2 := by
  constructor
  · intro h
    have hreach : Reaches (lifeStep onePort readyPort) CreatesInZero { monitor := () }
        exitedState :=
      reaches_of_run exitedRun_meets (Option.some_get _).symm
    have hmoves := (h onePort readyPort _ _ (fun _ => rfl) hreach).forward startFirst
      restartedState (by decide +kernel) (Option.some_get _).symm
    have hbefore : (exitedState.containers 0).state = 2 := by decide +kernel
    have hafter : (restartedState.containers 0).state = 1 := by decide +kernel
    obtain ⟨-, hforward⟩ := (hmoves 0).forward (by decide +kernel) (by decide +kernel)
    rw [hbefore, hafter] at hforward
    cases hforward
  · refine ⟨(lifeStep onePort readyPort startedState startFirst).get (by decide +kernel), ?_⟩
    refine ⟨(Option.some_get _).symm, ?_, ?_, ?_⟩
    all_goals decide +kernel

end Orchestrator
end Carrels
