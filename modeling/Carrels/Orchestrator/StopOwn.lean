/-
Whose protocon a stop terminates.

A stop takes the slot from the container's `network_ns`, a field that the creating request
fills as well.  `Grants` records which slot the latest start of each container got and
which container a slot in use was given to; `OwnInv` says that a running container holds
the slot it names.

A step other than a start can only take something away: `Eases` says that the containers
that still run had their slots before and have them still.
-/
import Carrels.Orchestrator.Objects
import Carrels.Orchestrator.Slots

namespace Carrels
namespace Orchestrator

open BitMask ByteMemory Monitor StepSystem

variable {M : Type}

/-! ## History -/

/-- The slot each container got from its latest start that got one, and the container each
slot was given to, until it is released. -/
structure Grants where
  latest : Nat → Option (BitVec 32) := fun _ => none
  holder : BitVec 32 → Option Nat := fun _ => none

/-- The container and the slot of an event in which `orchestrator_cri_start` succeeds. -/
def grantOf (cfg : Config) (s : State M) : Event M → Option (Nat × BitVec 32)
  | .request op request spawnOk =>
    if CriOp.ofNumber op = some .startContainer then
      (find s.containers request.id).bind fun i =>
        (orchestratorCriStart cfg spawnOk { markStarted s i with startAfterReply := none }
          ((markStarted s i).containers i).image
          ((markStarted s i).containers i).id).2.map fun pcId => (i, pcId)
    else none
  | _ => none

/-- The place of the container the event creates. -/
def createdAt (s : State M) : Event M → Option Nat
  | .request op _ _ =>
    if CriOp.ofNumber op = some .createContainer then allocate s.containers else none
  | _ => none

/-- A new container has got no slot yet. -/
def Grants.create (g : Grants) : Option Nat → Grants
  | none => g
  | some i => { g with latest := Function.update g.latest i none }

def Grants.grant (g : Grants) : Option (Nat × BitVec 32) → Grants
  | none => g
  | some (i, pcId) =>
    { latest := Function.update g.latest i (some pcId)
      holder := Function.update g.holder pcId (some i) }

/-- The slots whose bit is clear have been released. -/
def Grants.release (g : Grants) (slots : BitVec 32) : Grants :=
  { g with holder := fun b => if Has slots b.toNat then g.holder b else none }

theorem Grants.holder_release (g : Grants) (slots b : BitVec 32) :
    (g.release slots).holder b = if Has slots b.toNat then g.holder b else none := rfl

/-- One event, and what it adds to the history. -/
def stepGrants (cfg : Config) (port : Port M) (s : State M × Grants) (e : Event M) :
    Option (State M × Grants) :=
  (step cfg port s.1 e).map fun s' =>
    (s', ((s.2.create (createdAt s.1 e)).grant (grantOf cfg s.1 e)).release s'.criSlotsInUse)

/-! ## The statement -/

/-- A stop of any container that calls `orchestrator_cri_stop` does so for the slot of the
container's own latest start, which it still holds. -/
def StopsOwn (s : State M) (g : Grants) : Prop :=
  ∀ request i, find s.containers request = some i → (s.containers i).state = 1 →
    g.latest i = some (s.containers i).networkNs ∧
      g.holder (s.containers i).networkNs = some i

/-- What interleaves with the requests. -/
def CriOrDeploy (_ : State M × Grants) : Event M → Prop
  | .shell _ _ => False
  | _ => True

/-- A result that is taken as a failure names no slot in which a container runs that is not
starting. -/
def FailsStarting (cfg : Config) (port : Port M) (s : State M) : Prop :=
  s.deployPending = true → s.deployFromCri = true →
    ∀ r ∈ port.call s.monitor deployResultMessage, r.2.label ≠ .deployInProgress →
      ∀ q ∈ queryDeployed cfg port { s with monitor := r.1 } ((r.2.get 0).truncate 32) r.2.label,
        q.2 ≠ some true → ∀ i < criMaxObjects, s.RunningAt i ((r.2.get 0).truncate 32) →
          (s.containers i).reason = carrelsStarting

instance (s : State M) (i : Nat) (b : BitVec 32) : Decidable (s.RunningAt i b) :=
  inferInstanceAs (Decidable ((_ ∧ _ ∧ _) ∧ _))

instance (cfg : Config) (port : Port M) (s : State M) : Decidable (FailsStarting cfg port s) :=
  inferInstanceAs (Decidable (_ → _ → _))

/-- No container is created as `RUNNING`, and no failure hits a container that is not
starting. -/
def KeepsOwn (cfg : Config) (port : Port M) (s : State M × Grants) : Event M → Prop
  | .request op request _ =>
    CriOp.ofNumber op = some .createContainer → request.state ≠ 1
  | .notifiedMonitor => FailsStarting cfg port s.1
  | _ => True

instance (cfg : Config) (port : Port M) (s : State M × Grants) :
    (e : Event M) → Decidable (KeepsOwn cfg port s e)
  | .request _ _ _ => inferInstanceAs (Decidable (_ → _))
  | .notifiedMonitor => inferInstanceAs (Decidable (FailsStarting cfg port s.1))
  | .shell _ _ | .fsReply _ _ | .yield | .fsMounted | .imageProbed _ | .monitor _ =>
    inferInstanceAs (Decidable True)

/-! ## The invariant -/

structure OwnInv (cfg : Config) (s : State M) (g : Grants) : Prop where
  own : ∀ i, s.Running i → g.latest i = some (s.containers i).networkNs ∧
    g.holder (s.containers i).networkNs = some i
  holder : ∀ b i, g.holder b = some i → b.toNat < cfg.maxPorts ∧ Has s.criSlotsInUse b.toNat
  starting : s.deployFromCri = true → s.deployPending = true ∧ s.deployPcId.toNat < cfg.maxPorts ∧
    ∀ i, s.RunningAt i s.deployPcId → (s.containers i).reason = carrelsStarting

theorem two_ne_one : (2 : BitVec 32) ≠ 1 := by decide

/-- What still runs after the step had its slot before and has it still. -/
structure Eases (s s' : State M) : Prop where
  running : ∀ i, s'.Running i → s.Running i ∧
    (s'.containers i).networkNs = (s.containers i).networkNs ∧
    (Has s.criSlotsInUse (s.containers i).networkNs.toNat →
      Has s'.criSlotsInUse (s.containers i).networkNs.toNat)
  slots : ∀ b, Has s'.criSlotsInUse b → Has s.criSlotsInUse b
  cri : s'.deployFromCri = true → s.deployFromCri = true ∧ s'.deployPcId = s.deployPcId ∧
    (s.deployPending = true → s'.deployPending = true) ∧
    ∀ i, s'.Running i → (s'.containers i).reason = (s.containers i).reason

namespace Eases

variable {s s' s'' : State M}

theorem trans (h₁ : Eases s s') (h₂ : Eases s' s'') : Eases s s'' where
  running i hi := by
    obtain ⟨hi₁, hns₂, hbit₂⟩ := h₂.running i hi
    obtain ⟨hi₀, hns₁, hbit₁⟩ := h₁.running i hi₁
    rw [hns₁] at hbit₂
    exact ⟨hi₀, hns₂.trans hns₁, fun hbit => hbit₂ (hbit₁ hbit)⟩
  slots b hb := h₁.slots b (h₂.slots b hb)
  cri hf := by
    obtain ⟨hf₁, hpc₂, hpending₂, hreason₂⟩ := h₂.cri hf
    obtain ⟨hf₀, hpc₁, hpending₁, hreason₁⟩ := h₁.cri hf₁
    refine ⟨hf₀, hpc₂.trans hpc₁, fun hp => hpending₂ (hpending₁ hp), fun i hi => ?_⟩
    exact (hreason₂ i hi).trans (hreason₁ i (h₂.running i hi).1)

theorem congr (hc : s'.containers = s.containers) (hslots : s'.criSlotsInUse = s.criSlotsInUse)
    (hcri : s'.deployFromCri = true → s.deployFromCri = true ∧ s'.deployPcId = s.deployPcId ∧
      (s.deployPending = true → s'.deployPending = true)) : Eases s s' where
  running i hi := by
    rw [State.Running, hc] at hi
    exact ⟨hi, by rw [hc], fun hbit => hslots ▸ hbit⟩
  slots b hb := hslots ▸ hb
  cri hf := by
    obtain ⟨hf, hpc, hpending⟩ := hcri hf
    exact ⟨hf, hpc, hpending, fun i _ => by rw [hc]⟩

theorem refl (s : State M) : Eases s s := congr rfl rfl fun hf => ⟨hf, rfl, id⟩

/-- One container becomes one that does not run, or one that keeps its slot and its reason. -/
theorem setContainer {i : Nat} {o : CriObject}
    (ho : o.present = true → o.state = 1 → (s.containers i).present = true ∧
      (s.containers i).state = 1 ∧ o.networkNs = (s.containers i).networkNs ∧
      (s'.deployFromCri = true → o.reason = (s.containers i).reason))
    (hc : s'.containers = Function.update s.containers i o)
    (hslots : s'.criSlotsInUse = s.criSlotsInUse)
    (hcri : s'.deployFromCri = true → s.deployFromCri = true ∧ s'.deployPcId = s.deployPcId ∧
      (s.deployPending = true → s'.deployPending = true)) : Eases s s' := by
  have hself : s'.containers i = o := by rw [hc, Function.update_self]
  have hne : ∀ j, j ≠ i → s'.containers j = s.containers j := fun j hj => by
    rw [hc, Function.update_of_ne hj]
  have hold : ∀ j, s'.Running j → s.Running j ∧
      (s'.containers j).networkNs = (s.containers j).networkNs ∧
      (s'.deployFromCri = true → (s'.containers j).reason = (s.containers j).reason) := by
    intro j hj
    by_cases hji : j = i
    · subst hji
      rw [State.Running, hself] at hj
      obtain ⟨hp, hstate, hns, hreason⟩ := ho hj.2.1 hj.2.2
      rw [hself]
      exact ⟨⟨hj.1, hp, hstate⟩, hns, hreason⟩
    · rw [State.Running, hne j hji] at hj
      rw [hne j hji]
      exact ⟨hj, rfl, fun _ => rfl⟩
  refine ⟨fun j hj => ⟨(hold j hj).1, (hold j hj).2.1, fun hbit => hslots ▸ hbit⟩,
    fun b hb => hslots ▸ hb, fun hf => ?_⟩
  obtain ⟨hfrom, hpc, hpending⟩ := hcri hf
  exact ⟨hfrom, hpc, hpending, fun j hj => (hold j hj).2.2 hf⟩

theorem setIdle (s : State M) {i : Nat} {o : CriObject} (ho : o.present = true → o.state ≠ 1) :
    Eases s (s.setContainer i o) :=
  setContainer (i := i) (o := o) (fun hp hstate => absurd hstate (ho hp)) rfl rfl
    fun hf => ⟨hf, rfl, id⟩

theorem tick (s : State M) : Eases s s.tick := by
  refine .congr ?_ ?_ ?_
  all_goals dsimp only [State.tick]
  exact fun hf => ⟨hf, rfl, id⟩

theorem nextObject (s : State M) : Eases s s.nextObject := by
  refine .congr ?_ ?_ ?_
  all_goals dsimp only [State.nextObject]
  exact fun hf => ⟨hf, rfl, id⟩

theorem clearSlot {b : BitVec 32} (hidle : ∀ i, ¬ s.RunningAt i b) : Eases s (s.clearSlot b) := by
  have hbit : ∀ c, Has (s.clearSlot b).criSlotsInUse c → Has s.criSlotsInUse c := fun c hc => by
    rw [State.clearSlot, Has, BitVec.getLsbD_and] at hc
    exact (Bool.and_eq_true_iff.mp hc).1
  refine ⟨fun i hi => ⟨hi, rfl, fun hused => ?_⟩, hbit, fun hf => ⟨hf, rfl, id, fun _ _ => rfl⟩⟩
  have hne : b.toNat ≠ (s.containers i).networkNs.toNat := fun heq =>
    hidle i ⟨hi, (BitVec.eq_of_toNat_eq heq).symm⟩
  by_cases hlt : b.toNat < 32
  · rw [State.clearSlot, State.slotBit, has_and_not_bit hlt]
    exact ⟨hused, hne⟩
  · have hzero : State.slotBit b = 0 := BitVec.shiftLeft_eq_zero (Nat.le_of_not_lt hlt)
    rw [State.clearSlot, hzero]
    change Has (s.criSlotsInUse &&& BitVec.allOnes 32) _
    rwa [BitVec.and_allOnes]

theorem endCri (s : State M) : Eases s { s with deployFromCri := false } :=
  congr rfl rfl fun hf => nomatch hf

/-- A deployment is settled: a container that fails was starting, and nothing else runs in
its slot. -/
theorem settleContainer {pcId : BitVec 32} {failed : Bool}
    (hstarting : failed = true → ∀ i, s.RunningAt i pcId →
      (s.containers i).reason = carrelsStarting)
    (hunique : ∀ i j, s.RunningAt i pcId → s.RunningAt j pcId → i = j) :
    Eases s (settleContainer s pcId failed) := by
  cases failed with
  | true =>
    rw [settleContainer_failed]
    refine trans ?_ (endCri _)
    obtain ⟨hsame, hnone⟩ | ⟨i, hi, hawaits, hset⟩ := criRuntimeDeployComplete_cases s pcId true
    · rw [hsame]
      refine clearSlot fun j hj => hnone j hj.1.1 (awaitsDeploy_iff.mpr ?_)
      exact ⟨hj.1.2.1, hj.1.2.2, hj.2, hstarting rfl j hj⟩
    · rw [hset, if_pos rfl]
      have hi' := SlotInv.runningAt_of_awaitsDeploy hi hawaits
      generalize ho : ({ s.containers i with
        reason := carrelsStartFailed, state := 2, exitCode := 1
        finishedAt := s.timestamp + 1 } : CriObject) = o
      have hstate : o.state ≠ 1 := by
        rw [← ho]
        exact two_ne_one
      have hstopped : Eases s (s.tick.setContainer i o) :=
        (tick s).trans (setIdle _ fun _ => hstate)
      refine hstopped.trans (clearSlot fun j hj => ?_)
      by_cases hji : j = i
      · subst hji
        refine hstate ?_
        rw [← hj.1.2.2, State.setContainer_self]
      · refine hji (hunique j i ?_ hi')
        rw [State.RunningAt, State.Running, State.setContainer_of_ne _ _ hji] at hj
        exact hj
  | false =>
    rw [settleContainer_succeeded]
    obtain ⟨hsame, -⟩ | ⟨i, hi, hawaits, hset⟩ := criRuntimeDeployComplete_cases s pcId false
    · rw [hsame]
      exact endCri s
    · rw [hset, if_neg Bool.false_ne_true]
      generalize ho : ({ s.containers i with reason := carrelsRunning } : CriObject) = o
      refine setContainer (i := i) (o := o) (fun hp hstate => ?_) rfl rfl
        fun hf => absurd hf Bool.false_ne_true
      rw [← ho] at hp hstate ⊢
      exact ⟨hp, hstate, rfl, fun hf => absurd hf Bool.false_ne_true⟩

end Eases

namespace OwnInv

variable {cfg : Config} {s s' : State M} {g : Grants}

theorem eases (h : OwnInv cfg s g) (hs : Eases s s') : OwnInv cfg s' (g.release s'.criSlotsInUse) where
  own i hi := by
    obtain ⟨hi₀, hns, hbit⟩ := hs.running i hi
    obtain ⟨hlatest, hholder⟩ := h.own i hi₀
    rw [hns]
    refine ⟨hlatest, ?_⟩
    rw [Grants.holder_release, if_pos (hbit (h.holder _ i hholder).2)]
    exact hholder
  holder b i hb := by
    rw [Grants.holder_release] at hb
    split at hb
    case isTrue hbit => exact ⟨(h.holder b i hb).1, hbit⟩
    case isFalse => cases hb
  starting hf := by
    obtain ⟨hf, hpc, hpending, hreason⟩ := hs.cri hf
    obtain ⟨hp, hlt, hstarting⟩ := h.starting hf
    rw [hpc]
    refine ⟨hpending hp, hlt, fun i hi => ?_⟩
    obtain ⟨hi₀, hns, -⟩ := hs.running i hi.1
    rw [hreason i hi.1]
    exact hstarting i ⟨hi₀, hns.symm.trans hi.2⟩

theorem unique (h : OwnInv cfg s g) {b : BitVec 32} {i j : Nat} (hi : s.RunningAt i b)
    (hj : s.RunningAt j b) : i = j := by
  have hib := (h.own i hi.1).2
  have hjb := (h.own j hj.1).2
  rw [hi.2] at hib
  rw [hj.2] at hjb
  exact Option.some.inj (hib.symm.trans hjb)

/-! ### Steps that take something away -/

theorem abandonDeploy (h : OwnInv cfg s g) : Eases s (abandonDeploy s) := by
  rw [Orchestrator.abandonDeploy]
  cases hfrom : s.deployFromCri with
  | true =>
    rw [if_pos rfl]
    refine (Eases.settleContainer (fun _ => (h.starting hfrom).2.2) fun i j hi hj =>
      h.unique hi hj).trans (.congr rfl rfl fun hf => ?_)
    obtain ⟨containers, timestamp, slots, hframe⟩ := settleContainer_frame s s.deployPcId true
    rw [hframe] at hf
    cases hf
  | false =>
    rw [if_neg Bool.false_ne_true]
    exact .congr rfl rfl fun hf => absurd (hfrom.symm.trans hf) Bool.false_ne_true

variable {port : Port M}

theorem finishLoader (h : OwnInv cfg s g) {k : Nat} {l : Loader} {err : Bool}
    (hs : finishLoader port s k l err = some s') : Eases s s' := by
  have hended : Eases s (s.setPhase k .ended) := .congr rfl rfl fun hf => ⟨hf, rfl, id⟩
  cases err with
  | true =>
    obtain rfl := Option.some.inj hs
    split
    · exact hended.trans (h.eases hended).abandonDeploy
    · exact hended
  | false =>
    obtain ⟨m, reply, -, ⟨-, -, rfl⟩ | ⟨-, rfl⟩⟩ := handOver_cases hs
    · have hissued : Eases s { recordIssue (s.setPhase k .ended) l with monitor := m } :=
        hended.trans (.congr rfl rfl fun hf => ⟨hf, rfl, id⟩)
      exact hissued.trans (h.eases hissued).abandonDeploy
    · exact hended.trans (.congr rfl rfl fun hf => ⟨hf, rfl, id⟩)

theorem resumeLoader (h : OwnInv cfg s g) {k : Nat} {c : PicoVfs.Completion}
    (hs : resumeLoader port s k c = some s') : Eases s s' := by
  obtain ⟨l, r, -, -, hs⟩ := resumeLoader_cases hs
  have hmem : Eases s { s with mem := ByteMemory.writes s.mem (r.resume c).1 } :=
    .congr rfl rfl fun hf => ⟨hf, rfl, id⟩
  obtain ⟨r', -, rfl⟩ | ⟨size, err, -, hs⟩ := hs
  · exact hmem.trans (.congr rfl rfl fun hf => ⟨hf, rfl, id⟩)
  · exact hmem.trans ((h.eases hmem).finishLoader hs)

theorem notifiedMonitor (h : OwnInv cfg s g) (hfails : FailsStarting cfg port s)
    (hs : notifiedMonitor cfg port s = some s') : Eases s s' := by
  rw [Orchestrator.notifiedMonitor] at hs
  split at hs
  case isFalse =>
    obtain rfl := Option.some.inj hs
    exact .refl s
  case isTrue hpending =>
    obtain ⟨m, reply, hcall, hs⟩ := printDeployResult_cases hs
    have hm : Eases s { s with monitor := m } := .congr rfl rfl fun hf => ⟨hf, rfl, id⟩
    obtain ⟨-, rfl⟩ | ⟨hlabel, hs⟩ := hs
    · exact hm
    · obtain ⟨s₁, hs₁, rfl⟩ := Option.map_eq_some_iff.mp hs
      split at hs₁
      case isTrue hfrom =>
        obtain ⟨⟨t, running⟩, hquery, rfl⟩ := Option.map_eq_some_iff.mp hs₁
        obtain ⟨m', -, ht⟩ := queryDeployed_frame hquery
        have ht' : Eases s t := by
          rw [ht]
          exact .congr rfl rfl fun hf => ⟨hf, rfl, id⟩
        have hcontainers : t.containers = s.containers := by rw [ht]
        have hat : ∀ i b, t.RunningAt i b ↔ s.RunningAt i b := fun i b => by
          rw [State.RunningAt, State.Running, hcontainers]
          rfl
        have hsettled : Eases t (Orchestrator.settleContainer t ((reply.get 0).truncate 32)
            (running != some true)) := by
          refine .settleContainer (fun hfailed i hi => ?_) fun i j hi hj =>
            h.unique ((hat i _).mp hi) ((hat j _).mp hj)
          rw [hcontainers]
          exact hfails hpending hfrom (m, reply) hcall hlabel (t, running) hquery
            (by simpa using hfailed) i hi.1.1 ((hat i _).mp hi)
        refine (ht'.trans hsettled).trans (.congr rfl rfl fun hf => ?_)
        obtain ⟨containers, timestamp, slots, hframe⟩ := settleContainer_frame t
          ((reply.get 0).truncate 32) (running != some true)
        dsimp only at hf
        rw [hframe] at hf
        cases hf
      case isFalse hfrom =>
        obtain rfl := Option.some.inj hs₁
        exact hm.trans (.congr rfl rfl fun hf => absurd hf hfrom)

theorem stopContainer (h : OwnInv cfg s g) {request response : CriObject} {result : CriResult}
    (hs : stopContainer cfg port s request = some (s', response, result)) : Eases s s' := by
  have hstopped : ∀ (t : State M) i, Eases t (stoppedContainer t i) := fun t i =>
    (Eases.tick t).trans (.setIdle _ fun _ => two_ne_one)
  obtain ⟨-, rfl⟩ | ⟨i, hi, ⟨-, -, rfl⟩ | ⟨hstate, ⟨-, m, -, rfl⟩ | ⟨-, -, m, -, rfl⟩⟩⟩ :=
    stopContainer_cases hs
  · exact .refl _
  · exact hstopped s i
  · exact .congr rfl rfl fun hf => ⟨hf, rfl, id⟩
  · obtain ⟨hlt, hpresent, -⟩ := find_spec hi
    have hm : Eases s { s with monitor := m } := .congr rfl rfl fun hf => ⟨hf, rfl, id⟩
    have hclear : Eases (stoppedContainer { s with monitor := m } i)
        ((stoppedContainer { s with monitor := m } i).clearSlot (s.containers i).networkNs) := by
      refine .clearSlot fun j hj => ?_
      by_cases hji : j = i
      · subst hji
        have hself := hj.1.2.2
        rw [stoppedContainer, State.setContainer_self] at hself
        exact absurd hself two_ne_one
      · rw [State.RunningAt, State.Running, stoppedContainer,
          State.setContainer_of_ne _ _ hji] at hj
        exact hji (h.unique hj ⟨⟨hlt, hpresent, hstate⟩, rfl⟩)
    exact (hm.trans (hstopped _ i)).trans hclear

theorem removeContainer (s : State M) (request : CriObject) :
    Eases s (removeContainer s request).1 := by
  rw [Orchestrator.removeContainer]
  split
  · exact .refl s
  · exact .setIdle s fun hp => absurd hp Bool.false_ne_true

theorem createContainer {request : CriObject} (hstate : request.state ≠ 1) :
    Eases s (createContainer s request).1 := by
  rw [Orchestrator.createContainer]
  split
  · exact .refl s
  · next i _ =>
      have hset : ∀ o : CriObject, o.state ≠ 1 → Eases s (s.nextObject.tick.setContainer i o) :=
        fun o ho => ((Eases.nextObject s).trans (.tick _)).trans (.setIdle _ fun _ => ho)
      refine hset _ ?_
      exact hstate

/-! ### Starts -/

theorem claim (h : OwnInv cfg s g) {i : Nat} {pcId : BitVec 32} {o : CriObject}
    (hlt : pcId.toNat < cfg.maxPorts) (hfree : ¬ Has s.criSlotsInUse pcId.toNat)
    (ho : o.networkNs = pcId ∧ o.reason = carrelsStarting)
    (hc : s'.containers = Function.update s.containers i o)
    (hslots : s'.criSlotsInUse = s.criSlotsInUse ||| State.slotBit pcId)
    (hpc : s'.deployPcId = pcId) (hpending : s'.deployPending = true) :
    OwnInv cfg s' ((g.grant (some (i, pcId))).release s'.criSlotsInUse) := by
  have hself : s'.containers i = o := by rw [hc, Function.update_self]
  have hne : ∀ j, j ≠ i → s'.containers j = s.containers j := fun j hj => by
    rw [hc, Function.update_of_ne hj]
  have hbit : ∀ b, Has s'.criSlotsInUse b ↔ Has s.criSlotsInUse b ∨ pcId.toNat = b := fun b => by
    rw [hslots, State.slotBit, has_or_bit (Nat.lt_of_lt_of_le hlt cfg.maxPorts_le)]
  have hkeep : ∀ j, j ≠ i → s'.Running j → g.latest j = some (s.containers j).networkNs ∧
      g.holder (s.containers j).networkNs = some j ∧ (s.containers j).networkNs ≠ pcId := by
    intro j hj hrun
    rw [State.Running, hne j hj] at hrun
    obtain ⟨hlatest, hholder⟩ := h.own j hrun
    exact ⟨hlatest, hholder, fun heq => hfree (heq ▸ (h.holder _ j hholder).2)⟩
  refine ⟨fun j hj => ?_, fun b j hb => ?_, fun _ => ⟨hpending, hpc ▸ hlt, fun j hj => ?_⟩⟩
  · rw [Grants.holder_release, Grants.release]
    dsimp only [Grants.grant]
    by_cases hji : j = i
    · subst hji
      rw [hself, ho.1, if_pos ((hbit _).mpr (Or.inr rfl)), Function.update_self,
        Function.update_self]
      exact ⟨rfl, rfl⟩
    · obtain ⟨hlatest, hholder, hslot⟩ := hkeep j hji hj
      rw [hne j hji, if_pos ((hbit _).mpr (Or.inl (h.holder _ j hholder).2)),
        Function.update_of_ne hji, Function.update_of_ne hslot]
      exact ⟨hlatest, hholder⟩
  · rw [Grants.holder_release] at hb
    dsimp only [Grants.grant] at hb
    split at hb
    case isFalse => cases hb
    case isTrue hused =>
      by_cases hslot : b = pcId
      · exact ⟨hslot ▸ hlt, hused⟩
      · rw [Function.update_of_ne hslot] at hb
        exact ⟨(h.holder b j hb).1, hused⟩
  · by_cases hji : j = i
    · rw [hji, hself]
      exact ho.2
    · have hslot := (hkeep j hji hj.1).2.2
      have hns := hj.2
      rw [hne j hji, hpc] at hns
      exact absurd hns hslot

/-- A start marks the container, and then gives it a free slot or fails it. -/
theorem startContainer (h : OwnInv cfg s g) (spawnOk : Bool) (i : Nat) :
    OwnInv cfg (startAfterReply cfg spawnOk (markStarted s i) i)
      ((g.grant ((orchestratorCriStart cfg spawnOk { markStarted s i with startAfterReply := none }
          ((markStarted s i).containers i).image
          ((markStarted s i).containers i).id).2.map fun pcId => (i, pcId))).release
        (startAfterReply cfg spawnOk (markStarted s i) i).criSlotsInUse) := by
  obtain ⟨o, hmarked, hreason⟩ : ∃ o, (markStarted s i).containers =
      Function.update s.containers i o ∧ o.reason = carrelsStarting := ⟨_, rfl, rfl⟩
  obtain ⟨hmarkedSlots, hfrom, hpcId, hwaiting⟩ :
      (markStarted s i).criSlotsInUse = s.criSlotsInUse ∧
      (markStarted s i).deployFromCri = s.deployFromCri ∧
      (markStarted s i).deployPcId = s.deployPcId ∧
      (markStarted s i).deployPending = s.deployPending := by
    obtain ⟨containers, timestamp, after, hframe⟩ := markStarted_frame s i
    rw [hframe]
    exact ⟨rfl, rfl, rfl, rfl⟩
  obtain ⟨t, ⟨hs, heq⟩ | ⟨pcId, hs, heq⟩⟩ :=
    startAfterReply_cases cfg spawnOk (markStarted s i) i
  · obtain ⟨hc, hslots, hcri⟩ := SlotInv.orchestratorCriStart_failed hs
    dsimp only at hc hslots hcri
    rw [hmarked] at hc
    rw [hmarkedSlots] at hslots
    rw [hfrom, hpcId, hwaiting] at hcri
    obtain ⟨o', hstate, hfailed⟩ : ∃ o', o'.state = 2 ∧
        startFailed t i = (t.setContainer i o').tick := ⟨_, rfl, rfl⟩
    have hidle : o'.state ≠ 1 := by
      rw [hstate]
      exact two_ne_one
    rw [hs, heq, hfailed]
    -- The container that was marked stops running; the rest is as before the start.
    have hset : Eases s (t.setContainer i o') := by
      refine .setContainer (i := i) (o := o') (fun _ hrun => absurd hrun hidle) ?_ hslots
        fun hf => ?_
      · rw [State.setContainer, hc, Function.update_idem]
      · obtain ⟨hf, hpc, hpending⟩ := hcri hf
        exact ⟨hf, hpc, fun hp => hpending.trans hp⟩
    exact h.eases (hset.trans (.tick _))
  · obtain ⟨hlt, hfree, hc, hslots, hpc, hpending⟩ := SlotInv.orchestratorCriStart_claimed hs
    dsimp only at hc hfree hslots
    rw [hmarked] at hc
    rw [hmarkedSlots] at hfree hslots
    have hself : t.containers i = o := by rw [hc, Function.update_self]
    rw [hs, heq]
    refine h.claim hlt hfree ?_ ?_ hslots hpc hpending
      (o := { t.containers i with networkNs := pcId })
    · rw [hself]
      exact ⟨rfl, hreason⟩
    · rw [State.setContainer, hc, Function.update_idem]

/-! ### Every event -/

theorem create (h : OwnInv cfg s g) {i : Nat} (hi : ¬ s.Running i) :
    OwnInv cfg s (g.create (some i)) where
  own j hj := by
    obtain ⟨hlatest, hholder⟩ := h.own j hj
    have hji : j ≠ i := fun hji => hi (hji ▸ hj)
    refine ⟨?_, hholder⟩
    dsimp only [Grants.create]
    rw [Function.update_of_ne hji, hlatest]
  holder := h.holder
  starting := h.starting

theorem shellExecute (h : OwnInv cfg s g) {spawnOk : Bool} {argv : List (List UInt8)}
    (hs : shellExecute cfg port s spawnOk argv = some s') : Eases s s' := by
  obtain ⟨-, rfl⟩ | ⟨-, rfl⟩ | ⟨m, -, rfl⟩ := shellExecute_cases hs
  · rw [cmdStart]
    split
    · exact .refl s
    · dsimp only
      split <;> exact .congr rfl rfl fun hf => ⟨hf, rfl, id⟩
  · rw [cmdDeploy]
    split
    · exact .refl s
    · split
      · exact .refl s
      · next hpending =>
        -- The CRI waits for no deployment while none is pending.
        have hidle : s.deployFromCri ≠ true := fun hf => hpending (h.starting hf).1
        dsimp only
        split
        · rename_i args _ _
          obtain ⟨loaders, hyield⟩ := yield_frame (State.spawnLoader
            { s with
              fnameBuf := args.file, deployPcId := args.pcId, deployPeerMask := args.peerMask
              deployPeersAll := args.peersAll, deployPending := true }
            { targeted := true, file := args.file, pcId := args.pcId, peerMask := args.peerMask
              peersAll := args.peersAll })
          rw [hyield]
          exact .congr rfl rfl fun hf => absurd hf hidle
        · exact .congr rfl rfl fun hf => absurd hf hidle
  · exact .congr rfl rfl fun hf => ⟨hf, rfl, id⟩

/-- A request that neither creates nor starts a container. -/
theorem processRequest_eases (h : OwnInv cfg s g) {spawnOk : Bool} {op : BitVec 16}
    {request response : CriObject} {result : CriResult}
    (hcreate : CriOp.ofNumber op ≠ some .createContainer)
    (hstart : CriOp.ofNumber op ≠ some .startContainer)
    (hs : processRequest cfg port spawnOk s op request = some (s', response, result)) :
    Eases s s' := by
  replace hs := processRequest_other hstart hs
  by_cases hchanges : ∃ c, CriOp.ofNumber op = some c ∧ c.changesContainer = true
  · obtain ⟨c, hc, hchanges⟩ := hchanges
    rw [dispatch, hc] at hs
    cases c
    case createContainer => exact absurd hc hcreate
    case startContainer => exact absurd hc hstart
    case stopContainer => exact h.stopContainer hs
    case removeContainer =>
      have hs' := removeContainer s request
      rwa [Option.some.inj hs] at hs'
    all_goals cases hchanges
  · obtain ⟨sandboxes, images, nextId, timestamp, rfl⟩ := dispatch_frame hs fun c hc =>
      Bool.eq_false_iff.mpr fun htrue => hchanges ⟨c, hc, htrue⟩
    exact .congr rfl rfl fun hf => ⟨hf, rfl, id⟩

theorem processRequest (h : OwnInv cfg s g) {spawnOk : Bool} {op : BitVec 16}
    {request response : CriObject} {result : CriResult}
    (hstate : CriOp.ofNumber op = some .createContainer → request.state ≠ 1)
    (hs : processRequest cfg port spawnOk s op request = some (s', response, result)) :
    OwnInv cfg s' (((g.create (createdAt s (.request op request spawnOk))).grant
      (grantOf cfg s (.request op request spawnOk))).release s'.criSlotsInUse) := by
  dsimp only [createdAt, grantOf]
  by_cases hstart : CriOp.ofNumber op = some .startContainer
  · have hcreate : CriOp.ofNumber op ≠ some .createContainer := by
      rw [hstart]
      nofun
    rw [if_neg hcreate, if_pos hstart]
    obtain ⟨hnone, rfl⟩ | ⟨i, hi, rfl⟩ := processRequest_start hstart hs
    · rw [hnone]
      exact h.eases (.refl _)
    · rw [hi]
      exact h.startContainer spawnOk i
  · rw [if_neg hstart]
    by_cases hcreate : CriOp.ofNumber op = some .createContainer
    · rw [if_pos hcreate]
      replace hs := processRequest_other hstart hs
      rw [dispatch, hcreate] at hs
      have heases := createContainer (s := s) (hstate hcreate)
      have hs' := Option.some.inj hs
      rw [hs'] at heases
      cases hplace : allocate s.containers with
      | none => exact h.eases heases
      | some i =>
        refine create (h.eases heases) fun hrun => ?_
        have hnot := (heases.running i hrun).1.2.1
        rw [(allocate_spec hplace).2] at hnot
        cases hnot
    · rw [if_neg hcreate]
      exact h.eases (h.processRequest_eases hcreate hstart hs)

theorem step {e : Event M} {g' : Grants} (h : OwnInv cfg s g) (hok : KeepsOwn cfg port (s, g) e)
    (hs : stepGrants cfg port (s, g) e = some (s', g')) : OwnInv cfg s' g' := by
  obtain ⟨s₁, hevent, heq⟩ := Option.map_eq_some_iff.mp hs
  obtain ⟨rfl, rfl⟩ := Prod.mk.inj heq
  clear hs heq
  cases e with
  | shell argv spawnOk => exact h.eases (h.shellExecute hevent)
  | request op request spawnOk =>
    obtain ⟨⟨s₂, response, result⟩, hreq, rfl⟩ := Option.map_eq_some_iff.mp hevent
    exact h.processRequest hok hreq
  | fsReply k c => exact h.eases (h.resumeLoader hevent)
  | notifiedMonitor => exact h.eases (h.notifiedMonitor hok hevent)
  | yield =>
    obtain ⟨loaders, hyield⟩ := yield_frame s
    obtain rfl := Option.some.inj hevent
    refine h.eases ?_
    rw [hyield]
    exact .congr rfl rfl fun hf => ⟨hf, rfl, id⟩
  | fsMounted | imageProbed | monitor =>
    obtain rfl := Option.some.inj hevent
    exact h.eases (.congr rfl rfl fun hf => ⟨hf, rfl, id⟩)

theorem init (cfg : Config) (m : M) : OwnInv cfg ({ monitor := m } : State M) {} where
  own _ hi := nomatch hi.2.1
  holder _ _ hb := nomatch hb
  starting hf := nomatch hf

theorem stops (h : OwnInv cfg s g) : StopsOwn s g := by
  intro x i hi hstate
  obtain ⟨hlt, hpresent, -⟩ := find_spec hi
  exact h.own i ⟨hlt, hpresent, hstate⟩

end OwnInv

/-! ## Every run -/

/-- In a run in which no container is created as `RUNNING` and no failure hits a container
that is not starting, every stop is of the container's own protocon. -/
theorem stopsOwn (cfg : Config) (port : Port M) (m : M) {s : State M} {g : Grants}
    (h : Reaches (stepGrants cfg port) (KeepsOwn cfg port) ({ monitor := m }, {}) (s, g)) :
    StopsOwn s g := by
  have hinv : OwnInv cfg s g := h.invariant (I := fun t : State M × Grants => OwnInv cfg t.1 t.2)
    (OwnInv.init cfg m) fun _ _ _ hinv hok hs => hinv.step hok hs
  exact hinv.stops

def grantedState : State Unit × Grants :=
  (run (stepGrants onePort readyPort) ({ monitor := () }, {}) startedRun).get (by decide +kernel)

theorem run_grantedState :
    run (stepGrants onePort readyPort) ({ monitor := () }, {}) startedRun = some grantedState :=
  (Option.some_get _).symm

theorem startedRun_keeps : RunMeets (stepGrants onePort readyPort) (KeepsOwn onePort readyPort)
    ({ monitor := () }, {}) startedRun := by decide +kernel

/-- A container that was started may be stopped. -/
theorem stopsOwn_grantedState :
    StopsOwn grantedState.1 grantedState.2 ∧ grantedState.2.latest 0 = some 0 :=
  ⟨stopsOwn onePort readyPort () (reaches_of_run startedRun_keeps run_grantedState),
    by decide +kernel⟩

/-- A container is created that claims to run in slot 0. -/
def claimedRun : List (Event Unit) :=
  [.request CriOp.createContainer.number { state := 1 } true]

def claimedState : State Unit × Grants :=
  (run (stepGrants onePort readyPort) ({ monitor := () }, {}) claimedRun).get (by decide +kernel)

theorem run_claimedState :
    run (stepGrants onePort readyPort) ({ monitor := () }, {}) claimedRun = some claimedState :=
  (Option.some_get _).symm

/-- The slot that a stop is for can come from the client. -/
theorem not_stopsOwn :
    ¬ ∀ (cfg : Config) (port : Port Unit) (s : State Unit) (g : Grants),
      Reaches (stepGrants cfg port) CriOrDeploy ({ monitor := () }, {}) (s, g) →
        StopsOwn s g := by
  intro h
  have hreach : Reaches (stepGrants onePort readyPort) CriOrDeploy ({ monitor := () }, {})
      claimedState :=
    reaches_of_run (runMeets_of_forall claimedRun
      (fun e he _ => by rw [List.mem_singleton.mp he]; trivial) _) run_claimedState
  have hstops := h onePort readyPort claimedState.1 claimedState.2 hreach
    (bytes "carrels-container-00000001") 0 (by decide +kernel) (by decide +kernel)
  have hnone : claimedState.2.latest 0 = none := by decide +kernel
  rw [hnone] at hstops
  cases hstops.1

end Orchestrator
end Carrels
