/-
CRI slot accounting.

The bitmap of slots and the table of containers live in two files, and about eight paths
update one or both.  `SlotInv` says that they agree in every state: running containers
have different slots, each in use, and a slot in use has a running container.  Every
path is one of three changes: it keeps the running containers, releases a slot together
with its container, or claims a free slot for a container that was not running.

A start and a removal ask nothing about the state of the container, so they keep the
accounting for containers that are not running only.
-/
import Carrels.Orchestrator.Step

namespace Carrels
namespace Orchestrator

open BitMask ByteMemory Monitor StepSystem

variable {M : Type}

/-! ## The statement -/

/-- Container `i` is present and `RUNNING`. -/
def State.Running (s : State M) (i : Nat) : Prop :=
  i < criMaxObjects ∧ (s.containers i).present = true ∧ (s.containers i).state = 1

/-- Container `i` is `RUNNING` in slot `b`. -/
def State.RunningAt (s : State M) (i : Nat) (b : BitVec 32) : Prop :=
  s.Running i ∧ (s.containers i).networkNs = b

/-- A slot is in use exactly if one container runs in it, and no two containers run in
one slot. -/
def SlotsAccounted (cfg : Config) (s : State M) : Prop :=
  (∀ b < cfg.maxPorts, Has s.criSlotsInUse b ↔ ∃! i, s.RunningAt i (BitVec.ofNat 32 b)) ∧
    ∀ i j, s.Running i → s.Running j →
      (s.containers i).networkNs = (s.containers j).networkNs → i = j

/-- The result answers the deployment that is pending: what the monitor replies names its
slot, if it is a result at all. -/
def AnswersPending (port : Port M) (s : State M) : Prop :=
  s.deployPending = true → ∀ r ∈ port.call s.monitor deployResultMessage,
    r.2.label ≠ .deployInProgress → (r.2.get 0).truncate 32 = s.deployPcId

instance (port : Port M) (s : State M) : Decidable (AnswersPending port s) :=
  inferInstanceAs (Decidable (_ → _))

/-- The events of the CRI: requests, with containers created as the shim creates them,
the loaders, and results that answer the pending deployment. -/
def CriEvent (port : Port M) (s : State M) : Event M → Prop
  | .shell _ _ => False
  | .request op request _ =>
    CriOp.ofNumber op = some .createContainer → request.state = 0 ∧ request.networkNs = 0
  | .notifiedMonitor => AnswersPending port s
  | _ => True

instance (port : Port M) (s : State M) : (e : Event M) → Decidable (CriEvent port s e)
  | .shell _ _ => inferInstanceAs (Decidable False)
  | .request _ _ _ => inferInstanceAs (Decidable (_ → _))
  | .notifiedMonitor => inferInstanceAs (Decidable (AnswersPending port s))
  | .fsReply _ _ | .yield | .fsMounted | .imageProbed _ | .monitor _ =>
    inferInstanceAs (Decidable True)

/-- No start and no removal names a container that is `RUNNING`. -/
def NotOnRunning (s : State M) : Event M → Prop
  | .request op request _ =>
    CriOp.ofNumber op = some .startContainer ∨ CriOp.ofNumber op = some .removeContainer →
      ∀ i ∈ find s.containers request.id, (s.containers i).state ≠ 1
  | _ => True

instance (s : State M) : (e : Event M) → Decidable (NotOnRunning s e)
  | .request _ _ _ => inferInstanceAs (Decidable (_ → _))
  | .shell _ _ | .notifiedMonitor | .fsReply _ _ | .yield | .fsMounted | .imageProbed _
  | .monitor _ => inferInstanceAs (Decidable True)

/-! ## The invariant -/

structure SlotInv (cfg : Config) (s : State M) : Prop where
  distinct : ∀ i j, s.Running i → s.Running j →
    (s.containers i).networkNs = (s.containers j).networkNs → i = j
  used : ∀ i, s.Running i → (s.containers i).networkNs.toNat < cfg.maxPorts ∧
    Has s.criSlotsInUse (s.containers i).networkNs.toNat
  owned : ∀ b : BitVec 32, b.toNat < cfg.maxPorts → Has s.criSlotsInUse b.toNat →
    ∃ i, s.RunningAt i b
  starting : s.deployFromCri = true → s.deployPcId.toNat < cfg.maxPorts ∧
    ∀ i, s.RunningAt i s.deployPcId → (s.containers i).reason = carrelsStarting

theorem toNat_slot {cfg : Config} {slot : Nat} (h : slot < cfg.maxPorts) :
    (BitVec.ofNat 32 slot).toNat = slot := by
  have := cfg.maxPorts_le
  rw [BitVec.toNat_ofNat]
  omega

theorem SlotInv.accounted {cfg : Config} {s : State M} (h : SlotInv cfg s) :
    SlotsAccounted cfg s := by
  refine ⟨fun b hb => ⟨fun hbit => ?_, ?_⟩, h.distinct⟩
  · have hof := toNat_slot hb
    obtain ⟨i, hi⟩ := h.owned (BitVec.ofNat 32 b) (by rwa [hof]) (by rwa [hof])
    exact ⟨i, hi, fun j hj => h.distinct j i hj.1 hi.1 (hj.2.trans hi.2.symm)⟩
  · rintro ⟨i, ⟨hi, hns⟩, -⟩
    have hbit := (h.used i hi).2
    rwa [hns, toNat_slot hb] at hbit

namespace SlotInv

variable {cfg : Config} {s s' : State M}

theorem lt_of_bit {b : BitVec 32} (hb : b.toNat < cfg.maxPorts) : b.toNat < 32 :=
  Nat.lt_of_lt_of_le hb cfg.maxPorts_le

theorem same (h : SlotInv cfg s) (hrun : ∀ i, s'.Running i ↔ s.Running i)
    (hns : ∀ i, s.Running i → (s'.containers i).networkNs = (s.containers i).networkNs)
    (hslots : s'.criSlotsInUse = s.criSlotsInUse)
    (hcri : s'.deployFromCri = true → s.deployFromCri = true ∧ s'.deployPcId = s.deployPcId ∧
      ∀ i, s.Running i → (s'.containers i).reason = (s.containers i).reason) :
    SlotInv cfg s' where
  distinct i j hi hj hij := by
    rw [hrun] at hi hj
    rw [hns i hi, hns j hj] at hij
    exact h.distinct i j hi hj hij
  used i hi := by
    rw [hrun] at hi
    rw [hns i hi, hslots]
    exact h.used i hi
  owned b hb hbit := by
    rw [hslots] at hbit
    obtain ⟨i, hi, hib⟩ := h.owned b hb hbit
    exact ⟨i, (hrun i).mpr hi, (hns i hi).trans hib⟩
  starting hfrom := by
    obtain ⟨hfrom, hpc, hreason⟩ := hcri hfrom
    rw [hpc]
    refine ⟨(h.starting hfrom).1, fun i hi => ?_⟩
    have hi' := (hrun i).mp hi.1
    rw [hreason i hi']
    exact (h.starting hfrom).2 i ⟨hi', (hns i hi').symm.trans hi.2⟩

theorem congr (h : SlotInv cfg s) (hc : s'.containers = s.containers)
    (hslots : s'.criSlotsInUse = s.criSlotsInUse)
    (hcri : s'.deployFromCri = true → s.deployFromCri = true ∧ s'.deployPcId = s.deployPcId) :
    SlotInv cfg s' := by
  refine h.same (fun i => ?_) (fun i _ => by rw [hc]) hslots fun hfrom =>
    ⟨(hcri hfrom).1, (hcri hfrom).2, fun i _ => by rw [hc]⟩
  rw [State.Running, State.Running, hc]

theorem release (h : SlotInv cfg s) {b : BitVec 32} (hb : b.toNat < cfg.maxPorts)
    (hrun : ∀ i, s'.Running i ↔ s.Running i ∧ (s.containers i).networkNs ≠ b)
    (hsame : ∀ i, s'.Running i → s'.containers i = s.containers i)
    (hslots : s'.criSlotsInUse = s.criSlotsInUse &&& ~~~State.slotBit b)
    (hcri : s'.deployFromCri = true → s.deployFromCri = true ∧ s'.deployPcId = s.deployPcId) :
    SlotInv cfg s' where
  distinct i j hi hj hij := by
    rw [hsame i hi, hsame j hj] at hij
    exact h.distinct i j ((hrun i).mp hi).1 ((hrun j).mp hj).1 hij
  used i hi := by
    obtain ⟨hi', hne⟩ := (hrun i).mp hi
    obtain ⟨hlt, hbit⟩ := h.used i hi'
    rw [hsame i hi, hslots, State.slotBit, has_and_not_bit (lt_of_bit hb)]
    exact ⟨hlt, hbit, fun hbi => hne (BitVec.eq_of_toNat_eq hbi.symm)⟩
  owned c hc hbit := by
    rw [hslots, State.slotBit, has_and_not_bit (lt_of_bit hb)] at hbit
    obtain ⟨i, hi, hic⟩ := h.owned c hc hbit.1
    have hi' : s'.Running i := (hrun i).mpr ⟨hi, fun hib => hbit.2 (by rw [← hib, hic])⟩
    exact ⟨i, hi', by rw [hsame i hi', hic]⟩
  starting hfrom := by
    obtain ⟨hfrom, hpc⟩ := hcri hfrom
    rw [hpc]
    refine ⟨(h.starting hfrom).1, fun i hi => ?_⟩
    have hns := hi.2
    rw [hsame i hi.1] at hns ⊢
    exact (h.starting hfrom).2 i ⟨((hrun i).mp hi.1).1, hns⟩

theorem claim (h : SlotInv cfg s) {b : BitVec 32} {c : Nat} (hb : b.toNat < cfg.maxPorts)
    (hfree : ¬ Has s.criSlotsInUse b.toNat) (hc : ¬ s.Running c) (hc' : s'.Running c)
    (hnew : (s'.containers c).networkNs = b ∧ (s'.containers c).reason = carrelsStarting)
    (hsame : ∀ i, i ≠ c → s'.containers i = s.containers i)
    (hslots : s'.criSlotsInUse = s.criSlotsInUse ||| State.slotBit b)
    (hpc : s'.deployPcId = b) : SlotInv cfg s' := by
  have hrun : ∀ i, i ≠ c → (s'.Running i ↔ s.Running i) := fun i hi => by
    rw [State.Running, State.Running, hsame i hi]
  have hother : ∀ i, i ≠ c → s'.Running i → (s'.containers i).networkNs ≠ b := by
    intro i hi hr hns
    rw [hsame i hi] at hns
    exact hfree (hns ▸ (h.used i ((hrun i hi).mp hr)).2)
  refine ⟨fun i j hi hj hij => ?_, fun i hi => ?_, fun d hd hbit => ?_, fun _ => ?_⟩
  · by_cases hic : i = c
    · by_cases hjc : j = c
      · rw [hic, hjc]
      · exact absurd (hij.symm.trans (hic ▸ hnew.1)) (hother j hjc hj)
    · by_cases hjc : j = c
      · exact absurd (hij.trans (hjc ▸ hnew.1)) (hother i hic hi)
      · rw [hsame i hic, hsame j hjc] at hij
        exact h.distinct i j ((hrun i hic).mp hi) ((hrun j hjc).mp hj) hij
  · rw [hslots, State.slotBit, has_or_bit (lt_of_bit hb)]
    by_cases hic : i = c
    · rw [hic, hnew.1]
      exact ⟨hb, Or.inr rfl⟩
    · rw [hsame i hic]
      obtain ⟨hlt, hbit⟩ := h.used i ((hrun i hic).mp hi)
      exact ⟨hlt, Or.inl hbit⟩
  · rw [hslots, State.slotBit, has_or_bit (lt_of_bit hb)] at hbit
    rcases hbit with hbit | hbit
    · obtain ⟨i, hi, hid⟩ := h.owned d hd hbit
      have hic : i ≠ c := fun hic => hc (hic ▸ hi)
      exact ⟨i, (hrun i hic).mpr hi, by rw [hsame i hic, hid]⟩
    · exact ⟨c, hc', hnew.1.trans (BitVec.eq_of_toNat_eq hbit)⟩
  · rw [hpc]
    refine ⟨hb, fun i hi => ?_⟩
    by_cases hic : i = c
    · rw [hic]
      exact hnew.2
    · exact absurd hi.2 (hother i hic hi.1)

/-- One container becomes one that does not run. -/
theorem running_of_update {i : Nat} {o : CriObject} (ho : ¬ (o.present = true ∧ o.state = 1))
    (hcontainers : s'.containers = Function.update s.containers i o) (j : Nat) :
    s'.Running j ↔ s.Running j ∧ j ≠ i := by
  rw [State.Running, State.Running, hcontainers]
  by_cases hj : j = i
  · rw [hj, Function.update_self]
    exact iff_of_false (fun hr => ho hr.2) fun hr => hr.2 rfl
  · rw [Function.update_of_ne hj, and_iff_left hj]

theorem setIdle (h : SlotInv cfg s) {i : Nat} {o : CriObject} (hi : ¬ s.Running i)
    (ho : ¬ (o.present = true ∧ o.state = 1))
    (hcontainers : s'.containers = Function.update s.containers i o)
    (hslots : s'.criSlotsInUse = s.criSlotsInUse)
    (hcri : s'.deployFromCri = true → s.deployFromCri = true ∧ s'.deployPcId = s.deployPcId) :
    SlotInv cfg s' := by
  have hother : ∀ j, s.Running j → j ≠ i := fun j hj hji => hi (hji ▸ hj)
  have hne : ∀ j, s.Running j → s'.containers j = s.containers j := fun j hj => by
    rw [hcontainers, Function.update_of_ne (hother j hj)]
  refine h.same (fun j => ?_) (fun j hj => by rw [hne j hj]) hslots
    fun hfrom => ⟨(hcri hfrom).1, (hcri hfrom).2, fun j hj => by rw [hne j hj]⟩
  rw [running_of_update ho hcontainers]
  exact and_iff_left_of_imp (hother j)

theorem releaseRunner (h : SlotInv cfg s) {b : BitVec 32} {i : Nat} {o : CriObject}
    (hb : b.toNat < cfg.maxPorts) (hi : s.RunningAt i b) (ho : ¬ (o.present = true ∧ o.state = 1))
    (hcontainers : s'.containers = Function.update s.containers i o)
    (hslots : s'.criSlotsInUse = s.criSlotsInUse &&& ~~~State.slotBit b)
    (hcri : s'.deployFromCri = true → s.deployFromCri = true ∧ s'.deployPcId = s.deployPcId) :
    SlotInv cfg s' := by
  have hrunning := running_of_update ho hcontainers
  refine h.release hb (fun j => ?_) (fun j hj => ?_) hslots hcri
  · rw [hrunning]
    refine and_congr_right fun hr => not_congr ⟨fun hji => ?_, fun hns => ?_⟩
    · rw [hji]
      exact hi.2
    -- Two containers do not run in one slot.
    · exact h.distinct j i hr hi.1 (hns.trans hi.2.symm)
  · rw [hcontainers, Function.update_of_ne ((hrunning j).mp hj).2]

/-! ### Deployments -/

theorem runningAt_of_awaitsDeploy {b : BitVec 32} {i : Nat} (hi : i < criMaxObjects)
    (h : awaitsDeploy b (s.containers i) = true) : s.RunningAt i b := by
  obtain ⟨hpresent, hstate, hns, -⟩ := awaitsDeploy_iff.mp h
  exact ⟨⟨hi, hpresent, hstate⟩, hns⟩

theorem deployFailed (h : SlotInv cfg s) (hfrom : s.deployFromCri = true) :
    SlotInv cfg (settleContainer s s.deployPcId true) := by
  obtain ⟨hlt, hreason⟩ := h.starting hfrom
  rw [settleContainer_failed]
  obtain ⟨hsame, hnone⟩ | ⟨i, hi, hawaits, hset⟩ :=
    criRuntimeDeployComplete_cases s s.deployPcId true
  · rw [hsame]
    refine h.release hlt (fun j => ?_) (fun j _ => rfl) rfl fun hf => nomatch hf
    refine ⟨fun hj => ⟨hj, fun hns => ?_⟩, fun hj => hj.1⟩
    exact hnone j hj.1 (awaitsDeploy_iff.mpr ⟨hj.2.1, hj.2.2, hns, hreason j ⟨hj, hns⟩⟩)
  · have hat := runningAt_of_awaitsDeploy hi hawaits
    rw [hset, if_pos rfl]
    refine h.releaseRunner hlt hat ?_ rfl rfl fun hf => nomatch hf
    exact fun ho => nomatch ho.2

theorem deploySucceeded (h : SlotInv cfg s) (pcId : BitVec 32) :
    SlotInv cfg (settleContainer s pcId false) := by
  rw [settleContainer_succeeded]
  obtain ⟨hsame, -⟩ | ⟨i, hi, hawaits, hset⟩ := criRuntimeDeployComplete_cases s pcId false
  · rw [hsame]
    exact h.congr rfl rfl fun hf => nomatch hf
  · have hat := runningAt_of_awaitsDeploy hi hawaits
    rw [hset, if_neg Bool.false_ne_true]
    refine h.same (fun j => ?_) (fun j _ => ?_) rfl fun hf => nomatch hf
    all_goals by_cases hji : j = i
    · subst hji
      simp [State.Running, State.setContainer]
    · simp only [State.Running, State.setContainer, Function.update_of_ne hji]
    · subst hji
      simp [State.setContainer]
    · simp only [State.setContainer, Function.update_of_ne hji]

theorem abandonDeploy (h : SlotInv cfg s) : SlotInv cfg (abandonDeploy s) := by
  rw [Orchestrator.abandonDeploy]
  split
  case isTrue hfrom => exact (h.deployFailed hfrom).congr rfl rfl fun hf => ⟨hf, rfl⟩
  case isFalse => exact h.congr rfl rfl fun hf => ⟨hf, rfl⟩

theorem settleContainer (h : SlotInv cfg s) (hfrom : s.deployFromCri = true) (failed : Bool) :
    SlotInv cfg (settleContainer s s.deployPcId failed) := by
  cases failed with
  | true => exact h.deployFailed hfrom
  | false => exact h.deploySucceeded s.deployPcId

/-! ### Loaders and results -/

variable {port : Port M}

theorem finishLoader (h : SlotInv cfg s) {k : Nat} {l : Loader} {err : Bool}
    (hs : finishLoader port s k l err = some s') : SlotInv cfg s' := by
  have hended : SlotInv cfg (s.setPhase k .ended) := h.congr rfl rfl fun hf => ⟨hf, rfl⟩
  cases err with
  | true =>
    obtain rfl := Option.some.inj hs
    split
    · exact hended.abandonDeploy
    · exact hended
  | false =>
    obtain ⟨m, reply, -, ⟨-, -, rfl⟩ | ⟨-, rfl⟩⟩ := handOver_cases hs
    · exact abandonDeploy (hended.congr rfl rfl fun hf => ⟨hf, rfl⟩)
    · exact hended.congr rfl rfl fun hf => ⟨hf, rfl⟩

theorem resumeLoader (h : SlotInv cfg s) {k : Nat} {c : PicoVfs.Completion}
    (hs : resumeLoader port s k c = some s') : SlotInv cfg s' := by
  obtain ⟨l, r, -, -, hs⟩ := resumeLoader_cases hs
  have hmem : SlotInv cfg { s with mem := ByteMemory.writes s.mem (r.resume c).1 } :=
    h.congr rfl rfl fun hf => ⟨hf, rfl⟩
  obtain ⟨r', -, rfl⟩ | ⟨size, err, -, hs⟩ := hs
  · exact hmem.congr rfl rfl fun hf => ⟨hf, rfl⟩
  · exact hmem.finishLoader hs

theorem yield (h : SlotInv cfg s) : SlotInv cfg (yield s) := by
  obtain ⟨loaders, hs⟩ := yield_frame s
  rw [hs]
  exact h.congr rfl rfl fun hf => ⟨hf, rfl⟩

theorem takeDeployResult (h : SlotInv cfg s) {reply : Message}
    (hpc : (reply.get 0).truncate 32 = s.deployPcId)
    (hs : takeDeployResult cfg port s reply = some s') : SlotInv cfg s' := by
  obtain ⟨s₁, hs₁, rfl⟩ := Option.map_eq_some_iff.mp hs
  suffices hinv : SlotInv cfg s₁ from hinv.congr rfl rfl fun hf => ⟨hf, rfl⟩
  split at hs₁
  case isTrue hfrom =>
    obtain ⟨m, failed, -, rfl⟩ := settleCri_cases hs₁
    have hm : SlotInv cfg { s with monitor := m } := h.congr rfl rfl fun hf => ⟨hf, rfl⟩
    rw [hpc]
    exact hm.settleContainer hfrom failed
  case isFalse =>
    obtain rfl := Option.some.inj hs₁
    exact h

theorem notifiedMonitor (h : SlotInv cfg s) (hanswers : AnswersPending port s)
    (hs : notifiedMonitor cfg port s = some s') : SlotInv cfg s' := by
  rw [Orchestrator.notifiedMonitor] at hs
  split at hs
  case isTrue hpending =>
    obtain ⟨m, reply, hcall, hs⟩ := printDeployResult_cases hs
    have hm : SlotInv cfg { s with monitor := m } := h.congr rfl rfl fun hf => ⟨hf, rfl⟩
    obtain ⟨-, rfl⟩ | ⟨hlabel, hs⟩ := hs
    · exact hm
    · exact hm.takeDeployResult (hanswers hpending (m, reply) hcall hlabel) hs
  case isFalse =>
    obtain rfl := Option.some.inj hs
    exact h

/-! ### Requests -/

theorem createContainer (h : SlotInv cfg s) {request : CriObject} (hstate : request.state = 0) :
    SlotInv cfg (createContainer s request).1 := by
  rw [Orchestrator.createContainer]
  split
  case h_1 => exact h
  case h_2 i hi =>
    dsimp only [State.nextObject, State.tick, State.setContainer]
    refine h.setIdle (fun hr => ?_) ?_ rfl rfl fun hf => ⟨hf, rfl⟩
    · exact absurd hr.2.1 (by simp [(allocate_spec hi).2])
    · simp [setImageRef, hstate]

theorem removeContainer (h : SlotInv cfg s) {request : CriObject}
    (hidle : ∀ i, find s.containers request.id = some i → (s.containers i).state ≠ 1) :
    SlotInv cfg (removeContainer s request).1 := by
  rw [Orchestrator.removeContainer]
  split
  case h_1 => exact h
  case h_2 i hi =>
    refine h.setIdle (fun hr => hidle i hi hr.2.2) ?_ rfl rfl fun hf => ⟨hf, rfl⟩
    exact fun ho => absurd ho.1 Bool.false_ne_true

theorem stopContainer (h : SlotInv cfg s) {request response : CriObject} {result : CriResult}
    (hs : stopContainer cfg port s request = some (s', response, result)) : SlotInv cfg s' := by
  obtain ⟨-, rfl⟩ | ⟨i, hi, ⟨-, hstate, rfl⟩ | ⟨hstate, ⟨-, m, -, rfl⟩ | ⟨-, hb, m, -, rfl⟩⟩⟩ :=
    stopContainer_cases hs
  · exact h
  · refine h.setIdle (fun hr => hstate hr.2.2) ?_ rfl rfl fun hf => ⟨hf, rfl⟩
    exact fun ho => nomatch ho.2
  · exact h.congr rfl rfl fun hf => ⟨hf, rfl⟩
  · obtain ⟨hlt, hpresent, -⟩ := find_spec hi
    refine h.releaseRunner hb ⟨⟨hlt, hpresent, hstate⟩, rfl⟩ ?_ rfl rfl fun hf => ⟨hf, rfl⟩
    exact fun ho => nomatch ho.2

theorem orchestratorCriStart_failed {spawnOk : Bool} {image owner : List UInt8}
    (hs : orchestratorCriStart cfg spawnOk s image owner = (s', none)) :
    s'.containers = s.containers ∧ s'.criSlotsInUse = s.criSlotsInUse ∧
      (s'.deployFromCri = true → s.deployFromCri = true ∧ s'.deployPcId = s.deployPcId ∧
        s'.deployPending = s.deployPending) := by
  obtain ⟨-, rfl⟩ | ⟨file, -, -, ⟨-, -, rfl⟩ | ⟨slot, hslot, ⟨-, rfl⟩ | ⟨hsome, -⟩⟩⟩ :=
    orchestratorCriStart_cases hs
  · exact ⟨rfl, rfl, fun hf => ⟨hf, rfl, rfl⟩⟩
  · exact ⟨rfl, rfl, fun hf => ⟨hf, rfl, rfl⟩⟩
  · obtain ⟨hlt, hfree⟩ := freeSlot_spec hslot
    have hof : (BitVec.ofNat 32 slot).toNat = slot := toNat_slot hlt
    refine ⟨rfl, ?_, fun hf => nomatch hf⟩
    refine or_bit_and_not_bit ?_ ?_
    · rw [hof]
      exact Nat.lt_of_lt_of_le hlt cfg.maxPorts_le
    · rwa [hof]
  · cases hsome

/-- A start that succeeds has taken a free slot. -/
theorem orchestratorCriStart_claimed {spawnOk : Bool} {image owner : List UInt8} {id : BitVec 32}
    (hs : orchestratorCriStart cfg spawnOk s image owner = (s', some id)) :
    id.toNat < cfg.maxPorts ∧ ¬ Has s.criSlotsInUse id.toNat ∧ s'.containers = s.containers ∧
      s'.criSlotsInUse = s.criSlotsInUse ||| State.slotBit id ∧ s'.deployPcId = id ∧
      s'.deployPending = true := by
  obtain ⟨hnone, -⟩ | ⟨file, -, -, ⟨hnone, -⟩ | ⟨slot, hslot, ⟨hnone, -⟩ | ⟨hid, rfl⟩⟩⟩ :=
    orchestratorCriStart_cases hs
  · cases hnone
  · cases hnone
  · cases hnone
  · obtain rfl := Option.some.inj hid
    obtain ⟨hlt, hfree⟩ := freeSlot_spec hslot
    obtain ⟨loaders, hyield⟩ := yield_frame ((criRequest s file slot).spawnLoader
      { targeted := true, file, pcId := BitVec.ofNat 32 slot, container := some owner })
    rw [hyield, toNat_slot hlt]
    exact ⟨hlt, hfree, rfl, rfl, rfl, rfl⟩

/-- A start as a whole, of a container that is not running: the container is marked as
running, and then given a slot or marked as failed. -/
theorem startMarked (h : SlotInv cfg s) {i : Nat} {spawnOk : Bool} (hlt : i < criMaxObjects)
    (hidle : (s.containers i).state ≠ 1) {t : State M} {o : CriObject}
    (ho : o.present = true ∧ o.state = 1 ∧ o.reason = carrelsStarting)
    (ht : t.containers = Function.update s.containers i o)
    (hslots : t.criSlotsInUse = s.criSlotsInUse) (hfrom : t.deployFromCri = s.deployFromCri)
    (hpc : t.deployPcId = s.deployPcId) :
    SlotInv cfg (startAfterReply cfg spawnOk t i) := by
  have hi : ¬ s.Running i := fun hr => hidle hr.2.2
  obtain ⟨t₁, ⟨hs, heq⟩ | ⟨id, hs, heq⟩⟩ := startAfterReply_cases cfg spawnOk t i
  · obtain ⟨hc₁, hslots₁, hcri₁⟩ := orchestratorCriStart_failed hs
    have hupdate : ∀ o', Function.update t₁.containers i o' = Function.update s.containers i o' :=
      fun o' => by rw [hc₁, ht, Function.update_idem]
    rw [heq]
    refine h.setIdle hi ?_ (hupdate _) (hslots₁.trans hslots) fun hf => ?_
    · exact fun ho => nomatch ho.2
    · obtain ⟨hf, hpc₁, -⟩ := hcri₁ hf
      exact ⟨hfrom.symm.trans hf, hpc₁.trans hpc⟩
  · obtain ⟨hb, hfree, hc₁, hslots₁, hpc₁, -⟩ := orchestratorCriStart_claimed hs
    have hself : t₁.containers i = o := by rw [hc₁, ht, Function.update_self]
    rw [heq, hself]
    refine h.claim hb (fun hbit => hfree (hslots ▸ hbit)) hi ?_ ?_ (fun j hj => ?_)
      (hslots₁.trans (by rw [hslots])) hpc₁
    · rw [State.Running, State.setContainer_self]
      exact ⟨hlt, ho.1, ho.2.1⟩
    · rw [State.setContainer_self]
      exact ⟨rfl, ho.2.2⟩
    · rw [State.setContainer_of_ne _ _ hj, hc₁, ht, Function.update_of_ne hj]

theorem processRequest (h : SlotInv cfg s) {spawnOk : Bool} {op : BitVec 16}
    {request response : CriObject} {result : CriResult}
    (hcreate : CriOp.ofNumber op = some .createContainer → request.state = 0)
    (hidle : CriOp.ofNumber op = some .startContainer ∨ CriOp.ofNumber op = some .removeContainer →
      ∀ i, find s.containers request.id = some i → (s.containers i).state ≠ 1)
    (hs : processRequest cfg port spawnOk s op request = some (s', response, result)) :
    SlotInv cfg s' := by
  by_cases hstart : CriOp.ofNumber op = some .startContainer
  · obtain ⟨-, rfl⟩ | ⟨i, hi, rfl⟩ := processRequest_start hstart hs
    · exact h
    · obtain ⟨hlt, hpresent, -⟩ := find_spec hi
      rw [markStarted]
      refine h.startMarked hlt (hidle (Or.inl hstart) i hi) ?_ rfl rfl rfl rfl
      exact ⟨hpresent, rfl, rfl⟩
  · replace hs := processRequest_other hstart hs
    by_cases hchanges : ∃ c, CriOp.ofNumber op = some c ∧ c.changesContainer = true
    · obtain ⟨c, hc, hchanges⟩ := hchanges
      rw [dispatch, hc] at hs
      cases c
      case createContainer =>
        have hs' := h.createContainer (hcreate hc)
        rwa [Option.some.inj hs] at hs'
      case startContainer => exact absurd hc hstart
      case stopContainer => exact h.stopContainer hs
      case removeContainer =>
        have hs' := h.removeContainer (hidle (Or.inr hc))
        rwa [Option.some.inj hs] at hs'
      all_goals cases hchanges
    · obtain ⟨sandboxes, images, nextId, timestamp, rfl⟩ := dispatch_frame hs fun c hc =>
        Bool.eq_false_iff.mpr fun htrue => hchanges ⟨c, hc, htrue⟩
      exact h.congr rfl rfl fun hf => ⟨hf, rfl⟩

theorem step_preserves (h : SlotInv cfg s) {e : Event M} (hevent : CriEvent port s e)
    (hidle : NotOnRunning s e) (hs : step cfg port s e = some s') : SlotInv cfg s' := by
  cases e with
  | shell argv spawnOk => exact absurd hevent id
  | request op request spawnOk =>
    obtain ⟨⟨s₁, response, result⟩, hreq, rfl⟩ := Option.map_eq_some_iff.mp hs
    exact h.processRequest (fun hc => (hevent hc).1) hidle hreq
  | fsReply k c => exact h.resumeLoader hs
  | notifiedMonitor => exact h.notifiedMonitor hevent hs
  | yield =>
    obtain rfl := Option.some.inj hs
    exact h.yield
  | fsMounted | imageProbed | monitor =>
    obtain rfl := Option.some.inj hs
    exact h.congr rfl rfl fun hf => ⟨hf, rfl⟩

theorem init (cfg : Config) (m : M) : SlotInv cfg ({ monitor := m } : State M) where
  distinct _ _ hi := nomatch hi.2.1
  used _ hi := nomatch hi.2.1
  owned _ _ hbit := absurd hbit (not_has_zero _)
  starting hf := nomatch hf

end SlotInv

/-! ## The accounting -/

/-- The slots are accounted for in every state of every run of the CRI that starts and
removes containers only when they do not run. -/
theorem slotsAccounted (cfg : Config) (port : Port M) (m : M) {s : State M}
    (h : Reaches (step cfg port) (fun s e => CriEvent port s e ∧ NotOnRunning s e)
      { monitor := m } s) : SlotsAccounted cfg s :=
  SlotInv.accounted <| h.invariant (SlotInv.init cfg m)
    fun _ _ _ hinv hok hs => hinv.step_preserves hok.1 hok.2 hs

/-- One protocon port. -/
def onePort : Config := { maxPorts := 1, maxPorts_le := by decide }

/-- A monitor that accepts everything and has protocon 0 running. -/
def readyPort : Port Unit where
  call _ msg := some ((), { mr := if msg.get 0 = queryProtoconsMessage.get 0 then [1] else [0] })

def helloContainer : CriObject := { image := k8sCHelloImage }

def firstContainer : CriObject := { id := bytes "carrels-container-00000001" }

/-- A container is created and started, its image is loaded, and the monitor reports it. -/
def startedRun : List (Event Unit) :=
  [.fsMounted, .imageProbed true,
    .request CriOp.createContainer.number helloContainer true,
    .request CriOp.startContainer.number firstContainer true,
    .fsReply 0 { success := true }, .fsReply 0 { success := true },
    .fsReply 0 { success := true }, .fsReply 0 { success := true }, .notifiedMonitor]

def startedState : State Unit :=
  (run (step onePort readyPort) { monitor := () } startedRun).get (by decide +kernel)

theorem startedRun_meets :
    RunMeets (step onePort readyPort) (fun s e => CriEvent readyPort s e ∧ NotOnRunning s e)
      { monitor := () } startedRun := by
  decide +kernel

theorem slotsAccounted_startedState : SlotsAccounted onePort startedState :=
  slotsAccounted onePort readyPort () (reaches_of_run startedRun_meets (Option.some_get _).symm)

/-- The container that runs is removed. -/
def removedRun : List (Event Unit) :=
  startedRun ++ [.request CriOp.removeContainer.number firstContainer true]

def removedState : State Unit :=
  (run (step onePort readyPort) { monitor := () } removedRun).get (by decide +kernel)

theorem removedRun_meets :
    RunMeets (step onePort readyPort) (CriEvent readyPort) { monitor := () } removedRun := by
  decide +kernel

theorem not_running_removedState (i : Nat) : ¬ removedState.Running i := by
  have hpresent : ∀ i < criMaxObjects, (removedState.containers i).present = false := by
    decide +kernel
  exact fun hi => Bool.false_ne_true ((hpresent i hi.1).symm.trans hi.2.1)

/-- The removal of a running container leaves its slot in use. -/
theorem not_slotsAccounted :
    ¬ ∀ (cfg : Config) (port : Port Unit) (s : State Unit),
      Reaches (step cfg port) (CriEvent port) { monitor := () } s →
        s.deployPending = false → SlotsAccounted cfg s := by
  intro h
  have hreach : Reaches (step onePort readyPort) (CriEvent readyPort) { monitor := () }
      removedState :=
    reaches_of_run removedRun_meets (Option.some_get _).symm
  have hpending : removedState.deployPending = false := by decide +kernel
  have hbit : Has removedState.criSlotsInUse 0 := by decide +kernel
  obtain ⟨i, hi, -⟩ := ((h _ _ _ hreach hpending).1 0 Nat.zero_lt_one).mp hbit
  exact not_running_removedState i hi.1

end Orchestrator
end Carrels
