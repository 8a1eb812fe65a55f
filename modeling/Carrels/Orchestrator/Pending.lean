/-
What an event does to the pending deployment.

A targeted deployment is pending from the command on.  Its loader may abandon it or hand it
over to the monitor, and the result of the monitor completes it.  `step_deploy` is the
inversion of a step for the flags, the request and the slots of a deployment and for the
targeted loaders.
-/
import Carrels.Orchestrator.Step

namespace Carrels
namespace Orchestrator

open Monitor

variable {M : Type}

/-! ## Targeted loaders -/

/-- Loader `k` is `load_targeted_elf_payload` and has not returned. -/
def State.TargetedLoading (s : State M) (k : Nat) : Prop :=
  ∃ l, s.loaders k = some l ∧ l.targeted = true ∧ l.phase.live = true

instance (s : State M) (k : Nat) : Decidable (s.TargetedLoading k) :=
  match h : s.loaders k with
  | none => .isFalse fun hloading => hloading.elim fun _ hl => nomatch h.symm.trans hl.1
  | some l =>
    decidable_of_iff (l.targeted = true ∧ l.phase.live = true)
      ⟨fun hl => ⟨l, h, hl⟩, fun hloading => hloading.elim fun _ hl =>
        Option.some.inj (h.symm.trans hl.1) ▸ hl.2⟩

/-- Loaders are numbered in the order in which they are spawned. -/
def State.Fresh (s : State M) : Prop := ∀ k, s.spawned ≤ k → s.loaders k = none

/-- The calls that ask for no targeted deployment. -/
def QuietMessage (msg : Message) : Prop := msg.get 0 ≠ 22

theorem CriMessage.quiet {msg : Message} (h : CriMessage msg) : QuietMessage msg := by
  cases h with
  | result => exact show (23 : BitVec 64) ≠ 22 by decide
  | query => exact show (10 : BitVec 64) ≠ 22 by decide
  | terminate => exact show (6 : BitVec 64) ≠ 22 by decide

theorem ShellMessage.quiet {msg : Message} (h : ShellMessage msg) : QuietMessage msg := by
  intro hmsg
  rw [ShellMessage, hmsg] at h
  exact absurd h (by decide)

/-- A loader keeps the command that it was spawned for. -/
def KeepsCommands (s s' : State M) : Prop :=
  ∀ k l, s.loaders k = some l → ∃ l', s'.loaders k = some l' ∧ l'.command = l.command

theorem KeepsCommands.congr {s s' : State M} (h : s'.loaders = s.loaders) : KeepsCommands s s' :=
  fun _ l hl => ⟨l, h ▸ hl, rfl⟩

theorem KeepsCommands.trans {s s' s'' : State M} (h₁ : KeepsCommands s s')
    (h₂ : KeepsCommands s' s'') : KeepsCommands s s'' := by
  intro k l hl
  obtain ⟨l', hl', hcommand⟩ := h₁ k l hl
  obtain ⟨l'', hl'', hcommand'⟩ := h₂ k l' hl'
  exact ⟨l'', hl'', hcommand'.trans hcommand⟩

theorem KeepsCommands.setPhase (s : State M) (k : Nat) (phase : LoaderPhase) :
    KeepsCommands s (s.setPhase k phase) := by
  intro j l hl
  by_cases hjk : j = k
  · subst hjk
    exact ⟨_, State.setPhase_self phase hl, rfl⟩
  · exact ⟨l, (State.setPhase_of_ne s phase hjk).trans hl, rfl⟩

theorem KeepsCommands.spawnLoader {s : State M} (h : s.Fresh) (command : Command) :
    KeepsCommands s (s.spawnLoader command) := by
  intro j l hl
  have hne : j ≠ s.spawned := by
    rintro rfl
    exact nomatch (h _ (Nat.le_refl _)).symm.trans hl
  exact ⟨l, (Function.update_of_ne hne ..).trans hl, rfl⟩

/-- The loaders are as before, up to what they are doing. -/
structure SameLoaders (s s' : State M) : Prop where
  loading : ∀ k, s'.TargetedLoading k ↔ s.TargetedLoading k
  fresh : s.Fresh → s'.Fresh
  commands : KeepsCommands s s'

namespace SameLoaders

variable {s s' s'' : State M}

theorem refl (s : State M) : SameLoaders s s := ⟨fun _ => Iff.rfl, id, .congr rfl⟩

theorem trans (h₁ : SameLoaders s s') (h₂ : SameLoaders s' s'') : SameLoaders s s'' :=
  ⟨fun k => (h₂.loading k).trans (h₁.loading k), fun h => h₂.fresh (h₁.fresh h),
    h₁.commands.trans h₂.commands⟩

theorem congr (hl : s'.loaders = s.loaders) (hn : s'.spawned = s.spawned) : SameLoaders s s' := by
  refine ⟨fun k => ?_, fun h k hk => ?_, .congr hl⟩
  · rw [State.TargetedLoading, State.TargetedLoading, hl]
  · rw [hl]
    exact h k (hn ▸ hk)

theorem setPhase {k : Nat} {l : Loader} {phase : LoaderPhase} (hl : s.loaders k = some l)
    (hlive : l.phase.live = true) (hphase : phase.live = true) :
    SameLoaders s (s.setPhase k phase) := by
  refine ⟨fun j => ?_, fun h j hj => ?_, .setPhase s k phase⟩
  · by_cases hjk : j = k
    · subst hjk
      rw [State.TargetedLoading, State.TargetedLoading, State.setPhase_self phase hl, hl]
      simp [hlive, hphase]
    · rw [State.TargetedLoading, State.TargetedLoading, State.setPhase_of_ne s phase hjk]
  · by_cases hjk : j = k
    · subst hjk
      exact nomatch (h j hj).symm.trans hl
    · rw [State.setPhase_of_ne s phase hjk]
      exact h j hj

end SameLoaders

theorem startLoader_sameLoaders (s : State M) (k : Nat) : SameLoaders s (startLoader s k) := by
  rw [startLoader]
  split
  case h_1 => exact .refl s
  case h_2 l hl =>
    split
    case h_1 hready =>
      split
      case isTrue => exact .setPhase hl (by rw [hready]; rfl) rfl
      case isFalse => exact .refl s
    case h_2 => exact .refl s

theorem yield_sameLoaders (s : State M) : SameLoaders s (yield s) := by
  rw [yield]
  induction List.range s.spawned generalizing s with
  | nil => exact .refl s
  | cons k ks ih => exact (startLoader_sameLoaders s k).trans (ih (startLoader s k))

theorem targetedLoading_ended {s : State M} {k : Nat} {l : Loader} (hl : s.loaders k = some l)
    (j : Nat) :
    (s.setPhase k .ended).TargetedLoading j ↔ s.TargetedLoading j ∧ j ≠ k := by
  by_cases hjk : j = k
  · subst hjk
    rw [State.TargetedLoading, State.setPhase_self _ hl]
    simp [LoaderPhase.live]
  · rw [State.TargetedLoading, State.TargetedLoading, State.setPhase_of_ne s _ hjk]
    simp [hjk]

theorem fresh_ended {s : State M} {k : Nat} {l : Loader} (hl : s.loaders k = some l)
    (h : s.Fresh) : (s.setPhase k .ended).Fresh := by
  intro j hj
  have hnone : s.loaders j = none := h j hj
  have hjk : j ≠ k := by
    rintro rfl
    exact nomatch hnone.symm.trans hl
  rw [State.setPhase_of_ne s _ hjk, hnone]

theorem targetedLoading_spawned {s : State M} {command : Command} (h : s.Fresh) (j : Nat) :
    (s.spawnLoader command).TargetedLoading j ↔
      s.TargetedLoading j ∨ (j = s.spawned ∧ command.targeted = true) := by
  by_cases hj : j = s.spawned
  · subst hj
    have hnone := h s.spawned (Nat.le_refl _)
    simp [State.TargetedLoading, State.spawnLoader, LoaderPhase.live, hnone]
  · simp [State.TargetedLoading, State.spawnLoader, hj]

theorem fresh_spawned {s : State M} {command : Command} (h : s.Fresh) :
    (s.spawnLoader command).Fresh := by
  intro j hj
  have hlt : s.spawned < j := hj
  rw [State.spawnLoader]
  dsimp only
  rw [Function.update_of_ne (Nat.ne_of_gt hlt)]
  exact h j (Nat.le_of_lt hlt)

/-! ## The inversion of a step -/

/-- The slots in use and the request of a pending deployment are as before. -/
structure SameClaim (s s' : State M) : Prop where
  slots : s'.criSlotsInUse = s.criSlotsInUse
  idle : s'.deployFromCri = true → s.deployFromCri = true
  fromCri : s.deployPending = true → s'.deployFromCri = s.deployFromCri
  pcId : s.deployPending = true → s'.deployPcId = s.deployPcId
  peerMask : s.deployPending = true → s'.deployPeerMask = s.deployPeerMask
  peersAll : s.deployPending = true → s'.deployPeersAll = s.deployPeersAll

/-- What a command that makes a deployment pending asks for. -/
inductive Claims (cfg : Config) (s : State M) : Event M → State M → Prop
  | shell {argv : List (List UInt8)} {spawnOk : Bool} {s' : State M} {l : Loader}
      (hslots : s'.criSlotsInUse = s.criSlotsInUse) (hfromCri : s'.deployFromCri = s.deployFromCri)
      (hl : s'.loaders s.spawned = some l) (hcontainer : l.command.container = none) :
      Claims cfg s (.shell argv spawnOk) s'
  | cri {op : BitVec 16} {request : CriObject} {spawnOk : Bool} {s' : State M} {l : Loader}
      (hop : CriOp.ofNumber op = some .startContainer)
      (hlt : s'.deployPcId.toNat < cfg.maxPorts)
      (hfree : ¬ BitMask.Has s.criSlotsInUse s'.deployPcId.toNat)
      (hslots : s'.criSlotsInUse = s.criSlotsInUse ||| State.slotBit s'.deployPcId)
      (hfromCri : s'.deployFromCri = true) (hmask : s'.deployPeerMask = 0)
      (hall : s'.deployPeersAll = false) (hl : s'.loaders s.spawned = some l)
      (hcontainer : l.command.container = some request.id) :
      Claims cfg s (.request op request spawnOk) s'

/-- What becomes of the slot when a result has been read in `s`. -/
inductive Settled (cfg : Config) (port : Port M) (s : State M) (reply : Message)
    (s' : State M) : Prop
  | shell (hfromCri : s.deployFromCri = false) (hslots : s'.criSlotsInUse = s.criSlotsInUse)
      (hm : s'.monitor = s.monitor)
  | failed (hfromCri : s.deployFromCri = true) (hlabel : reply.label ≠ .noError)
      (hslots : s'.criSlotsInUse = (s.clearSlot ((reply.get 0).truncate 32)).criSlotsInUse)
      (hm : s'.monitor = s.monitor)
  | queried (running : Option Bool) (hfromCri : s.deployFromCri = true)
      (hlabel : reply.label = .noError)
      (hquery : monitorProtoconIsRunning cfg port s ((reply.get 0).truncate 32) =
        some ({ s with monitor := s'.monitor }, running))
      (hslots : s'.criSlotsInUse = if running = some true then s.criSlotsInUse
        else (s.clearSlot ((reply.get 0).truncate 32)).criSlotsInUse)

/-- What an event does to the pending deployment. -/
inductive DeployStep (cfg : Config) (port : Port M) (s : State M) : Event M → State M → Prop
  | kept {e : Event M} {s' : State M} (he : e ≠ .notifiedMonitor)
      (hpending : s'.deployPending = s.deployPending) (hclaim : SameClaim s s')
      (hloaders : SameLoaders s s') (hcalls : port.Calls QuietMessage s.monitor s'.monitor) :
      DeployStep cfg port s e s'
  | stopped {op : BitVec 16} {request : CriObject} {spawnOk : Bool} {s' : State M} {i : Nat}
      (hop : CriOp.ofNumber op = some .stopContainer)
      (hi : find s.containers request.id = some i) (hstate : (s.containers i).state = 1)
      (hlt : (s.containers i).networkNs.toNat < cfg.maxPorts)
      (hstop : StoppedBy port (s.containers i).networkNs s.monitor s'.monitor)
      (hpending : s'.deployPending = s.deployPending)
      (hclaim : SameClaim (s.clearSlot (s.containers i).networkNs) s')
      (hloaders : SameLoaders s s') : DeployStep cfg port s (.request op request spawnOk) s'
  | ignored (hpending : s.deployPending = false) : DeployStep cfg port s .notifiedMonitor s
  | waited {m : M} {reply : Message} (hpending : s.deployPending = true)
      (hcall : port.call s.monitor deployResultMessage = some (m, reply))
      (hlabel : reply.label = .deployInProgress) :
      DeployStep cfg port s .notifiedMonitor { s with monitor := m }
  | taken {s' : State M} {m : M} {reply : Message} (hpending : s.deployPending = true)
      (hcall : port.call s.monitor deployResultMessage = some (m, reply))
      (hlabel : reply.label ≠ .deployInProgress) (hafter : s'.deployPending = false)
      (hfromCri : s'.deployFromCri = false)
      (hsettled : Settled cfg port { s with monitor := m } reply s')
      (hloaders : SameLoaders s s') (hcalls : port.Calls QuietMessage m s'.monitor) :
      DeployStep cfg port s .notifiedMonitor s'
  | begun {e : Event M} {s' : State M} (he : e ≠ .notifiedMonitor)
      (hbefore : s.deployPending = false) (hafter : s'.deployPending = true)
      (hclaims : Claims cfg s e s') (hcommands : KeepsCommands s s')
      (hloading : ∀ k, s'.TargetedLoading k ↔ s.TargetedLoading k ∨ k = s.spawned)
      (hfresh : s'.Fresh) (hm : s'.monitor = s.monitor) : DeployStep cfg port s e s'
  | abandoned {k : Nat} {c : PicoVfs.Completion} {s' : State M} (hk : s.TargetedLoading k)
      (hafter : s'.deployPending = false) (hfromCri : s'.deployFromCri = false)
      (hslots : s'.criSlotsInUse = if s.deployFromCri then (s.clearSlot s.deployPcId).criSlotsInUse
        else s.criSlotsInUse) (hcommands : KeepsCommands s s')
      (hloading : ∀ j, s'.TargetedLoading j ↔ s.TargetedLoading j ∧ j ≠ k) (hfresh : s'.Fresh)
      (hm : s'.monitor = s.monitor ∨ ∃ reply, reply.label ≠ .noError ∧
        port.call s.monitor
          (deployToProtoconMessage s.deployPcId s.deployPeerMask s.deployPeersAll) =
            some (s'.monitor, reply)) : DeployStep cfg port s (.fsReply k c) s'
  | handedOver {k : Nat} {c : PicoVfs.Completion} {s' : State M} {reply : Message}
      (hk : s.TargetedLoading k) (hpending : s'.deployPending = s.deployPending)
      (hpc : s'.deployPcId = s.deployPcId) (hclaim : SameClaim s s')
      (hcommands : KeepsCommands s s')
      (hloading : ∀ j, s'.TargetedLoading j ↔ s.TargetedLoading j ∧ j ≠ k) (hfresh : s'.Fresh)
      (hlabel : reply.label = .noError)
      (hcall : port.call s.monitor
        (deployToProtoconMessage s.deployPcId s.deployPeerMask s.deployPeersAll) =
          some (s'.monitor, reply)) : DeployStep cfg port s (.fsReply k c) s'

section

variable {cfg : Config} {port : Port M} {s s' : State M}

namespace SameClaim

theorem same (hslots : s'.criSlotsInUse = s.criSlotsInUse)
    (hfromCri : s'.deployFromCri = s.deployFromCri) (hpcId : s'.deployPcId = s.deployPcId)
    (hmask : s'.deployPeerMask = s.deployPeerMask) (hall : s'.deployPeersAll = s.deployPeersAll) :
    SameClaim s s' :=
  ⟨hslots, fun h => hfromCri ▸ h, fun _ => hfromCri, fun _ => hpcId, fun _ => hmask, fun _ => hall⟩

theorem refl (s : State M) : SameClaim s s := .same rfl rfl rfl rfl rfl

theorem of_idle (hpending : s.deployPending = false) (hslots : s'.criSlotsInUse = s.criSlotsInUse)
    (hfromCri : s'.deployFromCri = true → s.deployFromCri = true) : SameClaim s s' :=
  have hidle : ¬ s.deployPending = true := fun h => nomatch hpending.symm.trans h
  ⟨hslots, hfromCri, fun h => absurd h hidle, fun h => absurd h hidle, fun h => absurd h hidle,
    fun h => absurd h hidle⟩

end SameClaim

/-! ### Loaders -/

theorem abandonDeploy_sameLoaders (s : State M) :
    SameLoaders s (abandonDeploy s) ∧ (abandonDeploy s).deployPending = false ∧
      (abandonDeploy s).deployFromCri = false ∧ (abandonDeploy s).monitor = s.monitor := by
  obtain ⟨containers, timestamp, slots, hs⟩ := abandonDeploy_frame s
  rw [hs]
  exact ⟨.congr rfl rfl, rfl, rfl, rfl⟩

theorem settleContainer_slots (s : State M) (pcId : BitVec 32) (failed : Bool) :
    (settleContainer s pcId failed).criSlotsInUse =
      if failed then (s.clearSlot pcId).criSlotsInUse else s.criSlotsInUse := by
  obtain ⟨containers, timestamp, h⟩ := criRuntimeDeployComplete_frame s pcId failed
  cases failed <;> rw [settleContainer, h] <;> rfl

theorem abandonDeploy_slots (s : State M) :
    (abandonDeploy s).criSlotsInUse =
      if s.deployFromCri then (s.clearSlot s.deployPcId).criSlotsInUse else s.criSlotsInUse := by
  rw [abandonDeploy]
  dsimp only
  split
  · exact settleContainer_slots s s.deployPcId true
  · rfl

theorem sameLoaders_ended {k : Nat} {l : Loader} (hl : s.loaders k = some l)
    (ht : l.targeted = false) : SameLoaders s (s.setPhase k .ended) := by
  refine ⟨fun j => (targetedLoading_ended hl j).trans ⟨And.left, fun hj => ⟨hj, ?_⟩⟩,
    fresh_ended hl, .setPhase s k .ended⟩
  rintro rfl
  obtain ⟨l', hl', htargeted, -⟩ := hj
  rw [hl, Option.some.injEq] at hl'
  rw [← hl', ht] at htargeted
  cases htargeted

theorem finishLoader_deploy {k : Nat} {c : PicoVfs.Completion} {l : Loader} {err : Bool}
    {mem : ByteMemory.Mem} (hfresh : s.Fresh) (hl : s.loaders k = some l)
    (hlive : l.phase.live = true) (h : finishLoader port { s with mem } k l err = some s') :
    DeployStep cfg port s (.fsReply k c) s' := by
  have hended := targetedLoading_ended (s := { s with mem }) hl
  have hfresh' : ({ s with mem }.setPhase k .ended).Fresh := fresh_ended hl hfresh
  have hcommands : KeepsCommands s ({ s with mem }.setPhase k .ended) :=
    .setPhase { s with mem } k .ended
  have habandon : ∀ t : State M, t.loaders = ({ s with mem }.setPhase k .ended).loaders →
      t.spawned = s.spawned → (abandonDeploy t).Fresh ∧ KeepsCommands s (abandonDeploy t) ∧ ∀ j,
        (abandonDeploy t).TargetedLoading j ↔ s.TargetedLoading j ∧ j ≠ k := by
    intro t ht hn
    have hsame : SameLoaders ({ s with mem }.setPhase k .ended) (abandonDeploy t) :=
      SameLoaders.trans (.congr ht hn) (abandonDeploy_sameLoaders t).1
    exact ⟨hsame.fresh hfresh', hcommands.trans hsame.commands,
      fun j => (hsame.loading j).trans (hended j)⟩
  rw [finishLoader] at h
  cases hlt : l.targeted with
  | true =>
    have hk : s.TargetedLoading k := ⟨l, hl, hlt, hlive⟩
    cases err with
    | true =>
      rw [if_pos rfl, if_pos hlt] at h
      obtain rfl := Option.some.inj h
      obtain ⟨hf, hkeeps, hloading⟩ := habandon _ rfl rfl
      obtain ⟨-, hafter, hfromCri, hm⟩ :=
        abandonDeploy_sameLoaders ({ s with mem }.setPhase k .ended)
      exact .abandoned hk hafter hfromCri (abandonDeploy_slots _) hkeeps hloading hf (.inl hm)
    | false =>
      obtain ⟨m, reply, hcall, ⟨-, hlabel, rfl⟩ | ⟨hlabel, rfl⟩⟩ := handOver_cases h
      · rw [loaderMessage, if_pos hlt] at hcall
        obtain ⟨hf, hkeeps, hloading⟩ :=
          habandon { recordIssue ({ s with mem }.setPhase k .ended) l with monitor := m } rfl rfl
        obtain ⟨-, hafter, hfromCri, hm⟩ := abandonDeploy_sameLoaders
          { recordIssue ({ s with mem }.setPhase k .ended) l with monitor := m }
        refine .abandoned hk hafter hfromCri (abandonDeploy_slots _) hkeeps hloading hf
          (.inr ⟨reply, hlabel, ?_⟩)
        rw [hm]
        exact hcall
      · rw [loaderMessage, if_pos hlt] at hcall
        exact .handedOver hk rfl rfl (.same rfl rfl rfl rfl rfl) hcommands hended hfresh'
          (hlabel hlt) hcall
  | false =>
    have hmem : SameLoaders s { s with mem } := .congr rfl rfl
    have hsame := hmem.trans (sameLoaders_ended (s := { s with mem }) hl hlt)
    cases err with
    | true =>
      rw [if_pos rfl, if_neg (by rw [hlt]; exact Bool.false_ne_true)] at h
      obtain rfl := Option.some.inj h
      exact .kept nofun rfl (.same rfl rfl rfl rfl rfl) hsame .refl
    | false =>
      obtain ⟨m, reply, hcall, ⟨ht, -, -⟩ | ⟨-, rfl⟩⟩ := handOver_cases h
      · exact nomatch hlt.symm.trans ht
      · rw [loaderMessage, if_neg (by rw [hlt]; exact Bool.false_ne_true)] at hcall
        refine .kept nofun rfl (.same rfl rfl rfl rfl rfl) (hsame.trans (.congr rfl rfl))
          (.single ?_ hcall)
        exact show (1 : BitVec 64) ≠ 22 by decide

theorem resumeLoader_deploy {k : Nat} {c : PicoVfs.Completion} (hfresh : s.Fresh)
    (h : resumeLoader port s k c = some s') : DeployStep cfg port s (.fsReply k c) s' := by
  obtain ⟨l, r, hl, hr, ⟨r', -, rfl⟩ | ⟨size, err, -, h⟩⟩ := resumeLoader_cases h
  · have hlive : l.phase.live = true := by
      rw [hr]
      rfl
    have hmem : SameLoaders s { s with mem := ByteMemory.writes s.mem (r.resume c).1 } :=
      .congr rfl rfl
    exact .kept nofun rfl (.same rfl rfl rfl rfl rfl) (hmem.trans (.setPhase hl hlive rfl)) .refl
  · have hlive : l.phase.live = true := by
      rw [hr]
      rfl
    exact finishLoader_deploy hfresh hl hlive h

/-! ### Commands -/

/-- The loader of a targeted deployment is spawned and scheduled. -/
theorem spawnTargeted_deploy {e : Event M} {t : State M} {command : Command}
    (he : e ≠ .notifiedMonitor) (hfresh : s.Fresh) (hpending : s.deployPending = false)
    (htargeted : command.targeted = true) (hl : t.loaders = s.loaders)
    (hn : t.spawned = s.spawned) (hafter : t.deployPending = true) (hm : t.monitor = s.monitor)
    (hclaims : ∀ l, l.command = command → (yield (t.spawnLoader command)).loaders s.spawned =
      some l → Claims cfg s e (yield (t.spawnLoader command))) :
    DeployStep cfg port s e (yield (t.spawnLoader command)) := by
  have ht : SameLoaders s t := .congr hl hn
  have hyield := yield_sameLoaders (t.spawnLoader command)
  obtain ⟨loaders, hframe⟩ := yield_frame (t.spawnLoader command)
  have hspawned : (t.spawnLoader command).loaders s.spawned =
      some { targeted := command.targeted, command } := by
    rw [← hn]
    exact Function.update_self ..
  obtain ⟨l, hload, hcommand⟩ := hyield.commands _ _ hspawned
  refine .begun he hpending ?_ (hclaims l hcommand hload) ?_ (fun k => ?_) ?_ ?_
  · rw [hframe]
    exact hafter
  · exact (ht.commands.trans (.spawnLoader (ht.fresh hfresh) command)).trans hyield.commands
  · rw [hyield.loading, targetedLoading_spawned (ht.fresh hfresh), ht.loading, hn]
    simp [htargeted]
  · exact hyield.fresh (fresh_spawned (ht.fresh hfresh))
  · rw [hframe]
    exact hm

theorem cmdStart_deploy {spawnOk : Bool} {argv : List (List UInt8)} (hfresh : s.Fresh) :
    DeployStep cfg port s (.shell argv spawnOk) (cmdStart s spawnOk argv) := by
  rw [cmdStart]
  split
  · exact .kept nofun rfl (.refl s) (.refl s) .refl
  · dsimp only
    split
    · refine .kept nofun rfl (.same rfl rfl rfl rfl rfl)
        ⟨fun j => ?_, fun _ => fresh_spawned hfresh, .spawnLoader (fun k hk => hfresh k hk) _⟩
        .refl
      refine Iff.trans (targetedLoading_spawned (fun k hk => hfresh k hk) j) ?_
      simp [State.TargetedLoading]
    · exact .kept nofun rfl (.same rfl rfl rfl rfl rfl) (.congr rfl rfl) .refl

theorem cmdDeploy_deploy {spawnOk : Bool} {argv : List (List UInt8)} (hfresh : s.Fresh) :
    DeployStep cfg port s (.shell argv spawnOk) (cmdDeploy cfg s spawnOk argv) := by
  rw [cmdDeploy]
  split
  · exact .kept nofun rfl (.refl s) (.refl s) .refl
  · split
    case isTrue => exact .kept nofun rfl (.refl s) (.refl s) .refl
    case isFalse hpending =>
      rw [Bool.not_eq_true] at hpending
      dsimp only
      split
      · refine spawnTargeted_deploy nofun hfresh hpending rfl rfl rfl rfl rfl
          fun l hcommand hload => ?_
        obtain ⟨loaders, hframe⟩ := yield_frame (M := M) _
        refine .shell ?_ ?_ hload (congrArg Command.container hcommand)
        all_goals
          rw [hframe]
          rfl
      · exact .kept nofun hpending.symm (.of_idle hpending rfl id) (.congr rfl rfl) .refl

theorem orchestratorCriStart_deploy {spawnOk : Bool} {image : List UInt8} {op : BitVec 16}
    {request : CriObject} {result : Option (BitVec 32)}
    (hop : CriOp.ofNumber op = some .startContainer) (hfresh : s.Fresh)
    (h : orchestratorCriStart cfg spawnOk s image request.id = (s', result)) :
    DeployStep cfg port s (.request op request spawnOk) s' := by
  obtain ⟨-, rfl⟩ | ⟨file, hcheck, -, ⟨-, -, rfl⟩ | ⟨slot, hslot, ⟨-, rfl⟩ | ⟨-, rfl⟩⟩⟩ :=
    orchestratorCriStart_cases h
  · exact .kept nofun rfl (.refl _) (.refl _) .refl
  · exact .kept nofun rfl (.same rfl rfl rfl rfl rfl) (.congr rfl rfl) .refl
  all_goals
    have hpending : s.deployPending = false := (Bool.or_eq_false_iff.mp hcheck).1
    obtain ⟨hlt, hfree⟩ := freeSlot_spec hslot
    have hslot32 : slot < 32 := Nat.lt_of_lt_of_le hlt cfg.maxPorts_le
    have hid : (BitVec.ofNat 32 slot).toNat = slot := by
      rw [BitVec.toNat_ofNat]
      omega
  · refine .kept nofun hpending.symm (.of_idle hpending ?_ nofun) (.congr rfl rfl) .refl
    show (s.criSlotsInUse ||| State.slotBit (BitVec.ofNat 32 slot)) &&&
      ~~~State.slotBit (BitVec.ofNat 32 slot) = s.criSlotsInUse
    rw [State.slotBit, hid]
    exact BitMask.or_bit_and_not_bit hslot32 hfree
  · refine spawnTargeted_deploy nofun hfresh hpending rfl rfl rfl rfl rfl fun l hcommand hload => ?_
    obtain ⟨loaders, hframe⟩ := yield_frame (M := M) _
    refine .cri hop ?_ ?_ ?_ ?_ ?_ ?_ hload (congrArg Command.container hcommand)
    all_goals rw [hframe]
    · exact hid.symm ▸ hlt
    · exact hid.symm ▸ hfree
    all_goals rfl

/-- Nothing that concerns the pending deployment has changed. -/
structure SameDeploy (s s' : State M) : Prop where
  loaders : s'.loaders = s.loaders
  spawned : s'.spawned = s.spawned
  pending : s'.deployPending = s.deployPending
  fromCri : s'.deployFromCri = s.deployFromCri
  pcId : s'.deployPcId = s.deployPcId
  peerMask : s'.deployPeerMask = s.deployPeerMask
  peersAll : s'.deployPeersAll = s.deployPeersAll
  slots : s'.criSlotsInUse = s.criSlotsInUse
  monitor : s'.monitor = s.monitor

theorem SameDeploy.sameLoaders (h : SameDeploy s s') : SameLoaders s s' :=
  .congr h.loaders h.spawned

theorem SameClaim.around {s₁ t : State M} (h : SameClaim s₁ t) (h₀ : SameDeploy s s₁)
    (h₁ : SameDeploy t s') : SameClaim s s' where
  slots := by rw [h₁.slots, h.slots, h₀.slots]
  idle hs := h₀.fromCri ▸ h.idle (h₁.fromCri ▸ hs)
  fromCri hs := by rw [h₁.fromCri, h.fromCri (h₀.pending.trans hs), h₀.fromCri]
  pcId hs := by rw [h₁.pcId, h.pcId (h₀.pending.trans hs), h₀.pcId]
  peerMask hs := by rw [h₁.peerMask, h.peerMask (h₀.pending.trans hs), h₀.peerMask]
  peersAll hs := by rw [h₁.peersAll, h.peersAll (h₀.pending.trans hs), h₀.peersAll]

theorem Claims.around {s₁ t : State M} {e : Event M} (h : Claims cfg s₁ e t)
    (h₀ : SameDeploy s s₁) (h₁ : SameDeploy t s') : Claims cfg s e s' := by
  cases h with
  | shell hslots hfromCri hl hcontainer =>
    refine .shell ?_ ?_ (l := _) ?_ hcontainer
    · rw [h₁.slots, hslots, h₀.slots]
    · rw [h₁.fromCri, hfromCri, h₀.fromCri]
    · rw [h₁.loaders, ← h₀.spawned, hl]
  | cri hop hlt hfree hslots hfromCri hmask hall hl hcontainer =>
    refine .cri hop ?_ ?_ ?_ ?_ ?_ ?_ (l := _) ?_ hcontainer
    · rwa [h₁.pcId]
    · rwa [h₁.pcId, ← h₀.slots]
    · rw [h₁.slots, h₁.pcId, hslots, h₀.slots]
    · rw [h₁.fromCri, hfromCri]
    · rw [h₁.peerMask, hmask]
    · rw [h₁.peersAll, hall]
    · rw [h₁.loaders, ← h₀.spawned, hl]

/-- A start with changes around it that do not concern the pending deployment. -/
theorem DeployStep.around {s₁ t : State M} {op : BitVec 16} {request : CriObject} {spawnOk : Bool}
    (hop : CriOp.ofNumber op = some .startContainer)
    (h : DeployStep cfg port s₁ (.request op request spawnOk) t) (h₀ : SameDeploy s s₁)
    (h₁ : SameDeploy t s') : DeployStep cfg port s (.request op request spawnOk) s' := by
  cases h with
  | kept he hpending hclaim hloaders hcalls =>
    refine .kept he ?_ (hclaim.around h₀ h₁) ?_ ?_
    · rw [h₁.pending, hpending, h₀.pending]
    · exact (h₀.sameLoaders.trans hloaders).trans h₁.sameLoaders
    · rwa [h₁.monitor, ← h₀.monitor]
  | stopped hstop => exact nomatch hop.symm.trans hstop
  | begun he hbefore hafter hclaims hcommands hloading hfresh hm =>
    refine .begun he ?_ ?_ (hclaims.around h₀ h₁) ?_ (fun k => ?_) (h₁.sameLoaders.fresh hfresh) ?_
    · rw [← h₀.pending, hbefore]
    · rw [h₁.pending, hafter]
    · exact (h₀.sameLoaders.commands.trans hcommands).trans h₁.sameLoaders.commands
    · rw [h₁.sameLoaders.loading, hloading, h₀.sameLoaders.loading, h₀.spawned]
    · rw [h₁.monitor, hm, h₀.monitor]

theorem processRequest_deploy {spawnOk : Bool} {op : BitVec 16} {request response : CriObject}
    {result : CriResult} (hfresh : s.Fresh)
    (h : processRequest cfg port spawnOk s op request = some (s', response, result)) :
    DeployStep cfg port s (.request op request spawnOk) s' := by
  by_cases hstart : CriOp.ofNumber op = some .startContainer
  · obtain ⟨-, rfl⟩ | ⟨i, hi, rfl⟩ := processRequest_start hstart h
    · exact .kept nofun rfl (.refl _) (.refl _) .refl
    · have hmarked : SameDeploy s { markStarted s i with startAfterReply := none } := by
        rw [markStarted]
        constructor <;> rfl
      have hid : ((markStarted s i).containers i).id = request.id := by
        rw [markStarted]
        dsimp only
        rw [State.setContainer_self]
        exact (find_spec hi).2.2
      obtain ⟨t, ⟨hs, heq⟩ | ⟨pcId, hs, heq⟩⟩ :=
        startAfterReply_cases cfg spawnOk (markStarted s i) i
      all_goals
        rw [heq]
        rw [hid] at hs
        refine DeployStep.around hstart (orchestratorCriStart_deploy hstart
          (hmarked.sameLoaders.fresh hfresh) hs) hmarked ?_
      · exact ⟨rfl, rfl, rfl, rfl, rfl, rfl, rfl, rfl, rfl⟩
      · exact ⟨rfl, rfl, rfl, rfl, rfl, rfl, rfl, rfl, rfl⟩
  · obtain ⟨m, containers, sandboxes, images, nextId, timestamp, hm, rfl⟩ |
        ⟨hop, i, m, hi, hstate, hlt, hm, rfl⟩ := processRequest_slots hstart h
    · exact .kept nofun rfl (.same rfl rfl rfl rfl rfl) (.congr rfl rfl)
        (hm.mono fun _ => CriMessage.quiet)
    · exact .stopped hop hi hstate hlt hm rfl (.same rfl rfl rfl rfl rfl) (.congr rfl rfl)

/-! ### The result -/

theorem takeDeployResult_settled {reply : Message}
    (h : takeDeployResult cfg port s reply = some s') : Settled cfg port s reply s' := by
  obtain ⟨t, ht, rfl⟩ := Option.map_eq_some_iff.mp h
  split at ht
  case isTrue hfromCri =>
    obtain ⟨⟨u, running⟩, hquery, rfl⟩ := Option.map_eq_some_iff.mp ht
    have hslots := settleContainer_slots u ((reply.get 0).truncate 32) (running != some true)
    obtain ⟨containers, timestamp, slots, hframe⟩ :=
      settleContainer_frame u ((reply.get 0).truncate 32) (running != some true)
    have hmonitor : (settleContainer u ((reply.get 0).truncate 32) (running != some true)).monitor =
        u.monitor := by rw [hframe]
    rw [queryDeployed] at hquery
    split at hquery
    case isTrue hlabel =>
      obtain ⟨m, -, rfl⟩ := monitorProtoconIsRunning_frame hquery
      refine .queried running hfromCri hlabel (by rw [hmonitor]; exact hquery) (hslots.trans ?_)
      cases running with
      | none => rfl
      | some running => cases running <;> rfl
    case isFalse hlabel =>
      obtain ⟨rfl, rfl⟩ := Prod.mk.inj (Option.some.inj hquery)
      exact .failed hfromCri hlabel hslots hmonitor
  case isFalse hfromCri =>
    obtain rfl := Option.some.inj ht
    exact .shell (Bool.not_eq_true _ ▸ hfromCri) rfl rfl

theorem notifiedMonitor_deploy (h : notifiedMonitor cfg port s = some s') :
    DeployStep cfg port s .notifiedMonitor s' := by
  rw [notifiedMonitor] at h
  split at h
  case isTrue hpending =>
    obtain ⟨m, reply, hcall, ⟨hlabel, rfl⟩ | ⟨hlabel, h⟩⟩ := printDeployResult_cases h
    · exact .waited hpending hcall hlabel
    · have hsettled := takeDeployResult_settled h
      obtain ⟨m', containers, timestamp, slots, hm, rfl⟩ := takeDeployResult_frame h
      exact .taken hpending hcall hlabel rfl rfl hsettled (.congr rfl rfl)
        (hm.mono fun _ => CriMessage.quiet)
  case isFalse hpending =>
    obtain rfl := Option.some.inj h
    exact .ignored (Bool.not_eq_true _ ▸ hpending)

/-- What any event but a move of the monitor does to the pending deployment. -/
theorem step_deploy {e : Event M} (hfresh : s.Fresh) (he : ∀ m, e ≠ .monitor m)
    (h : step cfg port s e = some s') : DeployStep cfg port s e s' := by
  cases e with
  | shell argv spawnOk =>
    obtain ⟨-, rfl⟩ | ⟨-, rfl⟩ | ⟨m, hm, rfl⟩ := shellExecute_cases h
    · exact cmdStart_deploy hfresh
    · exact cmdDeploy_deploy hfresh
    · exact .kept nofun rfl (.same rfl rfl rfl rfl rfl) (.congr rfl rfl)
        (hm.mono fun _ => ShellMessage.quiet)
  | request op request spawnOk =>
    obtain ⟨⟨s₁, response, result⟩, hreq, rfl⟩ := Option.map_eq_some_iff.mp h
    exact processRequest_deploy hfresh hreq
  | fsReply k c => exact resumeLoader_deploy hfresh h
  | notifiedMonitor => exact notifiedMonitor_deploy h
  | yield =>
    obtain rfl := Option.some.inj h
    obtain ⟨loaders, hframe⟩ := yield_frame s
    have hyield := yield_sameLoaders s
    rw [hframe] at hyield ⊢
    exact .kept nofun rfl (.same rfl rfl rfl rfl rfl) hyield .refl
  | fsMounted | imageProbed =>
    obtain rfl := Option.some.inj h
    exact .kept nofun rfl (.same rfl rfl rfl rfl rfl) (.congr rfl rfl) .refl
  | monitor m => exact absurd rfl (he m)

end

end Orchestrator
end Carrels
