/-
Deployments as the orchestrator sees them (`orchestrator.c`).

A command stores the request in the globals and spawns a loader.  The loader reads the
file into the payload buffer and calls the monitor with what the globals hold by then.
The result of a targeted deployment arrives later, as a notification, and is taken by
`print_deploy_result`.
-/
import Carrels.Lib.Mask
import Carrels.Orchestrator.State

namespace Carrels
namespace Orchestrator

open ByteMemory Monitor

variable {M : Type}

/-! ## Messages

The numbers are those of `carrels-user.h`. -/

def deployMessage (count : BitVec 32) : Message := { mr := [1, count.zeroExtend 64] }

def deployToProtoconMessage (pcId peerMask : BitVec 32) (peersAll : Bool) : Message :=
  { mr := [22, pcId.zeroExtend 64, peerMask.zeroExtend 64, if peersAll then 1 else 0] }

def deployResultMessage : Message := { mr := [23] }

def queryProtoconsMessage : Message := { mr := [10] }

def terminateExtMessage (pcId : BitVec 32) : Message := { mr := [6, pcId.zeroExtend 64] }

/-- The calls of the CRI paths that ask for no deployment. -/
inductive CriMessage : Message → Prop
  | result : CriMessage deployResultMessage
  | query : CriMessage queryProtoconsMessage
  | terminate (pcId : BitVec 32) : CriMessage (terminateExtMessage pcId)

/-! ## Completion of a CRI start -/

def carrelsStarting : List UInt8 := bytes "CarrelsStarting"

def carrelsRunning : List UInt8 := bytes "CarrelsRunning"

def carrelsStartFailed : List UInt8 := bytes "CarrelsStartFailed"

/-- The container `cri_runtime_deploy_complete` settles. -/
def awaitsDeploy (pcId : BitVec 32) (o : CriObject) : Bool :=
  o.present && o.state == 1 && o.networkNs == pcId && o.reason == carrelsStarting

/-- `cri_runtime_deploy_complete` -/
def criRuntimeDeployComplete (s : State M) (pcId : BitVec 32) (failed : Bool) : State M :=
  match (List.range criMaxObjects).find? fun i => awaitsDeploy pcId (s.containers i) with
  | none => s
  | some i =>
    if failed then
      s.tick.setContainer i
        { s.containers i with
          reason := carrelsStartFailed, state := 2, exitCode := 1
          finishedAt := s.timestamp + 1 }
    else s.setContainer i { s.containers i with reason := carrelsRunning }

/-- The end of a CRI start: its container is settled, and its slot is given back when it
failed. -/
def settleContainer (s : State M) (pcId : BitVec 32) (failed : Bool) : State M :=
  let s := criRuntimeDeployComplete s pcId failed
  let s := if failed then s.clearSlot pcId else s
  { s with deployFromCri := false }

theorem settleContainer_failed (s : State M) (pcId : BitVec 32) :
    settleContainer s pcId true =
      { (criRuntimeDeployComplete s pcId true).clearSlot pcId with deployFromCri := false } := rfl

theorem settleContainer_succeeded (s : State M) (pcId : BitVec 32) :
    settleContainer s pcId false =
      { criRuntimeDeployComplete s pcId false with deployFromCri := false } := rfl

theorem awaitsDeploy_iff {pcId : BitVec 32} {o : CriObject} :
    awaitsDeploy pcId o = true ↔
      o.present = true ∧ o.state = 1 ∧ o.networkNs = pcId ∧ o.reason = carrelsStarting := by
  simp [awaitsDeploy, and_assoc]

theorem criRuntimeDeployComplete_cases (s : State M) (pcId : BitVec 32) (failed : Bool) :
    (criRuntimeDeployComplete s pcId failed = s ∧
      ∀ i < criMaxObjects, ¬ awaitsDeploy pcId (s.containers i) = true) ∨
    ∃ i < criMaxObjects, awaitsDeploy pcId (s.containers i) = true ∧
      criRuntimeDeployComplete s pcId failed =
        if failed then
          s.tick.setContainer i
            { s.containers i with
              reason := carrelsStartFailed, state := 2, exitCode := 1
              finishedAt := s.timestamp + 1 }
        else s.setContainer i { s.containers i with reason := carrelsRunning } := by
  rw [criRuntimeDeployComplete]
  split
  case h_1 hnone =>
    exact Or.inl ⟨rfl, fun i hi => List.find?_eq_none.mp hnone i (List.mem_range.mpr hi)⟩
  case h_2 i hsome =>
    have hawaits := List.find?_some hsome
    exact Or.inr ⟨i, List.mem_range.mp (List.mem_of_find?_eq_some hsome), hawaits, rfl⟩

theorem criRuntimeDeployComplete_frame (s : State M) (pcId : BitVec 32) (failed : Bool) :
    ∃ containers timestamp,
      criRuntimeDeployComplete s pcId failed = { s with containers, timestamp } := by
  obtain ⟨hsame, -⟩ | ⟨i, -, -, hset⟩ := criRuntimeDeployComplete_cases s pcId failed
  · exact ⟨s.containers, s.timestamp, hsame⟩
  · rw [hset]
    split <;> exact ⟨_, _, rfl⟩

theorem settleContainer_frame (s : State M) (pcId : BitVec 32) (failed : Bool) :
    ∃ containers timestamp criSlotsInUse,
      settleContainer s pcId failed =
        { s with containers, timestamp, criSlotsInUse, deployFromCri := false } := by
  obtain ⟨containers, timestamp, h⟩ := criRuntimeDeployComplete_frame s pcId failed
  refine ⟨containers, timestamp, (settleContainer s pcId failed).criSlotsInUse, ?_⟩
  cases failed <;> rw [settleContainer, h] <;> rfl

/-! ## Loaders -/

/-- What `load_targeted_elf_payload` does when it has no image to hand over, and when
the monitor rejects it. -/
def abandonDeploy (s : State M) : State M :=
  let s := if s.deployFromCri then settleContainer s s.deployPcId true else s
  { s with deployPending := false }

theorem abandonDeploy_frame (s : State M) :
    ∃ containers timestamp criSlotsInUse,
      abandonDeploy s = { s with
        containers, timestamp, criSlotsInUse, deployFromCri := false, deployPending := false } := by
  rw [abandonDeploy]
  cases hfrom : s.deployFromCri with
  | true =>
    obtain ⟨containers, timestamp, slots, h⟩ := settleContainer_frame s s.deployPcId true
    refine ⟨containers, timestamp, slots, ?_⟩
    rw [if_pos rfl, h]
  | false =>
    refine ⟨s.containers, s.timestamp, s.criSlotsInUse, ?_⟩
    rw [if_neg Bool.false_ne_true, ← hfrom]

/-- The deploy call of loader `l`: `DEPLOY_TO_PROTOCON` or `DEPLOY`, with the arguments
the globals hold. -/
def loaderMessage (s : State M) (l : Loader) : Message :=
  if l.targeted then deployToProtoconMessage s.deployPcId s.deployPeerMask s.deployPeersAll
  else deployMessage s.reqPcNum

/-- The deploy call of loader `l` is recorded. -/
def recordIssue (s : State M) (l : Loader) : State M :=
  { s with
    issued := { command := l.command, message := loaderMessage s l, buffer := s.mem } :: s.issued }

/-- The end of a loader that has an image to hand over. -/
def handOver (port : Port M) (s : State M) (l : Loader) : Option (State M) := do
  let (s, reply) ← (recordIssue s l).ppcall port (loaderMessage s l)
  if l.targeted && reply.label != .noError then some (abandonDeploy s) else some s

/-- The end of a loader whose `pico_vfs_readfile2buf` has returned. -/
def finishLoader (port : Port M) (s : State M) (k : Nat) (l : Loader) (err : Bool) :
    Option (State M) :=
  let s := s.setPhase k .ended
  if err then some (if l.targeted then abandonDeploy s else s) else handOver port s l

/-- The deploy call is made; a targeted one may be rejected. -/
theorem handOver_cases {port : Port M} {s s' : State M} {l : Loader}
    (h : handOver port s l = some s') :
    ∃ m reply, port.call s.monitor (loaderMessage s l) = some (m, reply) ∧
      ((l.targeted = true ∧ reply.label ≠ .noError ∧
        s' = abandonDeploy { recordIssue s l with monitor := m }) ∨
      ((l.targeted = true → reply.label = .noError) ∧
        s' = { recordIssue s l with monitor := m })) := by
  obtain ⟨⟨s₁, reply⟩, hcall, h⟩ := Option.bind_eq_some_iff.mp h
  obtain ⟨m, hm, rfl⟩ := State.ppcall_frame hcall
  refine ⟨m, reply, hm, ?_⟩
  dsimp only at h
  split at h
  case isTrue hc =>
    obtain ⟨ht, hlabel⟩ := Bool.and_eq_true_iff.mp hc
    exact Or.inl ⟨ht, bne_iff_ne.mp hlabel, (Option.some.inj h).symm⟩
  case isFalse hc =>
    refine Or.inr ⟨fun ht => ?_, (Option.some.inj h).symm⟩
    simpa [ht] using hc

/-- A loader that is scheduled: it leaves the wait for `fs_init` and opens the file
`fname_buf` names. -/
def startLoader (s : State M) (k : Nat) : State M :=
  match s.loaders k with
  | none => s
  | some l =>
    match l.phase with
    | .ready =>
      if s.fsInit then s.setPhase k (.reading (.start s.fnameBuf shared2)) else s
    | _ => s

/-- `microkit_cothread_yield`: every loader that is ready runs. -/
def yield (s : State M) : State M := (List.range s.spawned).foldl startLoader s

theorem startLoader_frame (s : State M) (k : Nat) :
    ∃ loaders, startLoader s k = { s with loaders } := by
  rw [startLoader]
  split
  · exact ⟨s.loaders, rfl⟩
  · split
    · split
      · exact ⟨_, rfl⟩
      · exact ⟨s.loaders, rfl⟩
    · exact ⟨s.loaders, rfl⟩

theorem yield_frame (s : State M) : ∃ loaders, yield s = { s with loaders } := by
  rw [yield]
  induction List.range s.spawned generalizing s with
  | nil => exact ⟨s.loaders, rfl⟩
  | cons k ks ih =>
    obtain ⟨loaders, h⟩ := startLoader_frame s k
    obtain ⟨loaders', h'⟩ := ih (startLoader s k)
    refine ⟨loaders', ?_⟩
    rw [List.foldl_cons, h', h]

/-- The reply to the command loader `k` is blocked in. -/
def resumeLoader (port : Port M) (s : State M) (k : Nat) (c : PicoVfs.Completion) :
    Option (State M) :=
  match s.loaders k with
  | none => none
  | some l =>
    match l.phase with
    | .reading r =>
      let (stores, outcome) := r.resume c
      let s := { s with mem := writes s.mem stores }
      match outcome with
      | .waiting r => some (s.setPhase k (.reading r))
      | .returned _ err => finishLoader port s k l err
      | .asserted => none
    | _ => none

theorem resumeLoader_cases {port : Port M} {s s' : State M} {k : Nat} {c : PicoVfs.Completion}
    (h : resumeLoader port s k c = some s') :
    ∃ l r, s.loaders k = some l ∧ l.phase = .reading r ∧
      ((∃ r', (r.resume c).2 = .waiting r' ∧
        s' = { s with mem := writes s.mem (r.resume c).1 }.setPhase k (.reading r')) ∨
      ∃ size err, (r.resume c).2 = .returned size err ∧
        finishLoader port { s with mem := writes s.mem (r.resume c).1 } k l err = some s') := by
  rw [resumeLoader] at h
  split at h
  case h_1 => cases h
  case h_2 l hl =>
    split at h
    case h_1 r hr =>
      refine ⟨l, r, hl, hr, ?_⟩
      dsimp only at h
      split at h
      case h_1 r' hout => exact Or.inl ⟨r', hout, (Option.some.inj h).symm⟩
      case h_2 size err hout => exact Or.inr ⟨size, err, hout, h⟩
      case h_3 => cases h
    case h_2 => cases h

/-! ## The monitor's answers -/

/-- `monitor_protocon_is_running`; `none` inside is its error return. -/
def monitorProtoconIsRunning (cfg : Config) (port : Port M) (s : State M) (pcId : BitVec 32) :
    Option (State M × Option Bool) :=
  if cfg.maxPorts ≤ pcId.toNat then some (s, none)
  else do
    let (s, reply) ← s.ppcall port queryProtoconsMessage
    if reply.label ≠ .noError then some (s, none)
    else some (s, some ((reply.get 0 &&& 1#64 <<< pcId.toNat) != 0))

/-- The query of `print_deploy_result`, which asks only after a successful result. -/
def queryDeployed (cfg : Config) (port : Port M) (s : State M) (pcId : BitVec 32)
    (error : PcMonitorError) : Option (State M × Option Bool) :=
  if error = .noError then monitorProtoconIsRunning cfg port s pcId else some (s, none)

/-- The CRI part of `print_deploy_result`. -/
def settleCri (cfg : Config) (port : Port M) (s : State M) (pcId : BitVec 32)
    (error : PcMonitorError) : Option (State M) :=
  (queryDeployed cfg port s pcId error).map fun (s, running) =>
    settleContainer s pcId (running != some true)

/-- `print_deploy_result` on a result. -/
def takeDeployResult (cfg : Config) (port : Port M) (s : State M) (reply : Message) :
    Option (State M) :=
  (if s.deployFromCri then settleCri cfg port s ((reply.get 0).truncate 32) reply.label
    else some s).map fun s => { s with deployPending := false }

/-- `print_deploy_result` -/
def printDeployResult (cfg : Config) (port : Port M) (s : State M) : Option (State M) := do
  let (s, reply) ← s.ppcall port deployResultMessage
  if reply.label = .deployInProgress then some s else takeDeployResult cfg port s reply

theorem printDeployResult_cases {cfg : Config} {port : Port M} {s s' : State M}
    (h : printDeployResult cfg port s = some s') :
    ∃ m reply, port.call s.monitor deployResultMessage = some (m, reply) ∧
      ((reply.label = .deployInProgress ∧ s' = { s with monitor := m }) ∨
      (reply.label ≠ .deployInProgress ∧
        takeDeployResult cfg port { s with monitor := m } reply = some s')) := by
  obtain ⟨⟨s₁, reply⟩, hcall, h⟩ := Option.bind_eq_some_iff.mp h
  obtain ⟨m, hm, rfl⟩ := State.ppcall_frame hcall
  refine ⟨m, reply, hm, ?_⟩
  dsimp only at h
  split at h
  case isTrue hlabel => exact Or.inl ⟨hlabel, (Option.some.inj h).symm⟩
  case isFalse hlabel => exact Or.inr ⟨hlabel, h⟩

/-- `notified` on the monitor's channel. -/
def notifiedMonitor (cfg : Config) (port : Port M) (s : State M) : Option (State M) :=
  if s.deployPending then printDeployResult cfg port s else some s

theorem monitorProtoconIsRunning_frame {cfg : Config} {port : Port M} {s s' : State M}
    {pcId : BitVec 32} {running : Option Bool}
    (h : monitorProtoconIsRunning cfg port s pcId = some (s', running)) :
    ∃ m, port.Calls CriMessage s.monitor m ∧ s' = { s with monitor := m } := by
  rw [monitorProtoconIsRunning] at h
  split at h
  · obtain ⟨rfl, -⟩ := Prod.mk.inj (Option.some.inj h)
    exact ⟨s.monitor, .refl, rfl⟩
  · obtain ⟨⟨s₁, reply⟩, hcall, h⟩ := Option.bind_eq_some_iff.mp h
    obtain ⟨m, hm, rfl⟩ := State.ppcall_frame hcall
    refine ⟨m, .single .query hm, ?_⟩
    dsimp only at h
    split at h <;> exact (Prod.mk.inj (Option.some.inj h)).1.symm

/-- The monitor has answered that the protocon is not running. -/
theorem monitorProtoconIsRunning_false {cfg : Config} {port : Port M} {s s' : State M}
    {pcId : BitVec 32} (h : monitorProtoconIsRunning cfg port s pcId = some (s', some false)) :
    ∃ m answer, port.call s.monitor queryProtoconsMessage = some (m, answer) ∧
      answer.label = .noError ∧ answer.get 0 &&& 1#64 <<< pcId.toNat = 0 ∧
      s' = { s with monitor := m } := by
  rw [monitorProtoconIsRunning] at h
  split at h
  case isTrue => exact absurd (Prod.mk.inj (Option.some.inj h)).2 (by simp)
  case isFalse =>
    obtain ⟨⟨s₁, reply⟩, hcall, h⟩ := Option.bind_eq_some_iff.mp h
    obtain ⟨m, hm, rfl⟩ := State.ppcall_frame hcall
    dsimp only at h
    split at h
    case isTrue => exact absurd (Prod.mk.inj (Option.some.inj h)).2 (by simp)
    case isFalse hlabel =>
      obtain ⟨hs, hbit⟩ := Prod.mk.inj (Option.some.inj h)
      exact ⟨m, reply, hm, not_not.mp hlabel, by simpa using hbit, hs.symm⟩

theorem queryDeployed_frame {cfg : Config} {port : Port M} {s s' : State M} {pcId : BitVec 32}
    {error : PcMonitorError} {running : Option Bool}
    (h : queryDeployed cfg port s pcId error = some (s', running)) :
    ∃ m, port.Calls CriMessage s.monitor m ∧ s' = { s with monitor := m } := by
  rw [queryDeployed] at h
  split at h
  · exact monitorProtoconIsRunning_frame h
  · exact ⟨s.monitor, .refl, (Prod.mk.inj (Option.some.inj h)).1.symm⟩

/-- The CRI part of a result: the monitor moves, and the container is settled. -/
theorem settleCri_cases {cfg : Config} {port : Port M} {s s' : State M} {pcId : BitVec 32}
    {error : PcMonitorError} (h : settleCri cfg port s pcId error = some s') :
    ∃ m failed, port.Calls CriMessage s.monitor m ∧
      s' = settleContainer { s with monitor := m } pcId failed := by
  obtain ⟨⟨s₁, running⟩, hquery, rfl⟩ := Option.map_eq_some_iff.mp h
  obtain ⟨m, hm, rfl⟩ := queryDeployed_frame hquery
  exact ⟨m, _, hm, rfl⟩

theorem takeDeployResult_frame {cfg : Config} {port : Port M} {s s' : State M} {reply : Message}
    (h : takeDeployResult cfg port s reply = some s') :
    ∃ m containers timestamp criSlotsInUse, port.Calls CriMessage s.monitor m ∧
      s' = { s with
        monitor := m, containers, timestamp, criSlotsInUse
        deployFromCri := false, deployPending := false } := by
  obtain ⟨s₁, hs₁, rfl⟩ := Option.map_eq_some_iff.mp h
  split at hs₁
  case isTrue =>
    obtain ⟨m, failed, hm, rfl⟩ := settleCri_cases hs₁
    obtain ⟨containers, timestamp, slots, hframe⟩ :=
      settleContainer_frame { s with monitor := m } ((reply.get 0).truncate 32) failed
    refine ⟨m, containers, timestamp, slots, hm, ?_⟩
    rw [hframe]
  case isFalse hfrom =>
    obtain rfl := Option.some.inj hs₁
    refine ⟨s.monitor, s.containers, s.timestamp, s.criSlotsInUse, .refl, ?_⟩
    rw [← Bool.eq_false_iff.mpr hfrom]

/-! ## CRI start and stop -/

/-- `image_to_filename` -/
def imageToFilename (image : List UInt8) : Option (List UInt8) :=
  if image = k8sCHelloImage ∨ image = k8sCHelloImageRef then some k8sCHelloFile else none

/-- `orchestrator_cri_image_exists` -/
def orchestratorCriImageExists (s : State M) (image : List UInt8) : Bool :=
  (image == k8sCHelloImage || image == k8sCHelloImageRef) && s.criCHelloAvailable

/-- The first slot that is not in use. -/
def freeSlot (cfg : Config) (s : State M) : Option Nat :=
  (List.range cfg.maxPorts).find? fun id => s.criSlotsInUse &&& 1#32 <<< id = 0

theorem freeSlot_spec {cfg : Config} {s : State M} {slot : Nat} (h : freeSlot cfg s = some slot) :
    slot < cfg.maxPorts ∧ ¬ BitMask.Has s.criSlotsInUse slot := by
  have hlt := List.mem_range.mp (List.mem_of_find?_eq_some h)
  refine ⟨hlt, (BitMask.and_bit_eq_zero_iff _ _).mp ?_⟩
  simpa using List.find?_some h

/-- The request of a CRI start, with its slot taken. -/
def State.claimSlot (s : State M) (id : BitVec 32) : State M :=
  { s.setSlot id with
    deployPcId := id, deployPeerMask := 0, deployPeersAll := false
    deployPending := true, deployFromCri := true }

/-- `orchestrator_cri_start` for container `owner`; the result is the slot, or `none` for
its error return. -/
def orchestratorCriStart (cfg : Config) (spawnOk : Bool) (s : State M) (image : List UInt8)
    (owner : List UInt8) : State M × Option (BitVec 32) :=
  if s.deployPending || !orchestratorCriImageExists s image then (s, none)
  else
    match imageToFilename image with
    | none => (s, none)
    | some file =>
      let s := { s with fnameBuf := file }
      match freeSlot cfg s with
      | none => (s, none)
      | some slot =>
        let id := BitVec.ofNat 32 slot
        let s := s.claimSlot id
        if spawnOk then
          (yield (s.spawnLoader { targeted := true, file, pcId := id, container := some owner }),
            some id)
        else ({ s.clearSlot id with deployPending := false, deployFromCri := false }, none)

/-- The state before a CRI start spawns its loader. -/
def criRequest (s : State M) (file : List UInt8) (slot : Nat) : State M :=
  { s with fnameBuf := file }.claimSlot (BitVec.ofNat 32 slot)

/-- What a CRI start does: it is turned away, finds no slot, cannot spawn a loader and
gives its slot back, or spawns one. -/
theorem orchestratorCriStart_cases {cfg : Config} {spawnOk : Bool} {s s' : State M}
    {image owner : List UInt8} {result : Option (BitVec 32)}
    (h : orchestratorCriStart cfg spawnOk s image owner = (s', result)) :
    (result = none ∧ s' = s) ∨
    ∃ file, (s.deployPending || !orchestratorCriImageExists s image) = false ∧
      imageToFilename image = some file ∧
      ((result = none ∧ freeSlot cfg s = none ∧ s' = { s with fnameBuf := file }) ∨
      ∃ slot, freeSlot cfg s = some slot ∧
        ((result = none ∧ s' = { (criRequest s file slot).clearSlot (BitVec.ofNat 32 slot) with
            deployPending := false, deployFromCri := false }) ∨
        (result = some (BitVec.ofNat 32 slot) ∧
          s' = yield ((criRequest s file slot).spawnLoader
            { targeted := true, file, pcId := BitVec.ofNat 32 slot, container := some owner })))) := by
  rw [orchestratorCriStart] at h
  split at h
  case isTrue =>
    obtain ⟨rfl, rfl⟩ := Prod.mk.inj h
    exact Or.inl ⟨rfl, rfl⟩
  case isFalse hcheck =>
    split at h
    case h_1 =>
      obtain ⟨rfl, rfl⟩ := Prod.mk.inj h
      exact Or.inl ⟨rfl, rfl⟩
    case h_2 file hfile =>
      refine Or.inr ⟨file, Bool.eq_false_iff.mpr hcheck, hfile, ?_⟩
      dsimp only at h
      split at h
      case h_1 hslot =>
        obtain ⟨rfl, rfl⟩ := Prod.mk.inj h
        exact Or.inl ⟨rfl, hslot, rfl⟩
      case h_2 slot hslot =>
        refine Or.inr ⟨slot, hslot, ?_⟩
        split at h
        · obtain ⟨rfl, rfl⟩ := Prod.mk.inj h
          exact Or.inr ⟨rfl, rfl⟩
        · obtain ⟨rfl, rfl⟩ := Prod.mk.inj h
          exact Or.inl ⟨rfl, rfl⟩

/-- `orchestrator_cri_stop`; the result is `true` on success. -/
def orchestratorCriStop (cfg : Config) (port : Port M) (s : State M) (pcId : BitVec 32) :
    Option (State M × Bool) :=
  if cfg.maxPorts ≤ pcId.toNat ∨ s.criSlotsInUse &&& State.slotBit pcId = 0 then some (s, false)
  else do
    let (s, reply) ← s.ppcall port (terminateExtMessage pcId)
    if reply.label ≠ .noError then some (s, false)
    else
      let (s, running) ← monitorProtoconIsRunning cfg port s pcId
      if running = some false then some (s.clearSlot pcId, true) else some (s, false)

/-- The stop of protocon `pcId` that succeeds, in the monitor. -/
structure StoppedBy (port : Port M) (pcId : BitVec 32) (m m' : M) : Prop where
  terminated : ∃ m₁ reply, port.call m (terminateExtMessage pcId) = some (m₁, reply) ∧
    reply.label = .noError ∧
    ∃ answer, port.call m₁ queryProtoconsMessage = some (m', answer) ∧
      answer.label = .noError ∧ answer.get 0 &&& 1#64 <<< pcId.toNat = 0

theorem StoppedBy.calls {port : Port M} {pcId : BitVec 32} {m m' : M}
    (h : StoppedBy port pcId m m') : port.Calls CriMessage m m' := by
  obtain ⟨m₁, reply, hcall, -, answer, hquery, -, -⟩ := h.terminated
  exact (Port.Calls.single (.terminate pcId) hcall).trans (Port.Calls.single .query hquery)

/-- What a CRI stop does: it fails and only the monitor has moved, or it succeeds and the
slot is given back. -/
theorem orchestratorCriStop_cases {cfg : Config} {port : Port M} {s s' : State M}
    {pcId : BitVec 32} {stopped : Bool}
    (h : orchestratorCriStop cfg port s pcId = some (s', stopped)) :
    (stopped = false ∧ ∃ m, port.Calls CriMessage s.monitor m ∧ s' = { s with monitor := m }) ∨
    (stopped = true ∧ pcId.toNat < cfg.maxPorts ∧ ∃ m, StoppedBy port pcId s.monitor m ∧
      s' = { s with monitor := m }.clearSlot pcId) := by
  rw [orchestratorCriStop] at h
  split at h
  case isTrue =>
    obtain ⟨rfl, rfl⟩ := Prod.mk.inj (Option.some.inj h)
    exact Or.inl ⟨rfl, s.monitor, .refl, rfl⟩
  case isFalse hcheck =>
    have hlt : pcId.toNat < cfg.maxPorts := Nat.lt_of_not_le fun hle => hcheck (Or.inl hle)
    obtain ⟨⟨s₁, reply⟩, hcall, h⟩ := Option.bind_eq_some_iff.mp h
    obtain ⟨m₁, hm₁, rfl⟩ := State.ppcall_frame hcall
    have hterminate : port.Calls CriMessage s.monitor m₁ := .single (.terminate pcId) hm₁
    dsimp only at h
    split at h
    case isTrue =>
      obtain ⟨rfl, rfl⟩ := Prod.mk.inj (Option.some.inj h)
      exact Or.inl ⟨rfl, m₁, hterminate, rfl⟩
    case isFalse hlabel =>
      obtain ⟨⟨s₂, running⟩, hrun, h⟩ := Option.bind_eq_some_iff.mp h
      dsimp only at h
      split at h
      case isTrue hfalse =>
        obtain ⟨m, answer, hm, hok, hbit, rfl⟩ := monitorProtoconIsRunning_false (hfalse ▸ hrun)
        obtain ⟨rfl, rfl⟩ := Prod.mk.inj (Option.some.inj h)
        exact Or.inr ⟨rfl, hlt, m,
          ⟨m₁, reply, hm₁, not_not.mp hlabel, answer, hm, hok, hbit⟩, rfl⟩
      case isFalse =>
        obtain ⟨m, hm, rfl⟩ := monitorProtoconIsRunning_frame hrun
        obtain ⟨rfl, rfl⟩ := Prod.mk.inj (Option.some.inj h)
        exact Or.inl ⟨rfl, m, hterminate.trans hm, rfl⟩

end Orchestrator
end Carrels
