/-
The monitor as a state machine (`mcall.c`, `entry.c`, `init/minit.c`).

An event is what the monitor handles in one go: a protected call, a fault of a child,
the completion of a file-system command, or a rewrite of the payload region by the
orchestrator between two of these.  A step is `none` when the event cannot happen or
the monitor halts in it.
-/
import Carrels.Lib.Run
import Carrels.Monitor.Control
import Carrels.Monitor.Deploy
import Carrels.Monitor.Registry

namespace Carrels
namespace Monitor

open ByteMemory

/-! ## Calls -/

/-- The calls of `carrels-user.h`. -/
inductive CallId
  | deploy | suspend | resume | listProtocons | terminateExt | queryProtocons | flipAclRule
  | setVswitchAcl | backupContext | terminate | deployToProtocon | deployResult
  deriving DecidableEq

/-- The `PC_MONITOR_CALL_*` number of a call. -/
def CallId.number : CallId → BitVec 64
  | .deploy => 1
  | .suspend => 3
  | .resume => 4
  | .listProtocons => 5
  | .terminateExt => 6
  | .queryProtocons => 10
  | .flipAclRule => 17
  | .setVswitchAcl => 18
  | .backupContext => 20
  | .terminate => 21
  | .deployToProtocon => 22
  | .deployResult => 23

/-- The case of the dispatcher's switch. -/
def CallId.ofNumber (n : BitVec 64) : Option CallId :=
  [.deploy, .suspend, .resume, .listProtocons, .terminateExt, .queryProtocons, .flipAclRule,
    .setVswitchAcl, .backupContext, .terminate, .deployToProtocon, .deployResult].find?
      fun c => c.number == n

theorem CallId.ofNumber_number (c : CallId) : ofNumber c.number = some c := by
  cases c <;> decide

/-- The id `PC_MONITOR_CALL_TERMINATE_EXT` acts on: the argument, or the caller's own id
on a protocon's channel. -/
def terminateExtTarget (ch : BitVec 32) (arg : BitVec 64) : BitVec 32 :=
  if 24 ≤ ch then monitorGetPcidFromCh ch else arg.truncate 32

/-- `monitor_main_handle_pccall` -/
def monitorMainHandlePccall (P : Platform) (env : Env) (s : State) (ch : BitVec 32)
    (msg : Message) : Option (State × Message) :=
  match CallId.ofNumber (msg.get 0) with
  | some .deploy => monitorCallDeployFirstHalf P env s (msg.get 1)
  | some .deployToProtocon =>
    monitorCallDeployToProtocon P env s (msg.get 1) (msg.get 2) (msg.get 3)
  | some .deployResult => some (monitorCallDeployResult s)
  | some .flipAclRule => some ({ s with pdIoAclRule := !s.pdIoAclRule }, {})
  | some .setVswitchAcl =>
    some (monitorCallSetVswitchAcl s env (msg.get 1).toNat (msg.get 2).toNat (msg.get 3).toNat)
  | some .backupContext => monitorCallBackupProtoconLoadingContext s ch
  | some .terminate => monitorCallStopAndRestoreProtocon P env s (ch - protoconBaseChannel)
  | some .suspend => monitorCallSuspendProtocon P s ((msg.get 1).truncate 32)
  | some .resume => monitorCallResumeProtocon P s ((msg.get 1).truncate 32)
  | some .listProtocons => some (monitorCallListProtocons s)
  | some .queryProtocons => some (monitorCallQueryProtocons s ch)
  | some .terminateExt =>
    monitorCallStopAndRestoreProtocon P env s (terminateExtTarget ch (msg.get 1))
  | none => some (s, {})

/-! ## Events -/

inductive Event
  /-- A protected call on a channel. -/
  | call (ch : BitVec 32) (msg : Message) (env : Env)
  /-- A fault of a child: its label, instruction pointer and address. -/
  | fault (child : Nat) (label : FaultLabel) (ip address : BitVec 64)
  /-- The completion of the command cothread `id` is blocked in. -/
  | resume (id : Nat) (c : PicoVfs.Completion) (env : Env)
  /-- The orchestrator rewrites the payload region. -/
  | payload (f : Nat → UInt8)

/-- What the outside answers during an event. -/
def Event.env : Event → Env
  | .call _ _ env => env
  | .resume _ _ env => env
  | _ => {}

/-- The channels calls arrive on: the orchestrator's, and those of the protocons. -/
def Platform.callChannel (P : Platform) (ch : BitVec 32) : Bool :=
  ch == orchestratorChannel ||
    (List.range P.numPc).any fun i => ch == protoconBaseChannel + BitVec.ofNat 32 i

/-- The orchestrator's writes to the region it shares with the monitor. -/
def State.writePayload (s : State) (f : Nat → UInt8) : State :=
  { s with mem := overlay s.mem payloadStart orcMonitorRegionSize f }

/-- One event. -/
def step (P : Platform) (s : State) : Event → Option State
  | .call ch msg env =>
    if P.callChannel ch then (monitorMainHandlePccall P env s ch msg).map (·.1) else none
  | .fault child label ip address =>
    if child < P.numPc then monitorMainHandleFault P s child label ip address else none
  | .resume id c env => resumeCothread P env s id c
  | .payload f => some (s.writePayload f)

/-! ## Initialisation -/

/-- `ca_monitor_init_protocon_states`, for the ids that are left. -/
def caMonitorInitProtoconStates (s : State) : List Nat → State
  | [] => s
  | i :: rest =>
    caMonitorInitProtoconStates ((monitorMainLoadTrustedlo s i).setProtoconAsAvailable i) rest

/-- `ca_monitor_init_states`, from the memory that the files have been read into. -/
def caMonitorInitStates (P : Platform) : State :=
  monitorAclInitialise (caMonitorInitProtoconStates { mem := P.storage } (List.range P.numPc))
    P.numPc

/-- What initialisation makes of the files: the quotas come from the service table `svc`, and
there are as many protocons as records in the delegation table. -/
structure Platform.Initialised (P : Platform) (svc : Svc) : Prop where
  services : svcParse P.storage svcTableBase = some svc
  registry : serviceRegistryCreate P.storage (some svc) (fun _ => {}) P.numPc =
    some P.resourceQuota
  delegators : ∃ dlg, dlgParse P.storage dlgTableBase = some dlg ∧ dlg.delegators = P.dlg
  numPc : P.numPc = P.dlg.length

namespace Platform.Initialised

variable {P : Platform} {svc : Svc}

theorem resourceQuota_eq (h : P.Initialised svc) :
    P.resourceQuota = refsOf P.storage svc.services := by
  have hregistry := h.registry
  rw [serviceRegistryCreate_eq, Option.ite_none_left_eq_some, Option.some_inj] at hregistry
  exact hregistry.2.symm

/-- A service that the planner can find is a record of the table. -/
theorem mem_services (h : P.Initialised svc) {pcId type i source : Nat}
    (href : (P.resourceQuota pcId).availServiceRefs type i = some source) :
    source ∈ svc.services := by
  rw [h.resourceQuota_eq] at href
  have hmem : source ∈ (recordsFor P.storage svc.services pcId type).take svcPerTypeMaxNum :=
    List.mem_of_getElem? href
  exact (List.mem_filter.mp (List.mem_of_mem_take hmem)).1

/-- The records lie in the tables. -/
theorem svcTableBase_le (h : P.Initialised svc) {p : Nat} (hp : p ∈ svc.services) :
    svcTableBase ≤ p := by
  obtain ⟨-, -, -, -, -, hchain, -⟩ := svcParse_eq_some.mp h.services
  obtain ⟨-, -, hle, -⟩ := hchain.mem hp
  exact Nat.le_trans (Nat.le_add_right _ _) hle

theorem dlgTableBase_le (h : P.Initialised svc) {p : Nat} (hp : p ∈ P.dlg) :
    dlgTableBase ≤ p := by
  obtain ⟨dlg, hparse, hdlg⟩ := h.delegators
  obtain ⟨-, -, -, -, -, -, hchain⟩ := dlgParse_eq_some.mp hparse
  obtain ⟨-, -, hle, -⟩ := hchain.mem (hdlg ▸ hp)
  exact Nat.le_trans (Nat.le_add_right _ _) hle

end Platform.Initialised

/-- The state `s` with other lifecycle states, memory and loads. -/
def State.withProtocons (s : State) (lifecycle : Nat → Lifecycle) (mem : Mem)
    (loads : List Nat) : State :=
  { s with lifecycle, mem, loads }

/-- Initialisation makes the protocons of the list available. -/
theorem caMonitorInitProtoconStates_frame (s : State) (ids : List Nat) :
    ∃ m, caMonitorInitProtoconStates s ids =
      s.withProtocons (fun i => if i ∈ ids then .passive else s.lifecycle i) m
        (ids.reverse ++ s.loads) := by
  induction ids generalizing s with
  | nil => exact ⟨s.mem, by simp [caMonitorInitProtoconStates, State.withProtocons]⟩
  | cons i rest ih =>
      obtain ⟨m, hm⟩ := ih ((monitorMainLoadTrustedlo s i).setProtoconAsAvailable i)
      refine ⟨m, ?_⟩
      rw [caMonitorInitProtoconStates, hm]
      have hl : (fun j => if j ∈ rest then Lifecycle.passive
            else Function.update s.lifecycle i .passive j) =
          fun j => if j ∈ i :: rest then Lifecycle.passive else s.lifecycle j := by
        funext j
        by_cases hj : j = i
        · subst hj
          simp
        · simp [hj]
      have hr : rest.reverse ++ i :: s.loads = (i :: rest).reverse ++ s.loads := by simp
      rw [← hl, ← hr]
      simp only [State.withProtocons, State.setProtoconAsAvailable, State.setLifecycleState,
        monitorMainLoadTrustedlo]

theorem caMonitorInitStates_eq (P : Platform) :
    ∃ m, caMonitorInitStates P =
      { lifecycle := fun i => if i < P.numPc then .passive else .unset
        monitoredProtoconCount := P.numPc
        mem := m
        loads := (List.range P.numPc).reverse } := by
  obtain ⟨m, hm⟩ := caMonitorInitProtoconStates_frame { mem := P.storage } (List.range P.numPc)
  refine ⟨m, ?_⟩
  rw [caMonitorInitStates, hm]
  simp [monitorAclInitialise, State.withProtocons, List.mem_range]

/-! ## A small system

A platform with two protocons and a payload with one service, which the examples of
runs below share.  `tcbs` is the number of slots that hold a TCB. -/

/-- The delegation table of two protocons without resources. -/
def smallDelegations : List UInt8 :=
  dlgMagic ++ toLE 2 4 ++ toLE 48 4 ++ (toLE 16 2 ++ toLE 0 6 ++ toLE 0 8) ++
    (toLE 16 2 ++ toLE 0 6 ++ toLE 1 8)

/-- Each protocon has a service of type 0.  That of protocon 0 has a notification, a resource of
no known kind and a mapping. -/
def smallRecords : List (List UInt8) :=
  [recordOf 0 0 (bytes "data.bin") [(1, 7), (9, 8), (3, 9)], recordOf 1 0 (bytes "data.bin")]

/-- The tables, and a symbol bundle of four bytes for each protocon. -/
def smallStorage : Mem :=
  writes (fun _ => 0)
    [(svcTableBase, tableOf smallRecords), (dlgTableBase, smallDelegations),
      (mktsymbSlot 0, [1, 2, 3, 4]), (mktsymbSlot 1, [1, 2, 3, 4])]

def smallServices : Svc where
  version := 1
  serviceCount := 2
  totalSize := 107
  services := [svcTableBase + 20, svcTableBase + 77]

def smallPlatform (tcbs : Nat) : Platform where
  numPc := 2
  numPc_le := by decide
  hasTcb i := i < tcbs
  storage := smallStorage
  dlg := [dlgTableBase + 16, dlgTableBase + 32]
  resourceQuota := refsOf smallStorage smallServices.services
  symBundle m p := (List.range 4).map fun i => m (mktsymbSlot p + i)
  symBundle_congr h := by
    refine List.map_congr_left fun i hi => h _ (Nat.le_add_right _ _) ?_
    have hlt := List.mem_range.mp hi
    unfold mktsymbSlotSize
    omega
  -- The magic number and the reserved word come first; their values play no role.
  imageHeader h := List.replicate 16 0 ++ toLE h.mktsymbOffset.toNat 8 ++
    toLE h.mktsymbSize.toNat 8 ++ (toLE h.elfOffset.toNat 8 ++ toLE h.elfSize.toNat 8)
  imageHeaderSize := 48
  length_imageHeader h := by simp [length_toLE]
  imageElfOffset m a := read64 m (a + 32)
  imageElfOffset_write m a h := by
    have hload := readLE_write_field m a h.elfOffset.toNat 8
      (List.replicate 16 0 ++ toLE h.mktsymbOffset.toNat 8 ++ toLE h.mktsymbSize.toNat 8)
      (toLE h.elfSize.toNat 8)
    simp only [List.length_append, List.length_replicate, length_toLE] at hload
    rw [read64, hload]
    exact ofNat_toNat_mod 8 h.elfOffset

deriving instance DecidableEq for DlgHeader

theorem smallPlatform_initialised (tcbs : Nat) :
    (smallPlatform tcbs).Initialised smallServices where
  services := by
    show svcParse smallStorage svcTableBase = some smallServices
    decide +kernel
  registry := by
    show serviceRegistryCreate smallStorage (some smallServices) (fun _ => {}) 2 =
      some (refsOf smallStorage smallServices.services)
    rw [serviceRegistryCreate_eq, if_neg (by decide +kernel)]
  delegators := by
    refine ⟨{ delegatorCount := 2, totalSize := 48,
              delegators := [dlgTableBase + 16, dlgTableBase + 32] }, ?_, rfl⟩
    show dlgParse smallStorage dlgTableBase = some _
    decide +kernel
  numPc := rfl

/-- An ELF file with a section of 16 bytes at address `0x1000`. -/
def smallElf : List UInt8 :=
  -- The file header.
  List.replicate 40 0 ++ toLE 64 8 ++ List.replicate 10 0 ++ toLE 64 2 ++ toLE 3 2 ++ toLE 2 2 ++
  -- The section headers: the null section, the data, the names.
  List.replicate 64 0 ++
  (toLE 0 4 ++ toLE 1 4 ++ toLE 0 8 ++ toLE 0x1000 8 ++ toLE 256 8 ++ toLE 16 8 ++
    List.replicate 24 0) ++
  List.replicate 64 0 ++ List.replicate 16 7

/-- A manifest with these entries, before `smallElf`.  An entry is its type and offset. -/
def payloadOf (entries : List (Nat × Nat)) : List UInt8 :=
  toLE manifestMagic.toNat 8 ++ toLE entries.length 4 ++ toLE (24 + 20 * entries.length) 4 ++
  toLE smallElf.length 8 ++
  (entries.flatMap fun e => toLE e.1 4 ++ toLE e.2 8 ++ toLE 16 8) ++ smallElf

/-- The orchestrator writes a payload. -/
def writePayloadOf (entries : List (Nat × Nat)) : Event :=
  .payload fun i => (payloadOf entries).getD i 0

/-- A call of the orchestrator. -/
def orchestratorCall (c : CallId) (args : List (BitVec 64)) (env : Env) : Event :=
  .call orchestratorChannel { mr := c.number :: args } env

end Monitor
end Carrels
