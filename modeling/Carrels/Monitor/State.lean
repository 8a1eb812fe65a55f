/-
The monitor's data.

`State` holds the monitor's globals (`carrels-monitor.h`, `pcmcall/deploy.h`,
`request/network.c`), the deployment cothread, and the parts of the world the
monitor acts on: the run state of each child's thread, the vSwitch's table and the
notification to the orchestrator.  Its last fields record what happened and are read
by no function of the monitor.

`Platform` collects what is fixed after initialisation: the pointers into the delegation
table and into the service table, the TCB capabilities, and the layouts of the symbol
bundles and of the image header.  The tables themselves lie in the memory the monitor
writes, and every function reads a record from the memory of the moment it runs in.
-/
import Mathlib.Logic.Function.Basic
import Carrels.Lib.Bytes
import Carrels.Lib.Mask
import Carrels.Util.PicoVfs

namespace Carrels
namespace Monitor

open ByteMemory

/-! ## Constants -/

/-- `PC_CHILD_PER_MONITOR_MAX_NUM` -/
abbrev pcChildMaxNum : Nat := 16

/-- `PC_MONITOR_PROTOCON_BASE_CHANNEL` -/
def protoconBaseChannel : BitVec 32 := 24

/-- The monitor's end of the orchestrator's protected channel. -/
def orchestratorChannel : BitVec 32 := 23

/-- `INVALID_PC_ID` -/
def invalidPcId : BitVec 32 := 0xffc

/-- `SVC_TYPE_MAX_NUM` -/
abbrev svcTypeMaxNum : Nat := 8

/-- `SVC_MAX_PATH_LEN` -/
def svcMaxPathLen : Nat := 128

/-- `ORC_MONITOR_REGION_SIZE` -/
abbrev orcMonitorRegionSize : Nat := 0x800000

/-- `ORC_MONITOR_REGION_CLIENT_PAYLOAD_BASE` -/
abbrev payloadStart : Nat := 0x7000000

/-- `CONTAINER_IMAGE_BASE` -/
abbrev containerImageBase : Nat := 0x50000000

/-- `CONTAINER_IMAGE_SIZE` -/
abbrev containerImageSize : Nat := 0x800000

/-- `TXLO_XRT_REQ_BASE` -/
abbrev txloXrtReqBase : Nat := 0x0FF80000

/-- `TXLO_XRT_REQ_SIZE` -/
abbrev txloXrtReqSize : Nat := 0x1000

/-- Where `ca_monitor_init_storage` loads the service table. -/
abbrev svcTableBase : Nat := 0xaaaaa00000

/-- Where `ca_monitor_init_storage` loads the delegation table. -/
abbrev dlgTableBase : Nat := 0xaaaaa10000

/-- `PROTOCON_MKTSYMB_BASE` -/
abbrev mktsymbBase : Nat := 0xaaaaa20000

/-- `PROTOCON_MKTSYMB_SLOT_SIZE` -/
abbrev mktsymbSlotSize : Nat := 0x1000

/-- `monitor_vm_region_base` -/
def monitorVmRegionBase (base size cid : Nat) : Nat := base + size * cid

/-- The container image region of protocon `cid`. -/
def containerImage (cid : Nat) : Nat :=
  monitorVmRegionBase containerImageBase containerImageSize cid

/-- The slot of the symbol bundle of protocon `cid`. -/
def mktsymbSlot (cid : Nat) : Nat := mktsymbBase + cid * mktsymbSlotSize

/-! ## Enumerations -/

/-- `protocon_lifecycle_state_t`.  `unset` is the zero of the initial array. -/
inductive Lifecycle
  | unset | active | passive | suspended
  deriving DecidableEq, Repr

inductive PcMonitorError
  | noError | dummyError | invalidPcId | invalidReqPcNum | failToInitCoroutine
  | failToDeploy | noAvailPc | vswitchError | invalidPeerSet | pcUnavailable
  | deployInProgress
  deriving DecidableEq, Repr

/-- The last operation on a child's thread: `microkit_pd_stop` or one that sets it
running. -/
inductive ThreadState
  | untouched | stopped | running
  deriving DecidableEq, Repr

/-! ## Services and deployments -/

/-- `resource_quota` of `pc_state_t`; a reference is the address of a record of the service
table, and a null reference is `none`. -/
structure ResourceQuota where
  availServicePerType : Nat → BitVec 32 := fun _ => 0
  availServiceRefs : Nat → Nat → Option Nat := fun _ _ => none

/-- `payload_info_t`; the two pointers are addresses. -/
structure PayloadInfo where
  headerPayload : Nat
  elfPayloadSize : BitVec 64
  serviceCount : BitVec 32
  serviceEntries : Nat

/-- `protocon_svc_req_t`; an entry is the address of a manifest entry. -/
structure ProtoconSvcReq where
  serviceCountPerType : Nat → BitVec 32
  serviceEntries : List Nat
  payloadEEntry : BitVec 64

/-- `deploy_plan_t`; a source is the address of a record. -/
structure DeployPlan where
  pcId : Nat
  pcBase : Nat
  req : ProtoconSvcReq
  serviceSources : List Nat
  baseSerialisedService : Nat

/-- `trustedlo_xrtreq_t`; each count is the length of its list. -/
structure XrtReq where
  notifications : List (BitVec 64) := []
  ppcs : List (BitVec 64) := []
  irqs : List (BitVec 64) := []
  ioports : List (BitVec 64) := []
  mappings : List (BitVec 64) := []

/-- What `service_installer_initialise_ac_rt_req_header` puts in a page: `total_num` of
`trustedlo_xrtreq_header_t` and the list behind it. -/
structure SerialisedXrtReq where
  totalNum : Nat
  list : XrtReq

/-- `protocon_image_header_t` -/
structure ProtoconImageHeader where
  mktsymbOffset : BitVec 64
  mktsymbSize : BitVec 64
  elfOffset : BitVec 64
  elfSize : BitVec 64

structure MonitorDeployRequest where
  numReqPc : BitVec 32 := 0
  targetPc : BitVec 32 := 0
  requestedPeerMask : BitVec 32 := 0
  targeted : Bool := false
  deriving DecidableEq

structure MonitorDeployResult where
  targetPc : BitVec 32 := 0
  connectedPeerMask : BitVec 32 := 0
  rejectedPeerMask : BitVec 32 := 0
  unavailablePeerMask : BitVec 32 := 0
  error : PcMonitorError := .noError
  ready : Bool := false
  deriving DecidableEq

/-! ## The deployment cothread -/

/-- Which branch of `monitor_call_deploy_second_half` the cothread is in, with the
rounds left after this one in the untargeted loop. -/
inductive Branch
  | targeted
  | untargeted (rounds : Nat)

/-- The frame of a deployment between `protocon_pre_instantiate` and
`protocon_start`.  `loaded` is the memory `protocon_pre_instantiate` left and
`patches` the service data stored since; both are history. -/
structure Installing where
  info : PayloadInfo
  branch : Branch
  plan : DeployPlan
  elfBase : BitVec 64
  todo : List (Nat × Nat)
  xrt : XrtReq
  reader : Option (Nat × PicoVfs.Reader)
  loaded : Mem
  patches : List (Nat × List UInt8)

inductive Point
  | running
  | installing (w : Installing)
  | ended

/-- A spawned deployment cothread.  `request` is the request at the spawn, `notified`
counts the notifications it sent, and `atEnd` is `deploy_request_active` and
`deploy_result` at its return; all three are history. -/
structure Cothread where
  request : MonitorDeployRequest
  point : Point
  notified : Nat := 0
  atEnd : Option (Bool × MonitorDeployResult) := none

def Point.live : Point → Bool
  | .ended => false
  | _ => true

/-- The cothread has not returned. -/
def Cothread.alive (c : Cothread) : Prop := c.point.live = true

/-- What `protocon_start` found when it started a container. -/
structure StartRecord where
  cothread : Nat
  pcId : Nat
  before : Lifecycle
  image : Mem
  loaded : Mem
  patches : List (Nat × List UInt8)
  plan : DeployPlan
  request : Option SerialisedXrtReq

/-! ## Platform and environment -/

/-- What does not change after initialisation. -/
structure Platform where
  /-- `ca_bootinfo.num_pc` -/
  numPc : Nat
  numPc_le : numPc ≤ pcChildMaxNum
  /-- The capability slot `BASE_TCB_CAP + child` holds a TCB.  The Microkit's stop and
  resume and `seL4_TCB_WriteRegisters` crash the monitor on any other slot. -/
  hasTcb : Nat → Bool
  /-- The memory when `ca_monitor_init_states` has read the last file. -/
  storage : Mem
  /-- `delegators` of `dlg_header_t`, as addresses. -/
  dlg : List Nat
  resourceQuota : Nat → ResourceQuota
  /-- The bytes of each protocon's symbol bundle, which lies in its slot. -/
  symBundle : Mem → Nat → List UInt8
  symBundle_congr : ∀ {m m' : Mem} {p : Nat}, AgreeOn (mktsymbSlot p) mktsymbSlotSize m m' →
    symBundle m p = symBundle m' p
  /-- The bytes of a `protocon_image_header_t` and the load of its `elf_offset`. -/
  imageHeader : ProtoconImageHeader → List UInt8
  imageHeaderSize : Nat
  length_imageHeader : ∀ h, (imageHeader h).length = imageHeaderSize
  imageElfOffset : Mem → Nat → BitVec 64
  imageElfOffset_write : ∀ m a h, imageElfOffset (write m a (imageHeader h)) a = h.elfOffset

/-- The vSwitch's answer to a call: the message label and the register `VSWITCH_ACL_RET_ERR`. -/
structure VswitchReply where
  label : BitVec 64 := 0
  error : BitVec 64 := 0

/-- What the outside answers during one event: whether `microkit_cothread_spawn`
succeeds, and the reply to each `VSWITCH_SET_ACL` call. -/
structure Env where
  spawnOk : Bool := true
  vswitch : Nat → Nat → Nat → VswitchReply := fun _ _ _ => {}

/-! ## State -/

structure State where
  /-- `protocon_states[].life_cycle_state` -/
  lifecycle : Nat → Lifecycle := fun _ => .unset
  peerPolicy : Nat → BitVec 32 := fun _ => 0
  monitoredProtoconCount : Nat := 0
  pdIoAclRule : Bool := false
  reqPcNum : BitVec 32 := 0
  deployRequestActive : Bool := false
  deployRequest : MonitorDeployRequest := {}
  deployResult : MonitorDeployResult := {}
  mem : Mem := fun _ => 0
  /-- The access request serialised at each address. -/
  xrtReq : Nat → Option SerialisedXrtReq := fun _ => none
  /-- The cothreads, by handle. -/
  cothreads : Nat → Option Cothread := fun _ => none
  spawned : Nat := 0
  threads : Nat → ThreadState := fun _ => .untouched
  vswitch : Nat → Nat → Bool := fun _ _ => false
  /-- A notification to the orchestrator is outstanding. -/
  notified : Bool := false
  -- From here on the fields are history.
  /-- The peer set given by each protocon's latest deployment. -/
  granted : Nat → BitVec 32 := fun _ => 0
  loads : List Nat := []
  selections : List Nat := []
  starts : List StartRecord := []
  /-- How many times `deploy_result` has been begun afresh. -/
  resultSerial : Nat := 0

namespace State

/-- Cothread `id` has been spawned and has not returned. -/
def Alive (s : State) (id : Nat) : Prop := ∃ c, s.cothreads id = some c ∧ c.alive

/-- Change the record of cothread `id`. -/
def modifyCothread (s : State) (id : Nat) (f : Cothread → Cothread) : State :=
  { s with cothreads := Function.update s.cothreads id ((s.cothreads id).map f) }

def setPoint (s : State) (id : Nat) (pt : Point) : State :=
  s.modifyCothread id fun c => { c with point := pt }

/-- `protocon_state_set_lifecycle_state` -/
def setLifecycleState (s : State) (pcId : Nat) (l : Lifecycle) : State :=
  { s with lifecycle := Function.update s.lifecycle pcId l }

/-- `SET_PROTOCON_AS_INSTANTIATED` -/
def setProtoconAsInstantiated (s : State) (c : Nat) : State := s.setLifecycleState c .active

/-- `SET_PROTOCON_AS_SUSPENDED` -/
def setProtoconAsSuspended (s : State) (c : Nat) : State := s.setLifecycleState c .suspended

/-- `SET_PROTOCON_AS_AVAILABLE` -/
def setProtoconAsAvailable (s : State) (c : Nat) : State := s.setLifecycleState c .passive

/-- `protocon_state_check_lifecycle_state` -/
def checkLifecycleState (s : State) (pcId : Nat) (l : Lifecycle) : Bool :=
  decide (s.lifecycle pcId = l)

/-- The child's thread has been stopped. -/
def stopThread (s : State) (child : Nat) : State :=
  { s with threads := Function.update s.threads child .stopped }

/-- The child's thread has been set running. -/
def runThread (s : State) (child : Nat) : State :=
  { s with threads := Function.update s.threads child .running }

/-- `microkit_pd_stop` -/
def pdStop (P : Platform) (s : State) (child : Nat) : Option State :=
  if P.hasTcb child then some (s.stopThread child) else none

/-- `microkit_pd_resume` -/
def pdResume (P : Platform) (s : State) (child : Nat) : Option State :=
  if P.hasTcb child then some (s.runThread child) else none

/-- `monitor_main_notify_orchestrator` -/
def notifyOrchestrator (s : State) : State := { s with notified := true }

/-- A notification sent by cothread `id`. -/
def notifyFrom (s : State) (id : Nat) : State :=
  (s.modifyCothread id fun c => { c with notified := c.notified + 1 }).notifyOrchestrator

end State

/-- `monitor_get_pcid_from_ch` -/
def monitorGetPcidFromCh (ch : BitVec 32) : BitVec 32 :=
  if ch < protoconBaseChannel ∨ protoconBaseChannel + BitVec.ofNat 32 pcChildMaxNum ≤ ch then
    invalidPcId
  else ch - protoconBaseChannel

/-- The message registers of a call or of its reply. -/
structure Message where
  label : PcMonitorError := .noError
  mr : List (BitVec 64) := []
  deriving DecidableEq

/-- `microkit_mr_get` -/
def Message.get (m : Message) (i : Nat) : BitVec 64 := m.mr.getD i 0

end Monitor
end Carrels
