/-
Deployments (`request/deploy.c`).

A deployment is a cothread.  It runs inside the call that spawned it until it blocks in
the file system, and from then on inside the completions of its commands; everything
else the monitor does happens between these.  `Installing` is the frame the cothread
keeps while it is blocked.
-/
import Carrels.Monitor.Delegation
import Carrels.Monitor.Network
import Carrels.Monitor.Service

namespace Carrels
namespace Monitor

open ByteMemory

/-! ## The request -/

/-- `monitor_reset_deploy_request`; `none` is its rejection. -/
def monitorResetDeployRequest (s : State) (numReqPc : BitVec 64) : Option State :=
  if s.deployRequestActive then none
  else
    some
      { s with
        deployRequest := { numReqPc := numReqPc.truncate 32 }
        reqPcNum := numReqPc.truncate 32
        deployRequestActive := true }

/-- `monitor_deploy_refresh_request` -/
def monitorDeployRefreshRequest (s : State) : State :=
  { s with reqPcNum := 0, deployRequest := {}, deployRequestActive := false }

/-- `monitor_finish_deploy_request`, run by cothread `caller` or by a handler. -/
def monitorFinishDeployRequest (s : State) (caller : Option Nat) : State :=
  match caller with
  | none => (monitorDeployRefreshRequest s).notifyOrchestrator
  | some id => (monitorDeployRefreshRequest s).notifyFrom id

/-- `monitor_check_deploy_num` -/
def monitorCheckDeployNum (P : Platform) (numReqPc : Nat) : Bool :=
  1 ≤ numReqPc && numReqPc ≤ P.numPc

/-- `monitor_finish_deploy_request` in cothread `id`, and the return of the cothread. -/
def State.finishCothread (s : State) (id : Nat) : State :=
  let s := monitorFinishDeployRequest s (some id)
  s.modifyCothread id fun c =>
    { c with point := .ended, atEnd := some (s.deployRequestActive, s.deployResult) }

/-- `microkit_cothread_spawn` of `monitor_call_deploy_second_half`. -/
def State.spawn (s : State) : State :=
  { s with
    cothreads := Function.update s.cothreads s.spawned
      (some { request := s.deployRequest, point := .running })
    spawned := s.spawned + 1 }

def State.setResultError (s : State) (error : PcMonitorError) : State :=
  { s with deployResult := { s.deployResult with error } }

def State.setResultReady (s : State) : State :=
  { s with deployResult := { s.deployResult with ready := true } }

/-! ## One protocon -/

/-- `protocon_load_payload` -/
def protoconLoadPayload (P : Platform) (m : Mem) (pcId dest src : Nat) (elfSize : BitVec 64) :
    Mem :=
  let bundle := P.symBundle m pcId
  let mktsymbSize := BitVec.ofNat 64 bundle.length
  let mktsymbOffset := BitVec.ofNat 64 P.imageHeaderSize
  let elfOffset := mktsymbOffset + mktsymbSize
  let m := write m dest (P.imageHeader { mktsymbOffset, mktsymbSize, elfOffset, elfSize })
  let m := write m (dest + mktsymbOffset.toNat) bundle
  copy m (dest + elfOffset.toNat) src elfSize.toNat

/-- The frame `service_installer_apply` starts with in memory `m`. -/
def Installing.begin (P : Platform) (m : Mem) (info : PayloadInfo) (branch : Branch)
    (plan : DeployPlan) : Installing :=
  { info, branch, plan
    elfBase := protoconImageElf P m plan.pcBase
    todo := plan.req.serviceEntries.zip plan.serviceSources
    xrt := {}
    reader := none
    loaded := m
    patches := [] }

/-- `protocon_pre_instantiate`, and the entry of `service_installer_apply`. -/
def protoconPreInstantiate (P : Platform) (s : State) (id : Nat) (info : PayloadInfo)
    (branch : Branch) (plan : DeployPlan) : State :=
  let mem := protoconLoadPayload P s.mem plan.pcId plan.pcBase info.headerPayload
    info.elfPayloadSize
  { s with mem, selections := plan.pcId :: s.selections }.setPoint id
    (.installing (.begin P mem info branch plan))

/-- The peer set this deployment gives its protocon. -/
def State.peersOf (s : State) : Branch → BitVec 32
  | .targeted => s.deployRequest.requestedPeerMask
  | .untargeted _ => 0

/-- The state changes of `protocon_start`. -/
def State.started (s : State) (id : Nat) (w : Installing) : State :=
  let p := w.plan.pcId
  let record : StartRecord :=
    { cothread := id, pcId := p, before := s.lifecycle p, image := s.mem
      loaded := w.loaded, patches := w.patches, plan := w.plan
      request := s.xrtReq w.plan.baseSerialisedService }
  let s :=
    { s with
      starts := record :: s.starts
      granted := Function.update s.granted p (s.peersOf w.branch) }
  ((s.setProtoconAsInstantiated p).runThread p).setPoint id .running

/-- The bound on `record_size` that `protocon_init_txlo_info` asserts. -/
def maxRecordSize : Nat := 4096

/-- `protocon_start` -/
def protoconStart (P : Platform) (s : State) (id : Nat) (w : Installing) : Option State :=
  match dlgFindDelegator s.mem P.dlg w.plan.pcId with
  | none => none
  | some src =>
    if maxRecordSize < (dlgRecordSizeOf s.mem src).toNat then none
    else if !P.hasTcb w.plan.pcId then none
    else some (s.started id w)

/-- How far `protocon_deploy` or `protocon_deploy_to_protocon` got. -/
inductive Deployed
  | failed (error : PcMonitorError)
  | blocked
  | started

/-- `service_installer_initialise_ac_rt_req_header` -/
def XrtReq.serialised (xrt : XrtReq) : SerialisedXrtReq where
  totalNum := xrt.notifications.length + xrt.ppcs.length + xrt.ioports.length +
    xrt.mappings.length + xrt.irqs.length
  list := xrt

/-- The end of the installer. -/
def State.serialiseXrtReq (s : State) (w : Installing) : State :=
  { s with xrtReq :=
      Function.update s.xrtReq w.plan.baseSerialisedService (some w.xrt.serialised) }

/-- Continue from the frame `w`: `service_installer_apply` up to its next file, or to
its end and `protocon_start`. -/
def protoconContinue (P : Platform) (s : State) (id : Nat) (w : Installing) :
    Option (State × Deployed) :=
  let w := serviceInstallerNext s.mem w
  let s := s.setPoint id (.installing w)
  if w.reader.isSome then some (s, .blocked)
  else (protoconStart P (s.serialiseXrtReq w) id w).map (·, .started)

/-- The common body of `protocon_deploy` and `protocon_deploy_to_protocon`, which differ
in the planner's function. -/
def protoconDeployWith (P : Platform) (s : State) (id : Nat) (info : PayloadInfo)
    (branch : Branch) (select : ProtoconSvcReq → Option Nat) : Option (State × Deployed) :=
  match serviceManifestParse s.mem info with
  | none => none
  | some req =>
    match select req with
    | none => some (s, .failed .noAvailPc)
    | some pcId =>
      match planFor P s.mem req pcId with
      | none => none
      | some plan =>
        let s := protoconPreInstantiate P s id info branch plan
        protoconContinue P s id (.begin P s.mem info branch plan)

/-- `protocon_deploy`, with the rounds that remain after it. -/
def protoconDeploy (P : Platform) (s : State) (id : Nat) (info : PayloadInfo) (rounds : Nat) :
    Option (State × Deployed) :=
  protoconDeployWith P s id info (.untargeted rounds) (servicePlannerSelectProtocon P s)

/-- `protocon_deploy_to_protocon` -/
def protoconDeployToProtocon (P : Platform) (s : State) (id : Nat) (info : PayloadInfo)
    (pcId : Nat) : Option (State × Deployed) :=
  protoconDeployWith P s id info .targeted fun req =>
    servicePlannerSelectProtoconById P s req pcId

/-! ## The cothread -/

/-- The access-control part of a targeted deployment, after `protocon_start`. -/
def State.applyAcl (s : State) (env : Env) : State :=
  let (s, masks) := monitorAclApplyDeployment s env s.deployRequest.targetPc.toNat
    s.deployRequest.requestedPeerMask
  match masks with
  | .error e => s.setResultError e
  | .ok m =>
    { s with
      deployResult :=
        { s.deployResult with
          connectedPeerMask := m.connected
          rejectedPeerMask := m.rejected
          unavailablePeerMask := m.unavailable
          error := .noError } }

/-- The targeted branch once `protocon_deploy_to_protocon` has returned `error`. -/
def finishTargeted (env : Env) (s : State) (id : Nat) (error : PcMonitorError) : State :=
  let s := s.setResultError error
  let s := if error = .noError then s.applyAcl env else s
  s.setResultReady.finishCothread id

/-- The loop of the untargeted branch, with the number of rounds left. -/
def deployRounds (P : Platform) (id : Nat) (info : PayloadInfo) : Nat → State → Option State
  | 0, s => some (s.finishCothread id)
  | rounds + 1, s =>
    match protoconDeploy P s id info rounds with
    | none => none
    | some (s, .failed _) => some (s.finishCothread id)
    | some (s, .blocked) => some s
    | some (s, .started) => deployRounds P id info rounds s

/-- `monitor_call_deploy_second_half` from its entry to its first wait or its return. -/
def monitorCallDeploySecondHalf (P : Platform) (env : Env) (s : State) (id : Nat) :
    Option State :=
  let request := s.deployRequest
  if !request.targeted && !monitorCheckDeployNum P request.numReqPc.toNat then
    some (s.finishCothread id)
  else
    match serviceManifestHeaderParse s.mem payloadStart with
    | none =>
      let s := if request.targeted then (s.setResultError .failToDeploy).setResultReady else s
      some (s.finishCothread id)
    | some info =>
      if request.targeted then
        match protoconDeployToProtocon P s id info request.targetPc.toNat with
        | none => none
        | some (s, .failed error) => some (finishTargeted env s id error)
        | some (s, .blocked) => some s
        | some (s, .started) => some (finishTargeted env s id .noError)
      else deployRounds P id info request.numReqPc.toNat s

/-- The reply `c` wakes cothread `id`, blocked in a data file of frame `w`. -/
def resumeInstalling (P : Platform) (env : Env) (s : State) (id : Nat) (w : Installing)
    (svc : Nat) (r : PicoVfs.Reader) (c : PicoVfs.Completion) : Option State :=
  match serviceInstallerResume s.mem w svc r c with
  | none => none
  | some (stores, w) =>
    match protoconContinue P { s with mem := writes s.mem stores } id w with
    | none => none
    | some (s, .failed error) => some (finishTargeted env s id error)
    | some (s, .blocked) => some s
    | some (s, .started) =>
      match w.branch with
      | .targeted => some (finishTargeted env s id .noError)
      | .untargeted rounds => deployRounds P id w.info rounds s

/-- A completion for cothread `id`. -/
def resumeCothread (P : Platform) (env : Env) (s : State) (id : Nat)
    (c : PicoVfs.Completion) : Option State :=
  match s.cothreads id with
  | none => none
  | some cothread =>
    match cothread.point with
    | .installing w =>
      match w.reader with
      | none => none
      | some (svc, r) => resumeInstalling P env s id w svc r c
    | _ => none

/-! ## The calls -/

/-- `monitor_deploy_second_half` and the yield that runs the new cothread. -/
def monitorDeploySecondHalf (P : Platform) (env : Env) (s : State) :
    Option (State × PcMonitorError) :=
  if env.spawnOk then
    (monitorCallDeploySecondHalf P env s.spawn s.spawned).map (·, .noError)
  else some (monitorFinishDeployRequest s none, .failToInitCoroutine)

/-- `monitor_call_deploy_first_half` -/
def monitorCallDeployFirstHalf (P : Platform) (env : Env) (s : State) (numReqPc : BitVec 64) :
    Option (State × Message) :=
  if !monitorCheckDeployNum P numReqPc.toNat then some (s, { label := .invalidReqPcNum })
  else
    match monitorResetDeployRequest s numReqPc with
    | none => some (s, { label := .failToDeploy })
    | some s => (monitorDeploySecondHalf P env s).map fun (s, err) => (s, { label := err })

/-- The request and the fresh result of a targeted deployment. -/
def State.acceptTargeted (s : State) (pcId peerMask : BitVec 64) : State :=
  { s with
    deployRequest :=
      { numReqPc := 1, targetPc := pcId.truncate 32
        requestedPeerMask := peerMask.truncate 32, targeted := true }
    deployRequestActive := true
    deployResult := { targetPc := pcId.truncate 32, error := .deployInProgress, ready := false }
    resultSerial := s.resultSerial + 1 }

/-- The peer mask `monitor_call_deploy_to_protocon` goes on with; `none` is
`MON_INVALID_PEER_SET`. -/
def resolvePeers (P : Platform) (pcId peerMask peersAll : BitVec 64) : Option (BitVec 64) :=
  let validMask := 1#64 <<< P.numPc - 1
  let self := 1#64 <<< pcId.toNat
  if 1 < peersAll then none
  else if peersAll ≠ 0 then
    let peerMask := validMask &&& ~~~self
    if peerMask &&& self ≠ 0 then none else some peerMask
  else if peerMask &&& ~~~validMask ≠ 0 then none
  else if peerMask &&& self ≠ 0 then none
  else some peerMask

/-- `monitor_call_deploy_to_protocon` -/
def monitorCallDeployToProtocon (P : Platform) (env : Env) (s : State)
    (pcId peerMask peersAll : BitVec 64) : Option (State × Message) :=
  if P.numPc ≤ pcId.toNat then some (s, { label := .invalidPcId })
  else if !s.checkLifecycleState pcId.toNat .passive then some (s, { label := .pcUnavailable })
  else
    match resolvePeers P pcId peerMask peersAll with
    | none => some (s, { label := .invalidPeerSet })
    | some peerMask =>
      if s.deployRequestActive then some (s, { label := .failToDeploy })
      else
        match monitorDeploySecondHalf P env (s.acceptTargeted pcId peerMask) with
        | none => none
        | some (s, .noError) => some (s, { label := .noError })
        | some (s, err) => some ((s.setResultError err).setResultReady, { label := err })

/-- `monitor_call_deploy_result` -/
def monitorCallDeployResult (s : State) : State × Message :=
  if !s.deployResult.ready then (s, { label := .deployInProgress })
  else
    (s, { label := s.deployResult.error
          mr := [s.deployResult.targetPc.zeroExtend 64,
            s.deployResult.connectedPeerMask.zeroExtend 64,
            s.deployResult.rejectedPeerMask.zeroExtend 64,
            s.deployResult.unavailablePeerMask.zeroExtend 64] })

/-! ## What the end of a deployment changes -/

/-- Applying the access control of a deployment changes the pair table, the policies and
the rest of the result. -/
theorem monitorAclApplyDeployment_frame (s : State) (env : Env) (c : Nat)
    (requested : BitVec 32) :
    (monitorAclApplyDeployment s env c requested).1 =
      s.withNetwork (monitorAclApplyDeployment s env c requested).1.vswitch
        (monitorAclApplyDeployment s env c requested).1.peerPolicy := by
  unfold monitorAclApplyDeployment
  split
  · rfl
  · rw [applyPeers_frame]
    rfl

/-- The state `s` with another pair table, other policies and another result. -/
def State.withResult (s : State) (table : Nat → Nat → Bool) (policy : Nat → BitVec 32)
    (r : MonitorDeployResult) : State :=
  { s.withNetwork table policy with deployResult := r }

theorem State.applyAcl_frame (s : State) (env : Env) :
    s.applyAcl env =
        s.withResult (s.applyAcl env).vswitch (s.applyAcl env).peerPolicy
          (s.applyAcl env).deployResult ∧
      (s.applyAcl env).deployResult.targetPc = s.deployResult.targetPc := by
  have hframe := monitorAclApplyDeployment_frame s env s.deployRequest.targetPc.toNat
    s.deployRequest.requestedPeerMask
  unfold State.applyAcl
  generalize monitorAclApplyDeployment s env s.deployRequest.targetPc.toNat
    s.deployRequest.requestedPeerMask = r at hframe
  obtain ⟨t, masks⟩ := r
  simp only at hframe ⊢
  rw [hframe]
  cases masks <;> exact ⟨rfl, rfl⟩

/-- The state in which a targeted deployment resets the request and returns. -/
def State.concluded (s : State) (env : Env) (error : PcMonitorError) : State :=
  (if error = .noError then (s.setResultError error).applyAcl env
    else s.setResultError error).setResultReady

theorem finishTargeted_eq (env : Env) (s : State) (id : Nat) (error : PcMonitorError) :
    finishTargeted env s id error = (s.concluded env error).finishCothread id := rfl

theorem State.concluded_frame (s : State) (env : Env) (error : PcMonitorError) :
    s.concluded env error =
        s.withResult (s.concluded env error).vswitch (s.concluded env error).peerPolicy
          (s.concluded env error).deployResult ∧
      (s.concluded env error).deployResult.ready = true ∧
      (s.concluded env error).deployResult.targetPc = s.deployResult.targetPc := by
  unfold State.concluded
  split
  · obtain ⟨hframe, htarget⟩ := (s.setResultError error).applyAcl_frame env
    rw [hframe]
    exact ⟨rfl, rfl, htarget⟩
  · exact ⟨rfl, rfl, rfl⟩

end Monitor
end Carrels
