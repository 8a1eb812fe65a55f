/-
The monitor's steps as small actions.

Handling an event is either one `Control` action (a stop, a fault, a suspend, ...) or a
sequence of `Internal` actions of a deployment (its acceptance, the answer to its
command with the stores of service data, the choice of a protocon, a start, its end).
`step_refines` is the inversion of `step`: every invariant is proved once for each action
and then holds of every run.
-/
import Carrels.Monitor.Step

namespace Carrels
namespace Monitor

open ByteMemory StepSystem Relation

/-! ## Control actions -/

/-- The protocon a call stops, if it is one of the two stopping calls. -/
def stopTarget (ch : BitVec 32) (msg : Message) : Option (BitVec 32) :=
  match CallId.ofNumber (msg.get 0) with
  | some .terminate => some (ch - protoconBaseChannel)
  | some .terminateExt => some (terminateExtTarget ch (msg.get 1))
  | _ => none

/-- The protocon a call would suspend or resume. -/
def suspendTarget (msg : Message) : Option (BitVec 32) :=
  match CallId.ofNumber (msg.get 0) with
  | some .suspend => some ((msg.get 1).truncate 32)
  | _ => none

def resumeTarget (msg : Message) : Option (BitVec 32) :=
  match CallId.ofNumber (msg.get 0) with
  | some .resume => some ((msg.get 1).truncate 32)
  | _ => none

/-- What an event does to `s` at once. -/
inductive Control (P : Platform) (s : State) : Event → State → Prop
  | idle {ch : BitVec 32} {msg : Message} {env : Env} : Control P s (.call ch msg env) s
  | notify {ch : BitVec 32} {msg : Message} {env : Env} :
      Control P s (.call ch msg env) s.notifyOrchestrator
  | flip {ch : BitVec 32} {msg : Message} {env : Env} :
      Control P s (.call ch msg env) { s with pdIoAclRule := !s.pdIoAclRule }
  | setAcl {ch : BitVec 32} {msg : Message} {env : Env}
      (hmsg : CallId.ofNumber (msg.get 0) = some .setVswitchAcl) :
      Control P s (.call ch msg env)
        (monitorCallSetVswitchAcl s env (msg.get 1).toNat (msg.get 2).toNat
          (msg.get 3).toNat).1
  | stop {ch : BitVec 32} {msg : Message} {env : Env} {c : BitVec 32}
      (hch : P.callChannel ch = true) (hmsg : stopTarget ch msg = some c)
      (hc : c.toNat < pcChildMaxNum) (htcb : P.hasTcb c.toNat = true) :
      Control P s (.call ch msg env) (s.stopAndRestored env c.toNat)
  | suspend {ch : BitVec 32} {msg : Message} {env : Env} {c : BitVec 32}
      (hmsg : suspendTarget msg = some c) (hc : c.toNat < pcChildMaxNum)
      (hs : s.lifecycle c.toNat = .active) :
      Control P s (.call ch msg env) (s.suspended c.toNat)
  | resume {ch : BitVec 32} {msg : Message} {env : Env} {c : BitVec 32}
      (hmsg : resumeTarget msg = some c) (hc : c.toNat < pcChildMaxNum)
      (hs : s.lifecycle c.toNat = .suspended) :
      Control P s (.call ch msg env) (s.resumed c.toNat)
  | faultStop {c : Nat} {label : FaultLabel} {ip address : BitVec 64} (hc : c < P.numPc)
      (hflag : notifyFlag label ip address = false) :
      Control P s (.fault c label ip address) (s.stopThread c)
  | faultRestore {c : Nat} {label : FaultLabel} {ip address : BitVec 64} (hc : c < P.numPc)
      (hflag : notifyFlag label ip address = true) :
      Control P s (.fault c label ip address) (s.faultRestored c)
  | payload {f : Nat → UInt8} : Control P s (.payload f) (s.writePayload f)

theorem Platform.callChannel_cases {P : Platform} {ch : BitVec 32} (h : P.callChannel ch = true) :
    ch = orchestratorChannel ∨
      ∃ i < P.numPc, ch = protoconBaseChannel + BitVec.ofNat 32 i := by
  simp only [Platform.callChannel, Bool.or_eq_true, beq_iff_eq, List.any_eq_true,
    List.mem_range] at h
  exact h

theorem toNat_protoconChannel {i : Nat} (hi : i < pcChildMaxNum) :
    (protoconBaseChannel + BitVec.ofNat 32 i).toNat = 24 + i := by
  have hbase : protoconBaseChannel.toNat = 24 := rfl
  unfold pcChildMaxNum at hi
  rw [BitVec.toNat_add, hbase, BitVec.toNat_ofNat]
  omega

/-- A stopping call on a protocon's own channel stops that protocon. -/
theorem stopTarget_of_protocon {i : Nat} {msg : Message} {c : BitVec 32}
    (hi : i < pcChildMaxNum)
    (h : stopTarget (protoconBaseChannel + BitVec.ofNat 32 i) msg = some c) : c.toNat = i := by
  have hof : (BitVec.ofNat 32 i).toNat = i := by
    rw [BitVec.toNat_ofNat]
    unfold pcChildMaxNum at hi
    omega
  unfold stopTarget at h
  split at h
  · rw [← Option.some.inj h, BitVec.add_comm, BitVec.add_sub_cancel, hof]
  · have hch : (24 : BitVec 32) ≤ protoconBaseChannel + BitVec.ofNat 32 i := by
      rw [BitVec.le_def, toNat_protoconChannel hi]
      exact Nat.le_add_right 24 i
    rw [terminateExtTarget, if_pos hch] at h
    rw [← Option.some.inj h, monitorGetPcidFromCh_channel hi]
  · exact absurd h (by simp)

/-- A stopping call of the orchestrator names its target, and `TERMINATE` names none. -/
theorem stopTarget_of_orchestrator {msg : Message} {c : BitVec 32}
    (hc : c.toNat < pcChildMaxNum) (h : stopTarget orchestratorChannel msg = some c) :
    CallId.ofNumber (msg.get 0) = some .terminateExt ∧ c = (msg.get 1).truncate 32 := by
  unfold stopTarget at h
  split at h
  · rw [← Option.some.inj h] at hc
    exact absurd hc (by decide)
  next hid =>
    rw [terminateExtTarget, if_neg (by decide)] at h
    exact ⟨hid, (Option.some.inj h).symm⟩
  · exact absurd h (by simp)

/-! ## Internal actions -/

/-- The state in which an untargeted deployment has been accepted. -/
def State.acceptUntargeted (s : State) (numReqPc : BitVec 64) : State :=
  { s with
    deployRequest := { numReqPc := numReqPc.truncate 32 }
    reqPcNum := numReqPc.truncate 32
    deployRequestActive := true }

/-- `w'` is a later frame of the deployment that was in frame `w`, with `stores` made in
between. -/
structure Installing.Extends (w w' : Installing) (stores : List (Nat × List UInt8)) : Prop where
  plan : w'.plan = w.plan
  branch : w'.branch = w.branch
  info : w'.info = w.info
  loaded : w'.loaded = w.loaded
  patches : w'.patches = w.patches ++ stores

/-- The installer is through, and its request is in the page of the plan. -/
structure Installing.Done (s : State) (w : Installing) : Prop where
  reader : w.reader = none
  todo : w.todo = []
  request : s.xrtReq w.plan.baseSerialisedService = some w.xrt.serialised

/-- The memory and the frame of cothread `id` after a part of the installer. -/
def State.installed (s : State) (id : Nat) (stores : List (Nat × List UInt8))
    (w : Installing) : State :=
  { s with mem := writes s.mem stores }.setPoint id (.installing w)

/-- The frame and the file cothread `id` is blocked in. -/
def State.blockedIn (s : State) (id : Nat) : Option (Installing × PicoVfs.Reader) :=
  (s.cothreads id).bind fun c =>
    match c.point with
    | .installing w => w.reader.map fun file => (w, file.2)
    | _ => none

theorem State.blockedIn_eq {s : State} {id : Nat} {c : Cothread} {w : Installing} {svc : Nat}
    {r : PicoVfs.Reader} (hc : s.cothreads id = some c) (hw : c.point = .installing w)
    (hreader : w.reader = some (svc, r)) : s.blockedIn id = some (w, r) := by
  rw [State.blockedIn, hc, Option.bind_some, hw]
  dsimp only
  rw [hreader]
  rfl

/-- The command cothread `id` is blocked in is answered. -/
inductive Answer (s : State) (id : Nat) (answer : PicoVfs.Completion) : State → Prop
  | intro {c : Cothread} {w w' : Installing} {svc : Nat} {r : PicoVfs.Reader}
      {stores : List (Nat × List UInt8)} (hc : s.cothreads id = some c)
      (hw : c.point = .installing w) (hreader : w.reader = some (svc, r))
      (hresume : serviceInstallerResume s.mem w svc r answer = some (stores, w')) :
      Answer s id answer (s.installed id stores w')

/-- A deploy call past its checks: a cothread is spawned, or there is none and the request
is taken back. -/
inductive Accept (P : Platform) (s : State) : CallId → State → Prop
  | accept {n : BitVec 64} (hidle : s.deployRequestActive = false)
      (hn : monitorCheckDeployNum P n.toNat = true) :
      Accept P s .deploy (s.acceptUntargeted n).spawn
  | acceptTargeted {pcId mask given all : BitVec 64} (hidle : s.deployRequestActive = false)
      (hpc : pcId.toNat < P.numPc) (hs : s.lifecycle pcId.toNat = .passive)
      (hmask : resolvePeers P pcId given all = some mask) :
      Accept P s .deployToProtocon (s.acceptTargeted pcId mask).spawn
  | refuse {n : BitVec 64} (hidle : s.deployRequestActive = false) :
      Accept P s .deploy (monitorFinishDeployRequest (s.acceptUntargeted n) none)
  | refuseTargeted {pcId mask : BitVec 64} (hidle : s.deployRequestActive = false) :
      Accept P s .deployToProtocon
        ((monitorFinishDeployRequest (s.acceptTargeted pcId mask) none).setResultError
          .failToInitCoroutine).setResultReady

/-- A step of the deployment cothread. -/
inductive Work (P : Platform) (env : Env) (s : State) : State → Prop
  | select {id : Nat} {c : Cothread} {info : PayloadInfo} {branch : Branch} {plan : DeployPlan}
      (hc : s.cothreads id = some c) (hrun : c.point = .running)
      (hbranch : branch = .targeted ↔ s.deployRequest.targeted = true)
      (htarget : branch = .targeted → plan.pcId = s.deployRequest.targetPc.toNat)
      (hlt : plan.pcId < pcChildMaxNum) (hs : s.lifecycle plan.pcId = .passive)
      (hbase : plan.pcBase = containerImage plan.pcId)
      (hplan : planFor P s.mem plan.req plan.pcId = some plan) :
      Work P env s (protoconPreInstantiate P s id info branch plan)
  | install {id : Nat} {c : Cothread} {w : Installing} (hc : s.cothreads id = some c)
      (hw : c.point = .installing w) :
      Work P env s (s.setPoint id (.installing (serviceInstallerNext s.mem w)))
  | serialise {w : Installing} : Work P env s (s.serialiseXrtReq w)
  | start {id : Nat} {c : Cothread} {w : Installing} (hc : s.cothreads id = some c)
      (hw : c.point = .installing w) (hb : w.branch ≠ .targeted) (hdone : w.Done s) :
      Work P env s (s.started id w)
  | startTargeted {id : Nat} {c : Cothread} {w : Installing} (hc : s.cothreads id = some c)
      (hw : c.point = .installing w) (hb : w.branch = .targeted) (hdone : w.Done s) :
      Work P env s (finishTargeted env (s.started id w) id .noError)
  | finish {id : Nat} {c : Cothread} (hc : s.cothreads id = some c) (hrun : c.point = .running)
      (ht : s.deployRequest.targeted = false) : Work P env s (s.finishCothread id)
  | failTargeted {id : Nat} {c : Cothread} {error : PcMonitorError}
      (hc : s.cothreads id = some c) (hrun : c.point = .running)
      (ht : s.deployRequest.targeted = true) (herror : error ≠ .noError)
      (hended : error ≠ .deployInProgress) : Work P env s (finishTargeted env s id error)

/-- A step of a deployment. -/
inductive Internal (P : Platform) (env : Env) (s s' : State) : Prop
  | accept {id : CallId} (h : Accept P s id s')
  | answer {id : Nat} {answer : PicoVfs.Completion} (h : Answer s id answer s')
  | work (h : Work P env s s')

/-- Every blocked deployment is in the branch of the current request. -/
def BranchOk (s : State) : Prop :=
  ∀ id c w, s.cothreads id = some c → c.point = .installing w →
    (w.branch = .targeted ↔ s.deployRequest.targeted = true)

/-! ## Every step is made of actions -/

section

variable {P : Platform} {env : Env}

theorem State.cothreads_setPoint {s : State} {id : Nat} {c : Cothread} (pt : Point)
    (hc : s.cothreads id = some c) :
    (s.setPoint id pt).cothreads id = some { c with point := pt } := by
  simp [State.setPoint, State.modifyCothread, hc]

theorem serviceInstallerNext_extends (m : Mem) (w : Installing) :
    w.Extends (serviceInstallerNext m w) [] := by
  unfold serviceInstallerNext
  split
  · exact ⟨rfl, rfl, rfl, rfl, (List.append_nil _).symm⟩
  · exact ⟨rfl, rfl, rfl, rfl, (List.append_nil _).symm⟩

theorem serviceInstallerResume_extends {m : Mem} {w w' : Installing} {svc : Nat}
    {r : PicoVfs.Reader} {c : PicoVfs.Completion} {stores : List (Nat × List UInt8)}
    (h : serviceInstallerResume m w svc r c = some (stores, w')) : w.Extends w' stores := by
  obtain ⟨-, reader, xrt, rfl⟩ := serviceInstallerResume_frame h
  exact ⟨rfl, rfl, rfl, rfl, rfl⟩

theorem protoconStart_eq {s s' : State} {id : Nat} {w : Installing}
    (h : protoconStart P s id w = some s') : s' = s.started id w := by
  unfold protoconStart at h
  split at h
  · exact absurd h (by simp)
  · split at h
    · exact absurd h (by simp)
    · split at h
      · exact absurd h (by simp)
      · exact (Option.some.inj h).symm

theorem protoconContinue_ne_failed {s s' : State} {id : Nat} {w : Installing}
    (e : PcMonitorError) : protoconContinue P s id w ≠ some (s', .failed e) := by
  intro h
  unfold protoconContinue at h
  simp only at h
  split at h
  · exact absurd h (by simp)
  · obtain ⟨t, -, h⟩ := Option.map_eq_some_iff.mp h
    exact absurd h (by simp)

/-- Cothread `id` runs, in a branch that fits the request. -/
structure Running (s : State) (id : Nat) (branch : Branch) : Prop where
  cothread : ∃ c, s.cothreads id = some c ∧ c.point = .running
  branch : branch = .targeted ↔ s.deployRequest.targeted = true

/-- What one protocon's deployment comes to: an error and no change, some actions after
which the cothread is blocked, or some actions and a start. -/
inductive DeployedBy (P : Platform) (env : Env) (s : State) (id : Nat) (branch : Branch) :
    State → Deployed → Prop
  | failed {e : PcMonitorError} (he : e ≠ .noError) (hended : e ≠ .deployInProgress) :
      DeployedBy P env s id branch s (.failed e)
  | blocked {s' : State} (h : ReflTransGen (Work P env) s s') :
      DeployedBy P env s id branch s' .blocked
  | started {t : State} {c : Cothread} {w : Installing} (h : ReflTransGen (Work P env) s t)
      (hc : t.cothreads id = some c) (hw : c.point = .installing w) (hb : w.branch = branch)
      (hrequest : t.deployRequest = s.deployRequest) (hdone : w.Done t) :
      DeployedBy P env s id branch (t.started id w) .started

/-- Continuing the installer is a part of the installer, and then perhaps a start. -/
theorem protoconContinue_deployedBy {s s' : State} {id : Nat} {c : Cothread} {w : Installing}
    {d : Deployed} (hc : s.cothreads id = some c) (hw : c.point = .installing w)
    (h : protoconContinue P s id w = some (s', d)) : DeployedBy P env s id w.branch s' d := by
  have hinstall : Work P env s (s.setPoint id (.installing (serviceInstallerNext s.mem w))) :=
    .install hc hw
  have hpoint := State.cothreads_setPoint (.installing (serviceInstallerNext s.mem w)) hc
  have hbranch := (serviceInstallerNext_extends s.mem w).branch
  have htodo := @serviceInstallerNext_todo_eq_nil s.mem w
  unfold protoconContinue at h
  generalize serviceInstallerNext s.mem w = w' at h hinstall hpoint hbranch htodo
  simp only at h
  split at h
  · rw [Option.some.injEq, Prod.mk.injEq] at h
    rw [← h.1, ← h.2]
    exact .blocked (.single hinstall)
  next hnone =>
    have hreader : w'.reader = none := Option.not_isSome_iff_eq_none.mp hnone
    obtain ⟨t, ht, h⟩ := Option.map_eq_some_iff.mp h
    rw [Prod.mk.injEq] at h
    rw [← h.1, ← h.2, protoconStart_eq ht]
    exact .started (.tail (.single hinstall) (.serialise (w := w'))) hpoint rfl hbranch rfl
      ⟨hreader, htodo hreader, Function.update_self ..⟩

/-- Deploying to one protocon is a choice of the planner and a run of the installer. -/
theorem protoconDeployWith_deployedBy {s s' : State} {id : Nat} {info : PayloadInfo}
    {branch : Branch} {select : ProtoconSvcReq → Option Nat} {d : Deployed}
    (hrun : Running s id branch)
    (hselect : ∀ req p, select req = some p → p < pcChildMaxNum ∧ s.lifecycle p = .passive ∧
      (branch = .targeted → p = s.deployRequest.targetPc.toNat))
    (h : protoconDeployWith P s id info branch select = some (s', d)) :
    DeployedBy P env s id branch s' d := by
  obtain ⟨⟨c, hc, hp⟩, hbranch⟩ := hrun
  unfold protoconDeployWith at h
  split at h
  · exact absurd h (by simp)
  next req hreq =>
    split at h
    · rw [Option.some.injEq, Prod.mk.injEq] at h
      rw [← h.1, ← h.2]
      exact .failed (by simp) (by simp)
    next pcId hpc =>
      split at h
      · exact absurd h (by simp)
      next plan hplan =>
        obtain ⟨rfl, hbase⟩ := planFor_pcId hplan
        obtain ⟨hlt, hs, htarget⟩ := hselect req _ hpc
        have hsel : Work P env s (protoconPreInstantiate P s id info branch plan) :=
          .select hc hp hbranch htarget hlt hs hbase (planFor_self hplan)
        have hpoint := State.cothreads_setPoint
          (.installing (.begin P (protoconPreInstantiate P s id info branch plan).mem info branch
            plan)) hc
        have hdep : DeployedBy P env (protoconPreInstantiate P s id info branch plan) id branch
            s' d :=
          protoconContinue_deployedBy (s := protoconPreInstantiate P s id info branch plan) hpoint
            rfl h
        cases hdep with
        | failed => exact absurd h (protoconContinue_ne_failed _)
        | blocked hacts => exact .blocked (.head hsel hacts)
        | started hacts hc' hw hb hrequest hdone =>
            exact .started (.head hsel hacts) hc' hw hb hrequest hdone

theorem State.started_running {t : State} {id : Nat} {c : Cothread} {w : Installing}
    (hc : t.cothreads id = some c) :
    ∃ d, (t.started id w).cothreads id = some d ∧ d.point = .running :=
  ⟨_, State.cothreads_setPoint .running hc, rfl⟩

theorem deployRounds_work {s s' : State} {id : Nat} {c : Cothread} {info : PayloadInfo}
    {rounds : Nat} (hc : s.cothreads id = some c) (hp : c.point = .running)
    (ht : s.deployRequest.targeted = false)
    (h : deployRounds P id info rounds s = some s') : ReflTransGen (Work P env) s s' := by
  induction rounds generalizing s c with
  | zero => exact Option.some.inj h ▸ .single (.finish hc hp ht)
  | succ rounds ih =>
      have hdep : ∀ {t d}, protoconDeploy P s id info rounds = some (t, d) →
          DeployedBy P env s id (.untargeted rounds) t d := fun hd =>
        protoconDeployWith_deployedBy ⟨⟨c, hc, hp⟩, by simp [ht]⟩ (fun _ _ hsel => by
          obtain ⟨hlt, hs⟩ := servicePlannerSelectProtocon_passive hsel
          exact ⟨hlt, hs, fun hb => absurd hb (by simp)⟩) hd
      unfold deployRounds at h
      split at h
      · exact absurd h (by simp)
      next t e hd =>
        cases hdep hd with
        | failed => exact Option.some.inj h ▸ .single (.finish hc hp ht)
      next t hd =>
        cases hdep hd with
        | blocked hacts => exact Option.some.inj h ▸ hacts
      next t hd =>
        cases hdep hd with
        | started hacts hc' hw hb hrequest hdone =>
            obtain ⟨d, hd', hdp⟩ := State.started_running hc'
            exact (hacts.tail (.start hc' hw (by simp [hb]) hdone)).trans
              (ih hd' hdp ((congrArg MonitorDeployRequest.targeted hrequest).trans ht) h)

/-- A spawned deployment up to its first wait or its return. -/
theorem monitorCallDeploySecondHalf_work {s s' : State} {id : Nat} {c : Cothread}
    (hc : s.cothreads id = some c) (hp : c.point = .running)
    (h : monitorCallDeploySecondHalf P env s id = some s') :
    ReflTransGen (Work P env) s s' := by
  unfold monitorCallDeploySecondHalf at h
  cases ht : s.deployRequest.targeted with
  | false =>
      simp only [ht, Bool.not_false, Bool.true_and, Bool.false_eq_true, if_false] at h
      split at h
      · exact Option.some.inj h ▸ .single (.finish hc hp ht)
      · split at h
        · exact Option.some.inj h ▸ .single (.finish hc hp ht)
        · exact deployRounds_work hc hp ht h
  | true =>
      simp only [ht, Bool.not_true, Bool.false_and, Bool.false_eq_true, if_false, if_true] at h
      split at h
      · have hfail : Work P env s (finishTargeted env s id .failToDeploy) :=
          .failTargeted hc hp ht (by simp) (by simp)
        exact Option.some.inj h ▸ .single hfail
      next info _ =>
        have hdep : ∀ {t d},
            protoconDeployToProtocon P s id info s.deployRequest.targetPc.toNat = some (t, d) →
            DeployedBy P env s id .targeted t d := fun hd =>
          protoconDeployWith_deployedBy ⟨⟨c, hc, hp⟩, by simp [ht]⟩ (fun req p hsel => by
            obtain ⟨rfl, hlt, hs⟩ := servicePlannerSelectProtoconById_passive hsel
            exact ⟨hlt, hs, fun _ => rfl⟩) hd
        split at h
        · exact absurd h (by simp)
        next t e hd =>
          cases hdep hd with
          | failed he hended =>
              exact Option.some.inj h ▸ .single (.failTargeted hc hp ht he hended)
        next t hd =>
          cases hdep hd with
          | blocked hacts => exact Option.some.inj h ▸ hacts
        next t hd =>
          cases hdep hd with
          | started hacts hc' hw hb _ hdone =>
              exact Option.some.inj h ▸ hacts.tail (.startTargeted hc' hw hb hdone)

theorem State.setPoint_setPoint (s : State) (id : Nat) (pt pt' : Point) :
    (s.setPoint id pt).setPoint id pt' = s.setPoint id pt' := by
  simp only [State.setPoint, State.modifyCothread, Function.update_self, Function.update_idem,
    Option.map_map]
  rfl

/-- A resumed cothread has its command answered and goes on from there. -/
theorem resumeCothread_work {s s' : State} {id : Nat} {c : PicoVfs.Completion}
    (hs : BranchOk s) (h : resumeCothread P env s id c = some s') :
    ∃ t, Answer s id c t ∧ ReflTransGen (Work P env) t s' := by
  unfold resumeCothread at h
  split at h
  · exact absurd h (by simp)
  next co hco =>
    split at h
    next w hw =>
      split at h
      · exact absurd h (by simp)
      next svc r hr =>
        unfold resumeInstalling at h
        split at h
        · exact absurd h (by simp)
        next stores w' hresume =>
          have hbranch := (serviceInstallerResume_extends hresume).branch
          have hpoint := State.cothreads_setPoint (s := { s with mem := writes s.mem stores })
            (.installing w') hco
          refine ⟨s.installed id stores w', .intro hco hw hr hresume, ?_⟩
          -- The frame is put in place before the installer goes on.
          have hcontinue : protoconContinue P { s with mem := writes s.mem stores } id w' =
              protoconContinue P (s.installed id stores w') id w' := by
            unfold protoconContinue State.installed
            dsimp only
            rw [State.setPoint_setPoint]
            rfl
          rw [hcontinue] at h
          have hdep : ∀ {t d}, protoconContinue P (s.installed id stores w') id w' = some (t, d) →
              DeployedBy P env (s.installed id stores w') id w'.branch t d :=
            fun hd => protoconContinue_deployedBy hpoint rfl hd
          split at h
          · exact absurd h (by simp)
          next t e hd => exact absurd hd (protoconContinue_ne_failed _)
          next t hd =>
            cases hdep hd with
            | blocked hacts => exact Option.some.inj h ▸ hacts
          next t hd =>
            cases hdep hd with
            | started hacts hc' hw' hb hrequest hdone =>
                split at h
                next hbw =>
                  exact Option.some.inj h ▸
                    hacts.tail (.startTargeted hc' hw' (hb.trans hbw) hdone)
                next rounds hbw =>
                  have ht : s.deployRequest.targeted = false := by
                    have := hs id co w hco hw
                    simpa [← hbranch, hbw] using this
                  obtain ⟨d, hd', hdp⟩ := State.started_running hc'
                  exact (hacts.tail (.start hc' hw' (by simp [hb, hbw]) hdone)).trans
                    (deployRounds_work hd' hdp
                      ((congrArg MonitorDeployRequest.targeted hrequest).trans ht) h)
    all_goals exact absurd h (by simp)

theorem State.cothreads_spawn (s : State) :
    s.spawn.cothreads s.spawned = some { request := s.deployRequest, point := .running } :=
  Function.update_self ..

/-- `monitor_call_deploy_first_half` gets past its checks. -/
def AcceptsDeploy (P : Platform) (s : State) (n : BitVec 64) : Prop :=
  monitorCheckDeployNum P n.toNat = true ∧ s.deployRequestActive = false

/-- `monitor_call_deploy_to_protocon` gets past its checks, with this mask. -/
def AcceptsTargeted (P : Platform) (s : State) (pcId given all mask : BitVec 64) : Prop :=
  pcId.toNat < P.numPc ∧ s.lifecycle pcId.toNat = .passive ∧
    resolvePeers P pcId given all = some mask ∧ s.deployRequestActive = false

/-- An accepted deployment runs as a cothread, or is taken back when there is none. -/
theorem monitorDeploySecondHalf_cases {s s' : State} {e : PcMonitorError}
    (h : monitorDeploySecondHalf P env s = some (s', e)) :
    (env.spawnOk = true ∧ e = .noError ∧ ReflTransGen (Work P env) s.spawn s') ∨
      (env.spawnOk = false ∧ e = .failToInitCoroutine ∧ s' = monitorFinishDeployRequest s none) := by
  unfold monitorDeploySecondHalf at h
  cases hok : env.spawnOk with
  | true =>
      rw [if_pos hok] at h
      obtain ⟨u, hu, h⟩ := Option.map_eq_some_iff.mp h
      rw [Prod.mk.injEq] at h
      exact Or.inl ⟨rfl, h.2.symm, h.1 ▸
        monitorCallDeploySecondHalf_work (State.cothreads_spawn s) rfl hu⟩
  | false =>
      rw [if_neg (by simp [hok]), Option.some.injEq, Prod.mk.injEq] at h
      exact Or.inr ⟨rfl, h.2.symm, h.1.symm⟩

/-- A deploy call is rejected with no change, taken back, or spawns a deployment. -/
theorem monitorCallDeployFirstHalf_cases {s s' : State} {n : BitVec 64} {m : Message}
    (h : monitorCallDeployFirstHalf P env s n = some (s', m)) :
    (¬ AcceptsDeploy P s n ∧ s' = s) ∨
      (AcceptsDeploy P s n ∧ env.spawnOk = false ∧
        s' = monitorFinishDeployRequest (s.acceptUntargeted n) none) ∨
      (AcceptsDeploy P s n ∧ env.spawnOk = true ∧
        ReflTransGen (Work P env) (s.acceptUntargeted n).spawn s') := by
  unfold monitorCallDeployFirstHalf at h
  split at h
  next hn =>
    rw [Option.some.injEq, Prod.mk.injEq] at h
    refine Or.inl ⟨fun hacc => ?_, h.1.symm⟩
    rw [hacc.1] at hn
    exact absurd hn (by simp)
  next hn =>
    cases hact : s.deployRequestActive with
    | true =>
        simp only [monitorResetDeployRequest, hact, if_true, Option.some.injEq,
          Prod.mk.injEq] at h
        exact Or.inl ⟨fun hacc => absurd (hact.symm.trans hacc.2) (by simp), h.1.symm⟩
    | false =>
        have hacc : AcceptsDeploy P s n := ⟨by simpa using hn, hact⟩
        simp only [monitorResetDeployRequest, hact, Bool.false_eq_true, if_false] at h
        obtain ⟨⟨t, e⟩, ht, h⟩ := Option.map_eq_some_iff.mp h
        rw [Prod.mk.injEq] at h
        rw [← h.1]
        rcases monitorDeploySecondHalf_cases (s := s.acceptUntargeted n) ht with
          ⟨hok, -, hacts⟩ | ⟨hok, -, ht⟩
        · exact Or.inr (Or.inr ⟨hacc, hok, hacts⟩)
        · exact Or.inr (Or.inl ⟨hacc, hok, ht⟩)

theorem monitorCallDeployToProtocon_cases {s s' : State} {pcId given all : BitVec 64}
    {m : Message} (h : monitorCallDeployToProtocon P env s pcId given all = some (s', m)) :
    ((∀ mask, ¬ AcceptsTargeted P s pcId given all mask) ∧ s' = s ∧ m.label ≠ .noError) ∨
      ∃ mask, AcceptsTargeted P s pcId given all mask ∧
        ((env.spawnOk = false ∧ m.label ≠ .noError ∧
          s' = ((monitorFinishDeployRequest (s.acceptTargeted pcId mask) none).setResultError
            .failToInitCoroutine).setResultReady) ∨
        (env.spawnOk = true ∧ m.label = .noError ∧
          ReflTransGen (Work P env) (s.acceptTargeted pcId mask).spawn s')) := by
  unfold monitorCallDeployToProtocon at h
  split at h
  next hpc =>
    obtain ⟨rfl, rfl⟩ := Prod.mk.inj (Option.some.inj h)
    exact Or.inl ⟨fun mask hacc => absurd hacc.1 (by omega), rfl, by simp⟩
  next hpc =>
    split at h
    next hpassive =>
      obtain ⟨rfl, rfl⟩ := Prod.mk.inj (Option.some.inj h)
      refine Or.inl ⟨fun mask hacc => ?_, rfl, by simp⟩
      simp [State.checkLifecycleState, hacc.2.1] at hpassive
    next hpassive =>
      split at h
      next hmask =>
        obtain ⟨rfl, rfl⟩ := Prod.mk.inj (Option.some.inj h)
        exact Or.inl ⟨fun mask hacc => absurd (hmask.symm.trans hacc.2.2.1) (by simp), rfl,
          by simp⟩
      next mask hmask =>
        split at h
        next hact =>
          obtain ⟨rfl, rfl⟩ := Prod.mk.inj (Option.some.inj h)
          exact Or.inl ⟨fun mask hacc => absurd (hact.symm.trans hacc.2.2.2) (by simp), rfl,
            by simp⟩
        next hact =>
          have hacc : AcceptsTargeted P s pcId given all mask :=
            ⟨by omega, by simpa [State.checkLifecycleState] using hpassive, hmask,
              by simpa using hact⟩
          refine Or.inr ⟨mask, hacc, ?_⟩
          split at h
          · exact absurd h (by simp)
          next t ht =>
            rcases monitorDeploySecondHalf_cases ht with ⟨hok, -, hacts⟩ | ⟨-, he, -⟩
            · obtain ⟨rfl, rfl⟩ := Prod.mk.inj (Option.some.inj h)
              exact Or.inr ⟨hok, rfl, hacts⟩
            · exact absurd he (by simp)
          next t e hne ht =>
            rcases monitorDeploySecondHalf_cases ht with ⟨-, he, -⟩ | ⟨hok, rfl, rfl⟩
            · exact absurd he hne
            · obtain ⟨rfl, rfl⟩ := Prod.mk.inj (Option.some.inj h)
              exact Or.inl ⟨hok, by simp, rfl⟩

/-- A deploy call does nothing, or is accepted and then worked on. -/
theorem monitorCallDeployFirstHalf_accept {s s' : State} {n : BitVec 64} {m : Message}
    (h : monitorCallDeployFirstHalf P env s n = some (s', m)) :
    s' = s ∨ s.deployRequestActive = false ∧
      ∃ t, Accept P s .deploy t ∧ ReflTransGen (Work P env) t s' := by
  rcases monitorCallDeployFirstHalf_cases h with
    ⟨-, hs⟩ | ⟨⟨-, hact⟩, -, rfl⟩ | ⟨⟨hn, hact⟩, -, hacts⟩
  · exact Or.inl hs
  · exact Or.inr ⟨hact, _, .refuse hact, .refl⟩
  · exact Or.inr ⟨hact, _, .accept hact hn, hacts⟩

theorem monitorCallDeployToProtocon_accept {s s' : State} {pcId given all : BitVec 64}
    {m : Message} (h : monitorCallDeployToProtocon P env s pcId given all = some (s', m)) :
    s' = s ∨ s.deployRequestActive = false ∧
      ∃ t, Accept P s .deployToProtocon t ∧ ReflTransGen (Work P env) t s' := by
  rcases monitorCallDeployToProtocon_cases h with
    ⟨-, hs, -⟩ | ⟨mask, ⟨hpc, hs, hmask, hact⟩, ⟨-, -, rfl⟩ | ⟨-, -, hacts⟩⟩
  · exact Or.inl hs
  · exact Or.inr ⟨hact, _, .refuseTargeted hact, .refl⟩
  · exact Or.inr ⟨hact, _, .acceptTargeted hact hpc hs hmask, hacts⟩

theorem stopTarget_refines {s s' : State} {ch : BitVec 32} {msg m : Message} {c : BitVec 32}
    (hch : P.callChannel ch = true) (hmsg : stopTarget ch msg = some c)
    (h : monitorCallStopAndRestoreProtocon P env s c = some (s', m)) :
    Control P s (.call ch msg env) s' := by
  rcases monitorCallStopAndRestoreProtocon_cases h with ⟨-, rfl, -⟩ | ⟨hc, htcb, rfl, -⟩
  · exact .idle
  · exact .stop hch hmsg hc htcb

/-- Every call is one control action, or a deploy call that is accepted and worked on. -/
theorem monitorMainHandlePccall_refines {s s' : State} {ch : BitVec 32} {msg m : Message}
    (hch : P.callChannel ch = true)
    (h : monitorMainHandlePccall P env s ch msg = some (s', m)) :
    Control P s (.call ch msg env) s' ∨ ∃ id t, CallId.ofNumber (msg.get 0) = some id ∧
      Accept P s id t ∧ ReflTransGen (Work P env) t s' := by
  unfold monitorMainHandlePccall at h
  split at h
  next hid =>
    rcases monitorCallDeployFirstHalf_accept h with rfl | ⟨-, t, ht, hacts⟩
    · exact Or.inl .idle
    · exact Or.inr ⟨_, t, hid, ht, hacts⟩
  next hid =>
    rcases monitorCallDeployToProtocon_accept h with rfl | ⟨-, t, ht, hacts⟩
    · exact Or.inl .idle
    · exact Or.inr ⟨_, t, hid, ht, hacts⟩
  next hid =>
    have hs : (monitorCallDeployResult s).1 = s := by
      unfold monitorCallDeployResult
      split <;> rfl
    rw [Option.some.inj h] at hs
    exact Or.inl (hs ▸ .idle)
  next hid => exact Or.inl ((Prod.mk.inj (Option.some.inj h)).1 ▸ .flip)
  next hid =>
    have hacl : Control P s (.call ch msg env) _ := .setAcl hid
    rw [Option.some.inj h] at hacl
    exact Or.inl hacl
  next hid =>
    unfold monitorCallBackupProtoconLoadingContext at h
    split at h
    · exact absurd h (by simp)
    · exact Or.inl ((Prod.mk.inj (Option.some.inj h)).1 ▸ .idle)
  next hid => exact Or.inl (stopTarget_refines hch (by simp [stopTarget, hid]) h)
  next hid =>
    rcases monitorCallSuspendProtocon_cases h with
      ⟨-, rfl, -⟩ | ⟨hc, -, ⟨-, rfl⟩ | ⟨hs, -, rfl⟩⟩
    · exact Or.inl .idle
    · exact Or.inl .notify
    · exact Or.inl (.suspend (by simp [suspendTarget, hid]) hc hs)
  next hid =>
    rcases monitorCallResumeProtocon_cases h with
      ⟨-, rfl, -⟩ | ⟨hc, -, ⟨-, rfl⟩ | ⟨hs, -, rfl⟩⟩
    · exact Or.inl .idle
    · exact Or.inl .notify
    · exact Or.inl (.resume (by simp [resumeTarget, hid]) hc hs)
  next hid => exact Or.inl ((Prod.mk.inj (Option.some.inj h)).1 ▸ .idle)
  next hid => exact Or.inl ((Prod.mk.inj (Option.some.inj h)).1 ▸ .idle)
  next hid => exact Or.inl (stopTarget_refines hch (by simp [stopTarget, hid]) h)
  next hid => exact Or.inl ((Prod.mk.inj (Option.some.inj h)).1 ▸ .idle)

/-- Every step is one control action, an answer to the deployment cothread, or a deploy call that
is accepted, and the work of the cothread after it. -/
theorem step_cases {s s' : State} {e : Event} (hs : BranchOk s) (h : step P s e = some s') :
    Control P s e s' ∨
      (∃ id c env t, e = .resume id c env ∧ Answer s id c t ∧ ReflTransGen (Work P env) t s') ∨
      ∃ ch msg env id t, e = .call ch msg env ∧ CallId.ofNumber (msg.get 0) = some id ∧
        Accept P s id t ∧ ReflTransGen (Work P env) t s' := by
  cases e with
  | call ch msg env =>
      simp only [step] at h
      split at h
      next hch =>
        obtain ⟨⟨t, m⟩, hcall, rfl⟩ := Option.map_eq_some_iff.mp h
        rcases monitorMainHandlePccall_refines hch hcall with hctl | ⟨id, t, hid, ht, hacts⟩
        · exact Or.inl hctl
        · exact Or.inr (Or.inr ⟨ch, msg, env, id, t, rfl, hid, ht, hacts⟩)
      next => exact absurd h (by simp)
  | fault child label ip address =>
      simp only [step] at h
      split at h
      next hc =>
        obtain ⟨-, ⟨hflag, rfl⟩ | ⟨hflag, rfl⟩⟩ :=
          monitorMainHandleFault_cases (Nat.lt_of_lt_of_le hc P.numPc_le) h
        · exact Or.inl (.faultStop hc hflag)
        · exact Or.inl (.faultRestore hc hflag)
      next => exact absurd h (by simp)
  | resume id c env =>
      obtain ⟨t, ht, hacts⟩ := resumeCothread_work hs h
      exact Or.inr (Or.inl ⟨id, c, env, t, rfl, ht, hacts⟩)
  | payload f => exact Or.inl (Option.some.inj h ▸ .payload)

theorem internal_of_work {s s' : State} (h : ReflTransGen (Work P env) s s') :
    ReflTransGen (Internal P env) s s' :=
  ReflTransGen.mono (fun _ _ hw => Internal.work hw) _ _ h

/-- Every step is one control action, or a sequence of internal ones. -/
theorem step_refines {s s' : State} {e : Event} (hs : BranchOk s) (h : step P s e = some s') :
    Refines (Control P) (Internal P e.env) (· = e) s s' := by
  rcases step_cases hs h with hctl | ⟨id, c, env, t, rfl, ht, hacts⟩ |
    ⟨ch, msg, env, id, t, rfl, -, ht, hacts⟩
  · exact .control e rfl hctl
  · exact .internal (.head (.answer ht) (internal_of_work hacts))
  · exact .internal (.head (.accept ht) (internal_of_work hacts))

/-- The cothread never takes back a spawn. -/
theorem Work.spawned_eq (h : Work P env s s') : s'.spawned = s.spawned := by
  cases h with
  | startTargeted =>
      rw [finishTargeted_eq, (State.concluded_frame _ env _).1]
      rfl
  | failTargeted =>
      rw [finishTargeted_eq, (s.concluded_frame env _).1]
      rfl
  | _ => rfl

theorem spawned_eq_of_work (h : ReflTransGen (Work P env) s s') : s'.spawned = s.spawned :=
  preserved_of_reflTransGen (I := fun t => t.spawned = s.spawned)
    (fun _ _ heq ht => ht.spawned_eq.trans heq) h rfl

end

end Monitor
end Carrels
