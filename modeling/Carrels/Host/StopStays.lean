/-
A stopped container stays stopped.

A stop looks at the monitor only: it ends a protocon that runs, and gives its slot back when
the monitor reports it as not running.  A deployment that is still to start its protocon is not
running either, and the stop neither cancels it nor leaves its slot in use.  A run keeps stopped
containers stopped as long as no stop of this kind is handled in it.
-/
import Carrels.Host.InFlight

namespace Carrels
namespace Host

open Monitor (Platform StartRecord Lifetime DeployInv Message)
open Orchestrator (Config CriObject CriOp CriResult KeepsCommands processRequest)
open ByteMemory StepSystem

/-! ## The statement -/

/-- The starts that have been made from `s` to `s'`. -/
def System.newStarts (s s' : System) : List StartRecord :=
  s'.monitor.starts.take (s'.monitor.starts.length - s.monitor.starts.length)

/-- The system with two histories: the containers that have been stopped and not been started
since, and the starts that were made on behalf of one of them. -/
structure Watched where
  sys : System
  stopped : List (List UInt8) := []
  late : List StartRecord := []

/-- What the orchestrator answers to a request. -/
def answered (P : Platform) (cfg : Config) (s : System) (op : BitVec 16) (request : CriObject)
    (spawnOk : Bool) (turns : List Turn) : Option CriResult := do
  let orc ← s.enter (.request op request spawnOk) turns
  let (_, _, result) ← processRequest cfg (port P) spawnOk orc op request
  some result

/-- A stop that has been answered `CRI_OK` lasts until the next start of the container. -/
def stoppedAfter (stopped : List (List UInt8)) (op : BitVec 16) (id : List UInt8)
    (answer : Option CriResult) : List (List UInt8) :=
  if answer = some .ok then
    if CriOp.ofNumber op = some .stopContainer then id :: stopped
    else if CriOp.ofNumber op = some .startContainer then stopped.filter (· ≠ id)
    else stopped
  else stopped

namespace Watched

def stoppedNext (P : Platform) (cfg : Config) (w : Watched) : Event → List (List UInt8)
  | .orchestrator (.request op request spawnOk) turns =>
    stoppedAfter w.stopped op request.id (answered P cfg w.sys op request spawnOk turns)
  | _ => w.stopped

/-- The starts of a step that were made on behalf of a container that had been stopped. -/
def lateStarts (w : Watched) (s : System) : List StartRecord :=
  (w.sys.newStarts s).filter fun r => (s.startedFor r.cothread).any fun c => c ∈ w.stopped

def step (P : Platform) (cfg : Config) (w : Watched) (e : Event) : Option Watched :=
  (Host.step P cfg w.sys e).map fun s =>
    { sys := s, stopped := w.stoppedNext P cfg e, late := w.late ++ w.lateStarts s }

def init (P : Platform) : Watched := { sys := Host.init P }

end Watched

structure StaysStopped (w : Watched) : Prop where
  /-- No deployment makes a protocon active for a container that has been stopped since. -/
  late : w.late = []
  /-- A protocon that is active on behalf of a CRI start has its slot in use. -/
  slots : ∀ p, w.sys.monitor.lifecycle p = .active → w.sys.OnBehalf p →
    BitMask.Has w.sys.orc.criSlotsInUse p

/-! ## When it holds -/

/-- A stop of the container whose deployment is in flight, or of a container that names its
slot. -/
def StopsInFlight (s : System) : Event → Prop
  | .orchestrator (.request op request _) _ =>
    CriOp.ofNumber op = some .stopContainer ∧ s.InFlight ∧
      ∃ i < Orchestrator.criMaxObjects, Orchestrator.find s.orc.containers request.id = some i ∧
        (s.pendingFor = some request.id ∨
          ((s.orc.containers i).state = 1 ∧
            (s.orc.containers i).networkNs = s.orc.deployPcId))
  | _ => False

def KeepsStopped (w : Watched) (e : Event) : Prop :=
  KeepsResults w.sys e ∧ ¬ StopsInFlight w.sys e

instance (s : System) : (e : Event) → Decidable (StopsInFlight s e)
  | .orchestrator (.request op request _) _ =>
    inferInstanceAs (Decidable (CriOp.ofNumber op = some .stopContainer ∧ s.InFlight ∧
      ∃ i < Orchestrator.criMaxObjects, Orchestrator.find s.orc.containers request.id = some i ∧
        (s.pendingFor = some request.id ∨
          ((s.orc.containers i).state = 1 ∧
            (s.orc.containers i).networkNs = s.orc.deployPcId))))
  | .orchestrator (.shell _ _) _ | .orchestrator (.fsReply _ _) _
  | .orchestrator .notifiedMonitor _ | .orchestrator .yield _ | .orchestrator .fsMounted _
  | .orchestrator (.imageProbed _) _ | .orchestrator (.monitor _) _ | .monitor _ =>
    inferInstanceAs (Decidable False)

instance (w : Watched) (e : Event) : Decidable (KeepsStopped w e) :=
  inferInstanceAs (Decidable (KeepsResults w.sys e ∧ ¬ StopsInFlight w.sys e))

section

variable {P : Platform} {cfg : Config} {s s' : System} {stopped : List (List UInt8)}

/-! ## The query -/

/-- The answer to a query tells which protocons are in use. -/
theorem query_spec {n n' : Node} {answer : Message} (hD : DeployInv P n.monitor)
    (hturns : ∀ turn ∈ n.turns, turn.Quiet)
    (h : (port P).call n Orchestrator.queryProtoconsMessage = some (n', answer)) :
    NodeAdvance P n n' ∧ answer.label = .noError ∧ ∀ p < Monitor.pcChildMaxNum,
      BitMask.Has (answer.get 0) p ↔ n'.monitor.inUse p = true := by
  refine ⟨call_advance hD hturns (Orchestrator.CriMessage.quiet .query) h, ?_⟩
  obtain ⟨turn, turns, m, m', -, -, hcall, rfl⟩ := port_call h
  have hquery : Monitor.monitorCallQueryProtocons m Monitor.orchestratorChannel = (m', answer) :=
    Option.some.inj hcall
  obtain ⟨rfl, rfl⟩ := Prod.mk.inj hquery
  exact ⟨rfl, fun p hp => Monitor.monitorCallQueryProtocons_inUse hp⟩

theorem StopInv.not_live (h : StopInv P cfg s stopped) {answer : Message} {pcId : Nat}
    (hanswer : ∀ p < Monitor.pcChildMaxNum,
      BitMask.Has (answer.get 0) p ↔ s.monitor.inUse p = true)
    (hbit : answer.get 0 &&& 1#64 <<< pcId = 0) : ¬ s.Live pcId := by
  intro hp
  have hlt := Nat.lt_of_lt_of_le (h.live pcId hp).1 P.numPc_le
  exact (BitMask.and_bit_eq_zero_iff _ _).mp hbit ((hanswer pcId hlt).mpr hp.1)

theorem stoppedBy_answer {n n' : Node} {pcId : BitVec 32} (hD : DeployInv P n.monitor)
    (hturns : ∀ turn ∈ n.turns, turn.Quiet) (h : Orchestrator.StoppedBy (port P) pcId n n') :
    ∃ answer : Message, (∀ p < Monitor.pcChildMaxNum,
      BitMask.Has (answer.get 0) p ↔ n'.monitor.inUse p = true) ∧
      answer.get 0 &&& 1#64 <<< pcId.toNat = 0 := by
  obtain ⟨n₁, reply, hcall, -, answer, hquery, -, hbit⟩ := h.terminated
  have hn := call_advance hD hturns (Orchestrator.CriMessage.quiet (.terminate pcId)) hcall
  obtain ⟨-, -, hanswer⟩ := query_spec hn.deployInv (fun turn ht => hturns turn (hn.turns turn ht))
    hquery
  exact ⟨answer, hanswer, hbit⟩

/-- `monitor_protocon_is_running` in a valid slot: the monitor says whether it is in use. -/
theorem isRunning_spec {orc orc' : Orchestrator.State Node} {pcId : BitVec 32}
    {running : Option Bool} (hD : DeployInv P orc.monitor.monitor)
    (hturns : ∀ turn ∈ orc.monitor.turns, turn.Quiet) (hlt : pcId.toNat < cfg.maxPorts)
    (h : Orchestrator.monitorProtoconIsRunning cfg (port P) orc pcId = some (orc', running)) :
    NodeAdvance P orc.monitor orc'.monitor ∧ ∃ answer : Message,
      (∀ p < Monitor.pcChildMaxNum,
        BitMask.Has (answer.get 0) p ↔ orc'.monitor.monitor.inUse p = true) ∧
      (running = some true ∨ answer.get 0 &&& 1#64 <<< pcId.toNat = 0) := by
  rw [Orchestrator.monitorProtoconIsRunning, if_neg (Nat.not_le.mpr hlt)] at h
  obtain ⟨⟨orc₁, answer⟩, hcall, h⟩ := Option.bind_eq_some_iff.mp h
  obtain ⟨n, hn, rfl⟩ := Orchestrator.State.ppcall_frame hcall
  obtain ⟨hadvance, hlabel, hanswer⟩ := query_spec hD hturns hn
  dsimp only at h
  rw [if_neg (not_not.mpr hlabel), Option.some.injEq, Prod.mk.injEq] at h
  obtain ⟨rfl, rfl⟩ := h
  refine ⟨hadvance, answer, hanswer, ?_⟩
  by_cases hbit : answer.get 0 &&& 1#64 <<< pcId.toNat = 0
  · exact .inr hbit
  · exact .inl (congrArg some (bne_iff_ne.mpr hbit))

/-! ## A notification -/

section

variable {n : Node} (hmonitor : n.monitor = { s.monitor with notified := false })
  (haccepted : n.accepted = s.orc.monitor.accepted)

include hmonitor

theorem Underway.cleared (h : Underway P s) : Underway P (s.withNode n) := by
  have hdeploying : (s.withNode n).monitor.Deploying ↔ s.monitor.Deploying := by
    rw [show (s.withNode n).monitor = _ from hmonitor]
    rfl
  have hrequest : (s.withNode n).monitor.deployRequest = s.monitor.deployRequest := by
    rw [show (s.withNode n).monitor = _ from hmonitor]
  refine ⟨?_, h.fresh, fun hs => h.pending (hdeploying.mp hs),
    fun hs => h.loading (hdeploying.mp hs), fun hs => ?_⟩
  · rw [show (s.withNode n).monitor = _ from hmonitor]
    exact cleared_deployInv h.deployInv
  · rw [hrequest]
    exact h.target (hdeploying.mp hs)

include haccepted

theorem StopInv.cleared (h : StopInv P cfg s stopped) :
    StopInv P cfg (s.withNode n) stopped := by
  obtain ⟨m, turns, caller, accepted⟩ := n
  dsimp only at hmonitor haccepted
  subst hmonitor haccepted
  exact ⟨h.count, h.idle, h.owner, h.request, h.flight, h.asked, h.failed, h.live,
    fun a ha => ⟨(h.accepted a ha).spawned, (h.accepted a ha).targeted, (h.accepted a ha).loader,
      (h.accepted a ha).alive⟩, h.starts⟩

variable {orc' : Orchestrator.State Node} {m : Node} {reply : Message} {turns : List Turn}

/-- The result is read, and the slot given back when the deployment has failed or its protocon
is not running. -/
theorem StopInv.taken (h : StopInv P cfg s stopped) (hC : CompletionInv P s)
    (hturns : ∀ turn ∈ n.turns, turn.Quiet)
    (hold : ¬ TakesOldResult s (.orchestrator .notifiedMonitor turns))
    (hpending : s.orc.deployPending = true)
    (hcall : (port P).call n Orchestrator.deployResultMessage = some (m, reply))
    (hlabel : reply.label ≠ .deployInProgress) (hafter : orc'.deployPending = false)
    (hfromCri : orc'.deployFromCri = false)
    (hsettled : Orchestrator.Settled cfg (port P) { s.orc with monitor := m } reply orc')
    (hcommands : KeepsCommands s.orc orc')
    (hcalls : (port P).Calls Orchestrator.QuietMessage m orc'.monitor) :
    StopInv P cfg (s.leave P .notifiedMonitor { s.orc with monitor := n } orc') stopped ∧
      InTime s (s.leave P .notifiedMonitor { s.orc with monitor := n } orc') stopped := by
  obtain ⟨hnone, htarget, hended⟩ := hC.own_result hmonitor hturns hold hpending hcall hlabel
  have h₀ := h.cleared hmonitor haccepted
  have hu₀ := hC.underway.cleared hmonitor
  obtain ⟨hread, hreply⟩ := resultCall hu₀.deployInv hturns hcall
  have hturns' : ∀ turn ∈ m.turns, turn.Quiet := fun turn ht => hturns turn (hread.turns turn ht)
  have hrest := calls_advance hread.deployInv hturns' hcalls
  have hall : NodeAdvance P (s.withNode n).orc.monitor orc'.monitor :=
    hread.trans hu₀.deployInv hrest
  have h₂ := h₀.advance hu₀ hall
  have hsame := hrest.advance.sameResult hended
  have hended' : ¬ orc'.monitor.monitor.Deploying := fun hd => hended (hsame.deploying.mp hd)
  have hflight : ¬ ((s.withNode n).withNode orc'.monitor).InFlight := fun hf => by
    obtain ⟨-, -, ⟨k, hk⟩ | hd⟩ := (inFlight_iff
      (s := (s.withNode n).withNode orc'.monitor) hC.fresh).mp hf
    · exact hnone k hk
    · exact hended' hd
  -- A slot that is given back is the deployment's, and nothing runs in it.
  have hslots : orc'.criSlotsInUse = s.orc.criSlotsInUse ∨ s.orc.deployFromCri = true ∧
      orc'.criSlotsInUse = (s.orc.clearSlot s.orc.deployPcId).criSlotsInUse ∧
      ¬ ((s.withNode n).withNode orc'.monitor).Live s.orc.deployPcId.toNat := by
    cases hsettled with
    | shell _ hslots => exact .inl hslots
    | failed hcri herror hslots =>
      rw [htarget] at hslots
      refine .inr ⟨hcri, hslots, h₂.failed hpending hcri hflight ?_⟩
      have hready : reply.label = m.monitor.deployResult.error := by
        rw [hreply, Monitor.monitorCallDeployResult] at hlabel ⊢
        split at hlabel
        · exact absurd rfl hlabel
        case isFalse hready => rw [if_neg hready]
      show orc'.monitor.monitor.deployResult.error ≠ .noError
      rw [hsame.result, ← hready]
      exact herror
    | queried running hcri _ hquery hslots =>
      rw [htarget] at hquery hslots
      obtain ⟨-, answer, hanswer, hrunning⟩ := isRunning_spec hread.deployInv hturns'
        (h.request hpending hcri).1 hquery
      by_cases hrun : running = some true
      · rw [if_pos hrun] at hslots
        exact .inl hslots
      · rw [if_neg hrun] at hslots
        exact .inr ⟨hcri, hslots, h₂.not_live hanswer (hrunning.resolve_left hrun)⟩
  have hfor : ∀ id, (s.leave P .notifiedMonitor { s.orc with monitor := n } orc').startedFor id =
      ((s.withNode n).withNode orc'.monitor).startedFor id := h₂.startedFor_same rfl hcommands
  refine ⟨h₂.ended (hu₀.advance hall) hended' (.refl _) rfl hcommands hafter hfromCri
    fun p hp => ?_, ?_⟩
  · show BitMask.Has orc'.criSlotsInUse p
    have hslot := (h₂.live p hp).2
    rcases hslots with hslots | ⟨hcri, hslots, hnot⟩
    · rw [hslots]
      exact hslot
    · have hlt : s.orc.deployPcId.toNat < 32 :=
        Nat.lt_of_lt_of_le (h.request hpending hcri).1 cfg.maxPorts_le
      rw [hslots]
      refine (BitMask.has_and_not_bit hlt).mpr ⟨hslot, ?_⟩
      rintro rfl
      exact hnot hp
  · have hstarts : (s.withNode n).monitor.starts = s.monitor.starts := by
      rw [show (s.withNode n).monitor = _ from hmonitor]
    have htime : InTime (s.withNode n)
        (s.leave P .notifiedMonitor { s.orc with monitor := n } orc') stopped :=
      (h₀.advance_inTime hu₀ hall).congr rfl hfor
    rwa [InTime, hstarts] at htime

theorem StopInv.notified (h : StopInv P cfg s stopped) (hC : CompletionInv P s)
    (hC' : CompletionInv P (s.leave P .notifiedMonitor { s.orc with monitor := n } orc'))
    (hturns : ∀ turn ∈ n.turns, turn.Quiet)
    (hold : ¬ TakesOldResult s (.orchestrator .notifiedMonitor turns))
    (hs : Orchestrator.DeployStep cfg (port P) { s.orc with monitor := n } .notifiedMonitor orc') :
    StopInv P cfg (s.leave P .notifiedMonitor { s.orc with monitor := n } orc') stopped ∧
      InTime s (s.leave P .notifiedMonitor { s.orc with monitor := n } orc') stopped := by
  have hstarts : (s.withNode n).monitor.starts = s.monitor.starts := by
    rw [show (s.withNode n).monitor = _ from hmonitor]
  have h₀ := h.cleared hmonitor haccepted
  have hu₀ := hC.underway.cleared hmonitor
  have hquiet : ∀ n', NodeAdvance P n n' → orc' = { s.orc with monitor := n' } →
      StopInv P cfg (s.leave P .notifiedMonitor { s.orc with monitor := n } orc') stopped ∧
        InTime s (s.leave P .notifiedMonitor { s.orc with monitor := n } orc') stopped := by
    rintro n' hn rfl
    have h₁ := h₀.advance hu₀ hn
    refine ⟨h₁.frame hC.fresh hC'.fresh rfl rfl (leave_pending_same rfl) rfl (.refl _)
      (fun _ => Iff.rfl) (.congr rfl), ?_⟩
    have htime := h₀.advance_inTime hu₀ hn
    rwa [InTime, hstarts] at htime
  cases hs with
  | kept he => exact absurd rfl he
  | begun he => exact absurd rfl he
  | ignored => exact hquiet n (.refl hu₀.deployInv) rfl
  | waited _ hcall => exact hquiet _ (resultCall hu₀.deployInv hturns hcall).1 rfl
  | taken hpending hcall hlabel hafter hfromCri hsettled hloaders hcalls =>
    exact h.taken hmonitor haccepted hC hturns hold hpending hcall hlabel hafter hfromCri hsettled
      hloaders.commands hcalls

end

/-! ## The other events -/

section

variable {e : Orchestrator.Event Node} {orc' : Orchestrator.State Node} {turns : List Turn}
  (h : StopInv P cfg s stopped) (hC : CompletionInv P s)
  (hturns : ∀ turn ∈ s.orc.monitor.turns, turn.Quiet)
  (hcaller : s.orc.monitor.caller = loaderOf e) (he : e ≠ .notifiedMonitor)
  (hmonitor : ∀ n, e ≠ .monitor n) (hs : Orchestrator.step cfg (port P) s.orc e = some orc')

include h hC hturns hcaller he hmonitor hs

theorem StopInv.handled_inTime : InTime s (s.leave P e s.orc orc') stopped := by
  have hkept : ∀ {kind : Message → Prop}, (∀ msg, kind msg → Orchestrator.QuietMessage msg) →
      (port P).Calls kind s.orc.monitor orc'.monitor → KeepsCommands s.orc orc' →
      InTime s (s.leave P e s.orc orc') stopped := by
    intro kind hquiet hcalls hcommands
    have hn := calls_advance hC.deployInv hturns (hcalls.mono hquiet)
    have hfor : ∀ id, (s.leave P e s.orc orc').startedFor id =
        (s.withNode orc'.monitor).startedFor id :=
      (h.advance hC.underway hn).startedFor_same rfl hcommands
    exact (h.advance_inTime hC.underway hn).congr rfl hfor
  cases Orchestrator.step_deploy hC.fresh hmonitor hs with
  | kept _ _ _ hloaders hcalls => exact hkept (fun _ hq => hq) hcalls hloaders.commands
  | stopped _ _ _ _ hstop _ _ hloaders =>
    exact hkept (fun _ => Orchestrator.CriMessage.quiet) hstop.calls hloaders.commands
  | ignored | waited | taken => exact absurd rfl he
  | begun _ _ _ _ _ _ _ hm =>
    exact ⟨[], congrArg (fun n => n.monitor.starts) hm, nofun⟩
  | abandoned hk hafter hfromCri hslots hcommands _ _ hm =>
    exact (h.abandoned hC hturns hk hafter hfromCri hslots hcommands hm).2
  | handedOver hk hpending _ hclaim hcommands hloading hfresh hlabel hcall =>
    exact (h.handedOver hC hturns hcaller hk hpending hclaim hcommands hloading hfresh hlabel
      hcall).2

theorem StopInv.handled (hfree : ¬ StopsInFlight s (.orchestrator e turns))
    (hfresh' : orc'.Fresh)
    (hrestarted : s.orc.deployPending = false → orc'.deployPending = true →
      ∀ op request spawnOk, e = .request op request spawnOk →
        CriOp.ofNumber op = some .startContainer → request.id ∉ stopped) :
    StopInv P cfg (s.leave P e s.orc orc') stopped := by
  have hu := hC.underway
  cases Orchestrator.step_deploy hC.fresh hmonitor hs with
  | kept _ hpending hclaim hloaders hcalls =>
    have hn := calls_advance hC.deployInv hturns hcalls
    exact (h.advance hu hn).frame hC.fresh hfresh' rfl rfl (leave_pending_same hpending) hpending
      (sameClaim_withNode hclaim _) hloaders.loading hloaders.commands
  | @stopped op request _ _ i hop hi hstate hlt hstop hpending hclaim hloaders =>
    have hn := calls_advance hC.deployInv hturns
      (hstop.calls.mono fun _ => Orchestrator.CriMessage.quiet)
    have h₁ := h.advance hu hn
    obtain ⟨answer, hanswer, hbit⟩ := stoppedBy_answer hC.deployInv hturns hstop
    have hother : (s.withNode orc'.monitor).InFlight →
        (s.orc.containers i).networkNs ≠ s.orc.deployPcId := by
      intro hf hns
      have hbefore : s.InFlight := by
        obtain ⟨hp, hc, hd⟩ := (inFlight_iff (s := s.withNode orc'.monitor) hC.fresh).mp hf
        exact (inFlight_iff hC.fresh).mpr
          ⟨hp, hc, hd.imp id fun hd => (hn.advance.deploying hd).1⟩
      exact hfree ⟨hop, hbefore, i, (Orchestrator.find_spec hi).1, hi, .inr ⟨hstate, hns⟩⟩
    have h₂ := h₁.released (Nat.lt_of_lt_of_le hlt cfg.maxPorts_le) (h₁.not_live hanswer hbit)
      hother
    exact h₂.frame hC.fresh hfresh' rfl rfl (leave_pending_same hpending) hpending
      ⟨hclaim.slots, hclaim.idle, hclaim.fromCri, hclaim.pcId, hclaim.peerMask, hclaim.peersAll⟩
      hloaders.loading hloaders.commands
  | ignored | waited | taken => exact absurd rfl he
  | begun _ hbefore hafter hclaims hcommands hloading hfresh hm =>
    exact h.begun hu hbefore hafter hclaims hcommands hloading hfresh hm
      (hrestarted hbefore hafter)
  | abandoned hk hafter hfromCri hslots hcommands _ _ hm =>
    exact (h.abandoned hC hturns hk hafter hfromCri hslots hcommands hm).1
  | handedOver hk hpending _ hclaim hcommands hloading hfresh hlabel hcall =>
    exact (h.handedOver hC hturns hcaller hk hpending hclaim hcommands hloading hfresh hlabel
      hcall).1

end

/-! ## Answers -/

theorem answered_eq {op : BitVec 16} {request : CriObject} {spawnOk : Bool} {turns : List Turn}
    {orc orc' : Orchestrator.State Node} {response : CriObject} {result : CriResult}
    (henter : s.enter (.request op request spawnOk) turns = some orc)
    (h : processRequest cfg (port P) spawnOk orc op request = some (orc', response, result)) :
    answered P cfg s op request spawnOk turns = some result := by
  rw [answered, henter]
  dsimp only [Option.bind_eq_bind, Option.bind_some]
  rw [h]
  rfl

/-- A container that is stopped from now on has been found. -/
theorem stop_found {op : BitVec 16} {request : CriObject} {spawnOk : Bool}
    {orc orc' : Orchestrator.State Node} {response : CriObject}
    (hop : CriOp.ofNumber op = some .stopContainer)
    (h : processRequest cfg (port P) spawnOk orc op request = some (orc', response, .ok)) :
    ∃ i, Orchestrator.find orc.containers request.id = some i := by
  have hdispatch := Orchestrator.processRequest_other (by rw [hop]; decide) h
  rw [Orchestrator.dispatch, hop] at hdispatch
  obtain ⟨hresult, -⟩ | ⟨i, hi, -⟩ := Orchestrator.stopContainer_cases hdispatch
  · cases hresult
  · exact ⟨i, hi⟩

theorem mem_stoppedNext {w : Watched} {e : Orchestrator.Event Node} {turns : List Turn}
    {orc orc' : Orchestrator.State Node} (henter : w.sys.enter e turns = some orc)
    (hs : Orchestrator.step cfg (port P) orc e = some orc') {c : List UInt8}
    (hc : c ∈ w.stoppedNext P cfg (.orchestrator e turns)) :
    c ∈ w.stopped ∨ ∃ op request spawnOk, e = .request op request spawnOk ∧
      CriOp.ofNumber op = some .stopContainer ∧ c = request.id ∧
      ∃ i, Orchestrator.find orc.containers request.id = some i := by
  cases e with
  | request op request spawnOk =>
    obtain ⟨⟨orc₁, response, result⟩, hrequest, rfl⟩ := Option.map_eq_some_iff.mp hs
    rw [Watched.stoppedNext, answered_eq henter hrequest, stoppedAfter] at hc
    split at hc
    case isTrue hok =>
      obtain rfl := Option.some.inj hok
      split at hc
      case isTrue hop =>
        rcases List.mem_cons.mp hc with rfl | hc
        · exact .inr ⟨op, request, spawnOk, rfl, hop, rfl, stop_found hop hrequest⟩
        · exact .inl hc
      case isFalse =>
        split at hc
        · exact .inl (List.mem_filter.mp hc).1
        · exact .inl hc
    case isFalse => exact .inl hc
  | _ => exact .inl hc

/-- The container of a start that makes a deployment pending is no longer stopped. -/
theorem started_not_mem {w : Watched} {e : Orchestrator.Event Node} {turns : List Turn}
    {orc orc' : Orchestrator.State Node} (henter : w.sys.enter e turns = some orc)
    (hs : Orchestrator.step cfg (port P) orc e = some orc')
    (hbefore : orc.deployPending = false) (hafter : orc'.deployPending = true)
    (op : BitVec 16) (request : CriObject) (spawnOk : Bool)
    (he : e = .request op request spawnOk) (hop : CriOp.ofNumber op = some .startContainer) :
    request.id ∉ w.stoppedNext P cfg (.orchestrator e turns) := by
  subst he
  obtain ⟨⟨orc₁, response, result⟩, hrequest, rfl⟩ := Option.map_eq_some_iff.mp hs
  have hok : result = .ok := by
    refine (Orchestrator.processRequest_start_result hop hrequest).resolve_right ?_
    rintro rfl
    exact Bool.false_ne_true (hbefore.symm.trans hafter)
  rw [Watched.stoppedNext, answered_eq henter hrequest, stoppedAfter, if_pos (congrArg some hok),
    if_neg (by rw [hop]; decide), if_pos hop]
  simp

end

/-! ## Every run -/

theorem lateStarts_eq_nil {w : Watched} {s : System} (h : InTime w.sys s w.stopped) :
    w.lateStarts s = [] := by
  obtain ⟨new, hstarts, htime⟩ := h
  have hnew : w.sys.newStarts s = new := by
    rw [System.newStarts, hstarts, List.length_append, Nat.add_sub_cancel, List.take_left']
    rfl
  rw [Watched.lateStarts, hnew, List.filter_eq_nil_iff]
  intro r hr hlate
  cases hfor : s.startedFor r.cothread with
  | none =>
    rw [hfor] at hlate
    cases hlate
  | some c =>
    rw [hfor] at hlate
    exact htime r hr c hfor (of_decide_eq_true hlate)

/-- The invariant of the system with its histories. -/
structure WatchInv (P : Platform) (cfg : Config) (w : Watched) : Prop where
  completion : CompletionInv P w.sys
  stop : StopInv P cfg w.sys w.stopped
  late : w.late = []

section

variable {P : Platform} {cfg : Config}

theorem WatchInv.stays {w : Watched} (h : WatchInv P cfg w) : StaysStopped w :=
  ⟨h.late, fun p hactive hfor =>
    (h.stop.live p ⟨Monitor.State.inUse_iff.mpr (.inl hactive), hfor⟩).2⟩

theorem StopsInFlight.of_withNode {s : System} {n : Node} {e : Event}
    (hm : n.monitor = s.monitor) (h : StopsInFlight (s.withNode n) e) : StopsInFlight s e := by
  obtain ⟨m, turns, caller, accepted⟩ := n
  dsimp only at hm
  subst hm
  exact h

theorem StopInv.entered {s : System} {stopped : List (List UInt8)} {n : Node}
    (h : StopInv P cfg s stopped) (hfresh : s.orc.Fresh) (hm : n.monitor = s.monitor)
    (haccepted : n.accepted = s.orc.monitor.accepted) : StopInv P cfg (s.withNode n) stopped :=
  h.frame hfresh hfresh hm haccepted rfl rfl (.same rfl rfl rfl rfl rfl) (fun _ => Iff.rfl)
    (.congr rfl)

theorem StopInv.next {w : Watched} {s : System} {e : Event} (h : StopInv P cfg w.sys w.stopped)
    (hC : CompletionInv P w.sys) (hC' : CompletionInv P s) (hok : KeepsStopped w e)
    (hs : Host.step P cfg w.sys e = some s) :
    StopInv P cfg s (w.stoppedNext P cfg e) ∧ InTime w.sys s w.stopped := by
  cases e with
  | monitor e =>
    rw [Host.step] at hs
    split at hs
    · obtain ⟨m, hm, rfl⟩ := Option.map_eq_some_iff.mp hs
      have hn : NodeAdvance P w.sys.orc.monitor { w.sys.orc.monitor with monitor := m } :=
        ⟨Monitor.step_advance hC.deployInv hm hok.1.1, Monitor.step_lifetime hC.deployInv hm,
          Monitor.step_deployInv hC.deployInv hm, fun _ ht => ht, rfl⟩
      exact ⟨h.advance hC.underway hn, h.advance_inTime hC.underway hn⟩
    · cases hs
  | orchestrator e turns =>
    obtain ⟨orc, henter, hs⟩ := Option.bind_eq_some_iff.mp hs
    obtain ⟨orc', horc, rfl⟩ := Option.map_eq_some_iff.mp hs
    have hturns : ∀ turn ∈ turns, turn.Quiet := hok.1.1
    obtain ⟨hmonitor, n, rfl, rfl, haccepted, henters⟩ := enter_cases henter
    have hstops : StopInv P cfg w.sys (w.stoppedNext P cfg (.orchestrator e n.turns)) := by
      refine h.stops fun c hc => ?_
      rcases mem_stoppedNext henter horc hc with hc | ⟨op, request, spawnOk, rfl, hop, rfl, i, hi⟩
      · exact .inl hc
      · refine .inr fun hf hfor => hok.2 ?_
        exact ⟨hop, hf, i, (Orchestrator.find_spec hi).1, hi, .inl hfor⟩
    rcases henters with ⟨he, hm, hcaller⟩ | ⟨rfl, hm⟩
    · have hC₀ := hC.entered hm haccepted
      have hsame : (w.sys.withNode n).monitor = w.sys.monitor := hm
      have htime := (h.entered hC.fresh hm haccepted).handled_inTime hC₀ hturns hcaller he hmonitor
        horc
      refine ⟨(hstops.entered hC.fresh hm haccepted).handled hC₀ hturns hcaller he hmonitor horc
        (fun hstop => hok.2 (hstop.of_withNode hm)) hC'.fresh ?_, ?_⟩
      · exact started_not_mem henter horc
      · rwa [InTime, hsame] at htime
    · have hfresh : (w.sys.withNode n).orc.Fresh := hC.fresh
      have hdeploy := Orchestrator.step_deploy hfresh hmonitor horc
      exact ⟨(hstops.notified hm haccepted hC hC' hturns hok.1.2 hdeploy).1,
        (h.notified hm haccepted hC hC' hturns hok.1.2 hdeploy).2⟩

theorem WatchInv.step {w w' : Watched} {e : Event} (h : WatchInv P cfg w)
    (hok : KeepsStopped w e) (hs : w.step P cfg e = some w') : WatchInv P cfg w' := by
  obtain ⟨s, hstep, rfl⟩ := Option.map_eq_some_iff.mp hs
  have hC := h.completion.step hok.1 hstep
  obtain ⟨hstop, htime⟩ := h.stop.next h.completion hC hok hstep
  exact ⟨hC, hstop, by rw [h.late, lateStarts_eq_nil htime]; rfl⟩

theorem WatchInv.init : WatchInv P cfg (Watched.init P) := by
  obtain ⟨m, hm⟩ := Monitor.caMonitorInitStates_eq P
  have hmonitor : (Host.init P).monitor = _ := hm
  have hstarts : (Host.init P).monitor.starts = [] := by rw [hmonitor]
  have hlive : ∀ p, ¬ (Host.init P).Live p := by
    rintro p ⟨-, r, hr, -⟩
    rw [hstarts] at hr
    cases hr
  refine ⟨CompletionInv.init P, ?_, rfl⟩
  exact
    { count := by
        show (Host.init P).monitor.monitoredProtoconCount = P.numPc
        rw [hmonitor]
      idle := fun _ => rfl
      owner := nofun
      request := nofun
      flight := fun hf => nomatch hf.1
      asked := fun _ hc => nomatch hc
      failed := nofun
      live := fun p hp => absurd hp (hlive p)
      accepted := nofun
      starts := fun r hr => by
        rw [show (Watched.init P).sys.monitor.starts = [] from hstarts] at hr
        cases hr }

end

/-- In every run in which no stop meets the deployment of its container in flight, nothing is
started for a container that has been stopped, and what is active on behalf of a CRI start has
its slot in use. -/
theorem staysStopped (P : Platform) (cfg : Config) {w : Watched}
    (h : Reaches (Watched.step P cfg) KeepsStopped (Watched.init P) w) : StaysStopped w :=
  (h.invariant WatchInv.init fun _ _ _ hinv hok hs => hinv.step hok hs).stays

/-! ## A stop after the start, and one before it -/

def helloId : List UInt8 := bytes "carrels-container-00000001"

/-- A container is created and its start is answered. -/
def startedRun : List Event :=
  [.orchestrator .fsMounted [], .orchestrator (.imageProbed true) [],
    .orchestrator (.request 20 { image := Orchestrator.k8sCHelloImage } true) [],
    .orchestrator (.request 21 { id := helloId } true) []]

/-- Its file is read and handed over. -/
def loadedRun : List Event :=
  [.orchestrator (.fsReply 0 { success := true, fd := 1 }) [],
    .orchestrator (.fsReply 0 { success := true }) [],
    .orchestrator (.fsReply 0 { success := true, data := [97] }) [],
    .orchestrator (.fsReply 0 { success := true }) [],
    .monitor (Monitor.writePayloadOf []),
    .orchestrator (.fsReply 0 { success := true }) [{}]]

def stopEvent : Event := .orchestrator (.request 22 { id := helloId } true) [{}, {}]

def stoppedRun : List Event :=
  startedRun ++ loadedRun ++ [.orchestrator .notifiedMonitor [{}, {}], stopEvent]

def stoppedSystem : Watched :=
  (run (Watched.step (Monitor.smallPlatform 2) smallConfig)
    (Watched.init (Monitor.smallPlatform 2)) stoppedRun).get (by decide +kernel)

theorem stoppedRun_meets :
    RunMeets (Watched.step (Monitor.smallPlatform 2) smallConfig) KeepsStopped
      (Watched.init (Monitor.smallPlatform 2)) stoppedRun := by
  decide +kernel

theorem staysStopped_stoppedSystem :
    StaysStopped stoppedSystem ∧ stoppedSystem.stopped = [helloId] ∧
      stoppedSystem.sys.monitor.starts.length = 1 :=
  ⟨staysStopped (Monitor.smallPlatform 2) smallConfig
    (reaches_of_run stoppedRun_meets (Option.some_get _).symm), by decide +kernel,
    by decide +kernel⟩

/-- The stop comes while the file is still being read. -/
def overtakenStopRun : List Event := startedRun ++ [stopEvent] ++ loadedRun

def overtakenStopSystem : Watched :=
  (run (Watched.step (Monitor.smallPlatform 2) smallConfig)
    (Watched.init (Monitor.smallPlatform 2)) overtakenStopRun).get (by decide +kernel)

theorem overtakenStopRun_quiet :
    RunMeets (Watched.step (Monitor.smallPlatform 2) smallConfig)
      (fun w e => KeepsResults w.sys e) (Watched.init (Monitor.smallPlatform 2))
      overtakenStopRun := by
  decide +kernel

/-- The stop is answered, and the deployment of the start goes on: protocon 0 is active for the
stopped container, in a slot that has been given back. -/
theorem not_staysStopped :
    ¬ ∀ (P : Platform) (cfg : Config) (w : Watched),
      Reaches (Watched.step P cfg) (fun w e => KeepsResults w.sys e) (Watched.init P) w →
        StaysStopped w := by
  intro h
  have hs := h (Monitor.smallPlatform 2) smallConfig overtakenStopSystem
    (reaches_of_run overtakenStopRun_quiet (Option.some_get _).symm)
  have hlate : overtakenStopSystem.late.length = 1 := by decide +kernel
  rw [hs.late] at hlate
  cases hlate

end Host
end Carrels
