/-
The pending deployment of a CRI start, from its command to its start.

A start is answered before its file is read; the loader, the monitor's deployment and the
reading of its result come later.  `StopInv` says what holds on the way: the deployment has its
slot to itself, its container has not been stopped, and what runs on behalf of a CRI start has
its slot in use.  The monitor and the orchestrator keep it in everything they do but a stop.
-/
import Carrels.Host.Completion

namespace Carrels
namespace Host

open Monitor (Platform StartRecord Lifetime DeployInv Message)
open Orchestrator (Config CriOp SameClaim KeepsCommands)
open StepSystem

/-! ## Whom a start is made for -/

namespace System

/-- The container whose start asked for the deployment that a cothread was spawned for. -/
def startedFor (s : System) (cothread : Nat) : Option (List UInt8) := do
  let a ← s.orc.monitor.accepted.find? fun a => a.cothread = cothread
  let k ← a.loader
  let l ← s.orc.loaders k
  l.command.container

/-- The container of the pending deployment, if it is a CRI start's. -/
def pendingFor (s : System) : Option (List UInt8) := do
  let k ← s.pending
  let l ← s.orc.loaders k
  l.command.container

/-- The latest start of the protocon was made on behalf of a CRI start. -/
def OnBehalf (s : System) (p : Nat) : Prop :=
  ∃ r, s.monitor.starts.find? (fun r => r.pcId = p) = some r ∧ (s.startedFor r.cothread).isSome

/-- The pending deployment is a CRI start's, and is still to start its protocon. -/
def InFlight (s : System) : Prop :=
  s.orc.deployPending = true ∧ s.orc.deployFromCri = true ∧
    ((∃ k < s.orc.spawned, s.orc.TargetedLoading k) ∨ s.monitor.Deploying)

end System

instance (s : System) : Decidable s.InFlight :=
  inferInstanceAs (Decidable (s.orc.deployPending = true ∧ s.orc.deployFromCri = true ∧
    ((∃ k < s.orc.spawned, s.orc.TargetedLoading k) ∨
      (s.monitor.deployRequestActive = true ∧ s.monitor.deployRequest.targeted = true))))

/-! ## The invariant -/

/-- The protocon is in use on behalf of a CRI start. -/
def System.Live (s : System) (p : Nat) : Prop := s.monitor.inUse p = true ∧ s.OnBehalf p

/-- A deployment that the monitor has accepted. -/
structure KnownAcceptance (s : System) (a : Acceptance) : Prop where
  spawned : a.cothread < s.monitor.spawned
  targeted : ∃ c, s.monitor.cothreads a.cothread = some c ∧ c.request.targeted = true
  loader : ∃ k l, a.loader = some k ∧ s.orc.loaders k = some l
  alive : s.monitor.Alive a.cothread → s.orc.deployPending = true ∧ s.pending = a.loader

structure StopInv (P : Platform) (cfg : Config) (s : System) (stopped : List (List UInt8)) :
    Prop where
  count : s.monitor.monitoredProtoconCount = P.numPc
  idle : s.orc.deployPending = false → s.orc.deployFromCri = false
  owner : s.orc.deployPending = true → ∃ k l, s.pending = some k ∧ s.orc.loaders k = some l ∧
    l.command.container.isSome = s.orc.deployFromCri
  request : s.orc.deployPending = true → s.orc.deployFromCri = true →
    s.orc.deployPcId.toNat < cfg.maxPorts ∧ s.orc.deployPeerMask = 0 ∧
      s.orc.deployPeersAll = false
  /-- A deployment in flight has its slot to itself, and its container has not been stopped. -/
  flight : s.InFlight → BitMask.Has s.orc.criSlotsInUse s.orc.deployPcId.toNat ∧
    ¬ s.Live s.orc.deployPcId.toNat ∧ ∀ c, s.pendingFor = some c → c ∉ stopped
  /-- What a deployment under way was asked for. -/
  asked : s.monitor.Deploying → s.orc.deployFromCri = true →
    s.monitor.deployRequest.requestedPeerMask = 0 ∧ s.orc.deployPcId.toNat < P.numPc
  /-- A deployment that has failed has started nothing. -/
  failed : s.orc.deployPending = true → s.orc.deployFromCri = true → ¬ s.InFlight →
    s.monitor.deployResult.error ≠ .noError → ¬ s.Live s.orc.deployPcId.toNat
  live : ∀ p, s.Live p → p < P.numPc ∧ BitMask.Has s.orc.criSlotsInUse p
  accepted : ∀ a ∈ s.orc.monitor.accepted, KnownAcceptance s a
  starts : ∀ r ∈ s.monitor.starts, r.cothread < s.monitor.spawned

/-- The starts since `s` were not made on behalf of a stopped container. -/
def InTime (s s' : System) (stopped : List (List UInt8)) : Prop :=
  ∃ new, s'.monitor.starts = new ++ s.monitor.starts ∧
    ∀ r ∈ new, ∀ c, s'.startedFor r.cothread = some c → c ∉ stopped

/-! ## Whom a start was made for -/

section

variable {P : Platform} {cfg : Config} {s s' : System} {stopped : List (List UInt8)}
  {new : List StartRecord}

theorem startedFor_eq_some {id : Nat} {c : List UInt8} (h : s.startedFor id = some c) :
    ∃ a ∈ s.orc.monitor.accepted, a.cothread = id ∧ ∃ k l, a.loader = some k ∧
      s.orc.loaders k = some l ∧ l.command.container = some c := by
  obtain ⟨a, ha, h⟩ := Option.bind_eq_some_iff.mp h
  obtain ⟨k, hk, h⟩ := Option.bind_eq_some_iff.mp h
  obtain ⟨l, hl, hc⟩ := Option.bind_eq_some_iff.mp h
  exact ⟨a, List.mem_of_find?_eq_some ha, of_decide_eq_true (List.find?_some ha :), k, l, hk, hl,
    hc⟩

theorem pendingFor_eq {k : Nat} {l : Orchestrator.Loader} (hk : s.pending = some k)
    (hl : s.orc.loaders k = some l) : s.pendingFor = l.command.container := by
  rw [System.pendingFor, hk]
  dsimp only [Option.bind_eq_bind, Option.bind_some]
  rw [hl]
  rfl

/-- What is known of the cothreads so far stays known. -/
theorem startedFor_eq {more : List Acceptance}
    (hknown : ∀ a ∈ s.orc.monitor.accepted, ∃ k l, a.loader = some k ∧ s.orc.loaders k = some l)
    (haccepted : s'.orc.monitor.accepted = s.orc.monitor.accepted ++ more)
    (hcommands : KeepsCommands s.orc s'.orc) {id : Nat} (hmore : ∀ a ∈ more, a.cothread ≠ id) :
    s'.startedFor id = s.startedFor id := by
  have hnone : more.find? (fun a => a.cothread = id) = none :=
    List.find?_eq_none.mpr fun a ha => by simpa using hmore a ha
  rw [System.startedFor, System.startedFor, haccepted, List.find?_append, hnone, Option.or_none]
  cases hfound : s.orc.monitor.accepted.find? fun a => a.cothread = id with
  | none => rfl
  | some a =>
    obtain ⟨k, l, hk, hl⟩ := hknown a (List.mem_of_find?_eq_some hfound)
    obtain ⟨l', hl', hcommand⟩ := hcommands k l hl
    dsimp only [Option.bind_eq_bind, Option.bind_some]
    rw [hk]
    dsimp only [Option.bind_some]
    rw [hl, hl']
    exact congrArg Orchestrator.Command.container hcommand

/-- A protocon that is live was so before, or has been started. -/
theorem live_of_lifetime (hstarts : ∀ r ∈ s.monitor.starts, r.cothread < s.monitor.spawned)
    (hlife : Lifetime s.monitor s'.monitor new)
    (hfor : ∀ id < s.monitor.spawned, s'.startedFor id = s.startedFor id) {p : Nat}
    (hp : s'.Live p) :
    s.Live p ∨ ∃ r ∈ new, r.pcId = p ∧ (s'.startedFor r.cothread).isSome := by
  obtain ⟨hinUse, r, hr, hsome⟩ := hp
  rw [hlife.starts, List.find?_append] at hr
  cases hnew : new.find? fun r => r.pcId = p with
  | some r' =>
    rw [hnew, Option.some_or, Option.some.injEq] at hr
    subst hr
    exact .inr ⟨r', List.mem_of_find?_eq_some hnew, of_decide_eq_true (List.find?_some hnew :),
      hsome⟩
  | none =>
    rw [hnew, Option.none_or] at hr
    rcases hlife.inUse p hinUse with hp | ⟨r', hr', hpc⟩
    · rw [hfor _ (hstarts r (List.mem_of_find?_eq_some hr))] at hsome
      exact .inl ⟨hp, r, hr, hsome⟩
    · exact absurd hpc (by simpa using List.find?_eq_none.mp hnew r' hr')

theorem KnownAcceptance.next {a : Acceptance} (h : KnownAcceptance s a)
    (hlife : Lifetime s.monitor s'.monitor new) (hcommands : KeepsCommands s.orc s'.orc)
    (halive : s.monitor.Alive a.cothread →
      s'.orc.deployPending = true ∧ s'.pending = a.loader) : KnownAcceptance s' a where
  spawned := Nat.lt_of_lt_of_le h.spawned hlife.spawned
  targeted := by
    obtain ⟨c, hc, htargeted⟩ := h.targeted
    obtain ⟨d, hd, hrequest⟩ := hlife.request _ c hc
    exact ⟨d, hd, by rwa [hrequest]⟩
  loader := by
    obtain ⟨k, l, hloader, hl⟩ := h.loader
    obtain ⟨l', hl', -⟩ := hcommands k l hl
    exact ⟨k, l', hloader, hl'⟩
  alive hs := by
    refine halive ((hlife.alive _ hs).resolve_right fun hge => ?_)
    exact absurd h.spawned (Nat.not_lt.mpr hge)

/-! ## The monitor moves -/

/-- What a targeted deployment that is under way says of the pending one. -/
structure Underway (P : Platform) (s : System) : Prop where
  deployInv : DeployInv P s.monitor
  fresh : s.orc.Fresh
  pending : s.monitor.Deploying → s.orc.deployPending = true
  loading : s.monitor.Deploying → ∀ k, ¬ s.orc.TargetedLoading k
  target : s.monitor.Deploying → s.monitor.deployRequest.targetPc = s.orc.deployPcId

theorem CompletionInv.underway (h : CompletionInv P s) : Underway P s := by
  refine ⟨h.deployInv, h.fresh, fun hs => ?_, fun hs => ?_, fun hs => ?_⟩
  all_goals
    cases h.stage with
    | idle _ _ hidle | loading _ _ _ _ hidle => exact absurd hs hidle
    | awaiting a before hpending hk hloading howes =>
      cases howes with
      | deploying _ hpc => assumption
      | ready hended => exact absurd hs hended

theorem inFlight_iff (hfresh : s.orc.Fresh) : s.InFlight ↔ s.orc.deployPending = true ∧
    s.orc.deployFromCri = true ∧ ((∃ k, s.orc.TargetedLoading k) ∨ s.monitor.Deploying) := by
  have hlt : ∀ k, s.orc.TargetedLoading k → k < s.orc.spawned := by
    intro k hk
    by_contra hge
    obtain ⟨l, hl, -⟩ := hk
    rw [hfresh k (Nat.le_of_not_lt hge)] at hl
    cases hl
  rw [System.InFlight]
  constructor
  · rintro ⟨hp, hc, ⟨k, -, hk⟩ | hd⟩
    · exact ⟨hp, hc, .inl ⟨k, hk⟩⟩
    · exact ⟨hp, hc, .inr hd⟩
  · rintro ⟨hp, hc, ⟨k, hk⟩ | hd⟩
    · exact ⟨hp, hc, .inl ⟨k, hlt k hk, hk⟩⟩
    · exact ⟨hp, hc, .inr hd⟩

theorem Underway.advance {n : Node} (h : Underway P s) (hn : NodeAdvance P s.orc.monitor n) :
    Underway P (s.withNode n) where
  deployInv := hn.deployInv
  fresh := h.fresh
  pending hs := h.pending (hn.advance.deploying hs).1
  loading hs := h.loading (hn.advance.deploying hs).1
  target hs := by
    obtain ⟨hbefore, hrequest⟩ := hn.advance.deploying hs
    exact (congrArg Monitor.MonitorDeployRequest.targetPc hrequest).trans (h.target hbefore)

/-- A start for a container is the work of the pending deployment, and ends it well. -/
structure OwnResult (s : System) (m : Monitor.State) (r : StartRecord) (c : List UInt8) :
    Prop where
  before : s.monitor.Deploying
  inFlight : s.InFlight
  pendingFor : s.pendingFor = some c
  pcId : r.pcId = s.orc.deployPcId.toNat
  ended : ¬ m.Deploying
  error : m.deployResult.error = .noError

namespace StopInv

variable {n : Node} {m : Monitor.State}

theorem known (h : StopInv P cfg s stopped) :
    ∀ a ∈ s.orc.monitor.accepted, ∃ k l, a.loader = some k ∧ s.orc.loaders k = some l :=
  fun a ha => (h.accepted a ha).loader

theorem ownResult (h : StopInv P cfg s stopped) (hu : Underway P s)
    (hlife : Lifetime s.monitor m new) {r : StartRecord} (hr : r ∈ new) {c : List UInt8}
    (hfor : s.startedFor r.cothread = some c) : OwnResult s m r c := by
  obtain ⟨a, ha, hcothread, k, l, hk, hl, hc⟩ := startedFor_eq_some hfor
  have hknown := h.accepted a ha
  have halive : s.monitor.Alive a.cothread := by
    rw [hcothread]
    refine (hlife.who r hr).resolve_right fun hge => ?_
    exact absurd hknown.spawned (by omega)
  obtain ⟨d, hd, htargeted⟩ := hknown.targeted
  have hdeploying := hu.deployInv.deploying_of_alive hd htargeted halive
  obtain ⟨hpending, hloader⟩ := hknown.alive halive
  obtain ⟨k', l', hk', hl', hsome⟩ := h.owner hpending
  obtain rfl : k' = k := Option.some.inj (hk'.symm.trans (hloader.trans hk))
  obtain rfl : l' = l := Option.some.inj (hl'.symm.trans hl)
  have hfromCri : s.orc.deployFromCri = true := by
    rw [← hsome, hc]
    rfl
  obtain ⟨hpc, hended, herror⟩ := hlife.own hdeploying r hr (hcothread ▸ halive)
  obtain ⟨hmask, hlt⟩ := h.asked hdeploying hfromCri
  have htarget := congrArg BitVec.toNat (hu.target hdeploying)
  exact
    { before := hdeploying
      inFlight := (inFlight_iff hu.fresh).mpr ⟨hpending, hfromCri, .inr hdeploying⟩
      pendingFor := (pendingFor_eq hk' hl').trans hc
      pcId := hpc.trans htarget
      ended := hended
      error := herror hmask (by rw [htarget, h.count]; exact hlt) }

theorem startedFor_withNode (h : StopInv P cfg s stopped)
    (haccepted : n.accepted = s.orc.monitor.accepted) (id : Nat) :
    (s.withNode n).startedFor id = s.startedFor id := by
  have hsame : (s.withNode n).orc.monitor.accepted = s.orc.monitor.accepted ++ [] := by
    rw [List.append_nil]
    exact haccepted
  have hcommands : KeepsCommands s.orc (s.withNode n).orc := .congr rfl
  exact startedFor_eq h.known hsame hcommands nofun

theorem not_stopped (h : StopInv P cfg s stopped) (hu : Underway P s)
    (hlife : Lifetime s.monitor m new) {r : StartRecord} (hr : r ∈ new) {c : List UInt8}
    (hfor : s.startedFor r.cothread = some c) : c ∉ stopped := by
  have hown := h.ownResult hu hlife hr hfor
  exact (h.flight hown.inFlight).2.2 c hown.pendingFor

theorem advance_inTime (h : StopInv P cfg s stopped) (hu : Underway P s)
    (hn : NodeAdvance P s.orc.monitor n) : InTime s (s.withNode n) stopped := by
  obtain ⟨new, hlife⟩ := hn.lifetime
  refine ⟨new, hlife.starts, fun r hr c hc => ?_⟩
  rw [h.startedFor_withNode hn.accepted] at hc
  exact h.not_stopped hu hlife hr hc

theorem advance (h : StopInv P cfg s stopped) (hu : Underway P s)
    (hn : NodeAdvance P s.orc.monitor n) : StopInv P cfg (s.withNode n) stopped := by
  obtain ⟨new, hlife⟩ := hn.lifetime
  have hlife : Lifetime s.monitor (s.withNode n).monitor new := hlife
  have hfor := h.startedFor_withNode hn.accepted
  have hlive : ∀ p, (s.withNode n).Live p → s.Live p ∨ ∃ r c, OwnResult s n.monitor r c ∧
      r.pcId = p := by
    intro p hp
    rcases live_of_lifetime h.starts hlife (fun id _ => hfor id) hp with hp | ⟨r, hr, hpc, hsome⟩
    · exact .inl hp
    · obtain ⟨c, hc⟩ := Option.isSome_iff_exists.mp hsome
      rw [hfor] at hc
      exact .inr ⟨r, c, h.ownResult hu hlife hr hc, hpc⟩
  have hbefore : (s.withNode n).InFlight → s.InFlight := by
    rw [inFlight_iff hu.fresh, inFlight_iff (s := s.withNode n) hu.fresh]
    exact fun ⟨hp, hc, hd⟩ => ⟨hp, hc, hd.imp id fun hd => (hn.advance.deploying hd).1⟩
  exact
    { count := hlife.count.trans h.count
      idle := h.idle
      owner := h.owner
      request := h.request
      flight := fun hf => by
        obtain ⟨hslot, hnot, howner⟩ := h.flight (hbefore hf)
        refine ⟨hslot, fun hp => ?_, howner⟩
        rcases hlive _ hp with hp | ⟨r, c, hown, -⟩
        · exact hnot hp
        · obtain ⟨-, -, ⟨k, hk⟩ | hd⟩ := (inFlight_iff (s := s.withNode n) hu.fresh).mp hf
          · exact hu.loading hown.before k hk
          · exact hown.ended hd
      asked := fun hs hfromCri => by
        obtain ⟨hd, hrequest⟩ := hn.advance.deploying hs
        rw [show (s.withNode n).monitor.deployRequest = s.monitor.deployRequest from hrequest]
        exact h.asked hd hfromCri
      failed := fun hpending hfromCri hnot herror hp => by
        rcases hlive _ hp with hp | ⟨r, c, hown, -⟩
        · by_cases hf : s.InFlight
          · exact (h.flight hf).2.1 hp
          · have hended : ¬ s.monitor.Deploying := fun hd =>
              hf ((inFlight_iff hu.fresh).mpr ⟨hpending, hfromCri, .inr hd⟩)
            have hresult : n.monitor.deployResult = s.monitor.deployResult :=
              (hn.advance.sameResult hended).result
            exact h.failed hpending hfromCri hf (hresult ▸ herror) hp
        · exact herror hown.error
      live := fun p hp => by
        rcases hlive p hp with hp | ⟨r, c, hown, rfl⟩
        · exact h.live p hp
        · rw [hown.pcId]
          exact ⟨(h.asked hown.before hown.inFlight.2.1).2, (h.flight hown.inFlight).1⟩
      accepted := fun a ha => by
        have hknown := h.accepted a (hn.accepted ▸ ha)
        exact hknown.next hlife (.congr rfl) hknown.alive
      starts := fun r hr => by
        have hstarts : (s.withNode n).monitor.starts = new ++ s.monitor.starts := hlife.starts
        rw [hstarts] at hr
        rcases List.mem_append.mp hr with hr | hr
        · exact hlife.below r hr
        · exact Nat.lt_of_lt_of_le (h.starts r hr) hlife.spawned }

/-! ## The orchestrator moves -/

theorem startedFor_same (h : StopInv P cfg s stopped)
    (haccepted : s'.orc.monitor.accepted = s.orc.monitor.accepted)
    (hcommands : KeepsCommands s.orc s'.orc) (id : Nat) : s'.startedFor id = s.startedFor id := by
  have hsame : s'.orc.monitor.accepted = s.orc.monitor.accepted ++ [] := by
    rw [List.append_nil]
    exact haccepted
  exact startedFor_eq h.known hsame hcommands nofun

theorem frame (h : StopInv P cfg s stopped) (hfresh : s.orc.Fresh) (hfresh' : s'.orc.Fresh)
    (hm : s'.monitor = s.monitor) (haccepted : s'.orc.monitor.accepted = s.orc.monitor.accepted)
    (hk : s'.pending = s.pending) (hpending : s'.orc.deployPending = s.orc.deployPending)
    (hclaim : SameClaim s.orc s'.orc) (hloading : ∀ k, s'.orc.TargetedLoading k ↔
      s.orc.TargetedLoading k) (hcommands : KeepsCommands s.orc s'.orc) :
    StopInv P cfg s' stopped := by
  have hfromCri : s'.orc.deployFromCri = s.orc.deployFromCri := by
    cases hp : s.orc.deployPending with
    | true => exact hclaim.fromCri hp
    | false =>
      rw [h.idle hp, Bool.eq_false_iff]
      exact fun hs => absurd (h.idle hp) (by rw [hclaim.idle hs]; decide)
  have hlive : ∀ p, s'.Live p ↔ s.Live p := by
    intro p
    simp only [System.Live, System.OnBehalf, hm, h.startedFor_same haccepted hcommands]
  have hflight : s'.InFlight ↔ s.InFlight := by
    simp only [inFlight_iff hfresh, inFlight_iff hfresh', hpending, hfromCri, hm, hloading]
  have howner : s.orc.deployPending = true → s'.pendingFor = s.pendingFor := by
    intro hp
    obtain ⟨k, l, hs, hl, -⟩ := h.owner hp
    obtain ⟨l', hl', hcommand⟩ := hcommands k l hl
    rw [pendingFor_eq (hk.trans hs) hl', pendingFor_eq hs hl, hcommand]
  exact
    { count := hm ▸ h.count
      idle := fun hp => by rw [hfromCri, h.idle (hpending ▸ hp)]
      owner := fun hp => by
        obtain ⟨k, l, hs, hl, hsome⟩ := h.owner (hpending ▸ hp)
        obtain ⟨l', hl', hcommand⟩ := hcommands k l hl
        exact ⟨k, l', hk.trans hs, hl', by rw [hcommand, hsome, hfromCri]⟩
      request := fun hp hc => by
        rw [hpending] at hp
        rw [hclaim.pcId hp, hclaim.peerMask hp, hclaim.peersAll hp]
        exact h.request hp (hfromCri ▸ hc)
      flight := fun hf => by
        rw [hflight] at hf
        rw [hclaim.slots, hclaim.pcId hf.1, hlive, howner hf.1]
        exact h.flight hf
      asked := fun hs hc => by
        rw [hfromCri] at hc
        rw [hm] at hs ⊢
        have hp : s.orc.deployPending = true := by
          by_contra hp
          exact Bool.false_ne_true ((h.idle (Bool.not_eq_true _ ▸ hp)).symm.trans hc)
        rw [hclaim.pcId hp]
        exact h.asked hs hc
      failed := fun hp hc hf herror => by
        rw [hpending] at hp
        rw [hlive, hclaim.pcId hp]
        exact h.failed hp (hfromCri ▸ hc) (fun hs => hf (hflight.mpr hs)) (hm ▸ herror)
      live := fun p hp => by
        rw [hclaim.slots]
        exact h.live p ((hlive p).mp hp)
      accepted := fun a ha => by
        have hknown := h.accepted a (haccepted ▸ ha)
        refine hknown.next (.of_eq hm) hcommands fun hs => ?_
        obtain ⟨hp, hs⟩ := hknown.alive hs
        exact ⟨hpending.trans hp, hk.trans hs⟩
      starts := hm ▸ h.starts }

/-- A slot is given back while nothing runs in it. -/
theorem released (h : StopInv P cfg s stopped) {pcId : BitVec 32} (hlt : pcId.toNat < 32)
    (hnot : ¬ s.Live pcId.toNat) (hflight : s.InFlight → pcId ≠ s.orc.deployPcId) :
    StopInv P cfg { s with orc := s.orc.clearSlot pcId } stopped where
  count := h.count
  idle := h.idle
  owner := h.owner
  request := h.request
  flight hf := by
    obtain ⟨hslot, hrest⟩ := h.flight hf
    refine ⟨(BitMask.has_and_not_bit hlt).mpr ⟨hslot, fun heq => ?_⟩, hrest⟩
    exact hflight hf (BitVec.eq_of_toNat_eq heq)
  asked := h.asked
  failed := h.failed
  live p hp := by
    obtain ⟨hpc, hslot⟩ := h.live p hp
    refine ⟨hpc, (BitMask.has_and_not_bit hlt).mpr ⟨hslot, ?_⟩⟩
    rintro rfl
    exact hnot hp
  accepted := fun a ha =>
    have hknown := h.accepted a ha
    ⟨hknown.spawned, hknown.targeted, hknown.loader, hknown.alive⟩
  starts := h.starts

theorem not_alive (h : StopInv P cfg s stopped) (hu : Underway P s)
    (hidle : ¬ s.monitor.Deploying) {a : Acceptance} (ha : a ∈ s.orc.monitor.accepted) :
    ¬ s.monitor.Alive a.cothread := by
  intro halive
  obtain ⟨c, hc, htargeted⟩ := (h.accepted a ha).targeted
  exact hidle (hu.deployInv.deploying_of_alive hc htargeted halive)

theorem ended (h : StopInv P cfg s stopped) (hu : Underway P s) (hidle : ¬ s.monitor.Deploying)
    (hlife : Lifetime s.monitor s'.monitor [])
    (haccepted : s'.orc.monitor.accepted = s.orc.monitor.accepted)
    (hcommands : KeepsCommands s.orc s'.orc) (hpending : s'.orc.deployPending = false)
    (hfromCri : s'.orc.deployFromCri = false)
    (hslots : ∀ p, s.Live p → BitMask.Has s'.orc.criSlotsInUse p) :
    StopInv P cfg s' stopped := by
  have hnot : ¬ s'.orc.deployPending = true := fun hp => Bool.false_ne_true (hpending.symm.trans hp)
  have hnotCri : ¬ s'.orc.deployFromCri = true := fun hc =>
    Bool.false_ne_true (hfromCri.symm.trans hc)
  exact
    { count := hlife.count.trans h.count
      idle := fun _ => hfromCri
      owner := fun hp => absurd hp hnot
      request := fun hp => absurd hp hnot
      flight := fun hf => absurd hf.1 hnot
      asked := fun _ hc => absurd hc hnotCri
      failed := fun hp => absurd hp hnot
      live := fun p hp => by
        have hbefore : s.Live p := by
          rcases live_of_lifetime h.starts hlife
            (fun id _ => h.startedFor_same haccepted hcommands id) hp with hp | ⟨r, hr, -⟩
          · exact hp
          · cases hr
        exact ⟨(h.live p hbefore).1, hslots p hbefore⟩
      accepted := fun a ha => by
        rw [haccepted] at ha
        exact (h.accepted a ha).next hlife hcommands fun hs => absurd hs (h.not_alive hu hidle ha)
      starts := fun r hr => by
        rw [hlife.starts] at hr
        exact Nat.lt_of_lt_of_le (h.starts r hr) hlife.spawned }

/-- Containers are stopped that have no deployment in flight, or are stopped no more. -/
theorem stops (h : StopInv P cfg s stopped) {stopped' : List (List UInt8)}
    (hstopped : ∀ c ∈ stopped', c ∈ stopped ∨ (s.InFlight → s.pendingFor ≠ some c)) :
    StopInv P cfg s stopped' :=
  { h with
    flight := fun hf => by
      obtain ⟨hslot, hnot, howner⟩ := h.flight hf
      refine ⟨hslot, hnot, fun c hc hin => ?_⟩
      rcases hstopped c hin with hin | hother
      · exact howner c hc hin
      · exact hother hf hc }

theorem begun (h : StopInv P cfg s stopped) (hu : Underway P s)
    {e : Orchestrator.Event Node} {orc' : Orchestrator.State Node}
    (hbefore : s.orc.deployPending = false) (hafter : orc'.deployPending = true)
    (hclaims : Orchestrator.Claims cfg s.orc e orc') (hcommands : KeepsCommands s.orc orc')
    (hloading : ∀ k, orc'.TargetedLoading k ↔ s.orc.TargetedLoading k ∨ k = s.orc.spawned)
    (hfresh : orc'.Fresh) (hm : orc'.monitor = s.orc.monitor)
    (hrestarted : ∀ op request spawnOk, e = .request op request spawnOk →
      CriOp.ofNumber op = some .startContainer → request.id ∉ stopped) :
    StopInv P cfg (s.leave P e s.orc orc') stopped := by
  have hidle : ¬ s.monitor.Deploying := fun hs =>
    Bool.false_ne_true (hbefore.symm.trans (hu.pending hs))
  have hmonitor : (s.leave P e s.orc orc').monitor = s.monitor := congrArg Node.monitor hm
  have haccepted : (s.leave P e s.orc orc').orc.monitor.accepted = s.orc.monitor.accepted :=
    congrArg Node.accepted hm
  have hk : (s.leave P e s.orc orc').pending = some s.orc.spawned := by
    show (if !s.orc.deployPending && orc'.deployPending then _ else _) = _
    rw [hbefore, hafter]
    rfl
  have hfor : ∀ id, (s.leave P e s.orc orc').startedFor id = s.startedFor id :=
    h.startedFor_same haccepted hcommands
  have hlive : ∀ p, (s.leave P e s.orc orc').Live p ↔ s.Live p := by
    intro p
    simp only [System.Live, System.OnBehalf, hmonitor, hfor]
  have hflying : orc'.deployFromCri = true → (s.leave P e s.orc orc').InFlight := fun hc =>
    (inFlight_iff hfresh).mpr ⟨hafter, hc, .inl ⟨s.orc.spawned, (hloading _).mpr (.inr rfl)⟩⟩
  have hknown : ∀ a ∈ (s.leave P e s.orc orc').orc.monitor.accepted,
      KnownAcceptance (s.leave P e s.orc orc') a := by
    intro a ha
    rw [haccepted] at ha
    refine (h.accepted a ha).next (.of_eq hmonitor) hcommands fun hs => ?_
    exact absurd hs (h.not_alive hu hidle ha)
  have hcount : (s.leave P e s.orc orc').monitor.monitoredProtoconCount = P.numPc :=
    hmonitor ▸ h.count
  have hpending : ¬ orc'.deployPending = false := by
    rw [hafter]
    decide
  cases hclaims with
  | shell hslots hfromCri hl hcontainer =>
    rw [h.idle hbefore] at hfromCri
    have hnot : ¬ orc'.deployFromCri = true := fun hc =>
      Bool.false_ne_true (hfromCri.symm.trans hc)
    exact
      { count := hcount
        idle := fun _ => hfromCri
        owner := fun _ => ⟨_, _, hk, hl, by rw [hcontainer]; exact hfromCri.symm⟩
        request := fun _ hc => absurd hc hnot
        flight := fun hf => absurd hf.2.1 hnot
        asked := fun _ hc => absurd hc hnot
        failed := fun _ hc => absurd hc hnot
        live := fun p hp => by
          show p < P.numPc ∧ BitMask.Has orc'.criSlotsInUse p
          rw [hslots]
          exact h.live p ((hlive p).mp hp)
        accepted := hknown
        starts := hmonitor ▸ h.starts }
  | @cri op request spawnOk _ l hop hlt hfree hslots hfromCri hmask hall hl hcontainer =>
    have hlt32 : orc'.deployPcId.toNat < 32 := Nat.lt_of_lt_of_le hlt cfg.maxPorts_le
    exact
      { count := hcount
        idle := fun hp => absurd hp hpending
        owner := fun _ => ⟨_, _, hk, hl, by rw [hcontainer]; exact hfromCri.symm⟩
        request := fun _ _ => ⟨hlt, hmask, hall⟩
        flight := fun _ => by
          refine ⟨?_, fun hp => hfree (h.live _ ((hlive _).mp hp)).2, fun c hc => ?_⟩
          · show BitMask.Has orc'.criSlotsInUse orc'.deployPcId.toNat
            rw [hslots]
            exact (BitMask.has_or_bit hlt32).mpr (.inr rfl)
          · rw [pendingFor_eq hk hl, hcontainer, Option.some.injEq] at hc
            exact hc ▸ hrestarted op request spawnOk rfl hop
        asked := fun hs => absurd (hmonitor ▸ hs) hidle
        failed := fun _ _ hf => absurd (hflying hfromCri) hf
        live := fun p hp => by
          obtain ⟨hpc, hslot⟩ := h.live p ((hlive p).mp hp)
          refine ⟨hpc, ?_⟩
          show BitMask.Has orc'.criSlotsInUse p
          rw [hslots]
          exact (BitMask.has_or_bit hlt32).mpr (.inl hslot)
        accepted := hknown
        starts := hmonitor ▸ h.starts }

end StopInv

/-! ### The loader's call -/

/-- A targeted deploy call: the monitor does what it does, and then rejects or accepts it. -/
theorem deployCall_split {n n' : Node} {pcId mask : BitVec 32} {all : Bool} {reply : Message}
    (hD : DeployInv P n.monitor) (hturns : ∀ turn ∈ n.turns, turn.Quiet)
    (hcount : n.monitor.monitoredProtoconCount = P.numPc)
    (h : (port P).call n (Orchestrator.deployToProtoconMessage pcId mask all) =
      some (n', reply)) :
    ∃ n₁, NodeAdvance P n n₁ ∧
      ((reply.label ≠ .noError ∧ n'.accepted = n.accepted ∧
          Lifetime n₁.monitor n'.monitor []) ∨
        (reply.label = .noError ∧ n'.accepted = n.accepted ++
            [{ loader := n.caller, serial := n'.monitor.resultSerial
               cothread := n₁.monitor.spawned }] ∧
          ∃ new, Monitor.AcceptedCall P n₁.monitor n'.monitor pcId new ∧
            (mask = 0 → all = false → Monitor.WithoutPeers n'.monitor new))) := by
  obtain ⟨turn, turns, m, m', hn, hrun, hcall, rfl⟩ := port_call h
  obtain ⟨hbefore, hlife, hDm⟩ := run_advance hD (hturns turn (hn ▸ List.mem_cons_self)) hrun
  have hdeploy : Monitor.monitorCallDeployToProtocon P turn.env m (pcId.zeroExtend 64)
      (mask.zeroExtend 64) (if all then 1 else 0) = some (m', reply) := hcall
  have hid : Monitor.CallId.ofNumber
      ((Orchestrator.deployToProtoconMessage pcId mask all).get 0) = some .deployToProtocon := rfl
  refine ⟨{ n with monitor := m }, ⟨hbefore, hlife, hDm, fun _ ht => ht, rfl⟩, ?_⟩
  dsimp only
  by_cases hlabel : reply.label = .noError
  · obtain ⟨new₀, hnew₀⟩ := hlife
    obtain ⟨new, hnew, hpeers⟩ := Monitor.accepted_lifetime hDm hdeploy hlabel
      (hnew₀.count.trans hcount)
    refine .inr ⟨hlabel, ?_, new, hnew, fun hmask hall => hpeers ?_ ?_⟩
    · rw [acceptance, if_pos ⟨hid, hlabel⟩, hnew.spawned, Nat.add_sub_cancel]
    · rw [hmask]
      rfl
    · rw [hall]
      rfl
  · refine .inl ⟨hlabel, ?_, Monitor.rejected_lifetime hDm hdeploy hlabel⟩
    rw [acceptance, if_neg (fun h => hlabel h.2), List.append_nil]

theorem InTime.trans {t : System} (h₁ : InTime s t stopped) (h₂ : InTime t s' stopped)
    (hfor : ∀ r ∈ t.monitor.starts, s'.startedFor r.cothread = t.startedFor r.cothread) :
    InTime s s' stopped := by
  obtain ⟨new₁, hstarts₁, htime₁⟩ := h₁
  obtain ⟨new₂, hstarts₂, htime₂⟩ := h₂
  refine ⟨new₂ ++ new₁, by rw [hstarts₂, hstarts₁, List.append_assoc], fun r hr c hc => ?_⟩
  rcases List.mem_append.mp hr with hr | hr
  · exact htime₂ r hr c hc
  · rw [hfor r (hstarts₁ ▸ List.mem_append_left _ hr)] at hc
    exact htime₁ r hr c hc

/-- No start is made. -/
theorem InTime.congr {t : System} (h : InTime s t stopped)
    (hstarts : s'.monitor.starts = t.monitor.starts)
    (hfor : ∀ id, s'.startedFor id = t.startedFor id) : InTime s s' stopped :=
  h.trans ⟨[], hstarts, nofun⟩ fun _ _ => hfor _

/-- The pending deployment while its loader is reading. -/
theorem CompletionInv.loading {k : Nat} (h : CompletionInv P s) (hk : s.orc.TargetedLoading k) :
    s.orc.deployPending = true ∧ s.pending = some k ∧ ¬ s.monitor.Deploying ∧
      ∀ j, s.orc.TargetedLoading j → j = k := by
  cases h.stage with
  | idle _ hloading => exact absurd hk (hloading k)
  | loading k' hpending hk' hloading hidle =>
    obtain rfl := (hloading k).mp hk
    exact ⟨hpending, hk', hidle, fun j hj => (hloading j).mp hj⟩
  | awaiting _ _ _ _ hloading => exact absurd hk (hloading k)

theorem sameClaim_withNode {orc' : Orchestrator.State Node} (h : SameClaim s.orc orc') (n : Node) :
    SameClaim (s.withNode n).orc orc' :=
  ⟨h.slots, h.idle, h.fromCri, h.pcId, h.peerMask, h.peersAll⟩

namespace StopInv

theorem abandoned {k : Nat} {e : Orchestrator.Event Node} {orc' : Orchestrator.State Node}
    (h : StopInv P cfg s stopped) (hC : CompletionInv P s)
    (hturns : ∀ turn ∈ s.orc.monitor.turns, turn.Quiet) (hk : s.orc.TargetedLoading k)
    (hafter : orc'.deployPending = false) (hfromCri : orc'.deployFromCri = false)
    (hslots : orc'.criSlotsInUse =
      if s.orc.deployFromCri then (s.orc.clearSlot s.orc.deployPcId).criSlotsInUse
      else s.orc.criSlotsInUse)
    (hcommands : KeepsCommands s.orc orc')
    (hm : orc'.monitor = s.orc.monitor ∨ ∃ reply : Message, reply.label ≠ .noError ∧
      (port P).call s.orc.monitor (Orchestrator.deployToProtoconMessage s.orc.deployPcId
        s.orc.deployPeerMask s.orc.deployPeersAll) = some (orc'.monitor, reply)) :
    StopInv P cfg (s.leave P e s.orc orc') stopped ∧ InTime s (s.leave P e s.orc orc') stopped := by
  obtain ⟨hpending, hpendingk, hidle, -⟩ := hC.loading hk
  have hcalled : ∃ n, NodeAdvance P s.orc.monitor n ∧
      Lifetime n.monitor orc'.monitor.monitor [] ∧
      orc'.monitor.accepted = s.orc.monitor.accepted := by
    rcases hm with hm | ⟨reply, hlabel, hcall⟩
    · rw [hm]
      exact ⟨_, .refl hC.deployInv, .refl _, rfl⟩
    · obtain ⟨n, hn, ⟨-, haccepted, hlife⟩ | ⟨hok, -⟩⟩ :=
        deployCall_split hC.deployInv hturns h.count hcall
      · exact ⟨n, hn, hlife, haccepted⟩
      · exact absurd hok hlabel
  obtain ⟨n, hn, hlife, haccepted⟩ := hcalled
  have hu := hC.underway
  have h₁ := h.advance hu hn
  have hidle₁ : ¬ (s.withNode n).monitor.Deploying := fun hd => hidle (hn.advance.deploying hd).1
  have haccepted₁ : (s.leave P e s.orc orc').orc.monitor.accepted =
    (s.withNode n).orc.monitor.accepted := haccepted.trans hn.accepted.symm
  have hfor : ∀ id, (s.leave P e s.orc orc').startedFor id = (s.withNode n).startedFor id :=
    h₁.startedFor_same haccepted₁ hcommands
  refine ⟨h₁.ended (hu.advance hn) hidle₁ hlife haccepted₁ hcommands hafter hfromCri fun p hp => ?_,
    (h.advance_inTime hu hn).congr hlife.starts hfor⟩
  have hslot := (h₁.live p hp).2
  show BitMask.Has orc'.criSlotsInUse p
  rw [hslots]
  by_cases hcri : s.orc.deployFromCri = true
  · have hflight : (s.withNode n).InFlight :=
      (inFlight_iff (s := s.withNode n) hC.fresh).mpr ⟨hpending, hcri, .inl ⟨k, hk⟩⟩
    have hlt : s.orc.deployPcId.toNat < 32 :=
      Nat.lt_of_lt_of_le (h.request hpending hcri).1 cfg.maxPorts_le
    rw [if_pos hcri]
    refine (BitMask.has_and_not_bit hlt).mpr ⟨hslot, ?_⟩
    rintro rfl
    exact (h₁.flight hflight).2.1 hp
  · rw [if_neg hcri]
    exact hslot

end StopInv

/-- The monitor accepts the pending deployment, whose loader `k` has called it. -/
structure Accepts (P : Platform) (k : Nat) (new : List StartRecord) (s s' : System) : Prop where
  pending : s.orc.deployPending = true
  loader : s.pending = some k
  loading : s.orc.TargetedLoading k
  idle : ¬ s.monitor.Deploying
  claim : SameClaim s.orc s'.orc
  commands : KeepsCommands s.orc s'.orc
  deploy : s'.orc.deployPending = s.orc.deployPending
  same : s'.pending = s.pending
  ended : ∀ j, ¬ s'.orc.TargetedLoading j
  fresh : s'.orc.Fresh
  accepted : s'.orc.monitor.accepted = s.orc.monitor.accepted ++
    [{ loader := some k, serial := s'.monitor.resultSerial, cothread := s.monitor.spawned }]
  called : Monitor.AcceptedCall P s.monitor s'.monitor s.orc.deployPcId new
  peers : s.orc.deployPeerMask = 0 → s.orc.deployPeersAll = false →
    Monitor.WithoutPeers s'.monitor new

namespace Accepts

variable {k : Nat} (ha : Accepts P k new s s') (h : StopInv P cfg s stopped)

include ha h

/-- The loader and its command, before and after. -/
theorem owner : ∃ l l', s.orc.loaders k = some l ∧ s'.orc.loaders k = some l' ∧
    l'.command = l.command ∧ l.command.container.isSome = s.orc.deployFromCri := by
  obtain ⟨k', l, hk, hl, hsome⟩ := h.owner ha.pending
  obtain rfl : k = k' := Option.some.inj (ha.loader.symm.trans hk)
  obtain ⟨l', hl', hcommand⟩ := ha.commands k l hl
  exact ⟨l, l', hl, hl', hcommand, hsome⟩

theorem pendingFor_isSome : s.pendingFor.isSome = s.orc.deployFromCri := by
  obtain ⟨l, l', hl, -, -, hsome⟩ := ha.owner h
  rw [pendingFor_eq ha.loader hl, hsome]

theorem pendingFor_same : s'.pendingFor = s.pendingFor := by
  obtain ⟨l, l', hl, hl', hcommand, -⟩ := ha.owner h
  rw [pendingFor_eq (ha.same.trans ha.loader) hl', pendingFor_eq ha.loader hl, hcommand]

omit h in
theorem inFlight (hfresh : s.orc.Fresh) (hcri : s.orc.deployFromCri = true) : s.InFlight :=
  (inFlight_iff hfresh).mpr ⟨ha.pending, hcri, .inl ⟨k, ha.loading⟩⟩

/-- Cothreads that were there before belong to whom they belonged to. -/
theorem startedFor_before {id : Nat} (hid : id < s.monitor.spawned) :
    s'.startedFor id = s.startedFor id := by
  refine startedFor_eq h.known ha.accepted ha.commands fun a hmem => ?_
  obtain rfl := List.mem_singleton.mp hmem
  exact Nat.ne_of_gt hid

theorem startedFor_call : s'.startedFor s.monitor.spawned = s.pendingFor := by
  obtain ⟨l, l', hl, hl', hcommand, -⟩ := ha.owner h
  have hold : s.orc.monitor.accepted.find? (fun a => a.cothread = s.monitor.spawned) = none :=
    List.find?_eq_none.mpr fun a hmem => by simpa using Nat.ne_of_lt (h.accepted a hmem).spawned
  rw [System.startedFor, ha.accepted, List.find?_append, hold, pendingFor_eq ha.loader hl,
    ← hcommand]
  simp only [Option.none_or, decide_true, List.find?_cons_of_pos, Option.bind_eq_bind,
    Option.bind_some]
  rw [hl']
  rfl

theorem live {p : Nat} (hp : s'.Live p) :
    s.Live p ∨ (∃ r ∈ new, r.pcId = p) ∧ s.orc.deployFromCri = true := by
  rcases live_of_lifetime h.starts ha.called.lifetime (fun id hid => ha.startedFor_before h hid) hp
    with hp | ⟨r, hr, hpc, hsome⟩
  · exact .inl hp
  · rw [(ha.called.own r hr).1, ha.startedFor_call h, ha.pendingFor_isSome h] at hsome
    exact .inr ⟨⟨r, hr, hpc⟩, hsome⟩

theorem inTime (hfresh : s.orc.Fresh) : InTime s s' stopped := by
  refine ⟨new, ha.called.lifetime.starts, fun r hr c hc => ?_⟩
  rw [(ha.called.own r hr).1, ha.startedFor_call h] at hc
  have hcri : s.orc.deployFromCri = true := by
    rw [← ha.pendingFor_isSome h, hc]
    rfl
  exact (h.flight (ha.inFlight hfresh hcri)).2.2 c hc

theorem stopInv (hu : Underway P s) : StopInv P cfg s' stopped := by
  obtain ⟨l, l', hl, hl', hcommand, hsome⟩ := ha.owner h
  have hfromCri := ha.claim.fromCri ha.pending
  have hpcId := ha.claim.pcId ha.pending
  have hlife := ha.called.lifetime
  have hflight : s.orc.deployFromCri = true → s.InFlight := ha.inFlight hu.fresh
  have hpeers : s.orc.deployFromCri = true → Monitor.WithoutPeers s'.monitor new := fun hc =>
    have hrequest := h.request ha.pending hc
    ha.peers hrequest.2.1 hrequest.2.2
  exact
    { count := hlife.count.trans h.count
      idle := fun hp => by
        rw [ha.deploy, ha.pending] at hp
        cases hp
      owner := fun _ =>
        ⟨k, l', ha.same.trans ha.loader, hl', by rw [hcommand, hsome, hfromCri]⟩
      request := fun _ hc => by
        rw [hpcId, ha.claim.peerMask ha.pending, ha.claim.peersAll ha.pending]
        exact h.request ha.pending (hfromCri ▸ hc)
      flight := fun hf => by
        obtain ⟨-, hc, ⟨j, hj⟩ | hd⟩ := (inFlight_iff ha.fresh).mp hf
        · exact absurd hj (ha.ended j)
        obtain ⟨hslot, hnot, howner⟩ := h.flight (hflight (hfromCri ▸ hc))
        rw [ha.claim.slots, hpcId, ha.pendingFor_same h]
        refine ⟨hslot, fun hp => ?_, howner⟩
        rcases ha.live h hp with hp | ⟨⟨r, hr, -⟩, -⟩
        · exact hnot hp
        · exact (ha.called.own r hr).2.2 hd
      asked := fun hd hc => by
        rw [hpcId]
        exact ⟨(hpeers (hfromCri ▸ hc)).mask hd, ha.called.target⟩
      failed := fun _ hc _ herror hp => by
        rw [hfromCri] at hc
        rw [hpcId] at hp
        rcases ha.live h hp with hp | ⟨⟨r, hr, -⟩, -⟩
        · exact (h.flight (hflight hc)).2.1 hp
        · exact herror ((hpeers hc).error (List.ne_nil_of_mem hr))
      live := fun p hp => by
        rw [ha.claim.slots]
        rcases ha.live h hp with hp | ⟨⟨r, hr, rfl⟩, hc⟩
        · exact h.live p hp
        · rw [(ha.called.own r hr).2.1]
          exact ⟨ha.called.target, (h.flight (hflight hc)).1⟩
      accepted := fun a hmem => by
        rw [ha.accepted] at hmem
        rcases List.mem_append.mp hmem with hmem | hmem
        · exact (h.accepted a hmem).next hlife ha.commands fun hs =>
            absurd hs (h.not_alive hu ha.idle hmem)
        · obtain rfl := List.mem_singleton.mp hmem
          refine ⟨?_, ha.called.cothread, ⟨k, l', rfl, hl'⟩, fun _ =>
            ⟨ha.deploy.trans ha.pending, ha.same.trans ha.loader⟩⟩
          rw [ha.called.spawned]
          exact Nat.lt_succ_self _
      starts := fun r hr => by
        rw [hlife.starts] at hr
        rcases List.mem_append.mp hr with hr | hr
        · exact hlife.below r hr
        · exact Nat.lt_of_lt_of_le (h.starts r hr) hlife.spawned }

end Accepts

/-- The loader of the pending deployment hands its file over. -/
theorem StopInv.handedOver {k : Nat} {e : Orchestrator.Event Node}
    {orc' : Orchestrator.State Node} {reply : Message} (h : StopInv P cfg s stopped)
    (hC : CompletionInv P s) (hturns : ∀ turn ∈ s.orc.monitor.turns, turn.Quiet)
    (hcaller : s.orc.monitor.caller = some k) (hk : s.orc.TargetedLoading k)
    (hpending' : orc'.deployPending = s.orc.deployPending) (hclaim : SameClaim s.orc orc')
    (hcommands : KeepsCommands s.orc orc')
    (hloading : ∀ j, orc'.TargetedLoading j ↔ s.orc.TargetedLoading j ∧ j ≠ k)
    (hfresh : orc'.Fresh) (hlabel : reply.label = .noError)
    (hcall : (port P).call s.orc.monitor (Orchestrator.deployToProtoconMessage s.orc.deployPcId
      s.orc.deployPeerMask s.orc.deployPeersAll) = some (orc'.monitor, reply)) :
    StopInv P cfg (s.leave P e s.orc orc') stopped ∧ InTime s (s.leave P e s.orc orc') stopped := by
  obtain ⟨hpending, hpendingk, hidle, hone⟩ := hC.loading hk
  obtain ⟨n, hn, ⟨hrejected, -⟩ | ⟨-, haccepted, new, hcalled, hpeers⟩⟩ :=
    deployCall_split hC.deployInv hturns h.count hcall
  · exact absurd hlabel hrejected
  have hu := hC.underway
  have h₁ := h.advance hu hn
  have ha : Accepts P k new (s.withNode n) (s.leave P e s.orc orc') :=
    { pending := hpending
      loader := hpendingk
      loading := hk
      idle := fun hd => hidle (hn.advance.deploying hd).1
      claim := sameClaim_withNode hclaim n
      commands := hcommands
      deploy := hpending'
      same := leave_pending_same hpending'
      ended := fun j hj => by
        obtain ⟨hj, hne⟩ := (hloading j).mp hj
        exact hne (hone j hj)
      fresh := hfresh
      accepted := by
        rw [show (s.withNode n).orc.monitor.accepted = s.orc.monitor.accepted from hn.accepted,
          ← hcaller]
        exact haccepted
      called := hcalled
      peers := hpeers }
  refine ⟨ha.stopInv h₁ (hu.advance hn), (h.advance_inTime hu hn).trans (ha.inTime h₁ hC.fresh) ?_⟩
  exact fun r hr => ha.startedFor_before h₁ (h₁.starts r hr)

end

end Host
end Carrels
