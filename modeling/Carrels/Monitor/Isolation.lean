/-
Network isolation by mutual consent.

`ConsentInv` is what the handlers keep between them: an open pair joins two protocons in
use whose policies name each other, a policy names only peers that the latest
deployment of its protocon named, and a protocon that is not in use has an empty policy.
A stop keeps it by releasing the protocon, a deployment by finding its protocon with
nothing open and nothing allowed.  A restoring fault makes a protocon available without
releasing it, so it keeps the invariant only if there was nothing to release.
-/
import Carrels.Monitor.SingleDeploy

namespace Carrels
namespace Monitor

open BitMask StepSystem

/-- An open pair joins two protocons in use, each of which was given the other as a peer
by its latest deployment. -/
def Isolated (P : Platform) (s : State) : Prop :=
  ∀ a b, a ≠ b → a < P.numPc → b < P.numPc → s.vswitch a b = true →
    s.inUse a = true ∧ s.inUse b = true ∧ Has (s.granted a) b ∧ Has (s.granted b) a

/-- The vSwitch applies every call, and nobody sets a pair by hand. -/
def NoManualAcl (_ : State) : Event → Prop
  | .call _ msg env => env.VswitchOk ∧ CallId.ofNumber (msg.get 0) ≠ some .setVswitchAcl
  | .resume _ _ env => env.VswitchOk
  | _ => True

/-- A protocon that is restored after a fault has an empty policy. -/
def NoFaultWithPeers (s : State) : Event → Prop
  | .fault child label ip address =>
    notifyFlag label ip address = true → s.peerPolicy child = 0
  | _ => True

structure ConsentInv (P : Platform) (s : State) : Prop where
  count : s.monitoredProtoconCount = P.numPc
  pair : ∀ a b, a ≠ b → a < P.numPc → b < P.numPc → s.vswitch a b = true →
    s.inUse a = true ∧ s.inUse b = true ∧ Has (s.peerPolicy a) b ∧ Has (s.peerPolicy b) a
  granted : ∀ a < P.numPc, ∀ b, Has (s.peerPolicy a) b → Has (s.granted a) b
  free : ∀ a < P.numPc, s.inUse a = false → ∀ b, ¬ Has (s.peerPolicy a) b

theorem ConsentInv.consented {P : Platform} {s : State} (h : ConsentInv P s) : Isolated P s := by
  intro a b hab ha hb hopen
  obtain ⟨hua, hub, hpa, hpb⟩ := h.pair a b hab ha hb hopen
  exact ⟨hua, hub, h.granted a ha b hpa, h.granted b hb a hpb⟩

/-! ## Being in use -/

section

variable {P : Platform} {env : Env} {s s' : State}

theorem ConsentInv.congr (h : ConsentInv P s)
    (hcount : s'.monitoredProtoconCount = s.monitoredProtoconCount)
    (hlife : s'.lifecycle = s.lifecycle) (hv : s'.vswitch = s.vswitch)
    (hp : s'.peerPolicy = s.peerPolicy) (hg : s'.granted = s.granted) : ConsentInv P s' := by
  have huse : ∀ a, s'.inUse a = s.inUse a := fun a => State.inUse_congr (congrFun hlife a)
  refine ⟨hcount.trans h.count, ?_, ?_, ?_⟩
  · simpa only [hv, hp, huse] using h.pair
  · simpa only [hp, hg] using h.granted
  · simpa only [hp, huse] using h.free

theorem ConsentInv.setResultError (h : ConsentInv P s) (error : PcMonitorError) :
    ConsentInv P (s.setResultError error) :=
  h.congr rfl rfl rfl rfl rfl

theorem ConsentInv.finishCothread (h : ConsentInv P s) (id : Nat) :
    ConsentInv P (s.finishCothread id) :=
  h.congr rfl rfl rfl rfl rfl

theorem ConsentInv.setResultReady (h : ConsentInv P s) : ConsentInv P s.setResultReady :=
  h.congr rfl rfl rfl rfl rfl

theorem ConsentInv.closed (h : ConsentInv P s) {c a b : Nat} (hc : ∀ i, ¬ Has (s.peerPolicy c) i)
    (hab : a ≠ b) (ha : a < P.numPc) (hb : b < P.numPc) (hopen : s.vswitch a b = true) :
    a ≠ c ∧ b ≠ c := by
  obtain ⟨-, -, hpa, hpb⟩ := h.pair a b hab ha hb hopen
  exact ⟨fun hac => hc b (hac ▸ hpa), fun hbc => hc a (hbc ▸ hpb)⟩

theorem ConsentInv.lifecycle (h : ConsentInv P s) {c : Nat} {l : Lifecycle}
    (hcount : s'.monitoredProtoconCount = s.monitoredProtoconCount)
    (hlife : s'.lifecycle = Function.update s.lifecycle c l) (hv : s'.vswitch = s.vswitch)
    (hp : s'.peerPolicy = s.peerPolicy) (hg : s'.granted = s.granted)
    (hc : s'.inUse c = s.inUse c ∨ ∀ i, ¬ Has (s.peerPolicy c) i) : ConsentInv P s' := by
  have hne : ∀ {a}, a ≠ c → s'.inUse a = s.inUse a := fun ha =>
    State.inUse_congr (by rw [hlife, Function.update_of_ne ha])
  refine ⟨hcount.trans h.count, fun a b hab ha hb hopen => ?_, ?_, fun a ha huse => ?_⟩
  · rw [hv] at hopen
    have huse : s'.inUse a = s.inUse a ∧ s'.inUse b = s.inUse b := by
      rcases hc with hc | hc
      · constructor
        · by_cases hac : a = c
          · exact hac ▸ hc
          · exact hne hac
        · by_cases hbc : b = c
          · exact hbc ▸ hc
          · exact hne hbc
      · obtain ⟨hac, hbc⟩ := h.closed hc hab ha hb hopen
        exact ⟨hne hac, hne hbc⟩
    rw [huse.1, huse.2, hp]
    exact h.pair a b hab ha hb hopen
  · rw [hp, hg]
    exact h.granted
  · rw [hp]
    by_cases hac : a = c
    · subst hac
      rcases hc with hc | hc
      · exact h.free a ha (hc ▸ huse)
      · exact hc
    · exact h.free a ha ((hne hac) ▸ huse)

/-- A stop closes every pair of its protocon before it makes it available. -/
theorem ConsentInv.stopAndRestored (h : ConsentInv P s) (henv : env.VswitchOk) (c : Nat) :
    ConsentInv P (s.stopAndRestored env c) := by
  have hframe := monitorAclReleaseProtocon_frame s env c
  have hpol : (s.stopAndRestored env c).peerPolicy =
      (monitorAclReleaseProtocon s env c).peerPolicy := rfl
  have hv : (s.stopAndRestored env c).vswitch = (monitorAclReleaseProtocon s env c).vswitch := rfl
  have hlife : (s.stopAndRestored env c).lifecycle =
      Function.update s.lifecycle c .passive := by
    rw [State.stopAndRestored, hframe]
    rfl
  have hgranted : (s.stopAndRestored env c).granted = s.granted := by
    rw [State.stopAndRestored, hframe]
    rfl
  have hcount : (s.stopAndRestored env c).monitoredProtoconCount = s.monitoredProtoconCount := by
    rw [State.stopAndRestored, hframe]
    rfl
  have hne : ∀ {a}, a ≠ c → (s.stopAndRestored env c).inUse a = s.inUse a := fun ha =>
    State.inUse_congr (by rw [hlife, Function.update_of_ne ha])
  by_cases hlt : c < P.numPc
  · have hc : c < s.monitoredProtoconCount := h.count ▸ hlt
    have hhas : ∀ a b, Has ((s.stopAndRestored env c).peerPolicy a) b ↔
        a ≠ c ∧ Has (s.peerPolicy a) b ∧ (a < s.monitoredProtoconCount → b ≠ c) := fun a b => by
      rw [hpol]
      exact has_monitorAclReleaseProtocon (h.count ▸ P.numPc_le) hc
    refine ⟨hcount.trans h.count, fun a b hab ha hb hopen => ?_, fun a ha b hb => ?_,
      fun a ha huse b hb => ?_⟩
    · rw [hv] at hopen
      have hac : a ≠ c := fun hac => by
        have hcl := (monitorAclReleaseProtocon_closes henv hc (h.count ▸ hb)
          (fun hbc => hab (hac.trans hbc.symm))).1
        rw [hac, hcl] at hopen
        exact absurd hopen Bool.false_ne_true
      have hbc : b ≠ c := fun hbc => by
        have hcl := (monitorAclReleaseProtocon_closes henv hc (h.count ▸ ha) hac).2
        rw [hbc, hcl] at hopen
        exact absurd hopen Bool.false_ne_true
      obtain ⟨hua, hub, hpa, hpb⟩ := h.pair a b hab ha hb (monitorAclReleaseProtocon_vswitch_le hopen)
      rw [hne hac, hne hbc, hhas, hhas]
      exact ⟨hua, hub, ⟨hac, hpa, fun _ => hbc⟩, ⟨hbc, hpb, fun _ => hac⟩⟩
    · rw [hgranted]
      exact h.granted a ha b ((hhas a b).mp hb).2.1
    · obtain ⟨hac, hb, -⟩ := (hhas a b).mp hb
      exact h.free a ha ((hne hac) ▸ huse) b hb
  · -- An id without policy: the release returns at once.
    have hrel : monitorAclReleaseProtocon s env c = s := by
      rw [monitorAclReleaseProtocon, if_pos (by rw [h.count]; omega)]
    rw [hrel] at hpol hv
    refine ⟨hcount.trans h.count, fun a b hab ha hb hopen => ?_, ?_, fun a ha huse => ?_⟩
    · rw [hne (a := a) (by omega), hne (a := b) (by omega), hpol]
      exact h.pair a b hab ha hb (hv ▸ hopen)
    · rw [hpol, hgranted]
      exact h.granted
    · rw [hpol]
      exact h.free a ha ((hne (a := a) (by omega)) ▸ huse)

theorem Control.consentInv {e : Event} (hI : ConsentInv P s) (hacl : NoManualAcl s e)
    (hok : NoFaultWithPeers s e) (h : Control P s e s') : ConsentInv P s' := by
  cases h with
  | idle | notify | flip | payload | faultStop => exact hI.congr rfl rfl rfl rfl rfl
  | setAcl hmsg => exact absurd hmsg hacl.2
  | stop => exact hI.stopAndRestored hacl.1 _
  | suspend _ _ hs =>
      refine hI.lifecycle rfl rfl rfl rfl rfl (Or.inl ?_)
      rw [State.inUse_iff.mpr (Or.inl hs)]
      exact State.inUse_iff.mpr (Or.inr (Function.update_self ..))
  | resume _ _ hs =>
      refine hI.lifecycle rfl rfl rfl rfl rfl (Or.inl ?_)
      rw [State.inUse_iff.mpr (Or.inr hs)]
      exact State.inUse_iff.mpr (Or.inl (Function.update_self ..))
  | faultRestore _ hflag =>
      refine hI.lifecycle rfl rfl rfl rfl rfl (Or.inr fun i => ?_)
      rw [hok hflag]
      exact not_has_zero i

/-! ## Deployments -/

/-- What the access-control part of a deployment does to policies and pairs is what
`monitor_acl_apply_deployment` does. -/
theorem State.applyAcl_apply (s : State) (env : Env) :
    (s.applyAcl env).peerPolicy = (monitorAclApplyDeployment s env
        s.deployRequest.targetPc.toNat s.deployRequest.requestedPeerMask).1.peerPolicy ∧
      (s.applyAcl env).vswitch = (monitorAclApplyDeployment s env
        s.deployRequest.targetPc.toNat s.deployRequest.requestedPeerMask).1.vswitch := by
  unfold State.applyAcl
  generalize monitorAclApplyDeployment s env s.deployRequest.targetPc.toNat
    s.deployRequest.requestedPeerMask = r
  obtain ⟨t, masks⟩ := r
  cases masks with
  | error => exact ⟨rfl, rfl⟩
  | ok => exact ⟨rfl, rfl⟩

/-- The policies after the access-control part of a deployment of `t`. -/
theorem State.applyAcl_peerPolicy (s : State) (env : Env) :
    (s.applyAcl env).peerPolicy =
      if s.monitoredProtoconCount ≤ s.deployRequest.targetPc.toNat then s.peerPolicy
      else Function.update s.peerPolicy s.deployRequest.targetPc.toNat
        s.deployRequest.requestedPeerMask := by
  rw [(s.applyAcl_apply env).1, monitorAclApplyDeployment]
  split
  · rfl
  · rw [applyPeers_frame]
    rfl

theorem State.applyAcl_vswitch {a b : Nat} (h : (s.applyAcl env).vswitch a b = true) :
    s.vswitch a b = true ∨
      ∃ peer, ((a = s.deployRequest.targetPc.toNat ∧ b = peer) ∨
          (a = peer ∧ b = s.deployRequest.targetPc.toNat)) ∧
        Consents { s with peerPolicy := (s.applyAcl env).peerPolicy }
          s.deployRequest.requestedPeerMask s.deployRequest.targetPc.toNat peer := by
  rw [(s.applyAcl_apply env).2, monitorAclApplyDeployment] at h
  rw [State.applyAcl_peerPolicy]
  split at h
  · exact Or.inl h
  next hlt =>
    rw [if_neg hlt]
    rcases applyPeers_vswitch h with h | ⟨peer, -, hpair, hcons⟩
    · exact Or.inl h
    · exact Or.inr ⟨peer, hpair, hcons⟩

theorem State.started_lifecycle (s : State) (id : Nat) (w : Installing) :
    (s.started id w).lifecycle w.plan.pcId = .active :=
  Function.update_self ..

theorem State.started_granted (s : State) (id : Nat) (w : Installing) :
    (s.started id w).granted w.plan.pcId = s.peersOf w.branch :=
  Function.update_self ..

/-- Starting a protocon that is free gives it the peers of its deployment and opens
nothing. -/
theorem ConsentInv.started (h : ConsentInv P s) {id : Nat} {w : Installing}
    (hs : s.lifecycle w.plan.pcId = .passive) : ConsentInv P (s.started id w) := by
  have hfree : ∀ a, a = w.plan.pcId → a < P.numPc → ∀ b, ¬ Has (s.peerPolicy a) b :=
    fun a hap ha => h.free a ha (State.inUse_of_passive (hap ▸ hs))
  have hne : ∀ {a}, a ≠ w.plan.pcId → (s.started id w).inUse a = s.inUse a := fun ha =>
    State.inUse_congr (Function.update_of_ne ha _ _)
  refine ⟨h.count, fun a b hab ha hb hopen => ?_, fun a ha b hb => ?_, fun a ha huse => ?_⟩
  · obtain ⟨hua, hub, hpa, hpb⟩ := h.pair a b hab ha hb hopen
    rw [hne fun hap => hfree a hap ha b hpa, hne fun hbp => hfree b hbp hb a hpb]
    exact ⟨hua, hub, hpa, hpb⟩
  · have hap : a ≠ w.plan.pcId := fun hap => hfree a hap ha b hb
    have hg : (s.started id w).granted a = s.granted a := Function.update_of_ne hap _ _
    rw [hg]
    exact h.granted a ha b hb
  · by_cases hap : a = w.plan.pcId
    · exact hfree a hap ha
    · exact h.free a ha ((hne hap) ▸ huse)

/-- After the start of a free target, applying its policy opens only what both sides
allow. -/
theorem ConsentInv.applyAcl (h : ConsentInv P s)
    (huse : s.inUse s.deployRequest.targetPc.toNat = true)
    (hfree : ∀ i, ¬ Has (s.peerPolicy s.deployRequest.targetPc.toNat) i)
    (hgranted : s.granted s.deployRequest.targetPc.toNat = s.deployRequest.requestedPeerMask)
    (hlt : s.deployRequest.targetPc.toNat < P.numPc) : ConsentInv P (s.applyAcl env) := by
  have hpol : (s.applyAcl env).peerPolicy = Function.update s.peerPolicy
      s.deployRequest.targetPc.toNat s.deployRequest.requestedPeerMask := by
    rw [State.applyAcl_peerPolicy, if_neg (by rw [h.count]; omega)]
  have hframe := (s.applyAcl_frame env).1
  have hinUse : ∀ a, (s.applyAcl env).inUse a = s.inUse a := fun a => by
    rw [hframe]
    rfl
  have hgr : (s.applyAcl env).granted = s.granted := by
    rw [hframe]
    rfl
  have hcount : (s.applyAcl env).monitoredProtoconCount = s.monitoredProtoconCount := by
    rw [hframe]
    rfl
  refine ⟨hcount.trans h.count, fun a b hab ha hb hopen => ?_, fun a ha b hb => ?_,
    fun a ha hua b => ?_⟩
  · rw [hinUse, hinUse, hpol]
    rcases State.applyAcl_vswitch hopen with hopen | ⟨peer, hpair, hreq, hup, hcons⟩
    · obtain ⟨hat, hbt⟩ := h.closed hfree hab ha hb hopen
      rw [Function.update_of_ne hat, Function.update_of_ne hbt]
      exact h.pair a b hab ha hb hopen
    · rw [hpol] at hcons
      rcases hpair with ⟨rfl, rfl⟩ | ⟨rfl, rfl⟩
      · rw [Function.update_of_ne hab.symm] at hcons
        rw [Function.update_self, Function.update_of_ne hab.symm]
        exact ⟨huse, hup, hreq, hcons⟩
      · rw [Function.update_of_ne hab] at hcons
        rw [Function.update_self, Function.update_of_ne hab]
        exact ⟨hup, huse, hcons, hreq⟩
  · rw [hpol] at hb
    rw [hgr]
    by_cases hat : a = s.deployRequest.targetPc.toNat
    · rw [hat, Function.update_self] at hb
      rw [hat, hgranted]
      exact hb
    · rw [Function.update_of_ne hat] at hb
      exact h.granted a ha b hb
  · rw [hinUse] at hua
    have hat : a ≠ s.deployRequest.targetPc.toNat := fun hat => by
      rw [hat, huse] at hua
      exact absurd hua.symm Bool.false_ne_true
    rw [hpol, Function.update_of_ne hat]
    exact h.free a ha hua b

theorem Accept.consentInv (hI : ConsentInv P s) {id : CallId} (h : Accept P s id s') :
    ConsentInv P s' := by
  cases h with
  | _ => exact hI.congr rfl rfl rfl rfl rfl

theorem Work.consentInv (hD : DeployInv P s) (hI : ConsentInv P s)
    (h : Work P env s s') : ConsentInv P s' := by
  cases h with
  | start hc hw => exact hI.started (hD.installing _ _ _ hc hw).passive
  | @startTargeted id c w hc hw hb =>
      obtain ⟨hbr, htarget, -, hs, -⟩ := hD.installing _ _ _ hc hw
      have hlt := hD.target (hD.active.mpr ⟨_, _, hc, not_ended_of_installing hw⟩) (hbr.mp hb)
      have ht := htarget hb
      have hact' : (s.started id w).inUse s.deployRequest.targetPc.toNat = true := by
        rw [← ht, State.inUse_iff]
        exact Or.inl (s.started_lifecycle id w)
      have hgr : (s.started id w).granted s.deployRequest.targetPc.toNat =
          s.deployRequest.requestedPeerMask := by
        rw [← ht, State.started_granted, hb]
        rfl
      have hfree := hI.free _ hlt (State.inUse_of_passive (ht ▸ hs))
      have hstart : ConsentInv P ((s.started id w).setResultError .noError) :=
        (hI.started hs).setResultError .noError
      have hacl : ConsentInv P (((s.started id w).setResultError .noError).applyAcl env) :=
        hstart.applyAcl hact' hfree hgr hlt
      rw [finishTargeted_eq, State.concluded, if_pos rfl]
      exact hacl.setResultReady.finishCothread id
  | failTargeted _ _ _ herror _ =>
      rw [finishTargeted_eq, State.concluded, if_neg herror]
      exact (hI.setResultError _).setResultReady.finishCothread _
  | _ => exact hI.congr rfl rfl rfl rfl rfl

theorem Answer.consentInv (hI : ConsentInv P s) {id : Nat} {answer : PicoVfs.Completion}
    (h : Answer s id answer s') : ConsentInv P s' := by
  cases h with
  | intro => exact hI.congr rfl rfl rfl rfl rfl

theorem Internal.consentInv (hD : DeployInv P s) (hI : ConsentInv P s)
    (h : Internal P env s s') : ConsentInv P s' := by
  cases h with
  | accept h => exact h.consentInv hI
  | answer h => exact h.consentInv hI
  | work h => exact h.consentInv hD hI

end

/-! ## Every run -/

/-- When every protocon that is restored after a fault has an empty policy, open pairs
rest on mutual consent. -/
theorem isolated {P : Platform} {s : State}
    (h : Reaches (step P) (fun s e => NoManualAcl s e ∧ NoFaultWithPeers s e)
      (caMonitorInitStates P) s) : Isolated P s := by
  refine (reaches_of_actions (I := ConsentInv P) ?_
    (fun _ _ _ _ hI hok hs => hs.consentInv hI hok.1 hok.2)
    (fun _ _ _ hD hI hs => hs.consentInv hD hI) h).2.consented
  obtain ⟨m, hm⟩ := caMonitorInitStates_eq P
  rw [hm]
  exact ⟨rfl, fun a b _ _ _ hopen => absurd hopen Bool.false_ne_true,
    fun a _ b hb => absurd hb (not_has_zero b), fun a _ _ b => not_has_zero b⟩

/-- Both protocons are deployed with every peer allowed. -/
def connectedRun : List Event :=
  [writePayloadOf [], orchestratorCall .deployToProtocon [0, 0, 1] {},
    orchestratorCall .deployToProtocon [1, 0, 1] {}]

def connectedState : State :=
  (run (step (smallPlatform 2)) (caMonitorInitStates (smallPlatform 2)) connectedRun).get
    (by decide +kernel)

theorem connectedRun_noManualAcl : ∀ e ∈ connectedRun, ∀ s, NoManualAcl s e := by
  intro e he s
  simp only [connectedRun, List.mem_cons, List.not_mem_nil, or_false] at he
  rcases he with rfl | rfl | rfl
  · trivial
  · exact ⟨fun _ _ _ => rfl, by decide⟩
  · exact ⟨fun _ _ _ => rfl, by decide⟩

/-- The pair of two protocons that allow each other is open, and isolation holds. -/
theorem isolated_connectedState :
    Isolated (smallPlatform 2) connectedState ∧ connectedState.vswitch 0 1 = true := by
  refine ⟨isolated (reaches_of_run (runMeets_of_forall connectedRun (fun e he s =>
    ⟨connectedRun_noManualAcl e he s, ?_⟩) _) (Option.some_get _).symm), by decide +kernel⟩
  simp only [connectedRun, List.mem_cons, List.not_mem_nil, or_false] at he
  rcases he with rfl | rfl | rfl <;> trivial

/-- Protocon 1 faults, is restored, and is deployed anew without peers. -/
def leakRun : List Event :=
  connectedRun ++ [.fault 1 .vmFault 0x4000 0, orchestratorCall .deploy [1] {}]

def leakState : State :=
  (run (step (smallPlatform 2)) (caMonitorInitStates (smallPlatform 2)) leakRun).get
    (by decide +kernel)

/-- A restored protocon keeps its open pairs, and so does the next application in it. -/
theorem not_isolated :
    ¬ ∀ P s, Reaches (step P) NoManualAcl (caMonitorInitStates P) s → Isolated P s := by
  intro h
  have hok : ∀ e ∈ leakRun, ∀ s, NoManualAcl s e := by
    intro e he s
    rcases List.mem_append.mp he with he | he
    · exact connectedRun_noManualAcl e he s
    · simp only [List.mem_cons, List.not_mem_nil, or_false] at he
      rcases he with rfl | rfl
      · trivial
      · exact ⟨fun _ _ _ => rfl, by decide⟩
  have hs := h (smallPlatform 2) leakState
    (reaches_of_run (runMeets_of_forall _ hok _) (Option.some_get _).symm)
  have hopen : leakState.vswitch 0 1 = true := by decide +kernel
  have hgrant : ¬ Has (leakState.granted 1) 0 := by decide +kernel
  exact hgrant (hs 0 1 (by decide) (by decide) (by decide) hopen).2.2.2

end Monitor
end Carrels
