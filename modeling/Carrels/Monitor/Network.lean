/-
Access control between protocons (`request/network.c`).

A pair of vSwitch ports is opened when the second of two deployments finds that the
first one named it, and is closed again when either protocon is released.  Both
operations are loops over the peers, each round of which may call the vSwitch; the
lemmas describe a loop over any list of peers.
-/
import Carrels.Monitor.State

namespace Carrels
namespace Monitor

open BitMask

/-- The table `t` with the pair `p`, `q` set to `v` in both directions. -/
def setPair (t : Nat → Nat → Bool) (p q : Nat) (v : Bool) : Nat → Nat → Bool := fun a b =>
  if (a = p ∧ b = q) ∨ (a = q ∧ b = p) then v else t a b

/-- The register as a `vswitch_err_t`, which is as wide as an `int`. -/
def VswitchReply.err (r : VswitchReply) : BitVec 32 := r.error.setWidth 32

/-- The vSwitch applied the call. -/
def VswitchReply.ok (r : VswitchReply) : Bool := r.label = 0 && r.err = 0

/-- `monitor_call_set_vswitch_acl` -/
def monitorCallSetVswitchAcl (s : State) (env : Env) (port0 port1 allow : Nat) :
    State × Message :=
  if (env.vswitch port0 port1 allow).ok then
    ({ s with vswitch := setPair s.vswitch port0 port1 (allow ≠ 0) }, { label := .noError })
  else (s, { label := .vswitchError, mr := [(env.vswitch port0 port1 allow).err.setWidth 64] })

/-- `monitor_acl_initialise` -/
def monitorAclInitialise (s : State) (numProtocons : Nat) : State :=
  { s with monitoredProtoconCount := numProtocons, peerPolicy := fun _ => 0 }

/-- One round of the loop of `monitor_acl_release_protocon`. -/
def releasePeer (env : Env) (pcId : Nat) (s : State) (peer : Nat) : State :=
  if peer = pcId then s
  else
    let s := (monitorCallSetVswitchAcl s env pcId peer 0).1
    { s with peerPolicy :=
        Function.update s.peerPolicy peer (s.peerPolicy peer &&& ~~~(1#32 <<< pcId)) }

/-- `monitor_acl_release_protocon` -/
def monitorAclReleaseProtocon (s : State) (env : Env) (pcId : Nat) : State :=
  if s.monitoredProtoconCount ≤ pcId then s
  else
    let s := (List.range s.monitoredProtoconCount).foldl (releasePeer env pcId) s
    { s with peerPolicy := Function.update s.peerPolicy pcId 0 }

structure PeerMasks where
  connected : BitVec 32 := 0
  rejected : BitVec 32 := 0
  unavailable : BitVec 32 := 0

/-- The protocon is in use: `PROTOCON_ACTIVE` or `PROTOCON_SUSPENDED`. -/
def State.inUse (s : State) (pcId : Nat) : Bool :=
  s.checkLifecycleState pcId .active || s.checkLifecycleState pcId .suspended

theorem State.inUse_iff {s : State} {p : Nat} :
    s.inUse p = true ↔ s.lifecycle p = .active ∨ s.lifecycle p = .suspended := by
  simp [State.inUse, State.checkLifecycleState]

theorem State.inUse_eq_false_iff {s : State} {p : Nat} :
    s.inUse p = false ↔ s.lifecycle p ≠ .active ∧ s.lifecycle p ≠ .suspended := by
  rw [← Bool.not_eq_true, State.inUse_iff, not_or]

theorem State.inUse_congr {s s' : State} {p : Nat} (h : s'.lifecycle p = s.lifecycle p) :
    s'.inUse p = s.inUse p := by
  rw [State.inUse, State.inUse, State.checkLifecycleState, State.checkLifecycleState, h]
  rfl

theorem State.inUse_of_passive {s : State} {p : Nat} (h : s.lifecycle p = .passive) :
    s.inUse p = false := by
  simp [State.inUse, State.checkLifecycleState, h]

/-- The loop of `monitor_acl_apply_deployment` over the peers that are left. -/
def applyPeers (env : Env) (pcId : Nat) (requested : BitVec 32) :
    List Nat → State → PeerMasks → State × Except PcMonitorError PeerMasks
  | [], s, m => (s, .ok m)
  | peer :: rest, s, m =>
    let peerBit := 1#32 <<< peer
    if requested &&& peerBit = 0 then applyPeers env pcId requested rest s m
    else if !s.inUse peer then
      applyPeers env pcId requested rest s { m with unavailable := m.unavailable ||| peerBit }
    else if s.peerPolicy peer &&& 1#32 <<< pcId = 0 then
      applyPeers env pcId requested rest s { m with rejected := m.rejected ||| peerBit }
    else
      let (s', reply) := monitorCallSetVswitchAcl s env pcId peer 1
      if reply.label ≠ .noError then (s', .error .vswitchError)
      else applyPeers env pcId requested rest s' { m with connected := m.connected ||| peerBit }

/-- `monitor_acl_apply_deployment`; the masks are what it stores through its three
pointers. -/
def monitorAclApplyDeployment (s : State) (env : Env) (pcId : Nat) (requested : BitVec 32) :
    State × Except PcMonitorError PeerMasks :=
  if s.monitoredProtoconCount ≤ pcId then (s, .error .invalidPcId)
  else
    applyPeers env pcId requested (List.range s.monitoredProtoconCount)
      { s with peerPolicy := Function.update s.peerPolicy pcId requested } {}

/-! ## The pair table -/

/-- The state `s` with another pair table and other policies. -/
def State.withNetwork (s : State) (table : Nat → Nat → Bool) (policy : Nat → BitVec 32) :
    State :=
  { s with vswitch := table, peerPolicy := policy }

/-- The vSwitch applies every call of this event. -/
def Env.VswitchOk (env : Env) : Prop := ∀ p q v, (env.vswitch p q v).ok = true

theorem setPair_of_not_mem {t : Nat → Nat → Bool} {p q a b : Nat} (v : Bool)
    (ha : a ≠ p ∨ b ≠ q) (hb : a ≠ q ∨ b ≠ p) : setPair t p q v a b = t a b := by
  unfold setPair
  rw [if_neg (by omega)]

theorem setPair_false_le {t : Nat → Nat → Bool} {p q a b : Nat}
    (h : setPair t p q false a b = true) : t a b = true := by
  unfold setPair at h
  split at h
  · exact absurd h (by simp)
  · exact h

theorem setPair_true_cases {t : Nat → Nat → Bool} {p q a b : Nat}
    (h : setPair t p q true a b = true) :
    t a b = true ∨ (a = p ∧ b = q) ∨ (a = q ∧ b = p) := by
  unfold setPair at h
  split at h
  next hp => exact Or.inr hp
  next => exact Or.inl h

theorem setPair_true_iff (t : Nat → Nat → Bool) (p q a b : Nat) :
    setPair t p q true a b = true ↔
      t a b = true ∨ (a = p ∧ b = q) ∨ (a = q ∧ b = p) := by
  constructor
  · exact setPair_true_cases
  · intro h
    unfold setPair
    split
    · rfl
    next hne => exact h.resolve_right hne

theorem monitorCallSetVswitchAcl_frame (s : State) (env : Env) (p q v : Nat) :
    (monitorCallSetVswitchAcl s env p q v).1 =
      s.withNetwork (monitorCallSetVswitchAcl s env p q v).1.vswitch s.peerPolicy := by
  unfold monitorCallSetVswitchAcl
  split <;> rfl

theorem monitorCallSetVswitchAcl_vswitch (s : State) (env : Env) (p q v : Nat) :
    (monitorCallSetVswitchAcl s env p q v).1.vswitch =
      if (env.vswitch p q v).ok then setPair s.vswitch p q (v ≠ 0) else s.vswitch := by
  unfold monitorCallSetVswitchAcl
  split <;> rfl

/-! ## Release -/

theorem releasePeer_frame (env : Env) (c : Nat) (s : State) (peer : Nat) :
    releasePeer env c s peer =
      s.withNetwork (releasePeer env c s peer).vswitch
        (releasePeer env c s peer).peerPolicy := by
  unfold releasePeer
  split
  · rfl
  · rw [monitorCallSetVswitchAcl_frame]
    rfl

theorem foldl_releasePeer_frame (env : Env) (c : Nat) (peers : List Nat) (s : State) :
    peers.foldl (releasePeer env c) s =
      s.withNetwork (peers.foldl (releasePeer env c) s).vswitch
        (peers.foldl (releasePeer env c) s).peerPolicy := by
  induction peers generalizing s with
  | nil => rfl
  | cons peer peers ih =>
      rw [List.foldl_cons, ih, releasePeer_frame]
      rfl

theorem monitorAclReleaseProtocon_frame (s : State) (env : Env) (c : Nat) :
    monitorAclReleaseProtocon s env c =
      s.withNetwork (monitorAclReleaseProtocon s env c).vswitch
        (monitorAclReleaseProtocon s env c).peerPolicy := by
  unfold monitorAclReleaseProtocon
  split
  · rfl
  · rw [foldl_releasePeer_frame]
    rfl

theorem releasePeer_vswitch_of_ne {c a b : Nat} (env : Env) (s : State) (peer : Nat)
    (ha : a ≠ c) (hb : b ≠ c) : (releasePeer env c s peer).vswitch a b = s.vswitch a b := by
  unfold releasePeer
  split
  · rfl
  · rw [monitorCallSetVswitchAcl_vswitch]
    split
    · exact setPair_of_not_mem _ (Or.inl ha) (Or.inr hb)
    · rfl

theorem foldl_releasePeer_vswitch_of_ne {c a b : Nat} (env : Env) (peers : List Nat) (s : State)
    (ha : a ≠ c) (hb : b ≠ c) :
    (peers.foldl (releasePeer env c) s).vswitch a b = s.vswitch a b := by
  induction peers generalizing s with
  | nil => rfl
  | cons peer peers ih =>
      rw [List.foldl_cons, ih, releasePeer_vswitch_of_ne env s peer ha hb]

theorem monitorAclReleaseProtocon_vswitch_of_ne {c a b : Nat} (s : State) (env : Env)
    (ha : a ≠ c) (hb : b ≠ c) :
    (monitorAclReleaseProtocon s env c).vswitch a b = s.vswitch a b := by
  unfold monitorAclReleaseProtocon
  split
  · rfl
  · exact foldl_releasePeer_vswitch_of_ne env _ s ha hb

theorem releasePeer_vswitch_le {c a b : Nat} (env : Env) (s : State) (peer : Nat)
    (h : (releasePeer env c s peer).vswitch a b = true) : s.vswitch a b = true := by
  unfold releasePeer at h
  split at h
  · exact h
  · rw [monitorCallSetVswitchAcl_vswitch] at h
    split at h
    · exact setPair_false_le h
    · exact h

theorem foldl_releasePeer_vswitch_le {c a b : Nat} (env : Env) (peers : List Nat) (s : State)
    (h : (peers.foldl (releasePeer env c) s).vswitch a b = true) : s.vswitch a b = true := by
  induction peers generalizing s with
  | nil => exact h
  | cons peer peers ih => exact releasePeer_vswitch_le env s peer (ih _ h)

theorem monitorAclReleaseProtocon_vswitch_le {c a b : Nat} {s : State} {env : Env}
    (h : (monitorAclReleaseProtocon s env c).vswitch a b = true) : s.vswitch a b = true := by
  unfold monitorAclReleaseProtocon at h
  split at h
  · exact h
  · exact foldl_releasePeer_vswitch_le env _ s h

theorem releasePeer_closes {c peer : Nat} {env : Env} (henv : env.VswitchOk) (s : State)
    (hne : peer ≠ c) :
    (releasePeer env c s peer).vswitch c peer = false ∧
      (releasePeer env c s peer).vswitch peer c = false := by
  unfold releasePeer
  rw [if_neg hne]
  simp only [monitorCallSetVswitchAcl_vswitch, henv c peer 0, if_true]
  simp [setPair]

/-- When the vSwitch answers, the loop closes every pair it visits. -/
theorem foldl_releasePeer_closes {c peer : Nat} {env : Env} (henv : env.VswitchOk)
    {peers : List Nat} (s : State) (hmem : peer ∈ peers) (hne : peer ≠ c) :
    (peers.foldl (releasePeer env c) s).vswitch c peer = false ∧
      (peers.foldl (releasePeer env c) s).vswitch peer c = false := by
  induction peers generalizing s with
  | nil => exact absurd hmem List.not_mem_nil
  | cons q peers ih =>
      rw [List.foldl_cons]
      by_cases hq : peer = q
      · subst hq
        obtain ⟨h₁, h₂⟩ := releasePeer_closes henv s hne
        constructor
        · exact Bool.eq_false_iff.mpr fun h =>
            Bool.eq_false_iff.mp h₁ (foldl_releasePeer_vswitch_le env peers _ h)
        · exact Bool.eq_false_iff.mpr fun h =>
            Bool.eq_false_iff.mp h₂ (foldl_releasePeer_vswitch_le env peers _ h)
      · exact ih _ ((List.mem_cons.mp hmem).resolve_left hq)

theorem monitorAclReleaseProtocon_closes {s : State} {env : Env} {c peer : Nat}
    (henv : env.VswitchOk) (hc : c < s.monitoredProtoconCount)
    (hpeer : peer < s.monitoredProtoconCount) (hne : peer ≠ c) :
    (monitorAclReleaseProtocon s env c).vswitch c peer = false ∧
      (monitorAclReleaseProtocon s env c).vswitch peer c = false := by
  unfold monitorAclReleaseProtocon
  rw [if_neg (by omega)]
  exact foldl_releasePeer_closes henv s (List.mem_range.mpr hpeer) hne

/-- A member of a policy after one round was one before, and is not `c` where the
round cleared it. -/
theorem has_releasePeer {c peer q i : Nat} {env : Env} {s : State} (hc : c < 32) :
    Has ((releasePeer env c s peer).peerPolicy q) i ↔
      Has (s.peerPolicy q) i ∧ (q = peer → peer ≠ c → i ≠ c) := by
  unfold releasePeer
  by_cases hpeer : peer = c
  · rw [if_pos hpeer]
    simp [hpeer]
  · rw [if_neg hpeer, monitorCallSetVswitchAcl_frame]
    simp only [State.withNetwork]
    by_cases hq : q = peer
    · subst hq
      simp only [Function.update_self]
      rw [has_and_not_bit hc]
      exact and_congr_right' ⟨fun h _ _ => Ne.symm h, fun h => Ne.symm (h trivial hpeer)⟩
    · simp only [Function.update_of_ne hq, hq, false_imp_iff, and_true]

theorem has_foldl_releasePeer {c q i : Nat} {env : Env} (hc : c < 32) (peers : List Nat)
    (s : State) :
    Has ((peers.foldl (releasePeer env c) s).peerPolicy q) i ↔
      Has (s.peerPolicy q) i ∧ (q ∈ peers → q ≠ c → i ≠ c) := by
  induction peers generalizing s with
  | nil => simp
  | cons peer peers ih =>
      rw [List.foldl_cons, ih, has_releasePeer hc, and_assoc]
      constructor
      · rintro ⟨h, h₁, h₂⟩
        refine ⟨h, fun hmem hne => ?_⟩
        rcases List.mem_cons.mp hmem with rfl | hmem
        · exact h₁ rfl hne
        · exact h₂ hmem hne
      · rintro ⟨h, h₁⟩
        exact ⟨h, fun hq hne => h₁ (List.mem_cons.mpr (Or.inl hq)) (hq ▸ hne),
          fun hmem => h₁ (List.mem_cons_of_mem peer hmem)⟩

/-- A release empties the protocon's own policy and removes it from those of its
peers. -/
theorem has_monitorAclReleaseProtocon {s : State} {env : Env} {c q i : Nat}
    (hcount : s.monitoredProtoconCount ≤ pcChildMaxNum) (hc : c < s.monitoredProtoconCount) :
    Has ((monitorAclReleaseProtocon s env c).peerPolicy q) i ↔
      q ≠ c ∧ Has (s.peerPolicy q) i ∧ (q < s.monitoredProtoconCount → i ≠ c) := by
  unfold monitorAclReleaseProtocon
  rw [if_neg (by omega)]
  by_cases hq : q = c
  · subst hq
    simp
  · simp only [Function.update_of_ne hq]
    rw [has_foldl_releasePeer (by unfold pcChildMaxNum at hcount; omega), List.mem_range]
    simp [hq]

/-! ## Deployment -/

/-- What may open between `c` and `peer`: `c` asked for `peer`, and `peer` is in use
with a policy that names `c`. -/
def Consents (s : State) (requested : BitVec 32) (c peer : Nat) : Prop :=
  Has requested peer ∧ s.inUse peer = true ∧ Has (s.peerPolicy peer) c

section

variable {env : Env} {c peer : Nat} {requested : BitVec 32} {s : State}

theorem applyPeers_skip (peers : List Nat) (m : PeerMasks) (hreq : ¬ Has requested peer) :
    applyPeers env c requested (peer :: peers) s m = applyPeers env c requested peers s m := by
  have hbit : requested &&& 1#32 <<< peer = 0 := (and_bit_eq_zero_iff requested peer).mpr hreq
  simp only [applyPeers, if_pos hbit]

theorem applyPeers_unavailable (peers : List Nat) (m : PeerMasks) (hreq : Has requested peer)
    (huse : s.inUse peer = false) :
    applyPeers env c requested (peer :: peers) s m =
      applyPeers env c requested peers s
        { m with unavailable := m.unavailable ||| 1#32 <<< peer } := by
  have hbit : ¬ requested &&& 1#32 <<< peer = 0 :=
    fun hz => (and_bit_eq_zero_iff requested peer).mp hz hreq
  simp only [applyPeers, if_neg hbit, huse, Bool.not_false, if_true]

theorem applyPeers_rejected (peers : List Nat) (m : PeerMasks) (hreq : Has requested peer)
    (huse : s.inUse peer = true) (hpolicy : ¬ Has (s.peerPolicy peer) c) :
    applyPeers env c requested (peer :: peers) s m =
      applyPeers env c requested peers s { m with rejected := m.rejected ||| 1#32 <<< peer } := by
  have hbit : ¬ requested &&& 1#32 <<< peer = 0 :=
    fun hz => (and_bit_eq_zero_iff requested peer).mp hz hreq
  have hnamed : s.peerPolicy peer &&& 1#32 <<< c = 0 := (and_bit_eq_zero_iff _ c).mpr hpolicy
  simp only [applyPeers, if_neg hbit, huse, Bool.not_true, Bool.false_eq_true, if_false,
    if_pos hnamed]

theorem applyPeers_consents (peers : List Nat) (m : PeerMasks)
    (hcons : Consents s requested c peer) :
    applyPeers env c requested (peer :: peers) s m =
      if (env.vswitch c peer 1).ok then
        applyPeers env c requested peers { s with vswitch := setPair s.vswitch c peer true }
          { m with connected := m.connected ||| 1#32 <<< peer }
      else (s, .error .vswitchError) := by
  obtain ⟨hreq, huse, hpolicy⟩ := hcons
  have hbit : ¬ requested &&& 1#32 <<< peer = 0 :=
    fun hz => (and_bit_eq_zero_iff requested peer).mp hz hreq
  have hnamed : ¬ s.peerPolicy peer &&& 1#32 <<< c = 0 :=
    fun hz => (and_bit_eq_zero_iff _ c).mp hz hpolicy
  by_cases hok : (env.vswitch c peer 1).ok = true
  · have hcall : monitorCallSetVswitchAcl s env c peer 1 =
        ({ s with vswitch := setPair s.vswitch c peer true }, { label := .noError }) := by
      rw [monitorCallSetVswitchAcl, if_pos hok]
      rfl
    simp only [applyPeers, if_neg hbit, huse, Bool.not_true, Bool.false_eq_true, if_false,
      if_neg hnamed, hcall, if_pos hok, ne_eq, not_true]
  · have hcall : monitorCallSetVswitchAcl s env c peer 1 =
        (s, { label := .vswitchError, mr := [(env.vswitch c peer 1).err.setWidth 64] }) := by
      rw [monitorCallSetVswitchAcl, if_neg hok]
    simp only [applyPeers, if_neg hbit, huse, Bool.not_true, Bool.false_eq_true, if_false,
      if_neg hnamed, hcall, if_neg hok, ne_eq, reduceCtorEq, not_false_iff, if_true]

theorem peer_cases (s : State) (requested : BitVec 32) (c peer : Nat) :
    ¬ Has requested peer ∨ (Has requested peer ∧ s.inUse peer = false) ∨
      (Has requested peer ∧ s.inUse peer = true ∧ ¬ Has (s.peerPolicy peer) c) ∨
      Consents s requested c peer := by
  by_cases hreq : Has requested peer
  · cases huse : s.inUse peer with
    | false => exact .inr (.inl ⟨hreq, rfl⟩)
    | true =>
      by_cases hpolicy : Has (s.peerPolicy peer) c
      · exact .inr (.inr (.inr ⟨hreq, huse, hpolicy⟩))
      · exact .inr (.inr (.inl ⟨hreq, rfl, hpolicy⟩))
  · exact .inl hreq

end

theorem applyPeers_frame (env : Env) (c : Nat) (requested : BitVec 32) (peers : List Nat)
    (s : State) (m : PeerMasks) :
    (applyPeers env c requested peers s m).1 =
      s.withNetwork (applyPeers env c requested peers s m).1.vswitch s.peerPolicy := by
  induction peers generalizing s m with
  | nil => rfl
  | cons peer peers ih =>
      rcases peer_cases s requested c peer with hreq | ⟨hreq, huse⟩ | ⟨hreq, huse, hpolicy⟩ | hcons
      · rw [applyPeers_skip peers m hreq]
        exact ih s m
      · rw [applyPeers_unavailable peers m hreq huse]
        exact ih s _
      · rw [applyPeers_rejected peers m hreq huse hpolicy]
        exact ih s _
      · rw [applyPeers_consents peers m hcons]
        cases (env.vswitch c peer 1).ok
        · rfl
        · exact ih { s with vswitch := setPair s.vswitch c peer true } _

/-- A pair that is open after the loop was open before, or joins `c` to a peer that
consents. -/
theorem applyPeers_vswitch {env : Env} {c : Nat} {requested : BitVec 32} {peers : List Nat}
    {s : State} {m : PeerMasks} {a b : Nat}
    (h : (applyPeers env c requested peers s m).1.vswitch a b = true) :
    s.vswitch a b = true ∨
      ∃ peer ∈ peers, ((a = c ∧ b = peer) ∨ (a = peer ∧ b = c)) ∧
        Consents s requested c peer := by
  induction peers generalizing s m with
  | nil => exact Or.inl h
  | cons peer peers ih =>
      have skip : ∀ m', (applyPeers env c requested peers s m').1.vswitch a b = true →
          s.vswitch a b = true ∨
            ∃ q ∈ peer :: peers, ((a = c ∧ b = q) ∨ (a = q ∧ b = c)) ∧
              Consents s requested c q := by
        intro m' h'
        rcases ih h' with h' | ⟨q, hq, hpair, hcons⟩
        · exact Or.inl h'
        · exact Or.inr ⟨q, List.mem_cons_of_mem peer hq, hpair, hcons⟩
      rcases peer_cases s requested c peer with hreq | ⟨hreq, huse⟩ | ⟨hreq, huse, hpolicy⟩ | hcons
      · rw [applyPeers_skip peers m hreq] at h
        exact skip m h
      · rw [applyPeers_unavailable peers m hreq huse] at h
        exact skip _ h
      · rw [applyPeers_rejected peers m hreq huse hpolicy] at h
        exact skip _ h
      · rw [applyPeers_consents peers m hcons] at h
        cases hok : (env.vswitch c peer 1).ok with
        | false =>
          rw [hok] at h
          exact Or.inl h
        | true =>
          rw [hok, if_pos rfl] at h
          -- The vSwitch has opened the pair of `c` and this peer.
          rcases ih h with h | ⟨q, hq, hpair, hq'⟩
          · rcases setPair_true_cases h with h | hpair
            · exact Or.inl h
            · exact Or.inr ⟨peer, List.mem_cons_self, hpair, hcons⟩
          · exact Or.inr ⟨q, List.mem_cons_of_mem peer hq, hpair, hq'⟩

end Monitor
end Carrels
