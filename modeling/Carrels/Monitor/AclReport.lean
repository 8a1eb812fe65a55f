/-
What applying the access control of a deployment reports (`request/network.c`).

The loop sorts each requested peer into one of three masks and opens the pair of each
connected one.  The lemmas about the loop are for any list of peers; each of the three masks
grows by the peers of its class.
-/
import Carrels.Monitor.Step

namespace Carrels
namespace Monitor

open BitMask

/-! ## Classes of peers -/

section

variable (s : State) (requested : BitVec 32) (c peer : Nat)

/-- A requested peer that is neither active nor suspended. -/
def Unavailable : Prop := Has requested peer ∧ s.inUse peer = false

/-- A requested peer in use whose policy does not name `c`. -/
def Rejects : Prop := Has requested peer ∧ s.inUse peer = true ∧ ¬ Has (s.peerPolicy peer) c

end

/-- The addition of a class to a mask. -/
def Adds (before after : BitVec 32) (peers : List Nat) (Class : Nat → Prop) : Prop :=
  ∀ i, Has after i ↔ Has before i ∨ i ∈ peers ∧ Class i

section

variable {before after : BitVec 32} {peer : Nat} {peers : List Nat} {Class : Nat → Prop}

theorem Adds.nil (m : BitVec 32) (Class : Nat → Prop) : Adds m m [] Class :=
  fun i => by simp

theorem Adds.skip (h : Adds before after peers Class) (hpeer : ¬ Class peer) :
    Adds before after (peer :: peers) Class := by
  intro i
  rw [h i, List.mem_cons]
  constructor
  · rintro (hi | ⟨hi, hclass⟩)
    · exact .inl hi
    · exact .inr ⟨.inr hi, hclass⟩
  · rintro (hi | ⟨rfl | hi, hclass⟩)
    · exact .inl hi
    · exact absurd hclass hpeer
    · exact .inr ⟨hi, hclass⟩

/-- A peer of the class, whose bit has been set. -/
theorem Adds.add (hlt : peer < 32) (h : Adds (before ||| 1#32 <<< peer) after peers Class)
    (hpeer : Class peer) : Adds before after (peer :: peers) Class := by
  intro i
  rw [h i, has_or_bit hlt, List.mem_cons]
  constructor
  · rintro ((hi | rfl) | ⟨hi, hclass⟩)
    · exact .inl hi
    · exact .inr ⟨.inl rfl, hpeer⟩
    · exact .inr ⟨.inr hi, hclass⟩
  · rintro (hi | ⟨rfl | hi, hclass⟩)
    · exact .inl (.inl hi)
    · exact .inl (.inr rfl)
    · exact .inr ⟨hi, hclass⟩

end

/-! ## The loop -/

/-- The pair of `c` and one of the peers that consent. -/
def Opened (s : State) (requested : BitVec 32) (c : Nat) (peers : List Nat) (a b : Nat) : Prop :=
  ∃ peer ∈ peers, Consents s requested c peer ∧ ((a = c ∧ b = peer) ∨ (a = peer ∧ b = c))

/-- What the loop has done when it returns without an error. -/
structure Applied (s : State) (requested : BitVec 32) (c : Nat) (peers : List Nat) (m : PeerMasks)
    (s' : State) (m' : PeerMasks) : Prop where
  unavailable : Adds m.unavailable m'.unavailable peers (Unavailable s requested)
  rejected : Adds m.rejected m'.rejected peers (Rejects s requested c)
  connected : Adds m.connected m'.connected peers (Consents s requested c)
  vswitch : ∀ a b, s'.vswitch a b = true ↔ s.vswitch a b = true ∨ Opened s requested c peers a b

section

variable {s : State} {requested : BitVec 32} {c peer : Nat} {peers : List Nat} {m m' : PeerMasks}
  {s' : State}

theorem Opened.skip (h : ¬ Consents s requested c peer) (a b : Nat) :
    Opened s requested c (peer :: peers) a b ↔ Opened s requested c peers a b := by
  unfold Opened
  constructor
  · rintro ⟨q, hq, hcons, hpair⟩
    rcases List.mem_cons.mp hq with rfl | hq
    · exact absurd hcons h
    · exact ⟨q, hq, hcons, hpair⟩
  · rintro ⟨q, hq, hcons, hpair⟩
    exact ⟨q, List.mem_cons_of_mem peer hq, hcons, hpair⟩

theorem Applied.skip (h : Applied s requested c peers m s' m')
    (hreq : ¬ Has requested peer) : Applied s requested c (peer :: peers) m s' m' :=
  ⟨h.unavailable.skip fun hc => hreq hc.1, h.rejected.skip fun hc => hreq hc.1,
    h.connected.skip fun hc => hreq hc.1, fun a b => by
      rw [Opened.skip fun hc => hreq hc.1]
      exact h.vswitch a b⟩

theorem Applied.unavailable_cons
    (h : Applied s requested c peers { m with unavailable := m.unavailable ||| 1#32 <<< peer } s' m')
    (hreq : Has requested peer) (huse : s.inUse peer = false) :
    Applied s requested c (peer :: peers) m s' m' := by
  have hnot : ¬ s.inUse peer = true := by rw [huse]; decide
  refine ⟨.add (BitVec.lt_of_getLsbD hreq) h.unavailable ⟨hreq, huse⟩,
    h.rejected.skip fun hc => hnot hc.2.1, h.connected.skip fun hc => hnot hc.2.1, fun a b => ?_⟩
  rw [Opened.skip fun hc => hnot hc.2.1]
  exact h.vswitch a b

theorem Applied.rejected_cons
    (h : Applied s requested c peers { m with rejected := m.rejected ||| 1#32 <<< peer } s' m')
    (hreq : Has requested peer) (huse : s.inUse peer = true)
    (hpolicy : ¬ Has (s.peerPolicy peer) c) :
    Applied s requested c (peer :: peers) m s' m' := by
  have hnot : ¬ s.inUse peer = false := by rw [huse]; decide
  refine ⟨h.unavailable.skip fun hc => hnot hc.2, .add (BitVec.lt_of_getLsbD hreq) h.rejected
    ⟨hreq, huse, hpolicy⟩, h.connected.skip fun hc => hpolicy hc.2.2, fun a b => ?_⟩
  rw [Opened.skip fun hc => hpolicy hc.2.2]
  exact h.vswitch a b

/-- A connected peer: the vSwitch has opened the pair before the rest of the loop. -/
theorem Applied.connected_cons
    (h : Applied { s with vswitch := setPair s.vswitch c peer true } requested c peers
      { m with connected := m.connected ||| 1#32 <<< peer } s' m')
    (hcons : Consents s requested c peer) : Applied s requested c (peer :: peers) m s' m' := by
  obtain ⟨hreq, huse, hpolicy⟩ := hcons
  have hnot : ¬ s.inUse peer = false := by rw [huse]; decide
  refine ⟨Adds.skip h.unavailable fun hc => hnot hc.2, Adds.skip h.rejected fun hc =>
    hc.2.2 hpolicy, .add (BitVec.lt_of_getLsbD hreq) h.connected ⟨hreq, huse, hpolicy⟩,
    fun a b => ?_⟩
  rw [h.vswitch a b]
  show setPair s.vswitch c peer true a b = true ∨ Opened s requested c peers a b ↔ _
  rw [setPair_true_iff]
  constructor
  · rintro ((hopen | hpair) | ⟨q, hq, hcons, hpair⟩)
    · exact .inl hopen
    · exact .inr ⟨peer, List.mem_cons_self, ⟨hreq, huse, hpolicy⟩, hpair⟩
    · exact .inr ⟨q, List.mem_cons_of_mem peer hq, hcons, hpair⟩
  · rintro (hopen | ⟨q, hq, hcons, hpair⟩)
    · exact .inl (.inl hopen)
    · rcases List.mem_cons.mp hq with rfl | hq
      · exact .inl (.inr hpair)
      · exact .inr ⟨q, hq, hcons, hpair⟩

end

theorem applyPeers_applied {env : Env} {c : Nat} {requested : BitVec 32} {peers : List Nat}
    {s : State} {m m' : PeerMasks} (h : (applyPeers env c requested peers s m).2 = .ok m') :
    Applied s requested c peers m (applyPeers env c requested peers s m).1 m' := by
  induction peers generalizing s m with
  | nil =>
    obtain rfl := Except.ok.inj h
    exact ⟨.nil _ _, .nil _ _, .nil _ _, fun a b => by simp [applyPeers, Opened]⟩
  | cons peer peers ih =>
    rcases peer_cases s requested c peer with hreq | ⟨hreq, huse⟩ | ⟨hreq, huse, hpolicy⟩ | hcons
    · rw [applyPeers_skip peers m hreq] at h ⊢
      exact (ih h).skip hreq
    · rw [applyPeers_unavailable peers m hreq huse] at h ⊢
      exact (ih h).unavailable_cons hreq huse
    · rw [applyPeers_rejected peers m hreq huse hpolicy] at h ⊢
      exact (ih h).rejected_cons hreq huse hpolicy
    · rw [applyPeers_consents peers m hcons] at h ⊢
      cases hok : (env.vswitch c peer 1).ok with
      | true =>
        rw [hok, if_pos rfl] at h
        rw [if_pos rfl]
        exact (ih h).connected_cons hcons
      | false =>
        rw [hok, if_neg (by decide)] at h
        cases h

/-! ## The report -/

/-- The masks describe what applying the access control has done to the state. -/
structure Reports (s : State) (pcId : Nat) (requested : BitVec 32) (s' : State) (m : PeerMasks) :
    Prop where
  connected_rejected : m.connected &&& m.rejected = 0
  connected_unavailable : m.connected &&& m.unavailable = 0
  rejected_unavailable : m.rejected &&& m.unavailable = 0
  union : m.connected ||| m.rejected ||| m.unavailable = requested
  unavailable : ∀ peer, Has m.unavailable peer ↔ Has requested peer ∧
    s.lifecycle peer ≠ .active ∧ s.lifecycle peer ≠ .suspended
  connected : ∀ peer, Has m.connected peer ↔ Has requested peer ∧
    (s.lifecycle peer = .active ∨ s.lifecycle peer = .suspended) ∧ Has (s.peerPolicy peer) pcId
  /-- The pairs that are open now are the ones that were and the connected ones. -/
  opened : ∀ a b, s'.vswitch a b = true ↔ s.vswitch a b = true ∨
    (a = pcId ∧ Has m.connected b) ∨ (Has m.connected a ∧ b = pcId)
  policy : s'.peerPolicy = Function.update s.peerPolicy pcId requested
  lifecycle : s'.lifecycle = s.lifecycle

theorem and_eq_zero_of_has {m m' : BitVec 32} (h : ∀ i, Has m i → ¬ Has m' i) : m &&& m' = 0 := by
  refine eq_of_has fun i => ?_
  rw [has_and]
  exact iff_of_false (fun hi => h i hi.1 hi.2) (not_has_zero i)

/-- The masks are the three classes of the requested peers. -/
structure Classified (s : State) (requested : BitVec 32) (c : Nat) (m : PeerMasks) : Prop where
  unavailable : ∀ i, Has m.unavailable i ↔ Unavailable s requested i
  rejected : ∀ i, Has m.rejected i ↔ Rejects s requested c i
  connected : ∀ i, Has m.connected i ↔ Consents s requested c i

section

variable {s : State} {requested : BitVec 32} {c : Nat} {m : PeerMasks}

theorem Classified.connected_rejected (h : Classified s requested c m) :
    m.connected &&& m.rejected = 0 := by
  refine and_eq_zero_of_has fun i hc hr => ?_
  exact ((h.rejected i).mp hr).2.2 ((h.connected i).mp hc).2.2

theorem Classified.connected_unavailable (h : Classified s requested c m) :
    m.connected &&& m.unavailable = 0 := by
  refine and_eq_zero_of_has fun i hc hu => ?_
  have huse := ((h.connected i).mp hc).2.1
  rw [((h.unavailable i).mp hu).2] at huse
  exact Bool.noConfusion huse

theorem Classified.rejected_unavailable (h : Classified s requested c m) :
    m.rejected &&& m.unavailable = 0 := by
  refine and_eq_zero_of_has fun i hr hu => ?_
  have huse := ((h.rejected i).mp hr).2.1
  rw [((h.unavailable i).mp hu).2] at huse
  exact Bool.noConfusion huse

/-- Every requested peer is in one of the classes. -/
theorem Classified.union (h : Classified s requested c m) :
    m.connected ||| m.rejected ||| m.unavailable = requested := by
  refine eq_of_has fun i => ?_
  rw [has_or, has_or, h.connected i, h.rejected i, h.unavailable i]
  constructor
  · rintro ((hi | hi) | hi)
    · exact hi.1
    · exact hi.1
    · exact hi.1
  · intro hreq
    cases huse : s.inUse i with
    | false => exact .inr ⟨hreq, huse⟩
    | true =>
      by_cases hnamed : Has (s.peerPolicy i) c
      · exact .inl (.inl ⟨hreq, huse, hnamed⟩)
      · exact .inl (.inr ⟨hreq, huse, hnamed⟩)

/-- A class of requested peers that the loop over all protocons has added to no mask. -/
theorem Adds.of_range {n : Nat} {after : BitVec 32} {Class : Nat → Prop}
    (h : Adds 0 after (List.range n) Class) (hclass : ∀ i, Class i → i < n) (i : Nat) :
    Has after i ↔ Class i := by
  have hzero : ¬ Has (0 : BitVec 32) i := not_has_zero i
  rw [h i, or_iff_right hzero, List.mem_range]
  exact ⟨fun hi => hi.2, fun hi => ⟨hclass i hi, hi⟩⟩

theorem Applied.classified {n : Nat} {s' : State}
    (h : Applied s requested c (List.range n) {} s' m) (hrange : ∀ i, Has requested i → i < n) :
    Classified s requested c m where
  unavailable := h.unavailable.of_range fun i hi => hrange i hi.1
  rejected := h.rejected.of_range fun i hi => hrange i hi.1
  connected := h.connected.of_range fun i hi => hrange i hi.1

/-- The policy written before the loop is the one of `c`, which is not a requested peer. -/
theorem Classified.of_update {policy : BitVec 32} (hself : ¬ Has requested c)
    (h : Classified { s with peerPolicy := Function.update s.peerPolicy c policy } requested c m) :
    Classified s requested c m := by
  have hpolicy : ∀ i, Has requested i → Function.update s.peerPolicy c policy i = s.peerPolicy i := by
    intro i hreq
    refine Function.update_of_ne (fun heq => hself ?_) _ _
    rwa [heq] at hreq
  refine ⟨h.unavailable, fun i => ?_, fun i => ?_⟩
  · rw [h.rejected i]
    refine and_congr_right fun hreq => and_congr_right fun _ => ?_
    show ¬ Has (Function.update s.peerPolicy c policy i) c ↔ _
    rw [hpolicy i hreq]
  · rw [h.connected i]
    refine and_congr_right fun hreq => and_congr_right fun _ => ?_
    show Has (Function.update s.peerPolicy c policy i) c ↔ _
    rw [hpolicy i hreq]

/-- The pairs of the peers that consent, by the mask of the connected ones. -/
theorem opened_iff {n : Nat} (hclass : ∀ i, Has m.connected i ↔ Consents s requested c i)
    (hrange : ∀ i, Has requested i → i < n) (a b : Nat) :
    Opened s requested c (List.range n) a b ↔
      (a = c ∧ Has m.connected b) ∨ (Has m.connected a ∧ b = c) := by
  constructor
  · rintro ⟨peer, -, hcons, ⟨rfl, rfl⟩ | ⟨rfl, rfl⟩⟩
    · exact .inl ⟨rfl, (hclass b).mpr hcons⟩
    · exact .inr ⟨(hclass a).mpr hcons, rfl⟩
  · rintro (⟨rfl, hb⟩ | ⟨ha, rfl⟩)
    · have hcons := (hclass b).mp hb
      exact ⟨b, List.mem_range.mpr (hrange b hcons.1), hcons, .inl ⟨rfl, rfl⟩⟩
    · have hcons := (hclass a).mp ha
      exact ⟨a, List.mem_range.mpr (hrange a hcons.1), hcons, .inr ⟨rfl, rfl⟩⟩

end

/-- When the access control of a deployment has been applied without an error, its masks say
exactly what has been done. -/
theorem appliedDeploymentReports {s : State} {env : Env} {pcId : Nat} {requested : BitVec 32}
    {m : PeerMasks} (hpc : pcId < s.monitoredProtoconCount)
    (hrange : ∀ peer, Has requested peer → peer < s.monitoredProtoconCount)
    (hself : ¬ Has requested pcId)
    (h : (monitorAclApplyDeployment s env pcId requested).2 = .ok m) :
    Reports s pcId requested (monitorAclApplyDeployment s env pcId requested).1 m := by
  unfold monitorAclApplyDeployment at h ⊢
  rw [if_neg (Nat.not_le.mpr hpc)] at h ⊢
  have hframe := applyPeers_frame env pcId requested (List.range s.monitoredProtoconCount)
    { s with peerPolicy := Function.update s.peerPolicy pcId requested } {}
  have happlied := applyPeers_applied h
  have hwritten := happlied.classified hrange
  have hclass : Classified s requested pcId m := hwritten.of_update hself
  refine ⟨hclass.connected_rejected, hclass.connected_unavailable, hclass.rejected_unavailable,
    hclass.union, fun peer => ?_, fun peer => ?_, fun a b => ?_, ?_, ?_⟩
  · rw [hclass.unavailable peer]
    exact and_congr_right fun _ => State.inUse_eq_false_iff
  · rw [hclass.connected peer]
    exact and_congr_right fun _ => and_congr_left fun _ => State.inUse_iff
  · rw [happlied.vswitch a b]
    exact or_congr_right (opened_iff hwritten.connected hrange a b)
  · rw [hframe]
    rfl
  · rw [hframe]
    rfl

/-! ## Three peers -/

/-- Protocons 0 and 1 are active and protocon 0 has named protocon 3. -/
def namedState : State :=
  { lifecycle := fun p => if p < 2 then .active else .passive
    peerPolicy := fun p => if p = 0 then 0b1000 else 0
    monitoredProtoconCount := 4 }

theorem appliedDeploymentReports_named :
    Reports namedState 3 0b0111 (monitorAclApplyDeployment namedState {} 3 0b0111).1
      { connected := 0b0001, rejected := 0b0010, unavailable := 0b0100 } := by
  have hrange : ∀ peer < 32, Has (0b0111 : BitVec 32) peer → peer < 4 := by decide
  exact appliedDeploymentReports (by decide)
    (fun peer h => hrange peer (BitVec.lt_of_getLsbD h) h) (by decide) rfl

end Monitor
end Carrels
