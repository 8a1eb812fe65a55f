/-
What a failed access control application leaves behind (`request/network.c`).

The policy is written before the loop over the peers, and the loop returns at the first
pair the vSwitch refuses to open.  What it has opened until then stays open.
-/
import Carrels.Monitor.AclReport

namespace Carrels
namespace Monitor

open BitMask

section

variable {s : State} {env : Env} {requested : BitVec 32} {c peer : Nat} {peers before : List Nat}

/-- `peer` is the first of the peers that consent whose pair the vSwitch refuses to open, and
`before` are the peers in front of it. -/
structure Refused (s : State) (env : Env) (requested : BitVec 32) (c : Nat) (before : List Nat)
    (peer : Nat) : Prop where
  consents : Consents s requested c peer
  refused : (env.vswitch c peer 1).ok = false
  accepted : ∀ q ∈ before, Consents s requested c q → (env.vswitch c q 1).ok = true

/-- How the loop ends: every pair has been opened, or one has been refused and those of the
peers in front of it are open. -/
inductive Outcome (s : State) (env : Env) (requested : BitVec 32) (c : Nat) (peers : List Nat)
    (table : Nat → Nat → Bool) : Except PcMonitorError PeerMasks → Prop
  | ok (m : PeerMasks)
      (accepted : ∀ q ∈ peers, Consents s requested c q → (env.vswitch c q 1).ok = true) :
      Outcome s env requested c peers table (.ok m)
  | refused (before : List Nat) (peer : Nat) (after : List Nat)
      (split : peers = before ++ peer :: after)
      (first : Refused s env requested c before peer)
      (opened : ∀ a b, table a b = true ↔ s.vswitch a b = true ∨ Opened s requested c before a b) :
      Outcome s env requested c peers table (.error .vswitchError)

theorem Outcome.skip {table : Nat → Nat → Bool} {r : Except PcMonitorError PeerMasks}
    (h : Outcome s env requested c peers table r) (hpeer : ¬ Consents s requested c peer) :
    Outcome s env requested c (peer :: peers) table r := by
  cases h with
  | ok m accepted =>
    refine .ok m fun q hq hcons => ?_
    rcases List.mem_cons.mp hq with rfl | hq
    · exact absurd hcons hpeer
    · exact accepted q hq hcons
  | refused before q after split first opened =>
    refine .refused (peer :: before) q after (by rw [split, List.cons_append])
      ⟨first.consents, first.refused, fun p hp hcons => ?_⟩ fun a b => ?_
    · rcases List.mem_cons.mp hp with rfl | hp
      · exact absurd hcons hpeer
      · exact first.accepted p hp hcons
    · rw [Opened.skip hpeer]
      exact opened a b

/-- The pairs of the peers, with one that consents in front. -/
theorem Opened.cons (hpeer : Consents s requested c peer) (a b : Nat) :
    Opened s requested c (peer :: peers) a b ↔
      ((a = c ∧ b = peer) ∨ (a = peer ∧ b = c)) ∨ Opened s requested c peers a b := by
  constructor
  · rintro ⟨q, hq, hcons, hpair⟩
    rcases List.mem_cons.mp hq with rfl | hq
    · exact .inl hpair
    · exact .inr ⟨q, hq, hcons, hpair⟩
  · rintro (hpair | ⟨q, hq, hcons, hpair⟩)
    · exact ⟨peer, List.mem_cons_self, hpeer, hpair⟩
    · exact ⟨q, List.mem_cons_of_mem peer hq, hcons, hpair⟩

/-- A peer in front whose pair the vSwitch has opened before the rest of the loop. -/
theorem Outcome.opens {table : Nat → Nat → Bool} {r : Except PcMonitorError PeerMasks}
    (h : Outcome { s with vswitch := setPair s.vswitch c peer true } env requested c peers table r)
    (hpeer : Consents s requested c peer) (hok : (env.vswitch c peer 1).ok = true) :
    Outcome s env requested c (peer :: peers) table r := by
  cases h with
  | ok m accepted =>
    refine .ok m fun q hq hcons => ?_
    rcases List.mem_cons.mp hq with rfl | hq
    · exact hok
    · exact accepted q hq hcons
  | refused before q after split first opened =>
    refine .refused (peer :: before) q after (by rw [split, List.cons_append])
      ⟨first.consents, first.refused, fun p hp hcons => ?_⟩ fun a b => ?_
    · rcases List.mem_cons.mp hp with rfl | hp
      · exact hok
      · exact first.accepted p hp hcons
    · rw [opened a b, Opened.cons hpeer, ← or_assoc]
      exact or_congr (setPair_true_iff s.vswitch c peer a b) Iff.rfl

end

theorem applyPeers_outcome (env : Env) (c : Nat) (requested : BitVec 32) (peers : List Nat)
    (s : State) (m : PeerMasks) :
    Outcome s env requested c peers (applyPeers env c requested peers s m).1.vswitch
      (applyPeers env c requested peers s m).2 := by
  induction peers generalizing s m with
  | nil => exact .ok m fun q hq => absurd hq List.not_mem_nil
  | cons peer peers ih =>
    rcases peer_cases s requested c peer with hreq | ⟨hreq, huse⟩ | ⟨hreq, huse, hpolicy⟩ | hcons
    · rw [applyPeers_skip peers m hreq]
      exact (ih s m).skip fun hcons => hreq hcons.1
    · rw [applyPeers_unavailable peers m hreq huse]
      apply (ih s _).skip
      intro hcons
      exact Bool.noConfusion (huse.symm.trans hcons.2.1)
    · rw [applyPeers_rejected peers m hreq huse hpolicy]
      exact (ih s _).skip fun hcons => hpolicy hcons.2.2
    · rw [applyPeers_consents peers m hcons]
      cases hok : (env.vswitch c peer 1).ok with
      | true =>
        rw [if_pos rfl]
        exact (ih _ _).opens hcons hok
      | false =>
        rw [if_neg (by decide)]
        refine .refused [] peer peers rfl ⟨hcons, hok, fun q hq => absurd hq List.not_mem_nil⟩
          fun a b => ?_
        simp [Opened]

/-! ## The application -/

/-- A failed application of the access control leaves the policies and the pair table as they
were. -/
def FailsWithoutTrace (s : State) (env : Env) (pcId : Nat) (requested : BitVec 32) : Prop :=
  ∀ e, (monitorAclApplyDeployment s env pcId requested).2 = .error e →
    (monitorAclApplyDeployment s env pcId requested).1.peerPolicy = s.peerPolicy ∧
      (monitorAclApplyDeployment s env pcId requested).1.vswitch = s.vswitch

/-- The state in which the loop of `monitor_acl_apply_deployment` starts. -/
def State.withPolicy (s : State) (pcId : Nat) (requested : BitVec 32) : State :=
  { s with peerPolicy := Function.update s.peerPolicy pcId requested }

/-- The request asks for nothing new until the vSwitch refuses: the policy is the present one,
and the pair of each peer that consents in front of the refused one is open already. -/
def NothingNewBefore (s : State) (requested : BitVec 32) (pcId peer : Nat) : Prop :=
  s.peerPolicy pcId = requested ∧
    ∀ q < peer, Consents (s.withPolicy pcId requested) requested pcId q →
      s.vswitch pcId q = true ∧ s.vswitch q pcId = true

section

variable {s : State} {env : Env} {requested : BitVec 32} {c peer peer' : Nat}

theorem Refused.unique (h : Refused s env requested c (List.range peer) peer)
    (h' : Refused s env requested c (List.range peer') peer') : peer = peer' := by
  rcases Nat.lt_trichotomy peer peer' with hlt | heq | hlt
  · have hok := h'.accepted peer (List.mem_range.mpr hlt) h.consents
    rw [h.refused] at hok
    exact Bool.noConfusion hok
  · exact heq
  · have hok := h.accepted peer' (List.mem_range.mpr hlt) h'.consents
    rw [h'.refused] at hok
    exact Bool.noConfusion hok

/-- What is in front of an element of the first `n` numbers. -/
theorem before_of_range {n : Nat} {before after : List Nat}
    (h : List.range n = before ++ peer :: after) : before = List.range peer ∧ peer < n := by
  have hlen : before.length < n := by
    have := congrArg List.length h
    rw [List.length_range, List.length_append, List.length_cons] at this
    omega
  have hget : (List.range n)[before.length]? = some peer := by
    rw [h, List.getElem?_append_right (Nat.le_refl _), Nat.sub_self]
    rfl
  have hpeer : before.length = peer := by
    rw [List.getElem?_range hlen] at hget
    exact Option.some.inj hget
  refine ⟨?_, hpeer ▸ hlen⟩
  have htake := congrArg (List.take before.length) h
  rw [List.take_range, List.take_left, Nat.min_eq_left (Nat.le_of_lt hlen)] at htake
  rw [← htake, hpeer]

/-- What the refused application has written is what was there already. -/
theorem noTrace_iff_nothingNew {table : Nat → Nat → Bool}
    (opened : ∀ a b, table a b = true ↔ (s.withPolicy c requested).vswitch a b = true ∨
      Opened (s.withPolicy c requested) requested c (List.range peer) a b) :
    ((s.withPolicy c requested).peerPolicy = s.peerPolicy ∧ table = s.vswitch) ↔
      NothingNewBefore s requested c peer := by
  constructor
  · rintro ⟨hpolicy, rfl⟩
    refine ⟨?_, fun q hq hcons => ⟨?_, ?_⟩⟩
    · rw [← hpolicy]
      exact Function.update_self c requested s.peerPolicy
    · exact (opened c q).mpr (.inr ⟨q, List.mem_range.mpr hq, hcons, .inl ⟨rfl, rfl⟩⟩)
    · exact (opened q c).mpr (.inr ⟨q, List.mem_range.mpr hq, hcons, .inr ⟨rfl, rfl⟩⟩)
  · rintro ⟨hpolicy, hopen⟩
    refine ⟨?_, ?_⟩
    · show Function.update s.peerPolicy c requested = s.peerPolicy
      rw [← hpolicy, Function.update_eq_self]
    · funext a b
      rw [Bool.eq_iff_iff, opened a b]
      constructor
      · rintro (h | ⟨q, hq, hcons, ⟨rfl, rfl⟩ | ⟨rfl, rfl⟩⟩)
        · exact h
        · exact (hopen b (List.mem_range.mp hq) hcons).1
        · exact (hopen a (List.mem_range.mp hq) hcons).2
      · exact .inl

/-- A loop over all the protocons that ends with `r` in the pair table of `s'`. -/
theorem Outcome.noTrace_iff {n : Nat} {s' : State} {r : Except PcMonitorError PeerMasks}
    (h : Outcome (s.withPolicy c requested) env requested c (List.range n) s'.vswitch r)
    (hpolicy : s'.peerPolicy = (s.withPolicy c requested).peerPolicy) :
    (∀ e, r = .error e → s'.peerPolicy = s.peerPolicy ∧ s'.vswitch = s.vswitch) ↔
      ∀ peer < n, Refused (s.withPolicy c requested) env requested c (List.range peer) peer →
        NothingNewBefore s requested c peer := by
  cases h with
  | ok m accepted =>
    refine iff_of_true (fun e he => by cases he) fun peer hpeer hrefused => ?_
    have hok := accepted peer (List.mem_range.mpr hpeer) hrefused.consents
    rw [hrefused.refused] at hok
    exact Bool.noConfusion hok
  | refused before peer after split first opened =>
    obtain ⟨rfl, hpeer⟩ := before_of_range split
    have hiff := noTrace_iff_nothingNew opened
    rw [← hpolicy] at hiff
    constructor
    · intro h peer' _ hrefused
      rw [hrefused.unique first]
      exact hiff.mp (h _ rfl)
    · intro h e _
      exact hiff.mpr (h peer hpeer first)

end

/-- A failed application of the access control leaves no trace exactly when the protocon is out
of range, or the request asked for nothing new before the first pair that the vSwitch refused. -/
theorem failsWithoutTrace_iff (s : State) (env : Env) (pcId : Nat) (requested : BitVec 32) :
    FailsWithoutTrace s env pcId requested ↔
      (pcId < s.monitoredProtoconCount → ∀ peer < s.monitoredProtoconCount,
        Refused (s.withPolicy pcId requested) env requested pcId (List.range peer) peer →
          NothingNewBefore s requested pcId peer) := by
  unfold FailsWithoutTrace monitorAclApplyDeployment
  by_cases hpc : pcId < s.monitoredProtoconCount
  · rw [if_neg (Nat.not_le.mpr hpc)]
    have hframe := applyPeers_frame env pcId requested (List.range s.monitoredProtoconCount)
      (s.withPolicy pcId requested) {}
    have houtcome := applyPeers_outcome env pcId requested (List.range s.monitoredProtoconCount)
      (s.withPolicy pcId requested) {}
    have hiff := houtcome.noTrace_iff (by rw [hframe]; rfl)
    exact ⟨fun h _ => hiff.mp h, fun h => hiff.mpr (h hpc)⟩
  · rw [if_pos (Nat.not_lt.mp hpc)]
    exact ⟨fun _ h => absurd h hpc, fun _ _ _ => ⟨rfl, rfl⟩⟩

/-- Protocons 0, 1 and 3 are active, and the first two have named protocon 3. -/
def consentingState : State :=
  { lifecycle := fun p => if p = 2 then .passive else .active
    peerPolicy := fun p => if p < 2 then 0b1000 else 0
    monitoredProtoconCount := 4 }

/-- The vSwitch refuses the pair of protocons 3 and 1. -/
def refusingEnv : Env := { vswitch := fun _ q _ => { error := if q = 1 then 1 else 0 } }

/-- The pair of protocons 3 and 0 stays open after the failure. -/
theorem not_failsWithoutTrace_refused :
    ¬ FailsWithoutTrace consentingState refusingEnv 3 0b0011 := by
  intro h
  have hopen := congrFun (congrFun (h .vswitchError rfl).2 3) 0
  exact Bool.noConfusion hopen

end Monitor
end Carrels
