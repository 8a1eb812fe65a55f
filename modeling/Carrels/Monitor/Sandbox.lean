/-
What a protocon can do to the others.

The dispatcher serves the orchestrator and the protocons alike.  The two stopping calls
replace their argument by the caller's own id on a protocon's channel; the other calls
do not look at the channel.  `ActsOnItself` lists, call by call, what the arguments, the
state and the answers from outside must be for a protocon's call to leave the others
alone, and `sandboxed_iff` says that this is exact.
-/
import Carrels.Monitor.Actions

namespace Carrels
namespace Monitor

open StepSystem Relation

/-- Protocon `i` acted on itself only: the lifecycle and the thread of the others are as
before, no deployment was started, and no pair of two others changed. -/
structure Sandboxed (P : Platform) (s s' : State) (i : Nat) : Prop where
  lifecycle : ∀ j < P.numPc, j ≠ i → s'.lifecycle j = s.lifecycle j
  stopped : ∀ j < P.numPc, j ≠ i → (s'.threads j = .stopped ↔ s.threads j = .stopped)
  deploy : s'.spawned = s.spawned
  pair : ∀ a b, a < P.numPc → b < P.numPc → a ≠ b → a ≠ i → b ≠ i →
    s'.vswitch a b = s.vswitch a b

/-- The call would put the pair of two other protocons into a new state, and the vSwitch
lets it. -/
def ChangesOtherPair (P : Platform) (s : State) (i p q v : Nat) (env : Env) : Prop :=
  p < P.numPc ∧ q < P.numPc ∧ p ≠ q ∧ p ≠ i ∧ q ≠ i ∧ (env.vswitch p q v).ok = true ∧
    ¬ (s.vswitch p q = decide (v ≠ 0) ∧ s.vswitch q p = decide (v ≠ 0))

/-- The condition under which a call of protocon `i` leaves the others alone. -/
def ActsOnItself (P : Platform) (s : State) (i : Nat) (msg : Message) (env : Env) : Prop :=
  match CallId.ofNumber (msg.get 0) with
  | some .deploy => ¬ (AcceptsDeploy P s (msg.get 1) ∧ env.spawnOk = true)
  | some .deployToProtocon =>
    ¬ ((∃ mask, AcceptsTargeted P s (msg.get 1) (msg.get 2) (msg.get 3) mask) ∧
      env.spawnOk = true)
  | some .suspend =>
    ((msg.get 1).truncate 32).toNat < P.numPc → ((msg.get 1).truncate 32).toNat ≠ i →
      s.lifecycle ((msg.get 1).truncate 32).toNat ≠ .active
  | some .resume =>
    ((msg.get 1).truncate 32).toNat < P.numPc → ((msg.get 1).truncate 32).toNat ≠ i →
      s.lifecycle ((msg.get 1).truncate 32).toNat ≠ .suspended
  | some .setVswitchAcl =>
    ¬ ChangesOtherPair P s i (msg.get 1).toNat (msg.get 2).toNat (msg.get 3).toNat env
  | _ => True

section

variable {P : Platform} {env : Env} {s s' : State} {i : Nat}

theorem Sandboxed.same (hlife : s'.lifecycle = s.lifecycle) (hthreads : s'.threads = s.threads)
    (hspawned : s'.spawned = s.spawned) (hv : s'.vswitch = s.vswitch) : Sandboxed P s s' i where
  lifecycle j _ _ := congrFun hlife j
  stopped j _ _ := by rw [hthreads]
  deploy := hspawned
  pair a b _ _ _ _ _ := by rw [hv]

theorem Sandboxed.refl (P : Platform) (s : State) (i : Nat) : Sandboxed P s s i :=
  .same rfl rfl rfl rfl

theorem Sandboxed.own {l : Lifecycle} {t : ThreadState}
    (hlife : s'.lifecycle = Function.update s.lifecycle i l)
    (hthreads : s'.threads = Function.update s.threads i t) (hspawned : s'.spawned = s.spawned)
    (hpair : ∀ a b, a ≠ i → b ≠ i → s'.vswitch a b = s.vswitch a b) : Sandboxed P s s' i where
  lifecycle j _ hj := by rw [hlife, Function.update_of_ne hj]
  stopped j _ hj := by rw [hthreads, Function.update_of_ne hj]
  deploy := hspawned
  pair a b _ _ _ ha hb := hpair a b ha hb

/-- A change of the state of protocon `c`, from another state, is allowed to `c` only. -/
theorem Sandboxed.iff_own {c : Nat} {l : Lifecycle} {t : ThreadState} (hl : s.lifecycle c ≠ l)
    (hlife : s'.lifecycle = Function.update s.lifecycle c l)
    (hthreads : s'.threads = Function.update s.threads c t) (hspawned : s'.spawned = s.spawned)
    (hv : s'.vswitch = s.vswitch) : Sandboxed P s s' i ↔ ¬ (c < P.numPc ∧ c ≠ i) := by
  constructor
  · rintro h ⟨hc, hci⟩
    have hsame := h.lifecycle c hc hci
    rw [hlife, Function.update_self] at hsame
    exact hl hsame.symm
  · intro hc
    have hne : ∀ {j}, j < P.numPc → j ≠ i → j ≠ c := fun hj hji hjc =>
      hc ⟨hjc ▸ hj, hjc ▸ hji⟩
    exact
      { lifecycle := fun j hj hji => by rw [hlife, Function.update_of_ne (hne hj hji)]
        stopped := fun j hj hji => by rw [hthreads, Function.update_of_ne (hne hj hji)]
        deploy := hspawned
        pair := fun a b _ _ _ _ _ => by rw [hv] }

theorem not_sandboxed_of_spawn {t : State} (ht : t.spawned = s.spawned)
    (h : ReflTransGen (Work P env) t.spawn s') : ¬ Sandboxed P s s' i := by
  intro hbox
  have heq := spawned_eq_of_work h
  have hspawn : t.spawn.spawned = t.spawned + 1 := rfl
  have hsame := hbox.deploy
  omega

theorem monitorCallSetVswitchAcl_sandboxed {p q v : Nat} :
    Sandboxed P s (monitorCallSetVswitchAcl s env p q v).1 i ↔
      ¬ ChangesOtherPair P s i p q v env := by
  have hv := monitorCallSetVswitchAcl_vswitch s env p q v
  rw [monitorCallSetVswitchAcl_frame, hv]
  constructor
  · rintro hbox ⟨hp, hq, hpq, hpi, hqi, hok, hsame⟩
    rw [if_pos hok] at hbox
    have h₁ := hbox.pair p q hp hq hpq hpi hqi
    have h₂ := hbox.pair q p hq hp hpq.symm hqi hpi
    simp only [State.withNetwork, setPair, and_self, true_or, or_true, if_true] at h₁ h₂
    exact hsame ⟨h₁.symm, h₂.symm⟩
  · intro hno
    refine ⟨fun _ _ _ => rfl, fun _ _ _ => Iff.rfl, rfl, fun a b ha hb hab hai hbi => ?_⟩
    simp only [State.withNetwork]
    split
    next hok =>
      unfold setPair
      split
      next hpair =>
        have hsame := Classical.not_not.mp fun hsame =>
          hno ⟨by omega, by omega, by omega, by omega, by omega, hok, hsame⟩
        rcases hpair with ⟨rfl, rfl⟩ | ⟨rfl, rfl⟩
        · exact hsame.1.symm
        · exact hsame.2.symm
      next => rfl
    next => rfl

theorem State.stopAndRestored_sandboxed : Sandboxed P s (s.stopAndRestored env i) i := by
  refine .own (l := .passive) (t := .stopped) ?_ ?_ ?_ fun a b ha hb => ?_
  · rw [State.stopAndRestored, monitorAclReleaseProtocon_frame]
    rfl
  · rw [State.stopAndRestored, monitorAclReleaseProtocon_frame]
    rfl
  · rw [State.stopAndRestored, monitorAclReleaseProtocon_frame]
    rfl
  · exact monitorAclReleaseProtocon_vswitch_of_ne s env ha hb

theorem stopTarget_sandboxed (msg : Message) {m : Message} {c : BitVec 32} (hi : i < P.numPc)
    (hmsg : stopTarget (protoconBaseChannel + BitVec.ofNat 32 i) msg = some c)
    (h : monitorCallStopAndRestoreProtocon P env s c = some (s', m)) : Sandboxed P s s' i := by
  have hc := stopTarget_of_protocon (Nat.lt_of_lt_of_le hi P.numPc_le) hmsg
  rcases monitorCallStopAndRestoreProtocon_cases h with ⟨-, rfl, -⟩ | ⟨-, -, rfl, -⟩
  · exact .refl P _ i
  · rw [hc]
    exact State.stopAndRestored_sandboxed

end

/-- For every call on the channel of protocon `i`, in any state: the call leaves the other
protocons alone if and only if `ActsOnItself` holds of it. -/
theorem sandboxed_iff {P : Platform} {s s' : State} {i : Nat} {msg : Message} {env : Env}
    (hi : i < P.numPc)
    (h : step P s (.call (protoconBaseChannel + BitVec.ofNat 32 i) msg env) = some s') :
    Sandboxed P s s' i ↔ ActsOnItself P s i msg env := by
  have hbox : ∀ {t}, t = s → Sandboxed P s t i := fun ht => ht ▸ .refl P s i
  simp only [step] at h
  split at h
  next =>
    obtain ⟨⟨t, m⟩, hcall, rfl⟩ := Option.map_eq_some_iff.mp h
    unfold monitorMainHandlePccall at hcall
    split at hcall
    next hid =>
      simp only [ActsOnItself, hid]
      rcases monitorCallDeployFirstHalf_cases hcall with
        ⟨hno, rfl⟩ | ⟨-, hok, rfl⟩ | ⟨hacc, hok, hacts⟩
      · exact iff_of_true (.refl P _ i) fun hacc => hno hacc.1
      · exact iff_of_true (.same rfl rfl rfl rfl) fun hacc => absurd (hok.symm.trans hacc.2) (by simp)
      · exact iff_of_false (not_sandboxed_of_spawn (by rfl) hacts) fun hno => hno ⟨hacc, hok⟩
    next hid =>
      simp only [ActsOnItself, hid]
      rcases monitorCallDeployToProtocon_cases hcall with
        ⟨hno, rfl, -⟩ | ⟨mask, hacc, ⟨hok, -, rfl⟩ | ⟨hok, -, hacts⟩⟩
      · exact iff_of_true (.refl P _ i) fun hacc => hacc.1.elim hno
      · exact iff_of_true (.same rfl rfl rfl rfl) fun hacc => absurd (hok.symm.trans hacc.2) (by simp)
      · exact iff_of_false (not_sandboxed_of_spawn (by rfl) hacts)
          fun hno => hno ⟨⟨mask, hacc⟩, hok⟩
    next hid =>
      simp only [ActsOnItself, hid, iff_true]
      have hs : (monitorCallDeployResult s).1 = s := by
        unfold monitorCallDeployResult
        split <;> rfl
      rw [Option.some.inj hcall] at hs
      exact hbox hs
    next hid =>
      simp only [ActsOnItself, hid, iff_true]
      rw [← (Prod.mk.inj (Option.some.inj hcall)).1]
      exact .same rfl rfl rfl rfl
    next hid =>
      simp only [ActsOnItself, hid]
      rw [← monitorCallSetVswitchAcl_sandboxed, Option.some.inj hcall]
    next hid =>
      simp only [ActsOnItself, hid, iff_true]
      unfold monitorCallBackupProtoconLoadingContext at hcall
      split at hcall
      · exact absurd hcall (by simp)
      · exact hbox (Prod.mk.inj (Option.some.inj hcall)).1.symm
    next hid =>
      simp only [ActsOnItself, hid, iff_true]
      exact stopTarget_sandboxed msg hi (by simp [stopTarget, hid]) hcall
    next hid =>
      simp only [ActsOnItself, hid]
      rcases monitorCallSuspendProtocon_cases hcall with
        ⟨hge, rfl, -⟩ | ⟨-, -, ⟨hs, rfl⟩ | ⟨hs, -, rfl⟩⟩
      · have := P.numPc_le
        exact iff_of_true (.refl P _ i) fun hlt => absurd hlt (by omega)
      · exact iff_of_true (.same rfl rfl rfl rfl) fun _ _ => hs
      · have hiff : Sandboxed P s (s.suspended ((msg.get 1).truncate 32).toNat) i ↔ _ :=
          Sandboxed.iff_own (by rw [hs]; decide) rfl rfl rfl rfl
        rw [hiff]
        exact ⟨fun hno hlt hne => absurd ⟨hlt, hne⟩ hno, fun hno hc => hno hc.1 hc.2 hs⟩
    next hid =>
      simp only [ActsOnItself, hid]
      rcases monitorCallResumeProtocon_cases hcall with
        ⟨hge, rfl, -⟩ | ⟨-, -, ⟨hs, rfl⟩ | ⟨hs, -, rfl⟩⟩
      · have := P.numPc_le
        exact iff_of_true (.refl P _ i) fun hlt => absurd hlt (by omega)
      · exact iff_of_true (.same rfl rfl rfl rfl) fun _ _ => hs
      · have hiff : Sandboxed P s (s.resumed ((msg.get 1).truncate 32).toNat) i ↔ _ :=
          Sandboxed.iff_own (by rw [hs]; decide) rfl rfl rfl rfl
        rw [hiff]
        exact ⟨fun hno hlt hne => absurd ⟨hlt, hne⟩ hno, fun hno hc => hno hc.1 hc.2 hs⟩
    next hid =>
      simp only [ActsOnItself, hid, iff_true]
      exact hbox (Prod.mk.inj (Option.some.inj hcall)).1.symm
    next hid =>
      simp only [ActsOnItself, hid, iff_true]
      exact hbox (Prod.mk.inj (Option.some.inj hcall)).1.symm
    next hid =>
      simp only [ActsOnItself, hid, iff_true]
      exact stopTarget_sandboxed msg hi (by simp [stopTarget, hid]) hcall
    next hid =>
      simp only [ActsOnItself, hid, iff_true]
      exact hbox (Prod.mk.inj (Option.some.inj hcall)).1.symm
  next => exact absurd h (by simp)

/-- Protocon 0 runs. -/
def startedRun : List Event := [writePayloadOf [], orchestratorCall .deploy [1] {}]

def startedState : State :=
  (run (step (smallPlatform 2)) (caMonitorInitStates (smallPlatform 2)) startedRun).get
    (by decide +kernel)

/-- A message that asks to suspend protocon 0. -/
def suspendZero : Message := { mr := [CallId.suspend.number, 0] }

def suspendEvent (i : Nat) : Event :=
  .call (protoconBaseChannel + BitVec.ofNat 32 i) suspendZero {}

/-- The state after protocon `i` has asked for it. -/
def afterSuspend (i : Fin 2) : State :=
  (step (smallPlatform 2) startedState (suspendEvent i)).get (by revert i; decide +kernel)

theorem step_suspendEvent (i : Fin 2) :
    step (smallPlatform 2) startedState (suspendEvent i) = some (afterSuspend i) :=
  (Option.some_get _).symm

/-- Protocon 0 may suspend itself. -/
theorem sandboxed_iff_suspendZero :
    (Sandboxed (smallPlatform 2) startedState (afterSuspend 0) 0 ↔
      ActsOnItself (smallPlatform 2) startedState 0 suspendZero {}) ∧
    ActsOnItself (smallPlatform 2) startedState 0 suspendZero {} :=
  ⟨sandboxed_iff (P := smallPlatform 2) (i := 0) (by decide) (step_suspendEvent 0),
    fun _ hne => absurd rfl hne⟩

/-- Protocon 1 suspends protocon 0. -/
theorem not_sandboxed :
    ¬ ∀ (P : Platform) (s s' : State) (i : Nat) (msg : Message) (env : Env),
      Reaches (step P) anyEvent (caMonitorInitStates P) s → i < P.numPc →
      step P s (.call (protoconBaseChannel + BitVec.ofNat 32 i) msg env) = some s' →
      Sandboxed P s s' i := by
  intro h
  have hbox := h (smallPlatform 2) startedState (afterSuspend 1) 1 suspendZero {}
    (reaches_of_run (runMeets_anyEvent _ _ startedRun) (Option.some_get _).symm) (by decide)
    (step_suspendEvent 1)
  have hlife := hbox.lifecycle 0 (by decide) (by decide)
  exact absurd hlife (by decide +kernel)

end Monitor
end Carrels
