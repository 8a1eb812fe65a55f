/-
What a step does to the result of a targeted deployment.

The orchestrator follows a targeted deployment through `deploy_result` and one
notification that many things send.  A step that is no targeted deploy call leaves the
result as it is, or concludes the targeted deployment that is under way: the result is
ready, names the target, and a notification is outstanding.
-/
import Carrels.Monitor.SingleDeploy

namespace Carrels
namespace Monitor

open StepSystem Relation

/-- A targeted deployment is under way. -/
def State.Deploying (s : State) : Prop :=
  s.deployRequestActive = true ∧ s.deployRequest.targeted = true

/-- The result and the targeted deployment are as before, and no notification is lost. -/
structure SameResult (s s' : State) : Prop where
  serial : s'.resultSerial = s.resultSerial
  result : s'.deployResult = s.deployResult
  deploying : s'.Deploying ↔ s.Deploying
  request : s.Deploying → s'.deployRequest = s.deployRequest
  notified : s.notified = true → s'.notified = true

/-- The targeted deployment has ended and left its result. -/
structure Concluded (s s' : State) : Prop where
  deploying : s.Deploying
  ended : ¬ s'.Deploying
  serial : s'.resultSerial = s.resultSerial
  ready : s'.deployResult.ready = true
  target : s'.deployResult.targetPc = s.deployRequest.targetPc
  error : s'.deployResult.error ≠ .deployInProgress
  notified : s'.notified = true

/-- The result is as before, or the targeted deployment has been concluded. -/
inductive Advance (s s' : State) : Prop
  | same (h : SameResult s s')
  | concluded (h : Concluded s s')

theorem SameResult.refl (s : State) : SameResult s s := ⟨rfl, rfl, Iff.rfl, fun _ => rfl, id⟩

theorem SameResult.trans {s t u : State} (h₁ : SameResult s t) (h₂ : SameResult t u) :
    SameResult s u where
  serial := h₂.serial.trans h₁.serial
  result := h₂.result.trans h₁.result
  deploying := h₂.deploying.trans h₁.deploying
  request hs := (h₂.request (h₁.deploying.mpr hs)).trans (h₁.request hs)
  notified hs := h₂.notified (h₁.notified hs)

theorem Advance.trans {s t u : State} (h₁ : Advance s t) (h₂ : Advance t u) : Advance s u := by
  cases h₁ with
  | same h₁ =>
    cases h₂ with
    | same h₂ => exact .same (h₁.trans h₂)
    | concluded h₂ =>
      have hs := h₁.deploying.mp h₂.deploying
      exact .concluded ⟨hs, h₂.ended, h₂.serial.trans h₁.serial, h₂.ready,
        h₂.target.trans (congrArg MonitorDeployRequest.targetPc (h₁.request hs)), h₂.error,
        h₂.notified⟩
  | concluded h₁ =>
    cases h₂ with
    | same h₂ =>
      refine .concluded ⟨h₁.deploying, fun hu => h₁.ended (h₂.deploying.mp hu),
        h₂.serial.trans h₁.serial, ?_, ?_, ?_, h₂.notified h₁.notified⟩
      · rw [h₂.result]
        exact h₁.ready
      · rw [h₂.result]
        exact h₁.target
      · rw [h₂.result]
        exact h₁.error
    | concluded h₂ => exact absurd h₂.deploying h₁.ended

section

variable {P : Platform} {env : Env} {s s' : State}

/-! ## Control actions -/

theorem SameDeployment.sameResult (h : SameDeployment s s')
    (hserial : s'.resultSerial = s.resultSerial)
    (hnotified : s.notified = true → s'.notified = true) : SameResult s s' where
  serial := hserial
  result := h.result
  deploying := by rw [State.Deploying, State.Deploying, h.active, h.request]
  request _ := h.request
  notified := hnotified

theorem Control.sameResult {e : Event} (h : Control P s e s') : SameResult s s' := by
  refine h.same.sameResult ?_ ?_
  all_goals
    cases h with
    | setAcl => rw [monitorCallSetVswitchAcl_frame]; first | rfl | exact id
    | stop =>
      rw [State.stopAndRestored, monitorAclReleaseProtocon_frame]
      first | rfl | exact fun _ => rfl
    | _ => first | rfl | exact id | exact fun _ => rfl

/-! ## The cothread -/

theorem applyPeers_error {pcId : Nat} {requested : BitVec 32} {peers : List Nat} {m : PeerMasks}
    {e : PcMonitorError} (h : (applyPeers env pcId requested peers s m).2 = .error e) :
    e = .vswitchError := by
  induction peers generalizing s m with
  | nil => cases h
  | cons peer peers ih =>
    unfold applyPeers at h
    dsimp only at h
    split at h
    · exact ih h
    split at h
    · exact ih h
    split at h
    · exact ih h
    split at h
    · exact (Except.error.inj h).symm
    · exact ih h

theorem State.applyAcl_error (s : State) (env : Env) :
    (s.applyAcl env).deployResult.error ≠ .deployInProgress := by
  unfold State.applyAcl
  cases hmasks : (monitorAclApplyDeployment s env s.deployRequest.targetPc.toNat
    s.deployRequest.requestedPeerMask).2 with
  | ok m => simp [hmasks]
  | error e =>
    have he : e = .invalidPcId ∨ e = .vswitchError := by
      unfold monitorAclApplyDeployment at hmasks
      split at hmasks
      · exact Or.inl (Except.error.inj hmasks).symm
      · exact Or.inr (applyPeers_error hmasks)
    obtain rfl | rfl := he <;> simp [hmasks, State.setResultError]

theorem State.concluded_error (s : State) (env : Env) {error : PcMonitorError}
    (h : error ≠ .deployInProgress) :
    (s.concluded env error).deployResult.error ≠ .deployInProgress := by
  unfold State.concluded
  split
  · exact State.applyAcl_error _ env
  · exact h

theorem finishTargeted_concluded {id : Nat} {error : PcMonitorError} (hs : s.Deploying)
    (htarget : s.deployResult.targetPc = s.deployRequest.targetPc)
    (herror : error ≠ .deployInProgress) : Concluded s (finishTargeted env s id error) := by
  obtain ⟨hframe, hready, hpc⟩ := s.concluded_frame env error
  have hresult : (finishTargeted env s id error).deployResult =
      (s.concluded env error).deployResult := rfl
  refine ⟨hs, fun h => Bool.false_ne_true h.1, ?_, ?_, ?_, ?_, rfl⟩
  · rw [finishTargeted_eq, hframe]
    rfl
  · rw [hresult]
    exact hready
  · rw [hresult, hpc, htarget]
  · rw [hresult]
    exact s.concluded_error env herror

/-- What the cothread does next leaves the result as it is or concludes the deployment. -/
theorem Work.advance (hD : DeployInv P s) (h : Work P env s s') : Advance s s' := by
  cases h with
  | select | install | serialise | start =>
    exact .same ⟨rfl, rfl, Iff.rfl, fun _ => rfl, id⟩
  | finish hc hrun ht =>
    refine .same ⟨rfl, rfl, ?_, fun hs => ?_, fun _ => rfl⟩
    · exact iff_of_false (fun h => Bool.false_ne_true h.1)
        fun hs => Bool.false_ne_true (ht.symm.trans hs.2)
    · exact absurd (ht.symm.trans hs.2) Bool.false_ne_true
  | @startTargeted id c w hc hw hb =>
    have ht := (hD.installing _ _ _ hc hw).branch.mp hb
    have hact := hD.active.mpr ⟨_, _, hc, not_ended_of_installing hw⟩
    have hfinish : Concluded (s.started id w) (finishTargeted env (s.started id w) id .noError) :=
      finishTargeted_concluded ⟨hact, ht⟩ (hD.result hact ht).2 (by simp)
    obtain ⟨-, hended, hserial, hready, htarget, herror, hnotified⟩ := hfinish
    exact .concluded ⟨⟨hact, ht⟩, hended, hserial, hready, htarget, herror, hnotified⟩
  | failTargeted hc hrun ht herror hended =>
    have hact := hD.active.mpr ⟨_, _, hc, not_ended_of_running hrun⟩
    exact .concluded (finishTargeted_concluded ⟨hact, ht⟩ (hD.result hact ht).2 hended)

theorem Accept.sameResult (h : Accept P s .deploy s') : SameResult s s' := by
  have hidle : ∀ {t : State}, t.deployRequestActive = false → ¬ t.Deploying :=
    fun ht hdeploying => nomatch ht.symm.trans hdeploying.1
  cases h with
  | accept hactive hn =>
    refine ⟨rfl, rfl, iff_of_false (fun h => Bool.false_ne_true h.2) (hidle hactive),
      fun h => absurd h (hidle hactive), id⟩
  | refuse hactive =>
    exact ⟨rfl, rfl, iff_of_false (hidle rfl) (hidle hactive),
      fun h => absurd h (hidle hactive), fun _ => rfl⟩

theorem works_advance (hD : DeployInv P s) (h : ReflTransGen (Work P env) s s') :
    Advance s s' ∧ DeployInv P s' := by
  induction h with
  | refl => exact ⟨.same (.refl s), hD⟩
  | tail _ hwork ih => exact ⟨ih.1.trans (hwork.advance ih.2), hwork.deployInv ih.2⟩

/-- The event is no targeted deploy call. -/
def Event.quiet : Event → Prop
  | .call _ msg _ => CallId.ofNumber (msg.get 0) ≠ some .deployToProtocon
  | _ => True

theorem Answer.sameResult {id : Nat} {answer : PicoVfs.Completion} (h : Answer s id answer s') :
    SameResult s s' := by
  cases h with
  | intro => exact ⟨rfl, rfl, Iff.rfl, fun _ => rfl, fun h => h⟩

theorem step_advance {e : Event} (hD : DeployInv P s) (h : step P s e = some s')
    (hquiet : e.quiet) : Advance s s' := by
  obtain hcontrol | ⟨id, c, env, t, rfl, hanswer, hwork⟩ |
      ⟨ch, msg, env, id, t, rfl, hid, haccept, hwork⟩ := step_cases hD.branchOk h
  · exact .same hcontrol.sameResult
  · exact (Advance.same hanswer.sameResult).trans (works_advance (hanswer.deployInv hD) hwork).1
  · have hdeploy : id = .deploy := by
      cases haccept with
      | accept | refuse => rfl
      | acceptTargeted | refuseTargeted => exact absurd hid hquiet
    subst hdeploy
    exact (Advance.same haccept.sameResult).trans (works_advance (haccept.deployInv hD) hwork).1

theorem step_deployInv {e : Event} (hD : DeployInv P s) (h : step P s e = some s') :
    DeployInv P s' :=
  (step_preserves (I := fun _ => True) hD trivial (fun _ => trivial) (fun _ _ _ _ _ => trivial) h).1

/-! ## The deployment that is owed -/

/-- The targeted deployment to `pcId` is under way, or its result waits to be read and a
notification is outstanding. -/
inductive State.Owes (s : State) (pcId : BitVec 32) : Prop
  | deploying (h : s.Deploying) (hpc : s.deployRequest.targetPc = pcId)
  | ready (h : ¬ s.Deploying) (hready : s.deployResult.ready = true)
      (hpc : s.deployResult.targetPc = pcId)
      (herror : s.deployResult.error ≠ .deployInProgress) (hnotified : s.notified = true)

theorem Advance.owes {pcId : BitVec 32} (h : Advance s s') (hs : s.Owes pcId) : s'.Owes pcId := by
  cases h with
  | same h =>
    cases hs with
    | deploying hdeploying hpc =>
      exact .deploying (h.deploying.mpr hdeploying)
        ((congrArg MonitorDeployRequest.targetPc (h.request hdeploying)).trans hpc)
    | ready hended hready hpc herror hnotified =>
      refine .ready (fun hs' => hended (h.deploying.mp hs')) ?_ ?_ ?_ (h.notified hnotified)
      all_goals rwa [h.result]
  | concluded h =>
    cases hs with
    | deploying hdeploying hpc =>
      exact .ready h.ended h.ready (h.target.trans hpc) h.error h.notified
    | ready hended => exact absurd h.deploying hended

/-- What a reading of the result finds after the notification has been taken: the deployment
is still under way, or the result is its own. -/
theorem State.Owes.read {pcId : BitVec 32} (hs : s.Owes pcId) (hD : DeployInv P s')
    (h : Advance { s with notified := false } s') :
    ((monitorCallDeployResult s').2.label = .deployInProgress ∧ s'.Owes pcId) ∨
      ((monitorCallDeployResult s').2.label ≠ .deployInProgress ∧
        ((monitorCallDeployResult s').2.get 0).truncate 32 = pcId ∧ ¬ s'.Deploying) := by
  have hread : s'.deployResult.ready = true → s'.deployResult.targetPc = pcId →
      s'.deployResult.error ≠ .deployInProgress →
      (monitorCallDeployResult s').2.label ≠ .deployInProgress ∧
        ((monitorCallDeployResult s').2.get 0).truncate 32 = pcId := by
    intro hready hpc herror
    rw [monitorCallDeployResult, hready, if_neg (by decide)]
    refine ⟨herror, ?_⟩
    show ((s'.deployResult.targetPc.zeroExtend 64).truncate 32 : BitVec 32) = pcId
    rw [hpc]
    simp
  cases hs with
  | deploying hdeploying hpc =>
    cases h with
    | same h =>
      have hdeploying' := h.deploying.mpr hdeploying
      refine .inl ⟨?_, .deploying hdeploying' ?_⟩
      · rw [monitorCallDeployResult, (hD.result hdeploying'.1 hdeploying'.2).1, if_pos (by decide)]
      · rw [h.request hdeploying]
        exact hpc
    | concluded h =>
      obtain ⟨hlabel, htarget⟩ := hread h.ready (h.target.trans hpc) h.error
      exact .inr ⟨hlabel, htarget, h.ended⟩
  | ready hended hready hpc herror =>
    cases h with
    | same h =>
      have hresult : s'.deployResult = s.deployResult := h.result
      obtain ⟨hlabel, htarget⟩ := hread (hresult ▸ hready) (hresult ▸ hpc) (hresult ▸ herror)
      exact .inr ⟨hlabel, htarget, fun hdeploying => hended (h.deploying.mp hdeploying)⟩
    | concluded h => exact absurd h.deploying hended

theorem Advance.serial (h : Advance s s') : s'.resultSerial = s.resultSerial := by
  cases h with
  | same h => exact h.serial
  | concluded h => exact h.serial

/-- Without a targeted deployment under way the result stays as it is. -/
theorem Advance.sameResult (h : Advance s s') (hs : ¬ s.Deploying) : SameResult s s' := by
  cases h with
  | same h => exact h
  | concluded h => exact absurd h.deploying hs

theorem Advance.deploying (h : Advance s s') (hs : s'.Deploying) :
    s.Deploying ∧ s'.deployRequest = s.deployRequest := by
  cases h with
  | same h =>
    have hbefore := h.deploying.mp hs
    exact ⟨hbefore, h.request hbefore⟩
  | concluded h => exact absurd hs h.ended

/-- A targeted deploy call is rejected, or its deployment is owed from then on. -/
theorem monitorCallDeployToProtocon_owes {pcId : BitVec 32} {given all : BitVec 64} {m : Message}
    (hD : DeployInv P s)
    (h : monitorCallDeployToProtocon P env s (pcId.zeroExtend 64) given all = some (s', m)) :
    (m.label ≠ .noError ∧ s.resultSerial ≤ s'.resultSerial ∧ (¬ s.Deploying → ¬ s'.Deploying)) ∨
      (m.label = .noError ∧ s'.resultSerial = s.resultSerial + 1 ∧ s'.Owes pcId) := by
  have hpc : ((pcId.zeroExtend 64).truncate 32 : BitVec 32) = pcId := by simp
  obtain ⟨-, rfl, hlabel⟩ | ⟨mask, ⟨hlt, hpassive, hmask, hidle⟩, ⟨-, hlabel, rfl⟩ |
      ⟨-, hlabel, hwork⟩⟩ := monitorCallDeployToProtocon_cases h
  · exact .inl ⟨hlabel, Nat.le_refl _, id⟩
  · exact .inl ⟨hlabel, Nat.le_succ _, fun _ hdeploying => Bool.false_ne_true hdeploying.1⟩
  · have haccept := Accept.acceptTargeted (P := P) hidle hlt hpassive hmask
    have howes : (s.acceptTargeted (pcId.zeroExtend 64) mask).spawn.Owes pcId :=
      .deploying ⟨rfl, rfl⟩ hpc
    obtain ⟨hadvance, -⟩ := works_advance (haccept.deployInv hD) hwork
    exact .inr ⟨hlabel, hadvance.serial, hadvance.owes howes⟩

end

end Monitor
end Carrels
