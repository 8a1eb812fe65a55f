/-
Only the protocons that exist have a lifecycle.

Stop, suspend and resume check an id against the size of the arrays, deployments against
the number of protocons.  Suspend and resume act on a protocon that is in use and the
planner on one that is `PASSIVE`, so they stay below the number of protocons as long as
no state above it is ever set.  A stop sets the state of any id it is given; the
orchestrator's `TERMINATE_EXT` is the one call that can give it an id in between.
-/
import Carrels.Monitor.SingleDeploy

namespace Carrels
namespace Monitor

open StepSystem

/-- The protocons below `num_pc` have a lifecycle state and those above have none, and
only the former were ever loaded or selected. -/
structure OnlyExisting (P : Platform) (s : State) : Prop where
  below : ∀ i < P.numPc,
    s.lifecycle i = .active ∨ s.lifecycle i = .passive ∨ s.lifecycle i = .suspended
  above : ∀ i, P.numPc ≤ i → s.lifecycle i = .unset
  loads : ∀ i ∈ s.loads, i < P.numPc
  selections : ∀ i ∈ s.selections, i < P.numPc

/-- The call does not ask the monitor to stop an id from `num_pc` to 15 for which it
holds a TCB. -/
def NoStopOfMissing (P : Platform) (_ : State) : Event → Prop
  | .call ch msg _ =>
    ch = orchestratorChannel → CallId.ofNumber (msg.get 0) = some .terminateExt →
      P.hasTcb ((msg.get 1).truncate 32).toNat = true →
      ¬ (P.numPc ≤ ((msg.get 1).truncate 32).toNat ∧
        ((msg.get 1).truncate 32).toNat < pcChildMaxNum)
  | _ => True

section

variable {P : Platform} {env : Env} {s s' : State}

theorem OnlyExisting.lt_of_ne (h : OnlyExisting P s) {i : Nat} (hi : s.lifecycle i ≠ .unset) :
    i < P.numPc :=
  Nat.lt_of_not_le fun hge => hi (h.above i hge)

/-- Setting the state of an existing protocon, and perhaps loading it. -/
theorem OnlyExisting.update (h : OnlyExisting P s) {c : Nat} {l : Lifecycle} (hc : c < P.numPc)
    (hset : l ≠ .unset) (hl : s'.lifecycle = Function.update s.lifecycle c l)
    (hloads : s'.loads = s.loads ∨ s'.loads = c :: s.loads)
    (hsel : s'.selections = s.selections) : OnlyExisting P s' where
  below i hi := by
    rw [hl]
    by_cases hic : i = c
    · subst hic
      rw [Function.update_self]
      cases l with
      | unset => exact absurd rfl hset
      | active => exact Or.inl rfl
      | passive => exact Or.inr (Or.inl rfl)
      | suspended => exact Or.inr (Or.inr rfl)
    · rw [Function.update_of_ne hic]
      exact h.below i hi
  above i hi := by
    rw [hl, Function.update_of_ne (by omega)]
    exact h.above i hi
  loads i hi := by
    rcases hloads with hloads | hloads
    · exact h.loads i (hloads ▸ hi)
    · rcases List.mem_cons.mp (hloads ▸ hi) with rfl | hi
      · exact hc
      · exact h.loads i hi
  selections i hi := h.selections i (hsel ▸ hi)

theorem Control.existing {e : Event} (hI : OnlyExisting P s) (hok : NoStopOfMissing P s e)
    (h : Control P s e s') : OnlyExisting P s' := by
  cases h with
  | idle | notify | flip | payload | faultStop => exact ⟨hI.1, hI.2, hI.3, hI.4⟩
  | setAcl =>
      rw [monitorCallSetVswitchAcl_frame]
      exact ⟨hI.1, hI.2, hI.3, hI.4⟩
  | @stop ch msg env c hch hmsg hc htcb =>
      have hlt : c.toNat < P.numPc := by
        rcases P.callChannel_cases hch with rfl | ⟨i, hi, rfl⟩
        · obtain ⟨hid, rfl⟩ := stopTarget_of_orchestrator hc hmsg
          have := hok rfl hid htcb
          omega
        · rw [stopTarget_of_protocon (Nat.lt_of_lt_of_le hi P.numPc_le) hmsg]
          exact hi
      rw [State.stopAndRestored, monitorAclReleaseProtocon_frame]
      exact hI.update hlt (by simp) rfl (Or.inr rfl) rfl
  | suspend _ _ hs => exact hI.update (hI.lt_of_ne (by simp [hs])) (by simp) rfl (Or.inl rfl) rfl
  | resume _ _ hs => exact hI.update (hI.lt_of_ne (by simp [hs])) (by simp) rfl (Or.inl rfl) rfl
  | faultRestore hc => exact hI.update hc (by simp) rfl (Or.inr rfl) rfl

theorem Accept.existing (hI : OnlyExisting P s) {id : CallId} (h : Accept P s id s') :
    OnlyExisting P s' := by
  cases h with
  | _ => exact ⟨hI.1, hI.2, hI.3, hI.4⟩

theorem Work.existing (hD : DeployInv P s) (hI : OnlyExisting P s)
    (h : Work P env s s') : OnlyExisting P s' := by
  cases h with
  | select _ _ _ _ _ hs =>
      refine ⟨hI.1, hI.2, hI.3, fun i hi => ?_⟩
      rcases List.mem_cons.mp hi with rfl | hi
      · exact hI.lt_of_ne (by simp [hs])
      · exact hI.selections i hi
  | start hc hw =>
      have hs := (hD.installing _ _ _ hc hw).passive
      exact hI.update (hI.lt_of_ne (by simp [hs])) (by simp) rfl (Or.inl rfl) rfl
  | startTargeted hc hw =>
      have hs := (hD.installing _ _ _ hc hw).passive
      rw [finishTargeted_eq, (State.concluded_frame _ env _).1]
      exact hI.update (hI.lt_of_ne (by simp [hs])) (by simp) rfl (Or.inl rfl) rfl
  | failTargeted =>
      rw [finishTargeted_eq, (s.concluded_frame env _).1]
      exact ⟨hI.1, hI.2, hI.3, hI.4⟩
  | _ => exact ⟨hI.1, hI.2, hI.3, hI.4⟩

theorem Answer.existing (hI : OnlyExisting P s) {id : Nat} {answer : PicoVfs.Completion}
    (h : Answer s id answer s') : OnlyExisting P s' := by
  cases h with
  | intro => exact ⟨hI.1, hI.2, hI.3, hI.4⟩

theorem Internal.existing (hD : DeployInv P s) (hI : OnlyExisting P s)
    (h : Internal P env s s') : OnlyExisting P s' := by
  cases h with
  | accept h => exact h.existing hI
  | answer h => exact h.existing hI
  | work h => exact h.existing hD hI

end

/-- In a run without such a stop only the existing protocons have a lifecycle. -/
theorem onlyExisting {P : Platform} {s : State}
    (h : Reaches (step P) (NoStopOfMissing P) (caMonitorInitStates P) s) : OnlyExisting P s := by
  refine (reaches_of_actions (I := OnlyExisting P) ?_
    (fun _ _ _ _ hI hok hs => hs.existing hI hok)
    (fun _ _ _ hD hI hs => hs.existing hD hI) h).2
  obtain ⟨m, hm⟩ := caMonitorInitStates_eq P
  rw [hm]
  exact
    { below := fun i hi => Or.inr (Or.inl (if_pos hi))
      above := fun i hi => if_neg (by omega)
      loads := fun i hi => List.mem_range.mp (List.mem_reverse.mp hi)
      selections := fun i hi => absurd hi List.not_mem_nil }

/-- The orchestrator stops a protocon that exists, and names an id out of range. -/
def existingRun : List Event :=
  [writePayloadOf [], orchestratorCall .deploy [2] {}, orchestratorCall .terminateExt [1] {},
    orchestratorCall .terminateExt [16] {}]

def existingState : State :=
  (run (step (smallPlatform 16)) (caMonitorInitStates (smallPlatform 16)) existingRun).get
    (by decide +kernel)

theorem onlyExisting_existingState : OnlyExisting (smallPlatform 16) existingState := by
  refine onlyExisting
    (reaches_of_run (runMeets_of_forall existingRun ?_ _) (Option.some_get _).symm)
  intro e he s
  simp only [existingRun, List.mem_cons, List.not_mem_nil, or_false] at he
  rcases he with rfl | rfl | rfl | rfl
  · trivial
  · exact fun _ hid => absurd hid (by decide)
  · exact fun _ _ _ hlt => absurd hlt (by decide)
  · exact fun _ _ _ hlt => absurd hlt (by decide)

/-- The orchestrator stops id 5 of two protocons, where the monitor has a child. -/
def stopMissingRun : List Event := [orchestratorCall .terminateExt [5] {}]

def stopMissingState : State :=
  (run (step (smallPlatform 16)) (caMonitorInitStates (smallPlatform 16)) stopMissingRun).get
    (by decide +kernel)

theorem not_onlyExisting :
    ¬ ∀ P s, Reaches (step P) anyEvent (caMonitorInitStates P) s → OnlyExisting P s := by
  intro h
  have hs := h (smallPlatform 16) stopMissingState
    (reaches_of_run (runMeets_anyEvent _ _ stopMissingRun) (Option.some_get _).symm)
  have hset : stopMissingState.lifecycle 5 = .passive := by decide +kernel
  rw [hs.above 5 (by decide)] at hset
  exact absurd hset (by decide)

end Monitor
end Carrels
