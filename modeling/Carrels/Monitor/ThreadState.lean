/-
The reported lifecycle and the thread.

`ACTIVE` should mean a thread that was last set running and `SUSPENDED` one that was
last stopped.  Every handler pairs the two changes except the fault handler: a fault it
does not restore from (any label but a VM fault, or a VM fault whose instruction pointer
and address are both zero) stops the thread and leaves the lifecycle state as it is.
-/
import Carrels.Monitor.SingleDeploy

namespace Carrels
namespace Monitor

open StepSystem

/-- An `ACTIVE` protocon runs and a `SUSPENDED` one is stopped. -/
def LifecycleMatchesThread (s : State) : Prop :=
  ∀ p, (s.lifecycle p = .active → s.threads p = .running) ∧
    (s.lifecycle p = .suspended → s.threads p = .stopped)

/-- A fault that does not restore its protocon does not hit an `ACTIVE` one. -/
def NoFaultLeftActive (s : State) : Event → Prop
  | .fault child label ip address =>
    notifyFlag label ip address = false → s.lifecycle child ≠ .active
  | _ => True

section

variable {P : Platform} {env : Env} {s s' : State}

/-- Changing the state and the thread of one protocon together. -/
theorem LifecycleMatchesThread.update (h : LifecycleMatchesThread s) {c : Nat} {l : Lifecycle}
    {t : ThreadState} (hl : s'.lifecycle = Function.update s.lifecycle c l)
    (ht : s'.threads = Function.update s.threads c t) (hact : l = .active → t = .running)
    (hsus : l = .suspended → t = .stopped) : LifecycleMatchesThread s' := by
  intro p
  rw [hl, ht]
  by_cases hp : p = c
  · subst hp
    rw [Function.update_self, Function.update_self]
    exact ⟨hact, hsus⟩
  · rw [Function.update_of_ne hp, Function.update_of_ne hp]
    exact h p

theorem Control.threadsMatch {e : Event} (hI : LifecycleMatchesThread s)
    (hok : NoFaultLeftActive s e) (h : Control P s e s') : LifecycleMatchesThread s' := by
  cases h with
  | idle | notify | flip | payload => exact hI
  | setAcl =>
      rw [monitorCallSetVswitchAcl_frame]
      exact hI
  | stop =>
      rw [State.stopAndRestored, monitorAclReleaseProtocon_frame]
      exact hI.update rfl rfl (by simp) (by simp)
  | suspend => exact hI.update rfl rfl (by simp) (by simp)
  | resume => exact hI.update rfl rfl (by simp) (by simp)
  | faultStop hc hflag =>
      refine hI.update (Function.update_eq_self ..).symm rfl (fun hact => ?_) fun _ => rfl
      exact absurd hact (hok hflag)
  | faultRestore => exact hI.update rfl rfl (by simp) (by simp)

theorem Accept.threadsMatch (hI : LifecycleMatchesThread s) {id : CallId}
    (h : Accept P s id s') : LifecycleMatchesThread s' := by
  cases h with
  | _ => exact hI

theorem Work.threadsMatch (hI : LifecycleMatchesThread s)
    (h : Work P env s s') : LifecycleMatchesThread s' := by
  cases h with
  | start => exact hI.update rfl rfl (fun _ => rfl) (by simp)
  | startTargeted =>
      rw [finishTargeted_eq, (State.concluded_frame _ env _).1]
      exact hI.update rfl rfl (fun _ => rfl) (by simp)
  | failTargeted =>
      rw [finishTargeted_eq, (s.concluded_frame env _).1]
      exact hI
  | _ => exact hI

theorem Answer.threadsMatch (hI : LifecycleMatchesThread s) {id : Nat}
    {answer : PicoVfs.Completion} (h : Answer s id answer s') : LifecycleMatchesThread s' := by
  cases h with
  | intro => exact hI

theorem Internal.threadsMatch (hI : LifecycleMatchesThread s)
    (h : Internal P env s s') : LifecycleMatchesThread s' := by
  cases h with
  | accept h => exact h.threadsMatch hI
  | answer h => exact h.threadsMatch hI
  | work h => exact h.threadsMatch hI

end

/-- In a run in which no `ACTIVE` protocon takes a fault that does not restore it, the
reported lifecycle matches the thread. -/
theorem lifecycleMatchesThread {P : Platform} {s : State}
    (h : Reaches (step P) NoFaultLeftActive (caMonitorInitStates P) s) :
    LifecycleMatchesThread s := by
  refine (reaches_of_actions (I := LifecycleMatchesThread) ?_
    (fun _ _ _ _ hI hok hs => hs.threadsMatch hI hok)
    (fun _ _ _ _ hI hs => hs.threadsMatch hI) h).2
  obtain ⟨m, hm⟩ := caMonitorInitStates_eq P
  intro p
  rw [hm]
  by_cases hp : p < P.numPc <;> simp [hp]

/-- Protocon 0 is started, suspended and resumed, and takes a VM fault that restores
it. -/
def restoredRun : List Event :=
  [writePayloadOf [], orchestratorCall .deploy [1] {}, orchestratorCall .suspend [0] {},
    orchestratorCall .resume [0] {}, .fault 0 .vmFault 0x4000 0]

def restoredState : State :=
  (run (step (smallPlatform 2)) (caMonitorInitStates (smallPlatform 2)) restoredRun).get
    (by decide +kernel)

theorem lifecycleMatchesThread_restoredState : LifecycleMatchesThread restoredState := by
  refine lifecycleMatchesThread (P := smallPlatform 2)
    (reaches_of_run (runMeets_of_forall restoredRun ?_ _) (Option.some_get _).symm)
  intro e he s
  simp only [restoredRun, List.mem_cons, List.not_mem_nil, or_false] at he
  rcases he with rfl | rfl | rfl | rfl | rfl
  · trivial
  · trivial
  · trivial
  · trivial
  · exact fun hflag => absurd hflag (by decide)

/-- Protocon 0 is started and faults with another label. -/
def leftActiveRun : List Event :=
  [writePayloadOf [], orchestratorCall .deploy [1] {}, .fault 0 .other 0 0]

def leftActiveState : State :=
  (run (step (smallPlatform 2)) (caMonitorInitStates (smallPlatform 2)) leftActiveRun).get
    (by decide +kernel)

/-- A fault can leave a stopped protocon `ACTIVE`. -/
theorem not_lifecycleMatchesThread :
    ¬ ∀ P s, Reaches (step P) anyEvent (caMonitorInitStates P) s → LifecycleMatchesThread s := by
  intro h
  have hs := h (smallPlatform 2) leftActiveState
    (reaches_of_run (runMeets_anyEvent _ _ leftActiveRun) (Option.some_get _).symm)
  have hact : leftActiveState.lifecycle 0 = .active := by decide +kernel
  have hstopped : leftActiveState.threads 0 = .stopped := by decide +kernel
  rw [(hs 0).1 hact] at hstopped
  exact absurd hstopped (by decide)

end Monitor
end Carrels
