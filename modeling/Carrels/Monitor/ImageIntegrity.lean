/-
A protocon starts with the image that was loaded for it.

Between `protocon_pre_instantiate` and `protocon_start` a deployment may be blocked in
several data files.  `ImageOk` says that the container image region then holds what was
loaded, with the deployment's own stores applied.  The region of each protocon is
disjoint from the others and from the payload region, so what can break it is a stop or
a restoring fault of the very protocon that is being installed: both clear its region
and neither looks at the deployment.
-/
import Carrels.Monitor.SingleDeploy

namespace Carrels
namespace Monitor

open ByteMemory StepSystem

/-- In memory `m` the image region of protocon `p` holds what `protocon_pre_instantiate`
loaded, changed by the stores `patches` only. -/
structure ImageOk (P : Platform) (m : Mem) (p : Nat) (loaded : Mem)
    (patches : List (Nat × List UInt8)) : Prop where
  payload : ∃ m₀ src size, loaded = protoconLoadPayload P m₀ p (containerImage p) src size
  image : AgreeOn (containerImage p) containerImageSize m (writes loaded patches)

/-- Every protocon was started with the image loaded for it. -/
def StartedWithImage (P : Platform) (s : State) : Prop :=
  ∀ r ∈ s.starts, ImageOk P r.image r.pcId r.loaded r.patches

/-- A deployment that has loaded protocon `p` is blocked in a data file. -/
def State.InstallingOn (s : State) (p : Nat) : Prop :=
  ∃ id c w, s.cothreads id = some c ∧ c.point = .installing w ∧ w.plan.pcId = p

/-- The event does not stop, terminate or restore a protocon that is being installed. -/
def NoRestoreWhileInstalling (s : State) : Event → Prop
  | .call ch msg _ => ∀ c, stopTarget ch msg = some c → ¬ s.InstallingOn c.toNat
  | .fault child label ip address =>
    notifyFlag label ip address = true → ¬ s.InstallingOn child
  | _ => True

structure ImageInv (P : Platform) (s : State) : Prop where
  started : StartedWithImage P s
  installing : ∀ id c w, s.cothreads id = some c → c.point = .installing w →
    ImageOk P s.mem w.plan.pcId w.loaded w.patches

/-! ## Regions -/

/-- Clearing another protocon's region leaves this one. -/
theorem agreeOn_fill_containerImage {p q : Nat} (h : p ≠ q) (m : Mem) (v : UInt8) :
    AgreeOn (containerImage p) containerImageSize
      (fill m (containerImage q) orcMonitorRegionSize v) m := by
  refine agreeOn_fill ?_ m v
  simp only [containerImage, monitorVmRegionBase, containerImageSize, orcMonitorRegionSize]
  omega

/-- The payload region lies below every container image. -/
theorem agreeOn_overlay_payload (p : Nat) (m : Mem) (f : Nat → UInt8) :
    AgreeOn (containerImage p) containerImageSize
      (overlay m payloadStart orcMonitorRegionSize f) m := by
  refine agreeOn_overlay (Or.inl ?_) m f
  simp only [containerImage, monitorVmRegionBase, containerImageBase, containerImageSize,
    orcMonitorRegionSize, payloadStart]
  omega

namespace ImageOk

variable {P : Platform} {m m' : Mem} {p : Nat} {loaded : Mem} {patches : List (Nat × List UInt8)}

theorem of_agreeOn (h : ImageOk P m p loaded patches)
    (hm : AgreeOn (containerImage p) containerImageSize m' m) : ImageOk P m' p loaded patches :=
  ⟨h.payload, hm.trans h.image⟩

theorem writes (h : ImageOk P m p loaded patches) (stores : List (Nat × List UInt8)) :
    ImageOk P (writes m stores) p loaded (patches ++ stores) := by
  refine ⟨h.payload, ?_⟩
  rw [writes_append]
  exact h.image.writes stores

end ImageOk

/-! ## Every action -/

section

variable {P : Platform} {env : Env} {s s' : State}

theorem State.setPoint_cases {id i : Nat} {c d : Cothread} {pt : Point}
    (hc : s.cothreads id = some c) (h : (s.setPoint id pt).cothreads i = some d) :
    (i = id ∧ d = { c with point := pt }) ∨ (i ≠ id ∧ s.cothreads i = some d) := by
  rw [State.cothreads_setPoint_eq pt hc] at h
  by_cases hi : i = id
  · subst hi
    rw [Function.update_self, Option.some.injEq] at h
    exact Or.inl ⟨rfl, h.symm⟩
  · rw [Function.update_of_ne hi] at h
    exact Or.inr ⟨hi, h⟩

theorem DeployInv.not_installing {w : Installing} (hD : DeployInv P s) {id i : Nat}
    {c d : Cothread} (hc : s.cothreads id = some c) (ha : c.alive) (hi : i ≠ id)
    (hd : s.cothreads i = some d) (hw : d.point = .installing w) : False :=
  hi (hD.unique i id ⟨d, hd, not_ended_of_installing hw⟩ ⟨c, hc, ha⟩)

/-- With no cothread alive there is nothing to be installed. -/
theorem ImageInv.of_idle (hD : DeployInv P s) (hidle : s.deployRequestActive = false)
    (hstarted : StartedWithImage P s) : ImageInv P s :=
  ⟨hstarted, fun id c _ hc hw =>
    absurd ⟨c, hc, not_ended_of_installing hw⟩ (hD.not_alive hidle id)⟩

theorem ImageInv.of_agreeOn (h : ImageInv P s) (hco : s'.cothreads = s.cothreads)
    (hstarts : s'.starts = s.starts)
    (hmem : ∀ p, s.InstallingOn p →
      AgreeOn (containerImage p) containerImageSize s'.mem s.mem) : ImageInv P s' := by
  refine ⟨fun r hr => h.started r (hstarts ▸ hr), fun id c w hc hw => ?_⟩
  rw [hco] at hc
  exact (h.installing id c w hc hw).of_agreeOn (hmem _ ⟨id, c, w, hc, hw, rfl⟩)

theorem ImageInv.restore (h : ImageInv P s) {c : Nat} (hc : ¬ s.InstallingOn c)
    (hco : s'.cothreads = s.cothreads) (hstarts : s'.starts = s.starts)
    (hmem : s'.mem = fill s.mem (containerImage c) orcMonitorRegionSize 0) : ImageInv P s' := by
  refine h.of_agreeOn hco hstarts fun p hp => ?_
  have hne : p ≠ c := fun hpc => hc (hpc ▸ hp)
  rw [hmem]
  exact agreeOn_fill_containerImage hne s.mem 0

theorem Control.imageInv {e : Event} (hI : ImageInv P s) (hok : NoRestoreWhileInstalling s e)
    (h : Control P s e s') : ImageInv P s' := by
  cases h with
  | idle | notify | flip | suspend | resume | faultStop => exact ⟨hI.1, hI.2⟩
  | setAcl =>
      rw [monitorCallSetVswitchAcl_frame]
      exact ⟨hI.1, hI.2⟩
  | stop _ hmsg =>
      rw [State.stopAndRestored, monitorAclReleaseProtocon_frame]
      exact hI.restore (hok _ hmsg) rfl rfl rfl
  | faultRestore _ hflag => exact hI.restore (hok hflag) rfl rfl rfl
  | payload => exact hI.of_agreeOn rfl rfl fun p _ => agreeOn_overlay_payload p s.mem _

theorem State.spawn_cases {t : State} {i : Nat} {d : Cothread}
    (h : t.spawn.cothreads i = some d) :
    d.point = .running ∨ t.cothreads i = some d := by
  by_cases hi : i = t.spawned
  · subst hi
    rw [State.cothreads_spawn, Option.some.injEq] at h
    exact Or.inl (h ▸ rfl)
  · have hne : t.spawn.cothreads i = t.cothreads i := Function.update_of_ne hi _ _
    exact Or.inr (hne ▸ h)

theorem ImageInv.spawn (hD : DeployInv P s) (hidle : s.deployRequestActive = false)
    (hI : ImageInv P s) (hco : s'.cothreads = s.cothreads) (hstarts : s'.starts = s.starts) :
    ImageInv P s'.spawn := by
  refine ⟨fun r hr => hI.started r (hstarts ▸ hr), fun i d w hd hw => ?_⟩
  rcases State.spawn_cases hd with hrun | hd
  · exact absurd (hrun.symm.trans hw) (by simp)
  · rw [hco] at hd
    exact absurd ⟨d, hd, not_ended_of_installing hw⟩ (hD.not_alive hidle i)

theorem ImageInv.start (hI : ImageInv P s) {id : Nat} {c : Cothread} {w : Installing}
    (hc : s.cothreads id = some c) (hw : c.point = .installing w) :
    StartedWithImage P (s.started id w) := by
  intro r hr
  rcases List.mem_cons.mp hr with rfl | hr
  · exact hI.installing _ _ _ hc hw
  · exact hI.started r hr

theorem Accept.imageInv (hD : DeployInv P s) (hI : ImageInv P s) {id : CallId}
    (h : Accept P s id s') : ImageInv P s' := by
  have hD' := h.deployInv hD
  cases h with
  | accept hidle => exact hI.spawn hD hidle rfl rfl
  | acceptTargeted hidle => exact hI.spawn hD hidle rfl rfl
  | refuse hidle => exact .of_idle hD' rfl hI.started
  | refuseTargeted hidle => exact .of_idle hD' rfl hI.started

theorem ImageInv.installed (hD : DeployInv P s) (hI : ImageInv P s) {id : Nat} {c : Cothread}
    {w w' : Installing} {stores : List (Nat × List UInt8)} (hc : s.cothreads id = some c)
    (hw : c.point = .installing w) (hext : w.Extends w' stores) :
    ImageInv P (s.installed id stores w') := by
  refine ⟨hI.started, fun i d w'' hd hw'' => ?_⟩
  rcases State.setPoint_cases hc hd with ⟨-, rfl⟩ | ⟨hi, hd⟩
  · have hstep := (hI.installing _ _ _ hc hw).writes
    rw [← Point.installing.inj hw'', hext.plan, hext.loaded, hext.patches]
    exact hstep _
  · exact (hD.not_installing hc (not_ended_of_installing hw) hi hd hw'').elim

theorem Answer.imageInv (hD : DeployInv P s) (hI : ImageInv P s) {id : Nat}
    {answer : PicoVfs.Completion} (h : Answer s id answer s') : ImageInv P s' := by
  cases h with
  | intro hc hw _ hresume => exact hI.installed hD hc hw (serviceInstallerResume_extends hresume)

theorem Work.imageInv (hD : DeployInv P s) (hI : ImageInv P s) (h : Work P env s s') :
    ImageInv P s' := by
  have hD' := h.deployInv hD
  cases h with
  | select hc hrun _ _ _ _ hbase =>
      refine ⟨hI.started, fun i d w hd hw => ?_⟩
      rcases State.setPoint_cases hc hd with ⟨-, rfl⟩ | ⟨hi, hd⟩
      · rw [← Point.installing.inj hw]
        exact ⟨⟨s.mem, _, _, congrArg (protoconLoadPayload P s.mem _ · _ _) hbase⟩, .refl _ _ _⟩
      · exact (hD.not_installing hc (not_ended_of_running hrun) hi hd hw).elim
  | install hc hw =>
      have hnext := hI.installed hD hc hw (serviceInstallerNext_extends s.mem _)
      exact hnext
  | serialise => exact ⟨hI.1, hI.2⟩
  | start hc hw =>
      refine ⟨hI.start hc hw, fun i d w' hd hw' => ?_⟩
      rcases State.setPoint_cases hc hd with ⟨-, rfl⟩ | ⟨hi, hd⟩
      · exact absurd hw' (by simp)
      · exact (hD.not_installing hc (not_ended_of_installing hw) hi hd hw').elim
  | startTargeted hc hw =>
      refine .of_idle hD' rfl fun r hr => hI.start hc hw r ?_
      rw [finishTargeted_eq, (State.concluded_frame _ env _).1] at hr
      exact hr
  | finish => exact .of_idle hD' rfl hI.started
  | failTargeted =>
      refine .of_idle hD' rfl fun r hr => hI.started r ?_
      rw [finishTargeted_eq, (s.concluded_frame env _).1] at hr
      exact hr

theorem Internal.imageInv (hD : DeployInv P s) (hI : ImageInv P s) (h : Internal P env s s') :
    ImageInv P s' := by
  cases h with
  | accept h => exact h.imageInv hD hI
  | answer h => exact h.imageInv hD hI
  | work h => exact h.imageInv hD hI

end

/-! ## Every run -/

/-- In a run in which nobody stops, terminates or restores a protocon while it is being
installed, every protocon starts with the image loaded for it. -/
theorem startedWithImage {P : Platform} {s : State}
    (h : Reaches (step P) NoRestoreWhileInstalling (caMonitorInitStates P) s) :
    StartedWithImage P s := by
  refine (reaches_of_actions (I := ImageInv P) ?_
    (fun _ _ _ _ hI hok hs => hs.imageInv hI hok)
    (fun _ _ _ hD hI hs => hs.imageInv hD hI) h).2.started
  refine .of_idle (caMonitorInitStates_deployInv P) ?_ ?_ <;>
    obtain ⟨m, hm⟩ := caMonitorInitStates_eq P <;> rw [hm]
  exact fun r hr => absurd hr List.not_mem_nil

/-- The file server serves the data file of the small payload: open, size, two reads and
close. -/
def serveDataFile : List Event :=
  [.resume 0 { success := true, fd := 3 } {}, .resume 0 { success := true } {},
    .resume 0 { success := true, data := [9, 9] } {}, .resume 0 { success := true } {},
    .resume 0 { success := true } {}]

def patchedState : State :=
  (run (step (smallPlatform 2)) (caMonitorInitStates (smallPlatform 2))
    (blockedRun ++ serveDataFile)).get (by decide +kernel)

/-- A deployment that patches its image undisturbed. -/
theorem startedWithImage_patchedState :
    StartedWithImage (smallPlatform 2) patchedState ∧ patchedState.starts.length = 1 := by
  refine ⟨startedWithImage (reaches_of_run (runMeets_of_forall
    (blockedRun ++ serveDataFile) ?_ _) (Option.some_get _).symm), by decide +kernel⟩
  intro e he s
  simp only [blockedRun, serveDataFile, List.cons_append, List.nil_append, List.mem_cons,
    List.not_mem_nil, or_false] at he
  rcases he with rfl | rfl | rfl | rfl | rfl | rfl | rfl
  · trivial
  · exact fun c hc => absurd hc (by simp [stopTarget, Message.get, CallId.number, CallId.ofNumber])
  all_goals trivial

/-- The orchestrator terminates protocon 0 while it is being installed. -/
def clearedRun : List Event :=
  blockedRun ++ orchestratorCall .terminateExt [0] {} :: serveDataFile

def clearedState : State :=
  (run (step (smallPlatform 2)) (caMonitorInitStates (smallPlatform 2)) clearedRun).get
    (by decide +kernel)

/-- A protocon can be started with a cleared image. -/
theorem not_startedWithImage :
    ¬ ∀ P s, Reaches (step P) anyEvent (caMonitorInitStates P) s → StartedWithImage P s := by
  intro h
  have hs := h (smallPlatform 2) clearedState
    (reaches_of_run (runMeets_anyEvent _ _ clearedRun) (Option.some_get _).symm)
  -- The first byte of the symbol bundle was loaded as 1 and is 0 at the start.
  have hrec : ∃ r ∈ clearedState.starts, r.pcId = 0 ∧ r.image (containerImage 0 + 48) = 0 ∧
      writes r.loaded r.patches (containerImage 0 + 48) = 1 := by decide +kernel
  obtain ⟨r, hr, hp, hzero, hone⟩ := hrec
  have himage := (hs r hr).image (containerImage 0 + 48) (by rw [hp]; omega)
    (by rw [hp]; simp only [containerImageSize]; omega)
  rw [hzero, hone] at himage
  exact absurd himage (by decide)

end Monitor
end Carrels
