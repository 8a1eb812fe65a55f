/-
One deployment at a time.

The request is a set of globals shared by two calls and a cothread with many exits.
`DeployInv` ties them together: the request is active exactly while a cothread is alive,
that cothread works on the request it was spawned with, the protocon it has chosen stays
`PASSIVE`, and a cothread that has returned has reset the request, notified once and
left its result ready.

Control actions touch none of this except lifecycle states (`SameDeployment`), and an
internal action does one of four things to the table of cothreads: it adds one, moves
one on, ends one, or leaves the table alone.
-/
import Carrels.Monitor.Actions

namespace Carrels
namespace Monitor

open ByteMemory StepSystem Relation

/-! ## The invariant -/

structure AliveOk (s : State) (c : Cothread) : Prop where
  request : c.request = s.deployRequest
  notified : c.notified = 0

structure InstallingOk (s : State) (w : Installing) : Prop where
  branch : w.branch = .targeted ↔ s.deployRequest.targeted = true
  target : w.branch = .targeted → w.plan.pcId = s.deployRequest.targetPc.toNat
  lt : w.plan.pcId < pcChildMaxNum
  passive : s.lifecycle w.plan.pcId = .passive
  base : w.plan.pcBase = containerImage w.plan.pcId

/-- A cothread that has returned notified once; it left the request inactive and, when it
was targeted, a ready result that names its target. -/
structure EndedOk (c : Cothread) : Prop where
  notified : c.notified = 1
  atEnd : ∃ r, c.atEnd = some (false, r) ∧
    (c.request.targeted = true → r.ready = true ∧ r.targetPc = c.request.targetPc)

structure DeployInv (P : Platform) (s : State) : Prop where
  fresh : ∀ id, s.spawned ≤ id → s.cothreads id = none
  unique : ∀ id₁ id₂, s.Alive id₁ → s.Alive id₂ → id₁ = id₂
  active : s.deployRequestActive = true ↔ ∃ id, s.Alive id
  idle : s.deployRequestActive = false → s.deployRequest = {}
  alive : ∀ id c, s.cothreads id = some c → c.alive → AliveOk s c
  installing : ∀ id c w, s.cothreads id = some c → c.point = .installing w → InstallingOk s w
  ended : ∀ id c, s.cothreads id = some c → ¬ c.alive → EndedOk c
  result : s.deployRequestActive = true → s.deployRequest.targeted = true →
    s.deployResult.ready = false ∧ s.deployResult.targetPc = s.deployRequest.targetPc
  target : s.deployRequestActive = true → s.deployRequest.targeted = true →
    s.deployRequest.targetPc.toNat < P.numPc
  starts : ∀ r ∈ s.starts, r.before = .passive

/-- The cothreads and the request are as before, and what was `PASSIVE` still is. -/
structure SameDeployment (s s' : State) : Prop where
  cothreads : s'.cothreads = s.cothreads
  spawned : s'.spawned = s.spawned
  active : s'.deployRequestActive = s.deployRequestActive
  request : s'.deployRequest = s.deployRequest
  result : s'.deployResult = s.deployResult
  starts : s'.starts = s.starts
  lifecycle : ∀ p, s.lifecycle p = .passive → s'.lifecycle p = .passive

theorem State.alive_congr {s s' : State} (h : s'.cothreads = s.cothreads) (id : Nat) :
    s'.Alive id ↔ s.Alive id := by
  rw [State.Alive, State.Alive, h]

theorem State.alive_iff {s : State} {id : Nat} {c : Cothread} (hc : s.cothreads id = some c) :
    s.Alive id ↔ c.alive := by
  constructor
  · rintro ⟨c', hc', ha⟩
    rw [hc, Option.some.injEq] at hc'
    exact hc' ▸ ha
  · exact fun ha => ⟨c, hc, ha⟩

theorem not_ended_of_running {c : Cothread} (h : c.point = .running) : c.alive := by
  rw [Cothread.alive, h]
  rfl

theorem not_ended_of_installing {c : Cothread} {w : Installing} (h : c.point = .installing w) :
    c.alive := by
  rw [Cothread.alive, h]
  rfl

namespace DeployInv

variable {P : Platform} {s s' : State}

theorem branchOk (h : DeployInv P s) : BranchOk s := fun id c w hc hw =>
  (h.installing id c w hc hw).branch

theorem not_alive (h : DeployInv P s) (hidle : s.deployRequestActive = false) (id : Nat) :
    ¬ s.Alive id := fun ha => by
  have hact := h.active.mpr ⟨id, ha⟩
  rw [hidle] at hact
  exact absurd hact (by simp)

/-! ## The kinds of change -/

theorem same (h : DeployInv P s) (hs : SameDeployment s s') : DeployInv P s' where
  fresh := by
    rw [hs.cothreads, hs.spawned]
    exact h.fresh
  unique id₁ id₂ := by
    rw [State.alive_congr hs.cothreads, State.alive_congr hs.cothreads]
    exact h.unique id₁ id₂
  active := by
    simp only [hs.active, State.alive_congr hs.cothreads]
    exact h.active
  idle := by
    rw [hs.active, hs.request]
    exact h.idle
  alive id c hc ha := by
    rw [hs.cothreads] at hc
    exact ⟨hs.request ▸ (h.alive id c hc ha).request, (h.alive id c hc ha).notified⟩
  installing id c w hc hw := by
    rw [hs.cothreads] at hc
    obtain ⟨hb, ht, hlt, hp, hbase⟩ := h.installing id c w hc hw
    exact ⟨hs.request ▸ hb, hs.request ▸ ht, hlt, hs.lifecycle _ hp, hbase⟩
  ended id c hc := h.ended id c (hs.cothreads ▸ hc)
  result := by
    rw [hs.active, hs.request, hs.result]
    exact h.result
  target := by
    rw [hs.active, hs.request]
    exact h.target
  starts := by
    rw [hs.starts]
    exact h.starts

theorem move (h : DeployInv P s) {id : Nat} {c : Cothread} {pt : Point}
    (hc : s.cothreads id = some c) (ha : c.alive) (hpt : pt.live = true)
    (hco : s'.cothreads = Function.update s.cothreads id (some { c with point := pt }))
    (hspawned : s'.spawned = s.spawned) (hactive : s'.deployRequestActive = s.deployRequestActive)
    (hrequest : s'.deployRequest = s.deployRequest) (hresult : s'.deployResult = s.deployResult)
    (hstarts : ∀ r ∈ s'.starts, r.before = .passive)
    (hw : ∀ w, pt = .installing w → InstallingOk s' w) : DeployInv P s' := by
  have hself : s'.cothreads id = some { c with point := pt } := by
    rw [hco, Function.update_self]
  have hne : ∀ {i}, i ≠ id → s'.cothreads i = s.cothreads i := fun hi => by
    rw [hco, Function.update_of_ne hi]
  have hid : id < s.spawned := by
    by_contra hge
    rw [h.fresh id (by omega)] at hc
    exact absurd hc (by simp)
  have halive : ∀ i, s'.Alive i ↔ s.Alive i := by
    intro i
    by_cases hi : i = id
    · subst hi
      rw [State.alive_iff hself, State.alive_iff hc]
      exact ⟨fun _ => ha, fun _ => hpt⟩
    · rw [State.Alive, State.Alive, hne hi]
  refine
    { fresh := fun i hi => ?_
      unique := fun i j hi hj => h.unique i j ((halive i).mp hi) ((halive j).mp hj)
      active := by simpa only [hactive, halive] using h.active
      idle := by rw [hactive, hrequest]; exact h.idle
      alive := fun i d hd hda => ?_
      installing := fun i d w hd hdw => ?_
      ended := fun i d hd hda => ?_
      result := by rw [hactive, hrequest, hresult]; exact h.result
      target := by rw [hactive, hrequest]; exact h.target
      starts := hstarts }
  · rw [hspawned] at hi
    rw [hne (by omega)]
    exact h.fresh i hi
  · by_cases hi : i = id
    · subst hi
      rw [hself, Option.some.injEq] at hd
      obtain ⟨hr, hn⟩ := h.alive i c hc ha
      exact hd ▸ ⟨hr.trans hrequest.symm, hn⟩
    · rw [hne hi] at hd
      obtain ⟨hr, hn⟩ := h.alive i d hd hda
      exact ⟨hr.trans hrequest.symm, hn⟩
  · by_cases hi : i = id
    · subst hi
      rw [hself, Option.some.injEq] at hd
      exact hw w (by rw [← hdw, ← hd])
    · rw [hne hi] at hd
      exact absurd (h.unique i id ⟨d, hd, not_ended_of_installing hdw⟩ ⟨c, hc, ha⟩) hi
  · by_cases hi : i = id
    · subst hi
      rw [hself, Option.some.injEq] at hd
      exact absurd (hd ▸ hpt) hda
    · rw [hne hi] at hd
      exact h.ended i d hd hda

theorem finish (h : DeployInv P s) {id : Nat} {c : Cothread} (hc : s.cothreads id = some c)
    (ha : c.alive) (hco : s'.cothreads = s.cothreads) (hspawned : s'.spawned = s.spawned)
    (hstarts : s'.starts = s.starts)
    (hresult : s.deployRequest.targeted = true →
      s'.deployResult.ready = true ∧ s'.deployResult.targetPc = s.deployRequest.targetPc) :
    DeployInv P (s'.finishCothread id) := by
  have hself : (s'.finishCothread id).cothreads id =
      some { c with
        notified := c.notified + 1
        point := .ended
        atEnd := some (false, s'.deployResult) } := by
    simp [State.finishCothread, monitorFinishDeployRequest, monitorDeployRefreshRequest,
      State.notifyFrom, State.notifyOrchestrator, State.modifyCothread, hco, hc]
  have hne : ∀ {i}, i ≠ id → (s'.finishCothread id).cothreads i = s.cothreads i := by
    intro i hi
    simp [State.finishCothread, monitorFinishDeployRequest, monitorDeployRefreshRequest,
      State.notifyFrom, State.notifyOrchestrator, State.modifyCothread, hco, hi]
  have hid : id < s.spawned := by
    by_contra hge
    rw [h.fresh id (by omega)] at hc
    exact absurd hc (by simp)
  have hdead : ∀ i, ¬ (s'.finishCothread id).Alive i := by
    intro i
    by_cases hi : i = id
    · subst hi
      rw [State.alive_iff hself]
      simp [Cothread.alive, Point.live]
    · rw [State.Alive, hne hi]
      exact fun hai => hi (h.unique i id hai ⟨c, hc, ha⟩)
  obtain ⟨hr, hn⟩ := h.alive id c hc ha
  refine
    { fresh := fun i hi => ?_
      unique := fun i _ hi _ => absurd hi (hdead i)
      active := ⟨fun hact => absurd hact Bool.false_ne_true,
        fun halive => halive.elim fun i hi => absurd hi (hdead i)⟩
      idle := fun _ => rfl
      alive := fun i d hd hda => absurd ⟨d, hd, hda⟩ (hdead i)
      installing := fun i d w hd hdw =>
        absurd ⟨d, hd, not_ended_of_installing hdw⟩ (hdead i)
      ended := fun i d hd hda => ?_
      result := fun hact => absurd hact Bool.false_ne_true
      target := fun hact => absurd hact Bool.false_ne_true
      starts := fun r hr => h.starts r (hstarts ▸ hr) }
  · have hi' : s.spawned ≤ i := by
      rw [← hspawned]
      exact hi
    rw [hne (by omega)]
    exact h.fresh i hi'
  · by_cases hi : i = id
    · subst hi
      rw [hself, Option.some.injEq] at hd
      subst hd
      exact ⟨by simp [hn], _, rfl, fun ht => by
        rw [hr] at ht ⊢
        exact hresult ht⟩
    · rw [hne hi] at hd
      exact h.ended i d hd hda

theorem spawn (h : DeployInv P s) (hidle : s.deployRequestActive = false)
    (hco : s'.cothreads = s.cothreads) (hspawned : s'.spawned = s.spawned)
    (hactive : s'.deployRequestActive = true) (hstarts : s'.starts = s.starts)
    (hresult : s'.deployRequest.targeted = true →
      s'.deployResult.ready = false ∧ s'.deployResult.targetPc = s'.deployRequest.targetPc)
    (htarget : s'.deployRequest.targeted = true →
      s'.deployRequest.targetPc.toNat < P.numPc) : DeployInv P s'.spawn := by
  have hself : s'.spawn.cothreads s.spawned =
      some { request := s'.deployRequest, point := .running } :=
    hspawned ▸ State.cothreads_spawn s'
  have hne : ∀ {i}, i ≠ s.spawned → s'.spawn.cothreads i = s.cothreads i := by
    intro i hi
    simp only [State.spawn, hspawned, Function.update_of_ne hi, hco]
  have honly : ∀ i, s'.spawn.Alive i → i = s.spawned := by
    intro i hai
    by_contra hi
    rw [State.Alive, hne hi] at hai
    exact h.not_alive hidle i hai
  have hnew : s'.spawn.Alive s.spawned := ⟨_, hself, rfl⟩
  refine
    { fresh := fun i hi => ?_
      unique := fun i j hi hj => (honly i hi).trans (honly j hj).symm
      active := ⟨fun _ => ⟨_, hnew⟩, fun _ => hactive⟩
      idle := fun hact => absurd (hact.symm.trans hactive) Bool.false_ne_true
      alive := fun i d hd hda => ?_
      installing := fun i d w hd hdw => ?_
      ended := fun i d hd hda => ?_
      result := fun _ ht => hresult ht
      target := fun _ ht => htarget ht
      starts := fun r hr => h.starts r (hstarts ▸ hr) }
  · have hi' : s.spawned + 1 ≤ i := by
      rw [← hspawned]
      exact hi
    rw [hne (by omega)]
    exact h.fresh i (by omega)
  · have hi := honly i ⟨d, hd, hda⟩
    rw [hi, hself, Option.some.injEq] at hd
    exact hd ▸ ⟨rfl, rfl⟩
  · have hi := honly i ⟨d, hd, not_ended_of_installing hdw⟩
    rw [hi, hself, Option.some.injEq] at hd
    rw [← hd] at hdw
    exact absurd hdw (by simp)
  · by_cases hi : i = s.spawned
    · rw [hi, hself, Option.some.injEq] at hd
      exact absurd (hd ▸ rfl) hda
    · rw [hne hi] at hd
      exact h.ended i d hd hda

theorem refuse (h : DeployInv P s) (hidle : s.deployRequestActive = false)
    (hco : s'.cothreads = s.cothreads) (hspawned : s'.spawned = s.spawned)
    (hactive : s'.deployRequestActive = false) (hrequest : s'.deployRequest = {})
    (hstarts : s'.starts = s.starts) : DeployInv P s' := by
  have hdead : ∀ i, ¬ s'.Alive i := fun i hi =>
    h.not_alive hidle i ((State.alive_congr hco i).mp hi)
  exact
    { fresh := by rw [hco, hspawned]; exact h.fresh
      unique := fun i _ hi _ => absurd hi (hdead i)
      active := ⟨fun hact => absurd (hactive.symm.trans hact) Bool.false_ne_true,
        fun ⟨i, hi⟩ => absurd hi (hdead i)⟩
      idle := fun _ => hrequest
      alive := fun i d hd hda => absurd ⟨d, hd, hda⟩ (hdead i)
      installing := fun i d w hd hdw => absurd ⟨d, hd, not_ended_of_installing hdw⟩ (hdead i)
      ended := fun i d hd => h.ended i d (hco ▸ hd)
      result := fun hact => absurd (hactive.symm.trans hact) Bool.false_ne_true
      target := fun hact => absurd (hactive.symm.trans hact) Bool.false_ne_true
      starts := fun r hr => h.starts r (hstarts ▸ hr) }

end DeployInv

/-! ## Every action keeps the invariant -/

section

variable {P : Platform} {env : Env} {s s' : State}

theorem passive_update_passive {f : Nat → Lifecycle} {c p : Nat} (h : f p = .passive) :
    Function.update f c .passive p = .passive := by
  by_cases hp : p = c
  · rw [hp, Function.update_self]
  · rw [Function.update_of_ne hp, h]

theorem passive_update_of_ne {f : Nat → Lifecycle} {c p : Nat} {l : Lifecycle}
    (hc : f c ≠ .passive) (h : f p = .passive) : Function.update f c l p = .passive := by
  have hp : p ≠ c := fun hpc => hc (hpc ▸ h)
  rw [Function.update_of_ne hp, h]

theorem State.stopAndRestored_same (s : State) (env : Env) (c : Nat) :
    SameDeployment s (s.stopAndRestored env c) := by
  unfold State.stopAndRestored
  rw [monitorAclReleaseProtocon_frame]
  exact ⟨rfl, rfl, rfl, rfl, rfl, rfl, fun _ => passive_update_passive⟩

theorem Control.same {e : Event} (h : Control P s e s') : SameDeployment s s' := by
  cases h with
  | idle | notify | flip | payload | faultStop =>
      exact ⟨rfl, rfl, rfl, rfl, rfl, rfl, fun _ hp => hp⟩
  | setAcl =>
      rw [monitorCallSetVswitchAcl_frame]
      exact ⟨rfl, rfl, rfl, rfl, rfl, rfl, fun _ hp => hp⟩
  | stop => exact s.stopAndRestored_same _ _
  | suspend _ _ hs =>
      exact ⟨rfl, rfl, rfl, rfl, rfl, rfl, fun _ => passive_update_of_ne (by simp [hs])⟩
  | resume _ _ hs =>
      exact ⟨rfl, rfl, rfl, rfl, rfl, rfl, fun _ => passive_update_of_ne (by simp [hs])⟩
  | faultRestore =>
      exact ⟨rfl, rfl, rfl, rfl, rfl, rfl, fun _ => passive_update_passive⟩

theorem State.cothreads_setPoint_eq {id : Nat} {c : Cothread} (pt : Point)
    (hc : s.cothreads id = some c) :
    (s.setPoint id pt).cothreads =
      Function.update s.cothreads id (some { c with point := pt }) := by
  simp [State.setPoint, State.modifyCothread, hc]

theorem DeployInv.started (hI : DeployInv P s) {id : Nat} {c : Cothread} {w : Installing}
    (hc : s.cothreads id = some c) (hw : c.point = .installing w) :
    DeployInv P (s.started id w) := by
  refine hI.move hc (not_ended_of_installing hw) rfl (State.cothreads_setPoint_eq _ hc)
    rfl rfl rfl rfl (fun r hr => ?_) fun w' hw' => absurd hw' (by simp)
  rcases List.mem_cons.mp hr with rfl | hr
  · exact (hI.installing _ _ _ hc hw).passive
  · exact hI.starts r hr

theorem DeployInv.finishTargeted (hI : DeployInv P s) {id : Nat} {c : Cothread}
    {error : PcMonitorError} (hc : s.cothreads id = some c) (hrun : c.point = .running)
    (ht : s.deployRequest.targeted = true) : DeployInv P (finishTargeted env s id error) := by
  have hact := hI.active.mpr ⟨_, _, hc, not_ended_of_running hrun⟩
  obtain ⟨hframe, hready, htarget⟩ := s.concluded_frame env error
  rw [finishTargeted_eq]
  refine hI.finish hc (not_ended_of_running hrun) (by rw [hframe]; rfl) (by rw [hframe]; rfl)
    (by rw [hframe]; rfl) fun _ => ⟨hready, ?_⟩
  rw [htarget]
  exact (hI.result hact ht).2

theorem Accept.deployInv (hI : DeployInv P s) {id : CallId} (h : Accept P s id s') :
    DeployInv P s' := by
  cases h with
  | accept hidle hn =>
      exact hI.spawn hidle rfl rfl rfl rfl (fun ht => absurd ht Bool.false_ne_true)
        (fun ht => absurd ht Bool.false_ne_true)
  | @acceptTargeted pcId mask _ _ hidle hpc hs hmask =>
      have htrunc : (pcId.truncate 32).toNat < P.numPc :=
        Nat.lt_of_le_of_lt (by simpa using Nat.mod_le _ _) hpc
      exact hI.spawn hidle rfl rfl rfl rfl (fun _ => ⟨rfl, rfl⟩) (fun _ => htrunc)
  | refuse hidle => exact hI.refuse hidle rfl rfl rfl rfl rfl
  | refuseTargeted hidle => exact hI.refuse hidle rfl rfl rfl rfl rfl

theorem DeployInv.installed (hI : DeployInv P s) {id : Nat} {c : Cothread} {w w' : Installing}
    {stores : List (Nat × List UInt8)} (hc : s.cothreads id = some c)
    (hw : c.point = .installing w) (hext : w.Extends w' stores) :
    DeployInv P (s.installed id stores w') := by
  refine hI.move hc (not_ended_of_installing hw) rfl (State.cothreads_setPoint_eq _ hc)
    rfl rfl rfl rfl hI.starts fun w'' hw'' => ?_
  obtain ⟨hb, ht, hlt, hp, hbase⟩ := hI.installing _ _ _ hc hw
  rw [← Point.installing.inj hw'']
  exact ⟨hext.branch ▸ hb, hext.branch ▸ hext.plan ▸ ht, hext.plan ▸ hlt, hext.plan ▸ hp,
    hext.plan ▸ hbase⟩

theorem Answer.deployInv (hI : DeployInv P s) {id : Nat} {answer : PicoVfs.Completion}
    (h : Answer s id answer s') : DeployInv P s' := by
  cases h with
  | intro hc hw _ hresume => exact hI.installed hc hw (serviceInstallerResume_extends hresume)

theorem Work.deployInv (hI : DeployInv P s) (h : Work P env s s') : DeployInv P s' := by
  cases h with
  | select hc hrun hbranch htarget hlt hs hbase =>
      refine hI.move hc (not_ended_of_running hrun) rfl (State.cothreads_setPoint_eq _ hc)
        rfl rfl rfl rfl hI.starts fun w hw => ?_
      exact Point.installing.inj hw ▸ ⟨hbranch, htarget, hlt, hs, hbase⟩
  | install hc hw =>
      have hnext := hI.installed hc hw (serviceInstallerNext_extends s.mem _)
      exact hnext
  | serialise => exact hI.same ⟨rfl, rfl, rfl, rfl, rfl, rfl, fun _ hp => hp⟩
  | start hc hw => exact hI.started hc hw
  | startTargeted hc hw hb =>
      have ht := (hI.installing _ _ _ hc hw).branch.mp hb
      obtain ⟨d, hd, hrun⟩ := State.started_running (w := _) hc
      exact (hI.started hc hw).finishTargeted hd hrun ht
  | finish hc hrun ht =>
      exact hI.finish hc (not_ended_of_running hrun) rfl rfl rfl
        (fun ht' => absurd (ht.symm.trans ht') Bool.false_ne_true)
  | failTargeted hc hrun ht => exact hI.finishTargeted hc hrun ht

theorem Internal.deployInv (hI : DeployInv P s) (h : Internal P env s s') : DeployInv P s' := by
  cases h with
  | accept h => exact h.deployInv hI
  | answer h => exact h.deployInv hI
  | work h => exact h.deployInv hI

theorem caMonitorInitStates_deployInv (P : Platform) : DeployInv P (caMonitorInitStates P) := by
  obtain ⟨m, hm⟩ := caMonitorInitStates_eq P
  rw [hm]
  exact
    { fresh := fun _ _ => rfl
      unique := fun _ _ ⟨c, hc, _⟩ => absurd hc (by simp)
      active := ⟨fun h => absurd h Bool.false_ne_true, fun ⟨_, c, hc, _⟩ => absurd hc (by simp)⟩
      idle := fun _ => rfl
      alive := fun _ c hc => absurd hc (by simp)
      installing := fun _ c _ hc => absurd hc (by simp)
      ended := fun _ c hc => absurd hc (by simp)
      result := fun h => absurd h Bool.false_ne_true
      target := fun h => absurd h Bool.false_ne_true
      starts := fun r hr => absurd hr (by simp) }

/-- A property that the control actions of the allowed events and the internal actions
keep is kept by every allowed step. -/
theorem step_preserves {I : State → Prop} {e : Event} (hD : DeployInv P s) (hI : I s)
    (hctl : Control P s e s' → I s')
    (hint : ∀ t t', DeployInv P t → I t → Internal P e.env t t' → I t')
    (h : step P s e = some s') : DeployInv P s' ∧ I s' := by
  apply (step_refines hD.branchOk h).preserves (I := fun t => DeployInv P t ∧ I t) ⟨hD, hI⟩
  · rintro _ rfl hcontrol
    exact ⟨hD.same hcontrol.same, hctl hcontrol⟩
  · intro t t' hI ht
    exact ⟨ht.deployInv hI.1, hint t t' hI.1 hI.2 ht⟩

/-- The same for runs: the rule every invariant of the monitor is proved with. -/
theorem reaches_of_actions {ok : State → Event → Prop} {I : State → Prop}
    (h₀ : I (caMonitorInitStates P))
    (hctl : ∀ s e s', DeployInv P s → I s → ok s e → Control P s e s' → I s')
    (hint : ∀ env s s', DeployInv P s → I s → Internal P env s s' → I s')
    (h : Reaches (step P) ok (caMonitorInitStates P) s) : DeployInv P s ∧ I s :=
  h.invariant (I := fun t => DeployInv P t ∧ I t) ⟨caMonitorInitStates_deployInv P, h₀⟩
    fun s e s' hI hok hs => step_preserves hI.1 hI.2 (hctl s e s' hI.1 hI.2 hok) (hint e.env) hs

/-- The rule for a property that an answer keeps only in an allowed event: the answer comes
first in its step. -/
theorem reaches_of_answers {ok : State → Event → Prop} {I : State → Prop}
    (h₀ : I (caMonitorInitStates P))
    (hctl : ∀ s e s', DeployInv P s → I s → Control P s e s' → I s')
    (hanswer : ∀ s id c env s', DeployInv P s → I s → ok s (.resume id c env) → Answer s id c s' →
      I s')
    (haccept : ∀ s id s', DeployInv P s → I s → Accept P s id s' → I s')
    (hwork : ∀ env s s', DeployInv P s → I s → Work P env s s' → I s')
    (h : Reaches (step P) ok (caMonitorInitStates P) s) : DeployInv P s ∧ I s := by
  have hworks : ∀ {env s s'}, DeployInv P s ∧ I s → ReflTransGen (Work P env) s s' →
      DeployInv P s' ∧ I s' := fun hI h =>
    preserved_of_reflTransGen (I := fun t => DeployInv P t ∧ I t)
      (fun t t' ht hwt => ⟨hwt.deployInv ht.1, hwork _ t t' ht.1 ht.2 hwt⟩) h hI
  refine h.invariant (I := fun t => DeployInv P t ∧ I t) ⟨caMonitorInitStates_deployInv P, h₀⟩
    fun s e s' hI hok hs => ?_
  obtain hcontrol | ⟨id, c, env, t, rfl, ht, hacts⟩ | ⟨ch, msg, env, id, t, rfl, -, ht, hacts⟩ :=
    step_cases hI.1.branchOk hs
  · exact ⟨hI.1.same hcontrol.same, hctl s e s' hI.1 hI.2 hcontrol⟩
  · exact hworks ⟨ht.deployInv hI.1, hanswer s id c env t hI.1 hI.2 hok ht⟩ hacts
  · exact hworks ⟨ht.deployInv hI.1, haccept s id t hI.1 hI.2 ht⟩ hacts

theorem reaches_deployInv {ok : State → Event → Prop}
    (h : Reaches (step P) ok (caMonitorInitStates P) s) : DeployInv P s :=
  (reaches_of_actions (I := fun _ => True) trivial (fun _ _ _ _ _ _ _ => trivial)
    (fun _ _ _ _ _ _ => trivial) h).1

theorem State.modifyCothread_request {id i : Nat} {c : Cothread} {f : Cothread → Cothread}
    (hf : ∀ d, (f d).request = d.request) (hc : s.cothreads id = some c) :
    ∃ d, (s.modifyCothread i f).cothreads id = some d ∧ d.request = c.request := by
  by_cases hi : id = i
  · subst hi
    exact ⟨f c, by simp [State.modifyCothread, hc], hf c⟩
  · exact ⟨c, by simp [State.modifyCothread, hi, hc], rfl⟩

theorem State.setPoint_request {id i : Nat} {c : Cothread} (pt : Point)
    (hc : s.cothreads id = some c) :
    ∃ d, (s.setPoint i pt).cothreads id = some d ∧ d.request = c.request :=
  State.modifyCothread_request (fun _ => rfl) hc

theorem State.started_request {id i : Nat} {c : Cothread} (w : Installing)
    (hc : s.cothreads id = some c) :
    ∃ d, (s.started i w).cothreads id = some d ∧ d.request = c.request :=
  State.setPoint_request (s := s) .running hc

theorem State.finishCothread_request {id i : Nat} {c : Cothread}
    (hc : s.cothreads id = some c) :
    ∃ d, (s.finishCothread i).cothreads id = some d ∧ d.request = c.request := by
  obtain ⟨d, hd, hdr⟩ := State.modifyCothread_request (s := monitorDeployRefreshRequest s) (i := i)
    (f := fun c => { c with notified := c.notified + 1 }) (fun _ => rfl) hc
  obtain ⟨d', hd', hdr'⟩ := State.modifyCothread_request (i := i)
    (s := monitorFinishDeployRequest s (some i))
    (f := fun c => { c with point := .ended, atEnd := some (false, s.deployResult) })
    (fun _ => rfl) hd
  exact ⟨d', hd', hdr'.trans hdr⟩

theorem finishTargeted_request {id i : Nat} {c : Cothread} {error : PcMonitorError}
    (hc : s.cothreads id = some c) :
    ∃ d, (finishTargeted env s i error).cothreads id = some d ∧ d.request = c.request := by
  rw [finishTargeted_eq]
  refine State.finishCothread_request ?_
  rw [(s.concluded_frame env error).1]
  exact hc

theorem Accept.request (hD : DeployInv P s) {call : CallId} (h : Accept P s call s') {id : Nat}
    {c : Cothread} (hc : s.cothreads id = some c) :
    ∃ d, s'.cothreads id = some d ∧ d.request = c.request := by
  have hspawn : ∀ t : State, t.cothreads = s.cothreads → t.spawned = s.spawned →
      ∃ d, t.spawn.cothreads id = some d ∧ d.request = c.request := by
    intro t hco hsp
    have hid : id ≠ s.spawned := fun h => by
      rw [hD.fresh id (by omega)] at hc
      exact absurd hc (by simp)
    exact ⟨c, by rw [State.spawn, hsp, hco]; exact (Function.update_of_ne hid _ _).trans hc, rfl⟩
  cases h with
  | accept => exact hspawn _ rfl rfl
  | acceptTargeted => exact hspawn _ rfl rfl
  | refuse => exact ⟨c, hc, rfl⟩
  | refuseTargeted => exact ⟨c, hc, rfl⟩

theorem Work.request (h : Work P env s s') {id : Nat} {c : Cothread}
    (hc : s.cothreads id = some c) :
    ∃ d, s'.cothreads id = some d ∧ d.request = c.request := by
  cases h with
  | select => exact State.setPoint_request _ hc
  | install => exact State.setPoint_request _ hc
  | serialise => exact ⟨c, hc, rfl⟩
  | start => exact State.started_request _ hc
  | startTargeted =>
      obtain ⟨d, hd, hdr⟩ := State.started_request _ hc
      obtain ⟨d', hd', hdr'⟩ := finishTargeted_request hd
      exact ⟨d', hd', hdr'.trans hdr⟩
  | finish => exact State.finishCothread_request hc
  | failTargeted => exact finishTargeted_request hc

theorem Answer.request {i : Nat} {answer : PicoVfs.Completion} (h : Answer s i answer s') {id : Nat}
    {c : Cothread} (hc : s.cothreads id = some c) :
    ∃ d, s'.cothreads id = some d ∧ d.request = c.request := by
  cases h with
  | intro => exact State.setPoint_request _ hc

theorem Internal.request (hD : DeployInv P s) (h : Internal P env s s') {id : Nat} {c : Cothread}
    (hc : s.cothreads id = some c) :
    ∃ d, s'.cothreads id = some d ∧ d.request = c.request := by
  cases h with
  | accept h => exact h.request hD hc
  | answer h => exact h.request hc
  | work h => exact h.request hc

theorem step_request (hD : DeployInv P s) {e : Event} (h : step P s e = some s') {id : Nat}
    (ha : s.Alive id) (ha' : s'.Alive id) : s'.deployRequest = s.deployRequest := by
  obtain ⟨c, hc, hca⟩ := ha
  obtain ⟨hD', d, hd, hdr⟩ := step_preserves hD
    (I := fun t => ∃ d, t.cothreads id = some d ∧ d.request = c.request) ⟨c, hc, rfl⟩
    (fun h => ⟨c, h.same.cothreads ▸ hc, rfl⟩)
    (fun t t' hDt ⟨d, hd, hdr⟩ ht =>
      (ht.request hDt hd).imp fun _ h => ⟨h.1, h.2.trans hdr⟩) h
  rw [← (hD'.alive id d hd ((State.alive_iff hd).mp ha')).request, hdr,
    (hD.alive id c hc hca).request]

/-- The two calls that ask for a deployment. -/
def IsDeployCall (msg : Message) : Prop :=
  CallId.ofNumber (msg.get 0) = some .deploy ∨
    CallId.ofNumber (msg.get 0) = some .deployToProtocon

/-- A deploy call made while a deployment is active does nothing. -/
theorem step_deployCall_of_active {ch : BitVec 32} {msg : Message}
    (hmsg : IsDeployCall msg) (hact : s.deployRequestActive = true)
    (h : step P s (.call ch msg env) = some s') : s' = s := by
  simp only [step] at h
  split at h
  · obtain ⟨⟨t, m⟩, ht, rfl⟩ := Option.map_eq_some_iff.mp h
    unfold monitorMainHandlePccall at ht
    rcases hmsg with hmsg | hmsg
    · simp only [hmsg] at ht
      refine (monitorCallDeployFirstHalf_accept ht).resolve_right fun hidle => ?_
      exact absurd (hidle.1.symm.trans hact) Bool.false_ne_true
    · simp only [hmsg] at ht
      refine (monitorCallDeployToProtocon_accept ht).resolve_right fun hidle => ?_
      exact absurd (hidle.1.symm.trans hact) Bool.false_ne_true
  · exact absurd h (by simp)

end

/-! ## Every run -/

/-- One deployment at a time, and never over a running protocon. -/
structure OneDeployment (P : Platform) (s : State) : Prop where
  /-- At most one deployment cothread exists. -/
  unique : ∀ id₁ id₂, s.Alive id₁ → s.Alive id₂ → id₁ = id₂
  /-- The request is active exactly while it exists. -/
  active : s.deployRequestActive = true ↔ ∃ id, s.Alive id
  /-- It works on the request it was spawned with, and no step it survives changes it. -/
  request : ∀ id c, s.cothreads id = some c → c.alive → s.deployRequest = c.request
  unchanged : ∀ e s' id, step P s e = some s' → s.Alive id → s'.Alive id →
    s'.deployRequest = s.deployRequest
  /-- The protocon it has selected is `PASSIVE`, up to the moment it is started. -/
  passive : ∀ id c w, s.cothreads id = some c → c.point = .installing w →
    s.lifecycle w.plan.pcId = .passive
  started : ∀ r ∈ s.starts, r.before = .passive
  /-- When it ended it had notified once, the request was inactive, and the result of a
  targeted deployment was ready and named its target. -/
  ended : ∀ id c, s.cothreads id = some c → ¬ c.alive →
    c.notified = 1 ∧ ∃ r, c.atEnd = some (false, r) ∧
      (c.request.targeted = true → r.ready = true ∧ r.targetPc = c.request.targetPc)
  /-- A deploy call made meanwhile changes neither the request nor the result. -/
  deployCall : ∀ ch msg env s', IsDeployCall msg → s.deployRequestActive = true →
    step P s (.call ch msg env) = some s' →
    s'.deployRequest = s.deployRequest ∧ s'.deployResult = s.deployResult

theorem oneDeployment {P : Platform} {s : State}
    (h : Reaches (step P) anyEvent (caMonitorInitStates P) s) : OneDeployment P s := by
  have hD := reaches_deployInv h
  exact
    { unique := hD.unique
      active := hD.active
      request := fun id c hc ha => (hD.alive id c hc ha).request.symm
      unchanged := fun e s' id hs ha ha' => step_request hD hs ha ha'
      passive := fun id c w hc hw => (hD.installing id c w hc hw).passive
      started := hD.starts
      ended := fun id c hc ha => ⟨(hD.ended id c hc ha).notified, (hD.ended id c hc ha).atEnd⟩
      deployCall := fun ch msg env s' hmsg hact hs => by
        rw [step_deployCall_of_active hmsg hact hs]
        exact ⟨rfl, rfl⟩ }

/-- A targeted deployment of protocon 0, up to its first wait in a data file. -/
def blockedRun : List Event :=
  [writePayloadOf [(0, 0x1008)], orchestratorCall .deployToProtocon [0, 0, 0] {}]

/-- The state it leaves. -/
def blockedState : State :=
  (run (step (smallPlatform 2)) (caMonitorInitStates (smallPlatform 2)) blockedRun).get
    (by decide +kernel)

/-- In the middle of a deployment the request is active. -/
theorem oneDeployment_blockedState :
    OneDeployment (smallPlatform 2) blockedState ∧ blockedState.deployRequestActive = true :=
  ⟨oneDeployment (reaches_of_run (runMeets_anyEvent _ _ blockedRun) (Option.some_get _).symm),
    by decide +kernel⟩

end Monitor
end Carrels
