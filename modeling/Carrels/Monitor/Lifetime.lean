/-
Which deployment a start belongs to.

A protocon is in use because a cothread started it, and the record of the start names the
cothread.  `Lifetime s s' new` says what may happen to the cothreads between two states in
which the records `new` were made: cothreads that have returned stay so, new ones take new
handles, and every record is by a cothread that was alive or is new.  A targeted deployment
starts its target and nothing else, and ends with that.
-/
import Carrels.Monitor.Result

namespace Carrels
namespace Monitor

open StepSystem Relation

/-- The targeted deployment that was under way in `s` has made the record `r`. -/
structure OwnStart (s s' : State) (r : StartRecord) : Prop where
  pcId : r.pcId = s.deployRequest.targetPc.toNat
  ended : ¬ s'.Deploying
  error : s.deployRequest.requestedPeerMask = 0 →
    s.deployRequest.targetPc.toNat < s.monitoredProtoconCount → s'.deployResult.error = .noError

structure Lifetime (s s' : State) (new : List StartRecord) : Prop where
  starts : s'.starts = new ++ s.starts
  inUse : ∀ p, s'.inUse p = true → s.inUse p = true ∨ ∃ r ∈ new, r.pcId = p
  who : ∀ r ∈ new, s.Alive r.cothread ∨ s.spawned ≤ r.cothread
  below : ∀ r ∈ new, r.cothread < s'.spawned
  spawned : s.spawned ≤ s'.spawned
  alive : ∀ id, s'.Alive id → s.Alive id ∨ s.spawned ≤ id
  request : ∀ id c, s.cothreads id = some c →
    ∃ d, s'.cothreads id = some d ∧ d.request = c.request
  count : s'.monitoredProtoconCount = s.monitoredProtoconCount
  own : s.Deploying → ∀ r ∈ new, s.Alive r.cothread → OwnStart s s' r

section

variable {P : Platform} {env : Env} {s s' t u : State} {new new' : List StartRecord}

theorem DeployInv.lt_spawned (hD : DeployInv P s) {id : Nat} (h : s.Alive id) : id < s.spawned := by
  by_contra hge
  obtain ⟨c, hc, -⟩ := h
  rw [hD.fresh id (Nat.le_of_not_lt hge)] at hc
  cases hc

/-- A cothread that is alive still works on the request it was spawned with. -/
theorem DeployInv.request_eq (hD : DeployInv P s) (hD' : DeployInv P s')
    (hrequest : ∀ id c, s.cothreads id = some c → ∃ d, s'.cothreads id = some d ∧
      d.request = c.request) {id : Nat} (h : s.Alive id) (h' : s'.Alive id) :
    s'.deployRequest = s.deployRequest := by
  obtain ⟨c, hc, hca⟩ := h
  obtain ⟨d, hd, hdr⟩ := hrequest id c hc
  rw [← (hD'.alive id d hd ((State.alive_iff hd).mp h')).request, hdr,
    (hD.alive id c hc hca).request]

/-- A cothread of a targeted deployment that is alive makes it under way. -/
theorem DeployInv.deploying_of_alive (hD : DeployInv P s) {id : Nat} {c : Cothread}
    (hc : s.cothreads id = some c) (ht : c.request.targeted = true) (h : s.Alive id) :
    s.Deploying := by
  refine ⟨hD.active.mpr ⟨id, h⟩, ?_⟩
  rw [← (hD.alive id c hc ((State.alive_iff hc).mp h)).request]
  exact ht

namespace Lifetime

theorem refl (s : State) : Lifetime s s [] where
  starts := rfl
  inUse _ h := .inl h
  who _ h := nomatch h
  below _ h := nomatch h
  spawned := Nat.le_refl _
  alive _ h := .inl h
  request _ c hc := ⟨c, hc, rfl⟩
  count := rfl
  own _ _ h := nomatch h

theorem of_eq (h : s' = s) : Lifetime s s' [] := h ▸ .refl s

/-- One after the other; what follows an ended deployment leaves its result. -/
theorem trans (hD : DeployInv P s) (hD' : DeployInv P t) (h₁ : Lifetime s t new)
    (h₂ : Lifetime t u new') (hresult : s.Deploying → ¬ t.Deploying → SameResult t u) :
    Lifetime s u (new' ++ new) where
  starts := by rw [h₂.starts, h₁.starts, List.append_assoc]
  inUse p hp := by
    rcases h₂.inUse p hp with hp | ⟨r, hr, hpc⟩
    · rcases h₁.inUse p hp with hp | ⟨r, hr, hpc⟩
      · exact .inl hp
      · exact .inr ⟨r, List.mem_append_right _ hr, hpc⟩
    · exact .inr ⟨r, List.mem_append_left _ hr, hpc⟩
  who r hr := by
    rcases List.mem_append.mp hr with hr | hr
    · rcases h₂.who r hr with halive | hge
      · exact h₁.alive _ halive
      · exact .inr (Nat.le_trans h₁.spawned hge)
    · exact h₁.who r hr
  below r hr := by
    rcases List.mem_append.mp hr with hr | hr
    · exact h₂.below r hr
    · exact Nat.lt_of_lt_of_le (h₁.below r hr) h₂.spawned
  spawned := Nat.le_trans h₁.spawned h₂.spawned
  alive id ha := by
    rcases h₂.alive id ha with ha | hge
    · exact h₁.alive id ha
    · exact .inr (Nat.le_trans h₁.spawned hge)
  request id c hc := by
    obtain ⟨d, hd, hdr⟩ := h₁.request id c hc
    obtain ⟨e, he, her⟩ := h₂.request id d hd
    exact ⟨e, he, her.trans hdr⟩
  count := h₂.count.trans h₁.count
  own hs r hr ha := by
    rcases List.mem_append.mp hr with hr | hr
    · have hlt := hD.lt_spawned ha
      have hat : t.Alive r.cothread :=
        (h₂.who r hr).resolve_right fun hge => absurd h₁.spawned (by omega)
      have hrequest := hD.request_eq hD' h₁.request ha hat
      have ht : t.Deploying := ⟨hD'.active.mpr ⟨_, hat⟩, hrequest ▸ hs.2⟩
      obtain ⟨hpc, hended, herror⟩ := h₂.own ht r hr hat
      rw [hrequest] at hpc herror
      rw [h₁.count] at herror
      exact ⟨hpc, hended, herror⟩
    · obtain ⟨hpc, hended, herror⟩ := h₁.own hs r hr ha
      have hsame := hresult hs hended
      refine ⟨hpc, fun hu => hended (hsame.deploying.mp hu), fun hmask hlt => ?_⟩
      rw [hsame.result]
      exact herror hmask hlt

end Lifetime

/-! ## Control actions -/

theorem Control.inUse {e : Event} (h : Control P s e s') {p : Nat} (hp : s'.inUse p = true) :
    s.inUse p = true := by
  have hset : ∀ {c : Nat} {l : Lifecycle}, s.inUse c = true ∨ l = .passive →
      s'.lifecycle = Function.update s.lifecycle c l → s.inUse p = true := by
    intro c l hc hl
    by_cases hpc : p = c
    · subst hpc
      refine hc.resolve_right fun hpassive => ?_
      rw [State.inUse_of_passive (by rw [hl, Function.update_self, hpassive])] at hp
      exact Bool.false_ne_true hp
    · have hsame : s'.lifecycle p = s.lifecycle p := by rw [hl, Function.update_of_ne hpc]
      rwa [← State.inUse_congr hsame]
  cases h with
  | idle | notify | flip | payload | faultStop => exact hp
  | setAcl =>
    rw [monitorCallSetVswitchAcl_frame] at hp
    exact hp
  | @stop _ _ _ c =>
    refine hset (c := c.toNat) (.inr rfl) ?_
    rw [State.stopAndRestored, monitorAclReleaseProtocon_frame]
    rfl
  | suspend _ _ hs => exact hset (.inl (State.inUse_iff.mpr (.inl hs))) rfl
  | resume _ _ hs => exact hset (.inl (State.inUse_iff.mpr (.inr hs))) rfl
  | faultRestore => exact hset (.inr rfl) rfl

theorem Control.count {e : Event} (h : Control P s e s') :
    s'.monitoredProtoconCount = s.monitoredProtoconCount := by
  cases h with
  | setAcl => rw [monitorCallSetVswitchAcl_frame]; rfl
  | stop =>
    rw [State.stopAndRestored, monitorAclReleaseProtocon_frame]
    rfl
  | _ => rfl

theorem Control.lifetime {e : Event} (h : Control P s e s') : Lifetime s s' [] where
  starts := h.same.starts
  inUse _ hp := .inl (h.inUse hp)
  who _ hr := nomatch hr
  below _ hr := nomatch hr
  spawned := Nat.le_of_eq h.same.spawned.symm
  alive id ha := .inl ((State.alive_congr h.same.cothreads id).mp ha)
  request _ c hc := ⟨c, h.same.cothreads ▸ hc, rfl⟩
  count := h.count
  own _ _ hr := nomatch hr

/-! ## The cothread -/

theorem applyPeers_zero (env : Env) (pcId : Nat) (peers : List Nat) (s : State) (m : PeerMasks) :
    applyPeers env pcId 0 peers s m = (s, .ok m) := by
  induction peers with
  | nil => rfl
  | cons peer peers ih =>
    rw [applyPeers]
    dsimp only
    have hbit : (0 : BitVec 32) &&& 1#32 <<< peer = 0 := BitVec.zero_and
    rw [if_pos hbit]
    exact ih

theorem State.applyAcl_noError (hmask : s.deployRequest.requestedPeerMask = 0)
    (hlt : s.deployRequest.targetPc.toNat < s.monitoredProtoconCount) :
    (s.applyAcl env).deployResult.error = .noError := by
  unfold State.applyAcl monitorAclApplyDeployment
  rw [hmask, if_neg (Nat.not_le.mpr hlt), applyPeers_zero]

/-- Only the cothread that runs changes, and it was alive. -/
theorem State.alive_of_others {id : Nat} {c : Cothread} (hc : s.cothreads id = some c)
    (ha : c.alive) (hothers : ∀ j, j ≠ id → s'.cothreads j = s.cothreads j) {j : Nat}
    (h : s'.Alive j) : s.Alive j := by
  by_cases hj : j = id
  · exact hj ▸ ⟨c, hc, ha⟩
  · obtain ⟨d, hd, hda⟩ := h
    exact ⟨d, (hothers j hj).symm.trans hd, hda⟩

theorem State.setPoint_others (s : State) (pt : Point) {id j : Nat} (hj : j ≠ id) :
    (s.setPoint id pt).cothreads j = s.cothreads j := Function.update_of_ne hj ..

theorem State.finishCothread_others (s : State) {id j : Nat} (hj : j ≠ id) :
    (s.finishCothread id).cothreads j = s.cothreads j := by
  refine (Function.update_of_ne hj ..).trans ?_
  exact Function.update_of_ne hj ..

theorem finishTargeted_others (env : Env) (s : State) (error : PcMonitorError) {id j : Nat}
    (hj : j ≠ id) : (finishTargeted env s id error).cothreads j = s.cothreads j := by
  rw [finishTargeted_eq, State.finishCothread_others _ hj, (s.concluded_frame env error).1]
  rfl

theorem finishTargeted_frame (env : Env) (s : State) (id : Nat) (error : PcMonitorError) :
    (finishTargeted env s id error).starts = s.starts ∧
      (finishTargeted env s id error).lifecycle = s.lifecycle ∧
      (finishTargeted env s id error).monitoredProtoconCount = s.monitoredProtoconCount := by
  rw [finishTargeted_eq, (s.concluded_frame env error).1]
  exact ⟨rfl, rfl, rfl⟩

theorem Work.alive (h : Work P env s s') {j : Nat} (ha : s'.Alive j) : s.Alive j := by
  cases h with
  | select hc hrun =>
    refine State.alive_of_others hc (not_ended_of_running hrun) (fun j hj => ?_) ha
    exact State.setPoint_others _ _ hj
  | install hc hw =>
    refine State.alive_of_others hc (not_ended_of_installing hw) (fun j hj => ?_) ha
    exact State.setPoint_others _ _ hj
  | serialise => exact ha
  | start hc hw =>
    refine State.alive_of_others hc (not_ended_of_installing hw) (fun j hj => ?_) ha
    exact State.setPoint_others _ _ hj
  | startTargeted hc hw =>
    refine State.alive_of_others hc (not_ended_of_installing hw) (fun j hj => ?_) ha
    rw [finishTargeted_others env _ _ hj]
    exact State.setPoint_others _ _ hj
  | finish hc hrun =>
    refine State.alive_of_others hc (not_ended_of_running hrun) (fun j hj => ?_) ha
    exact State.finishCothread_others _ hj
  | failTargeted hc hrun =>
    refine State.alive_of_others hc (not_ended_of_running hrun) (fun j hj => ?_) ha
    exact finishTargeted_others env _ _ hj

theorem Work.lifetime_of_same (h : Work P env s s') (hstarts : s'.starts = s.starts)
    (hlifecycle : s'.lifecycle = s.lifecycle)
    (hcount : s'.monitoredProtoconCount = s.monitoredProtoconCount) : Lifetime s s' [] where
  starts := hstarts
  inUse p hp := .inl ((State.inUse_congr (congrFun hlifecycle p)).symm.trans hp)
  who _ hr := nomatch hr
  below _ hr := nomatch hr
  spawned := Nat.le_of_eq h.spawned_eq.symm
  alive _ ha := .inl (h.alive ha)
  request _ _ hc := h.request hc
  count := hcount
  own _ _ hr := nomatch hr

/-- The record that a start makes. -/
def State.startRecord (s : State) (id : Nat) (w : Installing) : StartRecord :=
  { cothread := id, pcId := w.plan.pcId, before := s.lifecycle w.plan.pcId, image := s.mem
    loaded := w.loaded, patches := w.patches, plan := w.plan
    request := s.xrtReq w.plan.baseSerialisedService }

theorem Work.lifetime_of_start (hD : DeployInv P s) (h : Work P env s s') {id : Nat}
    {w : Installing} (ha : s.Alive id) (hstarts : s'.starts = s.startRecord id w :: s.starts)
    (hlifecycle : s'.lifecycle = Function.update s.lifecycle w.plan.pcId .active)
    (hcount : s'.monitoredProtoconCount = s.monitoredProtoconCount)
    (hown : s.Deploying → OwnStart s s' (s.startRecord id w)) :
    Lifetime s s' [s.startRecord id w] where
  starts := hstarts
  inUse p hp := by
    by_cases hpc : p = w.plan.pcId
    · exact .inr ⟨_, List.mem_singleton_self _, hpc.symm⟩
    · have hsame : s'.lifecycle p = s.lifecycle p := by rw [hlifecycle, Function.update_of_ne hpc]
      exact .inl (State.inUse_congr hsame ▸ hp)
  who r hr := by
    obtain rfl := List.mem_singleton.mp hr
    exact .inl ha
  below r hr := by
    obtain rfl := List.mem_singleton.mp hr
    rw [h.spawned_eq]
    exact hD.lt_spawned ha
  spawned := Nat.le_of_eq h.spawned_eq.symm
  alive _ ha := .inl (h.alive ha)
  request _ _ hc := h.request hc
  count := hcount
  own hs r hr _ := by
    obtain rfl := List.mem_singleton.mp hr
    exact hown hs

theorem Work.lifetime (hD : DeployInv P s) (h : Work P env s s') :
    ∃ new, Lifetime s s' new := by
  have hwork := h
  cases h with
  | select | install | serialise | finish =>
    exact ⟨[], hwork.lifetime_of_same rfl rfl rfl⟩
  | @failTargeted id _ error =>
    obtain ⟨hstarts, hlifecycle, hcount⟩ := finishTargeted_frame env s id error
    exact ⟨[], hwork.lifetime_of_same hstarts hlifecycle hcount⟩
  | @start id c w hc hw hb =>
    refine ⟨_, hwork.lifetime_of_start hD ⟨c, hc, not_ended_of_installing hw⟩ rfl rfl rfl
      fun hs => ?_⟩
    exact absurd ((hD.installing id c w hc hw).branch.mpr hs.2) hb
  | @startTargeted id c w hc hw hb =>
    obtain ⟨hstarts, hlifecycle, hcount⟩ := finishTargeted_frame env (s.started id w) id .noError
    refine ⟨_, hwork.lifetime_of_start hD ⟨c, hc, not_ended_of_installing hw⟩ hstarts hlifecycle
      hcount fun hs => ⟨(hD.installing id c w hc hw).target hb, fun h => Bool.false_ne_true h.1,
        fun hmask hlt => ?_⟩⟩
    show ((s.started id w).concluded env .noError).deployResult.error = .noError
    rw [State.concluded, if_pos rfl]
    exact State.applyAcl_noError (s := (s.started id w).setResultError .noError) hmask hlt

theorem works_lifetime (hD : DeployInv P s) (h : ReflTransGen (Work P env) s s') :
    ∃ new, Lifetime s s' new := by
  induction h with
  | refl => exact ⟨[], .refl s⟩
  | @tail t u hworks hwork ih =>
    obtain ⟨new, h₁⟩ := ih
    obtain ⟨hadvance, hDt⟩ := works_advance hD hworks
    obtain ⟨new', h₂⟩ := hwork.lifetime hDt
    exact ⟨new' ++ new, h₁.trans hD hDt h₂ fun _ hended =>
      (hwork.advance hDt).sameResult hended⟩

/-! ## The calls -/

theorem Accept.lifetime {id : CallId} (hD : DeployInv P s) (h : Accept P s id s') :
    Lifetime s s' [] := by
  have hidle : s.deployRequestActive = false := by
    cases h with
    | accept hidle | acceptTargeted hidle | refuse hidle | refuseTargeted hidle => exact hidle
  have hlifecycle : s'.lifecycle = s.lifecycle := by cases h <;> rfl
  have halive : ∀ j, s'.Alive j → s.Alive j ∨ s.spawned ≤ j := by
    intro j hj
    by_cases hlt : j < s.spawned
    · refine .inl ?_
      have hsame : s'.cothreads j = s.cothreads j := by
        cases h with
        | accept | acceptTargeted => exact Function.update_of_ne (Nat.ne_of_lt hlt) ..
        | refuse | refuseTargeted => rfl
      obtain ⟨c, hc, ha⟩ := hj
      exact ⟨c, hsame.symm.trans hc, ha⟩
    · exact .inr (Nat.le_of_not_lt hlt)
  have hspawned : s.spawned ≤ s'.spawned := by
    cases h with
    | accept | acceptTargeted => exact Nat.le_succ _
    | refuse | refuseTargeted => exact Nat.le_refl _
  have hframe : s'.starts = s.starts ∧ s'.monitoredProtoconCount = s.monitoredProtoconCount := by
    cases h <;> exact ⟨rfl, rfl⟩
  exact
    { starts := hframe.1
      inUse := fun p hp => .inl ((State.inUse_congr (congrFun hlifecycle p)).symm.trans hp)
      who := fun _ hr => nomatch hr
      below := fun _ hr => nomatch hr
      spawned := hspawned
      alive := halive
      request := fun _ _ hc => h.request hD hc
      count := hframe.2
      own := fun _ _ hr => nomatch hr }

theorem Answer.lifetime {id : Nat} {answer : PicoVfs.Completion} (h : Answer s id answer s') :
    Lifetime s s' [] where
  starts := by cases h with | intro => rfl
  inUse p hp := by
    cases h with
    | intro => exact .inl hp
  who _ hr := nomatch hr
  below _ hr := nomatch hr
  spawned := by cases h with | intro => exact Nat.le_refl _
  alive j ha := by
    cases h with
    | intro hc hw =>
      refine .inl (State.alive_of_others hc (not_ended_of_installing hw) (fun j hj => ?_) ha)
      exact State.setPoint_others _ _ hj
  request _ _ hc := h.request hc
  count := by cases h with | intro => rfl
  own _ _ hr := nomatch hr

theorem step_lifetime {e : Event} (hD : DeployInv P s) (h : step P s e = some s') :
    ∃ new, Lifetime s s' new := by
  obtain hcontrol | ⟨id, c, env, t, rfl, hanswer, hwork⟩ |
      ⟨ch, msg, env, id, t, rfl, -, haccept, hwork⟩ := step_cases hD.branchOk h
  · exact ⟨[], hcontrol.lifetime⟩
  · obtain ⟨new, hnew⟩ := works_lifetime (hanswer.deployInv hD) hwork
    exact ⟨new ++ [], hanswer.lifetime.trans hD (hanswer.deployInv hD) hnew fun hs hended =>
      absurd (hanswer.sameResult.deploying.mpr hs) hended⟩
  · obtain ⟨new, hnew⟩ := works_lifetime (haccept.deployInv hD) hwork
    have hidle : ¬ s.Deploying := by
      intro hs
      cases haccept with
      | accept hidle | acceptTargeted hidle | refuse hidle | refuseTargeted hidle =>
        exact Bool.false_ne_true (hidle.symm.trans hs.1)
    refine ⟨new ++ [], (haccept.lifetime hD).trans hD (haccept.deployInv hD) hnew fun hs => ?_⟩
    exact absurd hs hidle

/-! ### A targeted deploy call -/

/-- A targeted deployment of `pcId` has been accepted: it has a cothread of its own, which may
have made the records `new`. -/
structure AcceptedCall (P : Platform) (s s' : State) (pcId : BitVec 32)
    (new : List StartRecord) : Prop where
  lifetime : Lifetime s s' new
  target : pcId.toNat < P.numPc
  spawned : s'.spawned = s.spawned + 1
  cothread : ∃ c, s'.cothreads s.spawned = some c ∧ c.request.targeted = true
  own : ∀ r ∈ new, r.cothread = s.spawned ∧ r.pcId = pcId.toNat ∧ ¬ s'.Deploying

/-- It has been accepted without peers. -/
structure WithoutPeers (s' : State) (new : List StartRecord) : Prop where
  mask : s'.Deploying → s'.deployRequest.requestedPeerMask = 0
  error : new ≠ [] → s'.deployResult.error = .noError

theorem resolvePeers_zero {pcId mask : BitVec 64} (h : resolvePeers P pcId 0 0 = some mask) :
    mask = 0 := by
  simpa [resolvePeers] using h.symm

theorem rejected_lifetime {pcId given all : BitVec 64} {m : Message} (hD : DeployInv P s)
    (h : monitorCallDeployToProtocon P env s pcId given all = some (s', m))
    (hlabel : m.label ≠ .noError) : Lifetime s s' [] := by
  obtain ⟨-, rfl, -⟩ | ⟨mask, ⟨-, -, -, hidle⟩, ⟨-, -, rfl⟩ | ⟨-, hok, -⟩⟩ :=
    monitorCallDeployToProtocon_cases h
  · exact .refl s'
  · exact (Accept.refuseTargeted (P := P) hidle).lifetime hD
  · exact absurd hok hlabel

theorem accepted_lifetime {pcId : BitVec 32} {given all : BitVec 64} {m : Message}
    (hD : DeployInv P s)
    (h : monitorCallDeployToProtocon P env s (pcId.zeroExtend 64) given all = some (s', m))
    (hlabel : m.label = .noError) (hcount : s.monitoredProtoconCount = P.numPc) :
    ∃ new, AcceptedCall P s s' pcId new ∧ (given = 0 → all = 0 → WithoutPeers s' new) := by
  have hpcId : ((pcId.zeroExtend 64).truncate 32 : BitVec 32) = pcId := by simp
  obtain ⟨-, -, hrejected⟩ | ⟨mask, ⟨hlt, hpassive, hmask, hidle⟩, ⟨-, hrejected, -⟩ |
      ⟨-, -, hwork⟩⟩ := monitorCallDeployToProtocon_cases h
  · exact absurd hlabel hrejected
  · exact absurd hlabel hrejected
  have haccept := Accept.acceptTargeted (P := P) hidle hlt hpassive hmask
  have hDt := haccept.deployInv hD
  have hs : ¬ s.Deploying := fun hs => Bool.false_ne_true (hidle.symm.trans hs.1)
  have hspawned : s'.spawned = s.spawned + 1 := spawned_eq_of_work hwork
  have htarget : pcId.toNat < P.numPc := by
    have hbits := pcId.isLt
    rw [BitVec.zeroExtend, BitVec.toNat_setWidth] at hlt
    omega
  -- The cothread of the call is the only one that is alive.
  have hnew : (s.acceptTargeted (pcId.zeroExtend 64) mask).spawn.cothreads s.spawned =
      some { request := (s.acceptTargeted (pcId.zeroExtend 64) mask).deployRequest
             point := .running } := State.cothreads_spawn _
  have halive : (s.acceptTargeted (pcId.zeroExtend 64) mask).spawn.Alive s.spawned :=
    ⟨_, hnew, rfl⟩
  have hdeploying : (s.acceptTargeted (pcId.zeroExtend 64) mask).spawn.Deploying := ⟨rfl, rfl⟩
  obtain ⟨new, hlife⟩ := works_lifetime hDt hwork
  obtain ⟨hadvance, -⟩ := works_advance hDt hwork
  have hwho : ∀ r ∈ new, (s.acceptTargeted (pcId.zeroExtend 64) mask).spawn.Alive r.cothread := by
    intro r hr
    refine (hlife.who r hr).resolve_right fun hge => ?_
    have hbelow := hlife.below r hr
    rw [hspawned] at hbelow
    exact absurd hge (Nat.not_le.mpr hbelow)
  have hown := fun r hr => hlife.own hdeploying r hr (hwho r hr)
  refine ⟨new, ⟨?_, htarget, hspawned, ?_, fun r hr => ⟨?_, ?_, (hown r hr).ended⟩⟩,
    fun hgiven hall => ⟨fun hs' => ?_, fun hne => ?_⟩⟩
  · rw [← List.append_nil new]
    exact (haccept.lifetime hD).trans hD hDt hlife fun hs' => absurd hs' hs
  · obtain ⟨d, hd, hdr⟩ := hlife.request _ _ hnew
    exact ⟨d, hd, by rw [hdr]; rfl⟩
  · exact hDt.unique _ _ (hwho r hr) halive
  · rw [(hown r hr).pcId]
    exact congrArg BitVec.toNat hpcId
  · cases hadvance with
    | same hsame =>
      rw [hsame.request hdeploying]
      rw [hgiven, hall] at hmask
      obtain rfl := resolvePeers_zero hmask
      rfl
    | concluded hconcluded => exact absurd hs' hconcluded.ended
  · obtain ⟨r, hr⟩ := List.exists_mem_of_ne_nil new hne
    rw [hgiven, hall] at hmask
    obtain rfl := resolvePeers_zero hmask
    refine (hown r hr).error rfl ?_
    show ((pcId.zeroExtend 64).truncate 32 : BitVec 32).toNat < s.monitoredProtoconCount
    rw [hpcId, hcount]
    exact htarget

end

end Monitor
end Carrels
