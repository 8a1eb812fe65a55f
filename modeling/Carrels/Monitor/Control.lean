/-
Stop, restore, suspend, resume and query (`request/stop.c`, `request/suspend.c`,
`request/resume.c`, `request/query.c`, `request/support.c`) and the fault handler
(`fault/fault.c`).

A handler is `none` when the monitor halts in it.  Protocon ids and channels are the
32-bit values the handlers compute with.
-/
import Carrels.Monitor.Network

namespace Carrels
namespace Monitor

open ByteMemory

/-- `monitor_main_load_trustedlo`.  The loader program and the trampoline are reloaded
from constants of the monitor's image; the container image is cleared. -/
def monitorMainLoadTrustedlo (s : State) (cid : Nat) : State :=
  { s with
    mem := fill s.mem (containerImage cid) orcMonitorRegionSize 0
    loads := cid :: s.loads }

/-- The part of `monitor_call_restore_protocon` for a valid id. -/
def State.restoreProtocon (s : State) (cid : Nat) : State :=
  monitorMainLoadTrustedlo (s.setProtoconAsAvailable cid) cid

/-- `monitor_call_restore_protocon` -/
def monitorCallRestoreProtocon (s : State) (ch : BitVec 32) : State × Message :=
  let cid := monitorGetPcidFromCh ch
  let s := if cid = invalidPcId then s else s.restoreProtocon cid.toNat
  (s.notifyOrchestrator, { label := .noError })

/-- `monitor_call_stop_and_restore_protocon` -/
def monitorCallStopAndRestoreProtocon (P : Platform) (env : Env) (s : State)
    (targetPdId : BitVec 32) : Option (State × Message) :=
  if pcChildMaxNum ≤ targetPdId.toNat then some (s, { label := .invalidPcId })
  else do
    let s := monitorAclReleaseProtocon s env targetPdId.toNat
    let s ← s.pdStop P targetPdId.toNat
    some (monitorCallRestoreProtocon s (targetPdId + protoconBaseChannel))

/-- `monitor_call_suspend_protocon` -/
def monitorCallSuspendProtocon (P : Platform) (s : State) (targetPdId : BitVec 32) :
    Option (State × Message) :=
  if pcChildMaxNum ≤ targetPdId.toNat then some (s, { label := .invalidPcId })
  else
    let cid := monitorGetPcidFromCh (targetPdId + protoconBaseChannel)
    let s' :=
      if cid = invalidPcId then some s
      else if !s.checkLifecycleState cid.toNat .active then some s
      else (s.setProtoconAsSuspended cid.toNat).pdStop P targetPdId.toNat
    s'.map fun s => (s.notifyOrchestrator, { label := .noError })

/-- `monitor_call_resume_protocon` -/
def monitorCallResumeProtocon (P : Platform) (s : State) (targetPdId : BitVec 32) :
    Option (State × Message) :=
  if pcChildMaxNum ≤ targetPdId.toNat then some (s, { label := .invalidPcId })
  else
    let cid := monitorGetPcidFromCh (targetPdId + protoconBaseChannel)
    let s' :=
      if cid = invalidPcId then some s
      else if !s.checkLifecycleState cid.toNat .suspended then some s
      else (s.pdResume P targetPdId.toNat).map (·.setProtoconAsInstantiated cid.toNat)
    s'.map fun s => (s.notifyOrchestrator, { label := .noError })

/-- `monitor_call_backup_protocon_loading_context`.  The contexts are data of the
loader; for a channel outside the protocons' range the destination is null. -/
def monitorCallBackupProtoconLoadingContext (s : State) (ch : BitVec 32) :
    Option (State × Message) :=
  if pcChildMaxNum ≤ (monitorGetPcidFromCh ch).toNat then none
  else some (s, { label := .noError })

/-- `monitor_call_list_protocons` -/
def monitorCallListProtocons (s : State) : State × Message := (s, { label := .noError })

/-- The loop of `monitor_call_query_protocons` over the ids that are left. -/
def queryBitmap (s : State) (selfId : BitVec 32) : List Nat → BitVec 64 → BitVec 64
  | [], bitmap => bitmap
  | i :: rest, bitmap =>
    queryBitmap s selfId rest
      (if s.inUse i && i != selfId.toNat then bitmap ||| 1#64 <<< i else bitmap)

/-- `monitor_call_query_protocons` -/
def monitorCallQueryProtocons (s : State) (ch : BitVec 32) : State × Message :=
  let selfId := monitorGetPcidFromCh ch
  (s, { label := .noError
        mr := [queryBitmap s selfId (List.range pcChildMaxNum) 0, selfId.zeroExtend 64] })

theorem has_queryBitmap (s : State) (selfId : BitVec 32) {ids : List Nat} {bitmap : BitVec 64}
    (hids : ∀ i ∈ ids, i < 64) (p : Nat) :
    BitMask.Has (queryBitmap s selfId ids bitmap) p ↔
      BitMask.Has bitmap p ∨ (p ∈ ids ∧ s.inUse p = true ∧ p ≠ selfId.toNat) := by
  induction ids generalizing bitmap with
  | nil => simp [queryBitmap]
  | cons i rest ih =>
    rw [queryBitmap, ih fun j hj => hids j (List.mem_cons_of_mem i hj), List.mem_cons]
    have hi := hids i List.mem_cons_self
    by_cases hcheck : (s.inUse i && i != selfId.toNat) = true
    · rw [if_pos hcheck, BitMask.has_or_bit hi]
      rw [Bool.and_eq_true, bne_iff_ne] at hcheck
      constructor
      · rintro ((hp | rfl) | hp)
        · exact .inl hp
        · exact .inr ⟨.inl rfl, hcheck⟩
        · exact .inr ⟨.inr hp.1, hp.2⟩
      · rintro (hp | ⟨rfl | hp, hinUse⟩)
        · exact .inl (.inl hp)
        · exact .inl (.inr rfl)
        · exact .inr ⟨hp, hinUse⟩
    · rw [if_neg hcheck]
      rw [Bool.and_eq_true, bne_iff_ne] at hcheck
      constructor
      · rintro (hp | hp)
        · exact .inl hp
        · exact .inr ⟨.inr hp.1, hp.2⟩
      · rintro (hp | ⟨rfl | hp, hinUse⟩)
        · exact .inl hp
        · exact absurd hinUse hcheck
        · exact .inr ⟨hp, hinUse⟩

/-- The orchestrator is told of every protocon that is in use. -/
theorem monitorCallQueryProtocons_inUse {s : State} {p : Nat} (hp : p < pcChildMaxNum) :
    BitMask.Has ((monitorCallQueryProtocons s orchestratorChannel).2.get 0) p ↔
      s.inUse p = true := by
  have hself : monitorGetPcidFromCh orchestratorChannel = invalidPcId := by decide
  refine (has_queryBitmap s _ (fun i hi => ?_) p).trans ?_
  · exact Nat.lt_trans (List.mem_range.mp hi) (by decide)
  · rw [hself]
    constructor
    · rintro (h | h)
      · exact absurd h (BitMask.not_has_zero p)
      · exact h.2.1
    · refine fun h => .inr ⟨List.mem_range.mpr hp, h, Nat.ne_of_lt (Nat.lt_trans hp ?_)⟩
      decide

/-- The label of a fault message. -/
inductive FaultLabel
  | vmFault | other
  deriving DecidableEq

/-- The fault handler goes on to restore the child (`notify_flag`). -/
def notifyFlag (label : FaultLabel) (ip address : BitVec 64) : Bool :=
  label = .vmFault && ip ||| address != 0

/-- `monitor_main_handle_fault` -/
def monitorMainHandleFault (P : Platform) (s : State) (child : Nat) (label : FaultLabel)
    (ip address : BitVec 64) : Option State := do
  let s ← s.pdStop P child
  if !notifyFlag label ip address then some s
  else
    some (monitorCallRestoreProtocon s.notifyOrchestrator
      (BitVec.ofNat 32 child + protoconBaseChannel)).1

/-! ## Ids and channels -/

/-- The id a protocon's channel stands for, for an id below the bound of the arrays. -/
theorem monitorGetPcidFromCh_add {i : BitVec 32} (hi : i.toNat < pcChildMaxNum) :
    monitorGetPcidFromCh (i + protoconBaseChannel) = i := by
  have hbase : protoconBaseChannel.toNat = 24 := rfl
  have htop : (protoconBaseChannel + BitVec.ofNat 32 pcChildMaxNum).toNat = 40 := rfl
  have hsum : (i + protoconBaseChannel).toNat = i.toNat + 24 := by
    rw [BitVec.toNat_add, hbase]
    unfold pcChildMaxNum at hi
    omega
  unfold monitorGetPcidFromCh
  rw [if_neg, BitVec.add_sub_cancel]
  rw [BitVec.lt_def, BitVec.le_def, hsum, hbase, htop]
  unfold pcChildMaxNum at hi
  omega

theorem ne_invalidPcId {i : BitVec 32} (hi : i.toNat < pcChildMaxNum) : i ≠ invalidPcId := by
  intro h
  rw [h] at hi
  exact absurd hi (by decide)

/-- The id of a protocon that calls on its own channel. -/
theorem monitorGetPcidFromCh_channel {i : Nat} (hi : i < pcChildMaxNum) :
    (monitorGetPcidFromCh (protoconBaseChannel + BitVec.ofNat 32 i)).toNat = i := by
  have hof : (BitVec.ofNat 32 i).toNat = i := by
    rw [BitVec.toNat_ofNat]
    unfold pcChildMaxNum at hi
    omega
  rw [BitVec.add_comm, monitorGetPcidFromCh_add (by rwa [hof]), hof]

/-! ## What each handler does -/

theorem State.pdStop_eq_some {P : Platform} {s s' : State} {c : Nat} :
    s.pdStop P c = some s' ↔ P.hasTcb c = true ∧ s' = s.stopThread c := by
  unfold State.pdStop
  split
  next h => simp [h, eq_comm]
  next h => simp [h]

theorem State.pdResume_eq_some {P : Platform} {s s' : State} {c : Nat} :
    s.pdResume P c = some s' ↔ P.hasTcb c = true ∧ s' = s.runThread c := by
  unfold State.pdResume
  split
  next h => simp [h, eq_comm]
  next h => simp [h]

theorem monitorCallRestoreProtocon_add {s : State} {i : BitVec 32}
    (hi : i.toNat < pcChildMaxNum) :
    monitorCallRestoreProtocon s (i + protoconBaseChannel) =
      ((s.restoreProtocon i.toNat).notifyOrchestrator, { label := .noError }) := by
  unfold monitorCallRestoreProtocon
  simp only [monitorGetPcidFromCh_add hi, if_neg (ne_invalidPcId hi)]

/-- A protocon is stopped and made available again, with its pairs closed. -/
def State.stopAndRestored (s : State) (env : Env) (c : Nat) : State :=
  (((monitorAclReleaseProtocon s env c).stopThread c).restoreProtocon c).notifyOrchestrator

/-- A faulting protocon is stopped and made available again. -/
def State.faultRestored (s : State) (c : Nat) : State :=
  ((s.stopThread c).notifyOrchestrator.restoreProtocon c).notifyOrchestrator

def State.suspended (s : State) (c : Nat) : State :=
  ((s.setProtoconAsSuspended c).stopThread c).notifyOrchestrator

def State.resumed (s : State) (c : Nat) : State :=
  ((s.runThread c).setProtoconAsInstantiated c).notifyOrchestrator

theorem monitorCallStopAndRestoreProtocon_cases {P : Platform} {env : Env} {s s' : State}
    {i : BitVec 32} {m : Message}
    (h : monitorCallStopAndRestoreProtocon P env s i = some (s', m)) :
    (pcChildMaxNum ≤ i.toNat ∧ s' = s ∧ m = { label := .invalidPcId }) ∨
      (i.toNat < pcChildMaxNum ∧ P.hasTcb i.toNat = true ∧
        s' = s.stopAndRestored env i.toNat ∧ m = { label := .noError }) := by
  unfold monitorCallStopAndRestoreProtocon at h
  split at h
  next hge =>
    rw [Option.some.injEq, Prod.mk.injEq] at h
    exact Or.inl ⟨hge, h.1.symm, h.2.symm⟩
  next hlt =>
    obtain ⟨t, ht, h⟩ := Option.bind_eq_some_iff.mp h
    obtain ⟨htcb, rfl⟩ := State.pdStop_eq_some.mp ht
    rw [monitorCallRestoreProtocon_add (by omega), Option.some.injEq, Prod.mk.injEq] at h
    exact Or.inr ⟨by omega, htcb, h.1.symm, h.2.symm⟩

/-- What a call does that changes a protocon in one state of its life, and otherwise only
notifies. -/
theorem lifecycleCall_cases {s s' : State} {i : BitVec 32} {m : Message}
    {required : Lifecycle} {change : Nat → Option State}
    (h : (if pcChildMaxNum ≤ i.toNat then some (s, { label := .invalidPcId })
      else
        let cid := monitorGetPcidFromCh (i + protoconBaseChannel)
        let t :=
          if cid = invalidPcId then some s
          else if !s.checkLifecycleState cid.toNat required then some s
          else change cid.toNat
        t.map fun t => (t.notifyOrchestrator, ({ label := .noError } : Message))) = some (s', m)) :
    (pcChildMaxNum ≤ i.toNat ∧ s' = s ∧ m = { label := .invalidPcId }) ∨
      (i.toNat < pcChildMaxNum ∧ m = { label := .noError } ∧
        ((s.lifecycle i.toNat ≠ required ∧ s' = s.notifyOrchestrator) ∨
          (s.lifecycle i.toNat = required ∧
            ∃ t, change i.toNat = some t ∧ s' = t.notifyOrchestrator))) := by
  split at h
  next hge =>
    rw [Option.some.injEq, Prod.mk.injEq] at h
    exact Or.inl ⟨hge, h.1.symm, h.2.symm⟩
  next hlt =>
    have hi : i.toNat < pcChildMaxNum := by omega
    obtain ⟨t, ht, h⟩ := Option.map_eq_some_iff.mp h
    rw [Prod.mk.injEq] at h
    simp only [monitorGetPcidFromCh_add hi, if_neg (ne_invalidPcId hi)] at ht
    refine Or.inr ⟨hi, h.2.symm, ?_⟩
    by_cases hstate : s.lifecycle i.toNat = required
    · rw [if_neg (by simp [State.checkLifecycleState, hstate])] at ht
      exact Or.inr ⟨hstate, t, ht, h.1.symm⟩
    · rw [if_pos (by simp [State.checkLifecycleState, hstate]), Option.some.injEq] at ht
      exact Or.inl ⟨hstate, by rw [ht]; exact h.1.symm⟩

/-- A suspend call suspends an `ACTIVE` protocon, and otherwise only notifies. -/
theorem monitorCallSuspendProtocon_cases {P : Platform} {s s' : State} {i : BitVec 32}
    {m : Message} (h : monitorCallSuspendProtocon P s i = some (s', m)) :
    (pcChildMaxNum ≤ i.toNat ∧ s' = s ∧ m = { label := .invalidPcId }) ∨
      (i.toNat < pcChildMaxNum ∧ m = { label := .noError } ∧
        ((s.lifecycle i.toNat ≠ .active ∧ s' = s.notifyOrchestrator) ∨
          (s.lifecycle i.toNat = .active ∧ P.hasTcb i.toNat = true ∧
            s' = s.suspended i.toNat))) := by
  rw [monitorCallSuspendProtocon] at h
  obtain hrange | ⟨hi, hm, hidle | ⟨hactive, t, hstop, rfl⟩⟩ :=
    @lifecycleCall_cases s s' i m .active
      (fun c => (s.setProtoconAsSuspended c).pdStop P i.toNat) h
  · exact .inl hrange
  · exact .inr ⟨hi, hm, .inl hidle⟩
  · obtain ⟨htcb, rfl⟩ := State.pdStop_eq_some.mp hstop
    exact .inr ⟨hi, hm, .inr ⟨hactive, htcb, rfl⟩⟩

/-- A resume call resumes a `SUSPENDED` protocon, and otherwise only notifies. -/
theorem monitorCallResumeProtocon_cases {P : Platform} {s s' : State} {i : BitVec 32}
    {m : Message} (h : monitorCallResumeProtocon P s i = some (s', m)) :
    (pcChildMaxNum ≤ i.toNat ∧ s' = s ∧ m = { label := .invalidPcId }) ∨
      (i.toNat < pcChildMaxNum ∧ m = { label := .noError } ∧
        ((s.lifecycle i.toNat ≠ .suspended ∧ s' = s.notifyOrchestrator) ∨
          (s.lifecycle i.toNat = .suspended ∧ P.hasTcb i.toNat = true ∧
            s' = s.resumed i.toNat))) := by
  rw [monitorCallResumeProtocon] at h
  obtain hrange | ⟨hi, hm, hidle | ⟨hsuspended, t, hresume, rfl⟩⟩ :=
    @lifecycleCall_cases s s' i m .suspended
      (fun c => (s.pdResume P i.toNat).map (·.setProtoconAsInstantiated c)) h
  · exact .inl hrange
  · exact .inr ⟨hi, hm, .inl hidle⟩
  · obtain ⟨u, hu, rfl⟩ := Option.map_eq_some_iff.mp hresume
    obtain ⟨htcb, rfl⟩ := State.pdResume_eq_some.mp hu
    exact .inr ⟨hi, hm, .inr ⟨hsuspended, htcb, rfl⟩⟩

/-- A fault stops the thread; one with `notify_flag` also restores the protocon, without
releasing its pairs. -/
theorem monitorMainHandleFault_cases {P : Platform} {s s' : State} {child : Nat}
    {label : FaultLabel} {ip address : BitVec 64} (hchild : child < pcChildMaxNum)
    (h : monitorMainHandleFault P s child label ip address = some s') :
    P.hasTcb child = true ∧
      ((notifyFlag label ip address = false ∧ s' = s.stopThread child) ∨
        (notifyFlag label ip address = true ∧ s' = s.faultRestored child)) := by
  have hof : (BitVec.ofNat 32 child).toNat = child := by
    rw [BitVec.toNat_ofNat]
    unfold pcChildMaxNum at hchild
    omega
  obtain ⟨t, ht, h⟩ := Option.bind_eq_some_iff.mp h
  obtain ⟨htcb, rfl⟩ := State.pdStop_eq_some.mp ht
  refine ⟨htcb, ?_⟩
  cases hflag : notifyFlag label ip address with
  | false =>
      rw [hflag] at h
      exact Or.inl ⟨rfl, (Option.some.inj h).symm⟩
  | true =>
      rw [hflag, monitorCallRestoreProtocon_add (by rwa [hof]), hof] at h
      exact Or.inr ⟨rfl, (Option.some.inj h).symm⟩

end Monitor
end Carrels
