/-
A deployment is completed by its own result.

A targeted deployment is pending from its command on: its loader reads the file, the monitor
accepts it and concludes it, and a notification makes the orchestrator read the result.  The
result of the deployment before it stays ready until the monitor accepts the next one, and
every notification looks alike.  `Stage` follows the pending deployment; a run stays in it as
long as no notification is taken while the file of a deployment is still being read and an
older result is ready.
-/
import Mathlib.Data.List.Nodup
import Carrels.Host.State
import Carrels.Monitor.Lifetime

namespace Carrels
namespace Host

open Monitor (Platform Env Message CallId DeployInv Advance Lifetime StartRecord
  orchestratorChannel)
open Orchestrator (Config Port DeployStep QuietMessage deployResultMessage
  deployToProtoconMessage)
open ByteMemory StepSystem

/-! ## The statement -/

/-- The deployment of `a` has not been completed: it is the pending one, and its result is
still to come or waits to be read with a notification outstanding. -/
structure Outstanding (s : System) (a : Acceptance) : Prop where
  pending : s.orc.deployPending = true
  loader : s.pending = a.loader
  serial : s.monitor.resultSerial = a.serial
  owes : s.monitor.Owes s.orc.deployPcId

structure CompletedByOwn (s : System) : Prop where
  /-- A result completes the deployment it was produced for: it names its slot, and its number
  was given out when the monitor accepted the call of the loader of that deployment. -/
  own : ∀ c ∈ s.completions, c.target = c.pcId ∧
    ∃ a ∈ s.orc.monitor.accepted, a.loader.isSome ∧ a.loader = c.loader ∧ a.serial = c.serial
  /-- An accepted deployment is completed once, or is the pending one. -/
  once : ∀ a ∈ s.orc.monitor.accepted,
    (s.completions.countP (·.serial = a.serial) = 1) ∨
    (s.completions.countP (·.serial = a.serial) = 0 ∧ Outstanding s a)

/-! ## When it holds -/

/-- No one else asks for targeted deployments before the calls of a turn. -/
def Turn.Quiet (turn : Turn) : Prop := ∀ e ∈ turn.before, e.quiet

/-- The targeted deployments are the orchestrator's. -/
def Event.Quiet : Event → Prop
  | .monitor e => e.quiet
  | .orchestrator _ turns => ∀ turn ∈ turns, turn.Quiet

/-- A notification that would take an old result: the file of the pending deployment is still
being read, and a result is ready. -/
def TakesOldResult (s : System) : Event → Prop
  | .orchestrator .notifiedMonitor _ =>
    s.orc.deployPending = true ∧ (∃ k < s.orc.spawned, s.orc.TargetedLoading k) ∧
      s.monitor.deployResult.ready = true
  | _ => False

def KeepsResults (s : System) (e : Event) : Prop := e.Quiet ∧ ¬ TakesOldResult s e

instance (e : Monitor.Event) : Decidable e.quiet :=
  match e with
  | .call _ msg _ =>
    inferInstanceAs (Decidable (CallId.ofNumber (msg.get 0) ≠ some .deployToProtocon))
  | .fault _ _ _ _ | .resume _ _ _ | .payload _ => inferInstanceAs (Decidable True)

instance (turn : Turn) : Decidable turn.Quiet :=
  inferInstanceAs (Decidable (∀ e ∈ turn.before, e.quiet))

instance : (e : Event) → Decidable e.Quiet
  | .monitor e => inferInstanceAs (Decidable e.quiet)
  | .orchestrator _ turns => inferInstanceAs (Decidable (∀ turn ∈ turns, turn.Quiet))

instance (s : System) : (e : Event) → Decidable (TakesOldResult s e)
  | .orchestrator .notifiedMonitor _ =>
    inferInstanceAs (Decidable (s.orc.deployPending = true ∧
      (∃ k < s.orc.spawned, s.orc.TargetedLoading k) ∧ s.monitor.deployResult.ready = true))
  | .orchestrator (.shell _ _) _ | .orchestrator (.request _ _ _) _
  | .orchestrator (.fsReply _ _) _ | .orchestrator .yield _ | .orchestrator .fsMounted _
  | .orchestrator (.imageProbed _) _ | .orchestrator (.monitor _) _ | .monitor _ =>
    inferInstanceAs (Decidable False)

instance (s : System) (e : Event) : Decidable (KeepsResults s e) :=
  inferInstanceAs (Decidable (e.Quiet ∧ ¬ TakesOldResult s e))

/-! ## Calls that ask for no targeted deployment -/

/-- What the monitor does in calls that ask for no targeted deployment. -/
structure NodeAdvance (P : Platform) (n n' : Node) : Prop where
  advance : Advance n.monitor n'.monitor
  lifetime : ∃ new, Lifetime n.monitor n'.monitor new
  deployInv : DeployInv P n'.monitor
  turns : ∀ turn ∈ n'.turns, turn ∈ n.turns
  accepted : n'.accepted = n.accepted

section

variable {P : Platform} {n n' n'' : Node} {m m' : Monitor.State}

/-- What comes after an ended deployment leaves its result. -/
theorem lifetime_trans {m₁ m₂ : Monitor.State} (hD : DeployInv P m) (hD₁ : DeployInv P m₁)
    (h₁ : ∃ new, Lifetime m m₁ new) (h₂ : ∃ new, Lifetime m₁ m₂ new) (hadvance : Advance m₁ m₂) :
    ∃ new, Lifetime m m₂ new := by
  obtain ⟨new₁, h₁⟩ := h₁
  obtain ⟨new₂, h₂⟩ := h₂
  exact ⟨new₂ ++ new₁, h₁.trans hD hD₁ h₂ fun _ hended => hadvance.sameResult hended⟩

theorem NodeAdvance.refl (hD : DeployInv P n.monitor) : NodeAdvance P n n :=
  ⟨.same (.refl _), ⟨[], .refl _⟩, hD, fun _ h => h, rfl⟩

theorem NodeAdvance.trans (hD : DeployInv P n.monitor) (h₁ : NodeAdvance P n n')
    (h₂ : NodeAdvance P n' n'') : NodeAdvance P n n'' where
  advance := h₁.advance.trans h₂.advance
  lifetime := lifetime_trans hD h₁.deployInv h₁.lifetime h₂.lifetime h₂.advance
  deployInv := h₂.deployInv
  turns turn h := h₁.turns turn (h₂.turns turn h)
  accepted := h₂.accepted.trans h₁.accepted

theorem run_advance {es : List Monitor.Event} (hD : DeployInv P m) (hquiet : ∀ e ∈ es, e.quiet)
    (h : run (Monitor.step P) m es = some m') :
    Advance m m' ∧ (∃ new, Lifetime m m' new) ∧ DeployInv P m' := by
  induction es generalizing m with
  | nil =>
    obtain rfl := Option.some.inj h
    exact ⟨.same (.refl m), ⟨[], .refl m⟩, hD⟩
  | cons e es ih =>
    obtain ⟨m₁, hm₁, h⟩ := Option.bind_eq_some_iff.mp h
    have hadvance := Monitor.step_advance hD hm₁ (hquiet e List.mem_cons_self)
    have hD₁ := Monitor.step_deployInv hD hm₁
    obtain ⟨hrest, hlife, hD'⟩ :=
      ih hD₁ (fun e' he' => hquiet e' (List.mem_cons_of_mem e he')) h
    exact ⟨hadvance.trans hrest,
      lifetime_trans hD hD₁ (Monitor.step_lifetime hD hm₁) hlife hrest, hD'⟩

theorem orchestratorChannel_calls (P : Platform) : P.callChannel orchestratorChannel = true := by
  rw [Platform.callChannel, beq_self_eq_true, Bool.true_or]

theorem ofNumber_deployToProtocon {v : BitVec 64}
    (h : CallId.ofNumber v = some .deployToProtocon) : v = 22 := by
  have hfound := List.find?_some h
  exact (beq_iff_eq.mp hfound).symm

/-- A call, opened: the events before it and the monitor's handling of it. -/
theorem port_call {msg reply : Message} (h : (port P).call n msg = some (n', reply)) :
    ∃ turn turns m m', n.turns = turn :: turns ∧
      run (Monitor.step P) n.monitor turn.before = some m ∧
      Monitor.monitorMainHandlePccall P turn.env m orchestratorChannel msg = some (m', reply) ∧
      n' = { n with
        monitor := m', turns, accepted := n.accepted ++ acceptance n msg m' reply } := by
  unfold port at h
  dsimp only at h
  split at h
  · cases h
  next turn turns hturns =>
    split at h
    · obtain ⟨m, hm, h⟩ := Option.bind_eq_some_iff.mp h
      obtain ⟨⟨m', reply'⟩, hcall, h⟩ := Option.bind_eq_some_iff.mp h
      obtain ⟨rfl, rfl⟩ := Prod.mk.inj (Option.some.inj h)
      exact ⟨turn, turns, m, m', hturns, hm, hcall, rfl⟩
    · cases h

theorem step_of_call {env : Env} {msg reply : Message}
    (h : Monitor.monitorMainHandlePccall P env m orchestratorChannel msg = some (m', reply)) :
    Monitor.step P m (.call orchestratorChannel msg env) = some m' := by
  rw [Monitor.step, if_pos (orchestratorChannel_calls P), h]
  rfl

theorem call_advance {msg reply : Message} (hD : DeployInv P n.monitor)
    (hturns : ∀ turn ∈ n.turns, turn.Quiet) (hmsg : QuietMessage msg)
    (h : (port P).call n msg = some (n', reply)) : NodeAdvance P n n' := by
  obtain ⟨turn, turns, m, m', hn, hrun, hcall, rfl⟩ := port_call h
  have hquiet : CallId.ofNumber (msg.get 0) ≠ some .deployToProtocon := fun hid =>
    hmsg (ofNumber_deployToProtocon hid)
  obtain ⟨hbefore, hlife, hDm⟩ := run_advance hD (hturns turn (hn ▸ List.mem_cons_self)) hrun
  have hstep := step_of_call hcall
  have hadvance := Monitor.step_advance hDm hstep hquiet
  refine ⟨hbefore.trans hadvance,
    lifetime_trans hD hDm hlife (Monitor.step_lifetime hDm hstep) hadvance,
    Monitor.step_deployInv hDm hstep, fun t ht => ?_, ?_⟩
  · rw [hn]
    exact List.mem_cons_of_mem turn ht
  · show n.accepted ++ acceptance n msg m' reply = n.accepted
    rw [acceptance, if_neg (fun hid => hquiet hid.1), List.append_nil]

theorem calls_advance (hD : DeployInv P n.monitor) (hturns : ∀ turn ∈ n.turns, turn.Quiet)
    (h : (port P).Calls QuietMessage n n') : NodeAdvance P n n' := by
  induction h with
  | refl => exact .refl hD
  | tail _ hcall ih =>
    obtain ⟨msg, reply, hmsg, hcall⟩ := hcall
    exact ih.trans hD (call_advance ih.deployInv (fun turn h => hturns turn (ih.turns turn h)) hmsg
      hcall)

theorem resultCall {reply : Message} (hD : DeployInv P n.monitor)
    (hturns : ∀ turn ∈ n.turns, turn.Quiet)
    (h : (port P).call n deployResultMessage = some (n', reply)) :
    NodeAdvance P n n' ∧ reply = (Monitor.monitorCallDeployResult n'.monitor).2 := by
  refine ⟨call_advance hD hturns (Orchestrator.CriMessage.quiet .result) h, ?_⟩
  obtain ⟨turn, turns, m, m', -, -, hcall, rfl⟩ := port_call h
  have hresult : Monitor.monitorCallDeployResult m = (m', reply) := Option.some.inj hcall
  have hsame : m' = m := by
    rw [Monitor.monitorCallDeployResult] at hresult
    split at hresult
    · exact (Prod.mk.inj hresult).1.symm
    · exact (Prod.mk.inj hresult).1.symm
  show reply = (Monitor.monitorCallDeployResult m').2
  rw [hsame, hresult]

theorem deployCall {pcId mask : BitVec 32} {all : Bool} {reply : Message}
    (hD : DeployInv P n.monitor) (hturns : ∀ turn ∈ n.turns, turn.Quiet)
    (hidle : ¬ n.monitor.Deploying)
    (h : (port P).call n (deployToProtoconMessage pcId mask all) = some (n', reply)) :
    DeployInv P n'.monitor ∧
      ((reply.label ≠ .noError ∧ n'.accepted = n.accepted ∧
          n.monitor.resultSerial ≤ n'.monitor.resultSerial ∧ ¬ n'.monitor.Deploying) ∨
        (reply.label = .noError ∧ n.monitor.resultSerial < n'.monitor.resultSerial ∧
          n'.monitor.Owes pcId ∧ n'.accepted = n.accepted ++
            [{ loader := n.caller, serial := n'.monitor.resultSerial
               cothread := n'.monitor.spawned - 1 }])) := by
  obtain ⟨turn, turns, m, m', hn, hrun, hcall, rfl⟩ := port_call h
  obtain ⟨hbefore, -, hDm⟩ := run_advance hD (hturns turn (hn ▸ List.mem_cons_self)) hrun
  have hserial : m.resultSerial = n.monitor.resultSerial := hbefore.serial
  have hidle' : ¬ m.Deploying := fun hdeploying =>
    hidle ((hbefore.sameResult hidle).deploying.mp hdeploying)
  have hdeploy : Monitor.monitorCallDeployToProtocon P turn.env m (pcId.zeroExtend 64)
      (mask.zeroExtend 64) (if all then 1 else 0) = some (m', reply) := hcall
  refine ⟨Monitor.step_deployInv hDm (step_of_call hcall), ?_⟩
  show (reply.label ≠ .noError ∧ n.accepted ++ acceptance n _ m' reply = n.accepted ∧
      n.monitor.resultSerial ≤ m'.resultSerial ∧ ¬ m'.Deploying) ∨
    (reply.label = .noError ∧ n.monitor.resultSerial < m'.resultSerial ∧ m'.Owes pcId ∧
      n.accepted ++ acceptance n _ m' reply = _)
  have hid : CallId.ofNumber ((deployToProtoconMessage pcId mask all).get 0) =
      some .deployToProtocon := rfl
  obtain ⟨hlabel, hle, hended⟩ | ⟨hlabel, hsucc, howes⟩ :=
    Monitor.monitorCallDeployToProtocon_owes hDm hdeploy
  · refine .inl ⟨hlabel, ?_, hserial ▸ hle, hended hidle'⟩
    rw [acceptance, if_neg (fun h => hlabel h.2), List.append_nil]
  · refine .inr ⟨hlabel, by omega, howes, ?_⟩
    rw [acceptance, if_pos ⟨hid, hlabel⟩]

end

/-! ## The invariant -/

/-- The loaders and the numbers of the results that have completed a deployment. -/
def System.completed (s : System) : List (Option Nat × Nat) :=
  s.completions.map fun c => (c.loader, c.serial)

/-- The same of the deployments that the monitor has accepted. -/
def asked (accepted : List Acceptance) : List (Option Nat × Nat) :=
  accepted.map fun a => (a.loader, a.serial)

/-- How far the pending deployment has come. -/
inductive Stage (s : System) : Prop
  | idle (hpending : s.orc.deployPending = false) (hloading : ∀ k, ¬ s.orc.TargetedLoading k)
      (hidle : ¬ s.monitor.Deploying) (hdone : s.completed = asked s.orc.monitor.accepted)
  | loading (k : Nat) (hpending : s.orc.deployPending = true) (hk : s.pending = some k)
      (hloading : ∀ j, s.orc.TargetedLoading j ↔ j = k) (hidle : ¬ s.monitor.Deploying)
      (hdone : s.completed = asked s.orc.monitor.accepted)
  | awaiting (a : Acceptance) (before : List Acceptance) (hpending : s.orc.deployPending = true)
      (hk : s.pending = a.loader) (hloading : ∀ k, ¬ s.orc.TargetedLoading k)
      (howes : s.monitor.Owes s.orc.deployPcId) (hserial : s.monitor.resultSerial = a.serial)
      (haccepted : s.orc.monitor.accepted = before ++ [a]) (hdone : s.completed = asked before)

structure CompletionInv (P : Platform) (s : System) : Prop where
  deployInv : DeployInv P s.monitor
  fresh : s.orc.Fresh
  target : ∀ c ∈ s.completions, c.target = c.pcId
  loader : ∀ a ∈ s.orc.monitor.accepted, a.loader.isSome
  serial : (s.orc.monitor.accepted.map Acceptance.serial).Nodup
  bound : ∀ a ∈ s.orc.monitor.accepted, a.serial ≤ s.monitor.resultSerial
  stage : Stage s

section

variable {P : Platform} {s : System}

theorem count_serial (x : Nat) :
    s.completions.countP (·.serial = x) = (s.completed.map Prod.snd).count x := by
  rw [System.completed, List.map_map, List.count, List.countP_map]
  refine List.countP_congr fun c _ => ?_
  simp

theorem asked_serial (accepted : List Acceptance) :
    (asked accepted).map Prod.snd = accepted.map Acceptance.serial := by
  rw [asked, List.map_map]
  rfl

/-- The completions are those of accepted deployments. -/
theorem Stage.completed_subset (h : Stage s) :
    ∀ p ∈ s.completed, p ∈ asked s.orc.monitor.accepted := by
  cases h with
  | idle _ _ _ hdone => exact fun p hp => hdone ▸ hp
  | loading _ _ _ _ _ hdone => exact fun p hp => hdone ▸ hp
  | awaiting a before _ _ _ _ _ haccepted hdone =>
    intro p hp
    rw [hdone] at hp
    rw [haccepted, asked, List.map_append]
    exact List.mem_append_left _ hp

theorem CompletionInv.completed (h : CompletionInv P s) : CompletedByOwn s where
  own c hc := by
    have hmem : (c.loader, c.serial) ∈ s.completed := List.mem_map_of_mem hc
    obtain ⟨a, ha, heq⟩ := List.mem_map.mp (h.stage.completed_subset _ hmem)
    obtain ⟨hloader, hserial⟩ := Prod.mk.inj heq
    exact ⟨h.target c hc, a, ha, h.loader a ha, hloader, hserial⟩
  once a ha := by
    have hnodup := h.serial
    have hmem : a.serial ∈ s.orc.monitor.accepted.map Acceptance.serial := List.mem_map_of_mem ha
    rw [count_serial]
    cases h.stage with
    | idle _ _ _ hdone | loading _ _ _ _ _ hdone =>
      rw [hdone, asked_serial]
      exact .inl (List.count_eq_one_of_mem hnodup hmem)
    | awaiting a' before hpending hk hloading howes hserial haccepted hdone =>
      rw [haccepted, List.map_append, List.nodup_append] at hnodup
      obtain ⟨hbefore, -, hdisjoint⟩ := hnodup
      rw [hdone, asked_serial]
      rw [haccepted] at ha
      rcases List.mem_append.mp ha with ha | ha
      · exact .inl (List.count_eq_one_of_mem hbefore (List.mem_map_of_mem ha))
      · obtain rfl := List.mem_singleton.mp ha
        refine .inr ⟨List.count_eq_zero.mpr fun hin => ?_, hpending, hk, hserial, howes⟩
        exact hdisjoint _ hin _ (List.mem_map_of_mem ha) rfl

/-! ## The steps -/

/-- A step that leaves the pending deployment to the monitor. -/
theorem Stage.kept {s' : System} (h : Stage s) (hpending : s'.pending = s.pending)
    (hcompletions : s'.completions = s.completions)
    (hdeploy : s'.orc.deployPending = s.orc.deployPending)
    (hpc : s.orc.deployPending = true → s'.orc.deployPcId = s.orc.deployPcId)
    (hloaders : ∀ k, s'.orc.TargetedLoading k ↔ s.orc.TargetedLoading k)
    (hadvance : Advance s.monitor s'.monitor)
    (haccepted : s'.orc.monitor.accepted = s.orc.monitor.accepted) : Stage s' := by
  have hcompleted : s'.completed = s.completed := by
    rw [System.completed, System.completed, hcompletions]
  cases h with
  | idle hp hloading hidle hdone =>
    refine .idle (hdeploy.trans hp) (fun k => ?_) (fun hd => ?_) ?_
    · rw [hloaders]
      exact hloading k
    · exact hidle ((hadvance.sameResult hidle).deploying.mp hd)
    · rw [hcompleted, haccepted, hdone]
  | loading k hp hk hloading hidle hdone =>
    refine .loading k (hdeploy.trans hp) (hpending.trans hk) (fun j => ?_) (fun hd => ?_) ?_
    · rw [hloaders]
      exact hloading j
    · exact hidle ((hadvance.sameResult hidle).deploying.mp hd)
    · rw [hcompleted, haccepted, hdone]
  | awaiting a before hp hk hloading howes hserial hlast hdone =>
    refine .awaiting a before (hdeploy.trans hp) (hpending.trans hk) (fun k => ?_) ?_ ?_ ?_ ?_
    · rw [hloaders]
      exact hloading k
    · rw [hpc hp]
      exact hadvance.owes howes
    · exact hadvance.serial.trans hserial
    · exact haccepted.trans hlast
    · exact hcompleted.trans hdone

/-- What a step has to show besides the stage. -/
theorem CompletionInv.next {s' : System} (h : CompletionInv P s) (hD : DeployInv P s'.monitor)
    (hfresh : s'.orc.Fresh) (hcompletions : s'.completions = s.completions)
    (haccepted : s'.orc.monitor.accepted = s.orc.monitor.accepted)
    (hserial : s.monitor.resultSerial ≤ s'.monitor.resultSerial) (hstage : Stage s') :
    CompletionInv P s' where
  deployInv := hD
  fresh := hfresh
  target := by
    rw [hcompletions]
    exact h.target
  loader := by
    rw [haccepted]
    exact h.loader
  serial := by
    rw [haccepted]
    exact h.serial
  bound := by
    rw [haccepted]
    exact fun a ha => Nat.le_trans (h.bound a ha) hserial
  stage := hstage

theorem CompletionInv.monitor_step {e : Monitor.Event} {m : Monitor.State}
    (h : CompletionInv P s) (hquiet : e.quiet) (hm : Monitor.step P s.monitor e = some m) :
    CompletionInv P (s.setMonitor m) := by
  have hadvance := Monitor.step_advance h.deployInv hm hquiet
  refine h.next (Monitor.step_deployInv h.deployInv hm) h.fresh rfl rfl
    (Nat.le_of_eq hadvance.serial.symm) ?_
  exact h.stage.kept rfl rfl rfl (fun _ => rfl) (fun _ => Iff.rfl) hadvance rfl

/-! ### The orchestrator -/

theorem leave_completions {e : Orchestrator.Event Node} {orc orc' : Orchestrator.State Node}
    (he : e ≠ .notifiedMonitor) : (s.leave P e orc orc').completions = s.completions := by
  cases e with
  | notifiedMonitor => exact absurd rfl he
  | _ => rfl

theorem leave_pending_same {e : Orchestrator.Event Node} {orc orc' : Orchestrator.State Node}
    (h : orc'.deployPending = orc.deployPending) : (s.leave P e orc orc').pending = s.pending := by
  show (if !orc.deployPending && orc'.deployPending then some orc.spawned else s.pending) = _
  rw [h, Bool.not_and_self, if_neg Bool.false_ne_true]

theorem CompletionInv.kept {e : Orchestrator.Event Node} {orc' : Orchestrator.State Node}
    (h : CompletionInv P s) (hturns : ∀ turn ∈ s.orc.monitor.turns, turn.Quiet)
    (he : e ≠ .notifiedMonitor) (hpending : orc'.deployPending = s.orc.deployPending)
    (hpc : s.orc.deployPending = true → orc'.deployPcId = s.orc.deployPcId)
    (hloaders : Orchestrator.SameLoaders s.orc orc')
    (hcalls : (port P).Calls QuietMessage s.orc.monitor orc'.monitor) :
    CompletionInv P (s.leave P e s.orc orc') := by
  have hnode := calls_advance h.deployInv hturns hcalls
  have hcompletions : (s.leave P e s.orc orc').completions = s.completions :=
    leave_completions he
  refine h.next hnode.deployInv (hloaders.fresh h.fresh) hcompletions hnode.accepted
    (Nat.le_of_eq hnode.advance.serial.symm) ?_
  exact h.stage.kept (leave_pending_same hpending) hcompletions hpending hpc hloaders.loading
    hnode.advance hnode.accepted

theorem CompletionInv.begun {e : Orchestrator.Event Node} {orc' : Orchestrator.State Node}
    (h : CompletionInv P s) (he : e ≠ .notifiedMonitor) (hbefore : s.orc.deployPending = false)
    (hafter : orc'.deployPending = true)
    (hloading : ∀ k, orc'.TargetedLoading k ↔ s.orc.TargetedLoading k ∨ k = s.orc.spawned)
    (hfresh : orc'.Fresh) (hm : orc'.monitor = s.orc.monitor) :
    CompletionInv P (s.leave P e s.orc orc') := by
  have hcompletions : (s.leave P e s.orc orc').completions = s.completions :=
    leave_completions he
  have hmonitor : (s.leave P e s.orc orc').monitor = s.monitor := congrArg Node.monitor hm
  have haccepted := congrArg Node.accepted hm
  refine h.next (hmonitor ▸ h.deployInv) hfresh hcompletions haccepted
    (Nat.le_of_eq (congrArg Monitor.State.resultSerial hmonitor.symm)) ?_
  cases h.stage with
  | idle hp hnone hidle hdone =>
    refine .loading s.orc.spawned hafter ?_ (fun j => ?_) (hmonitor ▸ hidle) ?_
    · show (if !s.orc.deployPending && orc'.deployPending then _ else _) = _
      rw [hbefore, hafter]
      rfl
    · exact (hloading j).trans (or_iff_right (hnone j))
    · show List.map _ (s.leave P e s.orc orc').completions = asked orc'.monitor.accepted
      rw [hcompletions, haccepted]
      exact hdone
  | loading _ hp | awaiting _ _ hp => exact absurd (hbefore.symm.trans hp) Bool.false_ne_true

/-- The loader of the pending deployment gives it up. -/
theorem CompletionInv.abandoned {k : Nat} {c : PicoVfs.Completion}
    {orc' : Orchestrator.State Node} (h : CompletionInv P s)
    (hturns : ∀ turn ∈ s.orc.monitor.turns, turn.Quiet) (hk : s.orc.TargetedLoading k)
    (hafter : orc'.deployPending = false)
    (hloading : ∀ j, orc'.TargetedLoading j ↔ s.orc.TargetedLoading j ∧ j ≠ k)
    (hfresh : orc'.Fresh)
    (hm : orc'.monitor = s.orc.monitor ∨ ∃ reply : Monitor.Message, reply.label ≠ .noError ∧
      (port P).call s.orc.monitor (deployToProtoconMessage s.orc.deployPcId s.orc.deployPeerMask
        s.orc.deployPeersAll) = some (orc'.monitor, reply)) :
    CompletionInv P (s.leave P (.fsReply k c) s.orc orc') := by
  cases h.stage with
  | idle _ hnone => exact absurd hk (hnone k)
  | awaiting _ _ _ _ hnone => exact absurd hk (hnone k)
  | loading k' hp hk' hone hidle hdone =>
    obtain rfl := (hone k).mp hk
    obtain ⟨hD, haccepted, hserial, hidle'⟩ : DeployInv P orc'.monitor.monitor ∧
        orc'.monitor.accepted = s.orc.monitor.accepted ∧
        s.monitor.resultSerial ≤ orc'.monitor.monitor.resultSerial ∧
        ¬ orc'.monitor.monitor.Deploying := by
      rcases hm with hm | ⟨reply, hlabel, hcall⟩
      · rw [hm]
        exact ⟨h.deployInv, rfl, Nat.le_refl _, hidle⟩
      · obtain ⟨hD, ⟨-, haccepted, hserial, hidle'⟩ | ⟨hok, -⟩⟩ :=
          deployCall h.deployInv hturns hidle hcall
        · exact ⟨hD, haccepted, hserial, hidle'⟩
        · exact absurd hok hlabel
    refine h.next hD hfresh rfl haccepted hserial (.idle hafter (fun j hj => ?_) hidle' ?_)
    · obtain ⟨hj, hne⟩ := (hloading j).mp hj
      exact hne ((hone j).mp hj)
    · show s.completed = asked orc'.monitor.accepted
      rw [haccepted]
      exact hdone

/-- The monitor accepts the pending deployment. -/
theorem CompletionInv.handedOver {k : Nat} {c : PicoVfs.Completion}
    {orc' : Orchestrator.State Node} {reply : Message} (h : CompletionInv P s)
    (hturns : ∀ turn ∈ s.orc.monitor.turns, turn.Quiet) (hcaller : s.orc.monitor.caller = some k)
    (hk : s.orc.TargetedLoading k) (hpending : orc'.deployPending = s.orc.deployPending)
    (hpc : orc'.deployPcId = s.orc.deployPcId)
    (hloading : ∀ j, orc'.TargetedLoading j ↔ s.orc.TargetedLoading j ∧ j ≠ k)
    (hfresh : orc'.Fresh) (hlabel : reply.label = .noError)
    (hcall : (port P).call s.orc.monitor (deployToProtoconMessage s.orc.deployPcId
      s.orc.deployPeerMask s.orc.deployPeersAll) = some (orc'.monitor, reply)) :
    CompletionInv P (s.leave P (.fsReply k c) s.orc orc') := by
  cases h.stage with
  | idle _ hnone => exact absurd hk (hnone k)
  | awaiting _ _ _ _ hnone => exact absurd hk (hnone k)
  | loading k' hp hk' hone hidle hdone =>
    obtain rfl := (hone k).mp hk
    obtain ⟨hD, ⟨hrejected, -⟩ | ⟨-, hserial, howes, haccepted⟩⟩ :=
      deployCall h.deployInv hturns hidle hcall
    · exact absurd hlabel hrejected
    have hlt : ∀ a ∈ s.orc.monitor.accepted, a.serial < orc'.monitor.monitor.resultSerial :=
      fun a ha => Nat.lt_of_le_of_lt (h.bound a ha) hserial
    rw [hcaller] at haccepted
    refine ⟨hD, hfresh, h.target, fun a ha => ?_, ?_, fun a ha => ?_, ?_⟩
    · rw [show (s.leave P (.fsReply k c) s.orc orc').orc.monitor.accepted =
        orc'.monitor.accepted from rfl, haccepted] at ha
      rcases List.mem_append.mp ha with ha | ha
      · exact h.loader a ha
      · obtain rfl := List.mem_singleton.mp ha
        rfl
    · show (orc'.monitor.accepted.map Acceptance.serial).Nodup
      rw [haccepted, List.map_append, List.nodup_append]
      refine ⟨h.serial, List.nodup_singleton _, fun x hx y hy heq => ?_⟩
      obtain ⟨a, ha, rfl⟩ := List.mem_map.mp hx
      obtain rfl := List.mem_singleton.mp hy
      exact absurd heq (Nat.ne_of_lt (hlt a ha))
    · rw [show (s.leave P (.fsReply k c) s.orc orc').orc.monitor.accepted =
        orc'.monitor.accepted from rfl, haccepted] at ha
      rcases List.mem_append.mp ha with ha | ha
      · exact Nat.le_of_lt (hlt a ha)
      · obtain rfl := List.mem_singleton.mp ha
        exact Nat.le_refl _
    · refine .awaiting _ s.orc.monitor.accepted (hpending.trans hp) ?_ (fun j hj => ?_) ?_ rfl
        haccepted hdone
      · exact (leave_pending_same hpending).trans hk'
      · obtain ⟨hj, hne⟩ := (hloading j).mp hj
        exact hne ((hone j).mp hj)
      · show orc'.monitor.monitor.Owes orc'.deployPcId
        rw [hpc]
        exact howes

/-! ### A notification -/

theorem cleared_deployInv {m : Monitor.State} (hD : DeployInv P m) :
    DeployInv P { m with notified := false } :=
  hD.same ⟨rfl, rfl, rfl, rfl, rfl, rfl, fun _ hp => hp⟩

section

variable {n : Node} {orc' : Orchestrator.State Node} (h : CompletionInv P s)
  (hmonitor : n.monitor = { s.monitor with notified := false })
  (haccepted : n.accepted = s.orc.monitor.accepted)

include h hmonitor haccepted

theorem CompletionInv.ignored (hpending : s.orc.deployPending = false) :
    CompletionInv P (s.leave P .notifiedMonitor { s.orc with monitor := n }
      { s.orc with monitor := n }) := by
  have hD : DeployInv P n.monitor := hmonitor ▸ cleared_deployInv h.deployInv
  have hserial : n.monitor.resultSerial = s.monitor.resultSerial := by rw [hmonitor]
  have hdeploying : n.monitor.Deploying ↔ s.monitor.Deploying := by rw [hmonitor]; rfl
  have hcompletions : (s.leave P .notifiedMonitor { s.orc with monitor := n }
      { s.orc with monitor := n }).completions = s.completions := by
    show (if s.orc.deployPending && !s.orc.deployPending then _ else _) = _
    rw [hpending, if_neg (by decide)]
  refine h.next hD h.fresh hcompletions haccepted (Nat.le_of_eq hserial.symm) ?_
  cases h.stage with
  | idle hp hloading hidle hdone =>
    refine .idle hp hloading (fun hd => hidle (hdeploying.mp hd)) ?_
    show List.map _ (s.leave P .notifiedMonitor { s.orc with monitor := n }
      { s.orc with monitor := n }).completions = asked n.accepted
    rw [hcompletions, haccepted]
    exact hdone
  | loading _ hp | awaiting _ _ hp => exact absurd (hpending.symm.trans hp) Bool.false_ne_true

theorem CompletionInv.waited {m : Node} {reply : Message}
    (hturns : ∀ turn ∈ n.turns, turn.Quiet) (hpending : s.orc.deployPending = true)
    (hcall : (port P).call n deployResultMessage = some (m, reply))
    (hlabel : reply.label = .deployInProgress) :
    CompletionInv P (s.leave P .notifiedMonitor { s.orc with monitor := n }
      { s.orc with monitor := m }) := by
  have hD : DeployInv P n.monitor := hmonitor ▸ cleared_deployInv h.deployInv
  have hserial : n.monitor.resultSerial = s.monitor.resultSerial := by rw [hmonitor]
  have hdeploying : n.monitor.Deploying ↔ s.monitor.Deploying := by rw [hmonitor]; rfl
  obtain ⟨hnode, hreply⟩ := resultCall hD hturns hcall
  have hcompletions : (s.leave P .notifiedMonitor { s.orc with monitor := n }
      { s.orc with monitor := m }).completions = s.completions := by
    show (if s.orc.deployPending && !s.orc.deployPending then _ else _) = _
    rw [hpending, if_neg (by decide)]
  have hle : s.monitor.resultSerial = m.monitor.resultSerial :=
    hserial.symm.trans hnode.advance.serial.symm
  have haccepted' := hnode.accepted.trans haccepted
  have hpending' : (s.leave P .notifiedMonitor { s.orc with monitor := n }
      { s.orc with monitor := m }).pending = s.pending := leave_pending_same rfl
  refine h.next hnode.deployInv h.fresh hcompletions haccepted' (Nat.le_of_eq hle) ?_
  cases h.stage with
  | idle hp => exact absurd (hp.symm.trans hpending) Bool.false_ne_true
  | loading k hp hk hloading hidle hdone =>
    refine .loading k hp (hpending'.trans hk) hloading (fun hd => ?_) ?_
    · have hidle' : ¬ n.monitor.Deploying := fun hd => hidle (hdeploying.mp hd)
      exact hidle' ((hnode.advance.sameResult hidle').deploying.mp hd)
    · show List.map _ (s.leave P .notifiedMonitor { s.orc with monitor := n }
        { s.orc with monitor := m }).completions = asked m.accepted
      rw [hcompletions, haccepted']
      exact hdone
  | awaiting a before hp hk hloading howes hs hlast hdone =>
    have hread := howes.read hnode.deployInv (hmonitor ▸ hnode.advance)
    rw [← hreply] at hread
    refine .awaiting a before hp (hpending'.trans hk) hloading ?_ (hle.symm.trans hs)
      (haccepted'.trans hlast) ?_
    · obtain ⟨-, howes'⟩ | ⟨hready, -⟩ := hread
      · exact howes'
      · exact absurd hlabel hready
    · rw [System.completed, hcompletions]
      exact hdone

omit haccepted in
/-- While the file is being read, no result is ready: none is under way. -/
theorem CompletionInv.not_taken {m : Node} {reply : Message} {k : Nat} {turns : List Turn}
    (hturns : ∀ turn ∈ n.turns, turn.Quiet)
    (hold : ¬ TakesOldResult s (.orchestrator .notifiedMonitor turns))
    (hpending : s.orc.deployPending = true) (hk : s.orc.TargetedLoading k)
    (hidle : ¬ s.monitor.Deploying)
    (hcall : (port P).call n deployResultMessage = some (m, reply)) :
    reply.label = .deployInProgress := by
  have hD : DeployInv P n.monitor := hmonitor ▸ cleared_deployInv h.deployInv
  obtain ⟨hnode, hreply⟩ := resultCall hD hturns hcall
  have hidle' : ¬ n.monitor.Deploying := by
    rw [hmonitor]
    exact hidle
  have hlt : k < s.orc.spawned := by
    by_contra hge
    obtain ⟨l, hl, -⟩ := hk
    rw [h.fresh k (Nat.le_of_not_lt hge)] at hl
    cases hl
  have hready : s.monitor.deployResult.ready = false := by
    by_contra hready
    exact hold ⟨hpending, ⟨k, hlt, hk⟩, Bool.not_eq_false _ ▸ hready⟩
  have hresult : m.monitor.deployResult = s.monitor.deployResult := by
    rw [(hnode.advance.sameResult hidle').result, hmonitor]
  rw [hreply, Monitor.monitorCallDeployResult, hresult, hready, if_pos (by decide)]

omit haccepted in
/-- A result that completes the pending deployment is its own. -/
theorem CompletionInv.own_result {m : Node} {reply : Message} {turns : List Turn}
    (hturns : ∀ turn ∈ n.turns, turn.Quiet)
    (hold : ¬ TakesOldResult s (.orchestrator .notifiedMonitor turns))
    (hpending : s.orc.deployPending = true)
    (hcall : (port P).call n deployResultMessage = some (m, reply))
    (hlabel : reply.label ≠ .deployInProgress) :
    (∀ k, ¬ s.orc.TargetedLoading k) ∧ (reply.get 0).truncate 32 = s.orc.deployPcId ∧
      ¬ m.monitor.Deploying := by
  cases h.stage with
  | idle hp => exact absurd (hp.symm.trans hpending) Bool.false_ne_true
  | loading k hp hk hloading hidle =>
    exact absurd (h.not_taken hmonitor hturns hold hpending ((hloading k).mpr rfl) hidle hcall)
      hlabel
  | awaiting a before hp hk hloading howes =>
    have hD : DeployInv P n.monitor := hmonitor ▸ cleared_deployInv h.deployInv
    obtain ⟨hnode, hreply⟩ := resultCall hD hturns hcall
    have hread := howes.read hnode.deployInv (hmonitor ▸ hnode.advance)
    rw [← hreply] at hread
    obtain ⟨hready, -⟩ | ⟨-, htarget, hidle⟩ := hread
    · exact absurd hready hlabel
    · exact ⟨hloading, htarget, hidle⟩

theorem CompletionInv.taken {m : Node} {reply : Message} {turns : List Turn}
    (hturns : ∀ turn ∈ n.turns, turn.Quiet)
    (hold : ¬ TakesOldResult s (.orchestrator .notifiedMonitor turns))
    (hpending : s.orc.deployPending = true)
    (hcall : (port P).call n deployResultMessage = some (m, reply))
    (hlabel : reply.label ≠ .deployInProgress) (hafter : orc'.deployPending = false)
    (hloaders : Orchestrator.SameLoaders s.orc orc')
    (hcalls : (port P).Calls QuietMessage m orc'.monitor) :
    CompletionInv P (s.leave P .notifiedMonitor { s.orc with monitor := n } orc') := by
  have hD : DeployInv P n.monitor := hmonitor ▸ cleared_deployInv h.deployInv
  have hserial : n.monitor.resultSerial = s.monitor.resultSerial := by rw [hmonitor]
  obtain ⟨hnode, hreply⟩ := resultCall hD hturns hcall
  have hrest := calls_advance hnode.deployInv (fun turn ht => hturns turn (hnode.turns turn ht))
    hcalls
  have hcompletions : (s.leave P .notifiedMonitor { s.orc with monitor := n } orc').completions =
      s.completions ++ [{ loader := s.pending, pcId := s.orc.deployPcId
                          serial := m.monitor.resultSerial
                          target := (reply.get 0).truncate 32 }] := by
    show (if s.orc.deployPending && !orc'.deployPending then
      s.completions ++ readResult P { s.orc with monitor := n } s.pending else _) = _
    rw [hpending, hafter, if_pos (by decide), readResult]
    dsimp only
    rw [hcall]
  have hle : s.monitor.resultSerial = orc'.monitor.monitor.resultSerial :=
    hserial.symm.trans (hnode.advance.trans hrest.advance).serial.symm
  have haccepted' := (hrest.accepted.trans hnode.accepted).trans haccepted
  obtain ⟨hended, htarget, hidle⟩ :=
    h.own_result hmonitor hturns hold hpending hcall hlabel
  cases h.stage with
  | idle hp => exact absurd (hp.symm.trans hpending) Bool.false_ne_true
  | loading k _ _ hloading => exact absurd ((hloading k).mpr rfl) (hended k)
  | awaiting a before hp hk hloading howes hs hlast hdone =>
    have hnumber : m.monitor.resultSerial = a.serial :=
      (hnode.advance.serial.trans hserial).trans hs
    refine ⟨hrest.deployInv, hloaders.fresh h.fresh, fun c hc => ?_, ?_, ?_, ?_, ?_⟩
    · rw [hcompletions] at hc
      rcases List.mem_append.mp hc with hc | hc
      · exact h.target c hc
      · obtain rfl := List.mem_singleton.mp hc
        exact htarget
    · exact fun a ha => h.loader a (haccepted' ▸ ha)
    · show (orc'.monitor.accepted.map Acceptance.serial).Nodup
      rw [haccepted']
      exact h.serial
    · exact fun a ha => hle ▸ h.bound a (haccepted' ▸ ha)
    · refine .idle hafter (fun k hk' => hloading k ((hloaders.loading k).mp hk')) (fun hd => ?_) ?_
      · exact hidle ((hrest.advance.sameResult hidle).deploying.mp hd)
      · show List.map _ (s.leave P .notifiedMonitor { s.orc with monitor := n }
          orc').completions = asked orc'.monitor.accepted
        rw [hcompletions, haccepted', hlast, asked, List.map_append, List.map_append, hk,
          hnumber]
        exact congrArg (· ++ [(a.loader, a.serial)]) hdone

theorem CompletionInv.notified {turns : List Turn} (hturns : ∀ turn ∈ n.turns, turn.Quiet)
    (hold : ¬ TakesOldResult s (.orchestrator .notifiedMonitor turns))
    {cfg : Config}
    (hs : DeployStep cfg (port P) { s.orc with monitor := n } .notifiedMonitor orc') :
    CompletionInv P (s.leave P .notifiedMonitor { s.orc with monitor := n } orc') := by
  cases hs with
  | kept he => exact absurd rfl he
  | begun he => exact absurd rfl he
  | ignored hpending => exact h.ignored hmonitor haccepted hpending
  | waited hpending hcall hlabel =>
    exact h.waited hmonitor haccepted hturns hpending hcall hlabel
  | taken hpending hcall hlabel hafter _ _ hloaders hcalls =>
    exact h.taken hmonitor haccepted hturns hold hpending hcall hlabel hafter
      ⟨hloaders.loading, hloaders.fresh, hloaders.commands⟩ hcalls

end

/-! ## Every run -/

/-- The orchestrator's state with the monitor moved on. -/
def System.withNode (s : System) (n : Node) : System :=
  { s with orc := { s.orc with monitor := n } }

theorem enter_cases {e : Orchestrator.Event Node} {turns : List Turn}
    {orc : Orchestrator.State Node} (h : s.enter e turns = some orc) :
    (∀ n, e ≠ .monitor n) ∧ ∃ n, orc = (s.withNode n).orc ∧ n.turns = turns ∧
      n.accepted = s.orc.monitor.accepted ∧
      ((e ≠ .notifiedMonitor ∧ n.monitor = s.monitor ∧ n.caller = loaderOf e) ∨
        (e = .notifiedMonitor ∧ n.monitor = { s.monitor with notified := false })) := by
  cases e with
  | monitor n => cases h
  | notifiedMonitor =>
    unfold System.enter at h
    dsimp only at h
    split at h
    · exact ⟨fun _ he => (by cases he), _, (Option.some.inj h).symm, rfl, rfl, .inr ⟨rfl, rfl⟩⟩
    · cases h
  | _ =>
    unfold System.enter at h
    exact ⟨fun _ he => (by cases he), _, (Option.some.inj h).symm, rfl, rfl,
      .inl ⟨nofun, rfl, rfl⟩⟩

theorem leave_withNode {n : Node} {e : Orchestrator.Event Node}
    {orc' : Orchestrator.State Node} : s.leave P e (s.withNode n).orc orc' =
      (s.withNode n).leave P e (s.withNode n).orc orc' := rfl

theorem CompletionInv.entered {n : Node} (h : CompletionInv P s) (hm : n.monitor = s.monitor)
    (haccepted : n.accepted = s.orc.monitor.accepted) : CompletionInv P (s.withNode n) := by
  have hsame : (s.withNode n).monitor = s.monitor := hm
  refine h.next (hsame ▸ h.deployInv) h.fresh rfl haccepted (Nat.le_of_eq ?_) ?_
  · rw [hsame]
  · exact h.stage.kept rfl rfl rfl (fun _ => rfl) (fun _ => Iff.rfl) (hsame ▸ .same (.refl _))
      haccepted

theorem CompletionInv.handled {cfg : Config} {e : Orchestrator.Event Node}
    {orc' : Orchestrator.State Node} (h : CompletionInv P s)
    (hturns : ∀ turn ∈ s.orc.monitor.turns, turn.Quiet)
    (hcaller : s.orc.monitor.caller = loaderOf e) (he : e ≠ .notifiedMonitor)
    (hmonitor : ∀ n, e ≠ .monitor n) (hs : Orchestrator.step cfg (port P) s.orc e = some orc') :
    CompletionInv P (s.leave P e s.orc orc') := by
  cases Orchestrator.step_deploy h.fresh hmonitor hs with
  | kept _ hpending hclaim hloaders hcalls =>
    exact h.kept hturns he hpending hclaim.pcId hloaders hcalls
  | stopped _ _ _ _ hstop hpending hclaim hloaders =>
    exact h.kept hturns he hpending hclaim.pcId hloaders
      (hstop.calls.mono fun _ => Orchestrator.CriMessage.quiet)
  | ignored | waited | taken => exact absurd rfl he
  | begun _ hbefore hafter _ _ hloading hfresh hm =>
    exact h.begun he hbefore hafter hloading hfresh hm
  | @abandoned k c _ hk hafter _ _ _ hloading hfresh hm =>
    exact h.abandoned (c := c) hturns hk hafter hloading hfresh hm
  | @handedOver k c _ _ hk hpending hpc _ _ hloading hfresh hlabel hcall =>
    exact h.handedOver (c := c) hturns hcaller hk hpending hpc hloading hfresh hlabel hcall

theorem CompletionInv.step {cfg : Config} {s' : System} {e : Event} (h : CompletionInv P s)
    (hok : KeepsResults s e) (hs : step P cfg s e = some s') : CompletionInv P s' := by
  cases e with
  | monitor e =>
    rw [Host.step] at hs
    split at hs
    · obtain ⟨m, hm, rfl⟩ := Option.map_eq_some_iff.mp hs
      exact h.monitor_step hok.1 hm
    · cases hs
  | orchestrator e turns =>
    obtain ⟨orc, henter, hs⟩ := Option.bind_eq_some_iff.mp hs
    obtain ⟨orc', horc, rfl⟩ := Option.map_eq_some_iff.mp hs
    have hturns : ∀ turn ∈ turns, turn.Quiet := hok.1
    obtain ⟨hmonitor, n, rfl, rfl, haccepted, ⟨he, hm, hcaller⟩ | ⟨rfl, hm⟩⟩ := enter_cases henter
    · rw [leave_withNode]
      exact (h.entered hm haccepted).handled hturns hcaller he hmonitor horc
    · exact h.notified hm haccepted hturns hok.2 (Orchestrator.step_deploy h.fresh hmonitor horc)

theorem CompletionInv.init (P : Platform) : CompletionInv P (init P) where
  deployInv := Monitor.caMonitorInitStates_deployInv P
  fresh _ _ := rfl
  target _ hc := nomatch hc
  loader _ ha := nomatch ha
  serial := List.nodup_nil
  bound _ ha := nomatch ha
  stage := by
    obtain ⟨m, hm⟩ := Monitor.caMonitorInitStates_eq P
    refine .idle rfl (fun k hk => ?_) (fun hd => ?_) rfl
    · obtain ⟨l, hl, -⟩ := hk
      cases hl
    · have hactive : (Monitor.caMonitorInitStates P).deployRequestActive = true := hd.1
      rw [hm] at hactive
      cases hactive

end

/-- In every run in which no notification takes an old result, each completed deployment was
completed by its own result, and each accepted one is completed once or is the pending one. -/
theorem completedByOwn (P : Platform) (cfg : Config) {s : System}
    (h : Reaches (step P cfg) KeepsResults (init P) s) : CompletedByOwn s :=
  (h.invariant (CompletionInv.init P) fun _ _ _ hinv hok hs => hinv.step hok hs).completed

/-! ## Two deployments -/

def smallConfig : Config := { maxPorts := 2, maxPorts_le := Nat.le_of_ble_eq_true rfl }

def deployLine : List (List UInt8) :=
  [bytes "deploy", bytes "-a", bytes "a", bytes "-pc", bytes "0", bytes "-peers", bytes "all"]

/-- A file that is no image is deployed; the result says so. -/
def refusedRun : List Event :=
  [.orchestrator .fsMounted [], .orchestrator (.shell deployLine true) [],
    .orchestrator (.fsReply 0 { success := true, fd := 1 }) [],
    .orchestrator (.fsReply 0 { success := true }) [],
    .orchestrator (.fsReply 0 { success := true, data := [97] }) [],
    .orchestrator (.fsReply 0 { success := true }) [],
    .orchestrator (.fsReply 0 { success := true }) [{}],
    .orchestrator .notifiedMonitor [{}]]

def refusedSystem : System :=
  (run (step (Monitor.smallPlatform 2) smallConfig) (init (Monitor.smallPlatform 2)) refusedRun).get
    (by decide +kernel)

theorem refusedRun_meets :
    RunMeets (step (Monitor.smallPlatform 2) smallConfig) KeepsResults
      (init (Monitor.smallPlatform 2)) refusedRun := by
  decide +kernel

theorem completedByOwn_refusedSystem :
    CompletedByOwn refusedSystem ∧ refusedSystem.completions.length = 1 :=
  ⟨completedByOwn (Monitor.smallPlatform 2) smallConfig
    (reaches_of_run refusedRun_meets (Option.some_get _).symm), by decide +kernel⟩

/-- The next deployment is still being read when a protocon is stopped. -/
def overtakenRun : List Event :=
  refusedRun ++ [.orchestrator (.shell deployLine true) [],
    .orchestrator (.shell [bytes "stop", bytes "-i", bytes "1"] true) [{}],
    .orchestrator .notifiedMonitor [{}]]

def overtakenSystem : System :=
  (run (step (Monitor.smallPlatform 2) smallConfig) (init (Monitor.smallPlatform 2))
    overtakenRun).get (by decide +kernel)

theorem overtakenRun_quiet :
    RunMeets (step (Monitor.smallPlatform 2) smallConfig) (fun _ e => e.Quiet)
      (init (Monitor.smallPlatform 2)) overtakenRun := by
  decide +kernel

/-- The notification of the stop completes the second deployment with the result of the
first. -/
theorem not_completedByOwn :
    ¬ ∀ (P : Platform) (cfg : Config) (s : System),
      Reaches (step P cfg) (fun _ e => e.Quiet) (init P) s → CompletedByOwn s := by
  intro h
  have hs := h (Monitor.smallPlatform 2) smallConfig overtakenSystem
    (reaches_of_run overtakenRun_quiet (Option.some_get _).symm)
  have hsecond : ∃ c ∈ overtakenSystem.completions, c.loader = some 1 := by decide +kernel
  have hfirst : ∀ a ∈ overtakenSystem.orc.monitor.accepted, a.loader = some 0 := by
    decide +kernel
  obtain ⟨c, hc, hloader⟩ := hsecond
  obtain ⟨-, a, ha, -, heq, -⟩ := hs.own c hc
  rw [hfirst a ha, hloader] at heq
  exact absurd heq (by decide)

end Host
end Carrels
