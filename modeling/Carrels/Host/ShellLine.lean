/-
Where a line of the shell ends.

`shellExecute` has one outcome for a crash of the orchestrator and for a call that does not
return because the monitor halts in it.  Here they are apart, and so are the two ways a command
treats a call that the monitor refuses: `call_monitor` crashes, `set-acl` reports it.
-/
import Carrels.Monitor.Step
import Carrels.Orchestrator.Numbers

namespace Carrels
namespace Host

open ByteMemory Orchestrator StepSystem
open Monitor (Platform Env Message PcMonitorError CallId pcChildMaxNum orchestratorChannel)

/-! ## Lines -/

section

variable {M : Type}

inductive LineEnd (M : Type)
  | returned (s : State M)
  /-- A refused call has been reported. -/
  | reported (s : State M) (error : PcMonitorError)
  /-- `microkit_internal_crash` -/
  | crashed (error : PcMonitorError)
  /-- The monitor halts in the call, and the shell waits for ever. -/
  | blocked

/-- The state in which the shell goes on. -/
def LineEnd.state? : LineEnd M → Option (State M)
  | .returned s => some s
  | .reported s _ => some s
  | .crashed _ => none
  | .blocked => none

variable (cfg : Config) (port : Port M) (s : State M)

/-- `call_monitor` -/
def callMonitorEnd (mr : List (BitVec 64)) : LineEnd M :=
  match s.ppcall port { mr } with
  | none => .blocked
  | some (s, reply) => if reply.label = .noError then .returned s else .crashed reply.label

/-- `cmd_no_argument` -/
def cmdNoArgumentEnd (argv : List (List UInt8)) (callId : BitVec 64) : LineEnd M :=
  if argv.length ≠ 1 then .returned s else callMonitorEnd port s [callId]

/-- The id a `-i` command passes on, if its arguments are well formed. -/
def pdControlId (argv : List (List UInt8)) : Option Nat :=
  match argv with
  | [_, i, id] => if i = bytes "-i" then parseU32Decimal id else none
  | _ => none

/-- `cmd_pd_control` -/
def cmdPdControlEnd (argv : List (List UInt8)) (callId : BitVec 64) : LineEnd M :=
  match pdControlId argv with
  | none => .returned s
  | some pdId => callMonitorEnd port s [callId, BitVec.ofNat 64 pdId]

/-- The ports and the value of a `set-acl` whose arguments are well formed. -/
def setAclArgs (argv : List (List UInt8)) : Option (Nat × Nat × Nat) :=
  match argv with
  | [_, i, port0, port1, v, allow] =>
    if i = bytes "-i" ∧ v = bytes "-v" then
      match parseU32Decimal port0, parseU32Decimal port1, parseU32Decimal allow with
      | some p, some q, some a =>
        if 255 < p ∨ 255 < q ∨ 1 < a then none else some (p, q, a)
      | _, _, _ => none
    else none
  | _ => none

/-- `cmd_set_acl` -/
def cmdSetAclEnd (argv : List (List UInt8)) : LineEnd M :=
  match setAclArgs argv with
  | none => .returned s
  | some (p, q, a) =>
    match s.ppcall port
      { mr := [18, BitVec.ofNat 64 p, BitVec.ofNat 64 q, BitVec.ofNat 64 a] } with
    | none => .blocked
    | some (s, reply) => if reply.label ≠ .noError then .reported s reply.label else .returned s

/-- `shell_execute` -/
def shellExecuteEnd (spawnOk : Bool) (argv : List (List UInt8)) : LineEnd M :=
  match argv with
  | [] => .returned s
  | name :: _ =>
    if name = bytes "start" then .returned (cmdStart s spawnOk argv)
    else if name = bytes "lspcs" then cmdNoArgumentEnd port s argv 5
    else if name = bytes "flip" then cmdNoArgumentEnd port s argv 17
    else if name = bytes "set-acl" then cmdSetAclEnd port s argv
    else if name = bytes "deploy" then .returned (cmdDeploy cfg s spawnOk argv)
    else if name = bytes "stop" then cmdPdControlEnd port s argv 6
    else if name = bytes "suspend" then cmdPdControlEnd port s argv 3
    else if name = bytes "resume" then cmdPdControlEnd port s argv 4
    else .returned s

theorem callMonitorEnd_state (mr : List (BitVec 64)) :
    (callMonitorEnd port s mr).state? = callMonitor port s mr := by
  rw [callMonitorEnd, callMonitor]
  cases s.ppcall port { mr } with
  | none => rfl
  | some r =>
    by_cases hlabel : r.2.label = .noError
    · simp only [Option.bind_eq_bind, Option.bind_some, if_pos hlabel, LineEnd.state?]
    · simp only [Option.bind_eq_bind, Option.bind_some, if_neg hlabel, LineEnd.state?]

theorem cmdNoArgumentEnd_state (argv : List (List UInt8)) (callId : BitVec 64) :
    (cmdNoArgumentEnd port s argv callId).state? = cmdNoArgument port s argv callId := by
  rw [cmdNoArgumentEnd, cmdNoArgument]
  split
  · rfl
  · exact callMonitorEnd_state port s [callId]

theorem cmdPdControl_eq (argv : List (List UInt8)) (callId : BitVec 64) :
    cmdPdControl port s argv callId =
      match pdControlId argv with
      | none => some s
      | some pdId => callMonitor port s [callId, BitVec.ofNat 64 pdId] := by
  by_cases hargs : ∃ head i id, argv = [head, i, id]
  · obtain ⟨head, i, id, rfl⟩ := hargs
    unfold cmdPdControl pdControlId
    by_cases hi : i = bytes "-i"
    · cases hid : parseU32Decimal id with
      | none => simp only [if_pos hi, hid]
      | some pdId => simp only [if_pos hi, hid]
    · simp only [if_neg hi]
  · have hcmd : cmdPdControl port s argv callId = some s := by
      unfold cmdPdControl
      split
      · exact absurd ⟨_, _, _, rfl⟩ hargs
      · rfl
    have hid : pdControlId argv = none := by
      unfold pdControlId
      split
      · exact absurd ⟨_, _, _, rfl⟩ hargs
      · rfl
    rw [hcmd, hid]

theorem cmdPdControlEnd_state (argv : List (List UInt8)) (callId : BitVec 64) :
    (cmdPdControlEnd port s argv callId).state? = cmdPdControl port s argv callId := by
  rw [cmdPdControl_eq, cmdPdControlEnd]
  cases pdControlId argv with
  | none => rfl
  | some pdId => exact callMonitorEnd_state port s [callId, BitVec.ofNat 64 pdId]

theorem cmdSetAcl_eq (argv : List (List UInt8)) :
    cmdSetAcl port s argv =
      match setAclArgs argv with
      | none => some s
      | some (p, q, a) =>
        (s.ppcall port
          { mr := [18, BitVec.ofNat 64 p, BitVec.ofNat 64 q, BitVec.ofNat 64 a] }).map (·.1) := by
  by_cases hargs : ∃ head i port0 port1 v allow, argv = [head, i, port0, port1, v, allow]
  · obtain ⟨head, i, port0, port1, v, allow, rfl⟩ := hargs
    unfold cmdSetAcl setAclArgs
    by_cases hflags : i = bytes "-i" ∧ v = bytes "-v"
    · simp only [if_pos hflags]
      cases parseU32Decimal port0 with
      | none => rfl
      | some p =>
        cases parseU32Decimal port1 with
        | none => rfl
        | some q =>
          cases parseU32Decimal allow with
          | none => rfl
          | some a =>
            by_cases hrange : 255 < p ∨ 255 < q ∨ 1 < a
            · simp only [if_pos hrange]
            · simp only [if_neg hrange]
    · simp only [if_neg hflags]
  · have hcmd : cmdSetAcl port s argv = some s := by
      unfold cmdSetAcl
      split
      · exact absurd ⟨_, _, _, _, _, _, rfl⟩ hargs
      · rfl
    have hnone : setAclArgs argv = none := by
      unfold setAclArgs
      split
      · exact absurd ⟨_, _, _, _, _, _, rfl⟩ hargs
      · rfl
    rw [hcmd, hnone]

theorem cmdSetAclEnd_state (argv : List (List UInt8)) :
    (cmdSetAclEnd port s argv).state? = cmdSetAcl port s argv := by
  rw [cmdSetAcl_eq, cmdSetAclEnd]
  cases setAclArgs argv with
  | none => rfl
  | some args =>
    obtain ⟨p, q, a⟩ := args
    dsimp only
    cases s.ppcall port { mr := [18, BitVec.ofNat 64 p, BitVec.ofNat 64 q, BitVec.ofNat 64 a] } with
    | none => rfl
    | some r =>
      dsimp only
      split <;> rfl

/-- The ends in which the shell goes on are those of `shellExecute`. -/
theorem shellExecuteEnd_state (spawnOk : Bool) (argv : List (List UInt8)) :
    (shellExecuteEnd cfg port s spawnOk argv).state? = shellExecute cfg port s spawnOk argv := by
  cases argv with
  | nil => rfl
  | cons name args =>
    simp only [shellExecuteEnd, shellExecute]
    split
    · rfl
    split
    · exact cmdNoArgumentEnd_state port s (name :: args) 5
    split
    · exact cmdNoArgumentEnd_state port s (name :: args) 17
    split
    · exact cmdSetAclEnd_state port s (name :: args)
    split
    · rfl
    split
    · exact cmdPdControlEnd_state port s (name :: args) 6
    split
    · exact cmdPdControlEnd_state port s (name :: args) 3
    split
    · exact cmdPdControlEnd_state port s (name :: args) 4
    · rfl

end

/-! ## Numbers -/

theorem pdControlId_lt {argv : List (List UInt8)} {pdId : Nat} (h : pdControlId argv = some pdId) :
    pdId < 2 ^ 32 := by
  unfold pdControlId at h
  split at h
  · split at h
    · exact (parseU32Decimal_eq_some.mp h).2
    · cases h
  · cases h

/-! ## The monitor's answers -/

/-- The monitor, and the labels of the answers it has given. -/
structure Answering where
  monitor : Monitor.State
  labels : List PcMonitorError := []

def monitorPort (P : Platform) (env : Env) : Port Answering where
  call n msg :=
    (Monitor.monitorMainHandlePccall P env n.monitor orchestratorChannel msg).map fun (m, reply) =>
      ({ monitor := m, labels := n.labels ++ [reply.label] }, reply)

/-- The calls of `stop`, `suspend` and `resume`. -/
inductive PdControl : CallId → Prop
  | stop : PdControl .terminateExt
  | suspend : PdControl .suspend
  | resume : PdControl .resume

theorem toNat_pdId {pdId : Nat} (h : pdId < 2 ^ 32) :
    ((BitVec.ofNat 64 pdId).truncate 32).toNat = pdId := by
  rw [BitVec.truncate_eq_setWidth, BitVec.toNat_setWidth, BitVec.toNat_ofNat]
  omega

/-- What the three calls are on the orchestrator's channel. -/
theorem pdControl_call {c : CallId} (hc : PdControl c) (P : Platform) (env : Env)
    (m : Monitor.State) (arg : BitVec 64) :
    Monitor.monitorMainHandlePccall P env m orchestratorChannel { mr := [c.number, arg] } =
      match c with
      | .terminateExt => Monitor.monitorCallStopAndRestoreProtocon P env m (arg.truncate 32)
      | .suspend => Monitor.monitorCallSuspendProtocon P m (arg.truncate 32)
      | _ => Monitor.monitorCallResumeProtocon P m (arg.truncate 32) := by
  cases hc <;> rfl

theorem pdControl_refused {c : CallId} (hc : PdControl c) (P : Platform) (env : Env)
    (m : Monitor.State) {pdId : Nat} (hlt : pdId < 2 ^ 32) (hge : pcChildMaxNum ≤ pdId) :
    Monitor.monitorMainHandlePccall P env m orchestratorChannel
      { mr := [c.number, BitVec.ofNat 64 pdId] } = some (m, { label := .invalidPcId }) := by
  have harg : pcChildMaxNum ≤ ((BitVec.ofNat 64 pdId).truncate 32).toNat := by
    rwa [toNat_pdId hlt]
  rw [pdControl_call hc]
  cases hc with
  | stop => rw [Monitor.monitorCallStopAndRestoreProtocon, if_pos harg]
  | suspend => rw [Monitor.monitorCallSuspendProtocon, if_pos harg]
  | resume => rw [Monitor.monitorCallResumeProtocon, if_pos harg]

/-- The monitor goes on to the thread of protocon `pdId`: `stop` always does, `suspend` and
`resume` if the protocon is in the state they start from. -/
def reachesThread (m : Monitor.State) : CallId → Nat → Bool
  | .suspend, pdId => m.checkLifecycleState pdId .active
  | .resume, pdId => m.checkLifecycleState pdId .suspended
  | _, _ => true

/-- The call of another id returns exactly if the thread it comes to is there. -/
theorem pdControl_returns {c : CallId} (hc : PdControl c) (P : Platform) (env : Env)
    (m : Monitor.State) {pdId : Nat} (hlt : pdId < pcChildMaxNum) :
    (Monitor.monitorMainHandlePccall P env m orchestratorChannel
        { mr := [c.number, BitVec.ofNat 64 pdId] }).isSome = true ↔
      (reachesThread m c pdId = true → P.hasTcb pdId = true) := by
  have hid := toNat_pdId (Nat.lt_trans hlt (by decide : pcChildMaxNum < 2 ^ 32))
  have harg : ¬ pcChildMaxNum ≤ ((BitVec.ofNat 64 pdId).truncate 32).toNat := by
    rw [hid]
    exact Nat.not_le_of_lt hlt
  have hch := Monitor.monitorGetPcidFromCh_add (Nat.lt_of_not_le harg)
  have hvalid := Monitor.ne_invalidPcId (Nat.lt_of_not_le harg)
  rw [pdControl_call hc]
  cases hc with
  | stop =>
    dsimp only
    rw [Monitor.monitorCallStopAndRestoreProtocon, if_neg harg, hid]
    simp only [Monitor.State.pdStop, reachesThread, forall_const]
    cases P.hasTcb pdId with
    | true => exact iff_of_true rfl rfl
    | false => exact iff_of_false Bool.false_ne_true Bool.false_ne_true
  | suspend =>
    dsimp only
    rw [Monitor.monitorCallSuspendProtocon, if_neg harg]
    simp only [hch, if_neg hvalid, hid, Monitor.State.pdStop, reachesThread, Option.isSome_map]
    cases m.checkLifecycleState pdId .active with
    | false => simp
    | true => simp
  | resume =>
    dsimp only
    rw [Monitor.monitorCallResumeProtocon, if_neg harg]
    simp only [hch, if_neg hvalid, hid, Monitor.State.pdResume, reachesThread, Option.isSome_map]
    cases m.checkLifecycleState pdId .suspended with
    | false => simp
    | true => simp

/-- It is not refused then, whatever state the monitor is in. -/
theorem pdControl_accepted {c : CallId} (hc : PdControl c) {P : Platform} {env : Env}
    {m m' : Monitor.State} {pdId : Nat} {reply : Message} (hlt : pdId < pcChildMaxNum)
    (h : Monitor.monitorMainHandlePccall P env m orchestratorChannel
      { mr := [c.number, BitVec.ofNat 64 pdId] } = some (m', reply)) : reply.label = .noError := by
  have harg : ¬ pcChildMaxNum ≤ ((BitVec.ofNat 64 pdId).truncate 32).toNat := by
    rw [toNat_pdId (Nat.lt_trans hlt (by decide))]
    exact Nat.not_le_of_lt hlt
  rw [pdControl_call hc] at h
  cases hc with
  | stop =>
    obtain ⟨hge, -⟩ | ⟨-, -, -, rfl⟩ := Monitor.monitorCallStopAndRestoreProtocon_cases h
    · exact absurd hge harg
    · rfl
  | suspend =>
    obtain ⟨hge, -⟩ | ⟨-, rfl, -⟩ := Monitor.monitorCallSuspendProtocon_cases h
    · exact absurd hge harg
    · rfl
  | resume =>
    obtain ⟨hge, -⟩ | ⟨-, rfl, -⟩ := Monitor.monitorCallResumeProtocon_cases h
    · exact absurd hge harg
    · rfl

/-! ## The statement -/

/-- The shell goes on: the orchestrator has not crashed, the call has returned, and when the
monitor has refused it this has been reported. -/
def LineEnd.Handled : LineEnd Answering → Prop
  | .returned s => ∀ error ∈ s.monitor.labels, error = .noError
  | .reported s error => s.monitor.labels = [error] ∧ error ≠ .noError
  | .crashed _ => False
  | .blocked => False

/-- The call of a `stop`, a `suspend` or a `resume`. -/
def pdControlCall (name : List UInt8) : Option CallId :=
  if name = bytes "stop" then some .terminateExt
  else if name = bytes "suspend" then some .suspend
  else if name = bytes "resume" then some .resume
  else none

/-- A `stop`, `suspend` or `resume` of a number that is beyond the protocons, or that leads the
monitor to a slot without a TCB. -/
def namesAbsentPd (P : Platform) (m : Monitor.State) (argv : List (List UInt8)) : Bool :=
  match pdControlCall (argv.headD []), pdControlId argv with
  | some call, some pdId =>
    pcChildMaxNum ≤ pdId || reachesThread m call pdId && !P.hasTcb pdId
  | _, _ => false

variable (cfg : Config) (P : Platform) (env : Env)

theorem ppcall_monitorPort (s : State Answering) (msg : Message) :
    s.ppcall (monitorPort P env) msg =
      (Monitor.monitorMainHandlePccall P env s.monitor.monitor orchestratorChannel msg).map
        fun (m, reply) =>
          ({ s with monitor := { monitor := m, labels := s.monitor.labels ++ [reply.label] } },
            reply) := by
  rw [State.ppcall, monitorPort, Option.map_map]
  rfl

theorem callMonitorEnd_handled {s : State Answering} (hs : s.monitor.labels = [])
    (mr : List (BitVec 64)) :
    (callMonitorEnd (monitorPort P env) s mr).Handled ↔
      ∃ m reply, Monitor.monitorMainHandlePccall P env s.monitor.monitor orchestratorChannel
        { mr } = some (m, reply) ∧ reply.label = .noError := by
  rw [callMonitorEnd, ppcall_monitorPort]
  cases Monitor.monitorMainHandlePccall P env s.monitor.monitor orchestratorChannel { mr } with
  | none => simp [LineEnd.Handled]
  | some r =>
    obtain ⟨m, reply⟩ := r
    by_cases hlabel : reply.label = .noError
    · simp [LineEnd.Handled, hlabel, hs]
    · simp [LineEnd.Handled, hlabel]

theorem cmdNoArgumentEnd_handled {s : State Answering} (hs : s.monitor.labels = [])
    (argv : List (List UInt8)) {callId : BitVec 64} (hid : callId = 5 ∨ callId = 17) :
    (cmdNoArgumentEnd (monitorPort P env) s argv callId).Handled := by
  rw [cmdNoArgumentEnd]
  split
  · rw [LineEnd.Handled, hs]
    exact nofun
  · rw [callMonitorEnd_handled P env hs]
    obtain rfl | rfl := hid
    · exact ⟨_, _, rfl, rfl⟩
    · exact ⟨_, _, rfl, rfl⟩

theorem cmdPdControlEnd_handled {s : State Answering} (hs : s.monitor.labels = [])
    (argv : List (List UInt8)) {c : CallId} (hc : PdControl c) {callId : BitVec 64}
    (hcall : callId = c.number) :
    (cmdPdControlEnd (monitorPort P env) s argv callId).Handled ↔
      ∀ pdId, pdControlId argv = some pdId → pdId < pcChildMaxNum ∧
        (reachesThread s.monitor.monitor c pdId = true → P.hasTcb pdId = true) := by
  subst hcall
  rw [cmdPdControlEnd]
  cases hid : pdControlId argv with
  | none => simp [LineEnd.Handled, hs]
  | some pdId =>
    dsimp only
    rw [callMonitorEnd_handled P env hs]
    simp only [Option.some.injEq, forall_eq']
    rcases Nat.lt_or_ge pdId pcChildMaxNum with hlt | hge
    · rw [and_iff_right hlt, ← pdControl_returns hc P env s.monitor.monitor hlt,
        Option.isSome_iff_exists]
      constructor
      · rintro ⟨m, reply, hcall, -⟩
        exact ⟨_, hcall⟩
      · rintro ⟨⟨m, reply⟩, hcall⟩
        exact ⟨m, reply, hcall, pdControl_accepted hc hlt hcall⟩
    · rw [pdControl_refused hc P env s.monitor.monitor (pdControlId_lt hid) hge]
      refine iff_of_false ?_ fun h => absurd h.1 (Nat.not_lt.mpr hge)
      rintro ⟨m, reply, hcall, hlabel⟩
      rw [← (Prod.mk.inj (Option.some.inj hcall)).2] at hlabel
      exact PcMonitorError.noConfusion hlabel

theorem cmdStart_monitor {M : Type} (s : State M) (spawnOk : Bool) (argv : List (List UInt8)) :
    (cmdStart s spawnOk argv).monitor = s.monitor := by
  rw [cmdStart]
  split
  · rfl
  · dsimp only
    split <;> rfl

theorem cmdDeploy_monitor {M : Type} (s : State M) (spawnOk : Bool) (argv : List (List UInt8)) :
    (cmdDeploy cfg s spawnOk argv).monitor = s.monitor := by
  rw [cmdDeploy]
  split
  · rfl
  · split
    · rfl
    · dsimp only
      split
      · obtain ⟨loaders, hs⟩ := yield_frame (State.spawnLoader _ _)
        rw [hs]
        rfl
      · rfl

theorem cmdSetAclEnd_handled {s : State Answering} (hs : s.monitor.labels = [])
    (argv : List (List UInt8)) : (cmdSetAclEnd (monitorPort P env) s argv).Handled := by
  rw [cmdSetAclEnd]
  split
  case h_1 =>
    rw [LineEnd.Handled, hs]
    exact nofun
  case h_2 p q a _ =>
    split
    case h_1 hcall =>
      -- The monitor answers every such call.
      rw [ppcall_monitorPort, Option.map_eq_none_iff] at hcall
      exact absurd hcall (Option.some_ne_none _)
    case h_2 s' reply hcall =>
      rw [ppcall_monitorPort] at hcall
      obtain ⟨⟨m, reply'⟩, -, heq⟩ := Option.map_eq_some_iff.mp hcall
      obtain ⟨rfl, rfl⟩ := Prod.mk.inj heq
      split
      case isTrue hlabel => exact ⟨by rw [hs]; rfl, hlabel⟩
      case isFalse hlabel =>
        intro error herror
        rw [hs] at herror
        rw [List.mem_singleton.mp herror]
        exact not_not.mp hlabel

theorem namesAbsentPd_of_name (m : Monitor.State) {name : List UInt8} (args : List (List UInt8))
    {c : CallId} (hname : pdControlCall name = some c) :
    namesAbsentPd P m (name :: args) = false ↔
      ∀ pdId, pdControlId (name :: args) = some pdId → pdId < pcChildMaxNum ∧
        (reachesThread m c pdId = true → P.hasTcb pdId = true) := by
  rw [namesAbsentPd, List.headD_cons, hname]
  cases pdControlId (name :: args) with
  | none => simp
  | some pdId => simp

theorem namesAbsentPd_of_other (m : Monitor.State) {name : List UInt8} (args : List (List UInt8))
    (hname : pdControlCall name = none) : namesAbsentPd P m (name :: args) = false := by
  rw [namesAbsentPd, List.headD_cons, hname]

theorem shellExecuteEnd_handled (s : State Answering) (hs : s.monitor.labels = []) (spawnOk : Bool)
    (argv : List (List UInt8)) :
    (shellExecuteEnd cfg (monitorPort P env) s spawnOk argv).Handled ↔
      namesAbsentPd P s.monitor.monitor argv = false := by
  have hreturned : (LineEnd.returned s).Handled := by
    rw [LineEnd.Handled, hs]
    exact nofun
  cases argv with
  | nil => exact iff_of_true hreturned rfl
  | cons name args =>
    rw [shellExecuteEnd]
    split
    case isTrue hname =>
      refine iff_of_true ?_ (namesAbsentPd_of_other P _ args (by rw [hname]; decide +kernel))
      rw [LineEnd.Handled, cmdStart_monitor, hs]
      exact nofun
    split
    case isTrue hname =>
      exact iff_of_true (cmdNoArgumentEnd_handled P env hs _ (Or.inl rfl))
        (namesAbsentPd_of_other P _ args (by rw [hname]; decide +kernel))
    split
    case isTrue hname =>
      exact iff_of_true (cmdNoArgumentEnd_handled P env hs _ (Or.inr rfl))
        (namesAbsentPd_of_other P _ args (by rw [hname]; decide +kernel))
    split
    case isTrue hname =>
      exact iff_of_true (cmdSetAclEnd_handled P env hs _)
        (namesAbsentPd_of_other P _ args (by rw [hname]; decide +kernel))
    split
    case isTrue hname =>
      refine iff_of_true ?_ (namesAbsentPd_of_other P _ args (by rw [hname]; decide +kernel))
      rw [LineEnd.Handled, cmdDeploy_monitor, hs]
      exact nofun
    split
    case isTrue hname =>
      rw [namesAbsentPd_of_name P _ args (c := .terminateExt) (by rw [hname]; decide +kernel)]
      exact cmdPdControlEnd_handled P env hs _ .stop rfl
    split
    case isTrue hname =>
      rw [namesAbsentPd_of_name P _ args (c := .suspend) (by rw [hname]; decide +kernel)]
      exact cmdPdControlEnd_handled P env hs _ .suspend rfl
    split
    case isTrue hname =>
      rw [namesAbsentPd_of_name P _ args (c := .resume) (by rw [hname]; decide +kernel)]
      exact cmdPdControlEnd_handled P env hs _ .resume rfl
    case isFalse hstop hsuspend hresume =>
      refine iff_of_true hreturned (namesAbsentPd_of_other P _ args ?_)
      rw [pdControlCall, if_neg hstop, if_neg hsuspend, if_neg hresume]

/-- In any state of the monitor, the shell goes on after a line exactly when the line does not
name a protocon beyond the arrays, or one whose thread the monitor comes to and does not find, in a
`stop`, a `suspend` or a `resume`; a call that the monitor has refused has then been reported. -/
theorem shellHandles (s : State Answering) (m : Monitor.State) (spawnOk : Bool)
    (argv : List (List UInt8)) :
    let s := { s with monitor := { monitor := m } }
    ((shellExecuteEnd cfg (monitorPort P env) s spawnOk argv).Handled ↔
      namesAbsentPd P m argv = false) ∧
    (shellExecuteEnd cfg (monitorPort P env) s spawnOk argv).state? =
      shellExecute cfg (monitorPort P env) s spawnOk argv :=
  ⟨shellExecuteEnd_handled cfg P env _ rfl spawnOk argv,
    shellExecuteEnd_state cfg (monitorPort P env) _ spawnOk argv⟩

def twoPorts : Config := { maxPorts := 2, maxPorts_le := by decide }

/-- `stop -i 99` -/
theorem not_shellHandles :
    ¬ ∀ m : Monitor.State,
      Reaches (Monitor.step (Monitor.smallPlatform 2)) anyEvent
        (Monitor.caMonitorInitStates (Monitor.smallPlatform 2)) m →
      ∀ argv : List (List UInt8),
        (shellExecuteEnd twoPorts (monitorPort (Monitor.smallPlatform 2) {})
          { monitor := { monitor := m } } true argv).Handled := by
  intro hclaim
  have hhandled := hclaim _ .refl [bytes "stop", bytes "-i", bytes "99"]
  rw [shellExecuteEnd_handled _ _ _ _ rfl] at hhandled
  exact absurd hhandled (by decide +kernel)

end Host
end Carrels
