/-
The shell's commands (`orchestrator.c`).

A command is the list of its words.  What a command prints is left out; a usage error or
a rejected argument leaves the state as it is.
-/
import Carrels.Orchestrator.Deploy

namespace Carrels
namespace Orchestrator

open ByteMemory Monitor

variable {M : Type}

/-! ## Numbers and peer lists -/

/-- The value of a decimal digit. -/
def digitOf (c : UInt8) : Option Nat :=
  if 48 ≤ c.toNat ∧ c.toNat ≤ 57 then some (c.toNat - 48) else none

/-- `value * 10 + digit`, unless it exceeds `UINT32_MAX`. -/
def pushDigit (value digit : Nat) : Option Nat :=
  if (0xffffffff - digit) / 10 < value then none else some (value * 10 + digit)

/-- The loop of `parse_u32_decimal`. -/
def parseDigits : List UInt8 → Nat → Option Nat
  | [], value => some value
  | c :: rest, value => do
    let digit ← digitOf c
    let value ← pushDigit value digit
    parseDigits rest value

/-- `parse_u32_decimal` -/
def parseU32Decimal (text : List UInt8) : Option Nat :=
  if text = [] then none else parseDigits text 0

/-- The peer mask with the port that has just been read, if it is one. -/
def addPort (cfg : Config) (targetPc : Nat) (port : Option Nat) (mask : BitVec 32) :
    Option (BitVec 32) :=
  match port with
  | none => none
  | some p => if cfg.maxPorts ≤ p ∨ p = targetPc then none else some (mask ||| 1#32 <<< p)

/-- The loop of `parse_peer_ports`.  `port` is the number being read, `none` before its
first digit. -/
def parsePorts (cfg : Config) (targetPc : Nat) :
    List UInt8 → Option Nat → BitVec 32 → Option (BitVec 32)
  | [], port, mask => addPort cfg targetPc port mask
  | c :: rest, port, mask =>
    match digitOf c with
    | some digit => do
      let port ← pushDigit (port.getD 0) digit
      parsePorts cfg targetPc rest (some port) mask
    | none =>
      if c = 44 then do
        let mask ← addPort cfg targetPc port mask
        parsePorts cfg targetPc rest none mask
      else none

/-- `parse_peer_ports`: the mask and whether all peers are meant. -/
def parsePeerPorts (cfg : Config) (text : List UInt8) (targetPc : Nat) :
    Option (BitVec 32 × Bool) :=
  if text = bytes "all" then some (0, true)
  else if text = [] then some (0, false)
  else (parsePorts cfg targetPc text none 0).map (·, false)

/-! ## The deploying commands -/

/-- The arguments of a `start` that passes the checks of `cmd_start`: file and count. -/
def startArgs (argv : List (List UInt8)) : Option (List UInt8 × BitVec 32) :=
  match argv with
  | [_, file] =>
    if file.length = 0 ∨ fnameBufSize ≤ file.length then none
    else some (file, BitVec.ofNat 32 minReqPcNum)
  | [_, file, count] =>
    if file.length = 0 ∨ fnameBufSize ≤ file.length then none
    else
      match parseU32Decimal count with
      | none => none
      | some n => if n < minReqPcNum ∨ maxReqPcNum < n then none else some (file, BitVec.ofNat 32 n)
  | _ => none

/-- `cmd_start` -/
def cmdStart (s : State M) (spawnOk : Bool) (argv : List (List UInt8)) : State M :=
  match startArgs argv with
  | none => s
  | some (file, count) =>
    let s := { s with fnameBuf := file, reqPcNum := count }
    if spawnOk then s.spawnLoader { targeted := false, file, count } else s

/-- What `cmd_deploy` stores in the globals. -/
structure DeployArgs where
  file : List UInt8
  pcId : BitVec 32
  peerMask : BitVec 32
  peersAll : Bool
  deriving DecidableEq

/-- The arguments of a `deploy` that passes the checks of `cmd_deploy` on its words. -/
def deployArgs (cfg : Config) (argv : List (List UInt8)) : Option DeployArgs :=
  match argv with
  | [_, a, file, pc, id, peers, ports] =>
    if a = bytes "-a" ∧ pc = bytes "-pc" ∧ peers = bytes "-peers" ∧ file ≠ [] then
      if fnameBufSize ≤ file.length then none
      else
        match parseU32Decimal id with
        | none => none
        | some pcId =>
          if cfg.maxPorts ≤ pcId then none
          else
            (parsePeerPorts cfg ports pcId).map fun (peerMask, peersAll) =>
              { file, pcId := BitVec.ofNat 32 pcId, peerMask, peersAll }
    else none
  | _ => none

/-- `cmd_deploy` -/
def cmdDeploy (cfg : Config) (s : State M) (spawnOk : Bool) (argv : List (List UInt8)) :
    State M :=
  match deployArgs cfg argv with
  | none => s
  | some args =>
    if s.deployPending then s
    else
      let s :=
        { s with
          fnameBuf := args.file, deployPcId := args.pcId, deployPeerMask := args.peerMask
          deployPeersAll := args.peersAll, deployPending := true }
      if spawnOk then
        yield (s.spawnLoader
          { targeted := true, file := args.file, pcId := args.pcId, peerMask := args.peerMask
            peersAll := args.peersAll })
      else { s with deployPending := false }

/-! ## The other commands -/

/-- `call_monitor`; an error reply crashes the orchestrator. -/
def callMonitor (port : Port M) (s : State M) (mr : List (BitVec 64)) : Option (State M) := do
  let (s, reply) ← s.ppcall port { mr }
  if reply.label = .noError then some s else none

/-- `cmd_no_argument` -/
def cmdNoArgument (port : Port M) (s : State M) (argv : List (List UInt8))
    (callId : BitVec 64) : Option (State M) :=
  if argv.length ≠ 1 then some s else callMonitor port s [callId]

/-- `cmd_pd_control` -/
def cmdPdControl (port : Port M) (s : State M) (argv : List (List UInt8))
    (callId : BitVec 64) : Option (State M) :=
  match argv with
  | [_, i, id] =>
    if i = bytes "-i" then
      match parseU32Decimal id with
      | none => some s
      | some pdId => callMonitor port s [callId, BitVec.ofNat 64 pdId]
    else some s
  | _ => some s

/-- `cmd_set_acl` -/
def cmdSetAcl (port : Port M) (s : State M) (argv : List (List UInt8)) : Option (State M) :=
  match argv with
  | [_, i, port0, port1, v, allow] =>
    if i = bytes "-i" ∧ v = bytes "-v" then
      match parseU32Decimal port0, parseU32Decimal port1, parseU32Decimal allow with
      | some p, some q, some a =>
        if 255 < p ∨ 255 < q ∨ 1 < a then some s
        else
          (s.ppcall port
            { mr := [18, BitVec.ofNat 64 p, BitVec.ofNat 64 q, BitVec.ofNat 64 a] }).map (·.1)
      | _, _, _ => some s
    else some s
  | _ => some s

/-- `shell_execute` -/
def shellExecute (cfg : Config) (port : Port M) (s : State M) (spawnOk : Bool)
    (argv : List (List UInt8)) : Option (State M) :=
  match argv with
  | [] => some s
  | name :: _ =>
    if name = bytes "start" then some (cmdStart s spawnOk argv)
    else if name = bytes "lspcs" then cmdNoArgument port s argv 5
    else if name = bytes "flip" then cmdNoArgument port s argv 17
    else if name = bytes "set-acl" then cmdSetAcl port s argv
    else if name = bytes "deploy" then some (cmdDeploy cfg s spawnOk argv)
    else if name = bytes "stop" then cmdPdControl port s argv 6
    else if name = bytes "suspend" then cmdPdControl port s argv 3
    else if name = bytes "resume" then cmdPdControl port s argv 4
    else some s

/-! ## What a line of the shell does -/

/-- The calls of the other commands. -/
def ShellMessage (msg : Message) : Prop :=
  msg.get 0 ∈ [(3 : BitVec 64), 4, 5, 6, 17, 18]

theorem callMonitor_frame {port : Port M} {s s' : State M} {mr : List (BitVec 64)}
    (hkind : ShellMessage { mr }) (h : callMonitor port s mr = some s') :
    ∃ m, port.Calls ShellMessage s.monitor m ∧ s' = { s with monitor := m } := by
  obtain ⟨⟨s₁, reply⟩, hcall, h⟩ := Option.bind_eq_some_iff.mp h
  obtain ⟨m, hm, rfl⟩ := State.ppcall_frame hcall
  dsimp only at h
  split at h
  · exact ⟨m, .single hkind hm, (Option.some.inj h).symm⟩
  · cases h

theorem cmdNoArgument_frame {port : Port M} {s s' : State M} {argv : List (List UInt8)}
    {callId : BitVec 64} (hkind : ShellMessage { mr := [callId] })
    (h : cmdNoArgument port s argv callId = some s') :
    ∃ m, port.Calls ShellMessage s.monitor m ∧ s' = { s with monitor := m } := by
  rw [cmdNoArgument] at h
  split at h
  · exact ⟨s.monitor, .refl, (Option.some.inj h).symm⟩
  · exact callMonitor_frame hkind h

theorem cmdPdControl_frame {port : Port M} {s s' : State M} {argv : List (List UInt8)}
    {callId : BitVec 64} (hkind : ∀ id, ShellMessage { mr := [callId, id] })
    (h : cmdPdControl port s argv callId = some s') :
    ∃ m, port.Calls ShellMessage s.monitor m ∧ s' = { s with monitor := m } := by
  unfold cmdPdControl at h
  split at h
  · split at h
    · split at h
      · exact ⟨s.monitor, .refl, (Option.some.inj h).symm⟩
      · exact callMonitor_frame (hkind _) h
    · exact ⟨s.monitor, .refl, (Option.some.inj h).symm⟩
  · exact ⟨s.monitor, .refl, (Option.some.inj h).symm⟩

theorem cmdSetAcl_frame {port : Port M} {s s' : State M} {argv : List (List UInt8)}
    (h : cmdSetAcl port s argv = some s') :
    ∃ m, port.Calls ShellMessage s.monitor m ∧ s' = { s with monitor := m } := by
  unfold cmdSetAcl at h
  split at h
  · split at h
    · split at h
      · split at h
        · exact ⟨s.monitor, .refl, (Option.some.inj h).symm⟩
        · obtain ⟨⟨s₁, reply⟩, hcall, rfl⟩ := Option.map_eq_some_iff.mp h
          obtain ⟨m, hm, rfl⟩ := State.ppcall_frame hcall
          refine ⟨m, .single ?_ hm, rfl⟩
          simp [ShellMessage, Message.get]
      · exact ⟨s.monitor, .refl, (Option.some.inj h).symm⟩
    · exact ⟨s.monitor, .refl, (Option.some.inj h).symm⟩
  · exact ⟨s.monitor, .refl, (Option.some.inj h).symm⟩

/-- A line is a `start`, a `deploy`, or leaves the orchestrator's own state alone. -/
theorem shellExecute_cases {cfg : Config} {port : Port M} {s s' : State M} {spawnOk : Bool}
    {argv : List (List UInt8)} (h : shellExecute cfg port s spawnOk argv = some s') :
    (argv.head? = some (bytes "start") ∧ s' = cmdStart s spawnOk argv) ∨
    (argv.head? = some (bytes "deploy") ∧ s' = cmdDeploy cfg s spawnOk argv) ∨
    ∃ m, port.Calls ShellMessage s.monitor m ∧ s' = { s with monitor := m } := by
  unfold shellExecute at h
  split at h
  case h_1 => exact Or.inr (Or.inr ⟨s.monitor, .refl, (Option.some.inj h).symm⟩)
  case h_2 name args =>
    have hkind : ∀ (callId : BitVec 64) (rest : List (BitVec 64)),
        callId ∈ [(3 : BitVec 64), 4, 5, 6, 17, 18] → ShellMessage { mr := callId :: rest } :=
      fun _ _ hmem => hmem
    split at h
    case isTrue hname => exact Or.inl ⟨congrArg some hname, (Option.some.inj h).symm⟩
    split at h
    case isTrue => exact Or.inr (Or.inr (cmdNoArgument_frame (hkind 5 [] (by decide)) h))
    split at h
    case isTrue => exact Or.inr (Or.inr (cmdNoArgument_frame (hkind 17 [] (by decide)) h))
    split at h
    case isTrue => exact Or.inr (Or.inr (cmdSetAcl_frame h))
    split at h
    case isTrue hname =>
      exact Or.inr (Or.inl ⟨congrArg some hname, (Option.some.inj h).symm⟩)
    split at h
    case isTrue =>
      exact Or.inr (Or.inr (cmdPdControl_frame (fun id => hkind 6 [id] (by decide)) h))
    split at h
    case isTrue =>
      exact Or.inr (Or.inr (cmdPdControl_frame (fun id => hkind 3 [id] (by decide)) h))
    split at h
    case isTrue =>
      exact Or.inr (Or.inr (cmdPdControl_frame (fun id => hkind 4 [id] (by decide)) h))
    case isFalse => exact Or.inr (Or.inr ⟨s.monitor, .refl, (Option.some.inj h).symm⟩)

end Orchestrator
end Carrels
