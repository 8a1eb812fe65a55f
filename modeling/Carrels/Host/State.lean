/-
The orchestrator and the monitor as one system.

The orchestrator calls the monitor on its channel.  Between two of its events, and before the
monitor serves a call, the monitor may handle any events that are not the orchestrator's: the
calls and faults of protocons and the completions of its file-system commands.  A notification
on channel 30 is pending until the orchestrator handles it.  The payload region is written
between any two events.
-/
import Carrels.Monitor.Result
import Carrels.Orchestrator.Pending

namespace Carrels
namespace Host

open Monitor (Platform Env Message CallId orchestratorChannel)
open Orchestrator (Config Port deployResultMessage)
open StepSystem

/-! ## The monitor behind a port -/

/-- What the monitor handles before a call of the orchestrator, and what it meets in it. -/
structure Turn where
  before : List Monitor.Event := []
  env : Env := {}

/-- A targeted deployment that the monitor has accepted: the loader that asked for it, the
number of the result it will have and the cothread that was spawned for it. -/
structure Acceptance where
  loader : Option Nat
  serial : Nat
  cothread : Nat
  deriving DecidableEq

structure Node where
  monitor : Monitor.State
  /-- What the monitor does at the calls of this event. -/
  turns : List Turn := []
  -- From here on the fields are history.
  /-- The loader that is running. -/
  caller : Option Nat := none
  accepted : List Acceptance := []

/-- The event is not a call of the orchestrator. -/
def fromOthers : Monitor.Event → Bool
  | .call ch _ _ => ch != orchestratorChannel
  | _ => true

/-- The acceptance that the answer to a call tells of. -/
def acceptance (n : Node) (msg : Message) (m : Monitor.State) (reply : Message) :
    List Acceptance :=
  if CallId.ofNumber (msg.get 0) = some .deployToProtocon ∧ reply.label = .noError then
    [{ loader := n.caller, serial := m.resultSerial, cothread := m.spawned - 1 }]
  else []

/-- A protected call of the orchestrator. -/
def port (P : Platform) : Port Node where
  call n msg :=
    match n.turns with
    | [] => none
    | turn :: turns =>
      if turn.before.all fromOthers then do
        let m ← run (Monitor.step P) n.monitor turn.before
        let (m, reply) ← Monitor.monitorMainHandlePccall P turn.env m orchestratorChannel msg
        some ({ n with
          monitor := m, turns, accepted := n.accepted ++ acceptance n msg m reply }, reply)
      else none

/-! ## The system -/

/-- A result that has completed a deployment: the loader of the deployment that was pending,
its slot, and the number and the slot of the result. -/
structure Completion where
  loader : Option Nat
  pcId : BitVec 32
  serial : Nat
  target : BitVec 32
  deriving DecidableEq

structure System where
  orc : Orchestrator.State Node
  -- From here on the fields are history.
  /-- The loader of the latest deployment. -/
  pending : Option Nat := none
  completions : List Completion := []

namespace System

def monitor (s : System) : Monitor.State := s.orc.monitor.monitor

def setMonitor (s : System) (m : Monitor.State) : System :=
  { s with orc := { s.orc with monitor := { s.orc.monitor with monitor := m } } }

end System

inductive Event
  | monitor (e : Monitor.Event)
  | orchestrator (e : Orchestrator.Event Node) (turns : List Turn)

/-- The loader whose command has completed. -/
def loaderOf : Orchestrator.Event Node → Option Nat
  | .fsReply k _ => some k
  | _ => none

/-- The orchestrator begins to handle an event.  It handles the monitor's notification when
there is one, and takes it. -/
def System.enter (s : System) (e : Orchestrator.Event Node) (turns : List Turn) :
    Option (Orchestrator.State Node) :=
  let n := { s.orc.monitor with turns, caller := loaderOf e }
  match e with
  | .monitor _ => none
  | .notifiedMonitor =>
    if s.monitor.notified then
      some { s.orc with monitor := { n with monitor := { s.monitor with notified := false } } }
    else none
  | _ => some { s.orc with monitor := n }

/-- The result that `print_deploy_result` reads. -/
def readResult (P : Platform) (orc : Orchestrator.State Node) (loader : Option Nat) :
    List Completion :=
  match (port P).call orc.monitor deployResultMessage with
  | none => []
  | some (n, reply) =>
    [{ loader, pcId := orc.deployPcId, serial := n.monitor.resultSerial
       target := (reply.get 0).truncate 32 }]

/-- The orchestrator has handled the event. -/
def System.leave (P : Platform) (s : System) (e : Orchestrator.Event Node)
    (orc orc' : Orchestrator.State Node) : System where
  orc := orc'
  pending := if !orc.deployPending && orc'.deployPending then some orc.spawned else s.pending
  completions :=
    match e with
    | .notifiedMonitor =>
      if orc.deployPending && !orc'.deployPending then
        s.completions ++ readResult P orc s.pending
      else s.completions
    | _ => s.completions

/-- One event. -/
def step (P : Platform) (cfg : Config) (s : System) : Event → Option System
  | .monitor e =>
    if fromOthers e then (Monitor.step P s.monitor e).map s.setMonitor else none
  | .orchestrator e turns =>
    (s.enter e turns).bind fun orc =>
      (Orchestrator.step cfg (port P) orc e).map (s.leave P e orc)

/-- The state after both have been initialised. -/
def init (P : Platform) : System where
  orc := { monitor := { monitor := Monitor.caMonitorInitStates P } }

end Host
end Carrels
