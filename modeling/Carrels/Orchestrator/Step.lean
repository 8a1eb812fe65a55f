/-
The orchestrator as a state machine (`notified`).

An event is one thing the orchestrator handles: a line of the shell, a CRI request, the
completion of a loader's file-system command, a notification of the monitor, or a point
at which its cothreads are scheduled.  The two events of the prologue stand for the
mount and the probe of the one image it knows.  Between any two of these the monitor may
have moved (`monitor`).
-/
import Carrels.Lib.Run
import Carrels.Orchestrator.Cri
import Carrels.Orchestrator.Shell

namespace Carrels
namespace Orchestrator

variable {M : Type}

inductive Event (M : Type)
  /-- A line of the shell, as words; whether a cothread can be spawned. -/
  | shell (argv : List (List UInt8)) (spawnOk : Bool)
  /-- A CRI request; whether a cothread can be spawned. -/
  | request (op : BitVec 16) (request : CriObject) (spawnOk : Bool)
  /-- The completion of the command loader `k` is blocked in. -/
  | fsReply (k : Nat) (c : PicoVfs.Completion)
  /-- The notification of the monitor. -/
  | notifiedMonitor
  /-- The ready loaders are scheduled. -/
  | yield
  /-- The prologue has mounted the file system, and then looked for the image. -/
  | fsMounted
  | imageProbed (available : Bool)
  /-- The monitor has moved. -/
  | monitor (m : M)

/-- One event. -/
def step (cfg : Config) (port : Port M) (s : State M) : Event M → Option (State M)
  | .shell argv spawnOk => shellExecute cfg port s spawnOk argv
  | .request op request spawnOk => (processRequest cfg port spawnOk s op request).map (·.1)
  | .fsReply k c => resumeLoader port s k c
  | .notifiedMonitor => notifiedMonitor cfg port s
  | .yield => some (yield s)
  | .fsMounted => some { s with fsInit := true }
  | .imageProbed available => some { s with criCHelloAvailable := available }
  | .monitor m => some { s with monitor := m }

end Orchestrator
end Carrels
