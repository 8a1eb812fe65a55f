import Carrels.Lib.Run
import Carrels.Lib.Bytes
import Carrels.Lib.Mask
import Carrels.Lib.Records
import Carrels.Util.PicoVfs
import Carrels.Lib.Held
import Carrels.Util.Resources
import Carrels.Monitor.State
import Carrels.Monitor.Network
import Carrels.Monitor.Control
import Carrels.Monitor.Service
import Carrels.Monitor.Deploy
import Carrels.Monitor.Step
import Carrels.Monitor.Actions
import Carrels.Monitor.SingleDeploy
import Carrels.Monitor.ThreadState
import Carrels.Monitor.Existing
import Carrels.Monitor.ImageIntegrity
import Carrels.Monitor.Isolation
import Carrels.Monitor.Result
import Carrels.Monitor.Sandbox
import Carrels.Monitor.Delegation
import Carrels.Monitor.ServiceTable
import Carrels.Tools.ServiceHelper
import Carrels.Orchestrator.State
import Carrels.Orchestrator.Deploy
import Carrels.Orchestrator.Cri
import Carrels.Orchestrator.Shell
import Carrels.Orchestrator.Step
import Carrels.Orchestrator.Payload
import Carrels.Orchestrator.Slots
import Carrels.Monitor.Patching
import Carrels.Orchestrator.Objects
import Carrels.Orchestrator.Ids
import Carrels.Orchestrator.StopOwn
import Carrels.Vsock.Packet
import Carrels.Lib.Fields
import Carrels.Orchestrator.Codec
import Carrels.Shim.Client
import Carrels.Shim.Delivery
import Carrels.Shim.Invariant
import Carrels.Shim.OwnAnswer
import Carrels.Shim.Survival
import Carrels.Shim.RoundTrip
import Carrels.Vsock.Credit
import Carrels.Vsock.Reassembly
import Carrels.Vsock.StreamBuffer
import Carrels.Vsock.Senders
import Carrels.Host.State
import Carrels.Shim.Listing
import Carrels.Host.ShellLine
import Carrels.Lib.Classes
import Carrels.Lib.Logged
import Carrels.Lib.Slices
import Carrels.Monitor.AccessRequest
import Carrels.Monitor.AclReport
import Carrels.Monitor.AclFailure
import Carrels.Monitor.Rounds
import Carrels.Monitor.Planner
import Carrels.Monitor.ServiceBounds
import Carrels.Orchestrator.Images
import Carrels.Orchestrator.Touched
import Carrels.Orchestrator.Forward
import Carrels.Util.Chunking
import Carrels.Lib.Words
import Carrels.Tools.LayoutSpec
import Carrels.Host.StopStays
import Carrels.Monitor.Lifetime
import Carrels.Lib.Numerals
import Carrels.Orchestrator.PeerPorts
import Carrels.Lib.Zipper
import Carrels.Microrl.State
import Carrels.Microrl.Input
import Carrels.Microrl.Line
import Carrels.Lib.Circular
import Carrels.Microrl.Words
import Carrels.Microrl.History
import Carrels.Microrl.Printing
import Carrels.Microrl.Editor
import Carrels.Microrl.Refine
import Carrels.Microrl.Completion
import Carrels.Lib.Terminal
import Carrels.Lib.Window
import Carrels.Microrl.Display
import Carrels.Microrl.Recall
import Carrels.Microrl.Commands
import Carrels.Host.Console
import Carrels.Microrl.Typing
