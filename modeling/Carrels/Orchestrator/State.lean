/-
The orchestrator's data (`orchestrator.c`, `cri_runtime.c`).

One file-name buffer, one payload buffer and one set of arguments serve the shell's two
deploying commands and the CRI runtime alike; the loader cothreads read them when they
get that far.  The CRI tables hold one object for each sandbox, container and image.

The monitor is a parameter: `Port.call` is a protected call to it, which is `none` when
the call does not return.
-/
import Mathlib.Logic.Function.Basic
import Mathlib.Logic.Relation
import Carrels.Monitor.State

namespace Carrels
namespace Orchestrator

open ByteMemory Monitor

/-! ## Constants -/

/-- `FNAME_BUF_SIZE` -/
def fnameBufSize : Nat := 64

/-- `MIN_REQ_PC_NUM` -/
def minReqPcNum : Nat := 1

/-- `MAX_REQ_PC_NUM` -/
def maxReqPcNum : Nat := 16

/-- `CRI_MAX_OBJECTS` -/
abbrev criMaxObjects : Nat := 32

/-- The address of the payload buffer `shared2`. -/
abbrev shared2 : Nat := 0xb000000

/-- `K8S_C_HELLO_IMAGE` -/
def k8sCHelloImage : List UInt8 := bytes "carrels.local/c-hello:latest"

/-- `CARRELS_IMAGE_SCHEME` -/
def carrelsImageScheme : List UInt8 := bytes "carrels-image://"

/-- `K8S_C_HELLO_IMAGE_REF` -/
def k8sCHelloImageRef : List UInt8 := carrelsImageScheme ++ k8sCHelloImage

/-- `K8S_C_HELLO_FILE` -/
def k8sCHelloFile : List UInt8 := bytes "c-hello.img"

/-! ## The monitor's side -/

/-- A protected call to the monitor. -/
structure Port (M : Type) where
  call : M → Message → Option (M × Message)

/-- Calls with messages of one kind lead the monitor from one state to another. -/
def Port.Calls {M : Type} (port : Port M) (kind : Message → Prop) : M → M → Prop :=
  Relation.ReflTransGen fun m m' => ∃ msg reply, kind msg ∧ port.call m msg = some (m', reply)

theorem Port.Calls.mono {M : Type} {port : Port M} {kind kind' : Message → Prop} {m m' : M}
    (hle : ∀ msg, kind msg → kind' msg) (h : port.Calls kind m m') : port.Calls kind' m m' :=
  Relation.ReflTransGen.mono
    (fun _ _ ⟨msg, reply, hkind, hcall⟩ => ⟨msg, reply, hle msg hkind, hcall⟩) _ _ h

theorem Port.Calls.single {M : Type} {port : Port M} {kind : Message → Prop} {m m' : M}
    {msg reply : Message} (hkind : kind msg) (h : port.call m msg = some (m', reply)) :
    port.Calls kind m m' :=
  Relation.ReflTransGen.single ⟨msg, reply, hkind, h⟩

/-- `CARRELS_PROTOCON_COUNT`, which is `MAX_PROTOCON_PORTS`. -/
structure Config where
  maxPorts : Nat
  maxPorts_le : maxPorts ≤ 32

/-! ## CRI objects -/

/-- `struct cri_object`.  A character array is the string it holds; `fields` stands for
the fields that are only ever copied with the whole object. -/
structure CriObject where
  cursor : BitVec 32 := 0
  present : Bool := false
  state : BitVec 32 := 0
  exitCode : BitVec 32 := 0
  networkNs : BitVec 32 := 0
  createdAt : BitVec 64 := 0
  startedAt : BitVec 64 := 0
  finishedAt : BitVec 64 := 0
  id : List UInt8 := []
  image : List UInt8 := []
  imageRef : List UInt8 := []
  reason : List UInt8 := []
  ip : List UInt8 := []
  fields : List UInt8 := []

abbrev Table := Nat → CriObject

/-! ## Loaders -/

/-- The command that spawned a loader: the file it named, its arguments, and for a CRI
start the container it was for. -/
structure Command where
  targeted : Bool
  file : List UInt8
  count : BitVec 32 := 0
  pcId : BitVec 32 := 0
  peerMask : BitVec 32 := 0
  peersAll : Bool := false
  container : Option (List UInt8) := none
  deriving DecidableEq

inductive LoaderPhase
  | ready
  | reading (r : PicoVfs.Reader)
  | ended

/-- A loader cothread: `load_targeted_elf_payload` if `targeted`, else
`load_elf_payload`.  The command is history. -/
structure Loader where
  targeted : Bool
  phase : LoaderPhase := .ready
  command : Command

def LoaderPhase.live : LoaderPhase → Bool
  | .ended => false
  | _ => true

/-- A deploy call a loader issued: its command, its message and the payload buffer at
that moment. -/
structure Issue where
  command : Command
  message : Message
  buffer : Mem

/-! ## State -/

structure State (M : Type) where
  monitor : M
  fnameBuf : List UInt8 := []
  reqPcNum : BitVec 32 := 1
  deployPcId : BitVec 32 := 0
  deployPeerMask : BitVec 32 := 0
  deployPeersAll : Bool := false
  deployPending : Bool := false
  deployFromCri : Bool := false
  criSlotsInUse : BitVec 32 := 0
  fsInit : Bool := false
  criCHelloAvailable : Bool := false
  mem : Mem := fun _ => 0
  loaders : Nat → Option Loader := fun _ => none
  spawned : Nat := 0
  sandboxes : Table := fun _ => {}
  containers : Table := fun _ => {}
  images : Table := fun _ => {}
  nextId : BitVec 64 := 0
  timestamp : BitVec 64 := 0
  startAfterReply : Option Nat := none
  -- From here on the fields are history.
  issued : List Issue := []

namespace State

variable {M : Type}

/-- Loader `k` has been spawned and has not returned. -/
def Loading (s : State M) (k : Nat) : Prop := ∃ l, s.loaders k = some l ∧ l.phase.live = true

def setPhase (s : State M) (k : Nat) (phase : LoaderPhase) : State M :=
  { s with
    loaders := Function.update s.loaders k
      ((s.loaders k).map fun l => { l with phase }) }

theorem setPhase_self {s : State M} {k : Nat} {l : Loader} (phase : LoaderPhase)
    (h : s.loaders k = some l) : (s.setPhase k phase).loaders k = some { l with phase } := by
  simp [setPhase, h]

theorem setPhase_of_ne (s : State M) {k j : Nat} (phase : LoaderPhase) (h : j ≠ k) :
    (s.setPhase k phase).loaders j = s.loaders j := Function.update_of_ne h ..

/-- `microkit_cothread_spawn` of a loader for `command`. -/
def spawnLoader (s : State M) (command : Command) : State M :=
  { s with
    loaders := Function.update s.loaders s.spawned
      (some { targeted := command.targeted, command })
    spawned := s.spawned + 1 }

/-- `microkit_ppcall` to the monitor. -/
def ppcall (s : State M) (port : Port M) (msg : Message) : Option (State M × Message) :=
  (port.call s.monitor msg).map fun (m, reply) => ({ s with monitor := m }, reply)

theorem ppcall_frame {s s' : State M} {port : Port M} {msg reply : Message}
    (h : s.ppcall port msg = some (s', reply)) :
    ∃ m, port.call s.monitor msg = some (m, reply) ∧ s' = { s with monitor := m } := by
  obtain ⟨⟨m, r⟩, hm, hs⟩ := Option.map_eq_some_iff.mp h
  obtain ⟨rfl, rfl⟩ := Prod.mk.inj hs
  exact ⟨m, hm, rfl⟩

/-- The slot's bit of `cri_slots_in_use`. -/
def slotBit (id : BitVec 32) : BitVec 32 := 1#32 <<< id.toNat

def setSlot (s : State M) (id : BitVec 32) : State M :=
  { s with criSlotsInUse := s.criSlotsInUse ||| slotBit id }

def clearSlot (s : State M) (id : BitVec 32) : State M :=
  { s with criSlotsInUse := s.criSlotsInUse &&& ~~~slotBit id }

def setContainer (s : State M) (i : Nat) (o : CriObject) : State M :=
  { s with containers := Function.update s.containers i o }

@[simp] theorem setContainer_self (s : State M) (i : Nat) (o : CriObject) :
    (s.setContainer i o).containers i = o := Function.update_self ..

theorem setContainer_of_ne (s : State M) {i j : Nat} (o : CriObject) (h : j ≠ i) :
    (s.setContainer i o).containers j = s.containers j := Function.update_of_ne h ..

/-- `++timestamp` -/
def tick (s : State M) : State M := { s with timestamp := s.timestamp + 1 }

/-- `++next_id` -/
def nextObject (s : State M) : State M := { s with nextId := s.nextId + 1 }

end State

end Orchestrator
end Carrels
