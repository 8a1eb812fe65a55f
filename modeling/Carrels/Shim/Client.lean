/-
The client of the shim (`hostClient` of `cri_stub.go`) and the runtime it calls.

The client makes one call at a time.  A call connects if it has no socket, writes the header
and the body of its request and reads a header and a body.  Any of these steps may fail, and
then the socket is closed.  Between the two sides is the kernel's vsock: it delivers the
packets of each connection in order, gives every socket a port that no other socket had, sends
`SHUTDOWN` on a close, and drops what comes for a closed socket.
-/
import Carrels.Lib.Run
import Carrels.Vsock.Packet

namespace Carrels
namespace Shim

open Vsock

/-! ## Requests -/

/-- The bytes of a marshalled object. -/
abbrev Body := { bytes : List UInt8 // bytes.length = objectSize }

/-- The request that `call` writes. -/
def rpcRequest (requestId : BitVec 32) (op : BitVec 16) (body : Body) : Request where
  header :=
    { magic := criMagic, version := criVersion, op, requestId, status := 0
      length := BitVec.ofNat 32 body.val.length }
  object := body.val
  wellFormed := by
    rw [body.property]
    rfl
  length_object := body.property

/-! ## The two sides and what is between them -/

/-- A packet of the guest, with the call it was sent in. -/
structure Outgoing where
  op : BitVec 16
  payload : List UInt8 := []
  call : Nat
  deriving DecidableEq

/-- The packet on its way to the runtime.  The runtime does not read `buf_alloc` and
`fwd_cnt`. -/
def Outgoing.packet (q : Outgoing) (guestCid : BitVec 64) (port : BitVec 32) : Packet where
  hdr :=
    { srcCid := guestCid, dstCid := vsockHostCid, srcPort := port, dstPort := criPort
      len := BitVec.ofNat 32 q.payload.length, type := vsockTypeStream, op := q.op
      bufAlloc := 0, fwdCnt := 0 }
  rest := q.payload

/-- A socket of the guest and the packets of its connection. -/
structure Conn where
  used : Bool := false
  established : Bool := false
  toHost : List Outgoing := []
  toGuest : List Packet := []
  /-- The bytes that have arrived and have not been read. -/
  received : List UInt8 := []

/-- Where `call` is. -/
inductive Phase where
  | idle
  /-- `connect` has no socket yet. -/
  | starting (op : BitVec 16) (body : Body)
  | connecting (port : BitVec 32) (op : BitVec 16) (body : Body)
  /-- `fdWrite` has these bytes of the header and the body left. -/
  | writing (rest : List UInt8)
  | readingHeader
  | readingBody (status : BitVec 32)

/-- A call of `dispatch`. -/
structure Dispatched where
  call : Nat
  op : BitVec 16
  object : List UInt8
  status : BitVec 32
  response : List UInt8

/-- A call of the client that has read its answer. -/
structure Returned where
  call : Nat
  status : BitVec 32
  object : List UInt8

structure System (H : Type) where
  host : Vsock.State H
  conns : BitVec 32 → Conn := fun _ => {}
  /-- The socket in `c.fd`. -/
  fd : Option (BitVec 32) := none
  next : BitVec 32 := 0
  phase : Phase := .idle
  -- From here on the fields are history.
  /-- The requests that calls have begun to write; a call is known by its position. -/
  issued : List Request := []
  dispatched : List Dispatched := []
  returned : List Returned := []

variable {H : Type}

def System.setConn (s : System H) (port : BitVec 32) (c : Conn) : System H :=
  { s with conns := fun i => if i = port then c else s.conns i }

/-- The call that is being made. -/
def System.currentCall (s : System H) : Nat := s.issued.length - 1

/-- The guest sends a packet. -/
def System.send (s : System H) (port : BitVec 32) (op : BitVec 16) (payload : List UInt8) :
    System H :=
  s.setConn port
    { s.conns port with
      toHost := (s.conns port).toHost ++ [{ op, payload, call := s.currentCall }] }

/-- The call has a socket and begins to write. -/
def System.beginWriting (s : System H) (port : BitVec 32) (op : BitVec 16) (body : Body) :
    System H :=
  let request := rpcRequest (s.next + 1) op body
  { s with
    fd := some port
    next := s.next + 1
    phase := .writing request.bytes
    issued := s.issued ++ [request] }

/-- The socket is closed, and the kernel tells the other side. -/
def System.closeSocket (s : System H) (port : BitVec 32) (shutdown : Bool) : System H :=
  let s := if shutdown then s.send port opShutdown [] else s
  let s := s.setConn port { s.conns port with received := [] }
  { s with fd := none, phase := .idle }

/-- The checks of `call` on the header of the answer. -/
def acceptsReply (header : RpcHeader) : Bool :=
  header.magic == criMagic && header.length.toNat == objectSize

/-- The packets that the runtime sends between two states. -/
def news (host host' : Vsock.State H) : List Packet := host'.sent.drop host.sent.length

/-- The runtime has taken a packet from the queue. -/
def System.afterPacket (s : System H) (hd : Handler H) (port : BitVec 32) (q : Outgoing)
    (rest : List Outgoing) (host : Vsock.State H) : System H :=
  let conns : BitVec 32 → Conn := fun i =>
    { s.conns i with
      toHost := if i = port then rest else (s.conns i).toHost
      toGuest := (s.conns i).toGuest ++ (news s.host host).filter fun x => x.hdr.dstPort == i }
  let calls := (host.calls.drop s.host.calls.length).filterMap fun (op, object) =>
    (hd.dispatch s.host.handler op object).map fun (_, status, response) =>
      { call := q.call, op, object, status, response : Dispatched }
  { s with host, conns, dispatched := s.dispatched ++ calls }

/-- The socket that is open in the guest. -/
def System.socket (s : System H) : Option (BitVec 32) :=
  match s.phase with
  | .connecting port _ _ => some port
  | _ => s.fd

/-- A packet of the runtime has arrived at an open socket. -/
def Conn.take (c : Conn) (x : Packet) : Conn :=
  if x.hdr.op = opResponse then { c with established := true }
  else if x.hdr.op = opRw then { c with received := c.received ++ x.payload }
  else c

/-! ## Steps -/

inductive Event where
  /-- The shim calls. -/
  | begin (op : BitVec 16) (body : Body)
  | socketFails
  | connect (port : BitVec 32)
  | connectFails (shutdown : Bool)
  | connected
  /-- `unix.Write` takes `n` bytes. -/
  | write (n : Nat)
  /-- `unix.Write` or `unix.Read` fails. -/
  | fails
  | readHeader
  | readBody
  /-- The kernel sends a packet about its credit. -/
  | credit (request : Bool)
  | toHost (port : BitVec 32) (accept : Bool)
  | toGuest (port : BitVec 32)

def step (hd : Handler H) (bufferSize : Nat) (guestCid : BitVec 64) (s : System H) :
    Event → Option (System H)
  | .begin op body =>
    match s.phase, s.fd with
    | .idle, some port => some (s.beginWriting port op body)
    | .idle, none => some { s with phase := .starting op body }
    | _, _ => none
  | .socketFails =>
    match s.phase with
    | .starting _ _ => some { s with phase := .idle }
    | _ => none
  | .connect port =>
    match s.phase with
    | .starting op body =>
      if (s.conns port).used then none
      else
        let s := s.setConn port { s.conns port with used := true }
        some { s.send port opRequest [] with phase := .connecting port op body }
    | _ => none
  | .connectFails shutdown =>
    match s.phase with
    | .connecting port _ _ => some (s.closeSocket port shutdown)
    | _ => none
  | .connected =>
    match s.phase with
    | .connecting port op body =>
      if (s.conns port).established then some (s.beginWriting port op body) else none
    | _ => none
  | .write n =>
    match s.phase, s.fd with
    | .writing rest, some port =>
      if n = 0 || rest.length < n then none
      else
        some
          { s.send port opRw (rest.take n) with
            phase := if rest.length = n then .readingHeader else .writing (rest.drop n) }
    | _, _ => none
  | .fails =>
    match s.phase, s.fd with
    | .writing _, some port => some (s.closeSocket port true)
    | .readingHeader, some port => some (s.closeSocket port true)
    | .readingBody _, some port => some (s.closeSocket port true)
    | _, _ => none
  | .readHeader =>
    match s.phase, s.fd with
    | .readingHeader, some port =>
      let c := s.conns port
      if c.received.length < rpcHeaderSize then none
      else
        let header := RpcHeader.load c.received
        if !acceptsReply header then some (s.closeSocket port true)
        else
          some
            { s.setConn port { c with received := c.received.drop rpcHeaderSize } with
              phase := .readingBody header.status }
    | _, _ => none
  | .readBody =>
    match s.phase, s.fd with
    | .readingBody status, some port =>
      let c := s.conns port
      if c.received.length < objectSize then none
      else
        some
          { s.setConn port { c with received := c.received.drop objectSize } with
            phase := .idle
            returned := s.returned ++
              [{ call := s.currentCall, status, object := c.received.take objectSize }] }
    | _, _ => none
  | .credit request =>
    match s.fd with
    | some port => some (s.send port (if request then opCreditRequest else opCreditUpdate) [])
    | none => none
  | .toHost port accept =>
    match (s.conns port).toHost with
    | [] => none
    | q :: rest =>
      (handlePacket hd bufferSize accept s.host (q.packet guestCid port)).map
        (s.afterPacket hd port q rest)
  | .toGuest port =>
    let c := s.conns port
    match c.toGuest with
    | [] => none
    | x :: rest =>
      let c := { c with toGuest := rest }
      some (s.setConn port (if s.socket = some port then c.take x else c))

end Shim
end Carrels
