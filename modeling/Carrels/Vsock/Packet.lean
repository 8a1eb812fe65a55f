/-
The vsock side of the CRI runtime (`cri_runtime.c`).

The runtime serves one connection at a time.  It collects the bytes of the peer's packets
until it holds one request, hands it to `dispatch` and answers it in one packet.  What
`dispatch` does is a parameter here: a `Handler` works on the operation and the bytes of
the object.
-/
import Carrels.Lib.Bytes

namespace Carrels
namespace Vsock

open ByteMemory

/-! ## Constants -/

/-- `CRI_PORT` -/
def criPort : BitVec 32 := 1234

/-- `VSOCK_HOST_CID` -/
def vsockHostCid : BitVec 64 := 2

/-- `VSOCK_TYPE_STREAM` -/
def vsockTypeStream : BitVec 16 := 1

/-- `VSOCK_OP_REQUEST`, `VSOCK_OP_RESPONSE` and so on -/
def opRequest : BitVec 16 := 1

def opResponse : BitVec 16 := 2

def opRst : BitVec 16 := 3

def opShutdown : BitVec 16 := 4

def opRw : BitVec 16 := 5

def opCreditUpdate : BitVec 16 := 6

def opCreditRequest : BitVec 16 := 7

/-- `CRI_MAGIC` -/
def criMagic : BitVec 32 := 0x4352564d

/-- `CRI_VERSION` -/
def criVersion : BitVec 16 := 1

/-- `sizeof(struct cri_object)` -/
def objectSize : Nat := 2536

/-- `sizeof(struct rpc_header)` -/
def rpcHeaderSize : Nat := 20

/-- `sizeof(stream)` -/
def streamSize : Nat := 2556

/-- `sizeof(struct vsock_hdr)` -/
def vsockHdrSize : Nat := 44

/-! ## Packets -/

/-- `struct vsock_hdr` -/
structure VsockHdr where
  srcCid : BitVec 64
  dstCid : BitVec 64
  srcPort : BitVec 32
  dstPort : BitVec 32
  len : BitVec 32
  type : BitVec 16
  op : BitVec 16
  flags : BitVec 32 := 0
  bufAlloc : BitVec 32
  fwdCnt : BitVec 32
  deriving DecidableEq

/-- A packet: its header and the bytes behind it. -/
structure Packet where
  hdr : VsockHdr
  rest : List UInt8
  deriving DecidableEq

/-- The `h.len` bytes a packet carries. -/
def Packet.payload (p : Packet) : List UInt8 := p.rest.take p.hdr.len.toNat

/-- The header of a packet in the queue, if there is one. -/
def Packet.load (packet : List UInt8) : Option Packet :=
  if packet.length < vsockHdrSize then none
  else
    let m := ofList packet
    some
      { hdr :=
          { srcCid := read64 m 0, dstCid := read64 m 8
            srcPort := read32 m 16, dstPort := read32 m 20, len := read32 m 24
            type := read16 m 28, op := read16 m 30
            flags := read32 m 32, bufAlloc := read32 m 36, fwdCnt := read32 m 40 }
        rest := packet.drop vsockHdrSize }

/-- `struct rpc_header` -/
structure RpcHeader where
  magic : BitVec 32
  version : BitVec 16
  op : BitVec 16
  requestId : BitVec 32
  status : BitVec 32
  length : BitVec 32
  deriving DecidableEq

/-- The header at the start of these bytes. -/
def RpcHeader.load (bs : List UInt8) : RpcHeader :=
  let m := ofList bs
  { magic := read32 m 0, version := read16 m 4, op := read16 m 6
    requestId := read32 m 8, status := read32 m 12, length := read32 m 16 }

/-- The bytes of a header. -/
def RpcHeader.bytes (h : RpcHeader) : List UInt8 :=
  toLE h.magic.toNat 4 ++ (toLE h.version.toNat 2 ++ (toLE h.op.toNat 2 ++
    (toLE h.requestId.toNat 4 ++ (toLE h.status.toNat 4 ++ toLE h.length.toNat 4))))

/-- The checks of `process_stream` on the header of a request. -/
def RpcHeader.wellFormed (h : RpcHeader) : Bool :=
  h.magic == criMagic && h.version == criVersion && h.length.toNat == objectSize

/-! ## The runtime -/

/-- `dispatch`, which does not return where a call to the monitor does not, and the end of
`process_stream`. -/
structure Handler (H : Type) where
  dispatch : H → BitVec 16 → List UInt8 → Option (H × BitVec 32 × List UInt8)
  afterReply : H → BitVec 16 → BitVec 32 → H
  length_response : ∀ {h op object h' status response},
    dispatch h op object = some (h', status, response) → response.length = objectSize

structure State (H : Type) where
  handler : H
  connected : Bool := false
  peerCid : BitVec 64 := 0
  peerPort : BitVec 32 := 0
  txCount : BitVec 32 := 0
  rxFwdCnt : BitVec 32 := 0
  /-- The first `stream_len` bytes of `stream`. -/
  stream : List UInt8 := []
  -- From here on the fields are history.
  sent : List Packet := []
  calls : List (BitVec 16 × List UInt8) := []

variable {H : Type}

/-- The header of a packet to the peer. -/
def State.header (s : State H) (op : BitVec 16) (len : Nat) : VsockHdr where
  srcCid := vsockHostCid
  dstCid := s.peerCid
  srcPort := criPort
  dstPort := s.peerPort
  len := BitVec.ofNat 32 len
  type := vsockTypeStream
  op := op
  bufAlloc := BitVec.ofNat 32 streamSize
  fwdCnt := s.rxFwdCnt

/-- `send_packet`.  `accept` says whether the transport queue has a buffer and takes it
back. -/
def sendPacket (bufferSize : Nat) (accept : Bool) (s : State H) (op : BitVec 16)
    (payload : List UInt8) : State H :=
  if !accept || bufferSize < vsockHdrSize + payload.length then s
  else
    { s with
      sent := s.sent ++ [{ hdr := s.header op payload.length, rest := payload }]
      txCount := if op = opRw then s.txCount + BitVec.ofNat 32 payload.length else s.txCount }

/-- A complete request: `dispatch`, the reply, and what comes after it. -/
def answerRequest (hd : Handler H) (bufferSize : Nat) (accept : Bool) (s : State H)
    (header : RpcHeader) (object : List UInt8) : Option (State H) :=
  match hd.dispatch s.handler header.op object with
  | none => none
  | some (handler, status, response) =>
    let reply := { header with status, length := BitVec.ofNat 32 objectSize }
    let s := sendPacket bufferSize accept
      { s with handler, calls := s.calls ++ [(header.op, object)] } opRw
      (reply.bytes ++ response)
    some { s with stream := [], handler := hd.afterReply s.handler header.op status }

/-- `process_stream` -/
def processStream (hd : Handler H) (bufferSize : Nat) (accept : Bool) (s : State H) :
    Option (State H) :=
  if s.stream.length < rpcHeaderSize then some s
  else
    let header := RpcHeader.load s.stream
    if !header.wellFormed then
      some { sendPacket bufferSize accept { s with stream := [] } opRst [] with connected := false }
    else if s.stream.length < rpcHeaderSize + objectSize then some s
    else answerRequest hd bufferSize accept s header
      ((s.stream.drop rpcHeaderSize).take objectSize)

/-- The packet comes from the other end of the connection. -/
def State.fromPeer (s : State H) (h : VsockHdr) : Bool :=
  s.connected && h.srcCid == s.peerCid && h.srcPort == s.peerPort && h.dstPort == criPort

/-- The state in which a connection is accepted. -/
def State.accepted (s : State H) (h : VsockHdr) : State H :=
  { s with connected := true, peerCid := h.srcCid, peerPort := h.srcPort, stream := [] }

/-- `process_packet` after it has read the header. -/
def handlePacket (hd : Handler H) (bufferSize : Nat) (accept : Bool) (s : State H)
    (p : Packet) : Option (State H) :=
  let h := p.hdr
  if p.rest.length < h.len.toNat || h.dstCid != vsockHostCid || h.type != vsockTypeStream then
    some s
  else if h.op = opRequest then
    if s.connected || h.dstPort != criPort then some s
    else
      some (sendPacket bufferSize accept (s.accepted h) opResponse [])
  else if !s.fromPeer h then some s
  else if h.op = opRw then
    if h.len.toNat ≤ streamSize - s.stream.length then
      processStream hd bufferSize accept
        { s with stream := s.stream ++ p.payload, rxFwdCnt := s.rxFwdCnt + h.len }
    else some s
  else if h.op = opCreditRequest then some (sendPacket bufferSize accept s opCreditUpdate [])
  else if h.op = opShutdown || h.op = opRst then
    let s := if h.op = opShutdown then sendPacket bufferSize accept s opRst [] else s
    some { s with connected := false, stream := [] }
  else some s

/-- `process_packet` -/
def processPacket (hd : Handler H) (bufferSize : Nat) (accept : Bool) (s : State H)
    (packet : List UInt8) : Option (State H) :=
  match Packet.load packet with
  | none => some s
  | some p => handlePacket hd bufferSize accept s p

/-! ## Headers -/

theorem RpcHeader.length_bytes (h : RpcHeader) : h.bytes.length = rpcHeaderSize := by
  simp only [bytes, List.length_append, length_toLE, rpcHeaderSize]

/-- A header is read back from its bytes, whatever follows them. -/
theorem RpcHeader.load_bytes (h : RpcHeader) (rest : List UInt8) :
    RpcHeader.load (h.bytes ++ rest) = h := by
  have hall := (holds_ofList (h.bytes ++ rest)).left
  have hmagic := readLE_of_holds (n := 4) (v := h.magic.toNat) (by
    have := hall.left
    rwa [length_toLE] at this)
  have h₁ := hall.right
  have hversion := readLE_of_holds (n := 2) (v := h.version.toNat) (by
    have := h₁.left
    rwa [length_toLE] at this)
  have h₂ := h₁.right
  have hop := readLE_of_holds (n := 2) (v := h.op.toNat) (by
    have := h₂.left
    rwa [length_toLE] at this)
  have h₃ := h₂.right
  have hrequest := readLE_of_holds (n := 4) (v := h.requestId.toNat) (by
    have := h₃.left
    rwa [length_toLE] at this)
  have h₄ := h₃.right
  have hstatus := readLE_of_holds (n := 4) (v := h.status.toNat) (by
    have := h₄.left
    rwa [length_toLE] at this)
  have h₅ := h₄.right
  have hlength := readLE_of_holds (n := 4) (v := h.length.toNat) (by rwa [length_toLE] at h₅)
  simp only [length_toLE, Nat.zero_add, Nat.reduceAdd] at *
  obtain ⟨magic, version, op, requestId, status, length⟩ := h
  simp only [RpcHeader.load, read16, read32, hmagic, hversion, hop, hrequest, hstatus, hlength,
    RpcHeader.mk.injEq]
  exact ⟨ofNat_toNat_mod 4 magic, ofNat_toNat_mod 2 version, ofNat_toNat_mod 2 op,
    ofNat_toNat_mod 4 requestId, ofNat_toNat_mod 4 status, ofNat_toNat_mod 4 length⟩

theorem RpcHeader.load_prefix {h : RpcHeader} {stream rest tail : List UInt8}
    (heq : stream ++ rest = h.bytes ++ tail) (hlen : rpcHeaderSize ≤ stream.length) :
    RpcHeader.load stream = h := by
  have happend : (stream ++ rest).take rpcHeaderSize = stream.take rpcHeaderSize :=
    List.take_append_of_le_length hlen
  have htake : stream.take rpcHeaderSize = h.bytes := by
    rw [← happend, heq, ← h.length_bytes, List.take_left]
  rw [← List.take_append_drop rpcHeaderSize stream, htake, h.load_bytes]

/-! ## Requests -/

/-- A well-formed request. -/
structure Request where
  header : RpcHeader
  object : List UInt8
  wellFormed : header.wellFormed = true
  length_object : object.length = objectSize

def Request.bytes (r : Request) : List UInt8 := r.header.bytes ++ r.object

theorem Request.length_bytes (r : Request) : r.bytes.length = streamSize := by
  rw [bytes, List.length_append, r.header.length_bytes, r.length_object]
  rfl

theorem Request.bytes_ne_nil (r : Request) : r.bytes ≠ [] := fun hnil => by
  have := r.length_bytes
  rw [hnil] at this
  exact absurd this (by decide)

theorem Request.object_eq (r : Request) :
    (r.bytes.drop rpcHeaderSize).take objectSize = r.object := by
  rw [bytes, ← r.header.length_bytes, List.drop_left, ← r.length_object, List.take_length]

/-- The header of a request is known from its first 20 bytes on. -/
theorem Request.load_header {r : Request} {stream rest : List UInt8}
    (h : stream ++ rest = r.bytes) (hlen : rpcHeaderSize ≤ stream.length) :
    RpcHeader.load stream = r.header :=
  RpcHeader.load_prefix h hlen

/-- The bytes of the reply to a request. -/
def Request.reply (r : Request) (status : BitVec 32) (response : List UInt8) : List UInt8 :=
  { r.header with status, length := BitVec.ofNat 32 objectSize }.bytes ++ response

theorem Request.length_reply (r : Request) (status : BitVec 32) {response : List UInt8}
    (h : response.length = objectSize) : (r.reply status response).length = streamSize := by
  rw [reply, List.length_append, RpcHeader.length_bytes, h]
  rfl

/-! ## What a packet does -/

theorem sendPacket_accept {bufferSize : Nat} (s : State H) (op : BitVec 16) {payload : List UInt8}
    (h : vsockHdrSize + payload.length ≤ bufferSize) :
    sendPacket bufferSize true s op payload =
      { s with
        sent := s.sent ++ [{ hdr := s.header op payload.length, rest := payload }]
        txCount :=
          if op = opRw then s.txCount + BitVec.ofNat 32 payload.length else s.txCount } := by
  have hroom : (!true || decide (bufferSize < vsockHdrSize + payload.length)) = false := by
    simpa using h
  rw [sendPacket, hroom]
  rfl

section Frame

variable (bufferSize : Nat) (accept : Bool) (s : State H) (op : BitVec 16)
  (payload : List UInt8)

@[simp] theorem sendPacket_handler : (sendPacket bufferSize accept s op payload).handler =
    s.handler := by
  unfold sendPacket
  split <;> rfl

@[simp] theorem sendPacket_connected : (sendPacket bufferSize accept s op payload).connected =
    s.connected := by
  unfold sendPacket
  split <;> rfl

@[simp] theorem sendPacket_peerCid : (sendPacket bufferSize accept s op payload).peerCid =
    s.peerCid := by
  unfold sendPacket
  split <;> rfl

@[simp] theorem sendPacket_peerPort : (sendPacket bufferSize accept s op payload).peerPort =
    s.peerPort := by
  unfold sendPacket
  split <;> rfl

@[simp] theorem sendPacket_rxFwdCnt : (sendPacket bufferSize accept s op payload).rxFwdCnt =
    s.rxFwdCnt := by
  unfold sendPacket
  split <;> rfl

@[simp] theorem sendPacket_stream : (sendPacket bufferSize accept s op payload).stream =
    s.stream := by
  unfold sendPacket
  split <;> rfl

@[simp] theorem sendPacket_calls : (sendPacket bufferSize accept s op payload).calls =
    s.calls := by
  unfold sendPacket
  split <;> rfl

end Frame

/-- A packet for this host that is as long as its header says. -/
structure Packet.Valid (p : Packet) : Prop where
  len_le : p.hdr.len.toNat ≤ p.rest.length
  dstCid : p.hdr.dstCid = vsockHostCid
  type : p.hdr.type = vsockTypeStream

theorem Packet.valid_iff {p : Packet} :
    p.Valid ↔ (p.rest.length < p.hdr.len.toNat || p.hdr.dstCid != vsockHostCid ||
      p.hdr.type != vsockTypeStream) = false := by
  simp only [Bool.or_eq_false_iff, decide_eq_false_iff_not, Nat.not_lt, bne_eq_false_iff_eq,
    and_assoc]
  exact ⟨fun h => ⟨h.len_le, h.dstCid, h.type⟩, fun ⟨hlen, hcid, htype⟩ => ⟨hlen, hcid, htype⟩⟩

/-- An `RW` packet from the peer. -/
structure State.IsRw (s : State H) (p : Packet) : Prop extends p.Valid where
  op : p.hdr.op = opRw
  fromPeer : s.fromPeer p.hdr = true

/-- A request for a connection that is accepted. -/
structure State.IsConnect (s : State H) (p : Packet) : Prop extends p.Valid where
  op : p.hdr.op = opRequest
  free : s.connected = false
  dstPort : p.hdr.dstPort = criPort

/-- The state in which `process_stream` runs after an `RW` packet. -/
def State.received (s : State H) (p : Packet) : State H :=
  { s with stream := s.stream ++ p.payload, rxFwdCnt := s.rxFwdCnt + p.hdr.len }

theorem State.IsRw.length_payload {s : State H} {p : Packet} (h : s.IsRw p) :
    p.payload.length = p.hdr.len.toNat := by
  rw [Packet.payload, List.length_take, Nat.min_eq_left h.len_le]

theorem handlePacket_rw {hd : Handler H} {bufferSize : Nat} {accept : Bool} {s : State H}
    {p : Packet} (h : s.IsRw p) (hroom : p.payload.length ≤ streamSize - s.stream.length) :
    handlePacket hd bufferSize accept s p = processStream hd bufferSize accept (s.received p) := by
  rw [h.length_payload] at hroom
  have hpass := Packet.valid_iff.mp h.toValid
  simp only [handlePacket, hpass, h.op, h.fromPeer, hroom, if_true, Bool.false_eq_true, if_false,
    Bool.not_true, State.received, show opRw ≠ opRequest by decide]

instance (p : Packet) : Decidable p.Valid :=
  decidable_of_iff
    (p.hdr.len.toNat ≤ p.rest.length ∧ p.hdr.dstCid = vsockHostCid ∧ p.hdr.type = vsockTypeStream)
    ⟨fun ⟨hlen, hcid, htype⟩ => ⟨hlen, hcid, htype⟩, fun h => ⟨h.len_le, h.dstCid, h.type⟩⟩

instance (s : State H) (p : Packet) : Decidable (s.IsRw p) :=
  decidable_of_iff (p.Valid ∧ p.hdr.op = opRw ∧ s.fromPeer p.hdr = true)
    ⟨fun ⟨hvalid, hop, hpeer⟩ => ⟨hvalid, hop, hpeer⟩, fun h => ⟨h.toValid, h.op, h.fromPeer⟩⟩

instance (s : State H) (p : Packet) : Decidable (s.IsConnect p) :=
  decidable_of_iff
    (p.Valid ∧ p.hdr.op = opRequest ∧ s.connected = false ∧ p.hdr.dstPort = criPort)
    ⟨fun ⟨hvalid, hop, hfree, hport⟩ => ⟨hvalid, hop, hfree, hport⟩,
      fun h => ⟨h.toValid, h.op, h.free, h.dstPort⟩⟩

/-- What `process_packet` may do with a packet. -/
inductive Handled (hd : Handler H) (bufferSize : Nat) (accept : Bool) (s : State H) (p : Packet) :
    Option (State H) → Prop
  | ignored (hrw : ¬ s.IsRw p) : Handled hd bufferSize accept s p (some s)
  | accepted (hconnect : s.IsConnect p) :
      Handled hd bufferSize accept s p
        (some (sendPacket bufferSize accept (s.accepted p.hdr) opResponse []))
  | full (hrw : s.IsRw p) (hroom : streamSize - s.stream.length < p.payload.length) :
      Handled hd bufferSize accept s p (some s)
  | stored (hrw : s.IsRw p) (hroom : p.payload.length ≤ streamSize - s.stream.length) :
      Handled hd bufferSize accept s p (processStream hd bufferSize accept (s.received p))
  | creditRequested (hpeer : s.fromPeer p.hdr = true) (hop : p.hdr.op = opCreditRequest) :
      Handled hd bufferSize accept s p (some (sendPacket bufferSize accept s opCreditUpdate []))
  | closed {t : State H} (hpeer : s.fromPeer p.hdr = true)
      (hop : p.hdr.op = opShutdown ∨ p.hdr.op = opRst)
      (ht : t = s ∨ t = sendPacket bufferSize accept s opRst []) :
      Handled hd bufferSize accept s p (some { t with connected := false, stream := [] })

theorem handlePacket_cases (hd : Handler H) (bufferSize : Nat) (accept : Bool) (s : State H)
    (p : Packet) :
    Handled hd bufferSize accept s p (handlePacket hd bufferSize accept s p) := by
  by_cases hrw : s.IsRw p
  · rcases Nat.lt_or_ge (streamSize - s.stream.length) p.payload.length with hroom | hroom
    · have hpass := Packet.valid_iff.mp hrw.toValid
      have hlen : ¬ p.hdr.len.toNat ≤ streamSize - s.stream.length := by
        rw [← hrw.length_payload]
        exact Nat.not_le.mpr hroom
      have hfull : handlePacket hd bufferSize accept s p = some s := by
        simp only [handlePacket, hpass, hrw.op, hrw.fromPeer, hlen, if_true, if_false,
          Bool.false_eq_true, Bool.not_true, show opRw ≠ opRequest by decide]
      exact hfull ▸ .full hrw hroom
    · exact handlePacket_rw hrw hroom ▸ .stored hrw hroom
  · unfold handlePacket
    dsimp only
    split
    case isTrue => exact .ignored hrw
    case isFalse hpass =>
      have hvalid : p.Valid := Packet.valid_iff.mpr (Bool.eq_false_iff.mpr hpass)
      split
      case isTrue hop =>
        split
        case isTrue => exact .ignored hrw
        case isFalse hfree =>
          simp only [Bool.or_eq_true, not_or, Bool.not_eq_true, bne_eq_false_iff_eq] at hfree
          exact .accepted ⟨hvalid, hop, hfree.1, hfree.2⟩
      case isFalse =>
        split
        case isTrue => exact .ignored hrw
        case isFalse hpeer =>
          simp only [Bool.not_eq_true, Bool.not_eq_false'] at hpeer
          split
          case isTrue hop => exact absurd ⟨hvalid, hop, hpeer⟩ hrw
          case isFalse =>
            split
            case isTrue hop => exact .creditRequested hpeer hop
            case isFalse =>
              split
              case isTrue hop =>
                refine .closed hpeer (by simpa using hop) ?_
                split
                · exact .inr rfl
                · exact .inl rfl
              case isFalse => exact .ignored hrw

/-- What `process_stream` may do. -/
inductive Streamed (hd : Handler H) (bufferSize : Nat) (accept : Bool) (s : State H) :
    Option (State H) → Prop
  | waits : Streamed hd bufferSize accept s (some s)
  | malformed : Streamed hd bufferSize accept s
      (some { sendPacket bufferSize accept { s with stream := [] } opRst [] with
        connected := false })
  | request (header : RpcHeader) (object : List UInt8) :
      Streamed hd bufferSize accept s (answerRequest hd bufferSize accept s header object)

theorem processStream_cases (hd : Handler H) (bufferSize : Nat) (accept : Bool) (s : State H) :
    Streamed hd bufferSize accept s (processStream hd bufferSize accept s) := by
  unfold processStream
  split
  case isTrue => exact .waits
  case isFalse =>
    dsimp only
    split
    case isTrue => exact .malformed
    case isFalse =>
      split
      case isTrue => exact .waits
      case isFalse => exact .request _ _

section Stream

variable {hd : Handler H} {bufferSize : Nat} {accept : Bool} {s : State H} {r : Request}

theorem processStream_empty (h : s.stream = []) : processStream hd bufferSize accept s = some s := by
  rw [processStream, h, if_pos (by decide)]

/-- The first bytes of a request wait for the others. -/
theorem processStream_partial {rest : List UInt8} (h : s.stream ++ rest = r.bytes)
    (hrest : rest ≠ []) : processStream hd bufferSize accept s = some s := by
  have hlen : s.stream.length < streamSize := by
    have := congrArg List.length h
    have := List.length_pos_iff.mpr hrest
    rw [List.length_append, r.length_bytes] at *
    omega
  unfold processStream
  split
  case isTrue => rfl
  case isFalse hheader =>
    dsimp only
    rw [r.load_header h (Nat.le_of_not_lt hheader), r.wellFormed]
    exact if_pos hlen

theorem processStream_complete (h : s.stream = r.bytes) :
    processStream hd bufferSize accept s =
      answerRequest hd bufferSize accept s r.header r.object := by
  have hlen : s.stream.length = streamSize := by rw [h, r.length_bytes]
  have happend : s.stream ++ [] = r.bytes := by rw [h, List.append_nil]
  have hheader : RpcHeader.load s.stream = r.header :=
    r.load_header happend (by rw [hlen]; decide)
  rw [processStream, hlen, if_neg (by decide)]
  dsimp only
  rw [hheader, r.wellFormed, h, r.object_eq]
  rfl

theorem answerRequest_eq_some {s' : State H}
    (h : answerRequest hd bufferSize accept s r.header r.object = some s') :
    ∃ handler status response,
      hd.dispatch s.handler r.header.op r.object = some (handler, status, response) ∧
      s' =
        { sendPacket bufferSize accept
            { s with handler, calls := s.calls ++ [(r.header.op, r.object)] } opRw
            (r.reply status response) with
          stream := [], handler := hd.afterReply handler r.header.op status } := by
  unfold answerRequest at h
  split at h
  case h_1 => cases h
  case h_2 handler status response hdispatch =>
    refine ⟨handler, status, response, hdispatch, ?_⟩
    rw [← Option.some.inj h, ← Request.reply, sendPacket_handler]

/-- An `RW` packet with the next bytes of a request, and not its last. -/
theorem handlePacket_partial {p : Packet} {rest : List UInt8} (hp : s.IsRw p)
    (h : s.stream ++ (p.payload ++ rest) = r.bytes) (hrest : rest ≠ []) :
    handlePacket hd bufferSize accept s p = some (s.received p) := by
  have hlen := congrArg List.length h
  rw [List.length_append, List.length_append, r.length_bytes] at hlen
  rw [handlePacket_rw hp (by omega)]
  rw [← List.append_assoc] at h
  exact processStream_partial h hrest

/-- An `RW` packet with the last bytes of a request. -/
theorem handlePacket_complete {p : Packet} (hp : s.IsRw p)
    (h : s.stream ++ p.payload = r.bytes) :
    handlePacket hd bufferSize accept s p =
      answerRequest hd bufferSize accept (s.received p) r.header r.object := by
  have hlen := congrArg List.length h
  rw [List.length_append, r.length_bytes] at hlen
  rw [handlePacket_rw hp (by omega)]
  exact processStream_complete h

end Stream

end Vsock
end Carrels
