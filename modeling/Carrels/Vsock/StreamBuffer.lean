/-
The stream buffer under packets of any bytes.

`process_packet` and `process_stream` once more, with a log of the bytes of the packet they read
and the bytes of `stream` they read or write, and with the subtractions of the code, which are
unsigned.  An access out of bounds breaks them off.  None of them is, and the buffer is always
either free or at the start of a request whose header is right.
-/
import Carrels.Lib.Logged
import Carrels.Vsock.Credit

namespace Carrels
namespace Vsock

open StepSystem ByteMemory Logged

variable {H : Type}

/-! ## Accesses -/

inductive StreamAccess
  /-- `len` bytes of the packet are read. -/
  | packet (start len : Nat)
  /-- `len` bytes of `stream` are read or written. -/
  | stream (start len : Nat)
  /-- `dispatch` is called. -/
  | dispatch (op : BitVec 16) (object : List UInt8)

def StreamAccess.inBounds (packetLen : Nat) : StreamAccess → Bool
  | .packet start len => start + len ≤ packetLen
  | .stream start len => start + len ≤ streamSize
  | .dispatch _ _ => true

/-- The call of `dispatch`, if it is one. -/
def StreamAccess.call : StreamAccess → Option (BitVec 16 × List UInt8)
  | .dispatch op object => some (op, object)
  | _ => none

/-- `sizeof(stream) - stream_len` -/
def State.room (s : State H) : BitVec 64 :=
  BitVec.ofNat 64 streamSize - BitVec.ofNat 64 s.stream.length

/-- `process_stream` -/
def processStreamLogged (hd : Handler H) (bufferSize : Nat) (accept : Bool) (packetLen : Nat)
    (s : State H) : Logged StreamAccess (State H) :=
  if s.stream.length < rpcHeaderSize then pure s
  else do
    touch (StreamAccess.inBounds packetLen) (.stream 0 rpcHeaderSize)
    let header := RpcHeader.load s.stream
    if !header.wellFormed then
      pure { sendPacket bufferSize accept { s with stream := [] } opRst [] with connected := false }
    else if s.stream.length < rpcHeaderSize + objectSize then pure s
    else do
      touch (StreamAccess.inBounds packetLen) (.stream rpcHeaderSize objectSize)
      let object := (s.stream.drop rpcHeaderSize).take objectSize
      touch (StreamAccess.inBounds packetLen) (.dispatch header.op object)
      attempt (answerRequest hd bufferSize accept s header object)

/-- `process_packet` after it has read the header of a packet of `packetLen` bytes. -/
def handlePacketLogged (hd : Handler H) (bufferSize : Nat) (accept : Bool) (packetLen : Nat)
    (s : State H) (p : Packet) : Logged StreamAccess (State H) :=
  let h := p.hdr
  if packetLen - vsockHdrSize < h.len.toNat || h.dstCid != vsockHostCid ||
      h.type != vsockTypeStream then pure s
  else if h.op = opRequest then
    if s.connected || h.dstPort != criPort then pure s
    else pure (sendPacket bufferSize accept (s.accepted h) opResponse [])
  else if !s.fromPeer h then pure s
  else if h.op = opRw then
    if h.len.toNat ≤ s.room.toNat then do
      touch (StreamAccess.inBounds packetLen) (.packet vsockHdrSize h.len.toNat)
      touch (StreamAccess.inBounds packetLen) (.stream s.stream.length h.len.toNat)
      processStreamLogged hd bufferSize accept packetLen
        { s with stream := s.stream ++ p.payload, rxFwdCnt := s.rxFwdCnt + h.len }
    else pure s
  else if h.op = opCreditRequest then pure (sendPacket bufferSize accept s opCreditUpdate [])
  else if h.op = opShutdown || h.op = opRst then
    let s := if h.op = opShutdown then sendPacket bufferSize accept s opRst [] else s
    pure { s with connected := false, stream := [] }
  else pure s

/-- `process_packet` -/
def processPacketLogged (hd : Handler H) (bufferSize : Nat) (accept : Bool) (s : State H)
    (packet : List UInt8) : Logged StreamAccess (State H) :=
  match Packet.load packet with
  | none => pure s
  | some p => do
    touch (StreamAccess.inBounds packet.length) (.packet 0 vsockHdrSize)
    handlePacketLogged hd bufferSize accept packet.length s p

/-- One packet. -/
def bufferStep (hd : Handler H) (bufferSize : Nat) (s : State H) (e : Arrival) :
    Option (State H) :=
  (processPacketLogged hd bufferSize e.accept s e.packet).result

/-! ## The buffer -/

/-- The buffer has room, begins with a valid header once it holds one, and is empty without a
connection. -/
structure BufferInv (s : State H) : Prop where
  length_lt : s.stream.length < streamSize
  header : rpcHeaderSize ≤ s.stream.length →
    (RpcHeader.load (s.stream.take rpcHeaderSize)).wellFormed = true
  idle : s.connected = false → s.stream = []

/-- The bytes are a valid header for this operation and the whole object behind it. -/
def CompleteRequest (bs : List UInt8) (op : BitVec 16) (object : List UInt8) : Prop :=
  ∃ header, bs = header ++ object ∧ header.length = rpcHeaderSize ∧ object.length = objectSize ∧
    (RpcHeader.load header).wellFormed = true ∧ (RpcHeader.load header).op = op

/-- What one packet does: every access is in bounds, `dispatch` is called for complete requests
only, and the buffer is sound after it. -/
structure PacketSound (hd : Handler H) (bufferSize : Nat) (s : State H) (e : Arrival) : Prop where
  inBounds : (processPacketLogged hd bufferSize e.accept s e.packet).All
    (StreamAccess.inBounds e.packet.length)
  complete : ∀ op object,
    .dispatch op object ∈ (processPacketLogged hd bufferSize e.accept s e.packet).log →
      ∃ p, Packet.load e.packet = some p ∧ s.IsRw p ∧
        CompleteRequest (s.stream ++ p.payload) op object
  calls : ∀ s', bufferStep hd bufferSize s e = some s' → s'.calls = s.calls ++
    (processPacketLogged hd bufferSize e.accept s e.packet).log.filterMap StreamAccess.call
  next : ∀ s', bufferStep hd bufferSize s e = some s' → BufferInv s'

theorem RpcHeader.load_take (bs : List UInt8) :
    RpcHeader.load (bs.take rpcHeaderSize) = RpcHeader.load bs := by
  have hagree : AgreeOn 0 20 (ofList (bs.take rpcHeaderSize)) (ofList bs) := by
    intro x _ hx
    rw [ofList, ofList, List.getD_eq_getElem?_getD, List.getD_eq_getElem?_getD,
      List.getElem?_take_of_lt (by rw [rpcHeaderSize]; omega)]
  rw [RpcHeader.load, RpcHeader.load, RpcHeader.mk.injEq]
  exact ⟨read32_congr (hagree.part (by omega) (by omega)),
    read16_congr (hagree.part (by omega) (by omega)),
    read16_congr (hagree.part (by omega) (by omega)),
    read32_congr (hagree.part (by omega) (by omega)),
    read32_congr (hagree.part (by omega) (by omega)),
    read32_congr (hagree.part (by omega) (by omega))⟩

/-! ## The logged functions are the functions -/

section

variable {hd : Handler H} {bufferSize : Nat} {accept : Bool} {packetLen : Nat} {s s' : State H}
  {p : Packet}

theorem State.room_toNat (h : s.stream.length ≤ streamSize) :
    s.room.toNat = streamSize - s.stream.length := by
  rw [streamSize] at h
  rw [State.room, BitVec.toNat_sub, BitVec.toNat_ofNat, BitVec.toNat_ofNat, streamSize]
  omega

theorem processStreamLogged_all :
    (processStreamLogged hd bufferSize accept packetLen s).All
      (StreamAccess.inBounds packetLen) := by
  have hheader : StreamAccess.inBounds packetLen (.stream 0 rpcHeaderSize) = true := rfl
  have hobject : StreamAccess.inBounds packetLen (.stream rpcHeaderSize objectSize) = true := rfl
  rw [processStreamLogged]
  split
  · exact all_pure _ _
  · rw [all_bind, all_touch]
    refine ⟨hheader, fun _ _ => ?_⟩
    dsimp only
    split
    · exact all_pure _ _
    · split
      · exact all_pure _ _
      · simp only [all_bind, all_touch, all_attempt, hobject, implies_true, and_true, true_and]
        exact fun _ _ => rfl

theorem processStreamLogged_result :
    (processStreamLogged hd bufferSize accept packetLen s).result =
      processStream hd bufferSize accept s := by
  rw [processStreamLogged, processStream]
  split
  · rfl
  · dsimp only
    have hheader : StreamAccess.inBounds packetLen (.stream 0 rpcHeaderSize) = true := rfl
    have hobject : StreamAccess.inBounds packetLen (.stream rpcHeaderSize objectSize) = true := rfl
    have hcall : ∀ op object, StreamAccess.inBounds packetLen (.dispatch op object) = true :=
      fun _ _ => rfl
    rw [result_bind, result_touch, hheader, if_pos rfl, Option.bind_some]
    split
    · rfl
    · split
      · rfl
      · simp only [result_bind, result_touch, result_attempt, hobject, hcall, if_true,
          Option.bind_some]

/-- An access is made for an `RW` packet of the peer that fits, and for no other packet. -/
theorem handlePacketLogged_eq (h : s.stream.length ≤ streamSize)
    (hlen : packetLen - vsockHdrSize = p.rest.length) :
    handlePacketLogged hd bufferSize accept packetLen s p =
      if s.IsRw p ∧ p.payload.length ≤ streamSize - s.stream.length then do
        touch (StreamAccess.inBounds packetLen) (.packet vsockHdrSize p.payload.length)
        touch (StreamAccess.inBounds packetLen) (.stream s.stream.length p.payload.length)
        processStreamLogged hd bufferSize accept packetLen (s.received p)
      else attempt (handlePacket hd bufferSize accept s p) := by
  by_cases hrw : s.IsRw p
  · have hpass := Packet.valid_iff.mp hrw.toValid
    simp only [handlePacketLogged, handlePacket, hlen, hpass, hrw, hrw.op, hrw.fromPeer, if_true,
      State.room_toNat h, Bool.false_eq_true, if_false, Bool.not_true, State.received, true_and,
      hrw.length_payload, show opRw ≠ opRequest by decide]
    split
    · rfl
    · rfl
  · rw [if_neg fun hboth => hrw hboth.1, handlePacketLogged, handlePacket]
    dsimp only
    rw [hlen]
    split
    case isTrue => rfl
    case isFalse hpass =>
      have hvalid : p.Valid := Packet.valid_iff.mpr (Bool.eq_false_iff.mpr hpass)
      split
      case isTrue => split <;> rfl
      case isFalse =>
        split
        case isTrue => rfl
        case isFalse hpeer =>
          simp only [Bool.not_eq_true, Bool.not_eq_false'] at hpeer
          split
          case isTrue hop => exact absurd ⟨hvalid, hop, hpeer⟩ hrw
          case isFalse =>
            split
            case isTrue => rfl
            case isFalse => split <;> rfl

/-! ## One packet -/

theorem answerRequest_stream {header : RpcHeader} {object : List UInt8}
    (h : answerRequest hd bufferSize accept s header object = some s') :
    s'.stream = [] ∧ s'.calls = s.calls ++ [(header.op, object)] := by
  rw [answerRequest] at h
  split at h
  case h_1 => cases h
  case h_2 =>
    obtain rfl := Option.some.inj h
    exact ⟨rfl, sendPacket_calls ..⟩

theorem BufferInv.of_empty (h : s.stream = []) : BufferInv s where
  length_lt := by
    rw [h]
    decide
  header hle := by
    rw [h] at hle
    exact absurd hle (by decide)
  idle _ := h

theorem BufferInv.processStream (hconnected : s.connected = true)
    (h : processStream hd bufferSize accept s = some s') : BufferInv s' := by
  have hidle : s.connected = false → s.stream = [] := fun hfalse =>
    absurd (hfalse.symm.trans hconnected) Bool.false_ne_true
  rw [Vsock.processStream] at h
  split at h
  case isTrue hshort =>
    obtain rfl := Option.some.inj h
    exact ⟨Nat.lt_trans hshort (by decide), fun hle => absurd hshort (Nat.not_lt.mpr hle), hidle⟩
  case isFalse =>
    dsimp only at h
    split at h
    case isTrue =>
      obtain rfl := Option.some.inj h
      exact .of_empty (sendPacket_stream ..)
    case isFalse hheader =>
      split at h
      case isTrue hpart =>
        obtain rfl := Option.some.inj h
        refine ⟨hpart, fun _ => ?_, hidle⟩
        rw [RpcHeader.load_take]
        simpa using hheader
      case isFalse => exact .of_empty (answerRequest_stream h).1

theorem BufferInv.same (h : BufferInv s) (hstream : s'.stream = s.stream)
    (hconnected : s'.connected = s.connected) : BufferInv s' where
  length_lt := hstream ▸ h.length_lt
  header := hstream ▸ h.header
  idle hidle := hstream.trans (h.idle (hconnected.symm.trans hidle))

theorem BufferInv.handlePacket (h : BufferInv s)
    (hs : handlePacket hd bufferSize accept s p = some s') : BufferInv s' := by
  have hcases := handlePacket_cases hd bufferSize accept s p
  generalize Vsock.handlePacket hd bufferSize accept s p = result at hcases hs
  cases hcases with
  | ignored | full =>
    obtain rfl := Option.some.inj hs
    exact h
  | accepted =>
    obtain rfl := Option.some.inj hs
    exact .of_empty (sendPacket_stream ..)
  | stored hrw =>
    have hconnected : (s.received p).connected = true := fromPeer_connected hrw.fromPeer
    exact .processStream hconnected hs
  | creditRequested =>
    obtain rfl := Option.some.inj hs
    exact h.same (sendPacket_stream ..) (sendPacket_connected ..)
  | closed =>
    obtain rfl := Option.some.inj hs
    exact .of_empty rfl

/-- A full buffer behind a valid header is a request. -/
theorem completeRequest_of_full {bs : List UInt8} (hlen : bs.length = streamSize)
    (hvalid : (RpcHeader.load bs).wellFormed = true) :
    CompleteRequest bs (RpcHeader.load bs).op ((bs.drop rpcHeaderSize).take objectSize) := by
  have hdrop : (bs.drop rpcHeaderSize).length = objectSize := by
    rw [List.length_drop, hlen]
    rfl
  have htake : (bs.drop rpcHeaderSize).take objectSize = bs.drop rpcHeaderSize := by
    rw [← hdrop, List.take_length]
  rw [htake]
  refine ⟨bs.take rpcHeaderSize, ?_, ?_, hdrop, ?_, ?_⟩
  · rw [List.take_append_drop]
  · rw [List.length_take, hlen]
    rfl
  · rwa [RpcHeader.load_take]
  · rw [RpcHeader.load_take]

variable (hd bufferSize accept packetLen) in
/-- The calls of `dispatch` in `process_stream`. -/
theorem processStreamLogged_calls (hlen : s.stream.length ≤ streamSize) :
    ((processStreamLogged hd bufferSize accept packetLen s).log.filterMap StreamAccess.call = [] ∧
      ∀ s', processStream hd bufferSize accept s = some s' → s'.calls = s.calls) ∨
    ∃ op object, CompleteRequest s.stream op object ∧
      (processStreamLogged hd bufferSize accept packetLen s).log.filterMap StreamAccess.call =
        [(op, object)] ∧
      ∀ s', processStream hd bufferSize accept s = some s' →
        s'.calls = s.calls ++ [(op, object)] := by
  have hheader : StreamAccess.inBounds packetLen (.stream 0 rpcHeaderSize) = true := rfl
  have hobject : StreamAccess.inBounds packetLen (.stream rpcHeaderSize objectSize) = true := rfl
  rw [processStreamLogged, processStream]
  split
  case isTrue => exact .inl ⟨rfl, fun s' h => by rw [← Option.some.inj h]⟩
  case isFalse =>
    dsimp only
    rw [log_touch_bind hheader]
    split
    case isTrue =>
      refine .inl ⟨rfl, fun s' h => ?_⟩
      rw [← Option.some.inj h]
      exact sendPacket_calls ..
    case isFalse hvalid =>
      split
      case isTrue => exact .inl ⟨rfl, fun s' h => by rw [← Option.some.inj h]⟩
      case isFalse hcomplete =>
        have hfull : s.stream.length = streamSize :=
          Nat.le_antisymm hlen (Nat.le_of_not_lt hcomplete)
        refine .inr ⟨_, _, completeRequest_of_full hfull (by simpa using hvalid), ?_, ?_⟩
        · rw [log_touch_bind hobject, log_touch_bind rfl]
          rfl
        · intro s' h
          exact (answerRequest_stream h).2

theorem handlePacket_calls (hnot : ¬ (s.IsRw p ∧ p.payload.length ≤ streamSize - s.stream.length))
    (hs : handlePacket hd bufferSize accept s p = some s') : s'.calls = s.calls := by
  have hcases := handlePacket_cases hd bufferSize accept s p
  generalize handlePacket hd bufferSize accept s p = result at hcases hs
  cases hcases with
  | ignored | full => rw [← Option.some.inj hs]
  | accepted =>
    rw [← Option.some.inj hs]
    exact sendPacket_calls ..
  | stored hrw hroom => exact absurd ⟨hrw, hroom⟩ hnot
  | creditRequested =>
    rw [← Option.some.inj hs]
    exact sendPacket_calls ..
  | closed _ _ ht =>
    rw [← Option.some.inj hs]
    obtain rfl | rfl := ht
    · rfl
    · exact sendPacket_calls ..

theorem Packet.load_length {packet : List UInt8} (h : Packet.load packet = some p) :
    vsockHdrSize ≤ packet.length ∧ packet.length - vsockHdrSize = p.rest.length := by
  rw [Packet.load] at h
  split at h
  case isTrue => cases h
  case isFalse hlen =>
    obtain rfl := Option.some.inj h
    exact ⟨Nat.le_of_not_lt hlen, List.length_drop.symm⟩

theorem State.length_received (s : State H) (p : Packet) :
    (s.received p).stream.length = s.stream.length + p.payload.length := List.length_append

/-- The accesses for a packet in the queue. -/
structure AccessesInBounds (s : State H) (packetLen : Nat) (p : Packet) : Prop where
  header : StreamAccess.inBounds packetLen (.packet 0 vsockHdrSize) = true
  payload : s.IsRw p →
    StreamAccess.inBounds packetLen (.packet vsockHdrSize p.payload.length) = true
  stream : p.payload.length ≤ streamSize - s.stream.length →
    StreamAccess.inBounds packetLen (.stream s.stream.length p.payload.length) = true

theorem BufferInv.accessesInBounds (h : BufferInv s) {packet : List UInt8}
    (hload : Packet.load packet = some p) : AccessesInBounds s packet.length p := by
  obtain ⟨hsize, hrest⟩ := Packet.load_length hload
  have hlt := h.length_lt
  constructor
  · simpa [StreamAccess.inBounds] using hsize
  · intro hrw
    have hle := hrw.len_le
    rw [← hrw.length_payload] at hle
    simp only [StreamAccess.inBounds, decide_eq_true_eq]
    omega
  · intro hroom
    simp only [StreamAccess.inBounds, decide_eq_true_eq]
    omega

/-- The logged packet is the packet. -/
theorem bufferStep_eq (h : BufferInv s) (e : Arrival) :
    bufferStep hd bufferSize s e = processPacket hd bufferSize e.accept s e.packet := by
  rw [bufferStep, processPacketLogged, processPacket]
  cases hload : Packet.load e.packet with
  | none => rfl
  | some p =>
    have haccess := h.accessesInBounds hload
    dsimp only
    rw [result_bind, result_touch, haccess.header, if_pos rfl, Option.bind_some,
      handlePacketLogged_eq (Nat.le_of_lt h.length_lt) (Packet.load_length hload).2]
    split
    case isTrue hstored =>
      obtain ⟨hrw, hroom⟩ := hstored
      rw [result_bind, result_touch, haccess.payload hrw, if_pos rfl, Option.bind_some, result_bind,
        result_touch, haccess.stream hroom, if_pos rfl, Option.bind_some,
        processStreamLogged_result, handlePacket_rw hrw hroom]
    case isFalse => rfl

theorem BufferInv.step (h : BufferInv s) {e : Arrival}
    (hs : bufferStep hd bufferSize s e = some s') : BufferInv s' := by
  rw [bufferStep_eq h, processPacket] at hs
  cases hload : Packet.load e.packet with
  | none =>
    rw [hload] at hs
    obtain rfl := Option.some.inj hs
    exact h
  | some p =>
    rw [hload] at hs
    exact h.handlePacket hs

theorem BufferInv.all (h : BufferInv s) (e : Arrival) :
    (processPacketLogged hd bufferSize e.accept s e.packet).All
      (StreamAccess.inBounds e.packet.length) := by
  rw [processPacketLogged]
  cases hload : Packet.load e.packet with
  | none => exact all_pure _ _
  | some p =>
    have haccess := h.accessesInBounds hload
    rw [all_bind, all_touch, handlePacketLogged_eq (Nat.le_of_lt h.length_lt)
      (Packet.load_length hload).2]
    refine ⟨haccess.header, fun _ _ => ?_⟩
    split
    case isTrue hstored =>
      obtain ⟨hrw, hroom⟩ := hstored
      rw [all_bind, all_touch]
      refine ⟨haccess.payload hrw, fun _ _ => ?_⟩
      rw [all_bind, all_touch]
      exact ⟨haccess.stream hroom, fun _ _ => processStreamLogged_all⟩
    case isFalse => exact all_attempt _ _

variable (hd bufferSize) in
theorem BufferInv.calls (h : BufferInv s) (e : Arrival) :
    ((processPacketLogged hd bufferSize e.accept s e.packet).log.filterMap StreamAccess.call = [] ∧
      ∀ s', bufferStep hd bufferSize s e = some s' → s'.calls = s.calls) ∨
    ∃ p op object, Packet.load e.packet = some p ∧ s.IsRw p ∧
      CompleteRequest (s.stream ++ p.payload) op object ∧
      (processPacketLogged hd bufferSize e.accept s e.packet).log.filterMap StreamAccess.call =
        [(op, object)] ∧
      ∀ s', bufferStep hd bufferSize s e = some s' → s'.calls = s.calls ++ [(op, object)] := by
  rw [bufferStep_eq h, processPacketLogged, processPacket]
  cases hload : Packet.load e.packet with
  | none => exact .inl ⟨rfl, fun s' hs => by rw [← Option.some.inj hs]⟩
  | some p =>
    have haccess := h.accessesInBounds hload
    dsimp only
    rw [log_touch_bind haccess.header, handlePacketLogged_eq (Nat.le_of_lt h.length_lt)
      (Packet.load_length hload).2]
    split
    case isTrue hstored =>
      obtain ⟨hrw, hroom⟩ := hstored
      have hlen : (s.received p).stream.length ≤ streamSize := by
        have hlt := h.length_lt
        rw [State.length_received]
        omega
      rw [log_touch_bind (haccess.payload hrw), log_touch_bind (haccess.stream hroom),
        handlePacket_rw hrw hroom]
      obtain ⟨hnone, hs⟩ | ⟨op, object, hcomplete, hone, hs⟩ :=
        processStreamLogged_calls hd bufferSize e.accept e.packet.length hlen
      · exact .inl ⟨hnone, hs⟩
      · exact .inr ⟨p, op, object, rfl, hrw, hcomplete, hone, hs⟩
    case isFalse hnot => exact .inl ⟨rfl, fun s' hs => handlePacket_calls hnot hs⟩

theorem BufferInv.packetSound (h : BufferInv s) (e : Arrival) : PacketSound hd bufferSize s e := by
  have hcalls := h.calls hd bufferSize e
  have hmem : ∀ op object,
      .dispatch op object ∈ (processPacketLogged hd bufferSize e.accept s e.packet).log →
        (op, object) ∈ (processPacketLogged hd bufferSize e.accept s e.packet).log.filterMap
          StreamAccess.call := fun op object hlog => List.mem_filterMap.mpr ⟨_, hlog, rfl⟩
  refine ⟨h.all e, fun op object hlog => ?_, fun s' hs => ?_, fun s' hs => h.step hs⟩
  · replace hlog := hmem op object hlog
    obtain ⟨hnone, -⟩ | ⟨p, op', object', hload, hrw, hcomplete, hone, -⟩ := hcalls
    · rw [hnone] at hlog
      exact absurd hlog List.not_mem_nil
    · rw [hone, List.mem_singleton] at hlog
      obtain ⟨rfl, rfl⟩ := Prod.mk.inj hlog
      exact ⟨p, hload, hrw, hcomplete⟩
  · obtain ⟨hnone, hs'⟩ | ⟨p, op, object, -, -, -, hone, hs'⟩ := hcalls
    · rw [hnone, hs' s' hs, List.append_nil]
    · rw [hone, hs' s' hs]

end

/-! ## Every run -/

/-- Whatever packets arrive, the buffer is sound after each of them, nothing is read or written out
of bounds and only complete requests are dispatched. -/
theorem streamBufferSound (hd : Handler H) (bufferSize : Nat) {h : H} {s : State H}
    (hreach : Reaches (bufferStep hd bufferSize) anyEvent { handler := h } s) :
    BufferInv s ∧ ∀ e, PacketSound hd bufferSize s e := by
  have hinv : BufferInv s := by
    apply hreach.invariant
    · exact .of_empty rfl
    · intro s e s' hinv _ hs
      exact hinv.step hs
  exact ⟨hinv, fun e => hinv.packetSound e⟩

/-- The state after the packets of the first connection. -/
def bufferedState : State Unit :=
  (run (bufferStep silentHandler 4096) { handler := () } firstRun).get (by decide +kernel)

theorem streamBufferSound_bufferedState :
    (BufferInv bufferedState ∧ ∀ e, PacketSound silentHandler 4096 bufferedState e) ∧
      bufferedState.stream = [1, 2, 3] :=
  ⟨streamBufferSound silentHandler 4096
    (reaches_of_run (runMeets_anyEvent _ _ firstRun) (Option.some_get _).symm), by decide +kernel⟩

end Vsock
end Carrels
