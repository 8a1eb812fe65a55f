/-
Requests are put together from packets.

However the 2556 bytes of each request are cut into packets, `process_packet` hands the
requests to `dispatch` one after the other and sends one reply for each of them.
-/
import Mathlib.Data.List.Forall2
import Carrels.Lib.Run
import Carrels.Vsock.Packet

namespace Carrels
namespace Vsock

open StepSystem ByteMemory

variable {H : Type}

/-- `process_packet` on one packet after the other, with a transport queue that accepts
every packet. -/
def runPackets (hd : Handler H) (bufferSize : Nat) (s : State H) (packets : List (List UInt8)) :
    Option (State H) :=
  run (fun s packet => processPacket hd bufferSize true s packet) s packets

/-- A packet in the queue is an `RW` packet from the peer with this payload. -/
def State.Carries (s : State H) (packet payload : List UInt8) : Prop :=
  ∃ p, Packet.load packet = some p ∧ s.IsRw p ∧ p.payload = payload

/-- The packets from the peer carry the bytes of the request. -/
def State.Cuts (s : State H) (r : Request) (packets : List (List UInt8)) : Prop :=
  ∃ payloads, List.Forall₂ s.Carries packets payloads ∧ payloads.flatten = r.bytes

/-- The status and the response that `dispatch` gives to each of these requests, one after
the other. -/
def serve (hd : Handler H) : H → List Request → Option (H × List (BitVec 32 × List UInt8))
  | h, [] => some (h, [])
  | h, r :: rest =>
    match hd.dispatch h r.header.op r.object with
    | none => none
    | some (h, status, response) =>
      (serve hd (hd.afterReply h r.header.op status) rest).map
        fun (h, answers) => (h, (status, response) :: answers)

/-- The packet is an `RW` packet to the peer, and it carries this answer to the request. -/
structure State.IsReply (s : State H) (answered : Request × (BitVec 32 × List UInt8))
    (p : Packet) : Prop where
  op : p.hdr.op = opRw
  dstCid : p.hdr.dstCid = s.peerCid
  dstPort : p.hdr.dstPort = s.peerPort
  len : p.hdr.len.toNat = p.rest.length
  payload : p.rest = answered.1.reply answered.2.1 answered.2.2

/-- After these packets `dispatch` has been called once for each request, in order, each
request has its reply, and the stream is empty.  Where a call of `dispatch` does not
return, nothing comes after it. -/
def Reassembles (hd : Handler H) (bufferSize : Nat) (s : State H) (requests : List Request)
    (packets : List (List UInt8)) : Prop :=
  match serve hd s.handler requests with
  | none => runPackets hd bufferSize s packets = none
  | some (h, answers) => ∃ s' replies,
      runPackets hd bufferSize s packets = some s' ∧
      s'.handler = h ∧ s'.connected = true ∧ s'.stream = [] ∧
      s'.calls = s.calls ++ requests.map (fun r => (r.header.op, r.object)) ∧
      s'.sent = s.sent ++ replies ∧
      List.Forall₂ s.IsReply (requests.zip answers) replies

/-! ## One request -/

/-- The two states serve the same connection. -/
structure SamePeer (s s' : State H) : Prop where
  connected : s'.connected = s.connected
  peerCid : s'.peerCid = s.peerCid
  peerPort : s'.peerPort = s.peerPort

theorem SamePeer.received (s : State H) (p : Packet) : SamePeer s (s.received p) := ⟨rfl, rfl, rfl⟩

theorem SamePeer.trans {s s' s'' : State H} (h : SamePeer s s') (h' : SamePeer s' s'') :
    SamePeer s s'' :=
  ⟨h'.connected.trans h.connected, h'.peerCid.trans h.peerCid, h'.peerPort.trans h.peerPort⟩

theorem SamePeer.carries {s s' : State H} (h : SamePeer s s') {packet payload : List UInt8}
    (hp : s.Carries packet payload) : s'.Carries packet payload := by
  obtain ⟨p, hload, hrw, hpayload⟩ := hp
  refine ⟨p, hload, ⟨hrw.toValid, hrw.op, ?_⟩, hpayload⟩
  rw [State.fromPeer, h.connected, h.peerCid, h.peerPort]
  exact hrw.fromPeer

theorem SamePeer.isReply {s s' : State H} (h : SamePeer s s')
    {answered : Request × (BitVec 32 × List UInt8)} {p : Packet} (hp : s'.IsReply answered p) :
    s.IsReply answered p :=
  ⟨hp.op, hp.dstCid.trans h.peerCid, hp.dstPort.trans h.peerPort, hp.len, hp.payload⟩

/-- One request has been answered. -/
structure Answered (hd : Handler H) (s s' : State H) (r : Request) (h : H) (status : BitVec 32)
    (response : List UInt8) (reply : Packet) : Prop where
  samePeer : SamePeer s s'
  handler : s'.handler = hd.afterReply h r.header.op status
  stream : s'.stream = []
  calls : s'.calls = s.calls ++ [(r.header.op, r.object)]
  sent : s'.sent = s.sent ++ [reply]
  isReply : s.IsReply (r, (status, response)) reply

section Request

variable {hd : Handler H} {bufferSize : Nat} {s : State H} {r : Request}

theorem answerRequest_answered (hbuffer : vsockHdrSize + streamSize ≤ bufferSize) {h : H}
    {status : BitVec 32} {response : List UInt8}
    (hdispatch : hd.dispatch s.handler r.header.op r.object = some (h, status, response)) :
    ∃ s' reply, answerRequest hd bufferSize true s r.header r.object = some s' ∧
      Answered hd s s' r h status response reply := by
  have hlen := r.length_reply status (hd.length_response hdispatch)
  have hsend := sendPacket_accept
    { s with handler := h, calls := s.calls ++ [(r.header.op, r.object)] } opRw
    (hlen ▸ hbuffer)
  rw [answerRequest, hdispatch]
  dsimp only
  rw [← Request.reply, hsend]
  refine ⟨_, _, rfl, ⟨rfl, rfl, rfl⟩, rfl, rfl, rfl, rfl, ⟨rfl, rfl, rfl, ?_, rfl⟩⟩
  rw [State.header, hlen]
  rfl

theorem runPackets_cons {packet : List UInt8} {s' : State H} (packets : List (List UInt8))
    (h : processPacket hd bufferSize true s packet = some s') :
    runPackets hd bufferSize s (packet :: packets) = runPackets hd bufferSize s' packets := by
  rw [runPackets, run, h]
  rfl

theorem runPackets_empty (hstream : s.stream = []) {packets payloads : List (List UInt8)}
    (h : List.Forall₂ s.Carries packets payloads) (hempty : payloads.flatten = []) :
    runPackets hd bufferSize s packets = some s := by
  induction h with
  | nil => rw [runPackets, run]
  | @cons packet payload packets payloads hp _ ih =>
    obtain ⟨p, hload, hrw, rfl⟩ := hp
    obtain ⟨hpayload, hrest⟩ := List.append_eq_nil_iff.mp hempty
    have hsame : s.received p = s := by
      have hlen : p.hdr.len = 0#32 := by
        have := hrw.length_payload
        rw [hpayload] at this
        exact BitVec.eq_of_toNat_eq this.symm
      rw [State.received, hpayload, List.append_nil, hlen, BitVec.add_zero]
    have hstep : processPacket hd bufferSize true s packet = some s := by
      rw [processPacket, hload]
      dsimp only
      rw [handlePacket_rw hrw (by rw [hstream, hpayload]; decide), hsame]
      exact processStream_empty hstream
    rw [runPackets_cons packets hstep, ih hrest]

theorem Answered.of_received {s' : State H} {h : H} {status : BitVec 32} {response : List UInt8}
    {p reply : Packet} (hs' : Answered hd (s.received p) s' r h status response reply) :
    Answered hd s s' r h status response reply :=
  ⟨(SamePeer.received s p).trans hs'.samePeer, hs'.handler, hs'.stream, hs'.calls, hs'.sent,
    (SamePeer.received s p).isReply hs'.isReply⟩

/-- The packets with the bytes of one request call `dispatch` once. -/
theorem runPackets_request (hd : Handler H) (hbuffer : vsockHdrSize + streamSize ≤ bufferSize)
    {packets payloads : List (List UInt8)} (h : List.Forall₂ s.Carries packets payloads)
    (hbytes : s.stream ++ payloads.flatten = r.bytes) (hne : payloads.flatten ≠ []) :
    (hd.dispatch s.handler r.header.op r.object = none →
      runPackets hd bufferSize s packets = none) ∧
    ∀ {h status response}, hd.dispatch s.handler r.header.op r.object = some (h, status, response) →
      ∃ s' reply, runPackets hd bufferSize s packets = some s' ∧
        Answered hd s s' r h status response reply := by
  induction packets generalizing s payloads with
  | nil =>
    cases h
    exact absurd rfl hne
  | cons packet packets ih =>
    obtain _ | ⟨hp, hpackets⟩ := h
    rename_i payload payloads
    obtain ⟨p, hload, hrw, rfl⟩ := hp
    have hsame := SamePeer.received s p
    rw [List.flatten_cons] at hbytes
    by_cases hrest : payloads.flatten = []
    · -- No later packet has bytes.
      rw [hrest, List.append_nil] at hbytes
      have hstep : processPacket hd bufferSize true s packet =
          answerRequest hd bufferSize true (s.received p) r.header r.object := by
        rw [processPacket, hload]
        exact handlePacket_complete hrw hbytes
      constructor
      · intro hdispatch
        rw [runPackets, run, hstep, answerRequest, State.received, hdispatch]
        rfl
      · intro h status response hdispatch
        obtain ⟨s', reply, hanswer, hs'⟩ := answerRequest_answered (s := s.received p) hbuffer
          hdispatch
        refine ⟨s', reply, ?_, hs'.of_received⟩
        rw [runPackets_cons packets (hstep.trans hanswer)]
        exact runPackets_empty hs'.stream
          (hpackets.imp fun _ _ => (hsame.trans hs'.samePeer).carries) hrest
    · have hstep : processPacket hd bufferSize true s packet = some (s.received p) := by
        rw [processPacket, hload]
        exact handlePacket_partial hrw hbytes hrest
      rw [runPackets_cons packets hstep]
      obtain ⟨hnone, hsome⟩ := ih (hpackets.imp fun _ _ => hsame.carries)
        ((List.append_assoc _ _ _).trans hbytes) hrest
      refine ⟨hnone, fun hdispatch => ?_⟩
      obtain ⟨s', reply, hrun, hs'⟩ := hsome hdispatch
      exact ⟨s', reply, hrun, hs'.of_received⟩

/-! ## All requests -/

/-- A stream buffer that is empty puts the next requests together, however they are cut. -/
theorem reassembles (hd : Handler H) (hbuffer : vsockHdrSize + streamSize ≤ bufferSize)
    (hconnected : s.connected = true) (hstream : s.stream = [])
    {groups : List (Request × List (List UInt8))} (hcut : ∀ g ∈ groups, s.Cuts g.1 g.2)
    {done : List (Request × List (List UInt8))} (hdone : done <+: groups) :
    Reassembles hd bufferSize s (done.map Prod.fst) (done.flatMap Prod.snd) := by
  replace hcut : ∀ g ∈ done, s.Cuts g.1 g.2 := fun g hg => hcut g (hdone.subset hg)
  clear hdone
  induction done generalizing s with
  | nil => exact ⟨s, [], rfl, rfl, hconnected, hstream, (List.append_nil _).symm,
      (List.append_nil _).symm, .nil⟩
  | cons g rest ih =>
    obtain ⟨r, packets⟩ := g
    obtain ⟨payloads, hpackets, hbytes⟩ := hcut _ List.mem_cons_self
    have hne : payloads.flatten ≠ [] := hbytes ▸ r.bytes_ne_nil
    obtain ⟨hnone, hsome⟩ := runPackets_request hd hbuffer hpackets
      (by rw [hstream, hbytes]; rfl) hne
    rw [Reassembles, List.map_cons, serve, List.flatMap_cons]
    cases hdispatch : hd.dispatch s.handler r.header.op r.object with
    | none =>
      dsimp only
      rw [runPackets, run_append, ← runPackets, hnone hdispatch]
      rfl
    | some result =>
      obtain ⟨h, status, response⟩ := result
      obtain ⟨s₁, reply, hrun, hs₁⟩ := hsome hdispatch
      have hcut₁ : ∀ g ∈ rest, s₁.Cuts g.1 g.2 := fun g hg => by
        obtain ⟨payloads, hpackets, hbytes⟩ := hcut g (List.mem_cons_of_mem _ hg)
        exact ⟨payloads, hpackets.imp fun _ _ => hs₁.samePeer.carries, hbytes⟩
      have hrest := ih (hs₁.samePeer.connected.trans hconnected) hs₁.stream hcut₁
      have happend : runPackets hd bufferSize s (packets ++ rest.flatMap Prod.snd) =
          runPackets hd bufferSize s₁ (rest.flatMap Prod.snd) := by
        rw [runPackets, run_append, ← runPackets, hrun]
        rfl
      rw [Reassembles, hs₁.handler] at hrest
      dsimp only
      rw [happend]
      cases hserve : serve hd (hd.afterReply h r.header.op status) (rest.map Prod.fst) with
      | none =>
        rw [hserve] at hrest
        exact hrest
      | some served =>
        rw [hserve] at hrest
        obtain ⟨s', replies, hrun', hhandler, hconn, hstream', hcalls, hsent, hreplies⟩ := hrest
        refine ⟨s', reply :: replies, hrun', hhandler, hconn, hstream', ?_, ?_,
          .cons hs₁.isReply (hreplies.imp fun _ _ => hs₁.samePeer.isReply)⟩
        · rw [hcalls, hs₁.calls, List.append_assoc]
          rfl
        · rw [hsent, hs₁.sent, List.append_assoc]
          rfl

end Request

/-! ## Two requests in six packets -/

/-- A handler that answers each call with its number. -/
def countingHandler : Handler Nat where
  dispatch calls _ _ := some (calls + 1, BitVec.ofNat 32 calls, List.replicate objectSize 0)
  afterReply calls _ _ := calls
  length_response h := by
    obtain ⟨-, -, rfl⟩ := h
    exact List.length_replicate

/-- The peer with CID 3 and port 1000 is connected. -/
def connectedState : State Nat :=
  { handler := 0, connected := true, peerCid := 3, peerPort := 1000 }

/-- A request with this operation and an object of equal bytes. -/
def filledRequest (op : BitVec 16) (byte : UInt8) : Request where
  header :=
    { magic := criMagic, version := criVersion, op, requestId := 7, status := 0, length := 2536 }
  object := List.replicate objectSize byte
  wellFormed := rfl
  length_object := List.length_replicate

/-- An `RW` packet from that peer. -/
def rwPacket (payload : List UInt8) : List UInt8 :=
  toLE 3 8 ++ toLE 2 8 ++ toLE 1000 4 ++ toLE 1234 4 ++ toLE payload.length 4 ++ toLE 1 2 ++
    toLE 5 2 ++ toLE 0 12 ++ payload

/-- The packet as `process_packet` reads it. -/
def loadedRw (payload : List UInt8) : Packet where
  hdr :=
    { srcCid := 3, dstCid := 2, srcPort := 1000, dstPort := 1234
      len := BitVec.ofNat 32 payload.length, type := 1, op := 5, bufAlloc := 0, fwdCnt := 0 }
  rest := payload

/-- The bytes of a request, cut behind the first `n` of them; a packet between is empty. -/
def cutPayloads (r : Request) (n : Nat) : List (List UInt8) :=
  [r.bytes.take n, [], r.bytes.drop n]

theorem connectedState_carries {payload : List UInt8}
    (hload : Packet.load (rwPacket payload) = some (loadedRw payload))
    (hlen : payload.length < 2 ^ 32) : connectedState.Carries (rwPacket payload) payload := by
  have htoNat : (BitVec.ofNat 32 payload.length).toNat = payload.length := by
    rw [BitVec.toNat_ofNat, Nat.mod_eq_of_lt hlen]
  refine ⟨_, hload, ⟨⟨Nat.le_of_eq htoNat, rfl, rfl⟩, rfl, rfl⟩, ?_⟩
  rw [Packet.payload, loadedRw, htoNat, List.take_length]

theorem cutPayloads_cut {r : Request} {n : Nat}
    (hload : ∀ payload ∈ cutPayloads r n,
      Packet.load (rwPacket payload) = some (loadedRw payload)) :
    connectedState.Cuts r ((cutPayloads r n).map rwPacket) := by
  have hflatten : (cutPayloads r n).flatten = r.bytes := by
    simp only [cutPayloads, List.flatten_cons, List.flatten_nil, List.nil_append, List.append_nil,
      List.take_append_drop]
  refine ⟨cutPayloads r n, List.forall₂_map_left_iff.mpr (List.forall₂_same.mpr ?_), hflatten⟩
  intro payload hpayload
  refine connectedState_carries (hload payload hpayload) ?_
  have hlength := (List.sublist_flatten_of_mem hpayload).length_le
  rw [hflatten, r.length_bytes] at hlength
  exact Nat.lt_of_le_of_lt hlength (by decide)

/-- The first request is cut inside its header and the second one inside its object. -/
theorem reassembles_twoRequests :
    Reassembles countingHandler 4096 connectedState [filledRequest 5 1, filledRequest 6 2]
      ((cutPayloads (filledRequest 5 1) 7).map rwPacket ++
        (cutPayloads (filledRequest 6 2) 300).map rwPacket) := by
  have hbuffer : vsockHdrSize + streamSize ≤ 4096 := by decide
  have hfirst := cutPayloads_cut (r := filledRequest 5 1) (n := 7) (by decide +kernel)
  have hsecond := cutPayloads_cut (r := filledRequest 6 2) (n := 300) (by decide +kernel)
  have hcut : ∀ g ∈ [(filledRequest 5 1, (cutPayloads (filledRequest 5 1) 7).map rwPacket),
      (filledRequest 6 2, (cutPayloads (filledRequest 6 2) 300).map rwPacket)],
      connectedState.Cuts g.1 g.2 :=
    List.forall_mem_cons.mpr ⟨hfirst, List.forall_mem_singleton.mpr hsecond⟩
  have h := reassembles countingHandler hbuffer rfl rfl hcut (List.prefix_refl _)
  simpa only [List.map_cons, List.map_nil, List.flatMap_cons, List.flatMap_nil,
    List.append_nil] using h

end Vsock
end Carrels
