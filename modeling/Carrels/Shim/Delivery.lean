/-
What one packet does to its connection.

A connection goes through stages: the runtime has not heard of it, it has accepted it, it
collects the bytes of a request, it has closed it.  Each packet that the runtime takes from
a connection keeps the stage or moves to a later one, and only the packet with the last
bytes of a request calls `dispatch`.
-/
import Carrels.Shim.Client

namespace Carrels
namespace Shim

open Vsock

variable {H : Type}

/-! ## Queues -/

/-- The bytes that these packets carry to the runtime. -/
def bytesOf (queue : List Outgoing) : List UInt8 :=
  queue.flatMap fun q => if q.op = opRw then q.payload else []

/-- The bytes that these packets carry to the guest. -/
def bytesIn (packets : List Packet) : List UInt8 :=
  packets.flatMap fun x => if x.hdr.op = opRw then x.payload else []

theorem bytesOf_append (queue queue' : List Outgoing) :
    bytesOf (queue ++ queue') = bytesOf queue ++ bytesOf queue' := List.flatMap_append

theorem bytesIn_append (packets packets' : List Packet) :
    bytesIn (packets ++ packets') = bytesIn packets ++ bytesIn packets' := List.flatMap_append

theorem bytesOf_cons (q : Outgoing) (queue : List Outgoing) :
    bytesOf (q :: queue) = (if q.op = opRw then q.payload else []) ++ bytesOf queue :=
  List.flatMap_cons

theorem bytesIn_cons (x : Packet) (packets : List Packet) :
    bytesIn (x :: packets) = (if x.hdr.op = opRw then x.payload else []) ++ bytesIn packets :=
  List.flatMap_cons

theorem bytesIn_eq_nil {packets : List Packet} (h : ∀ x ∈ packets, x.hdr.op ≠ opRw) :
    bytesIn packets = [] :=
  List.flatMap_eq_nil_iff.mpr fun x hx => if_neg (h x hx)

/-- Nobody asks for a connection. -/
def NoRequest (queue : List Outgoing) : Prop := ∀ q ∈ queue, q.op ≠ opRequest

theorem NoRequest.tail {q : Outgoing} {queue : List Outgoing} (h : NoRequest (q :: queue)) :
    NoRequest queue := fun x hx => h x (List.mem_cons_of_mem _ hx)

/-! ## Stages -/

/-- The runtime serves this socket. -/
def Serves (host : Vsock.State H) (port : BitVec 32) : Prop :=
  host.connected = true ∧ host.peerPort = port

/-- The stages of a connection. -/
inductive Stage where
  /-- The runtime does not serve it and will not. -/
  | off
  | requested
  /-- No byte of a request is on its way. -/
  | ready
  /-- The bytes of this request are on their way, but for those the call has not written. -/
  | asked (call : Nat) (r : Request) (unsent : List UInt8)

/-- The connection with these packets on their way to the runtime is at this stage. -/
inductive AtStage (host : Vsock.State H) (port : BitVec 32) : List Outgoing → Stage → Prop
  | off {queue : List Outgoing} (hserves : ¬ Serves host port) (hrequest : NoRequest queue) :
      AtStage host port queue .off
  | requested {queue : List Outgoing} {call : Nat} (hserves : ¬ Serves host port)
      (hrequest : NoRequest queue) (hbytes : bytesOf queue = []) :
      AtStage host port ({ op := opRequest, call } :: queue) .requested
  | ready {queue : List Outgoing} (hserves : Serves host port) (hrequest : NoRequest queue)
      (hstream : host.stream = []) (hbytes : bytesOf queue = []) : AtStage host port queue .ready
  | asked {queue : List Outgoing} {call : Nat} {r : Request} {unsent : List UInt8}
      (hserves : Serves host port) (hrequest : NoRequest queue)
      (hbytes : host.stream ++ (bytesOf queue ++ unsent) = r.bytes)
      (hrest : bytesOf queue ++ unsent ≠ [])
      (hcall : ∀ q ∈ queue, q.op = opRw → q.payload ≠ [] → q.call = call) :
      AtStage host port queue (.asked call r unsent)

/-! ## The packets of one socket -/

section Packet

variable {host : Vsock.State H} {guestCid : BitVec 64} {port : BitVec 32} {q : Outgoing}

theorem Outgoing.payload_packet (guestCid : BitVec 64) (port : BitVec 32)
    (hlen : q.payload.length < 2 ^ 32) :
    (q.packet guestCid port).payload = q.payload := by
  have htoNat : (BitVec.ofNat 32 q.payload.length).toNat = q.payload.length := by
    rw [BitVec.toNat_ofNat, Nat.mod_eq_of_lt hlen]
  rw [Packet.payload, Outgoing.packet, htoNat, List.take_length]

theorem serves_of_fromPeer (h : host.fromPeer (q.packet guestCid port).hdr = true) :
    Serves host port := by
  simp only [State.fromPeer, Outgoing.packet, Bool.and_eq_true, beq_iff_eq] at h
  exact ⟨h.1.1.1, h.1.2.symm⟩

theorem isRw_packet (hserves : Serves host port) (hcid : host.peerCid = guestCid)
    (hop : q.op = opRw) (hlen : q.payload.length < 2 ^ 32) :
    host.IsRw (q.packet guestCid port) := by
  refine ⟨⟨?_, rfl, rfl⟩, hop, ?_⟩
  · refine Nat.le_of_eq ?_
    dsimp only [Outgoing.packet]
    rw [BitVec.toNat_ofNat, Nat.mod_eq_of_lt hlen]
  · simp only [State.fromPeer, Outgoing.packet, hserves.1, hserves.2, hcid, Bool.true_and,
      beq_self_eq_true]

theorem news_self (host : Vsock.State H) : news host host = [] := List.drop_length

/-- A step that sends one packet sends that packet, or nothing. -/
theorem news_sendPacket (bufferSize : Nat) (accept : Bool) {host t : Vsock.State H}
    (hsent : t.sent = host.sent) (op : BitVec 16) (payload : List UInt8) :
    news host (sendPacket bufferSize accept t op payload) = [] ∨
      news host (sendPacket bufferSize accept t op payload) =
        [{ hdr := t.header op payload.length, rest := payload }] := by
  unfold news sendPacket
  rw [← hsent]
  split
  · exact .inl List.drop_length
  · exact .inr List.drop_left

theorem hdr_of_mem_news {bufferSize : Nat} {accept : Bool} {host t : Vsock.State H}
    (hsent : t.sent = host.sent) {op : BitVec 16} {payload : List UInt8} {x : Packet}
    (hx : x ∈ news host (sendPacket bufferSize accept t op payload)) :
    x.hdr = t.header op payload.length := by
  obtain hnews | hnews := news_sendPacket bufferSize accept hsent op payload
  · rw [hnews] at hx
    exact absurd hx List.not_mem_nil
  · rw [hnews, List.mem_singleton] at hx
    rw [hx]

theorem forall_news_self (host : Vsock.State H) {P : Packet → Prop} :
    ∀ x ∈ news host host, P x := by
  rw [news_self]
  exact fun x hx => absurd hx List.not_mem_nil

end Packet

/-! ## What a packet does -/

/-- What the runtime does with a packet of the connection. -/
inductive Outcome (hd : Handler H) (port : BitVec 32) (host host' : Vsock.State H) (q : Outgoing)
    (queue : List Outgoing) : Stage → Prop
  | kept {stage : Stage} (hat : AtStage host' port queue stage) (hcalls : host'.calls = host.calls)
      (hnews : ∀ x ∈ news host host', x.hdr.op ≠ opRw ∧ x.hdr.op ≠ opResponse) :
      Outcome hd port host host' q queue stage
  | ended {stage : Stage} (hat : AtStage host' port queue .off) (hcalls : host'.calls = host.calls)
      (hop : q.op = opRequest ∧ stage = .requested ∨ q.op = opShutdown ∨ q.op = opRst)
      (hnews : ∀ x ∈ news host host', x.hdr.op ≠ opRw ∧ x.hdr.op ≠ opResponse) :
      Outcome hd port host host' q queue stage
  | accepted (hat : AtStage host' port queue .ready) (hcalls : host'.calls = host.calls)
      (hnews : ∀ x ∈ news host host', x.hdr.op = opResponse) :
      Outcome hd port host host' q queue .requested
  | answered {r : Request} {handler : H} {status : BitVec 32} {response : List UInt8}
      (hat : AtStage host' port queue .ready)
      (hdispatch : hd.dispatch host.handler r.header.op r.object = some (handler, status, response))
      (hcalls : host'.calls = host.calls ++ [(r.header.op, r.object)])
      (hnews : news host host' = [] ∨
        ∃ x, news host host' = [x] ∧ x.hdr.op = opRw ∧ x.payload = r.reply status response) :
      Outcome hd port host host' q queue (.asked q.call r [])

section Deliver

variable {hd : Handler H} {bufferSize : Nat} {accept : Bool} {host host' : Vsock.State H}
  {guestCid : BitVec 64} {port : BitVec 32} {q : Outgoing} {queue : List Outgoing}

/-- A socket that is not served has its packets ignored, but for a request for a
connection. -/
theorem deliver_unserved (hserves : ¬ Serves host port)
    (hs : handlePacket hd bufferSize accept host (q.packet guestCid port) = some host') :
    host' = host ∨ q.op = opRequest ∧ host.connected = false ∧
      host' = sendPacket bufferSize accept (host.accepted (q.packet guestCid port).hdr)
        opResponse [] := by
  have hcases := handlePacket_cases hd bufferSize accept host (q.packet guestCid port)
  generalize handlePacket hd bufferSize accept host (q.packet guestCid port) = result at hs hcases
  cases hcases with
  | ignored => exact .inl (Option.some.inj hs).symm
  | accepted hconnect => exact .inr ⟨hconnect.op, hconnect.free, (Option.some.inj hs).symm⟩
  | full hrw => exact absurd (serves_of_fromPeer hrw.fromPeer) hserves
  | stored hrw => exact absurd (serves_of_fromPeer hrw.fromPeer) hserves
  | creditRequested hpeer => exact absurd (serves_of_fromPeer hpeer) hserves
  | closed hpeer => exact absurd (serves_of_fromPeer hpeer) hserves

theorem deliver_requested (hserves : ¬ Serves host port) (hrequest : NoRequest queue)
    (hbytes : bytesOf queue = []) {call : Nat}
    (hs : handlePacket hd bufferSize accept host
      (Outgoing.packet { op := opRequest, call } guestCid port) = some host') :
    Outcome hd port host host' { op := opRequest, call } queue .requested := by
  obtain rfl | ⟨-, hfree, rfl⟩ := deliver_unserved hserves hs
  · exact .ended (.off hserves hrequest) rfl (.inl ⟨rfl, rfl⟩) (forall_news_self _)
  · refine .accepted (.ready ⟨?_, ?_⟩ hrequest ?_ hbytes) ?_ fun x hx => ?_
    · rw [sendPacket_connected]
      rfl
    · rw [sendPacket_peerPort]
      rfl
    · rw [sendPacket_stream]
      rfl
    · rw [sendPacket_calls]
      rfl
    · have hsent : (host.accepted
          (Outgoing.packet { op := opRequest, call } guestCid port).hdr).sent = host.sent := rfl
      rw [hdr_of_mem_news hsent hx]
      rfl

theorem deliver_other (hserves : Serves host port) (hop : q.op ≠ opRw)
    (hs : handlePacket hd bufferSize accept host (q.packet guestCid port) = some host') :
    (Serves host' port ∧ host'.stream = host.stream ∨
        ¬ Serves host' port ∧ (q.op = opShutdown ∨ q.op = opRst)) ∧
      host'.calls = host.calls ∧
      ∀ x ∈ news host host', x.hdr.op ≠ opRw ∧ x.hdr.op ≠ opResponse := by
  have hcases := handlePacket_cases hd bufferSize accept host (q.packet guestCid port)
  generalize handlePacket hd bufferSize accept host (q.packet guestCid port) = result at hs hcases
  cases hcases with
  | ignored =>
    cases hs
    exact ⟨.inl ⟨hserves, rfl⟩, rfl, forall_news_self _⟩
  | accepted hconnect =>
    have := hserves.1.symm.trans hconnect.free
    exact Bool.noConfusion this
  | full hrw => exact absurd hrw.op hop
  | stored hrw => exact absurd hrw.op hop
  | creditRequested =>
    cases hs
    refine ⟨.inl ⟨⟨?_, ?_⟩, ?_⟩, ?_, fun x hx => ?_⟩
    · rw [sendPacket_connected]
      exact hserves.1
    · rw [sendPacket_peerPort]
      exact hserves.2
    · rw [sendPacket_stream]
    · rw [sendPacket_calls]
    · rw [hdr_of_mem_news rfl hx]
      exact ⟨show opCreditUpdate ≠ opRw by decide, show opCreditUpdate ≠ opResponse by decide⟩
  | closed _ hclose ht =>
    cases hs
    refine ⟨.inr ⟨fun h => Bool.noConfusion h.1, hclose⟩, ?_⟩
    obtain rfl | rfl := ht
    · exact ⟨rfl, forall_news_self _⟩
    · refine ⟨sendPacket_calls .., fun x hx => ?_⟩
      have hx' : x ∈ news host (sendPacket bufferSize accept host opRst []) := hx
      rw [hdr_of_mem_news rfl hx']
      exact ⟨show opRst ≠ opRw by decide, show opRst ≠ opResponse by decide⟩

theorem deliver_rw (hserves : Serves host port) (hcid : host.peerCid = guestCid)
    (hop : q.op = opRw) {call : Nat} {r : Request} {unsent : List UInt8}
    (hrequest : NoRequest queue)
    (hbytes : host.stream ++ (bytesOf (q :: queue) ++ unsent) = r.bytes)
    (hrest : bytesOf (q :: queue) ++ unsent ≠ [])
    (hcall : ∀ x ∈ q :: queue, x.op = opRw → x.payload ≠ [] → x.call = call)
    (hs : handlePacket hd bufferSize accept host (q.packet guestCid port) = some host') :
    Outcome hd port host host' q queue (.asked call r unsent) := by
  rw [bytesOf_cons, if_pos hop, List.append_assoc] at hbytes hrest
  have hlen : q.payload.length < 2 ^ 32 := by
    have hsum := congrArg List.length hbytes
    rw [List.length_append, List.length_append, r.length_bytes] at hsum
    unfold streamSize at hsum
    omega
  have hrw := isRw_packet hserves hcid hop hlen
  have hpayload := Outgoing.payload_packet guestCid port hlen
  by_cases hmore : bytesOf queue ++ unsent = []
  · -- These are the last bytes.
    obtain ⟨hqueue, rfl⟩ := List.append_eq_nil_iff.mp hmore
    rw [hmore, List.append_nil] at hbytes hrest
    obtain rfl : q.call = call := hcall q List.mem_cons_self hop hrest
    have hcomplete : handlePacket hd bufferSize accept host (q.packet guestCid port) =
        answerRequest hd bufferSize accept (host.received (q.packet guestCid port)) r.header
          r.object :=
      handlePacket_complete hrw (by rw [hpayload]; exact hbytes)
    obtain ⟨handler, status, response, hdispatch, rfl⟩ :=
      answerRequest_eq_some (hcomplete.symm.trans hs)
    refine .answered (.ready ⟨?_, ?_⟩ hrequest rfl hqueue) hdispatch ?_ ?_
    · exact (sendPacket_connected ..).trans hserves.1
    · exact (sendPacket_peerPort ..).trans hserves.2
    · exact sendPacket_calls ..
    · have hlen := r.length_reply status (hd.length_response hdispatch)
      let asked : Vsock.State H :=
        { host.received (q.packet guestCid port) with
          handler, calls := host.calls ++ [(r.header.op, r.object)] }
      have hsent : asked.sent = host.sent := rfl
      obtain hnews | hnews :=
        news_sendPacket bufferSize accept hsent opRw (r.reply status response)
      · exact .inl hnews
      · refine .inr ⟨_, hnews, rfl, ?_⟩
        have htoNat : (BitVec.ofNat 32 (r.reply status response).length).toNat =
            (r.reply status response).length := by
          rw [hlen]
          rfl
        rw [Packet.payload, State.header, htoNat, List.take_length]
  · have hpartial : handlePacket hd bufferSize accept host (q.packet guestCid port) =
        some (host.received (q.packet guestCid port)) :=
      handlePacket_partial hrw (by rw [hpayload]; exact hbytes) hmore
    cases hs.symm.trans hpartial
    refine .kept (.asked hserves hrequest ?_ hmore
      fun x hx => hcall x (List.mem_cons_of_mem _ hx)) rfl (forall_news_self host)
    rw [State.received, hpayload, List.append_assoc]
    exact hbytes

theorem deliver_outcome {stage : Stage} (hcid : host.connected = true → host.peerCid = guestCid)
    (hat : AtStage host port (q :: queue) stage)
    (hs : handlePacket hd bufferSize accept host (q.packet guestCid port) = some host') :
    Outcome hd port host host' q queue stage := by
  cases hat with
  | off hserves hrequest =>
    obtain rfl | ⟨hop, -⟩ := deliver_unserved hserves hs
    · exact .kept (.off hserves hrequest.tail) rfl (forall_news_self _)
    · exact absurd hop (hrequest q List.mem_cons_self)
  | requested hserves hrequest hbytes => exact deliver_requested hserves hrequest hbytes hs
  | ready hserves hrequest hstream hbytes =>
    rw [bytesOf_cons, List.append_eq_nil_iff] at hbytes
    by_cases hop : q.op = opRw
    · rw [if_pos hop] at hbytes
      have hlen : q.payload.length < 2 ^ 32 := by
        rw [hbytes.1]
        decide
      have hrw := isRw_packet hserves (hcid hserves.1) hop hlen
      have hpayload := (Outgoing.payload_packet guestCid port hlen).trans hbytes.1
      have hempty : (host.received (q.packet guestCid port)).stream = [] := by
        rw [State.received, hstream, hpayload]
        rfl
      rw [handlePacket_rw hrw (by rw [hpayload]; exact Nat.zero_le _),
        processStream_empty hempty] at hs
      cases hs
      exact .kept (.ready hserves hrequest.tail hempty hbytes.2) rfl
        (forall_news_self host)
    · obtain ⟨⟨hserves', hstream'⟩ | ⟨hserves', hclose⟩, hcalls, hnews⟩ :=
        deliver_other hserves hop hs
      · exact .kept (.ready hserves' hrequest.tail (hstream'.trans hstream) hbytes.2) hcalls hnews
      · exact .ended (.off hserves' hrequest.tail) hcalls (.inr hclose) hnews
  | asked hserves hrequest hbytes hrest hcall =>
    by_cases hop : q.op = opRw
    · exact deliver_rw hserves (hcid hserves.1) hop hrequest.tail hbytes hrest hcall hs
    · rw [bytesOf_cons, if_neg hop, List.nil_append] at hbytes hrest
      obtain ⟨⟨hserves', hstream'⟩ | ⟨hserves', hclose⟩, hcalls, hnews⟩ :=
        deliver_other hserves hop hs
      · exact .kept (.asked hserves' hrequest.tail (hstream'.symm ▸ hbytes) hrest
          fun x hx => hcall x (List.mem_cons_of_mem _ hx)) hcalls hnews
      · exact .ended (.off hserves' hrequest.tail) hcalls (.inr hclose) hnews

/-- The runtime does not change its peer while it serves it. -/
theorem deliver_served (hserves : Serves host port)
    (hs : handlePacket hd bufferSize accept host (q.packet guestCid port) = some host') :
    host'.peerPort = host.peerPort ∧ host'.peerCid = host.peerCid ∧
      ∀ x ∈ news host host', x.hdr.dstPort = host.peerPort := by
  have hcases := handlePacket_cases hd bufferSize accept host (q.packet guestCid port)
  generalize handlePacket hd bufferSize accept host (q.packet guestCid port) = result at hs hcases
  cases hcases with
  | ignored =>
    cases hs
    exact ⟨rfl, rfl, forall_news_self _⟩
  | accepted hconnect =>
    have := hserves.1.symm.trans hconnect.free
    exact Bool.noConfusion this
  | full =>
    cases hs
    exact ⟨rfl, rfl, forall_news_self _⟩
  | stored =>
    have hstream := processStream_cases hd bufferSize accept
      (host.received (q.packet guestCid port))
    generalize processStream hd bufferSize accept (host.received (q.packet guestCid port)) =
      result at hs hstream
    cases hstream with
    | waits =>
      cases hs
      exact ⟨rfl, rfl, forall_news_self host⟩
    | malformed =>
      cases hs
      let t : Vsock.State H := { host.received (q.packet guestCid port) with stream := [] }
      have hsent : t.sent = host.sent := rfl
      refine ⟨sendPacket_peerPort .., sendPacket_peerCid .., fun x hx => ?_⟩
      have hx' : x ∈ news host (sendPacket bufferSize accept t opRst []) := hx
      rw [hdr_of_mem_news hsent hx']
      rfl
    | request header object =>
      unfold answerRequest at hs
      split at hs
      case h_1 => cases hs
      case h_2 handler status response _ =>
        cases hs
        let t : Vsock.State H :=
          { host.received (q.packet guestCid port) with
            handler, calls := host.calls ++ [(header.op, object)] }
        have hsent : t.sent = host.sent := rfl
        refine ⟨sendPacket_peerPort .., sendPacket_peerCid .., fun x hx => ?_⟩
        have hx' : x ∈ news host (sendPacket bufferSize accept t opRw
          ({ header with status, length := BitVec.ofNat 32 objectSize }.bytes ++ response)) := hx
        rw [hdr_of_mem_news hsent hx']
        rfl
  | creditRequested =>
    cases hs
    refine ⟨sendPacket_peerPort .., sendPacket_peerCid .., fun x hx => ?_⟩
    rw [hdr_of_mem_news rfl hx]
    rfl
  | closed _ _ ht =>
    cases hs
    obtain rfl | rfl := ht
    · exact ⟨rfl, rfl, forall_news_self _⟩
    · refine ⟨sendPacket_peerPort .., sendPacket_peerCid .., fun x hx => ?_⟩
      have hx' : x ∈ news host (sendPacket bufferSize accept host opRst []) := hx
      rw [hdr_of_mem_news rfl hx']
      rfl

theorem deliver_elsewhere {i : BitVec 32} (hi : i ≠ port)
    (hs : handlePacket hd bufferSize accept host (q.packet guestCid port) = some host') :
    (Serves host i ∧ host' = host ∨ ¬ Serves host i ∧ ¬ Serves host' i) ∧
      ∀ x ∈ news host host', x.hdr.dstPort ≠ i := by
  by_cases hserves : Serves host port
  · obtain ⟨hpeer, -, hnews⟩ := deliver_served hserves hs
    have hne : host.peerPort ≠ i := hserves.2 ▸ hi.symm
    exact ⟨.inr ⟨fun h => hne h.2, fun h => hne (hpeer.symm.trans h.2)⟩,
      fun x hx => hnews x hx ▸ hne⟩
  · obtain rfl | ⟨-, hfree, rfl⟩ := deliver_unserved hserves hs
    · refine ⟨?_, forall_news_self _⟩
      by_cases hserves : Serves host' i
      · exact .inl ⟨hserves, rfl⟩
      · exact .inr ⟨hserves, hserves⟩
    · have hpeer : (host.accepted (q.packet guestCid port).hdr).peerPort = port := rfl
      refine ⟨.inr ⟨fun h => ?_, fun h => hi ?_⟩, fun x hx => ?_⟩
      · exact Bool.noConfusion (hfree.symm.trans h.1)
      · rw [← h.2, sendPacket_peerPort, hpeer]
      · have hsent : (host.accepted (q.packet guestCid port).hdr).sent = host.sent := rfl
        rw [hdr_of_mem_news hsent hx, State.header, hpeer]
        exact hi.symm

/-- The runtime's peer is in the guest. -/
theorem deliver_cid (hcid : host.connected = true → host.peerCid = guestCid)
    (hs : handlePacket hd bufferSize accept host (q.packet guestCid port) = some host') :
    host'.connected = true → host'.peerCid = guestCid := by
  by_cases hserves : Serves host port
  · intro _
    rw [(deliver_served hserves hs).2.1]
    exact hcid hserves.1
  · obtain rfl | ⟨-, -, rfl⟩ := deliver_unserved hserves hs
    · exact hcid
    · intro _
      rw [sendPacket_peerCid]
      rfl

end Deliver

end Shim
end Carrels
