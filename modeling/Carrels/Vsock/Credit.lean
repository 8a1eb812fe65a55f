/-
Flow control (`rx_fwd_cnt`, `buf_alloc` and `fwd_cnt` of `send_packet`).

A peer may have as many bytes in flight as the stream buffer has room for, and it learns
from the packets of the runtime which of its bytes are no longer in the buffer.  The
runtime counts a byte as gone when it arrives, and it does not begin to count anew with a
connection.  The results are about every run of packets.
-/
import Carrels.Lib.Run
import Carrels.Vsock.Packet

namespace Carrels
namespace Vsock

open StepSystem ByteMemory

variable {H : Type}

/-- A packet in the queue, and whether the queue takes the packets that are sent for it. -/
structure Arrival where
  accept : Bool
  packet : List UInt8

/-! ## What the peer knows -/

/-- What the peer knows about the current connection. -/
structure Credit where
  /-- The number of bytes it has sent. -/
  sent : BitVec 32 := 0
  /-- The last `fwd_cnt` it has been told. -/
  fwdCnt : BitVec 32 := 0
  /-- It has never had more bytes in flight than `buf_alloc`, which is always
  `sizeof(stream)`. -/
  honoured : Bool := true
  deriving DecidableEq

/-- The bytes in flight, as the peer counts them. -/
def Credit.inFlight (g : Credit) : BitVec 32 := g.sent - g.fwdCnt

/-- The peer sends a payload. -/
def Credit.sends (g : Credit) (len : BitVec 32) : Credit :=
  { g with
    sent := g.sent + len
    honoured := g.honoured && decide ((g.sent + len - g.fwdCnt).toNat ≤ streamSize) }

/-- The peer gets the packets of the runtime. -/
def Credit.told (g : Credit) (packets : List Packet) : Credit :=
  match packets.getLast? with
  | none => g
  | some q => { g with fwdCnt := q.hdr.fwdCnt }

/-- What the peer knows after a packet of its own and the packets sent for it.  Both counters
start at 0 when a connection is accepted. -/
def Credit.next (g : Credit) (s s' : State H) (packet : List UInt8) : Credit :=
  let g := if !s.connected && s'.connected then {} else g
  let g := match Packet.load packet with
    | some p => if s.IsRw p then g.sends p.hdr.len else g
    | none => g
  g.told (s'.sent.drop s.sent.length)

/-- `process_packet`, with what the peer knows. -/
def stepCredit (hd : Handler H) (bufferSize : Nat) (sg : State H × Credit) (e : Arrival) :
    Option (State H × Credit) :=
  (processPacket hd bufferSize e.accept sg.1 e.packet).map
    fun s' => (s', sg.2.next sg.1 s' e.packet)

/-- A payload within the credit is appended to the stream in full and processed. -/
def CreditSound (hd : Handler H) (bufferSize : Nat) (sg : State H × Credit) (e : Arrival) :
    Prop :=
  ∀ p, Packet.load e.packet = some p → sg.1.IsRw p → (sg.2.sends p.hdr.len).honoured = true →
    processPacket hd bufferSize e.accept sg.1 e.packet =
      processStream hd bufferSize e.accept (sg.1.received p)

/-- The packet does not spoil the peer's count.  A connection is accepted only when
`rx_fwd_cnt` is 0 or negative by no more than the size of the buffer, a credit request is
answered only when the bytes in the buffer are among those that the answer leaves in flight,
and the bytes in flight stay below 2^32. -/
structure Harmless (bufferSize : Nat) (s : State H) (g : Credit) (accept : Bool) (p : Packet) :
    Prop where
  connect : s.IsConnect p → (0 - s.rxFwdCnt).toNat ≤ streamSize
  payload : s.IsRw p → g.inFlight.toNat + p.hdr.len.toNat < 2 ^ 32
  creditRequest : s.fromPeer p.hdr = true → p.hdr.op = opCreditRequest → accept = true →
    vsockHdrSize ≤ bufferSize → s.stream.length ≤ (g.sent - s.rxFwdCnt).toNat

instance (bufferSize : Nat) (s : State H) (g : Credit) (accept : Bool) (p : Packet) :
    Decidable (Harmless bufferSize s g accept p) :=
  decidable_of_iff
    ((s.IsConnect p → (0 - s.rxFwdCnt).toNat ≤ streamSize) ∧
      (s.IsRw p → g.inFlight.toNat + p.hdr.len.toNat < 2 ^ 32) ∧
      (s.fromPeer p.hdr = true → p.hdr.op = opCreditRequest → accept = true →
        vsockHdrSize ≤ bufferSize → s.stream.length ≤ (g.sent - s.rxFwdCnt).toNat))
    ⟨fun ⟨hconnect, hpayload, hrequest⟩ => ⟨hconnect, hpayload, hrequest⟩,
      fun h => ⟨h.connect, h.payload, h.creditRequest⟩⟩

/-- The packet that arrives is harmless. -/
def KeepsCredit (bufferSize : Nat) (sg : State H × Credit) (e : Arrival) : Prop :=
  ∀ p ∈ Packet.load e.packet, Harmless bufferSize sg.1 sg.2 e.accept p

instance (bufferSize : Nat) (sg : State H × Credit) (e : Arrival) :
    Decidable (KeepsCredit bufferSize sg e) :=
  inferInstanceAs (Decidable (∀ p ∈ Packet.load e.packet, Harmless bufferSize sg.1 sg.2 e.accept p))

/-! ## The invariant -/

/-- The bytes in the buffer are in flight, and the bytes in flight have room in the buffer.
So do the bytes that would be in flight after the next packet of the runtime. -/
structure CreditInv (s : State H) (g : Credit) : Prop where
  stream : s.stream.length ≤ g.inFlight.toNat
  inFlight : g.inFlight.toNat ≤ streamSize
  counted : (g.sent - s.rxFwdCnt).toNat ≤ streamSize

section Step

variable {bufferSize : Nat} {accept : Bool} {s s' : State H} {g : Credit} {p : Packet}
  {packet : List UInt8}

theorem told_sendPacket (bufferSize : Nat) (accept : Bool) (s : State H) (op : BitVec 16)
    (payload : List UInt8) (g : Credit) :
    g.told ((sendPacket bufferSize accept s op payload).sent.drop s.sent.length) = g ∨
      (accept = true ∧ vsockHdrSize + payload.length ≤ bufferSize ∧
        g.told ((sendPacket bufferSize accept s op payload).sent.drop s.sent.length) =
          { g with fwdCnt := s.rxFwdCnt }) := by
  unfold sendPacket
  split
  case isTrue =>
    left
    rw [List.drop_length]
    rfl
  case isFalse hroom =>
    right
    simp only [Bool.or_eq_true, Bool.not_eq_true', decide_eq_true_eq, not_or, Bool.not_eq_false,
      Nat.not_lt] at hroom
    refine ⟨hroom.1, hroom.2, ?_⟩
    dsimp only
    rw [List.drop_left]
    rfl

theorem told_self (g : Credit) (s : State H) : g.told (s.sent.drop s.sent.length) = g := by
  rw [List.drop_length]
  rfl

theorem told_honoured (g : Credit) (packets : List Packet) :
    (g.told packets).honoured = g.honoured := by
  unfold Credit.told
  split <;> rfl

namespace CreditInv

theorem told (h : CreditInv s g) (hstream : s'.stream.length ≤ (g.sent - s.rxFwdCnt).toNat)
    (hcount : s'.rxFwdCnt = s.rxFwdCnt) : CreditInv s' { g with fwdCnt := s.rxFwdCnt } :=
  ⟨hstream, h.counted, by rw [hcount]; exact h.counted⟩

theorem cleared (h : CreditInv s g) (hstream : s'.stream = []) (hcount : s'.rxFwdCnt = s.rxFwdCnt) :
    CreditInv s' g :=
  ⟨by rw [hstream]; exact Nat.zero_le _, h.inFlight, by rw [hcount]; exact h.counted⟩

theorem room (h : CreditInv s g) (hrw : s.IsRw p)
    (hlt : g.inFlight.toNat + p.hdr.len.toNat < 2 ^ 32)
    (hwithin : (g.sent + p.hdr.len - g.fwdCnt).toNat ≤ streamSize) :
    p.payload.length ≤ streamSize - s.stream.length := by
  have hsum : (g.sent + p.hdr.len - g.fwdCnt).toNat = g.inFlight.toNat + p.hdr.len.toNat := by
    unfold Credit.inFlight at *
    bv_omega
  have := h.stream
  rw [hrw.length_payload]
  omega

theorem received (h : CreditInv s g) (hrw : s.IsRw p)
    (hlt : g.inFlight.toNat + p.hdr.len.toNat < 2 ^ 32)
    (hwithin : (g.sent + p.hdr.len - g.fwdCnt).toNat ≤ streamSize) :
    CreditInv (s.received p) (g.sends p.hdr.len) := by
  have hsum : (g.sent + p.hdr.len - g.fwdCnt).toNat = g.inFlight.toNat + p.hdr.len.toNat := by
    unfold Credit.inFlight at *
    bv_omega
  refine ⟨?_, hwithin, ?_⟩
  · have := h.stream
    rw [State.received, List.length_append, hrw.length_payload]
    unfold Credit.inFlight Credit.sends
    dsimp only
    omega
  · have hboth : g.sent + p.hdr.len - (s.rxFwdCnt + p.hdr.len) = g.sent - s.rxFwdCnt := by
      bv_omega
    show (g.sent + p.hdr.len - (s.rxFwdCnt + p.hdr.len)).toNat ≤ streamSize
    rw [hboth]
    exact h.counted

end CreditInv

/-- The peer's count is sound while it has honoured it. -/
def Sound (sg : State H × Credit) : Prop :=
  sg.1.connected = true → sg.2.honoured = true → CreditInv sg.1 sg.2

theorem fromPeer_connected {h : VsockHdr} (hpeer : s.fromPeer h = true) : s.connected = true := by
  simp only [State.fromPeer, Bool.and_eq_true] at hpeer
  exact hpeer.1.1.1

theorem Credit.next_none (g : Credit) (s : State H) (hload : Packet.load packet = none) :
    g.next s s packet = g := by
  unfold Credit.next
  rw [hload, Bool.not_and_self, if_neg Bool.false_ne_true]
  exact told_self g s

theorem Credit.next_some (g : Credit) (hload : Packet.load packet = some p)
    (hold : s'.connected = true → s.connected = true) :
    g.next s s' packet =
      (if s.IsRw p then g.sends p.hdr.len else g).told (s'.sent.drop s.sent.length) := by
  unfold Credit.next
  have hnew : ¬ (!s.connected && s'.connected) = true := by
    simp only [Bool.and_eq_true, Bool.not_eq_true', not_and]
    intro hs hs'
    rw [hold hs'] at hs
    exact Bool.noConfusion hs
  rw [hload, if_neg hnew]

variable {hd : Handler H}

/-- `process_stream` keeps the count, whether the request is complete or not. -/
theorem processStream_sound {t : State H} (h : CreditInv t g)
    (hs' : processStream hd bufferSize accept t = some s') :
    s'.connected = true → CreditInv s' (g.told (s'.sent.drop t.sent.length)) := by
  have hcases := processStream_cases hd bufferSize accept t
  generalize processStream hd bufferSize accept t = result at hs' hcases
  cases hcases with
  | waits =>
    cases hs'
    intro _
    rw [told_self]
    exact h
  | malformed =>
    cases hs'
    intro hconnected
    exact Bool.noConfusion hconnected
  | request header object =>
    intro _
    unfold answerRequest at hs'
    split at hs'
    case h_1 => cases hs'
    case h_2 handler status response _ =>
      cases hs'
      dsimp only
      generalize { header with status, length := BitVec.ofNat 32 objectSize }.bytes ++ response =
        reply
      have htold := told_sendPacket bufferSize accept
        { t with handler, calls := t.calls ++ [(header.op, object)] } opRw reply g
      dsimp only at htold
      obtain htold | ⟨-, -, htold⟩ := htold
      · rw [htold]
        exact h.cleared rfl (sendPacket_rxFwdCnt ..)
      · rw [htold]
        exact h.told (Nat.zero_le _) (sendPacket_rxFwdCnt ..)

theorem next_sound (h : Sound (s, g)) (hload : Packet.load packet = some p)
    (hok : Harmless bufferSize s g accept p)
    (hs' : handlePacket hd bufferSize accept s p = some s') :
    Sound (s', g.next s s' packet) := by
  have hcases := handlePacket_cases hd bufferSize accept s p
  generalize handlePacket hd bufferSize accept s p = result at hs' hcases
  cases hcases with
  | ignored hrw =>
    cases hs'
    rw [g.next_some hload id, if_neg hrw, told_self]
    exact h
  | accepted hconnect =>
    cases hs'
    have hreset : g.next s (sendPacket bufferSize accept (s.accepted p.hdr) opResponse []) packet =
        Credit.told {} ((sendPacket bufferSize accept (s.accepted p.hdr) opResponse []).sent.drop
          s.sent.length) := by
      have hrw : ¬ s.IsRw p := fun hrw => by
        have := hrw.op.symm.trans hconnect.op
        exact absurd this (by decide)
      have hnew : (!s.connected && (s.accepted p.hdr).connected) = true := by
        rw [hconnect.free]
        rfl
      unfold Credit.next
      rw [hload, sendPacket_connected, hnew]
      simp only [if_true, if_neg hrw]
    rw [hreset]
    have hinit : CreditInv (s.accepted p.hdr) {} :=
      ⟨Nat.zero_le _, by decide, hok.connect hconnect⟩
    intro _ _
    have hempty := sendPacket_stream bufferSize accept (s.accepted p.hdr) opResponse []
    have hcount := sendPacket_rxFwdCnt bufferSize accept (s.accepted p.hdr) opResponse []
    have hsent : (s.accepted p.hdr).sent = s.sent := rfl
    dsimp only
    rw [← hsent]
    obtain htold | ⟨-, -, htold⟩ :=
      told_sendPacket bufferSize accept (s.accepted p.hdr) opResponse [] {}
    · rw [htold]
      exact hinit.cleared hempty hcount
    · rw [htold]
      exact hinit.told (by rw [hempty]; exact Nat.zero_le _) hcount
  | full hrw hroom =>
    cases hs'
    rw [g.next_some hload id, if_pos hrw, told_self]
    intro hconnected hhonoured
    simp only [Credit.sends, Bool.and_eq_true, decide_eq_true_eq] at hhonoured
    have hfits := (h hconnected hhonoured.1).room hrw (hok.payload hrw) hhonoured.2
    exact absurd hroom (Nat.not_lt.mpr hfits)
  | stored hrw hroom =>
    rw [g.next_some hload fun _ => fromPeer_connected hrw.fromPeer, if_pos hrw]
    intro hconnected hhonoured
    have hwithin := hhonoured
    rw [told_honoured] at hwithin
    simp only [Credit.sends, Bool.and_eq_true, decide_eq_true_eq] at hwithin
    have hinv := h (fromPeer_connected hrw.fromPeer) hwithin.1
    have hreceived : CreditInv (s.received p) (g.sends p.hdr.len) :=
      hinv.received hrw (hok.payload hrw) hwithin.2
    have hsound := processStream_sound hreceived hs' hconnected
    exact hsound
  | creditRequested hpeer hop =>
    cases hs'
    have hrw : ¬ s.IsRw p := fun hrw => absurd (hrw.op.symm.trans hop) (by decide)
    rw [g.next_some hload fun _ => fromPeer_connected hpeer, if_neg hrw]
    intro _ hhonoured
    have hhonoured' : g.honoured = true := (told_honoured g _).symm.trans hhonoured
    have hinv := h (fromPeer_connected hpeer) hhonoured'
    have hstream := sendPacket_stream bufferSize accept s opCreditUpdate []
    have hcount := sendPacket_rxFwdCnt bufferSize accept s opCreditUpdate []
    obtain htold | ⟨haccept, hbuffer, htold⟩ :=
      told_sendPacket bufferSize accept s opCreditUpdate [] g
    · rw [htold]
      exact ⟨by rw [hstream]; exact hinv.stream, hinv.inFlight, by rw [hcount]; exact hinv.counted⟩
    · rw [htold]
      refine hinv.told ?_ hcount
      rw [hstream]
      exact hok.creditRequest hpeer hop haccept hbuffer
  | closed hpeer hop ht =>
    cases hs'
    intro hconnected
    exact Bool.noConfusion hconnected

end Step

/-! ## Every run -/

variable {hd : Handler H} {bufferSize : Nat} {sg sg' : State H × Credit} {e : Arrival}

theorem step_sound (h : Sound sg) (hok : KeepsCredit bufferSize sg e)
    (hs : stepCredit hd bufferSize sg e = some sg') : Sound sg' := by
  obtain ⟨s', hs', rfl⟩ := Option.map_eq_some_iff.mp hs
  unfold processPacket at hs'
  split at hs'
  case h_1 hload =>
    cases hs'
    rw [Credit.next_none _ _ hload]
    exact h
  case h_2 p hload => exact next_sound h hload (hok p hload) hs'

/-- In a run of harmless packets no payload within the credit is dropped. -/
theorem creditSound (hd : Handler H) (bufferSize : Nat) (handler : H)
    (hr : Reaches (stepCredit hd bufferSize) (KeepsCredit bufferSize) ({ handler }, {}) sg)
    (hok : KeepsCredit bufferSize sg e) : CreditSound hd bufferSize sg e := by
  have hinv : Sound sg := hr.invariant (fun h => Bool.noConfusion h)
    fun _ _ _ hinv hok hs => step_sound hinv hok hs
  intro p hload hrw hhonoured
  simp only [Credit.sends, Bool.and_eq_true, decide_eq_true_eq] at hhonoured
  have hroom := (hinv (fromPeer_connected hrw.fromPeer) hhonoured.1).room hrw
    ((hok p hload).payload hrw) hhonoured.2
  unfold processPacket
  rw [hload]
  exact handlePacket_rw hrw hroom

/-! ## Two connections -/

/-- The bytes of a packet to the runtime with this source port, operation and payload. -/
def clientPacket (port : Nat) (op : BitVec 16) (payload : List UInt8) : List UInt8 :=
  toLE 3 8 ++ toLE 2 8 ++ toLE port 4 ++ toLE 1234 4 ++ toLE payload.length 4 ++ toLE 1 2 ++
    toLE op.toNat 2 ++ toLE 0 12 ++ payload

/-- A handler that answers with zeros. -/
def silentHandler : Handler Unit where
  dispatch _ _ _ := some ((), 0, List.replicate objectSize 0)
  afterReply _ _ _ := ()
  length_response h := by
    obtain ⟨-, -, rfl⟩ := h
    exact List.length_replicate

/-- A connection is accepted, asks for its credit and sends a payload. -/
def firstRun : List Arrival :=
  [⟨true, clientPacket 1000 opRequest []⟩, ⟨true, clientPacket 1000 opCreditRequest []⟩,
    ⟨true, clientPacket 1000 opRw [1, 2, 3]⟩]

def firstState : State Unit × Credit :=
  (run (stepCredit silentHandler 4096) ({ handler := () }, {}) firstRun).get (by decide +kernel)

theorem run_firstState :
    run (stepCredit silentHandler 4096) ({ handler := () }, {}) firstRun = some firstState :=
  (Option.some_get _).symm

theorem firstRun_keeps : RunMeets (stepCredit silentHandler 4096) (KeepsCredit 4096)
    ({ handler := () }, {}) firstRun := by decide +kernel

/-- The first connection may fill the buffer. -/
theorem creditSound_firstState :
    CreditSound silentHandler 4096 firstState
        ⟨true, clientPacket 1000 opRw (List.replicate 2553 0)⟩ ∧
      firstState.1.stream.length = 3 :=
  ⟨creditSound silentHandler 4096 () (reaches_of_run firstRun_keeps run_firstState)
    (by decide +kernel), by decide +kernel⟩

/-- The first connection sends a byte and is closed, and another one is accepted. -/
def secondRun : List Arrival :=
  [⟨true, clientPacket 1000 opRequest []⟩, ⟨true, clientPacket 1000 opRw [1]⟩,
    ⟨true, clientPacket 1000 opShutdown []⟩, ⟨true, clientPacket 1001 opRequest []⟩]

def secondState : State Unit × Credit :=
  (run (stepCredit silentHandler 4096) ({ handler := () }, {}) secondRun).get (by decide +kernel)

theorem run_secondState :
    run (stepCredit silentHandler 4096) ({ handler := () }, {}) secondRun = some secondState :=
  (Option.some_get _).symm

/-- The peer of the second connection has been told that a byte of it is gone.  It may send
2557 bytes, and they are dropped. -/
theorem not_creditSound : ¬ ∀ sg : State Unit × Credit,
    Reaches (stepCredit silentHandler 4096) anyEvent ({ handler := () }, {}) sg →
      ∀ e, CreditSound silentHandler 4096 sg e := by
  intro h
  let packet := clientPacket 1001 opRw (List.replicate 2557 0)
  have hsound := h secondState (reaches_of_run (runMeets_anyEvent _ _ _) run_secondState)
    ⟨true, packet⟩ ((Packet.load packet).get (by decide +kernel)) (Option.some_get _).symm
    (by decide +kernel) (by decide +kernel)
  have hlen := congrArg (Option.map fun s => s.rxFwdCnt) hsound
  exact absurd hlen (by decide +kernel)

end Vsock
end Carrels
