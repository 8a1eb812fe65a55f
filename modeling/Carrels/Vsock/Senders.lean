/-
The peer has the connection to itself.

While a connection is up, a packet of another sender, or one that is not for this service, changes
nothing and sends nothing: neither a request for a connection, which is looked at before the sender
is, nor any other.  So a run comes out the same without them.
-/
import Carrels.Vsock.Credit

namespace Carrels
namespace Vsock

open StepSystem

variable {H : Type}

/-- `process_packet` on a packet in the queue. -/
def packetStep (hd : Handler H) (bufferSize : Nat) (s : State H) (e : Arrival) :
    Option (State H) :=
  processPacket hd bufferSize e.accept s e.packet

/-- The packet has another sender than the peer, or it is not a stream packet for this service. -/
def State.foreign (s : State H) (packet : List UInt8) : Bool :=
  match Packet.load packet with
  | none => false
  | some p =>
    p.hdr.srcCid != s.peerCid || p.hdr.srcPort != s.peerPort || p.hdr.dstCid != vsockHostCid ||
      p.hdr.dstPort != criPort || p.hdr.type != vsockTypeStream

/-- The connection is up when the packet arrives. -/
def Up (s : State H) (_ : Arrival) : Prop := s.connected = true

instance (s : State H) (e : Arrival) : Decidable (Up s e) :=
  inferInstanceAs (Decidable (s.connected = true))

/-- The two states have the same other end. -/
def SameEnd (s s' : State H) : Prop := s'.peerCid = s.peerCid ∧ s'.peerPort = s.peerPort

section

variable {hd : Handler H} {bufferSize : Nat} {accept : Bool} {s s' : State H} {p : Packet}

theorem answerRequest_sameEnd {header : RpcHeader} {object : List UInt8}
    (h : answerRequest hd bufferSize accept s header object = some s') : SameEnd s s' := by
  rw [answerRequest] at h
  split at h
  case h_1 => cases h
  case h_2 =>
    obtain rfl := Option.some.inj h
    exact ⟨sendPacket_peerCid .., sendPacket_peerPort ..⟩

theorem processStream_sameEnd (h : processStream hd bufferSize accept s = some s') :
    SameEnd s s' := by
  have hcases := processStream_cases hd bufferSize accept s
  generalize processStream hd bufferSize accept s = result at hcases h
  cases hcases with
  | waits =>
    obtain rfl := Option.some.inj h
    exact ⟨rfl, rfl⟩
  | malformed =>
    obtain rfl := Option.some.inj h
    exact ⟨sendPacket_peerCid .., sendPacket_peerPort ..⟩
  | request => exact answerRequest_sameEnd h

/-- No packet puts another peer in the place of one that is connected. -/
theorem handlePacket_sameEnd (hup : s.connected = true)
    (h : handlePacket hd bufferSize accept s p = some s') : SameEnd s s' := by
  have hcases := handlePacket_cases hd bufferSize accept s p
  generalize handlePacket hd bufferSize accept s p = result at hcases h
  cases hcases with
  | ignored | full =>
    obtain rfl := Option.some.inj h
    exact ⟨rfl, rfl⟩
  | accepted hconnect => exact absurd (hup.symm.trans hconnect.free) (by decide)
  | stored =>
    have hsame := processStream_sameEnd h
    exact ⟨hsame.1, hsame.2⟩
  | creditRequested =>
    obtain rfl := Option.some.inj h
    exact ⟨sendPacket_peerCid .., sendPacket_peerPort ..⟩
  | closed _ _ ht =>
    obtain rfl := Option.some.inj h
    obtain rfl | rfl := ht
    · exact ⟨rfl, rfl⟩
    · exact ⟨sendPacket_peerCid .., sendPacket_peerPort ..⟩

theorem packetStep_sameEnd {e : Arrival} (hup : s.connected = true)
    (h : packetStep hd bufferSize s e = some s') : SameEnd s s' := by
  rw [packetStep, processPacket] at h
  split at h
  case h_1 =>
    obtain rfl := Option.some.inj h
    exact ⟨rfl, rfl⟩
  case h_2 p _ => exact handlePacket_sameEnd hup h

/-- A foreign packet is dropped by one of three checks. -/
theorem handlePacket_foreign (hup : s.connected = true)
    (h : (p.hdr.srcCid != s.peerCid || p.hdr.srcPort != s.peerPort ||
      p.hdr.dstCid != vsockHostCid || p.hdr.dstPort != criPort ||
      p.hdr.type != vsockTypeStream) = true) :
    handlePacket hd bufferSize accept s p = some s := by
  rw [handlePacket]
  dsimp only
  split
  case isTrue => rfl
  case isFalse hpass =>
    have hvalid : p.Valid := Packet.valid_iff.mpr (Bool.eq_false_iff.mpr hpass)
    split
    case isTrue =>
      -- The request for a connection is answered only where there is none.
      rw [hup]
      rfl
    case isFalse =>
      have hother : s.fromPeer p.hdr = false := by
        rw [State.fromPeer, hup]
        simpa [hvalid.dstCid, hvalid.type, imp_iff_not_or] using h
      rw [hother]
      rfl

theorem packetStep_foreign {e : Arrival} (hup : s.connected = true)
    (h : s.foreign e.packet = true) : packetStep hd bufferSize s e = some s := by
  rw [packetStep, processPacket]
  rw [State.foreign] at h
  cases hload : Packet.load e.packet with
  | none => rw [hload] at h
  | some p =>
    rw [hload] at h
    exact handlePacket_foreign hup h

end

/-- While the connection is up, nobody but its peer influences the state or the packets that are
sent. -/
theorem othersCannotInfluence (hd : Handler H) (bufferSize : Nat) {s : State H}
    {es : List Arrival} (h : RunMeets (packetStep hd bufferSize) Up s es) :
    run (packetStep hd bufferSize) s es =
      run (packetStep hd bufferSize) s (es.filter fun e => !s.foreign e.packet) := by
  apply run_filter (I := SameEnd s)
  · rintro t e t' ⟨hcid, hport⟩ hup hs
    obtain ⟨hcid', hport'⟩ := packetStep_sameEnd hup hs
    exact ⟨hcid'.trans hcid, hport'.trans hport⟩
  · rintro t e ⟨hcid, hport⟩ hup hforeign
    apply packetStep_foreign hup
    rw [State.foreign, hcid, hport, ← State.foreign]
    simpa using hforeign
  · exact ⟨rfl, rfl⟩
  · exact h

/-- The peer sends three bytes, and in between another sender asks for a connection, sends bytes of
its own and shuts down. -/
def mixedRun : List Arrival :=
  [⟨true, clientPacket 1000 opRw [1]⟩, ⟨true, clientPacket 1001 opRequest []⟩,
    ⟨true, clientPacket 1001 opRw [7, 7]⟩, ⟨true, clientPacket 1000 opRw [2, 3]⟩,
    ⟨true, clientPacket 1001 opShutdown []⟩, ⟨true, clientPacket 1000 opCreditRequest []⟩]

theorem mixedRun_up :
    RunMeets (packetStep silentHandler 4096) Up firstState.1 mixedRun := by
  decide +kernel

theorem othersCannotInfluence_mixedRun :
    run (packetStep silentHandler 4096) firstState.1 mixedRun =
      run (packetStep silentHandler 4096) firstState.1
        (mixedRun.filter fun e => !firstState.1.foreign e.packet) ∧
      (mixedRun.filter fun e => !firstState.1.foreign e.packet).length = 3 :=
  ⟨othersCannotInfluence silentHandler 4096 mixedRun_up, by decide +kernel⟩

end Vsock
end Carrels
