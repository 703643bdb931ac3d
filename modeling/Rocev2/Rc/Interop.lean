import Rocev2.Io.Steering
import Rocev2.Rc.Confinement
import Rocev2.Rc.PacketBytes
import Rocev2.Wire.Codec.RoundTrip

/-!
# From one endpoint to the other

Every packet that the engine has handed to the backend has an encoding, the peer's steering program
redirects the frame that carries it, and the peer's engine reads what was sent.
-/

namespace Rocev2.Rc

open Rocev2.Core Rocev2.Wire Rocev2.Lib

variable {QPS MRS SQ RQ CQ IDX : ℕ} {e e' : Engine QPS MRS SQ RQ CQ} {packet : WirePacket}

/-- What the engine reads of a decoded packet. -/
structure Reads (decoded : Codec.PacketRef) (seen : PacketRef) : Prop where
  opcode : seen.bth.opcode = decoded.bth.opcode
  partitionKey : seen.bth.partitionKey = decoded.bth.partitionKey
  destinationQpn : seen.bth.destinationQpn = decoded.bth.destinationQpn.toNat
  ackRequest : seen.bth.ackRequest = decoded.bth.ackRequest
  psn : seen.bth.psn.value = decoded.bth.psn.toNat
  reth : seen.reth = decoded.reth
  aeth : seen.aeth = decoded.aeth
  payload : seen.payload = decoded.payload

/-- The replies owed and the packets offered so far have an encoding. -/
structure Engine.Portable (e : Engine QPS MRS SQ RQ CQ) : Prop where
  replies : ∀ arrival ∈ e.arrivals, ∀ reply ∈ arrival.reply,
    reply.aeth.messageSequenceNumber < 2 ^ 24
  offered : ∀ packet ∈ e.offered, (∃ mtu : PathMtu, Encodable mtu.bytes packet) ∧
    ∀ aeth ∈ packet.aeth, aeth.messageSequenceNumber < 2 ^ 24

theorem Emits.sequence {sender : Option (DataTxClass × Fin QPS)}
    (h : Emits e sender packet) (hportable : e.Portable) :
    ∀ aeth ∈ packet.aeth, aeth.messageSequenceNumber < 2 ^ 24 := by
  intro aeth haeth
  cases h with
  | request _ _ _ hbuild =>
    -- A request carries no AETH, whichever work it is built from.
    unfold buildRequestPacket at hbuild
    repeat' split at hbuild
    all_goals cases hbuild
    all_goals cases haeth
  | readResponse =>
    rw [Bytes.aeth_of_readResponsePacket haeth]
    exact Psn.isLt _
  | control harrival hreply =>
    cases haeth
    exact hportable.replies _ harrival _ hreply

theorem EngineStep.portable {event : EngineEvent QPS} (h : EngineStep e event e') (hinv : e.Inv)
    (hportable : e.Portable) : e'.Portable := by
  cases h with
  | qp hqp hstep =>
    refine ⟨fun arrival harrival reply hreply ↦ ?_, hportable.offered⟩
    rcases QpEvent.mem_record _ harrival with hold | ⟨-, -, hnew⟩
    · exact hportable.replies arrival hold reply hreply
    · rw [hnew] at hreply
      cases hreply
      cases hstep with
      | request _ heffect => cases heffect <;> exact Psn.isLt _
  | offer hemits =>
    refine ⟨hportable.replies, fun packet hpacket ↦ ?_⟩
    rcases List.mem_append.mp hpacket with hold | hnew
    · exact hportable.offered packet hold
    · cases List.mem_singleton.mp hnew
      refine ⟨?_, hemits.sequence hportable⟩
      rcases hemits.encodable hinv with ⟨-, qp, -, hencodable⟩ | ⟨-, -, hencodable⟩
      · exact ⟨_, hencodable⟩
      · exact ⟨.mtu256, hencodable _⟩
  | _ => exact ⟨hportable.replies, hportable.offered⟩

namespace RcEndpoint

variable {ep : RcEndpoint QPS MRS SQ RQ CQ IDX}

theorem Reachable.portable (h : ep.Reachable) : ep.engine.Portable := by
  obtain ⟨ep₀, hinitial, hholds⟩ := h.holds
  have hstart : ep₀.engine.Portable := by
    obtain ⟨⟨config, identity, bytes, rfl⟩, -⟩ := hinitial.eq_empty
    exact ⟨fun _ hmem ↦ (List.not_mem_nil hmem).elim, fun _ hmem ↦ (List.not_mem_nil hmem).elim⟩
  exact (hholds.run.invariant (I := fun e ↦ e.Inv ∧ e.Portable)
    (fun _ hstep hs ↦ ⟨hstep.inv hs.1, hstep.portable hs.1 hs.2⟩)
    ⟨(hinitial.holds fun _ ↦ True).inv, hstart⟩).2

/-- **What an endpoint sends arrives.** -/
theorem offered_arrives (h : ep.Reachable) (hpacket : packet ∈ ep.offered) (output : List UInt8)
    (hroom : packet.encodedLength ≤ output.length) :
    ∃ hheaders written decoded, Codec.encodeIpv4Packet packet.path (Bytes.specOf packet) output =
        .ok (packet.encodedLength, written) ∧
      Codec.decodeIpv4Packet (written.take packet.encodedLength) = .ok decoded ∧
      (packet.decoded hheaders).ipv4 = ⟨decoded.ipv4.source, decoded.ipv4.destination⟩ ∧
      Reads decoded.transport (packet.decoded hheaders).transport ∧
      ∀ (ctx : Io.XdpContext) (xskMap : Io.XskMap) (scratch regs : ℕ → UInt64),
        Io.ipv4Payload ctx.frame = .ok (written.take packet.encodedLength) →
        regs 1 = ctx.address → xskMap.registered ctx.rxQueueIndex = true →
        Ebpf.Exits (ctx.env xskMap scratch) (Io.program xskMap.fd) ⟨0, regs⟩ Io.xdpRedirect := by
  obtain ⟨⟨mtu, hencodable⟩, haeth⟩ := h.portable.offered packet hpacket
  have hsmall := hencodable.length.trans (maximumPacketForMtu_le mtu)
  have hencode : encodeIpv4Packet packet output.length = .ok packet.encodedLength := by
    unfold encodeIpv4Packet
    rw [if_neg (by omega), if_neg (by omega), if_neg]
    rw [hencodable.headers, not_or]
    exact ⟨nofun, Nat.not_lt.mpr hencodable.destination⟩
  have hbytes := Bytes.encodeIpv4Packet_specOf haeth hencode
  have hdecode := Codec.decode_encoded hbytes
  refine ⟨hencodable.headers, _, _, hbytes, hdecode, rfl, ⟨rfl, rfl, ?_, rfl, ?_, rfl, rfl, rfl⟩,
    ?_⟩
  · exact (UInt32.toNat_ofNat_of_lt' (hencodable.destination.trans_lt (by decide))).symm
  · exact (UInt32.toNat_ofNat_of_lt' (packet.bth.psn.isLt.trans (by decide))).symm
  · intro ctx xskMap scratch regs hpayload hcontext hregistered
    exact Io.exits_program hcontext hregistered (fun _ ↦ rfl)
      fun hnot ↦ absurd (.of_decode hpayload hdecode) hnot

theorem offered_arrives_send :
    let ep := Sample.single.steps (Sample.ready 1 1 ++
      [.postWork Sample.handle ⟨7, .send, Sample.sge 4, true⟩, Sample.polls 0 true])
    ∃ packet ∈ ep.offered, ∃ written decoded,
      Codec.decodeIpv4Packet (List.take packet.encodedLength written) = .ok decoded ∧
      packet.payload = decoded.transport.payload := by
  intro ep
  obtain ⟨packet, hpacket, hroom⟩ : ∃ packet ∈ ep.offered, packet.encodedLength ≤ 64 := by
    decide +kernel
  obtain ⟨_, written, decoded, -, hdecode, -, hreads, -⟩ :=
    offered_arrives (Sample.single_reachable _) hpacket (List.replicate 64 0) hroom
  exact ⟨packet, hpacket, written, decoded, hdecode, hreads.payload⟩

end RcEndpoint

end Rocev2.Rc
