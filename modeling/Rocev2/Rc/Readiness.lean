import Rocev2.Rc.Batch
import Rocev2.Rc.Engine

/-!
# Accepted work can be carried out

What the engine invariant says about the next packet of a queue pair.  A runnable requester has a
request to send, the next segment of that request exists and can be read, and so does the next
segment of a READ response.  The packets built from them pass every check of the encoder and fit
the largest packet of the path MTU.

These are the facts that make the error paths of the transmit functions dead: a slot that is taken
from a ready queue always has a packet to send.
-/

namespace Rocev2.Rc

open Rocev2.Core Rocev2.Wire Rocev2.Memory

variable {MRS SQ RQ CQ : ℕ} {active : ActiveRequest}

/-! ## The encoder -/

/-- A packet passes every check of the encoder and fits the path MTU. -/
structure Encodable (mtu : ℕ) (packet : WirePacket) : Prop where
  headers : packet.validHeaders = true
  destination : packet.bth.destinationQpn ≤ maxQpn
  length : packet.encodedLength ≤ maximumPacketForMtu mtu

theorem maximumPacketForMtu_le (mtu : PathMtu) : maximumPacketForMtu mtu.bytes ≤ 65535 := by
  have hmtu := mtu.bytes_bounds
  unfold maximumPacketForMtu
  omega

theorem Encodable.encode {mtu : PathMtu} {packet : WirePacket} (h : Encodable mtu.bytes packet)
    {output : ℕ} (houtput : maximumPacketForMtu mtu.bytes ≤ output) :
    encodeIpv4Packet packet output = .ok packet.encodedLength := by
  have hlarge := maximumPacketForMtu_le mtu
  have hlength := h.length
  unfold encodeIpv4Packet
  rw [if_neg (by omega), if_neg (by omega), if_neg]
  rw [h.headers, not_or]
  exact ⟨nofun, Nat.not_lt.mpr h.destination⟩

theorem encodable_controlPacket {reply : ControlReply} (h : reply.destinationQpn ≤ maxQpn)
    (mtu : ℕ) : Encodable mtu (controlPacket reply) :=
  ⟨rfl, h, encodedLength_le (Nat.zero_le mtu)⟩

theorem encodable_readRequestPacket {address : UInt64} {rkey : UInt32} {remoteQpn : ℕ}
    {path : Ipv4Path} (h : remoteQpn ≤ maxQpn) (mtu : ℕ) :
    Encodable mtu (readRequestPacket active address rkey remoteQpn path) :=
  ⟨rfl, h, encodedLength_le (Nat.zero_le mtu)⟩

theorem encodable_segmentPacket {direction : TransferDirection} {remote : Option (UInt64 × UInt32)}
    {remoteQpn : ℕ} {path : Ipv4Path} {payload : List UInt8} {mtu : ℕ}
    (hkind : transferOf active.work.kind = some (direction, remote)) (hremote : remoteQpn ≤ maxQpn)
    (hpayload : payload.length ≤ mtu) :
    Encodable mtu (segmentPacket active direction remote remoteQpn path payload) := by
  refine ⟨?_, hremote, encodedLength_le hpayload⟩
  have hdirection : direction ≠ .readResponse ∧ remote.isSome = decide (direction = .write) := by
    cases hwork : active.work.kind <;> rw [hwork] at hkind <;> cases hkind
    · exact ⟨nofun, rfl⟩
    · exact ⟨nofun, rfl⟩
  obtain ⟨hallows, himmediate⟩ :=
    payload_segmentedOpcode direction active.nextPacket active.packetCount
  have hreth : (segmentPacket active direction remote remoteQpn path payload).reth.isSome =
      (segmentedOpcode direction active.nextPacket active.packetCount).hasReth := by
    rw [hasReth_segmentedOpcode, ← hdirection.2]
    cases remote with
    | none => rfl
    | some range =>
      by_cases hfirst : active.nextPacket = 0 <;> simp [segmentPacket, hfirst]
  have haeth := hasAeth_segmentedOpcode direction active.nextPacket active.packetCount hdirection.1
  simp only [WirePacket.validHeaders, hreth]
  simp [segmentPacket, Bth.new, haeth, hallows, himmediate]

theorem encodable_readResponsePacket {QPS : ℕ} {ready : ReadyReadResponse QPS}
    {payload : List UInt8} {mtu : ℕ} (hremote : ready.remoteQpn ≤ maxQpn)
    (hpayload : payload.length ≤ mtu) : Encodable mtu (readResponsePacket ready payload) := by
  refine ⟨?_, hremote, encodedLength_le hpayload⟩
  obtain ⟨hallows, himmediate⟩ := payload_segmentedOpcode .readResponse ready.response.nextPacket
    ready.response.packetCount
  have hreth := hasReth_segmentedOpcode .readResponse ready.response.nextPacket
    ready.response.packetCount
  simp only [WirePacket.validHeaders, readResponsePacket, Bth.new]
  split <;> simp_all

/-! ## The requester -/

section Requester

variable {qp : QpTransport MRS SQ RQ CQ} {memory : MemoryRegistry MRS} {active : ActiveRequest}

theorem reserveMany_of_empty {window : SendWindow} {packets : ℕ}
    (hempty : window.oldestUnacknowledged = window.nextToSend) (hpos : 0 < packets)
    (hbound : packets ≤ maxOutstandingPackets) :
    window.reserveMany packets =
      ({ window with nextToSend := window.nextToSend.wrappingAdd packets },
        some window.nextToSend) := by
  have houtstanding : window.outstanding = 0 := by
    rw [SendWindow.outstanding, hempty]
    simpa using Psn.forwardDistanceFrom_newTruncated (Nat.le_refl window.nextToSend.value)
      (by omega)
  unfold SendWindow.reserveMany
  rw [houtstanding, if_neg (by omega)]

/-- **A runnable requester has a request to send.** -/
theorem exists_sending_of_runnable (hvalid : qp.machine.config.Valid)
    (hgranted : RequesterGranted memory qp) (hspans : qp.requester.Spans)
    (hrunnable : qp.requesterIsRunnable = true) (ticksPerSecond : ℕ) :
    ∃ active, (startNextRequest qp ticksPerSecond).activeRequest = some active ∧
      active.phase = .sending := by
  unfold QpTransport.requesterIsRunnable at hrunnable
  cases hactive : qp.activeRequest with
  | some active =>
    rw [hactive] at hrunnable
    refine ⟨active, ?_, of_decide_eq_true hrunnable⟩
    rw [startNextRequest, if_pos (.inl (by rw [hactive]; rfl))]
    exact hactive
  | none =>
    rw [hactive] at hrunnable
    obtain ⟨hsend, hqueue⟩ := Bool.and_eq_true_iff.mp hrunnable
    have hstate : qp.machine.state = .rts := of_decide_eq_true hsend
    cases hpop : qp.sendQueue.pop with
    | none =>
      rw [Ring.isEmpty, Ring.pop_eq_none.mp hpop] at hqueue
      cases hqueue
    | some head =>
      obtain ⟨posted, queue⟩ := head
      have hitems := Ring.pop_eq_some.mp hpop
      have hmem : posted ∈ qp.sendQueue.items := by
        rw [hitems]
        exact List.mem_cons_self
      have hfront : qp.sendQueue.front = some posted := by
        rw [Ring.front, hitems]
        rfl
      have hempty : qp.sendWindow.oldestUnacknowledged = qp.sendWindow.nextToSend := by
        have hidle : qp.requester.active = none := hactive
        unfold Requester.Spans at hspans
        rw [hidle] at hspans
        refine hspans ?_
        change qp.machine.state ≠ .error
        rw [hstate]
        decide
      have hmtu : 0 < qp.mtu :=
        Nat.lt_of_lt_of_le (by decide) qp.machine.config.pathMtu.bytes_bounds.1
      have hreserve := reserveMany_of_empty hempty
        (packetCount_pos posted.work.sge.length hmtu) (hgranted.sized posted hmem)
      have hpolicy : RetryPolicy.new qp.machine.config.retryCount qp.machine.config.rnrRetryCount
          (timeoutOrMax qp.machine.config ticksPerSecond) = some _ :=
        if_pos ⟨hvalid.retryCount_le, hvalid.rnrRetryCount_le⟩
      have hidle : ¬(qp.activeRequest.isSome ∨ qp.machine.canSend = false) := by
        rw [hactive, hsend]
        simp
      unfold startNextRequest
      rw [if_neg hidle, hfront]
      dsimp only
      rw [show packetCount posted.work.sge.length qp.machine.config.pathMtu.bytes =
        packetCount posted.work.sge.length qp.mtu from rfl, hreserve]
      dsimp only
      rw [hpolicy]
      dsimp only
      have hpop' : (qp.setWindow { qp.sendWindow with
        nextToSend := qp.sendWindow.nextToSend.wrappingAdd
          (packetCount posted.work.sge.length qp.mtu) }).sendQueue.pop =
            some (posted, queue) := hpop
      rw [hpop']
      exact ⟨_, rfl, rfl⟩

/-- **The next segment of a request exists.** -/
theorem exists_segmentBounds_of_sending (hspans : qp.requester.Spans)
    (hactive : qp.activeRequest = some active) (hphase : active.phase = .sending) :
    ∃ size, segmentBounds active.work.sge.length qp.mtu active.nextPacket =
        some (active.nextPacket * qp.mtu, size) ∧
      active.nextPacket * qp.mtu + size ≤ active.work.sge.length.toNat ∧ size ≤ qp.mtu := by
  obtain ⟨acked, hwindow⟩ := hspans.windowed hactive
  have hnext := hwindow.sending hphase
  rw [hwindow.count] at hnext
  exact exists_segmentBounds
    (Nat.lt_of_lt_of_le (by decide) qp.machine.config.pathMtu.bytes_bounds.1) hnext

/-- **The next segment of a SEND or WRITE can be read.** -/
theorem exists_readable_segment (hgranted : RequesterGranted memory qp)
    (hspans : qp.requester.Spans) (hactive : qp.activeRequest = some active)
    (hphase : active.phase = .sending) (hkind : active.work.kind.isRead = false) :
    ∃ offset length address, segmentBounds active.work.sge.length qp.mtu active.nextPacket =
        some (offset, length) ∧ length ≤ qp.mtu ∧
      checkedAdd active.work.sge.address offset = some address ∧
      memory.validateLocalRead active.work.sge.lkey address length = .ok () ∧
      memory.readLocal active.work.sge.lkey address length =
        .ok (copyFromRegistered memory.bytes address.toNat length) := by
  obtain ⟨size, hbounds, hinside, hsize⟩ := exists_segmentBounds_of_sending hspans hactive hphase
  have hbacked := hgranted.active active hactive
  have haccess : accessOf active.work.kind = .none := by
    cases hwork : active.work.kind with
    | send | rdmaWrite => rfl
    | rdmaRead => rw [hwork] at hkind; cases hkind
  rw [haccess] at hbacked
  have hend := hbacked.bound
  have hstart : active.work.sge.address.toNat + active.nextPacket * qp.mtu < 2 ^ 64 := by omega
  obtain ⟨address, haddress, hvalue⟩ := exists_checkedAdd hstart
  have hgrants := hbacked.grants address.toNat size (by omega) (by omega)
  exact ⟨_, size, address, hbounds, hsize, haddress, MemoryRegistry.validate_eq_ok.mpr hgrants,
    MemoryRegistry.read_eq_ok.mpr ⟨rfl, hgrants⟩⟩

theorem exists_transferOf {kind : WorkRequestKind} (h : kind.isRead = false) :
    ∃ direction remote, transferOf kind = some (direction, remote) := by
  cases kind with
  | send | rdmaWrite => exact ⟨_, _, rfl⟩
  | rdmaRead => cases h

/-- **The next packet of a request can be built.** -/
theorem exists_buildRequestPacket (hgranted : RequesterGranted memory qp)
    (hspans : qp.requester.Spans) (hactive : qp.activeRequest = some active)
    (hphase : active.phase = .sending) :
    ∃ packet, buildRequestPacket memory active qp.machine.config.pathMtu.bytes
      qp.machine.config.remoteQpn qp.path = .ok packet := by
  cases hread : active.work.kind.isRead with
  | true =>
    unfold buildRequestPacket
    cases hkind : active.work.kind with
    | send | rdmaWrite =>
      rw [hkind] at hread
      cases hread
    | rdmaRead remoteAddress rkey => exact ⟨_, rfl⟩
  | false =>
    obtain ⟨direction, remote, htransfer⟩ := exists_transferOf hread
    obtain ⟨offset, length, address, hbounds, -, haddress, -, hpayload⟩ :=
      exists_readable_segment hgranted hspans hactive hphase hread
    have hsegment : readLocalSegment memory active.work offset length =
        .ok (copyFromRegistered memory.bytes address.toNat length) := by
      simp only [readLocalSegment, haddress, hpayload]
    rw [QpTransport.mtu] at hbounds
    unfold buildRequestPacket
    split
    · rename_i hkind
      rw [hkind] at hread
      cases hread
    · rw [htransfer, hbounds]
      dsimp only
      rw [hsegment]
      exact ⟨_, rfl⟩

theorem encodable_of_buildRequestPacket {packet : WirePacket} (hvalid : qp.machine.config.Valid)
    (h : buildRequestPacket memory active qp.machine.config.pathMtu.bytes
      qp.machine.config.remoteQpn qp.path = .ok packet) :
    Encodable qp.machine.config.pathMtu.bytes packet := by
  unfold buildRequestPacket at h
  split at h
  · cases h
    exact encodable_readRequestPacket hvalid.remote_le _
  split at h
  · rename_i direction remote offset length htransfer hbounds
    split at h
    · cases h
    rename_i payload hsegment
    cases h
    refine encodable_segmentPacket htransfer hvalid.remote_le ?_
    unfold readLocalSegment at hsegment
    split at hsegment
    · cases hsegment
    · rw [(MemoryRegistry.read_eq_ok.mp hsegment).1, length_copyFromRegistered]
      exact (segmentBounds_le hbounds).2
  · cases h

/-- **The next packet of a request can be prepared.** -/
theorem exists_prepareRequestBatchPacket (hgranted : RequesterGranted memory qp)
    (hspans : qp.requester.Spans) (hactive : qp.activeRequest = some active)
    (hphase : active.phase = .sending) :
    ∃ wire packet, prepareRequestBatchPacket memory active qp.machine.config.pathMtu.bytes
        qp.machine.config.remoteQpn qp.path = .ok wire ∧
      RcEndpoint.preparedPacket memory wire = .ok packet := by
  have hsegmented : ∀ direction remote, active.work.kind.isRead = false →
      ∃ wire packet, prepareSegmentedBatchPacket memory active
          qp.machine.config.pathMtu.bytes qp.machine.config.remoteQpn qp.path direction remote =
            .ok wire ∧
        RcEndpoint.preparedPacket memory wire = .ok packet := by
    intro direction remote hread
    obtain ⟨offset, length, address, hbounds, -, haddress, hvalid, hpayload⟩ :=
      exists_readable_segment hgranted hspans hactive hphase hread
    rw [QpTransport.mtu] at hbounds
    let header := segmentPacket active direction remote qp.machine.config.remoteQpn qp.path []
    refine ⟨⟨header, .loc active.work.sge.lkey address length⟩,
      { header with payload := copyFromRegistered memory.bytes address.toNat length }, ?_, ?_⟩
    · unfold prepareSegmentedBatchPacket
      rw [hbounds]
      dsimp only
      rw [haddress]
      dsimp only
      rw [hvalid]
    · unfold RcEndpoint.preparedPacket
      dsimp only
      rw [hpayload]
  unfold prepareRequestBatchPacket
  cases hkind : active.work.kind with
  | send => exact hsegmented _ _ (by rw [hkind]; rfl)
  | rdmaWrite remoteAddress rkey => exact hsegmented _ _ (by rw [hkind]; rfl)
  | rdmaRead remoteAddress rkey => exact ⟨_, _, rfl, rfl⟩

end Requester

/-! ## The responder -/

section Responder

variable {qp : QpTransport MRS SQ RQ CQ} {memory : MemoryRegistry MRS}
  {response : ReadResponseState}

/-- **The next segment of a READ response exists and can be read.** -/
theorem exists_readResponseSegment (hgranted : ResponderGranted memory qp)
    (hresponse : qp.readResponse = some response) :
    ∃ address length, readResponseSegment response qp.mtu = .ok (address, length) ∧
      length ≤ qp.mtu ∧ memory.validateRemoteRead response.rkey address length = .ok () ∧
      memory.readRemote response.rkey address length =
        .ok (copyFromRegistered memory.bytes address.toNat length) := by
  obtain ⟨hcount, hleft, -⟩ := hgranted.answering response hresponse
  rw [hcount] at hleft
  have hmtu : 0 < qp.mtu :=
    Nat.lt_of_lt_of_le (by decide) qp.machine.config.pathMtu.bytes_bounds.1
  obtain ⟨size, hbounds, hinside, hsize⟩ := exists_segmentBounds hmtu hleft
  have hleased := hgranted.reading response hresponse
  have hend := hleased.bound
  have hstart : response.address.toNat + response.nextPacket * qp.mtu < 2 ^ 64 := by omega
  obtain ⟨address, haddress, hvalue⟩ := exists_checkedAdd hstart
  have hgrants := hleased.grants address.toNat size (by omega) (by omega)
  refine ⟨address, size, ?_, hsize, MemoryRegistry.validate_eq_ok.mpr hgrants,
    MemoryRegistry.read_eq_ok.mpr ⟨rfl, hgrants⟩⟩
  unfold readResponseSegment
  rw [hbounds]
  dsimp only
  rw [haddress]

theorem length_of_readResponseSegment {address : UInt64} {length mtu : ℕ}
    (h : readResponseSegment response mtu = .ok (address, length)) : length ≤ mtu := by
  unfold readResponseSegment at h
  split at h
  · cases h
  rename_i offset size hbounds
  split at h
  · cases h
  · cases h
    exact (segmentBounds_le hbounds).2

end Responder

/-- **Every packet that the engine may emit passes the encoder.** -/
theorem Emits.encodable {QPS : ℕ} {e : Engine QPS MRS SQ RQ CQ}
    {sender : Option (DataTxClass × Fin QPS)} {packet : WirePacket} (h : Emits e sender packet)
    (hinv : e.Inv) :
    (∃ index qp, e.qps index = some qp ∧ Encodable qp.machine.config.pathMtu.bytes packet) ∨
      ∃ arrival ∈ e.arrivals, ∀ mtu, Encodable mtu packet := by
  cases h with
  | @request index qp active _ hqp hactive hphase hbuild =>
    exact .inl ⟨index, qp, hqp, encodable_of_buildRequestPacket (hinv.qp _ _ hqp).config hbuild⟩
  | @readResponse index qp response address length payload hqp hready hresponse hsegment hread =>
    refine .inl ⟨index, qp, hqp, encodable_readResponsePacket (hinv.qp _ _ hqp).config.remote_le ?_⟩
    rw [(MemoryRegistry.read_eq_ok.mp hread).1, length_copyFromRegistered]
    exact length_of_readResponseSegment hsegment
  | @control arrival reply harrival hreply =>
    exact .inr ⟨arrival, harrival,
      encodable_controlPacket (hinv.replied arrival harrival reply hreply)⟩

end Rocev2.Rc
