import Rocev2.Rc.PsnDiscipline

/-!
# Redelivered requests

A request packet that was accepted and arrives again must be recognised.  The responder compares
the PSN of the packet with the expected one in a space of 24 bits, half of which counts as the
past.  A packet that advanced the expected PSN by more than half of the space is therefore taken
for a packet from the future, or even for the next one.  Only a READ can do that: its span is the
number of packets of its answer, and the responder does not bound it.
-/

namespace Rocev2.Core

/-- A PSN seen from a later one: up to half of the space it is in the past. -/
theorem Psn.compare_eq_before (psn : Psn) {span : ℕ} (hpos : 0 < span) (hle : span ≤ 2 ^ 24) :
    psn.compare (psn.wrappingAdd span) = .before ↔ span ≤ 2 ^ 23 := by
  -- going on for the rest of a turn leads back to the PSN
  have hturn : (psn.wrappingAdd span).wrappingAdd (2 ^ 24 - span) = psn := by
    rw [wrappingAdd_wrappingAdd, Nat.add_sub_cancel' hle]
    ext
    rw [wrappingAdd, newTruncated_value, Nat.add_mod_right]
    exact Nat.mod_eq_of_lt psn.isLt
  have hcompare := compare_wrappingAdd (psn.wrappingAdd span) (d := 2 ^ 24 - span) (by omega)
  rw [hturn] at hcompare
  rw [hcompare]
  split
  · simp only [reduceCtorEq, false_iff]
    omega
  · split
    · simp only [true_iff]
      omega
    · simp only [reduceCtorEq, false_iff]
      omega

end Rocev2.Core

namespace Rocev2.Rc

open Rocev2.Core Rocev2.Wire Rocev2.Memory Rocev2.Lib

variable {QPS MRS SQ RQ CQ IDX : ℕ}

/-- The packet is a duplicate, and handling it advances no sequence number, consumes no receive
work request and writes no byte. -/
structure Recognised (ctx : QpContext MRS SQ RQ CQ) (packet : PacketRef) : Prop where
  duplicate : ctx.qp.receivePsn.classify packet.bth.psn = .duplicate
  psn : (handleRequestPacket ctx packet).1.qp.receivePsn = ctx.qp.receivePsn
  msn : (handleRequestPacket ctx packet).1.qp.messageSequenceNumber = ctx.qp.messageSequenceNumber
  receives : (handleRequestPacket ctx packet).1.qp.receiveQueue = ctx.qp.receiveQueue
  bytes : (handleRequestPacket ctx packet).1.memory.bytes = ctx.memory.bytes

theorem PacketRef.span_bounds (packet : PacketRef) {mtu : ℕ} (hmtu : 256 ≤ mtu) :
    0 < PacketRef.span packet mtu ∧ PacketRef.span packet mtu ≤ 2 ^ 24 := by
  unfold PacketRef.span
  split
  · rename_i reth _ _
    refine ⟨packetCount_pos _ (by omega), ?_⟩
    unfold packetCount
    split
    · decide
    · have hlength := reth.dmaLength.toNat_lt
      refine Nat.le_of_lt_succ (Nat.div_lt_of_lt_mul ?_)
      calc reth.dmaLength.toNat + mtu - 1
          < 256 * 2 ^ 24 + mtu := by omega
        _ ≤ mtu * 2 ^ 24 + mtu := Nat.add_le_add_right (Nat.mul_le_mul_right _ hmtu) _
        _ = mtu * (2 ^ 24 + 1) := rfl
  · decide

section Redelivery

variable {ctx : QpContext MRS SQ RQ CQ} {packet : PacketRef} {others : Multiset (RegionLease MRS)}
  {copies : List (ℕ × List UInt8)} {qp' : QpTransport MRS SQ RQ CQ} {reply : Option ControlReply}
  {outcome : Handled MRS SQ RQ CQ}

/-- An accepted packet that is seen again is a duplicate exactly when its span is at most half of
the space. -/
theorem Accepts.classify_eq_duplicate (haccepts : Accepts ctx packet outcome)
    (hmtu : 256 ≤ ctx.qp.mtu) (hpsn : ctx.qp.receivePsn.classify packet.bth.psn = .expected) :
    outcome.1.qp.receivePsn.classify packet.bth.psn = .duplicate ↔
      PacketRef.span packet ctx.qp.mtu ≤ 2 ^ 23 := by
  have hreceive : outcome.1.qp.receivePsn = _ := congrArg Sequence.receivePsn haccepts.sequence
  have hexpected := ReceivePsn.classify_eq_expected.mp hpsn
  obtain ⟨hpos, hle⟩ := PacketRef.span_bounds packet hmtu
  rw [← Psn.compare_eq_before ctx.qp.receivePsn.expected hpos hle, hreceive, hexpected]
  unfold ReceivePsn.classify Sequence.accepted QpTransport.sequence
  dsimp only
  cases ctx.qp.receivePsn.expected.compare _ <;> simp

/-- An accepted READ holds a reference to the range that it names. -/
theorem Accepts.read_admitted (haccepts : Accepts ctx packet outcome)
    (hready : ctx.qp.machine.canReceive = true)
    (hpsn : ctx.qp.receivePsn.classify packet.bth.psn = .expected)
    (hread : packet.bth.opcode = .rdmaReadRequest)
    (heffect : RequestEffect ctx.qp ctx.memory packet copies outcome.1.qp outcome.2.reply)
    (hkeeps : QpContext.Keeps ctx.memory copies others outcome.1)
    (hcounted : Counted ctx.memory.refs (ctx.qp.leases + others)) :
    outcome.1.qp.readMemory.isSome ∧ ∃ reth, packet.reth = some reth ∧
      ∃ index slot, Grants ctx.memory .remote .remoteReadOnly reth.remoteKey
        reth.virtualAddress.toNat reth.dmaLength.toNat index slot := by
  have hnotFails := not_fails_of_machine hready (congrArg Sequence.machine haccepts.sequence)
  have hnotOff := haccepts.not_putsOff
  generalize hqp : outcome.1.qp = qp' at heffect
  generalize hreply : outcome.2.reply = reply at heffect
  cases heffect with
  | future hother | duplicate hother | replayNotReady hother | replay hother
  | replayFatal hother =>
    rw [hpsn] at hother
    cases hother
  | sendNotReady _ hop | send _ hop | write _ hop =>
    rw [hread] at hop
    cases hop
  | readNotReady =>
    exact absurd ⟨untouched_of_keeps hqp hkeeps hcounted, hreply⟩ hnotOff
  | fatal | sendRejected | receiveFailed =>
    refine absurd ⟨?_, hkeeps.memory.bytes, ?_⟩ hnotFails
    · rw [hqp]
      rfl
    · rw [hqp]
      rfl
  | read lease _ _ hreth _ _ hgrants => exact ⟨rfl, _, hreth, hgrants⟩

/-- A duplicate READ whose range is granted and referenced is never fatal. -/
theorem RequestEffect.of_duplicate_read {qp : QpTransport MRS SQ RQ CQ}
    {memory : MemoryRegistry MRS} {reth : Reth}
    (heffect : RequestEffect qp memory packet copies qp' reply)
    (hpsn : qp.receivePsn.classify packet.bth.psn = .duplicate)
    (hread : packet.bth.opcode = .rdmaReadRequest) (hreth : packet.reth = some reth)
    (hmemory : qp.readMemory.isSome)
    (hgrants : ∃ index slot, Grants memory .remote .remoteReadOnly reth.remoteKey
      reth.virtualAddress.toNat reth.dmaLength.toNat index slot) :
    copies = [] ∧ qp'.receivePsn = qp.receivePsn ∧
      qp'.messageSequenceNumber = qp.messageSequenceNumber ∧
      qp'.receiveQueue = qp.receiveQueue := by
  cases heffect with
  | future hother | sendNotReady hother | readNotReady hother | fatal _ hother
  | sendRejected _ _ hother | receiveFailed _ hother | send hother | write hother
  | read _ hother =>
    rw [hpsn] at hother
    cases hother
  | duplicate _ hop => exact absurd hread hop
  | replayNotReady => exact ⟨rfl, rfl, rfl, rfl⟩
  | replay => exact ⟨rfl, rfl, rfl, rfl⟩
  | replayFatal _ _ hreth' hreason =>
    obtain rfl : reth = _ := Option.some.inj (hreth.symm.trans hreth')
    rcases hreason with ⟨e, hinvalid⟩ | ⟨hnone, -⟩
    · exact absurd hgrants (MemoryRegistry.not_grants_of_validate_error hinvalid)
    · rw [hnone] at hmemory
      cases hmemory

/-- **A redelivered packet is recognised** exactly when its span is at most half of the space. -/
theorem recognised_iff (htidy : Tidy ctx.qp) (hmtu : 256 ≤ ctx.qp.mtu)
    (hcounted : Counted ctx.memory.refs (ctx.qp.leases + others))
    (hready : ctx.qp.machine.canReceive = true)
    (hpsn : ctx.qp.receivePsn.classify packet.bth.psn = .expected)
    (haccepts : Accepts ctx packet (handleRequestPacket ctx packet)) :
    Recognised (handleRequestPacket ctx packet).1 packet ↔
      PacketRef.span packet ctx.qp.mtu ≤ 2 ^ 23 := by
  constructor
  · intro hrecognised
    exact (haccepts.classify_eq_duplicate hmtu hpsn).mp hrecognised.duplicate
  · intro hspan
    have hduplicate := (haccepts.classify_eq_duplicate hmtu hpsn).mpr hspan
    obtain ⟨copies, heffect, hkeeps⟩ : Has (RequestEffect _ _ packet) _ _ _ :=
      handleRequestPacket_effect htidy hcounted
    by_cases hread : packet.bth.opcode = .rdmaReadRequest
    · obtain ⟨hmemory, reth, hreth, index, slot, hgrants⟩ :=
        haccepts.read_admitted hready hpsn hread heffect hkeeps hcounted
      obtain ⟨slot', -, hgrants'⟩ := hgrants.congr hkeeps.memory.toSameRegions
      obtain ⟨copies', heffect', hkeeps'⟩ : Has (RequestEffect _ _ packet) _ _ _ :=
        handleRequestPacket_effect (heffect.tidy htidy) hkeeps.counted
      obtain ⟨rfl, hreceive, hmsn, hqueue⟩ :=
        heffect'.of_duplicate_read hduplicate hread hreth hmemory ⟨index, slot', hgrants'⟩
      exact ⟨hduplicate, hreceive, hmsn, hqueue, hkeeps'.memory.bytes⟩
    · have hagain := handleRequestPacket_duplicate hduplicate hread
      refine ⟨hduplicate, ?_, ?_, ?_, ?_⟩ <;> rw [hagain] <;> rfl

theorem accepts_read {reth : Reth} {index : Fin MRS} {slot : MemorySlot}
    (hpsn : ctx.qp.receivePsn.classify packet.bth.psn = .expected)
    (hkey : packet.bth.partitionKey = Bth.defaultPkey)
    (hread : packet.bth.opcode = .rdmaReadRequest) (hreth : packet.reth = some reth)
    (hinbound : ctx.qp.inboundMessage = none) (hresponse : ctx.qp.readResponse = none)
    (hgrants : Grants ctx.memory .remote .remoteReadOnly reth.remoteKey reth.virtualAddress.toNat
      reth.dmaLength.toNat index slot) (hroom : slot.references + 1 < 2 ^ 32) :
    Accepts ctx packet (handleRequestPacket ctx packet) := by
  have hvalid : ctx.memory.validateRemoteRead reth.remoteKey reth.virtualAddress
      reth.dmaLength.toNat = .ok () :=
    MemoryRegistry.validate_eq_ok.mpr ⟨index, slot, hgrants⟩
  have hretain : ctx.memory.retainRemote reth.remoteKey = .ok (_, _) :=
    MemoryRegistry.retain_eq_ok.mpr
      ⟨index, slot, hgrants.key_eq, hgrants.slot_eq, hroom, rfl, rfl⟩
  have hobserve := ReceivePsn.observeSpan_expected (packetCount reth.dmaLength ctx.qp.mtu) hpsn
  have hhandled : (handleRequestPacket ctx packet).1.qp =
      ctx.qp.readAdmitted (ctx.memory.leaseOf index slot) packet.bth.psn reth ∧
      (handleRequestPacket ctx packet).2.reply = none := by
    unfold handleRequestPacket
    dsimp only
    rw [hpsn]
    dsimp only
    unfold handleExpected
    rw [if_neg (not_not.mpr hkey), hread]
    dsimp only
    unfold handleReadRequest
    rw [hinbound, hresponse, hreth]
    dsimp only [Option.isSome_none]
    rw [if_neg Bool.false_ne_true, if_neg Bool.false_ne_true, hvalid, hretain]
    refine ⟨?_, rfl⟩
    unfold QpTransport.readAdmitted
    rw [← hobserve]
    rfl
  refine ⟨?_, .inl hhandled.2⟩
  rw [hhandled.1, PacketRef.span, hread, hreth]
  rfl

end Redelivery

/-- **Redelivered requests are recognised** exactly when they span at most half of the PSN space.
-/
theorem redelivery_recognised {ep : RcEndpoint QPS MRS SQ RQ CQ IDX} (h : ep.Reachable)
    {i : Fin QPS} {slot : RcQpSlot MRS SQ RQ CQ} (hslot : ep.qps i = some slot)
    (hready : slot.machine.canReceive = true) {packet : PacketRef}
    (hpsn : slot.receivePsn.classify packet.bth.psn = .expected)
    (haccepts : Accepts (ep.context slot) packet (handleRequestPacket (ep.context slot) packet)) :
    Recognised (handleRequestPacket (ep.context slot) packet).1 packet ↔
      PacketRef.span packet slot.machine.config.pathMtu.bytes ≤ 2 ^ 23 := by
  obtain ⟨ep₀, -, hholds⟩ := h.holds
  exact recognised_iff (hholds.qpInv hslot).tidy (PathMtu.bytes_bounds _).1 (hholds.counted hslot)
    hready hpsn haccepts

theorem redelivery_recognised_read :
    ∃ (slot : RcQpSlot 1 2 2 4) (packet : PacketRef),
      (Sample.single.steps (Sample.ready 1 1)).qps 0 = some slot ∧
      packet.bth.opcode = .rdmaReadRequest ∧
      Recognised (handleRequestPacket
        ((Sample.single.steps (Sample.ready 1 1)).context slot) packet).1 packet := by
  let packet : PacketRef :=
    ⟨Bth.new .rdmaReadRequest 2 .zero, some ⟨4096, 2, 512⟩, none, [], rfl, rfl, fun _ ↦ rfl⟩
  have hlive : ((Sample.single.steps (Sample.ready 1 1)).qps 0).map (fun slot ↦
      let outcome := handleRequestPacket ((Sample.single.steps (Sample.ready 1 1)).context slot)
        packet
      (slot.machine.canReceive, slot.receivePsn.classify packet.bth.psn,
        decide (outcome.1.qp.sequence = slot.sequence.accepted
          (PacketRef.span packet slot.machine.config.pathMtu.bytes) true),
        outcome.2.reply, slot.machine.config.pathMtu)) =
      some (true, .expected, true, none, .mtu256) := by
    decide +kernel
  obtain ⟨slot, hslot, heq⟩ := Option.map_eq_some_iff.mp hlive
  simp only [Prod.mk.injEq, decide_eq_true_eq] at heq
  obtain ⟨hready, hpsn, hsequence, hreply, hmtu⟩ := heq
  refine ⟨slot, packet, hslot, rfl, ?_⟩
  refine (redelivery_recognised (Sample.single_reachable _) hslot hready hpsn
    ⟨hsequence, .inl hreply⟩).mpr ?_
  rw [hmtu]
  decide

/-! ## A READ of more than half of the space -/

/-- Create a queue pair, make it ready and register a region for the peer to read. -/
def readable (data : List UInt8) : List Op :=
  (Sample.ready 1 1).tail ++
    [.registerMemory ⟨4096, data⟩ ⟨true, true, true⟩
      (some fun calls ↦ .ok (UInt32.ofNat (calls + 1)))]

def readOf (length : UInt32) : PacketRef :=
  ⟨Bth.new .rdmaReadRequest 2 .zero, some ⟨4096, 2, length⟩, none, [], rfl, .refl false,
    fun _ ↦ rfl⟩

def connected : RcEndpoint 1 1 2 2 4 2 := Sample.single.steps (Sample.ready 1 1).tail

def registered (data : List UInt8) : MemoryRegistry 1 :=
  ((MemoryRegistry.empty 0 0 fun _ ↦ 0).registerInner ⟨4096, data⟩ ⟨true, true, true⟩
    (some fun calls ↦ .ok (UInt32.ofNat (calls + 1)))).1

theorem steps_readable (data : List UInt8) :
    Sample.single.steps (readable data) = { connected with memory := registered data } := by
  rw [readable, RcEndpoint.steps, List.foldl_append]
  change (connected.registerMemory _ _ _).1 = _
  have hmemory : connected.memory = .empty 0 0 fun _ ↦ 0 := rfl
  unfold RcEndpoint.registerMemory registered
  rw [hmemory]
  split <;> rename_i heq <;> rw [heq]

theorem connected_slot :
    ∃ slot, connected.qps 0 = some slot ∧ slot.machine.canReceive = true ∧
      slot.receivePsn.classify .zero = .expected ∧ slot.inboundMessage = none ∧
      slot.readResponse = none ∧ slot.machine.config.pathMtu = .mtu256 := by
  have hlive : (connected.qps 0).map (fun slot ↦
      (slot.machine.canReceive, slot.receivePsn.classify .zero, slot.inboundMessage,
        slot.readResponse, slot.machine.config.pathMtu)) =
      some (true, .expected, none, none, .mtu256) := by
    decide +kernel
  obtain ⟨slot, hslot, heq⟩ := Option.map_eq_some_iff.mp hlive
  simp only [Prod.mk.injEq] at heq
  exact ⟨slot, hslot, heq⟩

/-- The registration of a region of more than half of the space. -/
def hugeRegion : MemorySlot := ⟨4096, 2147483649, ⟨true, true, true⟩, 1, 2, 1, 0⟩

theorem registered_huge {data : List UInt8} (hlength : data.length = 2147483649) :
    (registered data).keys.get 2 .remote = some 0 ∧
      (registered data).slots 0 = some hugeRegion := by
  have hne : data ≠ [] := by
    rintro rfl
    cases hlength
  have hfree : (MemoryRegistry.empty 0 0 fun _ ↦ 0 : MemoryRegistry 1).freeSlot = some 0 := rfl
  unfold registered MemoryRegistry.registerInner
  dsimp only
  rw [if_neg hne, hlength, if_neg (by decide), hfree]
  dsimp only
  rw [if_neg (by decide), if_neg (by decide)]
  exact ⟨rfl, rfl⟩

theorem grants_huge {data : List UInt8} (hlength : data.length = 2147483649) :
    Grants (registered data) .remote .remoteReadOnly 2 (4096 : UInt64).toNat
      (2147483649 : UInt32).toNat 0 hugeRegion := by
  obtain ⟨hkeys, hslots⟩ := registered_huge hlength
  exact ⟨hkeys, hslots, rfl, rfl, by decide, by decide, by decide⟩

/-- **A READ of more than half of the space is not recognised** when it is delivered again. -/
theorem redelivery_not_recognised :
    ∃ (ep : RcEndpoint 1 1 2 2 4 2) (slot : RcQpSlot 1 2 2 4) (packet : PacketRef),
      ep.Reachable ∧ ep.qps 0 = some slot ∧ slot.machine.canReceive = true ∧
      slot.receivePsn.classify packet.bth.psn = .expected ∧
      Accepts (ep.context slot) packet (handleRequestPacket (ep.context slot) packet) ∧
      ¬ Recognised (handleRequestPacket (ep.context slot) packet).1 packet := by
  obtain ⟨slot, hslot, hready, hpsn, hinbound, hresponse, hmtu⟩ := connected_slot
  -- only the length of the list matters; its bytes are never computed
  obtain ⟨data, hdata⟩ : ∃ data : List UInt8, data.length = 2147483649 :=
    ⟨List.replicate 2147483649 0, List.length_replicate⟩
  let ep : RcEndpoint 1 1 2 2 4 2 := { connected with memory := registered data }
  have hreachable : ep.Reachable := by
    have hsteps := Sample.single_reachable (readable data)
    rw [steps_readable] at hsteps
    exact hsteps
  have haccepts : Accepts (ep.context slot) (readOf 2147483649)
      (handleRequestPacket (ep.context slot) (readOf 2147483649)) :=
    accepts_read hpsn rfl rfl rfl hinbound hresponse (grants_huge hdata) (by decide)
  refine ⟨ep, slot, readOf 2147483649, hreachable, hslot, hready, hpsn, haccepts, ?_⟩
  intro hrecognised
  have hspan := (haccepts.classify_eq_duplicate (PathMtu.bytes_bounds _).1 hpsn).mp
    hrecognised.duplicate
  change PacketRef.span _ slot.machine.config.pathMtu.bytes ≤ _ at hspan
  rw [hmtu] at hspan
  exact absurd hspan (by decide)

end Rocev2.Rc
