import Rocev2.Rc.Reachable

/-!
# The PSN discipline of the responder

What a request packet can do to a queue pair, by the place of its PSN relative to the expected
one.  The results read the inversion of the request handler, `RequestEffect`, at the queue pairs of
a reachable endpoint.
-/

namespace Rocev2.Rc

open Rocev2.Core Rocev2.Wire Rocev2.Memory Rocev2.Lib

variable {QPS MRS SQ RQ CQ IDX : ℕ} {qp loaded : QpTransport MRS SQ RQ CQ}
  {position : SegmentPosition} {psn : Psn}

/-! ## Outcomes -/

/-- Nothing but counters changed. -/
structure QpContext.Untouched (ctx ctx' : QpContext MRS SQ RQ CQ) : Prop where
  qp : ctx'.qp = ctx.qp
  bytes : ctx'.memory.bytes = ctx.memory.bytes
  regions : SameRegions ctx.memory ctx'.memory
  refs : ctx'.memory.refs = ctx.memory.refs

/-- The fields that order the requests of the peer. -/
structure Sequence where
  machine : QpStateMachine
  receivePsn : ReceivePsn
  messageSequenceNumber : Psn
deriving DecidableEq

/-- The sequence of a queue pair. -/
def QpTransport.sequence (qp : QpTransport MRS SQ RQ CQ) : Sequence :=
  ⟨qp.machine, qp.receivePsn, qp.messageSequenceNumber⟩

def Sequence.accepted (sequence : Sequence) (span : ℕ) (final : Bool) : Sequence where
  machine := sequence.machine
  receivePsn := ⟨sequence.receivePsn.expected.wrappingAdd span⟩
  messageSequenceNumber :=
    if final then sequence.messageSequenceNumber.next else sequence.messageSequenceNumber

/-- The number of PSNs that a request packet stands for. -/
def PacketRef.span (packet : PacketRef) (mtu : ℕ) : ℕ :=
  match packet.bth.opcode.operation, packet.reth with
  | .readRequest, some reth => packetCount reth.dmaLength mtu
  | _, _ => 1

/-- What the handler of a request packet leaves behind. -/
abbrev Handled (MRS SQ RQ CQ : ℕ) := QpContext MRS SQ RQ CQ × HandlerResult

/-- The packet is accepted: the expected PSN advances by its span, and the message sequence number
advances exactly when the packet completes a message. -/
structure Accepts (ctx : QpContext MRS SQ RQ CQ) (packet : PacketRef)
    (outcome : Handled MRS SQ RQ CQ) : Prop where
  sequence : outcome.1.qp.sequence =
    ctx.qp.sequence.accepted (PacketRef.span packet ctx.qp.mtu) packet.bth.opcode.position.isFinal
  reply : outcome.2.reply = none ∨ outcome.2.reply = some (ackReply outcome.1.qp packet.bth.psn)

/-- The packet is put off with a receiver-not-ready NAK, and nothing changes. -/
structure PutsOff (ctx : QpContext MRS SQ RQ CQ) (packet : PacketRef)
    (outcome : Handled MRS SQ RQ CQ) : Prop where
  untouched : ctx.Untouched outcome.1
  reply : outcome.2.reply = some (rnrReply ctx.qp packet.bth.psn)

/-- The queue pair enters the error state; no byte is written and the PSN does not advance. -/
structure Fails (ctx : QpContext MRS SQ RQ CQ) (outcome : Handled MRS SQ RQ CQ) : Prop where
  state : outcome.1.qp.machine.state = .error
  bytes : outcome.1.memory.bytes = ctx.memory.bytes
  psn : outcome.1.qp.receivePsn = ctx.qp.receivePsn

/-- The READ that was answered last is answered again: only the response and its lease on the range
of the READ change, and the reference counts with the lease. -/
structure Replays (ctx : QpContext MRS SQ RQ CQ) (packet : PacketRef)
    (outcome : Handled MRS SQ RQ CQ) : Prop where
  response : ∃ reth lease, packet.reth = some reth ∧
    Leased ctx.memory .remote .remoteReadOnly reth.remoteKey reth.virtualAddress.toNat
      reth.dmaLength.toNat lease ∧
    outcome.1.qp = (ctx.qp.setReadMemory lease).setRead
      (some (readResponseOf ctx.qp packet.bth.psn reth))
  regions : SameRegions ctx.memory outcome.1.memory
  refs : ∀ lease, outcome.1.memory.refs lease + ctx.qp.leases.count lease =
    ctx.memory.refs lease + outcome.1.qp.leases.count lease
  reply : outcome.2.reply = none

def ReadDenied (memory : MemoryRegistry MRS) (packet : PacketRef) : Prop :=
  ∃ reth, packet.reth = some reth ∧
    ((∃ e, memory.validateRemoteRead reth.remoteKey reth.virtualAddress reth.dmaLength.toNat =
      .error e) ∨
    ∃ index slot, KeyTable.get memory.keys reth.remoteKey .remote = some index ∧
      memory.slots index = some slot ∧ 2 ^ 32 - 1 ≤ slot.references)

section Exclusive

variable {ctx : QpContext MRS SQ RQ CQ} {packet : PacketRef} {outcome : Handled MRS SQ RQ CQ}

theorem rnrReply_ne_ackReply (qp qp' : QpTransport MRS SQ RQ CQ) (psn psn' : Psn) :
    rnrReply qp psn ≠ ackReply qp' psn' := by
  intro heq
  have hclass := congrArg (fun reply ↦ reply.aeth.classify) heq
  simp only [rnrReply, ackReply, controlReply, Aeth.classify_rnrNak, Aeth.classify_ack] at hclass
  cases hclass

theorem Accepts.not_putsOff (h : Accepts ctx packet outcome) : ¬ PutsOff ctx packet outcome := by
  intro hoff
  rcases h.reply with hnone | hack
  · rw [hoff.reply] at hnone
    cases hnone
  · rw [hoff.reply] at hack
    exact rnrReply_ne_ackReply _ _ _ _ (Option.some.inj hack)

theorem not_fails_of_machine (hready : ctx.qp.machine.canReceive = true)
    (hmachine : outcome.1.qp.machine = ctx.qp.machine) : ¬ Fails ctx outcome := by
  intro hfails
  have hstate := hfails.state
  rw [hmachine] at hstate
  simp [QpStateMachine.canReceive, hstate] at hready

end Exclusive

/-! ## Reading the effects -/

theorem LoadsSend.sequence {work : RecvWorkRequest} {written : ℕ}
    (h : LoadsSend qp position loaded work written) :
    loaded.sequence = qp.sequence := by
  cases h with
  | start => rfl
  | resume => rfl

theorem LoadsWrite.sequence {memory : MemoryRegistry MRS} {reth : Option Reth} {address : UInt64}
    {rkey length : UInt32} {written : ℕ}
    (h : LoadsWrite qp memory reth position loaded address rkey length written) :
    loaded.sequence = qp.sequence := by
  cases h with
  | start => rfl
  | resume => rfl

theorem classify_of_sequence {disposition : ReceiveDisposition} (h : loaded.sequence = qp.sequence)
    (hpsn : qp.receivePsn.classify psn = disposition) :
    loaded.receivePsn.classify psn = disposition := by
  have hreceive : loaded.receivePsn = qp.receivePsn := congrArg Sequence.receivePsn h
  rw [hreceive]
  exact hpsn

theorem sequence_observe (h : qp.receivePsn.classify psn = .expected) :
    (qp.observe psn).sequence = qp.sequence.accepted 1 false := by
  have hadvance : (qp.receivePsn.observe psn).1 = _ := ReceivePsn.observeSpan_expected 1 h
  simp only [QpTransport.sequence, QpTransport.observe, hadvance]
  rfl

theorem sequence_nextMessage (h : qp.receivePsn.classify psn = .expected) :
    (qp.observe psn).nextMessage.sequence = qp.sequence.accepted 1 true :=
  congrArg (fun sequence ↦ { sequence with messageSequenceNumber :=
    sequence.messageSequenceNumber.next }) (sequence_observe h)

theorem sequence_sendWritten (hpsn : qp.receivePsn.classify psn = .expected)
    (work : RecvWorkRequest) (total : ℕ) (final : Bool) :
    (qp.sendWritten psn work total final).sequence = qp.sequence.accepted 1 final := by
  cases final with
  | false => exact sequence_observe hpsn
  | true => exact sequence_nextMessage hpsn

theorem sequence_writeWritten (hpsn : qp.receivePsn.classify psn = .expected) (address : UInt64)
    (rkey length : UInt32) (total : ℕ) (final : Bool) :
    (qp.writeWritten psn address rkey length total final).sequence =
      qp.sequence.accepted 1 final := by
  cases final with
  | false => exact sequence_observe hpsn
  | true => exact sequence_nextMessage hpsn

section Reading

variable {ctx : QpContext MRS SQ RQ CQ} {packet : PacketRef} {outcome : Handled MRS SQ RQ CQ}
  {copies : List (ℕ × List UInt8)} {others : Multiset (RegionLease MRS)}

theorem untouched_of_keeps (hqp : outcome.1.qp = ctx.qp)
    (hkeeps : QpContext.Keeps ctx.memory [] others outcome.1)
    (hcounted : Counted ctx.memory.refs (ctx.qp.leases + others)) :
    ctx.Untouched outcome.1 := by
  refine ⟨hqp, hkeeps.memory.bytes, hkeeps.memory.toSameRegions, ?_⟩
  funext lease
  have hafter := hkeeps.counted lease
  rw [hqp] at hafter
  rw [← hafter, hcounted lease]

theorem handleRequestPacket_future (hpsn : ctx.qp.receivePsn.classify packet.bth.psn = .future) :
    handleRequestPacket ctx packet =
      (ctx.setStats { ctx.stats with
        sequenceErrors := saturatingAdd ctx.stats.sequenceErrors 1 },
      { reply := some (controlReply ctx.qp ctx.qp.receivePsn.expected
        (.psnNak ctx.qp.messageSequenceNumber.value)) }) := by
  unfold handleRequestPacket
  dsimp only
  rw [hpsn]

theorem handleRequestPacket_duplicate
    (hpsn : ctx.qp.receivePsn.classify packet.bth.psn = .duplicate)
    (hop : packet.bth.opcode ≠ .rdmaReadRequest) :
    handleRequestPacket ctx packet =
      (ctx.setStats { ctx.stats with
        duplicateRequests := saturatingAdd ctx.stats.duplicateRequests 1 },
      { reply := some (ackReply ctx.qp packet.bth.psn) }) := by
  unfold handleRequestPacket
  dsimp only
  rw [hpsn]
  dsimp only
  rw [if_neg hop]
  rfl

/-- **The outcomes of a packet at the expected PSN.** -/
theorem expected_cases (hpsn : ctx.qp.receivePsn.classify packet.bth.psn = .expected)
    (heffect : RequestEffect ctx.qp ctx.memory packet copies outcome.1.qp outcome.2.reply)
    (hkeeps : QpContext.Keeps ctx.memory copies others outcome.1)
    (hcounted : Counted ctx.memory.refs (ctx.qp.leases + others)) :
    Accepts ctx packet outcome ∨ PutsOff ctx packet outcome ∨ Fails ctx outcome := by
  generalize hqp : outcome.1.qp = qp' at heffect
  generalize hreply : outcome.2.reply = reply at heffect
  have hspan : packet.bth.opcode.operation ≠ .readRequest →
      PacketRef.span packet ctx.qp.mtu = 1 := by
    intro hop
    unfold PacketRef.span
    split
    · rename_i hread _
      exact absurd hread hop
    · rfl
  cases heffect with
  | future hother | duplicate hother | replayNotReady hother | replay hother
  | replayFatal hother =>
    rw [hpsn] at hother
    cases hother
  | sendNotReady | readNotReady =>
    exact .inr (.inl ⟨untouched_of_keeps hqp hkeeps hcounted, hreply⟩)
  | fatal | sendRejected | receiveFailed =>
    refine .inr (.inr ⟨?_, hkeeps.memory.bytes, ?_⟩)
    · rw [hqp]
      rfl
    · rw [hqp]
      rfl
  | send _ hop hload =>
    refine .inl ⟨?_, .inr ?_⟩
    · have hloaded := classify_of_sequence hload.sequence hpsn
      rw [hqp, sequence_sendWritten hloaded, hload.sequence, hspan]
      rw [hop]
      rintro ⟨⟩
    · rw [hreply, hqp]
  | write _ hop hload =>
    refine .inl ⟨?_, .inr ?_⟩
    · have hloaded := classify_of_sequence hload.sequence hpsn
      rw [hqp, sequence_writeWritten hloaded, hload.sequence, hspan]
      rw [hop]
      rintro ⟨⟩
    · rw [hreply, hqp]
  | read lease _ hop hreth =>
    refine .inl ⟨?_, .inl hreply⟩
    rw [hqp, PacketRef.span, hreth, hop]
    rfl

/-- **The outcomes of a duplicate READ.** -/
theorem duplicateRead_cases (hpsn : ctx.qp.receivePsn.classify packet.bth.psn = .duplicate)
    (hread : packet.bth.opcode = .rdmaReadRequest)
    (heffect : RequestEffect ctx.qp ctx.memory packet copies outcome.1.qp outcome.2.reply)
    (hkeeps : QpContext.Keeps ctx.memory copies others outcome.1)
    (hcounted : Counted ctx.memory.refs (ctx.qp.leases + others)) (htidy : Tidy ctx.qp)
    (hgranted : Granted ctx.memory ctx.qp) :
    (outcome.1.memory.bytes = ctx.memory.bytes ∧ outcome.1.qp.receivePsn = ctx.qp.receivePsn ∧
      outcome.1.qp.messageSequenceNumber = ctx.qp.messageSequenceNumber) ∧
    (Replays ctx packet outcome ∨ PutsOff ctx packet outcome ∨
      ReadDenied ctx.memory packet ∧ outcome.1.qp.machine.state = .error) := by
  generalize hqp : outcome.1.qp = qp' at heffect
  generalize hreply : outcome.2.reply = reply at heffect
  cases heffect with
  | future hother | sendNotReady hother | readNotReady hother | fatal _ hother
  | sendRejected _ _ hother | receiveFailed _ hother | send hother | write hother
  | read _ hother =>
    rw [hpsn] at hother
    cases hother
  | duplicate _ hop => exact absurd hread hop
  | replayNotReady =>
    exact ⟨⟨hkeeps.memory.bytes, rfl, rfl⟩,
      .inr (.inl ⟨untouched_of_keeps hqp hkeeps hcounted, hreply⟩)⟩
  | @replay reth lease _ _ hreth hgrants hreplay _ hsame hleased =>
    refine ⟨⟨hkeeps.memory.bytes, rfl, rfl⟩, .inl ⟨⟨reth, lease, hreth, ?_, hqp⟩,
      hkeeps.memory.toSameRegions, fun held ↦ ?_, hreply⟩⟩
    · exact hgranted.replayed htidy hgrants hreplay hsame hleased
    · have hbefore := hcounted held
      have hafter := hkeeps.counted held
      rw [Multiset.count_add] at hbefore hafter
      omega
  | @replayFatal reth _ _ hreth hreason =>
    refine ⟨⟨hkeeps.memory.bytes, rfl, rfl⟩, .inr (.inr ⟨⟨reth, hreth, ?_⟩, rfl⟩)⟩
    rcases hreason with hinvalid | ⟨-, e, hretain⟩
    · exact .inl hinvalid
    rcases MemoryRegistry.retain_eq_error hretain with
      ⟨-, hunknown⟩ | ⟨-, index, slot, hkey, hslot, hfull⟩
    · -- a key that cannot be retained cannot be read either
      cases hvalid : ctx.memory.validateRemoteRead reth.remoteKey reth.virtualAddress
        reth.dmaLength.toNat with
      | error e => exact .inl ⟨e, rfl⟩
      | ok =>
        obtain ⟨index, slot, hgrants⟩ := MemoryRegistry.validate_eq_ok.mp hvalid
        exact nomatch (hunknown index hgrants.key_eq).symm.trans hgrants.slot_eq
    · exact .inr ⟨index, slot, hkey, hslot, by omega⟩

end Reading

/-- **The PSN discipline of the responder.**  For every queue pair of a reachable endpoint that can
receive and every request packet:
a future PSN is answered with a sequence NAK that carries the expected PSN;
a duplicate that is not a READ is acknowledged again;
a duplicate READ changes neither bytes nor sequence numbers: it is replayed, or put off, or the
READ is denied and the queue pair fails;
at the expected PSN the packet is accepted, or it is put off, or the queue pair fails, and exactly
one of these. -/
theorem responder_psn_discipline {ep : RcEndpoint QPS MRS SQ RQ CQ IDX} (h : ep.Reachable)
    {i : Fin QPS} {slot : RcQpSlot MRS SQ RQ CQ} (hslot : ep.qps i = some slot)
    (hready : slot.machine.canReceive = true) (packet : PacketRef) :
    let ctx := ep.context slot
    let outcome := handleRequestPacket ctx packet
    (slot.receivePsn.classify packet.bth.psn = .future → ctx.Untouched outcome.1 ∧
      outcome.2.reply = some (controlReply slot.toQpTransport slot.receivePsn.expected
        (.psnNak slot.messageSequenceNumber.value))) ∧
    (slot.receivePsn.classify packet.bth.psn = .duplicate →
      packet.bth.opcode ≠ .rdmaReadRequest → ctx.Untouched outcome.1 ∧
      outcome.2.reply = some (ackReply slot.toQpTransport packet.bth.psn)) ∧
    (slot.receivePsn.classify packet.bth.psn = .duplicate →
      packet.bth.opcode = .rdmaReadRequest →
      (outcome.1.memory.bytes = ep.memory.bytes ∧ outcome.1.qp.receivePsn = slot.receivePsn ∧
        outcome.1.qp.messageSequenceNumber = slot.messageSequenceNumber) ∧
      (Replays ctx packet outcome ∨ PutsOff ctx packet outcome ∨
        ReadDenied ep.memory packet ∧ outcome.1.qp.machine.state = .error)) ∧
    (slot.receivePsn.classify packet.bth.psn = .expected →
      (Accepts ctx packet outcome ∧ ¬ PutsOff ctx packet outcome ∧ ¬ Fails ctx outcome) ∨
      (¬ Accepts ctx packet outcome ∧ PutsOff ctx packet outcome ∧ ¬ Fails ctx outcome) ∨
      (¬ Accepts ctx packet outcome ∧ ¬ PutsOff ctx packet outcome ∧ Fails ctx outcome)) := by
  obtain ⟨ep₀, -, hholds⟩ := h.holds
  have hcounted := hholds.counted hslot
  obtain ⟨copies, heffect, hkeeps⟩ : Has (RequestEffect _ _ packet) _ _ _ :=
    handleRequestPacket_effect (hholds.qpInv hslot).tidy hcounted
  intro ctx outcome
  refine ⟨fun hpsn ↦ ?_, fun hpsn hop ↦ ?_, fun hpsn hop ↦ ?_, fun hpsn ↦ ?_⟩
  · have houtcome : outcome = _ := handleRequestPacket_future hpsn
    rw [houtcome]
    exact ⟨⟨rfl, rfl, SameRegions.refl _, rfl⟩, rfl⟩
  · have houtcome : outcome = _ := handleRequestPacket_duplicate hpsn hop
    rw [houtcome]
    exact ⟨⟨rfl, rfl, SameRegions.refl _, rfl⟩, rfl⟩
  · exact duplicateRead_cases hpsn hop heffect hkeeps hcounted (hholds.qpInv hslot).tidy
      (hholds.granted hslot)
  · rcases expected_cases hpsn heffect hkeeps hcounted with haccepts | hoff | hfails
    · exact .inl ⟨haccepts, haccepts.not_putsOff,
        not_fails_of_machine hready (congrArg Sequence.machine haccepts.sequence)⟩
    · exact .inr (.inl ⟨fun haccepts ↦ haccepts.not_putsOff hoff, hoff,
        not_fails_of_machine hready (by rw [hoff.untouched.qp])⟩)
    · refine .inr (.inr ⟨fun haccepts ↦ ?_, fun hoff ↦ ?_, hfails⟩)
      · exact not_fails_of_machine hready (congrArg Sequence.machine haccepts.sequence) hfails
      · exact not_fails_of_machine hready (by rw [hoff.untouched.qp]) hfails

/-- A READ of four bytes has been answered, and a receive request is posted. -/
def answered : List Op :=
  Sample.ready 1 1 ++
    [Sample.receives 0 (Sample.packet .rdmaReadRequest 0 (some ⟨4096, 2, 4⟩) none []),
      .postReceive Sample.handle ⟨1, Sample.sge 4⟩]

def sendAt (psn : ℕ) : PacketRef :=
  ⟨Bth.new .sendOnly 2 (.newTruncated psn), none, none, [], rfl, rfl, nofun⟩

def readAt (psn : ℕ) : PacketRef :=
  ⟨Bth.new .rdmaReadRequest 2 (.newTruncated psn), some ⟨4096, 2, 4⟩, none, [], rfl, rfl,
    fun _ ↦ rfl⟩

/-- A future and a duplicate SEND, the READ again, and a SEND at the expected PSN. -/
theorem responder_psn_discipline_answered : ∃ slot,
    (Sample.single.steps answered).qps 0 = some slot ∧
    let ctx := (Sample.single.steps answered).context slot
    (handleRequestPacket ctx (sendAt 5)).2.reply = some (controlReply slot.toQpTransport
      slot.receivePsn.expected (.psnNak slot.messageSequenceNumber.value)) ∧
    (handleRequestPacket ctx (sendAt 0)).2.reply = some (ackReply slot.toQpTransport .zero) ∧
    Replays ctx (readAt 0) (handleRequestPacket ctx (readAt 0)) ∧
    Accepts ctx (sendAt 1) (handleRequestPacket ctx (sendAt 1)) := by
  have hlive : ((Sample.single.steps answered).qps 0).map (fun slot ↦
      (slot.machine.canReceive, slot.receivePsn.classify (.newTruncated 5),
        slot.receivePsn.classify .zero, slot.receivePsn.classify (.newTruncated 1))) =
      some (true, .future, .duplicate, .expected) := by
    decide +kernel
  have houtcomes : ((Sample.single.steps answered).qps 0).map (fun slot ↦
      let again := handleRequestPacket ((Sample.single.steps answered).context slot) (readAt 0)
      let next := handleRequestPacket ((Sample.single.steps answered).context slot) (sendAt 1)
      (again.2.reply.isSome, again.1.qp.machine.state,
        decide (next.1.qp.receivePsn = slot.receivePsn), next.1.qp.machine.state)) =
      some (false, .rts, false, .rts) := by
    decide +kernel
  obtain ⟨slot, hslot, heq⟩ := Option.map_eq_some_iff.mp hlive
  rw [hslot, Option.map_some, Option.some.injEq] at houtcomes
  simp only [Prod.mk.injEq] at heq houtcomes
  obtain ⟨hready, hfuture, hduplicate, hexpected⟩ := heq
  obtain ⟨hreply, hstate, hmoved, hstate'⟩ := houtcomes
  have hreachable := Sample.single_reachable answered
  refine ⟨slot, hslot, ?_, ?_, ?_, ?_⟩
  · exact ((responder_psn_discipline hreachable hslot hready (sendAt 5)).1 hfuture).2
  · exact ((responder_psn_discipline hreachable hslot hready (sendAt 0)).2.1 hduplicate nofun).2
  · rcases ((responder_psn_discipline hreachable hslot hready (readAt 0)).2.2.1 hduplicate rfl).2
      with hreplays | hoff | ⟨-, herror⟩
    · exact hreplays
    · cases hreply.symm.trans (congrArg Option.isSome hoff.reply)
    · cases hstate.symm.trans herror
  · rcases (responder_psn_discipline hreachable hslot hready (sendAt 1)).2.2.2 hexpected with
      haccepts | ⟨-, hoff, -⟩ | ⟨-, -, hfails⟩
    · exact haccepts.1
    · exact absurd (congrArg QpTransport.receivePsn hoff.untouched.qp) (of_decide_eq_false hmoved)
    · cases hstate'.symm.trans hfails.state

end Rocev2.Rc
