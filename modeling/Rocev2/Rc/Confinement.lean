import Rocev2.Rc.Incarnation

/-!
# Memory confinement

Which bytes of registered memory the traffic can reach.  A packet changes bytes only in the ranges
that `Touches` lists, whatever its headers say.  The payload of an emitted packet is read in the
state in which the packet is handed to the backend (`OfferedIn`), from the ranges that `Readable`
lists for the queue pair that sends it.  Both lie in regions that are live at that moment
(`Covered`), so the bytes of a region that was removed are out of reach until they are registered
again.

Copies are followed through the steps of the engine: what a step writes is the list of copies of
`QpStep`, and what it reads is the packet of `Emits`.
-/

namespace Rocev2.Rc

open Rocev2.Core Rocev2.Wire Rocev2.Memory Rocev2.Lib

variable {QPS MRS SQ RQ CQ IDX : ℕ} {a : ℕ} {memory : MemoryRegistry MRS} {event : EngineEvent QPS}

/-! ## Ranges -/

/-- An address inside a range. -/
def InRange (address length a : ℕ) : Prop := address ≤ a ∧ a < address + length

def Sge.Contains (sge : Sge) (a : ℕ) : Prop := InRange sge.address.toNat sge.length.toNat a

/-- A live region contains the address. -/
def Covered (memory : MemoryRegistry MRS) (a : ℕ) : Prop :=
  ∃ index slot, memory.slots index = some slot ∧ InRange slot.address.toNat slot.length a

/-- **The bytes that a packet may change.** -/
inductive Touches (memory : MemoryRegistry MRS) (qp : QpTransport MRS SQ RQ CQ)
    (packet : PacketRef) (a : ℕ) : Prop where
  /-- The receive work request at the head of the queue, which a SEND fills. -/
  | receive {posted queue} (hop : packet.bth.opcode.operation = .send)
      (hpop : qp.receiveQueue.pop = some (posted, queue)) (ha : Sge.Contains posted.work.sge a)
  /-- The SEND in progress. -/
  | inbound {work written} (hinbound : qp.inboundMessage = some (.send work written))
      (ha : Sge.Contains work.sge a)
  /-- The active RDMA READ. -/
  | read {active} (hactive : qp.activeRequest = some active)
      (hread : active.work.kind.isRead = true) (ha : Sge.Contains active.work.sge a)
  /-- The range that an RDMA WRITE names, in a region that grants the peer to write. -/
  | write {address rkey length} (hop : packet.bth.opcode.operation = .write)
      (hnamed : packet.reth = some ⟨address, rkey, length⟩ ∨
        ∃ written, qp.inboundMessage = some (.write address rkey length written))
      (hgrants : ∃ index slot, Grants memory .remote .remoteWriteOnly rkey address.toNat
        length.toNat index slot)
      (ha : InRange address.toNat length.toNat a)

theorem covered_of_grants {kind : KeyKind} {required : AccessFlags} {key : UInt32}
    {address length : ℕ}
    (h : ∃ index slot, Grants memory kind required key address length index slot)
    (ha : InRange address length a) : Covered memory a := by
  obtain ⟨index, slot, hgrants⟩ := h
  have hlower := hgrants.lower
  have hupper := hgrants.upper
  obtain ⟨hfrom, hto⟩ := ha
  exact ⟨index, slot, hgrants.slot_eq, by omega, by omega⟩

theorem Covered.congr {memory' : MemoryRegistry MRS} (hsame : SameRegions memory memory')
    (h : Covered memory a) : Covered memory' a := by
  obtain ⟨index, slot, hslot, ha⟩ := h
  obtain ⟨slot', hslot', hregion⟩ := hsame.slot hslot
  have haddress : slot'.address = slot.address := congrArg (fun s ↦ s.address) hregion
  have hlength : slot'.length = slot.length := congrArg (fun s ↦ s.length) hregion
  refine ⟨index, slot', hslot', ?_⟩
  rw [haddress, hlength]
  exact ha

/-! ## Copies -/

/-- An RDMA READ that its queue pair admits: it has the expected PSN, no other message is received
or answered, and it is not refused. -/
structure Arrival.AdmitsRead (arrival : Arrival MRS SQ RQ CQ) (reth : Reth) : Prop where
  opcode : arrival.packet.bth.opcode = .rdmaReadRequest
  reth : arrival.packet.reth = some reth
  expected : arrival.qp.receivePsn.classify arrival.packet.bth.psn = .expected
  idle : arrival.qp.inboundMessage = none ∧ arrival.qp.readResponse = none
  unrefused : arrival.reply = none

section Steps

variable {memory memory' : MemoryRegistry MRS} {qp qp' : QpTransport MRS SQ RQ CQ}
  {event : QpEvent} {copies : List (ℕ × List UInt8)} {reply : Option ControlReply}
  {packet : PacketRef} {copy : ℕ × List UInt8} {a : ℕ}

theorem RequestEffect.touches (h : RequestEffect qp memory packet copies qp' reply)
    (hgranted : Granted memory qp) (hcopy : copy ∈ copies)
    (ha : InRange copy.1 copy.2.length a) : Touches memory qp packet a ∧ Covered memory a := by
  cases h with
  | future | duplicate | replayNotReady | replay | replayFatal | sendNotReady | readNotReady
  | fatal | sendRejected | receiveFailed | read => cases hcopy
  | send hpsn hop hload hvalid hfits hgrants =>
    rw [List.mem_singleton] at hcopy
    subst hcopy
    refine ⟨?_, covered_of_grants hgrants ha⟩
    obtain ⟨hfrom, hto⟩ := ha
    dsimp only at hfrom hto
    cases hload with
    | start hpos hnone hpop => exact .receive hop hpop ⟨by omega, by omega⟩
    | resume hpos hsome => exact .inbound hsome ⟨by omega, by omega⟩
  | write hpsn hop hload hvalid hfits hfinal hgrants =>
    rw [List.mem_singleton] at hcopy
    subst hcopy
    refine ⟨?_, covered_of_grants hgrants ha⟩
    obtain ⟨hfrom, hto⟩ := ha
    dsimp only at hfrom hto
    cases hload with
    | start hpos hnone hreth hrange =>
      exact .write hop (.inl hreth) hrange ⟨by omega, by omega⟩
    | resume hpos hsome =>
      -- the lease of the message keeps its whole range granted
      obtain ⟨index, slot, hrange, -⟩ := hgranted.writing _ _ _ _ hsome
      exact .write hop (.inr ⟨_, hsome⟩) ⟨index, slot, hrange⟩ ⟨by omega, by omega⟩

theorem ResponseEffect.touches {now ticksPerSecond : ℕ}
    (h : ResponseEffect qp memory packet now ticksPerSecond copies qp') (hcopy : copy ∈ copies)
    (ha : InRange copy.1 copy.2.length a) : Touches memory qp packet a ∧ Covered memory a := by
  cases h with
  | ignored | failed | retry | delayed | acked | ackCompleted => cases hcopy
  | read active hactive hlands | readCompleted hactive hlands =>
    rw [List.mem_singleton] at hcopy
    subst hcopy
    have hfits := (segmentBounds_le hlands.bounds).1
    refine ⟨?_, covered_of_grants hlands.grants ha⟩
    obtain ⟨hfrom, hto⟩ := ha
    dsimp only at hfrom hto
    exact .read hactive hlands.kind ⟨by omega, by omega⟩

/-- **A step writes only what its packet may touch.** -/
theorem QpStep.touches (h : QpStep memory qp event copies qp' reply)
    (hgranted : Granted memory qp) (hmemory : Copied memory copies memory')
    (hchanged : memory'.bytes a ≠ memory.bytes a) :
    Covered memory a ∧ ∃ packet, event.packet = some packet ∧ Touches memory qp packet a := by
  obtain ⟨copy, hcopy, ha⟩ : ∃ copy ∈ copies, InRange copy.1 copy.2.length a := by
    by_contra hnot
    refine hchanged ?_
    rw [hmemory.bytes]
    exact copyAll_of_not_mem fun copy hcopy ha ↦ hnot ⟨copy, hcopy, ha⟩
  cases h with
  | request hready heffect =>
    obtain ⟨htouches, hcovered⟩ := heffect.touches hgranted hcopy ha
    exact ⟨hcovered, _, rfl, htouches⟩
  | response hready heffect =>
    obtain ⟨htouches, hcovered⟩ := heffect.touches hcopy ha
    exact ⟨hcovered, _, rfl, htouches⟩
  | start | sent | readSent | timeout | rnrExpired | transition | reconfigure | postWork
  | postReceive | poll => cases hcopy

open QpTransport in
/-- Only a READ that is admitted changes the READ that can be replayed. -/
theorem RequestEffect.readReplay (h : RequestEffect qp memory packet copies qp' reply) (i : ℕ) :
    qp'.readReplay = qp.readReplay ∨ qp'.readReplay = none ∨
      ∃ reth, Arrival.AdmitsRead ⟨i, qp, packet, reply⟩ reth ∧
        qp'.readReplay = some (readResponseOf qp packet.bth.psn reth) := by
  cases h with
  | future | duplicate | replayNotReady | replay | sendNotReady | readNotReady => exact .inl rfl
  | replayFatal | fatal | sendRejected | receiveFailed => exact .inr (.inl rfl)
  | @send loaded work written hpsn hop hload =>
    have hloaded : loaded.readReplay = qp.readReplay := by cases hload <;> rfl
    refine .inl (Eq.trans ?_ hloaded)
    unfold sendWritten
    split
    · dsimp only [receiveFinished, resolved, setInboundMemory, nextMessage, setInbound, observe]
    · rfl
  | @write loaded address rkey length written hpsn hop hload =>
    have hloaded : loaded.readReplay = qp.readReplay := by cases hload <;> rfl
    refine .inl (Eq.trans ?_ hloaded)
    unfold writeWritten
    split
    · dsimp only [setInboundMemory, nextMessage, setInbound, observe]
    · rfl
  | read lease hpsn hop hreth hinbound hread =>
    exact .inr (.inr ⟨_, ⟨hop, hreth, hpsn, ⟨hinbound, hread⟩, rfl⟩, rfl⟩)

theorem RetryEffect.readReplay (h : RetryEffect qp qp') :
    qp'.readReplay = qp.readReplay ∨ qp'.readReplay = none := by
  cases h with
  | idle | retried => exact .inl rfl
  | exhausted => exact .inr rfl

theorem ResponseEffect.readReplay {now ticksPerSecond : ℕ}
    (h : ResponseEffect qp memory packet now ticksPerSecond copies qp') :
    qp'.readReplay = qp.readReplay ∨ qp'.readReplay = none := by
  cases h with
  | failed => exact .inr rfl
  | retry haeth hclass hretry => exact hretry.readReplay
  | ignored | delayed | acked | read => exact .inl rfl
  | ackCompleted | readCompleted => exact .inl (sameResponder_activeFinished _ _ _).replay

theorem QpStep.readReplay (h : QpStep memory qp event copies qp' reply) (i : ℕ) :
    qp'.readReplay = qp.readReplay ∨ qp'.readReplay = none ∨
      ∃ packet reth, event = .request packet ∧ Arrival.AdmitsRead ⟨i, qp, packet, reply⟩ reth ∧
        qp'.readReplay = some (readResponseOf qp packet.bth.psn reth) := by
  cases h with
  | start heffect => cases heffect <;> exact .inl rfl
  | sent =>
    refine .inl ?_
    unfold markRequestPacketSent
    split <;> rfl
  | readSent =>
    refine .inl ?_
    unfold QpTransport.readAdvanced
    split
    · rfl
    · split <;> rfl
  | request hready heffect =>
    rcases heffect.readReplay i with hsame | hnone | ⟨reth, hadmits, hnew⟩
    · exact .inl hsame
    · exact .inr (.inl hnone)
    · exact .inr (.inr ⟨_, reth, rfl, hadmits, hnew⟩)
  | response hready heffect => exact heffect.readReplay.imp_right .inl
  | timeout hretry => exact hretry.readReplay.imp_right .inl
  | @transition destination => cases destination <;> first | exact .inl rfl | exact .inr (.inl rfl)
  | reconfigure => exact .inr (.inl rfl)
  | rnrExpired | postWork | postReceive => exact .inl rfl
  | poll hpoll =>
    unfold RcEndpoint.pollQp at hpoll
    split at hpoll
    · cases hpoll
    · cases hpoll
      exact .inl rfl

end Steps

/-! ## Reception -/

theorem packetEvent_packet {packet packet' : PacketRef} {now ticksPerSecond : ℕ}
    (h : (packetEvent packet now ticksPerSecond).packet = some packet') : packet' = packet := by
  unfold packetEvent at h
  split at h <;> exact (Option.some.inj h).symm

/-- **A packet changes only what it may touch of the queue pair that it names.** -/
theorem Holds.processIncoming_touches {allowed : EngineEvent QPS → Prop}
    {start : Engine QPS MRS SQ RQ CQ} {books : Books QPS MRS SQ RQ CQ}
    {dirty : Set (Component × Fin QPS)} {ep : RcEndpoint QPS MRS SQ RQ CQ IDX}
    (h : Holds allowed start books dirty ep) {now : ℕ} {decoded : DecodedPacket}
    (hchanged : (ep.processIncoming now decoded).1.memory.bytes a ≠ ep.memory.bytes a) :
    Covered ep.memory a ∧ ∃ index slot, ep.qps index = some slot ∧
      slot.machine.config.localQpn = decoded.transport.bth.destinationQpn ∧
      Touches ep.memory slot.toQpTransport decoded.transport a := by
  unfold RcEndpoint.processIncoming at hchanged
  rcases processIncomingState_cases h.tabled now decoded with
    ⟨stats, e, hignored, hstate⟩ | ⟨index, slot, hnumber, hslot, -, -, hready, hstate⟩
  · rw [hstate] at hchanged
    dsimp only at hchanged
    rw [if_pos hignored] at hchanged
    exact absurd rfl hchanged
  · rw [hstate] at hchanged
    dsimp only [RcEndpoint.countCompletions] at hchanged
    rw [(RcEndpoint.frame_synchronizeQp _ index).2.1] at hchanged
    obtain ⟨copies, hstep, hkeeps⟩ :=
      h.handlePacket_step hslot hready decoded.transport now ep.config.ticksPerSecond
    obtain ⟨hcovered, packet, hpacket, htouches⟩ :=
      hstep.touches (h.granted hslot) hkeeps.memory hchanged
    obtain rfl := packetEvent_packet hpacket
    obtain ⟨index', hindex, hlisted⟩ := h.tabled.indexed.get_eq_some.mp hnumber
    rw [← Fin.ext hindex, RcEndpoint.numbers, hslot] at hlisted
    exact ⟨hcovered, index, slot, hslot, Option.some.inj hlisted, htouches⟩

/-! ## Emission -/

/-- **The ranges that the payload of a packet is read from**, by the queue pair that sends it. -/
inductive Readable (e : Engine QPS MRS SQ RQ CQ) (base length : ℕ) :
    Option (DataTxClass × Fin QPS) → Prop where
  | nothing {sender} (hlength : length = 0) : Readable e base length sender
  /-- The range of its active SEND or WRITE, in a live region. -/
  | request {index qp active} (hqp : e.qps index = some qp)
      (hactive : qp.activeRequest = some active) (hkind : active.work.kind.isRead = false)
      (hlower : active.work.sge.address.toNat ≤ base)
      (hupper : base + length ≤ active.work.sge.address.toNat + active.work.sge.length.toNat)
      (hgrants : ∃ region slot,
        Grants e.memory .loc .none active.work.sge.lkey base length region slot) :
      Readable e base length (some (.requester, index))
  /-- The range of the READ that it has admitted and is answering, in a live region that grants the
  peer to read. -/
  | response {index qp response arrival reth} (hqp : e.qps index = some qp)
      (hresponse : qp.readResponse = some response) (harrival : arrival ∈ e.arrivals)
      (hslot : arrival.slot = index.val) (hadmits : arrival.AdmitsRead reth)
      (hread : { response with nextPacket := 0 } =
        readResponseOf arrival.qp arrival.packet.bth.psn reth)
      (hlower : reth.virtualAddress.toNat ≤ base)
      (hupper : base + length ≤ reth.virtualAddress.toNat + reth.dmaLength.toNat)
      (hgrants : ∃ region slot,
        Grants e.memory .remote .remoteReadOnly reth.remoteKey base length region slot) :
      Readable e base length (some (.responder, index))

/-- The payload of a packet is read at an address. -/
def Sourced (e : Engine QPS MRS SQ RQ CQ) (sender : Option (DataTxClass × Fin QPS))
    (packet : WirePacket) (base : ℕ) : Prop :=
  packet.payload = copyFromRegistered e.memory.bytes base packet.payload.length ∧
    Readable e base packet.payload.length sender

/-- Every READ that can be replayed was admitted. -/
def Engine.Recorded (e : Engine QPS MRS SQ RQ CQ) : Prop :=
  ∀ index qp replay, e.qps index = some qp → qp.readReplay = some replay →
    ∃ arrival ∈ e.arrivals, arrival.slot = index.val ∧ ∃ reth, arrival.AdmitsRead reth ∧
      replay = readResponseOf arrival.qp arrival.packet.bth.psn reth

/-- The event registers a buffer that contains the address. -/
def EngineEvent.Registers (a : ℕ) : EngineEvent QPS → Prop
  | .register buffer _ _ => InRange buffer.address.toNat buffer.data.length a
  | _ => False

section Engine

variable {e e' : Engine QPS MRS SQ RQ CQ} {event : EngineEvent QPS} {packet : WirePacket}
  {sender : Option (DataTxClass × Fin QPS)} {memory : MemoryRegistry MRS} {a : ℕ}

theorem Readable.covered {base length : ℕ} (h : Readable e base length sender)
    (ha : InRange base length a) : Covered e.memory a := by
  cases h with
  | nothing hlength =>
    obtain ⟨hfrom, hto⟩ := ha
    omega
  | request _ _ _ _ _ hgrants | response _ _ _ _ _ _ _ _ hgrants =>
    exact covered_of_grants hgrants ha

theorem EngineStep.recorded (h : EngineStep e event e') (hrecorded : e.Recorded) :
    e'.Recorded := by
  cases h with
  | @qp index qp event copies qp' reply memory' hqp hstep =>
    have hkeep : ∀ i current replay, e.qps i = some current → current.readReplay = some replay →
        ∃ arrival ∈ event.record index.val qp reply e.arrivals, arrival.slot = i.val ∧
          ∃ reth, arrival.AdmitsRead reth ∧
            replay = readResponseOf arrival.qp arrival.packet.bth.psn reth := by
      intro i current replay hi hreplay
      obtain ⟨arrival, harrival, hsource⟩ := hrecorded i current replay hi hreplay
      exact ⟨arrival, event.subset_record _ _ _ _ harrival, hsource⟩
    intro i current replay hi hreplay
    rcases update_eq_some hi with ⟨rfl, hnew⟩ | hother
    · cases hnew
      rcases hstep.readReplay i.val with hsame | hnone | ⟨packet, reth, rfl, hadmits, hnew⟩
      · exact hkeep i qp replay hqp (hsame.symm.trans hreplay)
      · cases hnone.symm.trans hreplay
      · cases hnew.symm.trans hreplay
        exact ⟨_, List.mem_append_right _ List.mem_cons_self, rfl, reth, hadmits, rfl⟩
    · exact hkeep i current replay hother hreplay
  | create hfree hnew =>
    intro i current replay hi hreplay
    rcases update_eq_some hi with ⟨-, hslot⟩ | hother
    · cases hslot
      unfold RcQpSlot.new at hnew
      split at hnew
      · cases hnew
      · cases hnew
        cases hreplay
    · exact hrecorded i current replay hother hreplay
  | remove hqp =>
    intro i current replay hi hreplay
    rcases update_eq_some hi with ⟨-, hslot⟩ | hother
    · cases hslot
    · exact hrecorded i current replay hother hreplay
  | offer | accept | register | deregister | write => exact hrecorded

/-- **What is emitted has a source**, whichever queue pair sends it. -/
theorem Emits.sourced (h : Emits e sender packet) (hinv : e.Inv) (hrecorded : e.Recorded) :
    ∃ base, Sourced e sender packet base := by
  cases h with
  | control => exact ⟨0, rfl, .nothing rfl⟩
  | @request index qp active packet hqp hactive hphase hbuild =>
    unfold buildRequestPacket at hbuild
    split at hbuild
    · cases hbuild
      exact ⟨0, rfl, .nothing rfl⟩
    rename_i hkind
    split at hbuild
    · rename_i offset length htransfer hbounds
      split at hbuild
      · cases hbuild
      rename_i payload hsegment
      cases hbuild
      unfold readLocalSegment at hsegment
      split at hsegment
      · cases hsegment
      rename_i address haddress
      obtain ⟨rfl, hgrants⟩ := MemoryRegistry.read_eq_ok.mp hsegment
      have hbase := toNat_of_checkedAdd haddress
      have hfits := (segmentBounds_le hbounds).1
      have hread : active.work.kind.isRead = false := by
        cases hcase : active.work.kind with
        | rdmaRead remoteAddress rkey => exact absurd hcase (hkind remoteAddress rkey)
        | send | rdmaWrite => rfl
      dsimp only [Sourced, segmentPacket]
      rw [length_copyFromRegistered]
      exact ⟨address.toNat, rfl, .request hqp hactive hread (by omega) (by omega) hgrants⟩
    · cases hbuild
  | @readResponse index qp response address length payload hqp hready hresponse hsegment hread =>
    obtain ⟨rfl, hgrants⟩ := MemoryRegistry.read_eq_ok.mp hread
    have hreplay := ((hinv.granted index qp hqp).answering response hresponse).replay
    obtain ⟨arrival, harrival, hslot, reth, hadmits, hsame⟩ := hrecorded index qp _ hqp hreplay
    have haddress' := congrArg ReadResponseState.address hsame
    have hlength := congrArg ReadResponseState.length hsame
    have hkey := congrArg ReadResponseState.rkey hsame
    dsimp only [readResponseOf] at haddress' hlength hkey
    rw [hkey] at hgrants
    unfold readResponseSegment at hsegment
    split at hsegment
    · cases hsegment
    rename_i offset size hbounds
    split at hsegment
    · cases hsegment
    rename_i haddress
    cases hsegment
    have hbase := toNat_of_checkedAdd haddress
    have hfits := (segmentBounds_le hbounds).1
    dsimp only [Sourced, readResponsePacket]
    rw [length_copyFromRegistered]
    rw [haddress'] at hbase
    rw [hlength] at hfits
    exact ⟨address.toNat, rfl, .response hqp hresponse harrival hslot hadmits hsame (by omega)
      (by omega) hgrants⟩

/-- What a registration changes lies in its buffer. -/
theorem registerEffect_outside {buffer : Buffer}
    {result : MemoryRegistry MRS × Except MemoryError RegionHandle}
    (h : MemoryRegistry.RegisterEffect memory buffer result)
    (ha : ¬InRange buffer.address.toNat buffer.data.length a) :
    (Covered result.1 a → Covered memory a) ∧ result.1.bytes a = memory.bytes a := by
  cases h with
  | refused => exact ⟨id, rfl⟩
  | added _ _ _ _ _ _ hrange hbytes =>
    subst hbytes
    refine ⟨?_, copyToRegistered_of_not_mem ha⟩
    rintro ⟨i, slot, hslot, hin⟩
    rcases MemoryRegistry.added_slots hslot with ⟨-, rfl⟩ | ⟨-, hold⟩
    · rw [hrange.1, hrange.2] at hin
      exact absurd hin ha
    · exact ⟨i, slot, hold, hin⟩

/-- **An address outside the live regions stays out of reach.** -/
theorem EngineStep.uncovered (h : EngineStep e event e') (hinv : e.Inv)
    (hevent : ¬event.Registers a) (hnot : ¬Covered e.memory a) :
    ¬Covered e'.memory a ∧ e'.memory.bytes a = e.memory.bytes a := by
  cases h with
  | @qp index qp event copies qp' reply memory' hqp hstep hmemory hcounted =>
    refine ⟨fun hcovered ↦ hnot (hcovered.congr hmemory.toSameRegions.symm), ?_⟩
    by_contra hchanged
    exact hnot (hstep.touches (hinv.granted index qp hqp) hmemory hchanged).1
  | offer | accept | create | remove => exact ⟨hnot, rfl⟩
  | register =>
    obtain ⟨hcovered, hbytes⟩ := registerEffect_outside
      (MemoryRegistry.registerInner_effect hinv.keyed _ _ _) hevent
    exact ⟨mt hcovered hnot, hbytes⟩
  | @deregister handle =>
    rcases MemoryRegistry.deregister_spec e.memory handle with
      ⟨error, hsame⟩ | ⟨index, slot, data, -, -, -, hremoved⟩
    · dsimp only
      rw [hsame]
      exact ⟨hnot, rfl⟩
    · dsimp only
      rw [hremoved]
      refine ⟨?_, rfl⟩
      rintro ⟨i, slot', hslot', hrange⟩
      rcases update_eq_some hslot' with ⟨-, hnew⟩ | hold
      · cases hnew
      · exact hnot ⟨i, slot', hold, hrange⟩
  | write hwrite =>
    obtain ⟨rfl, hgrants⟩ := MemoryRegistry.write_eq_ok.mp hwrite
    exact ⟨hnot, copyToRegistered_of_not_mem fun ha ↦ hnot (covered_of_grants hgrants ha)⟩

theorem uncovered_of_run {allowed : EngineEvent QPS → Prop} (h : Engine.Run allowed e e')
    (hevents : ∀ event, allowed event → ¬event.Registers a) (hinv : e.Inv)
    (hnot : ¬Covered e.memory a) :
    ¬Covered e'.memory a ∧ e'.memory.bytes a = e.memory.bytes a := by
  refine (Lib.Run.invariant (I := fun e' ↦ e'.Inv ∧ ¬Covered e'.memory a ∧
    e'.memory.bytes a = e.memory.bytes a) ?_ h ⟨hinv, hnot, rfl⟩).2
  rintro s t event hevent hstep ⟨hinv, hout, hsame⟩
  obtain ⟨hout', hsame'⟩ := hstep.uncovered hinv (hevents event hevent) hout
  exact ⟨hstep.inv hinv, hout', hsame'.trans hsame⟩

end Engine

/-! ## Operations -/

/-- The operation registers a buffer that contains the address. -/
def Op.Registers (a : ℕ) : Op → Prop
  | .registerMemory buffer _ _ => InRange buffer.address.toNat buffer.data.length a
  | _ => False

theorem Op.Causes.registers {op : Op} (h : op.Causes event) (hevent : event.Registers a) :
    op.Registers a := by
  cases h with
  | register => exact hevent
  | internal htime hinternal =>
    cases event with
    | register => exact hinternal.elim
    | _ => exact hevent.elim
  | _ => exact hevent.elim

/-- A step of a progress call changes a byte only for a packet that the backend delivers. -/
theorem EngineStep.delivered {e e' : Engine QPS MRS SQ RQ CQ} {op : Op} {now : ℕ}
    (h : EngineStep e event e') (hinv : e.Inv) (hcauses : op.Causes event)
    (htime : op.time = some now) (hchanged : e'.memory.bytes a ≠ e.memory.bytes a) :
    ∃ decoded index qp, op.Delivers decoded ∧ e.qps index = some qp ∧
      Touches e.memory qp decoded.transport a := by
  cases hcauses with
  | packet index ticksPerSecond hdelivers =>
    cases h with
    | qp hqp hstep hmemory =>
      obtain ⟨-, packet, hpacket, htouches⟩ :=
        hstep.touches (hinv.granted _ _ hqp) hmemory hchanged
      obtain rfl := packetEvent_packet hpacket
      exact ⟨_, index, _, hdelivers, hqp, htouches⟩
  | internal htime hinternal =>
    cases h with
    | @qp index qp event copies qp' reply memory' hqp hstep hmemory =>
      obtain ⟨-, packet, hpacket, -⟩ := hstep.touches (hinv.granted _ _ hqp) hmemory hchanged
      cases event with
      | request | response => exact hinternal.elim
      | _ => cases hpacket
    | offer | accept => exact absurd rfl hchanged
    | create | remove | register | deregister | write => exact hinternal.elim
  | _ => cases htime

namespace RcEndpoint

variable {ep : RcEndpoint QPS MRS SQ RQ CQ IDX}

theorem Initial.recorded (h : ep.Initial) : ep.engine.Recorded := by
  intro index qp replay hqp
  rw [h.qps_eq_none] at hqp
  cases hqp

theorem Reachable.recorded (h : ep.Reachable) : ep.engine.Recorded := by
  obtain ⟨ep₀, hinitial, hholds⟩ := h.holds
  exact hholds.run.invariant (fun _ hstep hs ↦ hstep.recorded hs) hinitial.recorded

/-- The state in which an operation hands the packet at a position of the log to the backend. -/
structure OfferedIn (op : Op) (ep : RcEndpoint QPS MRS SQ RQ CQ IDX) (position : ℕ)
    (packet : WirePacket) (e : Engine QPS MRS SQ RQ CQ) : Prop where
  before : Engine.Run op.Causes ep.engine e
  log : e.offered = (ep.step op).offered.take position
  emits : ∃ sender, Emits e sender packet
  after : Engine.Run op.Causes { e with offered := e.offered ++ [packet] } (ep.step op).engine

/-- **Every packet that an operation hands to the backend is sourced** in that state. -/
theorem Reachable.sourced (h : ep.Reachable) (op : Op) : ep.offered <+: (ep.step op).offered ∧
    ∀ position packet, ep.offered.length ≤ position →
      (ep.step op).offered[position]? = some packet →
      ∃ e, OfferedIn op ep position packet e ∧
        ∀ sender, Emits e sender packet → ∃ base, Sourced e sender packet base := by
  obtain ⟨hgrows, hentries⟩ := Lib.Run.log_append Engine.offered
    (fun s packet t ↦ (∃ sender, Emits s sender packet) ∧
      t = { s with offered := s.offered ++ [packet] })
    (fun _ hstep ↦ by
      cases hstep with
      | offer hemits => exact .inr ⟨_, rfl, ⟨_, hemits⟩, rfl⟩
      | _ => exact .inl rfl) (h.engine_run op)
  refine ⟨hgrows, fun position packet hposition hpacket ↦ ?_⟩
  obtain ⟨e, _, hbefore, hlog, ⟨hemits, rfl⟩, hafter⟩ :=
    hentries position packet hposition hpacket
  obtain ⟨hinv, hrecorded⟩ : e.Inv ∧ e.Recorded :=
    Lib.Run.invariant (I := fun e ↦ e.Inv ∧ e.Recorded)
      (fun _ hstep hs ↦ ⟨hstep.inv hs.1, hstep.recorded hs.2⟩) hbefore ⟨h.inv, h.recorded⟩
  exact ⟨e, ⟨hbefore, hlog, hemits, hafter⟩, fun _ hsends ↦ hsends.sourced hinv hrecorded⟩

/-- **Bytes outside the live regions are neither written nor read** until they are registered. -/
theorem Reachable.uncovered (h : ep.Reachable) (hnot : ¬Covered ep.memory a) {ops : List Op}
    (hops : ∀ op ∈ ops, ¬op.Registers a) :
    (ep.steps ops).memory.bytes a = ep.memory.bytes a ∧
      ∀ op, ¬op.Registers a → ∀ position packet, (ep.steps ops).offered.length ≤ position →
        ((ep.steps ops).step op).offered[position]? = some packet →
        ∃ e, OfferedIn op (ep.steps ops) position packet e ∧
          ∀ sender, Emits e sender packet →
            ∃ base, Sourced e sender packet base ∧ ¬InRange base packet.payload.length a := by
  have hrun : Engine.Run (fun event ↦ ¬event.Registers a) ep.engine (ep.steps ops).engine :=
    ((run_steps ep ops hops).holds (fun _ hop _ hcauses hevent ↦ hop (hcauses.registers hevent))
      (h.here _)).run
  obtain ⟨hout, hbytes⟩ := uncovered_of_run hrun (fun _ hevent ↦ hevent) h.inv hnot
  refine ⟨hbytes, fun op hop position packet hposition hpacket ↦ ?_⟩
  have hreached := h.steps ops
  obtain ⟨e, hoffered, hsourced⟩ := (hreached.sourced op).2 position packet hposition hpacket
  refine ⟨e, hoffered, fun sender hemits ↦ ?_⟩
  obtain ⟨base, hsource⟩ := hsourced sender hemits
  obtain ⟨hout', -⟩ := uncovered_of_run hoffered.before
    (fun _ hcauses hevent ↦ hop (hcauses.registers hevent)) hreached.inv hout
  exact ⟨base, hsource, fun ha ↦ hout' (hsource.2.covered ha)⟩

theorem deregisterMemory_eq {handle : RegionHandle} {data : List UInt8}
    (h : (ep.deregisterMemory handle).2 = .ok data) : ∃ index slot, index.val = handle.slot ∧
      (ep.deregisterMemory handle).1 = { ep with memory := ep.memory.removed index slot } := by
  unfold deregisterMemory at h ⊢
  rcases ep.memory.deregister_spec handle with
    ⟨e, herror⟩ | ⟨index, slot, data, hindex, -, -, hok⟩
  · rw [herror] at h
    cases h
  · rw [hok]
    exact ⟨index, slot, hindex, rfl⟩

/-- **Registered memory is confined.**  In every reachable endpoint:

* a packet changes only what it may touch of the queue pair that it names, and a progress call
  changes a byte only for a packet that the backend delivers;
* whichever queue pair sends a packet that an operation hands to the backend, the payload is read in
  that state from the range of its active SEND or WRITE, or of the READ that it answers;
* no byte of a region that was removed is written or read, until it is registered again. -/
theorem memory_confined (h : ep.Reachable) :
    (∀ now decoded a, (ep.processIncoming now decoded).1.memory.bytes a ≠ ep.memory.bytes a →
      ∃ index slot, ep.qps index = some slot ∧
        slot.machine.config.localQpn = decoded.transport.bth.destinationQpn ∧
        Touches ep.memory slot.toQpTransport decoded.transport a) ∧
    (∀ op now a, op.time = some now → (ep.step op).memory.bytes a ≠ ep.memory.bytes a →
      ∃ e decoded index qp, Engine.Run op.Causes ep.engine e ∧ op.Delivers decoded ∧
        e.qps index = some qp ∧ Touches e.memory qp decoded.transport a) ∧
    (∀ op, ep.offered <+: (ep.step op).offered ∧
      ∀ position packet, ep.offered.length ≤ position →
        (ep.step op).offered[position]? = some packet →
        ∃ e, OfferedIn op ep position packet e ∧
          ∀ sender, Emits e sender packet → ∃ base, Sourced e sender packet base) ∧
    ∀ handle data a, (ep.deregisterMemory handle).2 = .ok data →
      (∀ index slot, ep.memory.slots index = some slot → index.val ≠ handle.slot →
        ¬InRange slot.address.toNat slot.length a) →
      ∀ ops : List Op, (∀ op ∈ ops, ¬op.Registers a) →
        ∀ ep', ep' = (ep.deregisterMemory handle).1.steps ops →
        ep'.memory.bytes a = ep.memory.bytes a ∧
        ∀ op, ¬op.Registers a → ∀ position packet, ep'.offered.length ≤ position →
          (ep'.step op).offered[position]? = some packet →
          ∃ e, OfferedIn op ep' position packet e ∧ ∀ sender, Emits e sender packet →
            ∃ base, Sourced e sender packet base ∧ ¬InRange base packet.payload.length a := by
  refine ⟨fun now decoded a hchanged ↦ ?_, fun op now a htime hchanged ↦ ?_, h.sourced,
    fun handle data a hok hothers ops hops ↦ ?_⟩
  · exact ((h.here fun _ ↦ True).processIncoming_touches hchanged).2
  · obtain ⟨e, event, e', hrun, hcauses, hstep, hchanged⟩ :=
      Lib.Run.exists_change (fun e ↦ e.memory.bytes a) (h.engine_run op) hchanged
    have hinv : e.Inv := hrun.invariant (fun _ hstep hs ↦ hstep.inv hs) h.inv
    obtain ⟨decoded, index, qp, hdelivers, hqp, htouches⟩ :=
      hstep.delivered hinv hcauses htime hchanged
    exact ⟨e, decoded, index, qp, hrun, hdelivers, hqp, htouches⟩
  · obtain ⟨removed, region, hremoved, hep⟩ := deregisterMemory_eq hok
    have hreached := h.step (.deregisterMemory handle)
    change (ep.deregisterMemory handle).1.Reachable at hreached
    rw [hep] at hreached ⊢
    rintro _ rfl
    refine hreached.uncovered ?_ hops
    rintro ⟨index, slot, hslot, hrange⟩
    dsimp only [MemoryRegistry.removed] at hslot
    by_cases hindex : index = removed
    · rw [hindex, Function.update_self] at hslot
      cases hslot
    · rw [Function.update_of_ne hindex] at hslot
      exact hothers index slot hslot (fun heq ↦ hindex (Fin.ext (heq.trans hremoved.symm))) hrange

namespace Confinement

def waiting : RcEndpoint 1 1 2 2 4 2 :=
  Sample.single.steps (Sample.ready 1 1 ++ [.postReceive Sample.handle ⟨7, Sample.sge 64⟩])

def arriving : WirePacket := Sample.packet .sendOnly 0 none none [5, 6, 7]

/-- A READ of 300 bytes is admitted, and the first 256 have been sent. -/
def answering : RcEndpoint 1 1 2 2 4 2 :=
  Sample.single.steps (Sample.ready 1 1 ++
    [Sample.receives 0 (Sample.packet .rdmaReadRequest 0 (some ⟨4096, 2, 300⟩) none [])])

end Confinement

open Confinement in
theorem memory_confined_of_send :
    (waiting.processIncoming 0 (arriving.decoded (by decide +kernel))).1.memory.bytes 4098 = 7 ∧
      (∃ index slot, waiting.qps index = some slot ∧ slot.machine.config.localQpn = 2 ∧
        Touches waiting.memory slot.toQpTransport
          (arriving.decoded (by decide +kernel)).transport 4098) ∧
      ∃ packet e, packet.payload.length = 44 ∧
        OfferedIn (Sample.polls 0 true) answering 1 packet e ∧
        ∀ sender, Emits e sender packet → ∃ base, Sourced e sender packet base := by
  have hreachable : waiting.Reachable := Sample.single_reachable _
  have hanswering : answering.Reachable := Sample.single_reachable _
  have hsent : ((answering.step (Sample.polls 0 true)).offered[1]?.map
      fun packet ↦ packet.payload.length) = some 44 := by
    decide +kernel
  obtain ⟨packet, hpacket, hlength⟩ := Option.map_eq_some_iff.mp hsent
  obtain ⟨e, hoffered⟩ := ((memory_confined hanswering).2.2.1 (Sample.polls 0 true)).2 1 packet
    (by decide +kernel) hpacket
  exact ⟨by decide +kernel, (memory_confined hreachable).1 0 (arriving.decoded (by decide +kernel))
    4098 (by decide +kernel), packet, e, hlength, hoffered⟩

end RcEndpoint

end Rocev2.Rc
