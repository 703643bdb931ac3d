import Rocev2.Rc.PsnDiscipline
import Rocev2.Rc.ReadAssembly

/-!
# The packets of an inbound message

A SEND or WRITE arrives in packets.  The first one opens the message, each one is written behind the
bytes before it, and the final one completes the message.

`Gathered` says that the accepted requests at the end of a stream are the packets of one message.
`QpStep.inboundStep` is what one step of a queue pair can do: it accepts a packet of a message,
`Part`, or it drops the message being reassembled or leaves it alone.
-/

namespace Rocev2.Rc

open Rocev2.Core Rocev2.Wire Rocev2.Memory

variable {MRS SQ RQ CQ : ℕ}

/-! ## Accepted requests -/

namespace Happening

def executed (h : Happening MRS SQ RQ CQ) : Bool :=
  match h.event with
  | .request packet =>
    h.before.receivePsn.classify packet.bth.psn = .expected &&
      h.after.sequence = h.before.sequence.accepted (PacketRef.span packet h.before.mtu)
        packet.bth.opcode.position.isFinal
  | _ => false

def finishes (operation : Operation) (h : Happening MRS SQ RQ CQ) : Bool :=
  match h.event with
  | .request packet =>
    h.executed && packet.bth.opcode.operation = operation && packet.bth.opcode.position.isFinal
  | _ => false

end Happening

def QpTransport.successes (qp : QpTransport MRS SQ RQ CQ) : List Completion :=
  qp.generated.filter fun completion ↦ isReceive completion && completion.status = .success

/-! ## Messages -/

namespace InboundMessage

def operation : InboundMessage → Operation
  | .send _ _ => .send
  | .write _ _ _ _ => .write

def address : InboundMessage → ℕ
  | .send work _ => work.sge.address.toNat
  | .write address _ _ _ => address.toNat

def bytesWritten : InboundMessage → ℕ
  | .send _ bytesWritten => bytesWritten
  | .write _ _ _ bytesWritten => bytesWritten

def capacity : InboundMessage → ℕ
  | .send work _ => work.sge.length.toNat
  | .write _ _ totalLength _ => totalLength.toNat

def grown : InboundMessage → ℕ → InboundMessage
  | .send work bytesWritten, count => .send work (bytesWritten + count)
  | .write address rkey totalLength bytesWritten, count =>
    .write address rkey totalLength (bytesWritten + count)

def reports : InboundMessage → List Completion
  | .send work bytesWritten => [QpContext.receiveCompletion work .success bytesWritten]
  | .write _ _ _ _ => []

/-- The message is the one that the first packet opens: the receive request at the head of the
queue, or the range that the packet names. -/
def Opened (h : Happening MRS SQ RQ CQ) : InboundMessage → Prop
  | .send work _ => (h.before.receiveQueue.items.head?.map fun posted ↦ posted.work) = some work
  | .write address rkey totalLength _ =>
    ∃ packet, h.event = .request packet ∧ packet.reth = some ⟨address, rkey, totalLength⟩

variable (message : InboundMessage) (count : ℕ)

@[simp]
theorem operation_grown : (message.grown count).operation = message.operation := by
  cases message <;> rfl

@[simp]
theorem address_grown : (message.grown count).address = message.address := by
  cases message <;> rfl

@[simp]
theorem bytesWritten_grown :
    (message.grown count).bytesWritten = message.bytesWritten + count := by
  cases message <;> rfl

@[simp]
theorem capacity_grown : (message.grown count).capacity = message.capacity := by
  cases message <;> rfl

theorem opened_grown {message : InboundMessage} {h : Happening MRS SQ RQ CQ}
    (hopened : Opened h message) : Opened h (message.grown count) := by
  cases message <;> exact hopened

end InboundMessage

def payloadBytes (packets : List PacketRef) : ℕ :=
  (packets.map fun packet ↦ packet.payload.length).sum

/-- The place of each packet in its message. -/
def positions (packets : List PacketRef) : List SegmentPosition :=
  packets.map fun packet ↦ packet.bth.opcode.position

/-- The positions of a whole message: `Only`, or `First`, any number of `Middle`s and `Last`. -/
inductive Whole : List SegmentPosition → Prop
  | only : Whole [.only]
  | segmented (middles : ℕ) : Whole (.first :: List.replicate middles .middle ++ [.last])

/-- The positions of a message that is not complete. -/
def Unfinished (positions : List SegmentPosition) : Prop :=
  ∃ middles, positions = .first :: List.replicate middles .middle

/-- **Packets of one operation at consecutive expected PSNs**, starting with `psn`, whose payloads
are written back to back from `base` on. -/
inductive Consecutive (operation : Operation) (base : ℕ) (psn : Psn) :
    List (Happening MRS SQ RQ CQ) → List PacketRef → Prop
  | nil : Consecutive operation base psn [] []
  | snoc {parts packets h packet} (hparts : Consecutive operation base psn parts packets)
      (hevent : h.event = .request packet) (hop : packet.bth.opcode.operation = operation)
      (hpsn : packet.bth.psn = psn.wrappingAdd packets.length)
      (hexpected : h.before.receivePsn.expected = packet.bth.psn)
      (hcopies : h.copies = [(base + payloadBytes packets, packet.payload)]) :
      Consecutive operation base psn (parts ++ [h]) (packets ++ [packet])

/-- The accepted requests at the end of the stream are the packets of `message`. -/
structure Gathered (message : InboundMessage) (stream : List (Happening MRS SQ RQ CQ)) (psn : Psn)
    (packets : List PacketRef) : Prop where
  /-- No other request is accepted between them. -/
  parts : ∃ first later, first :: later <:+ stream.filter Happening.executed ∧
    message.Opened first ∧
    Consecutive message.operation message.address psn (first :: later) packets
  written : message.bytesWritten = payloadBytes packets
  fits : message.bytesWritten ≤ message.capacity

section Gathering

variable {message : InboundMessage} {stream : List (Happening MRS SQ RQ CQ)} {psn : Psn}
  {packets : List PacketRef} {packet : PacketRef} {h : Happening MRS SQ RQ CQ}

theorem payloadBytes_snoc (packets : List PacketRef) (packet : PacketRef) :
    payloadBytes (packets ++ [packet]) = payloadBytes packets + packet.payload.length := by
  simp [payloadBytes]

theorem positions_snoc (packets : List PacketRef) (packet : PacketRef) :
    positions (packets ++ [packet]) = positions packets ++ [packet.bth.opcode.position] := by
  simp [positions]

theorem Gathered.skip (hgathered : Gathered message stream psn packets)
    (hexecuted : h.executed = false) : Gathered message (stream ++ [h]) psn packets := by
  refine ⟨?_, hgathered.written, hgathered.fits⟩
  rw [List.filter_append, List.filter_cons_of_neg (by rw [hexecuted]; decide), List.filter_nil,
    List.append_nil]
  exact hgathered.parts

/-- What accepting one packet of a message does. -/
structure Part (message : InboundMessage) (packet : PacketRef) (h : Happening MRS SQ RQ CQ) :
    Prop where
  event : h.event = .request packet
  executed : h.executed = true
  operation : packet.bth.opcode.operation = message.operation
  expected : h.before.receivePsn.expected = packet.bth.psn
  advanced : h.after.receivePsn.expected = packet.bth.psn.wrappingAdd 1
  copies : h.copies = [(message.address + message.bytesWritten, packet.payload)]
  fits : message.bytesWritten + packet.payload.length ≤ message.capacity
  filled : message.operation = .write → (packet.bth.opcode.position.isFinal = true ↔
    message.bytesWritten + packet.payload.length = message.capacity)
  after : h.after.inboundMessage = if packet.bth.opcode.position.isFinal = true then none
    else some (message.grown packet.payload.length)
  successes : h.after.successes = h.before.successes ++
    if packet.bth.opcode.position.isFinal = true
    then (message.grown packet.payload.length).reports else []

theorem Part.start (hpart : Part message packet h) (hopened : message.Opened h)
    (hzero : message.bytesWritten = 0) :
    Gathered (message.grown packet.payload.length) (stream ++ [h]) packet.bth.psn [packet] := by
  refine ⟨⟨h, [], ?_, InboundMessage.opened_grown _ hopened, ?_⟩, ?_, ?_⟩
  · rw [List.filter_append, List.filter_cons_of_pos hpart.executed, List.filter_nil]
    exact List.suffix_append _ _
  · rw [InboundMessage.operation_grown, InboundMessage.address_grown]
    have hnone : Consecutive message.operation message.address packet.bth.psn
        ([] : List (Happening MRS SQ RQ CQ)) [] := .nil
    refine hnone.snoc hpart.event hpart.operation (Psn.wrappingAdd_zero _).symm hpart.expected ?_
    rw [hpart.copies, hzero]
    rfl
  · rw [InboundMessage.bytesWritten_grown, hzero]
    simp [payloadBytes]
  · rw [InboundMessage.bytesWritten_grown, InboundMessage.capacity_grown]
    exact hpart.fits

theorem Part.next (hpart : Part message packet h) (hgathered : Gathered message stream psn packets)
    (hpsn : h.before.receivePsn.expected = psn.wrappingAdd packets.length) :
    Gathered (message.grown packet.payload.length) (stream ++ [h]) psn (packets ++ [packet]) := by
  obtain ⟨first, later, hsuffix, hopened, hparts⟩ := hgathered.parts
  refine ⟨⟨first, later ++ [h], ?_, InboundMessage.opened_grown _ hopened, ?_⟩, ?_, ?_⟩
  · rw [List.filter_append, List.filter_cons_of_pos hpart.executed, List.filter_nil]
    obtain ⟨early, hearly⟩ := hsuffix
    exact ⟨early, by rw [← hearly, ← List.cons_append, List.append_assoc]⟩
  · rw [InboundMessage.operation_grown, InboundMessage.address_grown, ← List.cons_append]
    refine hparts.snoc hpart.event hpart.operation (hpart.expected.symm.trans hpsn)
      hpart.expected ?_
    rw [hpart.copies, hgathered.written]
  · rw [InboundMessage.bytesWritten_grown, hgathered.written, payloadBytes_snoc]
  · rw [InboundMessage.bytesWritten_grown, InboundMessage.capacity_grown]
    exact hpart.fits

end Gathering

/-! ## One step -/

section Steps

variable {qp qp' : QpTransport MRS SQ RQ CQ} {memory : MemoryRegistry MRS} {event : QpEvent}
  {packet : PacketRef} {copies : List (ℕ × List UInt8)} {reply : Option ControlReply}
  {h : Happening MRS SQ RQ CQ} {work : RecvWorkRequest} {loaded : QpTransport MRS SQ RQ CQ}

def ReportsNothing (completion : Completion) : Prop :=
  isReceive completion = true → completion.status ≠ .success

theorem Adds.successes (hadds : Adds ReportsNothing qp qp') : qp'.successes = qp.successes := by
  obtain ⟨new, heq, hnew⟩ := hadds
  have hnone : new.filter (fun completion ↦ isReceive completion &&
      completion.status = .success) = [] := by
    refine List.filter_eq_nil_iff.mpr fun completion hmem hsuccess ↦ ?_
    rw [Bool.and_eq_true, decide_eq_true_eq] at hsuccess
    exact hnew completion hmem hsuccess.1 hsuccess.2
  rw [QpTransport.successes, heq, List.filter_append, hnone, List.append_nil]
  rfl

theorem reportsNothing_of_flushed (completion : Completion)
    (hstatus : completion.status = .flushed) : ReportsNothing completion := by
  intro _ hsuccess
  cases hstatus.symm.trans hsuccess

theorem reportsNothing_of_send (status : CompletionStatus) (completion : Completion)
    (hsend : isReceive completion = false) (_ : completion.status = status) :
    ReportsNothing completion := by
  intro hreceive
  cases hsend.symm.trans hreceive

theorem reportsNothing_of_ne {status : CompletionStatus} {byteLen : ℕ}
    (hstatus : status ≠ .success) :
    ReportsNothing (QpContext.receiveCompletion work status byteLen) := by
  intro _
  rw [status_receiveCompletion]
  exact hstatus

theorem RetryEffect.adds (heffect : RetryEffect qp qp') : Adds ReportsNothing qp qp' := by
  cases heffect with
  | idle | retried => exact .same rfl
  | exhausted =>
    exact (Adds.activeFinished (reportsNothing_of_send _) 0).trans
      (.failed reportsNothing_of_flushed)

theorem ResponseEffect.adds {now ticksPerSecond : ℕ}
    (heffect : ResponseEffect qp memory packet now ticksPerSecond copies qp') :
    Adds ReportsNothing qp qp' := by
  have hmoved : ∀ window, Adds ReportsNothing qp (qp.setWindow window) := fun _ ↦ .same rfl
  cases heffect with
  | ignored | delayed | acked | read => exact .same rfl
  | failed =>
    exact (Adds.activeFinished (reportsNothing_of_send _) 0).trans
      (.failed reportsNothing_of_flushed)
  | retry haeth hclass hretry => exact hretry.adds
  | ackCompleted | readCompleted =>
    exact (hmoved _).trans (.activeFinished (reportsNothing_of_send _) _)

theorem adds_moved (qp : QpTransport MRS SQ RQ CQ) (destination : QpState) :
    Adds ReportsNothing qp (qp.moved destination) := by
  have hmoved : Adds ReportsNothing qp (qp.setMachine { qp.machine with state := destination }) :=
    .same rfl
  have hflushed := hmoved.trans (.flushed reportsNothing_of_flushed)
  cases destination with
  | error => exact hflushed
  | reset => exact hflushed.trans (.same rfl)
  | init | rtr | rts | sqd | sqe => exact hmoved

/-- An accepted packet opens its message or finds it. -/
inductive Loads (message : InboundMessage) (packet : PacketRef) (h : Happening MRS SQ RQ CQ) : Prop
  /-- A first packet opens the message. -/
  | start (hpos : packet.bth.opcode.position = .first ∨ packet.bth.opcode.position = .only)
      (hopened : message.Opened h) (hzero : message.bytesWritten = 0)
  /-- A later packet finds the message. -/
  | resume (hpos : packet.bth.opcode.position = .middle ∨ packet.bth.opcode.position = .last)
      (hsome : h.before.inboundMessage = some message)

/-- **What one step does to the inbound message.** -/
inductive InboundStep (h : Happening MRS SQ RQ CQ) : Prop
  /-- The step is no part of a message.  It drops the message being reassembled or leaves it
  alone. -/
  | other (hfinishes : ∀ operation, operation ≠ .readRequest → h.finishes operation = false)
      (hinbound : h.after.inboundMessage = none ∨ h.executed = false ∧
        h.after.inboundMessage = h.before.inboundMessage ∧
        h.after.receivePsn = h.before.receivePsn)
      (hsuccesses : h.after.successes = h.before.successes)
  /-- A packet of a message is accepted. -/
  | part {message packet} (hpart : Part message packet h) (hload : Loads message packet h)

theorem finishes_eq_false (hexecuted : h.executed = false) (operation : Operation) :
    h.finishes operation = false := by
  unfold Happening.finishes
  split
  · rw [hexecuted]
    rfl
  · rfl

theorem InboundStep.skipped (hexecuted : h.executed = false)
    (hframe : h.after.inboundMessage = none ∨
      h.after.inboundMessage = h.before.inboundMessage ∧ h.after.receivePsn = h.before.receivePsn)
    (hadds : Adds ReportsNothing h.before h.after) : InboundStep h :=
  .other (fun operation _ ↦ finishes_eq_false hexecuted operation)
    (hframe.imp_right fun hsame ↦ ⟨hexecuted, hsame⟩) hadds.successes

theorem executed_of_classify (hpsn : qp.receivePsn.classify packet.bth.psn ≠ .expected) :
    Happening.executed (⟨qp, .request packet, copies, qp'⟩ : Happening MRS SQ RQ CQ) = false := by
  simp [Happening.executed, hpsn]

theorem executed_of_stopped (hready : qp.machine.canReceive = true) (hstopped : Stopped qp') :
    Happening.executed (⟨qp, .request packet, copies, qp'⟩ : Happening MRS SQ RQ CQ) = false := by
  have hne : qp'.sequence ≠ qp.sequence.accepted (PacketRef.span packet qp.mtu)
      packet.bth.opcode.position.isFinal := by
    intro heq
    have hmachine : qp'.machine = qp.machine := congrArg Sequence.machine heq
    have hstate := hstopped.state
    rw [hmachine] at hstate
    simp [QpStateMachine.canReceive, hstate] at hready
  simp [Happening.executed, hne]

theorem wrappingAdd_one_ne (psn : Psn) : psn.wrappingAdd 1 ≠ psn := by
  intro heq
  have hvalue := congrArg Psn.value heq
  have hlt := psn.isLt
  simp only [Psn.wrappingAdd, Psn.newTruncated_value] at hvalue
  omega

theorem executed_of_eq (hop : packet.bth.opcode.operation = .send ∨
      packet.bth.opcode = .rdmaReadRequest) :
    Happening.executed (⟨qp, .request packet, copies, qp⟩ : Happening MRS SQ RQ CQ) = false := by
  have hne : qp.sequence ≠ qp.sequence.accepted (PacketRef.span packet qp.mtu)
      packet.bth.opcode.position.isFinal := by
    intro heq
    rcases hop with hsend | hread
    · have hpsn := congrArg (fun sequence ↦ sequence.receivePsn.expected) heq
      simp only [Sequence.accepted, PacketRef.span, hsend] at hpsn
      exact wrappingAdd_one_ne _ hpsn.symm
    · have hnumber := congrArg Sequence.messageSequenceNumber heq
      rw [hread] at hnumber
      exact wrappingAdd_one_ne _ hnumber.symm
  simp [Happening.executed, hne]

theorem executed_of_sequence (hpsn : qp.receivePsn.classify packet.bth.psn = .expected)
    (hsequence : qp'.sequence = qp.sequence.accepted (PacketRef.span packet qp.mtu)
      packet.bth.opcode.position.isFinal) :
    Happening.executed (⟨qp, .request packet, copies, qp'⟩ : Happening MRS SQ RQ CQ) = true := by
  simp [Happening.executed, hpsn, hsequence]

theorem accepted_one (hpsn : qp.receivePsn.classify packet.bth.psn = .expected)
    (hop : packet.bth.opcode.operation = .send ∨ packet.bth.opcode.operation = .write)
    (hsequence : qp'.sequence = qp.sequence.accepted 1 packet.bth.opcode.position.isFinal) :
    Happening.executed (⟨qp, .request packet, copies, qp'⟩ : Happening MRS SQ RQ CQ) = true ∧
      qp.receivePsn.expected = packet.bth.psn ∧
      qp'.receivePsn.expected = packet.bth.psn.wrappingAdd 1 := by
  have hspan : PacketRef.span packet qp.mtu = 1 := by
    rcases hop with hop | hop <;> rw [PacketRef.span, hop]
  have hexpected := ReceivePsn.classify_eq_expected.mp hpsn
  have hafter := congrArg (fun sequence ↦ sequence.receivePsn.expected) hsequence
  rw [hexpected]
  rw [← hspan] at hsequence
  exact ⟨executed_of_sequence hpsn hsequence, rfl, hafter⟩

theorem part_send {written : ℕ} (hb : Balanced qp)
    (hpsn : qp.receivePsn.classify packet.bth.psn = .expected)
    (hop : packet.bth.opcode.operation = .send)
    (hload : LoadsSend qp packet.bth.opcode.position loaded work written)
    (hfits : written + packet.payload.length ≤ work.sge.length.toNat) :
    Part (.send work written) packet
      (⟨qp, .request packet, [(work.sge.address.toNat + written, packet.payload)],
        loaded.sendWritten packet.bth.psn work (written + packet.payload.length)
          packet.bth.opcode.position.isFinal⟩ : Happening MRS SQ RQ CQ) := by
  have hsequence := sequence_sendWritten (classify_of_sequence hload.sequence hpsn) work
    (written + packet.payload.length) packet.bth.opcode.position.isFinal
  rw [hload.sequence] at hsequence
  obtain ⟨hexecuted, hexpected, hadvanced⟩ := accepted_one hpsn (.inl hop) hsequence
  have hloaded : Settles True qp loaded [] [] [] := hload.settles
  have hgenerated := hloaded.generated
  rw [List.append_nil] at hgenerated
  refine ⟨rfl, hexecuted, hop, hexpected, hadvanced, rfl, hfits, nofun, ?_, ?_⟩
  · unfold QpTransport.sendWritten
    split <;> rfl
  · unfold QpTransport.sendWritten
    split
    · have hsettles : Settles True loaded _ [] [⟨work, .success, _⟩] _ :=
        settles_receiveFinished
          ((loaded.observe packet.bth.psn).setInbound none).nextMessage (hloaded.balanced hb)
          rfl rfl rfl rfl rfl (receivePending_of_send hload.inbound) .success
          (written + packet.payload.length)
      rw [QpTransport.successes, hsettles.generated, hgenerated, List.filter_append]
      rfl
    · rw [QpTransport.successes, List.append_nil]
      exact congrArg _ hgenerated

theorem part_write {address : UInt64} {rkey length : UInt32} {written : ℕ}
    (hpsn : qp.receivePsn.classify packet.bth.psn = .expected)
    (hop : packet.bth.opcode.operation = .write)
    (hload : LoadsWrite qp memory packet.reth packet.bth.opcode.position loaded address rkey length
      written) (hfits : written + packet.payload.length ≤ length.toNat)
    (hfinal : packet.bth.opcode.position.isFinal = true ↔
      written + packet.payload.length = length.toNat) :
    Part (.write address rkey length written) packet
      (⟨qp, .request packet, [(address.toNat + written, packet.payload)],
        loaded.writeWritten packet.bth.psn address rkey length (written + packet.payload.length)
          packet.bth.opcode.position.isFinal⟩ : Happening MRS SQ RQ CQ) := by
  have hsequence := sequence_writeWritten (classify_of_sequence hload.sequence hpsn) address rkey
    length (written + packet.payload.length) packet.bth.opcode.position.isFinal
  rw [hload.sequence] at hsequence
  obtain ⟨hexecuted, hexpected, hadvanced⟩ := accepted_one hpsn (.inr hop) hsequence
  have hloaded : Settles True qp loaded [] [] [] := hload.settles
  have hwritten : Settles True loaded _ [] [] [] := settles_writeWritten hload.inbound
    packet.bth.psn (written + packet.payload.length) packet.bth.opcode.position.isFinal
  have hgenerated := (hloaded.trans hwritten).generated
  refine ⟨rfl, hexecuted, hop, hexpected, hadvanced, rfl, hfits, fun _ ↦ hfinal, ?_, ?_⟩
  · unfold QpTransport.writeWritten
    split <;> rfl
  · rw [QpTransport.successes, hgenerated, List.filter_append]
    split <;> rfl

theorem RequestEffect.inboundStep (hready : qp.machine.canReceive = true) (hb : Balanced qp)
    (heffect : RequestEffect qp memory packet copies qp' reply) :
    InboundStep (⟨qp, .request packet, copies, qp'⟩ : Happening MRS SQ RQ CQ) := by
  cases heffect with
  | future hpsn | duplicate hpsn | replayNotReady hpsn | replay hpsn =>
    exact .skipped (executed_of_classify (by rw [hpsn]; decide)) (.inr ⟨rfl, rfl⟩) (.same rfl)
  | sendNotReady hpsn hop =>
    exact .skipped (executed_of_eq (.inl hop)) (.inr ⟨rfl, rfl⟩) (.same rfl)
  | readNotReady hpsn hop =>
    exact .skipped (executed_of_eq (.inr hop)) (.inr ⟨rfl, rfl⟩) (.same rfl)
  | replayFatal | fatal =>
    exact .skipped (executed_of_stopped hready (stopped_failed _)) (.inl rfl)
      (.failed reportsNothing_of_flushed)
  | @sendRejected posted queue status syndrome hpsn hop hkey hvalid hnone hpop hstatus =>
    have hpopped : Adds ReportsNothing qp
        ((qp.setReceives queue).setInboundMemory posted.lease) := .same rfl
    exact .skipped (executed_of_stopped hready ((stopped_failed _).receiveFinished _ _ _))
      (.inl rfl) ((hpopped.trans (.failed reportsNothing_of_flushed)).trans
        (.receiveFinished (reportsNothing_of_ne hstatus)))
  | receiveFailed status hpsn hsome hstatus =>
    have hdropped : Adds ReportsNothing qp (qp.setInbound none) := .same rfl
    exact .skipped (executed_of_stopped hready (stopped_failed _)) (.inl rfl)
      ((hdropped.trans (.receiveFinished (reportsNothing_of_ne hstatus))).trans
        (.failed reportsNothing_of_flushed))
  | send hpsn hop hload hvalid hfits =>
    have hpart := part_send hb hpsn hop hload hfits
    cases hload with
    | start hpos hnone hpop =>
      refine .part hpart (.start hpos ?_ rfl)
      change Option.map _ qp.receiveQueue.items.head? = _
      rw [Ring.pop_eq_some.mp hpop]
      rfl
    | resume hpos hsome => exact .part hpart (.resume hpos hsome)
  | write hpsn hop hload hvalid hfits hfinal =>
    have hpart := part_write hpsn hop hload hfits hfinal
    cases hload with
    | start hpos hnone hreth => exact .part hpart (.start hpos ⟨packet, rfl, hreth⟩ rfl)
    | resume hpos hsome => exact .part hpart (.resume hpos hsome)
  | read lease hpsn hop hreth hinbound =>
    refine .other (fun operation hne ↦ ?_) (.inl hinbound) rfl
    have hother : packet.bth.opcode.operation ≠ operation := by
      rw [hop]
      exact hne.symm
    simp [Happening.finishes, hother]

/-- **What one step does to the inbound message.** -/
theorem QpStep.inboundStep (hstep : QpStep memory qp event copies qp' reply) (hb : Balanced qp) :
    InboundStep ⟨qp, event, copies, qp'⟩ := by
  have hframed : Stopped qp' ∨ SameResponder qp qp' → qp'.inboundMessage = none ∨
      qp'.inboundMessage = qp.inboundMessage ∧ qp'.receivePsn = qp.receivePsn := by
    rintro (hstopped | hsame)
    · exact .inl hstopped.inbound
    · exact .inr ⟨hsame.inbound, hsame.receivePsn⟩
  cases hstep with
  | start heffect => cases heffect <;> exact .skipped rfl (.inr ⟨rfl, rfl⟩) (.same rfl)
  | sent =>
    unfold markRequestPacketSent
    split <;> exact .skipped rfl (.inr ⟨rfl, rfl⟩) (.same rfl)
  | readSent =>
    unfold QpTransport.readAdvanced
    split
    · exact .skipped rfl (.inr ⟨rfl, rfl⟩) (.same rfl)
    · split <;> exact .skipped rfl (.inr ⟨rfl, rfl⟩) (.same rfl)
  | request hready heffect => exact heffect.inboundStep hready hb
  | response hready heffect => exact .skipped rfl (hframed heffect.frame) heffect.adds
  | timeout hretry => exact .skipped rfl (hframed hretry.frame) hretry.adds
  | rnrExpired | postWork | postReceive => exact .skipped rfl (.inr ⟨rfl, rfl⟩) (.same rfl)
  | @transition destination =>
    refine .skipped rfl ?_ (adds_moved qp destination)
    cases destination with
    | error | reset => exact .inl rfl
    | init | rtr | rts | sqd | sqe => exact .inr ⟨rfl, rfl⟩
  | reconfigure => exact .skipped rfl (.inl rfl) (.same rfl)
  | poll hpoll =>
    obtain ⟨queue, hitems, rfl⟩ := pollQp_eq_some hpoll
    refine .skipped rfl (.inr ⟨rfl, rfl⟩) (.same ?_)
    rw [QpTransport.generated, QpTransport.generated, hitems, List.append_assoc,
      List.singleton_append]

end Steps

end Rocev2.Rc
