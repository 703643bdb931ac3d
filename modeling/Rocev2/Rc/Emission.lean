import Rocev2.Rc.Loops
import Rocev2.Rc.Readiness
import Rocev2.Rc.Refinement

/-!
# Emitting one data packet

What happens between taking a slot from a ready queue and settling it.  The head of a ready queue
is runnable, so by `Rocev2.Rc.Readiness` its next packet exists, can be read and passes the
encoder: the loops of the source, which look for a slot that can send, stop at the first one.  Three
things can go wrong after that, and `Excuse` lists them: the backend refuses the packet, the ACK
timeout of the queue pair is not representable, or the buffer of the caller is too small.

`Emission` is the outcome of one attempt to emit a packet of a class, and `DataEmission` that of
one attempt in which the other class may take the place of the first.
-/

namespace Rocev2.Rc

open Rocev2.Core Rocev2.Wire Rocev2.Memory Rocev2.Lib

variable {QPS MRS SQ RQ CQ IDX : ℕ}

/-- The events that a progress call at time `now` makes by itself. -/
def EngineEvent.isInternal (now : ℕ) : EngineEvent QPS → Prop
  | .qp _ event =>
    match event with
    | .start _ | .readSent => True
    | .sent time _ | .timeout time | .rnrExpired time => time = now
    | .request _ | .response _ _ _ | .transition _ | .reconfigure _ | .postWork _
    | .postReceive _ | .poll => False
  | .offer _ | .accept _ _ => True
  | .create _ _ | .remove _ | .register _ _ _ | .deregister _ | .write _ _ _ _ => False

def Internal (allowed : EngineEvent QPS → Prop) (now : ℕ) : Prop :=
  ∀ event, event.isInternal now → allowed event

def Punctual (allowed : EngineEvent QPS → Prop) (start : Engine QPS MRS SQ RQ CQ) : Prop :=
  ∀ e, Engine.Run allowed start e → ∀ index qp, e.qps index = some qp →
    (ackTimeoutTicks qp.machine.config.timeout e.config.ticksPerSecond).isSome = true

theorem StartEffect.same {qp qp' : QpTransport MRS SQ RQ CQ} {ticksPerSecond : ℕ}
    (h : StartEffect qp ticksPerSecond qp') :
    qp'.readResponse = qp.readResponse ∧ qp'.responderIsRunnable = qp.responderIsRunnable ∧
      qp'.timerDeadline = qp.timerDeadline := by
  cases h with
  | waits => exact ⟨rfl, rfl, rfl⟩
  | starts hactive =>
    refine ⟨rfl, rfl, ?_⟩
    unfold QpTransport.timerDeadline
    rw [hactive]
    rfl

/-! ## Taking a slot -/

variable {allowed : EngineEvent QPS → Prop} {start : Engine QPS MRS SQ RQ CQ}
  {books : Books QPS MRS SQ RQ CQ} {turns : List (Activity QPS MRS SQ RQ CQ)} {next : DataTxClass}
  {dirty : Set (Component × Fin QPS)} {ep : RcEndpoint QPS MRS SQ RQ CQ IDX} {index : Fin QPS}
  {slot : RcQpSlot MRS SQ RQ CQ} {queue : ReadyQueue QPS} {now : ℕ} {io : PollIo}
  {sender : Option (DataTxClass × Fin QPS)} {packet : WirePacket}
  {event : Activity QPS MRS SQ RQ CQ}

namespace RcEndpoint

theorem dequeueReadResponse_eq {response : ReadResponseState}
    (hpop : ep.responderReady.pop = some (index, queue)) (hslot : ep.qps index = some slot)
    (hrunnable : slot.responderIsRunnable = true) (hresponse : slot.readResponse = some response)
    (fuel : ℕ) : dequeueReadResponse (fuel + 1) ep =
      (ep.responderTaken index queue slot, some (slot.readyResponse index response)) := by
  have hslot' : (RcEndpoint.log { ep with responderReady := queue }
      (.taken .responder index queue.slots (ep.runnable .requester))).qps index = some slot := hslot
  unfold dequeueReadResponse
  rw [hpop]
  dsimp only
  rw [hslot']
  dsimp only
  rw [hresponse]
  simp only [hrunnable]
  rfl

theorem advanceReadResponse_eq (hslot : ep.qps index = some slot) :
    ep.advanceReadResponse index =
      (((ep.log (.accepted .responder index slot.toQpTransport)).restore index slot
        (advanceReadContext ((ep.log (.accepted .responder index slot.toQpTransport)).context
          slot))).synchronizeQp index, .ok ()) := by
  unfold advanceReadResponse
  rw [hslot]

theorem dequeueReadResponse_of_empty (hempty : ep.responderReady.slots = []) (fuel : ℕ) :
    dequeueReadResponse fuel ep = (ep, none) := by
  cases fuel with
  | zero => rfl
  | succ fuel =>
    unfold dequeueReadResponse
    rw [ReadyQueue.pop_eq_none.mpr hempty]

theorem emitRequesterLoop_eq {active : ActiveRequest} {packet : WirePacket}
    (hpop : ep.requesterReady.pop = some (index, queue)) (hslot : ep.qps index = some slot)
    (hactive : (slot.requesting ep.config.ticksPerSecond).activeRequest = some active)
    (hphase : active.phase = .sending) (hbuild : buildRequestPacket ep.memory active
      (slot.requesting ep.config.ticksPerSecond).machine.config.pathMtu.bytes
      (slot.requesting ep.config.ticksPerSecond).machine.config.remoteQpn
      (slot.requesting ep.config.ticksPerSecond).path = .ok packet) (now : ℕ) (io : PollIo)
    (fuel : ℕ) (generated : ℕ) :
    emitRequesterLoop now io (fuel + 1) ep generated =
      match ackTimeoutTicks (slot.requesting ep.config.ticksPerSecond).machine.config.timeout
        ep.config.ticksPerSecond with
      | none => ((ep.requesterTaken index queue slot).log (.returned .requester index),
          .error (.api .invalidTicksPerSecond))
      | some timeoutTicks =>
        match (ep.requesterTaken index queue slot).transmitPacket io packet with
        | (ep, .error e) =>
          (((ep.log (.returned .requester index)).synchronizeQp index).countCompletions generated,
            .error e)
        | (ep', .ok ()) =>
          ((((ep'.log (.accepted .requester index
            (slot.requesting ep.config.ticksPerSecond).toQpTransport)).setSlot index
              { slot.requesting ep.config.ticksPerSecond with
                toQpTransport := markRequestPacketSent
                  (slot.requesting ep.config.ticksPerSecond).toQpTransport now
                  timeoutTicks }).synchronizeQp index).countCompletions generated,
            .ok { transmitted := true, completions := generated }) := by
  rw [emitRequesterLoop_succ now io fuel (ep, generated), emitRequesterBody,
    requesterBody_eq hpop hslot hactive hphase]
  cases ackTimeoutTicks (slot.requesting ep.config.ticksPerSecond).machine.config.timeout
    ep.config.ticksPerSecond with
  | none => rfl
  | some timeoutTicks =>
    dsimp only
    rw [show buildRequestPacket (ep.requesterTaken index queue slot).memory active _ _ _ =
      .ok packet from hbuild]
    dsimp only
    rcases RcEndpoint.transmitPacket _ io packet with ⟨ep', _ | _⟩
    · rfl
    · rfl

end RcEndpoint

namespace Holds

theorem config_eq (h : Holds allowed start books dirty ep) : ep.config = start.config :=
  h.run.invariant (I := fun e ↦ e.config = start.config)
    (fun _ hstep heq ↦ by cases hstep <;> exact heq) rfl

theorem timed (h : Holds allowed start books dirty ep) (hpunctual : Punctual allowed start)
    (i : Fin QPS) : ep.Timed i :=
  fun _ hslot ↦ hpunctual _ h.run i _ (engine_qps hslot)

theorem late (h : Holds allowed start books dirty ep) (hslot : ep.qps index = some slot)
    (hticks : ackTimeoutTicks slot.machine.config.timeout ep.config.ticksPerSecond = none) :
    ¬Punctual allowed start := by
  intro hpunctual
  have hsome := h.timed hpunctual index slot hslot
  rw [hticks] at hsome
  cases hsome

theorem starts (hint : Internal allowed now)
    (h : Holds allowed start books (insert (.ready .requester, index) dirty) ep)
    (hslot : ep.qps index = some slot) (ticksPerSecond : ℕ) :
    Holds allowed start books (insert (.ready .requester, index) dirty)
      (ep.setSlot index (slot.requesting ticksPerSecond)) := by
  have heffect := startNextRequest_effect (h.qpInv hslot).config ticksPerSecond
  have hcounted : Counted ep.memory.refs
      (slot.toQpTransport.leases + heldByOthers ep.engine.qps index) := h.counted hslot
  rw [← heffect.leases (h.qpInv hslot).tidy] at hcounted
  have hstep : QpStep ep.memory slot.toQpTransport (.start ticksPerSecond) []
      (slot.requesting ticksPerSecond).toQpTransport none := .start heffect
  have htimeout := congrArg (fun config ↦ config.transport.timeout)
    (hstep.config fun _ h ↦ nomatch h)
  rw [← books.owe_none]
  refine h.act hslot (hint (.qp index (.start ticksPerSecond)) trivial) (fun _ h ↦ nomatch h) hstep
    (Copied.refl _) hcounted rfl rfl (fun c hclean ↦ ⟨hclean, fun hold ↦ ?_⟩)
    (fun _ _ _ hclean ↦ hclean)
  cases c with
  | ready kind =>
    cases kind with
    | requester => exact absurd (Set.mem_insert _ _) hclean
    | responder =>
      exact RcEndpoint.Agrees.of_slot hold hslot qps_replace_self rfl htimeout heffect.same.2.1
        rfl rfl
  | timer =>
    refine RcEndpoint.coherentAt_timer_of_slot hold hslot qps_replace_self ?_ rfl
    simp only [RcEndpoint.timerEntry, RcQpSlot.requesting, heffect.same.2.2]

theorem unschedule (h : Holds allowed start books (insert (.ready .responder, index) dirty) ep)
    (hslot : ep.qps index = some slot) :
    Holds allowed start books (insert (.ready .responder, index) dirty)
      (ep.setSlot index slot.responding) := by
  have hself : (ep.setSlot index slot.responding).qps index = some slot.responding :=
    Function.update_self ..
  refine h.reslot hslot rfl rfl fun c hclean hold ↦ ?_
  cases c with
  | ready kind =>
    cases kind with
    | requester => exact RcEndpoint.Agrees.of_slot hold hslot hself rfl rfl rfl rfl rfl
    | responder => exact absurd (Set.mem_insert _ _) hclean
  | timer => exact RcEndpoint.coherentAt_timer_of_slot hold hslot hself rfl rfl

/-- **The head of the requester's queue has a request to send.** -/
theorem takeRequester (hint : Internal allowed now) (h : Holds allowed start books dirty ep)
    (hpop : ep.requesterReady.pop = some (index, queue))
    (hclean : (.ready .requester, index) ∉ dirty) (hnew : index ∉ books.flight .requester) :
    ∃ slot active, ep.qps index = some slot ∧
      (slot.requesting ep.config.ticksPerSecond).activeRequest = some active ∧
      active.phase = .sending ∧
      Holds allowed start (books.fly .requester (books.flight .requester ++ [index])
        (.taken .requester index queue.slots (ep.runnable .responder)))
        (insert (.ready .requester, index) dirty) (ep.requesterTaken index queue slot) := by
  have hmem : index ∈ (ep.ready .requester).slots := by
    change index ∈ ep.requesterReady.slots
    rw [ReadyQueue.pop_eq_some.mp hpop]
    exact List.mem_cons_self
  obtain ⟨slot, hslot, hrunnable⟩ := (h.coherent _ _ hclean).runnable hmem
  obtain ⟨active, hactive, hphase⟩ := exists_sending_of_runnable (h.qpInv hslot).config
    (h.granted hslot).toRequesterGranted (h.spans hslot) hrunnable ep.config.ticksPerSecond
  exact ⟨slot, active, hslot, hactive, hphase,
    (h.take .requester (ep.runnable .responder) hpop hnew).starts hint hslot _⟩

/-- **The head of the responder's queue has a READ to answer.** -/
theorem takeResponder (h : Holds allowed start books dirty ep)
    (hpop : ep.responderReady.pop = some (index, queue))
    (hclean : (.ready .responder, index) ∉ dirty) (hnew : index ∉ books.flight .responder) :
    ∃ slot response, ep.qps index = some slot ∧ slot.responderIsRunnable = true ∧
      slot.readResponse = some response ∧
      Holds allowed start (books.fly .responder (books.flight .responder ++ [index])
        (.taken .responder index queue.slots (ep.runnable .requester)))
        (insert (.ready .responder, index) dirty) (ep.responderTaken index queue slot) := by
  have hmem : index ∈ (ep.ready .responder).slots := by
    change index ∈ ep.responderReady.slots
    rw [ReadyQueue.pop_eq_some.mp hpop]
    exact List.mem_cons_self
  obtain ⟨slot, hslot, hrunnable⟩ := (h.coherent _ _ hclean).runnable hmem
  change slot.responderIsRunnable = true at hrunnable
  obtain ⟨response, hresponse⟩ :=
    Option.isSome_iff_exists.mp (Bool.and_eq_true_iff.mp hrunnable).2
  exact ⟨slot, response, hslot, hrunnable, hresponse,
    (h.take .responder (ep.runnable .requester) hpop hnew).unschedule hslot⟩

end Holds

/-! ## Transmission -/

/-- Why a packet was not sent. -/
inductive Excuse (allowed : EngineEvent QPS → Prop) (start : Engine QPS MRS SQ RQ CQ)
    (io : PollIo) : PollError → Prop
  | /-- The backend refuses it. -/
    refused (h : io.transmitOk = false) : Excuse allowed start io .io
  | /-- An ACK timeout is not representable. -/
    late (h : ¬Punctual allowed start) : Excuse allowed start io (.api .invalidTicksPerSecond)
  | /-- The buffer of the caller is too small. -/
    short {error} (h : io.transmitBuffer < start.config.maximumPacketSize)
      (herror : error ≠ .invalidTicksPerSecond) : Excuse allowed start io (.api error)

namespace Holds

/-- **The encoder accepts every packet that the engine may emit.** -/
theorem encodes (h : Holds allowed start books dirty ep) (hemits : Emits ep.engine sender packet)
    {output : ℕ} (houtput : ep.config.maximumPacketSize ≤ output) :
    encodeIpv4Packet packet output = .ok packet.encodedLength ∧
      packet.encodedLength ≤ ep.config.maximumPacketSize := by
  rcases hemits.encodable h.inv with ⟨i, qp, hqp, hencodable⟩ | ⟨arrival, hmem, hencodable⟩
  · obtain ⟨current, hslot, rfl⟩ := engine_qps_eq_some hqp
    have hsized := h.tabled.sized i current hslot
    exact ⟨hencodable.encode (hsized.trans houtput), hencodable.length.trans hsized⟩
  · have hsized := h.tabled.met arrival hmem
    exact ⟨(hencodable _).encode (hsized.trans houtput), (hencodable _).length.trans hsized⟩

/-- **Transmitting a packet that the engine may emit.**  The log and the counters change only. -/
theorem transmitPacket (hint : Internal allowed now) (h : Holds allowed start books dirty ep)
    (hemits : Emits ep.engine sender packet) (io : PollIo) :
    ∃ stats offered,
      Holds allowed start books dirty { ep with stats := stats, offered := offered } ∧
      ((io.transmitOk = true ∧
          ep.transmitPacket io packet = ({ ep with stats := stats, offered := offered }, .ok ())) ∨
        ∃ e, Excuse allowed start io e ∧ ep.transmitPacket io packet =
          ({ ep with stats := stats, offered := offered }, .error e)) := by
  have hoffer := h.offer (hint (.offer packet) trivial) hemits
  by_cases hroom : ep.config.maximumPacketSize ≤ io.transmitBuffer
  · obtain ⟨hencode, hfits⟩ := h.encodes hemits hroom
    unfold RcEndpoint.transmitPacket
    rw [hencode]
    dsimp only
    rw [if_neg (Nat.not_lt.mpr hfits)]
    cases hok : io.transmitOk with
    | true => exact ⟨_, _, hoffer.withStats _, .inl ⟨rfl, rfl⟩⟩
    | false => exact ⟨_, _, hoffer.withStats _, .inr ⟨_, .refused hok, rfl⟩⟩
  · have hshort : io.transmitBuffer < start.config.maximumPacketSize := by
      rw [← h.config_eq]
      exact Nat.lt_of_not_le hroom
    unfold RcEndpoint.transmitPacket
    split
    · rename_i hencode
      exact ⟨ep.stats, ep.offered, h,
        .inr ⟨_, .short hshort (encodeIpv4Packet_ne_ticks hencode), rfl⟩⟩
    split
    · exact ⟨ep.stats, ep.offered, h, .inr ⟨_, .short hshort (by nofun), rfl⟩⟩
    dsimp only
    cases hok : io.transmitOk with
    | true => exact ⟨_, _, hoffer.withStats _, .inl ⟨rfl, rfl⟩⟩
    | false => exact ⟨_, _, hoffer.withStats _, .inr ⟨_, .refused hok, rfl⟩⟩

/-! ## Settling a slot -/

/-- **A packet of the active request was transmitted.** -/
theorem sent (hint : Internal allowed now) (h : Holds allowed start books dirty ep)
    (hslot : ep.qps index = some slot)
    (hphase : ∀ active, slot.activeRequest = some active → active.phase = .sending)
    (timeoutTicks : ℕ) :
    Holds allowed start books (dirty \ AllOf index) ((ep.setSlot index { slot with
      toQpTransport := markRequestPacketSent slot.toQpTransport now timeoutTicks }).synchronizeQp
        index) := by
  have hkeeps : QpContext.Keeps ep.memory [] (heldByOthers ep.engine.qps index)
      ⟨markRequestPacketSent slot.toQpTransport now timeoutTicks, ep.memory, ep.stats⟩ := by
    refine ⟨Copied.refl _, ?_⟩
    rw [leases_markRequestPacketSent]
    exact h.counted hslot
  exact h.handled hslot (hint (.qp index (.sent now timeoutTicks)) rfl)
    (fun _ h ↦ nomatch h) (.sent now timeoutTicks hphase) hkeeps rfl

/-- **A packet of a READ response was transmitted.** -/
theorem advanced (hint : Internal allowed now) (h : Holds allowed start books dirty ep)
    (hslot : ep.qps index = some slot) :
    Holds allowed start books (dirty \ AllOf index) ((ep.restore index slot
      (advanceReadContext (ep.context slot))).synchronizeQp index) := by
  obtain ⟨hqp, hkeeps⟩ := advanceReadContext_spec (h.counted hslot)
  have hstep : QpStep ep.memory slot.toQpTransport .readSent []
      (advanceReadContext (ep.context slot)).qp none := by
    rw [hqp]
    exact .readSent
  exact h.handled hslot (hint (.qp index .readSent) trivial) (fun _ h ↦ nomatch h) hstep hkeeps rfl

theorem dropped (h : Holds allowed start books (insert (.ready .requester, index) dirty) ep)
    (hslot : ep.qps index = some slot) (hscheduled : slot.requesterScheduled = false)
    (hqueue : index ∉ ep.requesterReady.slots)
    (hticks : ackTimeoutTicks slot.machine.config.timeout ep.config.ticksPerSecond = none) :
    Holds allowed start books dirty ep := by
  refine ⟨h.run, h.inv, fun c i hclean ↦ ?_, h.tabled, h.logged⟩
  by_cases hself : (c, i) = (.ready .requester, index)
  · cases hself
    refine ⟨fun hmem ↦ absurd hmem hqueue, fun htimed ↦ ?_, fun current hcurrent ↦ ?_⟩
    · have hsome := htimed rfl slot hslot
      rw [hticks] at hsome
      cases hsome
    · cases hslot.symm.trans hcurrent
      change slot.requesterScheduled = true ↔ _
      rw [hscheduled]
      exact ⟨nofun, fun hmem ↦ absurd hmem hqueue⟩
  · exact h.coherent c i fun hmem ↦ hclean (hmem.resolve_left hself)

end Holds

/-! ## One class -/

/-- **The outcome of one attempt to emit a packet of a class.** -/
inductive Emission (allowed : EngineEvent QPS → Prop) (start : Engine QPS MRS SQ RQ CQ)
    (turns : List (Activity QPS MRS SQ RQ CQ)) (next kind : DataTxClass) (io : PollIo)
    (ep : RcEndpoint QPS MRS SQ RQ CQ IDX) :
    RcEndpoint QPS MRS SQ RQ CQ IDX → Except PollError EmitResult → Prop
  | /-- No slot waits. -/
    idle (stats : RcEndpointStats) (hempty : (ep.ready kind).slots = []) :
      Emission allowed start turns next kind io ep { ep with stats := stats } (.ok {})
  | /-- The oldest slot sends its packet. -/
    sent {ep' index waiting qp} (hhead : (ep.ready kind).slots = index :: waiting)
      (hok : io.transmitOk = true)
      (hholds : Holds allowed start (.settled (turns ++ [.taken kind index waiting
        (ep.runnable kind.other), .accepted kind index qp]) next) ∅ ep') :
      Emission allowed start turns next kind io ep ep' (.ok { transmitted := true })
  | /-- The packet of the oldest slot is not sent. -/
    failed {ep' index waiting e} (hhead : (ep.ready kind).slots = index :: waiting)
      (hexcuse : Excuse allowed start io e)
      (hholds : Holds allowed start (.settled (turns ++
        [.taken kind index waiting (ep.runnable kind.other), .returned kind index]) next) ∅ ep') :
      Emission allowed start turns next kind io ep ep' (.error e)

namespace Holds

theorem settle {books : Books QPS MRS SQ RQ CQ} {c : Component}
    (h : Holds allowed start books (insert (c, index) ∅ \ AllOf index) ep) :
    Holds allowed start books ∅ ep :=
  h.mono (insert_diff_allOf ∅ c index)

theorem returned {kind : DataTxClass}
    (h : Holds allowed start ((Books.settled turns next).fly kind [index] event) dirty ep) :
    Holds allowed start (.settled (turns ++ [event, .returned kind index]) next) dirty
      (ep.log (.returned kind index)) := by
  have hgiven := h.giveBack kind index
  rw [Books.flight_fly, List.filter_cons_of_neg (by simp), List.filter_nil,
    Books.fly_fly_settled] at hgiven
  exact hgiven

theorem accepted (hint : Internal allowed now) {kind : DataTxClass} {slot : RcQpSlot MRS SQ RQ CQ}
    (h : Holds allowed start ((Books.settled turns next).fly kind [index] event) dirty ep)
    (hslot : ep.qps index = some slot) (hpacket : slot.HasPacket kind) :
    Holds allowed start
      (.settled (turns ++ [event, .accepted kind index slot.toQpTransport]) next) dirty
      (ep.log (.accepted kind index slot.toQpTransport)) := by
  have haccepted :=
    h.accept hslot (hint (.accept kind index) trivial) hpacket (Books.flight_fly ..)
  rw [Books.fly_fly_settled] at haccepted
  exact haccepted

/-- **Emitting a READ response packet.** -/
theorem emitReadResponse (hint : Internal allowed now)
    (h : Holds allowed start (.settled turns next) ∅ ep) (io : PollIo) :
    Emission allowed start turns next .responder io ep (ep.emitReadResponse io).1
      (ep.emitReadResponse io).2 := by
  unfold RcEndpoint.emitReadResponse
  cases hpop : ep.responderReady.pop with
  | none =>
    have hempty := ReadyQueue.pop_eq_none.mp hpop
    rw [RcEndpoint.dequeueReadResponse_of_empty hempty]
    exact .idle ep.stats hempty
  | some head =>
    obtain ⟨index, queue⟩ := head
    have hhead := ReadyQueue.pop_eq_some.mp hpop
    obtain ⟨slot, response, hslot, hrunnable, hresponse, htaken⟩ :=
      h.takeResponder hpop (Set.notMem_empty _) List.not_mem_nil
    have hlive : (ep.responderTaken index queue slot).qps index = some slot.responding :=
      Function.update_self ..
    obtain ⟨address, length, hsegment, -, -, hread⟩ :=
      exists_readResponseSegment (htaken.granted hlive).toResponderGranted hresponse
    have hemits := Emits.readResponse (engine_qps hlive) (Bool.and_eq_true_iff.mp hrunnable).1
      hresponse hsegment hread
    obtain ⟨stats, offered, hsent, htransmit⟩ := htaken.transmitPacket hint hemits io
    rw [ReadyQueue.len_of_pop hpop,
      RcEndpoint.dequeueReadResponse_eq hpop hslot hrunnable hresponse]
    dsimp only
    rw [show readResponseSegment (slot.readyResponse index response).response
      (slot.readyResponse index response).mtu = .ok (address, length) from hsegment]
    dsimp only
    rw [show (ep.responderTaken index queue slot).memory.readRemote
      (slot.readyResponse index response).response.rkey address length = .ok _ from hread]
    dsimp only
    rcases htransmit with ⟨hok, htransmit⟩ | ⟨e, hexcuse, htransmit⟩
    · rw [show (ep.responderTaken index queue slot).transmitPacket io
        (readResponsePacket (slot.readyResponse index response)
          (copyFromRegistered _ address.toNat length)) = _ from htransmit]
      have hdone := ((hsent.accepted hint hlive ⟨response, hresponse⟩).advanced hint
        hlive).settle
      have hlive' : RcEndpoint.qps { ep.responderTaken index queue slot with
          stats := stats, offered := offered } index = some slot.responding := hlive
      dsimp only
      rw [show (slot.readyResponse index response).qpIndex = index from rfl,
        RcEndpoint.advanceReadResponse_eq hlive']
      exact .sent hhead hok hdone
    · rw [show (ep.responderTaken index queue slot).transmitPacket io
        (readResponsePacket (slot.readyResponse index response)
          (copyFromRegistered _ address.toNat length)) = _ from htransmit]
      exact .failed hhead hexcuse (hsent.returned.sync index).settle

/-- **Emitting a requester packet.** -/
theorem emitRequester (hint : Internal allowed now)
    (h : Holds allowed start (.settled turns next) ∅ ep) (io : PollIo) :
    Emission allowed start turns next .requester io ep (ep.emitRequester now io).1
      (ep.emitRequester now io).2 := by
  unfold RcEndpoint.emitRequester
  cases hpop : ep.requesterReady.pop with
  | none =>
    have hempty := ReadyQueue.pop_eq_none.mp hpop
    rw [show ep.requesterReady.len = 0 by rw [ReadyQueue.len, hempty]; rfl]
    exact .idle _ hempty
  | some head =>
    obtain ⟨index, queue⟩ := head
    have hhead := ReadyQueue.pop_eq_some.mp hpop
    obtain ⟨slot, active, hslot, hactive, hphase, htaken⟩ :=
      h.takeRequester hint hpop (Set.notMem_empty _) List.not_mem_nil
    have hlive : (ep.requesterTaken index queue slot).qps index =
        some (slot.requesting ep.config.ticksPerSecond) := Function.update_self ..
    obtain ⟨packet, hbuild⟩ := exists_buildRequestPacket
      (htaken.granted hlive).toRequesterGranted (htaken.spans hlive) hactive hphase
    have hemits := Emits.request (engine_qps hlive) hactive hphase hbuild
    obtain ⟨stats, offered, hsent, htransmit⟩ := htaken.transmitPacket hint hemits io
    rw [ReadyQueue.len_of_pop hpop,
      RcEndpoint.emitRequesterLoop_eq hpop hslot hactive hphase hbuild]
    cases hticks : ackTimeoutTicks
        (slot.requesting ep.config.ticksPerSecond).machine.config.timeout
        ep.config.ticksPerSecond with
    | none =>
      exact .failed hhead (.late (htaken.late hlive hticks)) (htaken.returned.dropped hlive rfl
        (ReadyQueue.not_mem_of_pop hpop) hticks)
    | some timeoutTicks =>
      dsimp only
      rcases htransmit with ⟨hok, htransmit⟩ | ⟨e, hexcuse, htransmit⟩
      · have hsending : ∀ current,
            (slot.requesting ep.config.ticksPerSecond).activeRequest = some current →
              current.phase = .sending := by
          intro current hcurrent
          cases hactive.symm.trans hcurrent
          exact hphase
        have hdone := ((hsent.accepted hint hlive ⟨active, hactive⟩).sent hint hlive hsending
          timeoutTicks).settle
        rw [htransmit]
        exact .sent hhead hok (hdone.withStats _)
      · rw [htransmit]
        exact .failed hhead hexcuse ((hsent.returned.sync index).settle.withStats _)

/-- **Emitting a packet of a class.** -/
theorem emitDataClass (hint : Internal allowed now)
    (h : Holds allowed start (.settled turns next) ∅ ep) (kind : DataTxClass) (io : PollIo) :
    Emission allowed start turns next kind io ep (ep.emitDataClass kind now io).1
      (ep.emitDataClass kind now io).2 := by
  cases kind with
  | requester => exact h.emitRequester hint io
  | responder => exact h.emitReadResponse hint io

end Holds

/-! ## Both classes -/

/-- **The turns of one attempt to emit a data packet.**  A class takes the place of the other one
only when the other one has no slot that waits. -/
inductive Turns (allowed : EngineEvent QPS → Prop) (start : Engine QPS MRS SQ RQ CQ)
    (turns : List (Activity QPS MRS SQ RQ CQ)) (next : DataTxClass) (io : PollIo) :
    List (Activity QPS MRS SQ RQ CQ) → DataTxClass → Prop
  | /-- No slot waits. -/
    idle : Turns allowed start turns next io turns next
  | /-- A slot sends its packet. -/
    sent {kind index waiting others qp next'} (hok : io.transmitOk = true)
      (hnext : next' = kind.other)
      (hturn : kind = next ∨ (Punctual allowed start → others = [])) :
      Turns allowed start turns next io
        (turns ++ [.taken kind index waiting others, .accepted kind index qp]) next'
  | /-- The packet of a slot is not sent. -/
    failed {kind index waiting others e} (hexcuse : Excuse allowed start io e) :
      Turns allowed start turns next io
        (turns ++ [.taken kind index waiting others, .returned kind index]) next

theorem DataTxClass.other_other (kind : DataTxClass) : kind.other.other = kind := by
  cases kind <;> rfl

theorem RcEndpoint.runnable_eq_nil {ep : RcEndpoint QPS MRS SQ RQ CQ IDX} {kind : DataTxClass}
    (hcoherent : ep.Coherent ∅) (htimed : ∀ i, ep.Timed i)
    (hempty : (ep.ready kind).slots = []) : ep.runnable kind = [] := by
  refine List.filter_eq_nil_iff.mpr fun i _ hrunnable ↦ ?_
  cases hslot : ep.qps i with
  | none =>
    rw [hslot] at hrunnable
    cases hrunnable
  | some slot =>
    rw [hslot] at hrunnable
    have hmem := (hcoherent (.ready kind) i (Set.notMem_empty _)).queued (fun _ ↦ htimed i) slot
      hslot hrunnable
    rw [hempty] at hmem
    cases hmem

namespace Holds

/-- **Emitting a data packet.** -/
theorem emitDataPacket (hint : Internal allowed now)
    (h : Holds allowed start (.settled turns next) ∅ ep) (io : PollIo) :
    (∃ turns' next', Holds allowed start (.settled turns' next') ∅ (ep.emitDataPacket now io).1 ∧
        Turns allowed start turns next io turns' next') ∧
      ∀ e, (ep.emitDataPacket now io).2 = .error e → Excuse allowed start io e := by
  have hnext : ep.nextDataTxClass = next := h.logged.next
  have hfirst := h.emitDataClass hint next io
  unfold RcEndpoint.emitDataPacket
  rw [hnext]
  dsimp only
  rcases hemit : ep.emitDataClass next now io with ⟨ep₁, result⟩
  rw [hemit] at hfirst
  cases hfirst with
  | failed _ hexcuse hholds =>
    refine ⟨⟨_, _, hholds, .failed hexcuse⟩, fun e herror ↦ ?_⟩
    cases herror
    exact hexcuse
  | sent _ hok hholds => exact ⟨⟨_, _, hholds.withClass _, .sent hok rfl (.inl rfl)⟩, nofun⟩
  | idle stats hempty =>
    have hidle := h.withStats stats
    have hsecond := hidle.emitDataClass hint next.other io
    dsimp only
    rw [if_neg Bool.false_ne_true]
    rcases hemit' : RcEndpoint.emitDataClass { ep with stats := stats } next.other now io with
      ⟨ep₂, result'⟩
    rw [hemit'] at hsecond
    cases hsecond with
    | failed _ hexcuse hholds =>
      refine ⟨⟨_, _, hholds, .failed hexcuse⟩, fun e herror ↦ ?_⟩
      cases herror
      exact hexcuse
    | idle stats' _ => exact ⟨⟨_, _, hidle.withStats stats', .idle⟩, nofun⟩
    | sent _ hok hholds =>
      have hothers : Punctual allowed start →
          RcEndpoint.runnable { ep with stats := stats } next.other.other = [] := by
        intro hpunctual
        rw [DataTxClass.other_other]
        exact RcEndpoint.runnable_eq_nil hidle.coherent (hidle.timed hpunctual) hempty
      exact ⟨⟨_, _, hholds.withClass _, .sent hok next.other_other.symm (.inr hothers)⟩, nofun⟩

end Holds

end Rocev2.Rc
