import Rocev2.Rc.Emission

/-!
# Scalar progress refines the engine

Every function of `Rocev2.Rc.Progress` is followed through the rules of `Rocev2.Rc.Refinement`:
what it does to the engine is a run of allowed events, it leaves the schedulers coherent, and the
turns it takes are those of `Turns`.  A received packet is the only event of a progress call that
is not internal.

`PollExcuse` lists what makes a progress call fail.
-/

namespace Rocev2.Rc

open Rocev2.Core Rocev2.Wire Rocev2.Memory

variable {QPS MRS SQ RQ CQ IDX : ℕ}

/-- The event of a packet that reaches a queue pair. -/
def packetEvent (packet : PacketRef) (now ticksPerSecond : ℕ) : QpEvent :=
  if packet.bth.opcode.isRequest then .request packet else .response packet now ticksPerSecond

/-- A packet may reach any queue pair. -/
def Arrives (allowed : EngineEvent QPS → Prop) (now : ℕ) (packet : PacketRef) : Prop :=
  ∀ index ticksPerSecond, allowed (.qp index (packetEvent packet now ticksPerSecond))

namespace Holds

variable {allowed : EngineEvent QPS → Prop} {start : Engine QPS MRS SQ RQ CQ}
  {books : Books QPS MRS SQ RQ CQ} {dirty : Set (Component × Fin QPS)}
  {ep : RcEndpoint QPS MRS SQ RQ CQ IDX} {index : Fin QPS} {slot : RcQpSlot MRS SQ RQ CQ}
  {now : ℕ} {active : ActiveRequest}

/-! ## Replies -/

theorem recordControlTransmit_eq (ep : RcEndpoint QPS MRS SQ RQ CQ IDX) (reply : ControlReply) :
    ∃ stats, ep.recordControlTransmit reply = { ep with stats := stats } := by
  unfold RcEndpoint.recordControlTransmit
  split
  all_goals exact ⟨_, rfl⟩

/-- **Transmitting the oldest reply that waits.** -/
theorem transmitPendingControl (hint : Internal allowed now)
    (h : Holds allowed start books dirty ep) (io : PollIo) :
    Holds allowed start books dirty (ep.transmitPendingControl io).1 ∧
      ((ep.transmitPendingControl io).2 = .ok false →
        (ep.transmitPendingControl io).1.pendingControl.items = []) ∧
      ∀ e, (ep.transmitPendingControl io).2 = .error e → Excuse allowed start io e := by
  unfold RcEndpoint.transmitPendingControl
  split
  · rename_i hpop
    exact ⟨h, fun _ ↦ Ring.pop_eq_none.mp hpop, nofun⟩
  · rename_i reply rest hpop
    have hmem : reply ∈ ep.pendingControl.items := by
      rw [Ring.pop_eq_some.mp hpop]
      exact List.mem_cons_self
    obtain ⟨arrival, harrival, hreply⟩ := h.logged.arrival_of_pending hmem
    obtain ⟨stats, offered, hsent, htransmit⟩ :=
      h.transmitPacket hint (.control harrival hreply) io
    rcases htransmit with ⟨-, htransmit⟩ | ⟨e, hexcuse, htransmit⟩
    · rw [htransmit]
      obtain ⟨stats', hrecord⟩ := recordControlTransmit_eq
        { ep with stats := stats, offered := offered } reply
      dsimp only
      rw [hrecord]
      exact ⟨(hsent.withStats stats').acceptReply hpop, nofun, nofun⟩
    · rw [htransmit]
      refine ⟨hsent, nofun, fun e' herror ↦ ?_⟩
      cases herror
      exact hexcuse

/-! ## Timers -/

/-- An entry is acted on only when the slot still asks for it. -/
theorem timerAction_eq_some {entry : TimerEntry}
    (h : ep.timerAction index entry now = some (slot, active)) :
    ep.qps index = some slot ∧ slot.activeRequest = some active ∧
      slot.timerDeadline = some entry.deadline ∧ active.timer.expired now = true := by
  unfold RcEndpoint.timerAction at h
  split at h
  · cases h
  rename_i current hslot
  split at h
  · cases h
  split at h
  · cases h
  rename_i request hactive
  split at h
  · cases h
  rename_i hcurrent
  cases h
  exact ⟨hslot, hactive, not_not.mp (not_or.mp hcurrent).1,
    Bool.eq_true_of_not_eq_false (not_or.mp hcurrent).2⟩

theorem expireTimer (hint : Internal allowed now) (h : Holds allowed start books dirty ep)
    {entry : TimerEntry} (haction : ep.timerAction index entry now = some (slot, active)) :
    Holds allowed start books (dirty \ AllOf index)
      ((ep.expireTimer index slot active).1.synchronizeQp index) := by
  obtain ⟨hslot, hactive, hdeadline, hexpired⟩ := timerAction_eq_some haction
  obtain ⟨deadline, harmed, hdue⟩ := Timer.exists_of_expired hexpired
  unfold RcEndpoint.expireTimer
  cases hphase : active.phase with
  | waiting =>
    have hcounted := (h.withStats { ep.stats with
      timeoutEvents := saturatingAdd ep.stats.timeoutEvents 1 }).counted hslot
    obtain ⟨copies, ⟨rfl, hretry⟩, hkeeps⟩ := scheduleTransportRetry_effect hcounted
    have hstep : QpStep ep.memory slot.toQpTransport (.timeout now) [] _ none :=
      .timeout hretry hactive hphase harmed hdue
    exact (h.withStats _).handled hslot (hint (.qp index (.timeout now)) rfl)
      (fun _ h ↦ nomatch h) hstep hkeeps rfl
  | rnrWait =>
    have hkeeps : QpContext.Keeps ep.memory [] (heldByOthers ep.engine.qps index)
        (expireRnrWait (ep.context slot) active) := ⟨Copied.refl _, h.counted hslot⟩
    have hstep : QpStep ep.memory slot.toQpTransport (.rnrExpired now) [] _ none :=
      .rnrExpired hactive hphase harmed hdue
    exact h.handled hslot (hint (.qp index (.rnrExpired now)) rfl) (fun _ h ↦ nomatch h)
      hstep hkeeps rfl
  | sending =>
    -- a request that is being sent asks for no timer, so no entry is current
    unfold QpTransport.timerDeadline at hdeadline
    rw [hactive] at hdeadline
    simp only [hphase] at hdeadline
    cases hdeadline

theorem serviceTimersLoop (hint : Internal allowed now) (fuel : ℕ) :
    ∀ {budget : ℕ} {ep : RcEndpoint QPS MRS SQ RQ CQ IDX} {result : HandlerResult},
      Holds allowed start books dirty ep →
      Holds allowed start books dirty
        (RcEndpoint.serviceTimersLoop now fuel budget ep result).1 := by
  induction fuel with
  | zero =>
    intro budget ep result h
    exact h
  | succ fuel ih =>
    intro budget ep result h
    cases budget with
    | zero => exact h
    | succ budget =>
      unfold RcEndpoint.serviceTimersLoop
      split
      · exact h
      rename_i index entry timers hpop
      have hpopped := h.popTimer hpop
      dsimp only
      split
      · exact ih ((hpopped.sync index).mono (insert_diff_allOf ..))
      · rename_i slot active haction
        exact ih ((hpopped.expireTimer hint haction).mono (insert_diff_allOf ..))

theorem serviceTimers (hint : Internal allowed now) (h : Holds allowed start books dirty ep)
    (budget : ℕ) : Holds allowed start books dirty (ep.serviceTimers now budget).1 :=
  (serviceTimersLoop hint _ h).withStats _

/-! ## Reception -/

theorem handlePacket_step (h : Holds allowed start books dirty ep)
    (hslot : ep.qps index = some slot) (hready : slot.machine.canReceive = true)
    (packet : PacketRef) (now ticksPerSecond : ℕ) :
    ∃ copies, QpStep ep.memory slot.toQpTransport (packetEvent packet now ticksPerSecond) copies
        (handlePacket (ep.context slot) packet now ticksPerSecond).1.qp
        (handlePacket (ep.context slot) packet now ticksPerSecond).2.reply ∧
      QpContext.Keeps ep.memory copies (heldByOthers ep.engine.qps index)
        (handlePacket (ep.context slot) packet now ticksPerSecond).1 := by
  unfold handlePacket packetEvent
  by_cases hrequest : packet.bth.opcode.isRequest = true
  · rw [if_pos hrequest, if_pos hrequest]
    obtain ⟨copies, heffect, hkeeps⟩ :=
      handleRequestPacket_effect (h.qpInv hslot).tidy (h.counted hslot)
    exact ⟨copies, .request hready heffect, hkeeps⟩
  · rw [if_neg hrequest, if_neg hrequest]
    obtain ⟨copies, heffect, hkeeps⟩ := handleResponsePacket_effect (h.counted hslot)
    rw [reply_handleResponsePacket]
    exact ⟨copies, .response hready heffect, hkeeps⟩

theorem record_packetEvent (packet : PacketRef) (now ticksPerSecond index : ℕ)
    (qp : QpTransport MRS SQ RQ CQ) (reply : Option ControlReply)
    (arrivals : List (Arrival MRS SQ RQ CQ)) :
    (packetEvent packet now ticksPerSecond).record index qp reply arrivals =
      arrivals ++ [⟨index, qp, packet, reply⟩] := by
  unfold packetEvent
  split <;> rfl

/-- A packet either is dropped, which changes counters only, or reaches the queue pair that its
number names. -/
theorem processIncomingState_cases (htabled : ep.Tabled) (now : ℕ) (decoded : DecodedPacket) :
    (∃ stats e, RcEndpoint.isIgnored e = true ∧
      ep.processIncomingState now decoded = ({ ep with stats := stats }, .error e)) ∨
    ∃ index slot, ep.qpnIndex.get decoded.transport.bth.destinationQpn = some index.val ∧
      ep.qps index = some slot ∧ decoded.ipv4.source = slot.path.destination ∧
      decoded.ipv4.destination = slot.path.source ∧ slot.machine.canReceive = true ∧
      ep.processIncomingState now decoded =
        ({ ep.restore index slot (handlePacket (ep.context slot) decoded.transport now
            ep.config.ticksPerSecond).1 with
          arrivals := ep.arrivals ++ [⟨index.val, slot.toQpTransport, decoded.transport,
            (handlePacket (ep.context slot) decoded.transport now
              ep.config.ticksPerSecond).2.reply⟩] },
          .ok (index, (handlePacket (ep.context slot) decoded.transport now
            ep.config.ticksPerSecond).2)) := by
  unfold RcEndpoint.processIncomingState
  dsimp only
  split
  · exact .inl ⟨_, _, rfl, rfl⟩
  rename_i number hnumber
  obtain ⟨index, rfl, hlisted⟩ := htabled.indexed.get_eq_some.mp hnumber
  obtain ⟨slot, hslot, -⟩ := Option.map_eq_some_iff.mp hlisted
  rw [dif_pos index.isLt]
  split
  · rename_i hnone
    cases hslot.symm.trans hnone
  rename_i current hcurrent
  split
  · exact .inl ⟨_, _, rfl, rfl⟩
  rename_i hpeer
  obtain ⟨hsource, hdestination⟩ := not_or.mp hpeer
  split
  · exact .inl ⟨_, _, rfl, rfl⟩
  rename_i hready
  exact .inr ⟨index, current, hnumber, hcurrent, not_not.mp hsource, not_not.mp hdestination,
    Bool.eq_true_of_not_eq_false hready, rfl⟩

/-- **Processing a packet.**  It never fails, and the reply that it causes is owed. -/
theorem processIncoming (h : Holds allowed start books dirty ep) {decoded : DecodedPacket}
    (hallowed : Arrives allowed now decoded.transport) :
    ∃ reply, Holds allowed start (books.owe reply) dirty (ep.processIncoming now decoded).1 ∧
      (ep.processIncoming now decoded).1.pendingControl = ep.pendingControl ∧
      (((ep.processIncoming now decoded).2 = .ok none ∧ reply = none) ∨
        ∃ result, (ep.processIncoming now decoded).2 = .ok (some result) ∧
          result.reply = reply) := by
  unfold RcEndpoint.processIncoming
  rcases processIncomingState_cases h.tabled now decoded with
    ⟨stats, e, hignored, hstate⟩ | ⟨index, slot, -, hslot, -, -, hready, hstate⟩
  · rw [hstate]
    dsimp only
    rw [if_pos hignored]
    refine ⟨none, ?_, rfl, .inl ⟨rfl, rfl⟩⟩
    rw [Books.owe_none]
    exact h.withStats _
  · rw [hstate]
    dsimp only
    obtain ⟨copies, hstep, hkeeps⟩ :=
      h.handlePacket_step hslot hready decoded.transport now ep.config.ticksPerSecond
    have hevent : ∀ config,
        packetEvent decoded.transport now ep.config.ticksPerSecond ≠ .reconfigure config := by
      intro config
      unfold packetEvent
      split
      all_goals exact fun h ↦ nomatch h
    have hrecorded := h.recorded hslot (hallowed index ep.config.ticksPerSecond) hevent hstep hkeeps
      (record_packetEvent ..).symm
    refine ⟨_, (hrecorded.withStats _).mono Set.sdiff_subset, ?_, .inr ⟨_, rfl, rfl⟩⟩
    exact (RcEndpoint.frame_synchronizeQp _ index).2.2.2.2.1

end Holds

/-! ## One call -/

/-- Why a progress call fails. -/
inductive PollExcuse (allowed : EngineEvent QPS → Prop) (start : Engine QPS MRS SQ RQ CQ)
    (io : PollIo) : PollError → Prop
  | /-- A packet is not sent. -/
    sending {e} (h : Excuse allowed start io e) : PollExcuse allowed start io e
  | /-- The backend does not receive. -/
    receiving (h : io.receive = .ioError) : PollExcuse allowed start io .io
  | /-- The receive buffer of the caller is too small. -/
    short {error} (h : io.receiveBuffer < start.config.maximumPacketSize)
      (herror : error ≠ .invalidTicksPerSecond) : PollExcuse allowed start io (.api error)
  | /-- The backend returns more bytes than the buffer holds. -/
    violated {length decoded error} (h : io.receive = .datagram length decoded)
      (hlength : io.receiveBuffer < length) (herror : error ≠ .invalidTicksPerSecond) :
      PollExcuse allowed start io (.api error)

/-- **What a function that may emit a data packet leaves behind.** -/
structure Polled {α : Type} (allowed : EngineEvent QPS → Prop) (start : Engine QPS MRS SQ RQ CQ)
    (turns : List (Activity QPS MRS SQ RQ CQ)) (next : DataTxClass) (io : PollIo)
    (out : RcEndpoint QPS MRS SQ RQ CQ IDX × Except PollError α) : Prop where
  /-- The assertion holds again, after the turns of at most one packet. -/
  holds : ∃ turns' next', Holds allowed start (.settled turns' next') ∅ out.1 ∧
    Turns allowed start turns next io turns' next'
  /-- A failure has an excuse. -/
  excused : ∀ e, out.2 = .error e → PollExcuse allowed start io e

namespace Holds

variable {allowed : EngineEvent QPS → Prop} {start : Engine QPS MRS SQ RQ CQ}
  {turns : List (Activity QPS MRS SQ RQ CQ)} {next : DataTxClass}
  {ep : RcEndpoint QPS MRS SQ RQ CQ IDX} {now : ℕ} {io : PollIo}

theorem returns {α : Type} (h : Holds allowed start (.settled turns next) ∅ ep)
    {result : Except PollError α}
    (hexcuse : ∀ e, result = .error e → PollExcuse allowed start io e) :
    Polled allowed start turns next io (ep, result) :=
  ⟨⟨_, _, h, .idle⟩, hexcuse⟩

theorem finishProgress (hint : Internal allowed now)
    (h : Holds allowed start (.settled turns next) ∅ ep) (io : PollIo) (progress : RcProgress) :
    Polled allowed start turns next io (ep.finishProgress now io progress) := by
  obtain ⟨hholds, hexcuse⟩ := h.emitDataPacket hint io
  unfold RcEndpoint.finishProgress
  rcases hemit : ep.emitDataPacket now io with ⟨ep', e | result⟩
  all_goals rw [hemit] at hholds hexcuse
  · refine ⟨hholds, fun e' herror ↦ ?_⟩
    cases herror
    exact .sending (hexcuse e rfl)
  · exact ⟨hholds, nofun⟩

theorem queueReply {reply : ControlReply}
    (h : Holds allowed start ((Books.settled turns next).owe reply) ∅ ep)
    (hempty : ep.pendingControl.items = []) :
    Holds allowed start (.settled turns next) ∅ (ep.queueReply reply) := by
  unfold RcEndpoint.queueReply
  split
  · rename_i ring hring
    exact h.queueOwed hring
  · rename_i hfull
    have hlength := Ring.push_eq_error hfull
    rw [hempty] at hlength
    exact absurd hlength (by decide)

/-- Transmitting a reply, and going on when there is none. -/
theorem afterControl (hint : Internal allowed now)
    (h : Holds allowed start (.settled turns next) ∅ ep) (progress : RcProgress)
    {next' : RcEndpoint QPS MRS SQ RQ CQ IDX →
      RcEndpoint QPS MRS SQ RQ CQ IDX × Except PollError RcProgress}
    (hnext : ∀ ep' : RcEndpoint QPS MRS SQ RQ CQ IDX,
      Holds allowed start (.settled turns next) ∅ ep' → ep'.pendingControl.items = [] →
        Polled allowed start turns next io (next' ep')) :
    Polled allowed start turns next io (match ep.transmitPendingControl io with
      | (ep, .error e) => (ep, .error e)
      | (ep, .ok true) => (ep, .ok progress)
      | (ep, .ok false) => next' ep) := by
  obtain ⟨hholds, hempty, hexcuse⟩ := h.transmitPendingControl hint io
  rcases htransmit : ep.transmitPendingControl io with ⟨ep', e | sent⟩
  all_goals rw [htransmit] at hholds hempty hexcuse
  · refine hholds.returns fun e' herror ↦ ?_
    cases herror
    exact .sending (hexcuse e rfl)
  · cases sent with
    | true => exact hholds.returns nofun
    | false => exact hnext ep' hholds (hempty rfl)

theorem progressPacket (hint : Internal allowed now)
    (h : Holds allowed start (.settled turns next) ∅ ep) {decoded : DecodedPacket}
    (hempty : ep.pendingControl.items = [])
    (hallowed : Arrives allowed now decoded.transport) (io : PollIo) (progress : RcProgress) :
    Polled allowed start turns next io (ep.progressPacket now io progress decoded) := by
  obtain ⟨reply, hprocess, hpending, hresult⟩ := h.processIncoming hallowed
  unfold RcEndpoint.progressPacket
  rcases hincoming : ep.processIncoming now decoded with ⟨ep', result⟩
  rw [hincoming] at hprocess hpending hresult
  rcases hresult with ⟨hresult, rfl⟩ | ⟨handled, hresult, rfl⟩
  all_goals
    dsimp only at hresult
    subst hresult
  · rw [Books.owe_none] at hprocess
    exact hprocess.finishProgress hint ..
  · dsimp only
    cases hreply : handled.reply with
    | none =>
      rw [hreply, Books.owe_none] at hprocess
      exact hprocess.finishProgress hint ..
    | some reply =>
      rw [hreply] at hprocess
      refine (hprocess.queueReply ?_).afterControl hint _ fun ep'' hholds _ ↦
        hholds.finishProgress hint ..
      rw [hpending]
      exact hempty

/-- Receiving at most one packet. -/
theorem progressReceive (hint : Internal allowed now)
    (h : Holds allowed start (.settled turns next) ∅ ep) (hempty : ep.pendingControl.items = [])
    (hallowed : ∀ length decoded, io.receive = .datagram length (some decoded) →
      Arrives allowed now decoded.transport) (progress : RcProgress) :
    Polled allowed start turns next io (ep.progressReceive now io progress) := by
  unfold RcEndpoint.progressReceive
  split
  · rename_i hreceive
    refine (h.withStats _).returns fun e herror ↦ ?_
    cases herror
    exact .receiving hreceive
  · exact h.finishProgress hint ..
  rename_i length decoded hreceive
  split
  · rename_i hlength
    refine h.returns fun e herror ↦ ?_
    cases herror
    exact .violated hreceive hlength nofun
  dsimp only
  split
  · exact (h.withStats _).finishProgress hint ..
  split
  · exact (h.withStats _).finishProgress hint ..
  · rename_i packet
    have hreceived : Holds allowed start (.settled turns next) ∅ (ep.recordReceive length) :=
      h.withStats _
    exact hreceived.progressPacket hint hempty (hallowed length packet hreceive) ..

/-- **Scalar progress refines the engine.**  Besides internal events, it delivers the packet that
the backend returns. -/
theorem progress (hint : Internal allowed now) (h : Holds allowed start (.settled turns next) ∅ ep)
    (hallowed : ∀ length decoded, io.receive = .datagram length (some decoded) →
      Arrives allowed now decoded.transport) :
    Polled allowed start turns next io (ep.progress now io) := by
  unfold RcEndpoint.progress
  split
  · rename_i hshort
    rw [h.config_eq] at hshort
    refine h.returns fun e herror ↦ ?_
    cases herror
    exact .short hshort nofun
  split
  · rename_i hshort
    rw [h.config_eq] at hshort
    refine h.returns fun e herror ↦ ?_
    cases herror
    exact .sending (.short hshort nofun)
  · exact (h.serviceTimers hint 1).afterControl hint _ fun ep' hholds hempty ↦
      hholds.progressReceive hint hempty hallowed _

end Holds

end Rocev2.Rc
