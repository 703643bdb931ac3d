import Rocev2.Rc.Reachable

/-!
# Accepted work never fails locally

A range is checked when work is posted, or when the peer names it, and a lease keeps its region
alive from then on.  So every later access to the range succeeds (`Accessible`), and the branches
of the source that handle a failed access are dead: no completion carries a local protection
error, no READ response is abandoned, and a progress call fails only when the backend does.
-/

namespace Rocev2.Rc

open Rocev2.Core Rocev2.Wire Rocev2.Memory Rocev2.Lib

variable {QPS MRS SQ RQ CQ IDX : ℕ}

/-! ## Accesses -/

/-- **Every access that the accepted work of a queue pair needs succeeds.** -/
structure Accessible (memory : MemoryRegistry MRS) (qp : QpTransport MRS SQ RQ CQ) : Prop where
  /-- The next packet of a request has bounds. -/
  bounded : ∀ active, qp.activeRequest = some active → active.phase = .sending →
    (segmentBounds active.work.sge.length qp.mtu active.nextPacket).isSome = true
  /-- The next segment of a SEND or WRITE can be read. -/
  sending : ∀ active offset length, qp.activeRequest = some active → active.phase = .sending →
    active.work.kind.isRead = false →
    segmentBounds active.work.sge.length qp.mtu active.nextPacket = some (offset, length) →
    ∃ payload, readLocalSegment memory active.work offset length = .ok payload
  /-- A READ response in range can be written. -/
  reading : ∀ active index offset input, qp.activeRequest = some active →
    active.work.kind.isRead = true →
    segmentBounds active.work.sge.length qp.mtu index = some (offset, List.length input) →
    ∃ address memory', checkedAdd active.work.sge.address offset = some address ∧
      memory.writeLocal active.work.sge.lkey address input = .ok memory'
  /-- The first segment of a SEND can be written. -/
  receiving : ∀ posted queue input, qp.receiveQueue.pop = some (posted, queue) →
    List.length input ≤ posted.work.sge.length.toNat →
    ∃ memory', memory.writeLocal posted.work.sge.lkey posted.work.sge.address input = .ok memory'
  /-- A later segment of a SEND can be written. -/
  assembling : ∀ work written input, qp.inboundMessage = some (.send work written) →
    written + List.length input ≤ work.sge.length.toNat →
    ∃ address memory', checkedAdd work.sge.address written = some address ∧
      memory.writeLocal work.sge.lkey address input = .ok memory'
  /-- A later segment of a WRITE can be written. -/
  writing : ∀ address rkey length written input,
    qp.inboundMessage = some (.write address rkey length written) →
    written + List.length input ≤ length.toNat →
    ∃ place memory', checkedAdd address written = some place ∧
      memory.writeRemote rkey place input = .ok memory'
  /-- The next segment of a READ response can be read. -/
  answering : ∀ response, qp.readResponse = some response →
    ∃ address length payload, readResponseSegment response qp.mtu = .ok (address, length) ∧
      memory.readRemote response.rkey address length = .ok payload

section Accessible

variable {memory : MemoryRegistry MRS} {qp : QpTransport MRS SQ RQ CQ}

theorem Backed.exists_writeLocal {sge : Sge} {lease : Option (RegionLease MRS)} {offset : ℕ}
    {input : List UInt8} (h : Backed memory .localWriteOnly sge lease)
    (hfits : offset + input.length ≤ sge.length.toNat) :
    ∃ address memory', checkedAdd sge.address offset = some address ∧
      memory.writeLocal sge.lkey address input = .ok memory' := by
  have hbound := h.bound
  obtain ⟨address, haddress, hvalue⟩ := exists_checkedAdd (show sge.address.toNat + offset < 2 ^ 64
    by omega)
  obtain ⟨memory', hwrite⟩ := h.writeLocal hvalue hfits
  exact ⟨address, memory', haddress, hwrite⟩

/-- The invariant of the engine makes all accepted work accessible. -/
theorem Granted.accessible (hgranted : Granted memory qp) (hspans : qp.requester.Spans) :
    Accessible memory qp where
  bounded active hactive hphase := by
    obtain ⟨size, hbounds, -⟩ := exists_segmentBounds_of_sending hspans hactive hphase
    rw [hbounds]
    rfl
  sending active offset length hactive hphase hkind hbounds := by
    obtain ⟨offset', length', address, hbounds', -, haddress, -, hread⟩ :=
      exists_readable_segment hgranted.toRequesterGranted hspans hactive hphase hkind
    cases hbounds.symm.trans hbounds'
    unfold readLocalSegment
    rw [haddress]
    exact ⟨_, hread⟩
  reading active index offset input hactive hkind hbounds := by
    have hbacked := hgranted.active active hactive
    have haccess : accessOf active.work.kind = .localWriteOnly := by
      cases hwork : active.work.kind with
      | send | rdmaWrite => rw [hwork] at hkind; cases hkind
      | rdmaRead => rfl
    rw [haccess] at hbacked
    exact hbacked.exists_writeLocal (segmentBounds_le hbounds).1
  receiving posted queue input hpop hfits := by
    have hmem : posted ∈ qp.receiveQueue.items := by
      rw [Ring.pop_eq_some.mp hpop]
      exact List.mem_cons_self
    exact (hgranted.receives posted hmem).writeLocal (Nat.add_zero _).symm (by simpa using hfits)
  assembling work written input hinbound hfits :=
    (hgranted.inbound work written hinbound).exists_writeLocal hfits
  writing address rkey length written input hinbound hfits := by
    have hleased := hgranted.writing address rkey length written hinbound
    have hbound := hleased.bound
    obtain ⟨place, hplace, hvalue⟩ := exists_checkedAdd (show address.toNat + written < 2 ^ 64
      by omega)
    exact ⟨place, _, hplace, MemoryRegistry.write_eq_ok.mpr
      ⟨rfl, hleased.grants _ _ (by omega) (by omega)⟩⟩
  answering response hresponse := by
    obtain ⟨address, length, hsegment, -, -, hread⟩ :=
      exists_readResponseSegment hgranted.toResponderGranted hresponse
    exact ⟨address, length, _, hsegment, hread⟩

end Accessible

/-! ## Completions -/

def QpTransport.Reported (p : CompletionStatus → Prop) (qp : QpTransport MRS SQ RQ CQ) : Prop :=
  ∀ completion ∈ qp.generated, p completion.status

namespace QpTransport.Reported

variable {p : CompletionStatus → Prop} {qp qp' : QpTransport MRS SQ RQ CQ}
  {status : CompletionStatus}

theorem adds (h : qp.Reported p) (hadds : Adds (fun completion ↦ p completion.status) qp qp') :
    qp'.Reported p := by
  obtain ⟨new, heq, hnew⟩ := hadds
  intro completion hmem
  rw [heq] at hmem
  rcases List.mem_append.mp hmem with hold | hlater
  · exact h completion hold
  · exact hnew completion hlater

theorem congr (h : qp.Reported p) (qp' : QpTransport MRS SQ RQ CQ)
    (hsame : qp'.generated = qp.generated) : qp'.Reported p :=
  h.adds (.same hsame)

theorem flushed (h : qp.Reported p) (hp : p .flushed) : qp.flushed.Reported p :=
  h.adds (.flushed fun _ hstatus ↦ hstatus ▸ hp)

theorem failed (h : qp.Reported p) (hp : p .flushed) : qp.failed.Reported p :=
  h.adds (.failed fun _ hstatus ↦ hstatus ▸ hp)

theorem activeFinished (h : qp.Reported p) (hp : p status) (byteLen : ℕ) :
    (qp.activeFinished status byteLen).Reported p :=
  h.adds (.activeFinished (fun _ _ hstatus ↦ hstatus ▸ hp) byteLen)

theorem receiveFinished (h : qp.Reported p) (work : RecvWorkRequest) (hp : p status) (byteLen : ℕ) :
    (qp.receiveFinished work status byteLen).Reported p := by
  refine h.adds (.receiveFinished ?_)
  rw [status_receiveCompletion]
  exact hp

end QpTransport.Reported

/-- The statuses that accepted work can end with. -/
def NotLocal (status : CompletionStatus) : Prop := status ≠ .localProtectionError

section Steps

variable {memory : MemoryRegistry MRS} {qp qp' : QpTransport MRS SQ RQ CQ} {packet : PacketRef}
  {copies : List (ℕ × List UInt8)} {reply : Option ControlReply} {position : SegmentPosition}
  {loaded : QpTransport MRS SQ RQ CQ}

theorem LoadsSend.generated {work : RecvWorkRequest} {written : ℕ}
    (h : LoadsSend qp position loaded work written) :
    loaded.generated = qp.generated := by
  cases h <;> rfl

theorem LoadsWrite.generated {reth : Option Reth} {address : UInt64} {rkey length : UInt32}
    {written : ℕ} (h : LoadsWrite qp memory reth position loaded address rkey length written) :
    loaded.generated = qp.generated := by
  cases h <;> rfl

theorem RequestEffect.reported (h : RequestEffect qp memory packet copies qp' reply)
    (haccessible : Accessible memory qp) (hold : qp.Reported NotLocal) :
    qp'.Reported NotLocal := by
  have hflushed : NotLocal .flushed := nofun
  have hsuccess : NotLocal .success := nofun
  cases h with
  | future | duplicate | replayNotReady | sendNotReady | readNotReady => exact hold
  | replay | read => exact hold.congr _ rfl
  | replayFatal | fatal => exact hold.failed hflushed
  | @sendRejected posted queue status syndrome hpsn hop hkey hvalid hnone hpop hstatus hreason =>
    refine ((hold.congr ((qp.setReceives queue).setInboundMemory posted.lease) rfl).failed
      hflushed).receiveFinished _ ?_ _
    rcases hreason with ⟨rfl, -⟩ | ⟨rfl, hfits, e, herror⟩
    · exact nofun
    · obtain ⟨memory', hwrite⟩ := haccessible.receiving posted queue packet.payload hpop hfits
      cases hwrite.symm.trans herror
  | @receiveFailed work written status hpsn hsome hstatus hreason =>
    refine ((hold.congr (qp.setInbound none) rfl).receiveFinished _ ?_ _).failed hflushed
    rcases hreason with rfl | ⟨rfl, hfits, address, e, haddress, herror⟩
    · exact nofun
    · obtain ⟨address', memory', haddress', hwrite⟩ :=
        haccessible.assembling work written packet.payload hsome hfits
      cases haddress.symm.trans haddress'
      cases hwrite.symm.trans herror
  | @send loaded work written hpsn hop hload hvalid hfits hgrants =>
    have hloaded : loaded.Reported NotLocal := hold.congr _ hload.generated
    unfold QpTransport.sendWritten
    split
    · exact (hloaded.congr (((loaded.observe packet.bth.psn).setInbound none).nextMessage)
        rfl).receiveFinished work hsuccess _
    · exact hloaded.congr _ rfl
  | @write loaded address rkey length written hpsn hop hload hvalid hfits hfinal hgrants =>
    have hloaded : loaded.Reported NotLocal := hold.congr _ hload.generated
    unfold QpTransport.writeWritten
    split <;> exact hloaded.congr _ rfl

theorem RetryEffect.reported (h : RetryEffect qp qp') (hold : qp.Reported NotLocal) :
    qp'.Reported NotLocal := by
  have hexceeded : NotLocal .retryExceeded := nofun
  cases h with
  | idle => exact hold
  | retried => exact hold.congr _ rfl
  | exhausted => exact (hold.activeFinished hexceeded 0).failed nofun

theorem ResponseEffect.reported {now ticksPerSecond : ℕ}
    (h : ResponseEffect qp memory packet now ticksPerSecond copies qp')
    (haccessible : Accessible memory qp) (hold : qp.Reported NotLocal) :
    qp'.Reported NotLocal := by
  have hsuccess : NotLocal .success := nofun
  cases h with
  | ignored => exact hold
  | @failed active status hactive hstatus =>
    refine (hold.activeFinished ?_ 0).failed nofun
    rintro rfl
    obtain ⟨hkind, offset, address, e, hbounds, haddress, herror⟩ := hstatus
    obtain ⟨address', memory', haddress', hwrite⟩ :=
      haccessible.reading active _ offset packet.payload hactive hkind hbounds
    cases haddress.symm.trans haddress'
    cases hwrite.symm.trans herror
  | retry haeth hclass hretry => exact hretry.reported hold
  | delayed | acked | read => exact hold.congr _ rfl
  | @ackCompleted active window =>
    exact (hold.congr (qp.setWindow window) rfl).activeFinished hsuccess _
  | @readCompleted active =>
    exact (hold.congr (qp.setWindow (qp.sendWindow.acknowledge packet.bth.psn).1)
      rfl).activeFinished hsuccess _

theorem reported_moved (hold : qp.Reported NotLocal) (destination : QpState) :
    (qp.moved destination).Reported NotLocal := by
  have hmoved : (qp.setMachine { qp.machine with state := destination }).Reported NotLocal :=
    hold.congr _ rfl
  cases destination with
  | error => exact hmoved.flushed nofun
  | reset => exact (hmoved.flushed nofun).congr _ rfl
  | init | rtr | rts | sqd | sqe => exact hmoved

/-- **No step causes a local protection error.** -/
theorem QpStep.reported {event : QpEvent} (h : QpStep memory qp event copies qp' reply)
    (haccessible : Accessible memory qp) (hold : qp.Reported NotLocal) :
    qp'.Reported NotLocal := by
  cases h with
  | start heffect => cases heffect <;> exact hold.congr _ rfl
  | sent =>
    unfold markRequestPacketSent
    split <;> exact hold.congr _ rfl
  | readSent =>
    unfold QpTransport.readAdvanced
    split
    · exact hold
    · split <;> exact hold.congr _ rfl
  | request hready heffect => exact heffect.reported haccessible hold
  | response hready heffect => exact heffect.reported haccessible hold
  | timeout hretry => exact hretry.reported hold
  | rnrExpired => exact hold.congr _ rfl
  | transition => exact reported_moved hold _
  | reconfigure => exact hold.congr _ rfl
  | postWork => exact hold.congr _ rfl
  | postReceive => exact hold.congr _ rfl
  | poll hpoll =>
    obtain ⟨queue, hitems, rfl⟩ := pollQp_eq_some hpoll
    refine hold.congr _ ?_
    simp only [QpTransport.generated, hitems, List.append_assoc, List.singleton_append]

end Steps

theorem reported_stable : Stable (fun _ ↦ True) (fun _ ↦ True)
    (fun (_ : Fin QPS) (qp : QpTransport MRS SQ RQ CQ) ↦ qp.Reported NotLocal) where
  fresh hfresh := by
    intro completion hmem
    rw [QpTransport.generated, hfresh.completions, hfresh.history] at hmem
    cases hmem
  step := by
    intro index memory qp event copies qp' reply _ _ _ hgranted hspans _ hstep hold
    exact hstep.reported (hgranted.accessible hspans) hold

/-! ## Progress -/

theorem Op.Causes.of_time {op : Op} {event : EngineEvent QPS} {now : ℕ} (h : op.Causes event)
    (htime : op.time = some now) :
    (∃ index packet time ticksPerSecond,
      event = .qp index (packetEvent packet time ticksPerSecond)) ∨ event.isInternal now := by
  cases h with
  | packet index ticksPerSecond hdelivers htime' => exact .inl ⟨index, _, _, _, rfl⟩
  | internal htime' hevent =>
    cases htime.symm.trans htime'
    exact .inr hevent
  | _ => cases htime

/-- A progress call leaves the timeouts alone. -/
theorem RcEndpoint.punctual_of_timed {ep : RcEndpoint QPS MRS SQ RQ CQ IDX} (op : Op) {now : ℕ}
    (htime : op.time = some now) (htimed : ∀ i, ep.Timed i) :
    Punctual (fun event ↦ op.Causes event) ep.engine := by
  intro e hrun
  refine Lib.Run.invariant (I := fun e : Engine QPS MRS SQ RQ CQ ↦ ∀ index qp,
    e.qps index = some qp →
      (ackTimeoutTicks qp.machine.config.timeout e.config.ticksPerSecond).isSome = true) ?_ hrun ?_
  · intro s t event hcauses hstep hs
    have hkind := hcauses.of_time htime
    cases hstep with
    | @qp index qp event copies qp' reply memory' hqp hqpStep hmemory hcounted =>
      have hconfig : ∀ config, event ≠ .reconfigure config := by
        rintro config rfl
        rcases hkind with ⟨_, packet, _, _, heq⟩ | hinternal
        · cases heq' : packet.bth.opcode.isRequest <;> simp [packetEvent, heq'] at heq
        · exact hinternal
      have hsame := congrArg RcQpConfig.transport (hqpStep.config hconfig)
      intro i current hcurrent
      dsimp only at hcurrent ⊢
      by_cases hi : i = index
      · subst hi
        rw [Function.update_self] at hcurrent
        cases hcurrent
        rw [show qp'.machine.config = qp.machine.config from hsame]
        exact hs i qp hqp
      · rw [Function.update_of_ne hi] at hcurrent
        exact hs i current hcurrent
    | offer | accept | register | deregister | write => exact hs
    | create | remove =>
      rcases hkind with ⟨_, _, _, _, heq⟩ | hinternal
      · cases heq
      · exact hinternal.elim
  · intro index qp hqp
    obtain ⟨slot, hslot, rfl⟩ := Holds.engine_qps_eq_some hqp
    exact htimed index slot hslot

/-- The caller lends buffers of the required size, and the backend stays inside them. -/
structure PollIo.Honours (io : PollIo) (maximumPacketSize : ℕ) : Prop where
  receiveBuffer : maximumPacketSize ≤ io.receiveBuffer
  transmitBuffer : maximumPacketSize ≤ io.transmitBuffer
  received : ∀ length decoded, io.receive = .datagram length decoded → length ≤ io.receiveBuffer

/-- The backend returns what it is asked for: at most `room` received packets, at most `budget`
frames of the required size, and a prefix of the `count` packets that it is given. -/
structure BatchIo.Honours (io : BatchIo) (maximumPacketSize budget room count : ℕ) : Prop where
  received : ∀ frames, io.receive = some frames → frames.length ≤ room ∧ none ∉ frames
  acquired : ∀ frames, io.acquire = some frames → frames.length ≤ budget ∧ none ∉ frames ∧
    ∀ length, some (.buffer length) ∈ frames → maximumPacketSize ≤ length
  accepted : io.accepted ≤ count
  ownership : io.ownershipOk = true

section Progress

variable {ep : RcEndpoint QPS MRS SQ RQ CQ IDX}

theorem RcEndpoint.Reachable.progress_excused (h : ep.Reachable) {now : ℕ} {io : PollIo}
    {e : PollError} (herror : (ep.progress now io).2 = .error e) :
    PollExcuse (fun event ↦ (Op.progress now io).Causes event) ep.engine io e :=
  (Holds.progress (fun _ hevent ↦ .internal rfl hevent) (h.here _)
    fun length _ hreceive index ticksPerSecond ↦
      .packet index ticksPerSecond ⟨length, hreceive⟩ rfl).excused e herror

theorem RcEndpoint.Reachable.progressBatch_excused (h : ep.Reachable) {now budget : ℕ}
    {io : BatchIo} {e : PollError} (herror : (ep.progressBatch now budget io).2 = .error e) :
    BatchExcuse (fun event ↦ (Op.progressBatch now budget io).Causes event) ep.engine io
      (min budget maxBatchPackets) (ep.receiveRoom now budget) (ep.stagedBy now budget io).length
      e :=
  (Holds.progressBatch (fun _ hevent ↦ .internal rfl hevent) (h.here _)
    (fun _ hdelivers index ticksPerSecond ↦ .packet index ticksPerSecond hdelivers rfl)
    budget).excused e herror

/-- A progress call fails only when the backend fails. -/
theorem RcEndpoint.Reachable.progress_error (h : ep.Reachable) (htimed : ∀ i, ep.Timed i)
    {now : ℕ} {io : PollIo} (hio : io.Honours ep.config.maximumPacketSize) {e : PollError}
    (herror : (ep.progress now io).2 = .error e) : e = .io := by
  have hpunctual := RcEndpoint.punctual_of_timed (.progress now io) rfl htimed
  cases h.progress_excused herror with
  | sending hexcuse =>
    cases hexcuse with
    | refused => rfl
    | late hlate => exact absurd hpunctual hlate
    | short hshort _ => exact absurd hio.transmitBuffer (Nat.not_le_of_lt hshort)
  | receiving => rfl
  | short hshort _ => exact absurd hio.receiveBuffer (Nat.not_le_of_lt hshort)
  | violated hreceive hlength _ =>
    exact absurd (hio.received _ _ hreceive) (Nat.not_le_of_lt hlength)

/-- A batched progress call fails only when the backend fails. -/
theorem RcEndpoint.Reachable.progressBatch_error (h : ep.Reachable) (htimed : ∀ i, ep.Timed i)
    {now budget : ℕ} {io : BatchIo}
    (hio : io.Honours ep.config.maximumPacketSize (min budget maxBatchPackets)
      (ep.receiveRoom now budget) (ep.stagedBy now budget io).length) {e : PollError}
    (herror : (ep.progressBatch now budget io).2 = .error e) : e = .io := by
  have hpunctual := RcEndpoint.punctual_of_timed (.progressBatch now budget io) rfl htimed
  cases h.progressBatch_excused herror with
  | failed => rfl
  | late hlate => exact absurd hpunctual hlate
  | received hreceive hframes _ =>
    obtain ⟨hroom, hnone⟩ := hio.received _ hreceive
    rcases hframes with hmany | hempty
    · exact absurd hroom (Nat.not_le_of_lt hmany)
    · exact absurd hempty hnone
  | acquired hacquire hframes _ =>
    obtain ⟨hbudget, hnone, hsize⟩ := hio.acquired _ hacquire
    rcases hframes with hmany | hempty | ⟨length, hshort, hmem⟩
    · exact absurd hbudget (Nat.not_le_of_lt hmany)
    · exact absurd hempty hnone
    · exact absurd (hsize length hmem) (Nat.not_le_of_lt hshort)
  | submitted hsubmitted _ =>
    rcases hsubmitted with hmany | hlost
    · exact absurd hio.accepted (Nat.not_le_of_lt hmany)
    · cases hlost.symm.trans hio.ownership

end Progress

/-- **Accepted work never fails locally.**  In every reachable endpoint:
every access to memory that accepted work needs succeeds, and the next packet has bounds;
every packet that the engine may build passes the encoder and fits the largest packet;
no completion carries a local protection error;
the function that abandons a READ response has never run;
with buffers of the required size, a backend that honours its contract and representable ACK
timeouts, both progress calls fail only when the backend does. -/
theorem accepted_work_succeeds {ep : RcEndpoint QPS MRS SQ RQ CQ IDX} (h : ep.Reachable) :
    (∀ i slot, ep.qps i = some slot → Accessible ep.memory slot.toQpTransport ∧
      ∀ completion ∈ slot.generated, completion.status ≠ .localProtectionError) ∧
    (∀ sender packet, Emits ep.engine sender packet →
      encodeIpv4Packet packet ep.config.maximumPacketSize = .ok packet.encodedLength ∧
        packet.encodedLength ≤ ep.config.maximumPacketSize) ∧
    (∀ kind index, Activity.faulted kind index ∉ ep.activity) ∧
    ((∀ i, ep.Timed i) →
      (∀ now io e, PollIo.Honours io ep.config.maximumPacketSize →
        (ep.progress now io).2 = .error e → e = .io) ∧
      ∀ now budget io e, BatchIo.Honours io ep.config.maximumPacketSize
        (min budget maxBatchPackets) (ep.receiveRoom now budget)
        (ep.stagedBy now budget io).length →
        (ep.progressBatch now budget io).2 = .error e → e = .io) := by
  refine ⟨fun i slot hslot ↦ ⟨?_, ?_⟩, fun sender packet hemits ↦ ?_, fun kind index hmem ↦ ?_,
    fun htimed ↦ ⟨?_, ?_⟩⟩
  · exact (h.inv.granted i _ (Holds.engine_qps hslot)).accessible
      (h.inv.spans i _ (Holds.engine_qps hslot))
  · exact h.stable reported_stable (fun _ _ _ ↦ trivial) hslot
  · exact (h.here fun _ ↦ True).encodes hemits (Nat.le_refl _)
  · exact nomatch (h.here fun _ ↦ True).logged.faultless _ hmem
  · intro now io e hio herror
    exact h.progress_error htimed hio herror
  · intro now budget io e hio herror
    exact h.progressBatch_error htimed hio herror

theorem accepted_work_succeeds_started :
    ∃ slot, (Sample.single.steps Sample.sendStarted).qps 0 = some slot ∧
      slot.activeRequest.isSome = true ∧
      Accessible (Sample.single.steps Sample.sendStarted).memory slot.toQpTransport := by
  have hlive : ((Sample.single.steps Sample.sendStarted).qps 0).any
      (fun slot ↦ slot.activeRequest.isSome) = true := by
    decide +kernel
  obtain ⟨slot, hslot⟩ : ∃ slot, (Sample.single.steps Sample.sendStarted).qps 0 = some slot := by
    cases hslot : (Sample.single.steps Sample.sendStarted).qps 0 with
    | none =>
      rw [hslot] at hlive
      cases hlive
    | some slot => exact ⟨slot, rfl⟩
  rw [hslot] at hlive
  exact ⟨slot, hslot, hlive,
    ((accepted_work_succeeds (Sample.single_reachable Sample.sendStarted)).1 0 slot hslot).1⟩

end Rocev2.Rc
