import Mathlib.Data.List.Forall2
import Rocev2.Rc.CumulativeAck

/-!
# Assembling a READ

The responses to a READ are counted.  A response is written when its PSN, its opcode and its length
are those of the count, and every start or restart of the request sets the count to zero, while the
send window keeps what earlier attempts have acknowledged.

`Stream` is the life of a queue pair: any packets, expired timers and calls, in any order.  Over any
stream, the count of an active READ is the number of responses written since the request last began,
and these are the responses of the positions before the count, in order (`Stream.assembled`).
`read_assembled` draws the conclusion for a READ that succeeds.
-/

namespace Rocev2.Rc

open Rocev2.Core Rocev2.Wire Rocev2.Memory

variable {QPS MRS SQ RQ CQ IDX : ℕ}

/-! ## Streams -/

/-- Something that happens to a queue pair, and what it copies into registered memory. -/
structure Happening (MRS SQ RQ CQ : ℕ) where
  before : QpTransport MRS SQ RQ CQ
  event : QpEvent
  copies : List (ℕ × List UInt8)
  after : QpTransport MRS SQ RQ CQ

/-- What happens to a queue pair, oldest first.  Nothing is assumed of registered memory, which may
change at any time. -/
inductive Stream (qp₀ : QpTransport MRS SQ RQ CQ) :
    List (Happening MRS SQ RQ CQ) → QpTransport MRS SQ RQ CQ → Prop
  | nil : Stream qp₀ [] qp₀
  | snoc {stream qp memory event copies qp' reply} (hstream : Stream qp₀ stream qp)
      (hstep : QpStep memory qp event copies qp' reply) :
      Stream qp₀ (stream ++ [⟨qp, event, copies, qp'⟩]) qp'

namespace Happening

/-- The active request starts, or starts again: an expired timer or a sequence NAK, after which it
is still active. -/
def begins (h : Happening MRS SQ RQ CQ) : Bool :=
  match h.event with
  | .start _ => h.before.activeRequest.isNone && h.after.activeRequest.isSome
  | .timeout _ | .rnrExpired _ => h.after.activeRequest.isSome
  | .response packet _ _ =>
    packet.aeth.any (fun aeth ↦ decide (aeth.classify = .nak .psnSequenceError)) &&
      h.after.activeRequest.isSome
  | _ => false

/-- A response is written to registered memory. -/
def accepted (h : Happening MRS SQ RQ CQ) : Bool :=
  match h.event with
  | .response _ _ _ => !h.copies.isEmpty
  | _ => false

/-- The packet of a happening, with the state that met it. -/
def met (h : Happening MRS SQ RQ CQ) : Option (QpTransport MRS SQ RQ CQ × PacketRef) :=
  h.event.packet.map fun packet ↦ (h.before, packet)

end Happening

variable (active : ActiveRequest)

/-- The response of position `k` to a READ: its PSN, opcode and length are those of the position,
and it is written at the offset of the position. -/
def IsResponse (mtu k : ℕ) (h : Happening MRS SQ RQ CQ) : Prop :=
  ∃ packet now ticksPerSecond, h.event = .response packet now ticksPerSecond ∧
    packet.bth.psn = active.firstPsn.wrappingAdd k ∧
    packet.bth.opcode = segmentedOpcode .readResponse k active.packetCount ∧
    segmentBounds active.work.sge.length mtu k = some (k * mtu, packet.payload.length) ∧
    h.copies = [(active.work.sge.address.toNat + k * mtu, packet.payload)]

/-- The responses that were written since the request last began are those of the first `count`
positions, in order. -/
def Assembled (mtu count : ℕ) (stream : List (Happening MRS SQ RQ CQ)) :
    Prop :=
  ∃ early beginning late, stream = early ++ beginning :: late ∧ beginning.begins = true ∧
    (∀ h ∈ late, h.begins = false) ∧
    List.Forall₂ (IsResponse active mtu) (List.range count) (late.filter Happening.accepted)

/-- Two states of one request. -/
structure SameRequest (active active' : ActiveRequest) : Prop where
  work : active'.work = active.work
  firstPsn : active'.firstPsn = active.firstPsn
  packetCount : active'.packetCount = active.packetCount

theorem SameRequest.refl : SameRequest active active := ⟨rfl, rfl, rfl⟩

section Steps

variable {active active' : ActiveRequest} {mtu count : ℕ}
  {stream : List (Happening MRS SQ RQ CQ)} {h : Happening MRS SQ RQ CQ}
  {qp qp' : QpTransport MRS SQ RQ CQ} {memory : MemoryRegistry MRS} {event : QpEvent}
  {copies : List (ℕ × List UInt8)} {reply : Option ControlReply}

theorem IsResponse.congr {k : ℕ} (hresponse : IsResponse active mtu k h)
    (hsame : SameRequest active active') : IsResponse active' mtu k h := by
  unfold IsResponse at hresponse ⊢
  rw [hsame.work, hsame.firstPsn, hsame.packetCount]
  exact hresponse

theorem Assembled.begun (hbegins : h.begins = true) : Assembled active mtu 0 (stream ++ [h]) :=
  ⟨stream, h, [], rfl, hbegins, fun _ hmem ↦ absurd hmem List.not_mem_nil, .nil⟩

theorem Assembled.extend {count' : ℕ} (hassembled : Assembled active mtu count stream)
    (hbegins : h.begins = false)
    (hnext : ∀ accepted, List.Forall₂ (IsResponse active mtu) (List.range count) accepted →
      List.Forall₂ (IsResponse active' mtu) (List.range count')
        (accepted ++ [h].filter Happening.accepted)) :
    Assembled active' mtu count' (stream ++ [h]) := by
  obtain ⟨early, beginning, late, rfl, hbeginning, hlate, hresponses⟩ := hassembled
  refine ⟨early, beginning, late ++ [h], by simp, hbeginning,
    List.forall_mem_append.mpr ⟨hlate, List.forall_mem_singleton.mpr hbegins⟩, ?_⟩
  rw [List.filter_append]
  exact hnext _ hresponses

theorem Assembled.skip (hassembled : Assembled active mtu count stream)
    (hsame : SameRequest active active') (hbegins : h.begins = false)
    (haccepted : h.accepted = false) : Assembled active' mtu count (stream ++ [h]) := by
  refine hassembled.extend hbegins fun accepted hresponses ↦ ?_
  rw [List.filter_cons_of_neg (by rw [haccepted]; decide), List.filter_nil, List.append_nil]
  exact hresponses.imp fun _ _ hresponse ↦ hresponse.congr hsame

theorem Assembled.next (hassembled : Assembled active mtu count stream)
    (hsame : SameRequest active active') (hbegins : h.begins = false)
    (haccepted : h.accepted = true) (hresponse : IsResponse active mtu count h) :
    Assembled active' mtu (count + 1) (stream ++ [h]) := by
  refine hassembled.extend hbegins fun accepted hresponses ↦ ?_
  rw [List.filter_cons_of_pos haccepted, List.filter_nil, List.range_succ]
  exact List.rel_append (hresponses.imp fun _ _ hold ↦ hold.congr hsame)
    (.cons (hresponse.congr hsame) .nil)

/-- What one step does to an active READ. -/
inductive ReadProgress (active' : ActiveRequest) (h : Happening MRS SQ RQ CQ) : Prop
  /-- The request begins. -/
  | begun (hbegins : h.begins = true) (hzero : active'.readPacketsReceived = 0)
  /-- The step does not concern the count. -/
  | same {active : ActiveRequest} (hactive : h.before.activeRequest = some active)
      (hsame : SameRequest active active')
      (hcount : active'.readPacketsReceived = active.readPacketsReceived)
      (hbegins : h.begins = false) (haccepted : h.accepted = false)
  /-- The next response is written. -/
  | response {active : ActiveRequest} (hactive : h.before.activeRequest = some active)
      (hsame : SameRequest active active')
      (hcount : active'.readPacketsReceived = active.readPacketsReceived + 1)
      (hbegins : h.begins = false) (haccepted : h.accepted = true)
      (hresponse : IsResponse active h.before.mtu active.readPacketsReceived h)

theorem any_eq_false_of_quiet {aeth : Option Aeth} (hquiet : negativeAeth aeth = none) :
    aeth.any (fun aeth ↦ decide (aeth.classify = .nak .psnSequenceError)) = false := by
  cases aeth with
  | none => rfl
  | some aeth =>
    rw [negativeAeth, Option.filter_some] at hquiet
    refine decide_eq_false fun hclass ↦ ?_
    rw [hclass] at hquiet
    cases hquiet

theorem RetryEffect.zero (heffect : RetryEffect qp qp') (hactive : qp.activeRequest ≠ none)
    (hactive' : qp'.activeRequest = some active') : active'.readPacketsReceived = 0 := by
  cases heffect with
  | idle hnone => exact absurd hnone hactive
  | retried =>
    cases hactive'
    rfl
  | exhausted => cases hactive'

theorem activeRequest_succeeded (hactive : qp.activeRequest = some active) (window : SendWindow)
    (byteLen : ℕ) : ((qp.setWindow window).activeFinished .success byteLen).activeRequest = none :=
  congrArg Requester.active (requester_activeSucceeded hactive window byteLen)

theorem ResponseEffect.readProgress {packet : PacketRef} {now ticksPerSecond : ℕ}
    (heffect : ResponseEffect qp memory packet now ticksPerSecond copies qp')
    (hactive' : qp'.activeRequest = some active') (hkind' : active'.work.kind.isRead = true) :
    ReadProgress active' ⟨qp, .response packet now ticksPerSecond, copies, qp'⟩ := by
  have hbegins : negativeAeth packet.aeth = none → Happening.begins
      (⟨qp, .response packet now ticksPerSecond, copies, qp'⟩ : Happening MRS SQ RQ CQ) =
        false := by
    intro hquiet
    unfold Happening.begins
    dsimp only
    rw [any_eq_false_of_quiet hquiet]
    rfl
  cases heffect with
  | ignored hquiet =>
    rcases hquiet with hnone | hquiet
    · cases hnone.symm.trans hactive'
    · exact .same hactive' (.refl _) rfl (hbegins hquiet) rfl
  | failed => cases hactive'
  | retry haeth hclass hretry =>
    refine .begun ?_ (hretry.zero ?_ hactive')
    · unfold Happening.begins
      dsimp only
      rw [haeth, hactive', Option.any_some, hclass]
      rfl
    · intro hnone
      cases hretry with
      | idle => cases hnone.symm.trans hactive'
      | retried hactive => cases hnone.symm.trans hactive
      | exhausted hactive => cases hnone.symm.trans hactive
  | delayed hactive haeth hclass =>
    cases hactive'
    refine .same hactive ⟨rfl, rfl, rfl⟩ rfl ?_ rfl
    unfold Happening.begins
    dsimp only
    rw [haeth, Option.any_some, hclass]
    rfl
  | acked active hactive hacks =>
    cases hactive'
    cases hacks.kind.symm.trans hkind'
  | ackCompleted hactive =>
    cases (activeRequest_succeeded hactive _ _).symm.trans hactive'
  | read active hactive hlands hpart =>
    cases hactive'
    have hoffset := offset_of_segmentBounds hlands.bounds
    subst hoffset
    exact .response hactive ⟨rfl, rfl, rfl⟩ rfl (hbegins hlands.quiet) rfl
      ⟨packet, now, ticksPerSecond, rfl, hlands.psn, hlands.op, hlands.bounds, rfl⟩
  | readCompleted hactive =>
    cases (activeRequest_succeeded hactive _ _).symm.trans hactive'

theorem sameRequest_packetSent (active : ActiveRequest) (now timeoutTicks : ℕ) :
    SameRequest active (active.packetSent now timeoutTicks) ∧
      (active.packetSent now timeoutTicks).readPacketsReceived = active.readPacketsReceived := by
  unfold ActiveRequest.packetSent
  split
  · exact ⟨⟨rfl, rfl, rfl⟩, rfl⟩
  all_goals
    dsimp only
    split <;> exact ⟨⟨rfl, rfl, rfl⟩, rfl⟩

/-- **What one step does to an active READ.** -/
theorem QpStep.readProgress (hstep : QpStep memory qp event copies qp' reply)
    (hactive' : qp'.activeRequest = some active') (hkind' : active'.work.kind.isRead = true) :
    ReadProgress active' ⟨qp, event, copies, qp'⟩ := by
  cases hstep with
  | start heffect =>
    cases heffect with
    | waits => exact .same hactive' (.refl _) rfl (by simp [Happening.begins, hactive']) rfl
    | starts hnone =>
      cases hactive'
      exact .begun (by rw [Happening.begins, hnone]; rfl) rfl
  | sent now timeoutTicks hphase =>
    unfold markRequestPacketSent at hactive'
    split at hactive'
    · rename_i hnone
      cases hnone.symm.trans hactive'
    · rename_i active hactive
      cases hactive'
      obtain ⟨hsame, hcount⟩ := sameRequest_packetSent active now timeoutTicks
      exact .same hactive hsame hcount rfl rfl
  | readSent =>
    refine .same (?_ : qp.activeRequest = some active') (.refl _) rfl rfl rfl
    rw [← hactive']
    unfold QpTransport.readAdvanced
    split
    · rfl
    · split <;> rfl
  | request hready heffect =>
    rcases heffect.frame with hstopped | hframe
    · cases hstopped.active.symm.trans hactive'
    · exact .same (hframe.active.symm.trans hactive') (.refl _) rfl rfl rfl
  | response hready heffect => exact heffect.readProgress hactive' hkind'
  | timeout hretry hactive =>
    refine .begun ?_ (hretry.zero (by rw [hactive]; exact Option.some_ne_none _) hactive')
    unfold Happening.begins
    dsimp only
    rw [hactive']
    rfl
  | rnrExpired hactive =>
    cases hactive'
    exact .begun rfl rfl
  | @transition destination =>
    cases destination with
    | error | reset => cases hactive'
    | init | rtr | rts | sqd | sqe => exact .same hactive' (.refl _) rfl rfl rfl
  | reconfigure => cases hactive'
  | postWork | postReceive => exact .same hactive' (.refl _) rfl rfl rfl
  | poll hpoll =>
    obtain ⟨queue, -, rfl⟩ := pollQp_eq_some hpoll
    exact .same hactive' (.refl _) rfl rfl rfl

theorem QpStep.mtu_eq (hstep : QpStep memory qp event copies qp' reply)
    (hactive' : qp'.activeRequest = some active') : qp'.mtu = qp.mtu := by
  have hconfig := hstep.config (by
    rintro config rfl
    cases hstep
    cases hactive')
  exact congrArg (fun config ↦ config.transport.pathMtu.bytes) hconfig

/-! ## Whole streams -/

variable {config : RcQpConfig} {qp₀ : QpTransport MRS SQ RQ CQ}

theorem Stream.invariants (h : Stream qp₀ stream qp) (hfresh : Fresh config qp₀) :
    Balanced qp ∧ qp.requester.Spans := by
  induction h with
  | nil => exact ⟨hfresh.inv.balanced, hfresh.spans⟩
  | snoc _ hstep ih => exact ⟨hstep.balanced ih.1, hstep.requester.spans ih.2⟩

/-- **The count of an active READ is the number of responses that were written since the request
last began**, and they are those of the positions before the count. -/
theorem Stream.assembled (h : Stream qp₀ stream qp) (hfresh : Fresh config qp₀)
    (hactive : qp.activeRequest = some active) (hkind : active.work.kind.isRead = true) :
    Assembled active qp.mtu active.readPacketsReceived stream := by
  induction h generalizing active with
  | nil => cases hfresh.idle.active.symm.trans hactive
  | @snoc stream qp memory event copies qp' reply hstream hstep ih =>
    rw [hstep.mtu_eq hactive]
    cases hstep.readProgress hactive hkind with
    | begun hbegins hzero =>
      rw [hzero]
      exact .begun hbegins
    | @same old hold hsame hcount hbegins haccepted =>
      rw [hcount]
      exact (ih hold (hsame.work ▸ hkind)).skip hsame hbegins haccepted
    | @response old hold hsame hcount hbegins haccepted hresponse =>
      rw [hcount]
      exact (ih hold (hsame.work ▸ hkind)).next hsame hbegins haccepted hresponse

/-! ## Success -/

theorem retired_ne {retired : List RetiredRequest} {request : RetiredRequest}
    (h : retired = retired ++ [request]) : False := by
  have hlength := congrArg List.length h
  rw [List.length_append] at hlength
  exact absurd hlength (Nat.ne_of_lt (Nat.lt_succ_self _))

theorem RequesterStep.response_of_success {r r' : Requester} (h : RequesterStep r event r')
    (hretired : r'.retired = r.retired ++ [active.retired .success]) :
    ∃ packet now ticksPerSecond, event = .response packet now ticksPerSecond := by
  have hended : ∀ status ≠ CompletionStatus.success,
      r.retired ++ (r.active.map fun active ↦ active.retired status).toList ≠
        r.retired ++ [active.retired .success] := by
    intro status hstatus heq
    have hlast := List.append_cancel_left heq
    cases hactive : r.active with
    | none =>
      rw [hactive] at hlast
      cases hlast
    | some current =>
      rw [hactive] at hlast
      exact hstatus (congrArg RetiredRequest.status (List.singleton_inj.mp hlast))
  cases h with
  | keep | start | sent | retried | resume | move => exact (retired_ne hretired).elim
  | stop status hstatus => exact absurd hretired (hended status hstatus)
  | exhausted => exact absurd hretired (hended .retryExceeded (by decide))
  | restart => exact absurd hretired (hended .flushed (by decide))
  | delayed | acked | ackCompleted | read | readCompleted => exact ⟨_, _, _, rfl⟩

theorem QpStep.readCompleted (hstep : QpStep memory qp event copies qp' reply)
    (hactive : qp.activeRequest = some active) (hkind : active.work.kind.isRead = true)
    (hretired : qp'.retired = qp.retired ++ [active.retired .success]) :
    active.readPacketsReceived + 1 = active.packetCount ∧
      IsResponse active qp.mtu active.readPacketsReceived ⟨qp, event, copies, qp'⟩ ∧
      qp' = (qp.setWindow (qp.sendWindow.acknowledge
        (active.firstPsn.wrappingAdd active.readPacketsReceived)).1).activeFinished .success
          active.work.sge.length.toNat := by
  obtain ⟨packet, now, ticksPerSecond, rfl⟩ := hstep.requester.response_of_success hretired
  cases hstep with
  | response hready heffect =>
    have hfailed : ∀ status, qp' = (qp.activeFinished status 0).failed → status = .success := by
      rintro status rfl
      rw [retired_failed hactive] at hretired
      have hlast := List.append_cancel_left hretired
      exact congrArg RetiredRequest.status (List.singleton_inj.mp hlast)
    cases heffect with
    | ignored | delayed | acked | read => exact (retired_ne hretired).elim
    | failed status hactive' hstatus =>
      cases hfailed status rfl
      exact hstatus.elim
    | retry haeth hclass hretry =>
      cases hretry with
      | idle | retried => exact (retired_ne hretired).elim
      | exhausted => cases hfailed _ rfl
    | ackCompleted hactive' hacks =>
      cases hactive.symm.trans hactive'
      cases hkind.symm.trans hacks.kind
    | readCompleted hactive' hlands hall =>
      cases hactive.symm.trans hactive'
      have hoffset := offset_of_segmentBounds hlands.bounds
      subst hoffset
      rw [hlands.psn]
      exact ⟨hall, ⟨packet, now, ticksPerSecond, rfl, hlands.psn, hlands.op, hlands.bounds, rfl⟩,
        rfl⟩

end Steps

def IsReadResponse (packet : PacketRef) : Prop := packet.bth.opcode.operation = .readResponse

/-- A response that is not the next one is ignored. -/
theorem handleResponsePacket_outOfOrder {ctx : QpContext MRS SQ RQ CQ} {active : ActiveRequest}
    (hactive : ctx.qp.activeRequest = some active) (hkind : active.work.kind.isRead = true)
    {packet : PacketRef} (hop : IsReadResponse packet) (hquiet : negativeAeth packet.aeth = none)
    (hpsn : packet.bth.psn ≠ active.firstPsn.wrappingAdd active.readPacketsReceived)
    (now ticksPerSecond : ℕ) : handleResponsePacket ctx packet now ticksPerSecond = (ctx, {}) := by
  have hignored : handleReadResponse ctx packet now ticksPerSecond = (ctx, {}) := by
    unfold handleReadResponse
    rw [hactive]
    dsimp only
    rw [hkind, if_neg (by decide), hquiet]
    dsimp only
    rw [if_pos fun hequal ↦ hpsn (Psn.compare_eq_equal.mp hequal)]
  unfold handleResponsePacket
  rw [hactive, Option.isNone_some, if_neg Bool.false_ne_true]
  unfold IsReadResponse at hop
  cases hopcode : packet.bth.opcode <;> rw [hopcode] at hop <;>
    first | exact hignored | exact nomatch hop

/-- **RDMA READ assembly.**  In any stream that a queue pair sees, when a READ is active:

* it succeeds only if the responses of all positions were written in order since it last began,
  each with the PSN, the opcode, the length and the offset of its position; these tile the range of
  the request, its whole length is reported, and the send window is empty afterwards;
* a response whose PSN is not the next one changes nothing, unless it carries a NAK. -/
theorem read_assembled {config : RcQpConfig} {qp₀ qp : QpTransport MRS SQ RQ CQ}
    {stream : List (Happening MRS SQ RQ CQ)} (hfresh : Fresh config qp₀)
    (hstream : Stream qp₀ stream qp) {active : ActiveRequest}
    (hactive : qp.activeRequest = some active) (hkind : active.work.kind.isRead = true) :
    (∀ memory event copies qp' reply, QpStep memory qp event copies qp' reply →
      qp'.retired = qp.retired ++ [active.retired .success] →
      active.packetCount = packetCount active.work.sge.length qp.mtu ∧
      Assembled active qp.mtu active.packetCount (stream ++ [⟨qp, event, copies, qp'⟩]) ∧
      (∀ k < active.packetCount, ∃ size,
        segmentBounds active.work.sge.length qp.mtu k = some (k * qp.mtu, size) ∧
        k * qp.mtu + size = if k + 1 = active.packetCount then active.work.sge.length.toNat
          else (k + 1) * qp.mtu) ∧
      Finishes active .success active.work.sge.length.toNat qp qp' ∧
      qp'.sendWindow.oldestUnacknowledged = qp'.sendWindow.nextToSend) ∧
    ∀ (ctx : QpContext MRS SQ RQ CQ) (packet : PacketRef) (now ticksPerSecond : ℕ), ctx.qp = qp →
      IsReadResponse packet → negativeAeth packet.aeth = none →
      packet.bth.psn ≠ active.firstPsn.wrappingAdd active.readPacketsReceived →
      handleResponsePacket ctx packet now ticksPerSecond = (ctx, {}) := by
  obtain ⟨hb, hspans⟩ := hstream.invariants hfresh
  obtain ⟨acked, hwindow⟩ := hspans.windowed hactive
  have hmtu : 0 < qp.mtu := Nat.lt_of_lt_of_le (by decide) (PathMtu.bytes_bounds _).1
  refine ⟨fun memory event copies qp' reply hstep hretired ↦ ?_, ?_⟩
  · obtain ⟨hall, hresponse, rfl⟩ := hstep.readCompleted hactive hkind hretired
    have hcount : active.packetCount = packetCount active.work.sge.length qp.mtu := hwindow.count
    obtain ⟨packet, now, ticksPerSecond, rfl, -, -, -, hcopies⟩ := id hresponse
    have hassembled := hstream.assembled hfresh hactive hkind
    refine ⟨hcount, ?_, fun k hk ↦ ?_, ?_, ?_⟩
    · rw [← hall]
      refine hassembled.next (.refl _) ?_ ?_ hresponse
      · unfold Happening.begins
        dsimp only
        rw [activeRequest_succeeded hactive]
        exact Bool.and_false _
      · unfold Happening.accepted
        dsimp only at hcopies ⊢
        rw [hcopies]
        rfl
    · rw [hcount] at hk ⊢
      obtain ⟨size, hbounds, -⟩ := exists_segmentBounds hmtu hk
      exact ⟨size, hbounds, segmentBounds_tile hmtu hbounds hk⟩
    · have hfinishes := finishes_activeFinished (show Balanced (qp.setWindow
        (qp.sendWindow.acknowledge (active.firstPsn.wrappingAdd active.readPacketsReceived)).1) from
          ⟨hb.reserved, hb.room⟩) hactive .success active.work.sge.length.toNat
      exact ⟨hfinishes.ended, hfinishes.retired, hfinishes.reported, hfinishes.alone⟩
    · have hended := congrArg Requester.window (requester_activeSucceeded hactive
        (qp.sendWindow.acknowledge (active.firstPsn.wrappingAdd active.readPacketsReceived)).1
          active.work.sge.length.toNat)
      change QpTransport.sendWindow _ = (qp.sendWindow.acknowledge _).1 at hended
      have hlast : (qp.sendWindow.acknowledge (active.firstPsn.wrappingAdd
          active.readPacketsReceived)).1 = _ := hwindow.acknowledge_read
      rw [hended, hlast, hall, Nat.max_eq_right (Nat.le_of_lt hwindow.acked_lt)]
      rfl
  · rintro ctx packet now ticksPerSecond rfl hop hquiet hpsn
    exact handleResponsePacket_outOfOrder hactive hkind hop hquiet hpsn now ticksPerSecond

/-! ## Streams of an endpoint -/

/-- The packets that reached a slot, with the states that met them. -/
def Engine.met (e : Engine QPS MRS SQ RQ CQ) (i : Fin QPS) :
    List (QpTransport MRS SQ RQ CQ × PacketRef) :=
  (e.arrivals.filter fun arrival ↦ arrival.slot == i.val).map fun arrival ↦
    (arrival.qp, arrival.packet)

/-- **What a queue pair has seen since it was created**: its packets are the last ones that reached
its slot, and what it copied is part of what was copied into registered memory. -/
structure Saw (e : Engine QPS MRS SQ RQ CQ) (i : Fin QPS) (qp₀ : QpTransport MRS SQ RQ CQ)
    (stream : List (Happening MRS SQ RQ CQ)) (qp : QpTransport MRS SQ RQ CQ) : Prop where
  life : Stream qp₀ stream qp
  met : stream.filterMap Happening.met <:+ e.met i
  copied : (stream.flatMap Happening.copies).Sublist e.memory.copies

section Saw

variable {e e' : Engine QPS MRS SQ RQ CQ} {i : Fin QPS} {qp₀ qp qp' : QpTransport MRS SQ RQ CQ}
  {stream : List (Happening MRS SQ RQ CQ)}

theorem Saw.mono (h : Saw e i qp₀ stream qp) (hmet : e'.met i = e.met i)
    (hcopies : e.memory.copies.Sublist e'.memory.copies) : Saw e' i qp₀ stream qp :=
  ⟨h.life, hmet ▸ h.met, h.copied.trans hcopies⟩

/-- What a step of a queue pair adds to the packets of a slot. -/
theorem met_record {memory : MemoryRegistry MRS} {event : QpEvent} {index : Fin QPS}
    {qps : Fin QPS → Option (QpTransport MRS SQ RQ CQ)} (reply : Option ControlReply) :
    Engine.met { e with
        memory := memory
        qps := qps
        arrivals := event.record index.val qp reply e.arrivals } i =
      e.met i ++
        if index = i then (event.packet.map fun packet ↦ (qp, packet)).toList else [] := by
  unfold Engine.met
  dsimp only
  rw [event.record_eq, List.filter_append, List.map_append]
  by_cases hindex : index = i
  · subst hindex
    cases event <;> simp [QpEvent.record, QpEvent.packet]
  · cases event <;> simp [QpEvent.record, hindex, Fin.val_inj]

/-- One step of the engine extends what a queue pair has seen. -/
theorem EngineStep.saw {event : EngineEvent QPS} (h : EngineStep e event e') (hinv : e.Inv)
    (hs : ∀ qp, e.qps i = some qp → ∃ config qp₀ stream, Fresh config qp₀ ∧ Saw e i qp₀ stream qp) :
    ∀ qp, e'.qps i = some qp →
      ∃ config qp₀ stream, Fresh config qp₀ ∧ Saw e' i qp₀ stream qp := by
  intro current hcurrent
  have hkeep : e'.met i = e.met i → e.memory.copies.Sublist e'.memory.copies →
      e.qps i = some current →
      ∃ config qp₀ stream, Fresh config qp₀ ∧ Saw e' i qp₀ stream current := by
    intro hmet hcopies hsame
    obtain ⟨config, qp₀, stream, hfresh, hsaw⟩ := hs current hsame
    exact ⟨config, qp₀, stream, hfresh, hsaw.mono hmet hcopies⟩
  cases h with
  | @qp index qp event copies qp' reply memory' hqp hstep hmemory hcounted =>
    dsimp only at hcurrent
    by_cases hindex : index = i
    · subst hindex
      rw [Function.update_self] at hcurrent
      cases hcurrent
      obtain ⟨config, qp₀, stream, hfresh, hsaw⟩ := hs qp hqp
      refine ⟨config, qp₀, _, hfresh, hsaw.life.snoc hstep, ?_, ?_⟩
      · obtain ⟨before, hbefore⟩ := hsaw.met
        rw [met_record, if_pos rfl, ← hbefore, List.filterMap_append]
        refine ⟨before, ?_⟩
        cases event <;> simp [Happening.met, QpEvent.packet]
      · dsimp only
        rw [hmemory.copies, List.flatMap_append]
        exact hsaw.copied.append (by simp)
    · rw [Function.update_of_ne (Ne.symm hindex)] at hcurrent
      refine hkeep ?_ ?_ hcurrent
      · rw [met_record, if_neg hindex, List.append_nil]
      · dsimp only
        rw [hmemory.copies]
        exact List.sublist_append_left ..
  | offer | accept => exact hkeep rfl (.refl _) hcurrent
  | create hfree hnew =>
    rcases update_eq_some hcurrent with ⟨-, hself⟩ | hother
    · cases hself
      exact ⟨_, _, [], fresh_of_new hnew, .nil, List.nil_suffix, List.nil_sublist _⟩
    · exact hkeep rfl (.refl _) hother
  | remove =>
    rcases update_eq_some hcurrent with ⟨-, hself⟩ | hother
    · cases hself
    · exact hkeep rfl (.refl _) hother
  | @register buffer access generator =>
    have hregistered := (MemoryRegistry.registerInner_effect hinv.keyed buffer access
      generator).registered hinv.keyed
    exact hkeep rfl (hregistered.copies ▸ .refl _) hcurrent
  | @deregister handle =>
    refine hkeep rfl ?_ hcurrent
    rcases MemoryRegistry.deregister_spec e.memory handle with
      ⟨error, hsame⟩ | ⟨index, slot, data, -, -, -, hremoved⟩
    · exact hsame ▸ .refl _
    · exact hremoved ▸ .refl _
  | write hwrite =>
    have hcopied := (MemoryRegistry.copied_of_write hwrite).copies
    exact hkeep rfl (hcopied ▸ List.sublist_append_left ..) hcurrent

end Saw

/-- **Every live queue pair of a reachable endpoint has seen a stream** since it was created. -/
theorem RcEndpoint.Reachable.saw {ep : RcEndpoint QPS MRS SQ RQ CQ IDX} (h : ep.Reachable)
    {i : Fin QPS} {slot : RcQpSlot MRS SQ RQ CQ} (hslot : ep.qps i = some slot) :
    ∃ config qp₀ stream, Fresh config qp₀ ∧ Saw ep.engine i qp₀ stream slot.toQpTransport := by
  obtain ⟨ep₀, hinitial, hholds⟩ := h.holds
  refine (Lib.Run.invariant (I := fun e : Engine QPS MRS SQ RQ CQ ↦ e.Inv ∧ ∀ qp,
    e.qps i = some qp → ∃ config qp₀ stream, Fresh config qp₀ ∧ Saw e i qp₀ stream qp)
    (fun _ hstep hs ↦ ⟨hstep.inv hs.1, hstep.saw hs.1 hs.2⟩) hholds.run
    ⟨(hinitial.holds fun _ ↦ True).inv, fun qp hqp ↦ ?_⟩).2 _ (Holds.engine_qps hslot)
  rw [hinitial.qps_eq_none] at hqp
  cases hqp

def readAgain : List Op := Sample.retriedRead ++ [Sample.receives 200 Sample.readFirst]

def readLast : PacketRef :=
  ⟨Bth.new .rdmaReadResponseLast 2 (.newTruncated 1), none, some (.ack 1), List.replicate 256 1,
    .refl false, .refl true, nofun⟩

/-- The READ began again after its first response; both responses are written since then. -/
theorem read_assembled_retried : ∃ (slot : RcQpSlot 1 2 2 4) (active : ActiveRequest)
    (qp₀ : QpTransport 1 2 2 4) (stream : List (Happening 1 2 2 4)) (last : Happening 1 2 2 4),
      (Sample.single.steps readAgain).qps 0 = some slot ∧ slot.activeRequest = some active ∧
      Saw (Sample.single.steps readAgain).engine 0 qp₀ stream slot.toQpTransport ∧
      Assembled active slot.mtu 2 (stream ++ [last]) ∧
      Finishes active .success 512 slot.toQpTransport last.after := by
  have hlive : ((Sample.single.steps readAgain).qps 0).bind (fun slot ↦
      slot.activeRequest.map fun active ↦ (active.work.kind.isRead, active.packetCount,
        active.work.sge.length.toNat, slot.machine.canReceive, decide ((handleResponsePacket
          ((Sample.single.steps readAgain).context slot) readLast 200 1000).1.qp.retired =
            slot.retired ++ [active.retired .success]))) = some (true, 2, 512, true, true) := by
    decide +kernel
  obtain ⟨slot, hslot, hmap⟩ := Option.bind_eq_some_iff.mp hlive
  obtain ⟨active, hactive, heq⟩ := Option.map_eq_some_iff.mp hmap
  simp only [Prod.mk.injEq] at heq
  obtain ⟨hkind, hcount, hlength, hready, hretired⟩ := heq
  have hreachable := Sample.single_reachable readAgain
  obtain ⟨config, qp₀, stream, hfresh, hsaw⟩ := hreachable.saw hslot
  obtain ⟨copies, heffect, -⟩ :=
    handleResponsePacket_effect ((hreachable.here fun _ ↦ True).counted hslot)
  obtain ⟨-, hassembled, -, hfinishes, -⟩ := (read_assembled hfresh hsaw.life hactive hkind).1 _ _ _
    _ none (.response hready heffect) (of_decide_eq_true hretired)
  rw [hcount] at hassembled
  rw [hlength] at hfinishes
  exact ⟨slot, active, qp₀, stream, _, hslot, hactive, hsaw, hassembled, hfinishes⟩

end Rocev2.Rc
