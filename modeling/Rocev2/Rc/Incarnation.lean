import Rocev2.Rc.Reachable

/-!
# Packets of dead incarnations

A queue pair that is reset, or removed and created again, starts a new life in the same slot.  What
the slot sends afterwards should belong to the new life.  This holds of data packets: a reset drops
all work, only an idle queue pair can be removed, so every later request was posted and every later
READ response was asked for since (`Current`).

Replies are different.  They wait in one queue for the whole endpoint, which no reset or removal
touches: a reply that waits when its queue pair is reset is sent afterwards
(`reply_of_dead_incarnation`).  When no such reply waits, nothing of the old life is sent, in any
run (`dead_incarnation_silent`).
-/

namespace Rocev2.Rc

open Rocev2.Core Rocev2.Wire Rocev2.Memory Rocev2.Lib

variable {QPS MRS SQ RQ CQ IDX : ℕ}

/-! ## Where data packets come from -/

def Asked (i : Fin QPS) (arrivals : List (Arrival MRS SQ RQ CQ)) (response : ReadResponseState) :
    Prop :=
  ∃ arrival ∈ arrivals, arrival.slot = i.val ∧ arrival.packet.bth.opcode = .rdmaReadRequest ∧
    arrival.packet.bth.psn = response.requestPsn

/-- All that a queue pair has to send was posted, or asked for by one of the given packets. -/
structure Current (i : Fin QPS) (posted : WorkRequest → Prop)
    (arrivals : List (Arrival MRS SQ RQ CQ)) (qp : QpTransport MRS SQ RQ CQ) : Prop where
  sends : ∀ work ∈ qp.sendPending, posted work
  reads : ∀ response, qp.readResponse = some response → Asked i arrivals response

section Steps

variable {i : Fin QPS} {posted posted' : WorkRequest → Prop}
  {arrivals arrivals' : List (Arrival MRS SQ RQ CQ)} {qp qp' : QpTransport MRS SQ RQ CQ}
  {memory : MemoryRegistry MRS} {event : QpEvent} {copies : List (ℕ × List UInt8)}
  {reply : Option ControlReply} {response : ReadResponseState}

theorem Current.mono (h : Current i posted arrivals qp)
    (hposted : ∀ work, posted work → posted' work) (harrivals : arrivals ⊆ arrivals') :
    Current i posted' arrivals' qp where
  sends work hmem := hposted work (h.sends work hmem)
  reads response hread := by
    obtain ⟨arrival, hmem, hasked⟩ := h.reads response hread
    exact ⟨arrival, harrivals hmem, hasked⟩

theorem QpTransport.Idle.current (h : qp.Idle) : Current i posted arrivals qp where
  sends work hmem := by
    rw [sendPending, h.active, h.sends] at hmem
    cases hmem
  reads response hread := nomatch h.read.symm.trans hread

theorem QpEvent.record_append (event : QpEvent) (slot : ℕ) (qp : QpTransport MRS SQ RQ CQ)
    (reply : Option ControlReply) (old arrivals : List (Arrival MRS SQ RQ CQ)) :
    event.record slot qp reply (old ++ arrivals) = old ++ event.record slot qp reply arrivals := by
  cases event <;> first | rfl | exact List.append_assoc _ _ _

theorem QpEvent.subset_record (event : QpEvent) (slot : ℕ) (qp : QpTransport MRS SQ RQ CQ)
    (reply : Option ControlReply) (arrivals : List (Arrival MRS SQ RQ CQ)) :
    arrivals ⊆ event.record slot qp reply arrivals := by
  have happend := event.record_append slot qp reply arrivals []
  rw [List.append_nil] at happend
  rw [happend]
  exact List.subset_append_left _ _

theorem QpStep.mem_sendPending (h : QpStep memory qp event copies qp' reply) (hb : Balanced qp)
    {work : WorkRequest} (hmem : work ∈ qp'.sendPending) :
    work ∈ qp.sendPending ∨ ∃ works, event = .postWork works ∧ work ∈ works := by
  cases hcall : event.isQueueCall with
  | false =>
    obtain ⟨sent, received, reports, hsettles⟩ := h.settles hb hcall
    rw [hsettles.sends]
    exact .inl (List.mem_append_right _ hmem)
  | true =>
    cases h with
    | start | sent | readSent | request | response | timeout
    | rnrExpired | transition | reconfigure => cases hcall
    | postWork hstate hqueue =>
      rw [sendPending_workPosted hqueue] at hmem
      exact (List.mem_append.mp hmem).imp_right fun hposted ↦ ⟨_, rfl, hposted⟩
    | postReceive => exact .inl hmem
    | poll hpoll =>
      obtain ⟨queue, -, rfl⟩ := pollQp_eq_some hpoll
      exact .inl hmem

open QpTransport in
theorem readResponse_sendWritten (qp : QpTransport MRS SQ RQ CQ) (psn : Psn)
    (work : RecvWorkRequest) (total : ℕ) (final : Bool) :
    (qp.sendWritten psn work total final).readResponse = qp.readResponse := by
  unfold QpTransport.sendWritten
  split <;>
    dsimp only [receiveFinished, resolved, setInboundMemory, nextMessage, setInbound, observe]

open QpTransport in
theorem readResponse_writeWritten (qp : QpTransport MRS SQ RQ CQ) (psn : Psn) (address : UInt64)
    (rkey length : UInt32) (total : ℕ) (final : Bool) :
    (qp.writeWritten psn address rkey length total final).readResponse = qp.readResponse := by
  unfold QpTransport.writeWritten
  split <;> dsimp only [setInboundMemory, nextMessage, setInbound, observe]

theorem RequestEffect.reads {packet : PacketRef}
    (h : RequestEffect qp memory packet copies qp' reply)
    (hread : qp'.readResponse = some response) :
    qp.readResponse = some response ∨
      packet.bth.opcode = .rdmaReadRequest ∧ packet.bth.psn = response.requestPsn := by
  cases h with
  | future | duplicate | replayNotReady | sendNotReady | readNotReady => exact .inl hread
  | replayFatal | fatal | receiveFailed => exact nomatch (stopped_failed _).read.symm.trans hread
  | sendRejected =>
    exact nomatch ((stopped_failed _).receiveFinished _ _ _).read.symm.trans hread
  | replay hpsn hop | read lease hpsn hop =>
    cases hread
    exact .inr ⟨hop, rfl⟩
  | send hpsn hop hload =>
    rw [readResponse_sendWritten] at hread
    cases hload <;> exact .inl hread
  | write hpsn hop hload =>
    rw [readResponse_writeWritten] at hread
    cases hload <;> exact .inl hread

theorem QpStep.reads (h : QpStep memory qp event copies qp' reply)
    (hread : qp'.readResponse = some response) :
    (∃ old, qp.readResponse = some old ∧ old.requestPsn = response.requestPsn) ∨
      ∃ packet, event = .request packet ∧ packet.bth.opcode = .rdmaReadRequest ∧
        packet.bth.psn = response.requestPsn := by
  have hsame : qp'.readResponse = qp.readResponse →
      ∃ old, qp.readResponse = some old ∧ old.requestPsn = response.requestPsn :=
    fun heq ↦ ⟨response, heq.symm.trans hread, rfl⟩
  have hframe : Stopped qp' ∨ SameResponder qp qp' →
      ∃ old, qp.readResponse = some old ∧ old.requestPsn = response.requestPsn := by
    rintro (hstopped | hsameResponder)
    · exact nomatch hstopped.read.symm.trans hread
    · exact hsame hsameResponder.read
  cases h with
  | start heffect => exact .inl (hsame (by cases heffect <;> rfl))
  | sent => exact .inl (hsame (by unfold markRequestPacketSent; split <;> rfl))
  | readSent =>
    refine .inl ?_
    unfold QpTransport.readAdvanced at hread
    split at hread
    · exact ⟨response, hread, rfl⟩
    · rename_i active hactive
      split at hread
      · cases hread
      · cases hread
        exact ⟨active, hactive, rfl⟩
  | request hready heffect =>
    exact (heffect.reads hread).imp (fun hold ↦ ⟨response, hold, rfl⟩) fun hnew ↦ ⟨_, rfl, hnew⟩
  | response hready heffect => exact .inl (hframe heffect.frame)
  | timeout hretry => exact .inl (hframe hretry.frame)
  | rnrExpired => exact .inl (hsame rfl)
  | @transition destination =>
    cases destination with
    | error | reset => cases hread
    | init | rtr | rts | sqd | sqe => exact .inl (hsame rfl)
  | reconfigure => cases hread
  | postWork | postReceive => exact .inl (hsame rfl)
  | poll hpoll =>
    obtain ⟨queue, -, rfl⟩ := pollQp_eq_some hpoll
    exact .inl (hsame rfl)

/-- **One step of a queue pair** adds what is posted and what is asked for. -/
theorem QpStep.current (h : QpStep memory qp event copies qp' reply) (hb : Balanced qp)
    (hposted : ∀ works, event = .postWork works → ∀ work ∈ works, posted work)
    (hold : Current i posted arrivals qp) :
    Current i posted (event.record i.val qp reply arrivals) qp' where
  sends work hmem := by
    rcases h.mem_sendPending hb hmem with hpending | ⟨works, hevent, hwork⟩
    · exact hold.sends work hpending
    · exact hposted works hevent work hwork
  reads response hread := by
    rcases h.reads hread with ⟨old, hold', hpsn⟩ | ⟨packet, rfl, hop, hpsn⟩
    · obtain ⟨arrival, hmem, hslot, hopcode, harrival⟩ := hold.reads old hold'
      exact ⟨arrival, event.subset_record _ _ _ _ hmem, hslot, hopcode, harrival.trans hpsn⟩
    · exact ⟨⟨i.val, qp, packet, reply⟩, List.mem_append_right _ List.mem_cons_self, rfl, hop, hpsn⟩

end Steps

/-! ## The engine since the end of an incarnation -/

/-- What has happened to a slot since the engine had the given logs: all it has to send is new, and
so is all that the backend has accepted of it. -/
def Renewed (i : Fin QPS) (posted : WorkRequest → Prop) (old : List (Arrival MRS SQ RQ CQ))
    (done : List (DataTxClass × Fin QPS × QpTransport MRS SQ RQ CQ))
    (e : Engine QPS MRS SQ RQ CQ) : Prop :=
  ∃ arrivals accepted, e.arrivals = old ++ arrivals ∧ e.accepted = done ++ accepted ∧
    (∀ qp, e.qps i = some qp → Current i posted arrivals qp) ∧
    ∀ kind qp, (kind, i, qp) ∈ accepted → qp.HasPacket kind ∧ Current i posted arrivals qp

section Renewed

variable {i : Fin QPS} {posted posted' : WorkRequest → Prop} {old : List (Arrival MRS SQ RQ CQ)}
  {done : List (DataTxClass × Fin QPS × QpTransport MRS SQ RQ CQ)}
  {e e' : Engine QPS MRS SQ RQ CQ}

theorem Renewed.mono (h : Renewed i posted old done e)
    (hposted : ∀ work, posted work → posted' work) : Renewed i posted' old done e := by
  obtain ⟨arrivals, accepted, harrivals, haccepted, hqp, hentries⟩ := h
  refine ⟨arrivals, accepted, harrivals, haccepted, fun qp hmem ↦ (hqp qp hmem).mono hposted
    (List.Subset.refl _), fun kind qp hmem ↦ ?_⟩
  obtain ⟨hpacket, hcurrent⟩ := hentries kind qp hmem
  exact ⟨hpacket, hcurrent.mono hposted (List.Subset.refl _)⟩

theorem EngineStep.renewed {event : EngineEvent QPS} (h : EngineStep e event e') (hinv : e.Inv)
    (hposted : ∀ works, event = .qp i (.postWork works) → ∀ work ∈ works, posted work)
    (hold : Renewed i posted old done e) : Renewed i posted old done e' := by
  obtain ⟨arrivals, accepted, harrivals, haccepted, hqps, hentries⟩ := hold
  cases h with
  | @qp index qp event copies qp' reply memory' hqp hstep hmemory hcounted =>
    have hrecord : event.record index.val qp reply e.arrivals =
        old ++ event.record index.val qp reply arrivals := by
      rw [harrivals, QpEvent.record_append]
    refine ⟨_, accepted, hrecord, haccepted, fun current hcurrent ↦ ?_, fun kind entry hmem ↦ ?_⟩
    · rcases update_eq_some hcurrent with ⟨rfl, hnew⟩ | hother
      · cases hnew
        refine hstep.current (hinv.qp i qp hqp).balanced ?_ (hqps qp hqp)
        rintro works rfl
        exact hposted works rfl
      · exact (hqps current hother).mono (fun _ ↦ id) (QpEvent.subset_record _ _ _ _ _)
    · obtain ⟨hpacket, hcurrent⟩ := hentries kind entry hmem
      exact ⟨hpacket, hcurrent.mono (fun _ ↦ id) (QpEvent.subset_record _ _ _ _ _)⟩
  | offer => exact ⟨arrivals, accepted, harrivals, haccepted, hqps, hentries⟩
  | @accept kind index qp hqp hpacket =>
    refine ⟨arrivals, accepted ++ [(kind, index, qp)], harrivals, ?_, hqps, ?_⟩
    · change e.accepted ++ _ = _
      rw [haccepted, List.append_assoc]
    intro kind' entry hmem
    rcases List.mem_append.mp hmem with hold | hnew
    · exact hentries kind' entry hold
    · cases List.mem_singleton.mp hnew
      exact ⟨hpacket, hqps _ hqp⟩
  | @create index config generation slot hfree hnew =>
    refine ⟨arrivals, accepted, harrivals, haccepted, fun current hcurrent ↦ ?_, hentries⟩
    rcases update_eq_some hcurrent with ⟨-, hslot⟩ | hother
    · cases hslot
      exact (fresh_of_new hnew).idle.current
    · exact hqps current hother
  | @remove index qp hqp hidle hpolled hreserved =>
    refine ⟨arrivals, accepted, harrivals, haccepted, fun current hcurrent ↦ ?_, hentries⟩
    rcases update_eq_some hcurrent with ⟨-, hslot⟩ | hother
    · cases hslot
    · exact hqps current hother
  | register | deregister | write =>
    exact ⟨arrivals, accepted, harrivals, haccepted, hqps, hentries⟩

end Renewed

/-! ## Operations -/

def Op.Posts (i : Fin QPS) (work : WorkRequest) : Op → Prop
  | .postWork handle posted => handle.slot = i.val ∧ posted = work
  | .postWorkBatch handle works => handle.slot = i.val ∧ work ∈ works
  | _ => False

theorem Op.Causes.posts {op : Op} {i : Fin QPS} {works : List WorkRequest}
    (h : op.Causes (.qp i (.postWork works))) {work : WorkRequest} (hmem : work ∈ works) :
    op.Posts i work := by
  generalize hevent : EngineEvent.qp i (.postWork works) = event at h
  cases h with
  | postWork hslot =>
    cases hevent
    exact ⟨hslot.symm, (List.mem_singleton.mp hmem).symm⟩
  | postWorkBatch hslot hposted =>
    cases hevent
    refine ⟨hslot.symm, ?_⟩
    rcases hposted with rfl | rfl
    · exact hmem
    · cases hmem
  | packet index ticksPerSecond =>
    rename_i decoded _ _ _
    cases hop : decoded.transport.bth.opcode.isRequest <;> simp [packetEvent, hop] at hevent
  | internal htime hinternal =>
    subst hevent
    exact hinternal.elim
  | _ => cases hevent

namespace RcEndpoint

variable (ep : RcEndpoint QPS MRS SQ RQ CQ IDX)

def caused : List (Arrival MRS SQ RQ CQ) :=
  ep.arrivals.filter fun arrival ↦ arrival.reply.isSome

/-- The replies that the backend has accepted. -/
def replied : List ControlReply :=
  ep.activity.filterMap Activity.reply

/-- The packets whose replies wait. -/
def unanswered : List (Arrival MRS SQ RQ CQ) :=
  ep.caused.drop ep.replied.length

/-- The operation ends the life of the queue pair in a slot. -/
inductive Ends (ep : RcEndpoint QPS MRS SQ RQ CQ IDX) (i : Fin QPS) : Op → Prop
  | reset {handle} (hslot : handle.slot = i.val)
      (hok : (ep.transitionQp handle .reset).2 = .ok ()) : Ends ep i (.transitionQp handle .reset)
  | remove {handle config} (hslot : handle.slot = i.val)
      (hok : (ep.removeQp handle).2 = .ok config) : Ends ep i (.removeQp handle)

/-- **Nothing of the past is sent.**  `ep` is the endpoint when an incarnation of a slot has ended,
`ep'` the endpoint after the operations `ops`. -/
structure Silent (i : Fin QPS) (ops : List Op) (ep ep' : RcEndpoint QPS MRS SQ RQ CQ IDX) :
    Prop where
  /-- The accepted replies are those that packets caused, in the same order. -/
  order : ep'.replied = (ep'.caused.take ep'.replied.length).filterMap fun arrival ↦ arrival.reply
  /-- A packet from before whose reply was accepted since had not reached the slot. -/
  replies : ∀ arrival ∈ (ep.caused.take ep'.replied.length).drop ep.replied.length,
    arrival.slot ≠ i.val
  /-- A requester packet that was accepted since belongs to a request that was posted since. -/
  requests : ∀ qp, (.requester, i, qp) ∈ ep'.engine.accepted.drop ep.engine.accepted.length →
    ∃ active, qp.activeRequest = some active ∧ ∃ op ∈ ops, op.Posts i active.work
  /-- A READ response packet that was accepted since answers a READ request that arrived since. -/
  reads : ∀ qp, (.responder, i, qp) ∈ ep'.engine.accepted.drop ep.engine.accepted.length →
    ∃ response, qp.readResponse = some response ∧
      Asked i (ep'.arrivals.drop ep.arrivals.length) response

/-! ## Runs -/

section Runs

variable {ep ep' : RcEndpoint QPS MRS SQ RQ CQ IDX} {i : Fin QPS} {op : Op}

theorem Reachable.replies (h : ep.Reachable) :
    ep.caused.filterMap (fun arrival ↦ arrival.reply) = ep.replied ++ ep.pendingControl.items := by
  have hreplies := (h.here fun _ ↦ True).logged.replies
  rw [show ep.books.owed = [] from rfl, List.append_nil] at hreplies
  rw [caused, replied, ← hreplies, List.filterMap_filter]
  refine List.filterMap_congr fun arrival _ ↦ ?_
  cases arrival.reply <;> rfl

theorem length_caused (ep : RcEndpoint QPS MRS SQ RQ CQ IDX) :
    (ep.caused.filterMap fun arrival ↦ arrival.reply).length = ep.caused.length := by
  rw [List.length_filterMap_eq_countP, List.countP_eq_length]
  exact fun arrival hmem ↦ (List.mem_filter.mp hmem).2

theorem Reachable.length_replied (h : ep.Reachable) :
    ep.replied.length = ep.caused.length - ep.pendingControl.items.length := by
  rw [← length_caused, h.replies, List.length_append, Nat.add_sub_cancel]

theorem Reachable.replied_eq (h : ep.Reachable) :
    ep.replied = (ep.caused.take ep.replied.length).filterMap fun arrival ↦ arrival.reply := by
  have hsplit : ep.caused.filterMap (fun arrival ↦ arrival.reply) =
      (ep.caused.take ep.replied.length).filterMap (fun arrival ↦ arrival.reply) ++
        (ep.caused.drop ep.replied.length).filterMap fun arrival ↦ arrival.reply := by
    rw [← List.filterMap_append, List.take_append_drop]
  rw [h.replies] at hsplit
  refine (List.append_inj hsplit ?_).1
  have hlength := h.length_replied
  rw [List.length_filterMap_eq_countP, List.countP_eq_length.mpr, List.length_take]
  · omega
  · exact fun arrival hmem ↦ (List.mem_filter.mp (List.mem_of_mem_take hmem)).2

theorem idle_moved_reset (qp : QpTransport MRS SQ RQ CQ) : (qp.moved .reset).Idle :=
  ⟨rfl, rfl, rfl, rfl, rfl⟩

/-- The end of an incarnation leaves nothing to send in the slot, and the replies as they are. -/
theorem Ends.over (hends : ep.Ends i op) (h : ep.Reachable) :
    (∀ qp, (ep.step op).engine.qps i = some qp → qp.Idle) ∧ (ep.step op).arrivals = ep.arrivals ∧
      (ep.step op).pendingControl = ep.pendingControl := by
  cases hends with
  | @reset handle hslot hok =>
    change (∀ qp, (ep.transitionQp handle .reset).1.engine.qps i = some qp → qp.Idle) ∧
      (ep.transitionQp handle .reset).1.arrivals = _ ∧
      (ep.transitionQp handle .reset).1.pendingControl = _
    rcases ep.transitionQp_cases handle .reset with
      ⟨e, hrefused, -⟩ | ⟨index, slot, ctx, generated, hindex, htransition, hmoved⟩
    · rw [hrefused] at hok
      cases hok
    rw [hmoved]
    obtain ⟨hlive, hnumber, -⟩ := QpHandle.find_eq_some.mp hindex
    obtain rfl : index = i := Fin.ext (hnumber.trans hslot)
    obtain ⟨-, hqp, -⟩ := transitionContext_spec htransition ((h.here fun _ ↦ True).counted hlive)
    obtain ⟨-, -, -, harrivals, hpending, -⟩ :=
      frame_synchronizeQp (ep.restore index slot ctx) index
    refine ⟨fun qp hmem ↦ ?_, harrivals, hpending⟩
    change ((ep.restore index slot ctx).synchronizeQp index).engine.qps index = some qp at hmem
    have hrestored : (ep.restore index slot ctx).qps index =
        some { slot with toQpTransport := ctx.qp } := Function.update_self ..
    rw [Holds.engine_synchronizeQp, Holds.engine_qps hrestored] at hmem
    cases hmem
    rw [hqp]
    exact idle_moved_reset _
  | @remove handle config hslot hok =>
    obtain ⟨index, slot, hindex, -, hremoved⟩ := exists_of_removeQp hok
    obtain ⟨-, hnumber, -⟩ := QpHandle.find_eq_some.mp hindex
    obtain rfl : index = i := Fin.ext (hnumber.trans hslot)
    change (∀ qp, (ep.removeQp handle).1.engine.qps index = some qp → qp.Idle) ∧
      (ep.removeQp handle).1.arrivals = _ ∧ (ep.removeQp handle).1.pendingControl = _
    rw [hremoved]
    obtain ⟨-, -, -, harrivals, hpending, -⟩ := frame_synchronizeQp { ep with
      qps := Function.update ep.qps index none
      qpnIndex := (ep.qpnIndex.remove slot.machine.config.localQpn).1 } index
    refine ⟨fun qp hmem ↦ ?_, harrivals, hpending⟩
    rw [Holds.engine_synchronizeQp] at hmem
    obtain ⟨slot', hslot', -⟩ := Holds.engine_qps_eq_some hmem
    dsimp only at hslot'
    rw [Function.update_self] at hslot'
    cases hslot'

/-- **A run of operations** adds what is posted and what is asked for. -/
theorem Reachable.renewed (h : ep.Reachable)
    (hidle : ∀ qp, ep.engine.qps i = some qp → qp.Idle) (ops : List Op) :
    Renewed i (fun work ↦ ∃ op ∈ ops, op.Posts i work) ep.engine.arrivals ep.engine.accepted
      (ep.steps ops).engine := by
  induction ops using List.reverseRecOn with
  | nil =>
    exact ⟨[], [], (List.append_nil _).symm, (List.append_nil _).symm,
      fun qp hqp ↦ (hidle qp hqp).current,
      fun _ _ hmem ↦ absurd hmem List.not_mem_nil⟩
  | append_singleton ops op ih =>
    have hbefore := h.steps ops
    rw [show ep.steps (ops ++ [op]) = (ep.steps ops).step op from List.foldl_append]
    have hrun := hbefore.engine_run op
    have hstart : Renewed i (fun work ↦ ∃ current ∈ ops ++ [op], current.Posts i work)
        ep.engine.arrivals ep.engine.accepted (ep.steps ops).engine := by
      refine ih.mono ?_
      rintro work ⟨current, hmem, hposts⟩
      exact ⟨current, List.mem_append_left _ hmem, hposts⟩
    refine (Lib.Run.invariant (I := fun e ↦ e.Inv ∧ Renewed i
      (fun work ↦ ∃ current ∈ ops ++ [op], current.Posts i work) ep.engine.arrivals
        ep.engine.accepted e) ?_ hrun ⟨hbefore.inv, hstart⟩).2
    rintro e e' event hcauses hstep ⟨hinv, hrenewed⟩
    refine ⟨hstep.inv hinv, hstep.renewed hinv ?_ hrenewed⟩
    rintro works rfl work hmem
    exact ⟨op, List.mem_append_right _ List.mem_cons_self, hcauses.posts hmem⟩

end Runs

end RcEndpoint

/-- **No packet of a dead incarnation is sent**, in every run that begins with a reset or a removal
at which no reply for a packet to the slot waits. -/
theorem dead_incarnation_silent {ep : RcEndpoint QPS MRS SQ RQ CQ IDX} (h : ep.Reachable)
    {i : Fin QPS} {op : Op} (hends : ep.Ends i op)
    (hanswered : ∀ arrival ∈ ep.unanswered, arrival.slot ≠ i.val) (ops : List Op) :
    RcEndpoint.Silent i ops (ep.step op) ((ep.step op).steps ops) := by
  obtain ⟨hidle, harrivals, hpending⟩ := hends.over h
  have hover := h.step op
  obtain ⟨later, accepted, hlater, haccepted, -, hentries⟩ := hover.renewed hidle ops
  have hcaused : (ep.step op).caused = ep.caused := congrArg (List.filter _) harrivals
  have hreplied : (ep.step op).replied.length = ep.replied.length := by
    rw [hover.length_replied, h.length_replied, hcaused, hpending]
  refine ⟨(hover.steps ops).replied_eq, fun arrival hmem ↦ hanswered arrival ?_, ?_, ?_⟩
  · rw [hcaused, hreplied, List.drop_take] at hmem
    exact List.mem_of_mem_take hmem
  · intro qp hmem
    rw [haccepted, List.drop_left] at hmem
    obtain ⟨⟨active, hactive⟩, hcurrent⟩ := hentries _ qp hmem
    refine ⟨active, hactive, hcurrent.sends _ ?_⟩
    rw [sendPending_of_active hactive]
    exact List.mem_cons_self
  · intro qp hmem
    rw [haccepted, List.drop_left] at hmem
    obtain ⟨⟨response, hresponse⟩, hcurrent⟩ := hentries _ qp hmem
    refine ⟨response, hresponse, ?_⟩
    rw [show ((ep.step op).steps ops).arrivals = _ from hlater, show (ep.step op).arrivals =
      (ep.step op).engine.arrivals from rfl, List.drop_left]
    exact hcurrent.reads response hresponse

/-- A SEND arrives for which no receive work request is posted, while the backend accepts no
packet: its receiver-not-ready NAK waits. -/
def replyWaits : List Op :=
  Sample.ready 1 1 ++
    [.progress 0 ⟨1500, 1500, .datagram
      (Sample.packet .sendOnly 0 none none [1, 2, 3, 4]).encodedLength
      (Sample.decoded (Sample.packet .sendOnly 0 none none [1, 2, 3, 4])), false⟩]

/-- The backend has accepted the reply, and one packet of a SEND of three. -/
def interrupted : List Op :=
  replyWaits ++ [Sample.polls 0 true, .postWork Sample.handle ⟨1, .send, Sample.sge 600, true⟩,
    Sample.polls 0 true]

/-- The queue pair is made ready again, and sends a packet. -/
def restarted : List Op :=
  [.transitionQp Sample.handle .init, .transitionQp Sample.handle .rtr,
    .transitionQp Sample.handle .rts, .postWork Sample.handle ⟨2, .send, Sample.sge 4, true⟩,
    Sample.polls 0 true]

theorem single_ends (ops : List Op)
    (hok : ((Sample.single.steps ops).transitionQp Sample.handle .reset).2 = .ok ()) :
    (Sample.single.steps ops).Ends 0 (.transitionQp Sample.handle .reset) :=
  .reset rfl hok

theorem dead_incarnation_silent_interrupted :
    let ep := (Sample.single.steps interrupted).step (.transitionQp Sample.handle .reset)
    ep.engine.accepted.length = 1 ∧ (ep.steps restarted).engine.accepted.length = 2 ∧
      RcEndpoint.Silent 0 restarted ep (ep.steps restarted) := by
  refine ⟨by decide +kernel, by decide +kernel, dead_incarnation_silent
    (Sample.single_reachable _) (single_ends _ (by decide +kernel)) ?_ _⟩
  have hnone : (Sample.single.steps interrupted).unanswered.length = 0 := by decide +kernel
  rw [List.length_eq_zero_iff.mp hnone]
  exact fun _ hmem ↦ absurd hmem List.not_mem_nil

/-- **The reply of a dead incarnation is sent.**  The queue pair is reset while a reply waits, and
the next progress call hands the reply to the backend. -/
theorem reply_of_dead_incarnation : ∃ (ep : RcEndpoint 1 1 2 2 4 2) (op : Op) (ops : List Op),
    ep.Reachable ∧ ep.Ends 0 op ∧
      ¬RcEndpoint.Silent 0 ops (ep.step op) ((ep.step op).steps ops) := by
  refine ⟨Sample.single.steps replyWaits, _, [Sample.polls 0 true], Sample.single_reachable _,
    single_ends _ (by decide +kernel), fun hsilent ↦ ?_⟩
  have hslots : ((((Sample.single.steps replyWaits).step
      (.transitionQp Sample.handle .reset)).caused.take
        (((Sample.single.steps replyWaits).step (.transitionQp Sample.handle .reset)).steps
          [Sample.polls 0 true]).replied.length).drop
        ((Sample.single.steps replyWaits).step
          (.transitionQp Sample.handle .reset)).replied.length).map (fun arrival ↦ arrival.slot) =
      [0] := by
    decide +kernel
  obtain ⟨arrival, hmem, hslot⟩ := List.mem_map.mp (hslots ▸ List.mem_cons_self)
  exact hsilent.replies arrival hmem hslot

end Rocev2.Rc
