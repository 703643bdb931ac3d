import Mathlib.Algebra.BigOperators.Group.Finset.Basic
import Mathlib.Data.Fintype.Basic
import Rocev2.Lib.Run
import Rocev2.Rc.Backing
import Rocev2.Rc.Posting
import Rocev2.Rc.Window

/-!
# The engine as a transition system

The endpoint without its schedulers: a registry, a table of queue pairs and three logs, the packets
handed to the backend, the packets that reached a queue pair and the data packets that the backend
accepted.  A step is one event of one queue pair, one packet offered to the backend or accepted by
it, or one change of the tables.  Which step comes next is not determined: a run of the engine is
any sequence of steps.

`Engine.Inv` holds in every reachable state (`EngineStep.inv`).  The endpoint refines this system
in `Rocev2.Rc.Refinement`; the results about all runs of the endpoint are proved here first.
-/

namespace Rocev2.Rc

open Rocev2.Core Rocev2.Wire Rocev2.Memory Rocev2.Lib

variable {QPS MRS SQ RQ CQ : ℕ} {qp : QpTransport MRS SQ RQ CQ}

/-- The engine: the endpoint without its schedulers. -/
structure Engine (QPS MRS SQ RQ CQ : ℕ) where
  config : RcEndpointConfig
  memory : MemoryRegistry MRS
  qps : Fin QPS → Option (QpTransport MRS SQ RQ CQ)
  generations : Fin QPS → ℕ
  offered : List WirePacket
  arrivals : List (Arrival MRS SQ RQ CQ)
  accepted : List (DataTxClass × Fin QPS × QpTransport MRS SQ RQ CQ)

/-! ## Leases of the table -/

/-- The leases of a slot of the table. -/
def leasesAt : Option (QpTransport MRS SQ RQ CQ) → Multiset (RegionLease MRS)
  | none => 0
  | some qp => qp.leases

/-- The leases of all queue pairs. -/
def heldByAll (qps : Fin QPS → Option (QpTransport MRS SQ RQ CQ)) : Multiset (RegionLease MRS) :=
  ∑ i, leasesAt (qps i)

/-- The packet of an event. -/
def QpEvent.packet : QpEvent → Option PacketRef
  | .request packet | .response packet _ _ => some packet
  | .start _ | .sent _ _ | .readSent | .timeout _ | .rnrExpired _ | .transition _
  | .reconfigure _ | .postWork _ | .postReceive _ | .poll => none

/-- The leases of all queue pairs but one. -/
def heldByOthers (qps : Fin QPS → Option (QpTransport MRS SQ RQ CQ)) (index : Fin QPS) :
    Multiset (RegionLease MRS) :=
  ∑ i ∈ Finset.univ.erase index, leasesAt (qps i)

section Leases

variable {qps : Fin QPS → Option (QpTransport MRS SQ RQ CQ)} {index : Fin QPS}

theorem heldByAll_eq (qps : Fin QPS → Option (QpTransport MRS SQ RQ CQ)) (index : Fin QPS) :
    heldByAll qps = leasesAt (qps index) + heldByOthers qps index :=
  (Finset.add_sum_erase Finset.univ (fun i ↦ leasesAt (qps i)) (Finset.mem_univ index)).symm

theorem heldByOthers_update (qp : Option (QpTransport MRS SQ RQ CQ)) :
    heldByOthers (Function.update qps index qp) index = heldByOthers qps index := by
  refine Finset.sum_congr rfl fun i hi ↦ ?_
  rw [Function.update_of_ne (Finset.ne_of_mem_erase hi)]

theorem heldByAll_update (qp : Option (QpTransport MRS SQ RQ CQ)) :
    heldByAll (Function.update qps index qp) = leasesAt qp + heldByOthers qps index := by
  rw [heldByAll_eq _ index, Function.update_self, heldByOthers_update]

theorem leases_le_heldByAll {qp : QpTransport MRS SQ RQ CQ} (h : qps index = some qp) :
    qp.leases ≤ heldByAll qps := by
  rw [heldByAll_eq qps index, h]
  exact Multiset.le_add_right _ _

end Leases

/-! ## Steps -/

def QpEvent.record (event : QpEvent) (slot : ℕ) (qp : QpTransport MRS SQ RQ CQ)
    (reply : Option ControlReply)
    (arrivals : List (Arrival MRS SQ RQ CQ)) : List (Arrival MRS SQ RQ CQ) :=
  match event with
  | .request packet | .response packet _ _ => arrivals ++ [⟨slot, qp, packet, reply⟩]
  | .start _ | .sent _ _ | .readSent | .timeout _ | .rnrExpired _
  | .transition _ | .reconfigure _ | .postWork _ | .postReceive _ | .poll => arrivals

theorem QpEvent.mem_record (event : QpEvent) {slot : ℕ} {reply : Option ControlReply}
    {arrivals : List (Arrival MRS SQ RQ CQ)} {arrival : Arrival MRS SQ RQ CQ}
    (h : arrival ∈ event.record slot qp reply arrivals) :
    arrival ∈ arrivals ∨ arrival.slot = slot ∧ arrival.qp = qp ∧ arrival.reply = reply := by
  unfold QpEvent.record at h
  split at h
  all_goals first
    | exact .inl h
    | rcases List.mem_append.mp h with hold | hnew
      · exact .inl hold
      · rw [List.mem_singleton.mp hnew]
        exact .inr ⟨rfl, rfl, rfl⟩

/-- An event of the engine. -/
inductive EngineEvent (QPS : ℕ) where
  /-- An event of a queue pair. -/
  | qp (index : Fin QPS) (event : QpEvent)
  /-- A packet is handed to the backend. -/
  | offer (packet : WirePacket)
  /-- The backend accepts a data packet of a queue pair. -/
  | accept (kind : DataTxClass) (index : Fin QPS)
  /-- A queue pair is created. -/
  | create (index : Fin QPS) (config : RcQpConfig)
  /-- A queue pair is removed. -/
  | remove (index : Fin QPS)
  /-- The application tries to register a buffer. -/
  | register (buffer : Buffer) (access : AccessFlags) (generator : Option KeyGenerator)
  /-- The application tries to remove a registration. -/
  | deregister (handle : RegionHandle)
  /-- The application writes registered memory through the checked view. -/
  | write (kind : KeyKind) (key : UInt32) (address : UInt64) (input : List UInt8)

/-- The packets that the engine may hand to the backend, with the class and the queue pair that a
data packet is of. -/
inductive Emits (e : Engine QPS MRS SQ RQ CQ) : Option (DataTxClass × Fin QPS) → WirePacket → Prop
  | /-- The next packet of the active request. -/
    request {index qp active packet} (hqp : e.qps index = some qp)
      (hactive : qp.activeRequest = some active) (hphase : active.phase = .sending)
      (hbuild : buildRequestPacket e.memory active qp.machine.config.pathMtu.bytes
        qp.machine.config.remoteQpn qp.path = .ok packet) :
      Emits e (some (.requester, index)) packet
  | /-- The next packet of the READ being answered. -/
    readResponse {index qp response address length payload} (hqp : e.qps index = some qp)
      (hready : qp.machine.canReceive = true) (hresponse : qp.readResponse = some response)
      (hsegment : readResponseSegment response qp.mtu = .ok (address, length))
      (hread : e.memory.readRemote response.rkey address length = .ok payload) :
      Emits e (some (.responder, index)) (readResponsePacket ⟨index, qp.path,
        qp.machine.config.remoteQpn, response, qp.messageSequenceNumber, qp.mtu⟩ payload)
  | /-- A reply that a packet caused. -/
    control {arrival reply} (harrival : arrival ∈ e.arrivals)
      (hreply : arrival.reply = some reply) : Emits e none (controlPacket reply)

/-- The queue pair has a packet of a class to send. -/
def QpTransport.HasPacket (qp : QpTransport MRS SQ RQ CQ) : DataTxClass → Prop
  | .requester => ∃ active, qp.activeRequest = some active
  | .responder => ∃ response, qp.readResponse = some response

/-- **The steps of the engine.** -/
inductive EngineStep : Engine QPS MRS SQ RQ CQ → EngineEvent QPS → Engine QPS MRS SQ RQ CQ → Prop
  | /-- A queue pair takes a step; the registry changes by the copies and the references. -/
    qp {e index qp event copies qp' reply memory'} (hqp : e.qps index = some qp)
      (hstep : QpStep e.memory qp event copies qp' reply)
      (hmemory : Copied e.memory copies memory')
      (hcounted : Counted memory'.refs (qp'.leases + heldByOthers e.qps index)) :
      EngineStep e (.qp index event) { e with
        memory := memory'
        qps := Function.update e.qps index (some qp')
        arrivals := event.record index.val qp reply e.arrivals }
  | /-- A packet is handed to the backend. -/
    offer {e sender packet} (hemits : Emits e sender packet) :
      EngineStep e (.offer packet) { e with offered := e.offered ++ [packet] }
  | /-- The backend accepts a packet that a queue pair sends in its current state. -/
    accept {e kind index qp} (hqp : e.qps index = some qp) (hpacket : qp.HasPacket kind) :
      EngineStep e (.accept kind index) { e with accepted := e.accepted ++ [(kind, index, qp)] }
  | /-- A free slot receives a new queue pair. -/
    create {e index config generation slot} (hfree : e.qps index = none)
      (hnew : RcQpSlot.new generation config = .ok slot) :
      EngineStep e (.create index config) { e with
        qps := Function.update e.qps index (some slot.toQpTransport)
        generations := Function.update e.generations index (nextGeneration (e.generations index)) }
  | /-- A queue pair without work and completions is removed. -/
    remove {e index qp} (hqp : e.qps index = some qp) (hidle : qp.Idle)
      (hpolled : qp.completionQueue.items = []) (hreserved : qp.completionReservations = 0) :
      EngineStep e (.remove index) { e with qps := Function.update e.qps index none }
  | /-- An attempted registration. -/
    register {e buffer access generator} :
      EngineStep e (.register buffer access generator)
        { e with memory := (e.memory.registerInner buffer access generator).1 }
  | /-- An attempted deregistration. -/
    deregister {e handle} :
      EngineStep e (.deregister handle) { e with memory := (e.memory.deregister handle).1 }
  | /-- A write of the application. -/
    write {e kind required key address input memory'}
      (hwrite : e.memory.write kind required key address input = .ok memory') :
      EngineStep e (.write kind key address input) { e with memory := memory' }

abbrev Engine.Run (allowed : EngineEvent QPS → Prop) :
    Engine QPS MRS SQ RQ CQ → Engine QPS MRS SQ RQ CQ → Prop :=
  Lib.Run EngineStep allowed

/-! ## The invariant -/

/-- What holds in every reachable state of the engine. -/
structure Engine.Inv (e : Engine QPS MRS SQ RQ CQ) : Prop where
  /-- The reference counts are the leases held by the queue pairs. -/
  counted : Counted e.memory.refs (heldByAll e.qps)
  /-- Live regions own their keys. -/
  keyed : Keyed e.memory
  /-- Every queue pair satisfies its own invariant. -/
  qp : ∀ index qp, e.qps index = some qp → QpInv qp
  /-- All work can be carried out. -/
  granted : ∀ index qp, e.qps index = some qp → Granted e.memory qp
  /-- The send windows span the active requests. -/
  spans : ∀ index qp, e.qps index = some qp → qp.requester.Spans
  /-- Every reply names a queue pair of the peer. -/
  replied : ∀ arrival ∈ e.arrivals, ∀ reply, arrival.reply = some reply →
    reply.destinationQpn ≤ maxQpn

/-- A new queue pair. -/
structure Fresh (config : RcQpConfig) (qp : QpTransport MRS SQ RQ CQ) : Prop where
  machine : qp.machine = ⟨.reset, config.transport⟩
  valid : config.transport.Valid
  path : qp.path = config.path
  idle : qp.Idle
  activeMemory : qp.activeMemory = none
  inboundMemory : qp.inboundMemory = none
  readMemory : qp.readMemory = none
  completions : qp.completionQueue.items = []
  reserved : qp.completionReservations = 0
  history : qp.history = {}
  retired : qp.retired = []
  window : qp.sendWindow = .new config.transport.sendPsn
  receivePsn : qp.receivePsn = ⟨config.transport.receivePsn⟩

theorem fresh_of_new {generation : ℕ} {config : RcQpConfig} {slot : RcQpSlot MRS SQ RQ CQ}
    (h : RcQpSlot.new generation config = .ok slot) : Fresh config slot.toQpTransport := by
  unfold RcQpSlot.new QpStateMachine.new at h
  split at h
  · cases h
  · rename_i machine hmachine
    split at hmachine
    · rename_i hvalid
      cases hmachine
      cases h
      exact ⟨rfl, QpConfig.validate_eq_ok.mp hvalid, rfl, ⟨rfl, rfl, rfl, rfl, rfl⟩, rfl, rfl, rfl,
        rfl, rfl, rfl, rfl, rfl, rfl⟩
    · cases hmachine

namespace Fresh

variable {config : RcQpConfig} {qp : QpTransport MRS SQ RQ CQ} {memory : MemoryRegistry MRS}

theorem tidy (h : Fresh config qp) : Tidy qp where
  active := by rw [h.activeMemory, h.idle.active]; rfl
  inbound := by rw [h.inboundMemory, h.idle.inbound]; rfl
  read := by rw [h.readMemory, h.idle.read]; rfl
  sends posted hmem := by rw [h.idle.sends] at hmem; cases hmem
  receives posted hmem := by rw [h.idle.receives] at hmem; cases hmem

theorem inv (h : Fresh config qp) : QpInv qp := by
  refine ⟨by rw [h.machine]; exact h.valid, h.tidy, ⟨?_, ?_⟩, fun _ ↦ h.idle⟩
  · simp [h.reserved, QpTransport.sendPending, QpTransport.receivePending,
      QpTransport.inboundWork, h.idle.active, h.idle.inbound, h.idle.sends, h.idle.receives]
  · rw [h.completions, h.reserved]
    exact Nat.zero_le CQ

theorem granted (h : Fresh config qp) : Granted memory qp where
  sends posted hmem := by rw [h.idle.sends] at hmem; cases hmem
  receives posted hmem := by rw [h.idle.receives] at hmem; cases hmem
  active active hactive := by rw [h.idle.active] at hactive; cases hactive
  sized posted hmem := by rw [h.idle.sends] at hmem; cases hmem
  inbound work written hinbound := by rw [h.idle.inbound] at hinbound; cases hinbound
  writing address rkey length written hinbound := by
    rw [h.idle.inbound] at hinbound
    cases hinbound
  reading response hread := by rw [h.idle.read] at hread; cases hread
  answering response hread := by rw [h.idle.read] at hread; cases hread

theorem spans (h : Fresh config qp) : qp.requester.Spans := by
  unfold Requester.Spans QpTransport.requester
  dsimp only
  rw [h.idle.active, h.window]
  exact fun _ ↦ rfl

end Fresh

section Update

variable {qps : Fin QPS → Option (QpTransport MRS SQ RQ CQ)} {index : Fin QPS}
  {P : QpTransport MRS SQ RQ CQ → Prop}

theorem update_eq_some {α : Type} {slots : Fin QPS → Option α} {i : Fin QPS} {new : Option α}
    {x : α} (h : Function.update slots index new i = some x) :
    i = index ∧ new = some x ∨ slots i = some x := by
  by_cases hi : i = index
  · subst hi
    rw [Function.update_self] at h
    exact .inl ⟨rfl, h⟩
  · rw [Function.update_of_ne hi] at h
    exact .inr h

theorem forall_update {qp' : QpTransport MRS SQ RQ CQ}
    (h : ∀ i qp, qps i = some qp → P qp) (hnew : P qp') (i : Fin QPS)
    (qp : QpTransport MRS SQ RQ CQ) (hqp : Function.update qps index (some qp') i = some qp) :
    P qp := by
  rcases update_eq_some hqp with ⟨-, hself⟩ | hother
  · cases hself
    exact hnew
  · exact h i qp hother

theorem forall_remove (h : ∀ i qp, qps i = some qp → P qp) (i : Fin QPS)
    (qp : QpTransport MRS SQ RQ CQ) (hqp : Function.update qps index none i = some qp) : P qp := by
  rcases update_eq_some hqp with ⟨-, hself⟩ | hother
  · cases hself
  · exact h i qp hother

end Update

theorem QpStep.reply_qpn {memory : MemoryRegistry MRS} {qp' : QpTransport MRS SQ RQ CQ}
    {event : QpEvent} {copies : List (ℕ × List UInt8)} {reply : ControlReply}
    (h : QpStep memory qp event copies qp' (some reply)) :
    reply.destinationQpn = qp.machine.config.remoteQpn := by
  have hconfig : qp'.config = qp.config := by
    refine h.config fun config heq ↦ ?_
    subst heq
    cases h
  have hremote := congrArg (fun config ↦ config.transport.remoteQpn) hconfig
  cases h with
  | request hready heffect =>
    cases heffect with
    | future | duplicate | replayNotReady | replayFatal | sendNotReady | readNotReady | fatal
    | sendRejected | receiveFailed => rfl
    | send | write => exact hremote

/-- **Every step of the engine keeps the invariant.** -/
theorem EngineStep.inv {e e' : Engine QPS MRS SQ RQ CQ} {event : EngineEvent QPS}
    (h : EngineStep e event e') (hinv : e.Inv) : e'.Inv := by
  cases h with
  | qp hqp hstep hmemory hcounted =>
    have hsame := hmemory.toSameRegions
    refine ⟨?_, hinv.keyed.congr hsame, ?_, ?_, ?_, ?_⟩
    · rw [heldByAll_update]
      exact hcounted
    · exact forall_update hinv.qp (hstep.inv (hinv.qp _ _ hqp))
    · refine forall_update (fun i qp hi ↦ (hinv.granted i qp hi).congr hsame) ?_
      exact (hstep.granted (hinv.qp _ _ hqp).tidy (hinv.granted _ _ hqp)).congr hsame
    · exact forall_update hinv.spans (hstep.requester.spans (hinv.spans _ _ hqp))
    · intro arrival harrival answer hanswer
      rcases QpEvent.mem_record _ harrival with hold | ⟨-, -, hnew⟩
      · exact hinv.replied arrival hold answer hanswer
      · rw [hnew] at hanswer
        subst hanswer
        rw [hstep.reply_qpn]
        exact (hinv.qp _ _ hqp).config.remote_le
  | offer | accept =>
    exact ⟨hinv.counted, hinv.keyed, hinv.qp, hinv.granted, hinv.spans, hinv.replied⟩
  | create hfree hnew =>
    have hfresh := fresh_of_new hnew
    refine ⟨?_, hinv.keyed, forall_update hinv.qp hfresh.inv,
      forall_update hinv.granted hfresh.granted, forall_update hinv.spans hfresh.spans,
      hinv.replied⟩
    have hcounted := hinv.counted
    rw [heldByAll_eq _ _, hfree] at hcounted
    rw [heldByAll_update, leasesAt, hfresh.tidy.leases_eq_zero hfresh.idle]
    exact hcounted
  | remove hqp hidle hpolled hreserved =>
    refine ⟨?_, hinv.keyed, forall_remove hinv.qp, forall_remove hinv.granted,
      forall_remove hinv.spans, hinv.replied⟩
    have hcounted := hinv.counted
    rw [heldByAll_eq _ _, hqp, leasesAt, (hinv.qp _ _ hqp).tidy.leases_eq_zero hidle] at hcounted
    rw [heldByAll_update]
    exact hcounted
  | @register buffer access generator =>
    have hregistered :=
      (MemoryRegistry.registerInner_effect hinv.keyed buffer access generator).registered hinv.keyed
    refine ⟨?_, hregistered.keyed, hinv.qp,
      fun i qp hqp ↦ (hinv.granted i qp hqp).extend hregistered.toExtends, hinv.spans,
      hinv.replied⟩
    rw [hregistered.refs]
    exact hinv.counted
  | deregister =>
    rcases MemoryRegistry.deregister_spec e.memory _ with
      ⟨e, hsame⟩ | ⟨index, slot, data, -, hslot, hzero, hnew⟩
    · rw [hsame]
      exact hinv
    · rw [hnew]
      refine ⟨?_, MemoryRegistry.keyed_removed hinv.keyed hslot, hinv.qp, fun i qp hqp ↦ ?_,
        hinv.spans, hinv.replied⟩
      · rw [MemoryRegistry.refs_removed hslot hzero]
        exact hinv.counted
      · exact (hinv.granted i qp hqp).removed hinv.keyed hslot hzero hinv.counted
          (leases_le_heldByAll hqp)
  | write hwrite =>
    have hsame := (MemoryRegistry.copied_of_write hwrite).toSameRegions
    refine ⟨?_, hinv.keyed.congr hsame, hinv.qp,
      fun i qp hqp ↦ (hinv.granted i qp hqp).congr hsame, hinv.spans, hinv.replied⟩
    rw [MemoryRegistry.refs_of_write hwrite]
    exact hinv.counted

/-- **The invariant holds along every run.** -/
theorem Engine.Run.inv {allowed : EngineEvent QPS → Prop} {e e' : Engine QPS MRS SQ RQ CQ}
    (h : Engine.Run allowed e e') (hinv : e.Inv) : e'.Inv :=
  Lib.Run.invariant (fun _ hstep hs ↦ hstep.inv hs) h hinv

/-! ## Properties of single queue pairs -/

theorem QpEvent.record_eq (event : QpEvent) (slot : ℕ) (qp : QpTransport MRS SQ RQ CQ)
    (reply : Option ControlReply) (arrivals : List (Arrival MRS SQ RQ CQ)) :
    event.record slot qp reply arrivals = arrivals ++ event.record slot qp reply [] := by
  cases event
  all_goals simp [QpEvent.record]

/-- A property of the queue pairs that a new queue pair has and that the steps with an allowed event
keep, as long as the packets that arrive satisfy `C`. -/
structure Stable (allowed : QpEvent → Prop) (C : Arrival MRS SQ RQ CQ → Prop)
    (P : Fin QPS → QpTransport MRS SQ RQ CQ → Prop) : Prop where
  fresh : ∀ {index config qp}, Fresh config qp → P index qp
  step : ∀ {index memory qp event copies qp' reply}, allowed event → Keyed memory → QpInv qp →
    Granted memory qp → qp.requester.Spans →
    (∀ arrival ∈ event.record index.val qp reply [], C arrival) →
    QpStep memory qp event copies qp' reply → P index qp → P index qp'

section Stable

variable {C : Arrival MRS SQ RQ CQ → Prop} {P : Fin QPS → QpTransport MRS SQ RQ CQ → Prop}
  {e e' : Engine QPS MRS SQ RQ CQ} {allowed : QpEvent → Prop}

/-- One step of the engine keeps a stable property of a queue pair; only the packets that reach this
queue pair matter. -/
theorem EngineStep.stable (hstable : Stable allowed C P) {event : EngineEvent QPS}
    (h : EngineStep e event e') (hallowed : ∀ i qpEvent, event = .qp i qpEvent → allowed qpEvent)
    (hinv : e.Inv) {i : Fin QPS} (hs : (∀ arrival ∈ e.arrivals, arrival.slot = i.val → C arrival) →
      ∀ qp, e.qps i = some qp → P i qp)
    (harrivals : ∀ arrival ∈ e'.arrivals, arrival.slot = i.val → C arrival) :
    ∀ qp, e'.qps i = some qp → P i qp := by
  intro current hcurrent
  cases h with
  | @qp index qp event copies qp' reply memory' hqp hstep hmemory hcounted =>
    dsimp only at harrivals hcurrent
    rw [event.record_eq] at harrivals
    have hold := hs fun arrival hmem ↦ harrivals arrival (List.mem_append_left _ hmem)
    rcases update_eq_some hcurrent with ⟨rfl, hnew⟩ | hother
    · cases hnew
      refine hstable.step (hallowed _ _ rfl) hinv.keyed (hinv.qp _ _ hqp) (hinv.granted _ _ hqp)
        (hinv.spans _ _ hqp) (fun arrival hmem ↦ ?_) hstep (hold _ hqp)
      rcases event.mem_record hmem with hnone | ⟨hslot, -⟩
      · cases hnone
      · exact harrivals arrival (List.mem_append_right _ hmem) hslot
    · exact hold current hother
  | offer | accept | register | deregister | write => exact hs harrivals current hcurrent
  | create hfree hnew =>
    rcases update_eq_some hcurrent with ⟨rfl, hself⟩ | hother
    · cases hself
      exact hstable.fresh (fresh_of_new hnew)
    · exact hs harrivals current hother
  | remove =>
    rcases update_eq_some hcurrent with ⟨-, hself⟩ | hother
    · cases hself
    · exact hs harrivals current hother

/-- **A stable property holds of a queue pair along every run.** -/
theorem Engine.Run.stable (hstable : Stable allowed C P) {allowedEvent : EngineEvent QPS → Prop}
    (hallowed : ∀ i qpEvent, allowedEvent (.qp i qpEvent) → allowed qpEvent)
    (h : Engine.Run allowedEvent e e') (hinv : e.Inv) {i : Fin QPS}
    (hs : (∀ arrival ∈ e.arrivals, arrival.slot = i.val → C arrival) →
      ∀ qp, e.qps i = some qp → P i qp)
    (harrivals : ∀ arrival ∈ e'.arrivals, arrival.slot = i.val → C arrival) :
    ∀ qp, e'.qps i = some qp → P i qp := by
  refine (Lib.Run.invariant (I := fun e : Engine QPS MRS SQ RQ CQ ↦ e.Inv ∧
    ((∀ arrival ∈ e.arrivals, arrival.slot = i.val → C arrival) →
      ∀ qp, e.qps i = some qp → P i qp)) ?_ h ⟨hinv, hs⟩).2 harrivals
  rintro s t event hevent hstep ⟨hinv, hs⟩
  refine ⟨hstep.inv hinv, hstep.stable hstable ?_ hinv hs⟩
  rintro i qpEvent rfl
  exact hallowed i qpEvent hevent

end Stable

def Arrival.Meets (C : Requester → PacketRef → Prop) (arrival : Arrival MRS SQ RQ CQ) : Prop :=
  C arrival.qp.requester arrival.packet

/-- **The rule for invariants of the requester half.** -/
theorem requester_stable {allowed : QpEvent → Prop} {C : Requester → PacketRef → Prop}
    {P : Requester → Prop} (hfresh : ∀ r : Requester, r.active = none → r.retired = [] → P r)
    (hstep : ∀ {r r' : Requester} {event : QpEvent}, allowed event → RequesterStep r event r' →
      (∀ packet now ticksPerSecond, event = .response packet now ticksPerSecond → C r packet) →
      r.Spans → P r → P r') :
    Stable allowed (Arrival.Meets C)
      (fun (_ : Fin QPS) (qp : QpTransport MRS SQ RQ CQ) ↦ P qp.requester) where
  fresh h := hfresh _ h.idle.active h.retired
  step := by
    rintro index memory qp event copies qp' reply hallowed - - - hspans harrivals hqp hP
    refine hstep hallowed hqp.requester ?_ hspans hP
    rintro packet now ticksPerSecond rfl
    exact harrivals ⟨index.val, qp, packet, reply⟩ List.mem_cons_self

end Rocev2.Rc
