import Rocev2.Rc.Incarnation

/-!
# Completions of reachable queue pairs

What the application can rely on when it posts work and polls completions.  The results are the
balance and the ledger of `Rocev2.Rc.Settlement`, carried along the runs of an endpoint.

Send-queue requests complete in the order in which they were posted.  Receive requests do so as
long as no SEND overruns the receive request at the head of the queue while another one is queued
behind it: the handler flushes the queue before it reports the request that was overrun.
-/

namespace Rocev2.Rc

open Rocev2.Core Rocev2.Wire Rocev2.Memory

variable {QPS MRS SQ RQ CQ IDX : ℕ} {qp : QpTransport MRS SQ RQ CQ} {outcome : Outcome WorkRequest}
  {completion : Completion}

/-! ## Accounting -/

/-- Everything that was posted has ended and been reported exactly once or is pending. -/
structure Accounted (qp : QpTransport MRS SQ RQ CQ) : Prop where
  /-- One reservation for each pending request. -/
  reserved : qp.completionReservations = qp.sendQueue.len + qp.receiveQueue.len +
    (if qp.activeRequest.isSome then 1 else 0) +
    (if qp.inboundMessage.any InboundMessage.isSend then 1 else 0)
  /-- Every reserved completion finds room. -/
  room : qp.completionQueue.len + qp.completionReservations ≤ CQ
  /-- The send-queue requests that have ended, in the order of posting, and their completions. -/
  sends : ∃ ended : List (Outcome WorkRequest),
    qp.history.sends = ended.map (fun o ↦ o.work) ++ qp.sendPending ∧
      (qp.history.polled ++ qp.completionQueue.items).filter isSend = ended.filterMap sendReport
  /-- The receive requests that have ended, and their completions. -/
  receives : ∃ ended : List (Outcome RecvWorkRequest),
    qp.history.receives.Perm (ended.map (fun o ↦ o.work) ++ qp.receivePending) ∧
      (qp.history.polled ++ qp.completionQueue.items).filter isReceive = ended.map receiveReport

theorem sendReport_eq_none :
    sendReport outcome = none ↔ outcome.work.signaled = false ∧ outcome.status = .success := by
  unfold sendReport QpContext.workCompletion
  split
  · rename_i hreported
    constructor
    · rintro ⟨⟩
    · rintro ⟨hsilent, hsuccess⟩
      rw [hsilent, hsuccess] at hreported
      rcases hreported with hsignaled | hne
      · cases hsignaled
      · exact absurd rfl hne
  · rename_i hsilent
    obtain ⟨hsignaled, hsuccess⟩ := not_or.mp hsilent
    exact ⟨fun _ ↦ ⟨Bool.eq_false_of_not_eq_true hsignaled, not_not.mp hsuccess⟩, fun _ ↦ rfl⟩

theorem length_pending (qp : QpTransport MRS SQ RQ CQ) :
    qp.sendPending.length + qp.receivePending.length = qp.sendQueue.len + qp.receiveQueue.len +
      (if qp.activeRequest.isSome then 1 else 0) +
      (if qp.inboundMessage.any InboundMessage.isSend then 1 else 0) := by
  simp only [QpTransport.sendPending, QpTransport.receivePending, QpTransport.inboundWork,
    Ring.len]
  rcases qp.activeRequest with _ | active <;> rcases qp.inboundMessage with _ | _ | _ <;>
    simp [InboundMessage.isSend] <;> omega

theorem Ledger.accounted {ordered : Prop} (h : Ledger ordered qp) (hbalanced : Balanced qp) :
    Accounted qp where
  reserved := hbalanced.reserved.trans (length_pending qp)
  room := hbalanced.room
  sends := by
    obtain ⟨ended, hposted, hreports, -⟩ := h.sends
    exact ⟨ended, hposted, hreports⟩
  receives := by
    obtain ⟨ended, hlists, hreports⟩ := h.receives
    exact ⟨ended, hlists.1, hreports⟩

theorem Fresh.ledger {config : RcQpConfig} (h : Fresh config qp) (ordered : Prop) :
    Ledger ordered qp := by
  refine ⟨⟨[], ?_, ?_⟩, ⟨[], .of_eq ?_, ?_⟩⟩
  · simp [h.history, QpTransport.sendPending, h.idle.active, h.idle.sends]
  · simp [QpTransport.generated, h.history, h.completions, h.retired]
  · simp [h.history, QpTransport.receivePending, QpTransport.inboundWork, h.idle.inbound,
      h.idle.receives]
  · simp [QpTransport.generated, h.history, h.completions]

theorem Ledger.mono {ordered ordered' : Prop} (h : Ledger ordered qp) (himp : ordered' → ordered) :
    Ledger ordered' qp := by
  obtain ⟨ended, hlists, hreports⟩ := h.receives
  exact ⟨h.sends, ended, hlists.mono himp, hreports⟩

theorem sendReport_eq_some (h : sendReport outcome = some completion) :
    completion.status = outcome.status ∧ completion.workRequestId = outcome.work.id := by
  unfold sendReport QpContext.workCompletion at h
  split at h
  · split at h
    · rename_i hsuccess
      cases h
      exact ⟨hsuccess.symm, rfl⟩
    · cases h
      exact ⟨rfl, rfl⟩
  · cases h

/-- A completion of a send-queue request that was not flushed is that of a request that was active.
-/
theorem Ledger.exists_retired {ordered : Prop} (h : Ledger ordered qp)
    (hmem : completion ∈ qp.generated.filter isSend) (hstatus : completion.status ≠ .flushed) :
    ∃ request ∈ qp.retired, request.status = completion.status ∧
      request.work.id = completion.workRequestId := by
  obtain ⟨ended, -, hreports, hretired⟩ := h.sends
  rw [hreports] at hmem
  obtain ⟨outcome, houtcome, hreport⟩ := List.mem_filterMap.mp hmem
  obtain ⟨heq, hid⟩ := sendReport_eq_some hreport
  rw [heq] at hstatus
  have hresult : outcome.result ∈ unflushed (ended.map Outcome.result) :=
    List.mem_filter.mpr ⟨List.mem_map_of_mem houtcome, decide_eq_true hstatus⟩
  rw [hretired] at hresult
  obtain ⟨request, hrequest, hsame⟩ := List.mem_map.mp (List.mem_filter.mp hresult).1
  obtain ⟨hwork, hsame⟩ := Prod.mk.inj hsame
  exact ⟨request, hrequest, hsame.trans heq.symm, by rw [hwork, hid]⟩

theorem ledger_stable : Stable (fun _ ↦ True) (fun _ ↦ True)
    (fun (_ : Fin QPS) (qp : QpTransport MRS SQ RQ CQ) ↦ Ledger False qp) where
  fresh hfresh := hfresh.ledger False
  step _ _ hinv _ _ _ hstep hledger := (hstep.ledger hinv.balanced hledger).mono False.elim

/-- **Completion accounting.**  In every reachable endpoint, the work of every queue pair is
accounted for, and a completion that is reserved can be pushed. -/
theorem completion_accounting {ep : RcEndpoint QPS MRS SQ RQ CQ IDX} (h : ep.Reachable)
    {i : Fin QPS} {slot : RcQpSlot MRS SQ RQ CQ} (hslot : ep.qps i = some slot) :
    Accounted slot.toQpTransport ∧
      (0 < slot.completionReservations → ∀ completion, ∃ queue,
        slot.completionQueue.push completion = .ok queue) ∧
      ∀ outcome, sendReport outcome = none ↔
        outcome.work.signaled = false ∧ outcome.status = .success := by
  have hledger : Ledger False slot.toQpTransport :=
    h.stable ledger_stable (fun _ _ _ ↦ trivial) hslot
  have hbalanced : Balanced slot.toQpTransport :=
    (h.inv.qp i _ (Holds.engine_qps hslot)).balanced
  refine ⟨hledger.accounted hbalanced, ?_, fun outcome ↦ sendReport_eq_none⟩
  intro hreserved completion
  have hroom := hbalanced.room
  exact ⟨_, dif_pos (show slot.completionQueue.items.length < CQ by omega)⟩

/-- A queue pair with two posted receive requests, one of which has been filled, and a posted
SEND. -/
def received : List Op :=
  Sample.ready 1 1 ++
    [.postReceive Sample.handle ⟨1, Sample.sge 4⟩, .postReceive Sample.handle ⟨2, Sample.sge 4⟩,
      Sample.receives 0 (Sample.packet .sendOnly 0 none none (List.replicate 4 1)),
      .postWork Sample.handle ⟨2, .send, Sample.sge 4, true⟩]

theorem completion_accounting_received :
    ∃ slot, (Sample.single.steps received).qps 0 = some slot ∧
      slot.completionQueue.len = 1 ∧ slot.sendQueue.len = 1 ∧ Accounted slot.toQpTransport := by
  have hlive : ((Sample.single.steps received).qps 0).map
      (fun slot ↦ (slot.completionQueue.len, slot.sendQueue.len)) = some (1, 1) := by
    decide +kernel
  obtain ⟨slot, hslot, heq⟩ := Option.map_eq_some_iff.mp hlive
  exact ⟨slot, hslot, congrArg Prod.fst heq, congrArg Prod.snd heq,
    (completion_accounting (Sample.single_reachable received) hslot).1⟩

/-! ## The order of receive completions -/

def ReceivesInOrder (qp : QpTransport MRS SQ RQ CQ) : Prop :=
  ∃ ended : List (Outcome RecvWorkRequest),
    (qp.history.polled ++ qp.completionQueue.items).filter isReceive = ended.map receiveReport ∧
      ended.map (fun o ↦ o.work) <+: qp.history.receives

/-- The packet is not a SEND that overruns the receive request at the head of the queue while
another one is queued behind it. -/
def Arrival.Fits (arrival : Arrival MRS SQ RQ CQ) : Prop :=
  ∀ first second rest, arrival.qp.receivePsn.classify arrival.packet.bth.psn = .expected →
    arrival.packet.bth.opcode = .sendFirst ∨ arrival.packet.bth.opcode = .sendOnly →
    arrival.packet.bth.partitionKey = Bth.defaultPkey →
    validRequestPayloadLength arrival.packet.bth.opcode.position arrival.packet.payload.length
      arrival.qp.mtu = true →
    arrival.qp.inboundMessage = none →
    arrival.qp.receiveQueue.items = first :: second :: rest →
    arrival.packet.payload.length ≤ first.work.sge.length.toNat

theorem Arrival.Fits.keepsOrder {memory : MemoryRegistry MRS} {arrival : Arrival MRS SQ RQ CQ}
    (h : arrival.Fits) (hgranted : Granted memory arrival.qp) :
    KeepsOrder arrival.qp memory arrival.packet := by
  intro posted queue hexpected hsend hkey hlength hidle hpop hrejected
  have hitems := Ring.pop_eq_some.mp hpop
  cases hrest : queue.items with
  | nil => rfl
  | cons second rest =>
    rw [hrest] at hitems
    have hfits := h posted second rest hexpected hsend hkey hlength hidle hitems
    rcases hrejected with hlong | ⟨e, herror⟩
    · exact absurd hfits (Nat.not_le_of_lt hlong)
    · have hbacked := hgranted.receives posted (hitems ▸ List.mem_cons_self)
      obtain ⟨memory', hwrite⟩ := hbacked.writeLocal (Nat.add_zero _).symm
        (by simpa using hfits)
      rw [hwrite] at herror
      cases herror

theorem orderedLedger_stable : Stable (fun _ ↦ True) Arrival.Fits
    (fun (_ : Fin QPS) (qp : QpTransport MRS SQ RQ CQ) ↦ Ledger True qp) where
  fresh hfresh := hfresh.ledger True
  step := by
    intro index memory qp event copies qp' reply _ _ hinv hgranted _ harrivals hstep hledger
    refine (hstep.ledger hinv.balanced hledger).mono fun _ ↦ ⟨trivial, ?_⟩
    rintro packet rfl
    have hfits := harrivals ⟨index.val, qp, packet, reply⟩ List.mem_cons_self
    exact hfits.keepsOrder hgranted

/-- **Receive completions are generated in posting order** in every run in which all packets that
reach the queue pair fit. -/
theorem receives_in_order {ep : RcEndpoint QPS MRS SQ RQ CQ IDX} (h : ep.Reachable) {i : Fin QPS}
    (hfits : ∀ arrival ∈ ep.arrivals, arrival.slot = i.val → arrival.Fits)
    {slot : RcQpSlot MRS SQ RQ CQ} (hslot : ep.qps i = some slot) :
    ReceivesInOrder slot.toQpTransport := by
  have hledger : Ledger True slot.toQpTransport := h.stable orderedLedger_stable hfits hslot
  obtain ⟨ended, hlists, hreports⟩ := hledger.receives
  exact ⟨ended, hreports, hlists.2 trivial ▸ List.prefix_append _ _⟩

/-- The queue pair fails with two receive requests in its queue. -/
def flushed : List Op :=
  received ++ [.postReceive Sample.handle ⟨3, Sample.sge 4⟩, .transitionQp Sample.handle .error]

theorem receives_in_order_flushed : ∃ slot, (Sample.single.steps flushed).qps 0 = some slot ∧
    (slot.generated.filter isReceive).map (fun completion ↦
      (completion.workRequestId, completion.status)) =
        [(1, .success), (2, .flushed), (3, .flushed)] ∧
    ReceivesInOrder slot.toQpTransport := by
  have hlive : ((Sample.single.steps flushed).qps 0).map (fun slot ↦
      (slot.generated.filter isReceive).map fun completion ↦
        (completion.workRequestId, completion.status)) =
          some [(1, .success), (2, .flushed), (3, .flushed)] := by
    decide +kernel
  have hlengths : ∀ arrival ∈ (Sample.single.steps flushed).arrivals,
      arrival.qp.receiveQueue.items.map (·.work.sge.length.toNat) = [4, 4] ∧
        arrival.packet.payload.length = 4 := by
    decide +kernel
  obtain ⟨slot, hslot, hreports⟩ := Option.map_eq_some_iff.mp hlive
  refine ⟨slot, hslot, hreports, receives_in_order (Sample.single_reachable flushed) ?_ hslot⟩
  intro arrival hmem _ first second rest _ _ _ _ _ hitems
  obtain ⟨hposted, hpayload⟩ := hlengths arrival hmem
  rw [hitems] at hposted
  exact Nat.le_trans hpayload.le (List.cons.inj hposted).1.ge

theorem ReceivesInOrder.ids (h : ReceivesInOrder qp) :
    ((qp.history.polled ++ qp.completionQueue.items).filter isReceive).map
        (fun completion ↦ completion.workRequestId) <+:
      qp.history.receives.map fun work ↦ work.id := by
  obtain ⟨ended, hreports, hprefix⟩ := h
  have hids : ∀ outcome : Outcome RecvWorkRequest,
      (receiveReport outcome).workRequestId = outcome.work.id := by
    intro outcome
    unfold receiveReport QpContext.receiveCompletion
    split <;> rfl
  have hmap := hprefix.map fun work ↦ work.id
  rw [List.map_map] at hmap
  rw [hreports, List.map_map]
  simpa only [Function.comp_def, hids] using hmap

/-- Two receive requests of four bytes, and a SEND of eight bytes. -/
def overrun : List Op :=
  Sample.ready 1 1 ++
    [.postReceive Sample.handle ⟨1, Sample.sge 4⟩, .postReceive Sample.handle ⟨2, Sample.sge 4⟩,
      Sample.receives 0 (Sample.packet .sendOnly 0 none none (List.replicate 8 1))]

theorem overrun_reported :
    ((Sample.single.steps overrun).qps 0).map (fun slot ↦
      (((slot.history.polled ++ slot.completionQueue.items).filter isReceive).map
        fun completion ↦ completion.workRequestId, slot.history.receives.map fun work ↦ work.id)) =
      some ([2, 1], [1, 2]) := by
  decide +kernel

/-- **An overrun breaks the order of receive completions.** -/
theorem receives_out_of_order : ∃ (ep : RcEndpoint 1 1 2 2 4 2) (slot : RcQpSlot 1 2 2 4),
    ep.Reachable ∧ ep.qps 0 = some slot ∧ ¬ ReceivesInOrder slot.toQpTransport := by
  obtain ⟨slot, hslot, heq⟩ := Option.map_eq_some_iff.mp overrun_reported
  refine ⟨_, slot, Sample.single_reachable overrun, hslot, fun horder ↦ ?_⟩
  have hids := horder.ids
  obtain ⟨hgenerated, hposted⟩ := Prod.mk.inj heq
  rw [hgenerated, hposted] at hids
  exact absurd hids (by decide)

/-! ## Queue pairs that are down -/

/-- **A queue pair that is down owes nothing**: all that was posted has been reported, and all that
it sends later is posted or asked for later. -/
theorem down_owes_nothing {ep : RcEndpoint QPS MRS SQ RQ CQ IDX} (h : ep.Reachable) {i : Fin QPS}
    {slot : RcQpSlot MRS SQ RQ CQ} (hslot : ep.qps i = some slot)
    (hdown : slot.machine.canReceive = false) :
    (∃ ended : List (Outcome WorkRequest), slot.history.sends = ended.map (·.work) ∧
        slot.generated.filter isSend = ended.filterMap sendReport) ∧
      (∃ ended : List (Outcome RecvWorkRequest), slot.history.receives.Perm (ended.map (·.work)) ∧
        slot.generated.filter isReceive = ended.map receiveReport) ∧
      ∀ ops : List Op, Renewed i (fun work ↦ ∃ op ∈ ops, op.Posts i work) ep.engine.arrivals
        ep.engine.accepted (ep.steps ops).engine := by
  have hqp := Holds.engine_qps hslot
  have hinv := h.inv.qp i _ hqp
  have hidle := hinv.quiet hdown
  have hledger := h.stable ledger_stable (fun _ _ _ ↦ trivial) hslot
  obtain ⟨-, -, hsends, hreceives⟩ := hledger.accounted hinv.balanced
  simp only [QpTransport.sendPending, QpTransport.receivePending, QpTransport.inboundWork,
    hidle.active, hidle.sends, hidle.inbound, hidle.receives, Option.map_none, Option.toList_none,
    List.map_nil, List.append_nil] at hsends hreceives
  refine ⟨hsends, hreceives, fun ops ↦ h.renewed (fun qp hlater ↦ ?_) ops⟩
  cases hqp.symm.trans hlater
  exact hidle

theorem down_owes_nothing_flushed :
    let ep := Sample.single.steps flushed
    ∃ slot, ep.qps 0 = some slot ∧ ∃ ended : List (Outcome WorkRequest),
      slot.generated.filter isSend = ended.filterMap sendReport := by
  intro ep
  have hdown : (ep.qps 0).map (·.machine.canReceive) = some false := by decide +kernel
  obtain ⟨slot, hslot, heq⟩ := Option.map_eq_some_iff.mp hdown
  have hreachable : ep.Reachable := Sample.single_reachable _
  obtain ⟨⟨ended, -, hreports⟩, -⟩ := down_owes_nothing hreachable hslot heq
  exact ⟨slot, hslot, ended, hreports⟩

end Rocev2.Rc
