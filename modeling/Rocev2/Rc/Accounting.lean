import Rocev2.Rc.Event

/-!
# Completion accounting of a queue pair

Posting a work request reserves one entry of the completion queue, and the end of the request
uses the reservation up.  `Balanced` says that the reservations are exactly the pending requests
and fit the queue; `Ledger` relates everything the application ever posted to everything that was
ever reported.

A step other than posting and polling *settles* some of the pending requests: it takes them from
the front of the pending lists, uses up their reservations and reports their outcomes.  `Settles`
is that statement; it composes, and both invariants follow from it.  Receive requests may be
settled out of order by one outcome of the responder, so the order is stated under a proposition
`ordered` that the outcome refutes.
-/

namespace Rocev2.Rc

open Rocev2.Core

variable {MRS SQ RQ CQ : ℕ} {reports : List Completion}

/-! ## Outcomes -/

/-- How a work request ended. -/
structure Outcome (α : Type) where
  work : α
  status : CompletionStatus
  byteLen : ℕ

/-- A request ended by a flush. -/
def Outcome.flushed {α : Type} (work : α) : Outcome α := ⟨work, .flushed, 0⟩

/-- A send-queue request and the status it ended with. -/
abbrev Result := WorkRequest × CompletionStatus

def Outcome.result (outcome : Outcome WorkRequest) : Result := (outcome.work, outcome.status)

def RetiredRequest.result (request : RetiredRequest) : Result := (request.work, request.status)

def unflushed (results : List Result) : List Result :=
  results.filter fun result ↦ result.2 ≠ .flushed

theorem unflushed_append (results results' : List Result) :
    unflushed (results ++ results') = unflushed results ++ unflushed results' :=
  List.filter_append ..

theorem unflushed_map_flushed (works : List WorkRequest) :
    unflushed ((works.map Outcome.flushed).map Outcome.result) = [] := by
  refine List.filter_eq_nil_iff.mpr fun result hresult ↦ ?_
  obtain ⟨outcome, houtcome, rfl⟩ := List.mem_map.mp hresult
  obtain ⟨work, -, rfl⟩ := List.mem_map.mp houtcome
  simp [Outcome.result, Outcome.flushed]

def sendReport (outcome : Outcome WorkRequest) : Option Completion :=
  QpContext.workCompletion outcome.work outcome.status outcome.byteLen

def receiveReport (outcome : Outcome RecvWorkRequest) : Completion :=
  QpContext.receiveCompletion outcome.work outcome.status outcome.byteLen

def isReceive (completion : Completion) : Bool := completion.opcode = .receive

/-- Whether a completion is one of a send-queue request. -/
def isSend (completion : Completion) : Bool := !isReceive completion

theorem isReceive_receiveCompletion (work : RecvWorkRequest) (status : CompletionStatus)
    (byteLen : ℕ) : isReceive (QpContext.receiveCompletion work status byteLen) = true := by
  unfold QpContext.receiveCompletion
  split <;> rfl

theorem status_receiveCompletion (work : RecvWorkRequest) (status : CompletionStatus)
    (byteLen : ℕ) : (QpContext.receiveCompletion work status byteLen).status = status := by
  unfold QpContext.receiveCompletion
  split
  · rename_i hsuccess
    exact hsuccess.symm
  · rfl

theorem isReceive_completionOpcode (kind : WorkRequestKind) : completionOpcode kind ≠ .receive := by
  intro h
  cases kind <;> cases h

theorem isReceive_of_workCompletion {work : WorkRequest} {status : CompletionStatus} {byteLen : ℕ}
    {completion : Completion}
    (h : QpContext.workCompletion work status byteLen = some completion) :
    isReceive completion = false := by
  unfold QpContext.workCompletion at h
  split at h
  · cases h
    split <;> exact decide_eq_false (isReceive_completionOpcode work.kind)
  · cases h

theorem length_reports_le {sent : List (Outcome WorkRequest)}
    {received : List (Outcome RecvWorkRequest)}
    (hsend : reports.filter isSend = sent.filterMap sendReport)
    (hreceive : reports.filter isReceive = received.map receiveReport) :
    reports.length ≤ sent.length + received.length := by
  have hsplit : reports.length =
      (reports.filter isReceive).length + (reports.filter isSend).length := by
    rw [← List.countP_eq_length_filter, ← List.countP_eq_length_filter,
      List.length_eq_countP_add_countP isReceive]
    refine congrArg _ (List.countP_congr fun completion _ ↦ ?_)
    simp [isSend]
  rw [hsplit, hsend, hreceive, List.length_map, Nat.add_comm]
  exact Nat.add_le_add_right (List.length_filterMap_le _ _) _

def Lists {α : Type} (ordered : Prop) (xs ys : List α) : Prop := xs.Perm ys ∧ (ordered → xs = ys)

namespace Lists

variable {α : Type} {ordered ordered' : Prop} {xs ys zs : List α}

theorem of_eq (h : xs = ys) : Lists ordered xs ys := ⟨h ▸ List.Perm.refl xs, fun _ ↦ h⟩

theorem append (h : Lists ordered xs (ys ++ zs)) {ws : List α} (h' : Lists ordered' zs ws) :
    Lists (ordered ∧ ordered') xs (ys ++ ws) :=
  ⟨h.1.trans (h'.1.append_left ys), fun ho ↦ by rw [h.2 ho.1, h'.2 ho.2]⟩

theorem mono (h : Lists ordered xs ys) (himp : ordered' → ordered) : Lists ordered' xs ys :=
  ⟨h.1, fun ho ↦ h.2 (himp ho)⟩

theorem append_right (h : Lists ordered xs ys) (zs : List α) :
    Lists ordered (xs ++ zs) (ys ++ zs) :=
  ⟨h.1.append_right zs, fun ho ↦ by rw [h.2 ho]⟩

end Lists

/-! ## New completions -/

def Adds (p : Completion → Prop) (qp qp' : QpTransport MRS SQ RQ CQ) : Prop :=
  ∃ new, qp'.generated = qp.generated ++ new ∧ ∀ completion ∈ new, p completion

theorem Ring.exists_pushAll {α : Type} {N : ℕ} (ring : Ring α N) (items : List α) :
    ∃ new, (ring.pushAll items).items = ring.items ++ new ∧ new ⊆ items := by
  induction items generalizing ring with
  | nil => exact ⟨[], (List.append_nil _).symm, List.Subset.refl _⟩
  | cons item items ih =>
    obtain ⟨new, hnew, hsub⟩ := ih (ring.pushed item)
    have hrest : (ring.pushAll (item :: items)).items = (ring.pushed item).items ++ new := hnew
    cases hpush : ring.push item with
    | error e =>
      rw [Ring.pushed, hpush] at hrest
      exact ⟨new, hrest, List.subset_cons_of_subset _ hsub⟩
    | ok ring' =>
      rw [Ring.pushed, hpush] at hrest
      refine ⟨item :: new, ?_, List.cons_subset_cons _ hsub⟩
      change _ = ring'.items ++ new at hrest
      rw [hrest, (Ring.push_eq_ok.mp hpush).2, List.append_assoc, List.singleton_append]

namespace Adds

variable {p : Completion → Prop} {qp qp' qp'' : QpTransport MRS SQ RQ CQ}
  {status : CompletionStatus}

theorem same (h : qp'.generated = qp.generated) : Adds p qp qp' :=
  ⟨[], by rw [h, List.append_nil], fun _ hmem ↦ absurd hmem List.not_mem_nil⟩

theorem trans (h : Adds p qp qp') (h' : Adds p qp' qp'') : Adds p qp qp'' := by
  obtain ⟨new, heq, hnew⟩ := h
  obtain ⟨new', heq', hnew'⟩ := h'
  refine ⟨new ++ new', by rw [heq', heq, List.append_assoc], fun completion hmem ↦ ?_⟩
  rcases List.mem_append.mp hmem with hold | hlater
  · exact hnew completion hold
  · exact hnew' completion hlater

theorem resolved (count : ℕ) {completions : List Completion}
    (hnew : ∀ completion ∈ completions, p completion) :
    Adds p qp (qp.resolved count completions) := by
  obtain ⟨new, hitems, hsub⟩ := Ring.exists_pushAll qp.completionQueue completions
  refine ⟨new, ?_, fun completion hmem ↦ hnew completion (hsub hmem)⟩
  change qp.history.polled ++ (qp.completionQueue.pushAll completions).items = _
  rw [hitems, ← List.append_assoc]
  rfl

theorem flushed (hp : ∀ completion, completion.status = .flushed → p completion) :
    Adds p qp qp.flushed := by
  have hemptied : Adds p qp qp.emptied := same rfl
  refine hemptied.trans (resolved _ fun completion hmem ↦ hp completion ?_)
  simp only [QpTransport.flushCompletions, List.mem_append, List.mem_map, Option.mem_toList,
    Option.map_eq_some_iff] at hmem
  rcases hmem with ((⟨_, -, rfl⟩ | ⟨_, -, rfl⟩) | ⟨_, -, rfl⟩) | ⟨_, -, rfl⟩ <;> rfl

theorem failed (hp : ∀ completion, completion.status = .flushed → p completion) :
    Adds p qp qp.failed := by
  have hstopped : Adds p qp (qp.setMachine { qp.machine with state := .error }) := same rfl
  exact hstopped.trans (flushed hp)

/-- The active request ends. -/
theorem activeFinished
    (hp : ∀ completion, isReceive completion = false → completion.status = status → p completion)
    (byteLen : ℕ) : Adds p qp (qp.activeFinished status byteLen) := by
  unfold QpTransport.activeFinished
  split
  · exact same rfl
  · rename_i active hactive
    have hretired : Adds p qp ((qp.setActiveMemory none).retire active status) := same rfl
    refine hretired.trans (resolved _ fun completion hmem ↦ ?_)
    rw [Option.mem_toList] at hmem
    refine hp completion (isReceive_of_workCompletion hmem) ?_
    unfold QpContext.workCompletion at hmem
    split at hmem
    · cases hmem
      split
      · rename_i hsuccess
        exact hsuccess.symm
      · rfl
    · cases hmem

theorem receiveFinished {work : RecvWorkRequest} {byteLen : ℕ}
    (hp : p (QpContext.receiveCompletion work status byteLen)) :
    Adds p qp (qp.receiveFinished work status byteLen) := by
  have hreleased : Adds p qp (qp.setInboundMemory none) := same rfl
  refine hreleased.trans (resolved _ fun completion hmem ↦ ?_)
  cases List.mem_singleton.mp hmem
  exact hp

end Adds

/-! ## Settling pending requests -/

/-- The reservations of a queue pair are its pending requests, and they fit the queue. -/
structure Balanced (qp : QpTransport MRS SQ RQ CQ) : Prop where
  reserved : qp.completionReservations = qp.sendPending.length + qp.receivePending.length
  room : qp.completionQueue.items.length + qp.completionReservations ≤ CQ

/-- `qp'` is `qp` after the pending requests in `sent` and `received` have ended with the given
outcomes and have been reported. -/
structure Settles (ordered : Prop) (qp qp' : QpTransport MRS SQ RQ CQ)
    (sent : List (Outcome WorkRequest)) (received : List (Outcome RecvWorkRequest))
    (reports : List Completion) : Prop where
  history : qp'.history = qp.history
  retired : unflushed (qp'.retired.map RetiredRequest.result) =
    unflushed (qp.retired.map RetiredRequest.result) ++ unflushed (sent.map Outcome.result)
  sends : qp.sendPending = sent.map (fun o ↦ o.work) ++ qp'.sendPending
  receives : Lists ordered qp.receivePending (received.map (fun o ↦ o.work) ++ qp'.receivePending)
  queue : qp'.completionQueue.items = qp.completionQueue.items ++ reports
  reserved : qp'.completionReservations + (sent.length + received.length) =
    qp.completionReservations
  sendReports : reports.filter isSend = sent.filterMap sendReport
  receiveReports : reports.filter isReceive = received.map receiveReport

namespace Settles

variable {ordered ordered' : Prop} {qp qp' qp'' : QpTransport MRS SQ RQ CQ}
  {sent sent' : List (Outcome WorkRequest)} {received received' : List (Outcome RecvWorkRequest)}
  {reports reports' : List Completion}

theorem same (hhistory : qp'.history = qp.history) (hretired : qp'.retired = qp.retired)
    (hqueue : qp'.completionQueue = qp.completionQueue)
    (hreserved : qp'.completionReservations = qp.completionReservations)
    (hsends : qp'.sendPending = qp.sendPending)
    (hreceives : qp'.receivePending = qp.receivePending) : Settles ordered qp qp' [] [] [] where
  history := hhistory
  retired := by rw [hretired]; exact (List.append_nil _).symm
  sends := hsends.symm
  receives := Lists.of_eq hreceives.symm
  queue := by rw [hqueue, List.append_nil]
  reserved := hreserved
  sendReports := rfl
  receiveReports := rfl

theorem trans (h : Settles ordered qp qp' sent received reports)
    (h' : Settles ordered qp' qp'' sent' received' reports') :
    Settles ordered qp qp'' (sent ++ sent') (received ++ received') (reports ++ reports') where
  history := h'.history.trans h.history
  retired := by rw [h'.retired, h.retired, List.map_append, unflushed_append, List.append_assoc]
  sends := by rw [h.sends, h'.sends, List.map_append, List.append_assoc]
  receives := by
    have happend := (h.receives.append h'.receives).mono fun ho : ordered ↦ ⟨ho, ho⟩
    rwa [List.map_append, List.append_assoc]
  queue := by rw [h'.queue, h.queue, List.append_assoc]
  reserved := by
    rw [List.length_append, List.length_append, ← h.reserved, ← h'.reserved]
    omega
  sendReports := by
    rw [List.filter_append, List.filterMap_append, h.sendReports, h'.sendReports]
  receiveReports := by
    rw [List.filter_append, List.map_append, h.receiveReports, h'.receiveReports]

theorem mono (h : Settles ordered qp qp' sent received reports) (himp : ordered' → ordered) :
    Settles ordered' qp qp' sent received reports :=
  ⟨h.history, h.retired, h.sends, h.receives.mono himp, h.queue, h.reserved, h.sendReports,
    h.receiveReports⟩

theorem generated (h : Settles ordered qp qp' sent received reports) :
    qp'.generated = qp.generated ++ reports := by
  rw [QpTransport.generated, QpTransport.generated, h.history, h.queue, List.append_assoc]

theorem balanced (h : Settles ordered qp qp' sent received reports) (hb : Balanced qp) :
    Balanced qp' := by
  have hsends := congrArg List.length h.sends
  have hreceives := h.receives.1.length_eq
  have hreports := length_reports_le h.sendReports h.receiveReports
  have hreserved := h.reserved
  have hold := hb.reserved
  have hroom := hb.room
  rw [List.length_append, List.length_map] at hsends hreceives
  refine ⟨by omega, ?_⟩
  rw [h.queue, List.length_append]
  omega

end Settles

/-- Using up the reservations of requests that have left the pending lists. -/
theorem settles_resolved {ordered : Prop} {qp : QpTransport MRS SQ RQ CQ}
    (base : QpTransport MRS SQ RQ CQ) (sent : List (Outcome WorkRequest))
    (received : List (Outcome RecvWorkRequest)) (hb : Balanced qp)
    (hhistory : base.history = qp.history)
    (hretired : unflushed (base.retired.map RetiredRequest.result) =
      unflushed (qp.retired.map RetiredRequest.result) ++ unflushed (sent.map Outcome.result))
    (hqueue : base.completionQueue = qp.completionQueue)
    (hreserved : base.completionReservations = qp.completionReservations)
    (hsends : qp.sendPending = sent.map (fun o ↦ o.work) ++ base.sendPending)
    (hreceives : Lists ordered qp.receivePending
      (received.map (fun o ↦ o.work) ++ base.receivePending))
    (hsendReports : reports.filter isSend = sent.filterMap sendReport)
    (hreceiveReports : reports.filter isReceive = received.map receiveReport) {count : ℕ}
    (hcount : count = sent.length + received.length) :
    Settles ordered qp (base.resolved count reports) sent received reports := by
  have hlengths := congrArg List.length hsends
  have hlengthr := hreceives.1.length_eq
  rw [List.length_append, List.length_map] at hlengths hlengthr
  have hold := hb.reserved
  have hroom := hb.room
  have hreports := length_reports_le hsendReports hreceiveReports
  refine ⟨hhistory, hretired, hsends, hreceives, ?_, ?_, hsendReports, hreceiveReports⟩
  · have hpush := Ring.items_pushAll base.completionQueue reports (by rw [hqueue]; omega)
    rw [hqueue] at hpush
    rw [← hpush, ← hqueue]
    rfl
  · change base.completionReservations - count + _ = _
    omega

/-! ## What the parts of a step settle -/

section Parts

variable {ordered : Prop} {qp : QpTransport MRS SQ RQ CQ} {active : ActiveRequest}

open QpTransport

theorem filter_isSend_flushedSend (works : List WorkRequest) :
    (works.map flushedSend).filter isSend = works.map flushedSend := by
  refine List.filter_eq_self.mpr fun completion hmem ↦ ?_
  obtain ⟨work, -, rfl⟩ := List.mem_map.mp hmem
  have hopcode : isReceive (flushedSend work) = false :=
    decide_eq_false (isReceive_completionOpcode work.kind)
  rw [isSend, hopcode]
  rfl

variable (works : List RecvWorkRequest)

theorem filter_isSend_flushedReceive :
    (works.map flushedReceive).filter isSend = [] := by
  refine List.filter_eq_nil_iff.mpr fun completion hmem ↦ ?_
  obtain ⟨work, -, rfl⟩ := List.mem_map.mp hmem
  exact Bool.false_ne_true

theorem filter_isReceive_flushedSend (works : List WorkRequest) :
    (works.map flushedSend).filter isReceive = [] := by
  refine List.filter_eq_nil_iff.mpr fun completion hmem ↦ ?_
  obtain ⟨work, -, rfl⟩ := List.mem_map.mp hmem
  have hopcode : isReceive (flushedSend work) = false :=
    decide_eq_false (isReceive_completionOpcode work.kind)
  rw [hopcode]
  exact Bool.false_ne_true

theorem filter_isReceive_flushedReceive :
    (works.map flushedReceive).filter isReceive = works.map flushedReceive := by
  refine List.filter_eq_self.mpr fun completion hmem ↦ ?_
  obtain ⟨work, -, rfl⟩ := List.mem_map.mp hmem
  rfl

theorem filterMap_sendReport_flushed (works : List WorkRequest) :
    (works.map Outcome.flushed).filterMap sendReport = works.map flushedSend := by
  rw [List.filterMap_map, ← List.filterMap_eq_map]
  refine List.filterMap_congr fun work _ ↦ ?_
  exact QpContext.workCompletion_of_ne work (by decide : CompletionStatus.flushed ≠ .success) 0

theorem map_receiveReport_flushed :
    (works.map Outcome.flushed).map receiveReport = works.map flushedReceive := by
  rw [List.map_map]
  rfl

theorem flushCompletions_eq (qp : QpTransport MRS SQ RQ CQ) :
    qp.flushCompletions =
      (qp.activeRequest.map fun active ↦ active.work).toList.map flushedSend ++
      qp.inboundWork.map flushedReceive ++
      (qp.sendQueue.items.map fun posted ↦ posted.work).map flushedSend ++
      (qp.receiveQueue.items.map fun posted ↦ posted.work).map flushedReceive := by
  rw [flushCompletions, List.map_map, List.map_map]
  cases qp.activeRequest <;> rfl

theorem filter_isSend_flushCompletions (qp : QpTransport MRS SQ RQ CQ) :
    qp.flushCompletions.filter isSend =
      (qp.sendPending.map Outcome.flushed).filterMap sendReport := by
  rw [filterMap_sendReport_flushed, flushCompletions_eq]
  simp only [List.filter_append, filter_isSend_flushedSend, filter_isSend_flushedReceive,
    List.append_nil, sendPending, List.map_append]

theorem filter_isReceive_flushCompletions (qp : QpTransport MRS SQ RQ CQ) :
    qp.flushCompletions.filter isReceive =
      (qp.receivePending.map Outcome.flushed).map receiveReport := by
  rw [map_receiveReport_flushed, flushCompletions_eq]
  simp only [List.filter_append, filter_isReceive_flushedSend, filter_isReceive_flushedReceive,
    List.append_nil, List.nil_append, receivePending, List.map_append]

theorem length_flushCompletions (qp : QpTransport MRS SQ RQ CQ) :
    qp.flushCompletions.length = qp.sendPending.length + qp.receivePending.length := by
  rw [flushCompletions_eq]
  simp only [List.length_append, List.length_map, sendPending, receivePending]
  omega

theorem map_work_flushed {α : Type} (works : List α) :
    (works.map Outcome.flushed).map (fun o ↦ o.work) = works := by
  rw [List.map_map]
  exact List.map_id works

theorem unflushed_emptied (qp : QpTransport MRS SQ RQ CQ) :
    unflushed (qp.emptied.retired.map RetiredRequest.result) =
      unflushed (qp.retired.map RetiredRequest.result) := by
  simp only [emptied]
  cases qp.activeRequest with
  | none => simp
  | some active =>
    simp [unflushed, ActiveRequest.retired, RetiredRequest.result]

theorem settles_flushed (hb : Balanced qp) :
    Settles ordered qp qp.flushed (qp.sendPending.map .flushed)
      (qp.receivePending.map .flushed) qp.flushCompletions := by
  refine settles_resolved qp.emptied _ _ hb rfl ?_ rfl rfl ?_ (Lists.of_eq ?_)
    (filter_isSend_flushCompletions qp) (filter_isReceive_flushCompletions qp) ?_
  · rw [unflushed_map_flushed, unflushed_emptied, List.append_nil]
  · rw [map_work_flushed]
    exact (List.append_nil _).symm
  · rw [map_work_flushed]
    exact (List.append_nil _).symm
  · rw [length_flushCompletions, List.length_map, List.length_map]

theorem settles_failed (hb : Balanced qp) :
    Settles ordered qp qp.failed (qp.sendPending.map .flushed) (qp.receivePending.map .flushed)
      qp.flushCompletions := by
  obtain ⟨stopped, hstopped⟩ : ∃ stopped, stopped =
    qp.setMachine { qp.machine with state := .error } := ⟨_, rfl⟩
  have hsame : Settles ordered qp stopped [] [] [] := by
    rw [hstopped]
    exact Settles.same rfl rfl rfl rfl rfl rfl
  have hflush := hsame.trans (settles_flushed (hsame.balanced hb))
  rw [hstopped] at hflush
  exact hflush

theorem settles_activeFinished (hb : Balanced qp) (hactive : qp.activeRequest = some active)
    (status : CompletionStatus) (byteLen : ℕ) :
    Settles ordered qp (qp.activeFinished status byteLen) [⟨active.work, status, byteLen⟩] []
      (QpContext.workCompletion active.work status byteLen).toList := by
  have hpending : qp.sendPending =
      active.work :: qp.sendQueue.items.map fun posted ↦ posted.work := by
    simp [sendPending, hactive]
  rw [activeFinished, hactive]
  refine settles_resolved ((qp.setActiveMemory none).retire active status)
    [⟨active.work, status, byteLen⟩] [] hb rfl ?_ rfl rfl hpending (Lists.of_eq rfl) ?_ ?_ rfl
  · rw [← unflushed_append]
    simp only [retire, setActiveMemory, List.map_append]
    rfl
  · cases hreport : QpContext.workCompletion active.work status byteLen with
    | none => simp [sendReport, hreport]
    | some completion =>
      simp [sendReport, hreport, isSend, isReceive_of_workCompletion hreport]
  · cases hreport : QpContext.workCompletion active.work status byteLen with
    | none => rfl
    | some completion => simp [isReceive_of_workCompletion hreport]

theorem exists_settles_activeFailed (hb : Balanced qp) (hactive : qp.activeRequest = some active)
    (status : CompletionStatus) :
    ∃ sent received reports,
      Settles ordered qp (qp.activeFinished status 0).failed sent received reports := by
  have hactive : Settles ordered qp (qp.activeFinished status 0) _ _ _ :=
    settles_activeFinished hb hactive status 0
  exact ⟨_, _, _, hactive.trans (settles_failed (hactive.balanced hb))⟩

theorem settles_receiveFinished (base : QpTransport MRS SQ RQ CQ) {work : RecvWorkRequest}
    (hb : Balanced qp) (hhistory : base.history = qp.history)
    (hretired : base.retired = qp.retired) (hqueue : base.completionQueue = qp.completionQueue)
    (hreserved : base.completionReservations = qp.completionReservations)
    (hsends : base.sendPending = qp.sendPending)
    (hreceives : qp.receivePending = work :: base.receivePending) (status : CompletionStatus)
    (byteLen : ℕ) :
    Settles ordered qp (base.receiveFinished work status byteLen) [] [⟨work, status, byteLen⟩]
      [QpContext.receiveCompletion work status byteLen] := by
  have hopcode := isReceive_receiveCompletion work status byteLen
  refine settles_resolved (base.setInboundMemory none) [] [⟨work, status, byteLen⟩] hb hhistory ?_
    hqueue hreserved hsends.symm (Lists.of_eq hreceives) ?_ ?_ rfl
  · change unflushed (base.retired.map RetiredRequest.result) = _
    rw [hretired]
    exact (List.append_nil _).symm
  · simp [isSend, hopcode]
  · simp [hopcode, receiveReport]

end Parts

end Rocev2.Rc
