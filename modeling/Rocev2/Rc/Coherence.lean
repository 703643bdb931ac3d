import Rocev2.Rc.Batch

/-!
# Coherence of the schedulers

The endpoint keeps three schedulers next to its table: the ready queues of the requester and the
responder and the timers.  A slot is *coherent* in one of these respects when the scheduler says
about it what the slot says about itself.

Between popping a slot from a scheduler and synchronizing it again, the slot is *dirty* in that
respect.  `ep.Coherent dirty` says that everything outside `dirty` is coherent; the functions of
the endpoint are followed by how they change `dirty`.  A slot whose ACK timeout is not
representable is dropped by the requester without being synchronized, so it may be runnable and
not scheduled; a slot that is scheduled is runnable in any case.
-/

namespace Rocev2.Rc

open Rocev2.Core

/-- The schedulers of the endpoint. -/
inductive Component where
  | ready (kind : DataTxClass)
  | timer
deriving DecidableEq, Repr

def RcQpSlot.isScheduled {MRS SQ RQ CQ : ℕ} (slot : RcQpSlot MRS SQ RQ CQ) : DataTxClass → Bool
  | .requester => slot.requesterScheduled
  | .responder => slot.responderScheduled

namespace RcEndpoint

variable {QPS MRS SQ RQ CQ IDX : ℕ} {index : Fin QPS}

variable (ep : RcEndpoint QPS MRS SQ RQ CQ IDX) {queue : ReadyQueue QPS}

def ready : DataTxClass → ReadyQueue QPS
  | .requester => ep.requesterReady
  | .responder => ep.responderReady

def setReady (kind : DataTxClass)
    (queue : ReadyQueue QPS) : RcEndpoint QPS MRS SQ RQ CQ IDX :=
  match kind with
  | .requester => { ep with requesterReady := queue }
  | .responder => { ep with responderReady := queue }

def timerEntry (index : Fin QPS) (slot : RcQpSlot MRS SQ RQ CQ) : Option TimerEntry :=
  slot.timerDeadline.map fun deadline ↦
    ⟨deadline, index.val, slot.generation, slot.timerSequence⟩

def Timed (i : Fin QPS) : Prop :=
  ∀ slot, ep.qps i = some slot →
    (ackTimeoutTicks slot.machine.config.timeout ep.config.ticksPerSecond).isSome = true

instance (ep : RcEndpoint QPS MRS SQ RQ CQ IDX) (i : Fin QPS) : Decidable (Timed ep i) :=
  inferInstanceAs (Decidable (∀ slot, ep.qps i = some slot → _))

/-- A ready queue agrees with a slot. -/
structure Agrees (ep : RcEndpoint QPS MRS SQ RQ CQ IDX) (kind : DataTxClass) (i : Fin QPS) :
    Prop where
  /-- A scheduled slot is runnable. -/
  runnable : i ∈ (ep.ready kind).slots → ∃ slot, ep.qps i = some slot ∧ slot.isRunnable kind = true
  /-- A runnable slot is scheduled. -/
  queued : (kind = .requester → ep.Timed i) → ∀ slot, ep.qps i = some slot →
    slot.isRunnable kind = true → i ∈ (ep.ready kind).slots
  /-- The slot knows whether it is scheduled. -/
  flag : ∀ slot, ep.qps i = some slot →
    (slot.isScheduled kind = true ↔ i ∈ (ep.ready kind).slots)

def CoherentAt : Component → Fin QPS → Prop
  | .ready kind, i => ep.Agrees kind i
  | .timer, i => ep.timerScheduler.get i = (ep.qps i).bind (timerEntry i)

def Coherent (dirty : Set (Component × Fin QPS)) : Prop :=
  ∀ c i, (c, i) ∉ dirty → ep.CoherentAt c i

/-- The queue-pair numbers of the table. -/
def numbers (i : Fin QPS) : Option ℕ :=
  (ep.qps i).map fun slot ↦ slot.machine.config.localQpn

/-- The table agrees with the number index, and small indices are used only. -/
structure Tabled (ep : RcEndpoint QPS MRS SQ RQ CQ IDX) : Prop where
  /-- The index maps exactly the numbers of the live queue pairs. -/
  indexed : ep.qpnIndex.Lists ep.numbers
  /-- The first free slot is used, so an index is less than the number of queue-pair numbers. -/
  bound : ∀ i slot, ep.qps i = some slot → i.val < 2 ^ 24
  /-- Only live slots arm timers, under their own index. -/
  armed : ∀ i entry, ep.timerScheduler.get i = some entry → i.val < 2 ^ 24 ∧ entry.qpSlot = i.val
  /-- A full packet of a live queue pair fits the packet size of the endpoint. -/
  sized : ∀ i slot, ep.qps i = some slot →
    maximumPacketForMtu slot.machine.config.pathMtu.bytes ≤ ep.config.maximumPacketSize
  /-- So does a full packet of a queue pair that has met a packet. -/
  met : ∀ arrival ∈ ep.arrivals,
    maximumPacketForMtu arrival.qp.machine.config.pathMtu.bytes ≤ ep.config.maximumPacketSize
  /-- A live queue pair has the current generation of its slot. -/
  aged : ∀ i slot, ep.qps i = some slot → slot.generation = ep.generations i

/-- The table does not depend on the logs and the counters. -/
theorem Tabled.congr {ep ep' : RcEndpoint QPS MRS SQ RQ CQ IDX} (h : ep.Tabled)
    (hqps : ep'.qps = ep.qps) (hconfig : ep'.config = ep.config)
    (hindex : ep'.qpnIndex = ep.qpnIndex) (htimers : ep'.timerScheduler = ep.timerScheduler)
    (harrivals : ep'.arrivals = ep.arrivals) (hgenerations : ep'.generations = ep.generations) :
    ep'.Tabled := by
  refine ⟨?_, ?_, ?_, ?_, ?_, ?_⟩
  · have hnumbers : ep'.numbers = ep.numbers := by
      funext i
      rw [numbers, numbers, hqps]
    rw [hindex, hnumbers]
    exact h.indexed
  · rw [hqps]
    exact h.bound
  · rw [htimers]
    exact h.armed
  · rw [hqps, hconfig]
    exact h.sized
  · rw [harrivals, hconfig]
    exact h.met
  · rw [hqps, hgenerations]
    exact h.aged

theorem Tabled.number {ep : RcEndpoint QPS MRS SQ RQ CQ IDX} (h : ep.Tabled) (i : Fin QPS)
    (slot : RcQpSlot MRS SQ RQ CQ) (hslot : ep.qps i = some slot) :
    ep.qpnIndex.get slot.machine.config.localQpn = some i.val :=
  h.indexed.get_eq (by rw [numbers, hslot, Option.map_some])

theorem numbers_update (index : Fin QPS)
    (entry : Option (RcQpSlot MRS SQ RQ CQ)) :
    numbers { ep with qps := Function.update ep.qps index entry } =
      Function.update ep.numbers index (entry.map fun slot ↦ slot.machine.config.localQpn) := by
  funext i
  exact Function.apply_update
    (fun _ ↦ Option.map fun slot : RcQpSlot MRS SQ RQ CQ ↦ slot.machine.config.localQpn) ..

section Congr

variable {ep ep' : RcEndpoint QPS MRS SQ RQ CQ IDX} {i : Fin QPS} {kind : DataTxClass}
  {slot slot' : RcQpSlot MRS SQ RQ CQ}

theorem Agrees.congr (h : ep.Agrees kind i) (hqps : ep'.qps i = ep.qps i)
    (hconfig : ep'.config = ep.config)
    (hmem : i ∈ (ep'.ready kind).slots ↔ i ∈ (ep.ready kind).slots) : ep'.Agrees kind i := by
  have htimed : ep'.Timed i ↔ ep.Timed i := by
    unfold Timed
    rw [hqps, hconfig]
  refine ⟨?_, ?_, ?_⟩
  · rw [hqps, hmem]
    exact h.runnable
  · rw [hqps, hmem, htimed]
    exact h.queued
  · rw [hqps, hmem]
    exact h.flag

theorem coherentAt_congr {c : Component} (h : ep.CoherentAt c i) (hqps : ep'.qps i = ep.qps i)
    (hconfig : ep'.config = ep.config)
    (hmem : ∀ kind, i ∈ (ep'.ready kind).slots ↔ i ∈ (ep.ready kind).slots)
    (hget : ep'.timerScheduler.get i = ep.timerScheduler.get i) : ep'.CoherentAt c i := by
  cases c with
  | ready kind => exact Agrees.congr h hqps hconfig (hmem kind)
  | timer =>
    simp only [CoherentAt, hqps, hget] at h ⊢
    exact h

/-- Agreement depends on three facts about the slot. -/
theorem Agrees.of_slot (h : ep.Agrees kind i) (hslot : ep.qps i = some slot)
    (hslot' : ep'.qps i = some slot') (hconfig : ep'.config = ep.config)
    (htimeout : slot'.machine.config.timeout = slot.machine.config.timeout)
    (hrunnable : slot'.isRunnable kind = slot.isRunnable kind)
    (hscheduled : slot'.isScheduled kind = slot.isScheduled kind)
    (hready : ep'.ready kind = ep.ready kind) : ep'.Agrees kind i := by
  refine ⟨fun hmem ↦ ?_, fun htimed current hcurrent hrun ↦ ?_, fun current hcurrent ↦ ?_⟩
  · rw [hready] at hmem
    obtain ⟨current, hcurrent, hrun⟩ := h.runnable hmem
    cases hslot.symm.trans hcurrent
    exact ⟨slot', hslot', hrunnable.trans hrun⟩
  · cases hslot'.symm.trans hcurrent
    rw [hready]
    refine h.queued (fun hkind s hs ↦ ?_) slot hslot (hrunnable.symm.trans hrun)
    cases hslot.symm.trans hs
    have hsome := htimed hkind slot' hslot'
    rw [htimeout, hconfig] at hsome
    exact hsome
  · cases hslot'.symm.trans hcurrent
    rw [hready, hscheduled]
    exact h.flag slot hslot

theorem coherentAt_timer_of_slot (h : ep.CoherentAt .timer i) (hslot : ep.qps i = some slot)
    (hslot' : ep'.qps i = some slot') (hentry : timerEntry i slot' = timerEntry i slot)
    (htimers : ep'.timerScheduler = ep.timerScheduler) : ep'.CoherentAt .timer i := by
  simp only [CoherentAt, hslot, hslot', Option.bind_some, hentry, htimers] at h ⊢
  exact h

theorem Coherent.congr {dirty : Set (Component × Fin QPS)} (h : ep.Coherent dirty)
    (hqps : ep'.qps = ep.qps) (hconfig : ep'.config = ep.config)
    (hready : ∀ kind, ep'.ready kind = ep.ready kind)
    (htimers : ep'.timerScheduler = ep.timerScheduler) : ep'.Coherent dirty := by
  intro c i hclean
  refine coherentAt_congr (h c i hclean) (congrFun hqps i) hconfig (fun kind ↦ ?_) ?_
  · rw [hready]
  · rw [htimers]

end Congr

/-! ## Synchronization -/

theorem synchronizeTimer_self {timers : TimerScheduler QPS} {slot : RcQpSlot MRS SQ RQ CQ}
    (hbound : index.val < 2 ^ 24) (hlen : timers.len < 2 ^ 32 - 1)
    (harmed : ∀ entry, timers.get index = some entry → entry.qpSlot = index.val) :
    (synchronizeTimer timers index slot).1.get index = slot.timerDeadline.map fun deadline ↦
      ⟨deadline, index.val, slot.generation, (synchronizeTimer timers index slot).2⟩ := by
  have hindex : index.val < 2 ^ 32 := by omega
  unfold synchronizeTimer
  rw [if_pos hindex]
  cases hdeadline : slot.timerDeadline with
  | none =>
    dsimp only
    cases hget : timers.get index with
    | none => simpa using hget
    | some entry => simp
  | some deadline =>
    dsimp only
    split
    · rename_i hcurrent
      cases hget : timers.get index with
      | none =>
        rw [hget] at hcurrent
        cases hcurrent
      | some entry =>
        rw [hget] at hcurrent
        have hslot := harmed entry hget
        obtain ⟨hd, hg, hs⟩ := of_decide_eq_true hcurrent
        obtain ⟨d, q, g, s⟩ := entry
        rw [Option.map_some]
        exact congrArg some (TimerEntry.mk.injEq .. ▸ ⟨hd, hslot, hg, hs⟩)
    · rw [TimerScheduler.get_schedule_self hlen]
      rfl

theorem synchronizeTimer_of_ne (timers : TimerScheduler QPS) {other : Fin QPS}
    (slot : RcQpSlot MRS SQ RQ CQ) (hne : other ≠ index) :
    (synchronizeTimer timers index slot).1.get other = timers.get other := by
  unfold synchronizeTimer
  split
  · split
    · dsimp only
      split
      · rfl
      · exact TimerScheduler.get_schedule_of_ne _ _ hne
    · split
      · exact TimerScheduler.get_cancel_of_ne _ hne
      · rfl
  · rfl

theorem mem_reschedule {runnable : Bool} (hbound : index.val < 2 ^ 24) :
    index ∈ (if runnable then queue.schedule index else queue.cancel index).slots ↔
      runnable = true := by
  cases runnable with
  | true =>
    have hmem : index ∈ (queue.schedule index).slots :=
      (ReadyQueue.mem_schedule (by omega)).mpr (Or.inl rfl)
    exact ⟨fun _ ↦ rfl, fun _ ↦ hmem⟩
  | false =>
    refine ⟨fun hmem ↦ ?_, fun h ↦ nomatch h⟩
    exact absurd rfl (ReadyQueue.mem_cancel.mp hmem).1

theorem mem_reschedule_of_ne {other : Fin QPS} {runnable : Bool} (hne : other ≠ index) :
    other ∈ (if runnable then queue.schedule index else queue.cancel index).slots ↔
      other ∈ queue.slots := by
  cases runnable with
  | true => exact ReadyQueue.mem_schedule_of_ne hne
  | false => exact ReadyQueue.mem_cancel.trans ⟨And.right, fun h ↦ ⟨hne, h⟩⟩

section Synchronize

variable {ep : RcEndpoint QPS MRS SQ RQ CQ IDX} {index : Fin QPS} {slot : RcQpSlot MRS SQ RQ CQ}
  {i : Fin QPS}

def synchronizedSlot (ep : RcEndpoint QPS MRS SQ RQ CQ IDX) (index : Fin QPS)
    (slot : RcQpSlot MRS SQ RQ CQ) : RcQpSlot MRS SQ RQ CQ :=
  { slot with
    timerSequence := (synchronizeTimer ep.timerScheduler index slot).2
    requesterScheduled := (if slot.requesterIsRunnable then ep.requesterReady.schedule index
      else ep.requesterReady.cancel index).isScheduled index
    responderScheduled := (if slot.responderIsRunnable then ep.responderReady.schedule index
      else ep.responderReady.cancel index).isScheduled index }

theorem synchronizeQp_of_some (h : ep.qps index = some slot) :
    ep.synchronizeQp index =
      { ep with
        requesterReady := if slot.requesterIsRunnable then ep.requesterReady.schedule index
          else ep.requesterReady.cancel index
        responderReady := if slot.responderIsRunnable then ep.responderReady.schedule index
          else ep.responderReady.cancel index
        timerScheduler := (synchronizeTimer ep.timerScheduler index slot).1
        activity := ep.activity ++ [Activity.observed .requester index slot.requesterIsRunnable,
          Activity.observed .responder index slot.responderIsRunnable]
        qps := Function.update ep.qps index (some (ep.synchronizedSlot index slot)) } := by
  unfold synchronizeQp
  rw [h]
  rfl

theorem synchronizeQp_of_none (h : ep.qps index = none) :
    ep.synchronizeQp index =
      { ep with
        requesterReady := ep.requesterReady.cancel index
        responderReady := ep.responderReady.cancel index
        timerScheduler :=
          if index.val < 2 ^ 32 then ep.timerScheduler.cancel index else ep.timerScheduler
        activity := ep.activity ++
          [Activity.idle .requester index, Activity.idle .responder index] } := by
  unfold synchronizeQp
  rw [h]
  unfold descheduleQp
  dsimp only
  rw [h]

theorem Tabled.len_lt (htabled : ep.Tabled) : ep.timerScheduler.len < 2 ^ 32 - 1 := by
  have hle : ep.timerScheduler.len ≤ 2 ^ 24 := by
    refine TimerScheduler.len_le_of_armed_lt fun i hsome ↦ ?_
    obtain ⟨entry, hentry⟩ := Option.isSome_iff_exists.mp hsome
    exact (htabled.armed i entry hentry).1
  omega

theorem ready_synchronizeQp (ep : RcEndpoint QPS MRS SQ RQ CQ IDX) (index : Fin QPS)
    (kind : DataTxClass) :
    (ep.synchronizeQp index).ready kind =
      if (ep.qps index).any fun slot ↦ slot.isRunnable kind then (ep.ready kind).schedule index
      else (ep.ready kind).cancel index := by
  cases hslot : ep.qps index with
  | none =>
    rw [synchronizeQp_of_none hslot]
    cases kind <;> rfl
  | some slot =>
    rw [synchronizeQp_of_some hslot]
    cases kind <;> rfl

theorem agrees_synchronizeQp (htabled : ep.Tabled) (kind : DataTxClass) :
    (ep.synchronizeQp index).Agrees kind index := by
  have hready := ready_synchronizeQp ep index kind
  cases hslot : ep.qps index with
  | none =>
    have hnone : (ep.synchronizeQp index).qps index = none := by
      rw [synchronizeQp_of_none hslot]
      exact hslot
    refine ⟨fun hmem ↦ ?_, fun _ slot hsome ↦ ?_, fun slot hsome ↦ ?_⟩
    · rw [hready, hslot] at hmem
      exact absurd rfl (ReadyQueue.mem_cancel.mp hmem).1
    · exact nomatch hnone.symm.trans hsome
    · exact nomatch hnone.symm.trans hsome
  | some slot =>
    have hsome : (ep.synchronizeQp index).qps index = some (ep.synchronizedSlot index slot) := by
      rw [synchronizeQp_of_some hslot]
      exact Function.update_self ..
    have hmem : index ∈ ((ep.synchronizeQp index).ready kind).slots ↔
        slot.isRunnable kind = true := by
      rw [hready, hslot]
      exact mem_reschedule (htabled.bound index slot hslot)
    have hflag : (ep.synchronizedSlot index slot).isScheduled kind =
        decide (index ∈ ((ep.synchronizeQp index).ready kind).slots) := by
      rw [hready, hslot]
      cases kind <;> rfl
    refine ⟨fun hscheduled ↦ ⟨_, hsome, hmem.mp hscheduled⟩, fun _ current hcurrent hrunnable ↦ ?_,
      fun current hcurrent ↦ ?_⟩
    · cases hsome.symm.trans hcurrent
      exact hmem.mpr hrunnable
    · cases hsome.symm.trans hcurrent
      rw [hflag, decide_eq_true_iff]

/-- Synchronization makes a slot coherent in every respect. -/
theorem coherentAt_synchronizeQp (htabled : ep.Tabled) (c : Component) :
    (ep.synchronizeQp index).CoherentAt c index := by
  cases c with
  | ready kind => exact agrees_synchronizeQp htabled kind
  | timer =>
    cases hslot : ep.qps index with
    | none =>
      rw [synchronizeQp_of_none hslot]
      change TimerScheduler.get _ index = (ep.qps index).bind (timerEntry index)
      rw [hslot]
      split
      · exact TimerScheduler.get_cancel_self _ _
      · rename_i hlarge
        cases hget : ep.timerScheduler.get index with
        | none => rfl
        | some entry => exact absurd (htabled.armed index entry hget).1 (by omega)
    | some slot =>
      rw [synchronizeQp_of_some hslot]
      simp only [CoherentAt, Function.update_self, Option.bind_some]
      exact synchronizeTimer_self (htabled.bound index slot hslot) htabled.len_lt
        fun entry hget ↦ (htabled.armed index entry hget).2

theorem mem_synchronizeQp_of_ne (hne : i ≠ index) (kind : DataTxClass) :
    i ∈ ((ep.synchronizeQp index).ready kind).slots ↔ i ∈ (ep.ready kind).slots := by
  rw [ready_synchronizeQp]
  exact mem_reschedule_of_ne hne

theorem coherentAt_synchronizeQp_of_ne (hne : i ≠ index) {c : Component} (h : ep.CoherentAt c i) :
    (ep.synchronizeQp index).CoherentAt c i := by
  cases hslot : ep.qps index with
  | none =>
    refine coherentAt_congr h ?_ ?_ (fun kind ↦ mem_synchronizeQp_of_ne hne kind) ?_
    all_goals rw [synchronizeQp_of_none hslot]
    dsimp only
    split
    · exact TimerScheduler.get_cancel_of_ne _ hne
    · rfl
  | some slot =>
    refine coherentAt_congr h ?_ ?_ (fun kind ↦ mem_synchronizeQp_of_ne hne kind) ?_
    all_goals rw [synchronizeQp_of_some hslot]
    · exact Function.update_of_ne hne _ _
    · exact synchronizeTimer_of_ne _ slot hne

theorem qps_synchronizeQp (ep : RcEndpoint QPS MRS SQ RQ CQ IDX) (index i : Fin QPS) :
    ((ep.synchronizeQp index).qps i).map (fun slot ↦ (slot.toQpTransport, slot.generation)) =
      (ep.qps i).map fun slot ↦ (slot.toQpTransport, slot.generation) := by
  cases hslot : ep.qps index with
  | none => rw [synchronizeQp_of_none hslot]
  | some slot =>
    rw [synchronizeQp_of_some hslot]
    by_cases hi : i = index
    · subst hi
      simp only [Function.update_self, hslot, Option.map_some, synchronizedSlot]
    · simp only [Function.update_of_ne hi]

theorem frame_synchronizeQp (ep : RcEndpoint QPS MRS SQ RQ CQ IDX) (index : Fin QPS) :
    (ep.synchronizeQp index).config = ep.config ∧ (ep.synchronizeQp index).memory = ep.memory ∧
      (ep.synchronizeQp index).offered = ep.offered ∧
      (ep.synchronizeQp index).arrivals = ep.arrivals ∧
      (ep.synchronizeQp index).pendingControl = ep.pendingControl ∧
      (ep.synchronizeQp index).qpnIndex = ep.qpnIndex ∧
      (ep.synchronizeQp index).nextDataTxClass = ep.nextDataTxClass ∧
      (ep.synchronizeQp index).generations = ep.generations := by
  cases hslot : ep.qps index with
  | none =>
    rw [synchronizeQp_of_none hslot]
    exact ⟨rfl, rfl, rfl, rfl, rfl, rfl, rfl, rfl⟩
  | some slot =>
    rw [synchronizeQp_of_some hslot]
    exact ⟨rfl, rfl, rfl, rfl, rfl, rfl, rfl, rfl⟩

theorem activity_synchronizeQp (ep : RcEndpoint QPS MRS SQ RQ CQ IDX) (index : Fin QPS) :
    (ep.synchronizeQp index).activity = ep.activity ++
      [Activity.observed .requester index
          ((ep.qps index).any fun slot ↦ slot.isRunnable .requester),
        Activity.observed .responder index
          ((ep.qps index).any fun slot ↦ slot.isRunnable .responder)] := by
  cases hslot : ep.qps index with
  | none =>
    rw [synchronizeQp_of_none hslot]
    rfl
  | some slot =>
    rw [synchronizeQp_of_some hslot]
    rfl

theorem exists_of_qps_synchronizeQp {slot' : RcQpSlot MRS SQ RQ CQ}
    (h : (ep.synchronizeQp index).qps i = some slot') :
    ∃ slot, ep.qps i = some slot ∧ slot'.toQpTransport = slot.toQpTransport ∧
      slot'.generation = slot.generation := by
  have hmap := qps_synchronizeQp ep index i
  rw [h, Option.map_some] at hmap
  obtain ⟨slot, hslot, heq⟩ := Option.map_eq_some_iff.mp hmap.symm
  exact ⟨slot, hslot, (congrArg Prod.fst heq).symm, (congrArg Prod.snd heq).symm⟩

theorem Tabled.synchronizeQp (htabled : ep.Tabled) (index : Fin QPS) :
    (ep.synchronizeQp index).Tabled := by
  obtain ⟨hconfig, -, -, harrivals, -, hindex, -, hgenerations⟩ := frame_synchronizeQp ep index
  refine ⟨?_, fun i slot' hslot' ↦ ?_, ?_, fun i slot' hslot' ↦ ?_, ?_, fun i slot' hslot' ↦ ?_⟩
  · have hnumbers : (ep.synchronizeQp index).numbers = ep.numbers := by
      funext i
      have hmap := congrArg (Option.map fun x ↦ x.1.machine.config.localQpn)
        (qps_synchronizeQp ep index i)
      rw [Option.map_map, Option.map_map] at hmap
      exact hmap
    rw [hindex, hnumbers]
    exact htabled.indexed
  · obtain ⟨slot, hslot, -⟩ := exists_of_qps_synchronizeQp hslot'
    exact htabled.bound i slot hslot
  · intro i entry hentry
    cases hslot : ep.qps index with
    | none =>
      rw [synchronizeQp_of_none hslot] at hentry
      dsimp only at hentry
      split at hentry
      · by_cases hi : i = index
        · subst hi
          rw [TimerScheduler.get_cancel_self] at hentry
          cases hentry
        · rw [TimerScheduler.get_cancel_of_ne _ hi] at hentry
          exact htabled.armed i entry hentry
      · exact htabled.armed i entry hentry
    | some slot =>
      rw [synchronizeQp_of_some hslot] at hentry
      dsimp only at hentry
      by_cases hi : i = index
      · subst hi
        have hbound := htabled.bound i slot hslot
        rw [synchronizeTimer_self hbound htabled.len_lt
          fun entry hget ↦ (htabled.armed i entry hget).2] at hentry
        obtain ⟨deadline, -, rfl⟩ := Option.map_eq_some_iff.mp hentry
        exact ⟨hbound, rfl⟩
      · rw [synchronizeTimer_of_ne _ slot hi] at hentry
        exact htabled.armed i entry hentry
  · obtain ⟨slot, hslot, heq, -⟩ := exists_of_qps_synchronizeQp hslot'
    rw [hconfig, heq]
    exact htabled.sized i slot hslot
  · rw [hconfig, harrivals]
    exact htabled.met
  · obtain ⟨slot, hslot, -, heq⟩ := exists_of_qps_synchronizeQp hslot'
    rw [hgenerations, heq]
    exact htabled.aged i slot hslot

end Synchronize

end RcEndpoint

end Rocev2.Rc
