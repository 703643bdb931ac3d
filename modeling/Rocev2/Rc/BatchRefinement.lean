import Rocev2.Rc.ProgressRefinement

/-!
# Staging a batch

A batch stages packets before the backend accepts them.  While a packet is staged, its slot is
taken from its ready queue and not yet settled, so the slot is in flight and dirty; the transport
state advances only when the packet is committed.

`Owed` is what committing and rolling back need: every staged packet is still the next packet of
its slot, no slot is staged twice in a class, and the staged replies are the oldest ones that wait.
`Staged` adds what staging another packet needs: a slot that is staged waits in no ready queue of
its class, so the head of a ready queue is coherent and has a packet to send.
-/

namespace Rocev2.Rc

open Rocev2.Core Rocev2.Wire Rocev2.Memory

variable {QPS MRS SQ RQ CQ IDX : ℕ} {packet : WirePacket} {memory : MemoryRegistry MRS}
  {active : ActiveRequest} {wire : PreparedWirePacket} {allowed : EngineEvent QPS → Prop}
  {start : Engine QPS MRS SQ RQ CQ} {turns : List (Activity QPS MRS SQ RQ CQ)} {next : DataTxClass}
  {qps qps' : Fin QPS → Option (QpTransport MRS SQ RQ CQ)} {staged : List (PreparedTx QPS × ℕ)}
  {packets : List WirePacket} {ep : RcEndpoint QPS MRS SQ RQ CQ IDX} {remoteQpn : ℕ}
  {path : Ipv4Path}

/-! ## What is staged -/

namespace PreparedTx

def slotIn (kind : DataTxClass) (tx : PreparedTx QPS) : Option (Fin QPS) :=
  tx.qpIndex.bind fun current ↦ if current.1 = kind then some current.2 else none

/-- The reply of a staged packet. -/
def reply : PreparedTx QPS → Option ControlReply
  | .control reply => some reply
  | .requester _ _ _ | .responder _ _ => none

end PreparedTx

variable (kind : DataTxClass)

def slotsOf (staged : List (PreparedTx QPS × ℕ)) : List (Fin QPS) :=
  staged.filterMap fun prepared ↦ prepared.1.slotIn kind

def repliesOf (staged : List (PreparedTx QPS × ℕ)) : List ControlReply :=
  staged.filterMap fun prepared ↦ prepared.1.reply

def dirtyOf (staged : List (PreparedTx QPS × ℕ)) : Set (Component × Fin QPS) :=
  { x | ∃ kind, x.1 = .ready kind ∧ x.2 ∈ slotsOf kind staged }

def booksOf (turns : List (Activity QPS MRS SQ RQ CQ)) (next : DataTxClass)
    (staged : List (PreparedTx QPS × ℕ)) : Books QPS MRS SQ RQ CQ :=
  ⟨fun kind ↦ slotsOf kind staged, [], turns, next⟩

def Carries (qps : Fin QPS → Option (QpTransport MRS SQ RQ CQ)) (tx : PreparedTx QPS)
    (packet : WirePacket) : Prop :=
  match tx with
  | .control reply => packet = controlPacket reply
  | .requester index _ _ => ∃ qp active, qps index = some qp ∧ qp.activeRequest = some active ∧
      active.phase = .sending ∧ packet.bth.psn = active.firstPsn.wrappingAdd active.nextPacket
  | .responder index _ => ∃ qp response, qps index = some qp ∧ qp.readResponse = some response ∧
      packet.bth.psn = response.requestPsn.wrappingAdd response.nextPacket

/-- The half of a queue pair that the packets of a class come from. -/
def QpTransport.half (qp : QpTransport MRS SQ RQ CQ) :
    DataTxClass → Option ActiveRequest ⊕ Option ReadResponseState
  | .requester => .inl qp.activeRequest
  | .responder => .inr qp.readResponse

/-- A staged packet depends on one half of its queue pair only. -/
theorem Carries.congr {tx : PreparedTx QPS} (h : Carries qps tx packet)
    (hsame : ∀ kind index, tx.slotIn kind = some index →
      (qps' index).map (fun qp ↦ qp.half kind) = (qps index).map fun qp ↦ qp.half kind) :
    Carries qps' tx packet := by
  cases tx with
  | control reply => exact h
  | requester index timeoutTicks nextClass =>
    obtain ⟨qp, active, hqp, hactive, hphase, hpsn⟩ := h
    have hmap := hsame .requester index rfl
    rw [hqp] at hmap
    obtain ⟨qp', hqp', hhalf⟩ := Option.map_eq_some_iff.mp hmap
    exact ⟨qp', active, hqp', (Sum.inl.inj hhalf).trans hactive, hphase, hpsn⟩
  | responder index nextClass =>
    obtain ⟨qp, response, hqp, hresponse, hpsn⟩ := h
    have hmap := hsame .responder index rfl
    rw [hqp] at hmap
    obtain ⟨qp', hqp', hhalf⟩ := Option.map_eq_some_iff.mp hmap
    exact ⟨qp', response, hqp', (Sum.inr.inj hhalf).trans hresponse, hpsn⟩

theorem carries_imp {packets : List WirePacket}
    (h : List.Forall₂ (fun prepared packet ↦ Carries qps prepared.1 packet) staged packets)
    (himp : ∀ prepared ∈ staged, ∀ packet, Carries qps prepared.1 packet →
      Carries qps' prepared.1 packet) :
    List.Forall₂ (fun prepared packet ↦ Carries qps' prepared.1 packet) staged packets := by
  obtain ⟨hlength, hall⟩ := List.forall₂_iff_zip.mp h
  exact List.forall₂_iff_zip.mpr
    ⟨hlength, fun hmem ↦ himp _ (List.of_mem_zip hmem).1 _ (hall hmem)⟩

/-- **What commits and rollbacks need.** -/
structure Owed (allowed : EngineEvent QPS → Prop) (start : Engine QPS MRS SQ RQ CQ)
    (turns : List (Activity QPS MRS SQ RQ CQ)) (next : DataTxClass)
    (staged : List (PreparedTx QPS × ℕ)) (packets : List WirePacket)
    (ep : RcEndpoint QPS MRS SQ RQ CQ IDX) : Prop
    extends Holds allowed start (booksOf turns next staged) (dirtyOf staged) ep where
  /-- No slot is staged twice in a class. -/
  nodup : ∀ kind, (slotsOf kind staged).Nodup
  /-- Every staged packet is the next one of its queue pair. -/
  carries : List.Forall₂ (fun prepared packet ↦ Carries ep.engine.qps prepared.1 packet) staged
    packets
  /-- The staged replies are the oldest ones that wait. -/
  replies : repliesOf staged <+: ep.pendingControl.items

/-- **What staging another packet needs.** -/
structure Staged (allowed : EngineEvent QPS → Prop) (start : Engine QPS MRS SQ RQ CQ)
    (turns : List (Activity QPS MRS SQ RQ CQ)) (next : DataTxClass)
    (staged : List (PreparedTx QPS × ℕ)) (packets : List WirePacket)
    (ep : RcEndpoint QPS MRS SQ RQ CQ IDX) : Prop
    extends Owed allowed start turns next staged packets ep where
  unscheduled : ∀ kind, ∀ i ∈ slotsOf kind staged, i ∉ (ep.ready kind).slots

theorem slotsOf_nil :
    slotsOf kind ([] : List (PreparedTx QPS × ℕ)) = [] :=
  rfl

theorem slotsOf_append (staged staged' : List (PreparedTx QPS × ℕ)) :
    slotsOf kind (staged ++ staged') = slotsOf kind staged ++ slotsOf kind staged' :=
  List.filterMap_append

theorem repliesOf_append (staged staged' : List (PreparedTx QPS × ℕ)) :
    repliesOf (staged ++ staged') = repliesOf staged ++ repliesOf staged' :=
  List.filterMap_append

theorem dirtyOf_nil : dirtyOf ([] : List (PreparedTx QPS × ℕ)) = ∅ := by
  ext x
  simp [dirtyOf, slotsOf]

theorem booksOf_nil (turns : List (Activity QPS MRS SQ RQ CQ)) (next : DataTxClass) :
    booksOf turns next ([] : List (PreparedTx QPS × ℕ)) = .settled turns next :=
  rfl

theorem booksOf_congr {staged' : List (PreparedTx QPS × ℕ)}
    (turns : List (Activity QPS MRS SQ RQ CQ)) (next : DataTxClass)
    (hslots : ∀ kind, slotsOf kind staged = slotsOf kind staged') :
    booksOf turns next staged = booksOf turns next staged' ∧ dirtyOf staged = dirtyOf staged' := by
  refine ⟨Books.ext (funext hslots) rfl rfl rfl, ?_⟩
  unfold dirtyOf
  simp only [hslots]

theorem slotsOf_cons_none {tx : PreparedTx QPS} (h : tx.qpIndex = none) (length : ℕ)
    (staged : List (PreparedTx QPS × ℕ)) (kind : DataTxClass) :
    slotsOf kind ((tx, length) :: staged) = slotsOf kind staged := by
  refine List.filterMap_cons_none ?_
  rw [PreparedTx.slotIn, h]
  rfl

section Stage

variable {kind other : DataTxClass} {index : Fin QPS} {tx : PreparedTx QPS} {length : ℕ}

theorem slotIn_self (h : tx.qpIndex = some (kind, index)) : tx.slotIn kind = some index := by
  rw [PreparedTx.slotIn, h, Option.bind_some, if_pos rfl]

theorem slotIn_of_ne (h : tx.qpIndex = some (kind, index)) (hne : other ≠ kind) :
    tx.slotIn other = none := by
  rw [PreparedTx.slotIn, h, Option.bind_some, if_neg hne.symm]

theorem slotsOf_cons_self (h : tx.qpIndex = some (kind, index)) :
    slotsOf kind ((tx, length) :: staged) = index :: slotsOf kind staged :=
  List.filterMap_cons_some (f := fun prepared : PreparedTx QPS × ℕ ↦ prepared.1.slotIn kind)
    (slotIn_self h)

theorem slotsOf_cons_of_ne (h : tx.qpIndex = some (kind, index)) (hne : other ≠ kind) :
    slotsOf other ((tx, length) :: staged) = slotsOf other staged :=
  List.filterMap_cons_none (f := fun prepared : PreparedTx QPS × ℕ ↦ prepared.1.slotIn other)
    (slotIn_of_ne h hne)

theorem repliesOf_cons (h : tx.qpIndex = some (kind, index)) :
    repliesOf ((tx, length) :: staged) = repliesOf staged := by
  cases tx with
  | control reply => cases h
  | requester | responder => rfl

theorem booksOf_fly (turns : List (Activity QPS MRS SQ RQ CQ)) (next : DataTxClass)
    {staged' : List (PreparedTx QPS × ℕ)} {slots : List (Fin QPS)}
    (event : Activity QPS MRS SQ RQ CQ) (hkind : slots = slotsOf kind staged')
    (hother : ∀ other, other ≠ kind → slotsOf other staged = slotsOf other staged') :
    (booksOf turns next staged).fly kind slots event = booksOf (turns ++ [event]) next staged' := by
  refine Books.ext (funext fun current ↦ ?_) rfl rfl rfl
  change (if current = kind then slots else slotsOf current staged) = slotsOf current staged'
  by_cases hcurrent : current = kind
  · rw [if_pos hcurrent, hkind, hcurrent]
  · rw [if_neg hcurrent, hother current hcurrent]

theorem slotsOf_snoc_self (h : tx.qpIndex = some (kind, index)) :
    slotsOf kind (staged ++ [(tx, length)]) = slotsOf kind staged ++ [index] := by
  rw [slotsOf_append, slotsOf_cons_self h, slotsOf_nil]

theorem slotsOf_snoc_of_ne (h : tx.qpIndex = some (kind, index)) (hne : other ≠ kind) :
    slotsOf other (staged ++ [(tx, length)]) = slotsOf other staged := by
  rw [slotsOf_append, slotsOf_cons_of_ne h hne, slotsOf_nil, List.append_nil]

/-- Staging a data packet makes its slot dirty. -/
theorem dirtyOf_snoc (h : tx.qpIndex = some (kind, index)) :
    dirtyOf (staged ++ [(tx, length)]) = insert (.ready kind, index) (dirtyOf staged) := by
  ext x
  constructor
  · rintro ⟨current, hx, hmem⟩
    by_cases hcurrent : current = kind
    · subst hcurrent
      rw [slotsOf_snoc_self h] at hmem
      rcases List.mem_append.mp hmem with hold | hnew
      · exact .inr ⟨current, hx, hold⟩
      · exact .inl (Prod.ext hx (List.mem_singleton.mp hnew))
    · rw [slotsOf_snoc_of_ne h hcurrent] at hmem
      exact .inr ⟨current, hx, hmem⟩
  · rintro (rfl | ⟨current, hx, hmem⟩)
    · refine ⟨kind, rfl, ?_⟩
      rw [slotsOf_snoc_self h]
      exact List.mem_append_right _ List.mem_cons_self
    · refine ⟨current, hx, ?_⟩
      rw [slotsOf_append]
      exact List.mem_append_left _ hmem

end Stage

/-! ## Outcomes of a preparation -/

/-- Preparing packets starts requests and changes nothing else of the queue pairs. -/
structure Starts (ep ep' : RcEndpoint QPS MRS SQ RQ CQ IDX) : Prop where
  config : ep'.config = ep.config
  qps : ∀ i, ep'.engine.qps i = ep.engine.qps i ∨ ep'.engine.qps i =
    (ep.engine.qps i).map fun qp ↦ startNextRequest qp ep.config.ticksPerSecond
  pending : ep'.pendingControl = ep.pendingControl

theorem Starts.refl (ep : RcEndpoint QPS MRS SQ RQ CQ IDX) : Starts ep ep :=
  ⟨rfl, fun _ ↦ .inl rfl, rfl⟩

theorem startNextRequest_startNextRequest {qp : QpTransport MRS SQ RQ CQ}
    (hvalid : qp.machine.config.Valid) (ticksPerSecond : ℕ) :
    startNextRequest (startNextRequest qp ticksPerSecond) ticksPerSecond =
      startNextRequest qp ticksPerSecond := by
  have heffect := startNextRequest_effect hvalid ticksPerSecond
  generalize hstarted : startNextRequest qp ticksPerSecond = qp' at heffect ⊢
  cases heffect with
  | waits => exact hstarted
  | starts =>
    unfold startNextRequest
    exact if_pos (.inl rfl)

theorem Starts.trans {ep' ep'' : RcEndpoint QPS MRS SQ RQ CQ IDX} (h : Starts ep ep')
    (h' : Starts ep' ep'') (hinv : ep.engine.Inv) : Starts ep ep'' := by
  refine ⟨h'.config.trans h.config, fun i ↦ ?_, h'.pending.trans h.pending⟩
  have hticks := h.config
  rcases h.qps i with hfirst | hfirst <;> rcases h'.qps i with hsecond | hsecond
  · exact .inl (hsecond.trans hfirst)
  · rw [hfirst, hticks] at hsecond
    exact .inr hsecond
  · exact .inr (hsecond.trans hfirst)
  · rw [hfirst, hticks] at hsecond
    refine .inr (hsecond.trans ?_)
    cases hqp : ep.engine.qps i with
    | none => rfl
    | some qp =>
      exact congrArg some (startNextRequest_startNextRequest (hinv.qp i qp hqp).config _)

/-- **What preparing a data packet can end in.** -/
inductive Prepares (allowed : EngineEvent QPS → Prop) (start : Engine QPS MRS SQ RQ CQ)
    (turns : List (Activity QPS MRS SQ RQ CQ)) (next : DataTxClass)
    (staged : List (PreparedTx QPS × ℕ)) (packets : List WirePacket)
    (ep : RcEndpoint QPS MRS SQ RQ CQ IDX) : RcEndpoint QPS MRS SQ RQ CQ IDX →
      Except ApiError (Option (PreparedWirePacket × PreparedTx QPS)) → Prop
  | /-- The ACK timeout of a slot is not representable. -/
    failed {ep' index waiting others} (hstarts : Starts ep ep')
      (hoffered : ep'.offered = ep.offered) (hlate : ¬Punctual allowed start)
      (howed : Owed allowed start (turns ++
        [.taken .requester index waiting others, .returned .requester index]) next staged packets
        ep') :
      Prepares allowed start turns next staged packets ep ep' (.error .invalidTicksPerSecond)
  | /-- There is nothing to send. -/
    idle (stats : RcEndpointStats) :
      Prepares allowed start turns next staged packets ep { ep with stats := stats } (.ok none)
  | /-- A data packet is staged, and the engine may emit it. -/
    ready {ep' wire tx packet kind index waiting others}
      (hstarts : Starts ep ep') (hoffered : ep'.offered = ep.offered)
      (htx : tx.qpIndex = some (kind, index))
      (hstaged : ∀ length, Staged allowed start (turns ++ [.taken kind index waiting others]) next
        (staged ++ [(tx, length)]) (packets ++ [packet]) ep')
      (hpacket : RcEndpoint.preparedPacket ep'.memory wire = .ok packet)
      (hemits : Emits ep'.engine tx.qpIndex packet) :
      Prepares allowed start turns next staged packets ep ep' (.ok (some (wire, tx)))

section Rules

variable {ep' : RcEndpoint QPS MRS SQ RQ CQ IDX} {index : Fin QPS} {slot : RcQpSlot MRS SQ RQ CQ}
  {queue : ReadyQueue QPS} {kind : DataTxClass}

theorem Holds.noneStaged (h : Holds allowed start (.settled turns next) ∅ ep) :
    Staged allowed start turns next [] [] ep where
  toHolds := by
    rw [booksOf_nil, dirtyOf_nil]
    exact h
  nodup _ := List.nodup_nil
  carries := .nil
  replies := List.nil_prefix
  unscheduled _ _ hmem := nomatch hmem

theorem Owed.withStats (h : Owed allowed start turns next staged packets ep)
    (stats : RcEndpointStats) :
    Owed allowed start turns next staged packets { ep with stats := stats } :=
  ⟨h.toHolds.withStats stats, h.nodup, h.carries, h.replies⟩

theorem Staged.withStats (h : Staged allowed start turns next staged packets ep)
    (stats : RcEndpointStats) :
    Staged allowed start turns next staged packets { ep with stats := stats } :=
  ⟨h.toOwed.withStats stats, h.unscheduled⟩

theorem Owed.giveBackLast {tx : PreparedTx QPS} {length : ℕ}
    (h : Owed allowed start turns next (staged ++ [(tx, length)]) packets ep)
    (htx : tx.qpIndex = some (kind, index)) :
    Holds allowed start (booksOf (turns ++ [.returned kind index]) next staged)
      (insert (.ready kind, index) (dirtyOf staged)) (ep.log (.returned kind index)) := by
  have hgiven := h.toHolds.giveBack kind index
  have hnodup := h.nodup kind
  rw [slotsOf_snoc_self htx] at hnodup
  have hslots : ((booksOf turns next (staged ++ [(tx, length)]) :
      Books QPS MRS SQ RQ CQ).flight kind).filter (· ≠ index) = slotsOf kind staged := by
    change (slotsOf kind (staged ++ [(tx, length)])).filter _ = _
    rw [slotsOf_snoc_self htx, List.filter_append, List.filter_cons_of_neg (by simp),
      List.filter_nil, List.append_nil, List.filter_eq_self]
    intro i hi
    exact decide_eq_true fun heq ↦
      (List.nodup_append.mp hnodup).2.2 i hi index List.mem_cons_self heq
  rw [dirtyOf_snoc htx, booksOf_fly turns next _ hslots fun other hne ↦ slotsOf_snoc_of_ne htx hne]
    at hgiven
  exact hgiven

namespace Staged

theorem not_mem_of_pop (h : Staged allowed start turns next staged packets ep)
    (hpop : (ep.ready kind).pop = some (index, queue)) : index ∉ slotsOf kind staged := by
  intro hmem
  refine h.unscheduled kind index hmem ?_
  rw [ReadyQueue.pop_eq_some.mp hpop]
  exact List.mem_cons_self

theorem clean_of_pop (h : Staged allowed start turns next staged packets ep)
    (hpop : (ep.ready kind).pop = some (index, queue)) :
    (.ready kind, index) ∉ dirtyOf staged := by
  rintro ⟨current, hcurrent, hmem⟩
  cases hcurrent
  exact h.not_mem_of_pop hpop hmem

/-- **A data packet is staged.** -/
theorem stage (h : Staged allowed start turns next staged packets ep)
    (hpop : (ep.ready kind).pop = some (index, queue)) {tx : PreparedTx QPS} {length : ℕ}
    {event : Activity QPS MRS SQ RQ CQ} (htx : tx.qpIndex = some (kind, index))
    (hholds : Holds allowed start ((booksOf turns next staged).fly kind
      (slotsOf kind staged ++ [index]) event) (insert (.ready kind, index) (dirtyOf staged)) ep')
    (hqueue : (ep'.ready kind).slots = queue.slots)
    (hother : ∀ other, other ≠ kind → ep'.ready other = ep.ready other)
    (hpending : ep'.pendingControl = ep.pendingControl)
    (hcarries : Carries ep'.engine.qps tx packet)
    (hkept : ∀ tx' packet', tx'.slotIn kind ≠ some index → Carries ep.engine.qps tx' packet' →
      Carries ep'.engine.qps tx' packet') :
    Staged allowed start (turns ++ [event]) next (staged ++ [(tx, length)]) (packets ++ [packet])
      ep' where
  toHolds := by
    rw [dirtyOf_snoc htx, ← booksOf_fly turns next event (slotsOf_snoc_self htx).symm
      fun other hne ↦ (slotsOf_snoc_of_ne htx hne).symm]
    exact hholds
  nodup current := by
    by_cases hcurrent : current = kind
    · subst hcurrent
      rw [slotsOf_snoc_self htx]
      exact List.nodup_append.mpr ⟨h.nodup current, List.nodup_singleton _, fun i hi j hj heq ↦ by
        rw [List.mem_singleton] at hj
        subst hj heq
        exact h.not_mem_of_pop hpop hi⟩
    · rw [slotsOf_snoc_of_ne htx hcurrent]
      exact h.nodup current
  carries := by
    refine List.rel_append (carries_imp h.carries fun prepared hmem packet' ↦ ?_)
      (.cons hcarries .nil)
    refine hkept _ _ fun hslot ↦ h.not_mem_of_pop hpop ?_
    exact List.mem_filterMap.mpr ⟨prepared, hmem, hslot⟩
  replies := by
    rw [hpending, repliesOf_append, repliesOf_cons htx]
    exact (List.append_nil _).symm ▸ h.replies
  unscheduled current i hmem hready := by
    by_cases hcurrent : current = kind
    · subst hcurrent
      rw [slotsOf_snoc_self htx] at hmem
      rw [hqueue] at hready
      rcases List.mem_append.mp hmem with hold | hnew
      · refine h.unscheduled current i hold ?_
        rw [ReadyQueue.pop_eq_some.mp hpop]
        exact List.mem_cons_of_mem _ hready
      · rw [List.mem_singleton] at hnew
        subst hnew
        exact ReadyQueue.not_mem_of_pop hpop hready
    · rw [slotsOf_snoc_of_ne htx hcurrent] at hmem
      rw [hother current hcurrent] at hready
      exact h.unscheduled current i hmem hready

/-- **A reply is staged.** -/
theorem stageControl (h : Staged allowed start turns next staged packets ep) {reply : ControlReply}
    {length : ℕ} (hreply : ep.pendingControl.items[(repliesOf staged).length]? = some reply) :
    Staged allowed start turns next (staged ++ [(.control reply, length)])
      (packets ++ [controlPacket reply]) ep := by
  have hslots : ∀ kind, slotsOf kind (staged ++ [(.control reply, length)]) =
      slotsOf kind staged := by
    intro kind
    rw [slotsOf_append, slotsOf_cons_none rfl, slotsOf_nil, List.append_nil]
  obtain ⟨hbooks, hdirty⟩ := booksOf_congr turns next hslots
  refine ⟨⟨?_, fun kind ↦ ?_, List.rel_append h.carries (.cons rfl .nil), ?_⟩, fun kind ↦ ?_⟩
  · rw [hbooks, hdirty]
    exact h.toHolds
  · rw [hslots]
    exact h.nodup kind
  · obtain ⟨rest, hrest⟩ := h.replies
    rw [← hrest, List.getElem?_append_right (Nat.le_refl _), Nat.sub_self] at hreply
    rw [repliesOf_append, ← hrest]
    refine (List.prefix_append_right_inj _).mpr ?_
    cases rest with
    | nil => cases hreply
    | cons head rest =>
      cases hreply
      exact ⟨rest, rfl⟩
  · rw [hslots]
    exact h.unscheduled kind

end Staged

end Rules

/-! ## The requester -/

theorem buildRequestPacket_of_prepareSegmented {mtu : ℕ} {direction : TransferDirection}
    {remote : Option (UInt64 × UInt32)}
    (hkind : transferOf active.work.kind = some (direction, remote))
    (hprepare : prepareSegmentedBatchPacket memory active mtu remoteQpn path direction remote =
      .ok wire) (hpacket : RcEndpoint.preparedPacket memory wire = .ok packet) :
    buildRequestPacket memory active mtu remoteQpn path = .ok packet := by
  unfold prepareSegmentedBatchPacket at hprepare
  split at hprepare
  · cases hprepare
  rename_i offset length hbounds
  split at hprepare
  · cases hprepare
  rename_i address haddress
  split at hprepare
  · cases hprepare
  cases hprepare
  unfold RcEndpoint.preparedPacket at hpacket
  dsimp only at hpacket
  split at hpacket
  · cases hpacket
  rename_i payload hread
  cases hpacket
  have hsegment : readLocalSegment memory active.work offset length = .ok payload := by
    simp only [readLocalSegment, haddress, hread]
  unfold buildRequestPacket
  split
  · rename_i address rkey hread'
    rw [hread'] at hkind
    cases hkind
  · rw [hkind, hbounds]
    dsimp only
    rw [hsegment]
    rfl

theorem buildRequestPacket_of_prepare {mtu : ℕ}
    (hprepare : prepareRequestBatchPacket memory active mtu remoteQpn path = .ok wire)
    (hpacket : RcEndpoint.preparedPacket memory wire = .ok packet) :
    buildRequestPacket memory active mtu remoteQpn path = .ok packet := by
  unfold prepareRequestBatchPacket at hprepare
  cases hkind : active.work.kind with
  | send =>
    rw [hkind] at hprepare
    exact buildRequestPacket_of_prepareSegmented (by rw [hkind]; rfl) hprepare hpacket
  | rdmaWrite remoteAddress rkey =>
    rw [hkind] at hprepare
    exact buildRequestPacket_of_prepareSegmented (by rw [hkind]; rfl) hprepare hpacket
  | rdmaRead remoteAddress rkey =>
    rw [hkind] at hprepare
    cases hprepare
    cases hpacket
    unfold buildRequestPacket
    rw [hkind]

theorem psn_of_buildRequestPacket {mtu : ℕ}
    (h : buildRequestPacket memory active mtu remoteQpn path = .ok packet)
    (hsingle : active.work.kind.isRead = true → active.nextPacket = 0) :
    packet.bth.psn = active.firstPsn.wrappingAdd active.nextPacket := by
  unfold buildRequestPacket at h
  split at h
  · rename_i hkind
    cases h
    rw [hsingle (by rw [hkind]; rfl), Psn.wrappingAdd_zero]
    rfl
  · split at h
    · split at h
      · cases h
      · cases h
        rfl
    · cases h

theorem RcEndpoint.prepareRequesterBatch_eq {index : Fin QPS} {queue : ReadyQueue QPS}
    {slot : RcQpSlot MRS SQ RQ CQ} (hpop : ep.requesterReady.pop = some (index, queue))
    (hslot : ep.qps index = some slot)
    (hactive : (slot.requesting ep.config.ticksPerSecond).activeRequest = some active)
    (hphase : active.phase = .sending) (hprepare : prepareRequestBatchPacket ep.memory active
      (slot.requesting ep.config.ticksPerSecond).machine.config.pathMtu.bytes
      (slot.requesting ep.config.ticksPerSecond).machine.config.remoteQpn
      (slot.requesting ep.config.ticksPerSecond).path = .ok wire) (nextClass : DataTxClass)
    (fuel generated : ℕ) :
    prepareRequesterBatch nextClass (fuel + 1) ep generated =
      match ackTimeoutTicks (slot.requesting ep.config.ticksPerSecond).machine.config.timeout
        ep.config.ticksPerSecond with
      | none => ((ep.requesterTaken index queue slot).log (.returned .requester index),
          .error .invalidTicksPerSecond)
      | some timeoutTicks => ((ep.requesterTaken index queue slot).countCompletions generated,
          .ok (some (wire, .requester index timeoutTicks nextClass), generated)) := by
  rw [prepareRequesterBatch_succ nextClass fuel (ep, generated), prepareRequesterBody,
    requesterBody_eq hpop hslot hactive hphase]
  cases ackTimeoutTicks (slot.requesting ep.config.ticksPerSecond).machine.config.timeout
    ep.config.ticksPerSecond with
  | none => rfl
  | some timeoutTicks =>
    dsimp only
    rw [show prepareRequestBatchPacket (ep.requesterTaken index queue slot).memory active _ _ _ =
      .ok wire from hprepare]
    rfl

theorem Carries.requesterTaken {index : Fin QPS} {queue : ReadyQueue QPS}
    {slot : RcQpSlot MRS SQ RQ CQ} (hslot : ep.qps index = some slot)
    (hvalid : slot.machine.config.Valid) {tx : PreparedTx QPS}
    (hne : tx.slotIn .requester ≠ some index) (h : Carries ep.engine.qps tx packet) :
    Carries (ep.requesterTaken index queue slot).engine.qps tx packet := by
  refine h.congr fun kind i hi ↦ ?_
  by_cases hindex : i = index
  · subst hindex
    have hself : (ep.requesterTaken i queue slot).qps i =
      some (slot.requesting ep.config.ticksPerSecond) := Function.update_self ..
    rw [Holds.engine_qps hself, Holds.engine_qps hslot]
    cases kind with
    | requester => exact absurd hi hne
    | responder =>
      exact congrArg (some ∘ Sum.inr) (startNextRequest_effect hvalid _).same.1
  · exact congrArg _ (Holds.engine_qps_congr (Function.update_of_ne hindex ..))

theorem prepareRequesterBatch_prepares {now : ℕ} (hint : Internal allowed now)
    (h : Staged allowed start turns next staged packets ep) (nextClass : DataTxClass) :
    Prepares allowed start turns next staged packets ep
      (RcEndpoint.prepareRequesterBatch nextClass ep.requesterReady.len ep 0).1
      ((RcEndpoint.prepareRequesterBatch nextClass ep.requesterReady.len ep 0).2.map
        Prod.fst) := by
  cases hpop : ep.requesterReady.pop with
  | none =>
    rw [show ep.requesterReady.len = 0 by rw [ReadyQueue.len, ReadyQueue.pop_eq_none.mp hpop]; rfl]
    exact .idle _
  | some head =>
    obtain ⟨index, queue⟩ := head
    have hpop' : (ep.ready .requester).pop = some (index, queue) := hpop
    obtain ⟨slot, active, hslot, hactive, hphase, htaken⟩ :=
      h.toHolds.takeRequester hint hpop (h.clean_of_pop hpop') (h.not_mem_of_pop hpop')
    have hlive : (ep.requesterTaken index queue slot).qps index =
        some (slot.requesting ep.config.ticksPerSecond) := Function.update_self ..
    obtain ⟨wire, packet, hprepare, hpacket⟩ := exists_prepareRequestBatchPacket
      (htaken.granted hlive).toRequesterGranted (htaken.spans hlive) hactive hphase
    have hbuild := buildRequestPacket_of_prepare hprepare hpacket
    obtain ⟨acked, hwindow⟩ := (htaken.spans hlive).windowed hactive
    have hstarts : Starts ep (ep.requesterTaken index queue slot) := by
      refine ⟨rfl, fun i ↦ ?_, rfl⟩
      by_cases hindex : i = index
      · subst hindex
        rw [Holds.engine_qps hlive, Holds.engine_qps hslot]
        exact .inr rfl
      · exact .inl (Holds.engine_qps_congr (Function.update_of_ne hindex ..))
    have hstaged : ∀ timeoutTicks length, Staged allowed start (turns ++
        [.taken .requester index queue.slots (ep.runnable .responder)]) next
        (staged ++ [(.requester index timeoutTicks nextClass, length)]) (packets ++ [packet])
        (ep.requesterTaken index queue slot) := by
      intro timeoutTicks length
      refine h.stage hpop' rfl htaken rfl ?_ rfl ?_ ?_
      · intro other hne
        cases other with
        | requester => exact absurd rfl hne
        | responder => rfl
      · exact ⟨_, active, Holds.engine_qps hlive, hactive, hphase,
          psn_of_buildRequestPacket hbuild hwindow.single⟩
      · intro tx' packet' hne hold
        exact hold.requesterTaken hslot (h.toHolds.qpInv hslot).config hne
    rw [ReadyQueue.len_of_pop hpop,
      RcEndpoint.prepareRequesterBatch_eq hpop hslot hactive hphase hprepare]
    cases hticks : ackTimeoutTicks
        (slot.requesting ep.config.ticksPerSecond).machine.config.timeout
        ep.config.ticksPerSecond with
    | none =>
      have hlate := htaken.late hlive hticks
      have hback := ((hstaged 0 0).toOwed.giveBackLast rfl).dropped hlive rfl
        (ReadyQueue.not_mem_of_pop hpop) hticks
      rw [List.append_assoc] at hback
      refine .failed ⟨hstarts.config, hstarts.qps, rfl⟩ rfl hlate ⟨hback, h.nodup, ?_, h.replies⟩
      refine carries_imp h.carries fun prepared hmem packet' hold ↦ ?_
      refine hold.requesterTaken hslot (h.toHolds.qpInv hslot).config fun heq ↦ ?_
      exact h.not_mem_of_pop hpop' (List.mem_filterMap.mpr ⟨prepared, hmem, heq⟩)
    | some timeoutTicks =>
      exact .ready ⟨hstarts.config, hstarts.qps, rfl⟩ rfl rfl
        (fun length ↦ (hstaged timeoutTicks length).withStats _) hpacket
        (.request (Holds.engine_qps hlive) hactive hphase hbuild)

/-! ## The responder -/

theorem engine_qps_responderTaken {index : Fin QPS} (queue : ReadyQueue QPS)
    {slot : RcQpSlot MRS SQ RQ CQ} (hslot : ep.qps index = some slot) :
    (ep.responderTaken index queue slot).engine.qps = ep.engine.qps := by
  funext i
  by_cases hindex : i = index
  · subst hindex
    have hself : (ep.responderTaken i queue slot).qps i = some slot.responding :=
      Function.update_self ..
    rw [Holds.engine_qps hself, Holds.engine_qps hslot]
    rfl
  · exact Holds.engine_qps_congr (Function.update_of_ne hindex ..)

theorem prepareReadResponseBatch_prepares
    (h : Staged allowed start turns next staged packets ep) (nextClass : DataTxClass) (fuel : ℕ) :
    Prepares allowed start turns next staged packets ep
      (RcEndpoint.prepareReadResponseBatch nextClass (fuel + 1) ep 0).1
      ((RcEndpoint.prepareReadResponseBatch nextClass (fuel + 1) ep 0).2.map Prod.fst) := by
  unfold RcEndpoint.prepareReadResponseBatch
  cases hpop : ep.responderReady.pop with
  | none =>
    rw [RcEndpoint.dequeueReadResponse_of_empty (ReadyQueue.pop_eq_none.mp hpop)]
    exact .idle ep.stats
  | some head =>
    obtain ⟨index, queue⟩ := head
    have hpop' : (ep.ready .responder).pop = some (index, queue) := hpop
    obtain ⟨slot, response, hslot, hrunnable, hresponse, htaken⟩ :=
      h.toHolds.takeResponder hpop (h.clean_of_pop hpop') (h.not_mem_of_pop hpop')
    have hlive : (ep.responderTaken index queue slot).qps index = some slot.responding :=
      Function.update_self ..
    obtain ⟨address, length, hsegment, -, hvalidate, hread⟩ :=
      exists_readResponseSegment (htaken.granted hlive).toResponderGranted hresponse
    have hemits := Emits.readResponse (Holds.engine_qps hlive)
      (Bool.and_eq_true_iff.mp hrunnable).1 hresponse hsegment hread
    rw [ReadyQueue.len_of_pop hpop,
      RcEndpoint.dequeueReadResponse_eq hpop hslot hrunnable hresponse]
    dsimp only
    rw [show readResponseSegment (slot.readyResponse index response).response
      (slot.readyResponse index response).mtu = .ok (address, length) from hsegment]
    dsimp only
    rw [show (ep.responderTaken index queue slot).memory.validateRemoteRead
      (slot.readyResponse index response).response.rkey address length = .ok () from hvalidate]
    have hstarts : Starts ep (ep.responderTaken index queue slot) :=
      ⟨rfl, fun i ↦ .inl (congrFun (engine_qps_responderTaken queue hslot) i), rfl⟩
    refine .ready hstarts rfl rfl (fun size ↦ h.stage hpop' rfl htaken rfl ?_ rfl ?_ ?_) ?_ hemits
    · intro other hne
      cases other with
      | requester => rfl
      | responder => exact absurd rfl hne
    · exact ⟨_, response, Holds.engine_qps hlive, hresponse, rfl⟩
    · intro tx' packet' _ hold
      rw [engine_qps_responderTaken queue hslot]
      exact hold
    · unfold RcEndpoint.preparedPacket
      dsimp only
      rw [show (ep.responderTaken index queue slot).memory.readRemote
        (slot.readyResponse index response).response.rkey address length = .ok _ from hread]
      rfl

/-! ## The next packet -/

theorem prepareDataClassBatch_prepares {now : ℕ} (hint : Internal allowed now)
    (h : Staged allowed start turns next staged packets ep) (kind nextClass : DataTxClass) :
    Prepares allowed start turns next staged packets ep
      (ep.prepareDataClassBatch kind nextClass).1
      ((ep.prepareDataClassBatch kind nextClass).2.map Prod.fst) := by
  cases kind with
  | requester => exact prepareRequesterBatch_prepares hint h nextClass
  | responder => exact prepareReadResponseBatch_prepares h nextClass _

/-- **Preparing the next packet of a batch**: the oldest reply that is not staged, or data when
every reply is staged. -/
theorem prepareNextBatchTx_cases {now : ℕ} (hint : Internal allowed now)
    (h : Staged allowed start turns next staged packets ep) (staging : RcEndpoint.Staging) :
    (∃ reply, ep.pendingControl.items[staging.controlOffset]? = some reply ∧
      ep.prepareNextBatchTx staging =
        (ep, { staging with controlOffset := staging.controlOffset + 1 },
          .ok (some (⟨controlPacket reply, .empty⟩, .control reply)))) ∨
    (Prepares allowed start turns next staged packets ep (ep.prepareNextBatchTx staging).1
        (ep.prepareNextBatchTx staging).2.2 ∧
      (ep.prepareNextBatchTx staging).2.1.controlOffset = staging.controlOffset) := by
  unfold RcEndpoint.prepareNextBatchTx
  split
  · rename_i reply hreply
    exact .inl ⟨reply, hreply, rfl⟩
  refine .inr ?_
  dsimp only
  have hfirst := prepareDataClassBatch_prepares hint h staging.stagingClass
    staging.stagingClass.other
  rcases hprepare : ep.prepareDataClassBatch staging.stagingClass staging.stagingClass.other with
    ⟨ep', e | ⟨prepared | prepared, completions⟩⟩
  all_goals rw [hprepare] at hfirst
  · exact ⟨hfirst, rfl⟩
  · cases hfirst with
    | idle stats =>
      have hsecond := prepareDataClassBatch_prepares hint (h.withStats stats)
        staging.stagingClass.other staging.stagingClass
      dsimp only
      rcases hprepare' : RcEndpoint.prepareDataClassBatch { ep with stats := stats }
        staging.stagingClass.other staging.stagingClass with ⟨ep'', e | ⟨prepared, completions⟩⟩
      all_goals rw [hprepare'] at hsecond
      · refine ⟨?_, rfl⟩
        cases hsecond with
        | failed hstarts hoffered hlate howed =>
          exact .failed ⟨hstarts.config, hstarts.qps, hstarts.pending⟩ hoffered hlate howed
      · refine ⟨?_, ?_⟩
        · cases hsecond with
          | idle stats' => exact .idle stats'
          | ready hstarts hoffered htx hstaged hpacket hemits =>
            exact .ready ⟨hstarts.config, hstarts.qps, hstarts.pending⟩ hoffered htx hstaged hpacket
              hemits
        · dsimp only
          split <;> rfl
  · exact ⟨hfirst, rfl⟩

end Rocev2.Rc
