import Rocev2.Rc.RequestEffect

/-!
# The inversion lemma of the responder

Handling a request packet has one of the outcomes of `RequestEffect`, in every state whose leases
are counted and whose optional parts are held together with their leases (`Tidy`).

The helper lemmas follow the functions of the responder.  Each takes the outcome as a hypothesis
`R copies qp reply` about an arbitrary relation, so the lemma about a helper is stated once and
used under whatever condition its caller has established.
-/

namespace Rocev2.Rc

open Rocev2.Core Rocev2.Wire Rocev2.Memory Rocev2.Lib

variable {MRS SQ RQ CQ : ℕ} {position : SegmentPosition}

/-! ## The handlers -/

def Has (R : List (ℕ × List UInt8) → QpTransport MRS SQ RQ CQ → Option ControlReply → Prop)
    (memory : MemoryRegistry MRS) (others : Multiset (RegionLease MRS))
    (outcome : QpContext MRS SQ RQ CQ × HandlerResult) : Prop :=
  ∃ copies, R copies outcome.1.qp outcome.2.reply ∧
    QpContext.Keeps memory copies others outcome.1

section Outcomes

variable {R : List (ℕ × List UInt8) → QpTransport MRS SQ RQ CQ → Option ControlReply → Prop}
  {ctx : QpContext MRS SQ RQ CQ} {others : Multiset (RegionLease MRS)} {psn : Psn}
  {work : RecvWorkRequest} {memory : MemoryRegistry MRS} {status : CompletionStatus}
  {copies : List (ℕ × List UInt8)}

theorem has_of_same {result : HandlerResult} (hR : R [] ctx.qp result.reply)
    (h : Counted ctx.memory.refs (ctx.qp.leases + others)) :
    Has R ctx.memory others (ctx, result) :=
  ⟨[], hR, Copied.refl _, h⟩

theorem has_fatalRequestError {syndrome : UInt8}
    (hR : R [] ctx.qp.failed (some (nakReply ctx.qp psn syndrome)))
    (h : Counted ctx.memory.refs (ctx.qp.leases + others)) :
    Has R ctx.memory others (fatalRequestError ctx psn syndrome) := by
  obtain ⟨hqp, hkeeps⟩ := QpContext.enterError_spec _ h
  refine ⟨[], ?_, hkeeps⟩
  simp only [fatalRequestError, hqp]
  exact hR

theorem has_failReceiveMessage {written : ℕ}
    (hsome : ctx.qp.inboundMessage = some (.send work written))
    (hR : R [] ((ctx.qp.setInbound none).receiveFinished work status 0).failed
      (some (nakReply ctx.qp psn Aeth.nakInvalidRequest)))
    (h : Counted ctx.memory.refs (ctx.qp.leases + others)) :
    Has R ctx.memory others (failReceiveMessage ctx psn status) := by
  have hfinish : ctx.finishInbound status =
      (ctx.setQp (ctx.qp.setInbound none)).finishReceive work status 0 := by
    simp [QpContext.finishInbound, hsome]
  obtain ⟨hqp, hkeeps⟩ := QpContext.finishReceive_spec
    (ctx.setQp (ctx.qp.setInbound none)) h work status 0
  rw [← hfinish] at hqp hkeeps
  obtain ⟨hqp', hkeeps'⟩ := QpContext.enterError_spec _ hkeeps.counted
  refine ⟨[], ?_, hkeeps.memory.trans hkeeps'.memory, hkeeps'.counted⟩
  simp only [failReceiveMessage, hqp', hqp]
  exact hR

theorem has_rejectSend {syndrome : UInt8} (hmemory : ctx.memory = memory)
    (hR : R [] (ctx.qp.failed.receiveFinished work status 0)
      (some (nakReply ctx.qp psn syndrome)))
    (h : Counted ctx.memory.refs (ctx.qp.leases + others)) :
    Has R memory others (rejectSend ctx psn work syndrome status) := by
  obtain ⟨hqp, hkeeps⟩ := QpContext.enterError_spec _ h
  obtain ⟨hqp', hkeeps'⟩ := QpContext.finishReceive_spec _ hkeeps.counted work status 0
  rw [hmemory] at hkeeps
  refine ⟨[], ?_, hkeeps.memory.trans hkeeps'.memory, hkeeps'.counted⟩
  simp only [rejectSend, fatalRequestError, hqp', hqp]
  exact hR

theorem has_acceptSend {total : ℕ} {final : Bool}
    (hR : R copies (ctx.qp.sendWritten psn work total final)
      (some (ackReply (ctx.qp.sendWritten psn work total final) psn)))
    (hmemory : Copied memory copies ctx.memory)
    (h : Counted ctx.memory.refs (ctx.qp.leases + others)) :
    Has R memory others (acceptSend ctx psn work total final) := by
  cases final with
  | false => exact ⟨copies, hR, hmemory, h⟩
  | true =>
    obtain ⟨hqp, hkeeps⟩ := QpContext.finishReceive_spec
      (ctx.setQp ((ctx.qp.observe psn).setInbound none).nextMessage) h work .success total
    refine ⟨copies, ?_, ?_, hkeeps.counted⟩
    · simp only [acceptSend, if_true, hqp]
      exact hR
    · have htrans := hmemory.trans hkeeps.memory
      rwa [List.append_nil] at htrans

/-- Accounting for a later WRITE packet. -/
theorem has_acceptWrite {address : UInt64} {rkey length : UInt32} {total : ℕ} {final : Bool}
    (hR : R copies (ctx.qp.writeWritten psn address rkey length total final)
      (some (ackReply (ctx.qp.writeWritten psn address rkey length total final) psn)))
    (hmemory : Copied memory copies ctx.memory)
    (h : Counted ctx.memory.refs (ctx.qp.leases + others)) :
    Has R memory others (acceptWrite ctx psn (.write address rkey length total) final) := by
  cases final with
  | false => exact ⟨copies, hR, hmemory, h⟩
  | true =>
    obtain ⟨hqp, hkeeps⟩ := QpContext.releaseInbound_spec
      (ctx.setQp ((ctx.qp.observe psn).setInbound none)) h
    have hcounted := hkeeps.counted
    refine ⟨copies, ?_, ?_, ?_⟩
    · simp only [acceptWrite, if_true, QpContext.setQp_qp, hqp]
      exact hR
    · have htrans := hmemory.trans hkeeps.memory
      rwa [List.append_nil] at htrans
    · rw [hqp] at hcounted
      simp only [acceptWrite, if_true, QpContext.setQp_qp, hqp]
      exact hcounted

end Outcomes

/-! ## Bounds on a payload -/

theorem length_le_of_valid {length mtu : ℕ}
    (h : validRequestPayloadLength position length mtu = true) : length ≤ mtu := by
  cases position <;> simp only [validRequestPayloadLength, decide_eq_true_eq] at h <;> omega

theorem payloadLength_of_valid {packet : PacketRef} {qp : QpTransport MRS SQ RQ CQ}
    (h : validRequestPayloadLength position packet.payload.length qp.mtu = true) :
    payloadLength packet = packet.payload.length := by
  have hle := length_le_of_valid h
  have hmtu := (PathMtu.bytes_bounds qp.machine.config.pathMtu).2
  rw [payloadLength, Nat.min_eq_left]
  rw [QpTransport.mtu] at hle
  omega

/-! ## The dispatch -/

theorem leaseOn_of_retain {memory memory' : MemoryRegistry MRS} {kind : KeyKind} {key : UInt32}
    {lease : RegionLease MRS} (h : memory.retain key kind = .ok (lease, memory')) :
    LeaseOn memory kind key (some lease) := by
  obtain ⟨index, slot, hkey, hslot, -, rfl, -⟩ := MemoryRegistry.retain_eq_ok.mp h
  exact ⟨index, slot, hkey, hslot, rfl⟩

/-- A payload that was written behind the bytes received so far. -/
theorem landed_of_write {memory memory' : MemoryRegistry MRS} {kind : KeyKind}
    {required : AccessFlags} {key : UInt32} {address place : UInt64} {written : ℕ}
    {payload : List UInt8} (haddress : checkedAdd address written = some place)
    (hwrite : memory.write kind required key place payload = .ok memory') :
    Copied memory [(address.toNat + written, payload)] memory' ∧ ∃ index slot,
      Grants memory kind required key (address.toNat + written) payload.length index slot := by
  rw [← toNat_of_checkedAdd haddress]
  exact ⟨MemoryRegistry.copied_of_write hwrite, (MemoryRegistry.write_eq_ok.mp hwrite).2⟩

theorem isFinal_of_later (h : position = .middle ∨ position = .last) :
    decide (position = .last) = position.isFinal := by
  rcases h with rfl | rfl <;> rfl

namespace QpTransport

variable {qp : QpTransport MRS SQ RQ CQ}

theorem leases_takeReceive {posted : PostedWork RecvWorkRequest MRS}
    {queue : Ring (PostedWork RecvWorkRequest MRS) RQ}
    (hpop : qp.receiveQueue.pop = some (posted, queue)) (hnone : qp.inboundMemory = none) :
    ((qp.setReceives queue).setInboundMemory posted.lease).leases = qp.leases := by
  rw [leases_of_receiveQueue (Ring.pop_eq_some.mp hpop), leases_inboundMemory]
  refine congrArg₂ _ rfl ?_
  rw [← hnone]
  rfl

theorem leases_setInboundMemory (hnone : qp.inboundMemory = none) (lease : RegionLease MRS) :
    (qp.setInboundMemory (some lease)).leases = {lease} + qp.leases := by
  rw [leases_inboundMemory]
  refine congrArg₂ _ rfl ?_
  rw [← hnone]
  rfl

theorem leases_setReadMemory (hnone : qp.readMemory = none) (lease : RegionLease MRS) :
    (qp.setReadMemory (some lease)).leases = {lease} + qp.leases := by
  rw [leases_readMemory]
  refine congrArg₂ _ rfl ?_
  rw [← hnone]
  rfl

theorem writeWritten_only (hnone : qp.inboundMessage = none) {psn : Psn} {reth : Reth} {total : ℕ} :
    ((qp.setInboundMemory none).observe psn).nextMessage =
      (qp.loadWrite reth none).writeWritten psn reth.virtualAddress reth.remoteKey reth.dmaLength
        total true := by
  have hsame : qp = qp.setInbound none := by
    rw [← hnone]
    rfl
  rw [hsame]
  rfl

end QpTransport

section Dispatch

variable {ctx : QpContext MRS SQ RQ CQ} {others : Multiset (RegionLease MRS)} {packet : PacketRef}
  {qp : QpTransport MRS SQ RQ CQ} {ctx' : QpContext MRS SQ RQ CQ}

theorem Tidy.inboundMemory_eq_none (h : Tidy qp) (hnone : qp.inboundMessage = none) :
    qp.inboundMemory = none := by
  have hinbound := h.inbound
  rw [hnone] at hinbound
  exact Option.isSome_eq_false_iff.mp hinbound |> Option.isNone_iff_eq_none.mp

theorem Tidy.readMemory_eq_none (h : Tidy qp) (hnone : qp.readResponse = none) :
    qp.readMemory = none := by
  have hread := h.read
  rw [hnone] at hread
  exact Option.isSome_eq_false_iff.mp hread |> Option.isNone_iff_eq_none.mp

/-- A WRITE of several packets takes a lease on its range. -/
theorem retainWrite_spec {rkey : UInt32} {position : SegmentPosition}
    (hnone : ctx.qp.inboundMemory = none) (hretain : retainWrite ctx rkey position = .ok ctx')
    (h : Counted ctx.memory.refs (ctx.qp.leases + others)) :
    ∃ lease, lease.isSome = decide (position = .first) ∧
      (position = .first → LeaseOn ctx.memory .remote rkey lease) ∧
      ctx'.qp = ctx.qp.setInboundMemory lease ∧ QpContext.Keeps ctx.memory [] others ctx' := by
  unfold retainWrite at hretain
  split at hretain
  · rename_i hfirst
    split at hretain
    · cases hretain
    · rename_i lease memory hlease
      cases hretain
      obtain ⟨hcopy, hcounted⟩ := MemoryRegistry.counted_of_retain hlease h
      refine ⟨some lease, by simp [hfirst], fun _ ↦ leaseOn_of_retain hlease, rfl, hcopy, ?_⟩
      rw [QpContext.setQp_qp, QpTransport.leases_setInboundMemory hnone, add_assoc,
        Multiset.singleton_add]
      exact hcounted
  · rename_i hfirst
    cases hretain
    refine ⟨none, by simp [hfirst], fun heq ↦ absurd heq hfirst, ?_, Copied.refl _, h⟩
    rw [← hnone]
    rfl

theorem retainReplay_spec {rkey : UInt32} (hretain : retainReplay ctx rkey = .ok ctx')
    (h : Counted ctx.memory.refs (ctx.qp.leases + others)) :
    ∃ lease, lease.isSome ∧ (ctx.qp.readMemory.isSome → lease = ctx.qp.readMemory) ∧
      (ctx.qp.readMemory = none → LeaseOn ctx.memory .remote rkey lease) ∧
      ctx'.qp = ctx.qp.setReadMemory lease ∧ QpContext.Keeps ctx.memory [] others ctx' := by
  unfold retainReplay at hretain
  split at hretain
  · rename_i hnone
    have hnone : ctx.qp.readMemory = none := by simpa using hnone
    split at hretain
    · cases hretain
    · rename_i lease memory hlease
      cases hretain
      obtain ⟨hcopy, hcounted⟩ := MemoryRegistry.counted_of_retain hlease h
      refine ⟨some lease, rfl, by simp [hnone], fun _ ↦ leaseOn_of_retain hlease, rfl, hcopy, ?_⟩
      rw [QpContext.setQp_qp, QpTransport.leases_setReadMemory hnone, add_assoc,
        Multiset.singleton_add]
      exact hcounted
  · rename_i hsome
    cases hretain
    refine ⟨ctx.qp.readMemory, by simpa [Option.isSome_iff_ne_none] using hsome, fun _ ↦ rfl,
      fun hnone ↦ absurd (Option.isNone_iff_eq_none.mpr hnone) hsome, rfl, Copied.refl _, h⟩

theorem replayReadRequest_effect {memory : MemoryRegistry MRS} (hqp : ctx.qp = qp)
    (hmemory : ctx.memory = memory) (hpsn : ctx.qp.receivePsn.classify packet.bth.psn = .duplicate)
    (hop : packet.bth.opcode = .rdmaReadRequest)
    (h : Counted ctx.memory.refs (ctx.qp.leases + others)) :
    Has (RequestEffect qp memory packet) memory others
      (replayReadRequest ctx packet packet.bth.psn) := by
  subst hqp hmemory
  have hsome : packet.reth.isSome := by
    rw [packet.reth_isSome, hop]
    rfl
  obtain ⟨reth, hreth⟩ := Option.isSome_iff_exists.mp hsome
  unfold replayReadRequest
  rw [hreth]
  dsimp only
  split
  · rename_i e hvalidate
    exact has_fatalRequestError (.replayFatal hpsn hop hreth (.inl ⟨e, hvalidate⟩)) h
  rename_i hvalidate
  split
  · exact has_of_same (.replayNotReady hpsn hop) h
  rename_i hmatch
  obtain ⟨hreplay, -⟩ := not_or.mp hmatch
  split
  · rename_i e hretain
    refine has_fatalRequestError (.replayFatal hpsn hop hreth (.inr ?_)) h
    unfold retainReplay at hretain
    split at hretain
    · rename_i hnone
      split at hretain
      · rename_i e' hlease
        exact ⟨Option.isNone_iff_eq_none.mp hnone, e', hlease⟩
      · cases hretain
    · cases hretain
  · rename_i ctx' hretain
    obtain ⟨lease, hlease, hsame, hleased, hqp, hkeeps⟩ := retainReplay_spec hretain h
    refine ⟨[], ?_, hkeeps.memory, hkeeps.counted⟩
    rw [QpContext.setQp_qp, hqp]
    exact .replay hpsn hop hreth (MemoryRegistry.validate_eq_ok.mp hvalidate)
      (not_not.mp hreplay) hlease hsame hleased

/-- The outcomes of handling a request packet. -/
abbrev Handles (ctx : QpContext MRS SQ RQ CQ) (packet : PacketRef)
    (others : Multiset (RegionLease MRS)) (outcome : QpContext MRS SQ RQ CQ × HandlerResult) :
    Prop :=
  Has (RequestEffect ctx.qp ctx.memory packet) ctx.memory others outcome

section Expected

variable (hpsn : ctx.qp.receivePsn.classify packet.bth.psn = .expected)
  (h : Counted ctx.memory.refs (ctx.qp.leases + others))

include hpsn h

theorem handles_fatal (syndrome : UInt8) :
    Handles ctx packet others (fatalRequestError ctx packet.bth.psn syndrome) :=
  has_fatalRequestError (.fatal syndrome hpsn) h

theorem handleSendStart_effect (htidy : Tidy ctx.qp)
    (hkey : packet.bth.partitionKey = Bth.defaultPkey)
    (hopcode : packet.bth.opcode = .sendFirst ∨ packet.bth.opcode = .sendOnly)
    (hvalid : validRequestPayloadLength packet.bth.opcode.position packet.payload.length
      ctx.qp.mtu = true) :
    Handles ctx packet others
      (handleSendStart ctx packet packet.bth.psn packet.bth.opcode.position) := by
  have hop : packet.bth.opcode.operation = .send := by
    rcases hopcode with hopcode | hopcode <;> rw [hopcode] <;> rfl
  have hpos : packet.bth.opcode.position = .first ∨ packet.bth.opcode.position = .only := by
    rcases hopcode with hopcode | hopcode <;> rw [hopcode]
    · exact .inl rfl
    · exact .inr rfl
  unfold handleSendStart
  split
  · exact handles_fatal hpsn h _
  rename_i hinbound
  have hnone : ctx.qp.inboundMessage = none := by simpa using hinbound
  have hmemory := htidy.inboundMemory_eq_none hnone
  cases hpop : ctx.qp.receiveQueue.pop with
  | none => exact has_of_same (.sendNotReady hpsn hop (Ring.pop_eq_none.mp hpop)) h
  | some head =>
    obtain ⟨posted, queue⟩ := head
    rw [← QpTransport.leases_takeReceive hpop hmemory] at h
    dsimp only
    split
    · rename_i hlong
      exact has_rejectSend rfl (.sendRejected .localLengthError Aeth.nakInvalidRequest hpsn hopcode
        hkey hvalid hnone hpop (by decide) (.inl ⟨rfl, hlong⟩)) h
    rename_i hfits
    split
    · rename_i e hwrite
      exact has_rejectSend rfl (.sendRejected .localProtectionError Aeth.nakRemoteOperationError
        hpsn hopcode hkey hvalid hnone hpop (by decide)
        (.inr ⟨rfl, Nat.not_lt.mp hfits, e, hwrite⟩)) h
    · rename_i memory hwrite
      have hfinal : (decide (packet.bth.opcode.position = .only) : Bool) =
          packet.bth.opcode.position.isFinal := by
        rcases hpos with hpos | hpos <;> rw [hpos] <;> rfl
      have hcopy := MemoryRegistry.copied_of_write hwrite
      have hgrants := (MemoryRegistry.write_eq_ok.mp hwrite).2
      have heffect := RequestEffect.send hpsn hop (.start hpos hnone hpop) hvalid
        (by rw [Nat.zero_add]; exact Nat.not_lt.mp hfits)
        (by rw [Nat.add_zero]; exact hgrants)
      rw [Nat.zero_add, Nat.add_zero] at heffect
      rw [payloadLength_of_valid hvalid, hfinal]
      refine has_acceptSend heffect hcopy ?_
      rw [QpContext.setMemory_memory, MemoryRegistry.refs_of_write hwrite]
      exact h

theorem handleSendContinuation_effect
    (hop : packet.bth.opcode.operation = .send)
    (hpos : packet.bth.opcode.position = .middle ∨ packet.bth.opcode.position = .last)
    (hvalid : validRequestPayloadLength packet.bth.opcode.position packet.payload.length
      ctx.qp.mtu = true) :
    Handles ctx packet others
      (handleSendContinuation ctx packet packet.bth.psn packet.bth.opcode.position) := by
  unfold handleSendContinuation
  cases hinbound : ctx.qp.inboundMessage with
  | none => exact handles_fatal hpsn h _
  | some message =>
    cases message with
    | write address rkey length written => exact handles_fatal hpsn h _
    | send work written =>
      have hfail : Handles ctx packet others
            (failReceiveMessage ctx packet.bth.psn .localLengthError) :=
        has_failReceiveMessage hinbound (.receiveFailed _ hpsn hinbound (by decide) (.inl rfl)) h
      dsimp only
      split
      · exact hfail
      split
      · exact hfail
      rename_i hfits
      split
      · exact hfail
      rename_i address haddress
      split
      · rename_i e hwrite
        rw [payloadLength_of_valid hvalid] at hfits
        exact has_failReceiveMessage hinbound (.receiveFailed _ hpsn hinbound (by decide)
          (.inr ⟨rfl, Nat.not_lt.mp hfits, address, e, haddress, hwrite⟩)) h
      rename_i memory hwrite
      rw [payloadLength_of_valid hvalid] at hfits ⊢
      obtain ⟨hcopy, hgrants⟩ := landed_of_write haddress hwrite
      rw [isFinal_of_later hpos]
      refine has_acceptSend (.send hpsn hop (.resume hpos hinbound) hvalid (Nat.not_lt.mp hfits)
        hgrants) hcopy ?_
      rw [QpContext.setMemory_memory, MemoryRegistry.refs_of_write hwrite]
      exact h

theorem handleWriteStart_effect (htidy : Tidy ctx.qp)
    (hop : packet.bth.opcode.operation = .write)
    (hpos : packet.bth.opcode.position = .first ∨ packet.bth.opcode.position = .only)
    (hvalid : validRequestPayloadLength packet.bth.opcode.position packet.payload.length
      ctx.qp.mtu = true) :
    Handles ctx packet others
      (handleWriteStart ctx packet packet.bth.psn packet.bth.opcode.position) := by
  unfold handleWriteStart
  split
  · exact handles_fatal hpsn h _
  rename_i hinbound
  have hnone : ctx.qp.inboundMessage = none := by simpa using hinbound
  split
  · exact handles_fatal hpsn h _
  rename_i reth hreth
  split
  · exact handles_fatal hpsn h _
  rename_i hstart
  rw [payloadLength_of_valid hvalid] at hstart
  split
  · exact handles_fatal hpsn h _
  rename_i hvalidate
  obtain ⟨index, slot, hgrants⟩ := MemoryRegistry.validate_eq_ok.mp hvalidate
  split
  · exact handles_fatal hpsn h _
  rename_i ctx' hretain
  obtain ⟨lease, hlease, hleased, hqp, hkeeps⟩ :=
    retainWrite_spec (htidy.inboundMemory_eq_none hnone) hretain h
  have hfits : packet.payload.length ≤ reth.dmaLength.toNat := by
    rcases hpos with hpos | hpos <;> rw [hpos] at hstart <;>
      simp only [validWriteStart, decide_eq_false_iff_not, not_not] at hstart <;> omega
  -- the validated range contains the payload, so the copy cannot fail
  obtain ⟨slot', hregion, hgrants'⟩ :=
    (hgrants.mono (Nat.le_refl _) (Nat.add_le_add_left hfits _)).congr hkeeps.memory.toSameRegions
  have hok := MemoryRegistry.write_eq_ok.mpr ⟨rfl, index, slot', hgrants'⟩
  split
  · rename_i e herror
    rw [MemoryRegistry.writeRemote, hok] at herror
    cases herror
  rename_i memory hwrite
  have hcopy := hkeeps.memory.trans (MemoryRegistry.copied_of_write hwrite)
  have hcounted := hkeeps.counted
  rw [← MemoryRegistry.refs_of_write hwrite] at hcounted
  have hfinal : packet.bth.opcode.position.isFinal = true ↔
      0 + packet.payload.length = reth.dmaLength.toNat := by
    rw [Nat.zero_add]
    rcases hpos with hpos | hpos <;> rw [hpos] at hstart ⊢ <;>
      simp only [validWriteStart, decide_eq_false_iff_not, not_not] at hstart <;>
      simp only [SegmentPosition.isFinal, true_iff, Bool.false_eq_true, false_iff] <;> omega
  have hlease' : lease.isSome = !packet.bth.opcode.position.isFinal := by
    rcases hpos with hpos | hpos <;> rw [hlease, hpos] <;> rfl
  have hleased' : packet.bth.opcode.position.isFinal = false →
      LeaseOn ctx.memory .remote reth.remoteKey lease := by
    intro hmore
    refine hleased (hpos.resolve_right fun honly ↦ ?_)
    rw [honly] at hmore
    cases hmore
  have heffect := RequestEffect.write hpsn hop
    (.start hpos hnone hreth ⟨index, slot, hgrants⟩ hlease' hleased') hvalid
    (by rw [Nat.zero_add]; exact hfits) hfinal
    ⟨index, slot, hgrants.mono (Nat.le_add_right _ _) (by omega)⟩
  rw [Nat.add_zero, Nat.zero_add] at heffect
  -- the state after the packet is the loaded one with the packet accounted for
  have hqp' : (if packet.bth.opcode.position = .only
      then (ctx'.qp.observe packet.bth.psn).nextMessage
      else (ctx'.qp.observe packet.bth.psn).setInbound (some (.write reth.virtualAddress
        reth.remoteKey reth.dmaLength (payloadLength packet)))) =
      (ctx.qp.loadWrite reth lease).writeWritten packet.bth.psn reth.virtualAddress
        reth.remoteKey reth.dmaLength packet.payload.length packet.bth.opcode.position.isFinal := by
    rw [payloadLength_of_valid hvalid, hqp]
    rcases hpos with hpos | hpos
    · rw [hpos]
      rfl
    · have hlease_none : lease = none := by
        rw [hpos] at hlease
        simpa using hlease
      rw [hpos, hlease_none, if_pos rfl]
      exact QpTransport.writeWritten_only hnone
  refine ⟨_, ?_, hcopy, ?_⟩
  · simp only [QpContext.setQp_qp, hqp']
    exact heffect
  · simp only [QpContext.setQp_qp, QpContext.setQp_memory, QpContext.setMemory_memory]
    split <;> exact hcounted

theorem handleWriteContinuation_effect
    (hop : packet.bth.opcode.operation = .write)
    (hpos : packet.bth.opcode.position = .middle ∨ packet.bth.opcode.position = .last)
    (hvalid : validRequestPayloadLength packet.bth.opcode.position packet.payload.length
      ctx.qp.mtu = true) :
    Handles ctx packet others
      (handleWriteContinuation ctx packet packet.bth.psn packet.bth.opcode.position) := by
  unfold handleWriteContinuation
  cases hinbound : ctx.qp.inboundMessage with
  | none => exact handles_fatal hpsn h _
  | some message =>
    cases message with
    | send work written => exact handles_fatal hpsn h _
    | write address rkey length written =>
      dsimp only
      split
      · exact handles_fatal hpsn h _
      split
      · exact handles_fatal hpsn h _
      rename_i hlength
      split
      · exact handles_fatal hpsn h _
      rename_i place haddress
      split
      · exact handles_fatal hpsn h _
      rename_i memory hwrite
      rw [payloadLength_of_valid hvalid] at hlength ⊢
      obtain ⟨hcopy, hgrants⟩ := landed_of_write haddress hwrite
      have hfits : written + packet.payload.length ≤ length.toNat ∧
          (packet.bth.opcode.position.isFinal = true ↔
            written + packet.payload.length = length.toNat) := by
        rcases hpos with hpos | hpos <;> rw [hpos] at hlength ⊢ <;>
          simp only [validWriteContinuation, decide_eq_false_iff_not, not_not] at hlength <;>
          simp only [SegmentPosition.isFinal, true_iff, Bool.false_eq_true, false_iff] <;> omega
      rw [isFinal_of_later hpos]
      refine has_acceptWrite (.write hpsn hop (.resume hpos hinbound) hvalid hfits.1 hfits.2
        hgrants) hcopy ?_
      rw [QpContext.setMemory_memory, MemoryRegistry.refs_of_write hwrite]
      exact h

theorem handleReadRequest_effect (htidy : Tidy ctx.qp)
    (hop : packet.bth.opcode = .rdmaReadRequest) :
    Handles ctx packet others
      (handleReadRequest ctx packet packet.bth.psn) := by
  unfold handleReadRequest
  split
  · exact handles_fatal hpsn h _
  rename_i hinbound
  have hnone : ctx.qp.inboundMessage = none := by simpa using hinbound
  split
  · rename_i hbusy
    exact has_of_same (.readNotReady hpsn hop hbusy) h
  rename_i hread
  have hread : ctx.qp.readResponse = none := by simpa using hread
  split
  · exact handles_fatal hpsn h _
  rename_i reth hreth
  split
  · exact handles_fatal hpsn h _
  rename_i hvalidate
  split
  · exact handles_fatal hpsn h _
  rename_i lease memory hlease
  obtain ⟨hcopy, hcounted⟩ := MemoryRegistry.counted_of_retain hlease h
  refine ⟨[], ?_, hcopy, ?_⟩
  · have heffect := RequestEffect.read lease hpsn hop hreth hnone hread
      (MemoryRegistry.validate_eq_ok.mp hvalidate) (leaseOn_of_retain hlease)
    have hspan := ReceivePsn.observeSpan_expected (packetCount reth.dmaLength ctx.qp.mtu) hpsn
    rw [QpTransport.readAdmitted, ← hspan] at heffect
    exact heffect
  · have hleases := QpTransport.leases_setReadMemory (htidy.readMemory_eq_none hread) lease
    rw [← Multiset.singleton_add, ← add_assoc, ← hleases] at hcounted
    exact hcounted

theorem handleExpected_effect (htidy : Tidy ctx.qp) :
    Handles ctx packet others
      (handleExpected ctx packet packet.bth.psn) := by
  have hsend : packet.bth.partitionKey = Bth.defaultPkey →
      packet.bth.opcode ∈ [.sendOnly, .sendFirst, .sendMiddle, .sendLast] →
      Handles ctx packet others
        (handleSendRequest ctx packet packet.bth.psn) := by
    intro hkey hopcode
    have hop : packet.bth.opcode.operation = .send := by
      revert hopcode
      cases packet.bth.opcode <;> decide
    have hstart : packet.bth.opcode.position = .first ∨ packet.bth.opcode.position = .only →
        packet.bth.opcode = .sendFirst ∨ packet.bth.opcode = .sendOnly := by
      revert hopcode
      cases packet.bth.opcode <;> decide
    unfold handleSendRequest
    dsimp only
    split
    · exact handles_fatal hpsn h _
    rename_i hvalid
    have hvalid := Bool.eq_true_of_not_eq_false hvalid
    split <;> rename_i hpos
    · exact handleSendStart_effect hpsn h htidy hkey (hstart (.inr hpos)) hvalid
    · exact handleSendStart_effect hpsn h htidy hkey (hstart (.inl hpos)) hvalid
    · exact handleSendContinuation_effect hpsn h hop (.inl hpos) hvalid
    · exact handleSendContinuation_effect hpsn h hop (.inr hpos) hvalid
  have hwrite : packet.bth.opcode.operation = .write → Has (RequestEffect ctx.qp ctx.memory packet)
        ctx.memory others (handleWriteRequest ctx packet packet.bth.psn) := by
    intro hop
    unfold handleWriteRequest
    dsimp only
    split
    · exact handles_fatal hpsn h _
    rename_i hvalid
    have hvalid := Bool.eq_true_of_not_eq_false hvalid
    split <;> rename_i hpos
    · exact handleWriteStart_effect hpsn h htidy hop (.inr hpos) hvalid
    · exact handleWriteStart_effect hpsn h htidy hop (.inl hpos) hvalid
    · exact handleWriteContinuation_effect hpsn h hop (.inl hpos) hvalid
    · exact handleWriteContinuation_effect hpsn h hop (.inr hpos) hvalid
  unfold handleExpected
  split
  · exact handles_fatal hpsn h _
  rename_i hkey
  have hkey := not_not.mp hkey
  cases hop : packet.bth.opcode <;> dsimp only
  case sendOnly | sendFirst | sendMiddle | sendLast =>
    exact hsend hkey (by rw [hop]; decide)
  case rdmaWriteOnly | rdmaWriteFirst | rdmaWriteMiddle | rdmaWriteLast =>
    exact hwrite (by rw [hop]; rfl)
  case rdmaReadRequest => exact handleReadRequest_effect hpsn h htidy hop
  all_goals exact handles_fatal hpsn h _

end Expected

/-- **The inversion lemma of the responder.**  Handling a request packet has one of the outcomes
of `RequestEffect` and leaves every lease counted. -/
theorem handleRequestPacket_effect (htidy : Tidy ctx.qp)
    (h : Counted ctx.memory.refs (ctx.qp.leases + others)) :
    Has (RequestEffect ctx.qp ctx.memory packet) ctx.memory others
      (handleRequestPacket ctx packet) := by
  unfold handleRequestPacket
  dsimp only
  split <;> rename_i hpsn
  · exact ⟨[], .future hpsn, Copied.refl _, h⟩
  · split
    · rename_i hop
      exact replayReadRequest_effect rfl rfl hpsn hop h
    · rename_i hop
      exact ⟨[], .duplicate hpsn hop, Copied.refl _, h⟩
  · exact handleExpected_effect hpsn h htidy

end Dispatch

end Rocev2.Rc
