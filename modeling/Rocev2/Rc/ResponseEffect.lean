import Rocev2.Rc.Requester
import Rocev2.Rc.RequestInversion

/-!
# What handling a response can do

The inversion lemma of the requester: `ResponseEffect` lists every outcome of
`handleResponsePacket`, and `RetryEffect` every outcome of charging the retry budget, which a
sequence NAK and an expired ACK timer share.  A response is never answered, so an outcome is a
transport state and the copies into registered memory.
-/

namespace Rocev2.Rc

open Rocev2.Core Rocev2.Wire Rocev2.Memory Rocev2.Lib

variable {MRS SQ RQ CQ : ℕ}

/-- Every outcome of charging a timeout or a sequence NAK to the active request. -/
inductive RetryEffect (qp : QpTransport MRS SQ RQ CQ) : QpTransport MRS SQ RQ CQ → Prop where
  /-- No request is active. -/
  | idle (hactive : qp.activeRequest = none) : RetryEffect qp qp
  /-- The request starts again. -/
  | retried {active budget delay} (hactive : qp.activeRequest = some active)
      (hbudget : active.retryBudget.onFailure .timeout 0 = (budget, .retry delay)) :
      RetryEffect qp
        (qp.setActive (some { active with
          retryBudget := budget
          retried := active.retried + 1 }.resetForRetry))
  /-- The budget is exhausted. -/
  | exhausted {active budget reason} (hactive : qp.activeRequest = some active)
      (hbudget : active.retryBudget.onFailure .timeout 0 = (budget, .exhausted reason)) :
      RetryEffect qp (qp.activeFinished .retryExceeded 0).failed

/-- The status with which a response may fail the active request.  A local error means that a READ
response inside the range of the request cannot be written. -/
def FailsWith (qp : QpTransport MRS SQ RQ CQ) (memory : MemoryRegistry MRS) (packet : PacketRef)
    (active : ActiveRequest) : CompletionStatus → Prop
  | .success | .retryExceeded => False
  | .localLengthError => active.work.kind.isRead = true ∧ ∃ offset,
      segmentBounds active.work.sge.length qp.mtu active.readPacketsReceived =
        some (offset, packet.payload.length) ∧ checkedAdd active.work.sge.address offset = none
  | .localProtectionError => active.work.kind.isRead = true ∧ ∃ offset address e,
      segmentBounds active.work.sge.length qp.mtu active.readPacketsReceived =
        some (offset, packet.payload.length) ∧
      checkedAdd active.work.sge.address offset = some address ∧
      memory.writeLocal active.work.sge.lkey address packet.payload = .error e
  | _ => True

/-- An ACK of packets of a SEND or a WRITE that were transmitted. -/
structure AcksSent (active : ActiveRequest) (packet : PacketRef) : Prop where
  op : packet.bth.opcode = .acknowledge
  kind : active.work.kind.isRead = false
  sent : active.transmittedPackets ≠ 0
  psn : packet.bth.psn.compare
    (active.firstPsn.wrappingAdd (active.transmittedPackets - 1)) ≠ .after

/-- The response that a READ waits for. -/
structure AnswersRead (active : ActiveRequest) (packet : PacketRef) : Prop where
  kind : active.work.kind.isRead = true
  op : packet.bth.opcode =
    segmentedOpcode .readResponse active.readPacketsReceived active.packetCount
  psn : packet.bth.psn = active.firstPsn.wrappingAdd active.readPacketsReceived

/-- The response that a READ waits for, which is written at an offset of its range. -/
structure LandsRead (memory : MemoryRegistry MRS) (mtu : ℕ) (active : ActiveRequest)
    (packet : PacketRef) (offset : ℕ) : Prop extends AnswersRead active packet where
  bounds : segmentBounds active.work.sge.length mtu active.readPacketsReceived =
    some (offset, packet.payload.length)
  grants : ∃ index slot, Grants memory .loc .localWriteOnly active.work.sge.lkey
    (active.work.sge.address.toNat + offset) packet.payload.length index slot
  quiet : negativeAeth packet.aeth = none

/-- **Every outcome of handling a response packet.** -/
inductive ResponseEffect (qp : QpTransport MRS SQ RQ CQ) (memory : MemoryRegistry MRS)
    (packet : PacketRef) (now ticksPerSecond : ℕ) :
    List (ℕ × List UInt8) → QpTransport MRS SQ RQ CQ → Prop where
  /-- The response says nothing new. -/
  | ignored (hquiet : qp.activeRequest = none ∨ negativeAeth packet.aeth = none) :
      ResponseEffect qp memory packet now ticksPerSecond [] qp
  /-- The response fails the active request. -/
  | failed {active} (status : CompletionStatus) (hactive : qp.activeRequest = some active)
      (hstatus : FailsWith qp memory packet active status) :
      ResponseEffect qp memory packet now ticksPerSecond [] (qp.activeFinished status 0).failed
  /-- A sequence NAK restarts the active request. -/
  | retry {aeth qp'} (haeth : packet.aeth = some aeth)
      (hclass : aeth.classify = .nak .psnSequenceError) (hretry : RetryEffect qp qp') :
      ResponseEffect qp memory packet now ticksPerSecond [] qp'
  /-- A receiver-not-ready NAK delays the active request. -/
  | delayed {active aeth code budget delay} (hactive : qp.activeRequest = some active)
      (haeth : packet.aeth = some aeth) (hclass : aeth.classify = .rnrNak code)
      (hbudget : active.retryBudget.onFailure .receiverNotReady
        ((rnrTimerTicks code.toNat ticksPerSecond).getD (2 ^ 64 - 1)) = (budget, .retry delay)) :
      ResponseEffect qp memory packet now ticksPerSecond []
        (qp.setActive (some { active with
          retryBudget := budget
          phase := .rnrWait
          timer := .arm now delay
          delays := active.delays ++ [(active.sent.length,
            now + (rnrTimerTicks code.toNat ticksPerSecond).getD (2 ^ 64 - 1))] }))
  /-- An ACK covers a part of the active request. -/
  | acked {window packets next} (active : ActiveRequest) (hactive : qp.activeRequest = some active)
      (hacks : AcksSent active packet)
      (hack : qp.sendWindow.acknowledge packet.bth.psn = (window, .advanced packets next))
      (hpart : window.oldestUnacknowledged ≠ active.lastPsn.next) :
      ResponseEffect qp memory packet now ticksPerSecond []
        ((qp.setWindow window).setActive (some { active with
          retryBudget := active.retryBudget.reset
          timer := .arm now (timeoutOrMax qp.machine.config ticksPerSecond)
          retried := 0 }))
  /-- An ACK covers the rest of the active request. -/
  | ackCompleted {active window packets next} (hactive : qp.activeRequest = some active)
      (hacks : AcksSent active packet)
      (hack : qp.sendWindow.acknowledge packet.bth.psn = (window, .advanced packets next))
      (hall : window.oldestUnacknowledged = active.lastPsn.next) :
      ResponseEffect qp memory packet now ticksPerSecond []
        ((qp.setWindow window).activeFinished .success active.work.sge.length.toNat)
  /-- A READ response is written, and more are to come. -/
  | read {offset bytesReceived} (active : ActiveRequest) (hactive : qp.activeRequest = some active)
      (hlands : LandsRead memory qp.mtu active packet offset)
      (hpart : active.readPacketsReceived + 1 ≠ active.packetCount) :
      ResponseEffect qp memory packet now ticksPerSecond
        [(active.work.sge.address.toNat + offset, packet.payload)]
        ((qp.setWindow (qp.sendWindow.acknowledge packet.bth.psn).1).setActive (some { active with
          readPacketsReceived := active.readPacketsReceived + 1
          bytesReceived := bytesReceived
          retryBudget := active.retryBudget.reset
          timer := .arm now (timeoutOrMax qp.machine.config ticksPerSecond)
          retried := if (qp.sendWindow.acknowledge packet.bth.psn).1 = qp.sendWindow
            then active.retried else 0 }))
  /-- The last READ response is written. -/
  | readCompleted {active offset} (hactive : qp.activeRequest = some active)
      (hlands : LandsRead memory qp.mtu active packet offset)
      (hall : active.readPacketsReceived + 1 = active.packetCount) :
      ResponseEffect qp memory packet now ticksPerSecond
        [(active.work.sge.address.toNat + offset, packet.payload)]
        ((qp.setWindow (qp.sendWindow.acknowledge packet.bth.psn).1).activeFinished .success
          active.work.sge.length.toNat)

/-! ## Finishing the active request -/

/-- A handler of responses has an outcome that `R` allows. -/
def Ends (R : List (ℕ × List UInt8) → QpTransport MRS SQ RQ CQ → Prop)
    (memory : MemoryRegistry MRS) (others : Multiset (RegionLease MRS))
    (ctx : QpContext MRS SQ RQ CQ) : Prop :=
  ∃ copies, R copies ctx.qp ∧ QpContext.Keeps memory copies others ctx

namespace QpTransport

theorem activeFinished_setActive {qp : QpTransport MRS SQ RQ CQ} {active current : ActiveRequest}
    (hactive : qp.activeRequest = some active) {status : CompletionStatus} {byteLen : ℕ}
    (hretired : current.retired status = active.retired status) :
    (qp.setActive (some current)).activeFinished status byteLen =
      qp.activeFinished status byteLen := by
  have hwork : current.work = active.work := congrArg RetiredRequest.work hretired
  simp only [activeFinished, hactive, setActive, retire]
  rw [hwork, hretired]
  rfl

end QpTransport

section Outcomes

variable {R : List (ℕ × List UInt8) → QpTransport MRS SQ RQ CQ → Prop}
  {ctx : QpContext MRS SQ RQ CQ} {memory : MemoryRegistry MRS}
  {others : Multiset (RegionLease MRS)}

theorem ends_failActiveAndError {status : CompletionStatus} (hmemory : ctx.memory = memory)
    (hR : R [] (ctx.qp.activeFinished status 0).failed)
    (h : Counted ctx.memory.refs (ctx.qp.leases + others)) :
    Ends R memory others (failActiveAndError ctx status).1 := by
  obtain ⟨hqp, hkeeps⟩ := QpContext.finishActive_spec _ h status 0
  obtain ⟨hqp', hkeeps'⟩ := QpContext.enterError_spec _ hkeeps.counted
  rw [hmemory] at hkeeps
  refine ⟨[], ?_, hkeeps.memory.trans hkeeps'.memory, hkeeps'.counted⟩
  simp only [failActiveAndError, hqp', hqp]
  exact hR

theorem ends_completeActive {copies : List (ℕ × List UInt8)} {byteLen : ℕ}
    (hmemory : Copied memory copies ctx.memory)
    (hR : R copies (ctx.qp.activeFinished .success byteLen))
    (h : Counted ctx.memory.refs (ctx.qp.leases + others)) :
    Ends R memory others (completeActive ctx byteLen).1 := by
  obtain ⟨hqp, hkeeps⟩ := QpContext.finishActive_spec _ h .success byteLen
  refine ⟨copies, ?_, ?_, hkeeps.counted⟩
  · simp only [completeActive, hqp]
    exact hR
  · have htrans := hmemory.trans hkeeps.memory
    rwa [List.append_nil] at htrans

end Outcomes

section Dispatch

variable {ctx : QpContext MRS SQ RQ CQ} {others : Multiset (RegionLease MRS)}

theorem scheduleTransportRetry_effect (h : Counted ctx.memory.refs (ctx.qp.leases + others)) :
    Ends (fun copies qp' ↦ copies = [] ∧ RetryEffect ctx.qp qp') ctx.memory others
      (scheduleTransportRetry ctx).1 := by
  unfold scheduleTransportRetry
  split <;> rename_i hactive
  · exact ⟨[], ⟨rfl, .idle hactive⟩, Copied.refl _, h⟩
  rename_i active
  split
  · rename_i budget delay hbudget
    exact ⟨[], ⟨rfl, .retried hactive hbudget⟩, Copied.refl _, h⟩
  · rename_i budget reason hbudget
    refine ends_failActiveAndError rfl ⟨rfl, ?_⟩ h
    rw [QpContext.setQp_qp, QpTransport.activeFinished_setActive hactive]
    · exact .exhausted hactive hbudget
    · rfl

section Responses

variable {packet : PacketRef} {now ticksPerSecond : ℕ} {active : ActiveRequest}

theorem failActive_effect {status : CompletionStatus} (hactive : ctx.qp.activeRequest = some active)
    (hstatus : FailsWith ctx.qp ctx.memory packet active status)
    (h : Counted ctx.memory.refs (ctx.qp.leases + others)) :
    Ends (ResponseEffect ctx.qp ctx.memory packet now ticksPerSecond) ctx.memory others
      (failActiveAndEnterError ctx status).1 :=
  ends_failActiveAndError rfl (.failed status hactive hstatus) h

/-- A receiver-not-ready NAK. -/
theorem scheduleRnrRetry_effect {aeth : Aeth} {code : UInt8} {qp : QpTransport MRS SQ RQ CQ}
    {memory : MemoryRegistry MRS} (hqp : ctx.qp = qp) (hmemory : ctx.memory = memory)
    (haeth : packet.aeth = some aeth) (hclass : aeth.classify = .rnrNak code)
    (h : Counted ctx.memory.refs (ctx.qp.leases + others)) :
    Ends (ResponseEffect qp memory packet now ticksPerSecond) memory others
      (scheduleRnrRetry ctx code.toNat now ticksPerSecond).1 := by
  subst hqp hmemory
  unfold scheduleRnrRetry
  dsimp only
  split <;> rename_i hactive
  · exact ⟨[], .ignored (.inl hactive), Copied.refl _, h⟩
  rename_i active
  split
  · rename_i budget delay hbudget
    exact ⟨[], .delayed hactive haeth hclass hbudget, Copied.refl _, h⟩
  · rename_i budget reason hbudget
    refine ends_failActiveAndError rfl ?_ h
    rw [QpContext.setQp_qp, QpTransport.activeFinished_setActive hactive]
    · exact .failed .rnrRetryExceeded hactive trivial
    · rfl

theorem handleAck_effect (hop : packet.bth.opcode = .acknowledge)
    (hquiet : negativeAeth packet.aeth = none)
    (h : Counted ctx.memory.refs (ctx.qp.leases + others)) :
    Ends (ResponseEffect ctx.qp ctx.memory packet now ticksPerSecond) ctx.memory others
      (handleAck ctx packet.bth.psn now ticksPerSecond).1 := by
  unfold handleAck
  split <;> rename_i hactive
  · exact ⟨[], .ignored (.inl hactive), Copied.refl _, h⟩
  rename_i active
  split
  · exact failActive_effect hactive trivial h
  rename_i hkind
  have hkind := Bool.eq_false_of_not_eq_true hkind
  split
  · exact failActive_effect hactive trivial h
  rename_i hsent
  obtain ⟨hsent, hpsn⟩ := not_or.mp hsent
  split
  · rename_i window packets next hack
    split
    · rename_i hall
      refine ends_completeActive (Copied.refl _) ?_ h
      rw [QpContext.setQp_qp, QpTransport.activeFinished_setActive
        (show (ctx.qp.setWindow window).activeRequest = some active from hactive)]
      · exact .ackCompleted hactive ⟨hop, hkind, hsent, hpsn⟩ hack hall
      · rfl
    · rename_i hpart
      exact ⟨[], .acked active hactive ⟨hop, hkind, hsent, hpsn⟩ hack hpart, Copied.refl _, h⟩
  · rename_i window hack
    rw [SendWindow.acknowledge_eq_self hack (.inl rfl)]
    exact ⟨[], .ignored (.inr hquiet), Copied.refl _, h⟩
  · rename_i window hack
    rw [SendWindow.acknowledge_eq_self hack (.inr rfl)]
    exact failActive_effect hactive trivial h

theorem handleAethResponse_effect {aeth : Aeth} (hactive : ctx.qp.activeRequest = some active)
    (haeth : packet.aeth = some aeth)
    (hop : ∀ credits, aeth.classify = .ack credits → packet.bth.opcode = .acknowledge)
    (h : Counted ctx.memory.refs (ctx.qp.leases + others)) :
    Ends (ResponseEffect ctx.qp ctx.memory packet now ticksPerSecond) ctx.memory others
      (handleAethResponse ctx aeth packet.bth.psn now ticksPerSecond).1 := by
  unfold handleAethResponse
  split <;> rename_i hclass
  · refine handleAck_effect (hop _ hclass) ?_ h
    rw [haeth, negativeAeth, Option.filter_some, hclass]
    rfl
  · exact scheduleRnrRetry_effect rfl rfl haeth hclass h
  · obtain ⟨copies, ⟨rfl, hretry⟩, hkeeps⟩ := scheduleTransportRetry_effect h
    exact ⟨[], .retry haeth hclass hretry, hkeeps⟩
  · exact failActive_effect hactive trivial h
  · exact failActive_effect hactive trivial h
  all_goals exact failActive_effect hactive trivial h

theorem handleReadResponse_effect
    (h : Counted ctx.memory.refs (ctx.qp.leases + others)) :
    Ends (ResponseEffect ctx.qp ctx.memory packet now ticksPerSecond) ctx.memory others
      (handleReadResponse ctx packet now ticksPerSecond).1 := by
  unfold handleReadResponse
  split <;> rename_i hactive
  · exact ⟨[], .ignored (.inl hactive), Copied.refl _, h⟩
  rename_i active
  split
  · exact failActive_effect hactive trivial h
  rename_i hkind
  have hkind := Bool.eq_true_of_not_eq_false hkind
  split
  · rename_i aeth hnegative
    obtain ⟨haeth, hclass⟩ := Option.filter_eq_some_iff.mp hnegative
    refine handleAethResponse_effect hactive haeth (fun credits hack ↦ ?_) h
    rw [hack] at hclass
    cases hclass
  rename_i hquiet
  split
  · exact ⟨[], .ignored (.inr hquiet), Copied.refl _, h⟩
  rename_i hpsn
  have hpsn := Psn.compare_eq_equal.mp (not_not.mp hpsn)
  split
  · exact failActive_effect hactive trivial h
  rename_i hop
  have hop := not_not.mp hop
  split
  · exact failActive_effect hactive trivial h
  rename_i offset length hbounds
  split
  · exact failActive_effect hactive trivial h
  rename_i hlength
  have hlength := not_not.mp hlength
  rw [← hlength] at hbounds
  split
  · rename_i haddress
    exact failActive_effect hactive ⟨hkind, offset, hbounds, haddress⟩ h
  rename_i address haddress
  split
  · rename_i e hwrite
    exact failActive_effect hactive ⟨hkind, offset, address, e, hbounds, haddress, hwrite⟩ h
  rename_i memory hwrite
  obtain ⟨hcopy, hgrants⟩ := landed_of_write haddress hwrite
  have hcounted : Counted (ctx.setMemory memory).memory.refs
      ((ctx.setMemory memory).qp.leases + others) := by
    rw [QpContext.setMemory_memory, MemoryRegistry.refs_of_write hwrite]
    exact h
  have hlands : LandsRead ctx.memory ctx.qp.mtu active packet offset :=
    ⟨⟨hkind, hop, hpsn⟩, hbounds, hgrants, hquiet⟩
  unfold acceptReadResponse
  dsimp only
  split
  · rename_i hall
    refine ends_completeActive hcopy ?_ hcounted
    have hactive' : (ctx.qp.setWindow (ctx.qp.sendWindow.acknowledge
        packet.bth.psn).1).activeRequest = some active := hactive
    rw [QpContext.setQp_qp, QpContext.setMemory_qp, QpTransport.activeFinished_setActive hactive']
    · exact .readCompleted hactive hlands hall
    · rfl
  · rename_i hpart
    exact ⟨_, .read active hactive hlands hpart, hcopy, hcounted⟩

/-- **The inversion lemma of the requester.** -/
theorem handleResponsePacket_effect
    (h : Counted ctx.memory.refs (ctx.qp.leases + others)) :
    Ends (ResponseEffect ctx.qp ctx.memory packet now ticksPerSecond) ctx.memory others
      (handleResponsePacket ctx packet now ticksPerSecond).1 := by
  unfold handleResponsePacket
  split
  · rename_i hnone
    exact ⟨[], .ignored (.inl (Option.isNone_iff_eq_none.mp hnone)), Copied.refl _, h⟩
  rename_i hnone
  obtain ⟨active, hactive⟩ : ∃ active, ctx.qp.activeRequest = some active :=
    Option.ne_none_iff_exists'.mp (mt Option.isNone_iff_eq_none.mpr hnone)
  have hfail : Ends (ResponseEffect ctx.qp ctx.memory packet now ticksPerSecond) ctx.memory others
      (failActiveTransport ctx).1 := failActive_effect hactive trivial h
  cases hop : packet.bth.opcode <;> dsimp only
  case acknowledge =>
    split
    · exact hfail
    · rename_i aeth haeth
      exact handleAethResponse_effect hactive haeth (fun _ _ ↦ hop) h
  case rdmaReadResponseFirst | rdmaReadResponseMiddle | rdmaReadResponseLast
      | rdmaReadResponseOnly =>
    exact handleReadResponse_effect h
  all_goals exact hfail

end Responses

end Dispatch

/-! ## Responses are not answered -/

section Replies

variable (ctx : QpContext MRS SQ RQ CQ) (packet : PacketRef) (psn : Psn) (now ticksPerSecond : ℕ)

theorem reply_scheduleTransportRetry : (scheduleTransportRetry ctx).2.reply = none := by
  unfold scheduleTransportRetry
  split
  · rfl
  · split <;> rfl

theorem reply_scheduleRnrRetry (code : ℕ) :
    (scheduleRnrRetry ctx code now ticksPerSecond).2.reply = none := by
  unfold scheduleRnrRetry
  dsimp only
  split
  · rfl
  · split <;> rfl

theorem reply_handleAck : (handleAck ctx psn now ticksPerSecond).2.reply = none := by
  unfold handleAck
  split
  · rfl
  split
  · rfl
  split
  · rfl
  split
  · dsimp only
    split <;> rfl
  · rfl
  · rfl

theorem reply_handleAethResponse (aeth : Aeth) :
    (handleAethResponse ctx aeth psn now ticksPerSecond).2.reply = none := by
  unfold handleAethResponse
  split
  · exact reply_handleAck ..
  · exact reply_scheduleRnrRetry ..
  · exact reply_scheduleTransportRetry _
  all_goals rfl

theorem reply_handleReadResponse :
    (handleReadResponse ctx packet now ticksPerSecond).2.reply = none := by
  unfold handleReadResponse
  split
  · rfl
  split
  · rfl
  split
  · exact reply_handleAethResponse ..
  split
  · rfl
  split
  · rfl
  split
  · rfl
  split
  · rfl
  split
  · rfl
  split
  · rfl
  unfold acceptReadResponse
  dsimp only
  split <;> rfl

/-- **A response is never answered.** -/
theorem reply_handleResponsePacket :
    (handleResponsePacket ctx packet now ticksPerSecond).2.reply = none := by
  unfold handleResponsePacket
  split
  · rfl
  split
  · split
    · rfl
    · exact reply_handleAethResponse ..
  · exact reply_handleReadResponse ..
  all_goals first
    | exact reply_handleReadResponse ..
    | rfl

end Replies

end Rocev2.Rc
