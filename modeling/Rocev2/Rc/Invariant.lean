import Rocev2.Rc.Settlement

/-!
# The invariant of a queue pair

`QpInv` collects what holds of every queue pair of a running endpoint, whatever the registry
holds: a valid configuration, leases exactly where there is work, balanced reservations, and no
work at all in the reset, init and error states.  `QpStep.inv` is its step lemma.

The frame lemmas come first.  A request packet leaves the requester half alone and a response
packet the responder half, unless the queue pair is stopped.
-/

namespace Rocev2.Rc

open Rocev2.Core Rocev2.Wire Rocev2.Memory

variable {MRS SQ RQ CQ : ℕ}

/-! ## Frames -/

/-- The queue pair is in the error state and holds nothing. -/
structure Stopped (qp : QpTransport MRS SQ RQ CQ) : Prop where
  state : qp.machine.state = .error
  active : qp.activeRequest = none
  activeMemory : qp.activeMemory = none
  inbound : qp.inboundMessage = none
  inboundMemory : qp.inboundMemory = none
  read : qp.readResponse = none
  readMemory : qp.readMemory = none
  sends : qp.sendQueue.items = []
  receives : qp.receiveQueue.items = []

/-- The requester half is the same. -/
structure SameRequester (qp qp' : QpTransport MRS SQ RQ CQ) : Prop where
  machine : qp'.machine = qp.machine
  sendWindow : qp'.sendWindow = qp.sendWindow
  sendQueue : qp'.sendQueue = qp.sendQueue
  active : qp'.activeRequest = qp.activeRequest
  activeMemory : qp'.activeMemory = qp.activeMemory
  retired : qp'.retired = qp.retired

/-- The responder half is the same. -/
structure SameResponder (qp qp' : QpTransport MRS SQ RQ CQ) : Prop where
  machine : qp'.machine = qp.machine
  receivePsn : qp'.receivePsn = qp.receivePsn
  messageSequenceNumber : qp'.messageSequenceNumber = qp.messageSequenceNumber
  receiveQueue : qp'.receiveQueue = qp.receiveQueue
  inbound : qp'.inboundMessage = qp.inboundMessage
  inboundMemory : qp'.inboundMemory = qp.inboundMemory
  read : qp'.readResponse = qp.readResponse
  readMemory : qp'.readMemory = qp.readMemory
  replay : qp'.readReplay = qp.readReplay

variable {qp qp' loaded : QpTransport MRS SQ RQ CQ} {memory : MemoryRegistry MRS}
  {packet : PacketRef} {event : QpEvent} {copies : List (ℕ × List UInt8)}
  {reply : Option ControlReply} {position : SegmentPosition}

open QpTransport

theorem stopped_failed (qp : QpTransport MRS SQ RQ CQ) : Stopped qp.failed :=
  ⟨rfl, rfl, rfl, rfl, rfl, rfl, rfl, rfl, rfl⟩

theorem Stopped.receiveFinished (h : Stopped qp) (work : RecvWorkRequest)
    (status : CompletionStatus) (byteLen : ℕ) :
    Stopped (qp.receiveFinished work status byteLen) :=
  ⟨h.state, h.active, h.activeMemory, h.inbound, rfl, h.read, h.readMemory, h.sends, h.receives⟩

theorem Stopped.idle (h : Stopped qp) : qp.Idle :=
  ⟨h.active, h.inbound, h.read, h.sends, h.receives⟩

theorem Stopped.tidy (h : Stopped qp) : Tidy qp where
  active := by rw [h.active, h.activeMemory]; rfl
  inbound := by rw [h.inbound, h.inboundMemory]; rfl
  read := by rw [h.read, h.readMemory]; rfl
  sends posted hmem := by rw [h.sends] at hmem; cases hmem
  receives posted hmem := by rw [h.receives] at hmem; cases hmem

theorem SameRequester.refl (qp : QpTransport MRS SQ RQ CQ) : SameRequester qp qp :=
  ⟨rfl, rfl, rfl, rfl, rfl, rfl⟩

theorem SameResponder.refl (qp : QpTransport MRS SQ RQ CQ) : SameResponder qp qp :=
  ⟨rfl, rfl, rfl, rfl, rfl, rfl, rfl, rfl, rfl⟩

theorem LoadsSend.sameRequester {work : RecvWorkRequest} {written : ℕ}
    (h : LoadsSend qp position loaded work written) :
    SameRequester qp loaded := by
  cases h with
  | start => exact ⟨rfl, rfl, rfl, rfl, rfl, rfl⟩
  | resume => exact SameRequester.refl qp

theorem LoadsWrite.sameRequester {reth : Option Reth} {address : UInt64} {rkey length : UInt32}
    {written : ℕ} (h : LoadsWrite qp memory reth position loaded address rkey length written) :
    SameRequester qp loaded := by
  cases h with
  | start => exact ⟨rfl, rfl, rfl, rfl, rfl, rfl⟩
  | resume => exact SameRequester.refl qp

theorem SameRequester.sendWritten (h : SameRequester qp loaded) (psn : Psn) (work : RecvWorkRequest)
    (total : ℕ) (final : Bool) :
    SameRequester qp (loaded.sendWritten psn work total final) := by
  unfold QpTransport.sendWritten
  split
  · constructor <;>
      dsimp only [receiveFinished, resolved, setInboundMemory, nextMessage, setInbound, observe]
    exacts [h.machine, h.sendWindow, h.sendQueue, h.active, h.activeMemory, h.retired]
  · exact ⟨h.machine, h.sendWindow, h.sendQueue, h.active, h.activeMemory, h.retired⟩

theorem SameRequester.writeWritten (h : SameRequester qp loaded) (psn : Psn) (address : UInt64)
    (rkey length : UInt32) (total : ℕ) (final : Bool) :
    SameRequester qp (loaded.writeWritten psn address rkey length total final) := by
  unfold QpTransport.writeWritten
  split
  · constructor <;> dsimp only [setInboundMemory, nextMessage, setInbound, observe]
    exacts [h.machine, h.sendWindow, h.sendQueue, h.active, h.activeMemory, h.retired]
  · exact ⟨h.machine, h.sendWindow, h.sendQueue, h.active, h.activeMemory, h.retired⟩

/-- **A request packet stops the queue pair or leaves the requester half alone.** -/
theorem RequestEffect.frame (h : RequestEffect qp memory packet copies qp' reply) :
    Stopped qp' ∨ SameRequester qp qp' := by
  cases h with
  | future | duplicate | replayNotReady | sendNotReady | readNotReady =>
    exact .inr (SameRequester.refl qp)
  | replay | read => exact .inr ⟨rfl, rfl, rfl, rfl, rfl, rfl⟩
  | replayFatal | fatal | receiveFailed => exact .inl (stopped_failed _)
  | sendRejected => exact .inl ((stopped_failed _).receiveFinished _ _ _)
  | send hpsn hop hload => exact .inr (hload.sameRequester.sendWritten _ _ _ _)
  | write hpsn hop hload => exact .inr (hload.sameRequester.writeWritten _ _ _ _ _ _)

theorem sameResponder_activeFinished (qp : QpTransport MRS SQ RQ CQ) (status : CompletionStatus)
    (byteLen : ℕ) : SameResponder qp (qp.activeFinished status byteLen) := by
  unfold activeFinished
  split <;> exact ⟨rfl, rfl, rfl, rfl, rfl, rfl, rfl, rfl, rfl⟩

theorem RetryEffect.frame (h : RetryEffect qp qp') : Stopped qp' ∨ SameResponder qp qp' := by
  cases h with
  | idle => exact .inr (SameResponder.refl qp)
  | retried => exact .inr ⟨rfl, rfl, rfl, rfl, rfl, rfl, rfl, rfl, rfl⟩
  | exhausted => exact .inl (stopped_failed _)

/-- **A response packet stops the queue pair or leaves the responder half alone.** -/
theorem ResponseEffect.frame {now ticksPerSecond : ℕ}
    (h : ResponseEffect qp memory packet now ticksPerSecond copies qp') :
    Stopped qp' ∨ SameResponder qp qp' := by
  cases h with
  | ignored => exact .inr (SameResponder.refl qp)
  | failed => exact .inl (stopped_failed _)
  | retry haeth hclass hretry => exact hretry.frame
  | delayed | acked | read => exact .inr ⟨rfl, rfl, rfl, rfl, rfl, rfl, rfl, rfl, rfl⟩
  | ackCompleted | readCompleted =>
    obtain ⟨h₁, h₂, h₃, h₄, h₅, h₆, h₇, h₈, h₉⟩ := sameResponder_activeFinished _ _ _
    exact .inr ⟨h₁, h₂, h₃, h₄, h₅, h₆, h₇, h₈, h₉⟩

/-! ## Leases -/

open QpTransport

theorem LoadsSend.tidy {position : SegmentPosition} {loaded : QpTransport MRS SQ RQ CQ}
    {work : RecvWorkRequest} {written : ℕ} (h : LoadsSend qp position loaded work written)
    (htidy : Tidy qp) : Tidy loaded := by
  cases h with
  | start hpos hnone hpop =>
    have hitems := Ring.pop_eq_some.mp hpop
    refine ⟨htidy.active, ?_, htidy.read, htidy.sends, fun posted hmem ↦ ?_⟩
    · exact htidy.receives _ (by rw [hitems]; exact List.mem_cons_self)
    · exact htidy.receives posted (by rw [hitems]; exact List.mem_cons_of_mem _ hmem)
  | resume => exact htidy

/-- A request packet keeps leases where there is work. -/
theorem RequestEffect.tidy (h : RequestEffect qp memory packet copies qp' reply)
    (htidy : Tidy qp) : Tidy qp' := by
  cases h with
  | future | duplicate | replayNotReady | sendNotReady | readNotReady => exact htidy
  | replay hpsn hop hreth hgrants hreplay hlease hsame =>
    exact ⟨htidy.active, htidy.inbound, hlease, htidy.sends, htidy.receives⟩
  | read => exact ⟨htidy.active, htidy.inbound, rfl, htidy.sends, htidy.receives⟩
  | replayFatal | fatal | receiveFailed => exact (stopped_failed _).tidy
  | sendRejected => exact ((stopped_failed _).receiveFinished _ _ _).tidy
  | send hpsn hop hload =>
    have hloaded := hload.tidy htidy
    have hinbound := hloaded.inbound
    rw [hload.inbound] at hinbound
    unfold sendWritten
    split
    · constructor <;>
        dsimp only [receiveFinished, resolved, setInboundMemory, nextMessage, setInbound, observe]
      exacts [hloaded.active, rfl, hloaded.read, hloaded.sends, hloaded.receives]
    · exact ⟨hloaded.active, hinbound, hloaded.read, hloaded.sends, hloaded.receives⟩
  | write hpsn hop hload =>
    unfold writeWritten
    cases hload with
    | @start _ lease hpos hnone hreth hgrants hlease =>
      split
      · constructor <;>
          dsimp only [loadWrite, setInboundMemory, nextMessage, setInbound, observe]
        exacts [htidy.active, rfl, htidy.read, htidy.sends, htidy.receives]
      · rename_i hfinal
        have hsome : lease.isSome = true := by
          rw [hlease, Bool.eq_false_of_not_eq_true hfinal]
          rfl
        constructor <;> dsimp only [loadWrite, setInboundMemory, setInbound, observe]
        exacts [htidy.active, hsome, htidy.read, htidy.sends, htidy.receives]
    | resume hpos hsome =>
      have hinbound := htidy.inbound
      rw [hsome] at hinbound
      split
      · exact ⟨htidy.active, rfl, htidy.read, htidy.sends, htidy.receives⟩
      · exact ⟨htidy.active, hinbound, htidy.read, htidy.sends, htidy.receives⟩

theorem Tidy.setActive (htidy : Tidy qp) {active active' : ActiveRequest}
    (hactive : qp.activeRequest = some active) (window : SendWindow) :
    Tidy ((qp.setWindow window).setActive (some active')) := by
  have hlease := htidy.active
  rw [hactive] at hlease
  exact ⟨hlease, htidy.inbound, htidy.read, htidy.sends, htidy.receives⟩

theorem Tidy.activeFinished (htidy : Tidy qp) (status : CompletionStatus) (byteLen : ℕ) :
    Tidy (qp.activeFinished status byteLen) := by
  unfold QpTransport.activeFinished
  split
  · rename_i hnone
    refine ⟨?_, htidy.inbound, htidy.read, htidy.sends, htidy.receives⟩
    change (none : Option (RegionLease MRS)).isSome = qp.activeRequest.isSome
    rw [hnone]
    rfl
  · exact ⟨rfl, htidy.inbound, htidy.read, htidy.sends, htidy.receives⟩

theorem RetryEffect.tidy (h : RetryEffect qp qp') (htidy : Tidy qp) : Tidy qp' := by
  cases h with
  | idle => exact htidy
  | retried hactive => exact htidy.setActive hactive qp.sendWindow
  | exhausted => exact (stopped_failed _).tidy

theorem ResponseEffect.tidy {now ticksPerSecond : ℕ}
    (h : ResponseEffect qp memory packet now ticksPerSecond copies qp') (htidy : Tidy qp) :
    Tidy qp' := by
  cases h with
  | ignored => exact htidy
  | failed => exact (stopped_failed _).tidy
  | retry haeth hclass hretry => exact hretry.tidy htidy
  | delayed hactive => exact htidy.setActive hactive qp.sendWindow
  | acked active hactive | read active hactive => exact htidy.setActive hactive _
  | ackCompleted | readCompleted =>
    refine Tidy.activeFinished ?_ _ _
    exact ⟨htidy.active, htidy.inbound, htidy.read, htidy.sends, htidy.receives⟩

theorem Tidy.leases_eq_zero (htidy : Tidy qp) (hidle : qp.Idle) : qp.leases = 0 := by
  have hactive : qp.activeMemory = none := by simpa [hidle.active] using htidy.active
  have hinbound : qp.inboundMemory = none := by simpa [hidle.inbound] using htidy.inbound
  have hread : qp.readMemory = none := by simpa [hidle.read] using htidy.read
  rw [leases, hidle.sends, hidle.receives, hactive, hinbound, hread]
  rfl

/-! ## The invariant -/

/-- What holds of every queue pair of a running endpoint. -/
structure QpInv (qp : QpTransport MRS SQ RQ CQ) : Prop where
  /-- The configuration passed validation. -/
  config : qp.machine.config.Valid
  /-- There is a lease exactly where there is work. -/
  tidy : Tidy qp
  /-- The reservations are the pending requests. -/
  balanced : Balanced qp
  /-- The reset, init and error states hold no work. -/
  quiet : qp.machine.canReceive = false → qp.Idle

open QpTransport

theorem LoadsSend.config {work : RecvWorkRequest} {written : ℕ}
    (h : LoadsSend qp position loaded work written) :
    loaded.config = qp.config := by
  cases h with
  | start | resume => rfl

theorem LoadsWrite.config {reth : Option Reth} {address : UInt64} {rkey length : UInt32}
    {written : ℕ} (h : LoadsWrite qp memory reth position loaded address rkey length written) :
    loaded.config = qp.config := by
  cases h with
  | start | resume => rfl

theorem RequestEffect.config {packet : PacketRef}
    (h : RequestEffect qp memory packet copies qp' reply) : qp'.config = qp.config := by
  cases h with
  | future | duplicate | replayNotReady | sendNotReady | readNotReady | replay | read
  | replayFatal | fatal | receiveFailed | sendRejected => rfl
  | send hpsn hop hload =>
    rw [← hload.config]
    unfold sendWritten
    split <;> rfl
  | write hpsn hop hload =>
    rw [← hload.config]
    unfold writeWritten
    split <;> rfl

theorem config_activeFinished (qp : QpTransport MRS SQ RQ CQ) (status : CompletionStatus)
    (byteLen : ℕ) : (qp.activeFinished status byteLen).config = qp.config := by
  unfold QpTransport.activeFinished
  split <;> rfl

theorem config_failed (qp : QpTransport MRS SQ RQ CQ) : qp.failed.config = qp.config := rfl

theorem RetryEffect.config (h : RetryEffect qp qp') : qp'.config = qp.config := by
  cases h with
  | idle | retried => rfl
  | exhausted => rw [config_failed, config_activeFinished]

theorem ResponseEffect.config {packet : PacketRef} {now ticksPerSecond : ℕ}
    (h : ResponseEffect qp memory packet now ticksPerSecond copies qp') :
    qp'.config = qp.config := by
  cases h with
  | ignored | delayed | acked | read => rfl
  | failed => rw [config_failed, config_activeFinished]
  | retry haeth hclass hretry => exact hretry.config
  | ackCompleted | readCompleted => exact config_activeFinished _ _ _

/-- **Only a reconfiguration changes the configuration.** -/
theorem QpStep.config (h : QpStep memory qp event copies qp' reply)
    (hevent : ∀ config, event ≠ .reconfigure config) : qp'.config = qp.config := by
  cases h with
  | start heffect => cases heffect <;> rfl
  | sent =>
    unfold markRequestPacketSent
    split <;> rfl
  | rnrExpired | postWork | postReceive => rfl
  | readSent =>
    unfold readAdvanced
    split
    · rfl
    · split <;> rfl
  | request hready heffect => exact heffect.config
  | response hready heffect => exact heffect.config
  | timeout hretry => exact hretry.config
  | transition =>
    unfold moved
    split <;> rfl
  | reconfigure => exact absurd rfl (hevent _)
  | poll hpoll =>
    obtain ⟨queue, -, rfl⟩ := pollQp_eq_some hpoll
    rfl

theorem idle_moved (hquiet : qp.machine.canReceive = false → qp.Idle) {destination : QpState}
    (hlegal : isLegalTransition qp.machine.state destination = true)
    (hstate : (qp.moved destination).machine.canReceive = false) : (qp.moved destination).Idle := by
  cases destination with
  | error | reset => exact ⟨rfl, rfl, rfl, rfl, rfl⟩
  | init =>
    have hsource : qp.machine.canReceive = false := by
      unfold QpStateMachine.canReceive
      cases hs : qp.machine.state with
      | reset | init | error => rfl
      | rtr | rts | sqd | sqe =>
        rw [hs] at hlegal
        cases hlegal
    obtain ⟨hactive, hinbound, hread, hsends, hreceives⟩ := hquiet hsource
    exact ⟨hactive, hinbound, hread, hsends, hreceives⟩
  | rtr | rts | sqd | sqe => cases hstate

/-- **The reset, init and error states hold no work.** -/
theorem QpStep.quiet (h : QpStep memory qp event copies qp' reply)
    (hquiet : qp.machine.canReceive = false → qp.Idle) (hstate : qp'.machine.canReceive = false) :
    qp'.Idle := by
  cases h with
  | start heffect =>
    cases heffect with
    | waits => exact hquiet hstate
    | starts hactive hready hpop hreserve hpolicy =>
      have hrts : qp.machine.state = .rts := of_decide_eq_true hready
      change qp.machine.canReceive = false at hstate
      rw [QpStateMachine.canReceive, hrts] at hstate
      cases hstate
  | sent now timeoutTicks hphase =>
    unfold markRequestPacketSent at hstate ⊢
    split at hstate
    · exact hquiet hstate
    · rename_i active hactive
      have hidle := hquiet hstate
      rw [hidle.active] at hactive
      cases hactive
  | readSent =>
    unfold readAdvanced at hstate ⊢
    split at hstate
    · exact hquiet hstate
    · rename_i response hread
      have hidle : qp.Idle := by
        refine hquiet ?_
        split at hstate <;> exact hstate
      rw [hidle.read] at hread
      cases hread
  | request hready heffect =>
    rcases heffect.frame with hstopped | hsame
    · exact hstopped.idle
    · rw [hsame.machine, hready] at hstate
      cases hstate
  | response hready heffect =>
    rcases heffect.frame with hstopped | hsame
    · exact hstopped.idle
    · rw [hsame.machine, hready] at hstate
      cases hstate
  | timeout hretry =>
    cases hretry with
    | idle => exact hquiet hstate
    | retried hactive =>
      have hidle := hquiet hstate
      rw [hidle.active] at hactive
      cases hactive
    | exhausted => exact (stopped_failed _).idle
  | rnrExpired hactive =>
    have hidle := hquiet hstate
    rw [hidle.active] at hactive
    cases hactive
  | transition hlegal => exact idle_moved hquiet hlegal hstate
  | reconfigure hidle hmachine => exact ⟨rfl, rfl, rfl, hidle.sends, hidle.receives⟩
  | postWork hrts =>
    change qp.machine.canReceive = false at hstate
    rw [QpStateMachine.canReceive, hrts] at hstate
    cases hstate
  | postReceive hpost =>
    change qp.machine.canReceive = false at hstate
    unfold QpStateMachine.canReceive at hstate
    unfold RcEndpoint.canPostReceive at hpost
    cases hs : qp.machine.state <;> simp_all
  | poll hpoll =>
    obtain ⟨queue, -, rfl⟩ := pollQp_eq_some hpoll
    obtain ⟨hactive, hinbound, hread, hsends, hreceives⟩ := hquiet hstate
    exact ⟨hactive, hinbound, hread, hsends, hreceives⟩

/-- Every step keeps leases where there is work. -/
theorem QpStep.tidy (h : QpStep memory qp event copies qp' reply) (htidy : Tidy qp) : Tidy qp' := by
  cases h with
  | start heffect =>
    cases heffect with
    | waits => exact htidy
    | starts hactive hready hpop hreserve hpolicy =>
      have hitems := Ring.pop_eq_some.mp hpop
      refine ⟨?_, htidy.inbound, htidy.read, fun posted hmem ↦ ?_, htidy.receives⟩
      · exact htidy.sends _ (by rw [hitems]; exact List.mem_cons_self)
      · exact htidy.sends posted (by rw [hitems]; exact List.mem_cons_of_mem _ hmem)
  | sent =>
    unfold markRequestPacketSent
    split
    · exact htidy
    · rename_i active hactive
      exact htidy.setActive hactive qp.sendWindow
  | readSent =>
    unfold readAdvanced
    split
    · exact htidy
    · rename_i response hread
      have hlease := htidy.read
      rw [hread] at hlease
      split
      · exact ⟨htidy.active, htidy.inbound, rfl, htidy.sends, htidy.receives⟩
      · exact ⟨htidy.active, htidy.inbound, hlease, htidy.sends, htidy.receives⟩
  | request hready heffect => exact heffect.tidy htidy
  | response hready heffect => exact heffect.tidy htidy
  | timeout hretry => exact hretry.tidy htidy
  | rnrExpired hactive => exact htidy.setActive hactive qp.sendWindow
  | @transition destination hlegal =>
    obtain ⟨hactive, hinbound, hread, hsends, hreceives⟩ := htidy
    cases destination with
    | error | reset =>
      exact ⟨rfl, rfl, rfl, fun posted hmem ↦ (nomatch hmem), fun posted hmem ↦ (nomatch hmem)⟩
    | init | rtr | rts | sqd | sqe => exact ⟨hactive, hinbound, hread, hsends, hreceives⟩
  | reconfigure hidle hmachine =>
    have hactive := htidy.active
    have hinbound := htidy.inbound
    have hread := htidy.read
    rw [hidle.active] at hactive
    rw [hidle.inbound] at hinbound
    rw [hidle.read] at hread
    exact ⟨hactive, hinbound, hread, htidy.sends, htidy.receives⟩
  | postWork hstate hqueue hroom hvalid hlease =>
    refine ⟨htidy.active, htidy.inbound, htidy.read, fun posted hmem ↦ ?_, htidy.receives⟩
    rcases List.mem_append.mp (hqueue ▸ (hmem : posted ∈ Ring.items _)) with hold | hnew
    · exact htidy.sends posted hold
    · obtain ⟨index, slot, -, -, hsome⟩ := hlease posted hnew
      rw [hsome]
      rfl
  | postReceive hstate hqueue hroom hvalid hlease =>
    refine ⟨htidy.active, htidy.inbound, htidy.read, htidy.sends, fun posted hmem ↦ ?_⟩
    rcases List.mem_append.mp (hqueue ▸ (hmem : posted ∈ Ring.items _)) with hold | hnew
    · exact htidy.receives posted hold
    · obtain ⟨index, slot, -, -, hsome⟩ := hlease posted hnew
      rw [hsome]
      rfl
  | poll hpoll =>
    obtain ⟨queue, -, rfl⟩ := pollQp_eq_some hpoll
    exact ⟨htidy.active, htidy.inbound, htidy.read, htidy.sends, htidy.receives⟩

/-- **Every step keeps the invariant of the queue pair.** -/
theorem QpStep.inv (h : QpStep memory qp event copies qp' reply) (hinv : QpInv qp) : QpInv qp' := by
  refine ⟨?_, h.tidy hinv.tidy, h.balanced hinv.balanced, h.quiet hinv.quiet⟩
  by_cases hevent : ∃ config, event = .reconfigure config
  · obtain ⟨config, rfl⟩ := hevent
    cases h with
    | reconfigure hidle hmachine =>
      obtain ⟨rfl, hvalid⟩ := QpStateMachine.reconfigure_eq_ok hmachine
      exact hvalid
  · have hconfig := congrArg (fun config ↦ config.transport)
      (h.config fun config heq ↦ hevent ⟨config, heq⟩)
    change qp'.machine.config = qp.machine.config at hconfig
    rw [hconfig]
    exact hinv.config

end Rocev2.Rc
