import Rocev2.Memory.Keys
import Rocev2.Rc.Invariant

/-!
# The memory behind posted work

A work request is accepted only if a registered region grants its scatter range, and it holds a
lease on that region until it ends.  `Granted` says that this is still so: whatever is queued or
in progress can be carried out.  It is kept by every step of the queue pair and by every change
of the registry that respects the leases.
-/

namespace Rocev2.Rc

open Rocev2.Core Rocev2.Wire Rocev2.Memory Rocev2.Lib

variable {MRS SQ RQ CQ : ℕ}

/-- The local right that an operation needs. -/
def accessOf : WorkRequestKind → AccessFlags
  | .send | .rdmaWrite _ _ => .none
  | .rdmaRead _ _ => .localWriteOnly

def Leased (memory : MemoryRegistry MRS) (kind : KeyKind) (required : AccessFlags) (key : UInt32)
    (address length : ℕ) (lease : Option (RegionLease MRS)) : Prop :=
  ∃ index slot, Grants memory kind required key address length index slot ∧
    lease = some (memory.leaseOf index slot)

/-- The leased region grants the whole scatter range. -/
def Backed (memory : MemoryRegistry MRS) (required : AccessFlags) (sge : Sge)
    (lease : Option (RegionLease MRS)) : Prop :=
  Leased memory .loc required sge.lkey sge.address.toNat sge.length.toNat lease

/-- The READ that a response answers is the one to be replayed, and a packet of it is left. -/
structure Answers (qp : QpTransport MRS SQ RQ CQ) (response : ReadResponseState) : Prop where
  count : response.packetCount = packetCount response.length qp.mtu
  left : response.nextPacket < response.packetCount
  replay : qp.readReplay = some { response with nextPacket := 0 }

/-- The work of the requester is backed. -/
structure RequesterGranted (memory : MemoryRegistry MRS) (qp : QpTransport MRS SQ RQ CQ) :
    Prop where
  sends : ∀ posted ∈ qp.sendQueue.items,
    Backed memory (accessOf posted.work.kind) posted.work.sge posted.lease
  active : ∀ active, qp.activeRequest = some active →
    Backed memory (accessOf active.work.kind) active.work.sge qp.activeMemory
  /-- A queued request takes no more packets than the window can hold. -/
  sized : ∀ posted ∈ qp.sendQueue.items,
    packetCount posted.work.sge.length qp.mtu ≤ maxOutstandingPackets

/-- The work of the responder is backed, and so are the remote ranges it is asked to access. -/
structure ResponderGranted (memory : MemoryRegistry MRS) (qp : QpTransport MRS SQ RQ CQ) :
    Prop where
  receives : ∀ posted ∈ qp.receiveQueue.items,
    Backed memory .localWriteOnly posted.work.sge posted.lease
  inbound : ∀ work written, qp.inboundMessage = some (.send work written) →
    Backed memory .localWriteOnly work.sge qp.inboundMemory
  writing : ∀ address rkey length written,
    qp.inboundMessage = some (.write address rkey length written) →
    Leased memory .remote .remoteWriteOnly rkey address.toNat length.toNat qp.inboundMemory
  reading : ∀ response, qp.readResponse = some response →
    Leased memory .remote .remoteReadOnly response.rkey response.address.toNat
      response.length.toNat qp.readMemory
  answering : ∀ response, qp.readResponse = some response → Answers qp response

/-- All work of a queue pair is backed. -/
structure Granted (memory : MemoryRegistry MRS) (qp : QpTransport MRS SQ RQ CQ) : Prop extends
  RequesterGranted memory qp, ResponderGranted memory qp

/-! ## Changes of the registry -/

section Registry

variable {memory memory' : MemoryRegistry MRS} {required : AccessFlags} {sge : Sge}
  {lease : Option (RegionLease MRS)} {qp : QpTransport MRS SQ RQ CQ}

theorem held_le_heldBy {α : Type} {items : List (PostedWork α MRS)} {posted : PostedWork α MRS}
    (hmem : posted ∈ items) : held posted.lease ≤ heldBy items := by
  induction items with
  | nil => cases hmem
  | cons head items ih =>
    rw [heldBy_cons]
    rcases List.mem_cons.mp hmem with rfl | hmem
    · exact Multiset.le_add_right _ _
    · exact (ih hmem).trans (Multiset.le_add_left _ _)

/-- Changing all backings at once. -/
theorem Granted.imp (h : Granted memory qp)
    (himp : ∀ kind required key address length (lease : RegionLease MRS), lease ∈ qp.leases →
      Leased memory kind required key address length (some lease) →
      Leased memory' kind required key address length (some lease)) :
    Granted memory' qp := by
  have hsome : ∀ kind required key address length (lease : Option (RegionLease MRS)),
      held lease ≤ qp.leases → Leased memory kind required key address length lease →
      Leased memory' kind required key address length lease := by
    rintro kind required key address length lease hle ⟨index, slot, hgrants, rfl⟩
    refine himp kind required key address length _
      (Multiset.mem_of_le hle (Multiset.mem_singleton_self _)) ?_
    exact ⟨index, slot, hgrants, rfl⟩
  have hreceives : heldBy qp.receiveQueue.items ≤ qp.leases := Multiset.le_add_left _ _
  have hfour := Multiset.le_add_right
    (held qp.activeMemory + held qp.inboundMemory + held qp.readMemory +
      heldBy qp.sendQueue.items) (heldBy qp.receiveQueue.items)
  have hsends : heldBy qp.sendQueue.items ≤ qp.leases := (Multiset.le_add_left _ _).trans hfour
  have hthree : held qp.activeMemory + held qp.inboundMemory + held qp.readMemory ≤ qp.leases :=
    (Multiset.le_add_right _ _).trans hfour
  have hread : held qp.readMemory ≤ qp.leases := (Multiset.le_add_left _ _).trans hthree
  have htwo : held qp.activeMemory + held qp.inboundMemory ≤ qp.leases :=
    (Multiset.le_add_right _ _).trans hthree
  have hinbound : held qp.inboundMemory ≤ qp.leases := (Multiset.le_add_left _ _).trans htwo
  have hactive : held qp.activeMemory ≤ qp.leases := (Multiset.le_add_right _ _).trans htwo
  refine ⟨⟨?_, ?_, h.sized⟩, ⟨?_, ?_, ?_, ?_, h.answering⟩⟩
  · intro posted hmem
    exact hsome _ _ _ _ _ _ ((held_le_heldBy hmem).trans hsends) (h.sends posted hmem)
  · intro active hsome'
    exact hsome _ _ _ _ _ _ hactive (h.active active hsome')
  · intro posted hmem
    exact hsome _ _ _ _ _ _ ((held_le_heldBy hmem).trans hreceives) (h.receives posted hmem)
  · intro work written hsome'
    exact hsome _ _ _ _ _ _ hinbound (h.inbound work written hsome')
  · intro address rkey length written hsome'
    exact hsome _ _ _ _ _ _ hinbound (h.writing address rkey length written hsome')
  · intro response hsome'
    exact hsome _ _ _ _ _ _ hread (h.reading response hsome')

theorem Granted.congr (hsame : SameRegions memory memory') (h : Granted memory qp) :
    Granted memory' qp := by
  refine h.imp fun kind required key address length lease _ hbacked ↦ ?_
  obtain ⟨index, slot, hgrants, hlease⟩ := hbacked
  obtain ⟨slot', hregion, hgrants'⟩ := hgrants.congr hsame
  have hgeneration : slot'.generation = slot.generation :=
    congrArg (fun s ↦ s.generation) hregion
  refine ⟨index, slot', hgrants', ?_⟩
  rw [hlease, MemoryRegistry.leaseOf, MemoryRegistry.leaseOf, hsame.identity, hgeneration]

theorem Granted.extend (hextends : Extends memory memory') (h : Granted memory qp) :
    Granted memory' qp := by
  refine h.imp fun kind required key address length lease _ hbacked ↦ ?_
  obtain ⟨index, slot, hgrants, hlease⟩ := hbacked
  refine ⟨index, slot, hextends.grants hgrants, ?_⟩
  rw [hlease, MemoryRegistry.leaseOf, MemoryRegistry.leaseOf, hextends.identity]

theorem Granted.removed {index : Fin MRS} {slot : MemorySlot} {held : Multiset (RegionLease MRS)}
    (hkeyed : Keyed memory) (hslot : memory.slots index = some slot)
    (hreferences : slot.references = 0) (hcounted : Counted memory.refs held)
    (hle : qp.leases ≤ held) (h : Granted memory qp) :
    Granted (memory.removed index slot) qp := by
  refine h.imp fun kind required key address length lease hmem hbacked ↦ ?_
  obtain ⟨index', slot', hgrants, hlease⟩ := hbacked
  have hpos := hcounted.pos (Multiset.mem_of_le hle hmem)
  rw [Option.some.inj hlease, MemoryRegistry.refs_leaseOf hgrants.slot_eq] at hpos
  have hne : index' ≠ index := by
    rintro rfl
    have hsame := hgrants.slot_eq.symm.trans hslot
    rw [Option.some.inj hsame, hreferences] at hpos
    exact absurd hpos (Nat.lt_irrefl 0)
  exact ⟨index', slot', MemoryRegistry.grants_removed hkeyed hslot hne hgrants, hlease⟩

theorem Leased.grants {kind : KeyKind} {key : UInt32} {address length : ℕ}
    (h : Leased memory kind required key address length lease) (address' length' : ℕ)
    (hlower : address ≤ address') (hupper : address' + length' ≤ address + length) :
    ∃ index slot, Grants memory kind required key address' length' index slot := by
  obtain ⟨index, slot, hgrants, -⟩ := h
  exact ⟨index, slot, hgrants.mono hlower hupper⟩

theorem Leased.bound {kind : KeyKind} {key : UInt32} {address length : ℕ}
    (h : Leased memory kind required key address length lease) : address + length < 2 ^ 64 := by
  obtain ⟨index, slot, hgrants, -⟩ := h
  exact Nat.lt_of_le_of_lt hgrants.upper hgrants.bound

theorem Backed.writeLocal {address : UInt64} {input : List UInt8} {offset : ℕ}
    (h : Backed memory .localWriteOnly sge lease)
    (haddress : address.toNat = sge.address.toNat + offset)
    (hlength : offset + input.length ≤ sge.length.toNat) :
    ∃ memory', memory.writeLocal sge.lkey address input = .ok memory' := by
  refine ⟨_, MemoryRegistry.write_eq_ok.mpr ⟨rfl, ?_⟩⟩
  exact h.grants _ _ (by omega) (by omega)

end Registry

/-! ## Steps -/

section Steps

variable {memory : MemoryRegistry MRS} {qp qp' : QpTransport MRS SQ RQ CQ} {packet : PacketRef}
  {copies : List (ℕ × List UInt8)} {reply : Option ControlReply} {required : AccessFlags}
  {lease : Option (RegionLease MRS)}

open QpTransport

theorem Stopped.granted (h : Stopped qp) : Granted memory qp where
  sends posted hmem := by rw [h.sends] at hmem; cases hmem
  active active hactive := by rw [h.active] at hactive; cases hactive
  sized posted hmem := by rw [h.sends] at hmem; cases hmem
  receives posted hmem := by rw [h.receives] at hmem; cases hmem
  inbound work written hinbound := by rw [h.inbound] at hinbound; cases hinbound
  writing address rkey length written hinbound := by rw [h.inbound] at hinbound; cases hinbound
  reading response hread := by rw [h.read] at hread; cases hread
  answering response hread := by rw [h.read] at hread; cases hread

theorem RequesterGranted.frame (h : RequesterGranted memory qp) (hsame : SameRequester qp qp') :
    RequesterGranted memory qp' := by
  have hmtu : qp'.mtu = qp.mtu := by rw [mtu, mtu, hsame.machine]
  refine ⟨?_, ?_, ?_⟩
  · rw [hsame.sendQueue]
    exact h.sends
  · rw [hsame.active, hsame.activeMemory]
    exact h.active
  · rw [hsame.sendQueue, hmtu]
    exact h.sized

theorem ResponderGranted.frame (h : ResponderGranted memory qp) (hsame : SameResponder qp qp') :
    ResponderGranted memory qp' := by
  have hmtu : qp'.mtu = qp.mtu := by rw [mtu, mtu, hsame.machine]
  refine ⟨?_, ?_, ?_, ?_, ?_⟩
  · rw [hsame.receiveQueue]
    exact h.receives
  · rw [hsame.inbound, hsame.inboundMemory]
    exact h.inbound
  · rw [hsame.inbound, hsame.inboundMemory]
    exact h.writing
  · rw [hsame.read, hsame.readMemory]
    exact h.reading
  · rw [hsame.read]
    intro response hread
    obtain ⟨hcount, hleft, hreplay⟩ := h.answering response hread
    exact ⟨by rw [hmtu]; exact hcount, hleft, by rw [hsame.replay]; exact hreplay⟩

theorem LeaseOn.leased {kind : KeyKind} {key : UInt32} {address length : ℕ}
    (hlease : LeaseOn memory kind key lease)
    (hgrants : ∃ index slot, Grants memory kind required key address length index slot) :
    Leased memory kind required key address length lease := by
  obtain ⟨index, slot, hgrants⟩ := hgrants
  obtain ⟨index', slot', hkey, hslot, rfl⟩ := hlease
  obtain ⟨-, rfl⟩ := KeyTable.get_unique hgrants.key_eq hkey
  have hsame := Option.some.inj (hgrants.slot_eq.symm.trans hslot)
  subst hsame
  exact ⟨index, slot, hgrants, rfl⟩

theorem backed_of_validate {sge : Sge}
    (hvalid : memory.validate .loc required sge.lkey sge.address sge.length.toNat = .ok ())
    (hlease : LeaseOn memory .loc sge.lkey lease) : Backed memory required sge lease :=
  hlease.leased (MemoryRegistry.validate_eq_ok.mp hvalid)

theorem packetCount_of_validatePostedWork {work : WorkRequest} {mtu : ℕ}
    (h : RcEndpoint.validatePostedWork memory work mtu = .ok ()) :
    packetCount work.sge.length mtu ≤ maxOutstandingPackets := by
  unfold RcEndpoint.validatePostedWork at h
  dsimp only at h
  split at h
  · cases h
  · exact Nat.le_of_not_lt ‹_›

theorem validate_of_validatePostedWork {work : WorkRequest} {mtu : ℕ}
    (h : RcEndpoint.validatePostedWork memory work mtu = .ok ()) :
    memory.validate .loc (accessOf work.kind) work.sge.lkey work.sge.address
      work.sge.length.toNat = .ok () := by
  unfold RcEndpoint.validatePostedWork at h
  dsimp only at h
  split at h
  · cases h
  split at h
  all_goals
    rename_i hkind
    rw [hkind]
    split at h
    · cases h
    · rename_i hvalid
      exact hvalid

theorem LoadsSend.granted {position : SegmentPosition} {loaded : QpTransport MRS SQ RQ CQ}
    {work : RecvWorkRequest} {written : ℕ} (h : LoadsSend qp position loaded work written)
    (hgranted : ResponderGranted memory qp) : ResponderGranted memory loaded := by
  cases h with
  | start hpos hnone hpop =>
    have hitems := Ring.pop_eq_some.mp hpop
    refine ⟨fun posted hmem ↦ ?_, fun work written hsome ↦ ?_, fun _ _ _ _ hsome ↦ ?_,
      hgranted.reading, ?_⟩
    · exact hgranted.receives posted (by rw [hitems]; exact List.mem_cons_of_mem _ hmem)
    · cases hsome
      exact hgranted.receives _ (by rw [hitems]; exact List.mem_cons_self)
    · cases hsome
    · exact fun response hread ↦ ⟨(hgranted.answering response hread).count,
        (hgranted.answering response hread).left, (hgranted.answering response hread).replay⟩
  | resume => exact hgranted

theorem ResponderGranted.setInbound (h : ResponderGranted memory qp) (hmtu : qp'.mtu = qp.mtu)
    (hqueue : qp'.receiveQueue = qp.receiveQueue) (hread : qp'.readResponse = qp.readResponse)
    (hreadMemory : qp'.readMemory = qp.readMemory) (hreplay : qp'.readReplay = qp.readReplay)
    (hsend : ∀ work written, qp'.inboundMessage = some (.send work written) →
      Backed memory .localWriteOnly work.sge qp'.inboundMemory)
    (hwrite : ∀ address rkey length written,
      qp'.inboundMessage = some (.write address rkey length written) →
      Leased memory .remote .remoteWriteOnly rkey address.toNat length.toNat qp'.inboundMemory) :
    ResponderGranted memory qp' := by
  refine ⟨?_, hsend, hwrite, ?_, ?_⟩
  · rw [hqueue]
    exact h.receives
  · rw [hread, hreadMemory]
    exact h.reading
  · rw [hread]
    intro response hsome
    obtain ⟨hcount, hleft, hreplay'⟩ := h.answering response hsome
    exact ⟨by rw [hmtu]; exact hcount, hleft, by rw [hreplay]; exact hreplay'⟩

/-- Starting to answer a READ. -/
theorem ResponderGranted.setRead {psn : Psn} {reth : Reth} (h : ResponderGranted memory qp)
    (hmtu : qp'.mtu = qp.mtu) (hqueue : qp'.receiveQueue = qp.receiveQueue)
    (hinbound : qp'.inboundMessage = qp.inboundMessage)
    (hinboundMemory : qp'.inboundMemory = qp.inboundMemory)
    (hread : qp'.readResponse = some (readResponseOf qp psn reth))
    (hreplay : qp'.readReplay = some (readResponseOf qp psn reth))
    (hleased : Leased memory .remote .remoteReadOnly reth.remoteKey reth.virtualAddress.toNat
      reth.dmaLength.toNat qp'.readMemory) :
    ResponderGranted memory qp' := by
  refine ⟨?_, ?_, ?_, ?_, ?_⟩
  · rw [hqueue]
    exact h.receives
  · rw [hinbound, hinboundMemory]
    exact h.inbound
  · rw [hinbound, hinboundMemory]
    exact h.writing
  · rw [hread]
    rintro response ⟨⟩
    exact hleased
  · rw [hread]
    rintro response ⟨⟩
    refine ⟨by rw [hmtu]; rfl, ?_, hreplay⟩
    exact packetCount_pos _ (Nat.lt_of_lt_of_le (by decide) (PathMtu.bytes_bounds _).1)

/-- A READ that is replayed is leased, anew or still. -/
theorem ResponderGranted.replayed {psn : Psn} {reth : Reth} {lease : Option (RegionLease MRS)}
    (h : ResponderGranted memory qp) (htidy : Tidy qp)
    (hgrants : ∃ index slot, Grants memory .remote .remoteReadOnly reth.remoteKey
      reth.virtualAddress.toNat reth.dmaLength.toNat index slot)
    (hreplay : qp.readReplay = some (readResponseOf qp psn reth))
    (hsame : qp.readMemory.isSome → lease = qp.readMemory)
    (hleased : qp.readMemory = none → LeaseOn memory .remote reth.remoteKey lease) :
    Leased memory .remote .remoteReadOnly reth.remoteKey reth.virtualAddress.toNat
      reth.dmaLength.toNat lease := by
  cases hmemory : qp.readMemory with
  | none => exact (hleased hmemory).leased hgrants
  | some held =>
    -- The READ being answered is the one that is replayed.
    have hsome : qp.readResponse.isSome := by
      rw [← htidy.read, hmemory]
      rfl
    obtain ⟨response, hresponse⟩ := Option.isSome_iff_exists.mp hsome
    have hread := h.reading response hresponse
    have hold := (h.answering response hresponse).replay
    have hsame' := Option.some.inj (hold.symm.trans hreplay)
    have haddress : response.address = reth.virtualAddress :=
      congrArg ReadResponseState.address hsame'
    have hrkey : response.rkey = reth.remoteKey := congrArg ReadResponseState.rkey hsame'
    have hlength : response.length = reth.dmaLength := congrArg ReadResponseState.length hsame'
    rw [haddress, hrkey, hlength] at hread
    rw [hsame (by rw [hmemory]; rfl)]
    exact hread

theorem RequestEffect.responderGranted (h : RequestEffect qp memory packet copies qp' reply)
    (htidy : Tidy qp) (hgranted : ResponderGranted memory qp) : ResponderGranted memory qp' := by
  cases h with
  | future | duplicate | replayNotReady | sendNotReady | readNotReady => exact hgranted
  | @replay reth lease hpsn hop hreth hgrants hreplay hlease hsame hleased =>
    exact hgranted.setRead rfl rfl rfl rfl rfl hreplay
      (hgranted.replayed htidy hgrants hreplay hsame hleased)
  | read lease hpsn hop hreth hinbound hread hgrants hleased =>
    exact hgranted.setRead rfl rfl rfl rfl rfl rfl (hleased.leased hgrants)
  | replayFatal | fatal | receiveFailed =>
    exact (stopped_failed _).granted.toResponderGranted
  | sendRejected =>
    exact ((stopped_failed _).receiveFinished _ _ _).granted.toResponderGranted
  | send hpsn hop hload =>
    have hloaded := hload.granted hgranted
    unfold sendWritten
    split
    · refine hloaded.setInbound ?_ ?_ ?_ ?_ ?_ ?_ ?_ <;>
        dsimp only [mtu, receiveFinished, resolved, setInboundMemory, nextMessage, setInbound,
          observe]
      · exact fun _ _ hsome ↦ (nomatch hsome)
      · exact fun _ _ _ _ hsome ↦ (nomatch hsome)
    · refine hloaded.setInbound rfl rfl rfl rfl rfl ?_ ?_
      · rintro work written ⟨⟩
        exact hloaded.inbound _ _ hload.inbound
      · exact fun _ _ _ _ hsome ↦ (nomatch hsome)
  | write hpsn hop hload =>
    unfold writeWritten
    cases hload with
    | start hpos hnone hreth hgrants hlease hleased =>
      split
      · refine hgranted.setInbound rfl rfl rfl rfl rfl ?_ ?_
        · exact fun _ _ hsome ↦ (nomatch hsome)
        · exact fun _ _ _ _ hsome ↦ (nomatch hsome)
      · rename_i hfinal
        refine hgranted.setInbound rfl rfl rfl rfl rfl (fun _ _ hsome ↦ (nomatch hsome)) ?_
        rintro address rkey length written ⟨⟩
        exact (hleased (Bool.eq_false_of_not_eq_true hfinal)).leased hgrants
    | resume hpos hsome =>
      split
      · refine hgranted.setInbound rfl rfl rfl rfl rfl ?_ ?_
        · exact fun _ _ hsome ↦ (nomatch hsome)
        · exact fun _ _ _ _ hsome ↦ (nomatch hsome)
      · refine hgranted.setInbound rfl rfl rfl rfl rfl (fun _ _ hsome ↦ (nomatch hsome)) ?_
        rintro address rkey length written ⟨⟩
        exact hgranted.writing _ _ _ _ hsome

theorem RequestEffect.granted (h : RequestEffect qp memory packet copies qp' reply)
    (htidy : Tidy qp) (hgranted : Granted memory qp) : Granted memory qp' := by
  rcases h.frame with hstopped | hsame
  · exact hstopped.granted
  · exact ⟨hgranted.toRequesterGranted.frame hsame,
      h.responderGranted htidy hgranted.toResponderGranted⟩

theorem RequesterGranted.setActive (hgranted : RequesterGranted memory qp)
    {active active' : ActiveRequest} (hactive : qp.activeRequest = some active)
    (hwork : active'.work = active.work) (window : SendWindow) :
    RequesterGranted memory ((qp.setWindow window).setActive (some active')) := by
  refine ⟨hgranted.sends, ?_, hgranted.sized⟩
  rintro current ⟨⟩
  rw [hwork]
  exact hgranted.active active hactive

theorem RequesterGranted.activeFinished (hgranted : RequesterGranted memory qp)
    (status : CompletionStatus) (byteLen : ℕ) :
    RequesterGranted memory (qp.activeFinished status byteLen) := by
  unfold QpTransport.activeFinished
  split
  · rename_i hnone
    refine ⟨hgranted.sends, fun active hactive ↦ ?_, hgranted.sized⟩
    exact nomatch hnone.symm.trans hactive
  · exact ⟨hgranted.sends, fun _ hactive ↦ (nomatch hactive), hgranted.sized⟩

theorem RetryEffect.granted (h : RetryEffect qp qp') (hgranted : Granted memory qp) :
    Granted memory qp' := by
  rcases h.frame with hstopped | hsame
  · exact hstopped.granted
  · refine ⟨?_, hgranted.toResponderGranted.frame hsame⟩
    cases h with
    | idle => exact hgranted.toRequesterGranted
    | retried hactive =>
      refine hgranted.toRequesterGranted.setActive hactive ?_ qp.sendWindow
      rfl
    | exhausted => exact (stopped_failed _).granted.toRequesterGranted

theorem ResponseEffect.requesterGranted {now ticksPerSecond : ℕ}
    (h : ResponseEffect qp memory packet now ticksPerSecond copies qp')
    (hgranted : Granted memory qp) : RequesterGranted memory qp' := by
  have hrequester := hgranted.toRequesterGranted
  cases h with
  | ignored => exact hrequester
  | failed => exact (stopped_failed _).granted.toRequesterGranted
  | retry haeth hclass hretry => exact (hretry.granted hgranted).toRequesterGranted
  | delayed hactive =>
    refine hrequester.setActive hactive ?_ qp.sendWindow
    rfl
  | acked active hactive | read active hactive =>
    refine hrequester.setActive hactive ?_ _
    rfl
  | ackCompleted | readCompleted =>
    refine RequesterGranted.activeFinished ?_ _ _
    exact ⟨hrequester.sends, hrequester.active, hrequester.sized⟩

theorem ResponseEffect.granted {now ticksPerSecond : ℕ}
    (h : ResponseEffect qp memory packet now ticksPerSecond copies qp')
    (hgranted : Granted memory qp) : Granted memory qp' := by
  rcases h.frame with hstopped | hsame
  · exact hstopped.granted
  · exact ⟨h.requesterGranted hgranted, hgranted.toResponderGranted.frame hsame⟩

theorem ResponderGranted.readAdvanced (hgranted : ResponderGranted memory qp) :
    ResponderGranted memory qp.readAdvanced := by
  unfold QpTransport.readAdvanced
  split
  · exact hgranted
  · rename_i response hresponse
    obtain ⟨hcount, hleft, hreplay⟩ := hgranted.answering response hresponse
    split
    · exact ⟨hgranted.receives, hgranted.inbound, hgranted.writing,
        fun _ hread ↦ (nomatch hread), fun _ hread ↦ (nomatch hread)⟩
    · rename_i hmore
      refine ⟨hgranted.receives, hgranted.inbound, hgranted.writing, ?_, ?_⟩
      · rintro current ⟨⟩
        exact hgranted.reading response hresponse
      · rintro current ⟨⟩
        exact ⟨hcount, Nat.lt_of_le_of_ne hleft hmore, hreplay⟩

/-- **Every step leaves all work backed.** -/
theorem QpStep.granted {event : QpEvent} (h : QpStep memory qp event copies qp' reply)
    (htidy : Tidy qp) (hgranted : Granted memory qp) : Granted memory qp' := by
  have hrequester := hgranted.toRequesterGranted
  have hresponder := hgranted.toResponderGranted
  cases h with
  | start heffect =>
    cases heffect with
    | waits => exact hgranted
    | starts hactive hready hpop hreserve hpolicy =>
      have hitems := Ring.pop_eq_some.mp hpop
      refine ⟨⟨fun posted hmem ↦ ?_, ?_, fun posted hmem ↦ ?_⟩,
        hresponder.frame ⟨rfl, rfl, rfl, rfl, rfl, rfl, rfl, rfl, rfl⟩⟩
      · exact hgranted.sends posted (by rw [hitems]; exact List.mem_cons_of_mem _ hmem)
      · rintro active ⟨⟩
        exact hgranted.sends _ (by rw [hitems]; exact List.mem_cons_self)
      · exact hgranted.sized posted (by rw [hitems]; exact List.mem_cons_of_mem _ hmem)
  | sent =>
    unfold markRequestPacketSent
    split
    · exact hgranted
    · rename_i active hactive
      exact ⟨hrequester.setActive hactive (work_packetSent _ _ _) qp.sendWindow,
        hresponder.frame ⟨rfl, rfl, rfl, rfl, rfl, rfl, rfl, rfl, rfl⟩⟩
  | readSent =>
    refine ⟨?_, hresponder.readAdvanced⟩
    unfold readAdvanced
    split
    · exact hrequester
    · split <;> exact ⟨hrequester.sends, hrequester.active, hrequester.sized⟩
  | request hready heffect => exact heffect.granted htidy hgranted
  | response hready heffect => exact heffect.granted hgranted
  | timeout hretry => exact hretry.granted hgranted
  | rnrExpired hactive =>
    refine ⟨hrequester.setActive hactive ?_ qp.sendWindow,
      hresponder.frame ⟨rfl, rfl, rfl, rfl, rfl, rfl, rfl, rfl, rfl⟩⟩
    rfl
  | @transition destination hlegal =>
    cases destination with
    | error | reset =>
      exact ⟨⟨fun _ hmem ↦ (nomatch hmem), fun _ hactive ↦ (nomatch hactive),
          fun _ hmem ↦ (nomatch hmem)⟩,
        ⟨fun _ hmem ↦ (nomatch hmem), fun _ _ hinbound ↦ (nomatch hinbound),
          fun _ _ _ _ hinbound ↦ (nomatch hinbound), fun _ hread ↦ (nomatch hread),
          fun _ hread ↦ (nomatch hread)⟩⟩
    | init | rtr | rts | sqd | sqe =>
      exact ⟨⟨hrequester.sends, hrequester.active, hrequester.sized⟩,
        hresponder.setInbound rfl rfl rfl rfl rfl hresponder.inbound hresponder.writing⟩
  | reconfigure hidle hmachine =>
    refine ⟨⟨hgranted.sends, fun _ hactive ↦ (nomatch hactive), fun posted hmem ↦ ?_⟩,
      ⟨hgranted.receives, fun _ _ hinbound ↦ (nomatch hinbound),
        fun _ _ _ _ hinbound ↦ (nomatch hinbound), fun _ hread ↦ (nomatch hread),
        fun _ hread ↦ (nomatch hread)⟩⟩
    have hqueue : posted ∈ qp.sendQueue.items := hmem
    rw [hidle.sends] at hqueue
    cases hqueue
  | postWork hstate hqueue hroom hvalid hlease =>
    refine ⟨⟨fun posted hmem ↦ ?_, hgranted.active, fun posted hmem ↦ ?_⟩,
      hresponder.frame ⟨rfl, rfl, rfl, rfl, rfl, rfl, rfl, rfl, rfl⟩⟩
    · rcases List.mem_append.mp (hqueue ▸ (hmem : posted ∈ Ring.items _)) with hold | hnew
      · exact hgranted.sends posted hold
      · exact backed_of_validate (validate_of_validatePostedWork (hvalid posted hnew))
          (hlease posted hnew)
    · rcases List.mem_append.mp (hqueue ▸ (hmem : posted ∈ Ring.items _)) with hold | hnew
      · exact hgranted.sized posted hold
      · exact packetCount_of_validatePostedWork (hvalid posted hnew)
  | postReceive hstate hqueue hroom hvalid hlease =>
    refine ⟨⟨hrequester.sends, hrequester.active, hrequester.sized⟩, ⟨fun posted hmem ↦ ?_,
      hgranted.inbound, hgranted.writing, hgranted.reading, fun response hread ↦ ?_⟩⟩
    · rcases List.mem_append.mp (hqueue ▸ (hmem : posted ∈ Ring.items _)) with hold | hnew
      · exact hgranted.receives posted hold
      · exact backed_of_validate (hvalid posted hnew) (hlease posted hnew)
    · obtain ⟨hcount, hleft, hreplay⟩ := hgranted.answering response hread
      exact ⟨hcount, hleft, hreplay⟩
  | poll hpoll =>
    obtain ⟨queue, -, rfl⟩ := pollQp_eq_some hpoll
    exact ⟨⟨hrequester.sends, hrequester.active, hrequester.sized⟩,
      hresponder.frame ⟨rfl, rfl, rfl, rfl, rfl, rfl, rfl, rfl, rfl⟩⟩

end Steps

end Rocev2.Rc
