import Mathlib.Data.List.Infix
import Rocev2.Rc.InboundMessage

/-!
# Reassembling inbound messages

Between two packets of a message the responder accepts no other request, so the packets of the
message being reassembled are the last requests that were accepted.  `Reassembles` says so of every
stream that a queue pair sees, and of each message at the moment it is completed
(`Stream.reassembles`).  `inbound_reassembled` reads off what a successful receive completion and a
completed WRITE stand for.
-/

namespace Rocev2.Rc

open Rocev2.Core Rocev2.Wire

variable {MRS SQ RQ CQ : ℕ}

/-! ## Whole streams -/

/-- The parts of a stream that end where a message of the given operation is completed. -/
def endings (operation : Operation) (stream : List (Happening MRS SQ RQ CQ)) :
    List (List (Happening MRS SQ RQ CQ)) :=
  stream.inits.filter fun early ↦ early.getLast?.any (Happening.finishes operation)

/-- A receive completion stands for one SEND: its packets are the last accepted requests, and they
were written into the receive request that is reported. -/
def Delivers (completion : Completion) (stream : List (Happening MRS SQ RQ CQ)) : Prop :=
  ∃ work psn packets, completion = .success work.id .receive (payloadBytes packets) ∧
    Gathered (.send work (payloadBytes packets)) stream psn packets ∧ Whole (positions packets)

/-- The last accepted requests are the packets of one WRITE, and they fill the range that its first
packet names. -/
def Fills (stream : List (Happening MRS SQ RQ CQ)) : Prop :=
  ∃ address rkey length psn packets,
    Gathered (.write address rkey length length.toNat) stream psn packets ∧
      Whole (positions packets)

/-- Messages have been reassembled along the stream, and `qp` is left behind. -/
structure Reassembles (stream : List (Happening MRS SQ RQ CQ)) (qp : QpTransport MRS SQ RQ CQ) :
    Prop where
  /-- Each successful receive completion, in order, stands for the SEND completed there. -/
  sends : List.Forall₂ Delivers qp.successes (endings .send stream)
  /-- Each WRITE that is completed fills its range. -/
  writes : ∀ early ∈ endings .write stream, Fills early
  /-- The message being reassembled continues at the expected PSN. -/
  pending : ∀ message, qp.inboundMessage = some message → ∃ psn packets,
    Gathered message stream psn packets ∧ Unfinished (positions packets) ∧
      qp.receivePsn.expected = psn.wrappingAdd packets.length
  /-- A WRITE being reassembled is not full. -/
  room : ∀ address rkey totalLength bytesWritten,
    qp.inboundMessage = some (.write address rkey totalLength bytesWritten) →
      bytesWritten < totalLength.toNat

section Streams

variable {config : RcQpConfig} {qp₀ qp : QpTransport MRS SQ RQ CQ}
  {stream : List (Happening MRS SQ RQ CQ)} {h : Happening MRS SQ RQ CQ}
  {message : InboundMessage} {packet : PacketRef} {operation : Operation}

theorem endings_snoc (operation : Operation) (stream : List (Happening MRS SQ RQ CQ))
    (h : Happening MRS SQ RQ CQ) :
    endings operation (stream ++ [h]) = endings operation stream ++
      if h.finishes operation = true then [stream ++ [h]] else [] := by
  simp [endings, List.inits_append, List.filter_cons]

theorem endings_of_false (hfinishes : h.finishes operation = false) :
    endings operation (stream ++ [h]) = endings operation stream := by
  rw [endings_snoc, hfinishes, if_neg Bool.false_ne_true, List.append_nil]

theorem endings_of_true (hfinishes : h.finishes operation = true) :
    endings operation (stream ++ [h]) = endings operation stream ++ [stream ++ [h]] := by
  rw [endings_snoc, hfinishes, if_pos rfl]

theorem Part.finishes (hpart : Part message packet h) (operation : Operation) :
    h.finishes operation = (decide (message.operation = operation) &&
      packet.bth.opcode.position.isFinal) := by
  unfold Happening.finishes
  rw [hpart.event]
  dsimp only
  rw [hpart.executed, hpart.operation, Bool.true_and]

theorem Part.gathered (hpart : Part message packet h) (hload : Loads message packet h)
    (hold : Reassembles stream h.before) :
    ∃ psn packets, Gathered (message.grown packet.payload.length) (stream ++ [h]) psn packets ∧
      h.after.receivePsn.expected = psn.wrappingAdd packets.length ∧
      if packet.bth.opcode.position.isFinal = true then Whole (positions packets)
      else Unfinished (positions packets) := by
  cases hload with
  | start hpos hopened hzero =>
    refine ⟨_, [packet], hpart.start hopened hzero, hpart.advanced, ?_⟩
    rcases hpos with hpos | hpos <;> simp only [positions, List.map_singleton, hpos]
    · exact ⟨0, rfl⟩
    · exact .only
  | resume hpos hsome =>
    obtain ⟨psn, packets, hgathered, ⟨middles, hpositions⟩, hpsn⟩ := hold.pending message hsome
    refine ⟨psn, packets ++ [packet], hpart.next hgathered hpsn, ?_, ?_⟩
    · rw [hpart.advanced, ← hpart.expected, hpsn, Psn.wrappingAdd_wrappingAdd, List.length_append]
      rfl
    · rw [positions_snoc, hpositions]
      rcases hpos with hpos | hpos <;> rw [hpos]
      · exact ⟨middles + 1, by rw [List.replicate_succ']; rfl⟩
      · exact .segmented middles

/-- A step that is no part of a message. -/
theorem Reassembles.skip (hold : Reassembles stream h.before)
    (hfinishes : ∀ operation, operation ≠ .readRequest → h.finishes operation = false)
    (hinbound : h.after.inboundMessage = none ∨ h.executed = false ∧
      h.after.inboundMessage = h.before.inboundMessage ∧ h.after.receivePsn = h.before.receivePsn)
    (hsuccesses : h.after.successes = h.before.successes) :
    Reassembles (stream ++ [h]) h.after where
  sends := by
    rw [endings_of_false (hfinishes .send nofun), hsuccesses]
    exact hold.sends
  writes := by
    rw [endings_of_false (hfinishes .write nofun)]
    exact hold.writes
  pending message hmessage := by
    rcases hinbound with hnone | ⟨hexecuted, hsame, hpsn⟩
    · cases hnone.symm.trans hmessage
    · rw [hpsn]
      obtain ⟨psn, packets, hgathered, hrest⟩ := hold.pending message (hsame.symm.trans hmessage)
      exact ⟨psn, packets, hgathered.skip hexecuted, hrest⟩
  room address rkey totalLength bytesWritten hmessage := by
    rcases hinbound with hnone | ⟨-, hsame, -⟩
    · cases hnone.symm.trans hmessage
    · exact hold.room address rkey totalLength bytesWritten (hsame.symm.trans hmessage)

/-- A packet is accepted, and more are to come. -/
theorem Reassembles.continued (hold : Reassembles stream h.before) (hpart : Part message packet h)
    (hload : Loads message packet h) (hfinal : packet.bth.opcode.position.isFinal = false) :
    Reassembles (stream ++ [h]) h.after := by
  obtain ⟨psn, packets, hgathered, hpsn, hpositions⟩ := hpart.gathered hload hold
  have hfinishes : ∀ operation, h.finishes operation = false := fun operation ↦ by
    rw [hpart.finishes, hfinal, Bool.and_false]
  have hafter := hpart.after
  have hsuccesses := hpart.successes
  rw [hfinal, if_neg Bool.false_ne_true] at hafter hsuccesses hpositions
  rw [List.append_nil] at hsuccesses
  refine ⟨?_, ?_, fun message' hmessage ↦ ?_, fun address rkey length written hmessage ↦ ?_⟩
  · rw [endings_of_false (hfinishes .send), hsuccesses]
    exact hold.sends
  · rw [endings_of_false (hfinishes .write)]
    exact hold.writes
  · cases hafter.symm.trans hmessage
    exact ⟨psn, packets, hgathered, hpositions, hpsn⟩
  · have hfits := hpart.fits
    have hfilled := hpart.filled
    cases message with
    | send => cases hafter.symm.trans hmessage
    | write =>
      cases hafter.symm.trans hmessage
      rw [hfinal] at hfilled
      exact Nat.lt_of_le_of_ne hfits fun hfull ↦ Bool.false_ne_true ((hfilled rfl).mpr hfull)

theorem Reassembles.finished (hold : Reassembles stream h.before) (hpart : Part message packet h)
    (hload : Loads message packet h) (hfinal : packet.bth.opcode.position.isFinal = true) :
    Reassembles (stream ++ [h]) h.after := by
  obtain ⟨psn, packets, hgathered, -, hwhole⟩ := hpart.gathered hload hold
  have hafter := hpart.after
  have hsuccesses := hpart.successes
  rw [hfinal, if_pos rfl] at hafter hsuccesses hwhole
  refine ⟨?_, ?_, fun message' hmessage ↦ ?_, fun _ _ _ _ hmessage ↦ ?_⟩
  · cases message with
    | send work written =>
      have hfinishes : h.finishes .send = true := by rw [hpart.finishes, hfinal]; rfl
      rw [endings_of_true hfinishes, hsuccesses]
      have hwritten : written + packet.payload.length = payloadBytes packets := hgathered.written
      refine List.rel_append hold.sends (.cons ⟨work, psn, packets, ?_, ?_, hwhole⟩ .nil)
      · rw [hwritten]
        rfl
      · rw [← hwritten]
        exact hgathered
    | write =>
      have hother : h.finishes .send = false := by rw [hpart.finishes]; rfl
      rw [endings_of_false hother, hsuccesses]
      exact (List.append_nil h.before.successes).symm ▸ hold.sends
  · cases message with
    | send =>
      have hother : h.finishes .write = false := by rw [hpart.finishes]; rfl
      rw [endings_of_false hother]
      exact hold.writes
    | write address rkey length written =>
      have hfinishes : h.finishes .write = true := by rw [hpart.finishes, hfinal]; rfl
      rw [endings_of_true hfinishes]
      have hfilled : written + packet.payload.length = length.toNat :=
        (hpart.filled rfl).mp hfinal
      intro early hmem
      rcases List.mem_append.mp hmem with hearlier | hhere
      · exact hold.writes early hearlier
      · cases List.mem_singleton.mp hhere
        refine ⟨address, rkey, length, psn, packets, ?_, hwhole⟩
        rw [← hfilled]
        exact hgathered
  · cases hafter.symm.trans hmessage
  · cases hafter.symm.trans hmessage

theorem Fresh.reassembles (hfresh : Fresh config qp₀) : Reassembles [] qp₀ where
  sends := by
    rw [QpTransport.successes, QpTransport.generated, hfresh.history, hfresh.completions]
    exact .nil
  writes _ hmem := nomatch hmem
  pending _ hmessage := nomatch hfresh.idle.inbound.symm.trans hmessage
  room _ _ _ _ hmessage := nomatch hfresh.idle.inbound.symm.trans hmessage

/-- **Messages are reassembled along every stream.** -/
theorem Stream.reassembles (hstream : Stream qp₀ stream qp) (hfresh : Fresh config qp₀) :
    Reassembles stream qp := by
  induction hstream with
  | nil => exact hfresh.reassembles
  | snoc hstream hstep ih =>
    cases hstep.inboundStep (hstream.invariants hfresh).1 with
    | other hfinishes hinbound hsuccesses => exact ih.skip hfinishes hinbound hsuccesses
    | @part message packet hpart hload =>
      cases hfinal : packet.bth.opcode.position.isFinal with
      | false => exact ih.continued hpart hload hfinal
      | true => exact ih.finished hpart hload hfinal

end Streams

/-- **Inbound message reassembly.**  In any stream that a queue pair sees:

* the successful receive completions stand, in order, for the SENDs that were completed: the packets
  of each were accepted at consecutive expected PSNs with no other request in between, they were
  written back to back into the receive request, and their lengths add up to the reported one;
* each completed WRITE consists of such packets, which tile the range that its first packet names;
* a WRITE that is being reassembled has room left. -/
theorem inbound_reassembled {config : RcQpConfig} {qp₀ qp : QpTransport MRS SQ RQ CQ}
    {stream : List (Happening MRS SQ RQ CQ)} (hfresh : Fresh config qp₀)
    (hstream : Stream qp₀ stream qp) :
    List.Forall₂ Delivers qp.successes (endings .send stream) ∧
      (∀ early ∈ endings .write stream, Fills early) ∧
      ∀ address rkey totalLength bytesWritten,
        qp.inboundMessage = some (.write address rkey totalLength bytesWritten) →
          bytesWritten < totalLength.toNat :=
  have hreassembles := hstream.reassembles hfresh
  ⟨hreassembles.sends, hreassembles.writes, hreassembles.room⟩

def segmentsReceived : List Op :=
  Sample.ready 1 1 ++
    [.postReceive Sample.handle ⟨1, Sample.sge 600⟩,
      Sample.receives 0 (Sample.packet .sendFirst 0 none none (List.replicate 256 1)),
      Sample.receives 0 (Sample.packet .sendMiddle 1 none none (List.replicate 256 2)),
      Sample.receives 0 (Sample.packet .sendLast 2 none none (List.replicate 4 3)),
      Sample.receives 0 (Sample.packet .rdmaWriteFirst 3 (some ⟨4096, 2, 300⟩) none
        (List.replicate 256 4))]

theorem inbound_reassembled_segments :
    ∃ (slot : RcQpSlot 1 2 2 4) (stream early : List (Happening 1 2 2 4)),
      (Sample.single.steps segmentsReceived).qps 0 = some slot ∧
      endings .send stream = [early] ∧ Delivers (.success 1 .receive 516) early := by
  have hlive : ((Sample.single.steps segmentsReceived).qps 0).map (fun slot ↦
      (slot.successes, slot.inboundMessage)) =
        some ([.success 1 .receive 516], some (.write 4096 2 300 256)) := by
    decide +kernel
  obtain ⟨slot, hslot, heq⟩ := Option.map_eq_some_iff.mp hlive
  obtain ⟨config, qp₀, stream, hfresh, hsaw⟩ :=
    (Sample.single_reachable segmentsReceived).saw hslot
  have hsends := (inbound_reassembled hfresh hsaw.life).1
  rw [(Prod.mk.inj heq).1] at hsends
  obtain ⟨early, rest, hdelivers, hrest, hendings⟩ := List.forall₂_cons_left_iff.mp hsends
  cases List.forall₂_nil_left_iff.mp hrest
  exact ⟨slot, stream, early, hslot, hendings, hdelivers⟩

end Rocev2.Rc
