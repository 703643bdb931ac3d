import Mathlib.Data.Rat.Floor
import Rocev2.Rc.AcceptedWork

/-!
# Representable ACK timeouts

The ACK timeout of a queue pair is computed from its five-bit code and from the frequency of the
clock.  Both are checked when they are configured, the code against 31 and the frequency against
zero, but the timeout itself is computed when a packet is about to be sent, and has to fit 64 bits.
`RepresentableTimeout` is the condition under which it does.

A requester whose timeout does not fit is taken from its ready queue and not put back: the call ends
with an error, and the queue pair waits for an event that is not a progress call.
-/

namespace Rocev2.Rc

open Rocev2.Core Rocev2.Wire Rocev2.Memory Rocev2.Lib

variable {QPS MRS SQ RQ CQ IDX : ℕ} {ticksPerSecond : ℕ}

/-- The ACK timeout, rounded up to whole ticks, fits 64 bits. -/
def RepresentableTimeout (code ticksPerSecond : ℕ) : Prop :=
  4096 * 2 ^ code * ticksPerSecond ≤ (2 ^ 64 - 1) * 10 ^ 9

instance (code ticksPerSecond : ℕ) : Decidable (RepresentableTimeout code ticksPerSecond) :=
  inferInstanceAs (Decidable (_ ≤ _))

theorem ceil_div_nano (n : ℕ) : ⌈(n : ℚ) / 10 ^ 9⌉₊ = (n + 999999999) / 1000000000 := by
  refine eq_of_forall_ge_iff fun k ↦ ?_
  rw [Nat.ceil_le, div_le_iff₀ (by norm_num)]
  have hcast : (n : ℚ) ≤ k * 10 ^ 9 ↔ n ≤ k * 1000000000 := by
    rw [← Nat.cast_le (α := ℚ)]
    push_cast
    norm_num
  rw [hcast]
  omega

/-- **When a timeout is computed, and to what.** -/
theorem ackTimeoutTicks_eq {code : ℕ} (hcode : code ≤ 31) (hticks : 0 < ticksPerSecond) :
    ackTimeoutTicks code ticksPerSecond = if RepresentableTimeout code ticksPerSecond then
      some ⌈(4096 * 2 ^ code * ticksPerSecond : ℚ) / 10 ^ 9⌉₊ else none := by
  have hceil := ceil_div_nano (4096 * 2 ^ code * ticksPerSecond)
  push_cast at hceil
  rw [ackTimeoutTicks, if_neg (by omega), ticksOfNat, hceil]
  have hfits : (4096 * 2 ^ code * ticksPerSecond + 999999999) / 1000000000 < 2 ^ 64 ↔
      RepresentableTimeout code ticksPerSecond := by
    unfold RepresentableTimeout
    omega
  simp only [hfits]

theorem isSome_ackTimeoutTicks {code : ℕ} (hcode : code ≤ 31) (hticks : 0 < ticksPerSecond) :
    (ackTimeoutTicks code ticksPerSecond).isSome = true ↔
      RepresentableTimeout code ticksPerSecond := by
  rw [ackTimeoutTicks_eq hcode hticks]
  split
  · rename_i hfits
    exact iff_of_true rfl hfits
  · rename_i hfits
    exact iff_of_false nofun hfits

/-! ## Reachable endpoints -/

theorem StartEffect.machine_eq {qp qp' : QpTransport MRS SQ RQ CQ}
    (h : StartEffect qp ticksPerSecond qp') : qp'.machine = qp.machine := by
  cases h with
  | waits => rfl
  | starts => rfl

namespace RcEndpoint

variable {ep : RcEndpoint QPS MRS SQ RQ CQ IDX} {index : Fin QPS} {slot : RcQpSlot MRS SQ RQ CQ}

theorem Reachable.ticksPerSecond_pos (h : ep.Reachable) : 0 < ep.config.ticksPerSecond := by
  obtain ⟨ep₀, ⟨config, maxIpv4Packet, identity, bytes, hnew⟩, hholds⟩ := h.holds
  obtain ⟨rfl, hpos, -⟩ := eq_empty_of_new hnew
  rwa [hholds.config_eq]

theorem Reachable.isSome_ticks (h : ep.Reachable) (hslot : ep.qps index = some slot) :
    (ackTimeoutTicks slot.machine.config.timeout ep.config.ticksPerSecond).isSome = true ↔
      RepresentableTimeout slot.machine.config.timeout ep.config.ticksPerSecond :=
  isSome_ackTimeoutTicks ((h.here fun _ ↦ True).qpInv hslot).config.timeout_le
    h.ticksPerSecond_pos

theorem Reachable.timed (h : ep.Reachable)
    (hfits : ∀ i slot, ep.qps i = some slot →
      RepresentableTimeout slot.machine.config.timeout ep.config.ticksPerSecond) (i : Fin QPS) :
    ep.Timed i :=
  fun slot hslot ↦ (h.isSome_ticks hslot).mpr (hfits i slot hslot)

theorem transmitPacket_ne_ticks {io : PollIo} {packet : WirePacket} :
    (ep.transmitPacket io packet).2 ≠ .error (.api .invalidTicksPerSecond) := by
  unfold transmitPacket
  split
  · rename_i hencode
    intro heq
    cases heq
    exact encodeIpv4Packet_ne_ticks hencode rfl
  split
  · nofun
  dsimp only
  split
  · nofun
  · nofun

/-- **The oldest requester decides**: emission ends with the error of the clock exactly when the
timeout of the requester that waits longest does not fit. -/
theorem Reachable.emitRequester_ticks (h : ep.Reachable) {queue : ReadyQueue QPS}
    (hpop : ep.requesterReady.pop = some (index, queue)) (hslot : ep.qps index = some slot)
    (now : ℕ) (io : PollIo) :
    (ep.emitRequester now io).2 = .error (.api .invalidTicksPerSecond) ↔
      ¬RepresentableTimeout slot.machine.config.timeout ep.config.ticksPerSecond := by
  have hholds := h.here fun _ : EngineEvent QPS ↦ True
  have hint : Internal (fun _ : EngineEvent QPS ↦ True) now := fun _ _ ↦ trivial
  obtain ⟨slot', active, hslot', hactive, hphase, htaken⟩ :=
    hholds.takeRequester hint hpop (Set.notMem_empty _) List.not_mem_nil
  cases hslot.symm.trans hslot'
  have hlive : (ep.requesterTaken index queue slot).qps index =
      some (slot.requesting ep.config.ticksPerSecond) := Function.update_self ..
  obtain ⟨packet, hbuild⟩ := exists_buildRequestPacket
    (htaken.granted hlive).toRequesterGranted (htaken.spans hlive) hactive hphase
  have hmachine : (slot.requesting ep.config.ticksPerSecond).machine = slot.machine :=
    (startNextRequest_effect (hholds.qpInv hslot).config ep.config.ticksPerSecond).machine_eq
  rw [emitRequester, ReadyQueue.len_of_pop hpop,
    emitRequesterLoop_eq hpop hslot hactive hphase hbuild, hmachine, ← h.isSome_ticks hslot]
  cases ackTimeoutTicks slot.machine.config.timeout ep.config.ticksPerSecond with
  | none => exact iff_of_true rfl (by rintro ⟨⟩)
  | some timeoutTicks =>
    refine iff_of_false ?_ (not_not.mpr rfl)
    have hsend : ((ep.requesterTaken index queue slot).transmitPacket io packet).2 ≠
      .error (.api .invalidTicksPerSecond) := transmitPacket_ne_ticks
    dsimp only
    split
    · rename_i hfailed
      rw [hfailed] at hsend
      intro heq
      cases heq
      exact hsend rfl
    · rintro ⟨⟩

/-- **No progress call fails for the clock** when every timeout fits. -/
theorem Reachable.progress_ne_ticks (h : ep.Reachable)
    (hfits : ∀ i slot, ep.qps i = some slot →
      RepresentableTimeout slot.machine.config.timeout ep.config.ticksPerSecond)
    (now : ℕ) (io : PollIo) :
    (ep.progress now io).2 ≠ .error (.api .invalidTicksPerSecond) := by
  have hpunctual := RcEndpoint.punctual_of_timed (.progress now io) rfl (h.timed hfits)
  intro herror
  cases h.progress_excused herror with
  | sending hexcuse =>
    cases hexcuse with
    | late hlate => exact hlate hpunctual
    | short _ hother => exact hother rfl
  | short _ hother => exact hother rfl
  | violated _ _ hother => exact hother rfl

theorem Reachable.progressBatch_ne_ticks (h : ep.Reachable)
    (hfits : ∀ i slot, ep.qps i = some slot →
      RepresentableTimeout slot.machine.config.timeout ep.config.ticksPerSecond)
    (now budget : ℕ) (io : BatchIo) :
    (ep.progressBatch now budget io).2 ≠ .error (.api .invalidTicksPerSecond) := by
  have hpunctual := RcEndpoint.punctual_of_timed (.progressBatch now budget io) rfl (h.timed hfits)
  intro herror
  cases h.progressBatch_excused herror with
  | late hlate => exact hlate hpunctual
  | received _ _ hother => exact hother rfl
  | acquired _ _ hother => exact hother rfl
  | submitted _ hother => exact hother rfl

end RcEndpoint

/-- **When admitted timeouts are representable.**  For every admitted frequency and every admitted
code, the timeout is computed, as the ceiling, exactly when it fits 64 bits.  In every reachable
endpoint, the oldest requester is dropped with an error exactly when its timeout does not fit, and
no progress call ends with this error when the timeouts of all queue pairs fit. -/
theorem admitted_timeouts_representable {start : RcEndpoint QPS MRS SQ RQ CQ IDX}
    {config : RcEndpointConfig} {maxIpv4Packet identity : ℕ} {bytes : ℕ → UInt8}
    (hnew : RcEndpoint.new QPS MRS SQ RQ CQ IDX config maxIpv4Packet identity bytes = .ok start) :
    (∀ qp : QpConfig, qp.validate = .ok () →
      (ackTimeoutTicks qp.timeout config.ticksPerSecond =
          some ⌈(4096 * 2 ^ qp.timeout * config.ticksPerSecond : ℚ) / 10 ^ 9⌉₊ ↔
        RepresentableTimeout qp.timeout config.ticksPerSecond)) ∧
    ∀ ep, RcEndpoint.Run (fun _ ↦ True) start ep →
      (∀ index queue slot now io, ep.requesterReady.pop = some (index, queue) →
        ep.qps index = some slot →
        ((ep.emitRequester now io).2 = .error (.api .invalidTicksPerSecond) ↔
          ¬RepresentableTimeout slot.machine.config.timeout config.ticksPerSecond)) ∧
      ((∀ i slot, ep.qps i = some slot →
          RepresentableTimeout slot.machine.config.timeout config.ticksPerSecond) →
        (∀ now io, (ep.progress now io).2 ≠ .error (.api .invalidTicksPerSecond)) ∧
        ∀ now budget io,
          (ep.progressBatch now budget io).2 ≠ .error (.api .invalidTicksPerSecond)) := by
  obtain ⟨hempty, hpos, -⟩ := RcEndpoint.eq_empty_of_new hnew
  refine ⟨fun qp hvalid ↦ ?_, fun ep hrun ↦ ?_⟩
  · rw [ackTimeoutTicks_eq (QpConfig.validate_eq_ok.mp hvalid).timeout_le hpos]
    by_cases hfits : RepresentableTimeout qp.timeout config.ticksPerSecond
    · rw [if_pos hfits]
      exact iff_of_true rfl hfits
    · rw [if_neg hfits]
      exact iff_of_false nofun hfits
  have hinitial : start.Initial := ⟨config, maxIpv4Packet, identity, bytes, hnew⟩
  have hreachable : ep.Reachable := ⟨start, hinitial, hrun⟩
  have hsame : ep.config = start.config :=
    (hrun.holds (fun _ _ _ _ ↦ trivial) (hinitial.holds fun _ ↦ True)).config_eq
  have hstart : start.config = config := by rw [hempty]; rfl
  rw [← hstart, ← hsame]
  exact ⟨fun index queue slot now io hpop hslot ↦
      hreachable.emitRequester_ticks hpop hslot now io,
    fun hfits ↦ ⟨hreachable.progress_ne_ticks hfits, hreachable.progressBatch_ne_ticks hfits⟩⟩

namespace Sample

def fastClock : RcEndpointConfig := ⟨1500, 2 ^ 64 - 1, 0⟩

def fast : RcEndpoint 1 1 2 2 4 2 := .empty fastClock (.empty 0 0 fun _ ↦ 0)

theorem fast_new :
    RcEndpoint.new 1 1 2 2 4 2 fastClock 1500 0 (fun _ ↦ 0) = .ok fast := by
  simp [RcEndpoint.new, MemoryRegistry.new, minRoceIpv4Packet, fastClock, fast,
    show QpnTable.supportsEntries 2 1 = true by decide]

/-- The configuration of a queue pair with a timeout code. -/
def patient (timeout : ℕ) : QpConfig := ⟨2, 3, .zero, .zero, .mtu256, 1, 1, timeout⟩

def patientReady (timeout : ℕ) : List Op :=
  readyAs (patient timeout) ++ [.postWork handle ⟨1, .send, sge 600, true⟩]

end Sample

/-- **The longest timeout with the fastest clock.**  Both are admitted, the timeout is not computed,
and the progress call takes the requester from its ready queue, fails, and leaves it out. -/
theorem admitted_timeout_overflows :
    RcEndpoint.new 1 1 2 2 4 2 Sample.fastClock 1500 0 (fun _ ↦ 0) = .ok Sample.fast ∧
    (Sample.patient 31).validate = .ok () ∧
    ackTimeoutTicks 31 Sample.fastClock.ticksPerSecond = none ∧
    (Sample.fast.steps (Sample.patientReady 31)).requesterReady.slots = [0] ∧
    ((Sample.fast.steps (Sample.patientReady 31)).progress 0 ⟨1500, 1500, .empty, true⟩).2 =
      .error (.api .invalidTicksPerSecond) ∧
    (Sample.fast.steps
      (Sample.patientReady 31 ++ [Sample.polls 0 true])).requesterReady.slots = [] ∧
    ((Sample.fast.steps (Sample.patientReady 31 ++ [Sample.polls 0 true])).qps 0).any
      (fun slot ↦ slot.requesterIsRunnable) = true := by
  refine ⟨Sample.fast_new, by decide, by decide +kernel, ?_, ?_, ?_, ?_⟩
  all_goals decide +kernel

theorem admitted_timeouts_representable_fast :
    ((Sample.fast.steps (Sample.patientReady 14)).progress 0 ⟨1500, 1500, .empty, true⟩).2 ≠
      .error (.api .invalidTicksPerSecond) := by
  have hcodes : ∀ i, ((Sample.fast.steps (Sample.patientReady 14)).qps i).all
      (fun slot ↦ slot.machine.config.timeout == 14) = true := by
    decide +kernel
  have hfits : RepresentableTimeout 14 Sample.fastClock.ticksPerSecond := by decide +kernel
  refine (((admitted_timeouts_representable Sample.fast_new).2 _
    (RcEndpoint.run_steps _ _ fun _ _ ↦ trivial)).2 fun i slot hslot ↦ ?_).1 0 _
  have hi := hcodes i
  rw [hslot] at hi
  rwa [beq_iff_eq.mp (show (slot.machine.config.timeout == 14) = true from hi)]

end Rocev2.Rc
