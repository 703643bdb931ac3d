import Rocev2.Core.Psn

/-!
# Receive classification and the cumulative-ACK window

`rocev2-core/src/ack.rs`: the expected-PSN tracker of the responder and the send window of the
requester.  The window is bounded to less than half of the serial space; the lemmas at the end say
what each operation does to a window whose ends are given as unbounded packet indices.
-/

namespace Rocev2.Core

/-- The maximum unambiguous number of outstanding packets. -/
def maxOutstandingPackets : ℕ := 2 ^ 24 / 2 - 1

/-- Result of processing a cumulative ACK. -/
inductive AckAdvance where
  /-- The ACK advanced the window by `packets` packets. -/
  | advanced (packets : ℕ) (nextUnacknowledged : Psn)
  /-- The ACK covers only packets that were already acknowledged. -/
  | duplicate
  /-- The ACK names a packet that has not been sent. -/
  | invalid
deriving DecidableEq, Repr

/-- Classification of an incoming request PSN. -/
inductive ReceiveDisposition where
  /-- Exactly the next packet. -/
  | expected
  /-- A packet before the next expected one. -/
  | duplicate
  /-- A packet ahead of the next expected one. -/
  | future
deriving DecidableEq, Repr

/-- The expected-PSN tracker of a responder. -/
@[ext]
structure ReceivePsn where
  /-- The PSN required for the next in-order packet. -/
  expected : Psn
deriving DecidableEq, Repr

namespace ReceivePsn

variable (receive : ReceivePsn)

def classify (received : Psn) : ReceiveDisposition :=
  match received.compare receive.expected with
  | .equal => .expected
  | .before => .duplicate
  | .after => .future

def observeSpan (received : Psn) (packets : ℕ) :
    ReceivePsn × ReceiveDisposition :=
  let disposition := receive.classify received
  if disposition = .expected ∧ packets ≠ 0 then
    (⟨receive.expected.wrappingAdd packets⟩, disposition)
  else (receive, disposition)

/-- Classify a PSN and advance by one packet. -/
def observe (received : Psn) : ReceivePsn × ReceiveDisposition :=
  receive.observeSpan received 1

theorem classify_eq_expected {receive : ReceivePsn} {received : Psn} :
    receive.classify received = .expected ↔ received = receive.expected := by
  rw [← Psn.compare_eq_equal, classify]
  cases received.compare receive.expected <;> simp

theorem classify_newTruncated {expected received : ℕ} (h₁ : received < expected + 2 ^ 23)
    (h₂ : expected ≤ received + 2 ^ 23) :
    (ReceivePsn.mk (.newTruncated expected)).classify (.newTruncated received) =
      if received < expected then .duplicate
      else if received = expected then .expected else .future := by
  rw [classify, Psn.compare_newTruncated h₁ h₂]
  rcases Nat.lt_trichotomy received expected with h | h | h
  · simp [h]
  · simp [h]
  · simp [Nat.not_lt_of_gt h, Nat.ne_of_gt h]

theorem observeSpan_expected {receive : ReceivePsn} {received : Psn} (packets : ℕ)
    (h : receive.classify received = .expected) :
    (receive.observeSpan received packets).1 = ⟨receive.expected.wrappingAdd packets⟩ := by
  by_cases hp : packets = 0
  · simp [observeSpan, hp]
  · simp [observeSpan, h, hp]

end ReceivePsn

/-- The cumulative-ACK window of transmitted request packets. -/
@[ext]
structure SendWindow where
  /-- The first PSN that has not been acknowledged. -/
  oldestUnacknowledged : Psn
  /-- The PSN that the next packet is assigned. -/
  nextToSend : Psn
deriving DecidableEq, Repr

namespace SendWindow

variable {window : SendWindow} {acknowledged count : ℕ} {first : Psn} {oldest next acked : ℕ}

/-- An empty window whose first packet uses `initialPsn`. -/
def new (initialPsn : Psn) : SendWindow := ⟨initialPsn, initialPsn⟩

/-- The number of packets currently outstanding. -/
def outstanding (window : SendWindow) : ℕ :=
  window.nextToSend.forwardDistanceFrom window.oldestUnacknowledged

/-- Reserve a contiguous PSN range; on failure the window is unchanged. -/
def reserveMany (window : SendWindow) (packets : ℕ) : SendWindow × Option Psn :=
  if packets = 0 ∨ maxOutstandingPackets < packets ∨
      maxOutstandingPackets - packets < window.outstanding then
    (window, none)
  else
    ({ window with nextToSend := window.nextToSend.wrappingAdd packets }, some window.nextToSend)

/-- Process a cumulative ACK naming the last packet received by the peer. -/
def acknowledge (window : SendWindow) (acknowledged : Psn) : SendWindow × AckAdvance :=
  if acknowledged.compare window.oldestUnacknowledged = .before then (window, .duplicate)
  else if acknowledged.compare window.nextToSend ≠ .before then (window, .invalid)
  else
    let packets := acknowledged.forwardDistanceFrom window.oldestUnacknowledged + 1
    ({ window with oldestUnacknowledged := acknowledged.next },
      .advanced packets acknowledged.next)

theorem acknowledge_eq_self {window' : SendWindow} {psn : Psn} {advance : AckAdvance}
    (h : window.acknowledge psn = (window', advance))
    (hadvance : advance = .duplicate ∨ advance = .invalid) : window' = window := by
  unfold acknowledge at h
  split at h
  · cases h
    rfl
  split at h
  · cases h
    rfl
  · cases h
    rcases hadvance with hadvance | hadvance <;> cases hadvance

/-- The window between two packet indices. -/
def ofIndex (oldest next : ℕ) : SendWindow := ⟨.newTruncated oldest, .newTruncated next⟩

theorem acknowledge_ofIndex_lt (hlt : acknowledged < oldest)
    (hnear : oldest ≤ acknowledged + 2 ^ 23) :
    (ofIndex oldest next).acknowledge (.newTruncated acknowledged) =
      (ofIndex oldest next, .duplicate) := by
  simp [acknowledge, ofIndex, Psn.compare_newTruncated (by omega : acknowledged < oldest + 2 ^ 23)
    hnear, hlt]

theorem acknowledge_ofIndex_mem (hle : oldest ≤ acknowledged) (hlt : acknowledged < next)
    (hnear : next ≤ oldest + 2 ^ 23) :
    (ofIndex oldest next).acknowledge (.newTruncated acknowledged) =
      (ofIndex (acknowledged + 1) next,
        .advanced (acknowledged - oldest + 1) (.newTruncated (acknowledged + 1))) := by
  have h₁ := Psn.compare_newTruncated (a := acknowledged) (b := oldest) (by omega) (by omega)
  have h₂ := Psn.compare_newTruncated (a := acknowledged) (b := next) (by omega) (by omega)
  have h₃ := Psn.forwardDistanceFrom_newTruncated hle (by omega)
  rw [if_neg (by omega)] at h₁
  rw [if_pos hlt] at h₂
  have h₄ : (Psn.newTruncated acknowledged).compare (.newTruncated oldest) ≠ .before := by
    rw [h₁]
    split <;> simp
  simp [acknowledge, ofIndex, h₂, h₃, h₄]

theorem acknowledge_ofIndex_ge (hge : next ≤ acknowledged) (hle : oldest ≤ next)
    (hnear : acknowledged < oldest + 2 ^ 23) :
    (ofIndex oldest next).acknowledge (.newTruncated acknowledged) =
      (ofIndex oldest next, .invalid) := by
  have h₁ := Psn.compare_newTruncated (a := acknowledged) (b := oldest) hnear (by omega)
  have h₂ := Psn.compare_newTruncated (a := acknowledged) (b := next) (by omega) (by omega)
  rw [if_neg (by omega)] at h₁ h₂
  have h₃ : (Psn.newTruncated acknowledged).compare (.newTruncated oldest) ≠ .before := by
    rw [h₁]
    split <;> simp
  have h₄ : (Psn.newTruncated acknowledged).compare (.newTruncated next) ≠ .before := by
    rw [h₂]
    split <;> simp
  simp [acknowledge, ofIndex, h₃, h₄]

def ofPackets (first : Psn) (acked count : ℕ) : SendWindow :=
  ⟨first.wrappingAdd acked, first.wrappingAdd count⟩

theorem acknowledge_ofPackets_lt {k : ℕ} (hlt : k < acked) (hle : acked ≤ count)
    (hcount : count ≤ maxOutstandingPackets) :
    (ofPackets first acked count).acknowledge (first.wrappingAdd k) =
      (ofPackets first acked count, .duplicate) := by
  have hbound : maxOutstandingPackets < 2 ^ 23 := by decide
  exact acknowledge_ofIndex_lt (by omega) (by omega)

theorem acknowledge_ofPackets_mem {k : ℕ} (hle : acked ≤ k) (hlt : k < count)
    (hcount : count ≤ maxOutstandingPackets) :
    ∃ packets next, (ofPackets first acked count).acknowledge (first.wrappingAdd k) =
      (ofPackets first (k + 1) count, .advanced packets next) := by
  have hbound : maxOutstandingPackets < 2 ^ 23 := by decide
  exact ⟨_, _, acknowledge_ofIndex_mem (by omega) (by omega) (by omega)⟩

/-- An ACK that advances names an outstanding packet. -/
theorem exists_of_acknowledge_advanced {psn next : Psn} {packets : ℕ} (hle : acked ≤ count)
    (h : (ofPackets first acked count).acknowledge psn = (window, .advanced packets next)) :
    ∃ k, acked ≤ k ∧ k < count ∧ psn = first.wrappingAdd k ∧
      window = ofPackets first (k + 1) count := by
  obtain ⟨d, hd, rfl⟩ := psn.exists_eq_wrappingAdd (first.wrappingAdd acked)
  have holdest := Psn.compare_wrappingAdd (first.wrappingAdd acked) hd
  unfold acknowledge at h
  split at h
  · cases h
  rename_i hbefore
  split at h
  · cases h
  rename_i hnext
  have hnext := not_not.mp hnext
  -- the PSN is not before the window, so it lies less than half of the space ahead of it
  have hhalf : d < 2 ^ 23 := by
    by_contra hge
    refine hbefore (holdest.trans ?_)
    rw [if_neg (by omega), if_pos (by omega)]
  have hlt : acked + d < count := by
    by_contra hge
    -- otherwise it is at or after the end of the window
    obtain ⟨e, he⟩ := Nat.exists_eq_add_of_le (Nat.le_of_not_lt hge)
    have hpsn : (first.wrappingAdd acked).wrappingAdd d =
        (first.wrappingAdd count).wrappingAdd e := by
      rw [Psn.wrappingAdd_wrappingAdd, Psn.wrappingAdd_wrappingAdd, he]
    have hend := Psn.compare_wrappingAdd (first.wrappingAdd count) (d := e) (by omega)
    change ((first.wrappingAdd acked).wrappingAdd d).compare (first.wrappingAdd count) = _ at hnext
    rw [hpsn, hend] at hnext
    split at hnext
    · cases hnext
    · rw [if_neg (by omega)] at hnext
      cases hnext
  cases h
  refine ⟨acked + d, Nat.le_add_right _ _, hlt, Psn.wrappingAdd_wrappingAdd .., ?_⟩
  rw [ofPackets, Psn.next, Psn.wrappingAdd_wrappingAdd, Psn.wrappingAdd_wrappingAdd]
  rfl

theorem of_reserveMany {window' : SendWindow}
    (hempty : window.oldestUnacknowledged = window.nextToSend)
    (h : window.reserveMany count = (window', some first)) :
    window' = ofPackets first 0 count ∧ 0 < count ∧ count ≤ maxOutstandingPackets := by
  unfold reserveMany at h
  split at h
  · cases h
  · rename_i hroom
    cases h
    refine ⟨?_, by omega, by omega⟩
    rw [ofPackets, Psn.wrappingAdd_zero, ← hempty]

end SendWindow

end Rocev2.Core
