import Mathlib.Algebra.Ring.Nat
import Mathlib.Tactic.Common

/-!
# Retry budgets and timers

`rocev2-core/src/retry.rs`: the two finite retry counters of a request, a deadline timer driven
by caller-provided ticks, and the conversions of the five-bit timer codes.  Tick counts are
natural numbers; the saturation of the 64-bit sums is written out.
-/

namespace Rocev2.Core

/-- Addition of 64-bit tick counts, saturating at the largest value. -/
def saturatingAdd (a b : ℕ) : ℕ := min (a + b) (2 ^ 64 - 1)

/-- Cause consuming a retry budget. -/
inductive RetryReason where
  /-- No valid ACK arrived before the local timeout. -/
  | timeout
  /-- The peer returned a receiver-not-ready NAK. -/
  | receiverNotReady
deriving DecidableEq, Repr

/-- Result of charging a retry budget. -/
inductive RetryDecision where
  /-- Retry after the supplied delay. -/
  | retry (delayTicks : ℕ)
  /-- The applicable finite budget has been exhausted. -/
  | exhausted (reason : RetryReason)
deriving DecidableEq, Repr

def unlimitedRetryCode : ℕ := 7

/-- The largest code of the three-bit retry fields. -/
def maxRetryCode : ℕ := 7

/-- Immutable retry policy negotiated for a queue pair. -/
@[ext]
structure RetryPolicy where
  /-- Number of timeout retries. -/
  retryCount : ℕ
  /-- Number of receiver-not-ready retries. -/
  rnrRetryCount : ℕ
  /-- Delay before retransmission after a timeout. -/
  timeoutTicks : ℕ
deriving DecidableEq, Repr

/-- A policy, when both three-bit retry fields are valid. -/
def RetryPolicy.new (retryCount rnrRetryCount timeoutTicks : ℕ) : Option RetryPolicy :=
  if retryCount ≤ maxRetryCode ∧ rnrRetryCount ≤ maxRetryCode then
    some ⟨retryCount, rnrRetryCount, timeoutTicks⟩
  else none

/-- Mutable remaining retry counts. -/
@[ext]
structure RetryBudget where
  /-- The policy the counts started from. -/
  policy : RetryPolicy
  /-- Remaining finite timeout retries. -/
  remainingTimeout : ℕ
  /-- Remaining finite receiver-not-ready retries. -/
  remainingRnr : ℕ
deriving DecidableEq, Repr

namespace RetryBudget

def new (policy : RetryPolicy) : RetryBudget := ⟨policy, policy.retryCount, policy.rnrRetryCount⟩

variable (budget : RetryBudget)

/-- Refill both counters after forward progress. -/
def reset : RetryBudget :=
  { budget with
    remainingTimeout := budget.policy.retryCount
    remainingRnr := budget.policy.rnrRetryCount }

/-- Charge one failure and decide whether the operation may be retried. -/
def onFailure (reason : RetryReason) (rnrDelayTicks : ℕ) :
    RetryBudget × RetryDecision :=
  match reason with
  | .timeout =>
    if budget.policy.retryCount = unlimitedRetryCode then
      (budget, .retry budget.policy.timeoutTicks)
    else if budget.remainingTimeout = 0 then (budget, .exhausted reason)
    else
      ({ budget with remainingTimeout := budget.remainingTimeout - 1 },
        .retry budget.policy.timeoutTicks)
  | .receiverNotReady =>
    if budget.policy.rnrRetryCount = unlimitedRetryCode then (budget, .retry rnrDelayTicks)
    else if budget.remainingRnr = 0 then (budget, .exhausted reason)
    else ({ budget with remainingRnr := budget.remainingRnr - 1 }, .retry rnrDelayTicks)

@[simp]
theorem onFailure_policy (reason : RetryReason) (ticks : ℕ) :
    (budget.onFailure reason ticks).1.policy = budget.policy := by
  cases reason <;> simp only [onFailure] <;> split <;> (try rfl) <;> split <;> rfl

section OnFailure

variable {budget budget' : RetryBudget} {ticks ticks' : ℕ} {cause : RetryReason}

theorem retry_of_timeout (h : budget.onFailure .timeout ticks = (budget', .retry ticks')) :
    (budget.policy.retryCount = unlimitedRetryCode ∧ budget' = budget) ∨
      (budget.policy.retryCount ≠ unlimitedRetryCode ∧ budget.remainingTimeout ≠ 0 ∧
        budget' = { budget with remainingTimeout := budget.remainingTimeout - 1 }) := by
  unfold onFailure at h
  dsimp only at h
  split at h
  · rename_i hunlimited
    cases h
    exact .inl ⟨hunlimited, rfl⟩
  split at h
  · cases h
  · rename_i hlimited hpos
    cases h
    exact .inr ⟨hlimited, hpos, rfl⟩

theorem exhausted_of_timeout (h : budget.onFailure .timeout ticks = (budget', .exhausted cause)) :
    budget.policy.retryCount ≠ unlimitedRetryCode ∧ budget.remainingTimeout = 0 := by
  unfold onFailure at h
  dsimp only at h
  split at h
  · cases h
  split at h
  · rename_i hlimited hzero
    exact ⟨hlimited, hzero⟩
  · cases h

theorem retry_of_receiverNotReady
    (h : budget.onFailure .receiverNotReady ticks = (budget', .retry ticks')) :
    ticks' = ticks ∧ ((budget.policy.rnrRetryCount = unlimitedRetryCode ∧ budget' = budget) ∨
      (budget.policy.rnrRetryCount ≠ unlimitedRetryCode ∧ budget.remainingRnr ≠ 0 ∧
        budget' = { budget with remainingRnr := budget.remainingRnr - 1 })) := by
  unfold onFailure at h
  dsimp only at h
  split at h
  · rename_i hunlimited
    cases h
    exact ⟨rfl, .inl ⟨hunlimited, rfl⟩⟩
  split at h
  · cases h
  · rename_i hlimited hpos
    cases h
    exact ⟨rfl, .inr ⟨hlimited, hpos, rfl⟩⟩

theorem exhausted_of_receiverNotReady
    (h : budget.onFailure .receiverNotReady ticks = (budget', .exhausted cause)) :
    budget.policy.rnrRetryCount ≠ unlimitedRetryCode ∧ budget.remainingRnr = 0 := by
  unfold onFailure at h
  dsimp only at h
  split at h
  · cases h
  split at h
  · rename_i hlimited hzero
    exact ⟨hlimited, hzero⟩
  · cases h

end OnFailure

end RetryBudget

/-- An absolute-deadline timer. -/
@[ext]
structure Timer where
  /-- The absolute deadline, if armed. -/
  deadline : Option ℕ
deriving DecidableEq, Repr

namespace Timer

def new : Timer := ⟨none⟩

def arm (now delayTicks : ℕ) : Timer := ⟨some (saturatingAdd now delayTicks)⟩

def expired (timer : Timer) (now : ℕ) : Bool :=
  match timer.deadline with
  | some deadline => deadline ≤ now
  | none => false

theorem exists_of_expired {timer : Timer} {now : ℕ} (h : timer.expired now = true) :
    ∃ deadline, timer.deadline = some deadline ∧ deadline ≤ now := by
  unfold expired at h
  split at h
  · rename_i deadline hdeadline
    exact ⟨deadline, hdeadline, of_decide_eq_true h⟩
  · cases h

end Timer

/-! ## Timer codes -/

/-- The tick count `ticks`, when it fits a 64-bit integer. -/
def ticksOfNat (ticks : ℕ) : Option ℕ := if ticks < 2 ^ 64 then some ticks else none

def ackTimeoutTicks (code ticksPerSecond : ℕ) : Option ℕ :=
  if 32 ≤ code ∨ ticksPerSecond = 0 then none
  -- the 128-bit intermediate products of the source cannot overflow for a code below 32
  else ticksOfNat ((4096 * 2 ^ code * ticksPerSecond + 999999999) / 1000000000)

/-- Microseconds for each five-bit RNR timer code. -/
def rnrTimerTable : List ℕ :=
  [655360, 10, 20, 30, 40, 60, 80, 120, 160, 240, 320, 480, 640, 960, 1280, 1920, 2560, 3840,
    5120, 7680, 10240, 15360, 20480, 30720, 40960, 61440, 81920, 122880, 163840, 245760, 327680,
    491520]

def rnrTimerMicroseconds (code : ℕ) : Option ℕ := rnrTimerTable[code]?

/-- Convert a five-bit AETH RNR timer code to ticks, rounding up. -/
def rnrTimerTicks (code ticksPerSecond : ℕ) : Option ℕ :=
  if ticksPerSecond = 0 then none
  else (rnrTimerMicroseconds code).bind fun microseconds ↦
    ticksOfNat ((microseconds * ticksPerSecond + 999999) / 1000000)

end Rocev2.Core
