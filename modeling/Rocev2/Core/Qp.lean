import Rocev2.Core.Psn

/-!
# Queue-pair configuration and states

`rocev2-core/src/qp.rs`: the validated configuration of a Reliable Connected queue pair and its
state machine.  Every transition the machine accepts is listed by `isLegalTransition`.
-/

namespace Rocev2.Core

/-- Supported path MTUs. -/
inductive PathMtu where
  | mtu256
  | mtu512
  | mtu1024
  | mtu2048
  | mtu4096
deriving DecidableEq, Repr

def PathMtu.bytes : PathMtu → ℕ
  | .mtu256 => 256
  | .mtu512 => 512
  | .mtu1024 => 1024
  | .mtu2048 => 2048
  | .mtu4096 => 4096

def PathMtu.fromBytes (bytes : ℕ) : Option PathMtu :=
  match bytes with
  | 256 => some .mtu256
  | 512 => some .mtu512
  | 1024 => some .mtu1024
  | 2048 => some .mtu2048
  | 4096 => some .mtu4096
  | _ => none

theorem PathMtu.bytes_bounds (mtu : PathMtu) : 256 ≤ mtu.bytes ∧ mtu.bytes ≤ 4096 := by
  cases mtu <;> decide

/-- Reliable Connected queue-pair state. -/
inductive QpState where
  /-- Newly created or reset. -/
  | reset
  /-- Locally initialized. -/
  | init
  /-- Ready to receive. -/
  | rtr
  /-- Ready to send and receive. -/
  | rts
  /-- Send queue draining. -/
  | sqd
  /-- Send queue error. -/
  | sqe
  /-- Fatal queue-pair error. -/
  | error
deriving DecidableEq, Repr

/-- The smallest queue-pair number available to applications. -/
def minApplicationQpn : ℕ := 2

/-- The largest queue-pair number of the 24-bit wire field. -/
def maxQpn : ℕ := 2 ^ 24 - 1

/-- Configuration of the state machine. -/
structure QpConfig where
  /-- Local 24-bit queue-pair number. -/
  localQpn : ℕ
  /-- Remote 24-bit queue-pair number. -/
  remoteQpn : ℕ
  /-- Initial requester PSN. -/
  sendPsn : Psn
  /-- Initial responder PSN expected from the peer. -/
  receivePsn : Psn
  /-- Negotiated path MTU. -/
  pathMtu : PathMtu
  /-- Transport retry count; `7` means unlimited. -/
  retryCount : ℕ
  /-- Receiver-not-ready retry count; `7` means unlimited. -/
  rnrRetryCount : ℕ
  /-- Five-bit local ACK timeout code. -/
  timeout : ℕ
deriving DecidableEq, Repr

/-- Validation or transition failure. -/
inductive StateTransitionError where
  | invalidLocalQpn (qpn : ℕ)
  | invalidRemoteQpn (qpn : ℕ)
  | invalidRetryCount (count : ℕ)
  | invalidRnrRetryCount (count : ℕ)
  | invalidTimeout (code : ℕ)
  | illegalTransition (source target : QpState)
  | reconfigureWhileActive (state : QpState)
deriving DecidableEq, Repr

namespace QpConfig

/-- Validate field widths and reserved queue-pair numbers. -/
def validate (config : QpConfig) : Except StateTransitionError Unit :=
  if config.localQpn < minApplicationQpn ∨ maxQpn < config.localQpn then
    .error (.invalidLocalQpn config.localQpn)
  else if config.remoteQpn < minApplicationQpn ∨ maxQpn < config.remoteQpn then
    .error (.invalidRemoteQpn config.remoteQpn)
  else if 7 < config.retryCount then .error (.invalidRetryCount config.retryCount)
  else if 7 < config.rnrRetryCount then .error (.invalidRnrRetryCount config.rnrRetryCount)
  else if 31 < config.timeout then .error (.invalidTimeout config.timeout)
  else .ok ()

/-- The field widths that validation guarantees. -/
structure Valid (config : QpConfig) : Prop where
  local_ge : minApplicationQpn ≤ config.localQpn
  local_le : config.localQpn ≤ maxQpn
  remote_ge : minApplicationQpn ≤ config.remoteQpn
  remote_le : config.remoteQpn ≤ maxQpn
  retryCount_le : config.retryCount ≤ 7
  rnrRetryCount_le : config.rnrRetryCount ≤ 7
  timeout_le : config.timeout ≤ 31

theorem validate_eq_ok {config : QpConfig} : config.validate = .ok () ↔ config.Valid := by
  constructor
  · intro h
    simp only [validate] at h
    repeat' split at h
    all_goals first
      | exact ⟨by omega, by omega, by omega, by omega, by omega, by omega, by omega⟩
      | cases h
  · intro h
    have := h.local_ge
    have := h.local_le
    have := h.remote_ge
    have := h.remote_le
    have := h.retryCount_le
    have := h.rnrRetryCount_le
    have := h.timeout_le
    rw [validate, if_neg (by omega), if_neg (by omega), if_neg (by omega), if_neg (by omega),
      if_neg (by omega)]

end QpConfig

/-- Whether the machine accepts a move from `source` to `target`. -/
def isLegalTransition (source target : QpState) : Bool :=
  source = target ||
    match source, target with
    | .reset, .init | .reset, .error => true
    | .init, .reset | .init, .rtr | .init, .error => true
    | .rtr, .reset | .rtr, .rts | .rtr, .error => true
    | .sqd, .reset | .sqd, .rts | .sqd, .error => true
    | .sqe, .reset | .sqe, .rts | .sqe, .error => true
    | .rts, .reset | .rts, .sqd | .rts, .sqe | .rts, .error => true
    | .error, .reset => true
    | _, _ => false

@[simp]
theorem isLegalTransition_error (source : QpState) : isLegalTransition source .error = true := by
  cases source <;> rfl

/-- The queue-pair state machine. -/
structure QpStateMachine where
  state : QpState
  config : QpConfig
deriving DecidableEq, Repr

namespace QpStateMachine

def new (config : QpConfig) : Except StateTransitionError QpStateMachine :=
  match config.validate with
  | .ok () => .ok ⟨.reset, config⟩
  | .error e => .error e

variable (machine : QpStateMachine)

/-- Whether requester work may be emitted. -/
def canSend : Bool := machine.state = .rts

/-- Whether responder traffic may be accepted. -/
def canReceive : Bool :=
  match machine.state with
  | .rtr | .rts | .sqd | .sqe => true
  | .reset | .init | .error => false

/-- Replace the configuration of a reset queue pair. -/
def reconfigure (config : QpConfig) :
    Except StateTransitionError QpStateMachine :=
  if machine.state ≠ .reset then .error (.reconfigureWhileActive machine.state)
  else
    match config.validate with
    | .ok () => .ok { machine with config := config }
    | .error e => .error e

theorem reconfigure_eq_ok {machine machine' : QpStateMachine} {config : QpConfig}
    (h : machine.reconfigure config = .ok machine') :
    machine' = ⟨.reset, config⟩ ∧ config.Valid := by
  unfold reconfigure at h
  split at h
  · cases h
  · rename_i hstate
    split at h
    · rename_i hvalid
      cases h
      rw [Decidable.not_not.mp hstate]
      exact ⟨rfl, QpConfig.validate_eq_ok.mp hvalid⟩
    · cases h

/-- Move to another state after validating the transition. -/
def transition (destination : QpState) :
    Except StateTransitionError QpStateMachine :=
  if isLegalTransition machine.state destination then
    .ok { machine with state := destination }
  else .error (.illegalTransition machine.state destination)

@[simp]
theorem transition_error :
    machine.transition .error = .ok { machine with state := .error } := by
  simp [transition]

end QpStateMachine

end Rocev2.Core
