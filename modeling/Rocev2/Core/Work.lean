import Mathlib.Tactic.Common

/-!
# Work requests and completions

`rocev2-core/src/work.rs`: the descriptors an application posts and the entries it polls.
Addresses, lengths and keys keep the fixed widths of the source.
-/

namespace Rocev2.Core

/-- One local scatter/gather element. -/
structure Sge where
  /-- Application virtual address. -/
  address : UInt64
  /-- Byte length. -/
  length : UInt32
  /-- Local memory key. -/
  lkey : UInt32
deriving DecidableEq, Repr

/-- Operation posted to a send queue. -/
inductive WorkRequestKind where
  /-- Two-sided SEND. -/
  | send
  /-- One-sided RDMA WRITE. -/
  | rdmaWrite (remoteAddress : UInt64) (rkey : UInt32)
  /-- One-sided RDMA READ. -/
  | rdmaRead (remoteAddress : UInt64) (rkey : UInt32)
deriving DecidableEq, Repr

def WorkRequestKind.isRead : WorkRequestKind → Bool
  | .rdmaRead _ _ => true
  | .send | .rdmaWrite _ _ => false

/-- Send-queue work request. -/
structure WorkRequest where
  /-- Caller-defined identifier returned in the completion. -/
  id : UInt64
  /-- Operation and remote addressing mode. -/
  kind : WorkRequestKind
  /-- Local scatter/gather element. -/
  sge : Sge
  /-- Whether a successful completion is reported. -/
  signaled : Bool
deriving DecidableEq, Repr

/-- Receive-queue work request for a two-sided SEND. -/
structure RecvWorkRequest where
  /-- Caller-defined identifier returned in the receive completion. -/
  id : UInt64
  /-- Local destination scatter/gather element. -/
  sge : Sge
deriving DecidableEq, Repr

/-- Completion operation category. -/
inductive CompletionOpcode where
  | send
  | rdmaWrite
  | rdmaRead
  | receive
deriving DecidableEq, Repr

/-- Completion status. -/
inductive CompletionStatus where
  /-- Operation completed successfully. -/
  | success
  /-- Local SGE was too short for the operation. -/
  | localLengthError
  /-- Local key or access permission validation failed. -/
  | localProtectionError
  /-- Peer reported a remote access error. -/
  | remoteAccessError
  /-- Peer reported an invalid request. -/
  | remoteInvalidRequest
  /-- Transport retry budget was exhausted. -/
  | retryExceeded
  /-- Receiver-not-ready retry budget was exhausted. -/
  | rnrRetryExceeded
  /-- Packet or queue-pair state violated the transport protocol. -/
  | transportError
  /-- Work request was flushed because the queue pair entered error. -/
  | flushed
deriving DecidableEq, Repr

/-- Completion queue entry. -/
structure Completion where
  /-- Work-request identifier supplied by the caller. -/
  workRequestId : UInt64
  /-- Operation category. -/
  opcode : CompletionOpcode
  /-- Final status. -/
  status : CompletionStatus
  /-- Number of bytes transferred for successful work. -/
  byteLen : ℕ
deriving DecidableEq, Repr

namespace Completion

def success (workRequestId : UInt64) (opcode : CompletionOpcode) (byteLen : ℕ) : Completion :=
  ⟨workRequestId, opcode, .success, byteLen⟩

/-- A failed completion with a zero transferred-byte count. -/
def failure (workRequestId : UInt64) (opcode : CompletionOpcode) (status : CompletionStatus) :
    Completion :=
  ⟨workRequestId, opcode, status, 0⟩

end Completion

end Rocev2.Core
