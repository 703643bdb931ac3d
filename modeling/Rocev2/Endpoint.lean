import Rocev2.Rc.Endpoint

/-!
# The packet endpoint

`Endpoint` of `rocev2/src/endpoint.rs`: the table of queue pairs with their sequence numbers over a
packet backend, without posted work.  What is modelled are the queue-pair table, its number index
and the generations of the handles; the backend and the counters play no part in them.
-/

namespace Rocev2

open Rocev2.Core Rc

/-- A queue pair of the endpoint. -/
structure QpSlot where
  generation : ℕ
  machine : QpStateMachine
  sendWindow : SendWindow
  receivePsn : ReceivePsn
deriving DecidableEq, Repr

/-- Limits of the endpoint. -/
structure EndpointConfig where
  /-- Maximum complete IPv4 packet accepted or transmitted. -/
  maximumPacketSize : ℕ
deriving DecidableEq, Repr

/-- The packet endpoint. -/
structure Endpoint (QPS IDX : ℕ) where
  config : EndpointConfig
  qps : Fin QPS → Option QpSlot
  generations : Fin QPS → ℕ
  qpnIndex : QpnTable IDX

namespace Endpoint

variable {QPS IDX : ℕ}

/-- A checked endpoint over a backend that carries packets of at most `maxIpv4Packet` bytes. -/
def new (QPS IDX : ℕ) (config : EndpointConfig) (maxIpv4Packet : ℕ) :
    Except ApiError (Endpoint QPS IDX) :=
  if config.maximumPacketSize < minRoceIpv4Packet then
    .error (.bufferTooShort minRoceIpv4Packet config.maximumPacketSize)
  else if maxIpv4Packet < config.maximumPacketSize then
    .error (.unsupportedMaximumPacket config.maximumPacketSize maxIpv4Packet)
  else if QpnTable.supportsEntries IDX QPS = false then
    .error (.invalidQpnIndexCapacity QPS IDX)
  else .ok ⟨config, fun _ ↦ none, fun _ ↦ 0, .new⟩

def qpIndex (ep : Endpoint QPS IDX) (handle : QpHandle) : Option (Fin QPS × QpSlot) :=
  handle.find (fun slot ↦ slot.generation) ep.qps

def freeSlot (ep : Endpoint QPS IDX) : Option (Fin QPS) :=
  (List.finRange QPS).find? fun i ↦ (ep.qps i).isNone

/-- Create a validated queue pair in the reset state. -/
def createQp (ep : Endpoint QPS IDX) (config : QpConfig) :
    Endpoint QPS IDX × Except ApiError QpHandle :=
  if (ep.qpnIndex.get config.localQpn).isSome then
    (ep, .error (.duplicateLocalQpn config.localQpn))
  else
    match QpStateMachine.new config with
    | .error e => (ep, .error (.qpState e))
    | .ok machine =>
      match ep.freeSlot with
      | none => (ep, .error .qpTableFull)
      | some index =>
        match RcEndpoint.insertQpn ep.qpnIndex config.localQpn index.val with
        | .error e => (ep, .error e)
        | .ok table =>
          let generation := nextGeneration (ep.generations index)
          ({ ep with
              qpnIndex := table
              generations := Function.update ep.generations index generation
              qps := Function.update ep.qps index (some ⟨generation, machine,
                .new config.sendPsn, ⟨config.receivePsn⟩⟩) },
            .ok ⟨index.val, generation⟩)

/-- Remove a queue pair. -/
def removeQp (ep : Endpoint QPS IDX) (handle : QpHandle) :
    Endpoint QPS IDX × Except ApiError QpConfig :=
  match ep.qpIndex handle with
  | none => (ep, .error .invalidQpHandle)
  | some (index, slot) =>
    ({ ep with
        qps := Function.update ep.qps index none
        qpnIndex := (ep.qpnIndex.remove slot.machine.config.localQpn).1 },
      .ok slot.machine.config)

/-- The state of a queue pair. -/
def qpState (ep : Endpoint QPS IDX) (handle : QpHandle) : Except ApiError QpState :=
  match ep.qpIndex handle with
  | none => .error .invalidQpHandle
  | some (_, slot) => .ok slot.machine.state

/-- The configuration of a queue pair. -/
def qpConfig (ep : Endpoint QPS IDX) (handle : QpHandle) : Except ApiError QpConfig :=
  match ep.qpIndex handle with
  | none => .error .invalidQpHandle
  | some (_, slot) => .ok slot.machine.config

/-- Replace the queue pair in a slot. -/
def setSlot (ep : Endpoint QPS IDX) (index : Fin QPS) (slot : QpSlot) : Endpoint QPS IDX :=
  { ep with qps := Function.update ep.qps index (some slot) }

/-- Apply a state transition; entering the reset state resets the sequence numbers. -/
def transitionQp (ep : Endpoint QPS IDX) (handle : QpHandle) (destination : QpState) :
    Endpoint QPS IDX × Except ApiError Unit :=
  match ep.qpIndex handle with
  | none => (ep, .error .invalidQpHandle)
  | some (index, slot) =>
    match slot.machine.transition destination with
    | .error e => (ep, .error (.qpState e))
    | .ok machine =>
      let slot := { slot with machine := machine }
      if destination = .reset then
        (ep.setSlot index { slot with
          sendWindow := .new machine.config.sendPsn
          receivePsn := ⟨machine.config.receivePsn⟩ }, .ok ())
      else (ep.setSlot index slot, .ok ())

/-- Replace the configuration of a reset queue pair. -/
def reconfigureQp (ep : Endpoint QPS IDX) (handle : QpHandle) (config : QpConfig) :
    Endpoint QPS IDX × Except ApiError Unit :=
  match ep.qpIndex handle with
  | none => (ep, .error .invalidQpHandle)
  | some (index, slot) =>
    if (ep.qpnIndex.get config.localQpn).any (fun owner ↦ owner ≠ handle.slot) then
      (ep, .error (.duplicateLocalQpn config.localQpn))
    else
      match slot.machine.reconfigure config with
      | .error e => (ep, .error (.qpState e))
      | .ok machine =>
        match RcEndpoint.renumberQpn ep.qpnIndex slot.machine.config.localQpn config.localQpn
            index.val with
        | .error e => (ep, .error e)
        | .ok table =>
          ({ ep with qpnIndex := table }.setSlot index { slot with
            machine := machine
            sendWindow := .new config.sendPsn
            receivePsn := ⟨config.receivePsn⟩ }, .ok ())

/-- Reserve the next requester PSN. -/
def reserveSendPsn (ep : Endpoint QPS IDX) (handle : QpHandle) :
    Endpoint QPS IDX × Except ApiError (Option Psn) :=
  match ep.qpIndex handle with
  | none => (ep, .error .invalidQpHandle)
  | some (index, slot) =>
    if slot.machine.canSend then
      let (window, psn) := slot.sendWindow.reserveMany 1
      (ep.setSlot index { slot with sendWindow := window }, .ok psn)
    else (ep, .error (.qpNotReady slot.machine.state))

def acknowledgeSend (ep : Endpoint QPS IDX) (handle : QpHandle) (acknowledged : Psn) :
    Endpoint QPS IDX × Except ApiError AckAdvance :=
  match ep.qpIndex handle with
  | none => (ep, .error .invalidQpHandle)
  | some (index, slot) =>
    let (window, advance) := slot.sendWindow.acknowledge acknowledged
    (ep.setSlot index { slot with sendWindow := window }, .ok advance)

/-- Classify and consume a requester PSN. -/
def observeReceivePsn (ep : Endpoint QPS IDX) (handle : QpHandle) (received : Psn) :
    Endpoint QPS IDX × Except ApiError ReceiveDisposition :=
  match ep.qpIndex handle with
  | none => (ep, .error .invalidQpHandle)
  | some (index, slot) =>
    if slot.machine.canReceive then
      let (receivePsn, disposition) := slot.receivePsn.observe received
      (ep.setSlot index { slot with receivePsn := receivePsn }, .ok disposition)
    else (ep, .error (.qpNotReady slot.machine.state))

/-! ## Calls -/

/-- A call that may change the table. -/
inductive Call where
  | createQp (config : QpConfig)
  | removeQp (handle : QpHandle)
  | transitionQp (handle : QpHandle) (destination : QpState)
  | reconfigureQp (handle : QpHandle) (config : QpConfig)
  | reserveSendPsn (handle : QpHandle)
  | acknowledgeSend (handle : QpHandle) (acknowledged : Psn)
  | observeReceivePsn (handle : QpHandle) (received : Psn)
deriving DecidableEq, Repr

/-- What a call leaves behind, and whether it failed. -/
def call (ep : Endpoint QPS IDX) : Call → Endpoint QPS IDX × Except ApiError Unit
  | .createQp config => (ep.createQp config).map id fun result ↦ result.map fun _ ↦ ()
  | .removeQp handle => (ep.removeQp handle).map id fun result ↦ result.map fun _ ↦ ()
  | .transitionQp handle destination => ep.transitionQp handle destination
  | .reconfigureQp handle config => ep.reconfigureQp handle config
  | .reserveSendPsn handle => (ep.reserveSendPsn handle).map id fun result ↦ result.map fun _ ↦ ()
  | .acknowledgeSend handle acknowledged =>
    (ep.acknowledgeSend handle acknowledged).map id fun result ↦ result.map fun _ ↦ ()
  | .observeReceivePsn handle received =>
    (ep.observeReceivePsn handle received).map id fun result ↦ result.map fun _ ↦ ()

def calls (ep : Endpoint QPS IDX) : List Call → Endpoint QPS IDX
  | [] => ep
  | call :: script => calls (ep.call call).1 script

/-- The slot that a call gives to a new queue pair. -/
def created (ep : Endpoint QPS IDX) : Call → Option (Fin QPS)
  | .createQp config =>
    match (ep.createQp config).2 with
    | .ok handle => if h : handle.slot < QPS then some ⟨handle.slot, h⟩ else none
    | .error _ => none
  | .removeQp _ | .transitionQp _ _ | .reconfigureQp _ _ | .reserveSendPsn _
  | .acknowledgeSend _ _ | .observeReceivePsn _ _ => none

/-- The slots that a sequence of calls gives to new queue pairs, the last one first. -/
def creations (ep : Endpoint QPS IDX) : List Call → List (Fin QPS)
  | [] => []
  | call :: script => creations (ep.call call).1 script ++ (ep.created call).toList

end Endpoint

end Rocev2
