import Rocev2.Rc.BatchProgress
import Rocev2.Rc.TableRefinement

/-!
# Reachable endpoints

Runs of public operations.  `RcEndpoint.Run allowed ep ep'` says that `ep'` is reached from `ep`
by operations that are all allowed, whatever each of them returns and whatever the backend does
during the progress calls.  `Op.Causes` lists the engine events that an operation may cause, and
`Holds.step` puts the rules for the single operations together: **every operation keeps the
assertion `Holds`**.  An endpoint is reachable if it is reached from a new one.
-/

namespace Rocev2.Rc

open Rocev2.Core Rocev2.Wire Rocev2.Memory Rocev2.Lib

variable {QPS MRS SQ RQ CQ IDX : ℕ}

/-- The packets that the backend delivers during a call. -/
def Op.Delivers : Op → DecodedPacket → Prop
  | .progress _ io, decoded => ∃ length, io.receive = .datagram length (some decoded)
  | .progressBatch _ _ io, decoded => io.Delivers decoded
  | _, _ => False

def Op.time : Op → Option ℕ
  | .progress now _ | .progressBatch now _ _ => some now
  | _ => none

/-- The events of the engine that an operation may cause. -/
inductive Op.Causes : Op → EngineEvent QPS → Prop
  | register {buffer access generator} :
      Causes (.registerMemory buffer access generator) (.register buffer access generator)
  | deregister {handle} : Causes (.deregisterMemory handle) (.deregister handle)
  | write {kind key address input} :
      Causes (.writeMemory kind key address input) (.write kind key address input)
  | create {config} (index : Fin QPS) : Causes (.createQp config) (.create index config)
  | remove {handle} {index : Fin QPS} (hslot : index.val = handle.slot) :
      Causes (.removeQp handle) (.remove index)
  | reconfigure {handle config} {index : Fin QPS} (hslot : index.val = handle.slot) :
      Causes (.reconfigureQp handle config) (.qp index (.reconfigure config))
  | transition {handle destination} {index : Fin QPS} (hslot : index.val = handle.slot) :
      Causes (.transitionQp handle destination) (.qp index (.transition destination))
  | postWork {handle work} {index : Fin QPS} (hslot : index.val = handle.slot) :
      Causes (.postWork handle work) (.qp index (.postWork [work]))
  | postWorkBatch {handle works posted} {index : Fin QPS} (hslot : index.val = handle.slot)
      (hposted : posted = works ∨ posted = []) :
      Causes (.postWorkBatch handle works) (.qp index (.postWork posted))
  | postReceive {handle work} {index : Fin QPS} (hslot : index.val = handle.slot) :
      Causes (.postReceive handle work) (.qp index (.postReceive [work]))
  | postReceiveBatch {handle works posted} {index : Fin QPS} (hslot : index.val = handle.slot)
      (hposted : posted = works ∨ posted = []) :
      Causes (.postReceiveBatch handle works) (.qp index (.postReceive posted))
  | pollCompletion {handle} {index : Fin QPS} (hslot : index.val = handle.slot) :
      Causes (.pollCompletion handle) (.qp index .poll)
  | pollCompletions {handle count} {index : Fin QPS} (hslot : index.val = handle.slot) :
      Causes (.pollCompletions handle count) (.qp index .poll)
  | packet {op decoded now} (index : Fin QPS) (ticksPerSecond : ℕ)
      (hdelivers : Op.Delivers op decoded) (htime : Op.time op = some now) :
      Causes op (.qp index (packetEvent decoded.transport now ticksPerSecond))
  | internal {op now event} (htime : Op.time op = some now) (hevent : event.isInternal now) :
      Causes op event

/-- The turns so far. -/
def RcEndpoint.turns (ep : RcEndpoint QPS MRS SQ RQ CQ IDX) : List (Activity QPS MRS SQ RQ CQ) :=
  ep.activity.filter Activity.isTurn

/-- What the endpoint keeps track of between two calls. -/
def RcEndpoint.books (ep : RcEndpoint QPS MRS SQ RQ CQ IDX) : Books QPS MRS SQ RQ CQ :=
  .settled ep.turns ep.nextDataTxClass

/-- **The turns of one operation.**  Only the progress calls take turns. -/
def Op.Turned (allowed : EngineEvent QPS → Prop) (start : Engine QPS MRS SQ RQ CQ)
    (ep ep' : RcEndpoint QPS MRS SQ RQ CQ IDX) : Op → Prop
  | .progress _ io =>
    Turns allowed start ep.turns ep.nextDataTxClass io ep'.turns ep'.nextDataTxClass
  | .progressBatch now budget io => Punctual allowed start → ep.takesAll now budget io = true →
    Unreturned ep.turns → Unreturned ep'.turns
  | _ => ep'.turns = ep.turns ∧ ep'.nextDataTxClass = ep.nextDataTxClass

namespace Holds

variable {allowed : EngineEvent QPS → Prop} {start : Engine QPS MRS SQ RQ CQ}
  {turns : List (Activity QPS MRS SQ RQ CQ)} {next : DataTxClass}
  {ep ep' : RcEndpoint QPS MRS SQ RQ CQ IDX}

theorem books_eq (h : Holds allowed start (.settled turns next) ∅ ep) :
    turns = ep.turns ∧ next = ep.nextDataTxClass :=
  ⟨h.logged.turns.symm, h.logged.next.symm⟩

theorem toBooks (h : Holds allowed start (.settled turns next) ∅ ep) :
    Holds allowed start ep.books ∅ ep := by
  obtain ⟨rfl, rfl⟩ := h.books_eq
  exact h

theorem unturned (h : Holds allowed start ep.books ∅ ep') :
    Holds allowed start ep'.books ∅ ep' ∧
      ep'.turns = ep.turns ∧ ep'.nextDataTxClass = ep.nextDataTxClass :=
  ⟨h.toBooks, h.books_eq.1.symm, h.books_eq.2.symm⟩

/-- **Every public operation keeps the assertion.** -/
theorem step (h : Holds allowed start ep.books ∅ ep) {op : Op}
    (hallowed : ∀ event, op.Causes event → allowed event) :
    Holds allowed start (ep.step op).books ∅ (ep.step op) ∧
      op.Turned allowed start ep (ep.step op) := by
  cases op with
  | registerMemory buffer access generator =>
    exact (h.registerMemory (hallowed _ .register)).unturned
  | deregisterMemory handle => exact (h.deregisterMemory (hallowed _ .deregister)).unturned
  | writeMemory kind key address input => exact (h.writeMemory (hallowed _ .write)).unturned
  | createQp config => exact (h.createQp fun index ↦ hallowed _ (.create index)).unturned
  | removeQp handle => exact (h.removeQp fun index hslot ↦ hallowed _ (.remove hslot)).unturned
  | reconfigureQp handle config =>
    exact (h.reconfigureQp fun index hslot ↦ hallowed _ (.reconfigure hslot)).unturned
  | transitionQp handle destination =>
    exact (h.transitionQp fun index hslot ↦ hallowed _ (.transition hslot)).unturned
  | postWork handle work =>
    exact (h.postWork fun index hslot ↦ hallowed _ (.postWork hslot)).unturned
  | postWorkBatch handle works =>
    exact (h.postWorkBatch fun index posted hslot hposted ↦
      hallowed _ (.postWorkBatch hslot hposted)).unturned
  | postReceive handle work =>
    exact (h.postReceive fun index hslot ↦ hallowed _ (.postReceive hslot)).unturned
  | postReceiveBatch handle works =>
    exact (h.postReceiveBatch fun index posted hslot hposted ↦
      hallowed _ (.postReceiveBatch hslot hposted)).unturned
  | pollCompletion handle =>
    exact (h.pollCompletion fun index hslot ↦ hallowed _ (.pollCompletion hslot)).unturned
  | pollCompletions handle count =>
    exact (h.pollCompletions count fun index hslot ↦
      hallowed _ (.pollCompletions hslot)).unturned
  | progress now io =>
    have hint : Internal allowed now := fun event hevent ↦ hallowed _ (.internal rfl hevent)
    obtain ⟨turns', next', hholds, hturns⟩ :=
      (Holds.progress hint h fun length decoded hreceive index ticksPerSecond ↦
        hallowed _ (.packet index ticksPerSecond ⟨length, hreceive⟩ rfl)).holds
    obtain ⟨rfl, rfl⟩ := hholds.books_eq
    exact ⟨hholds, hturns⟩
  | progressBatch now budget io =>
    have hint : Internal allowed now := fun event hevent ↦ hallowed _ (.internal rfl hevent)
    obtain ⟨turns', next', hholds, hturns⟩ :=
      (Holds.progressBatch hint h (fun decoded hdelivers index ticksPerSecond ↦
        hallowed _ (.packet index ticksPerSecond hdelivers rfl)) budget).holds
    obtain ⟨rfl, rfl⟩ := hholds.books_eq
    exact ⟨hholds, fun hpunctual hall ↦ hturns ⟨hpunctual, hall⟩⟩

end Holds

/-! ## Runs of operations -/

namespace RcEndpoint

variable {ep : RcEndpoint QPS MRS SQ RQ CQ IDX} {slot : RcQpSlot MRS SQ RQ CQ}

/-- Runs of operations that are all allowed. -/
abbrev Run (allowed : Op → Prop) :
    RcEndpoint QPS MRS SQ RQ CQ IDX → RcEndpoint QPS MRS SQ RQ CQ IDX → Prop :=
  Lib.Run (fun ep op ep' ↦ ep.step op = ep') allowed

/-- Runs of operations that all meet a condition in the state in which they are called. -/
abbrev RunWhile (C : RcEndpoint QPS MRS SQ RQ CQ IDX → Op → Prop) :
    RcEndpoint QPS MRS SQ RQ CQ IDX → RcEndpoint QPS MRS SQ RQ CQ IDX → Prop :=
  Lib.Run (fun ep op ep' ↦ C ep op ∧ ep.step op = ep') fun _ ↦ True

def Initial (ep : RcEndpoint QPS MRS SQ RQ CQ IDX) : Prop :=
  ∃ config maxIpv4Packet identity bytes,
    RcEndpoint.new QPS MRS SQ RQ CQ IDX config maxIpv4Packet identity bytes = .ok ep

/-- An endpoint that public operations lead to. -/
def Reachable (ep : RcEndpoint QPS MRS SQ RQ CQ IDX) : Prop :=
  ∃ ep₀ : RcEndpoint QPS MRS SQ RQ CQ IDX, ep₀.Initial ∧ Run (fun _ ↦ True) ep₀ ep

/-- The endpoint that a sequence of operations leaves behind. -/
def steps (ep : RcEndpoint QPS MRS SQ RQ CQ IDX) (ops : List Op) :
    RcEndpoint QPS MRS SQ RQ CQ IDX :=
  ops.foldl step ep

theorem run_steps {allowed : Op → Prop} (ep : RcEndpoint QPS MRS SQ RQ CQ IDX) (ops : List Op)
    (hallowed : ∀ op ∈ ops, allowed op) : Run allowed ep (ep.steps ops) := by
  induction ops generalizing ep with
  | nil => exact .refl
  | cons op ops ih =>
    have hfirst : Run allowed ep (ep.step op) :=
      .single (hallowed op List.mem_cons_self) rfl
    exact hfirst.trans (ih _ fun op hop ↦ hallowed op (List.mem_cons_of_mem _ hop))

/-- All operations of a sequence meet a condition. -/
def Meets (C : RcEndpoint QPS MRS SQ RQ CQ IDX → Op → Prop) :
    RcEndpoint QPS MRS SQ RQ CQ IDX → List Op → Prop
  | _, [] => True
  | ep, op :: ops => C ep op ∧ Meets C (ep.step op) ops

instance Meets.decidable {C : RcEndpoint QPS MRS SQ RQ CQ IDX → Op → Prop}
    [∀ ep op, Decidable (C ep op)] (ep : RcEndpoint QPS MRS SQ RQ CQ IDX) :
    (ops : List Op) → Decidable (Meets C ep ops)
  | [] => isTrue trivial
  | op :: ops =>
    have := Meets.decidable (C := C) (ep.step op) ops
    inferInstanceAs (Decidable (C ep op ∧ Meets C (ep.step op) ops))

theorem Meets.runWhile {C : RcEndpoint QPS MRS SQ RQ CQ IDX → Op → Prop} {ops : List Op}
    (h : Meets C ep ops) :
    RunWhile C ep (ep.steps ops) := by
  induction ops generalizing ep with
  | nil => exact .refl
  | cons op ops ih => exact (Lib.Run.single trivial ⟨h.1, rfl⟩).trans (ih h.2)

theorem reachable_steps (h : ep.Initial) (ops : List Op) :
    (ep.steps ops).Reachable :=
  ⟨ep, h, run_steps ep ops fun _ _ ↦ trivial⟩

/-- A new endpoint has no queue pairs and no regions. -/
theorem eq_empty_of_new {config : RcEndpointConfig} {maxIpv4Packet identity : ℕ}
    {bytes : ℕ → UInt8}
    (hnew : RcEndpoint.new QPS MRS SQ RQ CQ IDX config maxIpv4Packet identity bytes = .ok ep) :
    ep = .empty config (.empty config.memoryKeySeed identity bytes) ∧ 0 < config.ticksPerSecond ∧
      QpnTable.supportsEntries IDX QPS = true := by
  unfold RcEndpoint.new at hnew
  split at hnew
  · cases hnew
  split at hnew
  · cases hnew
  split at hnew
  · cases hnew
  rename_i hticks
  split at hnew
  · cases hnew
  rename_i hsupports
  split at hnew
  · cases hnew
  rename_i memory hmemory
  cases hnew
  unfold MemoryRegistry.new at hmemory
  split at hmemory
  · cases hmemory
  · cases hmemory
    exact ⟨rfl, Nat.pos_of_ne_zero hticks, Bool.of_not_eq_false hsupports⟩

theorem Initial.eq_empty (h : ep.Initial) :
    (∃ config identity bytes, ep = .empty config (.empty config.memoryKeySeed identity bytes)) ∧
      QpnTable.supportsEntries IDX QPS = true := by
  obtain ⟨config, maxIpv4Packet, identity, bytes, hnew⟩ := h
  obtain ⟨hempty, -, hsupports⟩ := eq_empty_of_new hnew
  exact ⟨⟨config, identity, bytes, hempty⟩, hsupports⟩

theorem Initial.qps_eq_none (h : ep.Initial) (i : Fin QPS) :
    ep.engine.qps i = none := by
  obtain ⟨⟨config, identity, bytes, rfl⟩, -⟩ := h.eq_empty
  rfl

theorem slots_empty (config : RcEndpointConfig) (memory : MemoryRegistry MRS)
    (kind : DataTxClass) :
    ((RcEndpoint.empty config memory : RcEndpoint QPS MRS SQ RQ CQ IDX).ready kind).slots = [] := by
  cases kind <;> rfl

theorem Initial.holds (h : ep.Initial) (allowed : EngineEvent QPS → Prop) :
    Holds allowed ep.engine ep.books ∅ ep := by
  obtain ⟨⟨config, identity, bytes, rfl⟩, hsupports⟩ := h.eq_empty
  refine ⟨.refl, ⟨?_, keyed_empty _ _ _, ?_, ?_, ?_, ?_⟩, ?_,
    ⟨QpnTable.lists_new hsupports, ?_, ?_, ?_, ?_, ?_⟩, ⟨?_, ?_, rfl, rfl, rfl⟩⟩
  · intro lease
    have hnone : heldByAll (fun _ : Fin QPS ↦ (none : Option (QpTransport MRS SQ RQ CQ))) = 0 :=
      Finset.sum_const_zero
    change (heldByAll fun _ : Fin QPS ↦ (none : Option (QpTransport MRS SQ RQ CQ))).count lease = _
    rw [hnone, Multiset.count_zero]
    unfold MemoryRegistry.refs
    split <;> rfl
  · rintro index qp ⟨⟩
  · rintro index qp ⟨⟩
  · rintro index qp ⟨⟩
  · rintro arrival ⟨⟩
  · intro c i _
    cases c with
    | ready kind =>
      refine ⟨fun hmem ↦ ?_, fun _ slot hslot ↦ (nomatch (show none = some slot from hslot)),
        fun slot hslot ↦ (nomatch (show none = some slot from hslot))⟩
      rw [slots_empty] at hmem
      cases hmem
    | timer => rfl
  · rintro index slot ⟨⟩
  · rintro index entry ⟨⟩
  · rintro index slot ⟨⟩
  · rintro arrival ⟨⟩
  · rintro index slot ⟨⟩
  · rintro event ⟨⟩
  · intro kind
    rw [slots_empty]
    rfl

/-- **Every run keeps the assertion**, for the events that its operations may cause. -/
theorem Run.holds {allowedOp : Op → Prop} {allowed : EngineEvent QPS → Prop}
    {start : Engine QPS MRS SQ RQ CQ} {ep' : RcEndpoint QPS MRS SQ RQ CQ IDX}
    (hallowed : ∀ op, allowedOp op → ∀ event, op.Causes event → allowed event)
    (h : Run allowedOp ep ep') (hs : Holds allowed start ep.books ∅ ep) :
    Holds allowed start ep'.books ∅ ep' := by
  refine Lib.Run.invariant (I := fun ep : RcEndpoint QPS MRS SQ RQ CQ IDX ↦
    Holds allowed start ep.books ∅ ep) ?_ h hs
  rintro s t op hop rfl hholds
  exact (hholds.step (hallowed op hop)).1

/-- **Every reachable endpoint satisfies the assertion.** -/
theorem Reachable.holds (h : ep.Reachable) :
    ∃ ep₀ : RcEndpoint QPS MRS SQ RQ CQ IDX, ep₀.Initial ∧
      Holds (fun _ ↦ True) ep₀.engine ep.books ∅ ep := by
  obtain ⟨ep₀, hinitial, hrun⟩ := h
  exact ⟨ep₀, hinitial, hrun.holds (fun _ _ _ _ ↦ trivial) (hinitial.holds _)⟩

theorem Reachable.here (h : ep.Reachable) (allowed : EngineEvent QPS → Prop) :
    Holds allowed ep.engine ep.books ∅ ep := by
  obtain ⟨ep₀, -, hholds⟩ := h.holds
  exact ⟨.refl, hholds.inv, hholds.coherent, hholds.tabled, hholds.logged⟩

theorem Reachable.engine_run (h : ep.Reachable) (op : Op) :
    Engine.Run (fun event ↦ op.Causes event) ep.engine (ep.step op).engine :=
  ((h.here _).step fun _ hcauses ↦ hcauses).1.run

theorem Reachable.step (h : ep.Reachable) (op : Op) :
    (ep.step op).Reachable := by
  obtain ⟨ep₀, hinitial, hrun⟩ := h
  exact ⟨ep₀, hinitial, .tail hrun trivial rfl⟩

theorem Reachable.steps (h : ep.Reachable) (ops : List Op) :
    (ep.steps ops).Reachable := by
  induction ops generalizing ep with
  | nil => exact h
  | cons op ops ih => exact ih (h.step op)

theorem Reachable.inv (h : ep.Reachable) :
    ep.engine.Inv := by
  obtain ⟨_, -, hholds⟩ := h.holds
  exact hholds.inv

/-- **A stable property holds of every slot of a reachable endpoint.** -/
theorem Reachable.stable {C : Arrival MRS SQ RQ CQ → Prop}
    {P : Fin QPS → QpTransport MRS SQ RQ CQ → Prop} {i : Fin QPS}
    (hstable : Stable (fun _ ↦ True) C P) (h : ep.Reachable)
    (harrivals : ∀ arrival ∈ ep.arrivals, arrival.slot = i.val → C arrival)
    (hslot : ep.qps i = some slot) : P i slot.toQpTransport := by
  obtain ⟨ep₀, hinitial, hholds⟩ := h.holds
  refine hholds.run.stable hstable (fun _ _ _ ↦ trivial) (hinitial.holds fun _ ↦ True).inv
    (fun _ qp hqp ↦ ?_) harrivals _ (Holds.engine_qps hslot)
  rw [hinitial.qps_eq_none] at hqp
  cases hqp

theorem Reachable.windowed (h : ep.Reachable) {i : Fin QPS} (hslot : ep.qps i = some slot)
    {active : ActiveRequest} (hactive : slot.activeRequest = some active) :
    Windowed active slot.sendWindow slot.machine.config.pathMtu.bytes :=
  (h.inv.spans i _ (Holds.engine_qps hslot)).windowed hactive

end RcEndpoint

/-! ## A small endpoint

The runs that refute a property begin with an endpoint that has one region of 1024 bytes, whose
keys are one and two, and one queue pair with a path MTU of 256 bytes. -/

namespace Sample

def endpoint (QPS MRS SQ RQ CQ IDX : ℕ) : RcEndpoint QPS MRS SQ RQ CQ IDX :=
  .empty ⟨1500, 1000, 0⟩ (.empty 0 0 fun _ ↦ 0)

theorem endpoint_initial (hregions : MRS ≤ 4096)
    (hindex : QpnTable.supportsEntries IDX QPS = true) :
    (endpoint QPS MRS SQ RQ CQ IDX).Initial := by
  refine ⟨⟨1500, 1000, 0⟩, 1500, 0, fun _ ↦ 0, ?_⟩
  simp [RcEndpoint.new, MemoryRegistry.new, minRoceIpv4Packet, hindex, Nat.not_lt_of_ge hregions,
    endpoint]

/-- An endpoint for one queue pair. -/
def single : RcEndpoint 1 1 2 2 4 2 := endpoint 1 1 2 2 4 2

theorem single_reachable (ops : List Op) : (single.steps ops).Reachable :=
  RcEndpoint.reachable_steps (endpoint_initial (by decide) (by decide)) ops

/-- An endpoint for two queue pairs. -/
def pair : RcEndpoint 2 1 2 2 4 4 := endpoint 2 1 2 2 4 4

theorem pair_initial : pair.Initial := endpoint_initial (by decide) (by decide)

def path : Ipv4Path := ⟨.octets 10 0 0 1, .octets 10 0 0 2, 49152, 64, 0⟩

/-- The configuration of a queue pair. -/
def transport (localQpn retryCount rnrRetryCount : ℕ) : QpConfig :=
  ⟨localQpn, 3, .zero, .zero, .mtu256, retryCount, rnrRetryCount, 14⟩

/-- The handle of the first queue pair. -/
def handle : QpHandle := ⟨0, 1⟩

def second : QpHandle := ⟨1, 1⟩

def readyAs (config : QpConfig) : List Op :=
  [.registerMemory ⟨4096, List.replicate 1024 0⟩ ⟨true, true, true⟩
      (some fun calls ↦ .ok (UInt32.ofNat (calls + 1))),
    .createQp ⟨config, path, 1⟩, .transitionQp handle .init, .transitionQp handle .rtr,
    .transitionQp handle .rts]

def ready (retryCount rnrRetryCount : ℕ) : List Op :=
  readyAs (transport 2 retryCount rnrRetryCount)

/-- The local range of a work request. -/
def sge (length : UInt32) : Sge := ⟨4096, length, 1⟩

def packet (opcode : Opcode) (psn : ℕ) (reth : Option Reth) (aeth : Option Aeth)
    (payload : List UInt8) : WirePacket where
  path := { path with source := path.destination, destination := path.source }
  bth := Bth.new opcode 2 (.newTruncated psn)
  reth := reth
  aeth := aeth
  payload := payload

def decoded (packet : WirePacket) : Option DecodedPacket :=
  if h : packet.validHeaders = true then some (packet.decoded h) else none

/-- A progress call during which the backend delivers a packet and accepts what it is given. -/
def receives (now : ℕ) (packet : WirePacket) : Op :=
  .progress now ⟨1500, 1500, .datagram packet.encodedLength (decoded packet), true⟩

/-- A progress call during which no packet arrives. -/
def polls (now : ℕ) (transmitOk : Bool) : Op := .progress now ⟨1500, 1500, .empty, transmitOk⟩

/-- A queue pair in the middle of a SEND of three packets. -/
def sendStarted : List Op :=
  ready 1 1 ++ [.postWork handle ⟨1, .send, sge 600, true⟩, polls 0 true]

def readFirst : WirePacket :=
  packet .rdmaReadResponseFirst 0 none (some (.ack 1)) (List.replicate 256 0)

/-- A READ of two responses is sent, the first response arrives, and the ACK timer expires. -/
def retriedRead : List Op :=
  ready 1 1 ++
    [.postWork handle ⟨1, .rdmaRead 8192 7, sge 512, true⟩, polls 0 true, receives 100 readFirst,
      polls 200 true]

end Sample

end Rocev2.Rc
