import Mathlib.Algebra.Ring.Int.Defs

/-!
# An eBPF machine

The part of the eBPF instruction set that straight-line packet filters use, on a little-endian
host: moves, sums, byte swaps, loads, unsigned conditional jumps, map references, helper calls and
the exit.  Every other instruction is a fault, and so is a load that the environment refuses.

`Exits` says that a run ends with a value.  It is proved backwards from the exit, one instruction at
a time (`Exits.step`), and the value is unique (`Exits.unique`); a run that exits has not faulted.
-/

namespace Rocev2.Lib.Ebpf

/-! ## Instructions -/

/-- An instruction as it is encoded. -/
structure Insn where
  code : UInt8
  destination : ℕ
  source : ℕ
  offset : ℤ
  immediate : ℤ
deriving DecidableEq, Repr

/-- What a program finds around it. -/
structure Env where
  /-- A load of 1, 2 or 4 bytes. -/
  load : UInt64 → ℕ → Option UInt64
  /-- The address of the map behind a file descriptor. -/
  map : ℤ → UInt64
  /-- A helper function, called with the registers 1 to 5. -/
  call : ℤ → (ℕ → UInt64) → Option UInt64
  /-- What a call leaves in the registers 1 to 5. -/
  scratch : ℕ → UInt64

/-- The machine between two instructions. -/
structure State where
  pc : ℕ
  regs : ℕ → UInt64

/-- What an instruction does. -/
inductive Outcome where
  | next (s : State)
  | exit (value : UInt64)
  | fault

def swap16 (word : ℕ) : ℕ := word % 256 * 256 + word / 256 % 256

namespace State

def write (s : State) (register : ℕ) (value : UInt64) : State :=
  ⟨s.pc + 1, Function.update s.regs register value⟩

def jumpIf (s : State) (condition : Prop) [Decidable condition] (offset : ℤ) : State :=
  ⟨if condition then (s.pc + 1 + offset).toNat else s.pc + 1, s.regs⟩

end State

variable (env : Env)

def load (insn : Insn) (size : ℕ) (s : State) : Outcome :=
  match env.load (s.regs insn.source + UInt64.ofInt insn.offset) size with
  | some value => .next (s.write insn.destination value)
  | none => .fault

/-- A call of a helper function. -/
def call (insn : Insn) (s : State) : Outcome :=
  match env.call insn.immediate s.regs with
  | some value =>
    .next ⟨s.pc + 1, fun register ↦
      if register = 0 then value
      else if register ≤ 5 then env.scratch register
      else s.regs register⟩
  | none => .fault

/-- Execute one instruction. -/
def execute (insn : Insn) (s : State) : Outcome :=
  let destination := s.regs insn.destination
  let source := s.regs insn.source
  let immediate := UInt64.ofInt insn.immediate
  match insn.code with
  -- arithmetic
  | 0xbf => .next (s.write insn.destination source)
  | 0xb7 => .next (s.write insn.destination immediate)
  | 0x0f => .next (s.write insn.destination (destination + source))
  | 0x07 => .next (s.write insn.destination (destination + immediate))
  | 0xdc =>
    if insn.immediate = 16 then
      .next (s.write insn.destination (UInt64.ofNat (swap16 destination.toNat)))
    else .fault
  -- loads
  | 0x71 => load env insn 1 s
  | 0x69 => load env insn 2 s
  | 0x61 => load env insn 4 s
  -- jumps
  | 0x2d => .next (s.jumpIf (source < destination) insn.offset)
  | 0x55 => .next (s.jumpIf (destination ≠ immediate) insn.offset)
  | 0x5d => .next (s.jumpIf (destination ≠ source) insn.offset)
  | 0x45 => .next (s.jumpIf (destination &&& immediate ≠ 0) insn.offset)
  | 0xa5 => .next (s.jumpIf (destination < immediate) insn.offset)
  -- the reference to a map takes two slots
  | 0x18 =>
    if insn.source = 1 then
      .next ⟨s.pc + 2, Function.update s.regs insn.destination (env.map insn.immediate)⟩
    else .fault
  | 0x85 => call env insn s
  | 0x95 => .exit (s.regs 0)
  | _ => .fault

variable (code : List Insn)

def step (s : State) : Outcome :=
  match code[s.pc]? with
  | some insn => execute env insn s
  | none => .fault

def run : ℕ → State → Option UInt64
  | 0, _ => none
  | fuel + 1, s =>
    match step env code s with
    | .next s => run fuel s
    | .exit value => some value
    | .fault => none

theorem ofInt_natCast (n : ℕ) : UInt64.ofInt n = UInt64.ofNat n := by
  apply UInt64.toNat_inj.mp
  rw [UInt64.ofInt, UInt64.toNat_ofNat', UInt64.toNat_ofNat']
  omega

/-! ## Exits -/

/-- The program exits with a value, without a fault. -/
def Exits (s : State) (value : UInt64) : Prop := ∃ fuel, run env code fuel s = some value

namespace Exits

variable {env code} {s s' : State} {value value' : UInt64}

theorem step (hstep : step env code s = .next s') (h : Exits env code s' value) :
    Exits env code s value := by
  obtain ⟨fuel, hrun⟩ := h
  refine ⟨fuel + 1, ?_⟩
  rw [run, hstep]
  exact hrun

theorem exit (hstep : Ebpf.step env code s = .exit value) : Exits env code s value :=
  ⟨1, by rw [run, hstep]⟩

/-- **A program exits with one value only.** -/
theorem unique (h : Exits env code s value) (h' : Exits env code s value') : value = value' := by
  obtain ⟨fuel, hrun⟩ := h
  obtain ⟨fuel', hrun'⟩ := h'
  induction fuel generalizing s fuel' with
  | zero => cases hrun
  | succ fuel ih =>
    cases fuel' with
    | zero => cases hrun'
    | succ fuel' =>
      rw [run] at hrun hrun'
      cases hstep : Ebpf.step env code s with
      | next s' =>
        rw [hstep] at hrun hrun'
        exact ih hrun fuel' hrun'
      | exit value =>
        rw [hstep] at hrun hrun'
        exact Option.some.inj (hrun.symm.trans hrun')
      | fault =>
        rw [hstep] at hrun
        cases hrun

end Exits

/-! ## Loads -/

/-- The states that a run goes through. -/
inductive Reaches : State → State → Prop where
  | refl (s : State) : Reaches s s
  | step {s s' s'' : State} : step env code s = .next s' → Reaches s' s'' → Reaches s s''

/-- The program performs a load of `size` bytes in the run from a state. -/
def Loads (s : State) (address : UInt64) (size : ℕ) : Prop :=
  ∃ s' insn, Reaches env code s s' ∧ code[s'.pc]? = some insn ∧
    (insn.code, size) ∈ [(0x71, 1), (0x69, 2), ((0x61 : UInt8), 4)] ∧
    address = s'.regs insn.source + UInt64.ofInt insn.offset

variable {env code} {s s' : State} {value : UInt64}

theorem Exits.of_reaches (h : Exits env code s value) (hreach : Reaches env code s s') :
    Exits env code s' value := by
  induction hreach with
  | refl s => exact h
  | step hstep _ ih =>
    refine ih ?_
    obtain ⟨fuel, hrun⟩ := h
    cases fuel with
    | zero => cases hrun
    | succ fuel =>
      rw [run, hstep] at hrun
      exact ⟨fuel, hrun⟩

theorem Exits.ne_fault (h : Exits env code s value) : Ebpf.step env code s ≠ .fault := by
  intro hfault
  obtain ⟨fuel, hrun⟩ := h
  cases fuel with
  | zero => cases hrun
  | succ fuel =>
    rw [run, hfault] at hrun
    cases hrun

/-- **The environment serves every load of a program that exits.** -/
theorem Exits.load_ne_none (h : Exits env code s value) {address : UInt64} {size : ℕ}
    (hload : Loads env code s address size) : env.load address size ≠ none := by
  obtain ⟨s', insn, hreach, hfetch, hcode, rfl⟩ := hload
  intro hnone
  refine (h.of_reaches hreach).ne_fault ?_
  have hfault : load env insn size s' = .fault := by rw [load, hnone]
  simp only [List.mem_cons, Prod.mk.injEq, List.not_mem_nil, or_false] at hcode
  rw [Ebpf.step, hfetch]
  rcases hcode with ⟨hcode, rfl⟩ | ⟨hcode, rfl⟩ | ⟨hcode, rfl⟩
  all_goals
    dsimp only [execute]
    rw [hcode]
    exact hfault

end Rocev2.Lib.Ebpf
