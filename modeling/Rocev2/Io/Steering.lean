import Rocev2.Lib.Ebpf
import Rocev2.Io.Ethernet

/-!
# The steering program

`rocev2-io/src/xdp.rs`: the eBPF program that the socket backend attaches to an interface.  It reads
the headers of every frame that arrives, redirects the frames of the transport to the socket of
their queue and passes every other frame on to the kernel.

The program is the list of instructions that `steeringProgram` assembles, run by the machine of
`Lib.Ebpf` on a little-endian host.  The environment serves loads from the context and from the
frame, and refuses a load at or behind `data_end`, so that a run that exits has stayed in the frame.
A frame is followed backwards from the exits: each check either jumps to the exit that passes the
frame on, or goes on with the registers that all checks rely on (`Ready`).

## Main statements

* `exits_program`: the program redirects a frame if `Steers` holds of it, otherwise it passes it on.
* `Steers.of_decode`: `Steers` holds of every frame whose packet the decoder accepts.
-/

namespace Rocev2.Io

open Lib Lib.Bytes Lib.Ebpf Wire

/-! ## The program -/

/-- `u16::to_be` of a little-endian host, as an immediate. -/
def toBeImmediate (word : ℕ) : ℤ := swap16 word

/-- An encoded instruction. -/
def insn (code : UInt8) (destination source : ℕ) (offset immediate : ℤ) : Insn :=
  ⟨code, destination, source, offset, immediate⟩

def xdpPass : ℤ := 2

def redirectMap : ℤ := 51

/-- What the kernel calls a redirected frame. -/
def xdpRedirect : UInt64 := 4

/-- The program with `-1` for every jump to the exit that passes the frame on. -/
def unpatched (mapFd : ℤ) : List Insn :=
  [insn 0xbf 6 1 0 0, -- r6 = context
    insn 0x61 2 6 0 0, -- r2 = data
    insn 0x61 3 6 4 0, -- r3 = data_end
    insn 0xbf 4 2 0 0,
    insn 0x07 4 0 0 42,
    insn 0x2d 4 3 (-1) 0, -- incomplete Ethernet/IPv4/UDP header
    insn 0x69 4 2 12 0,
    insn 0x55 4 0 (-1) (toBeImmediate 0x0800),
    insn 0x71 4 2 14 0,
    insn 0x55 4 0 (-1) 0x45, -- IPv4 without options
    insn 0x71 4 2 23 0,
    insn 0x55 4 0 (-1) 17, -- UDP
    insn 0x69 4 2 20 0,
    insn 0x45 4 0 (-1) (toBeImmediate 0x3fff),
    insn 0x69 4 2 36 0,
    insn 0x55 4 0 (-1) (toBeImmediate 4791),
    insn 0x69 4 2 16 0,
    insn 0xdc 4 0 0 16, -- IP total length, network to host
    insn 0xa5 4 0 (-1) 44, -- UDP/BTH/ICRC minimum
    insn 0xbf 5 2 0 0,
    insn 0x0f 5 4 0 0,
    insn 0x07 5 0 0 14,
    insn 0x2d 5 3 (-1) 0,
    insn 0x69 5 2 38 0,
    insn 0xdc 5 0 0 16,
    insn 0x07 5 0 0 20,
    insn 0x5d 5 4 (-1) 0, -- UDP length must match IPv4
    insn 0x61 2 6 16 0, -- XSKMAP key = ingress queue
    insn 0x18 1 1 0 mapFd,
    insn 0 0 0 0 0,
    insn 0xb7 3 0 0 xdpPass,
    insn 0x85 0 0 0 redirectMap,
    insn 0x95 0 0 0 0,
    insn 0xb7 0 0 0 xdpPass,
    insn 0x95 0 0 0 0]

/-- Let a marked jump lead to the exit `pass`. -/
def patch (pass index : ℕ) (instruction : Insn) : Except String Insn :=
  if instruction.offset = -1 then
    if pass < index ∨ pass - index < 1 then .error "invalid XDP branch target"
    else
      let offset := pass - index - 1
      if 2 ^ 15 ≤ offset then .error "XDP branch target exceeds eBPF range"
      else .ok { instruction with offset := offset }
  else .ok instruction

def steeringProgram (mapFd : ℤ) : Except String (List Insn) :=
  let code := unpatched mapFd
  let pass := code.length - 2
  code.zipIdx.mapM fun (instruction, index) ↦ patch pass index instruction

def program (mapFd : ℤ) : List Insn := (steeringProgram mapFd).toOption.getD []

/-- **Every jump target is in range.** -/
theorem steeringProgram_eq (mapFd : ℤ) : steeringProgram mapFd = .ok (program mapFd) := rfl

/-! ## The environment -/

/-- A frame that has arrived on a queue, and where the driver has put it. -/
structure XdpContext where
  frame : List UInt8
  /-- The address of the frame. -/
  data : UInt64
  /-- The address of the context. -/
  address : UInt64
  rxQueueIndex : UInt32
  /-- Neither the frame nor the longest packet that a header can announce reaches the end of the
  address space. -/
  placed : data.toNat + max frame.length (14 + 65535) < 2 ^ 64

namespace XdpContext

variable (ctx : XdpContext)

def dataEnd : UInt64 := ctx.data + UInt64.ofNat ctx.frame.length

def contextLoad (address : UInt64) (size : ℕ) : Option UInt64 :=
  if size ≠ 4 then none
  else if address = ctx.address then some ctx.data
  else if address = ctx.address + 4 then some ctx.dataEnd
  else if address = ctx.address + 16 then some ctx.rxQueueIndex.toUInt64
  else none

def packetLoad (address : UInt64) (size : ℕ) : Option UInt64 :=
  if ctx.data.toNat ≤ address.toNat ∧ address.toNat + size ≤ ctx.data.toNat + ctx.frame.length then
    some (UInt64.ofNat (ofLe ((List.range size).map fun k ↦
      ctx.frame.getD (address.toNat - ctx.data.toNat + k) 0)))
  else none

end XdpContext

/-- The map of the queues, as the kernel sees it. -/
structure XskMap where
  /-- The descriptor of the map. -/
  fd : ℤ
  /-- The addresses of the maps behind the descriptors of the process. -/
  address : ℤ → UInt64
  /-- The queues that have a socket. -/
  registered : UInt32 → Bool

/-- `bpf_redirect_map`: redirect to the socket of a registered queue, otherwise take the action that
the flags name. -/
def XskMap.helper (xskMap : XskMap) (function : ℤ) (regs : ℕ → UInt64) : Option UInt64 :=
  if function = redirectMap ∧ regs 1 = xskMap.address xskMap.fd then
    some (if xskMap.registered (regs 2).toUInt32 then xdpRedirect else regs 3 &&& 3)
  else none

/-- The environment of the program. -/
def XdpContext.env (ctx : XdpContext) (xskMap : XskMap) (scratch : ℕ → UInt64) : Env where
  load := fun address size ↦ ctx.contextLoad address size <|> ctx.packetLoad address size
  map := xskMap.address
  call := xskMap.helper
  scratch := scratch

/-! ## What is redirected -/

/-- The frames of the transport. -/
structure Steers (frame : List UInt8) : Prop where
  header : 42 ≤ frame.length
  etherType : half frame 12 = 0x0800
  version : octet frame 14 = 0x45
  protocol : octet frame 23 = 17
  moreFragments : half frame 20 / 2 ^ 13 % 2 = 0
  fragmentOffset : half frame 20 % 2 ^ 13 = 0
  destinationPort : half frame 36 = 4791
  minimum : 44 ≤ half frame 16
  complete : half frame 16 ≤ frame.length - 14
  udpLength : half frame 38 = half frame 16 - 20

/-! ### Loads -/

section Loads

variable {frame : List UInt8} {word : ℕ}

theorem swap16_pair {a b : ℕ} (ha : a < 256) (hb : b < 256) :
    swap16 (256 * a + b) = 256 * b + a := by
  have hlow : (256 * a + b) % 256 = b := by omega
  have hhigh : (256 * a + b) / 256 = a := by omega
  rw [swap16, hlow, hhigh, Nat.mod_eq_of_lt ha, Nat.mul_comm]

theorem exists_pair (h : word < 2 ^ 16) :
    ∃ a b, a < 256 ∧ b < 256 ∧ word = 256 * a + b :=
  ⟨word / 256, word % 256, by omega, by omega, by omega⟩

theorem swap16_swap16 (h : word < 2 ^ 16) : swap16 (swap16 word) = word := by
  obtain ⟨a, b, ha, hb, rfl⟩ := exists_pair h
  rw [swap16_pair ha hb, swap16_pair hb ha]

theorem swap16_lt (word : ℕ) : swap16 word < 2 ^ 16 := by
  unfold swap16
  omega

theorem ofLe_half (frame : List UInt8) (i : ℕ) :
    ofLe [frame.getD i 0, frame.getD (i + 1) 0] = swap16 (half frame i) := by
  have h := octet_lt frame i
  have h' := octet_lt frame (i + 1)
  rw [ofLe_cons, ofLe_cons]
  change 256 * (256 * 0 + octet frame (i + 1)) + octet frame i = _
  unfold swap16 half
  omega

theorem ofLe_octet (frame : List UInt8) (i : ℕ) : ofLe [frame.getD i 0] = octet frame i := by
  rw [ofLe_cons]
  change 256 * 0 + octet frame i = _
  omega

theorem fragment_iff (h : word < 2 ^ 16) :
    swap16 word &&& swap16 0x3fff = 0 ↔ word / 2 ^ 13 % 2 = 0 ∧ word % 2 ^ 13 = 0 := by
  obtain ⟨a, b, ha, hb, rfl⟩ := exists_pair h
  have hmask : swap16 0x3fff = 0xff3f := rfl
  have hhigh : ((256 * b + a) &&& 0xff3f) / 2 ^ 8 = b := by
    rw [Nat.and_div_two_pow, show 0xff3f / 2 ^ 8 = 2 ^ 8 - 1 from rfl,
      Nat.and_two_pow_sub_one_eq_mod]
    omega
  have hlow : ((256 * b + a) &&& 0xff3f) % 2 ^ 8 = a % 2 ^ 6 := by
    rw [Nat.and_mod_two_pow, show 0xff3f % 2 ^ 8 = 2 ^ 6 - 1 from rfl,
      Nat.and_two_pow_sub_one_eq_mod]
    omega
  rw [swap16_pair ha hb, hmask]
  generalize (256 * b + a) &&& 0xff3f = masked at hhigh hlow
  omega

end Loads

/-! ### Runs -/

section Runs

variable {ctx : XdpContext} {xskMap : XskMap} {scratch : ℕ → UInt64} {regs : ℕ → UInt64}
  {value : UInt64} {pc i : ℕ} {register : ℕ} {offset : ℤ}

/-- The registers that every check relies on. -/
structure Ready (ctx : XdpContext) (regs : ℕ → UInt64) : Prop where
  data : regs 2 = ctx.data
  dataEnd : regs 3 = ctx.dataEnd
  context : regs 6 = ctx.address

theorem Ready.update (h : Ready ctx regs) (hregister : register = 4 ∨ register = 5)
    (value : UInt64) : Ready ctx (Function.update regs register value) := by
  rcases hregister with rfl | rfl <;> exact ⟨h.data, h.dataEnd, h.context⟩

theorem toNat_data_add (ctx : XdpContext) {n : ℕ}
    (h : n ≤ max ctx.frame.length (14 + 65535)) :
    (ctx.data + UInt64.ofNat n).toNat = ctx.data.toNat + n := by
  have hplaced := ctx.placed
  have hn : n < 2 ^ 64 := by omega
  rw [UInt64.toNat_add, UInt64.toNat_ofNat_of_lt' hn, Nat.mod_eq_of_lt (by omega)]

theorem toNat_dataEnd (ctx : XdpContext) :
    ctx.dataEnd.toNat = ctx.data.toNat + ctx.frame.length :=
  toNat_data_add ctx (Nat.le_max_left ..)

theorem load_eq (hdata : regs 2 = ctx.data) {size : ℕ} (hsize : size ≠ 4)
    (hlength : i + size ≤ ctx.frame.length) :
    (ctx.env xskMap scratch).load (regs 2 + UInt64.ofNat i) size =
      some (UInt64.ofNat (ofLe ((List.range size).map fun k ↦ ctx.frame.getD (i + k) 0))) := by
  have haddress := toNat_data_add ctx (n := i) (by omega)
  change (ctx.contextLoad _ size <|> ctx.packetLoad _ size) = _
  rw [hdata, XdpContext.contextLoad, if_pos hsize, XdpContext.packetLoad, haddress,
    if_pos ⟨by omega, by omega⟩, Nat.add_sub_cancel_left]
  rfl

theorem step_half (h : Ready ctx regs)
    (hfetch : (program xskMap.fd)[pc]? = some (insn 0x69 register 2 i 0))
    (hlength : i + 2 ≤ ctx.frame.length) :
    step (ctx.env xskMap scratch) (program xskMap.fd) ⟨pc, regs⟩ =
      .next ⟨pc + 1, Function.update regs register (UInt64.ofNat (swap16 (half ctx.frame i)))⟩ := by
  have hload : (ctx.env xskMap scratch).load (regs 2 + UInt64.ofInt (i : ℤ)) 2 =
      some (UInt64.ofNat (swap16 (half ctx.frame i))) := by
    rw [← ofLe_half, ofInt_natCast, load_eq h.data (by decide) hlength]
    rfl
  rw [step, hfetch]
  change load _ _ 2 _ = _
  rw [load]
  dsimp only [insn]
  rw [hload]
  rfl

theorem step_octet (h : Ready ctx regs)
    (hfetch : (program xskMap.fd)[pc]? = some (insn 0x71 register 2 i 0))
    (hlength : i + 1 ≤ ctx.frame.length) :
    step (ctx.env xskMap scratch) (program xskMap.fd) ⟨pc, regs⟩ =
      .next ⟨pc + 1, Function.update regs register (UInt64.ofNat (octet ctx.frame i))⟩ := by
  have hload : (ctx.env xskMap scratch).load (regs 2 + UInt64.ofInt (i : ℤ)) 1 =
      some (UInt64.ofNat (octet ctx.frame i)) := by
    rw [← ofLe_octet, ofInt_natCast, load_eq h.data (by decide) hlength]
    rfl
  rw [step, hfetch]
  change load _ _ 1 _ = _
  rw [load]
  dsimp only [insn]
  rw [hload]
  rfl

theorem exits_pass (regs : ℕ → UInt64) :
    Exits (ctx.env xskMap scratch) (program xskMap.fd) ⟨33, regs⟩ 2 :=
  .step rfl (.exit rfl)

theorem exits_jump (condition : Prop) [Decidable condition]
    (hstep : step (ctx.env xskMap scratch) (program xskMap.fd) ⟨pc, regs⟩ =
      .next (State.jumpIf ⟨pc, regs⟩ condition offset)) (htarget : (pc + 1 + offset).toNat = 33)
    (hpass : condition → value = 2) (hnext : ¬condition →
      Exits (ctx.env xskMap scratch) (program xskMap.fd) ⟨pc + 1, regs⟩ value) :
    Exits (ctx.env xskMap scratch) (program xskMap.fd) ⟨pc, regs⟩ value := by
  refine .step hstep ?_
  unfold State.jumpIf
  split_ifs with hcondition
  · rw [htarget, hpass hcondition]
    exact exits_pass regs
  · exact hnext hcondition

theorem toNat_word {n : ℕ} (h : n < 2 ^ 17) : (UInt64.ofNat n).toNat = n :=
  UInt64.toNat_ofNat_of_lt' (by omega : n < 2 ^ 64)

theorem ofNat_eq_iff {a b : ℕ} (ha : a < 2 ^ 17) (hb : b < 2 ^ 17) :
    UInt64.ofNat a = UInt64.ofNat b ↔ a = b := by
  rw [← UInt64.toNat_inj, toNat_word ha, toNat_word hb]

theorem step_compare {immediate : ℤ} (v : UInt64)
    (hfetch : (program xskMap.fd)[pc]? = some (insn 0x55 4 0 offset immediate)) :
    step (ctx.env xskMap scratch) (program xskMap.fd) ⟨pc, Function.update regs 4 v⟩ =
      .next (State.jumpIf ⟨pc, Function.update regs 4 v⟩ (v ≠ UInt64.ofInt immediate) offset) := by
  rw [step, hfetch]
  rfl

/-- **The check of a field** that is loaded into register 4 and compared with an immediate. -/
theorem exits_field (h : Ready ctx regs) {loaded : UInt64} {immediate : ℤ} {expected : Prop}
    (hload : step (ctx.env xskMap scratch) (program xskMap.fd) ⟨pc, regs⟩ =
      .next ⟨pc + 1, Function.update regs 4 loaded⟩)
    (hcompare : (program xskMap.fd)[pc + 1]? = some (insn 0x55 4 0 offset immediate))
    (htarget : (((pc + 1 : ℕ) : ℤ) + 1 + offset).toNat = 33)
    (hiff : loaded = UInt64.ofInt immediate ↔ expected) (hpass : ¬expected → value = 2)
    (hnext : expected → ∀ regs, Ready ctx regs →
      Exits (ctx.env xskMap scratch) (program xskMap.fd) ⟨pc + 2, regs⟩ value) :
    Exits (ctx.env xskMap scratch) (program xskMap.fd) ⟨pc, regs⟩ value := by
  refine .step hload ?_
  refine exits_jump _ (step_compare _ hcompare) htarget ?_ ?_
  · intro hne
    exact hpass (mt hiff.mpr hne)
  · intro heq
    exact hnext (hiff.mp (not_not.mp heq)) _ (h.update (.inl rfl) _)

/-- **The check of a field of two octets.** -/
theorem exits_half (h : Ready ctx regs) (word : ℕ) (hword : word < 2 ^ 16)
    (hload : (program xskMap.fd)[pc]? = some (insn 0x69 4 2 i 0))
    (hcompare : (program xskMap.fd)[pc + 1]? = some (insn 0x55 4 0 offset (toBeImmediate word)))
    (htarget : (((pc + 1 : ℕ) : ℤ) + 1 + offset).toNat = 33) (hlength : i + 2 ≤ ctx.frame.length)
    (hpass : half ctx.frame i ≠ word → value = 2)
    (hnext : half ctx.frame i = word → ∀ regs, Ready ctx regs →
      Exits (ctx.env xskMap scratch) (program xskMap.fd) ⟨pc + 2, regs⟩ value) :
    Exits (ctx.env xskMap scratch) (program xskMap.fd) ⟨pc, regs⟩ value := by
  have hiff : UInt64.ofNat (swap16 (half ctx.frame i)) = UInt64.ofInt (toBeImmediate word) ↔
      half ctx.frame i = word := by
    have h := swap16_lt (half ctx.frame i)
    have h' := swap16_lt word
    rw [toBeImmediate, ofInt_natCast, ofNat_eq_iff (by omega) (by omega)]
    constructor
    · intro heq
      rw [← swap16_swap16 (half_lt ctx.frame i), heq, swap16_swap16 hword]
    · rintro rfl
      rfl
  exact exits_field h (step_half h hload hlength) hcompare htarget hiff hpass hnext

/-- **The check of a field of one octet.** -/
theorem exits_octet (h : Ready ctx regs) (word : ℕ) (hword : word < 2 ^ 16)
    (hload : (program xskMap.fd)[pc]? = some (insn 0x71 4 2 i 0))
    (hcompare : (program xskMap.fd)[pc + 1]? = some (insn 0x55 4 0 offset word))
    (htarget : (((pc + 1 : ℕ) : ℤ) + 1 + offset).toNat = 33) (hlength : i + 1 ≤ ctx.frame.length)
    (hpass : octet ctx.frame i ≠ word → value = 2)
    (hnext : octet ctx.frame i = word → ∀ regs, Ready ctx regs →
      Exits (ctx.env xskMap scratch) (program xskMap.fd) ⟨pc + 2, regs⟩ value) :
    Exits (ctx.env xskMap scratch) (program xskMap.fd) ⟨pc, regs⟩ value := by
  have hoctet := octet_lt ctx.frame i
  have hiff : UInt64.ofNat (octet ctx.frame i) = UInt64.ofInt (word : ℤ) ↔
      octet ctx.frame i = word := by
    rw [ofInt_natCast, ofNat_eq_iff (by omega) (by omega)]
  exact exits_field h (step_octet h hload hlength) hcompare htarget hiff hpass hnext

theorem contextLoad_eq (ctx : XdpContext) :
    ctx.contextLoad ctx.address 4 = some ctx.data ∧
      ctx.contextLoad (ctx.address + 4) 4 = some ctx.dataEnd ∧
      ctx.contextLoad (ctx.address + 16) 4 = some ctx.rxQueueIndex.toUInt64 := by
  have hdataEnd : ctx.address + 4 ≠ ctx.address := by simp
  have hqueue : ctx.address + 16 ≠ ctx.address := by simp
  have hqueue' : ctx.address + 16 ≠ ctx.address + 4 := by simp
  unfold XdpContext.contextLoad
  refine ⟨?_, ?_, ?_⟩
  · rw [if_neg (by decide), if_pos rfl]
  · rw [if_neg (by decide), if_neg hdataEnd, if_pos rfl]
  · rw [if_neg (by decide), if_neg hqueue, if_neg hqueue', if_pos rfl]

theorem step_context (loaded : UInt64)
    (hfetch : (program xskMap.fd)[pc]? = some (insn 0x61 register 6 offset 0))
    (hload : ctx.contextLoad (regs 6 + UInt64.ofInt offset) 4 = some loaded) :
    step (ctx.env xskMap scratch) (program xskMap.fd) ⟨pc, regs⟩ =
      .next ⟨pc + 1, Function.update regs register loaded⟩ := by
  have hload' : (ctx.env xskMap scratch).load (regs 6 + UInt64.ofInt offset) 4 = some loaded := by
    change (ctx.contextLoad _ 4 <|> ctx.packetLoad _ 4) = _
    rw [hload]
    rfl
  rw [step, hfetch]
  change load _ _ 4 _ = _
  rw [load]
  dsimp only [insn]
  rw [hload']
  rfl

theorem exits_headers (hcontext : regs 1 = ctx.address)
    (hpass : ctx.frame.length < 42 → value = 2)
    (hnext : 42 ≤ ctx.frame.length → ∀ regs, Ready ctx regs →
      Exits (ctx.env xskMap scratch) (program xskMap.fd) ⟨6, regs⟩ value) :
    Exits (ctx.env xskMap scratch) (program xskMap.fd) ⟨0, regs⟩ value := by
  obtain ⟨hdata, hdataEnd, -⟩ := contextLoad_eq ctx
  have hend := toNat_dataEnd ctx
  have hheaders := toNat_data_add ctx (n := 42) (by omega)
  have hmove : step (ctx.env xskMap scratch) (program xskMap.fd) ⟨0, regs⟩ =
      .next ⟨1, Function.update regs 6 (regs 1)⟩ := rfl
  rw [hcontext] at hmove
  refine .step hmove ?_
  refine .step (step_context ctx.data rfl ?_) ?_
  · exact (congrArg (ctx.contextLoad · 4) (UInt64.add_zero ctx.address)).trans hdata
  refine .step (step_context ctx.dataEnd rfl hdataEnd) ?_
  refine .step rfl (.step rfl ?_)
  refine exits_jump (ctx.dataEnd < ctx.data + UInt64.ofNat 42) rfl rfl ?_ ?_
  · intro hlt
    rw [UInt64.lt_iff_toNat_lt] at hlt
    exact hpass (by omega)
  · intro hle
    rw [UInt64.lt_iff_toNat_lt] at hle
    exact hnext (by omega) _ ⟨rfl, rfl, rfl⟩

/-- **The check of the fragment bits.** -/
theorem exits_fragment (h : Ready ctx regs) (hheader : 42 ≤ ctx.frame.length)
    (hpass : ¬(half ctx.frame 20 / 2 ^ 13 % 2 = 0 ∧ half ctx.frame 20 % 2 ^ 13 = 0) → value = 2)
    (hnext : half ctx.frame 20 / 2 ^ 13 % 2 = 0 ∧ half ctx.frame 20 % 2 ^ 13 = 0 →
      ∀ regs, Ready ctx regs →
        Exits (ctx.env xskMap scratch) (program xskMap.fd) ⟨14, regs⟩ value) :
    Exits (ctx.env xskMap scratch) (program xskMap.fd) ⟨12, regs⟩ value := by
  have hiff : UInt64.ofNat (swap16 (half ctx.frame 20)) &&& UInt64.ofInt (toBeImmediate 0x3fff) =
      0 ↔ half ctx.frame 20 / 2 ^ 13 % 2 = 0 ∧ half ctx.frame 20 % 2 ^ 13 = 0 := by
    have hlt := swap16_lt (half ctx.frame 20)
    rw [← fragment_iff (half_lt ctx.frame 20), toBeImmediate, ofInt_natCast, ← UInt64.toNat_inj,
      UInt64.toNat_and, toNat_word (by omega)]
    rfl
  refine .step (step_half (i := 20) h rfl (by omega)) ?_
  refine exits_jump (UInt64.ofNat (swap16 (half ctx.frame 20)) &&&
    UInt64.ofInt (toBeImmediate 0x3fff) ≠ 0) rfl rfl ?_ ?_
  · intro hne
    exact hpass (mt hiff.mpr hne)
  · intro heq
    exact hnext (hiff.mp (not_not.mp heq)) _ (h.update (.inl rfl) _)

theorem exits_swapped (h : Ready ctx regs)
    (hload : (program xskMap.fd)[pc]? = some (insn 0x69 register 2 i 0))
    (hswap : (program xskMap.fd)[pc + 1]? = some (insn 0xdc register 0 0 16))
    (hlength : i + 2 ≤ ctx.frame.length) (hnext : Exits (ctx.env xskMap scratch) (program xskMap.fd)
      ⟨pc + 2, Function.update regs register (UInt64.ofNat (half ctx.frame i))⟩ value) :
    Exits (ctx.env xskMap scratch) (program xskMap.fd) ⟨pc, regs⟩ value := by
  have hlt := swap16_lt (half ctx.frame i)
  refine .step (step_half h hload hlength) (.step ?_ hnext)
  rw [step, hswap]
  change Outcome.next (State.write _ _ _) = _
  dsimp only [insn, State.write]
  rw [Function.update_idem, Function.update_self,
    toNat_word (by omega), swap16_swap16 (half_lt _ _)]

/-- **The checks of the two lengths.** -/
theorem exits_lengths (h : Ready ctx regs) (hheader : 42 ≤ ctx.frame.length)
    (hpass : ¬(44 ≤ half ctx.frame 16 ∧ half ctx.frame 16 ≤ ctx.frame.length - 14 ∧
      half ctx.frame 38 = half ctx.frame 16 - 20) → value = 2)
    (hnext : 44 ≤ half ctx.frame 16 ∧ half ctx.frame 16 ≤ ctx.frame.length - 14 ∧
      half ctx.frame 38 = half ctx.frame 16 - 20 → ∀ regs, Ready ctx regs →
        Exits (ctx.env xskMap scratch) (program xskMap.fd) ⟨27, regs⟩ value) :
    Exits (ctx.env xskMap scratch) (program xskMap.fd) ⟨16, regs⟩ value := by
  have htotal := half_lt ctx.frame 16
  have hudp := half_lt ctx.frame 38
  have hend := toNat_dataEnd ctx
  have hpacket := toNat_data_add ctx (n := half ctx.frame 16 + 14) (by omega)
  have hcurrent := toNat_word (n := half ctx.frame 16) (by omega)
  -- the total length, in the register 4
  refine exits_swapped (i := 16) h rfl rfl (by omega) ?_
  refine exits_jump (UInt64.ofNat (half ctx.frame 16) < 44) rfl rfl ?_ ?_
  · intro hlt
    rw [UInt64.lt_iff_toNat_lt, hcurrent] at hlt
    exact hpass fun hall ↦ absurd hall.1 (Nat.not_le_of_lt hlt)
  intro hnot
  have hminimum : 44 ≤ half ctx.frame 16 := by
    rw [UInt64.lt_iff_toNat_lt, hcurrent] at hnot
    exact Nat.le_of_not_lt hnot
  -- the end of the packet, in the register 5
  refine .step rfl (.step rfl (.step rfl ?_))
  refine exits_jump (regs 3 < regs 2 + UInt64.ofNat (half ctx.frame 16) + 14) rfl rfl
    ?_ ?_
  all_goals
    rw [h.data, h.dataEnd, UInt64.add_assoc, UInt64.lt_iff_toNat_lt,
      show UInt64.ofNat (half ctx.frame 16) + 14 = UInt64.ofNat (half ctx.frame 16 + 14) from
        (UInt64.ofNat_add ..).symm]
  · intro hlt
    exact hpass fun hall ↦ absurd hall.2.1 (by omega)
  intro hcomplete
  -- the length of the datagram and its header, in the register 5
  refine exits_swapped (i := 38) ⟨h.data, h.dataEnd, h.context⟩ rfl rfl (by omega) (.step rfl ?_)
  refine exits_jump (UInt64.ofNat (half ctx.frame 38) + 20 ≠
    UInt64.ofNat (half ctx.frame 16)) rfl rfl ?_ ?_
  all_goals
    rw [show UInt64.ofNat (half ctx.frame 38) + 20 = UInt64.ofNat (half ctx.frame 38 + 20) from
        (UInt64.ofNat_add ..).symm]
  · intro hne
    exact hpass fun hall ↦ hne (congrArg UInt64.ofNat (by omega))
  · intro heq
    have hlengths := (ofNat_eq_iff (by omega) (by omega)).mp (not_not.mp heq)
    exact hnext ⟨hminimum, by omega, by omega⟩ _ ⟨h.data, h.dataEnd, h.context⟩

theorem exits_call (hregistered : xskMap.registered ctx.rxQueueIndex = true)
    (hmap : regs 1 = xskMap.address xskMap.fd) (hkey : regs 2 = ctx.rxQueueIndex.toUInt64) :
    Exits (ctx.env xskMap scratch) (program xskMap.fd) ⟨31, regs⟩ xdpRedirect := by
  have hcall : (ctx.env xskMap scratch).call redirectMap regs = some xdpRedirect := by
    change xskMap.helper redirectMap regs = _
    rw [XskMap.helper, if_pos ⟨rfl, hmap⟩, hkey, UInt32.toUInt32_toUInt64, hregistered]
    rfl
  have hstep : step (ctx.env xskMap scratch) (program xskMap.fd) ⟨31, regs⟩ =
      call (ctx.env xskMap scratch) (insn 0x85 0 0 0 redirectMap) ⟨31, regs⟩ := rfl
  rw [call] at hstep
  dsimp only [insn] at hstep
  rw [hcall] at hstep
  exact .step hstep (.exit rfl)

theorem exits_redirect (h : Ready ctx regs)
    (hregistered : xskMap.registered ctx.rxQueueIndex = true) :
    Exits (ctx.env xskMap scratch) (program xskMap.fd) ⟨27, regs⟩ xdpRedirect := by
  obtain ⟨-, -, hqueue⟩ := contextLoad_eq ctx
  refine .step (step_context ctx.rxQueueIndex.toUInt64 rfl ?_) ?_
  · rw [h.context]
    exact hqueue
  exact .step rfl (.step rfl (exits_call hregistered rfl rfl))

/-- **The program redirects the frames of the transport and passes on every other one.** -/
theorem exits_program (hcontext : regs 1 = ctx.address)
    (hregistered : xskMap.registered ctx.rxQueueIndex = true)
    (hredirect : Steers ctx.frame → value = xdpRedirect) (hpass : ¬Steers ctx.frame → value = 2) :
    Exits (ctx.env xskMap scratch) (program xskMap.fd) ⟨0, regs⟩ value := by
  refine exits_headers hcontext (fun h ↦ hpass fun hs ↦ absurd hs.header (by omega)) ?_
  intro hheader regs h
  refine exits_half (i := 12) h 0x0800 (by decide) rfl rfl rfl (by omega)
    (fun h ↦ hpass fun hs ↦ h hs.etherType) ?_
  intro hetherType regs h
  refine exits_octet (i := 14) h 0x45 (by decide) rfl rfl rfl (by omega)
    (fun h ↦ hpass fun hs ↦ h hs.version) ?_
  intro hversion regs h
  refine exits_octet (i := 23) h 17 (by decide) rfl rfl rfl (by omega)
    (fun h ↦ hpass fun hs ↦ h hs.protocol) ?_
  intro hprotocol regs h
  refine exits_fragment h hheader
    (fun h ↦ hpass fun hs ↦ h ⟨hs.moreFragments, hs.fragmentOffset⟩) ?_
  rintro ⟨hmore, hoffset⟩ regs h
  refine exits_half (i := 36) h 4791 (by decide) rfl rfl rfl (by omega)
    (fun h ↦ hpass fun hs ↦ h hs.destinationPort) ?_
  intro hport regs h
  refine exits_lengths h hheader
    (fun h ↦ hpass fun hs ↦ h ⟨hs.minimum, hs.complete, hs.udpLength⟩) ?_
  rintro ⟨hminimum, hcomplete, hudp⟩ regs h
  rw [hredirect ⟨hheader, hetherType, hversion, hprotocol, hmore, hoffset, hport, hminimum,
    hcomplete, hudp⟩]
  exact exits_redirect h hregistered

end Runs

/-! ## Agreement with the decoder -/

/-- **A frame whose packet the decoder accepts is one of the transport.** -/
theorem Steers.of_decode {frame packet : List UInt8} {decoded : Codec.DecodedPacket}
    (hpayload : ipv4Payload frame = .ok packet)
    (hdecode : Codec.decodeIpv4Packet packet = .ok decoded) : Steers frame := by
  obtain ⟨hetherType, hcomplete, hpacket⟩ := ipv4Payload_eq_ok hpayload
  obtain ⟨ipv4Bytes, udpBytes, h, hbytes⟩ := Codec.decodeIpv4Packet_eq_ok.mp hdecode
  have hipv4Len : ipv4Bytes.length = 20 := h.ipv4Length
  have hudpLen : udpBytes.length = 8 := h.udpLength
  have hipv4 := Ipv4Fields.of_decode h.ipv4
  have hudp := UdpFields.of_decode h.udp
  have hlength : half frame 16 = 28 + decoded.transport.bytes.length := by
    have htake : packet.length = half frame 16 := by
      rw [hpacket, List.length_take, List.length_drop, Nat.min_eq_left hcomplete]
    rw [← htake, hbytes, List.length_append, List.length_append, hipv4Len, hudpLen]
  have htransport : 16 ≤ decoded.transport.bytes.length := by
    rw [Codec.PacketRef.bytes_eq, List.length_append, length_toLe]
    exact Nat.add_le_add_right decoded.transport.bthLen_le_body 4
  -- where the octets of the two headers stand in the frame
  have hoctet (i : ℕ) (hi : i < 28) : octet frame (14 + i) = octet packet i := by
    rw [hpacket, octet_take (by omega), octet_drop]
  have hheader (i : ℕ) (hi : i < 20) : octet frame (14 + i) = octet ipv4Bytes i := by
    rw [hoctet i (by omega), hbytes, List.append_assoc, octet_append_left (by omega)]
  have hdatagram (i : ℕ) (hi : i < 8) : octet frame (34 + i) = octet udpBytes i := by
    rw [show 34 + i = 14 + (20 + i) by omega, hoctet (20 + i) (by omega), hbytes,
      List.append_assoc, octet_append_right hipv4Len, octet_append_left (by omega)]
  have hfragment : half frame 20 = half ipv4Bytes 6 := by
    rw [half, half, ← hheader 6 (by decide), ← hheader 7 (by decide)]
  refine ⟨by omega, hetherType, ?_, ?_, ?_, ?_, ?_, by omega, hcomplete, ?_⟩
  · exact (hheader 0 (by decide)).trans hipv4.version
  · rw [hheader 9 (by decide), hipv4.protocol, h.protocol]
    rfl
  · rw [hfragment, hipv4.moreFragments h.moreFragments]
  · rw [hfragment, hipv4.fragmentOffset h.fragmentOffset]
  · rw [half, hdatagram 2 (by decide), hdatagram 3 (by decide)]
    exact hudp.destinationPort.trans (congrArg UInt16.toNat h.destinationPort)
  · rw [half, hdatagram 4 (by decide), hdatagram 5 (by decide), hlength]
    have hudpHeaderLen : Codec.udpHeaderLen = 8 := rfl
    change half udpBytes 4 = _
    rw [hudp.length, h.length]
    omega

/-- A load that is served reads a field of the context, or lies in the frame. -/
theorem inFrame_of_load {ctx : XdpContext} {xskMap : XskMap} {scratch : ℕ → UInt64}
    {address : UInt64} {size : ℕ} (h : (ctx.env xskMap scratch).load address size ≠ none) :
    address ∈ [ctx.address, ctx.address + 4, ctx.address + 16] ∧ size = 4 ∨
      ctx.data.toNat ≤ address.toNat ∧ address.toNat + size ≤ ctx.dataEnd.toNat := by
  change (ctx.contextLoad address size <|> ctx.packetLoad address size) ≠ none at h
  cases hload : ctx.contextLoad address size with
  | some value =>
    left
    unfold XdpContext.contextLoad at hload
    split_ifs at hload with hsize h₀ h₁ h₂
    all_goals simp_all
  | none =>
    right
    rw [hload] at h
    change ctx.packetLoad address size ≠ none at h
    unfold XdpContext.packetLoad at h
    split_ifs at h with hin
    · rw [toNat_dataEnd]
      exact hin
    · exact absurd rfl h

/-- **The steering program agrees with the transport.**  On a queue that has a socket, the program
redirects the frames of the transport and passes every other one on; apart from the fields of the
context it loads nothing at or behind `data_end`; and every frame whose packet the decoder accepts
is redirected. -/
theorem steering_agrees (ctx : XdpContext) (xskMap : XskMap) (scratch regs : ℕ → UInt64)
    (hcontext : regs 1 = ctx.address) (hregistered : xskMap.registered ctx.rxQueueIndex = true) :
    ∃ code, steeringProgram xskMap.fd = .ok code ∧
      (Exits (ctx.env xskMap scratch) code ⟨0, regs⟩ xdpRedirect ↔ Steers ctx.frame) ∧
      (¬Steers ctx.frame →
        Exits (ctx.env xskMap scratch) code ⟨0, regs⟩ (UInt64.ofInt xdpPass)) ∧
      (∀ address size, Loads (ctx.env xskMap scratch) code ⟨0, regs⟩ address size →
        address ∈ [ctx.address, ctx.address + 4, ctx.address + 16] ∧ size = 4 ∨
          ctx.data.toNat ≤ address.toNat ∧ address.toNat + size ≤ ctx.dataEnd.toNat) ∧
      ∀ packet decoded, ipv4Payload ctx.frame = .ok packet →
        Codec.decodeIpv4Packet packet = .ok decoded →
        Exits (ctx.env xskMap scratch) code ⟨0, regs⟩ xdpRedirect := by
  have hredirect (h : Steers ctx.frame) :
      Exits (ctx.env xskMap scratch) (program xskMap.fd) ⟨0, regs⟩ xdpRedirect :=
    exits_program hcontext hregistered (fun _ ↦ rfl) fun hnot ↦ absurd h hnot
  have hpass (h : ¬Steers ctx.frame) :
      Exits (ctx.env xskMap scratch) (program xskMap.fd) ⟨0, regs⟩ (UInt64.ofInt xdpPass) :=
    exits_program hcontext hregistered (fun hsteers ↦ absurd hsteers h) fun _ ↦ rfl
  refine ⟨program xskMap.fd, steeringProgram_eq _, ⟨?_, hredirect⟩, hpass, ?_, ?_⟩
  · intro hexits
    by_contra hnot
    exact absurd ((hpass hnot).unique hexits) (by decide)
  · intro address size hload
    by_cases h : Steers ctx.frame
    · exact inFrame_of_load ((hredirect h).load_ne_none hload)
    · exact inFrame_of_load ((hpass h).load_ne_none hload)
  · intro packet decoded hpayload hdecode
    exact hredirect (.of_decode hpayload hdecode)

theorem steering_agrees_smallest_packet :
    let frame : List UInt8 := List.replicate 12 2 ++ [0x08, 0, 0x45, 0, 0, 44, 0, 0, 0x40, 0, 64,
      17] ++ List.replicate 10 0 ++ [0xc0, 0, 0x12, 0xb7, 0, 24] ++ List.replicate 18 0
    let ctx : XdpContext := ⟨frame, 4096, 256, 3, by decide +kernel⟩
    let xskMap : XskMap := ⟨7, fun _ ↦ 512, fun queue ↦ queue = 3⟩
    ∃ code, steeringProgram xskMap.fd = .ok code ∧
      Exits (ctx.env xskMap fun _ ↦ 0) code ⟨0, fun _ ↦ 256⟩ xdpRedirect := by
  intro frame ctx xskMap
  obtain ⟨code, hcode, hsteers, -⟩ := steering_agrees ctx xskMap (fun _ ↦ 0) (fun _ ↦ 256) rfl rfl
  refine ⟨code, hcode, hsteers.mpr ?_⟩
  constructor <;> decide +kernel

end Rocev2.Io
