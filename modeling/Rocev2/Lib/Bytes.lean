import Mathlib.Data.List.Induction
import Mathlib.Tactic.Ring

/-!
# Words as bytes and writes into buffers

Big- and little-endian representations of numbers by a fixed number of bytes, for every width at
once, and the two ways a writer fills a buffer of known length: bytes copied over a window, and a
nested writer that is given the window as its own buffer.

A sequence of writes at consecutive offsets leaves the concatenation of what was written, followed
by what the buffer held behind it (`fill`, `splice_fill`).
-/

namespace Rocev2.Lib.Bytes

variable {bytes : List UInt8} {n : ℕ}

/-! ## Endianness -/

/-- The number whose big-endian representation is `bytes`. -/
def ofBe (bytes : List UInt8) : ℕ := bytes.foldl (fun value byte ↦ value * 256 + byte.toNat) 0

/-- The big-endian representation of a number by `n` bytes; higher digits are dropped. -/
def toBe : ℕ → ℕ → List UInt8
  | 0, _ => []
  | n + 1, value => toBe n (value / 256) ++ [UInt8.ofNat value]

/-- The number whose little-endian representation is `bytes`. -/
def ofLe (bytes : List UInt8) : ℕ := ofBe bytes.reverse

/-- The little-endian representation of a number by `n` bytes. -/
def toLe (n value : ℕ) : List UInt8 := (toBe n value).reverse

@[simp]
theorem length_toBe (n value : ℕ) : (toBe n value).length = n := by
  induction n generalizing value with
  | zero => rfl
  | succ n ih => simp [toBe, ih]

@[simp]
theorem length_toLe (n value : ℕ) : (toLe n value).length = n := by
  simp [toLe]

theorem ofBe_concat (bytes : List UInt8) (byte : UInt8) :
    ofBe (bytes ++ [byte]) = ofBe bytes * 256 + byte.toNat := by
  simp [ofBe]

theorem ofBe_lt (bytes : List UInt8) : ofBe bytes < 256 ^ bytes.length := by
  induction bytes using List.reverseRecOn with
  | nil => simp [ofBe]
  | append_singleton bytes byte ih =>
    have hbyte := byte.toNat_lt
    rw [ofBe_concat, List.length_append, List.length_singleton, pow_succ]
    omega

/-- **Reading back a number that fits** returns it. -/
theorem ofBe_toBe {value : ℕ} (h : value < 256 ^ n) : ofBe (toBe n value) = value := by
  induction n generalizing value with
  | zero =>
    have hzero : value = 0 := by simpa using h
    simp [toBe, ofBe, hzero]
  | succ n ih =>
    have hdiv : value / 256 < 256 ^ n := by
      rw [pow_succ] at h
      exact Nat.div_lt_of_lt_mul (by rwa [mul_comm])
    rw [toBe, ofBe_concat, ih hdiv, UInt8.toNat_ofNat']
    omega

/-- **Representing what was read** returns the bytes. -/
theorem toBe_ofBe (bytes : List UInt8) : toBe bytes.length (ofBe bytes) = bytes := by
  induction bytes using List.reverseRecOn with
  | nil => rfl
  | append_singleton bytes byte ih =>
    have hbyte := byte.toNat_lt
    have hdiv : (ofBe bytes * 256 + byte.toNat) / 256 = ofBe bytes := by omega
    have hlow : UInt8.ofNat (ofBe bytes * 256 + byte.toNat) = byte := by
      apply UInt8.toNat_inj.mp
      rw [UInt8.toNat_ofNat']
      omega
    rw [List.length_append, List.length_singleton, ofBe_concat, toBe, hdiv, ih, hlow]

/-- The first byte is the highest digit. -/
theorem toBe_succ_add {low : ℕ} (high : ℕ) (h : low < 256 ^ n) :
    toBe (n + 1) (high * 256 ^ n + low) = UInt8.ofNat high :: toBe n low := by
  induction n generalizing low with
  | zero =>
    have hzero : low = 0 := by simpa using h
    simp [toBe, hzero]
  | succ n ih =>
    have hdiv : low / 256 < 256 ^ n := by
      rw [pow_succ] at h
      exact Nat.div_lt_of_lt_mul (by rwa [mul_comm])
    have hvalue : high * 256 ^ (n + 1) + low = 256 * (high * 256 ^ n) + low := by
      rw [pow_succ]
      ring
    have hhigh : (high * 256 ^ (n + 1) + low) / 256 = high * 256 ^ n + low / 256 := by omega
    have hlow : UInt8.ofNat (high * 256 ^ (n + 1) + low) = UInt8.ofNat low := by
      apply UInt8.toNat_inj.mp
      rw [UInt8.toNat_ofNat', UInt8.toNat_ofNat']
      omega
    rw [toBe, hhigh, ih hdiv, hlow]
    rfl

theorem ofLe_cons (byte : UInt8) (bytes : List UInt8) :
    ofLe (byte :: bytes) = 256 * ofLe bytes + byte.toNat := by
  rw [ofLe, List.reverse_cons, ofBe_concat, ofLe, mul_comm]

theorem ofLe_lt (bytes : List UInt8) : ofLe bytes < 256 ^ bytes.length := by
  rw [ofLe, ← List.length_reverse]
  exact ofBe_lt bytes.reverse

theorem ofLe_toLe {value : ℕ} (h : value < 256 ^ n) : ofLe (toLe n value) = value := by
  rw [ofLe, toLe, List.reverse_reverse, ofBe_toBe h]

theorem toLe_ofLe (bytes : List UInt8) : toLe bytes.length (ofLe bytes) = bytes := by
  rw [ofLe, toLe, ← List.length_reverse, toBe_ofBe, List.reverse_reverse]

/-! ## Machine words -/

/-- The 16-bit word of two big-endian bytes. -/
def u16FromBe (bytes : List UInt8) : UInt16 := UInt16.ofNat (ofBe bytes)

/-- The 32-bit word of four big-endian bytes. -/
def u32FromBe (bytes : List UInt8) : UInt32 := UInt32.ofNat (ofBe bytes)

/-- The 64-bit word of eight big-endian bytes. -/
def u64FromBe (bytes : List UInt8) : UInt64 := UInt64.ofNat (ofBe bytes)

/-- The 32-bit word of four little-endian bytes. -/
def u32FromLe (bytes : List UInt8) : UInt32 := UInt32.ofNat (ofLe bytes)

theorem ofBe_lt_of_length (h : bytes.length = n) :
    ofBe bytes < 256 ^ n :=
  h ▸ ofBe_lt bytes

theorem toBe_u16FromBe (h : bytes.length = 2) :
    toBe 2 (u16FromBe bytes).toNat = bytes := by
  rw [u16FromBe, UInt16.toNat_ofNat_of_lt' (ofBe_lt_of_length h), ← h, toBe_ofBe]

theorem toBe_u32FromBe (h : bytes.length = 4) :
    toBe 4 (u32FromBe bytes).toNat = bytes := by
  rw [u32FromBe, UInt32.toNat_ofNat_of_lt' (ofBe_lt_of_length h), ← h, toBe_ofBe]

theorem toBe_u64FromBe (h : bytes.length = 8) :
    toBe 8 (u64FromBe bytes).toNat = bytes := by
  rw [u64FromBe, UInt64.toNat_ofNat_of_lt' (ofBe_lt_of_length h), ← h, toBe_ofBe]

theorem toLe_u32FromLe (h : bytes.length = 4) :
    toLe 4 (u32FromLe bytes).toNat = bytes := by
  rw [toLe, u32FromLe, ofLe, ← u32FromBe, toBe_u32FromBe (by simpa using h), List.reverse_reverse]

@[simp]
theorem u16FromBe_toBe (word : UInt16) : u16FromBe (toBe 2 word.toNat) = word := by
  rw [u16FromBe, ofBe_toBe word.toNat_lt, UInt16.ofNat_toNat]

@[simp]
theorem u32FromBe_toBe (word : UInt32) : u32FromBe (toBe 4 word.toNat) = word := by
  rw [u32FromBe, ofBe_toBe word.toNat_lt, UInt32.ofNat_toNat]

@[simp]
theorem u64FromBe_toBe (word : UInt64) : u64FromBe (toBe 8 word.toNat) = word := by
  rw [u64FromBe, ofBe_toBe word.toNat_lt, UInt64.ofNat_toNat]

@[simp]
theorem u32FromLe_toLe (word : UInt32) : u32FromLe (toLe 4 word.toNat) = word := by
  rw [u32FromLe, ofLe_toLe word.toNat_lt, UInt32.ofNat_toNat]

/-! ## Windows of a buffer -/

section Buffers

variable {α ε : Type*} {buffer : List α} {stop start : ℕ}

def slice (buffer : List α) (start stop : ℕ) : List α := (buffer.take stop).drop start

def splice (buffer : List α) (start : ℕ) (bytes : List α) : List α :=
  buffer.take start ++ bytes ++ buffer.drop (start + bytes.length)

def within (buffer : List α) (start length : ℕ) (write : List α → Except ε (List α)) :
    Except ε (List α) := do
  let window ← write (slice buffer start (start + length))
  return splice buffer start window

theorem length_slice (start : ℕ) (h : stop ≤ buffer.length) :
    (slice buffer start stop).length = stop - start := by
  rw [slice, List.length_drop, List.length_take, Nat.min_eq_left h]

theorem slice_eq_cons (h : start < buffer.length) (hlt : start < stop) :
    slice buffer start stop = buffer[start] :: slice buffer (start + 1) stop := by
  rw [slice, slice, List.drop_eq_getElem_cons (by rw [List.length_take]; omega),
    List.getElem_take]

theorem slice_zero_length (buffer : List α) : slice buffer 0 buffer.length = buffer := by
  rw [slice, List.take_length, List.drop_zero]

/-- **Adjacent windows** make up one window. -/
theorem slice_append_slice (buffer : List α) {middle : ℕ} (h : start ≤ middle)
    (h' : middle ≤ stop) :
    slice buffer start middle ++ slice buffer middle stop = slice buffer start stop := by
  have hfront : slice buffer start middle = (slice buffer start stop).take (middle - start) := by
    rw [slice, slice, ← List.drop_take, List.take_take, Nat.min_eq_left h']
  have hback : slice buffer middle stop = (slice buffer start stop).drop (middle - start) := by
    rw [slice, slice, List.drop_drop, Nat.add_sub_cancel' h]
  rw [hfront, hback, List.take_append_drop]

theorem length_splice {bytes : List α} (h : start + bytes.length ≤ buffer.length) :
    (splice buffer start bytes).length = buffer.length := by
  rw [splice, List.length_append, List.length_append, List.length_take, List.length_drop]
  omega

theorem slice_append (before rest : List α) (hstart : start = before.length) :
    slice (before ++ rest) start stop = rest.take (stop - start) := by
  subst hstart
  simp only [slice, List.take_append, List.drop_append]
  rcases le_total stop before.length with h | h
  · rw [Nat.sub_eq_zero_of_le h, List.drop_eq_nil_of_le (by simp)]
    simp
  · rw [List.take_of_length_le h]
    simp

theorem slice_middle {before window behind : List α} (hbuffer : buffer = before ++ window ++ behind)
    (hstart : start = before.length) (hstop : stop = start + window.length) :
    slice buffer start stop = window := by
  rw [hbuffer, List.append_assoc, slice_append before _ hstart, hstop, Nat.add_sub_cancel_left,
    List.take_left]

def fill (output bytes : List α) : List α := bytes ++ output.drop bytes.length

@[simp]
theorem fill_nil (output : List α) : fill output [] = output := rfl

theorem fill_of_length_le {output bytes : List α} (h : output.length ≤ bytes.length) :
    fill output bytes = bytes := by
  rw [fill, List.drop_eq_nil_of_le h, List.append_nil]

/-- **Consecutive writes concatenate**: a write right behind the filled part extends it. -/
theorem splice_fill (output before bytes : List α) (hstart : start = before.length) :
    splice (fill output before) start bytes = fill output (before ++ bytes) := by
  rw [splice, fill, fill, hstart, List.take_left, List.drop_append,
    List.drop_eq_nil_of_le (by simp), List.nil_append, Nat.add_sub_cancel_left, List.drop_drop,
    List.length_append]

theorem splice_zero (output bytes : List α) : splice output 0 bytes = fill output bytes :=
  splice_fill output [] bytes rfl

theorem splice_overwrite (output before : List α) {old new : List α}
    (hstart : start = before.length) (hlength : old.length = new.length) :
    splice (fill output (before ++ old)) start new = fill output (before ++ new) := by
  have hdrop : (before ++ old ++ output.drop (before ++ old).length).drop
      (before.length + new.length) = output.drop (before ++ old).length :=
    List.drop_left' (by rw [List.length_append, hlength])
  rw [splice, fill, fill, hstart, hdrop, List.append_assoc before old, List.take_left,
    List.length_append, List.length_append, hlength]

theorem slice_fill (output before : List α) (hstart : start = before.length) :
    slice (fill output before) start stop = (output.drop start).take (stop - start) := by
  rw [fill, slice_append before _ hstart, hstart]

/-! ## Fixed-size arrays -/

def arrayAt (blank : α) (buffer : List α) (start n : ℕ) : Vector α n :=
  Vector.ofFn fun i ↦ buffer.getD (start + i) blank

theorem toList_arrayAt (blank : α) {n : ℕ} (h : start + n ≤ buffer.length) :
    (arrayAt blank buffer start n).toList = slice buffer start (start + n) := by
  apply List.ext_getElem
  · rw [length_slice start h, Vector.length_toList, Nat.add_sub_cancel_left]
  · intro i hi hi'
    rw [Vector.length_toList] at hi
    have hlt : start + i < buffer.length := by omega
    simp [arrayAt, slice, List.getD_eq_getElem?_getD, List.getElem?_eq_getElem hlt]

end Buffers

end Rocev2.Lib.Bytes
