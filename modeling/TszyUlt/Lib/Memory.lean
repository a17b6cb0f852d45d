import Mathlib.Data.Nat.ModEq
import Mathlib.Data.List.Basic
import Mathlib.Tactic.Ring

/-!
# Words and blocks in memory

A host keeps a word of `8 * n` bits in `n` consecutive bytes, least significant byte first or most
significant byte first. `store` and `load` are the two directions of that correspondence for a given
`ByteOrder`, and `load_store` and `store_load` are the round trips. Network byte order is `.big` on
every host: `hostToNet` is the word whose bytes in the memory of the host are the network-order
bytes of its argument (`store_hostToNet`), and `netToHost` is the word that the network-order bytes
of the memory of the host denote, and it undoes the conversion (`netToHost_hostToNet`) on hosts of
either byte order.

The byte lists are those of the base-256 digits of a natural number, of a fixed length
(`digitBytes`, `ofDigitBytes`).

`counterAt` is a counter that wraps around; its values are distinct for as many increments as it has
values. `asInt32` is the conversion of an unsigned value to a signed 32-bit one, and `writeAt` the
effect of copying bytes into a block of memory. `copyTo` and `copyFrom` are copies that fail where
they leave the block.
-/

set_option autoImplicit false
set_option relaxedAutoImplicit false

namespace TszyUlt.Lib

/-- One byte of memory. -/
abbrev Byte := BitVec 8

/-- The order in which a host keeps the bytes of a word. -/
inductive ByteOrder
  | little
  | big
  deriving DecidableEq, Repr

/-! ### Fixed-length base-256 digits -/

/-- The `n` low base-256 digits of a number, least significant first. -/
def digitBytes : ℕ → ℕ → List Byte
  | 0, _ => []
  | n + 1, value => BitVec.ofNat 8 value :: digitBytes n (value / 256)

/-- The number whose base-256 digits are the given bytes, least significant first. -/
def ofDigitBytes : List Byte → ℕ
  | [] => 0
  | byte :: rest => byte.toNat + 256 * ofDigitBytes rest

@[simp] theorem length_digitBytes (n value : ℕ) : (digitBytes n value).length = n := by
  induction n generalizing value with
  | zero => rfl
  | succ n ih => rw [digitBytes, List.length_cons, ih]

theorem ofDigitBytes_digitBytes (n value : ℕ) :
    ofDigitBytes (digitBytes n value) = value % 256 ^ n := by
  induction n generalizing value with
  | zero => rw [digitBytes, ofDigitBytes, pow_zero, Nat.mod_one]
  | succ n ih =>
    have hpow : 256 ^ (n + 1) = 256 * 256 ^ n := pow_succ' 256 n
    rw [digitBytes, ofDigitBytes, ih, BitVec.toNat_ofNat, hpow, Nat.mod_mul]

theorem ofDigitBytes_lt (bytes : List Byte) : ofDigitBytes bytes < 256 ^ bytes.length := by
  induction bytes with
  | nil => rw [ofDigitBytes, List.length_nil, pow_zero]; exact Nat.one_pos
  | cons byte rest ih =>
    have hbyte : byte.toNat < 256 := byte.isLt
    rw [ofDigitBytes, List.length_cons, pow_succ]
    omega

theorem digitBytes_ofDigitBytes (bytes : List Byte) :
    digitBytes bytes.length (ofDigitBytes bytes) = bytes := by
  induction bytes with
  | nil => rfl
  | cons byte rest ih =>
    have hbyte : byte.toNat < 256 := byte.isLt
    have hrest : (byte.toNat + 256 * ofDigitBytes rest) / 256 = ofDigitBytes rest := by omega
    have hhead : BitVec.ofNat 8 (byte.toNat + 256 * ofDigitBytes rest) = byte := by
      apply BitVec.eq_of_toNat_eq
      rw [BitVec.toNat_ofNat]
      omega
    rw [ofDigitBytes, List.length_cons, digitBytes, hrest, ih, hhead]

/-- The digits of a number above a power of the base follow those of the rest. -/
theorem digitBytes_add (m n : ℕ) {low : ℕ} (high : ℕ) (hlow : low < 256 ^ m) :
    digitBytes (m + n) (low + 256 ^ m * high) = digitBytes m low ++ digitBytes n high := by
  induction m generalizing low with
  | zero =>
    rw [pow_zero, Nat.lt_one_iff] at hlow
    rw [hlow, Nat.zero_add, Nat.zero_add, pow_zero, Nat.one_mul]
    rfl
  | succ m ih =>
    have hexpand : low + 256 ^ (m + 1) * high = low + 256 * (256 ^ m * high) := by ring
    have hdigit : BitVec.ofNat 8 (low + 256 * (256 ^ m * high)) = BitVec.ofNat 8 low := by
      apply BitVec.eq_of_toNat_eq
      rw [BitVec.toNat_ofNat, BitVec.toNat_ofNat]
      exact Nat.add_mul_mod_self_left low 256 _
    have hrest : (low + 256 * (256 ^ m * high)) / 256 = low / 256 + 256 ^ m * high :=
      Nat.add_mul_div_left low _ (by norm_num)
    have hlow' : low / 256 < 256 ^ m := by
      rw [Nat.div_lt_iff_lt_mul (by norm_num), ← pow_succ]
      exact hlow
    rw [hexpand, Nat.succ_add, digitBytes, digitBytes, hdigit, hrest, ih hlow', List.cons_append]

/-! ### Words in memory -/

variable {w : ℕ}

/-- The `n` bytes in which a host of the given byte order keeps a word. -/
def store (order : ByteOrder) (n : ℕ) (word : BitVec w) : List Byte :=
  match order with
  | .little => digitBytes n word.toNat
  | .big => (digitBytes n word.toNat).reverse

/-- The word that a host of the given byte order reads from its memory. -/
def load (order : ByteOrder) (w : ℕ) (bytes : List Byte) : BitVec w :=
  match order with
  | .little => BitVec.ofNat w (ofDigitBytes bytes)
  | .big => BitVec.ofNat w (ofDigitBytes bytes.reverse)

@[simp] theorem length_store (order : ByteOrder) (n : ℕ) (word : BitVec w) :
    (store order n word).length = n := by
  cases order with
  | little => exact length_digitBytes n word.toNat
  | big => rw [store, List.length_reverse, length_digitBytes]

private theorem pow_bytes {n : ℕ} (hwidth : w = 8 * n) : 256 ^ n = 2 ^ w := by
  rw [hwidth, pow_mul]
  norm_num

/-- A word is read back from the bytes it was kept in. Assumes: the bytes cover the word exactly. -/
theorem load_store (order : ByteOrder) {n : ℕ} (hwidth : w = 8 * n) (word : BitVec w) :
    load order w (store order n word) = word := by
  have hdigits : BitVec.ofNat w (ofDigitBytes (digitBytes n word.toNat)) = word := by
    apply BitVec.eq_of_toNat_eq
    rw [ofDigitBytes_digitBytes, BitVec.toNat_ofNat, pow_bytes hwidth, Nat.mod_mod,
      Nat.mod_eq_of_lt word.isLt]
  cases order with
  | little => exact hdigits
  | big => rw [store, load, List.reverse_reverse, hdigits]

/-- Keeping a word that was read from memory restores the bytes it was read from. Assumes: the
bytes cover the word exactly. -/
theorem store_load (order : ByteOrder) (bytes : List Byte) (hwidth : w = 8 * bytes.length) :
    store order bytes.length (load order w bytes) = bytes := by
  have hdigits : ∀ digits : List Byte, w = 8 * digits.length →
      digitBytes digits.length (BitVec.ofNat w (ofDigitBytes digits)).toNat = digits := by
    intro digits hdigits
    have hlt : ofDigitBytes digits < 2 ^ w := pow_bytes hdigits ▸ ofDigitBytes_lt digits
    rw [BitVec.toNat_ofNat, Nat.mod_eq_of_lt hlt, digitBytes_ofDigitBytes]
  cases order with
  | little => exact hdigits bytes hwidth
  | big =>
    have hreverse := hdigits bytes.reverse (by rw [List.length_reverse]; exact hwidth)
    rw [List.length_reverse] at hreverse
    rw [store, load, hreverse, List.reverse_reverse]

/-! ### Network byte order -/

/-- The word whose bytes in the memory of the host are the network-order bytes of `word`. -/
def hostToNet (order : ByteOrder) (n : ℕ) (word : BitVec w) : BitVec w :=
  load order w (store .big n word)

/-- The word that the bytes of `word` in the memory of the host denote in network order. -/
def netToHost (order : ByteOrder) (n : ℕ) (word : BitVec w) : BitVec w :=
  load .big w (store order n word)

/-- Assumes: the bytes cover the word exactly. A converted word is kept in network order. -/
theorem store_hostToNet (order : ByteOrder) {n : ℕ} (hwidth : w = 8 * n) (word : BitVec w) :
    store order n (hostToNet order n word) = store .big n word := by
  have hcover : w = 8 * (store .big n word).length := by rw [length_store, hwidth]
  have hload := store_load order (store .big n word) hcover
  rwa [length_store] at hload

/-- Assumes: the bytes cover the word exactly. The conversion from network order undoes the
conversion to it. -/
theorem netToHost_hostToNet (order : ByteOrder) {n : ℕ} (hwidth : w = 8 * n) (word : BitVec w) :
    netToHost order n (hostToNet order n word) = word := by
  rw [netToHost, store_hostToNet order hwidth, load_store .big hwidth]

/-- Assumes: the bytes cover the word exactly. The word that network-order bytes denote, read in
place and converted. -/
theorem netToHost_load (order : ByteOrder) (bytes : List Byte) (hwidth : w = 8 * bytes.length) :
    netToHost order bytes.length (load order w bytes) = load .big w bytes := by
  rw [netToHost, store_load order bytes hwidth]

/-- Assumes: the bytes cover the word exactly. A word that was converted and kept by one host is
read and converted back by another, whatever their byte orders. -/
theorem netToHost_load_store_hostToNet (sender receiver : ByteOrder) {n : ℕ} (hwidth : w = 8 * n)
    (word : BitVec w) :
    netToHost receiver n (load receiver w (store sender n (hostToNet sender n word))) = word := by
  have hbytes : w = 8 * (store .big n word).length := by rw [length_store, hwidth]
  have hread := netToHost_load receiver (store .big n word) hbytes
  rw [length_store] at hread
  rw [store_hostToNet sender hwidth, hread, load_store .big hwidth]

/-- The two halves of a word make up the word. -/
theorem or_halves (word : BitVec 64) :
    (((word >>> 32).setWidth 32).setWidth 64 <<< 32) ||| (word.setWidth 32).setWidth 64 =
      word := by
  apply BitVec.eq_of_getLsbD_eq
  intro i hi
  simp only [BitVec.getLsbD_or, BitVec.getLsbD_shiftLeft, BitVec.getLsbD_setWidth,
    BitVec.getLsbD_ushiftRight]
  by_cases hlow : i < 32
  · simp [hi, hlow]
  · have hsplit : 32 + (i - 32) = i := by omega
    have hhigh : i - 32 < 32 := by omega
    simp [hi, hlow, hsplit, hhigh]
    omega

/-! ### Counters, signed values and blocks -/

/-- The value of a counter of `w` bits that started at `start`, after `n` increments. -/
def counterAt (w start n : ℕ) : BitVec w := BitVec.ofNat w (start + n)

theorem counterAt_succ (w start n : ℕ) : counterAt w start (n + 1) = counterAt w start n + 1 :=
  BitVec.ofNat_add (start + n) 1

/-- Assumes: fewer increments than the counter has values. Its values are distinct. -/
theorem counterAt_injective {w start n m : ℕ} (hn : n < 2 ^ w) (hm : m < 2 ^ w)
    (heq : counterAt w start n = counterAt w start m) : n = m := by
  have htoNat := congrArg BitVec.toNat heq
  rw [counterAt, counterAt, BitVec.toNat_ofNat, BitVec.toNat_ofNat] at htoNat
  have hmod : n ≡ m [MOD 2 ^ w] := Nat.ModEq.add_left_cancel' start htoNat
  rwa [Nat.ModEq, Nat.mod_eq_of_lt hn, Nat.mod_eq_of_lt hm] at hmod

/-- Assumes: the counter has not wrapped around. -/
theorem toNat_counterAt {w start n : ℕ} (hlt : start + n < 2 ^ w) :
    (counterAt w start n).toNat = start + n := by
  rw [counterAt, BitVec.toNat_ofNat, Nat.mod_eq_of_lt hlt]

/-- The signed 32-bit value of the low 32 bits of an unsigned value. -/
def asInt32 (value : ℕ) : ℤ := (BitVec.ofNat 32 value).toInt

/-- Assumes: a value below `2 ^ 31`. Its signed 32-bit value is the value itself. -/
theorem asInt32_of_lt {value : ℕ} (hvalue : value < 2 ^ 31) : asInt32 value = value := by
  rw [asInt32, BitVec.toInt_ofNat']
  norm_num [Int.bmod]
  omega

/-- The signed 32-bit value of an unsigned value is no larger. -/
theorem asInt32_le (value : ℕ) : asInt32 value ≤ value := by
  rw [asInt32, BitVec.toInt_ofNat']
  norm_num [Int.bmod]
  omega

/-- Assumes: a 32-bit value that is not negative as a signed one. It is below `2 ^ 31`. -/
theorem lt_of_asInt32_nonneg {value : ℕ} (hvalue : value < 2 ^ 32) (hnonneg : 0 ≤ asInt32 value) :
    value < 2 ^ 31 := by
  rw [asInt32, BitVec.toInt_ofNat'] at hnonneg
  norm_num [Int.bmod] at hnonneg
  omega

/-- Assumes: a value of `2 ^ 31` or more. Its signed 32-bit value, negative or not, is no size above
what lies beyond `2 ^ 31`. -/
theorem toNat_asInt32_le {value : ℕ} (hvalue : 2 ^ 31 ≤ value) :
    (asInt32 value).toNat + 2 ^ 31 ≤ value := by
  rw [asInt32, BitVec.toInt_ofNat']
  norm_num [Int.bmod]
  omega

/-- A block of memory after `data` was copied to it at `offset`. -/
def writeAt {α : Type*} (block : List α) (offset : ℕ) (data : List α) : List α :=
  block.take offset ++ data ++ block.drop (offset + data.length)

/-- Copying into the middle of a block replaces what was there and nothing else. -/
theorem writeAt_append {α : Type*} (front middle back data : List α)
    (hlength : data.length = middle.length) :
    writeAt (front ++ middle ++ back) front.length data = front ++ data ++ back := by
  simp [writeAt, hlength, List.drop_append]

section Copies

variable {α : Type*}

theorem writeAt_nil (block : List α) (offset : ℕ) : writeAt block offset [] = block := by
  rw [writeAt, List.append_nil, List.length_nil, Nat.add_zero, List.take_append_drop]

/-- Assumes: the data fits. The block keeps its length. -/
theorem length_writeAt {block data : List α} {offset : ℕ}
    (hfits : offset + data.length ≤ block.length) :
    (writeAt block offset data).length = block.length := by
  rw [writeAt, List.length_append, List.length_append, List.length_take, List.length_drop]
  omega

/-- Assumes: the first data fits. Copying one piece behind the other copies both. -/
theorem writeAt_writeAt {block first : List α} {offset : ℕ}
    (hfits : offset + first.length ≤ block.length) (second : List α) :
    writeAt (writeAt block offset first) (offset + first.length) second =
      writeAt block offset (first ++ second) := by
  have hfront : (block.take offset ++ first).length = offset + first.length := by
    rw [List.length_append, List.length_take, Nat.min_eq_left (by omega)]
  have hkept : (writeAt block offset first).take (offset + first.length) =
      block.take offset ++ first := by
    rw [writeAt, ← hfront, List.take_left]
  have hrest : (writeAt block offset first).drop (offset + first.length + second.length) =
      block.drop (offset + (first ++ second).length) := by
    rw [← List.drop_drop, writeAt, ← hfront, List.drop_left, List.drop_drop, hfront,
      List.length_append, Nat.add_assoc]
  rw [writeAt, hkept, hrest, writeAt, List.append_assoc (block.take offset)]

/-- A block after `data` was copied to it at `offset`, `none` when an item falls outside it. -/
def copyTo (block : List α) (offset : ℕ) (data : List α) : Option (List α) :=
  if offset + data.length ≤ block.length then some (writeAt block offset data) else none

/-- The `count` items of a block at `offset`, `none` when one of them is outside it. -/
def copyFrom (block : List α) (offset count : ℕ) : Option (List α) :=
  if offset + count ≤ block.length then some ((block.drop offset).take count) else none

theorem copyTo_of_le {block data : List α} {offset : ℕ}
    (hfits : offset + data.length ≤ block.length) :
    copyTo block offset data = some (writeAt block offset data) :=
  if_pos hfits

theorem copyFrom_of_le {block : List α} {offset count : ℕ}
    (hfits : offset + count ≤ block.length) :
    copyFrom block offset count = some ((block.drop offset).take count) :=
  if_pos hfits

end Copies

end TszyUlt.Lib
