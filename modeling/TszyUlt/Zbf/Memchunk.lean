import TszyUlt.Zbf.TcpMessage

/-!
# The growing receive buffer

`zbf/memchunk.hpp`. A `Memchunk` is a block of `buffersize` bytes whose first `datasize` bytes are
in use. `push` appends bytes, growing the block to the next multiple of `blocksize` when they do not
fit, and `pop` removes bytes from the front by moving the rest down. All sizes are `unsigned int`,
so the arithmetic is modulo `2 ^ 32`.

`Memchunk.Holds` is the abstraction to a byte queue: the bytes in use are a given list and the block
has its recorded size. `push_spec` and `pop_spec` say that `push` and `pop` append to and remove
from that list while the sizes stay below `2 ^ 31`; every other fact about the buffer is derived
from them.

The allocator is a parameter. `ZBF_MALLOC` and `ZBF_REALLOC` are `zbf::malloc` and `zbf::realloc` of
`zbf/mem_alloc.hpp`, which end the process when the system allocator fails and never return null, so
the null branch of `push` cannot be taken and is not modelled. What the code relies on is that a
block has the requested size and that growing a block keeps its bytes (`Allocator`).
-/

set_option autoImplicit false
set_option relaxedAutoImplicit false

namespace TszyUlt.Zbf

open Lib

/-- `zbf::malloc` and `zbf::realloc` when they return. The bytes of a block that were not in the old
one are whatever the allocator left there. -/
structure Allocator where
  malloc : ℕ → Bytes
  realloc : Bytes → ℕ → Bytes
  length_malloc : ∀ size, (malloc size).length = size
  length_realloc : ∀ old size, (realloc old size).length = size
  prefix_realloc : ∀ old size, old.take size <+: realloc old size

/-- An allocator that clears the memory it hands out. -/
def Allocator.zeroing : Allocator where
  malloc := fun size ↦ List.replicate size 0
  realloc := fun old size ↦ old.take size ++ List.replicate (size - old.length) 0
  length_malloc := fun size ↦ List.length_replicate
  length_realloc := by
    intro old size
    rw [List.length_append, List.length_take, List.length_replicate]
    omega
  prefix_realloc := fun old size ↦ List.prefix_append _ _

/-- `memchunk`. -/
structure Memchunk where
  buffer : Bytes
  buffersize : ℕ
  datasize : ℕ
  blocksize : ℕ
  deriving DecidableEq, Repr

namespace Memchunk

/-- The constructor of `memchunk`. -/
def new (alloc : Allocator) (blksz : ℕ) : Memchunk where
  buffer := alloc.malloc blksz
  buffersize := blksz
  datasize := 0
  blocksize := blksz

/-- The block grown so that `target` bytes fit: the first half of `memchunk::push`. -/
def reserve (alloc : Allocator) (chunk : Memchunk) (target : ℕ) : Memchunk :=
  if chunk.buffersize < target then
    let size := (target / chunk.blocksize + 1) % 2 ^ 32 * chunk.blocksize % 2 ^ 32
    { chunk with buffersize := size, buffer := alloc.realloc chunk.buffer size }
  else chunk

/-- `memchunk::push`: the return code and the buffer afterwards. -/
def push (alloc : Allocator) (chunk : Memchunk) (data : Bytes) : ℤ × Memchunk :=
  if data.length = 0 then (-1, chunk)
  else
    let target := (chunk.datasize + data.length) % 2 ^ 32
    let grown := chunk.reserve alloc target
    (asInt32 target,
      { grown with buffer := writeAt grown.buffer grown.datasize data, datasize := target })

/-- `memchunk::pop`: the return code and the buffer afterwards. -/
def pop (chunk : Memchunk) (sz : ℕ) : ℤ × Memchunk :=
  if sz > chunk.datasize ∨ sz = 0 then (-1, chunk)
  else
    let moved :=
      if sz = chunk.datasize then writeAt chunk.buffer 0 (List.replicate chunk.datasize 0#8)
      else writeAt chunk.buffer 0 ((chunk.buffer.drop sz).take (chunk.datasize - sz))
    (asInt32 (chunk.datasize - sz), { chunk with buffer := moved, datasize := chunk.datasize - sz })

/-- The first `n` bytes of the block. -/
def peek (chunk : Memchunk) (n : ℕ) : Bytes := chunk.buffer.take n

/-- The buffer holds exactly `content`: its bytes in use are `content`, its block is as long as
`buffersize` says, and a whole `blocksize` fits. -/
structure Holds (chunk : Memchunk) (content : Bytes) : Prop where
  blocksize_pos : 0 < chunk.blocksize
  blocksize_le : chunk.blocksize ≤ chunk.buffersize
  datasize_eq : chunk.datasize = content.length
  buffer_eq : ∃ slack, chunk.buffer = content ++ slack ∧
    content.length + slack.length = chunk.buffersize

/-- A new buffer holds nothing. -/
theorem holds_new (alloc : Allocator) {blksz : ℕ} (hblksz : 0 < blksz) :
    (new alloc blksz).Holds [] := by
  refine ⟨hblksz, le_rfl, rfl, alloc.malloc blksz, rfl, ?_⟩
  rw [List.length_nil, Nat.zero_add]
  exact alloc.length_malloc blksz

theorem peek_eq {chunk : Memchunk} {content : Bytes} (hholds : chunk.Holds content) {n : ℕ}
    (hn : n ≤ content.length) : chunk.peek n = content.take n := by
  obtain ⟨slack, hbuffer, -⟩ := hholds.buffer_eq
  rw [peek, hbuffer, List.take_append_of_le_length hn]

/-! ### Growing and appending -/

/-- The size that `push` grows the block to is above what has to fit, by at most one block. -/
theorem grownSize_bounds (target : ℕ) {blocksize : ℕ} (hpos : 0 < blocksize) :
    target < (target / blocksize + 1) * blocksize ∧
      (target / blocksize + 1) * blocksize ≤ target + blocksize := by
  have hdiv := Nat.div_add_mod target blocksize
  have hmod := Nat.mod_lt target hpos
  have hexpand : (target / blocksize + 1) * blocksize =
      blocksize * (target / blocksize) + blocksize := by
    ring
  omega

/-- Assumes: the new size does not wrap around. After growing, the buffer holds the same bytes and
`target` bytes fit. -/
theorem reserve_spec (alloc : Allocator) {chunk : Memchunk} {content : Bytes}
    (hholds : chunk.Holds content) (target : ℕ) (hcontent : content.length ≤ target)
    (hbound : target + chunk.blocksize < 2 ^ 32) :
    (chunk.reserve alloc target).Holds content ∧ target ≤ (chunk.reserve alloc target).buffersize ∧
      (chunk.reserve alloc target).blocksize = chunk.blocksize := by
  have hpos := hholds.blocksize_pos
  by_cases hgrow : chunk.buffersize < target
  · obtain ⟨hlt, hle⟩ := grownSize_bounds target hpos
    have hquot : target / chunk.blocksize + 1 < 2 ^ 32 := by
      have hdiv := Nat.div_le_self target chunk.blocksize
      omega
    have hsize : (target / chunk.blocksize + 1) % 2 ^ 32 * chunk.blocksize % 2 ^ 32 =
        (target / chunk.blocksize + 1) * chunk.blocksize := by
      rw [Nat.mod_eq_of_lt hquot, Nat.mod_eq_of_lt (by omega)]
    have hblock : chunk.blocksize ≤ (target / chunk.blocksize + 1) * chunk.blocksize :=
      Nat.le_mul_of_pos_left _ (Nat.succ_pos _)
    rw [reserve, if_pos hgrow, hsize]
    generalize (target / chunk.blocksize + 1) * chunk.blocksize = size at hlt hle hblock
    obtain ⟨slack, hbuffer, -⟩ := hholds.buffer_eq
    -- the bytes in use fit into the new block, so growing keeps all of them
    have hkeep : content <+: alloc.realloc chunk.buffer size := by
      refine List.IsPrefix.trans ?_ (alloc.prefix_realloc chunk.buffer size)
      rw [hbuffer]
      exact (List.prefix_take_iff).mpr ⟨List.prefix_append _ _, by omega⟩
    obtain ⟨fresh, hfresh⟩ := hkeep
    have hlength := alloc.length_realloc chunk.buffer size
    rw [← hfresh, List.length_append] at hlength
    exact ⟨⟨hpos, hblock, hholds.datasize_eq, fresh, hfresh.symm, hlength⟩, hlt.le, rfl⟩
  · rw [reserve, if_neg hgrow]
    exact ⟨hholds, not_lt.mp hgrow, rfl⟩

/-- Assumes: a non-empty block of bytes that, with the bytes held and one block size, stays below
`2 ^ 31`. `push` appends it and returns the new size. -/
theorem push_spec (alloc : Allocator) {chunk : Memchunk} {content data : Bytes}
    (hholds : chunk.Holds content) (hdata : data ≠ [])
    (hbound : content.length + data.length + chunk.blocksize < 2 ^ 31) :
    (chunk.push alloc data).1 = (content ++ data).length ∧
      (chunk.push alloc data).2.Holds (content ++ data) ∧
      (chunk.push alloc data).2.blocksize = chunk.blocksize := by
  have hlength : data.length ≠ 0 := fun hzero ↦ hdata (List.length_eq_zero_iff.mp hzero)
  have htarget : (chunk.datasize + data.length) % 2 ^ 32 = (content ++ data).length := by
    rw [hholds.datasize_eq, List.length_append, Nat.mod_eq_of_lt (by omega)]
  have htotal : (content ++ data).length < 2 ^ 31 := by
    rw [List.length_append]
    omega
  obtain ⟨hgrown, hfits, hblock⟩ := reserve_spec alloc hholds (content ++ data).length
    (by rw [List.length_append]; omega) (by omega)
  rw [push, if_neg hlength]
  simp only [htarget]
  generalize chunk.reserve alloc (content ++ data).length = grown at hgrown hfits hblock
  refine ⟨asInt32_of_lt htotal, ⟨hgrown.blocksize_pos, hgrown.blocksize_le, rfl, ?_⟩, hblock⟩
  obtain ⟨slack, hbuffer, hslack⟩ := hgrown.buffer_eq
  rw [List.length_append] at hfits
  refine ⟨slack.drop data.length, ?_, ?_⟩
  · have hsplit : content ++ slack =
        content ++ slack.take data.length ++ slack.drop data.length := by
      rw [List.append_assoc, List.take_append_drop]
    have htake : data.length = (slack.take data.length).length := by
      rw [List.length_take]
      omega
    simp only [hbuffer, hgrown.datasize_eq]
    rw [hsplit, writeAt_append _ _ _ _ htake]
  · rw [List.length_append, List.length_drop]
    simp only
    omega

/-! ### Removing from the front -/

/-- Assumes: no more bytes than are held. `pop` removes them from the front. -/
theorem pop_spec {chunk : Memchunk} {content : Bytes} (hholds : chunk.Holds content) {sz : ℕ}
    (hle : sz ≤ content.length) :
    (chunk.pop sz).2.Holds (content.drop sz) ∧ (chunk.pop sz).2.blocksize = chunk.blocksize := by
  have hdatasize := hholds.datasize_eq
  by_cases hzero : sz = 0
  · -- removing nothing is refused and changes nothing
    rw [pop, if_pos (.inr hzero), hzero, List.drop_zero]
    exact ⟨hholds, rfl⟩
  obtain ⟨slack, hbuffer, hslack⟩ := hholds.buffer_eq
  have hguard : ¬ (sz > chunk.datasize ∨ sz = 0) := by omega
  rw [pop, if_neg hguard]
  refine ⟨⟨hholds.blocksize_pos, hholds.blocksize_le, ?_, ?_⟩, rfl⟩
  · simp only [List.length_drop]
    omega
  · by_cases hall : sz = chunk.datasize
    · -- everything is removed: the bytes in use are cleared in place
      have hdrop : content.drop sz = [] := List.drop_of_length_le (by omega)
      refine ⟨List.replicate chunk.datasize 0#8 ++ slack, ?_, ?_⟩
      · have hwrite := writeAt_append [] content slack (List.replicate chunk.datasize 0#8)
          (by rw [List.length_replicate, hdatasize])
        simp only [if_pos hall, hbuffer, hdrop, List.nil_append]
        simpa using hwrite
      · simp only [hdrop, List.length_nil, List.length_append, List.length_replicate]
        omega
    · -- the rest is moved down over the removed bytes
      have hmoved : (chunk.buffer.drop sz).take (chunk.datasize - sz) = content.drop sz := by
        rw [hbuffer, List.drop_append_of_le_length hle, List.take_append_of_le_length]
        · rw [List.take_of_length_le (by rw [List.length_drop]; omega)]
        · rw [List.length_drop]
          omega
      refine ⟨content.drop (content.length - sz) ++ slack, ?_, ?_⟩
      · have hsplit : content ++ slack =
            [] ++ content.take (content.length - sz) ++
              (content.drop (content.length - sz) ++ slack) := by
          rw [List.nil_append, ← List.append_assoc, List.take_append_drop]
        have hwrite := writeAt_append [] (content.take (content.length - sz))
          (content.drop (content.length - sz) ++ slack) (content.drop sz)
          (by rw [List.length_drop, List.length_take]; omega)
        simp only [if_neg hall, hmoved]
        rw [hbuffer, hsplit]
        simpa using hwrite
      · simp only [List.length_append, List.length_drop]
        omega

end Memchunk

end TszyUlt.Zbf
