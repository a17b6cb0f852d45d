import TszyUlt.Lib.DataRefinement
import TszyUlt.Zbf.RecvPath

/-!
# The receive buffer as a byte queue

`zbf/memchunk.hpp` over any sequence of calls. `pushWithin` and `popWithin` are `memchunk::push` and
`memchunk::pop` with each `memcpy`, `memset` and `memmove` checked against the block that it is made
in: a copy that leaves the block makes the call fail. Where no copy does, they are `Memchunk.push`
and `Memchunk.pop` (`pushWithin_eq`, `popWithin_eq`).

`byteQueue` is what a buffer is for: a sequence of bytes, to which a block is appended and from
whose front bytes are removed. `serve_refines` says that a buffer refines it as long as the stored
bytes, a pushed block and one block size stay below `2 ^ 31` (`HasRoom`), and `byteQueue_eq` that
the queue is at all times the blocks it accepted, in order, without as many bytes from their front
as it accepted to remove. The receive path of a connection keeps to that bound
(`hasRoom_along_reads`).
-/

set_option autoImplicit false
set_option relaxedAutoImplicit false

namespace TszyUlt.Zbf

open Lib

/-- A call on a `memchunk`. A null pointer is no data. -/
inductive MemchunkCall
  | push (data : Option Bytes)
  | pop (sz : ℕ)
  deriving DecidableEq, Repr

namespace Memchunk

/-! ### Checked copies -/

/-- `memchunk::push` with its copy checked. -/
def pushWithin (alloc : Allocator) (chunk : Memchunk) : Option Bytes → Option (ℤ × Memchunk)
  | none => some (-1, chunk)
  | some data =>
    if data.length = 0 then some (-1, chunk)
    else
      let target := (chunk.datasize + data.length) % 2 ^ 32
      let grown := chunk.reserve alloc target
      (copyTo grown.buffer grown.datasize data).map fun block ↦
        (asInt32 target, { grown with buffer := block, datasize := target })

/-- `memchunk::pop` with its copies checked. -/
def popWithin (chunk : Memchunk) (sz : ℕ) : Option (ℤ × Memchunk) :=
  if sz > chunk.datasize ∨ sz = 0 then some (-1, chunk)
  else
    let moved :=
      if sz = chunk.datasize then copyTo chunk.buffer 0 (List.replicate chunk.datasize 0#8)
      else (copyFrom chunk.buffer sz (chunk.datasize - sz)).bind (copyTo chunk.buffer 0)
    moved.map fun block ↦
      (asInt32 (chunk.datasize - sz),
        { chunk with buffer := block, datasize := chunk.datasize - sz })

/-- The return code of a call and the buffer afterwards. -/
def serve (alloc : Allocator) (chunk : Memchunk) : MemchunkCall → Option (ℤ × Memchunk)
  | .push data => chunk.pushWithin alloc data
  | .pop sz => chunk.popWithin sz

theorem pushWithin_none (alloc : Allocator) (chunk : Memchunk) :
    chunk.pushWithin alloc none = some (-1, chunk) := rfl

theorem pushWithin_nil (alloc : Allocator) (chunk : Memchunk) :
    chunk.pushWithin alloc (some []) = some (-1, chunk) := rfl

/-- Assumes: the block fits behind the stored bytes once there is room for the new size. No byte is
copied outside the buffer. -/
theorem pushWithin_eq (alloc : Allocator) (chunk : Memchunk) {data : Bytes}
    (hfits : (chunk.reserve alloc ((chunk.datasize + data.length) % 2 ^ 32)).datasize +
      data.length ≤
        (chunk.reserve alloc ((chunk.datasize + data.length) % 2 ^ 32)).buffer.length) :
    chunk.pushWithin alloc (some data) = some (chunk.push alloc data) := by
  by_cases hempty : data.length = 0
  · simp only [pushWithin, push, if_pos hempty]
  · simp only [pushWithin, push, if_neg hempty, copyTo_of_le hfits, Option.map_some]

/-- Assumes: the stored bytes are within the block. No byte is copied from or to outside it. -/
theorem popWithin_eq {chunk : Memchunk} (hfits : chunk.datasize ≤ chunk.buffer.length) (sz : ℕ) :
    chunk.popWithin sz = some (chunk.pop sz) := by
  by_cases hguard : sz > chunk.datasize ∨ sz = 0
  · rw [popWithin, pop, if_pos hguard, if_pos hguard]
  rw [popWithin, pop, if_neg hguard, if_neg hguard]
  have hsz : sz ≤ chunk.datasize := by omega
  by_cases hall : sz = chunk.datasize
  · have hclear : 0 + (List.replicate chunk.datasize 0#8).length ≤ chunk.buffer.length := by
      rw [List.length_replicate, Nat.zero_add]
      exact hfits
    simp only [if_pos hall, copyTo_of_le hclear, Option.map_some]
  · have hread : sz + (chunk.datasize - sz) ≤ chunk.buffer.length := by omega
    have hwrite : 0 + ((chunk.buffer.drop sz).take (chunk.datasize - sz)).length ≤
        chunk.buffer.length := by
      rw [List.length_take, List.length_drop]
      omega
    simp only [if_neg hall, copyFrom_of_le hread, Option.bind_some, copyTo_of_le hwrite,
      Option.map_some]

/-! ### The queue -/

/-- A byte queue: a block that is not empty is appended, bytes that are there are removed from the
front, and the answer is the new size. Other calls are refused. -/
def byteQueue (content : Bytes) : MemchunkCall → ℤ × Bytes
  | .push none => (-1, content)
  | .push (some data) =>
    if data = [] then (-1, content) else ((content ++ data).length, content ++ data)
  | .pop sz =>
    if 0 < sz ∧ sz ≤ content.length then ((content.drop sz).length, content.drop sz)
    else (-1, content)

/-- The bytes of a call that was answered with a size: those it appended. -/
def pushedBytes : MemchunkCall × ℤ → Bytes
  | (.push (some data), rc) => if rc = -1 then [] else data
  | _ => []

/-- The number of bytes of a call that was answered with a size: those it removed. -/
def poppedCount : MemchunkCall × ℤ → ℕ
  | (.pop sz, rc) => if rc = -1 then 0 else sz
  | _ => 0

/-- One call appends the bytes it pushed and removes those it popped, which are there. -/
theorem byteQueue_call (content : Bytes) (call : MemchunkCall) :
    poppedCount (call, (byteQueue content call).1) ≤
        (content ++ pushedBytes (call, (byteQueue content call).1)).length ∧
      (byteQueue content call).2 =
        (content ++ pushedBytes (call, (byteQueue content call).1)).drop
          (poppedCount (call, (byteQueue content call).1)) := by
  cases call with
  | push data =>
    cases data with
    | none => simp [byteQueue, pushedBytes, poppedCount]
    | some data =>
      by_cases hempty : data = []
      · simp [byteQueue, pushedBytes, poppedCount, hempty]
      · have hsize : ((content ++ data).length : ℤ) ≠ -1 := by omega
        simp only [byteQueue, if_neg hempty, pushedBytes, poppedCount, if_neg hsize]
        exact ⟨Nat.zero_le _, rfl⟩
  | pop sz =>
    by_cases hthere : 0 < sz ∧ sz ≤ content.length
    · have hsize : ((content.drop sz).length : ℤ) ≠ -1 := by omega
      simp only [byteQueue, if_pos hthere, pushedBytes, poppedCount, if_neg hsize, List.append_nil]
      exact ⟨hthere.2, trivial⟩
    · simp [byteQueue, pushedBytes, poppedCount, hthere]

/-- Every byte that a queue accepted is in it or was removed, and removed in the order of the
pushes. -/
theorem byteQueue_eq (content : Bytes) (calls : List MemchunkCall) :
    let record := calls.zip (answers byteQueue content calls).1
    (record.map poppedCount).sum ≤ (content ++ record.flatMap pushedBytes).length ∧
      (answers byteQueue content calls).2 =
        (content ++ record.flatMap pushedBytes).drop (record.map poppedCount).sum := by
  induction calls generalizing content with
  | nil => exact ⟨Nat.zero_le _, (List.append_nil content).symm⟩
  | cons call calls ih =>
    obtain ⟨hpopped, hnext⟩ := byteQueue_call content call
    obtain ⟨hle, heq⟩ := ih (byteQueue content call).2
    simp only [answers, List.zip_cons_cons, List.map_cons, List.sum_cons, List.flatMap_cons]
    rw [heq]
    generalize calls.zip (answers byteQueue (byteQueue content call).2 calls).1 = record at hle
    rw [hnext, List.length_append, List.length_drop] at hle
    rw [hnext, ← List.append_assoc, ← List.drop_append_of_le_length hpopped, List.drop_drop,
      List.length_append]
    exact ⟨by omega, rfl⟩

/-! ### The buffer refines the queue -/

/-- The stored bytes, a block to be pushed and one block size stay below `2 ^ 31`. -/
def HasRoom (chunk : Memchunk) : MemchunkCall → Prop
  | .push (some data) => chunk.datasize + data.length + chunk.blocksize < 2 ^ 31
  | _ => True

instance (chunk : Memchunk) : ∀ call, Decidable (chunk.HasRoom call)
  | .push (some data) =>
    inferInstanceAs (Decidable (chunk.datasize + data.length + chunk.blocksize < 2 ^ 31))
  | .push none => .isTrue trivial
  | .pop _ => .isTrue trivial

/-- A buffer of a block size that holds the bytes of a queue, fewer than `2 ^ 31`. -/
structure Stores (blksz : ℕ) (chunk : Memchunk) (content : Bytes) : Prop where
  holds : chunk.Holds content
  blocksize_eq : chunk.blocksize = blksz
  length_lt : content.length < 2 ^ 31

variable {blksz : ℕ} {chunk : Memchunk} {content : Bytes}

theorem Stores.length_buffer (hstores : Stores blksz chunk content) :
    chunk.buffer.length = chunk.buffersize := by
  obtain ⟨slack, hbuffer, hslack⟩ := hstores.holds.buffer_eq
  rw [hbuffer, List.length_append, hslack]

theorem Stores.datasize_le (hstores : Stores blksz chunk content) :
    chunk.datasize ≤ chunk.buffersize := by
  obtain ⟨slack, -, hslack⟩ := hstores.holds.buffer_eq
  rw [hstores.holds.datasize_eq]
  omega

theorem Stores.take_buffer (hstores : Stores blksz chunk content) :
    chunk.buffer.take chunk.datasize = content := by
  rw [hstores.holds.datasize_eq]
  exact (peek_eq hstores.holds le_rfl).trans List.take_length

/-- Assumes: room for the block. It is appended, by a copy into the buffer. -/
theorem Stores.push (alloc : Allocator) (hstores : Stores blksz chunk content) {data : Bytes}
    (hdata : data ≠ []) (hroom : chunk.HasRoom (.push (some data))) :
    ∃ next, chunk.pushWithin alloc (some data) = some (((content ++ data).length : ℤ), next) ∧
      Stores blksz next (content ++ data) := by
  have hbound : content.length + data.length + chunk.blocksize < 2 ^ 31 := by
    rw [← hstores.holds.datasize_eq]
    exact hroom
  obtain ⟨hrc, hholds, hblock⟩ := push_spec alloc hstores.holds hdata hbound
  have hlength : (content ++ data).length < 2 ^ 31 := by
    rw [List.length_append]
    omega
  refine ⟨(chunk.push alloc data).2, ?_, hholds, hblock.trans hstores.blocksize_eq, hlength⟩
  have htarget : (chunk.datasize + data.length) % 2 ^ 32 = (content ++ data).length := by
    rw [hstores.holds.datasize_eq, List.length_append, Nat.mod_eq_of_lt (by omega)]
  rw [pushWithin_eq, ← hrc]
  -- once the block has grown, all of the new size fits
  obtain ⟨hgrown, hfits, -⟩ := reserve_spec alloc hstores.holds (content ++ data).length
    (by rw [List.length_append]; omega) (by omega)
  obtain ⟨slack, hbuffer, hslack⟩ := hgrown.buffer_eq
  rw [htarget, hgrown.datasize_eq, hbuffer, List.length_append, hslack, ← List.length_append]
  exact hfits

/-- Assumes: as many bytes as are to be removed. They are removed from the front, by copies within
the buffer. -/
theorem Stores.pop (hstores : Stores blksz chunk content) {sz : ℕ} (hpos : 0 < sz)
    (hle : sz ≤ content.length) :
    ∃ next, chunk.popWithin sz = some (((content.drop sz).length : ℤ), next) ∧
      Stores blksz next (content.drop sz) := by
  obtain ⟨hholds, hblock⟩ := pop_spec hstores.holds hle
  have hlength : (content.drop sz).length < 2 ^ 31 := by
    have hlt := hstores.length_lt
    rw [List.length_drop]
    omega
  refine ⟨(chunk.pop sz).2, ?_, hholds, hblock.trans hstores.blocksize_eq, hlength⟩
  have hguard : ¬ (sz > chunk.datasize ∨ sz = 0) := by
    rw [hstores.holds.datasize_eq]
    omega
  have hrc : (chunk.pop sz).1 = (content.drop sz).length := by
    rw [Memchunk.pop, if_neg hguard, hstores.holds.datasize_eq, ← List.length_drop]
    exact asInt32_of_lt hlength
  rw [popWithin_eq (hstores.length_buffer ▸ hstores.datasize_le), ← hrc]

theorem Stores.pop_refused (hstores : Stores blksz chunk content) {sz : ℕ}
    (hguard : ¬(0 < sz ∧ sz ≤ content.length)) : chunk.popWithin sz = some (-1, chunk) := by
  have hdatasize := hstores.holds.datasize_eq
  rw [popWithin, if_pos (by omega)]

/-- A buffer refines a byte queue, as long as there is room for what is pushed. -/
theorem serve_refines (alloc : Allocator) (blksz : ℕ) :
    Refines (serve alloc) byteQueue HasRoom (Stores blksz) := by
  intro chunk content call hstores hroom
  match call with
  | .push none => exact ⟨chunk, pushWithin_none alloc chunk, hstores⟩
  | .push (some data) =>
    by_cases hempty : data = []
    · subst hempty
      exact ⟨chunk, pushWithin_nil alloc chunk, hstores⟩
    · rw [byteQueue, if_neg hempty]
      exact hstores.push alloc hempty hroom
  | .pop sz =>
    by_cases hthere : 0 < sz ∧ sz ≤ content.length
    · rw [byteQueue, if_pos hthere]
      exact hstores.pop hthere.1 hthere.2
    · rw [byteQueue, if_neg hthere]
      exact ⟨chunk, hstores.pop_refused hthere, hstores⟩

theorem stores_new (alloc : Allocator) (hblksz : 0 < blksz) : Stores blksz (new alloc blksz) [] :=
  ⟨holds_new alloc hblksz, rfl, by norm_num⟩

/-- What a buffer makes of its next call, in terms of its own fields: no call copies outside the
buffer, a block is appended and bytes are removed from the front for the new size, and a call that
is refused changes nothing. -/
structure Contract (alloc : Allocator) (chunk : Memchunk) : Prop where
  push : ∀ data, data ≠ [] → chunk.HasRoom (.push (some data)) →
    ∃ next, chunk.serve alloc (.push (some data)) = some ((next.datasize : ℤ), next) ∧
      next.datasize = chunk.datasize + data.length ∧
      next.buffer.take next.datasize = chunk.buffer.take chunk.datasize ++ data
  push_refused : ∀ data ∈ [none, some []],
    chunk.serve alloc (.push data) = some (-1, chunk)
  pop : ∀ sz, 0 < sz → sz ≤ chunk.datasize →
    ∃ next, chunk.serve alloc (.pop sz) = some ((next.datasize : ℤ), next) ∧
      next.datasize = chunk.datasize - sz ∧
      next.buffer.take next.datasize = (chunk.buffer.take chunk.datasize).drop sz
  pop_refused : ∀ sz, ¬(0 < sz ∧ sz ≤ chunk.datasize) →
    chunk.serve alloc (.pop sz) = some (-1, chunk)

theorem Stores.contract (alloc : Allocator) (hstores : Stores blksz chunk content) :
    chunk.Contract alloc where
  push := by
    intro data hdata hroom
    obtain ⟨next, hpush, hnext⟩ := hstores.push alloc hdata hroom
    refine ⟨next, ?_, ?_, ?_⟩
    · rw [hnext.holds.datasize_eq]
      exact hpush
    · rw [hnext.holds.datasize_eq, hstores.holds.datasize_eq, List.length_append]
    · rw [hnext.take_buffer, hstores.take_buffer]
  push_refused := by
    intro data hdata
    rcases List.mem_pair.mp hdata with rfl | rfl
    · exact pushWithin_none alloc chunk
    · exact pushWithin_nil alloc chunk
  pop := by
    intro sz hpos hle
    rw [hstores.holds.datasize_eq] at hle
    obtain ⟨next, hpop, hnext⟩ := hstores.pop hpos hle
    refine ⟨next, ?_, ?_, ?_⟩
    · rw [hnext.holds.datasize_eq]
      exact hpop
    · rw [hnext.holds.datasize_eq, hstores.holds.datasize_eq, List.length_drop]
    · rw [hnext.take_buffer, hstores.take_buffer]
  pop_refused := by
    intro sz hguard
    rw [hstores.holds.datasize_eq] at hguard
    exact hstores.pop_refused hguard

/-- Assumes: a positive block size, and room for every block pushed. Whatever the calls are, none of
them copies outside the buffer and the return codes are those of a byte queue. The size in use is
within the block, which is at least one block size long; the bytes in use are those of the accepted
pushes, in order, without those removed; and the next call is served by the same rules. -/
theorem serves_as_byteQueue (alloc : Allocator) (hblksz : 0 < blksz) (calls : List MemchunkCall)
    (hroom : Along (callStep (serve alloc)) HasRoom (new alloc blksz) calls) :
    ∃ rcs chunk, callAll (serve alloc) (new alloc blksz) calls = some (rcs, chunk) ∧
      rcs = (answers byteQueue [] calls).1 ∧
      chunk.datasize ≤ chunk.buffersize ∧ chunk.buffersize = chunk.buffer.length ∧
      blksz ≤ chunk.buffersize ∧
      ((calls.zip rcs).map poppedCount).sum ≤ ((calls.zip rcs).flatMap pushedBytes).length ∧
      chunk.buffer.take chunk.datasize =
        ((calls.zip rcs).flatMap pushedBytes).drop ((calls.zip rcs).map poppedCount).sum ∧
      chunk.Contract alloc := by
  obtain ⟨chunk, hcalls, hstores⟩ :=
    (serve_refines alloc blksz).callAll (stores_new alloc hblksz) hroom
  obtain ⟨hle, hcontent⟩ := byteQueue_eq [] calls
  have hblock : blksz ≤ chunk.buffersize := hstores.blocksize_eq ▸ hstores.holds.blocksize_le
  rw [List.nil_append] at hle hcontent
  exact ⟨_, chunk, hcalls, rfl, hstores.datasize_le, hstores.length_buffer.symm, hblock, hle,
    hstores.take_buffer.trans hcontent, hstores.contract alloc⟩

/-- A buffer of one-byte blocks that grows for the second byte, gives up the first, refuses to give
up two more and is emptied. -/
theorem serves_as_byteQueue_two :
    ∃ rcs chunk, callAll (serve .zeroing) (new .zeroing 1)
        [.push (some [7#8, 9#8]), .pop 1, .pop 2, .push (some [5#8]), .pop 2] = some (rcs, chunk) ∧
      rcs = [2, 1, -1, 2, 0] ∧ chunk.Contract .zeroing := by
  obtain ⟨rcs, chunk, hcalls, hrcs, -, -, -, -, -, hcontract⟩ :=
    serves_as_byteQueue .zeroing Nat.one_pos
      [.push (some [7#8, 9#8]), .pop 1, .pop 2, .push (some [5#8]), .pop 2] (by decide)
  exact ⟨rcs, chunk, hcalls, hrcs.trans (by decide), hcontract⟩

/-- Pushing an empty block onto an empty buffer is refused: what is returned is not the new size. -/
theorem push_empty_not_size :
    (new .zeroing 1).HasRoom (.push (some [])) ∧
      ¬∃ next, (new .zeroing 1).serve .zeroing (.push (some [])) =
        some ((next.datasize : ℤ), next) := by
  refine ⟨by decide, fun ⟨next, hserve⟩ ↦ ?_⟩
  have hpair := Option.some.inj ((pushWithin_nil .zeroing (new .zeroing 1)).symm.trans hserve)
  have hrc : (-1 : ℤ) = next.datasize := congrArg Prod.fst hpair
  omega

end Memchunk

/-! ### The receive path -/

/-- The receive side of a connection whose cache is within its limit, unless it was closed. -/
def RecvSide.WithinLimit (side : RecvSide) : Prop :=
  side.closed = true ∨ side.SameBytes side

/-- Assumes: an open connection within its limit, and a chunk of at most one read. There is room for
it in the cache. -/
theorem RecvSide.WithinLimit.hasRoom {side : RecvSide} (hwithin : side.WithinLimit)
    (hopen : side.closed = false) {chunk : Bytes} (hsize : chunk.length ≤ readSize) :
    side.recvCache.HasRoom (.push (some chunk)) := by
  rcases hwithin with hclosed | ⟨content, hcontent, -, hlength⟩
  · rw [hopen] at hclosed
    cases hclosed
  · rw [maxPendingSize] at hlength
    rw [readSize] at hsize
    rw [Memchunk.HasRoom, hcontent.holds.datasize_eq, hcontent.blocksize_eq, cacheBlockSize]
    omega

/-- Assumes: a read of at least one byte, and no more than one read returns. It leaves the cache
within its limit, or the connection closed. -/
theorem RecvSide.WithinLimit.readChunk (alloc : Allocator) (protocol : TcpMessageProtocol)
    {fuel : ℕ} {side : RecvSide} (hwithin : side.WithinLimit) {chunk : Bytes} (hchunk : chunk ≠ [])
    (hsize : chunk.length ≤ readSize) {outcome : ReadOutcome}
    (hread : Zbf.readChunk alloc protocol fuel side chunk = some outcome) :
    outcome.side.WithinLimit := by
  rcases hwithin with hclosed | hsame
  · have hrc : (side.onRecv alloc chunk).1 ≠ 0 := by
      rw [RecvSide.onRecv, if_pos hclosed]
      exact one_ne_zero
    rw [readChunk_of_refused hrc] at hread
    cases hread
    exact .inl rfl
  · obtain ⟨⟨outcome', hread', -, hsides⟩, hrefused⟩ :=
      readChunk_sameBytes alloc protocol hsame hchunk hsize hread
    cases hread.symm.trans hread'
    by_cases hrc : outcome.rc = 0
    · exact .inr (hsides hrc)
    · exact .inl (hrefused hrc).1

/-- Assumes: reads of at least one byte, and no more than one read returns. As long as the
connection is open, there is room in its cache for what was read. -/
theorem hasRoom_along_reads (alloc : Allocator) (protocol : TcpMessageProtocol) (fuel : ℕ)
    {chunks : List Bytes} (hchunks : ∀ chunk ∈ chunks, chunk ≠ [] ∧ chunk.length ≤ readSize) :
    Along (fun side chunk ↦ (readChunk alloc protocol fuel side chunk).map ReadOutcome.side)
      (fun side chunk ↦ side.closed = false → side.recvCache.HasRoom (.push (some chunk)))
      (RecvSide.new alloc) chunks := by
  refine along_of_invariant RecvSide.WithinLimit ?_ ?_ ?_
  · intro side chunk hmem next hwithin hstep
    obtain ⟨outcome, hread, rfl⟩ := Option.map_eq_some_iff.mp hstep
    exact hwithin.readChunk alloc protocol (hchunks chunk hmem).1 (hchunks chunk hmem).2 hread
  · intro side chunk hmem hwithin hopen
    exact hwithin.hasRoom hopen (hchunks chunk hmem).2
  · exact .inr ⟨[], RecvSide.open_new alloc, RecvSide.open_new alloc, Nat.zero_le _⟩

end TszyUlt.Zbf
