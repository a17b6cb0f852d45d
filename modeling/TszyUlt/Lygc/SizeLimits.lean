import TszyUlt.Lygc.StreamReassembly

/-!
# Which messages fit the receive cache

`packMsg` of `lygc/lymsg_protocol.hpp` packs a body of any length, `_PopMsg` of
`zbf/socket_tcp_v5.hpp` accepts a header that announces up to `MaxBodySize` bytes, and `onRecv`
refuses a read with which the receive cache exceeds `MaxPendingSize`. The last limit is the smallest
one, and it is tested before `_PopMsg` has a chance to cut off a message that the read has
completed. `delivered_iff` is the resulting limit on bodies: of the messages that the framing
accepts those are delivered that fit the cache as a whole, header included, and on the others the
connection is closed, however the bytes are cut into reads.
-/

set_option autoImplicit false
set_option relaxedAutoImplicit false

namespace TszyUlt.Lygc

open Lib Zbf

/-! ### Packed messages as frames -/

section Packed

variable (sender receiver : ByteOrder) (header : LymsgHeader) (data : Bytes)

/-- Whatever the byte orders of the hosts, the receiver reads the length of the body. -/
theorem lymsgBodySize_packMsg_of_sender :
    lymsgBodySize receiver (packMsg sender header data) = BitVec.ofNat 32 data.length := by
  have hlong : ¬(packMsg sender header data).data.length < headerBytes := by
    rw [length_packMsg]
    omega
  have hunpack := unpackMsg_packMsg sender header data receiver
  rw [unpackMsg, if_neg hlong, Except.ok.injEq, Prod.mk.injEq] at hunpack
  rw [lymsgBodySize, if_neg hlong]
  exact congrArg LymsgHeader.size hunpack.1

variable {data}

/-- A packed message within the limit of the protocol is a frame. -/
theorem isFrame_packMsg (hdata : data.length ≤ (lymsgProtocol receiver).maxBodySize.toNat) :
    (lymsgProtocol_framable receiver).format.IsFrame (packMsg sender header data).data := by
  have hlength := length_packMsg sender header data
  have hsmall : data.length < 2 ^ 32 := hdata.trans_lt (BitVec.isLt _)
  have hbody : (lymsgProtocol_framable receiver).format.bodySize
      ((packMsg sender header data).data.take
        (lymsgProtocol_framable receiver).format.headerSize) = data.length := by
    show (lymsgBodySize receiver ⟨(packMsg sender header data).data.take headerBytes⟩).toNat = _
    rw [lymsgBodySize_take_header receiver _ (by omega), lymsgBodySize_packMsg_of_sender,
      BitVec.toNat_ofNat, Nat.mod_eq_of_lt hsmall]
  refine ⟨?_, ?_, ?_⟩
  · show headerBytes ≤ _
    omega
  · rw [hbody]
    exact hdata
  · rw [FrameFormat.totalSize, hbody, hlength]
    rfl

end Packed

/-! ### One frame as the only traffic -/

section OneFrame

variable {alloc : Allocator} {protocol : TcpMessageProtocol} {fuel : ℕ} {side : RecvSide}
variable {chunks : List Bytes} {content : Bytes}

/-- Assumes: frames that fit the cache all together. However they are cut, all reads are accepted
and return the frames. -/
theorem readChunks_of_fits (hprotocol : protocol.Framable) (hfuel : maxPendingSize < fuel)
    (hchunks : ∀ chunk ∈ chunks, chunk ≠ []) {frames : List TcpMessage}
    (hframes : ∀ frame ∈ frames, hprotocol.format.IsFrame frame.data) (hopen : side.Open content)
    (hcontent : Pending (frames.map TcpMessage.data) content)
    (hstream : content ++ chunks.flatten = (frames.map TcpMessage.data).flatten)
    (hfits : (content ++ chunks.flatten).length ≤ maxPendingSize) :
    ∃ outcomes, readChunks alloc protocol fuel side chunks = some outcomes ∧
      Delivers frames outcomes := by
  induction chunks generalizing frames side content with
  | nil =>
    rw [List.flatten_nil, List.append_nil] at hstream
    exact ⟨[], rfl, Pending.eq_nil hcontent hstream⟩
  | cons chunk chunks ih =>
    rw [List.flatten_cons, ← List.append_assoc] at hstream hfits
    have hlimit : (content ++ chunk).length ≤ maxPendingSize := by
      rw [List.length_append] at hfits
      omega
    obtain ⟨count, hcount, side', held, hread, hside, hpending, hrest⟩ :=
      readChunk_spec alloc hprotocol frames hframes hopen (hchunks chunk List.mem_cons_self) hlimit
        hstream hfuel
    have hrestFits : (held ++ chunks.flatten).length ≤ maxPendingSize := by
      have hsplit : ((frames.map TcpMessage.data).take count).flatten ++
          ((frames.map TcpMessage.data).drop count).flatten =
            (frames.map TcpMessage.data).flatten := by
        rw [← List.flatten_append, List.take_append_drop]
      rw [hrest, List.map_drop]
      rw [hstream, ← hsplit, List.length_append] at hfits
      omega
    obtain ⟨outcomes, hreads, hdelivers⟩ :=
      ih (fun other hother ↦ hchunks other (List.mem_cons_of_mem _ hother))
        (fun frame hframe ↦ hframes frame (List.mem_of_mem_drop hframe)) hside hpending hrest
        hrestFits
    exact ⟨_, readChunks_cons hread hreads,
      count, hcount, rfl, rfl, ⟨held, hside.holds, hpending⟩, hdelivers⟩

/-- Assumes: a frame longer than the cache, of which the cache holds a part. However the rest is
cut, a read exceeds the cache. -/
theorem readChunks_of_tooLong (hprotocol : protocol.Framable) (hfuel : maxPendingSize < fuel)
    (hchunks : ∀ chunk ∈ chunks, chunk ≠ [] ∧ chunk.length ≤ readSize) {frame : TcpMessage}
    (hframe : hprotocol.format.IsFrame frame.data) (hlong : maxPendingSize < frame.data.length)
    (hopen : side.Open content) (hcontent : content.length ≤ maxPendingSize)
    (hstream : content ++ chunks.flatten = frame.data) :
    ∃ outcomes, readChunks alloc protocol fuel side chunks = some outcomes ∧
      ∃ outcome ∈ outcomes, outcome.rc = 3 := by
  induction chunks generalizing side content with
  | nil =>
    rw [List.flatten_nil, List.append_nil] at hstream
    rw [hstream] at hcontent
    exact absurd hcontent (not_le.mpr hlong)
  | cons chunk chunks ih =>
    obtain ⟨hchunk, hsize⟩ := hchunks chunk List.mem_cons_self
    rw [List.flatten_cons, ← List.append_assoc] at hstream
    by_cases hlimit : (content ++ chunk).length ≤ maxPendingSize
    · -- the frame is still incomplete, so the read leaves the bytes in the cache
      obtain ⟨count, hcount, side', held, hread, hside, hpending, hrest⟩ :=
        readChunk_spec alloc hprotocol [frame] (by simpa using hframe) hopen hchunk hlimit
          (hstream.trans (by simp)) hfuel
      have hzero : count = 0 := by
        by_contra hpositive
        have hall : count = 1 := by
          rw [List.length_singleton] at hcount
          omega
        subst hall
        -- the frame would have been complete within the limit
        have hdone : chunks.flatten = [] := (List.append_eq_nil_iff.mp hrest).2
        rw [hdone, List.append_nil] at hstream
        rw [hstream] at hlimit
        omega
      subst hzero
      have hheld : held ++ chunks.flatten = frame.data := hrest.trans (by simp)
      have hwithin : held.length ≤ maxPendingSize := by
        have hsame := congrArg List.length (hheld.trans hstream.symm)
        rw [List.length_append, List.length_append] at hsame
        omega
      obtain ⟨outcomes, hreads, outcome, hmem, hrc⟩ :=
        ih (fun other hother ↦ hchunks other (List.mem_cons_of_mem _ hother)) hside
          hwithin hheld
      exact ⟨_, readChunks_cons hread hreads, outcome, List.mem_cons_of_mem _ hmem, hrc⟩
    · have hbound : (content ++ chunk).length ≤ maxPendingSize + readSize := by
        rw [List.length_append]
        omega
      obtain ⟨hrc, -⟩ := RecvSide.onRecv_spec alloc hopen hchunk hbound
      rw [if_pos (not_le.mp hlimit)] at hrc
      have hrefused : (side.onRecv alloc chunk).1 ≠ 0 := by simp [hrc]
      have hagain : { (side.onRecv alloc chunk).2 with closed := true }.closed = true := rfl
      obtain ⟨outcomes, hreads, -⟩ := readChunks_of_closed alloc protocol fuel hagain chunks
      exact ⟨_, readChunks_cons (readChunk_of_refused hrefused protocol fuel) hreads, _,
        List.mem_cons_self, hrc⟩

end OneFrame

/-! ### One message as the only traffic -/

/-- Assumes: a body within the limit of the protocol, and its packed message cut into non-empty
chunks of at most one read. On a fresh connection all reads have an outcome. None of them is refused
and the message is returned, whole and once, exactly if the message fits the cache. -/
theorem delivered_iff (alloc : Allocator) (sender receiver : ByteOrder) (header : LymsgHeader)
    {data : Bytes} (hdata : data.length ≤ (lymsgProtocol receiver).maxBodySize.toNat)
    {chunks : List Bytes} (hchunks : ∀ chunk ∈ chunks, chunk ≠ [] ∧ chunk.length ≤ readSize)
    (hcut : chunks.flatten = (packMsg sender header data).data) {fuel : ℕ}
    (hfuel : maxPendingSize < fuel) :
    ∃ outcomes,
      readChunks alloc (lymsgProtocol receiver) fuel (RecvSide.new alloc) chunks =
        some outcomes ∧
      ((∀ outcome ∈ outcomes, outcome.rc = 0) ∧
          outcomes.flatMap ReadOutcome.msgs = [packMsg sender header data] ↔
        headerBytes + data.length ≤ maxPendingSize) := by
  have hframe := isFrame_packMsg sender receiver header hdata
  have hlength := length_packMsg sender header data
  rcases Nat.lt_or_ge maxPendingSize (headerBytes + data.length) with hlong | hfits
  · obtain ⟨outcomes, hreads, outcome, hmem, hrc⟩ :=
      readChunks_of_tooLong (lymsgProtocol_framable receiver) hfuel hchunks hframe
        (hlength.symm ▸ hlong) (RecvSide.open_new alloc) (Nat.zero_le _)
        (by rw [List.nil_append, hcut])
    refine ⟨outcomes, hreads, iff_of_false (fun hall ↦ ?_) (not_le.mpr hlong)⟩
    have hzero := hall.1 outcome hmem
    rw [hrc] at hzero
    cases hzero
  · have hpending : Pending ([packMsg sender header data].map TcpMessage.data) [] := by
      refine ⟨List.nil_prefix, ?_⟩
      rw [hlength, headerBytes, List.length_nil]
      omega
    obtain ⟨outcomes, hreads, hdelivers⟩ :=
      readChunks_of_fits (lymsgProtocol_framable receiver) hfuel
        (fun chunk hchunk ↦ (hchunks chunk hchunk).1) (by simpa using hframe)
        (RecvSide.open_new alloc) hpending (by rw [List.nil_append, hcut]; simp)
        (by rw [List.nil_append, hcut, hlength]; exact hfits)
    exact ⟨outcomes, hreads, iff_of_true ⟨hdelivers.rc_eq_zero, hdelivers.flatMap_msgs⟩ hfits⟩

/-- A message of one byte, read a byte at a time. -/
theorem delivered_iff_oneByte :
    ∃ outcomes,
      readChunks .zeroing (lymsgProtocol .little) 10485761 (RecvSide.new .zeroing)
        ((packMsg .little ⟨1, 0, 0x21#32, 0#64, 0⟩ [7#8]).data.map fun byte ↦ [byte]) =
          some outcomes ∧
      ((∀ outcome ∈ outcomes, outcome.rc = 0) ∧
          outcomes.flatMap ReadOutcome.msgs =
            [packMsg .little ⟨1, 0, 0x21#32, 0#64, 0⟩ [7#8]] ↔
        headerBytes + 1 ≤ maxPendingSize) :=
  delivered_iff .zeroing .little .little ⟨1, 0, 0x21#32, 0#64, 0⟩ (by decide) (by decide)
    (by decide) (by decide)

/-- A body of 16777216 bytes, the limit of the protocol, received a byte at a time: a read exceeds
the cache. -/
theorem refused_maxBodySize :
    ∃ outcomes,
      readChunks .zeroing (lymsgProtocol .little) 10485761 (RecvSide.new .zeroing)
        ((packMsg .little ⟨1, 0, 0x21#32, 0#64, 0⟩ (List.replicate 16777216 7#8)).data.map
          fun byte ↦ [byte]) = some outcomes ∧
      ∃ outcome ∈ outcomes, outcome.rc = 3 := by
  set data : Bytes := List.replicate 16777216 7#8
  have hdata : data.length = 16777216 := List.length_replicate
  have hlimit : data.length ≤ (lymsgProtocol .little).maxBodySize.toNat := by
    rw [hdata]
    decide
  have hlong : maxPendingSize < (packMsg .little ⟨1, 0, 0x21#32, 0#64, 0⟩ data).data.length := by
    rw [length_packMsg, hdata]
    decide
  refine readChunks_of_tooLong (lymsgProtocol_framable .little) (by decide) ?_
    (isFrame_packMsg .little .little ⟨1, 0, 0x21#32, 0#64, 0⟩ hlimit) hlong
    (RecvSide.open_new .zeroing) (Nat.zero_le _) ?_
  · intro chunk hchunk
    obtain ⟨byte, -, rfl⟩ := List.mem_map.mp hchunk
    exact ⟨by simp, by simp [readSize]⟩
  · rw [List.nil_append, ← List.flatMap_def, List.flatMap_singleton']

end TszyUlt.Lygc
