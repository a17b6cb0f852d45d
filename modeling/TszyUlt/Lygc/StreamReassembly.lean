import TszyUlt.Zbf.RecvPath
import TszyUlt.Lygc.LymsgProtocol

/-!
# Reassembly of lymsg frames

The receive path of `zbf/socket_tcp_v5.hpp` under `lymsg_protocol`. The protocol is one the
transport can work with (`lymsgProtocol_framable`): a header is 20 bytes, and a header with a body
of at most 16 MiB is a 32-bit size. `isFrame_of_isLymsgFrame` reads the frames of the protocol,
whose header announces the length of the body after it, as frames of the format that the receive
path cuts.

`lymsg_stream_reassembly` is then the whole run of reads on a fresh connection: whatever the
boundaries of the chunks, the messages are the frames.
-/

set_option autoImplicit false
set_option relaxedAutoImplicit false

namespace TszyUlt.Lygc

open Lib Zbf

theorem lymsgProtocol_framable (order : ByteOrder) : (lymsgProtocol order).Framable where
  headerSize_pos := by
    show 0 < (BitVec.ofNat 32 headerBytes).toNat
    decide
  total_lt := by
    show (BitVec.ofNat 32 headerBytes).toNat + defaultMaxBodySize.toNat < 2 ^ 32
    decide

/-- A frame of the protocol: a header and the body whose length it announces. -/
structure IsLymsgFrame (order : ByteOrder) (frame : TcpMessage) : Prop where
  header_le : headerBytes ≤ frame.data.length
  size_eq : (lymsgBodySize order frame).toNat = frame.data.length - headerBytes

/-- The length of the body is read off the header alone. -/
theorem lymsgBodySize_take_header (order : ByteOrder) (bytes : Bytes)
    (hheader : headerBytes ≤ bytes.length) :
    lymsgBodySize order ⟨bytes.take headerBytes⟩ = lymsgBodySize order ⟨bytes⟩ := by
  have hlength : (bytes.take headerBytes).length = headerBytes := List.length_take_of_le hheader
  have hsize : ((bytes.take headerBytes).drop 16).take 4 = (bytes.drop 16).take 4 := by
    rw [headerBytes, List.drop_take, List.take_take]
    rfl
  rw [lymsgBodySize, lymsgBodySize, if_neg (by rw [hlength]; exact lt_irrefl _),
    if_neg (not_lt.mpr hheader)]
  exact congrArg (fun size ↦ ntohl order (load order 32 size)) hsize

/-- A packed message is a frame, as long as its size fits the size field. -/
theorem isLymsgFrame_packMsg (order : ByteOrder) (header : LymsgHeader) (data : Bytes)
    (hdata : data.length < 2 ^ 32) : IsLymsgFrame order (packMsg order header data) where
  header_le := by
    rw [length_packMsg]
    exact Nat.le_add_right _ _
  size_eq := by
    rw [lymsgBodySize_packMsg, BitVec.toNat_ofNat, Nat.mod_eq_of_lt hdata, length_packMsg,
      Nat.add_sub_cancel_left]

/-- Assumes: a frame that leaves room for one more read in the cache. Such a frame is within the
limit of the protocol as well. -/
theorem isFrame_of_isLymsgFrame (order : ByteOrder) {frame : TcpMessage}
    (hframe : IsLymsgFrame order frame)
    (hlength : frame.data.length ≤ maxPendingSize - (readSize - 1)) :
    (lymsgProtocol_framable order).format.IsFrame frame.data := by
  have hbody : (lymsgProtocol_framable order).format.bodySize
      (frame.data.take (lymsgProtocol_framable order).format.headerSize) =
        frame.data.length - headerBytes := by
    show (lymsgBodySize order ⟨frame.data.take headerBytes⟩).toNat = _
    rw [lymsgBodySize_take_header order _ hframe.header_le]
    exact hframe.size_eq
  have hheader : (lymsgProtocol_framable order).format.headerSize = headerBytes := rfl
  have hlimit : (lymsgProtocol_framable order).format.maxBodySize = 16777216 := rfl
  have hle := hframe.header_le
  refine ⟨hle, ?_, ?_⟩
  · rw [hbody, hlimit]
    rw [maxPendingSize, readSize] at hlength
    omega
  · rw [FrameFormat.totalSize, hbody, hheader]
    omega

/-- Assumes: frames of the protocol that leave room for one more read in the cache, their
concatenation cut into non-empty chunks of at most one read, and a drain loop that is not stopped
before the cache could be empty. On a fresh connection no read is refused and every drain ends, the
messages returned are the frames, in order and once each, and after each read the cache holds a
proper prefix of the first frame not yet returned. -/
theorem lymsg_stream_reassembly (alloc : Allocator) (order : ByteOrder) (frames : List TcpMessage)
    (hframes : ∀ frame ∈ frames, IsLymsgFrame order frame ∧
      frame.data.length ≤ maxPendingSize - (readSize - 1))
    (chunks : List Bytes) (hchunks : ∀ chunk ∈ chunks, chunk ≠ [] ∧ chunk.length ≤ readSize)
    (hcut : chunks.flatten = (frames.map TcpMessage.data).flatten) (fuel : ℕ)
    (hfuel : maxPendingSize < fuel) :
    ∃ outcomes,
      readChunks alloc (lymsgProtocol order) fuel (RecvSide.new alloc) chunks = some outcomes ∧
      outcomes.length = chunks.length ∧ (∀ outcome ∈ outcomes, outcome.rc = 0) ∧
      outcomes.flatMap ReadOutcome.msgs = frames ∧
      ∀ before outcome after, outcomes = before ++ outcome :: after →
        ∃ count held, (before ++ [outcome]).flatMap ReadOutcome.msgs = frames.take count ∧
          outcome.side.recvCache.Holds held ∧
          Pending ((frames.drop count).map TcpMessage.data) held := by
  have hpending : Pending (frames.map TcpMessage.data) [] := by
    cases frames with
    | nil => rfl
    | cons frame frames =>
      have hheader := (hframes frame List.mem_cons_self).1.header_le
      rw [headerBytes] at hheader
      refine ⟨List.nil_prefix, ?_⟩
      rw [List.length_nil]
      omega
  obtain ⟨outcomes, hreads, hlength, hdelivers⟩ :=
    readChunks_spec alloc (lymsgProtocol_framable order) chunks hchunks hfuel frames
      (fun frame hframe ↦ ⟨isFrame_of_isLymsgFrame order (hframes frame hframe).1
        (hframes frame hframe).2, (hframes frame hframe).2⟩)
      (RecvSide.open_new alloc) hpending (by rw [List.nil_append, hcut])
  exact ⟨outcomes, hreads, hlength, hdelivers.rc_eq_zero, hdelivers.flatMap_msgs,
    fun before outcome after hsplit ↦ hdelivers.held_after hsplit⟩

/-- Two heartbeats, cut inside the header of each. -/
theorem lymsg_stream_reassembly_heartbeats :
    ∃ outcomes,
      readChunks .zeroing (lymsgProtocol .little) 10485761 (RecvSide.new .zeroing)
        [(lymsgHeartbeat .little).data.take 5,
          (lymsgHeartbeat .little).data.drop 5 ++ (lymsgHeartbeat .little).data.take 3,
          (lymsgHeartbeat .little).data.drop 3] = some outcomes ∧
      outcomes.flatMap ReadOutcome.msgs = [lymsgHeartbeat .little, lymsgHeartbeat .little] := by
  obtain ⟨outcomes, hreads, -, -, hmsgs, -⟩ :=
    lymsg_stream_reassembly .zeroing .little [lymsgHeartbeat .little, lymsgHeartbeat .little]
      (by
        intro frame hframe
        rcases List.mem_pair.mp hframe with rfl | rfl
        all_goals exact ⟨⟨by decide, by decide⟩, by decide⟩)
      [(lymsgHeartbeat .little).data.take 5,
        (lymsgHeartbeat .little).data.drop 5 ++ (lymsgHeartbeat .little).data.take 3,
        (lymsgHeartbeat .little).data.drop 3]
      (by decide) (by decide) 10485761 (by decide)
  exact ⟨outcomes, hreads, hmsgs⟩

end TszyUlt.Lygc
