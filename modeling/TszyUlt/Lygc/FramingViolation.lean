import TszyUlt.Lygc.StreamReassembly

/-!
# A header that announces too large a body

`_PopMsg` of `zbf/socket_tcp_v5.hpp` gives the whole receive cache up when a header announces a body
above the limit, and returns no message. The read loops see no difference to a message that is not
complete yet, and read on: the next read is framed as if the stream began there. (`read_body` of
`zbf/asio_socket_tcp.hpp` closes the connection in the same place.)

`delivered_of_stopsAtViolation` says what a connection delivers as long as nothing is read behind
such a header: messages of the stream, the same ones for every chunking that fits the cache.
`frame_behind_violation` says that any other run can be continued to one that delivers bytes from
behind the header. Both are about any protocol that the transport can work with, and about
`tcpsock_user` and `tcpsock_asynclt` alike, which share the receive path.
-/

set_option autoImplicit false
set_option relaxedAutoImplicit false

namespace TszyUlt.Lygc

open Lib Zbf

variable {alloc : Allocator} {protocol : TcpMessageProtocol} {fuel : ℕ} {side : RecvSide}
variable {content chunk : Bytes} {chunks : List Bytes}

/-- The bytes of the messages that a run of reads returned. -/
def deliveredBytes (outcomes : List ReadOutcome) : List Bytes :=
  (outcomes.flatMap ReadOutcome.msgs).map TcpMessage.data

theorem deliveredBytes_cons (outcome : ReadOutcome) (outcomes : List ReadOutcome) :
    deliveredBytes (outcome :: outcomes) =
      outcome.msgs.map TcpMessage.data ++ deliveredBytes outcomes := by
  rw [deliveredBytes, List.flatMap_cons, List.map_append]
  rfl

/-- Nothing is read once the bytes received have, behind their frames, a header that announces a
body above the limit. -/
def StopsAtViolation (format : FrameFormat Byte) (content : Bytes) (chunks : List Bytes) : Prop :=
  ∀ before chunk after, chunks = before ++ chunk :: after →
    ¬format.Violated (content ++ before.flatten)

/-- What remains of the bytes received never exceeds the cache together with a read. -/
def FitsCache (format : FrameFormat Byte) (content : Bytes) (chunks : List Bytes) : Prop :=
  ∀ before chunk after, chunks = before ++ chunk :: after →
    (format.restOf (content ++ before.flatten) ++ chunk).length ≤ maxPendingSize

section Rest

variable {format : FrameFormat Byte}

theorem StopsAtViolation.tail (hstops : StopsAtViolation format content (chunk :: chunks)) :
    StopsAtViolation format (format.restOf (content ++ chunk)) chunks := by
  intro before other after hsplit hviolated
  refine hstops (chunk :: before) other after (by rw [hsplit]; rfl) ?_
  rw [List.flatten_cons, ← List.append_assoc]
  exact (format.violated_append_iff _ _).mpr hviolated

theorem FitsCache.tail (hfits : FitsCache format content (chunk :: chunks)) :
    FitsCache format (format.restOf (content ++ chunk)) chunks := by
  intro before other after hsplit
  have hbound := hfits (chunk :: before) other after (by rw [hsplit]; rfl)
  rwa [List.flatten_cons, ← List.append_assoc, format.restOf_append_eq] at hbound

theorem FitsCache.head (hfits : FitsCache format content (chunk :: chunks))
    (hcontent : format.restOf content = content) : (content ++ chunk).length ≤ maxPendingSize := by
  have hbound := hfits [] chunk chunks rfl
  rwa [List.flatten_nil, List.append_nil, hcontent] at hbound

theorem restOf_restOf (stream : Bytes) :
    format.restOf (format.restOf stream) = format.restOf stream := by
  have happend := format.restOf_append_eq stream []
  rwa [List.append_nil, List.append_nil, eq_comm] at happend

theorem length_restOf_le (stream : Bytes) : (format.restOf stream).length ≤ stream.length := by
  rw [FrameFormat.restOf, List.length_drop]
  exact Nat.sub_le _ _

theorem framesOf_of_restOf_eq (hcontent : format.restOf content = content) :
    format.framesOf content = [] := by
  have hnext := format.next_restOf content
  rw [hcontent] at hnext
  exact FrameFormat.framesOf_of_next_none _ hnext

/-- Behind a header that announces too large a body a stream has no frames. -/
theorem framesOf_append_of_violated {stream : Bytes} (hviolated : format.Violated stream)
    (more : Bytes) : format.framesOf (stream ++ more) = format.framesOf stream := by
  obtain ⟨hheader, hbody⟩ := hviolated
  have htake : (format.restOf stream ++ more).take format.headerSize =
      (format.restOf stream).take format.headerSize := List.take_append_of_le_length hheader
  have hnext : format.next (format.restOf stream ++ more) = (none, []) := by
    rw [FrameFormat.next, if_neg (by rw [List.length_append]; omega), htake, if_pos hbody]
  rw [format.framesOf_append_eq, FrameFormat.framesOf_of_next_none _ hnext, List.append_nil]

end Rest

/-- Assumes: an open connection whose cache holds the rest of the bytes received, and reads that
stop at a violation. All reads have an outcome, the messages are frames of the stream in their
order, from the first on, and all of its frames if the reads fit the cache. -/
theorem readChunks_of_stopsAtViolation (hprotocol : protocol.Framable)
    (hfuel : maxPendingSize < fuel)
    (hchunks : ∀ chunk ∈ chunks, chunk ≠ [] ∧ chunk.length ≤ readSize) (hopen : side.Open content)
    (hlength : content.length ≤ maxPendingSize)
    (hcontent : hprotocol.format.restOf content = content)
    (hstops : StopsAtViolation hprotocol.format content chunks) :
    ∃ outcomes, readChunks alloc protocol fuel side chunks = some outcomes ∧
      deliveredBytes outcomes <+: hprotocol.format.framesOf (content ++ chunks.flatten) ∧
      (FitsCache hprotocol.format content chunks →
        deliveredBytes outcomes = hprotocol.format.framesOf (content ++ chunks.flatten)) := by
  induction chunks generalizing side content with
  | nil =>
    have hnone : hprotocol.format.framesOf (content ++ List.flatten []) = [] := by
      rw [List.flatten_nil, List.append_nil, framesOf_of_restOf_eq hcontent]
    exact ⟨[], rfl, List.nil_prefix, fun _ ↦ hnone.symm⟩
  | cons chunk chunks ih =>
    obtain ⟨hchunk, hsize⟩ := hchunks chunk List.mem_cons_self
    by_cases hlimit : (content ++ chunk).length ≤ maxPendingSize
    · obtain ⟨msgs, side', hread, hmsgs, hside⟩ :=
        readChunk_anyBytes alloc hprotocol hopen hchunk hlimit hfuel
      have hframes : hprotocol.format.framesOf (content ++ (chunk :: chunks).flatten) =
          msgs.map TcpMessage.data ++ hprotocol.format.framesOf
            (hprotocol.format.restOf (content ++ chunk) ++ chunks.flatten) := by
        rw [List.flatten_cons, ← List.append_assoc, FrameFormat.framesOf_append_eq, hmsgs]
      by_cases hviolated : hprotocol.format.Violated (content ++ chunk)
      · -- nothing is read behind the header
        have hlast : chunks = [] := by
          cases chunks with
          | nil => rfl
          | cons next rest =>
            refine absurd hviolated ?_
            have hnot := hstops [chunk] next rest rfl
            rwa [List.flatten_singleton] at hnot
        subst hlast
        refine ⟨_, readChunks_cons hread rfl, ?_⟩
        rw [hframes, deliveredBytes_cons, List.flatten_nil, List.append_nil,
          framesOf_of_restOf_eq (restOf_restOf _)]
        exact ⟨List.prefix_rfl, fun _ ↦ rfl⟩
      · rw [if_neg hviolated] at hside
        obtain ⟨outcomes, hreads, hfront, hall⟩ :=
          ih (fun other hother ↦ hchunks other (List.mem_cons_of_mem _ hother)) hside
            ((length_restOf_le _).trans hlimit) (restOf_restOf _) hstops.tail
        refine ⟨_, readChunks_cons hread hreads, ?_⟩
        rw [hframes, deliveredBytes_cons]
        exact ⟨(List.prefix_append_right_inj _).mpr hfront,
          fun hfits ↦ congrArg _ (hall hfits.tail)⟩
    · have hbound : (content ++ chunk).length ≤ maxPendingSize + readSize := by
        rw [List.length_append]
        omega
      obtain ⟨hrc, -⟩ := RecvSide.onRecv_spec alloc hopen hchunk hbound
      rw [if_pos (not_le.mp hlimit)] at hrc
      have hrefused : (side.onRecv alloc chunk).1 ≠ 0 := by simp [hrc]
      have hclosed : { (side.onRecv alloc chunk).2 with closed := true }.closed = true := rfl
      obtain ⟨outcomes, hreads, hmsgs⟩ := readChunks_of_closed alloc protocol fuel hclosed chunks
      refine ⟨_, readChunks_cons (readChunk_of_refused hrefused protocol fuel) hreads, ?_,
        fun hfits ↦ absurd (hfits.head hcontent) hlimit⟩
      rw [deliveredBytes_cons, deliveredBytes, hmsgs]
      exact List.nil_prefix

/-- Assumes: an open connection, a read that reaches a header that announces too large a body, and
behind it a read that is a frame. The frame is returned, although it is no frame of the stream. -/
theorem frame_behind_violation (hprotocol : protocol.Framable) (hfuel : maxPendingSize < fuel)
    (hopen : side.Open content) (hchunk : chunk ≠ [])
    (hlimit : (content ++ chunk).length ≤ maxPendingSize)
    (hviolated : hprotocol.format.Violated (content ++ chunk)) {frame : Bytes}
    (hframe : hprotocol.format.IsFrame frame) (hsize : frame.length ≤ maxPendingSize) :
    ∃ outcomes, readChunks alloc protocol fuel side [chunk, frame] = some outcomes ∧
      deliveredBytes outcomes =
        hprotocol.format.framesOf (content ++ chunk ++ frame) ++ [frame] := by
  obtain ⟨msgs, side', hread, hmsgs, hside⟩ :=
    readChunk_anyBytes alloc hprotocol hopen hchunk hlimit hfuel
  rw [if_pos hviolated] at hside
  have hnonempty : frame ≠ [] := by
    have hheader := hframe.header_le
    have hpos := hprotocol.format.headerSize_pos
    exact List.ne_nil_of_length_pos (hpos.trans_le hheader)
  obtain ⟨later, side'', hreadFrame, hlater, -⟩ :=
    readChunk_anyBytes alloc hprotocol hside hnonempty hsize hfuel
  have halone : hprotocol.format.framesOf frame = [frame] := by
    have hempty : hprotocol.format.framesOf [] = [] :=
      FrameFormat.framesOf_of_short hprotocol.format.headerSize_pos
    have happend := FrameFormat.framesOf_append hframe []
    rwa [List.append_nil, hempty] at happend
  refine ⟨_, readChunks_cons hread (readChunks_cons hreadFrame rfl), ?_⟩
  rw [deliveredBytes_cons, deliveredBytes_cons, framesOf_append_of_violated hviolated, hmsgs,
    hlater, List.nil_append, halone]
  rfl

end TszyUlt.Lygc
