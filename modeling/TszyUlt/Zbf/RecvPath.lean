import TszyUlt.Lib.Framing
import TszyUlt.Zbf.Memchunk

/-!
# The receive path of a connection

`zbf/socket_tcp_v5.hpp`: `_PopMsg`, `onRecv` and `getRecvMsg`, and the read branch of the event
loops. `tcpsock_user` and `tcpsock_asynclt` have the same receive path, with the same constants: a
cache of received bytes and a closed flag (`RecvSide`). A chunk read from the socket is appended to
the cache (`onRecv`), and frames are cut off its front until none is complete (`getRecvMsg`), or the
connection is closed when the append was refused (`readChunk`).

`popMsg_spec` says what `popMsg` is on the bytes the cache holds (`nextMsg`), and `nextMsg_eq_next`
that this is the attempt to cut one frame of `Lib.FrameFormat.next`. With them `readChunk_spec` is
one read on an open connection, and `readChunks_spec` a whole run of reads: for every way of cutting
a concatenation of frames into chunks, no read is refused, every drain ends, the messages are the
frames in order, and after each drain the cache holds a proper prefix of the next frame
(`Delivers`).

Scope. The heartbeat time that `tcpsock_user::getRecvMsg` updates is not part of the receive path
and is not modelled.
-/

set_option autoImplicit false
set_option relaxedAutoImplicit false

namespace TszyUlt.Zbf

open Lib

/-! ### Cutting a message off the cache -/

/-- `_PopMsg`: the message, if one is complete, and the cache afterwards. A header that announces a
body above the limit makes it drop the whole cache. -/
def popMsg (protocol : TcpMessageProtocol) (recvCache : Memchunk) : Option TcpMessage × Memchunk :=
  let headerSz := protocol.headerSize.toNat
  if recvCache.datasize < headerSz then (none, recvCache)
  else
    let bodySz := (protocol.bodySize ⟨recvCache.peek headerSz⟩).toNat
    if bodySz > protocol.maxBodySize.toNat then (none, (recvCache.pop recvCache.datasize).2)
    else
      let totalSz := (headerSz + bodySz) % 2 ^ 32
      if recvCache.datasize ≥ totalSz then
        (some ⟨recvCache.peek totalSz⟩, (recvCache.pop totalSz).2)
      else (none, recvCache)

/-- What `popMsg` makes of the bytes of the cache: the bytes of the message, if one is complete, and
those that remain. -/
def nextMsg (protocol : TcpMessageProtocol) (content : Bytes) : Option Bytes × Bytes :=
  let headerSz := protocol.headerSize.toNat
  if content.length < headerSz then (none, content)
  else
    let bodySz := (protocol.bodySize ⟨content.take headerSz⟩).toNat
    if bodySz > protocol.maxBodySize.toNat then (none, [])
    else
      let totalSz := (headerSz + bodySz) % 2 ^ 32
      if content.length ≥ totalSz then (some (content.take totalSz), content.drop totalSz)
      else (none, content)

/-- On the bytes that the cache holds, `popMsg` is `nextMsg`. -/
theorem popMsg_spec (protocol : TcpMessageProtocol) {recvCache : Memchunk} {content : Bytes}
    (hholds : recvCache.Holds content) :
    (popMsg protocol recvCache).1.map TcpMessage.data = (nextMsg protocol content).1 ∧
      (popMsg protocol recvCache).2.Holds (nextMsg protocol content).2 ∧
      (popMsg protocol recvCache).2.blocksize = recvCache.blocksize := by
  simp only [popMsg, nextMsg, hholds.datasize_eq]
  by_cases hshort : content.length < protocol.headerSize.toNat
  · rw [if_pos hshort, if_pos hshort]
    exact ⟨rfl, hholds, rfl⟩
  rw [if_neg hshort, if_neg hshort, Memchunk.peek_eq hholds (not_lt.mp hshort)]
  generalize (protocol.bodySize ⟨content.take protocol.headerSize.toNat⟩).toNat = bodySz
  by_cases hlimit : bodySz > protocol.maxBodySize.toNat
  · -- the header announces too large a body: the cache is dropped
    obtain ⟨hdropped, hblock⟩ := Memchunk.pop_spec hholds (le_refl content.length)
    rw [List.drop_length] at hdropped
    rw [if_pos hlimit, if_pos hlimit]
    exact ⟨rfl, hdropped, hblock⟩
  rw [if_neg hlimit, if_neg hlimit]
  by_cases hcomplete : content.length ≥ (protocol.headerSize.toNat + bodySz) % 2 ^ 32
  · obtain ⟨hrest, hblock⟩ := Memchunk.pop_spec hholds hcomplete
    rw [if_pos hcomplete, if_pos hcomplete]
    exact ⟨congrArg some (Memchunk.peek_eq hholds hcomplete), hrest, hblock⟩
  · rw [if_neg hcomplete, if_neg hcomplete]
    exact ⟨rfl, hholds, rfl⟩

/-- A protocol the transport can work with: headers are not empty, and the size of a frame within
the limit is a 32-bit value. -/
structure TcpMessageProtocol.Framable (protocol : TcpMessageProtocol) : Prop where
  headerSize_pos : 0 < protocol.headerSize.toNat
  total_lt : protocol.headerSize.toNat + protocol.maxBodySize.toNat < 2 ^ 32

/-- The frames of a protocol. -/
def TcpMessageProtocol.Framable.format {protocol : TcpMessageProtocol}
    (hprotocol : protocol.Framable) : FrameFormat Byte where
  headerSize := protocol.headerSize.toNat
  headerSize_pos := hprotocol.headerSize_pos
  bodySize := fun header ↦ (protocol.bodySize ⟨header⟩).toNat
  maxBodySize := protocol.maxBodySize.toNat

variable {protocol : TcpMessageProtocol}

/-- Under such a protocol the size of a frame does not wrap around, and what is cut off the cache is
what `FrameFormat.next` cuts off. -/
theorem nextMsg_eq_next (hprotocol : protocol.Framable) (content : Bytes) :
    nextMsg protocol content = hprotocol.format.next content := by
  have hlt := hprotocol.total_lt
  unfold nextMsg FrameFormat.next
  refine if_congr Iff.rfl rfl ?_
  by_cases hlimit : (protocol.bodySize ⟨content.take protocol.headerSize.toNat⟩).toNat >
      protocol.maxBodySize.toNat
  · exact (if_pos hlimit).trans (if_pos hlimit).symm
  · refine (if_neg hlimit).trans (Eq.trans ?_ (if_neg hlimit).symm)
    rw [Nat.mod_eq_of_lt (by omega)]
    rfl

/-! ### The receive side of a connection -/

/-- The part of `tcpsock_user` and of `tcpsock_asynclt` that the receive path uses. -/
structure RecvSide where
  closed : Bool
  recvCache : Memchunk

/-- `BufferSize` of `tcpsock_user` and `tcpsock_asynclt`: the block size of the cache. -/
def cacheBlockSize : ℕ := 1024

/-- `MaxPendingSize`, 10 MiB. -/
def maxPendingSize : ℕ := 10485760

/-- `BufferSize` of the event loops: the most bytes that one read returns. -/
def readSize : ℕ := 4096

namespace RecvSide

/-- The receive side of a connection that was just opened. -/
def new (alloc : Allocator) : RecvSide where
  closed := false
  recvCache := Memchunk.new alloc cacheBlockSize

/-- `onRecv`: the return code and the receive side afterwards. -/
def onRecv (alloc : Allocator) (side : RecvSide) (chunk : Bytes) : ℤ × RecvSide :=
  if side.closed then (1, side)
  else
    let pushed := side.recvCache.push alloc chunk
    let received := { side with recvCache := pushed.2 }
    if pushed.1 < 0 then (2, received)
    else if pushed.2.datasize > maxPendingSize then (3, received)
    else (0, received)

/-- `getRecvMsg`. -/
def getRecvMsg (protocol : TcpMessageProtocol) (side : RecvSide) : Option TcpMessage × RecvSide :=
  if side.closed then (none, side)
  else
    let popped := popMsg protocol side.recvCache
    (popped.1, { side with recvCache := popped.2 })

end RecvSide

/-- What one read came to: the return code of `onRecv`, the messages it completed, and the receive
side afterwards. -/
structure ReadOutcome where
  rc : ℤ
  msgs : List TcpMessage
  side : RecvSide

/-- The read branch of the event loops on one chunk: the chunk is appended and the cache drained,
or the connection closed when the append is refused. The drain loop makes at most `fuel` calls. -/
def readChunk (alloc : Allocator) (protocol : TcpMessageProtocol) (fuel : ℕ) (side : RecvSide)
    (chunk : Bytes) : Option ReadOutcome :=
  let received := side.onRecv alloc chunk
  if received.1 ≠ 0 then some ⟨received.1, [], { received.2 with closed := true }⟩
  else
    (drainWith (RecvSide.getRecvMsg protocol) fuel received.2).map fun drained ↦
      ⟨received.1, drained.1, drained.2⟩

/-- The read branch on one chunk after another. -/
def readChunks (alloc : Allocator) (protocol : TcpMessageProtocol) (fuel : ℕ) :
    RecvSide → List Bytes → Option (List ReadOutcome)
  | _, [] => some []
  | side, chunk :: chunks => do
    let outcome ← readChunk alloc protocol fuel side chunk
    let outcomes ← readChunks alloc protocol fuel outcome.side chunks
    return outcome :: outcomes

/-! ### One read -/

/-- An open receive side whose cache holds `content`. -/
structure RecvSide.Open (side : RecvSide) (content : Bytes) : Prop where
  not_closed : side.closed = false
  holds : side.recvCache.Holds content
  blocksize_eq : side.recvCache.blocksize = cacheBlockSize

theorem RecvSide.open_new (alloc : Allocator) : (RecvSide.new alloc).Open [] :=
  ⟨rfl, Memchunk.holds_new alloc (by norm_num [cacheBlockSize]), rfl⟩

/-- Assumes: an open connection, and a non-empty chunk with which the cache exceeds its limit by one
read at most. `onRecv` appends the chunk, and returns zero unless the limit is exceeded. -/
theorem RecvSide.onRecv_spec (alloc : Allocator) {side : RecvSide} {content chunk : Bytes}
    (hopen : side.Open content) (hchunk : chunk ≠ [])
    (hlength : (content ++ chunk).length ≤ maxPendingSize + readSize) :
    (side.onRecv alloc chunk).1 = (if (content ++ chunk).length > maxPendingSize then 3 else 0) ∧
      (side.onRecv alloc chunk).2.Open (content ++ chunk) := by
  have hbound : content.length + chunk.length + side.recvCache.blocksize < 2 ^ 31 := by
    rw [List.length_append, maxPendingSize, readSize] at hlength
    rw [hopen.blocksize_eq, cacheBlockSize]
    omega
  obtain ⟨hrc, hholds, hblock⟩ := Memchunk.push_spec alloc hopen.holds hchunk hbound
  have hnonneg : ¬ (side.recvCache.push alloc chunk).1 < 0 := by
    rw [hrc]
    omega
  simp only [RecvSide.onRecv, hopen.not_closed, Bool.false_eq_true, if_false, if_neg hnonneg,
    hholds.datasize_eq]
  split_ifs
  all_goals exact ⟨rfl, rfl, hholds, hblock.trans hopen.blocksize_eq⟩

theorem RecvSide.getRecvMsg_spec (protocol : TcpMessageProtocol) {side : RecvSide}
    {content : Bytes} (hopen : side.Open content) :
    (side.getRecvMsg protocol).1.map TcpMessage.data = (nextMsg protocol content).1 ∧
      (side.getRecvMsg protocol).2.Open (nextMsg protocol content).2 := by
  obtain ⟨hmsg, hholds, hblock⟩ := popMsg_spec protocol hopen.holds
  simp only [RecvSide.getRecvMsg, hopen.not_closed, Bool.false_eq_true, if_false]
  exact ⟨hmsg, rfl, hholds, hblock.trans hopen.blocksize_eq⟩

theorem data_injective : Function.Injective TcpMessage.data := by
  intro msg other heq
  cases msg
  cases other
  exact congrArg TcpMessage.mk heq

theorem readChunk_of_refused {alloc : Allocator} {side : RecvSide} {chunk : Bytes}
    (hrc : (side.onRecv alloc chunk).1 ≠ 0) (protocol : TcpMessageProtocol) (fuel : ℕ) :
    readChunk alloc protocol fuel side chunk =
      some ⟨(side.onRecv alloc chunk).1, [], { (side.onRecv alloc chunk).2 with closed := true }⟩ :=
  if_pos hrc

theorem readChunk_of_accepted {alloc : Allocator} {side : RecvSide} {chunk : Bytes}
    (hrc : (side.onRecv alloc chunk).1 = 0) (protocol : TcpMessageProtocol) (fuel : ℕ) :
    readChunk alloc protocol fuel side chunk =
      (drainWith (RecvSide.getRecvMsg protocol) fuel (side.onRecv alloc chunk).2).map
        fun drained ↦ ⟨0, drained.1, drained.2⟩ := by
  simp only [readChunk, hrc, ne_eq, not_true_eq_false, if_false]

/-- One read on an open connection. Assumes: frames still to come, of which the cache holds the
beginning and the chunk the continuation, within the limit of the cache. The read is accepted, its
drain ends, it returns the frames that are now complete, and the cache is left with a proper prefix
of the next one. -/
theorem readChunk_spec (alloc : Allocator) (hprotocol : protocol.Framable)
    (frames : List TcpMessage) (hframes : ∀ frame ∈ frames, hprotocol.format.IsFrame frame.data)
    {side : RecvSide} {content chunk rest : Bytes} (hopen : side.Open content) (hchunk : chunk ≠ [])
    (hlimit : (content ++ chunk).length ≤ maxPendingSize)
    (hstream : content ++ chunk ++ rest = (frames.map TcpMessage.data).flatten) {fuel : ℕ}
    (hfuel : maxPendingSize < fuel) :
    ∃ count ≤ frames.length, ∃ side' held,
      readChunk alloc protocol fuel side chunk = some ⟨0, frames.take count, side'⟩ ∧
        side'.Open held ∧ Pending ((frames.drop count).map TcpMessage.data) held ∧
        held ++ rest = ((frames.drop count).map TcpMessage.data).flatten := by
  obtain ⟨hrc, hreceived⟩ := RecvSide.onRecv_spec alloc hopen hchunk (by omega)
  rw [if_neg (not_lt.mpr hlimit)] at hrc
  have hdata : ∀ frame ∈ frames.map TcpMessage.data, hprotocol.format.IsFrame frame := by
    intro frame hframe
    obtain ⟨msg, hmsg, rfl⟩ := List.mem_map.mp hframe
    exact hframes msg hmsg
  obtain ⟨count, hcount, held, hdrain, hpending, hrest⟩ :=
    FrameFormat.drain_chunk _ hdata (content ++ chunk) rest hstream fuel (by omega)
  obtain ⟨msgs, side', hmsgs, hmap, hside⟩ :=
    drainWith_sim RecvSide.Open TcpMessage.data
      (fun state model hstate ↦ by
        rw [← nextMsg_eq_next hprotocol]
        exact RecvSide.getRecvMsg_spec protocol hstate) fuel hreceived hdrain
  rw [← List.map_take] at hmap
  have hmsgsEq : msgs = frames.take count := List.map_injective_iff.mpr data_injective hmap
  rw [← List.map_drop] at hpending hrest
  refine ⟨count, by simpa using hcount, side', held, ?_, hside, hpending, hrest⟩
  rw [readChunk_of_accepted hrc, hmsgs, hmsgsEq, Option.map_some]

/-- One read on an open connection, whatever the bytes are, within the limit of the cache. The read
is accepted, its drain ends and returns the frames of the cache and the chunk together, and the
cache is left with what remains of them, or empty if that begins with a header that announces too
large a body. -/
theorem readChunk_anyBytes (alloc : Allocator) (hprotocol : protocol.Framable) {side : RecvSide}
    {content chunk : Bytes} (hopen : side.Open content) (hchunk : chunk ≠ [])
    (hlimit : (content ++ chunk).length ≤ maxPendingSize) {fuel : ℕ}
    (hfuel : maxPendingSize < fuel) :
    ∃ msgs side', readChunk alloc protocol fuel side chunk = some ⟨0, msgs, side'⟩ ∧
      msgs.map TcpMessage.data = hprotocol.format.framesOf (content ++ chunk) ∧
      side'.Open (if hprotocol.format.Violated (content ++ chunk) then []
        else hprotocol.format.restOf (content ++ chunk)) := by
  obtain ⟨hrc, hreceived⟩ := RecvSide.onRecv_spec alloc hopen hchunk (by omega)
  rw [if_neg (not_lt.mpr hlimit)] at hrc
  have hdrain := hprotocol.format.drain_spec (content ++ chunk) (hlimit.trans_lt hfuel)
  obtain ⟨msgs, side', hmsgs, hmap, hside⟩ :=
    drainWith_sim RecvSide.Open TcpMessage.data
      (fun state model hstate ↦ by
        rw [← nextMsg_eq_next hprotocol]
        exact RecvSide.getRecvMsg_spec protocol hstate) fuel hreceived hdrain
  refine ⟨msgs, side', ?_, hmap, hside⟩
  rw [readChunk_of_accepted hrc, hmsgs, Option.map_some]

/-! ### Two receive sides that hold the same bytes -/

theorem nextMsg_length_le (protocol : TcpMessageProtocol) (content : Bytes) :
    (nextMsg protocol content).2.length ≤ content.length := by
  simp only [nextMsg]
  split_ifs
  all_goals simp

/-- Two open receive sides hold the same bytes, within the limit. Their blocks may differ in size
and in what lies beyond the bytes in use. -/
def RecvSide.SameBytes (side other : RecvSide) : Prop :=
  ∃ content, side.Open content ∧ other.Open content ∧ content.length ≤ maxPendingSize

theorem RecvSide.getRecvMsg_sameBytes (protocol : TcpMessageProtocol) {side other : RecvSide}
    (hsame : side.SameBytes other) :
    (side.getRecvMsg protocol).1 = (other.getRecvMsg protocol).1 ∧
      (side.getRecvMsg protocol).2.SameBytes (other.getRecvMsg protocol).2 := by
  obtain ⟨content, hside, hother, hlength⟩ := hsame
  obtain ⟨hmsg, hopen⟩ := RecvSide.getRecvMsg_spec protocol hside
  obtain ⟨hmsg', hopen'⟩ := RecvSide.getRecvMsg_spec protocol hother
  refine ⟨?_, _, hopen, hopen', (nextMsg_length_le protocol content).trans hlength⟩
  exact Option.map_injective data_injective (hmsg.trans hmsg'.symm)

/-- Assumes: two receive sides that hold the same bytes, and a read of one of them. The same read of
the other one returns the same code and the same messages, and when it is accepted the two hold the
same bytes again. Accepted or not, the cache still holds some bytes. -/
theorem readChunk_sameBytes (alloc : Allocator) (protocol : TcpMessageProtocol) {fuel : ℕ}
    {side other : RecvSide} (hsame : side.SameBytes other) {chunk : Bytes} (hchunk : chunk ≠ [])
    (hsize : chunk.length ≤ readSize) {outcome : ReadOutcome}
    (hread : readChunk alloc protocol fuel side chunk = some outcome) :
    (∃ outcome', readChunk alloc protocol fuel other chunk = some outcome' ∧
      outcome'.msgs = outcome.msgs ∧ (outcome.rc = 0 → outcome.side.SameBytes outcome'.side)) ∧
      (outcome.rc ≠ 0 → outcome.side.closed = true ∧
        ∃ content, { outcome.side with closed := false }.Open content) := by
  obtain ⟨content, hside, hother, hlength⟩ := hsame
  have hbound : (content ++ chunk).length ≤ maxPendingSize + readSize := by
    rw [List.length_append]
    omega
  obtain ⟨hrc, hopen⟩ := RecvSide.onRecv_spec alloc hside hchunk hbound
  obtain ⟨hrc', hopen'⟩ := RecvSide.onRecv_spec alloc hother hchunk hbound
  by_cases hlimit : (content ++ chunk).length > maxPendingSize
  · rw [if_pos hlimit] at hrc hrc'
    have hne : (side.onRecv alloc chunk).1 ≠ 0 := by
      rw [hrc]
      decide
    have hne' : (other.onRecv alloc chunk).1 ≠ 0 := by
      rw [hrc']
      decide
    rw [readChunk_of_refused hne] at hread
    cases hread
    exact ⟨⟨_, readChunk_of_refused hne' protocol fuel, rfl, fun hzero ↦ absurd hzero hne⟩,
      fun _ ↦ ⟨rfl, _, rfl, hopen.holds, hopen.blocksize_eq⟩⟩
  · rw [if_neg hlimit] at hrc hrc'
    rw [readChunk_of_accepted hrc, Option.map_eq_some_iff] at hread
    obtain ⟨⟨msgs, last⟩, hdrain, rfl⟩ := hread
    obtain ⟨msgs', last', hdrain', hmsgs, hlast⟩ :=
      drainWith_sim (fun state model ↦ RecvSide.SameBytes model state) id
        (fun state model hstate ↦ by
          obtain ⟨hmsg, hnext⟩ := RecvSide.getRecvMsg_sameBytes protocol hstate
          exact ⟨by rw [Option.map_id, id, hmsg], hnext⟩) fuel
        ⟨_, hopen, hopen', not_lt.mp hlimit⟩ hdrain
    rw [List.map_id] at hmsgs
    refine ⟨⟨⟨0, msgs', last'⟩, ?_, hmsgs, fun _ ↦ hlast⟩, fun hzero ↦ absurd rfl hzero⟩
    rw [readChunk_of_accepted hrc', hdrain', Option.map_some]

/-! ### A run of reads -/

/-- The receive side after a run of reads. -/
def sideAfter (side : RecvSide) (outcomes : List ReadOutcome) : RecvSide :=
  outcomes.foldl (fun _ outcome ↦ outcome.side) side

/-- Assumes: a run of reads, and one more read after it. Together they are a run. -/
theorem readChunks_concat {alloc : Allocator} {fuel : ℕ} {side : RecvSide} {chunks : List Bytes}
    {chunk : Bytes} {outcomes : List ReadOutcome} {outcome : ReadOutcome}
    (hreads : readChunks alloc protocol fuel side chunks = some outcomes)
    (hread : readChunk alloc protocol fuel (sideAfter side outcomes) chunk = some outcome) :
    readChunks alloc protocol fuel side (chunks ++ [chunk]) = some (outcomes ++ [outcome]) := by
  induction chunks generalizing side outcomes with
  | nil =>
    cases hreads
    have hread' : readChunk alloc protocol fuel side chunk = some outcome := hread
    simp [readChunks, hread']
  | cons first chunks ih =>
    simp only [readChunks, Option.bind_eq_bind, Option.pure_def, Option.bind_eq_some_iff,
      Option.some.injEq] at hreads
    obtain ⟨head, hhead, tail, htail, rfl⟩ := hreads
    simp [readChunks, hhead, ih htail hread]

theorem readChunks_cons {alloc : Allocator} {fuel : ℕ} {side : RecvSide} {chunk : Bytes}
    {chunks : List Bytes} {outcome : ReadOutcome} {outcomes : List ReadOutcome}
    (hread : readChunk alloc protocol fuel side chunk = some outcome)
    (hreads : readChunks alloc protocol fuel outcome.side chunks = some outcomes) :
    readChunks alloc protocol fuel side (chunk :: chunks) = some (outcome :: outcomes) := by
  simp [readChunks, hread, hreads]

/-- On a closed connection every read is refused. -/
theorem readChunks_of_closed (alloc : Allocator) (protocol : TcpMessageProtocol) (fuel : ℕ)
    {side : RecvSide} (hclosed : side.closed = true) (chunks : List Bytes) :
    ∃ outcomes, readChunks alloc protocol fuel side chunks = some outcomes ∧
      outcomes.flatMap ReadOutcome.msgs = [] := by
  induction chunks generalizing side with
  | nil => exact ⟨[], rfl, rfl⟩
  | cons chunk chunks ih =>
    have hrc : side.onRecv alloc chunk = (1, side) := by
      rw [RecvSide.onRecv, if_pos hclosed]
    have hrefused : (side.onRecv alloc chunk).1 ≠ 0 := by simp [hrc]
    have hread := readChunk_of_refused hrefused protocol fuel
    have hagain : { (side.onRecv alloc chunk).2 with closed := true }.closed = true := rfl
    obtain ⟨outcomes, hreads, hmsgs⟩ := ih hagain
    exact ⟨_, readChunks_cons hread hreads, hmsgs⟩

/-- A run of reads delivers exactly `frames`: every read is accepted and returns the next frames,
the cache is left with a proper prefix of the first frame not yet delivered, and no frame is missing
at the end. -/
def Delivers : List TcpMessage → List ReadOutcome → Prop
  | frames, [] => frames = []
  | frames, outcome :: outcomes =>
    ∃ count ≤ frames.length, outcome.rc = 0 ∧ outcome.msgs = frames.take count ∧
      (∃ held, outcome.side.recvCache.Holds held ∧
        Pending ((frames.drop count).map TcpMessage.data) held) ∧
      Delivers (frames.drop count) outcomes

theorem Pending.length_lt_flatten {frame : List Byte} {frames : List (List Byte)} {held : List Byte}
    (hpending : Pending (frame :: frames) held) :
    held.length < (frame :: frames).flatten.length := by
  have hlt := hpending.2
  rw [List.flatten_cons, List.length_append]
  omega

/-- Nothing is pending where all frames are held. -/
theorem Pending.eq_nil {frames : List TcpMessage} {held : List Byte}
    (hpending : Pending (frames.map TcpMessage.data) held)
    (hwhole : held = (frames.map TcpMessage.data).flatten) : frames = [] := by
  cases frames with
  | nil => rfl
  | cons frame frames =>
    have hlt := Pending.length_lt_flatten hpending
    rw [hwhole] at hlt
    exact absurd hlt (lt_irrefl _)

/-- Assumes: frames no longer than the limit of the cache less one short of a read, cut into
non-empty chunks of at most one read each, after the part of them the cache already holds. All reads
are accepted, all drains end, and the run delivers exactly these frames. -/
theorem readChunks_spec (alloc : Allocator) (hprotocol : protocol.Framable) (chunks : List Bytes)
    (hchunks : ∀ chunk ∈ chunks, chunk ≠ [] ∧ chunk.length ≤ readSize) {fuel : ℕ}
    (hfuel : maxPendingSize < fuel) (frames : List TcpMessage)
    (hframes : ∀ frame ∈ frames, hprotocol.format.IsFrame frame.data ∧
      frame.data.length ≤ maxPendingSize - (readSize - 1))
    {side : RecvSide} {content : Bytes} (hopen : side.Open content)
    (hcontent : Pending (frames.map TcpMessage.data) content)
    (hstream : content ++ chunks.flatten = (frames.map TcpMessage.data).flatten) :
    ∃ outcomes, readChunks alloc protocol fuel side chunks = some outcomes ∧
      outcomes.length = chunks.length ∧ Delivers frames outcomes := by
  induction chunks generalizing frames side content with
  | nil =>
    rw [List.flatten_nil, List.append_nil] at hstream
    exact ⟨[], rfl, rfl, Pending.eq_nil hcontent hstream⟩
  | cons chunk chunks ih =>
    obtain ⟨hchunk, hsize⟩ := hchunks chunk List.mem_cons_self
    have hlimit : (content ++ chunk).length ≤ maxPendingSize := by
      rw [List.length_append]
      cases frames with
      | nil =>
        have hnil : content = [] := hcontent
        rw [hnil, List.length_nil, Nat.zero_add]
        exact hsize.trans (by decide)
      | cons frame frames =>
        have hlt := hcontent.2
        have hle := (hframes frame List.mem_cons_self).2
        simp only [readSize, maxPendingSize] at hsize hle ⊢
        omega
    rw [List.flatten_cons, ← List.append_assoc] at hstream
    obtain ⟨count, hcount, side', held, hread, hside, hpending, hrest⟩ :=
      readChunk_spec alloc hprotocol frames (fun frame hframe ↦ (hframes frame hframe).1) hopen
        hchunk hlimit hstream hfuel
    obtain ⟨outcomes, hreads, hlength, hdelivers⟩ :=
      ih (fun other hother ↦ hchunks other (List.mem_cons_of_mem _ hother)) (frames.drop count)
        (fun frame hframe ↦ hframes frame (List.mem_of_mem_drop hframe)) hside hpending hrest
    refine ⟨⟨0, frames.take count, side'⟩ :: outcomes, ?_, ?_, ?_⟩
    · simp [readChunks, hread, hreads]
    · rw [List.length_cons, List.length_cons, hlength]
    · exact ⟨count, hcount, rfl, rfl, ⟨held, hside.holds, hpending⟩, hdelivers⟩

/-- The messages of a run that delivers `frames` are `frames`. -/
theorem Delivers.flatMap_msgs {frames : List TcpMessage} {outcomes : List ReadOutcome}
    (hdelivers : Delivers frames outcomes) : outcomes.flatMap ReadOutcome.msgs = frames := by
  induction outcomes generalizing frames with
  | nil => exact Eq.symm hdelivers
  | cons outcome outcomes ih =>
    obtain ⟨count, -, -, hmsgs, -, hrest⟩ := hdelivers
    rw [List.flatMap_cons, hmsgs, ih hrest, List.take_append_drop]

theorem Delivers.rc_eq_zero {frames : List TcpMessage} {outcomes : List ReadOutcome}
    (hdelivers : Delivers frames outcomes) : ∀ outcome ∈ outcomes, outcome.rc = 0 := by
  induction outcomes generalizing frames with
  | nil => intro outcome houtcome; cases houtcome
  | cons outcome outcomes ih =>
    obtain ⟨count, -, hrc, -, -, hrest⟩ := hdelivers
    intro other hother
    rcases List.mem_cons.mp hother with rfl | hother
    · exact hrc
    · exact ih hrest other hother

/-- After each read of a run that delivers `frames`, some of them have been returned and the cache
holds a proper prefix of the next one. -/
theorem Delivers.held_after {frames : List TcpMessage} {outcomes : List ReadOutcome}
    (hdelivers : Delivers frames outcomes) {before after : List ReadOutcome} {outcome : ReadOutcome}
    (hsplit : outcomes = before ++ outcome :: after) :
    ∃ count held, (before ++ [outcome]).flatMap ReadOutcome.msgs = frames.take count ∧
      outcome.side.recvCache.Holds held ∧
      Pending ((frames.drop count).map TcpMessage.data) held := by
  induction before generalizing frames outcomes with
  | nil =>
    subst hsplit
    obtain ⟨count, -, -, hmsgs, ⟨held, hholds, hpending⟩, -⟩ := hdelivers
    exact ⟨count, held, by simpa using hmsgs, hholds, hpending⟩
  | cons first before ih =>
    subst hsplit
    obtain ⟨count, hcount, -, hmsgs, -, hrest⟩ := hdelivers
    obtain ⟨later, held, hlater, hholds, hpending⟩ := ih hrest rfl
    refine ⟨count + later, held, ?_, hholds, ?_⟩
    · rw [List.cons_append, List.flatMap_cons, hlater, hmsgs, List.take_add]
    · rwa [List.drop_drop] at hpending

end TszyUlt.Zbf
