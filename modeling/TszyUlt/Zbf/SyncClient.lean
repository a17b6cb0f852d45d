import TszyUlt.Zbf.HaPool
import TszyUlt.Zbf.TcpMessage

/-!
# The synchronous client

`zbf/socket_tcp_v5.hpp` and `zbf/socket_utils.hpp`: `tcpsock_client::send`, `innerSend`, `connect`
and `disconnect`, with the loops `send_with_retry_` and `recv_all` that they call on the socket. A
`send` gives the request to the socket and, where the caller passes a pointer for the answer, reads
one frame. After `SEND_FAIL` it connects again and gives the whole request to the new connection.

What the system calls come to is an input: the outcomes of `::send` and `::recv` one after the
other, and whether the connect succeeded. The functions return nothing where the outcomes are fewer
than the calls they make, or where a call cannot come to what is given. `SyncClient` keeps the
connections that were ever opened, each with the bytes the socket took and the bytes that were read
(`SyncConnection`), so that a call is judged by what it added to them (`takenSince`, `readSince`).

`send_at_most_once` is the result about one call: at most one connection took the whole request, an
answer is assigned with `SEND_SUCCESS` only and is one frame that was read, and a failure leaves the
connection closed. It is about requests of at least one byte. An empty request is as complete on a
connection that failed as on the next one (`not_send_at_most_once_empty`). The sizes are passed as
`int`, and a body of `2 ^ 31` bytes or more is never read, so that the result about the answer is
for protocols with a smaller limit.

Scope. The log texts, the heartbeat time and the flag `_closed`, which no modelled function reads,
are left out. That a connection is established is one outcome of `connect`; how it fails is not
modelled.
-/

set_option autoImplicit false
set_option relaxedAutoImplicit false

namespace TszyUlt.Zbf

open Lib

/-- `SEND_FAIL`. -/
def sendFail : Int32 := 1

/-- `RECV_FAIL`. -/
def recvFail : Int32 := 4

/-! ### The loops on the socket -/

/-- What one `::send` came to: the count it returned, or an error after which it is tried again
(`IS_ERR_AGAIN`), or another error. -/
inductive SendCall
  | returned (count : ℕ)
  | again
  | failed
  deriving DecidableEq, Repr

/-- What one `::recv` came to. No bytes are returned where the peer closed. -/
inductive RecvCall
  | returned (chunk : Bytes)
  | again
  | failed
  deriving DecidableEq, Repr

/-- What `send_with_retry_` came to: its return code, and how many bytes the socket took. -/
structure SendOutcome where
  rc : ℤ
  totalSent : ℕ
  deriving DecidableEq, Repr

/-- `send_with_retry_`. A count is a value of `int`, no more than was offered (`rest` is passed as a
`size_t`), and no more than there is. -/
def sendWithRetry (data : Bytes) (size : ℤ) (maxRetry : ℕ) :
    ℕ → ℕ → List SendCall → Option SendOutcome
  | _, _, [] => none
  | totalSent, _, .failed :: _ => some ⟨-1, totalSent⟩
  | totalSent, retry, .again :: calls =>
    if retry + 1 ≥ maxRetry then some ⟨totalSent, totalSent⟩
    else sendWithRetry data size maxRetry totalSent (retry + 1) calls
  | totalSent, _, .returned count :: calls =>
    if count < 2 ^ 31 ∧ (count : ℤ) ≤ (size - totalSent) % 2 ^ 64 ∧
        totalSent + count ≤ data.length then
      if count = 0 then some ⟨0, totalSent⟩
      else if (totalSent + count : ℤ) < size then
        sendWithRetry data size maxRetry (totalSent + count) 0 calls
      else some ⟨size, totalSent + count⟩
    else none

/-- The default of `max_retry` of `send_with_retry`. -/
def sendMaxRetry : ℕ := 10

/-- What `recv_all` came to: its return code, the bytes that were read, and the outcomes that are
left for the next calls. -/
structure RecvOutcome where
  rc : ℤ
  got : Bytes
  rest : List RecvCall
  deriving DecidableEq, Repr

/-- `max_retry` of `recv_all`. -/
def recvMaxRetry : ℕ := 50

/-- `recv_all`, with the bytes it has read so far. -/
def recvAll (size : ℤ) : ℕ → Bytes → List RecvCall → Option RecvOutcome
  | _, got, [] => if size ≤ got.length then some ⟨got.length, got, []⟩ else none
  | retry, got, call :: calls =>
    if size ≤ got.length then some ⟨got.length, got, call :: calls⟩
    else
      match call with
      | .failed => some ⟨-1, got, calls⟩
      | .again =>
        if retry + 1 ≥ recvMaxRetry then some ⟨got.length, got, calls⟩
        else recvAll size (retry + 1) got calls
      | .returned chunk =>
        if chunk = [] then some ⟨-2, got, calls⟩
        else if got.length + chunk.length ≤ size then recvAll size retry (got ++ chunk) calls
        else none

/-! ### One attempt on an open connection -/

/-- `std::string::resize`. -/
def resize (data : Bytes) (size : ℕ) : Bytes :=
  data.take size ++ List.replicate (size - data.length) 0

/-- What the reading of an answer came to: the frame, or nothing after `RECV_FAIL`, and the bytes
that were read. -/
structure AckRead where
  ack : Option TcpMessage
  read : Bytes
  deriving DecidableEq, Repr

/-- The part of `innerSend` that reads the answer. -/
def readAck (protocol : TcpMessageProtocol) (calls : List RecvCall) : Option AckRead :=
  let headerSz := protocol.headerSize.toNat
  (recvAll (asInt32 headerSz) 0 [] calls).bind fun header ↦
    if header.rc ≠ asInt32 headerSz then some ⟨none, header.got⟩
    else
      let hdrBuf := writeAt (List.replicate headerSz 0) 0 header.got
      let bodySz := (protocol.bodySize ⟨hdrBuf⟩).toNat
      if bodySz > protocol.maxBodySize.toNat then some ⟨none, header.got⟩
      else if bodySz > 0 then
        (recvAll (asInt32 bodySz) 0 [] header.rest).map fun body ↦
          if body.rc < asInt32 bodySz then ⟨none, header.got ++ body.got⟩
          else
            ⟨some ⟨writeAt (resize hdrBuf ((headerSz + bodySz) % 2 ^ 32)) headerSz body.got⟩,
              header.got ++ body.got⟩
      else some ⟨some ⟨hdrBuf⟩, header.got⟩

/-- The outcomes of the system calls of one `innerSend`. -/
structure ExchangeCalls where
  sends : List SendCall
  recvs : List RecvCall
  deriving DecidableEq, Repr

/-- What `innerSend` came to on an open connection: its return code, what was assigned to `*ack`,
and what the socket took and what was read. -/
structure Exchange where
  rc : Int32
  ack : Option TcpMessage
  taken : Bytes
  read : Bytes
  deriving DecidableEq, Repr

/-- `innerSend` on an open connection. -/
def exchange (protocol : TcpMessageProtocol) (req : TcpMessage) (wantAck : Bool)
    (calls : ExchangeCalls) : Option Exchange :=
  (sendWithRetry req.data (asInt32 req.data.length) sendMaxRetry 0 0 calls.sends).bind fun sent ↦
    let taken := req.data.take sent.totalSent
    if sent.rc < asInt32 req.data.length then some ⟨sendFail, none, taken, []⟩
    else if wantAck = false then some ⟨sendSuccess, none, taken, []⟩
    else
      (readAck protocol calls.recvs).map fun answer ↦
        match answer.ack with
        | none => ⟨recvFail, none, taken, answer.read⟩
        | some msg => ⟨sendSuccess, some msg, taken, answer.read⟩

/-! ### The client -/

/-- A connection: the bytes the socket took and the bytes that were read from it. -/
structure SyncConnection where
  accepted : Bytes := []
  received : Bytes := []
  deriving DecidableEq, Repr

/-- A connection after one more attempt on it. -/
def SyncConnection.extend (conn : SyncConnection) (part : Exchange) : SyncConnection :=
  ⟨conn.accepted ++ part.taken, conn.received ++ part.read⟩

/-- `tcpsock_client`: the connection of `_fd`, if it is open, and the ones that were closed, in the
order they were opened in. -/
structure SyncClient where
  fd : Option SyncConnection := none
  closed : List SyncConnection := []
  deriving DecidableEq, Repr

/-- What a call returned, and what it assigned to `*ack`. -/
structure CallResult where
  rc : Int32
  ack : Option TcpMessage
  deriving DecidableEq, Repr

/-- The outcomes of the system calls of one `send`: those of its first attempt, whether it could
connect again, and those of its second attempt. -/
structure SendCalls where
  first : ExchangeCalls
  connects : Bool
  second : ExchangeCalls
  deriving DecidableEq, Repr

namespace SyncClient

/-- Every connection that was opened. -/
def connections (client : SyncClient) : List SyncConnection := client.closed ++ client.fd.toList

/-- `disconnect`. -/
def disconnect (client : SyncClient) : SyncClient := ⟨none, client.connections⟩

/-- `connect`. -/
def connect (client : SyncClient) (connects : Bool) : SyncClient :=
  if connects then { client.disconnect with fd := some {} } else client.disconnect

/-- `innerSend`. -/
def innerSend (client : SyncClient) (protocol : TcpMessageProtocol) (req : TcpMessage)
    (wantAck : Bool) (calls : ExchangeCalls) : Option (CallResult × SyncClient) :=
  match client.fd with
  | none => some (⟨sendFail, none⟩, client)
  | some conn =>
    (exchange protocol req wantAck calls).map fun result ↦
      let used : SyncClient := { client with fd := some (conn.extend result) }
      (⟨result.rc, result.ack⟩, if result.rc ≠ sendSuccess then used.disconnect else used)

/-- `send`. -/
def send (client : SyncClient) (protocol : TcpMessageProtocol) (req : TcpMessage) (wantAck : Bool)
    (calls : SendCalls) : Option (CallResult × SyncClient) :=
  (client.innerSend protocol req wantAck calls.first).bind fun first ↦
    if first.1.rc = sendFail then
      -- nothing was assigned to `*ack` so far
      let reconnected := first.2.disconnect.connect calls.connects
      if calls.connects then reconnected.innerSend protocol req wantAck calls.second
      else some (first.1, reconnected)
    else some first

/-! ### What a call added to the connections -/

/-- The bytes on one side of the connection of an index, in the order the connections were opened
in. -/
def bytesOn (side : SyncConnection → Bytes) (client : SyncClient) (index : ℕ) : Bytes :=
  (client.connections[index]?).elim [] side

/-- The bytes that were added to one side of a connection between two states. -/
def addedSince (side : SyncConnection → Bytes) (before after : SyncClient) (index : ℕ) : Bytes :=
  (after.bytesOn side index).drop (before.bytesOn side index).length

/-- What a connection took between two states. -/
def takenSince (before after : SyncClient) (index : ℕ) : Bytes :=
  addedSince SyncConnection.accepted before after index

/-- What was read from a connection between two states. -/
def readSince (before after : SyncClient) (index : ℕ) : Bytes :=
  addedSince SyncConnection.received before after index

end SyncClient

/-! ### What the loops come to -/

section Loops

variable {data : Bytes} {size : ℤ} {maxRetry totalSent retry : ℕ} {calls : List SendCall}
  {sent : SendOutcome}

/-- Assumes: the loop goes on, or was just entered. It ends when everything is taken, with the size
as its return code, or before that. -/
theorem sendWithRetry_cases (hloop : (totalSent : ℤ) < size ∨ totalSent = 0)
    (hsent : sendWithRetry data size maxRetry totalSent retry calls = some sent) :
    sent.rc = size ∧ size ≤ sent.totalSent ∧ sent.totalSent ≤ data.length ∨
      ((sent.totalSent : ℤ) < size ∨ sent.totalSent = 0) ∧
        (sent.rc = -1 ∨ sent.rc = 0 ∨ sent.rc = sent.totalSent) := by
  induction calls generalizing totalSent retry with
  | nil => cases hsent
  | cons call calls ih =>
    cases call with
    | failed =>
      cases hsent
      exact Or.inr ⟨hloop, Or.inl rfl⟩
    | again =>
      rw [sendWithRetry] at hsent
      split_ifs at hsent with hlast
      · cases hsent
        exact Or.inr ⟨hloop, Or.inr (Or.inr rfl)⟩
      · exact ih hloop hsent
    | returned count =>
      rw [sendWithRetry] at hsent
      split_ifs at hsent with hpossible hzero hmore
      · cases hsent
        exact Or.inr ⟨hloop, Or.inr (Or.inl rfl)⟩
      · refine ih (Or.inl ?_) hsent
        push_cast
        exact hmore
      · cases hsent
        refine Or.inl ⟨rfl, ?_, hpossible.2.2⟩
        push_cast
        exact not_lt.mp hmore

/-- Assumes: some data, and a size that is no larger. A return code below the size means that fewer
bytes were taken than there are. -/
theorem sendWithRetry_short (hsize : size ≤ data.length) (hdata : data ≠ [])
    (hsent : sendWithRetry data size maxRetry 0 retry calls = some sent)
    (hshort : sent.rc < size) : sent.totalSent < data.length := by
  have hpos : 0 < data.length := List.length_pos_iff.mpr hdata
  rcases sendWithRetry_cases (Or.inr rfl) hsent with ⟨hrc, -, -⟩ | ⟨hloop, -⟩
  · exact absurd hrc hshort.ne
  · omega

/-- A return code that is not below the size of the data means that all of it was taken. -/
theorem sendWithRetry_full (hsize : size = data.length)
    (hsent : sendWithRetry data size maxRetry 0 retry calls = some sent)
    (hfull : ¬sent.rc < size) : sent.totalSent = data.length := by
  rcases sendWithRetry_cases (Or.inr rfl) hsent with ⟨-, hle, hlength⟩ | ⟨hloop, hrc⟩
  · omega
  · omega

end Loops

/-- Assumes: no more was read than is wanted. A return code that is not below the size means that
exactly as much was read. -/
theorem recvAll_full {size : ℤ} {retry : ℕ} {got : Bytes} {calls : List RecvCall}
    {out : RecvOutcome} (hgot : got.length ≤ size)
    (hout : recvAll size retry got calls = some out) (hfull : ¬out.rc < size) :
    out.got.length = size := by
  induction calls generalizing retry got with
  | nil =>
    rw [recvAll] at hout
    split_ifs at hout with hdone
    cases hout
    exact le_antisymm hgot hdone
  | cons call calls ih =>
    unfold recvAll at hout
    by_cases hdone : size ≤ got.length
    · rw [if_pos hdone] at hout
      cases hout
      exact le_antisymm hgot hdone
    rw [if_neg hdone] at hout
    cases call with
    | failed =>
      cases hout
      dsimp only at hfull ⊢
      omega
    | again =>
      dsimp only at hout
      split_ifs at hout with hlast
      · cases hout
        exact le_antisymm hgot (not_lt.mp hfull)
      · exact ih hgot hout
    | returned chunk =>
      dsimp only at hout
      split_ifs at hout with hclosed hfits
      · cases hout
        dsimp only at hfull ⊢
        omega
      · refine ih ?_ hout
        rw [List.length_append]
        exact_mod_cast hfits

theorem recvAll_of_neg {size : ℤ} (hsize : size < 0) (calls : List RecvCall) :
    recvAll size 0 [] calls = some ⟨0, [], calls⟩ := by
  have hdone : size ≤ ([] : Bytes).length := hsize.le
  cases calls with
  | nil => exact if_pos hdone
  | cons call calls => exact if_pos hdone

/-- Where `recv_all` returns the size of a header, as many bytes were read, and the size is one of
`int`. -/
theorem recvAll_header {headerSz : ℕ} (hlt : headerSz < 2 ^ 32) {calls : List RecvCall}
    {out : RecvOutcome} (hout : recvAll (asInt32 headerSz) 0 [] calls = some out)
    (hrc : out.rc = asInt32 headerSz) : out.got.length = headerSz ∧ headerSz < 2 ^ 31 := by
  by_cases hneg : asInt32 headerSz < 0
  · rw [recvAll_of_neg hneg] at hout
    cases hout
    exact absurd hrc.symm hneg.ne
  · have hsmall := lt_of_asInt32_nonneg hlt (not_lt.mp hneg)
    have hfull := recvAll_full (not_lt.mp hneg) hout hrc.not_lt
    rw [asInt32_of_lt hsmall] at hfull
    exact ⟨by exact_mod_cast hfull, hsmall⟩

/-! ### What an attempt comes to -/

/-- A complete frame: a header, and the body it announces, within the limit. -/
structure TcpMessageProtocol.CompleteFrame (protocol : TcpMessageProtocol) (frame : Bytes) :
    Prop where
  body_le : (protocol.bodySize ⟨frame.take protocol.headerSize.toNat⟩).toNat ≤
    protocol.maxBodySize.toNat
  length_eq : frame.length = protocol.headerSize.toNat +
    (protocol.bodySize ⟨frame.take protocol.headerSize.toNat⟩).toNat

variable {protocol : TcpMessageProtocol}

/-- A header and as many bytes as it announces are a complete frame. -/
theorem completeFrame_append {header body : Bytes}
    (hheader : header.length = protocol.headerSize.toNat)
    (hbody : body.length = (protocol.bodySize ⟨header⟩).toNat)
    (hlimit : (protocol.bodySize ⟨header⟩).toNat ≤ protocol.maxBodySize.toNat) :
    protocol.CompleteFrame (header ++ body) := by
  have htake : (header ++ body).take protocol.headerSize.toNat = header := by
    rw [← hheader, List.take_left]
  constructor
  · rw [htake]
    exact hlimit
  · rw [htake, List.length_append, hheader, hbody]

theorem writeAt_replicate_zero {data : Bytes} {size : ℕ} (hsize : data.length = size) :
    writeAt (List.replicate size 0) 0 data = data := by
  rw [writeAt, List.take_zero, List.nil_append, List.drop_of_length_le, List.append_nil]
  rw [List.length_replicate, zero_add, hsize]

theorem writeAt_resize {header : Bytes} {size : ℕ} (hsize : header.length = size) (body : Bytes) :
    writeAt (resize header (size + body.length)) size body = header ++ body := by
  subst hsize
  have hkept : header.take (header.length + body.length) = header :=
    List.take_of_length_le (Nat.le_add_right _ _)
  rw [resize, hkept, Nat.add_sub_cancel_left]
  have hwrite := writeAt_append header (List.replicate body.length 0) [] body
    (List.length_replicate ..).symm
  rwa [List.append_nil, List.append_nil] at hwrite

/-- Assumes: the size of a body is below `2 ^ 31`. Where `recv_all` does not return less, the whole
body was read. -/
theorem recvAll_body {bodySz : ℕ} (hsmall : bodySz < 2 ^ 31) {calls : List RecvCall}
    {out : RecvOutcome} (hout : recvAll (asInt32 bodySz) 0 [] calls = some out)
    (hfull : ¬out.rc < asInt32 bodySz) : out.got.length = bodySz := by
  rw [asInt32_of_lt hsmall] at hout hfull
  exact_mod_cast recvAll_full (Int.natCast_nonneg _) hout hfull

/-- Assumes: bodies within the limit are shorter than `2 ^ 31` bytes. An answer is a complete frame,
and it is what was read. -/
theorem readAck_spec (hmax : protocol.maxBodySize.toNat < 2 ^ 31) {calls : List RecvCall}
    {answer : AckRead} (hread : readAck protocol calls = some answer) {msg : TcpMessage}
    (hack : answer.ack = some msg) :
    protocol.CompleteFrame msg.data ∧ answer.read = msg.data := by
  unfold readAck at hread
  obtain ⟨header, hheader, hread⟩ := Option.bind_eq_some_iff.mp hread
  dsimp only at hread
  split_ifs at hread with hrc hlimit hbody
  · cases hread
    cases hack
  · cases hread
    cases hack
  all_goals
    obtain ⟨hlength, hheaderSmall⟩ :=
      recvAll_header protocol.headerSize.isLt hheader (not_not.mp hrc)
    rw [writeAt_replicate_zero hlength] at hread hlimit hbody
  · obtain ⟨body, hbodyRead, hread⟩ := Option.map_eq_some_iff.mp hread
    split_ifs at hread with hshort
    · cases hread
      cases hack
    · cases hread
      cases hack
      have hbodyLength := recvAll_body (by omega) hbodyRead hshort
      have hdata : writeAt (resize header.got ((protocol.headerSize.toNat +
          (protocol.bodySize ⟨header.got⟩).toNat) % 2 ^ 32)) protocol.headerSize.toNat body.got =
          header.got ++ body.got := by
        rw [Nat.mod_eq_of_lt (by omega), ← hbodyLength, writeAt_resize hlength]
      dsimp only
      rw [hdata]
      exact ⟨completeFrame_append hlength hbodyLength (not_lt.mp hlimit), rfl⟩
  · -- the header announces no body
    cases hread
    cases hack
    have hnone : ([] : Bytes).length = (protocol.bodySize ⟨header.got⟩).toNat :=
      (Nat.eq_zero_of_not_pos hbody).symm
    have hframe := completeFrame_append hlength hnone (not_lt.mp hlimit)
    rw [List.append_nil] at hframe
    exact ⟨hframe, rfl⟩

/-- A body of `2 ^ 31` bytes or more is not read: the answer has zeros in its place. -/
theorem readAck_of_huge {calls : List RecvCall} {header : RecvOutcome}
    (hheader : recvAll (asInt32 protocol.headerSize.toNat) 0 [] calls = some header)
    (hrc : header.rc = asInt32 protocol.headerSize.toNat)
    (hneg : asInt32 (protocol.bodySize ⟨header.got⟩).toNat < 0)
    (hlimit : (protocol.bodySize ⟨header.got⟩).toNat ≤ protocol.maxBodySize.toNat) :
    readAck protocol calls = some
      ⟨some ⟨writeAt (resize header.got ((protocol.headerSize.toNat +
        (protocol.bodySize ⟨header.got⟩).toNat) % 2 ^ 32)) protocol.headerSize.toNat []⟩,
        header.got⟩ := by
  obtain ⟨hlength, -⟩ := recvAll_header protocol.headerSize.isLt hheader hrc
  have hpos : (protocol.bodySize ⟨header.got⟩).toNat > 0 := by
    refine Nat.pos_of_ne_zero fun hzero ↦ ?_
    rw [hzero] at hneg
    exact absurd hneg (by decide)
  unfold readAck
  dsimp only
  rw [hheader, Option.bind_some, if_neg (not_not.mpr hrc), writeAt_replicate_zero hlength,
    if_neg (not_lt.mpr hlimit), if_pos hpos, recvAll_of_neg hneg, Option.map_some]
  dsimp only
  rw [if_neg hneg.not_gt, List.append_nil]

theorem length_writeAt_resize (data : Bytes) (size offset : ℕ) :
    (writeAt (resize data size) offset []).length = size := by
  rw [writeAt, resize, List.append_nil, List.length_nil, Nat.add_zero, List.take_append_drop,
    List.length_append, List.length_take, List.length_replicate]
  omega

section Attempt

variable {req : TcpMessage} {wantAck : Bool} {calls : ExchangeCalls} {result : Exchange}

/-- An attempt fails to send, or sends and reads no answer, or sends and reads one. -/
theorem exchange_cases (hresult : exchange protocol req wantAck calls = some result) :
    ∃ sent, sendWithRetry req.data (asInt32 req.data.length) sendMaxRetry 0 0 calls.sends =
        some sent ∧
      result.taken = req.data.take sent.totalSent ∧
      (sent.rc < asInt32 req.data.length ∧ result.rc = sendFail ∧ result.ack = none ∨
        ¬sent.rc < asInt32 req.data.length ∧ wantAck = false ∧ result.rc = sendSuccess ∧
          result.ack = none ∧ result.read = [] ∨
        ¬sent.rc < asInt32 req.data.length ∧ wantAck = true ∧
          ∃ answer, readAck protocol calls.recvs = some answer ∧ result.read = answer.read ∧
            result.ack = answer.ack ∧
            result.rc = if answer.ack = none then recvFail else sendSuccess) := by
  unfold exchange at hresult
  obtain ⟨sent, hsent, hresult⟩ := Option.bind_eq_some_iff.mp hresult
  dsimp only at hresult
  refine ⟨sent, hsent, ?_⟩
  split_ifs at hresult with hshort hnone
  · cases hresult
    exact ⟨rfl, Or.inl ⟨hshort, rfl, rfl⟩⟩
  · cases hresult
    exact ⟨rfl, Or.inr (Or.inl ⟨hshort, hnone, rfl, rfl, rfl⟩)⟩
  · obtain ⟨answer, hread, hresult⟩ := Option.map_eq_some_iff.mp hresult
    have hwant : wantAck = true := Bool.eq_true_of_not_eq_false hnone
    rcases hack : answer.ack with _ | msg
    · rw [hack] at hresult
      cases hresult
      exact ⟨rfl, Or.inr (Or.inr ⟨hshort, hwant, answer, hread, rfl, hack.symm, by rw [hack]; rfl⟩)⟩
    · rw [hack] at hresult
      cases hresult
      exact ⟨rfl, Or.inr (Or.inr ⟨hshort, hwant, answer, hread, rfl, hack.symm, by rw [hack]; rfl⟩)⟩

/-- Assumes: a request of at least one byte. `SEND_FAIL` means that fewer bytes were taken. -/
theorem exchange_sendFail (hreq : req.data ≠ [])
    (hresult : exchange protocol req wantAck calls = some result) (hrc : result.rc = sendFail) :
    result.taken.length < req.data.length := by
  obtain ⟨sent, hsent, htaken, hcases⟩ := exchange_cases hresult
  rcases hcases with ⟨hshort, -, -⟩ | ⟨-, -, hother, -, -⟩ | ⟨-, -, answer, -, -, -, hother⟩
  · have hlt := sendWithRetry_short (asInt32_le _) hreq hsent hshort
    rw [htaken, List.length_take]
    omega
  · cases hrc.symm.trans hother
  · rw [hother] at hrc
    split_ifs at hrc <;> cases hrc

/-- Assumes: bodies within the limit are shorter than `2 ^ 31` bytes. An answer is assigned with
`SEND_SUCCESS` only; it is a complete frame, and it is what was read. -/
theorem exchange_ack (hmax : protocol.maxBodySize.toNat < 2 ^ 31)
    (hresult : exchange protocol req wantAck calls = some result) {msg : TcpMessage}
    (hack : result.ack = some msg) :
    result.rc = sendSuccess ∧ protocol.CompleteFrame msg.data ∧ result.read = msg.data := by
  obtain ⟨sent, -, -, hcases⟩ := exchange_cases hresult
  rcases hcases with ⟨-, -, hnone⟩ | ⟨-, -, -, hnone, -⟩ | ⟨-, -, answer, hread, hbytes, heq, hrc⟩
  · cases hack.symm.trans hnone
  · cases hack.symm.trans hnone
  · rw [heq] at hack
    obtain ⟨hframe, hdata⟩ := readAck_spec hmax hread hack
    rw [hack] at hrc
    exact ⟨hrc, hframe, hbytes.trans hdata⟩

/-- An answer is assigned only where the caller passed a pointer for it. -/
theorem exchange_asked (hresult : exchange protocol req wantAck calls = some result)
    {msg : TcpMessage} (hack : result.ack = some msg) : wantAck = true := by
  obtain ⟨sent, -, -, hcases⟩ := exchange_cases hresult
  rcases hcases with ⟨-, -, hnone⟩ | ⟨-, -, -, hnone, -⟩ | ⟨-, hwant, -⟩
  · cases hack.symm.trans hnone
  · cases hack.symm.trans hnone
  · exact hwant

theorem exchange_success (hresult : exchange protocol req true calls = some result)
    (hrc : result.rc = sendSuccess) : ∃ msg, result.ack = some msg := by
  obtain ⟨sent, -, -, hcases⟩ := exchange_cases hresult
  rcases hcases with ⟨-, hother, -⟩ | ⟨-, hwant, -⟩ | ⟨-, -, answer, -, -, heq, hother⟩
  · cases hrc.symm.trans hother
  · cases hwant
  · rw [heq]
    refine Option.ne_none_iff_exists'.mp fun hnone ↦ ?_
    rw [if_pos hnone] at hother
    cases hrc.symm.trans hother

end Attempt

/-! ### What a call comes to -/

namespace SyncClient

section Calls

variable {client after : SyncClient} {req : TcpMessage} {wantAck : Bool} {result : CallResult}

@[simp] theorem connections_disconnect (client : SyncClient) :
    client.disconnect.connections = client.connections := List.append_nil _

theorem connections_of_fd {conn : SyncConnection} (hfd : client.fd = some conn) :
    client.connections = client.closed ++ [conn] := by
  rw [connections, hfd]
  rfl

/-- `innerSend` fails at once without a connection. Otherwise it makes one attempt, and the
connection stays open if that succeeds. -/
theorem innerSend_cases {calls : ExchangeCalls}
    (hcall : client.innerSend protocol req wantAck calls = some (result, after)) :
    client.fd = none ∧ result = ⟨sendFail, none⟩ ∧ after = client ∨
      ∃ conn part, client.fd = some conn ∧ exchange protocol req wantAck calls = some part ∧
        result = ⟨part.rc, part.ack⟩ ∧ after.connections = client.closed ++ [conn.extend part] ∧
        (part.rc = sendSuccess → after = { client with fd := some (conn.extend part) }) ∧
        (part.rc ≠ sendSuccess → after.fd = none) := by
  unfold innerSend at hcall
  rcases hfd : client.fd with _ | conn
  · rw [hfd] at hcall
    cases hcall
    exact Or.inl ⟨rfl, rfl, rfl⟩
  · rw [hfd] at hcall
    obtain ⟨part, hpart, heq⟩ := Option.map_eq_some_iff.mp hcall
    dsimp only at heq
    refine Or.inr ⟨conn, part, rfl, hpart, ?_⟩
    by_cases hrc : part.rc = sendSuccess
    · rw [if_neg (not_not.mpr hrc)] at heq
      cases heq
      exact ⟨rfl, rfl, fun _ ↦ rfl, fun hne ↦ absurd hrc hne⟩
    · rw [if_pos hrc] at heq
      cases heq
      exact ⟨rfl, connections_disconnect _, fun heq ↦ absurd heq hrc, fun _ ↦ rfl⟩

theorem innerSend_fd {calls : ExchangeCalls}
    (hcall : client.innerSend protocol req wantAck calls = some (result, after))
    (hrc : result.rc ≠ sendSuccess) : after.fd = none := by
  rcases innerSend_cases hcall with ⟨hfd, -, rfl⟩ | ⟨conn, part, -, -, rfl, -, -, hclosed⟩
  · exact hfd
  · exact hclosed hrc

theorem innerSend_length {calls : ExchangeCalls}
    (hcall : client.innerSend protocol req wantAck calls = some (result, after)) :
    after.connections.length = client.connections.length := by
  rcases innerSend_cases hcall with ⟨-, -, rfl⟩ | ⟨conn, part, hfd, -, -, hconnections, -⟩
  · rfl
  · rw [hconnections, connections_of_fd hfd, List.length_append, List.length_append]
    rfl

variable {side : SyncConnection → Bytes}

theorem addedSince_self (client : SyncClient) (index : ℕ) :
    addedSince side client client index = [] :=
  List.drop_length ..

/-- What an attempt adds to the connections is added to the one it was made on. -/
theorem addedSince_extend {conn next : SyncConnection} {more : Bytes} (hfd : client.fd = some conn)
    (hafter : after.connections = client.closed ++ [next]) (hside : side next = side conn ++ more)
    (index : ℕ) :
    addedSince side client after index = if index = client.closed.length then more else [] := by
  have hbefore := connections_of_fd hfd
  rw [addedSince, bytesOn, bytesOn, hbefore, hafter]
  split_ifs with hindex
  · rw [hindex, List.getElem?_concat_length, List.getElem?_concat_length]
    show (side next).drop (side conn).length = more
    rw [hside, List.drop_left]
  · rcases lt_or_gt_of_ne hindex with hlt | hgt
    · rw [List.getElem?_append_left hlt, List.getElem?_append_left hlt, List.drop_length]
    · have hout (conn : SyncConnection) : (client.closed ++ [conn])[index]? = none := by
        rw [List.getElem?_eq_none]
        rw [List.length_append]
        exact hgt
      rw [hout, hout]
      rfl

/-- Assumes: a connection was opened, and only it was used. What was added to the others was added
before. -/
theorem addedSince_opened {middle : SyncClient} {next : SyncConnection}
    (hlength : middle.connections.length = client.connections.length)
    (hafter : after.connections = middle.connections ++ [next]) (index : ℕ) :
    addedSince side client after index =
      if index = middle.connections.length then side next
      else addedSince side client middle index := by
  split_ifs with hindex
  · rw [addedSince, bytesOn, bytesOn, hafter, hindex, List.getElem?_concat_length,
      List.getElem?_eq_none hlength.ge]
    rfl
  · have hsame : after.bytesOn side index = middle.bytesOn side index := by
      rw [bytesOn, bytesOn, hafter]
      rcases lt_or_gt_of_ne hindex with hlt | hgt
      · rw [List.getElem?_append_left hlt]
      · rw [List.getElem?_eq_none hgt.le, List.getElem?_eq_none]
        rw [List.length_append]
        exact hgt
    rw [addedSince, hsame]
    rfl

/-- Assumes: a request of at least one byte. `innerSend` returns `SEND_FAIL` only if no connection
took all of it. -/
theorem innerSend_sendFail (hreq : req.data ≠ []) {calls : ExchangeCalls}
    (hcall : client.innerSend protocol req wantAck calls = some (result, after))
    (hrc : result.rc = sendFail) (index : ℕ) :
    (takenSince client after index).length < req.data.length := by
  have hpos : 0 < req.data.length := List.length_pos_iff.mpr hreq
  rcases innerSend_cases hcall with ⟨-, -, rfl⟩ | ⟨conn, part, hfd, hpart, rfl, hafter, -⟩
  · rw [takenSince, addedSince_self]
    exact hpos
  · rw [takenSince, addedSince_extend hfd hafter rfl]
    split_ifs
    · exact exchange_sendFail hreq hpart hrc
    · exact hpos

/-- A `send` is its first attempt, or, after `SEND_FAIL`, a second attempt on a new connection, or
neither where it cannot connect. -/
theorem send_cases {calls : SendCalls}
    (hcall : client.send protocol req wantAck calls = some (result, after)) :
    ∃ first middle, client.innerSend protocol req wantAck calls.first = some (first, middle) ∧
      (first.rc ≠ sendFail ∧ result = first ∧ after = middle ∨
        first.rc = sendFail ∧ calls.connects = false ∧ result = first ∧ after.fd = none ∧
          after.connections = middle.connections ∨
        first.rc = sendFail ∧ calls.connects = true ∧
          (SyncClient.mk (some {}) middle.connections).innerSend protocol req wantAck calls.second =
            some (result, after)) := by
  unfold send at hcall
  obtain ⟨⟨first, middle⟩, hfirst, hrest⟩ := Option.bind_eq_some_iff.mp hcall
  refine ⟨first, middle, hfirst, ?_⟩
  dsimp only at hrest
  by_cases hrc : first.rc = sendFail
  · rw [if_pos hrc] at hrest
    rcases hconnects : calls.connects with _ | _
    · rw [hconnects] at hrest
      cases hrest
      refine Or.inr (Or.inl ⟨hrc, rfl, rfl, rfl, ?_⟩)
      rw [connect, if_neg Bool.false_ne_true, connections_disconnect, connections_disconnect]
    · rw [hconnects, if_pos rfl, connect, if_pos rfl] at hrest
      refine Or.inr (Or.inr ⟨hrc, rfl, ?_⟩)
      rw [← hrest, disconnect, connections_disconnect]
  · rw [if_neg hrc] at hrest
    cases hrest
    exact Or.inl ⟨hrc, rfl, rfl⟩

/-- Assumes: a request of at least one byte. Only one connection can have taken all of it during a
call: the one of the last attempt. -/
theorem eq_of_takenSince (hreq : req.data ≠ []) {calls : SendCalls}
    (hcall : client.send protocol req wantAck calls = some (result, after)) :
    ∃ last, ∀ index, takenSince client after index = req.data → index = last := by
  obtain ⟨first, middle, hfirst, hcases⟩ := send_cases hcall
  rcases hcases with ⟨-, -, rfl⟩ | ⟨hrc, -, -, -, hsame⟩ | ⟨hrc, -, hsecond⟩
  · rcases innerSend_cases hfirst with ⟨-, -, rfl⟩ | ⟨conn, part, hfd, -, -, hafter, -⟩
    · refine ⟨0, fun index hfull ↦ absurd hfull.symm ?_⟩
      rw [takenSince, addedSince_self]
      exact hreq
    · refine ⟨client.closed.length, fun index hfull ↦ ?_⟩
      rw [takenSince, addedSince_extend hfd hafter rfl] at hfull
      by_contra hindex
      rw [if_neg hindex] at hfull
      exact hreq hfull.symm
  · refine ⟨0, fun index hfull ↦ ?_⟩
    have hshort := innerSend_sendFail hreq hfirst hrc index
    have hmiddle : takenSince client after index = takenSince client middle index := by
      rw [takenSince, takenSince, addedSince, addedSince, bytesOn, bytesOn, hsame, bytesOn]
    rw [← hmiddle, hfull] at hshort
    exact absurd hshort (lt_irrefl _)
  · obtain ⟨next, hnext⟩ : ∃ next, after.connections = middle.connections ++ [next] := by
      rcases innerSend_cases hsecond with ⟨hnone, -⟩ | ⟨conn, part, -, -, -, hafter, -⟩
      · cases hnone
      · exact ⟨_, hafter⟩
    refine ⟨middle.connections.length, fun index hfull ↦ ?_⟩
    by_contra hindex
    have hshort := innerSend_sendFail hreq hfirst hrc index
    rw [takenSince, addedSince_opened (innerSend_length hfirst) hnext, if_neg hindex] at hfull
    rw [takenSince, hfull] at hshort
    exact absurd hshort (lt_irrefl _)

/-- Assumes: bodies within the limit are shorter than `2 ^ 31` bytes. An answer that an attempt
assigned is a complete frame and all that the attempt read, and the connection stays open. -/
theorem innerSend_ack (hmax : protocol.maxBodySize.toNat < 2 ^ 31) {calls : ExchangeCalls}
    (hcall : client.innerSend protocol req wantAck calls = some (result, after)) {msg : TcpMessage}
    (hack : result.ack = some msg) :
    result.rc = sendSuccess ∧ protocol.CompleteFrame msg.data ∧
      ∃ conn part, client.fd = some conn ∧ exchange protocol req wantAck calls = some part ∧
        part.rc = sendSuccess ∧ part.read = msg.data ∧
        after = { client with fd := some (conn.extend part) } := by
  rcases innerSend_cases hcall with ⟨-, rfl, -⟩ | ⟨conn, part, hfd, hpart, rfl, -, hopen, -⟩
  · cases hack
  · obtain ⟨hrc, hframe, hread⟩ := exchange_ack hmax hpart hack
    exact ⟨hrc, hframe, conn, part, hfd, hpart, hrc, hread, hopen hrc⟩

theorem innerSend_asked {calls : ExchangeCalls}
    (hcall : client.innerSend protocol req wantAck calls = some (result, after)) {msg : TcpMessage}
    (hack : result.ack = some msg) : wantAck = true := by
  rcases innerSend_cases hcall with ⟨-, rfl, -⟩ | ⟨conn, part, -, hpart, rfl, -⟩
  · cases hack
  · exact exchange_asked hpart hack

theorem innerSend_success {calls : ExchangeCalls}
    (hcall : client.innerSend protocol req true calls = some (result, after))
    (hrc : result.rc = sendSuccess) : ∃ msg, result.ack = some msg := by
  rcases innerSend_cases hcall with ⟨-, rfl, -⟩ | ⟨conn, part, -, hpart, rfl, -⟩
  · cases hrc
  · exact exchange_success hpart hrc

/-- The answer of a call: it is assigned with `SEND_SUCCESS` only and where it was asked for, and
always then; it is a complete frame, and it is what was read from the connection that is now open.
-/
structure AckComplete (protocol : TcpMessageProtocol) (before after : SyncClient) (wantAck : Bool)
    (result : CallResult) : Prop where
  success : ∀ msg, result.ack = some msg → result.rc = sendSuccess
  asked : ∀ msg, result.ack = some msg → wantAck = true
  assigned : wantAck = true → result.rc = sendSuccess → ∃ msg, result.ack = some msg
  frame : ∀ msg, result.ack = some msg → protocol.CompleteFrame msg.data
  read : ∀ msg, result.ack = some msg → readSince before after after.closed.length = msg.data

theorem ackComplete_innerSend (hmax : protocol.maxBodySize.toNat < 2 ^ 31) {calls : ExchangeCalls}
    (hcall : client.innerSend protocol req wantAck calls = some (result, after)) :
    AckComplete protocol client after wantAck result := by
  constructor
  · exact fun msg hack ↦ (innerSend_ack hmax hcall hack).1
  · exact fun msg hack ↦ innerSend_asked hcall hack
  · rintro rfl hsuccess
    exact innerSend_success hcall hsuccess
  · exact fun msg hack ↦ (innerSend_ack hmax hcall hack).2.1
  · intro msg hack
    obtain ⟨-, -, conn, part, hfd, -, -, hread, rfl⟩ := innerSend_ack hmax hcall hack
    rw [readSince, addedSince_extend hfd rfl rfl, if_pos rfl, hread]

theorem ackComplete_of_failed (hnone : result.ack = none) (hrc : result.rc ≠ sendSuccess) :
    AckComplete protocol client after wantAck result := by
  have hack : ∀ msg, result.ack ≠ some msg := fun msg hack ↦ by cases hnone.symm.trans hack
  constructor
  · exact fun msg heq ↦ absurd heq (hack msg)
  · exact fun msg heq ↦ absurd heq (hack msg)
  · exact fun _ hsuccess ↦ absurd hsuccess hrc
  · exact fun msg heq ↦ absurd heq (hack msg)
  · exact fun msg heq ↦ absurd heq (hack msg)

theorem ackComplete_send (hmax : protocol.maxBodySize.toNat < 2 ^ 31) {calls : SendCalls}
    (hcall : client.send protocol req wantAck calls = some (result, after)) :
    AckComplete protocol client after wantAck result := by
  obtain ⟨first, middle, hfirst, hcases⟩ := send_cases hcall
  rcases hcases with ⟨-, rfl, rfl⟩ | ⟨hrc, -, rfl, -, -⟩ | ⟨hrc, -, hsecond⟩
  · exact ackComplete_innerSend hmax hfirst
  · have hfail : result.rc ≠ sendSuccess := fun hsuccess ↦ by cases hrc.symm.trans hsuccess
    refine ackComplete_of_failed (Option.eq_none_iff_forall_ne_some.mpr fun msg hack ↦ ?_) hfail
    exact hfail (innerSend_ack hmax hfirst hack).1
  · have hlast := ackComplete_innerSend hmax hsecond
    refine ⟨hlast.success, hlast.asked, hlast.assigned, hlast.frame, fun msg hack ↦ ?_⟩
    obtain ⟨-, -, conn, part, hfd, -, -, hread, rfl⟩ := innerSend_ack hmax hsecond hack
    cases hfd
    rw [readSince, addedSince_opened (innerSend_length hfirst) rfl, if_pos rfl]
    exact hread

theorem send_fd {calls : SendCalls}
    (hcall : client.send protocol req wantAck calls = some (result, after))
    (hrc : result.rc ≠ sendSuccess) : after.fd = none := by
  obtain ⟨first, middle, hfirst, hcases⟩ := send_cases hcall
  rcases hcases with ⟨-, rfl, rfl⟩ | ⟨-, -, -, hclosed, -⟩ | ⟨-, -, hsecond⟩
  · exact innerSend_fd hfirst hrc
  · exact hclosed
  · exact innerSend_fd hsecond hrc

/-- Where the first attempt fails, every connection from before the call is closed by it. -/
theorem length_le_closed {calls : SendCalls}
    (hcall : client.send protocol req wantAck calls = some (result, after)) {first : CallResult}
    {middle : SyncClient}
    (hfirst : client.innerSend protocol req wantAck calls.first = some (first, middle))
    (hrc : first.rc ≠ sendSuccess) : client.connections.length ≤ after.closed.length := by
  have hlength := innerSend_length hfirst
  have hclosed := innerSend_fd hfirst hrc
  have hsame {other : SyncClient} (hfd : other.fd = none) : other.connections = other.closed := by
    rw [connections, hfd]
    exact List.append_nil _
  obtain ⟨first', middle', hfirst', hcases⟩ := send_cases hcall
  cases hfirst.symm.trans hfirst'
  rcases hcases with ⟨-, -, rfl⟩ | ⟨-, -, -, hfd, hconnections⟩ | ⟨-, -, hsecond⟩
  · rw [← hlength, hsame hclosed]
  · rw [← hsame hfd, hconnections, hlength]
  · rcases innerSend_cases hsecond with ⟨hnone, -⟩ | ⟨conn, part, hfd, -, -, hafter, hopen, hshut⟩
    · cases hnone
    · by_cases hpart : part.rc = sendSuccess
      · rw [hopen hpart]
        exact hlength.ge
      · rw [← hsame (hshut hpart), hafter, List.length_append]
        dsimp only
        omega

end Calls

/-! ### A request that is sent again -/

/-- A client that has just connected. -/
def justConnected : SyncClient := ⟨some {}, []⟩

/-- The first connection fails after one byte. The second takes the whole request in two pieces, and
the answer comes in three. -/
def resentCalls : SendCalls where
  first := ⟨[.returned 1, .failed], []⟩
  connects := true
  second :=
    ⟨[.returned 2, .again, .returned 3], [.returned [0, 0], .returned [0, 1], .returned [7]]⟩

/-- The client of `resentCalls` afterwards. -/
def resent : SyncClient := ⟨some ⟨[0, 0, 0, 1, 5], [0, 0, 0, 1, 7]⟩, [⟨[0], []⟩]⟩

theorem send_resent :
    justConnected.send (defaultMsgProto .little) ⟨[0, 0, 0, 1, 5]⟩ true resentCalls =
      some (⟨sendSuccess, some ⟨[0, 0, 0, 1, 7]⟩⟩, resent) := by
  decide +kernel

/-- An empty request on a connection that is lost; the next connection is not. -/
def emptyCalls : SendCalls where
  first := ⟨[.failed], []⟩
  connects := true
  second := ⟨[.returned 0], []⟩

/-- A protocol in which every header announces a body of `2 ^ 31` bytes. -/
def hugeProtocol : TcpMessageProtocol where
  genHeartbeat := ⟨[0]⟩
  isHeartbeat := fun _ ↦ false
  type := fun _ ↦ 0
  headerSize := 1
  bodySize := fun _ ↦ 2147483648#32
  maxBodySize := 2147483648#32

/-- The request is taken, and a header is read. -/
def hugeCalls : SendCalls where
  first := ⟨[.returned 1], [.returned [0]]⟩
  connects := false
  second := ⟨[], []⟩

theorem send_huge : justConnected.send hugeProtocol ⟨[0]⟩ true hugeCalls =
    some (⟨sendSuccess, some ⟨writeAt (resize [0] ((1 + 2147483648) % 2 ^ 32)) 1 []⟩⟩,
      ⟨some ⟨[0], [0]⟩, []⟩) := by
  have hread : readAck hugeProtocol [.returned [0]] =
      some ⟨some ⟨writeAt (resize [0] ((1 + 2147483648) % 2 ^ 32)) 1 []⟩, [0]⟩ :=
    @readAck_of_huge hugeProtocol [.returned [0]] ⟨1, [0], []⟩ rfl rfl (by decide)
      (le_refl 2147483648)
  have hsend : sendWithRetry [0] (asInt32 1) sendMaxRetry 0 0 [.returned 1] = some ⟨1, 1⟩ := by
    decide
  have hshort : ¬(1 : ℤ) < asInt32 ([0] : Bytes).length := by decide
  have hexchange : exchange hugeProtocol ⟨[0]⟩ true hugeCalls.first = some ⟨sendSuccess,
      some ⟨writeAt (resize [0] ((1 + 2147483648) % 2 ^ 32)) 1 []⟩, [0], [0]⟩ := by
    unfold exchange
    show (sendWithRetry [0] (asInt32 1) sendMaxRetry 0 0 [.returned 1]).bind _ = _
    rw [hsend, Option.bind_some]
    dsimp only
    rw [if_neg hshort, if_neg (by decide), show hugeCalls.first.recvs = [.returned [0]] from rfl,
      hread]
    rfl
  unfold send innerSend
  dsimp only [justConnected]
  rw [hexchange]
  rfl

end SyncClient

end TszyUlt.Zbf
