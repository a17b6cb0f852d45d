import TszyUlt.Lib.Transition
import TszyUlt.Zbf.RecvPath
import TszyUlt.Zbf.SyncClient

/-!
# Answers of the synchronous client

`zbf/socket_tcp_v5.hpp`: a run of `tcpsock_client::send`, `connect` and `disconnect` on one client,
against a server that answers every request that is not a heartbeat once and in order, on the
connection the request came on (`AnsweringServer`). The server cuts the frames off what a connection
took (`requestsOf`), and what is read from the connection is a beginning of its answers
(`AnsweringServer.Served`).

A `send` without a pointer for the answer leaves the answer on the connection, and the next `send`
that asks for one reads it. Where every `send` that asks for an answer finds none unread
(`SyncClient.noUnread`), each answer is the one to the request it was returned for
(`acks_belong`); `not_acks_belong` is a run of two calls in which it is the one to the call before.

Scope. Requests are complete frames of the protocol, and their sizes are values of `int`
(`TcpMessageProtocol.FitsInt`). A request that the socket took may be lost on the way; its answer is
then one of those that never arrive.
-/

set_option autoImplicit false
set_option relaxedAutoImplicit false

namespace TszyUlt.Zbf

open Lib

/-- A protocol whose frames have sizes that are values of `int`. -/
structure TcpMessageProtocol.FitsInt (protocol : TcpMessageProtocol) : Prop where
  headerSize_pos : 0 < protocol.headerSize.toNat
  total_lt : protocol.headerSize.toNat + protocol.maxBodySize.toNat < 2 ^ 31

variable {protocol : TcpMessageProtocol}

theorem TcpMessageProtocol.FitsInt.framable (hprotocol : protocol.FitsInt) : protocol.Framable where
  headerSize_pos := hprotocol.headerSize_pos
  total_lt := hprotocol.total_lt.trans (by decide)

theorem TcpMessageProtocol.FitsInt.maxBodySize_lt (hprotocol : protocol.FitsInt) :
    protocol.maxBodySize.toNat < 2 ^ 31 :=
  (Nat.le_add_left _ _).trans_lt hprotocol.total_lt

theorem TcpMessageProtocol.CompleteFrame.isFrame {frame : Bytes}
    (hframe : protocol.CompleteFrame frame) (hprotocol : protocol.FitsInt) :
    hprotocol.framable.format.IsFrame frame where
  header_le := Nat.le.intro hframe.length_eq.symm
  body_le := hframe.body_le
  length_eq := hframe.length_eq

/-! ### The server -/

/-- What a server answers to a request, which is known by its connection and by how many requests
came on the connection before it. -/
structure AnsweringServer (protocol : TcpMessageProtocol) where
  answer : ℕ → ℕ → Bytes → TcpMessage
  complete : ∀ connection position req, protocol.CompleteFrame (answer connection position req).data

/-- The requests to be answered in what a connection took: its frames without the heartbeats. -/
def requestsOf (hprotocol : protocol.FitsInt) (accepted : Bytes) : List Bytes :=
  (hprotocol.framable.format.framesOf accepted).filter fun frame ↦ !protocol.isHeartbeat ⟨frame⟩

namespace AnsweringServer

variable (server : AnsweringServer protocol) (hprotocol : protocol.FitsInt)

/-- The answers to the requests of a connection. -/
def answersTo (connection : ℕ) (requests : List Bytes) : List Bytes :=
  requests.mapIdx fun position req ↦ (server.answer connection position req).data

/-- What was read from each connection is a beginning of the answers. -/
def Served (client : SyncClient) : Prop :=
  ∀ entry ∈ client.connections.zipIdx, entry.1.received <+:
    (server.answersTo entry.2 (requestsOf hprotocol entry.1.accepted)).flatten

instance (client : SyncClient) : Decidable (server.Served hprotocol client) :=
  inferInstanceAs (Decidable (∀ entry ∈ client.connections.zipIdx, _))

end AnsweringServer

/-- No answer on the open connection is left unread. -/
def SyncClient.noUnread (server : AnsweringServer protocol) (hprotocol : protocol.FitsInt)
    (client : SyncClient) : Bool :=
  client.fd.all fun conn ↦ conn.received ==
    (server.answersTo client.closed.length (requestsOf hprotocol conn.accepted)).flatten

/-! ### Runs of calls -/

/-- An answer that a `send` returned: the request, the answer, and which request of which connection
this was. -/
structure AckRecord where
  req : TcpMessage
  ack : TcpMessage
  connection : ℕ
  position : ℕ

/-- The answer is the one to the request. -/
def AckRecord.Belongs (server : AnsweringServer protocol) (record : AckRecord) : Prop :=
  protocol.isHeartbeat record.req = false ∧
    record.ack = server.answer record.connection record.position record.req.data

instance (server : AnsweringServer protocol) (record : AckRecord) :
    Decidable (record.Belongs server) :=
  inferInstanceAs (Decidable (_ ∧ _))

/-- A client and the answers it has returned. -/
structure SyncRun where
  client : SyncClient := {}
  acks : List AckRecord := []

/-- A call on the client. A request is a complete frame. -/
inductive SyncAction (protocol : TcpMessageProtocol)
  | connect (connects : Bool)
  | disconnect
  | send (req : { msg : TcpMessage // protocol.CompleteFrame msg.data }) (wantAck : Bool)
    (calls : SendCalls)

namespace SyncRun

variable (server : AnsweringServer protocol) (hprotocol : protocol.FitsInt)

/-- One call. The system calls of a `send` come to what they can against the server. -/
def step (run : SyncRun) : SyncAction protocol → Option SyncRun
  | .connect connects => some { run with client := run.client.connect connects }
  | .disconnect => some { run with client := run.client.disconnect }
  | .send req wantAck calls =>
    (run.client.send protocol req.1 wantAck calls).bind fun called ↦
      let position := (requestsOf hprotocol
        (run.client.bytesOn SyncConnection.accepted called.2.closed.length)).length
      if server.Served hprotocol called.2 then
        some ⟨called.2, run.acks ++ called.1.ack.toList.map fun ack ↦
          ⟨req.1, ack, called.2.closed.length, position⟩⟩
      else none

/-- A `send` that asks for an answer finds none unread. -/
def findsNoUnread (run : SyncRun) : SyncAction protocol → Bool
  | .connect _ => true
  | .disconnect => true
  | .send _ wantAck _ => !wantAck || run.client.noUnread server hprotocol

end SyncRun

/-! ### What a connection took -/

/-- What was given to a connection is a concatenation of complete frames. -/
def FramedBytes (protocol : TcpMessageProtocol) (accepted : Bytes) : Prop :=
  ∃ frames : List Bytes, (∀ frame ∈ frames, protocol.CompleteFrame frame) ∧
    accepted = frames.flatten

theorem framedBytes_nil : FramedBytes protocol [] := ⟨[], fun _ h ↦ absurd h List.not_mem_nil, rfl⟩

theorem FramedBytes.append {accepted frame : Bytes} (hframed : FramedBytes protocol accepted)
    (hframe : protocol.CompleteFrame frame) : FramedBytes protocol (accepted ++ frame) := by
  obtain ⟨frames, hframes, rfl⟩ := hframed
  refine ⟨frames ++ [frame], ?_, ?_⟩
  · exact List.forall_mem_append.mpr ⟨hframes, List.forall_mem_singleton.mpr hframe⟩
  · rw [List.flatten_append, List.flatten_singleton]

section Requests

variable (hprotocol : protocol.FitsInt)

theorem requestsOf_nil : requestsOf hprotocol [] = [] := by
  have hframes : hprotocol.framable.format.framesOf [] = [] :=
    FrameFormat.framesOf_of_short hprotocol.headerSize_pos
  rw [requestsOf, hframes, List.filter_nil]

/-- Assumes: complete frames were given so far. One more is one more request, or a heartbeat. -/
theorem requestsOf_append {accepted : Bytes} (hframed : FramedBytes protocol accepted)
    {req : TcpMessage} (hreq : protocol.CompleteFrame req.data) :
    requestsOf hprotocol (accepted ++ req.data) =
      requestsOf hprotocol accepted ++ if protocol.isHeartbeat req then [] else [req.data] := by
  obtain ⟨frames, hframes, rfl⟩ := hframed
  have hall : ∀ frame ∈ frames, hprotocol.framable.format.IsFrame frame :=
    fun frame hframe ↦ (hframes frame hframe).isFrame hprotocol
  have hlast : hprotocol.framable.format.framesOf req.data = [req.data] := by
    have hone := FrameFormat.framesOf_flatten
      (List.forall_mem_singleton.mpr (hreq.isFrame hprotocol))
    rwa [List.flatten_singleton] at hone
  rw [requestsOf, requestsOf, FrameFormat.framesOf_flatten_append hall, hlast,
    FrameFormat.framesOf_flatten hall, List.filter_append, List.filter_singleton]
  rcases protocol.isHeartbeat req <;> rfl

include hprotocol in
theorem length_lt_of_completeFrame {frame : Bytes} (hframe : protocol.CompleteFrame frame) :
    frame.length < 2 ^ 31 := by
  have htotal := hprotocol.total_lt
  have hbody := hframe.body_le
  rw [hframe.length_eq]
  omega

end Requests

/-- Assumes: a request whose size is a value of `int`. Unless the attempt returns `SEND_FAIL`, the
connection took all of it. -/
theorem exchange_taken {req : TcpMessage} {wantAck : Bool} {calls : ExchangeCalls} {part : Exchange}
    (hsize : req.data.length < 2 ^ 31) (hpart : exchange protocol req wantAck calls = some part)
    (hrc : part.rc ≠ sendFail) : part.taken = req.data := by
  obtain ⟨sent, hsent, htaken, hcases⟩ := exchange_cases hpart
  have hfull : ¬sent.rc < asInt32 req.data.length := by
    rcases hcases with ⟨-, hfail, -⟩ | ⟨hfull, -⟩ | ⟨hfull, -⟩
    · exact absurd hfail hrc
    · exact hfull
    · exact hfull
  rw [htaken, sendWithRetry_full (asInt32_of_lt hsize) hsent hfull, List.take_length]

namespace SyncClient

variable {client after : SyncClient} {wantAck : Bool} {result : CallResult}

/-- The open connection was given complete frames. -/
def Framed (protocol : TcpMessageProtocol) (client : SyncClient) : Prop :=
  ∀ conn, client.fd = some conn → FramedBytes protocol conn.accepted

theorem framed_of_fd (hfd : client.fd = none) : client.Framed protocol :=
  fun conn hconn ↦ by cases hfd.symm.trans hconn

theorem framed_opened (closed : List SyncConnection) : Framed protocol ⟨some {}, closed⟩ := by
  rintro conn ⟨⟩
  exact framedBytes_nil

theorem Framed.innerSend (hprotocol : protocol.FitsInt) (hframed : client.Framed protocol)
    {req : TcpMessage} (hreq : protocol.CompleteFrame req.data) {calls : ExchangeCalls}
    (hcall : client.innerSend protocol req wantAck calls = some (result, after)) :
    after.Framed protocol := by
  rcases innerSend_cases hcall with ⟨-, -, rfl⟩ | ⟨conn, part, hfd, hpart, -, -, hopen, hshut⟩
  · exact hframed
  · by_cases hrc : part.rc = sendSuccess
    · have hfail : part.rc ≠ sendFail := fun hfail ↦ by cases hrc.symm.trans hfail
      have htaken := exchange_taken (length_lt_of_completeFrame hprotocol hreq) hpart hfail
      rw [hopen hrc]
      rintro extended ⟨⟩
      rw [SyncConnection.extend, htaken]
      exact (hframed conn hfd).append hreq
    · exact framed_of_fd (hshut hrc)

theorem Framed.send (hprotocol : protocol.FitsInt) (hframed : client.Framed protocol)
    {req : TcpMessage} (hreq : protocol.CompleteFrame req.data) {calls : SendCalls}
    (hcall : client.send protocol req wantAck calls = some (result, after)) :
    after.Framed protocol := by
  obtain ⟨first, middle, hfirst, hcases⟩ := send_cases hcall
  rcases hcases with ⟨-, -, rfl⟩ | ⟨-, -, -, hfd, -⟩ | ⟨-, -, hsecond⟩
  · exact hframed.innerSend hprotocol hreq hfirst
  · exact framed_of_fd hfd
  · exact (framed_opened _).innerSend hprotocol hreq hsecond

end SyncClient

/-! ### Which answer is read -/

section Answers

variable (server : AnsweringServer protocol) (hprotocol : protocol.FitsInt)

theorem answersTo_concat (connection : ℕ) (requests : List Bytes) (req : Bytes) :
    server.answersTo connection (requests ++ [req]) =
      server.answersTo connection requests ++
        [(server.answer connection requests.length req).data] := List.mapIdx_concat

theorem Served.of_getElem? {client : SyncClient} (hserved : server.Served hprotocol client)
    {connection : ℕ} {conn : SyncConnection} (hconn : client.connections[connection]? = some conn) :
    conn.received <+:
      (server.answersTo connection (requestsOf hprotocol conn.accepted)).flatten :=
  hserved (conn, connection) (List.mem_zipIdx_iff_getElem?.mpr hconn)

variable {server hprotocol} {client after : SyncClient} {wantAck : Bool} {result : CallResult}

/-- Assumes: the connection was given complete frames, all answers on it were read, and the server
has sent what was read since. A frame that was read is the answer to the request just given. -/
theorem answer_of_read {connection : ℕ} {conn : SyncConnection}
    (hframed : FramedBytes protocol conn.accepted)
    (hunread : conn.received =
      (server.answersTo connection (requestsOf hprotocol conn.accepted)).flatten)
    {req msg : TcpMessage} (hreq : protocol.CompleteFrame req.data)
    (hmsg : protocol.CompleteFrame msg.data)
    (hserved : conn.received ++ msg.data <+: (server.answersTo connection
      (requestsOf hprotocol (conn.accepted ++ req.data))).flatten) :
    protocol.isHeartbeat req = false ∧
      msg = server.answer connection (requestsOf hprotocol conn.accepted).length req.data := by
  have hframe := hmsg.isFrame hprotocol
  rw [requestsOf_append hprotocol hframed hreq] at hserved
  rcases hbeat : protocol.isHeartbeat req with _ | _
  · rw [hbeat, if_neg Bool.false_ne_true, answersTo_concat, List.flatten_append, ← hunread,
      List.prefix_append_right_inj] at hserved
    have hanswer := (server.complete connection (requestsOf hprotocol conn.accepted).length
      req.data).isFrame hprotocol
    obtain ⟨rest, heq⟩ := FrameFormat.exists_eq_cons_of_prefix_flatten hframe
      (List.forall_mem_singleton.mpr hanswer) hserved
    have hdata : (server.answer connection (requestsOf hprotocol conn.accepted).length
        req.data).data = msg.data := (List.cons.inj heq).1
    exact ⟨rfl, congrArg TcpMessage.mk hdata.symm⟩
  · -- a heartbeat has no answer, and all others were read
    rw [hbeat, if_pos rfl, List.append_nil, ← hunread] at hserved
    have hle := hserved.length_le
    have hpos := hprotocol.headerSize_pos.trans_le hframe.header_le
    rw [List.length_append] at hle
    omega

/-- Assumes: the open connection was given complete frames, no answer on it is unread, and the
server has sent what was read. An answer that an attempt returns is the one to its request. -/
theorem innerSend_belongs (hframed : client.Framed protocol)
    (hunread : client.noUnread server hprotocol = true) {req : TcpMessage}
    (hreq : protocol.CompleteFrame req.data) {calls : ExchangeCalls}
    (hcall : client.innerSend protocol req wantAck calls = some (result, after))
    (hserved : server.Served hprotocol after) {ack : TcpMessage} (hack : result.ack = some ack) :
    AckRecord.Belongs server ⟨req, ack, after.closed.length, (requestsOf hprotocol
      (client.bytesOn SyncConnection.accepted after.closed.length)).length⟩ := by
  have hmax := hprotocol.maxBodySize_lt
  obtain ⟨-, hframe, conn, part, hfd, hpart, hrc, hread, rfl⟩ :=
    SyncClient.innerSend_ack hmax hcall hack
  have hlast : client.bytesOn SyncConnection.accepted client.closed.length = conn.accepted := by
    rw [SyncClient.bytesOn, SyncClient.connections_of_fd hfd, List.getElem?_concat_length]
    rfl
  have hall : conn.received =
      (server.answersTo client.closed.length (requestsOf hprotocol conn.accepted)).flatten := by
    rw [SyncClient.noUnread, hfd] at hunread
    exact eq_of_beq hunread
  have hfail : part.rc ≠ sendFail := fun hfail ↦ by cases hrc.symm.trans hfail
  have htaken := exchange_taken (length_lt_of_completeFrame hprotocol hreq) hpart hfail
  have hnow : (conn.extend part).received <+: (server.answersTo client.closed.length
      (requestsOf hprotocol (conn.extend part).accepted)).flatten :=
    Served.of_getElem? server hprotocol hserved List.getElem?_concat_length
  rw [SyncConnection.extend, hread, htaken] at hnow
  dsimp only
  rw [hlast]
  exact answer_of_read (hframed conn hfd) hall hreq hframe hnow

/-- Assumes: as for `innerSend_belongs`. The first attempt is made on the open connection, and the
second on a new one, on which nothing is unread. -/
theorem send_belongs (hframed : client.Framed protocol)
    (hunread : client.noUnread server hprotocol = true) {req : TcpMessage}
    (hreq : protocol.CompleteFrame req.data) {calls : SendCalls}
    (hcall : client.send protocol req wantAck calls = some (result, after))
    (hserved : server.Served hprotocol after) {ack : TcpMessage} (hack : result.ack = some ack) :
    AckRecord.Belongs server ⟨req, ack, after.closed.length, (requestsOf hprotocol
      (client.bytesOn SyncConnection.accepted after.closed.length)).length⟩ := by
  have hmax := hprotocol.maxBodySize_lt
  obtain ⟨first, middle, hfirst, hcases⟩ := SyncClient.send_cases hcall
  rcases hcases with ⟨-, rfl, rfl⟩ | ⟨hrc, -, rfl, -⟩ | ⟨-, -, hsecond⟩
  · exact innerSend_belongs hframed hunread hreq hfirst hserved hack
  · cases hrc.symm.trans (SyncClient.innerSend_ack hmax hfirst hack).1
  · have hopened : SyncClient.noUnread server hprotocol ⟨some {}, middle.connections⟩ = true := by
      show (([] : Bytes) == (server.answersTo _ (requestsOf hprotocol [])).flatten) = true
      rw [requestsOf_nil]
      rfl
    have hbelongs := innerSend_belongs (SyncClient.framed_opened _) hopened hreq hsecond hserved
      hack
    have hclosed : after.closed.length = middle.connections.length := by
      obtain ⟨-, -, conn, part, -, -, -, -, rfl⟩ := SyncClient.innerSend_ack hmax hsecond hack
      rfl
    -- the new connection had taken nothing, before the call as well as before the attempt
    have hbefore : client.bytesOn SyncConnection.accepted after.closed.length = [] := by
      rw [SyncClient.bytesOn, hclosed, SyncClient.innerSend_length hfirst,
        List.getElem?_eq_none le_rfl]
      rfl
    have hnew : (SyncClient.mk (some {}) middle.connections).bytesOn SyncConnection.accepted
        after.closed.length = [] := by
      rw [SyncClient.bytesOn, hclosed]
      show ((middle.connections ++ [⟨[], []⟩])[middle.connections.length]?).elim [] _ = []
      rw [List.getElem?_concat_length]
      rfl
    rw [hnew] at hbelongs
    rw [hbefore]
    exact hbelongs

end Answers

namespace SyncRun

variable (server : AnsweringServer protocol) (hprotocol : protocol.FitsInt)

/-- The open connection was given complete frames, and every answer so far is the one to its
request. -/
structure Matched (run : SyncRun) : Prop where
  framed : run.client.Framed protocol
  belongs : ∀ record ∈ run.acks, record.Belongs server

theorem matched_new : Matched server {} where
  framed := SyncClient.framed_of_fd rfl
  belongs := fun _ h ↦ absurd h List.not_mem_nil

variable {server hprotocol} {run next : SyncRun}

/-- A call that finds no answer unread, where it asks for one, keeps the answers matched. -/
theorem Matched.step (hmatched : run.Matched server) {action : SyncAction protocol}
    (hunread : run.findsNoUnread server hprotocol action = true)
    (hstep : run.step server hprotocol action = some next) : next.Matched server := by
  cases action with
  | connect connects =>
    cases hstep
    refine ⟨?_, hmatched.belongs⟩
    unfold SyncClient.connect
    split_ifs
    · exact SyncClient.framed_opened _
    · exact SyncClient.framed_of_fd rfl
  | disconnect =>
    cases hstep
    exact ⟨SyncClient.framed_of_fd rfl, hmatched.belongs⟩
  | send req wantAck calls =>
    obtain ⟨⟨result, after⟩, hcall, hrest⟩ := Option.bind_eq_some_iff.mp hstep
    dsimp only at hrest
    split_ifs at hrest with hserved
    cases hrest
    refine ⟨hmatched.framed.send hprotocol req.2 hcall, ?_⟩
    refine List.forall_mem_append.mpr ⟨hmatched.belongs, fun record hrecord ↦ ?_⟩
    obtain ⟨ack, hack, rfl⟩ := List.mem_map.mp hrecord
    have hreturned : result.ack = some ack := Option.mem_toList.mp hack
    have hwant : wantAck = true :=
      (SyncClient.ackComplete_send hprotocol.maxBodySize_lt hcall).asked ack hreturned
    have hread : run.client.noUnread server hprotocol = true := by
      rw [findsNoUnread, hwant] at hunread
      exact hunread
    exact send_belongs hmatched.framed hread req.2 hcall hserved hreturned

/-- Assumes: every `send` that asks for an answer finds none unread on the connection. In every
state that a run reaches, each answer is the one to the request it was returned for. -/
theorem acks_belong {actions : List (SyncAction protocol)} {final : SyncRun}
    (hunread : Along (step server hprotocol)
      (fun run action ↦ run.findsNoUnread server hprotocol action = true) {} actions)
    (hrun : runFrom (step server hprotocol) {} actions = some final) :
    ∀ record ∈ final.acks, record.Belongs server :=
  (runFrom_invariant_along (Matched server) (fun _ _ _ hmatched hmeets hstep ↦
    hmatched.step hmeets hstep) (matched_new server) hunread hrun).belongs

end SyncRun

/-! ### An answer that nobody read -/

theorem fitsInt_defaultMsgProto : (defaultMsgProto .little).FitsInt where
  headerSize_pos := by decide
  total_lt := by decide

/-- A message of type 0 with one byte. -/
def byteMsg (byte : Byte) : TcpMessage := ⟨[0, 0, 0, 1, byte]⟩

theorem completeFrame_byteMsg (byte : Byte) :
    (defaultMsgProto .little).CompleteFrame (byteMsg byte).data where
  body_le := by
    show (DefaultMsgProto.bodySize .little ⟨[0, 0, 0, 1]⟩).toNat ≤ _
    decide
  length_eq := by
    show 5 = 4 + (DefaultMsgProto.bodySize .little ⟨[0, 0, 0, 1]⟩).toNat
    decide

/-- A server that answers with the position of the request. -/
def positionServer : AnsweringServer (defaultMsgProto .little) where
  answer := fun _ position _ ↦ byteMsg (BitVec.ofNat 8 position)
  complete := fun _ position _ ↦ completeFrame_byteMsg (BitVec.ofNat 8 position)

/-- A `send` of a message that is taken at once; what is read is the message of a byte. -/
def sendByte (byte answer : Byte) (wantAck : Bool) : SyncAction (defaultMsgProto .little) :=
  .send ⟨byteMsg byte, completeFrame_byteMsg byte⟩ wantAck
    ⟨⟨[.returned 5], [.returned [0, 0, 0, 1], .returned [answer]]⟩, false, ⟨[], []⟩⟩

/-- The heartbeat of `keepAlive`. -/
def sendHeartbeat : SyncAction (defaultMsgProto .little) :=
  .send ⟨(defaultMsgProto .little).genHeartbeat, by decide, by decide⟩ false
    ⟨⟨[.returned 4], []⟩, false, ⟨[], []⟩⟩

namespace SyncRun

/-- Answers are asked for before and after a heartbeat, and again on a new connection after an
answer was left unread. -/
def matchedActions : List (SyncAction (defaultMsgProto .little)) :=
  [.connect true, sendByte 7 0 true, sendHeartbeat, sendByte 8 1 true, sendByte 9 0 false,
    .connect true, sendByte 10 0 true]

theorem isSome_matchedActions :
    (runFrom (step positionServer fitsInt_defaultMsgProto) {} matchedActions).isSome := by
  decide +kernel

theorem acks_belong_matchedActions :
    ∃ final, runFrom (step positionServer fitsInt_defaultMsgProto) {} matchedActions = some final ∧
      final.acks.length = 3 ∧ ∀ record ∈ final.acks, record.Belongs positionServer :=
  ⟨_, (Option.some_get isSome_matchedActions).symm, by decide +kernel,
    acks_belong (by decide +kernel) (Option.some_get isSome_matchedActions).symm⟩

/-- The answer to the first request is not asked for. -/
def unreadActions : List (SyncAction (defaultMsgProto .little)) :=
  [.connect true, sendByte 7 0 false, sendByte 8 0 true]

theorem isSome_unreadActions :
    (runFrom (step positionServer fitsInt_defaultMsgProto) {} unreadActions).isSome := by
  decide +kernel

/-- The second `send` returns the answer to the first request. -/
theorem not_acks_belong :
    ∃ final, runFrom (step positionServer fitsInt_defaultMsgProto) {} unreadActions = some final ∧
      ∃ record ∈ final.acks, record.req = byteMsg 8 ∧
        record.ack = positionServer.answer 0 0 (byteMsg 7).data ∧
        ¬record.Belongs positionServer :=
  ⟨_, (Option.some_get isSome_unreadActions).symm, by decide +kernel⟩

end SyncRun

end TszyUlt.Zbf
