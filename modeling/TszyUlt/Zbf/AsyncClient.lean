import TszyUlt.Zbf.RecvPath
import TszyUlt.Zbf.WritePath

/-!
# The asynchronous client and its reconnects

`zbf/socket_tcp_v5.hpp`: `tcpsock_asynclt` under `async_client_manager`. The client object outlives
its connections. Posts come from any thread; the monitor thread connects the client when it is not
monitored (`connect`) and registers it with the poll (`addMonitored`); the I/O thread reads and
sends while it is monitored, and on an error takes it out of the poll and marks it closed
(`removeMonitored`). `connect` opens a new socket and leaves the write queue and the receive cache
as they are.

`AsyncClient` is the client, with what an observer records: the messages that `post` accepted, for
each connection the pieces of messages that the socket took, the chunks that were read and the
messages extracted from them (`ConnectionLog`), and how much of the message at the front has been
sent already (`headSent`).

`step_registered` is the invariant of the registration, and `sendData_frame` what the steps of
`sendData` leave alone.

Scope. One read and the drain after it is one step: the I/O thread alone uses the receive cache, and
the closed flag does not change while the client is monitored. A failed `sp_add` leaves the client
as it is and is no step.
-/

set_option autoImplicit false
set_option relaxedAutoImplicit false

namespace TszyUlt.Zbf

open Lib

/-! ### The client -/

/-- A piece of a message that the socket took, and what of the message was sent before it. -/
structure SendRecord where
  before : Bytes
  piece : Bytes
  deriving DecidableEq, Repr

/-- What an observer records of one connection. -/
structure ConnectionLog where
  sends : List SendRecord
  chunks : List Bytes
  msgs : List TcpMessage

namespace ConnectionLog

/-- The log of a connection that was just opened. -/
def empty : ConnectionLog := ⟨[], [], []⟩

/-- The bytes that the socket took. -/
def sentBytes (log : ConnectionLog) : Bytes := (log.sends.map SendRecord.piece).flatten

/-- A piece was sent. -/
def addSend (log : ConnectionLog) (before piece : Bytes) : ConnectionLog :=
  if piece = [] then log else { log with sends := log.sends ++ [⟨before, piece⟩] }

/-- A chunk was read and drained. -/
def addRead (log : ConnectionLog) (chunk : Bytes) (msgs : List TcpMessage) : ConnectionLog :=
  { log with chunks := log.chunks ++ [chunk], msgs := log.msgs ++ msgs }

end ConnectionLog

/-- `tcpsock_asynclt`, whether it is in `_monitorColl`, and what an observer records. -/
structure AsyncClient where
  closed : Bool
  monitored : Bool
  recvCache : Memchunk
  write : WriteSide
  posted : List TcpMessage
  /-- Of the message that the I/O thread holds, or else that is at the front of the queue, the bytes
  that were sent before it was put back. -/
  headSent : Bytes
  current : ConnectionLog
  past : List ConnectionLog

/-- The steps of the threads that use a client. -/
inductive ClientAction
  /-- Any thread: `post`. -/
  | post (msg : TcpMessage)
  /-- The monitor thread: `connect`, with or without success. -/
  | connect (success : Bool)
  /-- The monitor thread: `addMonitored`. -/
  | addMonitored
  /-- The I/O thread: a read event. -/
  | read (chunk : Bytes)
  /-- The I/O thread: a failed read, an error or end of file. -/
  | ioError
  /-- The I/O thread, in `sendData`. -/
  | checkOpen
  | takeFront
  | send (result : SendResult)
  | putBack
  | confirmEmpty
  /-- The I/O thread: `onIOError` after `SEND_FAIL`. -/
  | sendFailed
  deriving DecidableEq, Repr

/-- The steps of `sendData`. -/
def ClientAction.inSendData : ClientAction → Bool
  | .checkOpen | .takeFront | .send _ | .putBack | .confirmEmpty => true
  | _ => false

namespace AsyncClient

/-- A client before its first connection. -/
def new (alloc : Allocator) : AsyncClient where
  closed := false
  monitored := false
  recvCache := .new alloc cacheBlockSize
  write := { WriteSide.new with fdOpen := false }
  posted := []
  headSent := []
  current := .empty
  past := []

/-- The client as the receive path sees it. -/
def recvSide (client : AsyncClient) : RecvSide := ⟨client.closed, client.recvCache⟩

/-- `connect` when the socket could be connected: the write queue and the receive cache are kept. -/
def connected (client : AsyncClient) : AsyncClient :=
  { client with
    closed := false
    write := { client.write with fdOpen := true }
    current := .empty
    past := client.past ++ [client.current] }

/-- `connect` when the socket could not be connected. -/
def notConnected (client : AsyncClient) : AsyncClient :=
  { client with closed := false, write := { client.write with fdOpen := false } }

/-- `addMonitored`: `sp_add` asks for read events only, `joinMonitor` then for write events if there
is something to write. -/
def registered (client : AsyncClient) : AsyncClient :=
  { client with
    monitored := true
    write := { client.write with pollWrite := false }.joinMonitor }

/-- `removeMonitored`. -/
def removeMonitored (client : AsyncClient) : AsyncClient :=
  { client with
    closed := true
    monitored := false
    write := { client.write.leaveMonitor with io := .idle } }

/-- What of the message at the front has been sent, after the socket answered. -/
def headAfter (client : AsyncClient) (result : SendResult) (next : IoThread) : Bytes :=
  match next with
  | .puttingBack _ => client.headSent ++ client.write.taken result
  | _ => []

variable (alloc : Allocator) (protocol : TcpMessageProtocol) (fuel : ℕ)

/-- One step of a client. -/
def step (client : AsyncClient) : ClientAction → Option AsyncClient
  | .post msg =>
    let result := client.write.post msg
    some { client with
      write := result.2
      posted := if result.1 = 0 then client.posted ++ [msg] else client.posted }
  | .connect success =>
    if client.monitored = false ∧ (client.write.fdOpen = false ∨ client.closed = true) then
      some (if success then client.connected else client.notConnected)
    else none
  | .addMonitored =>
    if client.monitored = false ∧ client.write.fdOpen = true ∧ client.closed = false then
      some client.registered
    else none
  | .read chunk =>
    if client.monitored = true ∧ client.write.io = .idle ∧ chunk ≠ [] ∧ chunk.length ≤ readSize then
      (readChunk alloc protocol fuel client.recvSide chunk).map fun outcome ↦
        let received := { client with
          recvCache := outcome.side.recvCache
          current := client.current.addRead chunk outcome.msgs }
        if outcome.rc = 0 then received else received.removeMonitored
    else none
  | .ioError =>
    if client.monitored = true ∧ client.write.io = .idle then some client.removeMonitored else none
  | .checkOpen =>
    if client.monitored = true then
      (client.write.checkOpen client.closed).map fun side ↦ { client with write := side }
    else none
  | .takeFront => client.write.takeFront.map fun side ↦ { client with write := side }
  | .send result =>
    (client.write.send result).map fun side ↦
      { client with
        write := side
        headSent := client.headAfter result side.io
        current := client.current.addSend client.headSent (client.write.taken result) }
  | .putBack => client.write.putBack.map fun side ↦ { client with write := side }
  | .confirmEmpty => client.write.confirmEmpty.map fun side ↦ { client with write := side }
  | .sendFailed =>
    if client.write.io = .sendFailed then some client.removeMonitored else none

/-- The logs of all connections of a client, the present one last. -/
def connections (client : AsyncClient) : List ConnectionLog := client.past ++ [client.current]

/-! ### Registration -/

/-- A monitored client is connected and not closed, and the I/O thread is in `sendData` of a
monitored client only. -/
structure Registered (client : AsyncClient) : Prop where
  open_of_monitored : client.monitored = true → client.write.fdOpen = true ∧ client.closed = false
  monitored_of_busy : client.write.io ≠ .idle → client.monitored = true

/-- What the steps of `sendData` do not change. -/
structure SendFrame (client next : AsyncClient) : Prop where
  closed_eq : next.closed = client.closed
  monitored_eq : next.monitored = client.monitored
  recvCache_eq : next.recvCache = client.recvCache
  fdOpen_eq : next.write.fdOpen = client.write.fdOpen
  posted_eq : next.posted = client.posted
  past_eq : next.past = client.past
  chunks_eq : next.current.chunks = client.current.chunks
  msgs_eq : next.current.msgs = client.current.msgs

variable {alloc protocol fuel} {client next : AsyncClient}

theorem addSend_chunks (log : ConnectionLog) (before piece : Bytes) :
    (log.addSend before piece).chunks = log.chunks ∧
      (log.addSend before piece).msgs = log.msgs := by
  unfold ConnectionLog.addSend
  split_ifs <;> exact ⟨rfl, rfl⟩

/-- A step of `sendData` is taken by a monitored client and changes its write side only. -/
theorem sendData_frame (hreg : client.Registered) {action : ClientAction}
    (haction : action.inSendData = true)
    (hstep : client.step alloc protocol fuel action = some next) :
    client.monitored = true ∧ SendFrame client next := by
  cases action with
  | post | connect | addMonitored | read | ioError | sendFailed => cases haction
  | checkOpen =>
    simp only [step] at hstep
    split_ifs at hstep with hmonitored
    obtain ⟨side, hside, rfl⟩ := Option.map_eq_some_iff.mp hstep
    have hfd : side.fdOpen = client.write.fdOpen := by
      obtain ⟨-, ⟨-, rfl⟩ | ⟨-, rfl⟩⟩ := WriteSide.checkOpen_cases hside <;> rfl
    exact ⟨hmonitored, rfl, rfl, rfl, hfd, rfl, rfl, rfl, rfl⟩
  | takeFront =>
    obtain ⟨side, hside, rfl⟩ := Option.map_eq_some_iff.mp hstep
    obtain ⟨hio, hcases⟩ := WriteSide.takeFront_cases hside
    have hfd : side.fdOpen = client.write.fdOpen := by
      obtain ⟨-, rfl⟩ | ⟨_, _, -, rfl⟩ := hcases <;> rfl
    exact ⟨hreg.monitored_of_busy (by simp [hio]), rfl, rfl, rfl, hfd, rfl, rfl, rfl, rfl⟩
  | send result =>
    obtain ⟨side, hside, rfl⟩ := Option.map_eq_some_iff.mp hstep
    obtain ⟨msg, hio, -, rfl⟩ := WriteSide.send_cases hside
    obtain ⟨hchunks, hmsgs⟩ :=
      addSend_chunks client.current client.headSent (client.write.taken result)
    exact ⟨hreg.monitored_of_busy (by simp [hio]), rfl, rfl, rfl, rfl, rfl, rfl, hchunks, hmsgs⟩
  | putBack =>
    obtain ⟨side, hside, rfl⟩ := Option.map_eq_some_iff.mp hstep
    obtain ⟨msg, hio, rfl⟩ := WriteSide.putBack_cases hside
    exact ⟨hreg.monitored_of_busy (by simp [hio]), rfl, rfl, rfl, rfl, rfl, rfl, rfl, rfl⟩
  | confirmEmpty =>
    obtain ⟨side, hside, rfl⟩ := Option.map_eq_some_iff.mp hstep
    obtain ⟨hio, -, -, hfd⟩ := WriteSide.confirmEmpty_cases hside
    exact ⟨hreg.monitored_of_busy (by simp [hio]), rfl, rfl, rfl, hfd, rfl, rfl, rfl, rfl⟩

theorem registered_new : (new alloc).Registered where
  open_of_monitored := fun h ↦ by cases h
  monitored_of_busy := fun h ↦ absurd rfl h

theorem registered_removeMonitored (client : AsyncClient) : client.removeMonitored.Registered where
  open_of_monitored := fun h ↦ by cases h
  monitored_of_busy := fun h ↦ absurd rfl h

/-- Every step keeps the registration consistent. -/
theorem step_registered (hreg : client.Registered) {action : ClientAction}
    (hstep : client.step alloc protocol fuel action = some next) : next.Registered := by
  cases action with
  | post msg =>
    cases hstep
    rcases client.write.post_cases msg with hrefused | ⟨-, -, hio, hfd⟩
    · simp only [hrefused]
      exact ⟨hreg.open_of_monitored, hreg.monitored_of_busy⟩
    · refine ⟨fun hmonitored ↦ ?_, fun hbusy ↦ ?_⟩
      · rw [hfd]
        exact hreg.open_of_monitored hmonitored
      · rw [hio] at hbusy
        exact hreg.monitored_of_busy hbusy
  | connect success =>
    simp only [step] at hstep
    split_ifs at hstep with hguard
    all_goals
      cases hstep
      refine ⟨fun hmonitored ↦ ?_, hreg.monitored_of_busy⟩
      exact absurd (hguard.1.symm.trans hmonitored) (by decide)
  | addMonitored =>
    simp only [step] at hstep
    split_ifs at hstep with hguard
    cases hstep
    refine ⟨fun _ ↦ ⟨?_, hguard.2.2⟩, fun _ ↦ rfl⟩
    rw [registered, WriteSide.joinMonitor_fdOpen]
    exact hguard.2.1
  | read chunk =>
    simp only [step] at hstep
    split_ifs at hstep
    obtain ⟨outcome, -, rfl⟩ := Option.map_eq_some_iff.mp hstep
    split_ifs
    · exact ⟨hreg.open_of_monitored, hreg.monitored_of_busy⟩
    · exact registered_removeMonitored _
  | ioError =>
    simp only [step] at hstep
    split_ifs at hstep
    cases hstep
    exact registered_removeMonitored _
  | sendFailed =>
    simp only [step] at hstep
    split_ifs at hstep
    cases hstep
    exact registered_removeMonitored _
  | checkOpen | takeFront | send | putBack | confirmEmpty =>
    obtain ⟨hmonitored, hframe⟩ := sendData_frame hreg rfl hstep
    refine ⟨fun _ ↦ ?_, fun _ ↦ hframe.monitored_eq.trans hmonitored⟩
    rw [hframe.fdOpen_eq, hframe.closed_eq]
    exact hreg.open_of_monitored hmonitored

end AsyncClient

end TszyUlt.Zbf
