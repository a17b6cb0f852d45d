import TszyUlt.Lib.Transition
import TszyUlt.Zbf.TcpMessage

/-!
# The write path of a connection

`zbf/socket_tcp_v5.hpp`: `_SendData`, `post`, `sendData`, `joinMonitor`, `leaveMonitor` and
`enableWrite`. `tcpsock_user` and `tcpsock_asynclt` have the same write path, with the same
constants (`WriteSide`): any thread appends to the write queue, and the I/O thread takes the message
at the front, offers it to the socket outside the lock, and puts back at the front what the socket
did not take. Each section under the lock of the queue and each system call is a step of its own, so
that the posts of other threads come in between (`IoThread` says where the I/O thread stands).

`Connection` is the system of one connection: the write side, the closed flag, and what an observer
records: the messages that `post` accepted, the bytes that the socket took, and whether a send
failed. `writeStream_exact` is the result about its runs. As long as no send failed, the bytes
taken, the message the I/O thread holds and the queue are the accepted messages in order
(`WriteSide.unsent`); after a failure the connection is closed before the I/O thread looks at the
queue again, so that the bytes taken stay a prefix of them.

The sizes that `_SendMsg` and `_SendData` pass and compare are converted to `int`. A message of `2 ^
31` bytes or more counts as sent when the socket has taken any part of it, and the rest of it is
lost (`not_writeStream_exact_long_message`); the result is therefore about the runs in which the
messages given to the socket are shorter.

Scope. The log texts and the heartbeat times are not modelled. The descriptor is open or not
(`fdOpen`), and joined to the poll of its event loop or not (`joined`).
-/

set_option autoImplicit false
set_option relaxedAutoImplicit false

namespace TszyUlt.Zbf

open Lib

/-! ### The write side and its operations -/

/-- Where the I/O thread stands in `sendData`. -/
inductive IoThread
  /-- Not in `sendData`. -/
  | idle
  /-- `isClosed` returned false; the front of the queue is to be taken. -/
  | opened
  /-- A message was taken off the queue; it is to be given to the socket. -/
  | sending (msg : TcpMessage)
  /-- The message, or the rest of it, is to be put back. -/
  | puttingBack (msg : TcpMessage)
  /-- The queue was empty; it is to be looked at again before write events are turned off. -/
  | foundEmpty
  /-- `SEND_FAIL` was returned; the event loop is to close the connection. -/
  | sendFailed
  deriving DecidableEq, Repr

/-- The part of `tcpsock_user` and of `tcpsock_asynclt` that the write path uses. -/
structure WriteSide where
  fdOpen : Bool
  joined : Bool
  enableWrite : Bool
  /-- Whether the poll reports write events of the descriptor. -/
  pollWrite : Bool
  wrQueue : List TcpMessage
  io : IoThread

/-- `MaxPendingMsg`. -/
def maxPendingMsg : ℕ := 256

/-- What one `::send` came to: the socket took some bytes, would block, or the call failed or
returned zero. -/
inductive SendResult
  | sent (count : ℕ)
  | wouldBlock
  | failed
  deriving DecidableEq, Repr

/-- The counts that `::send` may return for a message: positive values of `int`, no more than were
offered, and no more than there are. The size offered is an `int` that is passed as a `size_t`. -/
def SendResult.Possible (msg : TcpMessage) : SendResult → Prop
  | .sent count => 1 ≤ count ∧ count < 2 ^ 31 ∧ count ≤ msg.data.length ∧
      (count : ℤ) ≤ asInt32 msg.data.length % 2 ^ 64
  | .wouldBlock => True
  | .failed => True

instance (msg : TcpMessage) : DecidablePred (SendResult.Possible msg)
  | .sent count => inferInstanceAs (Decidable (1 ≤ count ∧ count < 2 ^ 31 ∧
      count ≤ msg.data.length ∧ (count : ℤ) ≤ asInt32 msg.data.length % 2 ^ 64))
  | .wouldBlock => inferInstanceAs (Decidable True)
  | .failed => inferInstanceAs (Decidable True)

namespace WriteSide

/-- A write side before its first use. -/
def new : WriteSide where
  fdOpen := true
  joined := false
  enableWrite := false
  pollWrite := false
  wrQueue := []
  io := .idle

/-- `enableWrite`. -/
def setEnableWrite (side : WriteSide) (enable : Bool) : WriteSide :=
  if side.fdOpen = false ∨ side.joined = false then side
  else if side.enableWrite = !enable then { side with enableWrite := enable, pollWrite := enable }
  else side

/-- `post`: the return code and the write side afterwards. -/
def post (side : WriteSide) (msg : TcpMessage) : ℤ × WriteSide :=
  if side.wrQueue.length > maxPendingMsg then (1, side)
  else (0, { side with wrQueue := side.wrQueue ++ [msg] }.setEnableWrite true)

/-- `joinMonitor`. -/
def joinMonitor (side : WriteSide) : WriteSide :=
  let joining := { side with enableWrite := false, joined := true }
  if side.wrQueue ≠ [] then joining.setEnableWrite true else joining

/-- `leaveMonitor`. -/
def leaveMonitor (side : WriteSide) : WriteSide :=
  { side with joined := false, enableWrite := false }

/-- The first test of `sendData`: a closed connection is left alone. -/
def checkOpen (closed : Bool) (side : WriteSide) : Option WriteSide :=
  match side.io with
  | .idle => some (if closed then side else { side with io := .opened })
  | _ => none

/-- The first section of `_SendData` under the lock: the front of the queue is taken. -/
def takeFront (side : WriteSide) : Option WriteSide :=
  match side.io with
  | .opened =>
    match side.wrQueue with
    | [] => some { side with io := .foundEmpty }
    | msg :: rest => some { side with wrQueue := rest, io := .sending msg }
  | _ => none

/-- Where `_SendData` goes on after the socket answered. A failed message is dropped. -/
def afterSend (msg : TcpMessage) : SendResult → IoThread
  | .sent count =>
    if (count : ℤ) < asInt32 msg.data.length then .puttingBack ⟨msg.data.drop count⟩ else .idle
  | .wouldBlock => .puttingBack msg
  | .failed => .sendFailed

/-- The call of `_SendMsg` in `_SendData`. -/
def send (side : WriteSide) (result : SendResult) : Option WriteSide :=
  match side.io with
  | .sending msg =>
    if result.Possible msg then some { side with io := afterSend msg result } else none
  | _ => none

/-- The last section of `_SendData` under the lock. -/
def putBack (side : WriteSide) : Option WriteSide :=
  match side.io with
  | .puttingBack msg => some { side with wrQueue := msg :: side.wrQueue, io := .idle }
  | _ => none

/-- The section of `sendData` under the lock, after `QUEUE_EMPTY`. -/
def confirmEmpty (side : WriteSide) : Option WriteSide :=
  match side.io with
  | .foundEmpty =>
    some { (if side.wrQueue = [] then side.setEnableWrite false else side) with io := .idle }
  | _ => none

/-- The bytes of the message the I/O thread holds. -/
def held (side : WriteSide) : Bytes :=
  match side.io with
  | .sending msg => msg.data
  | .puttingBack msg => msg.data
  | _ => []

/-- The messages still to be sent: the one the I/O thread holds and those in the queue. -/
def waiting (side : WriteSide) : List TcpMessage :=
  match side.io with
  | .sending msg => msg :: side.wrQueue
  | .puttingBack msg => msg :: side.wrQueue
  | _ => side.wrQueue

/-- The bytes still to be sent. -/
def unsent (side : WriteSide) : Bytes := (side.waiting.map TcpMessage.data).flatten

/-- The bytes of the held message that the socket takes with a result. -/
def taken (side : WriteSide) : SendResult → Bytes
  | .sent count => side.held.take count
  | _ => []

@[simp] theorem setEnableWrite_wrQueue (side : WriteSide) (enable : Bool) :
    (side.setEnableWrite enable).wrQueue = side.wrQueue := by
  unfold setEnableWrite
  split_ifs <;> rfl

@[simp] theorem setEnableWrite_io (side : WriteSide) (enable : Bool) :
    (side.setEnableWrite enable).io = side.io := by
  unfold setEnableWrite
  split_ifs <;> rfl

@[simp] theorem setEnableWrite_fdOpen (side : WriteSide) (enable : Bool) :
    (side.setEnableWrite enable).fdOpen = side.fdOpen := by
  unfold setEnableWrite
  split_ifs <;> rfl

@[simp] theorem joinMonitor_fdOpen (side : WriteSide) : side.joinMonitor.fdOpen = side.fdOpen := by
  unfold joinMonitor
  split_ifs <;> simp

@[simp] theorem joinMonitor_wrQueue (side : WriteSide) :
    side.joinMonitor.wrQueue = side.wrQueue := by
  unfold joinMonitor
  split_ifs <;> simp

@[simp] theorem joinMonitor_io (side : WriteSide) : side.joinMonitor.io = side.io := by
  unfold joinMonitor
  split_ifs <;> simp

@[simp] theorem leaveMonitor_wrQueue (side : WriteSide) :
    side.leaveMonitor.wrQueue = side.wrQueue := rfl

@[simp] theorem leaveMonitor_io (side : WriteSide) : side.leaveMonitor.io = side.io := rfl

/-! ### What each operation does -/

/-- `post` refuses the message and changes nothing, or appends it to the queue. -/
theorem post_cases (side : WriteSide) (msg : TcpMessage) :
    side.post msg = (1, side) ∨
      ((side.post msg).1 = 0 ∧ (side.post msg).2.wrQueue = side.wrQueue ++ [msg] ∧
        (side.post msg).2.io = side.io ∧ (side.post msg).2.fdOpen = side.fdOpen) := by
  unfold post
  split_ifs with hfull
  · exact .inl rfl
  · exact .inr ⟨rfl, by simp, by simp, by simp⟩

theorem checkOpen_cases {closed : Bool} {side next : WriteSide}
    (hcheck : side.checkOpen closed = some next) :
    side.io = .idle ∧
      ((closed = true ∧ next = side) ∨ (closed = false ∧ next = { side with io := .opened })) := by
  rcases hio : side.io <;> simp only [checkOpen, hio, reduceCtorEq, Option.some.injEq] at hcheck
  cases closed
  · exact ⟨rfl, .inr ⟨rfl, hcheck.symm⟩⟩
  · exact ⟨rfl, .inl ⟨rfl, hcheck.symm⟩⟩

theorem takeFront_cases {side next : WriteSide} (htake : side.takeFront = some next) :
    side.io = .opened ∧
      ((side.wrQueue = [] ∧ next = { side with io := .foundEmpty }) ∨
        ∃ msg rest, side.wrQueue = msg :: rest ∧
          next = { side with wrQueue := rest, io := .sending msg }) := by
  rcases hio : side.io <;> simp only [takeFront, hio, reduceCtorEq] at htake
  rcases hqueue : side.wrQueue with _ | ⟨msg, rest⟩ <;>
    simp only [hqueue, Option.some.injEq] at htake
  · exact ⟨rfl, .inl ⟨rfl, htake.symm⟩⟩
  · exact ⟨rfl, .inr ⟨msg, rest, rfl, htake.symm⟩⟩

theorem send_cases {side next : WriteSide} {result : SendResult}
    (hsend : side.send result = some next) :
    ∃ msg, side.io = .sending msg ∧ result.Possible msg ∧
      next = { side with io := afterSend msg result } := by
  rcases hio : side.io with _ | _ | msg | _ | _ | _ <;> simp only [send, hio, reduceCtorEq] at hsend
  split_ifs at hsend with hpossible
  exact ⟨msg, rfl, hpossible, (Option.some.inj hsend).symm⟩

theorem putBack_cases {side next : WriteSide} (hput : side.putBack = some next) :
    ∃ msg, side.io = .puttingBack msg ∧
      next = { side with wrQueue := msg :: side.wrQueue, io := .idle } := by
  rcases hio : side.io with _ | _ | _ | msg | _ | _ <;>
    simp only [putBack, hio, reduceCtorEq, Option.some.injEq] at hput
  exact ⟨msg, rfl, hput.symm⟩

theorem confirmEmpty_cases {side next : WriteSide} (hconfirm : side.confirmEmpty = some next) :
    side.io = .foundEmpty ∧ next.io = .idle ∧ next.wrQueue = side.wrQueue ∧
      next.fdOpen = side.fdOpen := by
  rcases hio : side.io <;>
    simp only [confirmEmpty, hio, reduceCtorEq, Option.some.injEq] at hconfirm
  subst hconfirm
  refine ⟨rfl, rfl, ?_, ?_⟩
  all_goals split_ifs <;> simp

/-! ### The messages still to be sent -/

theorem unsent_eq_held_append (side : WriteSide) :
    side.unsent = side.held ++ (side.wrQueue.map TcpMessage.data).flatten := by
  rw [unsent, waiting, held]
  cases side.io <;> rfl

theorem waiting_congr {side other : WriteSide} (hio : side.io = other.io)
    (hqueue : side.wrQueue = other.wrQueue) : side.waiting = other.waiting := by
  rw [waiting, waiting, hio, hqueue]

theorem waiting_post (side : WriteSide) (msg : TcpMessage) :
    (side.post msg).2.waiting =
      side.waiting ++ if (side.post msg).1 = 0 then [msg] else [] := by
  rcases side.post_cases msg with hrefused | ⟨hrc, hqueue, hio, -⟩
  · rw [hrefused, if_neg one_ne_zero, List.append_nil]
  · rw [if_pos hrc, waiting, waiting, hio, hqueue]
    cases side.io <;> rfl

theorem waiting_checkOpen {closed : Bool} {side next : WriteSide}
    (hcheck : side.checkOpen closed = some next) : next.waiting = side.waiting := by
  obtain ⟨hio, ⟨-, rfl⟩ | ⟨-, rfl⟩⟩ := checkOpen_cases hcheck
  · rfl
  · rw [waiting, waiting, hio]

theorem waiting_takeFront {side next : WriteSide} (htake : side.takeFront = some next) :
    next.waiting = side.waiting := by
  obtain ⟨hio, ⟨-, rfl⟩ | ⟨msg, rest, hqueue, rfl⟩⟩ := takeFront_cases htake
  · rw [waiting, waiting, hio]
  · rw [waiting, waiting, hio, hqueue]

theorem waiting_putBack {side next : WriteSide} (hput : side.putBack = some next) :
    next.waiting = side.waiting := by
  obtain ⟨msg, hio, rfl⟩ := putBack_cases hput
  rw [waiting, waiting, hio]

theorem waiting_confirmEmpty {side next : WriteSide} (hconfirm : side.confirmEmpty = some next) :
    next.waiting = side.waiting := by
  obtain ⟨hio, hnext, hqueue, -⟩ := confirmEmpty_cases hconfirm
  rw [waiting, waiting, hio, hnext, hqueue]

/-- Assumes: the socket took bytes of a message shorter than `2 ^ 31`. Either some of it is left and
is put back, or it was taken as a whole. -/
theorem send_sent_cases {side next : WriteSide} {count : ℕ} {msg : TcpMessage}
    (hsend : side.send (.sent count) = some next) (hio : side.io = .sending msg)
    (hshort : msg.data.length < 2 ^ 31) :
    1 ≤ count ∧
      ((next.io = .puttingBack ⟨msg.data.drop count⟩ ∧
          next.waiting = ⟨msg.data.drop count⟩ :: side.wrQueue) ∨
        (next.io = .idle ∧ next.waiting = side.wrQueue ∧ msg.data.take count = msg.data)) := by
  obtain ⟨msg', hio', hpossible, rfl⟩ := send_cases hsend
  obtain rfl : msg = msg' := IoThread.sending.inj (hio.symm.trans hio')
  refine ⟨hpossible.1, ?_⟩
  by_cases hpart : (count : ℤ) < asInt32 msg.data.length
  · have hafter : afterSend msg (.sent count) = .puttingBack ⟨msg.data.drop count⟩ := if_pos hpart
    exact .inl ⟨hafter, by rw [waiting, hafter]⟩
  · have hafter : afterSend msg (.sent count) = .idle := if_neg hpart
    rw [asInt32_of_lt hshort] at hpart
    exact .inr ⟨hafter, by rw [waiting, hafter], List.take_of_length_le (by omega)⟩

/-- Assumes: a message shorter than `2 ^ 31` bytes when the socket takes bytes of it. Unless the
send fails, the bytes taken and those still to be sent are those that were to be sent before. -/
theorem taken_append_unsent_send {side next : WriteSide} {result : SendResult}
    (hsend : side.send result = some next) (hresult : result ≠ .failed)
    (hshort : ∀ count msg, result = .sent count → side.io = .sending msg →
      msg.data.length < 2 ^ 31) :
    side.taken result ++ next.unsent = side.unsent := by
  obtain ⟨msg, hio, hpossible, hnext⟩ := send_cases hsend
  have hwaiting : side.waiting = msg :: side.wrQueue := by rw [waiting, hio]
  have hheld : side.held = msg.data := by rw [held, hio]
  rw [unsent, unsent, hwaiting]
  cases result with
  | failed => exact absurd rfl hresult
  | wouldBlock =>
    rw [hnext]
    rfl
  | sent count =>
    rw [taken, hheld, List.map_cons, List.flatten_cons]
    rcases (send_sent_cases hsend hio (hshort count msg rfl hio)).2 with
      ⟨-, hrest⟩ | ⟨-, hrest, hwhole⟩
    · rw [hrest, List.map_cons, List.flatten_cons, ← List.append_assoc, List.take_append_drop]
    · rw [hrest, hwhole]

end WriteSide

/-! ### One connection -/

/-- A connection and what an observer records of it: the messages for which `post` returned zero,
the bytes the socket took, and whether a send failed. -/
structure Connection where
  closed : Bool
  write : WriteSide
  accepted : List TcpMessage
  socket : Bytes
  failed : Bool

/-- The steps of the threads that use a connection. Any thread posts; the I/O thread sends, and
closes the connection after a failed send; it may join or leave the poll, and be closed, for other
reasons at any time. -/
inductive ConnectionAction
  | post (msg : TcpMessage)
  | joinMonitor
  | leaveMonitor
  | setClose
  | checkOpen
  | takeFront
  | send (result : SendResult)
  | putBack
  | confirmEmpty
  | onIOError
  deriving DecidableEq, Repr

namespace Connection

/-- A connection that was just opened. -/
def new : Connection where
  closed := false
  write := .new
  accepted := []
  socket := []
  failed := false

/-- One step of a connection. -/
def step (connection : Connection) : ConnectionAction → Option Connection
  | .post msg =>
    let posted := connection.write.post msg
    some { connection with
      write := posted.2
      accepted := if posted.1 = 0 then connection.accepted ++ [msg] else connection.accepted }
  | .joinMonitor => some { connection with write := connection.write.joinMonitor }
  | .leaveMonitor => some { connection with write := connection.write.leaveMonitor }
  | .setClose => some { connection with closed := true }
  | .checkOpen =>
    (connection.write.checkOpen connection.closed).map fun side ↦ { connection with write := side }
  | .takeFront => connection.write.takeFront.map fun side ↦ { connection with write := side }
  | .send result =>
    (connection.write.send result).map fun side ↦
      { connection with
        write := side
        socket := connection.socket ++ connection.write.taken result
        failed := connection.failed || result == .failed }
  | .putBack => connection.write.putBack.map fun side ↦ { connection with write := side }
  | .confirmEmpty => connection.write.confirmEmpty.map fun side ↦ { connection with write := side }
  | .onIOError =>
    if connection.write.io = .sendFailed then
      some { connection with
        closed := true
        write := { connection.write.leaveMonitor with io := .idle } }
    else none

/-- The bytes of the accepted messages, in order of acceptance. -/
def acceptedBytes (connection : Connection) : Bytes :=
  (connection.accepted.map TcpMessage.data).flatten

/-- The bytes the socket took are a prefix of the accepted ones; and as long as no send failed, they
are followed there by exactly those the I/O thread holds and those in the queue. -/
def StreamExact (connection : Connection) : Prop :=
  connection.socket <+: connection.acceptedBytes ∧
    (connection.failed = false →
      connection.socket ++ connection.write.held ++
        (connection.write.wrQueue.map TcpMessage.data).flatten = connection.acceptedBytes)

/-- The message that the socket takes bytes of is shorter than `2 ^ 31` bytes. -/
def sendsShort (connection : Connection) (action : ConnectionAction) : Bool :=
  match action, connection.write.io with
  | .send (.sent _), .sending msg => msg.data.length < 2 ^ 31
  | _, _ => true

/-- What holds in every state of a run: while no send failed, the bytes taken and those still to be
sent are the accepted ones; after one, the bytes taken are a prefix, and the I/O thread has closed
the connection or is about to. -/
def Invariant (connection : Connection) : Prop :=
  if connection.failed then
    connection.socket <+: connection.acceptedBytes ∧
      (connection.write.io = .sendFailed ∨
        (connection.write.io = .idle ∧ connection.closed = true))
  else connection.socket ++ connection.write.unsent = connection.acceptedBytes

theorem invariant_new : new.Invariant := rfl

theorem Invariant.streamExact {connection : Connection} (hinv : connection.Invariant) :
    connection.StreamExact := by
  unfold Invariant at hinv
  split_ifs at hinv with hfailed
  · exact ⟨hinv.1, fun hok ↦ absurd (hfailed.symm.trans hok) (by decide)⟩
  · refine ⟨⟨_, hinv⟩, fun _ ↦ ?_⟩
    rw [List.append_assoc, ← WriteSide.unsent_eq_held_append]
    exact hinv

theorem invariant_of_not_failed {connection : Connection} (hfailed : connection.failed = false)
    (hstream : connection.socket ++ connection.write.unsent = connection.acceptedBytes) :
    connection.Invariant := by
  rw [Invariant, hfailed]
  exact hstream

theorem Invariant.stream_eq {connection : Connection} (hinv : connection.Invariant)
    (hfailed : connection.failed = false) :
    connection.socket ++ connection.write.unsent = connection.acceptedBytes := by
  rwa [Invariant, hfailed] at hinv

/-- A step that moves messages between the queue and the I/O thread only keeps the invariant. -/
theorem Invariant.of_waiting_eq {connection : Connection} (hinv : connection.Invariant)
    (hfailed : connection.failed = false) {side : WriteSide}
    (hwaiting : side.waiting = connection.write.waiting) (closed : Bool) :
    Invariant { connection with closed := closed, write := side } := by
  refine invariant_of_not_failed hfailed ?_
  rw [WriteSide.unsent, hwaiting]
  exact hinv.stream_eq hfailed

theorem Invariant.stopped {connection : Connection} (hinv : connection.Invariant)
    (hfailed : connection.failed = true) :
    connection.socket <+: connection.acceptedBytes ∧
      (connection.write.io = .sendFailed ∨
        (connection.write.io = .idle ∧ connection.closed = true)) := by
  rwa [Invariant, hfailed] at hinv

theorem acceptedBytes_post (connection : Connection) (msg : TcpMessage) {next : Connection}
    (hstep : connection.step (.post msg) = some next) :
    next.acceptedBytes =
      connection.acceptedBytes ++ if (connection.write.post msg).1 = 0 then msg.data else [] := by
  cases hstep
  unfold acceptedBytes
  split_ifs <;> simp

/-- A step while no send has failed, of the I/O thread or another one, keeps the invariant. -/
theorem step_invariant_of_not_failed {connection next : Connection} {action : ConnectionAction}
    (hfailed : connection.failed = false) (hinv : connection.Invariant)
    (hshort : connection.sendsShort action) (hstep : connection.step action = some next) :
    next.Invariant := by
  have hstream := hinv.stream_eq hfailed
  cases action with
  | post msg =>
    have hbytes := acceptedBytes_post connection msg hstep
    cases hstep
    refine invariant_of_not_failed hfailed ?_
    rw [hbytes, ← hstream, List.append_assoc, WriteSide.unsent, WriteSide.waiting_post]
    split_ifs <;> simp [WriteSide.unsent]
  | joinMonitor =>
    cases hstep
    exact hinv.of_waiting_eq hfailed
      (WriteSide.waiting_congr (WriteSide.joinMonitor_io _) (WriteSide.joinMonitor_wrQueue _)) _
  | leaveMonitor =>
    cases hstep
    exact hinv.of_waiting_eq hfailed (WriteSide.waiting_congr rfl rfl) _
  | setClose =>
    cases hstep
    exact hinv.of_waiting_eq hfailed rfl true
  | checkOpen =>
    obtain ⟨side, hside, rfl⟩ := Option.map_eq_some_iff.mp hstep
    exact hinv.of_waiting_eq hfailed (WriteSide.waiting_checkOpen hside) _
  | takeFront =>
    obtain ⟨side, hside, rfl⟩ := Option.map_eq_some_iff.mp hstep
    exact hinv.of_waiting_eq hfailed (WriteSide.waiting_takeFront hside) _
  | send result =>
    obtain ⟨side, hside, rfl⟩ := Option.map_eq_some_iff.mp hstep
    by_cases hresult : result = .failed
    · obtain ⟨msg, -, -, rfl⟩ := WriteSide.send_cases hside
      subst hresult
      have hinitial : connection.socket ++ [] <+: connection.acceptedBytes := by
        rw [List.append_nil]
        exact ⟨_, hstream⟩
      simp only [Invariant, hfailed, Bool.false_or, beq_self_eq_true, if_true]
      exact ⟨hinitial, .inl rfl⟩
    · have hnext : (connection.failed || result == .failed) = false := by
        rw [hfailed, Bool.false_or]
        exact beq_eq_false_iff_ne.mpr hresult
      refine invariant_of_not_failed hnext ?_
      have htaken := WriteSide.taken_append_unsent_send hside hresult (by
        rintro count msg rfl hio
        simpa [sendsShort, hio] using hshort)
      rw [List.append_assoc, htaken]
      exact hstream
  | putBack =>
    obtain ⟨side, hside, rfl⟩ := Option.map_eq_some_iff.mp hstep
    exact hinv.of_waiting_eq hfailed (WriteSide.waiting_putBack hside) _
  | confirmEmpty =>
    obtain ⟨side, hside, rfl⟩ := Option.map_eq_some_iff.mp hstep
    exact hinv.of_waiting_eq hfailed (WriteSide.waiting_confirmEmpty hside) _
  | onIOError =>
    simp only [step] at hstep
    split_ifs at hstep with hio
    cases hstep
    exact hinv.of_waiting_eq hfailed (by simp [WriteSide.waiting, hio]) true

/-- After a failed send the I/O thread does not reach the queue any more. -/
theorem step_invariant_of_failed {connection next : Connection} {action : ConnectionAction}
    (hfailed : connection.failed = true) (hinv : connection.Invariant)
    (hstep : connection.step action = some next) : next.Invariant := by
  obtain ⟨hinitial, hio⟩ := hinv.stopped hfailed
  cases action with
  | post msg =>
    have hbytes := acceptedBytes_post connection msg hstep
    have hkept : (connection.write.post msg).2.io = connection.write.io := by
      rcases connection.write.post_cases msg with hrefused | ⟨-, -, hkept, -⟩
      · rw [hrefused]
      · exact hkept
    cases hstep
    rw [Invariant, if_pos hfailed, hbytes, hkept]
    exact ⟨hinitial.trans (List.prefix_append _ _), hio⟩
  | joinMonitor =>
    cases hstep
    rw [Invariant, if_pos hfailed, WriteSide.joinMonitor_io]
    exact ⟨hinitial, hio⟩
  | leaveMonitor =>
    cases hstep
    rw [Invariant, if_pos hfailed, WriteSide.leaveMonitor_io]
    exact ⟨hinitial, hio⟩
  | setClose =>
    cases hstep
    rw [Invariant, if_pos hfailed]
    exact ⟨hinitial, hio.imp_right fun hidle ↦ ⟨hidle.1, rfl⟩⟩
  | checkOpen =>
    obtain ⟨side, hside, rfl⟩ := Option.map_eq_some_iff.mp hstep
    obtain ⟨hidle, hcheck⟩ := WriteSide.checkOpen_cases hside
    have hclosed : connection.closed = true := by
      rcases hio with hfail | ⟨-, hclosed⟩
      · rw [hidle] at hfail
        cases hfail
      · exact hclosed
    rw [hclosed] at hcheck
    obtain ⟨-, rfl⟩ | ⟨hopen, -⟩ := hcheck
    · exact hinv
    · cases hopen
  | takeFront =>
    obtain ⟨side, hside, rfl⟩ := Option.map_eq_some_iff.mp hstep
    have hopened := (WriteSide.takeFront_cases hside).1
    simp [hopened] at hio
  | send result =>
    obtain ⟨side, hside, rfl⟩ := Option.map_eq_some_iff.mp hstep
    obtain ⟨msg, hsending, -⟩ := WriteSide.send_cases hside
    simp [hsending] at hio
  | putBack =>
    obtain ⟨side, hside, rfl⟩ := Option.map_eq_some_iff.mp hstep
    obtain ⟨msg, hputting, -⟩ := WriteSide.putBack_cases hside
    simp [hputting] at hio
  | confirmEmpty =>
    obtain ⟨side, hside, rfl⟩ := Option.map_eq_some_iff.mp hstep
    have hempty := (WriteSide.confirmEmpty_cases hside).1
    simp [hempty] at hio
  | onIOError =>
    simp only [step] at hstep
    split_ifs at hstep
    cases hstep
    rw [Invariant, if_pos hfailed]
    exact ⟨hinitial, .inr ⟨rfl, rfl⟩⟩

/-- Assumes: a run of a connection from its opening, in which the socket only takes bytes of
messages shorter than `2 ^ 31`. In the state it reaches, and so in every state of it, the bytes the
socket took are a prefix of the accepted ones; as long as no send failed, they are followed there by
exactly the bytes that the I/O thread holds and the bytes in the queue. -/
theorem writeStream_exact (actions : List ConnectionAction) (final : Connection)
    (hshort : Along step (fun connection action ↦ connection.sendsShort action) new actions)
    (hrun : runFrom step new actions = some final) :
    final.StreamExact := by
  have hinv : final.Invariant :=
    runFrom_invariant_along Invariant (fun connection action next hinv hshort hstep ↦ by
      cases hfailed : connection.failed with
      | false => exact step_invariant_of_not_failed hfailed hinv hshort hstep
      | true => exact step_invariant_of_failed hfailed hinv hstep) invariant_new hshort hrun
  exact hinv.streamExact

/-- A message is posted, taken and sent in part while another one is posted. -/
theorem writeStream_exact_interleaved :
    ∃ final, runFrom step new
        [.post ⟨[1#8, 2#8]⟩, .checkOpen, .takeFront, .post ⟨[3#8]⟩, .send (.sent 1), .putBack] =
        some final ∧ final.socket = [1#8] ∧ final.StreamExact :=
  ⟨_, rfl, rfl, writeStream_exact
    [.post ⟨[1#8, 2#8]⟩, .checkOpen, .takeFront, .post ⟨[3#8]⟩, .send (.sent 1), .putBack] _
    (by decide) rfl⟩

/-- Assumes: a message that is not empty and whose size is not positive when converted to `int`. The
socket takes its first byte, and nothing of it is left to be sent. -/
theorem runFrom_send_negative_size (msg : TcpMessage) (hdata : 1 ≤ msg.data.length)
    (hsize : asInt32 msg.data.length ≤ 0)
    (hpossible : (1 : ℤ) ≤ asInt32 msg.data.length % 2 ^ 64) :
    runFrom step new [.post msg, .checkOpen, .takeFront, .send (.sent 1)] =
      some { new with accepted := [msg], socket := msg.data.take 1 } := by
  have hresult : SendResult.Possible msg (.sent 1) := ⟨le_rfl, by norm_num, hdata, hpossible⟩
  have hafter : WriteSide.afterSend msg (.sent 1) = .idle :=
    if_neg (not_lt.mpr (hsize.trans (by norm_num)))
  simp [runFrom, step, new, WriteSide.new, WriteSide.post, WriteSide.setEnableWrite,
    WriteSide.checkOpen, WriteSide.takeFront, WriteSide.send, WriteSide.taken, WriteSide.held,
    hresult, hafter]

/-- The stream of a message of `2 ^ 31` bytes is not exact: when the socket has taken its first
byte, the others are gone. -/
theorem not_writeStream_exact_long_message :
    ∃ final, runFrom step new
        [.post ⟨List.replicate (2 ^ 31) 0⟩, .checkOpen, .takeFront, .send (.sent 1)] = some final ∧
      ¬ final.StreamExact := by
  have hlength : (List.replicate (2 ^ 31) (0 : Byte)).length = 2 ^ 31 := List.length_replicate
  have hrun := runFrom_send_negative_size ⟨List.replicate (2 ^ 31) 0⟩
    (by rw [hlength]; norm_num) (by rw [hlength]; decide) (by rw [hlength]; decide)
  refine ⟨_, hrun, fun hexact ↦ ?_⟩
  have hbytes := congrArg List.length (hexact.2 rfl)
  simp only [acceptedBytes, new, WriteSide.new, WriteSide.held, List.append_nil, List.map_nil,
    List.flatten_nil, List.map_cons, List.flatten_cons, List.length_take, hlength] at hbytes
  norm_num at hbytes

end Connection

end TszyUlt.Zbf
