import TszyUlt.Lib.Chunks
import TszyUlt.Lib.Transition
import TszyUlt.Zbf.TcpMessage

/-!
# A connection of the ASIO transport

`zbf/asio_socket_tcp.hpp`: `tcpsock_user`. A connection has two strands, on which handlers run one
after the other in the order in which they were queued: the I/O strand, with the completions of
reads and writes and what `post` and `schedule_dispatch` put there, and a worker strand, on which
the listener is called. An operation that was started completes at some later moment, and its
handler is then queued.

`AsioUser` is a connection with its strands, the operations that are under way, and what an observer
records: the calls of the listener, the bytes that were read, and the messages that entered and left
the write queue. A step is a call from outside (`start`, `stop`, `on_tick`, `post`), the completion
of an operation with any outcome, or the run of the handler at the front of a strand. A call of the
listener that runs takes one message, so that what other threads do comes in between.

Scope. `start` is called at most once, as its callers do. `_stop` is tested more than once in a
handler; `runIo` says whether another thread calls `stop` while the handler runs. Whether the
heartbeat time is exceeded is an input of `on_tick`. The stream is plain or TLS alike: only what an
operation delivers is seen. The texts of the log and `desc` are not modelled.
-/

set_option autoImplicit false
set_option relaxedAutoImplicit false

namespace TszyUlt.Zbf

open Lib

/-! ### Operations and handlers -/

/-- The error codes that the handlers tell apart. `tryAgain` is `would_block` as well. -/
inductive AsioError
  | operationAborted
  | tryAgain
  | interrupted
  | messageSize
  | other
  deriving DecidableEq, Repr

/-- The argument of `try_stop`. -/
inductive StopSource
  | manual
  | error
  | expired
  deriving DecidableEq, Repr

/-- An `async_read` that is under way: of a header, or of the body that the header announces. -/
inductive ReadOp
  | header
  | body (header : Bytes) (bodySz : ℕ)
  deriving DecidableEq, Repr

/-- A handler on the I/O strand. A handler of an operation has its error code, a handler of a write
also the message that was written. -/
inductive IoHandler
  | startRead
  | readBody (header : Bytes) (ec : Option AsioError)
  | handleRead (msg : TcpMessage) (ec : Option AsioError)
  | dispatch
  | writeData (msg : TcpMessage)
  | handleWrite (msg : TcpMessage) (ec : Option AsioError)
  deriving DecidableEq, Repr

/-- A handler on the worker strand, or what is left of the one that runs. -/
inductive WorkerHandler
  | connect
  /-- `onConnect` has returned, `start_read` is to be called. -/
  | connected
  | recvMsgs (chunk : List TcpMessage)
  | disconnect
  deriving DecidableEq, Repr

/-- A call of the listener. -/
inductive Callback
  | onConnect
  | onRecvMsg (msg : TcpMessage)
  | onDisconnect
  deriving DecidableEq, Repr

/-- The calls of the listener that a handler is still to make. -/
def WorkerHandler.callbacks : WorkerHandler → List Callback
  | .connect => [.onConnect]
  | .connected => []
  | .recvMsgs chunk => chunk.map .onRecvMsg
  | .disconnect => [.onDisconnect]

/-- A protocol that cuts a stream into frames: headers are not empty, and the size of the largest
message is a `uint32_t`. -/
structure AsioProtocol extends TcpMessageProtocol where
  headerSize_pos : 0 < headerSize.toNat
  size_lt : headerSize.toNat + maxBodySize.toNat < 2 ^ 32

/-- `default_msg_proto` for a connection. -/
def AsioProtocol.default (order : ByteOrder) : AsioProtocol where
  toTcpMessageProtocol := defaultMsgProto order
  headerSize_pos := by
    show 0 < (4 : BitVec 32).toNat
    decide
  size_lt := by
    show (4 : BitVec 32).toNat + defaultMaxBodySize.toNat < 2 ^ 32
    decide

/-- `MaxRdQueueSize`. -/
def maxRdQueueSize : ℕ := 256

/-- `MaxWrQueueSize`. -/
def maxWrQueueSize : ℕ := 256

/-- `MaxBatchSize`. -/
def maxBatchSize : ℕ := 32

/-- `tcpsock_user` with its strands and operations, and what an observer records. -/
structure AsioUser where
  serverSide : Bool
  stop : Bool
  pending : Bool
  readQueue : List TcpMessage
  writeQueue : List TcpMessage
  reads : List ReadOp
  writes : List TcpMessage
  ioStrand : List IoHandler
  workerStrand : List WorkerHandler
  /-- Whether `start` was called. -/
  started : Bool
  /-- Who stopped the connection. -/
  stopSource : Option StopSource
  callbacks : List Callback
  /-- The bytes that the reads have delivered. -/
  received : Bytes
  /-- The messages dropped because the read queue was full. -/
  dropped : List TcpMessage
  /-- The messages that entered the write queue. -/
  accepted : List TcpMessage
  /-- The messages whose writes completed. -/
  written : List TcpMessage
  deriving DecidableEq, Repr

/-- The steps of a connection. -/
inductive UserAction
  | start
  | stop
  | onTick (exceeded : Bool)
  | post (msg : TcpMessage)
  /-- A read completes: with all the bytes it asked for, or with an error. -/
  | readDone (index : ℕ) (data : Bytes) (ec : Option AsioError)
  | writeDone (index : ℕ) (ec : Option AsioError)
  /-- The handler at the front of the I/O strand runs, and `stop` is called meanwhile or not. -/
  | runIo (interrupted : Bool)
  | runWorker
  deriving DecidableEq, Repr

namespace AsioUser

/-- A connection before `start`. -/
def new (serverSide : Bool) : AsioUser where
  serverSide := serverSide
  stop := false
  pending := false
  readQueue := []
  writeQueue := []
  reads := []
  writes := []
  ioStrand := []
  workerStrand := []
  started := false
  stopSource := none
  callbacks := []
  received := []
  dropped := []
  accepted := []
  written := []

/-- `try_stop`. -/
def tryStop (user : AsioUser) (source : StopSource) : AsioUser :=
  if user.stop then user else { user with stop := true, stopSource := some source }

/-- Another thread may have called `stop`. -/
def interrupt (user : AsioUser) (interrupted : Bool) : AsioUser :=
  if interrupted then user.tryStop .manual else user

/-- `handle_error`. -/
def handleError (user : AsioUser) : AsioUser :=
  if user.stop then user
  else { user.tryStop .error with workerStrand := user.workerStrand ++ [.disconnect] }

/-- `read_header`. -/
def readHeader (user : AsioUser) : AsioUser :=
  if user.stop then user else { user with reads := user.reads ++ [.header] }

/-- `schedule_dispatch`. -/
def scheduleDispatch (user : AsioUser) : AsioUser :=
  if user.pending then user
  else { user with pending := true, ioStrand := user.ioStrand ++ [.dispatch] }

/-- The handler that `schedule_dispatch` posts. -/
def dispatch (user : AsioUser) : AsioUser :=
  { user with
    readQueue := []
    pending := false
    workerStrand :=
      user.workerStrand ++ (user.readQueue.toChunks maxBatchSize).map WorkerHandler.recvMsgs }

/-- `do_write`. -/
def doWrite (user : AsioUser) : AsioUser :=
  match user.writeQueue with
  | [] => user
  | msg :: _ => if user.stop then user else { user with writes := user.writes ++ [msg] }

/-- The handler that `write_data` posts. -/
def writeData (user : AsioUser) (msg : TcpMessage) (interrupted : Bool) : AsioUser :=
  if user.writeQueue.length < maxWrQueueSize then
    let queued := { user with
      writeQueue := user.writeQueue ++ [msg]
      accepted := user.accepted ++ [msg] }
    if user.writeQueue = [] then (queued.interrupt interrupted).doWrite
    else queued.interrupt interrupted
  else user.interrupt interrupted

/-- `handle_write`. -/
def handleWrite (user : AsioUser) (ec : Option AsioError) (interrupted : Bool) : AsioUser :=
  match ec with
  | some .operationAborted => user.interrupt interrupted
  | some _ => user.handleError
  | none => ({ user with writeQueue := user.writeQueue.tail }.interrupt interrupted).doWrite

/-- `post`. -/
def post (user : AsioUser) (msg : TcpMessage) : AsioUser :=
  { user with ioStrand := user.ioStrand ++ [.writeData msg] }

/-- The listener is called. -/
def call (user : AsioUser) (callback : Callback) : AsioUser :=
  { user with callbacks := user.callbacks ++ [callback] }

/-- The handler at the front of the worker strand, with what is behind it. -/
def runWorker (user : AsioUser) : Option AsioUser :=
  match user.workerStrand with
  | [] => none
  | .connect :: rest => some { user.call .onConnect with workerStrand := .connected :: rest }
  | .connected :: rest =>
    some { user with workerStrand := rest, ioStrand := user.ioStrand ++ [.startRead] }
  | .recvMsgs (msg :: chunk) :: rest =>
    some { user.call (.onRecvMsg msg) with workerStrand := .recvMsgs chunk :: rest }
  | .recvMsgs [] :: rest => some { user with workerStrand := rest }
  | .disconnect :: rest => some { user.call .onDisconnect with workerStrand := rest }

section Protocol

variable (protocol : AsioProtocol)

/-- How many bytes a read asks for. -/
def readSize : ReadOp → ℕ
  | .header => protocol.headerSize.toNat
  | .body _ bodySz => bodySz

/-- The completion handler of a read. -/
def readHandler (data : Bytes) (ec : Option AsioError) : ReadOp → IoHandler
  | .header => .readBody data ec
  | .body header _ => .handleRead ⟨header ++ data⟩ ec

/-- `handle_read`. -/
def handleRead (user : AsioUser) (msg : TcpMessage) (ec : Option AsioError) (interrupted : Bool) :
    AsioUser :=
  match ec with
  | some .operationAborted => user.interrupt interrupted
  | some _ => user.handleError
  | none =>
    if user.stop then user
    else
      let taken :=
        if protocol.isHeartbeat msg then user
        else if user.readQueue.length < maxRdQueueSize then
          { user with readQueue := user.readQueue ++ [msg] }.scheduleDispatch
        else { user with dropped := user.dropped ++ [msg] }
      (taken.interrupt interrupted).readHeader

/-- `read_body`. -/
def readBody (user : AsioUser) (header : Bytes) (ec : Option AsioError) (interrupted : Bool) :
    AsioUser :=
  match ec with
  | some .operationAborted => user.interrupt interrupted
  | some _ => user.handleError
  | none =>
    if user.stop then user
    else
      let bodySz := protocol.bodySize ⟨header⟩
      if protocol.maxBodySize < bodySz then user.handleError
      else if 0 < bodySz then
        interrupt { user with reads := user.reads ++ [.body header bodySz.toNat] } interrupted
      else user.handleRead protocol ⟨header⟩ none interrupted

/-- A handler of the I/O strand. -/
def runHandler (user : AsioUser) (interrupted : Bool) : IoHandler → AsioUser
  | .startRead => (user.interrupt interrupted).readHeader
  | .readBody header ec => user.readBody protocol header ec interrupted
  | .handleRead msg ec => user.handleRead protocol msg ec interrupted
  | .dispatch => user.dispatch.interrupt interrupted
  | .writeData msg => user.writeData msg interrupted
  | .handleWrite _ ec => user.handleWrite ec interrupted

/-- `on_tick`. -/
def onTick (user : AsioUser) (exceeded : Bool) : AsioUser :=
  if user.stop then user
  else if user.serverSide then if exceeded then user.tryStop .expired else user
  else if exceeded then user.post protocol.genHeartbeat
  else user

/-- One step of a connection. -/
def step (user : AsioUser) : UserAction → Option AsioUser
  | .start =>
    if user.started then none
    else some { user with started := true, workerStrand := user.workerStrand ++ [.connect] }
  | .stop => some (user.tryStop .manual)
  | .onTick exceeded => some (user.onTick protocol exceeded)
  | .post msg => some (user.post msg)
  | .readDone index data ec =>
    match user.reads[index]? with
    | none => none
    | some op =>
      if ec = none → data.length = readSize protocol op then
        some { user with
          reads := user.reads.eraseIdx index
          ioStrand := user.ioStrand ++ [readHandler data ec op]
          received := if ec = none then user.received ++ data else user.received }
      else none
  | .writeDone index ec =>
    match user.writes[index]? with
    | none => none
    | some msg =>
      some { user with
        writes := user.writes.eraseIdx index
        ioStrand := user.ioStrand ++ [.handleWrite msg ec]
        written := if ec = none then user.written ++ [msg] else user.written }
  | .runIo interrupted =>
    match user.ioStrand with
    | [] => none
    | handler :: rest =>
      some (({ user with ioStrand := rest }).runHandler protocol interrupted handler)
  | .runWorker => user.runWorker

end Protocol

/-! ### What a step leaves alone -/

/-- The handler at the front of the I/O strand is that of a write with an error other than an
abort. -/
def failedWrite (user : AsioUser) : Bool :=
  match user.ioStrand with
  | .handleWrite _ (some ec) :: _ => ec != .operationAborted
  | _ => false

/-- A handler that reads or dispatches. -/
def isReading : IoHandler → Bool
  | .startRead | .readBody _ _ | .handleRead _ _ | .dispatch => true
  | .writeData _ | .handleWrite _ _ => false

/-- The part of a connection that reading and calling the listener are about. -/
structure ReadView where
  pending : Bool
  readQueue : List TcpMessage
  reads : List ReadOp
  strand : List IoHandler
  workerStrand : List WorkerHandler
  started : Bool
  callbacks : List Callback
  received : Bytes
  dropped : List TcpMessage

/-- The reading part of a connection. -/
def readView (user : AsioUser) : ReadView where
  pending := user.pending
  readQueue := user.readQueue
  reads := user.reads
  strand := user.ioStrand.filter isReading
  workerStrand := user.workerStrand
  started := user.started
  callbacks := user.callbacks
  received := user.received
  dropped := user.dropped

/-- The message and the error code of the completion of a write. -/
def writeDone : IoHandler → Option (TcpMessage × Option AsioError)
  | .handleWrite msg ec => some (msg, ec)
  | _ => none

/-- The part of a connection that writing is about. -/
structure WriteView where
  writeQueue : List TcpMessage
  writes : List TcpMessage
  completions : List (TcpMessage × Option AsioError)
  accepted : List TcpMessage
  written : List TcpMessage

/-- The writing part of a connection. -/
def writeView (user : AsioUser) : WriteView where
  writeQueue := user.writeQueue
  writes := user.writes
  completions := user.ioStrand.filterMap writeDone
  accepted := user.accepted
  written := user.written

theorem tryStop_of_stop {user : AsioUser} (hstop : user.stop = true) (source : StopSource) :
    user.tryStop source = user := if_pos hstop

theorem tryStop_of_running {user : AsioUser} (hstop : user.stop = false) (source : StopSource) :
    user.tryStop source = { user with stop := true, stopSource := some source } := by
  rw [tryStop, hstop]
  rfl

theorem handleError_of_stop {user : AsioUser} (hstop : user.stop = true) :
    user.handleError = user := if_pos hstop

theorem handleError_of_running {user : AsioUser} (hstop : user.stop = false) :
    user.handleError = { user with
      stop := true
      stopSource := some .error
      workerStrand := user.workerStrand ++ [.disconnect] } := by
  rw [handleError, hstop, tryStop_of_running hstop]
  rfl

theorem stop_handleError (user : AsioUser) : user.handleError.stop = true := by
  cases hstop : user.stop with
  | false => rw [handleError_of_running hstop]
  | true => rw [handleError_of_stop hstop, hstop]

@[simp] theorem readView_tryStop (user : AsioUser) (source : StopSource) :
    (user.tryStop source).readView = user.readView := by
  unfold tryStop
  split_ifs <;> rfl

@[simp] theorem readView_interrupt (user : AsioUser) (interrupted : Bool) :
    (user.interrupt interrupted).readView = user.readView := by
  unfold interrupt
  split_ifs
  · exact readView_tryStop user .manual
  · rfl

@[simp] theorem writeView_tryStop (user : AsioUser) (source : StopSource) :
    (user.tryStop source).writeView = user.writeView := by
  unfold tryStop
  split_ifs <;> rfl

@[simp] theorem writeView_interrupt (user : AsioUser) (interrupted : Bool) :
    (user.interrupt interrupted).writeView = user.writeView := by
  unfold interrupt
  split_ifs
  · exact writeView_tryStop user .manual
  · rfl

@[simp] theorem writeView_handleError (user : AsioUser) :
    user.handleError.writeView = user.writeView := by
  unfold handleError
  split_ifs
  · rfl
  · exact writeView_tryStop user .error

@[simp] theorem writeView_readHeader (user : AsioUser) :
    user.readHeader.writeView = user.writeView := by
  unfold readHeader
  split_ifs <;> rfl

@[simp] theorem writeView_scheduleDispatch (user : AsioUser) :
    user.scheduleDispatch.writeView = user.writeView := by
  unfold scheduleDispatch
  split_ifs
  · rfl
  · simp [writeView, writeDone]

@[simp] theorem readView_doWrite (user : AsioUser) : user.doWrite.readView = user.readView := by
  unfold doWrite
  split
  · rfl
  · split_ifs <;> rfl

theorem readView_post (user : AsioUser) (msg : TcpMessage) :
    (user.post msg).readView = user.readView := by
  simp [post, readView, isReading]

theorem writeView_post (user : AsioUser) (msg : TcpMessage) :
    (user.post msg).writeView = user.writeView := by
  simp [post, writeView, writeDone]

/-- An error of a write other than an abort stops the connection. -/
theorem handleWrite_of_error (user : AsioUser) {ec : AsioError} (hec : ec ≠ .operationAborted)
    (interrupted : Bool) : user.handleWrite (some ec) interrupted = user.handleError := by
  cases ec with
  | operationAborted => exact absurd rfl hec
  | tryAgain | interrupted | messageSize | other => rfl

theorem failedWrite_eq_true {user : AsioUser} {msg : TcpMessage} {ec : AsioError}
    {rest : List IoHandler} (hstrand : user.ioStrand = .handleWrite msg (some ec) :: rest)
    (hec : ec ≠ .operationAborted) : user.failedWrite = true := by
  rw [failedWrite, hstrand]
  exact bne_iff_ne.mpr hec

/-- A write that succeeded or was aborted does not touch the reading side. -/
theorem readView_handleWrite (user : AsioUser) {ec : Option AsioError}
    (hec : ∀ code, ec = some code → code = .operationAborted) (interrupted : Bool) :
    (user.handleWrite ec interrupted).readView = user.readView := by
  cases ec with
  | none =>
    show (AsioUser.interrupt { user with writeQueue := user.writeQueue.tail } interrupted
      ).doWrite.readView = user.readView
    rw [readView_doWrite, readView_interrupt]
    rfl
  | some code =>
    cases hec code rfl
    exact readView_interrupt user interrupted

theorem readView_writeData (user : AsioUser) (msg : TcpMessage) (interrupted : Bool) :
    (user.writeData msg interrupted).readView = user.readView := by
  unfold writeData
  split_ifs
  · rw [readView_doWrite, readView_interrupt]
    rfl
  · rw [readView_interrupt]
    rfl
  · exact readView_interrupt user interrupted

section Protocol

variable (protocol : AsioProtocol)

theorem writeView_handleRead (user : AsioUser) (msg : TcpMessage) (ec : Option AsioError)
    (interrupted : Bool) :
    (user.handleRead protocol msg ec interrupted).writeView = user.writeView := by
  unfold handleRead
  split
  · exact writeView_interrupt user interrupted
  · exact writeView_handleError user
  · split_ifs
    · rfl
    · rw [writeView_readHeader, writeView_interrupt]
    · rw [writeView_readHeader, writeView_interrupt, writeView_scheduleDispatch]
      rfl
    · rw [writeView_readHeader, writeView_interrupt]
      rfl

theorem writeView_readBody (user : AsioUser) (header : Bytes) (ec : Option AsioError)
    (interrupted : Bool) :
    (user.readBody protocol header ec interrupted).writeView = user.writeView := by
  unfold readBody
  split
  · exact writeView_interrupt user interrupted
  · exact writeView_handleError user
  · dsimp only
    split_ifs
    · rfl
    · exact writeView_handleError user
    · rw [writeView_interrupt]
      rfl
    · exact writeView_handleRead protocol user ⟨header⟩ none interrupted

/-- An error of a read other than an abort stops the connection. -/
theorem handleRead_of_error (user : AsioUser) (msg : TcpMessage) {ec : AsioError}
    (hec : ec ≠ .operationAborted) (interrupted : Bool) :
    user.handleRead protocol msg (some ec) interrupted = user.handleError := by
  cases ec with
  | operationAborted => exact absurd rfl hec
  | tryAgain | interrupted | messageSize | other => rfl

theorem readBody_of_error (user : AsioUser) (header : Bytes) {ec : AsioError}
    (hec : ec ≠ .operationAborted) (interrupted : Bool) :
    user.readBody protocol header (some ec) interrupted = user.handleError := by
  cases ec with
  | operationAborted => exact absurd rfl hec
  | tryAgain | interrupted | messageSize | other => rfl

theorem writeView_onTick (user : AsioUser) (exceeded : Bool) :
    (user.onTick protocol exceeded).writeView = user.writeView := by
  unfold onTick
  split_ifs
  · rfl
  · exact writeView_tryStop user .expired
  · rfl
  · exact writeView_post user _
  · rfl

theorem readView_onTick (user : AsioUser) (exceeded : Bool) :
    (user.onTick protocol exceeded).readView = user.readView := by
  unfold onTick
  split_ifs
  · rfl
  · exact readView_tryStop user .expired
  · rfl
  · exact readView_post user _
  · rfl

/-! ### What a step can do -/

variable {protocol}

theorem start_cases {user next : AsioUser} (hstep : user.step protocol .start = some next) :
    user.started = false ∧
      next = { user with started := true, workerStrand := user.workerStrand ++ [.connect] } := by
  simp only [step] at hstep
  split_ifs at hstep with hstarted
  cases hstep
  exact ⟨Bool.eq_false_of_not_eq_true hstarted, rfl⟩

theorem readDone_cases {user next : AsioUser} {index : ℕ} {data : Bytes} {ec : Option AsioError}
    (hstep : user.step protocol (.readDone index data ec) = some next) :
    ∃ op, user.reads[index]? = some op ∧ (ec = none → data.length = readSize protocol op) ∧
      next = { user with
        reads := user.reads.eraseIdx index
        ioStrand := user.ioStrand ++ [readHandler data ec op]
        received := if ec = none then user.received ++ data else user.received } := by
  simp only [step] at hstep
  split at hstep
  · cases hstep
  · rename_i op hop
    rw [ite_eq_iff] at hstep
    rcases hstep with ⟨hsize, hnext⟩ | ⟨-, hnone⟩
    · exact ⟨op, hop, hsize, (Option.some.inj hnext).symm⟩
    · cases hnone

theorem writeDone_cases {user next : AsioUser} {index : ℕ} {ec : Option AsioError}
    (hstep : user.step protocol (.writeDone index ec) = some next) :
    ∃ msg, user.writes[index]? = some msg ∧
      next = { user with
        writes := user.writes.eraseIdx index
        ioStrand := user.ioStrand ++ [.handleWrite msg ec]
        written := if ec = none then user.written ++ [msg] else user.written } := by
  simp only [step] at hstep
  split at hstep
  · cases hstep
  · rename_i msg hmsg
    exact ⟨msg, hmsg, (Option.some.inj hstep).symm⟩

theorem runIo_cases {user next : AsioUser} {interrupted : Bool}
    (hstep : user.step protocol (.runIo interrupted) = some next) :
    ∃ handler rest, user.ioStrand = handler :: rest ∧
      next = runHandler protocol { user with ioStrand := rest } interrupted handler := by
  simp only [step] at hstep
  split at hstep
  · cases hstep
  · rename_i handler rest hstrand
    exact ⟨handler, rest, hstrand, (Option.some.inj hstep).symm⟩

variable (protocol)

/-! ### A stopped connection -/

theorem interrupt_of_stop {user : AsioUser} (hstop : user.stop = true) (interrupted : Bool) :
    user.interrupt interrupted = user := by
  unfold interrupt
  split_ifs
  · exact tryStop_of_stop hstop .manual
  · rfl

theorem stop_interrupt {user : AsioUser} (hstop : user.stop = true) (interrupted : Bool) :
    (user.interrupt interrupted).stop = true := by
  rw [interrupt_of_stop hstop]
  exact hstop

theorem stop_doWrite (user : AsioUser) : user.doWrite.stop = user.stop := by
  unfold doWrite
  split
  · rfl
  · split_ifs <;> rfl

theorem stop_writeData {user : AsioUser} (hstop : user.stop = true) (msg : TcpMessage)
    (interrupted : Bool) : (user.writeData msg interrupted).stop = true := by
  unfold writeData
  dsimp only
  split_ifs
  · rw [stop_doWrite]
    exact stop_interrupt (by exact hstop) interrupted
  · exact stop_interrupt (by exact hstop) interrupted
  · exact stop_interrupt hstop interrupted

theorem stop_handleWrite {user : AsioUser} (hstop : user.stop = true) (ec : Option AsioError)
    (interrupted : Bool) : (user.handleWrite ec interrupted).stop = true := by
  unfold handleWrite
  split
  · exact stop_interrupt hstop interrupted
  · rw [handleError_of_stop hstop]
    exact hstop
  · rw [stop_doWrite]
    exact stop_interrupt (by exact hstop) interrupted

/-- A handler that reads does nothing on a stopped connection. -/
theorem handleRead_of_stop {user : AsioUser} (hstop : user.stop = true) (msg : TcpMessage)
    (ec : Option AsioError) (interrupted : Bool) :
    user.handleRead protocol msg ec interrupted = user := by
  unfold handleRead
  split
  · exact interrupt_of_stop hstop interrupted
  · exact handleError_of_stop hstop
  · exact if_pos hstop

theorem readBody_of_stop {user : AsioUser} (hstop : user.stop = true) (header : Bytes)
    (ec : Option AsioError) (interrupted : Bool) :
    user.readBody protocol header ec interrupted = user := by
  unfold readBody
  split
  · exact interrupt_of_stop hstop interrupted
  · exact handleError_of_stop hstop
  · exact if_pos hstop

theorem stop_runHandler {user : AsioUser} (hstop : user.stop = true) (interrupted : Bool)
    (handler : IoHandler) : (user.runHandler protocol interrupted handler).stop = true := by
  cases handler with
  | startRead =>
    rw [runHandler, interrupt_of_stop hstop, readHeader, if_pos hstop]
    exact hstop
  | readBody header ec =>
    rw [runHandler, readBody_of_stop protocol hstop]
    exact hstop
  | handleRead msg ec =>
    rw [runHandler, handleRead_of_stop protocol hstop]
    exact hstop
  | dispatch => exact stop_interrupt (show user.dispatch.stop = true from hstop) interrupted
  | writeData msg => exact stop_writeData hstop msg interrupted
  | handleWrite msg ec => exact stop_handleWrite hstop ec interrupted

theorem writeView_runWorker {user next : AsioUser} (hworker : user.runWorker = some next) :
    next.writeView = user.writeView := by
  unfold runWorker at hworker
  split at hworker
  · cases hworker
  · cases hworker
    rfl
  · cases hworker
    simp [writeView, writeDone]
  · cases hworker
    rfl
  · cases hworker
    rfl
  · cases hworker
    rfl

theorem stop_runWorker {user next : AsioUser} (hworker : user.runWorker = some next) :
    next.stop = user.stop ∧ next.stopSource = user.stopSource := by
  unfold runWorker at hworker
  split at hworker <;> cases hworker <;> exact ⟨rfl, rfl⟩

/-- A connection that is stopped stays stopped. -/
theorem step_stop {user next : AsioUser} {action : UserAction} (hstop : user.stop = true)
    (hstep : user.step protocol action = some next) : next.stop = true := by
  cases action with
  | start =>
    obtain ⟨-, rfl⟩ := start_cases hstep
    exact hstop
  | stop =>
    cases hstep
    rw [tryStop_of_stop hstop]
    exact hstop
  | onTick exceeded =>
    cases hstep
    rw [onTick, if_pos hstop]
    exact hstop
  | post msg =>
    cases hstep
    exact hstop
  | readDone index data ec =>
    obtain ⟨op, -, -, rfl⟩ := readDone_cases hstep
    exact hstop
  | writeDone index ec =>
    obtain ⟨msg, -, rfl⟩ := writeDone_cases hstep
    exact hstop
  | runIo interrupted =>
    obtain ⟨handler, rest, -, rfl⟩ := runIo_cases hstep
    exact stop_runHandler protocol (by exact hstop) interrupted handler
  | runWorker => exact (stop_runWorker hstep).1.trans hstop

end Protocol

end AsioUser

end TszyUlt.Zbf
