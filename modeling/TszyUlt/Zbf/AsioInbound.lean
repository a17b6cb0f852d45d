import TszyUlt.Zbf.AsioCallbacks
import TszyUlt.Zbf.RecvPath

/-!
# What an ASIO connection delivers

`zbf/asio_socket_tcp.hpp`: `start_read`, `read_header`, `read_body`, `handle_read` and
`schedule_dispatch`. A frame is read in two operations, its header and its body, goes through the
read queue and in chunks to the worker strand, and from there to the listener.

The peer sends a stream of bytes (`FedBy`): a read completes with the bytes of the stream that come
next, or fails because the stream has no more of them, and nothing else stops the connection. The
messages for the listener are the frames of the stream without the heartbeats (`expected`).
`Inbound` cuts the stream at the frame that is being read: the frames before it are those that were
delivered or are queued.

`inbound_exact` is about every run: what was delivered are the first of the expected messages, no
message is dropped, and in a state in which all handlers have run and no read can complete
(`CaughtUp`) all of them were delivered. Such a state is reached from every state of a run, since
`work` bounds the steps that are left (`exists_caughtUp`).
-/

set_option autoImplicit false
set_option relaxedAutoImplicit false

namespace TszyUlt.Zbf

open Lib

theorem AsioProtocol.framable (protocol : AsioProtocol) : protocol.toTcpMessageProtocol.Framable :=
  ⟨protocol.headerSize_pos, protocol.size_lt⟩

/-- The frames of a protocol. -/
def AsioProtocol.format (protocol : AsioProtocol) : FrameFormat Byte := protocol.framable.format

/-- The messages of frames that are not heartbeats. -/
def AsioProtocol.messages (protocol : AsioProtocol) (frames : List Bytes) : List TcpMessage :=
  (frames.map TcpMessage.mk).filter fun msg ↦ !protocol.isHeartbeat msg

/-- What the listener is to receive of a stream: its frames up to the first header that announces
too large a body, without the heartbeats. -/
def AsioProtocol.expected (protocol : AsioProtocol) (stream : Bytes) : List TcpMessage :=
  protocol.messages (protocol.format.framesOf stream)

/-- The message of a call of `onRecvMsg`. -/
def Callback.msg : Callback → Option TcpMessage
  | .onRecvMsg msg => some msg
  | .onConnect | .onDisconnect => none

namespace AsioUser

/-- The messages that were passed to `onRecvMsg`. -/
def delivered (user : AsioUser) : List TcpMessage := user.callbacks.filterMap Callback.msg

section Protocol

variable (protocol : AsioProtocol) (stream : Bytes)

/-- The bytes that arrive are those of the stream, a read fails only where the stream ends, and
nothing but a read stops the connection. -/
def FedBy (user : AsioUser) : UserAction → Prop
  | .stop => user.stop = true
  | .onTick exceeded => user.stop = true ∨ (user.serverSide = true → exceeded = false)
  | .readDone _ data none => user.received ++ data <+: stream
  | .readDone index _ (some ec) => user.stop = true ∨ ec ≠ .operationAborted ∧
      ∀ op ∈ user.reads[index]?, stream.length < user.received.length + readSize protocol op
  | .runIo interrupted => user.stop = true ∨ interrupted = false ∧ user.failedWrite = false
  | .start | .post _ | .writeDone _ _ | .runWorker => True

instance (user : AsioUser) : DecidablePred (FedBy protocol stream user)
  | .stop => inferInstanceAs (Decidable (user.stop = true))
  | .onTick exceeded => inferInstanceAs
      (Decidable (user.stop = true ∨ (user.serverSide = true → exceeded = false)))
  | .readDone _ data none => inferInstanceAs (Decidable (user.received ++ data <+: stream))
  | .readDone index _ (some ec) => inferInstanceAs
      (Decidable (user.stop = true ∨ ec ≠ .operationAborted ∧
        ∀ op ∈ user.reads[index]?, stream.length < user.received.length + readSize protocol op))
  | .runIo interrupted => inferInstanceAs
      (Decidable (user.stop = true ∨ interrupted = false ∧ user.failedWrite = false))
  | .start | .post _ | .writeDone _ _ | .runWorker => isTrue trivial

/-- All handlers have run, and no read can complete with bytes of the stream. -/
def CaughtUp (user : AsioUser) : Prop :=
  user.started = true ∧ user.ioStrand = [] ∧ user.workerStrand = [] ∧
    ∀ op ∈ user.reads, stream.length < user.received.length + readSize protocol op

/-! ### The frame that is being read -/

/-- What a reader has of the frame that is being read. -/
def Holds (rest held : Bytes) : Reader → Prop
  | .connect | .connected | .start | .op .header => held = []
  | .op (.body header bodySz) =>
    held = header ∧ header.length = protocol.format.headerSize ∧
      bodySz = protocol.format.bodySize header ∧ 0 < bodySz ∧
        bodySz ≤ protocol.format.maxBodySize
  | .header header none => held = header ∧ header.length = protocol.format.headerSize
  | .msg msg none => held = msg.data ∧ protocol.format.IsFrame msg.data
  | .header _ (some ec) | .msg _ (some ec) =>
    ec ≠ .operationAborted ∧ protocol.format.framesOf rest = []

/-- Where the reading side of a connection stands, with `done` read and `rest` still to come. -/
inductive Phase (done : List Bytes) (rest : Bytes) (user : AsioUser) : Prop
  | unstarted (hstarted : user.started = false) (hstop : user.stop = false)
      (hreaders : user.readView.readers = []) (hreceived : user.received = done.flatten)
  | reading (reader : Reader) (held : Bytes) (hstop : user.stop = false)
      (hreaders : user.readView.readers = [reader])
      (hreceived : user.received = done.flatten ++ held) (hholds : Holds protocol rest held reader)
  | ended (hstarted : user.started = true) (hstop : user.stop = true)
      (hreaders : user.readView.readers = []) (hnone : protocol.format.framesOf rest = [])

/-- The frames of the stream that were read are those that were delivered or are queued. -/
structure Inbound (done : List Bytes) (rest : Bytes) (user : AsioUser) : Prop where
  stream_eq : stream = done.flatten ++ rest
  isFrame : ∀ frame ∈ done, protocol.format.IsFrame frame
  received_prefix : user.received <+: stream
  queued : user.readView.script.filterMap Callback.msg ++ user.readQueue = protocol.messages done
  dropped : user.dropped = []
  phase : Phase protocol done rest user

variable {protocol stream} {done : List Bytes} {rest : Bytes} {user next : AsioUser}

/-- A step that moves messages and readers on. -/
theorem Inbound.congr (hinbound : Inbound protocol stream done rest user)
    (hreceived : next.received = user.received) (hdropped : next.dropped = user.dropped)
    (hqueued : next.readView.script.filterMap Callback.msg ++ next.readQueue =
      user.readView.script.filterMap Callback.msg ++ user.readQueue)
    (hphase : Phase protocol done rest next) : Inbound protocol stream done rest next where
  stream_eq := hinbound.stream_eq
  isFrame := hinbound.isFrame
  received_prefix := by rw [hreceived]; exact hinbound.received_prefix
  queued := hqueued.trans hinbound.queued
  dropped := hdropped.trans hinbound.dropped
  phase := hphase

/-- A step that leaves the readers and the stop flag alone. -/
theorem Phase.congr (hphase : Phase protocol done rest user)
    (hreaders : next.readView.readers = user.readView.readers) (hstop : next.stop = user.stop)
    (hstarted : next.started = user.started) (hreceived : next.received = user.received) :
    Phase protocol done rest next := by
  cases hphase with
  | unstarted hno hwas hnone hsame =>
    exact .unstarted (hstarted.trans hno) (hstop.trans hwas) (hreaders.trans hnone)
      (hreceived.trans hsame)
  | reading reader held hwas hsome hsame hholds =>
    exact .reading reader held (hstop.trans hwas) (hreaders.trans hsome) (hreceived.trans hsame)
      hholds
  | ended hyes hwas hnone hframes =>
    exact .ended (hstarted.trans hyes) (hstop.trans hwas) (hreaders.trans hnone) hframes

/-- A step that leaves the reading side alone. -/
theorem Inbound.of_readView (hinbound : Inbound protocol stream done rest user)
    (hview : next.readView = user.readView) (hstop : next.stop = user.stop) :
    Inbound protocol stream done rest next := by
  have hqueue : next.readQueue = user.readQueue := congrArg ReadView.readQueue hview
  refine hinbound.congr (congrArg ReadView.received hview) (congrArg ReadView.dropped hview) ?_
    (hinbound.phase.congr (by rw [hview]) hstop (congrArg ReadView.started hview)
      (congrArg ReadView.received hview))
  rw [hview, hqueue]

/-- What is held of a frame is what the stream has next. -/
theorem Inbound.exists_rest (hinbound : Inbound protocol stream done rest user) {held : Bytes}
    (hreceived : user.received = done.flatten ++ held) : held <+: rest := by
  have hbegins := hinbound.received_prefix
  rw [hreceived, hinbound.stream_eq] at hbegins
  exact (List.prefix_append_right_inj _).mp hbegins

/-- A connection with a reader is reading. -/
theorem Inbound.of_reader (hinbound : Inbound protocol stream done rest user) {reader : Reader}
    (hreaders : user.readView.readers = [reader]) :
    user.stop = false ∧ ∃ held, user.received = done.flatten ++ held ∧ held <+: rest ∧
      Holds protocol rest held reader := by
  cases hinbound.phase with
  | unstarted _ _ hnone => cases hreaders.symm.trans hnone
  | ended _ _ hnone => cases hreaders.symm.trans hnone
  | reading reader' held hstop hsome hreceived hholds =>
    cases hreaders.symm.trans hsome
    exact ⟨hstop, held, hreceived, hinbound.exists_rest hreceived, hholds⟩

/-! ### Where the stream has no more frames -/

/-- The header that the stream has next announces too large a body. -/
theorem framesOf_of_oversized {header : Bytes}
    (hlength : header.length = protocol.format.headerSize)
    (hheader : header <+: rest)
    (hbody : protocol.format.maxBodySize < protocol.format.bodySize header) :
    protocol.format.framesOf rest = [] := by
  obtain ⟨later, rfl⟩ := hheader
  refine FrameFormat.framesOf_of_next_none [] ?_
  have htake : (header ++ later).take protocol.format.headerSize = header := by
    rw [← hlength, List.take_left]
  rw [FrameFormat.next, if_neg, htake, if_pos hbody]
  rw [List.length_append]
  omega

/-- The stream ends in the body that its last header announces. -/
theorem framesOf_of_incomplete {header : Bytes}
    (hlength : header.length = protocol.format.headerSize) (hheader : header <+: rest)
    (hbody : protocol.format.bodySize header ≤ protocol.format.maxBodySize)
    (hshort : rest.length < header.length + protocol.format.bodySize header) :
    protocol.format.framesOf rest = [] := by
  obtain ⟨later, rfl⟩ := hheader
  refine FrameFormat.framesOf_of_next_none (header ++ later) ?_
  have htake : (header ++ later).take protocol.format.headerSize = header := by
    rw [← hlength, List.take_left]
  rw [FrameFormat.next, if_neg, htake, if_neg (not_lt.mpr hbody), if_neg]
  · rw [FrameFormat.totalSize, htake, not_le, ← hlength]
    exact hshort
  · rw [List.length_append]
    omega

/-- A header and the body that it announces. -/
theorem isFrame_append {header : Bytes} (data : Bytes)
    (hlength : header.length = protocol.format.headerSize)
    (hbody : protocol.format.bodySize header ≤ protocol.format.maxBodySize)
    (hdata : data.length = protocol.format.bodySize header) :
    protocol.format.IsFrame (header ++ data) := by
  have htake : (header ++ data).take protocol.format.headerSize = header := by
    rw [← hlength, List.take_left]
  refine ⟨?_, ?_, ?_⟩
  · rw [List.length_append]
    omega
  · rw [htake]
    exact hbody
  · rw [FrameFormat.totalSize, htake, List.length_append, hlength, hdata]

/-! ### The steps of the reading side -/

/-- Where nobody else stops the connection, a handler runs undisturbed. -/
theorem runHandler_undisturbed (user : AsioUser) {interrupted : Bool}
    (hcalm : user.stop = true ∨ interrupted = false)
    (handler : IoHandler) :
    user.runHandler protocol interrupted handler = user.runHandler protocol false handler := by
  rcases hcalm with hstop | rfl
  · cases handler with
    | startRead => rw [runHandler, runHandler, interrupt_of_stop hstop, interrupt_of_stop hstop]
    | readBody header ec =>
      rw [runHandler, runHandler, readBody_of_stop protocol hstop, readBody_of_stop protocol hstop]
    | handleRead msg ec =>
      rw [runHandler, runHandler, handleRead_of_stop protocol hstop,
        handleRead_of_stop protocol hstop]
    | dispatch =>
      have hdispatched : user.dispatch.stop = true := hstop
      rw [runHandler, runHandler, interrupt_of_stop hdispatched, interrupt_of_stop hdispatched]
    | writeData msg =>
      have hqueued : AsioUser.stop { user with
          writeQueue := user.writeQueue ++ [msg]
          accepted := user.accepted ++ [msg] } = true := hstop
      simp only [runHandler, writeData, interrupt_of_stop hqueued, interrupt_of_stop hstop]
    | handleWrite msg ec =>
      have hpopped : AsioUser.stop { user with writeQueue := user.writeQueue.tail } = true := hstop
      simp only [runHandler, handleWrite, interrupt_of_stop hpopped, interrupt_of_stop hstop]
  · rfl

theorem readHeader_of_running (user : AsioUser) (hstop : user.stop = false) :
    user.readHeader = { user with reads := user.reads ++ [.header] } := by
  rw [readHeader, hstop]
  rfl

theorem readers_readHeader (user : AsioUser) (hstop : user.stop = false)
    (hreaders : user.readView.readers = []) :
    user.readHeader.readView.readers = [.op .header] := by
  rw [readHeader_of_running user hstop]
  show user.readView.workerStrand.filterMap workerReader ++
    user.readView.strand.filterMap ioReader ++ (user.reads ++ [ReadOp.header]).map Reader.op = _
  rw [List.map_append, ← List.append_assoc]
  exact congrArg (· ++ [Reader.op .header]) hreaders

/-- A read at the end of the stream, or of too large a header: the connection stops. -/
theorem Inbound.handleError (hinbound : Inbound protocol stream done rest user)
    (hstop : user.stop = false) (hstarted : user.started = true)
    {later : List IoHandler}
    (hreaders : (readView { user with ioStrand := later }).readers = [])
    (hnone : protocol.format.framesOf rest = []) :
    Inbound protocol stream done rest (handleError { user with ioStrand := later }) := by
  rw [handleError_of_running (by exact hstop)]
  refine hinbound.congr rfl rfl ?_ (.ended hstarted rfl ?_ hnone)
  · have hscript : ReadView.script (readView { user with
        ioStrand := later
        stop := true
        stopSource := some .error
        workerStrand := user.workerStrand ++ [.disconnect] }) =
          user.readView.script ++ [.onDisconnect] := by
      show user.callbacks ++
        ((user.workerStrand ++ [WorkerHandler.disconnect]).map WorkerHandler.callbacks).flatten = _
      rw [List.map_append, List.flatten_append, ← List.append_assoc]
      rfl
    rw [hscript, List.filterMap_append]
    show user.readView.script.filterMap Callback.msg ++ [] ++ user.readQueue = _
    rw [List.append_nil]
  · show (user.workerStrand ++ [WorkerHandler.disconnect]).filterMap workerReader ++ _ ++ _ = []
    rw [List.filterMap_append, List.append_assoc, List.append_assoc]
    rw [ReadView.readers, List.append_assoc] at hreaders
    exact hreaders

theorem messages_append (done : List Bytes) (msg : TcpMessage) :
    protocol.messages (done ++ [msg.data]) =
      protocol.messages done ++ if protocol.isHeartbeat msg then [] else [msg] := by
  rw [AsioProtocol.messages, List.map_append, List.filter_append]
  cases hheartbeat : protocol.isHeartbeat msg with
  | false => simp [AsioProtocol.messages, hheartbeat]
  | true => simp [AsioProtocol.messages, hheartbeat]

/-- A frame was read: it is one of those read, and the reading of the next one begins. `taken` is
the connection with the message in the read queue, unless it is a heartbeat. -/
theorem Inbound.readOn (hinbound : Inbound protocol stream done rest user) {msg : TcpMessage}
    (hreceived : user.received = done.flatten ++ msg.data) (hbegins : msg.data <+: rest)
    (hframe : protocol.format.IsFrame msg.data) {taken : AsioUser} (hstop : taken.stop = false)
    (hreaders : taken.readView.readers = []) (hsame : taken.received = user.received)
    (hdropped : taken.dropped = user.dropped)
    (hscript : taken.readView.script = user.readView.script)
    (hqueue : taken.readQueue =
      user.readQueue ++ if protocol.isHeartbeat msg then [] else [msg]) :
    ∃ done' rest', Inbound protocol stream done' rest' taken.readHeader := by
  obtain ⟨rest', rfl⟩ := hbegins
  have hreaders' := readers_readHeader taken hstop hreaders
  rw [readHeader_of_running taken hstop] at hreaders' ⊢
  refine ⟨done ++ [msg.data], rest', ⟨?_, ?_, ?_, ?_, hdropped.trans hinbound.dropped, ?_⟩⟩
  · rw [hinbound.stream_eq, List.flatten_append, List.flatten_singleton, List.append_assoc]
  · intro frame hmem
    rcases List.mem_append.mp hmem with hold | hnew
    · exact hinbound.isFrame frame hold
    · rw [List.mem_singleton.mp hnew]
      exact hframe
  · show taken.received <+: stream
    rw [hsame]
    exact hinbound.received_prefix
  · show taken.readView.script.filterMap Callback.msg ++ taken.readQueue = _
    rw [hscript, hqueue, messages_append, ← List.append_assoc, hinbound.queued]
  · refine .reading (.op .header) [] hstop hreaders' ?_ rfl
    show taken.received = _
    rw [hsame, hreceived, List.flatten_append, List.flatten_singleton, List.append_nil]

/-- A message is read by a connection whose other messages were dispatched. -/
theorem Inbound.handleRead (hinbound : Inbound protocol stream done rest user) {msg : TcpMessage}
    (hstop : user.stop = false) (hidle : user.readQueue = [])
    (hreceived : user.received = done.flatten ++ msg.data) (hbegins : msg.data <+: rest)
    (hframe : protocol.format.IsFrame msg.data) {later : List IoHandler}
    (hreaders : (readView { user with ioStrand := later }).readers = []) :
    ∃ done' rest', Inbound protocol stream done' rest'
      (handleRead protocol { user with ioStrand := later } msg none false) := by
  have hroom : user.readQueue.length < maxRdQueueSize := by
    rw [hidle]
    decide
  cases hheartbeat : protocol.isHeartbeat msg with
  | true =>
    have htaken : AsioUser.handleRead protocol { user with ioStrand := later } msg none false =
        readHeader { user with ioStrand := later } := by
      simp only [AsioUser.handleRead, hstop, hheartbeat, if_true, interrupt, Bool.false_eq_true,
        if_false]
    rw [htaken]
    refine hinbound.readOn hreceived hbegins hframe hstop hreaders rfl rfl rfl ?_
    rw [hheartbeat, if_pos rfl, List.append_nil]
  | false =>
    have htaken : AsioUser.handleRead protocol { user with ioStrand := later } msg none false =
        (scheduleDispatch { user with
          ioStrand := later
          readQueue := user.readQueue ++ [msg] }).readHeader := by
      simp only [AsioUser.handleRead, hstop, hheartbeat, if_pos hroom, interrupt,
        Bool.false_eq_true, if_false]
    have hview := readView_scheduleDispatch { user with ioStrand := later } msg
    have hstop' : (scheduleDispatch { user with
        ioStrand := later
        readQueue := user.readQueue ++ [msg] }).stop = false := by
      unfold scheduleDispatch
      split_ifs <;> exact hstop
    rw [htaken]
    refine hinbound.readOn hreceived hbegins hframe hstop' ?_ ?_ ?_ ?_ ?_
    · exact (readers_scheduleDispatch _ msg).trans hreaders
    · exact congrArg ReadView.received hview
    · exact congrArg ReadView.dropped hview
    · have hscript := congrArg ReadView.script hview
      exact hscript
    · rw [hheartbeat]
      exact congrArg ReadView.readQueue hview

/-- A header is read: it announces too large a body, a body that is read next, or none. -/
theorem Inbound.readBody (hinbound : Inbound protocol stream done rest user) {header : Bytes}
    (hstop : user.stop = false) (hstarted : user.started = true) (hidle : user.readQueue = [])
    (hreceived : user.received = done.flatten ++ header) (hbegins : header <+: rest)
    (hlength : header.length = protocol.format.headerSize) {later : List IoHandler}
    (hreaders : (readView { user with ioStrand := later }).readers = []) :
    ∃ done' rest', Inbound protocol stream done' rest'
      (readBody protocol { user with ioStrand := later } header none false) := by
  have hrunning : ¬ user.stop = true := by
    rw [hstop]
    decide
  unfold AsioUser.readBody
  dsimp only
  rw [if_neg hrunning]
  split_ifs with hlarge hbody
  · exact ⟨done, rest, hinbound.handleError hstop hstarted hreaders
      (framesOf_of_oversized hlength hbegins hlarge)⟩
  · have hle : protocol.format.bodySize header ≤ protocol.format.maxBodySize := not_lt.mp hlarge
    refine ⟨done, rest, hinbound.congr rfl rfl rfl ?_⟩
    refine .reading (.op (.body header (protocol.bodySize ⟨header⟩).toNat)) header hstop ?_
      hreceived ⟨rfl, hlength, rfl, hbody, hle⟩
    show _ ++ _ ++ (user.reads ++ [ReadOp.body header (protocol.bodySize ⟨header⟩).toNat]).map
      Reader.op = _
    rw [List.map_append, ← List.append_assoc]
    exact congrArg (· ++ [Reader.op (.body header (protocol.bodySize ⟨header⟩).toNat)]) hreaders
  · have hnone : protocol.format.bodySize header = 0 := Nat.eq_zero_of_not_pos hbody
    have hframe : protocol.format.IsFrame header := by
      have happend := isFrame_append [] hlength (hnone ▸ Nat.zero_le _) hnone.symm
      rw [List.append_nil] at happend
      exact happend
    exact hinbound.handleRead hstop hidle hreceived hbegins hframe hreaders

theorem readSide_runWorker (hworker : user.runWorker = some next) :
    next.received = user.received ∧ next.dropped = user.dropped ∧
      next.readQueue = user.readQueue := by
  unfold runWorker at hworker
  split at hworker <;> cases hworker <;> exact ⟨rfl, rfl, rfl⟩

/-- The handler of a read is at the front of the strand. -/
theorem Inbound.runReader (hinbound : Inbound protocol stream done rest user)
    (hinv : ReadInv user.readView) {handler : IoHandler} {later : List IoHandler} {reader : Reader}
    (hstrand : user.ioStrand = handler :: later) (hcompletion : isCompletion handler = true)
    (hreading : isReading handler = true) (hreader : ioReader handler = some reader) :
    user.stop = false ∧ user.started = true ∧ user.readQueue = [] ∧
      (readView { user with ioStrand := later }).readers = [] ∧
        ∃ held, user.received = done.flatten ++ held ∧ held <+: rest ∧
          Holds protocol rest held reader := by
  obtain ⟨hstarted, hpending⟩ := settled_of_front hinv hstrand hcompletion hreading hreader
  obtain ⟨hreaders, hpopped⟩ := readers_of_front hinv hstrand hreading hreader
  obtain ⟨hstop, hheld⟩ := hinbound.of_reader hreaders
  exact ⟨hstop, hstarted, hinv.queue_of_idle hpending, hpopped, hheld⟩

/-- The handler at the front of the I/O strand runs undisturbed. -/
theorem Inbound.runHandler (hinbound : Inbound protocol stream done rest user)
    (hinv : ReadInv user.readView) {handler : IoHandler} {later : List IoHandler}
    (hstrand : user.ioStrand = handler :: later)
    (hwrite : user.stop = true ∨
      ∀ msg ec, handler = .handleWrite msg (some ec) → ec = .operationAborted) :
    ∃ done' rest', Inbound protocol stream done' rest'
      (AsioUser.runHandler protocol { user with ioStrand := later } false handler) := by
  have hpop : isReading handler = false →
      Inbound protocol stream done rest { user with ioStrand := later } := by
    intro hreading
    refine hinbound.of_readView ?_ rfl
    rw [readView, readView, hstrand, List.filter_cons, if_neg (by rw [hreading]; decide)]
  cases handler with
  | startRead =>
    obtain ⟨hreaders, hpopped⟩ := readers_of_front hinv hstrand rfl rfl
    obtain ⟨hstop, held, hreceived, -, rfl⟩ := hinbound.of_reader hreaders
    have hnext := readers_readHeader { user with ioStrand := later } hstop hpopped
    refine ⟨done, rest, ?_⟩
    show Inbound protocol stream done rest (readHeader { user with ioStrand := later })
    rw [readHeader_of_running { user with ioStrand := later } hstop] at hnext ⊢
    exact hinbound.congr rfl rfl rfl (.reading (.op .header) [] hstop hnext hreceived rfl)
  | readBody header ec =>
    obtain ⟨hstop, hstarted, hidle, hpopped, held, hreceived, hbegins, hholds⟩ :=
      hinbound.runReader hinv hstrand rfl rfl rfl
    cases ec with
    | none =>
      obtain ⟨rfl, hlength⟩ := hholds
      exact hinbound.readBody hstop hstarted hidle hreceived hbegins hlength hpopped
    | some code =>
      rw [AsioUser.runHandler, readBody_of_error protocol _ header hholds.1]
      exact ⟨done, rest, hinbound.handleError hstop hstarted hpopped hholds.2⟩
  | handleRead msg ec =>
    obtain ⟨hstop, hstarted, hidle, hpopped, held, hreceived, hbegins, hholds⟩ :=
      hinbound.runReader hinv hstrand rfl rfl rfl
    cases ec with
    | none =>
      obtain ⟨rfl, hframe⟩ := hholds
      exact hinbound.handleRead hstop hidle hreceived hbegins hframe hpopped
    | some code =>
      rw [AsioUser.runHandler, handleRead_of_error protocol _ msg hholds.1]
      exact ⟨done, rest, hinbound.handleError hstop hstarted hpopped hholds.2⟩
  | dispatch =>
    refine ⟨done, rest, hinbound.congr rfl rfl ?_
      (hinbound.phase.congr (readers_dispatch hstrand) rfl rfl rfl)⟩
    show (AsioUser.dispatch { user with ioStrand := later }).readView.script.filterMap
      Callback.msg ++ [] = _
    have hmsgs : (user.readQueue.map Callback.onRecvMsg).filterMap Callback.msg =
        user.readQueue := by
      rw [List.filterMap_map]
      exact List.filterMap_some
    rw [script_dispatch, List.filterMap_append, hmsgs, List.append_nil]
    rfl
  | writeData msg =>
    refine ⟨done, rest, (hpop rfl).of_readView (readView_writeData _ msg false) ?_⟩
    show (AsioUser.writeData { user with ioStrand := later } msg false).stop = user.stop
    unfold writeData
    dsimp only
    split_ifs
    · exact stop_doWrite _
    · rfl
    · rfl
  | handleWrite msg ec =>
    by_cases herror : ∃ code, ec = some code ∧ code ≠ .operationAborted
    · obtain ⟨code, rfl, hcode⟩ := herror
      have hstop : user.stop = true :=
        hwrite.resolve_right fun hsafe ↦ hcode (hsafe msg code rfl)
      rw [AsioUser.runHandler, handleWrite_of_error _ hcode, handleError_of_stop (by exact hstop)]
      exact ⟨done, rest, hpop rfl⟩
    · have hsafe : ∀ code, ec = some code → code = .operationAborted :=
        fun code hec ↦ by_contra fun hcode ↦ herror ⟨code, hec, hcode⟩
      refine ⟨done, rest, (hpop rfl).of_readView (readView_handleWrite _ hsafe false) ?_⟩
      cases ec with
      | none => exact stop_doWrite _
      | some code =>
        cases hsafe code rfl
        rfl

/-- A read completes with the bytes that the stream has next. -/
theorem Inbound.readDone (hinbound : Inbound protocol stream done rest user)
    (hinv : ReadInv user.readView) {index : ℕ} {op : ReadOp} {data : Bytes}
    (hop : user.reads[index]? = some op) (hlength : data.length = readSize protocol op)
    (hfed : user.received ++ data <+: stream) :
    Inbound protocol stream done rest { user with
      reads := user.reads.eraseIdx index
      ioStrand := user.ioStrand ++ [readHandler data none op]
      received := user.received ++ data } := by
  obtain ⟨hreaders, hnext⟩ := readers_readDone hinv hop data none (user.received ++ data)
  obtain ⟨hstop, held, hreceived, -, hholds⟩ := hinbound.of_reader hreaders
  refine ⟨hinbound.stream_eq, hinbound.isFrame, hfed, hinbound.queued, hinbound.dropped,
    .reading (readReader data none op) (held ++ data) hstop hnext ?_ ?_⟩
  · show user.received ++ data = _
    rw [hreceived, List.append_assoc]
  · cases op with
    | header =>
      have hnone : held = [] := hholds
      rw [hnone]
      exact ⟨rfl, hlength⟩
    | body header bodySz =>
      obtain ⟨rfl, hheader, rfl, -, hle⟩ := hholds
      exact ⟨rfl, isFrame_append data hheader hle hlength⟩

/-- A read for which the stream has too few bytes left reads the end of the stream. -/
theorem Inbound.framesOf_rest (hinbound : Inbound protocol stream done rest user) {op : ReadOp}
    {held : Bytes} (hreceived : user.received = done.flatten ++ held) (hbegins : held <+: rest)
    (hholds : Holds protocol rest held (.op op))
    (hshort : stream.length < user.received.length + readSize protocol op) :
    protocol.format.framesOf rest = [] := by
  rw [hinbound.stream_eq, hreceived, List.length_append, List.length_append] at hshort
  cases op with
  | header =>
    have hnone : held = [] := hholds
    have hsize : readSize protocol .header = protocol.format.headerSize := rfl
    rw [hnone, List.length_nil] at hshort
    exact FrameFormat.framesOf_of_short (by omega)
  | body header bodySz =>
    obtain ⟨rfl, hheader, rfl, -, hle⟩ := hholds
    have hsize : readSize protocol (.body held (protocol.format.bodySize held)) =
      protocol.format.bodySize held := rfl
    exact framesOf_of_incomplete hheader hbegins hle (by omega)

/-- A read fails at the end of the stream. -/
theorem Inbound.readFailed (hinbound : Inbound protocol stream done rest user)
    (hinv : ReadInv user.readView) {index : ℕ} {op : ReadOp} {data : Bytes} {ec : AsioError}
    (hop : user.reads[index]? = some op) (hec : ec ≠ .operationAborted)
    (hshort : stream.length < user.received.length + readSize protocol op) :
    Inbound protocol stream done rest { user with
      reads := user.reads.eraseIdx index
      ioStrand := user.ioStrand ++ [readHandler data (some ec) op] } := by
  obtain ⟨hreaders, hnext⟩ := readers_readDone hinv hop data (some ec) user.received
  obtain ⟨hstop, held, hreceived, hbegins, hholds⟩ := hinbound.of_reader hreaders
  have hnone := hinbound.framesOf_rest hreceived hbegins hholds hshort
  refine hinbound.congr rfl rfl rfl
    (.reading (readReader data (some ec) op) held hstop hnext hreceived ?_)
  cases op with
  | header => exact ⟨hec, hnone⟩
  | body header bodySz => exact ⟨hec, hnone⟩

/-- Assumes: a user that was not started. When it is, it is about to read the stream. -/
theorem Inbound.start (hinbound : Inbound protocol stream done rest user)
    (hinv : ReadInv user.readView) (hstarted : user.started = false) :
    Inbound protocol stream done rest { user with
      started := true
      workerStrand := user.workerStrand ++ [.connect] } := by
  have hscript : (readView { user with
      started := true
      workerStrand := user.workerStrand ++ [.connect] }).script =
        user.readView.script ++ [.onConnect] := by
    show user.callbacks ++
      ((user.workerStrand ++ [WorkerHandler.connect]).map WorkerHandler.callbacks).flatten = _
    rw [List.map_append, List.flatten_append, ← List.append_assoc]
    rfl
  refine hinbound.congr rfl rfl ?_ ?_
  · rw [hscript, List.filterMap_append]
    show user.readView.script.filterMap Callback.msg ++ [] ++ user.readQueue = _
    rw [List.append_nil]
  · cases hinbound.phase with
    | unstarted hno hstop hreaders hreceived =>
      exact .reading .connect [] hstop (readers_start hreaders)
        (hreceived.trans (List.append_nil _).symm) rfl
    | reading reader held hstop hreaders =>
      have hyes : user.started = true :=
        hinv.started_of_reader (hreaders ▸ List.cons_ne_nil _ _)
      cases hstarted.symm.trans hyes
    | ended hyes => cases hstarted.symm.trans hyes

/-- Every step of a connection that is fed by the stream. -/
theorem step_inbound (hinbound : Inbound protocol stream done rest user)
    (hinv : ReadInv user.readView) {action : UserAction}
    (hfed : FedBy protocol stream user action) (hstep : user.step protocol action = some next) :
    ∃ done' rest', Inbound protocol stream done' rest' next := by
  cases action with
  | start =>
    obtain ⟨hstarted, rfl⟩ := start_cases hstep
    exact ⟨done, rest, hinbound.start hinv hstarted⟩
  | stop =>
    have hstop : user.stop = true := hfed
    cases hstep
    rw [tryStop_of_stop hstop]
    exact ⟨done, rest, hinbound⟩
  | onTick exceeded =>
    cases hstep
    refine ⟨done, rest, hinbound.of_readView (readView_onTick protocol user exceeded) ?_⟩
    unfold onTick
    rcases hfed with hstop | hcalm
    · rw [if_pos hstop]
    · split_ifs with hstop hserver hexceeded
      · rfl
      · cases (hcalm hserver).symm.trans hexceeded
      · rfl
      · rfl
      · rfl
  | post msg =>
    cases hstep
    exact ⟨done, rest, hinbound.of_readView (readView_post user msg) rfl⟩
  | readDone index data ec =>
    obtain ⟨op, hop, hlength, rfl⟩ := readDone_cases hstep
    cases ec with
    | none => exact ⟨done, rest, hinbound.readDone hinv hop (hlength rfl) hfed⟩
    | some code =>
      obtain ⟨hreaders, -⟩ := readers_readDone hinv hop data (some code) user.received
      have hrunning := (hinbound.of_reader hreaders).1
      obtain ⟨hcode, hshort⟩ := hfed.resolve_left (by rw [hrunning]; decide)
      exact ⟨done, rest, hinbound.readFailed hinv hop hcode (hshort op hop)⟩
  | writeDone index ec =>
    obtain ⟨msg, -, rfl⟩ := writeDone_cases hstep
    refine ⟨done, rest, hinbound.of_readView ?_ rfl⟩
    simp [readView, isReading]
  | runIo interrupted =>
    obtain ⟨handler, later, hstrand, rfl⟩ := runIo_cases hstep
    rw [runHandler_undisturbed { user with ioStrand := later } (hfed.imp_right And.left)]
    refine hinbound.runHandler hinv hstrand (hfed.imp_right ?_)
    rintro ⟨-, hwrite⟩ msg ec rfl
    by_contra hec
    cases hwrite.symm.trans (failedWrite_eq_true hstrand hec)
  | runWorker =>
    obtain ⟨hscript, hstarted, -⟩ := script_runWorker hstep
    obtain ⟨hreceived, hdropped, hqueue⟩ := readSide_runWorker hstep
    obtain ⟨hstop, -⟩ := stop_runWorker hstep
    refine ⟨done, rest, hinbound.congr hreceived hdropped (by rw [hscript, hqueue]) ?_⟩
    rcases readers_runWorker hinv hstep with hsame | ⟨hwas, hnext⟩ | ⟨hwas, hnext⟩
    · exact hinbound.phase.congr hsame hstop hstarted hreceived
    · obtain ⟨hrunning, held, hheld, -, hholds⟩ := hinbound.of_reader hwas
      exact .reading .connected held (hstop.trans hrunning) hnext (hreceived.trans hheld) hholds
    · obtain ⟨hrunning, held, hheld, -, hholds⟩ := hinbound.of_reader hwas
      exact .reading .start held (hstop.trans hrunning) hnext (hreceived.trans hheld) hholds

variable (protocol stream) in
/-- What holds of every state of a connection that is fed by the stream. -/
def InboundInv (user : AsioUser) : Prop :=
  ReadInv user.readView ∧ ∃ done rest, Inbound protocol stream done rest user

theorem step_inboundInv (hinv : InboundInv protocol stream user) {action : UserAction}
    (hfed : FedBy protocol stream user action) (hstep : user.step protocol action = some next) :
    InboundInv protocol stream next := by
  obtain ⟨hread, done, rest, hinbound⟩ := hinv
  exact ⟨step_readInv hread hstep, step_inbound hinbound hread hfed hstep⟩

theorem inboundInv_new (serverSide : Bool) : InboundInv protocol stream (new serverSide) :=
  ⟨readInv_new serverSide, [], stream, rfl, fun _ h ↦ absurd h List.not_mem_nil,
    List.nil_prefix, rfl, rfl, .unstarted rfl rfl rfl rfl⟩

/-! ### What was delivered -/

theorem messages_append_framesOf (hinbound : Inbound protocol stream done rest user) :
    protocol.expected stream =
      protocol.messages done ++ protocol.messages (protocol.format.framesOf rest) := by
  rw [AsioProtocol.expected, hinbound.stream_eq,
    FrameFormat.framesOf_flatten_append hinbound.isFrame]
  rw [AsioProtocol.messages, AsioProtocol.messages, AsioProtocol.messages, List.map_append,
    List.filter_append]

theorem delivered_prefix_of_inv (hinv : InboundInv protocol stream user) :
    user.delivered <+: protocol.expected stream := by
  obtain ⟨-, done, rest, hinbound⟩ := hinv
  rw [messages_append_framesOf hinbound, ← hinbound.queued, ReadView.script,
    List.filterMap_append, List.append_assoc, List.append_assoc]
  exact List.prefix_append _ _

/-- All handlers have run and no read can complete: everything was delivered. -/
theorem delivered_eq_of_caughtUp (hinv : InboundInv protocol stream user)
    (hcaught : CaughtUp protocol stream user) : user.delivered = protocol.expected stream := by
  obtain ⟨hread, done, rest, hinbound⟩ := hinv
  obtain ⟨hstarted, hio, hworker, hshort⟩ := hcaught
  have hstrand : user.readView.strand = [] := by
    rw [readView, hio]
    rfl
  have hqueue : user.readQueue = [] := by
    refine hread.queue_of_idle (hread.pending_eq_false ?_)
    rw [hstrand]
    exact List.not_mem_nil
  have hscript : user.readView.script = user.callbacks := by
    show user.callbacks ++ (user.workerStrand.map WorkerHandler.callbacks).flatten = _
    rw [hworker]
    exact List.append_nil _
  have hnone : protocol.format.framesOf rest = [] := by
    cases hinbound.phase with
    | unstarted hno => cases hstarted.symm.trans hno
    | ended hyes hstop hreaders hnone => exact hnone
    | reading reader held hstop hreaders hreceived hholds =>
      -- The reader is not on a strand, so it is the read that is under way.
      have hreads : user.reads.map Reader.op = [reader] := by
        have hnobody : user.readView.workerStrand = [] := hworker
        rw [ReadView.readers, hstrand, hnobody] at hreaders
        exact hreaders
      obtain ⟨op, hop, rfl⟩ := List.map_eq_singleton_iff.mp hreads
      have hmem : op ∈ user.reads := by
        rw [hop]
        exact List.mem_cons_self
      exact hinbound.framesOf_rest hreceived (hinbound.exists_rest hreceived) hholds
        (hshort op hmem)
  have hqueued := hinbound.queued
  rw [hscript, hqueue, List.append_nil] at hqueued
  rw [messages_append_framesOf hinbound, hnone]
  exact hqueued.trans (List.append_nil _).symm

/-! ### Catching up -/

/-- A bound on the steps that a handler of the I/O strand leads to. -/
def ioWork : IoHandler → ℕ
  | .startRead | .dispatch | .writeData _ => 1
  | .handleWrite _ _ => 2
  | .readBody _ _ | .handleRead _ _ => 5

/-- A bound on the steps that a handler of the worker strand leads to. -/
def workerWork : WorkerHandler → ℕ
  | .connect => 4
  | .connected => 3
  | .recvMsgs chunk => chunk.length + 1
  | .disconnect => 1

section Work

variable (protocol stream)

/-- A bound on the steps until a connection has caught up with the stream. -/
def work (user : AsioUser) : ℕ :=
  6 * (stream.length - user.received.length) + (if user.started then 0 else 5) +
    (user.ioStrand.map ioWork).sum + (user.workerStrand.map workerWork).sum +
      2 * user.readQueue.length

theorem work_doWrite (user : AsioUser) : work stream user.doWrite = work stream user := by
  unfold doWrite
  split
  · rfl
  · split_ifs <;> rfl

theorem work_handleError_le (user : AsioUser) :
    work stream user.handleError ≤ work stream user + 1 := by
  cases hstop : user.stop with
  | true =>
    rw [handleError_of_stop hstop]
    exact Nat.le_succ _
  | false =>
    rw [handleError_of_running hstop]
    simp only [work, List.map_append, List.sum_append, List.map_cons, List.map_nil, List.sum_cons,
      List.sum_nil, workerWork]
    omega

theorem work_readHeader (user : AsioUser) : work stream user.readHeader = work stream user := by
  unfold readHeader
  split_ifs <;> rfl

/-- The chunks of the read queue are no more than its messages. -/
theorem sum_workerWork_toChunks_le (queue : List TcpMessage) :
    (((queue.toChunks maxBatchSize).map WorkerHandler.recvMsgs).map workerWork).sum ≤
      2 * queue.length := by
  induction queue using chunk_induction (n := maxBatchSize) (by decide) with
  | nil => exact Nat.zero_le _
  | step queue hqueue ih =>
    have hpos := List.length_pos_iff.mpr hqueue
    have hbatch : maxBatchSize = 32 := rfl
    rw [toChunks_of_ne_nil (by decide) hqueue, List.map_cons, List.map_cons, List.sum_cons]
    simp only [workerWork, List.length_take, List.length_drop] at ih ⊢
    omega

theorem work_dispatch_le (user : AsioUser) : work stream user.dispatch ≤ work stream user := by
  have hchunks := sum_workerWork_toChunks_le user.readQueue
  have hdispatch : work stream user.dispatch =
      6 * (stream.length - user.received.length) + (if user.started then 0 else 5) +
        (user.ioStrand.map ioWork).sum +
          ((user.workerStrand.map workerWork).sum +
            (((user.readQueue.toChunks maxBatchSize).map WorkerHandler.recvMsgs).map
              workerWork).sum) := by
    rw [← List.sum_append, ← List.map_append]
    rfl
  rw [hdispatch, work]
  omega

theorem work_handleRead_le (user : AsioUser) (msg : TcpMessage) (ec : Option AsioError) :
    work stream (user.handleRead protocol msg ec false) ≤ work stream user + 3 := by
  have herror := work_handleError_le stream user
  unfold AsioUser.handleRead
  split
  · exact Nat.le_add_right _ 3
  · omega
  · dsimp only
    split_ifs
    · exact Nat.le_add_right _ 3
    · rw [work_readHeader]
      exact Nat.le_add_right _ 3
    · rw [work_readHeader]
      show work stream (scheduleDispatch { user with readQueue := user.readQueue ++ [msg] }) ≤ _
      unfold scheduleDispatch
      split_ifs
      · simp only [work, List.length_append, List.length_cons, List.length_nil]
        omega
      · simp only [work, List.map_append, List.sum_append, List.length_append, List.map_cons,
          List.map_nil, List.sum_cons, List.sum_nil, ioWork, List.length_cons, List.length_nil]
        omega
    · rw [work_readHeader]
      exact Nat.le_add_right _ 3

theorem work_readBody_le (user : AsioUser) (header : Bytes) (ec : Option AsioError) :
    work stream (user.readBody protocol header ec false) ≤ work stream user + 3 := by
  have herror := work_handleError_le stream user
  unfold AsioUser.readBody
  split
  · exact Nat.le_add_right _ 3
  · omega
  · dsimp only
    split_ifs
    · exact Nat.le_add_right _ 3
    · omega
    · exact Nat.le_add_right _ 3
    · exact work_handleRead_le protocol stream user ⟨header⟩ none

/-- A handler of the I/O strand leads to less work than it was. -/
theorem work_runHandler_lt (user : AsioUser) (handler : IoHandler) :
    work stream (user.runHandler protocol false handler) < work stream user + ioWork handler := by
  cases handler with
  | startRead => exact Nat.lt_succ_of_le (work_readHeader stream user).le
  | readBody header ec =>
    have hle := work_readBody_le protocol stream user header ec
    exact lt_of_le_of_lt hle (Nat.add_lt_add_left (show 3 < 5 by decide) _)
  | handleRead msg ec =>
    have hle := work_handleRead_le protocol stream user msg ec
    exact lt_of_le_of_lt hle (Nat.add_lt_add_left (show 3 < 5 by decide) _)
  | dispatch => exact Nat.lt_succ_of_le (work_dispatch_le stream user)
  | writeData msg =>
    refine Nat.lt_succ_of_le (le_of_eq ?_)
    show work stream (user.writeData msg false) = _
    unfold writeData
    dsimp only
    split_ifs
    · exact work_doWrite stream _
    · rfl
    · rfl
  | handleWrite msg ec =>
    have herror := work_handleError_le stream user
    show work stream (user.handleWrite ec false) < work stream user + 2
    unfold handleWrite
    split
    · exact Nat.lt_add_of_pos_right (by decide)
    · omega
    · rw [work_doWrite]
      exact Nat.lt_add_of_pos_right (by decide)

end Work

theorem work_runWorker_lt (hworker : user.runWorker = some next) :
    work stream next < work stream user := by
  unfold runWorker at hworker
  split at hworker
  · cases hworker
  all_goals
    rename_i hstrand
    cases hworker
    simp only [work, call, hstrand, List.map_cons, List.map_append, List.map_nil, List.sum_cons,
      List.sum_append, List.sum_nil, workerWork, ioWork, List.length_cons, List.length_nil]
    omega

theorem completions_doWrite (user : AsioUser) :
    user.doWrite.writeView.completions = user.writeView.completions := by
  unfold doWrite
  split
  · rfl
  · split_ifs <;> rfl

/-- No handler queues the completion of a write. -/
theorem completions_runHandler (user : AsioUser) (handler : IoHandler) :
    (user.runHandler protocol false handler).writeView.completions =
      user.writeView.completions := by
  cases handler with
  | startRead => exact congrArg WriteView.completions (writeView_readHeader user)
  | readBody header ec =>
    exact congrArg WriteView.completions (writeView_readBody protocol user header ec false)
  | handleRead msg ec =>
    exact congrArg WriteView.completions (writeView_handleRead protocol user msg ec false)
  | dispatch => rfl
  | writeData msg =>
    show (user.writeData msg false).writeView.completions = _
    unfold writeData
    dsimp only
    split_ifs
    · exact completions_doWrite _
    · rfl
    · rfl
  | handleWrite msg ec =>
    show (user.handleWrite ec false).writeView.completions = _
    unfold handleWrite
    split
    · rfl
    · exact congrArg WriteView.completions (writeView_handleError user)
    · exact completions_doWrite _

/-- A read asks for at least one byte. -/
theorem readSize_pos (hinv : InboundInv protocol stream user) {index : ℕ} {op : ReadOp}
    (hop : user.reads[index]? = some op) : 0 < readSize protocol op := by
  obtain ⟨hread, done, rest, hinbound⟩ := hinv
  obtain ⟨hreaders, -⟩ := readers_readDone hread hop [] none user.received
  obtain ⟨-, held, -, -, hholds⟩ := hinbound.of_reader hreaders
  cases op with
  | header => exact protocol.headerSize_pos
  | body header bodySz => exact hholds.2.2.2.1

/-- A write that failed waits to be handled only on a connection that is stopped. -/
def NoFailedWrite (user : AsioUser) : Prop :=
  user.stop = true ∨ ∀ done ∈ user.writeView.completions,
    ∀ ec, done.2 = some ec → ec = .operationAborted

theorem failedWrite_eq_false
    (hsafe : ∀ done ∈ user.writeView.completions, ∀ ec, done.2 = some ec → ec = .operationAborted) :
    user.failedWrite = false := by
  unfold failedWrite
  split
  · rename_i msg ec rest hstrand
    have hmem : (msg, some ec) ∈ user.writeView.completions := by
      rw [writeView, hstrand]
      exact List.mem_cons_self
    rw [hsafe (msg, some ec) hmem ec rfl]
    rfl
  · rfl

/-- Assumes: the stream has the bytes that a read asks for. The read completes with them. -/
theorem exists_readDone (hinv : InboundInv protocol stream user) {index : ℕ} {op : ReadOp}
    (hop : user.reads[index]? = some op)
    (hle : user.received.length + readSize protocol op ≤ stream.length) :
    ∃ data next, FedBy protocol stream user (.readDone index data none) ∧
      user.step protocol (.readDone index data none) = some next ∧
        next.writeView.completions = user.writeView.completions ∧
          work stream next < work stream user := by
  have hpos := readSize_pos hinv hop
  obtain ⟨-, done, rest, hinbound⟩ := hinv
  obtain ⟨later, hlater⟩ := hinbound.received_prefix
  obtain ⟨data, hdata⟩ : ∃ data, data = later.take (readSize protocol op) := ⟨_, rfl⟩
  have hlength : data.length = readSize protocol op := by
    rw [← hlater, List.length_append] at hle
    rw [hdata]
    exact List.length_take_of_le (by omega)
  have hstep : user.step protocol (.readDone index data none) = some { user with
      reads := user.reads.eraseIdx index
      ioStrand := user.ioStrand ++ [readHandler data none op]
      received := user.received ++ data } := by
    simp only [step, hop]
    rw [if_pos fun _ ↦ hlength, if_pos trivial]
  refine ⟨data, _, ?_, hstep, ?_, ?_⟩
  · show user.received ++ data <+: stream
    rw [← hlater, hdata]
    exact (List.prefix_append_right_inj _).mpr (List.take_prefix _ _)
  · cases op <;> simp [writeView, readHandler, writeDone]
  · have hhandler : ioWork (readHandler data none op) = 5 := by
      cases op <;> rfl
    simp only [work, List.length_append, hlength, List.map_append, List.sum_append, List.map_cons,
      List.map_nil, List.sum_cons, List.sum_nil, hhandler]
    omega

/-- A connection that has not caught up can take a step towards it. -/
theorem exists_step (hinv : InboundInv protocol stream user) (hwrite : user.NoFailedWrite)
    (hbehind : ¬ CaughtUp protocol stream user) :
    ∃ action next, FedBy protocol stream user action ∧ user.step protocol action = some next ∧
      next.NoFailedWrite ∧ work stream next < work stream user := by
  have hstopped : ∀ {action next}, user.step protocol action = some next →
      next.writeView.completions.Sublist user.writeView.completions → next.NoFailedWrite := by
    intro action next hstep hsublist
    exact hwrite.imp (fun h ↦ step_stop protocol h hstep)
      fun h done hmem ↦ h done (hsublist.mem hmem)
  by_cases hstarted : user.started = true
  · cases hio : user.ioStrand with
    | cons handler later =>
      have hstep : user.step protocol (.runIo false) =
          some (runHandler protocol { user with ioStrand := later } false handler) := by
        simp only [step, hio]
      refine ⟨.runIo false, _, ?_, hstep, hstopped hstep ?_, ?_⟩
      · exact hwrite.imp_right fun h ↦ ⟨rfl, failedWrite_eq_false h⟩
      · rw [completions_runHandler]
        show (later.filterMap writeDone).Sublist (user.ioStrand.filterMap writeDone)
        rw [hio]
        exact (List.sublist_cons_self handler later).filterMap _
      · have hlt := work_runHandler_lt protocol stream
          { user with ioStrand := later } handler
        refine lt_of_lt_of_le hlt (le_of_eq ?_)
        simp only [work, hio, List.map_cons, List.sum_cons]
        omega
    | nil =>
      cases hworker : user.workerStrand with
      | cons handler later =>
        obtain ⟨next, hnext⟩ : ∃ next, user.runWorker = some next := by
          unfold runWorker
          rw [hworker]
          split
          · rename_i hnil
            cases hnil
          all_goals exact ⟨_, rfl⟩
        have hstep : user.step protocol .runWorker = some next := hnext
        refine ⟨.runWorker, next, trivial, hstep, hstopped hstep ?_, work_runWorker_lt hnext⟩
        rw [writeView_runWorker hnext]
      | nil =>
        have hread : ∃ op ∈ user.reads,
            user.received.length + readSize protocol op ≤ stream.length := by
          by_contra hnone
          push Not at hnone
          exact hbehind ⟨hstarted, hio, hworker, hnone⟩
        obtain ⟨op, hmem, hle⟩ := hread
        obtain ⟨index, hop⟩ := List.getElem?_of_mem hmem
        obtain ⟨data, next, hfed, hstep, hsame, hlt⟩ := exists_readDone hinv hop hle
        exact ⟨_, next, hfed, hstep, hstopped hstep (hsame ▸ List.Sublist.refl _), hlt⟩
  · have hno : user.started = false := Bool.eq_false_of_not_eq_true hstarted
    have hstep : user.step protocol .start = some { user with
        started := true
        workerStrand := user.workerStrand ++ [.connect] } := by
      rw [step, if_neg hstarted]
    refine ⟨.start, _, trivial, hstep, hstopped hstep (List.Sublist.refl _), ?_⟩
    simp only [work, hno, List.map_append, List.sum_append, List.map_cons, List.map_nil,
      List.sum_cons, List.sum_nil, workerWork, if_true, Bool.false_eq_true, if_false]
    omega

/-- From every state a connection can catch up with the stream. -/
theorem exists_caughtUp (hinv : InboundInv protocol stream user) (hwrite : user.NoFailedWrite) :
    ∃ actions final, Along (step protocol) (FedBy protocol stream) user actions ∧
      runFrom (step protocol) user actions = some final ∧ CaughtUp protocol stream final := by
  induction hwork : work stream user using Nat.strongRecOn generalizing user with
  | _ bound ih =>
    by_cases hcaught : CaughtUp protocol stream user
    · exact ⟨[], user, trivial, rfl, hcaught⟩
    · obtain ⟨action, next, hfed, hstep, hnext, hlt⟩ := exists_step hinv hwrite hcaught
      obtain ⟨actions, final, halong, hrun, hfinal⟩ :=
        ih (work stream next) (hwork ▸ hlt) (step_inboundInv hinv hfed hstep) hnext rfl
      refine ⟨action :: actions, final, ⟨hfed, ?_⟩, ?_, hfinal⟩
      · intro other hother
        cases hstep.symm.trans hother
        exact halong
      · rw [runFrom_cons_of_step hstep]
        exact hrun

/-- Assumes: the bytes that arrive are those of the stream, a read fails only where the stream ends,
and nothing but a read stops the connection. In every run the messages that were passed to the
listener are the first of those expected of the stream, in order and once each, and none was
dropped; in a state that has caught up with the stream they are all of those expected; and unless a
write that failed is waiting to be handled, the connection can go on to such a state. -/
theorem inbound_exact (protocol : AsioProtocol) (serverSide : Bool) (stream : Bytes)
    (actions : List UserAction) {user : AsioUser}
    (hfed : Along (step protocol) (FedBy protocol stream) (new serverSide) actions)
    (hrun : runFrom (step protocol) (new serverSide) actions = some user) :
    user.delivered <+: protocol.expected stream ∧ user.dropped = [] ∧
      (CaughtUp protocol stream user → user.delivered = protocol.expected stream) ∧
      (user.NoFailedWrite → ∃ more final,
        Along (step protocol) (FedBy protocol stream) user more ∧
          runFrom (step protocol) user more = some final ∧ CaughtUp protocol stream final ∧
            final.delivered = protocol.expected stream) := by
  have hinv : InboundInv protocol stream user :=
    runFrom_invariant_along (InboundInv protocol stream)
      (fun _ _ _ hinv hfed hstep ↦ step_inboundInv hinv hfed hstep) (inboundInv_new serverSide)
      hfed hrun
  refine ⟨delivered_prefix_of_inv hinv, ?_, delivered_eq_of_caughtUp hinv, fun hwrite ↦ ?_⟩
  · obtain ⟨-, done, rest, hinbound⟩ := hinv
    exact hinbound.dropped
  · obtain ⟨more, final, halong, hmore, hcaught⟩ := exists_caughtUp hinv hwrite
    have hfinal : InboundInv protocol stream final :=
      runFrom_invariant_along (InboundInv protocol stream)
        (fun _ _ _ hinv hfed hstep ↦ step_inboundInv hinv hfed hstep) hinv halong hmore
    exact ⟨more, final, halong, hmore, hcaught, delivered_eq_of_caughtUp hfinal hcaught⟩

end Protocol

/-- A message, a heartbeat and the beginning of another message. -/
def threeFrames : Bytes :=
  [0x02#8, 0x00#8, 0x00#8, 0x01#8, 0xAA#8, 0x01#8, 0x00#8, 0x00#8, 0x00#8, 0x02#8, 0x00#8]

/-- A connection that is opened and reads them. -/
def readThreeFrames : List UserAction :=
  [.start, .runWorker, .runWorker, .runIo false,
    .readDone 0 [0x02#8, 0x00#8, 0x00#8, 0x01#8] none, .runIo false, .readDone 0 [0xAA#8] none,
    .runIo false, .runIo false, .runWorker, .runWorker,
    .readDone 0 [0x01#8, 0x00#8, 0x00#8, 0x00#8] none, .runIo false]

theorem inbound_exact_three_frames :
    ∃ user, runFrom (step (.default .little)) (new true) readThreeFrames = some user ∧
      CaughtUp (.default .little) threeFrames user ∧
      user.delivered = [⟨[0x02#8, 0x00#8, 0x00#8, 0x01#8, 0xAA#8]⟩] ∧
      user.delivered = AsioProtocol.expected (.default .little) threeFrames ∧
      user.dropped = [] := by
  refine ⟨_, rfl, ?caught, rfl, ?delivered, ?dropped⟩
  case caught => exact ⟨rfl, rfl, rfl, by decide⟩
  case delivered =>
    exact (inbound_exact (.default .little) true threeFrames readThreeFrames (by decide) rfl).2.2.1
      ⟨rfl, rfl, rfl, by decide⟩
  case dropped =>
    exact (inbound_exact (.default .little) true threeFrames readThreeFrames (by decide) rfl).2.1

end AsioUser

end TszyUlt.Zbf
