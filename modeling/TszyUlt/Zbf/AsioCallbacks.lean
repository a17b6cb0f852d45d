import TszyUlt.Zbf.AsioUser

/-!
# The calls of the listener of an ASIO connection

`zbf/asio_socket_tcp.hpp`: the order in which `onConnect`, `onRecvMsg` and `onDisconnect` are
called. A message comes to the worker strand in two hops: `handle_read` puts it in the read queue
and posts a dispatch to the I/O strand, and the dispatch posts it to the worker strand. An error
posts `onDisconnect` to the worker strand at once.

`ReadInv` is the invariant of the reading side: a connection has one reader at most (`Reader`), that
is, one read that is under way or the handler that starts the next one, and a dispatch that was
posted is ahead of the completion of any read, since the read was started after it. An error of a
read therefore comes after the dispatch of all messages. An error of a write may come between, and
may even come before `start`, when someone posts to a connection that is not open yet:
`callbacks_in_order` is about the runs in which it does neither (`Settled`), and
`not_callbacks_in_order_dispatch` is a run in which `onDisconnect` overtakes a message.
-/

set_option autoImplicit false
set_option relaxedAutoImplicit false

namespace TszyUlt.Zbf

open Lib

namespace AsioUser

/-! ### The reader -/

/-- What makes a connection read on. -/
inductive Reader
  | connect
  | connected
  | start
  | op (op : ReadOp)
  | header (header : Bytes) (ec : Option AsioError)
  | msg (msg : TcpMessage) (ec : Option AsioError)
  deriving DecidableEq, Repr

/-- The reader in a handler of the worker strand. -/
def workerReader : WorkerHandler → Option Reader
  | .connect => some .connect
  | .connected => some .connected
  | .recvMsgs _ | .disconnect => none

/-- The reader in a handler of the I/O strand. -/
def ioReader : IoHandler → Option Reader
  | .startRead => some .start
  | .readBody header ec => some (.header header ec)
  | .handleRead msg ec => some (.msg msg ec)
  | .dispatch | .writeData _ | .handleWrite _ _ => none

/-- The completion of a read. -/
def isCompletion : IoHandler → Bool
  | .readBody _ _ | .handleRead _ _ => true
  | .startRead | .dispatch | .writeData _ | .handleWrite _ _ => false

namespace ReadView

/-- The readers of a connection. -/
def readers (view : ReadView) : List Reader :=
  view.workerStrand.filterMap workerReader ++ view.strand.filterMap ioReader ++
    view.reads.map Reader.op

/-- The calls of the listener that were made or are queued. -/
def script (view : ReadView) : List Callback :=
  view.callbacks ++ (view.workerStrand.map WorkerHandler.callbacks).flatten

end ReadView

/-- One reader at most, and dispatches ahead of the completions of reads. -/
structure ReadInv (view : ReadView) : Prop where
  readers_le : view.readers.length ≤ 1
  started_of_reader : view.readers ≠ [] → view.started = true
  count_dispatch : view.strand.count .dispatch = if view.pending then 1 else 0
  queue_of_idle : view.pending = false → view.readQueue = []
  dispatch_first : view.strand.Pairwise fun first second ↦
    isCompletion first = true → second ≠ .dispatch

theorem readInv_new (serverSide : Bool) : ReadInv (new serverSide).readView where
  readers_le := Nat.zero_le _
  started_of_reader := fun h ↦ absurd rfl h
  count_dispatch := rfl
  queue_of_idle := fun _ ↦ rfl
  dispatch_first := .nil

section Steps

variable {view : ReadView}

/-- A connection with no dispatch on its strand has nothing in its read queue. -/
theorem ReadInv.pending_eq_false (hinv : ReadInv view)
    (hnone : IoHandler.dispatch ∉ view.strand) : view.pending = false := by
  have hcount := hinv.count_dispatch
  rw [List.count_eq_zero.mpr hnone] at hcount
  cases hpending : view.pending with
  | false => rfl
  | true =>
    rw [hpending] at hcount
    cases hcount

theorem ReadInv.no_dispatch (hinv : ReadInv view) (hpending : view.pending = false) :
    IoHandler.dispatch ∉ view.strand := by
  have hcount := hinv.count_dispatch
  rw [hpending] at hcount
  exact List.count_eq_zero.mp hcount

/-- The reading part with other readers: one at most, in a connection that was started. -/
theorem ReadInv.of_readers (hinv : ReadInv view) {next : ReadView} (reader : Reader)
    (hreaders : next.readers = [reader]) (hstarted : next.started = true)
    (hpending : next.pending = view.pending) (hqueue : next.readQueue = view.readQueue)
    (hstrand : next.strand = view.strand) : ReadInv next where
  readers_le := by rw [hreaders]; exact le_rfl
  started_of_reader := fun _ ↦ hstarted
  count_dispatch := by rw [hstrand, hpending]; exact hinv.count_dispatch
  queue_of_idle := by rw [hpending, hqueue]; exact hinv.queue_of_idle
  dispatch_first := by rw [hstrand]; exact hinv.dispatch_first

/-- With no reader, a read is started. -/
theorem ReadInv.read (hinv : ReadInv view) (hreaders : view.readers = [])
    (hstarted : view.started = true) (op : ReadOp) :
    ReadInv { view with reads := view.reads ++ [op] } := by
  refine hinv.of_readers (.op op) ?_ hstarted rfl rfl rfl
  rw [ReadView.readers, List.map_append, ← List.append_assoc]
  exact congrArg (· ++ [Reader.op op]) hreaders

/-- Handlers that do not read on are queued on the worker strand. -/
theorem ReadInv.queueWorker (hinv : ReadInv view) (handlers : List WorkerHandler)
    (hhandlers : handlers.filterMap workerReader = []) :
    ReadInv { view with workerStrand := view.workerStrand ++ handlers } := by
  have hreaders : ReadView.readers { view with workerStrand := view.workerStrand ++ handlers } =
      view.readers := by
    rw [ReadView.readers, List.filterMap_append, hhandlers, List.append_nil]
    rfl
  constructor
  · rw [hreaders]
    exact hinv.readers_le
  · rw [hreaders]
    exact hinv.started_of_reader
  · exact hinv.count_dispatch
  · exact hinv.queue_of_idle
  · exact hinv.dispatch_first

/-- With no reader, a message enters the read queue and a dispatch is posted, unless one is. -/
theorem ReadInv.schedule (hinv : ReadInv view) (hreaders : view.readers = []) (msg : TcpMessage) :
    ReadInv { view with
      readQueue := view.readQueue ++ [msg]
      pending := true
      strand := if view.pending then view.strand else view.strand ++ [.dispatch] } := by
  have hnone : view.strand.filterMap ioReader = [] := by
    rw [ReadView.readers] at hreaders
    exact (List.append_eq_nil_iff.mp (List.append_eq_nil_iff.mp hreaders).1).2
  have hquiet : ∀ handler ∈ view.strand, isCompletion handler = false := by
    intro handler hmem
    have hreader := List.filterMap_eq_nil_iff.mp hnone handler hmem
    cases handler with
    | startRead | dispatch | writeData | handleWrite => rfl
    | readBody | handleRead => cases hreader
  have hsame : ReadView.readers { view with
      readQueue := view.readQueue ++ [msg]
      pending := true
      strand := if view.pending then view.strand else view.strand ++ [.dispatch] } = [] := by
    rw [← hreaders, ReadView.readers, ReadView.readers]
    split_ifs
    · rfl
    · rw [List.filterMap_append, show [IoHandler.dispatch].filterMap ioReader = [] from rfl,
        List.append_nil]
  constructor
  · rw [hsame]
    exact Nat.zero_le _
  · rw [hsame]
    exact fun h ↦ absurd rfl h
  · show (if view.pending then view.strand else view.strand ++ [.dispatch]).count .dispatch = 1
    have hcount := hinv.count_dispatch
    split_ifs with hpending
    · rw [hpending] at hcount
      exact hcount
    · rw [Bool.eq_false_of_not_eq_true hpending] at hcount
      rw [List.count_append, hcount]
      rfl
  · exact nofun
  · show (if view.pending then view.strand else view.strand ++ [.dispatch]).Pairwise _
    split_ifs with hpending
    · exact hinv.dispatch_first
    · rw [List.pairwise_append]
      refine ⟨hinv.dispatch_first, List.pairwise_singleton _ _, ?_⟩
      intro first hfirst second _ hdone
      rw [hquiet first hfirst] at hdone
      cases hdone

end Steps

section Handlers

variable {user : AsioUser}

theorem started_interrupt (user : AsioUser) (interrupted : Bool) :
    (user.interrupt interrupted).started = user.started :=
  congrArg ReadView.started (readView_interrupt user interrupted)

theorem started_scheduleDispatch (user : AsioUser) :
    user.scheduleDispatch.started = user.started := by
  unfold scheduleDispatch
  split_ifs <;> rfl

/-- A reading handler at the front of the strand is the reader. -/
theorem readers_of_front {handler : IoHandler} {rest : List IoHandler} {reader : Reader}
    (hinv : ReadInv user.readView) (hstrand : user.ioStrand = handler :: rest)
    (hreading : isReading handler = true) (hreader : ioReader handler = some reader) :
    user.readView.readers = [reader] ∧ (readView { user with ioStrand := rest }).readers = [] := by
  have hle := hinv.readers_le
  have hview : user.readView.strand = handler :: rest.filter isReading := by
    rw [readView, hstrand, List.filter_cons, if_pos hreading]
  rw [ReadView.readers, hview, List.filterMap_cons, hreader] at hle ⊢
  simp only [List.length_append, List.length_cons] at hle
  have hworker : user.readView.workerStrand.filterMap workerReader = [] :=
    List.eq_nil_of_length_eq_zero (by omega)
  have hrest : (rest.filter isReading).filterMap ioReader = [] :=
    List.eq_nil_of_length_eq_zero (by omega)
  have hreads : user.readView.reads.map Reader.op = [] :=
    List.eq_nil_of_length_eq_zero (by omega)
  constructor
  · rw [hworker, hrest, hreads]
    rfl
  · show user.readView.workerStrand.filterMap workerReader ++
      (rest.filter isReading).filterMap ioReader ++ user.readView.reads.map Reader.op = []
    rw [hworker, hrest, hreads]
    rfl

/-- A handler other than a dispatch is taken off the strand. -/
theorem ReadInv.pop {handler : IoHandler} {rest : List IoHandler} (hinv : ReadInv user.readView)
    (hstrand : user.ioStrand = handler :: rest) (hne : handler ≠ .dispatch) :
    ReadInv (readView { user with ioStrand := rest }) := by
  cases hreading : isReading handler with
  | false =>
    have hview : readView { user with ioStrand := rest } = user.readView := by
      rw [readView, readView, hstrand, List.filter_cons, if_neg (by rw [hreading]; decide)]
    rw [hview]
    exact hinv
  | true =>
    have hview : user.readView.strand = handler :: rest.filter isReading := by
      rw [readView, hstrand, List.filter_cons, if_pos hreading]
    have hreaders : (readView { user with ioStrand := rest }).readers.Sublist
        user.readView.readers := by
      rw [ReadView.readers, ReadView.readers, hview]
      refine ((List.Sublist.refl _).append ?_).append (List.Sublist.refl _)
      exact (List.sublist_cons_self _ _).filterMap _
    have hcount := hinv.count_dispatch
    have hfirst := hinv.dispatch_first
    rw [hview] at hcount hfirst
    rw [List.count_cons_of_ne hne] at hcount
    constructor
    · exact hreaders.length_le.trans hinv.readers_le
    · intro hsome
      refine hinv.started_of_reader fun hnone ↦ hsome ?_
      rw [hnone] at hreaders
      exact List.sublist_nil.mp hreaders
    · exact hcount
    · exact hinv.queue_of_idle
    · exact hfirst.of_cons

theorem ReadInv.handleError (hinv : ReadInv user.readView) : ReadInv user.handleError.readView := by
  cases hstop : user.stop with
  | false =>
    rw [handleError_of_running hstop]
    exact hinv.queueWorker [.disconnect] rfl
  | true =>
    rw [handleError_of_stop hstop]
    exact hinv

theorem ReadInv.interrupt (hinv : ReadInv user.readView) (interrupted : Bool) :
    ReadInv (user.interrupt interrupted).readView := by
  rw [readView_interrupt]
  exact hinv

theorem ReadInv.readHeader (hinv : ReadInv user.readView) (hreaders : user.readView.readers = [])
    (hstarted : user.started = true) : ReadInv user.readHeader.readView := by
  unfold AsioUser.readHeader
  split_ifs
  · exact hinv
  · exact hinv.read hreaders hstarted .header

theorem readView_scheduleDispatch (user : AsioUser) (msg : TcpMessage) :
    (scheduleDispatch { user with readQueue := user.readQueue ++ [msg] }).readView =
      { user.readView with
        readQueue := user.readView.readQueue ++ [msg]
        pending := true
        strand := if user.readView.pending then user.readView.strand
          else user.readView.strand ++ [.dispatch] } := by
  cases hpending : user.pending with
  | false => simp [scheduleDispatch, readView, isReading, hpending]
  | true => simp [scheduleDispatch, readView, hpending]

/-- `schedule_dispatch` leaves a connection without a reader. -/
theorem readers_scheduleDispatch (user : AsioUser) (msg : TcpMessage) :
    (scheduleDispatch { user with readQueue := user.readQueue ++ [msg] }).readView.readers =
      user.readView.readers := by
  rw [readView_scheduleDispatch, ReadView.readers, ReadView.readers]
  dsimp only
  split_ifs
  · rfl
  · rw [List.filterMap_append, show [IoHandler.dispatch].filterMap ioReader = [] from rfl,
      List.append_nil]

variable (protocol : AsioProtocol)

/-- A message that was read is queued, and the next one is read. -/
theorem ReadInv.handleRead (hinv : ReadInv user.readView) (hreaders : user.readView.readers = [])
    (hstarted : user.started = true) (msg : TcpMessage) (ec : Option AsioError)
    (interrupted : Bool) : ReadInv (user.handleRead protocol msg ec interrupted).readView := by
  unfold AsioUser.handleRead
  split
  · exact hinv.interrupt interrupted
  · exact hinv.handleError
  · dsimp only
    split_ifs
    · exact hinv
    · refine (hinv.interrupt interrupted).readHeader ?_ ?_
      · rw [readView_interrupt]
        exact hreaders
      · rw [started_interrupt]
        exact hstarted
    · have hscheduled : ReadInv (scheduleDispatch { user with
          readQueue := user.readQueue ++ [msg] }).readView := by
        rw [readView_scheduleDispatch]
        exact hinv.schedule hreaders msg
      refine (hscheduled.interrupt interrupted).readHeader ?_ ?_
      · rw [readView_interrupt, readers_scheduleDispatch]
        exact hreaders
      · rw [started_interrupt, started_scheduleDispatch]
        exact hstarted
    · have hdropped : ReadInv (readView { user with dropped := user.dropped ++ [msg] }) :=
        ⟨hinv.1, hinv.2, hinv.3, hinv.4, hinv.5⟩
      refine (hdropped.interrupt interrupted).readHeader ?_ ?_
      · rw [readView_interrupt]
        exact hreaders
      · rw [started_interrupt]
        exact hstarted

/-- The body that a header announces is read, or the message has none. -/
theorem ReadInv.readBody (hinv : ReadInv user.readView) (hreaders : user.readView.readers = [])
    (hstarted : user.started = true) (header : Bytes) (ec : Option AsioError) (interrupted : Bool) :
    ReadInv (user.readBody protocol header ec interrupted).readView := by
  unfold AsioUser.readBody
  split
  · exact hinv.interrupt interrupted
  · exact hinv.handleError
  · dsimp only
    split_ifs
    · exact hinv
    · exact hinv.handleError
    · rw [readView_interrupt]
      exact hinv.read hreaders hstarted (.body header _)
    · exact hinv.handleRead protocol hreaders hstarted ⟨header⟩ none interrupted

theorem filterMap_workerReader_recvMsgs (chunks : List (List TcpMessage)) :
    (chunks.map WorkerHandler.recvMsgs).filterMap workerReader = [] := by
  rw [List.filterMap_eq_nil_iff]
  intro handler hmem
  obtain ⟨chunk, -, rfl⟩ := List.mem_map.mp hmem
  rfl

/-- A dispatch is no reader, and its handlers are none. -/
theorem readers_dispatch {rest : List IoHandler} (hstrand : user.ioStrand = .dispatch :: rest) :
    (AsioUser.dispatch { user with ioStrand := rest }).readView.readers =
      user.readView.readers := by
  have hview : user.readView.strand = .dispatch :: rest.filter isReading := by
    rw [readView, hstrand]
    rfl
  show (user.workerStrand ++
      (user.readQueue.toChunks maxBatchSize).map WorkerHandler.recvMsgs).filterMap workerReader ++
    (rest.filter isReading).filterMap ioReader ++ user.reads.map Reader.op = _
  rw [List.filterMap_append, filterMap_workerReader_recvMsgs, List.append_nil, ReadView.readers,
    hview]
  rfl

/-- The dispatch empties the read queue into the worker strand. -/
theorem ReadInv.dispatch {rest : List IoHandler} (hinv : ReadInv user.readView)
    (hstrand : user.ioStrand = .dispatch :: rest) :
    ReadInv (AsioUser.dispatch { user with ioStrand := rest }).readView := by
  have hview : user.readView.strand = .dispatch :: rest.filter isReading := by
    rw [readView, hstrand]
    rfl
  have hcount := hinv.count_dispatch
  have hfirst := hinv.dispatch_first
  rw [hview] at hcount hfirst
  constructor
  · rw [readers_dispatch hstrand]
    exact hinv.readers_le
  · rw [readers_dispatch hstrand]
    exact hinv.started_of_reader
  · rw [List.count_cons_self] at hcount
    show (rest.filter isReading).count .dispatch = 0
    split_ifs at hcount
    · omega
  · exact fun _ ↦ rfl
  · exact hfirst.of_cons

/-- The call of `onConnect` and the `start_read` after it hand the reader on. -/
theorem readers_runWorker (hinv : ReadInv user.readView) {next : AsioUser}
    (hworker : user.runWorker = some next) :
    next.readView.readers = user.readView.readers ∨
      user.readView.readers = [.connect] ∧ next.readView.readers = [.connected] ∨
        user.readView.readers = [.connected] ∧ next.readView.readers = [.start] := by
  have hle := hinv.readers_le
  unfold runWorker at hworker
  split at hworker
  · cases hworker
  · rename_i rest hstrand
    cases hworker
    have hview : user.readView.workerStrand = .connect :: rest := hstrand
    obtain ⟨others, hothers, hnext⟩ : ∃ others, user.readView.readers = .connect :: others ∧
        (readView { user.call .onConnect with workerStrand := .connected :: rest }).readers =
          .connected :: others := by
      refine ⟨rest.filterMap workerReader ++ user.readView.strand.filterMap ioReader ++
        user.readView.reads.map Reader.op, ?_, rfl⟩
      rw [ReadView.readers, hview]
      rfl
    rw [hothers] at hle
    have hzero : others.length ≤ 0 := Nat.le_of_succ_le_succ hle
    have hnone : others = [] := List.eq_nil_of_length_eq_zero (Nat.le_zero.mp hzero)
    rw [hnone] at hothers hnext
    exact .inr (.inl ⟨hothers, hnext⟩)
  · rename_i rest hstrand
    cases hworker
    have hview : user.readView.workerStrand = .connected :: rest := hstrand
    rw [ReadView.readers, hview] at hle
    simp only [List.filterMap_cons, workerReader, List.cons_append, List.length_cons,
      List.length_append, List.length_map] at hle
    have hworkers : rest.filterMap workerReader = [] := List.eq_nil_of_length_eq_zero (by omega)
    have hios : user.readView.strand.filterMap ioReader = [] :=
      List.eq_nil_of_length_eq_zero (by omega)
    have hreads : user.readView.reads = [] := List.eq_nil_of_length_eq_zero (by omega)
    refine .inr (.inr ⟨?_, ?_⟩)
    · rw [ReadView.readers, hview, hios, hreads, List.filterMap_cons, hworkers]
      rfl
    · show rest.filterMap workerReader ++
        ((user.ioStrand ++ [IoHandler.startRead]).filter isReading).filterMap ioReader ++
          user.readView.reads.map Reader.op = _
      rw [List.filter_append, List.filterMap_append, hworkers, hreads,
        show (user.ioStrand.filter isReading).filterMap ioReader = [] from hios]
      rfl
  all_goals
    rename_i hstrand
    cases hworker
    refine .inl ?_
    rw [ReadView.readers, ReadView.readers, show user.readView.workerStrand = _ from hstrand]
    rfl

theorem ReadInv.runWorker (hinv : ReadInv user.readView) {next : AsioUser}
    (hworker : user.runWorker = some next) : ReadInv next.readView := by
  have hreaders := readers_runWorker hinv hworker
  have hle : next.readView.readers.length ≤ 1 := by
    rcases hreaders with hsame | ⟨-, hnext⟩ | ⟨-, hnext⟩
    · rw [hsame]
      exact hinv.readers_le
    · rw [hnext]
      exact le_rfl
    · rw [hnext]
      exact le_rfl
  have hstarted : next.readView.readers ≠ [] → user.readView.started = true := by
    intro hsome
    apply hinv.started_of_reader
    rcases hreaders with hsame | ⟨hwas, -⟩ | ⟨hwas, -⟩
    · rw [← hsame]
      exact hsome
    · rw [hwas]
      exact List.cons_ne_nil _ _
    · rw [hwas]
      exact List.cons_ne_nil _ _
  unfold AsioUser.runWorker at hworker
  split at hworker
  · cases hworker
  · cases hworker
    exact ⟨hle, hstarted, hinv.3, hinv.4, hinv.5⟩
  · cases hworker
    have hqueued : (user.ioStrand ++ [IoHandler.startRead]).filter isReading =
        user.readView.strand ++ [.startRead] := by
      rw [List.filter_append]
      rfl
    refine ReadInv.mk hle hstarted ?_ hinv.queue_of_idle ?_
    · show ((user.ioStrand ++ [IoHandler.startRead]).filter isReading).count .dispatch = _
      rw [hqueued, List.count_append]
      exact hinv.count_dispatch
    · show ((user.ioStrand ++ [IoHandler.startRead]).filter isReading).Pairwise _
      rw [hqueued, List.pairwise_append]
      refine ⟨hinv.dispatch_first, List.pairwise_singleton _ _, fun first _ second hsecond _ ↦ ?_⟩
      rw [List.mem_singleton.mp hsecond]
      exact nofun
  all_goals
    cases hworker
    exact ⟨hle, hstarted, hinv.3, hinv.4, hinv.5⟩

/-- The reader in the completion of a read. -/
def readReader (data : Bytes) (ec : Option AsioError) : ReadOp → Reader
  | .header => .header data ec
  | .body header _ => .msg ⟨header ++ data⟩ ec

theorem ioReader_readHandler (data : Bytes) (ec : Option AsioError) (op : ReadOp) :
    ioReader (readHandler data ec op) = some (readReader data ec op) := by
  cases op <;> rfl

theorem isReading_readHandler (data : Bytes) (ec : Option AsioError) (op : ReadOp) :
    isReading (readHandler data ec op) = true := by
  cases op <;> rfl

theorem readHandler_ne_dispatch (data : Bytes) (ec : Option AsioError) (op : ReadOp) :
    readHandler data ec op ≠ .dispatch := by
  cases op <;> exact nofun

/-- A read that completes is the reader, and so is its handler. -/
theorem readers_readDone (hinv : ReadInv user.readView) {index : ℕ} {op : ReadOp}
    (hop : user.reads[index]? = some op) (data : Bytes) (ec : Option AsioError)
    (received : Bytes) :
    user.readView.readers = [.op op] ∧
      (readView { user with
        reads := user.reads.eraseIdx index
        ioStrand := user.ioStrand ++ [readHandler data ec op]
        received := received }).readers = [readReader data ec op] := by
  have hle := hinv.readers_le
  have hlt : index < user.reads.length := (List.getElem?_eq_some_iff.mp hop).1
  simp only [ReadView.readers, List.length_append, List.length_map] at hle
  have hlength : user.readView.reads.length = user.reads.length := rfl
  have hindex : index = 0 := by omega
  have hreads : user.reads = [op] := by
    have hone : user.reads.length = 1 := by omega
    obtain ⟨only, honly⟩ := List.length_eq_one_iff.mp hone
    rw [honly, hindex] at hop
    cases hop
    exact honly
  have hworkers : user.readView.workerStrand.filterMap workerReader = [] :=
    List.eq_nil_of_length_eq_zero (by omega)
  have hios : user.readView.strand.filterMap ioReader = [] :=
    List.eq_nil_of_length_eq_zero (by omega)
  constructor
  · rw [ReadView.readers, hworkers, hios, show user.readView.reads = [op] from hreads]
    rfl
  · show user.readView.workerStrand.filterMap workerReader ++
      ((user.ioStrand ++ [readHandler data ec op]).filter isReading).filterMap ioReader ++
        (user.reads.eraseIdx index).map Reader.op = _
    rw [List.filter_append, List.filterMap_append, hworkers,
      show (user.ioStrand.filter isReading).filterMap ioReader = [] from hios, hreads, hindex,
      List.filter_cons, if_pos (isReading_readHandler data ec op), List.filterMap_cons,
      ioReader_readHandler]
    rfl

/-- The completion of a read is queued behind everything else on the strand. -/
theorem ReadInv.readDone (hinv : ReadInv user.readView) {index : ℕ} {op : ReadOp}
    (hop : user.reads[index]? = some op) (data : Bytes) (ec : Option AsioError)
    (received : Bytes) :
    ReadInv (readView { user with
      reads := user.reads.eraseIdx index
      ioStrand := user.ioStrand ++ [readHandler data ec op]
      received := received }) := by
  obtain ⟨hreaders, hnext⟩ := readers_readDone hinv hop data ec received
  have hqueued : (user.ioStrand ++ [readHandler data ec op]).filter isReading =
      user.readView.strand ++ [readHandler data ec op] := by
    rw [List.filter_append, List.filter_cons, if_pos (isReading_readHandler data ec op)]
    rfl
  refine ReadInv.mk ?_ (fun _ ↦ ?_) ?_ hinv.queue_of_idle ?_
  · rw [hnext]
    exact le_rfl
  · exact hinv.started_of_reader (hreaders ▸ List.cons_ne_nil _ _)
  · show ((user.ioStrand ++ [readHandler data ec op]).filter isReading).count .dispatch = _
    rw [hqueued, List.count_append, List.count_cons_of_ne (readHandler_ne_dispatch data ec op)]
    exact hinv.count_dispatch
  · show ((user.ioStrand ++ [readHandler data ec op]).filter isReading).Pairwise _
    rw [hqueued, List.pairwise_append]
    refine ⟨hinv.dispatch_first, List.pairwise_singleton _ _, fun first _ second hsecond _ ↦ ?_⟩
    rw [List.mem_singleton.mp hsecond]
    exact readHandler_ne_dispatch data ec op

variable {protocol}

/-- Assumes: a user without a reader. When it is started, the connect handler is its reader. -/
theorem readers_start (hreaders : user.readView.readers = []) :
    (readView { user with
      started := true
      workerStrand := user.workerStrand ++ [.connect] }).readers = [.connect] := by
  rw [ReadView.readers, List.append_assoc, List.append_eq_nil_iff] at hreaders
  show (user.workerStrand ++ [WorkerHandler.connect]).filterMap workerReader ++
    user.readView.strand.filterMap ioReader ++ user.readView.reads.map Reader.op = _
  rw [List.filterMap_append, show user.workerStrand.filterMap workerReader = [] from hreaders.1,
    List.append_assoc, hreaders.2]
  rfl

/-- Assumes: a user that was not started. When it is, it has one reader. -/
theorem ReadInv.start (hinv : ReadInv user.readView) (hstarted : user.started = false) :
    ReadInv (readView { user with
      started := true
      workerStrand := user.workerStrand ++ [.connect] }) := by
  have hreaders : user.readView.readers = [] := by
    by_contra hsome
    have := hinv.started_of_reader hsome
    rw [show user.readView.started = user.started from rfl, hstarted] at this
    cases this
  exact hinv.of_readers .connect (readers_start hreaders) rfl rfl rfl rfl

/-- A user whose strand begins with a reader was started. -/
theorem started_of_front {handler : IoHandler} {rest : List IoHandler} {reader : Reader}
    (hinv : ReadInv user.readView) (hstrand : user.ioStrand = handler :: rest)
    (hreading : isReading handler = true) (hreader : ioReader handler = some reader) :
    user.started = true := by
  obtain ⟨hreaders, -⟩ := readers_of_front hinv hstrand hreading hreader
  exact hinv.started_of_reader (hreaders ▸ List.cons_ne_nil _ _)

/-- The handler at the front of the strand keeps to one reader. -/
theorem ReadInv.runHandler {handler : IoHandler} {rest : List IoHandler}
    (hinv : ReadInv user.readView) (hstrand : user.ioStrand = handler :: rest)
    (interrupted : Bool) :
    ReadInv (AsioUser.runHandler protocol { user with ioStrand := rest } interrupted
      handler).readView := by
  cases handler with
  | startRead =>
    obtain ⟨-, hpopped⟩ := readers_of_front hinv hstrand rfl rfl
    have hstarted := started_of_front hinv hstrand rfl rfl
    refine ((hinv.pop hstrand (by simp)).interrupt interrupted).readHeader ?_ ?_
    · rw [readView_interrupt]
      exact hpopped
    · rw [started_interrupt]
      exact hstarted
  | readBody header ec =>
    obtain ⟨-, hpopped⟩ := readers_of_front hinv hstrand rfl rfl
    have hstarted := started_of_front hinv hstrand rfl rfl
    exact (hinv.pop hstrand (by simp)).readBody protocol hpopped hstarted header ec interrupted
  | handleRead msg ec =>
    obtain ⟨-, hpopped⟩ := readers_of_front hinv hstrand rfl rfl
    have hstarted := started_of_front hinv hstrand rfl rfl
    exact (hinv.pop hstrand (by simp)).handleRead protocol hpopped hstarted msg ec interrupted
  | dispatch => exact (hinv.dispatch hstrand).interrupt interrupted
  | writeData msg =>
    rw [AsioUser.runHandler, readView_writeData]
    exact hinv.pop hstrand (by simp)
  | handleWrite msg ec =>
    have hpopped := hinv.pop hstrand (by simp)
    by_cases herror : ∃ code, ec = some code ∧ code ≠ .operationAborted
    · obtain ⟨code, rfl, hcode⟩ := herror
      rw [AsioUser.runHandler, handleWrite_of_error _ hcode]
      exact hpopped.handleError
    · rw [AsioUser.runHandler, readView_handleWrite]
      · exact hpopped
      · exact fun code hec ↦ by_contra fun hcode ↦ herror ⟨code, hec, hcode⟩

/-- Every step keeps to one reader. -/
theorem step_readInv {next : AsioUser} {action : UserAction} (hinv : ReadInv user.readView)
    (hstep : user.step protocol action = some next) : ReadInv next.readView := by
  cases action with
  | start =>
    obtain ⟨hstarted, rfl⟩ := start_cases hstep
    exact hinv.start hstarted
  | stop =>
    cases hstep
    rw [readView_tryStop]
    exact hinv
  | onTick exceeded =>
    cases hstep
    rw [readView_onTick]
    exact hinv
  | post msg =>
    cases hstep
    rw [readView_post]
    exact hinv
  | readDone index data ec =>
    obtain ⟨op, hop, -, rfl⟩ := readDone_cases hstep
    exact hinv.readDone hop data ec _
  | writeDone index ec =>
    obtain ⟨msg, -, rfl⟩ := writeDone_cases hstep
    have hview : readView { user with
        writes := user.writes.eraseIdx index
        ioStrand := user.ioStrand ++ [.handleWrite msg ec]
        written := if ec = none then user.written ++ [msg] else user.written } =
          user.readView := by
      simp [readView, isReading]
    rw [hview]
    exact hinv
  | runIo interrupted =>
    obtain ⟨handler, rest, hstrand, rfl⟩ := runIo_cases hstep
    exact hinv.runHandler hstrand interrupted
  | runWorker => exact hinv.runWorker hstep

end Handlers

/-! ### The calls of the listener -/

/-- The calls of the listener that were made or are queued: none yet, `onConnect` and messages, or
these and then `onDisconnect`. -/
inductive Calling (stop : Bool) (view : ReadView) : Prop
  | unstarted (hstarted : view.started = false) (hpending : view.pending = false)
      (hscript : view.script = [])
  | connected (msgs : List TcpMessage) (hstarted : view.started = true)
      (hscript : view.script = .onConnect :: msgs.map .onRecvMsg)
  | disconnected (msgs : List TcpMessage) (hstarted : view.started = true) (hstop : stop = true)
      (hpending : view.pending = false)
      (hscript : view.script = .onConnect :: (msgs.map .onRecvMsg ++ [.onDisconnect]))

/-- A write that failed is not handled before `start`, nor between a message and its dispatch. -/
def Settled (user : AsioUser) : UserAction → Prop
  | .runIo _ => user.failedWrite = true →
      user.stop = true ∨ user.started = true ∧ user.pending = false
  | _ => True

instance (user : AsioUser) : DecidablePred user.Settled
  | .runIo _ => inferInstanceAs (Decidable (user.failedWrite = true →
      user.stop = true ∨ user.started = true ∧ user.pending = false))
  | .start | .stop | .onTick _ | .post _ | .readDone _ _ _ | .writeDone _ _ | .runWorker =>
    isTrue trivial

/-- A step that makes and queues no call. -/
theorem Calling.congr {stop stop' : Bool} {view next : ReadView} (hcalling : Calling stop view)
    (hstop : stop = true → stop' = true) (hstarted : next.started = view.started)
    (hpending : stop = true ∨ view.started = false → view.pending = false → next.pending = false)
    (hscript : next.script = view.script) : Calling stop' next := by
  cases hcalling with
  | unstarted hno hidle hnone =>
    exact .unstarted (hstarted.trans hno) (hpending (.inr hno) hidle) (hscript.trans hnone)
  | connected msgs hyes hopen => exact .connected msgs (hstarted.trans hyes) (hscript.trans hopen)
  | disconnected msgs hyes hwas hidle hclosed =>
    exact .disconnected msgs (hstarted.trans hyes) (hstop hwas) (hpending (.inl hwas) hidle)
      (hscript.trans hclosed)

section Calls

variable {user : AsioUser}

/-- The calls of a connection are where they can be. -/
def CallInv (user : AsioUser) : Prop := Calling user.stop user.readView

theorem CallInv.of_readView (hcalls : user.CallInv) {next : AsioUser}
    (hview : next.readView = user.readView) (hstop : user.stop = true → next.stop = true) :
    next.CallInv := by
  rw [CallInv, hview]
  exact Calling.congr hcalls hstop rfl (fun _ h ↦ h) rfl

/-- An error of a connection that was started and has no message to dispatch. -/
theorem CallInv.handleError (hcalls : user.CallInv)
    (hsettled : user.stop = true ∨ user.started = true ∧ user.pending = false) :
    user.handleError.CallInv := by
  cases hstop : user.stop with
  | true =>
    rw [handleError_of_stop hstop]
    exact hcalls
  | false =>
    rw [hstop] at hsettled
    obtain ⟨hstarted, hpending⟩ := hsettled.resolve_left nofun
    rw [handleError_of_running hstop]
    cases hcalls with
    | unstarted hno => cases hstarted.symm.trans hno
    | connected msgs hyes hscript =>
      refine .disconnected msgs hstarted rfl hpending ?_
      show user.callbacks ++
        ((user.workerStrand ++ [WorkerHandler.disconnect]).map WorkerHandler.callbacks).flatten = _
      rw [List.map_append, List.flatten_append, ← List.append_assoc]
      exact congrArg (· ++ [Callback.onDisconnect]) hscript
    | disconnected msgs hyes hwas => cases hstop.symm.trans hwas

theorem CallInv.interrupt (hcalls : user.CallInv) (interrupted : Bool) :
    (user.interrupt interrupted).CallInv :=
  hcalls.of_readView (readView_interrupt user interrupted) fun h ↦ stop_interrupt h interrupted

theorem CallInv.readHeader (hcalls : user.CallInv) : user.readHeader.CallInv := by
  unfold AsioUser.readHeader
  split_ifs with hstop
  · exact hcalls
  · exact Calling.congr hcalls id rfl (fun _ h ↦ h) rfl

/-- The messages of the read queue, in chunks, are the messages of the read queue. -/
theorem callbacks_recvMsgs (queue : List TcpMessage) :
    (((queue.toChunks maxBatchSize).map WorkerHandler.recvMsgs).map
      WorkerHandler.callbacks).flatten = queue.map .onRecvMsg := by
  have hchunks := flatten_toChunks (n := maxBatchSize) (by decide) queue
  calc (((queue.toChunks maxBatchSize).map WorkerHandler.recvMsgs).map
        WorkerHandler.callbacks).flatten
      = ((queue.toChunks maxBatchSize).map (List.map Callback.onRecvMsg)).flatten := by
        rw [List.map_map]
        rfl
    _ = (queue.toChunks maxBatchSize).flatten.map Callback.onRecvMsg := by rw [List.map_flatten]
    _ = queue.map .onRecvMsg := by rw [hchunks]

/-- The dispatch queues the calls for the messages of the read queue. -/
theorem script_dispatch (user : AsioUser) :
    user.dispatch.readView.script = user.readView.script ++ user.readQueue.map .onRecvMsg := by
  show user.callbacks ++ ((user.workerStrand ++ (user.readQueue.toChunks maxBatchSize).map
    WorkerHandler.recvMsgs).map WorkerHandler.callbacks).flatten = _
  rw [List.map_append, List.flatten_append, callbacks_recvMsgs, ← List.append_assoc]
  rfl

/-- The worker makes the call that is queued first. -/
theorem script_runWorker {next : AsioUser} (hworker : user.runWorker = some next) :
    next.readView.script = user.readView.script ∧ next.started = user.started ∧
      next.pending = user.pending := by
  show next.callbacks ++ (next.workerStrand.map WorkerHandler.callbacks).flatten =
    user.callbacks ++ (user.workerStrand.map WorkerHandler.callbacks).flatten ∧ _
  unfold AsioUser.runWorker at hworker
  split at hworker
  · cases hworker
  all_goals
    rename_i hstrand
    cases hworker
    rw [hstrand]
    simp [call, WorkerHandler.callbacks]

variable (protocol : AsioProtocol)

/-- A message is read by a connection that was started and has nothing to dispatch. -/
theorem CallInv.handleRead (hcalls : user.CallInv) (hstarted : user.started = true)
    (hpending : user.pending = false) (msg : TcpMessage) (ec : Option AsioError)
    (interrupted : Bool) : (user.handleRead protocol msg ec interrupted).CallInv := by
  unfold AsioUser.handleRead
  split
  · exact hcalls.interrupt interrupted
  · exact hcalls.handleError (.inr ⟨hstarted, hpending⟩)
  · dsimp only
    split_ifs with hstop
    · exact hcalls
    · exact (hcalls.interrupt interrupted).readHeader
    · have hscheduled : CallInv (scheduleDispatch { user with
          readQueue := user.readQueue ++ [msg] }) := by
        refine Calling.congr hcalls (fun h ↦ absurd h hstop) ?_ ?_ ?_
        · exact started_scheduleDispatch _
        · rintro (h | h)
          · exact absurd h hstop
          · cases hstarted.symm.trans h
        · rw [readView_scheduleDispatch]
          rfl
      exact (hscheduled.interrupt interrupted).readHeader
    · have hdropped : CallInv { user with dropped := user.dropped ++ [msg] } :=
        Calling.congr hcalls id rfl (fun _ h ↦ h) rfl
      exact (hdropped.interrupt interrupted).readHeader

theorem CallInv.readBody (hcalls : user.CallInv) (hstarted : user.started = true)
    (hpending : user.pending = false) (header : Bytes) (ec : Option AsioError)
    (interrupted : Bool) : (user.readBody protocol header ec interrupted).CallInv := by
  have hsettled : user.stop = true ∨ user.started = true ∧ user.pending = false :=
    .inr ⟨hstarted, hpending⟩
  unfold AsioUser.readBody
  split
  · exact hcalls.interrupt interrupted
  · exact hcalls.handleError hsettled
  · dsimp only
    split_ifs
    · exact hcalls
    · exact hcalls.handleError hsettled
    · have hreading : CallInv { user with
          reads := user.reads ++ [.body header (protocol.bodySize ⟨header⟩).toNat] } :=
        Calling.congr hcalls id rfl (fun _ h ↦ h) rfl
      exact hreading.interrupt interrupted
    · exact hcalls.handleRead protocol hstarted hpending ⟨header⟩ none interrupted

/-- The completion of a read at the front of the strand: the connection was started, and all its
messages were dispatched. -/
theorem settled_of_front {handler : IoHandler} {rest : List IoHandler} {reader : Reader}
    (hinv : ReadInv user.readView) (hstrand : user.ioStrand = handler :: rest)
    (hcompletion : isCompletion handler = true) (hreading : isReading handler = true)
    (hreader : ioReader handler = some reader) : user.started = true ∧ user.pending = false := by
  obtain ⟨hreaders, -⟩ := readers_of_front hinv hstrand hreading hreader
  refine ⟨hinv.started_of_reader (hreaders ▸ List.cons_ne_nil _ _), hinv.pending_eq_false ?_⟩
  have hview : user.readView.strand = handler :: rest.filter isReading := by
    rw [readView, hstrand, List.filter_cons, if_pos hreading]
  have hfirst := hinv.dispatch_first
  rw [hview] at hfirst ⊢
  intro hmem
  rcases List.mem_cons.mp hmem with hhead | htail
  · rw [← hhead] at hcompletion
    cases hcompletion
  · exact (List.pairwise_cons.mp hfirst).1 _ htail hcompletion rfl

variable {protocol}

/-- Assumes: a write that failed is not handled before `start`, nor between a message and its
dispatch. Every step keeps the calls in order. -/
theorem step_callInv {next : AsioUser} {action : UserAction} (hinv : ReadInv user.readView)
    (hcalls : user.CallInv) (hsettled : user.Settled action)
    (hstep : user.step protocol action = some next) : next.CallInv := by
  have hstopped := fun h ↦ step_stop protocol h hstep
  cases action with
  | start =>
    obtain ⟨hstarted, rfl⟩ := start_cases hstep
    cases hcalls with
    | unstarted hno hpending hscript =>
      refine .connected [] rfl ?_
      show user.callbacks ++
        ((user.workerStrand ++ [WorkerHandler.connect]).map WorkerHandler.callbacks).flatten = _
      rw [List.map_append, List.flatten_append, ← List.append_assoc]
      exact congrArg (· ++ [Callback.onConnect]) hscript
    | connected msgs hyes => cases hstarted.symm.trans hyes
    | disconnected msgs hyes => cases hstarted.symm.trans hyes
  | stop =>
    cases hstep
    exact hcalls.of_readView (readView_tryStop user .manual) hstopped
  | onTick exceeded =>
    cases hstep
    exact hcalls.of_readView (readView_onTick protocol user exceeded) hstopped
  | post msg =>
    cases hstep
    exact hcalls.of_readView (readView_post user msg) hstopped
  | readDone index data ec =>
    obtain ⟨op, -, -, rfl⟩ := readDone_cases hstep
    exact Calling.congr hcalls id rfl (fun _ h ↦ h) rfl
  | writeDone index ec =>
    obtain ⟨msg, -, rfl⟩ := writeDone_cases hstep
    exact Calling.congr hcalls id rfl (fun _ h ↦ h) rfl
  | runIo interrupted =>
    obtain ⟨handler, rest, hstrand, rfl⟩ := runIo_cases hstep
    have hpopped : CallInv { user with ioStrand := rest } :=
      Calling.congr hcalls id rfl (fun _ h ↦ h) rfl
    cases handler with
    | startRead => exact (hpopped.interrupt interrupted).readHeader
    | readBody header ec =>
      obtain ⟨hstarted, hpending⟩ := settled_of_front hinv hstrand rfl rfl rfl
      exact hpopped.readBody protocol hstarted hpending header ec interrupted
    | handleRead msg ec =>
      obtain ⟨hstarted, hpending⟩ := settled_of_front hinv hstrand rfl rfl rfl
      exact hpopped.handleRead protocol hstarted hpending msg ec interrupted
    | dispatch =>
      -- A dispatch is pending, so the connection was started and has not had an error.
      have hnot : user.pending ≠ false := by
        intro hpending
        refine hinv.no_dispatch hpending ?_
        rw [readView, hstrand]
        exact List.mem_cons_self
      cases hcalls with
      | unstarted hno hpending => exact absurd hpending hnot
      | disconnected msgs hyes hstop hpending => exact absurd hpending hnot
      | connected msgs hyes hscript =>
        have hdispatched : CallInv (dispatch { user with ioStrand := rest }) := by
          refine .connected (msgs ++ user.readQueue) hyes ?_
          rw [script_dispatch, List.map_append]
          exact congrArg (· ++ user.readQueue.map Callback.onRecvMsg) hscript
        exact hdispatched.interrupt interrupted
    | writeData msg =>
      exact hpopped.of_readView (readView_writeData _ msg interrupted) hstopped
    | handleWrite msg ec =>
      by_cases herror : ∃ code, ec = some code ∧ code ≠ .operationAborted
      · obtain ⟨code, rfl, hcode⟩ := herror
        rw [runHandler, handleWrite_of_error _ hcode]
        exact hpopped.handleError (hsettled (failedWrite_eq_true hstrand hcode))
      · refine hpopped.of_readView (readView_handleWrite _ ?_ interrupted) hstopped
        exact fun code hec ↦ by_contra fun hcode ↦ herror ⟨code, hec, hcode⟩
  | runWorker =>
    obtain ⟨hscript, hstarted, hpending⟩ := script_runWorker hstep
    exact Calling.congr hcalls hstopped hstarted (fun _ h ↦ hpending.trans h) hscript

/-- `onConnect`, then messages, then at most one `onDisconnect`, and nothing after it. -/
def InOrder (callbacks : List Callback) : Prop :=
  ∃ msgs : List TcpMessage,
    callbacks <+: .onConnect :: (msgs.map .onRecvMsg ++ [.onDisconnect])

/-- Assumes: whenever an error of a write other than an abort is handled, the connection is stopped
already, or it was started and no dispatch is pending. In every run the listener sees `onConnect`
first, then messages, then at most one `onDisconnect`, and no message after it. -/
theorem callbacks_in_order (protocol : AsioProtocol) (serverSide : Bool)
    (actions : List UserAction) {user : AsioUser}
    (hsettled : Along (step protocol) Settled (new serverSide) actions)
    (hrun : runFrom (step protocol) (new serverSide) actions = some user) :
    InOrder user.callbacks := by
  obtain ⟨-, hcalls⟩ : ReadInv user.readView ∧ user.CallInv :=
    runFrom_invariant_along (fun user ↦ ReadInv user.readView ∧ user.CallInv)
      (fun _ _ _ hinv hsettled hstep ↦
        ⟨step_readInv hinv.1 hstep, step_callInv hinv.1 hinv.2 hsettled hstep⟩)
      ⟨readInv_new serverSide, .unstarted rfl rfl rfl⟩ hsettled hrun
  have hbegins : user.callbacks <+: user.readView.script := List.prefix_append _ _
  cases hcalls with
  | unstarted hno hpending hscript =>
    rw [hscript] at hbegins
    exact ⟨[], hbegins.trans List.nil_prefix⟩
  | connected msgs hyes hscript =>
    rw [hscript] at hbegins
    refine ⟨msgs, hbegins.trans ?_⟩
    exact List.prefix_append (Callback.onConnect :: msgs.map Callback.onRecvMsg) _
  | disconnected msgs hyes hstop hpending hscript =>
    rw [hscript] at hbegins
    exact ⟨msgs, hbegins⟩

end Calls

/-- A connection that is opened; a message arrives while a write is under way, and the write fails
before the dispatch of the message. -/
def errorBeforeDispatch : List UserAction :=
  [.start, .runWorker, .runWorker, .runIo false, .post ⟨[]⟩, .runIo false,
    .readDone 0 [0x00#8, 0x00#8, 0x00#8, 0x00#8] none, .writeDone 0 (some .other),
    .runIo false, .runIo false, .runIo false, .runWorker, .runWorker]

/-- A connection that is opened and receives a message, and then a write fails. -/
def errorAfterDispatch : List UserAction :=
  [.start, .runWorker, .runWorker, .runIo false, .post ⟨[]⟩, .runIo false,
    .readDone 0 [0x00#8, 0x00#8, 0x00#8, 0x00#8] none, .runIo false, .runIo false,
    .writeDone 0 (some .other), .runIo false, .runWorker, .runWorker, .runWorker]

theorem callbacks_in_order_error_after_dispatch :
    ∃ user, runFrom (step (.default .little)) (new true) errorAfterDispatch = some user ∧
      user.callbacks = [.onConnect, .onRecvMsg ⟨[0x00#8, 0x00#8, 0x00#8, 0x00#8]⟩,
        .onDisconnect] ∧ InOrder user.callbacks :=
  ⟨_, rfl, rfl, callbacks_in_order (.default .little) true errorAfterDispatch (by decide) rfl⟩

/-- The error is posted to the worker strand before the message. -/
theorem not_callbacks_in_order_dispatch :
    ∃ user, runFrom (step (.default .little)) (new true) errorBeforeDispatch = some user ∧
      user.callbacks = [.onConnect, .onDisconnect,
        .onRecvMsg ⟨[0x00#8, 0x00#8, 0x00#8, 0x00#8]⟩] ∧ ¬ InOrder user.callbacks := by
  refine ⟨_, rfl, rfl, ?_⟩
  rintro ⟨msgs, rest, heq⟩
  cases msgs <;> cases heq

end AsioUser

end TszyUlt.Zbf
