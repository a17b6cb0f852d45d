import Mathlib.Data.Finset.Card
import TszyUlt.Zbf.AsioCallbacks

/-!
# The ASIO server

`zbf/asio_socket_tcp.hpp`: `tcpsock_server`. The server keeps one `async_accept` under way. A
connection that was accepted makes a handshake, and then it is refused, or it enters `_userQueue`
and is started. It leaves the queue when its `onDisconnect` was called (`listener_adapter`). A timer
calls `on_tick` of the connections in the queue, and `on_tick` stops those that have expired.

`AsioServer` has every connection that was made, each an `AsioUser` by its number, and a step is a
step of the server or of one of them. The application calls `post` and `stop` of a connection that
it knows from `onConnect`.

`disconnected_of_stopped` is about the runs in which no connection expires: a connection that is
stopped by an error and has nothing left to run has left the queue, and `onDisconnect` was called
once. `not_disconnected_of_expired` is a run in which one expires: `try_stop` alone calls nothing,
and the connection stays in the queue. `accept_outstanding` is about the runs in which an accept
succeeds or is told to try again, and `not_accept_outstanding` a run in which it fails otherwise and
is not started again.

Scope. There is one I/O thread, so that the handlers of the acceptor, of the timer and of the
handshakes do not overlap. `start` is called once. A scan of the timer is one `onTick` after
another.
-/

set_option autoImplicit false
set_option relaxedAutoImplicit false

namespace TszyUlt.Zbf

open Lib

namespace AsioUser

/-! ### How often a connection is disconnected -/

/-- The calls of `onDisconnect` that were made or are queued. -/
def disconnects (user : AsioUser) : ℕ := user.readView.script.count .onDisconnect

/-- `onDisconnect` is called once if an error stopped the connection, and otherwise never, and the
connection has not expired. -/
structure DisconnectInv (user : AsioUser) : Prop where
  count_eq : user.disconnects = if user.stopSource = some .error then 1 else 0
  source_of_running : user.stop = false → user.stopSource = none
  not_expired : user.stopSource ≠ some .expired

/-- `on_tick` does not find that a connection has expired. -/
def Unexpired (user : AsioUser) : UserAction → Prop
  | .onTick exceeded => user.serverSide = true → exceeded = true → user.stop = true
  | _ => True

theorem disconnectInv_new (serverSide : Bool) : (new serverSide).DisconnectInv :=
  ⟨rfl, fun _ ↦ rfl, nofun⟩

variable {user : AsioUser}

/-- A step that stops nothing and makes and queues no `onDisconnect`. -/
theorem DisconnectInv.congr (hinv : user.DisconnectInv) {next : AsioUser}
    (hcount : next.disconnects = user.disconnects) (hstop : next.stop = user.stop)
    (hsource : next.stopSource = user.stopSource) : next.DisconnectInv where
  count_eq := by rw [hcount, hsource]; exact hinv.count_eq
  source_of_running := by rw [hstop, hsource]; exact hinv.source_of_running
  not_expired := by rw [hsource]; exact hinv.not_expired

theorem DisconnectInv.stop (hinv : user.DisconnectInv) : (user.tryStop .manual).DisconnectInv := by
  cases hstop : user.stop with
  | true =>
    rw [tryStop_of_stop hstop]
    exact hinv
  | false =>
    have hcount := hinv.count_eq
    rw [hinv.source_of_running hstop] at hcount
    rw [tryStop_of_running hstop]
    exact ⟨hcount, nofun, nofun⟩

theorem DisconnectInv.interrupt (hinv : user.DisconnectInv) (interrupted : Bool) :
    (user.interrupt interrupted).DisconnectInv := by
  unfold AsioUser.interrupt
  split_ifs
  · exact hinv.stop
  · exact hinv

theorem DisconnectInv.handleError (hinv : user.DisconnectInv) : user.handleError.DisconnectInv := by
  cases hstop : user.stop with
  | true =>
    rw [handleError_of_stop hstop]
    exact hinv
  | false =>
    have hcount := hinv.count_eq
    rw [hinv.source_of_running hstop, if_neg nofun] at hcount
    rw [handleError_of_running hstop]
    refine ⟨?_, nofun, nofun⟩
    show (user.callbacks ++ ((user.workerStrand ++ [WorkerHandler.disconnect]).map
      WorkerHandler.callbacks).flatten).count .onDisconnect = 1
    rw [List.map_append, List.flatten_append, ← List.append_assoc, List.count_append]
    show user.disconnects + 1 = 1
    rw [hcount]

theorem DisconnectInv.readHeader (hinv : user.DisconnectInv) : user.readHeader.DisconnectInv := by
  unfold AsioUser.readHeader
  split_ifs
  · exact hinv
  · exact hinv.congr rfl rfl rfl

theorem DisconnectInv.doWrite (hinv : user.DisconnectInv) : user.doWrite.DisconnectInv := by
  unfold AsioUser.doWrite
  split
  · exact hinv
  · split_ifs
    · exact hinv
    · exact hinv.congr rfl rfl rfl

theorem DisconnectInv.scheduleDispatch (hinv : user.DisconnectInv) :
    user.scheduleDispatch.DisconnectInv := by
  unfold AsioUser.scheduleDispatch
  split_ifs
  · exact hinv
  · exact hinv.congr rfl rfl rfl

theorem disconnects_dispatch (user : AsioUser) : user.dispatch.disconnects = user.disconnects := by
  rw [disconnects, script_dispatch, List.count_append]
  have hnone : (user.readQueue.map Callback.onRecvMsg).count .onDisconnect = 0 := by
    rw [List.count_eq_zero]
    intro hmem
    obtain ⟨msg, -, heq⟩ := List.mem_map.mp hmem
    cases heq
  rw [hnone]
  rfl

section Protocol

variable (protocol : AsioProtocol)

theorem DisconnectInv.handleRead (hinv : user.DisconnectInv) (msg : TcpMessage)
    (ec : Option AsioError) (interrupted : Bool) :
    (user.handleRead protocol msg ec interrupted).DisconnectInv := by
  unfold AsioUser.handleRead
  split
  · exact hinv.interrupt interrupted
  · exact hinv.handleError
  · dsimp only
    split_ifs
    · exact hinv
    · exact (hinv.interrupt interrupted).readHeader
    · have hqueued : DisconnectInv { user with readQueue := user.readQueue ++ [msg] } :=
        hinv.congr rfl rfl rfl
      exact (hqueued.scheduleDispatch.interrupt interrupted).readHeader
    · have hdropped : DisconnectInv { user with dropped := user.dropped ++ [msg] } :=
        hinv.congr rfl rfl rfl
      exact (hdropped.interrupt interrupted).readHeader

theorem DisconnectInv.readBody (hinv : user.DisconnectInv) (header : Bytes)
    (ec : Option AsioError) (interrupted : Bool) :
    (user.readBody protocol header ec interrupted).DisconnectInv := by
  unfold AsioUser.readBody
  split
  · exact hinv.interrupt interrupted
  · exact hinv.handleError
  · dsimp only
    split_ifs
    · exact hinv
    · exact hinv.handleError
    · have hreading : DisconnectInv { user with
          reads := user.reads ++ [.body header (protocol.bodySize ⟨header⟩).toNat] } :=
        hinv.congr rfl rfl rfl
      exact hreading.interrupt interrupted
    · exact hinv.handleRead protocol ⟨header⟩ none interrupted

theorem DisconnectInv.runHandler (hinv : user.DisconnectInv) (interrupted : Bool)
    (handler : IoHandler) : (user.runHandler protocol interrupted handler).DisconnectInv := by
  cases handler with
  | startRead => exact (hinv.interrupt interrupted).readHeader
  | readBody header ec => exact hinv.readBody protocol header ec interrupted
  | handleRead msg ec => exact hinv.handleRead protocol msg ec interrupted
  | dispatch =>
    have hdispatched : user.dispatch.DisconnectInv :=
      hinv.congr (disconnects_dispatch user) rfl rfl
    exact hdispatched.interrupt interrupted
  | writeData msg =>
    have hqueued : DisconnectInv { user with
        writeQueue := user.writeQueue ++ [msg]
        accepted := user.accepted ++ [msg] } := hinv.congr rfl rfl rfl
    show (user.writeData msg interrupted).DisconnectInv
    unfold writeData
    dsimp only
    split_ifs
    · exact (hqueued.interrupt interrupted).doWrite
    · exact hqueued.interrupt interrupted
    · exact hinv.interrupt interrupted
  | handleWrite msg ec =>
    have hpopped : DisconnectInv { user with writeQueue := user.writeQueue.tail } :=
      hinv.congr rfl rfl rfl
    show (user.handleWrite ec interrupted).DisconnectInv
    unfold handleWrite
    split
    · exact hinv.interrupt interrupted
    · exact hinv.handleError
    · exact (hpopped.interrupt interrupted).doWrite

variable {protocol}

/-- Assumes: the connection does not expire. Every step keeps to one `onDisconnect` for one
error. -/
theorem step_disconnectInv {next : AsioUser} {action : UserAction} (hinv : user.DisconnectInv)
    (hunexpired : user.Unexpired action) (hstep : user.step protocol action = some next) :
    next.DisconnectInv := by
  cases action with
  | start =>
    obtain ⟨-, rfl⟩ := start_cases hstep
    refine hinv.congr ?_ rfl rfl
    show (user.callbacks ++ ((user.workerStrand ++ [WorkerHandler.connect]).map
      WorkerHandler.callbacks).flatten).count .onDisconnect = _
    rw [List.map_append, List.flatten_append, ← List.append_assoc, List.count_append]
    rfl
  | stop =>
    cases hstep
    exact hinv.stop
  | onTick exceeded =>
    cases hstep
    unfold onTick
    split_ifs with hstop hserver hexceeded
    · exact hinv
    · exact absurd (hunexpired hserver hexceeded) hstop
    · exact hinv
    · exact hinv.congr rfl rfl rfl
    · exact hinv
  | post msg =>
    cases hstep
    exact hinv.congr rfl rfl rfl
  | readDone index data ec =>
    obtain ⟨op, -, -, rfl⟩ := readDone_cases hstep
    exact hinv.congr rfl rfl rfl
  | writeDone index ec =>
    obtain ⟨msg, -, rfl⟩ := writeDone_cases hstep
    exact hinv.congr rfl rfl rfl
  | runIo interrupted =>
    obtain ⟨handler, rest, -, rfl⟩ := runIo_cases hstep
    have hpopped : DisconnectInv { user with ioStrand := rest } := hinv.congr rfl rfl rfl
    exact hpopped.runHandler protocol interrupted handler
  | runWorker =>
    obtain ⟨hscript, -, -⟩ := script_runWorker hstep
    obtain ⟨hstop, hsource⟩ := stop_runWorker hstep
    exact hinv.congr (congrArg (List.count Callback.onDisconnect) hscript) hstop hsource

end Protocol

/-! ### Who is called -/

theorem callbacks_tryStop (user : AsioUser) (source : StopSource) :
    (user.tryStop source).callbacks = user.callbacks :=
  congrArg ReadView.callbacks (readView_tryStop user source)

theorem callbacks_handleError (user : AsioUser) : user.handleError.callbacks = user.callbacks := by
  cases hstop : user.stop with
  | true => rw [handleError_of_stop hstop]
  | false => rw [handleError_of_running hstop]

theorem callbacks_interrupt (user : AsioUser) (interrupted : Bool) :
    (user.interrupt interrupted).callbacks = user.callbacks :=
  congrArg ReadView.callbacks (readView_interrupt user interrupted)

theorem callbacks_readHeader (user : AsioUser) : user.readHeader.callbacks = user.callbacks := by
  unfold readHeader
  split_ifs <;> rfl

theorem callbacks_scheduleDispatch (user : AsioUser) :
    user.scheduleDispatch.callbacks = user.callbacks := by
  unfold scheduleDispatch
  split_ifs <;> rfl

theorem callbacks_handleRead (protocol : AsioProtocol) (user : AsioUser) (msg : TcpMessage)
    (ec : Option AsioError) (interrupted : Bool) :
    (user.handleRead protocol msg ec interrupted).callbacks = user.callbacks := by
  unfold handleRead
  split
  · exact callbacks_interrupt user interrupted
  · exact callbacks_handleError user
  · dsimp only
    split_ifs
    · rfl
    · rw [callbacks_readHeader, callbacks_interrupt]
    · rw [callbacks_readHeader, callbacks_interrupt, callbacks_scheduleDispatch]
    · rw [callbacks_readHeader, callbacks_interrupt]

theorem callbacks_readBody (protocol : AsioProtocol) (user : AsioUser) (header : Bytes)
    (ec : Option AsioError) (interrupted : Bool) :
    (user.readBody protocol header ec interrupted).callbacks = user.callbacks := by
  unfold readBody
  split
  · exact callbacks_interrupt user interrupted
  · exact callbacks_handleError user
  · dsimp only
    split_ifs
    · rfl
    · exact callbacks_handleError user
    · rw [callbacks_interrupt]
    · exact callbacks_handleRead protocol user ⟨header⟩ none interrupted

/-- A handler of the I/O strand calls nothing. -/
theorem callbacks_runHandler (protocol : AsioProtocol) (user : AsioUser) (interrupted : Bool)
    (handler : IoHandler) :
    (user.runHandler protocol interrupted handler).callbacks = user.callbacks := by
  cases handler with
  | startRead => exact (callbacks_readHeader _).trans (callbacks_interrupt user interrupted)
  | readBody header ec => exact callbacks_readBody protocol user header ec interrupted
  | handleRead msg ec => exact callbacks_handleRead protocol user msg ec interrupted
  | dispatch => exact callbacks_interrupt user.dispatch interrupted
  | writeData msg =>
    exact congrArg ReadView.callbacks (readView_writeData user msg interrupted)
  | handleWrite msg ec =>
    by_cases herror : ∃ code, ec = some code ∧ code ≠ .operationAborted
    · obtain ⟨code, rfl, hcode⟩ := herror
      rw [runHandler, handleWrite_of_error user hcode]
      exact callbacks_handleError user
    · refine congrArg ReadView.callbacks (readView_handleWrite user ?_ interrupted)
      exact fun code hec ↦ by_contra fun hcode ↦ herror ⟨code, hec, hcode⟩

/-- The worker is about to call `onDisconnect`. -/
def disconnecting (user : AsioUser) : UserAction → Bool
  | .runWorker => user.workerStrand.head? == some .disconnect
  | _ => false

/-- `onDisconnect` is called by a step of the worker. -/
theorem onDisconnect_mem_of_step {protocol : AsioProtocol} {next : AsioUser} {action : UserAction}
    (hstep : user.step protocol action = some next) (hmem : .onDisconnect ∈ next.callbacks) :
    .onDisconnect ∈ user.callbacks ∨ user.disconnecting action = true := by
  have hframe : next.callbacks = user.callbacks → .onDisconnect ∈ user.callbacks ∨
      user.disconnecting action = true := by
    intro hsame
    rw [hsame] at hmem
    exact .inl hmem
  cases action with
  | start =>
    obtain ⟨-, rfl⟩ := start_cases hstep
    exact .inl hmem
  | stop =>
    cases hstep
    exact hframe (callbacks_tryStop user .manual)
  | onTick exceeded =>
    cases hstep
    exact hframe (congrArg ReadView.callbacks (readView_onTick protocol user exceeded))
  | post msg =>
    cases hstep
    exact .inl hmem
  | readDone index data ec =>
    obtain ⟨op, -, -, rfl⟩ := readDone_cases hstep
    exact .inl hmem
  | writeDone index ec =>
    obtain ⟨msg, -, rfl⟩ := writeDone_cases hstep
    exact .inl hmem
  | runIo interrupted =>
    obtain ⟨handler, rest, -, rfl⟩ := runIo_cases hstep
    exact hframe (callbacks_runHandler protocol _ interrupted handler)
  | runWorker =>
    have hworker : user.runWorker = some next := hstep
    unfold runWorker at hworker
    split at hworker
    · cases hworker
    · cases hworker
      exact .inl (List.mem_append.mp hmem |>.resolve_right (by simp))
    · cases hworker
      exact .inl hmem
    · cases hworker
      exact .inl (List.mem_append.mp hmem |>.resolve_right (by simp))
    · cases hworker
      exact .inl hmem
    · rename_i hstrand
      right
      rw [disconnecting, hstrand]
      rfl

/-- A connection has nothing under way and nothing to run. -/
def Quiescent (user : AsioUser) : Prop :=
  user.reads = [] ∧ user.writes = [] ∧ user.ioStrand = [] ∧ user.workerStrand = []

instance (user : AsioUser) : Decidable user.Quiescent :=
  inferInstanceAs (Decidable (_ ∧ _ ∧ _ ∧ _))

/-- A call from outside is made after `start`, and `start` and `on_tick` are called by the server
alone. -/
def Permitted (user : AsioUser) : UserAction → Prop
  | .start | .onTick _ => False
  | .stop | .post _ => user.started = true
  | .readDone _ _ _ | .writeDone _ _ | .runIo _ | .runWorker => True

instance (user : AsioUser) : DecidablePred user.Permitted
  | .start | .onTick _ => isFalse id
  | .stop | .post _ => inferInstanceAs (Decidable (user.started = true))
  | .readDone _ _ _ | .writeDone _ _ | .runIo _ | .runWorker => isTrue trivial

/-- A connection that was not started takes no step of its own. -/
theorem not_step_new {protocol : AsioProtocol} {serverSide : Bool} {action : UserAction}
    (hpermitted : (new serverSide).Permitted action) :
    (new serverSide).step protocol action = none := by
  cases action with
  | start | onTick exceeded => exact hpermitted.elim
  | stop | post msg => cases hpermitted
  | readDone index data ec | writeDone index ec | runIo interrupted | runWorker => rfl

end AsioUser

/-! ### The server -/

/-- `tcpsock_server`, with the connections that were made. -/
structure AsioServer where
  /-- Whether `start` was called. -/
  started : Bool
  /-- Whether `do_listen` succeeded. -/
  listening : Bool
  /-- Whether `stop` was called. -/
  stopped : Bool
  maxConnections : ℤ
  users : List AsioUser
  userQueue : Finset ℕ
  /-- The accepts that are under way, by the connections they are for. -/
  accepts : List ℕ
  /-- The connections whose handshakes are under way. -/
  handshakes : List ℕ

/-- The steps of the server. -/
inductive ServerAction
  /-- `start`, with whether `do_listen` succeeds. -/
  | start (listens : Bool)
  | stop
  | setMaxConnections (max : ℤ)
  | acceptDone (index : ℕ) (ec : Option AsioError)
  | handshakeDone (id : ℕ) (ec : Option AsioError)
  /-- The timer calls `on_tick` of a connection in the queue. -/
  | onTick (id : ℕ) (exceeded : Bool)
  | user (id : ℕ) (action : UserAction)
  deriving DecidableEq, Repr

namespace AsioServer

/-- `DefaultMaxConns`. -/
def defaultMaxConns : ℤ := 6000

/-- A server before `start`. -/
def new : AsioServer where
  started := false
  listening := false
  stopped := false
  maxConnections := defaultMaxConns
  users := []
  userQueue := ∅
  accepts := []
  handshakes := []

/-- `currentConnections`. -/
def currentConnections (server : AsioServer) : ℕ := server.userQueue.card

/-- `do_accept`. -/
def doAccept (server : AsioServer) : AsioServer :=
  { server with
    users := server.users ++ [.new true]
    accepts := server.accepts ++ [server.users.length] }

/-- `handle_accept`. -/
def handleAccept (server : AsioServer) (id : ℕ) (ec : Option AsioError) : AsioServer :=
  match ec with
  | some .operationAborted => server
  | some .tryAgain | some .interrupted => server.doAccept
  | some .messageSize | some .other => server
  | none => { server with handshakes := server.handshakes ++ [id] }.doAccept

section Protocol

variable (protocol : AsioProtocol)

/-- A connection takes a step. -/
def stepUser (server : AsioServer) (id : ℕ) (action : UserAction) : Option AsioServer :=
  match server.users[id]? with
  | none => none
  | some user =>
    (user.step protocol action).map fun next ↦ { server with
      users := server.users.set id next
      -- `listener_adapter::onDisconnect`
      userQueue := if user.disconnecting action then server.userQueue.erase id
        else server.userQueue }

/-- The handler of a handshake. -/
def handleHandshake (server : AsioServer) (id : ℕ) (ec : Option AsioError) : Option AsioServer :=
  if ec ≠ none then server.stepUser protocol id .stop
  else if (server.currentConnections : ℤ) ≥ server.maxConnections then
    server.stepUser protocol id .stop
  else { server with userQueue := insert id server.userQueue }.stepUser protocol id .start

/-- One step of the server. -/
def step (server : AsioServer) : ServerAction → Option AsioServer
  | .start listens =>
    if server.started then none
    else if listens then some { server with started := true, listening := true }.doAccept
    else some { server with started := true }
  | .stop => some { server with stopped := true, userQueue := ∅ }
  | .setMaxConnections max => some { server with maxConnections := max }
  | .acceptDone index ec =>
    match server.accepts[index]? with
    | none => none
    | some id =>
      some (handleAccept { server with accepts := server.accepts.eraseIdx index } id ec)
  | .handshakeDone id ec =>
    if id ∈ server.handshakes then
      handleHandshake protocol { server with handshakes := server.handshakes.erase id } id ec
    else none
  | .onTick id exceeded =>
    if id ∈ server.userQueue then server.stepUser protocol id (.onTick exceeded) else none
  | .user id action =>
    if ∀ user ∈ server.users[id]?, user.Permitted action then server.stepUser protocol id action
    else none

end Protocol

/-! ### Accepting -/

/-- An accept succeeds or is told to try again, as long as the server is not stopped. -/
def Rearmed (server : AsioServer) : ServerAction → Prop
  | .acceptDone _ ec => server.stopped = true ∨ ec = none ∨ ec = some .tryAgain ∨
      ec = some .interrupted
  | _ => True

instance (server : AsioServer) : DecidablePred server.Rearmed
  | .acceptDone _ ec => inferInstanceAs (Decidable (server.stopped = true ∨ ec = none ∨
      ec = some .tryAgain ∨ ec = some .interrupted))
  | .start _ | .stop | .setMaxConnections _ | .handshakeDone _ _ | .onTick _ _ | .user _ _ =>
    isTrue trivial

/-- An accept is under way while the server is listening. -/
structure AcceptInv (server : AsioServer) : Prop where
  idle : server.listening = false → server.accepts = []
  listening_of_started : server.listening = true → server.started = true
  accepting : server.listening = true → server.stopped = false → server.accepts.length = 1

variable {protocol : AsioProtocol} {server next : AsioServer}

theorem AcceptInv.congr (hinv : server.AcceptInv) (hlistening : next.listening = server.listening)
    (hstarted : next.started = server.started) (hstopped : next.stopped = server.stopped)
    (haccepts : next.accepts = server.accepts) : next.AcceptInv where
  idle := by rw [hlistening, haccepts]; exact hinv.idle
  listening_of_started := by rw [hlistening, hstarted]; exact hinv.listening_of_started
  accepting := by rw [hlistening, hstopped, haccepts]; exact hinv.accepting

theorem stepUser_cases {id : ℕ} {action : UserAction}
    (hstep : server.stepUser protocol id action = some next) :
    ∃ user user', server.users[id]? = some user ∧ user.step protocol action = some user' ∧
      next = { server with
        users := server.users.set id user'
        userQueue := if user.disconnecting action then server.userQueue.erase id
          else server.userQueue } := by
  unfold stepUser at hstep
  split at hstep
  · cases hstep
  · rename_i user huser
    obtain ⟨user', huser', rfl⟩ := Option.map_eq_some_iff.mp hstep
    exact ⟨user, user', huser, huser', rfl⟩

theorem AcceptInv.stepUser (hinv : server.AcceptInv) {id : ℕ} {action : UserAction}
    (hstep : server.stepUser protocol id action = some next) : next.AcceptInv := by
  obtain ⟨user, user', -, -, rfl⟩ := stepUser_cases hstep
  exact hinv.congr rfl rfl rfl rfl

theorem AcceptInv.handleHandshake (hinv : server.AcceptInv) {id : ℕ} {ec : Option AsioError}
    (hstep : server.handleHandshake protocol id ec = some next) : next.AcceptInv := by
  unfold AsioServer.handleHandshake at hstep
  split_ifs at hstep
  · exact hinv.stepUser hstep
  · exact hinv.stepUser hstep
  · have hinserted : AcceptInv { server with userQueue := insert id server.userQueue } :=
      hinv.congr rfl rfl rfl rfl
    exact hinserted.stepUser hstep

theorem handleAccept_frame (server : AsioServer) (id : ℕ) (ec : Option AsioError) :
    (server.handleAccept id ec).listening = server.listening ∧
      (server.handleAccept id ec).started = server.started ∧
        (server.handleAccept id ec).stopped = server.stopped := by
  unfold handleAccept
  split <;> exact ⟨rfl, rfl, rfl⟩

/-- The handler of an accept that succeeded or is told to try again starts the next one. -/
theorem length_accepts_handleAccept (server : AsioServer) (id : ℕ) {ec : Option AsioError}
    (hec : ec = none ∨ ec = some .tryAgain ∨ ec = some .interrupted) :
    (server.handleAccept id ec).accepts.length = server.accepts.length + 1 := by
  rcases hec with rfl | rfl | rfl <;> exact List.length_append

/-- Assumes: an accept succeeds or is told to try again. Every step keeps one under way. -/
theorem step_acceptInv {action : ServerAction} (hinv : server.AcceptInv)
    (hrearmed : server.Rearmed action) (hstep : server.step protocol action = some next) :
    next.AcceptInv := by
  cases action with
  | start listens =>
    simp only [step] at hstep
    split_ifs at hstep with hstarted hlistens
    · cases hstep
      have hidle : server.accepts = [] := by
        refine hinv.idle (Bool.eq_false_of_not_eq_true fun hlistening ↦ ?_)
        exact hstarted (hinv.listening_of_started hlistening)
      refine ⟨nofun, fun _ ↦ rfl, fun _ _ ↦ ?_⟩
      show (server.accepts ++ [server.users.length]).length = 1
      rw [hidle]
      rfl
    · cases hstep
      exact ⟨hinv.idle, fun _ ↦ rfl, hinv.accepting⟩
  | stop =>
    cases hstep
    exact ⟨hinv.idle, hinv.listening_of_started, nofun⟩
  | setMaxConnections max =>
    cases hstep
    exact hinv.congr rfl rfl rfl rfl
  | acceptDone index ec =>
    simp only [step] at hstep
    split at hstep
    · cases hstep
    · rename_i id hid
      cases hstep
      have hlt : index < server.accepts.length := (List.getElem?_eq_some_iff.mp hid).1
      have hlistening : server.listening = true := by
        by_contra hnot
        rw [hinv.idle (Bool.eq_false_of_not_eq_true hnot)] at hlt
        exact absurd hlt (Nat.not_lt_zero _)
      obtain ⟨hsame, hstarted, hstopped⟩ :=
        handleAccept_frame { server with accepts := server.accepts.eraseIdx index } id ec
      refine ⟨fun hidle ↦ ?_, fun _ ↦ ?_, fun _ hrunning ↦ ?_⟩
      · cases hlistening.symm.trans (hsame.symm.trans hidle)
      · rw [hstarted]
        exact hinv.listening_of_started hlistening
      · rw [hstopped] at hrunning
        have hrunning : server.stopped = false := hrunning
        have hec := hrearmed.resolve_left (by rw [hrunning]; decide)
        rw [length_accepts_handleAccept _ id hec]
        show (server.accepts.eraseIdx index).length + 1 = 1
        rw [List.length_eraseIdx_of_lt hlt, hinv.accepting hlistening hrunning]
  | handshakeDone id ec =>
    simp only [step] at hstep
    split_ifs at hstep
    have hpopped : AcceptInv { server with handshakes := server.handshakes.erase id } :=
      hinv.congr rfl rfl rfl rfl
    exact hpopped.handleHandshake hstep
  | onTick id exceeded =>
    simp only [step] at hstep
    split_ifs at hstep
    exact hinv.stepUser hstep
  | user id action =>
    simp only [step] at hstep
    rw [ite_eq_iff] at hstep
    rcases hstep with ⟨-, hstep⟩ | ⟨-, hnone⟩
    · exact hinv.stepUser hstep
    · cases hnone

/-- Assumes: as long as the server is not stopped, an accept succeeds or is told to try again. In
every state of a run in which `do_listen` succeeded and `stop` was not called, one accept is under
way. -/
theorem accept_outstanding (protocol : AsioProtocol) (actions : List ServerAction)
    {server : AsioServer} (hrearmed : Along (step protocol) Rearmed new actions)
    (hrun : runFrom (step protocol) new actions = some server)
    (hlistening : server.listening = true) (hrunning : server.stopped = false) :
    server.accepts.length = 1 := by
  have hnew : new.AcceptInv :=
    ⟨fun _ ↦ rfl, fun h ↦ absurd h Bool.false_ne_true, fun h ↦ absurd h Bool.false_ne_true⟩
  have hinv : server.AcceptInv := runFrom_invariant_along AcceptInv
    (fun _ _ _ hinv hrearmed hstep ↦ step_acceptInv hinv hrearmed hstep) hnew hrearmed hrun
  exact hinv.accepting hlistening hrunning

/-- Two connections, one of them on a second attempt. -/
def twoAccepts : List ServerAction :=
  [.start true, .acceptDone 0 none, .acceptDone 0 (some .interrupted), .acceptDone 0 none,
    .handshakeDone 0 none, .handshakeDone 2 (some .other)]

theorem accept_outstanding_two_accepts :
    ∃ server, runFrom (step (.default .little)) new twoAccepts = some server ∧
      server.currentConnections = 1 ∧ server.accepts = [3] ∧ server.accepts.length = 1 :=
  ⟨_, rfl, rfl, rfl, accept_outstanding (.default .little) twoAccepts (by decide) rfl rfl rfl⟩

/-- An accept that fails since the descriptors are used up is the last one. -/
theorem not_accept_outstanding :
    ∃ server, runFrom (step (.default .little)) new [.start true, .acceptDone 0 (some .other)] =
      some server ∧ server.listening = true ∧ server.stopped = false ∧ server.accepts = [] :=
  ⟨_, rfl, rfl, rfl, rfl⟩

/-! ### Leaving the queue -/

/-- No `on_tick` of the timer finds that a connection has expired. -/
def Unexpired (server : AsioServer) : ServerAction → Prop
  | .onTick id exceeded => ∀ user ∈ server.users[id]?, user.Unexpired (.onTick exceeded)
  | _ => True

instance (user : AsioUser) : DecidablePred user.Unexpired
  | .onTick exceeded => inferInstanceAs
      (Decidable (user.serverSide = true → exceeded = true → user.stop = true))
  | .start | .stop | .post _ | .readDone _ _ _ | .writeDone _ _ | .runIo _ | .runWorker =>
    isTrue trivial

instance (server : AsioServer) : DecidablePred server.Unexpired
  | .onTick id exceeded => inferInstanceAs
      (Decidable (∀ user ∈ server.users[id]?, user.Unexpired (.onTick exceeded)))
  | .start _ | .stop | .setMaxConnections _ | .acceptDone _ _ | .handshakeDone _ _ | .user _ _ =>
    isTrue trivial

/-- A connection in the queue was not disconnected, and one that is to enter it has done nothing. -/
structure QueueInv (server : AsioServer) : Prop where
  fresh : ∀ id ∈ server.accepts ++ server.handshakes, server.users[id]? = some (.new true)
  nodup : (server.accepts ++ server.handshakes).Nodup
  connected : ∀ id ∈ server.userQueue, ∃ user, server.users[id]? = some user ∧
    .onDisconnect ∉ user.callbacks
  disjoint : ∀ id ∈ server.userQueue, id ∉ server.accepts ++ server.handshakes
  disconnects : ∀ user ∈ server.users, user.DisconnectInv

/-- A connection that is not one of those that have done nothing takes a step. -/
theorem QueueInv.stepUser (hinv : server.QueueInv) {id : ℕ} {action : UserAction}
    (hnot : id ∉ server.accepts ++ server.handshakes)
    (hstep : server.stepUser protocol id action = some next)
    (hunexpired : ∀ user ∈ server.users[id]?, user.Unexpired action) : next.QueueInv := by
  obtain ⟨user, user', huser, huser', rfl⟩ := stepUser_cases hstep
  have hlt : id < server.users.length := (List.getElem?_eq_some_iff.mp huser).1
  have hqueue : (if user.disconnecting action then server.userQueue.erase id
      else server.userQueue) ⊆ server.userQueue := by
    split_ifs
    · exact Finset.erase_subset _ _
    · exact subset_rfl
  refine ⟨fun other hother ↦ ?_, hinv.nodup, fun other hother ↦ ?_,
    fun other hother ↦ hinv.disjoint other (hqueue hother), fun any hany ↦ ?_⟩
  · have hne : id ≠ other := by
      rintro rfl
      exact hnot hother
    show (server.users.set id user')[other]? = _
    rw [List.getElem?_set_ne hne]
    exact hinv.fresh other hother
  · have hother : other ∈ if user.disconnecting action then server.userQueue.erase id
      else server.userQueue := hother
    show ∃ any, (server.users.set id user')[other]? = some any ∧ _
    by_cases heq : id = other
    · subst heq
      rw [List.getElem?_set_self hlt]
      refine ⟨user', rfl, fun hcalled ↦ ?_⟩
      split_ifs at hother with hdisconnecting
      · exact absurd rfl (Finset.ne_of_mem_erase hother)
      · obtain ⟨was, hwas, hcallbacks⟩ := hinv.connected id hother
        cases huser.symm.trans hwas
        rcases AsioUser.onDisconnect_mem_of_step huser' hcalled with hbefore | hnow
        · exact hcallbacks hbefore
        · exact hdisconnecting hnow
    · rw [List.getElem?_set_ne heq]
      exact hinv.connected other (hqueue hother)
  · rcases List.mem_or_eq_of_mem_set hany with hold | rfl
    · exact hinv.disconnects any hold
    · exact AsioUser.step_disconnectInv (hinv.disconnects user (List.mem_of_getElem? huser))
        (hunexpired user huser) huser'

/-- A new connection is made for an accept. -/
theorem QueueInv.doAccept (hinv : server.QueueInv) : server.doAccept.QueueInv := by
  have hlt : ∀ {id : ℕ} {user : AsioUser}, server.users[id]? = some user →
      id < server.users.length := fun h ↦ (List.getElem?_eq_some_iff.mp h).1
  have hlengthen : ∀ {id : ℕ} {user : AsioUser}, server.users[id]? = some user →
      (server.users ++ [AsioUser.new true])[id]? = some user := by
    intro id user h
    rw [List.getElem?_append_left (hlt h)]
    exact h
  have hperm : (server.accepts ++ [server.users.length] ++ server.handshakes).Perm
      (server.users.length :: (server.accepts ++ server.handshakes)) := by
    rw [List.append_assoc, List.singleton_append]
    exact List.perm_middle
  refine ⟨fun id hid ↦ ?_, ?_, fun id hid ↦ ?_, fun id hid hmem ↦ ?_, fun user huser ↦ ?_⟩
  · show (server.users ++ [AsioUser.new true])[id]? = _
    rcases List.mem_cons.mp (hperm.mem_iff.mp hid) with rfl | hold
    · rw [List.getElem?_append_right le_rfl, Nat.sub_self]
      rfl
    · exact hlengthen (hinv.fresh id hold)
  · show (server.accepts ++ [server.users.length] ++ server.handshakes).Nodup
    rw [hperm.nodup_iff, List.nodup_cons]
    exact ⟨fun hmem ↦ absurd (hlt (hinv.fresh _ hmem)) (lt_irrefl _), hinv.nodup⟩
  · obtain ⟨user, huser, hcallbacks⟩ := hinv.connected id hid
    exact ⟨user, hlengthen huser, hcallbacks⟩
  · obtain ⟨user, huser, -⟩ := hinv.connected id hid
    rcases List.mem_cons.mp (hperm.mem_iff.mp hmem) with rfl | hold
    · exact absurd (hlt huser) (lt_irrefl _)
    · exact hinv.disjoint id hid hold
  · rcases List.mem_append.mp huser with hold | hnew
    · exact hinv.disconnects user hold
    · rw [List.mem_singleton.mp hnew]
      exact AsioUser.disconnectInv_new true

/-- Fewer connections are still to enter the queue. -/
theorem QueueInv.of_subperm (hinv : server.QueueInv) {accepts handshakes : List ℕ}
    (hsub : (accepts ++ handshakes).Subperm (server.accepts ++ server.handshakes)) :
    QueueInv { server with accepts := accepts, handshakes := handshakes } where
  fresh := fun id hid ↦ hinv.fresh id (hsub.subset hid)
  nodup := by
    obtain ⟨kept, hperm, hkept⟩ := hsub
    exact hperm.nodup_iff.mp (hinv.nodup.sublist hkept)
  connected := hinv.connected
  disjoint := fun id hid hmem ↦ hinv.disjoint id hid (hsub.subset hmem)
  disconnects := hinv.disconnects

theorem QueueInv.handleAccept (hinv : server.QueueInv) {index id : ℕ} {ec : Option AsioError}
    (hid : server.accepts[index]? = some id) :
    QueueInv (handleAccept { server with accepts := server.accepts.eraseIdx index } id ec) := by
  have hpopped : QueueInv { server with accepts := server.accepts.eraseIdx index } :=
    hinv.of_subperm (((List.eraseIdx_sublist _ _).append_right _).subperm)
  unfold AsioServer.handleAccept
  split
  · exact hpopped
  · exact hpopped.doAccept
  · exact hpopped.doAccept
  · exact hpopped
  · exact hpopped
  · have hmoved : (server.accepts.eraseIdx index ++ (server.handshakes ++ [id])).Perm
        (server.accepts ++ server.handshakes) := by
      obtain ⟨hlt, rfl⟩ := List.getElem?_eq_some_iff.mp hid
      rw [← List.append_assoc]
      refine List.perm_append_comm.trans ?_
      exact (List.getElem_cons_eraseIdx_perm hlt).append_right server.handshakes
    have hshaking : QueueInv { server with
        accepts := server.accepts.eraseIdx index
        handshakes := server.handshakes ++ [id] } := hinv.of_subperm hmoved.subperm
    exact hshaking.doAccept

theorem QueueInv.handleHandshake (hinv : server.QueueInv) {id : ℕ} {ec : Option AsioError}
    (hnot : id ∉ server.accepts ++ server.handshakes)
    (hfresh : server.users[id]? = some (.new true))
    (hstep : server.handleHandshake protocol id ec = some next) : next.QueueInv := by
  unfold AsioServer.handleHandshake at hstep
  split_ifs at hstep
  · exact hinv.stepUser hnot hstep fun _ _ ↦ trivial
  · exact hinv.stepUser hnot hstep fun _ _ ↦ trivial
  · have hinserted : QueueInv { server with userQueue := insert id server.userQueue } := by
      refine ⟨hinv.fresh, hinv.nodup, fun other hother ↦ ?_, fun other hother ↦ ?_,
        hinv.disconnects⟩
      · rcases Finset.mem_insert.mp hother with rfl | hold
        · exact ⟨_, hfresh, List.not_mem_nil⟩
        · exact hinv.connected other hold
      · rcases Finset.mem_insert.mp hother with rfl | hold
        · exact hnot
        · exact hinv.disjoint other hold
    exact hinserted.stepUser hnot hstep fun _ _ ↦ trivial

/-- Assumes: no connection expires. Every step keeps the queue to connections that were not
disconnected. -/
theorem step_queueInv {action : ServerAction} (hinv : server.QueueInv)
    (hunexpired : server.Unexpired action) (hstep : server.step protocol action = some next) :
    next.QueueInv := by
  cases action with
  | start listens =>
    simp only [step] at hstep
    split_ifs at hstep
    · cases hstep
      have hstarted : QueueInv { server with started := true, listening := true } :=
        ⟨hinv.1, hinv.2, hinv.3, hinv.4, hinv.5⟩
      exact hstarted.doAccept
    · cases hstep
      exact ⟨hinv.1, hinv.2, hinv.3, hinv.4, hinv.5⟩
  | stop =>
    cases hstep
    exact ⟨hinv.fresh, hinv.nodup, fun id hid ↦ absurd hid (Finset.notMem_empty id),
      fun id hid ↦ absurd hid (Finset.notMem_empty id), hinv.disconnects⟩
  | setMaxConnections max =>
    cases hstep
    exact ⟨hinv.1, hinv.2, hinv.3, hinv.4, hinv.5⟩
  | acceptDone index ec =>
    simp only [step] at hstep
    split at hstep
    · cases hstep
    · rename_i id hid
      cases hstep
      exact hinv.handleAccept hid
  | handshakeDone id ec =>
    simp only [step] at hstep
    split_ifs at hstep with hid
    have hmem : id ∈ server.accepts ++ server.handshakes := List.mem_append_right _ hid
    have hpopped : QueueInv { server with handshakes := server.handshakes.erase id } :=
      hinv.of_subperm ((List.erase_sublist.append_left _).subperm)
    refine hpopped.handleHandshake ?_ (hinv.fresh id hmem) hstep
    obtain ⟨-, hhandshakes, hdisjoint⟩ := List.nodup_append.mp hinv.nodup
    intro hstill
    rcases List.mem_append.mp hstill with haccept | hhandshake
    · exact hdisjoint id haccept id hid rfl
    · exact (List.Nodup.mem_erase_iff hhandshakes).mp hhandshake |>.1 rfl
  | onTick id exceeded =>
    simp only [step] at hstep
    split_ifs at hstep with hid
    exact hinv.stepUser (hinv.disjoint id hid) hstep hunexpired
  | user id action =>
    simp only [step] at hstep
    rw [ite_eq_iff] at hstep
    rcases hstep with ⟨hpermitted, hstep⟩ | ⟨-, hnone⟩
    · refine hinv.stepUser (fun hmem ↦ ?_) hstep fun user huser ↦ ?_
      · have hfresh := hinv.fresh id hmem
        obtain ⟨user, user', huser, huser', -⟩ := stepUser_cases hstep
        cases hfresh.symm.trans huser
        cases (AsioUser.not_step_new (hpermitted _ huser)).symm.trans huser'
      · cases action with
        | onTick exceeded => exact (hpermitted user huser).elim
        | start | stop | post | readDone | writeDone | runIo | runWorker => trivial
    · cases hnone

/-- Assumes: no `on_tick` finds that a connection has expired. In every state of a run a connection
that entered the queue, was stopped by an error or by the expiry check and has nothing left to run
is not in the queue any more, and its `onDisconnect` was called once. -/
theorem disconnected_of_stopped (protocol : AsioProtocol) (actions : List ServerAction)
    {server : AsioServer} (hunexpired : Along (step protocol) Unexpired new actions)
    (hrun : runFrom (step protocol) new actions = some server) {id : ℕ} {user : AsioUser}
    (huser : server.users[id]? = some user)
    (hsource : user.stopSource = some .error ∨ user.stopSource = some .expired)
    (hquiescent : user.Quiescent) :
    id ∉ server.userQueue ∧ user.callbacks.count .onDisconnect = 1 := by
  have hnew : new.QueueInv := by
    refine ⟨fun id hid ↦ absurd hid List.not_mem_nil, .nil, fun id hid ↦ ?_, fun id hid ↦ ?_,
      fun user huser ↦ absurd huser List.not_mem_nil⟩
    · exact absurd hid (Finset.notMem_empty id)
    · exact absurd hid (Finset.notMem_empty id)
  have hinv : server.QueueInv := runFrom_invariant_along QueueInv
    (fun _ _ _ hinv hunexpired hstep ↦ step_queueInv hinv hunexpired hstep) hnew hunexpired hrun
  have hdisconnect := hinv.disconnects user (List.mem_of_getElem? huser)
  have herror : user.stopSource = some .error := hsource.resolve_right hdisconnect.not_expired
  have hcount : user.callbacks.count .onDisconnect = 1 := by
    have hscript := hdisconnect.count_eq
    rw [if_pos herror, AsioUser.disconnects, AsioUser.ReadView.script,
      show user.readView.workerStrand = [] from hquiescent.2.2.2] at hscript
    rw [List.map_nil, List.flatten_nil, List.append_nil] at hscript
    exact hscript
  refine ⟨fun hqueued ↦ ?_, hcount⟩
  obtain ⟨same, hsame, hcallbacks⟩ := hinv.connected id hqueued
  cases huser.symm.trans hsame
  exact hcallbacks (List.count_pos_iff.mp (hcount ▸ Nat.one_pos))

/-- A connection is accepted and opened, and its first read is started. -/
def openUser : List ServerAction :=
  [.start true, .acceptDone 0 none, .handshakeDone 0 none, .user 0 .runWorker, .user 0 .runWorker,
    .user 0 (.runIo false)]

theorem disconnected_of_stopped_by_error :
    ∃ server user, runFrom (step (.default .little)) new
        (openUser ++ [.user 0 (.readDone 0 [] (some .other)), .user 0 (.runIo false),
          .user 0 .runWorker]) = some server ∧
      server.users[0]? = some user ∧ user.stopSource = some .error ∧
        0 ∉ server.userQueue ∧ user.callbacks.count .onDisconnect = 1 :=
  ⟨_, _, rfl, rfl, rfl, disconnected_of_stopped (.default .little)
    (openUser ++ [.user 0 (.readDone 0 [] (some .other)), .user 0 (.runIo false),
      .user 0 .runWorker]) (by decide) rfl rfl (.inl rfl) (by decide)⟩

/-- A connection that expires has nothing left to run, and stays in the queue. -/
theorem not_disconnected_of_expired :
    ∃ server user, runFrom (step (.default .little)) new
        (openUser ++ [.onTick 0 true, .user 0 (.readDone 0 [] (some .operationAborted)),
          .user 0 (.runIo false)]) = some server ∧
      server.users[0]? = some user ∧ user.stopSource = some .expired ∧ user.Quiescent ∧
        0 ∈ server.userQueue ∧ server.currentConnections = 1 ∧
          user.callbacks.count .onDisconnect = 0 :=
  ⟨_, _, rfl, rfl, rfl, by decide, by decide, rfl, rfl⟩

end AsioServer

end TszyUlt.Zbf
