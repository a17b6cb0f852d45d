import Mathlib.Data.List.AList
import Mathlib.Tactic.Common
import TszyUlt.Lib.Table
import TszyUlt.Lib.Transition

/-!
# The connections of the epoll server

`zbf/socket_tcp_v5.hpp`: `tcpsock_server`. Two threads share the connections. The I/O thread takes a
batch of events from the poll and handles them one by one, by the number of the descriptor: it
accepts new connections (`createUser`), reads, writes and closes. The monitor takes one connection
after the other out of `_users`, closes it if it has expired, and then calls its `onDisconnect` or
puts it back. `closeUser` marks a connection and removes it from `_fd2user` under `_lockF2U`; the
mark is under a lock of its own. A connection is destroyed, and its descriptor closed, when nobody
refers to it any more.

`EpollServer` has every connection that was made, by its number. A step is one section under a lock,
one system call or one call of a connection, of either thread; `CloseCall` is a `closeUser` that has
found its connection and holds `_lockF2U`. The descriptor that `accept` returns is any that is not
open.

`isLive` says who is still referred to, and `Distinct` that the descriptors of these are distinct.
`step_moves` says what a step can do.

Scope. The threads run on; `stop` and `close` are not modelled. Whether a connection has expired,
what `recv` and `sendData` return and whether `createUser` fails are inputs. Workers and the
application refer to connections (`lock`, `release`).
-/

set_option autoImplicit false
set_option relaxedAutoImplicit false

namespace TszyUlt.Zbf

open Lib

/-- `event`. -/
structure Event where
  fd : ℕ
  read : Bool
  write : Bool
  error : Bool
  eof : Bool
  deriving DecidableEq, Repr

/-- An event that is nothing but an error or the end of the connection. -/
def Event.errorOnly (ev : Event) : Bool := !ev.read && !ev.write && (ev.error || ev.eof)

/-- `MAX_EVENT`. -/
def maxEvent : ℕ := 64

/-- A `tcpsock_user`, with its descriptor and its mark. -/
structure EpollUser where
  fd : ℕ
  closed : Bool
  deriving DecidableEq, Repr

/-- `setClose`. -/
def EpollUser.setClose (user : EpollUser) : EpollUser := { user with closed := true }

/-- The two threads. -/
inductive EpollThread
  | io
  | monitor
  deriving DecidableEq, Repr

/-- Where the I/O thread is. -/
inductive IoState
  | handling
  /-- `accept` has returned a descriptor. -/
  | accepted (conn : ℕ)
  /-- The limit is not reached, and `createUser` is called. -/
  | creating (conn : ℕ)
  /-- The connection is in `_fd2user`, and `_users` is next. -/
  | inserted (id : ℕ)
  /-- `findUser` is called. -/
  | finding (fd : ℕ)
  /-- `findUser` has returned, and `onRecv` or `sendData` is called. -/
  | working (fd id : ℕ)
  /-- `closeUser` is called, for a fault of the connection `culprit`. -/
  | failing (fd : ℕ) (culprit : Option ℕ)
  /-- `closeUser` is under way. -/
  | closing
  deriving DecidableEq, Repr

/-- The connection to which the I/O thread refers. -/
def IoState.user : IoState → Option ℕ
  | .inserted id | .working _ id => some id
  | .handling | .accepted _ | .creating _ | .finding _ | .failing _ _ | .closing => none

/-- The connection that `createUser` has not yet appended to `_users`. -/
def IoState.newUser : IoState → Option ℕ
  | .inserted id => some id
  | .handling | .accepted _ | .creating _ | .finding _ | .working _ _ | .failing _ _ | .closing =>
    none

/-- Where the monitor is, with the connection that it took out of `_users`. -/
inductive MonitorState
  | idle
  | holding (id : ℕ)
  /-- The connection has expired, and `closeUser` is called. -/
  | expired (id : ℕ)
  /-- `closeUser` is under way. -/
  | closing (id : ℕ)
  /-- `isClosed` is called. -/
  | checking (id : ℕ)
  | disconnecting (id : ℕ)
  | returning (id : ℕ)
  deriving DecidableEq, Repr

/-- The connection that the monitor holds. -/
def MonitorState.held : MonitorState → Option ℕ
  | .idle => none
  | .holding id | .expired id | .closing id | .checking id | .disconnecting id | .returning id =>
    some id

/-- A `closeUser` that has found a connection that is not marked, and holds `_lockF2U`. -/
structure CloseCall where
  thread : EpollThread
  fd : ℕ
  id : ℕ
  /-- Whether `setClose` was called. -/
  marked : Bool
  deriving DecidableEq, Repr

/-- A connection that `closeUser` closed, by which thread and for whose fault. -/
structure CloseRecord where
  thread : EpollThread
  culprit : Option ℕ
  id : ℕ
  deriving DecidableEq, Repr

/-- `tcpsock_server` with the connections that were made and its two threads. -/
structure EpollServer where
  listenFds : List ℕ
  maxConnections : ℤ
  users : List EpollUser
  fd2user : AList fun _ : ℕ ↦ ℕ
  /-- `_users`. -/
  userList : List ℕ
  /-- The events that are still to be handled, with the connections that raised them. -/
  batch : List (Event × Option ℕ)
  io : IoState
  monitor : MonitorState
  /-- The variable `user` of the monitor; it refers to a connection until the next one is taken. -/
  monitorUser : Option ℕ
  closing : Option CloseCall
  /-- The connections to which the workers and the application refer. -/
  refs : List ℕ
  /-- The calls of `onDisconnect`. -/
  disconnected : List ℕ
  closes : List CloseRecord

/-- What a system call that handles an event returns. -/
inductive IoResult
  | accepted (conn : ℕ)
  | data
  | again
  | failed
  deriving DecidableEq, Repr

/-- The steps of the server. -/
inductive EpollAction
  /-- `sp_wait`. -/
  | wait (events : List Event)
  /-- The next event is handled, up to the first lock. -/
  | handle (result : IoResult)
  /-- The number of connections is compared with the limit. -/
  | checkLimit
  /-- `createUser` fails, or inserts the connection into `_fd2user`. -/
  | createUser (succeeds : Bool)
  /-- `createUser` appends the connection to `_users`. -/
  | pushNewUser
  | findUser
  /-- `onRecv` or `sendData`. -/
  | work (succeeds : Bool)
  /-- `closeUser` of the I/O thread takes the lock and finds the connection. -/
  | closeUser
  | popFrontUser
  | isExpired (expired : Bool)
  /-- `closeUser` of the monitor takes the lock and finds the connection. -/
  | closeExpired
  | isClosed
  | onDisconnect
  | pushUserBack
  /-- `setClose` in `closeUser`. -/
  | setClose
  /-- `leaveMonitor`, `sp_del` and the removal from `_fd2user` in `closeUser`. -/
  | eraseUser
  /-- Someone else refers to a connection. -/
  | lock (id : ℕ)
  | release (id : ℕ)
  deriving DecidableEq, Repr

namespace EpollServer

/-- A server with its listeners, before the threads are started. -/
def new (listenFds : List ℕ) (maxConnections : ℤ) : EpollServer where
  listenFds := listenFds
  maxConnections := maxConnections
  users := []
  fd2user := ∅
  userList := []
  batch := []
  io := .handling
  monitor := .idle
  monitorUser := none
  closing := none
  refs := []
  disconnected := []
  closes := []

/-- `currentConnections`. -/
def currentConnections (server : EpollServer) : ℕ := server.fd2user.keys.length

/-- Someone refers to a connection. -/
def isLive (server : EpollServer) (id : ℕ) : Bool :=
  server.fd2user.entries.any (fun entry ↦ entry.2 == id) || server.userList.contains id ||
    server.monitorUser == some id || server.io.user == some id || server.refs.contains id

/-- The descriptor of a connection. -/
def fdOf (server : EpollServer) (id : ℕ) : Option ℕ := server.users[id]?.map EpollUser.fd

/-- The connection that has a descriptor. -/
def owner (server : EpollServer) (fd : ℕ) : Option ℕ :=
  (List.range server.users.length).find? fun id ↦ server.isLive id && server.fdOf id == some fd

/-- The mark of a connection. -/
def closed (server : EpollServer) (id : ℕ) : Bool :=
  (server.users[id]?.map EpollUser.closed).getD false

/-- `closeUser` up to `setClose`: `_fd2user` is searched, and a connection that is marked already
is left alone. -/
def findToClose (server : EpollServer) (thread : EpollThread) (fd : ℕ) (culprit : Option ℕ) :
    Option EpollServer :=
  match server.fd2user.lookup fd with
  | none => none
  | some id =>
    if server.closed id then none
    else some { server with
      closing := some ⟨thread, fd, id, false⟩
      closes := server.closes ++ [⟨thread, culprit, id⟩] }

/-- The event at the front of the batch is handled. -/
def handle (server : EpollServer) (result : IoResult) : Option EpollServer :=
  match server.batch with
  | [] => none
  | (ev, raiser) :: rest =>
    let next := { server with batch := rest }
    if ev.fd ∈ server.listenFds then
      if ev.read then
        match result with
        | .accepted conn =>
          -- The system does not return a descriptor that is open.
          if conn ∈ server.listenFds ∨ server.owner conn ≠ none then none
          else some { next with io := .accepted conn }
        | .failed => some next
        | .data | .again => none
      else some next
    else if ev.read then
      match result with
      | .data => some { next with io := .finding ev.fd }
      | .again => some next
      | .failed => some { next with io := .failing ev.fd (server.owner ev.fd) }
      | .accepted _ => none
    else if ev.write then some { next with io := .finding ev.fd }
    else if ev.error || ev.eof then some { next with io := .failing ev.fd raiser }
    else some next

/-- `createUser` inserts a new connection into `_fd2user`. -/
def withUser (server : EpollServer) (conn : ℕ) : EpollServer :=
  { server with
    users := server.users ++ [⟨conn, false⟩]
    fd2user := server.fd2user.insert conn server.users.length
    io := .inserted server.users.length }

/-- One step of the server. -/
def step (server : EpollServer) : EpollAction → Option EpollServer
  | .wait events =>
    if server.io = .handling ∧ server.batch = [] ∧ events.length ≤ maxEvent ∧
        ∀ ev ∈ events, ev.fd ∈ server.listenFds ∨ server.fd2user.lookup ev.fd ≠ none then
      some { server with batch := events.map fun ev ↦ (ev, server.fd2user.lookup ev.fd) }
    else none
  | .handle result => if server.io = .handling then server.handle result else none
  | .checkLimit =>
    match server.io with
    | .accepted conn =>
      if server.closing ≠ none then none
      else if (server.currentConnections : ℤ) ≥ server.maxConnections then
        some { server with io := .handling }
      else some { server with io := .creating conn }
    | _ => none
  | .createUser succeeds =>
    match server.io with
    | .creating conn =>
      if succeeds then
        if server.closing ≠ none then none
        else some (server.withUser conn)
      else some { server with io := .handling }
    | _ => none
  | .pushNewUser =>
    match server.io with
    | .inserted id => some { server with userList := server.userList ++ [id], io := .handling }
    | _ => none
  | .findUser =>
    match server.io with
    | .finding fd =>
      if server.closing ≠ none then none
      else match server.fd2user.lookup fd with
        | some id => some { server with io := .working fd id }
        | none => some { server with io := .handling }
    | _ => none
  | .work succeeds =>
    match server.io with
    | .working fd id =>
      some { server with io := if succeeds then .handling else .failing fd (some id) }
    | _ => none
  | .closeUser =>
    match server.io with
    | .failing fd culprit =>
      if server.closing ≠ none then none
      else match server.findToClose .io fd culprit with
        | some next => some { next with io := .closing }
        | none => some { server with io := .handling }
    | _ => none
  | .popFrontUser =>
    match server.monitor, server.userList with
    | .idle, [] => some { server with monitorUser := none }
    | .idle, id :: rest =>
      some { server with userList := rest, monitorUser := some id, monitor := .holding id }
    | _, _ => none
  | .isExpired expired =>
    match server.monitor with
    | .holding id => some { server with monitor := if expired then .expired id else .checking id }
    | _ => none
  | .closeExpired =>
    match server.monitor with
    | .expired id =>
      if server.closing ≠ none then none
      else match server.users[id]? with
        | none => none
        | some user =>
          match server.findToClose .monitor user.fd (some id) with
          | some next => some { next with monitor := .closing id }
          | none => some { server with monitor := .checking id }
    | _ => none
  | .isClosed =>
    match server.monitor with
    | .checking id =>
      some { server with
        monitor := if server.closed id then .disconnecting id else .returning id }
    | _ => none
  | .onDisconnect =>
    match server.monitor with
    | .disconnecting id =>
      some { server with disconnected := server.disconnected ++ [id], monitor := .idle }
    | _ => none
  | .pushUserBack =>
    match server.monitor with
    | .returning id => some { server with userList := server.userList ++ [id], monitor := .idle }
    | _ => none
  | .setClose =>
    match server.closing with
    | some call =>
      if call.marked then none
      else some { server with
        users := server.users.modify call.id EpollUser.setClose
        closing := some { call with marked := true } }
    | none => none
  | .eraseUser =>
    match server.closing with
    | some call =>
      if call.marked then
        some { server with
          fd2user := server.fd2user.erase call.fd
          closing := none
          io := if call.thread = .io then .handling else server.io
          monitor := match call.thread, server.monitor with
            | .monitor, .closing id => .checking id
            | _, monitor => monitor }
      else none
    | none => none
  | .lock id =>
    if server.isLive id then some { server with refs := server.refs ++ [id] } else none
  | .release id => some { server with refs := server.refs.erase id }

/-! ### Descriptors -/

variable {server next : EpollServer}

/-- Who refers to a connection. -/
theorem isLive_iff {id : ℕ} :
    server.isLive id = true ↔ (∃ fd, server.fd2user.lookup fd = some id) ∨ id ∈ server.userList ∨
      server.monitorUser = some id ∨ server.io.user = some id ∨ id ∈ server.refs := by
  have hentry : server.fd2user.entries.any (fun entry ↦ entry.2 == id) = true ↔
      ∃ fd, server.fd2user.lookup fd = some id := by
    rw [List.any_eq_true]
    constructor
    · rintro ⟨⟨fd, other⟩, hmem, heq⟩
      cases eq_of_beq heq
      exact ⟨fd, AList.mem_lookup_iff.mpr hmem⟩
    · rintro ⟨fd, hlookup⟩
      exact ⟨⟨fd, id⟩, AList.mem_lookup_iff.mp hlookup, beq_self_eq_true id⟩
  simp only [isLive, Bool.or_eq_true, hentry, List.contains_iff_mem, beq_iff_eq, or_assoc]

theorem isLive_of_lookup {fd id : ℕ} (hlookup : server.fd2user.lookup fd = some id) :
    server.isLive id = true := isLive_iff.mpr (.inl ⟨fd, hlookup⟩)

theorem isLive_of_mem_userList {id : ℕ} (hmem : id ∈ server.userList) : server.isLive id = true :=
  isLive_iff.mpr (.inr (.inl hmem))

theorem isLive_of_monitorUser {id : ℕ} (hmonitor : server.monitorUser = some id) :
    server.isLive id = true := isLive_iff.mpr (.inr (.inr (.inl hmonitor)))

theorem isLive_of_io {id : ℕ} (hio : server.io.user = some id) : server.isLive id = true :=
  isLive_iff.mpr (.inr (.inr (.inr (.inl hio))))

theorem isLive_of_mem_refs {id : ℕ} (hmem : id ∈ server.refs) : server.isLive id = true :=
  isLive_iff.mpr (.inr (.inr (.inr (.inr hmem))))

/-- A step after which nobody refers to more connections. -/
theorem isLive_mono
    (hentry : ∀ fd id, next.fd2user.lookup fd = some id → server.isLive id = true)
    (hlist : ∀ id ∈ next.userList, server.isLive id = true)
    (hmonitor : ∀ id, next.monitorUser = some id → server.isLive id = true)
    (hio : ∀ id, next.io.user = some id → server.isLive id = true)
    (hrefs : ∀ id ∈ next.refs, server.isLive id = true) (id : ℕ) (hlive : next.isLive id = true) :
    server.isLive id = true := by
  rcases isLive_iff.mp hlive with ⟨fd, hfd⟩ | hmem | hsome | hsome | hmem
  · exact hentry fd id hfd
  · exact hlist id hmem
  · exact hmonitor id hsome
  · exact hio id hsome
  · exact hrefs id hmem

theorem lt_of_fdOf {id fd : ℕ} (hfd : server.fdOf id = some fd) : id < server.users.length := by
  obtain ⟨user, huser, -⟩ := Option.map_eq_some_iff.mp hfd
  exact lt_length_of_getElem? huser

/-- A descriptor that nobody has. -/
theorem owner_eq_none {fd : ℕ} :
    server.owner fd = none ↔ ∀ id, server.isLive id = true → server.fdOf id ≠ some fd := by
  rw [owner, List.find?_eq_none]
  constructor
  · intro hnone id hlive hfd
    refine hnone id (List.mem_range.mpr (lt_of_fdOf hfd)) ?_
    rw [hlive, hfd]
    exact beq_self_eq_true _
  · intro hnone id _ howner
    rw [Bool.and_eq_true, beq_iff_eq] at howner
    exact hnone id howner.1 howner.2

/-- Who has a descriptor is referred to. -/
theorem owner_eq_some {fd id : ℕ} (howner : server.owner fd = some id) :
    server.isLive id = true ∧ server.fdOf id = some fd := by
  have hfound := List.find?_some howner
  rw [Bool.and_eq_true, beq_iff_eq] at hfound
  exact hfound

/-- The descriptors of the connections that are referred to are distinct. -/
structure Distinct (server : EpollServer) : Prop where
  lt_of_live : ∀ id, server.isLive id = true → id < server.users.length
  unique : ∀ i j fd, server.isLive i = true → server.isLive j = true →
    server.fdOf i = some fd → server.fdOf j = some fd → i = j

/-- A step after which nobody refers to more connections. -/
theorem Distinct.mono (hdistinct : server.Distinct) (hfds : ∀ id, next.fdOf id = server.fdOf id)
    (hlength : next.users.length = server.users.length)
    (hlive : ∀ id, next.isLive id = true → server.isLive id = true) : next.Distinct where
  lt_of_live := fun id hid ↦ by rw [hlength]; exact hdistinct.lt_of_live id (hlive id hid)
  unique := fun i j fd hi hj hfi hfj ↦ hdistinct.unique i j fd (hlive i hi) (hlive j hj)
    ((hfds i).symm.trans hfi) ((hfds j).symm.trans hfj)

theorem owner_eq_none_mono {fd : ℕ} (howner : server.owner fd = none)
    (hfds : ∀ id, next.fdOf id = server.fdOf id)
    (hlive : ∀ id, next.isLive id = true → server.isLive id = true) : next.owner fd = none := by
  rw [owner_eq_none] at howner ⊢
  intro id hid
  rw [hfds]
  exact howner id (hlive id hid)

theorem owner_of_live (hdistinct : server.Distinct) {fd id : ℕ} (hlive : server.isLive id = true)
    (hfd : server.fdOf id = some fd) : server.owner fd = some id := by
  cases howner : server.owner fd with
  | none => exact absurd hfd (owner_eq_none.mp howner id hlive)
  | some other =>
    obtain ⟨hother, hsame⟩ := owner_eq_some howner
    rw [hdistinct.unique other id fd hother hlive hsame hfd]

/-! ### What a step can do -/

theorem findToClose_cases {thread : EpollThread} {fd : ℕ} {culprit : Option ℕ}
    (hfind : server.findToClose thread fd culprit = some next) :
    ∃ id, server.fd2user.lookup fd = some id ∧ server.closed id = false ∧
      next = { server with
        closing := some ⟨thread, fd, id, false⟩
        closes := server.closes ++ [⟨thread, culprit, id⟩] } := by
  unfold findToClose at hfind
  split at hfind
  · cases hfind
  · rename_i id hid
    split_ifs at hfind with hclosed
    cases hfind
    exact ⟨id, hid, eq_false_of_ne_true hclosed, rfl⟩

/-- The next event: the I/O thread goes on, or `accept` returns a descriptor that nobody has. -/
theorem handle_cases {result : IoResult} (hstep : server.handle result = some next) :
    ∃ ev raiser rest, server.batch = (ev, raiser) :: rest ∧
      ((ev.fd ∈ server.listenFds ∧ ∃ conn, result = .accepted conn ∧ server.owner conn = none ∧
          next = { server with batch := rest, io := .accepted conn }) ∨
        next = { server with batch := rest } ∨
        (∃ fd, next = { server with batch := rest, io := .finding fd }) ∨
        (ev.read = true ∧
          next = { server with batch := rest, io := .failing ev.fd (server.owner ev.fd) }) ∨
        (ev.errorOnly = true ∧
          next = { server with batch := rest, io := .failing ev.fd raiser })) := by
  unfold handle at hstep
  split at hstep
  · cases hstep
  · rename_i ev raiser rest hbatch
    refine ⟨ev, raiser, rest, hbatch, ?_⟩
    dsimp only at hstep
    split_ifs at hstep with hlisten hread hread' hwrite herror
    · cases result with
      | accepted conn =>
        dsimp only at hstep
        split_ifs at hstep with hopen
        push Not at hopen
        cases hstep
        exact .inl ⟨hlisten, conn, rfl, hopen.2, rfl⟩
      | failed =>
        cases hstep
        exact .inr (.inl rfl)
      | data | again => cases hstep
    · cases hstep
      exact .inr (.inl rfl)
    · cases result with
      | data =>
        cases hstep
        exact .inr (.inr (.inl ⟨ev.fd, rfl⟩))
      | again =>
        cases hstep
        exact .inr (.inl rfl)
      | failed =>
        cases hstep
        exact .inr (.inr (.inr (.inl ⟨hread', rfl⟩)))
      | accepted conn => cases hstep
    · cases hstep
      exact .inr (.inr (.inl ⟨ev.fd, rfl⟩))
    · cases hstep
      refine .inr (.inr (.inr (.inr ⟨?_, rfl⟩)))
      rw [Event.errorOnly, eq_false_of_ne_true hread', eq_false_of_ne_true hwrite, herror]
      rfl
    · cases hstep
      exact .inr (.inl rfl)

/-- The changes that the steps of the server make. -/
inductive Moves (server : EpollServer) : EpollAction → EpollServer → Prop
  | wait (events : List Event) :
    Moves server (.wait events)
      { server with batch := events.map fun ev ↦ (ev, server.fd2user.lookup ev.fd) }
  | handle (result : IoResult) (next : EpollServer) (hio : server.io = .handling)
      (hhandle : server.handle result = some next) : Moves server (.handle result) next
  /-- The event is handled. -/
  | goOn (action : EpollAction) (hnew : server.io.newUser = none)
      (hclosing : server.io ≠ .closing) : Moves server action { server with io := .handling }
  | goCreate (conn : ℕ) (hio : server.io = .accepted conn)
      (hlimit : (server.currentConnections : ℤ) < server.maxConnections) :
    Moves server .checkLimit { server with io := .creating conn }
  | createUser (conn : ℕ) (hio : server.io = .creating conn) (hfree : server.closing = none) :
    Moves server (.createUser true) (server.withUser conn)
  | pushNewUser (id : ℕ) (hio : server.io = .inserted id) :
    Moves server .pushNewUser { server with userList := server.userList ++ [id], io := .handling }
  | findUser (fd id : ℕ) (hio : server.io = .finding fd)
      (hlookup : server.fd2user.lookup fd = some id) :
    Moves server .findUser { server with io := .working fd id }
  | workFails (fd id : ℕ) (hio : server.io = .working fd id) :
    Moves server (.work false) { server with io := .failing fd (some id) }
  | closeUser (fd id : ℕ) (culprit : Option ℕ) (hio : server.io = .failing fd culprit)
      (hfree : server.closing = none) (hlookup : server.fd2user.lookup fd = some id)
      (hopen : server.closed id = false) :
    Moves server .closeUser { server with
      closing := some ⟨.io, fd, id, false⟩
      closes := server.closes ++ [⟨.io, culprit, id⟩]
      io := .closing }
  | popNothing (hmonitor : server.monitor = .idle) :
    Moves server .popFrontUser { server with monitorUser := none }
  | popFrontUser (id : ℕ) (rest : List ℕ) (hmonitor : server.monitor = .idle)
      (hlist : server.userList = id :: rest) :
    Moves server .popFrontUser
      { server with userList := rest, monitorUser := some id, monitor := .holding id }
  /-- The monitor keeps the connection that it holds. -/
  | keep (action : EpollAction) (monitor : MonitorState)
      (hheld : monitor.held = server.monitor.held) (hclosing : ∀ id, server.monitor ≠ .closing id)
      (hmarked : ∀ id, monitor = .disconnecting id → server.closed id = true) :
    Moves server action { server with monitor := monitor }
  | closeExpired (held fd id : ℕ) (hmonitor : server.monitor = .expired held)
      (hfree : server.closing = none) (hfd : server.fdOf held = some fd)
      (hlookup : server.fd2user.lookup fd = some id) (hopen : server.closed id = false) :
    Moves server .closeExpired { server with
      closing := some ⟨.monitor, fd, id, false⟩
      closes := server.closes ++ [⟨.monitor, some held, id⟩]
      monitor := .closing held }
  | onDisconnect (id : ℕ) (hmonitor : server.monitor = .disconnecting id) :
    Moves server .onDisconnect
      { server with disconnected := server.disconnected ++ [id], monitor := .idle }
  | pushUserBack (id : ℕ) (hmonitor : server.monitor = .returning id) :
    Moves server .pushUserBack { server with userList := server.userList ++ [id], monitor := .idle }
  | setClose (call : CloseCall) (hcall : server.closing = some call)
      (hmarked : call.marked = false) :
    Moves server .setClose { server with
      users := server.users.modify call.id EpollUser.setClose
      closing := some { call with marked := true } }
  | eraseUser (call : CloseCall) (hcall : server.closing = some call)
      (hthread : call.thread = .io) :
    Moves server .eraseUser { server with
      fd2user := server.fd2user.erase call.fd
      closing := none
      io := .handling }
  | eraseExpired (call : CloseCall) (hcall : server.closing = some call)
      (hthread : call.thread = .monitor) (monitor : MonitorState)
      (hmonitor : ∀ id, server.monitor = .closing id → monitor = .checking id) :
    Moves server .eraseUser { server with
      fd2user := server.fd2user.erase call.fd
      closing := none
      monitor := monitor }
  | setRefs (action : EpollAction) (refs : List ℕ)
      (hlive : ∀ id ∈ refs, server.isLive id = true) :
    Moves server action { server with refs := refs }

theorem step_moves {action : EpollAction} (hstep : server.step action = some next) :
    server.Moves action next := by
  cases action with
  | wait events =>
    simp only [step] at hstep
    split_ifs at hstep
    cases hstep
    exact .wait events
  | handle result =>
    simp only [step] at hstep
    split_ifs at hstep with hio
    exact .handle result next hio hstep
  | checkLimit =>
    simp only [step] at hstep
    split at hstep
    · rename_i conn hio
      split_ifs at hstep with hlock hlimit
      · cases hstep
        exact .goOn _ (by simp [hio, IoState.newUser]) (by simp [hio])
      · cases hstep
        exact .goCreate conn hio (Int.not_le.mp hlimit)
    · cases hstep
  | createUser succeeds =>
    simp only [step] at hstep
    split at hstep
    · rename_i conn hio
      split_ifs at hstep with hsucceeds hlock
      · cases hstep
        rw [hsucceeds]
        exact .createUser conn hio (not_not.mp hlock)
      · cases hstep
        exact .goOn _ (by simp [hio, IoState.newUser]) (by simp [hio])
    · cases hstep
  | pushNewUser =>
    simp only [step] at hstep
    split at hstep
    · rename_i id hio
      cases hstep
      exact .pushNewUser id hio
    · cases hstep
  | findUser =>
    simp only [step] at hstep
    split at hstep
    · rename_i fd hio
      split_ifs at hstep with hlock
      split at hstep
      · rename_i id hlookup
        cases hstep
        exact .findUser fd id hio hlookup
      · cases hstep
        exact .goOn _ (by simp [hio, IoState.newUser]) (by simp [hio])
    · cases hstep
  | work succeeds =>
    simp only [step] at hstep
    split at hstep
    · rename_i fd id hio
      cases succeeds with
      | false =>
        cases hstep
        exact .workFails fd id hio
      | true =>
        cases hstep
        exact .goOn _ (by simp [hio, IoState.newUser]) (by simp [hio])
    · cases hstep
  | closeUser =>
    simp only [step] at hstep
    split at hstep
    · rename_i fd culprit hio
      split_ifs at hstep with hlock
      split at hstep
      · rename_i found hfound
        cases hstep
        obtain ⟨id, hlookup, hopen, rfl⟩ := findToClose_cases hfound
        exact .closeUser fd id culprit hio (not_not.mp hlock) hlookup hopen
      · cases hstep
        exact .goOn _ (by simp [hio, IoState.newUser]) (by simp [hio])
    · cases hstep
  | popFrontUser =>
    simp only [step] at hstep
    split at hstep
    · rename_i hmonitor hlist
      cases hstep
      exact .popNothing hmonitor
    · rename_i id rest hmonitor hlist
      cases hstep
      exact .popFrontUser id rest hmonitor hlist
    · cases hstep
  | isExpired expired =>
    simp only [step] at hstep
    split at hstep
    · rename_i id hmonitor
      cases hstep
      refine .keep _ _ ?_ (by simp [hmonitor]) fun other hother ↦ ?_
      · rw [hmonitor]
        split_ifs <;> rfl
      · split_ifs at hother
    · cases hstep
  | closeExpired =>
    simp only [step] at hstep
    split at hstep
    · rename_i held hmonitor
      split_ifs at hstep with hlock
      split at hstep
      · cases hstep
      · rename_i user huser
        have hfd : server.fdOf held = some user.fd := by
          rw [fdOf, huser]
          rfl
        split at hstep
        · rename_i found hfound
          cases hstep
          obtain ⟨id, hlookup, hopen, rfl⟩ := findToClose_cases hfound
          exact .closeExpired held user.fd id hmonitor (not_not.mp hlock) hfd hlookup hopen
        · cases hstep
          exact .keep _ (.checking held) (by simp [hmonitor, MonitorState.held])
            (by simp [hmonitor]) (by simp)
    · cases hstep
  | isClosed =>
    simp only [step] at hstep
    split at hstep
    · rename_i id hmonitor
      cases hstep
      refine .keep _ _ ?_ (by simp [hmonitor]) fun other hother ↦ ?_
      · rw [hmonitor]
        split_ifs <;> rfl
      · split_ifs at hother with hclosed
        cases hother
        exact hclosed
    · cases hstep
  | onDisconnect =>
    simp only [step] at hstep
    split at hstep
    · rename_i id hmonitor
      cases hstep
      exact .onDisconnect id hmonitor
    · cases hstep
  | pushUserBack =>
    simp only [step] at hstep
    split at hstep
    · rename_i id hmonitor
      cases hstep
      exact .pushUserBack id hmonitor
    · cases hstep
  | setClose =>
    simp only [step] at hstep
    split at hstep
    · rename_i call hcall
      split_ifs at hstep with hmarked
      cases hstep
      exact .setClose call hcall (eq_false_of_ne_true hmarked)
    · cases hstep
  | eraseUser =>
    simp only [step] at hstep
    split at hstep
    · rename_i call hcall
      cases hthread : call.thread with
      | io =>
        simp only [hthread] at hstep
        split_ifs at hstep
        cases hstep
        exact .eraseUser call hcall hthread
      | monitor =>
        simp only [hthread, reduceCtorEq, if_false] at hstep
        split_ifs at hstep
        cases hstep
        refine .eraseExpired call hcall hthread _ fun id hmonitor ↦ ?_
        rw [hmonitor]
    · cases hstep
  | lock id =>
    simp only [step] at hstep
    split_ifs at hstep with hlive
    cases hstep
    refine .setRefs _ _ fun other hother ↦ ?_
    rcases List.mem_append.mp hother with hold | hnew
    · exact isLive_of_mem_refs hold
    · rw [List.mem_singleton.mp hnew]
      exact hlive
  | release id =>
    cases hstep
    exact .setRefs _ _ fun other hother ↦ isLive_of_mem_refs (List.mem_of_mem_erase hother)

end EpollServer

end TszyUlt.Zbf
