import TszyUlt.Zbf.WritePath

/-!
# The write interest of a connection

`zbf/socket_tcp_v5.hpp`: the write path of `WritePath`, in smaller steps. `enableWrite` reads
`_efd`, swaps `_enableWrite` and calls `sp_enable`; its callers `post`, `joinMonitor` and `sendData`
hold `_lockWRQ` all the while, but `leaveMonitor` stores into both atomics without that lock. Each
atomic operation and each system call is therefore a step of its own here, and `LockWRQ` says where
the holder of the lock stands. Any number of threads post: those that wait for the lock have done
nothing yet, so the holder is the only one with a place of its own.

`WriteInterest` is one connection with its registration in the poll. A `tcpsock_user` is added once,
by `createUser`, and `closeUser` removes it from either thread of the server, also while the I/O
thread is in `sendData`. A `tcpsock_asynclt` is removed by the I/O thread only (`removeMonitored`),
between two calls of `sendData`; the monitor then connects it again, with a new descriptor, and adds
that one (`addMonitored`). A `post` that read `_efd` before the connection left may call `sp_enable`
after the new descriptor was added (`write_interest_stale_post`).

`write_interest` is the result. Whenever the connection is joined and nobody holds the lock, the
registration of the descriptor has write interest exactly if `_enableWrite` is set, and a message in
the queue sets both. In between, `Armed` says by how much the two differ at each place of the
holder. What carries the proof over a new connection is that nothing takes messages out of the queue
before the connection is in the collection of the event loop again: write interest that a late
`post` registers comes with a message in the queue, so that `joinMonitor` sets the flag as well.

Scope. The descriptor is read together with the operation that uses it. `sp_enable` succeeds if and
only if the descriptor is registered, and an `sp_add` that fails changes nothing. The destruction of
a connection is not modelled.
-/

set_option autoImplicit false
set_option relaxedAutoImplicit false

namespace TszyUlt.Zbf

open Lib

/-! ### The connection and its steps -/

/-- The two classes with a write path. -/
inductive Endpoint
  | user
  | asynclt
  deriving DecidableEq, Repr

/-- The callers of `enableWrite`. -/
inductive EnableCaller
  | post
  | joinMonitor
  | sendData
  deriving DecidableEq, Repr

/-- The argument with which a caller calls `enableWrite`. -/
def EnableCaller.enable : EnableCaller → Bool
  | .post => true
  | .joinMonitor => true
  | .sendData => false

/-- Where the holder of `_lockWRQ` stands: the operation that it does next. -/
inductive LockWRQ
  | free
  /-- `joinMonitor`: `_enableWrite.store(false)`. -/
  | storeFlag
  /-- `joinMonitor`: `_efd.store(efd)`. -/
  | storeEfd
  /-- `joinMonitor`: `_wrQueue.empty()`. -/
  | checkQueue
  /-- `enableWrite`: `_efd.load()`. -/
  | load (caller : EnableCaller)
  /-- `enableWrite`: `_enableWrite.compare_exchange_strong`. -/
  | swap (caller : EnableCaller)
  /-- `enableWrite`: `sp_enable`. -/
  | enable (caller : EnableCaller)
  deriving DecidableEq, Repr

/-- The caller of `enableWrite` that holds the lock. -/
def LockWRQ.caller : LockWRQ → Option EnableCaller
  | .load caller => some caller
  | .swap caller => some caller
  | .enable caller => some caller
  | _ => none

/-- `joinMonitor` holds the lock. -/
def LockWRQ.joining : LockWRQ → Bool
  | .storeFlag => true
  | .storeEfd => true
  | .checkQueue => true
  | .load .joinMonitor => true
  | .swap .joinMonitor => true
  | .enable .joinMonitor => true
  | _ => false

/-- How far a connection is in the event loop. -/
inductive Membership
  /-- Not yet, or no longer, in the collection of the event loop. -/
  | out
  /-- `sp_add` succeeded; `joinMonitor` is called next. -/
  | added
  /-- In `joinMonitor`. -/
  | joining
  /-- `joinMonitor` returned; the connection is to be put into the collection. -/
  | joined
  /-- In `_fd2user`, or in `_monitorColl`. -/
  | monitored
  /-- Being removed; `leaveMonitor` stores into `_efd` next. -/
  | leaving
  /-- `leaveMonitor` stores into `_enableWrite` next. -/
  | leftEfd
  /-- `leaveMonitor` returned; `sp_del` is called next. -/
  | left
  deriving DecidableEq, Repr

/-- In the poll but not joined yet, so that no call of `sendData` can be going on. -/
def Membership.entering : Membership → Bool
  | .added => true
  | .joining => true
  | _ => false

/-- The places in which `_efd` may be set. -/
def Membership.mayHaveEfd : Membership → Bool
  | .joining => true
  | .joined => true
  | .monitored => true
  | .leaving => true
  | _ => false

/-- A connection and its registration in the poll. -/
structure WriteInterest where
  endpoint : Endpoint
  closed : Bool
  /-- `_fd` is not `INVALID_SOCK`. -/
  fdOpen : Bool
  /-- `_efd` is not `INVALID_SOCK`. -/
  efd : Bool
  enableWrite : Bool
  wrQueue : List TcpMessage
  lockWRQ : LockWRQ
  io : IoThread
  membership : Membership
  /-- Whether the descriptor is registered, and then whether with write interest. -/
  registration : Option Bool

/-- The steps of the threads. -/
inductive InterestAction
  /-- `post` takes the lock and appends the message, unless the queue is full. -/
  | post (msg : TcpMessage)
  /-- The holder of the lock does its next operation. -/
  | proceed
  /-- `sp_add` in `createUser` or `addMonitored`. -/
  | spAdd
  /-- `joinMonitor` takes the lock. -/
  | joinMonitor
  /-- The connection is put into the collection of the event loop. -/
  | insert
  /-- `sendData` is called and looks at the closed mark. -/
  | sendData
  | takeFront
  | send (result : SendResult)
  | putBack
  /-- `sendData` takes the lock again after `QUEUE_EMPTY`. -/
  | confirmEmpty
  /-- `closeUser` or `removeMonitored` begins. -/
  | remove
  /-- The next operation of the removal. -/
  | leave
  /-- `onIOError` after a failed send finds the connection removed already. -/
  | ioErrorIgnored
  /-- `connect` resets the closed mark and closes the old descriptor. -/
  | disconnect
  /-- `connect` succeeds. -/
  | connected
  deriving DecidableEq, Repr

namespace WriteInterest

/-- A connection that was just constructed. -/
def new (endpoint : Endpoint) : WriteInterest where
  endpoint := endpoint
  closed := false
  fdOpen := false
  efd := false
  enableWrite := false
  wrQueue := []
  lockWRQ := .free
  io := .idle
  membership := .out
  registration := none

/-- The lock is released, and the call of the caller is over. -/
def release (connection : WriteInterest) : EnableCaller → WriteInterest
  | .post => { connection with lockWRQ := .free }
  | .joinMonitor => { connection with lockWRQ := .free, membership := .joined }
  | .sendData => { connection with lockWRQ := .free, io := .idle }

/-- The beginning of `post`, up to its call of `enableWrite`. -/
def post (connection : WriteInterest) (msg : TcpMessage) : Option WriteInterest :=
  if connection.lockWRQ = .free then
    if connection.wrQueue.length > maxPendingMsg then some connection
    else some { connection with wrQueue := connection.wrQueue ++ [msg], lockWRQ := .load .post }
  else none

/-- The next operation under `_lockWRQ`: the rest of `joinMonitor`, and `enableWrite`. -/
def proceed (connection : WriteInterest) : Option WriteInterest :=
  match connection.lockWRQ with
  | .free => none
  | .storeFlag => some { connection with enableWrite := false, lockWRQ := .storeEfd }
  | .storeEfd => some { connection with efd := true, lockWRQ := .checkQueue }
  | .checkQueue =>
    if connection.wrQueue ≠ [] then some { connection with lockWRQ := .load .joinMonitor }
    else some (connection.release .joinMonitor)
  | .load caller =>
    if connection.fdOpen = false ∨ connection.efd = false then some (connection.release caller)
    else some { connection with lockWRQ := .swap caller }
  | .swap caller =>
    if connection.enableWrite = !caller.enable then
      some { connection with enableWrite := caller.enable, lockWRQ := .enable caller }
    else some (connection.release caller)
  | .enable caller =>
    some ({ connection with
      registration := connection.registration.map fun _ ↦ caller.enable }.release caller)

/-- `sp_add`, without write interest. `createUser` calls it once, before `init`; `addMonitored`
calls it for a client that is connected. -/
def spAdd (connection : WriteInterest) : Option WriteInterest :=
  match connection.membership, connection.endpoint with
  | .out, .user =>
    if connection.fdOpen = false then
      some { connection with fdOpen := true, registration := some false, membership := .added }
    else none
  | .out, .asynclt =>
    if connection.fdOpen = true ∧ connection.closed = false then
      some { connection with registration := some false, membership := .added }
    else none
  | _, _ => none

/-- The first section of `_SendData` under the lock. -/
def takeFront (connection : WriteInterest) : Option WriteInterest :=
  if connection.lockWRQ = .free ∧ connection.io = .opened then
    match connection.wrQueue with
    | [] => some { connection with io := .foundEmpty }
    | msg :: rest => some { connection with wrQueue := rest, io := .sending msg }
  else none

/-- The call of `_SendMsg` in `_SendData`. -/
def send (connection : WriteInterest) (result : SendResult) : Option WriteInterest :=
  match connection.io with
  | .sending msg =>
    if result.Possible msg then some { connection with io := WriteSide.afterSend msg result }
    else none
  | _ => none

/-- The last section of `_SendData` under the lock. -/
def putBack (connection : WriteInterest) : Option WriteInterest :=
  match connection.lockWRQ, connection.io with
  | .free, .puttingBack msg =>
    some { connection with wrQueue := msg :: connection.wrQueue, io := .idle }
  | _, _ => none

/-- The section of `sendData` under the lock after `QUEUE_EMPTY`, up to its call of
`enableWrite`. -/
def confirmEmpty (connection : WriteInterest) : Option WriteInterest :=
  if connection.lockWRQ = .free ∧ connection.io = .foundEmpty then
    if connection.wrQueue = [] then some { connection with lockWRQ := .load .sendData }
    else some { connection with io := .idle }
  else none

/-- The beginning of the removal. `closeUser` marks the user first; it is called by either thread.
`removeMonitored` is called by the I/O thread, after `sendData` has returned. -/
def remove (connection : WriteInterest) : Option WriteInterest :=
  match connection.membership, connection.endpoint with
  | .monitored, .user =>
    if connection.closed = false then
      some { connection with closed := true, membership := .leaving }
    else none
  | .monitored, .asynclt =>
    if connection.io = .idle ∨ connection.io = .sendFailed then
      some { connection with io := .idle, membership := .leaving }
    else none
  | _, _ => none

/-- The next operation of the removal: the two stores of `leaveMonitor`, and `sp_del` with the
removal from the collection; `removeMonitored` marks the client at its end. -/
def leave (connection : WriteInterest) : Option WriteInterest :=
  match connection.membership with
  | .leaving => some { connection with efd := false, membership := .leftEfd }
  | .leftEfd => some { connection with enableWrite := false, membership := .left }
  | .left => some { connection with registration := none, closed := true, membership := .out }
  | _ => none

/-- One step of a connection. -/
def step (connection : WriteInterest) : InterestAction → Option WriteInterest
  | .post msg => connection.post msg
  | .proceed => connection.proceed
  | .spAdd => connection.spAdd
  | .joinMonitor =>
    if connection.membership = .added ∧ connection.lockWRQ = .free then
      some { connection with membership := .joining, lockWRQ := .storeFlag }
    else none
  | .insert =>
    if connection.membership = .joined then some { connection with membership := .monitored }
    else none
  | .sendData =>
    if connection.membership = .monitored ∧ connection.io = .idle then
      some (if connection.closed then connection else { connection with io := .opened })
    else none
  | .takeFront => connection.takeFront
  | .send result => connection.send result
  | .putBack => connection.putBack
  | .confirmEmpty => connection.confirmEmpty
  | .remove => connection.remove
  | .leave => connection.leave
  | .ioErrorIgnored =>
    if connection.io = .sendFailed ∧ connection.membership ≠ .monitored then
      some { connection with io := .idle }
    else none
  | .disconnect =>
    if connection.endpoint = .asynclt ∧ connection.membership = .out then
      some { connection with closed := false, fdOpen := false }
    else none
  | .connected =>
    if connection.endpoint = .asynclt ∧ connection.membership = .out ∧
        connection.fdOpen = false then
      some { connection with fdOpen := true }
    else none

/-! ### The invariant -/

/-- How `_enableWrite`, the registration and the queue are related while the connection is joined,
by the place of the holder of the lock. `joinMonitor` finds the registration as `sp_add` or a late
`post` left it. -/
def Armed (connection : WriteInterest) : Prop :=
  match connection.lockWRQ with
  | .free =>
    connection.registration = some connection.enableWrite ∧
      (connection.wrQueue ≠ [] → connection.enableWrite = true)
  | .storeFlag => True
  | .storeEfd => True
  | .checkQueue => connection.enableWrite = false
  | .load .joinMonitor => connection.enableWrite = false
  | .swap .joinMonitor => connection.enableWrite = false
  | .enable .joinMonitor => connection.enableWrite = true
  | .load _ => connection.registration = some connection.enableWrite
  | .swap _ => connection.registration = some connection.enableWrite
  | .enable caller =>
    connection.enableWrite = caller.enable ∧ connection.registration = some (!caller.enable)

/-- How the places of the threads, the registration and the queue of a connection are related. -/
structure Consistent (connection : WriteInterest) : Prop where
  joining : connection.lockWRQ.joining = true ↔ connection.membership = .joining
  storeEfd : connection.lockWRQ = .storeEfd → connection.enableWrite = false
  drain : connection.lockWRQ.caller = some .sendData → connection.io = .foundEmpty
  queue : ∀ caller, connection.lockWRQ.caller = some caller →
    (caller.enable = true ↔ connection.wrQueue ≠ [])
  efd : connection.efd = true → connection.membership.mayHaveEfd = true
  registered : connection.registration.isSome = true ↔ connection.membership ≠ .out
  fdOpen : connection.membership ≠ .out → connection.fdOpen = true
  ioClosed : connection.fdOpen = false → connection.io = .idle
  ioAsynclt : connection.endpoint = .asynclt → connection.membership ≠ .monitored →
    connection.io = .idle
  ioEntering : connection.membership.entering = true → connection.io = .idle
  -- write interest before the connection has joined comes from a `post`
  entering : connection.membership.entering = true → connection.registration = some true →
    connection.wrQueue ≠ []
  -- only the I/O thread clears the flag of a joined connection, and not while it holds a message
  inFlight : connection.efd = true →
    ∀ msg, connection.io = .sending msg ∨ connection.io = .puttingBack msg →
      connection.enableWrite = true

/-- What holds of a connection in every run. -/
structure Invariant (connection : WriteInterest) : Prop extends Consistent connection where
  armed : connection.efd = true → connection.Armed

theorem invariant_new (endpoint : Endpoint) : (new endpoint).Invariant where
  joining := ⟨nofun, nofun⟩
  storeEfd := nofun
  drain := nofun
  queue := nofun
  efd := nofun
  registered := ⟨nofun, fun h ↦ absurd rfl h⟩
  fdOpen h := absurd rfl h
  ioClosed _ := rfl
  ioAsynclt _ _ := rfl
  ioEntering := nofun
  entering := nofun
  inFlight := nofun
  armed := nofun

section Steps

variable {connection next : WriteInterest}

/-! ### The steps under the lock -/

/-- What `Armed` says while nobody holds the lock. -/
def Settled (connection : WriteInterest) : Prop :=
  connection.registration = some connection.enableWrite ∧
    (connection.wrQueue ≠ [] → connection.enableWrite = true)

theorem Invariant.settled (hinv : connection.Invariant) (hefd : connection.efd = true)
    (hlock : connection.lockWRQ = .free) : connection.Settled := by
  have harmed := hinv.armed hefd
  rw [Armed, hlock] at harmed
  exact harmed

/-- While nobody, or a caller other than `joinMonitor`, holds the lock, the connection is not
joining. -/
theorem Consistent.not_joining (hinv : connection.Consistent)
    (hlock : connection.lockWRQ.joining = false) : connection.membership ≠ .joining := by
  intro hmembership
  rw [hinv.joining.mpr hmembership] at hlock
  cases hlock

theorem Consistent.ne_out (hinv : connection.Consistent) (hefd : connection.efd = true) :
    connection.membership ≠ .out := by
  intro hout
  have hmay := hinv.efd hefd
  rw [hout] at hmay
  cases hmay

theorem Invariant.post (hinv : connection.Invariant) {msg : TcpMessage}
    (hpost : connection.post msg = some next) : next.Invariant := by
  rw [WriteInterest.post] at hpost
  split_ifs at hpost with hlock hfull <;> cases hpost
  · exact hinv
  · have hnot := hinv.not_joining (by rw [hlock]; rfl)
    have hqueue : connection.wrQueue ++ [msg] ≠ [] :=
      List.append_ne_nil_of_right_ne_nil _ (List.cons_ne_nil _ _)
    exact { hinv with
      joining := ⟨nofun, fun h ↦ absurd h hnot⟩
      storeEfd := nofun
      drain := nofun
      queue := fun caller hcaller ↦ by
        cases hcaller
        exact ⟨fun _ ↦ hqueue, fun _ ↦ rfl⟩
      entering := fun _ _ ↦ hqueue
      armed := fun hefd ↦ (hinv.settled hefd hlock).1 }

/-- Assumes: the caller is `joinMonitor` exactly if the connection is joining, and the flag agrees
with the registration and the queue if the connection has joined. The lock can be released. -/
theorem Consistent.release (hinv : connection.Consistent) {caller : EnableCaller}
    (hcaller : caller = .joinMonitor ↔ connection.membership = .joining)
    (hsettled : connection.efd = true → connection.Settled) :
    (connection.release caller).Invariant := by
  cases caller with
  | post =>
    have hnot : connection.membership ≠ .joining := fun h ↦ nomatch hcaller.mpr h
    exact { hinv with
      joining := ⟨nofun, fun h ↦ absurd h hnot⟩
      storeEfd := nofun
      drain := nofun
      queue := nofun
      armed := hsettled }
  | sendData =>
    have hnot : connection.membership ≠ .joining := fun h ↦ nomatch hcaller.mpr h
    exact { hinv with
      joining := ⟨nofun, fun h ↦ absurd h hnot⟩
      storeEfd := nofun
      drain := nofun
      queue := nofun
      ioClosed := fun _ ↦ rfl
      ioAsynclt := fun _ _ ↦ rfl
      ioEntering := fun _ ↦ rfl
      inFlight := fun _ _ h ↦ h.elim nofun nofun
      armed := hsettled }
  | joinMonitor =>
    have hjoining := hcaller.mp rfl
    have hin : connection.membership ≠ .out := by
      rw [hjoining]
      decide
    have hidle := hinv.ioEntering (by rw [hjoining]; rfl)
    exact { hinv with
      joining := ⟨nofun, nofun⟩
      storeEfd := nofun
      drain := nofun
      queue := nofun
      efd := fun _ ↦ rfl
      registered := ⟨nofun, fun _ ↦ hinv.registered.mpr hin⟩
      fdOpen := fun _ ↦ hinv.fdOpen hin
      ioAsynclt := fun _ _ ↦ hidle
      ioEntering := nofun
      entering := nofun
      armed := hsettled }

/-- `sp_enable` of the holder of the lock. -/
theorem Consistent.enable (hinv : connection.Consistent) {caller : EnableCaller}
    (hlock : connection.lockWRQ = .enable caller) :
    { connection with
      registration := connection.registration.map fun _ ↦ caller.enable }.Consistent where
  __ := hinv
  registered := by
    rw [Option.isSome_map]
    exact hinv.registered
  entering _ hregistration := by
    have hqueue := hinv.queue caller (by rw [hlock]; rfl)
    cases hold : connection.registration with
    | none =>
      rw [hold] at hregistration
      cases hregistration
    | some interest =>
      rw [hold] at hregistration
      exact hqueue.mp (Option.some.inj hregistration)

/-- The caller that holds the lock is `joinMonitor` exactly if the connection is joining. -/
theorem Consistent.caller_eq_joinMonitor_iff (hinv : connection.Consistent) {caller : EnableCaller}
    (hcaller : connection.lockWRQ.caller = some caller) :
    caller = .joinMonitor ↔ connection.membership = .joining := by
  rw [← hinv.joining]
  cases hlock : connection.lockWRQ <;> rw [hlock] at hcaller <;> cases hcaller <;>
    cases caller <;> decide

/-- Once `joinMonitor` has stored into `_efd`, `enableWrite` finds it set. -/
theorem Invariant.proceed_load (hinv : connection.Invariant) {caller : EnableCaller}
    (hlock : connection.lockWRQ = .load caller) (hefd : connection.efd = true) :
    { connection with lockWRQ := .swap caller }.Invariant := by
  have hcaller : connection.lockWRQ.caller = some caller := by rw [hlock]; rfl
  have hjoining := hinv.joining
  have harmed := hinv.armed hefd
  rw [hlock] at hjoining
  rw [Armed, hlock] at harmed
  exact { hinv with
    joining := by
      rw [← hjoining]
      cases caller <;> rfl
    storeEfd := nofun
    drain := fun h ↦ hinv.drain (hcaller.trans h)
    queue := fun other h ↦ hinv.queue other (hcaller.trans h)
    armed := fun _ ↦ by cases caller <;> exact harmed }

theorem Invariant.proceed_swap (hinv : connection.Invariant) {caller : EnableCaller}
    (hlock : connection.lockWRQ = .swap caller) (hflag : connection.enableWrite = !caller.enable) :
    { connection with enableWrite := caller.enable, lockWRQ := .enable caller }.Invariant := by
  have hcaller : connection.lockWRQ.caller = some caller := by rw [hlock]; rfl
  have hjoining := hinv.joining
  rw [hlock] at hjoining
  exact { hinv with
    joining := by
      rw [← hjoining]
      cases caller <;> rfl
    storeEfd := nofun
    drain := fun h ↦ hinv.drain (hcaller.trans h)
    queue := fun other h ↦ hinv.queue other (hcaller.trans h)
    inFlight := fun hefd msg hmsg ↦ by
      cases caller with
      | post => rfl
      | joinMonitor => rfl
      | sendData =>
        rw [hinv.drain hcaller] at hmsg
        exact hmsg.elim nofun nofun
    armed := fun hefd ↦ by
      have harmed := hinv.armed hefd
      rw [Armed, hlock] at harmed
      cases caller with
      | joinMonitor => rfl
      | post => exact ⟨rfl, harmed.trans (congrArg some hflag)⟩
      | sendData => exact ⟨rfl, harmed.trans (congrArg some hflag)⟩ }

/-- A swap that finds the flag as it is to be leaves the registration right. -/
theorem Invariant.settled_of_swap (hinv : connection.Invariant) {caller : EnableCaller}
    (hlock : connection.lockWRQ = .swap caller) (hflag : connection.enableWrite = caller.enable)
    (hefd : connection.efd = true) : connection.Settled := by
  have harmed := hinv.armed hefd
  have hqueue := hinv.queue caller (by rw [hlock]; rfl)
  rw [Armed, hlock] at harmed
  cases caller with
  | joinMonitor =>
    rw [hflag] at harmed
    cases harmed
  | post => exact ⟨harmed, fun _ ↦ hflag⟩
  | sendData => exact ⟨harmed, fun h ↦ hflag.trans (hqueue.mpr h)⟩

/-- `sp_enable` makes the registration what the flag says. -/
theorem Invariant.settled_of_enable (hinv : connection.Invariant) {caller : EnableCaller}
    (hlock : connection.lockWRQ = .enable caller) (hefd : connection.efd = true) :
    { connection with
      registration := connection.registration.map fun _ ↦ caller.enable }.Settled := by
  have harmed := hinv.armed hefd
  have hqueue := hinv.queue caller (by rw [hlock]; rfl)
  obtain ⟨interest, hregistration⟩ :=
    Option.isSome_iff_exists.mp (hinv.registered.mpr (hinv.ne_out hefd))
  have hflag : connection.enableWrite = caller.enable := by
    rw [Armed, hlock] at harmed
    cases caller with
    | joinMonitor => exact harmed
    | post => exact harmed.1
    | sendData => exact harmed.1
  constructor
  · change connection.registration.map (fun _ ↦ caller.enable) = some connection.enableWrite
    rw [hregistration, hflag, Option.map_some]
  · exact fun h ↦ hflag.trans (hqueue.mpr h)

/-- Without a message in the queue, a connection that joins is registered without write interest. -/
theorem Invariant.settled_of_checkQueue (hinv : connection.Invariant)
    (hlock : connection.lockWRQ = .checkQueue) (hqueue : connection.wrQueue = [])
    (hefd : connection.efd = true) : connection.Settled := by
  have hjoining := hinv.joining.mp (by rw [hlock]; rfl)
  have hin : connection.membership ≠ .out := by
    rw [hjoining]
    decide
  have hflag := hinv.armed hefd
  rw [Armed, hlock] at hflag
  have hnone : connection.registration ≠ some true := fun h ↦
    hinv.entering (by rw [hjoining]; rfl) h hqueue
  obtain ⟨interest, hregistration⟩ := Option.isSome_iff_exists.mp (hinv.registered.mpr hin)
  cases interest with
  | true => exact absurd hregistration hnone
  | false => exact ⟨hregistration.trans (congrArg some hflag.symm), fun h ↦ absurd hqueue h⟩

theorem Invariant.proceed (hinv : connection.Invariant)
    (hproceed : connection.proceed = some next) : next.Invariant := by
  cases hlock : connection.lockWRQ with
  | free =>
    simp only [WriteInterest.proceed, hlock] at hproceed
    cases hproceed
  | storeFlag =>
    simp only [WriteInterest.proceed, hlock] at hproceed
    cases hproceed
    have hjoining := hinv.joining.mp (by rw [hlock]; rfl)
    have hidle := hinv.ioEntering (by rw [hjoining]; rfl)
    exact { hinv with
      joining := ⟨fun _ ↦ hjoining, fun _ ↦ rfl⟩
      storeEfd := fun _ ↦ rfl
      drain := nofun
      queue := nofun
      inFlight := fun _ msg hmsg ↦ by
        rw [hidle] at hmsg
        exact hmsg.elim nofun nofun
      armed := fun _ ↦ trivial }
  | storeEfd =>
    simp only [WriteInterest.proceed, hlock] at hproceed
    cases hproceed
    have hjoining := hinv.joining.mp (by rw [hlock]; rfl)
    have hidle := hinv.ioEntering (by rw [hjoining]; rfl)
    exact { hinv with
      joining := ⟨fun _ ↦ hjoining, fun _ ↦ rfl⟩
      storeEfd := nofun
      drain := nofun
      queue := nofun
      efd := fun _ ↦ by rw [hjoining]; rfl
      inFlight := fun _ msg hmsg ↦ by
        rw [hidle] at hmsg
        exact hmsg.elim nofun nofun
      armed := fun _ ↦ hinv.storeEfd hlock }
  | checkQueue =>
    simp only [WriteInterest.proceed, hlock] at hproceed
    have hjoining := hinv.joining.mp (by rw [hlock]; rfl)
    split_ifs at hproceed with hqueue <;> cases hproceed
    · exact { hinv with
        joining := ⟨fun _ ↦ hjoining, fun _ ↦ rfl⟩
        storeEfd := nofun
        drain := nofun
        queue := fun caller hcaller ↦ by
          cases hcaller
          exact ⟨fun _ ↦ hqueue, fun _ ↦ rfl⟩
        armed := fun hefd ↦ by
          have hflag := hinv.armed hefd
          rw [Armed, hlock] at hflag
          exact hflag }
    · rw [not_not] at hqueue
      exact hinv.release ⟨fun _ ↦ hjoining, fun _ ↦ rfl⟩ (hinv.settled_of_checkQueue hlock hqueue)
  | load caller =>
    simp only [WriteInterest.proceed, hlock] at hproceed
    have hcaller : connection.lockWRQ.caller = some caller := by rw [hlock]; rfl
    split_ifs at hproceed with hleft <;> cases hproceed
    · -- a joined connection has a descriptor, so that `enableWrite` goes on
      refine hinv.release (hinv.caller_eq_joinMonitor_iff hcaller) fun hefd ↦ ?_
      rw [hefd, hinv.fdOpen (hinv.ne_out hefd)] at hleft
      exact hleft.elim nofun nofun
    · rw [not_or] at hleft
      exact hinv.proceed_load hlock (by simpa using hleft.2)
  | swap caller =>
    simp only [WriteInterest.proceed, hlock] at hproceed
    have hcaller : connection.lockWRQ.caller = some caller := by rw [hlock]; rfl
    split_ifs at hproceed with hflag <;> cases hproceed
    · exact hinv.proceed_swap hlock hflag
    · refine hinv.release (hinv.caller_eq_joinMonitor_iff hcaller) (hinv.settled_of_swap hlock ?_)
      simpa using hflag
  | enable caller =>
    simp only [WriteInterest.proceed, hlock] at hproceed
    cases hproceed
    have hcaller : connection.lockWRQ.caller = some caller := by rw [hlock]; rfl
    exact (hinv.enable hlock).release (hinv.caller_eq_joinMonitor_iff hcaller)
      (hinv.settled_of_enable hlock)

/-! ### Joining and leaving -/

/-- Assumes: the connection is out of the event loop and no call of `sendData` is going on. It may
be added to the poll, whatever a late `post` does. -/
theorem Invariant.added (hinv : connection.Invariant) (hout : connection.membership = .out)
    (hidle : connection.io = .idle) :
    { connection with
      fdOpen := true, registration := some false, membership := .added }.Invariant := by
  have hefd : ∀ P : Prop, connection.efd = true → P := fun _ h ↦ absurd hout (hinv.ne_out h)
  have hnot := hinv.joining
  rw [hout] at hnot
  exact { hinv with
    joining := ⟨fun h ↦ absurd (hnot.mp h) nofun, nofun⟩
    efd := hefd _
    registered := ⟨nofun, fun _ ↦ rfl⟩
    fdOpen := fun _ ↦ rfl
    ioClosed := nofun
    ioAsynclt := fun _ _ ↦ hidle
    ioEntering := fun _ ↦ hidle
    entering := nofun
    armed := hefd _ }

theorem Invariant.spAdd (hinv : connection.Invariant) (hadd : connection.spAdd = some next) :
    next.Invariant := by
  rw [WriteInterest.spAdd] at hadd
  split at hadd
  · rename_i hout hendpoint
    split_ifs at hadd with hclosed
    cases hadd
    exact hinv.added hout (hinv.ioClosed hclosed)
  · rename_i hout hendpoint
    split_ifs at hadd with hready
    cases hadd
    have hadded := hinv.added hout (hinv.ioAsynclt hendpoint (by rw [hout]; decide))
    rw [← hready.1] at hadded
    exact hadded
  · cases hadd

theorem Invariant.joinMonitor (hinv : connection.Invariant)
    (hadded : connection.membership = .added) :
    { connection with membership := .joining, lockWRQ := .storeFlag }.Invariant := by
  have hin : connection.membership ≠ .out := by
    rw [hadded]
    decide
  have hentering : connection.membership.entering = true := by
    rw [hadded]
    rfl
  exact { hinv with
    joining := ⟨fun _ ↦ rfl, fun _ ↦ rfl⟩
    storeEfd := nofun
    drain := nofun
    queue := nofun
    efd := fun _ ↦ rfl
    registered := ⟨nofun, fun _ ↦ hinv.registered.mpr hin⟩
    fdOpen := fun _ ↦ hinv.fdOpen hin
    ioAsynclt := fun _ _ ↦ hinv.ioEntering hentering
    ioEntering := fun _ ↦ hinv.ioEntering hentering
    entering := fun _ ↦ hinv.entering hentering
    armed := fun _ ↦ trivial }

/-- Assumes: the connection is in the event loop and not in `joinMonitor`. It moves on to a place
where `_efd` may be what it is, and where the I/O thread may be where it is. -/
theorem Invariant.move (hinv : connection.Invariant) (hin : connection.membership ≠ .out)
    (hnot : connection.membership ≠ .joining) {membership : Membership}
    (hto : membership ≠ .out ∧ membership ≠ .joining ∧ membership.entering = false)
    (hefd : connection.efd = true → membership.mayHaveEfd = true)
    (hidle : connection.endpoint = .asynclt → membership ≠ .monitored → connection.io = .idle) :
    { connection with membership := membership }.Invariant where
  __ := hinv
  joining := ⟨fun h ↦ absurd (hinv.joining.mp h) hnot, fun h ↦ absurd h hto.2.1⟩
  efd := hefd
  registered := ⟨fun _ ↦ hto.1, fun _ ↦ hinv.registered.mpr hin⟩
  fdOpen _ := hinv.fdOpen hin
  ioAsynclt := hidle
  ioEntering h := nomatch hto.2.2.symm.trans h
  entering h := nomatch hto.2.2.symm.trans h

/-- The I/O thread is back from `sendData`. -/
theorem Invariant.idle (hinv : connection.Invariant)
    (hdrain : connection.lockWRQ.caller ≠ some .sendData) :
    { connection with io := .idle }.Invariant where
  __ := hinv
  drain h := absurd h hdrain
  ioClosed _ := rfl
  ioAsynclt _ _ := rfl
  ioEntering _ := rfl
  inFlight _ _ h := h.elim nofun nofun

/-- The closed mark matters to nobody but `sendData`. -/
theorem Invariant.setClosed (hinv : connection.Invariant) (closed : Bool) :
    { connection with closed := closed }.Invariant where
  __ := hinv

theorem Invariant.remove (hinv : connection.Invariant) (hremove : connection.remove = some next) :
    next.Invariant := by
  rw [WriteInterest.remove] at hremove
  split at hremove
  · rename_i hmonitored hendpoint
    split_ifs at hremove with hopen
    cases hremove
    exact (hinv.setClosed true).move (by simp [hmonitored]) (by simp [hmonitored])
      (by decide) (fun _ ↦ rfl) (fun h ↦ nomatch hendpoint.symm.trans h)
  · rename_i hmonitored hendpoint
    split_ifs at hremove with hreturned
    cases hremove
    have hdrain : connection.lockWRQ.caller ≠ some .sendData := by
      intro hcaller
      rw [hinv.drain hcaller] at hreturned
      exact hreturned.elim nofun nofun
    exact (hinv.idle hdrain).move (by simp [hmonitored]) (by simp [hmonitored])
      (by decide) (fun _ ↦ rfl) (fun _ _ ↦ rfl)
  · cases hremove

/-- The first store of `leaveMonitor`. -/
theorem Invariant.clearEfd (hinv : connection.Invariant) :
    { connection with efd := false }.Invariant where
  __ := hinv
  efd := nofun
  inFlight := nofun
  armed := nofun

/-- The second store of `leaveMonitor`. -/
theorem Invariant.clearFlag (hinv : connection.Invariant) (hefd : connection.efd = false) :
    { connection with enableWrite := false }.Invariant where
  __ := hinv
  storeEfd _ := rfl
  inFlight h := nomatch hefd.symm.trans h
  armed h := nomatch hefd.symm.trans h

/-- `sp_del`. -/
theorem Invariant.removed (hinv : connection.Invariant) (hefd : connection.efd = false)
    (hleft : connection.membership = .left) :
    { connection with registration := none, closed := true, membership := .out }.Invariant := by
  have hnot := hinv.joining
  rw [hleft] at hnot
  exact { hinv with
    joining := ⟨fun h ↦ absurd (hnot.mp h) nofun, nofun⟩
    efd := fun h ↦ nomatch hefd.symm.trans h
    registered := ⟨nofun, fun h ↦ absurd rfl h⟩
    fdOpen := fun h ↦ absurd rfl h
    ioAsynclt := fun h _ ↦ hinv.ioAsynclt h (by rw [hleft]; decide)
    ioEntering := nofun
    entering := nofun
    armed := fun h ↦ nomatch hefd.symm.trans h }

theorem Invariant.leave (hinv : connection.Invariant) (hleave : connection.leave = some next) :
    next.Invariant := by
  have hefd : connection.membership.mayHaveEfd = false → connection.efd = false := by
    intro hmay
    rw [← Bool.not_eq_true]
    exact fun h ↦ nomatch hmay.symm.trans (hinv.efd h)
  rw [WriteInterest.leave] at hleave
  split at hleave
  · rename_i hleaving
    cases hleave
    exact hinv.clearEfd.move (by simp [hleaving]) (by simp [hleaving]) (by decide) nofun
      (fun h _ ↦ hinv.ioAsynclt h (by simp [hleaving]))
  · rename_i hleft
    cases hleave
    have hout := hefd (by rw [hleft]; rfl)
    exact (hinv.clearFlag hout).move (by simp [hleft]) (by simp [hleft]) (by decide)
      (fun h ↦ nomatch hout.symm.trans h) (fun h _ ↦ hinv.ioAsynclt h (by simp [hleft]))
  · rename_i hleft
    cases hleave
    exact hinv.removed (hefd (by rw [hleft]; rfl)) hleft
  · cases hleave

/-! ### The I/O thread -/

/-- The connection is one for which `sendData` can be called, or going on. -/
def MaySend (connection : WriteInterest) : Prop :=
  connection.membership.entering = false ∧ connection.fdOpen = true ∧
    (connection.endpoint = .asynclt → connection.membership = .monitored)

theorem Consistent.maySend (hinv : connection.Consistent) (hio : connection.io ≠ .idle) :
    connection.MaySend := by
  refine ⟨?_, ?_, fun hendpoint ↦ ?_⟩
  · rw [← Bool.not_eq_true]
    exact fun h ↦ hio (hinv.ioEntering h)
  · rw [← Bool.not_eq_false]
    exact fun h ↦ hio (hinv.ioClosed h)
  · by_contra hmonitored
    exact hio (hinv.ioAsynclt hendpoint hmonitored)

/-- Assumes: `sendData` is not in its last section. The I/O thread moves on; if it holds a message
then, the flag of a joined connection is set. -/
theorem Invariant.setIo (hinv : connection.Invariant) (hsend : connection.MaySend)
    (hdrain : connection.lockWRQ.caller ≠ some .sendData) {io : IoThread}
    (hflight : connection.efd = true → ∀ msg, io = .sending msg ∨ io = .puttingBack msg →
      connection.enableWrite = true) :
    { connection with io := io }.Invariant where
  __ := hinv
  drain h := absurd h hdrain
  ioClosed h := nomatch hsend.2.1.symm.trans h
  ioAsynclt hendpoint hmonitored := absurd (hsend.2.2 hendpoint) hmonitored
  ioEntering h := nomatch hsend.1.symm.trans h
  inFlight := hflight

/-- Assumes: nobody holds the lock. The I/O thread changes the queue; if there is a message then,
the flag of a joined connection is set. -/
theorem Invariant.setQueue (hinv : connection.Invariant) (hsend : connection.MaySend)
    (hlock : connection.lockWRQ = .free) {wrQueue : List TcpMessage}
    (hflag : connection.efd = true → wrQueue ≠ [] → connection.enableWrite = true) :
    { connection with wrQueue := wrQueue }.Invariant where
  __ := hinv
  queue caller hcaller := by
    change connection.lockWRQ.caller = some caller at hcaller
    rw [hlock] at hcaller
    cases hcaller
  entering h := nomatch hsend.1.symm.trans h
  armed hefd := by
    simp only [Armed, hlock]
    exact ⟨(hinv.settled hefd hlock).1, hflag hefd⟩

/-- In its last section `sendData` has found the queue empty. -/
theorem Consistent.caller_ne_sendData (hinv : connection.Consistent)
    (hio : connection.io ≠ .foundEmpty) : connection.lockWRQ.caller ≠ some .sendData :=
  fun h ↦ hio (hinv.drain h)

theorem Invariant.sendData (hinv : connection.Invariant)
    (hmonitored : connection.membership = .monitored) (hidle : connection.io = .idle) :
    { connection with io := .opened }.Invariant := by
  have hin : connection.membership ≠ .out := by
    rw [hmonitored]
    decide
  have hsend : connection.MaySend := ⟨by rw [hmonitored]; rfl, hinv.fdOpen hin, fun _ ↦ hmonitored⟩
  exact hinv.setIo hsend (hinv.caller_ne_sendData (by simp [hidle])) fun _ _ h ↦ h.elim nofun nofun

theorem Invariant.takeFront (hinv : connection.Invariant)
    (htake : connection.takeFront = some next) : next.Invariant := by
  rw [WriteInterest.takeFront] at htake
  split_ifs at htake with hready
  obtain ⟨hlock, hio⟩ := hready
  have hsend := hinv.maySend (by simp [hio])
  have hdrain := hinv.caller_ne_sendData (by simp [hio])
  split at htake
  · cases htake
    exact hinv.setIo hsend hdrain fun _ _ h ↦ h.elim nofun nofun
  · rename_i msg rest hqueue
    cases htake
    -- the flag is set because of the message that is taken
    have hflag : connection.efd = true → connection.enableWrite = true := fun hefd ↦
      (hinv.settled hefd hlock).2 (by simp [hqueue])
    have hrest : { connection with wrQueue := rest }.Invariant :=
      hinv.setQueue hsend hlock fun hefd _ ↦ hflag hefd
    exact hrest.setIo hsend hdrain fun hefd _ _ ↦ hflag hefd

theorem Invariant.send (hinv : connection.Invariant) {result : SendResult}
    (hsent : connection.send result = some next) : next.Invariant := by
  rw [WriteInterest.send] at hsent
  split at hsent
  · rename_i msg hio
    split_ifs at hsent with hpossible
    cases hsent
    exact hinv.setIo (hinv.maySend (by simp [hio])) (hinv.caller_ne_sendData (by simp [hio]))
      fun hefd _ _ ↦ hinv.inFlight hefd msg (.inl hio)
  · cases hsent

theorem Invariant.putBack (hinv : connection.Invariant) (hput : connection.putBack = some next) :
    next.Invariant := by
  rw [WriteInterest.putBack] at hput
  split at hput
  · rename_i msg hlock hio
    cases hput
    have hback : { connection with wrQueue := msg :: connection.wrQueue }.Invariant :=
      hinv.setQueue (hinv.maySend (by simp [hio])) hlock fun hefd _ ↦
        hinv.inFlight hefd msg (.inr hio)
    exact hback.idle (hinv.caller_ne_sendData (by simp [hio]))
  · cases hput

theorem Invariant.confirmEmpty (hinv : connection.Invariant)
    (hconfirm : connection.confirmEmpty = some next) : next.Invariant := by
  rw [WriteInterest.confirmEmpty] at hconfirm
  split_ifs at hconfirm with hready hqueue <;> cases hconfirm
  · have hnot := hinv.not_joining (by rw [hready.1]; rfl)
    exact { hinv with
      joining := ⟨nofun, fun h ↦ absurd h hnot⟩
      storeEfd := nofun
      drain := fun _ ↦ hready.2
      queue := fun caller hcaller ↦ by
        cases hcaller
        exact ⟨nofun, fun h ↦ absurd hqueue h⟩
      armed := fun hefd ↦ (hinv.settled hefd hready.1).1 }
  · exact hinv.idle (by simp [hready.1, LockWRQ.caller])

/-! ### Runs -/

theorem Invariant.step (hinv : connection.Invariant) {action : InterestAction}
    (hstep : connection.step action = some next) : next.Invariant := by
  cases action with
  | post msg => exact hinv.post hstep
  | proceed => exact hinv.proceed hstep
  | spAdd => exact hinv.spAdd hstep
  | joinMonitor =>
    rw [WriteInterest.step] at hstep
    split_ifs at hstep with hready
    cases hstep
    exact hinv.joinMonitor hready.1
  | insert =>
    rw [WriteInterest.step] at hstep
    split_ifs at hstep with hjoined
    cases hstep
    exact hinv.move (by simp [hjoined]) (by simp [hjoined]) (by decide) (fun _ ↦ rfl)
      (fun _ h ↦ absurd rfl h)
  | sendData =>
    rw [WriteInterest.step] at hstep
    split_ifs at hstep with hready hclosed <;> cases hstep
    · exact hinv
    · exact hinv.sendData hready.1 hready.2
  | takeFront => exact hinv.takeFront hstep
  | send result => exact hinv.send hstep
  | putBack => exact hinv.putBack hstep
  | confirmEmpty => exact hinv.confirmEmpty hstep
  | remove => exact hinv.remove hstep
  | leave => exact hinv.leave hstep
  | ioErrorIgnored =>
    rw [WriteInterest.step] at hstep
    split_ifs at hstep with hready
    cases hstep
    exact hinv.idle (hinv.caller_ne_sendData (by simp [hready.1]))
  | disconnect =>
    rw [WriteInterest.step] at hstep
    split_ifs at hstep with hready
    cases hstep
    have hidle := hinv.ioAsynclt hready.1 (by simp [hready.2])
    exact { hinv with fdOpen := fun h ↦ absurd hready.2 h, ioClosed := fun _ ↦ hidle }
  | connected =>
    rw [WriteInterest.step] at hstep
    split_ifs at hstep with hready
    cases hstep
    exact { hinv with fdOpen := fun _ ↦ rfl, ioClosed := nofun }

end Steps

/-- Every run of a `tcpsock_user` or a `tcpsock_asynclt`, with any number of threads that post.
Whenever the connection is joined and no thread is in a section under `_lockWRQ`, its descriptor is
registered with write interest exactly if `_enableWrite` is set, and both are set if there is a
message in the queue. -/
theorem write_interest (endpoint : Endpoint) (actions : List InterestAction) {final : WriteInterest}
    (hrun : runFrom step (new endpoint) actions = some final) (hefd : final.efd = true)
    (hlock : final.lockWRQ = .free) :
    (final.wrQueue ≠ [] → final.enableWrite = true ∧ final.registration = some true) ∧
      final.registration = some final.enableWrite := by
  have hinv : final.Invariant :=
    runFrom_invariant Invariant (fun _ _ _ hstate hstep ↦ hstate.step hstep)
      (invariant_new endpoint) hrun
  obtain ⟨hregistration, hflag⟩ := hinv.settled hefd hlock
  refine ⟨fun hqueue ↦ ⟨hflag hqueue, ?_⟩, hregistration⟩
  rw [hregistration, hflag hqueue]

/-- A `post` reads `_efd` and the client leaves; the `post` swaps the flag, the client is connected
again and added, the `post` registers write interest for the new descriptor, and then the client
joins. -/
def stalePost : List InterestAction :=
  [.connected, .spAdd, .joinMonitor, .proceed, .proceed, .proceed, .insert, .post ⟨[1]⟩, .proceed,
    .remove, .leave, .leave, .proceed, .leave, .disconnect, .connected, .spAdd, .proceed,
    .joinMonitor, .proceed, .proceed, .proceed, .proceed, .proceed, .proceed]

theorem write_interest_stale_post :
    ∃ final, runFrom step (new .asynclt) stalePost = some final ∧ final.wrQueue = [⟨[1]⟩] ∧
      (final.wrQueue ≠ [] → final.enableWrite = true ∧ final.registration = some true) ∧
      final.registration = some final.enableWrite :=
  ⟨_, rfl, rfl, write_interest .asynclt stalePost rfl rfl rfl⟩

end WriteInterest

end TszyUlt.Zbf
