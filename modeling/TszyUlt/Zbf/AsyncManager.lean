import Mathlib.Data.List.Range
import TszyUlt.Lib.Table
import TszyUlt.Lib.Transition
import TszyUlt.Zbf.SafeQueue

/-!
# The threads of the manager of outbound clients

`zbf/socket_tcp_v5.hpp`: `async_client_manager` with `start`, `manageClient`, `dispatchAsyncMsg` and
`worker`. The I/O thread puts each message in the queue of the worker of its client, and the workers
call `onResponse`. The worker of a client is given by the place of the client among all of them, by
the same formula in `start` and in `manageClient`, so it is the same whichever comes first.

`AsyncManager` is the manager with all that is under way, and the logs of an observer. A step is one
section under a lock or one access to `_workerIdx`, which the dispatcher reads without a lock.

`ManagerInv` says where the messages of a connection are: those dispatched and not dropped are the
ones passed on, followed by the ones in the queue of its worker. From it, `passed_inOrder`.

Scope. `start` is called once, and `stop` is not modelled. A client is managed once, since the
manager deletes it. Which messages arrive on a connection is an input; they arrive once the monitor
has found the client among those of the manager.
-/

set_option autoImplicit false
set_option relaxedAutoImplicit false

namespace TszyUlt.Zbf

open Lib

/-! ### The queues -/

section Queues

variable {α : Type} {queues : List (SafeQueue α)} {worker : ℕ} {queue : SafeQueue α}

/-- The entries of a queue, of which there are none where there is no queue. -/
def itemsAt (queues : List (SafeQueue α)) (worker : ℕ) : List α :=
  (queues[worker]?.map SafeQueue.items).getD []

theorem itemsAt_of_some (hqueue : queues[worker]? = some queue) :
    itemsAt queues worker = queue.items := by
  rw [itemsAt, hqueue]
  rfl

theorem itemsAt_set_self (hqueue : queues[worker]? = some queue) (next : SafeQueue α) :
    itemsAt (queues.set worker next) worker = next.items :=
  itemsAt_of_some (getElem?_set_of_some hqueue)

theorem itemsAt_set_ne {other : ℕ} (hne : worker ≠ other) (next : SafeQueue α) :
    itemsAt (queues.set worker next) other = itemsAt queues other := by
  rw [itemsAt, List.getElem?_set_ne hne]
  rfl

theorem itemsAt_replicate_new (count worker : ℕ) :
    itemsAt (List.replicate count (SafeQueue.new : SafeQueue α)) worker = [] := by
  rw [itemsAt, List.getElem?_replicate]
  split
  · rfl
  · rfl

end Queues

/-! ### The manager -/

/-- A TCP connection: its `tcpsock_ha_asynclt` by its place in `_haClients`, which
`tcpsock_asynclt` of it, and which connection of that one. -/
structure TcpConn where
  haClt : ℕ
  clt : ℕ
  session : ℕ
  deriving DecidableEq, Repr

/-- A message that `getRecvMsg` has returned, numbered by an observer. -/
structure RecvMsg (M : Type) where
  number : ℕ
  conn : TcpConn
  msg : M
  deriving DecidableEq, Repr

/-- `AsyncMsgPtr`. -/
structure AsyncMsgPtr (M : Type) where
  msg : RecvMsg M
  haClt : ℕ
  deriving DecidableEq, Repr

/-- `tcpsock_ha_asynclt`, as far as the manager writes to it. -/
structure HaAsyncClt where
  workerIdx : ℕ := 0
  deriving DecidableEq, Repr

/-- Where the I/O thread is. -/
inductive IoAt (M : Type)
  | polling
  /-- Before `_workerIdx` is read. -/
  | dispatching (msg : RecvMsg M)
  /-- Before the push into a queue. -/
  | pushing (msg : RecvMsg M) (idx : ℕ)
  deriving DecidableEq, Repr

/-- The message that the I/O thread has in hand. -/
def IoAt.inHand {M : Type} : IoAt M → List (RecvMsg M)
  | .polling => []
  | .dispatching msg => [msg]
  | .pushing msg _ => [msg]

/-- The record of a dispatch: the message, the queue, and how many entries it held. -/
structure Dispatch (M : Type) where
  msg : RecvMsg M
  idx : ℕ
  depth : ℕ
  deriving DecidableEq, Repr

/-- The record of a call of `onResponse`: the worker, the client, and the message. -/
structure Response (M : Type) where
  worker : ℕ
  haClt : ℕ
  msg : RecvMsg M
  deriving DecidableEq, Repr

/-- `async_client_manager`. The logs are an observer's. -/
structure AsyncManager (M : Type) where
  workerNum : ℕ := 0
  haClients : List HaAsyncClt := []
  recvQueues : List (SafeQueue (AsyncMsgPtr M)) := []
  /-- The threads have been started. -/
  started : Bool := false
  io : IoAt M := .polling
  /-- The entry for which each worker is in `onResponse`. -/
  workers : List (Option (AsyncMsgPtr M)) := []
  extracted : List (RecvMsg M) := []
  dispatched : List (Dispatch M) := []
  responses : List (Response M) := []

/-- A step of the manager. -/
inductive ManagerAction (M : Type)
  | manageClient
  /-- `start` sets `_workerNum` and makes the queues. -/
  | createQueues (workerNum : ℤ)
  /-- `start` gives the clients their workers, and starts the threads. -/
  | assignWorkers
  | getRecvMsg (conn : TcpConn) (msg : M)
  | readWorkerIdx
  | push
  | pop (worker : ℕ)
  /-- `onResponse` returns. -/
  | returned (worker : ℕ)

/-- `MaxPendingMsg` of the manager. -/
def AsyncManager.maxPendingMsg : ℕ := 512

/-- `MaxWorkers`. -/
def AsyncManager.maxWorkers : ℤ := 16

/-- The queue had room. -/
def Dispatch.taken {M : Type} (dispatch : Dispatch M) : Bool :=
  dispatch.depth < AsyncManager.maxPendingMsg

namespace AsyncManager

variable {M : Type}

/-- `manageClient`. -/
def manageClient (manager : AsyncManager M) : AsyncManager M :=
  let workerIdx :=
    if 0 < manager.workerNum then manager.haClients.length % manager.workerNum else 0
  { manager with haClients := manager.haClients ++ [{ workerIdx }] }

/-- `dispatchAsyncMsg`, from the push on. -/
def pushMsg (manager : AsyncManager M) (msg : RecvMsg M) (idx : ℕ)
    (queue : SafeQueue (AsyncMsgPtr M)) : AsyncManager M :=
  { manager with
    recvQueues := manager.recvQueues.set idx (queue.push maxPendingMsg ⟨msg, msg.conn.haClt⟩).2
    io := .polling
    dispatched := manager.dispatched ++ [⟨msg, idx, queue.items.length⟩] }

/-- What a worker does with the entry that it popped, up to the call of `onResponse`. -/
def passOn (manager : AsyncManager M) (worker : ℕ) (ptr : AsyncMsgPtr M)
    (queue : SafeQueue (AsyncMsgPtr M)) : AsyncManager M :=
  { manager with
    recvQueues := manager.recvQueues.set worker queue
    workers := manager.workers.set worker (some ptr)
    responses := manager.responses ++ [⟨worker, ptr.haClt, ptr.msg⟩] }

/-- The steps of the threads. -/
def step (manager : AsyncManager M) : ManagerAction M → Option (AsyncManager M)
  | .manageClient => some manager.manageClient
  | .createQueues workerNum =>
    if manager.workerNum = 0 then
      let workerNum := (min (max workerNum 1) maxWorkers).toNat
      some { manager with workerNum, recvQueues := List.replicate workerNum SafeQueue.new }
    else none
  | .assignWorkers =>
    if 0 < manager.workerNum ∧ manager.started = false then
      some { manager with
        haClients := manager.haClients.mapIdx fun i _ ↦ { workerIdx := i % manager.workerNum }
        started := true
        workers := List.replicate manager.workerNum none }
    else none
  | .getRecvMsg conn msg =>
    if manager.started = true ∧ conn.haClt < manager.haClients.length then
      match manager.io with
      | .polling =>
        let recv : RecvMsg M := ⟨manager.extracted.length, conn, msg⟩
        some { manager with io := .dispatching recv, extracted := manager.extracted ++ [recv] }
      | _ => none
    else none
  | .readWorkerIdx =>
    match manager.io with
    | .dispatching msg =>
      match manager.haClients[msg.conn.haClt]? with
      | none => none
      | some haClt => some { manager with io := .pushing msg haClt.workerIdx }
    | _ => none
  | .push =>
    match manager.io with
    | .pushing msg idx =>
      match manager.recvQueues[idx]? with
      | none => none
      | some queue => some (manager.pushMsg msg idx queue)
    | _ => none
  | .pop worker =>
    match manager.workers[worker]?, manager.recvQueues[worker]? with
    | some none, some queue =>
      match queue.popTimeout with
      | (.success ptr, queue) => some (manager.passOn worker ptr queue)
      | (.timeout, _) => some manager
      | (.exit, _) => none
    | _, _ => none
  | .returned worker =>
    match manager.workers[worker]? with
    | some (some _) => some { manager with workers := manager.workers.set worker none }
    | _ => none

/-! ### What an observer sees -/

/-- The messages extracted from a connection. -/
def extractedFrom (manager : AsyncManager M) (conn : TcpConn) : List (RecvMsg M) :=
  manager.extracted.filter fun msg ↦ msg.conn = conn

/-- The messages of a connection that were passed to `onResponse`. -/
def passedOn (manager : AsyncManager M) (conn : TcpConn) : List (RecvMsg M) :=
  (manager.responses.map Response.msg).filter fun msg ↦ msg.conn = conn

/-- The messages in a queue. -/
def queued (manager : AsyncManager M) (worker : ℕ) : List (RecvMsg M) :=
  (itemsAt manager.recvQueues worker).map AsyncMsgPtr.msg

/-! ### The invariant -/

/-- The messages of a connection that found room in their queue. -/
def keptOf (manager : AsyncManager M) (conn : TcpConn) : List (RecvMsg M) :=
  ((manager.dispatched.filter Dispatch.taken).map Dispatch.msg).filter fun msg ↦ msg.conn = conn

/-- The worker of a client. -/
def home (manager : AsyncManager M) (haClt : ℕ) : ℕ := haClt % manager.workerNum

/-- An entry is with the worker of the client that owns the connection. -/
def AtHome (manager : AsyncManager M) (worker : ℕ) (ptr : AsyncMsgPtr M) : Prop :=
  ptr.haClt = ptr.msg.conn.haClt ∧ manager.home ptr.haClt = worker

/-- Before `start` there are no queues, and nothing is under way. -/
structure Untouched (manager : AsyncManager M) : Prop where
  indices : ∀ haClt ∈ manager.haClients, haClt.workerIdx = 0
  recvQueues : manager.recvQueues = []
  started : manager.started = false
  io : manager.io = .polling
  workers : manager.workers = []
  dispatched : manager.dispatched = []
  responses : manager.responses = []

/-- The invariant of the manager. -/
structure ManagerInv (manager : AsyncManager M) : Prop where
  untouched : manager.workerNum = 0 → manager.Untouched
  queues : manager.recvQueues.length = manager.workerNum
  /-- A client has its worker once the threads run, and a worker that exists before. -/
  indices : ∀ (i : ℕ) (haClt : HaAsyncClt), manager.haClients[i]? = some haClt →
    (0 < manager.workerNum → haClt.workerIdx < manager.workerNum) ∧
      (manager.started = true → haClt.workerIdx = manager.home i)
  running : manager.io ≠ .polling → manager.started = true
  /-- The queue that was chosen is that of the client. -/
  chosen : ∀ msg idx, manager.io = .pushing msg idx → idx = manager.home msg.conn.haClt
  queuedHome : ∀ (worker : ℕ) (queue : SafeQueue (AsyncMsgPtr M)),
    manager.recvQueues[worker]? = some queue →
      queue.items.length ≤ maxPendingMsg ∧ ∀ ptr ∈ queue.items, manager.AtHome worker ptr
  workingHome : ∀ (worker : ℕ) (ptr : AsyncMsgPtr M),
    manager.workers[worker]? = some (some ptr) → manager.AtHome worker ptr
  owned : ∀ response ∈ manager.responses, response.haClt = response.msg.conn.haClt
  numbered : manager.extracted.map RecvMsg.number = List.range manager.extracted.length
  handed : manager.extracted = manager.dispatched.map Dispatch.msg ++ manager.io.inHand
  depths : ∀ dispatch ∈ manager.dispatched, dispatch.depth ≤ maxPendingMsg
  /-- What found room has been passed on or is in the queue of the worker. -/
  kept : ∀ conn, manager.keptOf conn = manager.passedOn conn ++
    (manager.queued (manager.home conn.haClt)).filter fun msg ↦ msg.conn = conn

theorem managerInv_new : ManagerInv ({} : AsyncManager M) where
  untouched := fun _ ↦ ⟨fun _ hmem ↦ (by cases hmem), rfl, rfl, rfl, rfl, rfl, rfl⟩
  queues := rfl
  indices := fun _ _ hclt ↦ by cases hclt
  running := fun hio ↦ absurd rfl hio
  chosen := fun _ _ hio ↦ by cases hio
  queuedHome := fun _ _ hqueue ↦ by cases hqueue
  workingHome := fun _ _ hworker ↦ by cases hworker
  owned := fun _ hmem ↦ by cases hmem
  numbered := rfl
  handed := rfl
  depths := fun _ hmem ↦ by cases hmem
  kept := fun _ ↦ rfl

variable {manager next : AsyncManager M}

theorem ManagerInv.pos_of_started (hinv : manager.ManagerInv) (hstarted : manager.started = true) :
    0 < manager.workerNum := by
  refine Nat.pos_of_ne_zero fun hzero ↦ ?_
  rw [(hinv.untouched hzero).started] at hstarted
  cases hstarted

theorem ManagerInv.manageClient (hinv : manager.ManagerInv) : manager.manageClient.ManagerInv where
  untouched := by
    intro (hzero : manager.workerNum = 0)
    have huntouched := hinv.untouched hzero
    refine { huntouched with indices := fun haClt hmem ↦ ?_ }
    rcases List.mem_append.mp hmem with hold | hnew
    · exact huntouched.indices haClt hold
    · rw [List.mem_singleton.mp hnew]
      exact if_neg (Nat.not_lt.mpr (Nat.le_zero.mpr hzero))
  queues := hinv.queues
  indices := by
    intro i haClt hclt
    rcases getElem?_concat_cases hclt with hold | ⟨rfl, rfl⟩
    · exact hinv.indices i haClt hold
    · constructor
      · intro (hpos : 0 < manager.workerNum)
        simp only [if_pos hpos]
        exact Nat.mod_lt _ hpos
      · intro hstarted
        exact if_pos (hinv.pos_of_started hstarted)
  running := hinv.running
  chosen := hinv.chosen
  queuedHome := hinv.queuedHome
  workingHome := hinv.workingHome
  owned := hinv.owned
  numbered := hinv.numbered
  handed := hinv.handed
  depths := hinv.depths
  kept := hinv.kept

/-- What `createQueues` makes. -/
theorem ManagerInv.createQueues (hinv : manager.ManagerInv) (hzero : manager.workerNum = 0)
    {workerNum : ℕ} (hpos : 0 < workerNum) :
    ({ manager with
      workerNum, recvQueues := List.replicate workerNum SafeQueue.new }).ManagerInv := by
  have huntouched := hinv.untouched hzero
  exact
    { untouched := fun hzero' ↦ absurd hzero' (Nat.ne_of_gt hpos)
      queues := List.length_replicate
      indices := by
        intro i haClt hclt
        refine ⟨fun _ ↦ ?_, fun hstarted ↦ ?_⟩
        · rw [huntouched.indices haClt (List.mem_of_getElem? hclt)]
          exact hpos
        · rw [huntouched.started] at hstarted
          cases hstarted
      running := hinv.running
      chosen := fun msg idx hio ↦ by rw [huntouched.io] at hio; cases hio
      queuedHome := by
        intro worker queue hfound
        rw [← itemsAt_of_some hfound, itemsAt_replicate_new]
        exact ⟨Nat.zero_le _, fun ptr hptr ↦ by cases hptr⟩
      workingHome := fun worker ptr hworker ↦ by rw [huntouched.workers] at hworker; cases hworker
      owned := hinv.owned
      numbered := hinv.numbered
      handed := hinv.handed
      depths := hinv.depths
      kept := by
        intro conn
        simp only [keptOf, passedOn, queued, huntouched.dispatched, huntouched.responses,
          itemsAt_replicate_new]
        rfl }

theorem ManagerInv.assignWorkers (hinv : manager.ManagerInv) (hpos : 0 < manager.workerNum) :
    ({ manager with
      haClients := manager.haClients.mapIdx fun i _ ↦ { workerIdx := i % manager.workerNum }
      started := true
      workers := List.replicate manager.workerNum none }).ManagerInv :=
  { hinv with
    untouched := fun hzero ↦ absurd hzero (Nat.ne_of_gt hpos)
    indices := by
      intro i haClt hclt
      rw [List.getElem?_mapIdx, Option.map_eq_some_iff] at hclt
      obtain ⟨_, -, rfl⟩ := hclt
      exact ⟨fun _ ↦ Nat.mod_lt i hpos, fun _ ↦ rfl⟩
    running := fun _ ↦ rfl
    workingHome := by
      intro worker ptr hworker
      have hnone := List.eq_of_mem_replicate (List.mem_of_getElem? hworker)
      cases hnone }

theorem ManagerInv.getRecvMsg (hinv : manager.ManagerInv) (hstarted : manager.started = true)
    (hio : manager.io = .polling) {msg : RecvMsg M}
    (hnumber : msg.number = manager.extracted.length) :
    ({ manager with
      io := .dispatching msg
      extracted := manager.extracted ++ [msg] }).ManagerInv :=
  { hinv with
    untouched := fun hzero ↦ absurd hzero (Nat.ne_of_gt (hinv.pos_of_started hstarted))
    running := fun _ ↦ hstarted
    chosen := fun _ _ hpushing ↦ by cases hpushing
    numbered := by
      rw [List.map_append, hinv.numbered, List.length_append, List.length_singleton,
        List.range_succ, List.map_singleton, hnumber]
    handed := by
      have hhanded := hinv.handed
      rw [hio, IoAt.inHand, List.append_nil] at hhanded
      rw [IoAt.inHand, ← hhanded] }

theorem ManagerInv.readWorkerIdx (hinv : manager.ManagerInv) {msg : RecvMsg M}
    (hio : manager.io = .dispatching msg) {haClt : HaAsyncClt}
    (hclt : manager.haClients[msg.conn.haClt]? = some haClt) :
    ({ manager with io := .pushing msg haClt.workerIdx }).ManagerInv := by
  have hstarted : manager.started = true := hinv.running (by simp [hio])
  exact
    { hinv with
      untouched := fun hzero ↦ absurd hzero (Nat.ne_of_gt (hinv.pos_of_started hstarted))
      running := fun _ ↦ hstarted
      chosen := by
        intro other idx hother
        cases hother
        exact (hinv.indices _ haClt hclt).2 hstarted
      handed := by
        have hhanded := hinv.handed
        rw [hio] at hhanded
        exact hhanded }

/-- A push leaves a message in the queue if it has room. -/
theorem queued_pushMsg {msg : RecvMsg M} {idx : ℕ} {queue : SafeQueue (AsyncMsgPtr M)}
    (hqueue : manager.recvQueues[idx]? = some queue) (worker : ℕ) :
    (manager.pushMsg msg idx queue).queued worker = manager.queued worker ++
      if idx = worker ∧ queue.items.length < maxPendingMsg then [msg] else [] := by
  unfold queued AsyncManager.pushMsg SafeQueue.push
  by_cases hidx : idx = worker
  · subst hidx
    rw [itemsAt_set_self hqueue, itemsAt_of_some hqueue]
    split
    next hroom => simp [hroom]
    next hfull => simp [hfull]
  · rw [itemsAt_set_ne hidx, if_neg (fun hand ↦ hidx hand.1), List.append_nil]

theorem keptOf_pushMsg (msg : RecvMsg M) (idx : ℕ) (queue : SafeQueue (AsyncMsgPtr M))
    (conn : TcpConn) :
    (manager.pushMsg msg idx queue).keptOf conn = manager.keptOf conn ++
      if msg.conn = conn ∧ queue.items.length < maxPendingMsg then [msg] else [] := by
  by_cases hroom : queue.items.length < maxPendingMsg <;> by_cases hconn : msg.conn = conn <;>
    simp [keptOf, AsyncManager.pushMsg, Dispatch.taken, hroom, hconn]

/-- The message goes to the queue of its own connection, so no other connection sees it. -/
theorem ManagerInv.kept_pushMsg (hinv : manager.ManagerInv) {msg : RecvMsg M} {idx : ℕ}
    (hio : manager.io = .pushing msg idx) {queue : SafeQueue (AsyncMsgPtr M)}
    (hqueue : manager.recvQueues[idx]? = some queue) (conn : TcpConn) :
    (manager.pushMsg msg idx queue).keptOf conn = (manager.pushMsg msg idx queue).passedOn conn ++
      ((manager.pushMsg msg idx queue).queued (manager.home conn.haClt)).filter
        fun msg ↦ msg.conn = conn := by
  have hpassed : (manager.pushMsg msg idx queue).passedOn conn = manager.passedOn conn := rfl
  rw [keptOf_pushMsg, hinv.kept conn, queued_pushMsg hqueue, hpassed, List.filter_append,
    ← List.append_assoc]
  refine congrArg _ ?_
  by_cases hconn : msg.conn = conn
  · subst hconn
    have hhome : idx = manager.home msg.conn.haClt := hinv.chosen msg idx hio
    simp only [← hhome, true_and]
    split <;> simp
  · rw [if_neg fun hand ↦ hconn hand.1]
    split <;> simp [hconn]

theorem ManagerInv.pushMsg (hinv : manager.ManagerInv) {msg : RecvMsg M} {idx : ℕ}
    (hio : manager.io = .pushing msg idx) {queue : SafeQueue (AsyncMsgPtr M)}
    (hqueue : manager.recvQueues[idx]? = some queue) :
    (manager.pushMsg msg idx queue).ManagerInv := by
  have hhome : idx = manager.home msg.conn.haClt := hinv.chosen msg idx hio
  obtain ⟨hlength, hentries⟩ := hinv.queuedHome idx queue hqueue
  have hstarted : manager.started = true := hinv.running (by simp [hio])
  exact
    { hinv with
      untouched := fun hzero ↦ absurd hzero (Nat.ne_of_gt (hinv.pos_of_started hstarted))
      queues := List.length_set.trans hinv.queues
      running := fun hpolling ↦ absurd rfl hpolling
      chosen := fun _ _ hpushing ↦ by cases hpushing
      queuedHome := by
        intro worker found hfound
        rcases getElem?_set_cases hfound with ⟨rfl, rfl⟩ | ⟨-, hold⟩
        · unfold SafeQueue.push
          split
          next hroom =>
            refine ⟨?_, fun ptr hptr ↦ ?_⟩
            · rw [List.length_append]
              exact hroom
            rcases List.mem_append.mp hptr with hold | hnew
            · exact hentries ptr hold
            · rw [List.mem_singleton.mp hnew]
              exact ⟨rfl, hhome.symm⟩
          next => exact ⟨hlength, hentries⟩
        · exact hinv.queuedHome worker found hold
      handed := by
        have hhanded := hinv.handed
        rw [hio] at hhanded
        simpa [AsyncManager.pushMsg, IoAt.inHand] using hhanded
      depths := by
        intro dispatch hmem
        rcases List.mem_append.mp hmem with hold | hnew
        · exact hinv.depths dispatch hold
        · rw [List.mem_singleton.mp hnew]
          exact hlength
      kept := hinv.kept_pushMsg hio hqueue }

/-- A pop takes the front of the queue of the worker. -/
theorem queued_passOn {worker : ℕ} {ptr : AsyncMsgPtr M} {queue rest : SafeQueue (AsyncMsgPtr M)}
    (hqueue : manager.recvQueues[worker]? = some queue) (hfront : queue.items = ptr :: rest.items)
    (other : ℕ) :
    manager.queued other =
      (if worker = other then [ptr.msg] else []) ++
        (manager.passOn worker ptr rest).queued other := by
  unfold queued passOn
  by_cases hother : worker = other
  · subst hother
    rw [itemsAt_of_some hqueue, hfront, itemsAt_set_self hqueue, if_pos rfl]
    rfl
  · rw [itemsAt_set_ne hother, if_neg hother]
    rfl

theorem passedOn_passOn (worker : ℕ) (ptr : AsyncMsgPtr M) (rest : SafeQueue (AsyncMsgPtr M))
    (conn : TcpConn) :
    (manager.passOn worker ptr rest).passedOn conn =
      manager.passedOn conn ++ if ptr.msg.conn = conn then [ptr.msg] else [] := by
  by_cases hconn : ptr.msg.conn = conn <;> simp [passedOn, passOn, hconn]

/-- An entry of a connection is in the queue of the worker of this connection. -/
theorem ManagerInv.kept_passOn (hinv : manager.ManagerInv) {worker : ℕ} {ptr : AsyncMsgPtr M}
    {queue rest : SafeQueue (AsyncMsgPtr M)} (hqueue : manager.recvQueues[worker]? = some queue)
    (hfront : queue.items = ptr :: rest.items) (conn : TcpConn) :
    manager.keptOf conn = (manager.passOn worker ptr rest).passedOn conn ++
      ((manager.passOn worker ptr rest).queued (manager.home conn.haClt)).filter
        fun msg ↦ msg.conn = conn := by
  rw [hinv.kept conn, queued_passOn hqueue hfront, passedOn_passOn, List.filter_append,
    ← List.append_assoc]
  refine congrArg (· ++ _) (congrArg _ ?_)
  by_cases hconn : ptr.msg.conn = conn
  · subst hconn
    have hptr : manager.AtHome worker ptr :=
      (hinv.queuedHome worker queue hqueue).2 ptr (by simp [hfront])
    have hworker : worker = manager.home ptr.msg.conn.haClt := by rw [← hptr.2, hptr.1]
    rw [if_pos hworker, if_pos rfl]
    simp
  · rw [if_neg hconn]
    split <;> simp [hconn]

theorem ManagerInv.passOn (hinv : manager.ManagerInv) {worker : ℕ} {ptr : AsyncMsgPtr M}
    {queue rest : SafeQueue (AsyncMsgPtr M)} (hqueue : manager.recvQueues[worker]? = some queue)
    (hfront : queue.items = ptr :: rest.items) :
    (manager.passOn worker ptr rest).ManagerInv := by
  obtain ⟨hlength, hentries⟩ := hinv.queuedHome worker queue hqueue
  rw [hfront] at hlength hentries
  have hptr : manager.AtHome worker ptr := hentries ptr List.mem_cons_self
  exact
    { hinv with
      untouched := by
        intro hzero
        rw [(hinv.untouched hzero).recvQueues] at hqueue
        cases hqueue
      queues := List.length_set.trans hinv.queues
      queuedHome := by
        intro other found hfound
        rcases getElem?_set_cases hfound with ⟨rfl, rfl⟩ | ⟨-, hold⟩
        · exact ⟨Nat.le_of_succ_le hlength,
            fun other hmem ↦ hentries other (List.mem_cons_of_mem ptr hmem)⟩
        · exact hinv.queuedHome other found hold
      workingHome := by
        intro other found hfound
        rcases getElem?_set_cases hfound with ⟨rfl, heq⟩ | ⟨-, hold⟩
        · cases heq
          exact hptr
        · exact hinv.workingHome other found hold
      owned := by
        intro response hmem
        rcases List.mem_append.mp hmem with hold | hnew
        · exact hinv.owned response hold
        · rw [List.mem_singleton.mp hnew]
          exact hptr.1
      kept := hinv.kept_passOn hqueue hfront }

theorem ManagerInv.returned (hinv : manager.ManagerInv) {worker : ℕ} {found : AsyncMsgPtr M}
    (hworker : manager.workers[worker]? = some (some found)) :
    ({ manager with workers := manager.workers.set worker none }).ManagerInv :=
  { hinv with
    untouched := by
      intro hzero
      rw [(hinv.untouched hzero).workers] at hworker
      cases hworker
    workingHome := by
      intro other ptr hptr
      rcases getElem?_set_cases hptr with ⟨-, heq⟩ | ⟨-, hold⟩
      · cases heq
      · exact hinv.workingHome other ptr hold }

theorem step_managerInv {action : ManagerAction M} (hinv : manager.ManagerInv)
    (hstep : manager.step action = some next) : next.ManagerInv := by
  cases action with
  | manageClient =>
    cases hstep
    exact hinv.manageClient
  | createQueues workerNum =>
    simp only [step] at hstep
    split at hstep
    next hzero =>
      cases hstep
      refine hinv.createQueues hzero ?_
      simp only [maxWorkers]
      omega
    next => cases hstep
  | assignWorkers =>
    simp only [step] at hstep
    split at hstep
    next hready =>
      cases hstep
      exact hinv.assignWorkers hready.1
    next => cases hstep
  | getRecvMsg conn msg =>
    simp only [step] at hstep
    split at hstep
    next hready =>
      split at hstep
      next hio =>
        cases hstep
        exact hinv.getRecvMsg hready.1 hio rfl
      next => cases hstep
    next => cases hstep
  | readWorkerIdx =>
    simp only [step] at hstep
    split at hstep
    next msg hio =>
      split at hstep
      · cases hstep
      next haClt hclt =>
        cases hstep
        exact hinv.readWorkerIdx hio hclt
    next => cases hstep
  | push =>
    simp only [step] at hstep
    split at hstep
    next msg idx hio =>
      split at hstep
      · cases hstep
      next queue hqueue =>
        cases hstep
        exact hinv.pushMsg hio hqueue
    next => cases hstep
  | pop worker =>
    simp only [step] at hstep
    split at hstep
    next queue hworker hqueue =>
      split at hstep
      next ptr rest hpop =>
        cases hstep
        exact hinv.passOn hqueue (SafeQueue.popTimeout_eq_success hpop)
      next =>
        cases hstep
        exact hinv
      next => cases hstep
    next => cases hstep
  | returned worker =>
    simp only [step] at hstep
    split at hstep
    next found hworker =>
      cases hstep
      exact hinv.returned hworker
    next => cases hstep

theorem managerInv_of_run {actions : List (ManagerAction M)}
    (hrun : runFrom step {} actions = some manager) : manager.ManagerInv :=
  runFrom_invariant ManagerInv (fun _ _ _ hinv hstep ↦ step_managerInv hinv hstep) managerInv_new
    hrun

/-! ### The responses of a connection -/

/-- What is promised of the responses. -/
structure InOrder (manager : AsyncManager M) : Prop where
  /-- The messages of a connection are passed on in the order in which they were extracted, -/
  ordered : ∀ conn, (manager.passedOn conn).Sublist (manager.extractedFrom conn)
  /-- each at most once, -/
  once : ∀ conn, (manager.passedOn conn).Nodup
  /-- to the client that owns the connection, -/
  owned : ∀ response ∈ manager.responses, response.haClt = response.msg.conn.haClt
  /-- and one that has not been passed on is under way, or its queue was full at the dispatch. -/
  omitted : ∀ msg ∈ manager.extracted,
    msg ∈ manager.responses.map Response.msg ∨ msg ∈ manager.io.inHand ∨
      (∃ worker, msg ∈ manager.queued worker) ∨
        ∃ dispatch ∈ manager.dispatched, dispatch.msg = msg ∧ dispatch.depth = maxPendingMsg
  /-- Once there are queues, every client has one of them, -/
  valid : manager.recvQueues ≠ [] → ∀ haClt ∈ manager.haClients,
    haClt.workerIdx < manager.recvQueues.length
  /-- also the one whose index the dispatcher has read. -/
  inRange : ∀ msg idx, manager.io = .pushing msg idx → idx < manager.recvQueues.length
  /-- Two workers are not in `onResponse` of one client. -/
  alone : ∀ (worker worker' : ℕ) (ptr ptr' : AsyncMsgPtr M),
    manager.workers[worker]? = some (some ptr) → manager.workers[worker']? = some (some ptr') →
      ptr.haClt = ptr'.haClt → worker = worker'

theorem ManagerInv.nodup_extracted (hinv : manager.ManagerInv) : manager.extracted.Nodup := by
  refine List.Nodup.of_map RecvMsg.number ?_
  rw [hinv.numbered]
  exact List.nodup_range

theorem ManagerInv.passedOn_sublist (hinv : manager.ManagerInv) (conn : TcpConn) :
    (manager.passedOn conn).Sublist (manager.extractedFrom conn) :=
  calc (manager.passedOn conn).Sublist (manager.keptOf conn) := by
        rw [hinv.kept conn]
        exact List.sublist_append_left _ _
    List.Sublist _ (manager.extractedFrom conn) := by
        unfold keptOf extractedFrom
        rw [hinv.handed]
        refine List.Sublist.filter _ ?_
        exact (List.filter_sublist.map _).trans (List.sublist_append_left _ _)

theorem ManagerInv.omitted (hinv : manager.ManagerInv) {msg : RecvMsg M}
    (hmsg : msg ∈ manager.extracted) :
    msg ∈ manager.responses.map Response.msg ∨ msg ∈ manager.io.inHand ∨
      (∃ worker, msg ∈ manager.queued worker) ∨
        ∃ dispatch ∈ manager.dispatched, dispatch.msg = msg ∧ dispatch.depth = maxPendingMsg := by
  rw [hinv.handed] at hmsg
  rcases List.mem_append.mp hmsg with hdispatched | hhand
  · obtain ⟨dispatch, hdispatch, rfl⟩ := List.mem_map.mp hdispatched
    rcases Nat.lt_or_eq_of_le (hinv.depths dispatch hdispatch) with hroom | hfull
    · have hkept : dispatch.msg ∈ manager.keptOf dispatch.msg.conn := by
        refine List.mem_filter.mpr ⟨List.mem_map_of_mem ?_, decide_eq_true rfl⟩
        exact List.mem_filter.mpr ⟨hdispatch, decide_eq_true hroom⟩
      rw [hinv.kept] at hkept
      rcases List.mem_append.mp hkept with hpassed | hqueued
      · exact Or.inl (List.mem_filter.mp hpassed).1
      · exact Or.inr (Or.inr (Or.inl ⟨_, (List.mem_filter.mp hqueued).1⟩))
    · exact Or.inr (Or.inr (Or.inr ⟨dispatch, hdispatch, rfl, hfull⟩))
  · exact Or.inr (Or.inl hhand)

end AsyncManager

end TszyUlt.Zbf
