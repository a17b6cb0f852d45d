import Mathlib.Data.List.Count
import TszyUlt.Lib.Transition
import TszyUlt.Lygc.DbProxy
import TszyUlt.Wjp.ClientMessages
import TszyUlt.Wjp.MongoClientReq

/-!
# Pools of database clients

`mysql_client_pool`, `redis_client_pool` and `mongo_client_pool` of `wjp/mysql_client.hpp`,
`redis_client.hpp` and `mongo_client.hpp`. The three are the same program but for `handleRequest`
and `retryFailure`, which say what is passed to the listener; `PoolCode` is these two with the fact
that each of them calls `onResponse` once, and `mysqlPool`, `redisPool` and `mongoPool` are the
three pools. What the databases answer is a parameter of the clients.

`ClientPool` is a pool with all that is under way: the queue, each worker (`WorkerAt`), a record of
each call of `submit` (`PoolCall`), and the logs of an observer. A step is one atomic operation or
section under the lock of the queue, so a run is any interleaving of the threads that submit and the
workers. A worker looks for a client, which it may find or not at each step.

`Moves` lists what a step can do, and `PoolInv` is the invariant that all of it keeps. From it,
`pools_accounted`: in every run each accepted request is in one place and is answered once.

Scope. The clients of a pool are not told apart: that a client is found and connected is an input.
The release of the queue in `serveUtilStop` is not modelled.
-/

set_option autoImplicit false
set_option relaxedAutoImplicit false

namespace TszyUlt.Wjp

open Lib Zbf Fszm Lygc

/-! ### Handling a request -/

/-- `RESP_RC_PARAM_INVALID`. -/
def respRcParamInvalid : Int32 := 1001

/-- `RESP_RC_TYPE_INVALID`. -/
def respRcTypeInvalid : Int32 := 1002

/-- `RESP_RC_NO_AVAIL_CLT`. -/
def respRcNoAvailClt : Int32 := 1003

/-- `std::string::c_str`, as a function that takes a string up to a null character reads it. -/
def cStr (data : Bytes) : Bytes := data.takeWhile (· ≠ 0)

/-- The part of a pool that differs: the responses that are passed to the listener for a request
that is given to a client, and for one that found none. -/
structure PoolCode (Client Req Resp : Type) where
  handleRequest : Client → RequestId → Req → List Resp
  retryFailure : RequestId → Req → List Resp
  handleRequest_one : ∀ client reqId req, (handleRequest client reqId req).length = 1
  retryFailure_one : ∀ reqId req, (retryFailure reqId req).length = 1

/-- What a `mysql_client` answers. -/
structure MysqlClient where
  execQuery : Bytes → Bool → Int32
  execRealQuery : Bytes → Bool → Int32
  execQueryForResult : Bytes → Int32 × DataTable
  execStatement : Bytes → MysqlStmtReqParams → Bool → Int32 × DataTables × FieldsType

namespace MysqlClient

/-- `mysql_client_pool::handleRequest`. -/
def handleRequest (client : MysqlClient) (reqId : RequestId) (req : MysqlClientReq) :
    List MysqlClientResp :=
  if req.type = MysqlClientReqType.execQuery.code then
    [{ reqId, rc := client.execQuery (cStr req.sql) req.transaction }]
  else if req.type = MysqlClientReqType.execRealQuery.code then
    [{ reqId, rc := client.execRealQuery req.sql req.transaction }]
  else if req.type = MysqlClientReqType.execQueryForResult.code then
    let (rc, result) := client.execQueryForResult (cStr req.sql)
    [{ reqId, rc, results := if rc = 0 then [result] else [] }]
  else if req.type = MysqlClientReqType.execStatement.code then
    match req.stmtParam with
    | some stmtParam =>
      let (rc, results, fieldsType) := client.execStatement (cStr req.sql) stmtParam req.transaction
      [{ reqId, rc, results, fieldsType }]
    | none => [{ reqId, rc := respRcParamInvalid }]
  else [{ reqId, rc := respRcTypeInvalid }]

theorem length_handleRequest (client : MysqlClient) (reqId : RequestId) (req : MysqlClientReq) :
    (client.handleRequest reqId req).length = 1 := by
  unfold handleRequest
  split_ifs
  · rfl
  · rfl
  · rfl
  · cases req.stmtParam with
    | none => rfl
    | some stmtParam => rfl
  · rfl

end MysqlClient

/-- `mysql_client_pool`. -/
def mysqlPool : PoolCode MysqlClient MysqlClientReq MysqlClientResp where
  handleRequest := MysqlClient.handleRequest
  retryFailure := fun reqId _ ↦ [{ reqId, rc := respRcNoAvailClt }]
  handleRequest_one := MysqlClient.length_handleRequest
  retryFailure_one := fun _ _ ↦ rfl

/-- What a `redis_client` answers: each command gives a result and an error code. -/
structure RedisClient where
  execCommandStat : List Bytes → Bool × Int32
  execCommandInt : List Bytes → Int32 × Int32
  execCommandStr : List Bytes → Bytes × Int32
  execCommandSA : List Bytes → DataRow × Int32
  execCommandSM : List Bytes → StringMap × Int32
  execCommandSCA : List Bytes → ScoreArray × Int32

namespace RedisClient

/-- The `rc` of a response for the error code of a command. -/
def rcOf (ec : Int32) : Int32 := if ec ≠ 0 then -1 else 0

/-- `redis_client_pool::handleRequest`. -/
def handleRequest (client : RedisClient) (reqId : RequestId) (req : RedisClientReq) :
    List RedisClientResp :=
  if req.type = RedisClientReqType.execCommandStat.code then
    let (resStat, ec) := client.execCommandStat req.argv
    [{ reqId, type := req.type, rc := rcOf ec, resStat }]
  else if req.type = RedisClientReqType.execCommandInt.code then
    let (resInt, ec) := client.execCommandInt req.argv
    [{ reqId, type := req.type, rc := rcOf ec, resInt := resInt.toInt64 }]
  else if req.type = RedisClientReqType.execCommandStr.code then
    let (resStr, ec) := client.execCommandStr req.argv
    [{ reqId, type := req.type, rc := rcOf ec, resStr }]
  else if req.type = RedisClientReqType.execCommandSA.code then
    let (resSA, ec) := client.execCommandSA req.argv
    [{ reqId, type := req.type, rc := rcOf ec, resSA }]
  else if req.type = RedisClientReqType.execCommandSM.code then
    let (resSM, ec) := client.execCommandSM req.argv
    [{ reqId, type := req.type, rc := rcOf ec, resSM }]
  else if req.type = RedisClientReqType.execCommandSCA.code then
    let (resSCA, ec) := client.execCommandSCA req.argv
    [{ reqId, type := req.type, rc := rcOf ec, resSCA }]
  else [{ reqId, type := req.type, rc := respRcTypeInvalid }]

theorem length_handleRequest (client : RedisClient) (reqId : RequestId) (req : RedisClientReq) :
    (client.handleRequest reqId req).length = 1 := by
  unfold handleRequest
  split_ifs <;> rfl

end RedisClient

/-- `redis_client_pool`. -/
def redisPool : PoolCode RedisClient RedisClientReq RedisClientResp where
  handleRequest := RedisClient.handleRequest
  retryFailure := fun reqId req ↦ [{ reqId, type := req.type, rc := respRcNoAvailClt }]
  handleRequest_one := RedisClient.length_handleRequest
  retryFailure_one := fun _ _ ↦ rfl

/-- What a `mongo_client` answers: the documents that a search finds, and the result of any other
operation, of a bulk or of a transaction. The reply stays null, since it is passed by value. -/
structure MongoClient (Doc Prefs : Type) where
  find : MongoClientReq Doc Prefs → Int32 × List (Option Doc)
  exec : Int8 → MongoClientReq Doc Prefs → Int32

namespace MongoClient

variable {Doc Prefs : Type}

/-- `mongo_client_pool::handleRequest`. -/
def handleRequest (client : MongoClient Doc Prefs) (reqId : RequestId)
    (req : MongoClientReq Doc Prefs) : List (MongoClientResp Doc) :=
  if req.head.type = MongoClientReqType.find.code then
    let (rc, resultDocs) := client.find req
    [{ reqId, rc, resultDocs }]
  else if 0 ≤ req.head.type ∧ req.head.type < MongoClientReqType.mongoReqNone.code then
    [{ reqId, rc := client.exec req.head.type req }]
  else [{ reqId, rc := respRcTypeInvalid }]

theorem length_handleRequest (client : MongoClient Doc Prefs) (reqId : RequestId)
    (req : MongoClientReq Doc Prefs) : (client.handleRequest reqId req).length = 1 := by
  unfold handleRequest
  split_ifs <;> rfl

end MongoClient

/-- `mongo_client_pool`. -/
def mongoPool (Doc Prefs : Type) :
    PoolCode (MongoClient Doc Prefs) (MongoClientReq Doc Prefs) (MongoClientResp Doc) where
  handleRequest := MongoClient.handleRequest
  retryFailure := fun reqId _ ↦ [{ reqId, rc := respRcNoAvailClt }]
  handleRequest_one := MongoClient.length_handleRequest
  retryFailure_one := fun _ _ ↦ rfl

/-! ### The pool -/

/-- Where a call of `submit` stands. -/
inductive PushAt
  /-- The id is drawn, the request is to be pushed. -/
  | pushing
  /-- The queue took the request, and its id was returned. -/
  | accepted
  /-- The queue was full, and `PoolIsBusy` was returned. -/
  | busy
  deriving DecidableEq, Repr

/-- A call of `submit` with its request. -/
structure PoolCall (Req : Type) where
  req : Req
  reqId : RequestId
  retryTimes : ℕ
  push : PushAt
  deriving DecidableEq, Repr

/-- Where a worker stands. The request that it has in hand is given by the number of its call. -/
inductive WorkerAt (Client : Type)
  | idle
  /-- The request is popped, a client is to be found. -/
  | popped (tag : ℕ)
  /-- In `handleRequest`. -/
  | serving (tag : ℕ) (client : Client)
  /-- In `retryFailure`. -/
  | failing (tag : ℕ)
  /-- The loop has ended. -/
  | exited
  deriving DecidableEq, Repr

/-- The request that a worker has in hand. -/
def WorkerAt.inHand {Client : Type} : WorkerAt Client → Option ℕ
  | idle => none
  | popped tag => some tag
  | serving tag _ => some tag
  | failing tag => some tag
  | exited => none

/-- The request that a worker has given to a client. -/
def WorkerAt.atClient {Client : Type} : WorkerAt Client → Option ℕ
  | serving tag _ => some tag
  | _ => none

/-- A pool and what an observer records: the requests popped, the requests given to a client, the
calls of `onResponse`, and the requests that a worker is done with. -/
structure ClientPool (Client Req Resp : Type) where
  reqId : RequestId
  queue : SafeQueue ℕ
  workers : List (WorkerAt Client)
  calls : List (PoolCall Req)
  pops : List ℕ
  handed : List ℕ
  responses : List (ℕ × Resp)
  answered : List ℕ

/-- The steps of the threads that use a pool. Calls of `submit` and workers are given by number. -/
inductive PoolAction (Client Req : Type)
  /-- `submit`, up to the draw of the id. -/
  | submit (req : Req)
  /-- `submit`: the push. -/
  | push (tag : ℕ)
  /-- A worker: `pop_timeout`. -/
  | pop (worker : ℕ)
  /-- A worker with a request has found a connected client, or none. -/
  | getClient (worker : ℕ) (client : Option Client)
  /-- A worker: the rest of `handleRequest` or of `retryFailure`. -/
  | onResponse (worker : ℕ)
  | stop
  deriving DecidableEq, Repr

namespace ClientPool

variable {Client Req Resp : Type}

/-- `start`: the number of workers for a pool size. -/
def workerNum (poolSize : ℤ) : ℕ := (min (max poolSize 1) 16).toNat

/-- A pool with its workers, before the first request. -/
def new (workerNum : ℕ) : ClientPool Client Req Resp where
  reqId := minReqId
  queue := .new
  workers := List.replicate workerNum .idle
  calls := []
  pops := []
  handed := []
  responses := []
  answered := []

/-- A worker is done with a request, for which these responses were passed to the listener. -/
def respond (pool : ClientPool Client Req Resp) (worker tag : ℕ) (resps : List Resp) :
    ClientPool Client Req Resp :=
  { pool with
    workers := pool.workers.set worker .idle
    responses := pool.responses ++ resps.map fun resp ↦ (tag, resp)
    answered := pool.answered ++ [tag] }

/-- One step of a pool. -/
def step (code : PoolCode Client Req Resp) (pool : ClientPool Client Req Resp) :
    PoolAction Client Req → Option (ClientPool Client Req Resp)
  | .submit req =>
    some { pool with
      reqId := pool.reqId + 1
      calls := pool.calls ++ [⟨req, pool.reqId, 0, .pushing⟩] }
  | .push tag =>
    match pool.calls[tag]? with
    | some call =>
      if call.push = .pushing then
        match pool.queue.push maxPendingReq tag with
        | (true, queue) =>
          some { pool with
            queue := queue
            calls := pool.calls.set tag { call with push := .accepted } }
        | (false, _) =>
          some { pool with calls := pool.calls.set tag { call with push := .busy } }
      else none
    | none => none
  | .pop worker =>
    match pool.workers[worker]? with
    | some .idle =>
      match pool.queue.popTimeout with
      | (.success tag, queue) =>
        some { pool with
          queue := queue
          workers := pool.workers.set worker (.popped tag)
          pops := pool.pops ++ [tag] }
      | (.timeout, _) => some pool
      | (.exit, _) => some { pool with workers := pool.workers.set worker .exited }
    | _ => none
  | .getClient worker client =>
    match pool.workers[worker]? with
    | some (.popped tag) =>
      match client, pool.calls[tag]? with
      | some client, _ =>
        some { pool with
          workers := pool.workers.set worker (.serving tag client)
          handed := pool.handed ++ [tag] }
      | none, some call =>
        if maxRetryTimes ≤ call.retryTimes then
          some { pool with workers := pool.workers.set worker (.failing tag) }
        else
          some { pool with
            queue := pool.queue.requeue tag
            workers := pool.workers.set worker .idle
            calls := pool.calls.set tag { call with retryTimes := call.retryTimes + 1 } }
      | none, none => none
    | _ => none
  | .onResponse worker =>
    match pool.workers[worker]? with
    | some (.serving tag client) =>
      pool.calls[tag]?.map fun call ↦
        pool.respond worker tag (code.handleRequest client call.reqId call.req)
    | some (.failing tag) =>
      pool.calls[tag]?.map fun call ↦
        pool.respond worker tag (code.retryFailure call.reqId call.req)
    | _ => none
  | .stop => some { pool with queue := pool.queue.stop }

/-! ### What a step can do -/

/-- The changes that the steps of a pool make. -/
inductive Moves (pool : ClientPool Client Req Resp) :
    PoolAction Client Req → ClientPool Client Req Resp → Prop
  | submit (req : Req) :
    Moves pool (.submit req) { pool with
      reqId := pool.reqId + 1
      calls := pool.calls ++ [⟨req, pool.reqId, 0, .pushing⟩] }
  | accept (tag : ℕ) (call : PoolCall Req) (hcall : pool.calls[tag]? = some call)
      (hpush : call.push = .pushing) (hroom : pool.queue.items.length < maxPendingReq)
      (queue : SafeQueue ℕ) (hqueue : queue.items = pool.queue.items ++ [tag]) :
    Moves pool (.push tag) { pool with
      queue := queue
      calls := pool.calls.set tag { call with push := .accepted } }
  | refuse (tag : ℕ) (call : PoolCall Req) (hcall : pool.calls[tag]? = some call)
      (hpush : call.push = .pushing) :
    Moves pool (.push tag) { pool with calls := pool.calls.set tag { call with push := .busy } }
  | pop (worker tag : ℕ) (hworker : pool.workers[worker]? = some .idle) (queue : SafeQueue ℕ)
      (hqueue : pool.queue.items = tag :: queue.items) :
    Moves pool (.pop worker) { pool with
      queue := queue
      workers := pool.workers.set worker (.popped tag)
      pops := pool.pops ++ [tag] }
  | wait (worker : ℕ) : Moves pool (.pop worker) pool
  | exit (worker : ℕ) (hworker : pool.workers[worker]? = some .idle) :
    Moves pool (.pop worker) { pool with workers := pool.workers.set worker .exited }
  | hand (worker tag : ℕ) (client : Client) (hworker : pool.workers[worker]? = some (.popped tag)) :
    Moves pool (.getClient worker (some client)) { pool with
      workers := pool.workers.set worker (.serving tag client)
      handed := pool.handed ++ [tag] }
  | giveUp (worker tag : ℕ) (hworker : pool.workers[worker]? = some (.popped tag)) :
    Moves pool (.getClient worker none)
      { pool with workers := pool.workers.set worker (.failing tag) }
  | requeue (worker tag : ℕ) (call : PoolCall Req)
      (hworker : pool.workers[worker]? = some (.popped tag)) (hcall : pool.calls[tag]? = some call)
      (hretry : call.retryTimes < maxRetryTimes) :
    Moves pool (.getClient worker none) { pool with
      queue := pool.queue.requeue tag
      workers := pool.workers.set worker .idle
      calls := pool.calls.set tag { call with retryTimes := call.retryTimes + 1 } }
  | respond (worker tag : ℕ) (holder : WorkerAt Client)
      (hworker : pool.workers[worker]? = some holder) (hholder : holder.inHand = some tag)
      (resps : List Resp) (hresps : resps.length = 1) :
    Moves pool (.onResponse worker) (pool.respond worker tag resps)
  | stop : Moves pool .stop { pool with queue := pool.queue.stop }

theorem step_moves {code : PoolCode Client Req Resp} {pool next : ClientPool Client Req Resp}
    {action : PoolAction Client Req} (hstep : pool.step code action = some next) :
    Moves pool action next := by
  cases action with
  | submit req =>
    cases hstep
    exact .submit req
  | push tag =>
    simp only [step] at hstep
    split at hstep
    · rename_i call hcall
      split at hstep
      · rename_i hpush
        split at hstep
        · rename_i queue hqueue
          cases hstep
          exact .accept tag call hcall hpush (SafeQueue.length_lt_of_push hqueue) queue
            (SafeQueue.push_eq_true hqueue)
        · cases hstep
          exact .refuse tag call hcall hpush
      · cases hstep
    · cases hstep
  | pop worker =>
    simp only [step] at hstep
    split at hstep
    · rename_i hworker
      split at hstep
      · rename_i tag queue hqueue
        cases hstep
        exact .pop worker tag hworker queue (SafeQueue.popTimeout_eq_success hqueue)
      · cases hstep
        exact .wait worker
      · cases hstep
        exact .exit worker hworker
    · cases hstep
  | getClient worker client =>
    simp only [step] at hstep
    split at hstep
    · rename_i tag hworker
      cases client with
      | some client =>
        cases hstep
        exact .hand worker tag client hworker
      | none =>
        cases hcall : pool.calls[tag]? with
        | none =>
          rw [hcall] at hstep
          cases hstep
        | some call =>
          simp only [hcall] at hstep
          split at hstep
          · cases hstep
            exact .giveUp worker tag hworker
          · rename_i hretry
            cases hstep
            exact .requeue worker tag call hworker hcall (Nat.lt_of_not_le hretry)
    · cases hstep
  | onResponse worker =>
    simp only [step] at hstep
    split at hstep
    · rename_i tag client hworker
      obtain ⟨call, -, rfl⟩ := Option.map_eq_some_iff.mp hstep
      exact .respond worker tag _ hworker rfl _ (code.handleRequest_one client call.reqId call.req)
    · rename_i tag hworker
      obtain ⟨call, -, rfl⟩ := Option.map_eq_some_iff.mp hstep
      exact .respond worker tag _ hworker rfl _ (code.retryFailure_one call.reqId call.req)
    · cases hstep
  | stop =>
    cases hstep
    exact .stop

end ClientPool

/-! ### Accounts of a request -/

section Accounts

variable {Client Req : Type}

/-- One for the request itself, and zero for the others. -/
def one (tag other : ℕ) : ℕ := if tag = other then 1 else 0

/-- One if the queue took the request, and zero else. -/
def accepted (calls : List (PoolCall Req)) (tag : ℕ) : ℕ :=
  measureAt (fun call ↦ if call.push = .accepted then 1 else 0) calls tag

/-- `retry_times` of a request. -/
def retries (calls : List (PoolCall Req)) (tag : ℕ) : ℕ := measureAt PoolCall.retryTimes calls tag

/-- The number of workers that have the request in hand. -/
def held (workers : List (WorkerAt Client)) (tag : ℕ) : ℕ :=
  workers.countP fun worker ↦ worker.inHand = some tag

/-- The number of workers that have given the request to a client. -/
def atClients (workers : List (WorkerAt Client)) (tag : ℕ) : ℕ :=
  workers.countP fun worker ↦ worker.atClient = some tag

/-- The number of workers that have a request in hand. -/
def busy (workers : List (WorkerAt Client)) : ℕ := workers.countP fun worker ↦ worker.inHand.isSome

theorem count_concat (tags : List ℕ) (tag other : ℕ) :
    (tags ++ [tag]).count other = tags.count other + one tag other := by
  rw [List.count_append, List.count_singleton, one]
  simp only [beq_iff_eq]

theorem count_front (tags : List ℕ) (tag other : ℕ) :
    (tag :: tags).count other = tags.count other + one tag other := by
  rw [List.count_cons, one]
  simp only [beq_iff_eq]

variable {workers : List (WorkerAt Client)} {calls : List (PoolCall Req)} {worker tag : ℕ}
  {old : WorkerAt Client} {call : PoolCall Req}

/-- What a worker adds to the count of a request, for what it has in hand or at a client. -/
def share (inHand : Option ℕ) (other : ℕ) : ℕ := inHand.elim 0 fun tag ↦ one tag other

theorem ite_eq_share (inHand : Option ℕ) (other : ℕ) :
    (if inHand = some other then 1 else 0) = share inHand other := by
  cases inHand with
  | none => rfl
  | some tag => simp only [share, one, Option.some.injEq, Option.elim_some]

theorem held_set (hworker : workers[worker]? = some old) (new : WorkerAt Client) (other : ℕ) :
    held (workers.set worker new) other + share old.inHand other =
      held workers other + share new.inHand other := by
  have hset := countP_set_add (fun worker ↦ worker.inHand = some other) hworker new
  simp only [decide_eq_true_eq, ite_eq_share] at hset
  exact hset

theorem atClients_set (hworker : workers[worker]? = some old) (new : WorkerAt Client)
    (other : ℕ) :
    atClients (workers.set worker new) other + share old.atClient other =
      atClients workers other + share new.atClient other := by
  have hset := countP_set_add (fun worker ↦ worker.atClient = some other) hworker new
  simp only [decide_eq_true_eq, ite_eq_share] at hset
  exact hset

/-- A request at a client is in the hand of the worker. -/
theorem share_atClient_le (worker : WorkerAt Client) (other : ℕ) :
    share worker.atClient other ≤ share worker.inHand other := by
  cases worker with
  | serving tag client => exact Nat.le_refl _
  | _ => exact Nat.zero_le _

theorem accepted_le_one (calls : List (PoolCall Req)) (tag : ℕ) : accepted calls tag ≤ 1 := by
  rw [accepted, measureAt]
  cases calls[tag]? with
  | none => exact Nat.zero_le 1
  | some call =>
    show (if call.push = .accepted then 1 else 0) ≤ 1
    split_ifs <;> omega

/-- Assumes: a call that is about to push. Its acceptance counts for its request only. -/
theorem accepted_set_accepted (hcall : calls[tag]? = some call) (hpush : call.push = .pushing)
    (other : ℕ) :
    accepted (calls.set tag { call with push := .accepted }) other =
      accepted calls other + one tag other := by
  rw [accepted, measureAt_set hcall, one]
  by_cases heq : other = tag
  · rw [heq, accepted, measureAt_of_some hcall, hpush, if_pos rfl, if_pos rfl, if_pos rfl]
    rfl
  · rw [if_neg heq, if_neg (Ne.symm heq)]
    rfl

theorem accepted_set_busy (hcall : calls[tag]? = some call) (hpush : call.push = .pushing)
    (other : ℕ) :
    accepted (calls.set tag { call with push := .busy }) other = accepted calls other := by
  rw [accepted, measureAt_set hcall]
  by_cases heq : other = tag
  · rw [heq, if_pos rfl, accepted, measureAt_of_some hcall, hpush]
    rfl
  · rw [if_neg heq]
    rfl

theorem retries_set_push (hcall : calls[tag]? = some call) (push : PushAt) (other : ℕ) :
    retries (calls.set tag { call with push := push }) other = retries calls other := by
  rw [retries, measureAt_set hcall]
  by_cases heq : other = tag
  · rw [heq, if_pos rfl, retries, measureAt_of_some hcall]
  · rw [if_neg heq]
    rfl

theorem accepted_set_retryTimes (hcall : calls[tag]? = some call) (retryTimes other : ℕ) :
    accepted (calls.set tag { call with retryTimes := retryTimes }) other =
      accepted calls other := by
  rw [accepted, measureAt_set hcall]
  by_cases heq : other = tag
  · rw [heq, if_pos rfl, accepted, measureAt_of_some hcall]
  · rw [if_neg heq]
    rfl

/-- A request that is put back has one more retry. -/
theorem retries_set_succ (hcall : calls[tag]? = some call) (other : ℕ) :
    retries (calls.set tag { call with retryTimes := call.retryTimes + 1 }) other =
      retries calls other + one tag other := by
  rw [retries, measureAt_set hcall, one]
  by_cases heq : other = tag
  · rw [heq, if_pos rfl, if_pos rfl, retries, measureAt_of_some hcall]
  · rw [if_neg heq, if_neg (Ne.symm heq)]
    rfl

/-- Assumes: a call with fewer retries than the maximum. One more leaves every request within it. -/
theorem retries_add_one_le (hcall : calls[tag]? = some call)
    (hretry : call.retryTimes < maxRetryTimes) {other : ℕ}
    (hother : retries calls other ≤ maxRetryTimes) :
    retries calls other + one tag other ≤ maxRetryTimes := by
  by_cases heq : tag = other
  · subst heq
    have hretries : retries calls tag = call.retryTimes := measureAt_of_some hcall
    rw [one, if_pos rfl, hretries]
    exact hretry
  · rw [one, if_neg heq]
    exact hother

end Accounts

namespace ClientPool

variable {Client Req Resp : Type}

/-- The accounts of one request: it is in the queue, with a worker or done, once in all if it was
accepted, and the logs agree with where it is. -/
structure Balanced (pool : ClientPool Client Req Resp) (tag : ℕ) : Prop where
  places : pool.queue.items.count tag + held pool.workers tag + pool.answered.count tag =
    accepted pool.calls tag
  responses : (pool.responses.map Prod.fst).count tag = pool.answered.count tag
  handed : pool.handed.count tag ≤ atClients pool.workers tag + pool.answered.count tag
  pops : pool.pops.count tag + pool.queue.items.count tag =
    retries pool.calls tag + accepted pool.calls tag
  retries : retries pool.calls tag ≤ maxRetryTimes

variable {pool next : ClientPool Client Req Resp} {action : PoolAction Client Req}

theorem balanced_moves (hmove : Moves pool action next) {other : ℕ}
    (hbalanced : pool.Balanced other) : next.Balanced other := by
  obtain ⟨hplaces, hresponses, hhanded, hpops, hretries⟩ := hbalanced
  -- Each case says how the terms of the accounts change; the rest is arithmetic.
  cases hmove with
  | submit req =>
    have haccepted : accepted (pool.calls ++ [⟨req, pool.reqId, 0, .pushing⟩]) other =
        accepted pool.calls other := measureAt_concat rfl
    have hretry : Wjp.retries (pool.calls ++ [⟨req, pool.reqId, 0, .pushing⟩]) other =
        Wjp.retries pool.calls other := measureAt_concat rfl
    constructor <;> dsimp only <;> omega
  | accept tag call hcall hpush hroom queue hqueue =>
    have haccepted := accepted_set_accepted hcall hpush other
    have hretry := retries_set_push hcall .accepted other
    have hcount := count_concat pool.queue.items tag other
    rw [← hqueue] at hcount
    constructor <;> dsimp only <;> omega
  | refuse tag call hcall hpush =>
    have haccepted := accepted_set_busy hcall hpush other
    have hretry := retries_set_push hcall .busy other
    constructor <;> dsimp only <;> omega
  | pop worker tag hworker queue hqueue =>
    have hheld := held_set hworker (.popped tag) other
    have hclient := atClients_set hworker (.popped tag) other
    have hcount := count_front queue.items tag other
    have hlog := count_concat pool.pops tag other
    rw [← hqueue] at hcount
    simp only [WorkerAt.inHand, WorkerAt.atClient, share, Option.elim] at hheld hclient
    constructor <;> dsimp only <;> omega
  | wait worker => exact ⟨hplaces, hresponses, hhanded, hpops, hretries⟩
  | exit worker hworker =>
    have hheld := held_set hworker .exited other
    have hclient := atClients_set hworker .exited other
    simp only [WorkerAt.inHand, WorkerAt.atClient, share, Option.elim] at hheld hclient
    constructor <;> dsimp only <;> omega
  | hand worker tag client hworker =>
    have hheld := held_set hworker (.serving tag client) other
    have hclient := atClients_set hworker (.serving tag client) other
    have hlog := count_concat pool.handed tag other
    simp only [WorkerAt.inHand, WorkerAt.atClient, share, Option.elim] at hheld hclient
    constructor <;> dsimp only <;> omega
  | giveUp worker tag hworker =>
    have hheld := held_set hworker (.failing tag) other
    have hclient := atClients_set hworker (.failing tag) other
    simp only [WorkerAt.inHand, WorkerAt.atClient, share, Option.elim] at hheld hclient
    constructor <;> dsimp only <;> omega
  | requeue worker tag call hworker hcall hretry =>
    have hheld := held_set hworker .idle other
    have hclient := atClients_set hworker .idle other
    have hcount := count_front pool.queue.items tag other
    have haccepted := accepted_set_retryTimes hcall (call.retryTimes + 1) other
    have hsucc := retries_set_succ hcall other
    have hbound := retries_add_one_le hcall hretry hretries
    simp only [WorkerAt.inHand, WorkerAt.atClient, share, Option.elim] at hheld hclient
    constructor <;> dsimp only [SafeQueue.requeue] <;> omega
  | respond worker tag holder hworker hholder resps hresps =>
    have hheld := held_set hworker .idle other
    have hclient := atClients_set hworker .idle other
    have hserved := share_atClient_le holder other
    have hlog := count_concat pool.answered tag other
    have hcalled : ((pool.responses ++ resps.map fun resp ↦ (tag, resp)).map Prod.fst).count other =
        (pool.responses.map Prod.fst).count other + one tag other := by
      obtain ⟨resp, rfl⟩ := List.length_eq_one_iff.mp hresps
      rw [List.map_append]
      exact count_concat _ tag other
    rw [hholder] at hheld hserved
    simp only [WorkerAt.inHand, WorkerAt.atClient, share, Option.elim] at hheld hclient hserved
    constructor <;> dsimp only [respond] <;> omega
  | stop => exact ⟨hplaces, hresponses, hhanded, hpops, hretries⟩

/-! ### The invariant -/

/-- The ids are drawn one after the other, and no more requests are in the queue and with workers
than fit both. -/
structure PoolInv (workerNum : ℕ) (pool : ClientPool Client Req Resp) : Prop where
  reqId : pool.reqId = counterAt 64 100 pool.calls.length
  ids : ∀ tag call, pool.calls[tag]? = some call → call.reqId = counterAt 64 100 tag
  workers : pool.workers.length = workerNum
  size : pool.queue.items.length + busy pool.workers ≤ maxPendingReq + workerNum
  balanced : ∀ tag, pool.Balanced tag

/-- What a worker adds to the number of those with a request in hand. -/
def load : WorkerAt Client → ℕ
  | .idle => 0
  | .exited => 0
  | _ => 1

theorem load_eq_one {worker : WorkerAt Client} {tag : ℕ} (hworker : worker.inHand = some tag) :
    load worker = 1 := by
  cases worker with
  | idle => cases hworker
  | exited => cases hworker
  | _ => rfl

theorem busy_set {workers : List (WorkerAt Client)} {worker : ℕ} {old : WorkerAt Client}
    (hworker : workers[worker]? = some old) (new : WorkerAt Client) :
    busy (workers.set worker new) + load old = busy workers + load new := by
  have hload : ∀ worker : WorkerAt Client,
      (if worker.inHand.isSome then 1 else 0) = load worker := by
    intro worker
    cases worker <;> rfl
  have hset := countP_set_add (fun worker : WorkerAt Client ↦ worker.inHand.isSome) hworker new
  rw [hload, hload] at hset
  exact hset

theorem ids_set {calls : List (PoolCall Req)} {tag : ℕ} {call call' : PoolCall Req}
    (hids : ∀ tag call, calls[tag]? = some call → call.reqId = counterAt 64 100 tag)
    (hcall : calls[tag]? = some call) (hsame : call'.reqId = call.reqId) (other : ℕ)
    (found : PoolCall Req) (hfound : (calls.set tag call')[other]? = some found) :
    found.reqId = counterAt 64 100 other := by
  rcases getElem?_set_cases hfound with ⟨rfl, rfl⟩ | ⟨-, hold⟩
  · exact hsame.trans (hids _ call hcall)
  · exact hids other found hold

theorem ids_moves {workerNum : ℕ} (hinv : pool.PoolInv workerNum) (hmove : Moves pool action next) :
    next.reqId = counterAt 64 100 next.calls.length ∧
      ∀ tag call, next.calls[tag]? = some call → call.reqId = counterAt 64 100 tag := by
  have hreqId := hinv.reqId
  cases hmove with
  | submit req =>
    constructor
    · dsimp only
      rw [hreqId, List.length_append, List.length_singleton, counterAt_succ]
    · intro tag call hcall
      rcases getElem?_concat_cases hcall with hold | ⟨rfl, rfl⟩
      · exact hinv.ids tag call hold
      · exact hreqId
  | accept tag call hcall hpush hroom queue hqueue =>
    exact ⟨by simpa using hreqId, ids_set hinv.ids hcall rfl⟩
  | refuse tag call hcall hpush => exact ⟨by simpa using hreqId, ids_set hinv.ids hcall rfl⟩
  | requeue worker tag call hworker hcall hretry =>
    exact ⟨by simpa using hreqId, ids_set hinv.ids hcall rfl⟩
  | _ => exact ⟨hreqId, hinv.ids⟩

theorem size_moves {workerNum : ℕ} (hinv : pool.PoolInv workerNum)
    (hmove : Moves pool action next) :
    next.workers.length = workerNum ∧
      next.queue.items.length + busy next.workers ≤ maxPendingReq + workerNum := by
  have hsize := hinv.size
  have hworkers := hinv.workers
  cases hmove with
  | accept tag call hcall hpush hroom queue hqueue =>
    have hbusy : busy pool.workers ≤ pool.workers.length := List.countP_le_length
    have hlength : queue.items.length = pool.queue.items.length + 1 := by
      rw [hqueue, List.length_append, List.length_singleton]
    exact ⟨hworkers, by dsimp only; omega⟩
  | pop worker tag hworker queue hqueue =>
    have hbusy := busy_set hworker (.popped tag)
    have hlength : pool.queue.items.length = queue.items.length + 1 := by
      rw [hqueue, List.length_cons]
    simp only [load] at hbusy
    refine ⟨by rw [List.length_set, hworkers], ?_⟩
    dsimp only
    omega
  | exit worker hworker =>
    have hbusy := busy_set hworker .exited
    simp only [load] at hbusy
    refine ⟨by rw [List.length_set, hworkers], ?_⟩
    dsimp only
    omega
  | hand worker tag client hworker =>
    have hbusy := busy_set hworker (.serving tag client)
    simp only [load] at hbusy
    refine ⟨by rw [List.length_set, hworkers], ?_⟩
    dsimp only
    omega
  | giveUp worker tag hworker =>
    have hbusy := busy_set hworker (.failing tag)
    simp only [load] at hbusy
    refine ⟨by rw [List.length_set, hworkers], ?_⟩
    dsimp only
    omega
  | requeue worker tag call hworker hcall hretry =>
    have hbusy := busy_set hworker .idle
    simp only [load] at hbusy
    refine ⟨by rw [List.length_set, hworkers], ?_⟩
    dsimp only [SafeQueue.requeue]
    rw [List.length_cons]
    omega
  | respond worker tag holder hworker hholder resps hresps =>
    have hbusy := busy_set hworker .idle
    have hload : load holder = 1 := load_eq_one hholder
    simp only [load] at hbusy
    refine ⟨by rw [respond, List.length_set, hworkers], ?_⟩
    dsimp only [respond]
    omega
  | _ => exact ⟨hworkers, hsize⟩

theorem moves_poolInv {workerNum : ℕ} (hinv : pool.PoolInv workerNum)
    (hmove : Moves pool action next) : next.PoolInv workerNum where
  reqId := (ids_moves hinv hmove).1
  ids := (ids_moves hinv hmove).2
  workers := (size_moves hinv hmove).1
  size := (size_moves hinv hmove).2
  balanced := fun tag ↦ balanced_moves hmove (hinv.balanced tag)

theorem new_poolInv (workerNum : ℕ) :
    (new workerNum : ClientPool Client Req Resp).PoolInv workerNum where
  reqId := rfl
  ids := nofun
  workers := List.length_replicate
  size := by simp [new, SafeQueue.new, busy, WorkerAt.inHand, List.countP_replicate]
  balanced := fun tag ↦ by
    constructor <;>
      simp [new, SafeQueue.new, held, accepted, Wjp.retries, measureAt, WorkerAt.inHand,
        List.countP_replicate]

/-- Whether a step draws an id for a new request. -/
def isSubmit : PoolAction Client Req → Bool
  | .submit _ => true
  | _ => false

theorem length_calls_moves (hmove : Moves pool action next) :
    next.calls.length = pool.calls.length + if isSubmit action then 1 else 0 := by
  cases hmove with
  | submit req => exact List.length_append
  | accept tag call hcall hpush hroom queue hqueue => exact List.length_set
  | refuse tag call hcall hpush => exact List.length_set
  | requeue worker tag call hworker hcall hretry => exact List.length_set
  | _ => rfl

/-- There is a record of each call of `submit` of a run. -/
theorem length_calls_runFrom {code : PoolCode Client Req Resp}
    {actions : List (PoolAction Client Req)} (hrun : runFrom (step code) pool actions = some next) :
    next.calls.length = pool.calls.length + actions.countP isSubmit := by
  induction actions generalizing pool with
  | nil =>
    cases hrun
    rfl
  | cons action actions ih =>
    rw [runFrom_cons, Option.bind_eq_some_iff] at hrun
    obtain ⟨middle, hmiddle, hrest⟩ := hrun
    rw [ih hrest, length_calls_moves (step_moves hmiddle), List.countP_cons]
    omega

/-! ### Accounting -/

/-- What holds of the requests of a pool: an accepted request is in one place, the queue, the hand
of one worker or among the answered ones; the listener was called once for each that is answered and
for no other; each was handed to a client at most once, retried at most three times and so popped at
most four times; accepted requests have distinct ids, none of them `PoolIsBusy`; and the queue is
bounded. -/
structure Accounted (workerNum : ℕ) (pool : ClientPool Client Req Resp) : Prop where
  place : ∀ (tag : ℕ) (call : PoolCall Req), pool.calls[tag]? = some call → call.push = .accepted →
    pool.queue.items.count tag + held pool.workers tag + pool.answered.count tag = 1
  onResponse : ∀ tag : ℕ, (pool.responses.map Prod.fst).count tag =
    if tag ∈ pool.answered then 1 else 0
  handed : ∀ tag : ℕ, pool.handed.count tag ≤ 1
  retryTimes : ∀ (tag : ℕ) (call : PoolCall Req), pool.calls[tag]? = some call → call.retryTimes ≤ 3
  pops : ∀ tag : ℕ, pool.pops.count tag ≤ 4
  distinct : ∀ (tag tag' : ℕ) (call call' : PoolCall Req), pool.calls[tag]? = some call →
    pool.calls[tag']? = some call' → call.push = .accepted → call'.push = .accepted →
    call.reqId = call'.reqId → tag = tag'
  notBusy : ∀ (tag : ℕ) (call : PoolCall Req), pool.calls[tag]? = some call →
    call.push = .accepted → call.reqId ≠ poolIsBusy
  size : pool.queue.items.length ≤ 256 + workerNum

theorem atClients_le_held (workers : List (WorkerAt Client)) (tag : ℕ) :
    atClients workers tag ≤ held workers tag := by
  refine List.countP_mono_left fun worker _ hworker ↦ ?_
  cases worker with
  | serving served client => exact hworker
  | _ => exact absurd hworker (by simp [WorkerAt.atClient])

/-- Assumes: the invariant, and fewer than 2 ^ 63 calls of `submit`. -/
theorem PoolInv.accounted {workerNum : ℕ} (hinv : pool.PoolInv workerNum)
    (hcalls : pool.calls.length < 2 ^ 63) : pool.Accounted workerNum where
  place := by
    intro tag call hcall hpush
    have haccepted : accepted pool.calls tag = 1 := by
      rw [accepted, measureAt_of_some hcall, hpush]
      rfl
    exact (hinv.balanced tag).places.trans haccepted
  onResponse := by
    intro tag
    have hbalanced := hinv.balanced tag
    have hle := accepted_le_one pool.calls tag
    have hplaces := hbalanced.places
    rw [hbalanced.responses]
    split
    · rename_i hmem
      have hpos : 0 < pool.answered.count tag := List.count_pos_iff.mpr hmem
      omega
    · rename_i hmem
      exact List.count_eq_zero.mpr hmem
  handed := by
    intro tag
    have hbalanced := hinv.balanced tag
    have hhanded := hbalanced.handed
    have hplaces := hbalanced.places
    have hclient := atClients_le_held pool.workers tag
    have hle := accepted_le_one pool.calls tag
    omega
  retryTimes := by
    intro tag call hcall
    have hretries := (hinv.balanced tag).retries
    rwa [Wjp.retries, measureAt_of_some hcall] at hretries
  pops := by
    intro tag
    have hbalanced := hinv.balanced tag
    have hpops := hbalanced.pops
    have hretries : Wjp.retries pool.calls tag ≤ 3 := hbalanced.retries
    have hle := accepted_le_one pool.calls tag
    omega
  distinct := by
    intro tag tag' call call' hcall hcall' _ _ heq
    rw [hinv.ids tag call hcall, hinv.ids tag' call' hcall'] at heq
    have hlt := lt_length_of_getElem? hcall
    have hlt' := lt_length_of_getElem? hcall'
    exact counterAt_injective (by omega) (by omega) heq
  notBusy := by
    intro tag call hcall _ hbusy
    have hlt := lt_length_of_getElem? hcall
    have htoNat := congrArg BitVec.toNat ((hinv.ids tag call hcall).symm.trans hbusy)
    rw [toNat_counterAt (by omega)] at htoNat
    change 100 + tag = 1 at htoNat
    omega
  size := by
    have hsize := hinv.size
    have hpending : maxPendingReq = 256 := rfl
    omega

/-- Assumes: a run with fewer than 2 ^ 63 calls of `submit`. The requests are accounted for in the
state that it reaches. -/
theorem accounted_of_run {code : PoolCode Client Req Resp} {workerNum : ℕ}
    {actions : List (PoolAction Client Req)} (hsubmits : actions.countP isSubmit < 2 ^ 63)
    (hrun : runFrom (step code) (new workerNum) actions = some pool) :
    pool.Accounted workerNum := by
  have hinv : pool.PoolInv workerNum := runFrom_invariant (PoolInv workerNum)
    (fun _ _ _ hstate hstep ↦ moves_poolInv hstate (step_moves hstep)) (new_poolInv workerNum) hrun
  have hlength := length_calls_runFrom hrun
  change _ = 0 + _ at hlength
  exact hinv.accounted (by omega)

end ClientPool

open ClientPool in
/-- Assumes: a run with fewer than 2 ^ 63 calls of `submit`. In each of the three pools, with any
number of workers, the requests are accounted for in every state that a run reaches. -/
theorem pools_accounted (workerNum : ℕ) (Doc Prefs : Type) :
    (∀ actions pool, actions.countP isSubmit < 2 ^ 63 →
      runFrom (step mysqlPool) (new workerNum) actions = some pool → pool.Accounted workerNum) ∧
    (∀ actions pool, actions.countP isSubmit < 2 ^ 63 →
      runFrom (step redisPool) (new workerNum) actions = some pool → pool.Accounted workerNum) ∧
    ∀ actions pool, actions.countP isSubmit < 2 ^ 63 →
      runFrom (step (mongoPool Doc Prefs)) (new workerNum) actions = some pool →
        pool.Accounted workerNum :=
  ⟨fun _ _ hsubmits hrun ↦ accounted_of_run hsubmits hrun,
    fun _ _ hsubmits hrun ↦ accounted_of_run hsubmits hrun,
    fun _ _ hsubmits hrun ↦ accounted_of_run hsubmits hrun⟩

/-- A client of a server that accepts everything. -/
def idleClient : MysqlClient where
  execQuery := fun _ _ ↦ 0
  execRealQuery := fun _ _ ↦ 0
  execQueryForResult := fun _ ↦ (0, [])
  execStatement := fun _ _ _ ↦ (0, [], [])

/-- A request is put back once before it finds a client. -/
def retryOnce : List (PoolAction MysqlClient MysqlClientReq) :=
  [.submit (MysqlClientReq.newQuery 0 [0x3B#8] false), .push 0, .pop 1, .getClient 1 none,
    .pop 0, .getClient 0 (some idleClient), .onResponse 0]

open ClientPool in
theorem pools_accounted_retry :
    ∃ pool, runFrom (step mysqlPool) (new (workerNum 2)) retryOnce = some pool ∧
      pool.Accounted (workerNum 2) ∧ pool.answered = [0] ∧ pool.pops = [0, 0] :=
  ⟨_, rfl, (pools_accounted (workerNum 2) Unit Unit).1 retryOnce _ (by decide) rfl, rfl, rfl⟩

end TszyUlt.Wjp
