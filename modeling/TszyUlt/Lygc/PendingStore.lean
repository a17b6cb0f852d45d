import Mathlib.Data.Fintype.Basic
import TszyUlt.Lib.Table
import TszyUlt.Lib.Transition
import TszyUlt.Lygc.LymsgProtocol

/-!
# The store of pending requests

`lygc/net_server.hpp`: `NetServer::savePenddingReq`, `response` and `cleanupUserContext`, and
`NetUser::createResponse`. A handler that answers later saves the request under a new id; whoever
has the answer calls `response` with the id; a user that disconnects is cleaned up after. The
entries are kept in sixteen shards, each under its own lock, and refer to their user weakly.

`PendingStore` is the store with the threads that use it. Each atomic operation and each section
under a lock is a step: the increment of the id counter, the insertion, the lookup that takes an
entry out, the lock of the weak reference, the post, and the sweep of one shard. A user is destroyed
when no thread holds a reference to it.

Scope. `posted` is the call of `postMsg` with the message; whether the write queue of the user takes
it is decided in `tcpsock_user::post`. The log texts are not modelled.
-/

set_option autoImplicit false
set_option relaxedAutoImplicit false

namespace TszyUlt.Lygc

open Lib Zbf

/-! ### The store and its steps -/

/-- `request_id_t`. -/
abbrev RequestId := BitVec 64

/-- The identity of a `NetUser`. -/
abbrev UserId := ℕ

/-- `ReqContext`: the user it refers to, and the request. -/
structure ReqContext where
  user : UserId
  reqHeader : LymsgHeader
  reqData : Bytes
  deriving DecidableEq, Repr

/-- The header of a response: the origin of the server, and the type and serial of the request. -/
def responseHeader (baseOrigin : BitVec 16) (reqHeader : LymsgHeader) : LymsgHeader where
  origin := baseOrigin
  reserve := 0
  type := reqHeader.type ||| typeResp
  serial := reqHeader.serial
  size := 0

/-- `NetUser::createResponse`. -/
def createResponse (order : ByteOrder) (baseOrigin : BitVec 16) (reqHeader : LymsgHeader)
    (respData : Bytes) : TcpMessage :=
  packMsg order (responseHeader baseOrigin reqHeader) respData

/-- `MinRequestId`. -/
def minRequestId : RequestId := 101#64

/-- `REQ_SHARD_COUNT`. -/
abbrev reqShardCount : ℕ := 16

/-- `shardIdx`. -/
def shardIdx (reqId : RequestId) : Fin reqShardCount :=
  Fin.ofNat reqShardCount (reqId &&& 15#64).toNat

/-- Where a thread stands in the calls of the store. -/
inductive StoreThread
  | idle
  /-- In `savePenddingReq`: the id is drawn, the context is to be inserted. -/
  | saving (reqId : RequestId) (ctx : ReqContext)
  /-- In `response`: the context is taken out, the user is to be locked. -/
  | responding (reqId : RequestId) (ctx : ReqContext) (respData : Bytes)
  /-- In `response`: the user is locked, the answer is to be posted. -/
  | posting (reqId : RequestId) (ctx : ReqContext) (respData : Bytes)
  /-- In `cleanupUserContext`: the shard to be swept next. -/
  | cleaning (user : UserId) (shard : Fin reqShardCount)
  deriving DecidableEq, Repr

/-- Whether the thread holds a reference to the user. The caller of `savePenddingReq` does. -/
def StoreThread.holdsUser : StoreThread → UserId → Bool
  | .saving _ ctx, user => ctx.user = user
  | .posting _ ctx _, user => ctx.user = user
  | .cleaning cleaned _, user => cleaned = user
  | _, _ => false

/-- What an observer records. -/
inductive StoreEvent
  /-- `savePenddingReq` returned the id. -/
  | saved (reqId : RequestId) (ctx : ReqContext)
  /-- `response` took the context out. -/
  | taken (reqId : RequestId)
  /-- `response` found no context and returned -1. -/
  | missed (reqId : RequestId)
  /-- `response` found the user gone and returned -1. -/
  | gone (reqId : RequestId)
  /-- `response` posted the message to the user and returned 0. -/
  | posted (reqId : RequestId) (user : UserId) (msg : TcpMessage)
  /-- A sweep of `cleanupUserContext` removed the contexts of these ids. -/
  | cleaned (victims : RequestId → Bool)

/-- The events in the life of an id. A `response` that finds nothing is none. -/
def StoreEvent.concerns (reqId : RequestId) : StoreEvent → Bool
  | .saved other _ => other = reqId
  | .taken other => other = reqId
  | .missed _ => false
  | .gone other => other = reqId
  | .posted other _ _ => other = reqId
  | .cleaned victims => victims reqId

/-- The id that `savePenddingReq` returned. -/
def StoreEvent.savedId : StoreEvent → Option RequestId
  | .saved reqId _ => some reqId
  | _ => none

/-- `NetServer`, as far as pending requests go, with the threads that use it, the users, and what an
observer records: how often an id was drawn, and the events. -/
structure PendingStore (Thread : Type*) where
  reqIdCreator : RequestId
  reqShards : Sharded (Fin reqShardCount) RequestId ReqContext
  alive : UserId → Bool
  threads : Thread → StoreThread
  saves : ℕ
  log : List StoreEvent

/-- The steps of the threads. -/
inductive StoreAction (Thread : Type*)
  | savePenddingReq (thread : Thread) (user : UserId) (reqHeader : LymsgHeader) (reqData : Bytes)
  | saveReqContext (thread : Thread)
  | response (thread : Thread) (reqId : RequestId) (respData : Bytes)
  | lockUser (thread : Thread)
  | postMsg (thread : Thread)
  | cleanupUserContext (thread : Thread) (user : UserId)
  | cleanShard (thread : Thread)
  | destroyUser (user : UserId)

namespace PendingStore

variable {Thread : Type*}

/-- A store before its first request, all threads outside it. -/
def new : PendingStore Thread where
  reqIdCreator := minRequestId
  reqShards := fun _ ↦ Table.empty
  alive := fun _ ↦ true
  threads := fun _ ↦ .idle
  saves := 0
  log := []

/-- The table that the shards stand for. -/
def view (store : PendingStore Thread) : Table RequestId ReqContext :=
  Sharded.view shardIdx store.reqShards

/-- The test of `cleanupUserContext`: the user is gone, or the one to be cleaned up after. -/
def stale (store : PendingStore Thread) (user : UserId) (ctx : ReqContext) : Bool :=
  !store.alive ctx.user || ctx.user = user

/-- The ids whose contexts a sweep of a shard removes. -/
def victims (store : PendingStore Thread) (user : UserId) (shard : Fin reqShardCount)
    (reqId : RequestId) : Bool :=
  shardIdx reqId = shard && (store.view reqId).any (store.stale user)

/-- The shard after the given one, if there is one. -/
def nextShard (shard : Fin reqShardCount) : Option (Fin reqShardCount) :=
  if h : shard.val + 1 < reqShardCount then some ⟨shard.val + 1, h⟩ else none

variable [DecidableEq Thread]

/-- A thread goes on. -/
def setThread (store : PendingStore Thread) (thread : Thread) (at' : StoreThread) :
    PendingStore Thread :=
  { store with threads := Function.update store.threads thread at' }

/-- The sweep of one shard in `cleanupUserContext`. -/
def sweepShard (store : PendingStore Thread) (thread : Thread) (user : UserId)
    (shard : Fin reqShardCount) : PendingStore Thread :=
  { store.setThread thread ((nextShard shard).elim .idle (.cleaning user)) with
    reqShards := Sharded.removeIf store.reqShards shard (store.stale user)
    log := store.log ++ [.cleaned (store.victims user shard)] }

variable [Fintype Thread] (order : ByteOrder) (baseOrigin : BitVec 16)

/-- One step of the store. -/
def step (store : PendingStore Thread) : StoreAction Thread → Option (PendingStore Thread)
  | .savePenddingReq thread user reqHeader reqData =>
    if store.threads thread = .idle ∧ store.alive user = true then
      some { store.setThread thread (.saving store.reqIdCreator ⟨user, reqHeader, reqData⟩) with
        reqIdCreator := store.reqIdCreator + 1
        saves := store.saves + 1 }
    else none
  | .saveReqContext thread =>
    match store.threads thread with
    | .saving reqId ctx =>
      some { store.setThread thread .idle with
        reqShards := Sharded.insertNew shardIdx store.reqShards reqId ctx
        log := store.log ++ [.saved reqId ctx] }
    | _ => none
  | .response thread reqId respData =>
    if store.threads thread = .idle then
      match store.view reqId with
      | none => some { store with log := store.log ++ [.missed reqId] }
      | some ctx =>
        some { store.setThread thread (.responding reqId ctx respData) with
          reqShards := Sharded.erase shardIdx store.reqShards reqId
          log := store.log ++ [.taken reqId] }
    else none
  | .lockUser thread =>
    match store.threads thread with
    | .responding reqId ctx respData =>
      if store.alive ctx.user then some (store.setThread thread (.posting reqId ctx respData))
      else some { store.setThread thread .idle with log := store.log ++ [.gone reqId] }
    | _ => none
  | .postMsg thread =>
    match store.threads thread with
    | .posting reqId ctx respData =>
      some { store.setThread thread .idle with
        log := store.log ++
          [.posted reqId ctx.user (createResponse order baseOrigin ctx.reqHeader respData)] }
    | _ => none
  | .cleanupUserContext thread user =>
    if store.threads thread = .idle ∧ store.alive user = true then
      some (store.setThread thread (.cleaning user 0))
    else none
  | .cleanShard thread =>
    match store.threads thread with
    | .cleaning user shard => some (store.sweepShard thread user shard)
    | _ => none
  | .destroyUser user =>
    if ∀ thread, (store.threads thread).holdsUser user = false then
      some { store with alive := Function.update store.alive user false }
    else none

end PendingStore

end TszyUlt.Lygc
