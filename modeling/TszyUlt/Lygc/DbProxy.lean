import Mathlib.Data.Fintype.Basic
import TszyUlt.Lygc.PendingStore
import TszyUlt.Zbf.SafeQueue

/-!
# The database proxy and its pools

`lygc/dbproxy_base.hpp` with `dbproxy_mysql.hpp`, `dbproxy_mongo.hpp` and `dbproxy_redis.hpp`, over
the pools of `wjp/mysql_client.hpp`, `mongo_client.hpp` and `redis_client.hpp`. The three proxies
are the same program here: `submit` gives the request to the pool of its slot, which draws an id and
pushes the request to its queue, and then saves the header and the user under this id. The workers
of the pool take requests off the queue, answer them or put them back, and pass the answer to
`onResponseBase`, which takes the saved entry out and posts the response to the user.

`DbProxy` is the proxy with everything that is under way: each call of `submit` has a number and a
record (`DbCall`) of where the call itself stands (`SubmitAt`) and where its request is
(`RequestAt`). Each section under a lock and each atomic operation is a step: the draw of the id,
the push, the insertion of the entry, the pop, the lookup that takes the entry out, the lock of the
weak reference, the post, and the sweep of one shard when a user has disconnected. So a run is any
interleaving of the threads that submit, the workers, and the threads that close connections.
`step_moves` says what a step can do.

Scope. A worker answers with any data; what the database does is not modelled. The sweeps of
`cleanupUserPending` may come in any order. `post` is the call of `tcpsock_user::post`. The release
of the queues and entries when the server stops is not modelled.
-/

set_option autoImplicit false
set_option relaxedAutoImplicit false

namespace TszyUlt.Lygc

open Lib Zbf

/-- `MAX_DB_SLOTS`. -/
abbrev maxDbSlots : ℕ := 64

/-- `DBCltPoolCtx::SHARD_COUNT`. -/
abbrev dbShardCount : ℕ := 16

theorem and_fifteen_lt (dbReqId : RequestId) : (dbReqId &&& 15#64).toNat < dbShardCount := by
  rw [BitVec.toNat_and]
  exact Nat.lt_succ_of_le Nat.and_le_right

/-- `DBCltPoolCtx::shardIdx`. -/
def dbShardIdx (dbReqId : RequestId) : Fin dbShardCount :=
  ⟨(dbReqId &&& 15#64).toNat, and_fifteen_lt dbReqId⟩

/-- `MinReqId` of the pools. -/
def minReqId : RequestId := 100#64

/-- `PoolIsBusy` of the pools. -/
def poolIsBusy : RequestId := 1#64

/-- `MaxPendingReq` of the pools. -/
def maxPendingReq : ℕ := 256

/-- `MaxRetryTimes` of the pools. -/
def maxRetryTimes : ℕ := 3

/-- `PenddingReq`, and the call of `submit` that saved it. -/
structure PenddingReq where
  user : UserId
  reqHeader : LymsgHeader
  saver : ℕ
  deriving DecidableEq, Repr

/-- Where a call of `submit` stands. -/
inductive SubmitAt
  /-- The id is drawn, the request is to be pushed. -/
  | pushing
  /-- The pool accepted the request, the entry is to be inserted. -/
  | saving
  /-- The call has returned, the pool accepted the request. -/
  | accepted
  /-- The call has returned, the pool answered `PoolIsBusy`. -/
  | busy
  deriving DecidableEq, Repr

/-- Where the request of a call of `submit` is. -/
inductive RequestAt
  | unsent
  | queued
  /-- A worker has it. -/
  | working
  /-- In `onResponseBase`: the entry is taken out, the user is to be locked. -/
  | found (pendReq : PenddingReq) (respData : Bytes)
  /-- In `onResponseBase`: the user is locked, the response is to be posted. -/
  | posting (pendReq : PenddingReq) (respData : Bytes)
  /-- `onResponseBase` has returned. -/
  | answered (respData : Bytes)
  deriving DecidableEq, Repr

/-- A call of `submit` and its request. -/
structure DbCall where
  slot : Fin maxDbSlots
  dbReqId : RequestId
  reqHeader : LymsgHeader
  user : UserId
  submit : SubmitAt
  request : RequestAt
  retryTimes : ℕ
  deriving DecidableEq, Repr

namespace DbCall

/-- The request is in the queue or with a worker. -/
def waiting (call : DbCall) : Bool := call.request = .queued || call.request = .working

/-- The id of the call is in use. -/
def active (call : DbCall) : Bool :=
  call.submit = .pushing || call.submit = .saving || call.waiting

/-- Whether a thread in the call holds a reference to the user. -/
def holdsUser (call : DbCall) (user : UserId) : Bool :=
  (call.submit = .pushing || call.submit = .saving) && call.user = user ||
    match call.request with
    | .posting pendReq _ => pendReq.user = user
    | _ => false

end DbCall

/-- A response posted to a user, and the call of `submit` that saved the entry it is made from. -/
structure DbPost where
  saver : ℕ
  user : UserId
  msg : TcpMessage
  deriving DecidableEq, Repr

/-- A proxy with its pools and users, and what an observer records. -/
structure DbProxy where
  /-- `_reqId` of the pool of each slot. -/
  reqIds : Fin maxDbSlots → RequestId
  queues : Fin maxDbSlots → SafeQueue ℕ
  poolCtx : Fin maxDbSlots → Sharded (Fin dbShardCount) RequestId PenddingReq
  connected : UserId → Bool
  alive : UserId → Bool
  calls : List DbCall
  posts : List DbPost

/-- The steps of the threads that use a proxy. A call of `submit` is given by its number. -/
inductive DbAction
  /-- `submit`, up to the draw of the id in the pool. -/
  | submit (slot : BitVec 8) (reqHeader : LymsgHeader) (user : UserId)
  /-- `submit`: the push in the pool. -/
  | push (tag : ℕ)
  /-- `submit`: the insertion in `savePenddingReq`. -/
  | savePenddingReq (tag : ℕ)
  /-- A worker of the slot: `pop_timeout`. -/
  | pop (slot : Fin maxDbSlots)
  /-- A worker without a client puts the request back. -/
  | requeue (tag : ℕ)
  /-- A worker answers: `onResponseBase`, up to the lookup. -/
  | onResponse (tag : ℕ) (respData : Bytes)
  /-- `onResponseBase`: the lock of the weak reference. -/
  | lockUser (tag : ℕ)
  /-- `onResponseBase`: the post. -/
  | post (tag : ℕ)
  /-- The pool of the slot is stopped. -/
  | stop (slot : Fin maxDbSlots)
  /-- The connection of the user is closed. -/
  | disconnect (user : UserId)
  /-- `cleanupUserPending`: the sweep of one shard. -/
  | cleanShard (user : UserId) (slot : Fin maxDbSlots) (shard : Fin dbShardCount)
  | destroyUser (user : UserId)
  deriving DecidableEq, Repr

namespace DbProxy

/-- A proxy before its first request. -/
def new : DbProxy where
  reqIds := fun _ ↦ minReqId
  queues := fun _ ↦ .new
  poolCtx := fun _ _ ↦ Table.empty
  connected := fun _ ↦ true
  alive := fun _ ↦ true
  calls := []
  posts := []

/-- The table that the shards of a slot stand for. -/
def view (proxy : DbProxy) (slot : Fin maxDbSlots) : Table RequestId PenddingReq :=
  Sharded.view dbShardIdx (proxy.poolCtx slot)

/-- The responses made from the entry that a call of `submit` saved. -/
def postsOf (proxy : DbProxy) (tag : ℕ) : List DbPost :=
  proxy.posts.filter fun post ↦ post.saver = tag

/-- The record of a call changes. -/
def setCall (proxy : DbProxy) (tag : ℕ) (call : DbCall) : DbProxy :=
  { proxy with calls := proxy.calls.set tag call }

/-- The queue of a slot changes. -/
def setQueue (proxy : DbProxy) (slot : Fin maxDbSlots) (queue : SafeQueue ℕ) : DbProxy :=
  { proxy with queues := Function.update proxy.queues slot queue }

/-- The shards of a slot change. -/
def setShards (proxy : DbProxy) (slot : Fin maxDbSlots)
    (shards : Sharded (Fin dbShardCount) RequestId PenddingReq) : DbProxy :=
  { proxy with poolCtx := Function.update proxy.poolCtx slot shards }

/-- The test of `cleanupUserPending`: the user is gone, or the one to be cleaned up after. -/
def stale (proxy : DbProxy) (user : UserId) (pendReq : PenddingReq) : Bool :=
  !proxy.alive pendReq.user || pendReq.user = user

/-- `DBProxyUserBase::createResponse`. -/
def createResponse (order : ByteOrder) (origin : BitVec 16) (reqHeader : LymsgHeader)
    (respData : Bytes) : TcpMessage :=
  Lygc.createResponse order origin reqHeader respData

/-- One step of a proxy with pools in the given slots. -/
def step (order : ByteOrder) (origin : BitVec 16) (pools : Fin maxDbSlots → Bool)
    (proxy : DbProxy) : DbAction → Option DbProxy
  | .submit slot reqHeader user =>
    if proxy.alive user then
      if hslot : slot.toNat < maxDbSlots then
        let slot : Fin maxDbSlots := ⟨slot.toNat, hslot⟩
        if pools slot then
          some { proxy with
            reqIds := Function.update proxy.reqIds slot (proxy.reqIds slot + 1)
            calls := proxy.calls ++
              [⟨slot, proxy.reqIds slot, reqHeader, user, .pushing, .unsent, 0⟩] }
        else some proxy
      else some proxy
    else none
  | .push tag =>
    match proxy.calls[tag]? with
    | some call =>
      if call.submit = .pushing then
        match (proxy.queues call.slot).push maxPendingReq tag with
        | (true, queue) =>
          -- The caller takes an accepted request for a refused one if its id is `PoolIsBusy`.
          let submit := if call.dbReqId = poolIsBusy then .busy else .saving
          some ((proxy.setQueue call.slot queue).setCall tag
            { call with submit := submit, request := .queued })
        | (false, _) => some (proxy.setCall tag { call with submit := .busy })
      else none
    | none => none
  | .savePenddingReq tag =>
    match proxy.calls[tag]? with
    | some call =>
      if call.submit = .saving then
        some ((proxy.setShards call.slot (Sharded.insertNew dbShardIdx (proxy.poolCtx call.slot)
          call.dbReqId ⟨call.user, call.reqHeader, tag⟩)).setCall tag
          { call with submit := .accepted })
      else none
    | none => none
  | .pop slot =>
    match (proxy.queues slot).popTimeout with
    | (.success tag, queue) =>
      proxy.calls[tag]?.map fun call ↦
        (proxy.setQueue slot queue).setCall tag { call with request := .working }
    | _ => some proxy
  | .requeue tag =>
    match proxy.calls[tag]? with
    | some call =>
      if call.request = .working ∧ call.retryTimes < maxRetryTimes then
        some ((proxy.setQueue call.slot ((proxy.queues call.slot).requeue tag)).setCall tag
          { call with request := .queued, retryTimes := call.retryTimes + 1 })
      else none
    | none => none
  | .onResponse tag respData =>
    match proxy.calls[tag]? with
    | some call =>
      if call.request = .working then
        match proxy.view call.slot call.dbReqId with
        | none => some (proxy.setCall tag { call with request := .answered respData })
        | some pendReq =>
          some ((proxy.setShards call.slot (Sharded.erase dbShardIdx (proxy.poolCtx call.slot)
            call.dbReqId)).setCall tag { call with request := .found pendReq respData })
      else none
    | none => none
  | .lockUser tag =>
    match proxy.calls[tag]? with
    | some call =>
      match call.request with
      | .found pendReq respData =>
        if proxy.alive pendReq.user then
          some (proxy.setCall tag { call with request := .posting pendReq respData })
        else some (proxy.setCall tag { call with request := .answered respData })
      | _ => none
    | none => none
  | .post tag =>
    match proxy.calls[tag]? with
    | some call =>
      match call.request with
      | .posting pendReq respData =>
        some { proxy.setCall tag { call with request := .answered respData } with
          posts := proxy.posts ++ [⟨pendReq.saver, pendReq.user,
            createResponse order origin pendReq.reqHeader respData⟩] }
      | _ => none
    | none => none
  | .stop slot => some (proxy.setQueue slot (proxy.queues slot).stop)
  | .disconnect user => some { proxy with connected := Function.update proxy.connected user false }
  | .cleanShard user slot shard =>
    if proxy.connected user = false ∧ proxy.alive user = true then
      some (proxy.setShards slot (Sharded.removeIf (proxy.poolCtx slot) shard (proxy.stale user)))
    else none
  | .destroyUser user =>
    if proxy.connected user = false ∧ ∀ call ∈ proxy.calls, call.holdsUser user = false then
      some { proxy with alive := Function.update proxy.alive user false }
    else none

/-- The lookup of an answer does not come between the push and the insertion of its call, and an id
that is drawn is not in use. -/
def SavedFirst (pools : Fin maxDbSlots → Bool) (proxy : DbProxy) : DbAction → Prop
  | .submit slot _ _ =>
    ∀ hslot : slot.toNat < maxDbSlots, pools ⟨slot.toNat, hslot⟩ = true →
      ∀ call ∈ proxy.calls, call.slot = ⟨slot.toNat, hslot⟩ → call.active = true →
        call.dbReqId ≠ proxy.reqIds ⟨slot.toNat, hslot⟩
  | .onResponse tag _ => ∀ call ∈ proxy.calls[tag]?, call.submit ≠ .saving
  | _ => True

instance decidableSavedFirst (pools : Fin maxDbSlots → Bool) (proxy : DbProxy) :
    ∀ action, Decidable (proxy.SavedFirst pools action)
  | .submit slot _ _ =>
    inferInstanceAs (Decidable (∀ hslot : slot.toNat < maxDbSlots,
      pools ⟨slot.toNat, hslot⟩ = true → ∀ call ∈ proxy.calls, call.slot = ⟨slot.toNat, hslot⟩ →
        call.active = true → call.dbReqId ≠ proxy.reqIds ⟨slot.toNat, hslot⟩))
  | .onResponse tag _ =>
    inferInstanceAs (Decidable (∀ call ∈ proxy.calls[tag]?, call.submit ≠ .saving))
  | .push _ | .savePenddingReq _ | .pop _ | .requeue _ | .lockUser _ | .post _ | .stop _
  | .disconnect _ | .cleanShard _ _ _ | .destroyUser _ => isTrue trivial

/-- Every request that the pool accepted and a worker answered, and whose user is still connected
after both calls, has had one response made from its own header posted to the user, and no entry for
it is left. -/
def Delivers (order : ByteOrder) (origin : BitVec 16) (proxy : DbProxy) : Prop :=
  ∀ tag call respData, proxy.calls[tag]? = some call → call.submit = .accepted →
    call.request = .answered respData → proxy.connected call.user = true →
    proxy.postsOf tag = [⟨tag, call.user, createResponse order origin call.reqHeader respData⟩] ∧
      ∀ slot dbReqId pendReq, proxy.view slot dbReqId = some pendReq → pendReq.saver ≠ tag

/-! ### What a step can do -/

section Moves

variable {order : ByteOrder} {origin : BitVec 16} {pools : Fin maxDbSlots → Bool}
variable {proxy next : DbProxy}

variable (order origin pools) in
/-- The changes that the steps of a proxy make. -/
inductive Moves (proxy : DbProxy) : DbAction → DbProxy → Prop
  | idle (action : DbAction) : Moves proxy action proxy
  | submit (slot : BitVec 8) (hslot : slot.toNat < maxDbSlots)
      (hpool : pools ⟨slot.toNat, hslot⟩ = true) (reqHeader : LymsgHeader) (user : UserId) :
    Moves proxy (.submit slot reqHeader user) { proxy with
      reqIds := Function.update proxy.reqIds ⟨slot.toNat, hslot⟩
        (proxy.reqIds ⟨slot.toNat, hslot⟩ + 1)
      calls := proxy.calls ++ [⟨⟨slot.toNat, hslot⟩, proxy.reqIds ⟨slot.toNat, hslot⟩, reqHeader,
        user, .pushing, .unsent, 0⟩] }
  | accept (tag : ℕ) (call : DbCall) (hcall : proxy.calls[tag]? = some call)
      (hsubmit : call.submit = .pushing) (queue : SafeQueue ℕ)
      (hpush : (proxy.queues call.slot).push maxPendingReq tag = (true, queue))
      (submit : SubmitAt)
      (hnow : submit = if call.dbReqId = poolIsBusy then .busy else .saving) :
    Moves proxy (.push tag) ((proxy.setQueue call.slot queue).setCall tag
      { call with submit := submit, request := .queued })
  | refuse (tag : ℕ) (call : DbCall) (hcall : proxy.calls[tag]? = some call)
      (hsubmit : call.submit = .pushing) :
    Moves proxy (.push tag) (proxy.setCall tag { call with submit := .busy })
  | savePenddingReq (tag : ℕ) (call : DbCall) (hcall : proxy.calls[tag]? = some call)
      (hsubmit : call.submit = .saving) :
    Moves proxy (.savePenddingReq tag)
      ((proxy.setShards call.slot (Sharded.insertNew dbShardIdx (proxy.poolCtx call.slot)
        call.dbReqId ⟨call.user, call.reqHeader, tag⟩)).setCall tag
        { call with submit := .accepted })
  | pop (slot : Fin maxDbSlots) (tag : ℕ) (queue : SafeQueue ℕ)
      (hpop : (proxy.queues slot).popTimeout = (.success tag, queue)) (call : DbCall)
      (hcall : proxy.calls[tag]? = some call) :
    Moves proxy (.pop slot)
      ((proxy.setQueue slot queue).setCall tag { call with request := .working })
  | requeue (tag : ℕ) (call : DbCall) (hcall : proxy.calls[tag]? = some call)
      (hworking : call.request = .working) (hretry : call.retryTimes < maxRetryTimes) :
    Moves proxy (.requeue tag)
      ((proxy.setQueue call.slot ((proxy.queues call.slot).requeue tag)).setCall tag
        { call with request := .queued, retryTimes := call.retryTimes + 1 })
  | answer (tag : ℕ) (call : DbCall) (hcall : proxy.calls[tag]? = some call)
      (hworking : call.request = .working) (hnone : proxy.view call.slot call.dbReqId = none)
      (respData : Bytes) :
    Moves proxy (.onResponse tag respData)
      (proxy.setCall tag { call with request := .answered respData })
  | take (tag : ℕ) (call : DbCall) (hcall : proxy.calls[tag]? = some call)
      (hworking : call.request = .working) (pendReq : PenddingReq)
      (hentry : proxy.view call.slot call.dbReqId = some pendReq) (respData : Bytes) :
    Moves proxy (.onResponse tag respData)
      ((proxy.setShards call.slot (Sharded.erase dbShardIdx (proxy.poolCtx call.slot)
        call.dbReqId)).setCall tag { call with request := .found pendReq respData })
  | lockUser (tag : ℕ) (call : DbCall) (hcall : proxy.calls[tag]? = some call)
      (pendReq : PenddingReq) (respData : Bytes) (hfound : call.request = .found pendReq respData)
      (halive : proxy.alive pendReq.user = true) :
    Moves proxy (.lockUser tag)
      (proxy.setCall tag { call with request := .posting pendReq respData })
  | drop (tag : ℕ) (call : DbCall) (hcall : proxy.calls[tag]? = some call)
      (pendReq : PenddingReq) (respData : Bytes) (hfound : call.request = .found pendReq respData)
      (hdead : proxy.alive pendReq.user = false) :
    Moves proxy (.lockUser tag) (proxy.setCall tag { call with request := .answered respData })
  | post (tag : ℕ) (call : DbCall) (hcall : proxy.calls[tag]? = some call)
      (pendReq : PenddingReq) (respData : Bytes)
      (hposting : call.request = .posting pendReq respData) :
    Moves proxy (.post tag) { proxy.setCall tag { call with request := .answered respData } with
      posts := proxy.posts ++ [⟨pendReq.saver, pendReq.user,
        createResponse order origin pendReq.reqHeader respData⟩] }
  | stop (slot : Fin maxDbSlots) :
    Moves proxy (.stop slot) (proxy.setQueue slot (proxy.queues slot).stop)
  | disconnect (user : UserId) :
    Moves proxy (.disconnect user)
      { proxy with connected := Function.update proxy.connected user false }
  | cleanShard (user : UserId) (slot : Fin maxDbSlots) (shard : Fin dbShardCount)
      (huser : proxy.connected user = false) :
    Moves proxy (.cleanShard user slot shard) (proxy.setShards slot
      (Sharded.removeIf (proxy.poolCtx slot) shard (proxy.stale user)))
  | destroyUser (user : UserId) (huser : proxy.connected user = false) :
    Moves proxy (.destroyUser user)
      { proxy with alive := Function.update proxy.alive user false }

theorem step_moves {action : DbAction} (hstep : proxy.step order origin pools action = some next) :
    Moves order origin pools proxy action next := by
  cases action with
  | submit slot reqHeader user =>
    simp only [step] at hstep
    split_ifs at hstep with halive hslot hpool
    · cases hstep
      exact .submit slot hslot hpool reqHeader user
    all_goals
      cases hstep
      exact .idle _
  | push tag =>
    simp only [step] at hstep
    split at hstep
    · rename_i call hcall
      rw [ite_eq_iff] at hstep
      rcases hstep with ⟨hsubmit, hstep⟩ | ⟨-, hnone⟩
      · split at hstep
        · rename_i queue hpush
          cases hstep
          exact .accept tag call hcall hsubmit queue hpush _ rfl
        · cases hstep
          exact .refuse tag call hcall hsubmit
      · cases hnone
    · cases hstep
  | savePenddingReq tag =>
    simp only [step] at hstep
    split at hstep
    · rename_i call hcall
      split_ifs at hstep with hsubmit
      cases hstep
      exact .savePenddingReq tag call hcall hsubmit
    · cases hstep
  | pop slot =>
    simp only [step] at hstep
    split at hstep
    · rename_i tag queue hpop
      obtain ⟨call, hcall, rfl⟩ := Option.map_eq_some_iff.mp hstep
      exact .pop slot tag queue hpop call hcall
    · cases hstep
      exact .idle _
  | requeue tag =>
    simp only [step] at hstep
    split at hstep
    · rename_i call hcall
      split_ifs at hstep with hretry
      cases hstep
      exact .requeue tag call hcall hretry.1 hretry.2
    · cases hstep
  | onResponse tag respData =>
    simp only [step] at hstep
    split at hstep
    · rename_i call hcall
      split_ifs at hstep with hworking
      split at hstep
      · rename_i hnone
        cases hstep
        exact .answer tag call hcall hworking hnone respData
      · rename_i pendReq hentry
        cases hstep
        exact .take tag call hcall hworking pendReq hentry respData
    · cases hstep
  | lockUser tag =>
    simp only [step] at hstep
    split at hstep
    · rename_i call hcall
      split at hstep
      · rename_i pendReq respData hfound
        split_ifs at hstep with halive
        · cases hstep
          exact .lockUser tag call hcall pendReq respData hfound halive
        · cases hstep
          exact .drop tag call hcall pendReq respData hfound (Bool.eq_false_of_not_eq_true halive)
      · cases hstep
    · cases hstep
  | post tag =>
    simp only [step] at hstep
    split at hstep
    · rename_i call hcall
      split at hstep
      · rename_i pendReq respData hposting
        cases hstep
        exact .post tag call hcall pendReq respData hposting
      · cases hstep
    · cases hstep
  | stop slot =>
    cases hstep
    exact .stop slot
  | disconnect user =>
    cases hstep
    exact .disconnect user
  | cleanShard user slot shard =>
    simp only [step] at hstep
    split_ifs at hstep with huser
    cases hstep
    exact .cleanShard user slot shard huser.1
  | destroyUser user =>
    simp only [step] at hstep
    split_ifs at hstep with huser
    cases hstep
    exact .destroyUser user huser.1

end Moves

end DbProxy

end TszyUlt.Lygc
