import TszyUlt.Lygc.DbProxy
import TszyUlt.Wjp.DecodeWork

/-!
# What the database proxies take from their users

`DBProxyMySQLUser::onRecvMsg`, `DBProxyRedisUser::onRecvMsg` and `DBProxyMongoUser::onRecvMsg`, with
the first half of `submit` of the three proxies: a message of the right type is deserialized, and
the request is given to the pool of its slot, if there is one. Each of the three is `onRecvMsg` with
the type of its messages and its kind of request.

Nothing on this path refuses a body. A deserializer that finds too few bytes reads zeros, and zero
is a type that a pool runs: the empty body is `dropDatabase` for the MongoDB proxy
(`empty_body_submitted`). A body that is no serialization of a request (`DbKind.Malformed`) is kept
from the pools only where its fourth byte names a slot without one (`malformed_not_submitted_iff`).
-/

set_option autoImplicit false
set_option relaxedAutoImplicit false

namespace TszyUlt.Lygc

open Lib Zbf Fszm Wjp

/-- `LYMSG_TYPE_DB_MYSQL`. -/
def typeDbMysql : BitVec 32 := 0x00000021#32

/-- `LYMSG_TYPE_DB_MONGO`. -/
def typeDbMongo : BitVec 32 := 0x00000022#32

/-- `LYMSG_TYPE_DB_REDIS`. -/
def typeDbRedis : BitVec 32 := 0x00000023#32

/-- The pool that `submit` finds for a slot. -/
def poolAt (pools : Fin maxDbSlots → Bool) (slot : BitVec 8) : Option (Fin maxDbSlots) :=
  if hslot : slot.toNat < maxDbSlots then
    if pools ⟨slot.toNat, hslot⟩ then some ⟨slot.toNat, hslot⟩ else none
  else none

/-- The step of the proxy starts a call of `submit` in a pool exactly where one is found. -/
theorem step_submit_calls {order : ByteOrder} {origin : BitVec 16} {pools : Fin maxDbSlots → Bool}
    {proxy next : DbProxy} {slot : BitVec 8} {reqHeader : LymsgHeader} {user : UserId}
    (hstep : proxy.step order origin pools (.submit slot reqHeader user) = some next) :
    next.calls = proxy.calls ++ ((poolAt pools slot).map fun pool ↦
      ⟨pool, proxy.reqIds pool, reqHeader, user, .pushing, .unsent, 0⟩).toList := by
  rw [DbProxy.step] at hstep
  by_cases halive : proxy.alive user
  · rw [if_pos halive] at hstep
    by_cases hslot : slot.toNat < maxDbSlots
    · rw [dif_pos hslot] at hstep
      rw [poolAt, dif_pos hslot]
      by_cases hpool : pools ⟨slot.toNat, hslot⟩
      · simp only [hpool, if_true, Option.some.injEq] at hstep
        rw [if_pos hpool, ← hstep]
        rfl
      · simp only [hpool, Bool.false_eq_true, if_false, Option.some.injEq] at hstep
        rw [if_neg hpool, ← hstep]
        exact (List.append_nil _).symm
    · rw [dif_neg hslot] at hstep
      rw [poolAt, dif_neg hslot, ← Option.some.inj hstep]
      exact (List.append_nil _).symm
  · rw [if_neg halive] at hstep
    cases hstep

/-- A request that `onRecvMsg` gives to a pool. -/
structure Submission (Req : Type) where
  pool : Fin maxDbSlots
  req : Req
  reqHeader : LymsgHeader
  deriving DecidableEq, Repr

/-- `onRecvMsg` of a proxy for requests of one kind: what it submits. -/
def onRecvMsg {Req : Type} (order : ByteOrder) (msgType : BitVec 32) (deserialize : Bytes → Req)
    (dbSlot : Req → BitVec 8) (pools : Fin maxDbSlots → Bool) (msg : TcpMessage) :
    Option (Submission Req) :=
  match unpackMsg order msg with
  | .error _ => none
  | .ok (reqHeader, reqData) =>
    if reqHeader.type = msgType then
      let req := deserialize reqData
      (poolAt pools (dbSlot req)).map fun pool ↦ ⟨pool, req, reqHeader⟩
    else none

section Users

variable {Doc Prefs : Type} (order : ByteOrder) (pools : Fin maxDbSlots → Bool) (msg : TcpMessage)

/-- `DBProxyMySQLUser::onRecvMsg`. -/
def DbProxyMysqlUser.onRecvMsg : Option (Submission MysqlClientReq) :=
  Lygc.onRecvMsg order typeDbMysql (MysqlClientReq.deserialize order) MysqlClientReq.dbSlot pools
    msg

/-- `DBProxyRedisUser::onRecvMsg`. -/
def DbProxyRedisUser.onRecvMsg : Option (Submission RedisClientReq) :=
  Lygc.onRecvMsg order typeDbRedis (RedisClientReq.deserialize order) RedisClientReq.dbSlot pools
    msg

/-- `DBProxyMongoUser::onRecvMsg`. The slot of a request is that of its head. -/
def DbProxyMongoUser.onRecvMsg (bson : Libbson Doc) :
    Option (Submission (MongoClientReq Doc Prefs)) :=
  Lygc.onRecvMsg order typeDbMongo (MongoClientReq.deserialize bson order)
    (fun req ↦ req.head.dbSlot) pools msg

end Users

/-! ### The three kinds of proxies -/

/-- The kinds of databases that have a proxy. -/
inductive DbKind
  | mysql
  | redis
  | mongo
  deriving DecidableEq, Repr

namespace DbKind

/-- The type of the messages that the proxy takes. -/
def msgType : DbKind → BitVec 32
  | mysql => typeDbMysql
  | redis => typeDbRedis
  | mongo => typeDbMongo

/-- The pool to which the proxy submits a request for a message, if it submits one. -/
def submitted {Doc : Type} (bson : Libbson Doc) (order : ByteOrder)
    (pools : Fin maxDbSlots → Bool) (msg : TcpMessage) : DbKind → Option (Fin maxDbSlots)
  | mysql => (DbProxyMysqlUser.onRecvMsg order pools msg).map Submission.pool
  | redis => (DbProxyRedisUser.onRecvMsg order pools msg).map Submission.pool
  | mongo => (DbProxyMongoUser.onRecvMsg order pools msg bson :
      Option (Submission (MongoClientReq Doc Unit))).map Submission.pool

/-- The bytes are the serialization of no request of the kind, on hosts of either byte order. -/
def Malformed {Doc : Type} (bson : Libbson Doc) (body : Bytes) : DbKind → Prop
  | mysql => ∀ order, ∀ req : MysqlClientReq, req.serialize order ≠ body
  | redis => ∀ order, ∀ req : RedisClientReq, req.serialize order ≠ body
  | mongo => ∀ order, ∀ req : MongoClientReq Doc Unit, req.serialize bson order ≠ body

end DbKind

/-! ### The slot of a body -/

section Slot

variable (order : ByteOrder) (data : Bytes)

theorem dbSlot_mysql : (MysqlClientReq.deserialize order data).dbSlot = data[3]?.getD 0 := by
  obtain ⟨version, type, hrun⟩ := run_header order data fun version type dbSlot ↦ do
    let sql ← deserializeStr order
    let transaction ← deserializeBool
    let stmtParam ← deserializeOptional (MysqlStmtReqParams.read order)
    return { version, type, dbSlot, sql, transaction, stmtParam : MysqlClientReq }
  rw [MysqlClientReq.deserialize, MysqlClientReq.read, hrun]
  suffices hyields : Yields _ fun read : MysqlClientReq ↦ read.dbSlot = data[3]?.getD 0
    from hyields _
  refine Yields.bind fun sql ↦ ?_
  refine Yields.bind fun transaction ↦ ?_
  refine Yields.bind fun stmtParam ↦ ?_
  exact yields_pure rfl

theorem dbSlot_redis : (RedisClientReq.deserialize order data).dbSlot = data[3]?.getD 0 := by
  obtain ⟨version, type, hrun⟩ := run_header order data fun version type dbSlot ↦ do
    let argv ← RedisClientReq.readArgv order
    return { version, type, dbSlot, argv : RedisClientReq }
  rw [RedisClientReq.deserialize, RedisClientReq.read, hrun]
  suffices hyields : Yields _ fun read : RedisClientReq ↦ read.dbSlot = data[3]?.getD 0
    from hyields _
  refine Yields.bind fun argv ↦ ?_
  exact yields_pure rfl

theorem dbSlot_mongo {Doc Prefs : Type} (bson : Libbson Doc) :
    (MongoClientReq.deserialize bson order data : MongoClientReq Doc Prefs).head.dbSlot =
      data[3]?.getD 0 := by
  obtain ⟨version, type, hrun⟩ := run_header order data fun version type dbSlot ↦ do
    let collName ← deserializeStr order
    let opts ← deserializeBson bson order
    let query ← deserializeBson bson order
    let write ← deserializeBson bson order
    let multWrite ← deserializeCounted order (deserializeBson bson order)
    return { version, type, dbSlot, collName, opts, query, write, multWrite : MongoNode Doc Prefs }
  rw [head_deserialize, MongoNode.deserializeOne, hrun]
  suffices hyields : Yields _ fun read : MongoNode Doc Prefs ↦ read.dbSlot = data[3]?.getD 0
    from hyields _
  refine Yields.bind fun collName ↦ ?_
  refine Yields.bind fun opts ↦ ?_
  refine Yields.bind fun query ↦ ?_
  refine Yields.bind fun write ↦ ?_
  refine Yields.bind fun multWrite ↦ ?_
  exact yields_pure rfl

end Slot

/-! ### Malformed bodies -/

/-- Assumes: a message with a header of the right type. `onRecvMsg` submits a request to the pool of
the slot that the deserialized request names. -/
theorem pool_onRecvMsg {Req : Type} {order : ByteOrder} {msgType : BitVec 32}
    {deserialize : Bytes → Req} {dbSlot : Req → BitVec 8} (pools : Fin maxDbSlots → Bool)
    {msg : TcpMessage} {reqHeader : LymsgHeader} {body : Bytes}
    (hmsg : unpackMsg order msg = .ok (reqHeader, body)) (htype : reqHeader.type = msgType) :
    (onRecvMsg order msgType deserialize dbSlot pools msg).map Submission.pool =
      poolAt pools (dbSlot (deserialize body)) := by
  simp only [onRecvMsg, hmsg, htype, if_true, Option.map_map]
  exact Option.map_id'

/-- Assumes: a message with a header of the right type. Whatever its body is, a request is submitted
to the pool of the slot in the fourth byte of the body. -/
theorem submitted_eq_poolAt {Doc : Type} (bson : Libbson Doc) {order : ByteOrder}
    (pools : Fin maxDbSlots → Bool) (kind : DbKind) {msg : TcpMessage} {reqHeader : LymsgHeader}
    {body : Bytes} (hmsg : unpackMsg order msg = .ok (reqHeader, body))
    (htype : reqHeader.type = kind.msgType) :
    kind.submitted bson order pools msg = poolAt pools (body[3]?.getD 0) := by
  cases kind with
  | mysql =>
    have hkind : reqHeader.type = typeDbMysql := htype
    rw [DbKind.submitted, DbProxyMysqlUser.onRecvMsg, pool_onRecvMsg pools hmsg hkind,
      dbSlot_mysql]
  | redis =>
    have hkind : reqHeader.type = typeDbRedis := htype
    rw [DbKind.submitted, DbProxyRedisUser.onRecvMsg, pool_onRecvMsg pools hmsg hkind,
      dbSlot_redis]
  | mongo =>
    have hkind : reqHeader.type = typeDbMongo := htype
    rw [DbKind.submitted, DbProxyMongoUser.onRecvMsg, pool_onRecvMsg pools hmsg hkind,
      dbSlot_mongo]

/-- Assumes: a message with a header of the right type. A body that is no serialization of a request
is kept from the pools exactly if it is one after all, or no pool is found for the slot in its
fourth byte. -/
theorem malformed_not_submitted_iff {Doc : Type} (bson : Libbson Doc) {order : ByteOrder}
    (pools : Fin maxDbSlots → Bool) (kind : DbKind) {msg : TcpMessage} {reqHeader : LymsgHeader}
    {body : Bytes} (hmsg : unpackMsg order msg = .ok (reqHeader, body))
    (htype : reqHeader.type = kind.msgType) :
    (kind.Malformed bson body → kind.submitted bson order pools msg = none) ↔
      (¬kind.Malformed bson body ∨ poolAt pools (body[3]?.getD 0) = none) := by
  rw [submitted_eq_poolAt bson pools kind hmsg htype]
  exact imp_iff_not_or

/-- The empty string is no serialization of a request. -/
theorem malformed_nil {Doc : Type} (bson : Libbson Doc) (kind : DbKind) :
    kind.Malformed bson [] := by
  have hversion : ∀ order version rest, serializeUint16 order version ++ rest ≠ [] := by
    intro order version rest hnil
    have hlength := congrArg List.length hnil
    rw [List.length_append, serializeUint16, length_store] at hlength
    simp at hlength
  cases kind with
  | mysql => exact fun order req ↦ hversion order req.version _
  | redis => exact fun order req ↦ hversion order req.version _
  | mongo =>
    intro order req hnil
    exact hversion order req.head.version _ (List.append_eq_nil_iff.mp hnil).1

/-- A proxy with a pool in every slot submits an empty body: an empty query, an empty command, and
the removal of the database. -/
theorem empty_body_submitted :
    ¬(∀ kind : DbKind, kind.Malformed framedBson [] →
      kind.submitted framedBson .little (fun _ ↦ true)
        (packMsg .little ⟨0, 0, kind.msgType, 0, 0⟩ []) = none) ∧
    ((DbProxyMongoUser.onRecvMsg .little (fun _ ↦ true)
      (packMsg .little ⟨0, 0, typeDbMongo, 0, 0⟩ []) framedBson :
        Option (Submission (MongoClientReq _ Unit))).map fun sub ↦ sub.req.head.type) =
      some MongoClientReqType.dropDatabase.code := by
  constructor
  · intro hnone
    have hmongo := hnone .mongo (malformed_nil framedBson .mongo)
    rw [submitted_eq_poolAt framedBson (fun _ ↦ true) .mongo
      (unpackMsg_packMsg .little ⟨0, 0, DbKind.mongo.msgType, 0, 0⟩ [] .little) rfl] at hmongo
    exact absurd hmongo (by decide)
  · decide

theorem malformed_not_submitted_iff_short :
    DbKind.redis.submitted framedBson .little (fun slot ↦ decide (slot.val = 7))
      (packMsg .little ⟨0, 0, typeDbRedis, 0, 0⟩ []) = none :=
  (malformed_not_submitted_iff framedBson (fun slot ↦ decide (slot.val = 7)) .redis
    (unpackMsg_packMsg .little ⟨0, 0, typeDbRedis, 0, 0⟩ [] .little) rfl).mpr (.inr (by decide))
    (malformed_nil framedBson .redis)

end TszyUlt.Lygc
