import TszyUlt.Wjp.MongoArguments

/-!
# The reply of a MongoDB request

`mongo_client_pool::handleRequest` of `wjp/mongo_client.hpp` once more, for the `reply` that
libmongoc produces. `mongo_client_resp` starts with a null pointer as its `reply`. `handleRequest`
passes the pointer by value to the method of `mongo_client` for the request, which passes it on to
libmongoc, and libmongoc stores the reply document where the pointer points to, if it is not null.
`mongo_client_resp::serialize` writes the document behind the pointer.

Nothing ever sets the pointer, so no reply gets to the one who asked (`reply_lost`), whatever the
request, the answers of libmongoc and the memory are. `producedReply_isSome_iff` says for which
requests there is a reply to lose.

Scope. What libmongoc answers is a parameter, as in `MongoArguments`, and so are the reply document
of each call and the documents that a search finds.
-/

set_option autoImplicit false
set_option relaxedAutoImplicit false

namespace TszyUlt.Wjp

open Lib Zbf Fszm

variable {Doc Prefs Session : Type}

/-! ### Documents behind pointers -/

/-- The documents in memory, by their addresses. -/
abbrev BsonMemory (Doc : Type) := Table ℕ Doc

/-- What a call of libmongoc does with its parameter `reply`: the document is stored where the
pointer points to, and nowhere if the pointer is null. -/
def storeReply (memory : BsonMemory Doc) (reply : Option ℕ) (doc : Doc) : BsonMemory Doc :=
  match reply with
  | none => memory
  | some address => Function.update memory address (some doc)

/-- The call is given the pointer that the method of `mongo_client` was given for its `reply`. The
writes of a transaction are given a null pointer. -/
def MongoCall.takesReply (inTransaction : Bool) : MongoCall Doc Prefs → Bool
  | .write _ => !inTransaction
  | .command _ _ _ => true
  | .bulkExecute => true
  | .commitTransaction => true
  | _ => false

/-- The request is a transaction. -/
def MongoClientReq.inTransaction (req : MongoClientReq Doc Prefs) : Bool :=
  req.head.type = MongoClientReqType.execTransaction.code

/-- `mongo_client_resp` as the pool holds it, with its `reply` as a pointer. -/
structure MongoRespObject (Doc : Type) where
  reqId : BitVec 64
  rc : Int32 := -1
  reply : Option ℕ := none
  resultDocs : List (Option Doc) := []
  deriving DecidableEq, Repr

/-- The response that `serialize` writes. -/
def MongoRespObject.contents (resp : MongoRespObject Doc) (memory : BsonMemory Doc) :
    MongoClientResp Doc where
  reqId := resp.reqId
  rc := resp.rc
  reply := resp.reply.bind memory
  resultDocs := resp.resultDocs

section Handling

variable (driver : MongoReports Doc Session) (produce : MongoCall Doc Prefs → Doc)

/-- The replies of the calls of a request are stored through the pointer, one after the other. -/
def storeReplies (inTransaction : Bool) (reply : Option ℕ) (memory : BsonMemory Doc)
    (calls : List (MongoCall Doc Prefs)) : BsonMemory Doc :=
  calls.foldl (fun memory call ↦
    storeReply memory (if call.takesReply inTransaction then reply else none) (produce call)) memory

/-- `mongo_client_pool::handleRequest`: the response that is passed to the listener, and the memory
then. -/
def handleReply (memory : BsonMemory Doc) (req : MongoClientReq Doc Prefs)
    (found : List (Option Doc)) : MongoRespObject Doc × BsonMemory Doc :=
  let resp : MongoRespObject Doc := { reqId := req.head.reqId }
  let (calls, rc) := requestCalls driver req
  let resultDocs := if req.head.type = MongoClientReqType.find.code then found else []
  ({ resp with rc, resultDocs }, storeReplies produce req.inTransaction resp.reply memory calls)

/-- The reply document that libmongoc produces for a request: that of the last call which takes the
pointer of the request. -/
def producedReply (req : MongoClientReq Doc Prefs) : Option Doc :=
  (((requestCalls driver req).1.filter (MongoCall.takesReply req.inTransaction)).getLast?).map
    produce

end Handling

/-! ### Which requests have a reply -/

variable {driver : MongoReports Doc Session} {req : MongoClientReq Doc Prefs}

/-- The operations that have a reply, besides bulks and transactions. -/
def replyTypes : List Int8 := MongoClientReqType.command.code :: chainTypes

theorem not_takesReply_of_bulkStep (position : ℕ) (node : MongoNode Doc Prefs) :
    ∀ call ∈ (bulkStep driver position node).1, call.takesReply false = false := by
  unfold bulkStep
  cases hcalls : node.bulkCalls with
  | error rc => exact fun _ hcall ↦ nomatch hcall
  | ok calls =>
    have hnone : ∀ call ∈ calls, call.takesReply false = false := by
      unfold MongoNode.bulkCalls at hcalls
      split_ifs at hcalls
      all_goals
        cases hcalls
        simp [MongoCall.takesReply]
    refine (forall_mem_runUntil_iff _ 0 calls).mpr fun i call hi _ other hother ↦ ?_
    rw [List.mem_singleton.mp hother]
    exact hnone call (List.mem_of_getElem? hi)

theorem not_takesReply_of_transactionStep (position : ℕ) (node : MongoNode Doc Prefs) :
    ∀ call ∈ (transactionStep driver position node).1, call.takesReply true = false := by
  unfold transactionStep
  cases node.transactionCall with
  | error rc => exact fun _ hcall ↦ nomatch hcall
  | ok call => exact fun other hother ↦ List.mem_singleton.mp hother ▸ rfl

theorem producedReply_isSome (produce : MongoCall Doc Prefs → Doc) :
    (producedReply driver produce req).isSome = true ↔
      ∃ call ∈ (requestCalls driver req).1, call.takesReply req.inTransaction = true := by
  rw [producedReply, Option.isSome_map, List.getLast?_isSome, ne_eq, List.filter_eq_nil_iff]
  simp only [not_forall, not_not, exists_prop]

/-- A bulk has a reply if it is executed. -/
theorem exists_takesReply_bulkExecute :
    (∃ call ∈ (bulkExecute driver req).1, call.takesReply false = true) ↔
      driver.createBulk = true ∧ (runUntil 0 (bulkStep driver) 0 req.rest).2 = 0 := by
  have hadded : ∀ call ∈ (runUntil 0 (bulkStep driver) 0 req.rest).1,
      call.takesReply false = false :=
    (forall_mem_runUntil_iff _ 0 req.rest).mpr fun i node _ _ ↦
      not_takesReply_of_bulkStep (0 + i) node
  unfold bulkExecute
  cases hcreate : driver.createBulk with
  | false => simp [MongoCall.takesReply]
  | true =>
    by_cases hzero : (runUntil 0 (bulkStep driver) 0 req.rest).2 = 0
    · simp [hzero, MongoCall.takesReply]
    · refine iff_of_false ?_ fun hboth ↦ hzero hboth.2
      rintro ⟨call, hcall, htakes⟩
      simp only [Bool.not_true, Bool.false_eq_true, if_false, if_neg hzero] at hcall
      rcases List.mem_cons.mp hcall with rfl | hcall
      · cases htakes
      · rw [hadded call hcall] at htakes
        cases htakes

/-- A transaction has a reply if its commit is tried. -/
theorem exists_takesReply_execTransactionCalls :
    (∃ call ∈ (execTransactionCalls driver req).1, call.takesReply true = true) ↔
      driver.startSession.isSome = true ∧ driver.startTransaction = true ∧
        (runUntil 0 (transactionStep driver) 0 req.rest).2 = 0 := by
  have hwrites : ∀ call ∈ (runUntil 0 (transactionStep driver) 0 req.rest).1,
      call.takesReply true = false :=
    (forall_mem_runUntil_iff _ 0 req.rest).mpr fun i node _ _ ↦
      not_takesReply_of_transactionStep (0 + i) node
  unfold execTransactionCalls
  cases hsession : driver.startSession with
  | none => simp [MongoCall.takesReply]
  | some session =>
    cases hstart : driver.startTransaction with
    | false => simp [MongoCall.takesReply]
    | true =>
      by_cases hzero : (runUntil 0 (transactionStep driver) 0 req.rest).2 = 0
      · refine iff_of_true ⟨.commitTransaction, ?_, rfl⟩ ⟨rfl, rfl, hzero⟩
        cases hcommit : driver.commitTransaction <;> simp [hzero]
      · refine iff_of_false ?_ fun hall ↦ hzero hall.2.2
        rintro ⟨call, hcall, htakes⟩
        simp only [if_true, hzero, false_and, if_false, List.append_nil,
          List.mem_append, List.mem_cons, List.not_mem_nil, or_false] at hcall
        rcases hcall with ((rfl | rfl) | hcall) | rfl
        · cases htakes
        · cases htakes
        · rw [hwrites call hcall] at htakes
          cases htakes
        · cases htakes

/-- A single operation has a reply if it is a write or a command. -/
theorem exists_takesReply_singleCall (node : MongoNode Doc Prefs) :
    (∃ call, node.singleCall = some call ∧ call.takesReply false = true) ↔
      node.type ∈ replyTypes := by
  unfold MongoNode.singleCall replyTypes
  split_ifs with hdrop hdropColl hfind hcommand
  · rw [hdrop]
    exact iff_of_false (fun ⟨_, hcall, htakes⟩ ↦ by cases hcall; cases htakes) (by decide)
  · rw [hdropColl]
    exact iff_of_false (fun ⟨_, hcall, htakes⟩ ↦ by cases hcall; cases htakes) (by decide)
  · rw [hfind]
    exact iff_of_false (fun ⟨_, hcall, htakes⟩ ↦ by cases hcall; cases htakes) (by decide)
  · exact iff_of_true ⟨_, rfl, rfl⟩ (hcommand ▸ List.mem_cons_self)
  · rw [List.mem_cons, or_iff_right hcommand, ← MongoNode.transactionCall_ok_iff]
    cases node.transactionCall with
    | error rc => exact iff_of_false nofun nofun
    | ok call => exact iff_of_true ⟨.write call, rfl, rfl⟩ ⟨call, rfl⟩

/-- The requests that have a reply: a bulk that is executed, a transaction whose commit is tried,
and every write and command. -/
theorem producedReply_isSome_iff (produce : MongoCall Doc Prefs → Doc) :
    (producedReply driver produce req).isSome = true ↔
      if req.head.type = MongoClientReqType.bulkExecute.code then
        driver.createBulk = true ∧ (runUntil 0 (bulkStep driver) 0 req.rest).2 = 0
      else if req.head.type = MongoClientReqType.execTransaction.code then
        driver.startSession.isSome = true ∧ driver.startTransaction = true ∧
          (runUntil 0 (transactionStep driver) 0 req.rest).2 = 0
      else req.head.type ∈ replyTypes := by
  rw [producedReply_isSome, requestCalls]
  split_ifs with hbulk htransaction
  · have hnot : req.inTransaction = false := by
      rw [MongoClientReq.inTransaction, hbulk]
      decide
    rw [hnot]
    exact exists_takesReply_bulkExecute
  · have hin : req.inTransaction = true := decide_eq_true htransaction
    rw [hin]
    exact exists_takesReply_execTransactionCalls
  · have hnot : req.inTransaction = false := decide_eq_false htransaction
    rw [hnot, ← exists_takesReply_singleCall]
    cases req.head.singleCall with
    | none => exact iff_of_false nofun nofun
    | some call => simp

/-! ### No reply arrives -/

/-- A null pointer leaves the memory as it is. -/
theorem storeReplies_none (produce : MongoCall Doc Prefs → Doc) (inTransaction : Bool)
    (memory : BsonMemory Doc) (calls : List (MongoCall Doc Prefs)) :
    storeReplies produce inTransaction none memory calls = memory := by
  induction calls generalizing memory with
  | nil => rfl
  | cons call calls ih =>
    have hstore : storeReply memory (if call.takesReply inTransaction then none else none)
        (produce call) = memory := by
      rw [ite_self]
      rfl
    rw [storeReplies, List.foldl_cons, hstore]
    exact ih memory

/-- The `reply` of a response is null, whatever libmongoc produced, and no document was stored. -/
theorem handleReply_null (driver : MongoReports Doc Session) (produce : MongoCall Doc Prefs → Doc)
    (memory : BsonMemory Doc) (req : MongoClientReq Doc Prefs) (found : List (Option Doc)) :
    (handleReply driver produce memory req found).1.reply = none ∧
      (handleReply driver produce memory req found).2 = memory :=
  ⟨rfl, storeReplies_none produce req.inTransaction memory (requestCalls driver req).1⟩

variable (bson : Libbson Doc) (sender receiver : ByteOrder)

/-- A response that was written without a reply is read without one. -/
theorem reply_deserialize_of_none {resp : MongoClientResp Doc} (hnone : resp.reply = none) :
    (MongoClientResp.deserialize bson receiver (resp.serialize bson sender)).reply = none := by
  rw [MongoClientResp.deserialize, MongoClientResp.read, MongoClientResp.serialize, hnone,
    (consumes_uint16 sender receiver resp.version).run_bind,
    (consumes_int64 sender receiver (Int64.ofBitVec resp.reqId)).run_bind,
    (consumes_int32 sender receiver resp.rc).run_bind,
    (consumes_bson_none sender receiver).run_bind]
  suffices hyields : Yields _ fun read : MongoClientResp Doc ↦ read.reply = none from hyields _
  exact Yields.bind fun resultDocs ↦ yields_pure rfl

/-- The response that the requester has: what `deserialize` makes of what the proxy serialized. -/
def requesterResp (driver : MongoReports Doc Session) (produce : MongoCall Doc Prefs → Doc)
    (memory : BsonMemory Doc) (req : MongoClientReq Doc Prefs) (found : List (Option Doc)) :
    MongoClientResp Doc :=
  let handled := handleReply driver produce memory req found
  MongoClientResp.deserialize bson receiver
    ((handled.1.contents handled.2).serialize bson sender)

/-- Assumes: libmongoc produced a reply document for the request. The requester does not have it. -/
theorem reply_lost (driver : MongoReports Doc Session) (produce : MongoCall Doc Prefs → Doc)
    (memory : BsonMemory Doc) (req : MongoClientReq Doc Prefs) (found : List (Option Doc))
    (hproduced : (producedReply driver produce req).isSome = true) :
    (requesterResp bson sender receiver driver produce memory req found).reply ≠
      producedReply driver produce req := by
  have hnone : (requesterResp bson sender receiver driver produce memory req found).reply = none :=
    reply_deserialize_of_none bson sender receiver rfl
  rw [hnone]
  exact fun heq ↦ Option.isSome_iff_ne_none.mp hproduced heq.symm

/-- A libmongoc that does everything it is asked to. -/
def willingReports : MongoReports { data : Bytes // BsonFramed data } Unit where
  startSession := some ()
  startTransaction := true
  write := fun _ ↦ .succeeds
  commitTransaction := true
  abortTransaction := true
  carries := fun _ _ ↦ true
  single := 0
  createBulk := true
  addBulk := fun _ _ ↦ true
  executeBulk := true

/-- The insertion of one document. -/
def insertOneReq : MongoClientReq { data : Bytes // BsonFramed data } Unit where
  head :=
    { type := MongoClientReqType.insertOne.code, dbSlot := 0, collName := [0x63#8]
      write := some emptyDoc }

theorem reply_lost_insertOne :
    (requesterResp framedBson .big .little willingReports (fun _ ↦ emptyDoc) Table.empty
      insertOneReq []).reply ≠ producedReply willingReports (fun _ ↦ emptyDoc) insertOneReq :=
  reply_lost framedBson .big .little willingReports (fun _ ↦ emptyDoc) Table.empty insertOneReq []
    (by decide)

/-- The reply to the insertion of one document does not arrive. -/
theorem not_reply_arrives_insertOne :
    ¬∀ (driver : MongoReports { data : Bytes // BsonFramed data } Unit)
      (produce : MongoCall { data : Bytes // BsonFramed data } Unit →
        { data : Bytes // BsonFramed data })
      (req : MongoClientReq { data : Bytes // BsonFramed data } Unit)
      (doc : { data : Bytes // BsonFramed data }), producedReply driver produce req = some doc →
        (requesterResp framedBson .big .little driver produce Table.empty req []).reply =
          some doc := by
  intro hall
  have hreply := hall willingReports (fun _ ↦ emptyDoc) insertOneReq emptyDoc (by decide)
  have hnone : (requesterResp framedBson .big .little willingReports (fun _ ↦ emptyDoc) Table.empty
      insertOneReq []).reply = none :=
    reply_deserialize_of_none framedBson .big .little rfl
  rw [hnone] at hreply
  cases hreply

end TszyUlt.Wjp
