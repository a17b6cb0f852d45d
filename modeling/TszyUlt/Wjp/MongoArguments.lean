import TszyUlt.Lib.FirstFailure
import TszyUlt.Wjp.MongoTransaction

/-!
# The documents that are passed to libmongoc

`mongo_client_pool::handleRequest`, `bulkExecute` and `transaction_proc` of `wjp/mongo_client.hpp`,
as the calls of libmongoc that they issue for a request. Documents are optional in a request, and
`deserialize_bson` also makes a null pointer of bytes that are no document; libmongoc ends the
process when one of the documents that a call needs is null (`MongoCall.required`).

What libmongoc answers is a parameter, `MongoReports`, with one answer for each operation of a chain
and for each call that adds to a bulk. Both loops over a chain stop at the first code that is not
zero, and are instances of `Lib.runUntil`.

None of the three functions checks a document, so `argumentsPresent_iff` says for which messages all
documents are there: those where every operation that is reached has the documents of its type.

Scope. The replies, `destroyBulk` and what a search finds do not matter for the arguments. The array
of an `insertMany` is never null; the documents in it may be.
-/

set_option autoImplicit false
set_option relaxedAutoImplicit false

namespace TszyUlt.Wjp

open Lib Zbf Lygc

variable {Doc Prefs Session : Type}

/-! ### The calls of libmongoc -/

/-- A call of libmongoc, with what `mongo_client` passes to it. -/
inductive MongoCall (Doc Prefs : Type)
  | dropDatabase
  | dropCollection (collName : Bytes)
  | write (call : WriteCall Doc)
  | find (collName : Bytes) (query opts : Option Doc) (readPrefs : Option Prefs)
  | command (write : Option Doc) (readPrefs : Option Prefs) (opts : Option Doc)
  | createBulk (collName : Bytes) (opts : Option Doc)
  | bulkInsert (write opts : Option Doc)
  | bulkUpdateOne (query write opts : Option Doc)
  | bulkUpdateMany (query write opts : Option Doc)
  | bulkReplaceOne (query write opts : Option Doc)
  | bulkRemoveOne (query opts : Option Doc)
  | bulkRemoveMany (query opts : Option Doc)
  | bulkExecute
  | startSession
  | startTransaction
  | commitTransaction
  | abortTransaction
  deriving DecidableEq, Repr

/-- The documents of a write that must not be null. -/
def WriteCall.required : WriteCall Doc → List (Option Doc)
  | .insertOne _ write _ => [write]
  | .insertMany _ multWrite _ => multWrite
  | .updateOne _ query write _ => [query, write]
  | .updateMany _ query write _ => [query, write]
  | .replaceOne _ query write _ => [query, write]
  | .deleteOne _ query _ => [query]
  | .deleteMany _ query _ => [query]

/-- The documents of a call that must not be null. -/
def MongoCall.required : MongoCall Doc Prefs → List (Option Doc)
  | .write call => call.required
  | .find _ query _ _ => [query]
  | .command doc _ _ => [doc]
  | .bulkInsert doc _ => [doc]
  | .bulkUpdateOne query doc _ => [query, doc]
  | .bulkUpdateMany query doc _ => [query, doc]
  | .bulkReplaceOne query doc _ => [query, doc]
  | .bulkRemoveOne query _ => [query]
  | .bulkRemoveMany query _ => [query]
  | _ => []

/-- Every document that a call needs is there. -/
def MongoCall.Present (call : MongoCall Doc Prefs) : Prop := ∀ doc ∈ call.required, doc ≠ none

/-- What libmongoc answers to the calls of one request. -/
structure MongoReports (Doc Session : Type) extends MongoDriver Doc Session where
  /-- `rc` of an operation that is no bulk and no transaction. -/
  single : Int32
  /-- `mongoc_collection_create_bulk_operation_with_opts` returns no null pointer. -/
  createBulk : Bool
  /-- The calls for the operation at a position that add to a bulk. -/
  addBulk : ℕ → ℕ → Bool
  /-- `mongoc_bulk_operation_execute`. -/
  executeBulk : Bool

/-! ### Handling a request -/

/-- The loop of `transaction_proc` on one operation: its call, and `rc`. -/
def transactionStep (driver : MongoReports Doc Session) (position : ℕ) (req : MongoNode Doc Prefs) :
    List (MongoCall Doc Prefs) × Int32 :=
  match req.transactionCall with
  | .error rc => ([], rc)
  | .ok call => ([.write call], (driver.write position).rc)

/-- `mongo_client::execTransaction` with `transaction_proc`: the calls, and `rc`. -/
def execTransactionCalls (driver : MongoReports Doc Session) (req : MongoClientReq Doc Prefs) :
    List (MongoCall Doc Prefs) × Int32 :=
  match driver.startSession with
  | none => ([.startSession], -1)
  | some _ =>
    if driver.startTransaction then
      let (calls, rc) := runUntil 0 (transactionStep driver) 0 req.rest
      let sent := [.startSession, .startTransaction] ++ calls ++
        if rc = 0 then [.commitTransaction] else []
      if rc = 0 ∧ driver.commitTransaction = true then (sent, 0)
      else (sent ++ [.abortTransaction], if driver.abortTransaction then -4 else -3)
    else ([.startSession, .startTransaction], -2)

/-- The `switch` of `mongo_client_pool::bulkExecute`: the calls that add an operation to a bulk, or
`rc` where there is none. -/
def MongoNode.bulkCalls (req : MongoNode Doc Prefs) : Except Int32 (List (MongoCall Doc Prefs)) :=
  if req.type = MongoClientReqType.insertOne.code then .ok [.bulkInsert req.write req.opts]
  else if req.type = MongoClientReqType.insertMany.code then
    .ok (req.multWrite.map fun write ↦ .bulkInsert write req.opts)
  else if req.type = MongoClientReqType.updateOne.code then
    .ok [.bulkUpdateOne req.query req.write req.opts]
  else if req.type = MongoClientReqType.updateMany.code then
    .ok [.bulkUpdateMany req.query req.write req.opts]
  else if req.type = MongoClientReqType.replaceOne.code then
    .ok [.bulkReplaceOne req.query req.write req.opts]
  else if req.type = MongoClientReqType.deleteOne.code then
    .ok [.bulkRemoveOne req.query req.opts]
  else if req.type = MongoClientReqType.deleteMany.code then
    .ok [.bulkRemoveMany req.query req.opts]
  else .error respRcTypeInvalid

/-- The loop of `bulkExecute` on one operation: its calls, which stop at the first that fails. -/
def bulkStep (driver : MongoReports Doc Session) (position : ℕ) (req : MongoNode Doc Prefs) :
    List (MongoCall Doc Prefs) × Int32 :=
  match req.bulkCalls with
  | .error rc => ([], rc)
  | .ok calls =>
    runUntil 0 (fun k call ↦ ([call], if driver.addBulk position k then 0 else -1)) 0 calls

/-- `mongo_client_pool::bulkExecute`: the calls, and `rc`. -/
def bulkExecute (driver : MongoReports Doc Session) (req : MongoClientReq Doc Prefs) :
    List (MongoCall Doc Prefs) × Int32 :=
  let create := .createBulk (cStr req.head.collName) req.head.opts
  if !driver.createBulk then ([create], respRcParamInvalid)
  else
    let (calls, rc) := runUntil 0 (bulkStep driver) 0 req.rest
    if rc = 0 then (create :: calls ++ [.bulkExecute], if driver.executeBulk then 0 else -1)
    else (create :: calls, rc)

/-- The call for a request that is no bulk and no transaction. The seven writes are passed on as
`transaction_proc` does. -/
def MongoNode.singleCall (req : MongoNode Doc Prefs) : Option (MongoCall Doc Prefs) :=
  if req.type = MongoClientReqType.dropDatabase.code then some .dropDatabase
  else if req.type = MongoClientReqType.dropCollection.code then
    some (.dropCollection (cStr req.collName))
  else if req.type = MongoClientReqType.find.code then
    some (.find (cStr req.collName) req.query req.opts req.readPrefs)
  else if req.type = MongoClientReqType.command.code then
    some (.command req.write req.readPrefs req.opts)
  else
    match req.transactionCall with
    | .ok call => some (.write call)
    | .error _ => none

/-- `mongo_client_pool::handleRequest`: the calls, and `rc` of the response. -/
def requestCalls (driver : MongoReports Doc Session) (req : MongoClientReq Doc Prefs) :
    List (MongoCall Doc Prefs) × Int32 :=
  if req.head.type = MongoClientReqType.bulkExecute.code then bulkExecute driver req
  else if req.head.type = MongoClientReqType.execTransaction.code then
    execTransactionCalls driver req
  else
    match req.head.singleCall with
    | some call => ([call], driver.single)
    | none => ([], respRcTypeInvalid)

/-- The calls for a transaction end with the code of `execTransaction`. -/
theorem transactionStep_snd (driver : MongoReports Doc Session) (session : Session) (position : ℕ)
    (reqs : List (MongoNode Doc Prefs)) (effects : Effects Doc) :
    (runUntil 0 (transactionStep driver) position reqs).2 =
      (transactionLoop driver.toMongoDriver session position reqs effects).1 := by
  induction reqs generalizing position effects with
  | nil => rfl
  | cons req rest ih =>
    cases hcall : req.transactionCall with
    | error rc =>
      have hstep : transactionStep driver position req = ([], rc) := by rw [transactionStep, hcall]
      rw [runUntil_cons_of_stop (by rw [hstep]; exact MongoNode.rc_ne_zero hcall), hstep,
        transactionLoop_of_error hcall]
    | ok call =>
      have hstep : transactionStep driver position req =
          ([.write call], (driver.write position).rc) := by rw [transactionStep, hcall]
      by_cases hwrite : driver.write position = .succeeds
      · rw [runUntil_cons_of_go (by rw [hstep, hwrite]; rfl), ih,
          transactionLoop_of_succeeds hcall hwrite]
      · have hfails : (driver.write position).rc = -1 := by
          cases houtcome : driver.write position with
          | succeeds => exact absurd houtcome hwrite
          | failsPartway => rfl
          | fails => rfl
        have hstop : (-1 : Int32) ≠ 0 := by decide
        rw [runUntil_cons_of_stop (by rw [hstep, hfails]; exact hstop), hstep,
          transactionLoop_of_fails hcall hwrite]
        exact hfails

theorem execTransactionCalls_snd (driver : MongoReports Doc Session)
    (req : MongoClientReq Doc Prefs) :
    (execTransactionCalls driver req).2 = (execTransaction driver.toMongoDriver req).1 := by
  cases hsession : driver.startSession with
  | none => simp only [execTransactionCalls, execTransaction, hsession]
  | some session =>
    have hrc := transactionStep_snd driver session 0 req.rest {}
    simp only [execTransactionCalls, execTransaction, hsession, transactionProc, ← hrc]
    by_cases hstart : driver.startTransaction = true
    swap
    · rw [if_neg hstart, if_neg hstart]
    rw [if_pos hstart, if_pos hstart]
    by_cases hzero : (runUntil 0 (transactionStep driver) 0 req.rest).2 = 0
    · by_cases hcommit : driver.commitTransaction = true
      · simp [hzero, hcommit]
      · cases driver.abortTransaction <;> simp [hcommit]
    · cases driver.abortTransaction <;> simp [hzero]

/-! ### The documents of a request -/

/-- The operations that a chain may have. -/
def chainTypes : List Int8 :=
  [MongoClientReqType.insertOne.code, MongoClientReqType.insertMany.code,
    MongoClientReqType.updateOne.code, MongoClientReqType.updateMany.code,
    MongoClientReqType.replaceOne.code, MongoClientReqType.deleteOne.code,
    MongoClientReqType.deleteMany.code]

/-- The documents that a write needs, by its type. -/
def MongoNode.writeDocs (req : MongoNode Doc Prefs) : List (Option Doc) :=
  if req.type = MongoClientReqType.insertOne.code then [req.write]
  else if req.type = MongoClientReqType.insertMany.code then req.multWrite
  else if req.type ∈ [MongoClientReqType.updateOne.code, MongoClientReqType.updateMany.code,
      MongoClientReqType.replaceOne.code] then [req.query, req.write]
  else if req.type ∈ [MongoClientReqType.deleteOne.code, MongoClientReqType.deleteMany.code] then
    [req.query]
  else []

/-- The documents that an operation needs, by its type. -/
def MongoNode.neededDocs (req : MongoNode Doc Prefs) : List (Option Doc) :=
  if req.type = MongoClientReqType.find.code then [req.query]
  else if req.type = MongoClientReqType.command.code then [req.write]
  else req.writeDocs

/-- The calls that an operation of a bulk takes. -/
def MongoNode.bulkCount (req : MongoNode Doc Prefs) : ℕ :=
  if req.type = MongoClientReqType.insertMany.code then req.multWrite.length else 1

/-- Every operation of a transaction that is reached has its documents. -/
def TransactionComplete (driver : MongoReports Doc Session) (reqs : List (MongoNode Doc Prefs)) :
    Prop :=
  EachReached (fun i req ↦ req.type ∈ chainTypes ∧ driver.write i = .succeeds)
    (fun _ req ↦ ∀ doc ∈ req.writeDocs, doc ≠ none) reqs

/-- Every operation of a bulk that is reached has its documents, an `insertMany` those it comes
to. -/
def BulkComplete (driver : MongoReports Doc Session) (reqs : List (MongoNode Doc Prefs)) : Prop :=
  EachReached
    (fun i req ↦ req.type ∈ chainTypes ∧ ∀ k < req.bulkCount, driver.addBulk i k = true)
    (fun i req ↦ if req.type = MongoClientReqType.insertMany.code then
        EachReached (fun k _ ↦ driver.addBulk i k = true) (fun _ doc ↦ doc ≠ none) req.multWrite
      else ∀ doc ∈ req.writeDocs, doc ≠ none) reqs

/-- Every operation of a request that is reached has its documents. -/
def RequestComplete (driver : MongoReports Doc Session) (req : MongoClientReq Doc Prefs) : Prop :=
  if req.head.type = MongoClientReqType.bulkExecute.code then
    driver.createBulk = true → BulkComplete driver req.rest
  else if req.head.type = MongoClientReqType.execTransaction.code then
    driver.startSession.isSome = true → driver.startTransaction = true →
      TransactionComplete driver req.rest
  else ∀ doc ∈ req.head.neededDocs, doc ≠ none

variable {req : MongoNode Doc Prefs} {driver : MongoReports Doc Session}

/-! ### The loops -/

theorem MongoNode.transactionCall_ok_iff :
    (∃ call, req.transactionCall = .ok call) ↔ req.type ∈ chainTypes := by
  unfold transactionCall chainTypes
  split_ifs <;> simp_all

theorem MongoNode.required_of_transactionCall {call : WriteCall Doc}
    (hcall : req.transactionCall = .ok call) : call.required = req.writeDocs := by
  unfold transactionCall at hcall
  unfold writeDocs
  split_ifs at hcall
  all_goals
    cases hcall
    simp_all [WriteCall.required]

theorem MongoNode.writeDocs_of_not_mem (htype : req.type ∉ chainTypes) : req.writeDocs = [] := by
  unfold chainTypes at htype
  unfold writeDocs
  split_ifs <;> simp_all

/-- One operation of a transaction. -/
theorem transactionStep_spec (driver : MongoReports Doc Session) (position : ℕ)
    (req : MongoNode Doc Prefs) :
    ((transactionStep driver position req).2 = 0 ↔
        req.type ∈ chainTypes ∧ driver.write position = .succeeds) ∧
      ((∀ call ∈ (transactionStep driver position req).1, call.Present) ↔
        ∀ doc ∈ req.writeDocs, doc ≠ none) := by
  unfold transactionStep
  cases hcall : req.transactionCall with
  | error rc =>
    have htype : req.type ∉ chainTypes := fun hmem ↦ by
      obtain ⟨call, hother⟩ := MongoNode.transactionCall_ok_iff.mpr hmem
      cases hcall.symm.trans hother
    refine ⟨iff_of_false (MongoNode.rc_ne_zero hcall) fun hboth ↦ htype hboth.1, ?_⟩
    rw [MongoNode.writeDocs_of_not_mem htype]
    exact iff_of_true (fun _ hnone ↦ absurd hnone List.not_mem_nil)
      fun _ hnone ↦ absurd hnone List.not_mem_nil
  | ok call =>
    refine ⟨?_, ?_⟩
    · rw [and_iff_right (MongoNode.transactionCall_ok_iff.mp ⟨call, hcall⟩)]
      cases driver.write position with
      | succeeds => exact iff_of_true rfl rfl
      | failsPartway => exact iff_of_false (by decide : (-1 : Int32) ≠ 0) fun heq ↦ by cases heq
      | fails => exact iff_of_false (by decide : (-1 : Int32) ≠ 0) fun heq ↦ by cases heq
    · rw [← MongoNode.required_of_transactionCall hcall]
      simp only [List.mem_singleton, forall_eq]
      exact Iff.rfl

theorem MongoNode.bulkCalls_of_not_mem (htype : req.type ∉ chainTypes) :
    (req.bulkCalls : Except Int32 (List (MongoCall Doc Prefs))) = .error respRcTypeInvalid := by
  unfold chainTypes at htype
  unfold bulkCalls
  split_ifs <;> simp_all

theorem MongoNode.bulkCalls_of_insertMany
    (htype : req.type = MongoClientReqType.insertMany.code) :
    req.bulkCalls = .ok (req.multWrite.map fun write ↦
      (.bulkInsert write req.opts : MongoCall Doc Prefs)) := by
  rw [bulkCalls, htype, if_neg (by decide), if_pos rfl]

/-- Any other operation that a chain may have takes one call. -/
theorem MongoNode.bulkCalls_of_single (hmem : req.type ∈ chainTypes)
    (htype : req.type ≠ MongoClientReqType.insertMany.code) :
    ∃ call : MongoCall Doc Prefs, req.bulkCalls = .ok [call] ∧ call.required = req.writeDocs := by
  unfold chainTypes at hmem
  unfold bulkCalls writeDocs
  split_ifs <;> simp_all [MongoCall.required]

/-- The inner loop of a bulk passes a call exactly if libmongoc adds it. -/
theorem addBulk_rc_eq_zero_iff (driver : MongoReports Doc Session) (position k : ℕ) :
    (if driver.addBulk position k then (0 : Int32) else -1) = 0 ↔
      driver.addBulk position k = true := by
  cases driver.addBulk position k <;> decide

/-- The calls for one operation of a bulk. -/
theorem forall_mem_addBulk_iff (driver : MongoReports Doc Session) (position : ℕ)
    (calls : List (MongoCall Doc Prefs)) :
    (∀ call ∈ (runUntil (0 : Int32)
        (fun k (call : MongoCall Doc Prefs) ↦
          ([call], if driver.addBulk position k then 0 else -1)) 0 calls).1, call.Present) ↔
      EachReached (fun k _ ↦ driver.addBulk position k = true) (fun _ call ↦ call.Present)
        calls := by
  rw [forall_mem_runUntil_iff]
  refine eachReached_congr (fun i call _ ↦ ?_) fun i call _ ↦ ?_
  · rw [Nat.zero_add]
    exact addBulk_rc_eq_zero_iff driver position i
  · simp only [List.mem_singleton, forall_eq]

/-- One operation of a bulk. -/
theorem bulkStep_spec (driver : MongoReports Doc Session) (position : ℕ)
    (req : MongoNode Doc Prefs) :
    ((bulkStep driver position req).2 = 0 ↔
        req.type ∈ chainTypes ∧ ∀ k < req.bulkCount, driver.addBulk position k = true) ∧
      ((∀ call ∈ (bulkStep driver position req).1, call.Present) ↔
        if req.type = MongoClientReqType.insertMany.code then
          EachReached (fun k _ ↦ driver.addBulk position k = true) (fun _ doc ↦ doc ≠ none)
            req.multWrite
        else ∀ doc ∈ req.writeDocs, doc ≠ none) := by
  by_cases hmem : req.type ∈ chainTypes
  swap
  · -- the type is refused, and nothing is called
    have hmany : req.type ≠ MongoClientReqType.insertMany.code := fun heq ↦ by
      rw [heq] at hmem
      exact hmem (by decide)
    rw [bulkStep, MongoNode.bulkCalls_of_not_mem hmem, if_neg hmany,
      MongoNode.writeDocs_of_not_mem hmem]
    exact ⟨iff_of_false (by decide : respRcTypeInvalid ≠ 0) fun hboth ↦ hmem hboth.1,
      iff_of_true (fun _ hnone ↦ absurd hnone List.not_mem_nil)
        fun _ hnone ↦ absurd hnone List.not_mem_nil⟩
  have hpasses : ∀ calls : List (MongoCall Doc Prefs), req.bulkCalls = .ok calls →
      calls.length = req.bulkCount →
      ((bulkStep driver position req).2 = 0 ↔
        req.type ∈ chainTypes ∧ ∀ k < req.bulkCount, driver.addBulk position k = true) := by
    intro calls hcalls hlength
    rw [bulkStep, hcalls, and_iff_right hmem, ← hlength]
    simp only [runUntil_snd_eq_iff, Nat.zero_add, addBulk_rc_eq_zero_iff]
    exact eachPasses_position_iff
  by_cases hmany : req.type = MongoClientReqType.insertMany.code
  · have hcalls := MongoNode.bulkCalls_of_insertMany hmany
    refine ⟨hpasses _ hcalls ?_, ?_⟩
    · rw [List.length_map, MongoNode.bulkCount, if_pos hmany]
    · rw [if_pos hmany, bulkStep, hcalls]
      refine (forall_mem_addBulk_iff driver position _).trans ?_
      rw [eachReached_map]
      refine eachReached_congr (fun _ _ _ ↦ Iff.rfl) fun _ doc _ ↦ ?_
      exact List.forall_mem_singleton
  · obtain ⟨call, hcalls, hrequired⟩ := MongoNode.bulkCalls_of_single hmem hmany
    refine ⟨hpasses _ hcalls ?_, ?_⟩
    · rw [MongoNode.bulkCount, if_neg hmany, List.length_singleton]
    · rw [if_neg hmany, bulkStep, hcalls, ← hrequired]
      refine (forall_mem_addBulk_iff driver position _).trans ?_
      rw [eachReached_cons]
      exact ⟨And.left, fun hpresent ↦ ⟨hpresent, fun _ ↦ eachReached_nil⟩⟩

/-! ### A request -/

theorem forall_mem_bulkExecute_iff (driver : MongoReports Doc Session)
    (req : MongoClientReq Doc Prefs) :
    (∀ call ∈ (bulkExecute driver req).1, call.Present) ↔
      (driver.createBulk = true → BulkComplete driver req.rest) := by
  have hcreate : (MongoCall.createBulk (cStr req.head.collName) req.head.opts :
      MongoCall Doc Prefs).Present := fun _ hdoc ↦ absurd hdoc List.not_mem_nil
  have hexecute : (MongoCall.bulkExecute : MongoCall Doc Prefs).Present :=
    fun _ hdoc ↦ absurd hdoc List.not_mem_nil
  have hloop : (∀ call ∈ (runUntil 0 (bulkStep driver) 0 req.rest).1, call.Present) ↔
      BulkComplete driver req.rest := by
    rw [forall_mem_runUntil_iff]
    refine eachReached_congr (fun i node _ ↦ ?_) fun i node _ ↦ ?_
    · rw [Nat.zero_add]
      exact (bulkStep_spec driver i node).1
    · rw [Nat.zero_add]
      exact (bulkStep_spec driver i node).2
  cases hbulk : driver.createBulk with
  | false =>
    simp only [bulkExecute, hbulk, Bool.not_false, if_true, List.forall_mem_singleton,
      Bool.false_eq_true, false_implies, iff_true]
    exact hcreate
  | true =>
    simp only [bulkExecute, hbulk, Bool.not_true, Bool.false_eq_true, if_false, true_implies]
    rw [← hloop]
    by_cases hzero : (runUntil 0 (bulkStep driver) 0 req.rest).2 = 0
    · rw [if_pos hzero]
      rw [List.forall_mem_append, List.forall_mem_cons, List.forall_mem_singleton]
      exact ⟨fun hall ↦ hall.1.2, fun hall ↦ ⟨⟨hcreate, hall⟩, hexecute⟩⟩
    · rw [if_neg hzero]
      simp only [List.forall_mem_cons]
      exact and_iff_right hcreate

theorem forall_mem_execTransactionCalls_iff (driver : MongoReports Doc Session)
    (req : MongoClientReq Doc Prefs) :
    (∀ call ∈ (execTransactionCalls driver req).1, call.Present) ↔
      (driver.startSession.isSome = true → driver.startTransaction = true →
        TransactionComplete driver req.rest) := by
  have hfree : ∀ call ∈ ([.startSession, .startTransaction, .commitTransaction,
      .abortTransaction] : List (MongoCall Doc Prefs)), call.Present := by
    intro call hcall doc hdoc
    simp only [List.mem_cons, List.not_mem_nil, or_false] at hcall
    rcases hcall with rfl | rfl | rfl | rfl <;> exact absurd hdoc List.not_mem_nil
  have hloop : (∀ call ∈ (runUntil 0 (transactionStep driver) 0 req.rest).1, call.Present) ↔
      TransactionComplete driver req.rest := by
    rw [forall_mem_runUntil_iff]
    refine eachReached_congr (fun i node _ ↦ ?_) fun i node _ ↦ ?_
    · rw [Nat.zero_add]
      exact (transactionStep_spec driver i node).1
    · rw [Nat.zero_add]
      exact (transactionStep_spec driver i node).2
  -- whatever opens and ends the transaction needs no document
  have hends : ∀ (opening ending : List (MongoCall Doc Prefs)),
      (∀ call ∈ opening ++ ending, call ∈ ([.startSession, .startTransaction, .commitTransaction,
        .abortTransaction] : List (MongoCall Doc Prefs))) →
      ((∀ call ∈ opening ++ (runUntil 0 (transactionStep driver) 0 req.rest).1 ++ ending,
        call.Present) ↔ TransactionComplete driver req.rest) := by
    intro opening ending hmem
    rw [List.forall_mem_append] at hmem
    rw [List.forall_mem_append, List.forall_mem_append, hloop]
    exact ⟨fun hall ↦ hall.1.2, fun hall ↦ ⟨⟨fun call hcall ↦ hfree call (hmem.1 call hcall), hall⟩,
      fun call hcall ↦ hfree call (hmem.2 call hcall)⟩⟩
  cases hsession : driver.startSession with
  | none =>
    simp only [execTransactionCalls, hsession, Option.isSome_none, Bool.false_eq_true,
      false_implies, iff_true]
    exact fun call hcall ↦ hfree call (by rw [List.mem_singleton.mp hcall]; simp)
  | some session =>
    simp only [execTransactionCalls, hsession, Option.isSome_some, true_implies]
    by_cases hstart : driver.startTransaction = true
    swap
    · rw [if_neg hstart]
      refine iff_of_true (fun call hcall ↦ hfree call ?_) fun htrue ↦ absurd htrue hstart
      simp only [List.mem_cons, List.not_mem_nil, or_false] at hcall ⊢
      rcases hcall with rfl | rfl <;> simp
    rw [if_pos hstart, imp_iff_right hstart]
    by_cases hzero : (runUntil 0 (transactionStep driver) 0 req.rest).2 = 0
    · by_cases hcommit : driver.commitTransaction = true
      · rw [if_pos ⟨hzero, hcommit⟩, if_pos hzero]
        exact hends [.startSession, .startTransaction] [.commitTransaction] (by simp)
      · rw [if_neg (fun hboth ↦ hcommit hboth.2), if_pos hzero, List.append_assoc]
        exact hends [.startSession, .startTransaction] [.commitTransaction, .abortTransaction]
          (by simp)
    · rw [if_neg (fun hboth ↦ hzero hboth.1), if_neg hzero, List.append_nil]
      exact hends [.startSession, .startTransaction] [.abortTransaction] (by simp)

/-- Any other request makes one call, or none that needs a document. -/
theorem MongoNode.singleCall_spec (req : MongoNode Doc Prefs) :
    (∃ call : MongoCall Doc Prefs, req.singleCall = some call ∧ call.required = req.neededDocs) ∨
      req.singleCall = none ∧ req.neededDocs = [] := by
  unfold singleCall neededDocs
  by_cases hdatabase : req.type = MongoClientReqType.dropDatabase.code
  · have hchain : req.type ∉ chainTypes := by
      rw [hdatabase]
      decide
    rw [if_pos hdatabase, writeDocs_of_not_mem hchain, hdatabase, if_neg (by decide),
      if_neg (by decide)]
    exact Or.inl ⟨_, rfl, rfl⟩
  rw [if_neg hdatabase]
  by_cases hcollection : req.type = MongoClientReqType.dropCollection.code
  · have hchain : req.type ∉ chainTypes := by
      rw [hcollection]
      decide
    rw [if_pos hcollection, writeDocs_of_not_mem hchain, hcollection, if_neg (by decide),
      if_neg (by decide)]
    exact Or.inl ⟨_, rfl, rfl⟩
  rw [if_neg hcollection]
  by_cases hfind : req.type = MongoClientReqType.find.code
  · rw [if_pos hfind, if_pos hfind]
    exact Or.inl ⟨_, rfl, rfl⟩
  rw [if_neg hfind, if_neg hfind]
  by_cases hcommand : req.type = MongoClientReqType.command.code
  · rw [if_pos hcommand, if_pos hcommand]
    exact Or.inl ⟨_, rfl, rfl⟩
  rw [if_neg hcommand, if_neg hcommand]
  cases hcall : req.transactionCall with
  | ok call => exact Or.inl ⟨_, rfl, required_of_transactionCall hcall⟩
  | error rc =>
    refine Or.inr ⟨rfl, writeDocs_of_not_mem fun hmem ↦ ?_⟩
    obtain ⟨call, hother⟩ := transactionCall_ok_iff.mpr hmem
    cases hcall.symm.trans hother

theorem forall_mem_requestCalls_iff (driver : MongoReports Doc Session)
    (req : MongoClientReq Doc Prefs) :
    (∀ call ∈ (requestCalls driver req).1, call.Present) ↔ RequestComplete driver req := by
  unfold requestCalls RequestComplete
  by_cases hbulk : req.head.type = MongoClientReqType.bulkExecute.code
  · rw [if_pos hbulk, if_pos hbulk]
    exact forall_mem_bulkExecute_iff driver req
  rw [if_neg hbulk, if_neg hbulk]
  by_cases htransaction : req.head.type = MongoClientReqType.execTransaction.code
  · rw [if_pos htransaction, if_pos htransaction]
    exact forall_mem_execTransactionCalls_iff driver req
  rw [if_neg htransaction, if_neg htransaction]
  rcases req.head.singleCall_spec with ⟨call, hcall, hrequired⟩ | ⟨hcall, hnone⟩
  · rw [hcall, ← hrequired]
    exact List.forall_mem_singleton
  · rw [hcall, hnone]
    exact iff_of_true (fun _ hmem ↦ absurd hmem List.not_mem_nil)
      fun _ hmem ↦ absurd hmem List.not_mem_nil

/-- For every body of a message and every answer of libmongoc: each call that is issued for the
message has the documents it needs exactly if every operation of the message that is reached has
them. -/
theorem argumentsPresent_iff (bson : Libbson Doc) (order : ByteOrder) (data : Bytes)
    (driver : MongoReports Doc Session) :
    (∀ call ∈ (requestCalls driver
        (MongoClientReq.deserialize bson order data : MongoClientReq Doc Prefs)).1, call.Present) ↔
      RequestComplete driver
        (MongoClientReq.deserialize bson order data : MongoClientReq Doc Prefs) :=
  forall_mem_requestCalls_iff driver _

/-- An `insertOne` into the collection `c` of one byte that is no document. -/
def brokenInsert : Bytes :=
  [0, 0, 2, 0, 0, 0, 0, 1, 0x63, 0, 0, 1, 0, 0, 0, 1, 0x78, 0, 0, 0, 0, 0]

/-- A libmongoc that answers every call with success. -/
def willing : MongoReports { data : Bytes // BsonFramed data } Unit where
  startSession := some ()
  startTransaction := true
  write := fun _ ↦ .succeeds
  commitTransaction := true
  abortTransaction := true
  carries := fun _ _ ↦ true
  single := 0
  createBulk := true
  addBulk := fun _ _ ↦ true
  executeBulk := true

/-- The insertion is issued with a null document. -/
theorem not_argumentsPresent_brokenInsert :
    (requestCalls willing (MongoClientReq.deserialize framedBson .little brokenInsert :
        MongoClientReq _ Unit)).1 = [.write (.insertOne [0x63] none none)] ∧
      ¬ ∀ call ∈ (requestCalls willing (MongoClientReq.deserialize framedBson .little brokenInsert :
        MongoClientReq _ Unit)).1, call.Present := by
  have hcalls : (requestCalls willing (MongoClientReq.deserialize framedBson .little brokenInsert :
      MongoClientReq _ Unit)).1 = [.write (.insertOne [0x63] none none)] := by decide
  refine ⟨hcalls, fun hpresent ↦ ?_⟩
  rw [hcalls] at hpresent
  exact hpresent _ List.mem_cons_self none List.mem_cons_self rfl

end TszyUlt.Wjp
