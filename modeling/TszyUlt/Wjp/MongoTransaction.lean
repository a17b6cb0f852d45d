import TszyUlt.Wjp.ClientPool

/-!
# Transactions of the MongoDB client

`mongo_client::execTransaction` and `mongo_client_pool::transaction_proc` of `wjp/mongo_client.hpp`.
The first starts a session and a transaction on it, and calls the second, which is given the client
and the chain but not the session: each operation is sent with the `opts` that it came with.

What libmongoc answers is a parameter, `MongoDriver`: whether the session, the transaction, each
operation, the commit and the abort succeed, and which `opts` carry the session. An operation whose
`opts` carry it waits in the transaction, and any other one takes effect at once (`Effects.write`).

`atomic_iff` says for which requests and answers the transaction is atomic: those where every
operation that takes effect before a failure carries the session. With no failure all of the
operations last in any case.

Scope. The effects are those of one request; nothing else writes to them.
-/

set_option autoImplicit false
set_option relaxedAutoImplicit false

namespace TszyUlt.Wjp

open Lib Zbf Lygc

variable {Doc Prefs Session : Type}

/-- `RESP_RC_NOT_SUPPORT`. -/
def respRcNotSupport : Int32 := 1004

/-! ### The calls of libmongoc -/

/-- A call of libmongoc that writes to a collection, with what `mongo_client` passes to it. -/
inductive WriteCall (Doc : Type)
  | insertOne (collName : Bytes) (write opts : Option Doc)
  | insertMany (collName : Bytes) (multWrite : List (Option Doc)) (opts : Option Doc)
  | updateOne (collName : Bytes) (query write opts : Option Doc)
  | updateMany (collName : Bytes) (query write opts : Option Doc)
  | replaceOne (collName : Bytes) (query write opts : Option Doc)
  | deleteOne (collName : Bytes) (query opts : Option Doc)
  | deleteMany (collName : Bytes) (query opts : Option Doc)
  deriving DecidableEq, Repr

/-- The `opts` of a call. -/
def WriteCall.opts : WriteCall Doc → Option Doc
  | .insertOne _ _ opts => opts
  | .insertMany _ _ opts => opts
  | .updateOne _ _ _ opts => opts
  | .updateMany _ _ _ opts => opts
  | .replaceOne _ _ _ opts => opts
  | .deleteOne _ _ opts => opts
  | .deleteMany _ _ opts => opts

/-- How a call ends. -/
inductive WriteOutcome
  | succeeds
  /-- It fails when a part of it has been done: an `insertMany` stops at a document. -/
  | failsPartway
  | fails
  deriving DecidableEq, Repr

/-- `rc` of `insertOne` and of the other six. -/
def WriteOutcome.rc : WriteOutcome → Int32
  | .succeeds => 0
  | .failsPartway => -1
  | .fails => -1

/-- What libmongoc answers to the calls of one request. -/
structure MongoDriver (Doc Session : Type) where
  /-- `mongoc_client_start_session`, `none` where it returns a null pointer. -/
  startSession : Option Session
  /-- `mongoc_client_session_start_transaction`. -/
  startTransaction : Bool
  /-- The operation at a position of the chain. -/
  write : ℕ → WriteOutcome
  /-- `mongoc_client_session_commit_transaction`. -/
  commitTransaction : Bool
  /-- `mongoc_client_session_abort_transaction`. -/
  abortTransaction : Bool
  /-- The `opts` have the session that `mongoc_client_session_append` puts there. -/
  carries : Option Doc → Session → Bool

/-- What the operations of a request have done: what lasts, and what waits in the transaction. -/
structure Effects (Doc : Type) where
  lasting : List (WriteCall Doc) := []
  pending : List (WriteCall Doc) := []
  deriving DecidableEq, Repr

namespace Effects

/-- A call that takes effect while the transaction of the session is open. -/
def record (driver : MongoDriver Doc Session) (session : Session) (effects : Effects Doc)
    (call : WriteCall Doc) : Effects Doc :=
  if driver.carries call.opts session then
    { effects with pending := effects.pending ++ [call] }
  else { effects with lasting := effects.lasting ++ [call] }

/-- The call for the operation at a position. -/
def write (driver : MongoDriver Doc Session) (session : Session) (position : ℕ)
    (effects : Effects Doc) (call : WriteCall Doc) : Effects Doc :=
  match driver.write position with
  | .succeeds => effects.record driver session call
  | .failsPartway => effects.record driver session call
  | .fails => effects

/-- The transaction is committed. -/
def commit (effects : Effects Doc) : Effects Doc :=
  { lasting := effects.lasting ++ effects.pending, pending := [] }

/-- The transaction is aborted. -/
def abort (effects : Effects Doc) : Effects Doc := { effects with pending := [] }

end Effects

/-! ### The client -/

/-- The `switch` of `transaction_proc`: the call for an operation, or `rc` where there is none. -/
def MongoNode.transactionCall (req : MongoNode Doc Prefs) : Except Int32 (WriteCall Doc) :=
  if req.type = MongoClientReqType.insertOne.code then
    .ok (.insertOne (cStr req.collName) req.write req.opts)
  else if req.type = MongoClientReqType.insertMany.code then
    .ok (.insertMany (cStr req.collName) req.multWrite req.opts)
  else if req.type = MongoClientReqType.updateOne.code then
    .ok (.updateOne (cStr req.collName) req.query req.write req.opts)
  else if req.type = MongoClientReqType.updateMany.code then
    .ok (.updateMany (cStr req.collName) req.query req.write req.opts)
  else if req.type = MongoClientReqType.replaceOne.code then
    .ok (.replaceOne (cStr req.collName) req.query req.write req.opts)
  else if req.type = MongoClientReqType.deleteOne.code then
    .ok (.deleteOne (cStr req.collName) req.query req.opts)
  else if req.type = MongoClientReqType.deleteMany.code then
    .ok (.deleteMany (cStr req.collName) req.query req.opts)
  else if req.type = MongoClientReqType.bulkExecute.code then .error respRcNotSupport
  else .error respRcTypeInvalid

theorem MongoNode.rc_ne_zero {req : MongoNode Doc Prefs} {rc : Int32}
    (hnone : req.transactionCall = .error rc) : rc ≠ 0 := by
  unfold transactionCall at hnone
  split_ifs at hnone
  · cases hnone
    decide
  · cases hnone
    decide

/-- Assumes: an operation with a call. The call has the `opts` that the operation came with. -/
theorem MongoNode.opts_of_transactionCall {req : MongoNode Doc Prefs} {call : WriteCall Doc}
    (hcall : req.transactionCall = .ok call) : call.opts = req.opts := by
  unfold transactionCall at hcall
  split_ifs at hcall
  all_goals
    cases hcall
    rfl

/-- The loop of `mongo_client_pool::transaction_proc`, from a position of the chain: `rc` when it
ends, and what has been done. The session is not passed in the source: libmongoc looks for it. -/
def transactionLoop (driver : MongoDriver Doc Session) (session : Session) :
    ℕ → List (MongoNode Doc Prefs) → Effects Doc → Int32 × Effects Doc
  | _, [], effects => (0, effects)
  | position, req :: rest, effects =>
    match req.transactionCall with
    | .error rc => (rc, effects)
    | .ok call =>
      let rc := (driver.write position).rc
      let effects := effects.write driver session position call
      if rc ≠ 0 then (rc, effects) else transactionLoop driver session (position + 1) rest effects

/-- `mongo_client_pool::transaction_proc`. -/
def transactionProc (driver : MongoDriver Doc Session) (session : Session)
    (head : MongoClientReq Doc Prefs) (effects : Effects Doc) : Bool × Effects Doc :=
  let (rc, effects) := transactionLoop driver session 0 head.rest effects
  (rc == 0, effects)

/-- `mongo_client::execTransaction` with `transaction_proc`: the code that it returns, and what has
been done. -/
def execTransaction (driver : MongoDriver Doc Session) (req : MongoClientReq Doc Prefs) :
    Int32 × Effects Doc :=
  match driver.startSession with
  | none => (-1, {})
  | some session =>
    if driver.startTransaction then
      let (procSuccess, effects) := transactionProc driver session req {}
      let execSuccess := procSuccess && driver.commitTransaction
      if execSuccess then (0, effects.commit)
      else if driver.abortTransaction then (-4, effects.abort)
      else (-3, effects)
    else (-2, {})

/-- The client whose transactions are those of `execTransaction`. -/
def MongoClient.withTransactions (client : MongoClient Doc Prefs)
    (driver : MongoDriver Doc Session) : MongoClient Doc Prefs where
  find := client.find
  exec := fun type req ↦
    if type = MongoClientReqType.execTransaction.code then (execTransaction driver req).1
    else client.exec type req

/-- Assumes: a request of type `execTransaction`. Its response has the code that `execTransaction`
returns. -/
theorem MongoClient.handleRequest_withTransactions (client : MongoClient Doc Prefs)
    (driver : MongoDriver Doc Session) (reqId : RequestId) {req : MongoClientReq Doc Prefs}
    (htype : req.head.type = MongoClientReqType.execTransaction.code) :
    (client.withTransactions driver).handleRequest reqId req =
      [{ reqId, rc := (execTransaction driver req).1 }] := by
  unfold handleRequest
  rw [htype, if_neg (by decide), if_pos (by decide)]
  simp only [withTransactions, if_true]

/-! ### What the loop does -/

/-- The operation at a position succeeds. -/
def Succeeds (driver : MongoDriver Doc Session) (position : ℕ) (req : MongoNode Doc Prefs) : Prop :=
  (∃ call, req.transactionCall = .ok call) ∧ driver.write position = .succeeds

/-- The operations of a chain that starts at a position succeed. -/
def AllSucceed (driver : MongoDriver Doc Session) (position : ℕ)
    (reqs : List (MongoNode Doc Prefs)) : Prop :=
  ∀ i req, reqs[i]? = some req → Succeeds driver (position + i) req

/-- The calls that take effect, of a chain that starts at a position. -/
def performed (driver : MongoDriver Doc Session) :
    ℕ → List (MongoNode Doc Prefs) → List (WriteCall Doc)
  | _, [] => []
  | position, req :: rest =>
    match req.transactionCall with
    | .error _ => []
    | .ok call =>
      match driver.write position with
      | .succeeds => call :: performed driver (position + 1) rest
      | .failsPartway => [call]
      | .fails => []

variable {driver : MongoDriver Doc Session} {session : Session}

theorem allSucceed_nil (position : ℕ) :
    AllSucceed driver position ([] : List (MongoNode Doc Prefs)) := by
  intro i req hreq
  simp at hreq

theorem allSucceed_cons {position : ℕ} {req : MongoNode Doc Prefs}
    {rest : List (MongoNode Doc Prefs)} :
    AllSucceed driver position (req :: rest) ↔
      Succeeds driver position req ∧ AllSucceed driver (position + 1) rest := by
  constructor
  · intro hall
    refine ⟨hall 0 req rfl, fun i other hother ↦ ?_⟩
    rw [Nat.add_assoc, Nat.add_comm 1 i]
    exact hall (i + 1) other hother
  · rintro ⟨hreq, hrest⟩ i other hother
    cases i with
    | zero =>
      cases hother
      exact hreq
    | succ i =>
      rw [Nat.add_comm i 1, ← Nat.add_assoc]
      exact hrest i other hother

section Loop

variable {position : ℕ} {req : MongoNode Doc Prefs} {rest : List (MongoNode Doc Prefs)}
variable {effects : Effects Doc} {call : WriteCall Doc}

theorem transactionLoop_of_error {rc : Int32} (hcall : req.transactionCall = .error rc) :
    transactionLoop driver session position (req :: rest) effects = (rc, effects) := by
  rw [transactionLoop, hcall]

theorem transactionLoop_of_succeeds (hcall : req.transactionCall = .ok call)
    (hwrite : driver.write position = .succeeds) :
    transactionLoop driver session position (req :: rest) effects =
      transactionLoop driver session (position + 1) rest (effects.record driver session call) := by
  rw [transactionLoop, hcall]
  simp only [Effects.write, hwrite, WriteOutcome.rc, ne_eq, not_true_eq_false, if_false]

theorem transactionLoop_of_fails (hcall : req.transactionCall = .ok call)
    (hwrite : driver.write position ≠ .succeeds) :
    transactionLoop driver session position (req :: rest) effects =
      (-1, effects.write driver session position call) := by
  rw [transactionLoop, hcall]
  cases houtcome : driver.write position with
  | succeeds => exact absurd houtcome hwrite
  | failsPartway => rfl
  | fails => rfl

end Loop

/-- The loop ends with 0 exactly if the operations succeed. -/
theorem transactionLoop_eq_zero_iff (driver : MongoDriver Doc Session) (session : Session)
    (position : ℕ) (reqs : List (MongoNode Doc Prefs)) (effects : Effects Doc) :
    (transactionLoop driver session position reqs effects).1 = 0 ↔
      AllSucceed driver position reqs := by
  induction reqs generalizing position effects with
  | nil => exact iff_of_true rfl (allSucceed_nil position)
  | cons req rest ih =>
    rw [allSucceed_cons, Succeeds]
    cases hcall : req.transactionCall with
    | error rc =>
      rw [transactionLoop_of_error hcall]
      refine iff_of_false (MongoNode.rc_ne_zero hcall) ?_
      rintro ⟨⟨⟨call, hother⟩, -⟩, -⟩
      cases hother
    | ok call =>
      by_cases hwrite : driver.write position = .succeeds
      · rw [transactionLoop_of_succeeds hcall hwrite, ih]
        exact ⟨fun hrest ↦ ⟨⟨⟨call, rfl⟩, hwrite⟩, hrest⟩, And.right⟩
      · rw [transactionLoop_of_fails hcall hwrite]
        exact iff_of_false (by decide : (-1 : Int32) ≠ 0) fun hall ↦ hwrite hall.1.2

/-- The loop records the calls that take effect. -/
theorem transactionLoop_snd (driver : MongoDriver Doc Session) (session : Session)
    (position : ℕ) (reqs : List (MongoNode Doc Prefs)) (effects : Effects Doc) :
    (transactionLoop driver session position reqs effects).2 =
      (performed driver position reqs).foldl (Effects.record driver session) effects := by
  induction reqs generalizing position effects with
  | nil => rfl
  | cons req rest ih =>
    rw [performed]
    cases hcall : req.transactionCall with
    | error rc => rw [transactionLoop_of_error hcall, List.foldl_nil]
    | ok call =>
      cases hwrite : driver.write position with
      | succeeds => rw [transactionLoop_of_succeeds hcall hwrite, ih, List.foldl_cons]
      | failsPartway =>
        rw [transactionLoop_of_fails hcall (by simp [hwrite]), Effects.write, hwrite]
        rfl
      | fails =>
        rw [transactionLoop_of_fails hcall (by simp [hwrite]), Effects.write, hwrite]
        rfl

/-- The calls whose `opts` carry the session wait, and the other ones last. -/
theorem foldl_record (calls : List (WriteCall Doc)) (effects : Effects Doc) :
    calls.foldl (Effects.record driver session) effects =
      { lasting := effects.lasting ++ calls.filter fun call ↦ !driver.carries call.opts session,
        pending :=
          effects.pending ++ calls.filter fun call ↦ driver.carries call.opts session } := by
  induction calls generalizing effects with
  | nil => simp
  | cons call calls ih =>
    rw [List.foldl_cons, ih]
    cases hcarries : driver.carries call.opts session <;> simp [Effects.record, hcarries]

/-- Assumes: a chain whose operations succeed. The calls that take effect are those of all of its
operations. -/
theorem map_ok_performed {position : ℕ} {reqs : List (MongoNode Doc Prefs)}
    (hall : AllSucceed driver position reqs) :
    (performed driver position reqs).map .ok = reqs.map MongoNode.transactionCall := by
  induction reqs generalizing position with
  | nil => rfl
  | cons req rest ih =>
    obtain ⟨⟨⟨call, hcall⟩, hwrite⟩, hrest⟩ := allSucceed_cons.mp hall
    simp only [performed, hcall, hwrite, List.map_cons, ih hrest]

/-- The operation at a position of the chain takes effect by a call, those before it having
succeeded. -/
def TakesEffect (driver : MongoDriver Doc Session) (position : ℕ)
    (reqs : List (MongoNode Doc Prefs)) (call : WriteCall Doc) : Prop :=
  ∃ i req, reqs[i]? = some req ∧ req.transactionCall = .ok call ∧
    driver.write (position + i) ≠ .fails ∧
    ∀ j < i, ∀ other, reqs[j]? = some other → Succeeds driver (position + j) other

theorem takesEffect_cons {position : ℕ} {req : MongoNode Doc Prefs}
    {rest : List (MongoNode Doc Prefs)} {call : WriteCall Doc} :
    TakesEffect driver position (req :: rest) call ↔
      req.transactionCall = .ok call ∧ driver.write position ≠ .fails ∨
        Succeeds driver position req ∧ TakesEffect driver (position + 1) rest call := by
  have hshift : ∀ i, position + 1 + i = position + (i + 1) := fun i ↦ by omega
  constructor
  · rintro ⟨i, other, hother, hcall, hwrite, hbefore⟩
    cases i with
    | zero =>
      cases hother
      exact Or.inl ⟨hcall, hwrite⟩
    | succ i =>
      refine Or.inr ⟨hbefore 0 (Nat.succ_pos i) req rfl, i, other, hother, hcall, ?_, ?_⟩
      · rw [hshift]
        exact hwrite
      · intro j hj earlier hearlier
        rw [hshift]
        exact hbefore (j + 1) (Nat.succ_lt_succ hj) earlier hearlier
  · rintro (⟨hcall, hwrite⟩ | ⟨hreq, i, other, hother, hcall, hwrite, hbefore⟩)
    · exact ⟨0, req, rfl, hcall, hwrite, fun j hj ↦ absurd hj (Nat.not_lt_zero j)⟩
    · refine ⟨i + 1, other, hother, hcall, (hshift i) ▸ hwrite, fun j hj earlier hearlier ↦ ?_⟩
      cases j with
      | zero =>
        cases hearlier
        exact hreq
      | succ j =>
        rw [← hshift]
        exact hbefore j (Nat.lt_of_succ_lt_succ hj) earlier hearlier

theorem mem_performed {position : ℕ} {reqs : List (MongoNode Doc Prefs)} {call : WriteCall Doc} :
    call ∈ performed driver position reqs ↔ TakesEffect driver position reqs call := by
  induction reqs generalizing position with
  | nil => simp [performed, TakesEffect]
  | cons req rest ih =>
    rw [takesEffect_cons, performed]
    cases hcall : req.transactionCall with
    | error rc => simp [Succeeds, hcall]
    | ok other =>
      cases hwrite : driver.write position with
      | succeeds => simp [Succeeds, hcall, hwrite, ih, eq_comm]
      | failsPartway => simp [Succeeds, hwrite, eq_comm]
      | fails => simp [Succeeds, hwrite]

/-! ### Atomicity -/

/-- A code other than 0 leaves nothing behind, unless the abort fails, and 0 leaves everything. -/
def Atomic (driver : MongoDriver Doc Session) (req : MongoClientReq Doc Prefs) : Prop :=
  ((execTransaction driver req).1 ≠ 0 → driver.abortTransaction = true →
    (execTransaction driver req).2.lasting = []) ∧
  ((execTransaction driver req).1 = 0 →
    (req.rest.map MongoNode.transactionCall).Perm ((execTransaction driver req).2.lasting.map .ok))

/-- Every operation that takes effect carries the session. -/
def Enclosed (driver : MongoDriver Doc Session) (session : Session)
    (req : MongoClientReq Doc Prefs) : Prop :=
  ∀ call, TakesEffect driver 0 req.rest call → driver.carries call.opts session = true

/-- The transaction is begun in the session, and an operation or the commit fails. -/
def FailsIn (driver : MongoDriver Doc Session) (session : Session)
    (req : MongoClientReq Doc Prefs) : Prop :=
  driver.startSession = some session ∧ driver.startTransaction = true ∧
    (AllSucceed driver 0 req.rest → driver.commitTransaction = false)

/-- What is left of the calls that take effect outside of the transaction. -/
def outside (driver : MongoDriver Doc Session) (session : Session)
    (req : MongoClientReq Doc Prefs) : List (WriteCall Doc) :=
  (performed driver 0 req.rest).filter fun call ↦ !driver.carries call.opts session

theorem outside_eq_nil_iff {req : MongoClientReq Doc Prefs} :
    outside driver session req = [] ↔ Enclosed driver session req := by
  simp only [outside, List.filter_eq_nil_iff, Enclosed, mem_performed, Bool.not_eq_true',
    Bool.not_eq_false]

/-- Assumes: a transaction that is begun, and in which an operation or the commit fails. The code
is not 0, and what took effect outside of the transaction lasts. -/
theorem execTransaction_of_failsIn {req : MongoClientReq Doc Prefs}
    (hfails : FailsIn driver session req) :
    (execTransaction driver req).1 ≠ 0 ∧
      (execTransaction driver req).2.lasting = outside driver session req := by
  obtain ⟨hsession, hstart, hends⟩ := hfails
  have hloop := transactionLoop_eq_zero_iff driver session 0 req.rest {}
  have heffects := transactionLoop_snd driver session 0 req.rest {}
  rw [foldl_record] at heffects
  have hnot : ((transactionLoop driver session 0 req.rest {}).1 == 0 &&
      driver.commitTransaction) = false := by
    rw [Bool.and_eq_false_iff, beq_eq_false_iff_ne]
    by_cases hzero : (transactionLoop driver session 0 req.rest {}).1 = 0
    · exact Or.inr (hends (hloop.mp hzero))
    · exact Or.inl hzero
  simp only [execTransaction, hsession, hstart, transactionProc, heffects, hnot, if_true,
    Bool.false_eq_true, if_false]
  cases driver.abortTransaction with
  | true => exact ⟨(by decide : (-4 : Int32) ≠ 0), List.nil_append _⟩
  | false => exact ⟨(by decide : (-3 : Int32) ≠ 0), List.nil_append _⟩

/-- Assumes: a transaction that is begun, in which the operations and the commit succeed. The code
is 0, and every call lasts. -/
theorem execTransaction_of_succeeds {req : MongoClientReq Doc Prefs}
    (hsession : driver.startSession = some session) (hstart : driver.startTransaction = true)
    (hall : AllSucceed driver 0 req.rest) (hcommit : driver.commitTransaction = true) :
    (execTransaction driver req).1 = 0 ∧
      (execTransaction driver req).2.lasting.Perm (performed driver 0 req.rest) := by
  have hloop := transactionLoop_eq_zero_iff driver session 0 req.rest {}
  have heffects := transactionLoop_snd driver session 0 req.rest {}
  rw [foldl_record] at heffects
  simp only [execTransaction, hsession, hstart, transactionProc, heffects, hloop.mpr hall, hcommit,
    if_true, beq_self_eq_true, Bool.and_self, Effects.commit, List.nil_append, true_and]
  refine List.perm_append_comm.trans ?_
  exact List.filter_append_perm (fun call : WriteCall Doc ↦ driver.carries call.opts session) _

/-- Assumes: no session, or no transaction. The code is not 0, and nothing is done. -/
theorem execTransaction_of_notBegun (req : MongoClientReq Doc Prefs)
    (hnot : driver.startSession = none ∨ driver.startTransaction = false) :
    (execTransaction driver req).1 ≠ 0 ∧ (execTransaction driver req).2 = {} := by
  unfold execTransaction
  cases hsession : driver.startSession with
  | none => exact ⟨(by decide : (-1 : Int32) ≠ 0), rfl⟩
  | some session =>
    have hstart : driver.startTransaction = false := hnot.resolve_left (by simp [hsession])
    rw [hstart]
    exact ⟨(by decide : (-2 : Int32) ≠ 0), rfl⟩

/-- A transaction is not begun, or fails, or succeeds. -/
theorem transaction_cases (driver : MongoDriver Doc Session) (req : MongoClientReq Doc Prefs) :
    (driver.startSession = none ∨ driver.startTransaction = false) ∨
      ∃ session, driver.startSession = some session ∧ (FailsIn driver session req ∨
        driver.startTransaction = true ∧ AllSucceed driver 0 req.rest ∧
          driver.commitTransaction = true) := by
  cases hsession : driver.startSession with
  | none => exact Or.inl (Or.inl rfl)
  | some session =>
    cases hstart : driver.startTransaction with
    | false => exact Or.inl (Or.inr rfl)
    | true =>
      refine Or.inr ⟨session, rfl, ?_⟩
      by_cases hfails : AllSucceed driver 0 req.rest → driver.commitTransaction = false
      · exact Or.inl ⟨hsession, hstart, hfails⟩
      · rw [Classical.not_imp, Bool.not_eq_false] at hfails
        exact Or.inr ⟨rfl, hfails⟩

/-- A transaction is atomic exactly if, wherever it is begun and fails and the abort succeeds, every
operation that took effect before the failure carries the session. -/
theorem atomic_iff (driver : MongoDriver Doc Session) (req : MongoClientReq Doc Prefs) :
    Atomic driver req ↔ ∀ session, FailsIn driver session req → driver.abortTransaction = true →
      Enclosed driver session req := by
  constructor
  · intro hatomic session hfails habort
    obtain ⟨hrc, hlasting⟩ := execTransaction_of_failsIn hfails
    rw [← outside_eq_nil_iff, ← hlasting]
    exact hatomic.1 hrc habort
  · intro henclosed
    rcases transaction_cases driver req with hnot | ⟨session, hsession, hfails | hsucceeds⟩
    · obtain ⟨hrc, hnothing⟩ := execTransaction_of_notBegun req hnot
      exact ⟨fun _ _ ↦ by rw [hnothing], fun hzero ↦ absurd hzero hrc⟩
    · obtain ⟨hrc, hlasting⟩ := execTransaction_of_failsIn hfails
      refine ⟨fun _ habort ↦ ?_, fun hzero ↦ absurd hzero hrc⟩
      rw [hlasting, outside_eq_nil_iff]
      exact henclosed session hfails habort
    · obtain ⟨hstart, hall, hcommit⟩ := hsucceeds
      obtain ⟨hzero, hperm⟩ := execTransaction_of_succeeds hsession hstart hall hcommit
      refine ⟨fun hrc ↦ absurd hzero hrc, fun _ ↦ ?_⟩
      rw [← map_ok_performed hall]
      exact (hperm.map _).symm

/-- Assumes: no operation of the chain carries a session, as its `opts` were made before there was
one. A transaction that fails and is aborted is atomic only if nothing took effect. -/
theorem atomic_iff_of_fresh {driver : MongoDriver Doc Session} {req : MongoClientReq Doc Prefs}
    (hfresh : ∀ session, ∀ node ∈ req.rest, driver.carries node.opts session = false) :
    Atomic driver req ↔ ∀ session, FailsIn driver session req → driver.abortTransaction = true →
      ∀ call, ¬TakesEffect driver 0 req.rest call := by
  rw [atomic_iff]
  refine forall_congr' fun session ↦ imp_congr_right fun _ ↦ imp_congr_right fun _ ↦
    forall_congr' fun call ↦ imp_congr_right fun htakes ↦ ?_
  obtain ⟨i, node, hnode, hcall, -, -⟩ := htakes
  rw [MongoNode.opts_of_transactionCall hcall,
    hfresh session node (List.mem_of_getElem? hnode), Bool.false_eq_true]

/-- The second of two operations fails and the abort succeeds: the first one lasts. -/
theorem not_atomic_secondFails :
    ¬Atomic
      { startSession := some (), startTransaction := true,
        write := fun position ↦ if position = 0 then .succeeds else .fails,
        commitTransaction := true, abortTransaction := true,
        carries := fun _ _ ↦ false }
      { head := { type := MongoClientReqType.execTransaction.code, dbSlot := 0 },
        rest := [{ type := MongoClientReqType.insertOne.code, dbSlot := 0, write := some () },
          { type := MongoClientReqType.deleteOne.code, dbSlot := 0, query := some () }] :
        MongoClientReq Unit Unit } := fun hatomic ↦
  absurd (hatomic.1 (by decide) rfl) (by decide)

end TszyUlt.Wjp
