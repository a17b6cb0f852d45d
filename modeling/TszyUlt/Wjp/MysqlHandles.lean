import TszyUlt.Lib.Handles
import TszyUlt.Wjp.MysqlStatement

/-!
# The handles of the MySQL client

The functions of `mysql_client` in `wjp/mysql_client.hpp` as the library behind them sees them: the
connection that `mysql_init` makes, the result sets that are stored, the statements that are
prepared and the metadata of their results. Every code that the library returns is its own choice,
and so is every null pointer. `life` is what a pool does with a client: it connects it, uses it for
any calls, disconnects it and deletes it.

`mysql_clients_safe` is about any number of clients that live at the same time: in no interleaving
of their calls is a null pointer or a closed handle passed to the library, or a connection or a
statement closed before what was made from it, and after the last of them nothing is left open.

Scope. A result set or a statement must be closed before the connection that it was made from. The
arrays that `execStatement` allocates, `_connState` and the error numbers are not handles. A client
is used by one thread at a time.
-/

set_option autoImplicit false
set_option relaxedAutoImplicit false

namespace TszyUlt.Wjp.MysqlHandles

open Lib Lib.HandleProg Zbf Fszm Lygc

variable {H : Type}

/-! ### Errors -/

/-- `mysql_errno` and `mysql_error`, or those of a statement. -/
def reportError (h : H) : HandleProg H Unit := do
  touch h
  touch h

/-- What is done where a code is not zero. -/
def onError (rc : ℤ) (prog : HandleProg H Unit) : HandleProg H Unit :=
  if rc ≠ 0 then prog else pure ()

/-- `MYSQL_ERR_EXIT` after a call that fails, with the error of the statement; else what comes
next. -/
def orExit (stmt : H) (code : ℤ) (prog next : HandleProg H ℤ) : HandleProg H ℤ := do
  let rc ← prog
  if rc ≠ 0 then do
    reportError stmt
    pure code
  else next

/-! ### Connection -/

/-- The options that are set before the connection is made. -/
def connectOptions : List String :=
  ["MYSQL_OPT_COMPRESS", "MYSQL_READ_DEFAULT_GROUP", "MYSQL_SET_CHARSET_NAME",
    "MYSQL_OPT_READ_TIMEOUT", "MYSQL_OPT_WRITE_TIMEOUT", "MYSQL_OPT_CONNECT_TIMEOUT",
    "MYSQL_INIT_COMMAND"]

/-- `mysql_real_connect` on the handle that `mysql_init` returned, and `_client` after it. -/
def realConnect : Option H → HandleProg H (Option H)
  | none => pure none
  | some client => do
    forEach connectOptions fun _ ↦ touch client
    let connected ← call client
    if connected ≠ 0 then pure (some client)
    else do
      free client
      pure none

/-- `connect`: `_client` after it, and the code is zero where it is not null. -/
def connect : HandleProg H (Option H) := do
  let client ← tryAcquire none
  realConnect client

/-- `disconnect`: `_client` after it. -/
def disconnect (client : Option H) : HandleProg H (Option H) := do
  freeSome client
  pure none

/-! ### Queries -/

/-- The result sets after the first one. -/
def nextResults (client : H) : HandleProg H Unit := do
  let count ← answer
  times count.toNat do
    touch client
    let result ← tryMake client
    freeSome result
  touch client

/-- `begin;` -/
def startTransaction (client : H) (transaction : Bool) : HandleProg H ℤ :=
  if transaction then do
    let rc ← call client
    onError rc (reportError client)
    pure rc
  else pure 0

/-- `commit;` or `rollback;`, and the code that is returned. -/
def endTransaction (client : H) (transaction : Bool) (rc : ℤ) : HandleProg H ℤ :=
  if transaction then do
    let transRc ← call client
    onError transRc (reportError client)
    pure (if rc = 0 then transRc else rc)
  else pure rc

/-- `rawQuery`, which sends the text with `mysql_real_query` or with `mysql_query`. -/
def rawQuery (client : Option H) (sql : Option Bytes) (transaction : Bool) : HandleProg H ℤ :=
  if isEmptyString sql then pure (-1)
  else match client with
    | none => pure (-1)
    | some client => do
      let begun ← startTransaction client transaction
      if begun ≠ 0 then pure (-2)
      else do
        let rc ← call client
        if rc ≠ 0 then do
          reportError client
          endTransaction client transaction rc
        else do
          let result ← tryMake client
          freeSome result
          nextResults client
          endTransaction client transaction rc

/-- The rows of the first result set, or its error. -/
def fetchTable (client : H) : Option H → HandleProg H Unit
  | none => reportError client
  | some result => do
    touch result
    let rows ← answer
    times rows.toNat do
      touch result
      touch result
    touch result
    free result

/-- `execQuery` with a table. -/
def execQueryTable (client : Option H) (sql : Option Bytes) : HandleProg H ℤ :=
  if isEmptyString sql then pure (-1)
  else match client with
    | none => pure (-1)
    | some client => do
      let rc ← call client
      if rc ≠ 0 then do
        reportError client
        pure rc
      else do
        let result ← tryMake client
        fetchTable client result
        nextResults client
        pure rc

/-- `execQuery`. -/
def execQuery (client : Option H) : ExecQuery → HandleProg H ℤ
  | .plain sql transaction => rawQuery client sql transaction
  | .real sql length transaction =>
    if length = 0 then pure (-1) else rawQuery client sql transaction
  | .forTable sql _ => execQueryTable client sql

/-- `setTransactionIsolation`. -/
def setTransactionIsolation (client : Option H) (isolationLevel : Option Bytes) :
    HandleProg H ℤ :=
  if isEmptyString isolationLevel then pure (-1)
  else match client with
    | none => pure (-1)
    | some client => rawQuery (some client) isolationLevel false

/-! ### Statements -/

/-- The columns that the metadata describes are bound. -/
def bindColumns (stmt : H) (resultCols : Int32) : Option H → HandleProg H ℤ
  | none => do
    reportError stmt
    pure (-1)
  | some metadata => do
    let actualFields ← call metadata
    if actualFields ≠ resultCols.toInt then do
      free metadata
      pure (-2)
    else do
      touch metadata
      free metadata
      call stmt

/-- `bindStmtOutSimple`, or `bindStmtOut`. -/
def bindStmtOut (stmt : H) (resultCols : Int32) : HandleProg H ℤ := do
  let metadata ← tryMake stmt
  bindColumns stmt resultCols metadata

/-- The loop of `mysql_stmt_fetch`, with the number of rows that are left. -/
def fetchRows (stmt : H) : ℕ → HandleProg H ℤ
  | 0 => pure 0
  | left + 1 => do
    let rc ← call stmt
    if rc = 1 then do
      reportError stmt
      pure (-9)
    else if rc = mysqlNoData.toInt then pure 0
    else fetchRows stmt left

/-- The loop of `execStatement` on one row: the code with which it jumps to `exit`, or zero. -/
def execRow (stmt : H) (resultCols : Int32) : HandleProg H ℤ := do
  touch stmt
  orExit stmt (-5) (call stmt) <|
    if 0 < resultCols then
      orExit stmt (-6) (bindStmtOut stmt resultCols) <|
      orExit stmt (-7) (call stmt) <|
      orExit stmt (-8) (call stmt) <| do
        let numRows ← call stmt
        fetchRows stmt numRows.toNat
    else orExit stmt (-10) (call stmt) (pure 0)

/-- What `execStatement` does with the statement that `mysql_stmt_init` returned. -/
def runStatement (client : H) (request : ExecStatement) : Option H → HandleProg H ℤ
  | none => endTransaction client request.transaction (-3)
  | some stmt => do
    let rc ← orExit stmt (-4) (call stmt) <|
      if request.validParams.isEmpty then pure (-11)
      else untilCode request.validParams fun _ ↦ execRow stmt request.stmtParam.resultCols
    free stmt
    endTransaction client request.transaction rc

/-- `execStatement`. -/
def execStatement (client : Option H) (request : ExecStatement) : HandleProg H ℤ :=
  if isEmptyString request.sql then pure (-1)
  else match client with
    | none => pure (-1)
    | some client => do
      let begun ← startTransaction client request.transaction
      if begun ≠ 0 then pure (-2)
      else do
        let stmt ← tryMake client
        runStatement client request stmt

/-! ### The life of a client -/

/-- A call of a client. -/
inductive ClientCall
  | execQuery (query : ExecQuery)
  | execStatement (request : ExecStatement)
  | setTransactionIsolation (isolationLevel : Option Bytes)

/-- The call is made. -/
def ClientCall.run (client : Option H) : ClientCall → HandleProg H ℤ
  | .execQuery query => MysqlHandles.execQuery client query
  | .execStatement request => MysqlHandles.execStatement client request
  | .setTransactionIsolation level => MysqlHandles.setTransactionIsolation client level

/-- What a pool does with a client after `connect`: if that was successful it makes calls, and it
always disconnects the client and deletes it, where the destructor disconnects it once more. -/
def serve (calls : List ClientCall) (client : Option H) : HandleProg H Unit := do
  forEach (if client.isSome then calls else []) fun clientCall ↦ do
    let _ ← clientCall.run client
    pure ()
  let closed ← disconnect client
  let _ ← disconnect closed
  pure ()

/-- The life of a client in a pool. -/
def life (calls : List ClientCall) : HandleProg H Unit := do
  let client ← connect
  serve calls client

/-! ### What a client borrows -/

section Borrows

variable [DecidableEq H] {shared needs : List H} {client stmt h : H}

theorem borrows_reportError (hmem : h ∈ needs) : Borrows shared needs (reportError h) :=
  .bind (.touch hmem) fun _ ↦ .touch hmem

theorem borrows_onError {rc : ℤ} {prog : HandleProg H Unit} (hprog : Borrows shared needs prog) :
    Borrows shared needs (onError rc prog) :=
  .ite hprog (.done ())

theorem borrows_orExit (hmem : stmt ∈ needs) {code : ℤ} {prog next : HandleProg H ℤ}
    (hprog : Borrows shared needs prog) (hnext : Borrows shared needs next) :
    Borrows shared needs (orExit stmt code prog next) :=
  .bind hprog fun _ ↦ .ite (.bind (borrows_reportError hmem) fun _ ↦ .done code) hnext

theorem borrows_nextResults (hmem : client ∈ needs) : Borrows shared needs (nextResults client) :=
  .bind .answer fun count ↦ .bind
    (.times count.toNat (.bind (.touch hmem) fun _ ↦ .freeSome (.tryMake hmem)))
    fun _ ↦ .touch hmem

theorem borrows_startTransaction (hmem : client ∈ needs) (transaction : Bool) :
    Borrows shared needs (startTransaction client transaction) :=
  .ite (.bind (.call hmem) fun rc ↦
    .bind (borrows_onError (borrows_reportError hmem)) fun _ ↦ .done rc) (.done 0)

theorem borrows_endTransaction (hmem : client ∈ needs) (transaction : Bool) (rc : ℤ) :
    Borrows shared needs (endTransaction client transaction rc) :=
  .ite (.bind (.call hmem) fun _ ↦
    .bind (borrows_onError (borrows_reportError hmem)) fun _ ↦ .done _) (.done rc)

theorem borrows_rawQuery (hmem : client ∈ needs) (sql : Option Bytes) (transaction : Bool) :
    Borrows shared needs (rawQuery (some client) sql transaction) := by
  refine .ite (.done _) (.bind (borrows_startTransaction hmem transaction) fun _ ↦
    .ite (.done _) (.bind (.call hmem) fun rc ↦ ?_))
  have hend : Borrows shared needs (endTransaction client transaction rc) :=
    borrows_endTransaction hmem transaction rc
  exact .ite (.bind (borrows_reportError hmem) fun _ ↦ hend)
    (.freeSome_bind (.tryMake hmem) (.bind (borrows_nextResults hmem) fun _ ↦ hend))

theorem borrows_execQueryTable (hmem : client ∈ needs) (sql : Option Bytes) :
    Borrows shared needs (execQueryTable (some client) sql) := by
  refine .ite (.done _) (.bind (.call hmem) fun rc ↦
    .ite (.bind (borrows_reportError hmem) fun _ ↦ .done rc) ?_)
  have hnext : Borrows shared needs (nextResults client >>= fun _ ↦ pure rc) :=
    .bind (borrows_nextResults hmem) fun _ ↦ .done rc
  refine .open_bind (.tryMake hmem) (.bind (borrows_reportError hmem) fun _ ↦ hnext) fun result ↦ ?_
  have hself : result ∈ result :: needs := List.mem_cons_self
  have hrow : Borrows shared (result :: needs) (touch result >>= fun _ ↦ touch result) :=
    .bind (.touch hself) fun _ ↦ .touch hself
  refine .bind_borrows (.bind (.touch hself) fun _ ↦ .bind .answer fun rows ↦ ?_) fun _ ↦ hnext
  exact .bind (.times rows.toNat hrow) fun _ ↦ .bind (.touch hself) fun _ ↦ .free

theorem borrows_execQuery (hmem : client ∈ needs) (query : ExecQuery) :
    Borrows shared needs (execQuery (some client) query) := by
  cases query with
  | plain sql transaction => exact borrows_rawQuery hmem sql transaction
  | real sql length transaction => exact .ite (.done _) (borrows_rawQuery hmem sql transaction)
  | forTable sql table => exact borrows_execQueryTable hmem sql

theorem borrows_setTransactionIsolation (hmem : client ∈ needs) (level : Option Bytes) :
    Borrows shared needs (setTransactionIsolation (some client) level) :=
  .ite (.done _) (borrows_rawQuery hmem level false)

theorem borrows_bindStmtOut (hmem : stmt ∈ needs) (resultCols : Int32) :
    Borrows shared needs (bindStmtOut stmt resultCols) := by
  refine .open_bind (.tryMake hmem) (.bind (borrows_reportError hmem) fun _ ↦ .done _)
    fun metadata ↦ ?_
  have hself : metadata ∈ metadata :: needs := List.mem_cons_self
  refine .bind (.call hself) fun actualFields ↦ .ite (.free_bind (.done _)) ?_
  exact .bind (.touch hself) fun _ ↦ .free_bind (.call hmem)

theorem borrows_fetchRows (hmem : stmt ∈ needs) (left : ℕ) :
    Borrows shared needs (fetchRows stmt left) := by
  induction left with
  | zero => exact .done 0
  | succ left ih =>
    refine .bind (.call hmem) fun rc ↦ .ite ?_ (.ite (.done 0) ih)
    exact .bind (borrows_reportError hmem) fun _ ↦ .done _

theorem borrows_execRow (hmem : stmt ∈ needs) (resultCols : Int32) :
    Borrows shared needs (execRow stmt resultCols) := by
  refine .bind (.touch hmem) fun _ ↦ borrows_orExit hmem (.call hmem) (.ite ?_ ?_)
  · refine borrows_orExit hmem (borrows_bindStmtOut hmem resultCols) ?_
    refine borrows_orExit hmem (.call hmem) (borrows_orExit hmem (.call hmem) ?_)
    exact .bind (.call hmem) fun numRows ↦ borrows_fetchRows hmem numRows.toNat
  · exact borrows_orExit hmem (.call hmem) (.done 0)

theorem borrows_execStatement (hmem : client ∈ needs) (request : ExecStatement) :
    Borrows shared needs (execStatement (some client) request) := by
  refine .ite (.done _) (.bind (borrows_startTransaction hmem request.transaction) fun _ ↦
    .ite (.done _) ?_)
  refine .open_bind (.tryMake hmem) (borrows_endTransaction hmem _ _) fun stmt ↦ ?_
  have hself : stmt ∈ stmt :: needs := List.mem_cons_self
  refine .bind (borrows_orExit hself (.call hself) (.ite (.done _) (.untilCode fun _ _ ↦ ?_)))
    fun rc ↦ .free_bind (borrows_endTransaction hmem _ rc)
  exact borrows_execRow hself _

theorem borrows_run (hmem : client ∈ needs) (clientCall : ClientCall) :
    Borrows shared needs (clientCall.run (some client)) := by
  cases clientCall with
  | execQuery query => exact borrows_execQuery hmem query
  | execStatement request => exact borrows_execStatement hmem request
  | setTransactionIsolation level => exact borrows_setTransactionIsolation hmem level

/-- `connect` leaves a connection open, or nothing. -/
theorem opens_connect : Opens shared needs (connect : HandleProg H (Option H)) := by
  refine .bind (.tryAcquire fun parent hparent ↦ by cases hparent) .null fun client ↦ ?_
  have hself : client ∈ client :: needs := List.mem_cons_self
  exact .bind (.forEach fun _ _ ↦ .touch hself) fun _ ↦ .bind (.call hself) fun _ ↦
    .ite .done .free

theorem borrows_life (calls : List ClientCall) :
    Borrows shared needs (life calls : HandleProg H Unit) := by
  refine .open_bind opens_connect (.done ()) fun client ↦ ?_
  have hself : client ∈ client :: needs := List.mem_cons_self
  refine .bind (.forEach fun clientCall _ ↦ .bind (borrows_run hself clientCall) fun _ ↦ .done ())
    fun _ ↦ ?_
  exact .free_bind (.done ())

end Borrows

/-! ### Clients that live at the same time -/

/-- Assumes: clients that were connected, used, disconnected and deleted, or are being so, each by
one thread at a time. None of them is about to pass a null pointer or a closed handle to the
library, or to close a handle that others were made from; and when all were deleted, nothing is
open. -/
theorem mysql_clients_safe [DecidableEq H] (clients : List (List ClientCall))
    {calls : List (HandleCall H)} {final : HandleSystem H Unit}
    (hrun : runFrom HandleSystem.step ⟨clients.map life, []⟩ calls = some final) :
    (∀ i, ¬final.Violates i) ∧
      ((∀ prog ∈ final.threads, ∃ result, prog = .done result) → final.live = []) := by
  refine HandleSystem.nothing_left (fun prog hprog ↦ ?_) hrun
  obtain ⟨clientCalls, -, rfl⟩ := List.mem_map.mp hprog
  exact (borrows_life clientCalls).wp_nil

/-- The calls of a client that runs one query in a transaction, which has a result set, while a
second client cannot make its handle. -/
def queryCalls : List (HandleCall ℕ) :=
  [⟨0, 1, 0⟩, ⟨0, 0, 7⟩, ⟨1, 0, 0⟩] ++ List.replicate 8 ⟨0, 0, 0⟩ ++ [⟨0, 1, 0⟩] ++
    List.replicate 5 ⟨0, 0, 0⟩ ++ [⟨0, 1, 0⟩, ⟨0, 0, 8⟩] ++ List.replicate 6 ⟨0, 0, 0⟩

theorem mysql_clients_safe_query :
    ∃ final, runFrom HandleSystem.step
        ⟨[[.execQuery (.plain (some [0x42]) true)], []].map life, []⟩ queryCalls = some final ∧
      (∀ i, ¬final.Violates i) ∧ final.live = [] := by
  have hrun : runFrom HandleSystem.step
      ⟨[[.execQuery (.plain (some [0x42]) true)], []].map life, []⟩ queryCalls =
        some ⟨[.done (), .done ()], []⟩ := rfl
  obtain ⟨hsafe, hlive⟩ := mysql_clients_safe _ hrun
  refine ⟨_, hrun, hsafe, hlive fun prog hprog ↦ ?_⟩
  rcases List.mem_cons.mp hprog with rfl | hprog
  · exact ⟨(), rfl⟩
  · exact ⟨(), List.mem_singleton.mp hprog⟩

end TszyUlt.Wjp.MysqlHandles
