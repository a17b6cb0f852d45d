import TszyUlt.Lib.Transition
import TszyUlt.Wjp.ClientPool

/-!
# Queries of the MySQL client

`mysql_client::execQuery` and `rawQuery` of `wjp/mysql_client.hpp`. What the client library reports
to each call is a parameter, `QueryDriver`, and a query leaves the calls it made with what each of
them reported (`MysqlCall`), its return code and the connection state (`QueryOutcome`). A statement
may have several result sets, which both functions store one after another and throw away, or put
into a table if it is the first one (`consume`).

The library answers as documented: `mysql_next_result` returns zero for another result set, -1 for
none and a positive value for an error, and a null pointer from `mysql_store_result` is an error if
`mysql_errno` is not zero (`MysqlCall.ReportsError`).

Neither function looks at these two reports for its return code, so `errorsReported_iff` says when
errors are reported all the same: when the statement that was accepted has none in its result sets.

Scope. A statement has finitely many result sets. Log texts, and `mysql_free_result`, which reports
nothing, are not modelled.
-/

set_option autoImplicit false
set_option relaxedAutoImplicit false

namespace TszyUlt.Wjp

open Lib Zbf Fszm Lygc

/-! ### The client library -/

/-- What `mysql_query` or `mysql_real_query` returns, and `mysql_errno` after it. -/
structure QueryReport where
  rc : Int32 := 0
  errno : UInt32 := 0
  deriving DecidableEq, Repr

/-- What `mysql_store_result` returns: a result set, as its rows of fields, or a null pointer, with
`mysql_errno` after it. -/
inductive StoredResult
  | result (rows : List (List (Option Bytes)))
  | null (errno : UInt32)
  deriving DecidableEq, Repr

/-- The result sets of a statement: the first, those that `mysql_next_result` announces with zero,
and what it returns after the last. -/
structure ResultSets where
  first : StoredResult
  further : List StoredResult
  last : Int32
  last_ne_zero : last ≠ 0
  deriving DecidableEq, Repr

/-- What the library reports to the calls of one query. -/
structure QueryDriver where
  start : QueryReport
  statement : QueryReport
  sets : ResultSets
  commit : QueryReport
  rollback : QueryReport

/-- The commands that are sent. -/
inductive SqlCommand
  | start
  | plain (sql : Bytes)
  | real (sql : Bytes) (length : ℕ)
  | commit
  | rollback
  deriving DecidableEq, Repr

/-- A call of the library, with what it reported. -/
inductive MysqlCall
  | query (command : SqlCommand) (rc : Int32)
  | storeResult (stored : StoredResult)
  | nextResult (rc : Int32)
  deriving DecidableEq, Repr

/-- The call reported an error. -/
def MysqlCall.ReportsError : MysqlCall → Prop
  | .query _ rc => rc ≠ 0
  | .storeResult (.result _) => False
  | .storeResult (.null errno) => errno ≠ 0
  | .nextResult rc => 0 < rc

instance : DecidablePred MysqlCall.ReportsError
  | .query _ _ => inferInstanceAs (Decidable (_ ≠ _))
  | .storeResult (.result _) => inferInstanceAs (Decidable False)
  | .storeResult (.null _) => inferInstanceAs (Decidable (_ ≠ _))
  | .nextResult _ => inferInstanceAs (Decidable (_ < _))

/-- The call sends `commit;`. -/
def MysqlCall.IsCommit : MysqlCall → Prop
  | .query .commit _ => True
  | _ => False

/-! ### The client -/

/-- The part of `mysql_client` that a query uses: whether it has a connection handle, and the state
of the connection. -/
structure MysqlConn where
  hasClient : Bool := true
  connState : Bool := true
  deriving DecidableEq, Repr

/-- `CR_CONNECTION_ERROR`, `CR_SERVER_GONE_ERROR` and `CR_SERVER_LOST`. -/
def lostErrors : List UInt32 := [2002, 2006, 2013]

/-- `flushConnState`. -/
def MysqlConn.flushConnState (conn : MysqlConn) (errno : UInt32) : MysqlConn :=
  if errno ∈ lostErrors then { conn with connState := false } else conn

/-- The connection after a call of `mysql_query` or `mysql_real_query`. -/
def MysqlConn.afterQuery (conn : MysqlConn) (report : QueryReport) : MysqlConn :=
  if report.rc ≠ 0 then conn.flushConnState report.errno else conn

/-- `isEmptyString`. -/
def isEmptyString : Option Bytes → Bool
  | none => true
  | some str => (cStr str).isEmpty

/-- What a query came to. -/
structure QueryOutcome where
  rc : Int32
  conn : MysqlConn
  calls : List MysqlCall := []
  table : DataTable := []
  deriving DecidableEq, Repr

/-- The calls that store the result sets of a statement. -/
def ResultSets.consume (sets : ResultSets) : List MysqlCall :=
  .storeResult sets.first ::
    (sets.further.flatMap fun stored ↦ [.nextResult 0, .storeResult stored]) ++
      [.nextResult sets.last]

/-- The calls for a statement: the statement, and its result sets if it was accepted. -/
def QueryDriver.send (driver : QueryDriver) (command : SqlCommand) : List MysqlCall :=
  .query command driver.statement.rc ::
    if driver.statement.rc ≠ 0 then [] else driver.sets.consume

/-- The end of a transaction: `commit;` after a statement that returned zero, else `rollback;`. -/
def QueryDriver.finish (driver : QueryDriver) (rc : Int32) : SqlCommand × QueryReport :=
  if rc = 0 then (.commit, driver.commit) else (.rollback, driver.rollback)

/-- `rawQuery`. -/
def rawQuery (driver : QueryDriver) (conn : MysqlConn) (sql : Option Bytes) (length : ℕ)
    (real transaction : Bool) : QueryOutcome :=
  if isEmptyString sql then { rc := -1, conn }
  else if !conn.hasClient then { rc := -1, conn }
  else if transaction && driver.start.rc ≠ 0 then
    { rc := -2, conn := conn.afterQuery driver.start, calls := [.query .start driver.start.rc] }
  else
    let text := sql.getD []
    let command : SqlCommand := if real then .real text length else .plain (cStr text)
    let rc := driver.statement.rc
    let sent := driver.send command
    let conn := conn.afterQuery driver.statement
    if transaction then
      let (ending, finished) := driver.finish rc
      { rc := if rc = 0 then finished.rc else rc
        conn := conn.afterQuery finished
        calls := .query .start driver.start.rc :: sent ++ [.query ending finished.rc] }
    else { rc, conn, calls := sent }

/-- The rows that `execQuery` adds to its table, with an empty string for a null field. -/
def StoredResult.table : StoredResult → DataTable
  | .result rows => rows.map fun row ↦ row.map fun field ↦ field.getD []
  | .null _ => []

/-- The connection after the first result set of `execQuery` was stored. -/
def MysqlConn.afterStored (conn : MysqlConn) : StoredResult → MysqlConn
  | .result _ => conn
  | .null errno => conn.flushConnState errno

/-- The three forms of `execQuery`. -/
inductive ExecQuery
  | plain (sql : Option Bytes) (transaction : Bool)
  | real (sql : Option Bytes) (length : ℕ) (transaction : Bool)
  | forTable (sql : Option Bytes) (table : DataTable)
  deriving DecidableEq, Repr

/-- `execQuery`. -/
def ExecQuery.run (driver : QueryDriver) (conn : MysqlConn) : ExecQuery → QueryOutcome
  | .plain sql transaction => rawQuery driver conn sql 0 false transaction
  | .real sql length transaction =>
    if length = 0 then { rc := -1, conn } else rawQuery driver conn sql length true transaction
  | .forTable sql table =>
    if isEmptyString sql then { rc := -1, conn, table }
    else if !conn.hasClient then { rc := -1, conn, table }
    else
      let rc := driver.statement.rc
      let calls := driver.send (.plain (cStr (sql.getD [])))
      if rc = 0 then
        { rc, conn := conn.afterStored driver.sets.first, calls
          table := table ++ driver.sets.first.table }
      else { rc, conn := conn.afterQuery driver.statement, calls, table }

/-! ### Errors and what is returned -/

/-- Errors are reported: after one the code is not zero, and no commit is sent. -/
structure QueryOutcome.ErrorsReported (outcome : QueryOutcome) : Prop where
  rc_ne_zero : ∀ call ∈ outcome.calls, call.ReportsError → outcome.rc ≠ 0
  no_commit : EachAfter
    (fun before call ↦ call.IsCommit → ∀ earlier ∈ before, ¬ earlier.ReportsError) outcome.calls

/-- No result set reports an error. -/
structure ResultSets.Clean (sets : ResultSets) : Prop where
  stored : ∀ stored ∈ sets.first :: sets.further, ¬ (MysqlCall.storeResult stored).ReportsError
  last : ¬ 0 < sets.last

/-- A statement is sent, and the library accepts it: the text is not empty, there is a connection
handle, the transaction was started if there is one, and the statement returned zero. -/
def Accepted (driver : QueryDriver) (conn : MysqlConn) (sql : Option Bytes) (transaction : Bool) :
    Prop :=
  isEmptyString sql = false ∧ conn.hasClient = true ∧
    (transaction = true → driver.start.rc = 0) ∧ driver.statement.rc = 0

/-- The statement of an `execQuery` is sent and accepted. -/
def ExecQuery.Accepted (driver : QueryDriver) (conn : MysqlConn) : ExecQuery → Prop
  | .plain sql transaction => Wjp.Accepted driver conn sql transaction
  | .real sql length transaction => length ≠ 0 ∧ Wjp.Accepted driver conn sql transaction
  | .forTable sql _ => Wjp.Accepted driver conn sql false

variable {driver : QueryDriver} {conn : MysqlConn} {sql : Option Bytes} {outcome : QueryOutcome}

theorem ResultSets.mem_consume {sets : ResultSets} {call : MysqlCall} :
    call ∈ sets.consume ↔
      (∃ stored ∈ sets.first :: sets.further, call = .storeResult stored) ∨
        call = .nextResult 0 ∧ sets.further ≠ [] ∨ call = .nextResult sets.last := by
  rw [consume, List.mem_append, List.mem_cons, List.mem_flatMap, List.mem_singleton]
  constructor
  · rintro ((rfl | ⟨stored, hstored, hcall⟩) | rfl)
    · exact Or.inl ⟨sets.first, List.mem_cons_self, rfl⟩
    · rcases List.mem_cons.mp hcall with rfl | hcall
      · exact Or.inr (Or.inl ⟨rfl, List.ne_nil_of_mem hstored⟩)
      · exact Or.inl ⟨stored, List.mem_cons_of_mem _ hstored, List.mem_singleton.mp hcall⟩
    · exact Or.inr (Or.inr rfl)
  · rintro (⟨stored, hstored, rfl⟩ | ⟨rfl, hfurther⟩ | rfl)
    · rcases List.mem_cons.mp hstored with rfl | hstored
      · exact Or.inl (Or.inl rfl)
      · exact Or.inl (Or.inr ⟨stored, hstored, List.mem_cons_of_mem _ List.mem_cons_self⟩)
    · obtain ⟨stored, hstored⟩ := List.exists_mem_of_ne_nil _ hfurther
      exact Or.inl (Or.inr ⟨stored, hstored, List.mem_cons_self⟩)
    · exact Or.inr rfl

theorem ResultSets.clean_iff {sets : ResultSets} :
    sets.Clean ↔ ∀ call ∈ sets.consume, ¬ call.ReportsError := by
  constructor
  · intro hclean call hcall
    rcases mem_consume.mp hcall with ⟨stored, hstored, rfl⟩ | ⟨rfl, -⟩ | rfl
    · exact hclean.stored stored hstored
    · exact by decide
    · exact hclean.last
  · intro hcalls
    exact ⟨fun stored hstored ↦ hcalls _ (mem_consume.mpr (Or.inl ⟨stored, hstored, rfl⟩)),
      hcalls _ (mem_consume.mpr (Or.inr (Or.inr rfl)))⟩

theorem ResultSets.not_isCommit {sets : ResultSets} {call : MysqlCall}
    (hcall : call ∈ sets.consume) : ¬ call.IsCommit := by
  rcases mem_consume.mp hcall with ⟨stored, -, rfl⟩ | ⟨rfl, -⟩ | rfl
  all_goals exact id

/-- A log without a commit permits everything. -/
theorem eachAfter_of_no_commit {calls : List MysqlCall} (hcalls : ∀ call ∈ calls, ¬ call.IsCommit) :
    EachAfter (fun before call ↦ call.IsCommit → ∀ earlier ∈ before, ¬ earlier.ReportsError)
      calls := by
  intro before call after hsplit hcommit
  refine absurd hcommit (hcalls call ?_)
  rw [hsplit]
  exact List.mem_append_right _ List.mem_cons_self

/-- Assumes: the code is not zero, and no commit was sent. -/
theorem QueryOutcome.errorsReported_of_failed (hrc : outcome.rc ≠ 0)
    (hcalls : ∀ call ∈ outcome.calls, ¬ call.IsCommit) : outcome.ErrorsReported :=
  ⟨fun _ _ _ ↦ hrc, eachAfter_of_no_commit hcalls⟩

/-- Assumes: an accepted statement without a transaction, whose code is zero. -/
theorem QueryOutcome.errorsReported_plain_iff {sets : ResultSets} {command : SqlCommand}
    (hrc : outcome.rc = 0) (hcommand : command ≠ .commit)
    (hcalls : outcome.calls = .query command 0 :: sets.consume) :
    outcome.ErrorsReported ↔ sets.Clean := by
  rw [ResultSets.clean_iff]
  constructor
  · intro hreported call hcall herror
    refine hreported.rc_ne_zero call ?_ herror hrc
    rw [hcalls]
    exact List.mem_cons_of_mem _ hcall
  · intro hclean
    refine ⟨fun call hcall herror ↦ ?_, eachAfter_of_no_commit fun call hcall ↦ ?_⟩
    all_goals rw [hcalls, List.mem_cons] at hcall
    · rcases hcall with rfl | hcall
      · exact absurd rfl herror
      · exact absurd herror (hclean call hcall)
    · rcases hcall with rfl | hcall
      · cases command
        case commit => exact absurd rfl hcommand
        all_goals exact id
      · exact ResultSets.not_isCommit hcall

/-- Assumes: an accepted statement in a transaction, whose code is that of its commit. -/
theorem QueryOutcome.errorsReported_committed_iff {sets : ResultSets} {command : SqlCommand}
    (hcommand : command ≠ .commit)
    (hcalls : outcome.calls =
      (.query .start 0 :: .query command 0 :: sets.consume) ++ [.query .commit outcome.rc]) :
    outcome.ErrorsReported ↔ sets.Clean := by
  rw [ResultSets.clean_iff]
  constructor
  · intro hreported call hcall
    refine hreported.no_commit _ _ [] hcalls trivial call ?_
    exact List.mem_cons_of_mem _ (List.mem_cons_of_mem _ hcall)
  · intro hclean
    have hfree : ∀ call ∈ MysqlCall.query .start 0 :: .query command 0 :: sets.consume,
        ¬ call.ReportsError ∧ ¬ call.IsCommit := by
      intro call hcall
      rcases List.mem_cons.mp hcall with rfl | hcall
      · exact ⟨fun hne ↦ hne rfl, id⟩
      rcases List.mem_cons.mp hcall with rfl | hcall
      · refine ⟨fun hne ↦ hne rfl, ?_⟩
        cases command
        case commit => exact absurd rfl hcommand
        all_goals exact id
      · exact ⟨hclean call hcall, ResultSets.not_isCommit hcall⟩
    refine ⟨fun call hcall herror ↦ ?_, ?_⟩
    · rw [hcalls, List.mem_append, List.mem_singleton] at hcall
      rcases hcall with hcall | rfl
      · exact absurd herror (hfree call hcall).1
      · exact herror
    · rw [hcalls]
      exact (eachAfter_of_no_commit fun call hcall ↦ (hfree call hcall).2).concat
        fun _ earlier hearlier ↦ (hfree earlier hearlier).1

theorem send_accepted (haccepted : driver.statement.rc = 0) (command : SqlCommand) :
    driver.send command = .query command 0 :: driver.sets.consume := by
  rw [QueryDriver.send, haccepted, if_neg fun hne ↦ hne rfl]

theorem send_refused (hrefused : driver.statement.rc ≠ 0) (command : SqlCommand) :
    driver.send command = [.query command driver.statement.rc] := by
  rw [QueryDriver.send, if_pos hrefused]

/-- The command of `rawQuery` is not a commit. -/
theorem command_ne_commit (real : Bool) (text : Bytes) (length : ℕ) :
    (if real then SqlCommand.real text length else .plain (cStr text)) ≠ .commit := by
  cases real
  all_goals exact fun heq ↦ by cases heq

theorem not_isCommit_of_ne {command : SqlCommand} (hcommand : command ≠ .commit) (rc : Int32) :
    ¬ (MysqlCall.query command rc).IsCommit := by
  cases command
  case commit => exact absurd rfl hcommand
  all_goals exact id

theorem rawQuery_errorsReported_iff (driver : QueryDriver) (conn : MysqlConn) (sql : Option Bytes)
    (length : ℕ) (real transaction : Bool) :
    (rawQuery driver conn sql length real transaction).ErrorsReported ↔
      (Accepted driver conn sql transaction → driver.sets.Clean) := by
  have hcommand := command_ne_commit real (sql.getD []) length
  have hunsent : ∀ rc, QueryOutcome.ErrorsReported { rc, conn } := fun rc ↦
    ⟨fun _ hcall ↦ absurd hcall List.not_mem_nil, eachAfter_nil⟩
  by_cases hempty : isEmptyString sql = true
  · rw [rawQuery, if_pos hempty]
    exact iff_of_true (hunsent _) fun haccepted ↦ absurd (hempty.symm.trans haccepted.1) (by decide)
  rw [Bool.not_eq_true] at hempty
  by_cases hclient : conn.hasClient = true
  swap
  · rw [rawQuery, hempty, Bool.eq_false_of_not_eq_true hclient]
    exact iff_of_true (hunsent _) fun haccepted ↦ absurd haccepted.2.1 hclient
  simp only [rawQuery, hempty, hclient, Bool.false_eq_true, if_false, Bool.not_true]
  by_cases hstart : transaction = true → driver.start.rc = 0
  swap
  · -- the transaction is not started, and nothing else is sent
    obtain ⟨htransaction, hfails⟩ := Classical.not_imp.mp hstart
    rw [if_pos (by rw [htransaction]; exact decide_eq_true hfails)]
    refine iff_of_true (QueryOutcome.errorsReported_of_failed (by decide : (-2 : Int32) ≠ 0) ?_)
      fun haccepted ↦ absurd haccepted.2.2.1 hstart
    intro call hcall
    rw [List.mem_singleton.mp hcall]
    exact not_isCommit_of_ne (fun heq ↦ by cases heq) _
  have hguard : ¬ (transaction && driver.start.rc ≠ 0) = true := by
    intro hboth
    obtain ⟨htransaction, hfails⟩ := Bool.and_eq_true_iff.mp hboth
    exact of_decide_eq_true hfails (hstart htransaction)
  rw [if_neg hguard]
  by_cases hstatement : driver.statement.rc = 0
  · -- the statement is accepted, and its result sets are stored
    have haccepted : Accepted driver conn sql transaction := ⟨hempty, hclient, hstart, hstatement⟩
    rw [send_accepted hstatement, imp_iff_right haccepted]
    cases transaction with
    | false =>
      rw [if_neg (by decide)]
      exact QueryOutcome.errorsReported_plain_iff hstatement hcommand rfl
    | true =>
      rw [if_pos rfl, QueryDriver.finish, if_pos hstatement, if_pos hstatement, hstart rfl]
      exact QueryOutcome.errorsReported_committed_iff hcommand rfl
  · -- the statement is refused, and rolled back in a transaction
    rw [send_refused hstatement]
    refine iff_of_true ?_ fun haccepted ↦ absurd haccepted.2.2.2 hstatement
    cases transaction with
    | false =>
      rw [if_neg (by decide)]
      refine QueryOutcome.errorsReported_of_failed hstatement fun call hcall ↦ ?_
      rw [List.mem_singleton.mp hcall]
      exact not_isCommit_of_ne hcommand _
    | true =>
      rw [if_pos rfl, QueryDriver.finish, if_neg hstatement, if_neg hstatement]
      refine QueryOutcome.errorsReported_of_failed hstatement fun call hcall ↦ ?_
      rcases List.mem_cons.mp hcall with rfl | hcall
      · exact not_isCommit_of_ne (fun heq ↦ by cases heq) _
      rcases List.mem_cons.mp hcall with rfl | hcall
      · exact not_isCommit_of_ne hcommand _
      rw [List.mem_singleton.mp hcall]
      exact not_isCommit_of_ne (fun heq ↦ by cases heq) _

theorem execQueryTable_errorsReported_iff (driver : QueryDriver) (conn : MysqlConn)
    (sql : Option Bytes) (table : DataTable) :
    ((ExecQuery.forTable sql table).run driver conn).ErrorsReported ↔
      (Accepted driver conn sql false → driver.sets.Clean) := by
  have hcommand : SqlCommand.plain (cStr (sql.getD [])) ≠ .commit := fun heq ↦ by cases heq
  have hunsent : QueryOutcome.ErrorsReported { rc := -1, conn, table } :=
    ⟨fun _ hcall ↦ absurd hcall List.not_mem_nil, eachAfter_nil⟩
  by_cases hempty : isEmptyString sql = true
  · rw [ExecQuery.run, if_pos hempty]
    exact iff_of_true hunsent fun haccepted ↦ absurd (hempty.symm.trans haccepted.1) (by decide)
  rw [Bool.not_eq_true] at hempty
  by_cases hclient : conn.hasClient = true
  swap
  · rw [ExecQuery.run, hempty, Bool.eq_false_of_not_eq_true hclient]
    exact iff_of_true hunsent fun haccepted ↦ absurd haccepted.2.1 hclient
  simp only [ExecQuery.run, hempty, hclient, Bool.false_eq_true, if_false, Bool.not_true]
  by_cases hstatement : driver.statement.rc = 0
  · have haccepted : Accepted driver conn sql false :=
      ⟨hempty, hclient, fun htransaction ↦ absurd htransaction (by decide), hstatement⟩
    rw [if_pos hstatement, send_accepted hstatement, imp_iff_right haccepted]
    exact QueryOutcome.errorsReported_plain_iff hstatement hcommand rfl
  · rw [if_neg hstatement, send_refused hstatement]
    refine iff_of_true ?_ fun haccepted ↦ absurd haccepted.2.2.2 hstatement
    refine QueryOutcome.errorsReported_of_failed hstatement fun call hcall ↦ ?_
    rw [List.mem_singleton.mp hcall]
    exact not_isCommit_of_ne hcommand _

/-- For every query, in each of its forms, and every answer of the library: errors are reported
exactly if the result sets of a statement that was accepted report none. -/
theorem errorsReported_iff (driver : QueryDriver) (conn : MysqlConn) (query : ExecQuery) :
    (query.run driver conn).ErrorsReported ↔ (query.Accepted driver conn → driver.sets.Clean) := by
  cases query with
  | plain sql transaction => exact rawQuery_errorsReported_iff driver conn sql 0 false transaction
  | real sql length transaction =>
    by_cases hlength : length = 0
    · rw [ExecQuery.run, if_pos hlength]
      exact iff_of_true ⟨fun _ hcall ↦ absurd hcall List.not_mem_nil, eachAfter_nil⟩
        fun haccepted ↦ absurd hlength haccepted.1
    · rw [ExecQuery.run, if_neg hlength,
        rawQuery_errorsReported_iff driver conn sql length true transaction]
      exact imp_congr_left ⟨fun haccepted ↦ ⟨hlength, haccepted⟩, And.right⟩
  | forTable sql table => exact execQueryTable_errorsReported_iff driver conn sql table

/-- The text `CALL p`. -/
def callText : Bytes := [0x43, 0x41, 0x4C, 0x4C, 0x20, 0x70]

/-- A procedure whose second result set fails: `mysql_next_result` returns 1. -/
def failingProcedure : QueryDriver where
  start := {}
  statement := {}
  sets := { first := .result [], further := [], last := 1, last_ne_zero := by decide }
  commit := {}
  rollback := {}

/-- The procedure is called in a transaction. The error is reported by the library, `execQuery`
commits and returns zero. -/
theorem not_errorsReported_failingProcedure :
    ((ExecQuery.plain (some callText) true).run failingProcedure {}).rc = 0 ∧
      MysqlCall.query .commit 0 ∈
        ((ExecQuery.plain (some callText) true).run failingProcedure {}).calls ∧
      ¬ ((ExecQuery.plain (some callText) true).run failingProcedure {}).ErrorsReported := by
  refine ⟨by decide, by decide, fun hreported ↦ ?_⟩
  exact hreported.rc_ne_zero (.nextResult 1) (by decide) (by decide) (by decide)

end TszyUlt.Wjp
