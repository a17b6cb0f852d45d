import TszyUlt.Wjp.MysqlQuery

/-!
# Prepared statements of the MySQL client

`mysql_client::execStatement` of `wjp/mysql_client.hpp`, with `bindStmtOut` and `bindStmtOutSimple`.
A statement is prepared once and executed for each row of a parameter table that is as wide as
`paramCols` says. What the client library reports to each call is a parameter, `StmtDriver`: it is
given for each row of the table on its own, so it stands for every sequence of reports. An execution
leaves the calls it made in order (`StmtCall`).

The body either jumps to the label `exit` with a code, or completes its loop (`StmtRun`), and
`exitPath` is what stands behind the label. `execRow_spec` and `execRows_spec` say what one row and
the loop come to, in terms of the rows whose reports show no error (`RowReport.Succeeds`).

Scope. The buffers of a result column are filled by the library, and what a fetch leaves in them is
part of its report. `mysql_stmt_num_rows` makes no call to the server and is a value. A table has
fewer than `2 ^ 31` rows. Log texts are not modelled.
-/

set_option autoImplicit false
set_option relaxedAutoImplicit false

namespace TszyUlt.Wjp

open Lib Zbf Fszm Lygc

/-! ### The client library -/

/-- `MYSQL_NO_DATA`. -/
def mysqlNoData : Int32 := 100

/-- `MYSQL_TYPE_STRING`, which is also `FIELD_TYPE_STRING`. -/
def mysqlTypeString : BitVec 32 := 254

/-- `MYSQL_TYPE_BLOB`. -/
def mysqlTypeBlob : BitVec 32 := 252

/-- `MYSQL_TYPE_VARCHAR`, `MYSQL_TYPE_STRING`, `MYSQL_TYPE_VAR_STRING` and `MYSQL_TYPE_JSON`. -/
def stringTypes : List (BitVec 32) := [15, 254, 253, 245]

/-- `MYSQL_TYPE_BLOB`, `MYSQL_TYPE_LONG_BLOB`, `MYSQL_TYPE_MEDIUM_BLOB` and
`MYSQL_TYPE_TINY_BLOB`. -/
def blobTypes : List (BitVec 32) := [252, 251, 250, 249]

/-- The types that `bindStmtOut` binds as they are, with the size of a value: `MYSQL_TYPE_TINY`,
`MYSQL_TYPE_SHORT`, `MYSQL_TYPE_LONG`, `MYSQL_TYPE_LONGLONG`, `MYSQL_TYPE_FLOAT` and
`MYSQL_TYPE_DOUBLE`. -/
def numericTypes : List (BitVec 32 × ℕ) := [(1, 1), (2, 2), (3, 4), (8, 8), (4, 4), (5, 8)]

/-- `MYSQL_TYPE_DATE`, `MYSQL_TYPE_TIME` and `MYSQL_TYPE_DATETIME`. -/
def timeTypes : List (BitVec 32) := [10, 11, 12]

/-- A column of the result, as its metadata describes it. -/
structure MysqlField where
  type : BitVec 32
  length : ℕ
  deriving DecidableEq, Repr

/-- The part of a `MYSQL_BIND` that is set. -/
structure MysqlBind where
  bufferType : BitVec 32
  buffer : Bytes := []
  bufferLength : ℕ
  deriving DecidableEq, Repr

/-- What a fetch leaves for one column: whether it is null, the content of its buffer, and the
length of the value. -/
structure FetchedColumn where
  isNull : Bool
  data : Bytes
  length : ℕ
  deriving DecidableEq, Repr

/-- What `mysql_stmt_fetch` returns, and what it leaves for each column. -/
structure FetchReport where
  rc : Int32
  column : ℕ → FetchedColumn

/-- What the library reports to the calls for one row of the parameter table. -/
structure RowReport where
  bindParam : Int32 := 0
  /-- `mysql_stmt_result_metadata` returns no null pointer. -/
  metadata : Bool := true
  bindResult : Int32 := 0
  execute : QueryReport := {}
  storeResult : Int32 := 0
  numRows : ℕ := 0
  fetch : ℕ → FetchReport := fun _ ↦ ⟨mysqlNoData, fun _ ↦ ⟨false, [], 0⟩⟩

/-- What the library reports to the calls of one statement. -/
structure StmtDriver where
  start : QueryReport := {}
  stmtInit : Bool := true
  prepare : QueryReport := {}
  /-- The placeholders of the prepared statement. -/
  placeholders : ℕ
  /-- The columns of its result. -/
  columns : List MysqlField := []
  row : ℕ → RowReport := fun _ ↦ {}
  commit : QueryReport := {}
  rollback : QueryReport := {}
  /-- `sizeof(MYSQL_TIME)`. -/
  timeSize : ℕ := 48

/-- A call of the library, with what it reported. -/
inductive StmtCall
  | start (rc : Int32)
  | stmtInit (ok : Bool)
  | prepare (sql : Bytes) (rc : Int32)
  | reset
  | bindParam (bindIn : List MysqlBind) (rc : Int32)
  | resultMetadata (ok : Bool)
  | bindResult (bindOut : List MysqlBind) (rc : Int32)
  /-- The statement is executed with the row that is bound. -/
  | execute (param : DataRow) (rc : Int32)
  | storeResult (rc : Int32)
  | fetch (rc : Int32)
  | close
  | commit (rc : Int32)
  | rollback (rc : Int32)
  deriving DecidableEq, Repr

/-! ### Binding -/

/-- `MAX_STRING_SIZE`. -/
def maxStringSize : ℕ := 65536

/-- `MAX_BLOB_SIZE`. -/
def maxBlobSize : ℕ := 16 * 1048576

/-- The binding of a text column. -/
def stringBind (field : MysqlField) : MysqlBind where
  bufferType := mysqlTypeString
  bufferLength :=
    if 0 < field.length ∧ field.length < maxStringSize then field.length + 1 else maxStringSize

/-- The binding of a binary column. -/
def blobBind (field : MysqlField) : MysqlBind where
  bufferType := mysqlTypeBlob
  bufferLength :=
    if 0 < field.length ∧ field.length < maxBlobSize then field.length else maxBlobSize

/-- The `switch` of `bindStmtOutSimple`. -/
def simpleBind (field : MysqlField) : MysqlBind :=
  if field.type ∈ stringTypes then stringBind field
  else if field.type ∈ blobTypes then blobBind field
  else { bufferType := mysqlTypeString, bufferLength := 32 }

/-- The `switch` of `bindStmtOut`. -/
def typedBind (timeSize : ℕ) (field : MysqlField) : MysqlBind :=
  match numericTypes.lookup field.type with
  | some size => { bufferType := field.type, bufferLength := size }
  | none =>
    if field.type ∈ timeTypes then { bufferType := field.type, bufferLength := timeSize }
    else if field.type ∈ blobTypes then blobBind field
    else stringBind field

/-- `bind_in`: an array of `paramCols` entries, filled from the row. -/
def bindIn (paramCols : Int32) (param : DataRow) : List MysqlBind :=
  (List.range paramCols.toInt.toNat).map fun j ↦
    { bufferType := mysqlTypeString, buffer := cStr (param.getD j [])
      bufferLength := (param.getD j []).length + 1 }

/-- The first `resultCols` columns of the metadata. -/
def boundFields (columns : List MysqlField) (resultCols : Int32) : List MysqlField :=
  (List.range resultCols.toInt.toNat).map fun j ↦ columns.getD j ⟨0, 0⟩

/-- `bind_out`: an array of `resultCols` entries, filled from the metadata. -/
def bindOut (driver : StmtDriver) (simple : Bool) (resultCols : Int32) : List MysqlBind :=
  (boundFields driver.columns resultCols).map
    (if simple then simpleBind else typedBind driver.timeSize)

/-- What binding the columns of the result came to. -/
structure BoundOut where
  rc : Int32
  calls : List StmtCall
  fieldsType : FieldsType

/-- `bindStmtOutSimple`, or `bindStmtOut`. -/
def bindStmtOut (driver : StmtDriver) (report : RowReport) (simple : Bool) (resultCols : Int32)
    (fieldsType : FieldsType) : BoundOut :=
  if !report.metadata then { rc := -1, calls := [.resultMetadata false], fieldsType }
  else if (driver.columns.length : ℤ) ≠ resultCols.toInt then
    { rc := -2, calls := [.resultMetadata true], fieldsType }
  else
    { rc := report.bindResult
      calls := [.resultMetadata true,
        .bindResult (bindOut driver simple resultCols) report.bindResult]
      fieldsType := if fieldsType.isEmpty then
          (boundFields driver.columns resultCols).map MysqlField.type
        else fieldsType }

/-! ### One row -/

/-- A column of a row of the result. -/
def FetchedColumn.value (column : FetchedColumn) (size : ℕ) : Bytes :=
  if column.isNull then [] else column.data.take (min column.length size)

/-- The row that a fetch adds, in buffers of the given sizes. -/
def FetchReport.row (fetched : FetchReport) (sizes : List ℕ) : DataRow :=
  sizes.zipIdx.map fun bound ↦ (fetched.column bound.2).value bound.1

/-- The loop of `mysql_stmt_fetch`, with the number of rows that are left: its calls, and the rows
it adds unless a fetch reports an error. -/
def fetchRows (report : RowReport) (sizes : List ℕ) : ℕ → ℕ → List StmtCall × Option DataTable
  | 0, _ => ([], some [])
  | left + 1, n =>
    let fetched := report.fetch n
    if fetched.rc = 1 then ([.fetch fetched.rc], none)
    else if fetched.rc = mysqlNoData then ([.fetch fetched.rc], some [])
    else
      let (calls, rest) := fetchRows report sizes left (n + 1)
      (.fetch fetched.rc :: calls, rest.map (fetched.row sizes :: ·))

/-- The rows that a loop from zero to `mysql_stmt_num_rows`, as an `int`, goes through. -/
def RowReport.rowCount (report : RowReport) : ℕ := (asInt32 report.numRows).toNat

/-- What one row, or the loop over the rows, came to: the code with which it jumps to `exit`, zero
if it does not, the calls, the tables added to `results`, and `fieldsType`. -/
structure RowOutcome where
  rc : Int32
  conn : MysqlConn
  calls : List StmtCall
  tables : DataTables := []
  fieldsType : FieldsType

/-- `execStatement`, as it was called. -/
structure ExecStatement where
  sql : Option Bytes
  stmtParam : MysqlStmtReqParams
  transaction : Bool := false
  bindOutSimple : Bool := true
  deriving DecidableEq, Repr

/-- The sizes of the buffers that the columns of the result are fetched into. -/
def resultSizes (driver : StmtDriver) (request : ExecStatement) : List ℕ :=
  (bindOut driver request.bindOutSimple request.stmtParam.resultCols).map MysqlBind.bufferLength

/-- The loop of `execStatement` on one row. -/
def execRow (driver : StmtDriver) (request : ExecStatement) (report : RowReport)
    (fieldsType : FieldsType) (conn : MysqlConn) (param : DataRow) : RowOutcome :=
  let resultCols := request.stmtParam.resultCols
  let bound : List StmtCall :=
    [.reset, .bindParam (bindIn request.stmtParam.paramCols param) report.bindParam]
  let executed : StmtCall := .execute param report.execute.rc
  if report.bindParam ≠ 0 then { rc := -5, conn, calls := bound, fieldsType }
  else if 0 < resultCols then
    let out := bindStmtOut driver report request.bindOutSimple resultCols fieldsType
    let fieldsType := out.fieldsType
    if out.rc ≠ 0 then { rc := -6, conn, calls := bound ++ out.calls, fieldsType }
    else if report.execute.rc ≠ 0 then
      { rc := -7, conn := conn.afterQuery report.execute
        calls := bound ++ out.calls ++ [executed], fieldsType }
    else if report.storeResult ≠ 0 then
      { rc := -8, conn, fieldsType
        calls := bound ++ out.calls ++ [executed, .storeResult report.storeResult] }
    else
      let (fetches, table) := fetchRows report (resultSizes driver request) report.rowCount 0
      let calls := bound ++ out.calls ++ [executed, .storeResult report.storeResult] ++ fetches
      match table with
      | none => { rc := -9, conn, calls, fieldsType }
      | some result => { rc := 0, conn, calls, tables := [result], fieldsType }
  else if report.execute.rc ≠ 0 then
    { rc := -10, conn := conn.afterQuery report.execute, calls := bound ++ [executed], fieldsType }
  else { rc := 0, conn, calls := bound ++ [executed], fieldsType }

/-- The loop of `execStatement`, from the row at a position on. -/
def execRows (driver : StmtDriver) (request : ExecStatement) :
    ℕ → FieldsType → MysqlConn → List DataRow → RowOutcome
  | _, fieldsType, conn, [] => { rc := 0, conn, calls := [], fieldsType }
  | m, fieldsType, conn, param :: params =>
    let row := execRow driver request (driver.row m) fieldsType conn param
    if row.rc ≠ 0 then row
    else
      let rest := execRows driver request (m + 1) row.fieldsType row.conn params
      { rest with calls := row.calls ++ rest.calls, tables := row.tables ++ rest.tables }

/-! ### The statement -/

/-- `validParams`. -/
def ExecStatement.validParams (request : ExecStatement) : List DataRow :=
  request.stmtParam.params.filter fun param ↦ (param.length : ℤ) = request.stmtParam.paramCols.toInt

/-- The variables of `execStatement` at the label `exit`. -/
structure StmtRun where
  rc : Int32
  loopCompleted : Bool := false
  hasStmt : Bool := true
  conn : MysqlConn
  calls : List StmtCall
  results : DataTables
  fieldsType : FieldsType

/-- What `execStatement` returns, and what it leaves. -/
structure StmtOutcome where
  rc : Int32
  conn : MysqlConn
  calls : List StmtCall
  results : DataTables
  fieldsType : FieldsType
  deriving DecidableEq, Repr

/-- What stands behind the label `exit`. -/
def exitPath (driver : StmtDriver) (transaction : Bool) (run : StmtRun) : StmtOutcome :=
  let calls := run.calls ++ if run.hasStmt then [.close] else []
  let cleared := !run.loopCompleted || run.rc ≠ 0
  let results := if cleared then [] else run.results
  let fieldsType := if cleared then [] else run.fieldsType
  if transaction && run.rc ≠ -2 then
    let committed := run.loopCompleted && run.rc = 0
    let ended := if committed then driver.commit else driver.rollback
    let ending : StmtCall := if committed then .commit ended.rc else .rollback ended.rc
    { rc := if run.rc = 0 then ended.rc else run.rc
      conn := run.conn.afterQuery ended, calls := calls ++ [ending], results, fieldsType }
  else { rc := run.rc, conn := run.conn, calls, results, fieldsType }

/-- The body of `execStatement` after the transaction was started, up to the label `exit`. -/
def stmtBody (driver : StmtDriver) (request : ExecStatement) (opening : List StmtCall)
    (conn : MysqlConn) (results : DataTables) (fieldsType : FieldsType) : StmtRun :=
  let prepared := opening ++
    [.stmtInit true, .prepare (cStr (request.sql.getD [])) driver.prepare.rc]
  if !driver.stmtInit then
    { rc := -3, hasStmt := false, conn, calls := opening ++ [.stmtInit false], results, fieldsType }
  else if driver.prepare.rc ≠ 0 then
    { rc := -4, conn := conn.afterQuery driver.prepare, calls := prepared, results, fieldsType }
  else if request.validParams.isEmpty then
    { rc := -11, conn, calls := prepared, results, fieldsType }
  else
    let rows := execRows driver request 0 [] conn request.validParams
    { rc := rows.rc, loopCompleted := rows.rc = 0, conn := rows.conn
      calls := prepared ++ rows.calls, results := results ++ rows.tables
      fieldsType := rows.fieldsType }

/-- `execStatement`. -/
def execStatement (driver : StmtDriver) (conn : MysqlConn) (request : ExecStatement)
    (results : DataTables) (fieldsType : FieldsType) : StmtOutcome :=
  if isEmptyString request.sql then { rc := -1, conn, calls := [], results, fieldsType }
  else if !conn.hasClient then { rc := -1, conn, calls := [], results, fieldsType }
  else if request.transaction then
    let opening : List StmtCall := [.start driver.start.rc]
    if driver.start.rc ≠ 0 then
      exitPath driver true
        { rc := -2, hasStmt := false, conn := conn.afterQuery driver.start, calls := opening
          results, fieldsType }
    else exitPath driver true (stmtBody driver request opening conn results fieldsType)
  else exitPath driver false (stmtBody driver request [] conn results fieldsType)

/-! ### Rows that succeed -/

/-- No fetch reports an error before one reports the end of the data. -/
def RowReport.Fetched (report : RowReport) : Prop :=
  ∀ n < report.rowCount, (∀ k < n, (report.fetch k).rc ≠ mysqlNoData) → (report.fetch n).rc ≠ 1

/-- The columns of the result are bound, and it is stored and fetched without an error. -/
structure RowReport.ResultSucceeds (report : RowReport) (columns : List MysqlField)
    (resultCols : Int32) : Prop where
  metadata : report.metadata = true
  columns_eq : (columns.length : ℤ) = resultCols.toInt
  bindResult : report.bindResult = 0
  storeResult : report.storeResult = 0
  fetched : report.Fetched

/-- A row is bound and executed without an error, and so is its result if there is to be one. -/
structure RowReport.Succeeds (report : RowReport) (columns : List MysqlField)
    (resultCols : Int32) : Prop where
  bindParam : report.bindParam = 0
  execute : report.execute.rc = 0
  result : 0 < resultCols → report.ResultSucceeds columns resultCols

/-- The rows from one on that are fetched before the end of the data. -/
def RowReport.rowsFrom (report : RowReport) (sizes : List ℕ) (n left : ℕ) : DataTable :=
  ((List.range' n left).takeWhile fun k ↦ (report.fetch k).rc ≠ mysqlNoData).map fun k ↦
    (report.fetch k).row sizes

/-- The table of a row of the parameter table. -/
def RowReport.table (report : RowReport) (driver : StmtDriver) (request : ExecStatement) :
    DataTable := report.rowsFrom (resultSizes driver request) 0 report.rowCount

/-- The row that a call executes the statement with. -/
def StmtCall.executed : StmtCall → Option DataRow
  | .execute param _ => some param
  | _ => none

/-- The rows that the statement is executed with. -/
def executedRows (calls : List StmtCall) : List DataRow := calls.filterMap StmtCall.executed

/-- A call that ends the transaction. -/
def StmtCall.IsEnding : StmtCall → Prop
  | .commit _ => True
  | .rollback _ => True
  | _ => False

/-- The calls for a row, and what they bind. -/
def StmtCall.InRow (driver : StmtDriver) (request : ExecStatement) : StmtCall → Prop
  | .reset => True
  | .bindParam bindIn _ => bindIn.length = request.stmtParam.paramCols.toInt.toNat
  | .resultMetadata _ => True
  | .bindResult bindOut _ => bindOut.length = driver.columns.length
  | .execute _ _ => True
  | .storeResult _ => True
  | .fetch _ => True
  | _ => False

variable {driver : StmtDriver} {request : ExecStatement} {report : RowReport}
  {fieldsType : FieldsType} {conn : MysqlConn} {param : DataRow}

theorem executedRows_append (first second : List StmtCall) :
    executedRows (first ++ second) = executedRows first ++ executedRows second :=
  List.filterMap_append

theorem StmtCall.InRow.not_isEnding {call : StmtCall} (hcall : call.InRow driver request) :
    ¬ call.IsEnding := by
  cases call
  case commit => exact fun _ ↦ hcall
  case rollback => exact fun _ ↦ hcall
  all_goals exact id

/-! ### Fetching -/

theorem mem_fetchRows {sizes : List ℕ} {left n : ℕ} {call : StmtCall}
    (hcall : call ∈ (fetchRows report sizes left n).1) : ∃ rc, call = .fetch rc := by
  induction left generalizing n with
  | zero => cases hcall
  | succ left ih =>
    simp only [fetchRows] at hcall
    split_ifs at hcall
    · exact ⟨_, List.mem_singleton.mp hcall⟩
    · exact ⟨_, List.mem_singleton.mp hcall⟩
    · rcases List.mem_cons.mp hcall with rfl | hrest
      · exact ⟨_, rfl⟩
      · exact ih hrest

theorem executedRows_fetchRows (sizes : List ℕ) (left n : ℕ) :
    executedRows (fetchRows report sizes left n).1 = [] := by
  refine List.filterMap_eq_nil_iff.mpr fun call hcall ↦ ?_
  obtain ⟨rc, rfl⟩ := mem_fetchRows hcall
  rfl

/-- The loop of fetches adds no table exactly if a fetch before the end of the data reports an
error. -/
theorem fetchRows_isSome_iff (report : RowReport) (sizes : List ℕ) (left n : ℕ) :
    (fetchRows report sizes left n).2.isSome = true ↔
      ∀ k, n ≤ k → k < n + left → (∀ j, n ≤ j → j < k → (report.fetch j).rc ≠ mysqlNoData) →
        (report.fetch k).rc ≠ 1 := by
  induction left generalizing n with
  | zero => exact iff_of_true rfl fun k hle hlt ↦ absurd hlt (by omega)
  | succ left ih =>
    simp only [fetchRows]
    split_ifs with herror hend
    · refine iff_of_false Bool.false_ne_true fun hall ↦ ?_
      exact hall n le_rfl (by omega) (fun j hle hlt ↦ absurd hlt (by omega)) herror
    · refine iff_of_true rfl fun k hle _ hbefore ↦ ?_
      rcases hle.eq_or_lt with rfl | hlt
      · exact herror
      · exact absurd hend (hbefore n le_rfl hlt)
    · rw [Option.isSome_map, ih (n + 1)]
      constructor
      · intro hall k hle hlt hbefore
        rcases hle.eq_or_lt with rfl | hafter
        · exact herror
        · exact hall k hafter (by omega) fun j hj ↦ hbefore j (by omega)
      · intro hall k hle hlt hbefore
        refine hall k (by omega) (by omega) fun j hj hlt' ↦ ?_
        rcases hj.eq_or_lt with rfl | hafter
        · exact hend
        · exact hbefore j hafter hlt'

theorem fetchRows_eq_some {sizes : List ℕ} {left n : ℕ} {table : DataTable}
    (htable : (fetchRows report sizes left n).2 = some table) :
    table = report.rowsFrom sizes n left := by
  induction left generalizing n table with
  | zero => exact (Option.some.inj htable).symm
  | succ left ih =>
    simp only [fetchRows] at htable
    split_ifs at htable with _ hend
    · rw [← Option.some.inj htable, RowReport.rowsFrom, List.range'_succ,
        List.takeWhile_cons_of_neg (by simp [hend])]
      rfl
    · obtain ⟨rest, hrest, rfl⟩ := Option.map_eq_some_iff.mp htable
      rw [ih hrest, RowReport.rowsFrom, RowReport.rowsFrom, List.range'_succ,
        List.takeWhile_cons_of_pos (by simp [hend]), List.map_cons]

/-- What fetching the result of a row comes to. -/
theorem fetchRows_spec (driver : StmtDriver) (request : ExecStatement) (report : RowReport)
    {fetches : List StmtCall} {fetched : Option DataTable}
    (heq : fetchRows report (resultSizes driver request) report.rowCount 0 = (fetches, fetched)) :
    (∀ call ∈ fetches, ∃ rc, call = .fetch rc) ∧ executedRows fetches = [] ∧
      (fetched.isSome = true ↔ report.Fetched) ∧
      ∀ table, fetched = some table → table = report.table driver request := by
  have hfetches : (fetchRows report (resultSizes driver request) report.rowCount 0).1 = fetches :=
    congrArg Prod.fst heq
  have hfetched : (fetchRows report (resultSizes driver request) report.rowCount 0).2 = fetched :=
    congrArg Prod.snd heq
  have hsome := fetchRows_isSome_iff report (resultSizes driver request) report.rowCount 0
  simp only [Nat.zero_le, Nat.zero_add, true_implies] at hsome
  refine ⟨fun call hcall ↦ ?_, ?_, ?_, fun table htable ↦ ?_⟩
  · rw [← hfetches] at hcall
    exact mem_fetchRows hcall
  · rw [← hfetches]
    exact executedRows_fetchRows _ _ _
  · rw [← hfetched]
    exact hsome
  · rw [← hfetched] at htable
    exact fetchRows_eq_some htable

/-! ### Binding the result -/

theorem length_bindIn (paramCols : Int32) (param : DataRow) :
    (bindIn paramCols param).length = paramCols.toInt.toNat := by
  rw [bindIn, List.length_map, List.length_range]

theorem length_bindOut (driver : StmtDriver) (simple : Bool) (resultCols : Int32) :
    (bindOut driver simple resultCols).length = resultCols.toInt.toNat := by
  rw [bindOut, List.length_map, boundFields, List.length_map, List.length_range]

theorem bindStmtOut_rc_eq_zero_iff (driver : StmtDriver) (report : RowReport) (simple : Bool)
    (resultCols : Int32) (fieldsType : FieldsType) :
    (bindStmtOut driver report simple resultCols fieldsType).rc = 0 ↔
      report.metadata = true ∧ (driver.columns.length : ℤ) = resultCols.toInt ∧
        report.bindResult = 0 := by
  unfold bindStmtOut
  cases hmetadata : report.metadata with
  | false => simp
  | true =>
    by_cases hcolumns : (driver.columns.length : ℤ) = resultCols.toInt
    · simp [hcolumns]
    · simp [hcolumns]

theorem mem_bindStmtOut {simple : Bool} {fieldsType : FieldsType} {call : StmtCall}
    (hcall : call ∈ (bindStmtOut driver report simple request.stmtParam.resultCols
      fieldsType).calls) : call.InRow driver request ∧ call.executed = none := by
  unfold bindStmtOut at hcall
  split_ifs at hcall with hmetadata hcolumns
  · rw [List.mem_singleton.mp hcall]
    exact ⟨trivial, rfl⟩
  · rw [List.mem_singleton.mp hcall]
    exact ⟨trivial, rfl⟩
  all_goals
    rcases List.mem_cons.mp hcall with rfl | hcall
    · exact ⟨trivial, rfl⟩
    · rw [List.mem_singleton.mp hcall]
      refine ⟨?_, rfl⟩
      have heq : (driver.columns.length : ℤ) = request.stmtParam.resultCols.toInt :=
        not_not.mp hcolumns
      have hlength := length_bindOut driver simple request.stmtParam.resultCols
      exact hlength.trans (by omega)

/-! ### What a row comes to -/

/-- What is known of a row, or of the loop over the rows: its code, its calls, the rows that were
executed, and its tables. -/
structure RowSpec (driver : StmtDriver) (request : ExecStatement) (report : RowReport)
    (fieldsType : FieldsType) (param : DataRow) (row : RowOutcome) : Prop where
  rc_eq_zero_iff : row.rc = 0 ↔ report.Succeeds driver.columns request.stmtParam.resultCols
  rc_ne : row.rc ≠ -2
  inRow : ∀ call ∈ row.calls, call.InRow driver request
  bindParam_mem : ∃ bindIn rc, .bindParam bindIn rc ∈ row.calls
  executed : executedRows row.calls = [] ∨ executedRows row.calls = [param]
  executed_of_zero : row.rc = 0 → executedRows row.calls = [param]
  tables_of_zero : row.rc = 0 → row.tables =
    if 0 < request.stmtParam.resultCols then [report.table driver request] else []
  fieldsType_eq : ¬ 0 < request.stmtParam.resultCols → row.fieldsType = fieldsType

theorem executedRows_of_none {calls : List StmtCall}
    (hcalls : ∀ call ∈ calls, call.executed = none) : executedRows calls = [] :=
  List.filterMap_eq_nil_iff.mpr hcalls

/-- The calls that bind a row. -/
def boundCalls (request : ExecStatement) (report : RowReport) (param : DataRow) : List StmtCall :=
  [.reset, .bindParam (bindIn request.stmtParam.paramCols param) report.bindParam]

/-- Calls of the row that execute nothing, in front of other calls of the row. -/
theorem inRow_append {first : List StmtCall} (second : List StmtCall)
    (hfirst : ∀ call ∈ first, call.InRow driver request ∧ call.executed = none)
    (hsecond : ∀ call ∈ second, call.InRow driver request) :
    (∀ call ∈ first ++ second, call.InRow driver request) ∧
      executedRows (first ++ second) = executedRows second := by
  constructor
  · intro call hcall
    rcases List.mem_append.mp hcall with hcall | hcall
    · exact (hfirst call hcall).1
    · exact hsecond call hcall
  · rw [executedRows_append, executedRows_of_none fun call hcall ↦ (hfirst call hcall).2,
      List.nil_append]

section Exits

variable {row : RowOutcome} {rest : List StmtCall}

/-- Calls of the row after those that bind it are calls of the row, and execute what they do. -/
theorem boundCalls_append (report : RowReport) (param : DataRow)
    (hrest : ∀ call ∈ rest, call.InRow driver request) :
    (∀ call ∈ boundCalls request report param ++ rest, call.InRow driver request) ∧
      (∃ bindIn rc, .bindParam bindIn rc ∈ boundCalls request report param ++ rest) ∧
      executedRows (boundCalls request report param ++ rest) = executedRows rest := by
  refine ⟨fun call hcall ↦ ?_, ⟨_, _, List.mem_append_left _ (List.mem_cons_of_mem _
    List.mem_cons_self)⟩, ?_⟩
  · rcases List.mem_append.mp hcall with hcall | hcall
    · rcases List.mem_cons.mp hcall with rfl | hcall
      · trivial
      · rw [List.mem_singleton.mp hcall]
        exact length_bindIn _ _
    · exact hrest call hcall
  · rw [executedRows_append]
    rfl

/-- Assumes: a code that is not zero, and a report with an error. -/
theorem RowSpec.of_failed (hcalls : row.calls = boundCalls request report param ++ rest)
    (hrest : ∀ call ∈ rest, call.InRow driver request)
    (hexecuted : executedRows rest = [] ∨ executedRows rest = [param]) (hrc : row.rc ≠ 0)
    (hne : row.rc ≠ -2)
    (hfails : ¬ report.Succeeds driver.columns request.stmtParam.resultCols)
    (hfields : ¬ 0 < request.stmtParam.resultCols → row.fieldsType = fieldsType) :
    RowSpec driver request report fieldsType param row := by
  obtain ⟨hinRow, hmem, hrows⟩ := boundCalls_append report param hrest
  rw [← hcalls] at hinRow hmem hrows
  exact ⟨iff_of_false hrc hfails, hne, hinRow, hmem, hrows ▸ hexecuted,
    fun hzero ↦ absurd hzero hrc, fun hzero ↦ absurd hzero hrc, hfields⟩

/-- Assumes: code zero, a report without an error, and an execution with the row. -/
theorem RowSpec.of_succeeded (hcalls : row.calls = boundCalls request report param ++ rest)
    (hrest : ∀ call ∈ rest, call.InRow driver request) (hexecuted : executedRows rest = [param])
    (hrc : row.rc = 0)
    (hsucceeds : report.Succeeds driver.columns request.stmtParam.resultCols)
    (htables : row.tables =
      if 0 < request.stmtParam.resultCols then [report.table driver request] else [])
    (hfields : ¬ 0 < request.stmtParam.resultCols → row.fieldsType = fieldsType) :
    RowSpec driver request report fieldsType param row := by
  obtain ⟨hinRow, hmem, hrows⟩ := boundCalls_append report param hrest
  rw [← hcalls] at hinRow hmem hrows
  have hne : row.rc ≠ -2 := by
    rw [hrc]
    decide
  exact ⟨iff_of_true hrc hsucceeds, hne, hinRow, hmem, Or.inr (hrows.trans hexecuted),
    fun _ ↦ hrows.trans hexecuted, fun _ ↦ htables, hfields⟩

end Exits

/-- The calls from the execution of a row on. -/
theorem inRow_sent (driver : StmtDriver) (request : ExecStatement) (report : RowReport)
    (param : DataRow) {fetches : List StmtCall}
    (hfetches : ∀ call ∈ fetches, ∃ rc, call = .fetch rc) :
    ∀ call ∈ StmtCall.execute param report.execute.rc ::
      .storeResult report.storeResult :: fetches, call.InRow driver request := by
  intro call hcall
  rcases List.mem_cons.mp hcall with rfl | hcall
  · exact trivial
  rcases List.mem_cons.mp hcall with rfl | hcall
  · trivial
  · obtain ⟨rc, rfl⟩ := hfetches call hcall
    trivial

/-- A row with a result: its columns are bound before it is executed, and the result is stored and
fetched after it. -/
theorem execRow_result_spec (driver : StmtDriver) (request : ExecStatement) (report : RowReport)
    (fieldsType : FieldsType) (conn : MysqlConn) (param : DataRow) (hbind : report.bindParam = 0)
    (hresult : 0 < request.stmtParam.resultCols) :
    RowSpec driver request report fieldsType param
      (execRow driver request report fieldsType conn param) := by
  unfold execRow
  rw [if_neg (not_not.mpr hbind), if_pos hresult]
  -- what binding the result came to is all that matters of it
  have hout := bindStmtOut_rc_eq_zero_iff driver report request.bindOutSimple
    request.stmtParam.resultCols fieldsType
  have hquiet : ∀ call ∈ (bindStmtOut driver report request.bindOutSimple
      request.stmtParam.resultCols fieldsType).calls,
      call.InRow driver request ∧ call.executed = none := fun _ hcall ↦ mem_bindStmtOut hcall
  generalize bindStmtOut driver report request.bindOutSimple request.stmtParam.resultCols
    fieldsType = out at hout hquiet ⊢
  have hnofields : ∀ types : FieldsType,
      ¬ 0 < request.stmtParam.resultCols → types = fieldsType := fun _ hnot ↦ absurd hresult hnot
  by_cases hbound : out.rc = 0
  swap
  · rw [if_pos hbound]
    refine RowSpec.of_failed rfl (fun call hcall ↦ (hquiet call hcall).1)
      (Or.inl (executedRows_of_none fun call hcall ↦ (hquiet call hcall).2))
      (by decide : (-6 : Int32) ≠ 0) (by decide : (-6 : Int32) ≠ -2) (fun hsucceeds ↦ ?_)
      (hnofields _)
    have hcolumns := hsucceeds.result hresult
    exact hbound (hout.mpr ⟨hcolumns.metadata, hcolumns.columns_eq, hcolumns.bindResult⟩)
  obtain ⟨hmetadata, hcolumns, hbindResult⟩ := hout.mp hbound
  rw [if_neg (not_not.mpr hbound)]
  by_cases hexecute : report.execute.rc = 0
  swap
  · rw [if_pos hexecute]
    obtain ⟨hrest, hrows⟩ := inRow_append [.execute param report.execute.rc] hquiet
      fun call hcall ↦ by rw [List.mem_singleton.mp hcall]; exact trivial
    exact RowSpec.of_failed (List.append_assoc _ _ _) hrest (Or.inr hrows)
      (by decide : (-7 : Int32) ≠ 0) (by decide : (-7 : Int32) ≠ -2)
      (fun hsucceeds ↦ hexecute hsucceeds.execute) (hnofields _)
  rw [if_neg (not_not.mpr hexecute)]
  by_cases hstore : report.storeResult = 0
  swap
  · rw [if_pos hstore]
    obtain ⟨hrest, hrows⟩ := inRow_append _ hquiet
      (inRow_sent driver request report param fun _ hcall ↦ absurd hcall List.not_mem_nil)
    exact RowSpec.of_failed (List.append_assoc _ _ _) hrest (Or.inr hrows)
      (by decide : (-8 : Int32) ≠ 0) (by decide : (-8 : Int32) ≠ -2)
      (fun hsucceeds ↦ hstore (hsucceeds.result hresult).storeResult) (hnofields _)
  rw [if_neg (not_not.mpr hstore)]
  -- the fetches
  obtain ⟨⟨fetches, fetched⟩, heq⟩ :
      ∃ pair, fetchRows report (resultSizes driver request) report.rowCount 0 = pair := ⟨_, rfl⟩
  obtain ⟨hfetches, hnone, hsome, htable⟩ := fetchRows_spec driver request report heq
  obtain ⟨hrest, hrows⟩ := inRow_append _ hquiet (inRow_sent driver request report param hfetches)
  have hone : executedRows (StmtCall.execute param report.execute.rc ::
      .storeResult report.storeResult :: fetches) = [param] := congrArg (param :: ·) hnone
  have hcalls : boundCalls request report param ++ out.calls ++
      [.execute param report.execute.rc, .storeResult report.storeResult] ++ fetches =
      boundCalls request report param ++ (out.calls ++ .execute param report.execute.rc ::
        .storeResult report.storeResult :: fetches) := by
    rw [List.append_assoc, List.append_assoc]
    rfl
  rw [heq]
  cases fetched with
  | none =>
    exact RowSpec.of_failed hcalls hrest (Or.inr (hrows.trans hone))
      (by decide : (-9 : Int32) ≠ 0) (by decide : (-9 : Int32) ≠ -2)
      (fun hsucceeds ↦ absurd (hsome.mpr (hsucceeds.result hresult).fetched) Bool.false_ne_true)
      (hnofields _)
  | some result =>
    refine RowSpec.of_succeeded hcalls hrest (hrows.trans hone) rfl
      ⟨hbind, hexecute, fun _ ↦ ⟨hmetadata, hcolumns, hbindResult, hstore, hsome.mp rfl⟩⟩ ?_
      (hnofields _)
    rw [if_pos hresult, ← htable result rfl]

theorem execRow_spec (driver : StmtDriver) (request : ExecStatement) (report : RowReport)
    (fieldsType : FieldsType) (conn : MysqlConn) (param : DataRow) :
    RowSpec driver request report fieldsType param
      (execRow driver request report fieldsType conn param) := by
  by_cases hbind : report.bindParam = 0
  swap
  · rw [execRow, if_pos hbind]
    exact RowSpec.of_failed (List.append_nil _).symm (fun _ hcall ↦ absurd hcall List.not_mem_nil)
      (Or.inl rfl) (by decide : (-5 : Int32) ≠ 0) (by decide : (-5 : Int32) ≠ -2)
      (fun hsucceeds ↦ hbind hsucceeds.bindParam) fun _ ↦ rfl
  by_cases hresult : 0 < request.stmtParam.resultCols
  · exact execRow_result_spec driver request report fieldsType conn param hbind hresult
  -- without a result the row is only executed
  rw [execRow, if_neg (not_not.mpr hbind), if_neg hresult]
  by_cases hexecute : report.execute.rc = 0
  · rw [if_neg (not_not.mpr hexecute)]
    refine RowSpec.of_succeeded rfl (fun call hcall ↦ ?_) rfl rfl
      ⟨hbind, hexecute, fun hpos ↦ absurd hpos hresult⟩ (if_neg hresult).symm fun _ ↦ rfl
    rw [List.mem_singleton.mp hcall]
    trivial
  · rw [if_pos hexecute]
    refine RowSpec.of_failed rfl (fun call hcall ↦ ?_) (Or.inr rfl)
      (by decide : (-10 : Int32) ≠ 0) (by decide : (-10 : Int32) ≠ -2)
      (fun hsucceeds ↦ hexecute hsucceeds.execute) fun _ ↦ rfl
    rw [List.mem_singleton.mp hcall]
    trivial

/-! ### What the loop comes to -/

/-- What is known of the loop over rows, of which the first has the position `m`. -/
structure LoopSpec (driver : StmtDriver) (request : ExecStatement) (m : ℕ) (fieldsType : FieldsType)
    (params : List DataRow) (rows : RowOutcome) : Prop where
  rc_eq_zero_iff : rows.rc = 0 ↔
    ∀ k < params.length, (driver.row (m + k)).Succeeds driver.columns request.stmtParam.resultCols
  rc_ne : rows.rc ≠ -2
  inRow : ∀ call ∈ rows.calls, call.InRow driver request
  bindParam_mem : params ≠ [] → ∃ bindIn rc, .bindParam bindIn rc ∈ rows.calls
  executed : ∃ count ≤ params.length, executedRows rows.calls = params.take count ∧
    (∀ k, k + 1 < count →
      (driver.row (m + k)).Succeeds driver.columns request.stmtParam.resultCols) ∧
    (rows.rc = 0 → count = params.length)
  tables_of_zero : rows.rc = 0 → rows.tables =
    if 0 < request.stmtParam.resultCols then
      (List.range params.length).map fun k ↦ (driver.row (m + k)).table driver request
    else []
  fieldsType_eq : ¬ 0 < request.stmtParam.resultCols → rows.fieldsType = fieldsType

/-- The loop goes through the rows in order and stops at the first that fails. -/
theorem execRows_spec (driver : StmtDriver) (request : ExecStatement) (m : ℕ)
    (fieldsType : FieldsType) (conn : MysqlConn) (params : List DataRow) :
    LoopSpec driver request m fieldsType params
      (execRows driver request m fieldsType conn params) := by
  induction params generalizing m fieldsType conn with
  | nil =>
    exact ⟨iff_of_true rfl fun k hlt ↦ absurd hlt (Nat.not_lt_zero k),
      (by decide : (0 : Int32) ≠ -2),
      fun _ hcall ↦ absurd hcall List.not_mem_nil, fun hne ↦ absurd rfl hne,
      ⟨0, le_rfl, rfl, fun k hlt ↦ absurd hlt (Nat.not_lt_zero _), fun _ ↦ rfl⟩,
      fun _ ↦ (ite_self _).symm, fun _ ↦ rfl⟩
  | cons param params ih =>
    have hrow := execRow_spec driver request (driver.row m) fieldsType conn param
    rw [execRows]
    generalize execRow driver request (driver.row m) fieldsType conn param = row at hrow ⊢
    have hsucceeds : (driver.row (m + 0)).Succeeds driver.columns request.stmtParam.resultCols ↔
        row.rc = 0 := hrow.rc_eq_zero_iff.symm
    by_cases hzero : row.rc = 0
    swap
    · -- the loop is left at this row
      rw [if_pos hzero]
      refine ⟨iff_of_false hzero fun hall ↦ ?_, hrow.rc_ne, hrow.inRow, fun _ ↦ hrow.bindParam_mem,
        ?_, fun h ↦ absurd h hzero, hrow.fieldsType_eq⟩
      · exact hzero (hsucceeds.mp (hall 0 (Nat.succ_pos _)))
      · rcases hrow.executed with hnone | hone
        · exact ⟨0, Nat.zero_le _, hnone, fun k hlt ↦ absurd hlt (Nat.not_lt_zero _),
            fun h ↦ absurd h hzero⟩
        · refine ⟨1, Nat.succ_pos _, hone, fun k hlt ↦ ?_, fun h ↦ absurd h hzero⟩
          omega
    rw [if_neg (not_not.mpr hzero)]
    have hrest := ih (m + 1) row.fieldsType row.conn
    generalize execRows driver request (m + 1) row.fieldsType row.conn params = rest at hrest ⊢
    have hshift : ∀ k, m + 1 + k = m + (k + 1) := fun k ↦ by omega
    obtain ⟨count, hcount, hrows, hbefore, hall⟩ := hrest.executed
    refine ⟨?_, hrest.rc_ne, fun call hcall ↦ ?_, fun _ ↦ ?_, ⟨count + 1, ?_, ?_, ?_, ?_⟩, ?_, ?_⟩
    · rw [hrest.rc_eq_zero_iff]
      constructor
      · intro h k hlt
        cases k with
        | zero => exact hsucceeds.mpr hzero
        | succ k => exact hshift k ▸ h k (Nat.succ_lt_succ_iff.mp hlt)
      · intro h k hlt
        exact (hshift k).symm ▸ h (k + 1) (Nat.succ_lt_succ hlt)
    · rcases List.mem_append.mp hcall with hcall | hcall
      · exact hrow.inRow call hcall
      · exact hrest.inRow call hcall
    · obtain ⟨bindIn, rc, hmem⟩ := hrow.bindParam_mem
      exact ⟨bindIn, rc, List.mem_append_left _ hmem⟩
    · exact Nat.succ_le_succ hcount
    · rw [executedRows_append, hrow.executed_of_zero hzero, hrows, List.take_succ_cons]
      rfl
    · intro k hlt
      cases k with
      | zero => exact hsucceeds.mpr hzero
      | succ k => exact hshift k ▸ hbefore k (Nat.lt_of_succ_lt_succ hlt)
    · exact fun h ↦ congrArg Nat.succ (hall h)
    · intro h
      have htables : row.tables ++ rest.tables = _ :=
        congrArg₂ (· ++ ·) (hrow.tables_of_zero hzero) (hrest.tables_of_zero h)
      refine htables.trans ?_
      split_ifs
      · rw [List.length_cons, List.range_succ_eq_map, List.map_cons, List.map_map]
        refine congrArg (_ :: ·) (List.map_congr_left fun k _ ↦ ?_)
        rw [hshift k]
        rfl
      · rfl
    · exact fun hnot ↦ (hrest.fieldsType_eq hnot).trans (hrow.fieldsType_eq hnot)

end TszyUlt.Wjp
