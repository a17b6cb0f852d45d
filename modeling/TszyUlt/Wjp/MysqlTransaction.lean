import TszyUlt.Wjp.MysqlStatement

/-!
# The exits of a prepared statement

What `mysql_client::execStatement` promises of its eleven exits. `stmtBody_spec` says what the body
comes to when it reaches the label `exit`: it completes its loop exactly if the statement is
prepared, there is a row of the right width, and every such row succeeds (`AllSucceed`).
`execStatement_cases` are the three ways through the function: the request is turned down at once
(`Refused`), the transaction cannot be started, or the body runs and `exitPath` follows.

`disciplined_execStatement` is about transactions: one ending, which is a commit exactly if every
row was executed without an error. A request that is turned down sends nothing at all.

`noData_iff` is about failures: `exitPath` clears the results before the commit is sent, so a commit
that fails leaves them. `bindsMatch_iff` is about the arrays that are bound: `bind_out` is compared
with the prepared statement, and `bind_in` is not.
-/

set_option autoImplicit false
set_option relaxedAutoImplicit false

namespace TszyUlt.Wjp

open Lib Zbf Fszm Lygc

/-! ### The body -/

/-- The request is turned down before anything is sent. -/
def ExecStatement.Refused (request : ExecStatement) (conn : MysqlConn) : Prop :=
  isEmptyString request.sql = true ∨ conn.hasClient = false

/-- The statement is prepared. -/
structure StmtDriver.Prepared (driver : StmtDriver) : Prop where
  stmtInit : driver.stmtInit = true
  prepare : driver.prepare.rc = 0

/-- The statement is prepared, there are rows of the right width, and all of them succeed. -/
structure ExecStatement.AllSucceed (request : ExecStatement) (driver : StmtDriver) : Prop where
  prepared : driver.Prepared
  validParams_ne : request.validParams ≠ []
  rows : ∀ m < request.validParams.length,
    (driver.row m).Succeeds driver.columns request.stmtParam.resultCols

/-- The tables of all rows. -/
def ExecStatement.tables (request : ExecStatement) (driver : StmtDriver) : DataTables :=
  (List.range request.validParams.length).map fun m ↦ (driver.row m).table driver request

/-- What is known of the body at the label `exit`, with the calls it made. -/
structure BodySpec (driver : StmtDriver) (request : ExecStatement) (opening : List StmtCall)
    (results : DataTables) (run : StmtRun) (made : List StmtCall) : Prop where
  calls_eq : run.calls = opening ++ made
  completed_iff : run.loopCompleted = true ↔ request.AllSucceed driver
  rc_eq_zero_iff : run.rc = 0 ↔ run.loopCompleted = true
  rc_ne : run.rc ≠ -2
  not_isEnding : ∀ call ∈ made, ¬ call.IsEnding
  executed : ∃ count ≤ request.validParams.length,
    executedRows made = request.validParams.take count ∧
      (∀ m, m + 1 < count →
        (driver.row m).Succeeds driver.columns request.stmtParam.resultCols) ∧
      (run.loopCompleted = true → count = request.validParams.length)
  prepared_of_executed : executedRows made ≠ [] → driver.Prepared
  results_eq : run.loopCompleted = true → run.results = results ++
    if 0 < request.stmtParam.resultCols then request.tables driver else []
  fieldsType_eq : run.loopCompleted = true → ¬ 0 < request.stmtParam.resultCols →
    run.fieldsType = []
  bindParam : ∀ bindIn rc, .bindParam bindIn rc ∈ made →
    driver.Prepared ∧ request.validParams ≠ [] ∧
      bindIn.length = request.stmtParam.paramCols.toInt.toNat
  bindParam_mem : driver.Prepared → request.validParams ≠ [] →
    ∃ bindIn rc, .bindParam bindIn rc ∈ made
  bindResult : ∀ bindOut rc, .bindResult bindOut rc ∈ made →
    bindOut.length = driver.columns.length

variable {driver : StmtDriver} {request : ExecStatement} {opening : List StmtCall}
  {conn : MysqlConn} {results : DataTables} {fieldsType : FieldsType}

/-- Assumes: the body jumps to `exit` before the loop. -/
theorem BodySpec.of_jumped {run : StmtRun} {made : List StmtCall}
    (hcalls : run.calls = opening ++ made)
    (hmade : ∀ call ∈ made, call.executed = none ∧ ¬ call.IsEnding ∧
      (∀ bindIn rc, call ≠ .bindParam bindIn rc) ∧ ∀ bindOut rc, call ≠ .bindResult bindOut rc)
    (hcompleted : run.loopCompleted = false) (hrc : run.rc ≠ 0) (hne : run.rc ≠ -2)
    (hfails : ¬ (driver.Prepared ∧ request.validParams ≠ [])) :
    BodySpec driver request opening results run made := by
  have hnot : ¬ run.loopCompleted = true := by
    rw [hcompleted]
    exact Bool.false_ne_true
  have hnone : executedRows made = [] :=
    executedRows_of_none fun call hcall ↦ (hmade call hcall).1
  exact {
    calls_eq := hcalls
    completed_iff := iff_of_false hnot fun hall ↦ hfails ⟨hall.prepared, hall.validParams_ne⟩
    rc_eq_zero_iff := iff_of_false hrc hnot
    rc_ne := hne
    not_isEnding := fun call hcall ↦ (hmade call hcall).2.1
    executed := ⟨0, Nat.zero_le _, hnone, fun m hlt ↦ absurd hlt (Nat.not_lt_zero _),
      fun h ↦ absurd h hnot⟩
    prepared_of_executed := fun hne ↦ absurd hnone hne
    results_eq := fun h ↦ absurd h hnot
    fieldsType_eq := fun h ↦ absurd h hnot
    bindParam := fun bindIn rc hcall ↦ absurd rfl ((hmade _ hcall).2.2.1 bindIn rc)
    bindParam_mem := fun hprepared hne ↦ absurd ⟨hprepared, hne⟩ hfails
    bindResult := fun bindOut rc hcall ↦ absurd rfl ((hmade _ hcall).2.2.2 bindOut rc) }

theorem stmtBody_spec (driver : StmtDriver) (request : ExecStatement) (opening : List StmtCall)
    (conn : MysqlConn) (results : DataTables) (fieldsType : FieldsType) :
    ∃ made, BodySpec driver request opening results
      (stmtBody driver request opening conn results fieldsType) made := by
  have hprepares : ∀ call ∈ [StmtCall.stmtInit true,
      .prepare (cStr (request.sql.getD [])) driver.prepare.rc], call.executed = none ∧
      ¬ call.IsEnding ∧ (∀ bindIn rc, call ≠ .bindParam bindIn rc) ∧
      ∀ bindOut rc, call ≠ .bindResult bindOut rc := by
    intro call hcall
    rcases List.mem_cons.mp hcall with rfl | hcall
    · exact ⟨rfl, id, fun _ _ heq ↦ (by cases heq), fun _ _ heq ↦ (by cases heq)⟩
    · rw [List.mem_singleton.mp hcall]
      exact ⟨rfl, id, fun _ _ heq ↦ (by cases heq), fun _ _ heq ↦ (by cases heq)⟩
  by_cases hinit : driver.stmtInit = true
  swap
  · refine ⟨[.stmtInit false], ?_⟩
    rw [stmtBody, Bool.eq_false_of_not_eq_true hinit]
    refine BodySpec.of_jumped rfl (fun call hcall ↦ ?_) rfl (by decide : (-3 : Int32) ≠ 0)
      (by decide : (-3 : Int32) ≠ -2) fun hboth ↦ hinit hboth.1.stmtInit
    rw [List.mem_singleton.mp hcall]
    exact ⟨rfl, id, fun _ _ heq ↦ (by cases heq), fun _ _ heq ↦ (by cases heq)⟩
  simp only [stmtBody, hinit, Bool.not_true, Bool.false_eq_true, if_false]
  by_cases hprepare : driver.prepare.rc = 0
  swap
  · rw [if_pos hprepare]
    exact ⟨_, BodySpec.of_jumped rfl hprepares rfl (by decide : (-4 : Int32) ≠ 0)
      (by decide : (-4 : Int32) ≠ -2) fun hboth ↦ hprepare hboth.1.prepare⟩
  have hprepared : driver.Prepared := ⟨hinit, hprepare⟩
  rw [if_neg (not_not.mpr hprepare)]
  by_cases hvalid : request.validParams = []
  · rw [hvalid, if_pos List.isEmpty_nil]
    exact ⟨_, BodySpec.of_jumped rfl hprepares rfl (by decide : (-11 : Int32) ≠ 0)
      (by decide : (-11 : Int32) ≠ -2) fun hboth ↦ hboth.2 hvalid⟩
  rw [if_neg (fun hempty ↦ hvalid (List.isEmpty_iff.mp hempty))]
  -- the loop over the rows
  have hrows := execRows_spec driver request 0 [] conn request.validParams
  generalize execRows driver request 0 [] conn request.validParams = rows at hrows ⊢
  have hzero : ∀ m, 0 + m = m := Nat.zero_add
  have hcompleted : decide (rows.rc = 0) = true ↔ rows.rc = 0 := decide_eq_true_iff
  obtain ⟨count, hcount, hexecuted, hbefore, hall⟩ := hrows.executed
  refine ⟨[.stmtInit true, .prepare (cStr (request.sql.getD [])) driver.prepare.rc] ++ rows.calls,
    { calls_eq := List.append_assoc _ _ _
      completed_iff := hcompleted.trans (hrows.rc_eq_zero_iff.trans ?_)
      rc_eq_zero_iff := hcompleted.symm
      rc_ne := hrows.rc_ne
      not_isEnding := fun call hcall ↦ ?_
      executed := ⟨count, hcount, ?_, fun m hlt ↦ hzero m ▸ hbefore m hlt,
        fun h ↦ hall (hcompleted.mp h)⟩
      prepared_of_executed := fun _ ↦ hprepared
      results_eq := fun h ↦ ?_
      fieldsType_eq := fun _ hnot ↦ hrows.fieldsType_eq hnot
      bindParam := fun bindIn rc hcall ↦ ⟨hprepared, hvalid, ?_⟩
      bindParam_mem := fun _ _ ↦ ?_
      bindResult := fun bindOut rc hcall ↦ ?_ }⟩
  · simp only [hzero]
    exact ⟨fun h ↦ ⟨hprepared, hvalid, h⟩, fun h ↦ h.rows⟩
  · rcases List.mem_append.mp hcall with hcall | hcall
    · exact (hprepares call hcall).2.1
    · exact (hrows.inRow call hcall).not_isEnding
  · rw [executedRows_append, hexecuted]
    rfl
  · have htables := hrows.tables_of_zero (hcompleted.mp h)
    simp only [hzero] at htables
    exact congrArg (results ++ ·) htables
  · rcases List.mem_append.mp hcall with hcall | hcall
    · exact absurd rfl ((hprepares _ hcall).2.2.1 bindIn rc)
    · exact hrows.inRow _ hcall
  · obtain ⟨bindIn, rc, hmem⟩ := hrows.bindParam_mem hvalid
    exact ⟨bindIn, rc, List.mem_append_right _ hmem⟩
  · rcases List.mem_append.mp hcall with hcall | hcall
    · exact absurd rfl ((hprepares _ hcall).2.2.2 bindOut rc)
    · exact hrows.inRow _ hcall

/-! ### The exits -/

/-- The call that closes the statement, if there is one. -/
def StmtRun.closing (run : StmtRun) : List StmtCall := if run.hasStmt then [.close] else []

/-- Behind the label, when the loop completed. -/
theorem exitPath_of_completed (driver : StmtDriver) (transaction : Bool) {run : StmtRun}
    (hcompleted : run.loopCompleted = true) (hrc : run.rc = 0) :
    exitPath driver transaction run =
      { rc := if transaction then driver.commit.rc else 0
        conn := if transaction then run.conn.afterQuery driver.commit else run.conn
        calls := run.calls ++ run.closing ++
          if transaction then [.commit driver.commit.rc] else []
        results := run.results, fieldsType := run.fieldsType } := by
  cases transaction with
  | false => simp [exitPath, StmtRun.closing, hcompleted, hrc]
  | true => simp [exitPath, StmtRun.closing, hcompleted, hrc]

/-- Behind the label, after a jump to it. -/
theorem exitPath_of_jumped (driver : StmtDriver) (transaction : Bool) {run : StmtRun}
    (hjumped : run.loopCompleted = false) (hrc : run.rc ≠ 0) (hne : run.rc ≠ -2) :
    exitPath driver transaction run =
      { rc := run.rc
        conn := if transaction then run.conn.afterQuery driver.rollback else run.conn
        calls := run.calls ++ run.closing ++
          if transaction then [.rollback driver.rollback.rc] else []
        results := [], fieldsType := [] } := by
  cases transaction with
  | false => simp [exitPath, StmtRun.closing, hjumped]
  | true => simp [exitPath, StmtRun.closing, hjumped, hrc, hne]

/-- What is known of a request that was not turned down and whose transaction, if there is one, was
started: its calls before the ending of the transaction, and what it leaves. -/
structure Ran (driver : StmtDriver) (request : ExecStatement) (results : DataTables)
    (outcome : StmtOutcome) (before : List StmtCall) : Prop where
  not_isEnding : ∀ call ∈ before, ¬ call.IsEnding
  executed : ∃ count ≤ request.validParams.length,
    executedRows before = request.validParams.take count ∧
      (∀ m, m + 1 < count →
        (driver.row m).Succeeds driver.columns request.stmtParam.resultCols) ∧
      (request.AllSucceed driver → count = request.validParams.length)
  prepared_of_executed : executedRows before ≠ [] → driver.Prepared
  bindParam : ∀ bindIn rc, .bindParam bindIn rc ∈ before →
    driver.Prepared ∧ request.validParams ≠ [] ∧
      bindIn.length = request.stmtParam.paramCols.toInt.toNat
  bindParam_mem : driver.Prepared → request.validParams ≠ [] →
    ∃ bindIn rc, .bindParam bindIn rc ∈ before
  bindResult : ∀ bindOut rc, .bindResult bindOut rc ∈ before →
    bindOut.length = driver.columns.length
  succeeded : request.AllSucceed driver →
    outcome.rc = (if request.transaction then driver.commit.rc else 0) ∧
      outcome.calls = before ++ (if request.transaction then [.commit driver.commit.rc] else []) ∧
      outcome.results =
        results ++ (if 0 < request.stmtParam.resultCols then request.tables driver else []) ∧
      (¬ 0 < request.stmtParam.resultCols → outcome.fieldsType = [])
  failed : ¬ request.AllSucceed driver →
    outcome.rc ≠ 0 ∧
      outcome.calls =
        before ++ (if request.transaction then [.rollback driver.rollback.rc] else []) ∧
      outcome.results = [] ∧ outcome.fieldsType = []

theorem mem_of_mem_closing {run : StmtRun} {call : StmtCall} (hcall : call ∈ run.closing) :
    call = .close := by
  unfold StmtRun.closing at hcall
  split_ifs at hcall
  · exact List.mem_singleton.mp hcall
  · exact absurd hcall List.not_mem_nil

/-- Assumes: opening calls that execute, bind and end nothing. The body, followed by the exit. -/
theorem ran_exitPath (driver : StmtDriver) (request : ExecStatement) (opening : List StmtCall)
    (conn : MysqlConn) (results : DataTables) (fieldsType : FieldsType)
    (hopening : ∀ call ∈ opening, ∃ rc, call = .start rc) :
    ∃ before, Ran driver request results (exitPath driver request.transaction
      (stmtBody driver request opening conn results fieldsType)) before := by
  obtain ⟨made, hbody⟩ := stmtBody_spec driver request opening conn results fieldsType
  generalize stmtBody driver request opening conn results fieldsType = run at hbody ⊢
  have hmem : ∀ call, call ∈ run.calls ++ run.closing →
      call ∈ made ∨ (∃ rc, call = .start rc) ∨ call = .close := by
    intro call hcall
    rw [hbody.calls_eq] at hcall
    rcases List.mem_append.mp hcall with hcall | hcall
    · rcases List.mem_append.mp hcall with hcall | hcall
      · exact Or.inr (Or.inl (hopening call hcall))
      · exact Or.inl hcall
    · exact Or.inr (Or.inr (mem_of_mem_closing hcall))
  have hexecutedRows : executedRows (run.calls ++ run.closing) = executedRows made := by
    have hnone : executedRows opening = [] := executedRows_of_none fun call hcall ↦ by
      obtain ⟨rc, rfl⟩ := hopening call hcall
      rfl
    have hclosing : executedRows run.closing = [] := executedRows_of_none fun call hcall ↦ by
      rw [mem_of_mem_closing hcall]
      rfl
    rw [hbody.calls_eq, executedRows_append, executedRows_append, hnone, hclosing,
      List.nil_append, List.append_nil]
  obtain ⟨count, hcount, hrows, hbefore, hall⟩ := hbody.executed
  refine ⟨run.calls ++ run.closing,
    { not_isEnding := fun call hcall ↦ ?_
      executed := ⟨count, hcount, hexecutedRows.trans hrows, hbefore,
        fun h ↦ hall (hbody.completed_iff.mpr h)⟩
      prepared_of_executed := fun hne ↦ hbody.prepared_of_executed (hexecutedRows ▸ hne)
      bindParam := fun bindIn rc hcall ↦ ?_
      bindParam_mem := fun hprepared hne ↦ ?_
      bindResult := fun bindOut rc hcall ↦ ?_
      succeeded := fun h ↦ ?_
      failed := fun h ↦ ?_ }⟩
  · rcases hmem call hcall with hmade | ⟨rc, rfl⟩ | rfl
    · exact hbody.not_isEnding call hmade
    · exact id
    · exact id
  · rcases hmem _ hcall with hmade | ⟨rc, heq⟩ | heq
    · exact hbody.bindParam bindIn _ hmade
    · cases heq
    · cases heq
  · obtain ⟨bindIn, rc, hmade⟩ := hbody.bindParam_mem hprepared hne
    refine ⟨bindIn, rc, List.mem_append_left _ ?_⟩
    rw [hbody.calls_eq]
    exact List.mem_append_right _ hmade
  · rcases hmem _ hcall with hmade | ⟨rc, heq⟩ | heq
    · exact hbody.bindResult bindOut _ hmade
    · cases heq
    · cases heq
  · have hcompleted := hbody.completed_iff.mpr h
    rw [exitPath_of_completed driver request.transaction hcompleted
      (hbody.rc_eq_zero_iff.mpr hcompleted)]
    exact ⟨rfl, rfl, hbody.results_eq hcompleted, hbody.fieldsType_eq hcompleted⟩
  · have hjumped : run.loopCompleted = false :=
      Bool.eq_false_of_not_eq_true fun hcompleted ↦ h (hbody.completed_iff.mp hcompleted)
    have hrc : run.rc ≠ 0 := fun hzero ↦
      h (hbody.completed_iff.mp (hbody.rc_eq_zero_iff.mp hzero))
    rw [exitPath_of_jumped driver request.transaction hjumped hrc hbody.rc_ne]
    exact ⟨hrc, rfl, rfl, rfl⟩

/-- The transaction of a request cannot be started. -/
def ExecStatement.StartFails (request : ExecStatement) (driver : StmtDriver) : Prop :=
  request.transaction = true ∧ driver.start.rc ≠ 0

theorem execStatement_of_refused (hrefused : request.Refused conn) :
    execStatement driver conn request results fieldsType =
      { rc := -1, conn, calls := [], results, fieldsType } := by
  rw [execStatement]
  by_cases hempty : isEmptyString request.sql = true
  · rw [if_pos hempty]
  · rw [if_neg hempty, if_pos]
    rw [hrefused.resolve_left hempty]
    rfl

theorem execStatement_of_startFails (hrefused : ¬ request.Refused conn)
    (hfails : request.StartFails driver) :
    execStatement driver conn request results fieldsType =
      { rc := -2, conn := conn.afterQuery driver.start, calls := [.start driver.start.rc]
        results := [], fieldsType := [] } := by
  obtain ⟨hempty, hclient⟩ := not_or.mp hrefused
  rw [execStatement, if_neg hempty, if_neg (by simpa using hclient), if_pos hfails.1,
    if_pos hfails.2]
  rfl

theorem execStatement_ran (results : DataTables) (fieldsType : FieldsType)
    (hrefused : ¬ request.Refused conn) (hstarts : ¬ request.StartFails driver) :
    ∃ before, Ran driver request results
      (execStatement driver conn request results fieldsType) before := by
  obtain ⟨hempty, hclient⟩ := not_or.mp hrefused
  rw [execStatement, if_neg hempty, if_neg (by simpa using hclient)]
  by_cases htransaction : request.transaction = true
  · rw [if_pos htransaction, if_neg fun hne ↦ hstarts ⟨htransaction, hne⟩]
    have hran := ran_exitPath driver request [.start driver.start.rc] conn results fieldsType
      fun call hcall ↦ ⟨_, List.mem_singleton.mp hcall⟩
    rwa [htransaction] at hran
  · rw [if_neg htransaction]
    have hran := ran_exitPath driver request [] conn results fieldsType
      fun call hcall ↦ absurd hcall List.not_mem_nil
    rwa [Bool.eq_false_of_not_eq_true htransaction] at hran

/-! ### Transactions -/

/-- What is promised of the transaction of a request that is not turned down. -/
structure Disciplined (driver : StmtDriver) (request : ExecStatement) (outcome : StmtOutcome) :
    Prop where
  start_fails : request.transaction = true → driver.start.rc ≠ 0 →
    outcome.calls = [.start driver.start.rc] ∧ outcome.rc = -2
  ends_once : request.transaction = true → driver.start.rc = 0 →
    ∃ before ending, outcome.calls = before ++ [ending] ∧ ending.IsEnding ∧
      ∀ call ∈ before, ¬ call.IsEnding
  commit_iff : request.transaction = true → driver.start.rc = 0 →
    ((∃ rc, .commit rc ∈ outcome.calls) ↔
      request.validParams ≠ [] ∧ executedRows outcome.calls = request.validParams ∧
        ∀ m < request.validParams.length,
          (driver.row m).Succeeds driver.columns request.stmtParam.resultCols)
  width : ∀ param ∈ executedRows outcome.calls,
    (param.length : ℤ) = request.stmtParam.paramCols.toInt
  in_order : ∃ count ≤ request.validParams.length,
    executedRows outcome.calls = request.validParams.take count ∧
      ∀ m, m + 1 < count → (driver.row m).Succeeds driver.columns request.stmtParam.resultCols
  rc_eq_zero : outcome.rc = 0 → executedRows outcome.calls = request.validParams ∧
    (∀ m < request.validParams.length,
      (driver.row m).Succeeds driver.columns request.stmtParam.resultCols) ∧
    (request.transaction = true → .commit 0 ∈ outcome.calls)
  results_eq : outcome.rc = 0 → 0 < request.stmtParam.resultCols →
    outcome.results = request.tables driver

variable {outcome : StmtOutcome} {before : List StmtCall}

theorem width_of_mem_take {count : ℕ} {param : DataRow}
    (hparam : param ∈ request.validParams.take count) :
    (param.length : ℤ) = request.stmtParam.paramCols.toInt := by
  have hmem := (List.mem_filter.mp (List.mem_of_mem_take hparam)).2
  exact of_decide_eq_true hmem

/-- The ending of a transaction executes nothing. -/
theorem executedRows_ending (before : List StmtCall) {transaction : Bool} {ending : StmtCall}
    (hending : ending.executed = none) :
    executedRows (before ++ if transaction then [ending] else []) = executedRows before := by
  cases transaction with
  | false => exact congrArg executedRows (List.append_nil before)
  | true =>
    have hnone : executedRows [ending] = [] := executedRows_of_none fun call hcall ↦ by
      rwa [List.mem_singleton.mp hcall]
    rw [if_pos rfl, executedRows_append, hnone, List.append_nil]

theorem Ran.executedRows_eq (hran : Ran driver request results outcome before) :
    executedRows outcome.calls = executedRows before := by
  by_cases hall : request.AllSucceed driver
  · rw [(hran.succeeded hall).2.1, executedRows_ending before rfl]
  · rw [(hran.failed hall).2.1, executedRows_ending before rfl]

/-- All rows succeed exactly if there is one, they were executed, and their reports show no
error. -/
theorem Ran.allSucceed_iff (hran : Ran driver request results outcome before) :
    request.AllSucceed driver ↔
      request.validParams ≠ [] ∧ executedRows outcome.calls = request.validParams ∧
        ∀ m < request.validParams.length,
          (driver.row m).Succeeds driver.columns request.stmtParam.resultCols := by
  rw [hran.executedRows_eq]
  constructor
  · intro hall
    obtain ⟨count, -, hrows, -, hcount⟩ := hran.executed
    rw [hcount hall, List.take_length] at hrows
    exact ⟨hall.validParams_ne, hrows, hall.rows⟩
  · rintro ⟨hne, hrows, hsucceed⟩
    exact ⟨hran.prepared_of_executed (hrows.symm ▸ hne), hne, hsucceed⟩

theorem Ran.disciplined (hran : Ran driver request [] outcome before)
    (hstarts : ¬ request.StartFails driver) : Disciplined driver request outcome := by
  obtain ⟨count, hcount, hrows, hbefore, -⟩ := hran.executed
  have hexecuted := hran.executedRows_eq.trans hrows
  have hzero : outcome.rc = 0 → request.AllSucceed driver := fun hrc ↦ by
    by_contra hnot
    exact (hran.failed hnot).1 hrc
  exact {
    start_fails := fun htransaction hfails ↦ absurd ⟨htransaction, hfails⟩ hstarts
    ends_once := fun htransaction _ ↦ by
      by_cases hall : request.AllSucceed driver
      · refine ⟨before, .commit driver.commit.rc, ?_, trivial, hran.not_isEnding⟩
        rw [(hran.succeeded hall).2.1, if_pos htransaction]
      · refine ⟨before, .rollback driver.rollback.rc, ?_, trivial, hran.not_isEnding⟩
        rw [(hran.failed hall).2.1, if_pos htransaction]
    commit_iff := fun htransaction _ ↦ by
      rw [← hran.allSucceed_iff]
      constructor
      · rintro ⟨rc, hcommit⟩
        by_contra hnot
        rw [(hran.failed hnot).2.1, if_pos htransaction] at hcommit
        rcases List.mem_append.mp hcommit with hcommit | hcommit
        · exact hran.not_isEnding _ hcommit trivial
        · cases List.mem_singleton.mp hcommit
      · intro hall
        refine ⟨driver.commit.rc, ?_⟩
        rw [(hran.succeeded hall).2.1, if_pos htransaction]
        exact List.mem_append_right _ List.mem_cons_self
    width := fun param hparam ↦ width_of_mem_take (hexecuted ▸ hparam)
    in_order := ⟨count, hcount, hexecuted, hbefore⟩
    rc_eq_zero := fun hrc ↦ by
      have hall := hzero hrc
      obtain ⟨-, hvalid, hsucceed⟩ := hran.allSucceed_iff.mp hall
      refine ⟨hvalid, hsucceed, fun htransaction ↦ ?_⟩
      obtain ⟨hcode, hcalls, -⟩ := hran.succeeded hall
      rw [if_pos htransaction] at hcode hcalls
      rw [hcalls, ← hcode, hrc]
      exact List.mem_append_right _ List.mem_cons_self
    results_eq := fun hrc hresult ↦ by
      have hresults := (hran.succeeded (hzero hrc)).2.2.1
      rwa [if_pos hresult] at hresults }

/-- A transaction that cannot be started: nothing else is sent. -/
theorem disciplined_of_startFails (hrefused : ¬ request.Refused conn)
    (hfails : request.StartFails driver) :
    Disciplined driver request (execStatement driver conn request results fieldsType) := by
  rw [execStatement_of_startFails hrefused hfails]
  have hrc : ¬ (-2 : Int32) = 0 := by decide
  exact {
    start_fails := fun _ _ ↦ ⟨rfl, rfl⟩
    ends_once := fun _ hstarts ↦ absurd hstarts hfails.2
    commit_iff := fun _ hstarts ↦ absurd hstarts hfails.2
    width := fun param hparam ↦ absurd hparam List.not_mem_nil
    in_order := ⟨0, Nat.zero_le _, rfl, fun m hlt ↦ absurd hlt (Nat.not_lt_zero _)⟩
    rc_eq_zero := fun hzero ↦ absurd hzero hrc
    results_eq := fun hzero ↦ absurd hzero hrc }

/-- A statement with an empty text, one row, and a transaction that the library would start. -/
def emptyRequest : ExecStatement where
  sql := some []
  stmtParam := { params := [[[0x61]]], paramCols := 1, resultCols := 0 }
  transaction := true

/-- A failed statement leaves no data. -/
def StmtOutcome.NoData (outcome : StmtOutcome) : Prop :=
  outcome.rc ≠ 0 → outcome.results = [] ∧ outcome.fieldsType = []

/-- The loop completes, and the commit after it fails. -/
structure CommitFails (driver : StmtDriver) (conn : MysqlConn) (request : ExecStatement) :
    Prop where
  not_refused : ¬ request.Refused conn
  transaction : request.transaction = true
  starts : driver.start.rc = 0
  allSucceed : request.AllSucceed driver
  commit : driver.commit.rc ≠ 0

/-- A failing statement leaves data exactly if it found some on entry and was turned down, or if its
commit fails and there are tables, found on entry or added by the rows. -/
theorem execStatement_noData_iff (driver : StmtDriver) (conn : MysqlConn) (request : ExecStatement)
    (results : DataTables) (fieldsType : FieldsType) :
    (execStatement driver conn request results fieldsType).NoData ↔
      (request.Refused conn → results = [] ∧ fieldsType = []) ∧
        (CommitFails driver conn request →
          results = [] ∧ ¬ 0 < request.stmtParam.resultCols) := by
  by_cases hrefused : request.Refused conn
  · rw [execStatement_of_refused hrefused]
    exact ⟨fun hnone ↦ ⟨fun _ ↦ hnone (by decide : (-1 : Int32) ≠ 0),
      fun hfails ↦ absurd hrefused hfails.not_refused⟩, fun h _ ↦ h.1 hrefused⟩
  by_cases hstarts : request.StartFails driver
  · rw [execStatement_of_startFails hrefused hstarts]
    exact iff_of_true (fun _ ↦ ⟨rfl, rfl⟩) ⟨fun h ↦ absurd h hrefused,
      fun hfails ↦ absurd hfails.starts hstarts.2⟩
  obtain ⟨before, hran⟩ := execStatement_ran results fieldsType hrefused hstarts
  generalize execStatement driver conn request results fieldsType = outcome at hran ⊢
  by_cases hall : request.AllSucceed driver
  swap
  · obtain ⟨-, -, hresults, hfields⟩ := hran.failed hall
    exact iff_of_true (fun _ ↦ ⟨hresults, hfields⟩) ⟨fun h ↦ absurd h hrefused,
      fun hfails ↦ absurd hfails.allSucceed hall⟩
  obtain ⟨hrc, -, hresults, hfields⟩ := hran.succeeded hall
  by_cases hcommit : outcome.rc = 0
  · refine iff_of_true (fun hne ↦ absurd hcommit hne) ⟨fun h ↦ absurd h hrefused, fun hfails ↦ ?_⟩
    rw [hcommit, if_pos hfails.transaction] at hrc
    exact absurd hrc.symm hfails.commit
  -- the commit fails after the results were left as they are
  have htransaction : request.transaction = true := by
    by_contra hnot
    rw [if_neg hnot] at hrc
    exact hcommit hrc
  have hcommitRc : driver.commit.rc ≠ 0 := by
    rw [if_pos htransaction] at hrc
    exact hrc ▸ hcommit
  have hfails : CommitFails driver conn request := ⟨hrefused, htransaction,
    by_contra fun hne ↦ hstarts ⟨htransaction, hne⟩, hall, hcommitRc⟩
  have htables : request.tables driver ≠ [] := by
    intro hnil
    have hlength := congrArg List.length hnil
    rw [ExecStatement.tables, List.length_map, List.length_range] at hlength
    exact hall.validParams_ne (List.length_eq_zero_iff.mp hlength)
  constructor
  · intro hnone
    refine ⟨fun h ↦ absurd h hrefused, fun _ ↦ ?_⟩
    obtain ⟨hnil, -⟩ := hnone hcommit
    obtain ⟨hentry, hadded⟩ := List.append_eq_nil_iff.mp (hresults.symm.trans hnil)
    refine ⟨hentry, fun hpos ↦ htables ?_⟩
    rwa [if_pos hpos] at hadded
  · rintro ⟨-, hclean⟩ -
    obtain ⟨hentry, hcols⟩ := hclean hfails
    rw [hresults, hentry, if_neg hcols]
    exact ⟨rfl, hfields hcols⟩

/-- The client as a pool uses it, with what the library reports to its queries and statements. -/
def MysqlConn.client (conn : MysqlConn) (queryDriver : QueryDriver) (driver : StmtDriver) :
    MysqlClient where
  execQuery := fun sql transaction ↦
    ((ExecQuery.plain (some sql) transaction).run queryDriver conn).rc
  execRealQuery := fun sql transaction ↦
    ((ExecQuery.real (some sql) sql.length transaction).run queryDriver conn).rc
  execQueryForResult := fun sql ↦
    let outcome := (ExecQuery.forTable (some sql) []).run queryDriver conn
    (outcome.rc, outcome.table)
  execStatement := fun sql stmtParam transaction ↦
    let outcome := execStatement driver conn { sql := some sql, stmtParam, transaction } [] []
    (outcome.rc, outcome.results, outcome.fieldsType)

/-- The response carries no data if its code is not zero. -/
def MysqlClientResp.NoData (resp : MysqlClientResp) : Prop :=
  resp.rc ≠ 0 → resp.results = [] ∧ resp.fieldsType = []

/-- The call of `execStatement` for a request with parameters. -/
def stmtCallOf (req : MysqlClientReq) (stmtParam : MysqlStmtReqParams) : ExecStatement where
  sql := some (cStr req.sql)
  stmtParam := stmtParam
  transaction := req.transaction

/-- The response to a statement is that of `execStatement` on empty results. -/
theorem handleRequest_execStatement (queryDriver : QueryDriver) (reqId : RequestId)
    {req : MysqlClientReq} {stmtParam : MysqlStmtReqParams}
    (htype : req.type = MysqlClientReqType.execStatement.code)
    (hparam : req.stmtParam = some stmtParam) :
    (conn.client queryDriver driver).handleRequest reqId req =
      [{ reqId
         rc := (execStatement driver conn (stmtCallOf req stmtParam) [] []).rc
         results := (execStatement driver conn (stmtCallOf req stmtParam) [] []).results
         fieldsType :=
           (execStatement driver conn (stmtCallOf req stmtParam) [] []).fieldsType }] := by
  rw [MysqlClient.handleRequest, htype, if_neg (by decide), if_neg (by decide), if_neg (by decide),
    if_pos rfl, hparam]
  rfl

/-- For every statement and every answer of the library: a failing `execStatement` leaves no data
exactly if it found none when it was turned down, and no table is there, found or added, when its
commit fails. For the response to a request this is: exactly if there is no commit that fails behind
rows with a result. -/
theorem noData_iff (driver : StmtDriver) (conn : MysqlConn) :
    (∀ (request : ExecStatement) (results : DataTables) (fieldsType : FieldsType),
      (execStatement driver conn request results fieldsType).NoData ↔
        (request.Refused conn → results = [] ∧ fieldsType = []) ∧
          (CommitFails driver conn request →
            results = [] ∧ ¬ 0 < request.stmtParam.resultCols)) ∧
      ∀ (queryDriver : QueryDriver) (reqId : RequestId) (req : MysqlClientReq)
        (stmtParam : MysqlStmtReqParams), req.type = MysqlClientReqType.execStatement.code →
        req.stmtParam = some stmtParam →
        ((∀ resp ∈ (conn.client queryDriver driver).handleRequest reqId req, resp.NoData) ↔
          (CommitFails driver conn (stmtCallOf req stmtParam) → ¬ 0 < stmtParam.resultCols)) := by
  refine ⟨execStatement_noData_iff driver conn,
    fun queryDriver reqId req stmtParam htype hparam ↦ ?_⟩
  rw [handleRequest_execStatement queryDriver reqId htype hparam]
  have hiff := execStatement_noData_iff driver conn (stmtCallOf req stmtParam) [] []
  constructor
  · intro hnone hfails
    exact ((hiff.mp (hnone _ List.mem_cons_self)).2 hfails).2
  · intro hclean resp hresp
    rw [List.mem_singleton.mp hresp]
    exact hiff.mpr ⟨fun _ ↦ ⟨rfl, rfl⟩, fun hfails ↦ ⟨rfl, hclean hfails⟩⟩

/-- A statement with one column of text whose row `a` is fetched, and whose commit fails. -/
def failingCommit : StmtDriver where
  placeholders := 1
  columns := [⟨253, 16⟩]
  row := fun _ ↦ { numRows := 1, fetch := fun _ ↦ ⟨0, fun _ ↦ ⟨false, [0x61], 1⟩⟩ }
  commit := { rc := 1 }

/-- A request to execute `SELECT ?` in a transaction, with one row of one parameter. -/
def selectRequest : MysqlClientReq where
  type := MysqlClientReqType.execStatement.code
  dbSlot := 0
  sql := [0x53, 0x45, 0x4C, 0x45, 0x43, 0x54, 0x20, 0x3F]
  transaction := true
  stmtParam := some { params := [[[0x61]]], paramCols := 1, resultCols := 1 }

/-- Queries of which none is sent. -/
def silentQueries : QueryDriver where
  start := {}
  statement := {}
  sets := { first := .null 0, further := [], last := -1, last_ne_zero := by decide }
  commit := {}
  rollback := {}

theorem noData_iff_selectRequest :
    (∀ resp ∈ (({} : MysqlConn).client silentQueries failingCommit).handleRequest 7 selectRequest,
        resp.NoData) ↔
      (CommitFails failingCommit {}
          (stmtCallOf selectRequest { params := [[[0x61]]], paramCols := 1, resultCols := 1 }) →
        ¬ (0 : Int32) < 1) :=
  (noData_iff failingCommit {}).2 silentQueries 7 selectRequest
    { params := [[[0x61]]], paramCols := 1, resultCols := 1 } rfl rfl

/-- The response to the request has the code of the commit and the row that was fetched. -/
theorem handleRequest_failingCommit :
    (({} : MysqlConn).client silentQueries failingCommit).handleRequest 7 selectRequest =
        [{ reqId := 7, rc := 1, results := [[[[0x61]]]], fieldsType := [253] }] ∧
      ¬ ∀ resp ∈ (({} : MysqlConn).client silentQueries failingCommit).handleRequest 7
        selectRequest, resp.NoData := by
  have hresp : (({} : MysqlConn).client silentQueries failingCommit).handleRequest 7 selectRequest =
      [{ reqId := 7, rc := 1, results := [[[[0x61]]]], fieldsType := [253] }] := by decide
  refine ⟨hresp, fun hnone ↦ ?_⟩
  rw [hresp] at hnone
  have hempty := hnone _ List.mem_cons_self (by decide : (1 : Int32) ≠ 0)
  exact List.cons_ne_nil _ _ hempty.1

/-! ### The arrays that are bound -/

/-- Each array has as many entries as the library reads of it. -/
structure BindsMatch (driver : StmtDriver) (outcome : StmtOutcome) : Prop where
  params : ∀ bindIn rc, .bindParam bindIn rc ∈ outcome.calls → bindIn.length = driver.placeholders
  columns : ∀ bindOut rc, .bindResult bindOut rc ∈ outcome.calls →
    bindOut.length = driver.columns.length

/-- The request comes to bind a row: it is not turned down, its transaction is started if there is
one, the statement is prepared, and there is a row of the width it gives. -/
structure ReachesBind (driver : StmtDriver) (conn : MysqlConn) (request : ExecStatement) :
    Prop where
  not_refused : ¬ request.Refused conn
  starts : request.transaction = true → driver.start.rc = 0
  prepared : driver.Prepared
  validParams_ne : request.validParams ≠ []

/-- Assumes: a row of the width that is given. The width is not negative. -/
theorem paramCols_of_valid (hvalid : request.validParams ≠ []) :
    (request.stmtParam.paramCols.toInt.toNat : ℤ) = request.stmtParam.paramCols.toInt := by
  obtain ⟨param, hparam⟩ := List.exists_mem_of_ne_nil _ hvalid
  have hwidth : (param.length : ℤ) = request.stmtParam.paramCols.toInt :=
    of_decide_eq_true (List.mem_filter.mp hparam).2
  omega

theorem Ran.mem_calls (hran : Ran driver request results outcome before) {call : StmtCall} :
    call ∈ outcome.calls → call ∈ before ∨ call.IsEnding := by
  intro hcall
  by_cases hall : request.AllSucceed driver
  · rw [(hran.succeeded hall).2.1] at hcall
    refine (List.mem_append.mp hcall).imp_right fun hending ↦ ?_
    split_ifs at hending
    · rw [List.mem_singleton.mp hending]
      trivial
    · exact absurd hending List.not_mem_nil
  · rw [(hran.failed hall).2.1] at hcall
    refine (List.mem_append.mp hcall).imp_right fun hending ↦ ?_
    split_ifs at hending
    · rw [List.mem_singleton.mp hending]
      trivial
    · exact absurd hending List.not_mem_nil

theorem Ran.mem_before (hran : Ran driver request results outcome before) {call : StmtCall}
    (hcall : call ∈ before) : call ∈ outcome.calls := by
  by_cases hall : request.AllSucceed driver
  · rw [(hran.succeeded hall).2.1]
    exact List.mem_append_left _ hcall
  · rw [(hran.failed hall).2.1]
    exact List.mem_append_left _ hcall

/-- For every request and every prepared statement: the arrays that are bound have the entries that
the library reads exactly if a request that comes to bind a row gives the number of placeholders. -/
theorem bindsMatch_iff (driver : StmtDriver) (conn : MysqlConn) (request : ExecStatement)
    (results : DataTables) (fieldsType : FieldsType) :
    BindsMatch driver (execStatement driver conn request results fieldsType) ↔
      (ReachesBind driver conn request →
        request.stmtParam.paramCols.toInt = driver.placeholders) := by
  by_cases hrefused : request.Refused conn
  · rw [execStatement_of_refused hrefused]
    exact iff_of_true ⟨fun _ _ hcall ↦ absurd hcall List.not_mem_nil,
      fun _ _ hcall ↦ absurd hcall List.not_mem_nil⟩ fun h ↦ absurd hrefused h.not_refused
  by_cases hstarts : request.StartFails driver
  · rw [execStatement_of_startFails hrefused hstarts]
    refine iff_of_true ⟨fun bindIn rc hcall ↦ ?_, fun bindOut rc hcall ↦ ?_⟩
      fun h ↦ absurd (h.starts hstarts.1) hstarts.2
    · cases List.mem_singleton.mp hcall
    · cases List.mem_singleton.mp hcall
  obtain ⟨before, hran⟩ := execStatement_ran results fieldsType hrefused hstarts
  constructor
  · intro hmatch hreaches
    obtain ⟨bindIn, rc, hmem⟩ := hran.bindParam_mem hreaches.prepared hreaches.validParams_ne
    have hentries := (hran.bindParam bindIn rc hmem).2.2
    have hplaceholders := hmatch.params bindIn rc (hran.mem_before hmem)
    rw [← paramCols_of_valid hreaches.validParams_ne, ← hentries, hplaceholders]
  · intro hwidth
    refine ⟨fun bindIn rc hcall ↦ ?_, fun bindOut rc hcall ↦ ?_⟩
    · have hmem := (hran.mem_calls hcall).resolve_right id
      obtain ⟨hprepared, hvalid, hentries⟩ := hran.bindParam bindIn rc hmem
      have hcols := hwidth ⟨hrefused,
        fun htransaction ↦ by_contra fun hne ↦ hstarts ⟨htransaction, hne⟩, hprepared, hvalid⟩
      rw [hentries, hcols, Int.toNat_natCast]
    · exact hran.bindResult bindOut rc ((hran.mem_calls hcall).resolve_right id)

/-- One value for a statement of two placeholders. -/
def shortRequest : ExecStatement where
  sql := some [0x58]
  stmtParam := { params := [[[0x61]]], paramCols := 1, resultCols := 0 }

/-- The library is given an array of one entry, of which it reads two. -/
theorem not_bindsMatch_shortRequest :
    ¬ BindsMatch { placeholders := 2 }
      (execStatement { placeholders := 2 } {} shortRequest [] []) := by
  intro hmatch
  have hlength := hmatch.params
    [{ bufferType := mysqlTypeString, buffer := [0x61], bufferLength := 2 }] 0 (by decide)
  exact absurd hlength (by decide)

end TszyUlt.Wjp
