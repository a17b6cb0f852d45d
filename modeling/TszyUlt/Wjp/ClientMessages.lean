import TszyUlt.Fszm.SerializeValues

/-!
# Requests and responses of the MySQL and Redis clients

`wjp/mysql_client_req.hpp` and `wjp/redis_client_req.hpp`. The type of a request is an enumeration
that is written as a signed byte and cast back from whatever byte is read, so the field is the
signed byte and the enumeration names some of its values. The id and the number of retries of a
request belong to the pool and are not written.

Each message has its `serialize`, its `deserialize`, and the condition `Fits` that its lengths fit
their length fields. The four round trips are in `clientMessages_roundTrip`. `Fits` cannot be left
out: `sql_deserialize_serialize` says which part of a longer statement comes back.
-/

set_option autoImplicit false
set_option relaxedAutoImplicit false

namespace TszyUlt.Wjp

open Lib Zbf Fszm

/-! ### MySQL -/

/-- `mysql_client_req_type`. -/
inductive MysqlClientReqType
  | execQuery
  | execRealQuery
  | execQueryForResult
  | execStatement
  | mysqlReqNone
  deriving DecidableEq, Repr

/-- The value of an enumerator. -/
def MysqlClientReqType.code : MysqlClientReqType → Int8
  | .execQuery => 0
  | .execRealQuery => 1
  | .execQueryForResult => 2
  | .execStatement => 3
  | .mysqlReqNone => 4

/-- `mysql_stmt_req_params`. -/
structure MysqlStmtReqParams where
  params : DataTable
  paramCols : Int32
  resultCols : Int32
  deriving DecidableEq, Repr

/-- `mysql_client_req`. -/
structure MysqlClientReq where
  version : BitVec 16 := 0
  type : Int8
  dbSlot : BitVec 8
  sql : Bytes
  transaction : Bool := false
  stmtParam : Option MysqlStmtReqParams := none
  reqId : BitVec 64 := 0
  retryTimes : ℕ := 0
  deriving DecidableEq, Repr

/-- `mysql_client_resp`. -/
structure MysqlClientResp where
  version : BitVec 16 := 0
  reqId : BitVec 64
  rc : Int32 := -1
  results : DataTables := []
  fieldsType : FieldsType := []
  deriving DecidableEq, Repr

namespace MysqlStmtReqParams

/-- The statement parameters in `mysql_client_req::serialize`. -/
def serialize (order : ByteOrder) (param : MysqlStmtReqParams) : Bytes :=
  serializeTable order param.params ++
    (serializeInt32 order param.paramCols ++ serializeInt32 order param.resultCols)

/-- The statement parameters in `mysql_client_req::deserialize`. -/
def read (order : ByteOrder) : StateM Bytes MysqlStmtReqParams := do
  let params ← deserializeTable order
  let paramCols ← deserializeInt32 order
  let resultCols ← deserializeInt32 order
  return ⟨params, paramCols, resultCols⟩

theorem consumes (sender receiver : ByteOrder) {param : MysqlStmtReqParams}
    (hfits : TableFits param.params) :
    Consumes (read receiver) (param.serialize sender) param :=
  (consumes_table sender receiver hfits).bind
    ((consumes_int32 sender receiver param.paramCols).bind
      ((consumes_int32 sender receiver param.resultCols).map
        (MysqlStmtReqParams.mk param.params param.paramCols)))

end MysqlStmtReqParams

namespace MysqlClientReq

/-- `newQuery` for a string that ends with a null character. -/
def newQuery (dbSlot : BitVec 8) (sql : Bytes) (transaction : Bool) : MysqlClientReq :=
  { type := MysqlClientReqType.execQuery.code, dbSlot, sql, transaction }

/-- `newQuery` for a string of a given length. -/
def newRealQuery (dbSlot : BitVec 8) (sql : Bytes) (transaction : Bool) : MysqlClientReq :=
  { type := MysqlClientReqType.execRealQuery.code, dbSlot, sql, transaction }

/-- `newQueryForResult`. -/
def newQueryForResult (dbSlot : BitVec 8) (sql : Bytes) : MysqlClientReq :=
  { type := MysqlClientReqType.execQueryForResult.code, dbSlot, sql }

/-- `newStatement`. -/
def newStatement (dbSlot : BitVec 8) (sql : Bytes) (params : DataTable)
    (paramCols resultCols : Int32) (transaction : Bool) : MysqlClientReq :=
  { type := MysqlClientReqType.execStatement.code, dbSlot, sql, transaction,
    stmtParam := some ⟨params, paramCols, resultCols⟩ }

/-- `mysql_client_req::serialize`. -/
def serialize (order : ByteOrder) (req : MysqlClientReq) : Bytes :=
  serializeUint16 order req.version ++ (serializeInt8 req.type ++ (serializeUint8 req.dbSlot ++
    (serializeStr order req.sql ++ (serializeBool req.transaction ++
      serializeOptional (MysqlStmtReqParams.serialize order) req.stmtParam))))

/-- `mysql_client_req::deserialize` on the buffer of a helper. -/
def read (order : ByteOrder) : StateM Bytes MysqlClientReq := do
  let version ← deserializeUint16 order
  let type ← deserializeInt8
  let dbSlot ← deserializeUint8
  let sql ← deserializeStr order
  let transaction ← deserializeBool
  let stmtParam ← deserializeOptional (MysqlStmtReqParams.read order)
  return { version, type, dbSlot, sql, transaction, stmtParam }

/-- `mysql_client_req::deserialize`. -/
def deserialize (order : ByteOrder) (data : Bytes) : MysqlClientReq := ((read order).run data).1

/-- The request as it is submitted to a pool, before the pool gives it an id. -/
def unsubmitted (req : MysqlClientReq) : MysqlClientReq := { req with reqId := 0, retryTimes := 0 }

/-- The lengths of the statement and of the parameter table fit. -/
def Fits (req : MysqlClientReq) : Prop :=
  StrFits req.sql ∧ ∀ param ∈ req.stmtParam, TableFits param.params

theorem consumes (sender receiver : ByteOrder) {req : MysqlClientReq} (hfits : req.Fits) :
    Consumes (read receiver) (req.serialize sender) req.unsubmitted := by
  obtain ⟨hsql, hparam⟩ := hfits
  refine (consumes_uint16 sender receiver req.version).bind ?_
  refine (consumes_int8 req.type).bind ?_
  refine (consumes_uint8 req.dbSlot).bind ?_
  refine (consumes_str sender receiver req.sql hsql).bind ?_
  refine (consumes_bool req.transaction).bind ?_
  have hoptional := consumes_optional fun param hmem ↦
    MysqlStmtReqParams.consumes sender receiver (hparam param hmem)
  exact hoptional.map fun stmtParam ↦ { req.unsubmitted with stmtParam }

end MysqlClientReq

namespace MysqlClientResp

/-- `mysql_client_resp::serialize`. -/
def serialize (order : ByteOrder) (resp : MysqlClientResp) : Bytes :=
  serializeUint16 order resp.version ++ (serializeInt64 order (Int64.ofBitVec resp.reqId) ++
    (serializeInt32 order resp.rc ++ (serializeTables order resp.results ++
      serializeFieldsType order resp.fieldsType)))

/-- `mysql_client_resp::deserialize` on the buffer of a helper. -/
def read (order : ByteOrder) : StateM Bytes MysqlClientResp := do
  let version ← deserializeUint16 order
  let reqId ← deserializeInt64 order
  let rc ← deserializeInt32 order
  let results ← deserializeTables order
  let fieldsType ← deserializeFieldsType order
  return { version, reqId := reqId.toBitVec, rc, results, fieldsType }

/-- `mysql_client_resp::deserialize`. -/
def deserialize (order : ByteOrder) (data : Bytes) : MysqlClientResp := ((read order).run data).1

/-- The lengths of the results fit. -/
def Fits (resp : MysqlClientResp) : Prop :=
  TablesFit resp.results ∧ FieldsTypeFits resp.fieldsType

theorem consumes (sender receiver : ByteOrder) {resp : MysqlClientResp} (hfits : resp.Fits) :
    Consumes (read receiver) (resp.serialize sender) resp := by
  obtain ⟨hresults, hfields⟩ := hfits
  refine (consumes_uint16 sender receiver resp.version).bind ?_
  refine (consumes_int64 sender receiver (Int64.ofBitVec resp.reqId)).bind ?_
  refine (consumes_int32 sender receiver resp.rc).bind ?_
  refine (consumes_tables sender receiver hresults).bind ?_
  exact (consumes_fieldsType sender receiver hfields).map fun fieldsType ↦ { resp with fieldsType }

end MysqlClientResp

/-! ### Redis -/

/-- `redis_client_req_type`. -/
inductive RedisClientReqType
  | execCommandStat
  | execCommandInt
  | execCommandStr
  | execCommandSA
  | execCommandSM
  | execCommandSCA
  | redisReqNone
  deriving DecidableEq, Repr

/-- The value of an enumerator. -/
def RedisClientReqType.code : RedisClientReqType → Int8
  | .execCommandStat => 0
  | .execCommandInt => 1
  | .execCommandStr => 2
  | .execCommandSA => 3
  | .execCommandSM => 4
  | .execCommandSCA => 5
  | .redisReqNone => 6

/-- `redis_client_req`. -/
structure RedisClientReq where
  version : BitVec 16 := 0
  type : Int8 := RedisClientReqType.redisReqNone.code
  dbSlot : BitVec 8 := 0
  argv : List Bytes := []
  reqId : BitVec 64 := 0
  retryTimes : ℕ := 0
  deriving DecidableEq, Repr

/-- `redis_client_resp`. -/
structure RedisClientResp where
  version : BitVec 16 := 0
  reqId : BitVec 64 := 0
  type : Int8 := RedisClientReqType.redisReqNone.code
  rc : Int32 := -1
  resStat : Bool := false
  resInt : Int64 := 0
  resStr : Bytes := []
  resSA : DataRow := []
  resSM : StringMap := ∅
  resSCA : ScoreArray := []

namespace RedisClientReq

/-- `redis_client_req::serialize`. -/
def serialize (order : ByteOrder) (req : RedisClientReq) : Bytes :=
  serializeUint16 order req.version ++ (serializeInt8 req.type ++ (serializeUint8 req.dbSlot ++
    (serializeInt32 order (Int32.ofNat req.argv.length) ++ req.argv.flatMap (serializeStr order))))

/-- The arguments in `redis_client_req::deserialize`. A negative number of arguments is none. -/
def readArgv (order : ByteOrder) : StateM Bytes (List Bytes) := do
  let argc ← deserializeInt32 order
  deserializeMany (deserializeStr order) argc.toInt.toNat

/-- `redis_client_req::deserialize` on the buffer of a helper. -/
def read (order : ByteOrder) : StateM Bytes RedisClientReq := do
  let version ← deserializeUint16 order
  let type ← deserializeInt8
  let dbSlot ← deserializeUint8
  let argv ← readArgv order
  return { version, type, dbSlot, argv }

/-- `redis_client_req::deserialize`. -/
def deserialize (order : ByteOrder) (data : Bytes) : RedisClientReq := ((read order).run data).1

/-- The request as it is submitted to a pool, before the pool gives it an id. -/
def unsubmitted (req : RedisClientReq) : RedisClientReq := { req with reqId := 0, retryTimes := 0 }

/-- There are fewer than 2 ^ 31 arguments, and their lengths fit. -/
def Fits (req : RedisClientReq) : Prop :=
  req.argv.length < 2 ^ 31 ∧ ∀ arg ∈ req.argv, StrFits arg

theorem consumes_argv (sender receiver : ByteOrder) {req : RedisClientReq} (hfits : req.Fits) :
    Consumes (readArgv receiver)
      (serializeInt32 sender (Int32.ofNat req.argv.length) ++
        req.argv.flatMap (serializeStr sender)) req.argv := by
  have hargc : (Int32.ofNat req.argv.length).toInt.toNat = req.argv.length := by
    rw [Int32.toInt_ofNat_of_lt hfits.1, Int.toNat_natCast]
  refine (consumes_int32 sender receiver (Int32.ofNat req.argv.length)).bind ?_
  rw [hargc]
  exact consumes_many req.argv fun arg hmem ↦ consumes_str sender receiver arg (hfits.2 arg hmem)

theorem consumes (sender receiver : ByteOrder) {req : RedisClientReq} (hfits : req.Fits) :
    Consumes (read receiver) (req.serialize sender) req.unsubmitted := by
  refine (consumes_uint16 sender receiver req.version).bind ?_
  refine (consumes_int8 req.type).bind ?_
  refine (consumes_uint8 req.dbSlot).bind ?_
  exact (consumes_argv sender receiver hfits).map fun argv ↦ { req.unsubmitted with argv }

end RedisClientReq

namespace RedisClientResp

/-- The result in `redis_client_resp::serialize`: the member that the type selects. -/
def serializeResult (order : ByteOrder) (resp : RedisClientResp) : Bytes :=
  if resp.type = RedisClientReqType.execCommandStat.code then
    serializeInt8 (if resp.resStat then 1 else 0)
  else if resp.type = RedisClientReqType.execCommandInt.code then serializeInt64 order resp.resInt
  else if resp.type = RedisClientReqType.execCommandStr.code then serializeStr order resp.resStr
  else if resp.type = RedisClientReqType.execCommandSA.code then serializeRow order resp.resSA
  else if resp.type = RedisClientReqType.execCommandSM.code then
    serializeStringMap order resp.resSM
  else if resp.type = RedisClientReqType.execCommandSCA.code then
    serializeScoreArray order resp.resSCA
  else []

/-- `redis_client_resp::serialize`. -/
def serialize (order : ByteOrder) (resp : RedisClientResp) : Bytes :=
  serializeUint16 order resp.version ++ (serializeInt64 order (Int64.ofBitVec resp.reqId) ++
    (serializeInt8 resp.type ++ (serializeInt32 order resp.rc ++ resp.serializeResult order)))

/-- The result in `redis_client_resp::deserialize`, for a response with its type. -/
def readResult (order : ByteOrder) (resp : RedisClientResp) : StateM Bytes RedisClientResp :=
  if resp.type = RedisClientReqType.execCommandStat.code then do
    let resStat ← deserializeInt8
    pure { resp with resStat := resStat != 0 }
  else if resp.type = RedisClientReqType.execCommandInt.code then do
    let resInt ← deserializeInt64 order
    pure { resp with resInt }
  else if resp.type = RedisClientReqType.execCommandStr.code then do
    let resStr ← deserializeStr order
    pure { resp with resStr }
  else if resp.type = RedisClientReqType.execCommandSA.code then do
    let resSA ← deserializeRow order
    pure { resp with resSA }
  else if resp.type = RedisClientReqType.execCommandSM.code then do
    let resSM ← deserializeStringMap order
    pure { resp with resSM }
  else if resp.type = RedisClientReqType.execCommandSCA.code then do
    let resSCA ← deserializeScoreArray order
    pure { resp with resSCA }
  else pure resp

/-- `redis_client_resp::deserialize` on the buffer of a helper. -/
def read (order : ByteOrder) : StateM Bytes RedisClientResp := do
  let version ← deserializeUint16 order
  let reqId ← deserializeInt64 order
  let type ← deserializeInt8
  let rc ← deserializeInt32 order
  readResult order { version, reqId := reqId.toBitVec, type, rc }

/-- `redis_client_resp::deserialize`. -/
def deserialize (order : ByteOrder) (data : Bytes) : RedisClientResp := ((read order).run data).1

/-- The response with the result that its type selects, every other result at its default. -/
def selected (resp : RedisClientResp) : RedisClientResp where
  version := resp.version
  reqId := resp.reqId
  type := resp.type
  rc := resp.rc
  resStat := if resp.type = RedisClientReqType.execCommandStat.code then resp.resStat else false
  resInt := if resp.type = RedisClientReqType.execCommandInt.code then resp.resInt else 0
  resStr := if resp.type = RedisClientReqType.execCommandStr.code then resp.resStr else []
  resSA := if resp.type = RedisClientReqType.execCommandSA.code then resp.resSA else []
  resSM := if resp.type = RedisClientReqType.execCommandSM.code then resp.resSM else ∅
  resSCA := if resp.type = RedisClientReqType.execCommandSCA.code then resp.resSCA else []

/-- The lengths of the result that the type selects fit. -/
structure Fits (resp : RedisClientResp) : Prop where
  str : resp.type = RedisClientReqType.execCommandStr.code → StrFits resp.resStr
  sa : resp.type = RedisClientReqType.execCommandSA.code → RowFits resp.resSA
  sm : resp.type = RedisClientReqType.execCommandSM.code → StringMapFits resp.resSM
  sca : resp.type = RedisClientReqType.execCommandSCA.code → ScoreArrayFits resp.resSCA

theorem consumes_result (sender receiver : ByteOrder) {resp : RedisClientResp}
    (hfits : resp.Fits) :
    Consumes (readResult receiver ⟨resp.version, resp.reqId, resp.type, resp.rc, false, 0, [], [],
      ∅, []⟩) (resp.serializeResult sender) resp.selected := by
  obtain ⟨version, reqId, type, rc, resStat, resInt, resStr, resSA, resSM, resSCA⟩ := resp
  obtain ⟨hstr, hsa, hsm, hsca⟩ := hfits
  -- One case for each result, and one for the types that select none.
  by_cases hstat : type = RedisClientReqType.execCommandStat.code
  · subst hstat
    have hbyte := (consumes_int8 (if resStat then 1 else 0)).map fun read ↦ RedisClientResp.mk
      version reqId RedisClientReqType.execCommandStat.code rc (read != 0) 0 [] [] ∅ []
    cases resStat with
    | false => exact hbyte
    | true => exact hbyte
  by_cases hint : type = RedisClientReqType.execCommandInt.code
  · subst hint
    exact (consumes_int64 sender receiver resInt).map _
  by_cases hstring : type = RedisClientReqType.execCommandStr.code
  · subst hstring
    exact (consumes_str sender receiver resStr (hstr rfl)).map _
  by_cases harray : type = RedisClientReqType.execCommandSA.code
  · subst harray
    exact (consumes_row sender receiver (hsa rfl)).map _
  by_cases hmap : type = RedisClientReqType.execCommandSM.code
  · subst hmap
    exact (consumes_stringMap sender receiver (hsm rfl)).map _
  by_cases hscores : type = RedisClientReqType.execCommandSCA.code
  · subst hscores
    exact (consumes_scoreArray sender receiver (hsca rfl)).map _
  simp only [serializeResult, readResult, selected, hstat, hint, hstring, harray, hmap, hscores,
    if_false]
  exact consumes_pure _

theorem consumes (sender receiver : ByteOrder) {resp : RedisClientResp} (hfits : resp.Fits) :
    Consumes (read receiver) (resp.serialize sender) resp.selected := by
  refine (consumes_uint16 sender receiver resp.version).bind ?_
  refine (consumes_int64 sender receiver (Int64.ofBitVec resp.reqId)).bind ?_
  refine (consumes_int8 resp.type).bind ?_
  refine (consumes_int32 sender receiver resp.rc).bind ?_
  exact consumes_result sender receiver hfits

end RedisClientResp

/-! ### Round trips -/

/-- Assumes: lengths that fit. Requests come back as they were before the pool gave them an id,
MySQL responses come back whole, and Redis responses with the result that their type selects. -/
theorem clientMessages_roundTrip (sender receiver : ByteOrder) :
    (∀ req : MysqlClientReq, req.Fits →
      MysqlClientReq.deserialize receiver (req.serialize sender) = req.unsubmitted) ∧
    (∀ req : RedisClientReq, req.Fits →
      RedisClientReq.deserialize receiver (req.serialize sender) = req.unsubmitted) ∧
    (∀ resp : MysqlClientResp, resp.Fits →
      MysqlClientResp.deserialize receiver (resp.serialize sender) = resp) ∧
    ∀ resp : RedisClientResp, resp.Fits →
      RedisClientResp.deserialize receiver (resp.serialize sender) = resp.selected :=
  ⟨fun _ hfits ↦ (MysqlClientReq.consumes sender receiver hfits).run',
    fun _ hfits ↦ (RedisClientReq.consumes sender receiver hfits).run',
    fun _ hfits ↦ (MysqlClientResp.consumes sender receiver hfits).run',
    fun _ hfits ↦ (RedisClientResp.consumes sender receiver hfits).run'⟩

theorem clientMessages_roundTrip_statement :
    MysqlClientReq.deserialize .little ((MysqlClientReq.newStatement 3 [0x3F#8]
      [[[0x00#8], []]] (-1) 2 true).serialize .big) =
        MysqlClientReq.newStatement 3 [0x3F#8] [[[0x00#8], []]] (-1) 2 true ∧
      RedisClientResp.deserialize .little (RedisClientResp.serialize .big
        { type := RedisClientReqType.execCommandInt.code, resInt := -5, resStr := [0x61#8] }) =
          { type := RedisClientReqType.execCommandInt.code, resInt := -5 } := by
  obtain ⟨hmysql, -, -, hredis⟩ := clientMessages_roundTrip .big .little
  constructor
  · refine hmysql (MysqlClientReq.newStatement 3 [0x3F#8] [[[0x00#8], []]] (-1) 2 true) ⟨?_, ?_⟩
    · simp [MysqlClientReq.newStatement, StrFits]
    · simp [MysqlClientReq.newStatement, TableFits, RowFits, CountedFits, StrFits]
  · refine hredis
      { type := RedisClientReqType.execCommandInt.code, resInt := -5, resStr := [0x61#8] } ?_
    constructor <;> exact fun htype ↦ absurd htype (by decide)

/-- The statement that is read is the front of the one that was written, as long as its length
field says. -/
theorem sql_deserialize_serialize (sender receiver : ByteOrder) (req : MysqlClientReq) :
    (MysqlClientReq.deserialize receiver (req.serialize sender)).sql =
      req.sql.take (req.sql.length % 2 ^ 32) := by
  rw [MysqlClientReq.deserialize, MysqlClientReq.read, MysqlClientReq.serialize,
    (consumes_uint16 sender receiver req.version).run_bind, (consumes_int8 req.type).run_bind,
    (consumes_uint8 req.dbSlot).run_bind, serializeStr_eq_front, List.append_assoc,
    (consumes_str_front sender receiver req.sql).run_bind]
  suffices hyields : Yields _ fun read : MysqlClientReq ↦
      read.sql = req.sql.take (req.sql.length % 2 ^ 32) from hyields _
  refine Yields.bind fun transaction ↦ ?_
  refine Yields.bind fun stmtParam ↦ ?_
  exact yields_pure rfl

theorem sql_ne_of_length {sql : Bytes} (hlength : sql.length = 2 ^ 32) :
    (MysqlClientReq.deserialize .little
      ((MysqlClientReq.newRealQuery 0 sql false).serialize .little)).sql ≠ sql := by
  rw [sql_deserialize_serialize]
  exact take_front_ne hlength

/-- A statement of 4 GiB of blanks does not come back. -/
theorem sql_lost_at_four_gib :
    (MysqlClientReq.deserialize .little ((MysqlClientReq.newRealQuery 0
      (List.replicate (2 ^ 32) 0x20#8) false).serialize .little)).sql ≠
        List.replicate (2 ^ 32) 0x20#8 :=
  sql_ne_of_length List.length_replicate

end TszyUlt.Wjp
