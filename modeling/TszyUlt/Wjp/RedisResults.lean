import TszyUlt.Wjp.ClientPool
import TszyUlt.Wjp.RedisCommand

/-!
# The results of Redis commands

`redis_client::execCommandStat`, `execCommandInt`, `execCommandStr`, `execCommandSA`,
`execCommandSM` and `execCommandSCA` of `wjp/redis_client.hpp`, with `MGET` and `HMGET`. Each takes
what `execCommand` returned, converts a reply of the type it expects, and sets `ec`
(`ExecResult.convert`).

The integer of a reply has 64 bits, and so has `resInt` of the response, but `execCommandInt` keeps
it in an `int` in between: `intReply_survives_iff` says which integers arrive. The loop of
`execCommandSA` leaves out the elements that are nil, where the loops of the other two put an empty
string: `multiRead_aligned_iff` says when the values of a read of several keys are at the places of
their keys.

Scope. `strtod` and the conversion of an integer to a `double` are parameters; scores are their bit
patterns.
-/

set_option autoImplicit false
set_option relaxedAutoImplicit false

namespace TszyUlt.Wjp

open Lib Zbf Fszm Lygc

/-! ### Conversions -/

/-- `ExecSuccess`. -/
def execSuccess : Int32 := 0

/-- `ExecKeyNotExist`. -/
def execKeyNotExist : Int32 := 10001

/-- `ExecUnexpectedType`. -/
def execUnexpectedType : Int32 := 10002

/-- `std::to_string` of a `long long`. -/
def decimal (val : Int64) : Bytes :=
  (toString val.toInt).toList.map fun digit ↦ BitVec.ofNat 8 digit.toNat

/-- What the six functions have in common: the result and `ec` for what `execCommand` returned,
where `value` converts a reply of the type that is expected. -/
def ExecResult.convert {α : Type} (result : ExecResult) (default : α)
    (value : RedisReply → Option α) : α × Int32 :=
  match result.reply with
  | none => (default, result.err)
  | some .nil => (default, execKeyNotExist)
  | some reply =>
    match value reply with
    | some val => (val, execSuccess)
    | none => (default, execUnexpectedType)

namespace RedisReply

/-- A status that begins with `OK`. -/
def statValue : RedisReply → Option Bool
  | .status str => some (str.take 2 = [0x4F#8, 0x4B#8])
  | _ => none

/-- The integer, as the `int` that `execCommandInt` returns. -/
def intValue : RedisReply → Option Int32
  | .integer val => some val.toInt32
  | _ => none

def strValue : RedisReply → Option Bytes
  | .string str => some str
  | _ => none

/-- What the loop of `execCommandSA` appends for an element. A nil is ignored. -/
def elementStr : RedisReply → Option Bytes
  | .string str => some str
  | .integer val => some (decimal val)
  | _ => none

def saValue : RedisReply → Option DataRow
  | .array elements => some (elements.filterMap elementStr)
  | _ => none

/-- The order of the keys of a `StringMap`. -/
instance transCmp_compareBytes : Std.TransCmp (compare : Bytes → Bytes → Ordering) := inferInstance

/-- The loop of `execCommandSM` on one element: the key, and the map. A nil is an empty string. -/
def smStep (state : Bytes × StringMap) (element : RedisReply × ℕ) : Bytes × StringMap :=
  let store (str : Bytes) : Bytes × StringMap :=
    if element.2 % 2 = 0 then (str, state.2) else (state.1, state.2.insert state.1 str)
  match element.1 with
  | .string str => store str
  | .integer val => store (decimal val)
  | .nil => store []
  | _ => state

def smValue : RedisReply → Option StringMap
  | .array elements => some (elements.zipIdx.foldl smStep ([], ∅)).2
  | _ => none

/-- The conversions to `double`. -/
structure Doubles where
  strtod : Bytes → BitVec 64
  ofInteger : Int64 → BitVec 64

/-- The loop of `execCommandSCA` on one element: the member, and the scores. A nil is an empty
member, or the score zero of a member that is not empty. -/
def scaStep (doubles : Doubles) (state : Bytes × ScoreArray) (element : RedisReply × ℕ) :
    Bytes × ScoreArray :=
  match element.1 with
  | .string str =>
    if element.2 % 2 = 0 then (str, state.2)
    else (state.1, state.2 ++ [(doubles.strtod (cStr str), state.1)])
  | .integer val =>
    if element.2 % 2 = 0 then (decimal val, state.2)
    else (state.1, state.2 ++ [(doubles.ofInteger val, state.1)])
  | .nil =>
    if element.2 % 2 = 0 then ([], state.2)
    else if state.1 = [] then state
    else (state.1, state.2 ++ [(0, state.1)])
  | _ => state

def scaValue (doubles : Doubles) : RedisReply → Option ScoreArray
  | .array elements => some (elements.zipIdx.foldl (scaStep doubles) ([], [])).2
  | _ => none

end RedisReply

/-! ### The commands -/

namespace RedisConn

/-- `"WITHSCORES"`. -/
def withScores : Bytes :=
  [0x57#8, 0x49#8, 0x54#8, 0x48#8, 0x53#8, 0x43#8, 0x4F#8, 0x52#8, 0x45#8, 0x53#8]

/-- A client on a connection, for one request. -/
def client (conn : RedisConn) (link : LinkOutcome) (doubles : RedisReply.Doubles) :
    RedisClient where
  execCommandStat := fun args ↦ (conn.execCommand link args).convert false RedisReply.statValue
  execCommandInt := fun args ↦ (conn.execCommand link args).convert 0 RedisReply.intValue
  execCommandStr := fun args ↦ (conn.execCommand link args).convert [] RedisReply.strValue
  execCommandSA := fun args ↦ (conn.execCommand link args).convert [] RedisReply.saValue
  execCommandSM := fun args ↦ (conn.execCommand link args).convert ∅ RedisReply.smValue
  execCommandSCA := fun args ↦
    (conn.execCommand link (args ++ [withScores])).convert [] (RedisReply.scaValue doubles)

end RedisConn

/-- `redis_client::MGET`. -/
def RedisClient.MGET (client : RedisClient) (keys : List Bytes) : DataRow × Int32 :=
  client.execCommandSA ([0x4D#8, 0x47#8, 0x45#8, 0x54#8] :: keys)

/-- `redis_client::HMGET`. -/
def RedisClient.HMGET (client : RedisClient) (key : Bytes) (fields : List Bytes) :
    DataRow × Int32 :=
  client.execCommandSA ([0x48#8, 0x4D#8, 0x47#8, 0x45#8, 0x54#8] :: key :: fields)

namespace RedisConn

/-! ### Replies that arrive -/

/-- The server returns the reply, to the command that is sent first, or to the one that is sent
again after no reply came to the first. -/
def Answered (conn : RedisConn) (link : LinkOutcome) (reply : RedisReply) : Prop :=
  conn.reaches link = true ∧
    (link.first.reply = some reply ∧ link.first.err = 0 ∨
      link.first.reply = none ∧ link.reconnect.accepted conn.authStr = true ∧
        link.second.reply = some reply ∧ link.second.err = 0)

variable {conn : RedisConn} {link : LinkOutcome} {reply : RedisReply}

theorem reply_finish (hreply : reply.isError = false) {outcome : CommandOutcome}
    (houtcome : outcome.reply = some reply) (herr : outcome.err = 0) (sent : List RedisSent) :
    (conn.finish outcome sent).reply = some reply := by
  simp [finish, houtcome, herr, hreply]

theorem reply_sendCommand (hreply : reply.isError = false) (args : List Bytes)
    (before : List RedisSent)
    (hanswer : link.first.reply = some reply ∧ link.first.err = 0 ∨
      link.first.reply = none ∧ link.reconnect.accepted conn.authStr = true ∧
        link.second.reply = some reply ∧ link.second.err = 0) :
    (conn.sendCommand link args before).reply = some reply := by
  unfold sendCommand
  rcases hanswer with ⟨hfirst, herr⟩ | ⟨hlost, haccepted, hsecond, herr⟩
  · rw [hfirst]
    exact reply_finish hreply hfirst herr _
  · rw [hlost]
    dsimp only
    rw [if_neg (not_not.mpr ((conn.connect_rc_eq_zero_iff link.reconnect).mpr haccepted))]
    exact reply_finish hreply hsecond herr _

/-- Assumes: the server returns a reply that is no error. `execCommand` returns it. -/
theorem reply_execCommand (hreply : reply.isError = false) (hanswer : conn.Answered link reply)
    (args : List Bytes) : (conn.execCommand link args).reply = some reply := by
  obtain ⟨hreaches, hanswer⟩ := hanswer
  unfold execCommand
  by_cases hcontext : conn.context = true
  · rw [if_pos hcontext]
    exact reply_sendCommand hreply args [] hanswer
  · rw [if_neg hcontext]
    have haccepted : link.connect.accepted conn.authStr = true := by
      rwa [reaches, eq_false_of_ne_true hcontext, Bool.false_or] at hreaches
    dsimp only
    rw [if_neg (not_not.mpr ((conn.connect_rc_eq_zero_iff link.connect).mpr haccepted))]
    refine reply_sendCommand hreply args _ ?_
    rwa [(conn.connect_frame _).1]

end RedisConn

/-! ### Integers -/

/-- An integer of 64 bits survives an `int` if 32 bits are enough for it. -/
theorem toInt64_toInt32_eq_iff (val : Int64) :
    val.toInt32.toInt64 = val ↔ -2 ^ 31 ≤ val.toInt ∧ val.toInt < 2 ^ 31 := by
  rw [← Int64.toInt_inj, Int32.toInt_toInt64, Int64.toInt_toInt32]
  constructor
  · intro hsame
    have hlow := Int.le_bmod (x := val.toInt) (m := 2 ^ 32) (by decide)
    have hhigh := Int.bmod_lt (x := val.toInt) (m := 2 ^ 32) (by decide)
    rw [hsame] at hlow hhigh
    omega
  · rintro ⟨hlow, hhigh⟩
    exact Int.bmod_eq_of_le (by omega) (by omega)

section Integers

variable (sender receiver : ByteOrder) (conn : RedisConn) (link : LinkOutcome)
  (doubles : RedisReply.Doubles) (reqId : RequestId) {req : RedisClientReq} {val : Int64}

/-- The response to an integer command whose reply arrives. -/
theorem handleRequest_intReply (htype : req.type = RedisClientReqType.execCommandInt.code)
    (hanswer : conn.Answered link (.integer val)) :
    (conn.client link doubles).handleRequest reqId req =
      [{ reqId, type := RedisClientReqType.execCommandInt.code, rc := 0
         resInt := val.toInt32.toInt64 }] := by
  have hint : (conn.client link doubles).execCommandInt req.argv = (val.toInt32, 0) := by
    have hreply := RedisConn.reply_execCommand rfl hanswer req.argv
    show (conn.execCommand link req.argv).convert 0 RedisReply.intValue = _
    rw [ExecResult.convert, hreply]
    rfl
  have hstat : ¬req.type = RedisClientReqType.execCommandStat.code := by
    rw [htype]
    decide
  rw [RedisClient.handleRequest, if_neg hstat, if_pos htype, hint, htype]
  rfl

/-- Such a response is read as it was written. -/
theorem deserialize_intResp (resInt : Int64) :
    RedisClientResp.deserialize receiver (RedisClientResp.serialize sender
        { reqId, type := RedisClientReqType.execCommandInt.code, rc := 0, resInt }) =
      { reqId, type := RedisClientReqType.execCommandInt.code, rc := 0, resInt } := by
  have hother : ∀ type : RedisClientReqType, type ≠ .execCommandInt →
      RedisClientReqType.execCommandInt.code ≠ type.code := by
    intro type
    cases type <;> decide
  refine (RedisClientResp.consumes sender receiver ?_).run'
  exact ⟨fun heq ↦ absurd heq (hother .execCommandStr nofun),
    fun heq ↦ absurd heq (hother .execCommandSA nofun),
    fun heq ↦ absurd heq (hother .execCommandSM nofun),
    fun heq ↦ absurd heq (hother .execCommandSCA nofun)⟩

/-- Assumes: the server returns an integer to the command of an `execCommandInt` request. The
requester gets one response, with `rc` zero, and with this integer if and only if 32 bits are enough
for it. -/
theorem intReply_survives_iff (htype : req.type = RedisClientReqType.execCommandInt.code)
    (hanswer : conn.Answered link (.integer val)) :
    (∃ resp, (conn.client link doubles).handleRequest reqId req = [resp] ∧
        (RedisClientResp.deserialize receiver (resp.serialize sender)).rc = 0 ∧
        (RedisClientResp.deserialize receiver (resp.serialize sender)).resInt = val) ↔
      -2 ^ 31 ≤ val.toInt ∧ val.toInt < 2 ^ 31 := by
  rw [handleRequest_intReply conn link doubles reqId htype hanswer, ← toInt64_toInt32_eq_iff]
  constructor
  · rintro ⟨resp, hresp, -, hval⟩
    rw [← List.singleton_inj.mp hresp, deserialize_intResp] at hval
    exact hval
  · intro hval
    refine ⟨_, rfl, ?_⟩
    rw [deserialize_intResp]
    exact ⟨rfl, hval⟩

/-- A connection on which the server returns an integer. -/
def integerLink (val : Int64) : LinkOutcome where
  connect := { context := none, setTimeout := none, auth := ⟨false, none, 1⟩ }
  first := { executed := true, reply := some (.integer val), err := 0 }
  reconnect := { context := none, setTimeout := none, auth := ⟨false, none, 1⟩ }
  second := { executed := false, reply := none, err := 1 }

theorem answered_integerLink (val : Int64) :
    RedisConn.Answered ⟨true, true, []⟩ (integerLink val) (.integer val) :=
  ⟨rfl, Or.inl ⟨rfl, rfl⟩⟩

/-- An `INCR n`. -/
def incrReq : RedisClientReq where
  type := RedisClientReqType.execCommandInt.code
  argv := [[0x49#8, 0x4E#8, 0x43#8, 0x52#8], [0x6E#8]]

theorem intReply_survives_iff_small :
    ∃ resp,
      (RedisConn.client ⟨true, true, []⟩ (integerLink 41) ⟨fun _ ↦ 0, fun _ ↦ 0⟩).handleRequest
        7 incrReq = [resp] ∧
      (RedisClientResp.deserialize .little (resp.serialize .big)).rc = 0 ∧
      (RedisClientResp.deserialize .little (resp.serialize .big)).resInt = 41 :=
  (intReply_survives_iff .big .little ⟨true, true, []⟩ (integerLink 41) ⟨fun _ ↦ 0, fun _ ↦ 0⟩ 7
    rfl (answered_integerLink 41)).mpr (by decide)

/-- An `INCR` that returns 2 ^ 31 is reported as another number. -/
theorem not_intReply_survives_two_pow :
    ¬∀ (val : Int64) (req : RedisClientReq) (link : LinkOutcome),
      req.type = RedisClientReqType.execCommandInt.code →
      RedisConn.Answered ⟨true, true, []⟩ link (.integer val) →
      ∃ resp, (RedisConn.client ⟨true, true, []⟩ link ⟨fun _ ↦ 0, fun _ ↦ 0⟩).handleRequest 7 req =
          [resp] ∧
        (RedisClientResp.deserialize .little (resp.serialize .big)).rc = 0 ∧
        (RedisClientResp.deserialize .little (resp.serialize .big)).resInt = val := by
  intro hall
  obtain ⟨resp, hresp, -, hval⟩ := hall 0x80000000 incrReq (integerLink 0x80000000) rfl
    (answered_integerLink _)
  rw [handleRequest_intReply _ _ _ _ rfl (answered_integerLink _)] at hresp
  rw [← List.singleton_inj.mp hresp, deserialize_intResp] at hval
  exact absurd hval (by decide)

end Integers

/-! ### Reads of several keys -/

/-- The reply of the server to a read of several keys: for each key its value, or nil. -/
def multiReply (found : Bytes → Option Bytes) (keys : List Bytes) : RedisReply :=
  .array (keys.map fun key ↦ (found key).elim .nil .string)

/-- The values that were found, without gaps, are at the places of their keys if and only if there
are no gaps. -/
theorem filterMap_eq_map_getD_iff (found : Bytes → Option Bytes) (keys : List Bytes) :
    keys.filterMap found = keys.map (fun key ↦ (found key).getD []) ↔
      ∀ key ∈ keys, (found key).isSome = true := by
  constructor
  · intro heq
    have hlength := congrArg List.length heq
    rw [List.length_map, List.length_filterMap_eq_countP, List.countP_eq_length] at hlength
    exact hlength
  · intro hall
    induction keys with
    | nil => rfl
    | cons key keys ih =>
      obtain ⟨value, hvalue⟩ := Option.isSome_iff_exists.mp (hall key List.mem_cons_self)
      rw [List.filterMap_cons_some hvalue, List.map_cons, hvalue, Option.getD_some,
        ih fun other hother ↦ hall other (List.mem_cons_of_mem key hother)]

/-- `execCommandSA` keeps of such a reply the values that were found. -/
theorem filterMap_elementStr (found : Bytes → Option Bytes) (keys : List Bytes) :
    (keys.map fun key ↦ (found key).elim RedisReply.nil .string).filterMap RedisReply.elementStr =
      keys.filterMap found := by
  rw [List.filterMap_map]
  refine congrArg (List.filterMap · keys) (funext fun key ↦ ?_)
  rw [Function.comp_apply]
  cases found key with
  | none => rfl
  | some value => rfl

section Reads

variable {conn : RedisConn} {link : LinkOutcome} (doubles : RedisReply.Doubles)
  {found : Bytes → Option Bytes} {keys : List Bytes}

theorem execCommandSA_multiReply (hanswer : conn.Answered link (multiReply found keys))
    (args : List Bytes) :
    (conn.client link doubles).execCommandSA args = (keys.filterMap found, execSuccess) := by
  have hreply := RedisConn.reply_execCommand rfl hanswer args
  show (conn.execCommand link args).convert [] RedisReply.saValue = _
  rw [ExecResult.convert, hreply, ← filterMap_elementStr]
  rfl

/-- Assumes: the server returns the values of the keys, or of the fields of a hash, to the command.
`MGET` and `HMGET` succeed, and return a value or an empty string at the place of each key if and
only if no key is missing. -/
theorem multiRead_aligned_iff (hanswer : conn.Answered link (multiReply found keys))
    (hash : Bytes) :
    (((conn.client link doubles).MGET keys).2 = execSuccess ∧
      (((conn.client link doubles).MGET keys).1 = keys.map (fun key ↦ (found key).getD []) ↔
        ∀ key ∈ keys, (found key).isSome = true)) ∧
    (((conn.client link doubles).HMGET hash keys).2 = execSuccess ∧
      (((conn.client link doubles).HMGET hash keys).1 = keys.map (fun key ↦ (found key).getD []) ↔
        ∀ key ∈ keys, (found key).isSome = true)) := by
  have hiff := filterMap_eq_map_getD_iff found keys
  unfold RedisClient.MGET RedisClient.HMGET
  rw [execCommandSA_multiReply doubles hanswer, execCommandSA_multiReply doubles hanswer]
  exact ⟨⟨rfl, hiff⟩, rfl, hiff⟩

end Reads

/-- The value of the key `a`, and of no other. -/
def onlyA (key : Bytes) : Option Bytes := if key = [0x61#8] then some [0x31#8] else none

/-- A connection on which the server returns the values of keys. -/
def readLink (keys : List Bytes) : LinkOutcome where
  connect := { context := none, setTimeout := none, auth := ⟨false, none, 1⟩ }
  first := { executed := true, reply := some (multiReply onlyA keys), err := 0 }
  reconnect := { context := none, setTimeout := none, auth := ⟨false, none, 1⟩ }
  second := { executed := false, reply := none, err := 1 }

theorem answered_readLink (keys : List Bytes) :
    RedisConn.Answered ⟨true, true, []⟩ (readLink keys) (multiReply onlyA keys) :=
  ⟨rfl, Or.inl ⟨rfl, rfl⟩⟩

theorem multiRead_aligned_iff_present :
    ((RedisConn.client ⟨true, true, []⟩ (readLink [[0x61#8]]) ⟨fun _ ↦ 0, fun _ ↦ 0⟩).MGET
      [[0x61#8]]).1 = [[0x31#8]] :=
  (multiRead_aligned_iff ⟨fun _ ↦ 0, fun _ ↦ 0⟩ (answered_readLink [[0x61#8]]) []).1.2.mpr
    (by decide)

/-- With the first of two keys missing, the value of the second is at the place of the first. -/
theorem not_multiRead_aligned_missing :
    ¬∀ (keys : List Bytes) (found : Bytes → Option Bytes) (link : LinkOutcome),
      RedisConn.Answered ⟨true, true, []⟩ link (multiReply found keys) →
      ((RedisConn.client ⟨true, true, []⟩ link ⟨fun _ ↦ 0, fun _ ↦ 0⟩).MGET keys).1 =
        keys.map fun key ↦ (found key).getD [] := by
  intro hall
  have haligned := hall [[0x62#8], [0x61#8]] onlyA (readLink [[0x62#8], [0x61#8]])
    (answered_readLink _)
  exact absurd haligned (by decide)

end TszyUlt.Wjp
