import TszyUlt.Wjp.ClientMessages

/-!
# The Redis client and its connection

`redis_client::connect` and `redis_client::execCommand` of `wjp/redis_client.hpp`. `execCommand`
connects when there is no context, and gives the command to `redisCommandArgv`. Where that returns
no reply, it connects again and gives the same command once more. A reply of type
`REDIS_REPLY_ERROR` leaves the connection open; an error of the connection closes it.

What hiredis and the server do is a parameter, `LinkOutcome`: for each call of `redisCommandArgv`,
whether the server executes the command, and what comes back. A server may execute a command whose
reply gets lost, and the client cannot tell. `executions_le_one_iff` says when a command is executed
at most once: unless the first reply is lost after the server executed the command, and the server
executes the command that is sent again as well. `SETNX` then returns that it has not set the key
that it has set.

Scope. The error texts and the log are not modelled. The `AUTH` of `connect` is a command of its
own, also where the command is an `AUTH`.
-/

set_option autoImplicit false
set_option relaxedAutoImplicit false

namespace TszyUlt.Wjp

open Lib Zbf

/-! ### Replies and outcomes -/

/-- `redisReply`, by its type. `other` stands for the types that the client does not look for. -/
inductive RedisReply
  | string (str : Bytes)
  | array (elements : List RedisReply)
  | integer (integer : Int64)
  | nil
  | status (str : Bytes)
  | error (str : Bytes)
  | other

/-- The reply has type `REDIS_REPLY_ERROR`. -/
def RedisReply.isError : RedisReply → Bool
  | .error _ => true
  | _ => false

/-- `REDIS_REPLY_ERROR`. -/
def redisReplyError : Int32 := 6

/-- `REDIS_ERR_OOM`. -/
def redisErrOom : Int32 := 5

/-- What becomes of a call of `redisCommandArgv`: whether the server executes the command, the reply
that is returned, `none` for a null pointer, and `err` of the context after it. -/
structure CommandOutcome where
  executed : Bool
  reply : Option RedisReply
  err : Int32

/-- The call returned no reply, or the reply or the context has an error. -/
def CommandOutcome.failed (outcome : CommandOutcome) : Bool :=
  outcome.reply.all RedisReply.isError || outcome.err != 0

/-- What becomes of an attempt to connect. -/
structure ConnectOutcome where
  /-- `redisConnectWithTimeout`: `err` of the context, `none` where it returns a null pointer. -/
  context : Option Int32
  /-- `redisSetTimeout`: `err` of the context where it fails. -/
  setTimeout : Option Int32
  auth : CommandOutcome

/-- The attempt succeeds: there is a context without an error, its timeout is set, and `AUTH` is
accepted where it is sent. -/
def ConnectOutcome.accepted (outcome : ConnectOutcome) (authStr : Bytes) : Bool :=
  outcome.context == some 0 && outcome.setTimeout.isNone &&
    (authStr = [] || !outcome.auth.failed)

/-- What becomes of the calls of hiredis in one call of `execCommand`. -/
structure LinkOutcome where
  connect : ConnectOutcome
  first : CommandOutcome
  reconnect : ConnectOutcome
  second : CommandOutcome

/-- A call of `redisCommandArgv`: by `connect` or by `execCommand`. -/
inductive RedisSent
  | auth (argv : List Bytes) (executed : Bool)
  | command (argv : List Bytes) (executed : Bool)
  deriving DecidableEq, Repr

/-- The server executed a command of `execCommand`. -/
def RedisSent.isExecution : RedisSent → Bool
  | .auth _ _ => false
  | .command _ executed => executed

/-! ### The client -/

/-- `redis_client`: whether it has a context, `_connState`, and `auth_str`. -/
structure RedisConn where
  context : Bool
  connState : Bool
  authStr : Bytes
  deriving DecidableEq, Repr

/-- What `connect` comes to: its value, `*err`, the client, and the commands that were sent. -/
structure ConnectResult where
  rc : Int32
  err : Int32
  conn : RedisConn
  sent : List RedisSent

/-- What `execCommand` comes to: the reply, `*err`, the client, and the commands that were sent. -/
structure ExecResult where
  reply : Option RedisReply
  err : Int32
  conn : RedisConn
  sent : List RedisSent

/-- How often the server executed the command. -/
def ExecResult.executions (result : ExecResult) : ℕ := result.sent.countP RedisSent.isExecution

namespace RedisConn

/-- `close`. -/
def close (conn : RedisConn) : RedisConn := { conn with context := false, connState := false }

/-- `"AUTH"`. -/
def authWord : Bytes := [0x41#8, 0x55#8, 0x54#8, 0x48#8]

/-- `connect`. -/
def connect (conn : RedisConn) (outcome : ConnectOutcome) : ConnectResult :=
  let opened := { conn with context := true, connState := true }
  match outcome.context with
  | none => { rc := -1, err := redisErrOom, conn := conn.close, sent := [] }
  | some err =>
    if err ≠ 0 then { rc := -2, err, conn := conn.close, sent := [] }
    else
      match outcome.setTimeout with
      | some err => { rc := -3, err, conn := conn.close, sent := [] }
      | none =>
        if conn.authStr = [] then { rc := 0, err := 0, conn := opened, sent := [] }
        else
          let sent := [.auth [authWord, conn.authStr] outcome.auth.executed]
          if outcome.auth.failed then
            { rc := -4
              err := if outcome.auth.err ≠ 0 then outcome.auth.err else redisReplyError
              conn := conn.close
              sent }
          else { rc := 0, err := 0, conn := opened, sent }

/-- `execCommand` after the last call of `redisCommandArgv`. -/
def finish (conn : RedisConn) (outcome : CommandOutcome) (sent : List RedisSent) : ExecResult :=
  match outcome.reply with
  | none =>
    { reply := none
      err := if outcome.err ≠ 0 then outcome.err else redisReplyError
      conn := conn.close
      sent }
  | some reply =>
    if outcome.err ≠ 0 then { reply := none, err := outcome.err, conn := conn.close, sent }
    else if reply.isError then { reply := none, err := redisReplyError, conn, sent }
    else { reply := some reply, err := 0, conn := { conn with connState := true }, sent }

/-- The part of `execCommand` from the first `redisCommandArgv` on. -/
def sendCommand (conn : RedisConn) (link : LinkOutcome) (args : List Bytes)
    (before : List RedisSent) : ExecResult :=
  let sent := before ++ [.command args link.first.executed]
  match link.first.reply with
  | some _ => conn.finish link.first sent
  | none =>
    let again := conn.connect link.reconnect
    if again.rc ≠ 0 then
      { reply := none, err := again.err, conn := again.conn, sent := sent ++ again.sent }
    else
      again.conn.finish link.second (sent ++ again.sent ++ [.command args link.second.executed])

/-- `execCommand`. -/
def execCommand (conn : RedisConn) (link : LinkOutcome) (args : List Bytes) : ExecResult :=
  if conn.context then conn.sendCommand link args []
  else
    let opened := conn.connect link.connect
    if opened.rc ≠ 0 then
      { reply := none, err := opened.err, conn := opened.conn, sent := opened.sent }
    else opened.conn.sendCommand link args opened.sent

/-! ### How often a command is executed -/

theorem connect_rc_eq_zero_iff (conn : RedisConn) (outcome : ConnectOutcome) :
    (conn.connect outcome).rc = 0 ↔ outcome.accepted conn.authStr = true := by
  unfold connect ConnectOutcome.accepted
  cases hcontext : outcome.context with
  | none => simp
  | some err =>
    by_cases herr : err = 0
    · subst herr
      cases htimeout : outcome.setTimeout with
      | some err => simp
      | none =>
        by_cases hauth : conn.authStr = []
        · simp [hauth]
        · cases hfailed : outcome.auth.failed <;> simp [hauth]
    · simp [herr]

/-- `connect` keeps the password, and sends no command of `execCommand`. -/
theorem connect_frame (conn : RedisConn) (outcome : ConnectOutcome) :
    (conn.connect outcome).conn.authStr = conn.authStr ∧
      (conn.connect outcome).sent.countP RedisSent.isExecution = 0 := by
  unfold connect
  cases outcome.context with
  | none => exact ⟨rfl, rfl⟩
  | some err =>
    cases outcome.setTimeout with
    | none =>
      dsimp only
      split_ifs <;> exact ⟨rfl, rfl⟩
    | some err' =>
      dsimp only
      split_ifs <;> exact ⟨rfl, rfl⟩

theorem finish_sent (conn : RedisConn) (outcome : CommandOutcome) (sent : List RedisSent) :
    (conn.finish outcome sent).sent = sent := by
  unfold finish
  cases outcome.reply with
  | none => rfl
  | some reply =>
    dsimp only
    split_ifs <;> rfl

theorem countP_command (args : List Bytes) (executed : Bool) :
    [RedisSent.command args executed].countP RedisSent.isExecution = executed.toNat := by
  cases executed <;> rfl

/-- From the first `redisCommandArgv` on, the server executes what it executes of the first command,
and of the second where the first reply is lost and the client can connect again. -/
theorem executions_sendCommand (conn : RedisConn) (link : LinkOutcome) (args : List Bytes)
    {before : List RedisSent} (hbefore : before.countP RedisSent.isExecution = 0) :
    (conn.sendCommand link args before).executions =
      link.first.executed.toNat +
        if link.first.reply.isNone && link.reconnect.accepted conn.authStr then
          link.second.executed.toNat
        else 0 := by
  unfold sendCommand ExecResult.executions
  cases link.first.reply with
  | some reply =>
    rw [finish_sent, List.countP_append, hbefore, countP_command]
    simp
  | none =>
    have hconnect := conn.connect_rc_eq_zero_iff link.reconnect
    dsimp only
    by_cases haccepted : link.reconnect.accepted conn.authStr = true
    · rw [if_neg (not_not.mpr (hconnect.mpr haccepted)), finish_sent, List.countP_append,
        List.countP_append, List.countP_append, hbefore, countP_command, countP_command,
        (connect_frame _ _).2, haccepted]
      simp
    · rw [if_pos (mt hconnect.mp haccepted), List.countP_append, List.countP_append, hbefore,
        countP_command, (connect_frame _ _).2, eq_false_of_ne_true haccepted]
      simp

/-- The client gets to the first `redisCommandArgv`. -/
def reaches (conn : RedisConn) (link : LinkOutcome) : Bool :=
  conn.context || link.connect.accepted conn.authStr

/-- How often the server executes the command of a call of `execCommand`. -/
theorem executions_execCommand (conn : RedisConn) (link : LinkOutcome) (args : List Bytes) :
    (conn.execCommand link args).executions =
      if conn.reaches link then
        link.first.executed.toNat +
          if link.first.reply.isNone && link.reconnect.accepted conn.authStr then
            link.second.executed.toNat
          else 0
      else 0 := by
  unfold execCommand reaches
  by_cases hcontext : conn.context = true
  · rw [if_pos hcontext, hcontext, Bool.true_or, if_pos rfl]
    exact conn.executions_sendCommand link args rfl
  · rw [if_neg hcontext, eq_false_of_ne_true hcontext, Bool.false_or]
    have hconnect := conn.connect_rc_eq_zero_iff link.connect
    by_cases haccepted : link.connect.accepted conn.authStr = true
    · have hsend := (conn.connect link.connect).conn.executions_sendCommand link args
        (conn.connect_frame link.connect).2
      rw [(conn.connect_frame link.connect).1] at hsend
      simp only [hconnect.mpr haccepted, ne_eq, not_true_eq_false, if_false, if_pos haccepted]
      exact hsend
    · simp only [ne_eq, mt hconnect.mp haccepted, not_false_eq_true, if_true, if_neg haccepted]
      exact (conn.connect_frame link.connect).2

/-- One call of `execCommand` makes the server execute the command at most once if and only if it
is not so that the server executes the command, the reply to it is lost, the client connects again,
and the server executes the command that is sent again. It is executed at most twice in any case. -/
theorem executions_le_one_iff (conn : RedisConn) (link : LinkOutcome) (args : List Bytes) :
    ((conn.execCommand link args).executions ≤ 1 ↔
      ¬(conn.reaches link = true ∧ link.first.executed = true ∧ link.first.reply = none ∧
        link.reconnect.accepted conn.authStr = true ∧ link.second.executed = true)) ∧
    (conn.execCommand link args).executions ≤ 2 := by
  rw [executions_execCommand]
  cases conn.reaches link <;> cases link.first.executed <;> cases link.first.reply <;>
    cases link.reconnect.accepted conn.authStr <;> cases link.second.executed <;> simp

/-- A connection that is lost after the server set the key, and a second `SETNX` that finds it
set. -/
def setnxLink : LinkOutcome where
  connect := { context := none, setTimeout := none, auth := ⟨false, none, 1⟩ }
  first := { executed := true, reply := none, err := 1 }
  reconnect := { context := some 0, setTimeout := none, auth := ⟨false, none, 0⟩ }
  second := { executed := true, reply := some (.integer 0), err := 0 }

/-- `SETNX k v` is executed twice when the reply to the first is lost. -/
theorem not_executions_le_one_setnx :
    ¬∀ (conn : RedisConn) (link : LinkOutcome) (args : List Bytes),
      (conn.execCommand link args).executions ≤ 1 := by
  intro hall
  have htwice : ((⟨true, true, []⟩ : RedisConn).execCommand setnxLink
      [[0x53#8, 0x45#8, 0x54#8, 0x4E#8, 0x58#8], [0x6B#8], [0x76#8]]).executions = 2 := by
    decide
  have honce := hall ⟨true, true, []⟩ setnxLink
    [[0x53#8, 0x45#8, 0x54#8, 0x4E#8, 0x58#8], [0x6B#8], [0x76#8]]
  rw [htwice] at honce
  exact absurd honce (by decide)

end RedisConn

end TszyUlt.Wjp
