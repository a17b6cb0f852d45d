import TszyUlt.Lygc.GateServer

/-!
# Which handler gets a request

`lygc/net_server.hpp`: `NetUser::onRecvMsg` and `onRequest`. A connection looks up the user handler
of a request by the origin in its header, and keeps the handler it has found. From then on every
request of the connection goes to that handler, whatever its origin: a request is passed to the
handler of its own origin exactly as long as all the requests since the first one with a handler
have the same one (`routed_eq_iff`).

`keepFirst` is such a lookup in general: the first result is the result of all later lookups.
`netOnRequest_handler` says that the connections of the gateway keep their handler in the same way.

Scope. The user handlers are not modelled: they return any of the three results. The handlers are
registered before the connection, so the table does not change.
-/

set_option autoImplicit false
set_option relaxedAutoImplicit false

namespace TszyUlt.Lygc

open Lib Zbf Fszm

/-! ### A lookup that keeps its first result -/

section KeepFirst

variable {K V : Type*} (lookup : K → Option V)

/-- The results of looking up keys one after the other, if the first result is kept. -/
def keepFirst : Option V → List K → List (Option V)
  | _, [] => []
  | kept, key :: keys =>
    kept.or (lookup key) :: keepFirst (kept.or (lookup key)) keys

@[simp] theorem length_keepFirst (kept : Option V) (keys : List K) :
    (keepFirst lookup kept keys).length = keys.length := by
  induction keys generalizing kept with
  | nil => rfl
  | cons key keys ih => exact congrArg (· + 1) (ih _)

variable {lookup}

/-- Once a result is kept, the lookups are right as long as they all have that result. -/
theorem keepFirst_some_eq_iff {value : V} {keys : List K} :
    keepFirst lookup (some value) keys = keys.map lookup ↔
      ∀ key ∈ keys, lookup key = some value := by
  induction keys with
  | nil => simp [keepFirst]
  | cons key keys ih =>
    rw [keepFirst, Option.some_or, List.map_cons, List.cons.injEq, ih, List.forall_mem_cons,
      eq_comm]

/-- The lookups are right exactly if no key behind a key with a result has another one, or none. -/
theorem keepFirst_none_eq_iff {keys : List K} :
    keepFirst lookup none keys = keys.map lookup ↔
      keys.Pairwise fun first later ↦
        ∀ value, lookup first = some value → lookup later = some value := by
  induction keys with
  | nil => simp [keepFirst]
  | cons key keys ih =>
    rw [keepFirst, Option.none_or, List.map_cons, List.cons.injEq, List.pairwise_cons]
    cases hkey : lookup key with
    | none => simp [ih]
    | some value =>
      rw [keepFirst_some_eq_iff]
      constructor
      · rintro ⟨-, hall⟩
        refine ⟨fun later hlater other hother ↦ Option.some.inj hother ▸ hall later hlater, ?_⟩
        refine List.pairwise_of_forall_mem_list fun first hfirst later hlater other hother ↦ ?_
        rw [hall later hlater, ← hall first hfirst, hother]
      · rintro ⟨hfirst, -⟩
        exact ⟨rfl, fun later hlater ↦ hfirst later hlater value rfl⟩

end KeepFirst

/-! ### Connections -/

variable {UserHandler : Type*}

/-- A call of `NetUser::onRequest`: the request, and the handler it was passed to. -/
structure Routing (UserHandler : Type*) where
  reqHeader : LymsgHeader
  reqData : Bytes
  handler : Option UserHandler
  deriving DecidableEq, Repr

/-- `NetUser`: its `_handler`, and what an observer records: where the requests went and the answers
that were posted. -/
structure NetUser (UserHandler : Type*) where
  handler : Option UserHandler
  routed : List (Routing UserHandler)
  posted : List TcpMessage

/-- What does not change: the byte order of the host, and the origin and the user handlers of the
server. -/
structure NetConfig (UserHandler : Type*) where
  order : ByteOrder
  baseOrigin : BitVec 16
  userHandlers : Table (BitVec 16) UserHandler

/-- `registerUserHandler`: a later handler of an origin replaces the earlier one. -/
def registerUserHandler (userHandlers : Table (BitVec 16) UserHandler) (origin : BitVec 16)
    (handler : UserHandler) : Table (BitVec 16) UserHandler :=
  Function.update userHandlers origin (some handler)

namespace NetUser

/-- A connection that was just accepted. -/
def new : NetUser UserHandler := ⟨none, [], []⟩

/-- `NetUser::onRequest`, with what the user handler returns if it is called. -/
def onRequest (config : NetConfig UserHandler) (user : NetUser UserHandler)
    (reqHeader : LymsgHeader) (reqData : Bytes) (result : RespType) : NetUser UserHandler :=
  match user.handler.or (config.userHandlers reqHeader.origin) with
  | none => { user with routed := user.routed ++ [⟨reqHeader, reqData, none⟩] }
  | some handler =>
    { handler := some handler
      routed := user.routed ++ [⟨reqHeader, reqData, some handler⟩]
      posted := user.posted ++
        match result with
        | .syncResponse respData =>
          [createResponse config.order config.baseOrigin reqHeader respData]
        | .noResponse => [createResponse config.order config.baseOrigin reqHeader []]
        | .asyncResponse => [] }

/-- `NetUser::onRecvMsg`. -/
def onRecvMsg (config : NetConfig UserHandler) (user : NetUser UserHandler)
    (received : TcpMessage × RespType) : NetUser UserHandler :=
  match unpackMsg config.order received.1 with
  | .ok (reqHeader, reqData) => user.onRequest config reqHeader reqData received.2
  | .error _ => user

/-- The requests among messages: those that can be unpacked. -/
def requestsOf (config : NetConfig UserHandler) (received : List (TcpMessage × RespType)) :
    List (LymsgHeader × Bytes) :=
  received.filterMap fun one ↦ (unpackMsg config.order one.1).toOption

/-- The requests, each passed to the handler of its own origin. -/
def byOrigin (config : NetConfig UserHandler) (requests : List (LymsgHeader × Bytes)) :
    List (Routing UserHandler) :=
  requests.map fun request ↦ ⟨request.1, request.2, config.userHandlers request.1.origin⟩

variable (config : NetConfig UserHandler) (user : NetUser UserHandler)

theorem onRequest_handler (reqHeader : LymsgHeader) (reqData : Bytes) (result : RespType) :
    (user.onRequest config reqHeader reqData result).handler =
      user.handler.or (config.userHandlers reqHeader.origin) := by
  unfold onRequest
  split
  next hnone => rw [hnone, (Option.or_eq_none_iff.mp hnone).1]
  next handler hsome => exact hsome.symm

theorem onRequest_routed (reqHeader : LymsgHeader) (reqData : Bytes) (result : RespType) :
    (user.onRequest config reqHeader reqData result).routed =
      user.routed ++
        [⟨reqHeader, reqData, user.handler.or (config.userHandlers reqHeader.origin)⟩] := by
  unfold onRequest
  split
  next hnone => rw [hnone]
  next handler hsome => rw [hsome]

/-- The requests with the handlers they are assigned to. -/
def assign (requests : List (LymsgHeader × Bytes)) (handlers : List (Option UserHandler)) :
    List (Routing UserHandler) :=
  List.zipWith (fun request handler ↦ ⟨request.1, request.2, handler⟩) requests handlers

/-- Two assignments of handlers to the same requests differ if the handlers do. -/
theorem assign_inj {requests : List (LymsgHeader × Bytes)}
    {first second : List (Option UserHandler)} (hfirst : first.length = requests.length)
    (hsecond : second.length = requests.length) :
    assign requests first = assign requests second ↔ first = second := by
  induction requests generalizing first second with
  | nil => simp [List.length_eq_zero_iff.mp hfirst, List.length_eq_zero_iff.mp hsecond]
  | cons request requests ih =>
    obtain ⟨handler, first, rfl⟩ := List.exists_cons_of_length_eq_add_one hfirst
    obtain ⟨other, second, rfl⟩ := List.exists_cons_of_length_eq_add_one hsecond
    have hrest := ih (Nat.succ.inj hfirst) (Nat.succ.inj hsecond)
    rw [assign, assign] at hrest
    rw [assign, assign, List.zipWith_cons_cons, List.zipWith_cons_cons, List.cons.injEq,
      List.cons.injEq, hrest]
    simp

theorem byOrigin_eq_assign (requests : List (LymsgHeader × Bytes)) :
    byOrigin config requests =
      assign requests ((requests.map (·.1.origin)).map config.userHandlers) := by
  rw [assign, List.map_map, List.zipWith_map_right, List.zipWith_self]
  rfl

/-- The requests go where the lookup that keeps its first result sends them. -/
theorem foldl_onRecvMsg_routed (received : List (TcpMessage × RespType)) :
    (received.foldl (onRecvMsg config) user).routed =
      user.routed ++ assign (requestsOf config received)
        (keepFirst config.userHandlers user.handler
          ((requestsOf config received).map (·.1.origin))) := by
  induction received generalizing user with
  | nil => simp [requestsOf, assign]
  | cons one received ih =>
    rw [List.foldl_cons, ih]
    cases hunpack : unpackMsg config.order one.1 with
    | error code => simp [onRecvMsg, requestsOf, hunpack, Except.toOption]
    | ok request =>
      obtain ⟨reqHeader, reqData⟩ := request
      simp [onRecvMsg, requestsOf, hunpack, Except.toOption, onRequest_handler, onRequest_routed,
        keepFirst, assign]

/-- On every connection each request is passed to the handler registered for its own origin, and to
none if there is none, exactly if no request behind one whose origin has a handler has an origin
with another handler or with none. -/
theorem routed_eq_iff (received : List (TcpMessage × RespType)) :
    (received.foldl (onRecvMsg config) new).routed =
        byOrigin config (requestsOf config received) ↔
      (requestsOf config received).Pairwise fun first later ↦
        ∀ handler, config.userHandlers first.1.origin = some handler →
          config.userHandlers later.1.origin = some handler := by
  rw [foldl_onRecvMsg_routed, byOrigin_eq_assign]
  exact (assign_inj (by simp) (by simp)).trans (keepFirst_none_eq_iff.trans List.pairwise_map)

/-- Two services with a handler each send a request on one connection: the second request is passed
to the handler of the first. -/
theorem routed_twoOrigins :
    let config : NetConfig ℕ :=
      ⟨.little, 9#16, registerUserHandler (registerUserHandler Table.empty 1#16 10) 2#16 20⟩
    let first : LymsgHeader := ⟨1#16, 0#16, 1#32, 7#64, 0#32⟩
    let second : LymsgHeader := ⟨2#16, 0#16, 1#32, 8#64, 0#32⟩
    let received := [(packMsg .little first [], .noResponse),
      (packMsg .little second [], .noResponse)]
    let destination : Routing ℕ → BitVec 16 × Option ℕ := fun routing ↦
      (routing.reqHeader.origin, routing.handler)
    ((received.foldl (onRecvMsg config) new).routed.map destination =
        [(1#16, some 10), (2#16, some 10)]) ∧
      (byOrigin config (requestsOf config received)).map destination =
        [(1#16, some 10), (2#16, some 20)] := by
  decide +kernel

end NetUser

/-! ### The gateway -/

/-- A connection of the gateway keeps its handler in the same way. -/
theorem GateConn.netOnRequest_handler {Pkey : Type*} (evp : Evp Pkey)
    (config : GateConfig UserHandler) (conn : GateConn Pkey UserHandler) (reqHeader : LymsgHeader)
    (received passed : Bytes) (result : RespType) :
    (conn.netOnRequest evp config reqHeader received passed result).user.handler =
      conn.user.handler.or (config.userHandlers reqHeader.origin) := by
  unfold GateConn.netOnRequest
  split
  next hnone => rw [hnone, (Option.or_eq_none_iff.mp hnone).1]
  next handler hsome => exact hsome.symm

end TszyUlt.Lygc
