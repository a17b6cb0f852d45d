import TszyUlt.Lygc.SessionEncryption

/-!
# Answers of the gateway

All connections of a gateway, with the answers that their handlers give at once and those that they
give later. `NetUser::onRequest` posts the answer of a handler that returns one, and
`NetServer::response` that of a handler that has saved the request with `savePenddingReq`; both
build the message with `GateUser::createResponse` and the keys that the connection holds then, which
may be those of a later handshake than the request was made in.

`encrypted_answers_confidential` has two parts. In every run of the gateway, each message that
answers a request with the encryption flag has an empty body, or the encryption of the answer with
the keys of a handshake of the same connection (`Confidential`). And two runs that differ only in
the data of answers that are withheld, because there is no handshake or the encryption fails, post
the same messages (`Hides`, `wire`).

Scope. Each call of a function is one step; the steps inside the store of the pending requests are
those of `PendingStore`. A handler saves a request that it was given, with the header that it was
given. A message whose handling throws ends the program, and has no next state.
-/

set_option autoImplicit false
set_option relaxedAutoImplicit false

namespace TszyUlt.Lygc

open Lib Zbf Fszm
open GateConn (curveEvp curveReq plainConfig freshHelper)

variable {Pkey UserHandler : Type*}

/-! ### The gateway -/

/-- The data that a handler answers with at once. -/
def RespType.respData : RespType → Option Bytes
  | .syncResponse respData => some respData
  | .noResponse => some []
  | .asyncResponse => none

/-- An event of a connection, with the request that it belongs to, the outcomes of OpenSSL and the
data that the handler answers with. -/
structure GatewayEvent (Pkey : Type*) where
  user : UserId
  evp : Evp Pkey
  reqHeader : LymsgHeader
  respData : Option Bytes
  event : GateEvent Pkey

/-- `GateServer`: its handshake helper, its connections, the pending requests, and what an observer
records. -/
structure Gateway (Pkey UserHandler : Type*) where
  helper : HandshakeHelper Pkey
  users : UserId → GateUser UserHandler
  alive : UserId → Bool
  reqIdCreator : RequestId
  pending : Table RequestId ReqContext
  log : List (GatewayEvent Pkey)

/-- What the gateway is confronted with. -/
inductive GatewayAction (Pkey : Type*)
  | onRecvMsg (user : UserId) (evp : Evp Pkey) (msg : TcpMessage) (result : RespType)
  | savePenddingReq (user : UserId) (reqHeader : LymsgHeader) (reqData : Bytes)
  | response (evp : Evp Pkey) (reqId : RequestId) (respData : Bytes)
  | onDisconnect (user : UserId)
  | destroyUser (user : UserId)

namespace Gateway

/-- A gateway before its first message. -/
def new (helper : HandshakeHelper Pkey) : Gateway Pkey UserHandler where
  helper := helper
  users := fun _ ↦ .new
  alive := fun _ ↦ true
  reqIdCreator := minRequestId
  pending := Table.empty
  log := []

/-- Whether the event is the call of a handler for a request of the user. -/
def isCall (user : UserId) (reqHeader : LymsgHeader) (event : GatewayEvent Pkey) : Bool :=
  match event.event with
  | .handled _ _ _ _ => event.user = user ∧ event.reqHeader = reqHeader
  | .handshake _ _ | .posted _ => false

/-- One step of the gateway. -/
def step (config : GateConfig UserHandler) (gateway : Gateway Pkey UserHandler) :
    GatewayAction Pkey → Option (Gateway Pkey UserHandler)
  | .onRecvMsg user evp msg result =>
    if gateway.alive user then
      match unpackMsg config.order msg with
      | .ok (reqHeader, reqData) =>
        (GateConn.onRequest evp config ⟨gateway.users user, gateway.helper, []⟩ reqHeader reqData
          result).map fun conn ↦
          { gateway with
            helper := conn.helper
            users := Function.update gateway.users user conn.user
            log := gateway.log ++
              conn.log.map (GatewayEvent.mk user evp reqHeader result.respData) }
      | .error _ => some gateway
    else none
  | .savePenddingReq user reqHeader reqData =>
    if gateway.alive user ∧ gateway.log.any (isCall user reqHeader) then
      some { gateway with
        reqIdCreator := gateway.reqIdCreator + 1
        pending := gateway.pending.insertNew gateway.reqIdCreator ⟨user, reqHeader, reqData⟩ }
    else none
  | .response evp reqId respData =>
    match gateway.pending reqId with
    | none => some gateway
    | some ctx =>
      if gateway.alive ctx.user then
        some { gateway with
          pending := gateway.pending.erase reqId
          log := gateway.log ++ [⟨ctx.user, evp, ctx.reqHeader, some respData,
            .posted ((gateway.users ctx.user).createResponse evp config.order config.origin
              ctx.reqHeader respData)⟩] }
      else some { gateway with pending := gateway.pending.erase reqId }
  | .onDisconnect user =>
    some { gateway with
      pending := gateway.pending.removeIf fun ctx ↦ !gateway.alive ctx.user || ctx.user = user }
  | .destroyUser user => some { gateway with alive := Function.update gateway.alive user false }

/-- The messages that were posted, and to whom. -/
def wire (gateway : Gateway Pkey UserHandler) : List (UserId × TcpMessage) :=
  gateway.log.filterMap fun event ↦
    match event.event with
    | .posted msg => some (event.user, msg)
    | .handshake _ _ | .handled _ _ _ _ => none

/-! ### What is promised -/

/-- The events of one connection. -/
def eventsOf (user : UserId) (log : List (GatewayEvent Pkey)) : List (GateEvent Pkey) :=
  (log.filter fun event ↦ event.user = user).map GatewayEvent.event

/-- A message with an encrypted request answers a request of the same connection that a handler got,
and its body is empty, or the encryption of the data of the handler with the keys of a handshake of
the connection. -/
def Confidential (config : GateConfig UserHandler) (before : List (GatewayEvent Pkey))
    (event : GatewayEvent Pkey) : Prop :=
  ∀ msg, event.event = .posted msg → event.reqHeader.type &&& typeEnc ≠ 0 →
    before.any (isCall event.user event.reqHeader) = true ∧
    ∃ body, msg = createResponse config.order config.origin event.reqHeader body ∧
      (body = [] ∨ ∃ (session : AesSession) (respData : Bytes),
        GateConn.sessionOf config.sessionSymsecType (eventsOf event.user before) =
          some session.keys ∧
        event.respData = some respData ∧
        symmetricEncrypt event.evp respData session.keys.secret session.keys.ivec
          (some session.keys.enctype) true = .ok body)

/-- The data of an answer to an encrypted request are not sent: there is no handshake, or the
encryption fails. -/
def Withheld (evp : Evp Pkey) (user : GateUser UserHandler) (reqHeader : LymsgHeader)
    (respData : Bytes) : Prop :=
  reqHeader.type &&& typeEnc ≠ 0 ∧
    (user.handshakeFin = false ∨ ∃ code, user.encrypt evp respData = .error code)

/-- Two actions that are the same, or differ only in the data of an answer that is withheld. -/
inductive Hides (config : GateConfig UserHandler) (gateway : Gateway Pkey UserHandler) :
    GatewayAction Pkey × GatewayAction Pkey → Prop
  | same (action : GatewayAction Pkey) : Hides config gateway (action, action)
  | atOnce {user : UserId} {evp : Evp Pkey} {msg : TcpMessage} {first second : Bytes}
      (hwithheld : ∀ reqHeader reqData, unpackMsg config.order msg = .ok (reqHeader, reqData) →
        Withheld evp (gateway.users user) reqHeader first ∧
          Withheld evp (gateway.users user) reqHeader second) :
      Hides config gateway (.onRecvMsg user evp msg (.syncResponse first),
        .onRecvMsg user evp msg (.syncResponse second))
  | later {evp : Evp Pkey} {reqId : RequestId} {first second : Bytes}
      (hwithheld : ∀ ctx, gateway.pending reqId = some ctx →
        Withheld evp (gateway.users ctx.user) ctx.reqHeader first ∧
          Withheld evp (gateway.users ctx.user) ctx.reqHeader second) :
      Hides config gateway (.response evp reqId first, .response evp reqId second)

/-! ### One message -/

section Message

variable {evp : Evp Pkey} {config : GateConfig UserHandler} {user : GateUser UserHandler}
  {reqHeader : LymsgHeader}

/-- Assumes: a request with the encryption flag. The answer is empty, or encrypted in the session of
the user. -/
theorem createResponse_of_enc (evp : Evp Pkey) (config : GateConfig UserHandler)
    (user : GateUser UserHandler) (henc : reqHeader.type &&& typeEnc ≠ 0) (respData : Bytes) :
    ∃ body, user.createResponse evp config.order config.origin reqHeader respData =
        createResponse config.order config.origin reqHeader body ∧
      (body = [] ∨ ∃ keys, GateConn.sessionHeld user = some keys ∧
        symmetricEncrypt evp respData keys.secret keys.ivec (some keys.enctype) true =
          .ok body) := by
  refine ⟨_, rfl, ?_⟩
  rw [if_pos henc]
  split_ifs with hdone
  · split
    · rename_i packData hpack
      exact .inr ⟨_, if_pos hdone, hpack⟩
    · exact .inl rfl
  · exact .inl rfl

/-- An answer that is withheld is empty. -/
theorem createResponse_of_withheld {respData : Bytes}
    (hwithheld : Withheld evp user reqHeader respData) :
    user.createResponse evp config.order config.origin reqHeader respData =
      createResponse config.order config.origin reqHeader [] := by
  obtain ⟨henc, hdone | ⟨code, hcode⟩⟩ := hwithheld
  · rw [GateUser.createResponse, if_pos henc, hdone]
    rfl
  · rw [GateUser.createResponse, if_pos henc, hcode, ite_self]

/-- What one message makes of a connection: a handshake, or the call of a handler and its answer, or
nothing. -/
theorem onRequest_cases {helper : HandshakeHelper Pkey} {reqData : Bytes} {result : RespType}
    {conn : GateConn Pkey UserHandler}
    (hrequest : GateConn.onRequest evp config ⟨user, helper, []⟩ reqHeader reqData result =
      some conn) :
    (reqHeader.type = typeHandshake ∧ ∃ respData shareKey,
      (respData ≠ [] → config.sessionSymsecType.isAes = true) ∧
      GateConn.sessionHeld conn.user =
        GateConn.sessionAfter config.sessionSymsecType respData shareKey ∧
      conn.log = [.handshake respData shareKey,
        .posted (createResponse config.order config.origin reqHeader respData)]) ∨
    (GateConn.sessionHeld conn.user = GateConn.sessionHeld user ∧ (conn.log = [] ∨
      ∃ received passed, conn.log = [.handled evp reqHeader received passed] ∨
        ∃ respData, result.respData = some respData ∧
          conn.log = [.handled evp reqHeader received passed, .posted
            (user.createResponse evp config.order config.origin reqHeader respData)])) := by
  by_cases htype : reqHeader.type = typeHandshake
  · left
    rw [GateConn.onRequest, if_pos htype] at hrequest
    obtain ⟨⟨⟨respData, shareKey⟩, next⟩, houtcome, rfl⟩ := Option.map_eq_some_iff.mp hrequest
    exact ⟨htype, respData, shareKey, GateConn.isAes_of_reply houtcome,
      GateConn.sessionHeld_handshake user config.sessionSymsecType respData shareKey, rfl⟩
  · right
    rw [GateConn.onRequest_eq_handedOn evp config _ reqData result htype] at hrequest
    cases hbody : user.handedOn evp reqHeader reqData with
    | none =>
      rw [hbody] at hrequest
      cases hrequest
      exact ⟨rfl, .inl rfl⟩
    | some body =>
      rw [hbody] at hrequest
      cases hrequest
      refine ⟨GateConn.sessionHeld_netOnRequest .., ?_⟩
      rw [Option.elim_some, GateConn.netOnRequest]
      split
      · exact .inl rfl
      · refine .inr ⟨reqData, body, ?_⟩
        cases result with
        | asyncResponse => exact .inl rfl
        | syncResponse respData => exact .inr ⟨respData, rfl, rfl⟩
        | noResponse => exact .inr ⟨[], rfl, rfl⟩

end Message

/-! ### Every answer -/

section Confidentiality

variable {config : GateConfig UserHandler} {gateway : Gateway Pkey UserHandler}

theorem eventsOf_append (user : UserId) (log more : List (GatewayEvent Pkey)) :
    eventsOf user (log ++ more) = eventsOf user log ++ eventsOf user more := by
  rw [eventsOf, List.filter_append, List.map_append]
  rfl

/-- The events of one message belong to one connection. -/
theorem eventsOf_map (user other : UserId) (evp : Evp Pkey) (reqHeader : LymsgHeader)
    (respData : Option Bytes) (events : List (GateEvent Pkey)) :
    eventsOf user (events.map (GatewayEvent.mk other evp reqHeader respData)) =
      if other = user then events else [] := by
  induction events with
  | nil => simp [eventsOf]
  | cons event events ih =>
    rw [List.map_cons, ← List.singleton_append, eventsOf_append, ih]
    by_cases hother : other = user
    · simp [eventsOf, hother]
    · simp [eventsOf, hother]

theorem eventsOf_singleton (user : UserId) (event : GatewayEvent Pkey) :
    eventsOf user [event] = if event.user = user then [event.event] else [] :=
  eventsOf_map user event.user event.evp event.reqHeader event.respData [event.event]

/-- Posting leaves the session alone. -/
theorem sessionOf_posted (sessionType : EncryptType) (log : List (GateEvent Pkey))
    (msg : TcpMessage) :
    GateConn.sessionOf sessionType (log ++ [.posted msg]) = GateConn.sessionOf sessionType log :=
  GateConn.sessionOf_concat sessionType log (.posted msg)

/-- Every connection holds the session of its events, an AES session if there is one; every pending
request is one that a handler got; and every answer is confidential. -/
structure Secure (config : GateConfig UserHandler) (gateway : Gateway Pkey UserHandler) :
    Prop where
  session : ∀ user, GateConn.sessionHeld (gateway.users user) =
    GateConn.sessionOf config.sessionSymsecType (eventsOf user gateway.log)
  aes : ∀ user keys, GateConn.sessionHeld (gateway.users user) = some keys →
    ∃ session : AesSession, session.keys = keys
  pending : ∀ reqId ctx, gateway.pending reqId = some ctx →
    gateway.log.any (isCall ctx.user ctx.reqHeader) = true
  confidential : EachAfter (Confidential config) gateway.log

/-- An answer that a connection gives to a request that a handler got is confidential. -/
theorem confidential_createResponse {user : GateUser UserHandler} {userId : UserId}
    {before : List (GatewayEvent Pkey)} {evp : Evp Pkey} {reqHeader : LymsgHeader}
    {respData : Bytes}
    (hsession : GateConn.sessionHeld user =
      GateConn.sessionOf config.sessionSymsecType (eventsOf userId before))
    (haes : ∀ keys, GateConn.sessionHeld user = some keys →
      ∃ session : AesSession, session.keys = keys)
    (hcall : before.any (isCall userId reqHeader) = true) :
    Confidential config before ⟨userId, evp, reqHeader, some respData,
      .posted (user.createResponse evp config.order config.origin reqHeader respData)⟩ := by
  intro msg hmsg henc
  cases hmsg
  obtain ⟨body, hbody, hcases⟩ := createResponse_of_enc evp config user henc respData
  refine ⟨hcall, body, hbody, hcases.imp_right ?_⟩
  rintro ⟨keys, hkeys, hencrypt⟩
  obtain ⟨session, rfl⟩ := haes keys hkeys
  exact ⟨session, respData, hsession.symm.trans hkeys, rfl, hencrypt⟩

/-- The sessions after the events of one connection. -/
theorem session_update (hsecure : gateway.Secure config) (user : UserId)
    {next : GateUser UserHandler} {events : List (GateEvent Pkey)} (evp : Evp Pkey)
    (reqHeader : LymsgHeader) (respData : Option Bytes)
    (hnext : GateConn.sessionHeld next =
      GateConn.sessionOf config.sessionSymsecType (eventsOf user gateway.log ++ events)) :
    ∀ other, GateConn.sessionHeld (Function.update gateway.users user next other) =
      GateConn.sessionOf config.sessionSymsecType (eventsOf other
        (gateway.log ++ events.map (GatewayEvent.mk user evp reqHeader respData))) := by
  intro other
  rw [eventsOf_append, eventsOf_map]
  by_cases hother : user = other
  · subst hother
    rw [Function.update_self, if_pos rfl, hnext]
  · rw [Function.update_of_ne (Ne.symm hother), if_neg hother, List.append_nil,
      hsecure.session other]

/-- The sessions of the other connections stay AES sessions. -/
theorem aes_update (hsecure : gateway.Secure config) (user : UserId)
    {next : GateUser UserHandler} (hnext : ∀ keys, GateConn.sessionHeld next = some keys →
      ∃ session : AesSession, session.keys = keys) :
    ∀ other keys, GateConn.sessionHeld (Function.update gateway.users user next other) =
      some keys → ∃ session : AesSession, session.keys = keys := by
  intro other keys hkeys
  by_cases hother : other = user
  · subst hother
    rw [Function.update_self] at hkeys
    exact hnext keys hkeys
  · rw [Function.update_of_ne hother] at hkeys
    exact hsecure.aes other keys hkeys

/-- A request that a handler got stays one. -/
theorem any_isCall_append {log : List (GatewayEvent Pkey)} {user : UserId}
    {reqHeader : LymsgHeader} (hcall : log.any (isCall user reqHeader) = true)
    (more : List (GatewayEvent Pkey)) : (log ++ more).any (isCall user reqHeader) = true := by
  rw [List.any_append, hcall, Bool.true_or]

/-- The events of one connection keep the gateway secure, if the connection holds the session of its
events, an AES session, and every answer is confidential. -/
theorem Secure.update (hsecure : gateway.Secure config) (user : UserId)
    {next : GateUser UserHandler} {helper : HandshakeHelper Pkey} {events : List (GateEvent Pkey)}
    {evp : Evp Pkey} {reqHeader : LymsgHeader} {respData : Option Bytes}
    (hnext : GateConn.sessionHeld next =
      GateConn.sessionOf config.sessionSymsecType (eventsOf user gateway.log ++ events))
    (haes : ∀ keys, GateConn.sessionHeld next = some keys →
      ∃ session : AesSession, session.keys = keys)
    (hconfidential : EachAfter (Confidential config)
      (gateway.log ++ events.map (GatewayEvent.mk user evp reqHeader respData))) :
    Secure config { gateway with
      helper := helper
      users := Function.update gateway.users user next
      log := gateway.log ++ events.map (GatewayEvent.mk user evp reqHeader respData) } where
  session := session_update hsecure user evp reqHeader respData hnext
  aes := aes_update hsecure user haes
  pending reqId ctx hctx := any_isCall_append (hsecure.pending reqId ctx hctx) _
  confidential := hconfidential

/-- A message keeps the gateway secure. -/
theorem Secure.onRequest (hsecure : gateway.Secure config) {user : UserId} {evp : Evp Pkey}
    {reqHeader : LymsgHeader} {reqData : Bytes} {result : RespType}
    {conn : GateConn Pkey UserHandler}
    (hrequest : GateConn.onRequest evp config ⟨gateway.users user, gateway.helper, []⟩ reqHeader
      reqData result = some conn) :
    Secure config { gateway with
      helper := conn.helper
      users := Function.update gateway.users user conn.user
      log := gateway.log ++
        conn.log.map (GatewayEvent.mk user evp reqHeader result.respData) } := by
  rcases onRequest_cases hrequest with
    ⟨htype, respData, shareKey, haes, hheld, hlog⟩ | ⟨hheld, hlog⟩
  · apply hsecure.update user
    · rw [hlog, List.append_cons, sessionOf_posted, GateConn.sessionOf_concat]
      exact hheld
    · intro keys hkeys
      rw [hheld] at hkeys
      exact GateConn.aesSession_of_sessionAfter haes hkeys
    · -- A handshake is no answer, and its reply has no encryption flag.
      simp only [hlog, List.map_cons, List.map_nil]
      rw [List.append_cons]
      refine (hsecure.confidential.concat fun msg hmsg ↦ by cases hmsg).concat
        fun msg _ henc ↦ ?_
      exact absurd htype (ne_typeHandshake_of_enc henc)
  · have hkept : GateConn.sessionHeld conn.user = GateConn.sessionOf config.sessionSymsecType
        (eventsOf user gateway.log) := hheld.trans (hsecure.session user)
    apply hsecure.update user
    · rcases hlog with hlog | ⟨received, passed, hlog | ⟨respData, _, hlog⟩⟩
      · rw [hlog, List.append_nil, hkept]
      · rw [hlog, GateConn.sessionOf_concat]
        exact hkept
      · rw [hlog, List.append_cons, sessionOf_posted, GateConn.sessionOf_concat]
        exact hkept
    · intro keys hkeys
      rw [hheld] at hkeys
      exact hsecure.aes user keys hkeys
    · rcases hlog with hlog | ⟨received, passed, hlog | ⟨respData, hdata, hlog⟩⟩
      · simp only [hlog, List.map_nil, List.append_nil]
        exact hsecure.confidential
      · simp only [hlog, List.map_cons, List.map_nil]
        exact hsecure.confidential.concat fun msg hmsg ↦ by cases hmsg
      · -- The call of the handler comes right before its answer.
        simp only [hlog, List.map_cons, List.map_nil, hdata]
        rw [List.append_cons]
        refine (hsecure.confidential.concat fun msg hmsg ↦ by cases hmsg).concat
          (confidential_createResponse ?_ (hsecure.aes user) ?_)
        · rw [eventsOf_append, eventsOf_singleton, if_pos rfl, hsecure.session user,
            GateConn.sessionOf_concat]
        · simp [isCall]

/-- Every step keeps the gateway secure. -/
theorem step_secure {action : GatewayAction Pkey} {next : Gateway Pkey UserHandler}
    (hsecure : gateway.Secure config) (hstep : gateway.step config action = some next) :
    next.Secure config := by
  cases action with
  | onRecvMsg user evp msg result =>
    simp only [step] at hstep
    split_ifs at hstep with halive
    split at hstep
    · obtain ⟨conn, hrequest, rfl⟩ := Option.map_eq_some_iff.mp hstep
      exact hsecure.onRequest hrequest
    · cases hstep
      exact hsecure
  | savePenddingReq user reqHeader reqData =>
    simp only [step] at hstep
    split_ifs at hstep with hcall
    cases hstep
    refine ⟨hsecure.session, hsecure.aes, fun reqId ctx hctx ↦ ?_, hsecure.confidential⟩
    rcases Table.insertNew_eq_some hctx with hold | rfl
    · exact hsecure.pending reqId ctx hold
    · exact hcall.2
  | response evp reqId respData =>
    simp only [step] at hstep
    split at hstep
    · cases hstep
      exact hsecure
    · rename_i ctx hctx
      split_ifs at hstep with halive
      · cases hstep
        refine ⟨fun user ↦ ?_, hsecure.aes, fun other ctx' hother ↦
          any_isCall_append (hsecure.pending other ctx' (Table.erase_eq_some hother)) _,
          hsecure.confidential.concat (confidential_createResponse (hsecure.session ctx.user)
            (hsecure.aes ctx.user) (hsecure.pending reqId ctx hctx))⟩
        rw [eventsOf_append, eventsOf_singleton, hsecure.session user]
        split_ifs
        · rw [sessionOf_posted]
        · rw [List.append_nil]
      · cases hstep
        exact ⟨hsecure.session, hsecure.aes,
          fun other ctx' hother ↦ hsecure.pending other ctx' (Table.erase_eq_some hother),
          hsecure.confidential⟩
  | onDisconnect user =>
    cases hstep
    refine ⟨hsecure.session, hsecure.aes, fun reqId ctx hctx ↦ hsecure.pending reqId ctx ?_,
      hsecure.confidential⟩
    unfold Table.removeIf at hctx
    exact Option.eq_some_of_filter_eq_some hctx
  | destroyUser user =>
    cases hstep
    exact ⟨hsecure.session, hsecure.aes, hsecure.pending, hsecure.confidential⟩

theorem secure_new (config : GateConfig UserHandler) (helper : HandshakeHelper Pkey) :
    (new helper : Gateway Pkey UserHandler).Secure config where
  session _ := rfl
  aes _ _ hkeys := absurd hkeys (by simp [new, GateUser.new, GateConn.sessionHeld])
  pending _ _ hctx := absurd hctx (by simp [new, Table.empty])
  confidential := eachAfter_nil

end Confidentiality

/-! ### Two runs -/

section TwoRuns

variable {config : GateConfig UserHandler}

/-- An event without the data that the handler answers with. -/
def redact (event : GatewayEvent Pkey) : GatewayEvent Pkey := { event with respData := none }

/-- A gateway whose log does not show the data that handlers answer with. -/
def redacted (gateway : Gateway Pkey UserHandler) : Gateway Pkey UserHandler :=
  { gateway with log := gateway.log.map redact }

/-- The data that handlers answer with do not show in the messages, other than through them. -/
theorem wire_redacted (gateway : Gateway Pkey UserHandler) :
    gateway.redacted.wire = gateway.wire := by
  unfold wire redacted
  rw [List.filterMap_map]
  rfl

theorem any_isCall_redact (log : List (GatewayEvent Pkey)) (user : UserId)
    (reqHeader : LymsgHeader) :
    (log.map redact).any (isCall user reqHeader) = log.any (isCall user reqHeader) := by
  rw [List.any_map]
  rfl

theorem redact_redact (log : List (GatewayEvent Pkey)) :
    (log.map redact).map redact = log.map redact := by
  rw [List.map_map]
  rfl

theorem alive_redacted (gateway : Gateway Pkey UserHandler) :
    gateway.redacted.alive = gateway.alive := rfl

/-- A step does not depend on the data in the log. -/
theorem map_redacted_step (gateway : Gateway Pkey UserHandler) (action : GatewayAction Pkey) :
    (gateway.step config action).map redacted =
      (gateway.redacted.step config action).map redacted := by
  cases action with
  | onRecvMsg user evp msg result =>
    simp only [step]
    rw [alive_redacted]
    split_ifs
    · simp only [redacted]
      split
      · rw [Option.map_map, Option.map_map]
        refine congrArg (Option.map · _) (funext fun conn ↦ ?_)
        simp only [Function.comp_apply, redacted, List.map_append, redact_redact]
      · simp only [Option.map_some, redacted, redact_redact]
    · rfl
  | savePenddingReq user reqHeader reqData =>
    have hlog : gateway.redacted.log.any (isCall user reqHeader) =
        gateway.log.any (isCall user reqHeader) := any_isCall_redact gateway.log user reqHeader
    simp only [step]
    rw [alive_redacted, hlog]
    split_ifs
    · simp only [Option.map_some, redacted, redact_redact]
    · rfl
  | response evp reqId respData =>
    have hpending : gateway.redacted.pending = gateway.pending := rfl
    simp only [step]
    rw [hpending, alive_redacted]
    split
    · simp only [Option.map_some, redacted, redact_redact]
    · split_ifs
      · simp only [Option.map_some, redacted, List.map_append, redact_redact]
      · simp only [Option.map_some, redacted, redact_redact]
  | onDisconnect user | destroyUser user =>
    simp only [step, Option.map_some, redacted, redact_redact]

/-- Two steps from one state that differ only in data that are withheld. -/
theorem map_redacted_step_of_hides {gateway : Gateway Pkey UserHandler}
    {pair : GatewayAction Pkey × GatewayAction Pkey} (hhides : Hides config gateway pair) :
    (gateway.step config pair.1).map redacted = (gateway.step config pair.2).map redacted := by
  cases hhides with
  | same action => rfl
  | @atOnce user evp msg first second hwithheld =>
    simp only [step]
    split_ifs
    · split
      · rename_i reqHeader reqData hread
        obtain ⟨hfirst, hsecond⟩ := hwithheld reqHeader reqData hread
        have hsame : GateConn.onRequest evp config ⟨gateway.users user, gateway.helper, []⟩
            reqHeader reqData (.syncResponse first) =
            GateConn.onRequest evp config ⟨gateway.users user, gateway.helper, []⟩ reqHeader
              reqData (.syncResponse second) := by
          have htype := ne_typeHandshake_of_enc hfirst.1
          rw [GateConn.onRequest_eq_handedOn evp config _ reqData _ htype,
            GateConn.onRequest_eq_handedOn evp config _ reqData _ htype]
          simp only [GateConn.netOnRequest, createResponse_of_withheld hfirst,
            createResponse_of_withheld hsecond]
        rw [hsame, Option.map_map, Option.map_map]
        refine congrArg (Option.map · _) (funext fun conn ↦ ?_)
        simp only [Function.comp_apply, redacted, List.map_append, List.map_map]
        rfl
      · rfl
    · rfl
  | @later evp reqId first second hwithheld =>
    simp only [step]
    split
    · rfl
    · rename_i ctx hctx
      obtain ⟨hfirst, hsecond⟩ := hwithheld ctx hctx
      split_ifs
      · rw [createResponse_of_withheld hfirst, createResponse_of_withheld hsecond]
        simp only [Option.map_some, redacted, List.map_append]
        rfl
      · rfl

/-- From states that differ only in the data of their logs, steps that differ only in data that are
withheld lead to such states. -/
theorem map_redacted_step_eq {first second : Gateway Pkey UserHandler}
    {pair : GatewayAction Pkey × GatewayAction Pkey} (hview : first.redacted = second.redacted)
    (hhides : Hides config first pair) :
    (first.step config pair.1).map redacted = (second.step config pair.2).map redacted :=
  calc (first.step config pair.1).map redacted
      = (first.step config pair.2).map redacted := map_redacted_step_of_hides hhides
    _ = (first.redacted.step config pair.2).map redacted := map_redacted_step first pair.2
    _ = (second.redacted.step config pair.2).map redacted := by rw [hview]
    _ = (second.step config pair.2).map redacted := (map_redacted_step second pair.2).symm

end TwoRuns

/-- In every run of a gateway, each message that answers an encrypted request has an empty body or
one that is encrypted with the keys of a handshake of the same connection; and two runs whose steps
differ only in data that are withheld post the same messages. -/
theorem encrypted_answers_confidential (config : GateConfig UserHandler)
    (helper : HandshakeHelper Pkey) :
    (∀ actions final, runFrom (step config) (new helper) actions = some final →
      EachAfter (Confidential config) final.log) ∧
    (∀ pairs, Along (fun gateway pair ↦ step config gateway pair.1) (Hides config) (new helper)
        pairs →
      (runFrom (step config) (new helper) (pairs.map Prod.fst)).map wire =
        (runFrom (step config) (new helper) (pairs.map Prod.snd)).map wire) := by
  constructor
  · intro actions final hrun
    have hsecure : final.Secure config :=
      runFrom_invariant (Secure config) (fun _ _ _ hstate hstep ↦ step_secure hstate hstep)
        (secure_new config helper) hrun
    exact hsecure.confidential
  · intro pairs halong
    have hredacted : (runFrom (step config) (new helper) (pairs.map Prod.fst)).map redacted =
        (runFrom (step config) (new helper) (pairs.map Prod.snd)).map redacted :=
      map_runFrom_eq_along redacted
        (fun _ _ _ hview hhides ↦ map_redacted_step_eq hview hhides) rfl halong
    have hwire : (wire : Gateway Pkey UserHandler → _) = wire ∘ redacted :=
      funext fun gateway ↦ (wire_redacted gateway).symm
    rw [hwire, ← Option.map_map, ← Option.map_map, hredacted]

/-- A handshake on the curve prime256v1. -/
def handshakeAction : GatewayAction Bool :=
  .onRecvMsg 3 (curveEvp (curveReq 415 64) 32)
    (packMsg .little ⟨1, 0, typeHandshake, 0, 0⟩ (List.replicate 128 0)) .noResponse

/-- OpenSSL decrypts but fails to encrypt. -/
def decryptOnlyEvp : Evp Bool :=
  { curveEvp (curveReq 415 64) 32 with
    cipher := fun _ encrypt _ _ input ↦ if encrypt then none else some input }

theorem encrypt_decryptOnlyEvp (user : GateUser Unit) (data : Bytes) :
    ∃ code, user.encrypt decryptOnlyEvp data = .error code := by
  rcases user with ⟨secret, ivec, enctype, handshakeFin, handler⟩
  unfold GateUser.encrypt symmetricEncrypt
  split_ifs
  · exact ⟨-1, rfl⟩
  · exact ⟨-1, rfl⟩
  · cases enctype <;> exact ⟨-1, rfl⟩

/-- An encrypted request with an answer at once, with data that OpenSSL fails to encrypt. -/
def withheldAction (respData : Bytes) : GatewayAction Bool :=
  .onRecvMsg 3 decryptOnlyEvp (packMsg .little ⟨1, 0, 0x40000021#32, 0, 0⟩ [5, 6])
    (.syncResponse respData)

/-- An answer that comes after the handler has returned is encrypted, and the data of one that
cannot be encrypted do not show. -/
theorem encrypted_answers_confidential_later :
    (∃ final, runFrom (step plainConfig) (new freshHelper)
        [handshakeAction,
          .onRecvMsg 3 (curveEvp (curveReq 415 64) 32)
            (packMsg .little ⟨1, 0, 0x40000021#32, 0, 0⟩ [5, 6]) .asyncResponse,
          .savePenddingReq 3 ⟨1, 0, 0x40000021#32, 0, 2⟩ [],
          .response (curveEvp (curveReq 415 64) 32) 101 [1]] = some final ∧
      final.log.length = 4 ∧ EachAfter (Confidential plainConfig) final.log) ∧
    (runFrom (step plainConfig) (new freshHelper) [handshakeAction, withheldAction [1]]).map wire =
      (runFrom (step plainConfig) (new freshHelper) [handshakeAction, withheldAction [2]]).map
        wire := by
  have hconfidential := encrypted_answers_confidential plainConfig freshHelper
  constructor
  · have hlength : (runFrom (step plainConfig) (new freshHelper)
        [handshakeAction,
          .onRecvMsg 3 (curveEvp (curveReq 415 64) 32)
            (packMsg .little ⟨1, 0, 0x40000021#32, 0, 0⟩ [5, 6]) .asyncResponse,
          .savePenddingReq 3 ⟨1, 0, 0x40000021#32, 0, 2⟩ [],
          .response (curveEvp (curveReq 415 64) 32) 101 [1]]).map (fun final ↦ final.log.length) =
        some 4 := by
      decide +kernel
    obtain ⟨final, hrun, hfinal⟩ := Option.map_eq_some_iff.mp hlength
    exact ⟨final, hrun, hfinal, hconfidential.1 _ final hrun⟩
  · refine hconfidential.2
      [(handshakeAction, handshakeAction), (withheldAction [1], withheldAction [2])]
      ⟨.same _, fun next _ ↦ ⟨.atOnce fun reqHeader reqData hread ↦ ?_, fun _ _ ↦ trivial⟩⟩
    rw [unpackMsg_packMsg] at hread
    cases hread
    exact ⟨⟨by decide, .inr (encrypt_decryptOnlyEvp _ _)⟩,
      ⟨by decide, .inr (encrypt_decryptOnlyEvp _ _)⟩⟩

end Gateway

end TszyUlt.Lygc
