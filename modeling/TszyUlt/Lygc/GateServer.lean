import TszyUlt.Lygc.HandshakeHelper
import TszyUlt.Lygc.NetClient

/-!
# The gateway

`lygc/gate_server.hpp`: `GateServer::onHandshake` and a `GateUser`, one connection of a client to
the gateway. `GateUser::onRequest` has three branches: a message of the handshake type makes a
handshake, a message with the encryption flag is decrypted with the session key and passed on if the
handshake is done, and any other message is passed on as it is. Passing on is `NetUser::onRequest`,
which calls the user handler and posts its answer; `GateUser::createResponse` encrypts the answers
to encrypted requests.

`GateConn` is one connection with the handshake helper that it shares with the other connections,
and the log of what happens on it. An action is a message with the outcomes of the calls of OpenSSL
and what the user handler answers if it is called, or a change of the helper by other connections. A
message whose handling throws ends the program, and has no next state.

Scope. The messages of a connection are handled one after the other. The answers that a user handler
gives later are not part of this model.
-/

set_option autoImplicit false
set_option relaxedAutoImplicit false

namespace TszyUlt.Lygc

open Lib Zbf Fszm

variable {Pkey UserHandler : Type*}

/-- `GateUser`, with `_handler` of `NetUser`. -/
structure GateUser (UserHandler : Type*) where
  secret : Bytes
  ivec : Bytes
  enctype : EncryptType
  handshakeFin : Bool
  handler : Option UserHandler

namespace GateUser

/-- A connection that was just accepted. -/
def new : GateUser UserHandler := ⟨[], [], .aesCfb, false, none⟩

/-- `setHandshakeSuccess`. -/
def setHandshakeSuccess (user : GateUser UserHandler) (shareKey : Bytes)
    (sessionType : EncryptType) : GateUser UserHandler :=
  if 32 ≤ shareKey.length then
    { user with
      secret := shareKey.take 16
      ivec := (shareKey.drop 16).take 16
      enctype := sessionType
      handshakeFin := true }
  else { user with handshakeFin := false }

/-- `setHandshakeFail`. -/
def setHandshakeFail (user : GateUser UserHandler) : GateUser UserHandler :=
  { user with handshakeFin := false }

/-- `decrypt`. -/
def decrypt (evp : Evp Pkey) (user : GateUser UserHandler) (data : Bytes) : Except ℤ Bytes :=
  symmetricEncrypt evp data user.secret user.ivec (some user.enctype) false

/-- `encrypt`. -/
def encrypt (evp : Evp Pkey) (user : GateUser UserHandler) (data : Bytes) : Except ℤ Bytes :=
  symmetricEncrypt evp data user.secret user.ivec (some user.enctype) true

/-- `GateUser::createResponse`: an answer that cannot be encrypted is replaced by an empty one. -/
def createResponse (evp : Evp Pkey) (order : ByteOrder) (baseOrigin : BitVec 16)
    (user : GateUser UserHandler) (reqHeader : LymsgHeader) (respData : Bytes) : TcpMessage :=
  Lygc.createResponse order baseOrigin reqHeader
    (if reqHeader.type &&& typeEnc ≠ 0 then
      if user.handshakeFin then
        match user.encrypt evp respData with
        | .ok packData => packData
        | .error _ => []
      else []
    else respData)

end GateUser

/-- What happens on a connection. -/
inductive GateEvent (Pkey : Type*)
  /-- A handshake was made, with this reply and this shared key. -/
  | handshake (respData shareKey : Bytes)
  /-- The user handler was called: the header and the body of the message, the body that the handler
  got, and the outcomes of OpenSSL for this message. -/
  | handled (evp : Evp Pkey) (reqHeader : LymsgHeader) (received passed : Bytes)
  | posted (msg : TcpMessage)

/-- A connection of the gateway, and what an observer records. -/
structure GateConn (Pkey UserHandler : Type*) where
  user : GateUser UserHandler
  helper : HandshakeHelper Pkey
  log : List (GateEvent Pkey)

/-- What does not change: the byte order of the host, and the origin, the session type and the user
handlers of the server. -/
structure GateConfig (UserHandler : Type*) where
  order : ByteOrder
  origin : BitVec 16
  sessionSymsecType : EncryptType
  userHandlers : Table (BitVec 16) UserHandler

/-- What a connection is confronted with. -/
inductive GateAction (Pkey : Type*)
  | onRecvMsg (evp : Evp Pkey) (msg : TcpMessage) (result : RespType)
  /-- Other connections have used the helper. -/
  | others (helper : HandshakeHelper Pkey)

namespace GateConn

/-- A new connection to a server whose helper is in the given state. -/
def new (helper : HandshakeHelper Pkey) : GateConn Pkey UserHandler := ⟨.new, helper, []⟩

/-- `GateServer::onHandshake`: the reply and the shared key. -/
def onHandshake (evp : Evp Pkey) (config : GateConfig UserHandler) (helper : HandshakeHelper Pkey)
    (reqData : Bytes) : Option ((Bytes × Bytes) × HandshakeHelper Pkey) :=
  match helper.decryptHSReq evp config.order reqData with
  | none => some (([], []), helper)
  | some hsReq =>
    match helper.creatHSResp evp hsReq config.sessionSymsecType with
    | (none, helper) => some (([], []), helper)
    | (some hsResp, helper) =>
      let shareKey := helper.makeShareKey evp hsReq.getPeerPubkey
      (HandshakeHelper.encryptHSResp evp config.order hsResp hsReq.tempSymsec
        (EncryptType.ofByte hsReq.tempSymsecType)).map fun respData ↦ ((respData, shareKey), helper)

/-- `NetUser::onRequest`, with what the user handler returns if it is called. -/
def netOnRequest (evp : Evp Pkey) (config : GateConfig UserHandler)
    (conn : GateConn Pkey UserHandler) (reqHeader : LymsgHeader) (received passed : Bytes)
    (result : RespType) : GateConn Pkey UserHandler :=
  match conn.user.handler.or (config.userHandlers reqHeader.origin) with
  | none => conn
  | some handler =>
    let response : Bytes → GateEvent Pkey := fun respData ↦
      .posted (conn.user.createResponse evp config.order config.origin reqHeader respData)
    { conn with
      user := { conn.user with handler := some handler }
      log := conn.log ++ .handled evp reqHeader received passed ::
        match result with
        | .syncResponse respData => [response respData]
        | .noResponse => [response []]
        | .asyncResponse => [] }

/-- `GateUser::onRequest`. -/
def onRequest (evp : Evp Pkey) (config : GateConfig UserHandler)
    (conn : GateConn Pkey UserHandler) (reqHeader : LymsgHeader) (reqData : Bytes)
    (result : RespType) : Option (GateConn Pkey UserHandler) :=
  if reqHeader.type = typeHandshake then
    (onHandshake evp config conn.helper reqData).map fun outcome ↦
      let respData := outcome.1.1
      let shareKey := outcome.1.2
      { conn with
        user := if respData = [] then conn.user.setHandshakeFail
          else conn.user.setHandshakeSuccess shareKey config.sessionSymsecType
        helper := outcome.2
        log := conn.log ++ [.handshake respData shareKey,
          .posted (Lygc.createResponse config.order config.origin reqHeader respData)] }
  else if reqHeader.type &&& typeEnc ≠ 0 then
    if conn.user.handshakeFin then
      match conn.user.decrypt evp reqData with
      | .ok decrypted => some (conn.netOnRequest evp config reqHeader reqData decrypted result)
      | .error _ => some conn
    else some conn
  else some (conn.netOnRequest evp config reqHeader reqData reqData result)

/-- One step of a connection: `NetUser::onRecvMsg`, or the other connections. -/
def step (config : GateConfig UserHandler) (conn : GateConn Pkey UserHandler) :
    GateAction Pkey → Option (GateConn Pkey UserHandler)
  | .onRecvMsg evp msg result =>
    match unpackMsg config.order msg with
    | .ok (reqHeader, reqData) => conn.onRequest evp config reqHeader reqData result
    | .error _ => some conn
  | .others helper => some { conn with helper := helper }

end GateConn

end TszyUlt.Lygc
