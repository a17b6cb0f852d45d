import TszyUlt.Lygc.PendingStore

/-!
# Requests between a client and a server

`lygc/net_server.hpp`: `NetClient::request` and `onResponse`, and `NetUser::onRecvMsg` and
`onRequest` with the answers of `NetServer`. A client registers the handler of a request under its
serial, posts the packed message to one of its connections, and removes the handler again when the
post fails. The server unpacks the message, lets the user handler of the connection answer it at
once or save it for later, and packs the response with the serial of the request. A response that
comes back takes the handler of its serial out of the table and calls it.

`Exchange` is both ends with everything that is under way between them. Each call of `request` has a
number, its `Tag`, and what is under way for it is a list of tasks: the call itself, its message on
a connection, the handler that works on it, its saved context, its response. A step takes any task
one section further, so a run is any interleaving of the threads of both ends and of the network.
Tags are not sent: they tell an observer which call a message belongs to.

Scope. A connection carries a message whole or loses it (`drop`); the bytes on a connection are in
`Zbf`. The shards of saved contexts are one table here, as `PendingStoreContract` shows they are.
The user handlers are not modelled: they save a request, and return any of the three results, as
they like.
-/

set_option autoImplicit false
set_option relaxedAutoImplicit false

namespace TszyUlt.Lygc

open Lib Zbf

/-! ### Tasks -/

/-- The number of a call of `request`. -/
abbrev Tag := ℕ

/-- A call of `request`: the header with the origin of the client, the body, and whether there is a
handler. -/
structure RequestCall where
  header : LymsgHeader
  data : Bytes
  hasHandler : Bool
  deriving DecidableEq, Repr

/-- Where a task stands. -/
inductive Place (Conn : Type*)
  /-- In `request`: the handler is registered, the message is to be posted. -/
  | posting (msg : TcpMessage)
  /-- In `request`: the post failed, the handler is to be removed. -/
  | unregistering
  /-- The message is on its way to the server. -/
  | sent (conn : Conn) (msg : TcpMessage)
  /-- In `NetUser::onRequest`: the user handler works on the request. -/
  | handling (conn : Conn) (reqHeader : LymsgHeader) (reqData : Bytes)
  /-- The request is saved under an id. -/
  | pending (reqId : RequestId) (conn : Conn) (reqHeader : LymsgHeader) (reqData : Bytes)
  /-- In `NetServer::response`: the context is taken out, the answer is to be posted. -/
  | answering (conn : Conn) (reqHeader : LymsgHeader) (respData : Bytes)
  /-- The response is on its way to the client. -/
  | returning (conn : Conn) (msg : TcpMessage)
  deriving DecidableEq, Repr

/-- Whether the task can be lost: a message on a connection, a saved context whose user disconnects,
or an answer whose user is gone. -/
def Place.losable {Conn : Type*} : Place Conn → Bool
  | .sent _ _ | .pending _ _ _ _ | .answering _ _ _ | .returning _ _ => true
  | _ => false

/-- The id that a request is saved under. -/
def Place.savedAs {Conn : Type*} : Place Conn → Option RequestId
  | .pending reqId _ _ _ => some reqId
  | _ => none

/-- Something under way for a call of `request`. -/
structure Task (Conn : Type*) where
  tag : Tag
  place : Place Conn
  deriving DecidableEq, Repr

/-- `RespType`: what a user handler returns. -/
inductive RespType
  | syncResponse (respData : Bytes)
  | noResponse
  | asyncResponse
  deriving DecidableEq, Repr

/-- The call of a handler: the call of `request` that registered it, and the response. -/
structure Invocation where
  handler : Tag
  msg : TcpMessage
  respHeader : LymsgHeader
  respData : Bytes
  deriving DecidableEq, Repr

/-! ### Both ends -/

/-- A `NetClient` and a `NetServer` with what is under way between them, and what an observer
records: the calls of `request`, the responses that the server made, and the calls of handlers. -/
structure Exchange (Conn UserHandler : Type*) where
  msgHandlers : Table (BitVec 64) Tag
  handlerOf : Conn → Option UserHandler
  reqIdCreator : RequestId
  tasks : List (Task Conn)
  calls : List RequestCall
  produced : List (Tag × TcpMessage)
  invocations : List Invocation
  defaulted : List (LymsgHeader × Bytes)

/-- What does not change: the byte order of both hosts, the origins, the user handlers of the server
and whether the client has a default responser. -/
structure ExchangeConfig (UserHandler : Type*) where
  clientOrder : ByteOrder
  serverOrder : ByteOrder
  localOrigin : BitVec 16
  baseOrigin : BitVec 16
  userHandlers : Table (BitVec 16) UserHandler
  defaultResponser : Bool

/-- The steps of the two ends and of the network. A task is given by its position in the list. -/
inductive ExchangeAction (Conn : Type*)
  /-- `request`, up to the registration of the handler. -/
  | request (reqHeader : LymsgHeader) (reqData : Bytes) (hasHandler : Bool)
  /-- `request`: the post, to the connection if there is one that takes the message. -/
  | post (i : ℕ) (conn : Option Conn)
  /-- `request`: the handler is removed after a failed post. -/
  | unregister (i : ℕ)
  /-- `NetUser::onRecvMsg`, up to the call of the user handler. -/
  | onRecvMsg (i : ℕ)
  /-- A user handler calls `savePenddingReq`. -/
  | savePenddingReq (i : ℕ)
  /-- The user handler returns. -/
  | onRequest (i : ℕ) (result : RespType)
  /-- `NetServer::response`, up to the removal of the context. -/
  | response (reqId : RequestId) (respData : Bytes)
  /-- `NetServer::response`: the post. -/
  | postMsg (i : ℕ)
  /-- `NetClient::onResponse`. -/
  | onResponse (i : ℕ)
  /-- A message, a saved context or an answer is lost. -/
  | drop (i : ℕ)
  deriving DecidableEq, Repr

/-- The serial that a new call of `request` uses. -/
def ExchangeAction.requestedSerial {Conn : Type*} : ExchangeAction Conn → Option (BitVec 64)
  | .request reqHeader _ _ => some reqHeader.serial
  | _ => none

namespace Exchange

variable {Conn UserHandler : Type*}

/-- Both ends before the first request. -/
def new : Exchange Conn UserHandler where
  msgHandlers := Table.empty
  handlerOf := fun _ ↦ none
  reqIdCreator := minRequestId
  tasks := []
  calls := []
  produced := []
  invocations := []
  defaulted := []

/-- The serial that was passed to a call of `request`. -/
def serialOf (ends : Exchange Conn UserHandler) (tag : Tag) : Option (BitVec 64) :=
  ends.calls[tag]?.map fun call ↦ call.header.serial

/-- A task goes on: other tasks of the same call take its place. -/
def advance (ends : Exchange Conn UserHandler) (i : ℕ) (tag : Tag) (places : List (Place Conn)) :
    Exchange Conn UserHandler :=
  { ends with tasks := ends.tasks.eraseIdx i ++ places.map (Task.mk tag) }

/-- The client side of `request`: the header gets the origin of the client, the message is packed
and the handler registered. -/
def request (config : ExchangeConfig UserHandler) (ends : Exchange Conn UserHandler)
    (reqHeader : LymsgHeader) (reqData : Bytes) (hasHandler : Bool) : Exchange Conn UserHandler :=
  let header := { reqHeader with origin := config.localOrigin }
  { ends with
    msgHandlers :=
      if hasHandler then ends.msgHandlers.insertNew header.serial ends.calls.length
      else ends.msgHandlers
    tasks := ends.tasks ++
      [⟨ends.calls.length, .posting (packMsg config.clientOrder header reqData)⟩]
    calls := ends.calls ++ [⟨header, reqData, hasHandler⟩] }

/-- A response of the server is made and posted. -/
def respond (config : ExchangeConfig UserHandler) (ends : Exchange Conn UserHandler) (i : ℕ)
    (tag : Tag) (conn : Conn) (reqHeader : LymsgHeader) (respData : Bytes) :
    Exchange Conn UserHandler :=
  let msg := createResponse config.serverOrder config.baseOrigin reqHeader respData
  { ends.advance i tag [.returning conn msg] with produced := ends.produced ++ [(tag, msg)] }

/-- `NetClient::onResponse`: the handler of the serial is taken out of the table and called, or else
the default responser. -/
def onResponse (config : ExchangeConfig UserHandler) (ends : Exchange Conn UserHandler)
    (msg : TcpMessage) : Exchange Conn UserHandler :=
  match unpackMsg config.clientOrder msg with
  | .error _ => ends
  | .ok (respHeader, respData) =>
    match ends.msgHandlers respHeader.serial with
    | some tag =>
      { ends with
        msgHandlers := ends.msgHandlers.erase respHeader.serial
        invocations := ends.invocations ++ [⟨tag, msg, respHeader, respData⟩] }
    | none =>
      if config.defaultResponser then
        { ends with defaulted := ends.defaulted ++ [(respHeader, respData)] }
      else ends

variable [DecidableEq Conn]

/-- One step of the exchange. -/
def step (config : ExchangeConfig UserHandler) (ends : Exchange Conn UserHandler) :
    ExchangeAction Conn → Option (Exchange Conn UserHandler)
  | .request reqHeader reqData hasHandler => some (ends.request config reqHeader reqData hasHandler)
  | .post i conn =>
    match ends.tasks[i]?, conn with
    | some ⟨tag, .posting msg⟩, some conn => some (ends.advance i tag [.sent conn msg])
    | some ⟨tag, .posting _⟩, none =>
      if (ends.calls[tag]?.map RequestCall.hasHandler) = some true then
        some (ends.advance i tag [.unregistering])
      else some (ends.advance i tag [])
    | _, _ => none
  | .unregister i =>
    match ends.tasks[i]? with
    | some ⟨tag, .unregistering⟩ =>
      (ends.serialOf tag).map fun serial ↦
        { ends.advance i tag [] with msgHandlers := ends.msgHandlers.erase serial }
    | _ => none
  | .onRecvMsg i =>
    match ends.tasks[i]? with
    | some ⟨tag, .sent conn msg⟩ =>
      match unpackMsg config.serverOrder msg with
      | .error _ => some (ends.advance i tag [])
      | .ok (reqHeader, reqData) =>
        match (ends.handlerOf conn).or (config.userHandlers reqHeader.origin) with
        | none => some (ends.advance i tag [])
        | some handler =>
          some { ends.advance i tag [.handling conn reqHeader reqData] with
            handlerOf := Function.update ends.handlerOf conn (some handler) }
    | _ => none
  | .savePenddingReq i =>
    match ends.tasks[i]? with
    | some ⟨tag, .handling conn reqHeader reqData⟩ =>
      let saved := ends.tasks.any fun task ↦ task.place.savedAs = some ends.reqIdCreator
      some { ends.advance i tag (.handling conn reqHeader reqData ::
          if saved then [] else [.pending ends.reqIdCreator conn reqHeader reqData]) with
        reqIdCreator := ends.reqIdCreator + 1 }
    | _ => none
  | .onRequest i result =>
    match ends.tasks[i]? with
    | some ⟨tag, .handling conn reqHeader _⟩ =>
      match result with
      | .syncResponse respData => some (ends.respond config i tag conn reqHeader respData)
      | .noResponse => some (ends.respond config i tag conn reqHeader [])
      | .asyncResponse => some (ends.advance i tag [])
    | _ => none
  | .response reqId respData =>
    match ends.tasks.findIdx? fun task ↦ task.place.savedAs = some reqId with
    | none => some ends
    | some i =>
      match ends.tasks[i]? with
      | some ⟨tag, .pending _ conn reqHeader _⟩ =>
        some (ends.advance i tag [.answering conn reqHeader respData])
      | _ => none
  | .postMsg i =>
    match ends.tasks[i]? with
    | some ⟨tag, .answering conn reqHeader respData⟩ =>
      some (ends.respond config i tag conn reqHeader respData)
    | _ => none
  | .onResponse i =>
    match ends.tasks[i]? with
    | some ⟨tag, .returning _ msg⟩ => some ((ends.advance i tag []).onResponse config msg)
    | _ => none
  | .drop i =>
    match ends.tasks[i]? with
    | some ⟨tag, place⟩ => if place.losable then some (ends.advance i tag []) else none
    | none => none

/-- The serial of a call of `request` is not in flight: no handler waits for it, and nothing is
under way for a call with the same serial. -/
def FreshSerial (ends : Exchange Conn UserHandler) (action : ExchangeAction Conn) : Prop :=
  ∀ serial ∈ action.requestedSerial, ends.msgHandlers serial = none ∧
    ∀ task ∈ ends.tasks, ends.serialOf task.tag ≠ some serial

end Exchange

end TszyUlt.Lygc
