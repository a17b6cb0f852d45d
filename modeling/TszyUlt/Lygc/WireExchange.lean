import TszyUlt.Lygc.Correlation
import TszyUlt.Lygc.Network

/-!
# Requests over connections

The whole way of a call of `NetClient::request` of `lygc/net_server.hpp` and back: the two ends of
an `Exchange` with the byte streams of a `Network` between them. The client registers the handler,
packs the message and posts it to a connection; the bytes go out in the parts that the socket takes,
with heartbeats and the messages of other calls before and after them; the server reads them in the
chunks that TCP makes of them and cuts the messages off again; the workers take the messages in any
order, leave the heartbeats alone and pass the rest to `NetUser::onRecvMsg`; and a response goes the
same way back to `NetClient::onResponse`.

What the ends read here is what came out of the bytes. `calls_correlated` says that this is as good
as messages that are carried whole: the server works on each call at most once, on the header and
the body that were passed to `request`, and each handler is called at most once, with a response
that the server made for its own call.

A state seen without the bytes is an `Exchange` again (`view`), in which the messages on the wires
are tasks. Every step is one of that exchange, up to what was lost, so the invariant of
`Lygc.Correlation` holds of the view.

Scope. The user handlers return what they like, as in `Lygc.NetClient`. Connections are those of
`Lygc.Network`, and which of them a client picks is left open.
-/

set_option autoImplicit false
set_option relaxedAutoImplicit false

namespace TszyUlt.Lygc

open Lib Zbf

/-! ### The system -/

/-- What does not change: the two ends, and how their readers allocate. -/
structure WireConfig (UserHandler : Type*) extends ExchangeConfig UserHandler where
  clientAlloc : Allocator
  serverAlloc : Allocator

/-- The hosts at the ends of the directions. -/
def WireConfig.readers {UserHandler : Type*} (config : WireConfig UserHandler) : Direction → Reader
  | .toServer => ⟨config.serverOrder, config.serverAlloc⟩
  | .toClient => ⟨config.clientOrder, config.clientAlloc⟩

/-- A request that was passed to a user handler, and the call it belongs to. -/
structure HandledRequest where
  tag : Tag
  reqHeader : LymsgHeader
  reqData : Bytes
  deriving DecidableEq, Repr

/-- Both ends and the wires between them, with the requests that user handlers were given. -/
structure WireExchange (Conn UserHandler : Type*) where
  ends : Exchange Conn UserHandler
  network : Network Conn
  requests : List HandledRequest

/-- A section of the two ends that neither posts nor reads a message. -/
def ExchangeAction.isLocal {Conn : Type*} : ExchangeAction Conn → Bool
  | .request _ _ _ | .unregister _ | .savePenddingReq _ | .response _ _ | .drop _ => true
  | _ => false

/-- The steps of both ends, of the wires and of the workers. -/
inductive WireAction (Conn : Type*)
  /-- A section of the two ends that neither posts nor reads a message. -/
  | ends (action : ExchangeAction Conn)
  /-- `request`: the post, to the connection if there is one. -/
  | post (i : ℕ) (conn : Option Conn)
  /-- `async_client_manager::checkAlive`: a heartbeat is posted. -/
  | checkAlive (conn : Conn)
  /-- An I/O thread works on a wire, or one of its ends is closed. -/
  | wire (route : Route Conn) (action : TransportAction)
  /-- A worker of the server takes a message. -/
  | onRecvMsg (conn : Conn) (position : ℕ)
  /-- The user handler returns, with or without a response. -/
  | onRequest (i : ℕ) (result : RespType)
  /-- `NetServer::response`: the post. -/
  | postMsg (i : ℕ)
  /-- A worker of the client takes a message. -/
  | onResponse (conn : Conn) (position : ℕ)
  /-- A message is discarded: the queue of the worker is full, the user is gone, or the reader was
  closed before it could read it. -/
  | discard (route : Route Conn) (position : ℕ)

namespace WireExchange

variable {Conn UserHandler : Type*} [DecidableEq Conn]

/-- Both ends before the first request. -/
def new (config : WireConfig UserHandler) : WireExchange Conn UserHandler where
  ends := .new
  network := .new config.readers
  requests := []

/-- `NetUser::onRecvMsg`, up to the call of the user handler. -/
def onRecvMsg (config : WireConfig UserHandler) (state : WireExchange Conn UserHandler)
    (conn : Conn) (tag : Tag) (msg : TcpMessage) : WireExchange Conn UserHandler :=
  match unpackMsg config.serverOrder msg with
  | .error _ => state
  | .ok (reqHeader, reqData) =>
    match (state.ends.handlerOf conn).or (config.userHandlers reqHeader.origin) with
    | none => state
    | some handler =>
      { state with
        ends := { state.ends with
          handlerOf := Function.update state.ends.handlerOf conn (some handler)
          tasks := state.ends.tasks ++ [⟨tag, .handling conn reqHeader reqData⟩] }
        requests := state.requests ++ [⟨tag, reqHeader, reqData⟩] }

/-- `createResponse` and `postMsg`. -/
def respond (config : WireConfig UserHandler) (state : WireExchange Conn UserHandler) (i : ℕ)
    (tag : Tag) (conn : Conn) (reqHeader : LymsgHeader) (respData : Bytes) :
    WireExchange Conn UserHandler :=
  let msg := createResponse config.serverOrder config.baseOrigin reqHeader respData
  { state with
    ends := { state.ends.advance i tag [] with produced := state.ends.produced ++ [(tag, msg)] }
    network := (state.network.post (.toClient, conn) (some tag) msg).2 }

/-- One step of the whole. -/
def step (config : WireConfig UserHandler) (state : WireExchange Conn UserHandler) :
    WireAction Conn → Option (WireExchange Conn UserHandler)
  | .ends action =>
    if action.isLocal then
      (state.ends.step config.toExchangeConfig action).map fun ends ↦ { state with ends := ends }
    else none
  | .post i conn =>
    match state.ends.tasks[i]?, conn with
    | some ⟨tag, .posting msg⟩, some conn =>
      let posted := state.network.post (.toServer, conn) (some tag) msg
      if posted.1 = 0 then
        some { state with ends := state.ends.advance i tag [], network := posted.2 }
      else (state.ends.step config.toExchangeConfig (.post i none)).map fun ends ↦
        { state with ends := ends, network := posted.2 }
    | some ⟨_, .posting _⟩, none =>
      (state.ends.step config.toExchangeConfig (.post i none)).map fun ends ↦
        { state with ends := ends }
    | _, _ => none
  | .checkAlive conn =>
    some { state with network :=
      (state.network.post (.toServer, conn) none (lymsgHeartbeat config.clientOrder)).2 }
  | .wire route action =>
    (state.network.step config.readers route action).map fun network ↦
      { state with network := network }
  | .onRecvMsg conn position =>
    ((state.network.wires (.toServer, conn)).arrived position).bind fun msg ↦
      let taken := { state with network := state.network.take (.toServer, conn) position }
      if (config.readers .toServer).protocol.isHeartbeat msg then some taken
      else (state.network.origin (.toServer, conn) position).map fun tag ↦
        taken.onRecvMsg config conn tag msg
  | .onRequest i result =>
    match state.ends.tasks[i]? with
    | some ⟨tag, .handling conn reqHeader _⟩ =>
      match result with
      | .syncResponse respData => some (state.respond config i tag conn reqHeader respData)
      | .noResponse => some (state.respond config i tag conn reqHeader [])
      | .asyncResponse => some { state with ends := state.ends.advance i tag [] }
    | _ => none
  | .postMsg i =>
    match state.ends.tasks[i]? with
    | some ⟨tag, .answering conn reqHeader respData⟩ =>
      some (state.respond config i tag conn reqHeader respData)
    | _ => none
  | .onResponse conn position =>
    ((state.network.wires (.toClient, conn)).arrived position).map fun msg ↦
      { state with
        ends := state.ends.onResponse config.toExchangeConfig msg
        network := state.network.take (.toClient, conn) position }
  | .discard route position =>
    let wire := state.network.wires route
    if (wire.arrived position).isSome ∨
        wire.transport.receiver.closed = true ∧ position < wire.accepted.length then
      some { state with network := state.network.take route position }
    else none

/-- The serial of a call of `request` is not in flight: no handler waits for it, and nothing is
under way for a call with the same serial, at the ends or on a wire. -/
def FreshSerial (state : WireExchange Conn UserHandler) : WireAction Conn → Prop
  | .ends (.request reqHeader _ _) => state.ends.msgHandlers reqHeader.serial = none ∧
      (∀ task ∈ state.ends.tasks, state.ends.serialOf task.tag ≠ some reqHeader.serial) ∧
      ∀ entry ∈ state.network.posted, state.ends.serialOf entry.tag ≠ some reqHeader.serial
  | _ => True

end WireExchange

/-- The body that is packed because of a step. -/
def WireAction.body {Conn : Type*} : WireAction Conn → Bytes
  | .ends (.request _ reqData _) => reqData
  | .ends (.response _ respData) => respData
  | .onRequest _ (.syncResponse respData) => respData
  | _ => []

namespace WireExchange

variable {Conn UserHandler : Type*} [DecidableEq Conn]

/-- A call of `request` uses a serial that is not in flight, and no body is too long to be
carried. -/
def Admissible (state : WireExchange Conn UserHandler) (action : WireAction Conn) : Prop :=
  state.FreshSerial action ∧ action.body.length ≤ maxCarriedBody

/-! ### The view without the bytes -/

end WireExchange

/-- The task of an exchange that a message on a wire is. -/
def Posted.task {Conn : Type*} (entry : Posted Conn) : Task Conn where
  tag := entry.tag
  place :=
    match entry.route with
    | (.toServer, conn) => .sent conn entry.msg
    | (.toClient, conn) => .returning conn entry.msg

theorem Posted.savedAs_task {Conn : Type*} (entry : Posted Conn) :
    entry.task.place.savedAs = none := by
  obtain ⟨⟨direction, conn⟩, position, tag, msg⟩ := entry
  cases direction <;> rfl

namespace Exchange

variable {Conn UserHandler : Type*}

/-- An exchange with more tasks. -/
def addTasks (ends : Exchange Conn UserHandler) (extra : List (Task Conn)) :
    Exchange Conn UserHandler :=
  { ends with tasks := ends.tasks ++ extra }

/-- The exchanges differ in tasks that the second one has lost. -/
structure Covers (ends other : Exchange Conn UserHandler) : Prop where
  msgHandlers : other.msgHandlers = ends.msgHandlers
  calls : other.calls = ends.calls
  produced : other.produced = ends.produced
  invocations : other.invocations = ends.invocations
  tasks : other.tasks ⊆ ends.tasks

variable {config : ExchangeConfig UserHandler} {ends : Exchange Conn UserHandler}

/-- What is lost breaks no invariant. -/
theorem Invariant.covers (hinv : ends.Invariant config) {other : Exchange Conn UserHandler}
    (hcovers : ends.Covers other) : other.Invariant config := by
  have houtstanding : ∀ serial tag, other.Outstanding serial tag → ends.Outstanding serial tag := by
    rintro serial tag (hhandler | ⟨hserial, task, htask, rfl⟩)
    · exact Or.inl (hcovers.msgHandlers ▸ hhandler)
    · refine Or.inr ⟨?_, task, hcovers.tasks htask, rfl⟩
      rw [← hserial, serialOf, serialOf, hcovers.calls]
  refine ⟨fun task htask ↦ ?_, fun serial tag hhandler ↦ ?_,
    fun serial tag second htag hsecond ↦ ?_, ?_, fun invocation hmem ↦ ?_⟩
  · rw [hcovers.calls, hcovers.produced]
    exact hinv.genuine task (hcovers.tasks htask)
  · rw [hcovers.calls, hcovers.invocations]
    exact hinv.registered serial tag (hcovers.msgHandlers ▸ hhandler)
  · exact hinv.distinct serial tag second (houtstanding serial tag htag)
      (houtstanding serial second hsecond)
  · rw [hcovers.invocations]
    exact hinv.once
  · rw [Answers, hcovers.calls, hcovers.produced]
    exact hinv.answers invocation (hcovers.invocations ▸ hmem)

theorem getElem?_addTasks {extra : List (Task Conn)} {i : ℕ} {task : Task Conn}
    (htask : ends.tasks[i]? = some task) : (ends.addTasks extra).tasks[i]? = some task := by
  rw [addTasks, List.getElem?_append_left (List.getElem?_eq_some_iff.mp htask).1, htask]

/-- A task that goes on leaves the others where they are. -/
theorem covers_advance_addTasks {i : ℕ} {task : Task Conn} (htask : ends.tasks[i]? = some task)
    (tag : Tag) (places : List (Place Conn)) (extra : List (Task Conn)) :
    ((ends.addTasks extra).advance i tag places).Covers ((ends.advance i tag places).addTasks extra)
    where
  msgHandlers := rfl
  calls := rfl
  produced := rfl
  invocations := rfl
  tasks := by
    have hlt := (List.getElem?_eq_some_iff.mp htask).1
    intro other hother
    simp only [addTasks, advance, List.eraseIdx_append_of_lt_length hlt, List.mem_append]
      at hother ⊢
    tauto

/-- Tasks under which nothing is saved are not found under an id. -/
theorem any_addTasks {extra : List (Task Conn)}
    (hextra : ∀ task ∈ extra, task.place.savedAs = none) (reqId : RequestId) :
    ((ends.addTasks extra).tasks.any fun task ↦ task.place.savedAs = some reqId) =
      ends.tasks.any fun task ↦ task.place.savedAs = some reqId := by
  have hnone : (extra.any fun task ↦ task.place.savedAs = some reqId) = false := by
    rw [List.any_eq_false]
    intro task hmem
    rw [hextra task hmem]
    simp
  rw [addTasks, List.any_append, hnone, Bool.or_false]

theorem findIdx?_addTasks {extra : List (Task Conn)}
    (hextra : ∀ task ∈ extra, task.place.savedAs = none) (reqId : RequestId) :
    ((ends.addTasks extra).tasks.findIdx? fun task ↦ task.place.savedAs = some reqId) =
      ends.tasks.findIdx? fun task ↦ task.place.savedAs = some reqId := by
  have hnone : (extra.findIdx? fun task ↦ task.place.savedAs = some reqId) = none := by
    rw [List.findIdx?_eq_none_iff]
    intro task hmem
    rw [hextra task hmem]
    simp
  rw [addTasks, List.findIdx?_append, hnone, Option.map_none, Option.or_none]

/-- A section that neither posts nor reads a message does the same with more tasks. -/
theorem step_addTasks [DecidableEq Conn] {action : ExchangeAction Conn}
    (hlocal : action.isLocal = true) {next : Exchange Conn UserHandler}
    (hstep : ends.step config action = some next) {extra : List (Task Conn)}
    (hextra : ∀ task ∈ extra, task.place.savedAs = none) :
    ∃ next', (ends.addTasks extra).step config action = some next' ∧
      next'.Covers (next.addTasks extra) := by
  cases action with
  | request reqHeader reqData hasHandler =>
    cases hstep
    refine ⟨_, rfl, rfl, rfl, rfl, rfl, fun task htask ↦ ?_⟩
    simp only [addTasks, request, List.mem_append] at htask ⊢
    tauto
  | unregister i =>
    simp only [step] at hstep
    split at hstep
    · rename_i tag htask
      obtain ⟨serial, hserial, rfl⟩ := Option.map_eq_some_iff.mp hstep
      have hcovers := covers_advance_addTasks htask tag [] extra
      refine ⟨{ (ends.addTasks extra).advance i tag [] with
        msgHandlers := ends.msgHandlers.erase serial }, ?_, rfl, rfl, rfl, rfl, hcovers.tasks⟩
      have hserial' : (ends.addTasks extra).serialOf tag = some serial := hserial
      simp only [step, getElem?_addTasks htask, hserial', Option.map_some]
      rfl
    · cases hstep
  | savePenddingReq i =>
    simp only [step] at hstep
    split at hstep
    · rename_i tag conn reqHeader reqData htask
      obtain rfl := Option.some.inj hstep
      have hcovers := covers_advance_addTasks htask tag (.handling conn reqHeader reqData ::
          if ends.tasks.any fun task ↦ task.place.savedAs = some ends.reqIdCreator then []
          else [.pending ends.reqIdCreator conn reqHeader reqData]) extra
      refine ⟨{ (ends.addTasks extra).advance i tag (.handling conn reqHeader reqData ::
          if ends.tasks.any fun task ↦ task.place.savedAs = some ends.reqIdCreator then []
          else [.pending ends.reqIdCreator conn reqHeader reqData]) with
        reqIdCreator := ends.reqIdCreator + 1 }, ?_, rfl, rfl, rfl, rfl, hcovers.tasks⟩
      simp only [step, getElem?_addTasks htask, any_addTasks hextra]
      rfl
    · cases hstep
  | response reqId respData =>
    simp only [step] at hstep ⊢
    rw [findIdx?_addTasks hextra]
    split at hstep
    · cases hstep
      exact ⟨_, rfl, rfl, rfl, rfl, rfl, fun _ htask ↦ htask⟩
    · split at hstep
      · rename_i htask
        obtain rfl := Option.some.inj hstep
        simp only [getElem?_addTasks htask]
        exact ⟨_, rfl, covers_advance_addTasks htask _ _ extra⟩
      · cases hstep
  | drop i =>
    simp only [step] at hstep ⊢
    split at hstep
    · rename_i tag place htask
      split_ifs at hstep with hlosable
      obtain rfl := Option.some.inj hstep
      simp only [getElem?_addTasks htask, hlosable, if_true]
      exact ⟨_, rfl, covers_advance_addTasks htask _ _ extra⟩
    · cases hstep
  | post i conn => cases hlocal
  | onRecvMsg i => cases hlocal
  | onRequest i result => cases hlocal
  | postMsg i => cases hlocal
  | onResponse i => cases hlocal

theorem onResponse_addTasks (msg : TcpMessage) (extra : List (Task Conn)) :
    (ends.addTasks extra).onResponse config msg = (ends.onResponse config msg).addTasks extra := by
  have hhandlers : (ends.addTasks extra).msgHandlers = ends.msgHandlers := rfl
  unfold onResponse
  rw [hhandlers]
  split
  · rfl
  · split
    · rfl
    · split_ifs <;> rfl

theorem calls_onResponse (msg : TcpMessage) :
    (ends.onResponse config msg).calls = ends.calls := by
  unfold onResponse
  split
  · rfl
  · split
    · rfl
    · split_ifs <;> rfl

/-- The bodies that are still to be sent can be carried. -/
structure Short (ends : Exchange Conn UserHandler) : Prop where
  calls : ∀ call ∈ ends.calls, call.data.length ≤ maxCarriedBody
  answers : ∀ (tag : Tag) (conn : Conn) (reqHeader : LymsgHeader) (respData : Bytes),
    ⟨tag, .answering conn reqHeader respData⟩ ∈ ends.tasks → respData.length ≤ maxCarriedBody

end Exchange

/-- A place where nothing waits to be posted. -/
def Place.settled {Conn : Type*} : Place Conn → Bool
  | .posting _ | .answering _ _ _ => false
  | _ => true

/-- The call, if its message is still to be posted. -/
def Task.unposted {Conn : Type*} : Task Conn → Option Tag
  | ⟨tag, .posting _⟩ => some tag
  | _ => none

/-- The calls whose message is still to be posted. -/
def Exchange.unposted {Conn UserHandler : Type*} (ends : Exchange Conn UserHandler) : List Tag :=
  ends.tasks.filterMap Task.unposted

namespace Exchange

variable {Conn UserHandler : Type*} {config : ExchangeConfig UserHandler}
  {ends : Exchange Conn UserHandler}

/-- A task goes on to settled places. -/
theorem Short.advance (hshort : ends.Short) (i : ℕ) (tag : Tag) {places : List (Place Conn)}
    (hplaces : ∀ place ∈ places, place.settled = true) : (ends.advance i tag places).Short where
  calls := hshort.calls
  answers := fun other conn reqHeader respData hmem ↦ by
    rcases List.mem_append.mp hmem with hold | hnew
    · exact hshort.answers other conn reqHeader respData (List.mem_of_mem_eraseIdx hold)
    · obtain ⟨place, hplace, heq⟩ := List.mem_map.mp hnew
      cases heq
      cases hplaces _ hplace

/-- A task goes on, and no message is to be posted for it. -/
theorem unposted_advance (ends : Exchange Conn UserHandler) (i : ℕ) (tag : Tag)
    {places : List (Place Conn)} (hplaces : ∀ place ∈ places, Task.unposted ⟨tag, place⟩ = none) :
    (ends.advance i tag places).unposted = (ends.tasks.eraseIdx i).filterMap Task.unposted := by
  have hnone : (places.map (Task.mk tag)).filterMap Task.unposted = [] := by
    rw [List.filterMap_eq_nil_iff]
    intro task htask
    obtain ⟨place, hplace, rfl⟩ := List.mem_map.mp htask
    exact hplaces place hplace
  rw [unposted, Exchange.advance, List.filterMap_append, hnone, List.append_nil]

theorem unposted_advance_sublist (ends : Exchange Conn UserHandler) (i : ℕ) (tag : Tag)
    {places : List (Place Conn)} (hplaces : ∀ place ∈ places, Task.unposted ⟨tag, place⟩ = none) :
    (ends.advance i tag places).unposted.Sublist ends.unposted := by
  rw [unposted_advance ends i tag hplaces]
  exact (List.eraseIdx_sublist _ _).filterMap _

/-- The message of a call is posted. -/
theorem perm_unposted_advance {i : ℕ} {tag : Tag} {msg : TcpMessage}
    (htask : ends.tasks[i]? = some ⟨tag, .posting msg⟩) :
    ends.unposted.Perm (tag :: (ends.advance i tag []).unposted) := by
  obtain ⟨hlt, heq⟩ := List.getElem?_eq_some_iff.mp htask
  have hperm := (List.getElem_cons_eraseIdx_perm hlt).symm.filterMap Task.unposted
  rw [heq] at hperm
  rw [unposted_advance ends i tag fun _ hplace ↦ absurd hplace List.not_mem_nil]
  exact hperm

/-- What a section that neither posts nor reads a message does to the calls. -/
theorem local_step [DecidableEq Conn] {action : ExchangeAction Conn}
    (hlocal : action.isLocal = true) {next : Exchange Conn UserHandler}
    (hstep : ends.step config action = some next) (hshort : ends.Short)
    (hbody : (WireAction.ends action).body.length ≤ maxCarriedBody) :
    next.Short ∧ (next.calls = ends.calls ∧ next.unposted.Sublist ends.unposted ∨
      ∃ call, next.calls = ends.calls ++ [call] ∧
        next.unposted = ends.unposted ++ [ends.calls.length]) := by
  have hnothing : ∀ place ∈ ([] : List (Place Conn)), place.settled = true :=
    fun _ hplace ↦ absurd hplace List.not_mem_nil
  cases action with
  | request reqHeader reqData hasHandler =>
    cases hstep
    refine ⟨⟨fun call hcall ↦ ?_, fun tag conn header respData hmem ↦ ?_⟩, Or.inr ⟨_, rfl, ?_⟩⟩
    · rcases List.mem_append.mp hcall with hold | hnew
      · exact hshort.calls call hold
      · rw [List.mem_singleton.mp hnew]
        exact hbody
    · rcases List.mem_append.mp hmem with hold | hnew
      · exact hshort.answers tag conn header respData hold
      · cases List.mem_singleton.mp hnew
    · simp only [unposted, Exchange.request, List.filterMap_append, List.filterMap_cons,
        Task.unposted, List.filterMap_nil]
  | unregister i =>
    simp only [step] at hstep
    split at hstep
    · rename_i tag htask
      obtain ⟨serial, -, rfl⟩ := Option.map_eq_some_iff.mp hstep
      have hshort' := hshort.advance i tag hnothing
      exact ⟨⟨hshort'.calls, hshort'.answers⟩,
        Or.inl ⟨rfl, unposted_advance_sublist ends i tag (by simp)⟩⟩
    · cases hstep
  | savePenddingReq i =>
    simp only [step] at hstep
    split at hstep
    · rename_i tag conn reqHeader reqData htask
      obtain rfl := Option.some.inj hstep
      have hplaces : ∀ place ∈ (Place.handling conn reqHeader reqData ::
          if ends.tasks.any fun task ↦ task.place.savedAs = some ends.reqIdCreator then []
          else [.pending ends.reqIdCreator conn reqHeader reqData]),
          place.settled = true ∧ Task.unposted ⟨tag, place⟩ = none := by
        intro place hplace
        rcases List.mem_cons.mp hplace with rfl | hsaved
        · exact ⟨rfl, rfl⟩
        · split_ifs at hsaved
          · cases hsaved
          · rw [List.mem_singleton.mp hsaved]
            exact ⟨rfl, rfl⟩
      have hshort' := hshort.advance i tag fun place hplace ↦ (hplaces place hplace).1
      exact ⟨⟨hshort'.calls, hshort'.answers⟩, Or.inl ⟨rfl,
        unposted_advance_sublist ends i tag fun place hplace ↦ (hplaces place hplace).2⟩⟩
    · cases hstep
  | response reqId respData =>
    simp only [step] at hstep
    split at hstep
    · cases hstep
      exact ⟨hshort, Or.inl ⟨rfl, List.Sublist.refl _⟩⟩
    · split at hstep
      · rename_i i _ tag conn reqHeader reqData htask
        obtain rfl := Option.some.inj hstep
        refine ⟨⟨hshort.calls, fun other conn' header respData' hmem ↦ ?_⟩,
          Or.inl ⟨rfl, unposted_advance_sublist ends _ _ (by simp [Task.unposted])⟩⟩
        rcases List.mem_append.mp hmem with hold | hnew
        · exact hshort.answers other conn' header respData' (List.mem_of_mem_eraseIdx hold)
        · cases List.mem_singleton.mp hnew
          exact hbody
      · cases hstep
  | drop i =>
    simp only [step] at hstep
    split at hstep
    · rename_i tag place htask
      split_ifs at hstep
      obtain rfl := Option.some.inj hstep
      exact ⟨hshort.advance i tag hnothing,
        Or.inl ⟨rfl, unposted_advance_sublist ends i tag (by simp)⟩⟩
    · cases hstep
  | post i conn => cases hlocal
  | onRecvMsg i => cases hlocal
  | onRequest i result => cases hlocal
  | postMsg i => cases hlocal
  | onResponse i => cases hlocal

end Exchange

/-- The call, if its request is on a wire. -/
def Posted.requestTag {Conn : Type*} (entry : Posted Conn) : Option Tag :=
  if entry.route.1 = .toServer then some entry.tag else none

namespace WireExchange

variable {Conn UserHandler : Type*}

/-! ### The invariant -/

/-- The state without the bytes: the messages on the wires are tasks. -/
def view (state : WireExchange Conn UserHandler) : Exchange Conn UserHandler :=
  state.ends.addTasks (state.network.posted.map Posted.task)

/-- The calls whose request is to be posted, is on a wire, or was passed to a user handler. -/
def requestTags (state : WireExchange Conn UserHandler) : List Tag :=
  state.ends.unposted ++ state.network.posted.filterMap Posted.requestTag ++
    state.requests.map HandledRequest.tag

/-- The request is the one that was passed to the call of `request`. -/
def Heard (config : WireConfig UserHandler) (state : WireExchange Conn UserHandler)
    (request : HandledRequest) : Prop :=
  ∃ call, state.ends.calls[request.tag]? = some call ∧
    request.reqHeader = receivedHeader config.toExchangeConfig call ∧ request.reqData = call.data

/-- What holds in every state of a run. -/
structure Invariant (config : WireConfig UserHandler) (state : WireExchange Conn UserHandler) :
    Prop where
  carried : state.network.Carried config.readers
  exchange : state.view.Invariant config.toExchangeConfig
  short : state.ends.Short
  once : state.requestTags.Nodup
  known : ∀ tag ∈ state.requestTags, tag < state.ends.calls.length
  heard : ∀ request ∈ state.requests, state.Heard config request

theorem invariant_new (config : WireConfig UserHandler) :
    (new config : WireExchange Conn UserHandler).Invariant config where
  carried := Network.carried_new config.readers
  exchange := Exchange.invariant_new config.toExchangeConfig
  short := ⟨fun _ hcall ↦ absurd hcall List.not_mem_nil,
    fun _ _ _ _ htask ↦ absurd htask List.not_mem_nil⟩
  once := List.nodup_nil
  known := fun _ htag ↦ absurd htag List.not_mem_nil
  heard := fun _ hrequest ↦ absurd hrequest List.not_mem_nil

variable {config : WireConfig UserHandler} {state : WireExchange Conn UserHandler}

/-- Where the calls stay, what was heard stays heard, and the calls stay known that were. -/
theorem Invariant.forget (hinv : state.Invariant config) {next : WireExchange Conn UserHandler}
    (hcarried : next.network.Carried config.readers)
    (hexchange : next.view.Invariant config.toExchangeConfig) (hshort : next.ends.Short)
    (hcalls : next.ends.calls = state.ends.calls)
    (hunposted : next.ends.unposted.Sublist state.ends.unposted)
    (hposted : (next.network.posted.filterMap Posted.requestTag).Sublist
      (state.network.posted.filterMap Posted.requestTag))
    (hrequests : next.requests = state.requests) : next.Invariant config where
  carried := hcarried
  exchange := hexchange
  short := hshort
  once := by
    refine hinv.once.sublist ?_
    rw [requestTags, hrequests]
    exact (hunposted.append hposted).append (List.Sublist.refl _)
  known := fun tag htag ↦ by
    rw [hcalls]
    refine hinv.known tag (List.Sublist.subset ?_ htag)
    rw [requestTags, hrequests]
    exact (hunposted.append hposted).append (List.Sublist.refl _)
  heard := fun request hrequest ↦ by
    rw [Heard, hcalls]
    exact hinv.heard request (hrequests ▸ hrequest)

/-! ### The steps -/

/-- The bytes move, and nothing of a call does. -/
theorem Invariant.wires (hinv : state.Invariant config) {network : Network Conn}
    (hcarried : network.Carried config.readers) (hposted : network.posted = state.network.posted) :
    ({ state with network := network } : WireExchange Conn UserHandler).Invariant config := by
  refine hinv.forget hcarried ?_ hinv.short rfl (List.Sublist.refl _) ?_ rfl
  · rw [view, hposted]
    exact hinv.exchange
  · rw [hposted]

/-- The message of a call can be carried. -/
theorem Invariant.fits_of_posting (hinv : state.Invariant config) {i : ℕ} {tag : Tag}
    {msg : TcpMessage} (htask : state.ends.tasks[i]? = some ⟨tag, .posting msg⟩)
    (receiver : ByteOrder) : (lymsgProtocol_framable receiver).Fits msg := by
  obtain ⟨call, hcall, rfl⟩ := hinv.exchange.genuine _ (List.mem_append_left _
    (List.mem_of_getElem? htask))
  exact fits_packMsg _ _ _ (hinv.short.calls call (List.mem_of_getElem? hcall))

/-- A message for a call is posted, or lost. -/
theorem covers_posted {ends : Exchange Conn UserHandler} {i : ℕ} {task : Task Conn}
    (htask : ends.tasks[i]? = some task) (tag : Tag) (place : Place Conn)
    {before after : List (Posted Conn)}
    (hafter : ∀ entry ∈ after, entry ∈ before ∨ entry.task = ⟨tag, place⟩) :
    ((ends.addTasks (before.map Posted.task)).advance i tag [place]).Covers
      ((ends.advance i tag []).addTasks (after.map Posted.task)) := by
  refine ⟨rfl, rfl, rfl, rfl, fun other hother ↦ ?_⟩
  have hlt := (List.getElem?_eq_some_iff.mp htask).1
  simp only [Exchange.addTasks, Exchange.advance, List.map_nil, List.append_nil,
    List.eraseIdx_append_of_lt_length hlt, List.mem_append] at hother ⊢
  rcases hother with hends | hwire
  · exact Or.inl (Or.inl hends)
  · obtain ⟨entry, hentry, rfl⟩ := List.mem_map.mp hwire
    rcases hafter entry hentry with hold | hnew
    · exact Or.inl (Or.inr (List.mem_map_of_mem hold))
    · exact Or.inr (List.mem_singleton.mpr hnew)

/-- A task of the ends goes on to settled places, and what is on the wires stays. -/
theorem Invariant.settle (hinv : state.Invariant config) {i : ℕ} {tag : Tag} {place : Place Conn}
    (htask : state.ends.tasks[i]? = some ⟨tag, place⟩) {places : List (Place Conn)}
    (hplaces : ∀ next ∈ places, next = .unregistering) {network : Network Conn}
    (hcarried : network.Carried config.readers) (hposted : network.posted = state.network.posted) :
    ({ state with ends := state.ends.advance i tag places, network := network } :
      WireExchange Conn UserHandler).Invariant config := by
  refine hinv.forget hcarried ?_ (hinv.short.advance i tag fun next hnext ↦ ?_) rfl
    (Exchange.unposted_advance_sublist _ i tag fun next hnext ↦ ?_) ?_ rfl
  · rw [view, hposted]
    refine (hinv.exchange.advance (Exchange.getElem?_addTasks htask) places
      fun call _ next hnext ↦ ?_).covers (Exchange.covers_advance_addTasks htask tag places _)
    rw [hplaces next hnext]
    trivial
  · rw [hplaces next hnext]
    rfl
  · rw [hplaces next hnext]
    rfl
  · rw [hposted]

/-- A message that has arrived was accepted. -/
theorem Invariant.lt_of_arrived (hinv : state.Invariant config) {route : Route Conn} {position : ℕ}
    {msg : TcpMessage} (harrived : (state.network.wires route).arrived position = some msg) :
    position < (state.network.wires route).accepted.length :=
  (List.getElem?_eq_some_iff.mp
    ((hinv.carried.follows route).accepted_of_arrived harrived).1).1

section Steps

variable [DecidableEq Conn]

/-- A section that neither posts nor reads a message. -/
theorem Invariant.local_step (hinv : state.Invariant config) {action : ExchangeAction Conn}
    (hlocal : action.isLocal = true) (hadmissible : state.Admissible (.ends action))
    {ends : Exchange Conn UserHandler}
    (hstep : state.ends.step config.toExchangeConfig action = some ends) :
    ({ state with ends := ends } : WireExchange Conn UserHandler).Invariant config := by
  have hsaved : ∀ task ∈ state.network.posted.map Posted.task, task.place.savedAs = none := by
    intro task htask
    obtain ⟨entry, -, rfl⟩ := List.mem_map.mp htask
    exact entry.savedAs_task
  have hfresh : state.view.FreshSerial action := by
    intro serial hserial
    cases action with
    | request reqHeader reqData hasHandler =>
      obtain rfl := Option.some.inj hserial
      obtain ⟨hnone, htasks, hposted⟩ := hadmissible.1
      refine ⟨hnone, fun task htask ↦ ?_⟩
      rcases List.mem_append.mp htask with hlocal | hwire
      · exact htasks task hlocal
      · obtain ⟨entry, hentry, rfl⟩ := List.mem_map.mp hwire
        exact hposted entry hentry
    | _ => cases hserial
  obtain ⟨view, hview, hcovers⟩ := Exchange.step_addTasks hlocal hstep hsaved
  have hexchange := (Exchange.step_invariant hinv.exchange hfresh hview).covers hcovers
  obtain ⟨hshort, ⟨hcalls, hunposted⟩ | ⟨call, hcalls, hunposted⟩⟩ :=
    Exchange.local_step hlocal hstep hinv.short hadmissible.2
  · exact hinv.forget hinv.carried hexchange hshort hcalls hunposted (List.Sublist.refl _) rfl
  · have hknown := hinv.known
    have hperm : (({ state with ends := ends } : WireExchange Conn UserHandler).requestTags).Perm
        (state.ends.calls.length :: state.requestTags) := by
      rw [requestTags, requestTags, hunposted, List.append_assoc, List.append_assoc,
        List.append_assoc]
      exact List.perm_middle
    refine ⟨hinv.carried, hexchange, hshort, ?_, fun tag htag ↦ ?_, fun request hrequest ↦ ?_⟩
    · refine hperm.nodup_iff.mpr (List.nodup_cons.mpr ⟨fun hmem ↦ ?_, hinv.once⟩)
      exact absurd (hknown _ hmem) (lt_irrefl _)
    · show tag < ends.calls.length
      rw [hcalls, List.length_append]
      rcases List.mem_cons.mp (hperm.subset htag) with rfl | hold
      · exact Nat.lt_succ_self _
      · exact (hknown tag hold).trans (Nat.lt_succ_self _)
    · obtain ⟨call', hcall', hrest⟩ := hinv.heard request hrequest
      refine ⟨call', ?_, hrest⟩
      show ends.calls[request.tag]? = some call'
      rw [hcalls]
      exact getElem?_concat_of_some hcall' _

/-- A post that posts no request leaves the requests that are on the wires. -/
theorem requestTags_post (network : Network Conn) {route : Route Conn} {origin : Option ℕ}
    (horigin : route.1 = .toClient ∨ origin = none) (msg : TcpMessage) :
    (network.post route origin msg).2.posted.filterMap Posted.requestTag =
      network.posted.filterMap Posted.requestTag := by
  simp only [Network.post]
  split_ifs
  · cases origin with
    | none => simp
    | some tag =>
      obtain hclient | hnone := horigin
      · simp [Posted.requestTag, hclient]
      · cases hnone
  · rfl

/-- What a post of a message for a call adds when it accepts it. -/
theorem posted_post_of_accepted {network : Network Conn} {route : Route Conn} {tag : Tag}
    {msg : TcpMessage} (hrc : (network.post route (some tag) msg).1 = 0) :
    (network.post route (some tag) msg).2.posted =
      network.posted ++ [⟨route, (network.wires route).accepted.length, tag, msg⟩] := by
  have hwire : ((network.wires route).post msg).1 = 0 := hrc
  simp [Network.post, hwire]

theorem posted_post_of_refused {network : Network Conn} {route : Route Conn} {origin : Option ℕ}
    {msg : TcpMessage} (hrc : (network.post route origin msg).1 ≠ 0) :
    (network.post route origin msg).2.posted = network.posted :=
  if_neg hrc

/-- A heartbeat is posted. -/
theorem Invariant.checkAlive (hinv : state.Invariant config) (conn : Conn) :
    ({ state with network :=
      (state.network.post (.toServer, conn) none (lymsgHeartbeat config.clientOrder)).2 } :
        WireExchange Conn UserHandler).Invariant config := by
  refine hinv.wires (hinv.carried.post ?_ fun _ ↦ ⟨rfl, ?_⟩) ?_
  · rw [lymsgHeartbeat_eq_packMsg]
    exact fits_packMsg _ _ _ (Nat.zero_le _)
  · exact isHeartbeat_lymsgHeartbeat _ _
  · simp [Network.post]

/-- The message of a call is posted, and the post accepts it. -/
theorem Invariant.post (hinv : state.Invariant config) {i : ℕ} {tag : Tag} {msg : TcpMessage}
    (htask : state.ends.tasks[i]? = some ⟨tag, .posting msg⟩) (conn : Conn)
    (hrc : (state.network.post (.toServer, conn) (some tag) msg).1 = 0) :
    ({ state with
      ends := state.ends.advance i tag []
      network := (state.network.post (.toServer, conn) (some tag) msg).2 } :
        WireExchange Conn UserHandler).Invariant config := by
  have hposted := posted_post_of_accepted hrc
  have hperm : (({ state with
      ends := state.ends.advance i tag []
      network := (state.network.post (.toServer, conn) (some tag) msg).2 } :
        WireExchange Conn UserHandler).requestTags).Perm state.requestTags := by
    rw [requestTags, requestTags, hposted, List.filterMap_append]
    refine List.Perm.append_right _ ?_
    have hmove := (Exchange.perm_unposted_advance htask).append_right
      (state.network.posted.filterMap Posted.requestTag)
    refine List.Perm.trans ?_ hmove.symm
    rw [← List.append_assoc]
    exact List.perm_append_singleton _ _
  refine ⟨hinv.carried.post (hinv.fits_of_posting htask _) nofun, ?_, ?_, ?_, ?_, hinv.heard⟩
  · have hexchange : (state.view.advance i tag [.sent conn msg]).Invariant
        config.toExchangeConfig :=
      hinv.exchange.move (Exchange.getElem?_addTasks htask) fun _ hplace ↦ hplace
    refine hexchange.covers (covers_posted htask tag _ fun entry hentry ↦ ?_)
    rw [hposted, List.mem_append, List.mem_singleton] at hentry
    exact hentry.imp_right fun heq ↦ by rw [heq]; rfl
  · exact hinv.short.advance i tag fun _ hplace ↦ absurd hplace List.not_mem_nil
  · exact hperm.nodup_iff.mpr hinv.once
  · exact fun other hother ↦ hinv.known other (hperm.subset hother)

/-- The post of a call fails. -/
theorem Invariant.failPost (hinv : state.Invariant config) {i : ℕ} {tag : Tag} {msg : TcpMessage}
    (htask : state.ends.tasks[i]? = some ⟨tag, .posting msg⟩) {ends : Exchange Conn UserHandler}
    (hstep : state.ends.step config.toExchangeConfig (.post i none) = some ends)
    {network : Network Conn} (hcarried : network.Carried config.readers)
    (hposted : network.posted = state.network.posted) :
    ({ state with ends := ends, network := network } :
      WireExchange Conn UserHandler).Invariant config := by
  simp only [Exchange.step, htask] at hstep
  split_ifs at hstep
  · cases hstep
    exact hinv.settle htask (fun next hnext ↦ List.mem_singleton.mp hnext) hcarried hposted
  · cases hstep
    exact hinv.settle htask (fun next hnext ↦ absurd hnext List.not_mem_nil) hcarried hposted

/-- A request is answered: the response is posted, or lost. -/
theorem Invariant.respond (hinv : state.Invariant config) {i : ℕ} {tag : Tag} {place : Place Conn}
    (htask : state.ends.tasks[i]? = some ⟨tag, place⟩) (conn : Conn) (reqHeader : LymsgHeader)
    {respData : Bytes} (hdata : respData.length ≤ maxCarriedBody)
    (hheader : ∀ call made, place.Genuine config.toExchangeConfig call made →
      reqHeader = receivedHeader config.toExchangeConfig call) :
    (state.respond config i tag conn reqHeader respData).Invariant config := by
  have hfits := fits_packMsg config.serverOrder config.clientOrder
    (responseHeader config.baseOrigin reqHeader) hdata
  have hcarried : (state.network.post (.toClient, conn) (some tag)
      (createResponse config.serverOrder config.baseOrigin reqHeader respData)).2.Carried
        config.readers := hinv.carried.post hfits nofun
  refine hinv.forget hcarried ?_ ?_ rfl ?_ ?_ rfl
  · have hexchange := hinv.exchange.respond (Exchange.getElem?_addTasks htask) conn reqHeader
      respData hheader
    have hafter : ∀ entry ∈ (state.network.post (.toClient, conn) (some tag)
        (createResponse config.serverOrder config.baseOrigin reqHeader respData)).2.posted,
        entry ∈ state.network.posted ∨ entry.task = ⟨tag, .returning conn
          (createResponse config.serverOrder config.baseOrigin reqHeader respData)⟩ := by
      intro entry hentry
      refine (Network.mem_posted_post hentry).imp_right ?_
      rintro ⟨-, tag', htag, rfl⟩
      obtain rfl := Option.some.inj htag
      rfl
    exact hexchange.covers ⟨rfl, rfl, rfl, rfl, (covers_posted htask tag _ hafter).tasks⟩
  · have hshort : (state.ends.advance i tag []).Short :=
      hinv.short.advance i tag fun _ hplace ↦ absurd hplace List.not_mem_nil
    exact ⟨hshort.calls, hshort.answers⟩
  · have hsublist : (state.ends.advance i tag []).unposted.Sublist state.ends.unposted :=
      Exchange.unposted_advance_sublist state.ends i tag fun _ hplace ↦
        absurd hplace List.not_mem_nil
    exact hsublist
  · rw [WireExchange.respond, requestTags_post _ (Or.inl rfl)]

/-- A message on a wire is a task of the view; the others stay when it is gone. -/
theorem exists_view_task {entry : Posted Conn} (hentry : entry ∈ state.network.posted)
    (ends : Exchange Conn UserHandler) :
    ∃ i, (ends.addTasks (state.network.posted.map Posted.task)).tasks[i]? = some entry.task ∧
      ∀ task ∈ ends.tasks ++ (state.network.take entry.route entry.position).posted.map Posted.task,
        task ∈ (ends.addTasks (state.network.posted.map Posted.task)).tasks.eraseIdx i := by
  obtain ⟨before, after, hsplit⟩ := List.append_of_mem hentry
  have htasks : (ends.addTasks (state.network.posted.map Posted.task)).tasks =
      (ends.tasks ++ before.map Posted.task) ++ entry.task :: after.map Posted.task := by
    rw [Exchange.addTasks, hsplit, List.map_append, List.map_cons, List.append_assoc]
  refine ⟨(ends.tasks ++ before.map Posted.task).length, ?_, fun task htask ↦ ?_⟩
  · rw [htasks, List.getElem?_append_right le_rfl, Nat.sub_self]
    rfl
  · rw [htasks, List.eraseIdx_append_of_length_le le_rfl, Nat.sub_self, List.eraseIdx_cons_zero,
      List.mem_append, List.mem_append]
    rcases List.mem_append.mp htask with hlocal | hwire
    · exact Or.inl (Or.inl hlocal)
    · obtain ⟨other, hother, rfl⟩ := List.mem_map.mp hwire
      obtain ⟨hmem, hkey⟩ := Network.mem_posted_take.mp hother
      rw [hsplit, List.mem_append, List.mem_cons] at hmem
      rcases hmem with hbefore | rfl | hafter
      · exact Or.inl (Or.inr (List.mem_map_of_mem hbefore))
      · exact absurd ⟨rfl, rfl⟩ hkey
      · exact Or.inr (List.mem_map_of_mem hafter)

theorem covers_take (route : Route Conn) (position : ℕ) :
    state.view.Covers
      ({ state with network := state.network.take route position } :
        WireExchange Conn UserHandler).view := by
  refine ⟨rfl, rfl, rfl, rfl, fun task htask ↦ ?_⟩
  rcases List.mem_append.mp htask with hlocal | hwire
  · exact List.mem_append_left _ hlocal
  · obtain ⟨entry, hentry, rfl⟩ := List.mem_map.mp hwire
    exact List.mem_append_right _ (List.mem_map_of_mem (Network.mem_posted_take.mp hentry).1)

theorem requestTags_take (network : Network Conn) (route : Route Conn) (position : ℕ) :
    ((network.take route position).posted.filterMap Posted.requestTag).Sublist
      (network.posted.filterMap Posted.requestTag) :=
  List.filter_sublist.filterMap _

/-- A message is taken, and that is all. -/
theorem Invariant.take (hinv : state.Invariant config) {route : Route Conn} {position : ℕ}
    (hposition : position < (state.network.wires route).accepted.length) :
    ({ state with network := state.network.take route position } :
      WireExchange Conn UserHandler).Invariant config :=
  hinv.forget (hinv.carried.take hposition) (hinv.exchange.covers (covers_take route position))
    hinv.short rfl (List.Sublist.refl _) (requestTags_take _ route position) rfl

/-- An element moves from the middle of a list to its end, and others are lost. -/
theorem subperm_of_moved {α : Type*} {front all kept rest back : List α} {moved : α}
    (hperm : all.Perm (moved :: rest)) (hkept : kept.Sublist rest) :
    (front ++ kept ++ (back ++ [moved])).Subperm (front ++ all ++ back) := by
  have hall : (front ++ rest ++ (back ++ [moved])).Perm (front ++ all ++ back) := by
    rw [← List.append_assoc]
    refine (List.perm_append_singleton _ _).trans ?_
    exact (List.perm_middle.symm.trans (hperm.symm.append_left front)).append_right back
  exact (((List.Sublist.refl front).append hkept).append (List.Sublist.refl _)).subperm.trans
    hall.subperm

/-- Of the requests on the wires, one is taken. -/
theorem exists_perm_requestTags {network : Network Conn} {entry : Posted Conn}
    (hentry : entry ∈ network.posted) (hroute : entry.route.1 = .toServer) :
    ∃ rest, (network.posted.filterMap Posted.requestTag).Perm (entry.tag :: rest) ∧
      ((network.take entry.route entry.position).posted.filterMap Posted.requestTag).Sublist
        rest := by
  obtain ⟨before, after, hsplit⟩ := List.append_of_mem hentry
  refine ⟨(before ++ after).filterMap Posted.requestTag, ?_, ?_⟩
  · rw [hsplit, List.filterMap_append, List.filterMap_append, List.filterMap_cons,
      Posted.requestTag, if_pos hroute]
    exact List.perm_middle
  · refine List.Sublist.filterMap _ ?_
    rw [Network.take, hsplit, List.filter_append, List.filter_cons_of_neg (by simp)]
    exact List.filter_sublist.append List.filter_sublist

/-- What the server reads of the message of a call. -/
theorem read_of_genuine {call : RequestCall} {msg : TcpMessage}
    (hmsg : msg = packMsg config.clientOrder call.header call.data) {reqHeader : LymsgHeader}
    {reqData : Bytes} (hread : unpackMsg config.serverOrder msg = .ok (reqHeader, reqData)) :
    reqHeader = receivedHeader config.toExchangeConfig call ∧ reqData = call.data := by
  rw [hmsg, unpackMsg_packMsg, Except.ok.injEq, Prod.mk.injEq] at hread
  exact ⟨hread.1.symm, hread.2.symm⟩

/-- A worker of the server passes a request to the user handler. -/
theorem Invariant.handle (hinv : state.Invariant config) {conn : Conn} {position : ℕ} {tag : Tag}
    {msg : TcpMessage}
    (hentry : (⟨(.toServer, conn), position, tag, msg⟩ : Posted Conn) ∈ state.network.posted)
    (hposition : position < (state.network.wires (.toServer, conn)).accepted.length)
    {reqHeader : LymsgHeader} {reqData : Bytes}
    (hread : unpackMsg config.serverOrder msg = .ok (reqHeader, reqData)) (handler : UserHandler) :
    ({ state with
      network := state.network.take (.toServer, conn) position
      ends := { state.ends with
        handlerOf := Function.update state.ends.handlerOf conn (some handler)
        tasks := state.ends.tasks ++ [⟨tag, .handling conn reqHeader reqData⟩] }
      requests := state.requests ++ [⟨tag, reqHeader, reqData⟩] } :
        WireExchange Conn UserHandler).Invariant config := by
  obtain ⟨i, hi, hkept⟩ := exists_view_task hentry state.ends
  obtain ⟨rest, hperm, hrest⟩ := exists_perm_requestTags hentry rfl
  obtain ⟨call, hcall, hmsg⟩ := hinv.exchange.genuine _ (List.mem_of_getElem? hi)
  have hnew : ({ state.ends with
      handlerOf := Function.update state.ends.handlerOf conn (some handler)
      tasks := state.ends.tasks ++ [⟨tag, .handling conn reqHeader reqData⟩] } :
        Exchange Conn UserHandler).unposted = state.ends.unposted := by
    rw [Exchange.unposted, List.filterMap_append]
    exact List.append_nil _
  have htags : (state.ends.unposted ++
      (state.network.take (.toServer, conn) position).posted.filterMap Posted.requestTag ++
        (state.requests.map HandledRequest.tag ++ [tag])).Subperm state.requestTags :=
    subperm_of_moved hperm hrest
  refine ⟨hinv.carried.take hposition, ?_, ⟨hinv.short.calls, ?_⟩, ?_, ?_, ?_⟩
  · have hexchange : (state.view.advance i tag [.handling conn reqHeader reqData]).Invariant
        config.toExchangeConfig :=
      hinv.exchange.move hi fun _ hplace ↦ (read_of_genuine hplace hread).1
    refine hexchange.covers ⟨rfl, rfl, rfl, rfl, fun task htask ↦ ?_⟩
    simp only [view, Exchange.addTasks, List.mem_append] at htask
    rcases htask with (hends | hlast) | hwire
    · exact List.mem_append_left _ (hkept task (List.mem_append_left _ hends))
    · exact List.mem_append_right _ hlast
    · exact List.mem_append_left _ (hkept task (List.mem_append_right _ hwire))
  · intro other conn' header respData hmem
    rcases List.mem_append.mp hmem with hold | hlast
    · exact hinv.short.answers other conn' header respData hold
    · cases List.mem_singleton.mp hlast
  · rw [requestTags, hnew, List.map_append]
    obtain ⟨tags, hperm', hsublist⟩ := htags
    exact hperm'.nodup_iff.mp (hinv.once.sublist hsublist)
  · rw [requestTags, hnew, List.map_append]
    exact fun other hother ↦ hinv.known other (htags.subset hother)
  · intro request hrequest
    rcases List.mem_append.mp hrequest with hold | hlast
    · exact hinv.heard request hold
    · obtain rfl := List.mem_singleton.mp hlast
      exact ⟨call, hcall, read_of_genuine hmsg hread⟩

/-- A worker of the server takes a message. -/
theorem Invariant.onRecvMsg (hinv : state.Invariant config) {conn : Conn} {position : ℕ}
    {msg : TcpMessage}
    (harrived : (state.network.wires (.toServer, conn)).arrived position = some msg) {tag : Tag}
    (horigin : state.network.origin (.toServer, conn) position = some tag) :
    (({ state with network := state.network.take (.toServer, conn) position } :
      WireExchange Conn UserHandler).onRecvMsg config conn tag msg).Invariant config := by
  have hposition := hinv.lt_of_arrived harrived
  have hentry := hinv.carried.arrived harrived horigin
  cases hread : unpackMsg config.serverOrder msg with
  | error error =>
    simp only [WireExchange.onRecvMsg, hread]
    exact hinv.take hposition
  | ok read =>
    obtain ⟨reqHeader, reqData⟩ := read
    simp only [WireExchange.onRecvMsg, hread]
    cases (state.ends.handlerOf conn).or (config.userHandlers reqHeader.origin) with
    | none => exact hinv.take hposition
    | some handler => exact hinv.handle hentry hposition hread handler

/-- A worker of the client takes a message. -/
theorem Invariant.onResponse (hinv : state.Invariant config) {conn : Conn} {position : ℕ}
    {msg : TcpMessage}
    (harrived : (state.network.wires (.toClient, conn)).arrived position = some msg) :
    ({ state with
      ends := state.ends.onResponse config.toExchangeConfig msg
      network := state.network.take (.toClient, conn) position } :
        WireExchange Conn UserHandler).Invariant config := by
  have hposition := hinv.lt_of_arrived harrived
  have horigin : (state.network.origin (.toClient, conn) position).isSome := by
    rcases hinv.carried.origin_of_arrived harrived with hcall | ⟨hroute, -⟩
    · exact hcall
    · cases hroute
  obtain ⟨tag, htag⟩ := Option.isSome_iff_exists.mp horigin
  have hentry := hinv.carried.arrived harrived htag
  have htask : (⟨tag, .returning conn msg⟩ : Task Conn) ∈ state.view.tasks :=
    List.mem_append_right _ (List.mem_map_of_mem hentry)
  have htasks : (state.ends.onResponse config.toExchangeConfig msg).tasks = state.ends.tasks :=
    Exchange.tasks_onResponse msg
  have hcalls : (state.ends.onResponse config.toExchangeConfig msg).calls = state.ends.calls :=
    Exchange.calls_onResponse msg
  refine hinv.forget (hinv.carried.take hposition) ?_ ⟨?_, ?_⟩ hcalls ?_
    (requestTags_take _ _ position) rfl
  · have hexchange := hinv.exchange.onResponse htask
    rw [view, Exchange.onResponse_addTasks] at hexchange
    refine hexchange.covers ⟨rfl, rfl, rfl, rfl, fun task hmem ↦ ?_⟩
    rcases List.mem_append.mp hmem with hlocal | hwire
    · exact List.mem_append_left _ hlocal
    · obtain ⟨entry, hkept, rfl⟩ := List.mem_map.mp hwire
      exact List.mem_append_right _ (List.mem_map_of_mem (Network.mem_posted_take.mp hkept).1)
  · rw [hcalls]
    exact hinv.short.calls
  · rw [htasks]
    exact hinv.short.answers
  · rw [Exchange.unposted, Exchange.unposted, htasks]

/-- Every admissible step keeps the invariant. -/
theorem step_invariant {action : WireAction Conn} {next : WireExchange Conn UserHandler}
    (hinv : state.Invariant config) (hadmissible : state.Admissible action)
    (hstep : state.step config action = some next) : next.Invariant config := by
  cases action with
  | ends action =>
    simp only [step] at hstep
    split_ifs at hstep with hlocal
    obtain ⟨ends, hends, rfl⟩ := Option.map_eq_some_iff.mp hstep
    exact hinv.local_step hlocal hadmissible hends
  | post i conn =>
    simp only [step] at hstep
    split at hstep
    · rename_i tag msg conn htask
      have hfits := hinv.fits_of_posting htask
      split_ifs at hstep with hrc
      · cases hstep
        exact hinv.post htask conn hrc
      · obtain ⟨ends, hends, rfl⟩ := Option.map_eq_some_iff.mp hstep
        exact hinv.failPost htask hends (hinv.carried.post (hfits _) nofun)
          (posted_post_of_refused hrc)
    · rename_i tag msg htask
      obtain ⟨ends, hends, rfl⟩ := Option.map_eq_some_iff.mp hstep
      exact hinv.failPost htask hends hinv.carried rfl
    · cases hstep
  | checkAlive conn =>
    cases hstep
    exact hinv.checkAlive conn
  | wire route action =>
    obtain ⟨network, hnetwork, rfl⟩ := Option.map_eq_some_iff.mp hstep
    obtain ⟨hcarried, hposted⟩ := hinv.carried.step hnetwork
    exact hinv.wires hcarried hposted
  | onRecvMsg conn position =>
    obtain ⟨msg, harrived, hnext⟩ := Option.bind_eq_some_iff.mp hstep
    dsimp only at hnext
    split_ifs at hnext
    · cases hnext
      exact hinv.take (hinv.lt_of_arrived harrived)
    · obtain ⟨tag, htag, rfl⟩ := Option.map_eq_some_iff.mp hnext
      exact hinv.onRecvMsg harrived htag
  | onRequest i result =>
    simp only [step] at hstep
    split at hstep
    · rename_i tag conn reqHeader reqData htask
      cases result with
      | syncResponse respData =>
        cases hstep
        exact hinv.respond htask conn reqHeader hadmissible.2 fun _ _ hplace ↦ hplace
      | noResponse =>
        cases hstep
        exact hinv.respond htask conn reqHeader (Nat.zero_le _) fun _ _ hplace ↦ hplace
      | asyncResponse =>
        cases hstep
        exact hinv.settle htask (fun _ hnext ↦ absurd hnext List.not_mem_nil) hinv.carried rfl
    · cases hstep
  | postMsg i =>
    simp only [step] at hstep
    split at hstep
    · rename_i tag conn reqHeader respData htask
      cases hstep
      exact hinv.respond htask conn reqHeader
        (hinv.short.answers tag conn reqHeader respData (List.mem_of_getElem? htask))
        fun _ _ hplace ↦ hplace
    · cases hstep
  | onResponse conn position =>
    obtain ⟨msg, harrived, rfl⟩ := Option.map_eq_some_iff.mp hstep
    exact hinv.onResponse harrived
  | discard route position =>
    simp only [step] at hstep
    split_ifs at hstep with hlost
    cases hstep
    refine hinv.take ?_
    rcases hlost with harrived | ⟨-, hlt⟩
    · obtain ⟨msg, hmsg⟩ := Option.isSome_iff_exists.mp harrived
      exact hinv.lt_of_arrived hmsg
    · exact hlt

end Steps

/-! ### All runs -/

variable [DecidableEq Conn]

/-- Assumes: a run in which every call of `request` uses a serial that is not in flight and no body
is too long to be carried. However the bytes went, the user handlers were given the request of each
call at most once, with the header and the body that were passed to `request`. Each handler of the
client was called at most once, with a response that the server made for its own call. And the
server can go on with every message that has come out of the bytes. -/
theorem calls_correlated (config : WireConfig UserHandler) {actions : List (WireAction Conn)}
    {final : WireExchange Conn UserHandler}
    (hadmissible : Along (step config) Admissible (new config) actions)
    (hrun : runFrom (step config) (new config) actions = some final) :
    (final.requests.map HandledRequest.tag).Nodup ∧
      (∀ request ∈ final.requests, final.Heard config request) ∧
      (final.ends.invocations.map Invocation.handler).Nodup ∧
      (∀ invocation ∈ final.ends.invocations,
        final.ends.Answers config.toExchangeConfig invocation) ∧
      ∀ conn position, ((final.network.wires (.toServer, conn)).arrived position).isSome →
        (final.step config (.onRecvMsg conn position)).isSome := by
  have hinv : final.Invariant config :=
    runFrom_invariant_along (Invariant config)
      (fun _ _ _ hstate hcondition hstep ↦ step_invariant hstate hcondition hstep)
      (invariant_new config) hadmissible hrun
  refine ⟨hinv.once.of_append_right, hinv.heard, hinv.exchange.once, hinv.exchange.answers,
    fun conn position harrived ↦ ?_⟩
  obtain ⟨msg, hmsg⟩ := Option.isSome_iff_exists.mp harrived
  rw [step, hmsg, Option.bind_some]
  dsimp only
  split_ifs with hheartbeat
  · rfl
  · rw [Option.isSome_map]
    exact (hinv.carried.origin_of_arrived hmsg).resolve_right fun h ↦ hheartbeat h.2

/-- A request behind a heartbeat, in two reads that cut the heartbeat in two. The worker with the
request is the faster one. -/
theorem calls_correlated_behindHeartbeat :
    ∃ final, runFrom (step ⟨⟨.little, .little, 3, 7, fun _ ↦ some (), false⟩, .zeroing, .zeroing⟩)
        (new ⟨⟨.little, .little, 3, 7, fun _ ↦ some (), false⟩, .zeroing, .zeroing⟩ :
          WireExchange Unit Unit)
        [.ends (.request ⟨0, 0, 0x21#32, 1, 0⟩ [1#8] true), .checkAlive (), .post 0 (some ()),
        .wire (.toServer, ()) (.sender .checkOpen), .wire (.toServer, ()) (.sender .takeFront),
        .wire (.toServer, ()) (.sender (.send (.sent 20))),
        .wire (.toServer, ()) (.sender .checkOpen), .wire (.toServer, ()) (.sender .takeFront),
        .wire (.toServer, ()) (.sender (.send (.sent 21))), .wire (.toServer, ()) (.recv 15),
        .wire (.toServer, ()) (.recv 26), .onRecvMsg () 1, .onRecvMsg () 0,
        .onRequest 0 (.syncResponse [9#8]), .wire (.toClient, ()) (.sender .checkOpen),
        .wire (.toClient, ()) (.sender .takeFront),
        .wire (.toClient, ()) (.sender (.send (.sent 21))), .wire (.toClient, ()) (.recv 21),
        .onResponse () 0] = some final ∧
      final.requests.map HandledRequest.tag = [0] ∧
      final.ends.invocations.map Invocation.handler = [0] ∧
      ∀ invocation ∈ final.ends.invocations,
        final.ends.Answers ⟨.little, .little, 3, 7, fun _ ↦ some (), false⟩ invocation := by
  have hcalled : (runFrom (step ⟨⟨.little, .little, 3, 7, fun _ ↦ some (), false⟩, .zeroing,
        .zeroing⟩)
      (new ⟨⟨.little, .little, 3, 7, fun _ ↦ some (), false⟩, .zeroing, .zeroing⟩ :
        WireExchange Unit Unit)
      [.ends (.request ⟨0, 0, 0x21#32, 1, 0⟩ [1#8] true), .checkAlive (), .post 0 (some ()),
      .wire (.toServer, ()) (.sender .checkOpen), .wire (.toServer, ()) (.sender .takeFront),
      .wire (.toServer, ()) (.sender (.send (.sent 20))),
      .wire (.toServer, ()) (.sender .checkOpen), .wire (.toServer, ()) (.sender .takeFront),
      .wire (.toServer, ()) (.sender (.send (.sent 21))), .wire (.toServer, ()) (.recv 15),
      .wire (.toServer, ()) (.recv 26), .onRecvMsg () 1, .onRecvMsg () 0,
      .onRequest 0 (.syncResponse [9#8]), .wire (.toClient, ()) (.sender .checkOpen),
      .wire (.toClient, ()) (.sender .takeFront),
      .wire (.toClient, ()) (.sender (.send (.sent 21))), .wire (.toClient, ()) (.recv 21),
      .onResponse () 0]).map
      (fun state ↦ (state.requests.map HandledRequest.tag,
        state.ends.invocations.map Invocation.handler)) = some ([0], [0]) := by
    decide +kernel
  obtain ⟨final, hrun, htags⟩ := Option.map_eq_some_iff.mp hcalled
  obtain ⟨hrequests, hhandlers⟩ := Prod.mk.injEq _ _ _ _ ▸ htags
  refine ⟨final, hrun, hrequests, hhandlers, (calls_correlated _ ?_ hrun).2.2.2.1⟩
  refine ⟨⟨?_, by decide⟩, fun next _ ↦ along_of_forall ?_ next⟩
  · exact ⟨rfl, fun _ htask ↦ absurd htask List.not_mem_nil,
      fun _ hentry ↦ absurd hentry List.not_mem_nil⟩
  · simp [Admissible, FreshSerial, WireAction.body, maxCarriedBody, maxPendingSize, readSize,
      headerBytes]

end WireExchange

end TszyUlt.Lygc
