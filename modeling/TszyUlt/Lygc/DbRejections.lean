import TszyUlt.Lygc.DbProxyUsers
import TszyUlt.Lygc.DisconnectCleanup

/-!
# Requests that a database proxy does not accept

`DBProxyMySQLUser::onRecvMsg`, `DBProxyRedisUser::onRecvMsg` and `DBProxyMongoUser::onRecvMsg` with
`submit` of the three proxies, over the runs of `DbProxy`. A request is rejected in three places:
its slot is out of range, there is no pool in the slot, or the pool answers `PoolIsBusy`. In each of
them the proxy writes to its log and returns. A response is made only from an entry that was saved
for an accepted request (`Savers`), so a rejected request is never answered, and `allAnswered_iff`
says that the requests of connected users are answered where they are rejected exactly if none of
them is.

Scope. As in `DbProxy`; `received` records the requests in the order of `onRecvMsg`.
-/

set_option autoImplicit false
set_option relaxedAutoImplicit false

namespace TszyUlt.Lygc

open Lib Zbf Fszm Wjp

/-- The slot of the request in a body. -/
def DbKind.dbSlot {Doc : Type} (bson : Libbson Doc) (order : ByteOrder) (reqData : Bytes) :
    DbKind → BitVec 8
  | .mysql => (MysqlClientReq.deserialize order reqData).dbSlot
  | .redis => (RedisClientReq.deserialize order reqData).dbSlot
  | .mongo => (MongoClientReq.deserialize bson order reqData : MongoClientReq Doc Unit).head.dbSlot

namespace DbProxy

variable {order : ByteOrder} {origin : BitVec 16} {pools : Fin maxDbSlots → Bool}
variable {proxy next : DbProxy} {action : DbAction} {tag : ℕ}

/-! ### What becomes of a call -/

/-- What a step makes of where a call of `submit` stands. -/
def SubmitMoves (action : DbAction) (tag : ℕ) (before after : SubmitAt) : Prop :=
  after = before ∨ before = .pushing ∧ action = .push tag ∨ before = .saving ∧ after = .accepted

/-- A step keeps every call, and takes its `submit` at most one section further. -/
theorem submit_of_step (hstep : proxy.step order origin pools action = some next) {call : DbCall}
    (hcall : proxy.calls[tag]? = some call) :
    ∃ call', next.calls[tag]? = some call' ∧
      SubmitMoves action tag call.submit call'.submit := by
  have hset : ∀ {other : ℕ} {found found' : DbCall}, proxy.calls[other]? = some found →
      next.calls = proxy.calls.set other found' →
      SubmitMoves action other found.submit found'.submit →
      ∃ call', next.calls[tag]? = some call' ∧
        SubmitMoves action tag call.submit call'.submit := by
    intro other found found' hfound hcalls hmoves
    rw [hcalls]
    by_cases heq : other = tag
    · subst heq
      cases hcall.symm.trans hfound
      exact ⟨found', getElem?_set_of_some hfound, hmoves⟩
    · exact ⟨call, (List.getElem?_set_ne heq).trans hcall, Or.inl rfl⟩
  cases step_moves hstep with
  | submit slot hslot hpool reqHeader user =>
    exact ⟨call, getElem?_concat_of_some hcall _, Or.inl rfl⟩
  | accept other found hfound hpushing queue hpush submit hnow =>
    exact hset hfound rfl (Or.inr (Or.inl ⟨hpushing, rfl⟩))
  | refuse other found hfound hpushing =>
    exact hset hfound rfl (Or.inr (Or.inl ⟨hpushing, rfl⟩))
  | savePenddingReq other found hfound hsaving =>
    exact hset hfound rfl (Or.inr (Or.inr ⟨hsaving, rfl⟩))
  | pop slot other queue hpop found hfound => exact hset hfound rfl (Or.inl rfl)
  | requeue other found hfound => exact hset hfound rfl (Or.inl rfl)
  | answer other found hfound => exact hset hfound rfl (Or.inl rfl)
  | take other found hfound => exact hset hfound rfl (Or.inl rfl)
  | lockUser other found hfound => exact hset hfound rfl (Or.inl rfl)
  | drop other found hfound => exact hset hfound rfl (Or.inl rfl)
  | post other found hfound => exact hset hfound rfl (Or.inl rfl)
  | idle | stop | disconnect | cleanShard | destroyUser => exact ⟨call, hcall, Or.inl rfl⟩

/-- The push is refused exactly if the queue is full or the id is `PoolIsBusy`. -/
theorem submit_of_push (hstep : proxy.step order origin pools (.push tag) = some next) :
    ∃ call call', proxy.calls[tag]? = some call ∧ call.submit = .pushing ∧
      next.calls[tag]? = some call' ∧
      (call'.submit = .busy ↔
        ¬((proxy.queues call.slot).items.length < maxPendingReq ∧ call.dbReqId ≠ poolIsBusy)) := by
  simp only [step] at hstep
  split at hstep
  next call hcall =>
    split at hstep
    next hpushing =>
      by_cases hroom : (proxy.queues call.slot).items.length < maxPendingReq
      · simp only [SafeQueue.push, if_pos hroom] at hstep
        cases hstep
        refine ⟨call, _, hcall, hpushing, getElem?_set_of_some hcall, ?_⟩
        by_cases hid : call.dbReqId = poolIsBusy <;> simp [hroom, hid]
      · simp only [SafeQueue.push, if_neg hroom] at hstep
        cases hstep
        exact ⟨call, _, hcall, hpushing, getElem?_set_of_some hcall, by simp [hroom]⟩
    next => cases hstep
  next => cases hstep

/-! ### Who is answered -/

/-- A `submit` that is not about to push or to save stays as it is. -/
theorem submit_ended_of_step {place : SubmitAt} (hpushing : place ≠ .pushing)
    (hsaving : place ≠ .saving)
    (hplace : ∃ call, proxy.calls[tag]? = some call ∧ call.submit = place)
    (hstep : proxy.step order origin pools action = some next) :
    ∃ call, next.calls[tag]? = some call ∧ call.submit = place := by
  obtain ⟨call, hcall, rfl⟩ := hplace
  obtain ⟨call', hcall', hmoves⟩ := submit_of_step hstep hcall
  rcases hmoves with hsame | ⟨hat, -⟩ | ⟨hat, -⟩
  · exact ⟨call', hcall', hsame⟩
  · exact absurd hat hpushing
  · exact absurd hat hsaving

/-- The pool has accepted the request of a call of `submit`, and the call has returned. -/
def Accepted (proxy : DbProxy) (tag : ℕ) : Prop :=
  ∃ call, proxy.calls[tag]? = some call ∧ call.submit = .accepted

theorem Accepted.of_step (haccepted : proxy.Accepted tag)
    (hstep : proxy.step order origin pools action = some next) : next.Accepted tag :=
  submit_ended_of_step nofun nofun haccepted hstep

/-- The pool has answered `PoolIsBusy` to a call of `submit`. -/
def Busy (proxy : DbProxy) (tag : ℕ) : Prop :=
  ∃ call, proxy.calls[tag]? = some call ∧ call.submit = .busy

theorem Busy.of_step (hbusy : proxy.Busy tag)
    (hstep : proxy.step order origin pools action = some next) : next.Busy tag :=
  submit_ended_of_step nofun nofun hbusy hstep

theorem Busy.not_accepted (hbusy : proxy.Busy tag) : ¬proxy.Accepted tag := by
  rintro ⟨call, hcall, haccepted⟩
  obtain ⟨other, hother, hsubmit⟩ := hbusy
  cases hcall.symm.trans hother
  cases haccepted.symm.trans hsubmit

/-- Every entry, and every response that is made or under way, is from an accepted request. -/
structure Savers (proxy : DbProxy) : Prop where
  entries : ∀ slot, Sharded.ClearOf (proxy.poolCtx slot) (fun _ ↦ true)
    fun pendReq ↦ ¬proxy.Accepted pendReq.saver
  taken : ∀ (tag : ℕ) (call : DbCall), proxy.calls[tag]? = some call → ∀ pendReq respData,
    call.request = .found pendReq respData ∨ call.request = .posting pendReq respData →
    proxy.Accepted pendReq.saver
  posts : ∀ post ∈ proxy.posts, proxy.Accepted post.saver

theorem savers_new : new.Savers where
  entries _ := Sharded.clearOf_empty
  taken _ _ hcall := by cases hcall
  posts _ hmem := absurd hmem List.not_mem_nil

theorem Savers.view (hsavers : proxy.Savers) {slot : Fin maxDbSlots} {dbReqId : RequestId}
    {pendReq : PenddingReq} (hentry : proxy.view slot dbReqId = some pendReq) :
    proxy.Accepted pendReq.saver :=
  not_not.mp (hsavers.entries slot _ rfl _ _ hentry)

theorem accepted_of_save
    (hstep : proxy.step order origin pools (.savePenddingReq tag) = some next) :
    next.Accepted tag := by
  simp only [step] at hstep
  split at hstep
  next call hcall =>
    split at hstep
    next =>
      cases hstep
      exact ⟨_, getElem?_set_of_some hcall, rfl⟩
    next => cases hstep
  next => cases hstep

theorem Savers.entries_of_step (hsavers : proxy.Savers)
    (hstep : proxy.step order origin pools action = some next) (slot : Fin maxDbSlots) :
    Sharded.ClearOf (next.poolCtx slot) (fun _ ↦ true)
      fun pendReq ↦ ¬next.Accepted pendReq.saver := by
  have hold : ∀ slot, Sharded.ClearOf (proxy.poolCtx slot) (fun _ ↦ true)
      fun pendReq ↦ ¬next.Accepted pendReq.saver :=
    fun slot shard hshard key value hvalue hnot ↦ hsavers.entries slot shard hshard key value hvalue
      fun haccepted ↦ hnot (haccepted.of_step hstep)
  have hchange := entryChange_step hstep
  refine @EntryChange.clearOf proxy _ _ hchange (fun _ _ ↦ true) _ hold ?_ slot
  -- the entry that is inserted is that of a call that returns with it
  rintro other call rfl hcall hnot
  exact absurd (accepted_of_save hstep) hnot

theorem Savers.taken_of_step (hsavers : proxy.Savers)
    (hstep : proxy.step order origin pools action = some next) {call : DbCall}
    (hcall : next.calls[tag]? = some call) {pendReq : PenddingReq} {respData : Bytes}
    (htaken : call.request = .found pendReq respData ∨ call.request = .posting pendReq respData) :
    proxy.Accepted pendReq.saver := by
  have hset : ∀ {other : ℕ} {found' : DbCall}, next.calls = proxy.calls.set other found' →
      (∀ pendReq respData, found'.request = .found pendReq respData ∨
        found'.request = .posting pendReq respData → proxy.Accepted pendReq.saver) →
      proxy.Accepted pendReq.saver := by
    intro other found' hcalls hfound'
    rw [hcalls] at hcall
    rcases getElem?_set_cases hcall with ⟨-, rfl⟩ | ⟨-, hold⟩
    · exact hfound' pendReq respData htaken
    · exact hsavers.taken tag call hold pendReq respData htaken
  cases step_moves hstep with
  | submit slot hslot hpool reqHeader user =>
    rcases getElem?_concat_cases hcall with hold | ⟨-, rfl⟩
    · exact hsavers.taken tag call hold pendReq respData htaken
    · rcases htaken with hfound | hposting
      · cases hfound
      · cases hposting
  | take other found hfound hworking entry hentry data =>
    refine hset rfl fun pendReq respData htaken ↦ ?_
    rcases htaken with hsame | hsame
    · cases hsame
      exact hsavers.view hentry
    · cases hsame
  | lockUser other found hfound entry data hold halive =>
    refine hset rfl fun pendReq respData htaken ↦ ?_
    rcases htaken with hsame | hsame
    · cases hsame
    · cases hsame
      exact hsavers.taken other found hfound entry data (Or.inl hold)
  | refuse other found hfound => exact hset rfl (hsavers.taken other found hfound)
  | savePenddingReq other found hfound => exact hset rfl (hsavers.taken other found hfound)
  | accept | pop | requeue | answer | drop | post =>
    refine hset rfl fun pendReq respData htaken ↦ ?_
    rcases htaken with hsame | hsame <;> cases hsame
  | idle | stop | disconnect | cleanShard | destroyUser =>
    exact hsavers.taken tag call hcall pendReq respData htaken

/-- Every step keeps it. -/
theorem Savers.of_step (hsavers : proxy.Savers)
    (hstep : proxy.step order origin pools action = some next) : next.Savers where
  entries := hsavers.entries_of_step hstep
  taken _ _ hcall _ _ htaken := (hsavers.taken_of_step hstep hcall htaken).of_step hstep
  posts post hpost := by
    refine Accepted.of_step ?_ hstep
    cases step_moves hstep with
    | post other found hfound pendReq respData hposting =>
      rcases List.mem_append.mp hpost with hold | hnew
      · exact hsavers.posts post hold
      · rw [List.mem_singleton.mp hnew]
        exact hsavers.taken other found hfound pendReq respData (Or.inr hposting)
    | idle | submit | accept | refuse | savePenddingReq | pop | requeue | answer | take | lockUser
    | drop | stop | disconnect | cleanShard | destroyUser => exact hsavers.posts post hpost

end DbProxy

/-! ### Receptions -/

/-- A request of the right type in `onRecvMsg`: the user, whether it was connected, the header, and
the call of `submit` in a pool, if a pool was found. -/
structure DbReception where
  user : UserId
  connected : Bool
  reqHeader : LymsgHeader
  call : Option ℕ
  deriving DecidableEq, Repr

/-- A proxy with the requests that its users have received. -/
structure DbService where
  proxy : DbProxy
  received : List DbReception

/-- What happens to a proxy: a user receives a message, or anything else. -/
inductive DbServiceAction
  | onRecvMsg (msg : TcpMessage) (user : UserId)
  | proxy (action : DbAction)
  deriving DecidableEq, Repr

namespace DbService

/-- A proxy before its first request. -/
def new : DbService := ⟨.new, []⟩

variable {Doc : Type} (bson : Libbson Doc) (kind : DbKind) (order : ByteOrder)
variable (origin : BitVec 16) (pools : Fin maxDbSlots → Bool)

/-- One step: `onRecvMsg` up to the draw of the id in the pool, or a step of the proxy behind it. -/
def step (service : DbService) : DbServiceAction → Option DbService
  | .onRecvMsg msg user =>
    match unpackMsg order msg with
    | .error _ => some service
    | .ok (reqHeader, reqData) =>
      if reqHeader.type = kind.msgType then
        (service.proxy.step order origin pools
          (.submit (kind.dbSlot bson order reqData) reqHeader user)).map fun proxy ↦
            { proxy := proxy
              received := service.received ++ [⟨user, service.proxy.connected user, reqHeader,
                (poolAt pools (kind.dbSlot bson order reqData)).map fun _ ↦
                  service.proxy.calls.length⟩] }
      else some service
  | .proxy (.submit _ _ _) => none
  | .proxy action =>
    (service.proxy.step order origin pools action).map fun proxy ↦ { service with proxy := proxy }

/-- The pool does not accept the request: there is none, or it has answered `PoolIsBusy`. -/
def Rejected (service : DbService) (reception : DbReception) : Prop :=
  ∀ tag ∈ reception.call, service.proxy.Busy tag

/-- The responses posted for a request. -/
def answersTo (service : DbService) (reception : DbReception) : List DbPost :=
  service.proxy.posts.filter fun post ↦ reception.call = some post.saver

/-- Every request of a connected user that the pool does not accept has had one response, made from
its own header and so with its serial, posted to the user. -/
def AllAnswered (service : DbService) : Prop :=
  ∀ reception ∈ service.received, reception.connected = true → service.Rejected reception →
    ∃ saver respData, service.answersTo reception =
      [⟨saver, reception.user, createResponse order origin reception.reqHeader respData⟩]

/-- The pool of a request of a connected user exists, and when the request is pushed its queue has
room and the id that was drawn is not `PoolIsBusy`. -/
def Accepts (service : DbService) : DbServiceAction → Prop
  | .onRecvMsg msg user =>
    ∀ request ∈ (unpackMsg order msg).toOption, request.1.type = kind.msgType →
      service.proxy.connected user = true →
        poolAt pools (kind.dbSlot bson order request.2) ≠ none
  | .proxy (.push tag) =>
    ∀ call ∈ service.proxy.calls[tag]?,
      (∃ reception ∈ service.received, reception.call = some tag ∧ reception.connected = true) →
        (service.proxy.queues call.slot).items.length < maxPendingReq ∧ call.dbReqId ≠ poolIsBusy
  | .proxy _ => True

variable {bson kind order origin pools} {service next : DbService} {action : DbServiceAction}

theorem answersTo_eq_nil (hsavers : service.proxy.Savers) {reception : DbReception}
    (hrejected : service.Rejected reception) : service.answersTo reception = [] := by
  refine List.filter_eq_nil_iff.mpr fun post hpost hcall ↦ ?_
  have hbusy := hrejected post.saver (of_decide_eq_true hcall)
  exact hbusy.not_accepted (hsavers.posts post hpost)

/-- A step of the proxy behind `onRecvMsg`. -/
theorem step_proxy {dbAction : DbAction}
    (hstep : step bson kind order origin pools service (.proxy dbAction) = some next) :
    service.proxy.step order origin pools dbAction = some next.proxy ∧
      next.received = service.received := by
  cases dbAction with
  | submit slot reqHeader user => cases hstep
  | push | savePenddingReq | pop | requeue | onResponse | lockUser | post | stop | disconnect
  | cleanShard | destroyUser =>
    simp only [step, Option.map_eq_some_iff] at hstep
    obtain ⟨proxy, hproxy, rfl⟩ := hstep
    exact ⟨hproxy, rfl⟩

/-- `onRecvMsg` does nothing, or a request of the right type is received. -/
theorem step_onRecvMsg {msg : TcpMessage} {user : UserId}
    (hstep : step bson kind order origin pools service (.onRecvMsg msg user) = some next) :
    (next = service ∧
      ∀ request ∈ (unpackMsg order msg).toOption, request.1.type ≠ kind.msgType) ∨
      ∃ reqHeader reqData, unpackMsg order msg = .ok (reqHeader, reqData) ∧
        reqHeader.type = kind.msgType ∧
        service.proxy.step order origin pools
          (.submit (kind.dbSlot bson order reqData) reqHeader user) = some next.proxy ∧
        next.received = service.received ++ [⟨user, service.proxy.connected user, reqHeader,
          (poolAt pools (kind.dbSlot bson order reqData)).map fun _ ↦
            service.proxy.calls.length⟩] := by
  simp only [step] at hstep
  cases hunpack : unpackMsg order msg with
  | error code =>
    rw [hunpack] at hstep
    cases hstep
    exact Or.inl ⟨rfl, fun request hrequest ↦ by cases hrequest⟩
  | ok request =>
    obtain ⟨reqHeader, reqData⟩ := request
    simp only [hunpack] at hstep
    split at hstep
    next htype =>
      obtain ⟨proxy, hproxy, rfl⟩ := Option.map_eq_some_iff.mp hstep
      exact Or.inr ⟨reqHeader, reqData, rfl, htype, hproxy, rfl⟩
    next htype =>
      cases hstep
      exact Or.inl ⟨rfl, fun request hrequest ↦ by cases hrequest; exact htype⟩

/-- The step of the proxy in a step of the service, if there is one. -/
theorem proxy_of_step (hstep : step bson kind order origin pools service action = some next) :
    next.proxy = service.proxy ∨
      ∃ dbAction, service.proxy.step order origin pools dbAction = some next.proxy := by
  cases action with
  | onRecvMsg msg user =>
    rcases step_onRecvMsg hstep with ⟨rfl, -⟩ | ⟨_, _, -, -, hproxy, -⟩
    · exact Or.inl rfl
    · exact Or.inr ⟨_, hproxy⟩
  | proxy dbAction => exact Or.inr ⟨dbAction, (step_proxy hstep).1⟩

theorem savers_of_step (hsavers : service.proxy.Savers)
    (hstep : step bson kind order origin pools service action = some next) :
    next.proxy.Savers := by
  rcases proxy_of_step hstep with hsame | ⟨dbAction, hproxy⟩
  · exact hsame ▸ hsavers
  · exact hsavers.of_step hproxy

/-- A rejected request remains in the record, and rejected. -/
theorem rejected_of_step (hstep : step bson kind order origin pools service action = some next)
    {reception : DbReception} (hmem : reception ∈ service.received)
    (hrejected : service.Rejected reception) :
    reception ∈ next.received ∧ next.Rejected reception := by
  constructor
  · cases action with
    | onRecvMsg msg user =>
      rcases step_onRecvMsg hstep with ⟨rfl, -⟩ | ⟨_, _, -, -, -, hreceived⟩
      · exact hmem
      · rw [hreceived]
        exact List.mem_append_left _ hmem
    | proxy dbAction => rwa [(step_proxy hstep).2]
  · intro tag htag
    rcases proxy_of_step hstep with hsame | ⟨dbAction, hproxy⟩
    · rw [hsame]
      exact hrejected tag htag
    · exact (hrejected tag htag).of_step hproxy

/-- A request of a connected user is rejected. -/
def SomeRejected (service : DbService) : Prop :=
  ∃ reception ∈ service.received, reception.connected = true ∧ service.Rejected reception

/-- A step that does not meet the condition rejects a request of a connected user. -/
theorem rejected_of_not_accepts
    (hstep : step bson kind order origin pools service action = some next)
    (hnot : ¬service.Accepts bson kind order pools action) : next.SomeRejected := by
  cases action with
  | onRecvMsg msg user =>
    rcases step_onRecvMsg hstep with ⟨-, hother⟩ | ⟨reqHeader, reqData, hunpack, -, -, hreceived⟩
    · exact absurd (fun request hrequest htype ↦ absurd htype (hother request hrequest)) hnot
    · simp only [Accepts, hunpack, Except.toOption, Option.mem_some_iff, forall_eq',
        Classical.not_imp, not_not] at hnot
      obtain ⟨-, hconnected, hpool⟩ := hnot
      refine ⟨_, hreceived ▸ List.mem_append_right _ (List.mem_singleton.mpr rfl), hconnected, ?_⟩
      intro tag htag
      rw [hpool] at htag
      cases htag
  | proxy dbAction =>
    cases dbAction with
    | push tag =>
      obtain ⟨hproxy, hreceived⟩ := step_proxy hstep
      obtain ⟨call, call', hcall, -, hcall', hbusy⟩ := DbProxy.submit_of_push hproxy
      simp only [Accepts, hcall, Option.mem_some_iff, forall_eq', Classical.not_imp] at hnot
      obtain ⟨⟨reception, hmem, htag, hconnected⟩, hfull⟩ := hnot
      refine ⟨reception, hreceived ▸ hmem, hconnected, fun other hother ↦ ?_⟩
      cases htag.symm.trans hother
      exact ⟨call', hcall', hbusy.mpr hfull⟩
    | submit | savePenddingReq | pop | requeue | onResponse | lockUser | post | stop | disconnect
    | cleanShard | destroyUser => exact absurd trivial hnot

/-- No request of a connected user is rejected. -/
def NoneRejected (service : DbService) : Prop :=
  ∀ reception ∈ service.received, reception.connected = true →
    ∃ tag call, reception.call = some tag ∧ service.proxy.calls[tag]? = some call ∧
      call.submit ≠ .busy

theorem NoneRejected.not_rejected (hnone : service.NoneRejected) {reception : DbReception}
    (hmem : reception ∈ service.received) (hconnected : reception.connected = true) :
    ¬service.Rejected reception := by
  intro hrejected
  obtain ⟨tag, call, htag, hcall, hsubmit⟩ := hnone reception hmem hconnected
  obtain ⟨busy, hbusyCall, hbusy⟩ := hrejected tag htag
  cases hcall.symm.trans hbusyCall
  exact hsubmit hbusy

/-- A step that meets the condition rejects no request of a connected user. -/
theorem NoneRejected.of_step (hnone : service.NoneRejected)
    (haccepts : service.Accepts bson kind order pools action)
    (hstep : step bson kind order origin pools service action = some next) :
    next.NoneRejected := by
  cases action with
  | onRecvMsg msg user =>
    rcases step_onRecvMsg hstep with
      ⟨rfl, -⟩ | ⟨reqHeader, reqData, hunpack, htype, hproxy, hreceived⟩
    · exact hnone
    · intro reception hmem hconnected
      rw [hreceived] at hmem
      rcases List.mem_append.mp hmem with hold | hnew
      · obtain ⟨tag, call, htag, hcall, hsubmit⟩ := hnone reception hold hconnected
        obtain ⟨call', hcall', hmoves⟩ := DbProxy.submit_of_step hproxy hcall
        refine ⟨tag, call', htag, hcall', ?_⟩
        rcases hmoves with hsame | ⟨-, hpush⟩ | ⟨-, haccepted⟩
        · rwa [hsame]
        · cases hpush
        · simp [haccepted]
      · rw [List.mem_singleton.mp hnew] at hconnected ⊢
        have hpool := haccepts (reqHeader, reqData) (by rw [hunpack]; rfl) htype hconnected
        obtain ⟨pool, hpool⟩ := Option.ne_none_iff_exists'.mp hpool
        have hcalls := step_submit_calls hproxy
        rw [hpool] at hcalls
        have hlast : next.proxy.calls[service.proxy.calls.length]? =
            some ⟨pool, service.proxy.reqIds pool, reqHeader, user, .pushing, .unsent, 0⟩ := by
          rw [hcalls]
          exact List.getElem?_concat_length
        exact ⟨_, _, by rw [hpool]; rfl, hlast, by simp⟩
  | proxy dbAction =>
    obtain ⟨hproxy, hreceived⟩ := step_proxy hstep
    intro reception hmem hconnected
    rw [hreceived] at hmem
    obtain ⟨tag, call, htag, hcall, hsubmit⟩ := hnone reception hmem hconnected
    obtain ⟨call', hcall', hmoves⟩ := DbProxy.submit_of_step hproxy hcall
    refine ⟨tag, call', htag, hcall', ?_⟩
    rcases hmoves with hsame | ⟨-, rfl⟩ | ⟨-, haccepted⟩
    · rwa [hsame]
    · obtain ⟨pushed, pushed', hpushed, -, hpushed', hbusy⟩ := DbProxy.submit_of_push hproxy
      cases hcall'.symm.trans hpushed'
      rw [ne_eq, hbusy, not_not]
      exact haccepts pushed hpushed ⟨reception, hmem, htag, hconnected⟩
    · simp [haccepted]

/-! ### Runs -/

section Runs

variable {actions : List DbServiceAction} {final : DbService}

theorem savers_run (hrun : runFrom (step bson kind order origin pools) new actions = some final) :
    final.proxy.Savers :=
  runFrom_invariant (fun service ↦ service.proxy.Savers)
    (fun _ _ _ hsavers hnext ↦ savers_of_step hsavers hnext) DbProxy.savers_new hrun

/-- A run in which the pools accept every request ends with none rejected, and any other one with
one that is. -/
theorem run_cases (hrun : runFrom (step bson kind order origin pools) new actions = some final) :
    Along (step bson kind order origin pools) (Accepts bson kind order pools) new actions ∧
        final.NoneRejected ∨
      ¬Along (step bson kind order origin pools) (Accepts bson kind order pools) new actions ∧
        final.SomeRejected := by
  refine runFrom_along_or NoneRejected SomeRejected ?_ ?_
    (fun _ hmem ↦ absurd hmem List.not_mem_nil) hrun
  · intro service action next hnone hnext
    by_cases haccepts : service.Accepts bson kind order pools action
    · exact Or.inl ⟨haccepts, hnone.of_step haccepts hnext⟩
    · exact Or.inr ⟨haccepts, rejected_of_not_accepts hnext haccepts⟩
  · rintro service action next ⟨reception, hmem, hconnected, hrejected⟩ hnext
    obtain ⟨hkept, hstill⟩ := rejected_of_step hnext hmem hrejected
    exact ⟨reception, hkept, hconnected, hstill⟩

/-- In every run of each of the three proxies, whatever the threads do in whatever order: the
requests of connected users that the pools do not accept have each been answered with one response
exactly if the pools accept all of them. -/
theorem allAnswered_iff (bson : Libbson Doc) (kind : DbKind) (order : ByteOrder)
    (origin : BitVec 16) (pools : Fin maxDbSlots → Bool) {actions : List DbServiceAction}
    {final : DbService}
    (hrun : runFrom (step bson kind order origin pools) new actions = some final) :
    final.AllAnswered order origin ↔
      Along (step bson kind order origin pools) (Accepts bson kind order pools) new actions := by
  rcases run_cases hrun with ⟨hall, hnone⟩ | ⟨hnot, reception, hmem, hconnected, hrejected⟩
  · refine iff_of_true (fun reception hmem hconnected hrejected ↦ ?_) hall
    exact absurd hrejected (hnone.not_rejected hmem hconnected)
  · refine iff_of_false (fun hanswered ↦ ?_) hnot
    obtain ⟨saver, respData, hone⟩ := hanswered reception hmem hconnected hrejected
    rw [answersTo_eq_nil (savers_run hrun) hrejected] at hone
    cases hone

/-- A request that the pool of its slot accepts. -/
theorem allAnswered_iff_accepted :
    ∃ final, runFrom (step framedBson .redis .little 9#16 fun _ ↦ true) new
        [.onRecvMsg (packMsg .little ⟨0, 0, typeDbRedis, 7, 0⟩ []) 0, .proxy (.push 0)] =
          some final ∧
      (final.AllAnswered .little 9#16 ↔
        Along (step framedBson .redis .little 9#16 fun _ ↦ true)
          (Accepts framedBson .redis .little fun _ ↦ true) new
          [.onRecvMsg (packMsg .little ⟨0, 0, typeDbRedis, 7, 0⟩ []) 0, .proxy (.push 0)]) := by
  obtain ⟨final, hrun⟩ := Option.isSome_iff_exists.mp (show (runFrom
    (step framedBson .redis .little 9#16 fun _ ↦ true) new
    [.onRecvMsg (packMsg .little ⟨0, 0, typeDbRedis, 7, 0⟩ []) 0, .proxy (.push 0)]).isSome = true
      by decide +kernel)
  exact ⟨final, hrun, allAnswered_iff framedBson .redis .little 9#16 (fun _ ↦ true) hrun⟩

/-- A request for a slot without a pool: nothing is posted to the user, who is connected. -/
theorem not_allAnswered_noPool :
    ∃ final, runFrom (step framedBson .redis .little 9#16 fun _ ↦ false) new
        [.onRecvMsg (packMsg .little ⟨0, 0, typeDbRedis, 7, 0⟩ []) 0] = some final ∧
      final.proxy.posts = [] ∧ ¬final.AllAnswered .little 9#16 := by
  refine ⟨_, rfl, rfl, fun hall ↦ ?_⟩
  obtain ⟨saver, respData, hone⟩ :=
    hall _ List.mem_cons_self rfl fun tag htag ↦ by cases htag
  cases hone

end Runs

end DbService

end TszyUlt.Lygc
