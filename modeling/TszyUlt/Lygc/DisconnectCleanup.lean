import TszyUlt.Lygc.DbProxy
import TszyUlt.Lygc.PendingStoreContract

/-!
# The pending requests of users that have disconnected

`tcpsock_server::worker` and `monitor` of `zbf/socket_tcp_v5.hpp`, over the two stores of pending
requests: `NetServer` (`PendingStore`) and `DBProxyBase` (`DbProxy`). A worker calls `onRecvMsg` of
a user that is not closed when it looks; the handler may save requests, and it may still be running
when the user is closed. The monitor calls `onDisconnect` of a closed user once, and this sweeps the
shards one by one, each under its own lock, for the entries of the user.

`ServerUsers` is what the two servers share: the closed marks, the users whose handlers run, and how
far `onDisconnect` is. `NetCleanup` and `DbCleanup` add it to the stores and say when a step of the
store may be taken: a request is saved by a handler, a sweep is part of an `onDisconnect`, and a
user is destroyed after both. What is saved under which id, and how an answer takes it out, is as in
the stores.

The test of the closed mark and the insertion are not one step, so that an entry may be inserted
into a shard that the sweep has passed. Nothing removes it then when the handler has ended
(`not_cleanup_complete`). Where no insertion is that late (`SavedInTime`), a user has no entry left
once its `onDisconnect` has returned (`cleanup_complete`).
-/

set_option autoImplicit false
set_option relaxedAutoImplicit false

namespace TszyUlt.Lygc

open Lib Zbf

/-! ### The workers and the monitor -/

/-- What a `tcpsock_server` knows of its users. -/
structure ServerUsers (Thread : Type*) where
  /-- `isClosed`. -/
  closed : UserId → Bool
  /-- The user whose `onRecvMsg` a thread runs. -/
  handling : Thread → Option UserId
  /-- The monitor has called `onDisconnect`. -/
  called : UserId → Bool
  /-- `onDisconnect` has returned. -/
  returned : UserId → Bool

namespace ServerUsers

variable {Thread : Type*} [DecidableEq Thread]

/-- The users of a server that was just started. -/
def new : ServerUsers Thread where
  closed := fun _ ↦ false
  handling := fun _ ↦ none
  called := fun _ ↦ false
  returned := fun _ ↦ false

/-- No handler of the user is running. -/
def Quiet (users : ServerUsers Thread) (user : UserId) : Prop :=
  ∀ thread, users.handling thread ≠ some user

instance [Fintype Thread] (users : ServerUsers Thread) (user : UserId) :
    Decidable (users.Quiet user) :=
  inferInstanceAs (Decidable (∀ thread, users.handling thread ≠ some user))

/-- `worker`: the user is not closed, and its `onRecvMsg` is called. -/
def startHandler (users : ServerUsers Thread) (thread : Thread) (user : UserId) :
    Option (ServerUsers Thread) :=
  if users.handling thread = none ∧ users.closed user = false then
    some { users with handling := Function.update users.handling thread (some user) }
  else none

/-- `worker`: `onRecvMsg` returns. -/
def endHandler (users : ServerUsers Thread) (thread : Thread) : Option (ServerUsers Thread) :=
  if users.handling thread ≠ none then
    some { users with handling := Function.update users.handling thread none }
  else none

/-- `setClose`. -/
def setClose (users : ServerUsers Thread) (user : UserId) : ServerUsers Thread :=
  { users with closed := Function.update users.closed user true }

/-- `monitor`: `onDisconnect` of a user that is closed is called. -/
def callOnDisconnect (users : ServerUsers Thread) (user : UserId) : Option (ServerUsers Thread) :=
  if users.closed user = true ∧ users.called user = false then
    some { users with called := Function.update users.called user true }
  else none

/-- `monitor`: `onDisconnect` returns. -/
def returnOnDisconnect (users : ServerUsers Thread) (user : UserId) : ServerUsers Thread :=
  { users with returned := Function.update users.returned user true }

/-- A user may be destroyed: the monitor is done with it, and no handler of it is running. -/
def MayDestroy (users : ServerUsers Thread) (user : UserId) : Prop :=
  users.returned user = true ∧ users.Quiet user

instance [Fintype Thread] (users : ServerUsers Thread) (user : UserId) :
    Decidable (users.MayDestroy user) :=
  inferInstanceAs (Decidable (_ ∧ _))

section Handlers

variable {users next : ServerUsers Thread} {thread : Thread} {user : UserId}

theorem startHandler_cases (hstart : users.startHandler thread user = some next) :
    next = { users with handling := Function.update users.handling thread (some user) } := by
  unfold startHandler at hstart
  split_ifs at hstart
  exact (Option.some.inj hstart).symm

theorem endHandler_cases (hend : users.endHandler thread = some next) :
    next = { users with handling := Function.update users.handling thread none } := by
  unfold endHandler at hend
  split_ifs at hend
  exact (Option.some.inj hend).symm

end Handlers

end ServerUsers

/-! ### NetServer -/

/-- A `NetServer` with its users. -/
structure NetCleanup (Thread : Type*) where
  store : PendingStore Thread
  users : ServerUsers Thread
  /-- The shards that `onDisconnect` of a user has swept. -/
  swept : UserId → Fin reqShardCount → Bool

/-- The steps of a `NetServer`. -/
inductive NetAction (Thread : Type*)
  | startHandler (thread : Thread) (user : UserId)
  | endHandler (thread : Thread)
  | closeUser (user : UserId)
  /-- A call, or the next step of a call, of the store. -/
  | store (action : StoreAction Thread)

namespace NetCleanup

variable {Thread : Type*} [DecidableEq Thread]

/-- A server before its first request. -/
def new : NetCleanup Thread where
  store := .new
  users := .new
  swept := fun _ _ ↦ false

variable [Fintype Thread]

/-- The users after a step of the store, if the server takes this step. `savePenddingReq` is called
by a handler of the user, and `cleanupUserContext` by `onDisconnect`, which returns after the last
shard. -/
def usersAfter (server : NetCleanup Thread) : StoreAction Thread → Option (ServerUsers Thread)
  | .savePenddingReq thread user _ _ =>
    if server.users.handling thread = some user then some server.users else none
  | .cleanupUserContext thread user =>
    if server.users.handling thread = none then server.users.callOnDisconnect user else none
  | .cleanShard thread =>
    match server.store.threads thread with
    | .cleaning user shard =>
      some (if PendingStore.nextShard shard = none then server.users.returnOnDisconnect user
        else server.users)
    | _ => none
  | .destroyUser user => if server.users.MayDestroy user then some server.users else none
  | .saveReqContext _ | .response _ _ _ | .lockUser _ | .postMsg _ => some server.users

/-- The shards that are swept after a step of the store. -/
def sweptAfter (server : NetCleanup Thread) :
    StoreAction Thread → UserId → Fin reqShardCount → Bool
  | .cleanShard thread =>
    match server.store.threads thread with
    | .cleaning user shard =>
      Function.update server.swept user (Function.update (server.swept user) shard true)
    | _ => server.swept
  | _ => server.swept

/-- One step of a `NetServer`. A thread that runs a handler is outside the store when the handler
begins and ends. -/
def step (order : ByteOrder) (baseOrigin : BitVec 16) (server : NetCleanup Thread) :
    NetAction Thread → Option (NetCleanup Thread)
  | .startHandler thread user =>
    if server.store.threads thread = .idle ∧ server.store.alive user = true then
      (server.users.startHandler thread user).map fun users ↦ { server with users := users }
    else none
  | .endHandler thread =>
    if server.store.threads thread = .idle then
      (server.users.endHandler thread).map fun users ↦ { server with users := users }
    else none
  | .closeUser user => some { server with users := server.users.setClose user }
  | .store action =>
    (server.usersAfter action).bind fun users ↦
      (server.store.step order baseOrigin action).map fun store ↦
        { store := store, users := users, swept := server.sweptAfter action }

/-- No context is inserted into a shard that the `onDisconnect` of its user has swept. -/
def SavedInTime (server : NetCleanup Thread) : NetAction Thread → Prop
  | .store (.saveReqContext thread) =>
    match server.store.threads thread with
    | .saving reqId ctx => server.swept ctx.user (shardIdx reqId) = false
    | _ => True
  | _ => True

instance decidableSavedInTime (server : NetCleanup Thread) :
    ∀ action, Decidable (server.SavedInTime action)
  | .store (.saveReqContext thread) =>
    match hthread : server.store.threads thread with
    | .saving reqId ctx =>
      decidable_of_iff (server.swept ctx.user (shardIdx reqId) = false)
        (by simp only [SavedInTime, hthread])
    | .idle | .responding _ _ _ | .posting _ _ _ | .cleaning _ _ =>
      isTrue (by simp only [SavedInTime, hthread])
  | .startHandler _ _ | .endHandler _ | .closeUser _ | .store (.savePenddingReq _ _ _ _)
  | .store (.response _ _ _) | .store (.lockUser _) | .store (.postMsg _)
  | .store (.cleanupUserContext _ _) | .store (.cleanShard _) | .store (.destroyUser _) =>
    isTrue trivial

/-- No context in any shard refers to a user whose `onDisconnect` has returned and of which no
handler is running. -/
def Cleaned (server : NetCleanup Thread) : Prop :=
  ∀ user, server.users.returned user = true → server.users.Quiet user →
    ∀ shard reqId ctx, server.store.reqShards shard reqId = some ctx → ctx.user ≠ user

/-- What holds of a `NetServer` in every run that saves in time. -/
structure Invariant (server : NetCleanup Thread) : Prop where
  clear : ∀ user, Sharded.ClearOf server.store.reqShards (server.swept user) (·.user = user)
  sweeping : ∀ thread user shard, server.store.threads thread = .cleaning user shard →
    ∀ other < shard, server.swept user other = true
  returned : ∀ user, server.users.returned user = true → ∀ shard, server.swept user shard = true

omit [DecidableEq Thread] [Fintype Thread] in
theorem invariant_new : (new : NetCleanup Thread).Invariant where
  clear _ := Sharded.clearOf_empty
  sweeping _ _ _ hthread := nomatch hthread
  returned _ hreturned := nomatch hreturned

section Steps

variable {order : ByteOrder} {baseOrigin : BitVec 16} {server next : NetCleanup Thread}

omit [Fintype Thread] in
/-- Assumes: one thread moves on, and if it sweeps then, it is at the first shard. -/
theorem Invariant.sweeping_update (hinv : server.Invariant) {thread : Thread} {at' : StoreThread}
    (hat : ∀ user shard, at' = .cleaning user shard → shard = 0) (other : Thread) (user : UserId)
    (shard : Fin reqShardCount)
    (hother : Function.update server.store.threads thread at' other = .cleaning user shard) :
    ∀ before < shard, server.swept user before = true := by
  by_cases heq : other = thread
  · subst heq
    rw [Function.update_self] at hother
    intro before hbefore
    rw [hat user shard hother] at hbefore
    exact absurd hbefore (Fin.not_lt_zero before)
  · rw [Function.update_of_ne heq] at hother
    exact hinv.sweeping other user shard hother

/-- The shards before the next one are the shard itself and those before it. -/
theorem lt_or_eq_of_lt_nextShard {shard after other : Fin reqShardCount}
    (hafter : PendingStore.nextShard shard = some after) (hother : other < after) :
    other < shard ∨ other = shard := by
  unfold PendingStore.nextShard at hafter
  split_ifs at hafter with hlt
  rw [← Option.some.inj hafter, Fin.lt_def] at hother
  rw [Fin.lt_def, Fin.ext_iff]
  exact Nat.lt_succ_iff_lt_or_eq.mp hother

/-- Without a next shard, every shard is the last one or before it. -/
theorem lt_or_eq_of_nextShard_eq_none {shard : Fin reqShardCount}
    (hlast : PendingStore.nextShard shard = none) (other : Fin reqShardCount) :
    other < shard ∨ other = shard := by
  unfold PendingStore.nextShard at hlast
  split_ifs at hlast with hlt
  rw [Fin.lt_def, Fin.ext_iff]
  omega

omit [DecidableEq Thread] [Fintype Thread] in
/-- The shards that are swept after the sweep of one more. -/
theorem Invariant.swept_of_sweep (hinv : server.Invariant) {thread : Thread} {user : UserId}
    {shard : Fin reqShardCount} (hthread : server.store.threads thread = .cleaning user shard)
    {other : Fin reqShardCount} (hother : other < shard ∨ other = shard) :
    Function.update (server.swept user) shard true other = true := by
  rcases hother with hlt | rfl
  · rw [Function.update_of_ne (Fin.ne_of_lt hlt)]
    exact hinv.sweeping thread user shard hthread other hlt
  · rw [Function.update_self]

omit [DecidableEq Thread] [Fintype Thread] in
theorem swept_mono {user other : UserId} {shard place : Fin reqShardCount}
    (hswept : server.swept other place = true) :
    Function.update server.swept user (Function.update (server.swept user) shard true) other place =
      true := by
  by_cases huser : other = user
  · subst huser
    rw [Function.update_self]
    by_cases hplace : place = shard
    · rw [hplace, Function.update_self]
    · rwa [Function.update_of_ne hplace]
  · rwa [Function.update_of_ne huser]

omit [Fintype Thread] in
/-- The sweep of a shard in `cleanupUserContext`. -/
theorem Invariant.cleanShard (hinv : server.Invariant) {thread : Thread} {user : UserId}
    {shard : Fin reqShardCount} (hthread : server.store.threads thread = .cleaning user shard) :
    Invariant
      { store := server.store.sweepShard thread user shard
        users := if PendingStore.nextShard shard = none then server.users.returnOnDisconnect user
          else server.users
        swept := Function.update server.swept user
          (Function.update (server.swept user) shard true) } where
  clear other := by
    have hstale : ∀ ctx : ReqContext, ctx.user = user → server.store.stale user ctx = true :=
      fun ctx huser ↦ by simp [PendingStore.stale, huser]
    change Sharded.ClearOf
      (Sharded.removeIf server.store.reqShards shard (server.store.stale user))
      (Function.update server.swept user _ other) _
    by_cases huser : other = user
    · subst huser
      rw [Function.update_self]
      exact (hinv.clear other).removeIf shard hstale
    · rw [Function.update_of_ne huser]
      exact (hinv.clear other).update fun _ _ _ hvalue _ ↦ (Option.filter_eq_some_iff.mp hvalue).1
  sweeping other cleaned place hother before hbefore := by
    change Function.update server.store.threads thread _ other = _ at hother
    change Function.update server.swept user _ cleaned before = true
    by_cases heq : other = thread
    · subst heq
      rw [Function.update_self] at hother
      cases hnext : PendingStore.nextShard shard with
      | none =>
        rw [hnext] at hother
        cases hother
      | some after =>
        rw [hnext] at hother
        cases hother
        rw [Function.update_self]
        exact hinv.swept_of_sweep hthread (lt_or_eq_of_lt_nextShard hnext hbefore)
    · rw [Function.update_of_ne heq] at hother
      exact swept_mono (hinv.sweeping other cleaned place hother before hbefore)
  returned other hreturned place := by
    change Function.update server.swept user _ other place = true
    change (if PendingStore.nextShard shard = none then server.users.returnOnDisconnect user
      else server.users).returned other = true at hreturned
    split_ifs at hreturned with hlast
    · by_cases huser : other = user
      · subst huser
        rw [Function.update_self]
        exact hinv.swept_of_sweep hthread (lt_or_eq_of_nextShard_eq_none hlast place)
      · change Function.update server.users.returned user true other = true at hreturned
        rw [Function.update_of_ne huser] at hreturned
        exact swept_mono (hinv.returned other hreturned place)
    · exact swept_mono (hinv.returned other hreturned place)

omit [DecidableEq Thread] in
/-- Assumes: the step of the store is no sweep. The users that `onDisconnect` has returned for stay
the same. -/
theorem returned_usersAfter {action : StoreAction Thread} {users : ServerUsers Thread}
    (husers : server.usersAfter action = some users)
    (hsweep : ∀ thread, action ≠ .cleanShard thread) :
    users.returned = server.users.returned := by
  cases action with
  | cleanShard thread => exact absurd rfl (hsweep thread)
  | savePenddingReq thread user reqHeader reqData =>
    simp only [usersAfter] at husers
    split_ifs at husers
    cases husers
    rfl
  | cleanupUserContext thread user =>
    simp only [usersAfter, ServerUsers.callOnDisconnect] at husers
    split_ifs at husers
    cases husers
    rfl
  | destroyUser user =>
    simp only [usersAfter] at husers
    split_ifs at husers
    cases husers
    rfl
  | saveReqContext | response | lockUser | postMsg =>
    cases husers
    rfl

/-- Every step of the store that saves in time keeps the invariant. -/
theorem Invariant.store (hinv : server.Invariant) {action : StoreAction Thread}
    {users : ServerUsers Thread} {store : PendingStore Thread}
    (hsaved : server.SavedInTime (.store action)) (husers : server.usersAfter action = some users)
    (hstore : server.store.step order baseOrigin action = some store) :
    Invariant { store := store, users := users, swept := server.sweptAfter action } := by
  cases PendingStore.step_cases hstore with
  | cleanShard thread user shard hthread =>
    simp only [usersAfter, hthread, Option.some.injEq] at husers
    subst husers
    simp only [sweptAfter, hthread]
    exact hinv.cleanShard hthread
  | saveReqContext thread reqId ctx hthread =>
    simp only [SavedInTime, hthread] at hsaved
    have hreturned := returned_usersAfter husers nofun
    refine ⟨fun user ↦ ?_, hinv.sweeping_update nofun, hreturned ▸ hinv.returned⟩
    refine (hinv.clear user).insertNew fun huser ↦ ?_
    rw [← huser]
    exact hsaved
  | taken thread reqId respData ctx hview =>
    have hreturned := returned_usersAfter husers nofun
    exact ⟨fun user ↦ (hinv.clear user).erase reqId, hinv.sweeping_update nofun,
      hreturned ▸ hinv.returned⟩
  | cleanupUserContext thread user halive =>
    have hreturned := returned_usersAfter husers nofun
    refine ⟨hinv.clear, hinv.sweeping_update fun _ _ hat ↦ ?_, hreturned ▸ hinv.returned⟩
    cases hat
    rfl
  | savePenddingReq | locked | gone | postMsg =>
    have hreturned := returned_usersAfter husers nofun
    exact ⟨hinv.clear, hinv.sweeping_update nofun, hreturned ▸ hinv.returned⟩
  | missed | destroyUser =>
    have hreturned := returned_usersAfter husers nofun
    exact ⟨hinv.clear, hinv.sweeping, hreturned ▸ hinv.returned⟩

theorem Invariant.step (hinv : server.Invariant) {action : NetAction Thread}
    (hsaved : server.SavedInTime action)
    (hstep : server.step order baseOrigin action = some next) : next.Invariant := by
  cases action with
  | startHandler thread user =>
    simp only [NetCleanup.step] at hstep
    split_ifs at hstep
    obtain ⟨users, husers, rfl⟩ := Option.map_eq_some_iff.mp hstep
    obtain rfl := ServerUsers.startHandler_cases husers
    exact ⟨hinv.clear, hinv.sweeping, hinv.returned⟩
  | endHandler thread =>
    simp only [NetCleanup.step] at hstep
    split_ifs at hstep
    obtain ⟨users, husers, rfl⟩ := Option.map_eq_some_iff.mp hstep
    obtain rfl := ServerUsers.endHandler_cases husers
    exact ⟨hinv.clear, hinv.sweeping, hinv.returned⟩
  | closeUser user =>
    cases hstep
    exact ⟨hinv.clear, hinv.sweeping, hinv.returned⟩
  | store action =>
    simp only [NetCleanup.step, Option.bind_eq_some_iff, Option.map_eq_some_iff] at hstep
    obtain ⟨users, husers, store, hstore, rfl⟩ := hstep
    exact hinv.store hsaved husers hstore

omit [DecidableEq Thread] [Fintype Thread] in
/-- A user has no entry left once all shards are swept. -/
theorem Invariant.cleaned (hinv : server.Invariant) : server.Cleaned := by
  intro user hreturned _ shard reqId ctx hctx huser
  exact hinv.clear user shard (hinv.returned user hreturned shard) reqId ctx hctx huser

end Steps

end NetCleanup

/-! ### DBProxyBase -/

/-- A `DBProxyBase` with its users. -/
structure DbCleanup (Thread : Type*) where
  proxy : DbProxy
  users : ServerUsers Thread
  /-- The call of `submit` that a handler has made last. -/
  calling : Thread → Option ℕ
  /-- The shards that `onDisconnect` of a user has yet to sweep. -/
  toSweep : UserId → List (Fin maxDbSlots × Fin dbShardCount)

/-- The steps of a `DBProxyBase`. -/
inductive DbCleanupAction (Thread : Type*)
  | startHandler (thread : Thread) (user : UserId)
  /-- The handler calls `submit`. -/
  | submit (thread : Thread) (slot : BitVec 8) (reqHeader : LymsgHeader)
  | endHandler (thread : Thread)
  | closeUser (user : UserId)
  | onDisconnect (user : UserId)
  /-- `cleanupUserPending` sweeps the next shard, or returns. -/
  | sweep (user : UserId)
  | destroyUser (user : UserId)
  /-- Another step of the proxy: of a call of `submit`, or of a pool. -/
  | proxy (action : DbAction)

/-- The steps of the proxy that belong to the workers and the monitor of the server. -/
def DbAction.byServer : DbAction → Bool
  | .submit _ _ _ => true
  | .disconnect _ => true
  | .cleanShard _ _ _ => true
  | .destroyUser _ => true
  | _ => false

namespace DbProxy

/-- What a step of the proxy makes of the entries. -/
inductive EntryChange (proxy : DbProxy) :
    DbAction → (Fin maxDbSlots → Sharded (Fin dbShardCount) RequestId PenddingReq) → Prop
  | same (action : DbAction) : EntryChange proxy action proxy.poolCtx
  | inserted (tag : ℕ) (call : DbCall) (hcall : proxy.calls[tag]? = some call) :
    EntryChange proxy (.savePenddingReq tag) (Function.update proxy.poolCtx call.slot
      (Sharded.insertNew dbShardIdx (proxy.poolCtx call.slot) call.dbReqId
        ⟨call.user, call.reqHeader, tag⟩))
  | erased (action : DbAction) (slot : Fin maxDbSlots) (dbReqId : RequestId) :
    EntryChange proxy action (Function.update proxy.poolCtx slot
      (Sharded.erase dbShardIdx (proxy.poolCtx slot) dbReqId))
  | swept (user : UserId) (slot : Fin maxDbSlots) (shard : Fin dbShardCount) :
    EntryChange proxy (.cleanShard user slot shard) (Function.update proxy.poolCtx slot
      (Sharded.removeIf (proxy.poolCtx slot) shard (proxy.stale user)))

section Steps

variable {order : ByteOrder} {origin : BitVec 16} {pools : Fin maxDbSlots → Bool}
variable {proxy next : DbProxy} {action : DbAction}

theorem entryChange_step (hstep : proxy.step order origin pools action = some next) :
    proxy.EntryChange action next.poolCtx := by
  cases step_moves hstep with
  | savePenddingReq tag call hcall => exact .inserted tag call hcall
  | take tag call => exact .erased _ call.slot call.dbReqId
  | cleanShard user slot shard => exact .swept user slot shard
  | idle | submit | accept | refuse | pop | requeue | answer | lockUser | drop | post | stop
  | disconnect | destroyUser => exact .same _

theorem poolCtx_cleanShard {user : UserId} {slot : Fin maxDbSlots} {shard : Fin dbShardCount}
    (hstep : proxy.step order origin pools (.cleanShard user slot shard) = some next) :
    next.poolCtx = Function.update proxy.poolCtx slot
      (Sharded.removeIf (proxy.poolCtx slot) shard (proxy.stale user)) := by
  simp only [step] at hstep
  split_ifs at hstep
  cases hstep
  rfl

/-- Assumes: an entry of the kind is inserted only into a shard that is not marked. Every step keeps
the marked shards clear. -/
theorem EntryChange.clearOf {poolCtx : Fin maxDbSlots → Sharded (Fin dbShardCount) RequestId
    PenddingReq} (hchange : proxy.EntryChange action poolCtx)
    {marked : Fin maxDbSlots → Fin dbShardCount → Bool} {kind : PenddingReq → Prop}
    (hclear : ∀ slot, Sharded.ClearOf (proxy.poolCtx slot) (marked slot) kind)
    (hinserted : ∀ tag call, action = .savePenddingReq tag → proxy.calls[tag]? = some call →
      kind ⟨call.user, call.reqHeader, tag⟩ → marked call.slot (dbShardIdx call.dbReqId) = false)
    (slot : Fin maxDbSlots) : Sharded.ClearOf (poolCtx slot) (marked slot) kind := by
  have hupdate : ∀ other shards, Sharded.ClearOf shards (marked other) kind →
      Sharded.ClearOf (Function.update proxy.poolCtx other shards slot) (marked slot) kind := by
    intro other shards hshards
    by_cases hslot : slot = other
    · subst hslot
      rw [Function.update_self]
      exact hshards
    · rw [Function.update_of_ne hslot]
      exact hclear slot
  cases hchange with
  | same => exact hclear slot
  | inserted tag call hcall =>
    exact hupdate call.slot _ ((hclear call.slot).insertNew (hinserted tag call rfl hcall))
  | erased _ other dbReqId => exact hupdate other _ ((hclear other).erase dbReqId)
  | swept user other shard =>
    refine hupdate other _ ((hclear other).update fun _ _ _ hvalue _ ↦ ?_)
    exact (Option.filter_eq_some_iff.mp hvalue).1

/-- A call that changes stays in its slot. -/
theorem slots_set {tag : ℕ} {call call' : DbCall} (hcalls : ∀ other ∈ proxy.calls,
    pools other.slot = true) (hcall : proxy.calls[tag]? = some call)
    (hslot : call'.slot = call.slot) : ∀ other ∈ proxy.calls.set tag call',
      pools other.slot = true := by
  intro other hother
  rcases List.mem_or_eq_of_mem_set hother with hold | rfl
  · exact hcalls other hold
  · rw [hslot]
    exact hcalls call (List.mem_of_getElem? hcall)

/-- Every call is in a slot that has a pool. -/
theorem slots_step (hcalls : ∀ call ∈ proxy.calls, pools call.slot = true)
    (hstep : proxy.step order origin pools action = some next) :
    ∀ call ∈ next.calls, pools call.slot = true := by
  cases step_moves hstep with
  | submit slot hslot hpool reqHeader user =>
    intro call hcall
    rcases List.mem_append.mp hcall with hold | hnew
    · exact hcalls call hold
    · rw [List.mem_singleton.mp hnew]
      exact hpool
  | accept tag call hcall | refuse tag call hcall | savePenddingReq tag call hcall
  | pop slot tag queue hpop call hcall | requeue tag call hcall | answer tag call hcall
  | take tag call hcall | lockUser tag call hcall | drop tag call hcall | post tag call hcall =>
    exact slots_set hcalls hcall rfl
  | idle | stop | disconnect | cleanShard | destroyUser => exact hcalls

end Steps

end DbProxy

namespace DbCleanup

variable {Thread : Type*} [DecidableEq Thread]

/-- A proxy before its first request. -/
def new : DbCleanup Thread where
  proxy := .new
  users := .new
  calling := fun _ ↦ none
  toSweep := fun _ ↦ []

/-- The order in which `cleanupUserPending` sweeps the shards of the slots that have a pool. -/
def sweepOrder (pools : Fin maxDbSlots → Bool) : List (Fin maxDbSlots × Fin dbShardCount) :=
  ((List.finRange maxDbSlots).filter pools).flatMap fun slot ↦
    (List.finRange dbShardCount).map fun shard ↦ (slot, shard)

/-- The last call of `submit` of a handler has returned. -/
def callReturned (server : DbCleanup Thread) (thread : Thread) : Bool :=
  match server.calling thread with
  | none => true
  | some tag => server.proxy.calls[tag]?.all fun call ↦
      call.submit = .accepted || call.submit = .busy

/-- `onDisconnect` of the user has swept the shard. -/
def swept (server : DbCleanup Thread) (user : UserId) (slot : Fin maxDbSlots)
    (shard : Fin dbShardCount) : Bool :=
  server.users.called user && decide ((slot, shard) ∉ server.toSweep user)

variable [Fintype Thread] (order : ByteOrder) (origin : BitVec 16) (pools : Fin maxDbSlots → Bool)

/-- One step of a `DBProxyBase` with pools in the given slots. -/
def step (server : DbCleanup Thread) : DbCleanupAction Thread → Option (DbCleanup Thread)
  | .startHandler thread user =>
    if server.proxy.alive user = true then
      (server.users.startHandler thread user).map fun users ↦
        { server with users := users, calling := Function.update server.calling thread none }
    else none
  | .submit thread slot reqHeader =>
    match server.users.handling thread with
    | some user =>
      if server.callReturned thread = true then
        (server.proxy.step order origin pools (.submit slot reqHeader user)).map fun proxy ↦
          { server with
            proxy := proxy
            calling := Function.update server.calling thread
              (if proxy.calls.length = server.proxy.calls.length then none
                else some server.proxy.calls.length) }
      else none
    | none => none
  | .endHandler thread =>
    if server.callReturned thread = true then
      (server.users.endHandler thread).map fun users ↦ { server with users := users }
    else none
  | .closeUser user =>
    (server.proxy.step order origin pools (.disconnect user)).map fun proxy ↦
      { server with proxy := proxy, users := server.users.setClose user }
  | .onDisconnect user =>
    (server.users.callOnDisconnect user).map fun users ↦
      { server with
        users := users
        toSweep := Function.update server.toSweep user (sweepOrder pools) }
  | .sweep user =>
    if server.users.called user = true ∧ server.users.returned user = false then
      match server.toSweep user with
      | [] => some { server with users := server.users.returnOnDisconnect user }
      | (slot, shard) :: rest =>
        (server.proxy.step order origin pools (.cleanShard user slot shard)).map fun proxy ↦
          { server with proxy := proxy, toSweep := Function.update server.toSweep user rest }
    else none
  | .destroyUser user =>
    if server.users.MayDestroy user then
      (server.proxy.step order origin pools (.destroyUser user)).map fun proxy ↦
        { server with proxy := proxy }
    else none
  | .proxy action =>
    if action.byServer = false then
      (server.proxy.step order origin pools action).map fun proxy ↦ { server with proxy := proxy }
    else none

/-- No entry is inserted into a shard that the `onDisconnect` of its user has swept. -/
def SavedInTime (server : DbCleanup Thread) : DbCleanupAction Thread → Prop
  | .proxy (.savePenddingReq tag) =>
    ∀ call ∈ server.proxy.calls[tag]?,
      server.swept call.user call.slot (dbShardIdx call.dbReqId) = false
  | _ => True

instance decidableSavedInTime (server : DbCleanup Thread) :
    ∀ action, Decidable (server.SavedInTime action)
  | .proxy (.savePenddingReq tag) =>
    inferInstanceAs (Decidable (∀ call ∈ server.proxy.calls[tag]?,
      server.swept call.user call.slot (dbShardIdx call.dbReqId) = false))
  | .startHandler _ _ | .submit _ _ _ | .endHandler _ | .closeUser _ | .onDisconnect _ | .sweep _
  | .destroyUser _ | .proxy (.submit _ _ _) | .proxy (.push _) | .proxy (.pop _)
  | .proxy (.requeue _) | .proxy (.onResponse _ _) | .proxy (.lockUser _) | .proxy (.post _)
  | .proxy (.stop _) | .proxy (.disconnect _) | .proxy (.cleanShard _ _ _)
  | .proxy (.destroyUser _) => isTrue trivial

/-- No entry in any slot refers to a user whose `onDisconnect` has returned and of which no handler
is running. -/
def Cleaned (server : DbCleanup Thread) : Prop :=
  ∀ user, server.users.returned user = true → server.users.Quiet user →
    ∀ slot shard dbReqId pendReq, server.proxy.poolCtx slot shard dbReqId = some pendReq →
      pendReq.user ≠ user

/-- What holds of a `DBProxyBase` in every run that saves in time. -/
structure Invariant (pools : Fin maxDbSlots → Bool) (server : DbCleanup Thread) : Prop where
  clear : ∀ user slot, Sharded.ClearOf (server.proxy.poolCtx slot) (server.swept user slot)
    (·.user = user)
  -- a slot without a pool has no entry at all
  noPool : ∀ slot, Sharded.ClearOf (server.proxy.poolCtx slot) (fun _ ↦ !pools slot) fun _ ↦ True
  slots : ∀ call ∈ server.proxy.calls, pools call.slot = true
  returned : ∀ user, server.users.returned user = true →
    server.users.called user = true ∧ server.toSweep user = []

section Steps

omit [DecidableEq Thread] [Fintype Thread]

variable {order origin pools} {server next : DbCleanup Thread}

theorem invariant_new : (new : DbCleanup Thread).Invariant pools where
  clear _ _ := Sharded.clearOf_empty
  noPool _ := Sharded.clearOf_empty
  slots _ hcall := nomatch hcall
  returned _ hreturned := nomatch hreturned

theorem mem_sweepOrder {slot : Fin maxDbSlots} (hpool : pools slot = true)
    (shard : Fin dbShardCount) : (slot, shard) ∈ sweepOrder pools := by
  refine List.mem_flatMap.mpr ⟨slot, ?_, List.mem_map.mpr ⟨shard, List.mem_finRange shard, rfl⟩⟩
  exact List.mem_filter.mpr ⟨List.mem_finRange slot, hpool⟩

/-- Assumes: an entry that is inserted goes to a shard that is not swept. A step of the proxy keeps
the invariant. -/
theorem Invariant.proxy (hinv : server.Invariant pools) {action : DbAction} {proxy : DbProxy}
    (hstep : server.proxy.step order origin pools action = some proxy)
    (hsaved : server.SavedInTime (.proxy action)) :
    { server with proxy := proxy }.Invariant pools := by
  have hchange := DbProxy.entryChange_step hstep
  refine ⟨fun user ↦ ?_, ?_, DbProxy.slots_step hinv.slots hstep, hinv.returned⟩
  · refine hchange.clearOf (hinv.clear user) fun tag call haction hcall huser ↦ ?_
    subst haction
    rw [← huser]
    exact hsaved call hcall
  · refine hchange.clearOf hinv.noPool fun tag call haction hcall _ ↦ ?_
    rw [hinv.slots call (List.mem_of_getElem? hcall)]
    rfl

/-- Only the calls of `onDisconnect` and their progress matter, not the other steps of users. -/
theorem Invariant.setUsers (hinv : server.Invariant pools) {users : ServerUsers Thread}
    {calling : Thread → Option ℕ} (hcalled : users.called = server.users.called)
    (hreturned : users.returned = server.users.returned) :
    { server with users := users, calling := calling }.Invariant pools := by
  refine ⟨fun user slot ↦ (hinv.clear user slot).mono fun shard hswept ↦ ?_, hinv.noPool,
    hinv.slots, fun user ↦ ?_⟩
  · simpa only [swept, hcalled] using hswept
  · change users.returned user = true → users.called user = true ∧ server.toSweep user = []
    rw [hreturned, hcalled]
    exact hinv.returned user

/-- `onDisconnect` is called: the shards that it does not sweep are those of slots without a
pool. -/
theorem Invariant.onDisconnect (hinv : server.Invariant pools) {user : UserId}
    {users : ServerUsers Thread} (hcall : server.users.callOnDisconnect user = some users) :
    Invariant pools { server with
      users := users
      toSweep := Function.update server.toSweep user (sweepOrder pools) } := by
  unfold ServerUsers.callOnDisconnect at hcall
  split_ifs at hcall with hready
  cases hcall
  refine ⟨fun other slot ↦ ?_, hinv.noPool, hinv.slots, fun other hreturned ↦ ?_⟩
  · by_cases huser : other = user
    · subst huser
      intro shard hswept dbReqId pendReq hpendReq _
      simp only [swept, Function.update_self, Bool.true_and, decide_eq_true_eq] at hswept
      refine hinv.noPool slot shard ?_ dbReqId pendReq hpendReq trivial
      rw [Bool.not_eq_true']
      exact eq_false_of_ne_true fun hpool ↦ hswept (mem_sweepOrder hpool shard)
    · refine (hinv.clear other slot).mono fun shard hswept ↦ ?_
      simpa only [swept, Function.update_of_ne huser] using hswept
  · have hcalled := hinv.returned other hreturned
    have huser : other ≠ user := by
      rintro rfl
      exact absurd hcalled.1 (ne_true_of_eq_false hready.2)
    simpa only [Function.update_of_ne huser] using hcalled

/-- `cleanupUserPending` sweeps a shard. -/
theorem Invariant.sweep (hinv : server.Invariant pools) {user : UserId} {slot : Fin maxDbSlots}
    {shard : Fin dbShardCount} {rest : List (Fin maxDbSlots × Fin dbShardCount)} {proxy : DbProxy}
    (hcalled : server.users.called user = true) (hreturned : server.users.returned user = false)
    (htoSweep : server.toSweep user = (slot, shard) :: rest)
    (hstep : server.proxy.step order origin pools (.cleanShard user slot shard) = some proxy) :
    Invariant pools { server with
      proxy := proxy, toSweep := Function.update server.toSweep user rest } := by
  have hproxy := hinv.proxy hstep trivial
  refine ⟨fun other place ↦ ?_, hproxy.noPool, hproxy.slots, fun other hother ↦ ?_⟩
  · by_cases huser : other = user
    · subst huser
      -- a shard that is not among the rest is the one that was swept now, or was swept before
      have hrest : ∀ before, (place, before) ∉ rest → (place, before) ≠ (slot, shard) →
          server.swept other place before = true := by
        intro before hnot hne
        rw [swept, hcalled, htoSweep, Bool.true_and, decide_eq_true_eq, List.mem_cons, not_or]
        exact ⟨hne, hnot⟩
      have hswept : ∀ before, swept { server with
          proxy := proxy, toSweep := Function.update server.toSweep other rest }
            other place before = true → (place, before) ∉ rest := by
        intro before hbefore
        simpa only [swept, hcalled, Function.update_self, Bool.true_and, decide_eq_true_eq]
          using hbefore
      by_cases hplace : place = slot
      · subst hplace
        have hstale : ∀ pendReq : PenddingReq, pendReq.user = other →
            server.proxy.stale other pendReq = true :=
          fun pendReq huser ↦ by simp [DbProxy.stale, huser]
        rw [DbProxy.poolCtx_cleanShard hstep, Function.update_self]
        refine ((hinv.clear other place).removeIf shard hstale).mono fun before hbefore ↦ ?_
        by_cases hshard : before = shard
        · rw [hshard, Function.update_self]
        · rw [Function.update_of_ne hshard]
          exact hrest before (hswept before hbefore) (by simpa using hshard)
      · refine (hproxy.clear other place).mono fun before hbefore ↦ ?_
        exact hrest before (hswept before hbefore) (by simp [hplace])
    · refine (hproxy.clear other place).mono fun before hswept ↦ ?_
      simpa only [swept, Function.update_of_ne huser] using hswept
  · have huser : other ≠ user := by
      rintro rfl
      exact absurd hother (ne_true_of_eq_false hreturned)
    simpa only [Function.update_of_ne huser] using hinv.returned other hother

theorem Invariant.returnOnDisconnect (hinv : server.Invariant pools) {user : UserId}
    (hcalled : server.users.called user = true) (hdone : server.toSweep user = []) :
    { server with users := server.users.returnOnDisconnect user }.Invariant pools := by
  refine ⟨hinv.clear, hinv.noPool, hinv.slots, fun other hother ↦ ?_⟩
  by_cases huser : other = user
  · subst huser
    exact ⟨hcalled, hdone⟩
  · change Function.update server.users.returned user true other = true at hother
    rw [Function.update_of_ne huser] at hother
    exact hinv.returned other hother

/-- Every step that saves in time keeps the invariant. -/
theorem Invariant.step [DecidableEq Thread] [Fintype Thread] (hinv : server.Invariant pools)
    {action : DbCleanupAction Thread} (hsaved : server.SavedInTime action)
    (hstep : server.step order origin pools action = some next) : next.Invariant pools := by
  cases action with
  | startHandler thread user =>
    simp only [DbCleanup.step] at hstep
    split_ifs at hstep
    obtain ⟨users, husers, rfl⟩ := Option.map_eq_some_iff.mp hstep
    obtain rfl := ServerUsers.startHandler_cases husers
    exact hinv.setUsers rfl rfl
  | submit thread slot reqHeader =>
    simp only [DbCleanup.step] at hstep
    split at hstep
    · split_ifs at hstep
      obtain ⟨proxy, hproxy, rfl⟩ := Option.map_eq_some_iff.mp hstep
      exact (hinv.proxy hproxy trivial).setUsers rfl rfl
    · cases hstep
  | endHandler thread =>
    simp only [DbCleanup.step] at hstep
    split_ifs at hstep
    obtain ⟨users, husers, rfl⟩ := Option.map_eq_some_iff.mp hstep
    obtain rfl := ServerUsers.endHandler_cases husers
    exact hinv.setUsers rfl rfl
  | closeUser user =>
    simp only [DbCleanup.step] at hstep
    obtain ⟨proxy, hproxy, rfl⟩ := Option.map_eq_some_iff.mp hstep
    exact (hinv.proxy hproxy trivial).setUsers rfl rfl
  | onDisconnect user =>
    simp only [DbCleanup.step] at hstep
    obtain ⟨users, husers, rfl⟩ := Option.map_eq_some_iff.mp hstep
    exact hinv.onDisconnect husers
  | sweep user =>
    simp only [DbCleanup.step] at hstep
    split_ifs at hstep with hready
    split at hstep
    · rename_i hdone
      cases hstep
      exact hinv.returnOnDisconnect hready.1 hdone
    · rename_i slot shard rest htoSweep
      obtain ⟨proxy, hproxy, rfl⟩ := Option.map_eq_some_iff.mp hstep
      exact hinv.sweep hready.1 hready.2 htoSweep hproxy
  | destroyUser user =>
    simp only [DbCleanup.step] at hstep
    split_ifs at hstep
    obtain ⟨proxy, hproxy, rfl⟩ := Option.map_eq_some_iff.mp hstep
    exact hinv.proxy hproxy trivial
  | proxy action =>
    simp only [DbCleanup.step] at hstep
    split_ifs at hstep
    obtain ⟨proxy, hproxy, rfl⟩ := Option.map_eq_some_iff.mp hstep
    exact hinv.proxy hproxy hsaved

/-- A user has no entry left once all shards are swept. -/
theorem Invariant.cleaned (hinv : server.Invariant pools) : server.Cleaned := by
  intro user hreturned _ slot shard dbReqId pendReq hpendReq huser
  obtain ⟨hcalled, hdone⟩ := hinv.returned user hreturned
  have hswept : server.swept user slot shard = true := by
    rw [swept, hcalled, hdone]
    rfl
  exact hinv.clear user slot shard hswept dbReqId pendReq hpendReq huser

end Steps

end DbCleanup

/-! ### The result -/

/-- Every run of a `NetServer`, and every run of a `DBProxyBase`, in which no entry is inserted into
a shard that the `onDisconnect` of its user has already swept. Once `onDisconnect` of a user has
returned and no handler of the user is running, no entry refers to the user. -/
theorem cleanup_complete {Thread : Type*} [DecidableEq Thread] [Fintype Thread] (order : ByteOrder)
    (origin : BitVec 16) (pools : Fin maxDbSlots → Bool) :
    (∀ (actions : List (NetAction Thread)) (final : NetCleanup Thread),
      Along (NetCleanup.step order origin) NetCleanup.SavedInTime .new actions →
        runFrom (NetCleanup.step order origin) .new actions = some final → final.Cleaned) ∧
    ∀ (actions : List (DbCleanupAction Thread)) (final : DbCleanup Thread),
      Along (DbCleanup.step order origin pools) DbCleanup.SavedInTime .new actions →
        runFrom (DbCleanup.step order origin pools) .new actions = some final →
          final.Cleaned := by
  constructor
  · intro actions final hsaved hrun
    exact (runFrom_invariant_along NetCleanup.Invariant
      (fun _ _ _ hstate hcondition hstep ↦ hstate.step hcondition hstep)
      NetCleanup.invariant_new hsaved hrun).cleaned
  · intro actions final hsaved hrun
    exact (runFrom_invariant_along (DbCleanup.Invariant pools)
      (fun _ _ _ hstate hcondition hstep ↦ hstate.step hcondition hstep)
      DbCleanup.invariant_new hsaved hrun).cleaned

/-- A handler that has drawn an id, then the sweeps of `onDisconnect`, with the insertion before or
after them. -/
def netDisconnect (late : Bool) : List (NetAction (Fin 2)) :=
  let save : List (NetAction (Fin 2)) := [.store (.saveReqContext 0)]
  let sweeps : List (NetAction (Fin 2)) :=
    .store (.cleanupUserContext 1 4) :: List.replicate 16 (.store (.cleanShard 1))
  [.startHandler 0 4, .store (.savePenddingReq 0 4 ⟨1, 0, 5, 9, 0⟩ []), .closeUser 4] ++
    (if late then sweeps ++ save else save ++ sweeps) ++ [.endHandler 0]

/-- A handler whose request is in the queue of the pool, then the sweeps of `onDisconnect`, with the
insertion before or after them. -/
def dbDisconnect (late : Bool) : List (DbCleanupAction (Fin 2)) :=
  let save : List (DbCleanupAction (Fin 2)) := [.proxy (.savePenddingReq 0)]
  let sweeps : List (DbCleanupAction (Fin 2)) := .onDisconnect 4 :: List.replicate 17 (.sweep 4)
  [.startHandler 0 4, .submit 0 3 ⟨1, 0, 0x23#32, 9, 0⟩, .proxy (.push 0), .closeUser 4] ++
    (if late then sweeps ++ save else save ++ sweeps) ++ [.endHandler 0]

/-- The insertion comes before the sweeps, and the entry is gone. -/
theorem cleanup_complete_saved_before :
    (∃ final, runFrom (NetCleanup.step .little 7) .new (netDisconnect false) = some final ∧
      final.users.returned 4 = true ∧ final.Cleaned) ∧
    ∃ final, runFrom (DbCleanup.step .little 7 (· = 3)) .new (dbDisconnect false) = some final ∧
      final.users.returned 4 = true ∧ final.Cleaned :=
  ⟨⟨_, rfl, rfl, (cleanup_complete .little 7 (· = 3)).1 (netDisconnect false) _ (by decide) rfl⟩,
    ⟨_, rfl, rfl, (cleanup_complete .little 7 (· = 3)).2 (dbDisconnect false) _ (by decide) rfl⟩⟩

/-- The insertion comes after the sweep of its shard: the entry of the user stays. -/
theorem not_cleanup_complete :
    (¬ ∀ (actions : List (NetAction (Fin 2))) (final : NetCleanup (Fin 2)),
      runFrom (NetCleanup.step .little 7) .new actions = some final → final.Cleaned) ∧
    ¬ ∀ (actions : List (DbCleanupAction (Fin 2))) (final : DbCleanup (Fin 2)),
      runFrom (DbCleanup.step .little 7 (· = 3)) .new actions = some final → final.Cleaned := by
  constructor
  · intro hcleaned
    exact hcleaned (netDisconnect true) _ rfl 4 rfl (by decide) 5 101#64 _ rfl rfl
  · intro hcleaned
    exact hcleaned (dbDisconnect true) _ rfl 4 rfl (by decide) 3 4 100#64 _ rfl rfl

end TszyUlt.Lygc
