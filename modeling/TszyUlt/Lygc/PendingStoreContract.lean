import Mathlib.Data.List.Nodup
import TszyUlt.Lygc.PendingStore

/-!
# The contract of the store of pending requests

`pendingStore_contract` is the result about all its runs. The shards behave as one table
(`PendingStore.view`). For each id the events that concern it are a beginning of a life of the id
(`Life`): it is saved, and then taken by one `response`, which posts the answer to the user who
saved it or finds the user gone, or it is cleaned up. Every other `response` finds nothing and
changes nothing. A sweep removes exactly the entries of the user and of dead users.

The ids are those of a 64-bit counter that starts at 101. They are distinct for fewer than `2 ^ 64`
saves, but the last hundred of these come after the counter wrapped around and are below 101, and an
id may have been asked for before it was saved (`not_pendingStore_contract_as_claimed`).

The proof gives every id a stage: not drawn, with the thread that saves it, in the table, with the
thread that responds to it, or closed (`Stage`). The state agrees with the stages (`AgreesWith`),
and a step moves the ids that it touches to their next stage.
-/

set_option autoImplicit false
set_option relaxedAutoImplicit false

namespace TszyUlt.Lygc

open Lib Zbf

/-! ### The life of an id -/

/-- The lives of an id: what may be recorded of it. -/
inductive Life (order : ByteOrder) (baseOrigin : BitVec 16) (reqId : RequestId) :
    List StoreEvent → Prop
  | unsaved : Life order baseOrigin reqId []
  | pending (ctx : ReqContext) : Life order baseOrigin reqId [.saved reqId ctx]
  | cleaned (ctx : ReqContext) (victims : RequestId → Bool) :
    Life order baseOrigin reqId [.saved reqId ctx, .cleaned victims]
  | taken (ctx : ReqContext) : Life order baseOrigin reqId [.saved reqId ctx, .taken reqId]
  | gone (ctx : ReqContext) :
    Life order baseOrigin reqId [.saved reqId ctx, .taken reqId, .gone reqId]
  | answered (ctx : ReqContext) (respData : Bytes) :
    Life order baseOrigin reqId [.saved reqId ctx, .taken reqId,
      .posted reqId ctx.user (createResponse order baseOrigin ctx.reqHeader respData)]

/-- Where an id is: not drawn yet, with the thread that saves it, in the table, with the thread that
responds to it, or done with. -/
inductive Stage (Thread : Type*)
  | unused
  | saving (thread : Thread) (ctx : ReqContext)
  | pending (ctx : ReqContext)
  | taken (thread : Thread) (ctx : ReqContext)
  | closed

namespace Stage

variable {Thread : Type*}

/-- The thread that has the id. -/
def owner : Stage Thread → Option Thread
  | .saving thread _ => some thread
  | .taken thread _ => some thread
  | _ => none

/-- The entry of the table for an id at this stage. -/
def entry : Stage Thread → Option ReqContext
  | .pending ctx => some ctx
  | _ => none

/-- What has been recorded of an id at this stage. -/
def Recorded (order : ByteOrder) (baseOrigin : BitVec 16) (reqId : RequestId) :
    Stage Thread → List StoreEvent → Prop
  | .unused, events => events = []
  | .saving _ _, events => events = []
  | .pending ctx, events => events = [.saved reqId ctx]
  | .taken _ ctx, events => events = [.saved reqId ctx, .taken reqId]
  | .closed, events => Life order baseOrigin reqId events

theorem Recorded.life {order : ByteOrder} {baseOrigin : BitVec 16} {reqId : RequestId}
    {stage : Stage Thread} {events : List StoreEvent}
    (hrecorded : stage.Recorded order baseOrigin reqId events) :
    Life order baseOrigin reqId events := by
  cases stage with
  | unused | saving =>
    have hnil : events = [] := hrecorded
    rw [hnil]
    exact .unsaved
  | pending ctx =>
    have hevents : events = [.saved reqId ctx] := hrecorded
    rw [hevents]
    exact .pending ctx
  | taken thread ctx =>
    have hevents : events = [.saved reqId ctx, .taken reqId] := hrecorded
    rw [hevents]
    exact .taken ctx
  | closed => exact hrecorded

end Stage

/-- The thread is where the stages of the ids say it is. -/
def StoreThread.AgreesWith {Thread : Type*} (stage : RequestId → Stage Thread) (thread : Thread) :
    StoreThread → Prop
  | .saving reqId ctx => stage reqId = .saving thread ctx
  | .responding reqId ctx _ => stage reqId = .taken thread ctx
  | .posting reqId ctx _ => stage reqId = .taken thread ctx
  | _ => True

/-- A change of the stage of an id that another thread has, or none, leaves the thread where it
is. -/
theorem StoreThread.AgreesWith.update {Thread : Type*} {stage stage' : RequestId → Stage Thread}
    {thread : Thread} {at' : StoreThread} (hagrees : at'.AgreesWith stage thread)
    (hothers : ∀ reqId, (stage reqId).owner = some thread → stage' reqId = stage reqId) :
    at'.AgreesWith stage' thread := by
  cases at' with
  | idle | cleaning => trivial
  | saving reqId ctx =>
    have hstage : stage reqId = .saving thread ctx := hagrees
    exact (hothers reqId (by rw [hstage]; rfl)).trans hstage
  | responding reqId ctx respData | posting reqId ctx respData =>
    have hstage : stage reqId = .taken thread ctx := hagrees
    exact (hothers reqId (by rw [hstage]; rfl)).trans hstage

/-- The id that the draw number `n` returns. -/
def drawnId (n : ℕ) : RequestId := counterAt 64 101 n

namespace PendingStore

variable {Thread : Type*} {order : ByteOrder} {baseOrigin : BitVec 16}

/-- The state agrees with the stages of the ids. -/
structure AgreesWith (order : ByteOrder) (baseOrigin : BitVec 16) (store : PendingStore Thread)
    (stage : RequestId → Stage Thread) : Prop where
  counter : store.reqIdCreator = drawnId store.saves
  drawn : ∀ reqId, stage reqId ≠ .unused → ∃ n < store.saves, reqId = drawnId n
  threads : ∀ thread, (store.threads thread).AgreesWith stage thread
  table : ∀ reqId, store.view reqId = (stage reqId).entry
  recorded : ∀ reqId, (stage reqId).Recorded order baseOrigin reqId
    (store.log.filter (StoreEvent.concerns reqId))
  users : ∀ thread user, (store.threads thread).holdsUser user = true → store.alive user = true

/-- What holds in every state of a run with fewer than `2 ^ 64` draws. -/
def Invariant (order : ByteOrder) (baseOrigin : BitVec 16) (store : PendingStore Thread) : Prop :=
  store.saves < 2 ^ 64 → ∃ stage, store.AgreesWith order baseOrigin stage

theorem invariant_new : (new : PendingStore Thread).Invariant order baseOrigin := by
  intro _
  refine ⟨fun _ ↦ .unused, ?_, ?_, ?_, ?_, ?_, ?_⟩
  · rfl
  · exact fun _ hused ↦ absurd rfl hused
  · exact fun _ ↦ trivial
  · exact fun _ ↦ rfl
  · exact fun _ ↦ rfl
  · exact fun _ _ hholds ↦ by cases hholds

variable {store next : PendingStore Thread} {stage : RequestId → Stage Thread}

/-- Assumes: fewer than `2 ^ 64` draws so far. The next id is unused. -/
theorem AgreesWith.unused_counter (hagrees : store.AgreesWith order baseOrigin stage)
    (hsaves : store.saves < 2 ^ 64) : stage store.reqIdCreator = .unused := by
  by_contra hused
  obtain ⟨n, hn, heq⟩ := hagrees.drawn _ hused
  rw [hagrees.counter] at heq
  have hsame : store.saves = n := counterAt_injective hsaves (by omega) heq
  omega

theorem AgreesWith.recorded_of_stage (hagrees : store.AgreesWith order baseOrigin stage)
    {reqId : RequestId} {stage' : Stage Thread} (hstage : stage reqId = stage') :
    stage'.Recorded order baseOrigin reqId (store.log.filter (StoreEvent.concerns reqId)) :=
  hstage ▸ hagrees.recorded reqId

theorem AgreesWith.view_of_stage (hagrees : store.AgreesWith order baseOrigin stage)
    {reqId : RequestId} {stage' : Stage Thread} (hstage : stage reqId = stage') :
    store.view reqId = stage'.entry :=
  hstage ▸ hagrees.table reqId

theorem AgreesWith.thread_of_eq (hagrees : store.AgreesWith order baseOrigin stage)
    {thread : Thread} {at' : StoreThread} (hthread : store.threads thread = at') :
    at'.AgreesWith stage thread :=
  hthread ▸ hagrees.threads thread

/-- An id with an entry in the table is pending. -/
theorem AgreesWith.pending_of_view (hagrees : store.AgreesWith order baseOrigin stage)
    {reqId : RequestId} {ctx : ReqContext} (hview : store.view reqId = some ctx) :
    stage reqId = .pending ctx := by
  rw [hagrees.table] at hview
  cases hstage : stage reqId with
  | pending other =>
    rw [hstage] at hview
    exact congrArg Stage.pending (Option.some.inj hview)
  | unused | saving | taken | closed =>
    rw [hstage] at hview
    cases hview

/-- The ids that `savePenddingReq` returned, in order. -/
def savedIds (store : PendingStore Thread) : List RequestId :=
  store.log.filterMap StoreEvent.savedId

theorem Life.count_saved_le_one {reqId : RequestId} {events : List StoreEvent}
    (hlife : Life order baseOrigin reqId events) :
    events.countP (fun event ↦ event.savedId == some reqId) ≤ 1 := by
  cases hlife <;> simp [StoreEvent.savedId]

theorem nodup_savedIds (hlife : ∀ reqId,
    Life order baseOrigin reqId (store.log.filter (StoreEvent.concerns reqId))) :
    store.savedIds.Nodup := by
  refine List.nodup_iff_count_le_one.mpr fun reqId ↦ ?_
  have hsub : ∀ event : StoreEvent, (event.savedId == some reqId) =
      ((event.savedId == some reqId) && event.concerns reqId) := by
    intro event
    cases event with
    | saved other ctx =>
      by_cases heq : other = reqId <;> simp [StoreEvent.savedId, StoreEvent.concerns, heq]
    | taken | missed | gone | posted | cleaned => simp [StoreEvent.savedId]
  have hcount : store.log.countP (fun event ↦ event.savedId == some reqId) =
      (store.log.filter (StoreEvent.concerns reqId)).countP
        (fun event ↦ event.savedId == some reqId) := by
    rw [List.countP_filter]
    exact List.countP_congr fun event _ ↦ by rw [← hsub event]
  rw [savedIds, List.count_filterMap, hcount]
  exact Life.count_saved_le_one (hlife reqId)

/-- An id that was returned was drawn. -/
theorem AgreesWith.drawn_of_saved (hagrees : store.AgreesWith order baseOrigin stage)
    {reqId : RequestId} (hsaved : reqId ∈ store.savedIds) :
    ∃ n < store.saves, reqId = drawnId n := by
  refine hagrees.drawn reqId fun hunused ↦ ?_
  obtain ⟨event, hevent, hid⟩ := List.mem_filterMap.mp hsaved
  have hconcerns : event.concerns reqId = true := by
    cases event with
    | saved other ctx => exact decide_eq_true (Option.some.inj hid)
    | taken | missed | gone | posted | cleaned => cases hid
  have hnil : store.log.filter (StoreEvent.concerns reqId) = [] := hagrees.recorded_of_stage hunused
  have hmem := List.mem_filter.mpr ⟨hevent, hconcerns⟩
  rw [hnil] at hmem
  exact List.not_mem_nil hmem

/-- The test of a sweep, in the words of the contract. -/
theorem any_stale_iff (store : PendingStore Thread) (user : UserId) (reqId : RequestId) :
    (store.view reqId).any (store.stale user) = true ↔
      ∃ ctx, store.view reqId = some ctx ∧ (ctx.user = user ∨ store.alive ctx.user = false) := by
  cases hview : store.view reqId with
  | none => simp
  | some ctx => simp [stale, or_comm]

variable [DecidableEq Thread]

/-- The other threads stay where they are when the stages change of ids that they do not have. -/
theorem AgreesWith.threads_update (hagrees : store.AgreesWith order baseOrigin stage)
    {stage' : RequestId → Stage Thread} (thread : Thread) {at' : StoreThread}
    (hself : at'.AgreesWith stage' thread)
    (hothers : ∀ reqId, stage' reqId ≠ stage reqId →
      (stage reqId).owner = none ∨ (stage reqId).owner = some thread) (other : Thread) :
    (Function.update store.threads thread at' other).AgreesWith stage' other := by
  by_cases hthread : other = thread
  · subst hthread
    rwa [Function.update_self]
  · rw [Function.update_of_ne hthread]
    refine (hagrees.threads other).update fun reqId howner ↦ ?_
    by_contra hchanged
    rcases hothers reqId hchanged with hnone | hsome
    · rw [hnone] at howner
      cases howner
    · rw [hsome] at howner
      exact hthread (Option.some.inj howner).symm

theorem AgreesWith.users_update (hagrees : store.AgreesWith order baseOrigin stage)
    (thread : Thread) {at' : StoreThread}
    (hself : ∀ user, at'.holdsUser user = true → store.alive user = true)
    (other : Thread) (user : UserId)
    (hholds : (Function.update store.threads thread at' other).holdsUser user = true) :
    store.alive user = true := by
  by_cases hthread : other = thread
  · subst hthread
    rw [Function.update_self] at hholds
    exact hself user hholds
  · rw [Function.update_of_ne hthread] at hholds
    exact hagrees.users other user hholds

theorem filter_concerns_append (log : List StoreEvent) (event : StoreEvent) (reqId : RequestId) :
    (log ++ [event]).filter (StoreEvent.concerns reqId) =
      log.filter (StoreEvent.concerns reqId) ++ if event.concerns reqId then [event] else [] := by
  rw [List.filter_append, List.filter_singleton]
  cases event.concerns reqId <;> rfl

/-- The thread that has an id ends the stage it is in and records an event of this id: the other ids
are left as they are. Assumes: the table and the record of this id fit its new stage. -/
theorem AgreesWith.advance (hagrees : store.AgreesWith order baseOrigin stage) {thread : Thread}
    {at' : StoreThread} {reqId : RequestId} (stage' : Stage Thread) {event : StoreEvent}
    {shards : Sharded (Fin reqShardCount) RequestId ReqContext}
    (howner : (stage reqId).owner = none ∨ (stage reqId).owner = some thread)
    (hused : stage reqId ≠ .unused)
    (hself : at'.AgreesWith (Function.update stage reqId stage') thread)
    (hholds : ∀ user, at'.holdsUser user = true → store.alive user = true)
    (hview : Sharded.view shardIdx shards =
      Function.update store.view reqId stage'.entry)
    (hconcerns : ∀ other, event.concerns other = decide (reqId = other))
    (hrecorded : stage'.Recorded order baseOrigin reqId
      (store.log.filter (StoreEvent.concerns reqId) ++ [event])) :
    AgreesWith order baseOrigin
      { store.setThread thread at' with reqShards := shards, log := store.log ++ [event] }
      (Function.update stage reqId stage') := by
  have hchanged : ∀ other, Function.update stage reqId stage' other ≠ stage other →
      other = reqId := by
    intro other hne
    by_contra hother
    exact hne (Function.update_of_ne hother _ _)
  refine ⟨hagrees.counter, ?_, ?_, ?_, ?_, hagrees.users_update thread hholds⟩
  · intro other hother
    by_cases heq : other = reqId
    · subst heq
      exact hagrees.drawn other hused
    · rw [Function.update_of_ne heq] at hother
      exact hagrees.drawn other hother
  · refine hagrees.threads_update thread hself fun other hne ↦ ?_
    rw [hchanged other hne]
    exact howner
  · intro other
    rw [view, hview]
    by_cases heq : other = reqId
    · subst heq
      rw [Function.update_self, Function.update_self]
    · rw [Function.update_of_ne heq, Function.update_of_ne heq]
      exact hagrees.table other
  · intro other
    rw [filter_concerns_append]
    by_cases heq : other = reqId
    · subst heq
      rw [Function.update_self, if_pos ((hconcerns other).trans (decide_eq_true rfl))]
      exact hrecorded
    · have hnot : event.concerns other = false :=
        (hconcerns other).trans (decide_eq_false (Ne.symm heq))
      rw [Function.update_of_ne heq, hnot]
      exact (List.append_nil _).symm ▸ hagrees.recorded other

/-- A thread moves on without touching an id. -/
theorem AgreesWith.move (hagrees : store.AgreesWith order baseOrigin stage) (thread : Thread)
    {at' : StoreThread} (hself : at'.AgreesWith stage thread)
    (hholds : ∀ user, at'.holdsUser user = true → store.alive user = true) :
    (store.setThread thread at').AgreesWith order baseOrigin stage where
  counter := hagrees.counter
  drawn := hagrees.drawn
  threads := hagrees.threads_update thread hself fun _ hne ↦ absurd rfl hne
  table := hagrees.table
  recorded := hagrees.recorded
  users := hagrees.users_update thread hholds

/-- `genRequestId` hands an unused id to the thread. -/
theorem AgreesWith.savePenddingReq (hagrees : store.AgreesWith order baseOrigin stage)
    (hsaves : store.saves < 2 ^ 64) (thread : Thread) (ctx : ReqContext)
    (halive : store.alive ctx.user = true) :
    AgreesWith order baseOrigin
      { store.setThread thread (.saving store.reqIdCreator ctx) with
        reqIdCreator := store.reqIdCreator + 1
        saves := store.saves + 1 }
      (Function.update stage store.reqIdCreator (.saving thread ctx)) := by
  have hunused := hagrees.unused_counter hsaves
  refine ⟨?_, ?_, ?_, ?_, ?_, ?_⟩
  · exact (congrArg (· + 1) hagrees.counter).trans (counterAt_succ 64 101 store.saves).symm
  · intro reqId hused
    by_cases heq : reqId = store.reqIdCreator
    · exact ⟨store.saves, Nat.lt_succ_self _, heq.trans hagrees.counter⟩
    · rw [Function.update_of_ne heq] at hused
      obtain ⟨n, hn, hid⟩ := hagrees.drawn reqId hused
      exact ⟨n, Nat.lt_succ_of_lt hn, hid⟩
  · refine hagrees.threads_update thread (Function.update_self _ _ _) fun reqId hne ↦ ?_
    by_cases heq : reqId = store.reqIdCreator
    · rw [heq, hunused]
      exact .inl rfl
    · exact absurd (Function.update_of_ne heq _ _) hne
  · intro reqId
    by_cases heq : reqId = store.reqIdCreator
    · subst heq
      rw [Function.update_self]
      have hnone : store.view store.reqIdCreator = none := hagrees.view_of_stage hunused
      exact hnone
    · rw [Function.update_of_ne heq]
      exact hagrees.table reqId
  · intro reqId
    by_cases heq : reqId = store.reqIdCreator
    · subst heq
      rw [Function.update_self]
      have hnil : store.log.filter (StoreEvent.concerns store.reqIdCreator) = [] :=
        hagrees.recorded_of_stage hunused
      exact hnil
    · rw [Function.update_of_ne heq]
      exact hagrees.recorded reqId
  · refine hagrees.users_update thread fun user hholds ↦ ?_
    have huser : ctx.user = user := of_decide_eq_true hholds
    exact huser ▸ halive

/-- A sweep of a shard removes its victims. -/
theorem view_sweepShard (store : PendingStore Thread) (thread : Thread) (user : UserId)
    (shard : Fin reqShardCount) (reqId : RequestId) :
    (store.sweepShard thread user shard).view reqId =
      if store.victims user shard reqId then none else store.view reqId := by
  rw [view, sweepShard, Sharded.view_removeIf, victims]
  show (if _ then (store.view reqId).filter _ else store.view reqId) = _
  by_cases hshard : shardIdx reqId = shard
  · rw [if_pos hshard]
    cases hview : store.view reqId with
    | none => simp
    | some ctx => cases hstale : store.stale user ctx <;> simp [hshard, hstale]
  · simp [hshard]

/-- A sweep closes the ids whose contexts it removes. -/
theorem AgreesWith.sweepShard (hagrees : store.AgreesWith order baseOrigin stage) (thread : Thread)
    (user : UserId) (shard : Fin reqShardCount) (halive : store.alive user = true) :
    (store.sweepShard thread user shard).AgreesWith order baseOrigin
      (fun reqId ↦ if store.victims user shard reqId then .closed else stage reqId) := by
  -- a victim has an entry, so it is at the stage `pending`
  have hvictim : ∀ reqId, store.victims user shard reqId = true →
      ∃ ctx, stage reqId = .pending ctx := by
    intro reqId hvictim
    rw [victims, Bool.and_eq_true, Option.any_eq_true] at hvictim
    obtain ⟨-, ctx, hview, -⟩ := hvictim
    exact ⟨ctx, hagrees.pending_of_view hview⟩
  refine ⟨hagrees.counter, ?_, ?_, ?_, ?_, ?_⟩
  · intro reqId hused
    refine hagrees.drawn reqId fun hunused ↦ hused ?_
    split_ifs with h
    · obtain ⟨ctx, hpending⟩ := hvictim reqId h
      rw [hunused] at hpending
      cases hpending
    · exact hunused
  · refine hagrees.threads_update thread (by cases nextShard shard <;> trivial) fun reqId hne ↦ ?_
    split_ifs at hne with h
    · obtain ⟨ctx, hpending⟩ := hvictim reqId h
      rw [hpending]
      exact .inl rfl
    · exact absurd rfl hne
  · intro reqId
    rw [view_sweepShard]
    split_ifs with h
    · rfl
    · exact hagrees.table reqId
  · intro reqId
    rw [PendingStore.sweepShard, filter_concerns_append]
    show Stage.Recorded _ _ _ _ (_ ++ if store.victims user shard reqId = true then _ else _)
    split_ifs with h
    · obtain ⟨ctx, hpending⟩ := hvictim reqId h
      have hevents : store.log.filter (StoreEvent.concerns reqId) = [.saved reqId ctx] :=
        hagrees.recorded_of_stage hpending
      rw [hevents]
      exact .cleaned ctx _
    · rw [List.append_nil]
      exact hagrees.recorded reqId
  · refine hagrees.users_update thread fun other hholds ↦ ?_
    cases hnext : nextShard shard with
    | none =>
      rw [hnext] at hholds
      cases hholds
    | some later =>
      rw [hnext] at hholds
      have huser : user = other := of_decide_eq_true hholds
      exact huser ▸ halive

/-- The thread that responds to an id finishes with it. -/
theorem AgreesWith.finish (hagrees : store.AgreesWith order baseOrigin stage) {thread : Thread}
    {reqId : RequestId} {ctx : ReqContext} (hstage : stage reqId = .taken thread ctx)
    {event : StoreEvent} (hconcerns : ∀ other, event.concerns other = decide (reqId = other))
    (hlife : Life order baseOrigin reqId [.saved reqId ctx, .taken reqId, event]) :
    AgreesWith order baseOrigin
      { store.setThread thread .idle with log := store.log ++ [event] }
      (Function.update stage reqId .closed) := by
  have hnone : store.view reqId = none := hagrees.view_of_stage hstage
  have hevents : store.log.filter (StoreEvent.concerns reqId) = [.saved reqId ctx, .taken reqId] :=
    hagrees.recorded_of_stage hstage
  refine hagrees.advance .closed (by rw [hstage]; exact .inr rfl) (by simp [hstage])
    trivial (fun _ h ↦ by cases h) ?_ hconcerns ?_
  · exact ((congrArg (Function.update store.view reqId) hnone.symm).trans
      (Function.update_eq_self reqId store.view)).symm
  · rw [hevents]
    exact hlife

variable [Fintype Thread]

/-! ### What each step does -/

/-- The steps of the store, one case for each way in which a step ends. -/
inductive Steps (order : ByteOrder) (baseOrigin : BitVec 16) (store : PendingStore Thread) :
    StoreAction Thread → PendingStore Thread → Prop
  | savePenddingReq (thread : Thread) (ctx : ReqContext) (halive : store.alive ctx.user = true) :
    Steps order baseOrigin store (.savePenddingReq thread ctx.user ctx.reqHeader ctx.reqData)
      { store.setThread thread (.saving store.reqIdCreator ctx) with
        reqIdCreator := store.reqIdCreator + 1
        saves := store.saves + 1 }
  | saveReqContext (thread : Thread) (reqId : RequestId) (ctx : ReqContext)
    (hthread : store.threads thread = .saving reqId ctx) :
    Steps order baseOrigin store (.saveReqContext thread)
      { store.setThread thread .idle with
        reqShards := Sharded.insertNew shardIdx store.reqShards reqId ctx
        log := store.log ++ [.saved reqId ctx] }
  | missed (thread : Thread) (reqId : RequestId) (respData : Bytes)
    (hview : store.view reqId = none) :
    Steps order baseOrigin store (.response thread reqId respData)
      { store with log := store.log ++ [.missed reqId] }
  | taken (thread : Thread) (reqId : RequestId) (respData : Bytes) (ctx : ReqContext)
    (hview : store.view reqId = some ctx) :
    Steps order baseOrigin store (.response thread reqId respData)
      { store.setThread thread (.responding reqId ctx respData) with
        reqShards := Sharded.erase shardIdx store.reqShards reqId
        log := store.log ++ [.taken reqId] }
  | locked (thread : Thread) (reqId : RequestId) (ctx : ReqContext) (respData : Bytes)
    (hthread : store.threads thread = .responding reqId ctx respData)
    (halive : store.alive ctx.user = true) :
    Steps order baseOrigin store (.lockUser thread)
      (store.setThread thread (.posting reqId ctx respData))
  | gone (thread : Thread) (reqId : RequestId) (ctx : ReqContext) (respData : Bytes)
    (hthread : store.threads thread = .responding reqId ctx respData) :
    Steps order baseOrigin store (.lockUser thread)
      { store.setThread thread .idle with log := store.log ++ [.gone reqId] }
  | postMsg (thread : Thread) (reqId : RequestId) (ctx : ReqContext) (respData : Bytes)
    (hthread : store.threads thread = .posting reqId ctx respData) :
    Steps order baseOrigin store (.postMsg thread)
      { store.setThread thread .idle with
        log := store.log ++
          [.posted reqId ctx.user (createResponse order baseOrigin ctx.reqHeader respData)] }
  | cleanupUserContext (thread : Thread) (user : UserId) (halive : store.alive user = true) :
    Steps order baseOrigin store (.cleanupUserContext thread user)
      (store.setThread thread (.cleaning user 0))
  | cleanShard (thread : Thread) (user : UserId) (shard : Fin reqShardCount)
    (hthread : store.threads thread = .cleaning user shard) :
    Steps order baseOrigin store (.cleanShard thread) (store.sweepShard thread user shard)
  | destroyUser (user : UserId)
    (hfree : ∀ thread, (store.threads thread).holdsUser user = false) :
    Steps order baseOrigin store (.destroyUser user)
      { store with alive := Function.update store.alive user false }

theorem step_cases {action : StoreAction Thread}
    (hstep : store.step order baseOrigin action = some next) :
    Steps order baseOrigin store action next := by
  cases action with
  | savePenddingReq thread user reqHeader reqData =>
    simp only [step] at hstep
    split_ifs at hstep with hguard
    cases hstep
    exact .savePenddingReq thread ⟨user, reqHeader, reqData⟩ hguard.2
  | saveReqContext thread =>
    simp only [step] at hstep
    split at hstep
    case h_2 => cases hstep
    case h_1 reqId ctx hthread =>
      cases hstep
      exact .saveReqContext thread reqId ctx hthread
  | response thread reqId respData =>
    simp only [step] at hstep
    split_ifs at hstep
    split at hstep
    case h_1 hview =>
      cases hstep
      exact .missed thread reqId respData hview
    case h_2 ctx hview =>
      cases hstep
      exact .taken thread reqId respData ctx hview
  | lockUser thread =>
    simp only [step] at hstep
    split at hstep
    case h_2 => cases hstep
    case h_1 reqId ctx respData hthread =>
      split_ifs at hstep with halive
      · cases hstep
        exact .locked thread reqId ctx respData hthread halive
      · cases hstep
        exact .gone thread reqId ctx respData hthread
  | postMsg thread =>
    simp only [step] at hstep
    split at hstep
    case h_2 => cases hstep
    case h_1 reqId ctx respData hthread =>
      cases hstep
      exact .postMsg thread reqId ctx respData hthread
  | cleanupUserContext thread user =>
    simp only [step] at hstep
    split_ifs at hstep with hguard
    cases hstep
    exact .cleanupUserContext thread user hguard.2
  | cleanShard thread =>
    simp only [step] at hstep
    split at hstep
    case h_2 => cases hstep
    case h_1 user shard hthread =>
      cases hstep
      exact .cleanShard thread user shard hthread
  | destroyUser user =>
    simp only [step] at hstep
    split_ifs at hstep with hfree
    cases hstep
    exact .destroyUser user hfree

theorem step_saves {action : StoreAction Thread}
    (hstep : store.step order baseOrigin action = some next) : store.saves ≤ next.saves := by
  cases step_cases hstep with
  | savePenddingReq => exact Nat.le_succ _
  | saveReqContext | missed | taken | locked | gone | postMsg | cleanupUserContext | cleanShard
  | destroyUser => exact le_rfl

/-- Every step keeps the invariant. -/
theorem step_invariant {action : StoreAction Thread} (hinv : store.Invariant order baseOrigin)
    (hstep : store.step order baseOrigin action = some next) : next.Invariant order baseOrigin := by
  intro hsaves
  have hle := step_saves hstep
  obtain ⟨stage, hagrees⟩ := hinv (by omega)
  cases step_cases hstep with
  | savePenddingReq thread ctx halive =>
    exact ⟨_, hagrees.savePenddingReq (by omega) thread ctx halive⟩
  | saveReqContext thread reqId ctx hthread =>
    have hstage : stage reqId = .saving thread ctx := hagrees.thread_of_eq hthread
    have hnone : store.view reqId = none := hagrees.view_of_stage hstage
    have hevents : store.log.filter (StoreEvent.concerns reqId) = [] :=
      hagrees.recorded_of_stage hstage
    refine ⟨_, hagrees.advance (.pending ctx) (by rw [hstage]; exact .inr rfl)
      (by simp [hstage]) trivial (fun _ h ↦ by cases h) ?_ (fun _ ↦ rfl) ?_⟩
    · rw [Sharded.view_insertNew]
      exact Table.insertNew_of_none hnone ctx
    · rw [hevents]
      rfl
  | missed thread reqId respData hview =>
    refine ⟨stage, hagrees.counter, hagrees.drawn, hagrees.threads, hagrees.table, fun other ↦ ?_,
      hagrees.users⟩
    rw [filter_concerns_append]
    exact (List.append_nil _).symm ▸ hagrees.recorded other
  | taken thread reqId respData ctx hview =>
    have hstage : stage reqId = .pending ctx := hagrees.pending_of_view hview
    have hevents : store.log.filter (StoreEvent.concerns reqId) = [.saved reqId ctx] :=
      hagrees.recorded_of_stage hstage
    refine ⟨_, hagrees.advance (.taken thread ctx) (by rw [hstage]; exact .inl rfl)
      (by simp [hstage]) (Function.update_self _ _ _) (fun _ h ↦ by cases h) ?_ (fun _ ↦ rfl) ?_⟩
    · rw [Sharded.view_erase]
      rfl
    · rw [hevents]
      rfl
  | locked thread reqId ctx respData hthread halive =>
    have hstage : stage reqId = .taken thread ctx := hagrees.thread_of_eq hthread
    refine ⟨stage, hagrees.move thread hstage fun user hholds ↦ ?_⟩
    have huser : ctx.user = user := of_decide_eq_true hholds
    exact huser ▸ halive
  | gone thread reqId ctx respData hthread =>
    exact ⟨_, hagrees.finish (hagrees.thread_of_eq hthread) (fun _ ↦ rfl) (.gone ctx)⟩
  | postMsg thread reqId ctx respData hthread =>
    exact ⟨_, hagrees.finish (hagrees.thread_of_eq hthread) (fun _ ↦ rfl) (.answered ctx respData)⟩
  | cleanupUserContext thread user halive =>
    refine ⟨stage, hagrees.move thread trivial fun other hholds ↦ ?_⟩
    have huser : user = other := of_decide_eq_true hholds
    exact huser ▸ halive
  | cleanShard thread user shard hthread =>
    refine ⟨_, hagrees.sweepShard thread user shard (hagrees.users thread user ?_)⟩
    rw [hthread]
    exact decide_eq_true rfl
  | destroyUser user hfree =>
    refine ⟨stage, hagrees.counter, hagrees.drawn, hagrees.threads, hagrees.table, hagrees.recorded,
      fun thread other hholds ↦ ?_⟩
    have hne : other ≠ user := by
      rintro rfl
      exact absurd (hfree thread) (by rw [hholds]; decide)
    exact (Function.update_of_ne hne _ _).trans (hagrees.users thread other hholds)

/-- The ids whose entry a step may change: the one that is inserted, the one that is looked up, and
those that a sweep removes. -/
def touches (store : PendingStore Thread) (action : StoreAction Thread) (reqId : RequestId) :
    Bool :=
  match action with
  | .saveReqContext thread =>
    match store.threads thread with
    | .saving other _ => other = reqId
    | _ => false
  | .response _ other _ => other = reqId
  | .cleanShard thread =>
    match store.threads thread with
    | .cleaning user shard => store.victims user shard reqId
    | _ => false
  | _ => false

/-- A step leaves the entries alone that it does not touch. -/
theorem view_step {action : StoreAction Thread}
    (hstep : store.step order baseOrigin action = some next) {reqId : RequestId}
    (huntouched : store.touches action reqId = false) : next.view reqId = store.view reqId := by
  cases step_cases hstep with
  | savePenddingReq | missed | locked | gone | postMsg | cleanupUserContext | destroyUser => rfl
  | saveReqContext thread other ctx hthread =>
    have hne : reqId ≠ other := fun heq ↦ by simp [touches, hthread, heq] at huntouched
    rw [view, Sharded.view_insertNew, Table.insertNew_of_ne _ hne]
    rfl
  | taken thread other respData ctx hview =>
    have hne : reqId ≠ other := fun heq ↦ by simp [touches, heq] at huntouched
    rw [view, Sharded.view_erase, Table.erase_of_ne _ hne]
    rfl
  | cleanShard thread user shard hthread =>
    have hkept : store.victims user shard reqId = false := by
      simpa [touches, hthread] using huntouched
    rw [view_sweepShard, hkept]
    rfl

/-- Assumes: a thread that sweeps the shards from the given one on. If it goes on alone, it ends
with the entries of the user and of dead users gone from these shards, and all others there. -/
theorem runFrom_cleanShard (order : ByteOrder) (baseOrigin : BitVec 16) (thread : Thread)
    (user : UserId) (count : ℕ) (shard : Fin reqShardCount)
    (hcount : shard.val + (count + 1) = reqShardCount) (store : PendingStore Thread)
    (hthread : store.threads thread = .cleaning user shard) :
    ∃ final, runFrom (step order baseOrigin) store
        (List.replicate (count + 1) (.cleanShard thread)) = some final ∧
      final.threads thread = .idle ∧
      ∀ reqId, final.view reqId =
        if shard ≤ shardIdx reqId ∧ (store.view reqId).any (store.stale user) = true then none
        else store.view reqId := by
  induction count generalizing shard store with
  | zero =>
    have hstep : store.step order baseOrigin (.cleanShard thread) =
        some (store.sweepShard thread user shard) := by
      simp only [step, hthread]
    have hlast : nextShard shard = none := dif_neg (by omega)
    refine ⟨_, by rw [List.replicate_one, runFrom_cons_of_step hstep, runFrom_nil], ?_,
      fun reqId ↦ ?_⟩
    · rw [sweepShard, hlast]
      exact Function.update_self _ _ _
    · rw [view_sweepShard, victims]
      have hle : shard ≤ shardIdx reqId ↔ shardIdx reqId = shard := by
        have hlt := (shardIdx reqId).isLt
        rw [Fin.le_def, Fin.ext_iff]
        omega
      simp only [hle, Bool.and_eq_true, decide_eq_true_eq]
  | succ count ih =>
    have hstep : store.step order baseOrigin (.cleanShard thread) =
        some (store.sweepShard thread user shard) := by
      simp only [step, hthread]
    have hlt : shard.val + 1 < reqShardCount := by omega
    have hnext : nextShard shard = some ⟨shard.val + 1, hlt⟩ := dif_pos hlt
    have hswept : (store.sweepShard thread user shard).threads thread =
        .cleaning user ⟨shard.val + 1, hlt⟩ := by
      rw [sweepShard, hnext]
      exact Function.update_self _ _ _
    obtain ⟨final, hrun, hidle, hfinal⟩ := ih ⟨shard.val + 1, hlt⟩ (by simp only; omega) _ hswept
    refine ⟨final, by rw [List.replicate_succ, runFrom_cons_of_step hstep, hrun], hidle,
      fun reqId ↦ ?_⟩
    have hstale : (store.sweepShard thread user shard).stale user = store.stale user := rfl
    rw [hfinal, hstale, view_sweepShard, victims]
    by_cases hany : (store.view reqId).any (store.stale user) = true
    · have hle : shard ≤ shardIdx reqId ↔
          shardIdx reqId = shard ∨ (⟨shard.val + 1, hlt⟩ : Fin reqShardCount) ≤ shardIdx reqId := by
        rw [Fin.le_def, Fin.le_def, Fin.ext_iff]
        simp only
        omega
      by_cases hshard : shardIdx reqId = shard
      · simp [hshard, hany]
      · simp [hshard, hany, hle]
    · simp [hany]

/-- A cleanup that is not interrupted ends with the entries of the user and of dead users gone, and
all others there. -/
theorem runFrom_cleanupUserContext (order : ByteOrder) (baseOrigin : BitVec 16) {thread : Thread}
    {user : UserId} (hidle : store.threads thread = .idle) (halive : store.alive user = true) :
    ∃ final, runFrom (step order baseOrigin) store
        (.cleanupUserContext thread user :: List.replicate 16 (.cleanShard thread)) = some final ∧
      final.threads thread = .idle ∧
      ∀ reqId, final.view reqId = if
        (∃ ctx, store.view reqId = some ctx ∧ (ctx.user = user ∨ store.alive ctx.user = false)) then
        none else store.view reqId := by
  have hstep : store.step order baseOrigin (.cleanupUserContext thread user) =
      some (store.setThread thread (.cleaning user 0)) := if_pos ⟨hidle, halive⟩
  obtain ⟨final, hfinal, hdone, hview⟩ := runFrom_cleanShard order baseOrigin thread user 15 0 rfl
    (store.setThread thread (.cleaning user 0)) (Function.update_self _ _ _)
  refine ⟨final, by rw [runFrom_cons_of_step hstep, hfinal], hdone, fun reqId ↦ ?_⟩
  have hsame : (store.setThread thread (.cleaning user 0)).view = store.view := rfl
  have hstale : (store.setThread thread (.cleaning user 0)).stale = store.stale := rfl
  rw [hview, hsame, hstale]
  simp only [Fin.zero_le, true_and, any_stale_iff]

/-! ### The contract of the store -/

/-- What the store promises in a state. -/
structure Contract (order : ByteOrder) (baseOrigin : BitVec 16) (store : PendingStore Thread) :
    Prop where
  /-- No id is returned twice. -/
  distinct : store.savedIds.Nodup
  /-- Before the counter wraps around, ids are at least 101. -/
  atLeast : store.saves ≤ 2 ^ 64 - 101 → ∀ reqId ∈ store.savedIds, 101 ≤ reqId.toNat
  /-- Each id has one life, with one answer at most, to the user who saved it. -/
  life : ∀ reqId, Life order baseOrigin reqId (store.log.filter (StoreEvent.concerns reqId))
  /-- An answer has the serial of its request, and its type with the bit of responses. -/
  answer : ∀ reqHeader respData, ∃ respHeader,
    createResponse order baseOrigin reqHeader respData = packMsg order respHeader respData ∧
      respHeader.serial = reqHeader.serial ∧ respHeader.type = reqHeader.type ||| typeResp
  /-- A message is posted to a user that is alive. -/
  posting : ∀ thread reqId ctx respData, store.threads thread = .posting reqId ctx respData →
    store.alive ctx.user = true
  /-- A `response` that finds nothing returns -1 and changes nothing. -/
  missed : ∀ thread reqId respData next, store.view reqId = none →
    store.step order baseOrigin (.response thread reqId respData) = some next →
    next = { store with log := store.log ++ [.missed reqId] }
  /-- A `response` that finds the context removes it. -/
  taken : ∀ thread reqId respData next ctx, store.view reqId = some ctx →
    store.step order baseOrigin (.response thread reqId respData) = some next →
    next.view = store.view.erase reqId ∧ next.alive = store.alive ∧
      next.log = store.log ++ [.taken reqId]
  /-- A `response` whose user is gone returns -1 and changes nothing else. -/
  gone : ∀ thread reqId ctx respData next, store.threads thread = .responding reqId ctx respData →
    store.alive ctx.user = false → store.step order baseOrigin (.lockUser thread) = some next →
    next = { store.setThread thread .idle with log := store.log ++ [.gone reqId] }
  /-- A sweep removes exactly the entries of its shard whose user is the given one or dead. -/
  swept : ∀ thread user shard next, store.threads thread = .cleaning user shard →
    store.step order baseOrigin (.cleanShard thread) = some next →
    ∀ reqId, next.view reqId = if shardIdx reqId = shard ∧
      (∃ ctx, store.view reqId = some ctx ∧ (ctx.user = user ∨ store.alive ctx.user = false)) then
      none else store.view reqId
  /-- A cleanup that is not interrupted removes exactly the entries of the user and of dead
  users. -/
  cleanup : ∀ thread user, store.threads thread = .idle → store.alive user = true →
    ∃ final, runFrom (step order baseOrigin) store
        (.cleanupUserContext thread user :: List.replicate 16 (.cleanShard thread)) = some final ∧
      final.threads thread = .idle ∧
      ∀ reqId, final.view reqId = if
        (∃ ctx, store.view reqId = some ctx ∧ (ctx.user = user ∨ store.alive ctx.user = false)) then
        none else store.view reqId
  /-- No step touches the entries of other ids. -/
  others : ∀ action next, store.step order baseOrigin action = some next →
    ∀ reqId, store.touches action reqId = false → next.view reqId = store.view reqId

/-- Assumes: a run of the store from its creation with fewer than `2 ^ 64` saves. The state it
reaches keeps the contract. -/
theorem pendingStore_contract (order : ByteOrder) (baseOrigin : BitVec 16)
    (actions : List (StoreAction Thread)) (final : PendingStore Thread)
    (hrun : runFrom (step order baseOrigin) new actions = some final)
    (hsaves : final.saves < 2 ^ 64) : final.Contract order baseOrigin := by
  have hinv : final.Invariant order baseOrigin :=
    runFrom_invariant (Invariant order baseOrigin)
      (fun store action next hstore hstep ↦ step_invariant hstore hstep) invariant_new hrun
  obtain ⟨stage, hagrees⟩ := hinv hsaves
  have hlife : ∀ reqId, Life order baseOrigin reqId
      (final.log.filter (StoreEvent.concerns reqId)) := fun reqId ↦ (hagrees.recorded reqId).life
  refine ⟨nodup_savedIds hlife, ?_, hlife, fun _ _ ↦ ⟨_, rfl, rfl, rfl⟩, ?_, ?_, ?_, ?_, ?_, ?_, ?_⟩
  · intro hbound reqId hsaved
    obtain ⟨n, hn, rfl⟩ := hagrees.drawn_of_saved hsaved
    rw [drawnId, toNat_counterAt (by omega)]
    omega
  · intro thread reqId ctx respData hthread
    refine hagrees.users thread ctx.user ?_
    rw [hthread]
    exact decide_eq_true rfl
  · intro thread reqId respData next hview hstep
    simp only [step, hview] at hstep
    split_ifs at hstep
    exact (Option.some.inj hstep).symm
  · intro thread reqId respData next ctx hview hstep
    simp only [step, hview] at hstep
    split_ifs at hstep
    cases hstep
    exact ⟨Sharded.view_erase shardIdx final.reqShards reqId, rfl, rfl⟩
  · intro thread reqId ctx respData next hthread hdead hstep
    simp only [step, hthread, hdead, Bool.false_eq_true, if_false, Option.some.injEq] at hstep
    exact hstep.symm
  · intro thread user shard next hthread hstep reqId
    simp only [step, hthread, Option.some.injEq] at hstep
    rw [← hstep, view_sweepShard, victims]
    simp only [Bool.and_eq_true, decide_eq_true_eq, any_stale_iff]
  · exact fun thread user hidle halive ↦ runFrom_cleanupUserContext order baseOrigin hidle halive
  · exact fun action next hstep reqId huntouched ↦ view_step hstep huntouched

/-- A request is saved, answered, and asked for once more. -/
theorem pendingStore_contract_answered :
    ∃ final, runFrom (step .little 7) (new : PendingStore (Fin 2))
        [.savePenddingReq 0 4 ⟨1, 0, 0x21#32, 9, 0⟩ [], .saveReqContext 0, .response 1 101#64 [5#8],
          .lockUser 1, .postMsg 1, .response 0 101#64 [6#8]] = some final ∧
      final.Contract .little 7 :=
  ⟨_, rfl, pendingStore_contract .little 7
    [.savePenddingReq 0 4 ⟨1, 0, 0x21#32, 9, 0⟩ [], .saveReqContext 0, .response 1 101#64 [5#8],
      .lockUser 1, .postMsg 1, .response 0 101#64 [6#8]] _ rfl (by decide)⟩

/-- A thread that saves one request after another draws one id after another. -/
theorem runFrom_saves (order : ByteOrder) (baseOrigin : BitVec 16) (thread : Thread)
    (ctx : ReqContext) (n : ℕ) (store : PendingStore Thread)
    (hidle : store.threads thread = .idle) (halive : store.alive ctx.user = true) :
    ∃ final, runFrom (step order baseOrigin) store
        (List.replicate n [.savePenddingReq thread ctx.user ctx.reqHeader ctx.reqData,
          .saveReqContext thread]).flatten = some final ∧
      final.threads thread = .idle ∧ final.alive ctx.user = true ∧
      final.reqIdCreator = store.reqIdCreator + BitVec.ofNat 64 n ∧
      final.saves = store.saves + n := by
  induction n generalizing store with
  | zero => exact ⟨store, rfl, hidle, halive, (BitVec.add_zero _).symm, rfl⟩
  | succ n ih =>
    have hdraw : store.step order baseOrigin
        (.savePenddingReq thread ctx.user ctx.reqHeader ctx.reqData) =
        some { store.setThread thread (.saving store.reqIdCreator ctx) with
          reqIdCreator := store.reqIdCreator + 1
          saves := store.saves + 1 } := if_pos ⟨hidle, halive⟩
    rw [List.replicate_succ, List.flatten_cons, List.cons_append, runFrom_cons_of_step hdraw,
      List.cons_append, List.nil_append, runFrom_cons]
    simp only [step, setThread, Function.update_self, Option.bind_some]
    obtain ⟨final, hrun, hidle', halive', hcounter, hsaves⟩ :=
      ih { store with
        threads := Function.update (Function.update store.threads thread
          (.saving store.reqIdCreator ctx)) thread .idle
        reqIdCreator := store.reqIdCreator + 1
        saves := store.saves + 1
        reqShards := Sharded.insertNew shardIdx store.reqShards store.reqIdCreator ctx
        log := store.log ++ [.saved store.reqIdCreator ctx] } (Function.update_self _ _ _) halive
    refine ⟨final, hrun, hidle', halive', ?_, ?_⟩
    · rw [hcounter, BitVec.ofNat_add, BitVec.add_comm (BitVec.ofNat 64 n), BitVec.add_assoc]
      rfl
    · rw [hsaves]
      simp only
      omega

/-- After `2 ^ 64 - 101` saves the next one returns the id zero. And an id may have been asked for
before it was saved: the answer is posted all the same. -/
theorem not_pendingStore_contract_as_claimed :
    (∃ final, runFrom (step .little 7) (new : PendingStore (Fin 1))
        ((List.replicate (2 ^ 64 - 101) [.savePenddingReq 0 4 ⟨1, 0, 0x21#32, 9, 0⟩ [],
          .saveReqContext 0]).flatten ++
          [.savePenddingReq 0 4 ⟨1, 0, 0x21#32, 9, 0⟩ [], .saveReqContext 0]) = some final ∧
      final.saves < 2 ^ 64 ∧ 0#64 ∈ final.savedIds) ∧
    ∃ final, runFrom (step .little 7) (new : PendingStore (Fin 1))
        [.response 0 101#64 [], .savePenddingReq 0 4 ⟨1, 0, 0x21#32, 9, 0⟩ [], .saveReqContext 0,
          .response 0 101#64 [5#8], .lockUser 0, .postMsg 0] = some final ∧
      final.log = [.missed 101#64, .saved 101#64 ⟨4, ⟨1, 0, 0x21#32, 9, 0⟩, []⟩, .taken 101#64,
        .posted 101#64 4 (createResponse .little 7 ⟨1, 0, 0x21#32, 9, 0⟩ [5#8])] := by
  refine ⟨?_, ⟨_, rfl, rfl⟩⟩
  obtain ⟨store, hrun, hidle, halive, hcounter, hsaves⟩ := runFrom_saves .little 7 (0 : Fin 1)
    ⟨4, ⟨1, 0, 0x21#32, 9, 0⟩, []⟩ (2 ^ 64 - 101) new rfl rfl
  have hzero : store.reqIdCreator = 0#64 := by
    rw [hcounter]
    decide
  have hdraw : store.step .little 7 (.savePenddingReq 0 4 ⟨1, 0, 0x21#32, 9, 0⟩ []) =
      some { store.setThread 0 (.saving store.reqIdCreator ⟨4, ⟨1, 0, 0x21#32, 9, 0⟩, []⟩) with
        reqIdCreator := store.reqIdCreator + 1
        saves := store.saves + 1 } := if_pos ⟨hidle, halive⟩
  rw [runFrom_append, hrun, Option.bind_some, runFrom_cons_of_step hdraw, runFrom_cons]
  simp only [step, setThread, Function.update_self, Option.bind_some, runFrom_nil]
  refine ⟨_, rfl, ?_, ?_⟩
  · simp only [hsaves, new]
    decide
  · rw [savedIds, List.filterMap_append, hzero]
    exact List.mem_append_right _ List.mem_cons_self

end PendingStore

end TszyUlt.Lygc
