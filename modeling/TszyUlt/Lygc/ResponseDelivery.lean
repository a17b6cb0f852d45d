import TszyUlt.Lygc.PendingStoreContract
import TszyUlt.Zbf.WritePath

/-!
# What `response` reports

`lygc/net_server.hpp`: `NetServer::response` and `NetUser::postMsg`. `response` returns -1 when the
store has no context of the id and when its user is gone. Otherwise it hands the answer to `postMsg`
and returns 0. `postMsg` calls `tcpsock_user::post`, which refuses a message when the write queue of
the user holds more than `MaxPendingMsg`, writes its return code to the log and returns nothing.

`DeliveryServer` is the store of pending requests with the connections of the users, whose write
queues are filled by other threads and emptied by the I/O threads, and with a report of every call
of `response` that returned. `response_truthful_iff` is the result about its runs: the reports of a
run are true exactly when every answer is posted to a queue of at most `MaxPendingMsg` messages.
With one message more the answer is lost, its context is consumed, and `response` returns 0
(`not_response_truthful_full`).

Scope. The log texts are not modelled. A user that is destroyed takes its connection with it.
-/

set_option autoImplicit false
set_option relaxedAutoImplicit false

namespace TszyUlt.Lygc

open Lib Zbf

/-! ### The server and its reports -/

/-- A call of `response` that returned: its arguments, its value, and the message that it appended
to the write queue of a user. -/
structure ResponseReport where
  reqId : RequestId
  respData : Bytes
  rc : ℤ
  appended : Option (UserId × TcpMessage)
  deriving DecidableEq, Repr

/-- The call returned 0 if and only if it appended the answer to a request that was saved under its
id to the write queue of the user that made this request. -/
def ResponseReport.Truthful (order : ByteOrder) (baseOrigin : BitVec 16) (log : List StoreEvent)
    (report : ResponseReport) : Prop :=
  report.rc = 0 ↔ ∃ ctx, .saved report.reqId ctx ∈ log ∧
    report.appended = some (ctx.user, createResponse order baseOrigin ctx.reqHeader report.respData)

/-- The call appended the answer and returned 0, or appended nothing and returned -1. -/
def ResponseReport.Settled (order : ByteOrder) (baseOrigin : BitVec 16) (log : List StoreEvent)
    (report : ResponseReport) : Prop :=
  (report.rc = 0 ∧ ∃ ctx, .saved report.reqId ctx ∈ log ∧ report.appended =
    some (ctx.user, createResponse order baseOrigin ctx.reqHeader report.respData)) ∨
  (report.rc = -1 ∧ report.appended = none)

/-- The call appended nothing and returned 0. -/
def ResponseReport.Lost (report : ResponseReport) : Prop :=
  report.rc = 0 ∧ report.appended = none

section Reports

variable {order : ByteOrder} {baseOrigin : BitVec 16} {log later : List StoreEvent}
  {report : ResponseReport}

theorem ResponseReport.Settled.truthful (hsettled : report.Settled order baseOrigin log) :
    report.Truthful order baseOrigin log := by
  rcases hsettled with ⟨hrc, happended⟩ | ⟨hrc, hnone⟩
  · exact iff_of_true hrc happended
  · refine iff_of_false (by rw [hrc]; decide) fun ⟨ctx, _, happended⟩ ↦ ?_
    rw [hnone] at happended
    cases happended

/-- Assumes: the log grows. -/
theorem ResponseReport.Settled.mono (hsettled : report.Settled order baseOrigin log)
    (hlog : log ⊆ later) : report.Settled order baseOrigin later :=
  hsettled.imp_left fun ⟨hrc, ctx, hsaved, happended⟩ ↦ ⟨hrc, ctx, hlog hsaved, happended⟩

theorem ResponseReport.Lost.not_truthful (hlost : report.Lost) :
    ¬report.Truthful order baseOrigin log := by
  intro htruthful
  obtain ⟨ctx, _, happended⟩ := htruthful.mp hlost.1
  rw [hlost.2] at happended
  cases happended

end Reports

/-- The message at the end of a queue that was not there before. -/
def newInQueue (before after : List TcpMessage) : Option TcpMessage :=
  (after.drop before.length).head?

@[simp] theorem newInQueue_self (queue : List TcpMessage) : newInQueue queue queue = none := by
  rw [newInQueue, List.drop_length, List.head?_nil]

@[simp] theorem newInQueue_append (queue : List TcpMessage) (msg : TcpMessage) :
    newInQueue queue (queue ++ [msg]) = some msg := by
  rw [newInQueue, List.drop_left, List.head?_cons]

/-- `NetServer`: the store of pending requests, the connections of the users, and the calls of
`response` that returned. -/
structure DeliveryServer (Thread : Type*) where
  store : PendingStore Thread
  users : UserId → Connection
  reports : List ResponseReport

/-- The steps of the store and of the connections. A message that another call posts to a user is a
step of the connection. -/
inductive DeliveryAction (Thread : Type*)
  | store (action : StoreAction Thread)
  | user (user : UserId) (action : ConnectionAction)

namespace DeliveryServer

variable {Thread : Type*}

/-- A server before its first request. -/
def new : DeliveryServer Thread where
  store := .new
  users := fun _ ↦ .new
  reports := []

/-- `NetUser::postMsg` to a user. The return code of `post` goes to the log only. -/
def postMsg (server : DeliveryServer Thread) (user : UserId) (msg : TcpMessage) : Connection :=
  ((server.users user).step (.post msg)).getD (server.users user)

/-- The connections after an action of the store. -/
def usersAfter (server : DeliveryServer Thread) (order : ByteOrder) (baseOrigin : BitVec 16) :
    StoreAction Thread → UserId → Connection
  | .postMsg thread =>
    match server.store.threads thread with
    | .posting _ ctx respData =>
      Function.update server.users ctx.user
        (server.postMsg ctx.user (createResponse order baseOrigin ctx.reqHeader respData))
    | _ => server.users
  | _ => server.users

/-- The report of a call that posted its answer. -/
def postReport (server : DeliveryServer Thread) (order : ByteOrder) (baseOrigin : BitVec 16)
    (reqId : RequestId) (ctx : ReqContext) (respData : Bytes) : ResponseReport where
  reqId := reqId
  respData := respData
  rc := 0
  appended :=
    let resp := createResponse order baseOrigin ctx.reqHeader respData
    (newInQueue (server.users ctx.user).write.wrQueue
      (server.postMsg ctx.user resp).write.wrQueue).map (ctx.user, ·)

/-- The calls of `response` that an action of the store ends. -/
def reportsOf (server : DeliveryServer Thread) (order : ByteOrder) (baseOrigin : BitVec 16) :
    StoreAction Thread → List ResponseReport
  | .response _ reqId respData =>
    match server.store.view reqId with
    | none => [{ reqId := reqId, respData := respData, rc := -1, appended := none }]
    | some _ => []
  | .lockUser thread =>
    match server.store.threads thread with
    | .responding reqId ctx respData =>
      if server.store.alive ctx.user then []
      else [{ reqId := reqId, respData := respData, rc := -1, appended := none }]
    | _ => []
  | .postMsg thread =>
    match server.store.threads thread with
    | .posting reqId ctx respData => [server.postReport order baseOrigin reqId ctx respData]
    | _ => []
  | _ => []

variable [DecidableEq Thread] [Fintype Thread] (order : ByteOrder) (baseOrigin : BitVec 16)

/-- One step of the server. -/
def step (server : DeliveryServer Thread) : DeliveryAction Thread → Option (DeliveryServer Thread)
  | .store action =>
    (server.store.step order baseOrigin action).map fun store ↦
      { store := store
        users := server.usersAfter order baseOrigin action
        reports := server.reports ++ server.reportsOf order baseOrigin action }
  | .user user action =>
    if server.store.alive user then
      ((server.users user).step action).map fun connection ↦
        { server with users := Function.update server.users user connection }
    else none

/-- An answer that is posted finds room in the write queue of its user. -/
def findsRoom (server : DeliveryServer Thread) : DeliveryAction Thread → Bool
  | .store (.postMsg thread) =>
    match server.store.threads thread with
    | .posting _ ctx _ => (server.users ctx.user).write.wrQueue.length ≤ maxPendingMsg
    | _ => true
  | _ => true

/-! ### Where a context comes from -/

end DeliveryServer

/-- The request that a thread answers. -/
def StoreThread.answering : StoreThread → Option (RequestId × ReqContext)
  | .responding reqId ctx _ => some (reqId, ctx)
  | .posting reqId ctx _ => some (reqId, ctx)
  | _ => none

namespace PendingStore

variable {Thread : Type*} {order : ByteOrder} {baseOrigin : BitVec 16}

/-- Every context in the table and every context that is answered was saved under its id. -/
structure Sourced (store : PendingStore Thread) : Prop where
  table : ∀ reqId ctx, store.view reqId = some ctx → .saved reqId ctx ∈ store.log
  threads : ∀ thread reqId ctx,
    (store.threads thread).answering = some (reqId, ctx) → .saved reqId ctx ∈ store.log

theorem sourced_new : (new : PendingStore Thread).Sourced where
  table _ _ hview := nomatch hview
  threads _ _ _ hthread := nomatch hthread

variable {store next : PendingStore Thread} [DecidableEq Thread]

/-- Assumes: the log grows, an entry of the table was there or was saved, and the thread that moves
answers what was saved. The contexts stay those that were saved. -/
theorem Sourced.update (hsourced : store.Sourced) {thread : Thread} {at' : StoreThread}
    (hthreads : next.threads = Function.update store.threads thread at')
    (hlog : store.log ⊆ next.log)
    (htable : ∀ reqId ctx, next.view reqId = some ctx →
      store.view reqId = some ctx ∨ .saved reqId ctx ∈ next.log)
    (hat : ∀ reqId ctx, at'.answering = some (reqId, ctx) → .saved reqId ctx ∈ store.log) :
    next.Sourced where
  table reqId ctx hview := by
    rcases htable reqId ctx hview with hold | hsaved
    · exact hlog (hsourced.table reqId ctx hold)
    · exact hsaved
  threads other reqId ctx hother := by
    rw [hthreads] at hother
    by_cases heq : other = thread
    · subst heq
      rw [Function.update_self] at hother
      exact hlog (hat reqId ctx hother)
    · rw [Function.update_of_ne heq] at hother
      exact hlog (hsourced.threads other reqId ctx hother)

variable [Fintype Thread]

theorem step_log_subset {action : StoreAction Thread}
    (hstep : store.step order baseOrigin action = some next) : store.log ⊆ next.log := by
  cases step_cases hstep with
  | savePenddingReq | locked | cleanupUserContext | destroyUser => exact List.Subset.refl _
  | saveReqContext | missed | taken | gone | postMsg | cleanShard =>
    exact List.subset_append_left _ _

/-- Every step keeps the contexts to those that were saved. -/
theorem Sourced.step (hsourced : store.Sourced) {action : StoreAction Thread}
    (hstep : store.step order baseOrigin action = some next) : next.Sourced := by
  have hlog := step_log_subset hstep
  cases step_cases hstep with
  | savePenddingReq thread ctx halive =>
    exact hsourced.update rfl hlog (fun _ _ hview ↦ Or.inl hview) fun _ _ hat ↦ by cases hat
  | saveReqContext thread reqId ctx hthread =>
    refine hsourced.update rfl hlog (fun other found hview ↦ ?_) fun _ _ hat ↦ by cases hat
    rw [view, Sharded.view_insertNew] at hview
    by_cases heq : other = reqId
    · subst heq
      rcases Table.insertNew_eq_some hview with hold | rfl
      · exact Or.inl hold
      · exact Or.inr (List.mem_append_right _ List.mem_cons_self)
    · rw [Table.insertNew_of_ne _ heq] at hview
      exact Or.inl hview
  | missed thread reqId respData hview =>
    exact ⟨fun other ctx hother ↦ hlog (hsourced.table other ctx hother),
      fun thread other ctx hother ↦ hlog (hsourced.threads thread other ctx hother)⟩
  | taken thread reqId respData ctx hview =>
    refine hsourced.update rfl hlog (fun other found hother ↦ ?_) fun other found hat ↦ ?_
    · rw [view, Sharded.view_erase] at hother
      exact Or.inl (Table.erase_eq_some hother)
    · cases hat
      exact hsourced.table reqId ctx hview
  | locked thread reqId ctx respData hthread halive =>
    refine hsourced.update rfl hlog (fun _ _ hview ↦ Or.inl hview) fun other found hat ↦ ?_
    cases hat
    exact hsourced.threads thread reqId ctx (by rw [hthread]; rfl)
  | gone thread | postMsg thread | cleanupUserContext thread =>
    exact hsourced.update rfl hlog (fun _ _ hview ↦ Or.inl hview) fun _ _ hat ↦ by cases hat
  | cleanShard thread user shard hthread =>
    refine hsourced.update rfl hlog (fun reqId ctx hview ↦ ?_) fun reqId ctx hat ↦ ?_
    · rw [view_sweepShard] at hview
      split_ifs at hview
      exact Or.inl hview
    · cases hshard : nextShard shard with
      | none =>
        rw [hshard] at hat
        cases hat
      | some after =>
        rw [hshard] at hat
        cases hat
  | destroyUser user hfree => exact ⟨hsourced.table, hsourced.threads⟩

end PendingStore

namespace DeliveryServer

variable {Thread : Type*} {order : ByteOrder} {baseOrigin : BitVec 16}
  {server next : DeliveryServer Thread}

/-! ### What one step reports -/

/-- A message that is posted is appended to a queue with room. -/
theorem newInQueue_postMsg (server : DeliveryServer Thread) (user : UserId) (msg : TcpMessage) :
    newInQueue (server.users user).write.wrQueue (server.postMsg user msg).write.wrQueue =
      if (server.users user).write.wrQueue.length ≤ maxPendingMsg then some msg else none := by
  have hpost : (server.postMsg user msg).write = ((server.users user).write.post msg).2 := rfl
  rw [hpost]
  by_cases hroom : (server.users user).write.wrQueue.length ≤ maxPendingMsg
  · have hnot : ¬(server.users user).write.wrQueue.length > maxPendingMsg := Nat.not_lt.mpr hroom
    rw [if_pos hroom, WriteSide.post, if_neg hnot, WriteSide.setEnableWrite_wrQueue]
    exact newInQueue_append _ msg
  · rw [if_neg hroom, WriteSide.post, if_pos (Nat.lt_of_not_le hroom)]
    exact newInQueue_self _

/-- A call that posts to a queue with room appends its answer; to a full queue it loses it. -/
theorem postReport_cases (server : DeliveryServer Thread) (order : ByteOrder)
    (baseOrigin : BitVec 16) {reqId : RequestId} {ctx : ReqContext} (respData : Bytes)
    {log : List StoreEvent} (hsaved : .saved reqId ctx ∈ log) :
    (server.users ctx.user).write.wrQueue.length ≤ maxPendingMsg ∧
        (server.postReport order baseOrigin reqId ctx respData).Settled order baseOrigin log ∨
      ¬(server.users ctx.user).write.wrQueue.length ≤ maxPendingMsg ∧
        (server.postReport order baseOrigin reqId ctx respData).Lost := by
  have hnew := server.newInQueue_postMsg ctx.user
    (createResponse order baseOrigin ctx.reqHeader respData)
  by_cases hroom : (server.users ctx.user).write.wrQueue.length ≤ maxPendingMsg
  · rw [if_pos hroom] at hnew
    exact Or.inl ⟨hroom, Or.inl ⟨rfl, ctx, hsaved, congrArg (Option.map (ctx.user, ·)) hnew⟩⟩
  · rw [if_neg hroom] at hnew
    exact Or.inr ⟨hroom, rfl, congrArg (Option.map (ctx.user, ·)) hnew⟩

variable [DecidableEq Thread] [Fintype Thread]

/-- The reports of an action of the store are settled when its answer finds room, and otherwise its
answer is lost. -/
theorem reportsOf_cases {store : PendingStore Thread} {action : StoreAction Thread}
    (hsourced : server.store.Sourced)
    (hstep : server.store.step order baseOrigin action = some store) :
    server.findsRoom (.store action) = true ∧ (∀ report ∈ server.reportsOf order baseOrigin action,
        report.Settled order baseOrigin store.log) ∨
      ¬server.findsRoom (.store action) = true ∧
        ∃ report ∈ server.reportsOf order baseOrigin action, report.Lost := by
  have hlog := PendingStore.step_log_subset hstep
  cases PendingStore.step_cases hstep with
  | missed thread reqId respData hview =>
    refine Or.inl ⟨rfl, fun report hreport ↦ Or.inr ?_⟩
    rw [reportsOf, hview, List.mem_singleton] at hreport
    rw [hreport]
    exact ⟨rfl, rfl⟩
  | taken thread reqId respData ctx hview =>
    refine Or.inl ⟨rfl, fun report hreport ↦ ?_⟩
    rw [reportsOf, hview] at hreport
    cases hreport
  | locked thread reqId ctx respData hthread halive =>
    refine Or.inl ⟨rfl, fun report hreport ↦ ?_⟩
    rw [reportsOf, hthread] at hreport
    dsimp only at hreport
    rw [if_pos halive] at hreport
    cases hreport
  | gone thread reqId ctx respData hthread =>
    refine Or.inl ⟨rfl, fun report hreport ↦ Or.inr ?_⟩
    rw [reportsOf, hthread] at hreport
    dsimp only at hreport
    split_ifs at hreport
    · cases hreport
    · rw [List.mem_singleton] at hreport
      rw [hreport]
      exact ⟨rfl, rfl⟩
  | postMsg thread reqId ctx respData hthread =>
    have hsaved := hlog (hsourced.threads thread reqId ctx (by rw [hthread]; rfl))
    rw [findsRoom, reportsOf, hthread]
    dsimp only
    rw [decide_eq_true_eq]
    refine (server.postReport_cases order baseOrigin respData hsaved).imp ?_ ?_
    · rintro ⟨hroom, hsettled⟩
      exact ⟨hroom, fun report hreport ↦ List.mem_singleton.mp hreport ▸ hsettled⟩
    · rintro ⟨hfull, hlost⟩
      exact ⟨hfull, _, List.mem_cons_self, hlost⟩
  | savePenddingReq | saveReqContext | cleanupUserContext | cleanShard | destroyUser =>
    exact Or.inl ⟨rfl, fun _ hreport ↦ nomatch hreport⟩

/-! ### Runs -/

/-- Every context was saved under its id, and every call appended its answer and returned 0, or
appended nothing and returned -1. -/
structure AllSettled (order : ByteOrder) (baseOrigin : BitVec 16)
    (server : DeliveryServer Thread) : Prop where
  sourced : server.store.Sourced
  reports : ∀ report ∈ server.reports, report.Settled order baseOrigin server.store.log

/-- Some call appended nothing and returned 0. -/
def SomeLost (server : DeliveryServer Thread) : Prop := ∃ report ∈ server.reports, report.Lost

/-- A step whose answer finds room keeps all calls settled; a step whose answer does not loses
it. -/
theorem AllSettled.step (hsettled : server.AllSettled order baseOrigin)
    {action : DeliveryAction Thread} (hstep : server.step order baseOrigin action = some next) :
    server.findsRoom action = true ∧ next.AllSettled order baseOrigin ∨
      ¬server.findsRoom action = true ∧ next.SomeLost := by
  cases action with
  | store action =>
    obtain ⟨store, hstore, rfl⟩ := Option.map_eq_some_iff.mp hstep
    have hlog := PendingStore.step_log_subset hstore
    refine (reportsOf_cases hsettled.sourced hstore).imp ?_ ?_
    · rintro ⟨hroom, hnew⟩
      refine ⟨hroom, hsettled.sourced.step hstore, fun report hreport ↦ ?_⟩
      rcases List.mem_append.mp hreport with hold | hreport
      · exact (hsettled.reports report hold).mono hlog
      · exact hnew report hreport
    · rintro ⟨hfull, report, hreport, hlost⟩
      exact ⟨hfull, report, List.mem_append_right _ hreport, hlost⟩
  | user user action =>
    simp only [DeliveryServer.step] at hstep
    split_ifs at hstep
    obtain ⟨connection, _, rfl⟩ := Option.map_eq_some_iff.mp hstep
    exact Or.inl ⟨rfl, hsettled.sourced, hsettled.reports⟩

/-- A report stays as it is. -/
theorem SomeLost.step (hlost : server.SomeLost) {action : DeliveryAction Thread}
    (hstep : server.step order baseOrigin action = some next) : next.SomeLost := by
  obtain ⟨report, hreport, hlost⟩ := hlost
  cases action with
  | store action =>
    obtain ⟨store, _, rfl⟩ := Option.map_eq_some_iff.mp hstep
    exact ⟨report, List.mem_append_left _ hreport, hlost⟩
  | user user action =>
    simp only [DeliveryServer.step] at hstep
    split_ifs at hstep
    obtain ⟨connection, _, rfl⟩ := Option.map_eq_some_iff.mp hstep
    exact ⟨report, hreport, hlost⟩

/-- Every call of `response` in a run returned 0 exactly when it appended the answer for its id to
the write queue of the user that made the request, if and only if every answer that the run posted
found at most `MaxPendingMsg` messages in the write queue. -/
theorem response_truthful_iff {actions : List (DeliveryAction Thread)}
    {final : DeliveryServer Thread}
    (hrun : runFrom (step order baseOrigin) new actions = some final) :
    (∀ report ∈ final.reports, report.Truthful order baseOrigin final.store.log) ↔
      Along (step order baseOrigin) (fun server action ↦ server.findsRoom action = true) new
        actions := by
  have hstart : (new : DeliveryServer Thread).AllSettled order baseOrigin :=
    ⟨PendingStore.sourced_new, fun _ hreport ↦ nomatch hreport⟩
  have hcases := runFrom_along_or (AllSettled order baseOrigin) SomeLost
    (fun _ _ _ hsettled hstep ↦ hsettled.step hstep) (fun _ _ _ hlost hstep ↦ hlost.step hstep)
    hstart hrun
  rcases hcases with ⟨halong, hsettled⟩ | ⟨hnot, report, hreport, hlost⟩
  · exact iff_of_true (fun report hreport ↦ (hsettled.reports report hreport).truthful) halong
  · exact iff_of_false (fun hall ↦ hlost.not_truthful (hall report hreport)) hnot

/-- A run in which a request of user 1 is saved, a number of other messages is posted to the user,
and the request is answered. -/
def answeredAfter (count : ℕ) : List (DeliveryAction Unit) :=
  List.flatten
    [[.store (.savePenddingReq () 1 ⟨7, 0, 3, 5, 0⟩ []), .store (.saveReqContext ())],
      List.replicate count (.user 1 (.post ⟨[1]⟩)),
      [.store (.response () minRequestId [2]), .store (.lockUser ()), .store (.postMsg ())]]

theorem isSome_answeredAfter_room :
    (runFrom (step .little 9) new (answeredAfter 256)).isSome = true := by
  decide +kernel

theorem response_truthful_iff_room :
    ∃ final, runFrom (step .little 9) new (answeredAfter 256) = some final ∧
      final.reports.length = 1 ∧
      ∀ report ∈ final.reports, report.Truthful .little 9 final.store.log :=
  ⟨_, (Option.some_get isSome_answeredAfter_room).symm, by decide +kernel,
    (response_truthful_iff (Option.some_get isSome_answeredAfter_room).symm).mpr
      (by decide +kernel)⟩

theorem isSome_answeredAfter_full :
    (runFrom (step .little 9) new (answeredAfter 257)).isSome = true := by
  decide +kernel

/-- After 257 other messages `response` returns 0 and appends nothing. -/
theorem not_response_truthful_full :
    ¬∀ (actions : List (DeliveryAction Unit)) (final : DeliveryServer Unit),
      runFrom (step .little 9) new actions = some final →
        ∀ report ∈ final.reports, report.Truthful .little 9 final.store.log := by
  intro hall
  have hreports : ((runFrom (step .little 9) new (answeredAfter 257)).get
      isSome_answeredAfter_full).reports = [⟨minRequestId, [2], 0, none⟩] := by
    decide +kernel
  have htruthful := hall _ _ (Option.some_get isSome_answeredAfter_full).symm
    ⟨minRequestId, [2], 0, none⟩ (by rw [hreports]; exact List.mem_cons_self)
  exact ResponseReport.Lost.not_truthful ⟨rfl, rfl⟩ htruthful

end DeliveryServer

end TszyUlt.Lygc
