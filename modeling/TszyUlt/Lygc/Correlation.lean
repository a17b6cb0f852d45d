import Mathlib.Data.List.Nodup
import TszyUlt.Lygc.NetClient

/-!
# Each handler sees the response to its own request

`request_response_correlation` is the result about all runs of an `Exchange` in which a call of
`request` never uses a serial that is in flight. Every handler is called at most once, with a
response that the server made for the very call that registered it, under the serial passed to that
call and with the response flag added to its type. A message whose serial has no handler calls none.

The serial is converted four times on the way. Between hosts of the same byte order the halves are
exchanged on the way to the server and exchanged back on the way to the client
(`carriedSerial_carriedSerial`), so the server works with another serial than the client and the
client reads its own one (`unpackMsg_createResponse`).

The invariant says where everything comes from: the message of a task is the one of its call
(`Place.Genuine`), and of the calls that something is under way for, or whose handler waits, no two
have the same serial (`Outstanding`). Steps other than `request` only take from these.
-/

set_option autoImplicit false
set_option relaxedAutoImplicit false

namespace TszyUlt.Lygc

open Lib Zbf

variable {Conn UserHandler : Type*}

/-! ### What a task carries -/

/-- The header of a request as the server reads it. -/
def receivedHeader (config : ExchangeConfig UserHandler) (call : RequestCall) : LymsgHeader :=
  { call.header with
    serial := carriedSerial config.clientOrder config.serverOrder call.header.serial
    size := BitVec.ofNat 32 call.data.length }

/-- What the client reads from a response: its own serial and the type with the response flag. -/
theorem unpackMsg_createResponse (config : ExchangeConfig UserHandler) (call : RequestCall)
    (respData : Bytes) :
    unpackMsg config.clientOrder (createResponse config.serverOrder config.baseOrigin
        (receivedHeader config call) respData) =
      .ok (⟨config.baseOrigin, 0, call.header.type ||| typeResp, call.header.serial,
        BitVec.ofNat 32 respData.length⟩, respData) := by
  rw [createResponse, unpackMsg_packMsg]
  simp only [responseHeader, receivedHeader, carriedSerial_carriedSerial]

/-- The task carries what belongs to its call. -/
def Place.Genuine (config : ExchangeConfig UserHandler) (call : RequestCall)
    (made : TcpMessage → Prop) : Place Conn → Prop
  | .posting msg => msg = packMsg config.clientOrder call.header call.data
  | .unregistering => True
  | .sent _ msg => msg = packMsg config.clientOrder call.header call.data
  | .handling _ reqHeader _ => reqHeader = receivedHeader config call
  | .pending _ _ reqHeader _ => reqHeader = receivedHeader config call
  | .answering _ reqHeader _ => reqHeader = receivedHeader config call
  | .returning _ msg => made msg ∧ ∃ respData,
      msg = createResponse config.serverOrder config.baseOrigin (receivedHeader config call)
        respData

theorem Place.Genuine.mono {config : ExchangeConfig UserHandler} {call : RequestCall}
    {made made' : TcpMessage → Prop} {place : Place Conn} (hplace : place.Genuine config call made)
    (hmade : ∀ msg, made msg → made' msg) : place.Genuine config call made' := by
  cases place with
  | returning conn msg => exact ⟨hmade msg hplace.1, hplace.2⟩
  | _ => exact hplace

namespace Exchange

/-- The invocation passes to the handler of a call the response that the server made for it. -/
def Answers (config : ExchangeConfig UserHandler) (ends : Exchange Conn UserHandler)
    (invocation : Invocation) : Prop :=
  ∃ call, ends.calls[invocation.handler]? = some call ∧ call.hasHandler = true ∧
    (invocation.handler, invocation.msg) ∈ ends.produced ∧
    unpackMsg config.clientOrder invocation.msg = .ok (invocation.respHeader, invocation.respData) ∧
    invocation.respHeader.serial = call.header.serial ∧
    invocation.respHeader.type = call.header.type ||| typeResp

/-- The handler of the call waits for the serial, or something is under way for it. -/
def Outstanding (ends : Exchange Conn UserHandler) (serial : BitVec 64) (tag : Tag) : Prop :=
  ends.msgHandlers serial = some tag ∨
    ends.serialOf tag = some serial ∧ ∃ task ∈ ends.tasks, task.tag = tag

/-- What holds in every state of a run whose requests use serials that are not in flight. -/
structure Invariant (config : ExchangeConfig UserHandler) (ends : Exchange Conn UserHandler) :
    Prop where
  genuine : ∀ task ∈ ends.tasks, ∃ call, ends.calls[task.tag]? = some call ∧
    task.place.Genuine config call fun msg ↦ (task.tag, msg) ∈ ends.produced
  registered : ∀ serial tag, ends.msgHandlers serial = some tag →
    ∃ call, ends.calls[tag]? = some call ∧ call.header.serial = serial ∧ call.hasHandler = true ∧
      tag ∉ ends.invocations.map Invocation.handler
  distinct : ∀ serial tag other, ends.Outstanding serial tag → ends.Outstanding serial other →
    tag = other
  once : (ends.invocations.map Invocation.handler).Nodup
  answers : ∀ invocation ∈ ends.invocations, ends.Answers config invocation

theorem invariant_new (config : ExchangeConfig UserHandler) :
    (new : Exchange Conn UserHandler).Invariant config where
  genuine := fun _ htask ↦ absurd htask List.not_mem_nil
  registered := fun _ _ hhandler ↦ absurd hhandler (by simp [new, Table.empty])
  distinct := by
    rintro serial tag other (hhandler | ⟨-, task, htask, -⟩) -
    · exact absurd hhandler (by simp [new, Table.empty])
    · exact absurd htask List.not_mem_nil
  once := List.nodup_nil
  answers := fun _ hmem ↦ absurd hmem List.not_mem_nil

section Steps

variable {config : ExchangeConfig UserHandler} {ends : Exchange Conn UserHandler}

/-- A call that has a task is outstanding under its serial. -/
theorem outstanding_task {task : Task Conn} (htask : task ∈ ends.tasks) {call : RequestCall}
    (hcall : ends.calls[task.tag]? = some call) :
    ends.Outstanding call.header.serial task.tag := by
  refine Or.inr ⟨?_, task, htask, rfl⟩
  rw [serialOf, hcall]
  rfl

/-! ### The steps -/

/-- The server has made another response. -/
theorem Invariant.produce (hinv : ends.Invariant config) (made : Tag × TcpMessage) :
    ({ ends with produced := ends.produced ++ [made] } : Exchange Conn UserHandler).Invariant
      config where
  genuine := fun task htask ↦ by
    obtain ⟨call, hcall, hplace⟩ := hinv.genuine task htask
    exact ⟨call, hcall, hplace.mono fun _ hmade ↦ List.mem_append_left _ hmade⟩
  registered := hinv.registered
  distinct := hinv.distinct
  once := hinv.once
  answers := fun invocation hmem ↦ by
    obtain ⟨call, hcall, hhandler, hmade, hread⟩ := hinv.answers invocation hmem
    exact ⟨call, hcall, hhandler, List.mem_append_left _ hmade, hread⟩

/-- A task goes on to places that carry what belongs to its call. -/
theorem Invariant.advance (hinv : ends.Invariant config) {i : ℕ} {tag : Tag} {place : Place Conn}
    (htask : ends.tasks[i]? = some ⟨tag, place⟩) (places : List (Place Conn))
    (hplaces : ∀ call, place.Genuine config call (fun msg ↦ (tag, msg) ∈ ends.produced) →
      ∀ next ∈ places, next.Genuine config call fun msg ↦ (tag, msg) ∈ ends.produced) :
    (ends.advance i tag places).Invariant config := by
  have hmem : (⟨tag, place⟩ : Task Conn) ∈ ends.tasks := List.mem_of_getElem? htask
  have hold : ∀ task ∈ (ends.advance i tag places).tasks,
      task ∈ ends.tasks ∨ ∃ next ∈ places, task = ⟨tag, next⟩ := by
    intro task hnext
    rcases List.mem_append.mp hnext with hkept | hnew
    · exact Or.inl (List.mem_of_mem_eraseIdx hkept)
    · obtain ⟨next, hplace, rfl⟩ := List.mem_map.mp hnew
      exact Or.inr ⟨next, hplace, rfl⟩
  have houtstanding : ∀ serial other, (ends.advance i tag places).Outstanding serial other →
      ends.Outstanding serial other := by
    rintro serial other (hhandler | ⟨hserial, task, hnext, rfl⟩)
    · exact Or.inl hhandler
    · rcases hold task hnext with hkept | ⟨next, -, rfl⟩
      · exact Or.inr ⟨hserial, task, hkept, rfl⟩
      · exact Or.inr ⟨hserial, _, hmem, rfl⟩
  refine ⟨?_, hinv.registered, ?_, hinv.once, hinv.answers⟩
  · intro task hnext
    rcases hold task hnext with hkept | ⟨next, hplace, rfl⟩
    · exact hinv.genuine task hkept
    · obtain ⟨call, hcall, hgenuine⟩ := hinv.genuine _ hmem
      exact ⟨call, hcall, hplaces call hgenuine next hplace⟩
  · exact fun serial first second hfirst hsecond ↦
      hinv.distinct serial first second (houtstanding serial first hfirst)
        (houtstanding serial second hsecond)

/-- A task ends. -/
theorem Invariant.finish (hinv : ends.Invariant config) {i : ℕ} {tag : Tag} {place : Place Conn}
    (htask : ends.tasks[i]? = some ⟨tag, place⟩) : (ends.advance i tag []).Invariant config :=
  hinv.advance htask [] fun _ _ _ hnext ↦ absurd hnext List.not_mem_nil

/-- A task goes on to one place. -/
theorem Invariant.move (hinv : ends.Invariant config) {i : ℕ} {tag : Tag} {place next : Place Conn}
    (htask : ends.tasks[i]? = some ⟨tag, place⟩)
    (hnext : ∀ call, place.Genuine config call (fun msg ↦ (tag, msg) ∈ ends.produced) →
      next.Genuine config call fun msg ↦ (tag, msg) ∈ ends.produced) :
    (ends.advance i tag [next]).Invariant config := by
  refine hinv.advance htask [next] fun call hplace other hother ↦ ?_
  rw [List.mem_singleton.mp hother]
  exact hnext call hplace

/-- A task whose header is the one of its call is answered. -/
theorem Invariant.respond (hinv : ends.Invariant config) {i : ℕ} {tag : Tag} {place : Place Conn}
    (htask : ends.tasks[i]? = some ⟨tag, place⟩) (conn : Conn) (reqHeader : LymsgHeader)
    (respData : Bytes)
    (hheader : ∀ call made, place.Genuine config call made →
      reqHeader = receivedHeader config call) :
    (ends.respond config i tag conn reqHeader respData).Invariant config := by
  have hproduced := hinv.produce
    (tag, createResponse config.serverOrder config.baseOrigin reqHeader respData)
  refine hproduced.move htask fun call hplace ↦ ?_
  refine ⟨List.mem_append_right _ List.mem_cons_self, respData, ?_⟩
  rw [hheader call _ hplace]

/-- A handler is taken out of the table. -/
theorem Invariant.eraseHandler (hinv : ends.Invariant config) (serial : BitVec 64) :
    ({ ends with msgHandlers := ends.msgHandlers.erase serial } :
      Exchange Conn UserHandler).Invariant config := by
  have hkept : ∀ other tag, ends.msgHandlers.erase serial other = some tag →
      ends.msgHandlers other = some tag := by
    intro other tag hother
    by_cases hserial : other = serial
    · rw [hserial, Table.erase_self] at hother
      cases hother
    · rwa [Table.erase_of_ne _ hserial] at hother
  refine ⟨hinv.genuine, fun other tag hother ↦ hinv.registered other tag (hkept other tag hother),
    ?_, hinv.once, hinv.answers⟩
  exact fun other first second hfirst hsecond ↦
    hinv.distinct other first second (hfirst.imp_left (hkept other first))
      (hsecond.imp_left (hkept other second))

theorem onResponse_advance (msg : TcpMessage) (i : ℕ) (tag : Tag) (places : List (Place Conn)) :
    (ends.advance i tag places).onResponse config msg =
      (ends.onResponse config msg).advance i tag places := by
  have hhandlers : (ends.advance i tag places).msgHandlers = ends.msgHandlers := rfl
  unfold onResponse
  rw [hhandlers]
  split
  · rfl
  · split
    · rfl
    · split_ifs <;> rfl

theorem tasks_onResponse (msg : TcpMessage) :
    (ends.onResponse config msg).tasks = ends.tasks := by
  unfold onResponse
  split
  · rfl
  · split
    · rfl
    · split_ifs <;> rfl

/-- A message whose serial has no handler calls none. -/
theorem invocations_onResponse_of_unregistered (msg : TcpMessage)
    (hnone : ∀ respHeader respData,
      unpackMsg config.clientOrder msg = .ok (respHeader, respData) →
        ends.msgHandlers respHeader.serial = none) :
    (ends.onResponse config msg).invocations = ends.invocations := by
  unfold onResponse
  split
  · rfl
  · rename_i respHeader respData hread
    rw [hnone respHeader respData hread]
    simp only
    split_ifs <;> rfl

/-- A response to a call arrives: the handler of its serial is the one of the call. -/
theorem Invariant.onResponse (hinv : ends.Invariant config) {tag : Tag} {conn : Conn}
    {msg : TcpMessage} (htask : (⟨tag, .returning conn msg⟩ : Task Conn) ∈ ends.tasks) :
    (ends.onResponse config msg).Invariant config := by
  obtain ⟨call, hcall, hmade, respData, hmsg⟩ := hinv.genuine _ htask
  have hread := unpackMsg_createResponse config call respData
  rw [← hmsg] at hread
  unfold Exchange.onResponse
  rw [hread]
  cases hhandler : ends.msgHandlers call.header.serial with
  | none =>
    simp only [hhandler]
    split_ifs
    · exact ⟨hinv.genuine, hinv.registered, hinv.distinct, hinv.once, hinv.answers⟩
    · exact hinv
  | some waiting =>
    simp only [hhandler]
    have hwaiting : waiting = tag := hinv.distinct _ _ _ (Or.inl hhandler)
      (outstanding_task htask hcall)
    subst hwaiting
    obtain ⟨call', hcall', -, hhas, hfirst⟩ := hinv.registered _ _ hhandler
    obtain rfl : call = call' := Option.some.inj (hcall.symm.trans hcall')
    have herased := hinv.eraseHandler call.header.serial
    refine ⟨hinv.genuine, ?_, herased.distinct, ?_, ?_⟩
    · intro serial other hother
      obtain ⟨call₂, hcall₂, hserial, hhas₂, hnot⟩ := herased.registered serial other hother
      refine ⟨call₂, hcall₂, hserial, hhas₂, ?_⟩
      rw [List.map_append, List.mem_append, not_or]
      refine ⟨hnot, fun hlast ↦ ?_⟩
      -- The handler that is called now is no longer in the table.
      obtain rfl : other = waiting := List.mem_singleton.mp hlast
      obtain rfl : call = call₂ := Option.some.inj (hcall.symm.trans hcall₂)
      rw [← hserial] at hother
      exact absurd hother (by simp)
    · rw [List.map_append]
      exact hinv.once.append (List.nodup_singleton _)
        (List.disjoint_singleton.mpr hfirst)
    · intro invocation hmem
      rcases List.mem_append.mp hmem with hold | hnew
      · exact hinv.answers invocation hold
      · obtain rfl := List.mem_singleton.mp hnew
        exact ⟨call, hcall, hhas, hmade, hread, rfl, rfl⟩

/-- The calls before a new one keep their serials. -/
theorem serialOf_request (reqHeader : LymsgHeader) (reqData : Bytes) (hasHandler : Bool) {tag : Tag}
    {call : RequestCall} (hcall : ends.calls[tag]? = some call) :
    (ends.request config reqHeader reqData hasHandler).serialOf tag = ends.serialOf tag := by
  rw [serialOf, serialOf, hcall]
  exact congrArg _ (getElem?_concat_of_some hcall _)

theorem serialOf_request_self (reqHeader : LymsgHeader) (reqData : Bytes) (hasHandler : Bool) :
    (ends.request config reqHeader reqData hasHandler).serialOf ends.calls.length =
      some reqHeader.serial := by
  have hnew : (ends.request config reqHeader reqData hasHandler).calls[ends.calls.length]? =
      some ⟨{ reqHeader with origin := config.localOrigin }, reqData, hasHandler⟩ :=
    List.getElem?_concat_length
  rw [serialOf, hnew]
  rfl

/-- A handler that waits after a new call waited before, or is the one of the call. -/
theorem msgHandlers_request_cases {reqHeader : LymsgHeader} {reqData : Bytes} {hasHandler : Bool}
    (hnone : ends.msgHandlers reqHeader.serial = none) {serial : BitVec 64} {tag : Tag}
    (hhandler : (ends.request config reqHeader reqData hasHandler).msgHandlers serial = some tag) :
    ends.msgHandlers serial = some tag ∨
      hasHandler = true ∧ serial = reqHeader.serial ∧ tag = ends.calls.length := by
  cases hasHandler with
  | false => exact Or.inl hhandler
  | true =>
    have hinsert : ends.msgHandlers.insertNew reqHeader.serial ends.calls.length serial =
        some tag := hhandler
    by_cases heq : serial = reqHeader.serial
    · subst heq
      rw [Table.insertNew_of_none hnone, Function.update_self] at hinsert
      exact Or.inr ⟨rfl, rfl, (Option.some.inj hinsert).symm⟩
    · rw [Table.insertNew_of_ne _ heq] at hinsert
      exact Or.inl hinsert

/-- The new call is the only one outstanding under its serial. -/
theorem Invariant.outstanding_request_cases (hinv : ends.Invariant config) {reqHeader : LymsgHeader}
    {reqData : Bytes} {hasHandler : Bool} (hnone : ends.msgHandlers reqHeader.serial = none)
    (hfresh : ∀ task ∈ ends.tasks, ends.serialOf task.tag ≠ some reqHeader.serial)
    {serial : BitVec 64} {tag : Tag}
    (hnext : (ends.request config reqHeader reqData hasHandler).Outstanding serial tag) :
    serial ≠ reqHeader.serial ∧ ends.Outstanding serial tag ∨
      serial = reqHeader.serial ∧ tag = ends.calls.length := by
  rcases hnext with hhandler | ⟨htag, task, htask, rfl⟩
  · rcases msgHandlers_request_cases hnone hhandler with hkept | ⟨-, heq, hlast⟩
    · refine Or.inl ⟨fun heq ↦ ?_, Or.inl hkept⟩
      rw [heq, hnone] at hkept
      cases hkept
    · exact Or.inr ⟨heq, hlast⟩
  · rcases List.mem_append.mp htask with hkept | hlast
    · obtain ⟨call, hcall, -⟩ := hinv.genuine task hkept
      rw [serialOf_request reqHeader reqData hasHandler hcall] at htag
      refine Or.inl ⟨fun heq ↦ ?_, Or.inr ⟨htag, task, hkept, rfl⟩⟩
      rw [heq] at htag
      exact hfresh task hkept htag
    · rw [List.mem_singleton.mp hlast] at htag ⊢
      rw [serialOf_request_self] at htag
      exact Or.inr ⟨(Option.some.inj htag).symm, rfl⟩

/-- A new call with a serial that is not in flight. -/
theorem Invariant.request (hinv : ends.Invariant config) (reqHeader : LymsgHeader) (reqData : Bytes)
    (hasHandler : Bool) (hnone : ends.msgHandlers reqHeader.serial = none)
    (hfresh : ∀ task ∈ ends.tasks, ends.serialOf task.tag ≠ some reqHeader.serial) :
    (ends.request config reqHeader reqData hasHandler).Invariant config := by
  have hcalls : ∀ {tag : Tag} {call : RequestCall}, ends.calls[tag]? = some call →
      (ends.request config reqHeader reqData hasHandler).calls[tag]? = some call :=
    fun hcall ↦ getElem?_concat_of_some hcall _
  have hnew : (ends.request config reqHeader reqData hasHandler).calls[ends.calls.length]? =
      some ⟨{ reqHeader with origin := config.localOrigin }, reqData, hasHandler⟩ :=
    List.getElem?_concat_length
  have houtstanding : ∀ {serial tag},
      (ends.request config reqHeader reqData hasHandler).Outstanding serial tag →
        serial ≠ reqHeader.serial ∧ ends.Outstanding serial tag ∨
          serial = reqHeader.serial ∧ tag = ends.calls.length :=
    fun hnext ↦ hinv.outstanding_request_cases hnone hfresh hnext
  refine ⟨?_, ?_, ?_, hinv.once, ?_⟩
  · intro task htask
    rcases List.mem_append.mp htask with hkept | hlast
    · obtain ⟨call, hcall, hplace⟩ := hinv.genuine task hkept
      exact ⟨call, hcalls hcall, hplace⟩
    · rw [List.mem_singleton.mp hlast]
      exact ⟨_, hnew, rfl⟩
  · intro serial tag hhandler
    rcases msgHandlers_request_cases hnone hhandler with hkept | ⟨hhas, rfl, rfl⟩
    · obtain ⟨call, hcall, hrest⟩ := hinv.registered serial tag hkept
      exact ⟨call, hcalls hcall, hrest⟩
    · refine ⟨_, hnew, rfl, hhas, fun hinvoked ↦ ?_⟩
      obtain ⟨invocation, hmem, htag⟩ := List.mem_map.mp hinvoked
      obtain ⟨call, hcall, -⟩ := hinv.answers invocation hmem
      have hlt := lt_length_of_getElem? hcall
      rw [htag] at hlt
      exact absurd hlt (lt_irrefl _)
  · intro serial tag other htag hother
    rcases houtstanding htag with ⟨hne, htag⟩ | ⟨heq, rfl⟩
    · rcases houtstanding hother with ⟨-, hother⟩ | ⟨heq, -⟩
      · exact hinv.distinct serial tag other htag hother
      · exact absurd heq hne
    · rcases houtstanding hother with ⟨hne, -⟩ | ⟨-, rfl⟩
      · exact absurd heq hne
      · rfl
  · intro invocation hmem
    obtain ⟨call, hcall, hrest⟩ := hinv.answers invocation hmem
    exact ⟨call, hcalls hcall, hrest⟩

variable [DecidableEq Conn]

/-- Every step keeps the invariant, a call of `request` with a serial that is not in flight. -/
theorem step_invariant {action : ExchangeAction Conn} {next : Exchange Conn UserHandler}
    (hinv : ends.Invariant config) (hfresh : ends.FreshSerial action)
    (hstep : ends.step config action = some next) : next.Invariant config := by
  cases action with
  | request reqHeader reqData hasHandler =>
    obtain ⟨hnone, htasks⟩ := hfresh reqHeader.serial rfl
    cases hstep
    exact hinv.request reqHeader reqData hasHandler hnone htasks
  | post i conn =>
    simp only [step] at hstep
    split at hstep
    · rename_i tag msg conn htask
      cases hstep
      exact hinv.move htask fun _ hplace ↦ hplace
    · rename_i tag msg htask
      split_ifs at hstep
      · cases hstep
        exact hinv.move htask fun _ _ ↦ trivial
      · cases hstep
        exact hinv.finish htask
    · cases hstep
  | unregister i =>
    simp only [step] at hstep
    split at hstep
    · rename_i tag htask
      obtain ⟨serial, -, rfl⟩ := Option.map_eq_some_iff.mp hstep
      exact (hinv.finish htask).eraseHandler serial
    · cases hstep
  | onRecvMsg i =>
    simp only [step] at hstep
    split at hstep
    · rename_i tag conn msg htask
      split at hstep
      · cases hstep
        exact hinv.finish htask
      · rename_i reqHeader reqData hread
        split at hstep
        · cases hstep
          exact hinv.finish htask
        · cases hstep
          have hmoved :
              (ends.advance i tag [.handling conn reqHeader reqData]).Invariant config := by
            refine hinv.move htask fun call hplace ↦ ?_
            have hmsg : msg = packMsg config.clientOrder call.header call.data := hplace
            rw [hmsg, unpackMsg_packMsg] at hread
            cases hread
            rfl
          exact ⟨hmoved.genuine, hmoved.registered, hmoved.distinct, hmoved.once, hmoved.answers⟩
    · cases hstep
  | savePenddingReq i =>
    simp only [step] at hstep
    split at hstep
    · rename_i tag conn reqHeader reqData htask
      cases hstep
      have hadvanced := hinv.advance htask (.handling conn reqHeader reqData ::
        if ends.tasks.any fun task ↦ task.place.savedAs = some ends.reqIdCreator then []
        else [.pending ends.reqIdCreator conn reqHeader reqData]) fun call hplace next hnext ↦ by
          rcases List.mem_cons.mp hnext with rfl | hsaved
          · exact hplace
          · split_ifs at hsaved
            · cases hsaved
            · rw [List.mem_singleton.mp hsaved]
              exact hplace
      exact ⟨hadvanced.genuine, hadvanced.registered, hadvanced.distinct, hadvanced.once,
        hadvanced.answers⟩
    · cases hstep
  | onRequest i result =>
    simp only [step] at hstep
    split at hstep
    · rename_i tag conn reqHeader reqData htask
      cases result with
      | syncResponse respData =>
        cases hstep
        exact hinv.respond htask conn reqHeader respData fun _ _ hplace ↦ hplace
      | noResponse =>
        cases hstep
        exact hinv.respond htask conn reqHeader [] fun _ _ hplace ↦ hplace
      | asyncResponse =>
        cases hstep
        exact hinv.finish htask
    · cases hstep
  | response reqId respData =>
    simp only [step] at hstep
    split at hstep
    · cases hstep
      exact hinv
    · split at hstep
      · rename_i htask
        cases hstep
        exact hinv.move htask fun _ hplace ↦ hplace
      · cases hstep
  | postMsg i =>
    simp only [step] at hstep
    split at hstep
    · rename_i tag conn reqHeader respData htask
      cases hstep
      exact hinv.respond htask conn reqHeader respData fun _ _ hplace ↦ hplace
    · cases hstep
  | onResponse i =>
    simp only [step] at hstep
    split at hstep
    · rename_i tag conn msg htask
      cases hstep
      rw [onResponse_advance]
      have htasks : (ends.onResponse config msg).tasks[i]? = some ⟨tag, .returning conn msg⟩ := by
        rw [tasks_onResponse, htask]
      exact (hinv.onResponse (List.mem_of_getElem? htask)).finish htasks
    · cases hstep
  | drop i =>
    simp only [step] at hstep
    split at hstep
    · rename_i tag place htask
      split_ifs at hstep
      cases hstep
      exact hinv.finish htask
    · cases hstep

end Steps

/-! ### All runs -/

variable [DecidableEq Conn]

/-- Assumes: a run in which every call of `request` uses a serial that is not in flight. No handler
is called twice; each is called with the response that the server made for its own call, under the
serial passed to it and with the response flag in the type; and a message whose serial has no
handler, from wherever it comes, calls none. -/
theorem request_response_correlation (config : ExchangeConfig UserHandler)
    (actions : List (ExchangeAction Conn)) (final : Exchange Conn UserHandler)
    (hfresh : Along (step config) FreshSerial new actions)
    (hrun : runFrom (step config) new actions = some final) :
    (final.invocations.map Invocation.handler).Nodup ∧
      (∀ invocation ∈ final.invocations, final.Answers config invocation) ∧
      ∀ msg, (∀ respHeader respData,
          unpackMsg config.clientOrder msg = .ok (respHeader, respData) →
            final.msgHandlers respHeader.serial = none) →
        (final.onResponse config msg).invocations = final.invocations := by
  have hinv : final.Invariant config :=
    runFrom_invariant_along (Invariant config)
      (fun _ _ _ hstate hcondition hstep ↦ step_invariant hstate hcondition hstep)
      (invariant_new config) hfresh hrun
  exact ⟨hinv.once, hinv.answers, invocations_onResponse_of_unregistered⟩

/-- Two requests on two connections: the second is answered first. -/
theorem request_response_correlation_overtaken :
    ∃ final, runFrom (step ⟨.little, .little, 3, 7, fun _ ↦ some (), false⟩)
        (new : Exchange (Fin 2) Unit)
        [.request ⟨0, 0, 0x21#32, 1, 0⟩ [1#8] true, .request ⟨0, 0, 0x22#32, 2, 0⟩ [2#8] true,
          .post 0 (some 0), .post 0 (some 1), .onRecvMsg 1, .onRequest 1 (.syncResponse [9#8]),
          .onRecvMsg 0, .onRequest 1 (.syncResponse [8#8]), .onResponse 0, .onResponse 0] =
          some final ∧
      final.invocations.map Invocation.handler = [1, 0] ∧
      ∀ invocation ∈ final.invocations,
        final.Answers ⟨.little, .little, 3, 7, fun _ ↦ some (), false⟩ invocation := by
  have hhandlers : (runFrom (step ⟨.little, .little, 3, 7, fun _ ↦ some (), false⟩)
      (new : Exchange (Fin 2) Unit)
      [.request ⟨0, 0, 0x21#32, 1, 0⟩ [1#8] true, .request ⟨0, 0, 0x22#32, 2, 0⟩ [2#8] true,
        .post 0 (some 0), .post 0 (some 1), .onRecvMsg 1, .onRequest 1 (.syncResponse [9#8]),
        .onRecvMsg 0, .onRequest 1 (.syncResponse [8#8]), .onResponse 0, .onResponse 0]).map
      (fun ends ↦ ends.invocations.map Invocation.handler) = some [1, 0] := by
    decide +kernel
  obtain ⟨final, hrun, hlist⟩ := Option.map_eq_some_iff.mp hhandlers
  refine ⟨final, hrun, hlist, (request_response_correlation _ _ final ?_ hrun).2.1⟩
  refine ⟨?_, fun middle hmiddle ↦ ⟨?_, fun next _ ↦ along_of_forall ?_ next⟩⟩
  · simp [FreshSerial, ExchangeAction.requestedSerial, new, Table.empty]
  · obtain rfl := Option.some.inj hmiddle
    simp [FreshSerial, ExchangeAction.requestedSerial, request, serialOf, new, Table.insertNew,
      Table.empty]
  · simp [FreshSerial, ExchangeAction.requestedSerial]

end Exchange

end TszyUlt.Lygc
