import Mathlib.Data.List.TakeWhile
import TszyUlt.Lib.Table
import TszyUlt.Lib.Transition
import TszyUlt.Lygc.LymsgProtocol
import TszyUlt.Zbf.HaClients

/-!
# The table of response handlers

`lygc/net_server.hpp`: `NetClient::request` and `NetClient::onResponse`. `request` inserts the
handler under the serial of the header, posts the message, and erases the entry of the serial again
when the post failed. The insertion leaves an entry alone that is there already, and the erasure
does not ask whose entry it removes.

`NetClient` is the table with the clients that a post goes to and the threads that are in a call of
`request`. Each section under a lock is a step: the registration, `getClient`, the post to the
client and the removal. `request` is the call that no other thread interrupts (`runFrom_request`).
`request_handlers_iff` says when a call does as it should: a call with a handler needs a serial
without an entry, and an entry stays until its response arrives exactly as long as no other call
under the serial is taken back. `not_request_handlers_shared` is a call that fails and takes the
handler of an earlier call with it.

Scope. What arrives is an input. The log texts and the calls of the handlers are not modelled.
-/

set_option autoImplicit false
set_option relaxedAutoImplicit false

namespace TszyUlt.Lygc

open Lib Zbf

/-! ### The client -/

/-- Where a thread stands in `request`. -/
inductive InRequest (Handler : Type*)
  /-- Not in `request`. -/
  | idle
  /-- The handler is registered; `getClient` is next. -/
  | registered (serial : BitVec 64) (msg : TcpMessage) (handler : Option Handler)
  /-- The client to post to is known. -/
  | selected (i : ℕ) (serial : BitVec 64) (msg : TcpMessage) (handler : Option Handler)
  /-- The post failed; the entry of the serial is to be erased. -/
  | unregistering (serial : BitVec 64)

/-- `NetClient`: the handlers, the clients it posts to, and the threads that use it. -/
structure NetClient (Handler Thread : Type*) where
  localOrigin : BitVec 16
  msgHandlers : Table (BitVec 64) Handler
  ha : HaClients
  threads : Thread → InRequest Handler

/-- The steps of a `NetClient`. -/
inductive NetClientAction (Handler Thread : Type*)
  /-- A thread calls `request`, up to the registration of the handler. -/
  | request (thread : Thread) (reqHeader : Option LymsgHeader) (reqData : Bytes)
    (handler : Option Handler)
  | getClient (thread : Thread)
  | post (thread : Thread)
  | unregister (thread : Thread)
  /-- A message arrives on a connection. -/
  | onResponse (msg : TcpMessage)
  | addConnect (client : AsyncClient)
  /-- The other threads use a client. -/
  | client (i : ℕ) (action : ClientAction)

/-- A response with the serial arrives. -/
def NetClientAction.answers {Handler Thread : Type*} (order : ByteOrder) (serial : BitVec 64) :
    NetClientAction Handler Thread → Bool
  | .onResponse msg =>
    match unpackMsg order msg with
    | .error _ => false
    | .ok (respHeader, _) => respHeader.serial = serial
  | _ => false

namespace NetClient

variable {Handler Thread : Type*}

/-- The insertion of `request`. A null handler is not inserted. -/
def register (client : NetClient Handler Thread) (serial : BitVec 64) :
    Option Handler → NetClient Handler Thread
  | none => client
  | some handler => { client with msgHandlers := client.msgHandlers.insertNew serial handler }

/-- The end of `request`: after a failed post the entry of the serial is erased. -/
def unregister (client : NetClient Handler Thread) (rc : ℤ) (serial : BitVec 64) :
    Option Handler → NetClient Handler Thread
  | none => client
  | some _ =>
    if rc ≠ postSuccess then { client with msgHandlers := client.msgHandlers.erase serial }
    else client

/-- The message of a request, with the origin of the client. -/
def requestMsg (order : ByteOrder) (client : NetClient Handler Thread) (reqHeader : LymsgHeader)
    (reqData : Bytes) : TcpMessage :=
  packMsg order { reqHeader with origin := client.localOrigin } reqData

/-- `NetClient::request` without interruption: the value returned and the client afterwards. -/
def request (order : ByteOrder) (client : NetClient Handler Thread)
    (reqHeader : Option LymsgHeader) (reqData : Bytes) (handler : Option Handler) :
    ℤ × NetClient Handler Thread :=
  match reqHeader with
  | none => (-1, client)
  | some reqHeader =>
    let registered := client.register reqHeader.serial handler
    let posted := registered.ha.post (client.requestMsg order reqHeader reqData)
    (posted.1, { registered with ha := posted.2 }.unregister posted.1 reqHeader.serial handler)

/-- `NetClient::onResponse`: the handler of the serial is taken out. -/
def onResponse (order : ByteOrder) (client : NetClient Handler Thread) (msg : TcpMessage) :
    NetClient Handler Thread :=
  match unpackMsg order msg with
  | .error _ => client
  | .ok (respHeader, _) =>
    { client with msgHandlers := client.msgHandlers.erase respHeader.serial }

variable [DecidableEq Thread]

/-- A thread goes on. -/
def setThread (client : NetClient Handler Thread) (thread : Thread) (at' : InRequest Handler) :
    NetClient Handler Thread :=
  { client with threads := Function.update client.threads thread at' }

/-- Where `request` goes on after the post: a failure with a handler is undone. -/
def afterPost (rc : ℤ) (serial : BitVec 64) : Option Handler → InRequest Handler
  | none => .idle
  | some _ => if rc ≠ postSuccess then .unregistering serial else .idle

variable (order : ByteOrder) (alloc : Allocator) (protocol : TcpMessageProtocol) (fuel : ℕ)

/-- One step of a `NetClient`. -/
def step (client : NetClient Handler Thread) :
    NetClientAction Handler Thread → Option (NetClient Handler Thread)
  | .request thread reqHeader reqData handler =>
    match client.threads thread, reqHeader with
    | .idle, none => some client
    | .idle, some reqHeader =>
      some ((client.register reqHeader.serial handler).setThread thread
        (.registered reqHeader.serial (client.requestMsg order reqHeader reqData) handler))
    | _, _ => none
  | .getClient thread =>
    match client.threads thread with
    | .registered serial msg handler =>
      let searched := { client with ha := client.ha.getClient.1 }
      match client.ha.getClient.2 with
      | none => some (searched.setThread thread (afterPost postFail serial handler))
      | some i => some (searched.setThread thread (.selected i serial msg handler))
    | _ => none
  | .post thread =>
    match client.threads thread with
    | .selected i serial msg handler =>
      let posted := client.ha.postTo i msg
      some ({ client with ha := posted.2 }.setThread thread (afterPost posted.1 serial handler))
    | _ => none
  | .unregister thread =>
    match client.threads thread with
    | .unregistering serial =>
      some { client.setThread thread .idle with msgHandlers := client.msgHandlers.erase serial }
    | _ => none
  | .onResponse msg => some (client.onResponse order msg)
  | .addConnect asyncClient => some { client with ha := client.ha.addConnect asyncClient }
  | .client i action =>
    (client.ha.clients[i]?).bind fun asyncClient ↦
      (asyncClient.step alloc protocol fuel action).map fun next ↦
        { client with ha := client.ha.setClient i next }

/-! ### A call without interruption -/

section Uninterrupted

variable {client : NetClient Handler Thread}

omit [DecidableEq Thread] in
@[simp] theorem register_ha (client : NetClient Handler Thread) (serial : BitVec 64)
    (handler : Option Handler) : (client.register serial handler).ha = client.ha := by
  cases handler <;> rfl

omit [DecidableEq Thread] in
@[simp] theorem register_threads (client : NetClient Handler Thread) (serial : BitVec 64)
    (handler : Option Handler) : (client.register serial handler).threads = client.threads := by
  cases handler <;> rfl

omit [DecidableEq Thread] in
@[simp] theorem unregister_threads (client : NetClient Handler Thread) (rc : ℤ)
    (serial : BitVec 64) (handler : Option Handler) :
    (client.unregister rc serial handler).threads = client.threads := by
  unfold unregister
  split
  · rfl
  · split_ifs <;> rfl

@[simp] theorem setThread_setThread (client : NetClient Handler Thread) (thread : Thread)
    (at' later : InRequest Handler) :
    (client.setThread thread at').setThread thread later = client.setThread thread later := by
  rw [setThread, setThread, setThread, Function.update_idem]

theorem setThread_idle {thread : Thread} (hidle : client.threads thread = .idle) :
    client.setThread thread .idle = client := by
  rw [setThread, ← hidle, Function.update_eq_self]

/-- A thread that has posted ends its call as `request` does. -/
theorem runFrom_afterPost (client : NetClient Handler Thread) (thread : Thread) (rc : ℤ)
    (serial : BitVec 64) (handler : Option Handler) :
    ∃ rest, (∀ action ∈ rest, action = .unregister thread) ∧
      runFrom (step order alloc protocol fuel)
          (client.setThread thread (afterPost rc serial handler)) rest =
        some ((client.unregister rc serial handler).setThread thread .idle) := by
  cases handler with
  | none => exact ⟨[], fun _ haction ↦ (nomatch haction), rfl⟩
  | some handler =>
    by_cases hrc : rc ≠ postSuccess
    · refine ⟨[.unregister thread], fun action haction ↦ List.mem_singleton.mp haction, ?_⟩
      simp [runFrom, step, setThread, afterPost, unregister, hrc]
    · exact ⟨[], fun _ haction ↦ (nomatch haction), by simp [afterPost, unregister, hrc]⟩

section Sections

variable {thread : Thread} (hidle : client.threads thread = .idle) (reqHeader : LymsgHeader)
  (reqData : Bytes) (handler : Option Handler)

include hidle

/-- The first section of a call registers the handler. -/
theorem step_request : step order alloc protocol fuel client
    (.request thread (some reqHeader) reqData handler) =
      some ((client.register reqHeader.serial handler).setThread thread
        (.registered reqHeader.serial (client.requestMsg order reqHeader reqData) handler)) := by
  simp only [step, hidle]

/-- Where no client is found, the thread goes on as `request` does. -/
theorem runFrom_unselected (hfound : client.ha.getClient.2 = none) :
    ∃ rest, (∀ action ∈ rest, action = .unregister thread) ∧
      runFrom (step order alloc protocol fuel)
          ((client.register reqHeader.serial handler).setThread thread
            (.registered reqHeader.serial (client.requestMsg order reqHeader reqData) handler))
          (.getClient thread :: rest) =
        some (client.request order (some reqHeader) reqData handler).2 := by
  let registered := client.register reqHeader.serial handler
  let msg := client.requestMsg order reqHeader reqData
  let searched := { registered with ha := client.ha.getClient.1 }
  have hha : registered.ha = client.ha := client.register_ha reqHeader.serial handler
  have hthread : searched.threads thread = .idle :=
    (congrFun (register_threads client reqHeader.serial handler) thread).trans hidle
  obtain ⟨rest, hrest, hrun⟩ := runFrom_afterPost order alloc protocol fuel searched thread
    postFail reqHeader.serial handler
  have hsearch : step order alloc protocol fuel
      (registered.setThread thread (.registered reqHeader.serial msg handler))
      (.getClient thread) =
        some (searched.setThread thread (afterPost postFail reqHeader.serial handler)) := by
    simp [step, setThread, hha, hfound, searched]
  have hcall : client.request order (some reqHeader) reqData handler =
      (postFail, searched.unregister postFail reqHeader.serial handler) := by
    simp [request, HaClients.post, hfound, searched, registered]
  refine ⟨rest, hrest, ?_⟩
  rw [runFrom_cons_of_step hsearch, hrun, hcall,
    setThread_idle (by rw [unregister_threads]; exact hthread)]

/-- Where a client is found, the thread posts to it and goes on as `request` does. -/
theorem runFrom_selected {i : ℕ} (hfound : client.ha.getClient.2 = some i) :
    ∃ rest, (∀ action ∈ rest, action = .unregister thread) ∧
      runFrom (step order alloc protocol fuel)
          ((client.register reqHeader.serial handler).setThread thread
            (.registered reqHeader.serial (client.requestMsg order reqHeader reqData) handler))
          (.getClient thread :: .post thread :: rest) =
        some (client.request order (some reqHeader) reqData handler).2 := by
  let registered := client.register reqHeader.serial handler
  let msg := client.requestMsg order reqHeader reqData
  let searched := { registered with ha := client.ha.getClient.1 }
  let posted := client.ha.getClient.1.postTo i msg
  have hha : registered.ha = client.ha := client.register_ha reqHeader.serial handler
  have hthread : searched.threads thread = .idle :=
    (congrFun (register_threads client reqHeader.serial handler) thread).trans hidle
  obtain ⟨rest, hrest, hrun⟩ := runFrom_afterPost order alloc protocol fuel
    { registered with ha := posted.2 } thread posted.1 reqHeader.serial handler
  have hsearch : step order alloc protocol fuel
      (registered.setThread thread (.registered reqHeader.serial msg handler))
      (.getClient thread) =
        some (searched.setThread thread (.selected i reqHeader.serial msg handler)) := by
    simp [step, setThread, hha, hfound, searched]
  have hpost : step order alloc protocol fuel
      (searched.setThread thread (.selected i reqHeader.serial msg handler)) (.post thread) =
        some ({ registered with ha := posted.2 }.setThread thread
          (afterPost posted.1 reqHeader.serial handler)) := by
    simp [step, setThread, searched, posted]
  have hcall : client.request order (some reqHeader) reqData handler =
      (posted.1,
        { registered with ha := posted.2 }.unregister posted.1 reqHeader.serial handler) := by
    simp [request, HaClients.post, hfound, posted, registered, msg]
  refine ⟨rest, hrest, ?_⟩
  rw [runFrom_cons_of_step hsearch, runFrom_cons_of_step hpost, hrun, hcall,
    setThread_idle (by rw [unregister_threads]; exact hthread)]

end Sections

/-- Assumes: the thread is not in a call. The sections of a call of `request`, one after the other,
come to what `request` says. -/
theorem runFrom_request {thread : Thread} (hidle : client.threads thread = .idle)
    (reqHeader : Option LymsgHeader) (reqData : Bytes) (handler : Option Handler) :
    ∃ rest, (∀ action ∈ rest, action = .getClient thread ∨ action = .post thread ∨
        action = .unregister thread) ∧
      runFrom (step order alloc protocol fuel) client
          (.request thread reqHeader reqData handler :: rest) =
        some (client.request order reqHeader reqData handler).2 := by
  cases reqHeader with
  | none => exact ⟨[], fun _ haction ↦ (nomatch haction), by simp [runFrom, step, hidle, request]⟩
  | some reqHeader =>
    have hregister := step_request order alloc protocol fuel hidle reqHeader reqData handler
    cases hfound : client.ha.getClient.2 with
    | none =>
      obtain ⟨rest, hrest, hrun⟩ :=
        runFrom_unselected order alloc protocol fuel hidle reqHeader reqData handler hfound
      refine ⟨.getClient thread :: rest, ?_, (runFrom_cons_of_step hregister _).trans hrun⟩
      refine List.forall_mem_cons.mpr ⟨Or.inl rfl, fun action haction ↦ ?_⟩
      exact Or.inr (Or.inr (hrest action haction))
    | some i =>
      obtain ⟨rest, hrest, hrun⟩ :=
        runFrom_selected order alloc protocol fuel hidle reqHeader reqData handler hfound
      refine ⟨.getClient thread :: .post thread :: rest, ?_,
        (runFrom_cons_of_step hregister _).trans hrun⟩
      refine List.forall_mem_cons.mpr ⟨Or.inl rfl, List.forall_mem_cons.mpr ⟨?_, ?_⟩⟩
      · exact Or.inr (Or.inl rfl)
      · exact fun action haction ↦ Or.inr (Or.inr (hrest action haction))

omit [DecidableEq Thread] in
/-- A call with a header succeeds if the client whose turn it is has room. -/
theorem request_rc (reqHeader : LymsgHeader) (reqData : Bytes) (handler : Option Handler) :
    (client.request order (some reqHeader) reqData handler).1 =
      if client.ha.acceptsPost then postSuccess else postFail := by
  rw [request]
  dsimp only
  rw [HaClients.post_rc, register_ha]

omit [DecidableEq Thread] in
theorem msgHandlers_request (reqHeader : LymsgHeader) (reqData : Bytes) (handler : Handler) :
    (client.request order (some reqHeader) reqData (some handler)).2.msgHandlers =
      if client.ha.acceptsPost then client.msgHandlers.insertNew reqHeader.serial handler
      else client.msgHandlers.erase reqHeader.serial := by
  have hrc := client.request_rc order reqHeader reqData (some handler)
  rw [request] at hrc ⊢
  dsimp only at hrc ⊢
  rw [unregister, hrc]
  by_cases haccepts : client.ha.acceptsPost = true
  · simp only [if_pos haccepts, ne_eq, not_true_eq_false, if_false]
    rfl
  · simp only [if_neg haccepts]
    exact client.msgHandlers.erase_insertNew reqHeader.serial handler

end Uninterrupted

/-! ### What keeps an entry -/

/-- The step erases the entry of the serial after a failed post. -/
def takesBack (client : NetClient Handler Thread) (serial : BitVec 64) :
    NetClientAction Handler Thread → Bool
  | .unregister thread =>
    match client.threads thread with
    | .unregistering other => other = serial
    | _ => false
  | _ => false

section Entries

variable {order alloc protocol fuel} {client next : NetClient Handler Thread} {serial : BitVec 64}
  {handler : Handler} {action : NetClientAction Handler Thread}

omit [DecidableEq Thread] in
theorem entry_register (hentry : client.msgHandlers serial = some handler) (other : BitVec 64)
    (handler' : Option Handler) :
    (client.register other handler').msgHandlers serial = some handler := by
  cases handler' with
  | none => exact hentry
  | some handler' => exact Table.insertNew_of_some hentry other handler'

omit [DecidableEq Thread] in
theorem entry_onResponse (hentry : client.msgHandlers serial = some handler) {msg : TcpMessage}
    (hanswers : (NetClientAction.onResponse msg : NetClientAction Handler Thread).answers order
      serial = false) :
    (client.onResponse order msg).msgHandlers serial = some handler := by
  simp only [NetClientAction.answers] at hanswers
  unfold onResponse
  cases hunpack : unpackMsg order msg with
  | error => exact hentry
  | ok unpacked =>
    rw [hunpack] at hanswers
    have hne : serial ≠ unpacked.1.serial := fun heq ↦ of_decide_eq_false hanswers heq.symm
    exact (Table.erase_of_ne client.msgHandlers hne).trans hentry

/-- An entry stays unless it is taken back or its response arrives. -/
theorem entry_of_step (hentry : client.msgHandlers serial = some handler)
    (hback : client.takesBack serial action = false)
    (hanswers : action.answers order serial = false)
    (hstep : client.step order alloc protocol fuel action = some next) :
    next.msgHandlers serial = some handler := by
  cases action with
  | request thread reqHeader reqData handler' =>
    simp only [step] at hstep
    split at hstep
    case h_1 =>
      cases hstep
      exact hentry
    case h_2 =>
      cases hstep
      exact entry_register hentry _ handler'
    case h_3 => cases hstep
  | getClient thread =>
    simp only [step] at hstep
    split at hstep
    case h_1 =>
      split at hstep <;>
        · cases hstep
          exact hentry
    case h_2 => cases hstep
  | post thread =>
    simp only [step] at hstep
    split at hstep
    case h_1 =>
      cases hstep
      exact hentry
    case h_2 => cases hstep
  | unregister thread =>
    simp only [step] at hstep
    split at hstep
    case h_1 other hthread =>
      cases hstep
      rw [takesBack, hthread] at hback
      have hne : serial ≠ other := fun heq ↦ of_decide_eq_false hback heq.symm
      exact (Table.erase_of_ne client.msgHandlers hne).trans hentry
    case h_2 => cases hstep
  | onResponse msg =>
    cases hstep
    exact entry_onResponse hentry hanswers
  | addConnect asyncClient =>
    cases hstep
    exact hentry
  | client i action =>
    obtain ⟨asyncClient, _, hstep⟩ := Option.bind_eq_some_iff.mp hstep
    obtain ⟨asyncNext, _, rfl⟩ := Option.map_eq_some_iff.mp hstep
    exact hentry

/-- A step that takes the entry back leaves none. -/
theorem step_of_takesBack (hback : client.takesBack serial action = true) :
    ∃ next, client.step order alloc protocol fuel action = some next ∧
      next.msgHandlers serial = none := by
  cases action with
  | unregister thread =>
    simp only [takesBack] at hback
    split at hback
    case h_1 other hthread =>
      obtain rfl : other = serial := of_decide_eq_true hback
      refine ⟨{ client.setThread thread .idle with
        msgHandlers := client.msgHandlers.erase other }, by simp only [step, hthread], ?_⟩
      exact Table.erase_self client.msgHandlers other
    case h_2 => cases hback
  | request | getClient | post | onResponse | addConnect | client => cases hback

end Entries

/-! ### The contract of a call -/

variable (reqHeader : Option LymsgHeader) (reqData : Bytes) (handler : Option Handler)
  (later : List (NetClientAction Handler Thread))

/-- The steps after a call until a response with its serial arrives. -/
def unanswered (serial : BitVec 64) : List (NetClientAction Handler Thread) :=
  later.takeWhile fun action ↦ !action.answers order serial

/-- What is asked of a call and of the time after it: a call that fails leaves every entry of the
table as it was, and after a call that succeeds with a handler the serial has this handler until a
response with the serial arrives. -/
def HandlersKept (client : NetClient Handler Thread) : Prop :=
  let result := client.request order reqHeader reqData handler
  (result.1 ≠ postSuccess → result.2.msgHandlers = client.msgHandlers) ∧
  (result.1 = postSuccess → ∀ header own, reqHeader = some header → handler = some own →
    ∀ first, first <+: unanswered order later header.serial → ∀ final,
      runFrom (step order alloc protocol fuel) result.2 first = some final →
        final.msgHandlers header.serial = some own)

/-- What a call with a handler needs: where the post is refused, the serial has no entry before the
call; where it is accepted, the serial has no entry or the same handler, and until its response
arrives no entry of the serial is taken back. -/
def SerialOwned (client : NetClient Handler Thread) : Prop :=
  ∀ header own, reqHeader = some header → handler = some own →
    if client.ha.acceptsPost then
      (client.msgHandlers header.serial = none ∨ client.msgHandlers header.serial = some own) ∧
        Along (step order alloc protocol fuel)
          (fun client action ↦ client.takesBack header.serial action = false)
          (client.request order reqHeader reqData handler).2
          (unanswered order later header.serial)
    else client.msgHandlers header.serial = none

/-- After a call that is accepted, its handler stays until its response arrives if and only if the
serial had no other and it is not taken back. -/
theorem own_kept_iff (client : NetClient Handler Thread) (header : LymsgHeader) (own : Handler)
    (haccepts : client.ha.acceptsPost = true) :
    (∀ first, first <+: unanswered order later header.serial → ∀ final,
      runFrom (step order alloc protocol fuel)
        (client.request order (some header) reqData (some own)).2 first = some final →
          final.msgHandlers header.serial = some own) ↔
    (client.msgHandlers header.serial = none ∨ client.msgHandlers header.serial = some own) ∧
      Along (step order alloc protocol fuel)
        (fun client action ↦ client.takesBack header.serial action = false)
        (client.request order (some header) reqData (some own)).2
        (unanswered order later header.serial) := by
  have htable : (client.request order (some header) reqData (some own)).2.msgHandlers =
      client.msgHandlers.insertNew header.serial own := by
    rw [msgHandlers_request, if_pos haccepts]
  have hanswers : ∀ action ∈ unanswered order later header.serial,
      action.answers order header.serial = false := by
    intro action haction
    have hnot := List.mem_takeWhile_imp haction
    exact (Bool.not_eq_true' _).mp hnot
  by_cases hown : client.msgHandlers header.serial = none ∨
      client.msgHandlers header.serial = some own
  · rw [and_iff_right hown]
    refine forall_prefix_iff_along
      (fun state : NetClient Handler Thread ↦ state.msgHandlers header.serial = some own)
      (fun state action haction next hentry hback hstep ↦
        entry_of_step hentry hback (hanswers action haction) hstep) ?_ ?_
    · intro state action _ _ hback
      obtain ⟨next, hnext, hnone⟩ := step_of_takesBack (eq_true_of_ne_false hback)
      exact ⟨next, hnext, by rw [hnone]; exact nofun⟩
    · rw [htable]
      exact Table.insertNew_self_eq_some_iff.mpr hown
  · refine iff_of_false (fun hall ↦ hown ?_) (fun hboth ↦ hown hboth.1)
    have hafter := hall [] List.nil_prefix _ rfl
    rw [htable] at hafter
    exact Table.insertNew_self_eq_some_iff.mp hafter

omit [DecidableEq Thread] in
/-- A call that fails with a handler leaves the table as it was if and only if the serial had no
entry. -/
theorem msgHandlers_refused_iff (client : NetClient Handler Thread) (header : LymsgHeader)
    (own : Handler) (hrefused : client.ha.acceptsPost = false) :
    (client.request order (some header) reqData (some own)).2.msgHandlers = client.msgHandlers ↔
      client.msgHandlers header.serial = none := by
  rw [msgHandlers_request, if_neg (by rw [hrefused]; decide)]
  exact Table.erase_eq_self_iff

/-- A call with a handler does as it should if and only if it owns its serial. -/
theorem handlersKept_iff_of_handler (client : NetClient Handler Thread) (header : LymsgHeader)
    (own : Handler) :
    client.HandlersKept order alloc protocol fuel (some header) reqData (some own) later ↔
      client.SerialOwned order alloc protocol fuel (some header) reqData (some own) later := by
  have hrc := client.request_rc order header reqData (some own)
  cases haccepts : client.ha.acceptsPost with
  | true =>
    rw [haccepts, if_pos rfl] at hrc
    have hkept := own_kept_iff order alloc protocol fuel reqData later client header own haccepts
    constructor
    · rintro ⟨-, hall⟩ _ _ ⟨⟩ ⟨⟩
      rw [if_pos haccepts]
      exact hkept.mp (hall hrc header own rfl rfl)
    · intro howned
      have hboth := howned header own rfl rfl
      rw [if_pos haccepts] at hboth
      refine ⟨fun hfail ↦ absurd hrc hfail, fun _ ↦ ?_⟩
      rintro _ _ ⟨⟩ ⟨⟩
      exact hkept.mpr hboth
  | false =>
    have hrefused : ¬client.ha.acceptsPost = true := ne_true_of_eq_false haccepts
    rw [if_neg hrefused] at hrc
    have htable := msgHandlers_refused_iff order reqData client header own haccepts
    constructor
    · rintro ⟨hall, -⟩ _ _ ⟨⟩ ⟨⟩
      rw [if_neg hrefused]
      exact htable.mp (hall (by rw [hrc]; decide))
    · intro howned
      have hnone := howned header own rfl rfl
      rw [if_neg hrefused] at hnone
      refine ⟨fun _ ↦ htable.mpr hnone, fun hsuccess ↦ ?_⟩
      exact absurd (hrc.symm.trans hsuccess) (by decide)

/-- Assumes: the serial of the call has no entry or the same handler, and in the run that the call
begins its entry is not taken back and its response does not arrive. The serial has this handler at
the end. -/
theorem own_of_interleaved {client final : NetClient Handler Thread} {thread : Thread}
    {header : LymsgHeader} {own : Handler}
    (hown : client.msgHandlers header.serial = none ∨ client.msgHandlers header.serial = some own)
    (hidle : client.threads thread = .idle)
    (hanswers : ∀ action ∈ later, action.answers order header.serial = false)
    (halong : Along (step order alloc protocol fuel)
      (fun client action ↦ client.takesBack header.serial action = false) client
      (.request thread (some header) reqData (some own) :: later))
    (hrun : runFrom (step order alloc protocol fuel) client
      (.request thread (some header) reqData (some own) :: later) = some final) :
    final.msgHandlers header.serial = some own := by
  have hregister := step_request order alloc protocol fuel hidle header reqData (some own)
  rw [runFrom_cons_of_step hregister] at hrun
  rw [along_cons_of_step hregister] at halong
  have hboth := halong.2.and (along_of_forall (fun _ action haction ↦ hanswers action haction) _)
  refine runFrom_invariant_along
    (fun state : NetClient Handler Thread ↦ state.msgHandlers header.serial = some own)
    (fun state action next hentry hcondition hstep ↦
      entry_of_step hentry hcondition.1 hcondition.2 hstep) ?_ hboth hrun
  exact Table.insertNew_self_eq_some_iff.mpr hown

/-- A call of `request` leaves the table as it was when it fails, and keeps its handler in the table
when it succeeds until a response with the serial arrives, if and only if it has no handler, or the
serial had no entry before it, or, where the post is accepted, the same handler, and no entry of
the serial is taken back in the meantime. Where other threads come in between the sections of the
call, this is still enough for the entry. -/
theorem request_handlers_iff (client : NetClient Handler Thread) :
    (client.HandlersKept order alloc protocol fuel reqHeader reqData handler later ↔
      client.SerialOwned order alloc protocol fuel reqHeader reqData handler later) ∧
    ∀ thread header own final, reqHeader = some header → handler = some own →
      (client.msgHandlers header.serial = none ∨ client.msgHandlers header.serial = some own) →
      client.threads thread = .idle →
      (∀ action ∈ later, action.answers order header.serial = false) →
      Along (step order alloc protocol fuel)
        (fun client action ↦ client.takesBack header.serial action = false) client
        (.request thread reqHeader reqData handler :: later) →
      runFrom (step order alloc protocol fuel) client
        (.request thread reqHeader reqData handler :: later) = some final →
      final.msgHandlers header.serial = some own := by
  constructor
  · cases reqHeader with
    | none =>
      refine iff_of_true ⟨fun _ ↦ rfl, fun _ _ _ hheader ↦ nomatch hheader⟩ ?_
      exact fun _ _ hheader ↦ nomatch hheader
    | some header =>
      cases handler with
      | none =>
        refine iff_of_true ⟨fun _ ↦ rfl, fun _ _ _ _ hown ↦ nomatch hown⟩ ?_
        exact fun _ _ _ hown ↦ nomatch hown
      | some own =>
        exact handlersKept_iff_of_handler order alloc protocol fuel reqData later client header own
  · rintro thread header own final rfl rfl hown hidle hanswers halong hrun
    exact own_of_interleaved order alloc protocol fuel reqData later hown hidle hanswers halong hrun

/-- A client with the handler 0 for serial 7, and no connection. -/
def unconnected : NetClient ℕ Unit where
  localOrigin := 5
  msgHandlers := Function.update Table.empty 7 (some 0)
  ha := .new
  threads := fun _ ↦ .idle

/-- The header of a request with a serial. -/
def headerOf (serial : BitVec 64) : LymsgHeader := ⟨0, 0, 3, serial, 0⟩

/-- A call under another serial fails and leaves the table as it was. -/
theorem request_handlers_iff_unconnected :
    (unconnected.request .little (some (headerOf 8)) [] (some 1)).2.msgHandlers =
      unconnected.msgHandlers := by
  have hkept := (request_handlers_iff .little .zeroing (lymsgProtocol .little) 0
    (some (headerOf 8)) [] (some 1) [] unconnected).1.mpr (by
      rintro header own ⟨⟩ ⟨⟩
      decide)
  exact hkept.1 (by decide)

/-- A call under serial 7 fails and takes the handler 0 with it. -/
theorem not_request_handlers_shared :
    ¬∀ (client : NetClient ℕ Unit) (reqHeader : Option LymsgHeader) (reqData : Bytes)
      (handler : Option ℕ) (later : List (NetClientAction ℕ Unit)),
      client.HandlersKept .little .zeroing (lymsgProtocol .little) 0 reqHeader reqData handler
        later := by
  intro hall
  have hsame := (hall unconnected (some (headerOf 7)) [] (some 1) []).1 (by decide)
  have hentry := congrFun hsame 7
  exact absurd hentry (by decide)

end NetClient

end TszyUlt.Lygc
