import TszyUlt.Lib.Handles
import TszyUlt.Wjp.RedisCommand

/-!
# The handles of the Redis client

The functions of `redis_client` in `wjp/redis_client.hpp` as the library behind them sees them: the
context that `redisConnectWithTimeout` makes and the replies of commands. What a context or a reply
says when it is read is the library's own choice, and so is every null pointer. The client keeps its
context from one call to the next, replaces it when it connects again, and closes it on an error.

`redis_clients_safe` is about any number of clients that live at the same time, each opened, used
for any calls and deleted: in no interleaving is a null pointer, a freed reply or a context that was
closed passed to the library, or a context closed before its replies; and after the last client
nothing is left open.

Scope. A reply must be freed before the context of its command. `_connState`, `err` and `errmsg` are
not handles. A client is used by one thread at a time.
-/

set_option autoImplicit false
set_option relaxedAutoImplicit false

namespace TszyUlt.Wjp.RedisHandles

open Lib Lib.HandleProg Zbf

variable {H : Type}

/-! ### Connection -/

/-- `close`: `_context` after it. -/
def close (context : Option H) : HandleProg H (Option H) := do
  freeSome context
  pure none

/-- `!reply || reply->type == REDIS_REPLY_ERROR || _context->err` -/
def authFails (context : H) : Option H → HandleProg H Bool
  | none => pure true
  | some reply => do
    let type ← call reply
    if type = redisReplyError.toInt then pure true
    else do
      let err ← call context
      pure (err ≠ 0)

/-- A reply is read unless it is a null pointer. -/
def touchSome : Option H → HandleProg H Unit
  | none => pure ()
  | some reply => touch reply

/-- The command `AUTH` of `connect`. -/
def authenticate (context : H) : HandleProg H (ℤ × Option H) := do
  let reply ← tryMake context
  let failed ← authFails context reply
  if failed then do
    touch context
    touchSome reply
    freeSome reply
    let context ← close (some context)
    pure (-4, context)
  else do
    let reply ← deref reply
    free reply
    pure (0, some context)

/-- `connect` on the context that `redisConnectWithTimeout` returned. -/
def setUp (authEmpty : Bool) : Option H → HandleProg H (ℤ × Option H)
  | none => pure (-1, none)
  | some context => do
    let err ← call context
    if err ≠ 0 then do
      touch context
      let context ← close (some context)
      pure (-2, context)
    else do
      let rc ← call context
      if rc = -1 then do
        touch context
        let context ← close (some context)
        pure (-3, context)
      else if authEmpty then pure (0, some context)
      else authenticate context

/-- `connect`: its code, and `_context` after it. -/
def connect (authEmpty : Bool) (context : Option H) : HandleProg H (ℤ × Option H) := do
  let _ ← close context
  let made ← tryAcquire none
  setUp authEmpty made

/-! ### Commands -/

/-- `execCommand` before the first attempt: a client without a context connects. -/
def ensureContext (authEmpty : Bool) : Option H → HandleProg H (ℤ × Option H)
  | none => connect authEmpty none
  | some context => pure (0, some context)

/-- What `execCommand` does after the first attempt: it connects again and sends the command once
more if there was no reply. -/
def retryOnce (authEmpty : Bool) (context : H) : Option H → HandleProg H (ℤ × Option H × Option H)
  | some reply => pure (0, some context, some reply)
  | none => do
    let (rc, again) ← connect authEmpty (some context)
    if rc ≠ 0 then pure (rc, again, none)
    else do
      let fresh ← deref again
      let reply ← tryMake fresh
      pure (0, again, reply)

/-- What `execCommand` does with the last attempt: the reply that it returns, and `_context`. -/
def finish (context : H) : Option H → HandleProg H (Option H × Option H)
  | none => do
    touch context
    let closed ← close (some context)
    pure (none, closed)
  | some reply => do
    let err ← call context
    if err ≠ 0 then do
      touch context
      free reply
      let closed ← close (some context)
      pure (none, closed)
    else do
      let type ← call reply
      if type = redisReplyError.toInt then do
        touch reply
        free reply
        pure (none, some context)
      else pure (some reply, some context)

/-- `execCommand` after its attempts, with what `retryOnce` left. -/
def afterAttempts : ℤ × Option H × Option H → HandleProg H (Option H × Option H)
  | (rc, context, reply) =>
    if rc ≠ 0 then pure (none, context)
    else do
      let last ← deref context
      finish last reply

/-- `execCommand` with a context. -/
def sendCommand (authEmpty : Bool) (context : H) : HandleProg H (Option H × Option H) := do
  let reply ← tryMake context
  let attempted ← retryOnce authEmpty context reply
  afterAttempts attempted

/-- `execCommand`: the reply that it returns, and `_context`. -/
def execCommand (authEmpty : Bool) (context : Option H) :
    HandleProg H (Option H × Option H) := do
  let (rc, context) ← ensureContext authEmpty context
  if rc ≠ 0 then pure (none, context)
  else do
    let first ← deref context
    sendCommand authEmpty first

/-- `execCommandStat`, `execCommandInt`, `execCommandStr`, `execCommandSA`, `execCommandSM` and
`execCommandSCA`: the reply is read as often as its type and its elements ask for, and freed. -/
def execCommandFor (authEmpty : Bool) (context : Option H) : HandleProg H (Option H) := do
  let (reply, context) ← execCommand authEmpty context
  match reply with
  | none => pure context
  | some reply => do
    let reads ← answer
    times reads.toNat (touch reply)
    free reply
    pure context

/-- `setTimeout`. -/
def setTimeout : Option H → HandleProg H (Option H)
  | none => pure none
  | some context => do
    touch context
    pure (some context)

/-! ### The life of a client -/

/-- A call of a client. -/
inductive ClientCall
  | open
  | setTimeout
  | execCommand

/-- The call is made: `_context` after it. -/
def ClientCall.run (authEmpty : Bool) (context : Option H) : ClientCall → HandleProg H (Option H)
  | .open => do
    let (_, context) ← connect authEmpty context
    pure context
  | .setTimeout => RedisHandles.setTimeout context
  | .execCommand => execCommandFor authEmpty context

/-- The calls of a client, one after another. -/
def runAll (authEmpty : Bool) : List ClientCall → Option H → HandleProg H (Option H)
  | [], context => pure context
  | first :: rest, context => do
    let context ← first.run authEmpty context
    runAll authEmpty rest context

/-- A client in a pool: it is opened, makes its calls if that was successful, and is closed and
deleted, where the destructor closes it once more. -/
def life (client : Bool × List ClientCall) : HandleProg H Unit := do
  let (rc, context) ← connect client.1 none
  let context ← runAll client.1 (if rc = 0 then client.2 else []) context
  let closed ← close context
  let _ ← close closed
  pure ()

/-! ### What a client holds -/

section Holds

variable [DecidableEq H] {context : Option H} {held : Held H}

/-- A client holds its context and nothing else. -/
def linked : Option H → Held H
  | none => []
  | some context => [(context, none)]

/-- What a client holds with a reply that was not freed yet. -/
def answered (context : Option H) : Option H → Held H
  | none => linked context
  | some reply => (reply, context) :: linked context

theorem wp_close {post : Option H → Held H → Prop} (hpost : post none []) :
    wp [] (close context) post (linked context) := by
  cases context with
  | none => exact hpost
  | some c =>
    refine (wp_bind _ _ _ _).mpr ((wp_free _ _).mpr ⟨List.mem_cons_self, ?_, ?_⟩)
    · rintro ⟨entry, hentry, hparent⟩
      obtain rfl := List.mem_singleton.mp hentry
      cases hparent
    · rw [linked, Held.remove_cons_self List.not_mem_nil]
      exact hpost

/-- A reply is made from the context, which is still held. -/
theorem wp_tryMake {c : H} {post : Option H → Held H → Prop} (hnone : post none (linked (some c)))
    (hsome : ∀ reply, reply ≠ c → post (some reply) (answered (some c) (some reply))) :
    wp [] (tryMake c) post (linked (some c)) := by
  refine ⟨Or.inr List.mem_cons_self, wp_tryAcquire (fun p hp ↦ ?_) hnone fun reply _ hfresh ↦ ?_⟩
  · obtain rfl := Option.some.inj hp
    exact Or.inr List.mem_cons_self
  · exact hsome reply fun heq ↦ hfresh (List.mem_cons.mpr (Or.inl heq))

/-- A reply is freed before the context that it was made from. -/
theorem wp_freeReply {c reply : H} (hne : reply ≠ c) {post : Unit → Held H → Prop}
    (hpost : post () (linked (some c))) :
    wp [] (free reply) post (answered (some c) (some reply)) := by
  refine (wp_free _ _).mpr ⟨List.mem_cons_self, ?_, ?_⟩
  · rintro ⟨entry, hentry, hparent⟩
    rcases List.mem_cons.mp hentry with rfl | hentry
    · exact hne (Option.some.inj hparent).symm
    · obtain rfl := List.mem_singleton.mp hentry
      cases hparent
  · rw [answered, Held.remove_cons_self fun hmem ↦ hne (List.mem_singleton.mp hmem)]
    exact hpost

variable {authEmpty : Bool} {c : H} {post : ℤ × Option H → Held H → Prop}

/-- `connect` has ended: it has closed the context, or has made one and returns zero. -/
def Connected (post : ℤ × Option H → Held H → Prop) : Prop :=
  ∀ rc context, (rc = 0 → context.isSome) → post (rc, context) (linked context)

theorem wp_failed {rc : ℤ} (hrc : rc ≠ 0) (hpost : Connected post) :
    wp [] (do let closed ← close (some c); pure (rc, closed)) post (linked (some c)) :=
  (wp_bind _ _ _ _).mpr (wp_close (hpost rc none fun heq ↦ absurd heq hrc))

theorem wp_authenticate (hpost : Connected post) :
    wp [] (authenticate c) post (linked (some c)) := by
  have hself : c ∈ ([] : List H) ∨ c ∈ (linked (some c)).handles := Or.inr List.mem_cons_self
  rw [authenticate, wp_bind]
  refine wp_tryMake ?_ fun reply hne ↦ ?_
  · rw [authFails, wp_bind, wp_pure, if_pos rfl, wp_bind, wp_touch]
    exact ⟨hself, wp_failed (by decide) hpost⟩
  have hreply : reply ∈ ([] : List H) ∨ reply ∈ (answered (some c) (some reply)).handles :=
    Or.inr List.mem_cons_self
  have hcontext : c ∈ ([] : List H) ∨ c ∈ (answered (some c) (some reply)).handles :=
    Or.inr (List.mem_cons_of_mem _ List.mem_cons_self)
  have hend : ∀ failed : Bool, wp [] (if failed then do
      touch c
      touchSome (some reply)
      freeSome (some reply)
      let closed ← close (some c)
      pure (-4, closed)
    else do
      let reply ← deref (some reply)
      free reply
      pure (0, some c)) post (answered (some c) (some reply)) := by
    intro failed
    split_ifs
    · rw [wp_bind, wp_touch, wp_bind, touchSome, wp_touch, wp_bind, freeSome]
      exact ⟨hcontext, hreply, wp_freeReply hne (wp_failed (by decide) hpost)⟩
    · rw [wp_bind, wp_deref_some, wp_bind]
      exact wp_freeReply hne (hpost 0 (some c) fun _ ↦ rfl)
  rw [wp_bind, authFails, wp_bind, wp_call]
  refine ⟨hreply, fun type ↦ ?_⟩
  split_ifs
  · exact hend true
  · rw [wp_bind, wp_call]
    exact ⟨hcontext, fun err ↦ hend (decide (err ≠ 0))⟩

theorem wp_setUp (hpost : Connected post) :
    wp [] (setUp authEmpty (some c)) post (linked (some c)) := by
  have hself : c ∈ ([] : List H) ∨ c ∈ (linked (some c)).handles := Or.inr List.mem_cons_self
  rw [setUp, wp_bind, wp_call]
  refine ⟨hself, fun err ↦ ?_⟩
  by_cases herr : err ≠ 0
  · rw [if_pos herr, wp_bind, wp_touch]
    exact ⟨hself, wp_failed (by decide) hpost⟩
  rw [if_neg herr, wp_bind, wp_call]
  refine ⟨hself, fun rc ↦ ?_⟩
  split_ifs
  · rw [wp_bind, wp_touch]
    exact ⟨hself, wp_failed (by decide) hpost⟩
  · exact hpost 0 (some c) fun _ ↦ rfl
  · exact wp_authenticate hpost

/-- `connect` closes the context that the client has, whatever it comes to. -/
theorem wp_connect (hpost : Connected post) :
    wp [] (connect authEmpty context) post (linked context) := by
  rw [connect, wp_bind]
  refine wp_close ?_
  rw [wp_bind]
  refine wp_tryAcquire (fun p hp ↦ by cases hp) (hpost (-1) none fun heq ↦ by cases heq) ?_
  exact fun c _ _ ↦ wp_setUp hpost

/-- A reply of a command, if there is one, is not the context that it was made from. -/
def Apart (c : H) (reply : Option H) : Prop := ∀ r ∈ reply, r ≠ c

/-- After the last attempt the client has a context, or it could not connect. -/
def Attempted (post : ℤ × Option H × Option H → Held H → Prop) : Prop :=
  (∀ c reply, Apart c reply → post (0, some c, reply) (answered (some c) reply)) ∧
    ∀ rc context, rc ≠ 0 → post (rc, context, none) (linked context)

theorem wp_retryOnce {reply : Option H} (hapart : Apart c reply)
    {post : ℤ × Option H × Option H → Held H → Prop} (hpost : Attempted post) :
    wp [] (retryOnce authEmpty c reply) post (answered (some c) reply) := by
  cases reply with
  | some reply => exact hpost.1 c (some reply) hapart
  | none =>
    rw [retryOnce, wp_bind]
    refine wp_connect fun rc again hagain ↦ ?_
    dsimp only
    split_ifs with hrc
    · exact hpost.2 rc again hrc
    obtain ⟨fresh, rfl⟩ := Option.isSome_iff_exists.mp (hagain (not_not.mp hrc))
    rw [wp_bind, wp_deref_some, wp_bind]
    refine wp_tryMake (hpost.1 fresh none fun r hr ↦ by cases hr) fun reply hreply ↦ ?_
    refine hpost.1 fresh (some reply) fun r hr ↦ ?_
    obtain rfl := Option.some.inj hr
    exact hreply

/-- `execCommand` has ended: without a reply, or with one and the context that it was made from. -/
def Executed (post : Option H × Option H → Held H → Prop) : Prop :=
  (∀ context, post (none, context) (linked context)) ∧
    ∀ reply c, reply ≠ c → post (some reply, some c) (answered (some c) (some reply))

theorem wp_finish {reply : Option H} (hapart : Apart c reply)
    {post : Option H × Option H → Held H → Prop} (hpost : Executed post) :
    wp [] (finish c reply) post (answered (some c) reply) := by
  cases reply with
  | none =>
    rw [finish, wp_bind, wp_touch, wp_bind]
    exact ⟨Or.inr List.mem_cons_self, wp_close (hpost.1 none)⟩
  | some reply =>
    have hne := hapart reply rfl
    have hreply : reply ∈ ([] : List H) ∨ reply ∈ (answered (some c) (some reply)).handles :=
      Or.inr List.mem_cons_self
    have hcontext : c ∈ ([] : List H) ∨ c ∈ (answered (some c) (some reply)).handles :=
      Or.inr (List.mem_cons_of_mem _ List.mem_cons_self)
    rw [finish, wp_bind, wp_call]
    refine ⟨hcontext, fun err ↦ ?_⟩
    by_cases herr : err ≠ 0
    · rw [if_pos herr, wp_bind, wp_touch, wp_bind]
      refine ⟨hcontext, wp_freeReply hne ((wp_bind _ _ _ _).mpr ?_)⟩
      exact wp_close (hpost.1 none)
    rw [if_neg herr, wp_bind, wp_call]
    refine ⟨hreply, fun type ↦ ?_⟩
    split_ifs
    · rw [wp_bind, wp_touch, wp_bind]
      exact ⟨hreply, wp_freeReply hne (hpost.1 (some c))⟩
    · exact hpost.2 reply c hne

/-- With a reply the client has a context, so that pointer is not null. -/
theorem attempted_afterAttempts {post : Option H × Option H → Held H → Prop}
    (hpost : Executed post) :
    Attempted fun attempted held ↦ wp [] (afterAttempts attempted) post held :=
  ⟨fun _ _ hapart ↦ wp_finish hapart hpost, fun rc context hrc ↦ by
    dsimp only
    rw [afterAttempts, if_pos hrc]
    exact hpost.1 context⟩

theorem wp_sendCommand {post : Option H × Option H → Held H → Prop} (hpost : Executed post) :
    wp [] (sendCommand authEmpty c) post (linked (some c)) := by
  rw [sendCommand, wp_bind]
  refine wp_tryMake ?_ fun reply hne ↦ ?_
  · rw [wp_bind]
    exact wp_retryOnce (fun r hr ↦ by cases hr) (attempted_afterAttempts hpost)
  · rw [wp_bind]
    refine wp_retryOnce (fun r hr ↦ ?_) (attempted_afterAttempts hpost)
    obtain rfl := Option.some.inj hr
    exact hne

theorem wp_execCommand {post : Option H × Option H → Held H → Prop} (hpost : Executed post) :
    wp [] (execCommand authEmpty context) post (linked context) := by
  rw [execCommand, wp_bind]
  cases context with
  | some c => exact wp_sendCommand hpost
  | none =>
    refine wp_connect fun rc context hcontext ↦ ?_
    dsimp only
    split_ifs with hrc
    · exact hpost.1 context
    obtain ⟨c, rfl⟩ := Option.isSome_iff_exists.mp (hcontext (not_not.mp hrc))
    rw [wp_bind, wp_deref_some]
    exact wp_sendCommand hpost

theorem wp_execCommandFor {post : Option H → Held H → Prop}
    (hpost : ∀ context, post context (linked context)) :
    wp [] (execCommandFor authEmpty context) post (linked context) := by
  rw [execCommandFor, wp_bind]
  refine wp_execCommand ⟨hpost, fun reply c hne ↦ ?_⟩
  dsimp only
  rw [wp_bind, wp_answer]
  intro reads
  rw [wp_bind]
  refine wp_times (· = answered (some c) (some reply)) (fun held hheld ↦ ?_)
    (fun held hheld ↦ ?_) rfl
  · rw [wp_touch, hheld]
    exact ⟨Or.inr List.mem_cons_self, rfl⟩
  · rw [hheld, wp_bind]
    exact wp_freeReply hne (hpost (some c))

theorem wp_run {post : Option H → Held H → Prop} (hpost : ∀ context, post context (linked context))
    (clientCall : ClientCall) :
    wp [] (clientCall.run authEmpty context) post (linked context) := by
  cases clientCall with
  | «open» =>
    rw [ClientCall.run, wp_bind]
    exact wp_connect fun _ again _ ↦ hpost again
  | setTimeout =>
    cases context with
    | none => exact hpost none
    | some c =>
      rw [ClientCall.run, setTimeout, wp_bind, wp_touch]
      exact ⟨Or.inr List.mem_cons_self, hpost (some c)⟩
  | execCommand => exact wp_execCommandFor hpost

/-- A client makes any calls. -/
theorem wp_runAll {post : Option H → Held H → Prop}
    (hpost : ∀ context, post context (linked context)) (clientCalls : List ClientCall) :
    wp [] (runAll authEmpty clientCalls context) post (linked context) := by
  induction clientCalls generalizing context with
  | nil => exact hpost context
  | cons first rest ih =>
    rw [runAll, wp_bind]
    exact wp_run (fun _ ↦ ih) first

/-- A client that was deleted holds nothing. -/
theorem wp_life (client : Bool × List ClientCall) :
    wp [] (life client : HandleProg H Unit) (fun _ held ↦ held = []) [] := by
  rw [life, wp_bind]
  have hnone : ([] : Held H) = linked none := rfl
  rw [hnone]
  refine wp_connect fun rc context _ ↦ ?_
  rw [wp_bind]
  refine wp_runAll (fun context ↦ ?_) _
  rw [wp_bind]
  refine wp_close ?_
  rw [wp_bind, hnone]
  exact wp_close rfl

end Holds

/-! ### Clients that live at the same time -/

/-- Assumes: clients that were opened, used, closed and deleted, or are being so, each by one thread
at a time. None of them is about to pass a null pointer, a freed reply or a closed context to the
library, or to close a context with a reply left; and when all were deleted, nothing is open. -/
theorem redis_clients_safe [DecidableEq H] (clients : List (Bool × List ClientCall))
    {calls : List (HandleCall H)} {final : HandleSystem H Unit}
    (hrun : runFrom HandleSystem.step ⟨clients.map life, []⟩ calls = some final) :
    (∀ i, ¬final.Violates i) ∧
      ((∀ prog ∈ final.threads, ∃ result, prog = .done result) → final.live = []) := by
  refine HandleSystem.nothing_left (fun prog hprog ↦ ?_) hrun
  obtain ⟨client, -, rfl⟩ := List.mem_map.mp hprog
  exact wp_life client

/-- The calls of a client whose command has no reply at first: it connects again, is given a context
at the same address, and reads the second reply twice. -/
def retriedCalls : List (HandleCall ℕ) :=
  [⟨0, 1, 0⟩, ⟨0, 0, 7⟩] ++ List.replicate 7 ⟨0, 0, 0⟩ ++ [⟨0, 1, 0⟩, ⟨0, 0, 7⟩] ++
    List.replicate 5 ⟨0, 0, 0⟩ ++ [⟨0, 1, 0⟩, ⟨0, 0, 8⟩] ++ List.replicate 4 ⟨0, 0, 0⟩ ++
      [⟨0, 2, 0⟩] ++ List.replicate 4 ⟨0, 0, 0⟩

theorem redis_clients_safe_retried :
    ∃ final, runFrom HandleSystem.step ⟨[(true, [.execCommand])].map life, []⟩ retriedCalls =
        some final ∧ (∀ i, ¬final.Violates i) ∧ final.live = [] := by
  have hrun : runFrom HandleSystem.step ⟨[(true, [.execCommand])].map life, []⟩ retriedCalls =
      some ⟨[.done ()], []⟩ := rfl
  obtain ⟨hsafe, hlive⟩ := redis_clients_safe _ hrun
  exact ⟨_, hrun, hsafe, hlive fun prog hprog ↦ ⟨(), List.mem_singleton.mp hprog⟩⟩

end TszyUlt.Wjp.RedisHandles
