import TszyUlt.Lib.Lease
import TszyUlt.Lib.Transition

/-!
# The clients of the database pools

`getIdleClient`, `markClientIdle` and `closeClient` of `mysql_client_pool`, `redis_client_pool` and
`mongo_client_pool` (`wjp/mysql_client.hpp`, `redis_client.hpp`, `mongo_client.hpp`), with the parts
of `worker` and of `mysql_client_pool::execQuery` between which they are called. `ClientPool` has
the requests of these pools; here the clients are told apart.

`PooledClients` is a pool of MySQL or Redis clients. A client is an address that is allocated or
not: a deleted client is no longer allocated, and `new` may return its address again.
`getIdleClient` takes an idle entry, or inserts an entry for a new client and connects it outside
the lock; `closeClient` erases the entry and deletes the client, for Redis after the lock was
released. Whether a connection succeeds, and the state of the connection after a request, are
inputs. A step is one section under `_lockClients` or one call of a client, so a run is any
interleaving of the workers and, for MySQL, of the callers of `execQuery`.

`MongoClients` is a pool of `mongo_client`s, with the driver's pool from which a worker pops a raw
client for each request. `attach` may fail, and `getIdleClient` may find nothing.

Both keep `Lib.Leased`, with the entries of `_clt2idle` and what each thread holds. `exclusive_use`
is the result.

Scope. `std::unordered_map` is searched in any order. `serveUtilStop`, which deletes the clients, is
not modelled.
-/

set_option autoImplicit false
set_option relaxedAutoImplicit false

namespace TszyUlt.Wjp

open Lib

/-! ### The search for a client -/

/-- What the search of `getIdleClient` comes to: an idle client, a new one, or none because the pool
is full. -/
inductive IdleSearch (Client : Type*)
  | idle (clt : Client)
  | new (clt : Client)
  | full
  deriving DecidableEq, Repr

/-- The client that the search gives. -/
def IdleSearch.client {Client : Type*} : IdleSearch Client → Option Client
  | .idle clt => some clt
  | .new clt => some clt
  | .full => none

section Search

variable {Client : Type*} [DecidableEq Client]

/-- `_clt2idle`. -/
abbrev Clt2Idle (Client : Type*) := AList fun _ : Client ↦ Bool

/-- No client is idle. -/
def NoneIdle (clt2idle : Clt2Idle Client) : Prop := ∀ entry ∈ clt2idle.entries, entry.2 = false

instance (clt2idle : Clt2Idle Client) : Decidable (NoneIdle clt2idle) :=
  inferInstanceAs (Decidable (∀ entry ∈ clt2idle.entries, entry.2 = false))

/-- The outcomes that the search may have. A new client has an address that is not in use. -/
def IdleSearch.Possible (poolSize : ℕ) (allocated : Client → Bool) (clt2idle : Clt2Idle Client) :
    IdleSearch Client → Prop
  | .idle clt => clt2idle.lookup clt = some true
  | .new clt => NoneIdle clt2idle ∧ clt2idle.keys.length < poolSize ∧ allocated clt = false
  | .full => NoneIdle clt2idle ∧ ¬ clt2idle.keys.length < poolSize

instance (poolSize : ℕ) (allocated : Client → Bool) (clt2idle : Clt2Idle Client) :
    DecidablePred (IdleSearch.Possible poolSize allocated clt2idle)
  | .idle clt => inferInstanceAs (Decidable (clt2idle.lookup clt = some true))
  | .new clt => inferInstanceAs
    (Decidable (NoneIdle clt2idle ∧ clt2idle.keys.length < poolSize ∧ allocated clt = false))
  | .full => inferInstanceAs (Decidable (NoneIdle clt2idle ∧ ¬ clt2idle.keys.length < poolSize))

/-- The entries after the search. -/
def IdleSearch.entries (clt2idle : Clt2Idle Client) : IdleSearch Client → Clt2Idle Client
  | .idle clt => clt2idle.insert clt false
  | .new clt => clt2idle.insert clt false
  | .full => clt2idle

/-- The clients that are allocated after the search. -/
def IdleSearch.allocated (allocated : Client → Bool) : IdleSearch Client → Client → Bool
  | .new clt => Function.update allocated clt true
  | _ => allocated

/-- The entries after `markClientIdle`. -/
def markedIdle (clt2idle : Clt2Idle Client) (clt : Client) : Clt2Idle Client :=
  if (clt2idle.lookup clt).isSome then clt2idle.insert clt true else clt2idle

/-- The search of a thread that holds no client keeps the leases. -/
theorem leased_search {Thread : Type*} [DecidableEq Thread] {poolSize : ℕ}
    {allocated : Client → Bool} {clt2idle : Clt2Idle Client} {holds : Thread → Option Client}
    (thread : Thread) {found : IdleSearch Client}
    (hleased : Leased poolSize allocated clt2idle holds)
    (hfound : found.Possible poolSize allocated clt2idle) :
    Leased poolSize (found.allocated allocated) (found.entries clt2idle)
      (Function.update holds thread found.client) := by
  cases found with
  | idle clt => exact hleased.take hfound
  | new clt => exact hleased.takeNew hfound.2.2 hfound.2.1
  | full => exact hleased.letGo thread

end Search

/-! ### Pools of MySQL and Redis clients -/

/-- The pools whose clients are connected by the pool. -/
inductive ConnectingPool
  | mysql
  | redis
  deriving DecidableEq, Repr

/-- The callers of `getIdleClient`. -/
inductive ClientCaller
  | worker
  | execQuery
  deriving DecidableEq, Repr

/-- Where a thread stands with a client. -/
inductive ClientUse (Client : Type*)
  | outside
  /-- `getIdleClient`: the new client is to be connected. -/
  | connecting (caller : ClientCaller) (clt : Client)
  /-- `getIdleClient`: the call has returned; the second section is next. -/
  | connected (caller : ClientCaller) (clt : Client) (ok : Bool)
  /-- `getIdleClient` has returned the client. -/
  | holding (caller : ClientCaller) (clt : Client)
  /-- `handleRequest`, or `execQuery` of the client, is called. -/
  | handling (clt : Client)
  /-- The call has returned; `getConnState` is next. -/
  | handled (clt : Client)
  | markingIdle (clt : Client)
  | closing (clt : Client)
  /-- `closeClient` of Redis: the lock is released; the client is to be deleted. -/
  | deleting (clt : Client)
  deriving DecidableEq, Repr

/-- The client that a thread holds. -/
def ClientUse.client {Client : Type*} : ClientUse Client → Option Client
  | .outside => none
  | .connecting _ clt => some clt
  | .connected _ clt _ => some clt
  | .holding _ clt => some clt
  | .handling clt => some clt
  | .handled clt => some clt
  | .markingIdle clt => some clt
  | .closing clt => some clt
  | .deleting clt => some clt

/-- A pool of clients and the threads that use it. -/
structure PooledClients (Thread Client : Type*) where
  /-- The clients that were constructed and not deleted. -/
  allocated : Client → Bool
  /-- `getConnState` of a client. -/
  connState : Client → Bool
  clt2idle : Clt2Idle Client
  threads : Thread → ClientUse Client

/-- The steps of the threads. -/
inductive ClientAction (Thread Client : Type*)
  /-- `getIdleClient`: the first section. -/
  | getIdleClient (thread : Thread) (caller : ClientCaller) (found : IdleSearch Client)
  /-- `getIdleClient`: the new client is connected, or not. -/
  | connect (thread : Thread) (ok : Bool)
  /-- `getIdleClient`: the second section. -/
  | finishConnect (thread : Thread)
  /-- The caller goes on with its client. A worker tests `getConnState` first. -/
  | useClient (thread : Thread)
  /-- The request is handled, and leaves the connection in a state. -/
  | handle (thread : Thread) (connState : Bool)
  /-- The test of `getConnState` after a request. -/
  | checkConnState (thread : Thread)
  | markClientIdle (thread : Thread)
  | closeClient (thread : Thread)
  /-- `closeClient` of Redis: the client is closed and deleted. -/
  | deleteClient (thread : Thread)

namespace PooledClients

variable {Thread Client : Type*}

/-- A pool that was just started. -/
def new : PooledClients Thread Client where
  allocated := fun _ ↦ false
  connState := fun _ ↦ false
  clt2idle := ∅
  threads := fun _ ↦ .outside

/-- What each thread holds. -/
def holds (pool : PooledClients Thread Client) : Thread → Option Client :=
  ClientUse.client ∘ pool.threads

variable [DecidableEq Thread] [DecidableEq Client]

/-- A thread goes on. -/
def setThread (pool : PooledClients Thread Client) (thread : Thread) (use : ClientUse Client) :
    PooledClients Thread Client :=
  { pool with threads := Function.update pool.threads thread use }

/-- The state of a connection changes. -/
def setConnState (pool : PooledClients Thread Client) (clt : Client) (connState : Bool) :
    PooledClients Thread Client :=
  { pool with connState := Function.update pool.connState clt connState }

/-- The entry of a client is erased. -/
def eraseEntry (pool : PooledClients Thread Client) (clt : Client) : PooledClients Thread Client :=
  { pool with clt2idle := pool.clt2idle.erase clt }

/-- A client is disconnected and deleted. -/
def delete (pool : PooledClients Thread Client) (clt : Client) : PooledClients Thread Client :=
  { pool.setConnState clt false with allocated := Function.update pool.allocated clt false }

/-- The first section of `getIdleClient`. -/
def search (pool : PooledClients Thread Client) (thread : Thread) (caller : ClientCaller)
    (found : IdleSearch Client) : PooledClients Thread Client :=
  let searched := { pool with
    allocated := found.allocated pool.allocated
    clt2idle := found.entries pool.clt2idle }
  match found with
  | .idle clt => searched.setThread thread (.holding caller clt)
  | .new clt => (searched.setConnState clt false).setThread thread (.connecting caller clt)
  | .full => searched

/-- One step of a pool of the given size. -/
def step (kind : ConnectingPool) (poolSize : ℕ) (pool : PooledClients Thread Client) :
    ClientAction Thread Client → Option (PooledClients Thread Client)
  | .getIdleClient thread caller found =>
    if pool.threads thread = .outside ∧ (caller = .worker ∨ kind = .mysql) ∧
        found.Possible poolSize pool.allocated pool.clt2idle then
      some (pool.search thread caller found)
    else none
  | .connect thread ok =>
    match pool.threads thread with
    | .connecting caller clt =>
      some ((pool.setConnState clt ok).setThread thread (.connected caller clt ok))
    | _ => none
  | .finishConnect thread =>
    match pool.threads thread with
    | .connected caller clt true => some (pool.setThread thread (.holding caller clt))
    | .connected _ clt false => some (((pool.eraseEntry clt).delete clt).setThread thread .outside)
    | _ => none
  | .useClient thread =>
    match pool.threads thread with
    | .holding .worker clt =>
      some (pool.setThread thread (if pool.connState clt then .handling clt else .closing clt))
    | .holding .execQuery clt => some (pool.setThread thread (.handling clt))
    | _ => none
  | .handle thread connState =>
    match pool.threads thread with
    | .handling clt => some ((pool.setConnState clt connState).setThread thread (.handled clt))
    | _ => none
  | .checkConnState thread =>
    match pool.threads thread with
    | .handled clt =>
      some (pool.setThread thread (if pool.connState clt then .markingIdle clt else .closing clt))
    | _ => none
  | .markClientIdle thread =>
    match pool.threads thread with
    | .markingIdle clt =>
      some ({ pool with clt2idle := markedIdle pool.clt2idle clt }.setThread thread .outside)
    | _ => none
  | .closeClient thread =>
    match pool.threads thread with
    | .closing clt =>
      match kind with
      | .mysql => some (((pool.eraseEntry clt).delete clt).setThread thread .outside)
      | .redis => some ((pool.eraseEntry clt).setThread thread (.deleting clt))
    | _ => none
  | .deleteClient thread =>
    match pool.threads thread with
    | .deleting clt => some ((pool.delete clt).setThread thread .outside)
    | _ => none

/-- What a thread may rely on at its place: the client that is marked idle next is connected, and
the one that is deleted next has no entry. -/
def Placed (pool : PooledClients Thread Client) : ClientUse Client → Prop
  | .markingIdle clt => pool.connState clt = true
  | .deleting clt => clt ∉ pool.clt2idle
  | _ => True

/-- What holds of a pool in every run. -/
structure Invariant (poolSize : ℕ) (pool : PooledClients Thread Client) : Prop where
  leased : Leased poolSize pool.allocated pool.clt2idle pool.holds
  idle : ∀ clt, pool.clt2idle.lookup clt = some true → pool.connState clt = true
  placed : ∀ thread, pool.Placed (pool.threads thread)

omit [DecidableEq Thread] in
theorem invariant_new (poolSize : ℕ) : (new : PooledClients Thread Client).Invariant poolSize where
  leased := Leased.empty
  idle _ h := nomatch h
  placed _ := trivial

section Steps

variable {poolSize : ℕ} {pool next : PooledClients Thread Client} {thread : Thread} {clt : Client}

omit [DecidableEq Client] in
theorem holds_setThread (use : ClientUse Client) :
    (pool.setThread thread use).holds = Function.update pool.holds thread use.client :=
  Function.comp_update _ _ _ _

omit [DecidableEq Thread] [DecidableEq Client] in
theorem holds_of_threads {use : ClientUse Client} (hthread : pool.threads thread = use)
    (hclient : use.client = some clt) : pool.holds thread = some clt :=
  (congrArg ClientUse.client hthread).trans hclient

omit [DecidableEq Client] in
/-- The other threads are where they were when one goes on. -/
theorem forall_threads_setThread {use : ClientUse Client} (property : ClientUse Client → Prop)
    (hothers : ∀ other ≠ thread, property (pool.threads other)) (huse : property use)
    (other : Thread) : property ((pool.setThread thread use).threads other) := by
  change property (Function.update pool.threads thread use other)
  by_cases heq : other = thread
  · rw [heq, Function.update_self]
    exact huse
  · rw [Function.update_of_ne heq]
    exact hothers other heq

omit [DecidableEq Thread] [DecidableEq Client] in
/-- Assumes: the client is not the one of the place, the state of the others' connections is kept,
and no entry is new. What a thread relies on stays true. -/
theorem Placed.mono {use : ClientUse Client} (hplaced : pool.Placed use)
    (hclient : use.client ≠ some clt)
    (hstate : ∀ other ≠ clt, next.connState other = pool.connState other)
    (hentries : ∀ other ≠ clt, other ∈ next.clt2idle → other ∈ pool.clt2idle) :
    next.Placed use := by
  cases use with
  | markingIdle other =>
    have hne : other ≠ clt := fun h ↦ hclient (congrArg some h)
    exact (hstate other hne).trans hplaced
  | deleting other =>
    have hne : other ≠ clt := fun h ↦ hclient (congrArg some h)
    exact fun hmem ↦ hplaced (hentries other hne hmem)
  | outside | connecting | connected | holding | handling | handled | closing => trivial

/-- A thread goes on with the client that it has. -/
theorem Invariant.setThread (hinv : pool.Invariant poolSize) {use : ClientUse Client}
    (hclient : pool.holds thread = use.client) (hplaced : pool.Placed use) :
    (pool.setThread thread use).Invariant poolSize where
  leased := by
    rw [holds_setThread, ← hclient, Function.update_eq_self]
    exact hinv.leased
  idle := hinv.idle
  placed := forall_threads_setThread pool.Placed (fun other _ ↦ hinv.placed other) hplaced

omit [DecidableEq Thread] in
/-- No other thread has the client that a thread has. -/
theorem Invariant.client_ne (hinv : pool.Invariant poolSize) (hheld : pool.holds thread = some clt)
    {other : Thread} (hne : other ≠ thread) : (pool.threads other).client ≠ some clt :=
  fun hother ↦ hne (hinv.leased.unshared other thread clt hother hheld)

/-- The holder of a client changes the state of its connection and goes on. -/
theorem Invariant.setConnState (hinv : pool.Invariant poolSize)
    (hheld : pool.holds thread = some clt) {use : ClientUse Client}
    (hclient : use.client = some clt) (connState : Bool)
    (hplaced : (pool.setConnState clt connState).Placed use) :
    ((pool.setConnState clt connState).setThread thread use).Invariant poolSize where
  leased := by
    rw [holds_setThread, hclient, ← hheld]
    exact (Function.update_eq_self thread pool.holds).symm ▸ hinv.leased
  idle other hidle := by
    have hne : other ≠ clt := by
      rintro rfl
      exact hinv.leased.idle other hidle thread hheld
    exact (Function.update_of_ne hne _ _).trans (hinv.idle other hidle)
  placed := forall_threads_setThread (pool.setConnState clt connState).Placed
    (fun other hne ↦ (hinv.placed other).mono (hinv.client_ne hheld hne)
      (fun _ hclt ↦ Function.update_of_ne hclt _ _) fun _ _ hmem ↦ hmem) hplaced

omit [DecidableEq Thread] in
/-- The entry of a client is erased. -/
theorem Invariant.eraseEntry (hinv : pool.Invariant poolSize) (clt : Client) :
    (pool.eraseEntry clt).Invariant poolSize where
  leased := hinv.leased.erase clt
  idle other hidle := hinv.idle other (lookup_erase_cases hidle).2
  placed thread := by
    have hplaced := hinv.placed thread
    change Placed (pool.eraseEntry clt) (pool.threads thread)
    cases huse : pool.threads thread with
    | deleting other =>
      rw [huse] at hplaced
      exact fun hmem ↦ hplaced (AList.mem_erase.mp hmem).2
    | markingIdle other =>
      rw [huse] at hplaced
      exact hplaced
    | outside | connecting | connected | holding | handling | handled | closing => trivial

omit [DecidableEq Thread] in
theorem notMem_eraseEntry : clt ∉ (pool.eraseEntry clt).clt2idle :=
  fun hmem ↦ (AList.mem_erase.mp hmem).1 rfl

/-- The holder of a client that has no entry deletes it. -/
theorem Invariant.delete (hinv : pool.Invariant poolSize) (hheld : pool.holds thread = some clt)
    (hentry : clt ∉ pool.clt2idle) :
    ((pool.delete clt).setThread thread .outside).Invariant poolSize where
  leased := by
    rw [holds_setThread]
    exact hinv.leased.delete hheld hentry
  idle other hidle := by
    have hne : other ≠ clt := by
      rintro rfl
      exact hentry (mem_of_lookup hidle)
    exact (Function.update_of_ne hne _ _).trans (hinv.idle other hidle)
  placed := forall_threads_setThread (pool.delete clt).Placed
    (fun other hne ↦ (hinv.placed other).mono (hinv.client_ne hheld hne)
      (fun _ hclt ↦ Function.update_of_ne hclt _ _) fun _ _ hmem ↦ hmem) trivial

/-- The holder of a connected client marks it idle. -/
theorem Invariant.markClientIdle (hinv : pool.Invariant poolSize)
    (hheld : pool.holds thread = some clt) (hconnected : pool.connState clt = true) :
    ({ pool with clt2idle := markedIdle pool.clt2idle clt }.setThread thread
      .outside).Invariant poolSize where
  leased := by
    rw [holds_setThread]
    exact hinv.leased.giveBack hheld
  idle other hidle := by
    change (markedIdle pool.clt2idle clt).lookup other = some true at hidle
    unfold markedIdle at hidle
    split_ifs at hidle
    · rcases lookup_insert_cases hidle with ⟨rfl, -⟩ | ⟨-, hold⟩
      · exact hconnected
      · exact hinv.idle other hold
    · exact hinv.idle other hidle
  placed := forall_threads_setThread (Placed { pool with clt2idle := markedIdle pool.clt2idle clt })
    (fun other hne ↦ (hinv.placed other).mono (hinv.client_ne hheld hne) (fun _ _ ↦ rfl)
      fun found hclt hmem ↦ by
        unfold markedIdle at hmem
        split_ifs at hmem
        · exact ((AList.mem_insert pool.clt2idle).mp hmem).resolve_left hclt
        · exact hmem) trivial

/-- The first section of `getIdleClient`. -/
theorem Invariant.search (hinv : pool.Invariant poolSize) (thread : Thread)
    (caller : ClientCaller) {found : IdleSearch Client}
    (hfound : found.Possible poolSize pool.allocated pool.clt2idle) :
    (pool.search thread caller found).Invariant poolSize := by
  have hleased := leased_search thread hinv.leased hfound
  cases found with
  | full => exact hinv
  | idle clt =>
    have hfree : ∀ other, (pool.threads other).client ≠ some clt := hinv.leased.idle clt hfound
    refine ⟨?_, fun other hidle ↦ ?_, ?_⟩
    · rw [PooledClients.search, holds_setThread]
      exact hleased
    · rcases lookup_insert_cases hidle with ⟨-, hmark⟩ | ⟨-, hold⟩
      · cases hmark
      · exact hinv.idle other hold
    · refine forall_threads_setThread (Placed _) (fun other _ ↦ ?_) trivial
      exact (hinv.placed other).mono (hfree other) (fun _ _ ↦ rfl) fun _ hne hmem ↦
        ((AList.mem_insert pool.clt2idle).mp hmem).resolve_left hne
  | new clt =>
    have hfree : ∀ other, (pool.threads other).client ≠ some clt := by
      intro other hother
      exact absurd (hinv.leased.held other clt hother) (ne_true_of_eq_false hfound.2.2)
    refine ⟨?_, fun other hidle ↦ ?_, ?_⟩
    · rw [PooledClients.search, holds_setThread]
      exact hleased
    · rcases lookup_insert_cases hidle with ⟨-, hmark⟩ | ⟨hne, hold⟩
      · cases hmark
      · exact (Function.update_of_ne hne _ _).trans (hinv.idle other hold)
    · refine forall_threads_setThread (Placed _) (fun other _ ↦ ?_) trivial
      exact (hinv.placed other).mono (hfree other) (fun _ hne ↦ Function.update_of_ne hne _ _)
        fun _ hne hmem ↦ ((AList.mem_insert pool.clt2idle).mp hmem).resolve_left hne

theorem Invariant.step (hinv : pool.Invariant poolSize) {kind : ConnectingPool}
    {action : ClientAction Thread Client} (hstep : pool.step kind poolSize action = some next) :
    next.Invariant poolSize := by
  cases action with
  | getIdleClient thread caller found =>
    simp only [PooledClients.step] at hstep
    split_ifs at hstep with hready
    cases hstep
    exact hinv.search thread caller hready.2.2
  | connect thread ok =>
    simp only [PooledClients.step] at hstep
    split at hstep
    · rename_i caller clt hthread
      cases hstep
      exact hinv.setConnState (holds_of_threads hthread rfl) rfl ok trivial
    · cases hstep
  | finishConnect thread =>
    simp only [PooledClients.step] at hstep
    split at hstep
    · rename_i caller clt hthread
      cases hstep
      exact hinv.setThread (holds_of_threads hthread rfl) trivial
    · rename_i caller clt hthread
      cases hstep
      exact (hinv.eraseEntry clt).delete (holds_of_threads hthread rfl) notMem_eraseEntry
    · cases hstep
  | useClient thread =>
    simp only [PooledClients.step] at hstep
    split at hstep
    · rename_i clt hthread
      cases hstep
      split_ifs
      · exact hinv.setThread (holds_of_threads hthread rfl) trivial
      · exact hinv.setThread (holds_of_threads hthread rfl) trivial
    · rename_i clt hthread
      cases hstep
      exact hinv.setThread (holds_of_threads hthread rfl) trivial
    · cases hstep
  | handle thread connState =>
    simp only [PooledClients.step] at hstep
    split at hstep
    · rename_i clt hthread
      cases hstep
      exact hinv.setConnState (holds_of_threads hthread rfl) rfl connState trivial
    · cases hstep
  | checkConnState thread =>
    simp only [PooledClients.step] at hstep
    split at hstep
    · rename_i clt hthread
      cases hstep
      split_ifs with hconnected
      · exact hinv.setThread (holds_of_threads hthread rfl) hconnected
      · exact hinv.setThread (holds_of_threads hthread rfl) trivial
    · cases hstep
  | markClientIdle thread =>
    simp only [PooledClients.step] at hstep
    split at hstep
    · rename_i clt hthread
      cases hstep
      have hplaced := hinv.placed thread
      rw [hthread] at hplaced
      exact hinv.markClientIdle (holds_of_threads hthread rfl) hplaced
    · cases hstep
  | closeClient thread =>
    simp only [PooledClients.step] at hstep
    split at hstep
    · rename_i clt hthread
      cases kind with
      | mysql =>
        cases hstep
        exact (hinv.eraseEntry clt).delete (holds_of_threads hthread rfl) notMem_eraseEntry
      | redis =>
        cases hstep
        exact (hinv.eraseEntry clt).setThread (holds_of_threads hthread rfl) notMem_eraseEntry
    · cases hstep
  | deleteClient thread =>
    simp only [PooledClients.step] at hstep
    split at hstep
    · rename_i clt hthread
      cases hstep
      have hplaced := hinv.placed thread
      rw [hthread] at hplaced
      exact hinv.delete (holds_of_threads hthread rfl) hplaced
    · cases hstep

end Steps

/-- The clients are used exclusively: no client is held by two threads, no client that is held or
idle is deleted, an idle client is connected, and there are no more clients than the pool may
have. -/
structure Exclusive (poolSize : ℕ) (pool : PooledClients Thread Client) : Prop where
  held_once : ∀ first second clt, (pool.threads first).client = some clt →
    (pool.threads second).client = some clt → first = second
  held_allocated : ∀ thread clt, (pool.threads thread).client = some clt →
    pool.allocated clt = true
  idle_allocated : ∀ clt, pool.clt2idle.lookup clt = some true → pool.allocated clt = true
  idle_connected : ∀ clt, pool.clt2idle.lookup clt = some true → pool.connState clt = true
  size_le : pool.clt2idle.keys.length ≤ poolSize

omit [DecidableEq Thread] in
theorem Invariant.exclusive {poolSize : ℕ} {pool : PooledClients Thread Client}
    (hinv : pool.Invariant poolSize) : pool.Exclusive poolSize where
  held_once := hinv.leased.unshared
  held_allocated := hinv.leased.held
  idle_allocated clt hidle := hinv.leased.entry clt (mem_of_lookup hidle)
  idle_connected := hinv.idle
  size_le := hinv.leased.length_le

end PooledClients

/-! ### Pools of MongoDB clients -/

/-- Where a worker stands with a raw client and a `mongo_client`. -/
inductive MongoUse (Client Raw : Type*)
  | outside
  /-- `mongoc_client_pool_try_pop` returned a raw client. -/
  | popped (rawClt : Raw)
  /-- `getIdleClient` returned a client. -/
  | holding (rawClt : Raw) (dbClt : Client)
  /-- `attach` succeeded; the request is to be handled. -/
  | attached (rawClt : Raw) (dbClt : Client)
  | markingIdle (rawClt : Raw) (dbClt : Client)
  /-- The raw client is to be pushed back. -/
  | pushing (rawClt : Raw)
  deriving DecidableEq, Repr

namespace MongoUse

variable {Client Raw : Type*}

/-- The `mongo_client` that a worker holds. -/
def client : MongoUse Client Raw → Option Client
  | .holding _ dbClt => some dbClt
  | .attached _ dbClt => some dbClt
  | .markingIdle _ dbClt => some dbClt
  | _ => none

/-- The raw client that a worker has popped and not pushed yet. -/
def raw : MongoUse Client Raw → Option Raw
  | .outside => none
  | .popped rawClt => some rawClt
  | .holding rawClt _ => some rawClt
  | .attached rawClt _ => some rawClt
  | .markingIdle rawClt _ => some rawClt
  | .pushing rawClt => some rawClt

end MongoUse

/-- What a worker does with the driver's pool. -/
inductive RawEvent (Raw : Type*)
  | pop (rawClt : Raw)
  | push (rawClt : Raw)
  deriving DecidableEq, Repr

/-- A pool of `mongo_client`s with its workers, the raw clients that are out of the driver's pool,
and what each worker has done with the driver's pool. -/
structure MongoClients (Thread Client Raw : Type*) where
  allocated : Client → Bool
  clt2idle : Clt2Idle Client
  threads : Thread → MongoUse Client Raw
  out : Raw → Bool
  log : Thread → List (RawEvent Raw)

/-- The steps of the workers. -/
inductive MongoAction (Thread Client Raw : Type*)
  /-- `mongoc_client_pool_try_pop` returns a raw client, or none. -/
  | tryPop (thread : Thread) (rawClt : Option Raw)
  | getIdleClient (thread : Thread) (found : IdleSearch Client)
  /-- `attach` succeeds or not. -/
  | attach (thread : Thread) (ok : Bool)
  /-- `handleRequest` and `detach`. -/
  | handleRequest (thread : Thread)
  | markClientIdle (thread : Thread)
  /-- `mongoc_client_pool_push`. -/
  | push (thread : Thread)

namespace MongoClients

variable {Thread Client Raw : Type*}

/-- A pool that was just started. -/
def new : MongoClients Thread Client Raw where
  allocated := fun _ ↦ false
  clt2idle := ∅
  threads := fun _ ↦ .outside
  out := fun _ ↦ false
  log := fun _ ↦ []

/-- What each worker holds. -/
def holds (pool : MongoClients Thread Client Raw) : Thread → Option Client :=
  MongoUse.client ∘ pool.threads

variable [DecidableEq Thread] [DecidableEq Client] [DecidableEq Raw]

/-- A worker goes on. -/
def setThread (pool : MongoClients Thread Client Raw) (thread : Thread)
    (use : MongoUse Client Raw) : MongoClients Thread Client Raw :=
  { pool with threads := Function.update pool.threads thread use }

/-- A worker pops a raw client from the driver's pool, or pushes it back. -/
def record (pool : MongoClients Thread Client Raw) (thread : Thread) :
    RawEvent Raw → MongoClients Thread Client Raw
  | .pop rawClt => { pool with
      out := Function.update pool.out rawClt true
      log := Function.update pool.log thread (pool.log thread ++ [.pop rawClt]) }
  | .push rawClt => { pool with
      out := Function.update pool.out rawClt false
      log := Function.update pool.log thread (pool.log thread ++ [.push rawClt]) }

/-- One step of a pool of the given size. The driver's pool returns no raw client that is out. -/
def step (poolSize : ℕ) (pool : MongoClients Thread Client Raw) :
    MongoAction Thread Client Raw → Option (MongoClients Thread Client Raw)
  | .tryPop thread rawClt =>
    match pool.threads thread, rawClt with
    | .outside, none => some pool
    | .outside, some rawClt =>
      if pool.out rawClt = false then
        some ((pool.record thread (.pop rawClt)).setThread thread (.popped rawClt))
      else none
    | _, _ => none
  | .getIdleClient thread found =>
    match pool.threads thread with
    | .popped rawClt =>
      if found.Possible poolSize pool.allocated pool.clt2idle then
        some ({ pool with
          allocated := found.allocated pool.allocated
          clt2idle := found.entries pool.clt2idle }.setThread thread
            (found.client.elim (.pushing rawClt) (.holding rawClt)))
      else none
    | _ => none
  | .attach thread ok =>
    match pool.threads thread with
    | .holding rawClt dbClt =>
      some (pool.setThread thread (if ok then .attached rawClt dbClt
        else .markingIdle rawClt dbClt))
    | _ => none
  | .handleRequest thread =>
    match pool.threads thread with
    | .attached rawClt dbClt => some (pool.setThread thread (.markingIdle rawClt dbClt))
    | _ => none
  | .markClientIdle thread =>
    match pool.threads thread with
    | .markingIdle rawClt dbClt =>
      some ({ pool with clt2idle := markedIdle pool.clt2idle dbClt }.setThread thread
        (.pushing rawClt))
    | _ => none
  | .push thread =>
    match pool.threads thread with
    | .pushing rawClt => some ((pool.record thread (.push rawClt)).setThread thread .outside)
    | _ => none

/-- The log of a worker that has popped a raw client, or none, and not pushed it yet: each raw
client popped before that was pushed once, before the next one was popped. -/
def InTurns (popped : Option Raw) (log : List (RawEvent Raw)) : Prop :=
  ∃ done : List Raw, log =
    done.flatMap (fun rawClt ↦ [.pop rawClt, .push rawClt]) ++ (popped.map RawEvent.pop).toList

/-- What holds of a pool in every run. -/
structure Invariant (poolSize : ℕ) (pool : MongoClients Thread Client Raw) : Prop where
  leased : Leased poolSize pool.allocated pool.clt2idle pool.holds
  inTurns : ∀ thread, InTurns (pool.threads thread).raw (pool.log thread)

omit [DecidableEq Thread] [DecidableEq Raw] in
theorem invariant_new (poolSize : ℕ) :
    (new : MongoClients Thread Client Raw).Invariant poolSize where
  leased := Leased.empty
  inTurns _ := ⟨[], rfl⟩

section Steps

variable {poolSize : ℕ} {pool next : MongoClients Thread Client Raw} {thread : Thread}

omit [DecidableEq Client] [DecidableEq Raw] in
theorem holds_setThread (use : MongoUse Client Raw) :
    (pool.setThread thread use).holds = Function.update pool.holds thread use.client :=
  Function.comp_update _ _ _ _

omit [DecidableEq Thread] [DecidableEq Client] [DecidableEq Raw] in
theorem inTurns_push {rawClt : Raw} {log : List (RawEvent Raw)}
    (hlog : InTurns (some rawClt) log) : InTurns none (log ++ [.push rawClt]) := by
  obtain ⟨done, rfl⟩ := hlog
  exact ⟨done ++ [rawClt], by simp⟩

omit [DecidableEq Thread] [DecidableEq Client] [DecidableEq Raw] in
theorem inTurns_pop {log : List (RawEvent Raw)} (hlog : InTurns none log) (rawClt : Raw) :
    InTurns (some rawClt) (log ++ [.pop rawClt]) := by
  obtain ⟨done, rfl⟩ := hlog
  exact ⟨done, by simp⟩

omit [DecidableEq Client] [DecidableEq Raw] in
/-- Assumes: a worker goes on with the raw client that it has. The logs stay in turns. -/
theorem inTurns_setThread (hturns : ∀ other, InTurns (pool.threads other).raw (pool.log other))
    {use : MongoUse Client Raw} (hraw : use.raw = (pool.threads thread).raw) (other : Thread) :
    InTurns ((pool.setThread thread use).threads other).raw (pool.log other) := by
  change InTurns (Function.update pool.threads thread use other).raw _
  by_cases heq : other = thread
  · rw [heq, Function.update_self, hraw]
    exact hturns thread
  · rw [Function.update_of_ne heq]
    exact hturns other

omit [DecidableEq Client] in
/-- A worker pops a raw client, or pushes the one that it has. -/
theorem inTurns_record (hturns : ∀ other, InTurns (pool.threads other).raw (pool.log other))
    {event : RawEvent Raw} {use : MongoUse Client Raw}
    (hevent : InTurns use.raw (pool.log thread ++ [event])) (other : Thread) :
    InTurns (((pool.record thread event).setThread thread use).threads other).raw
      ((pool.record thread event).log other) := by
  have hlog : (pool.record thread event).log =
      Function.update pool.log thread (pool.log thread ++ [event]) := by
    cases event <;> rfl
  have hthreads : ((pool.record thread event).setThread thread use).threads =
      Function.update pool.threads thread use := by
    cases event <;> rfl
  rw [hlog, hthreads]
  by_cases heq : other = thread
  · rw [heq, Function.update_self, Function.update_self]
    exact hevent
  · rw [Function.update_of_ne heq, Function.update_of_ne heq]
    exact hturns other

omit [DecidableEq Raw] in
/-- A worker goes on with the clients that it has. -/
theorem Invariant.setThread (hinv : pool.Invariant poolSize) {use : MongoUse Client Raw}
    (hclient : use.client = pool.holds thread) (hraw : use.raw = (pool.threads thread).raw) :
    (pool.setThread thread use).Invariant poolSize where
  leased := by
    rw [holds_setThread, hclient, Function.update_eq_self]
    exact hinv.leased
  inTurns := inTurns_setThread hinv.inTurns hraw

/-- A worker without a `mongo_client` pops a raw client, or pushes the one that it has. -/
theorem Invariant.record (hinv : pool.Invariant poolSize) {event : RawEvent Raw}
    {use : MongoUse Client Raw} (hclient : use.client = pool.holds thread)
    (hevent : InTurns use.raw (pool.log thread ++ [event])) :
    ((pool.record thread event).setThread thread use).Invariant poolSize where
  leased := by
    have hholds : ((pool.record thread event).setThread thread use).holds = pool.holds := by
      rw [holds_setThread, hclient]
      cases event <;> exact Function.update_eq_self thread pool.holds
    rw [hholds]
    cases event <;> exact hinv.leased
  inTurns := inTurns_record hinv.inTurns hevent

omit [DecidableEq Raw] in
/-- `getIdleClient`. -/
theorem Invariant.getIdleClient (hinv : pool.Invariant poolSize) {rawClt : Raw}
    (hthread : pool.threads thread = .popped rawClt) {found : IdleSearch Client}
    (hfound : found.Possible poolSize pool.allocated pool.clt2idle) :
    Invariant poolSize ({ pool with
      allocated := found.allocated pool.allocated
      clt2idle := found.entries pool.clt2idle }.setThread thread
        (found.client.elim (.pushing rawClt) (.holding rawClt))) where
  leased := by
    have hclient : (found.client.elim (.pushing rawClt) (.holding rawClt) :
        MongoUse Client Raw).client = found.client := by
      cases found <;> rfl
    rw [holds_setThread, hclient]
    exact leased_search thread hinv.leased hfound
  inTurns := by
    refine inTurns_setThread hinv.inTurns ?_
    rw [hthread]
    cases found <;> rfl

omit [DecidableEq Raw] in
/-- `markClientIdle`. -/
theorem Invariant.markClientIdle (hinv : pool.Invariant poolSize) {rawClt : Raw} {dbClt : Client}
    (hthread : pool.threads thread = .markingIdle rawClt dbClt) :
    ({ pool with clt2idle := markedIdle pool.clt2idle dbClt }.setThread thread
      (.pushing rawClt)).Invariant poolSize where
  leased := by
    rw [holds_setThread]
    exact hinv.leased.giveBack (congrArg MongoUse.client hthread)
  inTurns := by
    refine inTurns_setThread hinv.inTurns ?_
    rw [hthread]
    rfl

theorem Invariant.step (hinv : pool.Invariant poolSize) {action : MongoAction Thread Client Raw}
    (hstep : pool.step poolSize action = some next) : next.Invariant poolSize := by
  cases action with
  | tryPop thread rawClt =>
    simp only [MongoClients.step] at hstep
    split at hstep
    · cases hstep
      exact hinv
    · rename_i rawClt hthread
      split_ifs at hstep
      cases hstep
      have hturns := hinv.inTurns thread
      rw [hthread] at hturns
      exact hinv.record (congrArg MongoUse.client hthread).symm (inTurns_pop hturns rawClt)
    · cases hstep
  | getIdleClient thread found =>
    simp only [MongoClients.step] at hstep
    split at hstep
    · rename_i rawClt hthread
      split_ifs at hstep with hfound
      cases hstep
      exact hinv.getIdleClient hthread hfound
    · cases hstep
  | attach thread ok =>
    simp only [MongoClients.step] at hstep
    split at hstep
    · rename_i rawClt dbClt hthread
      cases hstep
      refine hinv.setThread ?_ ?_
      · rw [show pool.holds thread = some dbClt from congrArg MongoUse.client hthread]
        cases ok <;> rfl
      · rw [hthread]
        cases ok <;> rfl
    · cases hstep
  | handleRequest thread =>
    simp only [MongoClients.step] at hstep
    split at hstep
    · rename_i rawClt dbClt hthread
      cases hstep
      exact hinv.setThread (congrArg MongoUse.client hthread).symm (by rw [hthread]; rfl)
    · cases hstep
  | markClientIdle thread =>
    simp only [MongoClients.step] at hstep
    split at hstep
    · rename_i rawClt dbClt hthread
      cases hstep
      exact hinv.markClientIdle hthread
    · cases hstep
  | push thread =>
    simp only [MongoClients.step] at hstep
    split at hstep
    · rename_i rawClt hthread
      cases hstep
      have hturns := hinv.inTurns thread
      rw [hthread] at hturns
      exact hinv.record (congrArg MongoUse.client hthread).symm (inTurns_push hturns)
    · cases hstep

end Steps

/-- The clients are used exclusively: no client is held by two workers, there are no more clients
than the pool may have, and each worker pushes each raw client that it pops once, before it pops the
next one. -/
structure Exclusive (poolSize : ℕ) (pool : MongoClients Thread Client Raw) : Prop where
  held_once : ∀ first second dbClt, (pool.threads first).client = some dbClt →
    (pool.threads second).client = some dbClt → first = second
  size_le : pool.clt2idle.keys.length ≤ poolSize
  pushed_back : ∀ thread, InTurns (pool.threads thread).raw (pool.log thread)

omit [DecidableEq Thread] [DecidableEq Raw] in
theorem Invariant.exclusive {poolSize : ℕ} {pool : MongoClients Thread Client Raw}
    (hinv : pool.Invariant poolSize) : pool.Exclusive poolSize where
  held_once := hinv.leased.unshared
  size_le := hinv.leased.length_le
  pushed_back := hinv.inTurns

end MongoClients

/-! ### The result -/

/-- Every run of a pool of MySQL or Redis clients, and every run of a pool of MongoDB clients, of
any size and with any threads, keeps the clients in exclusive use. -/
theorem exclusive_use (Thread Client Raw : Type*) [DecidableEq Thread] [DecidableEq Client]
    [DecidableEq Raw] (poolSize : ℕ) :
    (∀ (kind : ConnectingPool) (actions : List (ClientAction Thread Client))
        (final : PooledClients Thread Client),
      runFrom (PooledClients.step kind poolSize) .new actions = some final →
        final.Exclusive poolSize) ∧
    ∀ (actions : List (MongoAction Thread Client Raw)) (final : MongoClients Thread Client Raw),
      runFrom (MongoClients.step poolSize) .new actions = some final →
        final.Exclusive poolSize := by
  constructor
  · intro kind actions final hrun
    exact (runFrom_invariant (PooledClients.Invariant poolSize)
      (fun _ _ _ hstate hstep ↦ hstate.step hstep) (PooledClients.invariant_new poolSize)
      hrun).exclusive
  · intro actions final hrun
    exact (runFrom_invariant (MongoClients.Invariant poolSize)
      (fun _ _ _ hstate hstep ↦ hstate.step hstep) (MongoClients.invariant_new poolSize)
      hrun).exclusive

/-- A Redis client loses its connection and is deleted, the next new one has its address, is marked
idle and is taken by another worker. A MongoDB worker fails to attach, marks its client idle and
pushes the raw client back, which another one pops. -/
theorem exclusive_use_reused_address :
    (∃ final : PooledClients ℕ ℕ, runFrom (PooledClients.step .redis 1) .new
        [.getIdleClient 0 .worker (.new 7), .connect 0 true, .finishConnect 0, .useClient 0,
          .handle 0 false, .checkConnState 0, .closeClient 0, .deleteClient 0,
          .getIdleClient 1 .worker (.new 7), .connect 1 true, .finishConnect 1, .useClient 1,
          .handle 1 true, .checkConnState 1, .markClientIdle 1,
          .getIdleClient 0 .worker (.idle 7)] = some final ∧
      (final.threads 0).client = some 7 ∧ final.Exclusive 1) ∧
    ∃ final : MongoClients ℕ ℕ ℕ, runFrom (MongoClients.step 1) .new
        [.tryPop 0 (some 3), .getIdleClient 0 (.new 7), .attach 0 false, .markClientIdle 0,
          .push 0, .tryPop 1 (some 3), .getIdleClient 1 (.idle 7), .attach 1 true] = some final ∧
      (final.threads 1).client = some 7 ∧ final.Exclusive 1 :=
  ⟨⟨_, rfl, rfl, (exclusive_use ℕ ℕ ℕ 1).1 .redis
      [.getIdleClient 0 .worker (.new 7), .connect 0 true, .finishConnect 0, .useClient 0,
        .handle 0 false, .checkConnState 0, .closeClient 0, .deleteClient 0,
        .getIdleClient 1 .worker (.new 7), .connect 1 true, .finishConnect 1, .useClient 1,
        .handle 1 true, .checkConnState 1, .markClientIdle 1,
        .getIdleClient 0 .worker (.idle 7)] _ rfl⟩,
    ⟨_, rfl, rfl, (exclusive_use ℕ ℕ ℕ 1).2
      [.tryPop 0 (some 3), .getIdleClient 0 (.new 7), .attach 0 false, .markClientIdle 0,
        .push 0, .tryPop 1 (some 3), .getIdleClient 1 (.idle 7), .attach 1 true] _ rfl⟩⟩

end TszyUlt.Wjp
