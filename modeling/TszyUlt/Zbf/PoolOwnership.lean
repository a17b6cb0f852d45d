import Mathlib.Data.List.Nodup
import TszyUlt.Zbf.HaPool

/-!
# Who has a client of a pool

`zbf/socket_tcp_v5.hpp`: `tcpsock_cltpool` with any number of calls of `send` and `keepAlive`. A
call of `send` takes a client off the idle list, or makes a new one: it is recorded in `_clients`,
connected outside the lock, and put into the idle list, or erased and deleted when it could not be
connected. A call of `keepAlive` takes the clients that need a heartbeat and puts them back when it
has sent to each.

`PoolCalls` is the pool with the calls under way. `Invariant` counts the clients: each is as often
in `_clients` as in the idle list and with the calls together, which is once. So each has exactly
one owner (`Owned.owner`), and no step uses one that was deleted (`usable_of_invariant`).

Scope. The pool is open, and `close` is not called. What `connect` and `send` of a client return is
an input. A client is its sequence number.
-/

set_option autoImplicit false
set_option relaxedAutoImplicit false

namespace TszyUlt.Zbf

open Lib

/-! ### The pool with its calls -/

/-- The clients that a call of `send` has. -/
def PoolAt.clients : PoolAt → List ℕ
  | .connecting client => [client]
  | .placing client _ => [client]
  | .sending client => [client]
  | .returning client _ => [client]
  | .popping => []
  | .taking => []
  | .done _ => []

/-- The client that a call of `send` has made and not put into the idle list yet. -/
def PoolAt.newClient : PoolAt → Option ℕ
  | .connecting client => some client
  | .placing client _ => some client
  | _ => none

/-- The client that a step of `send` deletes. -/
def PoolAt.deletes : PoolAt → PoolAction → List ℕ
  | .placing client rc, .placeClient => if rc = 0 then [] else [client]
  | _, _ => []

/-- The clients that a step of `send` uses: one that is connected, sent to or deleted. -/
def PoolAt.uses : PoolAt → PoolAction → List ℕ
  | .connecting client, .connect _ => [client]
  | .sending client, .sendReq _ => [client]
  | place, action => place.deletes action

/-- Where a call of `keepAlive` stands: at the heartbeats, with its list and those still to be
sent, or at its end. -/
inductive KeepCall
  | beating (hbList todo : List ℕ)
  | done
  deriving DecidableEq, Repr

/-- The clients that a call of `keepAlive` has. -/
def KeepCall.clients : KeepCall → List ℕ
  | .beating hbList _ => hbList
  | .done => []

/-- `tcpsock_cltpool` with the calls of `send` and `keepAlive`, and what an observer records: the
clients that were made, with the call that made them, and those that were deleted. -/
structure PoolCalls where
  pool : CltPool
  sends : List PoolAt := []
  keeps : List KeepCall := []
  made : List (ℕ × ℕ) := []
  deleted : List ℕ := []
  deriving DecidableEq, Repr

/-- A step of a thread. -/
inductive PoolCallAction
  | send
  | sendStep (tag : ℕ) (action : PoolAction)
  | keepAlive (needHeartbeat : ℕ → Bool)
  | heartbeat (tag : ℕ) (rc : Int32)
  | putBack (tag : ℕ)

namespace PoolCalls

/-- After `open`, with what `connect` returned. -/
def opened (poolSize : ℕ) (rc : Int32) : PoolCalls := { pool := .openPool poolSize rc }

/-- The client that a call of `send` makes, with the call. -/
def makes (tag : ℕ) (place : PoolAt) (place' : PoolAt) : List (ℕ × ℕ) :=
  match place, place' with
  | .popping, .connecting client => [(client, tag)]
  | _, _ => []

/-- The steps of the threads. -/
def step (calls : PoolCalls) : PoolCallAction → Option PoolCalls
  | .send => some { calls with sends := calls.sends ++ [.popping] }
  | .sendStep tag action =>
    match calls.sends[tag]? with
    | none => none
    | some place =>
      (calls.pool.sendStep place action).map fun (pool, place') ↦
        { calls with
          pool := pool
          sends := calls.sends.set tag place'
          made := calls.made ++ makes tag place place'
          deleted := calls.deleted ++ place.deletes action }
  | .keepAlive needHeartbeat =>
    let (hbList, pool) := calls.pool.collect needHeartbeat
    some { calls with pool := pool, keeps := calls.keeps ++ [.beating hbList hbList] }
  | .heartbeat tag _ =>
    match calls.keeps[tag]? with
    | some (.beating hbList (_ :: todo)) =>
      some { calls with keeps := calls.keeps.set tag (.beating hbList todo) }
    | _ => none
  | .putBack tag =>
    match calls.keeps[tag]? with
    | some (.beating hbList []) =>
      some { calls with pool := calls.pool.putBack hbList, keeps := calls.keeps.set tag .done }
    | _ => none

/-- The clients that a step uses. `keepAlive` asks each idle client whether it needs a heartbeat. -/
def uses (calls : PoolCalls) : PoolCallAction → List ℕ
  | .send => []
  | .sendStep tag action =>
    match calls.sends[tag]? with
    | some place => place.uses action
    | none => []
  | .keepAlive _ => calls.pool.idleList
  | .heartbeat tag _ =>
    match calls.keeps[tag]? with
    | some (.beating _ (client :: _)) => [client]
    | _ => []
  | .putBack _ => []

/-- Who may have a client. -/
inductive Owner
  | idleList
  | sender (tag : ℕ)
  | keepAlive (tag : ℕ)
  /-- The call of `send` that has made it and connects it. -/
  | maker (tag : ℕ)
  deriving DecidableEq, Repr

/-- An owner has a client. -/
def Owns (calls : PoolCalls) (client : ℕ) : Owner → Prop
  | .idleList => client ∈ calls.pool.idleList
  | .sender tag => ∃ place, calls.sends[tag]? = some place ∧ client ∈ place.clients ∧
      place.newClient ≠ some client
  | .keepAlive tag => ∃ keep, calls.keeps[tag]? = some keep ∧ client ∈ keep.clients
  | .maker tag => ∃ place, calls.sends[tag]? = some place ∧ place.newClient = some client ∧
      (client, tag) ∈ calls.made

/-- Each client of the pool has one owner. -/
structure Owned (poolSize : ℕ) (calls : PoolCalls) : Prop where
  nodup : calls.pool.clients.Nodup
  length_le : calls.pool.clients.length ≤ poolSize
  nodup_idleList : calls.pool.idleList.Nodup
  subset : calls.pool.idleList ⊆ calls.pool.clients
  owner : ∀ client ∈ calls.pool.clients, ∃! owner, calls.Owns client owner

/-- No step that can happen uses a client that was deleted. -/
def UsesAlive (calls : PoolCalls) : Prop :=
  ∀ action, (calls.step action).isSome → ∀ client ∈ calls.uses action, client ∉ calls.deleted

end PoolCalls

/-! ### What a step of `send` does to the clients -/

/-- What a step of `send` can do to the clients of a pool. -/
inductive ClientMoves (pool next : CltPool) (place place' : PoolAt) (action : PoolAction) : Prop
  /-- The clients are as before; one may have moved between the call and the idle list. -/
  | moved (hclients : next.clients = pool.clients) (hseq : next.clientSeq = pool.clientSeq)
      (hdeletes : place.deletes action = [])
      (hcount : ∀ client, next.idleList.count client + place'.clients.count client =
        pool.idleList.count client + place.clients.count client)
      (hnew : place'.newClient = none ∨ place'.newClient = place.newClient)
  | made (hroom : pool.clients.length < pool.poolSize)
      (hclients : next.clients = pool.clients ++ [pool.clientSeq])
      (hseq : next.clientSeq = pool.clientSeq + 1) (hidle : next.idleList = pool.idleList)
      (hdeletes : place.deletes action = []) (hplace : place = .popping)
      (hplace' : place' = .connecting pool.clientSeq)
  | deleted (client : ℕ) (hclients : next.clients = pool.clients.erase client)
      (hseq : next.clientSeq = pool.clientSeq) (hidle : next.idleList = pool.idleList)
      (hdeletes : place.deletes action = [client]) (hplace : place.clients = [client])
      (hplace' : place' = .taking)

namespace CltPool

variable {pool next : CltPool} {place place' : PoolAt} {action : PoolAction}

theorem sendStep_moves (hstep : pool.sendStep place action = some (next, place')) :
    ClientMoves pool next place place' action ∧ next.poolSize = pool.poolSize := by
  unfold sendStep at hstep
  split at hstep
  · unfold newClient at hstep
    by_cases hroom : pool.clients.length < pool.poolSize ∧ pool.idleList = []
    · rw [if_pos hroom] at hstep
      cases hstep
      exact ⟨.made hroom.1 rfl rfl rfl rfl rfl rfl, rfl⟩
    · rw [if_neg hroom] at hstep
      cases hstep
      exact ⟨.moved rfl rfl rfl (fun _ ↦ rfl) (Or.inl rfl), rfl⟩
  · cases hstep
    exact ⟨.moved rfl rfl rfl (fun _ ↦ rfl) (Or.inr rfl), rfl⟩
  · rename_i client rc
    cases hstep
    unfold placeClient
    by_cases hrc : rc = 0
    · rw [if_pos hrc]
      refine ⟨.moved rfl rfl (if_pos hrc) (fun other ↦ ?_) (Or.inl rfl), rfl⟩
      rw [List.count_append]
      rfl
    · rw [if_neg hrc]
      exact ⟨.deleted client rfl rfl rfl (if_neg hrc) rfl rfl, rfl⟩
  · split at hstep
    · cases hstep
    next client rest hidle =>
      cases hstep
      refine ⟨.moved rfl rfl rfl (fun other ↦ ?_) (Or.inl rfl), rfl⟩
      rw [hidle, List.count_cons]
      show rest.count other + [client].count other = _ + ([] : List ℕ).count other
      rw [List.count_singleton, List.count_nil, Nat.add_zero]
  · split at hstep
    · cases hstep
      exact ⟨.moved rfl rfl rfl (fun _ ↦ rfl) (Or.inl rfl), rfl⟩
    · cases hstep
  · cases hstep
    exact ⟨.moved rfl rfl rfl (fun _ ↦ rfl) (Or.inl rfl), rfl⟩
  · cases hstep
    refine ⟨.moved rfl rfl rfl (fun other ↦ ?_) (Or.inl rfl), rfl⟩
    rw [pushClientBack, List.count_append]
    rfl
  · cases hstep

end CltPool

/-! ### The invariant -/

namespace PoolCalls

variable {poolSize : ℕ} {calls next : PoolCalls} {action : PoolCallAction}

/-- The clients are counted: each is as often in `_clients` as in the idle list and with the calls
together, and those that were deleted are not there. -/
structure Invariant (poolSize : ℕ) (calls : PoolCalls) : Prop where
  poolSize_eq : calls.pool.poolSize = poolSize
  nodup : calls.pool.clients.Nodup
  length_le : calls.pool.clients.length ≤ poolSize
  count : ∀ client, calls.pool.clients.count client = calls.pool.idleList.count client +
    (calls.sends.flatMap PoolAt.clients).count client +
      (calls.keeps.flatMap KeepCall.clients).count client
  below : ∀ client ∈ calls.pool.clients, client < calls.pool.clientSeq
  deleted : ∀ client ∈ calls.deleted, client < calls.pool.clientSeq ∧ client ∉ calls.pool.clients
  todo : ∀ (tag : ℕ) (hbList todo : List ℕ), calls.keeps[tag]? = some (.beating hbList todo) →
    todo ⊆ hbList
  maker : ∀ (tag : ℕ) (place : PoolAt) (client : ℕ), calls.sends[tag]? = some place →
    place.newClient = some client → (client, tag) ∈ calls.made

theorem invariant_opened (hsize : 1 ≤ poolSize) (rc : Int32) :
    (opened poolSize rc).Invariant poolSize where
  poolSize_eq := rfl
  nodup := List.nodup_singleton 1
  length_le := hsize
  count _ := rfl
  below client hmem := by
    rw [List.mem_singleton.mp hmem]
    exact Nat.one_lt_two
  deleted _ hmem := absurd hmem List.not_mem_nil
  todo _ _ _ hkeep := by cases hkeep
  maker _ _ _ hplace := by cases hplace

/-- A call of `send` begins. -/
theorem Invariant.send (hinv : calls.Invariant poolSize) :
    Invariant poolSize { calls with sends := calls.sends ++ [.popping] } where
  poolSize_eq := hinv.poolSize_eq
  nodup := hinv.nodup
  length_le := hinv.length_le
  count client := by
    rw [List.flatMap_append, List.count_append]
    exact hinv.count client
  below := hinv.below
  deleted := hinv.deleted
  todo := hinv.todo
  maker tag place client hplace hnew := by
    rcases getElem?_concat_cases hplace with hold | ⟨-, rfl⟩
    · exact hinv.maker tag place client hold hnew
    · cases hnew

/-- The calls that have made a client are recorded after a step of one of them. -/
theorem Invariant.maker_set (hinv : calls.Invariant poolSize) {tag : ℕ} {place place' : PoolAt}
    (hplace : calls.sends[tag]? = some place)
    (hnew : ∀ client, place'.newClient = some client →
      place.newClient = some client ∨ (client, tag) ∈ makes tag place place')
    (other : ℕ) (found : PoolAt) (client : ℕ)
    (hfound : (calls.sends.set tag place')[other]? = some found)
    (hclient : found.newClient = some client) :
    (client, other) ∈ calls.made ++ makes tag place place' := by
  rcases getElem?_set_cases hfound with ⟨rfl, rfl⟩ | ⟨-, hold⟩
  · rcases hnew client hclient with hbefore | hmade
    · exact List.mem_append_left _ (hinv.maker other place client hplace hbefore)
    · exact List.mem_append_right _ hmade
  · exact List.mem_append_left _ (hinv.maker other found client hold hclient)

/-- After a step of a call of `send`, which has deleted some clients. -/
def afterSend (calls : PoolCalls) (tag : ℕ) (place place' : PoolAt) (pool : CltPool)
    (gone : List ℕ) : PoolCalls :=
  { calls with
    pool := pool
    sends := calls.sends.set tag place'
    made := calls.made ++ makes tag place place'
    deleted := calls.deleted ++ gone }

section AfterSend

variable {tag : ℕ} {place place' : PoolAt} {pool : CltPool}

/-- The clients are as before, and the step has moved one at most. -/
theorem Invariant.moved (hinv : calls.Invariant poolSize) (hplace : calls.sends[tag]? = some place)
    (hpoolSize : pool.poolSize = calls.pool.poolSize)
    (hclients : pool.clients = calls.pool.clients) (hseq : pool.clientSeq = calls.pool.clientSeq)
    (hcount : ∀ client, pool.idleList.count client + place'.clients.count client =
      calls.pool.idleList.count client + place.clients.count client)
    (hnew : place'.newClient = none ∨ place'.newClient = place.newClient) :
    (calls.afterSend tag place place' pool []).Invariant poolSize where
  poolSize_eq := hpoolSize.trans hinv.poolSize_eq
  nodup := by
    rw [afterSend, hclients]
    exact hinv.nodup
  length_le := by
    rw [afterSend, hclients]
    exact hinv.length_le
  count client := by
    have hbefore := hinv.count client
    have hhere := hcount client
    have hthere := count_flatMap_set_add PoolAt.clients hplace place' client
    dsimp only [afterSend]
    rw [hclients]
    omega
  below := by
    rw [afterSend, hclients, hseq]
    exact hinv.below
  deleted := by
    rw [afterSend, hclients, hseq, List.append_nil]
    exact hinv.deleted
  todo := hinv.todo
  maker := hinv.maker_set hplace fun client hclient ↦ by
    rcases hnew with hnone | hsame
    · rw [hnone] at hclient
      cases hclient
    · exact Or.inl (hsame ▸ hclient)

/-- The step has made a client, which the call connects. -/
theorem Invariant.made (hinv : calls.Invariant poolSize)
    (hplace : calls.sends[tag]? = some .popping)
    (hpoolSize : pool.poolSize = calls.pool.poolSize)
    (hroom : calls.pool.clients.length < calls.pool.poolSize)
    (hclients : pool.clients = calls.pool.clients ++ [calls.pool.clientSeq])
    (hseq : pool.clientSeq = calls.pool.clientSeq + 1)
    (hidle : pool.idleList = calls.pool.idleList) :
    (calls.afterSend tag .popping (.connecting calls.pool.clientSeq) pool []).Invariant
      poolSize where
  poolSize_eq := hpoolSize.trans hinv.poolSize_eq
  nodup := by
    have hfresh : calls.pool.clientSeq ∉ calls.pool.clients :=
      fun hmem ↦ absurd (hinv.below _ hmem) (Nat.lt_irrefl _)
    rw [afterSend, hclients]
    exact List.concat_eq_append ▸ (List.nodup_concat _ _).mpr ⟨hfresh, hinv.nodup⟩
  length_le := by
    rw [afterSend, hclients, List.length_append, List.length_singleton, ← hinv.poolSize_eq]
    exact hroom
  count client := by
    have hbefore := hinv.count client
    have hthere := count_flatMap_set_add PoolAt.clients hplace
      (.connecting calls.pool.clientSeq) client
    simp only [PoolAt.clients, List.count_nil, Nat.add_zero] at hthere
    dsimp only [afterSend]
    rw [hclients, hidle, List.count_append]
    omega
  below := by
    rw [afterSend, hclients, hseq, List.forall_mem_append, List.forall_mem_singleton]
    exact ⟨fun client hmem ↦ Nat.lt_succ_of_lt (hinv.below client hmem), Nat.lt_succ_self _⟩
  deleted := by
    rw [afterSend, hclients, hseq, List.append_nil]
    intro client hmem
    obtain ⟨hlt, hnot⟩ := hinv.deleted client hmem
    refine ⟨Nat.lt_succ_of_lt hlt, fun hthere ↦ ?_⟩
    rcases List.mem_append.mp hthere with hold | hnew
    · exact hnot hold
    · exact absurd (List.mem_singleton.mp hnew) (Nat.ne_of_lt hlt)
  todo := hinv.todo
  maker := hinv.maker_set hplace fun client hclient ↦ by
    cases hclient
    exact Or.inr (List.mem_singleton_self _)

/-- The step has deleted the client of the call. -/
theorem Invariant.erased (hinv : calls.Invariant poolSize)
    (hplace : calls.sends[tag]? = some place)
    (hpoolSize : pool.poolSize = calls.pool.poolSize) {client : ℕ}
    (hclients : pool.clients = calls.pool.clients.erase client)
    (hseq : pool.clientSeq = calls.pool.clientSeq)
    (hidle : pool.idleList = calls.pool.idleList) (hheld : place.clients = [client]) :
    (calls.afterSend tag place .taking pool [client]).Invariant poolSize where
  poolSize_eq := hpoolSize.trans hinv.poolSize_eq
  nodup := by
    rw [afterSend, hclients]
    exact hinv.nodup.erase client
  length_le := by
    rw [afterSend, hclients]
    exact Nat.le_trans List.length_erase_le hinv.length_le
  count other := by
    have hbefore := hinv.count other
    have hthere := count_flatMap_set_add PoolAt.clients hplace .taking other
    rw [hheld, List.count_singleton] at hthere
    simp only [PoolAt.clients, List.count_nil, Nat.add_zero] at hthere
    dsimp only [afterSend]
    rw [hclients, hidle, List.count_erase]
    omega
  below := by
    rw [afterSend, hclients, hseq]
    exact fun other hother ↦ hinv.below other (List.mem_of_mem_erase hother)
  deleted := by
    have hmem : client ∈ calls.pool.clients := by
      have hbefore := hinv.count client
      have hpos : 0 < (calls.sends.flatMap PoolAt.clients).count client :=
        List.count_pos_iff.mpr (List.mem_flatMap.mpr ⟨place, List.mem_of_getElem? hplace,
          hheld ▸ List.mem_singleton_self client⟩)
      exact List.count_pos_iff.mp (by omega)
    rw [afterSend, hclients, hseq, List.forall_mem_append, List.forall_mem_singleton]
    refine ⟨fun other hother ↦ ?_, hinv.below client hmem, List.Nodup.not_mem_erase hinv.nodup⟩
    exact ⟨(hinv.deleted other hother).1,
      fun hleft ↦ (hinv.deleted other hother).2 (List.mem_of_mem_erase hleft)⟩
  todo := hinv.todo
  maker := hinv.maker_set hplace fun _ hother ↦ by cases hother

/-- A call of `send` takes a step. -/
theorem Invariant.sendStep (hinv : calls.Invariant poolSize) {inner : PoolAction}
    (hplace : calls.sends[tag]? = some place)
    (hstep : calls.pool.sendStep place inner = some (pool, place')) :
    (calls.afterSend tag place place' pool (place.deletes inner)).Invariant poolSize := by
  obtain ⟨hmoves, hpoolSize⟩ := CltPool.sendStep_moves hstep
  cases hmoves with
  | moved hclients hseq hdeletes hcount hnew =>
    rw [hdeletes]
    exact hinv.moved hplace hpoolSize hclients hseq hcount hnew
  | made hroom hclients hseq hidle hdeletes hpopping hconnecting =>
    rw [hdeletes]
    subst hpopping hconnecting
    exact hinv.made hplace hpoolSize hroom hclients hseq hidle
  | deleted client hclients hseq hidle hdeletes hheld htaking =>
    rw [hdeletes]
    subst htaking
    exact hinv.erased hplace hpoolSize hclients hseq hidle hheld

end AfterSend

/-- `keepAlive` takes the clients that need a heartbeat off the idle list. -/
theorem Invariant.collect (hinv : calls.Invariant poolSize) (needHeartbeat : ℕ → Bool) :
    Invariant poolSize { calls with
      pool := (calls.pool.collect needHeartbeat).2
      keeps := calls.keeps ++ [.beating (calls.pool.collect needHeartbeat).1
        (calls.pool.collect needHeartbeat).1] } where
  poolSize_eq := hinv.poolSize_eq
  nodup := hinv.nodup
  length_le := hinv.length_le
  count client := by
    have hbefore := hinv.count client
    have hsplit := (List.filter_append_perm needHeartbeat calls.pool.idleList).count_eq client
    rw [List.count_append] at hsplit
    rw [List.flatMap_append, List.count_append, List.flatMap_singleton]
    simp only [CltPool.collect, KeepCall.clients]
    omega
  below := hinv.below
  deleted := hinv.deleted
  todo tag hbList todo hkeep := by
    rcases getElem?_concat_cases hkeep with hold | ⟨-, heq⟩
    · exact hinv.todo tag hbList todo hold
    · cases heq
      exact List.Subset.refl _
  maker := hinv.maker

/-- `keepAlive` sends a heartbeat. -/
theorem Invariant.heartbeat (hinv : calls.Invariant poolSize) {tag client : ℕ}
    {hbList todo : List ℕ} (hkeep : calls.keeps[tag]? = some (.beating hbList (client :: todo))) :
    Invariant poolSize { calls with keeps := calls.keeps.set tag (.beating hbList todo) } where
  poolSize_eq := hinv.poolSize_eq
  nodup := hinv.nodup
  length_le := hinv.length_le
  count other := by
    have hbefore := hinv.count other
    have hkeeps := count_flatMap_set_add KeepCall.clients hkeep (.beating hbList todo) other
    simp only [KeepCall.clients] at hkeeps
    dsimp only
    omega
  below := hinv.below
  deleted := hinv.deleted
  todo other hbList' todo' hother := by
    rcases getElem?_set_cases hother with ⟨rfl, heq⟩ | ⟨-, hold⟩
    · cases heq
      exact (List.cons_subset.mp (hinv.todo other hbList _ hkeep)).2
    · exact hinv.todo other hbList' todo' hold
  maker := hinv.maker

/-- `keepAlive` puts its clients back into the idle list. -/
theorem Invariant.putBack (hinv : calls.Invariant poolSize) {tag : ℕ} {hbList todo : List ℕ}
    (hkeep : calls.keeps[tag]? = some (.beating hbList todo)) :
    Invariant poolSize { calls with
      pool := calls.pool.putBack hbList
      keeps := calls.keeps.set tag .done } where
  poolSize_eq := hinv.poolSize_eq
  nodup := hinv.nodup
  length_le := hinv.length_le
  count other := by
    have hbefore := hinv.count other
    have hkeeps := count_flatMap_set_add KeepCall.clients hkeep .done other
    simp only [KeepCall.clients, List.count_nil, Nat.add_zero] at hkeeps
    simp only [CltPool.putBack, List.count_append]
    omega
  below := hinv.below
  deleted := hinv.deleted
  todo other hbList' todo' hother := by
    rcases getElem?_set_cases hother with ⟨-, heq⟩ | ⟨-, hold⟩
    · cases heq
    · exact hinv.todo other hbList' todo' hold
  maker := hinv.maker

theorem Invariant.step (hinv : calls.Invariant poolSize) (hstep : calls.step action = some next) :
    next.Invariant poolSize := by
  unfold PoolCalls.step at hstep
  cases action with
  | send =>
    cases hstep
    exact hinv.send
  | sendStep tag inner =>
    dsimp only at hstep
    split at hstep
    · cases hstep
    next place hplace =>
      obtain ⟨⟨pool, place'⟩, hsend, rfl⟩ := Option.map_eq_some_iff.mp hstep
      exact hinv.sendStep hplace hsend
  | keepAlive needHeartbeat =>
    cases hstep
    exact hinv.collect needHeartbeat
  | heartbeat tag rc =>
    dsimp only at hstep
    split at hstep
    next hbList client todo hkeep =>
      cases hstep
      exact hinv.heartbeat hkeep
    · cases hstep
  | putBack tag =>
    dsimp only at hstep
    split at hstep
    next hbList hkeep =>
      cases hstep
      exact hinv.putBack hkeep
    · cases hstep

theorem invariant_of_run (hsize : 1 ≤ poolSize) {rc : Int32} {actions : List PoolCallAction}
    (hrun : runFrom PoolCalls.step (opened poolSize rc) actions = some calls) :
    calls.Invariant poolSize :=
  runFrom_invariant (Invariant poolSize) (fun _ _ _ hinv hstep ↦ hinv.step hstep)
    (invariant_opened hsize rc) hrun

/-! ### The owners -/

/-- The client that a call of `send` has made is with this call. -/
theorem held_of_maker {client tag : ℕ} (howns : calls.Owns client (.maker tag)) :
    ∃ place, calls.sends[tag]? = some place ∧ client ∈ place.clients := by
  obtain ⟨place, hplace, hnew, -⟩ := howns
  refine ⟨place, hplace, ?_⟩
  cases place with
  | connecting made =>
    cases hnew
    exact List.mem_singleton_self client
  | placing made rc =>
    cases hnew
    exact List.mem_singleton_self client
  | _ => cases hnew

/-- A call of `send` that has a client has made it, or has taken it. -/
theorem Invariant.owns_of_sends (hinv : calls.Invariant poolSize) {client tag : ℕ} {place : PoolAt}
    (hplace : calls.sends[tag]? = some place) (hmem : client ∈ place.clients) :
    place.newClient = some client ∧ calls.Owns client (.maker tag) ∨
      place.newClient ≠ some client ∧ calls.Owns client (.sender tag) := by
  by_cases hnew : place.newClient = some client
  · exact Or.inl ⟨hnew, place, hplace, hnew, hinv.maker tag place client hplace hnew⟩
  · exact Or.inr ⟨hnew, place, hplace, hmem, hnew⟩

/-- Assumes: no call has the client. It has no owner but the idle list. -/
theorem eq_idleList_of_owns {client : ℕ} {owner : Owner}
    (hsends : (calls.sends.flatMap PoolAt.clients).count client = 0)
    (hkeeps : (calls.keeps.flatMap KeepCall.clients).count client = 0)
    (howns : calls.Owns client owner) : owner = .idleList := by
  cases owner with
  | idleList => rfl
  | sender tag =>
    obtain ⟨place, hplace, hmem, -⟩ := howns
    exact absurd hmem (not_mem_held hsends hplace)
  | keepAlive tag =>
    obtain ⟨keep, hkeep, hmem⟩ := howns
    exact absurd hmem (not_mem_held hkeeps hkeep)
  | maker tag =>
    obtain ⟨place, hplace, hmem⟩ := held_of_maker howns
    exact absurd hmem (not_mem_held hsends hplace)

/-- Assumes: the client is with one call of `send`, and nowhere else. It has one owner. -/
theorem Invariant.owner_of_sends (hinv : calls.Invariant poolSize) {client : ℕ}
    (hidle : client ∉ calls.pool.idleList)
    (hsends : (calls.sends.flatMap PoolAt.clients).count client = 1)
    (hkeeps : (calls.keeps.flatMap KeepCall.clients).count client = 0) :
    ∃! owner, calls.Owns client owner := by
  obtain ⟨tag, ⟨place, hplace, hmem⟩, hunique⟩ := existsUnique_holder hsends
  have hsame : ∀ other found, calls.sends[other]? = some found → client ∈ found.clients →
      other = tag ∧ found = place := by
    intro other found hfound hclient
    obtain rfl := hunique other ⟨found, hfound, hclient⟩
    exact ⟨rfl, Option.some.inj (hfound.symm.trans hplace)⟩
  rcases hinv.owns_of_sends hplace hmem with ⟨hnew, howns⟩ | ⟨hnew, howns⟩
  · refine ⟨.maker tag, howns, ?_⟩
    rintro (_ | other | other | other) hother
    · exact absurd hother hidle
    · obtain ⟨found, hfound, hclient, hnot⟩ := hother
      obtain ⟨-, rfl⟩ := hsame other found hfound hclient
      exact absurd hnew hnot
    · obtain ⟨keep, hkeep, hclient⟩ := hother
      exact absurd hclient (not_mem_held hkeeps hkeep)
    · obtain ⟨found, hfound, hclient⟩ := held_of_maker hother
      exact congrArg Owner.maker (hsame other found hfound hclient).1
  · refine ⟨.sender tag, howns, ?_⟩
    rintro (_ | other | other | other) hother
    · exact absurd hother hidle
    · obtain ⟨found, hfound, hclient, -⟩ := hother
      exact congrArg Owner.sender (hsame other found hfound hclient).1
    · obtain ⟨keep, hkeep, hclient⟩ := hother
      exact absurd hclient (not_mem_held hkeeps hkeep)
    · obtain ⟨found, hfound, hmade, hrecorded⟩ := hother
      obtain ⟨found', hfound', hclient⟩ := held_of_maker ⟨found, hfound, hmade, hrecorded⟩
      obtain ⟨-, rfl⟩ := hsame other found' hfound' hclient
      obtain rfl := Option.some.inj (hfound.symm.trans hfound')
      exact absurd hmade hnew

/-- Assumes: the client is with one call of `keepAlive`, and nowhere else. It has one owner. -/
theorem owner_of_keeps {client : ℕ} (hidle : client ∉ calls.pool.idleList)
    (hsends : (calls.sends.flatMap PoolAt.clients).count client = 0)
    (hkeeps : (calls.keeps.flatMap KeepCall.clients).count client = 1) :
    ∃! owner, calls.Owns client owner := by
  obtain ⟨tag, ⟨keep, hkeep, hmem⟩, hunique⟩ := existsUnique_holder hkeeps
  refine ⟨.keepAlive tag, ⟨keep, hkeep, hmem⟩, ?_⟩
  rintro (_ | other | other | other) hother
  · exact absurd hother hidle
  · obtain ⟨place, hplace, hclient, -⟩ := hother
    exact absurd hclient (not_mem_held hsends hplace)
  · exact congrArg Owner.keepAlive (hunique other hother)
  · obtain ⟨place, hplace, hclient⟩ := held_of_maker hother
    exact absurd hclient (not_mem_held hsends hplace)

theorem Invariant.owned (hinv : calls.Invariant poolSize) : calls.Owned poolSize where
  nodup := hinv.nodup
  length_le := hinv.length_le
  nodup_idleList := by
    rw [List.nodup_iff_count_le_one]
    intro client
    have honce := List.nodup_iff_count_le_one.mp hinv.nodup client
    have hcount := hinv.count client
    omega
  subset client hmem := by
    have hcount := hinv.count client
    have hpos := List.count_pos_iff.mpr hmem
    exact List.count_pos_iff.mp (by omega)
  owner client hmem := by
    have hone := List.count_eq_one_of_mem hinv.nodup hmem
    have hcount := hinv.count client
    by_cases hidle : client ∈ calls.pool.idleList
    · have hpos := List.count_pos_iff.mpr hidle
      have hsends : (calls.sends.flatMap PoolAt.clients).count client = 0 := by omega
      have hkeeps : (calls.keeps.flatMap KeepCall.clients).count client = 0 := by omega
      exact ⟨.idleList, hidle, fun other hother ↦ eq_idleList_of_owns hsends hkeeps hother⟩
    · rw [List.count_eq_zero.mpr hidle, Nat.zero_add] at hcount
      by_cases hkeeps : (calls.keeps.flatMap KeepCall.clients).count client = 0
      · exact hinv.owner_of_sends hidle (by omega) hkeeps
      · exact owner_of_keeps hidle (by omega) (by omega)

/-- What a call has is among the clients of the pool. -/
theorem Invariant.mem_clients (hinv : calls.Invariant poolSize) {client : ℕ}
    (hheld : client ∈ calls.pool.idleList ∨ client ∈ calls.sends.flatMap PoolAt.clients ∨
      client ∈ calls.keeps.flatMap KeepCall.clients) : client ∈ calls.pool.clients := by
  have hcount := hinv.count client
  rcases hheld with hidle | hsends | hkeeps
  · have hpos := List.count_pos_iff.mpr hidle
    exact List.count_pos_iff.mp (by omega)
  · have hpos := List.count_pos_iff.mpr hsends
    exact List.count_pos_iff.mp (by omega)
  · have hpos := List.count_pos_iff.mpr hkeeps
    exact List.count_pos_iff.mp (by omega)

/-- What a step of `send` uses is with the call. -/
theorem uses_subset (place : PoolAt) (inner : PoolAction) : place.uses inner ⊆ place.clients := by
  intro client hmem
  unfold PoolAt.uses at hmem
  split at hmem
  · exact hmem
  · exact hmem
  · unfold PoolAt.deletes at hmem
    split at hmem
    · split_ifs at hmem
      · cases hmem
      · exact hmem
    · cases hmem

/-- What a step uses is among the clients of the pool, so it was not deleted. -/
theorem usesAlive_of_invariant (hinv : calls.Invariant poolSize) : calls.UsesAlive := by
  intro action _ client huse
  suffices hmem : client ∈ calls.pool.clients from
    fun hdeleted ↦ (hinv.deleted client hdeleted).2 hmem
  cases action with
  | send => cases huse
  | sendStep tag inner =>
    simp only [uses] at huse
    split at huse
    · rename_i place hplace
      exact hinv.mem_clients (Or.inr (Or.inl (List.mem_flatMap.mpr
        ⟨place, List.mem_of_getElem? hplace, uses_subset place inner huse⟩)))
    · cases huse
  | keepAlive needHeartbeat => exact hinv.mem_clients (Or.inl huse)
  | heartbeat tag rc =>
    simp only [uses] at huse
    split at huse
    · rename_i hbList head todo hkeep
      obtain rfl := List.mem_singleton.mp huse
      have hlist := hinv.todo tag hbList _ hkeep List.mem_cons_self
      exact hinv.mem_clients (Or.inr (Or.inr (List.mem_flatMap.mpr
        ⟨_, List.mem_of_getElem? hkeep, hlist⟩)))
    · cases huse
  | putBack tag => cases huse

/-- Assumes: a pool of at least one client, and a run of any calls of `send` and `keepAlive`. Each
client has one owner, and no step uses a client that was deleted. -/
theorem owned_of_run (hsize : 1 ≤ poolSize) {rc : Int32} {actions : List PoolCallAction}
    (hrun : runFrom PoolCalls.step (opened poolSize rc) actions = some calls) :
    calls.Owned poolSize ∧ calls.UsesAlive :=
  ⟨(invariant_of_run hsize hrun).owned, usesAlive_of_invariant (invariant_of_run hsize hrun)⟩

/-- Two calls of `send` and one of `keepAlive` on a pool of two: the second makes a client while the
first has the other one. -/
def twoSenders : List PoolCallAction :=
  [.send, .sendStep 0 .newClient, .sendStep 0 .takeIdle, .send, .sendStep 1 .newClient,
    .sendStep 1 (.connect 0), .sendStep 0 (.sendReq 0), .sendStep 0 .pushClientBack,
    .keepAlive fun _ ↦ true, .heartbeat 0 0, .sendStep 1 .placeClient]

theorem owned_twoSenders : ∃ calls : PoolCalls,
    runFrom PoolCalls.step (opened 2 0) twoSenders = some calls ∧
      calls.Owned 2 ∧ calls.UsesAlive :=
  ⟨_, rfl, owned_of_run (by decide) (rfl : runFrom PoolCalls.step (opened 2 0) twoSenders = some _)⟩

end PoolCalls

end TszyUlt.Zbf
