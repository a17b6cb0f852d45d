import TszyUlt.Lib.Table
import TszyUlt.Lib.Transition

/-!
# Pools of a highly available client

`zbf/socket_tcp_v5.hpp`: `tcpsock_cltpool` and `tcpsock_ha_cltpool`. Each pool has connections to
one server and a flag, `_poolInvalid`. A `send` takes the next pool whose flag is clear, and the
flag of that pool is set by what `connect` and `send` of its clients report. `keepAlive` sends a
heartbeat on the idle connections and does not look at what becomes of it.

`HaPool` is a client with all that is under way: where each call of `send` (`SendAt`) and of
`keepAlive` (`KeepAt`) stands. A step is one section under a lock, one reading of a flag or one call
of a `tcpsock_client`, so a run is any interleaving of the threads that call.

The flag is what was last reported (`Sound`), so `recovers_iff` says that a pool whose connections
have all had their heartbeat is valid exactly if the last report of a `connect` or a `send` was a
success. Where every pool is invalid and no call is at one, this stays so whatever `keepAlive` does,
and every `send` returns `POOL_INVALID` (`rejected_of_run`).

Scope. What `tcpsock_client::connect` and `tcpsock_client::send` return is an input. `clearPools`
and `close` are not modelled.
-/

set_option autoImplicit false
set_option relaxedAutoImplicit false

namespace TszyUlt.Zbf

open Lib

/-- `SEND_SUCCESS`. -/
def sendSuccess : Int32 := 0

/-- `SEND_TIMEOUT`. -/
def sendTimeout : Int32 := 5

/-- `POOL_INVALID`. -/
def poolInvalidRc : Int32 := 6

/-! ### A pool -/

/-- `tcpsock_cltpool`. A client is its sequence number; `reports` is an observer's. -/
structure CltPool where
  poolSize : ℕ
  clientSeq : ℕ := 1
  clients : List ℕ := []
  idleList : List ℕ := []
  poolInvalid : Bool := false
  /-- What went through `updatePoolState`. -/
  reports : List Int32 := []
  deriving DecidableEq, Repr

namespace CltPool

/-- `isInvalid`. -/
def isInvalid (pool : CltPool) : Bool := pool.poolInvalid

/-- `updatePoolState`. -/
def updatePoolState (pool : CltPool) (rc : Int32) : CltPool :=
  { pool with poolInvalid := rc != sendSuccess, reports := pool.reports ++ [rc] }

/-- `open` with `createClient`, where `connect` returns a code: the client is kept in any case. -/
def openPool (poolSize : ℕ) (rc : Int32) : CltPool :=
  { poolSize, clientSeq := 2, clients := [1], idleList := [1] : CltPool }.updatePoolState rc

/-- The first section of `popIdleClient`: the client that is to be connected, if any. -/
def newClient (pool : CltPool) : Option ℕ × CltPool :=
  if pool.clients.length < pool.poolSize ∧ pool.idleList = [] then
    (some pool.clientSeq,
      { pool with clientSeq := pool.clientSeq + 1, clients := pool.clients ++ [pool.clientSeq] })
  else (none, pool)

/-- The second section of `popIdleClient`, with what `connect` returned. -/
def placeClient (pool : CltPool) (client : ℕ) (rc : Int32) : CltPool :=
  if rc = 0 then { pool with idleList := pool.idleList ++ [client] }
  else { pool with clients := pool.clients.erase client }

/-- `pushClientBack`. -/
def pushClientBack (pool : CltPool) (client : ℕ) : CltPool :=
  { pool with idleList := pool.idleList ++ [client] }

/-- The first section of `keepAlive`: the idle clients that need a heartbeat. -/
def collect (pool : CltPool) (needHeartbeat : ℕ → Bool) : List ℕ × CltPool :=
  (pool.idleList.filter needHeartbeat,
    { pool with idleList := pool.idleList.filter fun client ↦ !needHeartbeat client })

/-- The last section of `keepAlive`. -/
def putBack (pool : CltPool) (hbList : List ℕ) : CltPool :=
  { pool with idleList := pool.idleList ++ hbList }

end CltPool

/-- Where a call of `tcpsock_cltpool::send` stands. -/
inductive PoolAt
  /-- Before the first section of `popIdleClient`. -/
  | popping
  | connecting (client : ℕ)
  /-- Before the second section of `popIdleClient`. -/
  | placing (client : ℕ) (rc : Int32)
  /-- In the last section of `popIdleClient`, where it may wait. -/
  | taking
  | sending (client : ℕ)
  /-- Before `pushClientBack`. -/
  | returning (client : ℕ) (rc : Int32)
  | done (rc : Int32)
  deriving DecidableEq, Repr

/-- A step of `tcpsock_cltpool::send`. -/
inductive PoolAction
  | newClient
  | connect (rc : Int32)
  | placeClient
  | takeIdle
  | waitOver
  | sendReq (rc : Int32)
  | pushClientBack
  deriving DecidableEq, Repr

/-- `tcpsock_cltpool::send` with `popIdleClient`. -/
def CltPool.sendStep (pool : CltPool) : PoolAt → PoolAction → Option (CltPool × PoolAt)
  | .popping, .newClient =>
    match pool.newClient with
    | (some client, pool) => some (pool, .connecting client)
    | (none, pool) => some (pool, .taking)
  | .connecting client, .connect rc => some (pool.updatePoolState rc, .placing client rc)
  | .placing client rc, .placeClient => some (pool.placeClient client rc, .taking)
  | .taking, .takeIdle =>
    match pool.idleList with
    | [] => none
    | client :: rest => some ({ pool with idleList := rest }, .sending client)
  | .taking, .waitOver =>
    if pool.idleList = [] then some (pool, .done sendTimeout) else none
  | .sending client, .sendReq rc => some (pool.updatePoolState rc, .returning client rc)
  | .returning client rc, .pushClientBack => some (pool.pushClientBack client, .done rc)
  | _, _ => none

/-! ### The highly available client -/

/-- Where a call of `tcpsock_ha_cltpool::send` stands. -/
inductive SendAt
  | called
  /-- In the loop of `getPool`, with the rounds that are left. -/
  | selecting (left : ℕ)
  /-- There was no valid pool. -/
  | rejected
  | inPool (pool : ℕ) (place : PoolAt)
  deriving DecidableEq, Repr

/-- What a call of `tcpsock_ha_cltpool::send` has returned. -/
def SendAt.returned : SendAt → Option Int32
  | .rejected => some poolInvalidRc
  | .inPool _ (.done rc) => some rc
  | _ => none

/-- Where a call of `tcpsock_ha_cltpool::keepAlive` stands: before the first of the pools that are
left, or at a pool, with its list of clients, those still to be sent a heartbeat, and what the sends
to the other ones returned. -/
inductive KeepAt
  | between (left : List ℕ)
  | beating (pool : ℕ) (hbList todo : List ℕ) (beats : List (ℕ × Int32)) (left : List ℕ)
  deriving DecidableEq, Repr

/-- `tcpsock_ha_cltpool` with the calls of `send` and `keepAlive`. -/
structure HaPool where
  cltPools : List CltPool := []
  poolCursor : ℕ := 0
  /-- The call of `send` that holds `_lockCltPool`. -/
  lockCltPool : Option ℕ := none
  sends : List SendAt := []
  keeps : List KeepAt := []
  deriving DecidableEq, Repr

/-- A step of a thread. -/
inductive HaAction
  | addConnectPool (poolSize : ℕ) (rc : Int32)
  | send
  | lockPools (tag : ℕ)
  | lookPool (tag : ℕ)
  | inPool (tag : ℕ) (action : PoolAction)
  | keepAlive
  | collect (tag : ℕ) (needHeartbeat : ℕ → Bool)
  | heartbeat (tag : ℕ) (rc : Int32)
  | putBack (tag : ℕ)

namespace HaPool

/-- A call of `send` goes on. -/
def sendTo (ha : HaPool) (tag : ℕ) (place : SendAt) : HaPool :=
  { ha with sends := ha.sends.set tag place }

/-- A call of `keepAlive` goes on. -/
def keepTo (ha : HaPool) (tag : ℕ) (place : KeepAt) : HaPool :=
  { ha with keeps := ha.keeps.set tag place }

/-- A pool is changed. -/
def setPool (ha : HaPool) (pool : ℕ) (found : CltPool) : HaPool :=
  { ha with cltPools := ha.cltPools.set pool found }

/-- The pool of a round of the loop of `getPool`. -/
def roundPool (ha : HaPool) : ℕ :=
  if ha.poolCursor = ha.cltPools.length then 0 else ha.poolCursor

/-- A round of the loop of `getPool`, with the rounds that are left after it. -/
def getPoolRound (ha : HaPool) (tag left : ℕ) : Option HaPool :=
  match ha.cltPools[ha.roundPool]? with
  | none => none
  | some found =>
    if found.isInvalid then
      some ({ ha with poolCursor := ha.roundPool + 1 }.sendTo tag (.selecting left))
    else
      some ({ ha with poolCursor := ha.roundPool + 1, lockCltPool := none }.sendTo tag
        (.inPool ha.roundPool .popping))

/-- The steps of the threads. -/
def step (ha : HaPool) : HaAction → Option HaPool
  | .addConnectPool poolSize rc =>
    if ha.lockCltPool = none ∧ poolSize ≠ 0 then
      some { ha with cltPools := ha.cltPools ++ [CltPool.openPool poolSize rc] }
    else none
  | .send => some { ha with sends := ha.sends ++ [.called] }
  | .lockPools tag =>
    if ha.sends[tag]? = some .called ∧ ha.lockCltPool = none then
      some ({ ha with lockCltPool := some tag }.sendTo tag (.selecting ha.cltPools.length))
    else none
  | .lookPool tag =>
    match ha.sends[tag]? with
    | some (.selecting 0) => some ({ ha with lockCltPool := none }.sendTo tag .rejected)
    | some (.selecting (left + 1)) => ha.getPoolRound tag left
    | _ => none
  | .inPool tag action =>
    match ha.sends[tag]? with
    | some (.inPool pool place) =>
      match ha.cltPools[pool]? with
      | none => none
      | some found =>
        (found.sendStep place action).map fun (found, place) ↦
          (ha.setPool pool found).sendTo tag (.inPool pool place)
    | _ => none
  | .keepAlive =>
    if ha.lockCltPool = none then
      some { ha with keeps := ha.keeps ++ [.between (List.range ha.cltPools.length)] }
    else none
  | .collect tag needHeartbeat =>
    match ha.keeps[tag]? with
    | some (.between (pool :: left)) =>
      match ha.cltPools[pool]? with
      | none => none
      | some found =>
        let (hbList, found) := found.collect needHeartbeat
        some ((ha.setPool pool found).keepTo tag (.beating pool hbList hbList [] left))
    | _ => none
  | .heartbeat tag rc =>
    match ha.keeps[tag]? with
    | some (.beating pool hbList (client :: todo) beats left) =>
      some (ha.keepTo tag (.beating pool hbList todo (beats ++ [(client, rc)]) left))
    | _ => none
  | .putBack tag =>
    match ha.keeps[tag]? with
    | some (.beating pool hbList [] _ left) =>
      match ha.cltPools[pool]? with
      | none => none
      | some found => some ((ha.setPool pool (found.putBack hbList)).keepTo tag (.between left))
    | _ => none

end HaPool

/-! ### The flag of a pool -/

/-- The pool has its flag and its reports as they were. -/
def CltPool.Quiet (before after : CltPool) : Prop :=
  after.poolInvalid = before.poolInvalid ∧ after.reports = before.reports

/-- The flag is what was last reported. -/
def CltPool.Sound (pool : CltPool) : Prop :=
  pool.isInvalid = true ↔ ∃ rc, pool.reports.getLast? = some rc ∧ rc ≠ sendSuccess

/-- The call may still report what a `connect` or a `send` returned. -/
def PoolAt.reporting : PoolAt → Bool
  | .popping => true
  | .connecting _ => true
  | .placing _ _ => true
  | .taking => true
  | .sending _ => true
  | .returning _ _ => false
  | .done _ => false

namespace CltPool

variable {pool next : CltPool} {place place' : PoolAt} {action : PoolAction}

theorem Quiet.sound (hquiet : pool.Quiet next) (hsound : pool.Sound) : next.Sound := by
  unfold Sound isInvalid
  rw [hquiet.1, hquiet.2]
  exact hsound

theorem sound_updatePoolState (pool : CltPool) (rc : Int32) : (pool.updatePoolState rc).Sound := by
  unfold Sound isInvalid updatePoolState
  rw [List.getLast?_concat, bne_iff_ne]
  exact ⟨fun hne ↦ ⟨rc, rfl, hne⟩, fun ⟨_, hlast, hne⟩ ↦ Option.some.inj hlast ▸ hne⟩

theorem quiet_newClient (pool : CltPool) : pool.Quiet pool.newClient.2 := by
  unfold newClient
  split
  · exact ⟨rfl, rfl⟩
  · exact ⟨rfl, rfl⟩

theorem quiet_placeClient (pool : CltPool) (client : ℕ) (rc : Int32) :
    pool.Quiet (pool.placeClient client rc) := by
  unfold placeClient
  split
  · exact ⟨rfl, rfl⟩
  · exact ⟨rfl, rfl⟩

/-- A step of `send` in a pool leaves the flag, or it reports; and a call that is past its reports
stays past them. -/
theorem sendStep_cases (hstep : pool.sendStep place action = some (next, place')) :
    (pool.Quiet next ∨ place.reporting = true ∧ ∃ rc, next = pool.updatePoolState rc) ∧
      (place.reporting = false → place'.reporting = false) := by
  unfold sendStep at hstep
  split at hstep
  · have hquiet := quiet_newClient pool
    split at hstep
    next hnew =>
      cases hstep
      rw [hnew] at hquiet
      exact ⟨Or.inl hquiet, fun hfalse ↦ nomatch hfalse⟩
    next hnew =>
      cases hstep
      rw [hnew] at hquiet
      exact ⟨Or.inl hquiet, fun hfalse ↦ nomatch hfalse⟩
  · cases hstep
    exact ⟨Or.inr ⟨rfl, _, rfl⟩, fun hfalse ↦ nomatch hfalse⟩
  · cases hstep
    exact ⟨Or.inl (quiet_placeClient pool _ _), fun hfalse ↦ nomatch hfalse⟩
  · split at hstep
    · cases hstep
    · cases hstep
      exact ⟨Or.inl ⟨rfl, rfl⟩, fun hfalse ↦ nomatch hfalse⟩
  · split at hstep
    · cases hstep
      exact ⟨Or.inl ⟨rfl, rfl⟩, fun hfalse ↦ nomatch hfalse⟩
    · cases hstep
  · cases hstep
    exact ⟨Or.inr ⟨rfl, _, rfl⟩, fun hfalse ↦ nomatch hfalse⟩
  · cases hstep
    exact ⟨Or.inl ⟨rfl, rfl⟩, fun _ ↦ rfl⟩
  · cases hstep

end CltPool

namespace HaPool

variable {ha next : HaPool} {action : HaAction}

/-- What a step can do to the pools and to the calls of `send`. -/
inductive Moves (ha next : HaPool) : HaAction → Prop
  | addConnectPool (poolSize : ℕ) (rc : Int32)
      (hpools : next.cltPools = ha.cltPools ++ [CltPool.openPool poolSize rc])
      (hsends : next.sends = ha.sends) : Moves ha next (.addConnectPool poolSize rc)
  /-- A call of `send` begins, or takes the lock or a round of `getPool` and is in no pool. -/
  | waits (action : HaAction) (tag : ℕ) (place : SendAt) (hpools : next.cltPools = ha.cltPools)
      (hplace : ∀ pool inner, place ≠ .inPool pool inner)
      (hsends : next.sends = ha.sends ++ [place] ∨ next.sends = ha.sends.set tag place) :
      Moves ha next action
  | select (tag pool : ℕ) (found : CltPool) (hfound : ha.cltPools[pool]? = some found)
      (hvalid : found.isInvalid = false) (hpools : next.cltPools = ha.cltPools)
      (hsends : next.sends = ha.sends.set tag (.inPool pool .popping)) :
      Moves ha next (.lookPool tag)
  | inPool (tag pool : ℕ) (found found' : CltPool) (place place' : PoolAt) (action : PoolAction)
      (hplace : ha.sends[tag]? = some (.inPool pool place))
      (hfound : ha.cltPools[pool]? = some found)
      (hstep : found.sendStep place action = some (found', place'))
      (hpools : next.cltPools = ha.cltPools.set pool found')
      (hsends : next.sends = ha.sends.set tag (.inPool pool place')) :
      Moves ha next (.inPool tag action)
  /-- A call of `keepAlive` takes clients from a pool or puts them back, or sends a heartbeat. -/
  | keep (action : HaAction)
      (hpools : next.cltPools = ha.cltPools ∨ ∃ (pool : ℕ) (found found' : CltPool),
        ha.cltPools[pool]? = some found ∧ found.Quiet found' ∧
          next.cltPools = ha.cltPools.set pool found')
      (hsends : next.sends = ha.sends) : Moves ha next action

theorem step_moves (hstep : ha.step action = some next) : Moves ha next action := by
  cases action with
  | addConnectPool poolSize rc =>
    simp only [step] at hstep
    split at hstep
    · cases hstep
      exact .addConnectPool poolSize rc rfl rfl
    · cases hstep
  | send =>
    cases hstep
    exact .waits _ 0 .called rfl (fun _ _ hplace ↦ nomatch hplace) (Or.inl rfl)
  | lockPools tag =>
    simp only [step] at hstep
    split at hstep
    · cases hstep
      exact .waits _ tag (.selecting _) rfl (fun _ _ hplace ↦ nomatch hplace) (Or.inr rfl)
    · cases hstep
  | lookPool tag =>
    simp only [step] at hstep
    split at hstep
    · cases hstep
      exact .waits _ tag .rejected rfl (fun _ _ hplace ↦ nomatch hplace) (Or.inr rfl)
    next left hplace =>
      unfold getPoolRound at hstep
      split at hstep
      · cases hstep
      next found hfound =>
        split at hstep
        · cases hstep
          exact .waits _ tag (.selecting left) rfl (fun _ _ hplace ↦ nomatch hplace) (Or.inr rfl)
        next hvalid =>
          cases hstep
          exact .select tag _ found hfound (Bool.eq_false_iff.mpr hvalid) rfl rfl
    · cases hstep
  | inPool tag action =>
    simp only [step] at hstep
    split at hstep
    next pool place hplace =>
      split at hstep
      · cases hstep
      next found hfound =>
        rw [Option.map_eq_some_iff] at hstep
        obtain ⟨⟨found', place'⟩, hsend, rfl⟩ := hstep
        exact .inPool tag pool found found' place place' action hplace hfound hsend rfl rfl
    · cases hstep
  | keepAlive =>
    simp only [step] at hstep
    split at hstep
    · cases hstep
      exact .keep _ (Or.inl rfl) rfl
    · cases hstep
  | collect tag needHeartbeat =>
    simp only [step] at hstep
    split at hstep
    next pool left hplace =>
      split at hstep
      · cases hstep
      next found hfound =>
        cases hstep
        exact .keep _ (Or.inr ⟨pool, found, (found.collect needHeartbeat).2, hfound, ⟨rfl, rfl⟩,
          rfl⟩) rfl
    · cases hstep
  | heartbeat tag rc =>
    simp only [step] at hstep
    split at hstep
    · cases hstep
      exact .keep _ (Or.inl rfl) rfl
    · cases hstep
  | putBack tag =>
    simp only [step] at hstep
    split at hstep
    next pool hbList beats left hplace =>
      split at hstep
      · cases hstep
      next found hfound =>
        cases hstep
        exact .keep _ (Or.inr ⟨pool, found, found.putBack hbList, hfound, ⟨rfl, rfl⟩, rfl⟩) rfl
    · cases hstep

/-- Every pool is sound. -/
def AllSound (ha : HaPool) : Prop :=
  ∀ (pool : ℕ) (found : CltPool), ha.cltPools[pool]? = some found → found.Sound

theorem AllSound.set {ha : HaPool} (hsound : ha.AllSound) {pool : ℕ} {found' : CltPool}
    (hfound' : found'.Sound) {next : HaPool}
    (hpools : next.cltPools = ha.cltPools.set pool found') : next.AllSound := by
  intro other found hfound
  rw [hpools] at hfound
  rcases getElem?_set_cases hfound with ⟨-, rfl⟩ | ⟨-, hold⟩
  · exact hfound'
  · exact hsound other found hold

theorem allSound_step (hsound : ha.AllSound) (hstep : ha.step action = some next) :
    next.AllSound := by
  cases step_moves hstep with
  | addConnectPool poolSize rc hpools hsends =>
    intro pool found hfound
    rw [hpools] at hfound
    rcases getElem?_concat_cases hfound with hold | ⟨-, rfl⟩
    · exact hsound pool found hold
    · exact CltPool.sound_updatePoolState _ rc
  | waits _ tag place hpools hplace hsends =>
    unfold AllSound
    rw [hpools]
    exact hsound
  | select tag pool found hfound hvalid hpools hsends =>
    unfold AllSound
    rw [hpools]
    exact hsound
  | inPool tag pool found found' place place' action hplace hfound hsend hpools hsends =>
    refine hsound.set ?_ hpools
    rcases (CltPool.sendStep_cases hsend).1 with hquiet | ⟨-, rc, rfl⟩
    · exact hquiet.sound (hsound pool found hfound)
    · exact CltPool.sound_updatePoolState found rc
  | keep _ hpools hsends =>
    rcases hpools with hsame | ⟨pool, found, found', hfound, hquiet, hset⟩
    · unfold AllSound
      rw [hsame]
      exact hsound
    · exact hsound.set (hquiet.sound (hsound pool found hfound)) hset

theorem allSound_of_run {actions : List HaAction} (hrun : runFrom step {} actions = some ha) :
    ha.AllSound := by
  refine runFrom_invariant AllSound (fun _ _ _ hsound hstep ↦ allSound_step hsound hstep) ?_ hrun
  intro pool found hfound
  cases hfound

/-! ### Recovery -/

/-- A call of `keepAlive` has sent a heartbeat on every connection of the pool, with success. -/
def Refreshed (ha : HaPool) (pool : ℕ) (found : CltPool) : Prop :=
  ∃ (tag : ℕ) (hbList : List ℕ) (beats : List (ℕ × Int32)) (left : List ℕ),
    ha.keeps[tag]? = some (.beating pool hbList [] beats left) ∧
      ∀ client ∈ found.clients, (client, sendSuccess) ∈ beats

/-- A pool is valid when `keepAlive` has sent a heartbeat on every connection of it. -/
def Recovers (ha : HaPool) : Prop :=
  ∀ (pool : ℕ) (found : CltPool), ha.cltPools[pool]? = some found → ha.Refreshed pool found →
    found.isInvalid = false

/-- Assumes: a run. The pools whose connections have had their heartbeat are valid exactly if the
last `connect` or `send` that reported in each of them was a success. -/
theorem recovers_iff {actions : List HaAction} (hrun : runFrom step {} actions = some ha) :
    ha.Recovers ↔ ∀ (pool : ℕ) (found : CltPool), ha.cltPools[pool]? = some found →
      ha.Refreshed pool found → ∀ rc, found.reports.getLast? = some rc → rc = sendSuccess := by
  refine forall_congr' fun pool ↦ forall_congr' fun found ↦ forall_congr' fun hfound ↦
    imp_congr_right fun _ ↦ ?_
  have hsound := allSound_of_run hrun pool found hfound
  rw [CltPool.Sound] at hsound
  rw [← Bool.not_eq_true, hsound, not_exists]
  exact forall_congr' fun rc ↦ by rw [not_and, not_ne_iff]

/-- One pool, one `send` that reports a code, and a heartbeat on the connection. -/
def sendThenBeat (rc : Int32) : List HaAction :=
  [.addConnectPool 8 sendSuccess, .send, .lockPools 0, .lookPool 0, .inPool 0 .newClient,
    .inPool 0 .takeIdle, .inPool 0 (.sendReq rc), .inPool 0 .pushClientBack, .keepAlive,
    .collect 0 fun _ ↦ true, .heartbeat 0 sendSuccess]

theorem recovers_iff_sendThenBeat :
    ∃ ha : HaPool, runFrom step {} (sendThenBeat sendSuccess) = some ha ∧
      (ha.Recovers ↔ ∀ (pool : ℕ) (found : CltPool), ha.cltPools[pool]? = some found →
        ha.Refreshed pool found → ∀ rc, found.reports.getLast? = some rc → rc = sendSuccess) :=
  ⟨_, rfl, @recovers_iff _ (sendThenBeat sendSuccess) rfl⟩

/-- A `send` fails, and the heartbeat that follows succeeds: the pool stays invalid. -/
theorem not_recovers_failedSend :
    ¬∀ (actions : List HaAction) (ha : HaPool), runFrom step {} actions = some ha →
      ha.Recovers := by
  intro hall
  have hrecovers := hall (sendThenBeat 1) _ rfl 0 _ rfl
    ⟨0, [1], [(1, sendSuccess)], [], rfl, by decide⟩
  exact absurd hrecovers (by decide)

/-! ### A pool that nothing brings back -/

/-- The pool is invalid, and no call of `send` is there that may still report. -/
def Dead (ha : HaPool) (pool : ℕ) : Prop :=
  (∀ found, ha.cltPools[pool]? = some found → found.isInvalid = true) ∧
    ∀ (tag : ℕ) (place : PoolAt), ha.sends[tag]? = some (.inPool pool place) →
      place.reporting = false

/-- The calls of `send` in the pool were there before. -/
def NoneEnters (before after : HaPool) (pool : ℕ) : Prop :=
  ∀ (tag : ℕ) (place : PoolAt), after.sends[tag]? = some (.inPool pool place) →
    ∃ place', before.sends[tag]? = some (.inPool pool place')

/-- The action is a step of a call of `send` or of `keepAlive`. -/
def OfCalls : HaAction → Prop
  | .addConnectPool _ _ => False
  | _ => True

/-- Assumes: a dead pool and a step of a call. A call in the pool after the step was there before,
and it is past its reports if it was. -/
theorem Dead.calls_step {pool : ℕ} (hdead : ha.Dead pool) (hstep : ha.step action = some next)
    {tag : ℕ} {place' : PoolAt} (hplace' : next.sends[tag]? = some (.inPool pool place')) :
    ∃ place, ha.sends[tag]? = some (.inPool pool place) ∧
      (place.reporting = false → place'.reporting = false) := by
  have hold : ha.sends[tag]? = some (.inPool pool place') →
      ∃ place, ha.sends[tag]? = some (.inPool pool place) ∧
        (place.reporting = false → place'.reporting = false) :=
    fun hplace ↦ ⟨place', hplace, id⟩
  cases step_moves hstep with
  | addConnectPool poolSize rc hpools hsends =>
    exact hold (hsends ▸ hplace')
  | waits _ other place hpools hplace hsends =>
    rcases hsends with hsends | hsends
    · rw [hsends] at hplace'
      rcases getElem?_concat_cases hplace' with hbefore | ⟨-, heq⟩
      · exact hold hbefore
      · exact absurd heq.symm (hplace pool place')
    · rw [hsends] at hplace'
      rcases getElem?_set_cases hplace' with ⟨-, heq⟩ | ⟨-, hbefore⟩
      · exact absurd heq.symm (hplace pool place')
      · exact hold hbefore
  | select other selected found hfound hvalid hpools hsends =>
    rw [hsends] at hplace'
    rcases getElem?_set_cases hplace' with ⟨-, heq⟩ | ⟨-, hbefore⟩
    · cases heq
      exact absurd (hdead.1 found hfound) (Bool.eq_false_iff.mp hvalid)
    · exact hold hbefore
  | inPool other selected found found' place place'' action hplace hfound hsend hpools hsends =>
    rw [hsends] at hplace'
    rcases getElem?_set_cases hplace' with ⟨rfl, heq⟩ | ⟨-, hbefore⟩
    · cases heq
      exact ⟨place, hplace, (CltPool.sendStep_cases hsend).2⟩
    · exact hold hbefore
  | keep _ hpools hsends =>
    exact hold (hsends ▸ hplace')

/-- Assumes: a dead pool and a step of a call. The pool is invalid after the step. -/
theorem Dead.invalid_step {pool : ℕ} (hdead : ha.Dead pool) (hcall : OfCalls action)
    (hstep : ha.step action = some next) {found' : CltPool}
    (hfound' : next.cltPools[pool]? = some found') : found'.isInvalid = true := by
  cases step_moves hstep with
  | addConnectPool poolSize rc hpools hsends => exact hcall.elim
  | waits _ tag place hpools hplace hsends => exact hdead.1 found' (hpools ▸ hfound')
  | select tag selected found hfound hvalid hpools hsends =>
    exact hdead.1 found' (hpools ▸ hfound')
  | inPool tag selected found _ place place' action hplace hfound hsend hpools hsends =>
    rw [hpools] at hfound'
    rcases getElem?_set_cases hfound' with ⟨rfl, rfl⟩ | ⟨-, hbefore⟩
    · rcases (CltPool.sendStep_cases hsend).1 with hquiet | ⟨hreporting, -⟩
      · exact hquiet.1.trans (hdead.1 found hfound)
      · rw [hdead.2 tag place hplace] at hreporting
        cases hreporting
    · exact hdead.1 found' hbefore
  | keep _ hpools hsends =>
    rcases hpools with hsame | ⟨selected, found, _, hfound, hquiet, hset⟩
    · exact hdead.1 found' (hsame ▸ hfound')
    · rw [hset] at hfound'
      rcases getElem?_set_cases hfound' with ⟨rfl, rfl⟩ | ⟨-, hbefore⟩
      · exact hquiet.1.trans (hdead.1 found hfound)
      · exact hdead.1 found' hbefore

/-- Assumes: a dead pool, and a run of calls of `send` and `keepAlive`. The pool stays dead, and no
call of `send` enters it. -/
theorem dead_of_run {pool : ℕ} (hdead : ha.Dead pool) {actions : List HaAction}
    (hcalls : ∀ action ∈ actions, OfCalls action) {final : HaPool}
    (hrun : runFrom step ha actions = some final) :
    final.Dead pool ∧ NoneEnters ha final pool := by
  have halong : Along step (fun _ action ↦ OfCalls action) ha actions :=
    along_of_forall (fun _ action hmem ↦ hcalls action hmem) ha
  refine runFrom_invariant_along (fun middle ↦ middle.Dead pool ∧ NoneEnters ha middle pool) ?_
    ⟨hdead, fun tag place hplace ↦ ⟨place, hplace⟩⟩ halong hrun
  rintro middle action next ⟨hmiddle, hnone⟩ hcall hstep
  refine ⟨⟨fun found' hfound' ↦ hmiddle.invalid_step hcall hstep hfound', ?_⟩, ?_⟩
  · intro tag place' hplace'
    obtain ⟨place, hplace, hpast⟩ := hmiddle.calls_step hstep hplace'
    exact hpast (hmiddle.2 tag place hplace)
  · intro tag place' hplace'
    obtain ⟨place, hplace, -⟩ := hmiddle.calls_step hstep hplace'
    exact hnone tag place hplace

/-- Assumes: every pool is dead, and a run of calls of `send` and `keepAlive`. A call of `send` that
begins in the run returns nothing but `POOL_INVALID`. -/
theorem rejected_of_run (hdead : ∀ pool, ha.Dead pool) {actions : List HaAction}
    (hcalls : ∀ action ∈ actions, OfCalls action) {final : HaPool}
    (hrun : runFrom step ha actions = some final) {tag : ℕ} (hnew : ha.sends.length ≤ tag)
    {place : SendAt} (hplace : final.sends[tag]? = some place) {rc : Int32}
    (hreturned : place.returned = some rc) : rc = poolInvalidRc := by
  cases place with
  | called => cases hreturned
  | selecting left => cases hreturned
  | rejected => exact (Option.some.inj hreturned).symm
  | inPool pool inner =>
    obtain ⟨_, hbefore⟩ := (dead_of_run (hdead pool) hcalls hrun).2 tag inner hplace
    exact absurd (lt_length_of_getElem? hbefore) (Nat.not_lt.mpr hnew)

end HaPool

end TszyUlt.Zbf
