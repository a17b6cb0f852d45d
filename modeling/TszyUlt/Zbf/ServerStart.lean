import TszyUlt.Lib.Lease
import TszyUlt.Lib.Memory
import TszyUlt.Lib.Table
import TszyUlt.Lib.Transition
import TszyUlt.Zbf.SafeQueue

/-!
# The start of the epoll server

`start`, `configSwimlanes` and `dispatchMsg` of the server of `zbf/socket_tcp_v5.hpp`. `start`
launches the I/O thread first; then it creates the workers and their queues one by one, and at the
end `configSwimlanes` stores the map from message types to groups of workers. The I/O thread accepts
connections and dispatches their messages from the first moment on. Before the map is stored there
is no group at all, and `dispatchMsg` takes a worker out of an empty one.

`configLanes_spec` says which groups the lanes make, and `dispatchMsg_isSome_iff` for which types a
stored map has a worker. `StartInv` is what holds in every state of a run without an early dispatch,
and `dispatchesSafe_iff` the exact condition. The default group is empty where the lanes take every
worker, which `configSwimlanes` refuses unless the sum of their threads does not fit into its `int`
(`leavesDefault_of_fits`).

Scope. The server starts for the first time. A message is known by its type, and a connection by its
descriptor; what the workers do with the messages, and how connections end, are not modelled. Where
the iterators of a lane leave the vector of the workers the behaviour is undefined, and
`configSwimlanes` has no result.
-/

set_option autoImplicit false
set_option relaxedAutoImplicit false

namespace TszyUlt.Zbf

open Lib

/-! ### The lanes -/

/-- `message_swimlane`. -/
structure MessageSwimlane where
  msgTypes : List UInt32
  threads : ℕ
  deriving DecidableEq, Repr

/-- `WorkerIdGroup`. -/
structure WorkerIdGroup where
  workerIds : List ℤ
  cursor : ℕ
  deriving DecidableEq, Repr

/-- `_msgTyp2WkIdGrp`. -/
abbrev MsgTyp2WkIdGrp := Table UInt32 WorkerIdGroup

/-- `DefaultMsgType`. -/
def defaultMsgType : UInt32 := 0

namespace MessageSwimlane

/-- A lane with a message type and a thread; the others are skipped. -/
def usable (lane : MessageSwimlane) : Bool := !lane.msgTypes.isEmpty && lane.threads != 0

/-- The loop over the message types of a lane. -/
def assignTypes (group : WorkerIdGroup) : List UInt32 → MsgTyp2WkIdGrp → MsgTyp2WkIdGrp
  | [], groups => groups
  | msgType :: msgTypes, groups =>
    assignTypes group msgTypes (Function.update groups msgType (some group))

/-- The loop over the lanes, which take their workers one lane after the other. -/
def configLanes (workerIds : List ℤ) :
    List MessageSwimlane → ℕ → MsgTyp2WkIdGrp → Option (ℕ × MsgTyp2WkIdGrp)
  | [], pos, groups => some (pos, groups)
  | lane :: lanes, pos, groups =>
    if lane.usable then
      if pos + lane.threads ≤ workerIds.length then
        configLanes workerIds lanes (pos + lane.threads)
          (assignTypes ⟨(workerIds.drop pos).take lane.threads, 0⟩ lane.msgTypes groups)
      else none
    else configLanes workerIds lanes pos groups

/-- The sum of the threads, kept in an `int`. -/
def totalNeed : List MessageSwimlane → ℤ → ℤ
  | [], total => total
  | lane :: lanes, total => totalNeed lanes (asInt32 ((total + lane.threads) % 2 ^ 64).toNat)

/-- `totalNeed >= _workerIds.size()`, where the `int` is converted to `size_t`. -/
def needsAll (lanes : List MessageSwimlane) (workers : ℕ) : Bool :=
  workers ≤ (totalNeed lanes 0 % 2 ^ 64).toNat

/-- `configSwimlanes`: the map that it stores. -/
def configSwimlanes (workerIds : List ℤ) (lanes : List MessageSwimlane) : Option MsgTyp2WkIdGrp :=
  (if needsAll lanes workerIds.length then some (0, Table.empty)
    else configLanes workerIds lanes 0 Table.empty).map fun (pos, groups) ↦
      Function.update groups defaultMsgType (some ⟨workerIds.drop pos, 0⟩)

/-- The threads of the lanes that are not skipped. -/
def usedThreads : List MessageSwimlane → ℕ
  | [] => 0
  | lane :: lanes => (if lane.usable then lane.threads else 0) + usedThreads lanes

/-- The threads of all lanes. -/
def sumThreads : List MessageSwimlane → ℕ
  | [] => 0
  | lane :: lanes => lane.threads + sumThreads lanes

/-- The lanes leave a worker to the default group. -/
def leavesDefault (lanes : List MessageSwimlane) (workers : ℕ) : Bool :=
  needsAll lanes workers || usedThreads lanes < workers

/-- A lane that is not skipped has a message type. -/
def hasLane (lanes : List MessageSwimlane) (msgType : UInt32) : Bool :=
  lanes.any fun lane ↦ lane.usable && lane.msgTypes.contains msgType

end MessageSwimlane

open MessageSwimlane

/-! ### The server -/

/-- Where `start` stands. `i` is its loop variable. -/
inductive StartPlace
  | launchingIo
  | launchingMonitor
  /-- Before `_workerIds.push_back`. -/
  | pushing (i : ℕ)
  /-- Before the queue of the worker is created. -/
  | creating (i : ℕ)
  /-- Before the thread of the worker is created. -/
  | spawning (i : ℕ)
  /-- Before `configSwimlanes`. -/
  | configuring
  /-- Before `_statLogger.start`. -/
  | startingStats
  | returned
  deriving DecidableEq, Repr

/-- Where the I/O thread stands. -/
inductive StartIo
  | notStarted
  /-- In its loop, with the messages that it has cut off and not yet dispatched. -/
  | running (msgTypes : List UInt32)
  /-- In `dispatchMsg`, with the worker that it has chosen. -/
  | pushing (wkId : ℤ) (msgType : UInt32) (msgTypes : List UInt32)
  /-- It has accessed what is not there. -/
  | undefined
  deriving DecidableEq, Repr

/-- What a `dispatchMsg` met. -/
inductive Dispatched
  /-- It passed the message to the queue of a worker, which took it or was full. -/
  | queued (wkId : ℤ) (taken : Bool)
  /-- The group has no worker. -/
  | noWorker
  /-- The worker has no queue. -/
  | noQueue
  deriving DecidableEq, Repr

/-- `tcpsock_server`, with the arguments of `start`. -/
structure ServerStart where
  workerNum : ℕ
  lanes : List MessageSwimlane
  start : StartPlace
  io : StartIo
  monitorRunning : Bool
  /-- `_workerIds`. -/
  workerIds : List ℤ
  /-- `_recvQueues`: the queues created so far. -/
  recvQueues : List (SafeQueue UInt32)
  /-- `_workers`: the number of threads created so far. -/
  workers : ℕ
  /-- `_msgTyp2WkIdGrp`. -/
  groups : MsgTyp2WkIdGrp
  statsRunning : Bool
  /-- The connections accepted so far. -/
  users : List ℕ
  dispatches : List Dispatched

/-- The steps of the threads. -/
inductive StartAction
  | start
  | accept (fd : ℕ)
  /-- A chunk was received, and messages of these types were cut off. -/
  | receive (fd : ℕ) (msgTypes : List UInt32)
  /-- The section of `dispatchMsg` under `_lockMT2WI`. -/
  | choose
  /-- The rest of `dispatchMsg`. -/
  | push
  /-- A worker takes a message. -/
  | pop (worker : ℕ)
  deriving DecidableEq, Repr

namespace ServerStart

/-- `ThdIdBase`. -/
def thdIdBase : ℤ := 200

/-- `MaxPendingMsg`. -/
def maxPendingMsg : ℕ := 512

/-- `workerId`. -/
def workerId (i : ℕ) : ℤ := thdIdBase + 10 + i

/-- `workerIndex`. -/
def workerIndex (thdId : ℤ) : ℤ := thdId - thdIdBase - 11

/-- `std::max(workerNum, 2)` and `std::min(workerNum, 64)`. -/
def clampWorkers (workerNum : ℤ) : ℕ := (min (max workerNum 2) 64).toNat

/-- After `open`, with `start` called. -/
def opened (workerNum : ℤ) (lanes : List MessageSwimlane) : ServerStart where
  workerNum := clampWorkers workerNum
  lanes := lanes
  start := .launchingIo
  io := .notStarted
  monitorRunning := false
  workerIds := []
  recvQueues := []
  workers := 0
  groups := Table.empty
  statsRunning := false
  users := []
  dispatches := []

/-- A step of `start`. -/
def startStep (server : ServerStart) : Option ServerStart :=
  match server.start with
  | .launchingIo => some { server with io := .running [], start := .launchingMonitor }
  | .launchingMonitor => some { server with monitorRunning := true, start := .pushing 1 }
  | .pushing i =>
    some { server with workerIds := server.workerIds ++ [workerId i], start := .creating i }
  | .creating i =>
    some { server with recvQueues := server.recvQueues ++ [SafeQueue.new], start := .spawning i }
  | .spawning i =>
    some { server with
      workers := server.workers + 1
      start := if i + 1 ≤ server.workerNum then .pushing (i + 1) else .configuring }
  | .configuring =>
    (configSwimlanes server.workerIds server.lanes).map fun groups ↦
      { server with groups := groups, start := .startingStats }
  | .startingStats => some { server with statsRunning := true, start := .returned }
  | .returned => none

/-- The section of `dispatchMsg` under the lock: the worker that it chooses and the map afterwards,
or nothing when the group is empty. -/
def dispatchMsg (groups : MsgTyp2WkIdGrp) (msgType : UInt32) : Option (ℤ × MsgTyp2WkIdGrp) :=
  -- a type without a group is dispatched as the default type, and `operator[]` makes an empty group
  let key := if (groups msgType).isSome then msgType else defaultMsgType
  let wkIdGrp := (groups key).getD ⟨[], 0⟩
  wkIdGrp.workerIds[wkIdGrp.cursor]?.map fun wkId ↦
    (wkId, Function.update groups key (some
      { wkIdGrp with
        cursor :=
          if wkIdGrp.cursor + 1 = wkIdGrp.workerIds.length then 0 else wkIdGrp.cursor + 1 }))

/-- The queue with an index, if it was created. -/
def queueOf (server : ServerStart) (wkId : ℤ) : Option (SafeQueue UInt32) :=
  if 0 ≤ workerIndex wkId then server.recvQueues[(workerIndex wkId).toNat]? else none

/-- One step. -/
def step (server : ServerStart) : StartAction → Option ServerStart
  | .start => server.startStep
  | .accept fd =>
    match server.io with
    | .running [] => some { server with users := server.users ++ [fd] }
    | _ => none
  | .receive fd msgTypes =>
    match server.io with
    | .running [] =>
      if fd ∈ server.users then some { server with io := .running msgTypes } else none
    | _ => none
  | .choose =>
    match server.io with
    | .running (msgType :: msgTypes) =>
      match dispatchMsg server.groups msgType with
      | some (wkId, groups) =>
        some { server with groups := groups, io := .pushing wkId msgType msgTypes }
      | none =>
        some { server with io := .undefined, dispatches := server.dispatches ++ [.noWorker] }
    | _ => none
  | .push =>
    match server.io with
    | .pushing wkId msgType msgTypes =>
      match server.queueOf wkId with
      | some queue =>
        some { server with
          recvQueues :=
            server.recvQueues.set (workerIndex wkId).toNat (queue.push maxPendingMsg msgType).2
          io := .running msgTypes
          dispatches :=
            server.dispatches ++ [.queued wkId (queue.push maxPendingMsg msgType).1] }
      | none =>
        some { server with io := .undefined, dispatches := server.dispatches ++ [.noQueue] }
    | _ => none
  | .pop worker =>
    match server.recvQueues[worker]? with
    | some queue =>
      if worker < server.workers then
        some { server with recvQueues := server.recvQueues.set worker queue.popTimeout.2 }
      else none
    | none => none

/-- `configSwimlanes` has stored the map. -/
def configured (server : ServerStart) : Bool :=
  match server.start with
  | .startingStats | .returned => true
  | _ => false

/-- A message is dispatched only after the map was stored, and there only if the lanes leave a
worker to the default group or one of them has the type. -/
def ready (server : ServerStart) : StartAction → Bool
  | .choose =>
    match server.io with
    | .running (msgType :: _) =>
      server.configured &&
        (leavesDefault server.lanes server.workerNum ||
          (msgType != defaultMsgType && hasLane server.lanes msgType))
    | _ => true
  | _ => true

/-- Every `dispatchMsg` found a worker and its queue. -/
def DispatchesSafe (server : ServerStart) : Prop :=
  ∀ dispatched ∈ server.dispatches, ∃ wkId taken, dispatched = .queued wkId taken

end ServerStart

/-! ### The map from types to groups -/

namespace MessageSwimlane

variable {workerIds : List ℤ} {lanes : List MessageSwimlane} {groups groups' : MsgTyp2WkIdGrp}

theorem assignTypes_apply (group : WorkerIdGroup) (msgTypes : List UInt32)
    (groups : MsgTyp2WkIdGrp) (key : UInt32) :
    assignTypes group msgTypes groups key =
      if key ∈ msgTypes then some group else groups key := by
  induction msgTypes generalizing groups with
  | nil => rfl
  | cons msgType msgTypes ih =>
    rw [assignTypes, ih]
    by_cases hrest : key ∈ msgTypes
    · rw [if_pos hrest, if_pos (List.mem_cons_of_mem _ hrest)]
    · rw [if_neg hrest]
      by_cases hkey : key = msgType
      · subst hkey
        rw [Function.update_self, if_pos List.mem_cons_self]
      · rw [Function.update_of_ne hkey, if_neg]
        exact fun hmem ↦ (List.mem_cons.mp hmem).elim hkey hrest

/-- Every group has workers, and starts with the first of them. -/
def Filled (workerIds : List ℤ) (groups : MsgTyp2WkIdGrp) : Prop :=
  ∀ msgType group, groups msgType = some group →
    group.workerIds ≠ [] ∧ group.cursor = 0 ∧ ∀ wkId ∈ group.workerIds, wkId ∈ workerIds

theorem usable_iff {lane : MessageSwimlane} :
    lane.usable = true ↔ lane.msgTypes ≠ [] ∧ lane.threads ≠ 0 := by
  rw [usable, Bool.and_eq_true, Bool.not_eq_true', List.isEmpty_eq_false_iff, bne_iff_ne]

/-- Assumes: the workers before `pos` are taken, and the groups made so far are filled. The lanes
take their threads from there on, and make filled groups for the types they have. -/
theorem configLanes_spec {pos pos' : ℕ} (hpos : pos ≤ workerIds.length)
    (hfilled : Filled workerIds groups)
    (hlanes : configLanes workerIds lanes pos groups = some (pos', groups')) :
    pos' = pos + usedThreads lanes ∧ pos' ≤ workerIds.length ∧ Filled workerIds groups' ∧
      ∀ msgType, (groups' msgType).isSome = ((groups msgType).isSome || hasLane lanes msgType) := by
  induction lanes generalizing pos groups with
  | nil =>
    cases hlanes
    exact ⟨rfl, hpos, hfilled, fun _ ↦ (Bool.or_false _).symm⟩
  | cons lane lanes ih =>
    rw [configLanes] at hlanes
    split at hlanes
    · rename_i husable
      split at hlanes
      · rename_i hfits
        obtain ⟨-, hthreads⟩ := usable_iff.mp husable
        have hgroup : (workerIds.drop pos).take lane.threads ≠ [] := by
          rw [ne_eq, List.take_eq_nil_iff, List.drop_eq_nil_iff]
          omega
        have hnext : Filled workerIds
            (assignTypes ⟨(workerIds.drop pos).take lane.threads, 0⟩ lane.msgTypes groups) := by
          intro msgType group hfound
          rw [assignTypes_apply] at hfound
          split at hfound
          · cases hfound
            exact ⟨hgroup, rfl, fun wkId hmem ↦ List.mem_of_mem_drop (List.mem_of_mem_take hmem)⟩
          · exact hfilled msgType group hfound
        obtain ⟨hend, hle, hfilled', hsome⟩ := ih hfits hnext hlanes
        refine ⟨?_, hle, hfilled', fun msgType ↦ ?_⟩
        · rw [hend, usedThreads, if_pos husable, Nat.add_assoc]
        · rw [hsome, assignTypes_apply, hasLane, hasLane, List.any_cons, husable, Bool.true_and]
          by_cases hmem : msgType ∈ lane.msgTypes
          · simp [hmem]
          · simp [hmem]
      · cases hlanes
    · rename_i husable
      rw [Bool.not_eq_true] at husable
      obtain ⟨hend, hle, hfilled', hsome⟩ := ih hpos hfilled hlanes
      refine ⟨?_, hle, hfilled', fun msgType ↦ ?_⟩
      · rw [hend, usedThreads, husable]
        simp
      · rw [hsome, hasLane, hasLane, List.any_cons, husable, Bool.false_and, Bool.false_or]

/-- What holds of a map that `configSwimlanes` stored, however far its cursors have moved. -/
structure Stored (workerIds : List ℤ) (lanes : List MessageSwimlane)
    (groups : MsgTyp2WkIdGrp) : Prop where
  member : ∀ msgType group, groups msgType = some group →
    ∀ wkId ∈ group.workerIds, wkId ∈ workerIds
  cursor : ∀ msgType group, groups msgType = some group → group.workerIds ≠ [] →
    group.cursor < group.workerIds.length
  lane : ∀ msgType group, msgType ≠ defaultMsgType → groups msgType = some group →
    group.workerIds ≠ []
  hasLane : ∀ msgType, msgType ≠ defaultMsgType →
    (groups msgType).isSome = (!needsAll lanes workerIds.length && hasLane lanes msgType)
  default : ∃ group, groups defaultMsgType = some group ∧
    (group.workerIds ≠ [] ↔ leavesDefault lanes workerIds.length = true)

theorem filled_empty (workerIds : List ℤ) : Filled workerIds Table.empty :=
  fun _ _ hfound ↦ nomatch hfound

/-- The map of the lanes becomes the stored one when the default group is added. -/
theorem stored_update {pos : ℕ} (hfilled : Filled workerIds groups)
    (hsome : ∀ msgType, (groups msgType).isSome =
      (!needsAll lanes workerIds.length && hasLane lanes msgType))
    (hpos : workerIds.drop pos ≠ [] ↔ leavesDefault lanes workerIds.length = true) :
    Stored workerIds lanes
      (Function.update groups defaultMsgType (some ⟨workerIds.drop pos, 0⟩)) where
  member := fun msgType group hfound wkId hmem ↦ by
    rcases Leased.update_eq_some_cases hfound with ⟨-, heq⟩ | ⟨-, hold⟩
    · cases heq
      exact List.mem_of_mem_drop hmem
    · exact (hfilled msgType group hold).2.2 wkId hmem
  cursor := fun msgType group hfound hne ↦ by
    have hzero : group.cursor = 0 := by
      rcases Leased.update_eq_some_cases hfound with ⟨-, heq⟩ | ⟨-, hold⟩
      · cases heq
        rfl
      · exact (hfilled msgType group hold).2.1
    rw [hzero]
    exact List.length_pos_iff.mpr hne
  lane := fun msgType group hne hfound ↦ by
    rw [Function.update_of_ne hne] at hfound
    exact (hfilled msgType group hfound).1
  hasLane := fun msgType hne ↦ by
    rw [Function.update_of_ne hne]
    exact hsome msgType
  default := ⟨_, Function.update_self .., hpos⟩

/-- Assumes: there is a worker. What `configSwimlanes` stores. -/
theorem configSwimlanes_stored (hworkers : workerIds ≠ [])
    (hconfig : configSwimlanes workerIds lanes = some groups) :
    Stored workerIds lanes groups := by
  obtain ⟨⟨pos, made⟩, hmade, rfl⟩ := Option.map_eq_some_iff.mp hconfig
  split at hmade
  · rename_i hall
    cases hmade
    refine stored_update (filled_empty workerIds) (fun msgType ↦ ?_) ?_
    · rw [hall]
      rfl
    · rw [List.drop_zero, leavesDefault, hall]
      exact iff_of_true hworkers rfl
  · rename_i hnot
    rw [Bool.not_eq_true] at hnot
    obtain ⟨hend, -, hfilled, hsome⟩ :=
      configLanes_spec (Nat.zero_le _) (filled_empty workerIds) hmade
    refine stored_update hfilled (fun msgType ↦ ?_) ?_
    · rw [hsome, hnot]
      rfl
    · rw [leavesDefault, hnot, Bool.false_or, decide_eq_true_eq, ne_eq, List.drop_eq_nil_iff, hend]
      omega

/-- A cursor moves on, and starts again behind the last worker. -/
theorem Stored.moveCursor (hstored : Stored workerIds lanes groups) {key : UInt32}
    {group : WorkerIdGroup} (hgroup : groups key = some group) :
    Stored workerIds lanes (Function.update groups key (some
      { group with
        cursor :=
          if group.cursor + 1 = group.workerIds.length then 0 else group.cursor + 1 })) where
  member := fun msgType other hfound ↦ by
    rcases Leased.update_eq_some_cases hfound with ⟨-, heq⟩ | ⟨-, hold⟩
    · cases heq
      exact hstored.member key group hgroup
    · exact hstored.member msgType other hold
  cursor := fun msgType other hfound hne ↦ by
    rcases Leased.update_eq_some_cases hfound with ⟨-, heq⟩ | ⟨-, hold⟩
    · cases heq
      have hlt := hstored.cursor key group hgroup hne
      show (if group.cursor + 1 = group.workerIds.length then 0 else group.cursor + 1) <
        group.workerIds.length
      split <;> omega
    · exact hstored.cursor msgType other hold hne
  lane := fun msgType other hne hfound ↦ by
    rcases Leased.update_eq_some_cases hfound with ⟨rfl, heq⟩ | ⟨-, hold⟩
    · cases heq
      exact hstored.lane msgType group hne hgroup
    · exact hstored.lane msgType other hne hold
  hasLane := fun msgType hne ↦ by
    rw [← hstored.hasLane msgType hne]
    by_cases hkey : msgType = key
    · rw [hkey, Function.update_self, hgroup]
      rfl
    · rw [Function.update_of_ne hkey]
  default := by
    obtain ⟨default, hdefault, hiff⟩ := hstored.default
    by_cases hkey : defaultMsgType = key
    · subst hkey
      cases hdefault.symm.trans hgroup
      exact ⟨_, Function.update_self .., hiff⟩
    · exact ⟨default, (Function.update_of_ne hkey ..).trans hdefault, hiff⟩

/-- Assumes: the sum fits. The `int` holds it. -/
theorem totalNeed_of_fits (lanes : List MessageSwimlane) (total : ℕ)
    (hfits : total + sumThreads lanes < 2 ^ 31) :
    totalNeed lanes total = total + sumThreads lanes := by
  induction lanes generalizing total with
  | nil =>
    rw [totalNeed, sumThreads]
    omega
  | cons lane lanes ih =>
    rw [sumThreads] at hfits
    have hsum : (((total : ℤ) + lane.threads) % 2 ^ 64).toNat = total + lane.threads := by omega
    rw [totalNeed, sumThreads, hsum, asInt32_of_lt (by omega), ih (total + lane.threads) (by omega)]
    omega

theorem usedThreads_le_sumThreads (lanes : List MessageSwimlane) :
    usedThreads lanes ≤ sumThreads lanes := by
  induction lanes with
  | nil => exact Nat.le_refl _
  | cons lane lanes ih =>
    rw [usedThreads, sumThreads]
    split <;> omega

/-- Assumes: the sum of the threads fits into an `int`. The lanes leave a worker to the default
group. -/
theorem leavesDefault_of_fits {workers : ℕ} (hfits : sumThreads lanes < 2 ^ 31) :
    leavesDefault lanes workers = true := by
  have htotal := totalNeed_of_fits lanes 0 (by omega)
  have hused := usedThreads_le_sumThreads lanes
  rw [leavesDefault, Bool.or_eq_true, needsAll, decide_eq_true_eq, decide_eq_true_eq]
  rw [Nat.cast_zero, zero_add] at htotal
  rw [htotal]
  omega

end MessageSwimlane

namespace ServerStart

variable {workerIds : List ℤ} {lanes : List MessageSwimlane} {groups groups' : MsgTyp2WkIdGrp}
  {msgType : UInt32} {wkId : ℤ}

/-- The group that `dispatchMsg` takes a worker from. -/
theorem dispatchMsg_eq {key : UInt32} {group : WorkerIdGroup}
    (hkey : key = if (groups msgType).isSome then msgType else defaultMsgType)
    (hgroup : groups key = some group) :
    dispatchMsg groups msgType =
      group.workerIds[group.cursor]?.map fun wkId ↦ (wkId, Function.update groups key (some
        { group with
          cursor :=
            if group.cursor + 1 = group.workerIds.length then 0 else group.cursor + 1 })) := by
  rw [dispatchMsg, ← hkey, hgroup]
  rfl

/-- For which types a stored map has a worker. -/
theorem dispatchMsg_isSome (hstored : Stored workerIds lanes groups) (msgType : UInt32) :
    (dispatchMsg groups msgType).isSome =
      (leavesDefault lanes workerIds.length ||
        (msgType != defaultMsgType && hasLane lanes msgType)) := by
  have hisSome : ∀ (key : UInt32) (group : WorkerIdGroup), groups key = some group →
      group.workerIds[group.cursor]?.isSome = decide (group.workerIds ≠ []) := by
    intro key group hgroup
    by_cases hne : group.workerIds = []
    · simp [hne]
    · simp [hne, hstored.cursor key group hgroup hne]
  obtain ⟨default, hdefault, hiff⟩ := hstored.default
  have hleaves : decide (default.workerIds ≠ []) = leavesDefault lanes workerIds.length := by
    rw [Bool.eq_iff_iff, decide_eq_true_eq]
    exact hiff
  by_cases hne : msgType = defaultMsgType
  · subst hne
    rw [dispatchMsg_eq (by rw [hdefault]; rfl) hdefault, Option.isSome_map, hisSome _ _ hdefault,
      hleaves, bne_self_eq_false, Bool.false_and, Bool.or_false]
  · have hlane := hstored.hasLane msgType hne
    cases hgroup : groups msgType with
    | some group =>
      rw [hgroup, Option.isSome_some, eq_comm, Bool.and_eq_true] at hlane
      rw [dispatchMsg_eq (by rw [hgroup]; rfl) hgroup, Option.isSome_map, hisSome _ _ hgroup]
      simp [hstored.lane msgType group hne hgroup, hlane.2, hne]
    | none =>
      rw [hgroup, Option.isSome_none, eq_comm, Bool.and_eq_false_iff] at hlane
      rw [dispatchMsg_eq (by rw [hgroup]; rfl) hdefault, Option.isSome_map, hisSome _ _ hdefault,
        hleaves]
      rcases hlane with hall | hnone
      · rw [leavesDefault, (Bool.not_eq_false' _).mp hall, Bool.true_or, Bool.true_or]
      · rw [hnone, Bool.and_false, Bool.or_false]

/-- The worker that `dispatchMsg` chooses was created, and the map stays as it was stored but for a
cursor. -/
theorem stored_dispatchMsg (hstored : Stored workerIds lanes groups)
    (hdispatch : dispatchMsg groups msgType = some (wkId, groups')) :
    wkId ∈ workerIds ∧ Stored workerIds lanes groups' := by
  obtain ⟨default, hdefault, hiff⟩ := hstored.default
  obtain ⟨key, group, hkey, hgroup⟩ : ∃ key group,
      (key = if (groups msgType).isSome then msgType else defaultMsgType) ∧
        groups key = some group := by
    cases hfound : groups msgType with
    | some group => exact ⟨msgType, group, rfl, hfound⟩
    | none => exact ⟨defaultMsgType, default, rfl, hdefault⟩
  rw [dispatchMsg_eq hkey hgroup, Option.map_eq_some_iff] at hdispatch
  obtain ⟨wkId', hwkId, heq⟩ := hdispatch
  obtain ⟨rfl, rfl⟩ := Prod.mk.inj heq
  exact ⟨hstored.member key group hgroup wkId' (List.mem_of_getElem? hwkId),
    hstored.moveCursor hgroup⟩

/-! ### The invariant -/

variable {server next : ServerStart} {action : StartAction}

/-- How many workers `start` has given an id. -/
def idsPushed (workerNum : ℕ) : StartPlace → ℕ
  | .launchingIo | .launchingMonitor => 0
  | .pushing i => i - 1
  | .creating i | .spawning i => i
  | .configuring | .startingStats | .returned => workerNum

/-- How many queues `start` has created. -/
def queuesCreated (workerNum : ℕ) : StartPlace → ℕ
  | .launchingIo | .launchingMonitor => 0
  | .pushing i | .creating i => i - 1
  | .spawning i => i
  | .configuring | .startingStats | .returned => workerNum

/-- The loop variable of `start` is in its range. -/
def InLoop (workerNum : ℕ) : StartPlace → Prop
  | .pushing i | .creating i | .spawning i => 1 ≤ i ∧ i ≤ workerNum
  | _ => True

/-- The ids of the first workers. -/
def firstIds (count : ℕ) : List ℤ := (List.range count).map fun i ↦ workerId (i + 1)

/-- What holds in every state as long as no message was dispatched too early. -/
structure StartInv (server : ServerStart) : Prop where
  workers : 2 ≤ server.workerNum
  inLoop : InLoop server.workerNum server.start
  ids : server.workerIds = firstIds (idsPushed server.workerNum server.start)
  queues : server.recvQueues.length = queuesCreated server.workerNum server.start
  unset : server.configured = false → server.groups = Table.empty
  stored : server.configured = true → Stored server.workerIds server.lanes server.groups
  pushing : ∀ wkId msgType msgTypes, server.io = .pushing wkId msgType msgTypes →
    server.configured = true ∧ wkId ∈ server.workerIds
  running : server.io ≠ .undefined
  dispatches : server.DispatchesSafe

theorem startInv_opened (workerNum : ℤ) (lanes : List MessageSwimlane) :
    (opened workerNum lanes).StartInv where
  workers := by
    show 2 ≤ clampWorkers workerNum
    rw [clampWorkers]
    omega
  inLoop := trivial
  ids := rfl
  queues := rfl
  unset := fun _ ↦ rfl
  stored := fun h ↦ nomatch h
  pushing := fun _ _ _ h ↦ nomatch h
  running := fun h ↦ nomatch h
  dispatches := fun _ hmem ↦ absurd hmem List.not_mem_nil

theorem firstIds_succ (count : ℕ) :
    firstIds (count + 1) = firstIds count ++ [workerId (count + 1)] := by
  rw [firstIds, List.range_succ, List.map_append]
  rfl

theorem length_firstIds (count : ℕ) : (firstIds count).length = count := by
  rw [firstIds, List.length_map, List.length_range]

/-- Where the map is stored, all the workers have their ids and queues. -/
theorem StartInv.of_configured (hinv : server.StartInv) (hconfigured : server.configured = true) :
    server.workerIds = firstIds server.workerNum ∧ server.recvQueues.length = server.workerNum := by
  have hids := hinv.ids
  have hqueues := hinv.queues
  unfold configured at hconfigured
  split at hconfigured
  case h_1 hstart =>
    rw [hstart] at hids hqueues
    exact ⟨hids, hqueues⟩
  case h_2 hstart =>
    rw [hstart] at hids hqueues
    exact ⟨hids, hqueues⟩
  case h_3 => cases hconfigured

/-- The worker with an id has its queue. -/
theorem StartInv.queueOf (hinv : server.StartInv) (hconfigured : server.configured = true)
    {wkId : ℤ} (hmem : wkId ∈ server.workerIds) : ∃ queue, server.queueOf wkId = some queue := by
  obtain ⟨hids, hqueues⟩ := hinv.of_configured hconfigured
  rw [hids, firstIds, List.mem_map] at hmem
  obtain ⟨i, hi, rfl⟩ := hmem
  have hindex : workerIndex (workerId (i + 1)) = i := by
    rw [workerIndex, workerId, thdIdBase]
    omega
  have hlt : i < server.recvQueues.length := hqueues ▸ List.mem_range.mp hi
  refine ⟨server.recvQueues[i], ?_⟩
  rw [ServerStart.queueOf, hindex, if_pos (Int.natCast_nonneg i), Int.toNat_natCast]
  exact List.getElem?_eq_getElem hlt

/-! ### Steps -/

/-- `start` goes on before the map is stored. No message is in dispatch. -/
theorem StartInv.advance (hinv : server.StartInv) (hbefore : server.configured = false)
    {start : StartPlace} {workerIds : List ℤ} {recvQueues : List (SafeQueue UInt32)}
    {monitorRunning : Bool} {workers : ℕ}
    (hafter : configured { server with start := start } = false)
    (hloop : InLoop server.workerNum start)
    (hids : workerIds = firstIds (idsPushed server.workerNum start))
    (hqueues : recvQueues.length = queuesCreated server.workerNum start) :
    StartInv { server with
      start := start
      workerIds := workerIds
      recvQueues := recvQueues
      monitorRunning := monitorRunning
      workers := workers } where
  workers := hinv.workers
  inLoop := hloop
  ids := hids
  queues := hqueues
  unset := fun _ ↦ hinv.unset hbefore
  stored := fun hconfigured ↦ absurd (hafter.symm.trans hconfigured) (by decide)
  pushing := fun wkId msgType msgTypes hio ↦
    absurd (hbefore.symm.trans (hinv.pushing wkId msgType msgTypes hio).1) (by decide)
  running := hinv.running
  dispatches := hinv.dispatches

/-- `configSwimlanes` runs when all the workers are there. -/
theorem StartInv.configSwimlanes (hinv : server.StartInv) (hstart : server.start = .configuring)
    {groups : MsgTyp2WkIdGrp}
    (hconfig : MessageSwimlane.configSwimlanes server.workerIds server.lanes = some groups) :
    StartInv { server with groups := groups, start := .startingStats } := by
  have hids := hinv.ids
  have hqueues := hinv.queues
  rw [hstart] at hids hqueues
  have hbefore : server.configured = false := by rw [configured, hstart]
  have hne : server.workerIds ≠ [] := by
    intro hnil
    have hlength := length_firstIds server.workerNum
    have htwo := hinv.workers
    rw [show firstIds server.workerNum = [] from hids.symm.trans hnil, List.length_nil] at hlength
    omega
  exact {
    workers := hinv.workers
    inLoop := trivial
    ids := hids
    queues := hqueues
    unset := fun h ↦ nomatch h
    stored := fun _ ↦ configSwimlanes_stored hne hconfig
    pushing := fun wkId msgType msgTypes hio ↦
      absurd (hbefore.symm.trans (hinv.pushing wkId msgType msgTypes hio).1) (by decide)
    running := hinv.running
    dispatches := hinv.dispatches }

theorem StartInv.startStep (hinv : server.StartInv) (hstep : server.startStep = some next) :
    next.StartInv := by
  have hloop := hinv.inLoop
  have hids := hinv.ids
  have hqueues := hinv.queues
  have htwo := hinv.workers
  unfold ServerStart.startStep at hstep
  split at hstep
  case h_1 hstart =>
    cases hstep
    rw [hstart] at hids hqueues
    exact { hinv with
      inLoop := trivial
      ids := hids
      queues := hqueues
      unset := fun _ ↦ hinv.unset (by rw [configured, hstart])
      stored := fun h ↦ nomatch h
      pushing := fun _ _ _ h ↦ nomatch h
      running := fun h ↦ nomatch h }
  case h_2 hstart =>
    cases hstep
    rw [hstart] at hids hqueues
    exact hinv.advance (by rw [configured, hstart]) rfl ⟨Nat.le_refl 1, by omega⟩ hids hqueues
  case h_3 i hstart =>
    cases hstep
    rw [hstart] at hloop hids hqueues
    obtain ⟨count, rfl⟩ : ∃ count, i = count + 1 := ⟨i - 1, by have := hloop.1; omega⟩
    refine hinv.advance (by rw [configured, hstart]) rfl hloop ?_ hqueues
    rw [hids]
    exact (firstIds_succ count).symm
  case h_4 i hstart =>
    cases hstep
    rw [hstart] at hloop hids hqueues
    refine hinv.advance (by rw [configured, hstart]) rfl hloop hids ?_
    have hpos := hloop.1
    simp only [queuesCreated] at hqueues ⊢
    rw [List.length_append, hqueues, List.length_singleton]
    omega
  case h_5 i hstart =>
    cases hstep
    rw [hstart] at hloop hids hqueues
    have hbefore : server.configured = false := by rw [configured, hstart]
    split
    · rename_i hmore
      exact hinv.advance hbefore rfl ⟨by omega, hmore⟩ hids hqueues
    · rename_i hlast
      obtain rfl : i = server.workerNum := by
        have := hloop.2
        omega
      exact hinv.advance hbefore rfl trivial hids hqueues
  case h_6 hstart =>
    obtain ⟨groups, hconfig, rfl⟩ := Option.map_eq_some_iff.mp hstep
    exact hinv.configSwimlanes hstart hconfig
  case h_7 hstart =>
    cases hstep
    have hconfigured : server.configured = true := by rw [configured, hstart]
    rw [hstart] at hids hqueues
    exact { hinv with
      inLoop := trivial
      ids := hids
      queues := hqueues
      unset := fun h ↦ nomatch h
      stored := fun _ ↦ hinv.stored hconfigured
      pushing := fun wkId msgType msgTypes hio ↦
        ⟨rfl, (hinv.pushing wkId msgType msgTypes hio).2⟩ }
  case h_8 => cases hstep

theorem DispatchesSafe.concat (hsafe : server.DispatchesSafe) (wkId : ℤ) (taken : Bool) :
    ∀ dispatched ∈ server.dispatches ++ [Dispatched.queued wkId taken],
      ∃ wkId taken, dispatched = .queued wkId taken := by
  intro dispatched hmem
  rcases List.mem_append.mp hmem with hold | hnew
  · exact hsafe dispatched hold
  · exact ⟨wkId, taken, List.mem_singleton.mp hnew⟩

/-- The I/O thread chooses a worker. Whether it finds one is decided by the condition. -/
theorem StartInv.choose (hinv : server.StartInv) (hstep : step server .choose = some next) :
    server.ready .choose = true ∧ next.StartInv ∨
      ¬server.ready .choose = true ∧ ¬next.DispatchesSafe := by
  simp only [step] at hstep
  split at hstep
  case h_2 => cases hstep
  case h_1 msgType msgTypes hio =>
    have hready : server.ready .choose = (server.configured &&
        (leavesDefault server.lanes server.workerNum ||
          (msgType != defaultMsgType && hasLane server.lanes msgType))) := by
      rw [ready, hio]
    rw [hready]
    cases hconfigured : server.configured with
    | false =>
      -- there is no group yet
      rw [hinv.unset hconfigured] at hstep
      cases hstep
      refine Or.inr ⟨by rw [Bool.false_and]; decide, fun hsafe ↦ ?_⟩
      obtain ⟨wkId, taken, heq⟩ := hsafe .noWorker (List.mem_append_right _ List.mem_cons_self)
      cases heq
    | true =>
      have hstored := hinv.stored hconfigured
      have hlength : server.workerIds.length = server.workerNum := by
        rw [(hinv.of_configured hconfigured).1, length_firstIds]
      have hisSome := dispatchMsg_isSome hstored msgType
      rw [hlength] at hisSome
      rw [Bool.true_and, ← hisSome]
      cases hdispatch : dispatchMsg server.groups msgType with
      | some chosen =>
        obtain ⟨wkId, groups⟩ := chosen
        obtain ⟨hmem, hstored'⟩ := stored_dispatchMsg hstored hdispatch
        rw [hdispatch] at hstep
        cases hstep
        refine Or.inl ⟨rfl, { hinv with
          unset := fun h ↦ ?_
          stored := fun _ ↦ hstored'
          pushing := fun wkId' _ _ heq ↦ ?_
          running := fun h ↦ nomatch h }⟩
        · exact absurd (hconfigured.symm.trans h) (by decide)
        · cases heq
          exact ⟨hconfigured, hmem⟩
      | none =>
        rw [hdispatch] at hstep
        cases hstep
        refine Or.inr ⟨by decide, fun hsafe ↦ ?_⟩
        obtain ⟨wkId, taken, heq⟩ := hsafe .noWorker (List.mem_append_right _ List.mem_cons_self)
        cases heq

/-- The queue of the worker that was chosen is there. -/
theorem StartInv.push (hinv : server.StartInv) (hstep : step server .push = some next) :
    next.StartInv := by
  simp only [step] at hstep
  split at hstep
  case h_2 => cases hstep
  case h_1 wkId msgType msgTypes hio =>
    obtain ⟨hconfigured, hmem⟩ := hinv.pushing wkId msgType msgTypes hio
    obtain ⟨queue, hqueue⟩ := hinv.queueOf hconfigured hmem
    rw [hqueue] at hstep
    cases hstep
    exact { hinv with
      queues := (List.length_set ..).trans hinv.queues
      pushing := fun _ _ _ h ↦ nomatch h
      running := fun h ↦ nomatch h
      dispatches := hinv.dispatches.concat _ _ }

/-- Assumes: a step from a state without an early dispatch. If it meets the condition there is none
afterwards, and if not a message found no worker. -/
theorem StartInv.moves (hinv : server.StartInv) (hstep : step server action = some next) :
    server.ready action = true ∧ next.StartInv ∨
      ¬server.ready action = true ∧ ¬next.DispatchesSafe := by
  cases action with
  | start => exact Or.inl ⟨rfl, hinv.startStep hstep⟩
  | accept fd =>
    simp only [step] at hstep
    split at hstep <;> cases hstep
    exact Or.inl ⟨rfl, { hinv with }⟩
  | receive fd msgTypes =>
    simp only [step] at hstep
    split at hstep
    · obtain ⟨-, heq⟩ := Option.ite_none_right_eq_some.mp hstep
      cases heq
      exact Or.inl ⟨rfl, { hinv with
        pushing := fun _ _ _ h ↦ nomatch h
        running := fun h ↦ nomatch h }⟩
    · cases hstep
  | choose => exact hinv.choose hstep
  | push => exact Or.inl ⟨rfl, hinv.push hstep⟩
  | pop worker =>
    simp only [step] at hstep
    split at hstep
    · obtain ⟨-, heq⟩ := Option.ite_none_right_eq_some.mp hstep
      cases heq
      exact Or.inl ⟨rfl, { hinv with queues := (List.length_set ..).trans hinv.queues }⟩
    · cases hstep

theorem startStep_dispatches (hstep : server.startStep = some next) :
    next.dispatches = server.dispatches := by
  unfold ServerStart.startStep at hstep
  split at hstep
  case h_6 =>
    obtain ⟨groups, -, rfl⟩ := Option.map_eq_some_iff.mp hstep
    rfl
  all_goals cases hstep
  all_goals rfl

/-- What was dispatched stays in the log. -/
theorem dispatches_subset (hstep : step server action = some next) :
    server.dispatches ⊆ next.dispatches := by
  cases action with
  | start =>
    rw [startStep_dispatches hstep]
    exact List.Subset.refl _
  | accept fd =>
    simp only [step] at hstep
    split at hstep <;> cases hstep
    exact List.Subset.refl _
  | receive fd msgTypes =>
    simp only [step] at hstep
    split at hstep
    · obtain ⟨-, heq⟩ := Option.ite_none_right_eq_some.mp hstep
      cases heq
      exact List.Subset.refl _
    · cases hstep
  | choose =>
    simp only [step] at hstep
    split at hstep
    · split at hstep <;> cases hstep
      · exact List.Subset.refl _
      · exact List.subset_append_left _ _
    · cases hstep
  | push =>
    simp only [step] at hstep
    split at hstep
    · split at hstep <;> cases hstep
      · exact List.subset_append_left _ _
      · exact List.subset_append_left _ _
    · cases hstep
  | pop worker =>
    simp only [step] at hstep
    split at hstep
    · obtain ⟨-, heq⟩ := Option.ite_none_right_eq_some.mp hstep
      cases heq
      exact List.Subset.refl _
    · cases hstep

/-! ### Runs -/

/-- Whatever the order of the steps: every `dispatchMsg` finds a worker and its queue if and only if
none of them runs before `configSwimlanes` has stored the map, and, where the lanes leave no worker
to the default group, none of them has a type without a lane. -/
theorem dispatchesSafe_iff (workerNum : ℤ) (lanes : List MessageSwimlane)
    (actions : List StartAction) (final : ServerStart)
    (hrun : runFrom step (opened workerNum lanes) actions = some final) :
    final.DispatchesSafe ↔
      Along step (fun server action ↦ server.ready action = true) (opened workerNum lanes)
        actions := by
  have hcases := runFrom_along_or StartInv (fun server ↦ ¬server.DispatchesSafe)
    (fun _ _ _ hinv hnext ↦ hinv.moves hnext)
    (fun _ _ _ hunsafe hnext hsafe ↦
      hunsafe fun dispatched hmem ↦ hsafe dispatched (dispatches_subset hnext hmem))
    (startInv_opened workerNum lanes) hrun
  rcases hcases with ⟨hall, hinv⟩ | ⟨hnot, hunsafe⟩
  · exact iff_of_true hinv.dispatches hall
  · exact iff_of_false hunsafe hnot

/-- Two workers, the second of them for the messages of type 7: `start` runs to its end, and then a
message of each kind is dispatched. -/
def startedRun : List StartAction :=
  List.flatten [
    List.replicate 10 .start,
    [.accept 5, .receive 5 [7, 1], .choose, .push, .pop 0, .choose, .push]]

theorem isSome_startedRun :
    (runFrom step (opened 2 [⟨[7], 1⟩]) startedRun).isSome = true := by
  decide +kernel

theorem dispatchesSafe_iff_startedRun :
    ((runFrom step (opened 2 [⟨[7], 1⟩]) startedRun).get isSome_startedRun).DispatchesSafe ↔
      Along step (fun server action ↦ server.ready action = true) (opened 2 [⟨[7], 1⟩])
        startedRun :=
  dispatchesSafe_iff 2 [⟨[7], 1⟩] startedRun _ (Option.some_get isSome_startedRun).symm

/-- A client that connected after `open`: its message is dispatched before there are workers. -/
theorem noWorker_earlyRun :
    (runFrom step (opened 8 []) [.start, .accept 5, .receive 5 [7], .choose]).map dispatches =
      some [.noWorker] := by
  decide

end ServerStart

end TszyUlt.Zbf
