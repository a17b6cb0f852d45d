import Mathlib.Data.List.Infix
import TszyUlt.Lib.Table
import TszyUlt.Lib.Transition
import TszyUlt.Zbf.ServerStart
import TszyUlt.Zbf.Swimlanes
import TszyUlt.Zbf.QueueCalls

/-!
# The way of a message through the server, and its stop

`zbf/socket_tcp_v5.hpp`: a `tcpsock_server` that was started, up to the end of `serveUtilStop`. The
I/O thread takes messages off the connections and passes each to the queue of a worker
(`dispatchMsg`), the workers take them out (`worker`), one thread calls `stop` and another one waits
in `serveUtilStop`, which joins the threads and then releases the queues with what is left in them.
Every section under a lock is one step, and the threads interleave in any order.

The log of the dispatches and the ends of the messages are part of the state. `Accounted` says what
holds between them at any time: each message that was received was dispatched once, in the order of
arrival, or is still in the hands of the I/O thread; and for each worker the messages that its queue
took are those that have come to an end, the one that it holds and those that wait, in this order.

* `messages_accounted`: every run keeps this and accesses no queue that is gone, and when
  `serveUtilStop` is done, each message was refused by a full queue or came to one end, in the order
  in which the queue of its worker took them. No message is cleared before all queues are stopped.
* The assumption is that `serveUtilStop` does not release a queue between the section of its `stop`
  and the notification after it. It can only be the last queue, and only where `stop` runs on
  another thread (`not_safe_lateNotify`).

Scope. What is received and whether a user is gone or closed are inputs of the steps. The statistics
are left out, with the thread that `_statLogger.stop` joins, and so is what the monitor does before
it sees the flag.
-/

set_option autoImplicit false
set_option relaxedAutoImplicit false

namespace TszyUlt.Zbf

open Lib MessageSwimlane

/-! ### The threads -/

/-- `TcpMsgPtr`: the number of a message in the order of arrival, its type, and whether it is a
heartbeat. -/
structure QueuedMsg where
  seq : ℕ
  msgType : UInt32
  heartbeat : Bool
  deriving DecidableEq, Repr

/-- How a message that a queue took came to its end. -/
inductive MsgEnd
  /-- `ptr.user.lock()` found no user. -/
  | userGone
  | heartbeat
  | userClosed
  /-- `onRecvMsg` returned. -/
  | handled
  /-- `serveUtilStop` took it out of the queue. -/
  | cleared
  deriving DecidableEq, Repr

/-- Where the I/O thread stands. `events` is how many events of the batch are left. -/
inductive IoPlace
  /-- At the head of the loop. -/
  | loop
  | waiting
  /-- Before the `isShutDown` of the next event. -/
  | checking (events : ℕ)
  | handling (events : ℕ)
  /-- In the loop over the messages that were cut off. -/
  | dispatching (msgs : List QueuedMsg) (events : ℕ)
  /-- In `dispatchMsg`, with the worker that it has chosen. -/
  | pushing (wkId : ℤ) (msg : QueuedMsg) (msgs : List QueuedMsg) (events : ℕ)
  | exited
  /-- It has accessed what is not there. -/
  | undefined
  deriving DecidableEq, Repr

/-- Where a worker stands. -/
inductive WorkerPlace
  | popping
  | holding (msg : QueuedMsg)
  /-- In `onRecvMsg`. -/
  | running (msg : QueuedMsg)
  | exited
  deriving DecidableEq, Repr

/-- Where `stop` stands. `i` is its loop variable. -/
inductive StopPlace
  | notCalled
  | stopping (i : ℕ)
  /-- Before the `notify_all` of the queue. -/
  | notifying (i : ℕ)
  | returned
  | undefined
  deriving DecidableEq, Repr

/-- Where `serveUtilStop` stands. -/
inductive JoinPlace
  | notCalled
  | joiningIo
  | joiningMonitor
  | joiningWorker (i : ℕ)
  /-- In the loop that takes out what is left. -/
  | clearing (i : ℕ)
  | returned
  | undefined
  deriving DecidableEq, Repr

/-- A worker with its queue and the ends of its messages. -/
structure WorkerLane where
  /-- `_recvQueues[i]`, or nothing after its `reset`. -/
  queue : Option (SafeQueue QueuedMsg)
  worker : WorkerPlace
  ended : List (QueuedMsg × MsgEnd)

/-- A `dispatchMsg`: the message, the index of the worker, and whether its queue took it. -/
structure MsgDispatch where
  msg : QueuedMsg
  worker : ℕ
  taken : Bool
  deriving DecidableEq, Repr

/-- `tcpsock_server`, after `start`. -/
structure ServerStop where
  shutdown : Bool
  /-- `_msgTyp2WkIdGrp`. -/
  groups : MsgTyp2WkIdGrp
  io : IoPlace
  monitorRunning : Bool
  lanes : List WorkerLane
  stopper : StopPlace
  joiner : JoinPlace
  received : List QueuedMsg
  dispatched : List MsgDispatch

/-- The steps of the threads. -/
inductive ShutdownAction
  /-- The `isShutDown` at the head of the loop. -/
  | enterLoop
  /-- `sp_wait` returned the number of events, or an error. -/
  | poll (events : Option ℕ)
  /-- The `isShutDown` of the next event, or the end of the batch. -/
  | check
  /-- An event was handled up to the loop over the messages, which were cut off. -/
  | handle (msgs : List QueuedMsg)
  /-- The section of `dispatchMsg` under `_lockMT2WI`, or the end of the loop. -/
  | choose
  /-- The rest of `dispatchMsg`. -/
  | push
  | monitorExit
  /-- `pop_timeout` of a worker. -/
  | pop (i : ℕ)
  /-- What a worker finds out about its message. -/
  | resolve (i : ℕ) (gone closed : Bool)
  /-- `onRecvMsg` returns. -/
  | finish (i : ℕ)
  | stop
  | join
  deriving DecidableEq, Repr

namespace ServerStop

variable (server : ServerStop)

/-- After `start`, with the number of workers and the map of the lanes. -/
def started (workers : ℕ) (groups : MsgTyp2WkIdGrp) : ServerStop where
  shutdown := false
  groups := groups
  io := .loop
  monitorRunning := true
  lanes := List.replicate workers ⟨some SafeQueue.new, .popping, []⟩
  stopper := .notCalled
  joiner := .notCalled
  received := []
  dispatched := []

/-- A lane that changes. -/
def setLane (i : ℕ) (lane : WorkerLane) : ServerStop :=
  { server with lanes := server.lanes.set i lane }

/-- The queue that a push goes to, with its index. -/
def laneOf (wkId : ℤ) : Option (ℕ × WorkerLane × SafeQueue QueuedMsg) :=
  if 0 ≤ ServerStart.workerIndex wkId then
    let i := (ServerStart.workerIndex wkId).toNat
    server.lanes[i]?.bind fun lane ↦ lane.queue.map fun queue ↦ (i, lane, queue)
  else none

/-- The rest of `dispatchMsg`. -/
def pushStep : Option ServerStop :=
  match server.io with
  | .pushing wkId msg msgs events =>
    match server.laneOf wkId with
    | none => some { server with io := .undefined }
    | some (i, lane, queue) =>
      let pushed := queue.push ServerStart.maxPendingMsg msg
      some { server.setLane i { lane with queue := some pushed.2 } with
        io := .dispatching msgs events
        dispatched := server.dispatched ++ [⟨msg, i, pushed.1⟩] }
  | _ => none

/-- `pop_timeout` of a worker. -/
def popStep (i : ℕ) : Option ServerStop :=
  server.lanes[i]?.bind fun lane ↦
    match lane.worker, lane.queue with
    | .popping, some queue =>
      match queue.popTimeout with
      | (.success msg, rest) =>
        some (server.setLane i { lane with queue := some rest, worker := .holding msg })
      | (.timeout, _) => some server
      | (.exit, _) => some (server.setLane i { lane with worker := .exited })
    | _, _ => none

/-- What a worker does with its message up to `onRecvMsg`. -/
def resolveStep (i : ℕ) (gone closed : Bool) : Option ServerStop :=
  server.lanes[i]?.bind fun lane ↦
    match lane.worker with
    | .holding msg =>
      let finished (how : MsgEnd) : WorkerLane :=
        { lane with worker := .popping, ended := lane.ended ++ [(msg, how)] }
      some <| server.setLane i <|
        if gone then finished .userGone
        else if msg.heartbeat then finished .heartbeat
        else if closed then finished .userClosed
        else { lane with worker := .running msg }
    | _ => none

/-- `onRecvMsg` returns. -/
def finishStep (i : ℕ) : Option ServerStop :=
  server.lanes[i]?.bind fun lane ↦
    match lane.worker with
    | .running msg => some (server.setLane i
        { lane with worker := .popping, ended := lane.ended ++ [(msg, .handled)] })
    | _ => none

/-- A step of `stop`. -/
def stopStep : Option ServerStop :=
  match server.stopper with
  | .notCalled => some { server with shutdown := true, stopper := .stopping 0 }
  | .stopping i =>
    match server.lanes[i]? with
    | none => some { server with stopper := .returned }
    | some lane =>
      match lane.queue with
      | none => some { server with stopper := .undefined }
      | some queue => some { server.setLane i { lane with queue := some queue.stop } with
          stopper := .notifying i }
  | .notifying i =>
    match server.lanes[i]?.bind WorkerLane.queue with
    | none => some { server with stopper := .undefined }
    | some _ => some { server with stopper := .stopping (i + 1) }
  | .returned | .undefined => none

/-- A step of `serveUtilStop`. -/
def joinStep : Option ServerStop :=
  match server.joiner with
  | .notCalled => some { server with joiner := .joiningIo }
  | .joiningIo =>
    if server.io = .exited then some { server with joiner := .joiningMonitor } else none
  | .joiningMonitor =>
    if server.monitorRunning then none else some { server with joiner := .joiningWorker 0 }
  | .joiningWorker i =>
    match server.lanes[i]? with
    | none => some { server with joiner := .clearing 0 }
    | some lane =>
      if lane.worker = .exited then some { server with joiner := .joiningWorker (i + 1) } else none
  | .clearing i =>
    match server.lanes[i]? with
    | none => some { server with joiner := .returned }
    | some lane =>
      match lane.queue with
      | none => some { server with joiner := .undefined }
      | some queue =>
        match queue.rawPop with
        | (some msg, rest) => some (server.setLane i
            { lane with queue := some rest, ended := lane.ended ++ [(msg, .cleared)] })
        | (none, _) => some { server.setLane i { lane with queue := none } with
            joiner := .clearing (i + 1) }
  | .returned | .undefined => none

/-- One step. -/
def step (server : ServerStop) : ShutdownAction → Option ServerStop
  | .enterLoop =>
    if server.io = .loop then
      some { server with io := if server.shutdown then .exited else .waiting }
    else none
  | .poll events =>
    if server.io = .waiting then
      some { server with io := events.elim .exited .checking }
    else none
  | .check =>
    match server.io with
    | .checking 0 => some { server with io := .loop }
    | .checking (events + 1) =>
      some { server with io := if server.shutdown then .loop else .handling events }
    | _ => none
  | .handle msgs =>
    match server.io with
    | .handling events => some { server with
        io := .dispatching msgs events, received := server.received ++ msgs }
    | _ => none
  | .choose =>
    match server.io with
    | .dispatching [] events => some { server with io := .checking events }
    | .dispatching (msg :: msgs) events =>
      match ServerStart.dispatchMsg server.groups msg.msgType with
      | some (wkId, groups) =>
        some { server with groups := groups, io := .pushing wkId msg msgs events }
      | none => some { server with io := .undefined }
    | _ => none
  | .push => server.pushStep
  | .monitorExit =>
    if server.monitorRunning && server.shutdown then some { server with monitorRunning := false }
    else none
  | .pop i => server.popStep i
  | .resolve i gone closed => server.resolveStep i gone closed
  | .finish i => server.finishStep i
  | .stop => server.stopStep
  | .join => server.joinStep

end ServerStop

/-! ### The account of the messages -/

/-- The messages that the I/O thread still has to dispatch. -/
def IoPlace.hand : IoPlace → List QueuedMsg
  | .dispatching msgs _ => msgs
  | .pushing _ msg msgs _ => msg :: msgs
  | _ => []

/-- The I/O thread is between two events. -/
def IoPlace.Idle : IoPlace → Prop
  | .loop | .waiting | .checking _ | .handling _ | .exited => True
  | .dispatching _ _ | .pushing _ _ _ _ | .undefined => False

theorem IoPlace.Idle.spec {io : IoPlace} (hidle : io.Idle) :
    io.hand = [] ∧ io ≠ .undefined ∧
      ∀ wkId msg msgs events, io ≠ .pushing wkId msg msgs events := by
  cases io with
  | loop | waiting | checking | handling | exited => exact ⟨rfl, nofun, nofun⟩
  | dispatching | pushing | undefined => exact hidle.elim

/-- The message that a worker has. -/
def WorkerPlace.held : WorkerPlace → List QueuedMsg
  | .holding msg | .running msg => [msg]
  | _ => []

/-- The messages that wait in a queue. -/
def WorkerLane.queued (lane : WorkerLane) : List QueuedMsg := lane.queue.elim [] SafeQueue.items

/-- The messages that came to an end, in this order. -/
def WorkerLane.done (lane : WorkerLane) : List QueuedMsg := lane.ended.map Prod.fst

/-- The messages of a log that the queue of a worker took. -/
def takenBy (dispatched : List MsgDispatch) (i : ℕ) : List QueuedMsg :=
  (dispatched.filter fun d ↦ d.taken && d.worker == i).map MsgDispatch.msg

theorem takenBy_concat (dispatched : List MsgDispatch) (d : MsgDispatch) (i : ℕ) :
    takenBy (dispatched ++ [d]) i =
      takenBy dispatched i ++ if d.taken && d.worker == i then [d.msg] else [] := by
  rw [takenBy, List.filter_append, List.map_append, List.filter_singleton]
  cases d.taken && d.worker == i <;> rfl

/-- How many queues are stopped. -/
def StopPlace.count (workers : ℕ) : StopPlace → ℕ
  | .notCalled | .undefined => 0
  | .stopping i => i
  | .notifying i => i + 1
  | .returned => workers

/-- How many workers were joined. -/
def JoinPlace.joined (workers : ℕ) : JoinPlace → ℕ
  | .notCalled | .joiningIo | .joiningMonitor | .undefined => 0
  | .joiningWorker i => i
  | .clearing _ | .returned => workers

/-- How many queues were released. -/
def JoinPlace.released (workers : ℕ) : JoinPlace → ℕ
  | .clearing i => i
  | .returned => workers
  | _ => 0

/-- The queue that is being cleared. -/
def JoinPlace.clearingAt : JoinPlace → Option ℕ
  | .clearing i => some i
  | _ => none

namespace ServerStop

variable (server : ServerStop)

/-- The messages that the queue of a worker took. -/
def taken (i : ℕ) : List QueuedMsg := takenBy server.dispatched i

/-- No thread has accessed what is not there. -/
def Safe : Prop :=
  server.io ≠ .undefined ∧ server.stopper ≠ .undefined ∧ server.joiner ≠ .undefined

/-- What became of the messages. -/
structure Accounted : Prop where
  /-- Each message is dispatched once, in the order of arrival. -/
  arrived : server.received = server.dispatched.map MsgDispatch.msg ++ server.io.hand
  worker : ∀ d ∈ server.dispatched, d.worker < server.lanes.length
  /-- Each message that a queue took is at one place, and they end in this order. -/
  order : ∀ (i : ℕ) (lane : WorkerLane), server.lanes[i]? = some lane →
    server.taken i = lane.done ++ (lane.worker.held ++ lane.queued)
  /-- A message is only cleared after every queue was stopped. -/
  cleared : ∀ (i : ℕ) (lane : WorkerLane) (msg : QueuedMsg), server.lanes[i]? = some lane →
    (msg, .cleared) ∈ lane.ended → server.lanes.length ≤ server.stopper.count server.lanes.length

/-- The threads are gone, and every message has its end: it was refused, or it ended as one of those
that the queue of its worker took. -/
structure Settled : Prop where
  io : server.io = .exited
  monitor : server.monitorRunning = false
  workers : ∀ (i : ℕ) (lane : WorkerLane), server.lanes[i]? = some lane →
    lane.worker = .exited ∧ lane.queue = none
  dispatched : server.received = server.dispatched.map MsgDispatch.msg
  ended : ∀ (i : ℕ) (lane : WorkerLane), server.lanes[i]? = some lane → server.taken i = lane.done

/-- `serveUtilStop` leaves a queue alone until the notification of its `stop` is over. -/
def NotifiesFirst (server : ServerStop) : ShutdownAction → Prop
  | .join => ∀ i ∈ server.joiner.clearingAt, server.stopper ≠ .notifying i
  | _ => True

instance decidableNotifiesFirst (server : ServerStop) :
    ∀ action, Decidable (server.NotifiesFirst action)
  | .join =>
    inferInstanceAs (Decidable (∀ i ∈ server.joiner.clearingAt, server.stopper ≠ .notifying i))
  | .enterLoop | .poll _ | .check | .handle _ | .choose | .push | .monitorExit | .pop _
  | .resolve _ _ _ | .finish _ | .stop => isTrue trivial

/-! ### The invariant -/

/-- What holds of a worker and its queue. -/
structure LaneOk (workers : ℕ) (stopper : StopPlace) (joiner : JoinPlace) (taken : List QueuedMsg)
    (i : ℕ) (lane : WorkerLane) : Prop where
  released : lane.queue = none ↔ i < joiner.released workers
  stopped : ∀ queue, lane.queue = some queue → (queue.exit = true ↔ i < stopper.count workers)
  exited : lane.worker = .exited → i < stopper.count workers
  joined : i < joiner.joined workers → lane.worker = .exited
  order : taken = lane.done ++ (lane.worker.held ++ lane.queued)
  cleared : ∀ msg, (msg, .cleared) ∈ lane.ended → workers ≤ stopper.count workers

/-- What holds in every state. -/
structure StopInv (lanes : List MessageSwimlane) : Prop where
  groups : Stored (ServerStart.firstIds server.lanes.length) lanes server.groups
  leaves : leavesDefault lanes server.lanes.length = true
  pushing : ∀ wkId msg msgs events, server.io = .pushing wkId msg msgs events →
    wkId ∈ ServerStart.firstIds server.lanes.length
  safe : server.Safe
  flagged : server.stopper ≠ .notCalled → server.shutdown = true
  notifying : ∀ i, server.stopper = .notifying i →
    i < server.lanes.length ∧ server.joiner.released server.lanes.length ≤ i
  joinedIo : server.joiner ∉ [.notCalled, .joiningIo] → server.io = .exited
  joinedMonitor : server.joiner ∉ [.notCalled, .joiningIo, .joiningMonitor] →
    server.monitorRunning = false
  lane : ∀ (i : ℕ) (lane : WorkerLane), server.lanes[i]? = some lane →
    LaneOk server.lanes.length server.stopper server.joiner (server.taken i) i lane
  arrived : server.received = server.dispatched.map MsgDispatch.msg ++ server.io.hand
  worker : ∀ d ∈ server.dispatched, d.worker < server.lanes.length

variable {server} {config : List MessageSwimlane}

theorem StopInv.accounted (hinv : server.StopInv config) : server.Accounted where
  arrived := hinv.arrived
  worker := hinv.worker
  order := fun i lane hlane ↦ (hinv.lane i lane hlane).order
  cleared := fun i lane msg hlane hmem ↦ (hinv.lane i lane hlane).cleared msg hmem

/-- Assumes: `serveUtilStop` has returned. -/
theorem StopInv.settled (hinv : server.StopInv config) (hreturned : server.joiner = .returned) :
    server.Settled := by
  have hlanes : ∀ (i : ℕ) (lane : WorkerLane), server.lanes[i]? = some lane →
      lane.worker = .exited ∧ lane.queue = none := by
    intro i lane hlane
    have hlt := lt_length_of_getElem? hlane
    have hok := hinv.lane i lane hlane
    refine ⟨hok.joined ?_, hok.released.mpr ?_⟩ <;> rw [hreturned] <;> exact hlt
  have hio : server.io = .exited := hinv.joinedIo (by rw [hreturned]; simp)
  have hhand : server.io.hand = [] := by rw [hio]; rfl
  refine ⟨hio, hinv.joinedMonitor (by rw [hreturned]; simp), hlanes, ?_, ?_⟩
  · rw [hinv.arrived, hhand, List.append_nil]
  · intro i lane hlane
    obtain ⟨hworker, hqueue⟩ := hlanes i lane hlane
    have hnone : lane.worker.held ++ lane.queued = [] := by
      rw [hworker, WorkerLane.queued, hqueue]
      rfl
    rw [(hinv.lane i lane hlane).order, hnone, List.append_nil]

theorem stopInv_started {workers : ℕ} {groups : MsgTyp2WkIdGrp}
    (hgroups : Stored (ServerStart.firstIds workers) config groups)
    (hleaves : leavesDefault config workers = true) :
    (started workers groups).StopInv config := by
  have hlength : (started workers groups).lanes.length = workers := List.length_replicate
  refine ⟨by rwa [hlength], by rwa [hlength], ?_, ?_, fun hne ↦ absurd rfl hne, ?_, ?_, ?_, ?_, rfl,
    ?_⟩
  · rintro _ _ _ _ ⟨⟩
  · refine ⟨?_, ?_, ?_⟩ <;> rintro ⟨⟩
  · rintro _ ⟨⟩
  · intro hjoiner
    exact absurd (List.mem_cons_self) hjoiner
  · intro hjoiner
    exact absurd (List.mem_cons_self) hjoiner
  · intro i lane hlane
    obtain rfl : ⟨some SafeQueue.new, .popping, []⟩ = lane :=
      (List.eq_of_mem_replicate (List.mem_of_getElem? hlane)).symm
    refine ⟨?_, ?_, ?_, ?_, rfl, ?_⟩
    · exact ⟨nofun, fun hlt ↦ absurd hlt (Nat.not_lt_zero i)⟩
    · rintro _ ⟨⟩
      exact ⟨nofun, fun hlt ↦ absurd hlt (Nat.not_lt_zero i)⟩
    · rintro ⟨⟩
    · exact fun hlt ↦ absurd hlt (Nat.not_lt_zero i)
    · exact fun _ hmem ↦ by cases hmem
  · exact fun _ hmem ↦ by cases hmem

/-! ### Steps of the I/O thread and the monitor -/

namespace StopInv

variable {next : ServerStop}

/-- Assumes: an I/O thread that has not ended, with nothing in hand. It goes to the next event. -/
theorem setIo (hinv : server.StopInv config) (hactive : server.io ≠ .exited)
    (hhand : server.io.hand = []) {io : IoPlace} (hidle : io.Idle) :
    StopInv { server with io := io } config :=
  { hinv with
    pushing := fun wkId msg msgs events hio ↦ absurd hio (hidle.spec.2.2 wkId msg msgs events)
    safe := ⟨hidle.spec.2.1, hinv.safe.2⟩
    joinedIo := fun hjoiner ↦ absurd (hinv.joinedIo hjoiner) hactive
    arrived := by
      rw [hidle.spec.1, ← hhand]
      exact hinv.arrived }

theorem enterLoop (hinv : server.StopInv config) (hstep : server.step .enterLoop = some next) :
    next.StopInv config := by
  rw [step] at hstep
  by_cases hio : server.io = .loop
  · rw [if_pos hio] at hstep
    cases hstep
    refine hinv.setIo (by rw [hio]; nofun) (by rw [hio]; rfl) ?_
    cases server.shutdown <;> trivial
  · rw [if_neg hio] at hstep
    cases hstep

theorem poll (hinv : server.StopInv config) {events : Option ℕ}
    (hstep : server.step (.poll events) = some next) : next.StopInv config := by
  rw [step] at hstep
  by_cases hio : server.io = .waiting
  · rw [if_pos hio] at hstep
    cases hstep
    refine hinv.setIo (by rw [hio]; nofun) (by rw [hio]; rfl) ?_
    cases events <;> trivial
  · rw [if_neg hio] at hstep
    cases hstep

theorem check (hinv : server.StopInv config) (hstep : server.step .check = some next) :
    next.StopInv config := by
  rw [step] at hstep
  split at hstep
  · rename_i hio
    cases hstep
    exact hinv.setIo (by rw [hio]; nofun) (by rw [hio]; rfl) trivial
  · rename_i events hio
    cases hstep
    refine hinv.setIo (by rw [hio]; nofun) (by rw [hio]; rfl) ?_
    cases server.shutdown <;> trivial
  · cases hstep

theorem handle (hinv : server.StopInv config) {msgs : List QueuedMsg}
    (hstep : server.step (.handle msgs) = some next) : next.StopInv config := by
  rw [step] at hstep
  split at hstep
  · rename_i events hio
    cases hstep
    have harrived := hinv.arrived
    rw [hio, IoPlace.hand, List.append_nil] at harrived
    · exact { hinv with
        pushing := nofun
        safe := ⟨nofun, hinv.safe.2⟩
        joinedIo := fun hjoiner ↦ by
          have hexited := hinv.joinedIo hjoiner
          rw [hio] at hexited
          cases hexited
        arrived := congrArg (· ++ msgs) harrived }
    all_goals nofun
  · cases hstep

theorem choose (hinv : server.StopInv config) (hstep : server.step .choose = some next) :
    next.StopInv config := by
  rw [step] at hstep
  split at hstep
  · rename_i events hio
    cases hstep
    exact hinv.setIo (by rw [hio]; nofun) (by rw [hio]; rfl) trivial
  · rename_i msg msgs events hio
    have harrived := hinv.arrived
    rw [hio] at harrived
    have hworker : (ServerStart.dispatchMsg server.groups msg.msgType).isSome = true := by
      rw [ServerStart.dispatchMsg_isSome hinv.groups, ServerStart.length_firstIds, hinv.leaves,
        Bool.true_or]
    obtain ⟨⟨wkId, groups⟩, hdispatch⟩ := Option.isSome_iff_exists.mp hworker
    obtain ⟨hmem, hstored⟩ := ServerStart.stored_dispatchMsg hinv.groups hdispatch
    rw [hdispatch] at hstep
    cases hstep
    exact { hinv with
      groups := hstored
      pushing := by
        rintro _ _ _ _ ⟨⟩
        exact hmem
      safe := ⟨nofun, hinv.safe.2⟩
      joinedIo := fun hjoiner ↦ by
        have hexited := hinv.joinedIo hjoiner
        rw [hio] at hexited
        cases hexited
      arrived := harrived }
  · cases hstep

theorem monitorExit (hinv : server.StopInv config)
    (hstep : server.step .monitorExit = some next) : next.StopInv config := by
  rw [step] at hstep
  split_ifs at hstep
  cases hstep
  exact { hinv with joinedMonitor := fun _ ↦ rfl }

end StopInv

/-! ### Steps of the workers -/

section Queue

variable {queue rest : SafeQueue QueuedMsg} {msg : QueuedMsg}

theorem exit_of_success (hpop : queue.popTimeout = (.success msg, rest)) :
    rest.exit = queue.exit := by
  unfold SafeQueue.popTimeout at hpop
  split at hpop
  · cases hpop
  · split at hpop <;> cases hpop
    rfl

theorem exit_of_exit (hpop : queue.popTimeout = (.exit, rest)) : queue.exit = true := by
  unfold SafeQueue.popTimeout at hpop
  split at hpop
  · assumption
  · split at hpop <;> cases hpop

theorem exit_push (queue : SafeQueue QueuedMsg) (cap : ℕ) (msg : QueuedMsg) :
    (queue.push cap msg).2.exit = queue.exit := by
  unfold SafeQueue.push
  split <;> rfl

theorem items_push (queue : SafeQueue QueuedMsg) (cap : ℕ) (msg : QueuedMsg) :
    (queue.push cap msg).2.items =
      queue.items ++ if (queue.push cap msg).1 then [msg] else [] := by
  unfold SafeQueue.push
  split
  · rfl
  · exact (List.append_nil _).symm

theorem rawPop_eq_some (hpop : queue.rawPop = (some msg, rest)) :
    queue.items = msg :: rest.items ∧ rest.exit = queue.exit := by
  unfold SafeQueue.rawPop at hpop
  split at hpop
  · cases hpop
  · rename_i items hitems
    cases hpop
    exact ⟨hitems, rfl⟩

theorem rawPop_eq_none (hpop : queue.rawPop = (none, rest)) : queue.items = [] := by
  unfold SafeQueue.rawPop at hpop
  split at hpop
  · assumption
  · cases hpop

end Queue

namespace LaneOk

variable {workers i : ℕ} {stopper : StopPlace} {joiner : JoinPlace} {taken : List QueuedMsg}
  {lane : WorkerLane} {queue rest : SafeQueue QueuedMsg} {msg : QueuedMsg}

theorem not_joined (hok : LaneOk workers stopper joiner taken i lane)
    (hactive : lane.worker ≠ .exited) : ¬ i < joiner.joined workers :=
  fun hlt ↦ hactive (hok.joined hlt)

theorem popped (hok : LaneOk workers stopper joiner taken i lane)
    (hworker : lane.worker = .popping) (hqueue : lane.queue = some queue)
    (hpop : queue.popTimeout = (.success msg, rest)) :
    LaneOk workers stopper joiner taken i
      { lane with queue := some rest, worker := .holding msg } where
  released := ⟨nofun, fun hlt ↦ by
    have hnone := hok.released.mpr hlt
    rw [hqueue] at hnone
    cases hnone⟩
  stopped := by
    rintro _ ⟨⟩
    rw [exit_of_success hpop]
    exact hok.stopped queue hqueue
  exited := nofun
  joined := fun hlt ↦ absurd hlt (hok.not_joined (by rw [hworker]; nofun))
  order := by
    rw [hok.order, hworker, WorkerLane.queued, hqueue, Option.elim_some,
      SafeQueue.popTimeout_eq_success hpop]
    rfl
  cleared := hok.cleared

theorem exits (hok : LaneOk workers stopper joiner taken i lane)
    (hworker : lane.worker = .popping) (hqueue : lane.queue = some queue)
    (hpop : queue.popTimeout = (.exit, rest)) :
    LaneOk workers stopper joiner taken i { lane with worker := .exited } :=
  { hok with
    exited := fun _ ↦ (hok.stopped queue hqueue).mp (exit_of_exit hpop)
    joined := fun _ ↦ rfl
    order := by
      rw [hok.order, hworker]
      rfl }

/-- Assumes: a worker that holds a message. The message comes to an end. -/
theorem ends (hok : LaneOk workers stopper joiner taken i lane) (hheld : lane.worker.held = [msg])
    {how : MsgEnd} (hhow : how ≠ .cleared) :
    LaneOk workers stopper joiner taken i
      { lane with worker := .popping, ended := lane.ended ++ [(msg, how)] } :=
  { hok with
    exited := nofun
    joined := fun hlt ↦ absurd hlt (hok.not_joined fun hexited ↦ by
      rw [hexited] at hheld
      cases hheld)
    order := by
      rw [hok.order, hheld, WorkerLane.done, WorkerLane.done, List.map_append, List.append_assoc]
      rfl
    cleared := fun other hmem ↦ by
      obtain hmem | hmem := List.mem_append.mp hmem
      · exact hok.cleared other hmem
      · cases List.mem_singleton.mp hmem
        exact absurd rfl hhow }

theorem runs (hok : LaneOk workers stopper joiner taken i lane)
    (hworker : lane.worker = .holding msg) :
    LaneOk workers stopper joiner taken i { lane with worker := .running msg } :=
  { hok with
    exited := nofun
    joined := fun hlt ↦ absurd hlt (hok.not_joined (by rw [hworker]; nofun))
    order := by
      rw [hok.order, hworker]
      rfl }

/-- A message is dispatched to the queue, which takes it or is full. -/
theorem pushed (hok : LaneOk workers stopper joiner taken i lane) (hqueue : lane.queue = some queue)
    (cap : ℕ) (msg : QueuedMsg) :
    LaneOk workers stopper joiner (taken ++ if (queue.push cap msg).1 then [msg] else []) i
      { lane with queue := some (queue.push cap msg).2 } :=
  { hok with
    released := ⟨nofun, fun hlt ↦ by
      have hnone := hok.released.mpr hlt
      rw [hqueue] at hnone
      cases hnone⟩
    stopped := by
      rintro _ ⟨⟩
      rw [exit_push]
      exact hok.stopped queue hqueue
    order := by
      rw [hok.order, WorkerLane.queued, hqueue, WorkerLane.queued, Option.elim_some,
        Option.elim_some, items_push, List.append_assoc, List.append_assoc]
      rfl }

end LaneOk

namespace StopInv

variable {next : ServerStop} {i : ℕ} {lane lane' : WorkerLane}

/-- Assumes: what holds of the lane that changes, and of the others. -/
theorem lane_set {workers : ℕ} {stopper : StopPlace} {joiner : JoinPlace}
    (taken : ℕ → List QueuedMsg) {lanes : List WorkerLane}
    (hself : LaneOk workers stopper joiner (taken i) i lane')
    (hothers : ∀ (j : ℕ) (other : WorkerLane), j ≠ i → lanes[j]? = some other →
      LaneOk workers stopper joiner (taken j) j other) :
    ∀ (j : ℕ) (found : WorkerLane), (lanes.set i lane')[j]? = some found →
      LaneOk workers stopper joiner (taken j) j found := by
  intro j found hfound
  obtain ⟨rfl, rfl⟩ | ⟨hne, hfound⟩ := getElem?_set_cases hfound
  · exact hself
  · exact hothers j found hne hfound

/-- Assumes: a lane that changes. -/
theorem setLane (hinv : server.StopInv config)
    (hok : LaneOk server.lanes.length server.stopper server.joiner (server.taken i) i lane') :
    (server.setLane i lane').StopInv config := by
  have hlength : (server.setLane i lane').lanes.length = server.lanes.length := List.length_set
  refine ⟨?_, ?_, ?_, hinv.safe, hinv.flagged, ?_, hinv.joinedIo, hinv.joinedMonitor, ?_,
    hinv.arrived, ?_⟩ <;> rw [hlength]
  · exact hinv.groups
  · exact hinv.leaves
  · exact hinv.pushing
  · exact hinv.notifying
  · exact lane_set server.taken hok fun j other _ ↦ hinv.lane j other
  · exact hinv.worker

theorem pop (hinv : server.StopInv config) (hstep : server.step (.pop i) = some next) :
    next.StopInv config := by
  rw [step, popStep, Option.bind_eq_some_iff] at hstep
  obtain ⟨lane, hlane, hstep⟩ := hstep
  have hok := hinv.lane i lane hlane
  split at hstep
  · rename_i queue hworker hqueue
    split at hstep <;> cases hstep
    · rename_i msg rest hpop
      exact hinv.setLane (hok.popped hworker hqueue hpop)
    · exact hinv
    · rename_i rest hpop
      exact hinv.setLane (hok.exits hworker hqueue hpop)
  · cases hstep

theorem resolve (hinv : server.StopInv config) {gone closed : Bool}
    (hstep : server.step (.resolve i gone closed) = some next) : next.StopInv config := by
  rw [step, resolveStep, Option.bind_eq_some_iff] at hstep
  obtain ⟨lane, hlane, hstep⟩ := hstep
  have hok := hinv.lane i lane hlane
  split at hstep
  · rename_i msg hworker
    have hheld : lane.worker.held = [msg] := by rw [hworker]; rfl
    obtain rfl := Option.some.inj hstep
    refine hinv.setLane ?_
    split_ifs
    · exact hok.ends hheld nofun
    · exact hok.ends hheld nofun
    · exact hok.ends hheld nofun
    · exact hok.runs hworker
  · cases hstep

theorem finish (hinv : server.StopInv config) (hstep : server.step (.finish i) = some next) :
    next.StopInv config := by
  rw [step, finishStep, Option.bind_eq_some_iff] at hstep
  obtain ⟨lane, hlane, hstep⟩ := hstep
  split at hstep
  · rename_i msg hworker
    cases hstep
    exact hinv.setLane ((hinv.lane i lane hlane).ends (by rw [hworker]; rfl) nofun)
  · cases hstep

/-- Assumes: an I/O thread that has not ended. No queue is released. -/
theorem released_eq_zero (hinv : server.StopInv config) (hactive : server.io ≠ .exited) :
    server.joiner.released server.lanes.length = 0 := by
  have hjoiner : server.joiner ∈ [.notCalled, .joiningIo] :=
    not_imp_comm.mp hinv.joinedIo hactive
  simp only [List.mem_cons, List.not_mem_nil, or_false] at hjoiner
  obtain hjoiner | hjoiner := hjoiner <;> rw [hjoiner] <;> rfl

/-- Assumes: the I/O thread has chosen a worker. Its queue is there. -/
theorem laneOf_eq_some (hinv : server.StopInv config) {wkId : ℤ} {msg : QueuedMsg}
    {msgs : List QueuedMsg} {events : ℕ} (hio : server.io = .pushing wkId msg msgs events) :
    ∃ i lane queue, server.laneOf wkId = some (i, lane, queue) ∧ server.lanes[i]? = some lane ∧
      lane.queue = some queue := by
  obtain ⟨hnonneg, hlt⟩ := workerIndex_of_mem (hinv.pushing wkId msg msgs events hio)
  have hindex : (ServerStart.workerIndex wkId).toNat < server.lanes.length := by omega
  have hlane := List.getElem?_eq_getElem hindex
  have hreleased := hinv.released_eq_zero (by rw [hio]; nofun)
  have hok := hinv.lane _ _ hlane
  cases hqueue : server.lanes[(ServerStart.workerIndex wkId).toNat].queue with
  | none =>
    have hlt := hok.released.mp hqueue
    rw [hreleased] at hlt
    exact absurd hlt (Nat.not_lt_zero _)
  | some queue =>
    refine ⟨_, _, queue, ?_, hlane, hqueue⟩
    simp only [laneOf, if_pos hnonneg, hlane, Option.bind_some, hqueue, Option.map_some]

theorem push (hinv : server.StopInv config) (hstep : server.step .push = some next) :
    next.StopInv config := by
  rw [step, pushStep] at hstep
  split at hstep
  · rename_i wkId msg msgs events hio
    obtain ⟨i, lane, queue, hlaneOf, hlane, hqueue⟩ := hinv.laneOf_eq_some hio
    have hok := hinv.lane i lane hlane
    have harrived := hinv.arrived
    rw [hio] at harrived
    simp only [hlaneOf] at hstep
    obtain rfl := Option.some.inj hstep
    have hlength : (server.lanes.set i { lane with
        queue := some (queue.push ServerStart.maxPendingMsg msg).2 }).length =
          server.lanes.length := List.length_set
    refine ⟨hlength.symm ▸ hinv.groups, hlength.symm ▸ hinv.leaves, nofun, ⟨nofun, hinv.safe.2⟩,
      hinv.flagged, hlength.symm ▸ hinv.notifying, ?_, hinv.joinedMonitor, ?_, ?_, ?_⟩
    · intro hjoiner
      have hexited := hinv.joinedIo hjoiner
      rw [hio] at hexited
      cases hexited
    · change ∀ (j : ℕ) (found : WorkerLane), (server.lanes.set i _)[j]? = some found →
        LaneOk (server.lanes.set i _).length server.stopper server.joiner
          (takenBy (server.dispatched ++ [_]) j) j found
      rw [hlength]
      refine lane_set (takenBy (server.dispatched ++ [_])) ?_ fun j other hne hother ↦ ?_
      · rw [takenBy_concat, beq_self_eq_true, Bool.and_true]
        exact hok.pushed hqueue ServerStart.maxPendingMsg msg
      · rw [takenBy_concat, beq_eq_false_iff_ne.mpr (Ne.symm hne), Bool.and_false, if_neg nofun,
          List.append_nil]
        exact hinv.lane j other hother
    · change server.received = (server.dispatched ++ [_]).map MsgDispatch.msg ++ msgs
      rw [harrived, List.map_append, List.append_assoc]
      rfl
    · intro d hd
      change d.worker < (server.lanes.set i _).length
      rw [hlength]
      obtain hd | hd := List.mem_append.mp hd
      · exact hinv.worker d hd
      · cases List.mem_singleton.mp hd
        exact lt_length_of_getElem? hlane
  · cases hstep

end StopInv

/-! ### Steps of `stop` and `serveUtilStop` -/

namespace LaneOk

variable {workers i : ℕ} {stopper : StopPlace} {joiner : JoinPlace} {taken : List QueuedMsg}
  {lane : WorkerLane} {queue rest : SafeQueue QueuedMsg} {msg : QueuedMsg}

/-- Assumes: as many queues are stopped as before. -/
theorem setStopper (hok : LaneOk workers stopper joiner taken i lane) {stopper' : StopPlace}
    (hcount : i < stopper'.count workers ↔ i < stopper.count workers)
    (hall : workers ≤ stopper.count workers → workers ≤ stopper'.count workers) :
    LaneOk workers stopper' joiner taken i lane :=
  { hok with
    stopped := fun queue hqueue ↦ (hok.stopped queue hqueue).trans hcount.symm
    exited := fun hexited ↦ hcount.mpr (hok.exited hexited)
    cleared := fun msg hmem ↦ hall (hok.cleared msg hmem) }

/-- Assumes: the queue whose turn it is. -/
theorem stops (hok : LaneOk workers (.stopping i) joiner taken i lane)
    (hqueue : lane.queue = some queue) :
    LaneOk workers (.notifying i) joiner taken i { lane with queue := some queue.stop } :=
  { hok with
    released := ⟨nofun, fun hlt ↦ by
      have hnone := hok.released.mpr hlt
      rw [hqueue] at hnone
      cases hnone⟩
    stopped := by
      rintro _ ⟨⟩
      exact ⟨fun _ ↦ Nat.lt_succ_self i, fun _ ↦ rfl⟩
    exited := fun _ ↦ Nat.lt_succ_self i
    order := by
      rw [hok.order, WorkerLane.queued, hqueue]
      rfl
    cleared := fun msg hmem ↦ Nat.le_succ_of_le (hok.cleared msg hmem) }

/-- Assumes: the same queues are released as before, and a worker that was joined is gone. -/
theorem setJoiner (hok : LaneOk workers stopper joiner taken i lane) {joiner' : JoinPlace}
    (hreleased : i < joiner'.released workers ↔ i < joiner.released workers)
    (hjoined : i < joiner'.joined workers → lane.worker = .exited) :
    LaneOk workers stopper joiner' taken i lane :=
  { hok with
    released := hok.released.trans hreleased.symm
    joined := hjoined }

/-- Assumes: the worker is gone and all queues are stopped. -/
theorem clears (hok : LaneOk workers stopper joiner taken i lane) (hworker : lane.worker = .exited)
    (hqueue : lane.queue = some queue) (hall : workers ≤ stopper.count workers)
    (hpop : queue.rawPop = (some msg, rest)) :
    LaneOk workers stopper joiner taken i
      { lane with queue := some rest, ended := lane.ended ++ [(msg, .cleared)] } :=
  { hok with
    released := ⟨nofun, fun hlt ↦ by
      have hnone := hok.released.mpr hlt
      rw [hqueue] at hnone
      cases hnone⟩
    stopped := by
      rintro _ ⟨⟩
      rw [(rawPop_eq_some hpop).2]
      exact hok.stopped queue hqueue
    order := by
      rw [hok.order, hworker, WorkerLane.queued, hqueue, Option.elim_some, (rawPop_eq_some hpop).1,
        WorkerLane.done, WorkerLane.done, List.map_append, List.append_assoc]
      rfl
    cleared := fun _ _ ↦ hall }

/-- Assumes: the queue whose turn it is, with nothing left in it. -/
theorem releases (hok : LaneOk workers stopper (.clearing i) taken i lane)
    (hqueue : lane.queue = some queue) (hpop : queue.rawPop = (none, rest)) :
    LaneOk workers stopper (.clearing (i + 1)) taken i { lane with queue := none } :=
  { hok with
    released := ⟨fun _ ↦ Nat.lt_succ_self i, fun _ ↦ rfl⟩
    stopped := nofun
    order := by
      rw [hok.order, WorkerLane.queued, hqueue, Option.elim_some, rawPop_eq_none hpop]
      rfl }

end LaneOk

namespace StopInv

variable {next : ServerStop}

/-- Assumes: `serveUtilStop` has joined the workers. All queues are stopped. -/
theorem all_stopped (hinv : server.StopInv config)
    (hjoined : server.joiner.joined server.lanes.length = server.lanes.length) :
    server.lanes.length ≤ server.stopper.count server.lanes.length := by
  by_contra hlt
  have hindex : server.stopper.count server.lanes.length < server.lanes.length := not_le.mp hlt
  have hlane := List.getElem?_eq_getElem hindex
  have hok := hinv.lane _ _ hlane
  exact absurd (hok.exited (hok.joined (by rw [hjoined]; exact hindex))) (Nat.lt_irrefl _)

/-- Assumes: a queue that is released. The workers were joined. -/
theorem joined_of_released (i : ℕ) (joiner : JoinPlace) (workers : ℕ)
    (hreleased : i < joiner.released workers) : joiner.joined workers = workers := by
  cases joiner with
  | clearing | returned => rfl
  | notCalled | joiningIo | joiningMonitor | joiningWorker | undefined =>
    exact absurd hreleased (Nat.not_lt_zero i)

theorem stop (hinv : server.StopInv config) (hstep : server.step .stop = some next) :
    next.StopInv config := by
  rw [step, stopStep] at hstep
  split at hstep
  · rename_i hstopper
    cases hstep
    exact { hinv with
      safe := ⟨hinv.safe.1, nofun, hinv.safe.2.2⟩
      flagged := fun _ ↦ rfl
      notifying := nofun
      lane := fun i lane hlane ↦ (hinv.lane i lane hlane).setStopper (by rw [hstopper]; rfl)
        (by rw [hstopper]; exact id) }
  · rename_i i hstopper
    split at hstep
    · rename_i hlane
      cases hstep
      have hle : server.lanes.length ≤ i := List.getElem?_eq_none_iff.mp hlane
      refine { hinv with
        safe := ⟨hinv.safe.1, nofun, hinv.safe.2.2⟩
        flagged := fun _ ↦ hinv.flagged (by rw [hstopper]; nofun)
        notifying := nofun
        lane := fun j other hother ↦ (hinv.lane j other hother).setStopper ?_ fun _ ↦ le_rfl }
      have hlt := lt_length_of_getElem? hother
      rw [hstopper]
      exact ⟨fun _ ↦ hlt.trans_le hle, fun _ ↦ hlt⟩
    · rename_i lane hlane
      have hok := hinv.lane i lane hlane
      have hlt := lt_length_of_getElem? hlane
      have hreleased : server.joiner.released server.lanes.length ≤ i := by
        by_contra hgt
        have hall := hinv.all_stopped (joined_of_released i _ _ (not_le.mp hgt))
        rw [hstopper] at hall
        exact absurd hlt (not_lt.mpr hall)
      rw [hstopper] at hok
      split at hstep
      · rename_i hqueue
        exact absurd (hok.released.mp hqueue) (not_lt.mpr hreleased)
      · rename_i queue hqueue
        cases hstep
        have hlength : (server.lanes.set i { lane with queue := some queue.stop }).length =
            server.lanes.length := List.length_set
        refine ⟨hlength.symm ▸ hinv.groups, hlength.symm ▸ hinv.leaves,
          hlength.symm ▸ hinv.pushing, ⟨hinv.safe.1, nofun, hinv.safe.2.2⟩,
          fun _ ↦ hinv.flagged (by rw [hstopper]; nofun), ?_, hinv.joinedIo, hinv.joinedMonitor, ?_,
          hinv.arrived, hlength.symm ▸ hinv.worker⟩
        · rintro _ ⟨⟩
          exact ⟨hlength.symm ▸ hlt, hlength.symm ▸ hreleased⟩
        · change ∀ (j : ℕ) (found : WorkerLane), (server.lanes.set i _)[j]? = some found →
            LaneOk (server.lanes.set i _).length (.notifying i) server.joiner (server.taken j) j
              found
          rw [hlength]
          refine lane_set server.taken (hok.stops hqueue) fun j other hne hother ↦ ?_
          refine (hinv.lane j other hother).setStopper ?_ ?_ <;> rw [hstopper] <;>
            simp only [StopPlace.count] <;> omega
  · rename_i i hstopper
    obtain ⟨hlt, hreleased⟩ := hinv.notifying i hstopper
    have hlane := List.getElem?_eq_getElem hlt
    have hok := hinv.lane _ _ hlane
    rw [hlane, Option.bind_some] at hstep
    split at hstep
    · rename_i hqueue
      exact absurd (hok.released.mp hqueue) (not_lt.mpr hreleased)
    · cases hstep
      exact { hinv with
        safe := ⟨hinv.safe.1, nofun, hinv.safe.2.2⟩
        flagged := fun _ ↦ hinv.flagged (by rw [hstopper]; nofun)
        notifying := nofun
        lane := fun j other hother ↦ (hinv.lane j other hother).setStopper (by rw [hstopper]; rfl)
          (by rw [hstopper]; exact id) }
  · cases hstep
  · cases hstep

/-- Assumes: no queue is released, and what was joined is gone. -/
theorem setJoiner (hinv : server.StopInv config) {joiner : JoinPlace}
    (hdefined : joiner ≠ .undefined)
    (hio : joiner ∉ [.notCalled, .joiningIo] → server.io = .exited)
    (hmonitor : joiner ∉ [.notCalled, .joiningIo, .joiningMonitor] →
      server.monitorRunning = false)
    (hreleased : ∀ i < server.lanes.length, i < joiner.released server.lanes.length ↔
      i < server.joiner.released server.lanes.length)
    (hjoined : ∀ (i : ℕ) (lane : WorkerLane), server.lanes[i]? = some lane →
      i < joiner.joined server.lanes.length → lane.worker = .exited) :
    StopInv { server with joiner := joiner } config :=
  { hinv with
    safe := ⟨hinv.safe.1, hinv.safe.2.1, hdefined⟩
    notifying := fun i hstopper ↦ by
      obtain ⟨hlt, hle⟩ := hinv.notifying i hstopper
      exact ⟨hlt, not_lt.mp ((not_congr (hreleased i hlt)).mpr (not_lt.mpr hle))⟩
    joinedIo := hio
    joinedMonitor := hmonitor
    lane := fun i lane hlane ↦ (hinv.lane i lane hlane).setJoiner
      (hreleased i (lt_length_of_getElem? hlane)) (hjoined i lane hlane) }

/-- Assumes: a queue that is not in the middle of its `stop`. -/
theorem release (hinv : server.StopInv config) {i : ℕ} {lane : WorkerLane}
    {queue rest : SafeQueue QueuedMsg} (hjoiner : server.joiner = .clearing i)
    (hnotified : server.stopper ≠ .notifying i) (hlane : server.lanes[i]? = some lane)
    (hqueue : lane.queue = some queue) (hpop : queue.rawPop = (none, rest)) :
    StopInv { server.setLane i { lane with queue := none } with joiner := .clearing (i + 1) }
      config := by
  have hlength : (server.lanes.set i { lane with queue := none }).length = server.lanes.length :=
    List.length_set
  refine ⟨hlength.symm ▸ hinv.groups, hlength.symm ▸ hinv.leaves, hlength.symm ▸ hinv.pushing,
    ⟨hinv.safe.1, hinv.safe.2.1, nofun⟩, hinv.flagged, ?_,
    fun _ ↦ hinv.joinedIo (by rw [hjoiner]; simp),
    fun _ ↦ hinv.joinedMonitor (by rw [hjoiner]; simp), ?_, hinv.arrived,
    hlength.symm ▸ hinv.worker⟩
  · intro j hstopper
    obtain ⟨hlt, hle⟩ := hinv.notifying j hstopper
    rw [hjoiner] at hle
    have hne : i ≠ j := fun heq ↦ hnotified (heq ▸ hstopper)
    exact ⟨hlength.symm ▸ hlt, Nat.lt_of_le_of_ne hle hne⟩
  · change ∀ (j : ℕ) (found : WorkerLane), (server.lanes.set i _)[j]? = some found →
      LaneOk (server.lanes.set i _).length server.stopper (.clearing (i + 1)) (server.taken j) j
        found
    rw [hlength]
    have hok := hinv.lane i lane hlane
    rw [hjoiner] at hok
    refine lane_set server.taken (hok.releases hqueue hpop) fun j other hne hother ↦ ?_
    have hother' := hinv.lane j other hother
    rw [hjoiner] at hother'
    refine hother'.setJoiner ?_ hother'.joined
    simp only [JoinPlace.released]
    omega

theorem join (hinv : server.StopInv config) (hfirst : server.NotifiesFirst .join)
    (hstep : server.step .join = some next) : next.StopInv config := by
  rw [step, joinStep] at hstep
  split at hstep
  case h_1 hjoiner =>
    cases hstep
    exact hinv.setJoiner nofun (fun hnot ↦ absurd (by simp) hnot) (fun hnot ↦ absurd (by simp) hnot)
      (fun _ _ ↦ by rw [hjoiner]; rfl) fun i _ _ hlt ↦ absurd hlt (Nat.not_lt_zero i)
  case h_2 hjoiner =>
    split_ifs at hstep with hio
    cases hstep
    exact hinv.setJoiner nofun (fun _ ↦ hio) (fun hnot ↦ absurd (by simp) hnot)
      (fun _ _ ↦ by rw [hjoiner]; rfl) fun i _ _ hlt ↦ absurd hlt (Nat.not_lt_zero i)
  case h_3 hjoiner =>
    split_ifs at hstep with hmonitor
    cases hstep
    exact hinv.setJoiner nofun (fun _ ↦ hinv.joinedIo (by rw [hjoiner]; simp))
      (fun _ ↦ Bool.eq_false_of_not_eq_true hmonitor) (fun _ _ ↦ by rw [hjoiner]; rfl)
      fun i _ _ hlt ↦ absurd hlt (Nat.not_lt_zero i)
  case h_4 i hjoiner =>
    have hio := hinv.joinedIo (by rw [hjoiner]; simp)
    have hmonitor := hinv.joinedMonitor (by rw [hjoiner]; simp)
    split at hstep
    · rename_i hlane
      cases hstep
      have hle : server.lanes.length ≤ i := List.getElem?_eq_none_iff.mp hlane
      refine hinv.setJoiner nofun (fun _ ↦ hio) (fun _ ↦ hmonitor)
        (fun _ _ ↦ by rw [hjoiner]; rfl) fun j other hother hlt ↦ ?_
      exact (hinv.lane j other hother).joined (by rw [hjoiner]; exact hlt.trans_le hle)
    · rename_i lane hlane
      split_ifs at hstep with hexited
      cases hstep
      refine hinv.setJoiner nofun (fun _ ↦ hio) (fun _ ↦ hmonitor)
        (fun _ _ ↦ by rw [hjoiner]; rfl) fun j other hother hlt ↦ ?_
      obtain hlt | rfl := Nat.lt_succ_iff_lt_or_eq.mp hlt
      · exact (hinv.lane j other hother).joined (by rw [hjoiner]; exact hlt)
      · cases hlane.symm.trans hother
        exact hexited
  case h_5 i hjoiner =>
    have hall := hinv.all_stopped (by rw [hjoiner]; rfl)
    split at hstep
    · rename_i hlane
      cases hstep
      have hle : server.lanes.length ≤ i := List.getElem?_eq_none_iff.mp hlane
      refine hinv.setJoiner nofun (fun _ ↦ hinv.joinedIo (by rw [hjoiner]; simp))
        (fun _ ↦ hinv.joinedMonitor (by rw [hjoiner]; simp)) (fun j hlt ↦ ?_)
        fun j other hother hlt ↦ (hinv.lane j other hother).joined (by rw [hjoiner]; exact hlt)
      rw [hjoiner]
      exact ⟨fun _ ↦ hlt.trans_le hle, fun _ ↦ hlt⟩
    · rename_i lane hlane
      have hok := hinv.lane i lane hlane
      have hworker := hok.joined (by rw [hjoiner]; exact lt_length_of_getElem? hlane)
      split at hstep
      · rename_i hqueue
        have hlt := hok.released.mp hqueue
        rw [hjoiner] at hlt
        exact absurd hlt (Nat.lt_irrefl i)
      · rename_i queue hqueue
        split at hstep <;> cases hstep
        · rename_i msg rest hpop
          exact hinv.setLane (hok.clears hworker hqueue hall hpop)
        · rename_i rest hpop
          exact hinv.release hjoiner (hfirst i (by rw [hjoiner]; rfl)) hlane hqueue hpop
  case h_6 => cases hstep
  case h_7 => cases hstep

end StopInv

/-- One step. -/
theorem step_inv (hinv : server.StopInv config) {action : ShutdownAction}
    (hfirst : server.NotifiesFirst action) {next : ServerStop}
    (hstep : server.step action = some next) : next.StopInv config := by
  cases action with
  | enterLoop => exact hinv.enterLoop hstep
  | poll events => exact hinv.poll hstep
  | check => exact hinv.check hstep
  | handle msgs => exact hinv.handle hstep
  | choose => exact hinv.choose hstep
  | push => exact hinv.push hstep
  | monitorExit => exact hinv.monitorExit hstep
  | pop i => exact hinv.pop hstep
  | resolve i gone closed => exact hinv.resolve hstep
  | finish i => exact hinv.finish hstep
  | stop => exact hinv.stop hstep
  | join => exact hinv.join hfirst hstep

/-- Assumes: a map as `configSwimlanes` stores it, with a worker in the default group. The invariant
holds along the runs in which `serveUtilStop` does not release a queue too early. -/
theorem stopInv_of_run {workers : ℕ} {groups : MsgTyp2WkIdGrp}
    (hconfig : configSwimlanes (ServerStart.firstIds workers) config = some groups)
    (hleaves : leavesDefault config workers = true) (hworkers : 0 < workers)
    {actions : List ShutdownAction} {final : ServerStop}
    (halong : Along step NotifiesFirst (started workers groups) actions)
    (hrun : runFrom step (started workers groups) actions = some final) :
    final.StopInv config := by
  have hids : ServerStart.firstIds workers ≠ [] := by
    rw [← List.length_pos_iff, ServerStart.length_firstIds]
    exact hworkers
  exact runFrom_invariant_along (StopInv · config)
    (fun _ _ _ hinv hfirst hstep ↦ step_inv hinv hfirst hstep)
    (stopInv_started (configSwimlanes_stored hids hconfig) hleaves) halong hrun

/-- Assumes: a map as `configSwimlanes` stores it, with a worker in the default group, and a run in
which `serveUtilStop` does not release a queue before the notification of its `stop`. No thread
accesses a queue that is gone, the account of the messages holds, and when `serveUtilStop` has
returned the threads are gone and every message has its end. -/
theorem messages_accounted {workers : ℕ} {groups : MsgTyp2WkIdGrp}
    (hconfig : configSwimlanes (ServerStart.firstIds workers) config = some groups)
    (hleaves : leavesDefault config workers = true) (hworkers : 0 < workers)
    {actions : List ShutdownAction} {final : ServerStop}
    (halong : Along step NotifiesFirst (started workers groups) actions)
    (hrun : runFrom step (started workers groups) actions = some final) :
    final.Safe ∧ final.Accounted ∧ (final.joiner = .returned → final.Settled) := by
  have hinv := stopInv_of_run hconfig hleaves hworkers halong hrun
  exact ⟨hinv.safe, hinv.accounted, hinv.settled⟩

/-- A batch of four messages for two workers: one is handled, one has no user any more, and the rest
is there when the server is stopped. -/
def fourMessages : List ShutdownAction :=
  [.enterLoop, .poll (some 1), .check, .handle [⟨0, 7, false⟩, ⟨1, 7, false⟩, ⟨2, 7, true⟩,
    ⟨3, 7, false⟩], .choose, .push, .pop 0, .choose, .push, .resolve 0 false false, .choose, .push,
    .pop 1, .choose, .stop, .push, .choose, .check, .resolve 1 true false, .join, .enterLoop,
    .finish 0, .stop, .stop, .pop 0, .stop, .stop, .pop 1, .join, .monitorExit, .stop] ++
    List.replicate 9 .join

/-- The map without lanes. -/
def defaultGroups : MsgTyp2WkIdGrp :=
  (configSwimlanes (ServerStart.firstIds 2) []).getD Table.empty

theorem messages_accounted_fourMessages :
    ∃ final, runFrom step (started 2 defaultGroups) fourMessages = some final ∧
      final.received.length = 4 ∧ final.Safe ∧ final.Accounted ∧ final.Settled := by
  have hresult : (runFrom step (started 2 defaultGroups) fourMessages).map
      (fun final ↦ (final.joiner, final.received.length)) = some (.returned, 4) := by
    decide +kernel
  obtain ⟨final, hrun, hfinal⟩ := Option.map_eq_some_iff.mp hresult
  obtain ⟨hreturned, hlength⟩ := Prod.mk.inj hfinal
  have hconfig : configSwimlanes (ServerStart.firstIds 2) [] = some defaultGroups := rfl
  obtain ⟨hsafe, haccounted, hsettled⟩ :=
    messages_accounted hconfig (by decide) (by decide) (by decide +kernel) hrun
  exact ⟨final, hrun, hlength, hsafe, haccounted, hsettled hreturned⟩

/-- The last queue is released after its `stop` has let go of the lock, and before the notification
that follows: the worker had seen the flag by itself. -/
def lateNotify : List ShutdownAction :=
  [.join, .stop, .stop, .stop, .stop, .enterLoop, .join, .monitorExit, .join, .pop 0, .pop 1] ++
    List.replicate 5 .join ++ [.stop]

theorem not_safe_lateNotify :
    ∃ final, runFrom step (started 2 defaultGroups) lateNotify = some final ∧ ¬ final.Safe := by
  have hresult : (runFrom step (started 2 defaultGroups) lateNotify).map ServerStop.stopper =
      some .undefined := by
    decide +kernel
  obtain ⟨final, hrun, hfinal⟩ := Option.map_eq_some_iff.mp hresult
  exact ⟨final, hrun, fun hsafe ↦ hsafe.2.1 hfinal⟩

end ServerStop

end TszyUlt.Zbf
