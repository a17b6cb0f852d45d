import Mathlib.Data.List.Infix
import TszyUlt.Lib.Simulation
import TszyUlt.Zbf.ServerStop

/-!
# `serveUtilStop` returns

A server that is being stopped while a thread waits in `serveUtilStop`. A step gets on
(`ShutdownAction.getsOn`) when it is not a `pop_timeout` that found nothing, and `progress` are the
steps that get on. `work` bounds how many of them are left: it counts the places that each thread
has to go through, and for each message the steps up to its end.

* `shutdown_completes`: from any state in which `stop` and `serveUtilStop` were called, no run of
  steps that get on is longer than the work, and where none of them is left `serveUtilStop` has
  returned, with all threads gone and every message at its end.

Scope. The assumptions are in `getsOn`: a chunk is cut into at most `bound` messages, and
`serveUtilStop` does not release a queue before the notification of its `stop`. `onRecvMsg` returns,
as every other call of the threads does; a step that can be taken is taken at some time.
-/

set_option autoImplicit false
set_option relaxedAutoImplicit false

namespace TszyUlt.Zbf

open Lib MessageSwimlane

/-! ### The work that is left -/

/-- The steps that the I/O thread has left once the server is shut down, and those of the messages
in its hand. -/
def IoPlace.work (bound : ℕ) : IoPlace → ℕ
  | .exited | .undefined => 0
  | .loop => 1
  | .checking _ => 2
  | .waiting => 3
  | .dispatching msgs _ => 3 + 6 * msgs.length
  | .pushing _ _ msgs _ => 8 + 6 * msgs.length
  | .handling _ => 4 + 6 * bound

/-- The steps of a worker with the message that it has. -/
def WorkerPlace.work : WorkerPlace → ℕ
  | .exited => 0
  | .popping => 1
  | .running _ => 3
  | .holding _ => 4

/-- The steps of a worker, and of the messages in its queue. -/
def WorkerLane.work (lane : WorkerLane) : ℕ := lane.worker.work + 4 * lane.queued.length

/-- The steps of `stop`. -/
def StopPlace.work (workers : ℕ) : StopPlace → ℕ
  | .notCalled | .returned | .undefined => 0
  | .stopping i => 2 * (workers - i) + 1
  | .notifying i => 2 * (workers - i)

/-- The steps of `serveUtilStop`, other than those that clear a message. -/
def JoinPlace.work (workers : ℕ) : JoinPlace → ℕ
  | .notCalled | .returned | .undefined => 0
  | .joiningIo => 2 * workers + 5
  | .joiningMonitor => 2 * workers + 4
  | .joiningWorker i => workers + (workers - i) + 3
  | .clearing i => workers - i + 1

namespace ServerStop

variable {server next : ServerStop} {config : List MessageSwimlane} {bound : ℕ}

/-- The steps that are left. -/
def work (bound : ℕ) (server : ServerStop) : ℕ :=
  server.io.work bound + server.monitorRunning.toNat +
    (server.lanes.map WorkerLane.work).sum + server.stopper.work server.lanes.length +
      server.joiner.work server.lanes.length

/-- The step gets on: it cuts off no more messages than the bound, it finds something in the queue
or sees the stop, and it does not release a queue before the notification of its `stop`. -/
def getsOn (bound : ℕ) (server : ServerStop) : ShutdownAction → Bool
  | .handle msgs => msgs.length ≤ bound
  | .pop i => (server.lanes[i]?.bind WorkerLane.queue).all fun queue ↦
      queue.exit || !queue.items.isEmpty
  | .join => server.joiner.clearingAt.all fun i ↦ server.stopper != .notifying i
  | _ => true

/-- The steps that get on. -/
def progress (bound : ℕ) (server : ServerStop) (action : ShutdownAction) : Option ServerStop :=
  if server.getsOn bound action then server.step action else none

/-- `stop` and `serveUtilStop` were called. -/
structure Stopping (server : ServerStop) : Prop where
  stop : server.stopper ≠ .notCalled
  join : server.joiner ≠ .notCalled

theorem progress_eq_some {action : ShutdownAction}
    (hstep : server.progress bound action = some next) :
    server.getsOn bound action = true ∧ server.step action = some next := by
  rw [progress] at hstep
  split_ifs at hstep with hgetsOn
  exact ⟨hgetsOn, hstep⟩

theorem notifiesFirst_of_getsOn {action : ShutdownAction}
    (hgetsOn : server.getsOn bound action = true) : server.NotifiesFirst action := by
  cases action with
  | join =>
    intro i hi
    rw [getsOn, Option.mem_def.mp hi, Option.all_some] at hgetsOn
    exact bne_iff_ne.mp hgetsOn
  | _ => trivial

/-! ### Every step that gets on leaves less work -/

/-- What a step that gets on does: both calls go on, and there is less work. -/
structure Advances (bound : ℕ) (server next : ServerStop) : Prop where
  stop : next.stopper ≠ .notCalled
  join : next.joiner ≠ .notCalled
  less : next.work bound < server.work bound

/-- Assumes: a step of the I/O thread. -/
theorem Advances.of_io (hstopping : server.Stopping) (hlanes : next.lanes = server.lanes)
    (hmonitor : next.monitorRunning = server.monitorRunning)
    (hstopper : next.stopper = server.stopper) (hjoiner : next.joiner = server.joiner)
    (hio : next.io.work bound < server.io.work bound) : Advances bound server next where
  stop := hstopper ▸ hstopping.stop
  join := hjoiner ▸ hstopping.join
  less := by
    simp only [work, hlanes, hmonitor, hstopper, hjoiner]
    omega

/-- Assumes: a lane that changes and leaves less work. -/
theorem Advances.of_lane (hstopping : server.Stopping) {i : ℕ} {lane lane' : WorkerLane}
    (hlane : server.lanes[i]? = some lane) (hless : lane'.work < lane.work) :
    Advances bound server (server.setLane i lane') where
  stop := hstopping.stop
  join := hstopping.join
  less := by
    have hsum := sum_map_set_add WorkerLane.work hlane lane'
    simp only [work, setLane, List.length_set]
    omega

theorem advances_enterLoop (hinv : server.StopInv config) (hstopping : server.Stopping)
    (hstep : server.step .enterLoop = some next) : Advances bound server next := by
  rw [step] at hstep
  split_ifs at hstep with hio hshutdown
  · cases hstep
    refine .of_io hstopping rfl rfl rfl rfl ?_
    rw [hio]
    exact Nat.one_pos
  · exact absurd (hinv.flagged hstopping.stop) hshutdown

theorem advances_poll (hstopping : server.Stopping) {events : Option ℕ}
    (hstep : server.step (.poll events) = some next) : Advances bound server next := by
  rw [step] at hstep
  split_ifs at hstep with hio
  cases hstep
  refine .of_io hstopping rfl rfl rfl rfl ?_
  rw [hio]
  cases events with
  | none => exact Nat.succ_pos 2
  | some events => exact Nat.lt_succ_self 2

theorem advances_check (hinv : server.StopInv config) (hstopping : server.Stopping)
    (hstep : server.step .check = some next) : Advances bound server next := by
  rw [step] at hstep
  split at hstep
  · rename_i hio
    cases hstep
    refine .of_io hstopping rfl rfl rfl rfl ?_
    rw [hio]
    exact Nat.lt_succ_self 1
  · rename_i events hio
    rw [hinv.flagged hstopping.stop] at hstep
    cases hstep
    refine .of_io hstopping rfl rfl rfl rfl ?_
    rw [hio]
    exact Nat.lt_succ_self 1
  · cases hstep

theorem advances_handle (hstopping : server.Stopping) {msgs : List QueuedMsg}
    (hbound : msgs.length ≤ bound) (hstep : server.step (.handle msgs) = some next) :
    Advances bound server next := by
  rw [step] at hstep
  split at hstep
  · rename_i events hio
    cases hstep
    refine .of_io hstopping rfl rfl rfl rfl ?_
    rw [hio]
    simp only [IoPlace.work]
    omega
  · cases hstep

theorem advances_choose (hinv : server.StopInv config) (hstopping : server.Stopping)
    (hstep : server.step .choose = some next) : Advances bound server next := by
  have hsafe := (hinv.choose hstep).safe.1
  rw [step] at hstep
  split at hstep
  · rename_i events hio
    cases hstep
    refine .of_io hstopping rfl rfl rfl rfl ?_
    rw [hio]
    exact Nat.lt_succ_self 2
  · rename_i msg msgs events hio
    split at hstep <;> cases hstep
    · refine .of_io hstopping rfl rfl rfl rfl ?_
      rw [hio]
      simp only [IoPlace.work, List.length_cons]
      omega
    · exact absurd rfl hsafe
  · cases hstep

/-- Assumes: the queue that a message is pushed to. -/
theorem work_pushed {lane : WorkerLane} {queue : SafeQueue QueuedMsg}
    (hqueue : lane.queue = some queue) (cap : ℕ) (msg : QueuedMsg) :
    WorkerLane.work { lane with queue := some (queue.push cap msg).2 } ≤ lane.work + 4 := by
  simp only [WorkerLane.work, WorkerLane.queued, hqueue, Option.elim_some, items_push,
    List.length_append]
  split_ifs <;> simp only [List.length_singleton, List.length_nil] <;> omega

theorem advances_push (hinv : server.StopInv config) (hstopping : server.Stopping)
    (hstep : server.step .push = some next) : Advances bound server next := by
  rw [step, pushStep] at hstep
  split at hstep
  · rename_i wkId msg msgs events hio
    obtain ⟨i, lane, queue, hlaneOf, hlane, hqueue⟩ := hinv.laneOf_eq_some hio
    simp only [hlaneOf] at hstep
    obtain rfl := Option.some.inj hstep
    refine ⟨hstopping.stop, hstopping.join, ?_⟩
    have hwork := work_pushed hqueue ServerStart.maxPendingMsg msg
    have hsum := sum_map_set_add WorkerLane.work hlane
      { lane with queue := some (queue.push ServerStart.maxPendingMsg msg).2 }
    simp only [work, setLane, List.length_set, hio, IoPlace.work]
    omega
  · cases hstep

theorem advances_monitorExit (hstopping : server.Stopping)
    (hstep : server.step .monitorExit = some next) : Advances bound server next := by
  rw [step] at hstep
  split_ifs at hstep with hrunning
  cases hstep
  rw [Bool.and_eq_true] at hrunning
  refine ⟨hstopping.stop, hstopping.join, ?_⟩
  simp only [work, hrunning.1, Bool.toNat_true, Bool.toNat_false]
  omega

theorem advances_pop (hstopping : server.Stopping) {i : ℕ}
    (hgetsOn : server.getsOn bound (.pop i) = true) (hstep : server.step (.pop i) = some next) :
    Advances bound server next := by
  rw [step, popStep, Option.bind_eq_some_iff] at hstep
  obtain ⟨lane, hlane, hstep⟩ := hstep
  split at hstep
  · rename_i queue hworker hqueue
    rw [getsOn, hlane, Option.bind_some, hqueue, Option.all_some] at hgetsOn
    split at hstep <;> cases hstep
    · rename_i msg rest hpop
      refine .of_lane hstopping hlane ?_
      have hitems := SafeQueue.popTimeout_eq_success hpop
      simp only [WorkerLane.work, WorkerLane.queued, hworker, hqueue, Option.elim_some, hitems,
        WorkerPlace.work, List.length_cons]
      omega
    · rename_i rest hpop
      unfold SafeQueue.popTimeout at hpop
      split at hpop
      · cases hpop
      · rename_i hexit
        split at hpop <;> cases hpop
        rename_i hitems
        simp [hexit, hitems] at hgetsOn
    · refine .of_lane hstopping hlane ?_
      simp only [WorkerLane.work, hworker, WorkerPlace.work]
      exact Nat.add_lt_add_right Nat.one_pos _
  · cases hstep

theorem advances_resolve (hstopping : server.Stopping) {i : ℕ} {gone closed : Bool}
    (hstep : server.step (.resolve i gone closed) = some next) : Advances bound server next := by
  rw [step, resolveStep, Option.bind_eq_some_iff] at hstep
  obtain ⟨lane, hlane, hstep⟩ := hstep
  split at hstep
  · rename_i msg hworker
    obtain rfl := Option.some.inj hstep
    refine .of_lane hstopping hlane ?_
    split_ifs <;> simp only [WorkerLane.work, WorkerLane.queued, hworker, WorkerPlace.work] <;>
      omega
  · cases hstep

theorem advances_finish (hstopping : server.Stopping) {i : ℕ}
    (hstep : server.step (.finish i) = some next) : Advances bound server next := by
  rw [step, finishStep, Option.bind_eq_some_iff] at hstep
  obtain ⟨lane, hlane, hstep⟩ := hstep
  split at hstep
  · rename_i msg hworker
    cases hstep
    refine .of_lane hstopping hlane ?_
    simp only [WorkerLane.work, WorkerLane.queued, hworker, WorkerPlace.work]
    omega
  · cases hstep

/-- Assumes: a step that keeps the invariant, and `stop` was called. -/
theorem advances_stop (hinv : server.StopInv config) (hstopping : server.Stopping)
    (hsafe : next.Safe) (hstep : server.step .stop = some next) :
    Advances bound server next := by
  rw [step, stopStep] at hstep
  split at hstep
  · rename_i hstopper
    exact absurd hstopper hstopping.stop
  · rename_i i hstopper
    split at hstep
    · cases hstep
      refine ⟨fun h ↦ (by cases h), hstopping.join, ?_⟩
      simp only [work, hstopper, StopPlace.work]
      omega
    · rename_i lane hlane
      split at hstep
      · cases hstep
        exact absurd rfl hsafe.2.1
      · rename_i queue hqueue
        cases hstep
        refine ⟨fun h ↦ (by cases h), hstopping.join, ?_⟩
        have hwork : WorkerLane.work { lane with queue := some queue.stop } = lane.work := by
          rw [WorkerLane.work, WorkerLane.work, WorkerLane.queued, WorkerLane.queued, hqueue]
          rfl
        have hsum := sum_map_set_add WorkerLane.work hlane
          { lane with queue := some queue.stop }
        simp only [work, setLane, List.length_set, hstopper, StopPlace.work]
        omega
  · rename_i i hstopper
    obtain ⟨hlt, -⟩ := hinv.notifying i hstopper
    split at hstep <;> cases hstep
    · exact absurd rfl hsafe.2.1
    · refine ⟨fun h ↦ (by cases h), hstopping.join, ?_⟩
      simp only [work, hstopper, StopPlace.work]
      omega
  · cases hstep
  · cases hstep

theorem advances_join (hstopping : server.Stopping) (hsafe : next.Safe)
    (hstep : server.step .join = some next) : Advances bound server next := by
  rw [step, joinStep] at hstep
  split at hstep
  case h_1 hjoiner => exact absurd hjoiner hstopping.join
  case h_2 hjoiner =>
    split_ifs at hstep
    cases hstep
    refine ⟨hstopping.stop, fun h ↦ (by cases h), ?_⟩
    simp only [work, hjoiner, JoinPlace.work]
    omega
  case h_3 hjoiner =>
    split_ifs at hstep
    cases hstep
    refine ⟨hstopping.stop, fun h ↦ (by cases h), ?_⟩
    simp only [work, hjoiner, JoinPlace.work]
    omega
  case h_4 i hjoiner =>
    split at hstep
    · cases hstep
      refine ⟨hstopping.stop, fun h ↦ (by cases h), ?_⟩
      simp only [work, hjoiner, JoinPlace.work]
      omega
    · rename_i lane hlane
      have hlt := lt_length_of_getElem? hlane
      split_ifs at hstep
      cases hstep
      refine ⟨hstopping.stop, fun h ↦ (by cases h), ?_⟩
      simp only [work, hjoiner, JoinPlace.work]
      omega
  case h_5 i hjoiner =>
    split at hstep
    · cases hstep
      refine ⟨hstopping.stop, fun h ↦ (by cases h), ?_⟩
      simp only [work, hjoiner, JoinPlace.work]
      omega
    · rename_i lane hlane
      have hlt := lt_length_of_getElem? hlane
      split at hstep
      · cases hstep
        exact absurd rfl hsafe.2.2
      · rename_i queue hqueue
        split at hstep <;> cases hstep
        · rename_i msg rest hpop
          refine .of_lane hstopping hlane ?_
          simp only [WorkerLane.work, WorkerLane.queued, hqueue, Option.elim_some,
            (rawPop_eq_some hpop).1, List.length_cons]
          omega
        · rename_i rest hpop
          refine ⟨hstopping.stop, fun h ↦ (by cases h), ?_⟩
          have hwork : WorkerLane.work { lane with queue := none } ≤ lane.work := by
            simp only [WorkerLane.work, WorkerLane.queued, Option.elim_none, List.length_nil]
            omega
          have hsum := sum_map_set_add WorkerLane.work hlane { lane with queue := none }
          simp only [work, setLane, List.length_set, hjoiner, JoinPlace.work]
          omega
  case h_6 => cases hstep
  case h_7 => cases hstep

/-- What holds while the server is being stopped. -/
structure StoppingInv (config : List MessageSwimlane) (server : ServerStop) : Prop where
  inv : server.StopInv config
  stopping : server.Stopping

/-- Every step that gets on keeps the invariant and leaves less work. -/
theorem progress_step (hstopping : server.StoppingInv config) {action : ShutdownAction}
    (hstep : server.progress bound action = some next) :
    next.StoppingInv config ∧ next.work bound < server.work bound := by
  obtain ⟨hgetsOn, hstep⟩ := progress_eq_some hstep
  obtain ⟨hinv, hcalled⟩ := hstopping
  have hnext := step_inv hinv (notifiesFirst_of_getsOn hgetsOn) hstep
  have hadvances : Advances bound server next := by
    cases action with
    | enterLoop => exact advances_enterLoop hinv hcalled hstep
    | poll events => exact advances_poll hcalled hstep
    | check => exact advances_check hinv hcalled hstep
    | handle msgs => exact advances_handle hcalled (of_decide_eq_true hgetsOn) hstep
    | choose => exact advances_choose hinv hcalled hstep
    | push => exact advances_push hinv hcalled hstep
    | monitorExit => exact advances_monitorExit hcalled hstep
    | pop i => exact advances_pop hcalled hgetsOn hstep
    | resolve i gone closed => exact advances_resolve hcalled hstep
    | finish i => exact advances_finish hcalled hstep
    | stop => exact advances_stop hinv hcalled hnext.safe hstep
    | join => exact advances_join hcalled hnext.safe hstep
  exact ⟨⟨hnext, ⟨hadvances.stop, hadvances.join⟩⟩, hadvances.less⟩

/-! ### Where no step gets on -/

/-- Assumes: no step gets on. An action that would cannot happen. -/
theorem step_of_halted (hhalted : Halted (progress bound) server) {action : ShutdownAction}
    (hgetsOn : server.getsOn bound action = true) : server.step action = none := by
  have hnone := hhalted action
  rwa [progress, if_pos hgetsOn] at hnone

theorem io_of_halted (hinv : server.StopInv config) (hhalted : Halted (progress bound) server) :
    server.io = .exited := by
  cases hio : server.io with
  | exited => rfl
  | undefined => exact absurd hio hinv.safe.1
  | loop =>
    have hnone : server.step .enterLoop = none := step_of_halted hhalted rfl
    rw [step, if_pos hio] at hnone
    cases hnone
  | waiting =>
    have hnone : server.step (.poll none) = none := step_of_halted hhalted rfl
    rw [step, if_pos hio] at hnone
    cases hnone
  | checking events =>
    have hnone : server.step .check = none := step_of_halted hhalted rfl
    cases events <;> simp only [step, hio] at hnone <;> cases hnone
  | handling events =>
    have hnone : server.step (.handle []) = none :=
      step_of_halted hhalted (decide_eq_true (Nat.zero_le bound))
    simp only [step, hio] at hnone
    cases hnone
  | dispatching msgs events =>
    have hnone : server.step .choose = none := step_of_halted hhalted rfl
    cases msgs with
    | nil =>
      simp only [step, hio] at hnone
      cases hnone
    | cons msg msgs =>
      simp only [step, hio] at hnone
      split at hnone <;> cases hnone
  | pushing wkId msg msgs events =>
    have hnone : server.step .push = none := step_of_halted hhalted rfl
    simp only [step, pushStep, hio] at hnone
    split at hnone <;> cases hnone

theorem stopper_of_halted (hstopping : server.StoppingInv config)
    (hhalted : Halted (progress bound) server) : server.stopper = .returned := by
  have hnone : server.step .stop = none := step_of_halted hhalted rfl
  cases hstopper : server.stopper with
  | returned => rfl
  | notCalled => exact absurd hstopper hstopping.stopping.stop
  | undefined => exact absurd hstopper hstopping.inv.safe.2.1
  | stopping i =>
    simp only [step, stopStep, hstopper] at hnone
    split at hnone
    · cases hnone
    · split at hnone <;> cases hnone
  | notifying i =>
    simp only [step, stopStep, hstopper] at hnone
    split at hnone <;> cases hnone

theorem monitor_of_halted (hstopping : server.StoppingInv config)
    (hhalted : Halted (progress bound) server) : server.monitorRunning = false := by
  have hnone : server.step .monitorExit = none := step_of_halted hhalted rfl
  rw [step, hstopping.inv.flagged hstopping.stopping.stop, Bool.and_true] at hnone
  split_ifs at hnone with hrunning
  exact Bool.eq_false_of_not_eq_true hrunning

/-- Assumes: all queues are stopped. -/
theorem worker_of_halted (hinv : server.StopInv config) (hreturned : server.stopper = .returned)
    (hhalted : Halted (progress bound) server) {i : ℕ} {lane : WorkerLane}
    (hlane : server.lanes[i]? = some lane) : lane.worker = .exited := by
  have hok := hinv.lane i lane hlane
  cases hworker : lane.worker with
  | exited => rfl
  | holding msg =>
    have hnone : server.step (.resolve i true true) = none := step_of_halted hhalted rfl
    simp only [step, resolveStep, hlane, Option.bind_some, hworker] at hnone
    cases hnone
  | running msg =>
    have hnone : server.step (.finish i) = none := step_of_halted hhalted rfl
    simp only [step, finishStep, hlane, Option.bind_some, hworker] at hnone
    cases hnone
  | popping =>
    cases hqueue : lane.queue with
    | none =>
      have hjoined := StopInv.joined_of_released i _ _ (hok.released.mp hqueue)
      have hexited := hok.joined (by rw [hjoined]; exact lt_length_of_getElem? hlane)
      rw [hworker] at hexited
      cases hexited
    | some queue =>
      have hexit : queue.exit = true := by
        refine (hok.stopped queue hqueue).mpr ?_
        rw [hreturned]
        exact lt_length_of_getElem? hlane
      have hgetsOn : server.getsOn bound (.pop i) = true := by
        rw [getsOn, hlane, Option.bind_some, hqueue, Option.all_some, hexit, Bool.true_or]
      have hnone := step_of_halted hhalted hgetsOn
      simp only [step, popStep, hlane, Option.bind_some, hworker, hqueue, SafeQueue.popTimeout,
        hexit, if_true] at hnone
      cases hnone

/-- Assumes: both calls were made, and no step gets on. `serveUtilStop` has returned. -/
theorem joiner_of_halted (hstopping : server.StoppingInv config)
    (hhalted : Halted (progress bound) server) : server.joiner = .returned := by
  have hreturned := stopper_of_halted hstopping hhalted
  have hgetsOn : server.getsOn bound .join = true := by
    rw [getsOn, hreturned]
    cases server.joiner.clearingAt <;> rfl
  have hnone := step_of_halted hhalted hgetsOn
  cases hjoiner : server.joiner with
  | returned => rfl
  | notCalled => exact absurd hjoiner hstopping.stopping.join
  | undefined => exact absurd hjoiner hstopping.inv.safe.2.2
  | joiningIo =>
    simp only [step, joinStep, hjoiner, io_of_halted hstopping.inv hhalted, if_true] at hnone
    cases hnone
  | joiningMonitor =>
    simp only [step, joinStep, hjoiner, monitor_of_halted hstopping hhalted, Bool.false_eq_true,
      if_false] at hnone
    cases hnone
  | joiningWorker i =>
    simp only [step, joinStep, hjoiner] at hnone
    split at hnone
    · cases hnone
    · rename_i lane hlane
      rw [if_pos (worker_of_halted hstopping.inv hreturned hhalted hlane)] at hnone
      cases hnone
  | clearing i =>
    simp only [step, joinStep, hjoiner] at hnone
    split at hnone
    · cases hnone
    · split at hnone
      · cases hnone
      · split at hnone <;> cases hnone

/-- Assumes: a map as `configSwimlanes` stores it, with a worker in the default group, and a state
that the started server has reached, where `stop` and `serveUtilStop` were called. No run of steps
that get on is longer than the work that is left; where it cannot go on, `serveUtilStop` has
returned, the threads are gone and every message has its end; and until then it can go on to there.
-/
theorem shutdown_completes {workers : ℕ} {groups : MsgTyp2WkIdGrp}
    (hconfig : configSwimlanes (ServerStart.firstIds workers) config = some groups)
    (hleaves : leavesDefault config workers = true) (hworkers : 0 < workers)
    {before : List ShutdownAction}
    (halong : Along step NotifiesFirst (started workers groups) before)
    (hbefore : runFrom step (started workers groups) before = some server)
    (hcalled : server.Stopping) (bound : ℕ) {actions : List ShutdownAction} {final : ServerStop}
    (hrun : runFrom (progress bound) server actions = some final) :
    actions.length ≤ server.work bound ∧
      (Halted (progress bound) final → final.joiner = .returned ∧ final.Settled) ∧
      ∃ more last, runFrom (progress bound) final more = some last ∧ last.joiner = .returned ∧
        last.Settled := by
  have hstart : server.StoppingInv config :=
    ⟨stopInv_of_run hconfig hleaves hworkers halong hbefore, hcalled⟩
  have hstep : ∀ (state : ServerStop) (action : ShutdownAction) (next : ServerStop),
      state.StoppingInv config → state.progress bound action = some next →
        next.StoppingInv config ∧ next.work bound < state.work bound :=
    fun _ _ _ hstopping hprogress ↦ progress_step hstopping hprogress
  have hruns : ∀ {first last : ServerStop} {steps : List ShutdownAction},
      first.StoppingInv config → runFrom (progress bound) first steps = some last →
        last.StoppingInv config := by
    intro first last steps hfirst hsteps
    exact runFrom_invariant (StoppingInv config)
      (fun state action next hstopping hprogress ↦ (hstep state action next hstopping hprogress).1)
      hfirst hsteps
  have hends : ∀ {last : ServerStop}, last.StoppingInv config → Halted (progress bound) last →
      last.joiner = .returned ∧ last.Settled := by
    intro last hlast hhalted
    have hreturned := joiner_of_halted hlast hhalted
    exact ⟨hreturned, hlast.inv.settled hreturned⟩
  have hfinal := hruns hstart hrun
  refine ⟨length_le_of_measure hstep hstart hrun, hends hfinal, ?_⟩
  obtain ⟨more, last, hmore, hhalted⟩ := exists_run_halted hstep hfinal
  exact ⟨more, last, hmore, hends (hruns hfinal hmore) hhalted⟩

/-- The steps up to where both calls were made, with messages on their way. -/
def bothCalled : List ShutdownAction := fourMessages.take 20

theorem shutdown_completes_bothCalled :
    ∃ server final, runFrom step (started 2 defaultGroups) bothCalled = some server ∧
      runFrom (progress 10) server [.enterLoop, .stop, .finish 0] = some final ∧
      ∃ more last, runFrom (progress 10) final more = some last ∧ last.joiner = .returned ∧
        last.Settled := by
  have hresult : ((runFrom step (started 2 defaultGroups) bothCalled).bind fun server ↦
      (runFrom (progress 10) server [.enterLoop, .stop, .finish 0]).map fun _ ↦
        (server.stopper, server.joiner)) = some (.stopping 0, .joiningIo) := by
    decide +kernel
  obtain ⟨server, hbefore, hresult⟩ := Option.bind_eq_some_iff.mp hresult
  obtain ⟨final, hrun, hcalled⟩ := Option.map_eq_some_iff.mp hresult
  obtain ⟨hstop, hjoin⟩ := Prod.mk.inj hcalled
  have hconfig : configSwimlanes (ServerStart.firstIds 2) [] = some defaultGroups := rfl
  have hstopping : server.Stopping := ⟨by rw [hstop]; nofun, by rw [hjoin]; nofun⟩
  obtain ⟨-, -, hends⟩ := shutdown_completes hconfig (by decide) (by decide) (by decide +kernel)
    hbefore hstopping 10 hrun
  exact ⟨server, final, hbefore, hrun, hends⟩

end ServerStop

end TszyUlt.Zbf
