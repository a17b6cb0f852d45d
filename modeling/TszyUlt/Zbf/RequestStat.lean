import TszyUlt.Lib.Table
import TszyUlt.Lib.Transition
import TszyUlt.Zbf.TimerHelper

/-!
# The statistics of the workers at shutdown

`ReqStatLogger` of `zbf/request_stat.hpp`, and `stop`, `serveUtilStop` and `worker` of the server of
`zbf/socket_tcp_v5.hpp`. A worker keeps its `RequestStat` on its own stack and registers it with
`add`; nothing takes it out again when the worker returns. `onStat` runs in the timer thread: it
copies the list under the lock and calls `consume` for each entry outside it. `serveUtilStop` ends
the timer before it joins the workers, but `stop` lets the workers return long before that.

`StatsOutlive` says that no stat was consumed after its worker had returned, and that an `onStat` in
progress has none such left. `statsOutlive_iff` is the exact condition on the steps of a run, and
`statsOutlive_of_not_shutdown` says that nothing goes wrong before `stop`.

Scope. The server was started once: its workers exist, and the timer thread waits for its first
tick. `stop` and `serveUtilStop` are called once each, by threads of their own, so that
`stop(true)` is one of their interleavings. What a worker does with its messages, and the numbers
that a stat collects, are not modelled: `onStat` always returns true.
-/

set_option autoImplicit false
set_option relaxedAutoImplicit false

namespace TszyUlt.Zbf

open Lib

/-! ### The state and its steps -/

/-- Where a worker thread stands. -/
inductive StatWorkerPlace
  /-- Before `_statLogger.add`. -/
  | starting
  /-- In the loop. -/
  | looping
  /-- Behind the loop: `pop_timeout` returned `SQ_EXIT`. -/
  | leaving
  /-- `worker` has returned, and its `RequestStat` is destroyed. -/
  | returned
  deriving DecidableEq, Repr

/-- A worker thread, and whether its queue was stopped. -/
structure StatWorker where
  place : StatWorkerPlace
  exit : Bool
  deriving DecidableEq, Repr

/-- Where the timer thread stands in `timerProc`. The slots are those still to visit. -/
inductive StatTimer
  /-- In `wait_for`. -/
  | waiting
  /-- In the loop over the slots. -/
  | scanning (slots : List ℕ)
  /-- In `onTicks` for the slot of the task. -/
  | onTicks (slots : List ℕ)
  /-- In `onStat`, before the list is copied. -/
  | copying (slots : List ℕ)
  /-- In `onStat`, with the stats still to consume. -/
  | consuming (pending : List ℕ) (slots : List ℕ)
  | exited
  deriving DecidableEq, Repr

/-- The stats that an `onStat` in progress has still to consume. -/
def StatTimer.pending : StatTimer → List ℕ
  | .consuming pending _ => pending
  | _ => []

/-- The statements of `stop`. -/
inductive StopCall
  | setShutdown
  | stopQueue (worker : ℕ)
  deriving DecidableEq, Repr

/-- The statements of `serveUtilStop`. The middle three are those of `_statLogger.stop`. -/
inductive ServeCall
  | joinIo
  | joinMonitor
  | setStopped
  | joinTimer
  | clearStats
  | joinWorker (worker : ℕ)
  deriving DecidableEq, Repr

/-- `tcpsock_server` and its `_statLogger`, with the statements that `stop` and `serveUtilStop` have
still to execute. A stat is known by the number of its worker. -/
structure StatServer where
  shutdown : Bool
  stop : List StopCall
  serve : List ServeCall
  ioRunning : Bool
  monitorRunning : Bool
  workers : List StatWorker
  /-- `_allStat`. -/
  allStat : List ℕ
  /-- `_stopped` of the timer. -/
  stopped : Bool
  tick : ℕ
  timer : StatTimer
  /-- The calls of `consume` on a stat whose worker had returned. -/
  staleReads : List ℕ
  deriving DecidableEq, Repr

/-- The steps of the threads. -/
inductive StatAction
  | stop
  | serve
  | ioExit (pollFailed : Bool)
  | monitorExit
  /-- A worker registers its stat. -/
  | add (worker : ℕ)
  /-- `pop_timeout` returns `SQ_EXIT`. -/
  | popExit (worker : ℕ)
  /-- `worker` returns. -/
  | leave (worker : ℕ)
  | timer
  deriving DecidableEq, Repr

namespace StatServer

/-- `StatInterval`: the slot under which `onStat` is registered. -/
def statInterval : ℕ := 5

/-- `zbf::Minute`. -/
def tickUnit : TickUnit := .minute

/-- After `start`. -/
def started (workers : ℕ) : StatServer where
  shutdown := false
  stop := .setShutdown :: (List.range workers).map .stopQueue
  serve := [.joinIo, .joinMonitor, .setStopped, .joinTimer, .clearStats] ++
    (List.range workers).map .joinWorker
  ioRunning := true
  monitorRunning := true
  workers := List.replicate workers ⟨.starting, false⟩
  allStat := []
  stopped := false
  tick := 0
  timer := .waiting
  staleReads := []

/-- A worker has returned. -/
def gone (server : StatServer) (worker : ℕ) : Bool :=
  (server.workers[worker]?.map StatWorker.place) = some .returned

/-- A worker thread goes on. -/
def setWorker (server : StatServer) (worker : ℕ) (record : StatWorker) : StatServer :=
  { server with workers := server.workers.set worker record }

/-- A statement of `stop`. -/
def stopStep (server : StatServer) : StopCall → StatServer
  | .setShutdown => { server with shutdown := true }
  | .stopQueue worker =>
    match server.workers[worker]? with
    | some record => server.setWorker worker { record with exit := true }
    | none => server

/-- A statement of `serveUtilStop`: a join waits until the thread has ended. -/
def serveStep (server : StatServer) : ServeCall → Option StatServer
  | .joinIo => if server.ioRunning then none else some server
  | .joinMonitor => if server.monitorRunning then none else some server
  | .setStopped => some { server with stopped := true }
  | .joinTimer => if server.timer = .exited then some server else none
  | .clearStats => some { server with allStat := [] }
  | .joinWorker worker => if server.gone worker then some server else none

/-- A step of the timer thread. -/
def timerStep (server : StatServer) : Option StatServer :=
  match server.timer with
  | .waiting =>
    if server.stopped then some { server with timer := .exited }
    else some { server with tick := server.tick + 1, timer := .scanning tickUnit.timeSlot }
  | .scanning [] =>
    some { server with
      tick := if server.tick = tickUnit.lastSlot then 0 else server.tick
      timer := .waiting }
  | .scanning (slot :: slots) =>
    if server.stopped then some { server with timer := .scanning [] }
    -- the lists of the other slots are empty
    else if server.tick % slot = 0 ∧ slot = statInterval then
      some { server with timer := .onTicks slots }
    else some { server with timer := .scanning slots }
  | .onTicks slots =>
    if server.stopped then some { server with timer := .scanning slots }
    else some { server with timer := .copying slots }
  | .copying slots => some { server with timer := .consuming server.allStat slots }
  | .consuming [] slots => some { server with timer := .scanning slots }
  | .consuming (worker :: pending) slots =>
    some { server with
      timer := .consuming pending slots
      staleReads :=
        if server.gone worker then server.staleReads ++ [worker] else server.staleReads }
  | .exited => none

/-- One step. -/
def step (server : StatServer) : StatAction → Option StatServer
  | .stop =>
    match server.stop with
    | [] => none
    | call :: calls => some { server.stopStep call with stop := calls }
  | .serve =>
    match server.serve with
    | [] => none
    | call :: calls => (server.serveStep call).map fun next ↦ { next with serve := calls }
  | .ioExit pollFailed =>
    if server.ioRunning ∧ (server.shutdown ∨ pollFailed) then
      some { server with ioRunning := false }
    else none
  | .monitorExit =>
    if server.monitorRunning ∧ server.shutdown then some { server with monitorRunning := false }
    else none
  | .add worker =>
    match server.workers[worker]? with
    | some ⟨.starting, exit⟩ =>
      some { server.setWorker worker ⟨.looping, exit⟩ with allStat := server.allStat ++ [worker] }
    | _ => none
  | .popExit worker =>
    match server.workers[worker]? with
    | some ⟨.looping, true⟩ => some (server.setWorker worker ⟨.leaving, true⟩)
    | _ => none
  | .leave worker =>
    match server.workers[worker]? with
    | some ⟨.leaving, exit⟩ => some (server.setWorker worker ⟨.returned, exit⟩)
    | _ => none
  | .timer => server.timerStep

/-- The list is copied only while no registered worker has returned, and a worker returns only while
no `onStat` in progress has its stat still to consume. -/
def keepsStats (server : StatServer) : StatAction → Bool
  | .timer =>
    match server.timer with
    | .copying _ => server.allStat.all fun worker ↦ !server.gone worker
    | _ => true
  | .leave worker => !server.timer.pending.contains worker
  | _ => true

/-- No stat was consumed after its worker had returned, and none such is left to an `onStat` in
progress. -/
structure StatsOutlive (server : StatServer) : Prop where
  staleReads : server.staleReads = []
  pending : ∀ worker ∈ server.timer.pending, server.gone worker = false

/-- A stat was consumed after its worker had returned, or will be as `onStat` goes on. -/
def StatsStale (server : StatServer) : Prop :=
  server.staleReads ≠ [] ∨ ∃ worker ∈ server.timer.pending, server.gone worker = true

theorem statsStale_iff (server : StatServer) : server.StatsStale ↔ ¬server.StatsOutlive := by
  constructor
  · rintro (hstale | ⟨worker, hmem, hgone⟩) houtlive
    · exact hstale houtlive.staleReads
    · exact absurd (houtlive.pending worker hmem) (by rw [hgone]; decide)
  · intro hnot
    by_contra hstale
    rw [StatsStale, not_or] at hstale
    refine hnot ⟨not_not.mp hstale.1, fun worker hmem ↦ ?_⟩
    exact Bool.eq_false_iff.mpr fun hgone ↦ hstale.2 ⟨worker, hmem, hgone⟩

variable {server next : StatServer} {action : StatAction}

/-! ### What a step does to the stats -/

theorem gone_of_some {worker : ℕ} {record : StatWorker}
    (hrecord : server.workers[worker]? = some record) :
    server.gone worker = decide (record.place = .returned) := by
  rw [gone, hrecord, Option.map_some]
  simp

theorem gone_setWorker {worker : ℕ} {record : StatWorker}
    (hrecord : server.workers[worker]? = some record) (record' : StatWorker) (other : ℕ) :
    (server.setWorker worker record').gone other =
      if other = worker then decide (record'.place = .returned) else server.gone other := by
  split
  · rename_i heq
    subst heq
    exact gone_of_some (getElem?_set_of_some hrecord)
  · rename_i hne
    rw [gone, gone, setWorker, List.getElem?_set_ne (Ne.symm hne)]

/-- A worker that goes on without returning was not gone and is not. -/
theorem gone_setWorker_of_not {worker : ℕ} {record record' : StatWorker}
    (hrecord : server.workers[worker]? = some record)
    (hplace : record.place = .returned ↔ record'.place = .returned) (other : ℕ) :
    (server.setWorker worker record').gone other = server.gone other := by
  rw [gone_setWorker hrecord]
  split
  · rename_i heq
    rw [heq, gone_of_some hrecord, decide_eq_decide]
    exact hplace.symm
  · rfl

/-- What matters of a state is the same. -/
structure SameStats (server next : StatServer) : Prop where
  gone : ∀ worker, next.gone worker = server.gone worker
  pending : next.timer.pending = server.timer.pending
  staleReads : next.staleReads = server.staleReads

theorem sameStats_stopStep (server : StatServer) (call : StopCall) :
    SameStats server (server.stopStep call) := by
  cases call with
  | setShutdown => exact ⟨fun _ ↦ rfl, rfl, rfl⟩
  | stopQueue worker =>
    simp only [stopStep]
    cases hrecord : server.workers[worker]? with
    | none => exact ⟨fun _ ↦ rfl, rfl, rfl⟩
    | some record => exact ⟨gone_setWorker_of_not hrecord Iff.rfl, rfl, rfl⟩

theorem sameStats_serveStep {call : ServeCall} (hcall : server.serveStep call = some next) :
    SameStats server next := by
  cases call with
  | joinIo =>
    simp only [serveStep, Option.ite_none_left_eq_some, Option.some.injEq] at hcall
    obtain ⟨-, rfl⟩ := hcall
    exact ⟨fun _ ↦ rfl, rfl, rfl⟩
  | joinMonitor =>
    simp only [serveStep, Option.ite_none_left_eq_some, Option.some.injEq] at hcall
    obtain ⟨-, rfl⟩ := hcall
    exact ⟨fun _ ↦ rfl, rfl, rfl⟩
  | setStopped =>
    cases hcall
    exact ⟨fun _ ↦ rfl, rfl, rfl⟩
  | joinTimer =>
    simp only [serveStep, Option.ite_none_right_eq_some, Option.some.injEq] at hcall
    obtain ⟨-, rfl⟩ := hcall
    exact ⟨fun _ ↦ rfl, rfl, rfl⟩
  | clearStats =>
    cases hcall
    exact ⟨fun _ ↦ rfl, rfl, rfl⟩
  | joinWorker worker =>
    simp only [serveStep, Option.ite_none_right_eq_some, Option.some.injEq] at hcall
    obtain ⟨-, rfl⟩ := hcall
    exact ⟨fun _ ↦ rfl, rfl, rfl⟩

/-- What a step of the timer thread does: it copies the list, consumes a stat, or does neither. -/
theorem timerStep_cases (htimer : server.timerStep = some next) :
    (∃ slots, server.timer = .copying slots ∧
      next = { server with timer := .consuming server.allStat slots }) ∨
    (∃ worker pending slots, server.timer = .consuming (worker :: pending) slots ∧
      next = { server with
        timer := .consuming pending slots
        staleReads :=
          if server.gone worker then server.staleReads ++ [worker] else server.staleReads }) ∨
    (server.keepsStats .timer = true ∧ SameStats server next) := by
  unfold timerStep at htimer
  split at htimer
  case h_1 heq =>
    refine Or.inr (Or.inr ⟨by rw [keepsStats, heq], ?_⟩)
    split at htimer <;> cases htimer <;> exact ⟨fun _ ↦ rfl, by rw [heq]; rfl, rfl⟩
  case h_2 heq =>
    cases htimer
    exact Or.inr (Or.inr ⟨by rw [keepsStats, heq], fun _ ↦ rfl, by rw [heq]; rfl, rfl⟩)
  case h_3 slot slots heq =>
    refine Or.inr (Or.inr ⟨by rw [keepsStats, heq], ?_⟩)
    split at htimer
    · cases htimer
      exact ⟨fun _ ↦ rfl, by rw [heq]; rfl, rfl⟩
    · split at htimer <;> cases htimer <;> exact ⟨fun _ ↦ rfl, by rw [heq]; rfl, rfl⟩
  case h_4 slots heq =>
    refine Or.inr (Or.inr ⟨by rw [keepsStats, heq], ?_⟩)
    split at htimer <;> cases htimer <;> exact ⟨fun _ ↦ rfl, by rw [heq]; rfl, rfl⟩
  case h_5 slots heq =>
    cases htimer
    exact Or.inl ⟨slots, heq, rfl⟩
  case h_6 slots heq =>
    cases htimer
    exact Or.inr (Or.inr ⟨by rw [keepsStats, heq], fun _ ↦ rfl, by rw [heq]; rfl, rfl⟩)
  case h_7 worker pending slots heq =>
    cases htimer
    exact Or.inr (Or.inl ⟨worker, pending, slots, heq, rfl⟩)
  case h_8 => cases htimer

theorem serveStep_frame {call : ServeCall} (hcall : server.serveStep call = some next) :
    next.stop = server.stop ∧ next.workers = server.workers ∧ next.shutdown = server.shutdown := by
  unfold serveStep at hcall
  split at hcall <;> (try split at hcall) <;> cases hcall <;> exact ⟨rfl, rfl, rfl⟩

theorem timerStep_frame (htimer : server.timerStep = some next) :
    next.stop = server.stop ∧ next.workers = server.workers ∧ next.shutdown = server.shutdown := by
  unfold timerStep at htimer
  split at htimer <;> (try split at htimer) <;> (try split at htimer) <;> cases htimer <;>
    exact ⟨rfl, rfl, rfl⟩

/-- A step that is taken, with what it needs and what it leads to. -/
inductive Steps (server : StatServer) : StatAction → StatServer → Prop
  | stop (call : StopCall) (calls : List StopCall) (hcalls : server.stop = call :: calls) :
    Steps server .stop { server.stopStep call with stop := calls }
  | serve (call : ServeCall) (calls : List ServeCall) (middle : StatServer)
    (hmiddle : server.serveStep call = some middle) :
    Steps server .serve { middle with serve := calls }
  | ioExit (pollFailed : Bool) :
    Steps server (.ioExit pollFailed) { server with ioRunning := false }
  | monitorExit : Steps server .monitorExit { server with monitorRunning := false }
  | add (worker : ℕ) (exit : Bool) (hrecord : server.workers[worker]? = some ⟨.starting, exit⟩) :
    Steps server (.add worker)
      { server.setWorker worker ⟨.looping, exit⟩ with allStat := server.allStat ++ [worker] }
  | popExit (worker : ℕ) (hrecord : server.workers[worker]? = some ⟨.looping, true⟩) :
    Steps server (.popExit worker) (server.setWorker worker ⟨.leaving, true⟩)
  | leave (worker : ℕ) (exit : Bool) (hrecord : server.workers[worker]? = some ⟨.leaving, exit⟩) :
    Steps server (.leave worker) (server.setWorker worker ⟨.returned, exit⟩)
  | timer (next : StatServer) (htimer : server.timerStep = some next) : Steps server .timer next

theorem steps_of_step (hstep : step server action = some next) : Steps server action next := by
  cases action with
  | stop =>
    simp only [step] at hstep
    split at hstep
    case h_1 => cases hstep
    case h_2 call calls hcalls =>
      cases hstep
      exact .stop call calls hcalls
  | serve =>
    simp only [step] at hstep
    split at hstep
    case h_1 => cases hstep
    case h_2 call calls hcalls =>
      obtain ⟨middle, hmiddle, rfl⟩ := Option.map_eq_some_iff.mp hstep
      exact .serve call calls middle hmiddle
  | ioExit pollFailed =>
    obtain ⟨-, heq⟩ := Option.ite_none_right_eq_some.mp hstep
    cases heq
    exact .ioExit pollFailed
  | monitorExit =>
    obtain ⟨-, heq⟩ := Option.ite_none_right_eq_some.mp hstep
    cases heq
    exact .monitorExit
  | add worker =>
    simp only [step] at hstep
    split at hstep
    case h_1 exit hrecord =>
      cases hstep
      exact .add worker exit hrecord
    case h_2 => cases hstep
  | popExit worker =>
    simp only [step] at hstep
    split at hstep
    case h_1 hrecord =>
      cases hstep
      exact .popExit worker hrecord
    case h_2 => cases hstep
  | leave worker =>
    simp only [step] at hstep
    split at hstep
    case h_1 exit hrecord =>
      cases hstep
      exact .leave worker exit hrecord
    case h_2 => cases hstep
  | timer => exact .timer next hstep

/-- What a step does to the stats: the list is copied, a stat is consumed, a worker returns, or
nothing of this. -/
theorem step_cases (hstep : step server action = some next) :
    (∃ slots, action = .timer ∧ server.timer = .copying slots ∧
      next = { server with timer := .consuming server.allStat slots }) ∨
    (∃ worker pending slots, action = .timer ∧ server.timer = .consuming (worker :: pending) slots ∧
      next = { server with
        timer := .consuming pending slots
        staleReads :=
          if server.gone worker then server.staleReads ++ [worker] else server.staleReads }) ∨
    (∃ worker exit, action = .leave worker ∧ server.workers[worker]? = some ⟨.leaving, exit⟩ ∧
      next = server.setWorker worker ⟨.returned, exit⟩) ∨
    (server.keepsStats action = true ∧ SameStats server next) := by
  cases steps_of_step hstep with
  | stop call calls hcalls =>
    have hsame := sameStats_stopStep server call
    exact Or.inr (Or.inr (Or.inr ⟨rfl, hsame.gone, hsame.pending, hsame.staleReads⟩))
  | serve call calls middle hmiddle =>
    have hsame := sameStats_serveStep hmiddle
    exact Or.inr (Or.inr (Or.inr ⟨rfl, hsame.gone, hsame.pending, hsame.staleReads⟩))
  | ioExit | monitorExit => exact Or.inr (Or.inr (Or.inr ⟨rfl, fun _ ↦ rfl, rfl, rfl⟩))
  | add worker exit hrecord =>
    exact Or.inr (Or.inr (Or.inr ⟨rfl, gone_setWorker_of_not hrecord (by simp), rfl, rfl⟩))
  | popExit worker hrecord =>
    exact Or.inr (Or.inr (Or.inr ⟨rfl, gone_setWorker_of_not hrecord (by simp), rfl, rfl⟩))
  | leave worker exit hrecord =>
    exact Or.inr (Or.inr (Or.inl ⟨worker, exit, rfl, hrecord, rfl⟩))
  | timer next htimer =>
    rcases timerStep_cases htimer with ⟨slots, hcopying, hnext⟩ | hconsume | hother
    · exact Or.inl ⟨slots, rfl, hcopying, hnext⟩
    · obtain ⟨worker, pending, slots, hconsuming, hnext⟩ := hconsume
      exact Or.inr (Or.inl ⟨worker, pending, slots, rfl, hconsuming, hnext⟩)
    · exact Or.inr (Or.inr (Or.inr hother))

/-! ### The invariant -/

theorem SameStats.outlive (hsame : SameStats server next) (houtlive : server.StatsOutlive) :
    next.StatsOutlive where
  staleReads := hsame.staleReads.trans houtlive.staleReads
  pending := fun worker hmem ↦
    (hsame.gone worker).trans (houtlive.pending worker (hsame.pending ▸ hmem))

theorem SameStats.stale (hsame : SameStats server next) (hstale : server.StatsStale) :
    next.StatsStale := by
  rcases hstale with hreads | ⟨worker, hmem, hgone⟩
  · exact Or.inl (hsame.staleReads ▸ hreads)
  · exact Or.inr ⟨worker, hsame.pending.symm ▸ hmem, (hsame.gone worker).trans hgone⟩

/-- Assumes: a step from a state where the stats outlive their readers. If it meets the condition
they do so afterwards, and if not one is stale. -/
theorem StatsOutlive.moves (houtlive : server.StatsOutlive)
    (hstep : step server action = some next) :
    server.keepsStats action = true ∧ next.StatsOutlive ∨
      ¬server.keepsStats action = true ∧ next.StatsStale := by
  rcases step_cases hstep with ⟨slots, rfl, hcopying, rfl⟩ |
    ⟨worker, pending, slots, rfl, hconsuming, rfl⟩ | ⟨worker, exit, rfl, hrecord, rfl⟩ |
    ⟨hkeeps, hsame⟩
  · -- the copied list is what is left to consume
    have hkeeps : server.keepsStats .timer =
        server.allStat.all fun worker ↦ !server.gone worker := by rw [keepsStats, hcopying]
    rw [hkeeps]
    by_cases hall : (server.allStat.all fun worker ↦ !server.gone worker) = true
    · refine Or.inl ⟨hall, houtlive.staleReads, fun worker hmem ↦ ?_⟩
      exact (Bool.not_eq_true' _).mp (List.all_eq_true.mp hall worker hmem)
    · refine Or.inr ⟨hall, Or.inr ?_⟩
      rw [List.all_eq_true] at hall
      push Not at hall
      obtain ⟨worker, hmem, hgone⟩ := hall
      rw [ne_eq, Bool.not_eq_true', Bool.not_eq_false] at hgone
      exact ⟨worker, hmem, hgone⟩
  · have hpending := houtlive.pending
    rw [hconsuming] at hpending
    refine Or.inl ⟨by rw [keepsStats, hconsuming], ?_, fun other hmem ↦ ?_⟩
    · show (if server.gone worker then _ else server.staleReads) = []
      rw [hpending worker List.mem_cons_self]
      exact houtlive.staleReads
    · exact hpending other (List.mem_cons_of_mem _ hmem)
  · have hgone := gone_setWorker hrecord ⟨.returned, exit⟩
    by_cases hmem : worker ∈ server.timer.pending
    · refine Or.inr ⟨by simpa [keepsStats] using hmem, Or.inr ⟨worker, hmem, ?_⟩⟩
      rw [hgone, if_pos rfl]
      rfl
    · refine Or.inl ⟨by simpa [keepsStats] using hmem, houtlive.staleReads, fun other hother ↦ ?_⟩
      have hne : other ≠ worker := fun heq ↦ hmem (heq ▸ hother)
      rw [hgone, if_neg hne]
      exact houtlive.pending other hother
  · exact Or.inl ⟨hkeeps, hsame.outlive houtlive⟩

/-- What is stale is consumed, or stays so. -/
theorem StatsStale.moves (hstale : server.StatsStale) (hstep : step server action = some next) :
    next.StatsStale := by
  rcases step_cases hstep with ⟨slots, rfl, hcopying, rfl⟩ |
    ⟨worker, pending, slots, rfl, hconsuming, rfl⟩ | ⟨worker, exit, rfl, hrecord, rfl⟩ |
    ⟨-, hsame⟩
  · rcases hstale with hreads | ⟨worker, hmem, -⟩
    · exact Or.inl hreads
    · rw [hcopying] at hmem
      cases hmem
  · rcases hstale with hreads | ⟨other, hmem, hgone⟩
    · refine Or.inl ?_
      show (if server.gone worker then server.staleReads ++ [worker] else server.staleReads) ≠ []
      split
      · simp
      · exact hreads
    · rw [hconsuming] at hmem
      rcases List.mem_cons.mp hmem with rfl | hrest
      · refine Or.inl ?_
        show (if server.gone other then server.staleReads ++ [other] else server.staleReads) ≠ []
        rw [hgone]
        simp
      · exact Or.inr ⟨other, hrest, hgone⟩
  · rcases hstale with hreads | ⟨other, hmem, hgone⟩
    · exact Or.inl hreads
    · refine Or.inr ⟨other, hmem, ?_⟩
      rw [gone_setWorker hrecord]
      split
      · rfl
      · exact hgone
  · exact hsame.stale hstale

/-! ### Runs -/

theorem statsOutlive_started (workers : ℕ) : (started workers).StatsOutlive :=
  ⟨rfl, fun _ hmem ↦ absurd hmem List.not_mem_nil⟩

/-- The condition on the steps of a run decides how it ends. -/
theorem run_cases {workers : ℕ} {actions : List StatAction} {final : StatServer}
    (hrun : runFrom step (started workers) actions = some final) :
    Along step (fun server action ↦ server.keepsStats action = true) (started workers) actions ∧
        final.StatsOutlive ∨
      ¬Along step (fun server action ↦ server.keepsStats action = true) (started workers) actions ∧
        final.StatsStale :=
  runFrom_along_or StatsOutlive StatsStale (fun _ _ _ houtlive hnext ↦ houtlive.moves hnext)
    (fun _ _ _ hstale hnext ↦ hstale.moves hnext) (statsOutlive_started workers) hrun

/-- Whatever the order of the steps: no stat is consumed after its worker has returned, and none
such is left to an `onStat` in progress, if and only if the list was only ever copied while no
registered worker had returned, and no worker returned while an `onStat` in progress had its stat
still to consume. -/
theorem statsOutlive_iff (workers : ℕ) (actions : List StatAction) (final : StatServer)
    (hrun : runFrom step (started workers) actions = some final) :
    final.StatsOutlive ↔
      Along step (fun server action ↦ server.keepsStats action = true) (started workers)
        actions := by
  rcases run_cases hrun with ⟨hall, houtlive⟩ | ⟨hnot, hstale⟩
  · exact iff_of_true houtlive hall
  · exact iff_of_false ((statsStale_iff final).mp hstale) hnot

/-- Two workers that ran while `onStat` was called once. -/
def tickedRun : List StatAction := .add 0 :: .add 1 :: List.replicate 54 .timer

theorem statsOutlive_iff_tickedRun :
    ∃ final, runFrom step (started 2) tickedRun = some final ∧
      (final.StatsOutlive ↔
        Along step (fun server action ↦ server.keepsStats action = true) (started 2) tickedRun) :=
  ⟨_, rfl, statsOutlive_iff 2 tickedRun _ rfl⟩

/-- `stop` while `onStat` goes through the list that it has copied: the first worker returns, and
its stat is consumed after that. -/
def stoppedRun : List StatAction :=
  List.flatten [
    [.add 0, .add 1],
    List.replicate 51 .timer,
    [.stop, .stop, .popExit 0, .leave 0, .timer]]

theorem staleReads_stoppedRun :
    (runFrom step (started 2) stoppedRun).map staleReads = some [0] := by
  decide

/-! ### Before the shutdown -/

/-- What holds until `stop` sets the flag. -/
structure Serving (server : StatServer) : Prop where
  stop : server.stop.head? = some .setShutdown
  working : ∀ (worker : ℕ) (record : StatWorker), server.workers[worker]? = some record →
    record.exit = false ∧ (record.place = .starting ∨ record.place = .looping)
  outlive : server.StatsOutlive

theorem serving_started (workers : ℕ) : (started workers).Serving where
  stop := rfl
  working := fun worker record hrecord ↦ by
    have hmem := List.mem_of_getElem? hrecord
    rw [List.eq_of_mem_replicate hmem]
    exact ⟨rfl, Or.inl rfl⟩
  outlive := statsOutlive_started workers

theorem Serving.gone (hserving : server.Serving) (worker : ℕ) : server.gone worker = false := by
  cases hrecord : server.workers[worker]? with
  | none => rw [StatServer.gone, hrecord]; rfl
  | some record =>
    rw [gone_of_some hrecord]
    rcases (hserving.working worker record hrecord).2 with hplace | hplace <;> rw [hplace] <;> rfl

theorem Serving.keepsStats (hserving : server.Serving) (hstep : step server action = some next) :
    server.keepsStats action = true := by
  rcases step_cases hstep with ⟨slots, rfl, hcopying, rfl⟩ |
    ⟨worker, pending, slots, rfl, hconsuming, rfl⟩ | ⟨worker, exit, rfl, hrecord, rfl⟩ |
    ⟨hkeeps, -⟩
  · rw [StatServer.keepsStats, hcopying, List.all_eq_true]
    exact fun worker _ ↦ by rw [hserving.gone worker]; rfl
  · rw [StatServer.keepsStats, hconsuming]
  · rcases (hserving.working worker _ hrecord).2 with hplace | hplace <;> cases hplace
  · exact hkeeps

theorem Serving.outliveNext (hserving : server.Serving)
    (hstep : step server action = some next) : next.StatsOutlive := by
  rcases hserving.outlive.moves hstep with ⟨-, houtlive⟩ | ⟨hnot, -⟩
  · exact houtlive
  · exact absurd (hserving.keepsStats hstep) hnot

/-- The first statement of `stop` ends what held before; no other step does. -/
theorem Serving.moves (hserving : server.Serving) (hstep : step server action = some next) :
    next.shutdown = true ∨ next.Serving := by
  have houtlive := hserving.outliveNext hstep
  cases steps_of_step hstep with
  | stop call calls hcalls =>
    have hcall : call = .setShutdown := by
      have hhead := hserving.stop
      rw [hcalls] at hhead
      exact Option.some.inj hhead
    subst hcall
    exact Or.inl rfl
  | serve call calls middle hmiddle =>
    obtain ⟨hstop, hworkers, -⟩ := serveStep_frame hmiddle
    exact Or.inr ⟨hstop ▸ hserving.stop, hworkers ▸ hserving.working, houtlive⟩
  | ioExit | monitorExit => exact Or.inr ⟨hserving.stop, hserving.working, houtlive⟩
  | add worker exit hrecord =>
    refine Or.inr ⟨hserving.stop, fun other record hother ↦ ?_, houtlive⟩
    rcases getElem?_set_cases hother with ⟨-, rfl⟩ | ⟨-, hold⟩
    · exact ⟨(hserving.working worker _ hrecord).1, Or.inr rfl⟩
    · exact hserving.working other record hold
  | popExit worker hrecord => cases (hserving.working worker _ hrecord).1
  | leave worker exit hrecord =>
    rcases (hserving.working worker _ hrecord).2 with hplace | hplace <;> cases hplace
  | timer next htimer =>
    obtain ⟨hstop, hworkers, -⟩ := timerStep_frame htimer
    exact Or.inr ⟨hstop ▸ hserving.stop, hworkers ▸ hserving.working, houtlive⟩

theorem shutdown_of_step (hshutdown : server.shutdown = true)
    (hstep : step server action = some next) : next.shutdown = true := by
  cases steps_of_step hstep with
  | stop call calls hcalls =>
    cases call with
    | setShutdown => rfl
    | stopQueue worker =>
      simp only [stopStep]
      split <;> exact hshutdown
  | serve call calls middle hmiddle => exact (serveStep_frame hmiddle).2.2.trans hshutdown
  | timer next htimer => exact (timerStep_frame htimer).2.2.trans hshutdown
  | ioExit | monitorExit | add | popExit | leave => exact hshutdown

/-- As long as `stop` has not set the flag, every stat that is consumed is there. -/
theorem statsOutlive_of_not_shutdown {workers : ℕ} {actions : List StatAction} {final : StatServer}
    (hrun : runFrom step (started workers) actions = some final)
    (hflag : final.shutdown = false) : final.StatsOutlive := by
  have hfinal : final.shutdown = true ∨ final.Serving := by
    refine runFrom_invariant (fun server ↦ server.shutdown = true ∨ server.Serving) ?_
      (Or.inr (serving_started workers)) hrun
    rintro server action next (hshutdown | hserving) hnext
    · exact Or.inl (shutdown_of_step hshutdown hnext)
    · exact hserving.moves hnext
  rcases hfinal with hshutdown | hserving
  · rw [hflag] at hshutdown
    cases hshutdown
  · exact hserving.outlive

end StatServer

end TszyUlt.Zbf
