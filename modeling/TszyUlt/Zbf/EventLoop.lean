import TszyUlt.Zbf.EpollServer

/-!
# The loops of the I/O threads

`zbf/socket_tcp_v5.hpp`: `tcpsock_server::ioprocessor` and `async_client_manager::ioprocessor`, with
`sp_wait` of `zbf/socket_poll.hpp`. Both are the same loop: it reads the shutdown flag, waits for a
batch of events and handles them one by one, reading the flag before each. They differ in what they
do for an event (`serverEvent`, `managerEvent`), and nothing that happens there leaves the loop. A
wait that fails does leave it, also one that a signal has interrupted; elsewhere the same error is a
reason to try again (`isErrAgain`).

`EventLoop` is a loop of either kind with the results that the poll has in store for it. `Survives`
says that the loop has not left without a request and has lost no event, and `survives_iff` that it
fails through an interrupted wait and through nothing else. `measure_lt` bounds what the loop can do
with the results in store.

Scope. Another thread may set the flag at any point. What the calls for an event return is an input.
-/

set_option autoImplicit false
set_option relaxedAutoImplicit false

namespace TszyUlt.Zbf

open Lib

/-! ### The handling of an event -/

/-- The calls that the loops make for an event. -/
inductive IoCall
  | accept (fd : ℕ)
  | closeSocket (conn : ℕ)
  | createUser (conn : ℕ)
  | recv (fd : ℕ)
  | onRecv (fd : ℕ)
  | dispatchMsg (fd : ℕ)
  | sendData (fd : ℕ)
  | onIOError (fd : ℕ)
  deriving DecidableEq, Repr

/-- What the calls return: the connection accepted, whether the limit is reached and whether
`createUser` succeeds; the result of `recv`, whether the connection is known, whether `onRecv`
reports an error and how many messages there are; whether `sendData` fails. -/
structure IoOutcome where
  conn : Option ℕ
  limitReached : Bool
  created : Bool
  recvLen : ℤ
  known : Bool
  cacheError : Bool
  messages : ℕ
  sendFail : Bool
  deriving DecidableEq, Repr

/-- The branch of a readable connection, in either loop. -/
def readEvent (fd : ℕ) (outcome : IoOutcome) : List IoCall :=
  .recv fd ::
    if 0 < outcome.recvLen then
      if outcome.known then
        .onRecv fd ::
          if outcome.cacheError then [.onIOError fd]
          else List.replicate outcome.messages (.dispatchMsg fd)
      else []
    else if outcome.recvLen = -2 then []
    else [.onIOError fd]

/-- The branch of a writable connection, in either loop. -/
def writeEvent (fd : ℕ) (outcome : IoOutcome) : List IoCall :=
  if outcome.known then .sendData fd :: if outcome.sendFail then [.onIOError fd] else []
  else []

/-- What `async_client_manager::ioprocessor` does for an event. -/
def managerEvent (ev : Event) (outcome : IoOutcome) : List IoCall :=
  if ev.read then readEvent ev.fd outcome
  else if ev.write then writeEvent ev.fd outcome
  else if ev.error || ev.eof then [.onIOError ev.fd]
  else []

/-- What `tcpsock_server::ioprocessor` does for an event. -/
def serverEvent (listenFds : List ℕ) (ev : Event) (outcome : IoOutcome) : List IoCall :=
  if ev.fd ∈ listenFds then
    if ev.read then
      .accept ev.fd ::
        match outcome.conn with
        | none => []
        | some conn =>
          if outcome.limitReached then [.closeSocket conn]
          else .createUser conn :: if outcome.created then [] else [.closeSocket conn]
    else []
  else managerEvent ev outcome

/-! ### The loop -/

/-- The errors of a wait. -/
inductive Errno
  | eagain | eintr | other
  deriving DecidableEq, Repr

/-- `IS_ERR_AGAIN`. -/
def isErrAgain (err : Errno) : Bool := err = .eagain || err = .eintr

/-- What `sp_wait` returns. -/
inductive PollResult
  | events (batch : List Event)
  | failed (err : Errno)
  deriving DecidableEq, Repr

/-- The events of a result. -/
def PollResult.batch : PollResult → List Event
  | .events batch => batch
  | .failed _ => []

/-- The events of results, in their order. -/
def eventsOf (results : List PollResult) : List Event := results.flatMap PollResult.batch

/-- Where the loop is: before the flag is read, in the wait, before an event of the batch, or left,
with whether shutdown had been requested then. -/
inductive LoopPlace
  | top
  | waiting
  | handling (rest : List Event)
  | left (requested : Bool)
  deriving DecidableEq, Repr

/-- The loop of an I/O thread: `_shutdown`, where it is, the results in store, and what it has done:
the events handled and the calls made for them. -/
structure EventLoop where
  shutdown : Bool
  place : LoopPlace
  pending : List PollResult
  handled : List Event
  calls : List IoCall
  deriving DecidableEq, Repr

/-- A step of the loop, or the request of another thread. -/
inductive LoopAction
  | isShutDown
  | wait
  | event (outcome : IoOutcome)
  | requestShutdown
  deriving DecidableEq, Repr

namespace EventLoop

/-- A loop that was just started, with the results it will get. -/
def new (results : List PollResult) : EventLoop := ⟨false, .top, results, [], []⟩

/-- `ioprocessor`, with what is done for an event. -/
def step (body : Event → IoOutcome → List IoCall) (loop : EventLoop) :
    LoopAction → Option EventLoop
  | .isShutDown =>
    match loop.place with
    | .top => some { loop with place := if loop.shutdown then .left true else .waiting }
    | _ => none
  | .wait =>
    match loop.place, loop.pending with
    | .waiting, .events batch :: rest =>
      some { loop with place := .handling batch, pending := rest }
    | .waiting, .failed _ :: rest =>
      some { loop with place := .left loop.shutdown, pending := rest }
    | _, _ => none
  | .event outcome =>
    match loop.place with
    | .handling [] => some { loop with place := .top }
    | .handling (ev :: rest) =>
      if loop.shutdown then some { loop with place := .top }
      else some { loop with
        place := .handling rest
        handled := loop.handled ++ [ev]
        calls := loop.calls ++ body ev outcome }
    | _ => none
  | .requestShutdown => some { loop with shutdown := true }

/-- `tcpsock_server::ioprocessor`. -/
abbrev serverStep (listenFds : List ℕ) : EventLoop → LoopAction → Option EventLoop :=
  step (serverEvent listenFds)

/-- `async_client_manager::ioprocessor`. -/
abbrev managerStep : EventLoop → LoopAction → Option EventLoop := step managerEvent

/-- The events that the loop has yet to handle. -/
def toHandle (loop : EventLoop) : List Event :=
  match loop.place with
  | .handling rest => rest ++ eventsOf loop.pending
  | _ => eventsOf loop.pending

/-- The loop has not left without a request, and as long as there is none it has handled the events
of the results in their order, has the others before it, and goes on while there are any. -/
structure Survives (body : Event → IoOutcome → List IoCall) (results : List PollResult)
    (loop : EventLoop) : Prop where
  left : ∀ requested, loop.place = .left requested → requested = true
  inOrder : loop.shutdown = false → loop.handled ++ loop.toHandle = eventsOf results
  goesOn : loop.shutdown = false → loop.toHandle ≠ [] →
    ∃ action next, action ≠ .requestShutdown ∧ step body loop action = some next

/-- A wait does not fail unless shutdown was requested. -/
def WaitsThrough (loop : EventLoop) (action : LoopAction) : Prop :=
  action = .wait → loop.shutdown = false → ∀ err, loop.pending.head? ≠ some (.failed err)

variable {body : Event → IoOutcome → List IoCall} {results : List PollResult}
variable {loop next : EventLoop} {action : LoopAction}

/-! ### What a step does -/

/-- The steps, by what they change. -/
inductive Moves (body : Event → IoOutcome → List IoCall) (loop : EventLoop) :
    LoopAction → EventLoop → Prop
  | goOn (hplace : loop.place = .top) (hshutdown : loop.shutdown = false) :
      Moves body loop .isShutDown { loop with place := .waiting }
  | leave (hplace : loop.place = .top) (hshutdown : loop.shutdown = true) :
      Moves body loop .isShutDown { loop with place := .left true }
  | getEvents (batch : List Event) (pending : List PollResult) (hplace : loop.place = .waiting)
      (hpending : loop.pending = .events batch :: pending) :
      Moves body loop .wait { loop with place := .handling batch, pending := pending }
  | fail (err : Errno) (pending : List PollResult) (hplace : loop.place = .waiting)
      (hpending : loop.pending = .failed err :: pending) :
      Moves body loop .wait { loop with place := .left loop.shutdown, pending := pending }
  | endBatch (outcome : IoOutcome) (hplace : loop.place = .handling []) :
      Moves body loop (.event outcome) { loop with place := .top }
  /-- The rest of the batch is left out after a request. -/
  | dropBatch (outcome : IoOutcome) (ev : Event) (rest : List Event)
      (hplace : loop.place = .handling (ev :: rest)) (hshutdown : loop.shutdown = true) :
      Moves body loop (.event outcome) { loop with place := .top }
  | handle (outcome : IoOutcome) (ev : Event) (rest : List Event)
      (hplace : loop.place = .handling (ev :: rest)) (hshutdown : loop.shutdown = false) :
      Moves body loop (.event outcome)
        { loop with
          place := .handling rest
          handled := loop.handled ++ [ev]
          calls := loop.calls ++ body ev outcome }
  | request : Moves body loop .requestShutdown { loop with shutdown := true }

theorem step_moves (hstep : step body loop action = some next) : Moves body loop action next := by
  cases action with
  | isShutDown =>
    simp only [step] at hstep
    split at hstep
    · rename_i hplace
      cases hstep
      split
      · exact .leave hplace ‹_›
      · rename_i hshutdown
        exact .goOn hplace (Bool.eq_false_iff.mpr hshutdown)
    · cases hstep
  | wait =>
    simp only [step] at hstep
    split at hstep
    · cases hstep
      exact .getEvents _ _ ‹_› ‹_›
    · cases hstep
      exact .fail _ _ ‹_› ‹_›
    · cases hstep
  | event outcome =>
    simp only [step] at hstep
    split at hstep
    · cases hstep
      exact .endBatch outcome ‹_›
    · split at hstep
      · cases hstep
        exact .dropBatch outcome _ _ ‹_› ‹_›
      · rename_i hshutdown
        cases hstep
        exact .handle outcome _ _ ‹_› (Bool.eq_false_iff.mpr hshutdown)
    · cases hstep
  | requestShutdown =>
    cases hstep
    exact .request

/-- The loop has not left, and has lost no event unless shutdown was requested. -/
structure Running (results : List PollResult) (loop : EventLoop) : Prop where
  place : ∀ requested, loop.place ≠ .left requested
  inOrder : loop.shutdown = false → loop.handled ++ loop.toHandle = eventsOf results

/-- The loop has left after a request. -/
def Ended (loop : EventLoop) : Prop := loop.place = .left true ∧ loop.shutdown = true

theorem running_new (results : List PollResult) : (new results).Running results :=
  ⟨by simp [new], fun _ ↦ rfl⟩

/-- A running loop goes on, ends after a request, or leaves through a wait that fails. -/
theorem Running.moves (hrunning : loop.Running results)
    (hstep : step body loop action = some next) :
    (loop.WaitsThrough action ∧ (next.Running results ∨ next.Ended)) ∨
      (¬loop.WaitsThrough action ∧ next.place = .left false) := by
  obtain ⟨hplaces, hinOrder⟩ := hrunning
  unfold toHandle at hinOrder
  cases step_moves hstep with
  | goOn hplace hshutdown =>
    rw [hplace] at hinOrder
    exact Or.inl ⟨nofun, Or.inl ⟨nofun, hinOrder⟩⟩
  | leave hplace hshutdown => exact Or.inl ⟨nofun, Or.inr ⟨rfl, hshutdown⟩⟩
  | getEvents batch pending hplace hpending =>
    rw [hplace, hpending] at hinOrder
    refine Or.inl ⟨fun _ _ err ↦ ?_, Or.inl ⟨nofun, hinOrder⟩⟩
    rw [hpending]
    exact nofun
  | fail err pending hplace hpending =>
    by_cases hshutdown : loop.shutdown = true
    · refine Or.inl ⟨fun _ hnot ↦ ?_, Or.inr ⟨congrArg LoopPlace.left hshutdown, hshutdown⟩⟩
      cases hshutdown.symm.trans hnot
    · have hgoing := Bool.eq_false_iff.mpr hshutdown
      refine Or.inr ⟨fun hthrough ↦ ?_, congrArg LoopPlace.left hgoing⟩
      exact hthrough rfl hgoing err (by rw [hpending]; rfl)
  | endBatch outcome hplace =>
    rw [hplace] at hinOrder
    exact Or.inl ⟨nofun, Or.inl ⟨nofun, hinOrder⟩⟩
  | dropBatch outcome ev rest hplace hshutdown =>
    refine Or.inl ⟨nofun, Or.inl ⟨nofun, fun hnot ↦ ?_⟩⟩
    cases hshutdown.symm.trans hnot
  | handle outcome ev rest hplace hshutdown =>
    rw [hplace] at hinOrder
    refine Or.inl ⟨nofun, Or.inl ⟨nofun, fun hnot ↦ ?_⟩⟩
    rw [← hinOrder hshutdown]
    exact List.append_assoc loop.handled [ev] _
  | request => exact Or.inl ⟨nofun, Or.inl ⟨hplaces, nofun⟩⟩

/-- A loop that has left stays where it is. -/
theorem place_of_left {requested : Bool} (hleft : loop.place = .left requested)
    (hstep : step body loop action = some next) :
    next.place = .left requested ∧ loop.WaitsThrough action ∧
      (loop.shutdown = true → next.shutdown = true) := by
  cases step_moves hstep with
  | request => exact ⟨hleft, nofun, fun _ ↦ rfl⟩
  | goOn hplace | leave hplace | getEvents _ _ hplace | fail _ _ hplace | endBatch _ hplace
  | dropBatch _ _ _ hplace | handle _ _ _ hplace =>
    cases hleft.symm.trans hplace

theorem Ended.moves (hended : loop.Ended) (hstep : step body loop action = some next) :
    loop.WaitsThrough action ∧ next.Ended := by
  obtain ⟨hplace, hthrough, hshutdown⟩ := place_of_left hended.1 hstep
  exact ⟨hthrough, hplace, hshutdown hended.2⟩

theorem Ended.survives (hended : loop.Ended) : loop.Survives body results := by
  obtain ⟨hplace, hshutdown⟩ := hended
  refine ⟨fun requested hleft ↦ ?_, fun hnot ↦ ?_, fun hnot ↦ ?_⟩
  · cases hplace.symm.trans hleft
    rfl
  · cases hshutdown.symm.trans hnot
  · cases hshutdown.symm.trans hnot

/-- A running loop has a step of its own while there are events to handle. -/
theorem Running.goesOn (hrunning : loop.Running results) (hmore : loop.toHandle ≠ []) :
    ∃ action next, action ≠ .requestShutdown ∧ step body loop action = some next := by
  obtain ⟨shutdown, place, pending, handled, calls⟩ := loop
  cases place with
  | top => exact ⟨.isShutDown, _, by simp, rfl⟩
  | waiting =>
    cases pending with
    | nil => exact absurd rfl hmore
    | cons result pending =>
      cases result with
      | events batch => exact ⟨.wait, _, by simp, rfl⟩
      | failed err => exact ⟨.wait, _, by simp, rfl⟩
  | handling rest =>
    let outcome : IoOutcome := ⟨none, false, false, 0, false, false, 0, false⟩
    cases rest with
    | nil => exact ⟨.event outcome, _, by simp, rfl⟩
    | cons ev rest =>
      cases shutdown with
      | true => exact ⟨.event outcome, _, by simp, rfl⟩
      | false => exact ⟨.event outcome, _, by simp, rfl⟩
  | left requested => exact absurd rfl (hrunning.place requested)

theorem Running.survives (hrunning : loop.Running results) : loop.Survives body results :=
  ⟨fun requested hleft ↦ absurd hleft (hrunning.place requested), hrunning.inOrder,
    fun _ hmore ↦ hrunning.goesOn hmore⟩

/-- A loop that survives and has no step of its own left has handled all the events, unless shutdown
was requested. -/
theorem Survives.handled_eq (hsurvives : loop.Survives body results)
    (hgoing : loop.shutdown = false)
    (hstuck : ∀ action ≠ .requestShutdown, step body loop action = none) :
    loop.handled = eventsOf results := by
  have hnone : loop.toHandle = [] := by
    by_contra hmore
    obtain ⟨action, next, haction, hstep⟩ := hsurvives.goesOn hgoing hmore
    rw [hstuck action haction] at hstep
    cases hstep
  rw [← hsurvives.inOrder hgoing, hnone, List.append_nil]

/-! ### What is left to do -/

/-- What the results in store cost the loop. -/
def storeCost : List PollResult → ℕ
  | [] => 0
  | .events batch :: pending => batch.length + 3 + storeCost pending
  | .failed _ :: pending => storeCost pending

/-- The steps of its own that a loop can take with the results in store. -/
def measure (loop : EventLoop) : ℕ :=
  storeCost loop.pending +
    match loop.place with
    | .top => 2
    | .waiting => 1
    | .handling rest => rest.length + 3
    | .left _ => 0

/-- Every step of the loop itself brings it closer to the end of the results in store. -/
theorem measure_lt (haction : action ≠ .requestShutdown)
    (hstep : step body loop action = some next) : next.measure < loop.measure := by
  unfold measure
  cases step_moves hstep with
  | request => exact absurd rfl haction
  | goOn hplace hshutdown | leave hplace hshutdown | dropBatch _ _ _ hplace hshutdown
  | handle _ _ _ hplace hshutdown =>
    simp only [hplace, List.length_cons]
    omega
  | endBatch outcome hplace =>
    simp only [hplace, List.length_nil]
    omega
  | getEvents batch pending hplace hpending | fail err pending hplace hpending =>
    simp only [hplace, hpending, storeCost]
    omega

/-! ### Runs -/

section Runs

variable {actions : List LoopAction} {final : EventLoop}

/-- A run goes on or ends on request, or it contains a wait that failed before and has left. -/
theorem run_cases (hrunning : loop.Running results)
    (hrun : runFrom (step body) loop actions = some final) :
    (Along (step body) WaitsThrough loop actions ∧ (final.Running results ∨ final.Ended)) ∨
      (¬Along (step body) WaitsThrough loop actions ∧ final.place = .left false) := by
  refine runFrom_along_or (fun loop ↦ loop.Running results ∨ loop.Ended)
    (fun loop ↦ loop.place = .left false) ?_ (fun _ _ _ hleft hnext ↦ (place_of_left hleft hnext).1)
    (Or.inl hrunning) hrun
  rintro loop action next (hrunning | hended) hnext
  · exact hrunning.moves hnext
  · obtain ⟨hthrough, hendedNext⟩ := hended.moves hnext
    exact Or.inl ⟨hthrough, Or.inr hendedNext⟩

/-- Either loop survives what the poll returns, whatever it does for the events and whenever
shutdown is requested, if and only if no wait fails before shutdown is requested. -/
theorem survives_iff (body : Event → IoOutcome → List IoCall) {results : List PollResult}
    {actions : List LoopAction} {final : EventLoop}
    (hrun : runFrom (step body) (new results) actions = some final) :
    final.Survives body results ↔ Along (step body) WaitsThrough (new results) actions := by
  rcases run_cases (running_new results) hrun with ⟨hall, hrunning | hended⟩ | ⟨hnot, hleft⟩
  · exact iff_of_true hrunning.survives hall
  · exact iff_of_true hended.survives hall
  · refine iff_of_false (fun hsurvives ↦ ?_) hnot
    cases hsurvives.left false hleft

/-- One batch with one event, handled by the loop of the server. -/
theorem survives_iff_oneEvent :
    Survives (serverEvent [3]) [.events [⟨5, true, false, false, false⟩]]
        ⟨false, .handling [], [], [⟨5, true, false, false, false⟩], [.recv 5]⟩ ↔
      Along (serverStep [3]) WaitsThrough (new [.events [⟨5, true, false, false, false⟩]])
        [.isShutDown, .wait, .event ⟨none, false, false, -2, true, false, 0, false⟩] :=
  survives_iff (serverEvent [3]) rfl

/-- A signal interrupts the first wait: both loops leave, nobody has requested it, and the batch
behind it is not handled. -/
theorem left_interrupted :
    let results : List PollResult := [.failed .eintr, .events [⟨5, true, false, false, false⟩]]
    let left : EventLoop := ⟨false, .left false, [.events [⟨5, true, false, false, false⟩]], [], []⟩
    runFrom (serverStep [3]) (new results) [.isShutDown, .wait] = some left ∧
      runFrom managerStep (new results) [.isShutDown, .wait] = some left ∧
        isErrAgain .eintr = true ∧ ¬left.Survives (serverEvent [3]) results ∧
          ¬left.Survives managerEvent results :=
  ⟨rfl, rfl, rfl, fun hsurvives ↦ absurd (hsurvives.left false rfl) Bool.false_ne_true,
    fun hsurvives ↦ absurd (hsurvives.left false rfl) Bool.false_ne_true⟩

end Runs

end EventLoop

end TszyUlt.Zbf
