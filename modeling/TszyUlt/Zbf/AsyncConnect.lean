import Mathlib.Data.Int.Notation
import TszyUlt.Lib.Transition

/-!
# Connecting with a timeout

`zbf/asio_socket_tcp.hpp`: `tcpsock_client::async_connect`. The wait of a timer and the chain of
resolver, connect and, with TLS, handshake run side by side and share a flag `done`. Whoever ends
the chain sets the flag, cancels the timer and calls the handler. The timer sets the flag too, but
it does not call the handler, and the chain that finds the flag set returns without a call.

`Reported` is the state in which the handler was called, `Lost` the one in which it never will be.
`run_cases` says that the first timeout that finds the flag clear is what leads to the second, and
`reportsOnce_iff` that nothing else does.

Scope. All the completions run on the first thread of the client, so each is one step. The results
of the operations are arbitrary, also after a cancel, and so is the order. A run starts behind the
first lines of `async_connect`, where a former user was stopped and reset.
-/

set_option autoImplicit false
set_option relaxedAutoImplicit false

namespace TszyUlt.Zbf

open Lib

/-- `_user`: none, created for the connection, or started. -/
inductive ConnectUser
  | none | created | started
  deriving DecidableEq, Repr

/-- The operation of the chain whose completion has not run. -/
inductive ConnectPhase
  | resolving | connecting | handshaking | finished
  deriving DecidableEq, Repr

/-- A call of `async_connect`: `*done`, whether the completion of the timer has yet to run, the
chain, the user, and the codes that the handler was called with. -/
structure AsyncConnect where
  done : Bool
  waiting : Bool
  phase : ConnectPhase
  user : ConnectUser
  calls : List ℤ
  deriving DecidableEq, Repr

/-- The completions, with whether they come with an error. -/
inductive Completion
  | timer (ec : Bool)
  | resolve (ec : Bool)
  | connect (ec : Bool)
  | handshake (ec : Bool)
  deriving DecidableEq, Repr

namespace AsyncConnect

/-- The timer and the resolver were started. -/
def new : AsyncConnect := ⟨false, true, .resolving, .none, []⟩

/-- The end of the chain: `timer->cancel()`, the flag, and the call of the handler. -/
def finish (state : AsyncConnect) (user : ConnectUser) (rc : ℤ) : AsyncConnect :=
  { state with done := true, phase := .finished, user := user, calls := state.calls ++ [rc] }

/-- The completion of the wait. -/
def onTimer (state : AsyncConnect) (ec : Bool) : AsyncConnect :=
  if ec then { state with waiting := false }
  else if state.done then { state with waiting := false }
  else { state with waiting := false, done := true }

/-- The completion of the resolver. -/
def onResolve (state : AsyncConnect) (ec : Bool) : AsyncConnect :=
  if state.done then { state with phase := .finished }
  else if ec then state.finish state.user (-1)
  else { state with user := .created, phase := .connecting }

/-- The completion of the connect, without or with TLS. -/
def onConnect (tls : Bool) (state : AsyncConnect) (ec : Bool) : AsyncConnect :=
  if state.done then { state with phase := .finished }
  else if ec then state.finish .none (-2)
  else if tls then { state with phase := .handshaking }
  else state.finish .started 0

/-- The completion of the handshake. -/
def onHandshake (state : AsyncConnect) (ec : Bool) : AsyncConnect :=
  if state.done then { state with phase := .finished }
  else if ec then state.finish .none (-3)
  else state.finish .started 0

/-- A completion runs if its operation is under way. -/
def step (tls : Bool) (state : AsyncConnect) : Completion → Option AsyncConnect
  | .timer ec => if state.waiting then some (state.onTimer ec) else none
  | .resolve ec => if state.phase = .resolving then some (state.onResolve ec) else none
  | .connect ec => if state.phase = .connecting then some (state.onConnect tls ec) else none
  | .handshake ec => if state.phase = .handshaking then some (state.onHandshake ec) else none

/-- All the completions have run. -/
def Quiescent (state : AsyncConnect) : Prop := state.waiting = false ∧ state.phase = .finished

/-- The handler was called once, with 0 exactly if the user was started. -/
def ReportsOnce (state : AsyncConnect) : Prop :=
  ∃ rc, state.calls = [rc] ∧ (rc = 0 ↔ state.user = .started)

/-- The wait does not complete without an error while the flag is clear. -/
def InTime (state : AsyncConnect) (completion : Completion) : Prop :=
  completion = .timer false → state.done = true

instance (state : AsyncConnect) (completion : Completion) :
    Decidable (state.InTime completion) :=
  inferInstanceAs (Decidable (_ → _))

/-! ### What a completion does -/

variable {tls : Bool} {state next : AsyncConnect} {completion : Completion}

/-- The chain is under way, and nobody was told anything. -/
structure Open (state : AsyncConnect) : Prop where
  done : state.done = false
  phase : state.phase ≠ .finished
  user : state.user ≠ .started
  calls : state.calls = []

/-- The chain has ended with a call of the handler. -/
structure Reported (state : AsyncConnect) : Prop where
  done : state.done = true
  phase : state.phase = .finished
  once : state.ReportsOnce

/-- The flag was set without a call. -/
structure Lost (state : AsyncConnect) : Prop where
  done : state.done = true
  calls : state.calls = []

theorem open_new : new.Open := ⟨rfl, by decide, by decide, rfl⟩

theorem Open.reported_finish (hopen : state.Open) {user : ConnectUser} {rc : ℤ}
    (hrc : rc = 0 ↔ user = .started) : (state.finish user rc).Reported :=
  ⟨rfl, rfl, rc, by rw [finish, hopen.calls, List.nil_append], hrc⟩

/-- From an open state a timeout leads to a lost one, and every other completion leaves the state
open or reports. -/
theorem Open.moves (hopen : state.Open) (hstep : step tls state completion = some next) :
    (state.InTime completion ∧ (next.Open ∨ next.Reported)) ∨
      (¬state.InTime completion ∧ next.Lost) := by
  cases completion with
  | timer ec =>
    simp only [step, Option.ite_none_right_eq_some, Option.some.injEq] at hstep
    obtain ⟨-, rfl⟩ := hstep
    cases ec with
    | true => exact Or.inl ⟨by simp [InTime], Or.inl ⟨hopen.done, hopen.phase, hopen.user,
        hopen.calls⟩⟩
    | false =>
      refine Or.inr ⟨by simp [InTime, hopen.done], ?_⟩
      simp only [onTimer, hopen.done]
      exact ⟨rfl, hopen.calls⟩
  | resolve ec =>
    simp only [step, Option.ite_none_right_eq_some, Option.some.injEq] at hstep
    obtain ⟨-, rfl⟩ := hstep
    refine Or.inl ⟨by simp [InTime], ?_⟩
    cases ec with
    | true =>
      simp only [onResolve, hopen.done]
      exact Or.inr (hopen.reported_finish (iff_of_false (by decide) hopen.user))
    | false =>
      simp only [onResolve, hopen.done, Bool.false_eq_true, if_false]
      exact Or.inl ⟨rfl, by simp, by simp, hopen.calls⟩
  | connect ec =>
    simp only [step, Option.ite_none_right_eq_some, Option.some.injEq] at hstep
    obtain ⟨-, rfl⟩ := hstep
    refine Or.inl ⟨by simp [InTime], ?_⟩
    cases ec with
    | true =>
      simp only [onConnect, hopen.done]
      exact Or.inr (hopen.reported_finish (by decide))
    | false =>
      cases tls with
      | true =>
        simp only [onConnect, hopen.done, Bool.false_eq_true, if_false, if_true]
        exact Or.inl ⟨rfl, by simp, hopen.user, hopen.calls⟩
      | false =>
        simp only [onConnect, hopen.done]
        exact Or.inr (hopen.reported_finish (by decide))
  | handshake ec =>
    simp only [step, Option.ite_none_right_eq_some, Option.some.injEq] at hstep
    obtain ⟨-, rfl⟩ := hstep
    refine Or.inl ⟨by simp [InTime], Or.inr ?_⟩
    cases ec with
    | true =>
      simp only [onHandshake, hopen.done]
      exact hopen.reported_finish (by decide)
    | false =>
      simp only [onHandshake, hopen.done]
      exact hopen.reported_finish (by decide)

/-- Once the flag is set a completion leaves the flag, the user and the calls as they are, and a
chain that has ended stays so. -/
theorem step_done (hdone : state.done = true) (hstep : step tls state completion = some next) :
    state.InTime completion ∧ next.done = true ∧ next.user = state.user ∧
      next.calls = state.calls ∧ (state.phase = .finished → next.phase = .finished) := by
  refine ⟨fun _ ↦ hdone, ?_⟩
  cases completion with
  | timer ec =>
    simp only [step, Option.ite_none_right_eq_some, Option.some.injEq] at hstep
    obtain ⟨-, rfl⟩ := hstep
    cases ec <;> simp [onTimer, hdone]
  | resolve ec =>
    simp only [step, Option.ite_none_right_eq_some, Option.some.injEq] at hstep
    obtain ⟨-, rfl⟩ := hstep
    simp [onResolve, hdone]
  | connect ec =>
    simp only [step, Option.ite_none_right_eq_some, Option.some.injEq] at hstep
    obtain ⟨-, rfl⟩ := hstep
    simp [onConnect, hdone]
  | handshake ec =>
    simp only [step, Option.ite_none_right_eq_some, Option.some.injEq] at hstep
    obtain ⟨-, rfl⟩ := hstep
    simp [onHandshake, hdone]

theorem Reported.moves (hreported : state.Reported)
    (hstep : step tls state completion = some next) :
    state.InTime completion ∧ next.Reported := by
  obtain ⟨hin, hdone, huser, hcalls, hphase⟩ := step_done hreported.done hstep
  obtain ⟨rc, honce, hrc⟩ := hreported.once
  exact ⟨hin, hdone, hphase hreported.phase, rc, hcalls.trans honce, huser ▸ hrc⟩

theorem Lost.moves (hlost : state.Lost) (hstep : step tls state completion = some next) :
    next.Lost := by
  obtain ⟨-, hdone, -, hcalls, -⟩ := step_done hlost.done hstep
  exact ⟨hdone, hcalls.trans hlost.calls⟩

/-! ### Runs -/

section Runs

variable {completions : List Completion} {final : AsyncConnect}

/-- A run from an open state ends open or with a report, or it contains a completion of the wait
that came in time and ends lost. -/
theorem run_cases (hopen : state.Open) (hrun : runFrom (step tls) state completions = some final) :
    (Along (step tls) InTime state completions ∧ (final.Open ∨ final.Reported)) ∨
      (¬Along (step tls) InTime state completions ∧ final.Lost) := by
  refine runFrom_along_or (fun state ↦ state.Open ∨ state.Reported) Lost ?_
    (fun _ _ _ hlost hnext ↦ hlost.moves hnext) (Or.inl hopen) hrun
  rintro state completion next (hopen | hreported) hnext
  · exact hopen.moves hnext
  · obtain ⟨hin, hreportedNext⟩ := hreported.moves hnext
    exact Or.inl ⟨hin, Or.inr hreportedNext⟩

/-- When all the completions have run, in whatever order and with whatever results, the handler was
called exactly once, with 0 exactly if the user was started, if and only if the wait did not
complete without an error while the flag was clear. -/
theorem reportsOnce_iff (hrun : runFrom (step tls) new completions = some final)
    (hquiet : final.Quiescent) :
    final.ReportsOnce ↔ Along (step tls) InTime new completions := by
  rcases run_cases open_new hrun with ⟨hall, hopen | hreported⟩ | ⟨hnot, hlost⟩
  · exact absurd hquiet.2 hopen.phase
  · exact iff_of_true hreported.once hall
  · refine iff_of_false ?_ hnot
    rintro ⟨rc, honce, -⟩
    rw [hlost.calls] at honce
    cases honce

/-- A handshake that fails, and the wait that is cancelled then. -/
theorem reportsOnce_iff_handshakeError :
    ReportsOnce ⟨true, false, .finished, .none, [-3]⟩ ↔
      Along (step true) InTime new
        [.resolve false, .connect false, .handshake true, .timer true] :=
  @reportsOnce_iff true _ _ rfl ⟨rfl, rfl⟩

/-- The timeout while the connect is under way: when all is over nobody has called the handler. -/
theorem calls_timeout :
    let final : AsyncConnect := ⟨true, false, .finished, .created, []⟩
    runFrom (step false) new [.resolve false, .timer false, .connect true] = some final ∧
      final.Quiescent ∧ ¬final.ReportsOnce :=
  ⟨rfl, ⟨rfl, rfl⟩, fun ⟨_, honce, _⟩ ↦ absurd honce (List.cons_ne_nil _ []).symm⟩

end Runs

end AsyncConnect

end TszyUlt.Zbf
