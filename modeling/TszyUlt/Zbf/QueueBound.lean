import TszyUlt.Zbf.AsyncClient

/-!
# How long the write queue gets

`zbf/socket_tcp_v5.hpp`: `post` of `tcpsock_user` and of `tcpsock_asynclt`, and `_SendData`. The
queue is meant to hold `MaxPendingMsg` messages at most. `post` refuses a message only when there
are more than that, and what `_SendData` puts back at the front is not counted at all.

`bounded_iff` is the exact condition on the steps of a run (`KeepsBound`): a post does not find just
`MaxPendingMsg` messages, and a message is put back among fewer. What holds of every run is a bound
that is larger by two (`length_le_of_run`): one for the post at the limit, and one for the message
that the I/O thread holds in the meantime.

Scope. As for the connection and the asynchronous client.
-/

set_option autoImplicit false
set_option relaxedAutoImplicit false

namespace TszyUlt.Zbf

open Lib

/-! ### What an operation does to the length -/

namespace WriteSide

/-- A post now is not refused. -/
def accepts (side : WriteSide) : Bool := side.wrQueue.length ≤ maxPendingMsg

/-- The I/O thread is about to put a message back. -/
def returns (side : WriteSide) : Bool :=
  match side.io with
  | .puttingBack _ => true
  | _ => false

/-- The documented bound. -/
def Bounded (side : WriteSide) : Prop := side.wrQueue.length ≤ maxPendingMsg

instance (side : WriteSide) : Decidable side.Bounded :=
  inferInstanceAs (Decidable (side.wrQueue.length ≤ maxPendingMsg))

/-- What an operation does to the queue: it adds a message or not, and what is still to be sent
grows by a post only, which finds at most `MaxPendingMsg` messages. -/
structure QueueStep (inserts : Bool) (side next : WriteSide) : Prop where
  length : if inserts then next.wrQueue.length = side.wrQueue.length + 1
    else next.wrQueue.length ≤ side.wrQueue.length
  waiting : next.waiting.length ≤ side.waiting.length ∨
    side.wrQueue.length ≤ maxPendingMsg ∧ next.waiting.length ≤ side.wrQueue.length + 2

variable {side next : WriteSide}

theorem queueStep_of_waiting (hqueue : next.wrQueue.length ≤ side.wrQueue.length)
    (hwaiting : next.waiting = side.waiting) : QueueStep false side next :=
  ⟨hqueue, Or.inl (by rw [hwaiting])⟩

/-- The I/O thread holds one message at most. -/
theorem length_waiting_le (side : WriteSide) : side.waiting.length ≤ side.wrQueue.length + 1 := by
  rw [waiting]
  split
  · exact le_rfl
  · exact le_rfl
  · exact Nat.le_succ _

theorem length_le_waiting (side : WriteSide) : side.wrQueue.length ≤ side.waiting.length := by
  rw [waiting]
  split
  · exact Nat.le_succ _
  · exact Nat.le_succ _
  · exact le_rfl

theorem queueStep_post (side : WriteSide) (msg : TcpMessage) :
    QueueStep side.accepts side (side.post msg).2 := by
  by_cases hfull : side.wrQueue.length > maxPendingMsg
  · have hrefused : side.post msg = (1, side) := if_pos hfull
    have haccepts : side.accepts = false := decide_eq_false (Nat.not_le.mpr hfull)
    rw [hrefused, haccepts]
    exact queueStep_of_waiting le_rfl rfl
  · have hroom := Nat.not_lt.mp hfull
    have haccepts : side.accepts = true := decide_eq_true hroom
    have hqueue : (side.post msg).2.wrQueue = side.wrQueue ++ [msg] := by
      rw [post, if_neg hfull]
      exact setEnableWrite_wrQueue _ true
    have hlength : (side.post msg).2.wrQueue.length = side.wrQueue.length + 1 := by
      rw [hqueue, List.length_append, List.length_singleton]
    rw [haccepts]
    refine ⟨hlength, Or.inr ⟨hroom, ?_⟩⟩
    have hheld := length_waiting_le (side.post msg).2
    omega

theorem queueStep_checkOpen {closed : Bool} (hcheck : side.checkOpen closed = some next) :
    QueueStep false side next := by
  refine queueStep_of_waiting ?_ (waiting_checkOpen hcheck)
  obtain ⟨-, ⟨-, rfl⟩ | ⟨-, rfl⟩⟩ := checkOpen_cases hcheck <;> exact le_rfl

theorem queueStep_takeFront (htake : side.takeFront = some next) : QueueStep false side next := by
  refine queueStep_of_waiting ?_ (waiting_takeFront htake)
  obtain ⟨-, ⟨-, rfl⟩ | ⟨msg, rest, hqueue, rfl⟩⟩ := takeFront_cases htake
  · exact le_rfl
  · rw [hqueue]
    exact Nat.le_succ _

/-- What the socket takes of a message leaves at most this message. -/
theorem queueStep_send {result : SendResult} (hsend : side.send result = some next) :
    QueueStep false side next := by
  obtain ⟨msg, hio, -, rfl⟩ := send_cases hsend
  refine ⟨le_rfl, Or.inl ?_⟩
  have hwaiting : side.waiting = msg :: side.wrQueue := by rw [waiting, hio]
  have hheld := length_waiting_le { side with io := afterSend msg result }
  rw [hwaiting]
  exact hheld

theorem queueStep_putBack (hput : side.putBack = some next) : QueueStep side.returns side next := by
  have hwaiting := waiting_putBack hput
  obtain ⟨msg, hio, rfl⟩ := putBack_cases hput
  have hreturns : side.returns = true := by rw [returns, hio]
  rw [hreturns]
  exact ⟨rfl, Or.inl (by rw [hwaiting])⟩

theorem exists_putBack (hreturns : side.returns = true) : ∃ next, side.putBack = some next := by
  unfold returns at hreturns
  split at hreturns
  · rename_i msg hio
    exact ⟨_, by rw [putBack, hio]⟩
  · cases hreturns

theorem queueStep_confirmEmpty (hconfirm : side.confirmEmpty = some next) :
    QueueStep false side next := by
  refine queueStep_of_waiting ?_ (waiting_confirmEmpty hconfirm)
  obtain ⟨-, -, hqueue, -⟩ := confirmEmpty_cases hconfirm
  rw [hqueue]

/-- The I/O thread is set to the beginning, and lets go of the message that it holds. -/
theorem queueStep_reset {enable joined pollWrite : Bool} :
    QueueStep false side { side with
      enableWrite := enable, joined := joined, pollWrite := pollWrite, io := .idle } :=
  ⟨le_rfl, Or.inl side.length_le_waiting⟩

theorem queueStep_same (hqueue : next.wrQueue = side.wrQueue) (hio : next.io = side.io) :
    QueueStep false side next :=
  queueStep_of_waiting (congrArg List.length hqueue).le (waiting_congr hio hqueue)

/-- The bound that is larger by two. -/
theorem QueueStep.waiting_le {inserts : Bool} (hmoves : QueueStep inserts side next)
    (hwaiting : side.waiting.length ≤ maxPendingMsg + 2) :
    next.waiting.length ≤ maxPendingMsg + 2 := by
  rcases hmoves.waiting with hless | ⟨hroom, hmore⟩
  · exact hless.trans hwaiting
  · exact hmore.trans (Nat.add_le_add_right hroom 2)

/-- A step keeps the documented bound exactly if it does not insert at the bound. -/
theorem QueueStep.bounded_next_iff {inserts : Bool} (hmoves : QueueStep inserts side next)
    (hbounded : side.Bounded) :
    next.Bounded ↔ (inserts = true → side.wrQueue.length < maxPendingMsg) := by
  have hlength := hmoves.length
  unfold Bounded at hbounded ⊢
  cases inserts with
  | true =>
    rw [if_pos rfl] at hlength
    rw [hlength]
    exact ⟨fun hle _ ↦ hle, fun hlt ↦ hlt rfl⟩
  | false =>
    rw [if_neg Bool.false_ne_true] at hlength
    exact iff_of_true (hlength.trans hbounded) fun hfalse ↦ by cases hfalse

end WriteSide

/-! ### The connection of a user -/

/-- The action puts a message into the queue. -/
def ConnectionAction.inserts (side : WriteSide) : ConnectionAction → Bool
  | .post _ => side.accepts
  | .putBack => side.returns
  | _ => false

namespace Connection

/-- The action does not put a message into a queue that has `MaxPendingMsg` messages. -/
def KeepsBound (connection : Connection) (action : ConnectionAction) : Prop :=
  action.inserts connection.write = true → connection.write.wrQueue.length < maxPendingMsg

theorem queueStep_of_step {connection next : Connection} {action : ConnectionAction}
    (hstep : connection.step action = some next) :
    WriteSide.QueueStep (action.inserts connection.write) connection.write next.write := by
  cases action with
  | post msg =>
    cases hstep
    exact WriteSide.queueStep_post connection.write msg
  | joinMonitor =>
    cases hstep
    exact WriteSide.queueStep_same (WriteSide.joinMonitor_wrQueue _) (WriteSide.joinMonitor_io _)
  | leaveMonitor =>
    cases hstep
    exact WriteSide.queueStep_same rfl rfl
  | setClose =>
    cases hstep
    exact WriteSide.queueStep_same rfl rfl
  | checkOpen =>
    obtain ⟨side, hside, rfl⟩ := Option.map_eq_some_iff.mp hstep
    exact WriteSide.queueStep_checkOpen hside
  | takeFront =>
    obtain ⟨side, hside, rfl⟩ := Option.map_eq_some_iff.mp hstep
    exact WriteSide.queueStep_takeFront hside
  | send result =>
    obtain ⟨side, hside, rfl⟩ := Option.map_eq_some_iff.mp hstep
    exact WriteSide.queueStep_send hside
  | putBack =>
    obtain ⟨side, hside, rfl⟩ := Option.map_eq_some_iff.mp hstep
    exact WriteSide.queueStep_putBack hside
  | confirmEmpty =>
    obtain ⟨side, hside, rfl⟩ := Option.map_eq_some_iff.mp hstep
    exact WriteSide.queueStep_confirmEmpty hside
  | onIOError =>
    simp only [step] at hstep
    split_ifs at hstep
    cases hstep
    exact WriteSide.queueStep_reset

/-- An action that puts a message into the queue can happen. -/
theorem exists_step_of_inserts {connection : Connection} {action : ConnectionAction}
    (hinserts : action.inserts connection.write = true) :
    ∃ next, connection.step action = some next := by
  cases action with
  | post msg => exact ⟨_, rfl⟩
  | putBack =>
    obtain ⟨side, hside⟩ := WriteSide.exists_putBack hinserts
    exact ⟨_, by rw [step, hside, Option.map_some]⟩
  | _ => cases hinserts

end Connection

/-! ### The asynchronous client -/

/-- The action puts a message into the queue. -/
def ClientAction.inserts (side : WriteSide) : ClientAction → Bool
  | .post _ => side.accepts
  | .putBack => side.returns
  | _ => false

namespace AsyncClient

variable {alloc : Allocator} {protocol : TcpMessageProtocol} {fuel : ℕ}
  {client next : AsyncClient} {action : ClientAction}

/-- The action does not put a message into a queue that has `MaxPendingMsg` messages. -/
def KeepsBound (client : AsyncClient) (action : ClientAction) : Prop :=
  action.inserts client.write = true → client.write.wrQueue.length < maxPendingMsg

theorem queueStep_of_step (hstep : client.step alloc protocol fuel action = some next) :
    WriteSide.QueueStep (action.inserts client.write) client.write next.write := by
  cases action with
  | post msg =>
    cases hstep
    exact WriteSide.queueStep_post client.write msg
  | connect success =>
    simp only [step] at hstep
    split_ifs at hstep
    · cases hstep
      exact WriteSide.queueStep_same rfl rfl
    · cases hstep
      exact WriteSide.queueStep_same rfl rfl
  | addMonitored =>
    simp only [step] at hstep
    split_ifs at hstep
    cases hstep
    exact WriteSide.queueStep_same (WriteSide.joinMonitor_wrQueue _) (WriteSide.joinMonitor_io _)
  | read chunk =>
    simp only [step] at hstep
    split_ifs at hstep
    obtain ⟨outcome, -, rfl⟩ := Option.map_eq_some_iff.mp hstep
    split_ifs
    · exact WriteSide.queueStep_same rfl rfl
    · exact WriteSide.queueStep_reset
  | ioError =>
    simp only [step] at hstep
    split_ifs at hstep
    cases hstep
    exact WriteSide.queueStep_reset
  | checkOpen =>
    simp only [step] at hstep
    split_ifs at hstep
    obtain ⟨side, hside, rfl⟩ := Option.map_eq_some_iff.mp hstep
    exact WriteSide.queueStep_checkOpen hside
  | takeFront =>
    obtain ⟨side, hside, rfl⟩ := Option.map_eq_some_iff.mp hstep
    exact WriteSide.queueStep_takeFront hside
  | send result =>
    obtain ⟨side, hside, rfl⟩ := Option.map_eq_some_iff.mp hstep
    exact WriteSide.queueStep_send hside
  | putBack =>
    obtain ⟨side, hside, rfl⟩ := Option.map_eq_some_iff.mp hstep
    exact WriteSide.queueStep_putBack hside
  | confirmEmpty =>
    obtain ⟨side, hside, rfl⟩ := Option.map_eq_some_iff.mp hstep
    exact WriteSide.queueStep_confirmEmpty hside
  | sendFailed =>
    simp only [step] at hstep
    split_ifs at hstep
    cases hstep
    exact WriteSide.queueStep_reset

/-- An action that puts a message into the queue can happen. -/
theorem exists_step_of_inserts (hinserts : action.inserts client.write = true) :
    ∃ next, client.step alloc protocol fuel action = some next := by
  cases action with
  | post msg => exact ⟨_, rfl⟩
  | putBack =>
    obtain ⟨side, hside⟩ := WriteSide.exists_putBack hinserts
    exact ⟨_, by rw [step, hside, Option.map_some]⟩
  | _ => cases hinserts

end AsyncClient

/-! ### Every run -/

section Runs

variable {S A : Type*} {step : S → A → Option S} (write : S → WriteSide) (inserts : S → A → Bool)

/-- Assumes: steps that move the queue of a write side, where an insertion can always happen. The
queue is within the documented bound all along a run exactly if no step inserts at the bound. -/
theorem bounded_iff_along
    (hmoves : ∀ state action next, step state action = some next →
      WriteSide.QueueStep (inserts state action) (write state) (write next))
    (hinserts : ∀ state action, inserts state action = true → ∃ next, step state action = some next)
    {start : S} (hstart : (write start).Bounded) (actions : List A) :
    (∀ first, first <+: actions → ∀ final, runFrom step start first = some final →
      (write final).Bounded) ↔
    Along step (fun state action ↦ inserts state action = true →
      (write state).wrQueue.length < maxPendingMsg) start actions := by
  refine forall_prefix_iff_along (fun state ↦ (write state).Bounded) ?_ ?_ hstart
  · intro state action _ next hbounded hcondition hstep
    exact ((hmoves state action next hstep).bounded_next_iff hbounded).mpr hcondition
  · intro state action _ hbounded hfails
    rw [Classical.not_imp] at hfails
    obtain ⟨next, hstep⟩ := hinserts state action hfails.1
    refine ⟨next, hstep, fun hnext ↦ hfails.2 ?_⟩
    exact ((hmoves state action next hstep).bounded_next_iff hbounded).mp hnext hfails.1

/-- Assumes: steps that move the queue of a write side. The queue stays within the bound that is
larger by two. -/
theorem length_le_of_moves
    (hmoves : ∀ state action next, step state action = some next →
      WriteSide.QueueStep (inserts state action) (write state) (write next))
    {start final : S} (hstart : (write start).waiting.length ≤ maxPendingMsg + 2) {actions : List A}
    (hrun : runFrom step start actions = some final) :
    (write final).wrQueue.length ≤ maxPendingMsg + 2 := by
  have hwaiting := runFrom_invariant (fun state ↦ (write state).waiting.length ≤ maxPendingMsg + 2)
    (fun state action next hstate hstep ↦ (hmoves state action next hstep).waiting_le hstate)
    hstart hrun
  exact (write final).length_le_waiting.trans hwaiting

end Runs

/-- The write queue of a `tcpsock_user` holds at most `MaxPendingMsg` messages all along a run
exactly if no post and no message that is put back finds just as many; and so for a
`tcpsock_asynclt`. -/
theorem bounded_iff (actions : List ConnectionAction) (alloc : Allocator)
    (protocol : TcpMessageProtocol) (fuel : ℕ) (clientActions : List ClientAction) :
    ((∀ first, first <+: actions → ∀ connection,
        runFrom Connection.step .new first = some connection → connection.write.Bounded) ↔
      Along Connection.step Connection.KeepsBound .new actions) ∧
    ((∀ first, first <+: clientActions → ∀ client,
        runFrom (AsyncClient.step alloc protocol fuel) (.new alloc) first = some client →
          client.write.Bounded) ↔
      Along (AsyncClient.step alloc protocol fuel) AsyncClient.KeepsBound (.new alloc)
        clientActions) :=
  ⟨bounded_iff_along Connection.write (fun connection action ↦ action.inserts connection.write)
      (fun _ _ _ hstep ↦ Connection.queueStep_of_step hstep)
      (fun _ _ hinserts ↦ Connection.exists_step_of_inserts hinserts) (Nat.zero_le _) actions,
    bounded_iff_along AsyncClient.write (fun client action ↦ action.inserts client.write)
      (fun _ _ _ hstep ↦ AsyncClient.queueStep_of_step hstep)
      (fun _ _ hinserts ↦ AsyncClient.exists_step_of_inserts hinserts) (Nat.zero_le _)
      clientActions⟩

/-- In every run, the write queues of a `tcpsock_user` and of a `tcpsock_asynclt` hold at most two
messages more. -/
theorem length_le_of_run {alloc : Allocator} {protocol : TcpMessageProtocol} {fuel : ℕ} :
    (∀ (actions : List ConnectionAction) (connection : Connection),
      runFrom Connection.step .new actions = some connection →
        connection.write.wrQueue.length ≤ maxPendingMsg + 2) ∧
    ∀ (actions : List ClientAction) (client : AsyncClient),
      runFrom (AsyncClient.step alloc protocol fuel) (.new alloc) actions = some client →
        client.write.wrQueue.length ≤ maxPendingMsg + 2 :=
  ⟨fun _ _ hrun ↦ length_le_of_moves Connection.write
      (fun connection action ↦ action.inserts connection.write)
      (fun _ _ _ hstep ↦ Connection.queueStep_of_step hstep) (Nat.zero_le _) hrun,
    fun _ _ hrun ↦ length_le_of_moves AsyncClient.write
      (fun client action ↦ action.inserts client.write)
      (fun _ _ _ hstep ↦ AsyncClient.queueStep_of_step hstep) (Nat.zero_le _) hrun⟩

/-- Assumes: at most one post more than the bound has room for. All of them are accepted. -/
theorem exists_run_posts (msg : TcpMessage) {count : ℕ} (hcount : count ≤ maxPendingMsg + 1) :
    ∃ connection, runFrom Connection.step .new (List.replicate count (.post msg)) =
      some connection ∧ connection.write.wrQueue.length = count := by
  induction count with
  | zero => exact ⟨.new, rfl, rfl⟩
  | succ count ih =>
    obtain ⟨connection, hrun, hlength⟩ := ih (Nat.le_of_succ_le hcount)
    have hinserts : (ConnectionAction.post msg).inserts connection.write = true :=
      decide_eq_true (hlength ▸ Nat.le_of_succ_le_succ hcount)
    obtain ⟨next, hstep⟩ := Connection.exists_step_of_inserts hinserts
    refine ⟨next, ?_, ?_⟩
    · rw [List.replicate_succ', runFrom_append, hrun, Option.bind_some]
      exact runFrom_cons_of_step hstep []
    · have hmore := (Connection.queueStep_of_step hstep).length
      rwa [if_pos hinserts, hlength] at hmore

/-- One more message than the bound is posted before the I/O thread takes the first. -/
theorem not_bounded_posts :
    ¬∀ (actions : List ConnectionAction) (connection : Connection),
      runFrom Connection.step .new actions = some connection → connection.write.Bounded := by
  intro hall
  obtain ⟨connection, hrun, hlength⟩ := exists_run_posts ⟨[]⟩ (le_refl (maxPendingMsg + 1))
  have hbounded := hall _ connection hrun
  rw [WriteSide.Bounded, hlength] at hbounded
  exact absurd hbounded (Nat.not_succ_le_self maxPendingMsg)

end TszyUlt.Zbf
