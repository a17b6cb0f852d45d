import TszyUlt.Zbf.Transport

/-!
# Everything posted arrives

`zbf/socket_tcp_v5.hpp`: `enableWrite`, `sendData` and `_SendData` at one end of a connection, and
the read branch of the event loop at the other, when nobody posts any more. `drained` says of a
connection (`Transport`) on which nothing fails how it comes to rest. The sender's thread looks at
its queue only when the poll reports a write event, and the socket takes some bytes whenever it is
asked. The steps that the two I/O threads can then make, in whatever order, are bounded by the work
that is left (`work`); and where none of them can happen, every accepted message has been received
and write events are turned off.

What it rests on is `Armed`: as long as something is to be sent, in the queue or in the hands of the
I/O thread, write events are registered. A thread that finds the queue empty looks at it once more
under the lock before it turns them off.

Scope. The socket is never full for good and no call fails; the connection joins the poll once,
before anything is posted, as `WriteInterest` treats the other cases.
-/

set_option autoImplicit false
set_option relaxedAutoImplicit false

namespace TszyUlt.Zbf

open Lib

variable {protocol : TcpMessageProtocol}

/-! ### The steps that bring the bytes forward -/

/-- Nothing that ends a connection happens, and it joins the poll only once, before. -/
def TransportAction.Undisturbed : TransportAction → Bool
  | .sender .joinMonitor | .sender .leaveMonitor | .sender .setClose | .sender .onIOError => false
  | .sender (.send .failed) => false
  | .close => false
  | _ => true

namespace Transport

variable {hprotocol : protocol.Framable} {alloc : Allocator}

/-- A step of one of the two I/O threads that brings the bytes forward: the sender looks at its
queue when the poll reports a write event, the socket takes some bytes when it is asked, and the
receiver reads. -/
def Progress (transport : Transport) : TransportAction → Bool
  | .sender .checkOpen => transport.sender.write.pollWrite
  | .sender .takeFront | .sender .putBack | .sender .confirmEmpty => true
  | .sender (.send (.sent _)) => true
  | .recv _ => true
  | _ => false

/-- The steps of the two ends when nobody posts and no call fails. -/
def drainStep (alloc : Allocator) (protocol : TcpMessageProtocol) (transport : Transport)
    (action : TransportAction) : Option Transport :=
  if transport.Progress action then transport.step alloc protocol action else none

/-- The steps that are left to be made by the thread of the sender until it looks at its queue
again. -/
def stage (side : WriteSide) : ℕ :=
  match side.io with
  | .idle => if side.pollWrite then 3 else 0
  | .opened => 2
  | .foundEmpty => if side.wrQueue = [] then 1 else 4
  | .sending _ => 1
  | .puttingBack _ => 4
  | .sendFailed => 0

/-- A bound of the steps that are left: five for each byte that is to be sent, one for each byte on
its way, and those of the sender's thread. -/
def work (transport : Transport) : ℕ :=
  5 * transport.sender.write.unsent.length + transport.inFlight.length +
    stage transport.sender.write

/-- A connection whose sender has joined the poll. -/
def joined (alloc : Allocator) : Transport :=
  { new alloc with sender := { Connection.new with write := WriteSide.new.joinMonitor } }

/-! ### The sender's thread -/

/-- The write side of an undisturbed connection: what is to be sent is not empty and has a write
event pending. -/
structure Armed (side : WriteSide) : Prop where
  fdOpen : side.fdOpen = true
  joined : side.joined = true
  pollWrite_eq : side.pollWrite = side.enableWrite
  armed : side.waiting ≠ [] → side.enableWrite = true
  ne_sendFailed : side.io ≠ .sendFailed
  ne_nil : ∀ msg ∈ side.waiting, msg.data ≠ []

theorem armed_joined : Armed WriteSide.new.joinMonitor where
  fdOpen := rfl
  joined := rfl
  pollWrite_eq := rfl
  armed := fun hne ↦ absurd rfl hne
  ne_sendFailed := fun h ↦ by cases h
  ne_nil := fun _ hmsg ↦ absurd hmsg List.not_mem_nil

section Armed

variable {side next : WriteSide}

/-- On a joined connection `enableWrite` sets the flag and the registration. -/
theorem setEnableWrite_eq (side : WriteSide) (hfd : side.fdOpen = true)
    (hjoined : side.joined = true) (hpoll : side.pollWrite = side.enableWrite) (enable : Bool) :
    side.setEnableWrite enable = { side with enableWrite := enable, pollWrite := enable } := by
  have hmember : ¬(side.fdOpen = false ∨ side.joined = false) := by simp [hfd, hjoined]
  rw [WriteSide.setEnableWrite, if_neg hmember]
  split_ifs with hflag
  · rfl
  · have hkept : side.enableWrite = enable := by simpa using hflag
    rw [← hkept]
    exact congrArg (fun poll ↦ { side with pollWrite := poll }) hpoll

/-- A step of the thread that leaves what is to be sent as it is. -/
theorem Armed.of_waiting_eq (harmed : Armed side) {io : IoThread} {wrQueue : List TcpMessage}
    (hio : io ≠ .sendFailed)
    (hwaiting : { side with wrQueue := wrQueue, io := io }.waiting = side.waiting) :
    Armed { side with wrQueue := wrQueue, io := io } where
  fdOpen := harmed.fdOpen
  joined := harmed.joined
  pollWrite_eq := harmed.pollWrite_eq
  armed := fun hne ↦ harmed.armed (hwaiting ▸ hne)
  ne_sendFailed := hio
  ne_nil := fun msg hmsg ↦ harmed.ne_nil msg (hwaiting ▸ hmsg)

theorem Armed.post (harmed : Armed side) {msg : TcpMessage} (hmsg : msg.data ≠ []) :
    Armed (side.post msg).2 := by
  have hwaiting := WriteSide.waiting_post side msg
  unfold WriteSide.post at hwaiting ⊢
  split_ifs with hfull
  · exact harmed
  · rw [if_neg hfull, if_pos rfl] at hwaiting
    have hset : { side with wrQueue := side.wrQueue ++ [msg] }.setEnableWrite true =
        { side with
          enableWrite := true, pollWrite := true, wrQueue := side.wrQueue ++ [msg] } :=
      setEnableWrite_eq { side with wrQueue := side.wrQueue ++ [msg] } harmed.fdOpen harmed.joined
        harmed.pollWrite_eq true
    rw [hset] at hwaiting ⊢
    refine ⟨harmed.fdOpen, harmed.joined, rfl, fun _ ↦ rfl, harmed.ne_sendFailed, ?_⟩
    intro other hother
    rw [hwaiting, List.mem_append, List.mem_singleton] at hother
    rcases hother with hmem | rfl
    · exact harmed.ne_nil other hmem
    · exact hmsg

theorem Armed.checkOpen (harmed : Armed side) (hcheck : side.checkOpen false = some next) :
    Armed next ∧ side.io = .idle ∧ next = { side with io := .opened } := by
  have hwaiting := WriteSide.waiting_checkOpen hcheck
  obtain ⟨hio, ⟨hclosed, -⟩ | ⟨-, rfl⟩⟩ := WriteSide.checkOpen_cases hcheck
  · cases hclosed
  · exact ⟨harmed.of_waiting_eq (fun h ↦ by cases h) hwaiting, hio, rfl⟩

theorem Armed.takeFront (harmed : Armed side) (htake : side.takeFront = some next) :
    Armed next := by
  have hwaiting := WriteSide.waiting_takeFront htake
  obtain ⟨-, ⟨-, rfl⟩ | ⟨msg, rest, -, rfl⟩⟩ := WriteSide.takeFront_cases htake
  · exact harmed.of_waiting_eq (fun h ↦ by cases h) hwaiting
  · exact harmed.of_waiting_eq (fun h ↦ by cases h) hwaiting

theorem Armed.putBack (harmed : Armed side) (hput : side.putBack = some next) : Armed next := by
  have hwaiting := WriteSide.waiting_putBack hput
  obtain ⟨msg, -, rfl⟩ := WriteSide.putBack_cases hput
  exact harmed.of_waiting_eq (fun h ↦ by cases h) hwaiting

theorem Armed.confirmEmpty (harmed : Armed side) (hconfirm : side.confirmEmpty = some next) :
    Armed next ∧ (side.wrQueue = [] → next.pollWrite = false) := by
  have hwaiting := WriteSide.waiting_confirmEmpty hconfirm
  have hio := (WriteSide.confirmEmpty_cases hconfirm).1
  simp only [WriteSide.confirmEmpty, hio, Option.some.injEq] at hconfirm
  by_cases hempty : side.wrQueue = []
  · have hnone : side.waiting = [] := by rw [WriteSide.waiting, hio, hempty]
    rw [if_pos hempty,
      setEnableWrite_eq side harmed.fdOpen harmed.joined harmed.pollWrite_eq] at hconfirm
    subst hconfirm
    rw [hnone] at hwaiting
    refine ⟨⟨harmed.fdOpen, harmed.joined, rfl, fun hne ↦ absurd hwaiting hne, (fun h ↦ by cases h), ?_⟩,
      fun _ ↦ rfl⟩
    intro msg hmsg
    rw [hwaiting] at hmsg
    cases hmsg
  · rw [if_neg hempty] at hconfirm
    subst hconfirm
    exact ⟨harmed.of_waiting_eq (fun h ↦ by cases h) hwaiting, fun hnil ↦ absurd hnil hempty⟩

/-- What is left of a message that the socket took in part is not empty. -/
theorem Armed.send (harmed : Armed side) {result : SendResult}
    (hsend : side.send result = some next) (hresult : result ≠ .failed)
    (hshort : ∀ msg ∈ side.waiting, msg.data.length < 2 ^ 31) : Armed next := by
  obtain ⟨msg, hio, -, rfl⟩ := WriteSide.send_cases hsend
  have hwaiting : side.waiting = msg :: side.wrQueue := by rw [WriteSide.waiting, hio]
  have hflag : side.enableWrite = true :=
    harmed.armed (by rw [hwaiting]; exact List.cons_ne_nil _ _)
  have hqueue : ∀ other ∈ side.wrQueue, other.data ≠ [] := fun other hother ↦
    harmed.ne_nil other (hwaiting ▸ List.mem_cons_of_mem _ hother)
  have hmsg : msg ∈ side.waiting := hwaiting ▸ List.mem_cons_self
  cases result with
  | failed => exact absurd rfl hresult
  | wouldBlock =>
    exact harmed.of_waiting_eq (fun h ↦ by cases h) hwaiting.symm
  | sent count =>
    rw [WriteSide.afterSend, asInt32_of_lt (hshort msg hmsg)]
    split_ifs with hpart
    · refine ⟨harmed.fdOpen, harmed.joined, harmed.pollWrite_eq, fun _ ↦ hflag, (fun h ↦ by cases h), ?_⟩
      refine List.forall_mem_cons.mpr ⟨?_, hqueue⟩
      rw [← List.length_pos_iff, List.length_drop]
      omega
    · exact ⟨harmed.fdOpen, harmed.joined, harmed.pollWrite_eq, fun _ ↦ hflag, (fun h ↦ by cases h), hqueue⟩

end Armed

/-- An undisturbed connection. -/
structure Live (hprotocol : protocol.Framable) (transport : Transport) : Prop where
  sender : SenderOk hprotocol transport.sender
  stream : transport.StreamOk
  receiver_open : transport.receiver.closed = false
  not_failed : transport.sender.failed = false
  not_closed : transport.sender.closed = false
  armed : Armed transport.sender.write

theorem live_joined (alloc : Allocator) (hprotocol : protocol.Framable) :
    Live hprotocol (joined alloc) where
  sender :=
    ⟨rfl, fun _ hmsg ↦ absurd hmsg List.not_mem_nil, fun _ hmsg ↦ absurd hmsg List.not_mem_nil⟩
  stream := ⟨[], [], rfl, RecvSide.open_new alloc, rfl, rfl⟩
  receiver_open := rfl
  not_failed := rfl
  not_closed := rfl
  armed := armed_joined

/-- A step of the sender of an undisturbed connection. -/
theorem Live.senderStep {transport : Transport} (hlive : Live hprotocol transport)
    {action : ConnectionAction} (hundisturbed : TransportAction.Undisturbed (.sender action))
    (hposts : ∀ msg, action = .post msg → hprotocol.Fits msg) {next : Connection}
    (hstep : transport.sender.step action = some next) :
    Armed next.write ∧ next.failed = false ∧ next.closed = false := by
  cases action with
  | post msg =>
    cases hstep
    have hpos := (hposts msg rfl).length_pos
    exact ⟨hlive.armed.post (List.length_pos_iff.mp hpos), hlive.not_failed, hlive.not_closed⟩
  | checkOpen =>
    obtain ⟨side, hside, rfl⟩ := Option.map_eq_some_iff.mp hstep
    rw [hlive.not_closed] at hside
    exact ⟨(hlive.armed.checkOpen hside).1, hlive.not_failed, hlive.not_closed⟩
  | takeFront =>
    obtain ⟨side, hside, rfl⟩ := Option.map_eq_some_iff.mp hstep
    exact ⟨hlive.armed.takeFront hside, hlive.not_failed, hlive.not_closed⟩
  | send result =>
    obtain ⟨side, hside, rfl⟩ := Option.map_eq_some_iff.mp hstep
    have hresult : result ≠ .failed := by
      rintro rfl
      cases hundisturbed
    refine ⟨hlive.armed.send hside hresult hlive.sender.waiting_lt, ?_, hlive.not_closed⟩
    rw [hlive.not_failed, Bool.false_or]
    exact beq_eq_false_iff_ne.mpr hresult
  | putBack =>
    obtain ⟨side, hside, rfl⟩ := Option.map_eq_some_iff.mp hstep
    exact ⟨hlive.armed.putBack hside, hlive.not_failed, hlive.not_closed⟩
  | confirmEmpty =>
    obtain ⟨side, hside, rfl⟩ := Option.map_eq_some_iff.mp hstep
    exact ⟨(hlive.armed.confirmEmpty hside).1, hlive.not_failed, hlive.not_closed⟩
  | joinMonitor | leaveMonitor | setClose | onIOError => cases hundisturbed

/-- An undisturbed connection stays so. -/
theorem Live.step {transport next : Transport} {action : TransportAction}
    (hlive : Live hprotocol transport) (hundisturbed : action.Undisturbed)
    (hposts : action.PostsFrames hprotocol transport)
    (hstep : transport.step alloc protocol action = some next) : Live hprotocol next := by
  cases action with
  | sender action =>
    obtain ⟨sender, hsender, rfl⟩ := Option.map_eq_some_iff.mp hstep
    have hposted : ∀ msg, action = .post msg → hprotocol.Fits msg := by
      rintro msg rfl
      exact hposts
    obtain ⟨harmed, hfailed, hclosed⟩ := hlive.senderStep hundisturbed hposted hsender
    exact ⟨hlive.sender.step hposted hsender, hlive.stream.sender hposted hsender,
      hlive.receiver_open, hfailed, hclosed, harmed⟩
  | recv len =>
    simp only [Transport.step] at hstep
    split_ifs at hstep with hlen
    obtain ⟨msgs, rest, side, hread, hopen, -, hstream⟩ :=
      hlive.stream.recv hlive.sender hlen.1 hlen.2.1 hlen.2.2 alloc
    rw [hread] at hstep
    cases hstep
    exact ⟨hlive.sender, hstream, hopen, hlive.not_failed, hlive.not_closed, hlive.armed⟩
  | close => cases hundisturbed

/-! ### The work that is left -/

theorem stage_le (side : WriteSide) : stage side ≤ 4 := by
  unfold stage
  split
  all_goals try split_ifs
  all_goals omega

theorem stage_idle_le {side : WriteSide} (hio : side.io = .idle) : stage side ≤ 3 := by
  simp only [stage, hio]
  split_ifs <;> omega

/-- A step of the sender's thread that sends nothing leaves less of it to do. -/
theorem stage_lt {side next : WriteSide} (harmed : Armed side)
    (hstep : side.pollWrite = true ∧ side.checkOpen false = some next ∨
      side.takeFront = some next ∨ side.putBack = some next ∨ side.confirmEmpty = some next) :
    next.unsent = side.unsent ∧ stage next < stage side := by
  have hunsent : next.waiting = side.waiting → next.unsent = side.unsent :=
    congrArg fun msgs : List TcpMessage ↦ (msgs.map TcpMessage.data).flatten
  rcases hstep with ⟨hpoll, hcheck⟩ | htake | hput | hconfirm
  · obtain ⟨-, hio, rfl⟩ := harmed.checkOpen hcheck
    refine ⟨hunsent (WriteSide.waiting_checkOpen hcheck), ?_⟩
    rw [stage, stage, hio, if_pos hpoll]
    exact Nat.lt_succ_self 2
  · refine ⟨hunsent (WriteSide.waiting_takeFront htake), ?_⟩
    obtain ⟨hio, ⟨hempty, rfl⟩ | ⟨msg, rest, -, rfl⟩⟩ := WriteSide.takeFront_cases htake
    · rw [stage, stage, hio, if_pos hempty]
      exact Nat.lt_succ_self 1
    · rw [stage, stage, hio]
      exact Nat.lt_succ_self 1
  · refine ⟨hunsent (WriteSide.waiting_putBack hput), ?_⟩
    obtain ⟨msg, hio, rfl⟩ := WriteSide.putBack_cases hput
    refine lt_of_le_of_lt (stage_idle_le rfl) ?_
    rw [stage, hio]
    exact Nat.lt_succ_self 3
  · refine ⟨hunsent (WriteSide.waiting_confirmEmpty hconfirm), ?_⟩
    obtain ⟨hio, hidle, -, -⟩ := WriteSide.confirmEmpty_cases hconfirm
    by_cases hempty : side.wrQueue = []
    · have hpoll := (harmed.confirmEmpty hconfirm).2 hempty
      rw [stage, stage, hio, hidle, if_pos hempty, hpoll]
      exact Nat.zero_lt_one
    · refine lt_of_le_of_lt (stage_idle_le hidle) ?_
      rw [stage, hio, if_neg hempty]
      exact Nat.lt_succ_self 3

/-- When the socket takes some bytes, there are less to be sent by as many. -/
theorem work_lt_send {side next : WriteSide} {count : ℕ}
    (hsend : side.send (.sent count) = some next)
    (hshort : ∀ msg ∈ side.waiting, msg.data.length < 2 ^ 31) :
    5 * next.unsent.length + (side.taken (.sent count)).length + stage next <
      5 * side.unsent.length + stage side := by
  obtain ⟨msg, hio, ⟨hpos, -, hle, -⟩, -⟩ := WriteSide.send_cases hsend
  have hmsg : msg ∈ side.waiting := by
    rw [WriteSide.waiting, hio]
    exact List.mem_cons_self
  have hbytes : side.taken (.sent count) ++ next.unsent = side.unsent := by
    refine WriteSide.taken_append_unsent_send hsend (fun h ↦ by cases h) fun _ other _ hother ↦ ?_
    rw [hio] at hother
    cases hother
    exact hshort msg hmsg
  have htaken : (side.taken (.sent count)).length = count := by
    rw [WriteSide.taken, WriteSide.held, hio]
    exact List.length_take_of_le hle
  have hnow : stage side = 1 := by rw [stage, hio]
  have hthen := stage_le next
  rw [← hbytes, List.length_append]
  omega

/-- A step that brings the bytes forward is undisturbed and posts nothing. -/
theorem drainStep_eq_some {transport next : Transport} {action : TransportAction}
    (hprotocol : protocol.Framable)
    (hstep : transport.drainStep alloc protocol action = some next) :
    transport.Progress action ∧ action.Undisturbed ∧ action.PostsFrames hprotocol transport ∧
      transport.step alloc protocol action = some next := by
  unfold drainStep at hstep
  split_ifs at hstep with hprogress
  have hquiet : action.Undisturbed ∧ action.PostsFrames hprotocol transport := by
    unfold Progress at hprogress
    split at hprogress
    all_goals first | exact ⟨rfl, trivial⟩ | cases hprogress
  exact ⟨hprogress, hquiet.1, hquiet.2, hstep⟩

/-- Every step that brings the bytes forward leaves less work. -/
theorem Live.work_lt {transport next : Transport} {action : TransportAction}
    (hlive : Live hprotocol transport)
    (hstep : transport.drainStep alloc protocol action = some next) :
    next.work < transport.work ∧ next.sender.accepted = transport.sender.accepted := by
  obtain ⟨hprogress, -, -, hstep⟩ := drainStep_eq_some hprotocol hstep
  cases action with
  | sender action =>
    obtain ⟨sender, hsender, rfl⟩ := Option.map_eq_some_iff.mp hstep
    have hquiet : ∀ {side : WriteSide}, action.toWire transport.sender = [] →
        sender.write = side →
        (side.unsent = transport.sender.write.unsent ∧
          stage side < stage transport.sender.write) →
        work ⟨sender, transport.inFlight ++ action.toWire transport.sender, transport.receiver,
          transport.received⟩ < transport.work := by
      rintro side hwire rfl ⟨hunsent, hstage⟩
      rw [work, work, hwire, List.append_nil, hunsent]
      exact Nat.add_lt_add_left hstage _
    cases action with
    | checkOpen =>
      obtain ⟨side, hside, rfl⟩ := Option.map_eq_some_iff.mp hsender
      rw [hlive.not_closed] at hside
      exact ⟨hquiet rfl rfl (stage_lt hlive.armed (.inl ⟨hprogress, hside⟩)), rfl⟩
    | takeFront =>
      obtain ⟨side, hside, rfl⟩ := Option.map_eq_some_iff.mp hsender
      exact ⟨hquiet rfl rfl (stage_lt hlive.armed (.inr (.inl hside))), rfl⟩
    | putBack =>
      obtain ⟨side, hside, rfl⟩ := Option.map_eq_some_iff.mp hsender
      exact ⟨hquiet rfl rfl (stage_lt hlive.armed (.inr (.inr (.inl hside)))), rfl⟩
    | confirmEmpty =>
      obtain ⟨side, hside, rfl⟩ := Option.map_eq_some_iff.mp hsender
      exact ⟨hquiet rfl rfl (stage_lt hlive.armed (.inr (.inr (.inr hside)))), rfl⟩
    | send result =>
      obtain ⟨side, hside, rfl⟩ := Option.map_eq_some_iff.mp hsender
      cases result with
      | sent count =>
        refine ⟨?_, rfl⟩
        have hless := work_lt_send hside hlive.sender.waiting_lt
        simp only [work, ConnectionAction.toWire, List.length_append]
        omega
      | wouldBlock | failed => cases hprogress
    | post | joinMonitor | leaveMonitor | setClose | onIOError => cases hprogress
  | recv len =>
    simp only [Transport.step] at hstep
    split_ifs at hstep with hlen
    obtain ⟨outcome, -, rfl⟩ := Option.map_eq_some_iff.mp hstep
    refine ⟨?_, rfl⟩
    simp only [work, List.length_drop]
    omega
  | close => cases hprogress

/-- As long as something is to be sent, the sender's thread can bring it forward. -/
theorem Live.idle_of_halted {transport : Transport} (hlive : Live hprotocol transport)
    (hhalted : Halted (drainStep alloc protocol) transport) :
    transport.sender.write.io = .idle ∧ transport.sender.write.pollWrite = false := by
  have hstuck : ∀ action, transport.Progress (.sender action) →
      transport.sender.step action = none := by
    intro action hprogress
    have hnone := hhalted (.sender action)
    rw [drainStep, if_pos hprogress] at hnone
    exact Option.map_eq_none_iff.mp hnone
  have hside : ∀ {made : Option WriteSide} {image : WriteSide → Connection},
      made.map image = none → made = none := Option.map_eq_none_iff.mp
  cases hio : transport.sender.write.io with
  | idle =>
    refine ⟨rfl, Bool.eq_false_iff.mpr fun hpoll ↦ ?_⟩
    have hnone := hside (hstuck .checkOpen hpoll)
    rw [WriteSide.checkOpen, hio] at hnone
    cases hnone
  | opened =>
    have hnone := hside (hstuck .takeFront rfl)
    simp only [WriteSide.takeFront, hio] at hnone
    split at hnone <;> cases hnone
  | foundEmpty =>
    have hnone := hside (hstuck .confirmEmpty rfl)
    simp only [WriteSide.confirmEmpty, hio] at hnone
    cases hnone
  | sending msg =>
    have hmsg : msg ∈ transport.sender.write.waiting := by
      rw [WriteSide.waiting, hio]
      exact List.mem_cons_self
    have hshort := hlive.sender.waiting_lt msg hmsg
    have hpos := List.length_pos_iff.mpr (hlive.armed.ne_nil msg hmsg)
    have hpossible : SendResult.Possible msg (.sent 1) := by
      refine ⟨le_rfl, by norm_num, hpos, ?_⟩
      rw [asInt32_of_lt hshort]
      omega
    have hnone := hside (hstuck (.send (.sent 1)) rfl)
    simp only [WriteSide.send, hio, if_pos hpossible] at hnone
    cases hnone
  | puttingBack msg =>
    have hnone := hside (hstuck .putBack rfl)
    rw [WriteSide.putBack, hio] at hnone
    cases hnone
  | sendFailed => exact absurd hio hlive.armed.ne_sendFailed

/-- Where nothing can be brought forward any more, nothing is left to be. -/
theorem Live.of_halted {transport : Transport} (hlive : Live hprotocol transport)
    (hhalted : Halted (drainStep alloc protocol) transport) :
    transport.received = transport.sender.accepted ∧ transport.sender.write.pollWrite = false := by
  obtain ⟨-, hpoll⟩ := hlive.idle_of_halted hhalted
  refine ⟨hlive.stream.received_eq hlive.sender hlive.not_failed ?_ ?_, hpoll⟩
  · by_contra hflight
    have hpos := List.length_pos_iff.mpr hflight
    obtain ⟨msgs, rest, side, hread, -⟩ :=
      hlive.stream.recv hlive.sender le_rfl (by norm_num [readSize]) hpos alloc
    have hprogress : transport.Progress (.recv 1) := rfl
    have hnone := hhalted (.recv 1)
    rw [drainStep, if_pos hprogress, Transport.step, if_pos ⟨le_rfl, by norm_num [readSize], hpos⟩,
      hread] at hnone
    cases hnone
  · by_contra hwaiting
    have hflag := hlive.armed.armed hwaiting
    rw [← hlive.armed.pollWrite_eq, hpoll] at hflag
    cases hflag

/-- Assumes: a run of a connection whose sender has joined the poll, in which what is posted are
frames that fit and nothing ends the connection. From the state it reaches, the two I/O threads can
make no more steps than the work that is left, whatever their order is; there is a way to go on
until they can make none; and then every accepted message has been received, and write events are
turned off. -/
theorem drained (alloc : Allocator) (hprotocol : protocol.Framable)
    {actions : List TransportAction} {state : Transport}
    (hposts : Along (step alloc protocol) (TransportAction.PostsFrames hprotocol) (joined alloc)
      actions)
    (hundisturbed : ∀ action ∈ actions, action.Undisturbed)
    (hrun : runFrom (step alloc protocol) (joined alloc) actions = some state) :
    (∀ moves final, runFrom (drainStep alloc protocol) state moves = some final →
      moves.length ≤ state.work ∧
        (Halted (drainStep alloc protocol) final →
          final.received = state.sender.accepted ∧ final.sender.write.pollWrite = false)) ∧
      ∃ moves final, runFrom (drainStep alloc protocol) state moves = some final ∧
        Halted (drainStep alloc protocol) final := by
  have hstart : Live hprotocol state :=
    runFrom_invariant_along (Live hprotocol)
      (fun _ _ _ hlive hcondition hstep ↦ hlive.step hcondition.2 hcondition.1 hstep)
      (live_joined alloc hprotocol)
      (hposts.and (along_of_forall (fun _ action haction ↦ hundisturbed action haction) _)) hrun
  have hdrain : ∀ transport action next,
      Live hprotocol transport ∧ transport.sender.accepted = state.sender.accepted →
        transport.drainStep alloc protocol action = some next →
          (Live hprotocol next ∧ next.sender.accepted = state.sender.accepted) ∧
            next.work < transport.work := by
    rintro transport action next ⟨hlive, haccepted⟩ hstep
    obtain ⟨-, hquiet, hposts, hstep'⟩ := drainStep_eq_some hprotocol hstep
    obtain ⟨hless, hkept⟩ := hlive.work_lt hstep
    exact ⟨⟨hlive.step hquiet hposts hstep', hkept.trans haccepted⟩, hless⟩
  refine ⟨fun moves final hmoves ↦ ⟨length_le_of_measure hdrain ⟨hstart, rfl⟩ hmoves,
    fun hhalted ↦ ?_⟩, exists_run_halted hdrain ⟨hstart, rfl⟩⟩
  obtain ⟨hlive, haccepted⟩ := runFrom_invariant
    (fun transport ↦ Live hprotocol transport ∧
      transport.sender.accepted = state.sender.accepted)
    (fun transport action next hstate hstep ↦ (hdrain transport action next hstate hstep).1)
    ⟨hstart, rfl⟩ hmoves
  obtain ⟨hreceived, hpoll⟩ := hlive.of_halted hhalted
  exact ⟨hreceived.trans haccepted, hpoll⟩

/-- A message that was posted and of which nothing was sent yet. -/
theorem drained_posted :
    ∃ state, runFrom (step .zeroing (defaultMsgProto .little)) (joined .zeroing)
        [.sender (.post (DefaultMsgProto.build .little 7#8 [9#8]))] = some state ∧
      ∀ moves final, runFrom (drainStep .zeroing (defaultMsgProto .little)) state moves =
          some final →
        Halted (drainStep .zeroing (defaultMsgProto .little)) final →
          final.received = state.sender.accepted := by
  refine ⟨_, rfl, fun moves final hmoves hhalted ↦ ?_⟩
  have hdrained := @drained _ .zeroing (defaultMsgProto_framable .little)
    [.sender (.post (DefaultMsgProto.build .little 7#8 [9#8]))] _ ?_ ?_ rfl
  · exact ((hdrained.1 moves final hmoves).2 hhalted).1
  · exact ⟨⟨⟨by decide, by decide, by decide⟩, by decide⟩, fun _ _ ↦ trivial⟩
  · exact fun action haction ↦ by
      rw [List.mem_singleton.mp haction]
      rfl

end Transport

end TszyUlt.Zbf
