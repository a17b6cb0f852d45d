import TszyUlt.Lib.Simulation
import TszyUlt.Zbf.RecvPath
import TszyUlt.Zbf.WritePath

/-!
# Messages from one end of a connection to the other

`zbf/socket_tcp_v5.hpp`: the write path of one end (`WritePath`) and the receive path of the other
one (`RecvPath`), with the bytes between them. Any thread posts messages at one end, its I/O thread
gives them to the socket in parts, TCP carries the bytes, and the event loop of the other end reads
them in chunks of its own and cuts the messages off again. `tcpsock_user` and `tcpsock_asynclt` have
both paths, so this is either direction of a connection between them.

`Transport` is the system of these parts, and `refines_channel` says what it is for: as long as what
is posted are frames of the protocol that fit into the cache of the reader, it follows a `Channel`
of messages. `received_prefix` reads this for a run: the messages received are the first of the
accepted ones, the reader never closes the connection because of them, and when nothing is under way
any more all have been received.

Scope. A connection that is reset is one whose ends are closed at some point, with bytes under way.
-/

set_option autoImplicit false
set_option relaxedAutoImplicit false

namespace TszyUlt.Zbf

open Lib

/-! ### The system -/

/-- The sender of a connection, the bytes on their way, and its receiver with the messages that it
has handed on. -/
structure Transport where
  sender : Connection
  inFlight : Bytes
  receiver : RecvSide
  received : List TcpMessage

/-- The steps of the two ends: those of the sender, a read, and that the receiver is closed. -/
inductive TransportAction
  | sender (action : ConnectionAction)
  | recv (len : ℕ)
  | close
  deriving DecidableEq, Repr

/-- The bytes that the socket takes in a step. -/
def ConnectionAction.toWire (connection : Connection) : ConnectionAction → Bytes
  | .send result => connection.write.taken result
  | _ => []

namespace Transport

/-- A connection whose ends were just opened. -/
def new (alloc : Allocator) : Transport where
  sender := .new
  inFlight := []
  receiver := RecvSide.new alloc
  received := []

variable (alloc : Allocator) (protocol : TcpMessageProtocol)

/-- One step of the two ends. A read returns the bytes that arrived first, not more than the buffer
of the event loop holds. -/
def step (transport : Transport) : TransportAction → Option Transport
  | .sender action =>
    (transport.sender.step action).map fun sender ↦
      { transport with
        sender := sender
        inFlight := transport.inFlight ++ action.toWire transport.sender }
  | .recv len =>
    if 1 ≤ len ∧ len ≤ readSize ∧ len ≤ transport.inFlight.length then
      (readChunk alloc protocol (maxPendingSize + 1) transport.receiver
        (transport.inFlight.take len)).map fun outcome ↦
          { transport with
            inFlight := transport.inFlight.drop len
            receiver := outcome.side
            received := transport.received ++ outcome.msgs }
    else none
  | .close => some { transport with receiver := { transport.receiver with closed := true } }

end Transport

variable {protocol : TcpMessageProtocol}

/-- A frame that, with one read more, fits into the cache of the reader. -/
structure TcpMessageProtocol.Framable.Fits (hprotocol : protocol.Framable) (msg : TcpMessage) :
    Prop where
  isFrame : hprotocol.format.IsFrame msg.data
  length_le : msg.data.length + readSize ≤ maxPendingSize + 1

theorem TcpMessageProtocol.Framable.Fits.length_pos {hprotocol : protocol.Framable}
    {msg : TcpMessage} (hfits : hprotocol.Fits msg) : 0 < msg.data.length :=
  lt_of_lt_of_le hprotocol.headerSize_pos hfits.isFrame.header_le

theorem TcpMessageProtocol.Framable.Fits.length_le_maxPendingSize {hprotocol : protocol.Framable}
    {msg : TcpMessage} (hfits : hprotocol.Fits msg) : msg.data.length ≤ maxPendingSize := by
  have hle := hfits.length_le
  rw [readSize] at hle
  omega

/-- What is posted are frames that fit. -/
def TransportAction.PostsFrames (hprotocol : protocol.Framable) (_ : Transport) :
    TransportAction → Prop
  | .sender (.post msg) => hprotocol.Fits msg
  | _ => True

namespace Transport

/-! ### What the two ends have in common -/

/-- The sender keeps its invariant, and what it still has to send is no longer than the cache. -/
structure SenderOk (hprotocol : protocol.Framable) (sender : Connection) : Prop where
  invariant : sender.Invariant
  fits : ∀ msg ∈ sender.accepted, hprotocol.Fits msg
  waiting_le : ∀ msg ∈ sender.write.waiting, msg.data.length ≤ maxPendingSize

/-- The open receiver holds the beginning of the first message not yet received, and the bytes
received, held and on their way are those that the socket took. -/
def StreamOk (transport : Transport) : Prop :=
  ∃ rest held, transport.sender.accepted = transport.received ++ rest ∧
    transport.receiver.Open held ∧ Pending (rest.map TcpMessage.data) held ∧
    (transport.received.map TcpMessage.data).flatten ++ held ++ transport.inFlight =
      transport.sender.socket

/-- The transport is in a state that corresponds to one of a channel. -/
structure Carries (hprotocol : protocol.Framable) (transport : Transport)
    (channel : Channel TcpMessage) : Prop where
  accepted_eq : channel.accepted = transport.sender.accepted
  delivered_eq : channel.delivered = transport.received
  cut_eq : channel.cut = transport.receiver.closed
  sender : SenderOk hprotocol transport.sender
  stream : transport.receiver.closed = false → transport.StreamOk

variable {hprotocol : protocol.Framable}

theorem carries_new (alloc : Allocator) (hprotocol : protocol.Framable) :
    Carries hprotocol (new alloc) .new where
  accepted_eq := rfl
  delivered_eq := rfl
  cut_eq := rfl
  sender :=
    ⟨Connection.invariant_new, fun _ hmsg ↦ absurd hmsg List.not_mem_nil,
      fun _ hmsg ↦ absurd hmsg List.not_mem_nil⟩
  stream := fun _ ↦ ⟨[], [], rfl, RecvSide.open_new alloc, rfl, rfl⟩

/-! ### The steps of the sender -/

/-- What a send leaves to be sent of the message is no longer than the message. -/
theorem waiting_le_send {side next : WriteSide} {result : SendResult}
    (hsend : side.send result = some next) {msg : TcpMessage} (hmsg : msg ∈ next.waiting) :
    ∃ other ∈ side.waiting, msg.data.length ≤ other.data.length := by
  obtain ⟨first, hio, -, rfl⟩ := WriteSide.send_cases hsend
  have hwaiting : side.waiting = first :: side.wrQueue := by rw [WriteSide.waiting, hio]
  have hqueued : msg ∈ side.wrQueue → ∃ other ∈ side.waiting,
      msg.data.length ≤ other.data.length :=
    fun hmem ↦ ⟨msg, hwaiting ▸ List.mem_cons_of_mem _ hmem, le_rfl⟩
  have hfirst : msg.data.length ≤ first.data.length → ∃ other ∈ side.waiting,
      msg.data.length ≤ other.data.length :=
    fun hle ↦ ⟨first, hwaiting ▸ List.mem_cons_self, hle⟩
  cases result with
  | sent count =>
    rw [WriteSide.afterSend, WriteSide.waiting] at hmsg
    split_ifs at hmsg with hpart
    · rcases List.mem_cons.mp hmsg with rfl | hmem
      · exact hfirst (by simp)
      · exact hqueued hmem
    · exact hqueued hmsg
  | wouldBlock =>
    rcases List.mem_cons.mp hmsg with rfl | hmem
    · exact hfirst le_rfl
    · exact hqueued hmem
  | failed => exact hqueued hmsg

/-- What the sender still has to send after a step is part of what it had to send before, or the
message that was posted. -/
theorem waiting_le_step {connection next : Connection} {action : ConnectionAction}
    (hstep : connection.step action = some next) {msg : TcpMessage}
    (hmsg : msg ∈ next.write.waiting) :
    action = .post msg ∧ msg ∈ next.accepted ∨
      ∃ other ∈ connection.write.waiting, msg.data.length ≤ other.data.length := by
  have hkept : next.write.waiting = connection.write.waiting →
      action = .post msg ∧ msg ∈ next.accepted ∨
        ∃ other ∈ connection.write.waiting, msg.data.length ≤ other.data.length :=
    fun heq ↦ Or.inr ⟨msg, heq ▸ hmsg, le_rfl⟩
  cases action with
  | post posted =>
    cases hstep
    rw [WriteSide.waiting_post, List.mem_append] at hmsg
    rcases hmsg with hmem | hnew
    · exact Or.inr ⟨msg, hmem, le_rfl⟩
    · split_ifs at hnew with hrc
      · obtain rfl := List.mem_singleton.mp hnew
        refine Or.inl ⟨rfl, ?_⟩
        simp only [hrc, if_true]
        exact List.mem_append_right _ List.mem_cons_self
      · cases hnew
  | joinMonitor =>
    cases hstep
    exact hkept (WriteSide.waiting_congr (WriteSide.joinMonitor_io _)
      (WriteSide.joinMonitor_wrQueue _))
  | leaveMonitor =>
    cases hstep
    exact hkept rfl
  | setClose =>
    cases hstep
    exact hkept rfl
  | checkOpen =>
    obtain ⟨side, hside, rfl⟩ := Option.map_eq_some_iff.mp hstep
    exact hkept (WriteSide.waiting_checkOpen hside)
  | takeFront =>
    obtain ⟨side, hside, rfl⟩ := Option.map_eq_some_iff.mp hstep
    exact hkept (WriteSide.waiting_takeFront hside)
  | send result =>
    obtain ⟨side, hside, rfl⟩ := Option.map_eq_some_iff.mp hstep
    exact Or.inr (waiting_le_send hside hmsg)
  | putBack =>
    obtain ⟨side, hside, rfl⟩ := Option.map_eq_some_iff.mp hstep
    exact hkept (WriteSide.waiting_putBack hside)
  | confirmEmpty =>
    obtain ⟨side, hside, rfl⟩ := Option.map_eq_some_iff.mp hstep
    exact hkept (WriteSide.waiting_confirmEmpty hside)
  | onIOError =>
    simp only [Connection.step] at hstep
    split_ifs at hstep with hio
    cases hstep
    exact hkept (by simp [WriteSide.waiting, hio])

/-- The bytes that the socket took are those before the step and those of the step; and a message is
accepted only when it is posted. -/
theorem log_step {connection next : Connection} {action : ConnectionAction}
    (hstep : connection.step action = some next) :
    next.socket = connection.socket ++ action.toWire connection ∧
      (next.accepted = connection.accepted ∨
        ∃ msg, action = .post msg ∧ next.accepted = connection.accepted ++ [msg]) := by
  have hkept : action.toWire connection = [] → next.socket = connection.socket →
      next.socket = connection.socket ++ action.toWire connection := by
    intro hwire hsocket
    rw [hwire, hsocket, List.append_nil]
  cases action with
  | post msg =>
    cases hstep
    refine ⟨hkept rfl rfl, ?_⟩
    split_ifs
    · exact Or.inr ⟨msg, rfl, rfl⟩
    · exact Or.inl rfl
  | joinMonitor | leaveMonitor | setClose =>
    cases hstep
    exact ⟨hkept rfl rfl, Or.inl rfl⟩
  | send result =>
    obtain ⟨side, -, rfl⟩ := Option.map_eq_some_iff.mp hstep
    exact ⟨rfl, Or.inl rfl⟩
  | checkOpen | takeFront | putBack | confirmEmpty =>
    obtain ⟨side, -, rfl⟩ := Option.map_eq_some_iff.mp hstep
    exact ⟨hkept rfl rfl, Or.inl rfl⟩
  | onIOError =>
    simp only [Connection.step] at hstep
    split_ifs at hstep
    cases hstep
    exact ⟨hkept rfl rfl, Or.inl rfl⟩

theorem SenderOk.waiting_lt {sender : Connection} (hok : SenderOk hprotocol sender) :
    ∀ msg ∈ sender.write.waiting, msg.data.length < 2 ^ 31 := by
  intro msg hmsg
  have hle := hok.waiting_le msg hmsg
  rw [maxPendingSize] at hle
  omega

theorem SenderOk.sendsShort {sender : Connection} (hok : SenderOk hprotocol sender)
    (action : ConnectionAction) : sender.sendsShort action := by
  unfold Connection.sendsShort
  split
  · rename_i msg hio
    have hmem : msg ∈ sender.write.waiting := by
      rw [WriteSide.waiting, hio]
      exact List.mem_cons_self
    exact decide_eq_true (hok.waiting_lt msg hmem)
  · rfl

/-- A step of the sender that posts nothing but frames that fit. -/
theorem SenderOk.step {sender next : Connection} {action : ConnectionAction}
    (hok : SenderOk hprotocol sender) (hposts : ∀ msg, action = .post msg → hprotocol.Fits msg)
    (hstep : sender.step action = some next) : SenderOk hprotocol next where
  invariant := by
    cases hfailed : sender.failed with
    | false =>
      exact Connection.step_invariant_of_not_failed hfailed hok.invariant (hok.sendsShort action)
        hstep
    | true => exact Connection.step_invariant_of_failed hfailed hok.invariant hstep
  fits := fun msg hmsg ↦ by
    rcases (log_step hstep).2 with heq | ⟨posted, haction, heq⟩
    · exact hok.fits msg (heq ▸ hmsg)
    · rw [heq, List.mem_append, List.mem_singleton] at hmsg
      rcases hmsg with hmem | rfl
      · exact hok.fits msg hmem
      · exact hposts msg haction
  waiting_le := fun msg hmsg ↦ by
    rcases waiting_le_step hstep hmsg with ⟨haction, -⟩ | ⟨other, hother, hle⟩
    · exact (hposts msg haction).length_le_maxPendingSize
    · exact hle.trans (hok.waiting_le other hother)

/-- What the receiver holds stays the beginning of the first message to come when one more is
accepted. -/
theorem pending_append {rest : List TcpMessage} {held : Bytes}
    (hpending : Pending (rest.map TcpMessage.data) held) {msg : TcpMessage}
    (hpos : 0 < msg.data.length) : Pending ((rest ++ [msg]).map TcpMessage.data) held := by
  cases rest with
  | nil =>
    obtain rfl : held = [] := hpending
    exact ⟨List.nil_prefix, hpos⟩
  | cons first rest => exact hpending

theorem StreamOk.sender {transport : Transport} (hstream : transport.StreamOk)
    {next : Connection} {action : ConnectionAction}
    (hposts : ∀ msg, action = .post msg → hprotocol.Fits msg)
    (hstep : transport.sender.step action = some next) :
    StreamOk { transport with
      sender := next, inFlight := transport.inFlight ++ action.toWire transport.sender } := by
  obtain ⟨rest, held, haccepted, hopen, hpending, hbytes⟩ := hstream
  obtain ⟨hsocket, hlog⟩ := log_step hstep
  have hwire : (transport.received.map TcpMessage.data).flatten ++ held ++
      (transport.inFlight ++ action.toWire transport.sender) = next.socket := by
    rw [hsocket, ← hbytes, List.append_assoc, List.append_assoc, List.append_assoc]
  rcases hlog with heq | ⟨msg, haction, heq⟩
  · exact ⟨rest, held, heq.trans haccepted, hopen, hpending, hwire⟩
  · refine ⟨rest ++ [msg], held, ?_, hopen, ?_, hwire⟩
    · rw [heq, haccepted, List.append_assoc]
    · exact pending_append hpending (hposts msg haction).length_pos

/-! ### A read -/

/-- A read of an open receiver hands on the next messages, as many as are complete. -/
theorem StreamOk.recv {transport : Transport} (hstream : transport.StreamOk)
    (hsender : SenderOk hprotocol transport.sender) {len : ℕ} (hpos : 1 ≤ len)
    (hread : len ≤ readSize) (hlen : len ≤ transport.inFlight.length) (alloc : Allocator) :
    ∃ msgs rest side,
      readChunk alloc protocol (maxPendingSize + 1) transport.receiver
          (transport.inFlight.take len) = some ⟨0, msgs, side⟩ ∧
        side.closed = false ∧ transport.sender.accepted = transport.received ++ (msgs ++ rest) ∧
        StreamOk { transport with
          inFlight := transport.inFlight.drop len
          receiver := side
          received := transport.received ++ msgs } := by
  obtain ⟨rest, held, haccepted, hopen, hpending, hbytes⟩ := hstream
  have hfits : ∀ msg ∈ rest, hprotocol.Fits msg := fun msg hmsg ↦
    hsender.fits msg (haccepted ▸ List.mem_append_right _ hmsg)
  -- The bytes taken begin the accepted ones; what follows them completes the messages to come.
  obtain ⟨later, hlater⟩ := hsender.invariant.streamExact.1
  have hall : transport.sender.socket ++ later =
      (transport.received.map TcpMessage.data).flatten ++ (rest.map TcpMessage.data).flatten := by
    rw [hlater, Connection.acceptedBytes, haccepted, List.map_append, List.flatten_append]
  have hcoming : held ++ transport.inFlight ++ later = (rest.map TcpMessage.data).flatten := by
    rw [← hbytes, List.append_assoc, List.append_assoc] at hall
    rw [List.append_assoc]
    exact List.append_cancel_left hall
  have hsplit : held ++ transport.inFlight.take len ++ (transport.inFlight.drop len ++ later) =
      (rest.map TcpMessage.data).flatten := by
    rw [← hcoming, List.append_assoc, ← List.append_assoc (transport.inFlight.take len),
      List.take_append_drop, List.append_assoc]
  have hlength : (transport.inFlight.take len).length = len := List.length_take_of_le hlen
  have hchunk : transport.inFlight.take len ≠ [] := by
    rw [← List.length_pos_iff, hlength]
    exact hpos
  have hlimit : (held ++ transport.inFlight.take len).length ≤ maxPendingSize := by
    rw [List.length_append, hlength]
    cases rest with
    | nil =>
      obtain rfl : held = [] := hpending
      rw [readSize] at hread
      rw [List.length_nil, maxPendingSize]
      omega
    | cons first rest =>
      have hshort : held.length < first.data.length := hpending.2
      have hle := (hfits first List.mem_cons_self).length_le
      omega
  obtain ⟨count, -, side, left, hchunkRead, hside, hleft, hremain⟩ :=
    readChunk_spec alloc hprotocol rest (fun msg hmsg ↦ (hfits msg hmsg).isFrame) hopen hchunk
      hlimit hsplit (Nat.lt_succ_self maxPendingSize)
  have hrest : rest.take count ++ rest.drop count = rest := List.take_append_drop count rest
  have haccepted' : transport.sender.accepted =
      transport.received ++ (rest.take count ++ rest.drop count) := by rw [hrest, haccepted]
  refine ⟨rest.take count, rest.drop count, side, hchunkRead, hside.not_closed, haccepted', ?_⟩
  refine ⟨rest.drop count, left, ?_, hside, hleft, (List.append_left_inj later).mp ?_⟩
  · rw [List.append_assoc]
    exact haccepted'
  · calc ((transport.received ++ rest.take count).map TcpMessage.data).flatten ++ left ++
          transport.inFlight.drop len ++ later =
        (transport.received.map TcpMessage.data).flatten ++
          (((rest.take count).map TcpMessage.data).flatten ++
            (left ++ (transport.inFlight.drop len ++ later))) := by
          simp only [List.map_append, List.flatten_append, List.append_assoc]
      _ = transport.sender.socket ++ later := by
          rw [hremain, ← List.flatten_append, ← List.map_append, hrest, hall]

/-- A read of a closed receiver hands on nothing. -/
theorem readChunk_of_closed (alloc : Allocator) (protocol : TcpMessageProtocol) (fuel : ℕ)
    {side : RecvSide} (hclosed : side.closed = true) (chunk : Bytes) :
    readChunk alloc protocol fuel side chunk = some ⟨1, [], { side with closed := true }⟩ := by
  have hrc : side.onRecv alloc chunk = (1, side) := if_pos hclosed
  rw [readChunk_of_refused (by simp [hrc]), hrc]

/-! ### The refinement -/

variable {alloc : Allocator}

/-- A step is matched by steps of the channel. Only a step that closes the receiver does close
it. -/
theorem Carries.step {transport next : Transport} {channel : Channel TcpMessage}
    {action : TransportAction} (hcarries : Carries hprotocol transport channel)
    (hposts : action.PostsFrames hprotocol transport)
    (hstep : transport.step alloc protocol action = some next) :
    ∃ moves channel', runFrom Channel.step channel moves = some channel' ∧
      Carries hprotocol next channel' ∧
      (action ≠ .close → next.receiver.closed = transport.receiver.closed) := by
  cases action with
  | sender action =>
    obtain ⟨sender, hsender, rfl⟩ := Option.map_eq_some_iff.mp hstep
    have hposted : ∀ msg, action = .post msg → hprotocol.Fits msg := by
      rintro msg rfl
      exact hposts
    have hok := hcarries.sender.step hposted hsender
    have hstream := fun hopen ↦ (hcarries.stream hopen).sender hposted hsender
    rcases (log_step hsender).2 with heq | ⟨msg, -, heq⟩
    · exact ⟨[], channel, rfl, ⟨hcarries.accepted_eq.trans heq.symm, hcarries.delivered_eq,
        hcarries.cut_eq, hok, hstream⟩, fun _ ↦ rfl⟩
    · refine ⟨[.accept msg], _, rfl, ⟨?_, hcarries.delivered_eq, hcarries.cut_eq, hok, hstream⟩,
        fun _ ↦ rfl⟩
      show channel.accepted ++ [msg] = sender.accepted
      rw [heq, hcarries.accepted_eq]
  | recv len =>
    simp only [Transport.step] at hstep
    split_ifs at hstep with hlen
    cases hclosed : transport.receiver.closed with
    | true =>
      rw [readChunk_of_closed alloc protocol _ hclosed] at hstep
      cases hstep
      refine ⟨[], channel, rfl, ⟨hcarries.accepted_eq, ?_, hcarries.cut_eq.trans hclosed,
        hcarries.sender, fun hopen ↦ by cases hopen⟩, fun _ ↦ rfl⟩
      exact hcarries.delivered_eq.trans (List.append_nil _).symm
    | false =>
      obtain ⟨msgs, rest, side, hread, hopen, haccepted, hstream⟩ :=
        (hcarries.stream hclosed).recv hcarries.sender hlen.1 hlen.2.1 hlen.2.2 alloc
      rw [hread] at hstep
      cases hstep
      have hcut : channel.cut = false := hcarries.cut_eq.trans hclosed
      have hdeliver := Channel.runFrom_deliver hcut msgs rest (by
        rw [hcarries.accepted_eq, hcarries.delivered_eq]
        exact haccepted)
      refine ⟨_, _, hdeliver, ⟨hcarries.accepted_eq, ?_, hcut.trans hopen.symm, hcarries.sender,
        fun _ ↦ hstream⟩, fun _ ↦ hopen⟩
      rw [hcarries.delivered_eq]
  | close =>
    cases hstep
    exact ⟨[.cut], _, rfl, ⟨hcarries.accepted_eq, hcarries.delivered_eq, rfl, hcarries.sender,
      fun hopen ↦ by cases hopen⟩, fun hne ↦ absurd rfl hne⟩

/-- As long as what is posted are frames that fit, the transport follows a channel of messages. -/
theorem refines_channel (alloc : Allocator) (hprotocol : protocol.Framable) :
    Simulates (step alloc protocol) Channel.step (TransportAction.PostsFrames hprotocol)
      (Carries hprotocol) := by
  intro transport channel action next hcarries hposts hstep
  obtain ⟨moves, channel', hmoves, hnext, -⟩ := hcarries.step hposts hstep
  exact ⟨moves, channel', hmoves, hnext⟩

/-! ### All runs -/

/-- When nothing is under way to an open receiver any more, it has received every message. -/
theorem StreamOk.received_eq {transport : Transport} (hstream : transport.StreamOk)
    (hsender : SenderOk hprotocol transport.sender) (hfailed : transport.sender.failed = false)
    (hflight : transport.inFlight = []) (hwaiting : transport.sender.write.waiting = []) :
    transport.received = transport.sender.accepted := by
  obtain ⟨rest, held, haccepted, -, hpending, hbytes⟩ := hstream
  have hsocket := hsender.invariant.stream_eq hfailed
  rw [WriteSide.unsent, hwaiting, List.map_nil, List.flatten_nil, List.append_nil, ← hbytes,
    hflight, List.append_nil, Connection.acceptedBytes, haccepted, List.map_append,
    List.flatten_append] at hsocket
  have hrest : rest = [] := Pending.eq_nil hpending (List.append_cancel_left hsocket)
  rw [haccepted, hrest, List.append_nil]

/-- Every state of a run corresponds to one of the channel; where no step closes the receiver, it is
open. -/
theorem carries_of_run {actions : List TransportAction} {final : Transport}
    (hposts : Along (step alloc protocol) (TransportAction.PostsFrames hprotocol) (new alloc)
      actions)
    (hrun : runFrom (step alloc protocol) (new alloc) actions = some final) :
    (∃ moves channel, runFrom Channel.step .new moves = some channel ∧
        Carries hprotocol final channel) ∧
      (.close ∉ actions → final.receiver.closed = false) := by
  refine ⟨(refines_channel alloc hprotocol).run (carries_new alloc hprotocol) hposts hrun, ?_⟩
  intro hclose
  have hopen : Along (step alloc protocol) (fun _ action ↦ action ≠ .close) (new alloc) actions :=
    along_of_forall (by
      rintro _ action haction rfl
      exact hclose haction) _
  refine (runFrom_invariant_along
    (fun transport ↦ (∃ channel, Carries hprotocol transport channel) ∧
      transport.receiver.closed = false) ?_ ⟨⟨_, carries_new alloc hprotocol⟩, rfl⟩
    (hposts.and hopen) hrun).2
  rintro transport action next ⟨⟨channel, hcarries⟩, hclosed⟩ ⟨hposts, hne⟩ hstep
  obtain ⟨-, channel', -, hnext, hkept⟩ := hcarries.step hposts hstep
  exact ⟨⟨channel', hnext⟩, (hkept hne).trans hclosed⟩

/-- Assumes: a run of two ends that were just opened, in which what is posted are frames that fit.
The messages received are the first of those that were accepted, in their order. The reader does not
close the connection by itself, and every read that can be made of an open receiver is made. When
nothing is under way to it any more and no send failed, it has received all of them. -/
theorem delivers_in_order (alloc : Allocator) (hprotocol : protocol.Framable)
    {actions : List TransportAction} {final : Transport}
    (hposts : Along (step alloc protocol) (TransportAction.PostsFrames hprotocol) (new alloc)
      actions)
    (hrun : runFrom (step alloc protocol) (new alloc) actions = some final) :
    final.received <+: final.sender.accepted ∧
      (.close ∉ actions → final.receiver.closed = false) ∧
      (final.receiver.closed = false → ∀ len, 1 ≤ len → len ≤ readSize →
        len ≤ final.inFlight.length → (final.step alloc protocol (.recv len)).isSome) ∧
      (final.receiver.closed = false → final.sender.failed = false → final.inFlight = [] →
        final.sender.write.waiting = [] → final.received = final.sender.accepted) := by
  obtain ⟨⟨moves, channel, hmoves, hcarries⟩, hopen⟩ := carries_of_run hposts hrun
  refine ⟨?_, hopen, fun hclosed len hpos hread hlen ↦ ?_, fun hclosed ↦
    (hcarries.stream hclosed).received_eq hcarries.sender⟩
  · rw [← hcarries.delivered_eq, ← hcarries.accepted_eq]
    exact Channel.delivered_prefix hmoves
  · obtain ⟨msgs, rest, side, hchunk, -⟩ :=
      (hcarries.stream hclosed).recv hcarries.sender hpos hread hlen alloc
    rw [Transport.step, if_pos ⟨hpos, hread, hlen⟩, hchunk]
    rfl

/-- The frames of `default_msg_proto` can be carried. -/
theorem defaultMsgProto_framable (order : ByteOrder) : (defaultMsgProto order).Framable where
  headerSize_pos := by
    show 0 < (4#32).toNat
    decide
  total_lt := by
    show (4#32).toNat + defaultMaxBodySize.toNat < 2 ^ 32
    decide

/-- A message of one byte that is sent whole and read in two parts. -/
theorem delivers_in_order_twoReads :
    ∃ final, runFrom (step .zeroing (defaultMsgProto .little)) (new .zeroing)
        [.sender (.post (DefaultMsgProto.build .little 7#8 [9#8])), .sender .checkOpen,
          .sender .takeFront, .sender (.send (.sent 5)), .recv 2, .recv 3] = some final ∧
      final.received = [DefaultMsgProto.build .little 7#8 [9#8]] ∧
      final.received <+: final.sender.accepted := by
  have hreceived : (runFrom (step .zeroing (defaultMsgProto .little)) (new .zeroing)
      [.sender (.post (DefaultMsgProto.build .little 7#8 [9#8])), .sender .checkOpen,
        .sender .takeFront, .sender (.send (.sent 5)), .recv 2, .recv 3]).map received =
      some [DefaultMsgProto.build .little 7#8 [9#8]] := by
    decide +kernel
  obtain ⟨final, hrun, hmsgs⟩ := Option.map_eq_some_iff.mp hreceived
  refine ⟨final, hrun, hmsgs, (delivers_in_order .zeroing (defaultMsgProto_framable .little)
    ?_ hrun).1⟩
  refine ⟨⟨⟨by decide, by decide, by decide⟩, by decide⟩, fun next _ ↦ along_of_forall ?_ next⟩
  simp [TransportAction.PostsFrames]

end Transport

end TszyUlt.Zbf
