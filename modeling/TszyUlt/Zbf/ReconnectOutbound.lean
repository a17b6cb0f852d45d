import TszyUlt.Zbf.AsyncClient

/-!
# What a reconnecting client sends

The outbound side of `tcpsock_asynclt` over all its connections. If every connection is opened when
no part of a message is left at the front of the write queue, the bytes sent on each connection are
whole posted messages and at most a part of one more, and they start with the beginning of a message
(`reconnect_outbound_framed`).

The code does not see to the condition. `_SendData` puts the rest of a partly sent message back into
the queue, the queue outlives the connection, and the next connection starts with that rest
(`not_reconnect_outbound_framed`). `tcpsock_user::uninit` clears the queue with the socket, and the
synchronous client resends the whole message.

The invariant is `Outbound`: the messages waiting are posted ones, the first of them completed by
what was sent of it (`WaitingWhole`), and on an open connection the bytes sent are whole messages
and that part (`SentWhole`).
-/

set_option autoImplicit false
set_option relaxedAutoImplicit false

namespace TszyUlt.Zbf

open Lib

namespace AsyncClient

variable {alloc : Allocator} {protocol : TcpMessageProtocol} {fuel : ℕ} {client next : AsyncClient}

/-- The bytes are whole posted messages, followed by at most a part of one more. -/
def Framed (posted : List TcpMessage) (bytes : Bytes) : Prop :=
  ∃ (whole : List TcpMessage) (part : Bytes), (∀ msg ∈ whole, msg ∈ posted) ∧
    bytes = (whole.map TcpMessage.data).flatten ++ part ∧
    (part = [] ∨ ∃ msg ∈ posted, part <+: msg.data)

/-- The bytes sent on a connection are framed, and the first of them are the beginning of a
message. -/
structure FramedLog (posted : List TcpMessage) (log : ConnectionLog) : Prop where
  framed : Framed posted log.sentBytes
  starts : ∀ record ∈ log.sends.head?, record.before = []

/-- The messages still to be sent are posted ones, but for the first, of which `headSent` was sent
before. -/
def WaitingWhole (posted : List TcpMessage) (headSent : Bytes) : List TcpMessage → Prop
  | [] => headSent = []
  | first :: rest => ⟨headSent ++ first.data⟩ ∈ posted ∧ ∀ msg ∈ rest, msg ∈ posted

/-- Whole posted messages, and what was sent of the message at the front. -/
def SentWhole (posted : List TcpMessage) (headSent bytes : Bytes) : Prop :=
  ∃ whole : List TcpMessage, (∀ msg ∈ whole, msg ∈ posted) ∧
    bytes = (whole.map TcpMessage.data).flatten ++ headSent

/-- What holds in every state of a run that opens no connection while a part of a message is at the
front of the queue. -/
structure Outbound (client : AsyncClient) : Prop where
  registered : client.Registered
  waiting : WaitingWhole client.posted client.headSent client.write.waiting
  live : client.write.fdOpen = true → client.closed = false → client.write.io ≠ .sendFailed →
    SentWhole client.posted client.headSent client.current.sentBytes
  framed : ∀ log ∈ client.connections, FramedLog client.posted log

/-- The condition on the steps: the socket takes bytes of messages shorter than `2 ^ 31` only, and a
connection is opened only when no part of a message is left at the front of the queue. -/
def keepsFraming (client : AsyncClient) (action : ClientAction) : Bool :=
  match action, client.write.io with
  | .send (.sent _), .sending msg => msg.data.length < 2 ^ 31
  | .connect true, _ => client.headSent = []
  | _, _ => true

theorem framedLog_empty (posted : List TcpMessage) : FramedLog posted .empty where
  framed := ⟨[], [], fun _ h ↦ absurd h (List.not_mem_nil), rfl, .inl rfl⟩
  starts := fun _ h ↦ by cases h

theorem FramedLog.mono {posted posted' : List TcpMessage} {log : ConnectionLog}
    (hlog : FramedLog posted log) (hsub : ∀ msg ∈ posted, msg ∈ posted') :
    FramedLog posted' log := by
  obtain ⟨whole, part, hwhole, hbytes, hpart⟩ := hlog.framed
  refine ⟨⟨whole, part, fun msg hmsg ↦ hsub msg (hwhole msg hmsg), hbytes, ?_⟩, hlog.starts⟩
  exact hpart.imp_right fun ⟨msg, hmsg, hinitial⟩ ↦ ⟨msg, hsub msg hmsg, hinitial⟩

theorem waitingWhole_of_forall {posted waiting : List TcpMessage}
    (hall : ∀ msg ∈ waiting, msg ∈ posted) : WaitingWhole posted [] waiting := by
  cases waiting with
  | nil => rfl
  | cons first rest =>
    exact ⟨hall first List.mem_cons_self, fun msg hmsg ↦ hall msg (List.mem_cons_of_mem _ hmsg)⟩

/-- A posted message that is appended is whole. -/
theorem WaitingWhole.append {posted waiting : List TcpMessage} {headSent : Bytes}
    (hwaiting : WaitingWhole posted headSent waiting) (msg : TcpMessage) :
    WaitingWhole (posted ++ [msg]) headSent (waiting ++ [msg]) := by
  have hlast : msg ∈ posted ++ [msg] := List.mem_append_right _ List.mem_cons_self
  cases waiting with
  | nil =>
    have hnil : headSent = [] := hwaiting
    subst hnil
    exact ⟨hlast, fun other hother ↦ absurd hother List.not_mem_nil⟩
  | cons first rest =>
    refine ⟨List.mem_append_left _ hwaiting.1, fun other hother ↦ ?_⟩
    rcases List.mem_append.mp hother with hrest | hmsg
    · exact List.mem_append_left _ (hwaiting.2 other hrest)
    · rw [List.mem_singleton.mp hmsg]
      exact hlast

theorem SentWhole.framed {posted waiting : List TcpMessage} {headSent bytes : Bytes}
    (hsent : SentWhole posted headSent bytes) (hwaiting : WaitingWhole posted headSent waiting) :
    Framed posted bytes := by
  obtain ⟨whole, hwhole, hbytes⟩ := hsent
  refine ⟨whole, headSent, hwhole, hbytes, ?_⟩
  cases waiting with
  | nil => exact .inl hwaiting
  | cons first rest => exact .inr ⟨_, hwaiting.1, List.prefix_append _ _⟩

/-- On a connection on which nothing was sent, nothing of the message at the front was sent. -/
theorem SentWhole.headSent_eq_nil {posted : List TcpMessage} {headSent : Bytes}
    (hsent : SentWhole posted headSent []) : headSent = [] := by
  obtain ⟨whole, -, hbytes⟩ := hsent
  exact (List.append_eq_nil_iff.mp hbytes.symm).2

/-- Another piece of the message at the front was sent. -/
theorem SentWhole.append_piece {posted : List TcpMessage} {headSent bytes : Bytes}
    (hsent : SentWhole posted headSent bytes) (piece : Bytes) :
    SentWhole posted (headSent ++ piece) (bytes ++ piece) := by
  obtain ⟨whole, hwhole, rfl⟩ := hsent
  exact ⟨whole, hwhole, List.append_assoc _ _ _⟩

/-- The rest of the message at the front was sent. -/
theorem SentWhole.append_rest {posted : List TcpMessage} {headSent bytes rest : Bytes}
    (hsent : SentWhole posted headSent bytes) (hposted : ⟨headSent ++ rest⟩ ∈ posted) :
    SentWhole posted [] (bytes ++ rest) := by
  obtain ⟨whole, hwhole, rfl⟩ := hsent
  refine ⟨whole ++ [⟨headSent ++ rest⟩], fun other hother ↦ ?_, by simp⟩
  rcases List.mem_append.mp hother with hold | hlast
  · exact hwhole other hold
  · rw [List.mem_singleton.mp hlast]
    exact hposted

theorem sentBytes_addSend (log : ConnectionLog) (before piece : Bytes) :
    (log.addSend before piece).sentBytes = log.sentBytes ++ piece := by
  unfold ConnectionLog.addSend
  split_ifs with hpiece
  · rw [hpiece, List.append_nil]
  · simp [ConnectionLog.sentBytes]

theorem outbound_new : (new alloc).Outbound where
  registered := registered_new
  waiting := rfl
  live := fun _ _ _ ↦ ⟨[], fun _ h ↦ absurd h List.not_mem_nil, rfl⟩
  framed := by
    intro log hlog
    rw [List.mem_singleton.mp hlog]
    exact framedLog_empty _

/-- A step that moves messages between the queue and the I/O thread only. -/
theorem Outbound.of_waiting_eq (hout : client.Outbound) {side : WriteSide}
    (hwaiting : side.waiting = client.write.waiting) (hfd : side.fdOpen = client.write.fdOpen)
    (hio : client.write.io ≠ .sendFailed) (hreg : Registered { client with write := side }) :
    Outbound { client with write := side } where
  registered := hreg
  waiting := by
    rw [hwaiting]
    exact hout.waiting
  live := fun hopen hclosed _ ↦ hout.live (hfd.symm.trans hopen) hclosed hio
  framed := hout.framed

theorem Outbound.post (hout : client.Outbound) (msg : TcpMessage)
    (hstep : client.step alloc protocol fuel (.post msg) = some next) : next.Outbound := by
  have hreg := step_registered hout.registered hstep
  have hwaiting := client.write.waiting_post msg
  cases hstep
  rcases client.write.post_cases msg with hrefused | ⟨hrc, -, hio, hfd⟩
  · simp only [hrefused] at hreg ⊢
    exact ⟨hreg, hout.waiting, hout.live, hout.framed⟩
  · have hsub : ∀ other ∈ client.posted, other ∈ client.posted ++ [msg] :=
      fun other hother ↦ List.mem_append_left _ hother
    rw [if_pos hrc] at hwaiting
    simp only [if_pos hrc] at hreg ⊢
    refine ⟨hreg, ?_, ?_, fun log hlog ↦ (hout.framed log hlog).mono hsub⟩
    · rw [hwaiting]
      exact hout.waiting.append msg
    · intro hopen hclosed hfailed
      rw [hfd] at hopen
      rw [hio] at hfailed
      obtain ⟨whole, hwhole, hbytes⟩ := hout.live hopen hclosed hfailed
      exact ⟨whole, fun other hother ↦ hsub other (hwhole other hother), hbytes⟩

/-- A connection that is opened when no part of a message is at the front starts with a whole
message; one that is not opened sends nothing. -/
theorem Outbound.connect (hout : client.Outbound) (success : Bool)
    (hcondition : client.keepsFraming (.connect success) = true)
    (hstep : client.step alloc protocol fuel (.connect success) = some next) : next.Outbound := by
  have hreg := step_registered hout.registered hstep
  simp only [step] at hstep
  split_ifs at hstep with hguard hsuccess
  · cases hstep
    subst hsuccess
    have hhead : client.headSent = [] := by simpa [keepsFraming] using hcondition
    refine ⟨hreg, hout.waiting, fun _ _ _ ↦ ?_, ?_⟩
    · exact ⟨[], fun _ h ↦ absurd h List.not_mem_nil, hhead.symm⟩
    · intro log hlog
      rcases List.mem_append.mp hlog with hpast | hempty
      · exact hout.framed log hpast
      · rw [List.mem_singleton.mp hempty]
        exact framedLog_empty _
  · cases hstep
    exact ⟨hreg, hout.waiting, fun hopen ↦ absurd hopen (by simp [notConnected]), hout.framed⟩

theorem Outbound.addMonitored (hout : client.Outbound)
    (hstep : client.step alloc protocol fuel .addMonitored = some next) : next.Outbound := by
  have hreg := step_registered hout.registered hstep
  simp only [step] at hstep
  split_ifs at hstep with hguard
  cases hstep
  refine ⟨hreg, ?_, ?_, hout.framed⟩
  · rw [AsyncClient.registered, WriteSide.waiting_congr (WriteSide.joinMonitor_io _)
      (WriteSide.joinMonitor_wrQueue _)]
    exact hout.waiting
  · intro hopen hclosed hfailed
    rw [AsyncClient.registered, WriteSide.joinMonitor_fdOpen] at hopen
    rw [AsyncClient.registered, WriteSide.joinMonitor_io] at hfailed
    exact hout.live hopen hclosed hfailed

/-- Taking a client out of the poll keeps its queue, and no more is sent on the connection. Assumes:
the I/O thread holds no message. -/
theorem Outbound.removeMonitored (hout : client.Outbound)
    (hwaiting : client.write.waiting = client.write.wrQueue) : client.removeMonitored.Outbound where
  registered := registered_removeMonitored client
  waiting := by
    show WaitingWhole client.posted client.headSent client.write.wrQueue
    rw [← hwaiting]
    exact hout.waiting
  live := fun _ hclosed ↦ by cases hclosed
  framed := hout.framed

theorem Outbound.read (hout : client.Outbound) (chunk : Bytes)
    (hstep : client.step alloc protocol fuel (.read chunk) = some next) : next.Outbound := by
  simp only [step] at hstep
  split_ifs at hstep with hguard
  obtain ⟨outcome, -, rfl⟩ := Option.map_eq_some_iff.mp hstep
  -- a read changes the cache and the log of what was read, not what was sent
  have hreceived : Outbound { client with
      recvCache := outcome.side.recvCache
      current := client.current.addRead chunk outcome.msgs } := by
    refine ⟨⟨hout.registered.open_of_monitored, hout.registered.monitored_of_busy⟩, hout.waiting,
      hout.live, fun log hlog ↦ ?_⟩
    rcases List.mem_append.mp hlog with hpast | hcurrent
    · exact hout.framed log (List.mem_append_left _ hpast)
    · rw [List.mem_singleton.mp hcurrent]
      have hlast := hout.framed client.current (List.mem_append_right _ List.mem_cons_self)
      exact ⟨hlast.framed, hlast.starts⟩
  split_ifs
  · exact hreceived
  · exact hreceived.removeMonitored (by rw [WriteSide.waiting, hguard.2.1])

/-- The socket took a piece of the message at the front. Assumes: what is still to be sent and what
was sent on the connection are whole messages again when the piece is added to what was sent of the
one at the front. The first piece of a connection is the beginning of a message. -/
theorem Outbound.sent (hout : client.Outbound) {side : WriteSide} {piece headSent : Bytes}
    (hreg : Registered { client with
      write := side, headSent := headSent
      current := client.current.addSend client.headSent piece })
    (hbefore : SentWhole client.posted client.headSent client.current.sentBytes)
    (hwaiting : WaitingWhole client.posted headSent side.waiting)
    (hsent : SentWhole client.posted headSent (client.current.sentBytes ++ piece)) :
    Outbound { client with
      write := side, headSent := headSent
      current := client.current.addSend client.headSent piece } := by
  refine ⟨hreg, hwaiting, fun _ _ _ ↦ ?_, fun log hlog ↦ ?_⟩
  · rw [sentBytes_addSend]
    exact hsent
  rcases List.mem_append.mp hlog with hpast | hcurrent
  · exact hout.framed log (List.mem_append_left _ hpast)
  rw [List.mem_singleton.mp hcurrent]
  refine ⟨?_, ?_⟩
  · rw [sentBytes_addSend]
    exact hsent.framed hwaiting
  · have hlast := hout.framed client.current (List.mem_append_right _ List.mem_cons_self)
    rcases hsends : client.current.sends with _ | ⟨first, rest⟩
    · -- nothing was sent on this connection before
      have hnil : client.current.sentBytes = [] := by rw [ConnectionLog.sentBytes, hsends]; rfl
      rw [hnil] at hbefore
      intro record hrecord
      unfold ConnectionLog.addSend at hrecord
      split_ifs at hrecord
      · rw [hsends] at hrecord
        cases hrecord
      · rw [hsends] at hrecord
        cases hrecord
        exact hbefore.headSent_eq_nil
    · intro record hrecord
      refine hlast.starts record ?_
      unfold ConnectionLog.addSend at hrecord
      split_ifs at hrecord
      · exact hrecord
      · rw [hsends] at hrecord ⊢
        exact hrecord

theorem Outbound.send (hout : client.Outbound) (result : SendResult)
    (hcondition : client.keepsFraming (.send result) = true)
    (hstep : client.step alloc protocol fuel (.send result) = some next) : next.Outbound := by
  have hreg := step_registered hout.registered hstep
  have hmonitored := (sendData_frame hout.registered rfl hstep).1
  obtain ⟨side, hside, rfl⟩ := Option.map_eq_some_iff.mp hstep
  obtain ⟨msg, hio, -, hnext⟩ := WriteSide.send_cases hside
  have hfront : client.write.waiting = msg :: client.write.wrQueue := by
    rw [WriteSide.waiting, hio]
  have hwaiting := hout.waiting
  rw [hfront] at hwaiting
  obtain ⟨hopen, hclosed⟩ := hout.registered.open_of_monitored hmonitored
  have hlive := hout.live hopen hclosed (by rw [hio]; exact IoThread.noConfusion)
  cases result with
  | failed =>
    -- the message is dropped, and nothing is sent on this connection any more
    subst hnext
    refine ⟨hreg, waitingWhole_of_forall hwaiting.2, fun _ _ hfailed ↦ absurd rfl hfailed, ?_⟩
    exact hout.framed
  | wouldBlock =>
    have hhead : client.headAfter .wouldBlock side.io = client.headSent := by
      rw [hnext]
      exact List.append_nil client.headSent
    have hrest : side.waiting = msg :: client.write.wrQueue := by
      rw [hnext]
      rfl
    have htaken : client.write.taken .wouldBlock = [] := rfl
    refine hout.sent hreg hlive ?_ ?_
    · rw [hhead, hrest]
      exact hwaiting
    · rw [hhead, htaken, List.append_nil]
      exact hlive
  | sent count =>
    have hshort : msg.data.length < 2 ^ 31 := by simpa [keepsFraming, hio] using hcondition
    have htaken : client.write.taken (.sent count) = msg.data.take count := by
      rw [WriteSide.taken, WriteSide.held, hio]
    rcases (WriteSide.send_sent_cases hside hio hshort).2 with
      ⟨hafter, hrest⟩ | ⟨hafter, hrest, htake⟩
    · -- a part is left: with what was sent of it, it is the message that was posted
      have hhead : client.headAfter (.sent count) side.io =
          client.headSent ++ msg.data.take count := by
        rw [hafter, ← htaken]
        rfl
      refine hout.sent hreg hlive ?_ ?_
      · rw [hrest, hhead]
        refine ⟨?_, hwaiting.2⟩
        rw [List.append_assoc, List.take_append_drop]
        exact hwaiting.1
      · rw [hhead, htaken]
        exact hlive.append_piece _
    · -- the message is complete
      have hhead : client.headAfter (.sent count) side.io = [] := by
        rw [hafter]
        rfl
      refine hout.sent hreg hlive ?_ ?_
      · rw [hrest, hhead]
        exact waitingWhole_of_forall hwaiting.2
      · rw [hhead, htaken, htake]
        exact hlive.append_rest hwaiting.1

/-- A step that meets the condition keeps the invariant. -/
theorem step_outbound (hout : client.Outbound) {action : ClientAction}
    (hcondition : client.keepsFraming action = true)
    (hstep : client.step alloc protocol fuel action = some next) : next.Outbound := by
  have hreg := step_registered hout.registered hstep
  cases action with
  | post msg => exact hout.post msg hstep
  | connect success => exact hout.connect success hcondition hstep
  | addMonitored => exact hout.addMonitored hstep
  | read chunk => exact hout.read chunk hstep
  | ioError =>
    simp only [step] at hstep
    split_ifs at hstep with hguard
    cases hstep
    exact hout.removeMonitored (by rw [WriteSide.waiting, hguard.2])
  | checkOpen =>
    have hfd := (sendData_frame hout.registered rfl hstep).2.fdOpen_eq
    simp only [step] at hstep
    split_ifs at hstep
    obtain ⟨side, hside, rfl⟩ := Option.map_eq_some_iff.mp hstep
    have hio := (WriteSide.checkOpen_cases hside).1
    exact hout.of_waiting_eq (WriteSide.waiting_checkOpen hside) hfd (by simp [hio]) hreg
  | takeFront =>
    have hfd := (sendData_frame hout.registered rfl hstep).2.fdOpen_eq
    obtain ⟨side, hside, rfl⟩ := Option.map_eq_some_iff.mp hstep
    have hio := (WriteSide.takeFront_cases hside).1
    exact hout.of_waiting_eq (WriteSide.waiting_takeFront hside) hfd (by simp [hio]) hreg
  | send result => exact hout.send result hcondition hstep
  | putBack =>
    have hfd := (sendData_frame hout.registered rfl hstep).2.fdOpen_eq
    obtain ⟨side, hside, rfl⟩ := Option.map_eq_some_iff.mp hstep
    obtain ⟨msg, hio, -⟩ := WriteSide.putBack_cases hside
    exact hout.of_waiting_eq (WriteSide.waiting_putBack hside) hfd (by simp [hio]) hreg
  | confirmEmpty =>
    have hfd := (sendData_frame hout.registered rfl hstep).2.fdOpen_eq
    obtain ⟨side, hside, rfl⟩ := Option.map_eq_some_iff.mp hstep
    have hio := (WriteSide.confirmEmpty_cases hside).1
    exact hout.of_waiting_eq (WriteSide.waiting_confirmEmpty hside) hfd (by simp [hio]) hreg
  | sendFailed =>
    simp only [step] at hstep
    split_ifs at hstep with hio
    cases hstep
    exact hout.removeMonitored (by rw [WriteSide.waiting, hio])

/-- Assumes: a run of a client in which the socket takes bytes of messages shorter than `2 ^ 31`
only, and every connection is opened when no part of a message is left at the front of the queue. In
the state it reaches, the bytes sent on each connection are whole posted messages followed by at
most a part of one, and the first of them are the beginning of a message. -/
theorem reconnect_outbound_framed (alloc : Allocator) (protocol : TcpMessageProtocol) (fuel : ℕ)
    (actions : List ClientAction) (final : AsyncClient)
    (hcondition : Along (step alloc protocol fuel)
      (fun client action ↦ client.keepsFraming action) (new alloc) actions)
    (hrun : runFrom (step alloc protocol fuel) (new alloc) actions = some final) :
    ∀ log ∈ final.connections, FramedLog final.posted log := by
  have hout : final.Outbound :=
    runFrom_invariant_along Outbound
      (fun client action next hout hcondition hstep ↦ step_outbound hout hcondition hstep)
      outbound_new hcondition hrun
  exact hout.framed

/-- Two connections of a client, each with a whole message. -/
theorem reconnect_outbound_framed_two_connections :
    ∃ final, runFrom (step .zeroing (defaultMsgProto .little) 0) (new .zeroing)
        [.connect true, .addMonitored, .post ⟨[1#8, 2#8]⟩, .checkOpen, .takeFront, .send (.sent 2),
          .ioError, .connect true, .addMonitored, .post ⟨[3#8]⟩, .checkOpen, .takeFront,
          .send (.sent 1)] = some final ∧
      final.connections.map ConnectionLog.sentBytes = [[], [1#8, 2#8], [3#8]] ∧
      ∀ log ∈ final.connections, FramedLog final.posted log :=
  ⟨_, rfl, rfl, reconnect_outbound_framed .zeroing (defaultMsgProto .little) 0
    [.connect true, .addMonitored, .post ⟨[1#8, 2#8]⟩, .checkOpen, .takeFront, .send (.sent 2),
      .ioError, .connect true, .addMonitored, .post ⟨[3#8]⟩, .checkOpen, .takeFront,
      .send (.sent 1)] _ (by decide) rfl⟩

/-- The second byte of a message of two does not start a connection of whole messages. -/
theorem not_framed_tail : ¬ Framed [⟨[1#8, 2#8]⟩] [2#8] := by
  rintro ⟨whole, part, hwhole, hbytes, hpart⟩
  cases whole with
  | nil =>
    have hpart' : part = [2#8] := hbytes.symm
    subst hpart'
    rcases hpart with hnil | ⟨msg, hmsg, hinitial⟩
    · cases hnil
    · rw [List.mem_singleton.mp hmsg] at hinitial
      exact absurd hinitial (by decide)
  | cons first rest =>
    rw [List.mem_singleton.mp (hwhole first List.mem_cons_self)] at hbytes
    exact absurd (congrArg List.head? hbytes) (by simp)

/-- A connection breaks after the first byte of a message was sent; the next one starts with the
second byte. -/
theorem not_reconnect_outbound_framed :
    ∃ final, runFrom (step .zeroing (defaultMsgProto .little) 0) (new .zeroing)
        [.connect true, .addMonitored, .post ⟨[1#8, 2#8]⟩, .checkOpen, .takeFront, .send (.sent 1),
          .putBack, .ioError, .connect true, .addMonitored, .checkOpen, .takeFront,
          .send (.sent 1)] = some final ∧
      final.current.sends = [⟨[1#8], [2#8]⟩] ∧
      ¬ ∀ log ∈ final.connections, FramedLog final.posted log :=
  ⟨_, rfl, rfl, fun hall ↦
    not_framed_tail (hall _ (List.mem_append_right _ List.mem_cons_self)).framed⟩

end AsyncClient

end TszyUlt.Zbf
