import TszyUlt.Zbf.AsyncClient

/-!
# What a reconnecting client receives

The inbound side of `tcpsock_asynclt` over all its connections. If every connection is opened when
the receive cache is empty, the messages extracted from each connection are those that a fresh
client extracts from the chunks that were read on it (`reconnect_inbound_fresh`).

The code does not see to the condition. The receive cache outlives the connection, and what it holds
of an incomplete message is completed by the bytes of the next connection
(`not_reconnect_inbound_fresh`).

The invariant is `Inbound`. While a connection is open, a fresh client that made the same reads is
in step with the client: it extracted the same messages and its cache holds the same bytes
(`InStep`), although the blocks of the two caches may differ.
-/

set_option autoImplicit false
set_option relaxedAutoImplicit false

namespace TszyUlt.Zbf

open Lib

namespace AsyncClient

variable {alloc : Allocator} {protocol : TcpMessageProtocol} {fuel : ℕ} {client next : AsyncClient}

/-- The messages extracted from a connection are those that a fresh client extracts from the same
chunks. -/
def FreshLog (alloc : Allocator) (protocol : TcpMessageProtocol) (fuel : ℕ) (log : ConnectionLog) :
    Prop :=
  ∃ outcomes, readChunks alloc protocol fuel (RecvSide.new alloc) log.chunks = some outcomes ∧
    log.msgs = outcomes.flatMap ReadOutcome.msgs

/-- A fresh client that read the same chunks extracted the same messages, and its cache holds the
same bytes. -/
def InStep (alloc : Allocator) (protocol : TcpMessageProtocol) (fuel : ℕ) (log : ConnectionLog)
    (side : RecvSide) : Prop :=
  ∃ outcomes, readChunks alloc protocol fuel (RecvSide.new alloc) log.chunks = some outcomes ∧
    log.msgs = outcomes.flatMap ReadOutcome.msgs ∧
    side.SameBytes (sideAfter (RecvSide.new alloc) outcomes)

/-- What holds in every state of a run that opens connections only when the receive cache is
empty. -/
structure Inbound (alloc : Allocator) (protocol : TcpMessageProtocol) (fuel : ℕ)
    (client : AsyncClient) : Prop where
  registered : client.Registered
  cache : ∃ content, (RecvSide.mk false client.recvCache).Open content
  live : client.write.fdOpen = true → client.closed = false →
    InStep alloc protocol fuel client.current (RecvSide.mk false client.recvCache)
  fresh : ∀ log ∈ client.connections, FreshLog alloc protocol fuel log

/-- The condition on the steps: a connection is opened only when the receive cache is empty. -/
def opensEmpty (client : AsyncClient) (action : ClientAction) : Bool :=
  match action with
  | .connect true => client.recvCache.datasize = 0
  | _ => true

theorem freshLog_empty : FreshLog alloc protocol fuel .empty := ⟨[], rfl, rfl⟩

theorem inbound_new : (new alloc).Inbound alloc protocol fuel where
  registered := registered_new
  cache := ⟨[], RecvSide.open_new alloc⟩
  live := fun hopen ↦ by cases hopen
  fresh := by
    intro log hlog
    rw [List.mem_singleton.mp hlog]
    exact freshLog_empty

/-- A step that leaves the receive side, the socket and the logs of what was read alone. -/
theorem Inbound.of_frame (hin : client.Inbound alloc protocol fuel) (hreg : next.Registered)
    (hclosed : next.closed = client.closed) (hcache : next.recvCache = client.recvCache)
    (hfd : next.write.fdOpen = client.write.fdOpen) (hpast : next.past = client.past)
    (hchunks : next.current.chunks = client.current.chunks)
    (hmsgs : next.current.msgs = client.current.msgs) : next.Inbound alloc protocol fuel := by
  refine ⟨hreg, ?_, ?_, ?_⟩
  · rw [hcache]
    exact hin.cache
  · rw [hfd, hclosed, hcache, InStep, hchunks, hmsgs]
    exact hin.live
  · intro log hlog
    rw [connections, hpast] at hlog
    rcases List.mem_append.mp hlog with hold | hcurrent
    · exact hin.fresh log (List.mem_append_left _ hold)
    · rw [List.mem_singleton.mp hcurrent, FreshLog, hchunks, hmsgs]
      exact hin.fresh client.current (List.mem_append_right _ List.mem_cons_self)

theorem Inbound.removeMonitored (hin : client.Inbound alloc protocol fuel) :
    client.removeMonitored.Inbound alloc protocol fuel where
  registered := registered_removeMonitored client
  cache := hin.cache
  live := fun _ hclosed ↦ by cases hclosed
  fresh := hin.fresh

/-- A connection that is opened when the cache is empty is in step with a fresh client. -/
theorem Inbound.connect (hin : client.Inbound alloc protocol fuel) (success : Bool)
    (hcondition : client.opensEmpty (.connect success) = true)
    (hstep : client.step alloc protocol fuel (.connect success) = some next) :
    next.Inbound alloc protocol fuel := by
  have hreg := step_registered hin.registered hstep
  simp only [step] at hstep
  split_ifs at hstep with hguard hsuccess
  · cases hstep
    subst hsuccess
    obtain ⟨content, hcontent⟩ := hin.cache
    have hempty : content = [] := by
      have hsize : client.recvCache.datasize = 0 := by simpa [opensEmpty] using hcondition
      rw [hcontent.holds.datasize_eq] at hsize
      exact List.length_eq_zero_iff.mp hsize
    subst hempty
    refine ⟨hreg, ⟨[], hcontent⟩, fun _ _ ↦ ?_, fun log hlog ↦ ?_⟩
    · exact ⟨[], rfl, rfl, [], hcontent, RecvSide.open_new alloc, Nat.zero_le _⟩
    · rcases List.mem_append.mp hlog with hpast | hcurrent
      · exact hin.fresh log hpast
      · rw [List.mem_singleton.mp hcurrent]
        exact freshLog_empty
  · cases hstep
    exact ⟨hreg, hin.cache, fun hopen ↦ absurd hopen (by simp [notConnected]), hin.fresh⟩

/-- The fresh client makes the same read: it extracts the same messages, and the two stay in step
unless the read is refused. -/
theorem Inbound.read (hin : client.Inbound alloc protocol fuel) (chunk : Bytes)
    (hstep : client.step alloc protocol fuel (.read chunk) = some next) :
    next.Inbound alloc protocol fuel := by
  have hreg := step_registered hin.registered hstep
  simp only [step] at hstep
  split_ifs at hstep with hguard
  obtain ⟨hmonitored, -, hchunk, hsize⟩ := hguard
  obtain ⟨outcome, hread, rfl⟩ := Option.map_eq_some_iff.mp hstep
  obtain ⟨hopen, hclosed⟩ := hin.registered.open_of_monitored hmonitored
  obtain ⟨outcomes, hreads, hmsgs, hsame⟩ := hin.live hopen hclosed
  rw [recvSide, hclosed] at hread
  obtain ⟨⟨outcome', hread', hmsgs', hnext⟩, hrefused⟩ :=
    readChunk_sameBytes alloc protocol hsame hchunk hsize hread
  have hreads' := readChunks_concat hreads hread'
  have hlog : (client.current.addRead chunk outcome.msgs).msgs =
      (outcomes ++ [outcome']).flatMap ReadOutcome.msgs := by
    rw [List.flatMap_append, List.flatMap_singleton, hmsgs', ← hmsgs]
    rfl
  have hfresh : ∀ log ∈ client.past ++ [client.current.addRead chunk outcome.msgs],
      FreshLog alloc protocol fuel log := by
    intro log hmem
    rcases List.mem_append.mp hmem with hpast | hcurrent
    · exact hin.fresh log (List.mem_append_left _ hpast)
    · rw [List.mem_singleton.mp hcurrent]
      exact ⟨_, hreads', hlog⟩
  split_ifs at hreg ⊢ with hrc
  · have hsame' := hnext hrc
    obtain ⟨content, hside, -⟩ := id hsame'
    have hmk : RecvSide.mk false outcome.side.recvCache = outcome.side := by
      rw [← hside.not_closed]
    refine ⟨hreg, ⟨content, hmk.symm ▸ hside⟩, fun _ _ ↦ ?_, hfresh⟩
    rw [hmk]
    refine ⟨_, hreads', hlog, ?_⟩
    rw [sideAfter, List.foldl_append]
    exact hsame'
  · refine ⟨hreg, (hrefused hrc).2, ?_, hfresh⟩
    intro _ hopened
    cases hopened

/-- A step that meets the condition keeps the invariant. -/
theorem step_inbound (hin : client.Inbound alloc protocol fuel) {action : ClientAction}
    (hcondition : client.opensEmpty action = true)
    (hstep : client.step alloc protocol fuel action = some next) :
    next.Inbound alloc protocol fuel := by
  have hreg := step_registered hin.registered hstep
  cases action with
  | post msg =>
    cases hstep
    have hfd : (client.write.post msg).2.fdOpen = client.write.fdOpen := by
      rcases client.write.post_cases msg with hrefused | ⟨-, -, -, hfd⟩
      · rw [hrefused]
      · exact hfd
    exact hin.of_frame hreg rfl rfl hfd rfl rfl rfl
  | connect success => exact hin.connect success hcondition hstep
  | addMonitored =>
    simp only [step] at hstep
    split_ifs at hstep
    cases hstep
    exact hin.of_frame hreg rfl rfl (WriteSide.joinMonitor_fdOpen _) rfl rfl rfl
  | read chunk => exact hin.read chunk hstep
  | ioError =>
    simp only [step] at hstep
    split_ifs at hstep
    cases hstep
    exact hin.removeMonitored
  | sendFailed =>
    simp only [step] at hstep
    split_ifs at hstep
    cases hstep
    exact hin.removeMonitored
  | checkOpen | takeFront | send | putBack | confirmEmpty =>
    have hframe := (sendData_frame hin.registered rfl hstep).2
    exact hin.of_frame hreg hframe.closed_eq hframe.recvCache_eq hframe.fdOpen_eq hframe.past_eq
      hframe.chunks_eq hframe.msgs_eq

/-- Assumes: a run of a client in which every connection is opened when the receive cache is empty.
In the state it reaches, the messages extracted from each connection are those that a fresh client
extracts from the chunks that were read on it. -/
theorem reconnect_inbound_fresh (alloc : Allocator) (protocol : TcpMessageProtocol) (fuel : ℕ)
    (actions : List ClientAction) (final : AsyncClient)
    (hcondition : Along (step alloc protocol fuel)
      (fun client action ↦ client.opensEmpty action) (new alloc) actions)
    (hrun : runFrom (step alloc protocol fuel) (new alloc) actions = some final) :
    ∀ log ∈ final.connections, FreshLog alloc protocol fuel log := by
  have hin : final.Inbound alloc protocol fuel :=
    runFrom_invariant_along (Inbound alloc protocol fuel)
      (fun client action next hin hcondition hstep ↦ step_inbound hin hcondition hstep)
      inbound_new hcondition hrun
  exact hin.fresh

/-- Two connections of a client, each with a heartbeat; the first one is read in two chunks. -/
theorem reconnect_inbound_fresh_heartbeats :
    ∃ final, runFrom (step .zeroing (defaultMsgProto .little) 3) (new .zeroing)
        [.connect true, .addMonitored, .read [1#8, 0#8], .read [0#8, 0#8], .ioError, .connect true,
          .addMonitored, .read [1#8, 0#8, 0#8, 0#8]] = some final ∧
      final.connections.map ConnectionLog.msgs =
        [[], [⟨[1#8, 0#8, 0#8, 0#8]⟩], [⟨[1#8, 0#8, 0#8, 0#8]⟩]] ∧
      ∀ log ∈ final.connections, FreshLog .zeroing (defaultMsgProto .little) 3 log :=
  ⟨_, rfl, by decide, reconnect_inbound_fresh .zeroing (defaultMsgProto .little) 3
    [.connect true, .addMonitored, .read [1#8, 0#8], .read [0#8, 0#8], .ioError, .connect true,
      .addMonitored, .read [1#8, 0#8, 0#8, 0#8]] _ (by decide) rfl⟩

/-- A connection breaks after three bytes of a header; the first byte of the next one completes it,
and the message is extracted there. A fresh client extracts nothing from that byte. -/
theorem not_reconnect_inbound_fresh :
    ∃ final, runFrom (step .zeroing (defaultMsgProto .little) 3) (new .zeroing)
        [.connect true, .addMonitored, .read [1#8, 0#8, 0#8], .ioError, .connect true,
          .addMonitored, .read [0#8]] = some final ∧
      final.current.chunks = [[0#8]] ∧ final.current.msgs = [⟨[1#8, 0#8, 0#8, 0#8]⟩] ∧
      ¬ ∀ log ∈ final.connections, FreshLog .zeroing (defaultMsgProto .little) 3 log := by
  have hfresh : (readChunks .zeroing (defaultMsgProto .little) 3 (RecvSide.new .zeroing)
      [[0#8]]).map (fun outcomes ↦ outcomes.flatMap ReadOutcome.msgs) = some [] := by
    decide
  refine ⟨_, rfl, by decide, by decide, fun hall ↦ ?_⟩
  obtain ⟨outcomes, hreads, hmsgs⟩ := hall _ (List.mem_append_right _ List.mem_cons_self)
  have hreads' : readChunks .zeroing (defaultMsgProto .little) 3 (RecvSide.new .zeroing) [[0#8]] =
      some outcomes := hreads
  rw [hreads', Option.map_some, Option.some.injEq] at hfresh
  rw [hfresh] at hmsgs
  exact absurd hmsgs (by decide)

end AsyncClient

end TszyUlt.Zbf
