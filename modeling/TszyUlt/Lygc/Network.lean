import Mathlib.Data.List.Infix
import TszyUlt.Lygc.SizeLimits
import TszyUlt.Zbf.Transport

/-!
# The messages of calls on the connections

The connections between the clients and the server of `lygc/net_server.hpp`, as the transports of
`zbf/socket_tcp_v5.hpp` under them. A connection has two directions, each a `Transport` with the
`lymsg_protocol` of its reader. The messages that a reader has cut off the stream go to the queues
of the workers, and a worker takes one of them at a time: `Wire` is a direction with the positions
of the messages that were taken.

`Network` is all wires with a record of what is on them: which call each accepted message belongs to
that no worker took yet. Nothing of the record is sent. It is there to say that the bytes do not mix
the calls up: `Carried.arrived` says that a message that has come out of the bytes is one that was
posted, unchanged, for the call of the record, or a heartbeat.

Scope. A connection is used until it breaks. One that is opened again keeps the buffers of the old
one, which is the subject of `Zbf.ReconnectInbound` and `Zbf.ReconnectOutbound`.
-/

set_option autoImplicit false
set_option relaxedAutoImplicit false

namespace TszyUlt.Lygc

open Lib Zbf

/-! ### Frames of calls -/

section Frames

variable (sender receiver : ByteOrder) (header : LymsgHeader) {data : Bytes}

/-- Whatever the byte orders of the hosts, the receiver reads the type. -/
theorem lymsgType_packMsg_of_sender (data : Bytes) :
    lymsgType receiver (packMsg sender header data) = header.type := by
  have hlong : ¬(packMsg sender header data).data.length < headerBytes := by
    rw [length_packMsg]
    omega
  have hunpack := unpackMsg_packMsg sender header data receiver
  rw [unpackMsg, if_neg hlong, Except.ok.injEq, Prod.mk.injEq] at hunpack
  rw [lymsgType, if_neg hlong]
  exact congrArg LymsgHeader.type hunpack.1

/-- The longest body whose frame, with one read more, fits into the cache of the reader. -/
def maxCarriedBody : ℕ := maxPendingSize + 1 - readSize - headerBytes

/-- A packed message with a body that is not too long can be carried. -/
theorem fits_packMsg (hdata : data.length ≤ maxCarriedBody) :
    (lymsgProtocol_framable receiver).Fits (packMsg sender header data) := by
  have hbody : data.length ≤ 10481645 := hdata
  have hlimit : data.length ≤ (lymsgProtocol receiver).maxBodySize.toNat := by
    show data.length ≤ 16777216
    omega
  refine ⟨isFrame_packMsg sender receiver header hlimit, ?_⟩
  rw [length_packMsg, headerBytes, readSize, maxPendingSize]
  omega

/-- A heartbeat is a packed message without a body. -/
theorem lymsgHeartbeat_eq_packMsg :
    lymsgHeartbeat sender = packMsg sender ⟨0, 0, heartbeatType, 0, 0⟩ [] :=
  congrArg TcpMessage.mk (List.append_nil _).symm

theorem isHeartbeat_lymsgHeartbeat :
    (lymsgProtocol receiver).isHeartbeat (lymsgHeartbeat sender) = true := by
  show (lymsgType receiver (lymsgHeartbeat sender) == heartbeatType) = true
  rw [lymsgHeartbeat_eq_packMsg, lymsgType_packMsg_of_sender]
  exact beq_self_eq_true _

end Frames

/-! ### Wires -/

/-- The direction of a message on a connection. -/
inductive Direction
  | toServer
  | toClient
  deriving DecidableEq, Repr

/-- The host at the end of a direction: its byte order and how the caches of its readers are
allocated. -/
structure Reader where
  order : ByteOrder
  alloc : Allocator

/-- The protocol object of a reader. -/
def Reader.protocol (reader : Reader) : TcpMessageProtocol := lymsgProtocol reader.order

/-- One direction of a connection, with the positions of the messages that a worker of the reader
took. -/
structure Wire where
  transport : Transport
  taken : List ℕ

namespace Wire

/-- A direction of a connection that was just opened. -/
def new (reader : Reader) : Wire := ⟨Transport.new reader.alloc, []⟩

/-- The messages that a post on the wire has accepted. -/
def accepted (wire : Wire) : List TcpMessage := wire.transport.sender.accepted

/-- `post`: the return code and the wire afterwards. -/
def post (wire : Wire) (msg : TcpMessage) : ℤ × Wire :=
  let posted := wire.transport.sender.write.post msg
  (posted.1, { wire with
    transport := { wire.transport with
      sender := { wire.transport.sender with
        write := posted.2
        accepted :=
          if posted.1 = 0 then wire.transport.sender.accepted ++ [msg]
          else wire.transport.sender.accepted } } })

/-- A message that was cut off the stream and that no worker took. -/
def arrived (wire : Wire) (position : ℕ) : Option TcpMessage :=
  if position ∈ wire.taken then none else wire.transport.received[position]?

/-- The wire follows a channel of messages. -/
def Follows (reader : Reader) (wire : Wire) : Prop :=
  ∃ moves channel, runFrom Channel.step .new moves = some channel ∧
    Transport.Carries (lymsgProtocol_framable reader.order) wire.transport channel

variable {reader : Reader} {wire : Wire}

theorem follows_new (reader : Reader) : (new reader).Follows reader :=
  ⟨[], .new, rfl, Transport.carries_new reader.alloc _⟩

theorem Follows.step (hfollows : wire.Follows reader) {action : TransportAction}
    {next : Transport}
    (hposts : action.PostsFrames (lymsgProtocol_framable reader.order) wire.transport)
    (hstep : wire.transport.step reader.alloc reader.protocol action = some next) :
    ({ wire with transport := next } : Wire).Follows reader := by
  obtain ⟨moves, channel, hmoves, hcarries⟩ := hfollows
  obtain ⟨later, channel', hlater, hnext, -⟩ := hcarries.step hposts hstep
  exact ⟨moves ++ later, channel', by rw [runFrom_append, hmoves, Option.bind_some, hlater],
    hnext⟩

theorem Follows.post (hfollows : wire.Follows reader) {msg : TcpMessage}
    (hfits : (lymsgProtocol_framable reader.order).Fits msg) :
    (wire.post msg).2.Follows reader := by
  have hstep : wire.transport.step reader.alloc reader.protocol (.sender (.post msg)) =
      some (wire.post msg).2.transport := by
    simp [Transport.step, Connection.step, ConnectionAction.toWire]
    rfl
  exact hfollows.step (by exact hfits) hstep

theorem Follows.received_prefix (hfollows : wire.Follows reader) :
    wire.transport.received <+: wire.accepted := by
  obtain ⟨moves, channel, hmoves, hcarries⟩ := hfollows
  rw [accepted, ← hcarries.delivered_eq, ← hcarries.accepted_eq]
  exact Channel.delivered_prefix hmoves

/-- A message that has arrived is one that was accepted. -/
theorem Follows.accepted_of_arrived (hfollows : wire.Follows reader) {position : ℕ}
    {msg : TcpMessage} (harrived : wire.arrived position = some msg) :
    wire.accepted[position]? = some msg ∧ position ∉ wire.taken := by
  rw [arrived] at harrived
  split_ifs at harrived with htaken
  obtain ⟨rest, hrest⟩ := hfollows.received_prefix
  refine ⟨?_, htaken⟩
  rw [← hrest, List.getElem?_append_left (List.getElem?_eq_some_iff.mp harrived).1]
  exact harrived

end Wire

/-! ### The network -/

/-- A direction of a connection. -/
abbrev Route (Conn : Type*) := Direction × Conn

/-- What is on a wire for a call of `request`: where, and the message that was posted. -/
structure Posted (Conn : Type*) where
  route : Route Conn
  position : ℕ
  tag : ℕ
  msg : TcpMessage
  deriving DecidableEq, Repr

/-- All wires, and what is on them for calls. -/
structure Network (Conn : Type*) where
  wires : Route Conn → Wire
  posted : List (Posted Conn)

namespace Network

variable {Conn : Type*}

/-- Connections that were just opened. -/
def new (readers : Direction → Reader) : Network Conn where
  wires := fun route ↦ .new (readers route.1)
  posted := []

section Operations

variable [DecidableEq Conn]

/-- A message is posted on a wire, for a call or as a heartbeat. -/
def post (network : Network Conn) (route : Route Conn) (origin : Option ℕ) (msg : TcpMessage) :
    ℤ × Network Conn :=
  let wire := network.wires route
  let posted := wire.post msg
  (posted.1,
    { wires := Function.update network.wires route posted.2
      posted :=
        if posted.1 = 0 then
          network.posted ++ (origin.map (Posted.mk route wire.accepted.length · msg)).toList
        else network.posted })

/-- A worker takes a message. -/
def take (network : Network Conn) (route : Route Conn) (position : ℕ) : Network Conn where
  wires := Function.update network.wires route
    { network.wires route with taken := (network.wires route).taken ++ [position] }
  posted := network.posted.filter fun entry ↦
    ¬(entry.route = route ∧ entry.position = position)

/-- The call that a message on a wire belongs to. -/
def origin (network : Network Conn) (route : Route Conn) (position : ℕ) : Option ℕ :=
  (network.posted.find? fun entry ↦ entry.route = route ∧ entry.position = position).map Posted.tag

/-- A step of the two ends of a wire that posts nothing. -/
def step (readers : Direction → Reader) (network : Network Conn) (route : Route Conn) :
    TransportAction → Option (Network Conn)
  | .sender (.post _) => none
  | action =>
    ((network.wires route).transport.step (readers route.1).alloc (readers route.1).protocol
      action).map fun transport ↦
        { network with
          wires := Function.update network.wires route
            { network.wires route with transport := transport } }

end Operations

/-- What holds of the network in every state of a run. -/
structure Carried (readers : Direction → Reader) (network : Network Conn) : Prop where
  follows : ∀ route, (network.wires route).Follows (readers route.1)
  recorded : ∀ entry ∈ network.posted,
    (network.wires entry.route).accepted[entry.position]? = some entry.msg ∧
      entry.position ∉ (network.wires entry.route).taken
  listed : ∀ (route : Route Conn) (position : ℕ) (msg : TcpMessage),
    (network.wires route).accepted[position]? = some msg →
      position ∉ (network.wires route).taken →
        (∃ entry ∈ network.posted, entry.route = route ∧ entry.position = position) ∨
          route.1 = .toServer ∧ (readers .toServer).protocol.isHeartbeat msg = true
  taken_lt : ∀ route, ∀ position ∈ (network.wires route).taken,
    position < (network.wires route).accepted.length

theorem carried_new (readers : Direction → Reader) :
    (new readers : Network Conn).Carried readers where
  follows := fun route ↦ Wire.follows_new (readers route.1)
  recorded := fun _ hentry ↦ absurd hentry List.not_mem_nil
  listed := fun _ _ _ hmsg ↦ by cases hmsg
  taken_lt := fun _ _ htaken ↦ absurd htaken List.not_mem_nil

variable [DecidableEq Conn] {readers : Direction → Reader} {network : Network Conn}
  {route : Route Conn}

/-- The messages that a wire accepted after a post. -/
theorem accepted_post (network : Network Conn) (route : Route Conn) (origin : Option ℕ)
    (msg : TcpMessage) (other : Route Conn) :
    ((network.post route origin msg).2.wires other).accepted =
      if (network.post route origin msg).1 = 0 ∧ other = route then
        (network.wires other).accepted ++ [msg]
      else (network.wires other).accepted := by
  by_cases hother : other = route
  · subst hother
    simp only [post, Function.update_self, Wire.accepted, Wire.post, and_true]
  · simp only [post, Function.update_of_ne hother, hother, and_false, if_false]

theorem taken_post (network : Network Conn) (route : Route Conn) (origin : Option ℕ)
    (msg : TcpMessage) (other : Route Conn) :
    ((network.post route origin msg).2.wires other).taken = (network.wires other).taken := by
  by_cases hother : other = route
  · subst hother
    simp only [post, Function.update_self, Wire.post]
  · simp only [post, Function.update_of_ne hother]

theorem accepted_take (network : Network Conn) (route : Route Conn) (position : ℕ)
    (other : Route Conn) :
    ((network.take route position).wires other).accepted = (network.wires other).accepted := by
  by_cases hother : other = route
  · subst hother
    simp only [take, Function.update_self, Wire.accepted]
  · simp only [take, Function.update_of_ne hother]

theorem mem_taken_take {position : ℕ} {other : Route Conn} {taken : ℕ} :
    taken ∈ ((network.take route position).wires other).taken ↔
      taken ∈ (network.wires other).taken ∨ other = route ∧ taken = position := by
  by_cases hother : other = route
  · subst hother
    simp [take]
  · simp [take, hother]

/-- What is on the wires after a post was there before, or was posted now. -/
theorem mem_posted_post {origin : Option ℕ} {msg : TcpMessage} {entry : Posted Conn}
    (hentry : entry ∈ (network.post route origin msg).2.posted) :
    entry ∈ network.posted ∨ (network.post route origin msg).1 = 0 ∧
      ∃ tag, origin = some tag ∧
        entry = ⟨route, (network.wires route).accepted.length, tag, msg⟩ := by
  simp only [post] at hentry ⊢
  split_ifs at hentry with hrc
  · rcases List.mem_append.mp hentry with hold | hnew
    · exact Or.inl hold
    · obtain ⟨tag, htag, rfl⟩ := Option.map_eq_some_iff.mp (Option.mem_toList.mp hnew)
      exact Or.inr ⟨hrc, tag, htag, rfl⟩
  · exact Or.inl hentry

theorem mem_posted_take {position : ℕ} {entry : Posted Conn} :
    entry ∈ (network.take route position).posted ↔
      entry ∈ network.posted ∧ ¬(entry.route = route ∧ entry.position = position) := by
  simp only [take, List.mem_filter, decide_eq_true_eq]

/-- A message that can be carried is posted, for a call or as a heartbeat to the server. -/
theorem Carried.post (hcarried : network.Carried readers) {origin : Option ℕ} {msg : TcpMessage}
    (hfits : (lymsgProtocol_framable (readers route.1).order).Fits msg)
    (horigin : origin = none → route.1 = .toServer ∧
      (readers .toServer).protocol.isHeartbeat msg = true) :
    (network.post route origin msg).2.Carried readers where
  follows := fun other ↦ by
    by_cases hother : other = route
    · subst hother
      simp only [Network.post, Function.update_self]
      exact (hcarried.follows other).post hfits
    · simp only [Network.post, Function.update_of_ne hother]
      exact hcarried.follows other
  recorded := fun entry hentry ↦ by
    rw [accepted_post, taken_post]
    rcases mem_posted_post hentry with hold | ⟨hrc, tag, -, rfl⟩
    · obtain ⟨hmsg, htaken⟩ := hcarried.recorded entry hold
      refine ⟨?_, htaken⟩
      split_ifs
      · rw [List.getElem?_append_left (List.getElem?_eq_some_iff.mp hmsg).1, hmsg]
      · exact hmsg
    · rw [if_pos ⟨hrc, rfl⟩]
      refine ⟨List.getElem?_concat_length, fun htaken ↦ ?_⟩
      exact absurd (hcarried.taken_lt route _ htaken) (lt_irrefl _)
  listed := fun other position next hmsg htaken ↦ by
    rw [accepted_post] at hmsg
    rw [taken_post] at htaken
    have hold : (network.wires other).accepted[position]? = some next →
        (∃ entry ∈ (network.post route origin msg).2.posted,
            entry.route = other ∧ entry.position = position) ∨
          other.1 = .toServer ∧ (readers .toServer).protocol.isHeartbeat next = true := by
      intro hnext
      refine (hcarried.listed other position next hnext htaken).imp_left ?_
      rintro ⟨entry, hentry, hkey⟩
      refine ⟨entry, ?_, hkey⟩
      simp only [Network.post]
      split_ifs
      · exact List.mem_append_left _ hentry
      · exact hentry
    split_ifs at hmsg with hposted
    · obtain ⟨hrc, rfl⟩ := hposted
      rcases Nat.lt_or_ge position (network.wires other).accepted.length with hlt | hge
      · rw [List.getElem?_append_left hlt] at hmsg
        exact hold hmsg
      · rw [List.getElem?_append_right hge, List.getElem?_singleton] at hmsg
        split_ifs at hmsg with hzero
        obtain rfl := Option.some.inj hmsg
        cases origin with
        | none => exact Or.inr (horigin rfl)
        | some tag =>
          refine Or.inl ⟨⟨other, (network.wires other).accepted.length, tag, msg⟩, ?_, rfl, ?_⟩
          · have hrc' : ((network.wires other).post msg).1 = 0 := hrc
            simp [Network.post, hrc']
          · show (network.wires other).accepted.length = position
            omega
    · exact hold hmsg
  taken_lt := fun other position htaken ↦ by
    rw [taken_post] at htaken
    rw [accepted_post]
    have hlt := hcarried.taken_lt other position htaken
    split_ifs
    · rw [List.length_append]
      omega
    · exact hlt

/-- A message that was accepted is taken. -/
theorem Carried.take (hcarried : network.Carried readers) {position : ℕ}
    (hposition : position < (network.wires route).accepted.length) :
    (network.take route position).Carried readers where
  follows := fun other ↦ by
    by_cases hother : other = route
    · subst hother
      simp only [Network.take, Function.update_self]
      exact hcarried.follows other
    · simp only [Network.take, Function.update_of_ne hother]
      exact hcarried.follows other
  recorded := fun entry hentry ↦ by
    obtain ⟨hold, hkey⟩ := mem_posted_take.mp hentry
    obtain ⟨hmsg, htaken⟩ := hcarried.recorded entry hold
    rw [accepted_take]
    refine ⟨hmsg, fun hnew ↦ ?_⟩
    rcases mem_taken_take.mp hnew with hbefore | hnow
    · exact htaken hbefore
    · exact hkey hnow
  listed := fun other index msg hmsg htaken ↦ by
    rw [accepted_take] at hmsg
    rw [mem_taken_take, not_or] at htaken
    refine (hcarried.listed other index msg hmsg htaken.1).imp_left ?_
    rintro ⟨entry, hentry, rfl, rfl⟩
    exact ⟨entry, mem_posted_take.mpr ⟨hentry, htaken.2⟩, rfl, rfl⟩
  taken_lt := fun other index htaken ↦ by
    rw [accepted_take]
    rcases mem_taken_take.mp htaken with hbefore | ⟨rfl, rfl⟩
    · exact hcarried.taken_lt other index hbefore
    · exact hposition

/-- A step of a transport that posts nothing accepts nothing. -/
theorem accepted_step {alloc : Allocator} {protocol : TcpMessageProtocol}
    {transport next : Transport} {action : TransportAction}
    (hpost : ∀ msg, action ≠ .sender (.post msg))
    (hstep : transport.step alloc protocol action = some next) :
    next.sender.accepted = transport.sender.accepted := by
  cases action with
  | sender action =>
    obtain ⟨sender, hsender, rfl⟩ := Option.map_eq_some_iff.mp hstep
    rcases (Transport.log_step hsender).2 with heq | ⟨msg, rfl, -⟩
    · exact heq
    · exact absurd rfl (hpost msg)
  | recv len =>
    simp only [Transport.step] at hstep
    split_ifs at hstep
    obtain ⟨outcome, -, rfl⟩ := Option.map_eq_some_iff.mp hstep
    rfl
  | close =>
    cases hstep
    rfl

/-- What a step of a wire is. -/
theorem step_cases {action : TransportAction} {next : Network Conn}
    (hstep : network.step readers route action = some next) :
    (∀ msg, action ≠ .sender (.post msg)) ∧ ∃ transport,
      (network.wires route).transport.step (readers route.1).alloc (readers route.1).protocol
          action = some transport ∧
        next = { network with
          wires := Function.update network.wires route
            { network.wires route with transport := transport } } := by
  unfold step at hstep
  split at hstep
  · cases hstep
  · rename_i hpost
    obtain ⟨transport, htransport, rfl⟩ := Option.map_eq_some_iff.mp hstep
    exact ⟨hpost, transport, htransport, rfl⟩

theorem Carried.step (hcarried : network.Carried readers) {action : TransportAction}
    {next : Network Conn} (hstep : network.step readers route action = some next) :
    next.Carried readers ∧ next.posted = network.posted := by
  obtain ⟨hpost, transport, htransport, rfl⟩ := step_cases hstep
  have haccepted : ∀ other, (Function.update network.wires route
      { network.wires route with transport := transport } other).accepted =
        (network.wires other).accepted := by
    intro other
    by_cases hother : other = route
    · subst hother
      rw [Function.update_self]
      exact accepted_step hpost htransport
    · rw [Function.update_of_ne hother]
  have htaken : ∀ other, (Function.update network.wires route
      { network.wires route with transport := transport } other).taken =
        (network.wires other).taken := by
    intro other
    by_cases hother : other = route
    · subst hother
      rw [Function.update_self]
    · rw [Function.update_of_ne hother]
  refine ⟨⟨fun other ↦ ?_, fun entry hentry ↦ ?_, fun other position msg hmsg hnot ↦ ?_,
    fun other position hmem ↦ ?_⟩, rfl⟩
  · by_cases hother : other = route
    · subst hother
      simp only [Function.update_self]
      refine (hcarried.follows other).step ?_ htransport
      unfold TransportAction.PostsFrames
      split
      · exact absurd rfl (hpost _)
      · trivial
    · simp only [Function.update_of_ne hother]
      exact hcarried.follows other
  · rw [haccepted, htaken]
    exact hcarried.recorded entry hentry
  · rw [haccepted] at hmsg
    rw [htaken] at hnot
    exact hcarried.listed other position msg hmsg hnot
  · rw [htaken] at hmem
    rw [haccepted]
    exact hcarried.taken_lt other position hmem

/-- The call of a message is the one of the record. -/
theorem origin_eq_some {position tag : ℕ} (horigin : network.origin route position = some tag) :
    ∃ entry ∈ network.posted, entry.route = route ∧ entry.position = position ∧
      entry.tag = tag := by
  obtain ⟨entry, hfind, htag⟩ := Option.map_eq_some_iff.mp horigin
  have hkey := List.find?_some hfind
  rw [decide_eq_true_eq] at hkey
  exact ⟨entry, List.mem_of_find?_eq_some hfind, hkey.1, hkey.2, htag⟩

/-- A message that has arrived for a call is the one that was posted for it. -/
theorem Carried.arrived (hcarried : network.Carried readers) {position : ℕ} {msg : TcpMessage}
    (harrived : (network.wires route).arrived position = some msg) {tag : ℕ}
    (horigin : network.origin route position = some tag) :
    ⟨route, position, tag, msg⟩ ∈ network.posted := by
  obtain ⟨hmsg, -⟩ := (hcarried.follows route).accepted_of_arrived harrived
  obtain ⟨entry, hentry, rfl, rfl, rfl⟩ := origin_eq_some horigin
  have hposted := (hcarried.recorded entry hentry).1
  obtain rfl := Option.some.inj (hposted.symm.trans hmsg)
  exact hentry

/-- A message that has arrived belongs to a call, or is a heartbeat to the server. -/
theorem Carried.origin_of_arrived (hcarried : network.Carried readers) {position : ℕ}
    {msg : TcpMessage} (harrived : (network.wires route).arrived position = some msg) :
    (network.origin route position).isSome ∨
      route.1 = .toServer ∧ (readers .toServer).protocol.isHeartbeat msg = true := by
  obtain ⟨hmsg, htaken⟩ := (hcarried.follows route).accepted_of_arrived harrived
  refine (hcarried.listed route position msg hmsg htaken).imp_left ?_
  rintro ⟨entry, hentry, hkey⟩
  rw [origin, Option.isSome_map, List.find?_isSome]
  exact ⟨entry, hentry, decide_eq_true hkey⟩

end Network

end TszyUlt.Lygc
