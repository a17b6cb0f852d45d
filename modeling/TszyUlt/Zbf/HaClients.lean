import TszyUlt.Lib.RoundRobin
import TszyUlt.Zbf.AsyncClient

/-!
# The asynchronous client of several servers

`zbf/socket_tcp_v5.hpp`: `tcpsock_ha_asynclt` with `getClient` and `post`. It has a client for each
server. A post goes to the next client, from a cursor on, that is connected and not closed, and
fails when there is none or when the write queue of that client is full; the other clients are not
tried then.

`getClient_eq_none_iff` says that the search finds a client if any can be used, and `post_rc` when a
post succeeds.

Scope. `disconnect`, which deletes the clients, is not modelled: without it no client is removed,
and the cursor stays in the list or at its end (`cursor_le`).
-/

set_option autoImplicit false
set_option relaxedAutoImplicit false

namespace TszyUlt.Zbf

open Lib

/-- `POST_SUCCESS`. -/
def postSuccess : ℤ := 0

/-- `POST_FAIL`. -/
def postFail : ℤ := 1

/-- `isConnected` and not `isClosed`. -/
def AsyncClient.usable (client : AsyncClient) : Bool := client.write.fdOpen && !client.closed

/-- `tcpsock_asynclt::post`: the return code and the client afterwards. -/
def AsyncClient.post (client : AsyncClient) (msg : TcpMessage) : ℤ × AsyncClient :=
  let result := client.write.post msg
  (result.1,
    { client with
      write := result.2
      posted := if result.1 = 0 then client.posted ++ [msg] else client.posted })

theorem AsyncClient.step_post (alloc : Allocator) (protocol : TcpMessageProtocol) (fuel : ℕ)
    (client : AsyncClient) (msg : TcpMessage) :
    client.step alloc protocol fuel (.post msg) = some (client.post msg).2 := rfl

/-- `tcpsock_ha_asynclt`: its clients, and whose turn is next. -/
structure HaClients where
  clients : List AsyncClient
  cltCursor : ℕ
  cursor_le : cltCursor ≤ clients.length

namespace HaClients

/-- Without clients. -/
def new : HaClients := ⟨[], 0, Nat.le_refl 0⟩

/-- `addConnect`, with what became of the first attempt to connect. -/
def addConnect (ha : HaClients) (client : AsyncClient) : HaClients where
  clients := ha.clients ++ [client]
  cltCursor := ha.cltCursor
  cursor_le := by
    rw [List.length_append]
    exact Nat.le_add_right_of_le ha.cursor_le

/-- The client at a position changes. -/
def setClient (ha : HaClients) (i : ℕ) (client : AsyncClient) : HaClients where
  clients := ha.clients.set i client
  cltCursor := ha.cltCursor
  cursor_le := by
    rw [List.length_set]
    exact ha.cursor_le

/-- `getClient`: the position of the client that was found. -/
def getClient (ha : HaClients) : HaClients × Option ℕ :=
  ({ clients := ha.clients
     cltCursor := (scan ha.clients AsyncClient.usable ha.clients.length ha.cltCursor).1
     cursor_le := scan_cursor_le ha.cursor_le le_rfl },
    (scan ha.clients AsyncClient.usable ha.clients.length ha.cltCursor).2)

/-- The part of `post` after `getClient`. -/
def postTo (ha : HaClients) (i : ℕ) (msg : TcpMessage) : ℤ × HaClients :=
  match ha.clients[i]? with
  | none => (postFail, ha)
  | some client =>
    let result := client.post msg
    (if result.1 = 0 then postSuccess else postFail, ha.setClient i result.2)

/-- `post`. -/
def post (ha : HaClients) (msg : TcpMessage) : ℤ × HaClients :=
  match ha.getClient.2 with
  | none => (postFail, ha.getClient.1)
  | some i => ha.getClient.1.postTo i msg

/-- The client whose turn it is has room in its write queue. -/
def acceptsPost (ha : HaClients) : Bool :=
  match ha.getClient.2 with
  | none => false
  | some i => (ha.clients[i]?).any fun client ↦ client.write.wrQueue.length ≤ maxPendingMsg

/-- `getClient` finds a client if any can be used. -/
theorem getClient_eq_none_iff (ha : HaClients) :
    ha.getClient.2 = none ↔ ∀ client ∈ ha.clients, client.usable = false := by
  constructor
  · exact fun hnone ↦ scan_eq_none ha.cursor_le hnone
  · intro hall
    rw [← Option.not_isSome_iff_eq_none]
    intro hsome
    obtain ⟨i, hi⟩ := Option.isSome_iff_exists.mp hsome
    obtain ⟨client, hclient, husable⟩ := test_of_scan hi
    rw [hall client (List.mem_of_getElem? hclient)] at husable
    cases husable

/-- A post to a client succeeds if its write queue has room. -/
theorem postTo_rc {ha : HaClients} {i : ℕ} {client : AsyncClient}
    (hclient : ha.clients[i]? = some client) (msg : TcpMessage) :
    (ha.postTo i msg).1 =
      if client.write.wrQueue.length ≤ maxPendingMsg then postSuccess else postFail := by
  have hrc : (client.post msg).1 =
      if client.write.wrQueue.length ≤ maxPendingMsg then 0 else 1 := by
    show (client.write.post msg).1 = _
    unfold WriteSide.post
    split_ifs <;> first | rfl | omega
  rw [postTo, hclient]
  dsimp only
  rw [hrc]
  split_ifs <;> first | rfl | contradiction

/-- A post succeeds if the client whose turn it is has room. -/
theorem post_rc (ha : HaClients) (msg : TcpMessage) :
    (ha.post msg).1 = if ha.acceptsPost then postSuccess else postFail := by
  rw [post, acceptsPost]
  cases hfound : ha.getClient.2 with
  | none => rfl
  | some i =>
    obtain ⟨client, hclient, -⟩ := test_of_scan hfound
    have hsame : ha.getClient.1.clients[i]? = some client := hclient
    have hpost : (ha.getClient.1.postTo i msg).1 =
        if client.write.wrQueue.length ≤ maxPendingMsg then postSuccess else postFail :=
      postTo_rc hsame msg
    simp only [hpost, hclient, Option.any_some, decide_eq_true_eq]

end HaClients

end TszyUlt.Zbf
