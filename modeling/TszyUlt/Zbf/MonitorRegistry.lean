import Mathlib.Data.Finset.Erase
import Mathlib.Data.Finset.Insert
import TszyUlt.Lib.Table
import TszyUlt.Lib.Transition

/-!
# The monitored clients of the manager

`zbf/socket_tcp_v5.hpp`: `async_client_manager` with `monitor`, `addMonitored`, `checkAlive`,
`ioprocessor`, `onIOError` and `removeMonitored`, and `connect` of `tcpsock_client`. The monitor
thread connects the clients that are not monitored and registers them; the I/O thread takes out
those whose connection fails. The registry is two containers under one lock, `_monitorColl` and
`_fd2client`, and the key of the second is the descriptor of the client, which changes with every
connection. The steps of `connect` take no lock at all.

`RegistryInv` says why the two agree: what the monitor thread works on is not monitored (`Free`), so
that it alone changes the descriptor; what the I/O thread is about to remove is; and the descriptors
that the clients hold are open and distinct. `registryInv_step` is the step lemma, with a lemma for
each thread, and `registry_consistent` what follows for every run.

Scope. Clients are added at any time by other threads, which connect them before they append them to
the list of their `tcpsock_ha_asynclt`; the clients of a manager are not deleted while its threads
run. Other parts of the program open and close descriptors of their own. Which events the poll
reports, and what the system calls return, are inputs; the sent and received bytes are not modelled.
-/

set_option autoImplicit false
set_option relaxedAutoImplicit false

namespace TszyUlt.Zbf

open Lib

/-! ### The state -/

/-- Where a call of `connect` for a client stands. -/
inductive ConnectAt
  /-- No call, or the call has returned. -/
  | outside
  /-- In `addConnect`: the call has returned, and `push_back` is next. -/
  | returned
  /-- `_closed` is cleared; `disconnect` is next. -/
  | disconnecting
  /-- In `disconnect`: the descriptor is closed; `_fd` is reset next. -/
  | resetting
  /-- Before the call of `socket`. -/
  | opening
  /-- The socket is open, and the connection under way. -/
  | trying (fd : ℕ)
  deriving DecidableEq, Repr

/-- In a call of `connect`. -/
def ConnectAt.busy : ConnectAt → Bool
  | .outside | .returned => false
  | _ => true

/-- `tcpsock_asynclt`: `_ha`, `_fd`, `_closed`, and where a call of `connect` for it stands. -/
structure RegistryClient where
  haClt : ℕ
  fd : Option ℕ
  closed : Bool
  connect : ConnectAt
  deriving DecidableEq, Repr

namespace RegistryClient

/-- The open descriptor that is the client's own. -/
def holds (client : RegistryClient) : Option ℕ :=
  match client.connect with
  | .resetting => none
  | .trying fd => some fd
  | _ => client.fd

/-- Connected and not closed, with no call of `connect` under way. -/
structure Live (client : RegistryClient) (fd : ℕ) : Prop where
  connected : client.fd = some fd
  unclosed : client.closed = false
  outside : client.connect = .outside

end RegistryClient

/-- What the monitor thread does with a client. -/
inductive MonitorTask
  /-- `isMonitored` returned false; `isConnected` is next. -/
  | examining
  /-- The client is connected; `isClosed` is next. -/
  | testingClosed
  /-- The client is not connected, or closed; `connect` is next. -/
  | calling
  /-- In `connect`. -/
  | connecting
  /-- Before `addMonitored`. -/
  | adding
  /-- `isMonitored` returned true; `checkAlive` is next, which at most posts a heartbeat. -/
  | checking
  deriving DecidableEq, Repr

/-- What is left of a round: whether `checkAlive` is due, the clients, and the `tcpsock_ha_asynclt`
after them. -/
structure MonitorRest where
  checkAlive : Bool
  clts : List ℕ
  haClts : List ℕ
  deriving DecidableEq, Repr

/-- Where the monitor thread stands. -/
inductive MonitorAt
  | starting
  /-- Before `_haClients` is copied. -/
  | copying (checkAlive : Bool)
  | visiting (rest : MonitorRest)
  | working (task : MonitorTask) (clt : ℕ) (rest : MonitorRest)
  | exited
  deriving DecidableEq, Repr

/-- What is left of the round of the monitor thread. -/
def MonitorAt.rest : MonitorAt → MonitorRest
  | .visiting rest | .working _ _ rest => rest
  | _ => ⟨false, [], []⟩

/-- What the poll reports for a descriptor, with the results of the calls that follow. -/
inductive PollKind
  /-- Data was read; whether the receive cache takes it. -/
  | received (cached : Bool)
  /-- `EAGAIN`. -/
  | again
  /-- The connection is at its end, or an error occurred. -/
  | broken
  /-- Writable; whether `_SendData` succeeds. -/
  | writable (sent : Bool)
  deriving DecidableEq, Repr

/-- An event of the poll. -/
structure PollEvent where
  fd : ℕ
  kind : PollKind
  deriving DecidableEq, Repr

/-- Where the I/O thread stands, with the events still to handle. -/
inductive RegistryIo
  | starting
  /-- In `sp_wait`. -/
  | waiting
  | handling (events : List PollEvent)
  /-- Before `getClientByFd`. -/
  | locating (event : PollEvent) (events : List PollEvent)
  /-- After `getClientByFd`. -/
  | found (event : PollEvent) (asynclt : Option ℕ) (events : List PollEvent)
  /-- `isMonitored` returned true; the data is cached or sent next. -/
  | serving (event : PollEvent) (clt : ℕ) (events : List PollEvent)
  /-- In `onIOError`, before `isMonitored`. -/
  | failing (asynclt : Option ℕ) (events : List PollEvent)
  /-- In `onIOError`, before `removeMonitored`. -/
  | removing (clt : ℕ) (events : List PollEvent)
  | exited
  deriving DecidableEq, Repr

/-- `async_client_manager`, the clients by their numbers, and the open descriptors. -/
structure MonitorRegistry where
  clients : List RegistryClient
  /-- `_clients` of each `tcpsock_ha_asynclt`. -/
  haClts : List (List ℕ)
  /-- `_haClients`. -/
  haClients : List ℕ
  monitorColl : Finset ℕ
  fd2client : Table ℕ ℕ
  openFds : Finset ℕ
  /-- The open descriptors that belong to other parts of the program. -/
  otherFds : Finset ℕ
  monitor : MonitorAt
  checkAliveCounter : ℕ
  io : RegistryIo
  shutdown : Bool

/-- The steps of the threads. -/
inductive RegistryAction
  | newHaClt
  | manageClient (haClt : ℕ)
  /-- `addConnect`: a new client, and the call of its `connect`. -/
  | addConnect (haClt : ℕ)
  /-- The end of `addConnect`. -/
  | pushBack (clt : ℕ)
  /-- `disconnect` closes the descriptor, if there is one. -/
  | closeFd (clt : ℕ)
  /-- `disconnect` resets `_fd`. -/
  | resetFd (clt : ℕ)
  /-- `socket`, which may fail. -/
  | openSocket (clt : ℕ) (fd : Option ℕ)
  /-- The end of `connect`. -/
  | finish (clt : ℕ) (success : Bool)
  | monitor (spAdded : Bool)
  /-- `sp_wait` returns, with an error or with events. -/
  | spWait (events : Option (List PollEvent))
  | io
  | openOther (fd : ℕ)
  | closeOther (fd : ℕ)
  | stop
  deriving DecidableEq, Repr

namespace MonitorRegistry

/-- `3000/MonitorWait`. -/
def checkAliveInterval : ℕ := 60

/-- After `start`. -/
def new : MonitorRegistry where
  clients := []
  haClts := []
  haClients := []
  monitorColl := ∅
  fd2client := Table.empty
  openFds := ∅
  otherFds := ∅
  monitor := .starting
  checkAliveCounter := 0
  io := .starting
  shutdown := false

/-! ### The sections -/

/-- The record of a client changes. -/
def setClient (registry : MonitorRegistry) (clt : ℕ) (client : RegistryClient) : MonitorRegistry :=
  { registry with clients := registry.clients.set clt client }

/-- `addMonitored`, which the result of `sp_add` decides. -/
def addMonitored (registry : MonitorRegistry) (clt : ℕ) (client : RegistryClient)
    (spAdded : Bool) : MonitorRegistry :=
  match client.fd, spAdded with
  | some fd, true =>
    { registry with
      monitorColl := insert clt registry.monitorColl
      fd2client := registry.fd2client.insertNew fd clt }
  | _, _ => registry

/-- `removeMonitored`. -/
def removeMonitored (registry : MonitorRegistry) (clt : ℕ) (client : RegistryClient) :
    MonitorRegistry :=
  { registry with
    monitorColl := registry.monitorColl.erase clt
    fd2client :=
      match client.fd with
      | some fd => registry.fd2client.erase fd
      | none => registry.fd2client
    clients := registry.clients.set clt { client with closed := true } }

/-- `connect` is called: `_closed` is cleared. -/
def callConnect (registry : MonitorRegistry) (clt : ℕ) (client : RegistryClient) :
    MonitorRegistry :=
  registry.setClient clt { client with closed := false, connect := .disconnecting }

/-- `connect` returns, to the monitor thread or to `addConnect`. -/
def returnConnect (registry : MonitorRegistry) (clt : ℕ) (client : RegistryClient)
    (success : Bool) : MonitorRegistry :=
  match registry.monitor with
  | .working .connecting other rest =>
    if other = clt then
      { registry.setClient clt { client with connect := .outside } with
        monitor := if success then .working .adding clt rest else .visiting rest }
    else registry.setClient clt { client with connect := .returned }
  | _ => registry.setClient clt { client with connect := .returned }

/-- A step of the monitor thread. -/
def monitorStep (registry : MonitorRegistry) (spAdded : Bool) : Option MonitorRegistry :=
  match registry.monitor with
  | .starting =>
    if registry.shutdown then some { registry with monitor := .exited }
    else if registry.checkAliveCounter + 1 ≥ checkAliveInterval then
      some { registry with monitor := .copying true, checkAliveCounter := 0 }
    else
      some { registry with
        monitor := .copying false
        checkAliveCounter := registry.checkAliveCounter + 1 }
  | .copying checkAlive =>
    some { registry with monitor := .visiting ⟨checkAlive, [], registry.haClients⟩ }
  | .visiting ⟨_, [], []⟩ => some { registry with monitor := .starting }
  | .visiting ⟨checkAlive, [], haClt :: haClts⟩ =>
    some { registry with
      monitor := .visiting ⟨checkAlive, (registry.haClts[haClt]?).getD [], haClts⟩ }
  | .visiting ⟨checkAlive, clt :: clts, haClts⟩ =>
    if clt ∈ registry.monitorColl then
      if checkAlive then
        some { registry with monitor := .working .checking clt ⟨checkAlive, clts, haClts⟩ }
      else some { registry with monitor := .visiting ⟨checkAlive, clts, haClts⟩ }
    else some { registry with monitor := .working .examining clt ⟨checkAlive, clts, haClts⟩ }
  | .working .examining clt rest =>
    (registry.clients[clt]?).map fun client ↦
      { registry with
        monitor := .working (if client.fd.isSome then .testingClosed else .calling) clt rest }
  | .working .testingClosed clt rest =>
    (registry.clients[clt]?).map fun client ↦
      { registry with
        monitor := .working (if client.closed then .calling else .adding) clt rest }
  | .working .calling clt rest =>
    (registry.clients[clt]?).map fun client ↦
      { registry.callConnect clt client with monitor := .working .connecting clt rest }
  -- the steps of `connect` are actions of their own
  | .working .connecting _ _ => none
  | .working .adding clt rest =>
    (registry.clients[clt]?).map fun client ↦
      { registry.addMonitored clt client spAdded with monitor := .visiting rest }
  | .working .checking _ rest => some { registry with monitor := .visiting rest }
  | .exited => none

/-- The client that `getClientByFd` returned is monitored: `isMonitored`. -/
def isMonitored (registry : MonitorRegistry) (asynclt : Option ℕ) : Option ℕ :=
  asynclt.filter fun clt ↦ clt ∈ registry.monitorColl

/-- A step of the I/O thread. -/
def ioStep (registry : MonitorRegistry) : Option MonitorRegistry :=
  match registry.io with
  | .starting => some { registry with io := if registry.shutdown then .exited else .waiting }
  | .waiting => none
  | .handling [] => some { registry with io := .starting }
  | .handling (event :: events) =>
    some { registry with
      io := if registry.shutdown then .starting else .locating event events }
  | .locating event events =>
    some { registry with io := .found event (registry.fd2client event.fd) events }
  | .found event asynclt events =>
    match event.kind with
    | .received _ | .writable _ =>
      match registry.isMonitored asynclt with
      | some clt => some { registry with io := .serving event clt events }
      | none => some { registry with io := .handling events }
    | .again => some { registry with io := .handling events }
    | .broken => some { registry with io := .failing asynclt events }
  | .serving event clt events =>
    (registry.clients[clt]?).map fun client ↦
      match event.kind with
      | .received cached =>
        { registry with
          io := if client.closed || !cached then .failing (some clt) events else .handling events }
      | .writable sent =>
        { registry with
          io := if client.closed || sent then .handling events else .failing (some clt) events }
      | _ => { registry with io := .handling events }
  | .failing asynclt events =>
    match registry.isMonitored asynclt with
    | some clt => some { registry with io := .removing clt events }
    | none => some { registry with io := .handling events }
  | .removing clt events =>
    (registry.clients[clt]?).map fun client ↦
      { registry.removeMonitored clt client with io := .handling events }
  | .exited => none

/-- One step. -/
def step (registry : MonitorRegistry) : RegistryAction → Option MonitorRegistry
  | .newHaClt => some { registry with haClts := registry.haClts ++ [[]] }
  | .manageClient haClt =>
    if haClt < registry.haClts.length then
      some { registry with haClients := registry.haClients ++ [haClt] }
    else none
  | .addConnect haClt =>
    if haClt < registry.haClts.length then
      some { registry with
        clients := registry.clients ++ [⟨haClt, none, false, .disconnecting⟩] }
    else none
  | .pushBack clt =>
    match registry.clients[clt]? with
    | some ⟨haClt, fd, closed, .returned⟩ =>
      (registry.haClts[haClt]?).map fun clts ↦
        { registry.setClient clt ⟨haClt, fd, closed, .outside⟩ with
          haClts := registry.haClts.set haClt (clts ++ [clt]) }
    | _ => none
  | .closeFd clt =>
    match registry.clients[clt]? with
    | some ⟨haClt, some fd, closed, .disconnecting⟩ =>
      some { registry.setClient clt ⟨haClt, some fd, closed, .resetting⟩ with
        openFds := registry.openFds.erase fd }
    | some ⟨haClt, none, closed, .disconnecting⟩ =>
      some (registry.setClient clt ⟨haClt, none, closed, .opening⟩)
    | _ => none
  | .resetFd clt =>
    match registry.clients[clt]? with
    | some ⟨haClt, _, closed, .resetting⟩ =>
      some (registry.setClient clt ⟨haClt, none, closed, .opening⟩)
    | _ => none
  | .openSocket clt fd =>
    match registry.clients[clt]?, fd with
    | some ⟨haClt, old, closed, .opening⟩, some fd =>
      -- the system does not return a descriptor that is open
      if fd ∈ registry.openFds then none
      else
        some { registry.setClient clt ⟨haClt, old, closed, .trying fd⟩ with
          openFds := insert fd registry.openFds }
    | some ⟨haClt, old, closed, .opening⟩, none =>
      some (registry.returnConnect clt ⟨haClt, old, closed, .opening⟩ false)
    | _, _ => none
  | .finish clt success =>
    match registry.clients[clt]? with
    | some ⟨haClt, old, closed, .trying fd⟩ =>
      if success then
        some (registry.returnConnect clt ⟨haClt, some fd, closed, .trying fd⟩ true)
      else
        some { registry.returnConnect clt ⟨haClt, old, closed, .trying fd⟩ false with
          openFds := registry.openFds.erase fd }
    | _ => none
  | .monitor spAdded => registry.monitorStep spAdded
  | .spWait events =>
    match registry.io with
    | .waiting =>
      some { registry with
        io := match events with
          | some events => .handling events
          | none => .exited }
    | _ => none
  | .io => registry.ioStep
  | .openOther fd =>
    if fd ∈ registry.openFds then none
    else
      some { registry with
        openFds := insert fd registry.openFds
        otherFds := insert fd registry.otherFds }
  | .closeOther fd =>
    if fd ∈ registry.otherFds then
      some { registry with
        openFds := registry.openFds.erase fd
        otherFds := registry.otherFds.erase fd }
    else none
  | .stop => some { registry with shutdown := true }

/-! ### The descriptors -/

section Fds

variable {clients : List RegistryClient} {openFds otherFds : Finset ℕ} {clt fd : ℕ}
  {client client' : RegistryClient}

/-- The clients hold distinct open descriptors, and none that belongs to another part of the
program; before it has a socket a client in `connect` has no descriptor. -/
structure FdsInv (clients : List RegistryClient) (openFds otherFds : Finset ℕ) : Prop where
  exclusive : Exclusive RegistryClient.holds clients
  opened : ∀ (clt : ℕ) (client : RegistryClient) (fd : ℕ), clients[clt]? = some client →
    client.holds = some fd → fd ∈ openFds ∧ fd ∉ otherFds
  reset : ∀ (clt : ℕ) (client : RegistryClient), clients[clt]? = some client →
    client.connect = .opening ∨ (∃ fd, client.connect = .trying fd) → client.fd = none
  others : otherFds ⊆ openFds

/-- A client changes, and holds nothing that it did not hold before. -/
theorem FdsInv.set (hfds : FdsInv clients openFds otherFds) (hclient : clients[clt]? = some client)
    (hholds : ∀ fd, client'.holds = some fd → client.holds = some fd)
    (hreset : client'.connect = .opening ∨ (∃ fd, client'.connect = .trying fd) →
      client'.fd = none) : FdsInv (clients.set clt client') openFds otherFds where
  exclusive := hfds.exclusive.set hclient fun fd hfd ↦ Or.inl (hholds fd hfd)
  opened := fun other found fd hfound hfd ↦ by
    rcases getElem?_set_cases hfound with ⟨-, rfl⟩ | ⟨-, hold⟩
    · exact hfds.opened clt client fd hclient (hholds fd hfd)
    · exact hfds.opened other found fd hold hfd
  reset := fun other found hfound hplace ↦ by
    rcases getElem?_set_cases hfound with ⟨-, rfl⟩ | ⟨-, hold⟩
    · exact hreset hplace
    · exact hfds.reset other found hold hplace
  others := hfds.others

/-- A client closes the descriptor that it holds. -/
theorem FdsInv.close (hfds : FdsInv clients openFds otherFds)
    (hclient : clients[clt]? = some client) (hheld : client.holds = some fd)
    (hholds : client'.holds = none)
    (hreset : client'.connect = .opening ∨ (∃ fd, client'.connect = .trying fd) →
      client'.fd = none) : FdsInv (clients.set clt client') (openFds.erase fd) otherFds where
  exclusive := hfds.exclusive.set hclient fun fd hfd ↦ by
    rw [hholds] at hfd
    cases hfd
  opened := fun other found fd' hfound hfd ↦ by
    rcases getElem?_set_cases hfound with ⟨-, rfl⟩ | ⟨hne, hold⟩
    · rw [hholds] at hfd
      cases hfd
    · obtain ⟨hopen, hother⟩ := hfds.opened other found fd' hold hfd
      refine ⟨Finset.mem_erase.mpr ⟨?_, hopen⟩, hother⟩
      rintro rfl
      exact hne (hfds.exclusive other clt found client fd' hold hclient hfd hheld)
  reset := (hfds.set hclient (fun fd hfd ↦ by rw [hholds] at hfd; cases hfd) hreset).reset
  others := fun other hother ↦ by
    refine Finset.mem_erase.mpr ⟨?_, hfds.others hother⟩
    rintro rfl
    exact (hfds.opened clt client other hclient hheld).2 hother

/-- A client opens a descriptor that was not open. -/
theorem FdsInv.openNew (hfds : FdsInv clients openFds otherFds)
    (hclient : clients[clt]? = some client) (hnew : fd ∉ openFds)
    (hholds : client'.holds = some fd) (hreset : client'.fd = none) :
    FdsInv (clients.set clt client') (insert fd openFds) otherFds where
  exclusive := hfds.exclusive.set hclient fun fd' hfd ↦ by
    rw [hholds] at hfd
    cases hfd
    exact Or.inr fun other found hfound hheld ↦
      hnew (hfds.opened other found fd hfound hheld).1
  opened := fun other found fd' hfound hfd ↦ by
    rcases getElem?_set_cases hfound with ⟨-, rfl⟩ | ⟨-, hold⟩
    · rw [hholds] at hfd
      cases hfd
      exact ⟨Finset.mem_insert_self fd openFds, fun hmem ↦ hnew (hfds.others hmem)⟩
    · obtain ⟨hopen, hother⟩ := hfds.opened other found fd' hold hfd
      exact ⟨Finset.mem_insert_of_mem hopen, hother⟩
  reset := fun other found hfound hplace ↦ by
    rcases getElem?_set_cases hfound with ⟨-, rfl⟩ | ⟨-, hold⟩
    · exact hreset
    · exact hfds.reset other found hold hplace
  others := fun other hother ↦ Finset.mem_insert_of_mem (hfds.others hother)

/-- A client is added that holds nothing. -/
theorem FdsInv.concat (hfds : FdsInv clients openFds otherFds) (hholds : client'.holds = none)
    (hreset : client'.fd = none) : FdsInv (clients ++ [client']) openFds otherFds where
  exclusive := hfds.exclusive.concat hholds
  opened := fun other found fd hfound hfd ↦ by
    rcases getElem?_concat_cases hfound with hold | ⟨-, rfl⟩
    · exact hfds.opened other found fd hold hfd
    · rw [hholds] at hfd
      cases hfd
  reset := fun other found hfound hplace ↦ by
    rcases getElem?_concat_cases hfound with hold | ⟨-, rfl⟩
    · exact hfds.reset other found hold hplace
    · exact hreset
  others := hfds.others

/-- Another part of the program opens a descriptor that was not open. -/
theorem FdsInv.openOther (hfds : FdsInv clients openFds otherFds) (hnew : fd ∉ openFds) :
    FdsInv clients (insert fd openFds) (insert fd otherFds) where
  exclusive := hfds.exclusive
  opened := fun clt client fd' hclient hfd ↦ by
    obtain ⟨hopen, hother⟩ := hfds.opened clt client fd' hclient hfd
    refine ⟨Finset.mem_insert_of_mem hopen, fun hmem ↦ ?_⟩
    rcases Finset.mem_insert.mp hmem with rfl | hold
    · exact hnew hopen
    · exact hother hold
  reset := hfds.reset
  others := Finset.insert_subset_insert fd hfds.others

/-- Another part of the program closes a descriptor of its own. -/
theorem FdsInv.closeOther (hfds : FdsInv clients openFds otherFds) (hmem : fd ∈ otherFds) :
    FdsInv clients (openFds.erase fd) (otherFds.erase fd) where
  exclusive := hfds.exclusive
  opened := fun clt client fd' hclient hfd ↦ by
    obtain ⟨hopen, hother⟩ := hfds.opened clt client fd' hclient hfd
    refine ⟨Finset.mem_erase.mpr ⟨?_, hopen⟩, fun hold ↦ hother (Finset.mem_of_mem_erase hold)⟩
    rintro rfl
    exact hother hmem
  reset := hfds.reset
  others := Finset.erase_subset_erase fd hfds.others

end Fds

/-! ### The entries -/

section Entries

variable {clients : List RegistryClient} {monitorColl : Finset ℕ} {fd2client : Table ℕ ℕ}
  {openFds otherFds : Finset ℕ} {clt fd : ℕ} {client client' : RegistryClient}

/-- The two containers agree, and what is in them is connected. -/
structure EntriesInv (clients : List RegistryClient) (monitorColl : Finset ℕ)
    (fd2client : Table ℕ ℕ) : Prop where
  entry : ∀ fd clt, fd2client fd = some clt →
    clt ∈ monitorColl ∧ ∃ client : RegistryClient, clients[clt]? = some client ∧ client.Live fd
  member : ∀ clt ∈ monitorColl, ∃ fd, fd2client fd = some clt

/-- A client that is not monitored changes. -/
theorem EntriesInv.set (hentries : EntriesInv clients monitorColl fd2client)
    (hfree : clt ∉ monitorColl) : EntriesInv (clients.set clt client') monitorColl fd2client where
  entry := fun fd other hother ↦ by
    obtain ⟨hmem, found, hfound, hlive⟩ := hentries.entry fd other hother
    have hne : clt ≠ other := by
      rintro rfl
      exact hfree hmem
    exact ⟨hmem, found, (List.getElem?_set_ne hne).trans hfound, hlive⟩
  member := hentries.member

theorem EntriesInv.concat (hentries : EntriesInv clients monitorColl fd2client) :
    EntriesInv (clients ++ [client']) monitorColl fd2client where
  entry := fun fd other hother ↦ by
    obtain ⟨hmem, found, hfound, hlive⟩ := hentries.entry fd other hother
    exact ⟨hmem, found, getElem?_concat_of_some hfound client', hlive⟩
  member := hentries.member

/-- A client that is in a call of `connect`, or not yet in a list, is not monitored. -/
theorem EntriesInv.notMem (hentries : EntriesInv clients monitorColl fd2client)
    (hclient : clients[clt]? = some client) (hplace : client.connect ≠ .outside) :
    clt ∉ monitorColl := by
  intro hmem
  obtain ⟨fd, hfd⟩ := hentries.member clt hmem
  obtain ⟨-, found, hfound, hlive⟩ := hentries.entry fd clt hfd
  cases hclient.symm.trans hfound
  exact hplace hlive.outside

theorem holds_of_live (hlive : client.Live fd) : client.holds = some fd := by
  rw [RegistryClient.holds, hlive.outside]
  exact hlive.connected

/-- `addMonitored` of a connected client. No entry has its descriptor as its key. -/
theorem EntriesInv.add (hentries : EntriesInv clients monitorColl fd2client)
    (hfds : FdsInv clients openFds otherFds) (hfree : clt ∉ monitorColl)
    (hclient : clients[clt]? = some client) (hlive : client.Live fd) :
    EntriesInv clients (insert clt monitorColl) (fd2client.insertNew fd clt) := by
  have hnone : fd2client fd = none := by
    cases hfound : fd2client fd with
    | none => rfl
    | some other =>
      obtain ⟨hmem, found, hother, hlive'⟩ := hentries.entry fd other hfound
      have heq := hfds.exclusive other clt found client fd hother hclient (holds_of_live hlive')
        (holds_of_live hlive)
      exact absurd (heq ▸ hmem) hfree
  rw [Table.insertNew_of_none hnone]
  refine ⟨fun fd' other hother ↦ ?_, fun other hmem ↦ ?_⟩
  · by_cases hkey : fd' = fd
    · subst hkey
      rw [Function.update_self] at hother
      cases hother
      exact ⟨Finset.mem_insert_self clt monitorColl, client, hclient, hlive⟩
    · rw [Function.update_of_ne hkey] at hother
      obtain ⟨hmem, hrest⟩ := hentries.entry fd' other hother
      exact ⟨Finset.mem_insert_of_mem hmem, hrest⟩
  · rcases Finset.mem_insert.mp hmem with rfl | hold
    · exact ⟨fd, Function.update_self ..⟩
    · obtain ⟨fd', hfd'⟩ := hentries.member other hold
      have hkey : fd' ≠ fd := by
        rintro rfl
        rw [hnone] at hfd'
        cases hfd'
      exact ⟨fd', (Function.update_of_ne hkey ..).trans hfd'⟩

/-- `removeMonitored` of a monitored client: its entry is found under its descriptor. -/
theorem EntriesInv.remove (hentries : EntriesInv clients monitorColl fd2client)
    (hmem : clt ∈ monitorColl) (hclient : clients[clt]? = some client) :
    EntriesInv (clients.set clt client') (monitorColl.erase clt)
      (match client.fd with
        | some fd => fd2client.erase fd
        | none => fd2client) := by
  obtain ⟨fd, hfd⟩ := hentries.member clt hmem
  obtain ⟨-, found, hfound, hlive⟩ := hentries.entry fd clt hfd
  cases hclient.symm.trans hfound
  rw [hlive.connected]
  show EntriesInv _ _ (fd2client.erase fd)
  refine ⟨fun fd' other hother ↦ ?_, fun other hother ↦ ?_⟩
  · have hkey : fd' ≠ fd := by
      rintro rfl
      rw [Table.erase_self] at hother
      cases hother
    rw [Table.erase_of_ne _ hkey] at hother
    obtain ⟨hmem', found, hfound', hlive'⟩ := hentries.entry fd' other hother
    have hne : other ≠ clt := by
      rintro rfl
      cases hfound.symm.trans hfound'
      exact hkey (Option.some.inj (hlive'.connected.symm.trans hlive.connected))
    exact ⟨Finset.mem_erase.mpr ⟨hne, hmem'⟩, found,
      (List.getElem?_set_ne (Ne.symm hne)).trans hfound', hlive'⟩
  · obtain ⟨hne, hold⟩ := Finset.mem_erase.mp hother
    obtain ⟨fd', hfd'⟩ := hentries.member other hold
    have hkey : fd' ≠ fd := by
      rintro rfl
      exact hne (Option.some.inj (hfd'.symm.trans hfd))
    exact ⟨fd', (Table.erase_of_ne _ hkey).trans hfd'⟩

end Entries

/-! ### The threads -/

section Threads

variable {clients : List RegistryClient} {monitorColl : Finset ℕ} {haClts : List (List ℕ)}
  {monitor monitor' : MonitorAt} {io io' : RegistryIo} {clt other : ℕ}
  {client client' : RegistryClient} {rest : MonitorRest}

/-- The client for which the monitor thread is in `connect`. -/
def connectingOf : MonitorAt → Option ℕ
  | .working .connecting clt _ => some clt
  | _ => none

/-- No call of `connect` for the client is under way, or it is the one of the monitor thread. -/
def Settled (clients : List RegistryClient) (monitor : MonitorAt) (clt : ℕ) : Prop :=
  ∃ client : RegistryClient, clients[clt]? = some client ∧
    (client.connect = .outside ∨ client.connect.busy = true ∧ connectingOf monitor = some clt)

/-- The client is not monitored, and no call of `connect` for it is under way. -/
def Free (clients : List RegistryClient) (monitorColl : Finset ℕ) (clt : ℕ)
    (property : RegistryClient → Prop) : Prop :=
  clt ∉ monitorColl ∧
    ∃ client : RegistryClient, clients[clt]? = some client ∧ client.connect = .outside ∧
      property client

/-- What the monitor thread knows of the client that it works on. -/
def TaskInv (clients : List RegistryClient) (monitorColl : Finset ℕ) (clt : ℕ) :
    MonitorTask → Prop
  | .examining | .calling => Free clients monitorColl clt fun _ ↦ True
  | .testingClosed => Free clients monitorColl clt fun client ↦ client.fd.isSome = true
  | .connecting => ∃ client : RegistryClient, clients[clt]? = some client ∧
      client.connect.busy = true ∧ client.closed = false
  | .adding => Free clients monitorColl clt fun client ↦
      client.fd.isSome = true ∧ client.closed = false
  | .checking => True

/-- The clients in the lists are settled, the monitor thread works on one that is not monitored, and
the I/O thread removes one that is. -/
structure ThreadsInv (clients : List RegistryClient) (monitorColl : Finset ℕ)
    (haClts : List (List ℕ)) (monitor : MonitorAt) (io : RegistryIo) : Prop where
  listed : ∀ clts ∈ haClts, ∀ clt ∈ clts, Settled clients monitor clt
  rest : ∀ clt ∈ monitor.rest.clts, Settled clients monitor clt
  task : ∀ task clt rest, monitor = .working task clt rest → TaskInv clients monitorColl clt task
  removing : ∀ clt events, io = .removing clt events → clt ∈ monitorColl

/-- A client changes; the others stay settled as long as the monitor thread connects none of
them. -/
theorem Settled.set (hsettled : Settled clients monitor other)
    (hclient : clients[clt]? = some client)
    (hself : Settled clients monitor clt → Settled (clients.set clt client') monitor' clt)
    (hmonitor : ∀ other ≠ clt, connectingOf monitor = some other →
      connectingOf monitor' = some other) : Settled (clients.set clt client') monitor' other := by
  by_cases heq : other = clt
  · subst heq
    exact hself hsettled
  · obtain ⟨found, hfound, hplace⟩ := hsettled
    refine ⟨found, (List.getElem?_set_ne (Ne.symm heq)).trans hfound, ?_⟩
    exact hplace.imp_right fun ⟨hbusy, hconnecting⟩ ↦ ⟨hbusy, hmonitor other heq hconnecting⟩

/-- Where the monitor thread is not in `connect`, a settled client is outside. -/
theorem Settled.outside (hsettled : Settled clients monitor clt)
    (hconnecting : connectingOf monitor = none) (monitor' : MonitorAt) :
    Settled clients monitor' clt := by
  obtain ⟨client, hclient, hplace⟩ := hsettled
  refine ⟨client, hclient, Or.inl ?_⟩
  rcases hplace with hout | ⟨-, hsome⟩
  · exact hout
  · rw [hconnecting] at hsome
    cases hsome

theorem Free.set {property : RegistryClient → Prop}
    (hfree : Free clients monitorColl other property) (hclient : clients[clt]? = some client)
    (hplace : client.connect ≠ .outside) :
    Free (clients.set clt client') monitorColl other property := by
  obtain ⟨hmem, found, hfound, hout, hproperty⟩ := hfree
  have hne : clt ≠ other := by
    rintro rfl
    cases hclient.symm.trans hfound
    exact hplace hout
  exact ⟨hmem, found, (List.getElem?_set_ne hne).trans hfound, hout, hproperty⟩

/-- What the monitor thread knows carries over where the client stays free, or in `connect`. -/
theorem TaskInv.map {clients' : List RegistryClient} {monitorColl' : Finset ℕ} {task : MonitorTask}
    (htask : TaskInv clients monitorColl clt task)
    (hfree : ∀ property, Free clients monitorColl clt property →
      Free clients' monitorColl' clt property)
    (hconnecting : ∀ client : RegistryClient, task = .connecting → clients[clt]? = some client →
      client.connect.busy = true → ∃ client' : RegistryClient, clients'[clt]? = some client' ∧
        client'.connect.busy = true ∧ client'.closed = client.closed) :
    TaskInv clients' monitorColl' clt task := by
  cases task with
  | examining => exact hfree _ htask
  | calling => exact hfree _ htask
  | testingClosed => exact hfree _ htask
  | adding => exact hfree _ htask
  | checking => trivial
  | connecting =>
    obtain ⟨client, hclient, hbusy, hclosed⟩ := htask
    obtain ⟨client', hclient', hbusy', hclosed'⟩ := hconnecting client rfl hclient hbusy
    exact ⟨client', hclient', hbusy', hclosed'.trans hclosed⟩

/-- A client in a call of `connect`, or not yet in a list, changes. -/
theorem TaskInv.set {task : MonitorTask} (htask : TaskInv clients monitorColl other task)
    (hclient : clients[clt]? = some client) (hplace : client.connect ≠ .outside)
    (hself : task = .connecting → other = clt → client.connect.busy = true →
      client'.connect.busy = true ∧ client'.closed = client.closed) :
    TaskInv (clients.set clt client') monitorColl other task := by
  refine htask.map (fun _ hfree ↦ hfree.set hclient hplace) fun found hconnecting hfound hbusy ↦ ?_
  by_cases heq : other = clt
  · subst heq
    cases hclient.symm.trans hfound
    exact ⟨client', getElem?_set_of_some hclient, hself hconnecting rfl hbusy⟩
  · exact ⟨found, (List.getElem?_set_ne (Ne.symm heq)).trans hfound, hbusy, rfl⟩

/-- A client in a call of `connect` changes; if the call is the one of the monitor thread, it goes
on. -/
theorem ThreadsInv.setConnecting (hthreads : ThreadsInv clients monitorColl haClts monitor io)
    (hclient : clients[clt]? = some client) (hbusy : client.connect.busy = true)
    (hstays : connectingOf monitor = some clt →
      client'.connect.busy = true ∧ client'.closed = client.closed) :
    ThreadsInv (clients.set clt client') monitorColl haClts monitor io := by
  have hplace : client.connect ≠ .outside := by
    intro hout
    rw [hout] at hbusy
    cases hbusy
  have hself : Settled clients monitor clt → Settled (clients.set clt client') monitor clt := by
    rintro ⟨found, hfound, hout | ⟨-, hconnecting⟩⟩
    · cases hclient.symm.trans hfound
      exact absurd hout hplace
    · exact ⟨client', getElem?_set_of_some hclient, Or.inr ⟨(hstays hconnecting).1, hconnecting⟩⟩
  exact {
    listed := fun clts hclts other hother ↦
      (hthreads.listed clts hclts other hother).set hclient hself fun _ _ h ↦ h
    rest := fun other hother ↦ (hthreads.rest other hother).set hclient hself fun _ _ h ↦ h
    task := fun task other rest hmonitor ↦
      (hthreads.task task other rest hmonitor).set hclient hplace fun htask heq _ ↦ by
        subst htask heq
        rw [hmonitor] at hstays
        exact hstays rfl
    removing := hthreads.removing }

/-- A call of `connect` goes on. -/
theorem ThreadsInv.setBusy (hthreads : ThreadsInv clients monitorColl haClts monitor io)
    (hclient : clients[clt]? = some client) (hbusy : client.connect.busy = true)
    (hbusy' : client'.connect.busy = true) (hclosed : client'.closed = client.closed) :
    ThreadsInv (clients.set clt client') monitorColl haClts monitor io :=
  hthreads.setConnecting hclient hbusy fun _ ↦ ⟨hbusy', hclosed⟩

/-- A call of `connect` that is not the one of the monitor thread returns. -/
theorem ThreadsInv.returnOther (hthreads : ThreadsInv clients monitorColl haClts monitor io)
    (hclient : clients[clt]? = some client) (hbusy : client.connect.busy = true)
    (hother : connectingOf monitor ≠ some clt) :
    ThreadsInv (clients.set clt client') monitorColl haClts monitor io :=
  hthreads.setConnecting hclient hbusy fun hconnecting ↦ absurd hconnecting hother

/-- The call of `connect` of the monitor thread returns. -/
theorem ThreadsInv.returnMonitor (hthreads : ThreadsInv clients monitorColl haClts monitor io)
    (hmonitor : monitor = .working .connecting clt rest) (hclient : clients[clt]? = some client)
    (hout : client'.connect = .outside) (hrest : monitor'.rest = rest)
    (htask : ∀ task other rest, monitor' = .working task other rest →
      TaskInv (clients.set clt client') monitorColl other task) :
    ThreadsInv (clients.set clt client') monitorColl haClts monitor' io := by
  have hset : ∀ other, Settled clients monitor other →
      Settled (clients.set clt client') monitor' other := by
    intro other hsettled
    refine hsettled.set hclient (fun _ ↦ ?_) fun other hne hconnecting ↦ ?_
    · exact ⟨client', getElem?_set_of_some hclient, Or.inl hout⟩
    · rw [hmonitor] at hconnecting
      exact absurd (Option.some.inj hconnecting).symm hne
  exact {
    listed := fun clts hclts other hother ↦ hset other (hthreads.listed clts hclts other hother)
    rest := fun other hother ↦ by
      rw [hrest] at hother
      exact hset other (hthreads.rest other (by rw [hmonitor]; exact hother))
    task := htask
    removing := hthreads.removing }

/-- The monitor thread calls `connect`. -/
theorem ThreadsInv.call (hthreads : ThreadsInv clients monitorColl haClts monitor io)
    (hmonitor : monitor = .working .calling clt rest) (hclient : clients[clt]? = some client)
    (hbusy : client'.connect.busy = true) (hclosed : client'.closed = false) :
    ThreadsInv (clients.set clt client') monitorColl haClts (.working .connecting clt rest) io := by
  have hset : ∀ other, Settled clients monitor other →
      Settled (clients.set clt client') (.working .connecting clt rest) other := by
    intro other hsettled
    refine hsettled.set hclient (fun _ ↦ ?_) fun other _ hconnecting ↦ ?_
    · exact ⟨client', getElem?_set_of_some hclient, Or.inr ⟨hbusy, rfl⟩⟩
    · rw [hmonitor] at hconnecting
      cases hconnecting
  exact {
    listed := fun clts hclts other hother ↦ hset other (hthreads.listed clts hclts other hother)
    rest := fun other hother ↦ hset other (hthreads.rest other (by rw [hmonitor]; exact hother))
    task := fun task other rest heq ↦ by
      cases heq
      exact ⟨client', getElem?_set_of_some hclient, hbusy, hclosed⟩
    removing := hthreads.removing }

/-- The monitor thread goes on, before and afterwards outside `connect`. -/
theorem ThreadsInv.setMonitor (hthreads : ThreadsInv clients monitorColl haClts monitor io)
    (hconnecting : connectingOf monitor = none)
    (hrest : ∀ clt ∈ monitor'.rest.clts, Settled clients monitor clt)
    (htask : ∀ task clt rest, monitor' = .working task clt rest →
      TaskInv clients monitorColl clt task) :
    ThreadsInv clients monitorColl haClts monitor' io where
  listed := fun clts hclts clt hclt ↦
    (hthreads.listed clts hclts clt hclt).outside hconnecting monitor'
  rest := fun clt hclt ↦ (hrest clt hclt).outside hconnecting monitor'
  task := htask
  removing := hthreads.removing

theorem ThreadsInv.setIo (hthreads : ThreadsInv clients monitorColl haClts monitor io)
    (hremoving : ∀ clt events, io' = .removing clt events → clt ∈ monitorColl) :
    ThreadsInv clients monitorColl haClts monitor io' :=
  { hthreads with removing := hremoving }

/-- A new client, for which `connect` is called. -/
theorem ThreadsInv.concat (hthreads : ThreadsInv clients monitorColl haClts monitor io) :
    ThreadsInv (clients ++ [client']) monitorColl haClts monitor io := by
  have hset : ∀ clt, Settled clients monitor clt → Settled (clients ++ [client']) monitor clt :=
    fun clt ⟨found, hfound, hplace⟩ ↦ ⟨found, getElem?_concat_of_some hfound client', hplace⟩
  have hfree : ∀ clt property, Free clients monitorColl clt property →
      Free (clients ++ [client']) monitorColl clt property :=
    fun clt property ⟨hmem, found, hfound, hrest⟩ ↦
      ⟨hmem, found, getElem?_concat_of_some hfound client', hrest⟩
  exact {
    listed := fun clts hclts clt hclt ↦ hset clt (hthreads.listed clts hclts clt hclt)
    rest := fun clt hclt ↦ hset clt (hthreads.rest clt hclt)
    task := fun task clt rest hmonitor ↦
      (hthreads.task task clt rest hmonitor).map (hfree clt) fun found _ hfound hbusy ↦
        ⟨found, getElem?_concat_of_some hfound client', hbusy, rfl⟩
    removing := hthreads.removing }

/-- `addConnect` appends its client to a list. -/
theorem ThreadsInv.pushBack (hthreads : ThreadsInv clients monitorColl haClts monitor io)
    (hclient : clients[clt]? = some client) (hreturned : client.connect = .returned)
    (hout : client'.connect = .outside) {haClt : ℕ} {clts : List ℕ}
    (hclts : haClts[haClt]? = some clts) :
    ThreadsInv (clients.set clt client') monitorColl (haClts.set haClt (clts ++ [clt])) monitor
      io := by
  have hnew : Settled (clients.set clt client') monitor clt :=
    ⟨client', getElem?_set_of_some hclient, Or.inl hout⟩
  have hset : ∀ other, Settled clients monitor other →
      Settled (clients.set clt client') monitor other :=
    fun other hsettled ↦ hsettled.set hclient (fun _ ↦ hnew) fun _ _ h ↦ h
  exact {
    listed := fun list hlist other hother ↦ by
      rcases List.mem_or_eq_of_mem_set hlist with hold | rfl
      · exact hset other (hthreads.listed list hold other hother)
      · rcases List.mem_append.mp hother with hold | hlast
        · exact hset other (hthreads.listed clts (List.mem_of_getElem? hclts) other hold)
        · rw [List.mem_singleton.mp hlast]
          exact hnew
    rest := fun other hother ↦ hset other (hthreads.rest other hother)
    task := fun task other rest hmonitor ↦
      (hthreads.task task other rest hmonitor).set hclient (by rw [hreturned]; decide)
        fun _ _ hbusy ↦ by rw [hreturned] at hbusy; cases hbusy
    removing := hthreads.removing }

/-- `removeMonitored`: the client is settled as before, and the monitor thread works on another
one. -/
theorem ThreadsInv.remove (hthreads : ThreadsInv clients monitorColl haClts monitor io)
    (hmem : clt ∈ monitorColl) (hclient : clients[clt]? = some client)
    (hout : client.connect = .outside) (hout' : client'.connect = .outside)
    (hio : ∀ other events, io' ≠ .removing other events) :
    ThreadsInv (clients.set clt client') (monitorColl.erase clt) haClts monitor io' := by
  have hset : ∀ other, Settled clients monitor other →
      Settled (clients.set clt client') monitor other :=
    fun other hsettled ↦ hsettled.set hclient
      (fun _ ↦ ⟨client', getElem?_set_of_some hclient, Or.inl hout'⟩) fun _ _ h ↦ h
  have hfree : ∀ other property, Free clients monitorColl other property →
      Free (clients.set clt client') (monitorColl.erase clt) other property := by
    rintro other property ⟨hnot, found, hfound, hrest⟩
    have hne : clt ≠ other := by
      rintro rfl
      exact hnot hmem
    exact ⟨fun h ↦ hnot (Finset.mem_of_mem_erase h), found,
      (List.getElem?_set_ne hne).trans hfound, hrest⟩
  exact {
    listed := fun clts hclts other hother ↦ hset other (hthreads.listed clts hclts other hother)
    rest := fun other hother ↦ hset other (hthreads.rest other hother)
    task := fun task other rest hmonitor ↦ by
      refine (hthreads.task task other rest hmonitor).map (hfree other)
        fun found _ hfound hbusy ↦ ?_
      have hne : clt ≠ other := by
        rintro rfl
        cases hclient.symm.trans hfound
        rw [hout] at hbusy
        cases hbusy
      exact ⟨found, (List.getElem?_set_ne hne).trans hfound, hbusy, rfl⟩
    removing := fun other events heq ↦ absurd heq (hio other events) }

end Threads

/-! ### The invariant and its steps -/

variable {registry next : MonitorRegistry} {action : RegistryAction} {clt : ℕ}
  {client client' : RegistryClient}

/-- What holds in every state. -/
structure RegistryInv (registry : MonitorRegistry) : Prop where
  fds : FdsInv registry.clients registry.openFds registry.otherFds
  entries : EntriesInv registry.clients registry.monitorColl registry.fd2client
  threads : ThreadsInv registry.clients registry.monitorColl registry.haClts registry.monitor
    registry.io

theorem registryInv_new : new.RegistryInv where
  fds := {
    exclusive := fun _ _ _ _ _ hfound ↦ nomatch hfound
    opened := fun _ _ _ hfound ↦ nomatch hfound
    reset := fun _ _ hfound ↦ nomatch hfound
    others := Finset.Subset.refl ∅ }
  entries := ⟨fun _ _ hfound ↦ (nomatch hfound), fun _ hmem ↦ absurd hmem (Finset.notMem_empty _)⟩
  threads := {
    listed := fun _ hmem ↦ absurd hmem List.not_mem_nil
    rest := fun _ hmem ↦ absurd hmem List.not_mem_nil
    task := fun _ _ _ heq ↦ nomatch heq
    removing := fun _ _ heq ↦ nomatch heq }

theorem holds_of_not_busy (hplace : client.connect.busy = false) : client.holds = client.fd := by
  unfold RegistryClient.holds
  split <;> rename_i heq
  · rw [heq] at hplace
    cases hplace
  · rw [heq] at hplace
    cases hplace
  · rfl

theorem not_opening_of_not_busy (hplace : client.connect.busy = false) :
    ¬(client.connect = .opening ∨ ∃ fd, client.connect = .trying fd) := by
  rintro (heq | ⟨fd, heq⟩)
  · rw [heq] at hplace
    cases hplace
  · rw [heq] at hplace
    cases hplace

theorem connect_ne_outside (hbusy : client.connect.busy = true) : client.connect ≠ .outside := by
  intro hout
  rw [hout] at hbusy
  cases hbusy

/-- `connect` returns: the client and the monitor thread afterwards. -/
theorem returnConnect_spec (client' : RegistryClient) (success : Bool) (hinv : registry.RegistryInv)
    (hclient : registry.clients[clt]? = some client) (hbusy : client.connect.busy = true)
    (hclosed : client'.closed = client.closed)
    (hsuccess : success = true → client'.fd.isSome = true) :
    ∃ place monitor, place.busy = false ∧
      registry.returnConnect clt client' success = { registry with
        clients := registry.clients.set clt { client' with connect := place }
        monitor := monitor } ∧
      ThreadsInv (registry.clients.set clt { client' with connect := place })
        registry.monitorColl registry.haClts monitor registry.io := by
  by_cases hconnecting : connectingOf registry.monitor = some clt
  · obtain ⟨rest, hmonitor⟩ : ∃ rest, registry.monitor = .working .connecting clt rest := by
      unfold connectingOf at hconnecting
      split at hconnecting
      · rename_i other rest heq
        cases hconnecting
        exact ⟨rest, heq⟩
      · cases hconnecting
    obtain ⟨found, hfound, -, hunclosed⟩ := hinv.threads.task _ _ _ hmonitor
    cases hclient.symm.trans hfound
    have hnot := hinv.entries.notMem hclient (connect_ne_outside hbusy)
    refine ⟨.outside, if success then .working .adding clt rest else .visiting rest, rfl, ?_, ?_⟩
    · simp only [returnConnect, hmonitor, if_true]
      rfl
    · refine hinv.threads.returnMonitor hmonitor hclient rfl ?_ fun task other rest' heq ↦ ?_
      · split <;> rfl
      · split at heq
        · rename_i hyes
          cases heq
          exact ⟨hnot, _, getElem?_set_of_some hclient, rfl, hsuccess hyes,
            hclosed.trans hunclosed⟩
        · cases heq
  · refine ⟨.returned, registry.monitor, rfl, ?_,
      hinv.threads.returnOther hclient hbusy hconnecting⟩
    unfold returnConnect
    split
    · rename_i other rest heq
      rw [heq] at hconnecting
      rw [if_neg fun h ↦ hconnecting (congrArg some h)]
      rfl
    · rfl

/-- A call of `connect` goes on: the client is not monitored. -/
theorem RegistryInv.setBusy (hinv : registry.RegistryInv) (client' : RegistryClient)
    (hclient : registry.clients[clt]? = some client) (hbusy : client.connect.busy = true)
    (hbusy' : client'.connect.busy = true) (hclosed : client'.closed = client.closed)
    {openFds : Finset ℕ}
    (hfds : FdsInv (registry.clients.set clt client') openFds registry.otherFds) :
    RegistryInv { registry.setClient clt client' with openFds := openFds } where
  fds := hfds
  entries := hinv.entries.set (hinv.entries.notMem hclient (connect_ne_outside hbusy))
  threads := hinv.threads.setBusy hclient hbusy hbusy' hclosed

theorem RegistryInv.closeFd (hinv : registry.RegistryInv)
    (hstep : step registry (.closeFd clt) = some next) : next.RegistryInv := by
  simp only [step] at hstep
  split at hstep
  · rename_i haClt fd closed hclient
    cases hstep
    refine hinv.setBusy ⟨haClt, some fd, closed, .resetting⟩ hclient rfl rfl rfl
      (hinv.fds.close hclient rfl rfl ?_)
    rintro (h | ⟨fd', h⟩) <;> cases h
  · rename_i haClt closed hclient
    cases hstep
    exact hinv.setBusy ⟨haClt, none, closed, .opening⟩ hclient rfl rfl rfl
      (hinv.fds.set hclient (fun fd hfd ↦ nomatch hfd) fun _ ↦ rfl)
  · cases hstep

theorem RegistryInv.resetFd (hinv : registry.RegistryInv)
    (hstep : step registry (.resetFd clt) = some next) : next.RegistryInv := by
  simp only [step] at hstep
  split at hstep
  · rename_i haClt fd closed hclient
    cases hstep
    exact hinv.setBusy ⟨haClt, none, closed, .opening⟩ hclient rfl rfl rfl
      (hinv.fds.set hclient (fun fd hfd ↦ nomatch hfd) fun _ ↦ rfl)
  · cases hstep

theorem RegistryInv.openSocket (hinv : registry.RegistryInv) {fd : Option ℕ}
    (hstep : step registry (.openSocket clt fd) = some next) : next.RegistryInv := by
  simp only [step] at hstep
  split at hstep
  · rename_i haClt old closed fd hclient
    obtain ⟨hnew, heq⟩ := Option.ite_none_left_eq_some.mp hstep
    cases heq
    have hold := hinv.fds.reset clt _ hclient (Or.inl rfl)
    exact hinv.setBusy ⟨haClt, old, closed, .trying fd⟩ hclient rfl rfl rfl
      (hinv.fds.openNew hclient hnew rfl hold)
  · rename_i haClt old closed hclient
    cases hstep
    obtain ⟨place, monitor, hplace, heq, hthreads⟩ :=
      returnConnect_spec ⟨haClt, old, closed, .opening⟩ false hinv hclient rfl rfl
        fun h ↦ nomatch h
    rw [heq]
    have hnot := hinv.entries.notMem hclient (connect_ne_outside rfl)
    refine ⟨hinv.fds.set hclient (fun fd hfd ↦ ?_)
      fun h ↦ absurd h (not_opening_of_not_busy hplace), hinv.entries.set hnot, hthreads⟩
    rwa [holds_of_not_busy hplace] at hfd
  · cases hstep

theorem RegistryInv.finish (hinv : registry.RegistryInv) {success : Bool}
    (hstep : step registry (.finish clt success) = some next) : next.RegistryInv := by
  simp only [step] at hstep
  split at hstep
  · rename_i haClt old closed fd hclient
    have hnot := hinv.entries.notMem hclient (connect_ne_outside rfl)
    split at hstep
    · rename_i hsuccess
      cases hstep
      obtain ⟨place, monitor, hplace, heq, hthreads⟩ :=
        returnConnect_spec ⟨haClt, some fd, closed, .trying fd⟩ true hinv hclient rfl rfl
          fun _ ↦ rfl
      rw [heq]
      refine ⟨hinv.fds.set hclient (fun fd' hfd ↦ ?_)
        fun h ↦ absurd h (not_opening_of_not_busy hplace), hinv.entries.set hnot, hthreads⟩
      rwa [holds_of_not_busy hplace] at hfd
    · cases hstep
      obtain ⟨place, monitor, hplace, heq, hthreads⟩ :=
        returnConnect_spec ⟨haClt, old, closed, .trying fd⟩ false hinv hclient rfl rfl
          fun h ↦ nomatch h
      have hold := hinv.fds.reset clt _ hclient (Or.inr ⟨fd, rfl⟩)
      rw [heq]
      refine ⟨hinv.fds.close hclient rfl ?_ fun h ↦ absurd h (not_opening_of_not_busy hplace),
        hinv.entries.set hnot, hthreads⟩
      rw [holds_of_not_busy hplace]
      exact hold
  · cases hstep

/-- The monitor thread goes on, and changes nothing else. -/
theorem RegistryInv.setMonitor (hinv : registry.RegistryInv) {monitor : MonitorAt} {counter : ℕ}
    (hconnecting : connectingOf registry.monitor = none)
    (hrest : ∀ clt ∈ monitor.rest.clts, Settled registry.clients registry.monitor clt)
    (htask : ∀ task clt rest, monitor = .working task clt rest →
      TaskInv registry.clients registry.monitorColl clt task) :
    RegistryInv { registry with monitor := monitor, checkAliveCounter := counter } where
  fds := hinv.fds
  entries := hinv.entries
  threads := hinv.threads.setMonitor hconnecting hrest htask

/-- A round visits the clients of the lists; the one that is not monitored is free. -/
theorem RegistryInv.visit (hinv : registry.RegistryInv) (rest : MonitorRest)
    (hmonitor : registry.monitor = .visiting ⟨rest.checkAlive, clt :: rest.clts, rest.haClts⟩) :
    (∀ other ∈ rest.clts, Settled registry.clients registry.monitor other) ∧
      (clt ∉ registry.monitorColl →
        Free registry.clients registry.monitorColl clt fun _ ↦ True) := by
  have hlist := hinv.threads.rest
  rw [hmonitor] at hlist
  rw [hmonitor]
  refine ⟨fun other hother ↦ hlist other (List.mem_cons_of_mem clt hother), fun hnot ↦ ?_⟩
  obtain ⟨client, hclient, hout | ⟨-, hconnecting⟩⟩ := hlist clt List.mem_cons_self
  · exact ⟨hnot, client, hclient, hout, trivial⟩
  · cases hconnecting

/-- The monitor thread goes on with the same round, and is not in `connect`. -/
theorem RegistryInv.setTask (hinv : registry.RegistryInv) {task : MonitorTask} {monitor : MonitorAt}
    {rest : MonitorRest} (hmonitor : registry.monitor = .working task clt rest)
    (hne : task ≠ .connecting) (hrest : monitor.rest = rest)
    (htask : ∀ task clt rest, monitor = .working task clt rest →
      TaskInv registry.clients registry.monitorColl clt task) :
    RegistryInv { registry with monitor := monitor } := by
  refine hinv.setMonitor ?_ (fun other hother ↦ ?_) htask
  · rw [hmonitor]
    cases task with
    | connecting => exact absurd rfl hne
    | examining => rfl
    | testingClosed => rfl
    | calling => rfl
    | adding => rfl
    | checking => rfl
  · rw [hrest] at hother
    exact hinv.threads.rest other (by rw [hmonitor]; exact hother)

/-- `isConnected` of a client that is not monitored. -/
theorem RegistryInv.examine (hinv : registry.RegistryInv) {rest : MonitorRest}
    (hmonitor : registry.monitor = .working .examining clt rest)
    (hclient : registry.clients[clt]? = some client) :
    RegistryInv { registry with
      monitor := .working (if client.fd.isSome then .testingClosed else .calling) clt rest } := by
  obtain ⟨hnot, found, hfound, hout, -⟩ := hinv.threads.task _ _ _ hmonitor
  cases hclient.symm.trans hfound
  refine hinv.setTask hmonitor (by decide) rfl fun _ _ _ heq ↦ ?_
  split at heq <;> cases heq
  · rename_i hsome
    exact ⟨hnot, client, hclient, hout, hsome⟩
  · exact ⟨hnot, client, hclient, hout, trivial⟩

/-- `isClosed` of a client that is not monitored. -/
theorem RegistryInv.testClosed (hinv : registry.RegistryInv) {rest : MonitorRest}
    (hmonitor : registry.monitor = .working .testingClosed clt rest)
    (hclient : registry.clients[clt]? = some client) :
    RegistryInv { registry with
      monitor := .working (if client.closed then .calling else .adding) clt rest } := by
  obtain ⟨hnot, found, hfound, hout, hsome⟩ := hinv.threads.task _ _ _ hmonitor
  cases hclient.symm.trans hfound
  refine hinv.setTask hmonitor (by decide) rfl fun _ _ _ heq ↦ ?_
  split at heq <;> cases heq
  · exact ⟨hnot, client, hclient, hout, trivial⟩
  · rename_i hclosed
    exact ⟨hnot, client, hclient, hout, hsome, Bool.eq_false_iff.mpr hclosed⟩

/-- The monitor thread calls `connect` of a client that is not monitored. -/
theorem RegistryInv.callConnect (hinv : registry.RegistryInv) {rest : MonitorRest}
    (hmonitor : registry.monitor = .working .calling clt rest)
    (hclient : registry.clients[clt]? = some client) :
    RegistryInv { registry.callConnect clt client with
      monitor := .working .connecting clt rest } := by
  obtain ⟨hnot, found, hfound, hout, -⟩ := hinv.threads.task _ _ _ hmonitor
  cases hclient.symm.trans hfound
  refine ⟨hinv.fds.set hclient (fun fd hfd ↦ ?_) ?_, hinv.entries.set hnot,
    hinv.threads.call hmonitor hclient rfl rfl⟩
  · rwa [RegistryClient.holds, hout]
  · rintro (h | ⟨fd, h⟩) <;> cases h

/-- `addMonitored` by the monitor thread. -/
theorem RegistryInv.addMonitored (hinv : registry.RegistryInv) {rest : MonitorRest}
    (hmonitor : registry.monitor = .working .adding clt rest)
    (hclient : registry.clients[clt]? = some client) (spAdded : Bool) :
    RegistryInv { registry.addMonitored clt client spAdded with monitor := .visiting rest } := by
  obtain ⟨hnot, found, hfound, hout, hfd, hclosed⟩ := hinv.threads.task _ _ _ hmonitor
  cases hclient.symm.trans hfound
  obtain ⟨fd, hfd⟩ := Option.isSome_iff_exists.mp hfd
  have hnext : RegistryInv { registry with monitor := .visiting rest } :=
    hinv.setTask hmonitor (by decide) rfl fun _ _ _ heq ↦ nomatch heq
  unfold MonitorRegistry.addMonitored
  split
  · rename_i fd' hfd'
    cases hfd.symm.trans hfd'
    refine ⟨hinv.fds, hinv.entries.add hinv.fds hnot hclient ⟨hfd, hclosed, hout⟩, ?_⟩
    exact { hnext.threads with
      task := fun _ _ _ heq ↦ nomatch heq
      removing := fun other events heq ↦
        Finset.mem_insert_of_mem (hnext.threads.removing other events heq) }
  · exact hnext

theorem RegistryInv.monitorStep (hinv : registry.RegistryInv) {spAdded : Bool}
    (hstep : registry.monitorStep spAdded = some next) : next.RegistryInv := by
  unfold MonitorRegistry.monitorStep at hstep
  split at hstep
  case h_1 hmonitor =>
    have hconnecting : connectingOf registry.monitor = none := by rw [hmonitor]; rfl
    split at hstep
    · cases hstep
      exact hinv.setMonitor hconnecting (fun _ h ↦ absurd h List.not_mem_nil)
        fun _ _ _ h ↦ nomatch h
    · split at hstep <;> cases hstep <;>
        exact hinv.setMonitor hconnecting (fun _ h ↦ absurd h List.not_mem_nil)
          fun _ _ _ h ↦ nomatch h
  case h_2 checkAlive hmonitor =>
    cases hstep
    exact hinv.setMonitor (by rw [hmonitor]; rfl) (fun _ h ↦ absurd h List.not_mem_nil)
      fun _ _ _ h ↦ nomatch h
  case h_3 checkAlive hmonitor =>
    cases hstep
    exact hinv.setMonitor (by rw [hmonitor]; rfl) (fun _ h ↦ absurd h List.not_mem_nil)
      fun _ _ _ h ↦ nomatch h
  case h_4 checkAlive haClt haClts hmonitor =>
    cases hstep
    refine hinv.setMonitor (by rw [hmonitor]; rfl) (fun clt hclt ↦ ?_) fun _ _ _ h ↦ nomatch h
    -- the list that is copied is one of the lists
    cases hlist : registry.haClts[haClt]? with
    | none =>
      rw [hlist] at hclt
      exact absurd hclt List.not_mem_nil
    | some clts =>
      rw [hlist] at hclt
      exact hinv.threads.listed clts (List.mem_of_getElem? hlist) clt hclt
  case h_5 checkAlive clt clts haClts hmonitor =>
    obtain ⟨hrest, hfree⟩ := hinv.visit ⟨checkAlive, clts, haClts⟩ hmonitor
    have hconnecting : connectingOf registry.monitor = none := by rw [hmonitor]; rfl
    split at hstep
    · split at hstep <;> cases hstep
      · exact hinv.setMonitor hconnecting hrest fun _ _ _ heq ↦ by cases heq; trivial
      · exact hinv.setMonitor hconnecting hrest fun _ _ _ heq ↦ nomatch heq
    · rename_i hnot
      cases hstep
      exact hinv.setMonitor hconnecting hrest fun _ _ _ heq ↦ by cases heq; exact hfree hnot
  case h_6 clt rest hmonitor =>
    obtain ⟨client, hclient, rfl⟩ := Option.map_eq_some_iff.mp hstep
    exact hinv.examine hmonitor hclient
  case h_7 clt rest hmonitor =>
    obtain ⟨client, hclient, rfl⟩ := Option.map_eq_some_iff.mp hstep
    exact hinv.testClosed hmonitor hclient
  case h_8 clt rest hmonitor =>
    obtain ⟨client, hclient, rfl⟩ := Option.map_eq_some_iff.mp hstep
    exact hinv.callConnect hmonitor hclient
  case h_9 => cases hstep
  case h_10 clt rest hmonitor =>
    obtain ⟨client, hclient, rfl⟩ := Option.map_eq_some_iff.mp hstep
    exact hinv.addMonitored hmonitor hclient spAdded
  case h_11 clt rest hmonitor =>
    cases hstep
    exact hinv.setTask hmonitor (by decide) rfl fun _ _ _ heq ↦ nomatch heq
  case h_12 => cases hstep

/-- The I/O thread goes on, and changes nothing else. -/
theorem RegistryInv.setIo (hinv : registry.RegistryInv) {io : RegistryIo}
    (hremoving : ∀ clt events, io = .removing clt events → clt ∈ registry.monitorColl) :
    RegistryInv { registry with io := io } where
  fds := hinv.fds
  entries := hinv.entries
  threads := hinv.threads.setIo hremoving

theorem mem_of_isMonitored {asynclt : Option ℕ}
    (hmonitored : registry.isMonitored asynclt = some clt) : clt ∈ registry.monitorColl := by
  rw [isMonitored, Option.filter_eq_some_iff, decide_eq_true_eq] at hmonitored
  exact hmonitored.2

/-- `removeMonitored` by the I/O thread. -/
theorem RegistryInv.removeMonitored (hinv : registry.RegistryInv) {events : List PollEvent}
    (hio : registry.io = .removing clt events) (hclient : registry.clients[clt]? = some client) :
    RegistryInv { registry.removeMonitored clt client with io := .handling events } := by
  have hmem := hinv.threads.removing clt events hio
  obtain ⟨fd, hfd⟩ := hinv.entries.member clt hmem
  obtain ⟨-, found, hfound, hlive⟩ := hinv.entries.entry fd clt hfd
  cases hclient.symm.trans hfound
  refine ⟨hinv.fds.set hclient (fun _ h ↦ h) ?_, hinv.entries.remove hmem hclient,
    hinv.threads.remove hmem hclient hlive.outside hlive.outside fun _ _ heq ↦ nomatch heq⟩
  exact hinv.fds.reset clt client hclient

theorem RegistryInv.ioStep (hinv : registry.RegistryInv) (hstep : registry.ioStep = some next) :
    next.RegistryInv := by
  unfold MonitorRegistry.ioStep at hstep
  split at hstep
  case h_1 =>
    cases hstep
    exact hinv.setIo fun clt events heq ↦ by split at heq <;> cases heq
  case h_2 => cases hstep
  case h_3 =>
    cases hstep
    exact hinv.setIo fun _ _ heq ↦ nomatch heq
  case h_4 =>
    cases hstep
    exact hinv.setIo fun clt events heq ↦ by split at heq <;> cases heq
  case h_5 =>
    cases hstep
    exact hinv.setIo fun _ _ heq ↦ nomatch heq
  case h_6 event asynclt events hio =>
    split at hstep
    · split at hstep <;> cases hstep <;> exact hinv.setIo fun _ _ heq ↦ nomatch heq
    · split at hstep <;> cases hstep <;> exact hinv.setIo fun _ _ heq ↦ nomatch heq
    · cases hstep
      exact hinv.setIo fun _ _ heq ↦ nomatch heq
    · cases hstep
      exact hinv.setIo fun _ _ heq ↦ nomatch heq
  case h_7 event clt events hio =>
    obtain ⟨client, -, rfl⟩ := Option.map_eq_some_iff.mp hstep
    split
    · exact hinv.setIo fun _ _ heq ↦ by split at heq <;> cases heq
    · exact hinv.setIo fun _ _ heq ↦ by split at heq <;> cases heq
    · exact hinv.setIo fun _ _ heq ↦ nomatch heq
  case h_8 asynclt events hio =>
    split at hstep
    · rename_i clt hmonitored
      cases hstep
      exact hinv.setIo fun _ _ heq ↦ by
        cases heq
        exact mem_of_isMonitored hmonitored
    · cases hstep
      exact hinv.setIo fun _ _ heq ↦ nomatch heq
  case h_9 clt events hio =>
    obtain ⟨client, hclient, rfl⟩ := Option.map_eq_some_iff.mp hstep
    exact hinv.removeMonitored hio hclient
  case h_10 => cases hstep

/-- `addConnect` makes a client and calls its `connect`. -/
theorem RegistryInv.addConnect (hinv : registry.RegistryInv) (haClt : ℕ) :
    RegistryInv { registry with
      clients := registry.clients ++ [⟨haClt, none, false, .disconnecting⟩] } where
  fds := hinv.fds.concat rfl rfl
  entries := hinv.entries.concat
  threads := hinv.threads.concat

theorem RegistryInv.pushBack (hinv : registry.RegistryInv)
    (hstep : step registry (.pushBack clt) = some next) : next.RegistryInv := by
  simp only [step] at hstep
  split at hstep
  · rename_i haClt fd closed hclient
    obtain ⟨clts, hclts, rfl⟩ := Option.map_eq_some_iff.mp hstep
    refine ⟨hinv.fds.set hclient (fun _ h ↦ h) ?_,
      hinv.entries.set (hinv.entries.notMem hclient (by simp)),
      hinv.threads.pushBack hclient rfl rfl hclts⟩
    rintro (h | ⟨fd', h⟩) <;> cases h
  · cases hstep

/-- Every step of every thread keeps the invariant. -/
theorem registryInv_step (hinv : registry.RegistryInv) (hstep : step registry action = some next) :
    next.RegistryInv := by
  cases action with
  | newHaClt =>
    cases hstep
    refine ⟨hinv.fds, hinv.entries, { hinv.threads with listed := fun clts hclts ↦ ?_ }⟩
    rcases List.mem_append.mp hclts with hold | hnew
    · exact hinv.threads.listed clts hold
    · rw [List.mem_singleton.mp hnew]
      exact fun _ h ↦ absurd h List.not_mem_nil
  | manageClient haClt =>
    obtain ⟨-, heq⟩ := Option.ite_none_right_eq_some.mp hstep
    cases heq
    exact ⟨hinv.fds, hinv.entries, hinv.threads⟩
  | addConnect haClt =>
    obtain ⟨-, heq⟩ := Option.ite_none_right_eq_some.mp hstep
    cases heq
    exact hinv.addConnect haClt
  | pushBack clt => exact hinv.pushBack hstep
  | closeFd clt => exact hinv.closeFd hstep
  | resetFd clt => exact hinv.resetFd hstep
  | openSocket clt fd => exact hinv.openSocket hstep
  | finish clt success => exact hinv.finish hstep
  | monitor spAdded => exact hinv.monitorStep hstep
  | spWait events =>
    simp only [step] at hstep
    split at hstep
    · cases hstep
      exact hinv.setIo fun _ _ heq ↦ by split at heq <;> cases heq
    · cases hstep
  | io => exact hinv.ioStep hstep
  | openOther fd =>
    obtain ⟨hnew, heq⟩ := Option.ite_none_left_eq_some.mp hstep
    cases heq
    exact ⟨hinv.fds.openOther hnew, hinv.entries, hinv.threads⟩
  | closeOther fd =>
    obtain ⟨hmem, heq⟩ := Option.ite_none_right_eq_some.mp hstep
    cases heq
    exact ⟨hinv.fds.closeOther hmem, hinv.entries, hinv.threads⟩
  | stop =>
    cases hstep
    exact ⟨hinv.fds, hinv.entries, hinv.threads⟩

/-! ### Runs -/

/-- `_fd` of a client. -/
def fdOf (registry : MonitorRegistry) (clt : ℕ) : Option ℕ :=
  (registry.clients[clt]?).bind RegistryClient.fd

/-- A client is monitored exactly if `_fd2client` has it under its current descriptor, it is
connected and not closed then, no two of them share a descriptor, and `connect` runs only for
clients that are not monitored. -/
structure RegistryConsistent (registry : MonitorRegistry) : Prop where
  agree : ∀ clt, clt ∈ registry.monitorColl ↔
    ∃ fd, registry.fdOf clt = some fd ∧ registry.fd2client fd = some clt
  connected : ∀ clt ∈ registry.monitorColl, ∃ (client : RegistryClient) (fd : ℕ),
    registry.clients[clt]? = some client ∧ client.fd = some fd ∧ client.closed = false ∧
      fd ∈ registry.openFds
  distinct : ∀ clt ∈ registry.monitorColl, ∀ other ∈ registry.monitorColl,
    registry.fdOf clt = registry.fdOf other → clt = other
  connecting : ∀ (clt : ℕ) (client : RegistryClient), registry.clients[clt]? = some client →
    client.connect.busy = true → clt ∉ registry.monitorColl

theorem RegistryInv.consistent (hinv : registry.RegistryInv) : registry.RegistryConsistent := by
  have hfound : ∀ clt ∈ registry.monitorColl, ∃ fd, registry.fd2client fd = some clt ∧
      ∃ client : RegistryClient, registry.clients[clt]? = some client ∧ client.Live fd := by
    intro clt hmem
    obtain ⟨fd, hfd⟩ := hinv.entries.member clt hmem
    exact ⟨fd, hfd, (hinv.entries.entry fd clt hfd).2⟩
  have hfdOf : ∀ {clt fd} {client : RegistryClient}, registry.clients[clt]? = some client →
      client.Live fd → registry.fdOf clt = some fd := by
    intro clt fd client hclient hlive
    rw [fdOf, hclient, Option.bind_some]
    exact hlive.connected
  refine ⟨fun clt ↦ ⟨fun hmem ↦ ?_, fun ⟨fd, _, hentry⟩ ↦ (hinv.entries.entry fd clt hentry).1⟩,
    fun clt hmem ↦ ?_, fun clt hmem other hother heq ↦ ?_, fun clt client hclient hbusy ↦
      hinv.entries.notMem hclient (connect_ne_outside hbusy)⟩
  · obtain ⟨fd, hentry, client, hclient, hlive⟩ := hfound clt hmem
    exact ⟨fd, hfdOf hclient hlive, hentry⟩
  · obtain ⟨fd, -, client, hclient, hlive⟩ := hfound clt hmem
    exact ⟨client, fd, hclient, hlive.connected, hlive.unclosed,
      (hinv.fds.opened clt client fd hclient (holds_of_live hlive)).1⟩
  · obtain ⟨fd, hentry, client, hclient, hlive⟩ := hfound clt hmem
    obtain ⟨fd', hentry', client', hclient', hlive'⟩ := hfound other hother
    rw [hfdOf hclient hlive, hfdOf hclient' hlive'] at heq
    cases heq
    exact Option.some.inj (hentry.symm.trans hentry')

/-- In every state that a run reaches the two containers agree. -/
theorem registry_consistent (actions : List RegistryAction) (final : MonitorRegistry)
    (hrun : runFrom step new actions = some final) : final.RegistryConsistent :=
  (runFrom_invariant RegistryInv (fun _ _ _ hinv hnext ↦ registryInv_step hinv hnext)
    registryInv_new hrun).consistent

/-- A client is connected and registered, its connection breaks, and it is registered again under
another descriptor. -/
def reconnectedRun : List RegistryAction :=
  List.flatten [
    [.newHaClt, .manageClient 0, .addConnect 0, .closeFd 0, .openSocket 0 (some 5), .finish 0 true,
      .pushBack 0],
    List.replicate 8 (.monitor true),
    [.io, .spWait (some [⟨5, .broken⟩]), .io, .io, .io, .io, .io],
    List.replicate 7 (.monitor true),
    [.closeFd 0, .resetFd 0, .openOther 5, .openSocket 0 (some 6), .finish 0 true, .monitor true]]

theorem isSome_reconnectedRun : (runFrom step new reconnectedRun).isSome = true := by
  decide +kernel

theorem registry_consistent_reconnectedRun :
    ((runFrom step new reconnectedRun).get isSome_reconnectedRun).RegistryConsistent :=
  registry_consistent reconnectedRun _ (Option.some_get isSome_reconnectedRun).symm

end MonitorRegistry

end TszyUlt.Zbf
