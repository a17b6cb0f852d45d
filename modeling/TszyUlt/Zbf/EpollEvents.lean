import TszyUlt.Zbf.EpollLifecycle

/-!
# The events of the epoll server

`zbf/socket_tcp_v5.hpp`: `ioprocessor`. The I/O thread handles a batch of events by the numbers of
their descriptors. While it does, the monitor may destroy a connection that has expired, and an
accept of the same batch may return its descriptor. What is read or written is read from and written
to the connection that has the descriptor now; an event that is only an error or the end of a
connection is taken to be about it as well.

`CloseRecord.culprit` is the connection for whose fault `closeUser` is called: the one that raised
the event, the one whose `recv` failed, or the one that could not take data or send. `EventInv` says
that an event which is an error only is about the connection that has the descriptor. Every step
keeps it, except a `createUser` with the descriptor of such an event that is still to be handled:
`closed_for_own_fault` is about the runs without one (`NotReused`), and `closed_for_other` is a run
in which a new connection is closed for the error of one that is gone.
-/

set_option autoImplicit false
set_option relaxedAutoImplicit false

namespace TszyUlt.Zbf

open Lib

namespace EpollServer

variable {server next : EpollServer}

/-- The descriptor has no event in the batch that is an error only. -/
def Unused (server : EpollServer) (conn : ℕ) : Prop :=
  ∀ entry ∈ server.batch, entry.1.errorOnly = true → entry.1.fd ≠ conn

/-- No connection is created with the descriptor of an event of the batch that is an error only and
is still to be handled. -/
def NotReused (server : EpollServer) : EpollAction → Prop
  | .createUser _ =>
    match server.io with
    | .creating conn => server.Unused conn
    | _ => True
  | _ => True

instance (server : EpollServer) (conn : ℕ) : Decidable (server.Unused conn) :=
  inferInstanceAs (Decidable (∀ entry ∈ server.batch, _))

instance (server : EpollServer) : DecidablePred server.NotReused
  | .createUser _ =>
    match hio : server.io with
    | .creating conn => decidable_of_iff (server.Unused conn) (by rw [NotReused, hio])
    | .handling | .accepted _ | .inserted _ | .finding _ | .working _ _ | .failing _ _ | .closing =>
      isTrue (by rw [NotReused, hio]; trivial)
  | .handle _ | .wait _ | .checkLimit | .pushNewUser | .findUser | .work _ | .closeUser
  | .popFrontUser | .isExpired _ | .closeExpired | .isClosed | .onDisconnect | .pushUserBack
  | .setClose | .eraseUser | .lock _ | .release _ => isTrue trivial

/-- An event that is an error only is about the connection that has its descriptor, and so is the
call of `closeUser` that follows. -/
structure EventInv (server : EpollServer) : Prop where
  raised : ∀ entry ∈ server.batch, entry.1.errorOnly = true →
    ∀ id, server.fd2user.lookup entry.1.fd = some id → entry.2 = some id
  failing : ∀ fd culprit, server.io = .failing fd culprit →
    ∀ id, server.fd2user.lookup fd = some id → culprit = some id
  blame : ∀ record ∈ server.closes, record.thread = .io → record.culprit = some record.id

/-- A step that does not touch the I/O thread and inserts nothing into `_fd2user`. -/
theorem EventInv.frame (hinv : server.EventInv) (hio : next.io = server.io)
    (hbatch : next.batch = server.batch)
    (hlookup : ∀ fd id, next.fd2user.lookup fd = some id → server.fd2user.lookup fd = some id)
    (hcloses : ∀ record ∈ next.closes, record.thread = .io → record ∈ server.closes) :
    next.EventInv where
  raised := by
    rw [hbatch]
    exact fun entry hentry honly id hid ↦ hinv.raised entry hentry honly id (hlookup _ id hid)
  failing := by
    rw [hio]
    exact fun fd culprit hfailing id hid ↦ hinv.failing fd culprit hfailing id (hlookup fd id hid)
  blame := fun record hrecord hthread ↦
    hinv.blame record (hcloses record hrecord hthread) hthread

/-- The I/O thread goes on, and does not call `closeUser`. -/
theorem EventInv.goOn (hinv : server.EventInv) {io : IoState}
    (hfailing : ∀ fd culprit, io ≠ .failing fd culprit) : EventInv { server with io := io } :=
  { hinv with failing := fun fd culprit h ↦ absurd h (hfailing fd culprit) }

/-- The I/O thread calls `closeUser`. -/
theorem EventInv.fail (hinv : server.EventInv) {fd : ℕ} {culprit : Option ℕ}
    (hculprit : ∀ id, server.fd2user.lookup fd = some id → culprit = some id) :
    EventInv { server with io := .failing fd culprit } := by
  refine { hinv with failing := fun other another h ↦ ?_ }
  cases h
  exact hculprit

theorem EventInv.handle (hinv : server.EventInv) (hepoll : server.EpollInv) {result : IoResult}
    (hstep : server.handle result = some next) : next.EventInv := by
  obtain ⟨ev, raiser, rest, hbatch, hcases⟩ := handle_cases hstep
  have hraised := hinv.raised
  rw [hbatch] at hraised
  have hrest : EventInv { server with batch := rest } :=
    { hinv with raised := fun entry hentry ↦ hraised entry (List.mem_cons_of_mem _ hentry) }
  rcases hcases with ⟨-, conn, -, -, rfl⟩ | rfl | ⟨fd, rfl⟩ | ⟨-, rfl⟩ | ⟨honly, rfl⟩
  · exact hrest.goOn nofun
  · exact hrest
  · exact hrest.goOn nofun
  · -- `recv` failed for the connection that has the descriptor.
    refine hrest.fail fun id hid ↦ ?_
    exact owner_of_live hepoll.distinct (isLive_of_lookup hid) (hepoll.entry _ id hid).1
  · exact hrest.fail fun id hid ↦ hraised (ev, raiser) List.mem_cons_self honly id hid

/-- Assumes: no connection is created with the descriptor of an event that is an error only and is
still to be handled. Every step keeps the events to their connections. -/
theorem step_eventInv {action : EpollAction} (hinv : server.EventInv) (hepoll : server.EpollInv)
    (hreused : server.NotReused action) (hstep : server.step action = some next) :
    next.EventInv := by
  cases step_moves hstep with
  | wait events =>
    refine { hinv with raised := fun entry hentry _ id hid ↦ ?_ }
    obtain ⟨ev, -, rfl⟩ := List.mem_map.mp hentry
    exact hid
  | handle result _ hio hhandle => exact hinv.handle hepoll hhandle
  | goOn => exact hinv.goOn (by simp)
  | goCreate => exact hinv.goOn (by simp)
  | createUser conn hio hfree =>
    have hunused : server.Unused conn := by
      rw [NotReused, hio] at hreused
      exact hreused
    refine ⟨fun entry hentry honly id hid ↦ ?_, fun _ _ h ↦ (by cases h), hinv.blame⟩
    rcases lookup_withUser hid with ⟨heq, -⟩ | hold
    · exact absurd heq (hunused entry hentry honly)
    · exact hinv.raised entry hentry honly id hold
  | pushNewUser id hio =>
    have hpushed : EventInv { server with io := .handling } := hinv.goOn (by simp)
    exact ⟨hpushed.1, hpushed.2, hpushed.3⟩
  | findUser => exact hinv.goOn (by simp)
  | workFails fd id hio =>
    -- The I/O thread refers to the connection, so that no other one has its descriptor.
    have hlive : server.isLive id = true := isLive_of_io (by rw [hio]; rfl)
    refine hinv.fail fun other hother ↦ ?_
    exact congrArg some (hepoll.distinct.unique id other fd hlive (isLive_of_lookup hother)
      (hepoll.working fd id hio) (hepoll.entry fd other hother).1)
  | closeUser fd id culprit hio hfree hlookup hopen =>
    refine ⟨hinv.raised, by simp, fun record hrecord hthread ↦ ?_⟩
    rcases List.mem_append.mp hrecord with hold | hnew
    · exact hinv.blame record hold hthread
    · rw [List.mem_singleton.mp hnew]
      exact hinv.failing fd culprit hio id hlookup
  | closeExpired held fd id hmonitor hfree hfd hlookup hopen =>
    refine hinv.frame rfl rfl (fun _ _ h ↦ h) fun record hrecord hthread ↦ ?_
    rcases List.mem_append.mp hrecord with hold | hnew
    · exact hold
    · rw [List.mem_singleton.mp hnew] at hthread
      cases hthread
  | eraseUser call hcall hthread =>
    have herased : EventInv { server with fd2user := server.fd2user.erase call.fd } :=
      hinv.frame rfl rfl (fun _ _ h ↦ (lookup_of_erase h).2) fun _ h _ ↦ h
    have hhandling : EventInv { server with
        fd2user := server.fd2user.erase call.fd
        io := .handling } := herased.goOn (by simp)
    exact ⟨hhandling.1, hhandling.2, hhandling.3⟩
  | eraseExpired =>
    exact hinv.frame rfl rfl (fun _ _ h ↦ (lookup_of_erase h).2) fun _ h _ ↦ h
  | popNothing | popFrontUser | keep | onDisconnect | pushUserBack | setClose | setRefs =>
    exact hinv.frame rfl rfl (fun _ _ h ↦ h) fun _ h _ ↦ h

/-- Assumes: no connection is created with the descriptor of an event of the same batch that is an
error only and is still to be handled. In every run the I/O thread closes a connection for its own
fault alone. -/
theorem closed_for_own_fault (listenFds : List ℕ) (maxConnections : ℤ) (actions : List EpollAction)
    {server : EpollServer} (hreused : Along step NotReused (new listenFds maxConnections) actions)
    (hrun : runFrom step (new listenFds maxConnections) actions = some server) :
    ∀ record ∈ server.closes, record.thread = .io → record.culprit = some record.id := by
  have hnew : (new listenFds maxConnections).EventInv :=
    ⟨fun _ h ↦ absurd h List.not_mem_nil, nofun, fun _ h ↦ absurd h List.not_mem_nil⟩
  obtain ⟨-, hinv⟩ : server.EpollInv ∧ server.EventInv :=
    runFrom_invariant_along (fun server ↦ server.EpollInv ∧ server.EventInv)
      (fun _ _ _ hinv hreused hstep ↦
        ⟨step_epollInv hinv.1 hstep, step_eventInv hinv.2 hinv.1 hreused hstep⟩)
      ⟨epollInv_new listenFds maxConnections, hnew⟩ hreused hrun
  exact hinv.blame

/-- A connection is accepted and created. -/
def openConnection (conn : ℕ) : List EpollAction :=
  [.handle (.accepted conn), .checkLimit, .createUser true, .pushNewUser]

/-- A connection expires in the middle of a batch, and the monitor goes on to the next one. -/
def expireFirst : List EpollAction :=
  [.popFrontUser, .isExpired true, .closeExpired, .setClose, .eraseUser, .isClosed, .onDisconnect,
    .popFrontUser]

/-- The event of a listener. -/
def listenerEvent : Event := ⟨3, true, false, false, false⟩

/-- An error of the connection with descriptor 5. -/
def errorEvent : Event := ⟨5, false, false, true, false⟩

theorem closed_for_own_fault_error :
    ∃ server, runFrom step (new [3] 6000)
        (.wait [listenerEvent] :: openConnection 5 ++
          [.wait [errorEvent], .handle .failed, .closeUser]) = some server ∧
      server.closes = [⟨.io, some 0, 0⟩] ∧
      ∀ record ∈ server.closes, record.thread = .io → record.culprit = some record.id :=
  ⟨_, rfl, rfl, closed_for_own_fault [3] 6000
    (.wait [listenerEvent] :: openConnection 5 ++ [.wait [errorEvent], .handle .failed, .closeUser])
    (by decide) rfl⟩

/-- The first connection is gone when its error is handled, and its descriptor belongs to another
one. -/
theorem closed_for_other :
    ∃ server, runFrom step (new [3] 6000)
        (.wait [listenerEvent] :: openConnection 5 ++
          .wait [listenerEvent, errorEvent] :: expireFirst ++ openConnection 5 ++
            [.handle .failed, .closeUser]) = some server ∧
      server.closes = [⟨.monitor, some 0, 0⟩, ⟨.io, some 0, 1⟩] ∧
      ¬ ∀ record ∈ server.closes, record.thread = .io → record.culprit = some record.id :=
  ⟨_, rfl, rfl, by decide⟩

end EpollServer

end TszyUlt.Zbf
