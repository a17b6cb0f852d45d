import TszyUlt.Zbf.EpollServer

/-!
# The lifecycle of a connection of the epoll server

`zbf/socket_tcp_v5.hpp`: `createUser`, `closeUser` and `monitor`. A connection is created by the I/O
thread, closed by either thread and disconnected by the monitor. What makes a descriptor a safe name
is who refers to a connection: as long as someone does, its descriptor is open and is not given to
another one.

`EpollInv` holds in every state (`step_epollInv`), each step of a thread by a lemma of its own.
`connection_lifecycle` is what it says of every run. The mark of a connection is not under
`_lockF2U`, and the monitor looks at it without this lock: `lifecycle_in_closeUser` is a run in
which it calls `onDisconnect` of a connection that a `closeUser` has marked and not yet removed.
-/

set_option autoImplicit false
set_option relaxedAutoImplicit false

namespace TszyUlt.Zbf

open Lib

namespace EpollServer

variable {server next : EpollServer}

/-! ### The invariant -/

/-- How often a connection is in `_users`, held by the monitor or disconnected. -/
def situations (server : EpollServer) (id : ℕ) : ℕ :=
  server.userList.count id + (if server.monitor.held = some id then 1 else 0) +
    server.disconnected.count id

/-- One for a connection that was created, up to its appending to `_users`. -/
def placed (server : EpollServer) (id : ℕ) : ℕ :=
  if id < server.users.length ∧ server.io.newUser ≠ some id then 1 else 0

/-- What holds in every state. -/
structure EpollInv (server : EpollServer) : Prop where
  distinct : server.Distinct
  entry : ∀ fd id, server.fd2user.lookup fd = some id → server.fdOf id = some fd ∧
    (server.closed id = true → ∃ call, server.closing = some call ∧ call.id = id ∧
      call.marked = true)
  call : ∀ call, server.closing = some call → server.fd2user.lookup call.fd = some call.id ∧
    server.closed call.id = call.marked ∧
      (call.thread = .io → server.io = .closing) ∧
        (call.thread = .monitor → server.monitor = .closing call.id)
  working : ∀ fd id, server.io = .working fd id → server.fdOf id = some fd
  fresh : ∀ conn, server.io = .accepted conn ∨ server.io = .creating conn →
    server.owner conn = none
  size_le : (server.currentConnections : ℤ) ≤ max server.maxConnections 0
  size_lt : ∀ conn, server.io = .creating conn →
    (server.currentConnections : ℤ) < server.maxConnections
  held : ∀ id, server.monitor.held = some id → server.monitorUser = some id
  count : ∀ id, server.situations id = server.placed id
  marked : ∀ id, id ∈ server.disconnected ∨ server.monitor = .disconnecting id →
    server.closed id = true
  blame : ∀ record ∈ server.closes, record.thread = .monitor → record.culprit = some record.id

theorem epollInv_new (listenFds : List ℕ) (maxConnections : ℤ) :
    (new listenFds maxConnections).EpollInv where
  distinct := by
    have hnone : ∀ id, (new listenFds maxConnections).isLive id = false := fun _ ↦ rfl
    constructor
    · intro id hid
      rw [hnone] at hid
      cases hid
    · intro i j fd hi
      rw [hnone] at hi
      cases hi
  entry := fun fd id h ↦ by cases h
  call := fun call h ↦ by cases h
  working := fun fd id h ↦ by cases h
  fresh := fun conn h ↦ by rcases h with h | h <;> cases h
  size_le := by
    show (0 : ℤ) ≤ max maxConnections 0
    omega
  size_lt := fun conn h ↦ by cases h
  held := fun id h ↦ by cases h
  count := fun id ↦ rfl
  marked := fun id h ↦ by
    rcases h with h | h
    · exact absurd h List.not_mem_nil
    · cases h
  blame := fun record h ↦ absurd h List.not_mem_nil

/-! ### Steps of one thread -/

/-- The I/O thread goes on, outside `createUser` and `closeUser`. -/
theorem EpollInv.setIo (hinv : server.EpollInv) {io : IoState}
    (hwas : server.io.newUser = none) (hclosing : server.io ≠ .closing)
    (hlive : ∀ id, io.user = some id → server.isLive id = true)
    (hworking : ∀ fd id, io = .working fd id → server.fdOf id = some fd)
    (hfresh : ∀ conn, io = .accepted conn ∨ io = .creating conn → server.owner conn = none)
    (hlt : ∀ conn, io = .creating conn →
      (server.currentConnections : ℤ) < server.maxConnections)
    (hnew : io.newUser = none) : EpollInv { server with io := io } := by
  have hmono : ∀ id, isLive { server with io := io } id = true → server.isLive id = true :=
    isLive_mono (fun _ _ h ↦ isLive_of_lookup h) (fun _ h ↦ isLive_of_mem_userList h)
      (fun _ h ↦ isLive_of_monitorUser h) hlive fun _ h ↦ isLive_of_mem_refs h
  refine { hinv with
    distinct := hinv.distinct.mono (fun _ ↦ rfl) rfl hmono
    call := fun call hcall ↦ ?_
    working := hworking
    fresh := fun conn hconn ↦ owner_eq_none_mono (hfresh conn hconn) (fun _ ↦ rfl) hmono
    size_lt := hlt
    count := fun id ↦ ?_ }
  · obtain ⟨hlookup, hmarked, hio, hmonitor⟩ := hinv.call call hcall
    exact ⟨hlookup, hmarked, fun hthread ↦ absurd (hio hthread) hclosing, hmonitor⟩
  · have hcount := hinv.count id
    rw [placed, hwas, ← hnew] at hcount
    exact hcount

/-- The monitor goes on with the connection that it holds. -/
theorem EpollInv.setMonitor (hinv : server.EpollInv) {monitor : MonitorState}
    (hheld : monitor.held = server.monitor.held) (hclosing : ∀ id, server.monitor ≠ .closing id)
    (hmarked : ∀ id, monitor = .disconnecting id → server.closed id = true) :
    EpollInv { server with monitor := monitor } := by
  refine { hinv with
    distinct := hinv.distinct.mono (fun _ ↦ rfl) rfl fun _ h ↦ h
    call := fun call hcall ↦ ?_
    held := fun id hid ↦ hinv.held id (hheld.symm.trans hid)
    count := fun id ↦ ?_
    marked := fun id hid ↦ ?_ }
  · obtain ⟨hlookup, hclosed, hio, hmonitor⟩ := hinv.call call hcall
    exact ⟨hlookup, hclosed, hio, fun hthread ↦ absurd (hmonitor hthread) (hclosing _)⟩
  · show server.userList.count id + (if monitor.held = some id then 1 else 0) +
      server.disconnected.count id = server.placed id
    rw [hheld]
    exact hinv.count id
  · rcases hid with hdisconnected | hmonitor
    · exact hinv.marked id (.inl hdisconnected)
    · exact hmarked id hmonitor

/-- Where nothing is being closed, the connections in `_fd2user` are not marked. -/
theorem EpollInv.closed_eq_false (hinv : server.EpollInv) (hfree : server.closing = none)
    {fd id : ℕ} (hlookup : server.fd2user.lookup fd = some id) : server.closed id = false := by
  cases hclosed : server.closed id with
  | false => rfl
  | true =>
    obtain ⟨call, hcall, -⟩ := (hinv.entry fd id hlookup).2 hclosed
    cases hfree.symm.trans hcall

/-- The connection that the monitor holds is the only one with its descriptor. -/
theorem EpollInv.lookup_held (hinv : server.EpollInv) {held fd id : ℕ}
    (hheld : server.monitor.held = some held) (hfd : server.fdOf held = some fd)
    (hlookup : server.fd2user.lookup fd = some id) : id = held := by
  have hlive : server.isLive held = true :=
    isLive_of_monitorUser (hinv.held held hheld)
  exact hinv.distinct.unique id held fd (isLive_of_lookup hlookup) hlive
    (hinv.entry fd id hlookup).1 hfd

/-- A `closeUser` of the I/O thread finds its connection. -/
theorem EpollInv.closeUser (hinv : server.EpollInv) {fd id : ℕ} {culprit bad : Option ℕ}
    (hio : server.io = .failing fd bad) (hfree : server.closing = none)
    (hlookup : server.fd2user.lookup fd = some id) (hclosed : server.closed id = false) :
    EpollInv { server with
      closing := some ⟨.io, fd, id, false⟩
      closes := server.closes ++ [⟨.io, culprit, id⟩]
      io := .closing } := by
  refine { hinv with
    distinct := hinv.distinct.mono (fun _ ↦ rfl) rfl
      (isLive_mono (fun _ _ h ↦ isLive_of_lookup h) (fun _ h ↦ isLive_of_mem_userList h)
        (fun _ h ↦ isLive_of_monitorUser h) nofun fun _ h ↦ isLive_of_mem_refs h)
    entry := fun other user huser ↦ ⟨(hinv.entry other user huser).1, fun hmarked ↦ ?_⟩
    call := fun call hcall ↦ ?_
    working := fun _ _ h ↦ ?_
    fresh := fun _ h ↦ ?_
    size_lt := fun _ h ↦ ?_
    count := fun other ↦ ?_
    blame := fun record hrecord hthread ↦ ?_ }
  · cases hmarked.symm.trans (hinv.closed_eq_false hfree huser)
  · cases hcall
    exact ⟨hlookup, hclosed, fun _ ↦ rfl, nofun⟩
  · cases h
  · rcases h with h | h <;> cases h
  · cases h
  · have hcount := hinv.count other
    rw [placed, hio] at hcount
    exact hcount
  · rcases List.mem_append.mp hrecord with hold | hnew
    · exact hinv.blame record hold hthread
    · rw [List.mem_singleton.mp hnew] at hthread
      cases hthread

/-- A `closeUser` of the monitor finds its connection: the one that the monitor holds. -/
theorem EpollInv.closeExpired (hinv : server.EpollInv) {held fd id : ℕ}
    (hmonitor : server.monitor = .expired held) (hfree : server.closing = none)
    (hfd : server.fdOf held = some fd) (hlookup : server.fd2user.lookup fd = some id)
    (hclosed : server.closed id = false) :
    EpollInv { server with
      closing := some ⟨.monitor, fd, id, false⟩
      closes := server.closes ++ [⟨.monitor, some held, id⟩]
      monitor := .closing held } := by
  have hheld : server.monitor.held = some held := by
    rw [hmonitor]
    rfl
  obtain rfl := hinv.lookup_held hheld hfd hlookup
  refine { hinv with
    distinct := hinv.distinct.mono (fun _ ↦ rfl) rfl fun _ h ↦ h
    entry := fun other user huser ↦ ⟨(hinv.entry other user huser).1, fun hmarked ↦ ?_⟩
    call := fun call hcall ↦ ?_
    held := fun other hother ↦ hinv.held other (hheld.trans hother)
    count := fun other ↦ ?_
    marked := fun other hother ↦ ?_
    blame := fun record hrecord hthread ↦ ?_ }
  · cases hmarked.symm.trans (hinv.closed_eq_false hfree huser)
  · cases hcall
    exact ⟨hlookup, hclosed, nofun, fun _ ↦ rfl⟩
  · have hcount := hinv.count other
    rw [situations, hmonitor] at hcount
    exact hcount
  · rcases hother with hdisconnected | hdisconnecting
    · exact hinv.marked other (.inl hdisconnected)
    · cases hdisconnecting
  · rcases List.mem_append.mp hrecord with hold | hnew
    · exact hinv.blame record hold hthread
    · rw [List.mem_singleton.mp hnew]

theorem fdOf_setClose (users : List EpollUser) (id other : ℕ) :
    (users.modify id EpollUser.setClose)[other]?.map EpollUser.fd =
      users[other]?.map EpollUser.fd := by
  rw [List.getElem?_modify]
  cases users[other]? with
  | none => rfl
  | some user =>
    show some (EpollUser.fd (if id = other then user.setClose else user)) = some user.fd
    split_ifs <;> rfl

theorem closed_setClose (users : List EpollUser) (id other : ℕ) :
    ((users.modify id EpollUser.setClose)[other]?.map EpollUser.closed).getD false =
      ((decide (id = other) && users[other]?.isSome) ||
        (users[other]?.map EpollUser.closed).getD false) := by
  rw [List.getElem?_modify]
  cases users[other]? with
  | none => simp
  | some user =>
    by_cases heq : id = other <;> simp [heq, EpollUser.setClose]

/-- `setClose` marks the connection that is being closed. -/
theorem EpollInv.setClose (hinv : server.EpollInv) {call : CloseCall}
    (hcall : server.closing = some call) (hunmarked : call.marked = false) :
    EpollInv { server with
      users := server.users.modify call.id EpollUser.setClose
      closing := some { call with marked := true } } := by
  obtain ⟨hlookup, -, hio, hmonitor⟩ := hinv.call call hcall
  have hfds : ∀ id, fdOf { server with
      users := server.users.modify call.id EpollUser.setClose
      closing := some { call with marked := true } } id = server.fdOf id :=
    fdOf_setClose server.users call.id
  have hclosed : ∀ id, closed { server with
      users := server.users.modify call.id EpollUser.setClose
      closing := some { call with marked := true } } id =
        ((decide (call.id = id) && server.users[id]?.isSome) || server.closed id) :=
    closed_setClose server.users call.id
  have hsome : server.users[call.id]?.isSome = true := by
    obtain ⟨user, huser, -⟩ := Option.map_eq_some_iff.mp (hinv.entry _ _ hlookup).1
    rw [huser]
    rfl
  have hlength : (server.users.modify call.id EpollUser.setClose).length = server.users.length :=
    List.length_modify ..
  refine { hinv with
    distinct := hinv.distinct.mono hfds hlength fun _ h ↦ h
    entry := fun fd id hid ↦ ⟨(hfds id).trans (hinv.entry fd id hid).1, fun hmarked ↦ ?_⟩
    call := fun other hother ↦ ?_
    working := fun fd id hworking ↦ (hfds id).trans (hinv.working fd id hworking)
    fresh := fun conn hconn ↦ owner_eq_none_mono (hinv.fresh conn hconn) hfds fun _ h ↦ h
    count := fun id ↦ ?_
    marked := fun id hid ↦ ?_ }
  · rw [hclosed, Bool.or_eq_true, Bool.and_eq_true, decide_eq_true_eq] at hmarked
    rcases hmarked with ⟨heq, -⟩ | hold
    · exact ⟨_, rfl, heq, rfl⟩
    · obtain ⟨same, hsame, -, hmarked⟩ := (hinv.entry fd id hid).2 hold
      cases hcall.symm.trans hsame
      cases hunmarked.symm.trans hmarked
  · cases hother
    refine ⟨hlookup, ?_, hio, hmonitor⟩
    show closed _ call.id = true
    rw [hclosed, hsome, decide_eq_true rfl]
    rfl
  · show server.situations id = if id < (server.users.modify call.id EpollUser.setClose).length ∧
      server.io.newUser ≠ some id then 1 else 0
    rw [hlength]
    exact hinv.count id
  · rw [hclosed, hinv.marked id hid, Bool.or_true]

/-- An entry that is left was there before. -/
theorem lookup_of_erase {fd other id : ℕ}
    (hlookup : (server.fd2user.erase fd).lookup other = some id) :
    other ≠ fd ∧ server.fd2user.lookup other = some id := by
  have hne : other ≠ fd := by
    rintro rfl
    rw [AList.lookup_erase] at hlookup
    cases hlookup
  exact ⟨hne, (AList.lookup_erase_ne hne).symm.trans hlookup⟩

theorem length_keys_erase_le (server : EpollServer) (fd : ℕ) :
    ((server.fd2user.erase fd).keys.length : ℤ) ≤ server.currentConnections := by
  rw [AList.keys_erase]
  exact_mod_cast List.length_erase_le

/-- The connection that is being closed is removed. Both threads go on with what they hold. -/
theorem EpollInv.eraseUser (hinv : server.EpollInv) {call : CloseCall}
    (hcall : server.closing = some call) {io : IoState} {monitor : MonitorState}
    (hio : io = server.io ∨ server.io = .closing ∧ io = .handling)
    (hmonitor : monitor = server.monitor ∨
      ∃ id, server.monitor = .closing id ∧ monitor = .checking id) :
    EpollInv { server with
      fd2user := server.fd2user.erase call.fd
      closing := none
      io := io
      monitor := monitor } := by
  obtain ⟨hlookup, -, -, -⟩ := hinv.call call hcall
  have hsize := length_keys_erase_le server call.fd
  have hheld : monitor.held = server.monitor.held := by
    rcases hmonitor with rfl | ⟨id, hwas, rfl⟩
    · rfl
    · rw [hwas]
      rfl
  have huser : io.user = server.io.user ∧ io.newUser = server.io.newUser := by
    rcases hio with rfl | ⟨hwas, rfl⟩
    · exact ⟨rfl, rfl⟩
    · rw [hwas]
      exact ⟨rfl, rfl⟩
  have hsame : io ≠ .handling → io = server.io := by
    intro hne
    rcases hio with heq | ⟨-, heq⟩
    · exact heq
    · exact absurd heq hne
  have hmono : ∀ id, isLive { server with
      fd2user := server.fd2user.erase call.fd
      closing := none
      io := io
      monitor := monitor } id = true → server.isLive id = true :=
    isLive_mono (fun _ _ h ↦ isLive_of_lookup (lookup_of_erase h).2)
      (fun _ h ↦ isLive_of_mem_userList h) (fun _ h ↦ isLive_of_monitorUser h)
      (fun _ h ↦ isLive_of_io (huser.1.symm.trans h)) fun _ h ↦ isLive_of_mem_refs h
  refine { hinv with
    distinct := hinv.distinct.mono (fun _ ↦ rfl) rfl hmono
    entry := fun fd id hid ↦ ?_
    call := nofun
    working := fun fd id hworking ↦ ?_
    fresh := fun conn hconn ↦ ?_
    size_le := Int.le_trans hsize hinv.size_le
    size_lt := fun conn hconn ↦ ?_
    held := fun id hid ↦ hinv.held id (hheld.symm.trans hid)
    count := fun id ↦ ?_
    marked := fun id hid ↦ ?_ }
  · obtain ⟨hne, hold⟩ := lookup_of_erase hid
    refine ⟨(hinv.entry fd id hold).1, fun hmarked ↦ ?_⟩
    -- A marked connection is the one that is being closed, and it has one descriptor only.
    obtain ⟨same, hsame, rfl, -⟩ := (hinv.entry fd id hold).2 hmarked
    cases hcall.symm.trans hsame
    exact absurd (Option.some.inj ((hinv.entry fd _ hold).1.symm.trans
      (hinv.entry _ _ hlookup).1)) hne
  · have hworking : io = .working fd id := hworking
    exact hinv.working fd id ((hsame (hworking ▸ nofun)).symm.trans hworking)
  · have hconn : io = .accepted conn ∨ io = .creating conn := hconn
    have hne : io ≠ .handling := by rcases hconn with rfl | rfl <;> exact nofun
    refine owner_eq_none_mono (hinv.fresh conn ?_) (fun _ ↦ rfl) hmono
    rw [← hsame hne]
    exact hconn
  · have hconn : io = .creating conn := hconn
    refine Int.lt_of_le_of_lt hsize (hinv.size_lt conn ?_)
    rw [← hsame (hconn ▸ nofun)]
    exact hconn
  · show server.userList.count id + (if monitor.held = some id then 1 else 0) +
      server.disconnected.count id =
        if id < server.users.length ∧ io.newUser ≠ some id then 1 else 0
    rw [hheld, huser.2]
    exact hinv.count id
  · refine hinv.marked id (hid.imp_right fun hdisconnecting ↦ ?_)
    have hdisconnecting : monitor = .disconnecting id := hdisconnecting
    rcases hmonitor with rfl | ⟨other, -, rfl⟩
    · exact hdisconnecting
    · cases hdisconnecting

theorem users_withUser {conn id : ℕ} (hlt : id < server.users.length) :
    (server.withUser conn).users[id]? = server.users[id]? := List.getElem?_append_left hlt

theorem fdOf_withUser {conn id : ℕ} (hlt : id < server.users.length) :
    (server.withUser conn).fdOf id = server.fdOf id :=
  congrArg (Option.map EpollUser.fd) (users_withUser hlt)

theorem fdOf_withUser_self (server : EpollServer) (conn : ℕ) :
    (server.withUser conn).fdOf server.users.length = some conn := by
  show (server.users ++ [(⟨conn, false⟩ : EpollUser)])[server.users.length]?.map _ = _
  rw [List.getElem?_concat_length]
  rfl

theorem closed_withUser (server : EpollServer) (conn id : ℕ) :
    (server.withUser conn).closed id = server.closed id := by
  show ((server.users ++ [(⟨conn, false⟩ : EpollUser)])[id]?.map EpollUser.closed).getD false = _
  rcases Nat.lt_trichotomy id server.users.length with hlt | rfl | hgt
  · rw [List.getElem?_append_left hlt]
    rfl
  · rw [List.getElem?_concat_length, closed, List.getElem?_eq_none (Nat.le_refl _)]
    rfl
  · have hlength : (server.users ++ [(⟨conn, false⟩ : EpollUser)]).length ≤ id := by
      rw [List.length_append]
      exact hgt
    rw [List.getElem?_eq_none hlength, closed, List.getElem?_eq_none (by omega)]

/-- An entry is the new one, or it was there before. -/
theorem lookup_withUser {conn fd id : ℕ}
    (hlookup : (server.withUser conn).fd2user.lookup fd = some id) :
    fd = conn ∧ id = server.users.length ∨ server.fd2user.lookup fd = some id := by
  by_cases heq : fd = conn
  · subst heq
    have hself : (server.withUser fd).fd2user.lookup fd = some server.users.length :=
      AList.lookup_insert _
    exact .inl ⟨rfl, (Option.some.inj (hself.symm.trans hlookup)).symm⟩
  · exact .inr ((AList.lookup_insert_ne heq).symm.trans hlookup)

theorem isLive_withUser {conn id : ℕ}
    (hlive : (server.withUser conn).isLive id = true) :
    id = server.users.length ∨ server.isLive id = true := by
  rcases isLive_iff.mp hlive with ⟨fd, hfd⟩ | hmem | hsome | hsome | hmem
  · rcases lookup_withUser hfd with ⟨-, rfl⟩ | hold
    · exact .inl rfl
    · exact .inr (isLive_of_lookup hold)
  · exact .inr (isLive_of_mem_userList hmem)
  · exact .inr (isLive_of_monitorUser hsome)
  · exact .inl (Option.some.inj hsome).symm
  · exact .inr (isLive_of_mem_refs hmem)

/-- A new connection has a descriptor of its own. -/
theorem Distinct.withUser (hdistinct : server.Distinct) {conn : ℕ}
    (hunowned : server.owner conn = none) : (server.withUser conn).Distinct := by
  rw [owner_eq_none] at hunowned
  have hold : ∀ {id fd}, server.isLive id = true → (server.withUser conn).fdOf id = some fd →
      server.fdOf id = some fd :=
    fun hlive hfd ↦ (fdOf_withUser (hdistinct.lt_of_live _ hlive)).symm.trans hfd
  have hnew : ∀ {fd}, (server.withUser conn).fdOf server.users.length = some fd → fd = conn :=
    fun hfd ↦ (Option.some.inj ((fdOf_withUser_self server conn).symm.trans hfd)).symm
  constructor
  · intro id hid
    show id < (server.users ++ [_]).length
    rw [List.length_append]
    rcases isLive_withUser hid with rfl | hlive
    · exact Nat.lt_succ_self _
    · exact Nat.lt_succ_of_lt (hdistinct.lt_of_live id hlive)
  · intro i j fd hi hj hfi hfj
    rcases isLive_withUser hi with rfl | hlive
    · cases hnew hfi
      rcases isLive_withUser hj with rfl | hlive'
      · rfl
      · exact absurd (hold hlive' hfj) (hunowned j hlive')
    · rcases isLive_withUser hj with rfl | hlive'
      · cases hnew hfj
        exact absurd (hold hlive hfi) (hunowned i hlive)
      · exact hdistinct.unique i j fd hlive hlive' (hold hlive hfi) (hold hlive' hfj)

/-- A new connection is inserted into `_fd2user`. -/
theorem EpollInv.createUser (hinv : server.EpollInv) {conn : ℕ} (hio : server.io = .creating conn)
    (hfree : server.closing = none) : (server.withUser conn).EpollInv := by
  have hlt := hinv.size_lt conn hio
  refine { hinv with
    distinct := hinv.distinct.withUser (hinv.fresh conn (.inr hio))
    entry := fun fd id hid ↦ ?_
    call := fun call hcall ↦ ?_
    working := nofun
    fresh := fun other hother ↦ ?_
    size_le := ?_
    size_lt := nofun
    count := fun id ↦ ?_
    marked := fun id hid ↦ ?_ }
  · rw [closed_withUser]
    rcases lookup_withUser hid with ⟨rfl, rfl⟩ | hold
    · refine ⟨fdOf_withUser_self server fd, fun hmarked ↦ ?_⟩
      rw [closed, List.getElem?_eq_none (Nat.le_refl _)] at hmarked
      cases hmarked
    · have hfd := (hinv.entry fd id hold).1
      refine ⟨(fdOf_withUser (lt_of_fdOf hfd)).trans hfd, fun hmarked ↦ ?_⟩
      cases hmarked.symm.trans (hinv.closed_eq_false hfree hold)
  · cases hfree.symm.trans hcall
  · rcases hother with h | h <;> cases h
  · have hkeys : ((server.withUser conn).currentConnections : ℤ) ≤
        server.currentConnections + 1 := by
      have herase : (server.fd2user.keys.erase conn).length ≤ server.currentConnections :=
        List.length_erase_le
      show ((server.fd2user.insert conn server.users.length).keys.length : ℤ) ≤ _
      rw [AList.keys_insert, List.length_cons]
      omega
    show _ ≤ max server.maxConnections 0
    omega
  · have hcount := hinv.count id
    rw [placed, hio] at hcount
    show server.situations id = if id < (server.users ++ [_]).length ∧
      some server.users.length ≠ some id then 1 else 0
    refine hcount.trans ?_
    rw [List.length_append]
    rcases Nat.lt_trichotomy id server.users.length with hbefore | rfl | hafter
    · have hne : some server.users.length ≠ some id :=
        fun h ↦ absurd (Option.some.inj h).symm (Nat.ne_of_lt hbefore)
      rw [if_pos ⟨hbefore, nofun⟩, if_pos ⟨Nat.lt_succ_of_lt hbefore, hne⟩]
    · rw [if_neg fun h ↦ lt_irrefl _ h.1, if_neg fun h ↦ h.2 rfl]
    · rw [if_neg fun h ↦ lt_asymm h.1 hafter, if_neg fun h ↦ not_lt.mpr hafter h.1]
  · rw [closed_withUser]
    rcases hid with hdisconnected | hdisconnecting
    · exact hinv.marked id (.inl hdisconnected)
    · exact hinv.marked id (.inr hdisconnecting)

/-- The new connection is appended to `_users`. -/
theorem EpollInv.pushNewUser (hinv : server.EpollInv) {id : ℕ} (hio : server.io = .inserted id) :
    EpollInv { server with userList := server.userList ++ [id], io := .handling } := by
  have huser : server.io.user = some id := by
    rw [hio]
    rfl
  have hlt : id < server.users.length := hinv.distinct.lt_of_live id (isLive_of_io huser)
  have hlist : ∀ other ∈ server.userList ++ [id], server.isLive other = true := by
    intro other hother
    rcases List.mem_append.mp hother with hold | hnew
    · exact isLive_of_mem_userList hold
    · rw [List.mem_singleton.mp hnew]
      exact isLive_of_io huser
  refine { hinv with
    distinct := hinv.distinct.mono (fun _ ↦ rfl) rfl
      (isLive_mono (fun _ _ h ↦ isLive_of_lookup h) hlist (fun _ h ↦ isLive_of_monitorUser h)
        nofun fun _ h ↦ isLive_of_mem_refs h)
    call := fun call hcall ↦ ?_
    working := nofun
    fresh := fun conn hconn ↦ ?_
    size_lt := nofun
    count := fun other ↦ ?_ }
  · obtain ⟨hlookup, hmarked, hclosing, hmonitor⟩ := hinv.call call hcall
    refine ⟨hlookup, hmarked, fun hthread ↦ ?_, hmonitor⟩
    cases hio.symm.trans (hclosing hthread)
  · rcases hconn with h | h <;> cases h
  · have hcount := hinv.count other
    have hsituations : situations { server with
        userList := server.userList ++ [id]
        io := .handling } other = server.situations other + [id].count other := by
      show (server.userList ++ [id]).count other +
        (if server.monitor.held = some other then 1 else 0) + server.disconnected.count other = _
      rw [List.count_append, situations]
      omega
    rw [hsituations, hcount, placed, placed, hio]
    by_cases heq : id = other
    · subst heq
      rw [if_neg fun h ↦ h.2 rfl, List.count_singleton_self]
      exact (if_pos ⟨hlt, nofun⟩).symm
    · have hzero : [id].count other = 0 :=
        List.count_eq_zero.mpr fun h ↦ heq (List.mem_singleton.mp h).symm
      rw [hzero, Nat.add_zero]
      by_cases hbefore : other < server.users.length
      · exact (if_pos ⟨hbefore, fun h ↦ heq (Option.some.inj h)⟩).trans
          (if_pos ⟨hbefore, nofun⟩).symm
      · exact (if_neg fun h ↦ hbefore h.1).trans (if_neg fun h ↦ hbefore h.1).symm

/-- The monitor takes the first connection out of `_users`. -/
theorem EpollInv.popFrontUser (hinv : server.EpollInv) {id : ℕ} {rest : List ℕ}
    (hmonitor : server.monitor = .idle) (hlist : server.userList = id :: rest) :
    EpollInv { server with
      userList := rest
      monitorUser := some id
      monitor := .holding id } := by
  have hmem : ∀ other ∈ id :: rest, server.isLive other = true := by
    intro other hother
    rw [← hlist] at hother
    exact isLive_of_mem_userList hother
  have hmono : ∀ other, isLive { server with
      userList := rest
      monitorUser := some id
      monitor := .holding id } other = true → server.isLive other = true := by
    refine isLive_mono (fun _ _ h ↦ isLive_of_lookup h)
      (fun _ h ↦ hmem _ (List.mem_cons_of_mem _ h)) (fun other h ↦ ?_) (fun _ h ↦ isLive_of_io h)
      fun _ h ↦ isLive_of_mem_refs h
    cases h
    exact hmem id List.mem_cons_self
  refine { hinv with
    distinct := hinv.distinct.mono (fun _ ↦ rfl) rfl hmono
    call := fun call hcall ↦ ?_
    fresh := fun conn hconn ↦ owner_eq_none_mono (hinv.fresh conn hconn) (fun _ ↦ rfl) hmono
    held := fun other hother ↦ hother
    count := fun other ↦ ?_
    marked := fun other hother ↦ ?_ }
  · obtain ⟨hlookup, hmarked, hio, hclosing⟩ := hinv.call call hcall
    refine ⟨hlookup, hmarked, hio, fun hthread ↦ ?_⟩
    cases hmonitor.symm.trans (hclosing hthread)
  · have hcount := hinv.count other
    rw [situations, hmonitor, hlist, List.count_cons] at hcount
    show rest.count other + (if some id = some other then 1 else 0) +
      server.disconnected.count other = server.placed other
    rw [← hcount]
    simp only [MonitorState.held, reduceCtorEq, if_false, beq_iff_eq, Option.some.injEq]
    omega
  · rcases hother with hdisconnected | hdisconnecting
    · exact hinv.marked other (.inl hdisconnected)
    · cases hdisconnecting

/-- The monitor lets go of the connection that it holds. -/
theorem EpollInv.letGo (hinv : server.EpollInv) (id : ℕ) (hheld : server.monitor.held = some id)
    (hclosing : ∀ other, server.monitor ≠ .closing other) {userList disconnected : List ℕ}
    (hlive : ∀ other ∈ userList, server.isLive other = true)
    (hcount : ∀ other, userList.count other + disconnected.count other =
      server.userList.count other + server.disconnected.count other +
        if id = other then 1 else 0)
    (hmarked : ∀ other ∈ disconnected, server.closed other = true) :
    EpollInv { server with
      userList := userList
      disconnected := disconnected
      monitor := .idle } := by
  have hmono : ∀ other, isLive { server with
      userList := userList
      disconnected := disconnected
      monitor := .idle } other = true → server.isLive other = true :=
    isLive_mono (fun _ _ h ↦ isLive_of_lookup h) hlive (fun _ h ↦ isLive_of_monitorUser h)
      (fun _ h ↦ isLive_of_io h) fun _ h ↦ isLive_of_mem_refs h
  refine { hinv with
    distinct := hinv.distinct.mono (fun _ ↦ rfl) rfl hmono
    call := fun call hcall ↦ ?_
    fresh := fun conn hconn ↦ owner_eq_none_mono (hinv.fresh conn hconn) (fun _ ↦ rfl) hmono
    held := nofun
    count := fun other ↦ ?_
    marked := fun other hother ↦ ?_ }
  · obtain ⟨hlookup, hclosed, hio, hmonitor⟩ := hinv.call call hcall
    exact ⟨hlookup, hclosed, hio, fun hthread ↦ absurd (hmonitor hthread) (hclosing _)⟩
  · have hold := hinv.count other
    have hnew := hcount other
    rw [situations, hheld] at hold
    show userList.count other + 0 + disconnected.count other = server.placed other
    simp only [Option.some.injEq] at hold
    omega
  · rcases hother with hdisconnected | hidle
    · exact hmarked other hdisconnected
    · cases hidle

/-- Others refer to the connections. -/
theorem EpollInv.setRefs (hinv : server.EpollInv) {refs : List ℕ}
    (hlive : ∀ id ∈ refs, server.isLive id = true) : EpollInv { server with refs := refs } := by
  have hmono : ∀ id, isLive { server with refs := refs } id = true → server.isLive id = true :=
    isLive_mono (fun _ _ h ↦ isLive_of_lookup h) (fun _ h ↦ isLive_of_mem_userList h)
      (fun _ h ↦ isLive_of_monitorUser h) (fun _ h ↦ isLive_of_io h) hlive
  exact { hinv with
    distinct := hinv.distinct.mono (fun _ ↦ rfl) rfl hmono
    fresh := fun conn hconn ↦ owner_eq_none_mono (hinv.fresh conn hconn) (fun _ ↦ rfl) hmono }

/-- `popFrontUser` finds nothing. -/
theorem EpollInv.popNothing (hinv : server.EpollInv) (hmonitor : server.monitor = .idle) :
    EpollInv { server with monitorUser := none } := by
  have hmono : ∀ id, isLive { server with monitorUser := none } id = true →
      server.isLive id = true :=
    isLive_mono (fun _ _ h ↦ isLive_of_lookup h) (fun _ h ↦ isLive_of_mem_userList h) nofun
      (fun _ h ↦ isLive_of_io h) fun _ h ↦ isLive_of_mem_refs h
  refine { hinv with
    distinct := hinv.distinct.mono (fun _ ↦ rfl) rfl hmono
    fresh := fun conn hconn ↦ owner_eq_none_mono (hinv.fresh conn hconn) (fun _ ↦ rfl) hmono
    held := fun id hid ↦ ?_ }
  rw [show MonitorState.held _ = none by rw [hmonitor]; rfl] at hid
  cases hid

theorem EpollInv.setBatch (hinv : server.EpollInv) (batch : List (Event × Option ℕ)) :
    EpollInv { server with batch := batch } :=
  { hinv with distinct := hinv.distinct.mono (fun _ ↦ rfl) rfl fun _ h ↦ h }

/-- The I/O thread goes on to a state in which it refers to no connection. -/
theorem EpollInv.goOn (hinv : server.EpollInv) {io : IoState} (hwas : server.io.newUser = none)
    (hclosing : server.io ≠ .closing)
    (hio : io = .handling ∨ (∃ fd, io = .finding fd) ∨ ∃ fd culprit, io = .failing fd culprit) :
    EpollInv { server with io := io } := by
  rcases hio with rfl | ⟨fd, rfl⟩ | ⟨fd, culprit, rfl⟩
  all_goals
    refine hinv.setIo hwas hclosing nofun nofun (fun conn hconn ↦ ?_) nofun rfl
    rcases hconn with h | h <;> cases h

/-! ### Every step -/

theorem EpollInv.handle (hinv : server.EpollInv) (hio : server.io = .handling) {result : IoResult}
    (hstep : server.handle result = some next) : next.EpollInv := by
  have hwas : server.io.newUser = none := by
    rw [hio]
    rfl
  have hclosing : server.io ≠ .closing := by
    rw [hio]
    exact nofun
  obtain ⟨ev, raiser, rest, -, hcases⟩ := handle_cases hstep
  have hbatch := hinv.setBatch rest
  rcases hcases with ⟨-, conn, -, howner, rfl⟩ | rfl | ⟨fd, rfl⟩ | ⟨-, rfl⟩ | ⟨-, rfl⟩
  · refine hbatch.setIo hwas hclosing nofun nofun (fun other hother ↦ ?_) nofun rfl
    have heq : conn = other := by
      rcases hother with h | h
      · exact IoState.accepted.inj h
      · cases h
    exact heq ▸ howner
  · exact hbatch
  · exact hbatch.goOn hwas hclosing (.inr (.inl ⟨fd, rfl⟩))
  · exact hbatch.goOn hwas hclosing (.inr (.inr ⟨_, _, rfl⟩))
  · exact hbatch.goOn hwas hclosing (.inr (.inr ⟨_, _, rfl⟩))

/-- Every step keeps the invariant. -/
theorem step_epollInv {action : EpollAction} (hinv : server.EpollInv)
    (hstep : server.step action = some next) : next.EpollInv := by
  cases step_moves hstep with
  | wait events => exact hinv.setBatch _
  | handle result _ hio hhandle => exact hinv.handle hio hhandle
  | goOn _ hnew hclosing => exact hinv.goOn hnew hclosing (.inl rfl)
  | goCreate conn hio hlimit =>
    refine hinv.setIo (by simp [hio, IoState.newUser]) (by simp [hio]) (by simp [IoState.user])
      (by simp) (fun other hother ↦ ?_) (fun _ _ ↦ hlimit) rfl
    rcases hother with h | h
    · cases h
    · cases h
      exact hinv.fresh conn (.inl hio)
  | createUser conn hio hfree => exact hinv.createUser hio hfree
  | pushNewUser id hio => exact hinv.pushNewUser hio
  | findUser fd id hio hlookup =>
    refine hinv.setIo (by simp [hio, IoState.newUser]) (by simp [hio]) (fun other hother ↦ ?_)
      (fun fd' id' hworking ↦ ?_) (fun conn hconn ↦ ?_) (by simp) rfl
    · cases hother
      exact isLive_of_lookup hlookup
    · cases hworking
      exact (hinv.entry fd id hlookup).1
    · rcases hconn with h | h <;> cases h
  | workFails fd id hio =>
    exact hinv.goOn (by simp [hio, IoState.newUser]) (by simp [hio])
      (.inr (.inr ⟨fd, some id, rfl⟩))
  | closeUser fd id culprit hio hfree hlookup hopen => exact hinv.closeUser hio hfree hlookup hopen
  | popNothing hmonitor => exact hinv.popNothing hmonitor
  | popFrontUser id rest hmonitor hlist => exact hinv.popFrontUser hmonitor hlist
  | keep _ monitor hheld hclosing hmarked => exact hinv.setMonitor hheld hclosing hmarked
  | closeExpired held fd id hmonitor hfree hfd hlookup hopen =>
    exact hinv.closeExpired hmonitor hfree hfd hlookup hopen
  | onDisconnect id hmonitor =>
    refine hinv.letGo id (by simp [hmonitor, MonitorState.held]) (by simp [hmonitor])
      (fun _ h ↦ isLive_of_mem_userList h) (fun other ↦ ?_) (fun other hother ↦ ?_)
    · rw [List.count_append, List.count_singleton]
      simp only [beq_iff_eq]
      omega
    · rcases List.mem_append.mp hother with hold | hnew
      · exact hinv.marked other (.inl hold)
      · rw [List.mem_singleton.mp hnew]
        exact hinv.marked id (.inr hmonitor)
  | pushUserBack id hmonitor =>
    have hheld : server.monitor.held = some id := by
      rw [hmonitor]
      rfl
    refine hinv.letGo id hheld (by simp [hmonitor]) (fun other hother ↦ ?_)
      (fun other ↦ ?_) fun other hother ↦ hinv.marked other (.inl hother)
    · rcases List.mem_append.mp hother with hold | hnew
      · exact isLive_of_mem_userList hold
      · rw [List.mem_singleton.mp hnew]
        exact isLive_of_monitorUser (hinv.held id hheld)
    · rw [List.count_append, List.count_singleton]
      simp only [beq_iff_eq]
      omega
  | setClose call hcall hmarked => exact hinv.setClose hcall hmarked
  | eraseUser call hcall hthread =>
    obtain ⟨-, -, hio, -⟩ := hinv.call call hcall
    exact hinv.eraseUser hcall (.inr ⟨hio hthread, rfl⟩) (.inl rfl)
  | eraseExpired call hcall hthread monitor hmonitor =>
    obtain ⟨-, -, -, hclosing⟩ := hinv.call call hcall
    exact hinv.eraseUser hcall (.inl rfl)
      (.inr ⟨call.id, hclosing hthread, hmonitor _ (hclosing hthread)⟩)
  | setRefs _ refs hlive => exact hinv.setRefs hlive

/-! ### Every run -/

/-- A `closeUser` has marked a connection and still holds `_lockF2U`. -/
def BeingClosed (server : EpollServer) (id : ℕ) : Prop :=
  ∃ call, server.closing = some call ∧ call.id = id ∧ call.marked = true

/-- In every state of a run: an entry of `_fd2user` maps a descriptor to the connection that has it,
and the connection is not marked, unless a `closeUser` is about to remove it; the descriptors of the
connections that are referred to are distinct; there are at most `maxConnections` entries; a
connection that was created is in `_users` once, held by the monitor or disconnected; `onDisconnect`
is called once at most, of a connection that is marked, and not while it is in `_fd2user`, unless a
`closeUser` is about to remove it; and the monitor closes the connection that it holds and no
other. -/
theorem connection_lifecycle (listenFds : List ℕ) (maxConnections : ℤ) (actions : List EpollAction)
    {server : EpollServer}
    (hrun : runFrom step (new listenFds maxConnections) actions = some server) :
    (∀ fd id, server.fd2user.lookup fd = some id →
        server.fdOf id = some fd ∧ (server.closed id = true → server.BeingClosed id)) ∧
      (∀ i j fd, server.isLive i = true → server.isLive j = true → server.fdOf i = some fd →
        server.fdOf j = some fd → i = j) ∧
      (server.currentConnections : ℤ) ≤ max server.maxConnections 0 ∧
      (∀ id < server.users.length, server.io.newUser ≠ some id → server.situations id = 1) ∧
      (∀ id ∈ server.disconnected, server.disconnected.count id = 1 ∧ server.closed id = true ∧
        ∀ fd, server.fd2user.lookup fd = some id → server.BeingClosed id) ∧
      ∀ record ∈ server.closes, record.thread = .monitor → record.culprit = some record.id := by
  have hinv : server.EpollInv := runFrom_invariant EpollInv
    (fun _ _ _ hinv hstep ↦ step_epollInv hinv hstep) (epollInv_new listenFds maxConnections) hrun
  refine ⟨hinv.entry, hinv.distinct.unique, hinv.size_le, fun id hlt hnew ↦ ?_, fun id hid ↦ ?_,
    hinv.blame⟩
  · exact (hinv.count id).trans (if_pos ⟨hlt, hnew⟩)
  · have hmarked := hinv.marked id (.inl hid)
    refine ⟨?_, hmarked, fun fd hfd ↦ (hinv.entry fd id hfd).2 hmarked⟩
    have hpos : 0 < server.disconnected.count id := List.count_pos_iff.mpr hid
    have hcount := hinv.count id
    have hle : server.placed id ≤ 1 := by
      unfold placed
      split_ifs <;> decide
    rw [situations] at hcount
    omega

/-- A connection is accepted and created, its error is handled up to the mark, and the monitor looks
at it. -/
def errorSeenByMonitor : List EpollAction :=
  [.wait [⟨3, true, false, false, false⟩], .handle (.accepted 5), .checkLimit, .createUser true,
    .pushNewUser, .wait [⟨5, false, false, true, false⟩], .handle .failed, .closeUser, .setClose,
    .popFrontUser, .isExpired false, .isClosed, .onDisconnect]

theorem connection_lifecycle_error :
    ∃ server, runFrom step (new [3] 6000) (errorSeenByMonitor ++ [.eraseUser]) = some server ∧
      server.currentConnections = 0 ∧ server.disconnected = [0] ∧ server.situations 0 = 1 :=
  ⟨_, rfl, rfl, rfl,
    (connection_lifecycle [3] 6000 (errorSeenByMonitor ++ [.eraseUser]) rfl).2.2.2.1 0 (by decide)
      (by decide)⟩

/-- The monitor calls `onDisconnect` of a connection that is still in `_fd2user`. -/
theorem lifecycle_in_closeUser :
    ∃ server, runFrom step (new [3] 6000) errorSeenByMonitor = some server ∧
      server.fd2user.lookup 5 = some 0 ∧ server.closed 0 = true ∧ 0 ∈ server.disconnected :=
  ⟨_, rfl, rfl, rfl, by decide⟩

end EpollServer

end TszyUlt.Zbf
