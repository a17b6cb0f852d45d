import TszyUlt.Zbf.AsioUser

/-!
# The write queue of an ASIO connection

`zbf/asio_socket_tcp.hpp`: `write_data`, `do_write` and `handle_write`. A write is started in two
places: when a message enters an empty queue, and when a write has completed and more is queued. The
message stays at the front of the queue while its write is under way.

`Writing` lists where the write side of a connection can stand: no write, one that is under way, or
one whose handler is still queued. Every step keeps to it (`step_writing`), and
`outbound_discipline` is what it says of every run.
-/

set_option autoImplicit false
set_option relaxedAutoImplicit false

namespace TszyUlt.Zbf

open Lib

namespace AsioUser

/-- The writes whose handlers have not run yet, by their messages. -/
def outstandingWrites (user : AsioUser) : List TcpMessage :=
  user.writes ++ (user.ioStrand.filterMap writeDone).map Prod.fst

/-- A write is aborted only after the connection was stopped. -/
def AbortedAfterStop (user : AsioUser) : UserAction → Prop
  | .writeDone _ ec => ec = some .operationAborted → user.stop = true
  | _ => True

instance (user : AsioUser) : DecidablePred user.AbortedAfterStop
  | .writeDone _ ec => inferInstanceAs (Decidable (ec = some .operationAborted → user.stop = true))
  | .start | .stop | .onTick _ | .post _ | .readDone _ _ _ | .runIo _ | .runWorker => isTrue trivial

/-- Where the write side of a connection can stand. -/
inductive Writing (stop : Bool) (view : WriteView) : Prop
  /-- No write is outstanding. -/
  | idle (hwrites : view.writes = []) (hcompletions : view.completions = [])
      (hidle : stop = true ∨ view.writeQueue = [])
      (haccepted : view.accepted = view.written ++ view.writeQueue)
  /-- The message at the front is being written. -/
  | underWay (msg : TcpMessage) (rest : List TcpMessage) (hqueue : view.writeQueue = msg :: rest)
      (hwrites : view.writes = [msg]) (hcompletions : view.completions = [])
      (haccepted : view.accepted = view.written ++ view.writeQueue)
  /-- The message at the front was written. -/
  | succeeded (msg : TcpMessage) (rest : List TcpMessage) (hqueue : view.writeQueue = msg :: rest)
      (hwrites : view.writes = []) (hcompletions : view.completions = [(msg, none)])
      (haccepted : view.accepted = view.written ++ rest)
  /-- The write of the message at the front failed. -/
  | failed (msg : TcpMessage) (rest : List TcpMessage) (ec : AsioError)
      (hqueue : view.writeQueue = msg :: rest) (hwrites : view.writes = [])
      (hcompletions : view.completions = [(msg, some ec)])
      (haborted : ec = .operationAborted → stop = true)
      (haccepted : view.accepted = view.written ++ view.writeQueue)

/-- The writes of a connection that stops stand where they stood. -/
theorem Writing.of_stop {stop stop' : Bool} {view : WriteView} (hwriting : Writing stop view)
    (hstop : stop = true → stop' = true) : Writing stop' view := by
  cases hwriting with
  | idle hwrites hcompletions hidle haccepted =>
    exact .idle hwrites hcompletions (hidle.imp_left hstop) haccepted
  | underWay msg rest hqueue hwrites hcompletions haccepted =>
    exact .underWay msg rest hqueue hwrites hcompletions haccepted
  | succeeded msg rest hqueue hwrites hcompletions haccepted =>
    exact .succeeded msg rest hqueue hwrites hcompletions haccepted
  | failed msg rest ec hqueue hwrites hcompletions haborted haccepted =>
    exact .failed msg rest ec hqueue hwrites hcompletions (fun h ↦ hstop (haborted h)) haccepted

/-- A message that enters a queue with others in it changes nothing else. -/
theorem Writing.queue {stop : Bool} {view : WriteView} (hwriting : Writing stop view)
    (msg : TcpMessage) (hqueued : view.writeQueue ≠ []) :
    Writing stop { view with
      writeQueue := view.writeQueue ++ [msg]
      accepted := view.accepted ++ [msg] } := by
  cases hwriting with
  | idle hwrites hcompletions hidle haccepted =>
    refine .idle hwrites hcompletions (.inl (hidle.resolve_right hqueued)) ?_
    rw [haccepted, List.append_assoc]
  | underWay front rest hqueue hwrites hcompletions haccepted =>
    refine .underWay front (rest ++ [msg]) ?_ hwrites hcompletions ?_
    · rw [hqueue, List.cons_append]
    · rw [haccepted, List.append_assoc]
  | succeeded front rest hqueue hwrites hcompletions haccepted =>
    refine .succeeded front (rest ++ [msg]) ?_ hwrites hcompletions ?_
    · rw [hqueue, List.cons_append]
    · rw [haccepted, List.append_assoc]
  | failed front rest ec hqueue hwrites hcompletions haborted haccepted =>
    refine .failed front (rest ++ [msg]) ec ?_ hwrites hcompletions haborted ?_
    · rw [hqueue, List.cons_append]
    · rw [haccepted, List.append_assoc]

/-- The writes of a connection stand where they can. -/
def WriteInv (user : AsioUser) : Prop := Writing user.stop user.writeView

/-- A step that leaves the write side alone. -/
theorem WriteInv.congr {user next : AsioUser} (hinv : user.WriteInv)
    (hview : next.writeView = user.writeView) (hstop : user.stop = true → next.stop = true) :
    next.WriteInv := by
  rw [WriteInv, hview]
  exact hinv.of_stop hstop

theorem WriteInv.interrupt {user : AsioUser} (hinv : user.WriteInv) (interrupted : Bool) :
    (user.interrupt interrupted).WriteInv :=
  hinv.congr (writeView_interrupt user interrupted) fun hstop ↦ stop_interrupt hstop interrupted

/-- With no write outstanding, `do_write` starts the write of the message at the front. -/
theorem writeInv_doWrite {user : AsioUser} (hwrites : user.writeView.writes = [])
    (hcompletions : user.writeView.completions = [])
    (haccepted : user.writeView.accepted = user.writeView.written ++ user.writeView.writeQueue) :
    user.doWrite.WriteInv := by
  rw [WriteInv, stop_doWrite]
  unfold doWrite
  split
  · rename_i hqueue
    exact .idle hwrites hcompletions (.inr hqueue) haccepted
  · rename_i msg rest hqueue
    split_ifs with hstop
    · exact .idle hwrites hcompletions (.inl hstop) haccepted
    · refine .underWay msg rest hqueue ?_ hcompletions haccepted
      show user.writes ++ [msg] = [msg]
      rw [show user.writes = [] from hwrites, List.nil_append]

/-- A message that enters the queue is written after those before it. -/
theorem writeInv_writeData {user : AsioUser} (hinv : user.WriteInv) (msg : TcpMessage)
    (interrupted : Bool) : (user.writeData msg interrupted).WriteInv := by
  unfold writeData
  dsimp only
  split_ifs with hroom hempty
  · -- The queue was empty, so no write is outstanding.
    cases hinv with
    | idle hwrites hcompletions hidle haccepted =>
      apply writeInv_doWrite
      · rw [writeView_interrupt]
        exact hwrites
      · rw [writeView_interrupt]
        exact hcompletions
      · rw [writeView_interrupt]
        show user.accepted ++ [msg] = user.written ++ (user.writeQueue ++ [msg])
        rw [← List.append_assoc]
        exact congrArg (· ++ [msg]) haccepted
    | underWay front rest hqueue => cases hempty.symm.trans hqueue
    | succeeded front rest hqueue => cases hempty.symm.trans hqueue
    | failed front rest ec hqueue => cases hempty.symm.trans hqueue
  · have hqueued : WriteInv { user with
        writeQueue := user.writeQueue ++ [msg]
        accepted := user.accepted ++ [msg] } := Writing.queue hinv msg hempty
    exact hqueued.interrupt interrupted
  · exact hinv.interrupt interrupted

/-- The handler of a write takes its message off the queue and starts the next write, or the
connection is stopped. -/
theorem writeInv_handleWrite {user : AsioUser} {msg : TcpMessage} {ec : Option AsioError}
    {rest : List IoHandler} (hinv : user.WriteInv)
    (hstrand : user.ioStrand = .handleWrite msg ec :: rest) (interrupted : Bool) :
    (handleWrite { user with ioStrand := rest } ec interrupted).WriteInv := by
  have hfront : user.writeView.completions = (msg, ec) :: rest.filterMap writeDone := by
    rw [writeView, hstrand]
    rfl
  cases hinv with
  | idle hwrites hcompletions => cases hfront.symm.trans hcompletions
  | underWay front later hqueue hwrites hcompletions => cases hfront.symm.trans hcompletions
  | succeeded front later hqueue hwrites hcompletions haccepted =>
    obtain ⟨hhead, hrest⟩ := List.cons_eq_cons.mp (hfront.symm.trans hcompletions)
    cases hhead
    apply writeInv_doWrite
    · rw [writeView_interrupt]
      exact hwrites
    · rw [writeView_interrupt]
      exact hrest
    · rw [writeView_interrupt]
      have hlater : user.writeQueue.tail = later := congrArg List.tail hqueue
      show user.accepted = user.written ++ user.writeQueue.tail
      rw [hlater]
      exact haccepted
  | failed front later code hqueue hwrites hcompletions haborted haccepted =>
    obtain ⟨hhead, hrest⟩ := List.cons_eq_cons.mp (hfront.symm.trans hcompletions)
    cases hhead
    by_cases hcode : code = .operationAborted
    · subst hcode
      have hidle : WriteInv { user with ioStrand := rest } :=
        .idle hwrites hrest (.inl (haborted rfl)) haccepted
      exact hidle.interrupt interrupted
    · rw [handleWrite_of_error _ hcode, WriteInv, writeView_handleError]
      exact .idle hwrites hrest (.inl (stop_handleError _)) haccepted

variable {protocol : AsioProtocol}

/-- The position of the only element of a list. -/
theorem eq_of_getElem?_singleton {α : Type*} {x y : α} {index : ℕ} (h : [x][index]? = some y) :
    index = 0 ∧ x = y := by
  cases index with
  | zero => exact ⟨rfl, Option.some.inj h⟩
  | succ index => cases h

/-- The write that is outstanding completes, and its handler waits on the strand. -/
theorem writeInv_writeDone {user : AsioUser} {index : ℕ} {msg : TcpMessage} {ec : Option AsioError}
    (hinv : user.WriteInv) (hmsg : user.writes[index]? = some msg)
    (haborted : ec = some .operationAborted → user.stop = true) :
    WriteInv { user with
      writes := user.writes.eraseIdx index
      ioStrand := user.ioStrand ++ [.handleWrite msg ec]
      written := if ec = none then user.written ++ [msg] else user.written } := by
  cases hinv with
  | idle hwrites =>
    rw [show user.writes = [] from hwrites] at hmsg
    cases hmsg
  | underWay front rest hqueue hwrites hcompletions haccepted =>
    rw [show user.writes = [front] from hwrites] at hmsg
    obtain ⟨rfl, rfl⟩ := eq_of_getElem?_singleton hmsg
    have herased : user.writes.eraseIdx 0 = [] := by
      rw [show user.writes = [front] from hwrites]
      rfl
    have hqueued : (user.ioStrand ++ [IoHandler.handleWrite front ec]).filterMap writeDone =
        [(front, ec)] := by
      rw [List.filterMap_append, show user.ioStrand.filterMap writeDone = [] from hcompletions]
      rfl
    have haccepted' : user.accepted = user.written ++ front :: rest := by
      rw [← show user.writeQueue = front :: rest from hqueue]
      exact haccepted
    cases ec with
    | none =>
      refine .succeeded front rest hqueue herased hqueued ?_
      show user.accepted = (user.written ++ [front]) ++ rest
      rw [← List.append_cons]
      exact haccepted'
    | some code =>
      refine .failed front rest code hqueue herased hqueued ?_ haccepted
      exact fun hcode ↦ haborted (congrArg some hcode)
  | succeeded front rest hqueue hwrites =>
    rw [show user.writes = [] from hwrites] at hmsg
    cases hmsg
  | failed front rest code hqueue hwrites =>
    rw [show user.writes = [] from hwrites] at hmsg
    cases hmsg

/-- Assumes: a write is aborted only after the stop. Every step keeps the writes where they can
stand. -/
theorem step_writeInv {user next : AsioUser} {action : UserAction} (hinv : user.WriteInv)
    (haborted : user.AbortedAfterStop action) (hstep : user.step protocol action = some next) :
    next.WriteInv := by
  have hstopped := fun h ↦ step_stop protocol h hstep
  cases action with
  | start =>
    obtain ⟨-, rfl⟩ := start_cases hstep
    exact hinv
  | stop =>
    cases hstep
    exact hinv.congr (writeView_tryStop user .manual) hstopped
  | onTick exceeded =>
    cases hstep
    exact hinv.congr (writeView_onTick protocol user exceeded) hstopped
  | post msg =>
    cases hstep
    exact hinv.congr (writeView_post user msg) hstopped
  | readDone index data ec =>
    obtain ⟨op, -, -, rfl⟩ := readDone_cases hstep
    refine hinv.congr ?_ hstopped
    cases op <;> simp [writeView, readHandler, writeDone]
  | writeDone index ec =>
    obtain ⟨msg, hmsg, rfl⟩ := writeDone_cases hstep
    exact writeInv_writeDone hinv hmsg haborted
  | runIo interrupted =>
    obtain ⟨handler, rest, hstrand, rfl⟩ := runIo_cases hstep
    have hpopped : writeDone handler = none → WriteInv { user with ioStrand := rest } := by
      intro hhandler
      refine hinv.congr ?_ id
      rw [writeView, writeView, hstrand, List.filterMap_cons, hhandler]
    cases handler with
    | startRead =>
      exact (hpopped rfl).congr
        ((writeView_readHeader _).trans (writeView_interrupt _ interrupted)) hstopped
    | readBody header ec =>
      exact (hpopped rfl).congr (writeView_readBody protocol _ header ec interrupted) hstopped
    | handleRead msg ec =>
      exact (hpopped rfl).congr (writeView_handleRead protocol _ msg ec interrupted) hstopped
    | dispatch =>
      have hdispatched : WriteInv (dispatch { user with ioStrand := rest }) := hpopped rfl
      exact hdispatched.interrupt interrupted
    | writeData msg => exact writeInv_writeData (hpopped rfl) msg interrupted
    | handleWrite msg ec => exact writeInv_handleWrite hinv hstrand interrupted
  | runWorker => exact hinv.congr (writeView_runWorker hstep) hstopped

/-- Assumes: a write is aborted only after the connection was stopped. In every run at most one
write is outstanding, and it is for the message at the front of the queue; a connection that is not
stopped and has something to write is writing it; and the messages whose writes completed are, in
order, a prefix of those that entered the queue. -/
theorem outbound_discipline (protocol : AsioProtocol) (serverSide : Bool)
    (actions : List UserAction) {user : AsioUser}
    (haborted : Along (step protocol) AbortedAfterStop (new serverSide) actions)
    (hrun : runFrom (step protocol) (new serverSide) actions = some user) :
    (user.outstandingWrites = [] ∨
        ∃ msg, user.outstandingWrites = [msg] ∧ user.writeQueue.head? = some msg) ∧
      (user.stop = false → user.writeQueue ≠ [] → user.outstandingWrites.length = 1) ∧
      user.written <+: user.accepted := by
  have hinv : user.WriteInv := runFrom_invariant_along WriteInv
    (fun _ _ _ hinv haborted hstep ↦ step_writeInv hinv haborted hstep)
    (.idle rfl rfl (.inr rfl) rfl) haborted hrun
  have houtstanding : user.outstandingWrites =
      user.writeView.writes ++ user.writeView.completions.map Prod.fst := rfl
  rw [houtstanding]
  have hbegins : ∀ rest, user.writeView.accepted = user.writeView.written ++ rest →
      user.written <+: user.accepted := fun rest heq ↦ ⟨rest, heq.symm⟩
  cases hinv with
  | idle hwrites hcompletions hidle haccepted =>
    rw [hwrites, hcompletions]
    refine ⟨.inl rfl, fun hrunning hqueued ↦ ?_, hbegins _ haccepted⟩
    rcases hidle with hstop | hempty
    · rw [hrunning] at hstop
      cases hstop
    · exact absurd hempty hqueued
  | underWay msg rest hqueue hwrites hcompletions haccepted =>
    rw [hwrites, hcompletions]
    exact ⟨.inr ⟨msg, rfl, congrArg List.head? hqueue⟩, fun _ _ ↦ rfl, hbegins _ haccepted⟩
  | succeeded msg rest hqueue hwrites hcompletions haccepted =>
    rw [hwrites, hcompletions]
    exact ⟨.inr ⟨msg, rfl, congrArg List.head? hqueue⟩, fun _ _ ↦ rfl, hbegins _ haccepted⟩
  | failed msg rest ec hqueue hwrites hcompletions haborted haccepted =>
    rw [hwrites, hcompletions]
    exact ⟨.inr ⟨msg, rfl, congrArg List.head? hqueue⟩, fun _ _ ↦ rfl, hbegins _ haccepted⟩

/-- Two messages are posted; the first one is written, and then the second. -/
def twoPosts : List UserAction :=
  [.post ⟨[0x00#8]⟩, .post ⟨[0x01#8]⟩, .runIo false, .runIo false, .writeDone 0 none, .runIo false]

theorem outbound_discipline_two_posts :
    ∃ user, runFrom (step (.default .little)) (new true) twoPosts = some user ∧
      user.outstandingWrites = [⟨[0x01#8]⟩] ∧ user.written = [⟨[0x00#8]⟩] ∧
      (user.outstandingWrites = [] ∨
        ∃ msg, user.outstandingWrites = [msg] ∧ user.writeQueue.head? = some msg) ∧
      (user.stop = false → user.writeQueue ≠ [] → user.outstandingWrites.length = 1) ∧
      user.written <+: user.accepted :=
  ⟨_, rfl, rfl, rfl, outbound_discipline (.default .little) true twoPosts (by decide) rfl⟩

end AsioUser

end TszyUlt.Zbf
