import Mathlib.Data.Int.Order.Basic
import Mathlib.Order.Lattice
import TszyUlt.Lib.Transition

/-!
# Heartbeats keep a connection

`zbf/heartbeat_helper.hpp` at the two ends of a connection. A client notes the time when it has
given bytes to the socket (`flushAlive`), and when it checks (`checkAlive`) and that time is
`HeartbeatTime` or more ago, it posts a heartbeat like any other message. A server notes the time
when it has cut a message off what it received (`getRecvMsg`, `handle_read`), and its monitor closes
a user for whom that time is `UserTimeout` or more ago (`isExpired`). `socket_tcp_v5.hpp` and
`asio_socket_tcp.hpp` do the same with the same constants; they differ in how often they check.

`KeepAlive` is both ends with the messages between them and a clock. Each end reads whole seconds of
its own clock (`currentTimeSecs`), and the monitor works with a time that it may have read a while
ago. What is beyond the program is in the parameters: the longest time between two checks, between a
message being there to be sent and the socket taking some bytes of the queue, and between the first
bytes of a message being sent and the server having cut the message off. Time passes only while all
of these are kept (`advance`).

`not_expired` is the result: where these times together are no more than 59 seconds, no user is ever
expired, whatever else is sent or not sent. The proof bounds the time since the server last heard
something by two cases, that a message is on its way and that none is (`Invariant`).

Scope. A send that would block notes the time as well, though it sends nothing; it happens only
while bytes sent before have not been received. The two clocks run at the same rate.
-/

set_option autoImplicit false
set_option relaxedAutoImplicit false

namespace TszyUlt.Zbf

open Lib

/-- `heartbeat_helper`. -/
structure HeartbeatHelper where
  threshold : ℤ
  lastTime : ℤ
  deriving DecidableEq, Repr

namespace HeartbeatHelper

/-- The constructor. -/
def new (threshold : ℤ) : HeartbeatHelper := ⟨threshold, 0⟩

/-- `update`, at a time. -/
def update (helper : HeartbeatHelper) (now : ℤ) : HeartbeatHelper :=
  { helper with lastTime := now }

/-- `isExceed`, at a time. -/
def isExceed (helper : HeartbeatHelper) (now : ℤ) : Bool :=
  helper.threshold ≤ now - helper.lastTime

end HeartbeatHelper

/-- `HeartbeatTime`. -/
def heartbeatTime : ℤ := 30

/-- `UserTimeout`. -/
def userTimeout : ℤ := 90

/-- What the environment keeps to, in milliseconds, and how far the clock of each host is ahead. -/
structure KeepAliveBounds where
  /-- Between two checks of the client. -/
  check : ℕ
  /-- Until the socket takes some bytes, while there are messages in the queue. -/
  send : ℕ
  /-- From the first bytes of a message to the call that cuts it off at the server. -/
  deliver : ℕ
  clientAhead : ℕ
  serverAhead : ℕ
  deriving DecidableEq, Repr

/-- `currentTimeSecs` on a host whose clock is ahead by so much, at a time in milliseconds. -/
def currentTimeSecs (ahead now : ℕ) : ℤ := ((now + ahead) / 1000 : ℕ)

/-- A connection that is kept alive: the helpers of both ends, the write queue of the client, and
the deadlines of what the environment is to do. -/
structure KeepAlive where
  now : ℕ
  client : HeartbeatHelper
  server : HeartbeatHelper
  /-- The time with which the monitor of the server compares. -/
  scanTime : ℤ
  /-- How many messages are in the write queue of the client. -/
  queued : ℕ
  /-- Whether some bytes of the first of them were sent. -/
  begun : Bool
  /-- For each message of which bytes were sent, until when the server will have cut it off. -/
  inFlight : List ℕ
  checkBy : ℕ
  sendBy : ℕ
  /-- When each end last noted the time. -/
  clientAt : ℕ
  serverAt : ℕ
  expired : Bool
  deriving DecidableEq, Repr

/-- The steps of the two ends, and the time that passes. -/
inductive KeepAliveAction
  | advance (millis : ℕ)
  /-- A message is posted by the application. -/
  | post
  | checkAlive
  /-- `sendData`: the socket took some bytes of the first message, or the rest of it. -/
  | send (whole : Bool)
  /-- `sendData`: the socket would block. -/
  | wouldBlock
  /-- `getRecvMsg`: a message is cut off. -/
  | getRecvMsg
  /-- `monitor`: the time is read again. -/
  | readTime
  /-- `monitor`: the user is looked at. -/
  | monitor
  deriving DecidableEq, Repr

namespace KeepAlive

variable (bounds : KeepAliveBounds)

/-- A user that was just accepted, at a time, and its client. -/
def new (now : ℕ) (lastTime : ℤ) : KeepAlive where
  now := now
  client := ⟨heartbeatTime, lastTime⟩
  server := (HeartbeatHelper.new userTimeout).update (currentTimeSecs bounds.serverAhead now)
  scanTime := currentTimeSecs bounds.serverAhead now
  queued := 0
  begun := false
  inFlight := []
  checkBy := now + bounds.check
  sendBy := now
  clientAt := now
  serverAt := now
  expired := false

/-- `post`: a message enters the queue of the client, if it is not full. -/
def post (link : KeepAlive) : KeepAlive :=
  if link.queued > 256 then link
  else { link with
    queued := link.queued + 1
    sendBy := if link.queued = 0 then link.now + bounds.send else link.sendBy }

/-- `flushAlive`, after which the next bytes are due. -/
def flushAlive (link : KeepAlive) : KeepAlive :=
  { link with
    client := link.client.update (currentTimeSecs bounds.clientAhead link.now)
    clientAt := link.now
    sendBy := link.now + bounds.send }

/-- Nothing is due before the time. -/
def NothingDue (link : KeepAlive) (time : ℕ) : Prop :=
  time ≤ link.checkBy ∧ (0 < link.queued → time ≤ link.sendBy) ∧ ∀ due ∈ link.inFlight, time ≤ due

instance (link : KeepAlive) (time : ℕ) : Decidable (link.NothingDue time) :=
  inferInstanceAs (Decidable (_ ∧ _ ∧ _))

/-- One step. -/
def step (link : KeepAlive) : KeepAliveAction → Option KeepAlive
  | .advance millis =>
    if link.NothingDue (link.now + millis) then some { link with now := link.now + millis }
    else none
  | .post => some (link.post bounds)
  | .checkAlive =>
    let checked := { link with checkBy := link.now + bounds.check }
    if link.client.isExceed (currentTimeSecs bounds.clientAhead link.now) then
      some (checked.post bounds)
    else some checked
  | .send whole =>
    if 0 < link.queued then
      some { link.flushAlive bounds with
        queued := if whole then link.queued - 1 else link.queued
        begun := !whole
        inFlight :=
          if link.begun then link.inFlight
          else link.inFlight ++ [link.now + bounds.deliver] }
    else none
  | .wouldBlock =>
    if 0 < link.queued ∧ link.inFlight ≠ [] then some (link.flushAlive bounds) else none
  | .getRecvMsg =>
    match link.inFlight with
    | [] => none
    | _ :: rest =>
      -- The message of which only some bytes were sent is the last one.
      if link.begun ∧ rest = [] then none
      else some { link with
        server := link.server.update (currentTimeSecs bounds.serverAhead link.now)
        serverAt := link.now
        inFlight := rest }
  | .readTime => some { link with scanTime := currentTimeSecs bounds.serverAhead link.now }
  | .monitor => some { link with expired := link.expired || link.server.isExceed link.scanTime }

/-! ### What holds in every run -/

/-- When either end last noted the time. -/
def notedAt (link : KeepAlive) : ℕ := max link.clientAt link.serverAt

/-- What holds in every state. A check leaves no more than 30 seconds without bytes being sent
unnoticed, and the message on its way that is due first was sent at a time when the server had heard
of the one before. -/
structure Invariant (link : KeepAlive) : Prop where
  client_threshold : link.client.threshold = heartbeatTime
  client_lastTime : link.client.lastTime ≤ currentTimeSecs bounds.clientAhead link.notedAt
  server_eq : link.server = ⟨userTimeout, currentTimeSecs bounds.serverAhead link.serverAt⟩
  scanTime_le : link.scanTime ≤ currentTimeSecs bounds.serverAhead link.now
  notedAt_le : link.notedAt ≤ link.now
  nothingDue : link.NothingDue link.now
  checkBy_le : link.checkBy ≤ link.now + bounds.check
  idle : link.queued = 0 → link.checkBy ≤ link.notedAt + 29999 + bounds.check
  waiting : 0 < link.queued → link.sendBy ≤ link.notedAt + 29999 + bounds.check + bounds.send
  received : link.inFlight = [] → link.clientAt ≤ link.serverAt
  begun : link.begun = true → link.inFlight ≠ []
  due_le : ∀ due ∈ link.inFlight, due ≤ link.now + bounds.deliver
  first_le : ∀ due ∈ link.inFlight.head?,
    due ≤ link.serverAt + 29999 + bounds.check + bounds.send + bounds.deliver
  not_expired : link.expired = false

variable {bounds : KeepAliveBounds} {link next : KeepAlive}

theorem currentTimeSecs_mono (ahead : ℕ) {first second : ℕ} (hle : first ≤ second) :
    currentTimeSecs ahead first ≤ currentTimeSecs ahead second :=
  Int.ofNat_le.mpr (Nat.div_le_div_right (Nat.add_le_add_right hle ahead))

/-- Whole seconds that differ by so much are so far apart, less one second. -/
theorem lt_of_secs_sub {ahead first second : ℕ} {secs : ℕ} (hsecs : 0 < secs)
    (hsub : (secs : ℤ) ≤ currentTimeSecs ahead second - currentTimeSecs ahead first) :
    first + 1000 * (secs - 1) < second := by
  unfold currentTimeSecs at hsub
  omega

theorem le_of_secs_sub {ahead first second : ℕ} {secs : ℕ}
    (hsub : currentTimeSecs ahead second - currentTimeSecs ahead first < secs) :
    second < first + 1000 * secs := by
  unfold currentTimeSecs at hsub
  omega

theorem invariant_new (bounds : KeepAliveBounds) {now : ℕ} {lastTime : ℤ}
    (hlast : lastTime ≤ currentTimeSecs bounds.clientAhead now) :
    (new bounds now lastTime).Invariant bounds where
  client_threshold := rfl
  client_lastTime := by rwa [notedAt, new, max_self]
  server_eq := rfl
  scanTime_le := le_rfl
  notedAt_le := by rw [notedAt, new, max_self]
  nothingDue := ⟨Nat.le_add_right _ _, fun _ ↦ le_rfl, fun _ hmem ↦ absurd hmem List.not_mem_nil⟩
  checkBy_le := le_rfl
  idle := fun _ ↦ by
    simp only [notedAt, new, max_self]
    omega
  waiting := fun h ↦ absurd h (lt_irrefl _)
  received := fun _ ↦ le_rfl
  begun := nofun
  due_le := fun _ hmem ↦ absurd hmem List.not_mem_nil
  first_le := nofun
  not_expired := rfl

/-- The time since the server last heard something. -/
theorem Invariant.now_le (hinv : link.Invariant bounds) :
    link.now ≤ link.serverAt + 29999 + bounds.check + bounds.send + bounds.deliver := by
  obtain ⟨hcheck, hsend, hdue⟩ := hinv.nothingDue
  cases hflight : link.inFlight with
  | nil =>
    have hnoted : link.notedAt = link.serverAt := max_eq_right (hinv.received hflight)
    rcases Nat.eq_zero_or_pos link.queued with hzero | hpos
    · have hidle := hinv.idle hzero
      omega
    · have hwaiting := hinv.waiting hpos
      have hsend := hsend hpos
      omega
  | cons due rest =>
    have hfirst := hinv.first_le due (by rw [hflight]; rfl)
    have hnow := hdue due (by rw [hflight]; exact List.mem_cons_self)
    omega

/-! ### The steps -/

/-- A message is posted; the client may be checking. -/
theorem Invariant.post (hinv : link.Invariant bounds) {checkBy : ℕ} (hnow : link.now ≤ checkBy)
    (hcheckBy : checkBy ≤ link.now + bounds.check) :
    ({ link with checkBy := checkBy }.post bounds).Invariant bounds := by
  obtain ⟨hcheck, hsend, hdue⟩ := hinv.nothingDue
  unfold KeepAlive.post
  split_ifs with hfull hzero
  · have hpos : 0 < link.queued := lt_of_le_of_lt (Nat.zero_le _) hfull
    exact ⟨hinv.client_threshold, hinv.client_lastTime, hinv.server_eq, hinv.scanTime_le,
      hinv.notedAt_le, ⟨hnow, hsend, hdue⟩, hcheckBy, fun h ↦ absurd h hpos.ne', hinv.waiting,
      hinv.received, hinv.begun, hinv.due_le, hinv.first_le, hinv.not_expired⟩
  · -- The queue was empty, so the last check was in time.
    have hidle := hinv.idle hzero
    have hnoted : link.now + bounds.send ≤
        link.notedAt + 29999 + bounds.check + bounds.send := by omega
    exact ⟨hinv.client_threshold, hinv.client_lastTime, hinv.server_eq, hinv.scanTime_le,
      hinv.notedAt_le, ⟨hnow, fun _ ↦ Nat.le_add_right _ _, hdue⟩, hcheckBy,
      fun h ↦ absurd h (Nat.succ_ne_zero _), fun _ ↦ hnoted, hinv.received, hinv.begun, hinv.due_le,
      hinv.first_le, hinv.not_expired⟩
  · have hpos := Nat.pos_of_ne_zero hzero
    exact ⟨hinv.client_threshold, hinv.client_lastTime, hinv.server_eq, hinv.scanTime_le,
      hinv.notedAt_le, ⟨hnow, fun _ ↦ hsend hpos, hdue⟩, hcheckBy,
      fun h ↦ absurd h (Nat.succ_ne_zero _), fun _ ↦ hinv.waiting hpos, hinv.received, hinv.begun,
      hinv.due_le, hinv.first_le, hinv.not_expired⟩

/-- The client checks: it posts a heartbeat, or it has sent something in the last 30 seconds. -/
theorem Invariant.checkAlive (hinv : link.Invariant bounds)
    (hstep : link.step bounds .checkAlive = some next) : next.Invariant bounds := by
  obtain ⟨-, hsend, hdue⟩ := hinv.nothingDue
  simp only [KeepAlive.step] at hstep
  split_ifs at hstep with hexceed
  · cases hstep
    exact hinv.post (Nat.le_add_right _ _) le_rfl
  · cases hstep
    have hsecs : currentTimeSecs bounds.clientAhead link.now -
        currentTimeSecs bounds.clientAhead link.notedAt < (30 : ℕ) := by
      have hlast := hinv.client_lastTime
      rw [HeartbeatHelper.isExceed, hinv.client_threshold, heartbeatTime,
        decide_eq_true_iff] at hexceed
      omega
    have hrecent := le_of_secs_sub hsecs
    exact ⟨hinv.client_threshold, hinv.client_lastTime, hinv.server_eq, hinv.scanTime_le,
      hinv.notedAt_le, ⟨Nat.le_add_right _ _, hsend, hdue⟩, le_rfl,
      fun _ ↦ by show link.now + bounds.check ≤ link.notedAt + 29999 + bounds.check; omega,
      hinv.waiting, hinv.received, hinv.begun, hinv.due_le, hinv.first_le, hinv.not_expired⟩

/-- The client notes that bytes were sent. -/
theorem Invariant.flushAlive (hinv : link.Invariant bounds) {queued : ℕ} {begun : Bool}
    {inFlight : List ℕ} (hnonempty : inFlight ≠ [])
    (hnow : ∀ due ∈ inFlight, link.now ≤ due) (hdue : ∀ due ∈ inFlight,
      due ≤ link.now + bounds.deliver)
    (hfirst : ∀ due ∈ inFlight.head?,
      due ≤ link.serverAt + 29999 + bounds.check + bounds.send + bounds.deliver) :
    ({ link.flushAlive bounds with
      queued := queued, begun := begun, inFlight := inFlight } : KeepAlive).Invariant bounds := by
  have hserver : link.serverAt ≤ link.now := (le_max_right _ _).trans hinv.notedAt_le
  have hnoted : max link.now link.serverAt = link.now := max_eq_left hserver
  have hcheckBy := hinv.checkBy_le
  exact {
    client_threshold := hinv.client_threshold
    client_lastTime := by
      show currentTimeSecs bounds.clientAhead link.now ≤
        currentTimeSecs bounds.clientAhead (max link.now link.serverAt)
      rw [hnoted]
    server_eq := hinv.server_eq
    scanTime_le := hinv.scanTime_le
    notedAt_le := hnoted.le
    nothingDue := ⟨hinv.nothingDue.1, fun _ ↦ Nat.le_add_right _ _, hnow⟩
    checkBy_le := hcheckBy
    idle := fun _ ↦ by
      show link.checkBy ≤ max link.now link.serverAt + 29999 + bounds.check
      omega
    waiting := fun _ ↦ by
      show link.now + bounds.send ≤
        max link.now link.serverAt + 29999 + bounds.check + bounds.send
      omega
    received := fun h ↦ absurd h hnonempty
    begun := fun _ ↦ hnonempty
    due_le := hdue
    first_le := hfirst
    not_expired := hinv.not_expired }

/-- The socket takes bytes of the first message. Those of a new one are on their way from now on. -/
theorem Invariant.send (hinv : link.Invariant bounds) {whole : Bool}
    (hstep : link.step bounds (.send whole) = some next) : next.Invariant bounds := by
  by_cases hpos : 0 < link.queued
  · rw [KeepAlive.step, if_pos hpos] at hstep
    cases hstep
    by_cases hbegun : link.begun = true
    · rw [if_pos hbegun]
      exact hinv.flushAlive (hinv.begun hbegun) hinv.nothingDue.2.2 hinv.due_le hinv.first_le
    · rw [if_neg hbegun]
      refine hinv.flushAlive (List.concat_ne_nil _ _) (fun due hmem ↦ ?_) (fun due hmem ↦ ?_)
        fun due hhead ↦ ?_
      · rcases List.mem_append.mp hmem with hold | hlast
        · exact hinv.nothingDue.2.2 due hold
        · rw [List.mem_singleton.mp hlast]
          exact Nat.le_add_right _ _
      · rcases List.mem_append.mp hmem with hold | hlast
        · exact hinv.due_le due hold
        · rw [List.mem_singleton.mp hlast]
      · cases hflight : link.inFlight with
        | nil =>
          -- The server has heard of everything that was sent before.
          rw [hflight] at hhead
          obtain rfl : link.now + bounds.deliver = due := Option.some.inj hhead
          have hnoted : link.notedAt = link.serverAt := max_eq_right (hinv.received hflight)
          have hsend := hinv.nothingDue.2.1 hpos
          have hwaiting := hinv.waiting hpos
          omega
        | cons first rest =>
          rw [hflight] at hhead
          exact hinv.first_le due (by rw [hflight]; exact hhead)
  · rw [KeepAlive.step, if_neg hpos] at hstep
    cases hstep

/-- The server cuts off the message that was sent first. -/
theorem Invariant.getRecvMsg (hinv : link.Invariant bounds)
    (hstep : link.step bounds .getRecvMsg = some next) : next.Invariant bounds := by
  obtain ⟨hcheck, hsend, hdue⟩ := hinv.nothingDue
  simp only [KeepAlive.step] at hstep
  split at hstep
  · cases hstep
  · rename_i due rest hflight
    split_ifs at hstep with hlast
    cases hstep
    have hmem : ∀ other ∈ rest, other ∈ link.inFlight := fun other hother ↦ by
      rw [hflight]
      exact List.mem_cons_of_mem _ hother
    have hclient : link.clientAt ≤ link.now := (le_max_left _ _).trans hinv.notedAt_le
    have hnoted : max link.clientAt link.now = link.now := max_eq_right hclient
    have hidle := hinv.idle
    have hwaiting := hinv.waiting
    have hold := hinv.notedAt_le
    exact {
      client_threshold := hinv.client_threshold
      client_lastTime := hinv.client_lastTime.trans (currentTimeSecs_mono _ (by
        show link.notedAt ≤ max link.clientAt link.now
        omega))
      server_eq := by rw [hinv.server_eq]; rfl
      scanTime_le := hinv.scanTime_le
      notedAt_le := hnoted.le
      nothingDue := ⟨hcheck, hsend, fun other hother ↦ hdue other (hmem other hother)⟩
      checkBy_le := hinv.checkBy_le
      idle := fun hzero ↦ (hidle hzero).trans (by
        show _ ≤ max link.clientAt link.now + 29999 + bounds.check
        omega)
      waiting := fun hpos ↦ (hwaiting hpos).trans (by
        show _ ≤ max link.clientAt link.now + 29999 + bounds.check + bounds.send
        omega)
      received := fun _ ↦ hclient
      begun := fun hbegun hnil ↦ hlast ⟨hbegun, hnil⟩
      due_le := fun other hother ↦ hinv.due_le other (hmem other hother)
      first_le := fun other hhead ↦ by
        have hle := hinv.due_le other (hmem other (List.mem_of_mem_head? hhead))
        show other ≤ link.now + 29999 + bounds.check + bounds.send + bounds.deliver
        omega
      not_expired := hinv.not_expired }

/-- Time passes. -/
theorem Invariant.advance (hinv : link.Invariant bounds) {millis : ℕ}
    (hdue : link.NothingDue (link.now + millis)) :
    ({ link with now := link.now + millis } : KeepAlive).Invariant bounds where
  client_threshold := hinv.client_threshold
  client_lastTime := hinv.client_lastTime
  server_eq := hinv.server_eq
  scanTime_le := hinv.scanTime_le.trans (currentTimeSecs_mono _ (Nat.le_add_right _ _))
  notedAt_le := hinv.notedAt_le.trans (Nat.le_add_right _ _)
  nothingDue := hdue
  checkBy_le := hinv.checkBy_le.trans (Nat.add_le_add_right (Nat.le_add_right _ _) _)
  idle := hinv.idle
  waiting := hinv.waiting
  received := hinv.received
  begun := hinv.begun
  due_le := fun due hmem ↦
    (hinv.due_le due hmem).trans (Nat.add_le_add_right (Nat.le_add_right _ _) _)
  first_le := hinv.first_le
  not_expired := hinv.not_expired

/-- The monitor does not find the user expired. -/
theorem Invariant.not_isExceed (hinv : link.Invariant bounds)
    (hbounds : bounds.check + bounds.send + bounds.deliver ≤ 59000) :
    link.server.isExceed link.scanTime = false := by
  rw [← Bool.not_eq_true]
  intro hexceed
  have hnow := hinv.now_le
  have hscan := hinv.scanTime_le
  rw [hinv.server_eq, HeartbeatHelper.isExceed, userTimeout, decide_eq_true_iff] at hexceed
  have hsecs : ((90 : ℕ) : ℤ) ≤ currentTimeSecs bounds.serverAhead link.now -
      currentTimeSecs bounds.serverAhead link.serverAt :=
    hexceed.trans (Int.sub_le_sub_right hscan _)
  have hfar := lt_of_secs_sub (Nat.succ_pos 89) hsecs
  omega

theorem Invariant.step (hinv : link.Invariant bounds)
    (hbounds : bounds.check + bounds.send + bounds.deliver ≤ 59000) {action : KeepAliveAction}
    (hstep : link.step bounds action = some next) : next.Invariant bounds := by
  cases action with
  | advance millis =>
    simp only [KeepAlive.step] at hstep
    split_ifs at hstep with hdue
    cases hstep
    exact hinv.advance hdue
  | post =>
    cases hstep
    exact hinv.post hinv.nothingDue.1 hinv.checkBy_le
  | checkAlive => exact hinv.checkAlive hstep
  | send whole => exact hinv.send hstep
  | wouldBlock =>
    simp only [KeepAlive.step] at hstep
    split_ifs at hstep with hflight
    cases hstep
    exact hinv.flushAlive hflight.2 hinv.nothingDue.2.2 hinv.due_le hinv.first_le
  | getRecvMsg => exact hinv.getRecvMsg hstep
  | readTime =>
    cases hstep
    exact { hinv with scanTime_le := le_rfl }
  | monitor =>
    cases hstep
    refine { hinv with not_expired := ?_ }
    show (link.expired || link.server.isExceed link.scanTime) = false
    rw [hinv.not_expired, hinv.not_isExceed hbounds]
    rfl

/-- Assumes: a run from the acceptance of a user, whose client has not noted a later time, and
bounds that are no more than 59 seconds together. The user is never found expired. -/
theorem not_expired (bounds : KeepAliveBounds)
    (hbounds : bounds.check + bounds.send + bounds.deliver ≤ 59000) {start : ℕ} {lastTime : ℤ}
    (hlast : lastTime ≤ currentTimeSecs bounds.clientAhead start)
    {actions : List KeepAliveAction} {final : KeepAlive}
    (hrun : runFrom (step bounds) (new bounds start lastTime) actions = some final) :
    final.expired = false :=
  (runFrom_invariant (Invariant bounds) (fun _ _ _ hinv hstep ↦ hinv.step hbounds hstep)
    (invariant_new bounds hlast) hrun).not_expired

/-- A client that checks every three seconds sends a heartbeat at the tenth check. -/
theorem not_expired_heartbeat :
    ∃ final, runFrom (step ⟨3050, 1000, 50000, 0, 0⟩) (new ⟨3050, 1000, 50000, 0, 0⟩ 0 0)
        ((List.replicate 10 [.advance 3050, .checkAlive]).flatten ++
          [.send true, .getRecvMsg, .readTime, .monitor]) = some final ∧
      final.serverAt = 30500 ∧ final.expired = false := by
  have hheard : (runFrom (step ⟨3050, 1000, 50000, 0, 0⟩) (new ⟨3050, 1000, 50000, 0, 0⟩ 0 0)
      ((List.replicate 10 [.advance 3050, .checkAlive]).flatten ++
        [.send true, .getRecvMsg, .readTime, .monitor])).map serverAt = some 30500 := by
    decide +kernel
  obtain ⟨final, hrun, hserver⟩ := Option.map_eq_some_iff.mp hheard
  exact ⟨final, hrun, hserver,
    not_expired ⟨3050, 1000, 50000, 0, 0⟩ (by decide) (by decide) hrun⟩

end KeepAlive

end TszyUlt.Zbf
