import Mathlib.Data.List.Infix
import Mathlib.Data.List.Nodup
import Mathlib.Data.List.TakeWhile
import Mathlib.Data.List.Perm.Subperm
import Mathlib.Data.Int.Order.Basic
import TszyUlt.Lib.DataRefinement
import TszyUlt.Lib.Table

/-!
# The poller where there is no `epoll`

On Windows `socket_poll` keeps the registrations itself: a map from the number of an instance to the
list of its entries, each a descriptor with its user pointer and its event mask, in the order of
registration. `sp_wait` hands the entries to `WSAPoll` and copies out those with a result, up to the
limit, from the front of the list. A `Call` is one of the functions of the class with its arguments
and `call` answers it; what `WSAPoll` finds is an argument of the wait.

Over it, `Interests` says what a poller is for: each instance holds for a descriptor at most one
`Interest`, and `Interests.Allows` is the answer that a call may get. It leaves open which number a
new instance gets, as long as it is free and valid, and which of the ready descriptors a wait
reports when there are more of them than fit.

* `conforms_interests`: the answers to any sequence of calls are ones that the specification allows,
  where a descriptor is only added to an instance that exists.
* `never_reported`: a descriptor that has as many others registered ahead of it as a wait can report
  is not reported while these are ready, however many waits there are. An `epoll` takes turns.

Scope. The functions hold one lock from start to end, other than `sp_wait`, which copies the entries
under the lock. How long a wait takes is left out, and so is the buffer that the caller provides for
the events. An instance number past the largest `int` is undefined behaviour: no answer.
-/

set_option autoImplicit false
set_option relaxedAutoImplicit false

namespace TszyUlt.Zbf.PollEmulation

open Lib

/-! ### Masks and events -/

/-- `short`, as `WSAPOLLFD` has its masks. -/
abbrev Short := BitVec 16

/-- `POLLIN`. -/
def pollIn : Short := 0x0300

/-- `POLLOUT`. -/
def pollOut : Short := 0x0010

/-- `POLLERR`. -/
def pollErr : Short := 0x0001

/-- `POLLHUP`. -/
def pollHup : Short := 0x0002

/-- `(read_enable ? POLLIN : 0) | (write_enable ? POLLOUT : 0)`. -/
def eventMask (readEnable writeEnable : Bool) : Short :=
  (if readEnable then pollIn else 0) ||| (if writeEnable then pollOut else 0)

/-- `event`. -/
structure Event where
  ud : Option ℕ
  fd : ℤ
  read : Bool
  write : Bool
  error : Bool
  eof : Bool
  deriving DecidableEq, Repr

/-- The event of a descriptor for which `WSAPoll` returned a mask. -/
def Event.ofMask (ud : Option ℕ) (fd : ℤ) (rev : Short) : Event where
  ud := ud
  fd := fd
  read := rev &&& pollIn != 0
  write := rev &&& pollOut != 0
  error := rev &&& pollErr != 0
  eof := rev &&& pollHup != 0

/-- What `WSAPoll` returns for a descriptor and the events asked of it, or `none` when it fails. -/
abbrev PollResult := Option (ℤ → Short → Short)

/-- `MAX_EVENT`. -/
def maxEvents : ℤ := 64

/-- The largest `int`. -/
def intMax : ℤ := 2147483647

/-! ### The entries of an instance -/

/-- `fd_entry`. A null user pointer is `none`. -/
structure FdEntry where
  fd : ℤ
  ud : Option ℕ
  events : Short
  deriving DecidableEq, Repr

/-- `_find_fd`. -/
def findFd (entries : List FdEntry) (fd : ℤ) : Option FdEntry := entries.find? (·.fd == fd)

/-- What is written through the pointer that `_find_fd` returned. -/
def updateFd (fd : ℤ) (write : FdEntry → FdEntry) : List FdEntry → List FdEntry
  | [] => []
  | entry :: entries =>
    if entry.fd = fd then write entry :: entries else entry :: updateFd fd write entries

/-- The loop of `sp_wait` over the results of `WSAPoll`. -/
def report (returned : ℤ → Short → Short) (max : ℤ) : ℤ → List FdEntry → List Event
  | _, [] => []
  | count, entry :: entries =>
    if count < max then
      let rev := returned entry.fd entry.events
      if rev = 0 then report returned max count entries
      else Event.ofMask entry.ud entry.fd rev :: report returned max (count + 1) entries
    else []

/-! ### The poller -/

/-- `socket_poll`: `_instances` and `_next_id`. -/
structure SocketPoll where
  instances : Table ℤ (List FdEntry)
  nextId : ℤ

/-- The poller at the start of the program. -/
def SocketPoll.new : SocketPoll := ⟨Table.empty, 0⟩

/-- A function that is called, with its arguments. -/
inductive Call
  | create
  | release (efd : ℤ)
  | add (efd fd : ℤ) (ud : Option ℕ) (writeEnable : Bool)
  | del (efd fd : ℤ)
  | enable (efd fd : ℤ) (ud : Option ℕ) (readEnable writeEnable : Bool)
  | wait (efd max : ℤ) (polled : PollResult)

/-- What a function returns, 0 where it is `void`, with the events that a wait copied out. -/
structure Answer where
  code : ℤ
  events : List Event
  deriving DecidableEq, Repr

namespace SocketPoll

variable (poll : SocketPoll)

/-- `sp_create`. -/
def spCreate : Option (Answer × SocketPoll) :=
  if poll.nextId < intMax then
    some (⟨poll.nextId + 1, []⟩,
      { instances := Function.update poll.instances (poll.nextId + 1) (some []),
        nextId := poll.nextId + 1 })
  else none

/-- `sp_release`. -/
def spRelease (efd : ℤ) : Answer × SocketPoll :=
  (⟨0, []⟩, { poll with instances := poll.instances.erase efd })

/-- `sp_add_ex`, and `sp_add` where `ud` is null. -/
def spAddEx (efd fd : ℤ) (ud : Option ℕ) (writeEnable : Bool) : Answer × SocketPoll :=
  -- `_instances[efd]` makes an instance where there is none
  let entries := (poll.instances efd).getD []
  if (findFd entries fd).isSome then
    (⟨1, []⟩, { poll with instances := Function.update poll.instances efd (some entries) })
  else
    (⟨0, []⟩, { poll with
      instances := Function.update poll.instances efd
        (some (entries ++ [⟨fd, ud, pollIn ||| (if writeEnable then pollOut else 0)⟩])) })

/-- `sp_del`. -/
def spDel (efd fd : ℤ) : Answer × SocketPoll :=
  match poll.instances efd with
  | none => (⟨0, []⟩, poll)
  | some entries =>
    (⟨0, []⟩, { poll with
      instances := Function.update poll.instances efd (some (entries.filter fun e ↦ e.fd != fd)) })

/-- `sp_enable_ex`, and `sp_enable` where `ud` is null. -/
def spEnableEx (efd fd : ℤ) (ud : Option ℕ) (readEnable writeEnable : Bool) :
    Answer × SocketPoll :=
  match poll.instances efd with
  | none => (⟨1, []⟩, poll)
  | some entries =>
    if (findFd entries fd).isSome then
      (⟨0, []⟩, { poll with
        instances := Function.update poll.instances efd
          (some (updateFd fd (fun entry ↦
            { entry with events := eventMask readEnable writeEnable, ud := ud <|> entry.ud })
            entries)) })
    else (⟨1, []⟩, poll)

/-- `sp_wait`. -/
def spWait (efd max : ℤ) (polled : PollResult) : Answer :=
  let max := if max > maxEvents then maxEvents else max
  match poll.instances efd with
  | none => ⟨-1, []⟩
  | some entries =>
    if entries.length = 0 then ⟨0, []⟩
    else
      match polled with
      | none => ⟨-1, []⟩
      | some returned =>
        let n := entries.countP fun e ↦ returned e.fd e.events != 0
        if n = 0 then ⟨0, []⟩
        else
          let events := report returned max 0 entries
          ⟨events.length, events⟩

/-- One call. -/
def call (poll : SocketPoll) : Call → Option (Answer × SocketPoll)
  | .create => poll.spCreate
  | .release efd => some (poll.spRelease efd)
  | .add efd fd ud writeEnable => some (poll.spAddEx efd fd ud writeEnable)
  | .del efd fd => some (poll.spDel efd fd)
  | .enable efd fd ud readEnable writeEnable =>
    some (poll.spEnableEx efd fd ud readEnable writeEnable)
  | .wait efd max polled => some (poll.spWait efd max polled, poll)

end SocketPoll

/-! ### What a poller is for -/

/-- What is asked for a descriptor. -/
structure Interest where
  ud : Option ℕ
  read : Bool
  write : Bool
  deriving DecidableEq, Repr

namespace Interest

/-- The mask of an interest. -/
def mask (interest : Interest) : Short := eventMask interest.read interest.write

/-- The entry that holds an interest. -/
def entry (interest : Interest) (fd : ℤ) : FdEntry := ⟨fd, interest.ud, interest.mask⟩

end Interest

/-- The instances, each with the interests that are registered. -/
abbrev Interests := Table ℤ (Table ℤ Interest)

/-- A wait may report these events: each is of a descriptor that is registered and ready, none is
reported twice, there are no more of them than the limit, and where there are fewer, none that is
ready is missing. -/
structure WaitAllowed (interests : Table ℤ Interest) (limit : ℕ) (returned : ℤ → Short → Short)
    (events : List Event) : Prop where
  once : (events.map Event.fd).Nodup
  ready : ∀ event ∈ events, ∃ interest, interests event.fd = some interest ∧
    returned event.fd interest.mask ≠ 0 ∧
    event = Event.ofMask interest.ud event.fd (returned event.fd interest.mask)
  limited : events.length ≤ limit
  complete : events.length < limit → ∀ fd interest, interests fd = some interest →
    returned fd interest.mask ≠ 0 → fd ∈ events.map Event.fd

namespace Interests

/-- The number of events that a wait can report. -/
def waitLimit (max : ℤ) : ℕ := (min max maxEvents).toNat

/-- The answer is one that a call may get, and these are the interests after it. -/
def Allows (interests : Interests) : Call → Answer → Interests → Prop
  | .create, answer, next =>
    answer.code ≠ 0 ∧ interests answer.code = none ∧ answer.events = [] ∧
      next = Function.update interests answer.code (some Table.empty)
  | .release efd, answer, next => answer = ⟨0, []⟩ ∧ next = interests.erase efd
  | .add efd fd ud writeEnable, answer, next =>
    match interests efd with
    | none => answer = ⟨1, []⟩ ∧ next = interests
    | some registered =>
      match registered fd with
      | some _ => answer = ⟨1, []⟩ ∧ next = interests
      | none => answer = ⟨0, []⟩ ∧ next = Function.update interests efd
          (some (Function.update registered fd (some ⟨ud, true, writeEnable⟩)))
  | .del efd fd, answer, next =>
    answer = ⟨0, []⟩ ∧
      match interests efd with
      | none => next = interests
      | some registered => next = Function.update interests efd (some (registered.erase fd))
  | .enable efd fd ud readEnable writeEnable, answer, next =>
    match interests efd with
    | none => answer = ⟨1, []⟩ ∧ next = interests
    | some registered =>
      match registered fd with
      | none => answer = ⟨1, []⟩ ∧ next = interests
      | some interest => answer = ⟨0, []⟩ ∧ next = Function.update interests efd
          (some (Function.update registered fd
            (some ⟨ud <|> interest.ud, readEnable, writeEnable⟩)))
  | .wait efd max polled, answer, next =>
    next = interests ∧
      match interests efd, polled with
      | none, _ => answer = ⟨-1, []⟩
      | some registered, none =>
        answer = ⟨-1, []⟩ ∨ registered = Table.empty ∧ answer = ⟨0, []⟩
      | some registered, some returned =>
        answer.code = answer.events.length ∧
          WaitAllowed registered (waitLimit max) returned answer.events

end Interests

/-! ### The entries hold the interests -/

theorem findFd_isSome_iff (entries : List FdEntry) (fd : ℤ) :
    (findFd entries fd).isSome ↔ fd ∈ entries.map FdEntry.fd := by
  rw [findFd, List.find?_isSome, List.mem_map]
  simp only [beq_iff_eq]

/-- Assumes: what is written keeps the descriptor. -/
theorem updateFd_fds {entries : List FdEntry} {fd : ℤ} {write : FdEntry → FdEntry}
    (hwrite : ∀ entry ∈ entries, entry.fd = fd → (write entry).fd = fd) :
    (updateFd fd write entries).map FdEntry.fd = entries.map FdEntry.fd := by
  induction entries with
  | nil => rfl
  | cons entry entries ih =>
    rw [updateFd]
    split_ifs with hfd
    · rw [List.map_cons, List.map_cons, hwrite entry List.mem_cons_self hfd, hfd]
    · rw [List.map_cons, List.map_cons, ih fun other hother ↦ hwrite other (.tail _ hother)]

/-- Assumes: no descriptor has two entries. Then it is the only one that is written to. -/
theorem updateFd_eq_map {entries : List FdEntry} (hnodup : (entries.map FdEntry.fd).Nodup) (fd : ℤ)
    (write : FdEntry → FdEntry) :
    updateFd fd write entries = entries.map fun e ↦ if e.fd = fd then write e else e := by
  induction entries with
  | nil => rfl
  | cons entry entries ih =>
    rw [List.map_cons, List.nodup_cons] at hnodup
    by_cases hfd : entry.fd = fd
    · have hothers : ∀ other ∈ entries, (if other.fd = fd then write other else other) = other := by
        intro other hother
        refine if_neg fun heq ↦ hnodup.1 ?_
        exact List.mem_map.mpr ⟨other, hother, heq.trans hfd.symm⟩
      rw [updateFd, if_pos hfd, List.map_cons, if_pos hfd, List.map_congr_left hothers,
        List.map_id']
    · rw [updateFd, if_neg hfd, List.map_cons, if_neg hfd, ih hnodup.2]

/-- The entries of an instance are the interests that are registered, one for each descriptor. -/
structure Holds (entries : List FdEntry) (interests : Table ℤ Interest) : Prop where
  nodup : (entries.map FdEntry.fd).Nodup
  registered : ∀ entry ∈ entries, ∃ interest, interests entry.fd = some interest ∧
    entry = interest.entry entry.fd
  listed : ∀ fd interest, interests fd = some interest → interest.entry fd ∈ entries

namespace Holds

variable {entries : List FdEntry} {interests : Table ℤ Interest}

theorem nil : Holds [] Table.empty where
  nodup := List.nodup_nil
  registered := fun _ hentry ↦ by cases hentry
  listed := fun _ _ hinterest ↦ by cases hinterest

theorem mem_fds_iff (hholds : Holds entries interests) (fd : ℤ) :
    fd ∈ entries.map FdEntry.fd ↔ ∃ interest, interests fd = some interest := by
  constructor
  · intro hmem
    obtain ⟨entry, hentry, rfl⟩ := List.mem_map.mp hmem
    obtain ⟨interest, hinterest, -⟩ := hholds.registered entry hentry
    exact ⟨interest, hinterest⟩
  · rintro ⟨interest, hinterest⟩
    exact List.mem_map.mpr ⟨interest.entry fd, hholds.listed fd interest hinterest, rfl⟩

theorem findFd_of_some (hholds : Holds entries interests) {fd : ℤ} {interest : Interest}
    (hinterest : interests fd = some interest) : (findFd entries fd).isSome = true :=
  (findFd_isSome_iff entries fd).mpr ((hholds.mem_fds_iff fd).mpr ⟨interest, hinterest⟩)

theorem findFd_of_none (hholds : Holds entries interests) {fd : ℤ} (hnone : interests fd = none) :
    ¬ (findFd entries fd).isSome = true := by
  rw [findFd_isSome_iff, hholds.mem_fds_iff]
  rintro ⟨interest, hinterest⟩
  rw [hnone] at hinterest
  cases hinterest

/-- Assumes: a descriptor that is not registered. It is added at the end. -/
theorem concat (hholds : Holds entries interests) {fd : ℤ} (hnone : interests fd = none)
    (interest : Interest) :
    Holds (entries ++ [interest.entry fd]) (Function.update interests fd (some interest)) where
  nodup := by
    rw [List.map_append, List.map_singleton, List.nodup_append_comm, List.singleton_append,
      List.nodup_cons]
    refine ⟨fun hmem ↦ ?_, hholds.nodup⟩
    obtain ⟨other, hother⟩ := (hholds.mem_fds_iff fd).mp hmem
    rw [hnone] at hother
    cases hother
  registered := by
    intro entry hentry
    obtain hentry | hentry := List.mem_append.mp hentry
    · obtain ⟨other, hother, heq⟩ := hholds.registered entry hentry
      refine ⟨other, ?_, heq⟩
      rw [Function.update_of_ne, hother]
      rintro rfl
      rw [hnone] at hother
      cases hother
    · cases List.mem_singleton.mp hentry
      exact ⟨interest, Function.update_self .., rfl⟩
  listed := by
    intro other found hfound
    by_cases hother : other = fd
    · subst hother
      rw [Function.update_self] at hfound
      cases hfound
      exact List.mem_append_right _ (List.mem_singleton.mpr rfl)
    · rw [Function.update_of_ne hother] at hfound
      exact List.mem_append_left _ (hholds.listed other found hfound)

theorem erase (hholds : Holds entries interests) (fd : ℤ) :
    Holds (entries.filter fun e ↦ e.fd != fd) (interests.erase fd) where
  nodup := hholds.nodup.sublist (List.filter_sublist.map _)
  registered := by
    intro entry hentry
    obtain ⟨hentry, hne⟩ := List.mem_filter.mp hentry
    obtain ⟨interest, hinterest, heq⟩ := hholds.registered entry hentry
    exact ⟨interest, (interests.erase_of_ne (bne_iff_ne.mp hne)).trans hinterest, heq⟩
  listed := by
    intro other found hfound
    have hne : other ≠ fd := by
      rintro rfl
      rw [Table.erase_self] at hfound
      cases hfound
    rw [Table.erase_of_ne _ hne] at hfound
    exact List.mem_filter.mpr ⟨hholds.listed other found hfound, bne_iff_ne.mpr hne⟩

/-- Assumes: a descriptor that is registered. What is asked for it is replaced. -/
theorem update (hholds : Holds entries interests) {fd : ℤ} {interest : Interest}
    (hinterest : interests fd = some interest) {write : FdEntry → FdEntry} {interest' : Interest}
    (hwrite : write (interest.entry fd) = interest'.entry fd) :
    Holds (updateFd fd write entries) (Function.update interests fd (some interest')) := by
  have hof : ∀ entry ∈ entries, entry.fd = fd → write entry = interest'.entry fd := by
    rintro entry hentry rfl
    obtain ⟨other, hother, heq⟩ := hholds.registered entry hentry
    cases hinterest.symm.trans hother
    rw [heq]
    exact hwrite
  have hfds : (updateFd fd write entries).map FdEntry.fd = entries.map FdEntry.fd :=
    updateFd_fds fun entry hentry hfd ↦ by rw [hof entry hentry hfd]; rfl
  refine ⟨hfds.symm ▸ hholds.nodup, ?_, ?_⟩ <;> rw [updateFd_eq_map hholds.nodup]
  · intro entry hentry
    obtain ⟨old, hold, rfl⟩ := List.mem_map.mp hentry
    by_cases hfd : old.fd = fd
    · rw [if_pos hfd, hof old hold hfd]
      exact ⟨interest', Function.update_self .., rfl⟩
    · rw [if_neg hfd, Function.update_of_ne hfd]
      exact hholds.registered old hold
  · intro other found hfound
    by_cases hother : other = fd
    · subst hother
      rw [Function.update_self] at hfound
      cases hfound
      refine List.mem_map.mpr ⟨interest.entry other, hholds.listed other interest hinterest, ?_⟩
      exact (if_pos rfl).trans hwrite
    · rw [Function.update_of_ne hother] at hfound
      exact List.mem_map.mpr
        ⟨found.entry other, hholds.listed other found hfound, if_neg hother⟩

end Holds

/-! ### What a wait copies out -/

/-- The event of an entry, where `WSAPoll` returned one. -/
def fired (returned : ℤ → Short → Short) (entry : FdEntry) : Option Event :=
  if returned entry.fd entry.events = 0 then none
  else some (Event.ofMask entry.ud entry.fd (returned entry.fd entry.events))

variable {returned : ℤ → Short → Short}

theorem fired_eq_some {entry : FdEntry} {event : Event}
    (hfired : fired returned entry = some event) :
    returned entry.fd entry.events ≠ 0 ∧
      event = Event.ofMask entry.ud entry.fd (returned entry.fd entry.events) := by
  rw [fired] at hfired
  split_ifs at hfired with hzero
  exact ⟨hzero, (Option.some.inj hfired).symm⟩

theorem fired_of_zero {entry : FdEntry} (hzero : returned entry.fd entry.events = 0) :
    fired returned entry = none :=
  if_pos hzero

theorem fired_of_ne {entry : FdEntry} (hne : returned entry.fd entry.events ≠ 0) :
    fired returned entry =
      some (Event.ofMask entry.ud entry.fd (returned entry.fd entry.events)) :=
  if_neg hne

/-- The loop copies the events from the front, as long as there is room. -/
theorem report_eq_take (returned : ℤ → Short → Short) (max count : ℤ) (entries : List FdEntry) :
    report returned max count entries =
      (entries.filterMap (fired returned)).take (max - count).toNat := by
  induction entries generalizing count with
  | nil => rw [report, List.filterMap_nil, List.take_nil]
  | cons entry entries ih =>
    rw [report]
    by_cases hroom : count < max
    · rw [if_pos hroom]
      by_cases hzero : returned entry.fd entry.events = 0
      · rw [if_pos hzero, ih, List.filterMap_cons_none (fired_of_zero hzero)]
      · have hnat : (max - count).toNat = (max - (count + 1)).toNat + 1 := by omega
        rw [if_neg hzero, ih, List.filterMap_cons_some (fired_of_ne hzero), hnat,
          List.take_succ_cons]
    · have hnat : (max - count).toNat = 0 := by omega
      rw [if_neg hroom, hnat, List.take_zero]

theorem filterMap_fired_fds (returned : ℤ → Short → Short) (entries : List FdEntry) :
    ((entries.filterMap (fired returned)).map Event.fd).Sublist (entries.map FdEntry.fd) := by
  induction entries with
  | nil => exact List.Sublist.slnil
  | cons entry entries ih =>
    by_cases hzero : returned entry.fd entry.events = 0
    · rw [List.filterMap_cons_none (fired_of_zero hzero)]
      exact ih.cons _
    · rw [List.filterMap_cons_some (fired_of_ne hzero)]
      exact ih.cons_cons _

theorem countP_fired (returned : ℤ → Short → Short) (entries : List FdEntry) :
    entries.countP (fun e ↦ returned e.fd e.events != 0) =
      (entries.filterMap (fired returned)).length := by
  induction entries with
  | nil => rfl
  | cons entry entries ih =>
    by_cases hzero : returned entry.fd entry.events = 0
    · rw [List.filterMap_cons_none (fired_of_zero hzero), List.countP_cons_of_neg, ih]
      simp [hzero]
    · rw [List.filterMap_cons_some (fired_of_ne hzero), List.length_cons, List.countP_cons_of_pos,
        ih]
      exact bne_iff_ne.mpr hzero

/-- What a wait copies out: the first events, up to the limit. -/
def waitEvents (max : ℤ) (returned : ℤ → Short → Short) (entries : List FdEntry) : List Event :=
  (entries.filterMap (fired returned)).take (Interests.waitLimit max)

theorem waitEvents_sublist (max : ℤ) (returned : ℤ → Short → Short) (entries : List FdEntry) :
    (waitEvents max returned entries).Sublist (entries.filterMap (fired returned)) :=
  List.take_sublist _ _

/-- Assumes: an instance that exists and a poll that does not fail. The early returns of `sp_wait`
are where there is nothing to copy out. -/
theorem spWait_of_some {poll : SocketPoll} {efd : ℤ} {entries : List FdEntry}
    (hentries : poll.instances efd = some entries) (max : ℤ) (returned : ℤ → Short → Short) :
    poll.spWait efd max (some returned) =
      ⟨(waitEvents max returned entries).length, waitEvents max returned entries⟩ := by
  have hmax : (if max > maxEvents then maxEvents else max) = min max maxEvents := by
    rw [min_def]
    split_ifs <;> omega
  have hreport : report returned (min max maxEvents) 0 entries =
      waitEvents max returned entries := by
    rw [report_eq_take, Int.sub_zero]
    rfl
  simp only [SocketPoll.spWait, hentries, hmax, hreport, countP_fired, List.length_eq_zero_iff]
  split_ifs with hnil hnone
  · rw [hnil, waitEvents, List.filterMap_nil, List.take_nil]
    rfl
  · rw [waitEvents, hnone, List.take_nil]
    rfl
  · rfl

/-- What a wait copies out is what it may report. -/
theorem Holds.waitAllowed {entries : List FdEntry} {interests : Table ℤ Interest}
    (hholds : Holds entries interests) (max : ℤ) (returned : ℤ → Short → Short) :
    WaitAllowed interests (Interests.waitLimit max) returned (waitEvents max returned entries) where
  once := hholds.nodup.sublist
    (((waitEvents_sublist max returned entries).map _).trans (filterMap_fired_fds returned entries))
  ready := by
    intro event hevent
    obtain ⟨entry, hentry, hfired⟩ :=
      List.mem_filterMap.mp ((waitEvents_sublist max returned entries).subset hevent)
    obtain ⟨hne, rfl⟩ := fired_eq_some hfired
    obtain ⟨interest, hinterest, heq⟩ := hholds.registered entry hentry
    rw [heq] at hne ⊢
    exact ⟨interest, hinterest, hne, rfl⟩
  limited := List.length_take_le _ _
  complete := by
    intro hroom fd interest hinterest hne
    rw [waitEvents, List.length_take] at hroom
    have hall : waitEvents max returned entries = entries.filterMap (fired returned) :=
      List.take_of_length_le (by omega)
    have hentry := hholds.listed fd interest hinterest
    rw [hall]
    exact List.mem_map.mpr
      ⟨_, List.mem_filterMap.mpr ⟨interest.entry fd, hentry, fired_of_ne hne⟩, rfl⟩

/-! ### Every answer is one that is allowed -/

/-- The instances of the poller are those of the specification, and the numbers above the last one
given out are free. -/
structure Realizes (poll : SocketPoll) (interests : Interests) : Prop where
  instances : ∀ efd, Option.Rel Holds (poll.instances efd) (interests efd)
  nextId_nonneg : 0 ≤ poll.nextId
  free : ∀ efd, poll.nextId < efd → poll.instances efd = none

/-- A descriptor is only added to an instance that exists. -/
def AddsToInstance (poll : SocketPoll) : Call → Prop
  | .add efd _ _ _ => (poll.instances efd).isSome
  | _ => True

instance decidableAddsToInstance (poll : SocketPoll) :
    ∀ request, Decidable (AddsToInstance poll request)
  | .create | .release _ | .del _ _ | .enable _ _ _ _ _ | .wait _ _ _ => isTrue trivial
  | .add efd _ _ _ => inferInstanceAs (Decidable ((poll.instances efd).isSome = true))

/-- One instance that changes on both sides leaves the others as they are. -/
theorem rel_update {instances : Table ℤ (List FdEntry)} {interests : Interests}
    (hrel : ∀ efd, Option.Rel Holds (instances efd) (interests efd)) (efd : ℤ)
    {entries : Option (List FdEntry)} {registered : Option (Table ℤ Interest)}
    (hefd : Option.Rel Holds entries registered) (other : ℤ) :
    Option.Rel Holds (Function.update instances efd entries other)
      (Function.update interests efd registered other) := by
  by_cases hother : other = efd
  · subst hother
    rwa [Function.update_self, Function.update_self]
  · rw [Function.update_of_ne hother, Function.update_of_ne hother]
    exact hrel other

namespace Realizes

variable {poll : SocketPoll} {interests : Interests}

theorem new : Realizes SocketPoll.new Table.empty where
  instances := fun _ ↦ Option.Rel.none
  nextId_nonneg := le_rfl
  free := fun _ _ ↦ rfl

theorem of_some (hrealizes : Realizes poll interests) {efd : ℤ} {entries : List FdEntry}
    (hentries : poll.instances efd = some entries) :
    ∃ registered, interests efd = some registered ∧ Holds entries registered := by
  have hrel := hrealizes.instances efd
  rw [hentries] at hrel
  cases hregistered : interests efd with
  | none =>
    rw [hregistered] at hrel
    cases hrel
  | some registered =>
    rw [hregistered] at hrel
    cases hrel with
    | some hholds => exact ⟨registered, rfl, hholds⟩

theorem of_none (hrealizes : Realizes poll interests) {efd : ℤ}
    (hnone : poll.instances efd = none) : interests efd = none := by
  have hrel := hrealizes.instances efd
  rw [hnone] at hrel
  cases hregistered : interests efd with
  | none => rfl
  | some registered =>
    rw [hregistered] at hrel
    cases hrel

/-- Assumes: an instance that exists, and what it holds afterwards. -/
theorem update (hrealizes : Realizes poll interests) {efd : ℤ} {entries : List FdEntry}
    (hentries : poll.instances efd = some entries) {entries' : List FdEntry}
    {registered' : Table ℤ Interest} (hholds : Holds entries' registered') :
    Realizes { poll with instances := Function.update poll.instances efd (some entries') }
      (Function.update interests efd (some registered')) where
  instances := rel_update hrealizes.instances efd (Option.Rel.some hholds)
  nextId_nonneg := hrealizes.nextId_nonneg
  free := by
    intro other hfree
    have hother : other ≠ efd := by
      rintro rfl
      rw [hrealizes.free other hfree] at hentries
      cases hentries
    exact (Function.update_of_ne hother ..).trans (hrealizes.free other hfree)

theorem create (hrealizes : Realizes poll interests) :
    Realizes
      { instances := Function.update poll.instances (poll.nextId + 1) (some []),
        nextId := poll.nextId + 1 }
      (Function.update interests (poll.nextId + 1) (some Table.empty)) where
  instances := rel_update hrealizes.instances _ (Option.Rel.some Holds.nil)
  nextId_nonneg := le_trans hrealizes.nextId_nonneg (Int.le_of_lt (Int.lt_succ _))
  free := by
    intro other hfree
    change poll.nextId + 1 < other at hfree
    exact (Function.update_of_ne (by omega) ..).trans (hrealizes.free other (by omega))

theorem release (hrealizes : Realizes poll interests) (efd : ℤ) :
    Realizes { poll with instances := poll.instances.erase efd } (interests.erase efd) where
  instances := rel_update hrealizes.instances efd Option.Rel.none
  nextId_nonneg := hrealizes.nextId_nonneg
  free := fun other hfree ↦ by
    change poll.instances.erase efd other = none
    by_cases hother : other = efd
    · rw [hother, Table.erase_self]
    · rw [Table.erase_of_ne _ hother, hrealizes.free other hfree]

/-- Assumes: an instance that exists. -/
theorem add (hrealizes : Realizes poll interests) {efd : ℤ} {entries : List FdEntry}
    (hentries : poll.instances efd = some entries) (fd : ℤ) (ud : Option ℕ) (writeEnable : Bool) :
    ∃ interests', interests.Allows (.add efd fd ud writeEnable)
        (poll.spAddEx efd fd ud writeEnable).1 interests' ∧
      Realizes (poll.spAddEx efd fd ud writeEnable).2 interests' := by
  obtain ⟨registered, hregistered, hholds⟩ := hrealizes.of_some hentries
  simp only [SocketPoll.spAddEx, Interests.Allows, hentries, hregistered, Option.getD_some]
  cases hfound : registered fd with
  | some interest =>
    rw [if_pos (hholds.findFd_of_some hfound)]
    have hsame : Function.update poll.instances efd (some entries) = poll.instances := by
      rw [← hentries, Function.update_eq_self]
    refine ⟨interests, ⟨rfl, rfl⟩, ?_⟩
    rw [hsame]
    exact hrealizes
  | none =>
    rw [if_neg (hholds.findFd_of_none hfound)]
    exact ⟨_, ⟨rfl, rfl⟩, hrealizes.update hentries (hholds.concat hfound ⟨ud, true, writeEnable⟩)⟩

theorem del (hrealizes : Realizes poll interests) (efd fd : ℤ) :
    ∃ interests', interests.Allows (.del efd fd) (poll.spDel efd fd).1 interests' ∧
      Realizes (poll.spDel efd fd).2 interests' := by
  cases hentries : poll.instances efd with
  | none =>
    simp only [SocketPoll.spDel, Interests.Allows, hentries, hrealizes.of_none hentries]
    exact ⟨interests, ⟨trivial, rfl⟩, hrealizes⟩
  | some entries =>
    obtain ⟨registered, hregistered, hholds⟩ := hrealizes.of_some hentries
    simp only [SocketPoll.spDel, Interests.Allows, hentries, hregistered]
    exact ⟨_, ⟨trivial, rfl⟩, hrealizes.update hentries (hholds.erase fd)⟩

theorem enable (hrealizes : Realizes poll interests) (efd fd : ℤ) (ud : Option ℕ)
    (readEnable writeEnable : Bool) :
    ∃ interests', interests.Allows (.enable efd fd ud readEnable writeEnable)
        (poll.spEnableEx efd fd ud readEnable writeEnable).1 interests' ∧
      Realizes (poll.spEnableEx efd fd ud readEnable writeEnable).2 interests' := by
  cases hentries : poll.instances efd with
  | none =>
    simp only [SocketPoll.spEnableEx, Interests.Allows, hentries, hrealizes.of_none hentries]
    exact ⟨interests, ⟨trivial, rfl⟩, hrealizes⟩
  | some entries =>
    obtain ⟨registered, hregistered, hholds⟩ := hrealizes.of_some hentries
    simp only [SocketPoll.spEnableEx, Interests.Allows, hentries, hregistered]
    cases hfound : registered fd with
    | none =>
      rw [if_neg (hholds.findFd_of_none hfound)]
      exact ⟨interests, ⟨rfl, rfl⟩, hrealizes⟩
    | some interest =>
      rw [if_pos (hholds.findFd_of_some hfound)]
      exact ⟨_, ⟨rfl, rfl⟩, hrealizes.update hentries (hholds.update hfound rfl)⟩

theorem wait (hrealizes : Realizes poll interests) (efd max : ℤ) (polled : PollResult) :
    interests.Allows (.wait efd max polled) (poll.spWait efd max polled) interests := by
  refine ⟨rfl, ?_⟩
  cases hentries : poll.instances efd with
  | none => simp only [SocketPoll.spWait, hentries, hrealizes.of_none hentries]
  | some entries =>
    obtain ⟨registered, hregistered, hholds⟩ := hrealizes.of_some hentries
    cases polled with
    | some returned =>
      rw [hregistered, spWait_of_some hentries]
      exact ⟨rfl, hholds.waitAllowed max returned⟩
    | none =>
      simp only [SocketPoll.spWait, hentries, hregistered, List.length_eq_zero_iff]
      split_ifs with hnil
      · subst hnil
        refine Or.inr ⟨funext fun fd ↦ ?_, rfl⟩
        rw [Table.empty, Option.eq_none_iff_forall_ne_some]
        intro interest hinterest
        cases hholds.listed fd interest hinterest
      · exact Or.inl rfl

end Realizes

/-- One call: the answer is allowed, and the instances stay those of the specification. -/
theorem conforms : Conforms SocketPoll.call Interests.Allows AddsToInstance Realizes := by
  intro poll interests request answer next hrealizes hcondition hcall
  cases request with
  | create =>
    simp only [SocketPoll.call, SocketPoll.spCreate] at hcall
    split_ifs at hcall
    cases hcall
    have hnonneg := hrealizes.nextId_nonneg
    refine ⟨_, ⟨?_, hrealizes.of_none (hrealizes.free _ (Int.lt_succ _)), rfl, rfl⟩,
      hrealizes.create⟩
    change poll.nextId + 1 ≠ 0
    omega
  | release efd =>
    cases hcall
    exact ⟨_, ⟨rfl, rfl⟩, hrealizes.release efd⟩
  | add efd fd ud writeEnable =>
    obtain ⟨entries, hentries⟩ := Option.isSome_iff_exists.mp hcondition
    have hadd := hrealizes.add hentries fd ud writeEnable
    rwa [Option.some.inj hcall] at hadd
  | del efd fd =>
    have hdel := hrealizes.del efd fd
    rwa [Option.some.inj hcall] at hdel
  | enable efd fd ud readEnable writeEnable =>
    have henable := hrealizes.enable efd fd ud readEnable writeEnable
    rwa [Option.some.inj hcall] at henable
  | wait efd max polled =>
    cases hcall
    exact ⟨interests, hrealizes.wait efd max polled, hrealizes⟩

/-- Assumes: calls from the start of the program, where a descriptor is only added to an instance
that exists. The answers are ones that the specification allows. -/
theorem conforms_interests {calls : List Call} {results : List Answer} {final : SocketPoll}
    (halong : Along (callStep SocketPoll.call) AddsToInstance SocketPoll.new calls)
    (hcalls : callAll SocketPoll.call SocketPoll.new calls = some (results, final)) :
    ∃ interests, Permitted Interests.Allows Table.empty (calls.zip results) interests ∧
      Realizes final interests :=
  conforms.callAll Realizes.new halong hcalls

/-- Two descriptors of one instance, both ready where one event fits. -/
def twoDescriptors : List Call :=
  [.create, .add 1 8 none false, .add 1 9 (some 3) true, .add 1 8 none true,
    .wait 1 1 (some fun _ asked ↦ asked), .del 1 8, .wait 1 1 (some fun _ asked ↦ asked),
    .release 1, .wait 1 1 none]

/-- What they answer. -/
def twoDescriptorsAnswers : List Answer :=
  [⟨1, []⟩, ⟨0, []⟩, ⟨0, []⟩, ⟨1, []⟩, ⟨1, [⟨none, 8, true, false, false, false⟩]⟩, ⟨0, []⟩,
    ⟨1, [⟨some 3, 9, true, true, false, false⟩]⟩, ⟨0, []⟩, ⟨-1, []⟩]

theorem conforms_interests_twoDescriptors :
    ∃ final interests, Permitted Interests.Allows Table.empty
        (twoDescriptors.zip twoDescriptorsAnswers) interests ∧ Realizes final interests := by
  have hanswers : (callAll SocketPoll.call SocketPoll.new twoDescriptors).map Prod.fst =
      some twoDescriptorsAnswers := by
    decide +kernel
  obtain ⟨⟨results, final⟩, hcalls, heq⟩ := Option.map_eq_some_iff.mp hanswers
  obtain rfl : results = _ := heq
  exact ⟨final, conforms_interests (by decide +kernel) hcalls⟩

/-! ### A descriptor behind others that stay ready -/

/-- The others are registered with the instance, and ahead of the descriptor if it is too. -/
def Behind (efd fd : ℤ) (ahead : List ℤ) (poll : SocketPoll) : Prop :=
  ∃ entries, poll.instances efd = some entries ∧
    ∀ other ∈ ahead, other ∈ (entries.map FdEntry.fd).takeWhile (· != fd)

/-- A call leaves the others registered, and where it waits they are ready and fill what it can
report. -/
def KeepsReady (efd : ℤ) (ahead : List ℤ) (poll : SocketPoll) : Call → Prop
  | .release other => other ≠ efd
  | .del other fd => other = efd → fd ∉ ahead
  | .wait other max polled => other = efd → Interests.waitLimit max ≤ ahead.length ∧
      ∀ returned ∈ polled, ∀ entries ∈ poll.instances efd, ∀ entry ∈ entries, entry.fd ∈ ahead →
        returned entry.fd entry.events ≠ 0
  | _ => True

theorem mem_takeWhile_append {fd other : ℤ} {fds : List ℤ} (hmem : other ∈ fds.takeWhile (· != fd))
    (more : List ℤ) : other ∈ (fds ++ more).takeWhile (· != fd) := by
  rw [List.takeWhile_append]
  split_ifs
  · exact List.mem_append_left _ (List.takeWhile_subset _ hmem)
  · exact hmem

/-- Assumes: a descriptor that is not the one taken out. It stays in front. -/
theorem mem_takeWhile_filter {fd other gone : ℤ} {fds : List ℤ}
    (hmem : other ∈ fds.takeWhile (· != fd)) (hne : other ≠ gone) :
    other ∈ (fds.filter (· != gone)).takeWhile (· != fd) := by
  induction fds with
  | nil => cases hmem
  | cons first fds ih =>
    by_cases hfirst : first = fd
    · rw [List.takeWhile_cons_of_neg (by simp [hfirst])] at hmem
      cases hmem
    · rw [List.takeWhile_cons_of_pos (p := (· != fd)) (bne_iff_ne.mpr hfirst)] at hmem
      by_cases hgone : first = gone
      · rw [List.filter_cons_of_neg (by simp [hgone])]
        obtain rfl | hmem := List.mem_cons.mp hmem
        · exact absurd hgone hne
        · exact ih hmem
      · rw [List.filter_cons_of_pos (p := (· != gone)) (bne_iff_ne.mpr hgone),
          List.takeWhile_cons_of_pos (p := (· != fd)) (bne_iff_ne.mpr hfirst)]
        obtain rfl | hmem := List.mem_cons.mp hmem
        · exact List.mem_cons_self
        · exact List.mem_cons_of_mem _ (ih hmem)

/-- Assumes: descriptors ahead of another one that are ready and fill the limit. The events that a
wait copies out are of entries in front of it. -/
theorem not_mem_waitEvents {entries : List FdEntry} {fd max : ℤ} {ahead : List ℤ}
    (hnodup : ahead.Nodup)
    (hahead : ∀ other ∈ ahead, other ∈ (entries.map FdEntry.fd).takeWhile (· != fd))
    (hlimit : Interests.waitLimit max ≤ ahead.length)
    (hready : ∀ entry ∈ entries, entry.fd ∈ ahead → returned entry.fd entry.events ≠ 0) :
    fd ∉ (waitEvents max returned entries).map Event.fd := by
  let front := entries.takeWhile fun e ↦ e.fd != fd
  have hfront : (entries.map FdEntry.fd).takeWhile (· != fd) = front.map FdEntry.fd :=
    List.takeWhile_map ..
  have hfired : ahead ⊆ (front.filterMap (fired returned)).map Event.fd := by
    intro other hother
    have hmem := hahead other hother
    rw [hfront] at hmem
    obtain ⟨entry, hentry, rfl⟩ := List.mem_map.mp hmem
    have hne := hready entry (List.takeWhile_subset _ hentry) hother
    exact List.mem_map.mpr ⟨_, List.mem_filterMap.mpr ⟨entry, hentry, fired_of_ne hne⟩, rfl⟩
  have hlength : Interests.waitLimit max ≤ (front.filterMap (fired returned)).length := by
    have hsubperm := (List.subperm_of_subset hnodup hfired).length_le
    rw [List.length_map] at hsubperm
    exact hlimit.trans hsubperm
  have hevents : waitEvents max returned entries =
      (front.filterMap (fired returned)).take (Interests.waitLimit max) := by
    have hentries := List.takeWhile_append_dropWhile (p := fun e : FdEntry ↦ e.fd != fd)
      (l := entries)
    rw [waitEvents, ← hentries, List.filterMap_append, List.take_append_of_le_length hlength]
  intro hmem
  rw [hevents] at hmem
  obtain ⟨event, hevent, hfd⟩ := List.mem_map.mp hmem
  obtain ⟨entry, hentry, hentryFired⟩ := List.mem_filterMap.mp (List.take_subset _ _ hevent)
  obtain ⟨-, rfl⟩ := fired_eq_some hentryFired
  have hne : (entry.fd != fd) = true :=
    List.mem_takeWhile_imp (p := fun e : FdEntry ↦ e.fd != fd) hentry
  exact bne_iff_ne.mp hne hfd

section Frame

variable {poll : SocketPoll} {efd other : ℤ}

theorem spAddEx_frame (hother : efd ≠ other) (fd : ℤ) (ud : Option ℕ) (writeEnable : Bool) :
    (poll.spAddEx other fd ud writeEnable).2.instances efd = poll.instances efd := by
  rw [SocketPoll.spAddEx]
  split <;> exact Function.update_of_ne hother ..

theorem spAddEx_nextId (fd : ℤ) (ud : Option ℕ) (writeEnable : Bool) :
    (poll.spAddEx other fd ud writeEnable).2.nextId = poll.nextId := by
  rw [SocketPoll.spAddEx]
  split <;> rfl

theorem spDel_frame (hother : efd ≠ other) (fd : ℤ) :
    (poll.spDel other fd).2.instances efd = poll.instances efd := by
  rw [SocketPoll.spDel]
  split
  · rfl
  · exact Function.update_of_ne hother ..

theorem spDel_nextId (fd : ℤ) : (poll.spDel other fd).2.nextId = poll.nextId := by
  rw [SocketPoll.spDel]
  split <;> rfl

theorem spEnableEx_frame (hother : efd ≠ other) (fd : ℤ) (ud : Option ℕ)
    (readEnable writeEnable : Bool) :
    (poll.spEnableEx other fd ud readEnable writeEnable).2.instances efd = poll.instances efd := by
  rw [SocketPoll.spEnableEx]
  split
  · rfl
  · split
    · exact Function.update_of_ne hother ..
    · rfl

theorem spEnableEx_nextId (fd : ℤ) (ud : Option ℕ) (readEnable writeEnable : Bool) :
    (poll.spEnableEx other fd ud readEnable writeEnable).2.nextId = poll.nextId := by
  rw [SocketPoll.spEnableEx]
  split
  · rfl
  · split <;> rfl

end Frame

namespace Behind

variable {poll : SocketPoll} {efd fd : ℤ} {ahead : List ℤ}

/-- Assumes: another poller whose instance is the same. -/
theorem congr (hbehind : Behind efd fd ahead poll) {next : SocketPoll}
    (hinstance : next.instances efd = poll.instances efd) : Behind efd fd ahead next := by
  obtain ⟨entries, hentries, hahead⟩ := hbehind
  exact ⟨entries, hinstance.trans hentries, hahead⟩

theorem add (hbehind : Behind efd fd ahead poll) (other fd' : ℤ) (ud : Option ℕ)
    (writeEnable : Bool) : Behind efd fd ahead (poll.spAddEx other fd' ud writeEnable).2 := by
  by_cases hother : efd = other
  · subst hother
    obtain ⟨entries, hentries, hahead⟩ := hbehind
    rw [SocketPoll.spAddEx, hentries, Option.getD_some]
    split
    · exact ⟨entries, Function.update_self .., hahead⟩
    · refine ⟨_, Function.update_self .., fun x hx ↦ ?_⟩
      rw [List.map_append]
      exact mem_takeWhile_append (hahead x hx) _
  · exact hbehind.congr (spAddEx_frame hother fd' ud writeEnable)

/-- Assumes: the descriptor taken out is none of those ahead. -/
theorem del (hbehind : Behind efd fd ahead poll) {other gone : ℤ}
    (hgone : other = efd → gone ∉ ahead) : Behind efd fd ahead (poll.spDel other gone).2 := by
  by_cases hother : efd = other
  · subst hother
    obtain ⟨entries, hentries, hahead⟩ := hbehind
    simp only [SocketPoll.spDel, hentries]
    refine ⟨_, Function.update_self .., fun x hx ↦ ?_⟩
    have hne : x ≠ gone := fun heq ↦ hgone rfl (heq ▸ hx)
    have hfds : (entries.filter fun e ↦ e.fd != gone).map FdEntry.fd =
        (entries.map FdEntry.fd).filter (· != gone) := by
      rw [List.filter_map]
      rfl
    rw [hfds]
    exact mem_takeWhile_filter (hahead x hx) hne
  · exact hbehind.congr (spDel_frame hother gone)

theorem enable (hbehind : Behind efd fd ahead poll) (other fd' : ℤ) (ud : Option ℕ)
    (readEnable writeEnable : Bool) :
    Behind efd fd ahead (poll.spEnableEx other fd' ud readEnable writeEnable).2 := by
  by_cases hother : efd = other
  · subst hother
    obtain ⟨entries, hentries, hahead⟩ := hbehind
    simp only [SocketPoll.spEnableEx, hentries]
    split_ifs
    · refine ⟨_, Function.update_self .., ?_⟩
      rw [updateFd_fds]
      · exact hahead
      · exact fun _ _ hfd ↦ hfd
    · exact ⟨entries, hentries, hahead⟩
  · exact hbehind.congr (spEnableEx_frame hother fd' ud readEnable writeEnable)

/-- Assumes: those ahead are ready and fill what a wait can report. -/
theorem wait (hbehind : Behind efd fd ahead poll) (hnodup : ahead.Nodup) {max : ℤ}
    {polled : PollResult} (hkeeps : KeepsReady efd ahead poll (.wait efd max polled)) :
    fd ∉ (poll.spWait efd max polled).events.map Event.fd := by
  obtain ⟨entries, hentries, hahead⟩ := hbehind
  obtain ⟨hlimit, hready⟩ := hkeeps rfl
  cases polled with
  | none =>
    simp only [SocketPoll.spWait, hentries]
    split_ifs <;> exact List.not_mem_nil
  | some returned =>
    rw [spWait_of_some hentries]
    exact not_mem_waitEvents hnodup hahead hlimit (hready returned rfl entries hentries)

/-- Assumes: an instance whose number was given out, and a call that leaves the others registered
and ready. They stay ahead, and where the call waits it does not report the descriptor behind. -/
theorem call (hbehind : Behind efd fd ahead poll) (hnodup : ahead.Nodup) (hefd : efd ≤ poll.nextId)
    {request : Call} {answer : Answer} {next : SocketPoll}
    (hkeeps : KeepsReady efd ahead poll request)
    (hcall : poll.call request = some (answer, next)) :
    (efd ≤ next.nextId ∧ Behind efd fd ahead next) ∧
      ∀ max polled, request = .wait efd max polled → fd ∉ answer.events.map Event.fd := by
  cases request with
  | create =>
    simp only [SocketPoll.call, SocketPoll.spCreate] at hcall
    split_ifs at hcall
    cases hcall
    refine ⟨⟨by dsimp only; omega, hbehind.congr (Function.update_of_ne (by omega) ..)⟩, ?_⟩
    exact fun _ _ heq ↦ by cases heq
  | release other =>
    cases hcall
    exact ⟨⟨hefd, hbehind.congr (Table.erase_of_ne _ (Ne.symm hkeeps))⟩, fun _ _ heq ↦ by cases heq⟩
  | add other fd' ud writeEnable =>
    obtain rfl : _ = next := congrArg Prod.snd (Option.some.inj hcall)
    exact ⟨⟨(spAddEx_nextId fd' ud writeEnable).symm ▸ hefd, hbehind.add other fd' ud writeEnable⟩,
      fun _ _ heq ↦ by cases heq⟩
  | del other gone =>
    obtain rfl : _ = next := congrArg Prod.snd (Option.some.inj hcall)
    exact ⟨⟨(spDel_nextId gone).symm ▸ hefd, hbehind.del hkeeps⟩, fun _ _ heq ↦ by cases heq⟩
  | enable other fd' ud readEnable writeEnable =>
    obtain rfl : _ = next := congrArg Prod.snd (Option.some.inj hcall)
    exact ⟨⟨(spEnableEx_nextId fd' ud readEnable writeEnable).symm ▸ hefd,
      hbehind.enable other fd' ud readEnable writeEnable⟩, fun _ _ heq ↦ by cases heq⟩
  | wait other max polled =>
    cases hcall
    refine ⟨⟨hefd, hbehind⟩, ?_⟩
    rintro _ _ ⟨⟩
    exact hbehind.wait hnodup hkeeps

end Behind

/-- Assumes: an instance whose number was given out, descriptors that are registered with it ahead
of another one, and calls that leave these registered, where each wait on the instance finds them
ready and reports no more events than there are of them. None of the waits reports the descriptor
behind them, whether it is ready or not. -/
theorem never_reported {start final : SocketPoll} {efd fd : ℤ} {ahead : List ℤ}
    {calls : List Call} {results : List Answer} (hefd : efd ≤ start.nextId) (hnodup : ahead.Nodup)
    (hahead : Behind efd fd ahead start)
    (halong : Along (callStep SocketPoll.call) (KeepsReady efd ahead) start calls)
    (hcalls : callAll SocketPoll.call start calls = some (results, final)) :
    ∀ exchange ∈ calls.zip results, ∀ max polled, exchange.1 = .wait efd max polled →
      fd ∉ exchange.2.events.map Event.fd :=
  callAll_forall (fun poll ↦ efd ≤ poll.nextId ∧ Behind efd fd ahead poll)
    (fun request answer ↦ ∀ max polled, request = .wait efd max polled →
      fd ∉ answer.events.map Event.fd)
    (fun _ _ _ _ hinvariant hkeeps hcall ↦ hinvariant.2.call hnodup hinvariant.1 hkeeps hcall)
    ⟨hefd, hahead⟩ halong hcalls

/-- Two descriptors of one instance. -/
def behindOne : SocketPoll :=
  ⟨Function.update Table.empty 1 (some [⟨8, none, pollIn⟩, ⟨9, none, pollIn⟩]), 1⟩

/-- A wait for one event, where every descriptor is ready. -/
def waitForOne : Call := .wait 1 1 (some fun _ asked ↦ asked)

theorem never_reported_behindOne :
    ∃ results final, callAll SocketPoll.call behindOne [waitForOne, waitForOne] =
        some (results, final) ∧
      ∀ exchange ∈ [waitForOne, waitForOne].zip results, ∀ max polled,
        exchange.1 = .wait 1 max polled → 9 ∉ exchange.2.events.map Event.fd := by
  have hkeeps : KeepsReady 1 [8] behindOne waitForOne := by
    refine fun _ ↦ ⟨by decide, ?_⟩
    rintro _ ⟨⟩ entries hentries entry hentry -
    obtain rfl : _ = entries := Option.some.inj (Option.mem_def.mp hentries)
    revert entry
    decide
  have hahead : Behind 1 9 [8] behindOne := ⟨_, rfl, by decide⟩
  refine ⟨_, _, rfl, never_reported (by decide) (by decide) hahead ⟨hkeeps, ?_⟩ rfl⟩
  rintro _ ⟨⟩
  exact ⟨hkeeps, fun _ _ ↦ trivial⟩

end TszyUlt.Zbf.PollEmulation
