import TszyUlt.Lib.Framing
import TszyUlt.Lib.Linearizability
import TszyUlt.Zbf.SafeQueue

/-!
# Concurrent calls on the bounded queue

`zbf/safequeue.hpp`: the public operations of `SafeQueue`, called by any number of threads in any
order, for both values of `UseCV`. Each section under the lock is one step. Between two sections a
`pop` waits on the condition variable, from which it wakes up at any time, or it sleeps between two
attempts (`pop_ncv`, `pop_timeout_ncv`).

`DequeStep` is what the queue is for: a sequence to which `push` appends below the capacity, to
which `requeue` adds in front, and from which the pops remove the front. `queueObject_implements`
says that every section keeps to it, so that every run has a linearization; what holds of the deque
then holds of the calls in the order in which they were decided. `queue_linearizable` has the
results: the items that were accepted are those that were returned, cleared or are stored; a refused
call changes nothing; and after `stop` returned, the pops of a queue with a condition variable
return no item, and `raw_pop` still returns them all.

Scope. A thread that waits may wake up at any time, so that the notifications make no difference to
what a call can return, and they are not modelled; whether a waiting call ever returns is not
treated. The durations of the sleeps are left out.
-/

set_option autoImplicit false
set_option relaxedAutoImplicit false

namespace TszyUlt.Zbf

open Lib

variable {κ α : Type*}

/-- A call of a public operation of `SafeQueue`. -/
inductive QueueCall (α : Type*)
  | push (item : α)
  | requeue (item : α)
  | pop
  | popTimeout (timeoutMs : ℤ)
  | rawPop
  | clear
  | stop
  | isStop
  | size
  | empty
  deriving DecidableEq, Repr

/-- `SQ_PopCode`. -/
inductive PopCode
  | success
  | timeout
  | exit
  deriving DecidableEq, Repr

/-- What a call returned: the value of `push`, the code of a pop and what it assigned to `item`, the
item of `raw_pop` if it returned true, or a value that was read. `clear` returns nothing; the items
that it removed are kept here. -/
inductive QueueResult (α : Type*)
  | pushed (ret : Bool)
  | popped (code : PopCode) (item : Option α)
  | rawPopped (item : Option α)
  | cleared (items : List α)
  | done
  | flag (value : Bool)
  | count (value : ℕ)
  deriving DecidableEq, Repr

/-- Where a call is between two sections: before its first one under the lock, in `_cv.wait`, or in
front of one of the sections of `pop_ncv` and of `pop_timeout_ncv`, the latter with its
`sleep_times`. -/
inductive QueuePlace
  | entering
  | waiting
  | checkStop
  | tryPop
  | checkStopTimed (sleepTimes : ℕ)
  | tryPopTimed (sleepTimes : ℕ)
  | lastCheck
  | lastTry
  deriving DecidableEq, Repr

/-- `SLEEP_TIME`. -/
def sleepTime : ℤ := 5

/-- The start value of `sleep_times`. -/
def sleepTimes (timeoutMs : ℤ) : ℕ := (max 1 (timeoutMs.tdiv sleepTime)).toNat

namespace SafeQueue

/-- The end of a section of a call on the queue. -/
abbrev Section (α : Type*) := SafeQueue α × SectionEnd QueuePlace (QueueResult α)

/-- The front is moved to `item` and removed. -/
def takeFront (queue : SafeQueue α) : Section α :=
  ({ queue with items := queue.items.tail }, .returns (.popped .success queue.items.head?))

/-- `pop` under the lock, when it enters or wakes up. -/
def popLocked (queue : SafeQueue α) : Section α :=
  if queue.items.isEmpty && !queue.exit then (queue, .goesOn .waiting)
  else if queue.exit then (queue, .returns (.popped .exit none))
  else queue.takeFront

/-- `pop_timeout` under the lock, when it enters or wakes up, and whether its time has expired. -/
def popTimeoutLocked (queue : SafeQueue α) (expired : Bool) : Section α :=
  let ok := !queue.items.isEmpty || queue.exit
  if !ok && !expired then (queue, .goesOn .waiting)
  else if queue.exit then (queue, .returns (.popped .exit none))
  else if !ok then (queue, .returns (.popped .timeout none))
  else queue.takeFront

/-- `is_stop` in the loops without a condition variable. -/
def stopOr (queue : SafeQueue α) (place : QueuePlace) : Section α :=
  (queue, if queue.exit then .returns (.popped .exit none) else .goesOn place)

/-- An attempt of the loops without a condition variable. -/
def takeOr (queue : SafeQueue α) (otherwise : SectionEnd QueuePlace (QueueResult α)) : Section α :=
  if !queue.items.isEmpty then queue.takeFront else (queue, otherwise)

/-- `pop`. -/
def popSection (useCV : Bool) (queue : SafeQueue α) : QueuePlace → Option (Section α)
  | .entering => if useCV then some queue.popLocked else none
  | .waiting => if useCV then some queue.popLocked else none
  | .checkStop => if useCV then none else some (queue.stopOr .tryPop)
  | .tryPop => if useCV then none else some (queue.takeOr (.goesOn .checkStop))
  | _ => none

/-- `pop_timeout`. -/
def popTimeoutSection (useCV : Bool) (queue : SafeQueue α) (expired : Bool) :
    QueuePlace → Option (Section α)
  | .entering => if useCV then some (queue.popTimeoutLocked false) else none
  | .waiting => if useCV then some (queue.popTimeoutLocked expired) else none
  | .checkStopTimed sleepTimes =>
    if useCV then none else some (queue.stopOr (.tryPopTimed sleepTimes))
  | .tryPopTimed sleepTimes =>
    if useCV then none
    else
      some (queue.takeOr (.goesOn
        (if sleepTimes - 1 > 0 then .checkStopTimed (sleepTimes - 1) else .lastCheck)))
  | .lastCheck => if useCV then none else some (queue.stopOr .lastTry)
  | .lastTry => if useCV then none else some (queue.takeOr (.returns (.popped .timeout none)))
  | _ => none

/-- `raw_pop`. -/
def rawPop (queue : SafeQueue α) : Option α × SafeQueue α :=
  match queue.items with
  | [] => (none, queue)
  | item :: rest => (some item, { queue with items := rest })

/-- `clear`. -/
def clear (queue : SafeQueue α) : SafeQueue α := { queue with items := [] }

/-- The only section of an operation other than `pop` and `pop_timeout`. -/
def runLocked (cap : ℕ) (queue : SafeQueue α) : QueueCall α → Option (SafeQueue α × QueueResult α)
  | .push item => some ((queue.push cap item).2, .pushed (queue.push cap item).1)
  | .requeue item => some (queue.requeue item, .done)
  | .rawPop => some (queue.rawPop.2, .rawPopped queue.rawPop.1)
  | .clear => some (queue.clear, .cleared queue.items)
  | .stop => some (queue.stop, .done)
  | .isStop => some (queue, .flag queue.exit)
  | .size => some (queue, .count queue.items.length)
  | .empty => some (queue, .flag queue.items.isEmpty)
  | .pop => none
  | .popTimeout _ => none

/-- One section under the lock of a call at a place. -/
def move (useCV : Bool) (cap : ℕ) (queue : SafeQueue α) (call : QueueCall α) (place : QueuePlace)
    (expired : Bool) : Option (Section α) :=
  match call with
  | .pop => queue.popSection useCV place
  | .popTimeout _ => queue.popTimeoutSection useCV expired place
  | other =>
    if place = .entering then
      (queue.runLocked cap other).map fun ended ↦ (ended.1, .returns ended.2)
    else none

end SafeQueue

/-- Where a call begins. -/
def QueueCall.enter (useCV : Bool) : QueueCall α → QueuePlace
  | .pop => if useCV then .entering else .checkStop
  | .popTimeout timeoutMs =>
    if useCV then .entering else .checkStopTimed (Zbf.sleepTimes timeoutMs)
  | _ => .entering

/-- `SafeQueue<T, Cap, UseCV>`. The input of a section is whether the time of a wait has expired. -/
def queueObject (α : Type*) (useCV : Bool) (cap : ℕ) :
    ConcurrentObject (SafeQueue α) (QueueCall α) QueuePlace (QueueResult α) Bool where
  enter := QueueCall.enter useCV
  move := SafeQueue.move useCV cap

/-! ### The deque -/

/-- What a queue holds, front first, and whether it was stopped. -/
structure Deque (α : Type*) where
  items : List α
  stopped : Bool

/-- The calls that wait for an item. -/
def QueueCall.IsPop : QueueCall α → Prop
  | .pop => True
  | .popTimeout _ => True
  | _ => False

theorem QueueCall.isPop_pop : (.pop : QueueCall α).IsPop := trivial

theorem QueueCall.isPop_popTimeout (timeoutMs : ℤ) :
    (.popTimeout timeoutMs : QueueCall α).IsPop := trivial

/-- What a call on the deque can come to. -/
inductive DequeStep (useCV : Bool) (cap : ℕ) :
    Deque α → QueueCall α → QueueResult α → Deque α → Prop
  | pushed (item : α) {items : List α} (stopped : Bool) (hroom : items.length < cap) :
      DequeStep useCV cap ⟨items, stopped⟩ (.push item) (.pushed true) ⟨items ++ [item], stopped⟩
  | full (item : α) {items : List α} (stopped : Bool) (hfull : cap ≤ items.length) :
      DequeStep useCV cap ⟨items, stopped⟩ (.push item) (.pushed false) ⟨items, stopped⟩
  | requeued (item : α) (items : List α) (stopped : Bool) :
      DequeStep useCV cap ⟨items, stopped⟩ (.requeue item) .done ⟨item :: items, stopped⟩
  | popped {call : QueueCall α} (hcall : call.IsPop) (item : α) (items : List α) {stopped : Bool}
      (hopen : useCV = true → stopped = false) :
      DequeStep useCV cap ⟨item :: items, stopped⟩ call (.popped .success (some item))
        ⟨items, stopped⟩
  | timedOut (timeoutMs : ℤ) {stopped : Bool} (hopen : useCV = true → stopped = false) :
      DequeStep useCV cap ⟨[], stopped⟩ (.popTimeout timeoutMs) (.popped .timeout none)
        ⟨[], stopped⟩
  | exited {call : QueueCall α} (hcall : call.IsPop) (items : List α) :
      DequeStep useCV cap ⟨items, true⟩ call (.popped .exit none) ⟨items, true⟩
  | rawPopped (item : α) (items : List α) (stopped : Bool) :
      DequeStep useCV cap ⟨item :: items, stopped⟩ .rawPop (.rawPopped (some item)) ⟨items, stopped⟩
  | rawEmpty (stopped : Bool) :
      DequeStep useCV cap ⟨[], stopped⟩ .rawPop (.rawPopped none) ⟨[], stopped⟩
  | cleared (items : List α) (stopped : Bool) :
      DequeStep useCV cap ⟨items, stopped⟩ .clear (.cleared items) ⟨[], stopped⟩
  | stopped (items : List α) (stopped : Bool) :
      DequeStep useCV cap ⟨items, stopped⟩ .stop .done ⟨items, true⟩
  | isStop (items : List α) (stopped : Bool) :
      DequeStep useCV cap ⟨items, stopped⟩ .isStop (.flag stopped) ⟨items, stopped⟩
  | size (items : List α) (stopped : Bool) :
      DequeStep useCV cap ⟨items, stopped⟩ .size (.count items.length) ⟨items, stopped⟩
  | empty (items : List α) (stopped : Bool) :
      DequeStep useCV cap ⟨items, stopped⟩ .empty (.flag items.isEmpty) ⟨items, stopped⟩

/-- The items that a call brought in. -/
def acceptedItems : QueueCall α → QueueResult α → List α
  | .push item, .pushed true => [item]
  | .requeue item, _ => [item]
  | _, _ => []

/-- The items that a call took out: the one that it returned, or all that were cleared. -/
def removedItems : QueueCall α → QueueResult α → List α
  | _, .popped _ item => item.toList
  | _, .rawPopped item => item.toList
  | _, .cleared items => items
  | _, _ => []

theorem acceptedItems_of_isPop {call : QueueCall α} (hcall : call.IsPop) (result : QueueResult α) :
    acceptedItems call result = [] := by
  cases call with
  | pop => rfl
  | popTimeout timeoutMs => rfl
  | _ => exact hcall.elim

/-- The call returned that it did nothing. -/
def QueueResult.Refused : QueueResult α → Prop
  | .pushed ret => ret = false
  | .popped code _ => code ≠ .success
  | .rawPopped item => item = none
  | _ => False

namespace DequeStep

variable {useCV : Bool} {cap : ℕ} {deque next : Deque α} {call : QueueCall α}
  {result : QueueResult α}

/-- Each step keeps the items that it does not remove. -/
theorem conserves (hstep : DequeStep useCV cap deque call result next) :
    (deque.items ++ acceptedItems call result).Perm (removedItems call result ++ next.items) := by
  cases hstep with
  | requeued item items stopped => exact List.perm_append_singleton item items
  | popped hcall item items hopen => simp [acceptedItems_of_isPop hcall, removedItems]
  | exited hcall items => simp [acceptedItems_of_isPop hcall, removedItems]
  | _ => simp [acceptedItems, removedItems]

theorem eq_of_refused (hstep : DequeStep useCV cap deque call result next)
    (hrefused : result.Refused) : next = deque := by
  cases hstep with
  | full item stopped hfull => rfl
  | timedOut timeoutMs hopen => rfl
  | exited hcall items => rfl
  | rawEmpty stopped => rfl
  | pushed item stopped hroom => cases hrefused
  | popped hcall item items hopen => exact absurd rfl hrefused
  | rawPopped item items stopped => cases hrefused
  | _ => exact hrefused.elim

/-- A pop reports success if and only if it assigned an item. -/
theorem success_iff {code : PopCode} {item : Option α}
    (hstep : DequeStep useCV cap deque call (.popped code item) next) :
    code = .success ↔ item.isSome := by
  cases hstep with
  | popped hcall item items hopen => exact iff_of_true rfl rfl
  | timedOut timeoutMs hopen => exact iff_of_false nofun nofun
  | exited hcall items => exact iff_of_false nofun nofun

theorem stopped_of_stopped (hstep : DequeStep useCV cap deque call result next)
    (hstopped : deque.stopped = true) : next.stopped = true := by
  cases hstep with
  | stopped items stopped => rfl
  | _ => exact hstopped

theorem stopped_of_stop (hstep : DequeStep useCV cap deque .stop result next) :
    next.stopped = true := by
  cases hstep with
  | stopped items stopped => rfl
  | popped hcall => exact hcall.elim
  | exited hcall => exact hcall.elim

/-- Assumes: a queue with a condition variable that was stopped. The pops report that. -/
theorem exit_of_stopped (hstep : DequeStep true cap deque call result next)
    (hstopped : deque.stopped = true) (hcall : call.IsPop) : result = .popped .exit none := by
  cases hstep with
  | popped _ item items hopen => exact absurd (hopen rfl) (ne_false_of_eq_true hstopped)
  | timedOut timeoutMs hopen => exact absurd (hopen rfl) (ne_false_of_eq_true hstopped)
  | exited _ items => rfl
  | _ => exact hcall.elim

theorem nil_of_clear (hstep : DequeStep useCV cap deque .clear result next) :
    next.items = [] := by
  cases hstep with
  | cleared items stopped => rfl
  | popped hcall => exact hcall.elim
  | exited hcall => exact hcall.elim

end DequeStep

/-! ### The sections keep to the deque -/

namespace SafeQueue

variable {useCV : Bool} {cap : ℕ} {queue : SafeQueue α} {call : QueueCall α}

/-- The deque that a queue stands for. -/
def deque (queue : SafeQueue α) : Deque α := ⟨queue.items, queue.exit⟩

theorem deque_injective : Function.Injective (deque : SafeQueue α → Deque α) := by
  intro queue other heq
  cases queue
  cases other
  cases heq
  rfl

/-- The section of a call leaves the queue as it is, or makes a step of the deque. -/
def Keeps (useCV : Bool) (cap : ℕ) (queue : SafeQueue α) (call : QueueCall α)
    (ended : Section α) : Prop :=
  match ended.2 with
  | .goesOn _ => ended.1 = queue
  | .returns result => DequeStep useCV cap queue.deque call result ended.1.deque

theorem keeps_takeFront (hcall : call.IsPop) (hitems : queue.items ≠ [])
    (hopen : useCV = true → queue.exit = false) : Keeps useCV cap queue call queue.takeFront := by
  obtain ⟨items, exit⟩ := queue
  cases items with
  | nil => exact absurd rfl hitems
  | cons item rest => exact .popped hcall item rest hopen

theorem keeps_exit (hcall : call.IsPop) (hexit : queue.exit = true) :
    Keeps useCV cap queue call (queue, .returns (.popped .exit none)) := by
  obtain ⟨items, exit⟩ := queue
  cases hexit
  exact .exited hcall items

theorem keeps_timeout (timeoutMs : ℤ) (hitems : queue.items = [])
    (hopen : useCV = true → queue.exit = false) :
    Keeps useCV cap queue (.popTimeout timeoutMs) (queue, .returns (.popped .timeout none)) := by
  obtain ⟨items, exit⟩ := queue
  cases hitems
  exact .timedOut timeoutMs hopen

theorem keeps_popLocked (hcall : call.IsPop) : Keeps useCV cap queue call queue.popLocked := by
  unfold popLocked
  split_ifs with hwait hexit
  · exact rfl
  · exact keeps_exit hcall hexit
  · refine keeps_takeFront hcall (fun hitems ↦ hwait ?_) fun _ ↦ eq_false_of_ne_true hexit
    rw [hitems, eq_false_of_ne_true hexit]
    rfl

theorem keeps_popTimeoutLocked (timeoutMs : ℤ) (expired : Bool) :
    Keeps useCV cap queue (.popTimeout timeoutMs) (queue.popTimeoutLocked expired) := by
  unfold popTimeoutLocked
  dsimp only
  split_ifs with hwait hexit hempty
  · exact rfl
  · exact keeps_exit trivial hexit
  · have hopen := eq_false_of_ne_true hexit
    exact keeps_timeout timeoutMs (by simpa [hopen] using hempty) fun _ ↦ hopen
  · have hopen := eq_false_of_ne_true hexit
    exact keeps_takeFront trivial (by simpa [hopen] using hempty) fun _ ↦ hopen

theorem keeps_stopOr (hcall : call.IsPop) (place : QueuePlace) :
    Keeps useCV cap queue call (queue.stopOr place) := by
  unfold stopOr
  split_ifs with hexit
  · exact keeps_exit hcall hexit
  · exact rfl

/-- Assumes: no condition variable, and an end that keeps to the deque when the queue is empty. The
attempt keeps to it. -/
theorem keeps_takeOr (hcall : call.IsPop)
    {otherwise : SectionEnd QueuePlace (QueueResult α)}
    (hotherwise : queue.items = [] → Keeps false cap queue call (queue, otherwise)) :
    Keeps false cap queue call (queue.takeOr otherwise) := by
  unfold takeOr
  split_ifs with hitems
  · exact keeps_takeFront hcall (by simpa using hitems) nofun
  · exact hotherwise (by simpa using hitems)

theorem keeps_popSection {place : QueuePlace} {ended : Section α}
    (hsection : queue.popSection useCV place = some ended) :
    Keeps useCV cap queue .pop ended := by
  cases useCV <;> cases place <;> cases hsection
  · exact keeps_stopOr QueueCall.isPop_pop .tryPop
  · exact keeps_takeOr QueueCall.isPop_pop fun _ ↦ rfl
  · exact keeps_popLocked QueueCall.isPop_pop
  · exact keeps_popLocked QueueCall.isPop_pop

theorem keeps_popTimeoutSection {timeoutMs : ℤ} {expired : Bool} {place : QueuePlace}
    {ended : Section α} (hsection : queue.popTimeoutSection useCV expired place = some ended) :
    Keeps useCV cap queue (.popTimeout timeoutMs) ended := by
  cases useCV <;> cases place <;> cases hsection
  · exact keeps_stopOr (QueueCall.isPop_popTimeout timeoutMs) _
  · exact keeps_takeOr (QueueCall.isPop_popTimeout timeoutMs) fun _ ↦ rfl
  · exact keeps_stopOr (QueueCall.isPop_popTimeout timeoutMs) .lastTry
  · exact keeps_takeOr (QueueCall.isPop_popTimeout timeoutMs) fun hitems ↦
      keeps_timeout timeoutMs hitems nofun
  · exact keeps_popTimeoutLocked timeoutMs false
  · exact keeps_popTimeoutLocked timeoutMs expired

theorem dequeStep_push (useCV : Bool) (cap : ℕ) (queue : SafeQueue α) (item : α) :
    DequeStep useCV cap queue.deque (.push item) (.pushed (queue.push cap item).1)
      (queue.push cap item).2.deque := by
  unfold push
  split_ifs with hroom
  · exact .pushed item queue.exit hroom
  · exact .full item queue.exit (not_lt.mp hroom)

theorem dequeStep_rawPop (useCV : Bool) (cap : ℕ) (queue : SafeQueue α) :
    DequeStep useCV cap queue.deque .rawPop (.rawPopped queue.rawPop.1) queue.rawPop.2.deque := by
  obtain ⟨items, exit⟩ := queue
  cases items with
  | nil => exact .rawEmpty exit
  | cons item rest => exact .rawPopped item rest exit

theorem dequeStep_runLocked (useCV : Bool) {next : SafeQueue α} {result : QueueResult α}
    (hlocked : queue.runLocked cap call = some (next, result)) :
    DequeStep useCV cap queue.deque call result next.deque := by
  cases call with
  | push item =>
    cases hlocked
    exact dequeStep_push useCV cap queue item
  | rawPop =>
    cases hlocked
    exact dequeStep_rawPop useCV cap queue
  | requeue item =>
    cases hlocked
    exact .requeued item queue.items queue.exit
  | clear =>
    cases hlocked
    exact .cleared queue.items queue.exit
  | stop =>
    cases hlocked
    exact .stopped queue.items queue.exit
  | isStop =>
    cases hlocked
    exact .isStop queue.items queue.exit
  | size =>
    cases hlocked
    exact .size queue.items queue.exit
  | empty =>
    cases hlocked
    exact .empty queue.items queue.exit
  | pop => cases hlocked
  | popTimeout timeoutMs => cases hlocked

/-- Every section of every call leaves the queue as it is, or makes a step of the deque. -/
theorem keeps_move {place : QueuePlace} {expired : Bool} {ended : Section α}
    (hmove : move useCV cap queue call place expired = some ended) :
    Keeps useCV cap queue call ended := by
  cases call with
  | pop => exact keeps_popSection hmove
  | popTimeout timeoutMs => exact keeps_popTimeoutSection hmove
  | _ =>
    simp only [move] at hmove
    split_ifs at hmove
    obtain ⟨⟨next, result⟩, hlocked, rfl⟩ := Option.map_eq_some_iff.mp hmove
    exact dequeStep_runLocked useCV hlocked

/-- A `pop_timeout` whose wait is over is the `popTimeout` of the queue without threads. -/
theorem popTimeoutLocked_eq (queue : SafeQueue α) :
    queue.popTimeoutLocked true =
      (queue.popTimeout.2, .returns (match queue.popTimeout.1 with
        | .success item => .popped .success (some item)
        | .timeout => .popped .timeout none
        | .exit => .popped .exit none)) := by
  obtain ⟨items, exit⟩ := queue
  cases exit <;> cases items <;> rfl

end SafeQueue

theorem queueObject_implements (α : Type*) (useCV : Bool) (cap : ℕ) :
    Implements (queueObject α useCV cap) SafeQueue.deque (DequeStep useCV cap) where
  goesOn := fun hmove ↦ congrArg SafeQueue.deque (SafeQueue.keeps_move hmove)
  returns := fun hmove ↦ SafeQueue.keeps_move hmove

/-! ### Runs -/

/-- The items that the calls of a log brought in, in its order. -/
def acceptedBy (log : List (LoggedCall κ (QueueCall α) (QueueResult α))) : List α :=
  log.flatMap fun entry ↦ acceptedItems entry.call entry.result

/-- The items that the calls of a log took out, in its order. -/
def removedBy (log : List (LoggedCall κ (QueueCall α) (QueueResult α))) : List α :=
  log.flatMap fun entry ↦ removedItems entry.call entry.result

section Logs

variable {useCV : Bool} {cap : ℕ} {init final : Deque α}
  {log early late : List (LoggedCall κ (QueueCall α) (QueueResult α))} {tag : κ}
  {result : QueueResult α}

/-- What was stored and accepted is what was removed and is stored. -/
theorem perm_of_replays (hreplays : Replays (DequeStep useCV cap) init log final) :
    (init.items ++ acceptedBy log).Perm (removedBy log ++ final.items) :=
  hreplays.conserves Deque.items acceptedItems removedItems fun _ _ _ _ hstep ↦ hstep.conserves

/-- After a `clear`, only items that are accepted later are removed or stored. -/
theorem perm_of_clear
    (hreplays : Replays (DequeStep useCV cap) init (early ++ ⟨tag, .clear, result⟩ :: late) final) :
    (acceptedBy late).Perm (removedBy late ++ final.items) := by
  obtain ⟨middle, -, hlater⟩ := hreplays.split
  cases hlater with
  | cons hclear hlate =>
    have hperm := perm_of_replays hlate
    rw [hclear.nil_of_clear] at hperm
    exact hperm

/-- After a `stop` the deque is stopped. -/
theorem stopped_of_mem (hreplays : Replays (DequeStep useCV cap) init log final)
    (hmem : ⟨tag, .stop, result⟩ ∈ log) : final.stopped = true := by
  obtain ⟨early, late, rfl⟩ := List.append_of_mem hmem
  obtain ⟨middle, -, hlater⟩ := hreplays.split
  cases hlater with
  | cons hstop hlate =>
    exact hlate.invariant (fun deque ↦ deque.stopped = true)
      (fun _ _ _ _ hstopped hstep ↦ hstep.stopped_of_stopped hstopped) hstop.stopped_of_stop

/-- Every pop of the log reports success if and only if it assigned an item. -/
theorem success_iff_of_replays (hreplays : Replays (DequeStep useCV cap) init log final) :
    ∀ entry ∈ log, ∀ code item, entry.result = .popped code item →
      (code = .success ↔ item.isSome) := by
  refine hreplays.forall_mem (fun _ ↦ True)
    (fun _ result ↦ ∀ code item, result = .popped code item → (code = .success ↔ item.isSome))
    (fun deque call result next _ hstep ↦ ⟨trivial, ?_⟩) trivial
  rintro code item rfl
  exact hstep.success_iff

/-- Assumes: a stopped deque with a condition variable. Every pop of the log reports that. -/
theorem exit_of_replays (hreplays : Replays (DequeStep true cap) init log final)
    (hstopped : init.stopped = true) :
    ∀ entry ∈ log, entry.call.IsPop → entry.result = .popped .exit none := by
  refine hreplays.forall_mem (fun deque ↦ deque.stopped = true)
    (fun call result ↦ call.IsPop → result = .popped .exit none) ?_ hstopped
  intro deque call result next hdeque hstep
  exact ⟨hstep.stopped_of_stopped hdeque, hstep.exit_of_stopped hdeque⟩

end Logs

/-- Calling `raw_pop` until it finds nothing returns every item, in order, stopped or not. -/
theorem drain_rawPop (queue : SafeQueue α) {fuel : ℕ} (hfuel : queue.items.length < fuel) :
    drainWith SafeQueue.rawPop fuel queue = some (queue.items, queue.clear) := by
  obtain ⟨items, exit⟩ := queue
  induction items generalizing fuel with
  | nil =>
    obtain ⟨fuel, rfl⟩ := Nat.exists_eq_add_one_of_ne_zero (Nat.ne_zero_of_lt hfuel)
    exact drainWith_of_none rfl fuel
  | cons item rest ih =>
    obtain ⟨fuel, rfl⟩ := Nat.exists_eq_add_one_of_ne_zero (Nat.ne_zero_of_lt hfuel)
    have hpop : SafeQueue.rawPop ⟨item :: rest, exit⟩ = (some item, ⟨rest, exit⟩) := rfl
    rw [drainWith_of_some hpop, ih (Nat.lt_of_succ_lt_succ hfuel), Option.map_some]
    rfl

variable [DecidableEq κ]

/-- An execution of calls on a queue. -/
abbrev QueueExecution (κ α : Type*) :=
  Execution κ (SafeQueue α) (QueueCall α) QueuePlace (QueueResult α)

/-- Assumes: a run on a new queue during which a `stop` returned. The queue is stopped. -/
theorem stopped_of_run {useCV : Bool} {cap : ℕ} {actions : List (CallAction κ (QueueCall α) Bool)}
    {exec : QueueExecution κ α} {tag : κ} {result : QueueResult α}
    (hrun : runFrom (queueObject α useCV cap).step (.start .new) actions = some exec)
    (hstop : exec.calls tag = .returned .stop result) : exec.shared.deque.stopped = true := by
  have hexplained := (queueObject_implements α useCV cap).explained hrun
  have hrecorded := hexplained.recorded tag
  rw [hstop] at hrecorded
  exact stopped_of_mem hexplained.linearization.legal hrecorded

/-- Assumes: a run of any calls on a new queue, in two parts. The calls have a linearization on the
deque. The items that were accepted are those that were removed and those that are stored, and after
a `clear` only items accepted later are removed. A pop reports success if and only if it assigned an
item, and a refused call leaves the queue as it is. If the queue has a condition variable and a
`stop` returned during the first part, every pop that is decided during the second one reports that.
`raw_pop` returns all items that are stored. -/
theorem queue_linearizable (useCV : Bool) (cap : ℕ)
    {before after : List (CallAction κ (QueueCall α) Bool)} {middle final : QueueExecution κ α}
    (hbefore : runFrom (queueObject α useCV cap).step (.start .new) before = some middle)
    (hafter : runFrom (queueObject α useCV cap).step middle after = some final) :
    Linearization (DequeStep useCV cap) ⟨[], false⟩ final.history final.log final.shared.deque ∧
      (acceptedBy final.log).Perm (removedBy final.log ++ final.shared.items) ∧
      (∀ early tag items late, final.log = early ++ ⟨tag, .clear, .cleared items⟩ :: late →
        (acceptedBy late).Perm (removedBy late ++ final.shared.items)) ∧
      (∀ entry ∈ final.log, ∀ code item, entry.result = .popped code item →
        (code = .success ↔ item.isSome)) ∧
      (∀ call place expired next result,
        final.shared.move useCV cap call place expired = some (next, .returns result) →
          result.Refused → next = final.shared) ∧
      (useCV = true → ∀ tag result, middle.calls tag = .returned .stop result →
        ∃ late, final.log = middle.log ++ late ∧
          ∀ entry ∈ late, entry.call.IsPop → entry.result = .popped .exit none) ∧
      ∀ fuel, final.shared.items.length < fuel →
        drainWith SafeQueue.rawPop fuel final.shared =
          some (final.shared.items, final.shared.clear) := by
  have himpl := queueObject_implements α useCV cap
  have hrun : runFrom (queueObject α useCV cap).step (.start .new) (before ++ after) =
      some final := by
    rw [runFrom_append, hbefore, Option.bind_some, hafter]
  have hlin := (himpl.explained hrun).linearization
  refine ⟨hlin, perm_of_replays hlin.legal, ?_, success_iff_of_replays hlin.legal, ?_, ?_,
    fun fuel hfuel ↦ drain_rawPop final.shared hfuel⟩
  · intro early tag items late hlog
    exact perm_of_clear (hlog ▸ hlin.legal)
  · intro call place expired next result hmove hrefused
    exact SafeQueue.deque_injective ((himpl.returns hmove).eq_of_refused hrefused)
  · rintro rfl tag result hstop
    obtain ⟨late, hlog, hreplays⟩ := himpl.replays_later hafter
    exact ⟨late, hlog, exit_of_replays hreplays (stopped_of_run hbefore hstop)⟩

/-- A queue is offered two items and is stopped. -/
def callsToStop : List (CallAction ℕ (QueueCall ℕ) Bool) :=
  [.invoke 0 (.push 7), .invoke 1 (.push 8), .advance 0 false, .advance 1 false, .leave 1,
    .invoke 2 .stop, .advance 2 false, .leave 2]

/-- A `pop` and a `raw_pop`. -/
def callsAfterStop : List (CallAction ℕ (QueueCall ℕ) Bool) :=
  [.invoke 3 .pop, .advance 3 false, .invoke 4 .rawPop, .advance 4 false]

/-- A queue for one item takes one of two, is stopped, and refuses a `pop`; `raw_pop` then returns
the item. -/
theorem queue_linearizable_stopped :
    ∃ middle final : QueueExecution ℕ ℕ,
      runFrom (queueObject ℕ true 1).step (.start .new) callsToStop = some middle ∧
        runFrom (queueObject ℕ true 1).step middle callsAfterStop = some final ∧
          final.log = [⟨0, .push 7, .pushed true⟩, ⟨1, .push 8, .pushed false⟩, ⟨2, .stop, .done⟩,
            ⟨3, .pop, .popped .exit none⟩, ⟨4, .rawPop, .rawPopped (some 7)⟩] ∧
            Linearization (DequeStep true 1) ⟨[], false⟩ final.history final.log
              final.shared.deque :=
  ⟨_, _, rfl, rfl, rfl,
    (@queue_linearizable ℕ ℕ _ true 1 callsToStop callsAfterStop _ _ rfl rfl).1⟩

end TszyUlt.Zbf
