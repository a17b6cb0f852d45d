import Mathlib.Data.List.Nodup

/-!
# The bounded queue

`zbf/safequeue.hpp`: `SafeQueue`, a queue under a lock, with the capacity as a parameter. `push`
refuses an item when the queue is full, `requeue` puts an item back in front whatever the size, and
`popTimeout` takes the front, unless the queue was stopped. Each operation is one section under the
lock.

Scope. The waiting on the condition variable is not modelled: a pop that finds nothing reports the
timeout.
-/

set_option autoImplicit false
set_option relaxedAutoImplicit false

namespace TszyUlt.Zbf

/-- `SafeQueue`: its items, front first, and whether it was stopped. -/
structure SafeQueue (α : Type*) where
  items : List α
  exit : Bool

/-- The results of `pop_timeout`. -/
inductive PopResult (α : Type*)
  | success (item : α)
  | timeout
  | exit
  deriving DecidableEq, Repr

namespace SafeQueue

variable {α : Type*}

/-- An empty queue. -/
def new : SafeQueue α := ⟨[], false⟩

/-- `push`: whether the item was taken. -/
def push (cap : ℕ) (queue : SafeQueue α) (item : α) : Bool × SafeQueue α :=
  if queue.items.length < cap then (true, { queue with items := queue.items ++ [item] })
  else (false, queue)

/-- `pop_timeout`. -/
def popTimeout (queue : SafeQueue α) : PopResult α × SafeQueue α :=
  if queue.exit then (.exit, queue)
  else
    match queue.items with
    | [] => (.timeout, queue)
    | item :: rest => (.success item, { queue with items := rest })

/-- `requeue`. -/
def requeue (queue : SafeQueue α) (item : α) : SafeQueue α :=
  { queue with items := item :: queue.items }

/-- `stop`. -/
def stop (queue : SafeQueue α) : SafeQueue α := { queue with exit := true }

/-- A successful pop takes the front. -/
theorem popTimeout_eq_success {queue next : SafeQueue α} {item : α}
    (hpop : queue.popTimeout = (.success item, next)) : queue.items = item :: next.items := by
  unfold popTimeout at hpop
  split at hpop
  · cases hpop
  · split at hpop
    · cases hpop
    · rename_i front rest hitems
      cases hpop
      exact hitems

/-- A push that takes the item puts it at the end. -/
theorem push_eq_true {cap : ℕ} {queue next : SafeQueue α} {item : α}
    (hpush : queue.push cap item = (true, next)) : next.items = queue.items ++ [item] := by
  unfold push at hpush
  split at hpush
  · cases hpush
    rfl
  · cases hpush

/-- A push takes the item only while the queue is not full. -/
theorem length_lt_of_push {cap : ℕ} {queue next : SafeQueue α} {item : α}
    (hpush : queue.push cap item = (true, next)) : queue.items.length < cap := by
  unfold push at hpush
  split at hpush
  · assumption
  · cases hpush

end SafeQueue

end TszyUlt.Zbf
