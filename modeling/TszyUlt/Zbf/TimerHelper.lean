import Mathlib.Data.Nat.ModEq
import Mathlib.Data.List.Infix
import Mathlib.Logic.Function.Basic
import TszyUlt.Lib.Transition

/-!
# The timer

`zbf/timer_helper.hpp`: `addTimerTask`, `timerProc` and `onTicks`. A timer counts ticks, visits the
slots of its unit that divide the count, and runs the tasks registered under them. The count starts
again at the largest slot, so what a slot sees is the number of ticks modulo that slot
(`InStep.tick`). `onTicksLoop_spec` and `scanSlots_spec` say what one tick does for a task that
always returns true, `inStep_step` that a run keeps it, and `runsAt_eq_multiples_iff` compares the
ticks at which the count suits the interval with the multiples of the interval.

Scope. What a task does is a parameter: its return value, the tasks it registers and whether the
timer is stopped meanwhile may depend on everything that ran before. `addTimerTask` takes no lock,
so calls of other threads stand between two ticks.
-/

set_option autoImplicit false
set_option relaxedAutoImplicit false

namespace TszyUlt.Zbf

open Lib

/-- `TickUnit`. -/
inductive TickUnit
  | tenMilliSec | second | tenSecond | minute
  deriving DecidableEq, Repr

namespace TickUnit

/-- `timeSlot`: the table of the unit. -/
def timeSlot : TickUnit → List ℕ
  | tenMilliSec => [1, 2, 3, 5, 10, 20, 30, 50, 100]
  | second => [1, 2, 3, 5, 10, 15, 20, 30, 60]
  | tenSecond => [1, 2, 3, 6, 9, 12, 18, 30, 60]
  | minute => [1, 2, 3, 5, 10, 15, 20, 30, 60]

/-- `timeSlot[timeSlotSZ-1]`: where the count starts again. -/
def lastSlot (tickUnit : TickUnit) : ℕ := tickUnit.timeSlot.getLastD 0

variable {tickUnit : TickUnit} {slot : ℕ}

theorem slot_pos (hslot : slot ∈ tickUnit.timeSlot) : 0 < slot := by
  cases tickUnit <;> revert slot <;> decide

theorem slot_le_lastSlot (hslot : slot ∈ tickUnit.timeSlot) : slot ≤ tickUnit.lastSlot := by
  cases tickUnit <;> revert slot <;> decide

theorem count_timeSlot (hslot : slot ∈ tickUnit.timeSlot) : tickUnit.timeSlot.count slot = 1 := by
  cases tickUnit <;> revert slot <;> decide

theorem lastSlot_lt (tickUnit : TickUnit) : tickUnit.lastSlot < 65536 := by
  cases tickUnit <;> decide

/-- The slots that do not divide the largest slot of their unit. -/
theorem dvd_lastSlot_iff (hslot : slot ∈ tickUnit.timeSlot) :
    slot ∣ tickUnit.lastSlot ↔
      (tickUnit = tenMilliSec → slot ≠ 3 ∧ slot ≠ 30) ∧
        (tickUnit = tenSecond → slot ≠ 9 ∧ slot ≠ 18) := by
  cases tickUnit <;> revert slot <;> decide

end TickUnit

/-- A task that ran, and the number of ticks since the start. -/
structure TimerRun where
  elapsed : ℕ
  task : ℕ
  deriving DecidableEq, Repr

/-- What a task does when it runs: its return value, the intervals of the tasks it registers, and
whether `stop` is called meanwhile. -/
structure TaskOutcome where
  again : Bool
  added : List ℤ
  stopped : Bool
  deriving DecidableEq, Repr

/-- What each task does, after everything that ran before. -/
abbrev TaskBehaviour := List TimerRun → ℕ → TaskOutcome

/-- `timer_helper`: its members, the variable `tick` of `timerProc`, and what the source does not
keep: the number of tasks ever registered, by which a task is known, the ticks since the start, and
what ran. -/
structure TimerHelper where
  tickUnit : TickUnit
  timerTasks : ℕ → List ℕ
  stopped : Bool
  tick : ℕ
  registered : ℕ
  elapsed : ℕ
  runs : List TimerRun

namespace TimerHelper

/-- The constructor. -/
def new (tickUnit : TickUnit) : TimerHelper where
  tickUnit := tickUnit
  timerTasks := fun _ ↦ []
  stopped := false
  tick := 0
  registered := 0
  elapsed := 0
  runs := []

/-- `_timerTasks[key].push_back(task)`. -/
def pushBack (timer : TimerHelper) (key task : ℕ) : TimerHelper :=
  { timer with timerTasks := Function.update timer.timerTasks key (timer.timerTasks key ++ [task]) }

/-- The conversion of an interval to the key type `unsigned short`. -/
def keyOf (interval : ℤ) : ℕ := (interval % 65536).toNat

/-- `addTimerTask`. -/
def addTimerTask (timer : TimerHelper) (interval : ℤ) : TimerHelper :=
  { timer.pushBack (keyOf interval) timer.registered with registered := timer.registered + 1 }

/-- The timer when it is started: the tasks registered before, the first one first. -/
def started (tickUnit : TickUnit) (intervals : List ℤ) : TimerHelper :=
  intervals.foldl addTimerTask (new tickUnit)

/-- The call of a task that was taken from its list. -/
def callTask (behaviour : TaskBehaviour) (task : ℕ) (timer : TimerHelper) : TimerHelper :=
  (behaviour timer.runs task).added.foldl addTimerTask
    { timer with
      runs := timer.runs ++ [⟨timer.elapsed, task⟩]
      stopped := timer.stopped || (behaviour timer.runs task).stopped }

/-- The call, and the return of the task to its list. -/
def runTask (behaviour : TaskBehaviour) (slot task : ℕ) (timer : TimerHelper) : TimerHelper :=
  if (behaviour timer.runs task).again then (callTask behaviour task timer).pushBack slot task
  else callTask behaviour task timer

/-- The loop of `onTicks`, with the rounds left. -/
def onTicksLoop (behaviour : TaskBehaviour) (slot : ℕ) : ℕ → TimerHelper → TimerHelper
  | 0, timer => timer
  | taskSize + 1, timer =>
    if timer.stopped then timer
    else
      match timer.timerTasks slot with
      | [] => timer
      | task :: rest =>
        onTicksLoop behaviour slot taskSize
          (runTask behaviour slot task
            { timer with timerTasks := Function.update timer.timerTasks slot rest })

/-- `onTicks`. -/
def onTicks (behaviour : TaskBehaviour) (slot : ℕ) (timer : TimerHelper) : TimerHelper :=
  onTicksLoop behaviour slot (timer.timerTasks slot).length timer

/-- The loop of `timerProc` over the slots. -/
def scanSlots (behaviour : TaskBehaviour) : List ℕ → TimerHelper → TimerHelper
  | [], timer => timer
  | slot :: slots, timer =>
    if timer.stopped then timer
    else
      scanSlots behaviour slots
        (if timer.tick % slot = 0 then onTicks behaviour slot timer else timer)

/-- The end of a round of `timerProc`: at the largest slot the count starts again. -/
def restartCount (timer : TimerHelper) : TimerHelper :=
  { timer with tick := if timer.tick = timer.tickUnit.lastSlot then 0 else timer.tick }

/-- One round of `timerProc`, after the wait has timed out. -/
def onTimeout (behaviour : TaskBehaviour) (timer : TimerHelper) : TimerHelper :=
  restartCount <| scanSlots behaviour timer.tickUnit.timeSlot
    { timer with tick := timer.tick + 1, elapsed := timer.elapsed + 1 }

/-- What happens to a started timer: the wait times out, another thread registers a task or stops
the timer. -/
inductive Action
  | timeout
  | addTimerTask (interval : ℤ)
  | stop
  deriving DecidableEq, Repr

/-- A stopped timer has no further round. -/
def step (behaviour : TaskBehaviour) (timer : TimerHelper) : Action → Option TimerHelper
  | .timeout => if timer.stopped then none else some (onTimeout behaviour timer)
  | .addTimerTask interval => some (addTimerTask timer interval)
  | .stop => some { timer with stopped := true }

/-- The ticks, counted from the start, at which a task ran. -/
def runsOf (task : ℕ) (timer : TimerHelper) : List ℕ :=
  (timer.runs.filter (·.task = task)).map (·.elapsed)

/-! ### The clock

After `elapsed` ticks the count stands at `elapsed` modulo the largest slot. -/

/-- The ticks up to a number of ticks at which a slot divides the count, the largest slot being
`lastSlot`. -/
def runsAt (slot lastSlot elapsed : ℕ) : List ℕ :=
  ((List.range elapsed).filter (fun before ↦ slot ∣ before % lastSlot + 1)).map (· + 1)

/-- The multiples of an interval up to a number of ticks. -/
def multiples (interval elapsed : ℕ) : List ℕ :=
  (List.range (elapsed / interval)).map fun index ↦ (index + 1) * interval

section Clock

variable {slot lastSlot elapsed : ℕ}

theorem runsAt_succ (slot lastSlot elapsed : ℕ) :
    runsAt slot lastSlot (elapsed + 1) =
      runsAt slot lastSlot elapsed ++
        List.replicate (if slot ∣ elapsed % lastSlot + 1 then 1 else 0) (elapsed + 1) := by
  rw [runsAt, List.range_succ, List.filter_append, List.map_append]
  by_cases hdvd : slot ∣ elapsed % lastSlot + 1 <;> simp [runsAt, hdvd]

theorem multiples_succ (interval elapsed : ℕ) :
    multiples interval (elapsed + 1) =
      multiples interval elapsed ++
        List.replicate (if interval ∣ elapsed + 1 then 1 else 0) (elapsed + 1) := by
  rw [multiples, Nat.succ_div]
  by_cases hdvd : interval ∣ elapsed + 1
  · have hlast : (elapsed / interval + 1) * interval = elapsed + 1 := by
      have hdiv : (elapsed + 1) / interval = elapsed / interval + 1 := by
        rw [Nat.succ_div, if_pos hdvd]
      rw [← hdiv, Nat.div_mul_cancel hdvd]
    simp [multiples, hdvd, List.range_succ, hlast]
  · simp [multiples, hdvd]

theorem runsAt_eq_multiples_of_forall
    (hall : ∀ before < elapsed, slot ∣ before % lastSlot + 1 ↔ slot ∣ before + 1) :
    runsAt slot lastSlot elapsed = multiples slot elapsed := by
  induction elapsed with
  | zero => simp [runsAt, multiples]
  | succ elapsed ih =>
    rw [runsAt_succ, multiples_succ, ih fun before hbefore ↦ hall before (by omega)]
    simp only [hall elapsed (by omega)]

/-- The remainder of a slot that does not divide the largest slot: the next multiple lies within one
interval behind the largest slot. -/
theorem next_multiple_bounds (hslot : 0 < slot) (hdvd : ¬slot ∣ lastSlot) :
    lastSlot < (lastSlot / slot + 1) * slot ∧ (lastSlot / slot + 1) * slot < lastSlot + slot := by
  have hdivide := Nat.div_add_mod lastSlot slot
  have hbelow := Nat.mod_lt lastSlot hslot
  have hrest : lastSlot % slot ≠ 0 := fun hzero ↦ hdvd (Nat.dvd_of_mod_eq_zero hzero)
  have hexpand : (lastSlot / slot + 1) * slot = slot * (lastSlot / slot) + slot := by
    rw [Nat.add_mul, Nat.one_mul, Nat.mul_comm]
  constructor <;> omega

/-- No multiple lies between the largest slot and the next multiple. -/
theorem not_dvd_of_between {tick : ℕ} (habove : lastSlot < tick)
    (hbelow : tick < (lastSlot / slot + 1) * slot) : ¬slot ∣ tick := by
  rintro ⟨factor, rfl⟩
  have hsmall : factor < lastSlot / slot + 1 := by
    rw [Nat.mul_comm slot] at hbelow
    exact Nat.lt_of_mul_lt_mul_right hbelow
  have hlarge : slot * factor ≤ slot * (lastSlot / slot) :=
    Nat.mul_le_mul_left slot (Nat.le_of_lt_succ hsmall)
  have hdivide := Nat.mul_div_le lastSlot slot
  omega

/-- Behind the largest slot the count starts again, and the interval is not reached before the next
multiple. -/
theorem not_dvd_mod_of_between (hslot : 0 < slot) (hlast : slot ≤ lastSlot)
    (hdvd : ¬slot ∣ lastSlot) {before : ℕ} (habove : lastSlot ≤ before)
    (hbelow : before < (lastSlot / slot + 1) * slot) : ¬slot ∣ before % lastSlot + 1 := by
  obtain ⟨-, hnext⟩ := next_multiple_bounds hslot hdvd
  have hmod : before % lastSlot = before - lastSlot := by
    rw [Nat.mod_eq_sub_mod habove, Nat.mod_eq_of_lt (by omega)]
  rw [hmod]
  exact Nat.not_dvd_of_pos_of_lt (Nat.succ_pos _) (by omega)

theorem dvd_mod_succ_iff (hdvd : slot ∣ lastSlot) (before : ℕ) :
    slot ∣ before % lastSlot + 1 ↔ slot ∣ before + 1 := by
  have hdivide : before + 1 = lastSlot * (before / lastSlot) + (before % lastSlot + 1) := by
    rw [← Nat.add_assoc, Nat.div_add_mod]
  rw [hdivide]
  exact (Nat.dvd_add_right (Dvd.dvd.mul_right hdvd _)).symm

/-- A slot suits the count at the multiples of the interval and at no other tick exactly if it
divides the largest slot, or as long as the first multiple behind the largest slot is not
reached. -/
theorem runsAt_eq_multiples_iff (hslot : 0 < slot) (hlast : slot ≤ lastSlot) :
    runsAt slot lastSlot elapsed = multiples slot elapsed ↔
      slot ∣ lastSlot ∨ elapsed < (lastSlot / slot + 1) * slot := by
  constructor
  · intro heq
    by_contra hneither
    obtain ⟨hdvd, hreached⟩ := not_or.mp hneither
    obtain ⟨habove, -⟩ := next_multiple_bounds hslot hdvd
    set next := (lastSlot / slot + 1) * slot with hnext
    have hmultiple : next ∈ multiples slot elapsed := by
      refine List.mem_map.mpr ⟨lastSlot / slot, List.mem_range.mpr ?_, rfl⟩
      exact (Nat.le_div_iff_mul_le hslot).mpr (not_lt.mp hreached)
    rw [← heq] at hmultiple
    obtain ⟨before, hmem, hbefore⟩ := List.mem_map.mp hmultiple
    have hdue : slot ∣ before % lastSlot + 1 := of_decide_eq_true (List.mem_filter.mp hmem).2
    exact not_dvd_mod_of_between hslot hlast hdvd (by omega) (by omega) hdue
  · intro hwithin
    refine runsAt_eq_multiples_of_forall fun before hbefore ↦ ?_
    by_cases hdvd : slot ∣ lastSlot
    · exact dvd_mod_succ_iff hdvd before
    · have hbelow := hwithin.resolve_left hdvd
      rcases Nat.lt_or_ge before lastSlot with hfirst | hagain
      · rw [Nat.mod_eq_of_lt hfirst]
      · have habove : lastSlot < before + 1 := Nat.lt_succ_of_le hagain
        exact iff_of_false
          (not_dvd_mod_of_between hslot hlast hdvd hagain (by omega))
          (not_dvd_of_between habove (by omega))

end Clock

/-! ### One tick -/

section OneTick

variable {behaviour : TaskBehaviour} {task : ℕ} {timer : TimerHelper}

/-- What the running of tasks leaves as it is: the clock, and how often a task known before is in
each list. -/
structure Kept (task : ℕ) (before after : TimerHelper) : Prop where
  tickUnit : after.tickUnit = before.tickUnit
  tick : after.tick = before.tick
  elapsed : after.elapsed = before.elapsed
  stopped : before.stopped = true → after.stopped = true
  known : task < before.registered → task < after.registered
  lists : task < before.registered →
    ∀ key, (after.timerTasks key).count task = (before.timerTasks key).count task

theorem Kept.refl (task : ℕ) (timer : TimerHelper) : Kept task timer timer :=
  ⟨rfl, rfl, rfl, id, id, fun _ _ ↦ rfl⟩

theorem Kept.trans {first middle last : TimerHelper} (hfirst : Kept task first middle)
    (hlast : Kept task middle last) : Kept task first last where
  tickUnit := hlast.tickUnit.trans hfirst.tickUnit
  tick := hlast.tick.trans hfirst.tick
  elapsed := hlast.elapsed.trans hfirst.elapsed
  stopped hstopped := hlast.stopped (hfirst.stopped hstopped)
  known hknown := hlast.known (hfirst.known hknown)
  lists hknown key := (hlast.lists (hfirst.known hknown) key).trans (hfirst.lists hknown key)

theorem count_pushBack (timer : TimerHelper) (key other task slot : ℕ) :
    ((timer.pushBack key other).timerTasks slot).count task =
      (timer.timerTasks slot).count task + if slot = key ∧ other = task then 1 else 0 := by
  by_cases hslot : slot = key
  · subst hslot
    simp [pushBack, List.count_singleton]
  · simp [pushBack, hslot]

theorem grows_pushBack (timer : TimerHelper) (key other slot : ℕ) :
    timer.timerTasks slot <+: (timer.pushBack key other).timerTasks slot := by
  by_cases hslot : slot = key
  · subst hslot
    simp [pushBack]
  · simp [pushBack, hslot]

theorem kept_addTimerTask (task : ℕ) (timer : TimerHelper) (interval : ℤ) :
    Kept task timer (timer.addTimerTask interval) where
  tickUnit := rfl
  tick := rfl
  elapsed := rfl
  stopped := id
  known hknown := Nat.lt_succ_of_lt hknown
  lists hknown key := by
    have hother : timer.registered ≠ task := Nat.ne_of_gt hknown
    exact (count_pushBack timer _ timer.registered task key).trans (by simp [hother])

theorem kept_foldl_addTimerTask (task : ℕ) (intervals : List ℤ) (timer : TimerHelper) :
    Kept task timer (intervals.foldl addTimerTask timer) := by
  induction intervals generalizing timer with
  | nil => exact Kept.refl task timer
  | cons interval intervals ih => exact (kept_addTimerTask task timer interval).trans (ih _)

theorem foldl_addTimerTask_runs (intervals : List ℤ) (timer : TimerHelper) :
    (intervals.foldl addTimerTask timer).runs = timer.runs := by
  induction intervals generalizing timer with
  | nil => rfl
  | cons interval intervals ih => exact ih _

/-- Tasks are registered at the end of their lists. -/
theorem grows_foldl_addTimerTask (intervals : List ℤ) (timer : TimerHelper) (slot : ℕ) :
    timer.timerTasks slot <+: (intervals.foldl addTimerTask timer).timerTasks slot := by
  induction intervals generalizing timer with
  | nil => exact List.prefix_rfl
  | cons interval intervals ih =>
    have hfirst : timer.timerTasks slot <+: (timer.addTimerTask interval).timerTasks slot :=
      grows_pushBack timer (keyOf interval) timer.registered slot
    exact hfirst.trans (ih (timer.addTimerTask interval))

@[simp] theorem pushBack_runs (timer : TimerHelper) (key other : ℕ) :
    (timer.pushBack key other).runs = timer.runs := rfl

theorem runTask_runs (behaviour : TaskBehaviour) (slot other : ℕ) (timer : TimerHelper) :
    (runTask behaviour slot other timer).runs = timer.runs ++ [⟨timer.elapsed, other⟩] := by
  unfold runTask
  split
  · exact foldl_addTimerTask_runs _ _
  · exact foldl_addTimerTask_runs _ _

theorem runsOf_runTask (behaviour : TaskBehaviour) (slot other task : ℕ) (timer : TimerHelper) :
    runsOf task (runTask behaviour slot other timer) =
      runsOf task timer ++ List.replicate (if other = task then 1 else 0) timer.elapsed := by
  rw [runsOf, runTask_runs, List.filter_append, List.map_append]
  by_cases hother : other = task <;> simp [runsOf, hother]

theorem grows_callTask (behaviour : TaskBehaviour) (slot other : ℕ) (timer : TimerHelper) :
    timer.timerTasks slot <+: (callTask behaviour other timer).timerTasks slot :=
  grows_foldl_addTimerTask _ { timer with
      runs := timer.runs ++ [⟨timer.elapsed, other⟩]
      stopped := timer.stopped || (behaviour timer.runs other).stopped } slot

/-- What stands behind a task in its list is still there after it ran. -/
theorem grows_runTask (behaviour : TaskBehaviour) (slot other : ℕ) (timer : TimerHelper) :
    timer.timerTasks slot <+: (runTask behaviour slot other timer).timerTasks slot := by
  unfold runTask
  split
  · exact (grows_callTask behaviour slot other timer).trans (grows_pushBack _ slot other slot)
  · exact grows_callTask behaviour slot other timer

theorem kept_callTask (behaviour : TaskBehaviour) (other task : ℕ) (timer : TimerHelper) :
    Kept task timer (callTask behaviour other timer) := by
  have hcalled : Kept task timer
      { timer with
        runs := timer.runs ++ [⟨timer.elapsed, other⟩]
        stopped := timer.stopped || (behaviour timer.runs other).stopped } :=
    ⟨rfl, rfl, rfl, fun hstopped ↦ by simp [hstopped], id, fun _ _ ↦ rfl⟩
  exact hcalled.trans (kept_foldl_addTimerTask task _ _)

/-- A task that always returns true is in its list again after it ran; what another task does
leaves it where it is. -/
theorem kept_runTask (hagain : ∀ history, (behaviour history task).again = true) {slot other : ℕ}
    {rest : List ℕ} (hfront : timer.timerTasks slot = other :: rest) :
    Kept task timer (runTask behaviour slot other
      { timer with timerTasks := Function.update timer.timerTasks slot rest }) := by
  set popped : TimerHelper :=
    { timer with timerTasks := Function.update timer.timerTasks slot rest } with hpopped
  have hcalled := kept_callTask behaviour other task popped
  have hcount : ∀ key, (timer.timerTasks key).count task =
      (popped.timerTasks key).count task + if key = slot ∧ other = task then 1 else 0 := by
    intro key
    by_cases hkey : key = slot
    · subst hkey
      simp [hpopped, hfront, List.count_cons]
    · simp [hpopped, hkey]
  unfold runTask
  split
  next =>
    refine ⟨hcalled.tickUnit, hcalled.tick, hcalled.elapsed, hcalled.stopped, hcalled.known, ?_⟩
    intro hknown key
    rw [count_pushBack, hcalled.lists hknown key, hcount key]
  next hlast =>
    refine ⟨hcalled.tickUnit, hcalled.tick, hcalled.elapsed, hcalled.stopped, hcalled.known, ?_⟩
    intro hknown key
    have hother : other ≠ task := fun heq ↦ hlast (heq ▸ hagain _)
    rw [hcalled.lists hknown key, hcount key]
    simp [hother]

/-- Among the tasks that `onTicks` found in the list it runs the task as often as the list holds
it, unless the timer is stopped meanwhile. -/
theorem onTicksLoop_spec (timer : TimerHelper)
    (hagain : ∀ history, (behaviour history task).again = true) (slot : ℕ)
    {taskSize : ℕ} (hsize : taskSize ≤ (timer.timerTasks slot).length) :
    Kept task timer (onTicksLoop behaviour slot taskSize timer) ∧
      ((onTicksLoop behaviour slot taskSize timer).stopped = false →
        runsOf task (onTicksLoop behaviour slot taskSize timer) =
          runsOf task timer ++
            List.replicate (((timer.timerTasks slot).take taskSize).count task) timer.elapsed) := by
  induction taskSize generalizing timer with
  | zero => exact ⟨Kept.refl task timer, fun _ ↦ by simp [onTicksLoop]⟩
  | succ taskSize ih =>
    unfold onTicksLoop
    split
    next hstopped => exact ⟨Kept.refl task timer, fun hfinal ↦ by simp [hstopped] at hfinal⟩
    next =>
      split
      next hnil => simp [hnil] at hsize
      next other rest hfront =>
        set popped : TimerHelper :=
          { timer with timerTasks := Function.update timer.timerTasks slot rest } with hpopped
        have hran : Kept task timer (runTask behaviour slot other popped) :=
          kept_runTask hagain hfront
        obtain ⟨behind, hbehind⟩ := grows_runTask behaviour slot other popped
        have hrest : rest ++ behind = (runTask behaviour slot other popped).timerTasks slot := by
          rw [← hbehind]
          simp [hpopped]
        have hlength : taskSize ≤ rest.length := by
          rw [hfront] at hsize
          exact Nat.le_of_succ_le_succ hsize
        have htake : ((runTask behaviour slot other popped).timerTasks slot).take taskSize =
            rest.take taskSize := by
          rw [← hrest, List.take_append_of_le_length hlength]
        obtain ⟨hkept, hruns⟩ := ih (runTask behaviour slot other popped)
          (by rw [← hrest, List.length_append]; omega)
        refine ⟨hran.trans hkept, fun hfinal ↦ ?_⟩
        rw [hruns hfinal, runsOf_runTask, htake, hran.elapsed, hfront, List.take_succ_cons,
          List.count_cons, List.append_assoc, List.replicate_append_replicate, Nat.add_comm]
        simp [runsOf, hpopped]

/-- The loop over the slots runs a task that one list holds once, if its slot is visited and
divides the count. -/
theorem scanSlots_spec (timer : TimerHelper)
    (hagain : ∀ history, (behaviour history task).again = true) {interval : ℕ}
    (hknown : task < timer.registered)
    (hhome : ∀ key, (timer.timerTasks key).count task = if key = interval then 1 else 0)
    (slots : List ℕ) :
    Kept task timer (scanSlots behaviour slots timer) ∧
      ((scanSlots behaviour slots timer).stopped = false →
        runsOf task (scanSlots behaviour slots timer) =
          runsOf task timer ++
            List.replicate (if interval ∣ timer.tick then slots.count interval else 0)
              timer.elapsed) := by
  induction slots generalizing timer with
  | nil => exact ⟨Kept.refl task timer, fun _ ↦ by simp [scanSlots]⟩
  | cons slot slots ih =>
    unfold scanSlots
    split
    next hstopped => exact ⟨Kept.refl task timer, fun hfinal ↦ by simp [hstopped] at hfinal⟩
    next =>
      split
      next hdue =>
        obtain ⟨hvisit, hvisitRuns⟩ := onTicksLoop_spec timer hagain slot le_rfl
        change Kept task timer (onTicks behaviour slot timer) at hvisit
        obtain ⟨hkept, hruns⟩ := ih (onTicks behaviour slot timer)
          (hvisit.known hknown) (fun key ↦ (hvisit.lists hknown key).trans (hhome key))
        refine ⟨hvisit.trans hkept, fun hfinal ↦ ?_⟩
        have hgoing : (onTicks behaviour slot timer).stopped = false := by
          by_contra hstopped
          rw [Bool.not_eq_false] at hstopped
          rw [hkept.stopped hstopped] at hfinal
          cases hfinal
        have hhere : runsOf task (onTicks behaviour slot timer) =
            runsOf task timer ++ List.replicate (if slot = interval then 1 else 0)
              timer.elapsed := by
          rw [onTicks, hvisitRuns hgoing, List.take_length, hhome slot]
        rw [hruns hfinal, hhere, hvisit.tick, hvisit.elapsed, List.append_assoc,
          List.replicate_append_replicate]
        by_cases hslot : slot = interval
        · subst hslot
          simp [Nat.dvd_of_mod_eq_zero hdue, Nat.add_comm]
        · simp [hslot]
      next hnot =>
        obtain ⟨hkept, hruns⟩ := ih timer hknown hhome
        refine ⟨hkept, fun hfinal ↦ ?_⟩
        rw [hruns hfinal]
        by_cases hslot : slot = interval
        · subst hslot
          have hdvd : ¬slot ∣ timer.tick := fun hdvd ↦ hnot (Nat.mod_eq_zero_of_dvd hdvd)
          simp [hdvd]
        · simp [hslot]

end OneTick

/-! ### Runs -/

section Runs

variable {behaviour : TaskBehaviour} {task interval : ℕ} {timer next : TimerHelper}

/-- A timer in whose lists a task stands once, under its interval. As long as the timer is not
stopped its count is the number of ticks modulo the largest slot, and the task ran where the count
suits the interval. -/
structure InStep (unit : TickUnit) (task interval : ℕ) (timer : TimerHelper) : Prop where
  tickUnit : timer.tickUnit = unit
  known : task < timer.registered
  home : ∀ key, (timer.timerTasks key).count task = if key = interval then 1 else 0
  tick : timer.stopped = false → timer.tick = timer.elapsed % unit.lastSlot
  runs : timer.stopped = false →
    runsOf task timer = runsAt interval unit.lastSlot timer.elapsed

variable {unit : TickUnit}

/-- The next count, where the count starts again at `last`. -/
theorem succ_mod_eq {last : ℕ} (hlast : 0 < last) (before : ℕ) :
    (before + 1) % last = if before % last + 1 = last then 0 else before % last + 1 := by
  have hbelow := Nat.mod_lt before hlast
  rw [← Nat.mod_add_mod]
  split
  next hend => rw [hend, Nat.mod_self]
  next hend => exact Nat.mod_eq_of_lt (by omega)

/-- One round keeps it. -/
theorem InStep.onTimeout (hagain : ∀ history, (behaviour history task).again = true)
    (hslot : interval ∈ unit.timeSlot) (hgoing : timer.stopped = false)
    (hin : InStep unit task interval timer) :
    InStep unit task interval (onTimeout behaviour timer) ∧
      (onTimeout behaviour timer).elapsed = timer.elapsed + 1 := by
  set counted : TimerHelper := { timer with tick := timer.tick + 1, elapsed := timer.elapsed + 1 }
  obtain ⟨hkept, hruns⟩ := scanSlots_spec counted hagain hin.known hin.home
    timer.tickUnit.timeSlot
  set scanned := scanSlots behaviour timer.tickUnit.timeSlot counted with hscanned
  have hcount : counted.tick = timer.elapsed % unit.lastSlot + 1 :=
    congrArg (· + 1) (hin.tick hgoing)
  have hunit : scanned.tickUnit = unit := hkept.tickUnit.trans hin.tickUnit
  have hhome : ∀ key, (scanned.timerTasks key).count task = if key = interval then 1 else 0 :=
    fun key ↦ (hkept.lists hin.known key).trans (hin.home key)
  have hranAt : scanned.stopped = false →
      runsOf task scanned = runsAt interval unit.lastSlot scanned.elapsed := by
    intro hfinal
    have hbefore : runsOf task counted = runsAt interval unit.lastSlot timer.elapsed :=
      hin.runs hgoing
    rw [hruns hfinal, hkept.elapsed, hbefore, hcount, hin.tickUnit, TickUnit.count_timeSlot hslot,
      runsAt_succ]
  have hpositive : 0 < unit.lastSlot :=
    (TickUnit.slot_pos hslot).trans_le (TickUnit.slot_le_lastSlot hslot)
  have htick : (restartCount scanned).tick = (timer.elapsed + 1) % unit.lastSlot := by
    rw [succ_mod_eq hpositive, ← hcount, ← hkept.tick, ← hunit]
    rfl
  have helapsed : scanned.elapsed = timer.elapsed + 1 := hkept.elapsed
  refine ⟨⟨hunit, hkept.known hin.known, hhome, fun _ ↦ ?_, hranAt⟩, helapsed⟩
  exact htick.trans (congrArg (· % unit.lastSlot) helapsed.symm)

/-- Every step keeps it, and a timeout is a tick. -/
theorem inStep_step (hagain : ∀ history, (behaviour history task).again = true)
    (hslot : interval ∈ unit.timeSlot) (hin : InStep unit task interval timer) {action : Action}
    (hstep : step behaviour timer action = some next) :
    InStep unit task interval next ∧
      next.elapsed = timer.elapsed + [action].count .timeout := by
  cases action with
  | timeout =>
    simp only [step] at hstep
    split at hstep
    next => cases hstep
    next hgoing =>
      cases hstep
      exact hin.onTimeout hagain hslot (Bool.not_eq_true _ ▸ hgoing)
  | addTimerTask added =>
    cases hstep
    have hkept := kept_addTimerTask task timer added
    exact ⟨⟨hin.tickUnit, hkept.known hin.known,
      fun key ↦ (hkept.lists hin.known key).trans (hin.home key), hin.tick, hin.runs⟩, rfl⟩
  | stop =>
    cases hstep
    exact ⟨⟨hin.tickUnit, hin.known, hin.home, (fun hgoing ↦ by cases hgoing),
      (fun hgoing ↦ by cases hgoing)⟩, rfl⟩

/-- Every run keeps it, and its timeouts are its ticks. -/
theorem inStep_run (hagain : ∀ history, (behaviour history task).again = true)
    (hslot : interval ∈ unit.timeSlot) {actions : List Action} {final : TimerHelper}
    (hin : InStep unit task interval timer)
    (hrun : runFrom (step behaviour) timer actions = some final) :
    InStep unit task interval final ∧
      final.elapsed = timer.elapsed + actions.count .timeout := by
  induction actions generalizing timer with
  | nil =>
    cases hrun
    exact ⟨hin, rfl⟩
  | cons action actions ih =>
    rw [runFrom_cons, Option.bind_eq_some_iff] at hrun
    obtain ⟨next, hnext, hrest⟩ := hrun
    obtain ⟨hinNext, helapsed⟩ := inStep_step hagain hslot hin hnext
    obtain ⟨hinFinal, hfinal⟩ := ih hinNext hrest
    refine ⟨hinFinal, ?_⟩
    rw [hfinal, helapsed, Nat.add_assoc, ← List.count_append, List.singleton_append]

/-- The lists hold no task that was not registered. -/
def OnlyRegistered (timer : TimerHelper) : Prop :=
  ∀ key task, timer.registered ≤ task → (timer.timerTasks key).count task = 0

theorem count_addTimerTask (timer : TimerHelper) (added : ℤ) (key task : ℕ) :
    ((timer.addTimerTask added).timerTasks key).count task =
      (timer.timerTasks key).count task +
        if key = keyOf added ∧ timer.registered = task then 1 else 0 :=
  count_pushBack timer (keyOf added) timer.registered task key

theorem OnlyRegistered.addTimerTask (honly : timer.OnlyRegistered) (added : ℤ) :
    (timer.addTimerTask added).OnlyRegistered := by
  intro key task hnew
  have hold : timer.registered + 1 ≤ task := hnew
  have hother : timer.registered ≠ task := by omega
  rw [count_addTimerTask, honly key task (by omega)]
  simp [hother]

/-- Each of the tasks registered one after the other stands once in the list of its interval, and in
no other list. -/
theorem home_foldl_addTimerTask {intervals : List ℤ} {index : ℕ} {added : ℤ}
    (honly : timer.OnlyRegistered) (hadded : intervals[index]? = some added) (key : ℕ) :
    timer.registered + index < (intervals.foldl addTimerTask timer).registered ∧
      ((intervals.foldl addTimerTask timer).timerTasks key).count (timer.registered + index) =
        if key = keyOf added then 1 else 0 := by
  induction intervals generalizing timer index with
  | nil => cases hadded
  | cons first intervals ih =>
    cases index with
    | zero =>
      cases Option.some.inj hadded
      have hkept := kept_foldl_addTimerTask timer.registered intervals (timer.addTimerTask added)
      have hknown : timer.registered < (timer.addTimerTask added).registered := Nat.lt_succ_self _
      refine ⟨hkept.known hknown, (hkept.lists hknown key).trans ?_⟩
      rw [count_addTimerTask, honly key _ le_rfl]
      simp
    | succ index =>
      have hshift : timer.registered + (index + 1) =
          (timer.addTimerTask first).registered + index := by
        rw [Nat.add_comm index, ← Nat.add_assoc, addTimerTask]
      rw [hshift]
      exact ih (honly.addTimerTask first) hadded

theorem keyOf_slot (hslot : interval ∈ unit.timeSlot) : keyOf (interval : ℤ) = interval := by
  have hsmall := (TickUnit.slot_le_lastSlot hslot).trans_lt unit.lastSlot_lt
  rw [keyOf]
  omega

/-- A task registered before the start is in step. -/
theorem inStep_started {intervals : List ℤ} (hinterval : intervals[task]? = some (interval : ℤ))
    (hslot : interval ∈ unit.timeSlot) : InStep unit task interval (started unit intervals) := by
  have hempty : (new unit).OnlyRegistered := fun _ _ _ ↦ rfl
  have hhome := fun key ↦ home_foldl_addTimerTask hempty hinterval key
  have hkept := kept_foldl_addTimerTask task intervals (new unit)
  have hruns : (started unit intervals).runs = [] := foldl_addTimerTask_runs intervals (new unit)
  rw [keyOf_slot hslot, show (new unit).registered + task = task from Nat.zero_add task] at hhome
  refine ⟨hkept.tickUnit, (hhome 0).1, fun key ↦ (hhome key).2, fun _ ↦ ?_, fun _ ↦ ?_⟩
  · rw [started, hkept.tick, hkept.elapsed]
    exact (Nat.zero_mod _).symm
  · rw [runsOf, hruns, started, hkept.elapsed]
    rfl

/-- A task registered before the start under a slot of the unit's table, that always returns true,
runs at the multiples of its interval and at no other tick of a timer that is not stopped, exactly
if the slot divides the largest slot of the table, or as long as the first multiple behind the
largest slot is not reached. -/
theorem runsOf_eq_multiples_iff (behaviour : TaskBehaviour) (unit : TickUnit) {intervals : List ℤ}
    {task interval : ℕ} {actions : List Action} {final : TimerHelper}
    (hinterval : intervals[task]? = some (interval : ℤ)) (hslot : interval ∈ unit.timeSlot)
    (hagain : ∀ history, (behaviour history task).again = true)
    (hrun : runFrom (step behaviour) (started unit intervals) actions = some final)
    (hgoing : final.stopped = false) :
    runsOf task final = multiples interval (actions.count .timeout) ↔
      interval ∣ unit.lastSlot ∨
        actions.count .timeout < (unit.lastSlot / interval + 1) * interval := by
  obtain ⟨hin, helapsed⟩ := inStep_run hagain hslot (inStep_started hinterval hslot) hrun
  have hstart : (started unit intervals).elapsed = 0 :=
    (kept_foldl_addTimerTask task intervals (new unit)).elapsed
  rw [hstart, Nat.zero_add] at helapsed
  rw [hin.runs hgoing, helapsed]
  exact runsAt_eq_multiples_iff (TickUnit.slot_pos hslot) (TickUnit.slot_le_lastSlot hslot)

/-- A behaviour of tasks that return true and do nothing else. -/
def alwaysAgain : TaskBehaviour := fun _ _ ↦ ⟨true, [], false⟩

/-- Two tasks of the ten second unit, for eleven minutes. -/
theorem runsOf_eq_multiples_iff_eachMinute :
    ∃ final, runFrom (step alwaysAgain) (started .tenSecond [1, 6]) (List.replicate 66 .timeout) =
        some final ∧
      (runsOf 1 final = multiples 6 66 ↔
        6 ∣ TickUnit.tenSecond.lastSlot ∨ 66 < (TickUnit.tenSecond.lastSlot / 6 + 1) * 6) := by
  have hgoing : (runFrom (step alwaysAgain) (started .tenSecond [1, 6])
      (List.replicate 66 .timeout)).map (·.stopped) = some false := by decide +kernel
  obtain ⟨final, hrun, hstopped⟩ := Option.map_eq_some_iff.mp hgoing
  exact ⟨final, hrun, runsOf_eq_multiples_iff alwaysAgain .tenSecond rfl (by decide)
    (fun _ ↦ rfl) hrun hstopped⟩

/-- Ninety seconds are nine ticks of ten seconds: after the largest slot the task waits for nine
ticks of the new count, so that the run at the sixty-third tick is missing. -/
theorem runsOf_ninetySeconds :
    (runFrom (step alwaysAgain) (started .tenSecond [9]) (List.replicate 63 .timeout)).map
        (fun final ↦ (final.stopped, runsOf 0 final)) =
      some (false, [9, 18, 27, 36, 45, 54]) ∧
    multiples 9 63 = [9, 18, 27, 36, 45, 54, 63] := by
  decide +kernel

end Runs

end TimerHelper

end TszyUlt.Zbf
