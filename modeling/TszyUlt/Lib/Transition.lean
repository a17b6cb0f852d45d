import Mathlib.Data.Nat.Notation
import Mathlib.Data.Option.Basic

/-!
# Runs of a transition function

A system is a partial step function `step : S → A → Option S`: what an action makes of a state, or
`none` where the action cannot happen there. Threads that interleave are actions of one system, so a
list of actions is a schedule and `runFrom` executes it.

A property of all runs is proved by an invariant that every step keeps (`runFrom_invariant`). Where
only the runs count whose steps all meet a condition (`Along`), the steps that meet it are the ones
that have to keep the invariant (`runFrom_invariant_along`). `runFrom_along_or` is for a condition
that decides how a run ends, and `forall_prefix_iff_along` for one that decides whether a property
holds all the way. `exists_runFrom_stuck` bounds the length of all runs by a measure that every step
makes smaller. `runFrom_append` cuts a run in two, and `map_runFrom_eq_along` compares two runs
whose steps are paired.

Where a state keeps a log, `EachAfter` says of every event of the log that its history permits it.
-/

set_option autoImplicit false
set_option relaxedAutoImplicit false

namespace TszyUlt.Lib

variable {S A : Type*} (step : S → A → Option S)

/-- The state after a schedule, or `none` when an action of it cannot happen. -/
def runFrom : S → List A → Option S
  | state, [] => some state
  | state, action :: actions => (step state action).bind fun next ↦ runFrom next actions

/-- Every step of a schedule is taken in a state that meets the condition on it. -/
def Along (condition : S → A → Prop) : S → List A → Prop
  | _, [] => True
  | state, action :: actions =>
    condition state action ∧ ∀ next, step state action = some next → Along condition next actions

variable {step}

instance decidableAlong {condition : S → A → Prop}
    [∀ state action, Decidable (condition state action)] :
    ∀ state actions, Decidable (Along step condition state actions)
  | _, [] => isTrue trivial
  | state, action :: actions =>
    match hnext : step state action with
    | none =>
      decidable_of_iff (condition state action)
        ⟨fun h ↦ ⟨h, fun _ heq ↦ by rw [hnext] at heq; cases heq⟩, And.left⟩
    | some next =>
      haveI : Decidable (Along step condition next actions) := decidableAlong next actions
      decidable_of_iff (condition state action ∧ Along step condition next actions)
        ⟨fun h ↦ ⟨h.1, fun _ heq ↦ Option.some.inj (hnext.symm.trans heq) ▸ h.2⟩,
          fun h ↦ ⟨h.1, h.2 next hnext⟩⟩

@[simp] theorem runFrom_nil (state : S) : runFrom step state [] = some state := rfl

theorem runFrom_cons (state : S) (action : A) (actions : List A) :
    runFrom step state (action :: actions) =
      (step state action).bind fun next ↦ runFrom step next actions := rfl

theorem runFrom_cons_of_step {state next : S} {action : A} (hstep : step state action = some next)
    (actions : List A) : runFrom step state (action :: actions) = runFrom step next actions := by
  rw [runFrom_cons, hstep, Option.bind_some]

theorem runFrom_append (state : S) (first second : List A) :
    runFrom step state (first ++ second) =
      (runFrom step state first).bind fun middle ↦ runFrom step middle second := by
  induction first generalizing state with
  | nil => rfl
  | cons action first ih =>
    rw [List.cons_append, runFrom_cons, runFrom_cons, Option.bind_assoc]
    exact congrArg (Option.bind (step state action)) (funext ih)

/-- Assumes: the invariant holds at the start, every step of the run meets the condition, and steps
that meet it keep the invariant. The invariant holds in the state reached. -/
theorem runFrom_invariant_along {condition : S → A → Prop} (invariant : S → Prop)
    (hstep : ∀ state action next, invariant state → condition state action →
      step state action = some next → invariant next)
    {start final : S} {actions : List A} (hstart : invariant start)
    (halong : Along step condition start actions) (hrun : runFrom step start actions = some final) :
    invariant final := by
  induction actions generalizing start with
  | nil =>
    cases hrun
    exact hstart
  | cons action actions ih =>
    rw [runFrom_cons, Option.bind_eq_some_iff] at hrun
    obtain ⟨next, hnext, hrest⟩ := hrun
    exact ih (hstep start action next hstart halong.1 hnext) (halong.2 next hnext) hrest

theorem along_cons_of_step {condition : S → A → Prop} {state next : S} {action : A}
    (hstep : step state action = some next) {actions : List A} :
    Along step condition state (action :: actions) ↔
      condition state action ∧ Along step condition next actions := by
  refine and_congr_right fun _ ↦ ⟨fun hall ↦ hall next hstep, fun hall other hother ↦ ?_⟩
  cases hstep.symm.trans hother
  exact hall

/-- A condition that every action of a schedule meets in every state is met along its run. -/
theorem along_of_forall {condition : S → A → Prop} {actions : List A}
    (hall : ∀ state, ∀ action ∈ actions, condition state action) (start : S) :
    Along step condition start actions := by
  induction actions generalizing start with
  | nil => trivial
  | cons action actions ih =>
    refine ⟨hall start action List.mem_cons_self, fun next _ ↦ ih ?_ next⟩
    exact fun state other hother ↦ hall state other (List.mem_cons_of_mem _ hother)

/-- Assumes: the invariant holds at the start and every step with an action of the schedule keeps
it. A condition that the invariant implies is met along the run. -/
theorem along_of_invariant {condition : S → A → Prop} (invariant : S → Prop) {actions : List A}
    (hstep : ∀ state, ∀ action ∈ actions, ∀ next, invariant state →
      step state action = some next → invariant next)
    (hmeets : ∀ state, ∀ action ∈ actions, invariant state → condition state action) {start : S}
    (hstart : invariant start) : Along step condition start actions := by
  induction actions generalizing start with
  | nil => trivial
  | cons action actions ih =>
    refine ⟨hmeets start action List.mem_cons_self hstart, fun next hnext ↦ ?_⟩
    exact ih (fun state other hother ↦ hstep state other (List.mem_cons_of_mem _ hother))
      (fun state other hother ↦ hmeets state other (List.mem_cons_of_mem _ hother))
      (hstep start action List.mem_cons_self next hstart hnext)

/-- Two conditions that are met along a run are met together. -/
theorem Along.and {first second : S → A → Prop} {start : S} {actions : List A}
    (hfirst : Along step first start actions) (hsecond : Along step second start actions) :
    Along step (fun state action ↦ first state action ∧ second state action) start actions := by
  induction actions generalizing start with
  | nil => trivial
  | cons action actions ih =>
    exact ⟨⟨hfirst.1, hsecond.1⟩, fun next hnext ↦ ih (hfirst.2 next hnext) (hsecond.2 next hnext)⟩

/-- Assumes: the invariant holds at the start and every step keeps it. It holds in every state a run
reaches. -/
theorem runFrom_invariant (invariant : S → Prop)
    (hstep : ∀ state action next, invariant state → step state action = some next → invariant next)
    {start final : S} {actions : List A} (hstart : invariant start)
    (hrun : runFrom step start actions = some final) : invariant final := by
  have hfree : Along step (fun _ _ ↦ True) start actions :=
    along_of_forall (fun _ _ _ ↦ trivial) start
  exact runFrom_invariant_along invariant
    (fun state action next hstate _ hnext ↦ hstep state action next hstate hnext) hstart hfree hrun

/-- Assumes: a step from a good state meets the condition and leads to a good state, or does not and
leads to a broken one; and what is broken stays so. A run from a good state meets the condition and
ends good, or does not and ends broken. -/
theorem runFrom_along_or {condition : S → A → Prop} (good broken : S → Prop)
    (hgood : ∀ state action next, good state → step state action = some next →
      condition state action ∧ good next ∨ ¬condition state action ∧ broken next)
    (hbroken : ∀ state action next, broken state → step state action = some next → broken next)
    {start final : S} {actions : List A} (hstart : good start)
    (hrun : runFrom step start actions = some final) :
    Along step condition start actions ∧ good final ∨
      ¬Along step condition start actions ∧ broken final := by
  induction actions generalizing start with
  | nil =>
    cases hrun
    exact Or.inl ⟨trivial, hstart⟩
  | cons action actions ih =>
    rw [runFrom_cons, Option.bind_eq_some_iff] at hrun
    obtain ⟨next, hnext, hrest⟩ := hrun
    rw [along_cons_of_step hnext]
    rcases hgood start action next hstart hnext with ⟨hmeets, hgoodNext⟩ | ⟨hfails, hbreaks⟩
    · rcases ih hgoodNext hrest with ⟨hall, hfinal⟩ | ⟨hnot, hfinal⟩
      · exact Or.inl ⟨⟨hmeets, hall⟩, hfinal⟩
      · exact Or.inr ⟨fun hall ↦ hnot hall.2, hfinal⟩
    · exact Or.inr ⟨fun hall ↦ hfails hall.1, runFrom_invariant broken hbroken hbreaks hrest⟩

/-- Assumes: the property holds at the start, a step that meets the condition keeps it, and where an
action does not meet the condition its step is taken and breaks it. The property holds after every
beginning of a schedule if and only if every step of the schedule meets the condition. -/
theorem forall_prefix_iff_along {condition : S → A → Prop} (property : S → Prop) {actions : List A}
    (hkeep : ∀ state, ∀ action ∈ actions, ∀ next, property state → condition state action →
      step state action = some next → property next)
    (hbreak : ∀ state, ∀ action ∈ actions, property state → ¬condition state action →
      ∃ next, step state action = some next ∧ ¬property next)
    {start : S} (hstart : property start) :
    (∀ first, first <+: actions → ∀ final, runFrom step start first = some final → property final) ↔
      Along step condition start actions := by
  induction actions generalizing start with
  | nil =>
    refine iff_of_true (fun first hfirst final hrun ↦ ?_) trivial
    rw [List.prefix_nil.mp hfirst] at hrun
    cases hrun
    exact hstart
  | cons action actions ih =>
    have hrest : ∀ next, property next → _ := fun next hnext ↦
      ih (fun state other hother ↦ hkeep state other (List.mem_cons_of_mem _ hother))
        (fun state other hother ↦ hbreak state other (List.mem_cons_of_mem _ hother)) hnext
    constructor
    · intro hall
      have hmeets : condition start action := by
        by_contra hfails
        obtain ⟨next, hnext, hbroken⟩ := hbreak start action List.mem_cons_self hstart hfails
        exact hbroken (hall [action] (List.prefix_append [action] actions) next
          (runFrom_cons_of_step hnext []))
      refine ⟨hmeets, fun next hnext ↦ ?_⟩
      refine (hrest next (hkeep start action List.mem_cons_self next hstart hmeets hnext)).mp ?_
      intro first hfirst final hrun
      exact hall (action :: first) (List.cons_prefix_cons.mpr ⟨rfl, hfirst⟩) final
        ((runFrom_cons_of_step hnext first).trans hrun)
    · rintro ⟨hmeets, hlater⟩ first hfirst final hrun
      cases first with
      | nil =>
        cases hrun
        exact hstart
      | cons other first =>
        obtain ⟨rfl, hinitial⟩ := List.cons_prefix_cons.mp hfirst
        rw [runFrom_cons, Option.bind_eq_some_iff] at hrun
        obtain ⟨next, hnext, hrun⟩ := hrun
        have hproperty := hkeep start other List.mem_cons_self next hstart hmeets hnext
        exact (hrest next hproperty).mpr (hlater next hnext) first hinitial final hrun

/-- Assumes: paired steps that meet the condition lead from states of equal view to states of equal
view. Two runs whose steps are paired so end with equal views, or both do not end. -/
theorem map_runFrom_eq_along {V : Type*} (view : S → V) {condition : S → A × A → Prop}
    (hstep : ∀ first second pair, view first = view second → condition first pair →
      (step first pair.1).map view = (step second pair.2).map view)
    {first second : S} {pairs : List (A × A)} (hview : view first = view second)
    (halong : Along (fun state pair ↦ step state pair.1) condition first pairs) :
    (runFrom step first (pairs.map Prod.fst)).map view =
      (runFrom step second (pairs.map Prod.snd)).map view := by
  induction pairs generalizing first second with
  | nil => exact congrArg some hview
  | cons pair pairs ih =>
    have hnext := hstep first second pair hview halong.1
    rw [List.map_cons, List.map_cons, runFrom_cons, runFrom_cons]
    cases hfirst : step first pair.1 with
    | none =>
      rw [hfirst, Option.map_none, eq_comm, Option.map_eq_none_iff] at hnext
      rw [hnext, Option.bind_none, Option.bind_none]
    | some firstNext =>
      rw [hfirst, Option.map_some, eq_comm, Option.map_eq_some_iff] at hnext
      obtain ⟨secondNext, hsecond, hviews⟩ := hnext
      rw [hsecond, Option.bind_some, Option.bind_some]
      exact ih hviews.symm (halong.2 firstNext hfirst)

/-! ### Runs that end -/

/-- The first `k` actions of a sequence. -/
def firstActions (actions : ℕ → A) (k : ℕ) : List A := (List.range k).map actions

theorem firstActions_succ (actions : ℕ → A) (k : ℕ) :
    firstActions actions (k + 1) = actions 0 :: firstActions (fun i ↦ actions (i + 1)) k := by
  rw [firstActions, List.range_succ_eq_map, List.map_cons, List.map_map]
  rfl

/-- Assumes: every step keeps the invariant and makes the measure smaller. Whatever the actions are,
there comes one that cannot happen, after no more steps than the measure at the start. -/
theorem exists_runFrom_stuck (invariant : S → Prop) (measure : S → ℕ)
    (hstep : ∀ state action next, invariant state → step state action = some next →
      invariant next ∧ measure next < measure state)
    {start : S} (hstart : invariant start) (actions : ℕ → A) :
    ∃ k ≤ measure start, ∃ final, runFrom step start (firstActions actions k) = some final ∧
      invariant final ∧ step final (actions k) = none := by
  induction hmeasure : measure start using Nat.strongRecOn generalizing start actions with
  | ind bound ih =>
    cases hnext : step start (actions 0) with
    | none => exact ⟨0, Nat.zero_le _, start, rfl, hstart, hnext⟩
    | some next =>
      obtain ⟨hinvariant, hless⟩ := hstep start (actions 0) next hstart hnext
      obtain ⟨k, hk, final, hrun, hfinal, hstuck⟩ :=
        ih (measure next) (hmeasure ▸ hless) hinvariant (fun i ↦ actions (i + 1)) rfl
      refine ⟨k + 1, by omega, final, ?_, hfinal, hstuck⟩
      rw [firstActions_succ, runFrom_cons_of_step hnext]
      exact hrun

/-! ### Logs -/

/-- Every event of the log is permitted after the events before it. -/
def EachAfter {E : Type*} (permitted : List E → E → Prop) (log : List E) : Prop :=
  ∀ before event after, log = before ++ event :: after → permitted before event

section Logs

variable {E : Type*} {permitted : List E → E → Prop}

theorem eachAfter_nil : EachAfter permitted [] :=
  fun before _ _ heq ↦ absurd heq.symm (List.append_ne_nil_of_right_ne_nil before nofun)

theorem EachAfter.concat {log : List E} {event : E} (hlog : EachAfter permitted log)
    (hevent : permitted log event) : EachAfter permitted (log ++ [event]) := by
  intro before other after heq
  rcases List.eq_nil_or_concat after with rfl | ⟨rest, last, rfl⟩
  · obtain ⟨rfl, hlast⟩ := List.append_inj' heq rfl
    cases hlast
    exact hevent
  · rw [List.concat_eq_append, ← List.cons_append, ← List.append_assoc] at heq
    obtain ⟨rfl, -⟩ := List.append_inj' heq rfl
    exact hlog before other rest rfl

end Logs

end TszyUlt.Lib
