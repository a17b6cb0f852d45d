import Mathlib.Data.List.Nodup
import Mathlib.Logic.Function.Basic
import TszyUlt.Lib.Transition

/-!
# Concurrent objects and linearizability

A `ConcurrentObject` is shared data that calls work on under a lock. A call enters at a place and
goes through locked sections, `move`, each of which leads it to another place or decides its result.
In an `Execution` any number of calls, each with its own tag, take their sections in any order. It
keeps the `history` of the invocations and the returns, and the `log` of the calls in the order in
which they were decided.

A sequential specification is a relation `spec state call result next`, and `Replays` runs it over a
log. What every step of it conserves, a log conserves (`Replays.conserves`). `Linearization` says
that a log explains a history: the specification allows it, every call that returned is in it, once
and with the result it returned, and a call that returned before another was invoked precedes it.

`Implements` is the obligation of an object, about one section at a time: a section that does not
decide the call leaves the view of the data as it is, and one that decides it makes a step of the
specification. `Implements.explained` derives that every run has a linearization, its log, and
`Implements.replays_later` that the calls decided during a part of a run are a replay from the state
in which it began.
-/

set_option autoImplicit false
set_option relaxedAutoImplicit false

namespace TszyUlt.Lib

variable {κ S A C P R I : Type*}

/-! ### Sequential specifications -/

/-- A call with its tag and the result it was decided with. -/
structure LoggedCall (κ C R : Type*) where
  tag : κ
  call : C
  result : R
  deriving DecidableEq, Repr

/-- A log that a specification allows between two states. -/
inductive Replays (spec : A → C → R → A → Prop) : A → List (LoggedCall κ C R) → A → Prop
  | nil (state : A) : Replays spec state [] state
  | cons {state middle final : A} {entry : LoggedCall κ C R} {entries : List (LoggedCall κ C R)}
      (hentry : spec state entry.call entry.result middle)
      (hentries : Replays spec middle entries final) : Replays spec state (entry :: entries) final

variable {spec : A → C → R → A → Prop} {state middle final : A}
  {entries first second : List (LoggedCall κ C R)}

theorem Replays.append (hfirst : Replays spec state first middle)
    (hsecond : Replays spec middle second final) : Replays spec state (first ++ second) final := by
  induction hfirst with
  | nil => exact hsecond
  | cons hentry _ ih => exact .cons hentry (ih hsecond)

/-- A log that is allowed can be cut anywhere. -/
theorem Replays.split (hreplays : Replays spec state (first ++ second) final) :
    ∃ middle, Replays spec state first middle ∧ Replays spec middle second final := by
  induction first generalizing state with
  | nil => exact ⟨state, .nil state, hreplays⟩
  | cons entry first ih =>
    cases hreplays with
    | cons hentry hentries =>
      obtain ⟨middle, hfirst, hsecond⟩ := ih hentries
      exact ⟨middle, .cons hentry hfirst, hsecond⟩

/-- Assumes: every step of the specification keeps the invariant. It holds after the log. -/
theorem Replays.invariant (invariant : A → Prop)
    (hstep : ∀ state call result next, invariant state → spec state call result next →
      invariant next)
    (hreplays : Replays spec state entries final) (hstate : invariant state) : invariant final := by
  induction hreplays with
  | nil => exact hstate
  | cons hentry _ ih => exact ih (hstep _ _ _ _ hstate hentry)

/-- Assumes: an invariant that every step of the specification keeps, and with which every step has
the property. Every entry of the log has it. -/
theorem Replays.forall_mem (invariant : A → Prop) (property : C → R → Prop)
    (hstep : ∀ state call result next, invariant state → spec state call result next →
      invariant next ∧ property call result)
    (hreplays : Replays spec state entries final) (hstate : invariant state) :
    ∀ entry ∈ entries, property entry.call entry.result := by
  induction hreplays with
  | nil => exact List.forall_mem_nil _
  | cons hentry _ ih =>
    obtain ⟨hnext, hproperty⟩ := hstep _ _ _ _ hstate hentry
    exact List.forall_mem_cons.mpr ⟨hproperty, ih hnext⟩

/-- Assumes: every step of the specification gives away what it removes and keeps the rest, together
with what it adds. What was held and added during the log is what was removed and is held. -/
theorem Replays.conserves {β : Type*} (held : A → List β) (added removed : C → R → List β)
    (hstep : ∀ state call result next, spec state call result next →
      (held state ++ added call result).Perm (removed call result ++ held next))
    (hreplays : Replays spec state entries final) :
    (held state ++ entries.flatMap fun entry ↦ added entry.call entry.result).Perm
      ((entries.flatMap fun entry ↦ removed entry.call entry.result) ++ held final) := by
  induction hreplays with
  | nil state =>
    rw [List.flatMap_nil, List.flatMap_nil, List.append_nil, List.nil_append]
  | cons hentry _ ih =>
    rw [List.flatMap_cons, List.flatMap_cons, ← List.append_assoc]
    refine ((hstep _ _ _ _ hentry).append_right _).trans ?_
    rw [List.append_assoc, List.append_assoc]
    exact ih.append_left _

/-! ### Histories -/

/-- What a client of the object sees: a call is invoked, and it returns. -/
inductive HistoryEvent (κ C R : Type*)
  | invoked (tag : κ) (call : C)
  | returned (tag : κ) (result : R)
  deriving DecidableEq, Repr

/-- The log explains the history. -/
structure Linearization (spec : A → C → R → A → Prop) (init : A)
    (history : List (HistoryEvent κ C R)) (log : List (LoggedCall κ C R)) (final : A) : Prop where
  /-- The specification allows the calls in this order, with these results. -/
  legal : Replays spec init log final
  /-- No call is in the log twice. -/
  once : (log.map LoggedCall.tag).Nodup
  /-- Every call of the log was invoked. -/
  invoked : ∀ entry ∈ log, .invoked entry.tag entry.call ∈ history
  /-- A call that returned is in the log, with the result it returned. -/
  answered : ∀ tag result, .returned tag result ∈ history → ∃ call, ⟨tag, call, result⟩ ∈ log
  /-- Wherever the history is cut, the log can be cut so that the calls that had returned are before
  the cut, and those not yet invoked are not. -/
  ordered : ∀ past future, history = past ++ future → ∃ early late, log = early ++ late ∧
    (∀ tag result, .returned tag result ∈ past → tag ∈ early.map LoggedCall.tag) ∧
      ∀ tag call, .invoked tag call ∈ future → tag ∉ early.map LoggedCall.tag

section Linearization

variable {init : A} {history : List (HistoryEvent κ C R)} {log : List (LoggedCall κ C R)}

theorem linearization_nil (init : A) :
    Linearization spec init ([] : List (HistoryEvent κ C R)) [] init where
  legal := .nil init
  once := List.nodup_nil
  invoked := List.forall_mem_nil _
  answered := nofun
  ordered := by
    intro past future hcut
    obtain ⟨rfl, rfl⟩ := List.append_eq_nil_iff.mp hcut.symm
    exact ⟨[], [], rfl, nofun, nofun⟩

/-- Assumes: an event that is the invocation of a call that was not decided, or the return of one
that was, with its result. It may follow. -/
theorem Linearization.event (hlin : Linearization spec init history log final)
    {event : HistoryEvent κ C R}
    (hinvoked : ∀ tag call, event = .invoked tag call → tag ∉ log.map LoggedCall.tag)
    (hreturned : ∀ tag result, event = .returned tag result →
      ∃ call, ⟨tag, call, result⟩ ∈ log) :
    Linearization spec init (history ++ [event]) log final := by
  have hanswered : ∀ tag result, .returned tag result ∈ history ++ [event] →
      ∃ call, ⟨tag, call, result⟩ ∈ log := by
    intro tag result hmem
    rcases List.mem_append.mp hmem with hbefore | hlast
    · exact hlin.answered tag result hbefore
    · exact hreturned tag result (List.mem_singleton.mp hlast).symm
  refine { hlin with
    invoked := fun entry hentry ↦ List.mem_append_left _ (hlin.invoked entry hentry)
    answered := hanswered
    ordered := ?_ }
  intro past future hcut
  rcases List.eq_nil_or_concat future with rfl | ⟨before, last, rfl⟩
  · -- the cut is at the end: the whole log is before it
    refine ⟨log, [], (List.append_nil log).symm, fun tag result hmem ↦ ?_, nofun⟩
    rw [List.append_nil] at hcut
    obtain ⟨call, hlogged⟩ := hanswered tag result (hcut ▸ hmem)
    exact List.mem_map.mpr ⟨_, hlogged, rfl⟩
  · rw [List.concat_eq_append, ← List.append_assoc] at hcut
    obtain ⟨hhistory, hlast⟩ := List.append_inj' hcut rfl
    cases hlast
    obtain ⟨early, late, rfl, hearly, hlate⟩ := hlin.ordered past before hhistory
    refine ⟨early, late, rfl, hearly, fun tag call hmem hlogged ↦ ?_⟩
    rw [List.concat_eq_append] at hmem
    rcases List.mem_append.mp hmem with hbefore | hevent
    · exact hlate tag call hbefore hlogged
    · refine hinvoked tag call (List.mem_singleton.mp hevent).symm ?_
      rw [List.map_append]
      exact List.mem_append_left _ hlogged

/-- Assumes: a call that was invoked and is not in the log, and a result that the specification
allows. It may be decided. -/
theorem Linearization.decide {next : A} (hlin : Linearization spec init history log final)
    {entry : LoggedCall κ C R} (hinvoked : .invoked entry.tag entry.call ∈ history)
    (hfresh : entry.tag ∉ log.map LoggedCall.tag)
    (hentry : spec final entry.call entry.result next) :
    Linearization spec init history (log ++ [entry]) next where
  legal := hlin.legal.append (.cons hentry (.nil next))
  once := by
    rw [List.map_append]
    exact List.nodup_append.mpr ⟨hlin.once, List.nodup_singleton _,
      fun tag htag other hother heq ↦ hfresh (List.mem_singleton.mp hother ▸ heq ▸ htag)⟩
  invoked := by
    intro other hother
    rcases List.mem_append.mp hother with hbefore | hlast
    · exact hlin.invoked other hbefore
    · rw [List.mem_singleton.mp hlast]
      exact hinvoked
  answered := by
    intro tag result hmem
    obtain ⟨call, hlogged⟩ := hlin.answered tag result hmem
    exact ⟨call, List.mem_append_left _ hlogged⟩
  ordered := by
    intro past future hcut
    obtain ⟨early, late, rfl, hearly, hlate⟩ := hlin.ordered past future hcut
    exact ⟨early, late ++ [entry], List.append_assoc _ _ _, hearly, hlate⟩

end Linearization

/-! ### Objects and their executions -/

/-- How a locked section of a call ends: the call goes on at a place, or its result is decided. -/
inductive SectionEnd (P R : Type*)
  | goesOn (place : P)
  | returns (result : R)
  deriving DecidableEq, Repr

/-- Shared data and the calls on it. `move` is one locked section of a call at a place; the input is
what the section depends on besides the data. -/
structure ConcurrentObject (S C P R I : Type*) where
  enter : C → P
  move : S → C → P → I → Option (S × SectionEnd P R)

/-- How far a call is. -/
inductive CallState (C P R : Type*)
  | unused
  | running (call : C) (place : P)
  | decided (call : C) (result : R)
  | returned (call : C) (result : R)
  deriving DecidableEq, Repr

/-- The shared data, the calls by their tags, and what has happened so far. -/
structure Execution (κ S C P R : Type*) where
  shared : S
  calls : κ → CallState C P R
  history : List (HistoryEvent κ C R)
  log : List (LoggedCall κ C R)

/-- A step of an execution: a call is invoked, takes a locked section, or returns. -/
inductive CallAction (κ C I : Type*)
  | invoke (tag : κ) (call : C)
  | advance (tag : κ) (input : I)
  | leave (tag : κ)
  deriving DecidableEq, Repr

/-- Before the first call. -/
def Execution.start (init : S) : Execution κ S C P R where
  shared := init
  calls := fun _ ↦ .unused
  history := []
  log := []

/-- The data of an object, seen through `view`, follows a specification: a section that does not
decide the call leaves the view as it is, and one that does makes a step of the specification. -/
structure Implements (object : ConcurrentObject S C P R I) (view : S → A)
    (spec : A → C → R → A → Prop) : Prop where
  goesOn : ∀ {shared shared' : S} {call : C} {place place' : P} {input : I},
    object.move shared call place input = some (shared', .goesOn place') →
      view shared' = view shared
  returns : ∀ {shared shared' : S} {call : C} {place : P} {input : I} {result : R},
    object.move shared call place input = some (shared', .returns result) →
      spec (view shared) call result (view shared')

/-- What the history and the log have of a call, by how far it is. -/
def CallState.Recorded (history : List (HistoryEvent κ C R)) (log : List (LoggedCall κ C R))
    (tag : κ) : CallState C P R → Prop
  | .unused => tag ∉ log.map LoggedCall.tag
  | .running call _ => .invoked tag call ∈ history ∧ tag ∉ log.map LoggedCall.tag
  | .decided call result => ⟨tag, call, result⟩ ∈ log
  | .returned call result => ⟨tag, call, result⟩ ∈ log

/-- Assumes: nothing is removed from the history and the log, and no call of this tag is added to
the log. What they have of the call stays true. -/
theorem CallState.Recorded.mono {history history' : List (HistoryEvent κ C R)}
    {log log' : List (LoggedCall κ C R)} {tag : κ} {state : CallState C P R}
    (hrecorded : state.Recorded history log tag) (hhistory : history ⊆ history')
    (hlog : log ⊆ log')
    (htag : tag ∈ log'.map LoggedCall.tag → tag ∈ log.map LoggedCall.tag) :
    state.Recorded history' log' tag := by
  cases state with
  | unused => exact fun hmem ↦ hrecorded (htag hmem)
  | running call place => exact ⟨hhistory hrecorded.1, fun hmem ↦ hrecorded.2 (htag hmem)⟩
  | decided call result => exact hlog hrecorded
  | returned call result => exact hlog hrecorded

/-- The log of the execution explains its history, and every call is recorded in them. -/
structure Execution.Explained (view : S → A) (spec : A → C → R → A → Prop) (init : A)
    (exec : Execution κ S C P R) : Prop where
  linearization : Linearization spec init exec.history exec.log (view exec.shared)
  recorded : ∀ tag, (exec.calls tag).Recorded exec.history exec.log tag

theorem Execution.explained_start (view : S → A) (spec : A → C → R → A → Prop) (init : S) :
    (Execution.start init : Execution κ S C P R).Explained view spec (view init) where
  linearization := linearization_nil _
  recorded := fun _ ↦ List.not_mem_nil

/-! ### Every run has a linearization -/

variable [DecidableEq κ]

/-- A call after a locked section. -/
def Execution.endSection (exec : Execution κ S C P R) (tag : κ) (call : C) (next : S) :
    SectionEnd P R → Execution κ S C P R
  | .goesOn place =>
    { exec with
      shared := next
      calls := Function.update exec.calls tag (.running call place) }
  | .returns result =>
    { exec with
      shared := next
      calls := Function.update exec.calls tag (.decided call result)
      log := exec.log ++ [⟨tag, call, result⟩] }

/-- One step of an execution. -/
def ConcurrentObject.step (object : ConcurrentObject S C P R I) (exec : Execution κ S C P R) :
    CallAction κ C I → Option (Execution κ S C P R)
  | .invoke tag call =>
    match exec.calls tag with
    | .unused =>
      some { exec with
        calls := Function.update exec.calls tag (.running call (object.enter call))
        history := exec.history ++ [.invoked tag call] }
    | _ => none
  | .advance tag input =>
    match exec.calls tag with
    | .running call place =>
      (object.move exec.shared call place input).map fun ended ↦
        exec.endSection tag call ended.1 ended.2
    | _ => none
  | .leave tag =>
    match exec.calls tag with
    | .decided call result =>
      some { exec with
        calls := Function.update exec.calls tag (.returned call result)
        history := exec.history ++ [.returned tag result] }
    | _ => none

variable {object : ConcurrentObject S C P R I} {view : S → A} {exec next : Execution κ S C P R}

/-- What one step can do. -/
inductive ConcurrentObject.Step (object : ConcurrentObject S C P R I) (exec : Execution κ S C P R) :
    Execution κ S C P R → Prop
  | invoke {tag : κ} (call : C) (hcall : exec.calls tag = .unused) :
      object.Step exec
        { exec with
          calls := Function.update exec.calls tag (.running call (object.enter call))
          history := exec.history ++ [.invoked tag call] }
  | goesOn {tag : κ} {call : C} {place place' : P} {input : I} {shared : S}
      (hcall : exec.calls tag = .running call place)
      (hmove : object.move exec.shared call place input = some (shared, .goesOn place')) :
      object.Step exec (exec.endSection tag call shared (.goesOn place'))
  | decide {tag : κ} {call : C} {place : P} {input : I} {shared : S} {result : R}
      (hcall : exec.calls tag = .running call place)
      (hmove : object.move exec.shared call place input = some (shared, .returns result)) :
      object.Step exec (exec.endSection tag call shared (.returns result))
  | leave {tag : κ} {call : C} {result : R} (hcall : exec.calls tag = .decided call result) :
      object.Step exec
        { exec with
          calls := Function.update exec.calls tag (.returned call result)
          history := exec.history ++ [.returned tag result] }

theorem ConcurrentObject.step_cases {action : CallAction κ C I}
    (hstep : object.step exec action = some next) : object.Step exec next := by
  cases action with
  | invoke tag call =>
    simp only [step] at hstep
    split at hstep
    · cases hstep
      exact .invoke call ‹_›
    · cases hstep
  | advance tag input =>
    simp only [step] at hstep
    split at hstep
    · obtain ⟨⟨shared, ended⟩, hmove, rfl⟩ := Option.map_eq_some_iff.mp hstep
      cases ended with
      | goesOn place' => exact .goesOn ‹_› hmove
      | returns result => exact .decide ‹_› hmove
    · cases hstep
  | leave tag =>
    simp only [step] at hstep
    split at hstep
    · cases hstep
      exact .leave ‹_›
    · cases hstep

/-- Assumes: an object that implements the specification. The calls that are decided during a part
of a run are a replay from the state in which it began, and are added to the log. -/
theorem Implements.replays_later (himpl : Implements object view spec)
    {start final : Execution κ S C P R} {actions : List (CallAction κ C I)}
    (hrun : runFrom object.step start actions = some final) :
    ∃ later, final.log = start.log ++ later ∧
      Replays spec (view start.shared) later (view final.shared) := by
  refine runFrom_invariant
    (fun exec ↦ ∃ later, exec.log = start.log ++ later ∧
      Replays spec (view start.shared) later (view exec.shared)) ?_
    ⟨[], (List.append_nil _).symm, .nil _⟩ hrun
  rintro exec action next ⟨later, hlog, hreplays⟩ hstep
  cases ConcurrentObject.step_cases hstep with
  | invoke call hcall => exact ⟨later, hlog, hreplays⟩
  | leave hcall => exact ⟨later, hlog, hreplays⟩
  | goesOn hcall hmove => exact ⟨later, hlog, (himpl.goesOn hmove).symm ▸ hreplays⟩
  | @decide tag call place input shared result hcall hmove =>
    refine ⟨later ++ [⟨tag, call, result⟩], ?_,
      hreplays.append (.cons (himpl.returns hmove) (.nil _))⟩
    rw [← List.append_assoc, ← hlog]
    rfl

/-- A call is recorded anew, and the others stay recorded. -/
theorem recorded_update {calls : κ → CallState C P R} {history history' : List (HistoryEvent κ C R)}
    {log log' : List (LoggedCall κ C R)} {tag : κ} {state : CallState C P R}
    (hrecorded : ∀ other, (calls other).Recorded history log other)
    (hhistory : history ⊆ history') (hlog : log ⊆ log')
    (hothers : ∀ other ≠ tag, other ∈ log'.map LoggedCall.tag → other ∈ log.map LoggedCall.tag)
    (hstate : state.Recorded history' log' tag) (other : κ) :
    (Function.update calls tag state other).Recorded history' log' other := by
  by_cases heq : other = tag
  · subst heq
    rw [Function.update_self]
    exact hstate
  · rw [Function.update_of_ne heq]
    exact (hrecorded other).mono hhistory hlog (hothers other heq)

theorem Implements.step_explained (himpl : Implements object view spec) {init : A}
    (hexec : exec.Explained view spec init) (hstep : object.Step exec next) :
    next.Explained view spec init := by
  cases hstep with
  | @invoke tag call hcall =>
    have hfresh : tag ∉ exec.log.map LoggedCall.tag := by
      have hrecorded := hexec.recorded tag
      rw [hcall] at hrecorded
      exact hrecorded
    refine ⟨hexec.linearization.event ?_ nofun, ?_⟩
    · intro other other' heq
      cases heq
      exact hfresh
    · exact recorded_update hexec.recorded (List.subset_append_left _ _) (List.Subset.refl _)
        (fun _ _ hmem ↦ hmem)
        ⟨List.mem_append_right _ (List.mem_singleton_self _), hfresh⟩
  | @goesOn tag call place place' input shared hcall hmove =>
    have hrunning := hexec.recorded tag
    rw [hcall] at hrunning
    refine ⟨?_, recorded_update hexec.recorded (List.Subset.refl _) (List.Subset.refl _)
      (fun _ _ hmem ↦ hmem) hrunning⟩
    rw [Execution.endSection, himpl.goesOn hmove]
    exact hexec.linearization
  | @decide tag call place input shared result hcall hmove =>
    have hrunning := hexec.recorded tag
    rw [hcall] at hrunning
    refine ⟨hexec.linearization.decide hrunning.1 hrunning.2 (himpl.returns hmove), ?_⟩
    refine recorded_update hexec.recorded (List.Subset.refl _) (List.subset_append_left _ _) ?_
      (List.mem_append_right _ (List.mem_singleton_self _))
    intro other hother hmem
    rw [Execution.endSection, List.map_append] at hmem
    rcases List.mem_append.mp hmem with hbefore | hlast
    · exact hbefore
    · exact absurd (List.mem_singleton.mp hlast) hother
  | @leave tag call result hcall =>
    have hdecided := hexec.recorded tag
    rw [hcall] at hdecided
    refine ⟨hexec.linearization.event nofun ?_, ?_⟩
    · intro other other' heq
      cases heq
      exact ⟨call, hdecided⟩
    · exact recorded_update hexec.recorded (List.subset_append_left _ _) (List.Subset.refl _)
        (fun _ _ hmem ↦ hmem) hdecided

/-- Assumes: an object that implements the specification. After every run from its first state, the
log explains the history. -/
theorem Implements.explained (himpl : Implements object view spec) {init : S}
    {final : Execution κ S C P R} {actions : List (CallAction κ C I)}
    (hrun : runFrom object.step (.start init) actions = some final) :
    final.Explained view spec (view init) :=
  runFrom_invariant (Execution.Explained view spec (view init))
    (fun _ _ _ hexec hstep ↦ himpl.step_explained hexec (ConcurrentObject.step_cases hstep))
    (Execution.explained_start view spec init) hrun

end TszyUlt.Lib
