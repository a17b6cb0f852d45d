import Mathlib.Algebra.GroupWithZero.Nat
import Mathlib.Data.List.Infix
import TszyUlt.Lib.Transition

/-!
# A system that follows another one

`Simulates` says that one system follows another one: from related states, each step of the first
that meets a condition is matched by steps of the second, any number of them, and the states stay
related. A whole run is then matched by a run of the second (`Simulates.run`), so that what holds of
all runs of the second is known of the first (`Simulates.invariant`). Two such relations compose
(`Simulates.trans`).

`Channel` is a specification to be followed: messages are accepted at one end and delivered at the
other, in order, until the channel is cut. `Channel.delivered_prefix` is what every run of it keeps.

A run that can do nothing more is `Halted`. Where each step makes a measure smaller, a run has no
more steps than the measure at the start (`length_le_of_measure`), and there is one that is halted
at its end (`exists_run_halted`).
-/

set_option autoImplicit false
set_option relaxedAutoImplicit false

namespace TszyUlt.Lib

variable {S T U A B C : Type*}

/-! ### Simulation -/

/-- From related states, a step that meets the condition is matched by a run of the other system
that ends in a related state. -/
def Simulates (step : S → A → Option S) (spec : T → B → Option T) (condition : S → A → Prop)
    (related : S → T → Prop) : Prop :=
  ∀ state model action next, related state model → condition state action →
    step state action = some next →
      ∃ moves model', runFrom spec model moves = some model' ∧ related next model'

namespace Simulates

variable {step : S → A → Option S} {spec : T → B → Option T} {condition : S → A → Prop}
  {related : S → T → Prop}

/-- Assumes: a simulation, and a run from related states whose steps meet the condition. The run is
matched by a run of the other system. -/
theorem run (hsim : Simulates step spec condition related) {start final : S} {model : T}
    {actions : List A} (hrelated : related start model)
    (halong : Along step condition start actions) (hrun : runFrom step start actions = some final) :
    ∃ moves model', runFrom spec model moves = some model' ∧ related final model' := by
  induction actions generalizing start model with
  | nil =>
    cases hrun
    exact ⟨[], model, rfl, hrelated⟩
  | cons action actions ih =>
    rw [runFrom_cons, Option.bind_eq_some_iff] at hrun
    obtain ⟨next, hnext, hrest⟩ := hrun
    obtain ⟨first, middle, hfirst, hmiddle⟩ := hsim start model action next hrelated halong.1 hnext
    obtain ⟨second, model', hsecond, hfinal⟩ := ih hmiddle (halong.2 next hnext) hrest
    refine ⟨first ++ second, model', ?_, hfinal⟩
    rw [runFrom_append, hfirst, Option.bind_some, hsecond]

/-- Assumes: a simulation from related starting states, and an invariant of the second system. Every
state that the first one reaches is related to one with the invariant. -/
theorem invariant (hsim : Simulates step spec condition related) (holds : T → Prop)
    (hstep : ∀ model action next, holds model → spec model action = some next → holds next)
    {start final : S} {model : T} {actions : List A} (hrelated : related start model)
    (hstart : holds model) (halong : Along step condition start actions)
    (hrun : runFrom step start actions = some final) :
    ∃ model', related final model' ∧ holds model' := by
  obtain ⟨moves, model', hmoves, hfinal⟩ := hsim.run hrelated halong hrun
  exact ⟨model', hfinal, runFrom_invariant holds hstep hstart hmoves⟩

/-- Simulations compose. -/
theorem trans {top : U → C → Option U} {related' : T → U → Prop}
    (hsim : Simulates step spec condition related)
    (hsim' : Simulates spec top (fun _ _ ↦ True) related') :
    Simulates step top condition fun state model ↦ ∃ middle, related state middle ∧
      related' middle model := by
  rintro state model action next ⟨middle, hstate, hmiddle⟩ hcondition hstep
  obtain ⟨moves, middle', hmoves, hnext⟩ := hsim state middle action next hstate hcondition hstep
  obtain ⟨moves', model', hmoves', hmodel⟩ :=
    hsim'.run hmiddle (along_of_forall (fun _ _ _ ↦ trivial) middle) hmoves
  exact ⟨moves', model', hmoves', middle', hnext, hmodel⟩

end Simulates

/-! ### A channel -/

/-- A channel that carries messages in order: what was accepted at one end, what was delivered at
the other, and whether it was cut. -/
structure Channel (μ : Type*) where
  accepted : List μ
  delivered : List μ
  cut : Bool

/-- The steps of a channel. -/
inductive ChannelAction (μ : Type*)
  | accept (msg : μ)
  | deliver
  | cut

namespace Channel

variable {μ : Type*}

/-- A channel before its use. -/
def new : Channel μ := ⟨[], [], false⟩

/-- One step of a channel: the message that is delivered is the first one that was not. -/
def step (channel : Channel μ) : ChannelAction μ → Option (Channel μ)
  | .accept msg => some { channel with accepted := channel.accepted ++ [msg] }
  | .deliver =>
    if channel.cut then none
    else channel.accepted[channel.delivered.length]?.map fun msg ↦
      { channel with delivered := channel.delivered ++ [msg] }
  | .cut => some { channel with cut := true }

/-- The messages delivered are the first ones that were accepted. -/
theorem delivered_prefix {actions : List (ChannelAction μ)} {final : Channel μ}
    (hrun : runFrom step new actions = some final) : final.delivered <+: final.accepted := by
  refine runFrom_invariant (fun channel : Channel μ ↦ channel.delivered <+: channel.accepted) ?_
    (List.prefix_refl []) hrun
  intro channel action next hprefix hstep
  cases action with
  | accept msg =>
    cases hstep
    exact hprefix.trans (List.prefix_append _ _)
  | deliver =>
    simp only [step] at hstep
    split_ifs at hstep
    obtain ⟨msg, hmsg, rfl⟩ := Option.map_eq_some_iff.mp hstep
    obtain ⟨rest, hrest⟩ := hprefix
    rw [← hrest, List.getElem?_append_right le_rfl, Nat.sub_self] at hmsg
    cases rest with
    | nil => cases hmsg
    | cons first rest =>
      cases hmsg
      exact ⟨rest, by rw [← hrest, List.append_assoc, List.singleton_append]⟩
  | cut =>
    cases hstep
    exact hprefix

/-- Assumes: a channel that is not cut, and messages that follow the delivered ones among those
accepted. They can be delivered one after the other. -/
theorem runFrom_deliver {channel : Channel μ} (hcut : channel.cut = false) (msgs rest : List μ)
    (haccepted : channel.accepted = channel.delivered ++ (msgs ++ rest)) :
    runFrom step channel (List.replicate msgs.length .deliver) =
      some { channel with delivered := channel.delivered ++ msgs } := by
  induction msgs generalizing channel with
  | nil =>
    rw [List.append_nil]
    rfl
  | cons msg msgs ih =>
    have hstep : step channel .deliver =
        some { channel with delivered := channel.delivered ++ [msg] } := by
      simp only [step, hcut, Bool.false_eq_true, if_false, haccepted]
      rw [List.getElem?_append_right le_rfl, Nat.sub_self]
      rfl
    have hrest : runFrom step { channel with delivered := channel.delivered ++ [msg] }
        (List.replicate msgs.length .deliver) =
          some { channel with delivered := channel.delivered ++ [msg] ++ msgs } := by
      refine ih hcut ?_
      rw [haccepted, List.append_assoc]
      rfl
    rw [List.length_cons, List.replicate_succ, runFrom_cons_of_step hstep, hrest, List.append_assoc]
    rfl

end Channel

/-! ### Runs that end -/

/-- No action can happen. -/
def Halted (step : S → A → Option S) (state : S) : Prop := ∀ action, step state action = none

section Halting

variable {step : S → A → Option S} {invariant : S → Prop} {measure : S → ℕ}

/-- A measure that is summed over parts, of which one changes. -/
theorem sum_map_set_add {P : Type*} (weight : P → ℕ) {parts : List P} {i : ℕ} {part : P}
    (hpart : parts[i]? = some part) (part' : P) :
    ((parts.set i part').map weight).sum + weight part =
      (parts.map weight).sum + weight part' := by
  induction parts generalizing i with
  | nil => cases hpart
  | cons first parts ih =>
    cases i with
    | zero =>
      cases hpart
      simp only [List.set_cons_zero, List.map_cons, List.sum_cons]
      omega
    | succ i =>
      have hrest := ih hpart
      simp only [List.set_cons_succ, List.map_cons, List.sum_cons]
      omega

/-- Assumes: every step keeps the invariant and makes the measure smaller. No run has more steps
than the measure at the start. -/
theorem length_le_of_measure
    (hstep : ∀ state action next, invariant state → step state action = some next →
      invariant next ∧ measure next < measure state)
    {start final : S} {actions : List A} (hstart : invariant start)
    (hrun : runFrom step start actions = some final) : actions.length ≤ measure start := by
  induction actions generalizing start with
  | nil => exact Nat.zero_le _
  | cons action actions ih =>
    rw [runFrom_cons, Option.bind_eq_some_iff] at hrun
    obtain ⟨next, hnext, hrest⟩ := hrun
    obtain ⟨hinvariant, hless⟩ := hstep start action next hstart hnext
    have hlength := ih hinvariant hrest
    rw [List.length_cons]
    omega

/-- Assumes: every step keeps the invariant and makes the measure smaller. There is a run at whose
end no action can happen. -/
theorem exists_run_halted
    (hstep : ∀ state action next, invariant state → step state action = some next →
      invariant next ∧ measure next < measure state)
    {start : S} (hstart : invariant start) :
    ∃ actions final, runFrom step start actions = some final ∧ Halted step final := by
  induction hmeasure : measure start using Nat.strongRecOn generalizing start with
  | ind bound ih =>
    by_cases hhalted : Halted step start
    · exact ⟨[], start, rfl, hhalted⟩
    · obtain ⟨action, haction⟩ := not_forall.mp hhalted
      obtain ⟨next, hnext⟩ := Option.ne_none_iff_exists'.mp haction
      obtain ⟨hinvariant, hless⟩ := hstep start action next hstart hnext
      obtain ⟨actions, final, hrun, hfinal⟩ := ih (measure next) (hmeasure ▸ hless) hinvariant rfl
      exact ⟨action :: actions, final, (runFrom_cons_of_step hnext actions).trans hrun, hfinal⟩

end Halting

end TszyUlt.Lib
