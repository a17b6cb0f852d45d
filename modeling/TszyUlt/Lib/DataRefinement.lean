import TszyUlt.Lib.Transition

/-!
# Objects that refine their specification

An object takes calls. `call state request` is the answer and the state afterwards, or `none` when
the call fails, and `callAll` makes one call after another. A specification is an object whose calls
never fail, given by a total function (`answers`).

`Refines` says that in related states every call that meets a condition gives the answer of the
specification and leads to related states. `Refines.callAll` carries it to all sequences of calls:
as long as every call meets the condition, none fails, the answers are those of the specification,
and the final states are related.

Where the specification leaves answers open it is a relation, and `Permitted` says that it allows a
list of calls with their answers. `Conforms` says that in related states a call that meets a
condition gives an answer that is allowed; `Conforms.callAll` carries it to all sequences of calls.
`callAll_forall` is an invariant with what each call says of its answer.
-/

set_option autoImplicit false
set_option relaxedAutoImplicit false

namespace TszyUlt.Lib

variable {S T C R : Type*}

/-- The answers to a list of calls and the state after them. -/
def callAll (call : S → C → Option (R × S)) : S → List C → Option (List R × S)
  | state, [] => some ([], state)
  | state, request :: requests =>
    (call state request).bind fun answer ↦
      (callAll call answer.2 requests).map fun rest ↦ (answer.1 :: rest.1, rest.2)

/-- The answers of a specification to a list of calls, and its state after them. -/
def answers (spec : T → C → R × T) : T → List C → List R × T
  | model, [] => ([], model)
  | model, request :: requests =>
    let rest := answers spec (spec model request).2 requests
    ((spec model request).1 :: rest.1, rest.2)

/-- The step of an object: the state after a call that does not fail. -/
def callStep (call : S → C → Option (R × S)) (state : S) (request : C) : Option S :=
  (call state request).map Prod.snd

variable {call : S → C → Option (R × S)} {spec : T → C → R × T}

theorem callAll_cons_of_call {state next : S} {request : C} {answer : R}
    (hcall : call state request = some (answer, next)) (requests : List C) :
    callAll call state (request :: requests) =
      (callAll call next requests).map fun rest ↦ (answer :: rest.1, rest.2) := by
  rw [callAll, hcall, Option.bind_some]

theorem callStep_of_call {state next : S} {request : C} {answer : R}
    (hcall : call state request = some (answer, next)) :
    callStep call state request = some next := by
  rw [callStep, hcall, Option.map_some]

/-- In related states, every call that meets the condition gives the answer of the specification and
leads to related states. -/
def Refines (call : S → C → Option (R × S)) (spec : T → C → R × T) (condition : S → C → Prop)
    (related : S → T → Prop) : Prop :=
  ∀ state model request, related state model → condition state request →
    ∃ next, call state request = some ((spec model request).1, next) ∧
      related next (spec model request).2

/-- Assumes: related states, and calls that all meet the condition. No call fails, the answers are
those of the specification, and the final states are related. -/
theorem Refines.callAll {condition : S → C → Prop} {related : S → T → Prop}
    (hrefines : Refines call spec condition related) {state : S} {model : T} {requests : List C}
    (hrelated : related state model) (halong : Along (callStep call) condition state requests) :
    ∃ final, Lib.callAll call state requests = some ((answers spec model requests).1, final) ∧
      related final (answers spec model requests).2 := by
  induction requests generalizing state model with
  | nil => exact ⟨state, rfl, hrelated⟩
  | cons request requests ih =>
    obtain ⟨next, hcall, hnext⟩ := hrefines state model request hrelated halong.1
    obtain ⟨final, hrest, hfinal⟩ := ih hnext (halong.2 next (callStep_of_call hcall))
    refine ⟨final, ?_, hfinal⟩
    rw [callAll_cons_of_call hcall, hrest, Option.map_some]
    rfl

/-! ### Specifications that leave answers open -/

/-- The specification allows the calls with these answers, and leads to this state. -/
def Permitted (spec : T → C → R → T → Prop) : T → List (C × R) → T → Prop
  | model, [], final => final = model
  | model, exchange :: exchanges, final =>
    ∃ next, spec model exchange.1 exchange.2 next ∧ Permitted spec next exchanges final

/-- In related states, the answer to a call that meets the condition is one that the specification
allows, with related states after it. -/
def Conforms (call : S → C → Option (R × S)) (spec : T → C → R → T → Prop)
    (condition : S → C → Prop) (related : S → T → Prop) : Prop :=
  ∀ state model request answer next, related state model → condition state request →
    call state request = some (answer, next) →
      ∃ model', spec model request answer model' ∧ related next model'

theorem callAll_cons_eq_some {state final : S} {request : C} {requests : List C} {results : List R}
    (hcalls : callAll call state (request :: requests) = some (results, final)) :
    ∃ answer next rest, call state request = some (answer, next) ∧
      callAll call next requests = some (rest, final) ∧ results = answer :: rest := by
  rw [callAll, Option.bind_eq_some_iff] at hcalls
  obtain ⟨⟨answer, next⟩, hcall, hrest⟩ := hcalls
  obtain ⟨⟨rest, last⟩, hlast, heq⟩ := Option.map_eq_some_iff.mp hrest
  cases heq
  exact ⟨answer, next, rest, hcall, hlast, rfl⟩

/-- Assumes: related states, and calls that all meet the condition. The calls with their answers are
allowed by the specification, and the final states are related. -/
theorem Conforms.callAll {spec : T → C → R → T → Prop} {condition : S → C → Prop}
    {related : S → T → Prop} (hconforms : Conforms call spec condition related) {state final : S}
    {model : T} {requests : List C} {results : List R} (hrelated : related state model)
    (halong : Along (callStep call) condition state requests)
    (hcalls : Lib.callAll call state requests = some (results, final)) :
    ∃ model', Permitted spec model (requests.zip results) model' ∧ related final model' := by
  induction requests generalizing state model results with
  | nil =>
    cases hcalls
    exact ⟨model, rfl, hrelated⟩
  | cons request requests ih =>
    obtain ⟨answer, next, rest, hcall, hrest, rfl⟩ := callAll_cons_eq_some hcalls
    obtain ⟨middle, hspec, hnext⟩ := hconforms state model request answer next hrelated halong.1
      hcall
    obtain ⟨model', hpermitted, hfinal⟩ := ih hnext (halong.2 next (callStep_of_call hcall)) hrest
    exact ⟨model', ⟨middle, hspec, hpermitted⟩, hfinal⟩

/-- Assumes: an invariant that calls keep which meet a condition, and from which such a call gives a
good answer. In a sequence of such calls all answers are good. -/
theorem callAll_forall {condition : S → C → Prop} (invariant : S → Prop) (good : C → R → Prop)
    (hcall : ∀ state request answer next, invariant state → condition state request →
      call state request = some (answer, next) → invariant next ∧ good request answer)
    {state final : S} {requests : List C} {results : List R} (hstart : invariant state)
    (halong : Along (callStep call) condition state requests)
    (hcalls : Lib.callAll call state requests = some (results, final)) :
    ∀ exchange ∈ requests.zip results, good exchange.1 exchange.2 := by
  induction requests generalizing state results with
  | nil =>
    intro exchange hexchange
    cases hexchange
  | cons request requests ih =>
    obtain ⟨answer, next, rest, hfirst, hrest, rfl⟩ := callAll_cons_eq_some hcalls
    obtain ⟨hnext, hgood⟩ := hcall state request answer next hstart halong.1 hfirst
    intro exchange hexchange
    rw [List.zip_cons_cons, List.mem_cons] at hexchange
    obtain rfl | hexchange := hexchange
    · exact hgood
    · exact ih hnext (halong.2 next (callStep_of_call hfirst)) hrest exchange hexchange

end TszyUlt.Lib
