import Mathlib.Data.List.Basic
import Mathlib.Data.Nat.Notation

/-!
# Loops that stop at the first failure

A loop goes through a list, makes some calls for each element, and goes on as long as the code that
an element ends with is the one for success (`runUntil`). An element is reached if no earlier one
fails, and `EachReached` says of a property that the elements that are reached have it.

`forall_mem_runUntil_iff` is the rule of such loops: what is to hold of every call that a loop makes
is what is to hold of the calls for the elements that are reached. `runUntil_snd_eq_iff` says when a
loop comes to its end.

A loop that changes a state keeps what it did before the failure (`foldUntil`). Where it reads each
element and puts what it has read into the state, that are the elements before the first one that
cannot be read (`foldUntil_read`).
-/

set_option autoImplicit false
set_option relaxedAutoImplicit false

namespace TszyUlt.Lib

variable {A C R : Type*}

/-- The elements of a list that are reached have a property: those before which none fails. An
element is looked at with its position. -/
def EachReached (passes good : ℕ → A → Prop) (list : List A) : Prop :=
  ∀ i a, list[i]? = some a → (∀ j < i, ∀ b, list[j]? = some b → passes j b) → good i a

/-- All elements of a list pass. -/
def EachPasses (passes : ℕ → A → Prop) (list : List A) : Prop :=
  ∀ i a, list[i]? = some a → passes i a

section Elements

variable {passes passes' good good' : ℕ → A → Prop} {a : A} {list : List A}

theorem eachReached_nil : EachReached passes good [] :=
  fun _ _ hnone ↦ by cases hnone

theorem eachPasses_nil : EachPasses passes [] :=
  fun _ _ hnone ↦ by cases hnone

theorem eachReached_cons : EachReached passes good (a :: list) ↔
    good 0 a ∧ (passes 0 a →
      EachReached (fun i ↦ passes (i + 1)) (fun i ↦ good (i + 1)) list) := by
  constructor
  · intro hall
    refine ⟨hall 0 a rfl fun j hlt ↦ absurd hlt (Nat.not_lt_zero j),
      fun hpasses i b hb hbefore ↦ ?_⟩
    refine hall (i + 1) b hb fun j hlt c hc ↦ ?_
    cases j with
    | zero =>
      cases hc
      exact hpasses
    | succ j => exact hbefore j (Nat.succ_lt_succ_iff.mp hlt) c hc
  · rintro ⟨hfirst, hrest⟩ i b hb hbefore
    cases i with
    | zero =>
      cases hb
      exact hfirst
    | succ i =>
      exact hrest (hbefore 0 (Nat.succ_pos i) a rfl) i b hb fun j hlt ↦
        hbefore (j + 1) (Nat.succ_lt_succ hlt)

theorem eachPasses_cons : EachPasses passes (a :: list) ↔
    passes 0 a ∧ EachPasses (fun i ↦ passes (i + 1)) list := by
  constructor
  · exact fun hall ↦ ⟨hall 0 a rfl, fun i ↦ hall (i + 1)⟩
  · rintro ⟨hfirst, hrest⟩ i b hb
    cases i with
    | zero =>
      cases hb
      exact hfirst
    | succ i => exact hrest i b hb

theorem eachReached_congr (hpasses : ∀ i, ∀ b ∈ list, passes i b ↔ passes' i b)
    (hgood : ∀ i, ∀ b ∈ list, good i b ↔ good' i b) :
    EachReached passes good list ↔ EachReached passes' good' list := by
  refine forall_congr' fun i ↦ forall_congr' fun b ↦ forall_congr' fun hb ↦ ?_
  refine imp_congr ?_ (hgood i b (List.mem_of_getElem? hb))
  exact forall_congr' fun j ↦ forall_congr' fun _ ↦ forall_congr' fun c ↦ forall_congr' fun hc ↦
    hpasses j c (List.mem_of_getElem? hc)

theorem eachReached_map {B : Type*} (f : B → A) (elements : List B) :
    EachReached passes good (elements.map f) ↔
      EachReached (fun i b ↦ passes i (f b)) (fun i b ↦ good i (f b)) elements := by
  induction elements generalizing passes good with
  | nil => exact iff_of_true eachReached_nil eachReached_nil
  | cons b elements ih =>
    rw [List.map_cons, eachReached_cons, eachReached_cons]
    exact and_congr_right fun _ ↦ imp_congr_right fun _ ↦ ih

/-- All elements of a list pass a test of their positions exactly if all positions do. -/
theorem eachPasses_position_iff {passes : ℕ → Prop} {list : List A} :
    EachPasses (fun i _ ↦ passes i) list ↔ ∀ i < list.length, passes i := by
  constructor
  · exact fun hall i hlt ↦ hall i list[i] (List.getElem?_eq_getElem hlt)
  · exact fun hall i a ha ↦ hall i (List.getElem?_eq_some_iff.mp ha).1

end Elements

variable [DecidableEq R]

/-- The calls of a loop from a position of its list on, and the code it ends with. The loop ends
when an element does not end with the code `go`. -/
def runUntil (go : R) (step : ℕ → A → List C × R) : ℕ → List A → List C × R
  | _, [] => ([], go)
  | k, a :: list =>
    let (calls, rc) := step k a
    if rc = go then
      let (more, last) := runUntil go step (k + 1) list
      (calls ++ more, last)
    else (calls, rc)

section Runs

variable {go : R} {step : ℕ → A → List C × R}

theorem runUntil_cons_of_go {k : ℕ} {a : A} {list : List A} (hgo : (step k a).2 = go) :
    runUntil go step k (a :: list) =
      ((step k a).1 ++ (runUntil go step (k + 1) list).1, (runUntil go step (k + 1) list).2) := by
  rw [runUntil]
  exact if_pos hgo

theorem runUntil_cons_of_stop {k : ℕ} {a : A} {list : List A} (hstop : (step k a).2 ≠ go) :
    runUntil go step k (a :: list) = step k a := by
  rw [runUntil]
  exact if_neg hstop

/-- Every call of a loop is good exactly if those for the elements that are reached are. -/
theorem forall_mem_runUntil_iff (good : C → Prop) (k : ℕ) (list : List A) :
    (∀ call ∈ (runUntil go step k list).1, good call) ↔
      EachReached (fun i a ↦ (step (k + i) a).2 = go)
        (fun i a ↦ ∀ call ∈ (step (k + i) a).1, good call) list := by
  induction list generalizing k with
  | nil => exact iff_of_true (fun _ hcall ↦ absurd hcall List.not_mem_nil) eachReached_nil
  | cons a list ih =>
    rw [eachReached_cons, Nat.add_zero]
    by_cases hgo : (step k a).2 = go
    · have hshift : ∀ i, k + 1 + i = k + (i + 1) := fun i ↦ by omega
      rw [runUntil_cons_of_go hgo, List.forall_mem_append, ih, imp_iff_right hgo]
      simp only [hshift]
    · rw [runUntil_cons_of_stop hgo]
      exact ⟨fun hcalls ↦ ⟨hcalls, fun hpasses ↦ absurd hpasses hgo⟩, And.left⟩

/-- A loop ends with the code for success exactly if every element does. -/
theorem runUntil_snd_eq_iff (k : ℕ) (list : List A) :
    (runUntil go step k list).2 = go ↔ EachPasses (fun i a ↦ (step (k + i) a).2 = go) list := by
  induction list generalizing k with
  | nil => exact iff_of_true rfl eachPasses_nil
  | cons a list ih =>
    rw [eachPasses_cons, Nat.add_zero]
    by_cases hgo : (step k a).2 = go
    · have hshift : ∀ i, k + 1 + i = k + (i + 1) := fun i ↦ by omega
      rw [runUntil_cons_of_go hgo, ih]
      simp only [hshift]
      exact (and_iff_right hgo).symm
    · rw [runUntil_cons_of_stop hgo]
      exact iff_of_false hgo fun hpasses ↦ hgo hpasses.1

end Runs

/-! ### Loops that change a state -/

section Folds

variable {S B : Type*}

/-- The state after a loop, and whether it has come to its end. It stops at the first element for
which the step fails. -/
def foldUntil (step : S → A → Option S) : S → List A → S × Bool
  | state, [] => (state, true)
  | state, a :: list =>
    match step state a with
    | none => (state, false)
    | some next => foldUntil step next list

/-- What is read before the first element that cannot be read. -/
def readUntil (read : A → Option B) : List A → List B
  | [] => []
  | a :: list =>
    match read a with
    | none => []
    | some b => b :: readUntil read list

theorem foldUntil_append (step : S → A → Option S) (state : S) (first second : List A) :
    foldUntil step state (first ++ second) =
      if (foldUntil step state first).2 then foldUntil step (foldUntil step state first).1 second
      else foldUntil step state first := by
  induction first generalizing state with
  | nil => rfl
  | cons a first ih =>
    rw [List.cons_append, foldUntil, foldUntil]
    cases step state a with
    | none => rfl
    | some next => exact ih next

theorem foldUntil_read (read : A → Option B) (put : S → B → S) (state : S) (list : List A) :
    foldUntil (fun state a ↦ (read a).map (put state)) state list =
      ((readUntil read list).foldl put state, list.all fun a ↦ (read a).isSome) := by
  induction list generalizing state with
  | nil => rfl
  | cons a list ih =>
    rw [foldUntil, readUntil, List.all_cons]
    cases hread : read a with
    | none => rfl
    | some b =>
      rw [Option.map_some, Option.isSome_some, Bool.true_and]
      exact ih (put state b)

/-- Assumes: every element can be read. They all are. -/
theorem readUntil_eq_map {read : A → Option B} {found : A → B} {list : List A}
    (hall : ∀ a ∈ list, read a = some (found a)) : readUntil read list = list.map found := by
  induction list with
  | nil => rfl
  | cons a list ih =>
    rw [List.forall_mem_cons] at hall
    rw [readUntil, hall.1, List.map_cons, ih hall.2]

end Folds

end TszyUlt.Lib
