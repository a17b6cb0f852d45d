import Mathlib.Data.List.AList
import Mathlib.Logic.Function.Basic
import Mathlib.Tactic.Common

/-!
# Leases

Resources that are handed out by a register and given back to it. The register has an entry for each
resource that it knows, with a mark that says whether it is idle; a holder holds one resource or
none. Resources are allocated and deleted, and the name of a deleted one may be given to a new one.

`Leased` says that the three agree: nobody shares a resource, nothing that is held or registered is
deleted, an idle resource is held by nobody, and there are no more entries than the register may
have. The lemmas are the operations that keep it: an idle resource is taken (`Leased.take`), or a
new one (`Leased.takeNew`), it is given back (`Leased.giveBack`), or its entry is erased and then
the resource deleted (`Leased.erase`, `Leased.delete`).
-/

set_option autoImplicit false
set_option relaxedAutoImplicit false

namespace TszyUlt.Lib

variable {R H : Type*}

/-- The allocated resources, the entries of a register with their idle marks, and what each holder
holds, agree. -/
structure Leased [DecidableEq R] (size : ℕ) (allocated : R → Bool)
    (entries : AList fun _ : R ↦ Bool) (holds : H → Option R) : Prop where
  unshared : ∀ first second resource, holds first = some resource →
    holds second = some resource → first = second
  held : ∀ holder resource, holds holder = some resource → allocated resource = true
  entry : ∀ resource ∈ entries, allocated resource = true
  idle : ∀ resource, entries.lookup resource = some true → ∀ holder, holds holder ≠ some resource
  length_le : entries.keys.length ≤ size

variable [DecidableEq R]

/-- An entry after an update is the new one, or was there before. -/
theorem lookup_insert_cases {entries : AList fun _ : R ↦ Bool} {resource other : R}
    {mark found : Bool} (hfound : (entries.insert resource mark).lookup other = some found) :
    other = resource ∧ found = mark ∨ other ≠ resource ∧ entries.lookup other = some found := by
  by_cases heq : other = resource
  · subst heq
    rw [AList.lookup_insert] at hfound
    exact .inl ⟨rfl, (Option.some.inj hfound).symm⟩
  · rw [AList.lookup_insert_ne heq] at hfound
    exact .inr ⟨heq, hfound⟩

/-- An entry that is left was there before, and is not the one that was erased. -/
theorem lookup_erase_cases {entries : AList fun _ : R ↦ Bool} {resource other : R} {found : Bool}
    (hfound : (entries.erase resource).lookup other = some found) :
    other ≠ resource ∧ entries.lookup other = some found := by
  have hne : other ≠ resource := by
    rintro rfl
    rw [AList.lookup_erase] at hfound
    cases hfound
  rw [AList.lookup_erase_ne hne] at hfound
  exact ⟨hne, hfound⟩

theorem mem_of_lookup {entries : AList fun _ : R ↦ Bool} {resource : R} {mark : Bool}
    (hfound : entries.lookup resource = some mark) : resource ∈ entries :=
  AList.lookup_isSome.mp (Option.isSome_of_eq_some hfound)

/-- Changing the mark of an entry does not change their number. -/
theorem length_keys_insert_of_mem {entries : AList fun _ : R ↦ Bool} {resource : R}
    (hmem : resource ∈ entries) (mark : Bool) :
    (entries.insert resource mark).keys.length = entries.keys.length := by
  have hpos := List.length_pos_of_mem (AList.mem_keys.mp hmem)
  rw [AList.keys_insert, List.length_cons, List.length_erase_of_mem (AList.mem_keys.mp hmem)]
  omega

namespace Leased

variable [DecidableEq H] {size : ℕ} {allocated : R → Bool} {entries : AList fun _ : R ↦ Bool}
variable {holds : H → Option R} {holder : H} {resource : R}

omit [DecidableEq H] in
theorem empty : Leased size (fun _ ↦ false) (∅ : AList fun _ : R ↦ Bool)
    (fun _ : H ↦ none) where
  unshared _ _ _ h := nomatch h
  held _ _ h := nomatch h
  entry _ h := absurd h (AList.notMem_empty _)
  idle _ h := nomatch h
  length_le := Nat.zero_le size

omit [DecidableEq R] in
/-- What is held after one holder changed what it holds. -/
theorem update_eq_some_cases {value : Option R} {other : H} {found : R}
    (hfound : Function.update holds holder value other = some found) :
    other = holder ∧ value = some found ∨ other ≠ holder ∧ holds other = some found := by
  by_cases heq : other = holder
  · subst heq
    rw [Function.update_self] at hfound
    exact .inl ⟨rfl, hfound⟩
  · rw [Function.update_of_ne heq] at hfound
    exact .inr ⟨heq, hfound⟩

/-- A holder that takes what nobody holds shares it with nobody. -/
theorem unshared_take (hleased : Leased size allocated entries holds)
    (hfree : ∀ other, holds other ≠ some resource) (first second : H) (found : R)
    (hfirst : Function.update holds holder (some resource) first = some found)
    (hsecond : Function.update holds holder (some resource) second = some found) :
    first = second := by
  rcases update_eq_some_cases hfirst with ⟨hone, hvalue⟩ | ⟨hone, hold⟩ <;>
    rcases update_eq_some_cases hsecond with ⟨htwo, hvalue'⟩ | ⟨htwo, hold'⟩
  · exact hone.trans htwo.symm
  · exact absurd (hold'.trans hvalue.symm) (hfree second)
  · exact absurd (hold.trans hvalue'.symm) (hfree first)
  · exact hleased.unshared first second found hold hold'

/-- An idle resource is taken. -/
theorem take (hleased : Leased size allocated entries holds)
    (hidle : entries.lookup resource = some true) :
    Leased size allocated (entries.insert resource false)
      (Function.update holds holder (some resource)) where
  unshared := hleased.unshared_take (hleased.idle resource hidle)
  held other found hfound := by
    rcases update_eq_some_cases hfound with ⟨-, hvalue⟩ | ⟨-, hold⟩
    · rw [← Option.some.inj hvalue]
      exact hleased.entry resource (mem_of_lookup hidle)
    · exact hleased.held other found hold
  entry other hother := by
    rcases (AList.mem_insert entries).mp hother with rfl | hold
    · exact hleased.entry other (mem_of_lookup hidle)
    · exact hleased.entry other hold
  idle other hother keeper hkeeper := by
    rcases lookup_insert_cases hother with ⟨-, hmark⟩ | ⟨hne, hold⟩
    · cases hmark
    · rcases update_eq_some_cases hkeeper with ⟨-, hvalue⟩ | ⟨-, hkept⟩
      · exact hne (Option.some.inj hvalue).symm
      · exact hleased.idle other hold keeper hkept
  length_le := by
    rw [length_keys_insert_of_mem (mem_of_lookup hidle)]
    exact hleased.length_le

/-- A new resource is allocated, registered and taken. -/
theorem takeNew (hleased : Leased size allocated entries holds)
    (hnew : allocated resource = false) (hroom : entries.keys.length < size) :
    Leased size (Function.update allocated resource true) (entries.insert resource false)
      (Function.update holds holder (some resource)) := by
  have hfree : ∀ other, holds other ≠ some resource := by
    intro other hother
    rw [hleased.held other resource hother] at hnew
    cases hnew
  have hmono : ∀ other, allocated other = true →
      Function.update allocated resource true other = true := by
    intro other hother
    by_cases heq : other = resource
    · rw [heq, Function.update_self]
    · rw [Function.update_of_ne heq, hother]
  refine ⟨hleased.unshared_take hfree, fun other found hfound ↦ ?_, fun other hother ↦ ?_,
    fun other hother keeper hkeeper ↦ ?_, ?_⟩
  · rcases update_eq_some_cases hfound with ⟨-, hvalue⟩ | ⟨-, hold⟩
    · rw [← Option.some.inj hvalue, Function.update_self]
    · exact hmono found (hleased.held other found hold)
  · rcases (AList.mem_insert entries).mp hother with rfl | hold
    · rw [Function.update_self]
    · exact hmono other (hleased.entry other hold)
  · rcases lookup_insert_cases hother with ⟨-, hmark⟩ | ⟨hne, hold⟩
    · cases hmark
    · rcases update_eq_some_cases hkeeper with ⟨-, hvalue⟩ | ⟨-, hkept⟩
      · exact hne (Option.some.inj hvalue).symm
      · exact hleased.idle other hold keeper hkept
  · have hle : (entries.keys.erase resource).length ≤ entries.keys.length := List.length_erase_le
    rw [AList.keys_insert, List.length_cons]
    omega

/-- A holder lets go of what it holds. -/
theorem letGo (hleased : Leased size allocated entries holds) (holder : H) :
    Leased size allocated entries (Function.update holds holder none) where
  unshared first second found hfirst hsecond := by
    obtain ⟨-, hvalue⟩ | ⟨-, hone⟩ := update_eq_some_cases hfirst
    · cases hvalue
    · obtain ⟨-, hvalue⟩ | ⟨-, htwo⟩ := update_eq_some_cases hsecond
      · cases hvalue
      · exact hleased.unshared first second found hone htwo
  held other found hfound := by
    obtain ⟨-, hvalue⟩ | ⟨-, hold⟩ := update_eq_some_cases hfound
    · cases hvalue
    · exact hleased.held other found hold
  entry := hleased.entry
  idle other hother keeper hkeeper := by
    obtain ⟨-, hvalue⟩ | ⟨-, hkept⟩ := update_eq_some_cases hkeeper
    · cases hvalue
    · exact hleased.idle other hother keeper hkept
  length_le := hleased.length_le

/-- What one holder holds is held by no other. -/
theorem free_of_letGo (hleased : Leased size allocated entries holds)
    (hheld : holds holder = some resource) (other : H) :
    Function.update holds holder none other ≠ some resource := by
  intro hother
  obtain ⟨-, hvalue⟩ | ⟨hne, hold⟩ := update_eq_some_cases hother
  · cases hvalue
  · exact hne (hleased.unshared other holder resource hold hheld)

/-- A resource is given back: its entry, if there is one, becomes idle. -/
theorem giveBack (hleased : Leased size allocated entries holds)
    (hheld : holds holder = some resource) :
    Leased size allocated
      (if (entries.lookup resource).isSome then entries.insert resource true else entries)
      (Function.update holds holder none) := by
  have hgone := hleased.letGo holder
  split_ifs with hentry
  · have hmem := AList.lookup_isSome.mp hentry
    refine { hgone with
      entry := fun other hother ↦ ?_, idle := fun other hother ↦ ?_, length_le := ?_ }
    · rcases (AList.mem_insert entries).mp hother with rfl | hold
      · exact hleased.entry other hmem
      · exact hleased.entry other hold
    · rcases lookup_insert_cases hother with ⟨rfl, -⟩ | ⟨-, hold⟩
      · exact hleased.free_of_letGo hheld
      · exact hgone.idle other hold
    · rw [length_keys_insert_of_mem hmem]
      exact hleased.length_le
  · exact hgone

omit [DecidableEq H] in
/-- An entry is erased. -/
theorem erase (hleased : Leased size allocated entries holds) (resource : R) :
    Leased size allocated (entries.erase resource) holds where
  unshared := hleased.unshared
  held := hleased.held
  entry other hother := hleased.entry other (AList.mem_erase.mp hother).2
  idle other hother := hleased.idle other (lookup_erase_cases hother).2
  length_le := by
    rw [AList.keys_erase]
    exact Nat.le_trans List.length_erase_le hleased.length_le

/-- A resource without an entry is deleted by its holder. -/
theorem delete (hleased : Leased size allocated entries holds)
    (hheld : holds holder = some resource) (hentry : resource ∉ entries) :
    Leased size (Function.update allocated resource false) entries
      (Function.update holds holder none) := by
  have hgone := hleased.letGo holder
  refine { hgone with held := fun other found hfound ↦ ?_, entry := fun other hother ↦ ?_ }
  · have hne : found ≠ resource := by
      rintro rfl
      exact hleased.free_of_letGo hheld other hfound
    rw [Function.update_of_ne hne]
    exact hgone.held other found hfound
  · have hne : other ≠ resource := by
      rintro rfl
      exact hentry hother
    rw [Function.update_of_ne hne]
    exact hleased.entry other hother

end Leased

end TszyUlt.Lib
