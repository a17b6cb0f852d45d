import Mathlib.Data.Int.ModEq

/-!
# Counters that are drained

A counter that some threads add to, and from which another one takes what is there, putting zero in
its place. The counter has a number of bits and wraps around. What was taken and what is stored
together are what was added, modulo the size of the counter (`Drained`); and they are exactly that
as long as no addition leaves the upper half (`DrainedExactly`).
-/

set_option autoImplicit false
set_option relaxedAutoImplicit false

namespace TszyUlt.Lib

/-- What a counter of so many bits stores after an addition. -/
def wrapAdd (bits : ℕ) (stored amount : ℤ) : ℤ := (stored + amount).bmod (2 ^ bits)

/-- An addition does not pass the largest value of the counter. -/
def Fits (bits : ℕ) (stored amount : ℤ) : Prop := stored + amount < 2 ^ (bits - 1)

/-- What was taken and what is stored are what was added, modulo the size of the counter. -/
def Drained (bits : ℕ) (taken stored added : ℤ) : Prop := taken + stored ≡ added [ZMOD 2 ^ bits]

/-- What was taken and what is stored are exactly what was added. -/
structure DrainedExactly (taken stored added : ℤ) : Prop where
  nonneg : 0 ≤ stored
  eq : taken + stored = added

variable {bits : ℕ} {taken stored added amount : ℤ}

theorem wrapAdd_modEq (bits : ℕ) (stored amount : ℤ) :
    wrapAdd bits stored amount ≡ stored + amount [ZMOD 2 ^ bits] := by
  unfold wrapAdd Int.ModEq
  exact_mod_cast Int.bmod_emod

theorem wrapAdd_of_fits (hbits : 0 < bits) (hstored : 0 ≤ stored) (hamount : 0 ≤ amount)
    (hfits : Fits bits stored amount) : wrapAdd bits stored amount = stored + amount := by
  obtain ⟨half, rfl⟩ := Nat.exists_eq_succ_of_ne_zero hbits.ne'
  rw [Fits, Nat.succ_sub_one] at hfits
  have hsize : ((2 ^ (half + 1) : ℕ) : ℤ) = 2 * 2 ^ half := by
    rw [Nat.pow_succ', Nat.cast_mul]
    norm_cast
  exact Int.bmod_eq_of_le (by omega) (by omega)

theorem Drained.add (hdrained : Drained bits taken stored added) (amount : ℤ) :
    Drained bits taken (wrapAdd bits stored amount) (added + amount) := by
  have hadd := ((wrapAdd_modEq bits stored amount).add_left taken)
  rw [← Int.add_assoc] at hadd
  exact hadd.trans (hdrained.add_right amount)

theorem Drained.exchange (hdrained : Drained bits taken stored added) :
    Drained bits (taken + stored) 0 added := by
  rw [Drained, Int.add_zero]
  exact hdrained

theorem DrainedExactly.add (hdrained : DrainedExactly taken stored added) (hbits : 0 < bits)
    (hamount : 0 ≤ amount) (hfits : Fits bits stored amount) :
    DrainedExactly taken (wrapAdd bits stored amount) (added + amount) := by
  rw [wrapAdd_of_fits hbits hdrained.nonneg hamount hfits, ← hdrained.eq]
  exact ⟨Int.add_nonneg hdrained.nonneg hamount, (Int.add_assoc _ _ _).symm⟩

theorem DrainedExactly.exchange (hdrained : DrainedExactly taken stored added) :
    DrainedExactly (taken + stored) 0 added :=
  ⟨le_rfl, by rw [Int.add_zero, hdrained.eq]⟩

end TszyUlt.Lib
