import Mathlib.Data.List.Sort
import Mathlib.Order.MinMax
import Mathlib.Tactic.Common

/-!
# Order statistics of bucketed values

A list of values is sorted, and the value with a rank is the one at this position. Whether it is
below a threshold is decided by how many values are (`getElem_sorted_iff`).

`bucketOf` is the bucket of a value, where a list of limits separates the buckets: the first limit
that is not below the value. A histogram keeps only how many values are in each bucket. This
determines the bucket of the value with a given rank: it is the one at which the cumulative count
passes the rank (`within_bucketOf_ranked`).
-/

set_option autoImplicit false
set_option relaxedAutoImplicit false

namespace TszyUlt.Lib

variable {α : Type*} [LinearOrder α]

/-! ### Ranks -/

/-- The values in increasing order: the one at a position has this rank. -/
def ranked (values : List α) : List α := values.insertionSort (· ≤ ·)

theorem ranked_perm (values : List α) : (ranked values).Perm values :=
  List.perm_insertionSort _ values

theorem length_ranked (values : List α) : (ranked values).length = values.length :=
  (ranked_perm values).length_eq

theorem mem_ranked {values : List α} {value : α} : value ∈ ranked values ↔ value ∈ values :=
  (ranked_perm values).mem_iff

theorem ranked_pairwise (values : List α) : (ranked values).Pairwise (· ≤ ·) :=
  List.pairwise_insertionSort _ values

/-- Assumes: a sorted list, and a test that what is below something that passes passes too. The
value at a position passes exactly if more than so many values pass. -/
theorem getElem_sorted_iff {sorted : List α} (hsorted : sorted.Pairwise (· ≤ ·)) {test : α → Bool}
    (hdown : ∀ low high, low ≤ high → test high = true → test low = true) {rank : ℕ} {value : α}
    (hvalue : sorted[rank]? = some value) : test value = true ↔ rank < sorted.countP test := by
  induction sorted generalizing rank with
  | nil => cases hvalue
  | cons head tail ih =>
    obtain ⟨hhead, htail⟩ := List.pairwise_cons.mp hsorted
    rw [List.countP_cons]
    cases rank with
    | zero =>
      obtain rfl : head = value := Option.some.inj hvalue
      by_cases hpass : test head = true
      · rw [if_pos hpass]
        exact iff_of_true hpass (Nat.succ_pos _)
      · have hnone : tail.countP test = 0 := by
          rw [List.countP_eq_zero]
          exact fun later hmem hlater ↦ hpass (hdown head later (hhead later hmem) hlater)
        rw [if_neg hpass, hnone]
        exact iff_of_false hpass (Nat.lt_irrefl 0)
    | succ rank =>
      have hlater : tail[rank]? = some value := hvalue
      rw [ih htail hlater]
      by_cases hpass : test head = true
      · rw [if_pos hpass]
        exact Nat.succ_lt_succ_iff.symm
      · have hnone : tail.countP test = 0 := by
          rw [List.countP_eq_zero]
          exact fun later hmem hlater ↦ hpass (hdown head later (hhead later hmem) hlater)
        rw [if_neg hpass, hnone]
        exact iff_of_false (Nat.not_lt_zero _) (Nat.not_lt_zero _)

/-! ### Buckets -/

/-- The bucket of a value: the first limit that is not below it, or the last bucket. -/
def bucketOf : List α → α → ℕ
  | [], _ => 0
  | limit :: limits, value => if limit < value then bucketOf limits value + 1 else 0

theorem bucketOf_le_length (limits : List α) (value : α) :
    bucketOf limits value ≤ limits.length := by
  induction limits with
  | nil => exact le_rfl
  | cons limit limits ih =>
    rw [bucketOf]
    split_ifs
    · exact Nat.succ_le_succ ih
    · exact Nat.zero_le _

theorem bucketOf_mono (limits : List α) {low high : α} (hle : low ≤ high) :
    bucketOf limits low ≤ bucketOf limits high := by
  induction limits with
  | nil => exact le_rfl
  | cons limit limits ih =>
    rw [bucketOf, bucketOf]
    by_cases hlow : limit < low
    · rw [if_pos hlow, if_pos (hlow.trans_le hle)]
      exact Nat.succ_le_succ ih
    · rw [if_neg hlow]
      exact Nat.zero_le _

/-- The limits before the bucket of a value are below it. -/
theorem lt_of_lt_bucketOf {limits : List α} {value limit : α} {position : ℕ}
    (hposition : position < bucketOf limits value) (hlimit : limits[position]? = some limit) :
    limit < value := by
  induction limits generalizing position with
  | nil => cases hlimit
  | cons first limits ih =>
    rw [bucketOf] at hposition
    split_ifs at hposition with hfirst
    · cases position with
      | zero =>
        obtain rfl : first = limit := Option.some.inj hlimit
        exact hfirst
      | succ position => exact ih (Nat.lt_of_succ_lt_succ hposition) hlimit
    · exact absurd hposition (Nat.not_lt_zero _)

/-- The limit of the bucket of a value is not below it. -/
theorem le_of_bucketOf {limits : List α} {value limit : α}
    (hlimit : limits[bucketOf limits value]? = some limit) : value ≤ limit := by
  induction limits with
  | nil => cases hlimit
  | cons first limits ih =>
    rw [bucketOf] at hlimit
    split_ifs at hlimit with hfirst
    · exact ih hlimit
    · obtain rfl : first = limit := Option.some.inj hlimit
      exact not_lt.mp hfirst

/-- How many values are in a bucket. -/
def inBucket (limits values : List α) (bucket : ℕ) : ℕ :=
  values.countP fun value ↦ bucketOf limits value = bucket

/-- How many values are in the buckets before one. -/
def beforeBucket (limits values : List α) (bucket : ℕ) : ℕ :=
  values.countP fun value ↦ bucketOf limits value < bucket

theorem beforeBucket_zero (limits values : List α) : beforeBucket limits values 0 = 0 := by
  rw [beforeBucket, List.countP_eq_zero]
  intro value _
  rw [decide_eq_true_eq]
  exact Nat.not_lt_zero _

theorem beforeBucket_succ (limits values : List α) (bucket : ℕ) :
    beforeBucket limits values (bucket + 1) =
      beforeBucket limits values bucket + inBucket limits values bucket := by
  induction values with
  | nil => rfl
  | cons value values ih =>
    simp only [beforeBucket, inBucket] at ih ⊢
    simp only [List.countP_cons, decide_eq_true_eq, ih]
    split_ifs <;> omega

/-- Every value is in one of the buckets. -/
theorem beforeBucket_length (limits values : List α) :
    beforeBucket limits values (limits.length + 1) = values.length := by
  rw [beforeBucket, List.countP_eq_length]
  intro value _
  rw [decide_eq_true_eq]
  exact Nat.lt_succ_of_le (bucketOf_le_length limits value)

theorem inBucket_concat (limits values : List α) (value : α) (bucket : ℕ) :
    inBucket limits (values ++ [value]) bucket =
      inBucket limits values bucket + if bucketOf limits value = bucket then 1 else 0 := by
  rw [inBucket, List.countP_append, List.countP_singleton, ← inBucket]
  simp only [decide_eq_true_eq]

theorem inBucket_le_length (limits values : List α) (bucket : ℕ) :
    inBucket limits values bucket ≤ values.length := List.countP_le_length

/-- The value with a rank is before a bucket exactly if the values before it are more than the
rank. -/
theorem bucketOf_lt_iff {limits values : List α} {rank bucket : ℕ} {value : α}
    (hvalue : (ranked values)[rank]? = some value) :
    bucketOf limits value < bucket ↔ rank < beforeBucket limits values bucket := by
  have hcount : (ranked values).countP (fun value ↦ bucketOf limits value < bucket) =
      beforeBucket limits values bucket := (ranked_perm values).countP_eq _
  rw [← hcount, ← getElem_sorted_iff (ranked_pairwise values) ?_ hvalue, decide_eq_true_eq]
  intro low high hle hhigh
  rw [decide_eq_true_eq] at hhigh ⊢
  exact (bucketOf_mono limits hle).trans_lt hhigh

/-- The cumulative count passes a rank at the bucket of the value with this rank. -/
theorem within_bucketOf_ranked (limits : List α) {values : List α} {rank : ℕ} {value : α}
    (hvalue : (ranked values)[rank]? = some value) :
    beforeBucket limits values (bucketOf limits value) ≤ rank ∧
      rank < beforeBucket limits values (bucketOf limits value) +
        inBucket limits values (bucketOf limits value) := by
  constructor
  · exact Nat.not_lt.mp ((bucketOf_lt_iff hvalue).not.mp (Nat.lt_irrefl (bucketOf limits value)))
  · rw [← beforeBucket_succ]
    exact (bucketOf_lt_iff hvalue).mp (Nat.lt_succ_self _)

end TszyUlt.Lib
