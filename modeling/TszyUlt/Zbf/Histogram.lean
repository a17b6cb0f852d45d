import Mathlib.Algebra.BigOperators.Fin
import Mathlib.Algebra.Order.BigOperators.Group.List
import Mathlib.Algebra.Order.Floor.Ring
import Mathlib.Data.Rat.Floor
import Mathlib.Order.Bounds.Basic
import TszyUlt.Lib.DrainedCounter
import TszyUlt.Lib.OrderStatistics

/-!
# Latency percentiles

`Histogram` of `zbf/request_stat.hpp`, and the percentiles of `onStat`. A cost is counted in the
bucket of the first limit that is not below it, and `percentile` looks for the bucket in which the
cumulative count passes the target and interpolates in it.

`Percentiles` is what a snapshot says of the costs that were observed since the one before:
`percentiles_of_costs` proves it of any costs. The value for a target is in the range of the bucket
that has the cost of this rank, and does not pass the largest cost, so percentiles grow with `p`.

Scope. The counters wrap around at the ends of their types; the arithmetic of `percentile` is exact,
and `p` is a rational number. A call of `observe` or of `snapshot` is one step here.
-/

set_option autoImplicit false
set_option relaxedAutoImplicit false

namespace TszyUlt.Zbf

open Lib

/-! ### The histogram -/

/-- `INT_MAX`. -/
def intMax : ℤ := 2147483647

/-- `fetch_add` of a `std::atomic<int>`. -/
def addInt32 (value amount : ℤ) : ℤ := wrapAdd 32 value amount

/-- `fetch_add` of a `std::atomic<int64_t>`. -/
def addInt64 (value amount : ℤ) : ℤ := wrapAdd 64 value amount

/-- `kNumBuckets`. -/
def kNumBuckets : ℕ := 14

/-- `kLimits`. -/
def kLimits : List ℤ := [1, 2, 5, 10, 20, 50, 100, 200, 500, 1000, 2000, 5000, 10000]

/-- The bucket of a cost: the search of `observe`. -/
def bucketIndex (costMs : ℤ) : Fin kNumBuckets :=
  ⟨bucketOf kLimits costMs, Nat.lt_succ_of_le (bucketOf_le_length kLimits costMs)⟩

/-- `Histogram`, and `Histogram::Snapshot`. -/
structure Histogram where
  buckets : Fin kNumBuckets → ℤ
  count : ℤ
  sum : ℤ
  maxCost : ℤ
  minCost : ℤ

namespace Histogram

/-- Before any cost. -/
def new : Histogram := ⟨fun _ ↦ 0, 0, 0, 0, intMax⟩

/-- `observe`. -/
def observe (hist : Histogram) (costMs : ℤ) : Histogram :=
  if costMs < 0 then hist
  else
    { buckets := Function.update hist.buckets (bucketIndex costMs)
        (addInt32 (hist.buckets (bucketIndex costMs)) 1)
      count := addInt32 hist.count 1
      sum := addInt64 hist.sum costMs
      maxCost := if costMs > hist.maxCost then costMs else hist.maxCost
      minCost := if costMs < hist.minCost then costMs else hist.minCost }

/-- `snapshot`: what was counted, and the histogram afterwards. -/
def snapshot (hist : Histogram) : Histogram × Histogram := (hist, new)

/-- The lower limit of a bucket. -/
def lowerLimit (bucket : ℕ) : ℤ := if bucket = 0 then 0 else kLimits.getD (bucket - 1) 0

/-- The upper limit of a bucket, or the largest cost if that is less. -/
def upperLimit (maxCost : ℤ) (bucket : ℕ) : ℤ :=
  if bucket = kNumBuckets - 1 then maxCost else min maxCost (kLimits.getD bucket 0)

/-- The loop of `percentile` over the buckets that are left, from a bucket on. -/
def percentileFrom (target maxCost : ℤ) : ℕ → ℤ → List ℤ → ℤ
  | _, _, [] => maxCost
  | bucket, acc, inBucket :: rest =>
    if acc + inBucket > target then
      if inBucket = 0 then lowerLimit bucket
      else
        lowerLimit bucket + ((target - (acc + inBucket - inBucket)) *
          (upperLimit maxCost bucket - lowerLimit bucket)).tdiv inBucket
    else percentileFrom target maxCost (bucket + 1) (acc + inBucket) rest

/-- `percentile` for a target. -/
def percentileAt (target : ℤ) (buckets : Fin kNumBuckets → ℤ) (maxCost : ℤ) : ℤ :=
  percentileFrom target maxCost 0 0 (List.ofFn buckets)

/-- A number without its fraction. -/
def truncate (number : ℚ) : ℤ := if 0 ≤ number then ⌊number⌋ else ⌈number⌉

/-- `percentile`. -/
def percentile (p : ℚ) (total : ℤ) (buckets : Fin kNumBuckets → ℤ) (maxCost : ℤ) : ℤ :=
  if total = 0 then 0
  else
    let target := truncate (total * p)
    percentileAt (if target ≥ total then total - 1 else target) buckets maxCost

/-- The costs observed one after the other. -/
def observeAll (hist : Histogram) (costs : List ℤ) : Histogram := costs.foldl observe hist

end Histogram

/-- The latencies of a `StatBill`. -/
structure StatBill where
  avgCost : ℤ := 0
  maxCost : ℤ := 0
  minCost : ℤ := 0
  p50 : ℤ := 0
  p80 : ℤ := 0
  p90 : ℤ := 0
  p95 : ℤ := 0
  p99 : ℤ := 0

/-- The part of `onStat` for the latencies of a snapshot. -/
def Histogram.bill (snap : Histogram) : StatBill :=
  if snap.count > 0 then
    { avgCost := snap.sum.tdiv snap.count
      maxCost := snap.maxCost
      minCost := snap.minCost
      p50 := percentile (50 / 100) snap.count snap.buckets snap.maxCost
      p80 := percentile (80 / 100) snap.count snap.buckets snap.maxCost
      p90 := percentile (90 / 100) snap.count snap.buckets snap.maxCost
      p95 := percentile (95 / 100) snap.count snap.buckets snap.maxCost
      p99 := percentile (99 / 100) snap.count snap.buckets snap.maxCost }
  else {}

/-! ### What was observed -/

theorem addInt32_eq {value amount : ℤ} (hvalue : 0 ≤ value) (hamount : 0 ≤ amount)
    (hhigh : value + amount ≤ intMax) : addInt32 value amount = value + amount :=
  wrapAdd_of_fits (by decide) hvalue hamount (Int.lt_of_le_of_lt hhigh (by decide))

theorem addInt64_eq {value amount : ℤ} (hvalue : 0 ≤ value) (hamount : 0 ≤ amount)
    (hhigh : value + amount < 2 ^ 63) : addInt64 value amount = value + amount :=
  wrapAdd_of_fits (by decide) hvalue hamount hhigh

/-- The costs that an `int` may have, and that are counted. -/
def IsCost (costMs : ℤ) : Prop := 0 ≤ costMs ∧ costMs ≤ intMax

namespace Histogram

/-- The histogram is what it should be after some costs. -/
structure Observed (costs : List ℤ) (hist : Histogram) : Prop where
  buckets : ∀ bucket, hist.buckets bucket = inBucket kLimits costs bucket
  count : hist.count = costs.length
  sum : hist.sum = costs.sum
  le_maxCost : ∀ cost ∈ costs, cost ≤ hist.maxCost
  maxCost : hist.maxCost = 0 ∨ hist.maxCost ∈ costs
  minCost_le : ∀ cost ∈ costs, hist.minCost ≤ cost
  minCost : hist.minCost = intMax ∨ hist.minCost ∈ costs

theorem observed_new : Observed [] new where
  buckets _ := rfl
  count := rfl
  sum := rfl
  le_maxCost _ hmem := absurd hmem List.not_mem_nil
  maxCost := Or.inl rfl
  minCost_le _ hmem := absurd hmem List.not_mem_nil
  minCost := Or.inl rfl

/-- Costs that an `int` may have add up to no more than so many times the largest one. -/
theorem sum_bounds {costs : List ℤ} (hcosts : ∀ cost ∈ costs, IsCost cost) :
    0 ≤ costs.sum ∧ costs.sum ≤ costs.length * intMax := by
  induction costs with
  | nil => exact ⟨le_rfl, le_rfl⟩
  | cons cost costs ih =>
    rw [List.forall_mem_cons] at hcosts
    obtain ⟨⟨hlow, hhigh⟩, hrest⟩ := hcosts
    obtain ⟨hsumLow, hsumHigh⟩ := ih hrest
    rw [List.sum_cons, List.length_cons, Nat.cast_succ, Int.add_mul, Int.one_mul]
    omega

/-- Assumes: a cost, and fewer than `2 ^ 31` costs with it. It is counted. -/
theorem Observed.observe {costs : List ℤ} {hist : Histogram} (hobserved : hist.Observed costs)
    (hcosts : ∀ cost ∈ costs, IsCost cost) {costMs : ℤ} (hcost : IsCost costMs)
    (hlength : costs.length + 1 < 2 ^ 31) : (hist.observe costMs).Observed (costs ++ [costMs]) := by
  obtain ⟨hlow, hhigh⟩ := hcost
  have hsum := sum_bounds hcosts
  have hroom : (costs.length : ℤ) * intMax ≤ (2 ^ 31 - 2) * intMax :=
    Int.mul_le_mul_of_nonneg_right (by omega) (by decide)
  unfold intMax at hroom hhigh hsum
  rw [Histogram.observe, if_neg (Int.not_lt.mpr hlow)]
  constructor
  · intro bucket
    dsimp only
    rw [inBucket_concat]
    have hle := inBucket_le_length kLimits costs bucket
    by_cases hsame : bucket = bucketIndex costMs
    · have hbucket : bucketOf kLimits costMs = bucket := congrArg Fin.val hsame.symm
      rw [← hsame, Function.update_self, hobserved.buckets, if_pos hbucket]
      exact addInt32_eq (by omega) (by omega) (by unfold intMax; omega)
    · have hbucket : bucketOf kLimits costMs ≠ bucket := fun heq ↦ hsame (Fin.ext heq.symm)
      rw [Function.update_of_ne hsame, hobserved.buckets, if_neg hbucket, Nat.add_zero]
  · dsimp only
    rw [hobserved.count, List.length_append, List.length_singleton]
    exact addInt32_eq (by omega) (by omega) (by unfold intMax; omega)
  · dsimp only
    rw [hobserved.sum, List.sum_append, List.sum_singleton]
    exact addInt64_eq hsum.1 hlow (by omega)
  · intro cost hmem
    dsimp only
    rcases List.mem_append.mp hmem with hold | hnew
    · have hle := hobserved.le_maxCost cost hold
      split_ifs <;> omega
    · rw [List.mem_singleton.mp hnew]
      split_ifs <;> omega
  · dsimp only
    split_ifs
    · exact Or.inr (List.mem_append_right _ (List.mem_singleton_self _))
    · exact hobserved.maxCost.imp_right (List.mem_append_left _)
  · intro cost hmem
    dsimp only
    rcases List.mem_append.mp hmem with hold | hnew
    · have hle := hobserved.minCost_le cost hold
      split_ifs <;> omega
    · rw [List.mem_singleton.mp hnew]
      split_ifs <;> omega
  · dsimp only
    split_ifs
    · exact Or.inr (List.mem_append_right _ (List.mem_singleton_self _))
    · exact hobserved.minCost.imp_right (List.mem_append_left _)

/-- Assumes: fewer than `2 ^ 31` costs. They are all counted. -/
theorem observed_observeAll {costs : List ℤ} (hcosts : ∀ cost ∈ costs, IsCost cost)
    (hlength : costs.length < 2 ^ 31) : (new.observeAll costs).Observed costs := by
  induction costs using List.reverseRecOn with
  | nil => exact observed_new
  | append_singleton costs costMs ih =>
    rw [List.forall_mem_append, List.forall_mem_singleton] at hcosts
    rw [List.length_append, List.length_singleton] at hlength
    rw [observeAll, List.foldl_append]
    exact (ih hcosts.1 (Nat.lt_of_succ_lt hlength)).observe hcosts.1 hcosts.2 hlength

/-! ### The value for a target -/

/-- The value in a bucket: so far from its lower limit as the target is in its count. -/
def interpolate (target maxCost : ℤ) (bucket : ℕ) (before inBucket : ℤ) : ℤ :=
  lowerLimit bucket +
    ((target - before) * (upperLimit maxCost bucket - lowerLimit bucket)).tdiv inBucket

/-- Assumes: buckets that the cumulative count does not pass the target in, and then one in which it
does. The loop ends there. -/
theorem percentileFrom_append {target maxCost : ℤ} {before : List ℤ} {inBucket : ℤ}
    (after : List ℤ) {bucket : ℕ} {acc : ℤ} (hbefore : ∀ count ∈ before, 0 ≤ count)
    (hlow : acc + before.sum ≤ target) (hhigh : target < acc + before.sum + inBucket) :
    percentileFrom target maxCost bucket acc (before ++ inBucket :: after) =
      interpolate target maxCost (bucket + before.length) (acc + before.sum) inBucket := by
  induction before generalizing bucket acc with
  | nil =>
    rw [List.sum_nil, Int.add_zero] at hlow hhigh
    rw [List.nil_append, percentileFrom, if_pos hhigh, if_neg (by omega), Int.add_sub_cancel]
    simp only [List.length_nil, List.sum_nil, Nat.add_zero, Int.add_zero]
    rfl
  | cons count before ih =>
    rw [List.forall_mem_cons] at hbefore
    have hpos : 0 ≤ before.sum := List.sum_nonneg hbefore.2
    rw [List.sum_cons, ← Int.add_assoc] at hlow hhigh
    rw [List.cons_append, percentileFrom, if_neg (by omega), ih hbefore.2 hlow hhigh,
      List.length_cons, List.sum_cons, ← Int.add_assoc, Nat.add_right_comm, Nat.add_assoc]

/-- The value is in the range of the bucket. -/
theorem interpolate_bounds {target maxCost before inBucket : ℤ} {bucket : ℕ}
    (hrange : lowerLimit bucket ≤ upperLimit maxCost bucket) (hlow : before ≤ target)
    (hhigh : target < before + inBucket) :
    lowerLimit bucket ≤ interpolate target maxCost bucket before inBucket ∧
      interpolate target maxCost bucket before inBucket ≤ upperLimit maxCost bucket := by
  have hpart : 0 ≤ (target - before) * (upperLimit maxCost bucket - lowerLimit bucket) :=
    Int.mul_nonneg (by omega) (by omega)
  have hwhole : (target - before) * (upperLimit maxCost bucket - lowerLimit bucket) ≤
      inBucket * (upperLimit maxCost bucket - lowerLimit bucket) :=
    Int.mul_le_mul_of_nonneg_right (by omega) (by omega)
  have hfrom := Int.tdiv_nonneg hpart (by omega : 0 ≤ inBucket)
  have hto := Int.tdiv_le_tdiv (by omega : 0 < inBucket) hwhole
  rw [Int.mul_tdiv_cancel_left _ (by omega)] at hto
  unfold interpolate
  omega

/-- The value grows with the target. -/
theorem interpolate_mono {target target' maxCost before inBucket : ℤ} {bucket : ℕ}
    (hrange : lowerLimit bucket ≤ upperLimit maxCost bucket) (hle : target ≤ target')
    (hpos : 0 < inBucket) :
    interpolate target maxCost bucket before inBucket ≤
      interpolate target' maxCost bucket before inBucket := by
  have hpart : (target - before) * (upperLimit maxCost bucket - lowerLimit bucket) ≤
      (target' - before) * (upperLimit maxCost bucket - lowerLimit bucket) :=
    Int.mul_le_mul_of_nonneg_right (by omega) (by omega)
  exact Int.add_le_add_left (Int.tdiv_le_tdiv hpos hpart) _

/-- The limits grow. -/
theorem upperLimit_le_lowerLimit {maxCost : ℤ} {bucket later : ℕ} (hlt : bucket < later)
    (hlater : later < kNumBuckets) : upperLimit maxCost bucket ≤ lowerLimit later := by
  have hlimits : ∀ first second : Fin kNumBuckets, first < second →
      kLimits.getD first 0 ≤ kLimits.getD (second - 1) 0 := by decide
  rw [upperLimit, if_neg (by unfold kNumBuckets at *; omega), lowerLimit, if_neg (by omega)]
  exact (min_le_right _ _).trans (hlimits ⟨bucket, hlt.trans hlater⟩ ⟨later, hlater⟩ hlt)

/-- A cost is in the range of its bucket. -/
theorem mem_range_bucketIndex {cost maxCost : ℤ} (hcost : 0 ≤ cost) (hmax : cost ≤ maxCost) :
    lowerLimit (bucketIndex cost) ≤ cost ∧ cost ≤ upperLimit maxCost (bucketIndex cost) := by
  have hlt := (bucketIndex cost).isLt
  constructor
  · rw [lowerLimit]
    split_ifs with hfirst
    · exact hcost
    · have hposition : (bucketIndex cost : ℕ) - 1 < bucketOf kLimits cost :=
        Nat.sub_one_lt hfirst
      have hshort : (bucketIndex cost : ℕ) - 1 < kLimits.length :=
        hposition.trans_le (bucketOf_le_length kLimits cost)
      have hlimit := List.getElem?_eq_getElem hshort
      rw [List.getD_eq_getElem?_getD, hlimit]
      exact (lt_of_lt_bucketOf hposition hlimit).le
  · rw [upperLimit]
    split_ifs with hlast
    · exact hmax
    · have hshort : (bucketIndex cost : ℕ) < kLimits.length := by
        unfold kNumBuckets at hlt hlast
        exact Nat.lt_of_le_of_ne (Nat.le_of_lt_succ hlt) hlast
      have hlimit := List.getElem?_eq_getElem hshort
      rw [List.getD_eq_getElem?_getD, hlimit]
      exact le_min hmax (le_of_bucketOf hlimit)

section Observed

variable {costs : List ℤ} {hist : Histogram} {maxCost : ℤ}

/-- The counts of the first buckets are those of the costs before the next one. -/
theorem Observed.sum_take (hobserved : hist.Observed costs) {bucket : ℕ}
    (hbucket : bucket ≤ kNumBuckets) :
    ((List.ofFn hist.buckets).take bucket).sum = beforeBucket kLimits costs bucket := by
  induction bucket with
  | zero =>
    rw [beforeBucket_zero]
    rfl
  | succ bucket ih =>
    have hshort : bucket < (List.ofFn hist.buckets).length := by
      rw [List.length_ofFn]
      exact hbucket
    rw [List.sum_take_succ _ _ hshort, ih (Nat.le_of_succ_le hbucket), List.getElem_ofFn,
      hobserved.buckets, beforeBucket_succ, Nat.cast_add]

/-- The counts of all buckets together are the number of costs. -/
theorem Observed.sum_buckets (hobserved : hist.Observed costs) :
    ∑ bucket, hist.buckets bucket = hist.count := by
  have hsum := hobserved.sum_take (le_refl kNumBuckets)
  have hall : beforeBucket kLimits costs kNumBuckets = costs.length :=
    beforeBucket_length kLimits costs
  rw [List.take_of_length_le (List.length_ofFn.le), List.sum_ofFn, hall] at hsum
  rw [hsum, hobserved.count]

theorem Observed.maxCost_nonneg (hobserved : hist.Observed costs)
    (hcosts : ∀ cost ∈ costs, IsCost cost) : 0 ≤ hist.maxCost := by
  rcases hobserved.maxCost with hzero | hmem
  · exact hzero.ge
  · exact (hcosts _ hmem).1

/-- The largest cost is one of the costs, if there are any. -/
theorem Observed.maxCost_mem (hobserved : hist.Observed costs)
    (hcosts : ∀ cost ∈ costs, IsCost cost) (hne : costs ≠ []) : hist.maxCost ∈ costs := by
  rcases hobserved.maxCost with hzero | hmem
  · obtain ⟨cost, hcost⟩ := List.exists_mem_of_ne_nil costs hne
    have hle := hobserved.le_maxCost cost hcost
    have hlow := (hcosts cost hcost).1
    rw [hzero] at hle ⊢
    rwa [le_antisymm hlow hle]
  · exact hmem

/-- The smallest cost is one of the costs, if there are any. -/
theorem Observed.minCost_mem (hobserved : hist.Observed costs)
    (hcosts : ∀ cost ∈ costs, IsCost cost) (hne : costs ≠ []) : hist.minCost ∈ costs := by
  rcases hobserved.minCost with hstart | hmem
  · obtain ⟨cost, hcost⟩ := List.exists_mem_of_ne_nil costs hne
    have hle := hobserved.minCost_le cost hcost
    have hhigh := (hcosts cost hcost).2
    rw [hstart] at hle ⊢
    rwa [le_antisymm hle hhigh]
  · exact hmem

/-- The value for the rank of a cost is in the bucket of this cost. -/
theorem Observed.percentileAt_ranked (hobserved : hist.Observed costs) {rank : ℕ} {cost : ℤ}
    (hcost : (ranked costs)[rank]? = some cost) :
    percentileAt rank hist.buckets maxCost =
      interpolate rank maxCost (bucketIndex cost) (beforeBucket kLimits costs (bucketIndex cost))
        (inBucket kLimits costs (bucketIndex cost)) := by
  have hlt := (bucketIndex cost).isLt
  have hshort : (bucketIndex cost : ℕ) < (List.ofFn hist.buckets).length := by
    rw [List.length_ofFn]
    exact hlt
  have hsplit : List.ofFn hist.buckets = (List.ofFn hist.buckets).take (bucketIndex cost) ++
      hist.buckets (bucketIndex cost) :: (List.ofFn hist.buckets).drop (bucketIndex cost + 1) := by
    have hhead : (List.ofFn hist.buckets)[(bucketIndex cost : ℕ)] =
        hist.buckets (bucketIndex cost) := List.getElem_ofFn _
    rw [← hhead, ← List.drop_eq_getElem_cons hshort, List.take_append_drop]
  have hsum := hobserved.sum_take hlt.le
  have hwithin : beforeBucket kLimits costs (bucketIndex cost) ≤ rank ∧
      rank < beforeBucket kLimits costs (bucketIndex cost) +
        inBucket kLimits costs (bucketIndex cost) := within_bucketOf_ranked kLimits hcost
  have hnonneg : ∀ count ∈ (List.ofFn hist.buckets).take (bucketIndex cost), 0 ≤ count := by
    intro count hmem
    obtain ⟨bucket, rfl⟩ := List.mem_ofFn.mp (List.mem_of_mem_take hmem)
    rw [hobserved.buckets]
    exact Int.natCast_nonneg _
  rw [percentileAt, hsplit, percentileFrom_append _ hnonneg, hsum, hobserved.buckets,
    List.length_take_of_le hshort.le, Nat.zero_add, Int.zero_add]
  · rw [hsum]
    omega
  · rw [hsum, hobserved.buckets]
    omega

/-- The value for the rank of a cost is in the range of the bucket of this cost. -/
theorem Observed.percentileAt_bounds (hobserved : hist.Observed costs)
    (hcosts : ∀ cost ∈ costs, IsCost cost) {rank : ℕ} {cost : ℤ}
    (hcost : (ranked costs)[rank]? = some cost) :
    lowerLimit (bucketIndex cost) ≤ percentileAt rank hist.buckets hist.maxCost ∧
      percentileAt rank hist.buckets hist.maxCost ≤
        upperLimit hist.maxCost (bucketIndex cost) := by
  have hmem : cost ∈ costs := mem_ranked.mp (List.mem_of_getElem? hcost)
  have hrange := mem_range_bucketIndex (hcosts cost hmem).1 (hobserved.le_maxCost cost hmem)
  have hwithin : beforeBucket kLimits costs (bucketIndex cost) ≤ rank ∧
      rank < beforeBucket kLimits costs (bucketIndex cost) +
        inBucket kLimits costs (bucketIndex cost) := within_bucketOf_ranked kLimits hcost
  rw [hobserved.percentileAt_ranked hcost]
  exact interpolate_bounds (hrange.1.trans hrange.2) (by omega) (by omega)

/-- The value grows with the rank. -/
theorem Observed.percentileAt_mono (hobserved : hist.Observed costs)
    (hcosts : ∀ cost ∈ costs, IsCost cost) {rank rank' : ℕ} (hle : rank ≤ rank')
    (hrank' : rank' < costs.length) :
    percentileAt rank hist.buckets hist.maxCost ≤ percentileAt rank' hist.buckets hist.maxCost := by
  rw [← length_ranked] at hrank'
  have hcost := List.getElem?_eq_getElem (hle.trans_lt hrank')
  have hcost' := List.getElem?_eq_getElem hrank'
  have hsorted : (ranked costs)[rank] ≤ (ranked costs)[rank'] :=
    (ranked_pairwise costs).rel_get_of_le hle
  have hbuckets : bucketIndex (ranked costs)[rank] ≤ bucketIndex (ranked costs)[rank'] :=
    bucketOf_mono kLimits hsorted
  have hbounds := hobserved.percentileAt_bounds hcosts hcost
  have hbounds' := hobserved.percentileAt_bounds hcosts hcost'
  rcases hbuckets.eq_or_lt with hsame | hlt
  · have hrange := hbounds.1.trans hbounds.2
    have hwithin : beforeBucket kLimits costs (bucketIndex (ranked costs)[rank]) ≤ rank ∧
        rank < beforeBucket kLimits costs (bucketIndex (ranked costs)[rank]) +
          inBucket kLimits costs (bucketIndex (ranked costs)[rank]) :=
      within_bucketOf_ranked kLimits hcost
    rw [hobserved.percentileAt_ranked hcost, hobserved.percentileAt_ranked hcost', ← hsame]
    exact interpolate_mono hrange (by omega) (by omega)
  · exact hbounds.2.trans ((upperLimit_le_lowerLimit hlt (bucketIndex _).isLt).trans hbounds'.1)

/-- Below zero the loop ends at the first bucket. -/
theorem Observed.percentileAt_of_neg (hobserved : hist.Observed costs) {target : ℤ}
    (hneg : target < 0) :
    percentileAt target hist.buckets maxCost =
      interpolate target maxCost 0 0 (inBucket kLimits costs 0) := by
  have hfirst : hist.buckets ⟨0, by decide⟩ = inBucket kLimits costs 0 := hobserved.buckets _
  have hcount := Int.natCast_nonneg (inBucket kLimits costs 0)
  rw [percentileAt, show List.ofFn hist.buckets = hist.buckets ⟨0, by decide⟩ ::
    List.ofFn fun bucket : Fin 13 ↦ hist.buckets bucket.succ from List.ofFn_succ, hfirst,
    percentileFrom, if_pos (by omega), Int.add_sub_cancel]
  split_ifs with hzero
  · rw [interpolate, hzero, Int.tdiv_zero, Int.add_zero]
  · rfl

theorem lowerLimit_nonneg (cost : ℤ) : 0 ≤ lowerLimit (bucketIndex cost) := by
  have hlimits : ∀ bucket : Fin kNumBuckets, 0 ≤ lowerLimit bucket := by decide
  exact hlimits (bucketIndex cost)

/-- In the first bucket the value grows with the target, below zero too. -/
theorem interpolate_first_mono (hmax : 0 ≤ maxCost) {target target' : ℤ} (hle : target ≤ target')
    (count : ℕ) : interpolate target maxCost 0 0 count ≤ interpolate target' maxCost 0 0 count := by
  rcases Nat.eq_zero_or_pos count with rfl | hpos
  · simp only [interpolate, Nat.cast_zero, Int.tdiv_zero]
    exact le_rfl
  · have hrange : lowerLimit 0 ≤ upperLimit maxCost 0 := le_min hmax (by decide)
    exact interpolate_mono hrange hle (Int.natCast_pos.mpr hpos)

/-- The value grows with the target, whatever its sign. -/
theorem Observed.percentileAt_mono_int (hobserved : hist.Observed costs)
    (hcosts : ∀ cost ∈ costs, IsCost cost) {target target' : ℤ} (hle : target ≤ target')
    (htarget' : target' < costs.length) :
    percentileAt target hist.buckets hist.maxCost ≤
      percentileAt target' hist.buckets hist.maxCost := by
  have hmax := hobserved.maxCost_nonneg hcosts
  by_cases hneg : target < 0
  · rw [hobserved.percentileAt_of_neg hneg]
    by_cases hneg' : target' < 0
    · rw [hobserved.percentileAt_of_neg hneg']
      exact interpolate_first_mono hmax hle _
    · obtain ⟨rank', rfl⟩ := Int.eq_ofNat_of_zero_le (Int.not_lt.mp hneg')
      have hrank' : rank' < (ranked costs).length := by
        rw [length_ranked]
        exact Int.ofNat_lt.mp htarget'
      have hvalue := interpolate_first_mono hmax hneg.le (inBucket kLimits costs 0)
      have hzero : interpolate 0 hist.maxCost 0 0 (inBucket kLimits costs 0) = 0 := by
        rw [interpolate, Int.sub_zero, Int.zero_mul, Int.zero_tdiv]
        rfl
      have hbounds := hobserved.percentileAt_bounds hcosts (List.getElem?_eq_getElem hrank')
      rw [hzero] at hvalue
      exact hvalue.trans ((lowerLimit_nonneg _).trans hbounds.1)
  · obtain ⟨rank, rfl⟩ := Int.eq_ofNat_of_zero_le (Int.not_lt.mp hneg)
    obtain ⟨rank', rfl⟩ := Int.eq_ofNat_of_zero_le ((Int.not_lt.mp hneg).trans hle)
    exact hobserved.percentileAt_mono hcosts (Int.ofNat_le.mp hle) (Int.ofNat_lt.mp htarget')

/-- The value for the largest rank does not pass the largest cost. -/
theorem Observed.percentileAt_le (hobserved : hist.Observed costs)
    (hcosts : ∀ cost ∈ costs, IsCost cost) {target : ℤ} (htarget : target < costs.length)
    (hne : costs ≠ []) : percentileAt target hist.buckets hist.maxCost ≤ hist.maxCost := by
  have hpos := List.length_pos_iff.mpr hne
  have hlast : costs.length - 1 < (ranked costs).length := by
    rw [length_ranked]
    omega
  have hmono := hobserved.percentileAt_mono_int hcosts
    (by omega : target ≤ ((costs.length - 1 : ℕ) : ℤ)) (by omega)
  have hbounds := hobserved.percentileAt_bounds hcosts (List.getElem?_eq_getElem hlast)
  have hupper : ∀ bucket : ℕ, upperLimit hist.maxCost bucket ≤ hist.maxCost := by
    intro bucket
    unfold upperLimit
    split_ifs
    · exact le_rfl
    · exact min_le_left _ _
  exact hmono.trans (hbounds.2.trans (hupper _))

end Observed

/-! ### Percentiles -/

theorem truncate_mono {low high : ℚ} (hle : low ≤ high) : truncate low ≤ truncate high := by
  unfold truncate
  by_cases hlow : 0 ≤ low
  · rw [if_pos hlow, if_pos (hlow.trans hle)]
    exact Int.floor_mono hle
  · rw [if_neg hlow]
    split_ifs with hhigh
    · have hceil : ⌈low⌉ ≤ 0 := Int.ceil_le.mpr (by exact_mod_cast (not_le.mp hlow).le)
      exact hceil.trans (Int.floor_nonneg.mpr hhigh)
    · exact Int.ceil_mono hle

/-- The target of `percentile`, which is less than the number of costs. -/
def target (p : ℚ) (total : ℤ) : ℤ :=
  if truncate (total * p) ≥ total then total - 1 else truncate (total * p)

theorem target_lt (p : ℚ) (total : ℤ) : target p total < total := by
  unfold target
  split_ifs <;> omega

theorem target_mono {p q : ℚ} (hle : p ≤ q) {total : ℤ} (htotal : 0 ≤ total) :
    target p total ≤ target q total := by
  have hmono : truncate (total * p) ≤ truncate (total * q) :=
    truncate_mono (mul_le_mul_of_nonneg_left hle (by exact_mod_cast htotal))
  unfold target
  split_ifs <;> omega

theorem percentile_eq (p : ℚ) {total : ℤ} (htotal : total ≠ 0)
    (buckets : Fin kNumBuckets → ℤ) (maxCost : ℤ) :
    percentile p total buckets maxCost = percentileAt (target p total) buckets maxCost := by
  rw [percentile, if_neg htotal]
  rfl

/-- What a snapshot says of the costs that were observed since the one before. -/
structure Percentiles (costs : List ℤ) (snap : Histogram) : Prop where
  count : ∑ bucket, snap.buckets bucket = snap.count
  count_eq : snap.count = costs.length
  maxCost : IsGreatest {cost | cost ∈ costs} snap.maxCost
  minCost : IsLeast {cost | cost ∈ costs} snap.minCost
  sum : snap.sum = costs.sum
  /-- The value for a target is between the lower limit of the bucket of the cost with this rank and
  the smaller one of its upper limit and the largest cost. -/
  bounds : ∀ (rank : ℕ) (cost : ℤ), (ranked costs)[rank]? = some cost →
    lowerLimit (bucketIndex cost) ≤ percentileAt rank snap.buckets snap.maxCost ∧
      percentileAt rank snap.buckets snap.maxCost ≤
        (kLimits[(bucketIndex cost : ℕ)]?).elim snap.maxCost fun limit ↦ min limit snap.maxCost
  mono : ∀ p q : ℚ, p ≤ q → percentile p snap.count snap.buckets snap.maxCost ≤
    percentile q snap.count snap.buckets snap.maxCost
  le_maxCost : ∀ p : ℚ, percentile p snap.count snap.buckets snap.maxCost ≤ snap.maxCost
  bill : snap.bill.p50 ≤ snap.bill.p80 ∧ snap.bill.p80 ≤ snap.bill.p90 ∧
    snap.bill.p90 ≤ snap.bill.p95 ∧ snap.bill.p95 ≤ snap.bill.p99

theorem upperLimit_eq (maxCost cost : ℤ) :
    upperLimit maxCost (bucketIndex cost) =
      (kLimits[(bucketIndex cost : ℕ)]?).elim maxCost fun limit ↦ min limit maxCost := by
  have hlimits : ∀ bucket : Fin kNumBuckets, (bucket : ℕ) = kNumBuckets - 1 ∧
      kLimits[(bucket : ℕ)]? = none ∨ (bucket : ℕ) ≠ kNumBuckets - 1 ∧
        kLimits[(bucket : ℕ)]? = some (kLimits.getD bucket 0) := by decide
  rcases hlimits (bucketIndex cost) with ⟨hlast, hnone⟩ | ⟨hnot, hsome⟩
  · rw [upperLimit, if_pos hlast, hnone, Option.elim_none]
  · rw [upperLimit, if_neg hnot, hsome, Option.elim_some, min_comm]

/-- A percentile of costs grows with `p`. -/
theorem Observed.percentile_mono {costs : List ℤ} {hist : Histogram}
    (hobserved : hist.Observed costs) (hcosts : ∀ cost ∈ costs, IsCost cost) (hne : costs ≠ [])
    {p q : ℚ} (hle : p ≤ q) :
    percentile p hist.count hist.buckets hist.maxCost ≤
      percentile q hist.count hist.buckets hist.maxCost := by
  have hpos := List.length_pos_iff.mpr hne
  have hcount := hobserved.count
  rw [percentile_eq p (by omega), percentile_eq q (by omega)]
  refine hobserved.percentileAt_mono_int hcosts (target_mono hle (by omega)) ?_
  rw [← hcount]
  exact target_lt q _

/-- Assumes: costs that an `int` may have, at least one and fewer than `2 ^ 31`, which are observed
after a snapshot. The next snapshot says of them what it should. -/
theorem percentiles_of_costs (before : Histogram) {costs : List ℤ}
    (hcosts : ∀ cost ∈ costs, IsCost cost) (hne : costs ≠ []) (hlength : costs.length < 2 ^ 31) :
    Percentiles costs ((before.snapshot.2.observeAll costs).snapshot.1) := by
  show Percentiles costs (new.observeAll costs)
  have hobserved := observed_observeAll hcosts hlength
  have hpos := List.length_pos_iff.mpr hne
  have hcount : 0 < (new.observeAll costs).count := by
    rw [hobserved.count]
    omega
  refine ⟨?_, hobserved.count, ⟨?_, hobserved.le_maxCost⟩, ⟨?_, hobserved.minCost_le⟩,
    hobserved.sum, ?_, ?_, ?_, ?_⟩
  · exact hobserved.sum_buckets
  · exact hobserved.maxCost_mem hcosts hne
  · exact hobserved.minCost_mem hcosts hne
  · intro rank cost hcost
    rw [← upperLimit_eq]
    exact hobserved.percentileAt_bounds hcosts hcost
  · exact fun p q hle ↦ hobserved.percentile_mono hcosts hne hle
  · intro p
    rw [percentile_eq p hcount.ne']
    refine hobserved.percentileAt_le hcosts ?_ hne
    rw [← hobserved.count]
    exact target_lt p _
  · have hbill : (new.observeAll costs).bill = _ := if_pos hcount
    rw [hbill]
    exact ⟨hobserved.percentile_mono hcosts hne (by norm_num),
      hobserved.percentile_mono hcosts hne (by norm_num),
      hobserved.percentile_mono hcosts hne (by norm_num),
      hobserved.percentile_mono hcosts hne (by norm_num)⟩

/-- Costs at a limit, in a bucket and behind the last limit. -/
theorem percentiles_three_costs :
    Percentiles [5, 700, 20000] ((new.snapshot.2.observeAll [5, 700, 20000]).snapshot.1) :=
  percentiles_of_costs new (by unfold IsCost intMax; decide) (by decide) (by decide)

end Histogram

end TszyUlt.Zbf
