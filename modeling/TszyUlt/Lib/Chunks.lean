import Mathlib.Data.List.Forall2

/-!
# Lists in chunks

`List.toChunks` cuts a list into chunks of a given length, the last one shorter. The chunks make up
the list (`flatten_toChunks`), and a list that is made up of blocks of the given length is cut into
these blocks (`toChunks_flatten`). A function that inverts another on each block inverts it block by
block (`eq_of_forall₂_inverts`).
-/

set_option autoImplicit false
set_option relaxedAutoImplicit false

namespace TszyUlt.Lib

variable {α : Type*}

theorem toChunks_go_acc (n : ℕ) (xs : List α) (chunk : Array α) (done : Array (List α)) :
    List.toChunks.go n xs chunk done = done.toList ++ List.toChunks.go n xs chunk #[] := by
  induction xs generalizing chunk done with
  | nil => simp [List.toChunks.go]
  | cons x xs ih =>
    unfold List.toChunks.go
    split_ifs
    · rw [ih, ih _ (#[].push chunk.toList)]
      simp
    · rw [ih]

/-- The current chunk is filled up before the next one begins. -/
theorem toChunks_go_eq {n : ℕ} (xs : List α) (chunk : Array α) (hpos : 0 < chunk.size)
    (hsize : chunk.size ≤ n) :
    List.toChunks.go n xs chunk #[] =
      (chunk.toList ++ xs.take (n - chunk.size)) :: (xs.drop (n - chunk.size)).toChunks n := by
  induction xs generalizing chunk with
  | nil => simp [List.toChunks.go, List.toChunks]
  | cons x xs ih =>
    have hn : n ≠ 0 := by omega
    unfold List.toChunks.go
    split_ifs with hfull
    · have hfull : chunk.size = n := by simpa using hfull
      rw [toChunks_go_acc, hfull, Nat.sub_self, List.take_zero, List.drop_zero]
      cases n with
      | zero => exact absurd rfl hn
      | succ n => simp [List.toChunks]
    · have hroom : chunk.size < n := by
        have hne : chunk.size ≠ n := by simpa using hfull
        omega
      have hpush : (chunk.push x).size ≤ n := by
        rw [Array.size_push]
        exact hroom
      rw [ih (chunk.push x) (by simp) hpush]
      have hsub : n - chunk.size = n - (chunk.push x).size + 1 := by
        rw [Array.size_push]
        omega
      rw [hsub, List.take_succ_cons, List.drop_succ_cons]
      simp

/-- Assumes: a positive length. The first chunk, and the chunks of the rest. -/
theorem toChunks_of_ne_nil {n : ℕ} (hn : 0 < n) {xs : List α} (hxs : xs ≠ []) :
    xs.toChunks n = xs.take n :: (xs.drop n).toChunks n := by
  cases xs with
  | nil => exact absurd rfl hxs
  | cons x xs =>
    cases n with
    | zero => exact absurd hn (by decide)
    | succ n =>
      have hgo := toChunks_go_eq (n := n + 1) xs #[x] (by simp) (by simp)
      rw [List.toChunks, hgo]
      · simp
      · exact Nat.succ_ne_zero n

/-- Induction over a list chunk by chunk. -/
theorem chunk_induction {n : ℕ} (hn : 0 < n) {motive : List α → Prop} (nil : motive [])
    (step : ∀ xs, xs ≠ [] → motive (xs.drop n) → motive xs) (xs : List α) : motive xs := by
  induction hlength : xs.length using Nat.strongRecOn generalizing xs with
  | _ length ih =>
    by_cases hxs : xs = []
    · rw [hxs]
      exact nil
    · refine step xs hxs (ih (xs.drop n).length ?_ _ rfl)
      have hpos := List.length_pos_iff.mpr hxs
      rw [List.length_drop]
      omega

theorem flatten_toChunks {n : ℕ} (hn : 0 < n) (xs : List α) : (xs.toChunks n).flatten = xs := by
  induction xs using chunk_induction hn with
  | nil => rfl
  | step xs hxs ih => rw [toChunks_of_ne_nil hn hxs, List.flatten_cons, ih, List.take_append_drop]

/-- A chunk is not empty, and no longer than the given length. -/
theorem length_of_mem_toChunks {n : ℕ} (hn : 0 < n) {xs chunk : List α}
    (hmem : chunk ∈ xs.toChunks n) : 0 < chunk.length ∧ chunk.length ≤ n := by
  induction xs using chunk_induction hn with
  | nil => cases hmem
  | step xs hxs ih =>
    rw [toChunks_of_ne_nil hn hxs, List.mem_cons] at hmem
    rcases hmem with rfl | hmem
    · have hpos := List.length_pos_iff.mpr hxs
      rw [List.length_take]
      omega
    · exact ih hmem

theorem length_toChunks {n : ℕ} (hn : 0 < n) (xs : List α) :
    (xs.toChunks n).length = (xs.length + n - 1) / n := by
  induction xs using chunk_induction hn with
  | nil =>
    rw [List.length_nil, Nat.zero_add, Nat.div_eq_of_lt (Nat.sub_lt hn Nat.one_pos)]
    rfl
  | step xs hxs ih =>
    have hpos := List.length_pos_iff.mpr hxs
    rw [toChunks_of_ne_nil hn hxs, List.length_cons, ih, List.length_drop]
    rcases Nat.lt_or_ge xs.length n with hshort | hlong
    · rw [Nat.sub_eq_zero_of_le (Nat.le_of_lt hshort), Nat.zero_add,
        Nat.div_eq_of_lt (Nat.sub_lt hn Nat.one_pos)]
      exact (Nat.div_eq_of_lt_le (by omega) (by omega)).symm
    · rw [show xs.length + n - 1 = xs.length - n + n - 1 + n by omega, Nat.add_div_right _ hn]

/-- Assumes: blocks of the given positive length. They are the chunks of the list that they make
up. -/
theorem toChunks_flatten {n : ℕ} (hn : 0 < n) {blocks : List (List α)}
    (hlength : ∀ block ∈ blocks, block.length = n) : blocks.flatten.toChunks n = blocks := by
  induction blocks with
  | nil => rfl
  | cons block blocks ih =>
    have hblock : block.length = n := hlength block List.mem_cons_self
    have hne : (block :: blocks).flatten ≠ [] := by
      rw [List.flatten_cons]
      refine List.append_ne_nil_of_left_ne_nil ?_ _
      rw [← List.length_pos_iff, hblock]
      exact hn
    rw [toChunks_of_ne_nil hn hne, List.flatten_cons, ← hblock, List.take_left, List.drop_left,
      hblock, ih fun other hother ↦ hlength other (List.mem_cons_of_mem _ hother)]

/-! ### Functions on blocks -/

/-- What every related element has. -/
theorem forall_mem_of_forall₂ {β : Type*} {related : α → β → Prop} {property : β → Prop}
    (hproperty : ∀ x y, related x y → property y) {xs : List α} {ys : List β}
    (hrelated : List.Forall₂ related xs ys) : ∀ y ∈ ys, property y := by
  induction hrelated with
  | nil => exact fun y hy ↦ absurd hy List.not_mem_nil
  | cons hhead _ ih =>
    intro y hy
    rcases List.mem_cons.mp hy with rfl | hy
    · exact hproperty _ _ hhead
    · exact ih y hy

/-- Elements that are related each to something are related to a list. -/
theorem exists_forall₂ {β : Type*} {related : α → β → Prop} {xs : List α}
    (hall : ∀ x ∈ xs, ∃ y, related x y) : ∃ ys, List.Forall₂ related xs ys := by
  induction xs with
  | nil => exact ⟨[], .nil⟩
  | cons x xs ih =>
    rw [List.forall_mem_cons] at hall
    obtain ⟨y, hy⟩ := hall.1
    obtain ⟨ys, hys⟩ := ih hall.2
    exact ⟨y :: ys, .cons hy hys⟩

/-- Assumes: the second function gives back what the first was applied to, if both succeed. So they
do block by block. -/
theorem eq_of_forall₂_inverts {β : Type*} {first : α → Option β} {second : β → Option α}
    (hinverts : ∀ x y back, first x = some y → second y = some back → back = x)
    {xs backs : List α} {ys : List β} (hfirst : List.Forall₂ (fun x y ↦ first x = some y) xs ys)
    (hsecond : List.Forall₂ (fun y back ↦ second y = some back) ys backs) : backs = xs := by
  induction hfirst generalizing backs with
  | nil =>
    cases hsecond
    rfl
  | cons hhead _ ih =>
    cases hsecond with
    | cons hback hrest => rw [hinverts _ _ _ hhead hback, ih hrest]

end TszyUlt.Lib
