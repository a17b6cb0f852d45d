import Mathlib.Data.Int.CardIntervalMod
import Mathlib.Data.List.Nodup

/-!
# Round robin

A cursor goes through a list from front to back and starts again. `cyclic` is what it has taken
after a number of turns. `cyclic_succ` is one more turn, `nextCursor_mod` says that the cursor is
the number of turns modulo the length, and `count_cyclic_bounds` that the turns are shared out
evenly: of `k` turns over `m` items each item got `k / m`, rounded down or up.

`scan` is the search for an item that passes a test, one turn after the other. A search of as many
turns as there are items finds one if there is one (`scan_eq_none`), and it is the first in cyclic
order from the cursor on (`firstFrom_of_scan`).
-/

set_option autoImplicit false
set_option relaxedAutoImplicit false

namespace TszyUlt.Lib

variable {α : Type*}

/-- The cursor after a turn over a list of a given length. -/
def nextCursor (cursor length : ℕ) : ℕ := if cursor + 1 = length then 0 else cursor + 1

/-- What a cursor that starts at the front takes in its first turns. -/
def cyclic (items : List α) (turns : ℕ) : List α :=
  (List.range turns).filterMap fun turn ↦ items[turn % items.length]?

/-- After a number of turns the cursor is this number modulo the length. -/
theorem nextCursor_mod (turns : ℕ) {length : ℕ} (hlength : 0 < length) :
    nextCursor (turns % length) length = (turns + 1) % length := by
  have hlt := Nat.mod_lt turns hlength
  unfold nextCursor
  by_cases hone : length = 1
  · subst hone
    rw [Nat.mod_one, Nat.mod_one]
    rfl
  have hmod : 1 % length = 1 := Nat.mod_eq_of_lt (by omega)
  rw [Nat.add_mod_eq_ite, hmod]
  by_cases hend : turns % length + 1 = length
  · rw [if_pos hend, if_pos hend.ge, hend, Nat.sub_self]
  · rw [if_neg hend, if_neg (by omega)]

/-- One more turn takes the item at the cursor. -/
theorem cyclic_succ {items : List α} {turns : ℕ} {item : α}
    (hitem : items[turns % items.length]? = some item) :
    cyclic items (turns + 1) = cyclic items turns ++ [item] := by
  rw [cyclic, List.range_succ, List.filterMap_append]
  exact congrArg (cyclic items turns ++ ·) (List.filterMap_cons_some hitem)

/-! ### Searching -/

/-- The search for an item that passes a test, of at most a number of turns: the cursor afterwards,
and the position that was found. A cursor at the end goes on at the front. -/
def scan (items : List α) (test : α → Bool) : ℕ → ℕ → ℕ × Option ℕ
  | 0, cursor => (cursor, none)
  | turns + 1, cursor =>
    let position := if cursor = items.length then 0 else cursor
    if (items[position]?).any test then (position + 1, some position)
    else scan items test turns (position + 1)

section Scan

variable {items : List α} {test : α → Bool}

/-- Where the search looks first. -/
theorem scan_position {cursor : ℕ} (hcursor : cursor ≤ items.length) (hitems : items ≠ []) :
    (if cursor = items.length then 0 else cursor) = cursor % items.length ∧
      cursor % items.length < items.length := by
  have hpos := List.length_pos_iff.mpr hitems
  refine ⟨?_, Nat.mod_lt cursor hpos⟩
  split_ifs with hend
  · rw [hend, Nat.mod_self]
  · exact (Nat.mod_eq_of_lt (by omega)).symm

/-- The cursor stays in the list or at its end. -/
theorem scan_cursor_le {turns cursor : ℕ} (hcursor : cursor ≤ items.length)
    (hturns : turns ≤ items.length) : (scan items test turns cursor).1 ≤ items.length := by
  induction turns generalizing cursor with
  | zero => exact hcursor
  | succ turns ih =>
    have hitems : items ≠ [] := List.ne_nil_of_length_pos (Nat.zero_lt_of_lt hturns)
    obtain ⟨hposition, hlt⟩ := scan_position hcursor hitems
    rw [scan, hposition]
    split_ifs
    · exact hlt
    · exact ih hlt (Nat.le_of_succ_le hturns)

/-- The item that was found passes the test. -/
theorem test_of_scan {turns cursor position : ℕ}
    (hfound : (scan items test turns cursor).2 = some position) :
    ∃ item, items[position]? = some item ∧ test item = true := by
  induction turns generalizing cursor with
  | zero => cases hfound
  | succ turns ih =>
    rw [scan] at hfound
    by_cases hany : (items[if cursor = items.length then 0 else cursor]?).any test = true
    · rw [if_pos hany] at hfound
      obtain rfl : (if cursor = items.length then 0 else cursor) = position :=
        Option.some.inj hfound
      exact (Option.any_eq_true _ _).mp hany
    · rw [if_neg hany] at hfound
      exact ih hfound

/-- A position whose item passes the test, with none before it in cyclic order from a start on. -/
def FirstFrom (items : List α) (test : α → Bool) (start position : ℕ) : Prop :=
  ∃ turn < items.length, position = (start + turn) % items.length ∧
    (items[position]?).any test = true ∧
    ∀ earlier < turn, (items[(start + earlier) % items.length]?).any test = false

/-- The position that was found is that of one of the turns, and no earlier one would have done. -/
theorem turn_of_scan {turns cursor position : ℕ} (hcursor : cursor ≤ items.length)
    (hitems : items ≠ []) (hfound : (scan items test turns cursor).2 = some position) :
    ∃ turn < turns, position = (cursor + turn) % items.length ∧
      (items[position]?).any test = true ∧
      ∀ earlier < turn, (items[(cursor + earlier) % items.length]?).any test = false := by
  induction turns generalizing cursor with
  | zero => cases hfound
  | succ turns ih =>
    obtain ⟨hposition, hlt⟩ := scan_position hcursor hitems
    rw [scan, hposition] at hfound
    by_cases hany : (items[cursor % items.length]?).any test = true
    · rw [if_pos hany] at hfound
      obtain rfl : cursor % items.length = position := Option.some.inj hfound
      exact ⟨0, Nat.succ_pos turns, rfl, hany, fun earlier h ↦ absurd h (Nat.not_lt_zero earlier)⟩
    · rw [if_neg hany] at hfound
      obtain ⟨turn, hturn, hat, htest, hearlier⟩ := ih hlt hfound
      have hshift : ∀ later, (cursor % items.length + 1 + later) % items.length =
          (cursor + (later + 1)) % items.length := by
        intro later
        rw [Nat.add_assoc, Nat.mod_add_mod, Nat.add_comm 1 later]
      refine ⟨turn + 1, Nat.succ_lt_succ hturn, hat.trans (hshift turn), htest, ?_⟩
      rintro (_ | earlier) hlater
      · exact eq_false_of_ne_true hany
      · exact hshift earlier ▸ hearlier earlier (Nat.lt_of_succ_lt_succ hlater)

/-- A search of as many turns as there are items finds the first one from the cursor on. -/
theorem firstFrom_of_scan {cursor position : ℕ} (hcursor : cursor ≤ items.length)
    (hitems : items ≠ []) (hfound : (scan items test items.length cursor).2 = some position) :
    FirstFrom items test cursor position :=
  turn_of_scan hcursor hitems hfound

/-- A search that found nothing has looked at as many positions as it had turns. -/
theorem not_test_of_scan_eq_none {turns cursor : ℕ} (hcursor : cursor ≤ items.length)
    (hitems : items ≠ []) (hnone : (scan items test turns cursor).2 = none) :
    ∀ turn < turns, (items[(cursor + turn) % items.length]?).any test = false := by
  induction turns generalizing cursor with
  | zero => exact fun turn hturn ↦ absurd hturn (Nat.not_lt_zero turn)
  | succ turns ih =>
    obtain ⟨hposition, hlt⟩ := scan_position hcursor hitems
    rw [scan, hposition] at hnone
    split_ifs at hnone with hany
    intro turn hturn
    cases turn with
    | zero => exact eq_false_of_ne_true hany
    | succ turn =>
      have hshift : (cursor % items.length + 1 + turn) % items.length =
          (cursor + (turn + 1)) % items.length := by
        rw [Nat.add_assoc, Nat.mod_add_mod, Nat.add_comm 1 turn]
      exact hshift ▸ ih hlt hnone turn (Nat.lt_of_succ_lt_succ hturn)

/-- A search of as many turns as there are items finds one that passes the test, unless there is
none. -/
theorem scan_eq_none {cursor : ℕ} (hcursor : cursor ≤ items.length)
    (hnone : (scan items test items.length cursor).2 = none) :
    ∀ item ∈ items, test item = false := by
  intro item hitem
  obtain ⟨position, hposition, rfl⟩ := List.getElem_of_mem hitem
  have hitems : items ≠ [] := List.ne_nil_of_mem hitem
  have hpos := List.length_pos_iff.mpr hitems
  -- the turn in which the cursor is at the position
  have hturn : (cursor + (position + (items.length - cursor)) % items.length) % items.length =
      position := by
    rw [Nat.add_mod_mod, show cursor + (position + (items.length - cursor)) =
      position + items.length by omega, Nat.add_mod_right, Nat.mod_eq_of_lt hposition]
  have hlooked := not_test_of_scan_eq_none hcursor hitems hnone
    ((position + (items.length - cursor)) % items.length) (Nat.mod_lt _ hpos)
  rwa [hturn, List.getElem?_eq_getElem hposition, Option.any_some] at hlooked

end Scan

/-! ### Counting -/

variable [DecidableEq α]

/-- How often the item at a position was taken. -/
theorem count_cyclic {items : List α} (hitems : items.Nodup) {position : ℕ}
    (hposition : position < items.length) (turns : ℕ) :
    (cyclic items turns).count items[position] =
      turns.count (· ≡ position [MOD items.length]) := by
  induction turns with
  | zero => rfl
  | succ turns ih =>
    have hlt := Nat.mod_lt turns (Nat.zero_lt_of_lt hposition)
    have hturn : turns ≡ position [MOD items.length] ↔ turns % items.length = position := by
      rw [Nat.ModEq, Nat.mod_eq_of_lt hposition]
    rw [cyclic_succ (List.getElem?_eq_getElem hlt), List.count_append, ih, Nat.count_succ,
      List.count_singleton]
    simp only [beq_iff_eq, hitems.getElem_inj_iff, hturn]

/-- Of `k` turns over `m` items each item got `k / m`, rounded down or up. -/
theorem count_cyclic_bounds {items : List α} (hitems : items.Nodup) {item : α}
    (hmem : item ∈ items) (turns : ℕ) :
    (cyclic items turns).count item = turns / items.length ∨
      (cyclic items turns).count item = (turns + items.length - 1) / items.length := by
  obtain ⟨position, hposition, rfl⟩ := List.getElem_of_mem hmem
  have hpos := Nat.zero_lt_of_lt hposition
  rw [count_cyclic hitems hposition, Nat.count_modEq_card _ hpos, Nat.mod_eq_of_lt hposition]
  by_cases hmore : position < turns % items.length
  · refine Or.inr ?_
    have hsplit := Nat.div_add_mod turns items.length
    have hlast : turns + items.length - 1 =
        (turns % items.length - 1) + items.length * (turns / items.length + 1) := by
      rw [Nat.mul_add, Nat.mul_one]
      omega
    have hshort : (turns % items.length - 1) / items.length = 0 :=
      Nat.div_eq_of_lt (by have := Nat.mod_lt turns hpos; omega)
    rw [if_pos hmore, hlast, Nat.add_mul_div_left _ _ hpos, hshort, Nat.zero_add]
  · exact Or.inl (by rw [if_neg hmore, Nat.add_zero])

end TszyUlt.Lib
