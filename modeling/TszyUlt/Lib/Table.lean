import Mathlib.Data.List.Induction
import Mathlib.Data.Nat.Notation
import Mathlib.Data.Option.Basic
import Mathlib.Logic.Function.Basic
import Mathlib.Tactic.SplitIfs

/-!
# Tables and sharded tables

A `Table` is a map from keys to values, given by its lookups. `insertNew` keeps an entry that is
there already, as `std::unordered_map::insert` does; `erase` removes one key; `removeIf` removes the
entries whose value satisfies a test. Where the values are lists, `push` adds to one of them, and
`grouped` has the values of some entries by their keys (`grouped_apply`).

A `Sharded` table is a family of tables with an index that says in which of them a key is kept, so
that each of them can be locked on its own. `Sharded.view` is the table it stands for: inserting and
erasing a key in its shard is inserting and erasing it in the view (`view_insertNew`, `view_erase`),
and a sweep over one shard removes the entries that the test selects there (`view_removeIf`). A
shard that was swept stays clear of the entries that the sweep removes as long as no such entry is
inserted there (`ClearOf`).

A register is a list whose records are numbered by their positions. A record is changed in place or
added at the end, and the others keep their numbers (`getElem?_set_cases`, `getElem?_concat_cases`).
`Exclusive` says that no two records of a register hold the same thing. Where each record holds a
list of things, a thing that is held once has one holder (`existsUnique_holder`).
-/

set_option autoImplicit false
set_option relaxedAutoImplicit false

namespace TszyUlt.Lib

variable {I K V : Type*} [DecidableEq I]

/-- A map from keys to values. -/
abbrev Table (K V : Type*) := K → Option V

namespace Table

/-- The table without entries. -/
def empty : Table K V := fun _ ↦ none

/-- The table without the entries whose value satisfies a test. -/
def removeIf (table : Table K V) (test : V → Bool) : Table K V :=
  fun key ↦ (table key).filter fun value ↦ !test value

variable [DecidableEq K]

/-- A new entry, unless the key has one. -/
def insertNew (table : Table K V) (key : K) (value : V) : Table K V :=
  if (table key).isSome then table else Function.update table key (some value)

/-- The table without the entry of a key. -/
def erase (table : Table K V) (key : K) : Table K V := Function.update table key none

theorem insertNew_of_none {table : Table K V} {key : K} (hnone : table key = none) (value : V) :
    table.insertNew key value = Function.update table key (some value) := by
  rw [insertNew, hnone]
  rfl

theorem insertNew_of_ne (table : Table K V) {key other : K} (hne : other ≠ key) (value : V) :
    table.insertNew key value other = table other := by
  unfold insertNew
  split_ifs
  · rfl
  · exact Function.update_of_ne hne _ _

@[simp] theorem erase_self (table : Table K V) (key : K) : table.erase key key = none := by
  rw [erase, Function.update_self]

theorem erase_of_ne (table : Table K V) {key other : K} (hne : other ≠ key) :
    table.erase key other = table other := by
  rw [erase, Function.update_of_ne hne]

/-- An entry after an insertion is the new one, or was there before. -/
theorem insertNew_eq_some {table : Table K V} {key other : K} {value found : V}
    (hfound : table.insertNew key value other = some found) :
    table other = some found ∨ found = value := by
  by_cases hkey : other = key
  · subst hkey
    unfold insertNew at hfound
    split_ifs at hfound
    · exact .inl hfound
    · rw [Function.update_self] at hfound
      exact .inr (Option.some.inj hfound).symm
  · rw [insertNew_of_ne table hkey] at hfound
    exact .inl hfound

/-- What a key has after an insertion. -/
theorem insertNew_self_eq_some_iff {table : Table K V} {key : K} {value : V} :
    table.insertNew key value key = some value ↔ table key = none ∨ table key = some value := by
  unfold insertNew
  split_ifs with hsome
  · refine ⟨Or.inr, fun hcases ↦ hcases.resolve_left fun hnone ↦ ?_⟩
    rw [hnone] at hsome
    cases hsome
  · rw [Function.update_self]
    exact iff_of_true rfl (Or.inl (Option.not_isSome_iff_eq_none.mp hsome))

/-- An insertion leaves the entries that are there. -/
theorem insertNew_of_some {table : Table K V} {other : K} {found : V}
    (hfound : table other = some found) (key : K) (value : V) :
    table.insertNew key value other = some found := by
  by_cases hkey : other = key
  · rw [insertNew, ← hkey, hfound]
    exact hfound
  · rw [insertNew_of_ne table hkey]
    exact hfound

theorem erase_insertNew (table : Table K V) (key : K) (value : V) :
    (table.insertNew key value).erase key = table.erase key := by
  funext other
  by_cases hkey : other = key
  · rw [hkey, erase_self, erase_self]
  · rw [erase_of_ne _ hkey, erase_of_ne _ hkey, insertNew_of_ne _ hkey]

theorem erase_eq_self_iff {table : Table K V} {key : K} :
    table.erase key = table ↔ table key = none := by
  rw [erase, Function.update_eq_self_iff, eq_comm]

/-- An entry that is left was there before. -/
theorem erase_eq_some {table : Table K V} {key other : K} {found : V}
    (hfound : table.erase key other = some found) : table other = some found := by
  by_cases hkey : other = key
  · subst hkey
    rw [erase_self] at hfound
    cases hfound
  · rwa [erase_of_ne table hkey] at hfound

/-- One more value at the end of the list of a key, as `operator[]` and `push_back` put it there. -/
def push (table : Table K (List V)) (key : K) (value : V) : Table K (List V) :=
  Function.update table key (some ((table key).getD [] ++ [value]))

/-- The lists of values by their keys. -/
def grouped (entries : List (K × V)) : Table K (List V) :=
  entries.foldl (fun table entry ↦ table.push entry.1 entry.2) empty

/-- The list of a key has its values in their order, and a key without values has no list. -/
theorem grouped_apply (entries : List (K × V)) (key : K) :
    grouped entries key =
      if entries.filter (fun entry ↦ entry.1 = key) = [] then none
      else some ((entries.filter fun entry ↦ entry.1 = key).map Prod.snd) := by
  induction entries using List.reverseRecOn with
  | nil => rfl
  | append_singleton entries entry ih =>
    rw [grouped, List.foldl_append, ← grouped, List.foldl_cons, List.foldl_nil, push,
      List.filter_append]
    by_cases hkey : key = entry.1
    · subst hkey
      have hmine : [entry].filter (fun other ↦ other.1 = entry.1) = [entry] := by simp
      rw [Function.update_self, ih, hmine, if_neg (List.concat_ne_nil _ _), List.map_append]
      congr 2
      split_ifs with hnil
      · rw [hnil]
        rfl
      · rfl
    · have hother : [entry].filter (fun other ↦ other.1 = key) = [] := by simp [Ne.symm hkey]
      rw [Function.update_of_ne hkey, ih, hother, List.append_nil]

end Table

/-- A family of tables. -/
abbrev Sharded (I K V : Type*) := I → Table K V

namespace Sharded

variable (index : K → I)

/-- The table a sharded table stands for. -/
def view (shards : Sharded I K V) : Table K V := fun key ↦ shards (index key) key

/-- One shard without the entries whose value satisfies a test. -/
def removeIf (shards : Sharded I K V) (shard : I) (test : V → Bool) : Sharded I K V :=
  Function.update shards shard ((shards shard).removeIf test)

theorem view_removeIf (shards : Sharded I K V) (shard : I) (test : V → Bool) (key : K) :
    view index (removeIf shards shard test) key =
      if index key = shard then (view index shards key).filter fun value ↦ !test value
      else view index shards key := by
  unfold view removeIf
  split_ifs with hindex
  · rw [hindex, Function.update_self]
    rfl
  · rw [Function.update_of_ne hindex]

variable [DecidableEq K]

/-- A new entry in the shard of its key. -/
def insertNew (shards : Sharded I K V) (key : K) (value : V) : Sharded I K V :=
  Function.update shards (index key) ((shards (index key)).insertNew key value)

/-- The entry of a key removed from its shard. -/
def erase (shards : Sharded I K V) (key : K) : Sharded I K V :=
  Function.update shards (index key) ((shards (index key)).erase key)

/-- A change of the shard of a key that changes this key only is a change of the view. -/
theorem view_update (shards : Sharded I K V) (key : K) (table : Table K V)
    (hothers : ∀ other ≠ key, table other = shards (index key) other) :
    view index (Function.update shards (index key) table) =
      Function.update (view index shards) key (table key) := by
  funext other
  unfold view
  by_cases hkey : other = key
  · subst hkey
    rw [Function.update_self, Function.update_self]
  · rw [Function.update_of_ne hkey]
    by_cases hindex : index other = index key
    · rw [hindex, Function.update_self]
      exact hothers other hkey
    · rw [Function.update_of_ne hindex]

theorem view_insertNew (shards : Sharded I K V) (key : K) (value : V) :
    view index (insertNew index shards key value) = (view index shards).insertNew key value := by
  rw [insertNew, view_update index shards key _ fun other hne ↦ Table.insertNew_of_ne _ hne value]
  unfold Table.insertNew view
  split_ifs with hsome
  · exact Function.update_eq_self key _
  · rw [Function.update_self]

theorem view_erase (shards : Sharded I K V) (key : K) :
    view index (erase index shards key) = (view index shards).erase key := by
  rw [erase, view_update index shards key _ fun other hne ↦ Table.erase_of_ne _ hne,
    Table.erase_self]
  rfl

/-- The marked shards have no entry of a kind. -/
def ClearOf (shards : Sharded I K V) (marked : I → Bool) (kind : V → Prop) : Prop :=
  ∀ shard, marked shard = true → ∀ key value, shards shard key = some value → ¬ kind value

section ClearOf

variable {index : K → I} {shards : Sharded I K V} {marked : I → Bool} {kind : V → Prop}

omit [DecidableEq I] [DecidableEq K] in
theorem clearOf_empty : ClearOf (fun _ ↦ Table.empty : Sharded I K V) marked kind :=
  fun _ _ _ _ hvalue ↦ nomatch hvalue

omit [DecidableEq K] in
/-- A change of one shard that adds no entry of the kind keeps the marked shards clear. -/
theorem ClearOf.update (hclear : ClearOf shards marked kind) {shard : I} {table : Table K V}
    (htable : marked shard = true → ∀ key value, table key = some value → kind value →
      shards shard key = some value) :
    ClearOf (Function.update shards shard table) marked kind := by
  intro other hmarked key value hvalue hkind
  by_cases hother : other = shard
  · subst hother
    rw [Function.update_self] at hvalue
    exact hclear other hmarked key value (htable hmarked key value hvalue hkind) hkind
  · rw [Function.update_of_ne hother] at hvalue
    exact hclear other hmarked key value hvalue hkind

/-- Assumes: an entry of the kind goes to a shard that is not marked. -/
theorem ClearOf.insertNew (hclear : ClearOf shards marked kind) {key : K} {value : V}
    (hvalue : kind value → marked (index key) = false) :
    ClearOf (insertNew index shards key value) marked kind := by
  refine hclear.update fun hmarked other found hfound hkind ↦ ?_
  rcases Table.insertNew_eq_some hfound with hold | rfl
  · exact hold
  · rw [hvalue hkind] at hmarked
    cases hmarked

theorem ClearOf.erase (hclear : ClearOf shards marked kind) (key : K) :
    ClearOf (erase index shards key) marked kind :=
  hclear.update fun _ _ _ hfound _ ↦ Table.erase_eq_some hfound

omit [DecidableEq K] in
/-- Assumes: every entry of the kind satisfies the test. The sweep of a shard marks it. -/
theorem ClearOf.removeIf (hclear : ClearOf shards marked kind) (shard : I) {test : V → Bool}
    (htest : ∀ value, kind value → test value = true) :
    ClearOf (removeIf shards shard test) (Function.update marked shard true) kind := by
  intro other hmarked key value hvalue hkind
  by_cases hother : other = shard
  · subst hother
    rw [Sharded.removeIf, Function.update_self, Table.removeIf, Option.filter_eq_some_iff,
      htest value hkind] at hvalue
    exact absurd hvalue.2 (by decide)
  · rw [Function.update_of_ne hother] at hmarked
    rw [Sharded.removeIf, Function.update_of_ne hother] at hvalue
    exact hclear other hmarked key value hvalue hkind

omit [DecidableEq I] [DecidableEq K] in
theorem ClearOf.mono (hclear : ClearOf shards marked kind) {marked' : I → Bool}
    (hmarked : ∀ shard, marked' shard = true → marked shard = true) :
    ClearOf shards marked' kind :=
  fun shard h ↦ hclear shard (hmarked shard h)

end ClearOf

end Sharded

/-! ### Registers -/

section Registers

variable {R : Type*} {records : List R} {tag other : ℕ} {record record' found : R}

/-- A record that is found after another one was changed is this one or an old one. -/
theorem getElem?_set_cases (hfound : (records.set tag record')[other]? = some found) :
    other = tag ∧ found = record' ∨ other ≠ tag ∧ records[other]? = some found := by
  by_cases heq : other = tag
  · subst heq
    rw [List.getElem?_set_self'] at hfound
    obtain ⟨_, _, rfl⟩ := Option.map_eq_some_iff.mp hfound
    exact Or.inl ⟨rfl, rfl⟩
  · rw [List.getElem?_set_ne (Ne.symm heq)] at hfound
    exact Or.inr ⟨heq, hfound⟩

theorem getElem?_set_of_some (hrecord : records[tag]? = some record) :
    (records.set tag record')[tag]? = some record' := by
  rw [List.getElem?_set_self', hrecord]
  rfl

/-- A record that is found after one was added is an old one or the new one. -/
theorem getElem?_concat_cases (hfound : (records ++ [record'])[tag]? = some found) :
    records[tag]? = some found ∨ tag = records.length ∧ found = record' := by
  rcases Nat.lt_trichotomy tag records.length with hlt | rfl | hgt
  · exact Or.inl ((List.getElem?_append_left hlt).symm.trans hfound)
  · rw [List.getElem?_concat_length] at hfound
    exact Or.inr ⟨rfl, (Option.some.inj hfound).symm⟩
  · rw [List.getElem?_eq_none (by rw [List.length_append]; exact hgt)] at hfound
    cases hfound

theorem lt_length_of_getElem? (hrecord : records[tag]? = some record) : tag < records.length :=
  (List.getElem?_eq_some_iff.mp hrecord).1

theorem getElem?_concat_of_some (hrecord : records[tag]? = some record) (record' : R) :
    (records ++ [record'])[tag]? = some record :=
  (List.getElem?_append_left (lt_length_of_getElem? hrecord)).trans hrecord

/-- The measure of the record with a number, and zero if there is none. -/
def measureAt (measure : R → ℕ) (records : List R) (tag : ℕ) : ℕ :=
  (records[tag]?.map measure).getD 0

theorem measureAt_of_some {measure : R → ℕ} (hrecord : records[tag]? = some record) :
    measureAt measure records tag = measure record := by
  rw [measureAt, hrecord]
  rfl

theorem measureAt_set {measure : R → ℕ} (hrecord : records[tag]? = some record) :
    measureAt measure (records.set tag record') other =
      if other = tag then measure record' else measureAt measure records other := by
  split
  · rename_i heq
    rw [heq, measureAt_of_some (getElem?_set_of_some hrecord)]
  · rename_i hne
    rw [measureAt, List.getElem?_set_ne (Ne.symm hne)]
    rfl

/-- Assumes: a new record of measure zero. Adding it changes no measure. -/
theorem measureAt_concat {measure : R → ℕ} (hzero : measure record' = 0) :
    measureAt measure (records ++ [record']) tag = measureAt measure records tag := by
  rcases Nat.lt_trichotomy tag records.length with hlt | rfl | hgt
  · rw [measureAt, List.getElem?_append_left hlt]
    rfl
  · rw [measureAt, List.getElem?_concat_length, measureAt, List.getElem?_eq_none (Nat.le_refl _)]
    exact hzero
  · have hlength : (records ++ [record']).length ≤ tag := by
      rw [List.length_append]
      exact hgt
    rw [measureAt, List.getElem?_eq_none hlength, measureAt, List.getElem?_eq_none (by omega)]

/-- Changing one record moves the number of those with a property by this record alone. -/
theorem countP_set_add (p : R → Bool) (hrecord : records[tag]? = some record) (record' : R) :
    (records.set tag record').countP p + (if p record then 1 else 0) =
      records.countP p + (if p record' then 1 else 0) := by
  obtain ⟨hlt, rfl⟩ := List.getElem?_eq_some_iff.mp hrecord
  rw [List.countP_set hlt]
  by_cases hold : p records[tag]
  · have hpos : 0 < records.countP p :=
      List.countP_pos_iff.mpr ⟨records[tag], List.getElem_mem hlt, hold⟩
    rw [if_pos hold]
    omega
  · rw [if_neg hold]
    omega

section Exclusive

variable {holds : R → Option K}

/-- Records with different numbers hold different things. -/
def Exclusive (holds : R → Option K) (records : List R) : Prop :=
  ∀ (tag other : ℕ) (record record' : R) (key : K), records[tag]? = some record →
    records[other]? = some record' → holds record = some key → holds record' = some key →
      tag = other

/-- Assumes: a record that is changed holds afterwards what it held before, or what no record
holds. -/
theorem Exclusive.set (hexclusive : Exclusive holds records)
    (hrecord : records[tag]? = some record)
    (hholds : ∀ key, holds record' = some key → holds record = some key ∨
      ∀ (other : ℕ) (found : R), records[other]? = some found → holds found ≠ some key) :
    Exclusive holds (records.set tag record') := by
  intro first second found found' key hfirst hsecond hkey hkey'
  rcases getElem?_set_cases hfirst with ⟨rfl, rfl⟩ | ⟨-, hold⟩ <;>
    rcases getElem?_set_cases hsecond with ⟨rfl, rfl⟩ | ⟨-, hold'⟩
  · rfl
  · rcases hholds key hkey with hkept | hfree
    · exact hexclusive first second record found' key hrecord hold' hkept hkey'
    · exact absurd hkey' (hfree second found' hold')
  · rcases hholds key hkey' with hkept | hfree
    · exact hexclusive first second found record key hold hrecord hkey hkept
    · exact absurd hkey (hfree first found hold)
  · exact hexclusive first second found found' key hold hold' hkey hkey'

/-- Assumes: a new record holds nothing. -/
theorem Exclusive.concat (hexclusive : Exclusive holds records) (hnone : holds record' = none) :
    Exclusive holds (records ++ [record']) := by
  intro first second found found' key hfirst hsecond hkey hkey'
  rcases getElem?_concat_cases hfirst with hfirst | ⟨-, rfl⟩
  · rcases getElem?_concat_cases hsecond with hsecond | ⟨-, rfl⟩
    · exact hexclusive first second found found' key hfirst hsecond hkey hkey'
    · rw [hnone] at hkey'
      cases hkey'
  · rw [hnone] at hkey
    cases hkey

end Exclusive

section Holdings

variable [DecidableEq K] {held : R → List K} {key : K}

/-- Changing one record moves the number of times that a thing is held by this record alone. -/
theorem count_flatMap_set_add (held : R → List K) (hrecord : records[tag]? = some record)
    (record' : R) (key : K) :
    ((records.set tag record').flatMap held).count key + (held record).count key =
      (records.flatMap held).count key + (held record').count key := by
  induction records generalizing tag with
  | nil => cases hrecord
  | cons first rest ih =>
    cases tag with
    | zero =>
      obtain rfl : first = record := Option.some.inj hrecord
      simp only [List.set_cons_zero, List.flatMap_cons, List.count_append]
      omega
    | succ tag =>
      have hrest := ih hrecord
      simp only [List.set_cons_succ, List.flatMap_cons, List.count_append]
      omega

/-- What no record holds. -/
theorem not_mem_held (hzero : (records.flatMap held).count key = 0)
    (hrecord : records[tag]? = some record) : key ∉ held record :=
  fun hmem ↦ List.count_eq_zero.mp hzero
    (List.mem_flatMap.mpr ⟨record, List.mem_of_getElem? hrecord, hmem⟩)

/-- What is held once has one holder. -/
theorem existsUnique_holder (hone : (records.flatMap held).count key = 1) :
    ∃! tag : ℕ, ∃ record, records[tag]? = some record ∧ key ∈ held record := by
  induction records with
  | nil => cases hone
  | cons first rest ih =>
    rw [List.flatMap_cons, List.count_append] at hone
    by_cases hfirst : key ∈ held first
    · have hpos := List.count_pos_iff.mpr hfirst
      have hrest : (rest.flatMap held).count key = 0 := by omega
      refine ⟨0, ⟨first, rfl, hfirst⟩, ?_⟩
      rintro (_ | tag) ⟨record, hrecord, hmem⟩
      · rfl
      · exact absurd hmem (not_mem_held hrest hrecord)
    · rw [List.count_eq_zero.mpr hfirst, Nat.zero_add] at hone
      obtain ⟨tag, hholder, hunique⟩ := ih hone
      refine ⟨tag + 1, hholder, ?_⟩
      rintro (_ | other) ⟨record, hrecord, hmem⟩
      · obtain rfl : first = record := Option.some.inj hrecord
        exact absurd hmem hfirst
      · exact congrArg (· + 1) (hunique other ⟨record, hrecord, hmem⟩)

end Holdings

end Registers

end TszyUlt.Lib
