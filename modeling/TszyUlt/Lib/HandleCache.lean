import TszyUlt.Lib.Handles

/-!
# Caches of handles

A program that keeps the handles that it made from one other handle, to use them again and to give
them all back at once. `Caching` says which of the handles that a program holds are in its cache,
and what it holds beside them. A handle may be added to the cache (`Caching.insert`), other handles
may be acquired and given back while the cache stays or grows (`Caching.extra`,
`Caching.drop_extra`), and the cache is emptied in any order (`wp_freeInAnyOrder`).
-/

set_option autoImplicit false
set_option relaxedAutoImplicit false

namespace TszyUlt.Lib

open HandleProg

variable {H : Type} [DecidableEq H]

/-- The handles of a cache were made from one parent. Without them, the program holds the rest. -/
structure Caching (shared : List H) (parent : H) (cache : List H) (rest held : Held H) : Prop where
  rooted : held.Rooted shared
  nodup : cache.Nodup
  not_shared : ∀ h ∈ cache, h ∉ shared
  held_of_mem : ∀ h ∈ cache, h ∈ held.handles
  made : ∀ entry ∈ held, entry.1 ∈ cache → entry.2 = some parent
  parent_held : parent ∈ rest.handles
  rest_eq : held.filter (fun entry ↦ entry.1 ∉ cache) = rest
  not_parent : ∀ entry ∈ rest, ∀ h ∈ cache, entry.2 ≠ some h

namespace Caching

variable {shared cache : List H} {parent h : H} {rest held : Held H}

theorem mem_rest (hcaching : Caching shared parent cache rest held) {entry : H × Option H} :
    entry ∈ rest ↔ entry ∈ held ∧ entry.1 ∉ cache := by
  rw [← hcaching.rest_eq, List.mem_filter, decide_eq_true_iff]

theorem rest_live (hcaching : Caching shared parent cache rest held) (hrest : h ∈ rest.handles) :
    h ∈ held.handles ∧ h ∉ cache := by
  obtain ⟨origin, hmem⟩ := Held.mem_handles.mp hrest
  obtain ⟨hheld, hcache⟩ := hcaching.mem_rest.mp hmem
  exact ⟨Held.mem_handles.mpr ⟨origin, hheld⟩, hcache⟩

/-- Nothing is in the cache at first. -/
theorem empty (hrooted : held.Rooted shared) (hparent : parent ∈ held.handles) :
    Caching shared parent [] held held where
  rooted := hrooted
  nodup := List.nodup_nil
  not_shared := fun _ hmem ↦ by cases hmem
  held_of_mem := fun _ hmem ↦ by cases hmem
  made := fun _ _ hmem ↦ by cases hmem
  parent_held := hparent
  rest_eq := List.filter_eq_self.mpr fun _ _ ↦ decide_eq_true List.not_mem_nil
  not_parent := fun _ _ _ hmem ↦ by cases hmem

/-- With nothing in the cache the program holds the rest. -/
theorem eq_rest (hcaching : Caching shared parent [] rest held) : held = rest := by
  rw [← hcaching.rest_eq]
  exact (List.filter_eq_self.mpr fun _ _ ↦ decide_eq_true List.not_mem_nil).symm

/-- A new handle is put into the cache. -/
theorem insert (hcaching : Caching shared parent cache rest held) (hshared : h ∉ shared)
    (hfresh : h ∉ held.handles) :
    Caching shared parent (h :: cache) rest ((h, some parent) :: held) where
  rooted := hcaching.rooted.add
    (fun p hp ↦ Option.some.inj hp ▸ Or.inr (hcaching.rest_live hcaching.parent_held).1) h
  nodup := List.nodup_cons.mpr ⟨fun hmem ↦ hfresh (hcaching.held_of_mem h hmem), hcaching.nodup⟩
  not_shared := fun g hg ↦ by
    rcases List.mem_cons.mp hg with rfl | hmem
    · exact hshared
    · exact hcaching.not_shared g hmem
  held_of_mem := fun g hg ↦ by
    rcases List.mem_cons.mp hg with rfl | hmem
    · exact List.mem_cons_self
    · exact List.mem_cons_of_mem _ (hcaching.held_of_mem g hmem)
  made := fun entry hentry hmem ↦ by
    rcases List.mem_cons.mp hentry with rfl | hold
    · rfl
    · rcases List.mem_cons.mp hmem with heq | hmem
      · exact absurd (Held.mem_handles.mpr ⟨entry.2, heq ▸ hold⟩) hfresh
      · exact hcaching.made entry hold hmem
  parent_held := hcaching.parent_held
  rest_eq := by
    rw [List.filter_cons_of_neg (by simp), ← hcaching.rest_eq]
    refine List.filter_congr fun entry hentry ↦ ?_
    have hne : entry.1 ≠ h := fun heq ↦ hfresh (heq ▸ List.mem_map_of_mem hentry)
    simp [hne]
  not_parent := fun entry hentry g hg hp ↦ by
    rcases List.mem_cons.mp hg with rfl | hmem
    · obtain ⟨hheld, -⟩ := hcaching.mem_rest.mp hentry
      exact hcaching.rooted.not_isParent hshared hfresh ⟨entry, hheld, hp⟩
    · exact hcaching.not_parent entry hentry g hmem hp

/-- Nothing was made from a handle of the cache. -/
theorem not_isParent (hcaching : Caching shared parent cache rest held) (hmem : h ∈ cache) :
    ¬held.IsParent h := by
  rintro ⟨entry, hentry, hp⟩
  by_cases hin : entry.1 ∈ cache
  · have heq : parent = h := Option.some.inj ((hcaching.made entry hentry hin).symm.trans hp)
    exact (hcaching.rest_live hcaching.parent_held).2 (heq ▸ hmem)
  · exact hcaching.not_parent entry (hcaching.mem_rest.mpr ⟨hentry, hin⟩) h hmem hp

/-- A handle of the cache is given back. -/
theorem erase (hcaching : Caching shared parent cache rest held) (hmem : h ∈ cache) :
    Caching shared parent (cache.erase h) rest (held.remove h) where
  rooted := hcaching.rooted.remove (hcaching.not_isParent hmem)
  nodup := hcaching.nodup.erase h
  not_shared := fun g hg ↦ hcaching.not_shared g (List.mem_of_mem_erase hg)
  held_of_mem := fun g hg ↦ by
    obtain ⟨hne, hg⟩ := hcaching.nodup.mem_erase_iff.mp hg
    obtain ⟨origin, hheld⟩ := Held.mem_handles.mp (hcaching.held_of_mem g hg)
    exact Held.mem_handles.mpr ⟨origin, Held.mem_remove.mpr ⟨hheld, hne⟩⟩
  made := fun entry hentry hin ↦
    hcaching.made entry (Held.mem_remove.mp hentry).1 (List.mem_of_mem_erase hin)
  parent_held := hcaching.parent_held
  rest_eq := by
    rw [Held.remove, List.filter_filter, ← hcaching.rest_eq]
    refine List.filter_congr fun entry _ ↦ ?_
    by_cases heq : entry.1 = h
    · simp [heq, hmem]
    · simp [heq, List.mem_erase_of_ne heq]
  not_parent := fun entry hentry g hg ↦
    hcaching.not_parent entry hentry g (List.mem_of_mem_erase hg)

/-- A handle is acquired that does not go into the cache. -/
theorem extra (hcaching : Caching shared parent cache rest held) {origin : Option H}
    (horigin : ∀ p ∈ origin, p ∈ shared ∨ p ∈ rest.handles) (hshared : h ∉ shared)
    (hfresh : h ∉ held.handles) :
    Caching shared parent cache ((h, origin) :: rest) ((h, origin) :: held) where
  rooted := hcaching.rooted.add
    (fun p hp ↦ (horigin p hp).imp_right fun hrest ↦ (hcaching.rest_live hrest).1) h
  nodup := hcaching.nodup
  not_shared := hcaching.not_shared
  held_of_mem := fun g hg ↦ List.mem_cons_of_mem _ (hcaching.held_of_mem g hg)
  made := fun entry hentry hin ↦ by
    rcases List.mem_cons.mp hentry with rfl | hold
    · exact absurd (hcaching.held_of_mem _ hin) hfresh
    · exact hcaching.made entry hold hin
  parent_held := List.mem_cons_of_mem _ hcaching.parent_held
  rest_eq := by
    have hout : h ∉ cache := fun hin ↦ hfresh (hcaching.held_of_mem h hin)
    rw [← hcaching.rest_eq]
    exact List.filter_cons_of_pos (decide_eq_true hout)
  not_parent := fun entry hentry g hg hp ↦ by
    rcases List.mem_cons.mp hentry with rfl | hold
    · rcases horigin g hp with hin | hrest
      · exact hcaching.not_shared g hg hin
      · exact (hcaching.rest_live hrest).2 hg
    · exact hcaching.not_parent entry hold g hg hp

/-- A handle is given back that is not in the cache. -/
theorem drop {origin : Option H}
    (hcaching : Caching shared parent cache ((h, origin) :: rest) held) (hne : h ≠ parent)
    (hfresh : h ∉ rest.handles) (hchild : ¬Held.IsParent ((h, origin) :: rest) h) :
    ¬held.IsParent h ∧ Caching shared parent cache rest (held.remove h) := by
  have hparent : ¬held.IsParent h := by
    rintro ⟨entry, hentry, hp⟩
    by_cases hin : entry.1 ∈ cache
    · exact hne (Option.some.inj (hp.symm.trans (hcaching.made entry hentry hin)))
    · exact hchild ⟨entry, hcaching.mem_rest.mpr ⟨hentry, hin⟩, hp⟩
  have hout : h ∉ cache := (hcaching.rest_live List.mem_cons_self).2
  refine ⟨hparent, hcaching.rooted.remove hparent, hcaching.nodup, hcaching.not_shared, ?_, ?_, ?_,
    ?_, ?_⟩
  · intro g hg
    obtain ⟨source, hheld⟩ := Held.mem_handles.mp (hcaching.held_of_mem g hg)
    exact Held.mem_handles.mpr ⟨source, Held.mem_remove.mpr ⟨hheld, fun heq ↦ hout (heq ▸ hg)⟩⟩
  · exact fun entry hentry hin ↦ hcaching.made entry (Held.mem_remove.mp hentry).1 hin
  · rcases List.mem_cons.mp hcaching.parent_held with heq | hrest
    · exact absurd heq.symm hne
    · exact hrest
  · rw [Held.remove, List.filter_filter]
    have hcomm : held.filter (fun entry ↦ decide (entry.1 ∉ cache) && decide (entry.1 ≠ h)) =
        Held.remove (held.filter fun entry ↦ entry.1 ∉ cache) h := by
      rw [Held.remove, List.filter_filter]
      exact List.filter_congr fun entry _ ↦ Bool.and_comm _ _
    rw [hcomm, hcaching.rest_eq, Held.remove_cons_self hfresh]
  · exact fun entry hentry ↦ hcaching.not_parent entry (List.mem_cons_of_mem _ hentry)

end Caching

/-- The handles of a list are given back, in an order that the library chooses. -/
def freeInAnyOrder : ℕ → List H → HandleProg H Unit
  | 0, _ => pure ()
  | left + 1, cache => do
    let choice ← answer
    match cache[choice.toNat % cache.length]? with
    | none => pure ()
    | some h => do
      free h
      freeInAnyOrder left (cache.erase h)

/-- The whole cache is given back. -/
theorem Caching.wp_freeInAnyOrder {shared cache : List H} {parent : H} {rest held : Held H}
    (hcaching : Caching shared parent cache rest held) {post : Unit → Held H → Prop}
    (hpost : post () rest) : wp shared (freeInAnyOrder cache.length cache) post held := by
  generalize hleft : cache.length = left
  induction left generalizing cache held with
  | zero =>
    obtain rfl := List.length_eq_zero_iff.mp hleft
    exact hcaching.eq_rest ▸ hpost
  | succ left ih =>
    rw [freeInAnyOrder, wp_bind, wp_answer]
    intro choice
    have hlt : choice.toNat % cache.length < cache.length := Nat.mod_lt _ (by omega)
    obtain ⟨h, hget⟩ : ∃ h, cache[choice.toNat % cache.length]? = some h :=
      ⟨_, List.getElem?_eq_getElem hlt⟩
    have hmem : h ∈ cache := List.mem_of_getElem? hget
    rw [hget]
    dsimp only
    rw [wp_bind, wp_free]
    refine ⟨hcaching.held_of_mem h hmem, hcaching.not_isParent hmem, ih (hcaching.erase hmem) ?_⟩
    rw [List.length_erase_of_mem hmem, hleft]
    rfl

end TszyUlt.Lib
