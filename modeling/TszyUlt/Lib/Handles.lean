import Mathlib.Data.Int.Notation
import Mathlib.Data.List.Basic
import TszyUlt.Lib.Table
import TszyUlt.Lib.Transition

/-!
# Programs that work with handles

A library in C gives its user handles: it makes them, takes them as arguments, and wants each back
exactly once, the ones made from another handle before that one. `HandleProg` is a program as such a
library sees it: which handles it acquires, uses and releases, where the next one may depend on what
the library answers. Passing a null pointer is a `fault`.

`wp` is the weakest precondition of a program: from the handles that it holds, whatever the library
answers and whichever new handles it gives out, the program uses and releases only handles that are
live, releases none before those made from it, and ends as the postcondition says. A handle that was
released may be given out again. The rules for the sequence, for the calls and for loops are
`wp_bind`, `wp_call`, `wp_tryAcquire`, `wp_forEach` and `wp_untilCode`.

`HandleSystem` is threads that share the library, and each of its steps is one call of one thread.
`parallel_safe` is the rule for them: where every thread has its precondition with handles of its
own, no interleaving of them violates the discipline, and when all have ended the handles are those
that were live at the start.
-/

set_option autoImplicit false
set_option relaxedAutoImplicit false

namespace TszyUlt.Lib

/-! ### Live handles -/

/-- Live handles, each with the one that it was made from. -/
abbrev Held (H : Type) := List (H × Option H)

namespace Held

variable {H : Type} [DecidableEq H]

/-- The handles without what they were made from. -/
def handles (held : Held H) : List H := held.map Prod.fst

/-- A handle is released. -/
def remove (held : Held H) (h : H) : Held H := held.filter fun entry ↦ entry.1 ≠ h

/-- A live handle was made from this one. -/
def IsParent (held : Held H) (h : H) : Prop := ∃ entry ∈ held, entry.2 = some h

instance (held : Held H) (h : H) : Decidable (held.IsParent h) :=
  inferInstanceAs (Decidable (∃ entry ∈ held, entry.2 = some h))

variable {held : Held H} {h : H} {parent : Option H}

omit [DecidableEq H] in
@[simp] theorem handles_nil : handles ([] : Held H) = [] := rfl

omit [DecidableEq H] in
@[simp] theorem handles_cons (entry : H × Option H) :
    handles (entry :: held) = entry.1 :: held.handles := rfl

omit [DecidableEq H] in
theorem mem_handles : h ∈ held.handles ↔ ∃ parent, (h, parent) ∈ held := by
  simp [handles]

theorem mem_remove {entry : H × Option H} {held : Held H} :
    entry ∈ held.remove h ↔ entry ∈ held ∧ entry.1 ≠ h := by
  simp [remove]

/-- A handle that was acquired last is released. -/
theorem remove_cons_self (hfresh : h ∉ held.handles) :
    remove ((h, parent) :: held) h = held := by
  rw [remove, List.filter_cons_of_neg (by simp), List.filter_eq_self]
  intro entry hentry
  exact decide_eq_true fun heq ↦ hfresh (heq ▸ List.mem_map_of_mem hentry)

/-- A handle is released that was acquired before another one. -/
theorem remove_cons_of_ne {entry : H × Option H} (hne : entry.1 ≠ h) :
    remove (entry :: held) h = entry :: held.remove h :=
  List.filter_cons_of_pos (decide_eq_true hne)

/-- Every handle was made from one of these, or from one that is shared. -/
def Rooted (shared : List H) (held : Held H) : Prop :=
  ∀ entry ∈ held, ∀ parent ∈ entry.2, parent ∈ shared ∨ parent ∈ held.handles

omit [DecidableEq H] in
/-- Nothing was made from a new handle. -/
theorem Rooted.not_isParent {shared : List H} (hrooted : held.Rooted shared) (hshared : h ∉ shared)
    (hfresh : h ∉ held.handles) : ¬held.IsParent h := by
  rintro ⟨entry, hentry, hparent⟩
  rcases hrooted entry hentry h hparent with hmem | hmem
  · exact hshared hmem
  · exact hfresh hmem

omit [DecidableEq H] in
theorem Rooted.add {shared : List H} (hrooted : held.Rooted shared)
    (hparent : ∀ p ∈ parent, p ∈ shared ∨ p ∈ held.handles) (h : H) :
    Rooted shared ((h, parent) :: held) := by
  intro entry hentry p hp
  rcases List.mem_cons.mp hentry with rfl | hold
  · exact (hparent p hp).imp_right (List.mem_cons_of_mem _)
  · exact (hrooted entry hold p hp).imp_right (List.mem_cons_of_mem _)

theorem Rooted.remove {shared : List H} (hrooted : held.Rooted shared)
    (hchild : ¬held.IsParent h) : (held.remove h).Rooted shared := by
  intro entry hentry p hp
  obtain ⟨hold, -⟩ := mem_remove.mp hentry
  refine (hrooted entry hold p hp).imp_right fun hmem ↦ ?_
  obtain ⟨grand, hgrand⟩ := mem_handles.mp hmem
  refine mem_handles.mpr ⟨grand, mem_remove.mpr ⟨hgrand, fun heq ↦ hchild ⟨entry, hold, ?_⟩⟩⟩
  rw [← heq]
  exact hp

end Held

/-! ### Programs -/

/-- A program as the library sees it. -/
inductive HandleProg (H α : Type)
  /-- The program has ended. -/
  | done (result : α)
  /-- A null pointer is passed to the library. -/
  | fault
  /-- The library answers with a number. -/
  | ask (next : ℤ → HandleProg H α)
  /-- The library makes a handle from another one, or from nothing. -/
  | acquire (parent : Option H) (next : H → HandleProg H α)
  /-- A handle is passed to the library. -/
  | use (h : H) (next : HandleProg H α)
  /-- A handle is given back. -/
  | release (h : H) (next : HandleProg H α)

namespace HandleProg

variable {H α β : Type}

/-- One program after another. -/
def bind : HandleProg H α → (α → HandleProg H β) → HandleProg H β
  | .done result, next => next result
  | .fault, _ => .fault
  | .ask rest, next => .ask fun answer ↦ (rest answer).bind next
  | .acquire parent rest, next => .acquire parent fun h ↦ (rest h).bind next
  | .use h rest, next => .use h (rest.bind next)
  | .release h rest, next => .release h (rest.bind next)

instance : Monad (HandleProg H) where
  pure := .done
  bind := .bind

/-- A pointer is taken for one that is not null. -/
def deref : Option H → HandleProg H H
  | none => .fault
  | some h => .done h

/-- A call that takes a handle and answers with a number. -/
def call (h : H) : HandleProg H ℤ := .use h (.ask .done)

/-- A call that takes a handle and whose answer does not matter. -/
def touch (h : H) : HandleProg H Unit := .use h (.done ())

/-- What the library says, without a call that a handle is passed to. -/
def answer : HandleProg H ℤ := .ask .done

/-- A call that makes a handle, or returns a null pointer. -/
def tryAcquire (parent : Option H) : HandleProg H (Option H) :=
  .ask fun answer ↦
    if answer = 0 then .done none else .acquire parent fun h ↦ .done (some h)

/-- A call that makes a handle from another one, or returns a null pointer. -/
def tryMake (parent : H) : HandleProg H (Option H) := .use parent (tryAcquire (some parent))

/-- A call that makes a handle from nothing, and never returns a null pointer. -/
def create : HandleProg H H := .acquire none .done

/-- A call that makes a handle from another one, and never returns a null pointer. -/
def make (parent : H) : HandleProg H H := .use parent (.acquire (some parent) .done)

/-- A call that gives a handle back. -/
def free (h : H) : HandleProg H Unit := .release h (.done ())

/-- A handle is given back unless it is a null pointer. -/
def freeSome : Option H → HandleProg H Unit
  | none => .done ()
  | some h => free h

/-- A loop over a list. -/
def forEach : List β → (β → HandleProg H Unit) → HandleProg H Unit
  | [], _ => .done ()
  | first :: rest, body => (body first).bind fun _ ↦ forEach rest body

/-- A loop over a list that stops at the first code that is not 0. -/
def untilCode : List β → (β → HandleProg H ℤ) → HandleProg H ℤ
  | [], _ => .done 0
  | first :: rest, body => (body first).bind fun rc ↦
      if rc ≠ 0 then .done rc else untilCode rest body

/-- A loop that the library ends. -/
def times (count : ℕ) (body : HandleProg H Unit) : HandleProg H Unit :=
  forEach (List.replicate count ()) fun _ ↦ body

/-! ### Weakest preconditions -/

variable [DecidableEq H]

/-- From the handles that the program holds, it keeps the discipline whatever the library answers,
and ends as the postcondition says. -/
def wp (shared : List H) : HandleProg H α → (α → Held H → Prop) → Held H → Prop
  | .done result, post, held => post result held
  | .fault, _, _ => False
  | .ask next, post, held => ∀ answer, wp shared (next answer) post held
  | .acquire parent next, post, held =>
    (∀ p ∈ parent, p ∈ shared ∨ p ∈ held.handles) ∧
      ∀ h, h ∉ shared → h ∉ held.handles → wp shared (next h) post ((h, parent) :: held)
  | .use h next, post, held => (h ∈ shared ∨ h ∈ held.handles) ∧ wp shared next post held
  | .release h next, post, held =>
    h ∈ held.handles ∧ ¬held.IsParent h ∧ wp shared next post (held.remove h)

variable {shared : List H} {post : α → Held H → Prop} {held : Held H}

@[simp] theorem wp_pure (result : α) :
    wp shared (pure result : HandleProg H α) post held ↔ post result held := Iff.rfl

@[simp] theorem wp_bind (prog : HandleProg H α) (next : α → HandleProg H β)
    (post : β → Held H → Prop) (held : Held H) :
    wp shared (prog >>= next) post held ↔
      wp shared prog (fun result ↦ wp shared (next result) post) held := by
  show wp shared (prog.bind next) post held ↔ _
  induction prog generalizing held with
  | done result => exact Iff.rfl
  | fault => exact Iff.rfl
  | ask rest ih => exact forall_congr' fun answer ↦ ih answer held
  | acquire parent rest ih =>
    exact and_congr Iff.rfl (forall_congr' fun h ↦ imp_congr_right fun _ ↦
      imp_congr_right fun _ ↦ ih h _)
  | use h rest ih => exact and_congr Iff.rfl (ih held)
  | release h rest ih => exact and_congr Iff.rfl (and_congr Iff.rfl (ih _))

/-- A weaker postcondition. -/
theorem wp_mono {prog : HandleProg H α} {post' : α → Held H → Prop}
    (hwp : wp shared prog post held) (himp : ∀ result held', post result held' →
      post' result held') : wp shared prog post' held := by
  induction prog generalizing held with
  | done result => exact himp result held hwp
  | fault => exact hwp
  | ask rest ih => exact fun answer ↦ ih answer (hwp answer)
  | acquire parent rest ih =>
    exact ⟨hwp.1, fun h hshared hfresh ↦ ih h (hwp.2 h hshared hfresh)⟩
  | use h rest ih => exact ⟨hwp.1, ih hwp.2⟩
  | release h rest ih => exact ⟨hwp.1, hwp.2.1, ih hwp.2.2⟩

@[simp] theorem wp_deref_some (h : H) (post : H → Held H → Prop) :
    wp shared (deref (some h)) post held ↔ post h held := Iff.rfl

@[simp] theorem wp_call (h : H) (post : ℤ → Held H → Prop) :
    wp shared (call h) post held ↔
      (h ∈ shared ∨ h ∈ held.handles) ∧ ∀ answer, post answer held := Iff.rfl

@[simp] theorem wp_answer (post : ℤ → Held H → Prop) :
    wp shared answer post held ↔ ∀ answer, post answer held := Iff.rfl

@[simp] theorem wp_touch (h : H) (post : Unit → Held H → Prop) :
    wp shared (touch h) post held ↔ (h ∈ shared ∨ h ∈ held.handles) ∧ post () held := Iff.rfl

theorem wp_tryAcquire {parent : Option H} {post : Option H → Held H → Prop}
    (hparent : ∀ p ∈ parent, p ∈ shared ∨ p ∈ held.handles) (hnone : post none held)
    (hsome : ∀ h, h ∉ shared → h ∉ held.handles → post (some h) ((h, parent) :: held)) :
    wp shared (tryAcquire parent) post held := by
  intro answer
  dsimp only
  split_ifs
  · exact hnone
  · exact ⟨hparent, hsome⟩

theorem wp_create {post : H → Held H → Prop}
    (hmade : ∀ h, h ∉ shared → h ∉ held.handles → post h ((h, none) :: held)) :
    wp shared create post held :=
  ⟨fun _ hp ↦ (by cases hp), hmade⟩

theorem wp_make {parent : H} {post : H → Held H → Prop}
    (hparent : parent ∈ shared ∨ parent ∈ held.handles)
    (hmade : ∀ h, h ∉ shared → h ∉ held.handles → post h ((h, some parent) :: held)) :
    wp shared (make parent) post held :=
  ⟨hparent, fun _ hp ↦ Option.some.inj hp ▸ hparent, hmade⟩

@[simp] theorem wp_free (h : H) (post : Unit → Held H → Prop) :
    wp shared (free h) post held ↔
      h ∈ held.handles ∧ ¬held.IsParent h ∧ post () (held.remove h) := Iff.rfl

/-- Assumes: an invariant that every turn of the loop keeps. -/
theorem wp_forEach {xs : List β} {body : β → HandleProg H Unit} (inv : Held H → Prop)
    (hbody : ∀ x ∈ xs, ∀ held, inv held → wp shared (body x) (fun _ ↦ inv) held)
    {post : Unit → Held H → Prop} (hpost : ∀ held, inv held → post () held) (hinv : inv held) :
    wp shared (forEach xs body) post held := by
  induction xs generalizing held with
  | nil => exact hpost held hinv
  | cons first rest ih =>
    refine (wp_bind _ _ _ _).mpr (wp_mono (hbody first List.mem_cons_self held hinv) ?_)
    exact fun _ _ hnext ↦ ih (fun x hx ↦ hbody x (List.mem_cons_of_mem _ hx)) hnext

/-- Assumes: an invariant that every turn of the loop keeps, whatever its code is. -/
theorem wp_untilCode {xs : List β} {body : β → HandleProg H ℤ} (inv : Held H → Prop)
    (hbody : ∀ x ∈ xs, ∀ held, inv held → wp shared (body x) (fun _ ↦ inv) held)
    {post : ℤ → Held H → Prop} (hpost : ∀ rc held, inv held → post rc held) (hinv : inv held) :
    wp shared (untilCode xs body) post held := by
  induction xs generalizing held with
  | nil => exact hpost 0 held hinv
  | cons first rest ih =>
    refine (wp_bind _ _ _ _).mpr (wp_mono (hbody first List.mem_cons_self held hinv) ?_)
    intro rc held' hnext
    split_ifs
    · exact hpost rc held' hnext
    · exact ih (fun x hx ↦ hbody x (List.mem_cons_of_mem _ hx)) hnext

theorem wp_times {count : ℕ} {body : HandleProg H Unit} (inv : Held H → Prop)
    (hbody : ∀ held, inv held → wp shared body (fun _ ↦ inv) held)
    {post : Unit → Held H → Prop} (hpost : ∀ held, inv held → post () held) (hinv : inv held) :
    wp shared (times count body) post held :=
  wp_forEach inv (fun _ _ held hheld ↦ hbody held hheld) hpost hinv

/-! ### Programs that give back what they acquire -/

/-- The handles that a program needs are live. -/
def Lives (shared needs : List H) (held : Held H) : Prop :=
  ∀ h ∈ needs, h ∈ shared ∨ h ∈ held.handles

/-- Whatever else is held, the program only needs these handles, and ends with the handles that it
started with. -/
def Borrows (shared needs : List H) (prog : HandleProg H α) : Prop :=
  ∀ held : Held H, held.Rooted shared → Lives shared needs held →
    ∀ post : α → Held H → Prop, (∀ result, post result held) → wp shared prog post held

/-- A handle that the program is started with beside those that are held, and that nothing was made
from. -/
structure Extra (shared : List H) (held : Held H) (h : H) (parent : Option H) : Prop where
  parent_live : ∀ p ∈ parent, p ∈ shared ∨ p ∈ held.handles
  not_shared : h ∉ shared
  fresh : h ∉ held.handles

/-- The program is started with a handle more, and gives that one back. -/
def Settles (shared needs : List H) (h : H) (prog : HandleProg H α) : Prop :=
  ∀ (held : Held H) (parent : Option H), held.Rooted shared → Lives shared needs held →
    Extra shared held h parent → ∀ post : α → Held H → Prop, (∀ result, post result held) →
      wp shared prog post ((h, parent) :: held)

/-- The program is started with a handle more, and either returns that one or gives it back and
returns a null pointer. -/
def Keeps (shared needs : List H) (h : H) (prog : HandleProg H (Option H)) : Prop :=
  ∀ (held : Held H) (parent : Option H), held.Rooted shared → Lives shared needs held →
    Extra shared held h parent → ∀ post : Option H → Held H → Prop, post none held →
      post (some h) ((h, parent) :: held) → wp shared prog post ((h, parent) :: held)

/-- The program returns a handle more than it started with, or a null pointer. -/
def Opens (shared needs : List H) (prog : HandleProg H (Option H)) : Prop :=
  ∀ held : Held H, held.Rooted shared → Lives shared needs held →
    ∀ post : Option H → Held H → Prop, post none held →
      (∀ h parent, Extra shared held h parent → post (some h) ((h, parent) :: held)) →
        wp shared prog post held

variable {needs : List H} {h : H}

omit [DecidableEq H] in
theorem Lives.cons (hheld : Lives shared needs held) (h : H) (parent : Option H) :
    Lives shared (h :: needs) ((h, parent) :: held) := by
  intro g hg
  rcases List.mem_cons.mp hg with rfl | hmem
  · exact Or.inr List.mem_cons_self
  · exact (hheld g hmem).imp_right (List.mem_cons_of_mem _)

/-- The handle that the program was started with is given back. -/
theorem Extra.wp_free {parent : Option H} (hextra : Extra shared held h parent)
    (hrooted : held.Rooted shared) {next : Unit → HandleProg H β} {post : β → Held H → Prop}
    (hnext : wp shared (next ()) post held) :
    wp shared (HandleProg.free h >>= next) post ((h, parent) :: held) := by
  rw [wp_bind, HandleProg.wp_free]
  refine ⟨List.mem_cons_self, ?_, ?_⟩
  · rintro ⟨entry, hentry, hp⟩
    rcases List.mem_cons.mp hentry with rfl | hold
    · exact (hextra.parent_live h hp).elim hextra.not_shared hextra.fresh
    · exact hrooted.not_isParent hextra.not_shared hextra.fresh ⟨entry, hold, hp⟩
  · rw [Held.remove_cons_self hextra.fresh]
    exact hnext

namespace Borrows

theorem done (result : α) : Borrows shared needs (pure result) := fun _ _ _ _ hpost ↦ hpost result

theorem answer : Borrows shared needs (HandleProg.answer : HandleProg H ℤ) :=
  fun _ _ _ _ hpost ↦ hpost

theorem call {h : H} (hneeds : h ∈ needs) : Borrows shared needs (HandleProg.call h) :=
  fun _ _ hheld _ hpost ↦ ⟨hheld h hneeds, hpost⟩

theorem touch {h : H} (hneeds : h ∈ needs) : Borrows shared needs (HandleProg.touch h) :=
  fun _ _ hheld _ hpost ↦ ⟨hheld h hneeds, hpost ()⟩

theorem bind {prog : HandleProg H α} {next : α → HandleProg H β}
    (hprog : Borrows shared needs prog) (hnext : ∀ result, Borrows shared needs (next result)) :
    Borrows shared needs (prog >>= next) := by
  intro held hrooted hheld post hpost
  rw [wp_bind]
  exact hprog held hrooted hheld _ fun result ↦ hnext result held hrooted hheld post hpost

theorem ite {cond : Prop} [Decidable cond] {first second : HandleProg H α}
    (hfirst : Borrows shared needs first) (hsecond : Borrows shared needs second) :
    Borrows shared needs (if cond then first else second) := by
  split_ifs
  · exact hfirst
  · exact hsecond

theorem mono {needs' : List H} {prog : HandleProg H α} (hprog : Borrows shared needs prog)
    (hsub : needs ⊆ needs') : Borrows shared needs' prog :=
  fun held hrooted hheld ↦ hprog held hrooted fun h hmem ↦ hheld h (hsub hmem)

theorem forEach {xs : List β} {body : β → HandleProg H Unit}
    (hbody : ∀ x ∈ xs, Borrows shared needs (body x)) :
    Borrows shared needs (HandleProg.forEach xs body) := by
  intro held hrooted hheld post hpost
  refine wp_forEach (· = held) (fun x hx held' heq ↦ ?_) (fun _ heq ↦ heq ▸ hpost ()) rfl
  subst heq
  exact hbody x hx held' hrooted hheld _ fun _ ↦ rfl

theorem untilCode {xs : List β} {body : β → HandleProg H ℤ}
    (hbody : ∀ x ∈ xs, Borrows shared needs (body x)) :
    Borrows shared needs (HandleProg.untilCode xs body) := by
  intro held hrooted hheld post hpost
  refine wp_untilCode (· = held) (fun x hx held' heq ↦ ?_) (fun rc _ heq ↦ heq ▸ hpost rc) rfl
  subst heq
  exact hbody x hx held' hrooted hheld _ fun _ ↦ rfl

theorem times (count : ℕ) {body : HandleProg H Unit} (hbody : Borrows shared needs body) :
    Borrows shared needs (HandleProg.times count body) :=
  forEach fun _ _ ↦ hbody

/-- What was made is given back by what comes after. -/
theorem open_bind {prog : HandleProg H (Option H)} {next : Option H → HandleProg H β}
    (hprog : Opens shared needs prog) (hnone : Borrows shared needs (next none))
    (hsome : ∀ h, Settles shared needs h (next (some h))) :
    Borrows shared needs (prog >>= next) := by
  intro held hrooted hheld post hpost
  rw [wp_bind]
  refine hprog held hrooted hheld _ (hnone held hrooted hheld post hpost) ?_
  exact fun h parent hextra ↦ hsome h held parent hrooted hheld hextra post hpost

end Borrows

namespace Settles

/-- The handle is still held after a body that borrows it. -/
theorem bind {prog : HandleProg H α} {next : α → HandleProg H β}
    (hprog : Borrows shared (h :: needs) prog)
    (hnext : ∀ result, Settles shared needs h (next result)) :
    Settles shared needs h (prog >>= next) := by
  intro held parent hrooted hheld hextra post hpost
  rw [wp_bind]
  exact hprog _ (hrooted.add hextra.parent_live h) (hheld.cons h parent) _ fun result ↦
    hnext result held parent hrooted hheld hextra post hpost

/-- The program goes on after the handle was given back. -/
theorem bind_borrows {prog : HandleProg H α} {next : α → HandleProg H β}
    (hprog : Settles shared needs h prog) (hnext : ∀ result, Borrows shared needs (next result)) :
    Settles shared needs h (prog >>= next) := by
  intro held parent hrooted hheld hextra post hpost
  rw [wp_bind]
  exact hprog held parent hrooted hheld hextra _ fun result ↦
    hnext result held hrooted hheld post hpost

theorem free_bind {next : Unit → HandleProg H α} (hnext : Borrows shared needs (next ())) :
    Settles shared needs h (HandleProg.free h >>= next) :=
  fun held _ hrooted hheld hextra post hpost ↦
    hextra.wp_free hrooted (hnext held hrooted hheld post hpost)

theorem free : Settles shared needs h (HandleProg.free h) := free_bind (Borrows.done ())

theorem ite {cond : Prop} [Decidable cond] {first second : HandleProg H α}
    (hfirst : Settles shared needs h first) (hsecond : Settles shared needs h second) :
    Settles shared needs h (if cond then first else second) := by
  split_ifs
  · exact hfirst
  · exact hsecond

end Settles

namespace Keeps

theorem bind {prog : HandleProg H α} {next : α → HandleProg H (Option H)}
    (hprog : Borrows shared (h :: needs) prog)
    (hnext : ∀ result, Keeps shared needs h (next result)) :
    Keeps shared needs h (prog >>= next) := by
  intro held parent hrooted hheld hextra post hnone hsome
  rw [wp_bind]
  exact hprog _ (hrooted.add hextra.parent_live h) (hheld.cons h parent) _ fun result ↦
    hnext result held parent hrooted hheld hextra post hnone hsome

theorem done : Keeps shared needs h (pure (some h)) := fun _ _ _ _ _ _ _ hsome ↦ hsome

theorem free : Keeps shared needs h (HandleProg.free h >>= fun _ ↦ pure none) :=
  fun _ _ hrooted _ hextra _ hnone _ ↦ hextra.wp_free hrooted hnone

theorem ite {cond : Prop} [Decidable cond] {first second : HandleProg H (Option H)}
    (hfirst : Keeps shared needs h first) (hsecond : Keeps shared needs h second) :
    Keeps shared needs h (if cond then first else second) := by
  split_ifs
  · exact hfirst
  · exact hsecond

end Keeps

namespace Opens

theorem null : Opens shared needs (pure none : HandleProg H (Option H)) :=
  fun _ _ _ _ hnone _ ↦ hnone

theorem tryAcquire {parent : Option H} (hparent : ∀ p ∈ parent, p ∈ needs) :
    Opens shared needs (HandleProg.tryAcquire parent) := by
  intro held _ hheld post hnone hsome
  have hlive : ∀ p ∈ parent, p ∈ shared ∨ p ∈ held.handles := fun p hp ↦ hheld p (hparent p hp)
  exact wp_tryAcquire hlive hnone fun h hshared hfresh ↦ hsome h parent ⟨hlive, hshared, hfresh⟩

theorem tryMake {parent : H} (hparent : parent ∈ needs) :
    Opens shared needs (HandleProg.tryMake parent) := by
  intro held hrooted hheld post hnone hsome
  refine ⟨hheld parent hparent, tryAcquire (fun p hp ↦ ?_) held hrooted hheld post hnone hsome⟩
  obtain rfl := Option.some.inj hp
  exact hparent

/-- What was made is kept by what comes after, or given back. -/
theorem bind {prog : HandleProg H (Option H)} {next : Option H → HandleProg H (Option H)}
    (hprog : Opens shared needs prog) (hnone : Opens shared needs (next none))
    (hsome : ∀ h, Keeps shared needs h (next (some h))) : Opens shared needs (prog >>= next) := by
  intro held hrooted hheld post hpost hopened
  rw [wp_bind]
  refine hprog held hrooted hheld _ (hnone held hrooted hheld post hpost hopened) ?_
  exact fun h parent hextra ↦
    hsome h held parent hrooted hheld hextra post hpost (hopened h parent hextra)

end Opens

namespace Borrows

/-- A handle that was made is given back at once. -/
theorem freeSome {prog : HandleProg H (Option H)} (hprog : Opens shared needs prog) :
    Borrows shared needs (prog >>= HandleProg.freeSome) :=
  open_bind hprog (done ()) fun _ ↦ Settles.free

/-- A handle that was made is given back at once, and the program goes on. -/
theorem freeSome_bind {prog : HandleProg H (Option H)} {next : Unit → HandleProg H β}
    (hprog : Opens shared needs prog) (hnext : Borrows shared needs (next ())) :
    Borrows shared needs (prog >>= fun made ↦ HandleProg.freeSome made >>= next) :=
  open_bind hprog hnext fun _ ↦ Settles.free_bind hnext

theorem wp_of_live {prog : HandleProg H α} (hprog : Borrows shared [h] prog)
    (hrooted : held.Rooted shared) (hlive : h ∈ held.handles) {post : α → Held H → Prop}
    (hpost : ∀ result, post result held) : wp shared prog post held :=
  hprog held hrooted (fun _ hg ↦ Or.inr (List.mem_singleton.mp hg ▸ hlive)) post hpost

/-- A program that needs nothing but what is shared holds nothing at its end. -/
theorem wp_nil {prog : HandleProg H α} (hprog : Borrows shared [] prog) :
    wp shared prog (fun _ held ↦ held = []) [] :=
  hprog [] (fun _ hentry ↦ by cases hentry) (fun _ hmem ↦ by cases hmem) _ fun _ ↦ rfl

end Borrows

end HandleProg

/-! ### Threads -/

/-- Threads that use one library, and what is live. -/
structure HandleSystem (H α : Type) where
  threads : List (HandleProg H α)
  live : Held H

/-- A thread makes its next call; if the library answers, it answers with this, and if it makes a
handle, it is this one. -/
structure HandleCall (H : Type) where
  thread : ℕ
  answer : ℤ
  handle : H

namespace HandleSystem

variable {H α : Type} [DecidableEq H]

/-- One call of one thread. -/
def step (system : HandleSystem H α) (call : HandleCall H) : Option (HandleSystem H α) :=
  match system.threads[call.thread]? with
  | some (.ask next) =>
    some { system with threads := system.threads.set call.thread (next call.answer) }
  | some (.acquire parent next) =>
    if (∀ p ∈ parent, p ∈ system.live.handles) ∧ call.handle ∉ system.live.handles then
      some {
        threads := system.threads.set call.thread (next call.handle)
        live := (call.handle, parent) :: system.live }
    else none
  | some (.use h next) =>
    if h ∈ system.live.handles then
      some { system with threads := system.threads.set call.thread next }
    else none
  | some (.release h next) =>
    if h ∈ system.live.handles ∧ ¬system.live.IsParent h then
      some {
        threads := system.threads.set call.thread next
        live := system.live.remove h }
    else none
  | _ => none

/-- The next call of the thread breaks the discipline: it passes a null pointer or a handle that is
not live, or gives back one that others were made from. -/
def Violates (system : HandleSystem H α) (thread : ℕ) : Prop :=
  match system.threads[thread]? with
  | some .fault => True
  | some (.acquire parent _) => ∃ p ∈ parent, p ∉ system.live.handles
  | some (.use h _) => h ∉ system.live.handles
  | some (.release h _) => h ∉ system.live.handles ∨ system.live.IsParent h
  | _ => False

/-- The live handles are those that were there at the start and those of the threads, and every
thread has its precondition with its own ones. -/
structure Divided (start : Held H) (system : HandleSystem H α) (owns : List (Held H)) : Prop where
  length_eq : owns.length = system.threads.length
  keeps : ∀ (i : ℕ) (prog : HandleProg H α) (own : Held H), system.threads[i]? = some prog →
    owns[i]? = some own → prog.wp start.handles (fun _ held ↦ held = []) own
  live_iff : ∀ entry, entry ∈ system.live ↔
    entry ∈ start ∨ ∃ (i : ℕ) (own : Held H), owns[i]? = some own ∧ entry ∈ own
  not_shared : ∀ (i : ℕ) (own : Held H), owns[i]? = some own →
    ∀ h ∈ own.handles, h ∉ start.handles
  distinct : ∀ (i j : ℕ) (own other : Held H), owns[i]? = some own → owns[j]? = some other →
    ∀ h, h ∈ own.handles → h ∈ other.handles → i = j
  rooted : ∀ (i : ℕ) (own : Held H), owns[i]? = some own → own.Rooted start.handles

variable {start : Held H} {system : HandleSystem H α} {owns : List (Held H)}

namespace Divided

theorem mem_live_iff (hdivided : Divided start system owns) {h : H} :
    h ∈ system.live.handles ↔
      h ∈ start.handles ∨ ∃ (i : ℕ) (own : Held H), owns[i]? = some own ∧ h ∈ own.handles := by
  simp only [Held.mem_handles, hdivided.live_iff]
  constructor
  · rintro ⟨parent, hstart | ⟨i, own, hown, hmem⟩⟩
    · exact Or.inl ⟨parent, hstart⟩
    · exact Or.inr ⟨i, own, hown, parent, hmem⟩
  · rintro (⟨parent, hstart⟩ | ⟨i, own, hown, parent, hmem⟩)
    · exact ⟨parent, Or.inl hstart⟩
    · exact ⟨parent, Or.inr ⟨i, own, hown, hmem⟩⟩

/-- A thread goes on with other handles of its own. -/
theorem advance (hdivided : Divided start system owns) {i : ℕ} {own own' : Held H}
    (hown : owns[i]? = some own) {next : HandleProg H α}
    (hkeeps : next.wp start.handles (fun _ held ↦ held = []) own') {live : Held H}
    (hlive : ∀ entry, entry ∈ live ↔ entry ∈ start ∨ entry ∈ own' ∨
      ∃ (j : ℕ) (other : Held H), j ≠ i ∧ owns[j]? = some other ∧ entry ∈ other)
    (hshared : ∀ h ∈ own'.handles, h ∉ start.handles)
    (hdistinct : ∀ (j : ℕ) (other : Held H), j ≠ i → owns[j]? = some other →
      ∀ h ∈ own'.handles, h ∉ other.handles)
    (hrooted : own'.Rooted start.handles) :
    Divided start { threads := system.threads.set i next, live := live } (owns.set i own') where
  length_eq := by rw [List.length_set, List.length_set, hdivided.length_eq]
  keeps := fun j prog other hprog hother ↦ by
    rcases getElem?_set_cases hprog with ⟨rfl, rfl⟩ | ⟨hne, hold⟩
    · rcases getElem?_set_cases hother with ⟨-, rfl⟩ | ⟨hne, -⟩
      · exact hkeeps
      · exact absurd rfl hne
    · rcases getElem?_set_cases hother with ⟨heq, -⟩ | ⟨-, hother⟩
      · exact absurd heq hne
      · exact hdivided.keeps j prog other hold hother
  live_iff := fun entry ↦ by
    have hself : (owns.set i own')[i]? = some own' := getElem?_set_of_some hown
    rw [hlive]
    refine or_congr_right ⟨?_, ?_⟩
    · rintro (hmem | ⟨j, other, hne, hother, hmem⟩)
      · exact ⟨i, own', hself, hmem⟩
      · exact ⟨j, other, by rw [List.getElem?_set_ne hne.symm, hother], hmem⟩
    · rintro ⟨j, other, hother, hmem⟩
      rcases getElem?_set_cases hother with ⟨-, rfl⟩ | ⟨hne, hold⟩
      · exact Or.inl hmem
      · exact Or.inr ⟨j, other, hne, hold, hmem⟩
  not_shared := fun j other hother ↦ by
    rcases getElem?_set_cases hother with ⟨-, rfl⟩ | ⟨-, hold⟩
    · exact hshared
    · exact hdivided.not_shared j other hold
  distinct := fun j k first second hfirst hsecond h hmem hmem' ↦ by
    rcases getElem?_set_cases hfirst with ⟨rfl, rfl⟩ | ⟨hj, hold⟩
    · rcases getElem?_set_cases hsecond with ⟨rfl, -⟩ | ⟨hk, hold⟩
      · rfl
      · exact absurd hmem' (hdistinct k second hk hold h hmem)
    · rcases getElem?_set_cases hsecond with ⟨rfl, rfl⟩ | ⟨-, hold'⟩
      · exact absurd hmem (hdistinct j first hj hold h hmem')
      · exact hdivided.distinct j k first second hold hold' h hmem hmem'
  rooted := fun j other hother ↦ by
    rcases getElem?_set_cases hother with ⟨-, rfl⟩ | ⟨-, hold⟩
    · exact hrooted
    · exact hdivided.rooted j other hold

/-- A thread goes on with the same handles. -/
theorem go (hdivided : Divided start system owns) {i : ℕ} {own : Held H}
    (hown : owns[i]? = some own) {next : HandleProg H α}
    (hkeeps : next.wp start.handles (fun _ held ↦ held = []) own) :
    Divided start { system with threads := system.threads.set i next } (owns.set i own) := by
  refine hdivided.advance hown hkeeps (fun entry ↦ ?_) (hdivided.not_shared i own hown) ?_
    (hdivided.rooted i own hown)
  · rw [hdivided.live_iff]
    refine or_congr_right ⟨?_, ?_⟩
    · rintro ⟨j, other, hother, hmem⟩
      by_cases hij : j = i
      · subst hij
        obtain rfl := Option.some.inj (hown.symm.trans hother)
        exact Or.inl hmem
      · exact Or.inr ⟨j, other, hij, hother, hmem⟩
    · rintro (hmem | ⟨j, other, -, hother, hmem⟩)
      · exact ⟨i, own, hown, hmem⟩
      · exact ⟨j, other, hother, hmem⟩
  · intro j other hne hother h hmem hmem'
    exact hne (hdivided.distinct j i other own hother hown h hmem' hmem)

/-- Two lists of one length have elements at the same positions. -/
theorem exists_getElem? {β γ : Type} {xs : List β} {ys : List γ} (hlength : xs.length = ys.length)
    {i : ℕ} {x : β} (hget : xs[i]? = some x) : ∃ y, ys[i]? = some y := by
  have hlt := (List.getElem?_eq_some_iff.mp hget).1
  rw [hlength] at hlt
  exact ⟨ys[i], List.getElem?_eq_getElem hlt⟩

/-- Nothing that is live was made from a handle of a thread, where the thread itself has made
nothing from it. -/
theorem not_isParent (hdivided : Divided start system owns) (hclosed : start.Rooted [])
    {i : ℕ} {own : Held H} (hown : owns[i]? = some own) {h : H} (hmem : h ∈ own.handles)
    (hchild : ¬own.IsParent h) : ¬system.live.IsParent h := by
  rintro ⟨entry, hentry, hparent⟩
  have hshared := hdivided.not_shared i own hown h hmem
  rcases (hdivided.live_iff entry).mp hentry with hstart | ⟨j, other, hother, hin⟩
  · rcases hclosed entry hstart h hparent with hnone | hfound
    · cases hnone
    · exact hshared hfound
  · rcases hdivided.rooted j other hother entry hin h hparent with hfound | hfound
    · exact hshared hfound
    · obtain rfl := hdivided.distinct i j own other hown hother h hmem hfound
      obtain rfl := Option.some.inj (hown.symm.trans hother)
      exact hchild ⟨entry, hin, hparent⟩

/-- No thread is about to break the discipline. -/
theorem not_violates (hdivided : Divided start system owns) (hclosed : start.Rooted []) (i : ℕ) :
    ¬system.Violates i := by
  unfold Violates
  cases hthread : system.threads[i]? with
  | none => exact not_false
  | some prog =>
    obtain ⟨own, hown⟩ := exists_getElem? hdivided.length_eq.symm hthread
    have hkeeps := hdivided.keeps i prog own hthread hown
    have hlive : ∀ {h : H}, h ∈ start.handles ∨ h ∈ own.handles → h ∈ system.live.handles :=
      fun hmem ↦ hdivided.mem_live_iff.mpr (hmem.imp_right fun hin ↦ ⟨i, own, hown, hin⟩)
    cases prog with
    | done result => exact not_false
    | fault => exact absurd hkeeps not_false
    | ask next => exact not_false
    | acquire parent next =>
      rintro ⟨p, hp, hdead⟩
      exact hdead (hlive (hkeeps.1 p hp))
    | use h next => exact fun hdead ↦ hdead (hlive hkeeps.1)
    | release h next =>
      rintro (hdead | hparent)
      · exact hdead (hlive (Or.inr hkeeps.1))
      · exact hdivided.not_isParent hclosed hown hkeeps.1 hkeeps.2.1 hparent

/-- A thread acquires a handle. -/
theorem acquire (hdivided : Divided start system owns) {i : ℕ} {own : Held H}
    (hown : owns[i]? = some own) {parent : Option H} {next : H → HandleProg H α}
    (hkeeps : (HandleProg.acquire parent next).wp start.handles (fun _ held ↦ held = []) own)
    {h : H} (hfresh : h ∉ system.live.handles) :
    Divided start { threads := system.threads.set i (next h), live := (h, parent) :: system.live }
      (owns.set i ((h, parent) :: own)) := by
  have hother : ∀ (j : ℕ) (other : Held H), owns[j]? = some other → h ∉ other.handles :=
    fun j other hother hmem ↦
      hfresh (hdivided.mem_live_iff.mpr (Or.inr ⟨j, other, hother, hmem⟩))
  have hshared : h ∉ start.handles :=
    fun hmem ↦ hfresh (hdivided.mem_live_iff.mpr (Or.inl hmem))
  refine hdivided.advance hown (hkeeps.2 h hshared (hother i own hown)) (fun entry ↦ ?_) ?_ ?_
    ((hdivided.rooted i own hown).add hkeeps.1 h)
  · rw [List.mem_cons, List.mem_cons, hdivided.live_iff]
    constructor
    · rintro (rfl | hstart | ⟨j, other, hj, hmem⟩)
      · exact Or.inr (Or.inl (Or.inl rfl))
      · exact Or.inl hstart
      · by_cases hij : j = i
        · subst hij
          obtain rfl := Option.some.inj (hown.symm.trans hj)
          exact Or.inr (Or.inl (Or.inr hmem))
        · exact Or.inr (Or.inr ⟨j, other, hij, hj, hmem⟩)
    · rintro (hstart | (rfl | hmem) | ⟨j, other, -, hj, hmem⟩)
      · exact Or.inr (Or.inl hstart)
      · exact Or.inl rfl
      · exact Or.inr (Or.inr ⟨i, own, hown, hmem⟩)
      · exact Or.inr (Or.inr ⟨j, other, hj, hmem⟩)
  · intro g hg
    rcases List.mem_cons.mp hg with rfl | hold
    · exact hshared
    · exact hdivided.not_shared i own hown g hold
  · intro j other hne hj g hg
    rcases List.mem_cons.mp hg with rfl | hold
    · exact hother j other hj
    · exact fun hmem ↦ hne (hdivided.distinct j i other own hj hown g hmem hold)

/-- A thread releases a handle. -/
theorem release (hdivided : Divided start system owns) {i : ℕ} {own : Held H}
    (hown : owns[i]? = some own) {h : H} {next : HandleProg H α}
    (hkeeps : (HandleProg.release h next).wp start.handles (fun _ held ↦ held = []) own) :
    Divided start { threads := system.threads.set i next, live := system.live.remove h }
      (owns.set i (own.remove h)) := by
  have hshared := hdivided.not_shared i own hown h hkeeps.1
  refine hdivided.advance hown hkeeps.2.2 (fun entry ↦ ?_) (fun g hg ↦ ?_)
    (fun j other hne hj g hg ↦ ?_) ((hdivided.rooted i own hown).remove hkeeps.2.1)
  · rw [Held.mem_remove, Held.mem_remove, hdivided.live_iff]
    constructor
    · rintro ⟨hstart | ⟨j, other, hj, hmem⟩, hne⟩
      · exact Or.inl hstart
      · by_cases hij : j = i
        · subst hij
          obtain rfl := Option.some.inj (hown.symm.trans hj)
          exact Or.inr (Or.inl ⟨hmem, hne⟩)
        · exact Or.inr (Or.inr ⟨j, other, hij, hj, hmem⟩)
    · rintro (hstart | ⟨hmem, hne⟩ | ⟨j, other, hij, hj, hmem⟩)
      · exact ⟨Or.inl hstart, fun heq ↦ hshared (heq ▸ List.mem_map_of_mem hstart)⟩
      · exact ⟨Or.inr ⟨i, own, hown, hmem⟩, hne⟩
      · refine ⟨Or.inr ⟨j, other, hj, hmem⟩, fun heq ↦ hij ?_⟩
        exact hdivided.distinct j i other own hj hown h (heq ▸ List.mem_map_of_mem hmem) hkeeps.1
  · obtain ⟨parent, hmem⟩ := Held.mem_handles.mp hg
    exact hdivided.not_shared i own hown g
      (Held.mem_handles.mpr ⟨parent, (Held.mem_remove.mp hmem).1⟩)
  · obtain ⟨parent, hmem⟩ := Held.mem_handles.mp hg
    exact fun hin ↦ hne (hdivided.distinct j i other own hj hown g hin
      (Held.mem_handles.mpr ⟨parent, (Held.mem_remove.mp hmem).1⟩))

/-- Every step keeps the division. -/
theorem step (hdivided : Divided start system owns) {call : HandleCall H}
    {next : HandleSystem H α} (hstep : system.step call = some next) :
    ∃ owns', Divided start next owns' := by
  unfold HandleSystem.step at hstep
  cases hthread : system.threads[call.thread]? with
  | none =>
    rw [hthread] at hstep
    cases hstep
  | some prog =>
    obtain ⟨own, hown⟩ := exists_getElem? hdivided.length_eq.symm hthread
    have hkeeps := hdivided.keeps call.thread prog own hthread hown
    rw [hthread] at hstep
    cases prog with
    | done result => cases hstep
    | fault => cases hstep
    | ask rest =>
      cases hstep
      exact ⟨_, hdivided.go hown (hkeeps call.answer)⟩
    | acquire parent rest =>
      dsimp only at hstep
      split_ifs at hstep with hlive
      cases hstep
      exact ⟨_, hdivided.acquire hown hkeeps hlive.2⟩
    | use h rest =>
      dsimp only at hstep
      split_ifs at hstep
      cases hstep
      exact ⟨_, hdivided.go hown hkeeps.2⟩
    | release h rest =>
      dsimp only at hstep
      split_ifs at hstep
      cases hstep
      exact ⟨_, hdivided.release hown hkeeps⟩

/-- When every thread has ended, what was live at the start is live. -/
theorem live_of_done (hdivided : Divided start system owns)
    (hdone : ∀ prog ∈ system.threads, ∃ result, prog = .done result) (entry : H × Option H) :
    entry ∈ system.live ↔ entry ∈ start := by
  rw [hdivided.live_iff]
  refine ⟨?_, Or.inl⟩
  rintro (hstart | ⟨i, own, hown, hmem⟩)
  · exact hstart
  · obtain ⟨prog, hthread⟩ := exists_getElem? hdivided.length_eq hown
    obtain ⟨result, rfl⟩ := hdone prog (List.mem_of_getElem? hthread)
    have hempty : own = [] := hdivided.keeps i _ own hthread hown
    rw [hempty] at hmem
    cases hmem

end Divided

/-- Assumes: threads that hold nothing at the start, each with its precondition and nothing held at
its end; and handles at the start that were made from one another. In no interleaving is a thread
about to break the discipline, and when all have ended the handles are those of the start. -/
theorem parallel_safe {threads : List (HandleProg H α)} {start : Held H}
    (hclosed : start.Rooted [])
    (hwp : ∀ prog ∈ threads, prog.wp start.handles (fun _ held ↦ held = []) [])
    {calls : List (HandleCall H)} {final : HandleSystem H α}
    (hrun : runFrom step ⟨threads, start⟩ calls = some final) :
    (∀ i, ¬final.Violates i) ∧
      ((∀ prog ∈ final.threads, ∃ result, prog = .done result) →
        ∀ entry, entry ∈ final.live ↔ entry ∈ start) := by
  have hstart : Divided start (⟨threads, start⟩ : HandleSystem H α)
      (List.replicate threads.length []) := by
    have hempty : ∀ {i : ℕ} {own : Held H},
        (List.replicate threads.length ([] : Held H))[i]? = some own → own = [] :=
      fun hown ↦ List.eq_of_mem_replicate (List.mem_of_getElem? hown)
    refine ⟨List.length_replicate, fun i prog own hprog hown ↦ ?_, fun entry ↦ ⟨Or.inl, ?_⟩,
      fun i own hown ↦ ?_, fun i j own other hown _ h hmem ↦ ?_, fun i own hown ↦ ?_⟩
    · rw [hempty hown]
      exact hwp prog (List.mem_of_getElem? hprog)
    · rintro (hstart | ⟨i, own, hown, hmem⟩)
      · exact hstart
      · rw [hempty hown] at hmem
        cases hmem
    · rw [hempty hown]
      exact fun h hmem ↦ absurd hmem List.not_mem_nil
    · rw [hempty hown] at hmem
      cases hmem
    · rw [hempty hown]
      exact fun entry hentry ↦ absurd hentry List.not_mem_nil
  obtain ⟨owns, hdivided⟩ := runFrom_invariant (fun system ↦ ∃ owns, Divided start system owns)
    (fun _ _ _ ⟨_, hstate⟩ hstep ↦ hstate.step hstep) ⟨_, hstart⟩ hrun
  exact ⟨hdivided.not_violates hclosed, hdivided.live_of_done⟩

/-- Assumes: nothing is live at the start. When all threads have ended, nothing is live. -/
theorem nothing_left {threads : List (HandleProg H α)}
    (hwp : ∀ prog ∈ threads, prog.wp [] (fun _ held ↦ held = []) [])
    {calls : List (HandleCall H)} {final : HandleSystem H α}
    (hrun : runFrom step ⟨threads, []⟩ calls = some final) :
    (∀ i, ¬final.Violates i) ∧
      ((∀ prog ∈ final.threads, ∃ result, prog = .done result) → final.live = []) := by
  obtain ⟨hsafe, hlive⟩ := parallel_safe (fun _ hentry ↦ by cases hentry) hwp hrun
  exact ⟨hsafe, fun hdone ↦ List.eq_nil_iff_forall_not_mem.mpr fun entry hentry ↦
    List.not_mem_nil ((hlive hdone entry).mp hentry)⟩

end HandleSystem

end TszyUlt.Lib
