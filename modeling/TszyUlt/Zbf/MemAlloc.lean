import TszyUlt.Lib.Lease
import TszyUlt.Lib.Memory
import TszyUlt.Lib.Table
import TszyUlt.Lib.Transition

/-!
# The memory tracker

`malloc`, `realloc`, `calloc` and `free` of `zbf/mem_alloc.hpp`, which keep a table of the blocks
that they handed out. Each of them is two steps of its thread: a call of the system allocator, and
an update of the table under its lock. The three that allocate update the table after the call, and
`free` does so before it. The system allocator may hand out an address as soon as it is free again.

A program passes a block to `realloc` or `free` only while it holds it (`MemTracker.held`): the call
that returned the block is over, and no other call was given it.

`realloc` is the one whose order is not safe. The system allocator has given the old address back
before the entry is erased, so another thread may be handed it and track it in between, and its
entry is the one that is erased (`retrack_loses`). `MemInv` is what holds as long as this does not
happen, and `memTracker_exact` the result: between calls, the table is exact in every run without
such a step and without a size that does not fit into the `int` of an entry.

Scope. A call of the system allocator that fails ends the process, and `free` of a null pointer does
nothing; neither is a step. Log texts are not modelled.
-/

set_option autoImplicit false
set_option relaxedAutoImplicit false

namespace TszyUlt.Zbf

open Lib

variable {Thread Addr Tag : Type*}

/-! ### The state and its steps -/

/-- What a call that allocates or resizes asks for. -/
structure MemBlock (Tag : Type*) where
  size : ℕ
  tag : Tag
  deriving DecidableEq, Repr

/-- `position_and_size`: an entry of `s_memTrackTable`. -/
structure MemEntry (Tag : Type*) where
  position : Tag
  size : ℤ
  deriving DecidableEq, Repr

/-- The entry that a block gets: its size is kept as an `int`. -/
def MemBlock.entry (block : MemBlock Tag) : MemEntry Tag := ⟨block.tag, asInt32 block.size⟩

/-- Where a thread stands in a call. -/
inductive MemCall (Addr Tag : Type*)
  | outside
  /-- `malloc` or `calloc`: the system allocator has returned; `_TRACK_MEM` is next. -/
  | tracking (mem : Addr) (block : MemBlock Tag)
  /-- `realloc`: the system allocator has returned; `_RETRACK_MEM` is next. -/
  | retracking (mem : Option Addr) (newMem : Addr) (block : MemBlock Tag)
  /-- `free`: the entry is erased; the call of the system allocator is next. -/
  | freeing (mem : Addr)
  deriving DecidableEq, Repr

/-- The tracker, the system allocator, and the threads. -/
structure MemTracker (Thread Addr Tag : Type*) where
  /-- `s_memTrackTable`. -/
  table : Table Addr (MemEntry Tag)
  /-- The blocks that the system allocator has handed out. -/
  live : Table Addr (MemBlock Tag)
  /-- The blocks that the program holds. -/
  held : Table Addr (MemBlock Tag)
  calls : Thread → MemCall Addr Tag

/-- The steps of the threads. Those of the system allocator have the address it returns. -/
inductive MemAction (Thread Addr Tag : Type*)
  | malloc (thread : Thread) (size : ℕ) (tag : Tag) (mem : Addr)
  | calloc (thread : Thread) (n size : ℕ) (tag : Tag) (mem : Addr)
  | track (thread : Thread)
  | realloc (thread : Thread) (mem : Option Addr) (size : ℕ) (tag : Tag) (newMem : Addr)
  | retrack (thread : Thread)
  | untrack (thread : Thread) (mem : Addr)
  | free (thread : Thread)
  deriving DecidableEq, Repr

namespace MemTracker

/-- Before the first call. -/
def new : MemTracker Thread Addr Tag where
  table := Table.empty
  live := Table.empty
  held := Table.empty
  calls := fun _ ↦ .outside

variable [DecidableEq Thread] [DecidableEq Addr]

/-- The table without the entry of a pointer, which may be null. -/
def erasePtr {V : Type*} (table : Table Addr V) : Option Addr → Table Addr V
  | none => table
  | some mem => table.erase mem

/-- A thread goes on. -/
def setCall (tracker : MemTracker Thread Addr Tag) (thread : Thread) (call : MemCall Addr Tag) :
    MemTracker Thread Addr Tag :=
  { tracker with calls := Function.update tracker.calls thread call }

/-- The system allocator returns a block to `malloc` or `calloc`. -/
def allocate (tracker : MemTracker Thread Addr Tag) (thread : Thread) (block : MemBlock Tag)
    (mem : Addr) : Option (MemTracker Thread Addr Tag) :=
  match tracker.calls thread, tracker.live mem with
  | .outside, none =>
    some ({ tracker with live := Function.update tracker.live mem (some block) }.setCall thread
      (.tracking mem block))
  | _, _ => none

/-- One step. -/
def step (tracker : MemTracker Thread Addr Tag) :
    MemAction Thread Addr Tag → Option (MemTracker Thread Addr Tag)
  | .malloc thread size tag mem => tracker.allocate thread ⟨size, tag⟩ mem
  | .calloc thread n size tag mem =>
    -- the system allocator refuses a product that does not fit
    if n * size < 2 ^ 64 then tracker.allocate thread ⟨n * size, tag⟩ mem else none
  | .track thread =>
    match tracker.calls thread with
    | .tracking mem block =>
      some ({ tracker with
        table := tracker.table.insertNew mem block.entry
        held := Function.update tracker.held mem (some block) }.setCall thread .outside)
    | _ => none
  | .realloc thread mem size tag newMem =>
    match tracker.calls thread with
    | .outside =>
      -- the block stays where it is, or its address is free when another one is returned
      if (∀ old ∈ mem, (tracker.held old).isSome) ∧
          (mem = some newMem ∨ (tracker.live newMem).isNone) then
        some ({ tracker with
          live := Function.update (erasePtr tracker.live mem) newMem (some ⟨size, tag⟩)
          held := erasePtr tracker.held mem }.setCall thread
            (.retracking mem newMem ⟨size, tag⟩))
      else none
    | _ => none
  | .retrack thread =>
    match tracker.calls thread with
    | .retracking mem newMem block =>
      some ({ tracker with
        table := (erasePtr tracker.table mem).insertNew newMem block.entry
        held := Function.update tracker.held newMem (some block) }.setCall thread .outside)
    | _ => none
  | .untrack thread mem =>
    match tracker.calls thread, tracker.held mem with
    | .outside, some _ =>
      some ({ tracker with
        table := tracker.table.erase mem
        held := tracker.held.erase mem }.setCall thread (.freeing mem))
    | _, _ => none
  | .free thread =>
    match tracker.calls thread with
    | .freeing mem =>
      some ({ tracker with live := tracker.live.erase mem }.setCall thread .outside)
    | _ => none

end MemTracker

/-- The block that is at the hands of a call. -/
def MemCall.owned : MemCall Addr Tag → Option Addr
  | .outside => none
  | .tracking mem _ => some mem
  | .retracking _ newMem _ => some newMem
  | .freeing mem => some mem

/-- The block that a call is about to track. -/
def MemCall.pending : MemCall Addr Tag → Option (Addr × MemBlock Tag)
  | .tracking mem block => some (mem, block)
  | .retracking _ newMem block => some (newMem, block)
  | _ => none

/-- The address whose entry a call is about to erase. -/
def MemCall.old : MemCall Addr Tag → Option Addr
  | .retracking mem _ _ => mem
  | _ => none

/-! ### Who has the blocks -/

/-- What the system allocator has handed out is held by the program or at the hands of one call. -/
structure MemOwnership (live held : Table Addr (MemBlock Tag))
    (calls : Thread → MemCall Addr Tag) : Prop where
  held_live : ∀ mem block, held mem = some block → live mem = some block
  owned_live : ∀ thread mem, (calls thread).owned = some mem → live mem ≠ none
  owned_held : ∀ thread mem, (calls thread).owned = some mem → held mem = none
  unshared : ∀ first second mem, (calls first).owned = some mem →
    (calls second).owned = some mem → first = second
  pending : ∀ thread mem block, (calls thread).pending = some (mem, block) → live mem = some block
  settled : ∀ mem block, live mem = some block →
    held mem = some block ∨ ∃ thread, (calls thread).owned = some mem

theorem MemCall.owned_of_pending {call : MemCall Addr Tag} {mem : Addr} {block : MemBlock Tag}
    (hpending : call.pending = some (mem, block)) : call.owned = some mem := by
  cases call with
  | outside => cases hpending
  | tracking found asked =>
    cases hpending
    rfl
  | retracking ptr found asked =>
    cases hpending
    rfl
  | freeing found => cases hpending

namespace MemOwnership

theorem new : MemOwnership (Table.empty : Table Addr (MemBlock Tag)) Table.empty
    (fun _ : Thread ↦ .outside) where
  held_live _ _ hheld := nomatch hheld
  owned_live _ _ howned := nomatch howned
  owned_held _ _ _ := rfl
  unshared _ _ _ howned := nomatch howned
  pending _ _ _ hpending := nomatch hpending
  settled _ _ hlive := nomatch hlive

variable {live held : Table Addr (MemBlock Tag)} {calls : Thread → MemCall Addr Tag}
  {thread : Thread} {mem : Addr} {block : MemBlock Tag}

/-- The address that the system allocator returns is in nobody's hands. -/
theorem held_of_free (hinv : MemOwnership live held calls) (hfree : live mem = none) :
    held mem = none := by
  cases hheld : held mem with
  | none => rfl
  | some block => cases hfree.symm.trans (hinv.held_live mem block hheld)

variable [DecidableEq Thread]

/-- What is read off the call of a thread after another call of one of them. -/
theorem update_cases {B : Type*} {f : MemCall Addr Tag → Option B} {call : MemCall Addr Tag}
    {other : Thread} {found : B}
    (hfound : f (Function.update calls thread call other) = some found) :
    other = thread ∧ f call = some found ∨ other ≠ thread ∧ f (calls other) = some found := by
  by_cases heq : other = thread
  · subst heq
    rw [Function.update_self] at hfound
    exact Or.inl ⟨rfl, hfound⟩
  · rw [Function.update_of_ne heq] at hfound
    exact Or.inr ⟨heq, hfound⟩

/-- A thread that takes an address which is in nobody's hands shares it with nobody. -/
theorem unshared_update (hinv : MemOwnership live held calls) {call : MemCall Addr Tag}
    (hfree : ∀ mem, call.owned = some mem → ∀ other ≠ thread, (calls other).owned ≠ some mem)
    (first second : Thread) (mem : Addr)
    (hfirst : (Function.update calls thread call first).owned = some mem)
    (hsecond : (Function.update calls thread call second).owned = some mem) : first = second := by
  rcases update_cases hfirst with ⟨rfl, hone⟩ | ⟨hne, hone⟩ <;>
    rcases update_cases hsecond with ⟨rfl, htwo⟩ | ⟨hne', htwo⟩
  · rfl
  · exact absurd htwo (hfree mem hone second hne')
  · exact absurd hone (hfree mem htwo first hne)
  · exact hinv.unshared first second mem hone htwo

/-- An address that another thread, or none, has in its hands stays there. -/
theorem owned_update {call : MemCall Addr Tag} {other : Thread}
    (howned : (calls other).owned = some mem) (hne : (calls thread).owned ≠ some mem) :
    ∃ any, (Function.update calls thread call any).owned = some mem := by
  refine ⟨other, ?_⟩
  rwa [Function.update_of_ne]
  rintro rfl
  exact hne howned

variable [DecidableEq Addr]

/-- The system allocator returns a block to a call. -/
theorem allocate (hinv : MemOwnership live held calls) {call : MemCall Addr Tag}
    (houtside : calls thread = .outside) (hfree : live mem = none)
    (hcall : call.pending = some (mem, block)) :
    MemOwnership (Function.update live mem (some block)) held
      (Function.update calls thread call) := by
  have howner := MemCall.owned_of_pending hcall
  have hnone : ∀ other, (calls other).owned ≠ some mem :=
    fun other howned ↦ hinv.owned_live other mem howned hfree
  exact {
    held_live := fun other found hheld ↦ by
      have hlive := hinv.held_live other found hheld
      rw [Function.update_of_ne fun heq ↦ by rw [heq, hfree] at hlive; cases hlive]
      exact hlive
    owned_live := fun other found howned ↦ by
      rcases update_cases howned with ⟨-, hfound⟩ | ⟨-, hfound⟩
      · cases howner.symm.trans hfound
        rw [Function.update_self]
        exact Option.some_ne_none block
      · rw [Function.update_of_ne fun heq ↦ hnone other (hfound.trans (congrArg some heq))]
        exact hinv.owned_live other found hfound
    owned_held := fun other found howned ↦ by
      rcases update_cases howned with ⟨-, hfound⟩ | ⟨-, hfound⟩
      · cases howner.symm.trans hfound
        exact hinv.held_of_free hfree
      · exact hinv.owned_held other found hfound
    unshared := unshared_update hinv fun found hfound other _ ↦ by
      cases howner.symm.trans hfound
      exact hnone other
    pending := fun other found asked hpending ↦ by
      rcases update_cases hpending with ⟨-, hfound⟩ | ⟨-, hfound⟩
      · cases hcall.symm.trans hfound
        exact Function.update_self _ _ _
      · rw [Function.update_of_ne fun heq ↦
          hnone other ((MemCall.owned_of_pending hfound).trans (congrArg some heq))]
        exact hinv.pending other found asked hfound
    settled := fun other found hlive ↦ by
      rcases Leased.update_eq_some_cases hlive with ⟨rfl, -⟩ | ⟨-, hold⟩
      · refine Or.inr ⟨thread, ?_⟩
        rwa [Function.update_self]
      · refine (hinv.settled other found hold).imp_right fun ⟨any, howned⟩ ↦ ?_
        refine owned_update howned ?_
        rw [houtside]
        exact fun hfound ↦ by cases hfound }

/-- A call returns the block that it tracked. -/
theorem finish (hinv : MemOwnership live held calls)
    (hcall : (calls thread).pending = some (mem, block)) :
    MemOwnership live (Function.update held mem (some block))
      (Function.update calls thread .outside) := by
  have howner := MemCall.owned_of_pending hcall
  exact {
    held_live := fun other found hheld ↦ by
      rcases Leased.update_eq_some_cases hheld with ⟨rfl, hblock⟩ | ⟨-, hheld⟩
      · cases hblock
        exact hinv.pending thread other block hcall
      · exact hinv.held_live other found hheld
    owned_live := fun other found howned ↦ by
      rcases update_cases howned with ⟨-, hfound⟩ | ⟨-, hfound⟩
      · cases hfound
      · exact hinv.owned_live other found hfound
    owned_held := fun other found howned ↦ by
      rcases update_cases howned with ⟨-, hfound⟩ | ⟨hne, hfound⟩
      · cases hfound
      · rw [Function.update_of_ne fun heq ↦
          hne (hinv.unshared other thread mem (hfound.trans (congrArg some heq)) howner)]
        exact hinv.owned_held other found hfound
    unshared := unshared_update hinv fun found hfound ↦ by cases hfound
    pending := fun other found asked hpending ↦ by
      rcases update_cases hpending with ⟨-, hfound⟩ | ⟨-, hfound⟩
      · cases hfound
      · exact hinv.pending other found asked hfound
    settled := fun other found hlive ↦ by
      by_cases heq : other = mem
      · subst heq
        refine Or.inl ?_
        rw [Function.update_self, ← hinv.pending thread other block hcall]
        exact hlive
      · rw [Function.update_of_ne heq]
        refine (hinv.settled other found hlive).imp_right fun ⟨any, howned⟩ ↦ ?_
        refine owned_update howned fun hfound ↦ heq ?_
        exact Option.some.inj (hfound.symm.trans howner) }

omit [DecidableEq Thread] in
/-- The system allocator takes back a block that the program held. -/
theorem giveBack (hinv : MemOwnership live held calls) (hheld : held mem = some block) :
    MemOwnership (live.erase mem) (held.erase mem) calls := by
  have hne : ∀ other found, (calls other).owned = some found → found ≠ mem := by
    rintro other found howned rfl
    cases hheld.symm.trans (hinv.owned_held other found howned)
  exact {
    held_live := fun other found hfound ↦ by
      have hother : other ≠ mem := fun heq ↦ by
        rw [heq, Table.erase_self] at hfound
        cases hfound
      rw [Table.erase_of_ne _ hother] at hfound ⊢
      exact hinv.held_live other found hfound
    owned_live := fun other found howned ↦ by
      rw [Table.erase_of_ne _ (hne other found howned)]
      exact hinv.owned_live other found howned
    owned_held := fun other found howned ↦ by
      rw [Table.erase_of_ne _ (hne other found howned)]
      exact hinv.owned_held other found howned
    unshared := hinv.unshared
    pending := fun other found asked hpending ↦ by
      rw [Table.erase_of_ne _ (hne other found (MemCall.owned_of_pending hpending))]
      exact hinv.pending other found asked hpending
    settled := fun other found hlive ↦ by
      have hother : other ≠ mem := fun heq ↦ by
        rw [heq, Table.erase_self] at hlive
        cases hlive
      rw [Table.erase_of_ne _ hother] at hlive ⊢
      exact hinv.settled other found hlive }

/-- The program passes a block to `free`. -/
theorem beginFree (hinv : MemOwnership live held calls) (houtside : calls thread = .outside)
    (hheld : held mem = some block) :
    MemOwnership live (held.erase mem) (Function.update calls thread (.freeing mem)) := by
  have hnone : ∀ other, (calls other).owned ≠ some mem := by
    intro other howned
    cases hheld.symm.trans (hinv.owned_held other mem howned)
  exact {
    held_live := fun other found hfound ↦ hinv.held_live other found (Table.erase_eq_some hfound)
    owned_live := fun other found howned ↦ by
      rcases update_cases howned with ⟨-, hfound⟩ | ⟨-, hfound⟩
      · cases hfound
        rw [hinv.held_live mem block hheld]
        exact Option.some_ne_none block
      · exact hinv.owned_live other found hfound
    owned_held := fun other found howned ↦ by
      rcases update_cases howned with ⟨-, hfound⟩ | ⟨-, hfound⟩
      · cases hfound
        exact Table.erase_self held mem
      · rw [Table.erase_of_ne _ fun heq ↦ hnone other (hfound.trans (congrArg some heq))]
        exact hinv.owned_held other found hfound
    unshared := unshared_update hinv fun found hfound other _ ↦ by
      cases hfound
      exact hnone other
    pending := fun other found asked hpending ↦ by
      rcases update_cases hpending with ⟨-, hfound⟩ | ⟨-, hfound⟩
      · cases hfound
      · exact hinv.pending other found asked hfound
    settled := fun other found hlive ↦ by
      by_cases heq : other = mem
      · refine Or.inr ⟨thread, ?_⟩
        rw [Function.update_self, heq]
        rfl
      · rw [Table.erase_of_ne _ heq]
        refine (hinv.settled other found hlive).imp_right fun ⟨any, howned⟩ ↦ ?_
        refine owned_update howned ?_
        rw [houtside]
        exact fun hfound ↦ by cases hfound }

/-- The system allocator takes back the block that was passed to `free`. -/
theorem free (hinv : MemOwnership live held calls) (hcall : calls thread = .freeing mem) :
    MemOwnership (live.erase mem) held (Function.update calls thread .outside) := by
  have howner : (calls thread).owned = some mem := by
    rw [hcall]
    rfl
  have hother : ∀ other ≠ thread, (calls other).owned ≠ some mem :=
    fun other hne howned ↦ hne (hinv.unshared other thread mem howned howner)
  exact {
    held_live := fun other found hheld ↦ by
      have hne : other ≠ mem := by
        rintro rfl
        cases hheld.symm.trans (hinv.owned_held thread other howner)
      rw [Table.erase_of_ne _ hne]
      exact hinv.held_live other found hheld
    owned_live := fun other found howned ↦ by
      rcases update_cases howned with ⟨-, hfound⟩ | ⟨hne, hfound⟩
      · cases hfound
      · rw [Table.erase_of_ne _ fun heq ↦ hother other hne (hfound.trans (congrArg some heq))]
        exact hinv.owned_live other found hfound
    owned_held := fun other found howned ↦ by
      rcases update_cases howned with ⟨-, hfound⟩ | ⟨-, hfound⟩
      · cases hfound
      · exact hinv.owned_held other found hfound
    unshared := unshared_update hinv fun found hfound ↦ by cases hfound
    pending := fun other found asked hpending ↦ by
      rcases update_cases hpending with ⟨-, hfound⟩ | ⟨hne, hfound⟩
      · cases hfound
      · rw [Table.erase_of_ne _ fun heq ↦
          hother other hne ((MemCall.owned_of_pending hfound).trans (congrArg some heq))]
        exact hinv.pending other found asked hfound
    settled := fun other found hlive ↦ by
      have hne : other ≠ mem := fun heq ↦ by
        rw [heq, Table.erase_self] at hlive
        cases hlive
      rw [Table.erase_of_ne _ hne] at hlive
      refine (hinv.settled other found hlive).imp_right fun ⟨any, howned⟩ ↦ ?_
      refine owned_update howned fun hfound ↦ hne ?_
      exact Option.some.inj (hfound.symm.trans howner) }

end MemOwnership

/-! ### What holds in every run -/

/-- A block was resized, and the entry of its old address is still to be erased. -/
def Moving (calls : Thread → MemCall Addr Tag) (mem : Addr) : Prop :=
  ∃ thread, (calls thread).old = some mem

namespace MemTracker

/-- What holds of the tracker in every run without a lost entry: the table has what the program
holds, but for the addresses of blocks that move. -/
structure MemInv (tracker : MemTracker Thread Addr Tag) : Prop where
  owner : MemOwnership tracker.live tracker.held tracker.calls
  tracked : ∀ mem, ¬ Moving tracker.calls mem →
    tracker.table mem = (tracker.held mem).map MemBlock.entry
  fits : ∀ mem block, tracker.live mem = some block → block.size < 2 ^ 31

theorem memInv_new : (new : MemTracker Thread Addr Tag).MemInv where
  owner := MemOwnership.new
  tracked _ _ := rfl
  fits _ _ hlive := nomatch hlive

section Steps

variable [DecidableEq Thread] {tracker : MemTracker Thread Addr Tag} {thread : Thread}
  {mem newMem : Addr} {ptr : Option Addr} {block : MemBlock Tag} {call : MemCall Addr Tag}

/-- A block that moves does so after another step of a thread, unless it is the one that the thread
moved. -/
theorem moving_update {other : Addr} (hmoving : Moving tracker.calls other)
    (hne : (tracker.calls thread).old ≠ some other) :
    Moving (Function.update tracker.calls thread call) other := by
  obtain ⟨any, hany⟩ := hmoving
  refine ⟨any, ?_⟩
  rwa [Function.update_of_ne]
  rintro rfl
  exact hne hany

variable [DecidableEq Addr]

theorem MemInv.allocate (hinv : tracker.MemInv) (houtside : tracker.calls thread = .outside)
    (hfree : tracker.live mem = none) (hfits : block.size < 2 ^ 31) :
    MemInv ({ tracker with live := Function.update tracker.live mem (some block) }.setCall thread
      (.tracking mem block)) where
  owner := hinv.owner.allocate houtside hfree rfl
  tracked other hmoving := by
    refine hinv.tracked other fun hmoves ↦ hmoving (moving_update hmoves ?_)
    rw [houtside]
    exact fun hfound ↦ by cases hfound
  fits other found hlive := by
    rcases Leased.update_eq_some_cases hlive with ⟨-, heq⟩ | ⟨-, hlive⟩
    · exact Option.some.inj heq ▸ hfits
    · exact hinv.fits other found hlive

omit [DecidableEq Thread] in
/-- Assumes: a block that no thread moves and the program does not hold. It has no entry, so it gets
one. -/
theorem MemInv.insertNew (hinv : tracker.MemInv) (hmoving : ¬ Moving tracker.calls mem)
    (hheld : tracker.held mem = none) (entry : MemEntry Tag) :
    tracker.table.insertNew mem entry = Function.update tracker.table mem (some entry) := by
  refine Table.insertNew_of_none ?_ entry
  rw [hinv.tracked mem hmoving, hheld]
  rfl

theorem MemInv.track (hinv : tracker.MemInv) (hcall : tracker.calls thread = .tracking mem block) :
    MemInv ({ tracker with
      table := tracker.table.insertNew mem block.entry
      held := Function.update tracker.held mem (some block) }.setCall thread .outside) where
  owner := hinv.owner.finish (by rw [hcall]; rfl)
  tracked other hmoving := by
    have hstill : ¬ Moving tracker.calls other := fun hmoves ↦ hmoving (moving_update hmoves (by
      rw [hcall]
      exact fun hfound ↦ by cases hfound))
    change tracker.table.insertNew mem block.entry other =
      (Function.update tracker.held mem (some block) other).map MemBlock.entry
    by_cases heq : other = mem
    · subst heq
      have howned : (tracker.calls thread).owned = some other := by
        rw [hcall]
        rfl
      rw [hinv.insertNew hstill (hinv.owner.owned_held thread other howned), Function.update_self,
        Function.update_self]
      rfl
    · rw [Table.insertNew_of_ne _ heq, Function.update_of_ne heq]
      exact hinv.tracked other hstill
  fits := hinv.fits

theorem erasePtr_of_ne {V : Type*} (table : Table Addr V) {other : Addr} (hne : ptr ≠ some other) :
    erasePtr table ptr other = table other := by
  cases ptr with
  | none => rfl
  | some old => exact Table.erase_of_ne _ fun heq ↦ hne (congrArg some heq.symm)

theorem erasePtr_eq_some {V : Type*} {table : Table Addr V} {other : Addr} {found : V}
    (hfound : erasePtr table ptr other = some found) : table other = some found := by
  cases ptr with
  | none => exact hfound
  | some old => exact Table.erase_eq_some hfound

/-- Assumes: a block that the program holds, or a null pointer, and an address that is free when the
block is given back. -/
theorem MemInv.realloc (hinv : tracker.MemInv) (houtside : tracker.calls thread = .outside)
    (hheld : ∀ old ∈ ptr, (tracker.held old).isSome = true)
    (hfree : ptr = some newMem ∨ tracker.live newMem = none) (hfits : block.size < 2 ^ 31) :
    MemInv ({ tracker with
      live := Function.update (erasePtr tracker.live ptr) newMem (some block)
      held := erasePtr tracker.held ptr }.setCall thread (.retracking ptr newMem block)) where
  owner := by
    have hgiven : MemOwnership (erasePtr tracker.live ptr) (erasePtr tracker.held ptr)
        tracker.calls := by
      cases ptr with
      | none => exact hinv.owner
      | some old =>
        obtain ⟨asked, hold⟩ := Option.isSome_iff_exists.mp (hheld old rfl)
        exact hinv.owner.giveBack hold
    refine hgiven.allocate houtside ?_ rfl
    rcases hfree with rfl | hnone
    · exact Table.erase_self _ _
    · cases hlive : erasePtr tracker.live ptr newMem with
      | none => rfl
      | some found => cases hnone.symm.trans (erasePtr_eq_some hlive)
  tracked other hmoving := by
    have hne : ptr ≠ some other := fun heq ↦ hmoving ⟨thread, by
      change (Function.update tracker.calls thread _ thread).old = _
      rw [Function.update_self]
      exact heq⟩
    have hstill : ¬ Moving tracker.calls other := fun hmoves ↦ hmoving (moving_update hmoves (by
      rw [houtside]
      exact fun hfound ↦ by cases hfound))
    change tracker.table other = (erasePtr tracker.held ptr other).map MemBlock.entry
    rw [erasePtr_of_ne _ hne]
    exact hinv.tracked other hstill
  fits other found hlive := by
    rcases Leased.update_eq_some_cases hlive with ⟨-, heq⟩ | ⟨-, hlive⟩
    · exact Option.some.inj heq ▸ hfits
    · exact hinv.fits other found (erasePtr_eq_some hlive)

/-- Assumes: nobody was handed the old address of a block that moved. Its entry is erased, and the
new address gets one. -/
theorem MemInv.retrack (hinv : tracker.MemInv)
    (hcall : tracker.calls thread = .retracking ptr newMem block)
    (hsafe : ∀ old ∈ ptr, old ≠ newMem → tracker.held old = none) :
    MemInv ({ tracker with
      table := (erasePtr tracker.table ptr).insertNew newMem block.entry
      held := Function.update tracker.held newMem (some block) }.setCall thread .outside) where
  owner := hinv.owner.finish (by rw [hcall]; rfl)
  tracked other hmoving := by
    change (erasePtr tracker.table ptr).insertNew newMem block.entry other =
      (Function.update tracker.held newMem (some block) other).map MemBlock.entry
    have howned : (tracker.calls thread).owned = some newMem := by
      rw [hcall]
      rfl
    have hold : (tracker.calls thread).old = ptr := by
      rw [hcall]
      rfl
    have hstill : ptr ≠ some other → ¬ Moving tracker.calls other :=
      fun hne hmoves ↦ hmoving (moving_update hmoves (hold.symm ▸ hne))
    by_cases hnew : other = newMem
    · -- the new address: its old entry, if it has one, is the one that is erased
      subst hnew
      have hnone : erasePtr tracker.table ptr other = none := by
        by_cases hsame : ptr = some other
        · rw [hsame]
          exact Table.erase_self _ _
        · rw [erasePtr_of_ne _ hsame, hinv.tracked other (hstill hsame),
            hinv.owner.owned_held thread other howned]
          rfl
      rw [Table.insertNew_of_none hnone, Function.update_self, Function.update_self]
      rfl
    rw [Table.insertNew_of_ne _ hnew, Function.update_of_ne hnew]
    by_cases hsame : ptr = some other
    · rw [hsafe other hsame hnew, hsame]
      exact Table.erase_self _ _
    · rw [erasePtr_of_ne _ hsame]
      exact hinv.tracked other (hstill hsame)
  fits := hinv.fits

theorem MemInv.untrack (hinv : tracker.MemInv) (houtside : tracker.calls thread = .outside)
    (hheld : tracker.held mem = some block) :
    MemInv ({ tracker with
      table := tracker.table.erase mem
      held := tracker.held.erase mem }.setCall thread (.freeing mem)) where
  owner := hinv.owner.beginFree houtside hheld
  tracked other hmoving := by
    have hstill : ¬ Moving tracker.calls other := fun hmoves ↦ hmoving (moving_update hmoves (by
      rw [houtside]
      exact fun hfound ↦ by cases hfound))
    change tracker.table.erase mem other = (tracker.held.erase mem other).map MemBlock.entry
    by_cases heq : other = mem
    · rw [heq, Table.erase_self, Table.erase_self]
      rfl
    · rw [Table.erase_of_ne _ heq, Table.erase_of_ne _ heq]
      exact hinv.tracked other hstill
  fits := hinv.fits

theorem MemInv.free (hinv : tracker.MemInv) (hcall : tracker.calls thread = .freeing mem) :
    MemInv ({ tracker with live := tracker.live.erase mem }.setCall thread .outside) where
  owner := hinv.owner.free hcall
  tracked other hmoving := by
    refine hinv.tracked other fun hmoves ↦ hmoving (moving_update hmoves ?_)
    rw [hcall]
    exact fun hfound ↦ by cases hfound
  fits other found hlive := hinv.fits other found (Table.erase_eq_some hlive)

/-- The step loses no entry and cuts no size off: when the entry of the old address of a block that
moved is erased, the program has not been handed this address again, and a size that is asked for
fits into an `int`. -/
def safe (tracker : MemTracker Thread Addr Tag) : MemAction Thread Addr Tag → Bool
  | .malloc _ size _ _ => size < 2 ^ 31
  | .calloc _ n size _ _ => n * size < 2 ^ 31
  | .realloc _ _ size _ _ => size < 2 ^ 31
  | .retrack thread =>
    match tracker.calls thread with
    | .retracking (some old) newMem _ => old = newMem || (tracker.held old).isNone
    | _ => true
  | _ => true

/-- A schedule of safe steps. -/
abbrev Safe (actions : List (MemAction Thread Addr Tag)) : Prop :=
  Along step (fun tracker action ↦ tracker.safe action = true) new actions

theorem allocate_eq_some {next : MemTracker Thread Addr Tag}
    (hstep : tracker.allocate thread block mem = some next) :
    tracker.calls thread = .outside ∧ tracker.live mem = none ∧
      next = { tracker with live := Function.update tracker.live mem (some block) }.setCall thread
        (.tracking mem block) := by
  unfold allocate at hstep
  split at hstep
  · rename_i houtside hfree
    exact ⟨houtside, hfree, (Option.some.inj hstep).symm⟩
  · cases hstep

theorem memInv_step {action : MemAction Thread Addr Tag} {next : MemTracker Thread Addr Tag}
    (hinv : tracker.MemInv) (hsafe : tracker.safe action = true)
    (hstep : tracker.step action = some next) : next.MemInv := by
  cases action with
  | malloc thread size tag mem =>
    obtain ⟨houtside, hfree, rfl⟩ := allocate_eq_some hstep
    exact hinv.allocate houtside hfree (of_decide_eq_true hsafe)
  | calloc thread n size tag mem =>
    obtain ⟨-, hstep⟩ := Option.ite_none_right_eq_some.mp hstep
    obtain ⟨houtside, hfree, rfl⟩ := allocate_eq_some hstep
    exact hinv.allocate houtside hfree (of_decide_eq_true hsafe)
  | track thread =>
    simp only [step] at hstep
    split at hstep
    · rename_i mem block hcall
      cases hstep
      exact hinv.track hcall
    · cases hstep
  | realloc thread ptr size tag newMem =>
    simp only [step] at hstep
    split at hstep
    · rename_i houtside
      obtain ⟨⟨hheld, hfree⟩, hstep⟩ := Option.ite_none_right_eq_some.mp hstep
      cases hstep
      exact hinv.realloc houtside hheld (hfree.imp_right Option.isNone_iff_eq_none.mp)
        (of_decide_eq_true hsafe)
    · cases hstep
  | retrack thread =>
    simp only [step] at hstep
    split at hstep
    · rename_i ptr newMem block hcall
      cases hstep
      refine hinv.retrack hcall fun old hold hne ↦ ?_
      cases hold
      simp only [safe, hcall, Bool.or_eq_true, decide_eq_true_eq] at hsafe
      exact Option.isNone_iff_eq_none.mp (hsafe.resolve_left hne)
    · cases hstep
  | untrack thread mem =>
    simp only [step] at hstep
    split at hstep
    · rename_i block houtside hheld
      cases hstep
      exact hinv.untrack houtside hheld
    · cases hstep
  | free thread =>
    simp only [step] at hstep
    split at hstep
    · rename_i mem hcall
      cases hstep
      exact hinv.free hcall
    · cases hstep

/-- What an unsafe `_RETRACK_MEM` does: a block that the program holds has no entry. -/
theorem retrack_loses {next : MemTracker Thread Addr Tag} {old : Addr} {lost : MemBlock Tag}
    (hcall : tracker.calls thread = .retracking (some old) newMem block) (hne : old ≠ newMem)
    (hheld : tracker.held old = some lost) (hstep : tracker.step (.retrack thread) = some next) :
    next.held old = some lost ∧ next.table old = none := by
  simp only [step, hcall, Option.some.injEq] at hstep
  subst hstep
  constructor
  · exact (Function.update_of_ne hne _ _).trans hheld
  · exact (Table.insertNew_of_ne _ hne _).trans (Table.erase_self _ _)

end Steps

/-! ### Between calls -/

/-- No call is in progress. -/
def Quiet (tracker : MemTracker Thread Addr Tag) : Prop :=
  ∀ thread, tracker.calls thread = .outside

/-- The keys of the table are the live blocks, each with the tag and the size of the call that
allocated or resized it last. -/
def Exact (tracker : MemTracker Thread Addr Tag) : Prop :=
  ∀ mem, tracker.table mem =
    (tracker.live mem).map fun block ↦ ⟨block.tag, (block.size : ℤ)⟩

theorem MemInv.exact {tracker : MemTracker Thread Addr Tag} (hinv : tracker.MemInv)
    (hquiet : tracker.Quiet) : tracker.Exact := by
  intro mem
  have hstill : ¬ Moving tracker.calls mem := by
    rintro ⟨thread, hold⟩
    rw [hquiet thread] at hold
    cases hold
  have hlive : tracker.live mem = tracker.held mem := by
    cases hfound : tracker.live mem with
    | none => exact (hinv.owner.held_of_free hfound).symm
    | some block =>
      rcases hinv.owner.settled mem block hfound with hheld | ⟨thread, howned⟩
      · exact hheld.symm
      · rw [hquiet thread] at howned
        cases howned
  rw [hinv.tracked mem hstill, ← hlive]
  refine Option.map_congr fun block hblock ↦ ?_
  rw [MemBlock.entry, asInt32_of_lt (hinv.fits mem block hblock)]

/-- For every number of threads and every interleaving of their steps, each of them safe: whenever
no call is in progress, the table is exact. -/
theorem memTracker_exact [DecidableEq Thread] [DecidableEq Addr]
    {actions : List (MemAction Thread Addr Tag)} {tracker : MemTracker Thread Addr Tag}
    (hrun : runFrom step new actions = some tracker) (hsafe : Safe actions)
    (hquiet : tracker.Quiet) : tracker.Exact :=
  (runFrom_invariant_along MemInv (fun _ _ _ ↦ memInv_step) memInv_new hsafe hrun).exact hquiet

/-- A block of 16 bytes is allocated, resized to 32 and moved. -/
def resizeRun : List (MemAction Bool ℕ Unit) :=
  [.malloc false 16 () 1, .track false, .realloc false (some 1) 32 () 2, .retrack false]

theorem memTracker_exact_resizeRun :
    ∃ tracker : MemTracker Bool ℕ Unit, runFrom step new resizeRun = some tracker ∧
      tracker.table 2 = some ⟨(), 32⟩ ∧ tracker.Exact := by
  refine ⟨_, rfl, by decide, @memTracker_exact _ _ _ _ _ resizeRun _ rfl (by decide) ?_⟩
  intro thread
  cases thread <;> rfl

/-- Two threads: while one resizes its block, the other is handed the old address. -/
def reusedRun : List (MemAction Bool ℕ Unit) :=
  [.malloc false 16 () 1, .track false, .realloc false (some 1) 32 () 2, .malloc true 8 () 1,
    .track true, .retrack false]

/-- When both calls are over, the block at the old address is live and has no entry. -/
theorem not_exact_reusedRun :
    ∃ tracker : MemTracker Bool ℕ Unit, runFrom step new reusedRun = some tracker ∧
      tracker.Quiet ∧ tracker.live 1 = some ⟨8, ()⟩ ∧ tracker.table 1 = none ∧ ¬ tracker.Exact := by
  refine ⟨_, rfl, fun thread ↦ by cases thread <;> rfl, by decide, by decide, fun hexact ↦ ?_⟩
  exact absurd (hexact 1) (by decide)

end MemTracker

end TszyUlt.Zbf
