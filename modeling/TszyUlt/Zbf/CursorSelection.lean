import TszyUlt.Lib.Transition
import TszyUlt.Zbf.HaClients
import TszyUlt.Zbf.HaPool

/-!
# The cursor of a vector that is cleared

`zbf/socket_tcp_v5.hpp`: `getPool` of `tcpsock_ha_cltpool` and `getClient` of `tcpsock_ha_asynclt`.
Both keep a cursor into a vector that grows with `addPool` and `addConnect`, and is emptied by
`clearPools` and `disconnect`. The cursor goes back to the front when it is equal to the size of the
vector. Nothing moves it when the vector is emptied, so it may be past the end of a vector that was
filled again, and then it is used as an index.

A `Selector` is such a vector with its cursor. `Search.Fair` is what is expected of a call: every
index is in the vector, and what is returned is the first usable element in cyclic order after the
one that was examined last, or null if there is none. `allFair_iff` says that this holds of every
call of a run exactly if each finds the vector empty or the cursor in it or at its end (`InStep`).

Scope. The mutexes make each call one step, and the state of an element does not change in the
middle of one. What is done with the element that is returned is not modelled.
-/

set_option autoImplicit false
set_option relaxedAutoImplicit false

namespace TszyUlt.Zbf

open Lib

variable {α : Type*}

/-! ### The search -/

/-- What a search comes to. -/
inductive Selection
  | found (position : ℕ)
  | null
  /-- An index that the vector does not have was used: nothing is defined from here on. -/
  | outOfRange
  deriving DecidableEq, Repr

/-- The cursor after a search, the indexes that it used, and what it came to. -/
structure SearchEnd where
  cursor : ℕ
  looked : List ℕ
  selection : Selection
  deriving DecidableEq, Repr

/-- The loop of `getPool` and of `getClient`, with the rounds that are left. -/
def searchFrom (items : List α) (usable : α → Bool) : ℕ → ℕ → SearchEnd
  | 0, cursor => ⟨cursor, [], .null⟩
  | rounds + 1, cursor =>
    let position := if cursor = items.length then 0 else cursor
    match items[position]? with
    | none => ⟨position + 1, [position], .outOfRange⟩
    | some item =>
      if usable item then ⟨position + 1, [position], .found position⟩
      else
        let later := searchFrom items usable rounds (position + 1)
        { later with looked := position :: later.looked }

/-- A search, with the vector that it found and the position that was examined last before it. -/
structure Search (α : Type*) where
  items : List α
  previous : Option ℕ
  looked : List ℕ
  selection : Selection

/-- The position behind the one that was examined last. -/
def cursorAfter (examined : Option ℕ) : ℕ := examined.elim 0 (· + 1)

/-- What is expected of a search. -/
structure Search.Fair (usable : α → Bool) (search : Search α) : Prop where
  inRange : ∀ position ∈ search.looked, position < search.items.length
  null_iff : search.selection = .null ↔ ∀ item ∈ search.items, usable item = false
  first : search.selection ≠ .null → ∃ position, search.selection = .found position ∧
    FirstFrom search.items usable (cursorAfter search.previous) position

section Loop

variable {items : List α} {usable : α → Bool}

/-- The cursor is behind the last index that was used. -/
theorem searchFrom_cursor (rounds cursor : ℕ) :
    (searchFrom items usable rounds cursor).cursor =
      ((searchFrom items usable rounds cursor).looked.getLast?).elim cursor (· + 1) := by
  induction rounds generalizing cursor with
  | zero => rfl
  | succ rounds ih =>
    unfold searchFrom
    dsimp only
    split
    · rfl
    · rename_i item hitem
      by_cases husable : usable item = true
      · rw [if_pos husable]
        rfl
      · rw [if_neg husable]
        dsimp only
        rw [ih, List.getLast?_cons]
        cases (searchFrom items usable rounds _).looked.getLast? <;> rfl

/-- Assumes: a cursor in the vector or at its end. The loop is a search that goes on at the
front. -/
theorem searchFrom_of_le {rounds cursor : ℕ} (hcursor : cursor ≤ items.length)
    (hitems : items ≠ []) :
    (∀ position ∈ (searchFrom items usable rounds cursor).looked, position < items.length) ∧
      (searchFrom items usable rounds cursor).selection =
        (scan items usable rounds cursor).2.elim .null .found := by
  induction rounds generalizing cursor with
  | zero => exact ⟨fun _ hmem ↦ absurd hmem List.not_mem_nil, rfl⟩
  | succ rounds ih =>
    obtain ⟨hposition, hlt⟩ := scan_position hcursor hitems
    obtain ⟨hlooked, hselection⟩ := ih hlt
    rw [searchFrom, scan, hposition]
    simp only [List.getElem?_eq_getElem hlt, Option.any_some]
    split_ifs with husable
    · refine ⟨fun position hmem ↦ ?_, rfl⟩
      rw [List.mem_singleton.mp hmem]
      exact hlt
    · refine ⟨fun position hmem ↦ ?_, hselection⟩
      rcases List.mem_cons.mp hmem with rfl | hlater
      · exact hlt
      · exact hlooked position hlater

/-- Assumes: a cursor past the end of a vector with elements. The first index is past it too. -/
theorem searchFrom_of_gt {rounds cursor : ℕ} (hcursor : items.length < cursor) :
    searchFrom items usable (rounds + 1) cursor = ⟨cursor + 1, [cursor], .outOfRange⟩ := by
  rw [searchFrom, if_neg (Nat.ne_of_gt hcursor)]
  simp only [List.getElem?_eq_none hcursor.le]

end Loop

/-! ### A vector with a cursor -/

/-- The vector and the cursor of `tcpsock_ha_cltpool` or of `tcpsock_ha_asynclt`, and what an
observer records: the position that was examined last, and the searches. -/
structure Selector (α : Type*) where
  items : List α := []
  cursor : ℕ := 0
  examined : Option ℕ := none
  searches : List (Search α) := []
  cursor_eq : cursor = cursorAfter examined := by rfl

/-- What is done with a vector. The state of each element may change between two calls. -/
inductive SelectorAction (α : Type*)
  | push (item : α)
  | clear
  | change (become : ℕ → α → α)
  | search

namespace Selector

/-- Before any call. -/
def new : Selector α := {}

/-- An element is added at the end. -/
def push (selector : Selector α) (item : α) : Selector α :=
  { selector with items := selector.items ++ [item] }

/-- The vector is emptied. The cursor is left where it is. -/
def clear (selector : Selector α) : Selector α := { selector with items := [] }

/-- The state of the elements changes. -/
def change (selector : Selector α) (become : ℕ → α → α) : Selector α :=
  { selector with items := selector.items.mapIdx become }

/-- The search that begins now. -/
def nextSearch (usable : α → Bool) (selector : Selector α) : Search α :=
  let found := searchFrom selector.items usable selector.items.length selector.cursor
  ⟨selector.items, selector.examined, found.looked, found.selection⟩

/-- `getPool` and `getClient`. -/
def search (usable : α → Bool) (selector : Selector α) : Selector α where
  items := selector.items
  cursor := (searchFrom selector.items usable selector.items.length selector.cursor).cursor
  examined := ((selector.nextSearch usable).looked.getLast?).orElse fun _ ↦ selector.examined
  searches := selector.searches ++ [selector.nextSearch usable]
  cursor_eq := by
    rw [searchFrom_cursor, nextSearch]
    dsimp only
    cases (searchFrom selector.items usable selector.items.length
      selector.cursor).looked.getLast? with
    | none => exact selector.cursor_eq
    | some position => rfl

/-- An index outside of the vector was used. -/
def undefined (selector : Selector α) : Bool :=
  selector.searches.any fun search ↦ search.selection = .outOfRange

/-- The steps. -/
def step (usable : α → Bool) (selector : Selector α) (action : SelectorAction α) :
    Option (Selector α) :=
  if selector.undefined then none
  else
    match action with
    | .push item => some (selector.push item)
    | .clear => some selector.clear
    | .change become => some (selector.change become)
    | .search => some (selector.search usable)

/-- A search finds the vector empty, or the cursor in it or at its end. -/
def InStep (selector : Selector α) : SelectorAction α → Prop
  | .search => selector.items = [] ∨ selector.cursor ≤ selector.items.length
  | _ => True

/-- Every search so far was as expected. -/
def AllFair (usable : α → Bool) (selector : Selector α) : Prop :=
  ∀ search ∈ selector.searches, search.Fair usable

variable {usable : α → Bool} {selector : Selector α}

theorem AllFair.not_undefined (hfair : selector.AllFair usable) : selector.undefined = false := by
  rw [undefined, List.any_eq_false]
  intro search hmem
  rw [decide_eq_true_eq]
  intro hout
  obtain ⟨position, hfound, -⟩ := (hfair search hmem).first (by rw [hout]; exact nofun)
  rw [hout] at hfound
  cases hfound

/-- A search of an empty vector is as expected, wherever the cursor is. -/
theorem fair_nextSearch_nil (hitems : selector.items = []) :
    (selector.nextSearch usable).Fair usable := by
  have hsearch : selector.nextSearch usable = ⟨[], selector.examined, [], .null⟩ := by
    rw [nextSearch, hitems]
    rfl
  rw [hsearch]
  exact ⟨fun _ hmem ↦ absurd hmem List.not_mem_nil,
    iff_of_true rfl fun _ hmem ↦ absurd hmem List.not_mem_nil, fun hne ↦ absurd rfl hne⟩

/-- Assumes: a vector with elements, and the cursor in it or at its end. A search is as expected. -/
theorem fair_nextSearch (hitems : selector.items ≠ [])
    (hcursor : selector.cursor ≤ selector.items.length) :
    (selector.nextSearch usable).Fair usable := by
  obtain ⟨hlooked, hselection⟩ :
      (∀ position ∈ (selector.nextSearch usable).looked, position < selector.items.length) ∧
        (selector.nextSearch usable).selection =
          (scan selector.items usable selector.items.length selector.cursor).2.elim .null .found :=
    searchFrom_of_le hcursor hitems
  cases hscan : (scan selector.items usable selector.items.length selector.cursor).2 with
  | none =>
    rw [hscan] at hselection
    exact ⟨hlooked, iff_of_true hselection (scan_eq_none hcursor hscan),
      fun hne ↦ absurd hselection hne⟩
  | some position =>
    rw [hscan] at hselection
    have hfirst := firstFrom_of_scan hcursor hitems hscan
    rw [selector.cursor_eq] at hfirst
    obtain ⟨item, hitem, husable⟩ := test_of_scan hscan
    refine ⟨hlooked, iff_of_false ?_ ?_, fun _ ↦ ⟨position, hselection, hfirst⟩⟩
    · rw [hselection]
      exact nofun
    · intro hall
      rw [hall item (List.mem_of_getElem? hitem)] at husable
      cases husable

/-- A search is as expected exactly if it is in step. -/
theorem fair_nextSearch_iff (usable : α → Bool) (selector : Selector α) :
    (selector.nextSearch usable).Fair usable ↔ selector.InStep .search := by
  by_cases hitems : selector.items = []
  · exact iff_of_true (fair_nextSearch_nil hitems) (Or.inl hitems)
  constructor
  · intro hfair
    by_contra hnot
    rw [InStep, not_or, Nat.not_le] at hnot
    obtain ⟨rounds, hrounds⟩ := Nat.exists_eq_succ_of_ne_zero
      (List.length_pos_iff.mpr hitems).ne'
    have hlooked : selector.cursor ∈ (selector.nextSearch usable).looked := by
      rw [nextSearch, hrounds, searchFrom_of_gt hnot.2]
      exact List.mem_singleton_self _
    exact absurd (hfair.inRange _ hlooked) (Nat.not_lt.mpr hnot.2.le)
  · rintro (hempty | hcursor)
    · exact absurd hempty hitems
    · exact fair_nextSearch hitems hcursor

/-- What a step does to the searches. -/
theorem step_cases {action : SelectorAction α} {next : Selector α}
    (hstep : selector.step usable action = some next) :
    action = .search ∧ next = selector.search usable ∨
      action ≠ .search ∧ next.searches = selector.searches := by
  unfold step at hstep
  split_ifs at hstep
  cases action with
  | search => exact Or.inl ⟨rfl, (Option.some.inj hstep).symm⟩
  | push item =>
    cases hstep
    exact Or.inr ⟨nofun, rfl⟩
  | clear =>
    cases hstep
    exact Or.inr ⟨nofun, rfl⟩
  | change become =>
    cases hstep
    exact Or.inr ⟨nofun, rfl⟩

theorem allFair_search_iff (hfair : selector.AllFair usable) :
    (selector.search usable).AllFair usable ↔ selector.InStep .search := by
  rw [← fair_nextSearch_iff usable, AllFair, search, List.forall_mem_append,
    List.forall_mem_singleton]
  exact and_iff_right hfair

/-- Assumes: calls that do one of the actions each. Every search of a run of calls was as expected
exactly if each was in step. -/
theorem allFair_iff {Call : Type*} {callStep : Selector α → Call → Option (Selector α)}
    {condition : Selector α → Call → Prop} {actionOf : Call → SelectorAction α}
    (hcallStep : ∀ state call, callStep state call = step usable state (actionOf call))
    (hcondition : ∀ state call, condition state call ↔ state.InStep (actionOf call))
    (calls : List Call) :
    (∀ first, first <+: calls → ∀ final, runFrom callStep new first = some final →
      final.AllFair usable) ↔ Along callStep condition new calls := by
  refine forall_prefix_iff_along (AllFair usable) ?_ ?_ fun _ hmem ↦ absurd hmem List.not_mem_nil
  · intro state call _ next hfair hmeets hstep
    rw [hcallStep] at hstep
    rw [hcondition] at hmeets
    rcases step_cases hstep with ⟨hsearch, rfl⟩ | ⟨-, hsame⟩
    · rw [hsearch] at hmeets
      exact (allFair_search_iff hfair).mpr hmeets
    · rw [AllFair, hsame]
      exact hfair
  · intro state call _ hfair hfails
    rw [hcondition] at hfails
    rw [hcallStep]
    cases hcall : actionOf call with
    | search =>
      rw [hcall] at hfails
      refine ⟨state.search usable, ?_, fun hnext ↦ hfails ((allFair_search_iff hfair).mp hnext)⟩
      unfold step
      rw [hfair.not_undefined]
      rfl
    | _ =>
      rw [hcall] at hfails
      exact absurd trivial hfails

end Selector

/-! ### The two clients -/

/-- The part of `tcpsock_ha_cltpool` that selects a pool. -/
abbrev PoolSelector := Selector CltPool

/-- A call of a member of `tcpsock_ha_cltpool`, or a change of the pools between two calls. -/
inductive PoolSelectorCall
  | addPool (pool : CltPool)
  /-- With the new pool, if `open` was a success. -/
  | addConnectPool (opened : Option CltPool)
  | clearPools
  | poolsBecome (become : ℕ → CltPool → CltPool)
  | getPool

namespace PoolSelector

/-- `addPool`. -/
def addPool (ha : PoolSelector) (pool : CltPool) : PoolSelector := ha.push pool

/-- `addConnectPool`. -/
def addConnectPool (ha : PoolSelector) (opened : Option CltPool) : PoolSelector :=
  match opened with
  | some pool => addPool ha pool
  | none => ha

/-- `clearPools`. -/
def clearPools (ha : PoolSelector) : PoolSelector := ha.clear

/-- A pool that `getPool` returns. -/
def valid (pool : CltPool) : Bool := !pool.isInvalid

/-- `getPool`. -/
def getPool (ha : PoolSelector) : PoolSelector := ha.search valid

/-- The steps. -/
def step (ha : PoolSelector) (call : PoolSelectorCall) : Option PoolSelector :=
  if ha.undefined then none
  else
    match call with
    | .addPool pool => some (addPool ha pool)
    | .addConnectPool opened => some (addConnectPool ha opened)
    | .clearPools => some (clearPools ha)
    | .poolsBecome become => some (ha.change become)
    | .getPool => some (getPool ha)

/-- `getPool` finds no pools, or the cursor among the pools or at their end. -/
def InStep (ha : PoolSelector) : PoolSelectorCall → Prop
  | .getPool => ha.items = [] ∨ ha.cursor ≤ ha.items.length
  | _ => True

/-- What a call does to the vector. A pool that could not be opened is not added. -/
def actionOf : PoolSelectorCall → SelectorAction CltPool
  | .addPool pool => .push pool
  | .addConnectPool (some pool) => .push pool
  | .addConnectPool none => .change fun _ pool ↦ pool
  | .clearPools => .clear
  | .poolsBecome become => .change become
  | .getPool => .search

theorem step_eq (ha : PoolSelector) (call : PoolSelectorCall) :
    step ha call = Selector.step valid ha (actionOf call) := by
  unfold step Selector.step
  split_ifs
  · rfl
  · cases call with
    | addConnectPool opened =>
      cases opened with
      | some pool => rfl
      | none =>
        have hsame : ha.items.mapIdx (fun _ pool ↦ pool) = ha.items := by
          apply List.ext_getElem?
          intro position
          rw [List.getElem?_mapIdx, Option.map_id']
        unfold actionOf addConnectPool Selector.change
        simp only [hsame]
    | _ => rfl

theorem inStep_iff (ha : PoolSelector) (call : PoolSelectorCall) :
    InStep ha call ↔ Selector.InStep ha (actionOf call) := by
  cases call with
  | addConnectPool opened => cases opened <;> exact Iff.rfl
  | _ => exact Iff.rfl

end PoolSelector

/-- The part of `tcpsock_ha_asynclt` that selects a client. -/
abbrev ClientSelector := Selector AsyncClient

/-- A call of a member of `tcpsock_ha_asynclt`, or a change of the clients between two calls. -/
inductive ClientSelectorCall
  | addConnect (asynclt : AsyncClient)
  | disconnect
  | clientsBecome (become : ℕ → AsyncClient → AsyncClient)
  | getClient

namespace ClientSelector

/-- `addConnect`. -/
def addConnect (ha : ClientSelector) (asynclt : AsyncClient) : ClientSelector := ha.push asynclt

/-- `disconnect`. -/
def disconnect (ha : ClientSelector) : ClientSelector := ha.clear

/-- `getClient`. -/
def getClient (ha : ClientSelector) : ClientSelector := ha.search AsyncClient.usable

/-- The steps. -/
def step (ha : ClientSelector) (call : ClientSelectorCall) : Option ClientSelector :=
  if ha.undefined then none
  else
    match call with
    | .addConnect asynclt => some (addConnect ha asynclt)
    | .disconnect => some (disconnect ha)
    | .clientsBecome become => some (ha.change become)
    | .getClient => some (getClient ha)

/-- `getClient` finds no clients, or the cursor among the clients or at their end. -/
def InStep (ha : ClientSelector) : ClientSelectorCall → Prop
  | .getClient => ha.items = [] ∨ ha.cursor ≤ ha.items.length
  | _ => True

/-- What a call does to the vector. -/
def actionOf : ClientSelectorCall → SelectorAction AsyncClient
  | .addConnect asynclt => .push asynclt
  | .disconnect => .clear
  | .clientsBecome become => .change become
  | .getClient => .search

theorem step_eq (ha : ClientSelector) (call : ClientSelectorCall) :
    step ha call = Selector.step AsyncClient.usable ha (actionOf call) := by
  cases call <;> rfl

theorem inStep_iff (ha : ClientSelector) (call : ClientSelectorCall) :
    InStep ha call ↔ Selector.InStep ha (actionOf call) := by
  cases call <;> exact Iff.rfl

end ClientSelector

/-! ### Every run -/

/-- In a run of calls on a `tcpsock_ha_cltpool`, each `getPool` is as expected exactly if each has
found no pools, or the cursor among the pools or at their end; and so for a
`tcpsock_ha_asynclt`. -/
theorem selections_fair_iff (calls : List PoolSelectorCall)
    (clientCalls : List ClientSelectorCall) :
    ((∀ first, first <+: calls → ∀ ha, runFrom PoolSelector.step .new first = some ha →
        ha.AllFair PoolSelector.valid) ↔
      Along PoolSelector.step PoolSelector.InStep .new calls) ∧
    ((∀ first, first <+: clientCalls → ∀ ha, runFrom ClientSelector.step .new first = some ha →
        ha.AllFair AsyncClient.usable) ↔
      Along ClientSelector.step ClientSelector.InStep .new clientCalls) :=
  ⟨Selector.allFair_iff PoolSelector.step_eq PoolSelector.inStep_iff calls,
    Selector.allFair_iff ClientSelector.step_eq ClientSelector.inStep_iff clientCalls⟩

/-- Two pools of which each is returned once, the call of `clearPools`, and a new pool. -/
def refilled : List PoolSelectorCall :=
  [.addPool (.openPool 8 sendSuccess), .addPool (.openPool 8 sendSuccess), .getPool, .getPool,
    .clearPools, .addPool (.openPool 8 sendSuccess), .getPool]

/-- The cursor is past the end of the vector that was filled again. -/
theorem not_allFair_refilled :
    ¬∀ (calls : List PoolSelectorCall) (ha : PoolSelector),
      runFrom PoolSelector.step .new calls = some ha → ha.AllFair PoolSelector.valid := by
  intro hall
  have hfair : ∀ ha, runFrom PoolSelector.step .new refilled = some ha →
      ha.AllFair PoolSelector.valid := hall refilled
  have hlast := hfair _ rfl ⟨[.openPool 8 sendSuccess], some 1, [2], .outOfRange⟩
    (List.mem_of_getElem? (i := 2) rfl)
  exact absurd (hlast.inRange 2 (List.mem_singleton_self 2)) (by decide)

end TszyUlt.Zbf
