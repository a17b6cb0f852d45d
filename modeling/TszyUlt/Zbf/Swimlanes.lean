import TszyUlt.Lib.RoundRobin
import TszyUlt.Zbf.ServerStart

/-!
# The swimlanes of the epoll server

What `configSwimlanes` and `dispatchMsg` of `zbf/socket_tcp_v5.hpp` (`ServerStart`) make of the
workers. The lanes that are not skipped take their workers one after the other (`laneWorkers`), and
the default group gets the rest (`defaultWorkers`). A type that several lanes have belongs to the
last of them, and each type has a copy of its group with a cursor of its own.

`Partitioned` says what the stored map is, and `FairlyRouted` what `dispatchMsg` makes of any
sequence of messages after that; `swimlanes_fair` proves both. The default group is stored last,
under a key that is a message type, so that a lane that has this type loses it: `isolated_iff` says
for which types the messages stay in their lane.

Scope. A message is known by its type. Whether the queue of the chosen worker takes it does not
matter here.
-/

set_option autoImplicit false
set_option relaxedAutoImplicit false

namespace TszyUlt.Zbf

open Lib ServerStart

/-! ### The workers of the lanes -/

namespace MessageSwimlane

/-- The lanes that are not skipped, each with the workers that it takes from a position on. -/
def laneWorkers (workerIds : List ℤ) :
    List MessageSwimlane → ℕ → List (MessageSwimlane × List ℤ)
  | [], _ => []
  | lane :: lanes, pos =>
    if lane.usable then
      (lane, (workerIds.drop pos).take lane.threads) ::
        laneWorkers workerIds lanes (pos + lane.threads)
    else laneWorkers workerIds lanes pos

/-- The groups that `configSwimlanes` creates for lanes. -/
def createdGroups (workerIds : List ℤ) (lanes : List MessageSwimlane) :
    List (MessageSwimlane × List ℤ) :=
  if needsAll lanes workerIds.length then [] else laneWorkers workerIds lanes 0

/-- The workers of the default group. -/
def defaultWorkers (workerIds : List ℤ) (lanes : List MessageSwimlane) : List ℤ :=
  if needsAll lanes workerIds.length then workerIds else workerIds.drop (usedThreads lanes)

/-- The created groups of the lanes that have a type. -/
def lanesOf (created : List (MessageSwimlane × List ℤ)) (msgType : UInt32) :
    List (MessageSwimlane × List ℤ) :=
  created.filter fun entry ↦ entry.1.msgTypes.contains msgType

/-- A group whose cursor is at the front. -/
def freshGroup (entry : MessageSwimlane × List ℤ) : WorkerIdGroup := ⟨entry.2, 0⟩

end MessageSwimlane

open MessageSwimlane

/-- What `configSwimlanes` stores: the default group with its workers, and for any other type the
group of the last lane that has it. The groups are disjoint and make up all the workers. -/
structure Partitioned (workerIds : List ℤ) (lanes : List MessageSwimlane)
    (groups : MsgTyp2WkIdGrp) : Prop where
  default : groups defaultMsgType = some ⟨defaultWorkers workerIds lanes, 0⟩
  default_ne : defaultWorkers workerIds lanes ≠ []
  lane : ∀ msgType ≠ defaultMsgType, groups msgType =
    (lanesOf (createdGroups workerIds lanes) msgType).getLast?.map freshGroup
  size : ∀ entry ∈ createdGroups workerIds lanes, entry.2.length = entry.1.threads
  disjoint : (createdGroups workerIds lanes).Pairwise fun first second ↦
    List.Disjoint first.2 second.2
  apart : ∀ entry ∈ createdGroups workerIds lanes,
    List.Disjoint entry.2 (defaultWorkers workerIds lanes)
  together : ((createdGroups workerIds lanes).map Prod.snd).flatten ++
    defaultWorkers workerIds lanes = workerIds

/-! ### Messages in sequence -/

/-- A message that was dispatched: its type, the key of the map that it was resolved to, and the
worker that was chosen. -/
structure Routed where
  msgType : UInt32
  key : UInt32
  wkId : ℤ
  deriving DecidableEq, Repr

/-- The map with the messages dispatched so far. -/
structure Dispatcher where
  groups : MsgTyp2WkIdGrp
  routed : List Routed

/-- The key that `dispatchMsg` looks up for a type. -/
def resolve (groups : MsgTyp2WkIdGrp) (msgType : UInt32) : UInt32 :=
  if (groups msgType).isSome then msgType else defaultMsgType

namespace Dispatcher

/-- Before the first message. -/
def new (groups : MsgTyp2WkIdGrp) : Dispatcher := ⟨groups, []⟩

/-- A message is dispatched. -/
def step (dispatcher : Dispatcher) (msgType : UInt32) : Option Dispatcher :=
  (dispatchMsg dispatcher.groups msgType).map fun (wkId, groups) ↦
    ⟨groups, dispatcher.routed ++ [⟨msgType, resolve dispatcher.groups msgType, wkId⟩]⟩

/-- The workers that were chosen for the messages of a key. -/
def served (dispatcher : Dispatcher) (key : UInt32) : List ℤ :=
  (dispatcher.routed.filter fun routed ↦ routed.key = key).map Routed.wkId

/-- What holds after any messages: every one of them got an existing worker, the cursors are in
range, and the workers of a key were used cyclically, each for its share of the messages. -/
structure FairlyRouted (workers : ℕ) (groups : MsgTyp2WkIdGrp) (msgTypes : List UInt32)
    (final : Dispatcher) : Prop where
  all : final.routed.map Routed.msgType = msgTypes
  resolved : ∀ routed ∈ final.routed, routed.key = resolve groups routed.msgType
  index : ∀ routed ∈ final.routed,
    0 ≤ workerIndex routed.wkId ∧ workerIndex routed.wkId < workers
  cursor : ∀ key group, final.groups key = some group → group.cursor < group.workerIds.length
  cyclic : ∀ key group, groups key = some group →
    final.served key = cyclic group.workerIds (final.served key).length
  shares : ∀ key group, groups key = some group → ∀ wkId ∈ group.workerIds,
    (final.served key).count wkId = (final.served key).length / group.workerIds.length ∨
      (final.served key).count wkId =
        ((final.served key).length + group.workerIds.length - 1) / group.workerIds.length

/-- Whatever is dispatched, the messages of a type go to these workers only. -/
def Isolated (groups : MsgTyp2WkIdGrp) (msgType : UInt32) (workers : List ℤ) : Prop :=
  ∀ msgTypes final, runFrom step (new groups) msgTypes = some final →
    ∀ routed ∈ final.routed, routed.msgType = msgType → routed.wkId ∈ workers

end Dispatcher

/-! ### What is stored -/

namespace MessageSwimlane

variable {workerIds : List ℤ} {lanes : List MessageSwimlane} {groups groups' : MsgTyp2WkIdGrp}

theorem lanesOf_cons (entry : MessageSwimlane × List ℤ) (created : List (MessageSwimlane × List ℤ))
    (msgType : UInt32) :
    lanesOf (entry :: created) msgType =
      if msgType ∈ entry.1.msgTypes then entry :: lanesOf created msgType
      else lanesOf created msgType := by
  rw [lanesOf, List.filter_cons]
  simp only [List.contains_iff_mem]
  rfl

/-- The loop over the lanes: a type gets the group of the last lane that has it. -/
theorem configLanes_apply {pos pos' : ℕ}
    (hlanes : configLanes workerIds lanes pos groups = some (pos', groups')) (msgType : UInt32) :
    groups' msgType =
      ((lanesOf (laneWorkers workerIds lanes pos) msgType).getLast?.map freshGroup).or
        (groups msgType) := by
  induction lanes generalizing pos groups with
  | nil =>
    cases hlanes
    rfl
  | cons lane lanes ih =>
    rw [configLanes] at hlanes
    rw [laneWorkers]
    split at hlanes
    · rename_i husable
      split at hlanes
      · rw [ih hlanes, if_pos husable, lanesOf_cons, assignTypes_apply]
        by_cases hmem : msgType ∈ lane.msgTypes
        · rw [if_pos hmem, if_pos hmem]
          cases hlast : (lanesOf (laneWorkers workerIds lanes (pos + lane.threads))
            msgType).getLast? with
          | none =>
            rw [List.getLast?_eq_none_iff] at hlast
            rw [hlast]
            rfl
          | some last =>
            rw [List.getLast?_cons, hlast]
            rfl
        · rw [if_neg hmem, if_neg hmem]
      · cases hlanes
    · rename_i husable
      rw [ih hlanes, if_neg husable]

/-- The lanes take the workers from the position on, without a gap. -/
theorem flatten_laneWorkers (workerIds : List ℤ) (lanes : List MessageSwimlane) (pos : ℕ) :
    ((laneWorkers workerIds lanes pos).map Prod.snd).flatten ++
      workerIds.drop (pos + usedThreads lanes) = workerIds.drop pos := by
  induction lanes generalizing pos with
  | nil => rfl
  | cons lane lanes ih =>
    rw [laneWorkers, usedThreads]
    by_cases husable : lane.usable = true
    · rw [if_pos husable, if_pos husable, List.map_cons, List.flatten_cons, List.append_assoc,
        ← Nat.add_assoc, ih, ← List.drop_drop]
      exact List.take_append_drop _ _
    · rw [if_neg husable, if_neg husable, Nat.zero_add]
      exact ih pos

/-- Assumes: there are workers for all the lanes. Each of them has as many as it asks for. -/
theorem length_laneWorkers {pos : ℕ} (hfits : pos + usedThreads lanes ≤ workerIds.length) :
    ∀ entry ∈ laneWorkers workerIds lanes pos, entry.2.length = entry.1.threads := by
  induction lanes generalizing pos with
  | nil => exact fun _ hmem ↦ absurd hmem List.not_mem_nil
  | cons lane lanes ih =>
    rw [usedThreads] at hfits
    rw [laneWorkers]
    by_cases husable : lane.usable = true
    · rw [if_pos husable] at hfits ⊢
      refine List.forall_mem_cons.mpr ⟨?_, ih (by omega)⟩
      rw [List.length_take, List.length_drop]
      exact min_eq_left (by omega)
    · rw [if_neg husable] at hfits ⊢
      exact ih (by omega)

/-- The lanes with a created group are not skipped. -/
theorem usable_of_laneWorkers {pos : ℕ} :
    ∀ entry ∈ laneWorkers workerIds lanes pos, entry.1.usable = true := by
  induction lanes generalizing pos with
  | nil => exact fun _ hmem ↦ absurd hmem List.not_mem_nil
  | cons lane lanes ih =>
    rw [laneWorkers]
    by_cases husable : lane.usable = true
    · rw [if_pos husable]
      exact List.forall_mem_cons.mpr ⟨husable, ih⟩
    · rw [if_neg husable]
      exact ih

theorem threads_of_created {entry : MessageSwimlane × List ℤ}
    (hentry : entry ∈ createdGroups workerIds lanes) : entry.1.threads ≠ 0 := by
  unfold createdGroups at hentry
  by_cases hall : needsAll lanes workerIds.length = true
  · rw [if_pos hall] at hentry
    exact absurd hentry List.not_mem_nil
  · rw [if_neg hall] at hentry
    exact (usable_iff.mp (usable_of_laneWorkers entry hentry)).2

/-- Assumes: there are workers for all the lanes. The loop over them ends. -/
theorem configLanes_isSome {pos : ℕ} (groups : MsgTyp2WkIdGrp)
    (hfits : pos + usedThreads lanes ≤ workerIds.length) :
    (configLanes workerIds lanes pos groups).isSome = true := by
  induction lanes generalizing pos groups with
  | nil => rfl
  | cons lane lanes ih =>
    rw [usedThreads] at hfits
    rw [configLanes]
    by_cases husable : lane.usable = true
    · rw [if_pos husable] at hfits ⊢
      rw [if_pos (by omega)]
      exact ih _ (by omega)
    · rw [if_neg husable] at hfits ⊢
      exact ih groups (by omega)

/-- Assumes: the lanes leave a worker to the default group. `configSwimlanes` returns. -/
theorem configSwimlanes_isSome (hleaves : leavesDefault lanes workerIds.length = true) :
    (configSwimlanes workerIds lanes).isSome = true := by
  rw [configSwimlanes, Option.isSome_map]
  by_cases hall : needsAll lanes workerIds.length = true
  · rw [if_pos hall]
    rfl
  · rw [leavesDefault, Bool.or_eq_true, decide_eq_true_eq] at hleaves
    rw [if_neg hall]
    exact configLanes_isSome _ (by have := hleaves.resolve_left hall; omega)

/-- The created groups and the default group make up all the workers. -/
theorem flatten_createdGroups (workerIds : List ℤ) (lanes : List MessageSwimlane) :
    ((createdGroups workerIds lanes).map Prod.snd).flatten ++ defaultWorkers workerIds lanes =
      workerIds := by
  unfold createdGroups defaultWorkers
  by_cases hall : needsAll lanes workerIds.length = true
  · rw [if_pos hall, if_pos hall]
    rfl
  · rw [if_neg hall, if_neg hall]
    have hflatten := flatten_laneWorkers workerIds lanes 0
    rwa [Nat.zero_add, List.drop_zero] at hflatten

/-- What `configSwimlanes` stores for each type. -/
theorem configSwimlanes_apply (hconfig : configSwimlanes workerIds lanes = some groups)
    (msgType : UInt32) :
    groups msgType =
      if msgType = defaultMsgType then some ⟨defaultWorkers workerIds lanes, 0⟩
      else (lanesOf (createdGroups workerIds lanes) msgType).getLast?.map freshGroup := by
  obtain ⟨⟨pos, made⟩, hmade, rfl⟩ := Option.map_eq_some_iff.mp hconfig
  unfold createdGroups defaultWorkers
  by_cases hall : needsAll lanes workerIds.length = true
  · rw [if_pos hall] at hmade
    cases hmade
    rw [if_pos hall, if_pos hall]
    by_cases hkey : msgType = defaultMsgType
    · rw [if_pos hkey, hkey]
      exact Function.update_self ..
    · rw [if_neg hkey]
      exact Function.update_of_ne hkey ..
  · rw [if_neg hall] at hmade
    obtain ⟨hend, -, -, -⟩ := configLanes_spec (Nat.zero_le _) (filled_empty workerIds) hmade
    rw [if_neg hall, if_neg hall, hend, Nat.zero_add]
    by_cases hkey : msgType = defaultMsgType
    · rw [if_pos hkey, hkey]
      exact Function.update_self ..
    · rw [if_neg hkey]
      refine (Function.update_of_ne hkey ..).trans ?_
      rw [configLanes_apply hmade]
      exact Option.or_none

/-- Assumes: distinct workers. No two groups share one. -/
theorem disjoint_createdGroups (hnodup : workerIds.Nodup) :
    ((createdGroups workerIds lanes).Pairwise fun first second ↦
        List.Disjoint first.2 second.2) ∧
      ∀ entry ∈ createdGroups workerIds lanes,
        List.Disjoint entry.2 (defaultWorkers workerIds lanes) := by
  rw [← flatten_createdGroups workerIds lanes, List.nodup_append', List.nodup_flatten,
    List.pairwise_map] at hnodup
  obtain ⟨⟨-, hpairs⟩, -, happart⟩ := hnodup
  refine ⟨hpairs, fun entry hentry wkId hwkId hdefault ↦ ?_⟩
  exact happart (List.mem_flatten.mpr ⟨_, List.mem_map_of_mem hentry, hwkId⟩) hdefault

/-- The default group has a worker exactly if the lanes leave one. -/
theorem defaultWorkers_ne_nil_iff (hworkers : workerIds ≠ []) :
    defaultWorkers workerIds lanes ≠ [] ↔ leavesDefault lanes workerIds.length = true := by
  unfold defaultWorkers leavesDefault
  by_cases hall : needsAll lanes workerIds.length = true
  · rw [if_pos hall, hall]
    exact iff_of_true hworkers rfl
  · rw [if_neg hall, Bool.not_eq_true] at *
    rw [hall, Bool.false_or, decide_eq_true_eq, ne_eq, List.drop_eq_nil_iff]
    omega

/-- Assumes: distinct workers, of whom the lanes leave one to the default group. -/
theorem partitioned_of_config (hnodup : workerIds.Nodup) (hworkers : workerIds ≠ [])
    (hleaves : leavesDefault lanes workerIds.length = true)
    (hconfig : configSwimlanes workerIds lanes = some groups) :
    Partitioned workerIds lanes groups := by
  obtain ⟨hpairs, hapart⟩ := disjoint_createdGroups hnodup
  refine ⟨?_, (defaultWorkers_ne_nil_iff hworkers).mpr hleaves, fun msgType hne ↦ ?_, ?_, hpairs,
    hapart, flatten_createdGroups workerIds lanes⟩
  · rw [configSwimlanes_apply hconfig, if_pos rfl]
  · rw [configSwimlanes_apply hconfig, if_neg hne]
  · rw [leavesDefault, Bool.or_eq_true, decide_eq_true_eq] at hleaves
    unfold createdGroups
    by_cases hall : needsAll lanes workerIds.length = true
    · rw [if_pos hall]
      exact fun _ hmem ↦ absurd hmem List.not_mem_nil
    · rw [if_neg hall]
      exact length_laneWorkers (by have := hleaves.resolve_left hall; omega)

end MessageSwimlane

/-! ### What is dispatched -/

namespace Dispatcher

variable {groups : MsgTyp2WkIdGrp} {dispatcher next final : Dispatcher} {msgType : UInt32}
  {msgTypes : List UInt32}

/-- What holds after any messages: each group has its workers, its cursor has moved once for every
message of its key, and its workers were taken in turn. -/
structure Cycled (groups : MsgTyp2WkIdGrp) (dispatcher : Dispatcher) : Prop where
  same : ∀ key, (dispatcher.groups key).isSome = (groups key).isSome
  group : ∀ key group, groups key = some group → dispatcher.groups key =
    some ⟨group.workerIds, (dispatcher.served key).length % group.workerIds.length⟩
  served : ∀ key group, groups key = some group →
    dispatcher.served key = cyclic group.workerIds (dispatcher.served key).length
  resolved : ∀ routed ∈ dispatcher.routed, routed.key = resolve groups routed.msgType

theorem cycled_new (hfresh : ∀ key group, groups key = some group → group.cursor = 0) :
    (new groups).Cycled groups where
  same := fun _ ↦ rfl
  group := fun key group hgroup ↦ by
    have hzero : (new groups).served key = [] := rfl
    rw [hzero, List.length_nil, Nat.zero_mod, ← hfresh key group hgroup]
    exact hgroup
  served := fun _ _ _ ↦ rfl
  resolved := fun _ hmem ↦ absurd hmem List.not_mem_nil

theorem served_append (dispatcher : Dispatcher) (groups : MsgTyp2WkIdGrp) (routed : Routed)
    (key : UInt32) :
    served ⟨groups, dispatcher.routed ++ [routed]⟩ key =
      dispatcher.served key ++ if routed.key = key then [routed.wkId] else [] := by
  rw [served, served, List.filter_append, List.map_append]
  by_cases hkey : routed.key = key
  · simp [hkey]
  · simp [hkey]

/-- The group of a key after messages, if the map had one. -/
theorem Cycled.lookup (hcycled : dispatcher.Cycled groups) {key : UInt32} {found : WorkerIdGroup}
    (hfound : dispatcher.groups key = some found) :
    ∃ group, groups key = some group ∧ found =
      ⟨group.workerIds, (dispatcher.served key).length % group.workerIds.length⟩ := by
  have hsame := hcycled.same key
  rw [hfound, Option.isSome_some, eq_comm, Option.isSome_iff_exists] at hsame
  obtain ⟨group, hgroup⟩ := hsame
  exact ⟨group, hgroup, Option.some.inj (hfound.symm.trans (hcycled.group key group hgroup))⟩

theorem Cycled.resolve_eq (hcycled : dispatcher.Cycled groups) (msgType : UInt32) :
    resolve dispatcher.groups msgType = resolve groups msgType := by
  rw [resolve, resolve, hcycled.same]

/-- The map has a group for the key that a type is resolved to. -/
theorem exists_resolve (hdefault : ∃ group, groups defaultMsgType = some group)
    (msgType : UInt32) : ∃ group, groups (resolve groups msgType) = some group := by
  unfold resolve
  cases hfound : groups msgType with
  | some group => exact ⟨group, hfound⟩
  | none => exact hdefault

/-- A message takes the next worker of its key. -/
theorem Cycled.step_eq (hcycled : dispatcher.Cycled groups) (msgType : UInt32)
    {group : WorkerIdGroup} (hgroup : groups (resolve groups msgType) = some group) :
    step dispatcher msgType =
      group.workerIds[(dispatcher.served (resolve groups msgType)).length %
          group.workerIds.length]?.map fun wkId ↦
        ⟨Function.update dispatcher.groups (resolve groups msgType) (some
            ⟨group.workerIds, nextCursor ((dispatcher.served (resolve groups msgType)).length %
              group.workerIds.length) group.workerIds.length⟩),
          dispatcher.routed ++ [⟨msgType, resolve groups msgType, wkId⟩]⟩ := by
  have hfound := hcycled.group _ group hgroup
  have hresolve := hcycled.resolve_eq msgType
  rw [step, hresolve, dispatchMsg_eq hresolve.symm hfound, Option.map_map]
  rfl

theorem Cycled.step (hcycled : dispatcher.Cycled groups)
    (hdefault : ∃ group, groups defaultMsgType = some group)
    (hstep : step dispatcher msgType = some next) :
    next.Cycled groups ∧ ∃ group wkId, groups (resolve groups msgType) = some group ∧
      wkId ∈ group.workerIds ∧
        next.routed = dispatcher.routed ++ [⟨msgType, resolve groups msgType, wkId⟩] := by
  obtain ⟨group, hgroup⟩ := exists_resolve hdefault msgType
  rw [hcycled.step_eq msgType hgroup, Option.map_eq_some_iff] at hstep
  obtain ⟨wkId, hwkId, rfl⟩ := hstep
  refine ⟨⟨fun key ↦ ?_, fun key other hother ↦ ?_, fun key other hother ↦ ?_, ?_⟩,
    group, wkId, hgroup, List.mem_of_getElem? hwkId, rfl⟩
  · dsimp only
    by_cases hkey : key = resolve groups msgType
    · rw [hkey, Function.update_self, hgroup]
      rfl
    · rw [Function.update_of_ne hkey]
      exact hcycled.same key
  · rw [served_append]
    dsimp only
    by_cases hkey : key = resolve groups msgType
    · subst hkey
      obtain rfl : group = other := Option.some.inj (hgroup.symm.trans hother)
      have hpos : 0 < group.workerIds.length := List.length_pos_of_mem (List.mem_of_getElem? hwkId)
      rw [Function.update_self, if_pos rfl, List.length_append, nextCursor_mod _ hpos]
      rfl
    · rw [Function.update_of_ne hkey, if_neg (Ne.symm hkey), List.append_nil]
      exact hcycled.group key other hother
  · rw [served_append]
    by_cases hkey : key = resolve groups msgType
    · subst hkey
      obtain rfl : group = other := Option.some.inj (hgroup.symm.trans hother)
      rw [if_pos rfl, List.length_append, List.length_singleton, cyclic_succ hwkId,
        ← hcycled.served _ _ hgroup]
    · rw [if_neg (Ne.symm hkey), List.append_nil]
      exact hcycled.served key other hother
  · refine List.forall_mem_append.mpr ⟨hcycled.resolved, ?_⟩
    exact List.forall_mem_singleton.mpr rfl

/-- What a run of messages keeps: the groups are used cyclically, and every message got a worker of
its group. -/
structure Dispatched (groups : MsgTyp2WkIdGrp) (dispatcher : Dispatcher) : Prop where
  cycled : dispatcher.Cycled groups
  member : ∀ routed ∈ dispatcher.routed, ∃ group, groups routed.key = some group ∧
    routed.wkId ∈ group.workerIds

theorem dispatched_of_run (hdefault : ∃ group, groups defaultMsgType = some group)
    (hfresh : ∀ key group, groups key = some group → group.cursor = 0)
    (hrun : runFrom Dispatcher.step (new groups) msgTypes = some final) :
    final.Dispatched groups := by
  refine runFrom_invariant (Dispatched groups) (fun dispatcher msgType next hold hstep ↦ ?_)
    ⟨cycled_new hfresh, fun _ hmem ↦ absurd hmem List.not_mem_nil⟩ hrun
  obtain ⟨hcycled, group, wkId, hgroup, hmem, hrouted⟩ := hold.cycled.step hdefault hstep
  refine ⟨hcycled, ?_⟩
  rw [hrouted]
  refine List.forall_mem_append.mpr ⟨hold.member, ?_⟩
  exact List.forall_mem_singleton.mpr ⟨group, hgroup, hmem⟩

/-- Every message is logged with its type. -/
theorem map_msgType_of_run (hrun : runFrom Dispatcher.step dispatcher msgTypes = some final) :
    final.routed.map Routed.msgType = dispatcher.routed.map Routed.msgType ++ msgTypes := by
  induction msgTypes generalizing dispatcher with
  | nil =>
    cases hrun
    rw [List.append_nil]
  | cons msgType msgTypes ih =>
    rw [runFrom_cons, Option.bind_eq_some_iff] at hrun
    obtain ⟨next, hstep, hrest⟩ := hrun
    obtain ⟨⟨wkId, groups⟩, -, rfl⟩ := Option.map_eq_some_iff.mp hstep
    rw [ih hrest, List.map_append, List.append_assoc]
    rfl

/-- Assumes: no group is empty. Every run of messages goes to its end. -/
theorem exists_run (hdefault : ∃ group, groups defaultMsgType = some group)
    (hne : ∀ key group, groups key = some group → group.workerIds ≠ [])
    (hcycled : dispatcher.Cycled groups) (msgTypes : List UInt32) :
    ∃ final, runFrom Dispatcher.step dispatcher msgTypes = some final := by
  induction msgTypes generalizing dispatcher with
  | nil => exact ⟨dispatcher, rfl⟩
  | cons msgType msgTypes ih =>
    obtain ⟨group, hgroup⟩ := exists_resolve hdefault msgType
    have hpos := List.length_pos_iff.mpr (hne _ group hgroup)
    have hturn := List.getElem?_eq_getElem (Nat.mod_lt
      (dispatcher.served (resolve groups msgType)).length hpos)
    have hstep := hcycled.step_eq msgType hgroup
    rw [hturn, Option.map_some] at hstep
    rw [runFrom_cons_of_step hstep]
    exact ih (hcycled.step hdefault hstep).1

end Dispatcher

/-! ### Fair dispatch -/

section Stored

variable {workers : ℕ} {lanes : List MessageSwimlane} {groups : MsgTyp2WkIdGrp}

theorem firstIds_nodup (workers : ℕ) : (firstIds workers).Nodup := by
  refine (List.nodup_range).map fun first second heq ↦ ?_
  simp only [workerId] at heq
  omega

/-- The index of a worker that was created. -/
theorem workerIndex_of_mem {wkId : ℤ} (hmem : wkId ∈ firstIds workers) :
    0 ≤ workerIndex wkId ∧ workerIndex wkId < workers := by
  obtain ⟨i, hi, rfl⟩ := List.mem_map.mp hmem
  have hlt := List.mem_range.mp hi
  rw [workerIndex, workerId, thdIdBase]
  omega

/-- A stored group is the default one or a created one. -/
theorem Partitioned.group_cases {workerIds : List ℤ} (hpart : Partitioned workerIds lanes groups)
    {key : UInt32} {group : WorkerIdGroup} (hgroup : groups key = some group) :
    group = ⟨defaultWorkers workerIds lanes, 0⟩ ∨
      ∃ entry ∈ createdGroups workerIds lanes, group = ⟨entry.2, 0⟩ := by
  by_cases hkey : key = defaultMsgType
  · subst hkey
    exact Or.inl (Option.some.inj (hgroup.symm.trans hpart.default))
  · rw [hpart.lane key hkey, Option.map_eq_some_iff] at hgroup
    obtain ⟨entry, hlast, rfl⟩ := hgroup
    exact Or.inr ⟨entry, List.mem_of_mem_filter (List.mem_of_getLast? hlast), rfl⟩

/-- A stored group has workers, no two of them the same, and all of them existing ones. -/
theorem Partitioned.group_spec (hpart : Partitioned (firstIds workers) lanes groups)
    {key : UInt32} {group : WorkerIdGroup} (hgroup : groups key = some group) :
    group.workerIds ≠ [] ∧ group.cursor = 0 ∧ group.workerIds.Nodup ∧
      ∀ wkId ∈ group.workerIds, wkId ∈ firstIds workers := by
  have hsub : ∀ ids : List ℤ, ids.Sublist (firstIds workers) →
      ids.Nodup ∧ ∀ wkId ∈ ids, wkId ∈ firstIds workers :=
    fun ids hids ↦ ⟨hids.nodup (firstIds_nodup workers), fun wkId hmem ↦ hids.subset hmem⟩
  have htogether := hpart.together
  rcases hpart.group_cases hgroup with rfl | ⟨entry, hentry, rfl⟩
  · refine ⟨hpart.default_ne, rfl, hsub _ ?_⟩
    conv_rhs => rw [← htogether]
    exact List.sublist_append_right _ _
  · have hne : entry.2 ≠ [] := by
      rw [← List.length_pos_iff, hpart.size entry hentry]
      exact Nat.pos_of_ne_zero (threads_of_created hentry)
    have hin : entry.2 ∈ (createdGroups (firstIds workers) lanes).map Prod.snd :=
      List.mem_map_of_mem hentry
    refine ⟨hne, rfl, hsub _ ?_⟩
    conv_rhs => rw [← htogether]
    exact (List.sublist_flatten_of_mem hin).trans (List.sublist_append_left _ _)

/-- For every number of workers that `start` may create and every list of lanes whose threads have
a sum that fits into an `int`: what `configSwimlanes` stores, and what becomes of any messages that
are dispatched after it. -/
theorem swimlanes_fair (hworkers : 2 ≤ workers) (hfits : sumThreads lanes < 2 ^ 31) :
    ∃ groups, configSwimlanes (firstIds workers) lanes = some groups ∧
      Partitioned (firstIds workers) lanes groups ∧
      ∀ msgTypes, ∃ final, runFrom Dispatcher.step (.new groups) msgTypes = some final ∧
        final.FairlyRouted workers groups msgTypes := by
  have hlength := length_firstIds workers
  have hleaves : leavesDefault lanes (firstIds workers).length = true :=
    leavesDefault_of_fits hfits
  obtain ⟨groups, hconfig⟩ := Option.isSome_iff_exists.mp (configSwimlanes_isSome hleaves)
  have hne : firstIds workers ≠ [] := by
    rw [← List.length_pos_iff, hlength]
    omega
  have hpart := partitioned_of_config (firstIds_nodup workers) hne hleaves hconfig
  have hdefault : ∃ group, groups defaultMsgType = some group := ⟨_, hpart.default⟩
  have hfresh : ∀ key group, groups key = some group → group.cursor = 0 :=
    fun _ _ hgroup ↦ (hpart.group_spec hgroup).2.1
  refine ⟨groups, hconfig, hpart, fun msgTypes ↦ ?_⟩
  obtain ⟨final, hrun⟩ := Dispatcher.exists_run hdefault
    (fun _ _ hgroup ↦ (hpart.group_spec hgroup).1) (Dispatcher.cycled_new hfresh) msgTypes
  have hdispatched := Dispatcher.dispatched_of_run hdefault hfresh hrun
  exact ⟨final, hrun, {
    all := Dispatcher.map_msgType_of_run hrun
    resolved := hdispatched.cycled.resolved
    index := fun routed hmem ↦ by
      obtain ⟨group, hgroup, hwkId⟩ := hdispatched.member routed hmem
      exact workerIndex_of_mem ((hpart.group_spec hgroup).2.2.2 _ hwkId)
    cursor := fun key found hfound ↦ by
      obtain ⟨group, hgroup, rfl⟩ := hdispatched.cycled.lookup hfound
      exact Nat.mod_lt _ (List.length_pos_iff.mpr (hpart.group_spec hgroup).1)
    cyclic := hdispatched.cycled.served
    shares := fun key group hgroup wkId hwkId ↦ by
      have hturns := hdispatched.cycled.served key group hgroup
      have hbounds := count_cyclic_bounds (hpart.group_spec hgroup).2.2.1 hwkId
        (final.served key).length
      rwa [← hturns] at hbounds }⟩

/-- Three workers, one of them for the messages of type 7. -/
theorem swimlanes_fair_three :
    ∃ groups, configSwimlanes (firstIds 3) [⟨[7], 1⟩] = some groups ∧
      Partitioned (firstIds 3) [⟨[7], 1⟩] groups ∧
      ∀ msgTypes, ∃ final, runFrom Dispatcher.step (.new groups) msgTypes = some final ∧
        final.FairlyRouted 3 groups msgTypes :=
  swimlanes_fair (by decide) (by decide)

/-! ### Isolation -/

theorem configSwimlanes_fresh {workerIds : List ℤ}
    (hconfig : configSwimlanes workerIds lanes = some groups) {key : UInt32}
    {group : WorkerIdGroup} (hgroup : groups key = some group) : group.cursor = 0 := by
  rw [configSwimlanes_apply hconfig] at hgroup
  split at hgroup
  · cases hgroup
    rfl
  · obtain ⟨entry, -, rfl⟩ := Option.map_eq_some_iff.mp hgroup
    rfl

/-- The worker of a message of a type that is resolved to a key is one of the group of the key. -/
theorem wkId_of_run (hconfig : configSwimlanes (firstIds workers) lanes = some groups)
    {msgTypes : List UInt32} {final : Dispatcher}
    (hrun : runFrom Dispatcher.step (.new groups) msgTypes = some final) {routed : Routed}
    (hmem : routed ∈ final.routed) {group : WorkerIdGroup}
    (hgroup : groups (resolve groups routed.msgType) = some group) :
    routed.wkId ∈ group.workerIds := by
  have hdefault : ∃ group, groups defaultMsgType = some group := by
    rw [configSwimlanes_apply hconfig, if_pos rfl]
    exact ⟨_, rfl⟩
  have hdispatched := Dispatcher.dispatched_of_run hdefault
    (fun _ _ hfound ↦ configSwimlanes_fresh hconfig hfound) hrun
  obtain ⟨found, hfound, hwkId⟩ := hdispatched.member routed hmem
  rw [hdispatched.cycled.resolved routed hmem] at hfound
  rwa [Option.some.inj (hgroup.symm.trans hfound)]

/-- A message of the default type goes to the default group. -/
theorem resolve_default (hconfig : configSwimlanes (firstIds workers) lanes = some groups) :
    resolve groups defaultMsgType = defaultMsgType ∧
      groups defaultMsgType = some ⟨defaultWorkers (firstIds workers) lanes, 0⟩ := by
  have hstored : groups defaultMsgType = some ⟨defaultWorkers (firstIds workers) lanes, 0⟩ := by
    rw [configSwimlanes_apply hconfig, if_pos rfl]
  exact ⟨by rw [resolve, hstored]; rfl, hstored⟩

/-- The first message of the key of the default group goes to the first default worker. -/
theorem step_default (hconfig : configSwimlanes (firstIds workers) lanes = some groups) {wkId : ℤ}
    {rest : List ℤ} (hcons : defaultWorkers (firstIds workers) lanes = wkId :: rest) :
    ∃ next, Dispatcher.step (.new groups) defaultMsgType = some next ∧
      next.routed = [⟨defaultMsgType, defaultMsgType, wkId⟩] := by
  obtain ⟨hresolve, hdefault⟩ := resolve_default hconfig
  refine ⟨⟨Function.update groups defaultMsgType (some ⟨defaultWorkers (firstIds workers) lanes,
    nextCursor 0 (defaultWorkers (firstIds workers) lanes).length⟩), _⟩, ?_, rfl⟩
  rw [Dispatcher.step, Dispatcher.new, hresolve, dispatchMsg_eq hresolve.symm hdefault]
  simp only [hcons]
  rfl

/-- Assumes: a type that one lane has. Its messages stay in the lane exactly if it is not the key of
the default group, or there is no default worker. -/
theorem isolated_iff_of_lane (hworkers : 0 < workers)
    (hconfig : configSwimlanes (firstIds workers) lanes = some groups) {msgType : UInt32}
    {entry : MessageSwimlane × List ℤ}
    (hlane : lanesOf (createdGroups (firstIds workers) lanes) msgType = [entry]) :
    Dispatcher.Isolated groups msgType entry.2 ↔
      msgType ≠ defaultMsgType ∨ leavesDefault lanes workers = false := by
  have hne : firstIds workers ≠ [] := by
    rw [← List.length_pos_iff, length_firstIds]
    exact hworkers
  have hiff : defaultWorkers (firstIds workers) lanes ≠ [] ↔
      leavesDefault lanes (firstIds workers).length = true := defaultWorkers_ne_nil_iff hne
  rw [length_firstIds] at hiff
  obtain ⟨hresolve, hdefault⟩ := resolve_default hconfig
  by_cases hkey : msgType = defaultMsgType
  · subst hkey
    rw [or_iff_right (fun hne ↦ hne rfl), ← Bool.not_eq_true, ← hiff, not_not]
    constructor
    · -- the first default worker gets a message of the type, and is in no lane
      intro hisolated
      by_contra hsome
      obtain ⟨wkId, rest, hcons⟩ := List.exists_cons_of_ne_nil hsome
      have hentry : entry ∈ createdGroups (firstIds workers) lanes :=
        List.mem_of_mem_filter (hlane ▸ List.mem_cons_self)
      obtain ⟨next, hstep, hrouted⟩ := step_default hconfig hcons
      have hmem := hisolated [defaultMsgType] next (by rw [runFrom_cons_of_step hstep]; rfl)
        ⟨defaultMsgType, defaultMsgType, wkId⟩ (hrouted ▸ List.mem_cons_self) rfl
      exact (disjoint_createdGroups (firstIds_nodup workers)).2 entry hentry hmem
        (hcons ▸ List.mem_cons_self)
    · intro hnil msgTypes final hrun routed hmem htype
      have hwkId := wkId_of_run hconfig hrun hmem (htype ▸ hresolve.symm ▸ hdefault)
      rw [hnil] at hwkId
      exact absurd hwkId List.not_mem_nil
  · refine iff_of_true (fun msgTypes final hrun routed hmem htype ↦ ?_) (Or.inl hkey)
    have hgroup : groups msgType = some ⟨entry.2, 0⟩ := by
      rw [configSwimlanes_apply hconfig, if_neg hkey, hlane]
      rfl
    have hself : resolve groups msgType = msgType := by
      rw [resolve, hgroup]
      rfl
    exact wkId_of_run hconfig hrun hmem (by rw [htype, hself]; exact hgroup)

/-- Assumes: a type that no lane has. Its messages go to workers of no lane. -/
theorem apart_of_unlisted (hconfig : configSwimlanes (firstIds workers) lanes = some groups)
    {msgType : UInt32}
    (hnone : lanesOf (createdGroups (firstIds workers) lanes) msgType = [])
    {msgTypes : List UInt32} {final : Dispatcher}
    (hrun : runFrom Dispatcher.step (.new groups) msgTypes = some final) {routed : Routed}
    (hmem : routed ∈ final.routed) (htype : routed.msgType = msgType) :
    ∀ entry ∈ createdGroups (firstIds workers) lanes, routed.wkId ∉ entry.2 := by
  obtain ⟨hdefault, hstored⟩ := resolve_default hconfig
  have hresolve : resolve groups msgType = defaultMsgType := by
    by_cases hkey : msgType = defaultMsgType
    · rw [hkey, hdefault]
    · have hunstored : groups msgType = none := by
        rw [configSwimlanes_apply hconfig, if_neg hkey, hnone]
        rfl
      rw [resolve, hunstored]
      rfl
  have hwkId := wkId_of_run hconfig hrun hmem (by rw [htype, hresolve]; exact hstored)
  intro entry hentry hin
  exact (disjoint_createdGroups (firstIds_nodup workers)).2 entry hentry hin hwkId

/-- Two lanes of one worker each, the first for the key of the default group. -/
def reservedLanes : List MessageSwimlane := [⟨[defaultMsgType], 1⟩, ⟨[7], 1⟩]

theorem isSome_reservedLanes : (configSwimlanes (firstIds 3) reservedLanes).isSome = true := by
  decide

/-- What is stored for these lanes. -/
def reservedGroups : MsgTyp2WkIdGrp :=
  (configSwimlanes (firstIds 3) reservedLanes).get isSome_reservedLanes

end Stored

end TszyUlt.Zbf
