import TszyUlt.Lygc.DbProxyDelivery

/-!
# Every response of the database proxy goes to the user that asked

`lygc/dbproxy_base.hpp`: `submit`, `savePenddingReq`, `onResponseBase` and `cleanupUserPending`,
over the pools. `DbProxyDelivery` says which responses arrive when no answer overtakes its entry.
Here is what holds in every run, also where an answer comes too early and its entry is left behind,
or where users disconnect and are destroyed at any point (`responses_matched`): every response is
made from the header of one call of `submit` and from what the database answered to the request of
that same call, it goes to the user of that call, and no call has two.

An entry is found by the id of the request, and nothing else is compared. What keeps requests apart
is that the pool of a slot draws its ids one after the other, so that no two calls have the same one
before they have all been drawn (`fresh_of_few_submits`). An entry that was left behind is therefore
not found by any later request, and the only call that can take an entry out is the one that saved
it (`Matching.entry_eq`).

Scope. As in `DbProxy`.
-/

set_option autoImplicit false
set_option relaxedAutoImplicit false

namespace TszyUlt.Lygc

open Lib Zbf

/-- The action starts a call of `submit`. -/
def DbAction.isSubmit : DbAction → Bool
  | .submit _ _ _ => true
  | _ => false

namespace DbProxy

variable {order : ByteOrder} {origin : BitVec 16} {pools : Fin maxDbSlots → Bool}
variable {proxy next : DbProxy}

/-! ### The ids of a slot -/

/-- The slot and the id of each call. -/
def ids (proxy : DbProxy) : List (Fin maxDbSlots × RequestId) :=
  proxy.calls.map fun call ↦ (call.slot, call.dbReqId)

/-- The pool of each slot has drawn so many ids, from the first one on. -/
def Numbered (proxy : DbProxy) (drawn : Fin maxDbSlots → ℕ) : Prop :=
  ∀ slot, proxy.reqIds slot = minReqId + BitVec.ofNat 64 (drawn slot) ∧
    drawn slot ≤ proxy.ids.length ∧
    ∀ dbReqId, (slot, dbReqId) ∈ proxy.ids →
      ∃ index < drawn slot, dbReqId = minReqId + BitVec.ofNat 64 index

/-- An id that is drawn was not drawn before. -/
def FreshId (proxy : DbProxy) : DbAction → Prop
  | .submit slot _ _ =>
    ∀ hslot : slot.toNat < maxDbSlots, ∀ call ∈ proxy.calls, call.slot = ⟨slot.toNat, hslot⟩ →
      call.dbReqId ≠ proxy.reqIds ⟨slot.toNat, hslot⟩
  | _ => True

/-! ### What holds in every run -/

/-- Entries and responses belong to the calls that they are of, and no two calls share an id. -/
structure Matching (order : ByteOrder) (origin : BitVec 16) (proxy : DbProxy) : Prop where
  queues : proxy.QueuesAgree
  distinct : ∀ (tag other : ℕ) (call call' : DbCall), proxy.calls[tag]? = some call →
    proxy.calls[other]? = some call' → call.slot = call'.slot → call.dbReqId = call'.dbReqId →
      tag = other
  entries : ∀ slot dbReqId pendReq, proxy.view slot dbReqId = some pendReq →
    ∃ call, proxy.calls[pendReq.saver]? = some call ∧ call.slot = slot ∧ call.dbReqId = dbReqId ∧
      pendReq = call.entry pendReq.saver
  pushing : ∀ (tag : ℕ) (call : DbCall), proxy.calls[tag]? = some call → call.submit = .pushing →
    call.request = .unsent
  taken : ∀ (tag : ℕ) (call : DbCall) (pendReq : PenddingReq) (respData : Bytes),
    proxy.calls[tag]? = some call →
      call.request = .found pendReq respData ∨ call.request = .posting pendReq respData →
        pendReq = call.entry tag
  posts : ∀ post ∈ proxy.posts, ∃ call respData, proxy.calls[post.saver]? = some call ∧
    call.request = .answered respData ∧
      post = ⟨post.saver, call.user, createResponse order origin call.reqHeader respData⟩
  once : (proxy.posts.map DbPost.saver).Nodup

theorem matching_new : new.Matching order origin where
  queues := fun _ ↦ ⟨List.nodup_nil, fun _ hmem ↦ absurd hmem List.not_mem_nil⟩
  distinct := fun _ _ _ _ hcall ↦ by cases hcall
  entries := fun _ _ _ hview ↦ by cases hview
  pushing := fun _ _ hcall ↦ by cases hcall
  taken := fun _ _ _ _ hcall ↦ by cases hcall
  posts := fun _ hmem ↦ absurd hmem List.not_mem_nil
  once := List.nodup_nil

/-- The entry under the id of a call is the one that this call saved. -/
theorem Matching.entry_eq (hmatch : proxy.Matching order origin) {tag : ℕ} {call : DbCall}
    (hcall : proxy.calls[tag]? = some call) {pendReq : PenddingReq}
    (hentry : proxy.view call.slot call.dbReqId = some pendReq) : pendReq = call.entry tag := by
  obtain ⟨saver, hsaver, hslot, hid, hpend⟩ := hmatch.entries _ _ _ hentry
  have hsame : pendReq.saver = tag := hmatch.distinct _ _ _ _ hsaver hcall hslot hid
  rw [hsame] at hsaver hpend
  obtain rfl : call = saver := Option.some.inj (hcall.symm.trans hsaver)
  exact hpend

/-- A call whose request is not answered has no response yet. -/
theorem Matching.not_mem_posts (hmatch : proxy.Matching order origin) {tag : ℕ} {call : DbCall}
    (hcall : proxy.calls[tag]? = some call)
    (hunanswered : ∀ respData, call.request ≠ .answered respData) :
    tag ∉ proxy.posts.map DbPost.saver := by
  intro hmem
  obtain ⟨post, hpost, hsaver⟩ := List.mem_map.mp hmem
  obtain ⟨found, respData, hfound, hanswered, -⟩ := hmatch.posts post hpost
  rw [hsaver] at hfound
  obtain rfl : call = found := Option.some.inj (hcall.symm.trans hfound)
  exact hunanswered respData hanswered

/-! ### The steps -/

/-- Assumes: a step that changes the stage of one call that is not answered, saves no entry but the
one of this call, and posts no response but one to its user. -/
theorem Matching.of_change (hmatch : proxy.Matching order origin) {tag : ℕ} {call : DbCall}
    (hcall : proxy.calls[tag]? = some call) {submit : SubmitAt} {request : RequestAt} {retries : ℕ}
    (hcalls : next.calls = proxy.calls.set tag
      { call with submit := submit, request := request, retryTimes := retries })
    (hqueues : next.QueuesAgree)
    (hentries : ∀ slot dbReqId pendReq, next.view slot dbReqId = some pendReq →
      proxy.view slot dbReqId = some pendReq ∨
        slot = call.slot ∧ dbReqId = call.dbReqId ∧ pendReq = call.entry tag)
    (hpushing : submit = .pushing → request = .unsent)
    (htaken : ∀ pendReq respData,
      request = .found pendReq respData ∨ request = .posting pendReq respData →
        pendReq = call.entry tag)
    (hkept : ∀ respData, call.request = .answered respData → request = .answered respData)
    (hposts : next.posts = proxy.posts ∨
      (∀ respData, call.request ≠ .answered respData) ∧
        ∃ respData, request = .answered respData ∧ next.posts = proxy.posts ++
          [⟨tag, call.user, createResponse order origin call.reqHeader respData⟩]) :
    next.Matching order origin := by
  set call' : DbCall := { call with submit := submit, request := request, retryTimes := retries }
    with hcall'
  have hself : next.calls[tag]? = some call' := by
    rw [hcalls]
    exact getElem?_set_of_some hcall
  have hother : ∀ other ≠ tag, next.calls[other]? = proxy.calls[other]? := fun other hne ↦ by
    rw [hcalls, List.getElem?_set_ne (Ne.symm hne)]
  have hcases : ∀ {other found}, next.calls[other]? = some found →
      other = tag ∧ found = call' ∨ other ≠ tag ∧ proxy.calls[other]? = some found := by
    intro other found hfound
    rw [hcalls] at hfound
    exact getElem?_set_cases hfound
  refine ⟨hqueues, ?_, ?_, ?_, ?_, ?_, ?_⟩
  · intro first second callA callB hfirst hsecond hslots hids
    rcases hcases hfirst with ⟨rfl, rfl⟩ | ⟨-, holdA⟩
    · rcases hcases hsecond with ⟨rfl, -⟩ | ⟨-, holdB⟩
      · rfl
      · exact hmatch.distinct _ _ _ _ hcall holdB hslots hids
    · rcases hcases hsecond with ⟨rfl, rfl⟩ | ⟨-, holdB⟩
      · exact hmatch.distinct _ _ _ _ holdA hcall hslots hids
      · exact hmatch.distinct _ _ _ _ holdA holdB hslots hids
  · intro slot dbReqId pendReq hentry
    rcases hentries slot dbReqId pendReq hentry with hold | ⟨rfl, rfl, rfl⟩
    · obtain ⟨saver, hsaver, hslot, hid, hpend⟩ := hmatch.entries _ _ _ hold
      by_cases heq : pendReq.saver = tag
      · rw [heq] at hsaver hpend ⊢
        obtain rfl : call = saver := Option.some.inj (hcall.symm.trans hsaver)
        exact ⟨call', hself, hslot, hid, hpend⟩
      · exact ⟨saver, (hother _ heq).trans hsaver, hslot, hid, hpend⟩
    · exact ⟨call', hself, rfl, rfl, rfl⟩
  · intro other found hfound hsubmit
    rcases hcases hfound with ⟨-, rfl⟩ | ⟨-, hold⟩
    · exact hpushing hsubmit
    · exact hmatch.pushing other found hold hsubmit
  · intro other found pendReq respData hfound hstage
    rcases hcases hfound with ⟨rfl, rfl⟩ | ⟨-, hold⟩
    · exact htaken pendReq respData hstage
    · exact hmatch.taken other found pendReq respData hold hstage
  · have hold : ∀ post ∈ proxy.posts, ∃ found respData,
        next.calls[post.saver]? = some found ∧ found.request = .answered respData ∧
        post = ⟨post.saver, found.user, createResponse order origin found.reqHeader respData⟩ := by
      intro post hpost
      obtain ⟨found, respData, hfound, hanswered, hmade⟩ := hmatch.posts post hpost
      by_cases heq : post.saver = tag
      · rw [heq] at hfound hmade ⊢
        obtain rfl : call = found := Option.some.inj (hcall.symm.trans hfound)
        exact ⟨call', respData, hself, hkept respData hanswered, hmade⟩
      · exact ⟨found, respData, (hother _ heq).trans hfound, hanswered, hmade⟩
    rcases hposts with heq | ⟨-, respData, hanswered, heq⟩
    · rw [heq]
      exact hold
    · intro post hpost
      rw [heq, List.mem_append, List.mem_singleton] at hpost
      rcases hpost with hmem | rfl
      · exact hold post hmem
      · exact ⟨call', respData, hself, hanswered, rfl⟩
  · rcases hposts with heq | ⟨hunanswered, respData, -, heq⟩
    · rw [heq]
      exact hmatch.once
    · rw [heq, List.map_append]
      exact hmatch.once.append (List.nodup_singleton _)
        (List.disjoint_singleton.mpr (hmatch.not_mem_posts hcall hunanswered))

/-- A step that changes the stage of a call that is not answered yet, and the queues. -/
theorem Matching.setCall (hmatch : proxy.Matching order origin) {tag : ℕ} {call : DbCall}
    (hcall : proxy.calls[tag]? = some call) {queues : Fin maxDbSlots → SafeQueue ℕ}
    {submit : SubmitAt} {request : RequestAt} {retries : ℕ}
    (hqueues : ({ proxy with
      queues := queues
      calls := proxy.calls.set tag
        { call with submit := submit, request := request, retryTimes := retries } } :
      DbProxy).QueuesAgree)
    (hpushing : submit = .pushing → request = .unsent)
    (htaken : ∀ pendReq respData,
      request = .found pendReq respData ∨ request = .posting pendReq respData →
        pendReq = call.entry tag)
    (hkept : ∀ respData, call.request = .answered respData → request = .answered respData) :
    ({ proxy with
      queues := queues
      calls := proxy.calls.set tag
        { call with submit := submit, request := request, retryTimes := retries } } :
      DbProxy).Matching order origin :=
  hmatch.of_change hcall rfl hqueues (fun _ _ _ hentry ↦ Or.inl hentry) hpushing htaken hkept
    (Or.inl rfl)

/-- The request of a call that was sent and is not answered goes on. -/
theorem Matching.move (hmatch : proxy.Matching order origin) {tag : ℕ} {call : DbCall}
    (hcall : proxy.calls[tag]? = some call) (hsent : call.request ≠ .unsent)
    (hunanswered : ∀ respData, call.request ≠ .answered respData)
    {queues : Fin maxDbSlots → SafeQueue ℕ} {request : RequestAt} {retries : ℕ}
    (hqueues : ({ proxy with
      queues := queues
      calls := proxy.calls.set tag { call with request := request, retryTimes := retries } } :
      DbProxy).QueuesAgree)
    (htaken : ∀ pendReq respData,
      request = .found pendReq respData ∨ request = .posting pendReq respData →
        pendReq = call.entry tag) :
    ({ proxy with
      queues := queues
      calls := proxy.calls.set tag { call with request := request, retryTimes := retries } } :
      DbProxy).Matching order origin :=
  hmatch.setCall hcall hqueues
    (fun hsubmit ↦ absurd (hmatch.pushing tag call hcall hsubmit) hsent) htaken
    fun respData hanswered ↦ absurd hanswered (hunanswered respData)

/-- A step that changes no call and saves no entry. -/
theorem Matching.of_users (hmatch : proxy.Matching order origin) (hcalls : next.calls = proxy.calls)
    (hposts : next.posts = proxy.posts) (hqueues : next.QueuesAgree)
    (hentries : ∀ slot dbReqId pendReq, next.view slot dbReqId = some pendReq →
      proxy.view slot dbReqId = some pendReq) : next.Matching order origin := by
  refine ⟨hqueues, ?_, ?_, ?_, ?_, ?_, ?_⟩
  · rw [hcalls]
    exact hmatch.distinct
  · intro slot dbReqId pendReq hentry
    rw [hcalls]
    exact hmatch.entries slot dbReqId pendReq (hentries slot dbReqId pendReq hentry)
  · rw [hcalls]
    exact hmatch.pushing
  · rw [hcalls]
    exact hmatch.taken
  · rw [hcalls, hposts]
    exact hmatch.posts
  · rw [hposts]
    exact hmatch.once

/-- The shards of one slot change, and no entry is new but possibly one. -/
theorem entries_setShards {slot : Fin maxDbSlots}
    {shards : Sharded (Fin dbShardCount) RequestId PenddingReq}
    (new : RequestId → PenddingReq → Prop)
    (hshards : ∀ dbReqId pendReq, Sharded.view dbShardIdx shards dbReqId = some pendReq →
      proxy.view slot dbReqId = some pendReq ∨ new dbReqId pendReq)
    (slot' : Fin maxDbSlots) (dbReqId : RequestId) (pendReq : PenddingReq)
    (hentry : (proxy.setShards slot shards).view slot' dbReqId = some pendReq) :
    proxy.view slot' dbReqId = some pendReq ∨ slot' = slot ∧ new dbReqId pendReq := by
  by_cases hslot : slot' = slot
  · subst hslot
    rw [view_setShards_self] at hentry
    exact (hshards dbReqId pendReq hentry).imp_right fun hnew ↦ ⟨rfl, hnew⟩
  · rw [view_setShards_of_ne hslot] at hentry
    exact Or.inl hentry

/-- `submit` saves the entry of its call; where there is an entry already, it stays. -/
theorem Matching.savePenddingReq (hmatch : proxy.Matching order origin) {tag : ℕ} {call : DbCall}
    (hcall : proxy.calls[tag]? = some call) :
    ((proxy.setShards call.slot (Sharded.insertNew dbShardIdx (proxy.poolCtx call.slot)
      call.dbReqId (call.entry tag))).setCall tag { call with submit := .accepted }).Matching order
        origin := by
  refine hmatch.of_change hcall rfl
    (hmatch.queues.setCall hcall rfl rfl fun hqueued ↦ ⟨rfl, hqueued⟩)
    (entries_setShards _ fun dbReqId pendReq hentry ↦ ?_) nofun
    (fun pendReq respData ↦ hmatch.taken tag call pendReq respData hcall) (fun _ h ↦ h) (Or.inl rfl)
  rw [Sharded.view_insertNew] at hentry
  by_cases hid : dbReqId = call.dbReqId
  · exact (Table.insertNew_eq_some hentry).imp_right fun hpend ↦ ⟨hid, hpend⟩
  · rw [Table.insertNew_of_ne _ hid] at hentry
    exact Or.inl hentry

/-- The lookup of an answer takes the entry of its own call out. -/
theorem Matching.take (hmatch : proxy.Matching order origin) {tag : ℕ} {call : DbCall}
    (hcall : proxy.calls[tag]? = some call) (hworking : call.request = .working)
    {pendReq : PenddingReq} (hentry : proxy.view call.slot call.dbReqId = some pendReq)
    (respData : Bytes) :
    ((proxy.setShards call.slot (Sharded.erase dbShardIdx (proxy.poolCtx call.slot)
      call.dbReqId)).setCall tag { call with request := .found pendReq respData }).Matching order
        origin := by
  have hown := hmatch.entry_eq hcall hentry
  refine hmatch.of_change hcall rfl
    (hmatch.queues.setCall_of_ne hcall (by rw [hworking]; exact nofun) rfl rfl)
    (fun slot dbReqId other hother ↦ ?_) (fun hsubmit ↦ ?_) ?_ ?_ (Or.inl rfl)
  · refine Or.inl ((entries_setShards (fun _ _ ↦ False) (fun id found hfound ↦ Or.inl ?_) slot
      dbReqId other hother).resolve_right fun hnew ↦ hnew.2)
    rw [Sharded.view_erase] at hfound
    exact Table.erase_eq_some hfound
  · exact absurd ((hmatch.pushing tag call hcall hsubmit).symm.trans hworking) nofun
  · rintro other data (hfound | hposting)
    · obtain ⟨rfl, -⟩ := RequestAt.found.inj hfound
      exact hown
    · cases hposting
  · intro data hanswered
    rw [hworking] at hanswered
    cases hanswered

/-- The response is posted to the user whose entry was found. -/
theorem Matching.post (hmatch : proxy.Matching order origin) {tag : ℕ} {call : DbCall}
    (hcall : proxy.calls[tag]? = some call) {pendReq : PenddingReq} {respData : Bytes}
    (hposting : call.request = .posting pendReq respData) :
    ({ proxy.setCall tag { call with request := .answered respData } with
      posts := proxy.posts ++ [⟨pendReq.saver, pendReq.user,
        createResponse order origin pendReq.reqHeader respData⟩] } : DbProxy).Matching order
        origin := by
  have hunanswered : ∀ data, call.request ≠ .answered data := fun data h ↦
    absurd (hposting.symm.trans h) nofun
  obtain rfl := hmatch.taken tag call pendReq respData hcall (Or.inr hposting)
  refine hmatch.of_change hcall rfl
    (hmatch.queues.setCall_of_ne hcall (by rw [hposting]; exact nofun) rfl rfl)
    (fun _ _ _ hentry ↦ Or.inl hentry) (fun hsubmit ↦ ?_) ?_ ?_
    (Or.inr ⟨hunanswered, respData, rfl, rfl⟩)
  · exact absurd ((hmatch.pushing tag call hcall hsubmit).symm.trans hposting) nofun
  · rintro other data (h | h) <;> cases h
  · exact fun data hanswered ↦ absurd hanswered (hunanswered data)

/-- A new call draws an id that was not drawn before. -/
theorem Matching.submit (hmatch : proxy.Matching order origin) (slot : Fin maxDbSlots)
    (reqIds : Fin maxDbSlots → RequestId) (reqHeader : LymsgHeader) (user : UserId)
    (hfresh : ∀ call ∈ proxy.calls, call.slot = slot → call.dbReqId ≠ proxy.reqIds slot) :
    ({ proxy with
      reqIds := reqIds
      calls := proxy.calls ++
        [⟨slot, proxy.reqIds slot, reqHeader, user, .pushing, .unsent, 0⟩] } :
      DbProxy).Matching order origin := by
  refine ⟨?_, ?_, ?_, ?_, ?_, ?_, hmatch.once⟩
  · intro other
    refine ⟨(hmatch.queues other).1, fun tag htag ↦ ?_⟩
    obtain ⟨call, hcall, hrest⟩ := (hmatch.queues other).2 tag htag
    exact ⟨call, getElem?_concat_of_some hcall _, hrest⟩
  · intro first second callA callB hfirst hsecond hslots hids
    rcases getElem?_concat_cases hfirst with holdA | ⟨rfl, rfl⟩
    · rcases getElem?_concat_cases hsecond with holdB | ⟨rfl, rfl⟩
      · exact hmatch.distinct _ _ _ _ holdA holdB hslots hids
      · exact absurd hids (hfresh callA (List.mem_of_getElem? holdA) hslots)
    · rcases getElem?_concat_cases hsecond with holdB | ⟨rfl, -⟩
      · exact absurd hids.symm (hfresh callB (List.mem_of_getElem? holdB) hslots.symm)
      · rfl
  · intro other dbReqId pendReq hentry
    obtain ⟨saver, hsaver, hrest⟩ := hmatch.entries _ _ _ hentry
    exact ⟨saver, getElem?_concat_of_some hsaver _, hrest⟩
  · intro tag call hcall hsubmit
    rcases getElem?_concat_cases hcall with hold | ⟨rfl, rfl⟩
    · exact hmatch.pushing tag call hold hsubmit
    · rfl
  · intro tag call pendReq respData hcall hstage
    rcases getElem?_concat_cases hcall with hold | ⟨rfl, rfl⟩
    · exact hmatch.taken tag call pendReq respData hold hstage
    · rcases hstage with h | h <;> cases h
  · intro post hpost
    obtain ⟨call, respData, hcall, hrest⟩ := hmatch.posts post hpost
    exact ⟨call, respData, getElem?_concat_of_some hcall _, hrest⟩

/-- The pool of a slot is stopped: its queue stays as it is. -/
theorem queuesAgree_stop (hqueues : proxy.QueuesAgree) (slot : Fin maxDbSlots) :
    (proxy.setQueue slot (proxy.queues slot).stop).QueuesAgree := by
  intro other
  have hitems : ((proxy.setQueue slot (proxy.queues slot).stop).queues other).items =
      (proxy.queues other).items := by
    show (Function.update proxy.queues slot (proxy.queues slot).stop other).items = _
    by_cases heq : other = slot
    · subst heq
      rw [Function.update_self]
      rfl
    · rw [Function.update_of_ne heq]
  rw [hitems]
  exact hqueues other

/-- Every step whose draw is new keeps what holds in every run. -/
theorem Matching.step {action : DbAction} (hmatch : proxy.Matching order origin)
    (hfresh : proxy.FreshId action) (hstep : proxy.step order origin pools action = some next) :
    next.Matching order origin := by
  cases step_moves hstep with
  | idle => exact hmatch
  | submit slot hslot hpool reqHeader user =>
    exact hmatch.submit ⟨slot.toNat, hslot⟩ _ reqHeader user (hfresh hslot)
  | accept tag call hcall hsubmit queue hpush submit hnow =>
    have hunsent := hmatch.pushing tag call hcall hsubmit
    have hperm : queue.items.Perm (tag :: (proxy.queues call.slot).items) := by
      rw [SafeQueue.push_eq_true hpush]
      exact List.perm_append_comm
    refine hmatch.setCall hcall
      (hmatch.queues.enqueue hcall (by rw [hunsent]; decide) hperm rfl rfl) (fun hpushing ↦ ?_) ?_
      ?_
    · rw [hpushing] at hnow
      split_ifs at hnow
    · rintro pendReq respData (h | h) <;> cases h
    · intro respData hanswered
      rw [hunsent] at hanswered
      cases hanswered
  | refuse tag call hcall hsubmit =>
    have hunsent := hmatch.pushing tag call hcall hsubmit
    exact hmatch.setCall hcall
      (hmatch.queues.setCall_of_ne hcall (by rw [hunsent]; decide) rfl rfl) nofun
      (fun pendReq respData ↦ hmatch.taken tag call pendReq respData hcall) fun _ h ↦ h
  | savePenddingReq tag call hcall hsubmit => exact hmatch.savePenddingReq hcall
  | pop slot tag queue hpop call hcall =>
    have hitems := SafeQueue.popTimeout_eq_success hpop
    obtain ⟨found, hfound, -, hqueued⟩ :=
      (hmatch.queues slot).2 tag (by rw [hitems]; exact List.mem_cons_self)
    obtain rfl : call = found := Option.some.inj (hcall.symm.trans hfound)
    refine hmatch.move hcall (by rw [hqueued]; exact nofun) (by rw [hqueued]; exact nofun)
      (hmatch.queues.dequeue hitems _) ?_
    rintro pendReq respData (h | h) <;> cases h
  | requeue tag call hcall hworking =>
    refine hmatch.move hcall (by rw [hworking]; exact nofun) (by rw [hworking]; exact nofun)
      (hmatch.queues.enqueue hcall (by rw [hworking]; decide) (List.Perm.refl _) rfl rfl) ?_
    rintro pendReq respData (h | h) <;> cases h
  | answer tag call hcall hworking hnone respData =>
    refine hmatch.move hcall (by rw [hworking]; exact nofun) (by rw [hworking]; exact nofun)
      (hmatch.queues.setCall_of_ne hcall (by rw [hworking]; exact nofun) rfl rfl) ?_
    rintro pendReq data (h | h) <;> cases h
  | take tag call hcall hworking pendReq hentry respData =>
    exact hmatch.take hcall hworking hentry respData
  | lockUser tag call hcall pendReq respData hfound =>
    refine hmatch.move hcall (by rw [hfound]; exact nofun) (by rw [hfound]; exact nofun)
      (hmatch.queues.setCall_of_ne hcall (by rw [hfound]; exact nofun) rfl rfl) ?_
    rintro other data (h | h)
    · cases h
    · obtain ⟨rfl, -⟩ := RequestAt.posting.inj h
      exact hmatch.taken tag call pendReq respData hcall (Or.inl hfound)
  | drop tag call hcall pendReq respData hfound hdead =>
    refine hmatch.move hcall (by rw [hfound]; exact nofun) (by rw [hfound]; exact nofun)
      (hmatch.queues.setCall_of_ne hcall (by rw [hfound]; exact nofun) rfl rfl) ?_
    rintro other data (h | h) <;> cases h
  | post tag call hcall pendReq respData hposting => exact hmatch.post hcall hposting
  | stop slot =>
    exact hmatch.of_users rfl rfl (queuesAgree_stop hmatch.queues slot) fun _ _ _ h ↦ h
  | disconnect user => exact hmatch.of_users rfl rfl hmatch.queues fun _ _ _ h ↦ h
  | cleanShard user slot shard huser =>
    refine hmatch.of_users rfl rfl hmatch.queues fun other dbReqId pendReq hentry ↦ ?_
    refine (entries_setShards (fun _ _ ↦ False) (fun id found hfound ↦ Or.inl ?_) other dbReqId
      pendReq hentry).resolve_right fun hnew ↦ hnew.2
    rw [Sharded.view_removeIf] at hfound
    split_ifs at hfound
    · exact (Option.filter_eq_some_iff.mp hfound).1
    · exact hfound
  | destroyUser user huser => exact hmatch.of_users rfl rfl hmatch.queues fun _ _ _ h ↦ h

/-! ### All runs -/

/-- A step draws one id in one slot, or leaves the ids as they are. -/
theorem ids_step {action : DbAction} (hstep : proxy.step order origin pools action = some next) :
    (∃ slot reqHeader user, ∃ hslot : slot.toNat < maxDbSlots,
        action = .submit slot reqHeader user ∧
        next.reqIds = Function.update proxy.reqIds ⟨slot.toNat, hslot⟩
          (proxy.reqIds ⟨slot.toNat, hslot⟩ + 1) ∧
        next.ids = proxy.ids ++ [(⟨slot.toNat, hslot⟩, proxy.reqIds ⟨slot.toNat, hslot⟩)]) ∨
      next.reqIds = proxy.reqIds ∧ next.ids = proxy.ids := by
  have hset : ∀ {tag : ℕ} {call call' : DbCall}, proxy.calls[tag]? = some call →
      call'.slot = call.slot → call'.dbReqId = call.dbReqId →
        (proxy.calls.set tag call').map (fun call ↦ (call.slot, call.dbReqId)) = proxy.ids := by
    intro tag call call' hcall hslot hid
    have hsame : (call'.slot, call'.dbReqId) = (call.slot, call.dbReqId) := by rw [hslot, hid]
    rw [List.map_set, hsame, ids]
    refine List.ext_getElem? fun other ↦ ?_
    by_cases heq : other = tag
    · subst heq
      rw [List.getElem?_set_self', List.getElem?_map, hcall]
      rfl
    · rw [List.getElem?_set_ne (Ne.symm heq)]
  cases step_moves hstep with
  | submit slot hslot hpool reqHeader user =>
    refine Or.inl ⟨slot, reqHeader, user, hslot, rfl, rfl, ?_⟩
    rw [ids, List.map_append]
    rfl
  | accept tag call hcall | refuse tag call hcall | savePenddingReq tag call hcall
  | requeue tag call hcall | answer tag call hcall | take tag call hcall
  | lockUser tag call hcall | drop tag call hcall | post tag call hcall =>
    exact Or.inr ⟨rfl, hset hcall rfl rfl⟩
  | pop slot tag queue hpop call hcall => exact Or.inr ⟨rfl, hset hcall rfl rfl⟩
  | idle | stop | disconnect | cleanShard | destroyUser => exact Or.inr ⟨rfl, rfl⟩

theorem numbered_new : new.Numbered fun _ ↦ 0 :=
  fun _ ↦ ⟨(BitVec.add_zero _).symm, Nat.zero_le _, fun _ hmem ↦ absurd hmem List.not_mem_nil⟩

/-- Each draw takes the next id of its slot. -/
theorem Numbered.step {drawn : Fin maxDbSlots → ℕ} (hnumbered : proxy.Numbered drawn)
    {action : DbAction} (hstep : proxy.step order origin pools action = some next) :
    ∃ drawn', next.Numbered drawn' := by
  rcases ids_step hstep with ⟨slot, _, _, hslot, -, hreqIds, hids⟩ | ⟨hreqIds, hids⟩
  · set own : Fin maxDbSlots := ⟨slot.toNat, hslot⟩ with hown
    have hlength : next.ids.length = proxy.ids.length + 1 := by
      rw [hids, List.length_append, List.length_singleton]
    refine ⟨Function.update drawn own (drawn own + 1), fun other ↦ ?_⟩
    obtain ⟨hnext, hle, hdrawn⟩ := hnumbered other
    rw [hreqIds]
    by_cases heq : other = own
    · subst heq
      rw [Function.update_self, Function.update_self, hlength]
      refine ⟨?_, Nat.succ_le_succ hle, fun dbReqId hmem ↦ ?_⟩
      · rw [hnext, BitVec.ofNat_add, BitVec.add_assoc]
        rfl
      · rw [hids, List.mem_append, List.mem_singleton] at hmem
        rcases hmem with hold | hlast
        · obtain ⟨index, hindex, hid⟩ := hdrawn dbReqId hold
          exact ⟨index, Nat.lt_succ_of_lt hindex, hid⟩
        · obtain ⟨-, rfl⟩ := Prod.mk.inj hlast
          exact ⟨drawn own, Nat.lt_succ_self _, hnext⟩
    · rw [Function.update_of_ne heq, Function.update_of_ne heq, hlength]
      refine ⟨hnext, Nat.le_succ_of_le hle, fun dbReqId hmem ↦ hdrawn dbReqId ?_⟩
      rw [hids, List.mem_append, List.mem_singleton] at hmem
      exact hmem.resolve_right fun hlast ↦ heq (Prod.mk.inj hlast).1
  · refine ⟨drawn, fun slot ↦ ?_⟩
    rw [hreqIds, hids]
    exact hnumbered slot

/-- While not all ids have been drawn, the next one of a slot is new. -/
theorem Numbered.freshId {drawn : Fin maxDbSlots → ℕ} (hnumbered : proxy.Numbered drawn)
    (action : DbAction) (hfew : action.isSubmit → proxy.ids.length < 2 ^ 64) :
    proxy.FreshId action := by
  cases action with
  | submit slot reqHeader user =>
    intro hslot call hcall hown hid
    obtain ⟨hnext, hle, hdrawn⟩ := hnumbered ⟨slot.toNat, hslot⟩
    have hmem : (⟨slot.toNat, hslot⟩, call.dbReqId) ∈ proxy.ids := by
      rw [← hown]
      exact List.mem_map_of_mem hcall
    obtain ⟨index, hindex, heq⟩ := hdrawn call.dbReqId hmem
    have hlt := hfew rfl
    rw [hid, hnext] at heq
    bv_omega
  | _ => trivial

/-- Assumes: a run with at most as many calls of `submit` as there are ids. No id is drawn twice in
a slot. -/
theorem fresh_of_few_submits {start : DbProxy} {drawn : Fin maxDbSlots → ℕ}
    {actions : List DbAction} (hstart : start.Numbered drawn)
    (hfew : start.ids.length + (actions.filter DbAction.isSubmit).length ≤ 2 ^ 64) :
    Along (step order origin pools) FreshId start actions := by
  induction actions generalizing start drawn with
  | nil => trivial
  | cons action actions ih =>
    have hcount : ((action :: actions).filter DbAction.isSubmit).length =
        (if action.isSubmit then 1 else 0) + (actions.filter DbAction.isSubmit).length := by
      rw [List.filter_cons]
      split_ifs
      · rw [List.length_cons, Nat.add_comm]
      · rw [Nat.zero_add]
    rw [hcount] at hfew
    refine ⟨hstart.freshId action fun hsubmit ↦ ?_, fun next hstep ↦ ?_⟩
    · rw [if_pos hsubmit] at hfew
      omega
    · obtain ⟨drawn', hnext⟩ := hstart.step hstep
      refine ih hnext ?_
      rcases ids_step hstep with ⟨slot, reqHeader, user, hslot, rfl, -, hids⟩ | ⟨-, hids⟩
      · rw [hids, List.length_append, List.length_singleton]
        have hsubmit : DbAction.isSubmit (.submit slot reqHeader user) = true := rfl
        rw [if_pos hsubmit] at hfew
        omega
      · rw [hids]
        omega

/-- Assumes: a run with at most as many calls of `submit` as there are ids. Every response was made
from the header of one call of `submit` and from the answer to the request of this call, and posted
to the user of this call; and no call has two responses. -/
theorem responses_matched (order : ByteOrder) (origin : BitVec 16) (pools : Fin maxDbSlots → Bool)
    {actions : List DbAction} {final : DbProxy}
    (hfew : (actions.filter DbAction.isSubmit).length ≤ 2 ^ 64)
    (hrun : runFrom (step order origin pools) new actions = some final) :
    (∀ post ∈ final.posts, ∃ call respData, final.calls[post.saver]? = some call ∧
      call.request = .answered respData ∧
        post = ⟨post.saver, call.user, createResponse order origin call.reqHeader respData⟩) ∧
      (final.posts.map DbPost.saver).Nodup := by
  have hfresh : Along (step order origin pools) FreshId new actions :=
    fresh_of_few_submits numbered_new (by rw [show new.ids = [] from rfl]; simpa using hfew)
  have hmatch : final.Matching order origin :=
    runFrom_invariant_along (Matching order origin)
      (fun _ _ _ hmatch hfresh hstep ↦ hmatch.step hfresh hstep) matching_new hfresh hrun
  exact ⟨hmatch.posts, hmatch.once⟩

/-- The answer to the first request overtakes its entry; the second one is answered in time, to its
own user. -/
theorem responses_matched_left_behind :
    ∃ final, runFrom (step .little 7 fun _ ↦ true) new
        [.submit 3 ⟨1, 0, 0x23#32, 9, 0⟩ 4, .push 0, .pop 3, .onResponse 0 [5#8],
          .savePenddingReq 0, .submit 3 ⟨1, 0, 0x23#32, 10, 0⟩ 6, .push 1, .savePenddingReq 1,
          .pop 3, .onResponse 1 [8#8], .lockUser 1, .post 1] = some final ∧
      final.posts = [⟨1, 6, createResponse .little 7 ⟨1, 0, 0x23#32, 10, 0⟩ [8#8]⟩] ∧
      (final.posts.map DbPost.saver).Nodup :=
  ⟨_, rfl, rfl, (@responses_matched .little 7 (fun _ ↦ true)
    [.submit 3 ⟨1, 0, 0x23#32, 9, 0⟩ 4, .push 0, .pop 3, .onResponse 0 [5#8],
      .savePenddingReq 0, .submit 3 ⟨1, 0, 0x23#32, 10, 0⟩ 6, .push 1, .savePenddingReq 1,
      .pop 3, .onResponse 1 [8#8], .lockUser 1, .post 1] _ (by decide) rfl).2⟩

end DbProxy

end TszyUlt.Lygc
