import TszyUlt.Lygc.DbProxy

/-!
# Responses between the database proxy and its pools

`submit` pushes the request before it saves the entry that the answer is matched with. A worker may
answer in between: the lookup finds nothing, the response is dropped, and the entry that `submit`
then inserts is never taken out (`not_responses_delivered`). `NetClient::request` registers its
handler before it posts.

`responses_delivered` is about all runs in which the lookup of an answer does not fall between the
push and the insertion of its call, and no id is drawn while it is in use (`DbProxy.SavedFirst`).
There every accepted and answered request of a connected user has one response, made from its own
header and posted to this user, and its entry is gone.

The invariant says for each call what its stage allows (`DbProxy.Fits`), for each entry that the
call which saved it waits for its answer (`DbProxy.Saved`), and that two calls that use an id at the
same time are the same (`Invariant.distinct`). Steps change one call and what belongs to it
(`Invariant.of_change`).
-/

set_option autoImplicit false
set_option relaxedAutoImplicit false

namespace TszyUlt.Lygc

open Lib Zbf

/-- The entry that a call saves. -/
def DbCall.entry (call : DbCall) (tag : ℕ) : PenddingReq := ⟨call.user, call.reqHeader, tag⟩

section Stages

variable {call : DbCall}

theorem DbCall.waiting_iff :
    call.waiting = true ↔ call.request = .queued ∨ call.request = .working := by
  rw [waiting, Bool.or_eq_true, decide_eq_true_iff, decide_eq_true_iff]

theorem DbCall.waiting_of_queued (hqueued : call.request = .queued) : call.waiting = true :=
  waiting_iff.mpr (Or.inl hqueued)

theorem DbCall.waiting_of_working (hworking : call.request = .working) : call.waiting = true :=
  waiting_iff.mpr (Or.inr hworking)

theorem DbCall.not_answered_of_waiting (hwaiting : call.waiting = true) (respData : Bytes) :
    call.request ≠ .answered respData := by
  intro hanswered
  rcases waiting_iff.mp hwaiting with h | h <;> exact absurd (h.symm.trans hanswered) nofun

/-- The stages after the lookup do not use the id. -/
theorem DbCall.not_waiting_of_taken {pendReq : PenddingReq} {respData : Bytes}
    (htaken : call.request = .found pendReq respData ∨ call.request = .posting pendReq respData) :
    call.waiting = false := by
  rcases htaken with h | h <;> rw [waiting, h] <;> rfl

theorem DbCall.active_of_waiting (hwaiting : call.waiting = true) : call.active = true := by
  rw [active, hwaiting, Bool.or_true]

theorem DbCall.active_of_pushing (hpushing : call.submit = .pushing) : call.active = true := by
  rw [active, hpushing]
  rfl

theorem DbCall.not_active (haccepted : call.submit = .accepted) (hwaiting : call.waiting = false) :
    ¬ call.active = true := by
  rw [active, haccepted, hwaiting]
  exact nofun

end Stages

namespace DbProxy

/-! ### The invariant -/

/-- The entry under an id is the one that its call saved, and the call waits for its answer. -/
def Saved (proxy : DbProxy) (slot : Fin maxDbSlots) (dbReqId : RequestId) (pendReq : PenddingReq) :
    Prop :=
  ∃ call, proxy.calls[pendReq.saver]? = some call ∧ call.slot = slot ∧ call.dbReqId = dbReqId ∧
    call.submit = .accepted ∧ call.waiting = true ∧ pendReq = call.entry pendReq.saver

/-- What the stage of a call says of the entries and the responses. -/
structure Fits (order : ByteOrder) (origin : BitVec 16) (proxy : DbProxy) (tag : ℕ)
    (call : DbCall) : Prop where
  pushing : call.submit = .pushing → call.request = .unsent
  saving : call.submit = .saving → call.waiting = true
  entry : call.submit = .accepted → call.waiting = true → proxy.connected call.user = true →
    proxy.view call.slot call.dbReqId = some (call.entry tag)
  taken : ∀ pendReq respData,
    call.request = .found pendReq respData ∨ call.request = .posting pendReq respData →
    call.submit = .accepted ∧ pendReq = call.entry tag
  unposted : (∀ respData, call.request ≠ .answered respData) → proxy.postsOf tag = []
  posted : ∀ respData, call.submit = .accepted → call.request = .answered respData →
    proxy.connected call.user = true →
    proxy.postsOf tag = [⟨tag, call.user, createResponse order origin call.reqHeader respData⟩]

/-- The queues hold the requests that are queued, each once. -/
def QueuesAgree (proxy : DbProxy) : Prop :=
  ∀ slot, (proxy.queues slot).items.Nodup ∧ ∀ tag ∈ (proxy.queues slot).items,
    ∃ call, proxy.calls[tag]? = some call ∧ call.slot = slot ∧ call.request = .queued

/-- What holds in every state of a run whose answers come after the entries are saved. -/
structure Invariant (order : ByteOrder) (origin : BitVec 16) (proxy : DbProxy) : Prop where
  queues : proxy.QueuesAgree
  saved : ∀ slot dbReqId pendReq, proxy.view slot dbReqId = some pendReq →
    proxy.Saved slot dbReqId pendReq
  distinct : ∀ (tag other : ℕ) (call call' : DbCall), proxy.calls[tag]? = some call →
    proxy.calls[other]? = some call' → call.active = true → call'.active = true →
    call.slot = call'.slot → call.dbReqId = call'.dbReqId → tag = other
  fits : ∀ (tag : ℕ) (call : DbCall), proxy.calls[tag]? = some call →
    proxy.Fits order origin tag call
  alive : ∀ user, proxy.connected user = true → proxy.alive user = true
  posts : ∀ post ∈ proxy.posts, post.saver < proxy.calls.length

variable {order : ByteOrder} {origin : BitVec 16} {proxy next : DbProxy}

theorem invariant_new : new.Invariant order origin where
  queues := fun _ ↦ ⟨List.nodup_nil, fun _ hmem ↦ absurd hmem List.not_mem_nil⟩
  saved := fun _ _ _ hview ↦ by cases hview
  distinct := fun _ _ _ _ hcall ↦ by cases hcall
  fits := fun _ _ hcall ↦ by cases hcall
  alive := fun _ _ ↦ rfl
  posts := fun _ hmem ↦ absurd hmem List.not_mem_nil

/-- An entry that a call saved is under its id, and the call waits for its answer. -/
theorem Invariant.saved_by (hinv : proxy.Invariant order origin) {tag : ℕ} {call : DbCall}
    (hcall : proxy.calls[tag]? = some call) {slot : Fin maxDbSlots} {dbReqId : RequestId}
    {pendReq : PenddingReq} (hentry : proxy.view slot dbReqId = some pendReq)
    (hsaver : pendReq.saver = tag) :
    call.slot = slot ∧ call.dbReqId = dbReqId ∧ call.submit = .accepted ∧ call.waiting = true ∧
      pendReq = call.entry tag := by
  obtain ⟨saver, hfound, hrest⟩ := hinv.saved slot dbReqId pendReq hentry
  rw [hsaver] at hfound hrest
  obtain rfl : call = saver := Option.some.inj (hcall.symm.trans hfound)
  exact hrest

/-- An entry under the id of a call that uses it was saved by this call. -/
theorem Invariant.entry_of_active (hinv : proxy.Invariant order origin) {tag : ℕ} {call : DbCall}
    (hcall : proxy.calls[tag]? = some call) (hactive : call.active = true) {pendReq : PenddingReq}
    (hentry : proxy.view call.slot call.dbReqId = some pendReq) :
    call.submit = .accepted ∧ pendReq = call.entry tag := by
  obtain ⟨saver, hsaver, hslot, hid, -, hwaits, -⟩ := hinv.saved _ _ _ hentry
  have hsame : pendReq.saver = tag :=
    hinv.distinct _ _ _ _ hsaver hcall (DbCall.active_of_waiting hwaits) hactive hslot hid
  obtain ⟨-, -, haccepted, -, hpend⟩ := hinv.saved_by hcall hentry hsame
  exact ⟨haccepted, hpend⟩

/-! ### A step changes one call -/

/-- Assumes: a step that changes the record of one call, keeping its slot and id, and otherwise the
entry under this id while it is in use, the responses made from the entry of this call, and the
queues. What is to be shown is about this call only. -/
theorem Invariant.of_change (hinv : proxy.Invariant order origin) {tag : ℕ} {call call' : DbCall}
    (hcall : proxy.calls[tag]? = some call) (hcalls : next.calls = proxy.calls.set tag call')
    (hslot : call'.slot = call.slot) (hid : call'.dbReqId = call.dbReqId)
    (hactive : call'.active = true → call.active = true)
    (hconnected : next.connected = proxy.connected) (halive : next.alive = proxy.alive)
    (hqueues : next.QueuesAgree)
    (hview : ∀ slot dbReqId, next.view slot dbReqId = proxy.view slot dbReqId ∨
      slot = call.slot ∧ dbReqId = call.dbReqId ∧ call.active = true)
    (hsaved : ∀ slot dbReqId pendReq, next.view slot dbReqId = some pendReq →
      pendReq.saver = tag ∧ next.Saved slot dbReqId pendReq ∨
        pendReq.saver ≠ tag ∧ proxy.view slot dbReqId = some pendReq)
    (hposts : ∀ other ≠ tag, next.postsOf other = proxy.postsOf other)
    (hsavers : ∀ post ∈ next.posts, post.saver = tag ∨ post ∈ proxy.posts)
    (hfits : next.Fits order origin tag call') : next.Invariant order origin where
  queues := hqueues
  saved := by
    intro slot dbReqId pendReq hentry
    rcases hsaved slot dbReqId pendReq hentry with ⟨-, hown⟩ | ⟨hne, hold⟩
    · exact hown
    · obtain ⟨saver, hsaver, hrest⟩ := hinv.saved slot dbReqId pendReq hold
      refine ⟨saver, ?_, hrest⟩
      rw [hcalls, List.getElem?_set_ne (Ne.symm hne), hsaver]
  distinct := by
    intro first second callA callB hfirst hsecond hactiveA hactiveB hslots hids
    rw [hcalls] at hfirst hsecond
    rcases getElem?_set_cases hfirst with ⟨rfl, rfl⟩ | ⟨-, holdA⟩
    · rcases getElem?_set_cases hsecond with ⟨rfl, -⟩ | ⟨-, holdB⟩
      · rfl
      · exact hinv.distinct _ _ _ _ hcall holdB (hactive hactiveA) hactiveB
          (hslot.symm.trans hslots) (hid.symm.trans hids)
    · rcases getElem?_set_cases hsecond with ⟨rfl, rfl⟩ | ⟨-, holdB⟩
      · exact hinv.distinct _ _ _ _ holdA hcall hactiveA (hactive hactiveB) (hslots.trans hslot)
          (hids.trans hid)
      · exact hinv.distinct _ _ _ _ holdA holdB hactiveA hactiveB hslots hids
  fits := by
    intro other found hfound
    rw [hcalls] at hfound
    rcases getElem?_set_cases hfound with ⟨rfl, rfl⟩ | ⟨hne, hfound⟩
    · exact hfits
    · have hother := hinv.fits other found hfound
      refine ⟨hother.pushing, hother.saving, ?_, hother.taken, ?_, ?_⟩
      · intro haccepted hwaiting huser
        rw [hconnected] at huser
        have hentry := hother.entry haccepted hwaiting huser
        rcases hview found.slot found.dbReqId with hsame | ⟨hslots, hids, hused⟩
        · rw [hsame, hentry]
        · -- The id is in use by the call that changes, so the two calls are the same.
          exact absurd (hinv.distinct _ _ _ _ hfound hcall (DbCall.active_of_waiting hwaiting) hused
            hslots hids) hne
      · rw [hposts other hne]
        exact hother.unposted
      · rw [hposts other hne, hconnected]
        exact hother.posted
  alive := by
    rw [hconnected, halive]
    exact hinv.alive
  posts := by
    intro post hpost
    rw [hcalls, List.length_set]
    rcases hsavers post hpost with hown | hold
    · rw [hown]
      exact lt_length_of_getElem? hcall
    · exact hinv.posts post hold

/-! ### The queues -/

/-- The record of a request changes; if it is queued, it remains so. -/
theorem QueuesAgree.setCall (hqueues : proxy.QueuesAgree) {tag : ℕ} {call call' : DbCall}
    (hcall : proxy.calls[tag]? = some call) (hsame : next.queues = proxy.queues)
    (hcalls : next.calls = proxy.calls.set tag call')
    (hkeeps : call.request = .queued → call'.slot = call.slot ∧ call'.request = .queued) :
    next.QueuesAgree := by
  intro slot
  rw [hsame, hcalls]
  refine ⟨(hqueues slot).1, fun other hother ↦ ?_⟩
  obtain ⟨found, hfound, hslot, hqueued⟩ := (hqueues slot).2 other hother
  by_cases heq : other = tag
  · subst heq
    obtain rfl : call = found := Option.some.inj (hcall.symm.trans hfound)
    obtain ⟨hslot', hqueued'⟩ := hkeeps hqueued
    exact ⟨call', getElem?_set_of_some hcall, hslot'.trans hslot, hqueued'⟩
  · exact ⟨found, by rw [List.getElem?_set_ne (Ne.symm heq), hfound], hslot, hqueued⟩

theorem QueuesAgree.setCall_of_ne (hqueues : proxy.QueuesAgree) {tag : ℕ} {call call' : DbCall}
    (hcall : proxy.calls[tag]? = some call) (hrequest : call.request ≠ .queued)
    (hsame : next.queues = proxy.queues) (hcalls : next.calls = proxy.calls.set tag call') :
    next.QueuesAgree :=
  hqueues.setCall hcall hsame hcalls fun hqueued ↦ absurd hqueued hrequest

/-- A request that was not queued enters the queue of its slot, in front or at the end. -/
theorem QueuesAgree.enqueue (hqueues : proxy.QueuesAgree) {tag : ℕ} {call call' : DbCall}
    (hcall : proxy.calls[tag]? = some call) (hrequest : call.request ≠ .queued)
    {queue : SafeQueue ℕ} (hitems : queue.items.Perm (tag :: (proxy.queues call.slot).items))
    (hslot : call'.slot = call.slot) (hqueued : call'.request = .queued) :
    ((proxy.setQueue call.slot queue).setCall tag call').QueuesAgree := by
  have hrest : (proxy.setCall tag call').QueuesAgree :=
    hqueues.setCall_of_ne hcall hrequest rfl rfl
  have hnew : ∀ slot, tag ∉ (proxy.queues slot).items := by
    intro slot hmem
    obtain ⟨found, hfound, -, hold⟩ := (hqueues slot).2 tag hmem
    obtain rfl : call = found := Option.some.inj (hcall.symm.trans hfound)
    exact hrequest hold
  intro slot
  by_cases heq : slot = call.slot
  · subst heq
    show (Function.update proxy.queues call.slot queue call.slot).items.Nodup ∧
      ∀ other ∈ (Function.update proxy.queues call.slot queue call.slot).items, _
    rw [Function.update_self]
    refine ⟨hitems.nodup_iff.mpr (List.nodup_cons.mpr ⟨hnew _, (hqueues _).1⟩),
      fun other hother ↦ ?_⟩
    rcases List.mem_cons.mp (hitems.mem_iff.mp hother) with rfl | hold
    · exact ⟨call', getElem?_set_of_some hcall, hslot, hqueued⟩
    · exact (hrest call.slot).2 other hold
  · show (Function.update proxy.queues call.slot queue slot).items.Nodup ∧
      ∀ other ∈ (Function.update proxy.queues call.slot queue slot).items, _
    rw [Function.update_of_ne heq]
    exact hrest slot

/-- The request in front of a queue is taken out. -/
theorem QueuesAgree.dequeue (hqueues : proxy.QueuesAgree) {slot : Fin maxDbSlots} {tag : ℕ}
    {queue : SafeQueue ℕ} (hitems : (proxy.queues slot).items = tag :: queue.items)
    (call' : DbCall) : ((proxy.setQueue slot queue).setCall tag call').QueuesAgree := by
  have hkept : ∀ other ≠ tag, ∀ found, proxy.calls[other]? = some found →
      (proxy.calls.set tag call')[other]? = some found := by
    intro other hne found hfound
    rw [List.getElem?_set_ne (Ne.symm hne), hfound]
  obtain ⟨hnodup, hmem⟩ := hqueues slot
  rw [hitems, List.nodup_cons] at hnodup
  intro other
  by_cases heq : other = slot
  · subst heq
    show (Function.update proxy.queues other queue other).items.Nodup ∧
      ∀ found ∈ (Function.update proxy.queues other queue other).items, _
    rw [Function.update_self]
    refine ⟨hnodup.2, fun found hfound ↦ ?_⟩
    obtain ⟨call, hcall, hrest⟩ := hmem found (by rw [hitems]; exact List.mem_cons_of_mem _ hfound)
    exact ⟨call, hkept found (fun h ↦ hnodup.1 (h ▸ hfound)) call hcall, hrest⟩
  · show (Function.update proxy.queues slot queue other).items.Nodup ∧
      ∀ found ∈ (Function.update proxy.queues slot queue other).items, _
    rw [Function.update_of_ne heq]
    refine ⟨(hqueues other).1, fun found hfound ↦ ?_⟩
    obtain ⟨call, hcall, hslot, hqueued⟩ := (hqueues other).2 found hfound
    -- A request is in the queue of its own slot only.
    have hne : found ≠ tag := by
      rintro rfl
      obtain ⟨front, hfront, hslot', -⟩ := hmem found (by rw [hitems]; exact List.mem_cons_self)
      obtain rfl : call = front := Option.some.inj (hcall.symm.trans hfront)
      exact heq (hslot.symm.trans hslot')
    exact ⟨call, hkept found hne call hcall, hslot, hqueued⟩

/-! ### The shards -/

theorem view_setShards_self (slot : Fin maxDbSlots)
    (shards : Sharded (Fin dbShardCount) RequestId PenddingReq) :
    (proxy.setShards slot shards).view slot = Sharded.view dbShardIdx shards := by
  show Sharded.view dbShardIdx (Function.update proxy.poolCtx slot shards slot) = _
  rw [Function.update_self]

theorem view_setShards_of_ne {slot other : Fin maxDbSlots} (hne : other ≠ slot)
    (shards : Sharded (Fin dbShardCount) RequestId PenddingReq) :
    (proxy.setShards slot shards).view other = proxy.view other := by
  show Sharded.view dbShardIdx (Function.update proxy.poolCtx slot shards other) = _
  rw [Function.update_of_ne hne]
  rfl

/-- The entry of one id in one slot has changed. -/
theorem view_cases {slot : Fin maxDbSlots} {dbReqId : RequestId} {value : Option PenddingReq}
    (hself : next.view slot = Function.update (proxy.view slot) dbReqId value)
    (hothers : ∀ other ≠ slot, next.view other = proxy.view other) (slot' : Fin maxDbSlots)
    (dbReqId' : RequestId) : next.view slot' dbReqId' = proxy.view slot' dbReqId' ∨
      slot' = slot ∧ dbReqId' = dbReqId := by
  by_cases hslot : slot' = slot
  · subst hslot
    by_cases hid : dbReqId' = dbReqId
    · exact Or.inr ⟨rfl, hid⟩
    · rw [hself, Function.update_of_ne hid]
      exact Or.inl rfl
  · exact Or.inl (congrFun (hothers slot' hslot) dbReqId')

/-! ### The steps of a call -/

/-- A step that changes the record of one call and the queues. -/
theorem Invariant.setCall (hinv : proxy.Invariant order origin) {tag : ℕ} {call : DbCall}
    (hcall : proxy.calls[tag]? = some call) {call' : DbCall}
    {queues : Fin maxDbSlots → SafeQueue ℕ}
    (hqueues : ({ proxy with queues := queues, calls := proxy.calls.set tag call' } :
      DbProxy).QueuesAgree)
    (hslot : call'.slot = call.slot) (hid : call'.dbReqId = call.dbReqId)
    (hactive : call'.active = true → call.active = true)
    (hkeeps : call.submit = .accepted → call.waiting = true →
      call'.submit = .accepted ∧ call'.waiting = true ∧ call'.entry tag = call.entry tag)
    (hfits : proxy.Fits order origin tag call') :
    ({ proxy with queues := queues, calls := proxy.calls.set tag call' } :
      DbProxy).Invariant order origin := by
  refine hinv.of_change hcall rfl hslot hid hactive rfl rfl hqueues (fun _ _ ↦ Or.inl rfl) ?_
    (fun _ _ ↦ rfl) (fun _ hpost ↦ Or.inr hpost)
    ⟨hfits.pushing, hfits.saving, hfits.entry, hfits.taken, hfits.unposted, hfits.posted⟩
  intro slot dbReqId pendReq hentry
  by_cases hsaver : pendReq.saver = tag
  · obtain ⟨hs, hd, haccepted, hwaiting, hpend⟩ := hinv.saved_by hcall hentry hsaver
    obtain ⟨haccepted', hwaiting', hsame⟩ := hkeeps haccepted hwaiting
    refine Or.inl ⟨hsaver, call', ?_, hslot.trans hs, hid.trans hd, haccepted', hwaiting', ?_⟩
    · rw [hsaver]
      exact getElem?_set_of_some hcall
    · rw [hsaver, hsame, hpend]
  · exact Or.inr ⟨hsaver, hentry⟩

/-- A call that is not accepted has no entry and no response. -/
theorem fits_of_not_accepted {tag : ℕ} {call : DbCall} (haccepted : call.submit ≠ .accepted)
    (hpushing : call.submit = .pushing → call.request = .unsent)
    (hsaving : call.submit = .saving → call.waiting = true)
    (htaken : ∀ pendReq respData, call.request ≠ .found pendReq respData ∧
      call.request ≠ .posting pendReq respData)
    (hunposted : (∀ respData, call.request ≠ .answered respData) → proxy.postsOf tag = []) :
    proxy.Fits order origin tag call where
  pushing := hpushing
  saving := hsaving
  entry := fun h ↦ absurd h haccepted
  taken := fun pendReq respData h ↦ by
    rcases h with h | h
    · exact absurd h (htaken pendReq respData).1
    · exact absurd h (htaken pendReq respData).2
  unposted := hunposted
  posted := fun _ h ↦ absurd h haccepted

/-- A call whose entry is taken out has no response yet. -/
theorem fits_of_taken {tag : ℕ} {call : DbCall} (haccepted : call.submit = .accepted)
    {respData : Bytes} (htaken : call.request = .found (call.entry tag) respData ∨
      call.request = .posting (call.entry tag) respData)
    (hunposted : proxy.postsOf tag = []) : proxy.Fits order origin tag call where
  pushing := fun h ↦ absurd (haccepted.symm.trans h) nofun
  saving := fun h ↦ absurd (haccepted.symm.trans h) nofun
  entry := fun _ h ↦ absurd ((DbCall.not_waiting_of_taken htaken).symm.trans h) nofun
  taken := fun pendReq data h ↦ by
    refine ⟨haccepted, ?_⟩
    rcases htaken with htaken | htaken <;> rw [htaken] at h
    · obtain ⟨rfl, -⟩ := RequestAt.found.inj (h.resolve_right nofun)
      rfl
    · obtain ⟨rfl, -⟩ := RequestAt.posting.inj (h.resolve_left nofun)
      rfl
  unposted := fun _ ↦ hunposted
  posted := fun data _ h ↦ by
    rcases htaken with htaken | htaken <;> exact absurd (htaken.symm.trans h) nofun

/-- A call that is answered: it has its response if it is accepted and the user is connected. -/
theorem fits_of_answered {tag : ℕ} {call : DbCall} (hpushing : call.submit ≠ .pushing)
    (hsaving : call.submit ≠ .saving) {respData : Bytes}
    (hanswered : call.request = .answered respData)
    (hposted : call.submit = .accepted → proxy.connected call.user = true →
      proxy.postsOf tag = [⟨tag, call.user, createResponse order origin call.reqHeader respData⟩]) :
    proxy.Fits order origin tag call where
  pushing := fun h ↦ absurd h hpushing
  saving := fun h ↦ absurd h hsaving
  entry := fun _ h ↦ absurd hanswered (DbCall.not_answered_of_waiting h respData)
  taken := fun pendReq data h ↦ by
    rw [hanswered] at h
    rcases h with h | h <;> cases h
  unposted := fun h ↦ absurd hanswered (h respData)
  posted := fun data haccepted h hconnected ↦ by
    obtain rfl : respData = data := RequestAt.answered.inj (hanswered.symm.trans h)
    exact hposted haccepted hconnected

/-- The pool took the request. -/
theorem Invariant.push_accepted (hinv : proxy.Invariant order origin) {tag : ℕ} {call : DbCall}
    (hcall : proxy.calls[tag]? = some call) (hsubmit : call.submit = .pushing)
    {queue : SafeQueue ℕ}
    (hpush : (proxy.queues call.slot).push maxPendingReq tag = (true, queue)) {submit : SubmitAt}
    (hnext : submit = .busy ∨ submit = .saving) :
    ((proxy.setQueue call.slot queue).setCall tag
      { call with submit := submit, request := .queued }).Invariant order origin := by
  have hunsent : call.request = .unsent := (hinv.fits tag call hcall).pushing hsubmit
  have hactive := DbCall.active_of_pushing hsubmit
  have hperm : queue.items.Perm (tag :: (proxy.queues call.slot).items) := by
    rw [SafeQueue.push_eq_true hpush]
    exact List.perm_append_comm
  have hnone : proxy.postsOf tag = [] :=
    (hinv.fits tag call hcall).unposted (fun respData h ↦ by rw [hunsent] at h; cases h)
  refine hinv.setCall hcall
    (hinv.queues.enqueue hcall (by rw [hunsent]; decide) hperm rfl rfl) rfl rfl (fun _ ↦ hactive)
    (fun haccepted ↦ ?_) (fits_of_not_accepted ?_ ?_ (fun _ ↦ rfl) ?_ (fun _ ↦ hnone))
  · rw [hsubmit] at haccepted
    cases haccepted
  · rcases hnext with rfl | rfl <;> exact nofun
  · rcases hnext with rfl | rfl <;> exact nofun
  · exact fun _ _ ↦ ⟨nofun, nofun⟩

/-- The pool is busy. -/
theorem Invariant.push_refused (hinv : proxy.Invariant order origin) {tag : ℕ} {call : DbCall}
    (hcall : proxy.calls[tag]? = some call) (hsubmit : call.submit = .pushing) :
    (proxy.setCall tag { call with submit := .busy }).Invariant order origin := by
  have hfits := hinv.fits tag call hcall
  have hunsent : call.request = .unsent := hfits.pushing hsubmit
  have hactive := DbCall.active_of_pushing hsubmit
  refine hinv.setCall hcall (hinv.queues.setCall hcall rfl rfl fun hqueued ↦ ⟨rfl, hqueued⟩) rfl rfl
    (fun _ ↦ hactive) (fun haccepted ↦ ?_)
    (fits_of_not_accepted nofun nofun nofun ?_ hfits.unposted)
  · rw [hsubmit] at haccepted
    cases haccepted
  · intro pendReq respData
    show call.request ≠ _ ∧ call.request ≠ _
    rw [hunsent]
    exact ⟨nofun, nofun⟩

/-- A call that waits for its answer goes on waiting: it keeps its entry. -/
theorem Fits.of_waiting {tag : ℕ} {call call' : DbCall} (hfits : proxy.Fits order origin tag call)
    (hwaiting : call.waiting = true) (hwaiting' : call'.waiting = true)
    (hsubmit : call'.submit = call.submit) (hslot : call'.slot = call.slot)
    (hid : call'.dbReqId = call.dbReqId) (huser : call'.user = call.user)
    (hentry : call'.entry tag = call.entry tag) : proxy.Fits order origin tag call' := by
  refine ⟨?_, fun _ ↦ hwaiting', ?_, ?_, ?_, ?_⟩
  · intro hpushing
    have hunsent := hfits.pushing (hsubmit.symm.trans hpushing)
    rcases DbCall.waiting_iff.mp hwaiting with h | h <;> exact absurd (hunsent.symm.trans h) nofun
  · intro haccepted _ hconnected
    rw [huser] at hconnected
    rw [hslot, hid, hentry]
    exact hfits.entry (hsubmit.symm.trans haccepted) hwaiting hconnected
  · intro pendReq respData htaken
    exact absurd ((DbCall.not_waiting_of_taken htaken).symm.trans hwaiting') nofun
  · exact fun _ ↦ hfits.unposted (DbCall.not_answered_of_waiting hwaiting)
  · exact fun respData _ hanswered ↦
      absurd hanswered (DbCall.not_answered_of_waiting hwaiting' respData)

/-- A worker takes the request in front of a queue. -/
theorem Invariant.pop (hinv : proxy.Invariant order origin) {slot : Fin maxDbSlots} {tag : ℕ}
    {queue : SafeQueue ℕ} (hpop : (proxy.queues slot).popTimeout = (.success tag, queue))
    {call : DbCall} (hcall : proxy.calls[tag]? = some call) :
    ((proxy.setQueue slot queue).setCall tag { call with request := .working }).Invariant
      order origin := by
  have hitems := SafeQueue.popTimeout_eq_success hpop
  obtain ⟨found, hfound, -, hqueued⟩ :=
    (hinv.queues slot).2 tag (by rw [hitems]; exact List.mem_cons_self)
  obtain rfl : call = found := Option.some.inj (hcall.symm.trans hfound)
  have hwaiting := DbCall.waiting_of_queued hqueued
  exact hinv.setCall hcall (hinv.queues.dequeue hitems _) rfl rfl
    (fun _ ↦ DbCall.active_of_waiting hwaiting) (fun haccepted _ ↦ ⟨haccepted, rfl, rfl⟩)
    ((hinv.fits tag call hcall).of_waiting hwaiting rfl rfl rfl rfl rfl rfl)

/-- A worker puts the request back. -/
theorem Invariant.requeue (hinv : proxy.Invariant order origin) {tag : ℕ} {call : DbCall}
    (hcall : proxy.calls[tag]? = some call) (hworking : call.request = .working) (retries : ℕ) :
    ((proxy.setQueue call.slot ((proxy.queues call.slot).requeue tag)).setCall tag
      { call with request := .queued, retryTimes := retries }).Invariant order origin := by
  have hwaiting := DbCall.waiting_of_working hworking
  exact hinv.setCall hcall
    (hinv.queues.enqueue hcall (by rw [hworking]; decide) (List.Perm.refl _) rfl rfl) rfl rfl
    (fun _ ↦ DbCall.active_of_waiting hwaiting) (fun haccepted _ ↦ ⟨haccepted, rfl, rfl⟩)
    ((hinv.fits tag call hcall).of_waiting hwaiting rfl rfl rfl rfl rfl rfl)

/-- `submit` inserts the entry of a call whose request has not been answered. -/
theorem Invariant.savePenddingReq (hinv : proxy.Invariant order origin) {tag : ℕ} {call : DbCall}
    (hcall : proxy.calls[tag]? = some call) (hsubmit : call.submit = .saving) :
    ((proxy.setShards call.slot (Sharded.insertNew dbShardIdx (proxy.poolCtx call.slot) call.dbReqId
      (call.entry tag))).setCall tag { call with submit := .accepted }).Invariant order origin := by
  have hfits := hinv.fits tag call hcall
  have hwaiting : call.waiting = true := hfits.saving hsubmit
  have hactive := DbCall.active_of_waiting hwaiting
  -- An entry under this id would be the one of this very call, which has not saved it.
  have hnone : proxy.view call.slot call.dbReqId = none := by
    rw [Option.eq_none_iff_forall_ne_some]
    intro pendReq hentry
    have haccepted := (hinv.entry_of_active hcall hactive hentry).1
    exact absurd (hsubmit.symm.trans haccepted) nofun
  set next := (proxy.setShards call.slot (Sharded.insertNew dbShardIdx (proxy.poolCtx call.slot)
    call.dbReqId (call.entry tag))).setCall tag { call with submit := .accepted } with hnext
  have hview : next.view call.slot =
      Function.update (proxy.view call.slot) call.dbReqId (some (call.entry tag)) := by
    refine (view_setShards_self call.slot _).trans ?_
    rw [Sharded.view_insertNew]
    exact Table.insertNew_of_none hnone _
  have hothers := view_cases hview fun slot hne ↦ view_setShards_of_ne hne _
  have hown : next.view call.slot call.dbReqId = some (call.entry tag) := by
    rw [hview, Function.update_self]
  have hqueues : next.QueuesAgree :=
    hinv.queues.setCall hcall rfl rfl fun hqueued ↦ ⟨rfl, hqueued⟩
  refine hinv.of_change hcall rfl rfl rfl (fun _ ↦ hactive) rfl rfl hqueues ?_ ?_ (fun _ _ ↦ rfl)
    (fun _ hpost ↦ Or.inr hpost) ?_
  · intro slot dbReqId
    exact (hothers slot dbReqId).imp_right fun hkey ↦ ⟨hkey.1, hkey.2, hactive⟩
  · intro slot dbReqId pendReq hentry
    rcases hothers slot dbReqId with hsame | ⟨rfl, rfl⟩
    · rw [hsame] at hentry
      by_cases hsaver : pendReq.saver = tag
      · obtain ⟨-, -, haccepted, -⟩ := hinv.saved_by hcall hentry hsaver
        exact absurd (hsubmit.symm.trans haccepted) nofun
      · exact Or.inr ⟨hsaver, hentry⟩
    · obtain rfl : call.entry tag = pendReq := Option.some.inj (hown.symm.trans hentry)
      exact Or.inl ⟨rfl, _, getElem?_set_of_some hcall, rfl, rfl, rfl, hwaiting, rfl⟩
  · have hunanswered := DbCall.not_answered_of_waiting hwaiting
    refine ⟨nofun, nofun, fun _ _ _ ↦ hown, fun pendReq respData htaken ↦ ?_,
      fun _ ↦ hfits.unposted hunanswered, fun respData _ hanswered ↦ ?_⟩
    · exact absurd (hsubmit.symm.trans (hfits.taken pendReq respData htaken).1) nofun
    · exact absurd hanswered (hunanswered respData)

/-- The lookup of an answer finds nothing: the user has disconnected, or the pool was taken for
busy. -/
theorem Invariant.onResponse_none (hinv : proxy.Invariant order origin) {tag : ℕ} {call : DbCall}
    (hcall : proxy.calls[tag]? = some call) (hworking : call.request = .working)
    (hsaving : call.submit ≠ .saving) (hnone : proxy.view call.slot call.dbReqId = none)
    (respData : Bytes) :
    (proxy.setCall tag { call with request := .answered respData }).Invariant order origin := by
  have hfits := hinv.fits tag call hcall
  have hwaiting := DbCall.waiting_of_working hworking
  have hpushing : call.submit ≠ .pushing := fun h ↦
    absurd ((hfits.pushing h).symm.trans hworking) nofun
  have hdisconnected : call.submit = .accepted → proxy.connected call.user = true → False := by
    intro haccepted hconnected
    rw [hfits.entry haccepted hwaiting hconnected] at hnone
    cases hnone
  refine hinv.of_change hcall rfl rfl rfl (fun _ ↦ DbCall.active_of_waiting hwaiting) rfl rfl
    (hinv.queues.setCall_of_ne hcall (by rw [hworking]; exact nofun) rfl rfl)
    (fun _ _ ↦ Or.inl rfl) ?_ (fun _ _ ↦ rfl) (fun _ hpost ↦ Or.inr hpost) ?_
  · intro slot dbReqId pendReq hentry
    refine Or.inr ⟨fun hsaver ↦ ?_, hentry⟩
    obtain ⟨hslot, hid, -⟩ := hinv.saved_by hcall hentry hsaver
    rw [hslot, hid] at hnone
    exact absurd (hnone.symm.trans hentry) nofun
  · exact fits_of_answered hpushing hsaving rfl fun haccepted hconnected ↦
      (hdisconnected haccepted hconnected).elim

/-- The lookup of an answer takes the entry of the call out. -/
theorem Invariant.onResponse_some (hinv : proxy.Invariant order origin) {tag : ℕ} {call : DbCall}
    (hcall : proxy.calls[tag]? = some call) (hworking : call.request = .working)
    {pendReq : PenddingReq} (hentry : proxy.view call.slot call.dbReqId = some pendReq)
    (respData : Bytes) :
    ((proxy.setShards call.slot (Sharded.erase dbShardIdx (proxy.poolCtx call.slot)
      call.dbReqId)).setCall tag { call with request := .found pendReq respData }).Invariant
      order origin := by
  have hfits := hinv.fits tag call hcall
  have hwaiting := DbCall.waiting_of_working hworking
  have hactive := DbCall.active_of_waiting hwaiting
  obtain ⟨haccepted, rfl⟩ := hinv.entry_of_active hcall hactive hentry
  set next := (proxy.setShards call.slot (Sharded.erase dbShardIdx (proxy.poolCtx call.slot)
    call.dbReqId)).setCall tag { call with request := .found (call.entry tag) respData } with hnext
  have hview : next.view call.slot = Function.update (proxy.view call.slot) call.dbReqId none :=
    (view_setShards_self call.slot _).trans (Sharded.view_erase _ _ _)
  have hothers := view_cases hview fun slot hne ↦ view_setShards_of_ne hne _
  refine hinv.of_change hcall rfl rfl rfl (fun _ ↦ hactive) rfl rfl
    (hinv.queues.setCall_of_ne hcall (by rw [hworking]; exact nofun) rfl rfl)
    ?_ ?_ (fun _ _ ↦ rfl) (fun _ hpost ↦ Or.inr hpost) ?_
  · intro slot dbReqId
    exact (hothers slot dbReqId).imp_right fun hkey ↦ ⟨hkey.1, hkey.2, hactive⟩
  · intro slot dbReqId other hother
    rcases hothers slot dbReqId with hsame | ⟨rfl, rfl⟩
    · rw [hsame] at hother
      refine Or.inr ⟨fun hsaver ↦ ?_, hother⟩
      -- The call has saved one entry, the one that is taken out.
      obtain ⟨hslot, hid, -⟩ := hinv.saved_by hcall hother hsaver
      rw [← hslot, ← hid, hview, Function.update_self, hentry] at hsame
      cases hsame
    · rw [hview, Function.update_self] at hother
      cases hother
  · exact fits_of_taken haccepted (Or.inl rfl)
      (hfits.unposted (DbCall.not_answered_of_waiting hwaiting))

/-- What comes after the lookup, when the entry is taken out. -/
theorem Invariant.setRequest (hinv : proxy.Invariant order origin) {tag : ℕ} {call : DbCall}
    (hcall : proxy.calls[tag]? = some call) {pendReq : PenddingReq} {respData : Bytes}
    (hfound : call.request = .found pendReq respData) {request : RequestAt}
    (hnotWaiting : { call with request := request }.waiting = false)
    (hfits : proxy.Fits order origin tag { call with request := request }) :
    (proxy.setCall tag { call with request := request }).Invariant order origin := by
  obtain ⟨haccepted, -⟩ := (hinv.fits tag call hcall).taken pendReq respData (Or.inl hfound)
  have hwaiting := DbCall.not_waiting_of_taken (Or.inl hfound)
  exact hinv.setCall hcall
    (hinv.queues.setCall_of_ne hcall (by rw [hfound]; exact nofun) rfl rfl) rfl rfl
    (fun h ↦ absurd h (DbCall.not_active haccepted hnotWaiting))
    (fun _ h ↦ absurd (hwaiting.symm.trans h) nofun) hfits

/-- The user of a taken entry is locked. -/
theorem Invariant.lockUser_alive (hinv : proxy.Invariant order origin) {tag : ℕ} {call : DbCall}
    (hcall : proxy.calls[tag]? = some call) {pendReq : PenddingReq} {respData : Bytes}
    (hfound : call.request = .found pendReq respData) :
    (proxy.setCall tag { call with request := .posting pendReq respData }).Invariant
      order origin := by
  have hfits := hinv.fits tag call hcall
  obtain ⟨haccepted, rfl⟩ := hfits.taken pendReq respData (Or.inl hfound)
  refine hinv.setRequest hcall hfound rfl ?_
  exact fits_of_taken haccepted (Or.inr rfl)
    (hfits.unposted fun data h ↦ absurd (hfound.symm.trans h) nofun)

/-- The user of a taken entry is gone: it was disconnected. -/
theorem Invariant.lockUser_dead (hinv : proxy.Invariant order origin) {tag : ℕ} {call : DbCall}
    (hcall : proxy.calls[tag]? = some call) {pendReq : PenddingReq} {respData : Bytes}
    (hfound : call.request = .found pendReq respData) (hdead : proxy.alive pendReq.user = false) :
    (proxy.setCall tag { call with request := .answered respData }).Invariant order origin := by
  obtain ⟨haccepted, rfl⟩ := (hinv.fits tag call hcall).taken pendReq respData (Or.inl hfound)
  refine hinv.setRequest hcall hfound rfl ?_
  refine fits_of_answered (by rw [haccepted]; exact nofun) (by rw [haccepted]; exact nofun) rfl ?_
  intro _ hconnected
  exact absurd (hdead.symm.trans (hinv.alive call.user hconnected)) nofun

/-- The response is posted. -/
theorem Invariant.post (hinv : proxy.Invariant order origin) {tag : ℕ} {call : DbCall}
    (hcall : proxy.calls[tag]? = some call) {pendReq : PenddingReq} {respData : Bytes}
    (hposting : call.request = .posting pendReq respData) :
    ({ proxy.setCall tag { call with request := .answered respData } with
      posts := proxy.posts ++ [⟨pendReq.saver, pendReq.user,
        createResponse order origin pendReq.reqHeader respData⟩] } : DbProxy).Invariant
      order origin := by
  have hfits := hinv.fits tag call hcall
  obtain ⟨haccepted, rfl⟩ := hfits.taken pendReq respData (Or.inr hposting)
  have hunposted : proxy.postsOf tag = [] :=
    hfits.unposted fun data h ↦ absurd (hposting.symm.trans h) nofun
  refine hinv.of_change hcall rfl rfl rfl (fun h ↦ absurd h (DbCall.not_active haccepted rfl)) rfl
    rfl (hinv.queues.setCall_of_ne hcall (by rw [hposting]; exact nofun) rfl rfl)
    (fun _ _ ↦ Or.inl rfl) ?_ ?_ ?_ ?_
  · intro slot dbReqId other hentry
    refine Or.inr ⟨fun hsaver ↦ ?_, hentry⟩
    obtain ⟨-, -, -, hwaits, -⟩ := hinv.saved_by hcall hentry hsaver
    exact absurd ((DbCall.not_waiting_of_taken (Or.inr hposting)).symm.trans hwaits) nofun
  · intro other hne
    have hlast : ([⟨tag, call.user, createResponse order origin call.reqHeader respData⟩] :
        List DbPost).filter (fun post ↦ post.saver = other) = [] := by
      rw [List.filter_cons_of_neg (by simpa using Ne.symm hne)]
      rfl
    exact (List.filter_append _ _).trans (by rw [DbCall.entry, hlast, List.append_nil]; rfl)
  · intro post hpost
    rcases List.mem_append.mp hpost with hold | hnew
    · exact Or.inr hold
    · rw [List.mem_singleton.mp hnew]
      exact Or.inl rfl
  · refine fits_of_answered (by rw [haccepted]; exact nofun) (by rw [haccepted]; exact nofun) rfl ?_
    intro _ _
    have hown : ([⟨tag, call.user, createResponse order origin call.reqHeader respData⟩] :
        List DbPost).filter (fun post ↦ post.saver = tag) =
        [⟨tag, call.user, createResponse order origin call.reqHeader respData⟩] := by
      rw [List.filter_cons_of_pos (by simp)]
      rfl
    refine (List.filter_append _ _).trans ?_
    rw [DbCall.entry, hown]
    exact congrArg (· ++ _) hunposted

/-! ### The steps that change no call -/

/-- A step after which fewer users are connected, and the entries of connected users are still
there. -/
theorem Invariant.of_users (hinv : proxy.Invariant order origin) (hcalls : next.calls = proxy.calls)
    (hposts : next.posts = proxy.posts)
    (hqueues : ∀ slot, (next.queues slot).items = (proxy.queues slot).items)
    (hconnected : ∀ user, next.connected user = true → proxy.connected user = true)
    (halive : ∀ user, next.connected user = true → next.alive user = true)
    (hview : ∀ slot dbReqId, next.view slot dbReqId = proxy.view slot dbReqId ∨
      next.view slot dbReqId = none ∧ ∀ pendReq, proxy.view slot dbReqId = some pendReq →
        next.connected pendReq.user = false) : next.Invariant order origin where
  queues := by
    intro slot
    rw [hqueues, hcalls]
    exact hinv.queues slot
  saved := by
    intro slot dbReqId pendReq hentry
    rcases hview slot dbReqId with hsame | ⟨hnone, -⟩
    · rw [hsame] at hentry
      obtain ⟨saver, hrest⟩ := hinv.saved _ _ _ hentry
      exact ⟨saver, by rw [hcalls]; exact hrest⟩
    · exact absurd (hnone.symm.trans hentry) nofun
  distinct := by
    rw [hcalls]
    exact hinv.distinct
  fits := by
    intro tag call hcall
    rw [hcalls] at hcall
    have hfits := hinv.fits tag call hcall
    have hsame : next.postsOf tag = proxy.postsOf tag := by rw [postsOf, postsOf, hposts]
    refine ⟨hfits.pushing, hfits.saving, ?_, hfits.taken, ?_, ?_⟩
    · intro haccepted hwaiting huser
      have hentry := hfits.entry haccepted hwaiting (hconnected _ huser)
      rcases hview call.slot call.dbReqId with hkept | ⟨-, hgone⟩
      · rw [hkept, hentry]
      · exact absurd ((hgone _ hentry).symm.trans huser) nofun
    · rw [hsame]
      exact hfits.unposted
    · intro respData haccepted hanswered huser
      rw [hsame]
      exact hfits.posted respData haccepted hanswered (hconnected _ huser)
  alive := halive
  posts := by
    rw [hposts, hcalls]
    exact hinv.posts

theorem Invariant.stop (hinv : proxy.Invariant order origin) (slot : Fin maxDbSlots) :
    (proxy.setQueue slot (proxy.queues slot).stop).Invariant order origin := by
  refine hinv.of_users rfl rfl (fun other ↦ ?_) (fun _ h ↦ h) hinv.alive fun _ _ ↦ Or.inl rfl
  show (Function.update proxy.queues slot (proxy.queues slot).stop other).items = _
  by_cases heq : other = slot
  · subst heq
    rw [Function.update_self]
    rfl
  · rw [Function.update_of_ne heq]

theorem Invariant.disconnect (hinv : proxy.Invariant order origin) (user : UserId) :
    ({ proxy with connected := Function.update proxy.connected user false } :
      DbProxy).Invariant order origin := by
  have hless : ∀ other, Function.update proxy.connected user false other = true →
      proxy.connected other = true := by
    intro other hother
    by_cases heq : other = user
    · rw [heq, Function.update_self] at hother
      cases hother
    · rwa [Function.update_of_ne heq] at hother
  exact hinv.of_users rfl rfl (fun _ ↦ rfl) hless
    (fun other hother ↦ hinv.alive other (hless other hother)) fun _ _ ↦ Or.inl rfl

/-- A sweep removes entries of users that are not connected. -/
theorem Invariant.cleanShard (hinv : proxy.Invariant order origin) {user : UserId}
    (huser : proxy.connected user = false) (slot : Fin maxDbSlots) (shard : Fin dbShardCount) :
    (proxy.setShards slot (Sharded.removeIf (proxy.poolCtx slot) shard
      (proxy.stale user))).Invariant order origin := by
  have hstale : ∀ pendReq, proxy.stale user pendReq = true →
      proxy.connected pendReq.user = false := by
    intro pendReq hpend
    rw [← Bool.not_eq_true]
    intro hconnected
    rw [stale, hinv.alive _ hconnected] at hpend
    have heq : pendReq.user = user := by simpa using hpend
    rw [heq, huser] at hconnected
    cases hconnected
  refine hinv.of_users rfl rfl (fun _ ↦ rfl) (fun _ h ↦ h) hinv.alive fun other dbReqId ↦ ?_
  by_cases heq : other = slot
  · subst heq
    have hview := Sharded.view_removeIf dbShardIdx (proxy.poolCtx other) shard (proxy.stale user)
      dbReqId
    change _ = if dbShardIdx dbReqId = shard then
      (proxy.view other dbReqId).filter fun pendReq ↦ !proxy.stale user pendReq
      else proxy.view other dbReqId at hview
    rw [view_setShards_self, hview]
    split_ifs
    · cases hentry : proxy.view other dbReqId with
      | none => exact Or.inl rfl
      | some pendReq =>
        cases htest : proxy.stale user pendReq with
        | false => exact Or.inl (by simp [htest])
        | true =>
          refine Or.inr ⟨by simp [htest], fun found hfound ↦ ?_⟩
          obtain rfl : pendReq = found := Option.some.inj hfound
          exact hstale pendReq htest
    · exact Or.inl rfl
  · exact Or.inl (congrFun (view_setShards_of_ne heq _) dbReqId)

theorem Invariant.destroyUser (hinv : proxy.Invariant order origin) {user : UserId}
    (huser : proxy.connected user = false) :
    ({ proxy with alive := Function.update proxy.alive user false } : DbProxy).Invariant
      order origin := by
  refine hinv.of_users rfl rfl (fun _ ↦ rfl) (fun _ h ↦ h) (fun other hother ↦ ?_)
    fun _ _ ↦ Or.inl rfl
  have hne : other ≠ user := by
    rintro rfl
    exact absurd (huser.symm.trans hother) nofun
  exact (Function.update_of_ne hne _ _).trans (hinv.alive other hother)

/-- A new call draws an id that is not in use. -/
theorem Invariant.submit (hinv : proxy.Invariant order origin) (slot : Fin maxDbSlots)
    (reqIds : Fin maxDbSlots → RequestId) (reqHeader : LymsgHeader) (user : UserId)
    (hfresh : ∀ call ∈ proxy.calls, call.slot = slot → call.active = true →
      call.dbReqId ≠ proxy.reqIds slot) :
    ({ proxy with
      reqIds := reqIds
      calls := proxy.calls ++
        [⟨slot, proxy.reqIds slot, reqHeader, user, .pushing, .unsent, 0⟩] } :
      DbProxy).Invariant order origin := by
  refine ⟨?_, ?_, ?_, ?_, hinv.alive, ?_⟩
  · intro other
    refine ⟨(hinv.queues other).1, fun tag htag ↦ ?_⟩
    obtain ⟨call, hcall, hrest⟩ := (hinv.queues other).2 tag htag
    exact ⟨call, getElem?_concat_of_some hcall _, hrest⟩
  · intro other dbReqId pendReq hentry
    obtain ⟨saver, hsaver, hrest⟩ := hinv.saved _ _ _ hentry
    exact ⟨saver, getElem?_concat_of_some hsaver _, hrest⟩
  · intro first second callA callB hfirst hsecond hactiveA hactiveB hslots hids
    rcases getElem?_concat_cases hfirst with holdA | ⟨rfl, rfl⟩
    · rcases getElem?_concat_cases hsecond with holdB | ⟨rfl, rfl⟩
      · exact hinv.distinct _ _ _ _ holdA holdB hactiveA hactiveB hslots hids
      · exact absurd hids (hfresh callA (List.mem_of_getElem? holdA) hslots hactiveA)
    · rcases getElem?_concat_cases hsecond with holdB | ⟨rfl, -⟩
      · exact absurd hids.symm (hfresh callB (List.mem_of_getElem? holdB) hslots.symm hactiveB)
      · rfl
  · intro tag call hcall
    rcases getElem?_concat_cases hcall with hold | ⟨rfl, rfl⟩
    · have hfits := hinv.fits tag call hold
      exact ⟨hfits.pushing, hfits.saving, hfits.entry, hfits.taken, hfits.unposted, hfits.posted⟩
    · refine fits_of_not_accepted nofun (fun _ ↦ rfl) nofun (fun _ _ ↦ ⟨nofun, nofun⟩) fun _ ↦ ?_
      refine List.filter_eq_nil_iff.mpr fun post hpost hsaver ↦ ?_
      have hlt := hinv.posts post hpost
      rw [of_decide_eq_true hsaver] at hlt
      exact lt_irrefl _ hlt
  · intro post hpost
    rw [List.length_append]
    exact lt_of_lt_of_le (hinv.posts post hpost) (Nat.le_add_right _ _)

/-! ### All runs -/

variable {pools : Fin maxDbSlots → Bool}

theorem step_invariant {action : DbAction} (hinv : proxy.Invariant order origin)
    (hfirst : proxy.SavedFirst pools action)
    (hstep : proxy.step order origin pools action = some next) : next.Invariant order origin := by
  cases step_moves hstep with
  | idle => exact hinv
  | submit slot hslot hpool reqHeader user =>
    exact hinv.submit ⟨slot.toNat, hslot⟩ _ reqHeader user (hfirst hslot hpool)
  | accept tag call hcall hsubmit queue hpush submit hnow =>
    refine hinv.push_accepted hcall hsubmit hpush ?_
    rw [hnow]
    split_ifs
    · exact .inl rfl
    · exact .inr rfl
  | refuse tag call hcall hsubmit => exact hinv.push_refused hcall hsubmit
  | savePenddingReq tag call hcall hsubmit => exact hinv.savePenddingReq hcall hsubmit
  | pop slot tag queue hpop call hcall => exact hinv.pop hpop hcall
  | requeue tag call hcall hworking => exact hinv.requeue hcall hworking _
  | answer tag call hcall hworking hnone respData =>
    exact hinv.onResponse_none hcall hworking (hfirst call hcall) hnone respData
  | take tag call hcall hworking pendReq hentry respData =>
    exact hinv.onResponse_some hcall hworking hentry respData
  | lockUser tag call hcall pendReq respData hfound => exact hinv.lockUser_alive hcall hfound
  | drop tag call hcall pendReq respData hfound hdead => exact hinv.lockUser_dead hcall hfound hdead
  | post tag call hcall pendReq respData hposting => exact hinv.post hcall hposting
  | stop slot => exact hinv.stop slot
  | disconnect user => exact hinv.disconnect user
  | cleanShard user slot shard huser => exact hinv.cleanShard huser slot shard
  | destroyUser user huser => exact hinv.destroyUser huser

theorem Invariant.delivers (hinv : proxy.Invariant order origin) : proxy.Delivers order origin := by
  intro tag call respData hcall haccepted hanswered hconnected
  refine ⟨(hinv.fits tag call hcall).posted respData haccepted hanswered hconnected, ?_⟩
  intro slot dbReqId pendReq hentry hsaver
  obtain ⟨-, -, -, hwaits, -⟩ := hinv.saved_by hcall hentry hsaver
  exact absurd hanswered (DbCall.not_answered_of_waiting hwaits respData)

/-- Assumes: a run in which the lookup of an answer never falls between the push and the insertion
of its call, and no id is drawn while it is in use. In the state it reaches every accepted and
answered request of a connected user has had its one response, and no entry of it is left. -/
theorem responses_delivered (order : ByteOrder) (origin : BitVec 16) (pools : Fin maxDbSlots → Bool)
    (actions : List DbAction) (final : DbProxy)
    (hfirst : Along (step order origin pools) (SavedFirst pools) new actions)
    (hrun : runFrom (step order origin pools) new actions = some final) :
    final.Delivers order origin :=
  (runFrom_invariant_along (Invariant order origin)
    (fun _ _ _ hstate hcondition hstep ↦ step_invariant hstate hcondition hstep) invariant_new
    hfirst hrun).delivers

/-- A request is saved before a worker answers it, and its response is posted. -/
theorem responses_delivered_saved_first :
    ∃ final, runFrom (step .little 7 fun _ ↦ true) new
        [.submit 3 ⟨1, 0, 0x23#32, 9, 0⟩ 4, .push 0, .pop 3, .savePenddingReq 0,
          .onResponse 0 [5#8], .lockUser 0, .post 0] = some final ∧
      final.posts = [⟨0, 4, createResponse .little 7 ⟨1, 0, 0x23#32, 9, 0⟩ [5#8]⟩] ∧
      final.Delivers .little 7 :=
  ⟨_, rfl, rfl, responses_delivered .little 7 (fun _ ↦ true)
    [.submit 3 ⟨1, 0, 0x23#32, 9, 0⟩ 4, .push 0, .pop 3, .savePenddingReq 0, .onResponse 0 [5#8],
      .lockUser 0, .post 0] _ (by decide) rfl⟩

/-- A worker answers between the push and the insertion: the response is lost and the entry is left
behind. -/
theorem not_responses_delivered :
    ¬ ∀ (order : ByteOrder) (origin : BitVec 16) (pools : Fin maxDbSlots → Bool)
      (actions : List DbAction) (final : DbProxy),
      runFrom (step order origin pools) new actions = some final → final.Delivers order origin := by
  intro hdelivers
  have hlost := hdelivers .little 7 (fun _ ↦ true)
    [.submit 3 ⟨1, 0, 0x23#32, 9, 0⟩ 4, .push 0, .pop 3, .onResponse 0 [5#8], .savePenddingReq 0] _
    rfl 0 _ [5#8] rfl rfl rfl rfl
  exact absurd hlost.1 nofun

end DbProxy

end TszyUlt.Lygc
