import TszyUlt.Lib.HandleCache
import TszyUlt.Wjp.MongoArguments

/-!
# The handles of the MongoDB clients

The workers of `mongo_client_pool` in `wjp/mongo_client.hpp`, with the functions of `mongo_client`
that they call, as libmongoc sees them. A worker pops a client from the pool of the library for each
request, makes a database from it, and what the request needs from these: a collection for each
name, which stays in `_name2coll` until the request is done, a cursor, a bulk, or a session. Every
answer and every null pointer is the library's own choice.

`mongo_pool_safe` is about the whole pool: what `initPool` leaves; any number of workers that handle
any requests at the same time, in any interleaving of their calls; and that the pool of the library
can be destroyed when all workers have ended.

Scope. A database, a session or a popped client must be given back before the handle that it was
made from, and so must a cursor, a bulk and a collection; the URI is not needed after the pool was
made from it. `mongoc_database_get_collection` returns no null pointer. Documents, options and read
preferences belong to the request. An idle `mongo_client` has neither database nor collections, as
it is constructed and as `detach` leaves it, so it does not matter which one a worker is given. A
request that was not handled is put back into the queue, where no handle takes part.
-/

set_option autoImplicit false
set_option relaxedAutoImplicit false

namespace TszyUlt.Wjp.MongoHandles

open Lib Lib.HandleProg Zbf Lygc

variable {H Doc Prefs : Type}

/-! ### `mongo_client` -/

/-- `mongo_client`. -/
structure Client (H : Type) where
  client : Option H := none
  database : Option H := none
  name2coll : List (Bytes × H) := []

/-- A call that is reported with `rc`. -/
def report (h : H) : HandleProg H ℤ := do
  let ok ← call h
  pure (if ok = 0 then -1 else 0)

/-- `getCollection`. -/
def getCollection (object : Client H) (collName : Bytes) : HandleProg H (H × Client H) :=
  match object.name2coll.find? fun entry ↦ entry.1 = collName with
  | some entry => pure (entry.2, object)
  | none => do
    let database ← deref object.database
    let coll ← make database
    pure (coll, { object with name2coll := (collName, coll) :: object.name2coll })

/-- What is done with a collection. -/
def onCollection (object : Client H) (collName : Bytes) (body : H → HandleProg H ℤ) :
    HandleProg H (ℤ × Client H) := do
  let (coll, object) ← getCollection object collName
  let rc ← body coll
  pure (rc, object)

/-- The collection of a call. -/
def collName : WriteCall Doc → Bytes
  | .insertOne collName _ _ => collName
  | .insertMany collName _ _ => collName
  | .updateOne collName _ _ _ => collName
  | .updateMany collName _ _ _ => collName
  | .replaceOne collName _ _ _ => collName
  | .deleteOne collName _ _ => collName
  | .deleteMany collName _ _ => collName

/-- `insertOne`, `insertMany`, `updateOne`, `updateMany`, `replaceOne`, `deleteOne` and
`deleteMany`. -/
def write (object : Client H) (writeCall : WriteCall Doc) : HandleProg H (ℤ × Client H) :=
  onCollection object (collName writeCall) report

/-- `dropCollection`. -/
def dropCollection (object : Client H) (collName : Bytes) : HandleProg H (ℤ × Client H) :=
  onCollection object collName report

/-- `find` with the cursor that it was given. -/
def readCursor : Option H → HandleProg H ℤ
  | none => pure (-1)
  | some results => do
    let docs ← answer
    times docs.toNat (touch results)
    touch results
    let failed ← call results
    free results
    pure (if failed = 0 then 0 else -2)

/-- `find`. -/
def find (object : Client H) (collName : Bytes) : HandleProg H (ℤ × Client H) :=
  onCollection object collName fun coll ↦ do
    let results ← tryMake coll
    readCursor results

/-- `dropDatabase`. -/
def dropDatabase (object : Client H) : HandleProg H (ℤ × Client H) := do
  let database ← deref object.database
  let rc ← report database
  pure (rc, object)

/-- `command`. -/
def command (object : Client H) : HandleProg H (ℤ × Client H) := do
  let database ← deref object.database
  touch database
  let client ← deref object.client
  let rc ← report client
  pure (rc, object)

/-! ### Bulks and transactions -/

/-- The loop of `mongo_client_pool::bulkExecute` on one operation. -/
def addToBulk (bulk : H) (req : MongoNode Doc Prefs) : HandleProg H ℤ :=
  match req.bulkCalls with
  | .error rc => pure rc.toInt
  | .ok calls => untilCode calls fun _ ↦ report bulk

/-- The bulk is executed if every operation was added. -/
def executeBulk (bulk : H) (rc : ℤ) : HandleProg H ℤ := if rc = 0 then report bulk else pure rc

/-- `mongo_client_pool::bulkExecute` with the bulk that `createBulk` returned. -/
def runBulk (reqs : List (MongoNode Doc Prefs)) : Option H → HandleProg H ℤ
  | none => pure respRcParamInvalid.toInt
  | some bulk => do
    let rc ← untilCode reqs (addToBulk bulk)
    let rc ← executeBulk bulk rc
    free bulk
    pure rc

/-- `mongo_client_pool::bulkExecute`. -/
def bulkExecute (object : Client H) (req : MongoClientReq Doc Prefs) :
    HandleProg H (ℤ × Client H) :=
  onCollection object (cStr req.head.collName) fun coll ↦ do
    let bulk ← tryMake coll
    runBulk req.rest bulk

/-- The loop of `mongo_client_pool::transaction_proc`. -/
def transactionProc (object : Client H) :
    List (MongoNode Doc Prefs) → HandleProg H (ℤ × Client H)
  | [] => pure (0, object)
  | req :: rest =>
    match req.transactionCall with
    | .error rc => pure (rc.toInt, object)
    | .ok writeCall => do
      let (rc, object) ← write object writeCall
      if rc ≠ 0 then pure (rc, object) else transactionProc object rest

/-- The transaction is committed if every operation was successful. -/
def commitTransaction (session : H) (rc : ℤ) : HandleProg H ℤ :=
  if rc = 0 then report session else pure (-1)

/-- The end of a transaction, after operations that came to `rc`. -/
def endTransaction (session : H) (rc : ℤ) : HandleProg H ℤ := do
  let committed ← commitTransaction session rc
  if committed = 0 then pure 0
  else do
    let rolledBack ← report session
    pure (if rolledBack ≠ 0 then -3 else -4)

/-- `execTransaction` with the session that `createSession` returned. -/
def runTransaction (object : Client H) (reqs : List (MongoNode Doc Prefs)) :
    Option H → HandleProg H (ℤ × Client H)
  | none => pure (-1, object)
  | some session => do
    let started ← report session
    if started ≠ 0 then do
      free session
      pure (-2, object)
    else do
      let (rc, object) ← transactionProc object reqs
      let rc ← endTransaction session rc
      free session
      pure (rc, object)

/-- `execTransaction`. -/
def execTransaction (object : Client H) (req : MongoClientReq Doc Prefs) :
    HandleProg H (ℤ × Client H) := do
  let client ← deref object.client
  let session ← tryMake client
  runTransaction object req.rest session

/-! ### A worker -/

/-- The call for a request that is no bulk and no transaction. -/
def singleCall (object : Client H) (req : MongoNode Doc Prefs) : HandleProg H (ℤ × Client H) :=
  match req.singleCall with
  | some .dropDatabase => dropDatabase object
  | some (.dropCollection collName) => dropCollection object collName
  | some (.find collName _ _ _) => find object collName
  | some (.command _ _ _) => command object
  | some (.write writeCall) => write object writeCall
  | _ => pure (respRcTypeInvalid.toInt, object)

/-- `mongo_client_pool::handleRequest`. -/
def handleRequest (object : Client H) (req : MongoClientReq Doc Prefs) :
    HandleProg H (ℤ × Client H) :=
  if req.head.type = MongoClientReqType.bulkExecute.code then bulkExecute object req
  else if req.head.type = MongoClientReqType.execTransaction.code then execTransaction object req
  else singleCall object req.head

/-- `attach`, whose code is zero where there is a database. -/
def attach (object : Client H) (client : H) : HandleProg H (Client H) := do
  let database ← tryMake client
  pure { object with client := some client, database }

section Detach

variable [DecidableEq H]

/-- `detach`. The collections are destroyed in the order of the table. -/
def detach (object : Client H) : HandleProg H (Client H) := do
  freeInAnyOrder object.name2coll.length (object.name2coll.map Prod.snd)
  freeSome object.database
  pure {}

/-- A request that is handled if the database could be attached. -/
def handleAttached (req : MongoClientReq Doc Prefs) (object : Client H) :
    HandleProg H (Client H) :=
  if object.database.isSome then do
    let (_, object) ← handleRequest object req
    detach object
  else pure object

/-- What a worker does with the client that it popped, where `getIdleClient` may return nothing. -/
def servePopped (pool : H) (object : Client H) (req : MongoClientReq Doc Prefs) :
    Option H → HandleProg H (Client H)
  | none => pure object
  | some client => do
    let idle ← answer
    if idle = 0 then do
      touch pool
      free client
      pure object
    else do
      let object ← attach object client
      let object ← handleAttached req object
      touch pool
      free client
      pure object

/-- A worker on one request that it popped from the queue. -/
def serve (pool : H) (object : Client H) (req : MongoClientReq Doc Prefs) :
    HandleProg H (Client H) := do
  let client ← tryMake pool
  servePopped pool object req client

/-- A worker on the requests that it pops, one after another. -/
def serveAll (pool : H) : List (MongoClientReq Doc Prefs) → Client H → HandleProg H Unit
  | [], _ => pure ()
  | req :: rest, object => do
    let object ← serve pool object req
    serveAll pool rest object

/-- `worker`. -/
def worker (pool : H) (reqs : List (MongoClientReq Doc Prefs)) : HandleProg H Unit :=
  serveAll pool reqs {}

end Detach

/-! ### The pool -/

/-- `initPool` with the pool that it made: it is destroyed if the API cannot be set. -/
def setApi (uri : H) : Option H → HandleProg H (Option H)
  | none => do
    free uri
    pure none
  | some pool => do
    touch pool
    touch pool
    let api ← create
    touch pool
    let ok ← call api
    free api
    free uri
    if ok ≠ 0 then pure (some pool)
    else do
      free pool
      pure none

/-- `initPool` with the URI that it parsed. -/
def makePool : Option H → HandleProg H (Option H)
  | none => pure none
  | some uri => do
    touch uri
    let pool ← tryAcquire none
    setApi uri pool

/-- `initPool`: `_pool` after it, and the code is zero where it is not null. -/
def initPool : HandleProg H (Option H) := do
  let uri ← tryAcquire none
  makePool uri

/-- `uninitPool`. -/
def uninitPool (pool : Option H) : HandleProg H Unit := freeSome pool

/-! ### What a worker holds -/

section Holds

variable [DecidableEq H] {pool client database : H} {object : Client H} {rest held : Held H}

/-- A client is attached: its collections were made from its database, and beside them the worker
holds the rest, with the database and the popped client. -/
structure Ready (pool client database : H) (object : Client H) (rest held : Held H) : Prop where
  client_eq : object.client = some client
  database_eq : object.database = some database
  client_held : client ∈ rest.handles
  caching : Caching [pool] database (object.name2coll.map Prod.snd) rest held

/-- The operation keeps the client attached and gives back whatever else it acquires, whatever else
is held. -/
def Operates (pool client database : H) (op : Client H → HandleProg H (ℤ × Client H)) : Prop :=
  ∀ object rest held, Ready pool client database object rest held →
    ∀ post : ℤ × Client H → Held H → Prop,
      (∀ rc object held, Ready pool client database object rest held → post (rc, object) held) →
        wp [pool] (op object) post held

theorem Ready.database_live (hready : Ready pool client database object rest held) :
    database ∈ held.handles :=
  (hready.caching.rest_live hready.caching.parent_held).1

theorem Ready.client_live (hready : Ready pool client database object rest held) :
    client ∈ held.handles :=
  (hready.caching.rest_live hready.client_held).1

/-- A collection is found in the table, or made and put there. -/
theorem wp_getCollection (hready : Ready pool client database object rest held)
    (collName : Bytes) {post : H × Client H → Held H → Prop}
    (hpost : ∀ coll object held, Ready pool client database object rest held →
      coll ∈ held.handles → post (coll, object) held) :
    wp [pool] (getCollection object collName) post held := by
  unfold getCollection
  cases hfind : object.name2coll.find? fun entry ↦ entry.1 = collName with
  | some entry =>
    refine hpost _ _ _ hready (hready.caching.held_of_mem _ ?_)
    exact List.mem_map_of_mem (List.mem_of_find?_eq_some hfind)
  | none =>
    dsimp only
    rw [hready.database_eq, wp_bind, wp_deref_some, wp_bind]
    refine wp_make (Or.inr hready.database_live) fun coll hshared hfresh ↦ ?_
    refine hpost _ _ _ ⟨hready.client_eq, rfl, hready.client_held, ?_⟩
      List.mem_cons_self
    exact hready.caching.insert hshared hfresh

theorem operates_onCollection {body : H → HandleProg H ℤ} (collName : Bytes)
    (hbody : ∀ coll, Borrows [pool] [coll] (body coll)) :
    Operates pool client database fun object ↦ onCollection object collName body := by
  intro object rest held hready post hpost
  dsimp only
  rw [onCollection, wp_bind]
  refine wp_getCollection hready collName fun coll object held hready hcoll ↦ ?_
  dsimp only
  rw [wp_bind]
  exact (hbody coll).wp_of_live hready.caching.rooted hcoll fun rc ↦ hpost rc object held hready

theorem borrows_report {shared needs : List H} {h : H} (hmem : h ∈ needs) :
    Borrows shared needs (report h) :=
  .bind (.call hmem) fun _ ↦ .done _

theorem operates_write (writeCall : WriteCall Doc) :
    Operates pool client database fun object ↦ write object writeCall :=
  operates_onCollection _ fun _ ↦ borrows_report List.mem_cons_self

theorem operates_find (collName : Bytes) :
    Operates pool client database fun object ↦ find object collName := by
  refine operates_onCollection _ fun coll ↦ .open_bind (.tryMake List.mem_cons_self) (.done _)
    fun results ↦ ?_
  have hself : results ∈ [results, coll] := List.mem_cons_self
  refine .bind .answer fun docs ↦ .bind (.times docs.toNat (.touch hself)) fun _ ↦ ?_
  exact .bind (.touch hself) fun _ ↦ .bind (.call hself) fun _ ↦ .free_bind (.done _)

theorem operates_dropDatabase : Operates pool client database (dropDatabase (H := H)) := by
  intro object rest held hready post hpost
  rw [dropDatabase, hready.database_eq, wp_bind, wp_deref_some, wp_bind]
  exact (borrows_report List.mem_cons_self).wp_of_live hready.caching.rooted hready.database_live
    fun rc ↦ hpost rc object held hready

theorem operates_command : Operates pool client database (command (H := H)) := by
  intro object rest held hready post hpost
  rw [command, hready.database_eq, wp_bind, wp_deref_some, wp_bind, wp_touch, hready.client_eq,
    wp_bind, wp_deref_some, wp_bind]
  refine ⟨Or.inr hready.database_live, ?_⟩
  exact (borrows_report List.mem_cons_self).wp_of_live hready.caching.rooted hready.client_live
    fun rc ↦ hpost rc object held hready

theorem borrows_addToBulk {bulk : H} {needs : List H} (hmem : bulk ∈ needs)
    (req : MongoNode Doc Prefs) : Borrows [pool] needs (addToBulk bulk req) := by
  unfold addToBulk
  cases req.bulkCalls with
  | error rc => exact .done _
  | ok calls => exact .untilCode fun _ _ ↦ borrows_report hmem

theorem operates_bulkExecute (req : MongoClientReq Doc Prefs) :
    Operates pool client database fun object ↦ bulkExecute object req := by
  refine operates_onCollection _ fun coll ↦ .open_bind (.tryMake List.mem_cons_self) (.done _)
    fun bulk ↦ ?_
  have hself : bulk ∈ [bulk, coll] := List.mem_cons_self
  refine .bind (.untilCode fun node _ ↦ borrows_addToBulk hself node) fun rc ↦ ?_
  exact .bind (.ite (borrows_report hself) (.done rc)) fun _ ↦ .free_bind (.done _)

/-- The operations of a transaction, by induction on the chain. -/
theorem operates_transactionProc (reqs : List (MongoNode Doc Prefs)) :
    Operates pool client database fun object ↦ transactionProc object reqs := by
  induction reqs with
  | nil => exact fun object rest held hready post hpost ↦ hpost 0 object held hready
  | cons req more ih =>
    intro object rest held hready post hpost
    dsimp only
    unfold transactionProc
    cases req.transactionCall with
    | error rc => exact hpost _ object held hready
    | ok writeCall =>
      dsimp only
      rw [wp_bind]
      refine operates_write writeCall object rest held hready _ fun rc object held hready ↦ ?_
      dsimp only
      split_ifs
      · exact hpost rc object held hready
      · exact ih object rest held hready post hpost

theorem borrows_endTransaction {session : H} {needs : List H} (hmem : session ∈ needs) (rc : ℤ) :
    Borrows [pool] needs (endTransaction session rc) :=
  .bind (.ite (borrows_report hmem) (.done _)) fun _ ↦
    .ite (.done 0) (.bind (borrows_report hmem) fun _ ↦ .done _)

/-- A session that was started is held beside what the client holds. -/
theorem Ready.start (hready : Ready pool client database object rest held) {session : H}
    (hshared : session ∉ [pool]) (hfresh : session ∉ held.handles) :
    Ready pool client database object ((session, some client) :: rest)
      ((session, some client) :: held) where
  client_eq := hready.client_eq
  database_eq := hready.database_eq
  client_held := List.mem_cons_of_mem _ hready.client_held
  caching := hready.caching.extra
    (fun p hp ↦ Or.inr (Option.some.inj hp ▸ hready.client_held)) hshared hfresh

/-- The session is destroyed, whatever collections were made since it was started. -/
theorem Ready.wp_destroy {session : H}
    (hready : Ready pool client database object ((session, some client) :: rest) held)
    (hfresh : session ∉ rest.handles) (hdatabase : session ≠ database)
    (hchild : ¬Held.IsParent ((session, some client) :: rest) session)
    {post : Unit → Held H → Prop}
    (hpost : ∀ held, Ready pool client database object rest held → post () held) :
    wp [pool] (free session) post held := by
  obtain ⟨hparent, hcaching⟩ := hready.caching.drop hdatabase hfresh hchild
  rw [wp_free]
  refine ⟨(hready.caching.rest_live List.mem_cons_self).1, hparent,
    hpost _ ⟨hready.client_eq, hready.database_eq, ?_, hcaching⟩⟩
  rcases List.mem_cons.mp hready.client_held with heq | hrest
  · exact absurd ⟨_, List.mem_cons_self, congrArg some heq⟩ hchild
  · exact hrest

/-- The session is destroyed on every path, with the collections of the transaction left. -/
theorem operates_execTransaction (req : MongoClientReq Doc Prefs) :
    Operates pool client database fun object ↦ execTransaction object req := by
  intro object rest held hready post hpost
  dsimp only
  rw [execTransaction, hready.client_eq, wp_bind, wp_deref_some, wp_bind]
  have hlive : ∀ p ∈ some client, p ∈ [pool] ∨ p ∈ held.handles :=
    fun p hp ↦ Or.inr (Option.some.inj hp ▸ hready.client_live)
  refine ⟨Or.inr hready.client_live, wp_tryAcquire hlive (hpost _ _ _ hready) ?_⟩
  intro session hshared hfresh
  have hout : session ∉ rest.handles := fun hmem ↦ hfresh (hready.caching.rest_live hmem).1
  have hdatabase : session ≠ database := fun heq ↦ hfresh (heq ▸ hready.database_live)
  have hchild : ¬Held.IsParent ((session, some client) :: rest) session := by
    rintro ⟨entry, hentry, hp⟩
    rcases List.mem_cons.mp hentry with rfl | hold
    · exact hfresh (Option.some.inj hp ▸ hready.client_live)
    · refine hready.caching.rooted.not_isParent hshared hfresh ⟨entry, ?_, hp⟩
      exact (hready.caching.mem_rest.mp hold).1
  have hstart := hready.start hshared hfresh
  have hdestroy : ∀ object held rc,
      Ready pool client database object ((session, some client) :: rest) held →
        wp [pool] (do free session; pure (rc, object)) post held := by
    intro object held rc hready
    rw [wp_bind]
    exact hready.wp_destroy hout hdatabase hchild fun held hready ↦ hpost rc object held hready
  rw [runTransaction, wp_bind]
  refine (borrows_report List.mem_cons_self).wp_of_live hstart.caching.rooted List.mem_cons_self
    fun started ↦ ?_
  split_ifs
  · exact hdestroy object _ (-2) hstart
  rw [wp_bind]
  refine operates_transactionProc req.rest object _ _ hstart _ fun rc object held hready ↦ ?_
  dsimp only
  rw [wp_bind]
  refine (borrows_endTransaction List.mem_cons_self rc).wp_of_live hready.caching.rooted
    (hready.caching.rest_live List.mem_cons_self).1 fun rc ↦ ?_
  exact hdestroy object held rc hready

theorem operates_singleCall (req : MongoNode Doc Prefs) :
    Operates pool client database fun object ↦ singleCall object req := by
  unfold singleCall
  split
  · exact operates_dropDatabase
  · exact operates_onCollection _ fun _ ↦ borrows_report List.mem_cons_self
  · exact operates_find _
  · exact operates_command
  · exact operates_write _
  · exact fun object rest held hready post hpost ↦ hpost _ object held hready

theorem operates_handleRequest (req : MongoClientReq Doc Prefs) :
    Operates pool client database fun object ↦ handleRequest object req := by
  unfold handleRequest
  split_ifs
  · exact operates_bulkExecute req
  · exact operates_execTransaction req
  · exact operates_singleCall req.head

/-- The client is idle: it has neither a database nor collections. -/
def Client.Idle (object : Client H) : Prop := object.database = none ∧ object.name2coll = []

/-- What a worker holds with the client that it popped. -/
def popped (pool client : H) : Held H := [(client, some pool)]

theorem wp_push (hclient : client ≠ pool) {post : Client H → Held H → Prop}
    (hpost : post object []) :
    wp [pool] (do touch pool; free client; pure object) post (popped pool client) := by
  rw [wp_bind, wp_touch, wp_bind, wp_free]
  refine ⟨Or.inl List.mem_cons_self, List.mem_cons_self, ?_, ?_⟩
  · rintro ⟨entry, hentry, hp⟩
    obtain rfl := List.mem_singleton.mp hentry
    exact hclient (Option.some.inj hp).symm
  · rw [popped, Held.remove_cons_self List.not_mem_nil]
    exact hpost

/-- The collections are destroyed before the database. -/
theorem wp_detach (hready : Ready pool client database object
      ((database, some client) :: popped pool client) held)
    (hclient : database ≠ client) (hpool : database ≠ pool) {post : Client H → Held H → Prop}
    (hpost : post {} (popped pool client)) : wp [pool] (detach object) post held := by
  have hlength : object.name2coll.length = (object.name2coll.map Prod.snd).length :=
    List.length_map _ |>.symm
  rw [detach, wp_bind, hlength]
  refine hready.caching.wp_freeInAnyOrder ?_
  rw [hready.database_eq, wp_bind, freeSome, wp_free]
  refine ⟨List.mem_cons_self, ?_, ?_⟩
  · rintro ⟨entry, hentry, hp⟩
    rcases List.mem_cons.mp hentry with rfl | hentry
    · exact hclient (Option.some.inj hp).symm
    · obtain rfl := List.mem_singleton.mp hentry
      exact hpool (Option.some.inj hp).symm
  · rw [Held.remove_cons_self fun hmem ↦ hclient (List.mem_singleton.mp hmem)]
    exact hpost

theorem wp_handleAttached (hready : Ready pool client database object
      ((database, some client) :: popped pool client) held) (hclient : database ≠ client)
    (hpool : database ≠ pool) (req : MongoClientReq Doc Prefs) {post : Client H → Held H → Prop}
    (hpost : post {} (popped pool client)) :
    wp [pool] (handleAttached req object) post held := by
  rw [handleAttached, hready.database_eq, if_pos Option.isSome_some, wp_bind]
  refine operates_handleRequest req object _ _ hready _ fun _ object held hready ↦ ?_
  exact wp_detach hready hclient hpool hpost

/-- A worker gives back what it acquires for a request, whatever the request is. -/
theorem wp_serve (hidle : object.Idle) (req : MongoClientReq Doc Prefs)
    {post : Client H → Held H → Prop} (hpost : ∀ object : Client H, object.Idle → post object []) :
    wp [pool] (serve pool object req) post [] := by
  have hlive : ∀ p ∈ some pool, p ∈ [pool] ∨ p ∈ Held.handles ([] : Held H) :=
    fun p hp ↦ Or.inl (Option.some.inj hp ▸ List.mem_cons_self)
  rw [serve, wp_bind]
  refine ⟨hlive pool rfl, wp_tryAcquire hlive (hpost object hidle) fun client hshared _ ↦ ?_⟩
  have hclient : client ≠ pool := fun heq ↦ hshared (List.mem_singleton.mpr heq)
  rw [servePopped, wp_bind, wp_answer]
  intro idle
  split_ifs
  · exact wp_push hclient (hpost object hidle)
  have hmade : ∀ p ∈ some client, p ∈ [pool] ∨ p ∈ (popped pool client).handles :=
    fun p hp ↦ Or.inr (Option.some.inj hp ▸ List.mem_cons_self)
  rw [wp_bind, attach, wp_bind]
  refine ⟨hmade client rfl, wp_tryAcquire hmade ?_ fun database hshared hfresh ↦ ?_⟩
  · -- there is no database, so the request is not handled
    exact wp_push hclient (hpost _ ⟨rfl, hidle.2⟩)
  have hdatabase : database ≠ client := fun heq ↦ hfresh (List.mem_singleton.mpr heq)
  have hpool : database ≠ pool := fun heq ↦ hshared (List.mem_singleton.mpr heq)
  have hrooted : (popped pool client).Rooted [pool] := by
    intro entry hentry p hp
    obtain rfl := List.mem_singleton.mp hentry
    exact hlive p hp |>.imp_right fun hmem ↦ by cases hmem
  have hready : Ready pool client database
      { object with client := some client, database := some database }
      ((database, some client) :: popped pool client)
      ((database, some client) :: popped pool client) := by
    refine ⟨rfl, rfl, List.mem_cons_of_mem _ List.mem_cons_self, ?_⟩
    rw [hidle.2]
    exact Caching.empty (hrooted.add hmade database) List.mem_cons_self
  rw [wp_pure, wp_bind]
  refine wp_handleAttached hready hdatabase hpool req ?_
  exact wp_push hclient (hpost {} ⟨rfl, rfl⟩)

theorem wp_worker (reqs : List (MongoClientReq Doc Prefs)) :
    wp [pool] (worker pool reqs) (fun _ held ↦ held = []) [] := by
  have hall : ∀ object : Client H, object.Idle →
      wp [pool] (serveAll pool reqs object) (fun _ held ↦ held = []) [] := by
    induction reqs with
    | nil => exact fun _ _ ↦ rfl
    | cons req rest ih =>
      intro object hidle
      rw [serveAll, wp_bind]
      exact wp_serve hidle req fun object hidle ↦ ih object hidle
  exact hall {} ⟨rfl, rfl⟩

/-- Nothing was made from another handle. -/
theorem not_isParent_of_none {h : H} (hheld : ∀ entry ∈ held, entry.2 = none) :
    ¬held.IsParent h := by
  rintro ⟨entry, hentry, hp⟩
  rw [hheld entry hentry] at hp
  cases hp

/-- The API and the URI are given back on every path, and the pool where it is not returned. -/
theorem wp_setApi {uri : H} (hpool : pool ≠ uri) {post : Option H → Held H → Prop}
    (hnone : post none []) (hsome : post (some pool) [(pool, none)]) :
    wp [] (setApi uri (some pool)) post [(pool, none), (uri, none)] := by
  have hlive : pool ∈ ([] : List H) ∨ pool ∈ Held.handles [(pool, none), (uri, none)] :=
    Or.inr List.mem_cons_self
  rw [setApi, wp_bind, wp_touch, wp_bind, wp_touch, wp_bind]
  refine ⟨hlive, hlive, wp_create fun api _ hfresh ↦ ?_⟩
  rw [wp_bind, wp_touch, wp_bind, wp_call]
  refine ⟨hlive.imp_right (List.mem_cons_of_mem _), Or.inr List.mem_cons_self, fun ok ↦ ?_⟩
  rw [wp_bind, wp_free, Held.remove_cons_self hfresh]
  refine ⟨List.mem_cons_self, not_isParent_of_none (by simp), ?_⟩
  rw [wp_bind, wp_free, Held.remove_cons_of_ne hpool, Held.remove_cons_self List.not_mem_nil]
  refine ⟨List.mem_cons_of_mem _ List.mem_cons_self, not_isParent_of_none (by simp), ?_⟩
  split_ifs
  · exact hsome
  · rw [wp_bind, wp_free, Held.remove_cons_self List.not_mem_nil]
    exact ⟨List.mem_cons_self, not_isParent_of_none (by simp), hnone⟩

/-- `initPool` leaves the pool of the library, or nothing. -/
theorem wp_initPool {post : Option H → Held H → Prop} (hnone : post none [])
    (hsome : ∀ pool, post (some pool) [(pool, none)]) : wp [] initPool post [] := by
  rw [initPool, wp_bind]
  refine wp_tryAcquire (fun _ hp ↦ by cases hp) hnone fun uri _ _ ↦ ?_
  rw [makePool, wp_bind, wp_touch, wp_bind]
  refine ⟨Or.inr List.mem_cons_self, wp_tryAcquire (fun _ hp ↦ by cases hp) ?_ ?_⟩
  · rw [setApi, wp_bind, wp_free, Held.remove_cons_self List.not_mem_nil]
    exact ⟨List.mem_cons_self, not_isParent_of_none (by simp), hnone⟩
  · exact fun pool _ hfresh ↦
      wp_setApi (fun heq ↦ hfresh (List.mem_singleton.mpr heq)) hnone (hsome pool)

end Holds

/-! ### The whole pool -/

variable [DecidableEq H]

/-- The workers of a pool use it as they should, and give back all that they make from it. -/
structure UsedSafely (workers : List (List (MongoClientReq Doc Prefs))) (pool : H) : Prop where
  safe : ∀ (calls : List (HandleCall H)) (final : HandleSystem H Unit),
    runFrom HandleSystem.step ⟨workers.map (worker pool), [(pool, none)]⟩ calls = some final →
      ∀ i, ¬final.Violates i
  only_pool_left : ∀ (calls : List (HandleCall H)) (final : HandleSystem H Unit),
    runFrom HandleSystem.step ⟨workers.map (worker pool), [(pool, none)]⟩ calls = some final →
      (∀ prog ∈ final.threads, ∃ result, prog = .done result) →
        ∀ entry, entry ∈ final.live ↔ entry = (pool, none)

/-- What `initPool` leaves, and what becomes of it: nothing, or a pool that the workers use safely
and that `uninitPool` destroys at the end. -/
def PoolSafe (workers : List (List (MongoClientReq Doc Prefs))) : Option H → Held H → Prop
  | none, held => held = []
  | some pool, held =>
    held = [(pool, none)] ∧ UsedSafely workers pool ∧
      wp [] (uninitPool (some pool)) (fun _ left ↦ left = []) held

theorem usedSafely (workers : List (List (MongoClientReq Doc Prefs))) (pool : H) :
    UsedSafely workers pool := by
  have hparallel := fun (calls : List (HandleCall H)) (final : HandleSystem H Unit)
      (hrun : runFrom HandleSystem.step ⟨workers.map (worker pool), [(pool, none)]⟩ calls =
        some final) ↦ HandleSystem.parallel_safe (fun entry hentry p hp ↦ by
          obtain rfl := List.mem_singleton.mp hentry
          cases hp) (fun prog hprog ↦ by
          obtain ⟨reqs, -, rfl⟩ := List.mem_map.mp hprog
          exact wp_worker reqs) hrun
  refine ⟨fun calls final hrun ↦ (hparallel calls final hrun).1, ?_⟩
  intro calls final hrun hdone entry
  rw [(hparallel calls final hrun).2 hdone, List.mem_singleton]

/-- For any workers on any requests, that run between `initPool` and `uninitPool`: `initPool` leaves
the pool of the library or nothing; no worker is about to pass a null pointer or a handle that was
given back to the library, or to give back one that others were made from; when the workers have
ended only the pool is left; and then it is destroyed. -/
theorem mongo_pool_safe (workers : List (List (MongoClientReq Doc Prefs))) :
    wp [] (initPool : HandleProg H (Option H)) (PoolSafe workers) [] := by
  refine wp_initPool rfl fun pool ↦ ⟨rfl, usedSafely workers pool, ?_⟩
  rw [uninitPool, freeSome, wp_free, Held.remove_cons_self List.not_mem_nil]
  exact ⟨List.mem_cons_self, not_isParent_of_none (by simp), rfl⟩

/-- A worker on one `insertOne`: its client, database and collection are made and given back. -/
example : ∃ final, runFrom HandleSystem.step ⟨[worker 1 [{ head := { type := 2, dbSlot := 0 } :
      MongoClientReq Unit Unit }]], [(1, none)]⟩
    ([⟨0, 0, 0⟩, ⟨0, 1, 0⟩, ⟨0, 0, 2⟩, ⟨0, 1, 0⟩, ⟨0, 0, 0⟩, ⟨0, 1, 0⟩, ⟨0, 0, 3⟩, ⟨0, 0, 0⟩,
      ⟨0, 0, 4⟩] ++ List.replicate 7 ⟨0, 0, 0⟩) = some final ∧ final.live = [(1, none)] :=
  ⟨_, rfl, rfl⟩

end TszyUlt.Wjp.MongoHandles
