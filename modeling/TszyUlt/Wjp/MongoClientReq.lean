import TszyUlt.Fszm.SerializeValues

/-!
# Requests and responses of the MongoDB client

`wjp/mongo_client_req.hpp`. A request is a chain of operations: one operation, or the head of a bulk
or a transaction with the operations that were appended to it. Each is written with a flag after it
that says whether another one follows. The documents are those of libbson, which is a parameter:
`Libbson` gives the bytes of a document, as many as its 32-bit `len` says, and parses bytes.

The loop of `deserialize` reads a chain of any length. It is written with fuel, and `readRest_of_le`
says that it ends before the fuel does: a flag that is set takes a byte off the buffer, and no
deserializer puts one back (`LeavesSuffix`).

`mongo_roundTrip` is the round trip of requests and responses, for every library that parses the
documents it has written.
-/

set_option autoImplicit false
set_option relaxedAutoImplicit false

namespace TszyUlt.Wjp

open Lib Zbf Fszm

/-! ### Deserializers leave the end of the buffer -/

section Suffix

variable {α β : Type}

/-- What the deserializer leaves is an end of the buffer that it was given. -/
def LeavesSuffix (reader : StateM Bytes α) : Prop := ∀ buffer, (reader.run buffer).2 <:+ buffer

theorem LeavesSuffix.bind {first : StateM Bytes α} {second : α → StateM Bytes β}
    (hfirst : LeavesSuffix first) (hsecond : ∀ value, LeavesSuffix (second value)) :
    LeavesSuffix (first >>= second) := fun buffer ↦
  (hsecond (first.run buffer).1 (first.run buffer).2).trans (hfirst buffer)

theorem leavesSuffix_pure (value : α) : LeavesSuffix (pure value) := fun _ ↦ List.suffix_rfl

theorem leavesSuffix_uint8 : LeavesSuffix deserializeUint8
  | [] => List.suffix_rfl
  | val :: rest => List.suffix_cons val rest

theorem leavesSuffix_uint16 (order : ByteOrder) : LeavesSuffix (deserializeUint16 order) := by
  intro buffer
  show (if buffer.length < 2 then _ else _ : BitVec 16 × Bytes).2 <:+ buffer
  split
  · exact List.suffix_rfl
  · exact List.drop_suffix 2 buffer

theorem leavesSuffix_uint32 (order : ByteOrder) : LeavesSuffix (deserializeUint32 order) := by
  intro buffer
  show (if buffer.length < 4 then _ else _ : BitVec 32 × Bytes).2 <:+ buffer
  split
  · exact List.suffix_rfl
  · exact List.drop_suffix 4 buffer

theorem leavesSuffix_str (order : ByteOrder) : LeavesSuffix (deserializeStr order) := by
  refine (leavesSuffix_uint32 order).bind fun size buffer ↦ ?_
  show (if buffer.length < size.toNat then _ else _ : Bytes × Bytes).2 <:+ buffer
  split
  · exact List.suffix_rfl
  · exact List.drop_suffix size.toNat buffer

theorem leavesSuffix_bool : LeavesSuffix deserializeBool :=
  leavesSuffix_uint8.bind fun _ ↦ leavesSuffix_pure _

theorem leavesSuffix_optional {reader : StateM Bytes α} (hreader : LeavesSuffix reader) :
    LeavesSuffix (deserializeOptional reader) := by
  refine leavesSuffix_bool.bind fun exist ↦ ?_
  cases exist with
  | false => exact leavesSuffix_pure none
  | true => exact hreader.bind fun val ↦ leavesSuffix_pure (some val)

theorem leavesSuffix_many {reader : StateM Bytes α} (hreader : LeavesSuffix reader) (count : ℕ) :
    LeavesSuffix (deserializeMany reader count) := by
  induction count with
  | zero => exact leavesSuffix_pure []
  | succ count ih => exact hreader.bind fun val ↦ ih.bind fun vals ↦ leavesSuffix_pure (val :: vals)

theorem leavesSuffix_counted (order : ByteOrder) {reader : StateM Bytes α}
    (hreader : LeavesSuffix reader) : LeavesSuffix (deserializeCounted order reader) :=
  (leavesSuffix_uint32 order).bind fun size ↦ leavesSuffix_many hreader size.toNat

end Suffix

/-! ### Documents -/

/-- What the client uses of libbson. -/
structure Libbson (Doc : Type) where
  /-- The `len` bytes at `bson_get_data`. -/
  getData : Doc → Bytes
  /-- `bson_new_from_data`, `none` where it returns a null pointer. -/
  newFromData : Bytes → Option Doc
  /-- `len` has 32 bits. -/
  length_getData : ∀ doc, (getData doc).length < 2 ^ 32

section Documents

variable {Doc : Type} (bson : Libbson Doc)

/-- `mongo_serialize_helper::serialize_bson`. -/
def serializeBson (order : ByteOrder) : Option Doc → Bytes :=
  serializeOptional fun val ↦ serializeStr order (bson.getData val)

/-- `mongo_serialize_helper::deserialize_bson`. -/
def deserializeBson (order : ByteOrder) : StateM Bytes (Option Doc) := do
  let bin ← deserializeOptional (deserializeStr order)
  pure (bin.bind bson.newFromData)

theorem leavesSuffix_bson (order : ByteOrder) : LeavesSuffix (deserializeBson bson order) :=
  (leavesSuffix_optional (leavesSuffix_str order)).bind fun _ ↦ leavesSuffix_pure _

variable {bson}

/-- The absence of a document is read as it was written. -/
theorem consumes_bson_none (sender receiver : ByteOrder) :
    Consumes (deserializeBson bson receiver) (serializeBson bson sender none) none := by
  have hnone : Consumes (deserializeOptional (deserializeStr receiver))
      (serializeBson bson sender none) none := (consumes_bool false).bind_nil (consumes_pure none)
  exact hnone.map fun bin ↦ bin.bind bson.newFromData

/-- Assumes: a library that parses the documents it has written. A document, or the absence of
one, is read as it was written. -/
theorem consumes_bson (sender receiver : ByteOrder)
    (hparse : ∀ doc, bson.newFromData (bson.getData doc) = some doc) (val : Option Doc) :
    Consumes (deserializeBson bson receiver) (serializeBson bson sender val) val := by
  cases val with
  | none => exact consumes_bson_none sender receiver
  | some doc =>
    have hstr := consumes_str sender receiver (bson.getData doc) (bson.length_getData doc)
    have hsome : Consumes (deserializeOptional (deserializeStr receiver))
        (serializeBson bson sender (some doc)) (some (bson.getData doc)) :=
      (consumes_bool true).bind (hstr.map some)
    have hdoc := hsome.map fun bin ↦ bin.bind bson.newFromData
    rwa [Option.bind_some, hparse] at hdoc

end Documents

/-! ### Requests -/

/-- `mongo_client_req_type`. -/
inductive MongoClientReqType
  | dropDatabase
  | dropCollection
  | insertOne
  | insertMany
  | updateOne
  | updateMany
  | replaceOne
  | deleteOne
  | deleteMany
  | find
  | command
  | bulkExecute
  | execTransaction
  | mongoReqNone
  deriving DecidableEq, Repr

/-- The value of an enumerator. -/
def MongoClientReqType.code : MongoClientReqType → Int8
  | .dropDatabase => 0
  | .dropCollection => 1
  | .insertOne => 2
  | .insertMany => 3
  | .updateOne => 4
  | .updateMany => 5
  | .replaceOne => 6
  | .deleteOne => 7
  | .deleteMany => 8
  | .find => 9
  | .command => 10
  | .bulkExecute => 11
  | .execTransaction => 12
  | .mongoReqNone => 13

/-- One operation of a `mongo_client_req`: the fields of a node, less the pointer to the next. -/
structure MongoNode (Doc Prefs : Type) where
  version : BitVec 16 := 0
  type : Int8
  dbSlot : BitVec 8
  collName : Bytes := []
  opts : Option Doc := none
  query : Option Doc := none
  write : Option Doc := none
  /-- `mult_write`, `mwrite_size` pointers. -/
  multWrite : List (Option Doc) := []
  /-- `read_prefs`, which is not written. -/
  readPrefs : Option Prefs := none
  reqId : BitVec 64 := 0
  retryTimes : ℕ := 0
  deriving DecidableEq, Repr

/-- `mongo_client_req`: a node and the nodes that follow it. -/
structure MongoClientReq (Doc Prefs : Type) where
  head : MongoNode Doc Prefs
  rest : List (MongoNode Doc Prefs) := []
  deriving DecidableEq, Repr

section Requests

variable {Doc Prefs : Type} (bson : Libbson Doc) (order : ByteOrder)

namespace MongoNode

/-- `serialize_one`. -/
def serializeOne (req : MongoNode Doc Prefs) : Bytes :=
  serializeUint16 order req.version ++ (serializeInt8 req.type ++ (serializeUint8 req.dbSlot ++
    (serializeStr order req.collName ++ (serializeBson bson order req.opts ++
      (serializeBson bson order req.query ++ (serializeBson bson order req.write ++
        serializeCounted order (serializeBson bson order) req.multWrite))))))

/-- `deserialize_one`. -/
def deserializeOne : StateM Bytes (MongoNode Doc Prefs) := do
  let version ← deserializeUint16 order
  let type ← deserializeInt8
  let dbSlot ← deserializeUint8
  let collName ← deserializeStr order
  let opts ← deserializeBson bson order
  let query ← deserializeBson bson order
  let write ← deserializeBson bson order
  let multWrite ← deserializeCounted order (deserializeBson bson order)
  return { version, type, dbSlot, collName, opts, query, write, multWrite }

/-- The node as it arrives at a proxy: without read preferences, and before a pool gave it an id. -/
def written (req : MongoNode Doc Prefs) : MongoNode Doc Prefs :=
  { req with readPrefs := none, reqId := 0, retryTimes := 0 }

/-- The name of the collection and the number of documents of the node fit. -/
def Fits (req : MongoNode Doc Prefs) : Prop :=
  StrFits req.collName ∧ req.multWrite.length < 2 ^ 32

end MongoNode

namespace MongoClientReq

/-- `mongo_client_req::append`. -/
def append (head req : MongoClientReq Doc Prefs) : MongoClientReq Doc Prefs :=
  { head with rest := head.rest ++ req.head :: req.rest }

/-- The loop of `mongo_client_req::serialize` after a node: whether another one follows, and the
nodes that do. -/
def serializeRest : List (MongoNode Doc Prefs) → Bytes
  | [] => serializeBool false
  | req :: rest => serializeBool true ++ (req.serializeOne bson order ++ serializeRest rest)

/-- `mongo_client_req::serialize`. -/
def serialize (req : MongoClientReq Doc Prefs) : Bytes :=
  req.head.serializeOne bson order ++ serializeRest bson order req.rest

/-- The loop of `mongo_client_req::deserialize`. -/
def readRest : ℕ → StateM Bytes (List (MongoNode Doc Prefs))
  | 0 => pure []
  | fuel + 1 => do
    let next ← deserializeBool
    if next then do
      let req ← MongoNode.deserializeOne bson order
      let rest ← readRest fuel
      pure (req :: rest)
    else pure []

/-- `mongo_client_req::deserialize` on the buffer of a helper. -/
def read : StateM Bytes (MongoClientReq Doc Prefs) := do
  let head ← MongoNode.deserializeOne bson order
  let buffer ← get
  let rest ← readRest bson order buffer.length
  return { head, rest }

/-- `mongo_client_req::deserialize`. -/
def deserialize (data : Bytes) : MongoClientReq Doc Prefs := ((read bson order).run data).1

/-- The chain as it arrives at a proxy. -/
def written (req : MongoClientReq Doc Prefs) : MongoClientReq Doc Prefs :=
  ⟨req.head.written, req.rest.map MongoNode.written⟩

/-- Every node of the chain fits. -/
def Fits (req : MongoClientReq Doc Prefs) : Prop :=
  req.head.Fits ∧ ∀ node ∈ req.rest, node.Fits

end MongoClientReq

/-! ### The loop of `deserialize` ends -/

theorem leavesSuffix_one :
    LeavesSuffix (MongoNode.deserializeOne bson order : StateM Bytes (MongoNode Doc Prefs)) := by
  refine (leavesSuffix_uint16 order).bind fun _ ↦ ?_
  refine LeavesSuffix.bind (leavesSuffix_uint8.bind fun _ ↦ leavesSuffix_pure _) fun _ ↦ ?_
  refine leavesSuffix_uint8.bind fun _ ↦ ?_
  refine (leavesSuffix_str order).bind fun _ ↦ ?_
  refine (leavesSuffix_bson bson order).bind fun _ ↦ ?_
  refine (leavesSuffix_bson bson order).bind fun _ ↦ ?_
  refine (leavesSuffix_bson bson order).bind fun _ ↦ ?_
  refine (leavesSuffix_counted order (leavesSuffix_bson bson order)).bind fun _ ↦ ?_
  exact leavesSuffix_pure _

namespace MongoClientReq

theorem readRest_nil (fuel : ℕ) :
    (readRest bson order fuel : StateM Bytes (List (MongoNode Doc Prefs))).run [] = ([], []) := by
  cases fuel with
  | zero => rfl
  | succ fuel => rfl

theorem readRest_cons (fuel : ℕ) (flag : Byte) (buffer : Bytes) :
    (readRest bson order (fuel + 1) : StateM Bytes (List (MongoNode Doc Prefs))).run
        (flag :: buffer) =
      (if flag == 1 then do
        let req ← MongoNode.deserializeOne bson order
        let rest ← readRest bson order fuel
        pure (req :: rest)
      else pure []).run buffer := rfl

/-- Assumes: two amounts of fuel, each at least one for a byte of the buffer. The loop does the
same with both, so it is the loop of the source. -/
theorem readRest_of_le {fuel fuel' : ℕ} {buffer : Bytes} (hfuel : buffer.length ≤ fuel)
    (hfuel' : buffer.length ≤ fuel') :
    (readRest bson order fuel : StateM Bytes (List (MongoNode Doc Prefs))).run buffer =
      (readRest bson order fuel').run buffer := by
  induction fuel generalizing fuel' buffer with
  | zero =>
    have hnil : buffer = [] := List.length_eq_zero_iff.mp (Nat.le_zero.mp hfuel)
    rw [hnil, readRest_nil, readRest_nil]
  | succ fuel ih =>
    cases buffer with
    | nil => rw [readRest_nil, readRest_nil]
    | cons flag buffer =>
      obtain ⟨fuel', rfl⟩ : ∃ more, fuel' = more + 1 := ⟨fuel' - 1, by
        rw [List.length_cons] at hfuel'; omega⟩
      rw [List.length_cons] at hfuel hfuel'
      have hshort : ((MongoNode.deserializeOne bson order : StateM Bytes
          (MongoNode Doc Prefs)).run buffer).2.length ≤ buffer.length :=
        (leavesSuffix_one bson order buffer).length_le
      have hrest := ih (hshort.trans (by omega)) (hshort.trans (by omega : _ ≤ fuel'))
      rw [readRest_cons, readRest_cons]
      cases flag == 1 with
      | false => rfl
      | true =>
        rw [if_pos rfl, if_pos rfl, run_bind, run_bind, run_bind, run_bind, hrest]

end MongoClientReq

/-! ### Round trips -/

variable {bson}

section

variable (sender receiver : ByteOrder)
  (hparse : ∀ doc, bson.newFromData (bson.getData doc) = some doc)

include hparse

theorem consumes_bsons {docs : List (Option Doc)} (hdocs : docs.length < 2 ^ 32) :
    Consumes (deserializeCounted receiver (deserializeBson bson receiver))
      (serializeCounted sender (serializeBson bson sender) docs) docs :=
  consumes_counted sender receiver (fun val _ ↦ consumes_bson sender receiver hparse val)
    ⟨hdocs, fun _ _ ↦ trivial⟩

theorem MongoNode.consumes {req : MongoNode Doc Prefs} (hfits : req.Fits) :
    Consumes (deserializeOne bson receiver) (req.serializeOne bson sender) req.written := by
  obtain ⟨hname, hdocs⟩ := hfits
  refine (consumes_uint16 sender receiver req.version).bind ?_
  refine (consumes_int8 req.type).bind ?_
  refine (consumes_uint8 req.dbSlot).bind ?_
  refine (consumes_str sender receiver req.collName hname).bind ?_
  refine (consumes_bson sender receiver hparse req.opts).bind ?_
  refine (consumes_bson sender receiver hparse req.query).bind ?_
  refine (consumes_bson sender receiver hparse req.write).bind ?_
  exact (consumes_bsons sender receiver hparse hdocs).map fun multWrite ↦
    { req.written with multWrite }

namespace MongoClientReq

omit hparse in
theorem length_lt_serializeRest (bson : Libbson Doc) (rest : List (MongoNode Doc Prefs)) :
    rest.length < (serializeRest bson sender rest).length := by
  induction rest with
  | nil => exact Nat.one_pos
  | cons req rest ih =>
    have hflag : (serializeBool true).length = 1 := rfl
    rw [serializeRest, List.length_cons, List.length_append, List.length_append, hflag]
    omega

/-- Assumes: nodes that fit, and fuel for all of them. The loop reads the nodes that were written
after the head. -/
theorem consumes_rest {rest : List (MongoNode Doc Prefs)} (hfits : ∀ node ∈ rest, node.Fits)
    {fuel : ℕ} (hfuel : rest.length < fuel) :
    Consumes (readRest bson receiver fuel) (serializeRest bson sender rest)
      (rest.map MongoNode.written) := by
  induction rest generalizing fuel with
  | nil =>
    obtain ⟨fuel, rfl⟩ : ∃ more, fuel = more + 1 := ⟨fuel - 1, by omega⟩
    exact (consumes_bool false).bind_nil (consumes_pure [])
  | cons req rest ih =>
    obtain ⟨fuel, rfl⟩ : ∃ more, fuel = more + 1 := ⟨fuel - 1, by omega⟩
    rw [List.length_cons] at hfuel
    have hone := MongoNode.consumes sender receiver hparse (hfits req List.mem_cons_self)
    have hrest := ih (fun node hmem ↦ hfits node (List.mem_cons_of_mem req hmem))
      (Nat.lt_of_succ_lt_succ hfuel)
    exact (consumes_bool true).bind (hone.bind (hrest.map (List.cons req.written)))

theorem consumes {req : MongoClientReq Doc Prefs} (hfits : req.Fits) :
    Consumes (read bson receiver) (req.serialize bson sender) req.written := by
  refine (MongoNode.consumes sender receiver hparse hfits.1).bind fun rest ↦ ?_
  have hfuel : req.rest.length < (serializeRest bson sender req.rest ++ rest).length := by
    have hlength := length_lt_serializeRest sender bson req.rest
    rw [List.length_append]
    omega
  exact (consumes_rest sender receiver hparse hfits.2 hfuel).map
    (MongoClientReq.mk req.head.written) rest

end MongoClientReq

end

/-- The head of the chain that is read is the first node. -/
theorem head_deserialize (order : ByteOrder) (bson : Libbson Doc) (data : Bytes) :
    (MongoClientReq.deserialize bson order data : MongoClientReq Doc Prefs).head =
      ((MongoNode.deserializeOne bson order).run data).1 := by
  rw [MongoClientReq.deserialize, MongoClientReq.read, run_bind]
  generalize (MongoNode.deserializeOne bson order).run data = one
  suffices hyields : Yields _ fun read : MongoClientReq Doc Prefs ↦ read.head = one.1
    from hyields _
  refine Yields.bind fun buffer ↦ ?_
  refine Yields.bind fun rest ↦ ?_
  exact yields_pure rfl

/-- The name of the collection that is read is the front of the one that was written, as long as
its length field says. -/
theorem collName_deserializeOne_serializeOne (sender receiver : ByteOrder) (bson : Libbson Doc)
    (req : MongoNode Doc Prefs) (rest : Bytes) :
    (((MongoNode.deserializeOne bson receiver).run (req.serializeOne bson sender ++ rest)).1 :
      MongoNode Doc Prefs).collName = req.collName.take (req.collName.length % 2 ^ 32) := by
  rw [MongoNode.deserializeOne, MongoNode.serializeOne, List.append_assoc,
    (consumes_uint16 sender receiver req.version).run_bind, List.append_assoc,
    (consumes_int8 req.type).run_bind, List.append_assoc, (consumes_uint8 req.dbSlot).run_bind,
    serializeStr_eq_front, List.append_assoc, List.append_assoc,
    (consumes_str_front sender receiver req.collName).run_bind]
  suffices hyields : Yields _ fun read : MongoNode Doc Prefs ↦
      read.collName = req.collName.take (req.collName.length % 2 ^ 32) from hyields _
  refine Yields.bind fun opts ↦ ?_
  refine Yields.bind fun query ↦ ?_
  refine Yields.bind fun write ↦ ?_
  refine Yields.bind fun multWrite ↦ ?_
  exact yields_pure rfl

end Requests

/-! ### Responses -/

/-- `mongo_client_resp`. -/
structure MongoClientResp (Doc : Type) where
  version : BitVec 16 := 0
  reqId : BitVec 64
  rc : Int32 := -1
  reply : Option Doc := none
  resultDocs : List (Option Doc) := []
  deriving DecidableEq, Repr

namespace MongoClientResp

variable {Doc : Type} (bson : Libbson Doc)

/-- `mongo_client_resp::serialize`. -/
def serialize (order : ByteOrder) (resp : MongoClientResp Doc) : Bytes :=
  serializeUint16 order resp.version ++ (serializeInt64 order (Int64.ofBitVec resp.reqId) ++
    (serializeInt32 order resp.rc ++ (serializeBson bson order resp.reply ++
      serializeCounted order (serializeBson bson order) resp.resultDocs)))

/-- `mongo_client_resp::deserialize` on the buffer of a helper. -/
def read (order : ByteOrder) : StateM Bytes (MongoClientResp Doc) := do
  let version ← deserializeUint16 order
  let reqId ← deserializeInt64 order
  let rc ← deserializeInt32 order
  let reply ← deserializeBson bson order
  let resultDocs ← deserializeCounted order (deserializeBson bson order)
  return { version, reqId := reqId.toBitVec, rc, reply, resultDocs }

/-- `mongo_client_resp::deserialize`. -/
def deserialize (order : ByteOrder) (data : Bytes) : MongoClientResp Doc :=
  ((read bson order).run data).1

variable {bson}

theorem consumes (sender receiver : ByteOrder)
    (hparse : ∀ doc, bson.newFromData (bson.getData doc) = some doc) {resp : MongoClientResp Doc}
    (hdocs : resp.resultDocs.length < 2 ^ 32) :
    Consumes (read bson receiver) (resp.serialize bson sender) resp := by
  refine (consumes_uint16 sender receiver resp.version).bind ?_
  refine (consumes_int64 sender receiver (Int64.ofBitVec resp.reqId)).bind ?_
  refine (consumes_int32 sender receiver resp.rc).bind ?_
  refine (consumes_bson sender receiver hparse resp.reply).bind ?_
  exact (consumes_bsons sender receiver hparse hdocs).map fun resultDocs ↦ { resp with resultDocs }

end MongoClientResp

/-- Assumes: a library that parses the documents it has written. Every chain of nodes whose lengths
fit comes back as it was written, of the same length and with the same documents and the same
absences at every position, and so does every response with fewer than 2 ^ 32 result documents. -/
theorem mongo_roundTrip {Doc Prefs : Type} (bson : Libbson Doc) (sender receiver : ByteOrder)
    (hparse : ∀ doc, bson.newFromData (bson.getData doc) = some doc) :
    (∀ req : MongoClientReq Doc Prefs, req.Fits →
      MongoClientReq.deserialize bson receiver (req.serialize bson sender) = req.written) ∧
    ∀ resp : MongoClientResp Doc, resp.resultDocs.length < 2 ^ 32 →
      MongoClientResp.deserialize bson receiver (resp.serialize bson sender) = resp :=
  ⟨fun _ hfits ↦ (MongoClientReq.consumes sender receiver hparse hfits).run',
    fun _ hdocs ↦ (MongoClientResp.consumes sender receiver hparse hdocs).run'⟩

/-! ### Documents as their bytes -/

/-- The checks of `bson_new_from_data`: room for a length and an end, a signed 32-bit length, the
little-endian length in front, and the null byte at the end. -/
def BsonFramed (data : Bytes) : Prop :=
  5 ≤ data.length ∧ data.length < 2 ^ 31 ∧
    load .little 32 (data.take 4) = BitVec.ofNat 32 data.length ∧ data.getLast? = some 0

instance (data : Bytes) : Decidable (BsonFramed data) := by
  unfold BsonFramed
  infer_instance

/-- A library whose documents are the byte strings that pass the checks of `bson_new_from_data`. -/
def framedBson : Libbson { data : Bytes // BsonFramed data } where
  getData := Subtype.val
  newFromData := fun data ↦ if hframed : BsonFramed data then some ⟨data, hframed⟩ else none
  length_getData := fun doc ↦ doc.property.2.1.trans (by decide)

theorem framedBson_newFromData_getData (doc : { data : Bytes // BsonFramed data }) :
    framedBson.newFromData (framedBson.getData doc) = some doc := dif_pos doc.property

/-- The empty document. -/
def emptyDoc : { data : Bytes // BsonFramed data } := ⟨[5, 0, 0, 0, 0], by decide⟩

/-- A transaction that inserts a document and finds it. -/
def insertAndFind : MongoClientReq { data : Bytes // BsonFramed data } Unit where
  head := { type := MongoClientReqType.execTransaction.code, dbSlot := 1 }
  rest :=
    [{ type := MongoClientReqType.insertMany.code, dbSlot := 1, collName := [0x63#8],
       multWrite := [some emptyDoc, none] },
     { type := MongoClientReqType.find.code, dbSlot := 1, collName := [0x63#8],
       query := some emptyDoc }]

theorem mongo_roundTrip_transaction :
    MongoClientReq.deserialize framedBson .little (insertAndFind.serialize framedBson .big) =
      insertAndFind := by
  refine (mongo_roundTrip framedBson .big .little framedBson_newFromData_getData).1 insertAndFind ?_
  simp [MongoClientReq.Fits, MongoNode.Fits, insertAndFind, StrFits]

/-- `newDropColl`. -/
def newDropColl (dbSlot : BitVec 8) (collName : Bytes) :
    MongoClientReq { data : Bytes // BsonFramed data } Unit where
  head := { type := MongoClientReqType.dropCollection.code, dbSlot, collName }

theorem collName_ne_of_length {collName : Bytes} (hlength : collName.length = 2 ^ 32) :
    (MongoClientReq.deserialize framedBson .little
      ((newDropColl 0 collName).serialize framedBson .little) :
        MongoClientReq _ Unit).head.collName ≠ collName := by
  rw [head_deserialize, MongoClientReq.serialize, collName_deserializeOne_serializeOne]
  exact take_front_ne hlength

/-- A collection name of 4 GiB does not come back. -/
theorem collName_lost_at_four_gib :
    (MongoClientReq.deserialize framedBson .little
      ((newDropColl 0 (List.replicate (2 ^ 32) 0x63#8)).serialize framedBson .little) :
        MongoClientReq _ Unit).head.collName ≠ List.replicate (2 ^ 32) 0x63#8 :=
  collName_ne_of_length List.length_replicate

end TszyUlt.Wjp
