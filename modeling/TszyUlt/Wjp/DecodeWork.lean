import TszyUlt.Wjp.ClientMessages
import TszyUlt.Wjp.MongoClientReq

/-!
# How much a deserializer appends

The deserializers of arrays take a count from the buffer and append so many elements, whether or not
the buffer holds them: once it is short, each round of the loop reads an empty element and takes
nothing off. `deserialize_str` is different, it checks its length against the buffer.

`Decoder` lists the deserializers with such loops, and `Decoder.appended` is the number of elements
that one appends to its arrays, of all levels. `Decoder.announced` is the sum of the counts that
stand in the bytes at the places where the format has them. It is read off the bytes by position,
with a scanner that builds nothing (`wordAt`, `strEnd`, `scanCounted`). `Tracks` relates a
deserializer to a scanner, and `appended_eq_announced` follows from it by the structure of the
formats. So a deserializer does no more work than the length of its input exactly when the counts in
the input add up to no more than that (`appended_le_length_iff`).
-/

set_option autoImplicit false
set_option relaxedAutoImplicit false

namespace TszyUlt.Wjp

open Lib Zbf Fszm

/-! ### Scanners -/

section Scan

variable (data : Bytes)

/-- The 32-bit number in network order at a position, and zero where too few bytes are left. -/
def wordAt (pos : ℕ) : ℕ :=
  if pos + 4 ≤ data.length then (load .big 32 ((data.drop pos).take 4)).toNat else 0

/-- The position after `n` bytes, or the same position where too few are left. -/
def after (n pos : ℕ) : ℕ := if pos + n ≤ data.length then pos + n else pos

/-- The position after a string. -/
def strEnd (pos : ℕ) : ℕ := after data (wordAt data pos) (after data 4 pos)

/-- The position after an optional string. -/
def optionalEnd (pos : ℕ) : ℕ :=
  if data[pos]? = some 1 then strEnd data (pos + 1) else after data 1 pos

/-- The counts of `n` elements, one after the other, and the position after them. -/
def scanMany (item : ℕ → ℕ × ℕ) : ℕ → ℕ → ℕ × ℕ
  | 0, pos => (0, pos)
  | n + 1, pos =>
    let rest := scanMany item n (item pos).2
    ((item pos).1 + rest.1, rest.2)

/-- The count of an array with those of its elements, and the position after it. -/
def scanCounted (item : ℕ → ℕ × ℕ) (pos : ℕ) : ℕ × ℕ :=
  let elements := scanMany item (wordAt data pos) (after data 4 pos)
  (wordAt data pos + elements.1, elements.2)

/-- A row: its strings have no counts of elements. -/
def scanRow : ℕ → ℕ × ℕ := scanCounted data fun pos ↦ (0, strEnd data pos)

/-- A table. -/
def scanTable : ℕ → ℕ × ℕ := scanCounted data (scanRow data)

/-- A list of tables. -/
def scanTables : ℕ → ℕ × ℕ := scanCounted data (scanTable data)

/-- A list of field types. -/
def scanFieldsType : ℕ → ℕ × ℕ := scanCounted data fun pos ↦ (0, after data 4 pos)

/-- The entries of a map. -/
def scanEntries : ℕ → ℕ × ℕ := scanCounted data fun pos ↦ (0, strEnd data (strEnd data pos))

/-- A list of scores. -/
def scanScoreArray : ℕ → ℕ × ℕ := scanCounted data fun pos ↦ (0, strEnd data (after data 8 pos))

/-- A list of documents. -/
def scanBsons : ℕ → ℕ × ℕ := scanCounted data fun pos ↦ (0, optionalEnd data pos)

/-- The position after the version, the type and the slot of a request. -/
def headerEnd : ℕ := after data 1 (after data 1 (after data 2 0))

/-- The number of arguments of a Redis request, which is signed. -/
def announcedArgc : ℕ := (BitVec.ofNat 32 (wordAt data (headerEnd data))).toInt.toNat

/-- The number of documents of a node of a MongoDB request, after the name and three documents. -/
def announcedDocs : ℕ :=
  (scanBsons data (optionalEnd data (optionalEnd data (optionalEnd data
    (strEnd data (headerEnd data)))))).1

theorem wordAt_le_scanCounted (item : ℕ → ℕ × ℕ) (pos : ℕ) :
    wordAt data pos ≤ (scanCounted data item pos).1 := Nat.le_add_right _ _

end Scan

/-! ### Elements appended -/

/-- The elements of an array with those in them. -/
def work {α : Type} (inner : α → ℕ) (vals : List α) : ℕ := vals.length + (vals.map inner).sum

/-- The strings of a row. -/
def rowWork : DataRow → ℕ := work fun _ ↦ 0

/-- The rows of a table and their strings. -/
def tableWork : DataTable → ℕ := work rowWork

/-- The tables of a list, their rows and their strings. -/
def tablesWork : DataTables → ℕ := work tableWork

/-- The deserializers that read a count of elements. -/
inductive Decoder
  | row
  | table
  | tables
  | fieldsType
  | stringMap
  | scoreArray
  | redisReq
  | mongoOne
  deriving DecidableEq, Repr

namespace Decoder

/-- The number of elements that a deserializer appends. For a map it is the number of assignments,
also those that replace an entry. -/
def appended {Doc : Type} (bson : Libbson Doc) (order : ByteOrder) (data : Bytes) : Decoder → ℕ
  | row => rowWork ((deserializeRow order).run data).1
  | table => tableWork ((deserializeTable order).run data).1
  | tables => tablesWork ((deserializeTables order).run data).1
  | fieldsType => ((deserializeFieldsType order).run data).1.length
  | stringMap => ((deserializeEntries order).run data).1.length
  | scoreArray => ((deserializeScoreArray order).run data).1.length
  | redisReq => (RedisClientReq.deserialize order data).argv.length
  | mongoOne =>
    (((MongoNode.deserializeOne bson order).run data).1 : MongoNode Doc Unit).multWrite.length

/-- The counts of elements that stand in the bytes, added up. -/
def announced (data : Bytes) : Decoder → ℕ
  | row => (scanRow data 0).1
  | table => (scanTable data 0).1
  | tables => (scanTables data 0).1
  | fieldsType => (scanFieldsType data 0).1
  | stringMap => (scanEntries data 0).1
  | scoreArray => (scanScoreArray data 0).1
  | redisReq => announcedArgc data
  | mongoOne => announcedDocs data

end Decoder

/-! ### Deserializers and scanners -/

section Tracks

variable {α β : Type} {data : Bytes}

/-- Run from any position of the bytes, the deserializer leaves the bytes from the position where
the scanner stops. -/
def EndsAt (data : Bytes) (reader : StateM Bytes α) (stop : ℕ → ℕ) : Prop :=
  ∀ pos, (reader.run (data.drop pos)).2 = data.drop (stop pos)

/-- Run from any position of the bytes, the deserializer gives a value of the measure that the
scanner adds up, and leaves the bytes from the position where the scanner stops. -/
def Tracks (data : Bytes) (reader : StateM Bytes α) (measure : α → ℕ) (scan : ℕ → ℕ × ℕ) : Prop :=
  ∀ pos, measure (reader.run (data.drop pos)).1 = (scan pos).1 ∧
    (reader.run (data.drop pos)).2 = data.drop (scan pos).2

theorem EndsAt.bind {first : StateM Bytes α} {second : α → StateM Bytes β} {stop stop' : ℕ → ℕ}
    (hfirst : EndsAt data first stop) (hsecond : ∀ value, EndsAt data (second value) stop') :
    EndsAt data (first >>= second) fun pos ↦ stop' (stop pos) := by
  intro pos
  rw [run_bind, hfirst pos]
  exact hsecond _ (stop pos)

theorem EndsAt.map {first : StateM Bytes α} {stop : ℕ → ℕ} (hfirst : EndsAt data first stop)
    (f : α → β) : EndsAt data (first >>= fun value ↦ pure (f value)) stop :=
  fun pos ↦ hfirst pos

theorem EndsAt.tracks {reader : StateM Bytes α} {stop : ℕ → ℕ} (hends : EndsAt data reader stop) :
    Tracks data reader (fun _ ↦ 0) fun pos ↦ (0, stop pos) :=
  fun pos ↦ ⟨rfl, hends pos⟩

theorem wordAt_lt (data : Bytes) (pos : ℕ) : wordAt data pos < 2 ^ 32 := by
  rw [wordAt]
  split
  · exact (load .big 32 ((data.drop pos).take 4)).isLt
  · exact Nat.two_pow_pos 32

/-- Taking `n` bytes off what follows a position, if there are so many. -/
theorem drop_after (data : Bytes) (n pos : ℕ) :
    (if (data.drop pos).length < n then data.drop pos else (data.drop pos).drop n) =
      data.drop (after data n pos) := by
  rw [after, List.length_drop]
  by_cases hroom : pos + n ≤ data.length
  · rw [if_pos hroom, if_neg (by omega), List.drop_drop]
  · rw [if_neg hroom]
    split
    · rfl
    · have hzero : n = 0 := by omega
      rw [hzero, List.drop_zero]

theorem run_uint8 (data : Bytes) (pos : ℕ) :
    deserializeUint8.run (data.drop pos) = (data[pos]?.getD 0, data.drop (after data 1 pos)) := by
  by_cases hpos : pos < data.length
  · rw [List.drop_eq_getElem_cons hpos, List.getElem?_eq_getElem hpos, after,
      if_pos (Nat.succ_le_of_lt hpos)]
    rfl
  · have hnil : data.drop pos = [] := List.drop_eq_nil_of_le (by omega)
    rw [after, if_neg (by omega), List.getElem?_eq_none (by omega), hnil]
    rfl

theorem run_uint32 (order : ByteOrder) (data : Bytes) (pos : ℕ) :
    (deserializeUint32 order).run (data.drop pos) =
      (BitVec.ofNat 32 (wordAt data pos), data.drop (after data 4 pos)) := by
  rw [← drop_after, wordAt]
  show (if (data.drop pos).length < 4 then _ else _) = _
  by_cases hroom : pos + 4 ≤ data.length
  · have hlength : ((data.drop pos).take 4).length = 4 := by
      rw [List.length_take, List.length_drop]
      omega
    have hword := netToHost_load order ((data.drop pos).take 4)
      (by rw [hlength] : (32 : ℕ) = 8 * ((data.drop pos).take 4).length)
    rw [hlength] at hword
    have hlong : ¬(data.drop pos).length < 4 := by rw [List.length_drop]; omega
    rw [if_neg hlong, if_neg hlong, if_pos hroom, hword, BitVec.ofNat_toNat, BitVec.setWidth_eq]
  · have hshort : (data.drop pos).length < 4 := by rw [List.length_drop]; omega
    rw [if_pos hshort, if_pos hshort, if_neg hroom]
    rfl

variable (order : ByteOrder)

theorem endsAt_uint8 : EndsAt data deserializeUint8 (after data 1) := fun pos ↦ by
  rw [run_uint8]

theorem endsAt_uint16 : EndsAt data (deserializeUint16 order) (after data 2) := by
  intro pos
  rw [← drop_after]
  show (if (data.drop pos).length < 2 then _ else _ : BitVec 16 × Bytes).2 = _
  split
  · rfl
  · rfl

theorem endsAt_uint32 : EndsAt data (deserializeUint32 order) (after data 4) := fun pos ↦ by
  rw [run_uint32]

theorem endsAt_uint64 : EndsAt data (deserializeUint64 order) (after data 8) := by
  intro pos
  have hrun : (deserializeUint64 order).run (data.drop pos) = if (data.drop pos).length < 8 then
      (0, data.drop pos) else (deserializeHalves order).run (data.drop pos) := rfl
  rw [hrun]
  by_cases hroom : pos + 8 ≤ data.length
  · have hhalves : ((deserializeHalves order).run (data.drop pos)).2 =
        data.drop (after data 4 (after data 4 pos)) :=
      (endsAt_uint32 order).bind (fun high ↦ (endsAt_uint32 order).map _) pos
    have hhigh : after data 4 pos = pos + 4 := if_pos (by omega)
    have hlow : after data 4 (pos + 4) = pos + 8 := if_pos (by omega)
    rw [if_neg (by rw [List.length_drop]; omega), hhalves, hhigh, hlow, after, if_pos hroom]
  · by_cases hshort : (data.drop pos).length < 8
    · rw [if_pos hshort, after, if_neg hroom]
    · rw [List.length_drop] at hshort
      omega

theorem endsAt_str : EndsAt data (deserializeStr order) (strEnd data) := by
  intro pos
  have hsize : (BitVec.ofNat 32 (wordAt data pos)).toNat = wordAt data pos := by
    rw [BitVec.toNat_ofNat, Nat.mod_eq_of_lt (wordAt_lt data pos)]
  rw [deserializeStr, run_bind, run_uint32, strEnd,
    ← drop_after data (wordAt data pos) (after data 4 pos)]
  show (if (data.drop _).length < (BitVec.ofNat 32 (wordAt data pos)).toNat then _ else _ :
    Bytes × Bytes).2 = _
  rw [hsize]
  split
  · rfl
  · rfl

theorem endsAt_entry :
    EndsAt data (deserializeEntry order) fun pos ↦ strEnd data (strEnd data pos) :=
  (endsAt_str order).bind fun _ ↦ (endsAt_str order).map _

theorem endsAt_score :
    EndsAt data (deserializeScore order) fun pos ↦ strEnd data (after data 8 pos) :=
  (endsAt_uint64 order).bind fun _ ↦ (endsAt_str order).map _

theorem endsAt_bson {Doc : Type} (bson : Libbson Doc) :
    EndsAt data (deserializeBson bson order) (optionalEnd data) := by
  refine EndsAt.map (fun pos ↦ ?_) _
  have hflag : deserializeBool.run (data.drop pos) =
      (data[pos]?.getD 0 == 1, data.drop (after data 1 pos)) := by
    rw [deserializeBool, run_bind, run_uint8]
    rfl
  rw [deserializeOptional, run_bind, hflag, optionalEnd]
  by_cases hset : data[pos]? = some 1
  · have hpos : pos + 1 ≤ data.length := (List.getElem?_eq_some_iff.mp hset).1
    rw [if_pos hset, hset, after, if_pos hpos]
    exact (endsAt_str order).map _ (pos + 1)
  · have hclear : (data[pos]?.getD 0 == 1) = false := by
      rw [beq_eq_false_iff_ne]
      intro hone
      cases hbyte : data[pos]? with
      | none => rw [hbyte] at hone; cases hone
      | some byte => rw [hbyte] at hone hset; exact hset (congrArg some hone)
    rw [if_neg hset, hclear]
    rfl

variable {order} {reader : StateM Bytes α} {measure : α → ℕ} {item : ℕ → ℕ × ℕ}

/-- The loop reads as many elements as it is told to, of the measure that the scanner adds up. -/
theorem Tracks.many (htracks : Tracks data reader measure item) (n pos : ℕ) :
    ((deserializeMany reader n).run (data.drop pos)).1.length = n ∧
      (((deserializeMany reader n).run (data.drop pos)).1.map measure).sum =
        (scanMany item n pos).1 ∧
      ((deserializeMany reader n).run (data.drop pos)).2 = data.drop (scanMany item n pos).2 := by
  induction n generalizing pos with
  | zero => exact ⟨rfl, rfl, rfl⟩
  | succ n ih =>
    obtain ⟨hmeasure, hrest⟩ := htracks pos
    obtain ⟨hlength, hsum, hleft⟩ := ih (item pos).2
    rw [deserializeMany, run_bind, run_bind, hrest]
    refine ⟨congrArg (· + 1) hlength, ?_, hleft⟩
    show (List.map measure (_ :: _)).sum = _
    rw [List.map_cons, List.sum_cons, hmeasure, hsum]
    rfl

theorem Tracks.counted (htracks : Tracks data reader measure item) :
    Tracks data (deserializeCounted order reader) (work measure) (scanCounted data item) := by
  intro pos
  have hsize : (BitVec.ofNat 32 (wordAt data pos)).toNat = wordAt data pos := by
    rw [BitVec.toNat_ofNat, Nat.mod_eq_of_lt (wordAt_lt data pos)]
  obtain ⟨hlength, hsum, hleft⟩ := htracks.many (wordAt data pos) (after data 4 pos)
  rw [deserializeCounted, run_bind, run_uint32, hsize, work, hlength, hsum]
  exact ⟨rfl, hleft⟩

end Tracks

/-! ### The formats -/

section Formats

variable {α : Type} {data : Bytes} (order : ByteOrder)

theorem tracks_row : Tracks data (deserializeRow order) rowWork (scanRow data) :=
  (endsAt_str order).tracks.counted

theorem tracks_table : Tracks data (deserializeTable order) tableWork (scanTable data) :=
  (tracks_row order).counted

theorem tracks_tables : Tracks data (deserializeTables order) tablesWork (scanTables data) :=
  (tracks_table order).counted

/-- The slot of a request is the fourth byte, and zero if there is none. -/
theorem getElem?_slot (data : Bytes) :
    data[after data 1 (after data 2 0)]?.getD 0 = data[3]?.getD 0 := by
  by_cases hlong : 3 < data.length
  · have hversion : after data 2 0 = 2 := if_pos (by omega)
    have htype : after data 1 2 = 3 := if_pos (by omega)
    rw [hversion, htype]
  · have hpos : data.length ≤ after data 1 (after data 2 0) := by
      rw [after, after]
      split_ifs <;> omega
    rw [List.getElem?_eq_none hpos, List.getElem?_eq_none (by omega)]

/-- The three fields that every request starts with. -/
theorem run_header (data : Bytes) (body : BitVec 16 → Int8 → BitVec 8 → StateM Bytes α) :
    ∃ version type,
      (do
        let version ← deserializeUint16 order
        let type ← deserializeInt8
        let dbSlot ← deserializeUint8
        body version type dbSlot : StateM Bytes α).run data =
      (body version type (data[3]?.getD 0)).run (data.drop (headerEnd data)) := by
  have hversion : ((deserializeUint16 order).run data).2 = data.drop (after data 2 0) :=
    endsAt_uint16 order 0
  have htype : EndsAt data deserializeInt8 (after data 1) := endsAt_uint8.map Int8.ofBitVec
  refine ⟨((deserializeUint16 order).run data).1,
    (deserializeInt8.run (data.drop (after data 2 0))).1, ?_⟩
  rw [run_bind, hversion, run_bind, htype, run_bind, run_uint8, getElem?_slot]
  rfl

theorem work_zero (vals : List α) : work (fun _ ↦ 0) vals = vals.length := by
  simp [work]

/-- Assumes: elements without elements of their own. The number of them is the one the scanner
gives. -/
theorem EndsAt.length_counted {reader : StateM Bytes α} {stop : ℕ → ℕ}
    (hends : EndsAt data reader stop) (pos : ℕ) :
    ((deserializeCounted order reader).run (data.drop pos)).1.length =
      (scanCounted data (fun pos ↦ (0, stop pos)) pos).1 := by
  rw [← work_zero]
  exact (hends.tracks.counted pos).1

theorem length_fieldsType (data : Bytes) :
    ((deserializeFieldsType order).run data).1.length = (scanFieldsType data 0).1 := by
  have hends : EndsAt data (deserializeUint32 order) (after data 4) := endsAt_uint32 order
  exact hends.length_counted order 0

theorem length_entries (data : Bytes) :
    ((deserializeEntries order).run data).1.length = (scanEntries data 0).1 := by
  have hends : EndsAt data (deserializeEntry order) _ := endsAt_entry order
  exact hends.length_counted order 0

theorem length_scoreArray (data : Bytes) :
    ((deserializeScoreArray order).run data).1.length = (scanScoreArray data 0).1 := by
  have hends : EndsAt data (deserializeScore order) _ := endsAt_score order
  exact hends.length_counted order 0

theorem length_argv (data : Bytes) :
    (RedisClientReq.deserialize order data).argv.length = announcedArgc data := by
  obtain ⟨version, type, hrun⟩ := run_header order data fun version type dbSlot ↦ do
    let argv ← RedisClientReq.readArgv order
    return { version, type, dbSlot, argv : RedisClientReq }
  have hargc : (deserializeInt32 order).run (data.drop (headerEnd data)) =
      (Int32.ofBitVec (BitVec.ofNat 32 (wordAt data (headerEnd data))),
        data.drop (after data 4 (headerEnd data))) := by
    rw [deserializeInt32, run_bind, run_uint32]
    rfl
  have hstr : EndsAt data (deserializeStr order) (strEnd data) := endsAt_str order
  have hmany := (hstr.tracks.many (announcedArgc data) (after data 4 (headerEnd data))).1
  rw [RedisClientReq.deserialize, RedisClientReq.read, hrun, run_bind, RedisClientReq.readArgv,
    run_bind, hargc]
  exact hmany

theorem length_multWrite {Doc Prefs : Type} (bson : Libbson Doc) (data : Bytes) :
    (((MongoNode.deserializeOne bson order).run data).1 : MongoNode Doc Prefs).multWrite.length =
      announcedDocs data := by
  obtain ⟨version, type, hrun⟩ := run_header order data fun version type dbSlot ↦ do
    let collName ← deserializeStr order
    let opts ← deserializeBson bson order
    let query ← deserializeBson bson order
    let write ← deserializeBson bson order
    let multWrite ← deserializeCounted order (deserializeBson bson order)
    return { version, type, dbSlot, collName, opts, query, write, multWrite : MongoNode Doc Prefs }
  have hbson : EndsAt data (deserializeBson bson order) (optionalEnd data) := endsAt_bson order bson
  have hdocs := hbson.length_counted order
    (optionalEnd data (optionalEnd data (optionalEnd data (strEnd data (headerEnd data)))))
  rw [MongoNode.deserializeOne, hrun, run_bind, endsAt_str order, run_bind, hbson, run_bind, hbson,
    run_bind, hbson, run_bind]
  exact hdocs

end Formats

/-! ### Work and input -/

/-- A deserializer appends as many elements as the counts in its input say, whatever else the input
holds. -/
theorem appended_eq_announced {Doc : Type} (bson : Libbson Doc) (order : ByteOrder) (data : Bytes)
    (decoder : Decoder) : decoder.appended bson order data = decoder.announced data := by
  cases decoder with
  | row => exact (tracks_row order 0).1
  | table => exact (tracks_table order 0).1
  | tables => exact (tracks_tables order 0).1
  | fieldsType => rw [Decoder.appended, Decoder.announced, length_fieldsType]
  | stringMap => rw [Decoder.appended, Decoder.announced, length_entries]
  | scoreArray => rw [Decoder.appended, Decoder.announced, length_scoreArray]
  | redisReq => rw [Decoder.appended, Decoder.announced, length_argv]
  | mongoOne => rw [Decoder.appended, Decoder.announced, length_multWrite]

/-- A deserializer appends no more elements than its input has bytes exactly if the counts of
elements that stand in the input add up to no more than that. -/
theorem appended_le_length_iff {Doc : Type} (bson : Libbson Doc) (order : ByteOrder)
    (decoder : Decoder) (data : Bytes) :
    decoder.appended bson order data ≤ data.length ↔ decoder.announced data ≤ data.length := by
  rw [appended_eq_announced]

theorem wordAt_le_announced_row (data : Bytes) : wordAt data 0 ≤ Decoder.row.announced data := by
  rw [Decoder.announced, scanRow]
  exact wordAt_le_scanCounted data _ 0

/-- Four bytes make a row of 4294967295 empty strings. -/
theorem row_appended_gt_length :
    ¬Decoder.row.appended framedBson .little [0xFF#8, 0xFF#8, 0xFF#8, 0xFF#8] ≤
      [0xFF#8, 0xFF#8, 0xFF#8, 0xFF#8].length := by
  rw [appended_eq_announced]
  intro hle
  have hword : wordAt [0xFF#8, 0xFF#8, 0xFF#8, 0xFF#8] 0 = 4294967295 := by decide
  have hcount := (wordAt_le_announced_row [0xFF#8, 0xFF#8, 0xFF#8, 0xFF#8]).trans hle
  rw [hword] at hcount
  exact absurd hcount (by decide)

end TszyUlt.Wjp
