import TszyUlt.Fszm.SerializeHelper

/-!
# Serialized arrays, tables and maps

The rest of `fszm/serialize_helper.hpp`: the other widths of integers, truth values, floating-point
numbers, and the arrays, tables and maps that are built from strings and words. A floating-point
number is its bit pattern, since the helper only copies it. A `std::map` is an ordered map, whose
entries are written in the order of the keys; it is read entry by entry, and an entry replaces an
earlier one of the same key.

Every array is a 32-bit count and then the elements; `serializeCounted` and `deserializeCounted` are
the two loops, and `consumes_counted` their round trip. A `Kind` is one of the types that the helper
can write, with its values, its serializer and deserializer, and the bound on lengths under which a
value fits its length fields. `deserializeAll_serializeAll` is the round trip of a sequence of
values of any kinds, whatever bytes follow it and whatever the byte orders of the two hosts are.
-/

set_option autoImplicit false
set_option relaxedAutoImplicit false

namespace TszyUlt.Fszm

open Lib Zbf

/-! ### Loops -/

section Loops

variable {α : Type}

/-- The loop of a deserializer that reads `count` values. -/
def deserializeMany (reader : StateM Bytes α) : ℕ → StateM Bytes (List α)
  | 0 => pure []
  | count + 1 => do
    let val ← reader
    let vals ← deserializeMany reader count
    pure (val :: vals)

/-- The serializer of an array: its size and its elements. -/
def serializeCounted (order : ByteOrder) (writer : α → Bytes) (vals : List α) : Bytes :=
  serializeUint32 order (BitVec.ofNat 32 vals.length) ++ vals.flatMap writer

/-- The deserializer of an array. -/
def deserializeCounted (order : ByteOrder) (reader : StateM Bytes α) : StateM Bytes (List α) := do
  let size ← deserializeUint32 order
  deserializeMany reader size.toNat

/-- The array has fewer than 2 ^ 32 elements, and each of them fits. -/
def CountedFits (fits : α → Prop) (vals : List α) : Prop :=
  vals.length < 2 ^ 32 ∧ ∀ val ∈ vals, fits val

variable {reader : StateM Bytes α} {writer : α → Bytes}

/-- Assumes: the reader reads each of the values. The loop reads all of them. -/
theorem consumes_many (vals : List α) (hvals : ∀ val ∈ vals, Consumes reader (writer val) val) :
    Consumes (deserializeMany reader vals.length) (vals.flatMap writer) vals := by
  induction vals with
  | nil => exact consumes_pure []
  | cons val vals ih =>
    have hval : Consumes reader (writer val) val := hvals val List.mem_cons_self
    have htail := ih fun other hmem ↦ hvals other (List.mem_cons_of_mem val hmem)
    rw [List.flatMap_cons, List.length_cons]
    exact hval.bind (htail.map (List.cons val))

/-- Assumes: an array that fits its count, of values that the reader reads. The array is read as it
was written. -/
theorem consumes_counted (sender receiver : ByteOrder) {fits : α → Prop} {vals : List α}
    (hread : ∀ val, fits val → Consumes reader (writer val) val) (hfits : CountedFits fits vals) :
    Consumes (deserializeCounted receiver reader) (serializeCounted sender writer vals) vals := by
  have hsize : (BitVec.ofNat 32 vals.length).toNat = vals.length := by
    rw [BitVec.toNat_ofNat, Nat.mod_eq_of_lt hfits.1]
  refine (consumes_uint32 sender receiver (BitVec.ofNat 32 vals.length)).bind ?_
  rw [hsize]
  exact consumes_many vals fun val hmem ↦ hread val (hfits.2 val hmem)

end Loops

/-! ### Data of the helper -/

/-- `DataRow`. -/
abbrev DataRow := List Bytes

/-- `DataTable`. -/
abbrev DataTable := List DataRow

/-- `DataTables`. -/
abbrev DataTables := List DataTable

/-- `FieldsType`. -/
abbrev FieldsType := List (BitVec 32)

/-- `StringMap`: the keys in the order of `std::string`, byte by byte as unsigned values. -/
abbrev StringMap := Std.ExtTreeMap Bytes Bytes

/-- `ScoreArray`, the scores as bit patterns. -/
abbrev ScoreArray := List (BitVec 64 × Bytes)

section Values

variable (order : ByteOrder)

/-- `serialize_uint16`. -/
def serializeUint16 (val : BitVec 16) : Bytes := store order 2 (hostToNet order 2 val)

/-- `deserialize_uint16`. -/
def deserializeUint16 : StateM Bytes (BitVec 16) := fun buffer ↦
  if buffer.length < 2 then (0, buffer)
  else (netToHost order 2 (load order 16 (buffer.take 2)), buffer.drop 2)

/-- `serialize_uint64`: the high half first. -/
def serializeUint64 (val : BitVec 64) : Bytes :=
  serializeUint32 order ((val >>> 32).setWidth 32) ++ serializeUint32 order (val.setWidth 32)

/-- The two reads of `deserialize_uint64`. -/
def deserializeHalves : StateM Bytes (BitVec 64) := do
  let high ← deserializeUint32 order
  let low ← deserializeUint32 order
  pure ((high.setWidth 64 <<< 32) ||| low.setWidth 64)

/-- `deserialize_uint64`. -/
def deserializeUint64 : StateM Bytes (BitVec 64) := fun buffer ↦
  if buffer.length < 8 then (0, buffer) else deserializeHalves order buffer

/-- `serialize_int8`. -/
def serializeInt8 (val : Int8) : Bytes := serializeUint8 val.toBitVec

/-- `deserialize_int8`. -/
def deserializeInt8 : StateM Bytes Int8 := do
  let val ← deserializeUint8
  pure (Int8.ofBitVec val)

/-- `serialize_int16`. -/
def serializeInt16 (val : Int16) : Bytes := serializeUint16 order val.toBitVec

/-- `deserialize_int16`. -/
def deserializeInt16 : StateM Bytes Int16 := do
  let val ← deserializeUint16 order
  pure (Int16.ofBitVec val)

/-- `serialize_int32`. -/
def serializeInt32 (val : Int32) : Bytes := serializeUint32 order val.toBitVec

/-- `deserialize_int32`. -/
def deserializeInt32 : StateM Bytes Int32 := do
  let val ← deserializeUint32 order
  pure (Int32.ofBitVec val)

/-- `serialize_int64`. -/
def serializeInt64 (val : Int64) : Bytes := serializeUint64 order val.toBitVec

/-- `deserialize_int64`. -/
def deserializeInt64 : StateM Bytes Int64 := do
  let val ← deserializeUint64 order
  pure (Int64.ofBitVec val)

/-- `serialize_bool`. -/
def serializeBool (val : Bool) : Bytes := serializeUint8 (if val then 1 else 0)

/-- `deserialize_bool`. -/
def deserializeBool : StateM Bytes Bool := do
  let val ← deserializeUint8
  pure (val == 1)

/-- `serialize_double`. -/
def serializeDouble (bits : BitVec 64) : Bytes := serializeUint64 order bits

/-- `deserialize_double`. -/
def deserializeDouble : StateM Bytes (BitVec 64) := deserializeUint64 order

/-- `serialize_float`. -/
def serializeFloat (bits : BitVec 32) : Bytes := serializeUint32 order bits

/-- `deserialize_float`. -/
def deserializeFloat : StateM Bytes (BitVec 32) := deserializeUint32 order

/-- `serialize_row`. -/
def serializeRow (row : DataRow) : Bytes := serializeCounted order (serializeStr order) row

/-- `deserialize_row`. -/
def deserializeRow : StateM Bytes DataRow := deserializeCounted order (deserializeStr order)

/-- `serialize_table`. -/
def serializeTable (table : DataTable) : Bytes := serializeCounted order (serializeRow order) table

/-- `deserialize_table`. -/
def deserializeTable : StateM Bytes DataTable := deserializeCounted order (deserializeRow order)

/-- `serialize_tables`. -/
def serializeTables (tables : DataTables) : Bytes :=
  serializeCounted order (serializeTable order) tables

/-- `deserialize_tables`. -/
def deserializeTables : StateM Bytes DataTables := deserializeCounted order (deserializeTable order)

/-- `serialize_fields_type`. -/
def serializeFieldsType (fieldsType : FieldsType) : Bytes :=
  serializeCounted order (serializeUint32 order) fieldsType

/-- `deserialize_fields_type`. -/
def deserializeFieldsType : StateM Bytes FieldsType :=
  deserializeCounted order (deserializeUint32 order)

/-- The body of the loop of `serialize_string_map`. -/
def serializeEntry (kv : Bytes × Bytes) : Bytes :=
  serializeStr order kv.1 ++ serializeStr order kv.2

/-- The key and the value that one round of the loop of `deserialize_string_map` reads. -/
def deserializeEntry : StateM Bytes (Bytes × Bytes) := do
  let key ← deserializeStr order
  let val ← deserializeStr order
  pure (key, val)

/-- `serialize_string_map`. -/
def serializeStringMap (map : StringMap) : Bytes :=
  serializeCounted order (serializeEntry order) map.toList

/-- The map after the assignments of the loop of `deserialize_string_map`, in their order. -/
def StringMap.assignAll (entries : List (Bytes × Bytes)) : StringMap :=
  entries.foldl (fun map kv ↦ map.insert kv.1 kv.2) ∅

/-- The assignments of the loop of `deserialize_string_map`. -/
def deserializeEntries : StateM Bytes (List (Bytes × Bytes)) :=
  deserializeCounted order (deserializeEntry order)

/-- `deserialize_string_map`. -/
def deserializeStringMap : StateM Bytes StringMap := do
  let entries ← deserializeEntries order
  pure (StringMap.assignAll entries)

/-- The body of the loop of `serialize_score_array`. -/
def serializeScore (item : BitVec 64 × Bytes) : Bytes :=
  serializeDouble order item.1 ++ serializeStr order item.2

/-- The body of the loop of `deserialize_score_array`. -/
def deserializeScore : StateM Bytes (BitVec 64 × Bytes) := do
  let score ← deserializeDouble order
  let val ← deserializeStr order
  pure (score, val)

/-- `serialize_score_array`. -/
def serializeScoreArray (arr : ScoreArray) : Bytes :=
  serializeCounted order (serializeScore order) arr

/-- `deserialize_score_array`. -/
def deserializeScoreArray : StateM Bytes ScoreArray :=
  deserializeCounted order (deserializeScore order)

end Values

/-! ### Lengths that fit -/

/-- The length of the string fits a 32-bit length field. -/
def StrFits (data : Bytes) : Prop := data.length < 2 ^ 32

/-- The lengths of the row and of its strings fit. -/
def RowFits : DataRow → Prop := CountedFits StrFits

/-- The lengths of the table, its rows and their strings fit. -/
def TableFits : DataTable → Prop := CountedFits RowFits

/-- The lengths of the list of tables and of each table in it fit. -/
def TablesFit : DataTables → Prop := CountedFits TableFits

/-- The number of field types fits. -/
def FieldsTypeFits : FieldsType → Prop := CountedFits fun _ ↦ True

/-- The number of entries and the lengths of the keys and values fit. -/
def StringMapFits (map : StringMap) : Prop :=
  CountedFits (fun kv : Bytes × Bytes ↦ StrFits kv.1 ∧ StrFits kv.2) map.toList

/-- The number of scores and the lengths of their strings fit. -/
def ScoreArrayFits : ScoreArray → Prop := CountedFits fun item ↦ StrFits item.2

/-! ### Round trips -/

section RoundTrips

variable (sender receiver : ByteOrder)

theorem consumes_uint16 (val : BitVec 16) :
    Consumes (deserializeUint16 receiver) (serializeUint16 sender val) val := by
  intro rest
  have hlength : (serializeUint16 sender val).length = 2 := length_store sender 2 _
  have hword : netToHost receiver 2 (load receiver 16 (serializeUint16 sender val)) = val :=
    netToHost_load_store_hostToNet (n := 2) sender receiver rfl val
  show (if (serializeUint16 sender val ++ rest).length < 2 then _ else _) = _
  rw [if_neg (by rw [List.length_append, hlength]; omega), List.take_left' hlength,
    List.drop_left' hlength, hword]

theorem consumes_uint64 (val : BitVec 64) :
    Consumes (deserializeUint64 receiver) (serializeUint64 sender val) val := by
  intro rest
  have hlength : (serializeUint64 sender val).length = 8 := by
    rw [serializeUint64, List.length_append, serializeUint32, serializeUint32, length_store,
      length_store]
  have hlow := (consumes_uint32 sender receiver (val.setWidth 32)).map fun low ↦
    (((val >>> 32).setWidth 32).setWidth 64 <<< 32) ||| low.setWidth 64
  rw [or_halves] at hlow
  have hread : Consumes (deserializeHalves receiver) (serializeUint64 sender val) val :=
    (consumes_uint32 sender receiver ((val >>> 32).setWidth 32)).bind hlow
  show (if (serializeUint64 sender val ++ rest).length < 8 then _ else _) = _
  rw [if_neg (by rw [List.length_append, hlength]; omega)]
  exact hread rest

theorem consumes_int8 (val : Int8) : Consumes deserializeInt8 (serializeInt8 val) val :=
  (consumes_uint8 val.toBitVec).map Int8.ofBitVec

theorem consumes_int16 (val : Int16) :
    Consumes (deserializeInt16 receiver) (serializeInt16 sender val) val :=
  (consumes_uint16 sender receiver val.toBitVec).map Int16.ofBitVec

theorem consumes_int32 (val : Int32) :
    Consumes (deserializeInt32 receiver) (serializeInt32 sender val) val :=
  (consumes_uint32 sender receiver val.toBitVec).map Int32.ofBitVec

theorem consumes_int64 (val : Int64) :
    Consumes (deserializeInt64 receiver) (serializeInt64 sender val) val :=
  (consumes_uint64 sender receiver val.toBitVec).map Int64.ofBitVec

theorem consumes_bool (val : Bool) : Consumes deserializeBool (serializeBool val) val := by
  have hread := (consumes_uint8 (if val then 1 else 0)).map (fun read ↦ read == 1)
  cases val with
  | false => exact hread
  | true => exact hread

theorem consumes_row {row : DataRow} (hfits : RowFits row) :
    Consumes (deserializeRow receiver) (serializeRow sender row) row :=
  consumes_counted sender receiver (consumes_str sender receiver) hfits

theorem consumes_table {table : DataTable} (hfits : TableFits table) :
    Consumes (deserializeTable receiver) (serializeTable sender table) table :=
  consumes_counted sender receiver (fun _ ↦ consumes_row sender receiver) hfits

theorem consumes_tables {tables : DataTables} (hfits : TablesFit tables) :
    Consumes (deserializeTables receiver) (serializeTables sender tables) tables :=
  consumes_counted sender receiver (fun _ ↦ consumes_table sender receiver) hfits

theorem consumes_fieldsType {fieldsType : FieldsType} (hfits : FieldsTypeFits fieldsType) :
    Consumes (deserializeFieldsType receiver) (serializeFieldsType sender fieldsType) fieldsType :=
  consumes_counted sender receiver (fun val _ ↦ consumes_uint32 sender receiver val) hfits

theorem consumes_entry {kv : Bytes × Bytes} (hfits : StrFits kv.1 ∧ StrFits kv.2) :
    Consumes (deserializeEntry receiver) (serializeEntry sender kv) kv :=
  (consumes_str sender receiver kv.1 hfits.1).bind
    ((consumes_str sender receiver kv.2 hfits.2).map (Prod.mk kv.1))

/-- Assigning the entries of a map one after the other builds the map. -/
theorem StringMap.assignAll_toList (map : StringMap) : StringMap.assignAll map.toList = map := by
  rw [StringMap.assignAll, ← Std.ExtTreeMap.insertMany_list_eq_foldl]
  apply Std.ExtTreeMap.ext_getElem?
  intro key
  cases hval : map[key]? with
  | none =>
    have habsent : (map.toList.map Prod.fst).contains key = false := by
      rw [Std.ExtTreeMap.map_fst_toList_eq_keys, ← Bool.not_eq_true, List.contains_iff_mem,
        Std.ExtTreeMap.mem_keys, Std.ExtTreeMap.mem_iff_isSome_getElem?, hval]
      exact Bool.false_ne_true
    rw [Std.ExtTreeMap.getElem?_insertMany_list_of_contains_eq_false habsent]
    exact Std.ExtTreeMap.getElem?_empty
  | some val =>
    -- The keys of a map are distinct, so no later assignment replaces this one.
    exact Std.ExtTreeMap.getElem?_insertMany_list_of_mem Std.ReflCmp.compare_self
      Std.ExtTreeMap.distinct_keys_toList
      (Std.ExtTreeMap.mem_toList_iff_getElem?_eq_some.mpr hval)

theorem consumes_stringMap {map : StringMap} (hfits : StringMapFits map) :
    Consumes (deserializeStringMap receiver) (serializeStringMap sender map) map := by
  have hentries : Consumes (deserializeEntries receiver) (serializeStringMap sender map)
      map.toList := consumes_counted sender receiver (fun _ ↦ consumes_entry sender receiver) hfits
  have hmap := hentries.map StringMap.assignAll
  rw [StringMap.assignAll_toList] at hmap
  exact hmap

theorem consumes_score {item : BitVec 64 × Bytes} (hfits : StrFits item.2) :
    Consumes (deserializeScore receiver) (serializeScore sender item) item :=
  (consumes_uint64 sender receiver item.1).bind
    ((consumes_str sender receiver item.2 hfits).map (Prod.mk item.1))

theorem consumes_scoreArray {arr : ScoreArray} (hfits : ScoreArrayFits arr) :
    Consumes (deserializeScoreArray receiver) (serializeScoreArray sender arr) arr :=
  consumes_counted sender receiver (fun _ ↦ consumes_score sender receiver) hfits

end RoundTrips

/-! ### Optional sections -/

section Optional

variable {α : Type}

/-- A flag, and after it the value if there is one. -/
def serializeOptional (writer : α → Bytes) : Option α → Bytes
  | none => serializeBool false
  | some val => serializeBool true ++ writer val

/-- A flag, and the value after it if it is set. -/
def deserializeOptional (reader : StateM Bytes α) : StateM Bytes (Option α) := do
  let exist ← deserializeBool
  if exist then do
    let val ← reader
    pure (some val)
  else pure none

/-- Assumes: the reader reads the value, if there is one. The section is read as it was written. -/
theorem consumes_optional {reader : StateM Bytes α} {writer : α → Bytes} {val : Option α}
    (hval : ∀ present ∈ val, Consumes reader (writer present) present) :
    Consumes (deserializeOptional reader) (serializeOptional writer val) val := by
  cases val with
  | none => exact (consumes_bool false).bind_nil (consumes_pure none)
  | some present => exact (consumes_bool true).bind ((hval present rfl).map some)

end Optional

/-! ### Sequences of values of any kinds -/

/-- The types that the helper writes and reads. -/
inductive Kind
  | int8 | int16 | int32 | int64
  | uint8 | uint16 | uint32 | uint64
  | bool | double | float
  | str | row | table | tables
  | fieldsType | stringMap | scoreArray
  deriving DecidableEq, Repr

namespace Kind

/-- The values of a kind. -/
def Value : Kind → Type
  | int8 => Int8
  | int16 => Int16
  | int32 => Int32
  | int64 => Int64
  | uint8 => BitVec 8
  | uint16 => BitVec 16
  | uint32 => BitVec 32
  | uint64 => BitVec 64
  | bool => Bool
  | double => BitVec 64
  | float => BitVec 32
  | str => Bytes
  | row => DataRow
  | table => DataTable
  | tables => DataTables
  | fieldsType => FieldsType
  | stringMap => StringMap
  | scoreArray => ScoreArray

/-- The serializer of a kind. -/
def serialize (order : ByteOrder) : (kind : Kind) → kind.Value → Bytes
  | int8 => serializeInt8
  | int16 => serializeInt16 order
  | int32 => serializeInt32 order
  | int64 => serializeInt64 order
  | uint8 => serializeUint8
  | uint16 => serializeUint16 order
  | uint32 => serializeUint32 order
  | uint64 => serializeUint64 order
  | bool => serializeBool
  | double => serializeDouble order
  | float => serializeFloat order
  | str => serializeStr order
  | row => serializeRow order
  | table => serializeTable order
  | tables => serializeTables order
  | fieldsType => serializeFieldsType order
  | stringMap => serializeStringMap order
  | scoreArray => serializeScoreArray order

/-- The deserializer of a kind. -/
def deserialize (order : ByteOrder) : (kind : Kind) → StateM Bytes kind.Value
  | int8 => deserializeInt8
  | int16 => deserializeInt16 order
  | int32 => deserializeInt32 order
  | int64 => deserializeInt64 order
  | uint8 => deserializeUint8
  | uint16 => deserializeUint16 order
  | uint32 => deserializeUint32 order
  | uint64 => deserializeUint64 order
  | bool => deserializeBool
  | double => deserializeDouble order
  | float => deserializeFloat order
  | str => deserializeStr order
  | row => deserializeRow order
  | table => deserializeTable order
  | tables => deserializeTables order
  | fieldsType => deserializeFieldsType order
  | stringMap => deserializeStringMap order
  | scoreArray => deserializeScoreArray order

/-- Every length in the value is below 2 ^ 32. -/
def Fits : (kind : Kind) → kind.Value → Prop
  | str => StrFits
  | row => RowFits
  | table => TableFits
  | tables => TablesFit
  | fieldsType => FieldsTypeFits
  | stringMap => StringMapFits
  | scoreArray => ScoreArrayFits
  | _ => fun _ ↦ True

/-- Assumes: a value whose lengths fit. Whatever its kind, it is read as it was written. -/
theorem consumes (sender receiver : ByteOrder) (kind : Kind) (val : kind.Value)
    (hfits : kind.Fits val) :
    Consumes (kind.deserialize receiver) (kind.serialize sender val) val := by
  cases kind with
  | int8 => exact consumes_int8 val
  | int16 => exact consumes_int16 sender receiver val
  | int32 => exact consumes_int32 sender receiver val
  | int64 => exact consumes_int64 sender receiver val
  | uint8 => exact consumes_uint8 val
  | uint16 => exact consumes_uint16 sender receiver val
  | uint32 => exact consumes_uint32 sender receiver val
  | uint64 => exact consumes_uint64 sender receiver val
  | bool => exact consumes_bool val
  | double => exact consumes_uint64 sender receiver val
  | float => exact consumes_uint32 sender receiver val
  | str => exact consumes_str sender receiver val hfits
  | row => exact consumes_row sender receiver hfits
  | table => exact consumes_table sender receiver hfits
  | tables => exact consumes_tables sender receiver hfits
  | fieldsType => exact consumes_fieldsType sender receiver hfits
  | stringMap => exact consumes_stringMap sender receiver hfits
  | scoreArray => exact consumes_scoreArray sender receiver hfits

end Kind

/-- A value together with its kind. -/
abbrev TypedValue := (kind : Kind) × kind.Value

/-- What the helper holds after the values were serialized in order. -/
def serializeAll (order : ByteOrder) (vals : List TypedValue) : Bytes :=
  vals.flatMap fun val ↦ val.1.serialize order val.2

/-- The values that deserializing by a sequence of kinds gives. -/
def deserializeAll (order : ByteOrder) : List Kind → StateM Bytes (List TypedValue)
  | [] => pure []
  | kind :: kinds => do
    let val ← kind.deserialize order
    let vals ← deserializeAll order kinds
    pure (⟨kind, val⟩ :: vals)

theorem consumes_all (sender receiver : ByteOrder) (vals : List TypedValue)
    (hfits : ∀ val ∈ vals, val.1.Fits val.2) :
    Consumes (deserializeAll receiver (vals.map Sigma.fst)) (serializeAll sender vals) vals := by
  induction vals with
  | nil => exact consumes_pure []
  | cons val vals ih =>
    have hval := Kind.consumes sender receiver val.1 val.2 (hfits val List.mem_cons_self)
    have htail := ih fun other hmem ↦ hfits other (List.mem_cons_of_mem val hmem)
    exact hval.bind (htail.map (List.cons val))

/-- Assumes: values whose lengths fit. Any sequence of typed values, serialized in order and
followed by any bytes, is read back as the same values, and exactly the bytes that follow it are
left. -/
theorem deserializeAll_serializeAll (sender receiver : ByteOrder) (vals : List TypedValue)
    (tail : Bytes) (hfits : ∀ val ∈ vals, val.1.Fits val.2) :
    (deserializeAll receiver (vals.map Sigma.fst)).run (serializeAll sender vals ++ tail) =
      (vals, tail) :=
  consumes_all sender receiver vals hfits tail

/-- A map with one entry. -/
def singleMap : StringMap := (∅ : StringMap).insert [0x61#8] [0x00#8, 0x01#8]

/-- A list of tables with empty strings, rows and tables. -/
def sparseTables : DataTables := [[[[], [0x00#8]], []], []]

/-- A negative number, a map and a list of tables. -/
def mixedValues : List TypedValue :=
  [⟨.int16, (-2 : Int16)⟩, ⟨.stringMap, singleMap⟩, ⟨.tables, sparseTables⟩]

theorem deserializeAll_serializeAll_mixed :
    (deserializeAll .little (mixedValues.map Sigma.fst)).run
      (serializeAll .big mixedValues ++ [0x07#8]) = (mixedValues, [0x07#8]) := by
  refine deserializeAll_serializeAll .big .little mixedValues [0x07#8] ?_
  have hmap : StringMapFits singleMap := by
    have hlist : singleMap.toList = [([0x61#8], [0x00#8, 0x01#8])] := by decide
    rw [StringMapFits, hlist]
    simp [CountedFits, StrFits]
  have htables : TablesFit sparseTables := by
    simp [sparseTables, TablesFit, TableFits, RowFits, CountedFits, StrFits]
  rintro val (_ | ⟨_, _ | ⟨_, _ | ⟨_, hmem⟩⟩⟩)
  · trivial
  · exact hmap
  · exact htables
  · cases hmem

end TszyUlt.Fszm
