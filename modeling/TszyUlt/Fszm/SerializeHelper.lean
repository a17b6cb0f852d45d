import TszyUlt.Zbf.TcpMessage

/-!
# Serialized values

`fszm/serialize_helper.hpp`, as far as the handshake uses it: bytes, 32-bit words in network order,
and strings with a 32-bit length in front. A deserializer takes its value off the front of the
buffer of the helper; it is a function of this state. One that finds too few bytes returns zero or
an empty string and leaves what it could not read.

`Consumes` says that a deserializer reads a value from given bytes, whatever follows them, and
`Consumes.bind` that deserializers compose as the bytes do. `consumes_uint8`, `consumes_uint32` and
`consumes_str` are the round trips of the three kinds of values.
-/

set_option autoImplicit false
set_option relaxedAutoImplicit false

namespace TszyUlt.Fszm

open Lib Zbf

/-! ### Deserializers -/

variable {α β : Type}

/-- The deserializer reads the value from these bytes and leaves what follows them. -/
def Consumes (reader : StateM Bytes α) (bytes : Bytes) (value : α) : Prop :=
  ∀ rest, reader.run (bytes ++ rest) = (value, rest)

/-- The second of two deserializers is run on what the first leaves. -/
theorem run_bind (first : StateM Bytes α) (second : α → StateM Bytes β) (buffer : Bytes) :
    (first >>= second).run buffer = (second (first.run buffer).1).run (first.run buffer).2 := rfl

theorem Consumes.run_bind {first : StateM Bytes α} {second : α → StateM Bytes β} {bytes : Bytes}
    {value : α} (hfirst : Consumes first bytes value) (rest : Bytes) :
    (first >>= second).run (bytes ++ rest) = (second value).run rest := by
  rw [Fszm.run_bind, hfirst]

theorem Consumes.bind {first : StateM Bytes α} {second : α → StateM Bytes β} {bytes bytes' : Bytes}
    {value : α} {value' : β} (hfirst : Consumes first bytes value)
    (hsecond : Consumes (second value) bytes' value') :
    Consumes (first >>= second) (bytes ++ bytes') value' := by
  intro rest
  rw [List.append_assoc, hfirst.run_bind]
  exact hsecond rest

/-- A deserializer whose second part reads nothing. -/
theorem Consumes.bind_nil {first : StateM Bytes α} {second : α → StateM Bytes β} {bytes : Bytes}
    {value : α} {value' : β} (hfirst : Consumes first bytes value)
    (hsecond : Consumes (second value) [] value') : Consumes (first >>= second) bytes value' := by
  rw [← List.append_nil bytes]
  exact hfirst.bind hsecond

theorem consumes_pure (value : α) : Consumes (pure value) [] value := fun _ ↦ rfl

theorem Consumes.map {first : StateM Bytes α} {bytes : Bytes} {value : α}
    (hfirst : Consumes first bytes value) (f : α → β) :
    Consumes (first >>= fun read ↦ pure (f read)) bytes (f value) :=
  hfirst.bind_nil (consumes_pure (f value))

/-- The value that a deserializer reads from a buffer that holds nothing else. -/
theorem Consumes.run' {reader : StateM Bytes α} {bytes : Bytes} {value : α}
    (hconsumes : Consumes reader bytes value) : (reader.run bytes).1 = value := by
  have hrun := hconsumes []
  rw [List.append_nil] at hrun
  rw [hrun]

/-- Whatever the buffer holds, the value that the deserializer gives has the property. -/
def Yields (reader : StateM Bytes α) (property : α → Prop) : Prop :=
  ∀ buffer, property (reader.run buffer).1

theorem Yields.bind {first : StateM Bytes α} {second : α → StateM Bytes β} {property : β → Prop}
    (hsecond : ∀ value, Yields (second value) property) : Yields (first >>= second) property :=
  fun buffer ↦ hsecond (first.run buffer).1 (first.run buffer).2

theorem yields_pure {value : α} {property : α → Prop} (hvalue : property value) :
    Yields (pure value) property := fun _ ↦ hvalue

/-! ### The helper -/

/-- `serialize_uint8`. -/
def serializeUint8 (val : BitVec 8) : Bytes := [val]

/-- `deserialize_uint8`. -/
def deserializeUint8 : StateM Bytes (BitVec 8) := fun buffer ↦
  match buffer with
  | [] => (0, [])
  | val :: rest => (val, rest)

section Words

variable (order : ByteOrder)

/-- `serialize_uint32`. -/
def serializeUint32 (val : BitVec 32) : Bytes := store order 4 (hostToNet order 4 val)

/-- `deserialize_uint32`. -/
def deserializeUint32 : StateM Bytes (BitVec 32) := fun buffer ↦
  if buffer.length < 4 then (0, buffer)
  else (netToHost order 4 (load order 32 (buffer.take 4)), buffer.drop 4)

/-- `serialize_str`. -/
def serializeStr (data : Bytes) : Bytes :=
  serializeUint32 order (BitVec.ofNat 32 data.length) ++ data

/-- `deserialize_str`. -/
def deserializeStr : StateM Bytes Bytes := do
  let size ← deserializeUint32 order
  fun buffer ↦
    if buffer.length < size.toNat then ([], buffer)
    else (buffer.take size.toNat, buffer.drop size.toNat)

end Words

theorem consumes_uint8 (val : BitVec 8) : Consumes deserializeUint8 (serializeUint8 val) val :=
  fun _ ↦ rfl

/-- A word is read as it was written, by hosts of either byte order. -/
theorem consumes_uint32 (sender receiver : ByteOrder) (val : BitVec 32) :
    Consumes (deserializeUint32 receiver) (serializeUint32 sender val) val := by
  intro rest
  have hlength : (serializeUint32 sender val).length = 4 := length_store sender 4 _
  have hword : netToHost receiver 4 (load receiver 32 (serializeUint32 sender val)) = val :=
    netToHost_load_store_hostToNet (n := 4) sender receiver rfl val
  show (if (serializeUint32 sender val ++ rest).length < 4 then _ else _) = _
  rw [if_neg (by rw [List.length_append, hlength]; omega), List.take_left' hlength,
    List.drop_left' hlength, hword]

/-- Whatever the length of a string, the front of it that its length field announces is read. -/
theorem consumes_str_front (sender receiver : ByteOrder) (data : Bytes) :
    Consumes (deserializeStr receiver)
      (serializeUint32 sender (BitVec.ofNat 32 data.length) ++ data.take (data.length % 2 ^ 32))
      (data.take (data.length % 2 ^ 32)) := by
  refine (consumes_uint32 sender receiver (BitVec.ofNat 32 data.length)).bind fun rest ↦ ?_
  have hfront : (data.take (data.length % 2 ^ 32)).length = data.length % 2 ^ 32 :=
    List.length_take_of_le (Nat.mod_le _ _)
  show (if (data.take (data.length % 2 ^ 32) ++ rest).length < _ then _ else _) = _
  rw [BitVec.toNat_ofNat, if_neg (by rw [List.length_append, hfront]; omega),
    List.take_left' hfront, List.drop_left' hfront]

/-- A string is written as the front that its length field announces, and what is left of it. -/
theorem serializeStr_eq_front (sender : ByteOrder) (data : Bytes) :
    serializeStr sender data =
      (serializeUint32 sender (BitVec.ofNat 32 data.length) ++ data.take (data.length % 2 ^ 32)) ++
        data.drop (data.length % 2 ^ 32) := by
  rw [serializeStr, List.append_assoc, List.take_append_drop]

/-- The length field of a string of 4 GiB announces nothing. -/
theorem take_front_ne {data : Bytes} (hlength : data.length = 2 ^ 32) :
    data.take (data.length % 2 ^ 32) ≠ data := by
  rw [hlength, Nat.mod_self, List.take_zero]
  intro hnil
  rw [← hnil] at hlength
  cases hlength

/-- Assumes: a string shorter than 4 GiB. It is read as it was written. -/
theorem consumes_str (sender receiver : ByteOrder) (data : Bytes) (hdata : data.length < 2 ^ 32) :
    Consumes (deserializeStr receiver) (serializeStr sender data) data := by
  have hfront := consumes_str_front sender receiver data
  rw [Nat.mod_eq_of_lt hdata, List.take_length] at hfront
  exact hfront

end TszyUlt.Fszm
