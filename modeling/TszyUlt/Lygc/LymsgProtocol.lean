import TszyUlt.Zbf.TcpMessage

/-!
# The lymsg header and its byte order

`lygc/lymsg_protocol.hpp`, built with `LYMSG_NETWORK_BYTE_ORDER`. The header is a packed structure
of five fields, twenty bytes in the memory of the host (`LymsgHeader.toMemory`,
`LymsgHeader.ofMemory`). `packMsg` writes a header in network order in front of a body and
`unpackMsg` reads it back. The model takes the byte order of the host as a parameter, so every
statement holds on little-endian and big-endian hosts.

The 16-bit and 32-bit fields go through `htons` and `htonl` and come back unchanged. The 64-bit
serial goes through the hand-written `htonll` and `ntohll`, which are not inverse: each takes the
word apart into two 32-bit halves, but `htonll` exchanges the halves and `ntohll` does not.
`ntohll_htonll` is the composite, the exchange of the two halves (`swapHalves`), and
`unpackMsg_packMsg` is what a receiver sees of a packed message. The round trip is the identity
exactly on serials whose halves are equal (`packMsg_roundTrip_iff`). A serial that travels to
another host and back is exchanged twice and arrives unchanged (`swapHalves_swapHalves`).
-/

set_option autoImplicit false
set_option relaxedAutoImplicit false

namespace TszyUlt.Lygc

open Lib Zbf

/-! ### The header in memory -/

/-- `lymsg_header`, in the order of its packed layout. -/
structure LymsgHeader where
  origin : BitVec 16
  reserve : BitVec 16
  type : BitVec 32
  serial : BitVec 64
  size : BitVec 32
  deriving DecidableEq, Repr

/-- `sizeof(lymsg_header)` under `#pragma pack(1)`. -/
def headerBytes : ℕ := 20

/-- The bytes of a header in the memory of the host. -/
def LymsgHeader.toMemory (order : ByteOrder) (header : LymsgHeader) : Bytes :=
  store order 2 header.origin ++ store order 2 header.reserve ++ store order 4 header.type ++
    store order 8 header.serial ++ store order 4 header.size

/-- The header that the first `headerBytes` bytes of the memory of the host hold. -/
def LymsgHeader.ofMemory (order : ByteOrder) (bytes : Bytes) : LymsgHeader where
  origin := load order 16 (bytes.take 2)
  reserve := load order 16 ((bytes.drop 2).take 2)
  type := load order 32 ((bytes.drop 4).take 4)
  serial := load order 64 ((bytes.drop 8).take 8)
  size := load order 32 ((bytes.drop 16).take 4)

@[simp] theorem length_toMemory (order : ByteOrder) (header : LymsgHeader) :
    (header.toMemory order).length = headerBytes := by
  simp [LymsgHeader.toMemory, headerBytes]

/-- A header is read field by field from the memory it was written to, by a host of either byte
order and whatever follows it. -/
theorem ofMemory_append (sender receiver : ByteOrder) (header : LymsgHeader) (rest : Bytes) :
    LymsgHeader.ofMemory receiver (header.toMemory sender ++ rest) =
      ⟨load receiver 16 (store sender 2 header.origin),
        load receiver 16 (store sender 2 header.reserve),
        load receiver 32 (store sender 4 header.type),
        load receiver 64 (store sender 8 header.serial),
        load receiver 32 (store sender 4 header.size)⟩ := by
  simp [LymsgHeader.ofMemory, LymsgHeader.toMemory, List.drop_append, List.drop_of_length_le]

theorem ofMemory_toMemory_append (order : ByteOrder) (header : LymsgHeader) (rest : Bytes) :
    LymsgHeader.ofMemory order (header.toMemory order ++ rest) = header := by
  simp [ofMemory_append, load_store]

/-! ### Byte order conversion -/

section Conversion

variable (order : ByteOrder)

/-- `htons`. -/
def htons (host : BitVec 16) : BitVec 16 := hostToNet order 2 host

/-- `ntohs`. -/
def ntohs (net : BitVec 16) : BitVec 16 := netToHost order 2 net

/-- `htonl`. -/
def htonl (host : BitVec 32) : BitVec 32 := hostToNet order 4 host

/-- `ntohl`. -/
def ntohl (net : BitVec 32) : BitVec 32 := netToHost order 4 net

/-- `htonll`: the converted low half becomes the high half. -/
def htonll (host : BitVec 64) : BitVec 64 :=
  let lo : BitVec 32 := (host &&& 0xFFFFFFFF#64).setWidth 32
  let hi : BitVec 32 := (host >>> 32).setWidth 32
  ((htonl order lo).setWidth 64 <<< 32) ||| (htonl order hi).setWidth 64

/-- `ntohll`: the converted high half stays the high half. -/
def ntohll (net : BitVec 64) : BitVec 64 :=
  let lo : BitVec 32 := (net &&& 0xFFFFFFFF#64).setWidth 32
  let hi : BitVec 32 := (net >>> 32).setWidth 32
  ((ntohl order hi).setWidth 64 <<< 32) ||| (ntohl order lo).setWidth 64

/-- `hton`: every field of a header to network order. -/
def hton (header : LymsgHeader) : LymsgHeader where
  origin := htons order header.origin
  reserve := htons order header.reserve
  type := htonl order header.type
  serial := htonll order header.serial
  size := htonl order header.size

/-- `ntoh`: every field of a header from network order. -/
def ntoh (header : LymsgHeader) : LymsgHeader where
  origin := ntohs order header.origin
  reserve := ntohs order header.reserve
  type := ntohl order header.type
  serial := ntohll order header.serial
  size := ntohl order header.size

@[simp] theorem ntohs_htons (host : BitVec 16) : ntohs order (htons order host) = host :=
  netToHost_hostToNet (n := 2) order rfl host

@[simp] theorem ntohl_htonl (host : BitVec 32) : ntohl order (htonl order host) = host :=
  netToHost_hostToNet (n := 4) order rfl host

end Conversion

/-! ### The two halves of a serial -/

/-- The low 32 bits of a 64-bit word. -/
def lowHalf (word : BitVec 64) : BitVec 32 := word.setWidth 32

/-- The high 32 bits of a 64-bit word. -/
def highHalf (word : BitVec 64) : BitVec 32 := (word >>> 32).setWidth 32

/-- The 64-bit word with the given high and low halves. -/
def ofHalves (high low : BitVec 32) : BitVec 64 := (high.setWidth 64 <<< 32) ||| low.setWidth 64

/-- A 64-bit word with its two 32-bit halves exchanged. -/
def swapHalves (word : BitVec 64) : BitVec 64 := ofHalves (lowHalf word) (highHalf word)

@[simp] theorem lowHalf_ofHalves (high low : BitVec 32) : lowHalf (ofHalves high low) = low := by
  apply BitVec.eq_of_getLsbD_eq
  intro i hi
  simp only [lowHalf, ofHalves, BitVec.getLsbD_setWidth, BitVec.getLsbD_or,
    BitVec.getLsbD_shiftLeft]
  have h64 : i < 64 := by omega
  simp [hi, h64]

@[simp] theorem highHalf_ofHalves (high low : BitVec 32) : highHalf (ofHalves high low) = high := by
  apply BitVec.eq_of_getLsbD_eq
  intro i hi
  simp only [highHalf, ofHalves, BitVec.getLsbD_setWidth, BitVec.getLsbD_or,
    BitVec.getLsbD_shiftLeft, BitVec.getLsbD_ushiftRight]
  have h64 : 32 + i < 64 := by omega
  have hword : i < 64 := by omega
  simp [hi, h64, hword]

theorem ofHalves_highHalf_lowHalf (word : BitVec 64) :
    ofHalves (highHalf word) (lowHalf word) = word :=
  or_halves word

@[simp] theorem swapHalves_swapHalves (word : BitVec 64) : swapHalves (swapHalves word) = word := by
  rw [swapHalves, swapHalves, lowHalf_ofHalves, highHalf_ofHalves, ofHalves_highHalf_lowHalf]

/-- Exchanging the halves of a word changes nothing exactly when they are equal. -/
theorem swapHalves_eq_self_iff (word : BitVec 64) :
    swapHalves word = word ↔ highHalf word = lowHalf word := by
  constructor
  · intro hswap
    have hhigh := congrArg highHalf hswap
    rw [swapHalves, highHalf_ofHalves] at hhigh
    exact hhigh.symm
  · intro hequal
    calc swapHalves word = ofHalves (highHalf word) (lowHalf word) := by rw [swapHalves, hequal]
      _ = word := ofHalves_highHalf_lowHalf word

/-- The mask keeps the low half of a word. -/
theorem setWidth_and_mask (word : BitVec 64) :
    (word &&& 0xFFFFFFFF#64).setWidth 32 = lowHalf word := by
  apply BitVec.eq_of_toNat_eq
  simp only [lowHalf, BitVec.toNat_setWidth, BitVec.toNat_and, BitVec.toNat_ofNat]
  have hmask : 4294967295 % 2 ^ 64 = 2 ^ 32 - 1 := by norm_num
  rw [hmask, Nat.and_two_pow_sub_one_eq_mod, Nat.mod_mod]

theorem htonll_eq (order : ByteOrder) (host : BitVec 64) :
    htonll order host = ofHalves (htonl order (lowHalf host)) (htonl order (highHalf host)) := by
  rw [htonll, setWidth_and_mask]
  rfl

theorem ntohll_eq (order : ByteOrder) (net : BitVec 64) :
    ntohll order net = ofHalves (ntohl order (highHalf net)) (ntohl order (lowHalf net)) := by
  rw [ntohll, setWidth_and_mask]
  rfl

/-- The two conversions of a 64-bit word compose to the exchange of its halves, on hosts of either
byte order. -/
theorem ntohll_htonll (order : ByteOrder) (host : BitVec 64) :
    ntohll order (htonll order host) = swapHalves host := by
  rw [htonll_eq, ntohll_eq, highHalf_ofHalves, lowHalf_ofHalves, ntohl_htonl, ntohl_htonl,
    swapHalves]

/-! ### Between hosts of different byte order -/

theorem toNat_ofHalves (high low : BitVec 32) :
    (ofHalves high low).toNat = low.toNat + 256 ^ 4 * high.toNat := by
  have hhigh := high.isLt
  have hlow := low.isLt
  rw [ofHalves, BitVec.toNat_or, BitVec.toNat_shiftLeft, BitVec.toNat_setWidth,
    BitVec.toNat_setWidth, Nat.mod_eq_of_lt (by omega), Nat.mod_eq_of_lt (by omega),
    Nat.shiftLeft_eq, Nat.mod_eq_of_lt (by omega), Nat.mul_comm, ← Nat.two_pow_add_eq_or_of_lt hlow]
  norm_num
  omega

/-- The bytes of a 64-bit word are those of its halves. -/
theorem store_ofHalves (order : ByteOrder) (high low : BitVec 32) :
    store order 8 (ofHalves high low) =
      match order with
      | .little => store .little 4 low ++ store .little 4 high
      | .big => store .big 4 high ++ store .big 4 low := by
  have hdigits : digitBytes 8 (ofHalves high low).toNat =
      digitBytes 4 low.toNat ++ digitBytes 4 high.toNat := by
    rw [toNat_ofHalves]
    exact digitBytes_add 4 4 high.toNat low.isLt
  cases order with
  | little => exact hdigits
  | big =>
    have hreverse := congrArg List.reverse hdigits
    rw [List.reverse_append] at hreverse
    exact hreverse

/-- The serial that a receiver reads when the sender wrote `serial`: its halves are exchanged
between hosts of the same byte order. -/
def carriedSerial (sender receiver : ByteOrder) (serial : BitVec 64) : BitVec 64 :=
  if sender = receiver then swapHalves serial else serial

/-- A serial that is sent back is read as it was written. -/
theorem carriedSerial_carriedSerial (sender receiver : ByteOrder) (serial : BitVec 64) :
    carriedSerial receiver sender (carriedSerial sender receiver serial) = serial := by
  cases sender <;> cases receiver <;> simp [carriedSerial]

theorem ntohll_load_store_htonll (sender receiver : ByteOrder) (serial : BitVec 64) :
    ntohll receiver (load receiver 64 (store sender 8 (htonll sender serial))) =
      carriedSerial sender receiver serial := by
  have hbig : ∀ word : BitVec 32, htonl .big word = word :=
    fun word ↦ load_store (n := 4) .big rfl word
  have hwire : ∀ word : BitVec 32, store .little 4 (htonl .little word) = store .big 4 word :=
    fun word ↦ store_hostToNet (n := 4) .little rfl word
  cases sender <;> cases receiver
  case little.little | big.big =>
    rw [load_store (n := 8) _ rfl, ntohll_htonll]
    rfl
  case little.big =>
    have hbytes : store .little 8 (htonll .little serial) = store .big 8 serial := by
      rw [htonll_eq, store_ofHalves]
      simp only [hwire]
      rw [← ofHalves_highHalf_lowHalf serial, store_ofHalves, lowHalf_ofHalves, highHalf_ofHalves]
    have hword : ∀ word : BitVec 32, ntohl .big word = word :=
      fun word ↦ load_store (n := 4) .big rfl word
    rw [hbytes, load_store (n := 8) .big rfl, ntohll_eq, hword, hword, ofHalves_highHalf_lowHalf]
    rfl
  case big.little =>
    have hbytes : store .big 8 (htonll .big serial) =
        store .little 8 (ofHalves (htonl .little (highHalf serial))
          (htonl .little (lowHalf serial))) := by
      rw [htonll_eq, store_ofHalves, store_ofHalves]
      simp only [hwire, hbig]
    rw [hbytes, load_store (n := 8) .little rfl, ntohll_eq, highHalf_ofHalves, lowHalf_ofHalves,
      ntohl_htonl, ntohl_htonl, ofHalves_highHalf_lowHalf]
    rfl

/-! ### Message types -/

/-- `LYMSG_TYPE_RESP`, the response flag. -/
def typeResp : BitVec 32 := 0x80000000#32

/-- `LYMSG_TYPE_ENC`, the encrypt flag. -/
def typeEnc : BitVec 32 := 0x40000000#32

/-- `LYMSG_TYPE_HANDSHAKE`. -/
def typeHandshake : BitVec 32 := 0x00000011#32

/-! ### Packing and unpacking -/

/-- `lymsg_helper::packMsg`: the header in network order, its size field set to the 32-bit length of
the body, followed by the body. -/
def packMsg (order : ByteOrder) (header : LymsgHeader) (data : Bytes) : TcpMessage where
  data := (hton order { header with size := BitVec.ofNat 32 data.length }).toMemory order ++ data

/-- `lymsg_helper::unpackMsg`: the header in host order and the bytes after it, or the error code
for a message shorter than a header. -/
def unpackMsg (order : ByteOrder) (msg : TcpMessage) : Except ℤ (LymsgHeader × Bytes) :=
  if msg.data.length < headerBytes then .error (-1)
  else .ok (ntoh order (LymsgHeader.ofMemory order msg.data), msg.data.drop headerBytes)

/-- `lymsg_protocol::type`. -/
def lymsgType (order : ByteOrder) (msg : TcpMessage) : BitVec 32 :=
  if msg.data.length < headerBytes then typeNaN
  else ntohl order (LymsgHeader.ofMemory order msg.data).type

/-- `lymsg_protocol::bodySize`. -/
def lymsgBodySize (order : ByteOrder) (msg : TcpMessage) : BitVec 32 :=
  if msg.data.length < headerBytes then 0
  else ntohl order (LymsgHeader.ofMemory order msg.data).size

/-- `lymsg_protocol::genHeartbeat`. -/
def lymsgHeartbeat (order : ByteOrder) : TcpMessage where
  data := (hton order ⟨0, 0, heartbeatType, 0, 0⟩).toMemory order

/-- `lymsg_protocol`. -/
def lymsgProtocol (order : ByteOrder) : TcpMessageProtocol where
  genHeartbeat := lymsgHeartbeat order
  isHeartbeat := fun msg ↦ lymsgType order msg == heartbeatType
  type := lymsgType order
  headerSize := BitVec.ofNat 32 headerBytes
  bodySize := lymsgBodySize order
  maxBodySize := defaultMaxBodySize

section RoundTrip

variable (order : ByteOrder) (header : LymsgHeader) (data : Bytes)

theorem length_packMsg : (packMsg order header data).data.length = headerBytes + data.length := by
  rw [packMsg, List.length_append, length_toMemory]

theorem ofMemory_packMsg :
    LymsgHeader.ofMemory order (packMsg order header data).data =
      hton order { header with size := BitVec.ofNat 32 data.length } :=
  ofMemory_toMemory_append order _ data

private theorem not_length_packMsg_lt :
    ¬ (packMsg order header data).data.length < headerBytes := by
  rw [length_packMsg]
  omega

theorem lymsgType_packMsg : lymsgType order (packMsg order header data) = header.type := by
  rw [lymsgType, if_neg (not_length_packMsg_lt order header data), ofMemory_packMsg]
  exact ntohl_htonl order header.type

theorem lymsgBodySize_packMsg :
    lymsgBodySize order (packMsg order header data) = BitVec.ofNat 32 data.length := by
  rw [lymsgBodySize, if_neg (not_length_packMsg_lt order header data), ofMemory_packMsg]
  exact ntohl_htonl order _

/-- What a receiver reads from a packed message: every field, with the serial as it is carried and
the size set, and the body. -/
theorem unpackMsg_packMsg (receiver : ByteOrder) :
    unpackMsg receiver (packMsg order header data) =
      .ok ({ header with
        serial := carriedSerial order receiver header.serial
        size := BitVec.ofNat 32 data.length }, data) := by
  have hbody : (packMsg order header data).data.drop headerBytes = data := by
    rw [packMsg, List.drop_left' (length_toMemory order _)]
  have hshort : ∀ word : BitVec 16,
      ntohs receiver (load receiver 16 (store order 2 (htons order word))) = word :=
    netToHost_load_store_hostToNet (n := 2) order receiver rfl
  have hword : ∀ word : BitVec 32,
      ntohl receiver (load receiver 32 (store order 4 (htonl order word))) = word :=
    netToHost_load_store_hostToNet (n := 4) order receiver rfl
  have hheader : ntoh receiver (LymsgHeader.ofMemory receiver (packMsg order header data).data) =
      { header with
        serial := carriedSerial order receiver header.serial
        size := BitVec.ofNat 32 data.length } := by
    rw [packMsg, ofMemory_append, ntoh]
    simp only [hton, hshort, hword, ntohll_load_store_htonll]
  rw [unpackMsg, if_neg (not_length_packMsg_lt order header data), hheader, hbody]

/-- The round trip of one message: the protocol reads the length of the body and the type of the
header off the packed message, and unpacking returns the body and the header, in every field but the
size, which is the length of the body. -/
def RoundTrips : Prop :=
  ((lymsgProtocol order).bodySize (packMsg order header data)).toNat = data.length ∧
    (lymsgProtocol order).type (packMsg order header data) = header.type ∧
    (∃ received : LymsgHeader, unpackMsg order (packMsg order header data) = .ok (received, data) ∧
      received.origin = header.origin ∧ received.reserve = header.reserve ∧
      received.type = header.type ∧ received.serial = header.serial ∧
      received.size.toNat = data.length) ∧
    ntohll order (htonll order header.serial) = header.serial

/-- Assumes: a body shorter than 4 GiB. A packed message round-trips exactly when the two 32-bit
halves of its serial are equal. -/
theorem packMsg_roundTrip_iff (hdata : data.length < 2 ^ 32) :
    RoundTrips order header data ↔ highHalf header.serial = lowHalf header.serial := by
  have hsize : (BitVec.ofNat 32 data.length).toNat = data.length := by
    rw [BitVec.toNat_ofNat, Nat.mod_eq_of_lt hdata]
  rw [← swapHalves_eq_self_iff]
  constructor
  · intro htrip
    rw [← ntohll_htonll order header.serial]
    exact htrip.2.2.2
  · intro hserial
    refine ⟨?_, lymsgType_packMsg order header data, ⟨_, unpackMsg_packMsg order header data order,
      rfl, rfl, rfl, (if_pos rfl).trans hserial, hsize⟩, ?_⟩
    · show (lymsgBodySize order (packMsg order header data)).toNat = data.length
      rw [lymsgBodySize_packMsg, hsize]
    · rw [ntohll_htonll, hserial]

end RoundTrip

/-- A header with serial `0x0000000700000007` and a three-byte body round-trips. -/
theorem packMsg_roundTrip_equal_halves :
    RoundTrips .little ⟨1, 0, 0x21#32, 0x0000000700000007#64, 0⟩ [1#8, 2#8, 3#8] :=
  (packMsg_roundTrip_iff .little ⟨1, 0, 0x21#32, 0x0000000700000007#64, 0⟩ [1#8, 2#8, 3#8]
    (by decide)).mpr (by decide)

/-- Serial one is read back as `2 ^ 32`. -/
theorem not_roundTrips_serial_one :
    ¬ RoundTrips .little ⟨1, 0, 0x21#32, 1#64, 0⟩ [] := by
  intro htrip
  have hserial := htrip.2.2.2
  rw [ntohll_htonll] at hserial
  exact absurd hserial (by decide)

end TszyUlt.Lygc
