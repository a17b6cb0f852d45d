import TszyUlt.Zbf.RecvPath

/-!
# Messages of the default protocol, generated and received

`zbf/tcp_message.hpp`: `default_msg_proto::genMessage`, and what `type`, `bodySize` and `_PopMsg`
make of its message. The header is one word, with the type in its high byte and the size of the body
in the other three (`header`). `genMessage` accepts a body of `MaxBodySize` bytes, and this is one
byte more than three bytes can count.

`header_toNat` is the word as long as the two parts do not overlap, and `extractUint32_build` that
every host reads the word that the sender wrote. `genMessage_received_iff` says of every accepted
body that its message is received as it was generated exactly if the size fits into three bytes.
-/

set_option autoImplicit false
set_option relaxedAutoImplicit false

namespace TszyUlt.Zbf

open Lib

namespace DefaultMsgProto

/-- The word in front of a message. -/
def header (type : BitVec 8) (size : ℕ) : BitVec 32 :=
  (type.setWidth 32 <<< 24) ||| BitVec.ofNat 32 size

/-! ### The parts of the header -/

/-- Assumes: a size of three bytes. The two parts of the header do not overlap. -/
theorem header_toNat (type : BitVec 8) {size : ℕ} (hsize : size < 2 ^ 24) :
    (header type size).toNat = 2 ^ 24 * type.toNat + size := by
  have htype : type.toNat < 256 := type.isLt
  have hshift : (type.setWidth 32 <<< 24).toNat = 2 ^ 24 * type.toNat := by
    rw [BitVec.toNat_shiftLeft, BitVec.toNat_setWidth, Nat.shiftLeft_eq]
    omega
  have hlow : (BitVec.ofNat 32 size).toNat = size := by
    rw [BitVec.toNat_ofNat]
    omega
  rw [header, BitVec.toNat_or, hshift, hlow, ← Nat.two_pow_add_eq_or_of_lt hsize]

theorem low_toNat (word : BitVec 32) : (word &&& 0xFFFFFF#32).toNat = word.toNat % 2 ^ 24 := by
  rw [BitVec.toNat_and]
  exact Nat.and_two_pow_sub_one_eq_mod word.toNat 24

theorem high_toNat (word : BitVec 32) :
    ((word &&& 0xFF000000#32) >>> 24).toNat = word.toNat / 2 ^ 24 := by
  have hword : word.toNat < 2 ^ 32 := word.isLt
  have hmask : (0xFF000000#32).toNat >>> 24 = 2 ^ 8 - 1 := by decide
  rw [BitVec.toNat_ushiftRight, BitVec.toNat_and, Nat.shiftRight_and_distrib, hmask,
    Nat.and_two_pow_sub_one_eq_mod, Nat.shiftRight_eq_div_pow]
  omega

/-- The low bits of a header whose size is the limit announce no body. -/
theorem header_limit_low (type : BitVec 8) :
    (header type defaultMaxBodySize.toNat &&& 0xFFFFFF#32).toNat = 0 := by
  have hlow : header type defaultMaxBodySize.toNat &&& 0xFFFFFF#32 = 0#32 := by
    revert type
    decide
  rw [hlow]
  rfl

variable {sender receiver : ByteOrder} {type : BitVec 8} {body : Bytes} {msg : TcpMessage}

/-! ### The message on the wire -/

theorem build_data (sender : ByteOrder) (type : BitVec 8) (body : Bytes) :
    (build sender type body).data =
      store sender 4 (hostToNet sender 4 (header type body.length)) ++ body := rfl

theorem length_build (sender : ByteOrder) (type : BitVec 8) (body : Bytes) :
    (build sender type body).data.length = 4 + body.length := by
  rw [build_data, List.length_append, length_store]

/-- Every host reads the header that the sender wrote, whatever follows it. -/
theorem extractUint32_header (sender receiver : ByteOrder) (word : BitVec 32) (rest : Bytes) :
    extractUint32 receiver (store sender 4 (hostToNet sender 4 word) ++ rest) = word := by
  have hlength : ¬ (store sender 4 (hostToNet sender 4 word) ++ rest).length < 4 := by
    rw [List.length_append, length_store]
    omega
  have htake : (store sender 4 (hostToNet sender 4 word) ++ rest).take 4 =
      store sender 4 (hostToNet sender 4 word) :=
    List.take_left' (length_store sender 4 _)
  rw [extractUint32, if_neg hlength, htake, netToHost_load_store_hostToNet sender receiver rfl]

theorem type_build (sender receiver : ByteOrder) (hsize : body.length < 2 ^ 24) :
    DefaultMsgProto.type receiver (build sender type body) = type.setWidth 32 := by
  have htype : type.toNat < 256 := type.isLt
  have hlong : ¬ (build sender type body).data.length < 4 := by
    rw [length_build]
    omega
  rw [DefaultMsgProto.type, if_neg hlong, build_data, extractUint32_header]
  apply BitVec.eq_of_toNat_eq
  rw [high_toNat, header_toNat type hsize, BitVec.toNat_setWidth]
  omega

/-- What the header of a message announces, with or without the body behind it. -/
theorem bodySize_header (sender receiver : ByteOrder) (word : BitVec 32) (rest : Bytes) :
    bodySize receiver ⟨store sender 4 (hostToNet sender 4 word) ++ rest⟩ =
      word &&& 0xFFFFFF#32 := by
  have hlong : ¬ (store sender 4 (hostToNet sender 4 word) ++ rest).length < 4 := by
    rw [List.length_append, length_store]
    omega
  rw [bodySize, if_neg hlong, extractUint32_header]

theorem bodySize_build (sender receiver : ByteOrder) (hsize : body.length < 2 ^ 24) :
    (bodySize receiver (build sender type body)).toNat = body.length := by
  have hheader := bodySize_header sender receiver (header type body.length) body
  rw [← build_data] at hheader
  rw [hheader, low_toNat, header_toNat type hsize, Nat.mul_add_mod, Nat.mod_eq_of_lt hsize]

/-- The header of a body of the limit announces an empty body. -/
theorem bodySize_build_limit (sender receiver : ByteOrder)
    (hlimit : body.length = defaultMaxBodySize.toNat) :
    (bodySize receiver (build sender type body)).toNat = 0 := by
  have hheader := bodySize_header sender receiver (header type body.length) body
  rw [← build_data, hlimit] at hheader
  rw [hheader, header_limit_low]

/-- Assumes: a size of three bytes. The message is cut off the stream it begins. -/
theorem nextMsg_build (sender receiver : ByteOrder) (hsize : body.length < 2 ^ 24) (rest : Bytes) :
    nextMsg (defaultMsgProto receiver) ((build sender type body).data ++ rest) =
      (some (build sender type body).data, rest) := by
  have hlength := length_build sender type body
  have hheaderSz : (defaultMsgProto receiver).headerSize.toNat = 4 := rfl
  have hpeek : ((defaultMsgProto receiver).bodySize
      ⟨((build sender type body).data ++ rest).take 4⟩).toNat = body.length := by
    have htake : ((build sender type body).data ++ rest).take 4 =
        store sender 4 (hostToNet sender 4 (header type body.length)) ++ [] := by
      rw [build_data, List.append_assoc, List.take_left' (length_store sender 4 _), List.append_nil]
    rw [htake]
    refine (congrArg BitVec.toNat (bodySize_header sender receiver _ [])).trans ?_
    rw [low_toNat, header_toNat type hsize, Nat.mul_add_mod, Nat.mod_eq_of_lt hsize]
  have hlimit : ¬ body.length > (defaultMsgProto receiver).maxBodySize.toNat := by
    have hmax : (defaultMsgProto receiver).maxBodySize.toNat = 2 ^ 24 := rfl
    omega
  have htotal : (4 + body.length) % 2 ^ 32 = (build sender type body).data.length := by
    rw [hlength]
    exact Nat.mod_eq_of_lt (by omega)
  have hshort : ¬ ((build sender type body).data ++ rest).length < 4 := by
    rw [List.length_append, hlength]
    omega
  have hcomplete : ((build sender type body).data ++ rest).length ≥
      (build sender type body).data.length := by
    rw [List.length_append]
    exact Nat.le_add_right _ _
  simp only [nextMsg, hheaderSz, if_neg hshort, hpeek, if_neg hlimit, htotal, if_pos hcomplete,
    List.take_left, List.drop_left]

/-! ### What is received -/

/-- A message is received as it was generated: its type and its size are read off it, the bytes
after the header are the body, and `_PopMsg` cuts it off a cache that it begins. -/
structure Received (receiver : ByteOrder) (type : BitVec 8) (body : Bytes) (msg : TcpMessage) :
    Prop where
  type_eq : DefaultMsgProto.type receiver msg = type.setWidth 32
  bodySize_eq : (bodySize receiver msg).toNat = body.length
  body_eq : msg.data.drop (defaultMsgProto receiver).headerSize.toNat = body
  popMsg_eq : ∀ (recvCache : Memchunk) (rest : Bytes), recvCache.Holds (msg.data ++ rest) →
    (popMsg (defaultMsgProto receiver) recvCache).1 = some msg ∧
      (popMsg (defaultMsgProto receiver) recvCache).2.Holds rest

theorem received_build (sender receiver : ByteOrder) (type : BitVec 8)
    (hsize : body.length < 2 ^ 24) : Received receiver type body (build sender type body) where
  type_eq := type_build sender receiver hsize
  bodySize_eq := bodySize_build sender receiver hsize
  body_eq := List.drop_left' (length_store sender 4 _)
  popMsg_eq := by
    intro recvCache rest hholds
    obtain ⟨hmsg, hrest, -⟩ := popMsg_spec (defaultMsgProto receiver) hholds
    rw [nextMsg_build sender receiver hsize rest] at hmsg hrest
    obtain ⟨popped, hpopped, hdata⟩ := Option.map_eq_some_iff.mp hmsg
    rw [hpopped, data_injective hdata]
    exact ⟨rfl, hrest⟩

/-- Every accepted body is at most one byte longer than the header can say. -/
theorem genMessage_eq_some (hgen : genMessage sender type body = some msg) :
    msg = build sender type body ∧
      (body.length < 2 ^ 24 ∨ body.length = defaultMaxBodySize.toNat) := by
  rw [genMessage, ite_eq_iff] at hgen
  rcases hgen with ⟨-, hnone⟩ | ⟨hle, hsome⟩
  · cases hnone
  · have hmax : defaultMaxBodySize.toNat = 2 ^ 24 := rfl
    exact ⟨(Option.some.inj hsome).symm, by omega⟩

/-- For every type, every body that `genMessage` accepts and every host that receives the message:
the message is received as it was generated exactly if the size of the body is below `2 ^ 24`. -/
theorem genMessage_received_iff (hgen : genMessage sender type body = some msg)
    (receiver : ByteOrder) : Received receiver type body msg ↔ body.length < 2 ^ 24 := by
  obtain ⟨rfl, hsize | hlimit⟩ := genMessage_eq_some hgen
  · exact iff_of_true (received_build sender receiver type hsize) hsize
  · have hmax : defaultMaxBodySize.toNat = 2 ^ 24 := rfl
    refine iff_of_false (fun hreceived ↦ ?_) (by omega)
    have hannounced := hreceived.bodySize_eq
    rw [bodySize_build_limit sender receiver hlimit] at hannounced
    omega

/-- A body of two bytes is generated with type 7 and received. -/
theorem genMessage_received_two :
    ∃ msg, genMessage .little 7#8 [1#8, 2#8] = some msg ∧
      (Received .big 7#8 [1#8, 2#8] msg ↔ [1#8, 2#8].length < 2 ^ 24) :=
  ⟨build .little 7#8 [1#8, 2#8], by decide,
    @genMessage_received_iff .little 7#8 [1#8, 2#8] _ (by decide) .big⟩

/-- A body of `MaxBodySize` zero bytes is accepted, and its message announces an empty one. -/
theorem genMessage_limit_lost :
    ∃ msg, genMessage .little 2#8 (List.replicate 16777216 0#8) = some msg ∧
      (bodySize .little msg).toNat = 0 ∧
      ¬ Received .little 2#8 (List.replicate 16777216 0#8) msg := by
  have hlimit : (List.replicate 16777216 0#8).length = defaultMaxBodySize.toNat :=
    List.length_replicate
  have hannounced := @bodySize_build_limit 2#8 _ .little .little hlimit
  refine ⟨build .little 2#8 (List.replicate 16777216 0#8), ?_, hannounced, fun hreceived ↦ ?_⟩
  · rw [genMessage, if_neg (by rw [hlimit]; exact lt_irrefl _)]
  · have hsize := hreceived.bodySize_eq
    rw [hannounced, hlimit] at hsize
    exact absurd hsize (by decide)

end DefaultMsgProto

end TszyUlt.Zbf
