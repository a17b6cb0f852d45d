import Mathlib.Data.List.TakeDrop
import TszyUlt.Lib.Base64
import TszyUlt.Zbf.TcpMessage

/-!
# The base64 wrappers

`base64_encode` and `base64_decode` of `fszm/openssl_utils_v2.hpp`, over the block functions of
OpenSSL.

`base64_decode` counts the padding at the end of its text and shortens what `EVP_DecodeBlock`
returns by it. It does not look at the result -1 of a malformed text, so it resizes its string to a
negative size, and `std::string` throws. `base64_iff` says that this is all that goes wrong with
texts below 2 GiB, that the round trip holds for every string whose encoded length an `int` holds,
and exactly when a longer text is decoded.

Scope. The block functions are a parameter, and `Base64Sound` is what is assumed of them: standard
base64 in one direction, and in the other that the text is trimmed and then read group by group.
Which texts are malformed is left to OpenSSL, as long as it accepts what it wrote. The functions
over a `BIO` are not modelled, and memory does not run out.
-/

set_option autoImplicit false
set_option relaxedAutoImplicit false

namespace TszyUlt.Fszm

open Lib Zbf

/-- The block functions of OpenSSL. -/
structure EvpBase64 where
  /-- `EVP_EncodeBlock`: the text for so many bytes. -/
  encodeBlock : Bytes → ℤ → Bytes
  /-- `EVP_DecodeBlock`: the bytes of so many characters, `none` for the result -1. -/
  decodeBlock : Bytes → ℤ → Option Bytes

/-! ### Strings -/

/-- `std::string(size, '\0')`, which throws for a negative size. -/
def zeroString (size : ℤ) : Option Bytes :=
  if size < 0 then none else some (List.replicate size.toNat 0)

/-- A string after `data` was written to its front, or `none` if `data` does not fit. -/
def writeFront (out data : Bytes) : Option Bytes :=
  if out.length < data.length then none else some (writeAt out 0 data)

/-- `std::string::resize`, which throws for a negative size. -/
def resizeString (out : Bytes) (size : ℤ) : Option Bytes :=
  if size < 0 then none else some (out.takeD size.toNat 0)

/-! ### The wrappers -/

/-- `EVP_ENCODE_LENGTH`. -/
def encodeLength (length : ℕ) : ℕ := (length + 2) / 3 * 4 + (length / 48 + 1) * 2 + 80

/-- `EVP_DECODE_LENGTH`. -/
def decodeLength (length : ℕ) : ℕ := (length + 3) / 4 * 3 + 80

/-- `base64_encode`, `none` if it throws or writes past the end of its string. -/
def base64Encode (evp : EvpBase64) (input : Bytes) : Option Bytes :=
  if input = [] then some []
  else do
    let out ← zeroString (asInt32 (encodeLength input.length))
    let text := evp.encodeBlock input (asInt32 input.length)
    let out ← resizeString (← writeFront out text) text.length
    some (if out.getLast? = some 0x0A then out.dropLast else out)

/-- How many of the last two characters of a text are `=`. -/
def tailPadding (input : Bytes) : ℕ :=
  (if input.getLast? = some Base64.pad then 1 else 0) +
    if 2 ≤ input.length ∧ input[input.length - 2]? = some Base64.pad then 1 else 0

/-- `base64_decode`, `none` if it throws or writes past the end of its string. -/
def base64Decode (evp : EvpBase64) (input : Bytes) : Option Bytes :=
  if input = [] then some []
  else do
    let padding := tailPadding input
    let out ← zeroString (asInt32 (decodeLength input.length))
    match evp.decodeBlock input (asInt32 input.length) with
    -- The result -1 is a length like any other, and the string that was made for it is resized.
    | none => resizeString out (-1 - padding)
    | some bytes => resizeString (← writeFront out bytes) (bytes.length - padding)

/-- A string comes back from the two wrappers. -/
def RoundTrips (evp : EvpBase64) (input : Bytes) : Prop :=
  (base64Encode evp input).bind (base64Decode evp) = some input

/-- A text is decoded to at most three bytes for four of its characters, the last ones rounded
up. -/
def DecodesWithin (evp : EvpBase64) (input : Bytes) : Prop :=
  ∃ out, base64Decode evp input = some out ∧ out.length ≤ 3 * ((input.length + 3) / 4)

/-- What is assumed of the block functions. -/
structure Base64Sound (evp : EvpBase64) : Prop where
  /-- `EVP_EncodeBlock` writes the base64 of so many bytes, of none for a negative length. -/
  encodeBlock_eq : ∀ data length, length ≤ data.length →
    evp.encodeBlock data length = Base64.encode (data.take length.toNat)
  /-- `EVP_DecodeBlock` accepts base64. -/
  decodeBlock_encode : ∀ data, (Base64.encode data).length < 2 ^ 31 →
    evp.decodeBlock (Base64.encode data) (Base64.encode data).length ≠ none
  /-- What `EVP_DecodeBlock` accepts are groups, between characters that it trims and that are
  neither symbols nor padding. It returns the bytes of these groups. -/
  decodeBlock_some : ∀ text length bytes, length ≤ text.length →
    evp.decodeBlock text length = some bytes →
      ∃ front body back, text.take length.toNat = front ++ body ++ back ∧
        (∀ char ∈ front ++ back, Base64.sextet char = none) ∧ Base64.decode body = some bytes

/-- The texts that `base64_decode` decodes: those that `EVP_DecodeBlock` accepts, as long as the
text is shorter than 2 GiB or the lengths happen to fit. -/
def Decodable (evp : EvpBase64) (input : Bytes) : Prop :=
  input = [] ∨ ∃ bytes, evp.decodeBlock input (asInt32 input.length) = some bytes ∧
    (input.length < 2 ^ 31 ∨
      ((bytes.length : ℤ) ≤ asInt32 (decodeLength input.length) ∧
        tailPadding input ≤ bytes.length))

/-! ### Strings that are written and shortened -/

theorem zeroString_of_neg {size : ℤ} (hneg : size < 0) : zeroString size = none := if_pos hneg

theorem resizeString_of_neg {size : ℤ} (hneg : size < 0) (out : Bytes) :
    resizeString out size = none :=
  if_pos hneg

theorem zeroString_natCast (size : ℕ) : zeroString size = some (List.replicate size 0) :=
  if_neg (by omega)

theorem writeFront_of_lt {size : ℕ} {data : Bytes} (hover : size < data.length) :
    writeFront (List.replicate size 0) data = none :=
  if_pos (by rwa [List.length_replicate])

/-- Assumes: data that fits. It is written to the front of a string of zeros, and a part of it
kept. -/
theorem resizeString_writeFront {size kept : ℕ} {data : Bytes} (hfits : data.length ≤ size)
    (hkept : kept ≤ data.length) :
    (writeFront (List.replicate size 0) data).bind (fun out ↦ resizeString out kept) =
      some (data.take kept) := by
  have hroom : ¬(List.replicate size (0 : Byte)).length < data.length := by
    rw [List.length_replicate]
    omega
  have hwritten : writeAt (List.replicate size 0) 0 data =
      data ++ (List.replicate size 0).drop (0 + data.length) := by
    rw [writeAt, List.take_zero, List.nil_append]
  have hlength : kept ≤ (writeAt (List.replicate size 0) 0 data).length := by
    rw [hwritten, List.length_append]
    omega
  rw [writeFront, if_neg hroom, Option.bind_some, resizeString, if_neg (by omega),
    Int.toNat_natCast, List.takeD_eq_take _ hlength, hwritten,
    List.take_append_of_le_length hkept]

/-! ### What the wrappers return -/

section

variable {evp : EvpBase64}

/-- The text of a string does not end with a newline. -/
theorem getLast?_encode_ne_newline (data : Bytes) :
    (Base64.encode data).getLast? ≠ some 0x0A := by
  intro hlast
  exact Base64.sextet_of_mem_encode (List.mem_of_getLast? hlast) (by decide)

/-- Assumes: a string that is not empty. Its text, if the string that is made for it has room. -/
theorem base64Encode_eq (hsound : Base64Sound evp) {input : Bytes} (hne : input ≠ []) :
    base64Encode evp input =
      if ((Base64.encode (input.take (asInt32 input.length).toNat)).length : ℤ) ≤
          asInt32 (encodeLength input.length)
      then some (Base64.encode (input.take (asInt32 input.length).toNat)) else none := by
  rw [base64Encode, if_neg hne]
  simp only [hsound.encodeBlock_eq _ _ (asInt32_le _), Option.bind_eq_bind]
  generalize htext : Base64.encode (input.take (asInt32 input.length).toNat) = text
  rcases lt_or_ge (asInt32 (encodeLength input.length)) 0 with hneg | hnonneg
  · rw [zeroString_of_neg hneg, Option.bind_none, if_neg (by omega)]
  · obtain ⟨size, hsize⟩ := Int.eq_ofNat_of_zero_le hnonneg
    rw [hsize, zeroString_natCast, Option.bind_some]
    rcases Nat.lt_or_ge size text.length with hover | hfits
    · rw [writeFront_of_lt hover, Option.bind_none, if_neg (by omega)]
    · have hlast : text.getLast? ≠ some 0x0A := htext ▸ getLast?_encode_ne_newline _
      rw [← Option.bind_assoc, resizeString_writeFront hfits le_rfl, Option.bind_some,
        List.take_length, if_neg hlast, if_pos (by exact_mod_cast hfits)]

/-- Assumes: a text that is not empty. The bytes that `EVP_DecodeBlock` returns for it without those
of the padding, if they fit and there are as many. -/
theorem base64Decode_eq {input : Bytes} (hne : input ≠ []) :
    base64Decode evp input =
      (evp.decodeBlock input (asInt32 input.length)).bind fun bytes ↦
        if (bytes.length : ℤ) ≤ asInt32 (decodeLength input.length) ∧
            tailPadding input ≤ bytes.length
        then some (bytes.take (bytes.length - tailPadding input)) else none := by
  rw [base64Decode, if_neg hne]
  simp only [Option.bind_eq_bind]
  rcases lt_or_ge (asInt32 (decodeLength input.length)) 0 with hneg | hnonneg
  · rw [zeroString_of_neg hneg, Option.bind_none]
    cases evp.decodeBlock input (asInt32 input.length) with
    | none => rfl
    | some bytes => rw [Option.bind_some, if_neg (by omega)]
  · obtain ⟨size, hsize⟩ := Int.eq_ofNat_of_zero_le hnonneg
    rw [hsize, zeroString_natCast, Option.bind_some]
    cases evp.decodeBlock input (asInt32 input.length) with
    | none => exact resizeString_of_neg (by omega) _
    | some bytes =>
      simp only [Option.bind_some]
      rcases Nat.lt_or_ge size bytes.length with hover | hfits
      · rw [writeFront_of_lt hover, Option.bind_none, if_neg (by omega)]
      · rcases Nat.lt_or_ge bytes.length (tailPadding input) with hpadding | hpadding
        · rw [if_neg (by omega)]
          exact Option.bind_eq_none_iff.mpr fun _ _ ↦ resizeString_of_neg (by omega) _
        · rw [if_pos ⟨by omega, hpadding⟩, ← Nat.cast_sub hpadding,
            resizeString_writeFront hfits (Nat.sub_le _ _)]

/-! ### The padding at the end of a text -/

theorem tailPadding_le_two (input : Bytes) : tailPadding input ≤ 2 := by
  unfold tailPadding
  split_ifs <;> omega

theorem pad_mem_of_tailPadding {input : Bytes} (hpadding : tailPadding input ≠ 0) :
    Base64.pad ∈ input := by
  unfold tailPadding at hpadding
  split_ifs at hpadding with hlast hbeforeLast hbeforeLast
  · exact List.mem_of_getLast? hlast
  · exact List.mem_of_getLast? hlast
  · exact List.mem_of_getElem? hbeforeLast.2
  · exact absurd rfl hpadding

theorem tailPadding_encode {data : Bytes} (hne : data ≠ []) :
    tailPadding (Base64.encode data) = Base64.padding data.length := by
  obtain ⟨front, p, q, r, s, htext, hpadding⟩ := Base64.exists_encode_eq hne
  rw [← hpadding, htext, tailPadding]
  have hlast : (front ++ [p, q, r, s]).getLast? = some s := by simp
  have hbeforeLast : (front ++ [p, q, r, s])[(front ++ [p, q, r, s]).length - 2]? = some r := by
    simp
  have hlong : 2 ≤ (front ++ [p, q, r, s]).length := by simp
  simp only [hlast, hbeforeLast, hlong, true_and, Option.some.injEq]

/-! ### What is decoded -/

/-- The block function returns at most three bytes for every four characters. -/
theorem length_decodeBlock (hsound : Base64Sound evp) {input bytes : Bytes}
    (hdecode : evp.decodeBlock input (asInt32 input.length) = some bytes) :
    4 * bytes.length ≤ 3 * input.length := by
  obtain ⟨front, body, back, hsplit, -, hbody⟩ :=
    hsound.decodeBlock_some _ _ _ (asInt32_le _) hdecode
  have hlength := Base64.length_decode hbody
  have htake := congrArg List.length hsplit
  simp only [List.length_take, List.length_append] at htake
  omega

/-- Assumes: a text below 2 GiB that the block function accepts. It returns as many bytes as there
are padding characters, or more. -/
theorem tailPadding_le (hsound : Base64Sound evp) {input bytes : Bytes}
    (hdecode : evp.decodeBlock input input.length = some bytes) :
    tailPadding input ≤ bytes.length := by
  obtain ⟨front, body, back, hsplit, htrimmed, hbody⟩ :=
    hsound.decodeBlock_some _ _ _ le_rfl hdecode
  rw [Int.toNat_natCast, List.take_length] at hsplit
  by_cases hzero : tailPadding input = 0
  · omega
  · have hpad : Base64.pad ∈ body := by
      have hmem := pad_mem_of_tailPadding hzero
      have hkept : Base64.pad ∉ front ++ back := by
        intro htrim
        exact absurd (htrimmed _ htrim) (by decide)
      rw [hsplit] at hmem
      simp only [List.mem_append, not_or] at hmem hkept
      tauto
    have hpos := List.length_pos_of_mem hpad
    have hlength := Base64.length_decode hbody
    have htwo := tailPadding_le_two input
    omega

/-- What is decoded has at most three bytes for four characters. -/
theorem length_base64Decode (hsound : Base64Sound evp) {input out : Bytes}
    (hdecode : base64Decode evp input = some out) : 4 * out.length ≤ 3 * input.length := by
  by_cases hne : input = []
  · rw [base64Decode, if_pos hne] at hdecode
    cases hdecode
    exact Nat.zero_le _
  · rw [base64Decode_eq hne, Option.bind_eq_some_iff] at hdecode
    obtain ⟨bytes, hblock, hout⟩ := hdecode
    have hlength := length_decodeBlock hsound hblock
    split_ifs at hout with hfits
    cases hout
    rw [List.length_take]
    omega

/-- Assumes: the text of some bytes, below 2 GiB. The block function returns these bytes and zeros
for the padding. -/
theorem decodeBlock_encode_eq (hsound : Base64Sound evp) {data : Bytes}
    (hshort : (Base64.encode data).length < 2 ^ 31) :
    evp.decodeBlock (Base64.encode data) (Base64.encode data).length =
      some (data ++ List.replicate (Base64.padding data.length) 0) := by
  obtain ⟨bytes, hbytes⟩ := Option.ne_none_iff_exists'.mp (hsound.decodeBlock_encode data hshort)
  obtain ⟨front, body, back, hsplit, htrimmed, hbody⟩ := hsound.decodeBlock_some _ _ _ le_rfl hbytes
  rw [Int.toNat_natCast, List.take_length] at hsplit
  -- Nothing is trimmed, since every character of the text is a symbol or padding.
  have htrim : front ++ back = [] := by
    refine List.eq_nil_iff_forall_not_mem.mpr fun char hmem ↦ ?_
    have htext : char ∈ Base64.encode data := by
      rw [hsplit]
      simp only [List.mem_append] at hmem ⊢
      tauto
    exact Base64.sextet_of_mem_encode htext (htrimmed char hmem)
  obtain ⟨rfl, rfl⟩ := List.append_eq_nil_iff.mp htrim
  rw [List.nil_append, List.append_nil] at hsplit
  rw [← hsplit, Base64.decode_encode] at hbody
  rw [hbytes, hbody]

/-- Assumes: the text of some bytes, below 2 GiB. It is decoded to these bytes. -/
theorem base64Decode_encode (hsound : Base64Sound evp) {data : Bytes}
    (hshort : (Base64.encode data).length < 2 ^ 31) :
    base64Decode evp (Base64.encode data) = some data := by
  by_cases hne : data = []
  · subst hne
    rfl
  · have hlength := Base64.length_encode data
    have hpos := List.length_pos_iff.mpr hne
    have htext : Base64.encode data ≠ [] := by
      refine List.length_pos_iff.mp ?_
      omega
    have hroom : asInt32 (decodeLength (Base64.encode data).length) =
        decodeLength (Base64.encode data).length := by
      refine asInt32_of_lt ?_
      unfold decodeLength
      omega
    have hpadded : (data ++ List.replicate (Base64.padding data.length) (0 : Byte)).length =
        data.length + Base64.padding data.length := by
      rw [List.length_append, List.length_replicate]
    have hpadding : Base64.padding data.length ≤ 2 := by
      unfold Base64.padding
      omega
    have hfits : ((data.length + Base64.padding data.length : ℕ) : ℤ) ≤
        decodeLength (Base64.encode data).length := by
      unfold decodeLength Base64.padding
      omega
    rw [base64Decode_eq htext, asInt32_of_lt hshort, decodeBlock_encode_eq hsound hshort,
      Option.bind_some, tailPadding_encode hne, hroom, hpadded,
      if_pos ⟨hfits, Nat.le_add_left _ _⟩, Nat.add_sub_cancel, List.take_left]

/-- The round trip holds exactly if an `int` holds the length of the string that is made for the
text. -/
theorem roundTrips_iff (hsound : Base64Sound evp) (input : Bytes) :
    RoundTrips evp input ↔ input = [] ∨ encodeLength input.length < 2 ^ 31 := by
  by_cases hne : input = []
  · subst hne
    exact iff_of_true rfl (Or.inl rfl)
  rw [RoundTrips, base64Encode_eq hsound hne]
  have htext := Base64.length_encode (input.take (asInt32 input.length).toNat)
  rw [List.length_take] at htext
  constructor
  · intro hround
    obtain ⟨text, hencode, hdecode⟩ := Option.bind_eq_some_iff.mp hround
    split_ifs at hencode with hroom
    by_contra hlong
    rw [not_or, not_lt] at hlong
    have hwrapped : ¬encodeLength input.length < 2 ^ 32 := fun hlt ↦
      absurd (lt_of_asInt32_nonneg hlt (by omega)) (not_lt.mpr hlong.2)
    have hhuge : 2 ^ 31 ≤ input.length := by
      unfold encodeLength at hwrapped
      omega
    -- The block function is given the length without its multiples of 4 GiB, so bytes are missing.
    have hcut := toNat_asInt32_le hhuge
    have hout := length_base64Decode hsound hdecode
    cases hencode
    omega
  · rintro (hempty | hfits)
    · exact absurd hempty hne
    · have hshort : input.length < 2 ^ 31 := by
        unfold encodeLength at hfits
        omega
      rw [asInt32_of_lt hshort, Int.toNat_natCast, List.take_length, asInt32_of_lt hfits]
      rw [asInt32_of_lt hshort, Int.toNat_natCast, List.take_length, min_self] at htext
      have hroom : ((Base64.encode input).length : ℤ) ≤ encodeLength input.length := by
        unfold encodeLength
        omega
      rw [if_pos hroom, Option.bind_some]
      refine base64Decode_encode hsound ?_
      unfold encodeLength at hfits
      omega

/-- A text is decoded within the bound exactly if it is decodable. -/
theorem decodesWithin_iff (hsound : Base64Sound evp) (input : Bytes) :
    DecodesWithin evp input ↔ Decodable evp input := by
  by_cases hne : input = []
  · subst hne
    exact iff_of_true ⟨[], rfl, Nat.zero_le _⟩ (Or.inl rfl)
  rw [DecodesWithin, Decodable, or_iff_right hne]
  constructor
  · rintro ⟨out, hdecode, -⟩
    rw [base64Decode_eq hne, Option.bind_eq_some_iff] at hdecode
    obtain ⟨bytes, hblock, hout⟩ := hdecode
    split_ifs at hout with hfits
    exact ⟨bytes, hblock, Or.inr hfits⟩
  · rintro ⟨bytes, hblock, hfits⟩
    have hlength := length_decodeBlock hsound hblock
    have hfits : (bytes.length : ℤ) ≤ asInt32 (decodeLength input.length) ∧
        tailPadding input ≤ bytes.length := by
      rcases hfits with hshort | hfits
      · rw [asInt32_of_lt hshort] at hblock
        refine ⟨?_, tailPadding_le hsound hblock⟩
        have hroom : decodeLength input.length < 2 ^ 31 := by
          unfold decodeLength
          omega
        rw [asInt32_of_lt hroom]
        unfold decodeLength
        omega
      · exact hfits
    refine ⟨bytes.take (bytes.length - tailPadding input), ?_, ?_⟩
    · rw [base64Decode_eq hne, hblock, Option.bind_some, if_pos hfits]
    · rw [List.length_take]
      omega

end

/-- Assumes: block functions as they are documented. A string comes back exactly if it is empty or
an `int` holds its `EVP_ENCODE_LENGTH`, and a text is decoded, within the bound, exactly if it is
decodable: for a text below 2 GiB, if it is empty or `EVP_DecodeBlock` accepts it. -/
theorem base64_iff {evp : EvpBase64} (hsound : Base64Sound evp) :
    (∀ input, RoundTrips evp input ↔ input = [] ∨ encodeLength input.length < 2 ^ 31) ∧
      ∀ input, DecodesWithin evp input ↔ Decodable evp input :=
  ⟨roundTrips_iff hsound, decodesWithin_iff hsound⟩

/-! ### A malformed text -/

/-- Block functions that trim nothing. -/
def strictBlocks : EvpBase64 where
  encodeBlock data length := Base64.encode (data.take length.toNat)
  decodeBlock text length := Base64.decode (text.take length.toNat)

theorem base64Sound_strictBlocks : Base64Sound strictBlocks where
  encodeBlock_eq _ _ _ := rfl
  decodeBlock_encode data _ := by
    simp only [strictBlocks, Int.toNat_natCast, List.take_length, Base64.decode_encode]
    exact Option.some_ne_none _
  decodeBlock_some text length bytes _ hdecode :=
    ⟨[], text.take length.toNat, [], by simp, by simp, hdecode⟩

/-- `A` comes back, and `QQ==`, which it is written as, is decoded. -/
theorem base64_iff_padded :
    RoundTrips strictBlocks [0x41] ∧ DecodesWithin strictBlocks [0x51, 0x51, 0x3D, 0x3D] :=
  ⟨((base64_iff base64Sound_strictBlocks).1 [0x41]).mpr (Or.inr (by decide)),
    ((base64_iff base64Sound_strictBlocks).2 [0x51, 0x51, 0x3D, 0x3D]).mpr
      (Or.inr ⟨[0x41, 0, 0], by decide, Or.inl (by decide)⟩)⟩

/-- The text `A` makes `base64_decode` throw. -/
theorem not_decodesWithin : Base64Sound strictBlocks ∧ ¬DecodesWithin strictBlocks [0x41] := by
  refine ⟨base64Sound_strictBlocks, ?_⟩
  rw [decodesWithin_iff base64Sound_strictBlocks]
  rintro (hempty | ⟨bytes, hblock, -⟩)
  · cases hempty
  · exact absurd hblock (by simp [strictBlocks, Base64.decode, asInt32])

end TszyUlt.Fszm
