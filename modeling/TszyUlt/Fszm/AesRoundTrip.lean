import TszyUlt.Fszm.OpensslUtils

/-!
# Decryption with AES after encryption

What `symmetric_encrypt` gives for the data that it has encrypted itself, for the AES types that a
handshake admits. `AesSound` is what is assumed of OpenSSL: without padding, an AES cipher keeps the
length of whole blocks, decryption inverts encryption, and the two are the same operation for OFB
and CTR, whose wrappers always encrypt. `AesInverts` says the same of calls that may fail.

The wrapper fills the last block with zeros before it encrypts, and keeps no record of how many. The
data come back as `zeroPadded` (`AesInverts.eq_zeroPadded`, `AesSound.decrypt_encrypt`): with zeros
behind them for ECB and CBC, and cut to the 32 bits in which the wrapper counts them.
`zeroPadded_eq_self_iff` says when that is the data again, and `zeroPadded_eq_append` that nothing
is lost otherwise, if the data are shorter than 4 GiB.
-/

set_option autoImplicit false
set_option relaxedAutoImplicit false

namespace TszyUlt.Fszm

open Lib Zbf

variable {Pkey : Type*} {evp : Evp Pkey}

/-! ### What is assumed of OpenSSL -/

namespace EvpCipher

/-- The ciphers of the AES types. -/
def isAes128 : EvpCipher → Bool
  | aes128Ecb | aes128Cbc | aes128Cfb128 | aes128Ofb | aes128Ctr => true
  | _ => false

/-- The modes that combine the data with a key stream, in which encryption is decryption. -/
def isKeyStream : EvpCipher → Bool
  | desOfb | desEde3Ofb | camellia128Ofb | camellia128Ctr | aes128Ofb | aes128Ctr => true
  | _ => false

end EvpCipher

/-- What is assumed of OpenSSL: allocations succeed, and for a key and an initialization vector of
16 bytes an AES cipher is a bijection of the data of each length, on whole blocks. -/
structure AesSound (evp : Evp Pkey) : Prop where
  alloc : ∀ size, evp.alloc size = true
  keepsLength : ∀ (cipher : EvpCipher) (encrypt : Bool) (key ivec input : Bytes),
    cipher.isAes128 = true → key.length = 16 → ivec.length = 16 →
    cipher.blockSize ∣ input.length →
    ∃ output, evp.cipher cipher encrypt key (cipher.ivecOf ivec) input = some output ∧
      output.length = input.length
  inverts : ∀ (cipher : EvpCipher) (key ivec input output : Bytes),
    cipher.isAes128 = true → key.length = 16 → ivec.length = 16 →
    cipher.blockSize ∣ input.length →
    evp.cipher cipher true key (cipher.ivecOf ivec) input = some output →
    evp.cipher cipher false key (cipher.ivecOf ivec) output = some input
  keyStream : ∀ (cipher : EvpCipher) (key ivec input : Bytes),
    cipher.isAes128 = true → cipher.isKeyStream = true → key.length = 16 → ivec.length = 16 →
    evp.cipher cipher false key (cipher.ivecOf ivec) input =
      evp.cipher cipher true key (cipher.ivecOf ivec) input

/-- The weaker assumption on two outcomes of OpenSSL, where any call may fail: what the first has
encrypted has the length of whole blocks, and the second gives it back if it succeeds. -/
structure AesInverts (first second : Evp Pkey) : Prop where
  keepsLength : ∀ (cipher : EvpCipher) (key ivec input output : Bytes),
    cipher.isAes128 = true → key.length = 16 → ivec.length = 16 →
    cipher.blockSize ∣ input.length →
    first.cipher cipher true key (cipher.ivecOf ivec) input = some output →
    output.length = input.length
  inverts : ∀ (cipher : EvpCipher) (key ivec input output back : Bytes),
    cipher.isAes128 = true → key.length = 16 → ivec.length = 16 →
    cipher.blockSize ∣ input.length →
    first.cipher cipher true key (cipher.ivecOf ivec) input = some output →
    second.cipher cipher cipher.isKeyStream key (cipher.ivecOf ivec) output = some back →
    back = input

/-! ### The padded input -/

@[simp] theorem length_inBuffer (size : ℕ) (data : Bytes) : (inBuffer size data).length = size := by
  simp only [inBuffer, List.length_append, List.length_take, List.length_replicate]
  omega

/-- Data that fill the buffer. -/
theorem inBuffer_of_length {size : ℕ} {data : Bytes} (hlength : data.length = size) :
    inBuffer size data = data := by
  rw [inBuffer, ← hlength, List.take_length, Nat.sub_self, List.replicate_zero, List.append_nil]

theorem EvpCipher.blockSize_dvd (cipher : EvpCipher) : cipher.blockSize ∣ 2 ^ 32 := by
  cases cipher <;> decide

theorem EvpCipher.blockSize_pos (cipher : EvpCipher) : 0 < cipher.blockSize := by
  cases cipher <;> decide

theorem blockSize_dvd_cipherOutLen (cipher : EvpCipher) (inLen : ℕ) :
    cipher.blockSize ∣ cipherOutLen cipher inLen := by
  unfold cipherOutLen
  split_ifs with hblock
  · exact (Nat.dvd_mod_iff cipher.blockSize_dvd).mpr (Nat.dvd_mul_left _ _)
  · have hone : cipher.blockSize = 1 := by
      have hpos := cipher.blockSize_pos
      omega
    rw [hone]
    exact Nat.one_dvd _

theorem cipherOutLen_lt (cipher : EvpCipher) {inLen : ℕ} (hlength : inLen < 2 ^ 32) :
    cipherOutLen cipher inLen < 2 ^ 32 := by
  unfold cipherOutLen
  split_ifs
  · exact Nat.mod_lt _ (by decide)
  · exact hlength

/-- Whole blocks stay as they are. -/
theorem cipherOutLen_of_dvd (cipher : EvpCipher) {inLen : ℕ} (hlength : inLen < 2 ^ 32)
    (hblocks : cipher.blockSize ∣ inLen) : cipherOutLen cipher inLen = inLen := by
  unfold cipherOutLen
  split_ifs with hblock
  · obtain ⟨blocks, rfl⟩ := hblocks
    obtain ⟨total, htotal⟩ := cipher.blockSize_dvd
    have hpos := cipher.blockSize_pos
    -- A multiple of the block size below 2 ^ 32 leaves room for the rest of a block.
    have hroom : cipher.blockSize * blocks + cipher.blockSize ≤ 2 ^ 32 := by
      rw [htotal, ← Nat.mul_succ]
      rw [htotal] at hlength
      exact Nat.mul_le_mul_left _ (Nat.lt_of_mul_lt_mul_left hlength)
    have hcount : (cipher.blockSize * blocks + cipher.blockSize - 1) / cipher.blockSize =
        blocks := by
      rw [Nat.add_sub_assoc hpos, Nat.mul_add_div hpos, Nat.div_eq_of_lt (by omega), Nat.add_zero]
    have hshort : cipher.blockSize * blocks + cipher.blockSize - 1 < 2 ^ 32 := by omega
    rw [Nat.mod_eq_of_lt hshort, hcount, Nat.mul_comm, Nat.mod_eq_of_lt hlength]
  · rfl

/-- What `evp_cipher_op` gives to a cipher: the data, cut to 32 bits of length and padded with
zeros. -/
def paddedInput (cipher : EvpCipher) (data : Bytes) : Bytes :=
  inBuffer (cipherOutLen cipher (data.length % 2 ^ 32)) (data.take (data.length % 2 ^ 32))

theorem length_paddedInput (cipher : EvpCipher) (data : Bytes) :
    (paddedInput cipher data).length = cipherOutLen cipher (data.length % 2 ^ 32) :=
  length_inBuffer _ _

theorem paddedInput_eq_self_iff (cipher : EvpCipher) (data : Bytes) :
    paddedInput cipher data = data ↔ data.length < 2 ^ 32 ∧ cipher.blockSize ∣ data.length := by
  constructor
  · intro hself
    have hlength := length_paddedInput cipher data
    rw [hself] at hlength
    rw [hlength]
    exact ⟨cipherOutLen_lt cipher (Nat.mod_lt _ (by decide)), blockSize_dvd_cipherOutLen cipher _⟩
  · rintro ⟨hlength, hblocks⟩
    rw [paddedInput, Nat.mod_eq_of_lt hlength, List.take_length,
      cipherOutLen_of_dvd cipher hlength hblocks]
    exact inBuffer_of_length rfl

/-- Assumes: data that leave room for another block below 4 GiB. Zeros are added to them. -/
theorem paddedInput_eq_append (cipher : EvpCipher) {data : Bytes}
    (hlength : data.length + cipher.blockSize ≤ 2 ^ 32) :
    ∃ count, paddedInput cipher data = data ++ List.replicate count 0 := by
  have hpos := cipher.blockSize_pos
  have hroom : data.length ≤ cipherOutLen cipher data.length := by
    unfold cipherOutLen
    split_ifs
    · rw [Nat.mod_eq_of_lt (by omega : data.length + cipher.blockSize - 1 < 2 ^ 32)]
      have hdiv := Nat.div_add_mod (data.length + cipher.blockSize - 1) cipher.blockSize
      have hmod := Nat.mod_lt (data.length + cipher.blockSize - 1) hpos
      rw [Nat.mul_comm] at hdiv
      rw [Nat.mod_eq_of_lt (by omega)]
      omega
    · exact le_rfl
  refine ⟨cipherOutLen cipher data.length - data.length, ?_⟩
  rw [paddedInput, Nat.mod_eq_of_lt (by omega), List.take_length, inBuffer,
    List.take_of_length_le hroom]

/-! ### There and back -/

/-- What an operation that succeeds has written: the result of the cipher, in a buffer of the length
of the padded input. -/
theorem evpCipherOp_eq_ok {cipher : EvpCipher} {data key out : Bytes} {ivec : Option Bytes}
    {encrypt : Bool} (hop : evpCipherOp evp cipher data key ivec encrypt = .ok out) :
    ∃ written, evp.cipher cipher encrypt key ivec (paddedInput cipher data) = some written ∧
      (written.length = (paddedInput cipher data).length → out = written) := by
  simp only [evpCipherOp] at hop
  split_ifs at hop
  rw [← paddedInput] at hop
  split at hop
  · rename_i written hwritten
    cases hop
    exact ⟨written, hwritten, fun hlength ↦
      inBuffer_of_length (hlength.trans (length_paddedInput cipher data))⟩
  · cases hop

/-- The cipher of an AES type, the size of its blocks, and its direction. -/
theorem cipherOf_of_isAes {type : EncryptType} (haes : type.isAes = true) :
    ∃ cipher, cipher.isAes128 = true ∧
      cipher.blockSize = (if type = .aesEcb ∨ type = .aesCbc then 16 else 1) ∧
      cipherOf true type = some (cipher, true) ∧
      cipherOf false type = some (cipher, cipher.isKeyStream) := by
  cases type with
  | aesEcb => exact ⟨.aes128Ecb, rfl, rfl, rfl, rfl⟩
  | aesCbc => exact ⟨.aes128Cbc, rfl, rfl, rfl, rfl⟩
  | aesCfb => exact ⟨.aes128Cfb128, rfl, rfl, rfl, rfl⟩
  | aesOfb => exact ⟨.aes128Ofb, rfl, rfl, rfl, rfl⟩
  | aesCtr => exact ⟨.aes128Ctr, rfl, rfl, rfl, rfl⟩
  | _ => cases haes

/-- Assumes: an AES type, and a key and an initialization vector of 16 bytes. The checks of
`symmetric_encrypt` let them pass. -/
theorem symmetricEncrypt_of_isAes {type : EncryptType} (haes : type.isAes = true) {key ivec : Bytes}
    (hkey : key.length = 16) (hivec : ivec.length = 16) {encrypt direction : Bool}
    {cipher : EvpCipher} (hcipher : cipherOf encrypt type = some (cipher, direction))
    (data : Bytes) :
    symmetricEncrypt evp data key ivec (some type) encrypt =
      evpCipherOp evp cipher data key (cipher.ivecOf ivec) direction := by
  have hlong : ¬ (key.length < 8 ∨ ivec.length < 8) := by omega
  have hdes : ¬ ((some type = some EncryptType.tripleDesEcb ∨
      some type = some EncryptType.tripleDesCbc) ∧ key.length < 3 * 8) := by
    rintro ⟨htype | htype, -⟩
    · cases htype
      cases haes
    · cases htype
      cases haes
  rw [symmetricEncrypt, if_neg hlong, if_neg hdes, Option.bind_some, hcipher]

/-- The data that a receiver gets from an encryption with the given type. -/
def zeroPadded (type : EncryptType) (data : Bytes) : Bytes :=
  (cipherOf true type).elim data fun cipher ↦ paddedInput cipher.1 data

/-- Assumes: an AES type. The data come back unchanged exactly when they are shorter than 4 GiB and,
for ECB and CBC, fill whole blocks. -/
theorem zeroPadded_eq_self_iff {type : EncryptType} (haes : type.isAes = true) (data : Bytes) :
    zeroPadded type data = data ↔
      data.length < 2 ^ 32 ∧ (type = .aesEcb ∨ type = .aesCbc → 16 ∣ data.length) := by
  obtain ⟨cipher, -, hblock, hcipher, -⟩ := cipherOf_of_isAes haes
  rw [zeroPadded, hcipher, Option.elim_some, paddedInput_eq_self_iff, hblock]
  refine and_congr_right fun _ ↦ ?_
  split_ifs with htype
  · exact ⟨fun h _ ↦ h, fun h ↦ h htype⟩
  · exact ⟨fun _ h ↦ absurd h htype, fun _ ↦ Nat.one_dvd _⟩

/-- Assumes: an AES type, and data that leave room for another block below 4 GiB. They come back
with zeros behind them. -/
theorem zeroPadded_eq_append {type : EncryptType} (haes : type.isAes = true) {data : Bytes}
    (hlength : data.length + 16 ≤ 2 ^ 32) :
    ∃ count, zeroPadded type data = data ++ List.replicate count 0 := by
  obtain ⟨cipher, -, hblock, hcipher, -⟩ := cipherOf_of_isAes haes
  rw [zeroPadded, hcipher, Option.elim_some]
  refine paddedInput_eq_append cipher ?_
  rw [hblock]
  split_ifs
  · exact hlength
  · omega

/-- Assumes: outcomes of one AES, an AES type, and a key and an initialization vector of 16 bytes.
If both succeed, decryption after encryption gives the padded data. -/
theorem AesInverts.eq_zeroPadded {first second : Evp Pkey} (hinverts : AesInverts first second)
    {type : EncryptType} (haes : type.isAes = true) {key ivec : Bytes} (hkey : key.length = 16)
    (hivec : ivec.length = 16) {data packed back : Bytes}
    (hencrypt : symmetricEncrypt first data key ivec (some type) true = .ok packed)
    (hdecrypt : symmetricEncrypt second packed key ivec (some type) false = .ok back) :
    back = zeroPadded type data := by
  obtain ⟨cipher, haes128, -, hforth, hback⟩ := cipherOf_of_isAes haes
  rw [symmetricEncrypt_of_isAes haes hkey hivec hforth] at hencrypt
  rw [symmetricEncrypt_of_isAes haes hkey hivec hback] at hdecrypt
  rw [zeroPadded, hforth, Option.elim_some]
  have hblocks : cipher.blockSize ∣ (paddedInput cipher data).length := by
    rw [length_paddedInput]
    exact blockSize_dvd_cipherOutLen cipher _
  obtain ⟨written, hwritten, hpacked⟩ := evpCipherOp_eq_ok hencrypt
  have hlength := hinverts.keepsLength cipher key ivec _ written haes128 hkey hivec hblocks hwritten
  obtain rfl := hpacked hlength
  -- The encrypted data fill whole blocks, so the second operation does not pad them.
  have hself : paddedInput cipher packed = packed := by
    rw [paddedInput_eq_self_iff, hlength]
    refine ⟨?_, hblocks⟩
    rw [length_paddedInput]
    exact cipherOutLen_lt cipher (Nat.mod_lt _ (by decide))
  obtain ⟨reversed, hreversed, hout⟩ := evpCipherOp_eq_ok hdecrypt
  rw [hself] at hreversed hout
  have hsame := hinverts.inverts cipher key ivec _ packed reversed haes128 hkey hivec hblocks
    hwritten hreversed
  rw [hsame] at hout
  exact hout hlength.symm

/-- Assumes: sound AES ciphers, an AES type, and a key and an initialization vector of 16 bytes. The
operation succeeds. -/
theorem AesSound.symmetricEncrypt_eq_ok (hevp : AesSound evp) {type : EncryptType}
    (haes : type.isAes = true) {key ivec : Bytes} (hkey : key.length = 16)
    (hivec : ivec.length = 16) (encrypt : Bool) (data : Bytes) :
    ∃ out, symmetricEncrypt evp data key ivec (some type) encrypt = .ok out := by
  obtain ⟨cipher, haes128, -, hforth, hback⟩ := cipherOf_of_isAes haes
  have hblocks : cipher.blockSize ∣ (paddedInput cipher data).length := by
    rw [length_paddedInput]
    exact blockSize_dvd_cipherOutLen cipher _
  have hop : ∀ direction, ∃ out, evpCipherOp evp cipher data key (cipher.ivecOf ivec) direction =
      .ok out := by
    intro direction
    obtain ⟨written, hwritten, -⟩ :=
      hevp.keepsLength cipher direction key ivec _ haes128 hkey hivec hblocks
    refine ⟨inBuffer (cipherOutLen cipher (data.length % 2 ^ 32)) written, ?_⟩
    rw [evpCipherOp, if_pos (hevp.alloc _), ← paddedInput, hwritten]
  cases encrypt with
  | true =>
    rw [symmetricEncrypt_of_isAes haes hkey hivec hforth]
    exact hop true
  | false =>
    rw [symmetricEncrypt_of_isAes haes hkey hivec hback]
    exact hop cipher.isKeyStream

theorem AesSound.aesInverts (hevp : AesSound evp) : AesInverts evp evp where
  keepsLength cipher key ivec input output haes hkey hivec hblocks houtput := by
    obtain ⟨written, hwritten, hlength⟩ :=
      hevp.keepsLength cipher true key ivec input haes hkey hivec hblocks
    rwa [← Option.some.inj (hwritten.symm.trans houtput)]
  inverts cipher key ivec input output back haes hkey hivec hblocks houtput hback := by
    have hfalse := hevp.inverts cipher key ivec input output haes hkey hivec hblocks houtput
    cases hstream : cipher.isKeyStream with
    | false =>
      rw [hstream, hfalse] at hback
      exact (Option.some.inj hback).symm
    | true =>
      rw [hstream, ← hevp.keyStream cipher key ivec output haes hstream hkey hivec, hfalse] at hback
      exact (Option.some.inj hback).symm

/-- Assumes: sound AES ciphers, an AES type, and a key and an initialization vector of 16 bytes. The
encryption succeeds, and the decryption of its result gives the padded data. -/
theorem AesSound.decrypt_encrypt (hevp : AesSound evp) {type : EncryptType}
    (haes : type.isAes = true) {key ivec : Bytes} (hkey : key.length = 16)
    (hivec : ivec.length = 16) (data : Bytes) :
    ∃ packed, symmetricEncrypt evp data key ivec (some type) true = .ok packed ∧
      symmetricEncrypt evp packed key ivec (some type) false = .ok (zeroPadded type data) := by
  obtain ⟨packed, hpacked⟩ := hevp.symmetricEncrypt_eq_ok haes hkey hivec true data
  obtain ⟨back, hback⟩ := hevp.symmetricEncrypt_eq_ok haes hkey hivec false packed
  refine ⟨packed, hpacked, ?_⟩
  rw [hback, hevp.aesInverts.eq_zeroPadded haes hkey hivec hpacked hback]

end TszyUlt.Fszm
