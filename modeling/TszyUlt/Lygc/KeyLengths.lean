import TszyUlt.Lygc.GateSession

/-!
# The lengths of keys and initialization vectors

`symmetric_encrypt` of `fszm/openssl_utils_v2.hpp` checks once for all ciphers that the key and the
initialization vector have eight bytes, and for two modes of 3DES that the key has twenty-four. What
`evp_cipher_op` then reads depends on the cipher.

`KeyMaterialChecked` says that the checks are enough for a type, and `keyMaterialChecked_iff` for
which lengths they are. The secrets of `encryptHSResp` in `lygc/handshake_helper_v2.hpp` come from
the peer and are cut into a key of at most sixteen bytes and a rest; a secret that is shorter than
sixteen bytes is not cut at all (`encryptHSResp_eq`).

Scope. A string has the bytes of its length, and its terminating zero does not count.
-/

set_option autoImplicit false
set_option relaxedAutoImplicit false

namespace TszyUlt.Fszm

open Lib Zbf

variable {Pkey : Type*} (evp : Evp Pkey)

/-! ### The lengths that the ciphers need -/

namespace EvpCipher

/-- The bytes that a cipher reads of its key. -/
def keyLength : EvpCipher → ℕ
  | desEcb | desCbc | desCfb64 | desOfb => 8
  | desEde3Ecb | desEde3Cbc | desEde3Cfb64 | desEde3Ofb => 24
  | camellia128Ecb | camellia128Cbc | camellia128Cfb128 | camellia128Ofb | camellia128Ctr
  | aes128Ecb | aes128Cbc | aes128Cfb128 | aes128Ofb | aes128Ctr => 16

/-- The bytes that a cipher reads of its initialization vector. -/
def ivecLength : EvpCipher → ℕ
  | desEcb | desEde3Ecb | camellia128Ecb | aes128Ecb => 0
  | desCbc | desCfb64 | desOfb | desEde3Cbc | desEde3Cfb64 | desEde3Ofb => 8
  | camellia128Cbc | camellia128Cfb128 | camellia128Ofb | camellia128Ctr
  | aes128Cbc | aes128Cfb128 | aes128Ofb | aes128Ctr => 16

end EvpCipher

/-! ### The cipher that is reached -/

/-- What `symmetric_encrypt` does before `evp_cipher_op`: the code with which it rejects its input,
or the cipher and the direction that `evp_cipher_op` gets. -/
def selectCipher (key ivec : Bytes) (type : Option EncryptType) (encrypt : Bool) :
    Except ℤ (EvpCipher × Bool) :=
  if key.length < 8 ∨ ivec.length < 8 then .error (-1)
  else if (type = some .tripleDesEcb ∨ type = some .tripleDesCbc) ∧ key.length < 3 * 8 then
    .error (-1)
  else
    match type.bind (cipherOf encrypt) with
    | some found => .ok found
    | none => .error (-1)

theorem symmetricEncrypt_eq (inStr key ivec : Bytes) (type : Option EncryptType)
    (encrypt : Bool) :
    symmetricEncrypt evp inStr key ivec type encrypt =
      match selectCipher key ivec type encrypt with
      | .ok (cipher, direction) => evpCipherOp evp cipher inStr key (cipher.ivecOf ivec) direction
      | .error code => .error code := by
  unfold symmetricEncrypt selectCipher
  split_ifs
  · rfl
  · rfl
  · cases type.bind (cipherOf encrypt) <;> rfl

/-- The key and the initialization vector are long enough for a cipher. -/
def Suffices (cipher : EvpCipher) (key ivec : Bytes) : Prop :=
  cipher.keyLength ≤ key.length ∧ cipher.ivecLength ≤ ivec.length

/-- What is expected of the checks: a cipher that is reached gets enough, and what is not enough for
the cipher of the type is rejected. -/
structure KeyMaterialChecked (evp : Evp Pkey) (key ivec : Bytes) (type : Option EncryptType)
    (encrypt : Bool) : Prop where
  reached : ∀ cipher direction, selectCipher key ivec type encrypt = .ok (cipher, direction) →
    Suffices cipher key ivec
  rejected : ∀ cipher direction, type.bind (cipherOf encrypt) = some (cipher, direction) →
    ¬ Suffices cipher key ivec → ∀ inStr, ∃ code, code ≠ 0 ∧
      symmetricEncrypt evp inStr key ivec type encrypt = .error code

/-- The lengths for which the checks of a type are enough: any for DES, for ECB and CBC of 3DES and
for what is no symmetric type, and otherwise those that the check of eight bytes rejects, and those
that the cipher needs. -/
def LengthsGuarded (keyLen ivecLen : ℕ) : Option EncryptType → Prop
  | some .tripleDesCfb | some .tripleDesOfb => keyLen < 8 ∨ ivecLen < 8 ∨ 24 ≤ keyLen
  | some .camelliaEcb | some .aesEcb => keyLen < 8 ∨ ivecLen < 8 ∨ 16 ≤ keyLen
  | some .camelliaCbc | some .camelliaCfb | some .camelliaOfb | some .camelliaCtr
  | some .aesCbc | some .aesCfb | some .aesOfb | some .aesCtr =>
    keyLen < 8 ∨ ivecLen < 8 ∨ 16 ≤ keyLen ∧ 16 ≤ ivecLen
  | _ => True

section Checks

variable {key ivec : Bytes} {encrypt : Bool}

/-- The checks of a type let the lengths pass. -/
def Passes (key ivec : Bytes) (type : EncryptType) : Prop :=
  8 ≤ key.length ∧ 8 ≤ ivec.length ∧
    (type = .tripleDesEcb ∨ type = .tripleDesCbc → 24 ≤ key.length)

/-- A cipher is reached exactly by the lengths that pass. -/
theorem selectCipher_of_cipherOf (key ivec : Bytes) {type : EncryptType}
    {found : EvpCipher × Bool} (hcipher : cipherOf encrypt type = some found) :
    (Passes key ivec type ∧ selectCipher key ivec (some type) encrypt = .ok found) ∨
      (¬ Passes key ivec type ∧ selectCipher key ivec (some type) encrypt = .error (-1)) := by
  unfold selectCipher Passes
  rw [Option.bind_some, hcipher]
  simp only [Option.some.injEq]
  by_cases hshort : key.length < 8 ∨ ivec.length < 8
  · rw [if_pos hshort]
    exact Or.inr ⟨by omega, rfl⟩
  · rw [if_neg hshort]
    by_cases hdes : (type = .tripleDesEcb ∨ type = .tripleDesCbc) ∧ key.length < 3 * 8
    · rw [if_pos hdes]
      exact Or.inr ⟨fun hpasses ↦ absurd (hpasses.2.2 hdes.1) (by omega), rfl⟩
    · rw [if_neg hdes]
      refine Or.inl ⟨⟨by omega, by omega, fun htype ↦ ?_⟩, rfl⟩
      have hlong := not_and.mp hdes htype
      omega

theorem checked_iff_of_cipherOf {type : EncryptType} {cipher : EvpCipher} {direction : Bool}
    (hcipher : cipherOf encrypt type = some (cipher, direction)) :
    KeyMaterialChecked evp key ivec (some type) encrypt ↔
      (Passes key ivec type → Suffices cipher key ivec) := by
  rcases selectCipher_of_cipherOf key ivec hcipher with
    ⟨hpasses, hselect⟩ | ⟨hpasses, hselect⟩
  · rw [imp_iff_right hpasses]
    refine ⟨fun hchecked ↦ hchecked.reached cipher direction hselect, fun hsuffices ↦ ⟨?_, ?_⟩⟩
    · intro cipher' direction' hselect'
      cases hselect.symm.trans hselect'
      exact hsuffices
    · intro cipher' direction' hcipher' hshort
      rw [Option.bind_some, hcipher] at hcipher'
      cases hcipher'
      exact absurd hsuffices hshort
  · refine iff_of_true ⟨fun cipher' direction' hselect' ↦ ?_, fun _ _ _ _ inStr ↦ ?_⟩
      fun hpasses' ↦ absurd hpasses' hpasses
    · cases hselect.symm.trans hselect'
    · refine ⟨-1, by decide, ?_⟩
      rw [symmetricEncrypt_eq, hselect]

/-- A type for which no cipher is reached. -/
theorem checked_of_none {type : Option EncryptType} (hnone : type.bind (cipherOf encrypt) = none) :
    KeyMaterialChecked evp key ivec type encrypt := by
  constructor
  · intro cipher direction hselect
    unfold selectCipher at hselect
    rw [hnone] at hselect
    split_ifs at hselect
  · intro cipher direction hcipher
    cases hnone.symm.trans hcipher

/-- The checks are enough exactly for the guarded lengths. -/
theorem checked_iff_lengthsGuarded (key ivec : Bytes) (type : Option EncryptType)
    (encrypt : Bool) :
    KeyMaterialChecked evp key ivec type encrypt ↔
      LengthsGuarded key.length ivec.length type := by
  cases type with
  | none => exact iff_of_true (checked_of_none evp rfl) trivial
  | some type =>
    cases type with
    | rsaPublicEnc | rsaPrivateDec | rsaPrivateEnc | rsaPublicDec =>
      exact iff_of_true (checked_of_none evp rfl) trivial
    | _ =>
      rw [checked_iff_of_cipherOf evp rfl]
      simp only [Passes, Suffices, EvpCipher.keyLength, EvpCipher.ivecLength, LengthsGuarded,
        reduceCtorEq, or_self, true_or, or_true, and_true, false_implies, true_implies, iff_true]
      omega

end Checks

end TszyUlt.Fszm

namespace TszyUlt.Lygc

open Lib Zbf Fszm

variable {Pkey : Type*} (evp : Evp Pkey)

/-! ### The secret of a handshake -/

/-- The lengths of a secret for which the checks of a type are enough for its two parts. -/
def SecretGuarded (secretLen : ℕ) : Option EncryptType → Prop
  | some .tripleDesCfb | some .tripleDesOfb => secretLen < 24
  | some .camelliaCbc | some .camelliaCfb | some .camelliaOfb | some .camelliaCtr
  | some .aesCbc | some .aesCfb | some .aesOfb | some .aesCtr => secretLen < 24 ∨ 32 ≤ secretLen
  | _ => True

theorem lengthsGuarded_secret_iff (secretLen : ℕ) (type : Option EncryptType) :
    LengthsGuarded (min 16 secretLen) (secretLen - 16) type ↔ SecretGuarded secretLen type := by
  cases type with
  | none => exact Iff.rfl
  | some type =>
    cases type with
    | camelliaEcb | aesEcb =>
      refine iff_of_true ?_ trivial
      show min 16 secretLen < 8 ∨ secretLen - 16 < 8 ∨ 16 ≤ min 16 secretLen
      omega
    | tripleDesCfb | tripleDesOfb | camelliaCbc | camelliaCfb | camelliaOfb | camelliaCtr
    | aesCbc | aesCfb | aesOfb | aesCtr =>
      simp only [LengthsGuarded, SecretGuarded]
      omega
    | _ => exact Iff.rfl

/-- `encryptHSResp` gives the two parts of a secret to `symmetric_encrypt`, or throws. -/
theorem encryptHSResp_eq (order : ByteOrder) (resp : HandshakeResp) (tempSymsec : Bytes)
    (type : Option EncryptType) :
    HandshakeHelper.encryptHSResp evp order resp tempSymsec type =
      if tempSymsec.length < 16 then none
      else
        match selectCipher (tempSymsec.take 16) (tempSymsec.drop 16) type true with
        | .ok (cipher, direction) =>
          match evpCipherOp evp cipher (resp.serialize order) (tempSymsec.take 16)
              (cipher.ivecOf (tempSymsec.drop 16)) direction with
          | .ok result => some result
          | .error _ => some []
        | .error _ => some [] := by
  unfold HandshakeHelper.encryptHSResp
  rw [symmetricEncrypt_eq]
  split_ifs
  · rfl
  · cases selectCipher (tempSymsec.take 16) (tempSymsec.drop 16) type true <;> rfl

/-- The checks before `evp_cipher_op` are enough exactly for the guarded lengths, for the key and
the initialization vector of `symmetric_encrypt` and for the two parts of a secret. -/
theorem keyMaterialChecked_iff (key ivec tempSymsec : Bytes) (type : Option EncryptType)
    (encrypt : Bool) :
    (KeyMaterialChecked evp key ivec type encrypt ↔
        LengthsGuarded key.length ivec.length type) ∧
      (KeyMaterialChecked evp (tempSymsec.take 16) (tempSymsec.drop 16) type encrypt ↔
        SecretGuarded tempSymsec.length type) := by
  refine ⟨checked_iff_lengthsGuarded evp key ivec type encrypt, ?_⟩
  rw [checked_iff_lengthsGuarded, List.length_take, List.length_drop]
  exact lengthsGuarded_secret_iff tempSymsec.length type

/-- AES in CBC mode is reached with a key and an initialization vector of eight bytes. -/
theorem not_keyMaterialChecked :
    ¬ ∀ (evp : Evp Bool) (key ivec : Bytes) (type : Option EncryptType) (encrypt : Bool),
      KeyMaterialChecked evp key ivec type encrypt := by
  intro hall
  have hchecked := hall (GateConn.curveEvp (GateConn.curveReq 415 64) 32) (List.replicate 8 0)
    (List.replicate 8 0) (some .aesCbc) true
  exact absurd (hchecked.reached .aes128Cbc true rfl).1 (by decide)

end TszyUlt.Lygc
