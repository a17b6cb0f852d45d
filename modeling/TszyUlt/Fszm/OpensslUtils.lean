import TszyUlt.Zbf.TcpMessage

/-!
# The wrappers around OpenSSL

`fszm/openssl_utils_v2.hpp`, as far as the gateway uses it: `symmetric_encrypt` with the cipher
functions below it, `rsa_encrypt`, and the generation, export and agreement of DH and ECC keys.

OpenSSL itself is a parameter. An `Evp` gives the outcome of each of its calls, success or failure,
for the arguments of the call; nothing is assumed about it. Every use of it may get another `Evp`,
so the randomness of key generation is covered, and what is proved holds for every outcome of every
call.

A wrapper that returns zero and fills an output parameter, or returns an error code, is an `Except`;
one that returns a key or null is an `Option`.

Scope. The wrappers for other key lengths than 128 bits, digests, signatures and base64 are not
modelled here. An `Evp` gets the key and the initialization vector as the strings that they are kept
in, however short.
-/

set_option autoImplicit false
set_option relaxedAutoImplicit false

namespace TszyUlt.Fszm

open Lib Zbf

/-- `eEncryptType`. -/
inductive EncryptType
  | desEcb | desCbc | desCfb | desOfb
  | tripleDesEcb | tripleDesCbc | tripleDesCfb | tripleDesOfb
  | camelliaEcb | camelliaCbc | camelliaCfb | camelliaOfb | camelliaCtr
  | aesEcb | aesCbc | aesCfb | aesOfb | aesCtr
  | rsaPublicEnc | rsaPrivateDec | rsaPrivateEnc | rsaPublicDec
  deriving DecidableEq, Repr

namespace EncryptType

/-- The types in the order of their numbers. -/
def all : List EncryptType :=
  [desEcb, desCbc, desCfb, desOfb, tripleDesEcb, tripleDesCbc, tripleDesCfb, tripleDesOfb,
    camelliaEcb, camelliaCbc, camelliaCfb, camelliaOfb, camelliaCtr, aesEcb, aesCbc, aesCfb, aesOfb,
    aesCtr, rsaPublicEnc, rsaPrivateDec, rsaPrivateEnc, rsaPublicDec]

/-- The type with the given number: a cast to `eEncryptType`, `none` for a value that is none of its
enumerators. -/
def ofByte (number : BitVec 8) : Option EncryptType := all[number.toNat]?

/-- The number of a type. -/
def toByte (type : EncryptType) : BitVec 8 := BitVec.ofNat 8 (all.idxOf type)

/-- The range check of the handshake: `eET_AES_ECB` to `eET_AES_CTR`. -/
def isAes : EncryptType → Bool
  | aesEcb | aesCbc | aesCfb | aesOfb | aesCtr => true
  | _ => false

end EncryptType

/-- The ciphers that `symmetric_encrypt` asks OpenSSL for. -/
inductive EvpCipher
  | desEcb | desCbc | desCfb64 | desOfb
  | desEde3Ecb | desEde3Cbc | desEde3Cfb64 | desEde3Ofb
  | camellia128Ecb | camellia128Cbc | camellia128Cfb128 | camellia128Ofb | camellia128Ctr
  | aes128Ecb | aes128Cbc | aes128Cfb128 | aes128Ofb | aes128Ctr
  deriving DecidableEq, Repr

/-- `EVP_CIPHER_block_size`: one for the stream modes. -/
def EvpCipher.blockSize : EvpCipher → ℕ
  | .desEcb | .desCbc | .desEde3Ecb | .desEde3Cbc => 8
  | .camellia128Ecb | .camellia128Cbc | .aes128Ecb | .aes128Cbc => 16
  | _ => 1

/-- The outcomes of the calls of OpenSSL. -/
structure Evp (Pkey : Type*) where
  /-- Whether the allocations of a cipher call succeed: its context and buffers of so many bytes. -/
  alloc : ℕ → Bool
  /-- Initialization, update and final call of a cipher: the bytes they write, if all succeed. -/
  cipher : EvpCipher → (encrypt : Bool) → (key : Bytes) → (ivec : Option Bytes) → Bytes →
    Option Bytes
  /-- `EVP_PKEY_size`. -/
  pkeySize : Pkey → ℤ
  /-- The RSA operation of the type on one block. -/
  rsa : EncryptType → Pkey → Bytes → Option Bytes
  /-- The generation of an EC key on a curve. -/
  ecKeygen : (curveNid : BitVec 32) → Option Pkey
  ecPubkey : Pkey → Option Bytes
  /-- The peer key of a curve and an encoded point. -/
  ecFromPubkey : (curveNid : BitVec 32) → Bytes → Option Pkey
  /-- The generation of a DH key from a prime and a generator, with the checks of both. -/
  dhKeygen : Bytes → Bytes → Option Pkey
  dhPubkey : Pkey → Option Bytes
  /-- The peer key with the parameters of a DH key and an encoded public value. -/
  dhFromPubkey : Pkey → Bytes → Option Pkey
  /-- The size that the first call of `EVP_PKEY_derive` reports. -/
  deriveSize : Pkey → Pkey → Option ℕ
  /-- The secret that the second call of `EVP_PKEY_derive` writes. -/
  derive : Pkey → Pkey → Option Bytes

variable {Pkey : Type*} (evp : Evp Pkey)

/-! ### Ciphers -/

/-- The bytes in a zeroed buffer of the given size after `data` was written to its start. -/
def inBuffer (size : ℕ) (data : Bytes) : Bytes :=
  data.take size ++ List.replicate (size - data.length) 0

/-- `out_len` of `evp_cipher_op`, in unsigned 32-bit arithmetic. -/
def cipherOutLen (cipher : EvpCipher) (inLen : ℕ) : ℕ :=
  if 1 < cipher.blockSize then
    ((inLen + cipher.blockSize - 1) % 2 ^ 32 / cipher.blockSize * cipher.blockSize) % 2 ^ 32
  else inLen

/-- `evp_cipher_op`: the input of a block cipher is padded with zeros to whole blocks. -/
def evpCipherOp (cipher : EvpCipher) (inStr key : Bytes) (ivec : Option Bytes) (encrypt : Bool) :
    Except ℤ Bytes :=
  let inLen := inStr.length % 2 ^ 32
  let outLen := cipherOutLen cipher inLen
  if evp.alloc outLen then
    match evp.cipher cipher encrypt key ivec (inBuffer outLen (inStr.take inLen)) with
    | some out => .ok (inBuffer outLen out)
    | none => .error (-1)
  else .error (-100)

/-- The cipher of a type, with the direction that its wrapper passes on: OFB and CTR always
encrypt. -/
def cipherOf (encrypt : Bool) : EncryptType → Option (EvpCipher × Bool)
  | .desEcb => some (.desEcb, encrypt)
  | .desCbc => some (.desCbc, encrypt)
  | .desCfb => some (.desCfb64, encrypt)
  | .desOfb => some (.desOfb, true)
  | .tripleDesEcb => some (.desEde3Ecb, encrypt)
  | .tripleDesCbc => some (.desEde3Cbc, encrypt)
  | .tripleDesCfb => some (.desEde3Cfb64, encrypt)
  | .tripleDesOfb => some (.desEde3Ofb, true)
  | .camelliaEcb => some (.camellia128Ecb, encrypt)
  | .camelliaCbc => some (.camellia128Cbc, encrypt)
  | .camelliaCfb => some (.camellia128Cfb128, encrypt)
  | .camelliaOfb => some (.camellia128Ofb, true)
  | .camelliaCtr => some (.camellia128Ctr, true)
  | .aesEcb => some (.aes128Ecb, encrypt)
  | .aesCbc => some (.aes128Cbc, encrypt)
  | .aesCfb => some (.aes128Cfb128, encrypt)
  | .aesOfb => some (.aes128Ofb, true)
  | .aesCtr => some (.aes128Ctr, true)
  | .rsaPublicEnc | .rsaPrivateDec | .rsaPrivateEnc | .rsaPublicDec => none

/-- The ECB wrappers pass no initialization vector. -/
def EvpCipher.ivecOf (cipher : EvpCipher) (ivec : Bytes) : Option Bytes :=
  match cipher with
  | .desEcb | .desEde3Ecb | .camellia128Ecb | .aes128Ecb => none
  | _ => some ivec

/-- `symmetric_encrypt`. A type that is no enumerator is `none` and takes the default branch. -/
def symmetricEncrypt (inStr key ivec : Bytes) (type : Option EncryptType) (encrypt : Bool) :
    Except ℤ Bytes :=
  if key.length < 8 ∨ ivec.length < 8 then .error (-1)
  else if (type = some .tripleDesEcb ∨ type = some .tripleDesCbc) ∧ key.length < 3 * 8 then
    .error (-1)
  else
    match type.bind (cipherOf encrypt) with
    | some (cipher, direction) =>
      evpCipherOp evp cipher inStr key (cipher.ivecOf ivec) direction
    | none => .error (-1)

/-! ### Keys -/

/-- `rsa_encrypt`. -/
def rsaEncryptBlock (inData : Bytes) (key : Pkey) (type : EncryptType) : Option Bytes :=
  match type with
  | .rsaPublicEnc | .rsaPrivateDec | .rsaPrivateEnc | .rsaPublicDec => evp.rsa type key inData
  | _ => none

/-- `ecc_create`. -/
def eccCreate (curveNid : BitVec 32) : Option Pkey := evp.ecKeygen curveNid

/-- `ecc_export_pubkey`. -/
def eccExportPubkey (key : Pkey) : Bytes := (evp.ecPubkey key).getD []

/-- `dh_generate` from the parameters of the peer. -/
def dhGenerate (p g : Bytes) : Option Pkey := if p = [] ∨ g = [] then none else evp.dhKeygen p g

/-- `dh_export` of the public value. -/
def dhExportPub (key : Pkey) : Bytes := (evp.dhPubkey key).getD []

/-- `pkey_derive_shared`: the secret, if it is announced to fit into `len` bytes. -/
def pkeyDeriveShared (own peer : Pkey) (len : ℤ) : Option Bytes :=
  match evp.deriveSize own peer with
  | some size => if (size : ℤ) ≤ len then evp.derive own peer else none
  | none => none

/-- `ecc_compute_sharekey`. -/
def eccComputeSharekey (key : Pkey) (curveNid : BitVec 32) (peerPub : Bytes) (len : ℤ) :
    Option Bytes :=
  if peerPub = [] then none
  else (evp.ecFromPubkey curveNid peerPub).bind fun peer ↦ pkeyDeriveShared evp key peer len

/-- `dh_compute_sharekey`. -/
def dhComputeSharekey (dh : Pkey) (peerPub : Bytes) (len : ℤ) : Option Bytes :=
  if peerPub = [] then none
  else (evp.dhFromPubkey dh peerPub).bind fun peer ↦ pkeyDeriveShared evp dh peer len

end TszyUlt.Fszm
