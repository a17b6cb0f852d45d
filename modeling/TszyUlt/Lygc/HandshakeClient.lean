import TszyUlt.Lib.Chunks
import TszyUlt.Lygc.HandshakeHelper

/-!
# The handshake of a client

The steps of a client in `lygc/handshake_helper_v2.hpp` (`creatHSReq`, `encryptHSReq`,
`decryptHSResp`), and `common_client` of `examples/lygateclt.cpp`, which makes a handshake with
them: `handshake` sends a request, and `onHandshake` takes the keys of the session from the reply.

The client cuts its request into blocks that leave room for the padding of RSA, and the server
decrypts block by block. `decryptHSReq_encryptHSReq` says what the server makes of the request of a
client: the same request, or nothing, if a decryption fails. `HandshakeResp.deserialize_append` is
the round trip of the response, with the bytes behind it that a block cipher adds.

Scope. `handshake` takes the key exchange, the group and the cipher of the request as arguments,
where the example program has ECDH on prime256v1. A request that cannot be posted is not sent.
-/

set_option autoImplicit false
set_option relaxedAutoImplicit false

namespace TszyUlt.Lygc

open Lib Zbf Fszm

variable {Pkey : Type*}

/-! ### The steps of a client -/

/-- The outcomes of the calls of OpenSSL that a client makes: those of a server, the generation of a
DH key with a new prime of so many bits, and the export of its prime and its generator. -/
structure ClientEvp (Pkey : Type*) extends Evp Pkey where
  dhParamgen : (primeLen : ℤ) → Option Pkey
  dhPrime : Pkey → Option Bytes
  dhGenerator : Pkey → Option Bytes

/-- `HandshakeResp::deserialize` on the buffer of a helper. Both exchanges have one string. -/
def HandshakeResp.read (order : ByteOrder) : StateM Bytes HandshakeResp := do
  let kxType ← deserializeUint8
  let pubkey ← deserializeStr order
  let sessionSymsecType ← deserializeUint8
  return ⟨kxType, pubkey, sessionSymsecType⟩

/-- `HandshakeResp::deserialize`. -/
def HandshakeResp.deserialize (order : ByteOrder) (data : Bytes) : HandshakeResp :=
  ((read order).run data).1

namespace HandshakeHelper

/-- `creatHSReq`, with the random temporary secret that it draws. -/
def creatHSReq (evp : ClientEvp Pkey) (helper : HandshakeHelper Pkey) (kxType : KeyExchangeType)
    (primeLen : BitVec 32) (tempType : EncryptType) (randomString : Bytes) :
    Option HandshakeReq × HandshakeHelper Pkey :=
  if tempType.isAes then
    if kxType = kxEcdh then
      match eccCreate evp.toEvp primeLen with
      | some key =>
        (some ⟨kxType, ⟨[], [], []⟩, ⟨primeLen, eccExportPubkey evp.toEvp key⟩, randomString,
            tempType.toByte⟩,
          { helper with kxType := kxType, ecKey := some key, ecCurveNid := primeLen })
      | none => (none, { helper with kxType := kxType, ecKey := none })
    else if primeLen.toInt < 512 ∨ 4096 < primeLen.toInt then
      (none, { helper with kxType := kxType })
    else
      match evp.dhParamgen primeLen.toInt with
      | some key =>
        (some ⟨kxType, ⟨(evp.dhPrime key).getD [], (evp.dhGenerator key).getD [],
            dhExportPub evp.toEvp key⟩, ⟨0, []⟩, randomString, tempType.toByte⟩,
          { helper with kxType := kxType, dh := some key })
      | none => (none, { helper with kxType := kxType, dh := none })
  else (none, helper)

/-- `rsaEncrypt` for encryption: blocks that leave room for the padding. -/
def rsaEncrypt (evp : Evp Pkey) (helper : HandshakeHelper Pkey) (data : Bytes) : Bytes :=
  rsaBlocks evp helper.rsaKey .rsaPublicEnc
    (data.toChunks (evp.pkeySize helper.rsaKey - 11).toNat) []

/-- `encryptHSReq`. -/
def encryptHSReq (evp : Evp Pkey) (order : ByteOrder) (helper : HandshakeHelper Pkey)
    (req : HandshakeReq) : Bytes :=
  rsaEncrypt evp helper (req.serialize order)

/-- `decryptHSResp`: `substr(16)` throws for a temporary secret shorter than 16 bytes. -/
def decryptHSResp (evp : Evp Pkey) (order : ByteOrder) (data tempSymsec : Bytes)
    (type : Option EncryptType) : Option (Option HandshakeResp) :=
  if tempSymsec.length < 16 then none
  else
    match symmetricEncrypt evp data (tempSymsec.take 16) (tempSymsec.drop 16) type false with
    | .ok result => some (some (HandshakeResp.deserialize order result))
    | .error _ => some none

end HandshakeHelper

/-- `common_client`. -/
structure CommonClient (Pkey : Type*) where
  clientSide : HandshakeHelper Pkey
  hsSuccess : Bool
  hsFail : Bool
  tempSymsec : Bytes
  tempSymsecType : Option EncryptType
  secret : Bytes
  ivec : Bytes
  enctype : Option EncryptType

namespace CommonClient

/-- A client that has loaded the public key of the server. -/
def new (rsaKey : Pkey) : CommonClient Pkey :=
  ⟨⟨none, none, rsaKey, kxEcdh, 0⟩, false, false, [], none, [], [], some .aesCfb⟩

/-- `handshake`: the request that is posted, if there is one. -/
def handshake (evp : ClientEvp Pkey) (order : ByteOrder) (client : CommonClient Pkey)
    (kxType : KeyExchangeType) (primeLen : BitVec 32) (tempType : EncryptType)
    (randomString : Bytes) : Option Bytes × CommonClient Pkey :=
  match client.clientSide.creatHSReq evp kxType primeLen tempType randomString with
  | (none, clientSide) => (none, { client with clientSide := clientSide })
  | (some hsReq, clientSide) =>
    match clientSide.encryptHSReq evp.toEvp order hsReq with
    | [] => (none, { client with clientSide := clientSide })
    | byte :: binHSReq =>
      (some (byte :: binHSReq),
        { client with
          clientSide := clientSide
          tempSymsec := hsReq.tempSymsec
          tempSymsecType := EncryptType.ofByte hsReq.tempSymsecType })

/-- `onHandshake`, with the shared key that it computes: `substr(16, 16)` throws for one that is
shorter than 16 bytes. -/
def onHandshake (evp : Evp Pkey) (order : ByteOrder) (client : CommonClient Pkey)
    (binHSResp : Bytes) : Option (Bytes × CommonClient Pkey) :=
  if binHSResp = [] then some ([], { client with hsFail := true })
  else
    match HandshakeHelper.decryptHSResp evp order binHSResp client.tempSymsec
        client.tempSymsecType with
    | none => none
    | some none => some ([], { client with hsFail := true })
    | some (some hsResp) =>
      let shareKey := client.clientSide.makeShareKey evp hsResp.pubkey
      if shareKey.length < 16 then none
      else
        some (shareKey,
          { client with
            secret := shareKey.take 16
            ivec := (shareKey.drop 16).take 16
            enctype := EncryptType.ofByte hsResp.sessionSymsecType
            hsSuccess := true })

end CommonClient

/-! ### What is sent -/

/-- The byte of a type stands for this type. -/
theorem ofByte_toByte (type : EncryptType) : EncryptType.ofByte type.toByte = some type := by
  cases type <;> rfl

/-- Assumes: a response whose public value is shorter than 4 GiB. It is read as it was written,
whatever follows it. -/
theorem HandshakeResp.deserialize_append (sender receiver : ByteOrder) (resp : HandshakeResp)
    (hpubkey : resp.pubkey.length < 2 ^ 32) (rest : Bytes) :
    deserialize receiver (resp.serialize sender ++ rest) = resp := by
  have hconsumes : Consumes (read receiver) (resp.serialize sender) resp :=
    (consumes_uint8 resp.kxType).bind ((consumes_str sender receiver resp.pubkey hpubkey).bind
      ((consumes_uint8 resp.sessionSymsecType).map _))
  rw [deserialize, hconsumes rest]

namespace HandshakeHelper

/-- The outcomes of RSA on blocks, if every block gives a result that is not empty. -/
theorem rsaBlocks_ne_nil {evp : Evp Pkey} {key : Pkey} {type : EncryptType} {blocks : List Bytes}
    {acc : Bytes} (hresult : rsaBlocks evp key type blocks acc ≠ []) :
    ∃ outputs, List.Forall₂ (fun block output ↦ rsaEncryptBlock evp block key type = some output)
      blocks outputs ∧ rsaBlocks evp key type blocks acc = acc ++ outputs.flatten := by
  induction blocks generalizing acc with
  | nil => exact ⟨[], .nil, by rw [rsaBlocks, List.flatten_nil, List.append_nil]⟩
  | cons block blocks ih =>
    unfold rsaBlocks at hresult ⊢
    split at hresult
    · rename_i byte dst hblock
      obtain ⟨outputs, houtputs, heq⟩ := ih hresult
      refine ⟨(byte :: dst) :: outputs, .cons hblock houtputs, ?_⟩
      rw [heq, List.flatten_cons, List.append_assoc]
    · exact absurd rfl hresult

section RsaKeys

variable {client server : Evp Pkey} {clientSide serverSide : HandshakeHelper Pkey} {size : ℕ}
  (hroom : 11 < size) (hclient : client.pkeySize clientSide.rsaKey = size)
  (hserver : server.pkeySize serverSide.rsaKey = size)
  (hlength : ∀ block output,
    client.rsa .rsaPublicEnc clientSide.rsaKey block = some output → output.length = size)
  (hinverts : ∀ block output back,
    client.rsa .rsaPublicEnc clientSide.rsaKey block = some output →
    server.rsa .rsaPrivateDec serverSide.rsaKey output = some back → back = block)

include hroom hclient hserver hlength hinverts

/-- Assumes: RSA keys of one size on both sides, encryptions of this size that decryption inverts if
it succeeds, and a request that is not empty after its encryption. The server gets the data of the
client, or nothing. -/
theorem rsaDecrypt_rsaEncrypt
    {data : Bytes} (hresult : rsaEncrypt client clientSide data ≠ []) :
    rsaDecrypt server serverSide (rsaEncrypt client clientSide data) = [] ∨
      rsaDecrypt server serverSide (rsaEncrypt client clientSide data) = data := by
  have hblock : (client.pkeySize clientSide.rsaKey - 11).toNat = size - 11 := by omega
  have hpos : 0 < size - 11 := by omega
  obtain ⟨outputs, houtputs, heq⟩ := rsaBlocks_ne_nil hresult
  rw [hblock] at houtputs
  -- The encrypted blocks all have the size of the key, so the server cuts where the client did.
  have hsizes : ∀ output ∈ outputs, output.length = size :=
    forall_mem_of_forall₂ hlength houtputs
  have hcut : (rsaEncrypt client clientSide data).toChunks size = outputs := by
    rw [rsaEncrypt, heq, List.nil_append]
    exact toChunks_flatten (by omega) hsizes
  by_cases hdecrypt : rsaDecrypt server serverSide (rsaEncrypt client clientSide data) = []
  · exact .inl hdecrypt
  · right
    obtain ⟨backs, hbacks, hback⟩ := rsaBlocks_ne_nil hdecrypt
    rw [hserver, Int.toNat_natCast, hcut] at hbacks
    have hsame : backs = data.toChunks (size - 11) :=
      eq_of_forall₂_inverts hinverts houtputs hbacks
    rw [rsaDecrypt, hback, List.nil_append, hsame, flatten_toChunks hpos]

/-- Assumes: as before, and a request whose strings are shorter than 4 GiB. The server reads the
request of the client, or nothing. -/
theorem decryptHSReq_encryptHSReq
    (sender receiver : ByteOrder) {req decrypted : HandshakeReq} (hfits : req.Fits)
    (hresult : encryptHSReq client sender clientSide req ≠ [])
    (hdecrypt : decryptHSReq server receiver serverSide
      (encryptHSReq client sender clientSide req) = some decrypted) : decrypted = req := by
  unfold decryptHSReq at hdecrypt
  split at hdecrypt
  · cases hdecrypt
  · rename_i hsome
    obtain hnone | hdata := rsaDecrypt_rsaEncrypt hroom hclient hserver hlength hinverts hresult
    · exact absurd hnone hsome
    · rw [encryptHSReq, hdata, HandshakeReq.deserialize_serialize sender receiver req hfits]
        at hdecrypt
      exact (Option.some.inj hdecrypt).symm

end RsaKeys

end HandshakeHelper

end TszyUlt.Lygc
