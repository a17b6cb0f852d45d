import TszyUlt.Fszm.OpensslUtils
import TszyUlt.Fszm.SerializeHelper

/-!
# The handshake

`lygc/handshake_helper_v2.hpp`. A client sends a `HandshakeReq`, encrypted block by block with the
RSA key of the server: its public value of a DH or ECDH exchange and a temporary secret. The server
generates a key of its own with the parameters of the client, computes the shared key, and answers
with its public value in a `HandshakeResp`, encrypted with the temporary secret.

`HandshakeHelper` is the state that the server keeps between the calls: the key exchange and the
keys of the last handshake. `encryptHSResp` takes the temporary secret apart without a check of its
length, and `std::string::substr` throws for a secret shorter than 16 bytes; a function that may
throw returns `none` then.

`HandshakeReq.deserialize_serialize` is the round trip of the request.

Scope. The steps of the client, other than the encoding of its request, are not modelled here. The
RSA key of the server is loaded and has a positive size.
-/

set_option autoImplicit false
set_option relaxedAutoImplicit false

namespace TszyUlt.Lygc

open Lib Zbf Fszm

/-! ### Requests and responses -/

/-- `KeyExchangeType`, as the byte that it is read from. -/
abbrev KeyExchangeType := BitVec 8

/-- `KX_DH`. -/
def kxDh : KeyExchangeType := 0

/-- `KX_ECDH`. -/
def kxEcdh : KeyExchangeType := 1

/-- `DHExchangeReq`. -/
structure DhExchangeReq where
  p : Bytes
  g : Bytes
  pubkey : Bytes
  deriving DecidableEq, Repr

/-- `ECDHExchangeReq`. -/
structure EcdhExchangeReq where
  curveNid : BitVec 32
  pubkey : Bytes
  deriving DecidableEq, Repr

/-- `HandshakeReq`. -/
structure HandshakeReq where
  kxType : KeyExchangeType
  dh : DhExchangeReq
  ecdh : EcdhExchangeReq
  tempSymsec : Bytes
  tempSymsecType : BitVec 8
  deriving DecidableEq, Repr

/-- `HandshakeResp`, with the public key of the exchange in use. -/
structure HandshakeResp where
  kxType : KeyExchangeType
  pubkey : Bytes
  sessionSymsecType : BitVec 8
  deriving DecidableEq, Repr

section Encoding

variable (order : ByteOrder)

namespace DhExchangeReq

/-- `DHExchangeReq::serialize`. -/
def serialize (req : DhExchangeReq) : Bytes :=
  serializeStr order req.p ++ (serializeStr order req.g ++ serializeStr order req.pubkey)

/-- `DHExchangeReq::deserialize`. -/
def deserialize : StateM Bytes DhExchangeReq := do
  let p ← deserializeStr order
  let g ← deserializeStr order
  let pubkey ← deserializeStr order
  return ⟨p, g, pubkey⟩

end DhExchangeReq

namespace EcdhExchangeReq

/-- `ECDHExchangeReq::serialize`. -/
def serialize (req : EcdhExchangeReq) : Bytes :=
  serializeUint32 order req.curveNid ++ serializeStr order req.pubkey

/-- `ECDHExchangeReq::deserialize`. -/
def deserialize : StateM Bytes EcdhExchangeReq := do
  let curveNid ← deserializeUint32 order
  let pubkey ← deserializeStr order
  return ⟨curveNid, pubkey⟩

end EcdhExchangeReq

namespace HandshakeReq

/-- `HandshakeReq::getPeerPubkey`. -/
def getPeerPubkey (req : HandshakeReq) : Bytes :=
  if req.kxType = kxEcdh then req.ecdh.pubkey else req.dh.pubkey

/-- `HandshakeReq::serialize`. -/
def serialize (req : HandshakeReq) : Bytes :=
  serializeUint8 req.kxType ++
    ((if req.kxType = kxEcdh then req.ecdh.serialize order else req.dh.serialize order) ++
      (serializeStr order req.tempSymsec ++ serializeUint8 req.tempSymsecType))

/-- The part of `HandshakeReq::deserialize` for the key exchange. The one that is not in use stays
empty. -/
def readExchange (kxType : KeyExchangeType) : StateM Bytes (DhExchangeReq × EcdhExchangeReq) :=
  if kxType = kxEcdh then do
    let ecdh ← EcdhExchangeReq.deserialize order
    return (⟨[], [], []⟩, ecdh)
  else do
    let dh ← DhExchangeReq.deserialize order
    return (dh, ⟨0, []⟩)

/-- `HandshakeReq::deserialize` on the buffer of a helper. -/
def read : StateM Bytes HandshakeReq := do
  let kxType ← deserializeUint8
  let exchange ← readExchange order kxType
  let tempSymsec ← deserializeStr order
  let tempSymsecType ← deserializeUint8
  return ⟨kxType, exchange.1, exchange.2, tempSymsec, tempSymsecType⟩

/-- `HandshakeReq::deserialize`. -/
def deserialize (data : Bytes) : HandshakeReq := ((read order).run data).1

end HandshakeReq

/-- `HandshakeResp::serialize`. -/
def HandshakeResp.serialize (resp : HandshakeResp) : Bytes :=
  serializeUint8 resp.kxType ++
    (serializeStr order resp.pubkey ++ serializeUint8 resp.sessionSymsecType)

end Encoding

/-! ### The round trip of the request -/

theorem DhExchangeReq.consumes (sender receiver : ByteOrder) (req : DhExchangeReq)
    (hp : req.p.length < 2 ^ 32) (hg : req.g.length < 2 ^ 32)
    (hpubkey : req.pubkey.length < 2 ^ 32) :
    Consumes (deserialize receiver) (req.serialize sender) req :=
  (consumes_str sender receiver req.p hp).bind ((consumes_str sender receiver req.g hg).bind
    ((consumes_str sender receiver req.pubkey hpubkey).map _))

theorem EcdhExchangeReq.consumes (sender receiver : ByteOrder) (req : EcdhExchangeReq)
    (hpubkey : req.pubkey.length < 2 ^ 32) :
    Consumes (deserialize receiver) (req.serialize sender) req :=
  (consumes_uint32 sender receiver req.curveNid).bind
    ((consumes_str sender receiver req.pubkey hpubkey).map _)

namespace HandshakeReq

/-- Every string of the request is shorter than 4 GiB, and the exchange that is not in use is
empty. -/
def Fits (req : HandshakeReq) : Prop :=
  req.tempSymsec.length < 2 ^ 32 ∧
    if req.kxType = kxEcdh then req.ecdh.pubkey.length < 2 ^ 32 ∧ req.dh = ⟨[], [], []⟩
    else req.dh.p.length < 2 ^ 32 ∧ req.dh.g.length < 2 ^ 32 ∧ req.dh.pubkey.length < 2 ^ 32 ∧
      req.ecdh = ⟨0, []⟩

/-- Assumes: a request whose strings are shorter than 4 GiB. It is read as it was written. -/
theorem deserialize_serialize (sender receiver : ByteOrder) (req : HandshakeReq)
    (hfits : req.Fits) :
    deserialize receiver (req.serialize sender) = req := by
  obtain ⟨hsymsec, hexchange⟩ := hfits
  have hread : Consumes (readExchange receiver req.kxType)
      (if req.kxType = kxEcdh then req.ecdh.serialize sender else req.dh.serialize sender)
      (req.dh, req.ecdh) := by
    unfold readExchange
    split_ifs at hexchange ⊢ with hkx
    · obtain ⟨hpubkey, hdh⟩ := hexchange
      rw [hdh]
      exact (EcdhExchangeReq.consumes sender receiver req.ecdh hpubkey).map _
    · obtain ⟨hp, hg, hpubkey, hecdh⟩ := hexchange
      rw [hecdh]
      exact (DhExchangeReq.consumes sender receiver req.dh hp hg hpubkey).map _
  exact Consumes.run' ((consumes_uint8 req.kxType).bind (hread.bind
    ((consumes_str sender receiver req.tempSymsec hsymsec).bind
      ((consumes_uint8 req.tempSymsecType).map _))))

end HandshakeReq

/-! ### The helper of the server -/

/-- `handshake_helper`: the keys of the last handshake, its key exchange and its curve. -/
structure HandshakeHelper (Pkey : Type*) where
  dh : Option Pkey
  ecKey : Option Pkey
  rsaKey : Pkey
  kxType : KeyExchangeType
  ecCurveNid : BitVec 32

namespace HandshakeHelper

variable {Pkey : Type*} (evp : Evp Pkey) (order : ByteOrder)

/-- The loop of `rsaEncrypt` over the blocks of the input: nothing, if one block fails. -/
def rsaBlocks (key : Pkey) (type : EncryptType) : List Bytes → Bytes → Bytes
  | [], result => result
  | src :: blocks, result =>
    match rsaEncryptBlock evp src key type with
    | some (byte :: dst) => rsaBlocks key type blocks (result ++ byte :: dst)
    | _ => []

/-- `rsaEncrypt` for decryption: blocks of the size of the key, the last one shorter. -/
def rsaDecrypt (helper : HandshakeHelper Pkey) (data : Bytes) : Bytes :=
  rsaBlocks evp helper.rsaKey .rsaPrivateDec
    (data.toChunks (evp.pkeySize helper.rsaKey).toNat) []

/-- `decryptHSReq`. -/
def decryptHSReq (helper : HandshakeHelper Pkey) (data : Bytes) : Option HandshakeReq :=
  match rsaDecrypt evp helper data with
  | [] => none
  | result => some (HandshakeReq.deserialize order result)

/-- The key that the server generates for a request. -/
def generateKey (req : HandshakeReq) : Option Pkey :=
  if req.kxType = kxEcdh then eccCreate evp req.ecdh.curveNid else dhGenerate evp req.dh.p req.dh.g

/-- The public value of a key of the server. -/
def exportPubkey (kxType : KeyExchangeType) (key : Pkey) : Bytes :=
  if kxType = kxEcdh then eccExportPubkey evp key else dhExportPub evp key

/-- `creatHSResp`. A failed generation has set the type of the exchange and cleared the key. -/
def creatHSResp (helper : HandshakeHelper Pkey) (req : HandshakeReq) (sessionType : EncryptType) :
    Option HandshakeResp × HandshakeHelper Pkey :=
  if sessionType.isAes then
    let key := generateKey evp req
    let helper :=
      if req.kxType = kxEcdh then { helper with kxType := req.kxType, ecKey := key }
      else { helper with kxType := req.kxType, dh := key }
    match key with
    | some key =>
      (some ⟨req.kxType, exportPubkey evp req.kxType key, sessionType.toByte⟩,
        if req.kxType = kxEcdh then { helper with ecCurveNid := req.ecdh.curveNid } else helper)
    | none => (none, helper)
  else (none, helper)

/-- `encryptHSResp`: `substr(16)` throws for a temporary secret shorter than 16 bytes. -/
def encryptHSResp (resp : HandshakeResp) (tempSymsec : Bytes) (type : Option EncryptType) :
    Option Bytes :=
  if tempSymsec.length < 16 then none
  else
    match symmetricEncrypt evp (resp.serialize order) (tempSymsec.take 16) (tempSymsec.drop 16) type
        true with
    | .ok result => some result
    | .error _ => some []

/-- `makeShareKey`: empty when it fails. -/
def makeShareKey (helper : HandshakeHelper Pkey) (peerPubkey : Bytes) : Bytes :=
  match if helper.kxType = kxEcdh then helper.ecKey else helper.dh with
  | some key =>
    let keyLen := evp.pkeySize key
    if 0 < keyLen then
      (if helper.kxType = kxEcdh then eccComputeSharekey evp key helper.ecCurveNid peerPubkey keyLen
        else dhComputeSharekey evp key peerPubkey keyLen).getD []
    else []
  | none => []

end HandshakeHelper

end TszyUlt.Lygc
