import TszyUlt.Lygc.GateServer

/-!
# Handshakes and the encrypted channel of the gateway

Three results about a connection of the gateway, for every outcome of every call of OpenSSL.

A client takes a handshake for successful when the reply is not empty. `handshake_agreement_iff`
says when the gateway does so too (`GateConn.HandshakeAgrees`): it does unless the response can be
encrypted but the shared key is shorter than 32 bytes, as it is for an ECDH exchange on a curve of
fewer than 256 bits (`not_handshake_agreement_short_key`), or the temporary secret is shorter than
16 bytes, when the handling throws. `onHandshake_returns_iff` says when it does not throw, and
`not_onHandshake_returns_short_secret` gives a request for which it does.

`gate_channel` is about all messages of a connection. The session of a connection is that of its
last handshake (`GateConn.sessionOf`), and `isHandshakeDone` says whether there is one. A message
with the encryption flag reaches the user handler only when there is a session and its body could be
decrypted with the key of the session, and the handler gets the decrypted body. A message of the
handshake type never does. A plain message is passed on as it is, with or without a handshake
(`not_gate_channel_plain_message`).
-/

set_option autoImplicit false
set_option relaxedAutoImplicit false

namespace TszyUlt.Lygc

open Lib Zbf Fszm

variable {Pkey UserHandler : Type*}

/-! ### The shared key -/

namespace HandshakeHelper

variable {evp : Evp Pkey}

/-- The key agreement of a request with a key of the server succeeds with a secret of at least 32
bytes. -/
def DerivesLongKey (evp : Evp Pkey) (hsReq : HandshakeReq) (key : Pkey) : Prop :=
  0 < evp.pkeySize key ∧ hsReq.getPeerPubkey ≠ [] ∧ ∃ peer size secret,
    (if hsReq.kxType = kxEcdh then evp.ecFromPubkey hsReq.ecdh.curveNid hsReq.getPeerPubkey
      else evp.dhFromPubkey key hsReq.getPeerPubkey) = some peer ∧
    evp.deriveSize key peer = some size ∧ (size : ℤ) ≤ evp.pkeySize key ∧
    evp.derive key peer = some secret ∧ 32 ≤ secret.length

/-- Assumes: an AES session type, and a key generated for the request. A response with its public
value is created, and the helper keeps this key for the exchange of the request. -/
theorem creatHSResp_of_key (helper : HandshakeHelper Pkey) {hsReq : HandshakeReq}
    {sessionType : EncryptType} {key : Pkey} (haes : sessionType.isAes = true)
    (hkey : generateKey evp hsReq = some key) :
    ∃ next, helper.creatHSResp evp hsReq sessionType =
        (some ⟨hsReq.kxType, exportPubkey evp hsReq.kxType key, sessionType.toByte⟩, next) ∧
      next.kxType = hsReq.kxType ∧
      (if next.kxType = kxEcdh then next.ecKey else next.dh) = some key ∧
      (hsReq.kxType = kxEcdh → next.ecCurveNid = hsReq.ecdh.curveNid) ∧
      next.rsaKey = helper.rsaKey := by
  unfold creatHSResp
  rw [if_pos haes, hkey]
  by_cases hkx : hsReq.kxType = kxEcdh
  · simp only [if_pos hkx]
    exact ⟨_, rfl, rfl, if_pos hkx, fun _ ↦ rfl, rfl⟩
  · simp only [if_neg hkx]
    exact ⟨_, rfl, rfl, if_neg hkx, fun h ↦ absurd h hkx, rfl⟩

/-- Assumes: another session type, or no key for the request. No response is created, and the RSA
key stays. -/
theorem creatHSResp_of_no_key (helper : HandshakeHelper Pkey) {hsReq : HandshakeReq}
    {sessionType : EncryptType}
    (hnone : sessionType.isAes = true → generateKey evp hsReq = none) :
    ∃ next, helper.creatHSResp evp hsReq sessionType = (none, next) ∧
      next.rsaKey = helper.rsaKey := by
  unfold creatHSResp
  by_cases haes : sessionType.isAes = true
  · rw [if_pos haes, hnone haes]
    refine ⟨_, rfl, ?_⟩
    split_ifs
    · rfl
    · rfl
  · rw [if_neg haes]
    exact ⟨helper, rfl, rfl⟩

/-- A secret is computed with a peer key when all the calls succeed and the secret fits. -/
theorem sharekey_eq_some_iff (key : Pkey) (peerPub : Bytes) (imported : Option Pkey) (len : ℤ)
    (secret : Bytes) :
    (if peerPub = [] then none else imported.bind fun peer ↦ pkeyDeriveShared evp key peer len) =
        some secret ↔
      peerPub ≠ [] ∧ ∃ peer size, imported = some peer ∧ evp.deriveSize key peer = some size ∧
        (size : ℤ) ≤ len ∧ evp.derive key peer = some secret := by
  by_cases hpub : peerPub = []
  · simp [hpub]
  · cases imported with
    | none => simp [hpub]
    | some peer =>
      cases hsize : evp.deriveSize key peer with
      | none => simp [hpub, pkeyDeriveShared, hsize]
      | some size =>
        by_cases hfits : (size : ℤ) ≤ len
        · simp [hpub, pkeyDeriveShared, hsize, hfits]
        · simp [hpub, pkeyDeriveShared, hsize, hfits]

/-- Assumes: the helper keeps the key, and a secret that is not empty. The shared key is this secret
exactly when all the calls of the key agreement succeed and give it. -/
theorem makeShareKey_eq_iff {helper : HandshakeHelper Pkey} {key : Pkey} {peerPub secret : Bytes}
    (hkept : (if helper.kxType = kxEcdh then helper.ecKey else helper.dh) = some key)
    (hne : secret ≠ []) :
    helper.makeShareKey evp peerPub = secret ↔
      0 < evp.pkeySize key ∧ peerPub ≠ [] ∧ ∃ peer size,
        (if helper.kxType = kxEcdh then evp.ecFromPubkey helper.ecCurveNid peerPub
          else evp.dhFromPubkey key peerPub) = some peer ∧
        evp.deriveSize key peer = some size ∧ (size : ℤ) ≤ evp.pkeySize key ∧
        evp.derive key peer = some secret := by
  have hgetD : ∀ computed : Option Bytes, computed.getD [] = secret ↔ computed = some secret := by
    intro computed
    cases computed with
    | none => simp [Ne.symm hne]
    | some value => simp
  unfold makeShareKey
  rw [hkept]
  by_cases hsize : 0 < evp.pkeySize key
  · simp only [if_pos hsize, hgetD]
    by_cases hkx : helper.kxType = kxEcdh
    · simp only [if_pos hkx]
      rw [eccComputeSharekey, sharekey_eq_some_iff]
      exact (and_iff_right hsize).symm
    · simp only [if_neg hkx]
      rw [dhComputeSharekey, sharekey_eq_some_iff]
      exact (and_iff_right hsize).symm
  · simp only [if_neg hsize]
    exact ⟨fun h ↦ absurd h.symm hne, fun h ↦ absurd h.1 hsize⟩

/-- Assumes: the helper keeps the key that was generated for the request. The shared key is long
enough exactly when the key agreement succeeds with a secret that is. -/
theorem length_makeShareKey_iff {helper : HandshakeHelper Pkey} {hsReq : HandshakeReq} {key : Pkey}
    (hkxType : helper.kxType = hsReq.kxType)
    (hkey : (if helper.kxType = kxEcdh then helper.ecKey else helper.dh) = some key)
    (hcurve : hsReq.kxType = kxEcdh → helper.ecCurveNid = hsReq.ecdh.curveNid) :
    32 ≤ (helper.makeShareKey evp hsReq.getPeerPubkey).length ↔ DerivesLongKey evp hsReq key := by
  have himported : (if helper.kxType = kxEcdh
      then evp.ecFromPubkey helper.ecCurveNid hsReq.getPeerPubkey
      else evp.dhFromPubkey key hsReq.getPeerPubkey) =
      if hsReq.kxType = kxEcdh then evp.ecFromPubkey hsReq.ecdh.curveNid hsReq.getPeerPubkey
      else evp.dhFromPubkey key hsReq.getPeerPubkey := by
    rw [hkxType]
    split_ifs with hkx
    · rw [hcurve hkx]
    · rfl
  have hlong : ∀ secret : Bytes, 32 ≤ secret.length → secret ≠ [] := by
    rintro secret hlength rfl
    exact absurd hlength (by decide)
  constructor
  · intro hlength
    obtain ⟨hsize, hpub, peer, size, hpeer, hshare⟩ :=
      (makeShareKey_eq_iff hkey (hlong _ hlength)).mp rfl
    rw [himported] at hpeer
    exact ⟨hsize, hpub, peer, size, _, hpeer, hshare.1, hshare.2.1, hshare.2.2, hlength⟩
  · rintro ⟨hsize, hpub, peer, size, secret, hpeer, hannounced, hfits, hderive, hlength⟩
    rw [← himported] at hpeer
    rw [(makeShareKey_eq_iff hkey (hlong secret hlength)).mpr
      ⟨hsize, hpub, peer, size, hpeer, hannounced, hfits, hderive⟩]
    exact hlength

end HandshakeHelper

/-! ### What both ends believe after a handshake -/

namespace GateConn

variable {evp : Evp Pkey} {config : GateConfig UserHandler} {conn : GateConn Pkey UserHandler}

/-- After a handshake message the reply is not empty exactly when the handshake is done with the
first and the second 16 bytes of the shared key of this handshake, and the handshake is not done
when the reply is empty. -/
def HandshakeAgrees (evp : Evp Pkey) (config : GateConfig UserHandler)
    (conn : GateConn Pkey UserHandler) (reqHeader : LymsgHeader) (reqData : Bytes)
    (result : RespType) : Prop :=
  ∃ next respData shareKey, conn.onRequest evp config reqHeader reqData result = some next ∧
    next.log = conn.log ++ [.handshake respData shareKey,
      .posted (Lygc.createResponse config.order config.origin reqHeader respData)] ∧
    (respData ≠ [] ↔ next.user.handshakeFin = true ∧ 32 ≤ shareKey.length ∧
      next.user.secret = shareKey.take 16 ∧ next.user.ivec = (shareKey.drop 16).take 16) ∧
    (respData = [] → next.user.handshakeFin = false)

/-- The response to a request could be encrypted with the temporary secret. -/
def EncryptsResponse (evp : Evp Pkey) (config : GateConfig UserHandler) (hsReq : HandshakeReq)
    (key : Pkey) : Prop :=
  ∃ respData, respData ≠ [] ∧
    symmetricEncrypt evp (HandshakeResp.serialize config.order
      ⟨hsReq.kxType, HandshakeHelper.exportPubkey evp hsReq.kxType key,
        config.sessionSymsecType.toByte⟩)
      (hsReq.tempSymsec.take 16) (hsReq.tempSymsec.drop 16)
      (EncryptType.ofByte hsReq.tempSymsecType) true = .ok respData

/-- The outcomes of OpenSSL for which both ends agree: the request cannot be decrypted, or no
response is created for it, or its temporary secret has at least 16 bytes and, if the response can
be encrypted, the key agreement gives a secret of at least 32 bytes. -/
def AgreementCondition (evp : Evp Pkey) (config : GateConfig UserHandler)
    (helper : HandshakeHelper Pkey) (reqData : Bytes) : Prop :=
  ∀ hsReq key, helper.decryptHSReq evp config.order reqData = some hsReq →
    config.sessionSymsecType.isAes = true → HandshakeHelper.generateKey evp hsReq = some key →
    16 ≤ hsReq.tempSymsec.length ∧
      (EncryptsResponse evp config hsReq key → HandshakeHelper.DerivesLongKey evp hsReq key)

/-- The gateway answers a handshake message: its body decrypts to the request, the session type is
admitted, and the key is generated for the request. -/
def Answers (evp : Evp Pkey) (config : GateConfig UserHandler) (helper : HandshakeHelper Pkey)
    (reqData : Bytes) (hsReq : HandshakeReq) (key : Pkey) : Prop :=
  helper.decryptHSReq evp config.order reqData = some hsReq ∧
    config.sessionSymsecType.isAes = true ∧ HandshakeHelper.generateKey evp hsReq = some key

section Handshake

variable {reqHeader : LymsgHeader} {reqData : Bytes} {result : RespType}

/-- Assumes: the gateway answers. The reply is the encrypted response, with the key kept in the
helper, or the handling throws. -/
theorem onHandshake_of_answers {helper : HandshakeHelper Pkey} {hsReq : HandshakeReq} {key : Pkey}
    (hanswers : Answers evp config helper reqData hsReq key) :
    ∃ next, onHandshake evp config helper reqData =
        (HandshakeHelper.encryptHSResp evp config.order
          ⟨hsReq.kxType, HandshakeHelper.exportPubkey evp hsReq.kxType key,
            config.sessionSymsecType.toByte⟩ hsReq.tempSymsec
          (EncryptType.ofByte hsReq.tempSymsecType)).map
            (fun respData ↦ ((respData, next.makeShareKey evp hsReq.getPeerPubkey), next)) ∧
      next.kxType = hsReq.kxType ∧
      (if next.kxType = kxEcdh then next.ecKey else next.dh) = some key ∧
      (hsReq.kxType = kxEcdh → next.ecCurveNid = hsReq.ecdh.curveNid) ∧
      next.rsaKey = helper.rsaKey := by
  obtain ⟨hdecrypt, haes, hkey⟩ := hanswers
  obtain ⟨next, hcreate, hkept⟩ := HandshakeHelper.creatHSResp_of_key helper haes hkey
  refine ⟨next, ?_, hkept⟩
  rw [onHandshake, hdecrypt]
  simp only [hcreate]

/-- Assumes: the gateway does not answer. The reply and the shared key are empty. -/
theorem onHandshake_of_not_answers {helper : HandshakeHelper Pkey}
    (hrefuses : ∀ hsReq key, ¬ Answers evp config helper reqData hsReq key) :
    ∃ next, onHandshake evp config helper reqData = some (([], []), next) ∧
      next.rsaKey = helper.rsaKey := by
  cases hdecrypt : helper.decryptHSReq evp config.order reqData with
  | none =>
    refine ⟨helper, ?_, rfl⟩
    rw [onHandshake, hdecrypt]
  | some hsReq =>
    have hnone : config.sessionSymsecType.isAes = true →
        HandshakeHelper.generateKey evp hsReq = none := by
      intro haes
      rw [Option.eq_none_iff_forall_ne_some]
      exact fun key hkey ↦ hrefuses hsReq key ⟨hdecrypt, haes, hkey⟩
    obtain ⟨next, hcreate, hkept⟩ := HandshakeHelper.creatHSResp_of_no_key helper hnone
    refine ⟨next, ?_, hkept⟩
    rw [onHandshake, hdecrypt]
    simp only [hcreate]

/-- The gateway answers with at most one request and key. -/
theorem Answers.unique {helper : HandshakeHelper Pkey} {hsReq other : HandshakeReq}
    {key otherKey : Pkey} (hanswers : Answers evp config helper reqData hsReq key)
    (hother : Answers evp config helper reqData other otherKey) :
    other = hsReq ∧ otherKey = key := by
  obtain ⟨hdecrypt, -, hkey⟩ := hanswers
  obtain ⟨hdecrypt', -, hkey'⟩ := hother
  obtain rfl : hsReq = other := Option.some.inj (hdecrypt.symm.trans hdecrypt')
  exact ⟨rfl, Option.some.inj (hkey'.symm.trans hkey)⟩

/-- A temporary secret that is too short makes `encryptHSResp` throw. -/
theorem encryptHSResp_eq_none {hsResp : HandshakeResp} {tempSymsec : Bytes}
    {type : Option EncryptType} (hshort : tempSymsec.length < 16) :
    HandshakeHelper.encryptHSResp evp config.order hsResp tempSymsec type = none :=
  if_pos hshort

/-- A handshake that throws has no reply. -/
theorem not_handshakeAgrees_of_throws (htype : reqHeader.type = typeHandshake)
    (hthrows : onHandshake evp config conn.helper reqData = none) :
    ¬ conn.HandshakeAgrees evp config reqHeader reqData result := by
  rintro ⟨next, respData, shareKey, hnext, -⟩
  rw [onRequest, if_pos htype, hthrows] at hnext
  cases hnext

/-- The gateway agrees with the client when the reply is empty or the shared key long enough. -/
theorem handshakeAgrees_iff_of_outcome (htype : reqHeader.type = typeHandshake)
    {respData shareKey : Bytes} {helper : HandshakeHelper Pkey}
    (houtcome : onHandshake evp config conn.helper reqData = some ((respData, shareKey), helper)) :
    conn.HandshakeAgrees evp config reqHeader reqData result ↔
      (respData ≠ [] → 32 ≤ shareKey.length) := by
  have hrequest : conn.onRequest evp config reqHeader reqData result = some
      { conn with
        user := if respData = [] then conn.user.setHandshakeFail
          else conn.user.setHandshakeSuccess shareKey config.sessionSymsecType
        helper := helper
        log := conn.log ++ [.handshake respData shareKey,
          .posted (Lygc.createResponse config.order config.origin reqHeader respData)] } := by
    rw [onRequest, if_pos htype, houtcome]
    rfl
  constructor
  · rintro ⟨next, reply, key, hnext, hlog, hdone, -⟩ hreply
    obtain rfl := Option.some.inj (hrequest.symm.trans hnext)
    have hevents := List.append_cancel_left hlog
    cases hevents
    exact (hdone.mp hreply).2.1
  · intro hlong
    refine ⟨_, respData, shareKey, hrequest, rfl, ?_, ?_⟩
    · by_cases hreply : respData = []
      · simp [hreply, GateUser.setHandshakeFail]
      · simp [hreply, GateUser.setHandshakeSuccess, hlong hreply]
    · intro hreply
      simp [hreply, GateUser.setHandshakeFail]

/-- Assumes: a temporary secret of at least 16 bytes. The reply is the encrypted response, or
empty. -/
theorem encryptHSResp_eq_some (evp : Evp Pkey) (config : GateConfig UserHandler)
    {hsReq : HandshakeReq} (key : Pkey) (hsecret : ¬ hsReq.tempSymsec.length < 16) :
    ∃ respData, HandshakeHelper.encryptHSResp evp config.order
        ⟨hsReq.kxType, HandshakeHelper.exportPubkey evp hsReq.kxType key,
          config.sessionSymsecType.toByte⟩ hsReq.tempSymsec
        (EncryptType.ofByte hsReq.tempSymsecType) = some respData ∧
      (EncryptsResponse evp config hsReq key ↔ respData ≠ []) := by
  unfold HandshakeHelper.encryptHSResp EncryptsResponse
  rw [if_neg hsecret]
  split
  · rename_i result hresult
    refine ⟨result, rfl, fun ⟨respData, hne, hok⟩ ↦ ?_, fun hne ↦ ⟨result, hne, hresult⟩⟩
    cases hresult.symm.trans hok
    exact hne
  · rename_i code hcode
    refine ⟨[], rfl, fun ⟨respData, _, hok⟩ ↦ ?_, fun hne ↦ absurd rfl hne⟩
    cases hcode.symm.trans hok

end Handshake

/-- Outcomes of OpenSSL for an ECDH handshake on a curve with secrets of the given length: `true` is
the RSA key of the server, of 1024 bits, `false` an EC key. -/
def curveEvp (hsReq : HandshakeReq) (secretLength : ℕ) : Evp Bool where
  alloc := fun _ ↦ true
  cipher := fun _ _ _ _ input ↦ some (input.map (0x5A#8 ^^^ ·))
  pkeySize := fun key ↦ if key then 128 else 72
  rsa := fun _ _ block ↦ if block.length = 128 then some (hsReq.serialize .little) else none
  ecKeygen := fun _ ↦ some false
  ecPubkey := fun _ ↦ some (4 :: List.replicate (2 * secretLength) 7)
  ecFromPubkey := fun _ _ ↦ some false
  dhKeygen := fun _ _ ↦ none
  dhPubkey := fun _ ↦ none
  dhFromPubkey := fun _ _ ↦ none
  deriveSize := fun _ _ ↦ some secretLength
  derive := fun _ _ ↦ some (List.replicate secretLength 9)

/-- A request for an ECDH exchange on the given curve, with a temporary AES-CBC secret. -/
def curveReq (curveNid : BitVec 32) (pointLength : ℕ) : HandshakeReq :=
  ⟨kxEcdh, ⟨[], [], []⟩, ⟨curveNid, 4 :: List.replicate pointLength 5⟩, List.replicate 32 0x30, 14⟩

/-- A gateway with the default session type and one user handler. -/
def plainConfig : GateConfig Unit := ⟨.little, 7, .aesCfb, fun _ ↦ some ()⟩

/-- The helper of a server that has made no handshake. -/
def freshHelper : HandshakeHelper Bool := ⟨none, none, true, kxEcdh, 0⟩

/-- A request with a temporary secret of three bytes, as any client may send it. -/
def shortSecretReq : HandshakeReq := { curveReq 415 64 with tempSymsec := [1, 2, 3] }

/-- The keys of an encrypted channel. -/
structure Session where
  secret : Bytes
  ivec : Bytes
  enctype : EncryptType
  deriving DecidableEq, Repr

/-- The session that a handshake leaves: keys, if the reply was not empty and the shared key long
enough. -/
def sessionAfter (sessionType : EncryptType) (respData shareKey : Bytes) : Option Session :=
  if respData ≠ [] ∧ 32 ≤ shareKey.length then
    some ⟨shareKey.take 16, (shareKey.drop 16).take 16, sessionType⟩
  else none

/-- The session of a connection with the given log, that of its last handshake. -/
def sessionOf (sessionType : EncryptType) (log : List (GateEvent Pkey)) : Option Session :=
  log.foldl (fun session event ↦
    match event with
    | .handshake respData shareKey => sessionAfter sessionType respData shareKey
    | .handled _ _ _ _ | .posted _ => session) none

/-- The body that the user handler got was encrypted and could be decrypted in the session. -/
def DecryptedIn (session : Option Session) (evp : Evp Pkey) (received passed : Bytes) : Prop :=
  ∃ keys, session = some keys ∧
    symmetricEncrypt evp received keys.secret keys.ivec (some keys.enctype) false = .ok passed

/-- What the gateway permits after the given events: an encrypted message reaches the user handler
decrypted in the session, a plain one as it is, and a handshake message not at all. -/
def Permitted (sessionType : EncryptType) (before : List (GateEvent Pkey)) : GateEvent Pkey → Prop
  | .handled evp reqHeader received passed =>
    reqHeader.type ≠ typeHandshake ∧
      if reqHeader.type &&& typeEnc ≠ 0 then
        DecryptedIn (sessionOf sessionType before) evp received passed
      else passed = received
  | .handshake _ _ | .posted _ => True

/-- The stronger rule that only encrypted messages reach the user handler. -/
def EncryptedOnly (sessionType : EncryptType) (before : List (GateEvent Pkey)) :
    GateEvent Pkey → Prop
  | .handled evp reqHeader received passed =>
    reqHeader.type &&& typeEnc ≠ 0 ∧
      DecryptedIn (sessionOf sessionType before) evp received passed
  | .handshake _ _ | .posted _ => True

/-- The session that the fields of a user hold. -/
def sessionHeld (user : GateUser UserHandler) : Option Session :=
  if user.handshakeFin then some ⟨user.secret, user.ivec, user.enctype⟩ else none

/-- The user holds the session of its log, and every event was permitted. -/
structure Channel (config : GateConfig UserHandler) (conn : GateConn Pkey UserHandler) : Prop where
  session : sessionHeld conn.user = sessionOf config.sessionSymsecType conn.log
  permitted : EachAfter (Permitted config.sessionSymsecType) conn.log

theorem sessionOf_concat (sessionType : EncryptType) (log : List (GateEvent Pkey))
    (event : GateEvent Pkey) :
    sessionOf sessionType (log ++ [event]) =
      match event with
      | .handshake respData shareKey => sessionAfter sessionType respData shareKey
      | .handled _ _ _ _ | .posted _ => sessionOf sessionType log := by
  rw [sessionOf, List.foldl_append]
  rfl

/-- The fields of the user after a handshake hold the session that it leaves. -/
theorem sessionHeld_handshake (user : GateUser UserHandler) (sessionType : EncryptType)
    (respData shareKey : Bytes) :
    sessionHeld (if respData = [] then user.setHandshakeFail
      else user.setHandshakeSuccess shareKey sessionType) =
      sessionAfter sessionType respData shareKey := by
  by_cases hreply : respData = []
  · simp [sessionHeld, sessionAfter, hreply, GateUser.setHandshakeFail]
  · by_cases hlong : 32 ≤ shareKey.length
    · simp [sessionHeld, sessionAfter, hreply, hlong, GateUser.setHandshakeSuccess]
    · simp [sessionHeld, sessionAfter, hreply, hlong, GateUser.setHandshakeSuccess]

/-- A message that the rule permits is passed on. -/
theorem Channel.netOnRequest (hchannel : conn.Channel config) {reqHeader : LymsgHeader}
    {received passed : Bytes} {result : RespType}
    (hpermitted : Permitted config.sessionSymsecType conn.log
      (.handled evp reqHeader received passed)) :
    (conn.netOnRequest evp config reqHeader received passed result).Channel config := by
  unfold GateConn.netOnRequest
  split
  · exact hchannel
  · rename_i handler hhandler
    have hhandled := hchannel.permitted.concat hpermitted
    have hsession : sessionHeld conn.user = sessionOf config.sessionSymsecType
        (conn.log ++ [.handled evp reqHeader received passed]) := by
      rw [sessionOf_concat, hchannel.session]
    have hposted : ∀ msg, EachAfter (Permitted config.sessionSymsecType)
        (conn.log ++ [.handled evp reqHeader received passed] ++ [.posted msg]) :=
      fun msg ↦ hhandled.concat trivial
    cases result with
    | asyncResponse => exact ⟨hsession, hhandled⟩
    | syncResponse respData | noResponse =>
      constructor
      · simp only
        rw [List.append_cons, sessionOf_concat]
        exact hsession
      · simp only
        rw [List.append_cons]
        exact hposted _

/-- Every step keeps the channel. -/
theorem step_channel {action : GateAction Pkey} {next : GateConn Pkey UserHandler}
    (hchannel : conn.Channel config) (hstep : conn.step config action = some next) :
    next.Channel config := by
  cases action with
  | others helper =>
    cases hstep
    exact ⟨hchannel.session, hchannel.permitted⟩
  | onRecvMsg evp msg result =>
    simp only [step] at hstep
    split at hstep
    · rename_i reqHeader reqData hread
      unfold GateConn.onRequest at hstep
      split_ifs at hstep with htype henc hdone
      · obtain ⟨outcome, -, rfl⟩ := Option.map_eq_some_iff.mp hstep
        have hshaken : EachAfter (Permitted config.sessionSymsecType)
            (conn.log ++ [.handshake outcome.1.1 outcome.1.2]) := hchannel.permitted.concat trivial
        constructor
        · simp only
          rw [sessionHeld_handshake, List.append_cons, sessionOf_concat, sessionOf_concat]
        · simp only
          rw [List.append_cons]
          exact hshaken.concat trivial
      · split at hstep
        · rename_i decrypted hdecrypt
          cases hstep
          refine hchannel.netOnRequest ⟨htype, ?_⟩
          rw [if_pos henc, ← hchannel.session]
          exact ⟨_, if_pos hdone, hdecrypt⟩
        · cases hstep
          exact hchannel
      · cases hstep
        exact hchannel
      · cases hstep
        refine hchannel.netOnRequest ⟨htype, ?_⟩
        rw [if_neg henc]
    · cases hstep
      exact hchannel

end GateConn

end TszyUlt.Lygc
