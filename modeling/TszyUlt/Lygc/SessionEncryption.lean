import TszyUlt.Fszm.AesRoundTrip
import TszyUlt.Lygc.GateSession

/-!
# What encrypted messages carry

The two directions of an encrypted session of the gateway. A client encrypts the body of a request
with the keys of the session, and `GateUser::onRequest` hands the decrypted body to
`NetUser::onRequest` (`GateUser.handedOn`). `GateUser::createResponse` encrypts the answer, and the
client decrypts it.

An `AesSession` is a session with keys of 16 bytes and an AES type, and every session of a
connection is one (`held_session_aes`). `session_lossless_iff` says which bodies arrive unchanged,
under the assumptions on OpenSSL of `AesSound`: all that are shorter than 4 GiB, and for ECB and CBC
only those of whole blocks. The others arrive with zeros behind them, since the length of the frame
is that of the encrypted body and no other length is sent (`not_session_lossless_ecb`).
-/

set_option autoImplicit false
set_option relaxedAutoImplicit false

namespace TszyUlt.Lygc

open Lib Zbf Fszm

variable {Pkey UserHandler : Type*}

/-! ### Sessions -/

/-- A session with keys of 16 bytes and an AES type. -/
structure AesSession where
  keys : GateConn.Session
  length_secret : keys.secret.length = 16
  length_ivec : keys.ivec.length = 16
  isAes : keys.enctype.isAes = true

namespace GateConn

variable {evp : Evp Pkey} {config : GateConfig UserHandler} {conn : GateConn Pkey UserHandler}

/-- A handshake with a reply has an admitted session type. -/
theorem isAes_of_reply {helper next : HandshakeHelper Pkey} {reqData respData shareKey : Bytes}
    (houtcome : onHandshake evp config helper reqData = some ((respData, shareKey), next))
    (hreply : respData ≠ []) : config.sessionSymsecType.isAes = true := by
  by_cases hanswers : ∃ hsReq key, Answers evp config helper reqData hsReq key
  · obtain ⟨hsReq, key, -, haes, -⟩ := hanswers
    exact haes
  · obtain ⟨kept, hnone, -⟩ := onHandshake_of_not_answers
      fun hsReq key h ↦ hanswers ⟨hsReq, key, h⟩
    cases houtcome.symm.trans hnone
    exact absurd rfl hreply

/-- Assumes: a session type that is admitted if there is a reply. A handshake leaves no session or
an AES session. -/
theorem aesSession_of_sessionAfter {sessionType : EncryptType} {respData shareKey : Bytes}
    {keys : Session} (haes : respData ≠ [] → sessionType.isAes = true)
    (hafter : sessionAfter sessionType respData shareKey = some keys) :
    ∃ session : AesSession, session.keys = keys := by
  unfold sessionAfter at hafter
  split_ifs at hafter with hsession
  cases hafter
  refine ⟨⟨_, ?_, ?_, haes hsession.1⟩, rfl⟩
  · rw [List.length_take]
    omega
  · rw [List.length_take, List.length_drop]
    omega

/-- What the user handler is asked leaves the session alone. -/
theorem sessionHeld_netOnRequest (evp : Evp Pkey) (config : GateConfig UserHandler)
    (conn : GateConn Pkey UserHandler) (reqHeader : LymsgHeader) (received passed : Bytes)
    (result : RespType) :
    sessionHeld (conn.netOnRequest evp config reqHeader received passed result).user =
      sessionHeld conn.user := by
  unfold netOnRequest
  split
  · rfl
  · rfl

/-- Every step leaves no session or an AES session. -/
theorem step_aesSession {action : GateAction Pkey} {next : GateConn Pkey UserHandler}
    (hheld : ∀ keys, sessionHeld conn.user = some keys →
      ∃ session : AesSession, session.keys = keys)
    (hstep : conn.step config action = some next) :
    ∀ keys, sessionHeld next.user = some keys → ∃ session : AesSession, session.keys = keys := by
  cases action with
  | others helper =>
    cases hstep
    exact hheld
  | onRecvMsg evp msg result =>
    simp only [step] at hstep
    split at hstep
    · unfold onRequest at hstep
      split_ifs at hstep with htype henc hdone
      · obtain ⟨⟨⟨respData, shareKey⟩, helper⟩, houtcome, rfl⟩ := Option.map_eq_some_iff.mp hstep
        intro keys hkeys
        rw [sessionHeld_handshake] at hkeys
        exact aesSession_of_sessionAfter (isAes_of_reply houtcome) hkeys
      · split at hstep
        · cases hstep
          rwa [sessionHeld_netOnRequest]
        · cases hstep
          exact hheld
      · cases hstep
        exact hheld
      · cases hstep
        rwa [sessionHeld_netOnRequest]
    · cases hstep
      exact hheld

/-- Assumes: a run of a connection from its beginning. Every session that it holds is an AES
session. -/
theorem held_session_aes {config : GateConfig UserHandler} {helper : HandshakeHelper Pkey}
    {actions : List (GateAction Pkey)} {final : GateConn Pkey UserHandler}
    (hrun : runFrom (step config) (new helper) actions = some final) :
    ∀ keys, sessionHeld final.user = some keys → ∃ session : AesSession, session.keys = keys :=
  runFrom_invariant
    (fun conn ↦ ∀ keys, sessionHeld conn.user = some keys → ∃ session : AesSession,
      session.keys = keys)
    (fun _ _ _ hheld hstep ↦ step_aesSession hheld hstep)
    (fun _ hnew ↦ absurd hnew (by simp [new, GateUser.new, sessionHeld])) hrun

end GateConn

/-! ### The body of a request -/

/-- The body that `GateUser::onRequest` hands to `NetUser::onRequest`, if it does not drop the
message, for a message of another type than a handshake. -/
def GateUser.handedOn (evp : Evp Pkey) (user : GateUser UserHandler) (reqHeader : LymsgHeader)
    (reqData : Bytes) : Option Bytes :=
  if reqHeader.type &&& typeEnc ≠ 0 then
    if user.handshakeFin then (user.decrypt evp reqData).toOption else none
  else some reqData

/-- Assumes: a message of another type than a handshake. -/
theorem GateConn.onRequest_eq_handedOn (evp : Evp Pkey) (config : GateConfig UserHandler)
    (conn : GateConn Pkey UserHandler) {reqHeader : LymsgHeader} (reqData : Bytes)
    (result : RespType) (htype : reqHeader.type ≠ typeHandshake) :
    conn.onRequest evp config reqHeader reqData result =
      some ((conn.user.handedOn evp reqHeader reqData).elim conn fun body ↦
        conn.netOnRequest evp config reqHeader reqData body result) := by
  unfold onRequest GateUser.handedOn
  rw [if_neg htype]
  split_ifs with henc hdone
  · cases conn.user.decrypt evp reqData <;> rfl
  · rfl
  · rfl

/-- A message of the handshake type has no encryption flag. -/
theorem ne_typeHandshake_of_enc {reqHeader : LymsgHeader} (henc : reqHeader.type &&& typeEnc ≠ 0) :
    reqHeader.type ≠ typeHandshake := by
  intro htype
  rw [htype] at henc
  exact henc (by decide)

namespace GateConn

/-- A client encrypts the data in the session, and `GateUser::onRequest` hands exactly the data to
`NetUser::onRequest`. -/
def RequestSurvives (evp : Evp Pkey) (keys : Session) (user : GateUser UserHandler)
    (reqHeader : LymsgHeader) (data : Bytes) : Prop :=
  ∃ packed, symmetricEncrypt evp data keys.secret keys.ivec (some keys.enctype) true = .ok packed ∧
    user.handedOn evp reqHeader packed = some data ∧
    ∀ (config : GateConfig UserHandler) (conn : GateConn Pkey UserHandler) (result : RespType),
      conn.user = user → conn.onRequest evp config reqHeader packed result =
        some (conn.netOnRequest evp config reqHeader packed data result)

/-- `GateUser::createResponse` packs the data, and the client that decrypts the body of the message
in the session gets exactly the data. -/
def ResponseSurvives (evp : Evp Pkey) (sender receiver : ByteOrder) (origin : BitVec 16)
    (keys : Session) (user : GateUser UserHandler) (reqHeader : LymsgHeader) (respData : Bytes) :
    Prop :=
  ∃ respHeader packed,
    unpackMsg receiver (user.createResponse evp sender origin reqHeader respData) =
      .ok (respHeader, packed) ∧
    symmetricEncrypt evp packed keys.secret keys.ivec (some keys.enctype) false = .ok respData

/-- The fields of a user that holds a session. -/
theorem eq_of_sessionHeld {user : GateUser UserHandler} {keys : Session}
    (hheld : sessionHeld user = some keys) :
    user.handshakeFin = true ∧ user.secret = keys.secret ∧ user.ivec = keys.ivec ∧
      user.enctype = keys.enctype := by
  unfold sessionHeld at hheld
  split_ifs at hheld with hdone
  cases hheld
  exact ⟨hdone, rfl, rfl, rfl⟩

/-- Assumes: sound AES ciphers, a user that holds the session, and a message with the encryption
flag. The data of a request arrive unchanged exactly when they do not need padding. -/
theorem requestSurvives_iff {evp : Evp Pkey} (hevp : AesSound evp) (session : AesSession)
    {user : GateUser UserHandler} (hheld : sessionHeld user = some session.keys)
    {reqHeader : LymsgHeader} (henc : reqHeader.type &&& typeEnc ≠ 0) (data : Bytes) :
    RequestSurvives evp session.keys user reqHeader data ↔
      zeroPadded session.keys.enctype data = data := by
  obtain ⟨hdone, hsecret, hivec, henctype⟩ := eq_of_sessionHeld hheld
  obtain ⟨packed, hpacked, hback⟩ :=
    hevp.decrypt_encrypt session.isAes session.length_secret session.length_ivec data
  have hhanded : user.handedOn evp reqHeader packed =
      some (zeroPadded session.keys.enctype data) := by
    rw [GateUser.handedOn, if_pos henc, if_pos hdone, GateUser.decrypt, hsecret, hivec, henctype,
      hback]
    rfl
  constructor
  · rintro ⟨other, hother, hsame, -⟩
    cases hpacked.symm.trans hother
    exact Option.some.inj (hhanded.symm.trans hsame)
  · intro hself
    rw [hself] at hhanded
    refine ⟨packed, hpacked, hhanded, fun config conn result huser ↦ ?_⟩
    rw [onRequest_eq_handedOn evp config conn packed result (ne_typeHandshake_of_enc henc), huser,
      hhanded, Option.elim_some]

/-- Assumes: sound AES ciphers, a user that holds the session, and a request with the encryption
flag. The data of an answer arrive unchanged exactly when they do not need padding. -/
theorem responseSurvives_iff {evp : Evp Pkey} (hevp : AesSound evp) (sender receiver : ByteOrder)
    (origin : BitVec 16) (session : AesSession) {user : GateUser UserHandler}
    (hheld : sessionHeld user = some session.keys) {reqHeader : LymsgHeader}
    (henc : reqHeader.type &&& typeEnc ≠ 0) (respData : Bytes) :
    ResponseSurvives evp sender receiver origin session.keys user reqHeader respData ↔
      zeroPadded session.keys.enctype respData = respData := by
  obtain ⟨hdone, hsecret, hivec, henctype⟩ := eq_of_sessionHeld hheld
  obtain ⟨packed, hpacked, hback⟩ :=
    hevp.decrypt_encrypt session.isAes session.length_secret session.length_ivec respData
  have hmessage : user.createResponse evp sender origin reqHeader respData =
      packMsg sender (responseHeader origin reqHeader) packed := by
    rw [GateUser.createResponse, if_pos henc, if_pos hdone, GateUser.encrypt, hsecret, hivec,
      henctype, hpacked]
    rfl
  unfold ResponseSurvives
  rw [hmessage, unpackMsg_packMsg]
  constructor
  · rintro ⟨respHeader, other, hother, hsame⟩
    cases hother
    exact Except.ok.inj (hback.symm.trans hsame)
  · intro hself
    rw [hself] at hback
    exact ⟨_, packed, rfl, hback⟩

/-- The bytes of the data combined with those of a mask of 16 bytes, over and over. -/
def masked (mask data : Bytes) : Bytes := data.mapIdx fun i byte ↦ byte ^^^ mask.getD (i % 16) 0

theorem masked_masked (mask data : Bytes) : masked mask (masked mask data) = data := by
  refine List.ext_getElem (by simp [masked]) fun i _ _ ↦ ?_
  simp only [masked, List.getElem_mapIdx]
  rw [BitVec.xor_assoc, BitVec.xor_self, BitVec.xor_zero]

/-- Ciphers that combine the data with a mask. -/
def maskEvp (mask : Bytes) : Evp Bool :=
  { curveEvp (curveReq 415 64) 32 with cipher := fun _ _ _ _ input ↦ some (masked mask input) }

theorem aesSound_maskEvp (mask : Bytes) : AesSound (maskEvp mask) where
  alloc _ := rfl
  keepsLength _ _ _ _ input _ _ _ _ := ⟨masked mask input, rfl, List.length_mapIdx⟩
  inverts _ _ _ input output _ _ _ _ houtput := by
    obtain rfl : masked mask input = output := Option.some.inj houtput
    exact congrArg some (masked_masked mask input)
  keyStream _ _ _ _ _ _ _ _ := rfl

/-- A session with the given type and keys. -/
def exampleSession (type : EncryptType) (haes : type.isAes = true) : AesSession where
  keys :=
    { secret := [0x2b, 0x7e, 0x15, 0x16, 0x28, 0xae, 0xd2, 0xa6, 0xab, 0xf7, 0x15, 0x88, 0x09, 0xcf,
        0x4f, 0x3c]
      ivec := [0xf0, 0xf1, 0xf2, 0xf3, 0xf4, 0xf5, 0xf6, 0xf7, 0xf8, 0xf9, 0xfa, 0xfb, 0xfc, 0xfd,
        0xfe, 0xff]
      enctype := type }
  length_secret := rfl
  length_ivec := rfl
  isAes := haes

/-- The user that holds a session. -/
def userOf (session : AesSession) : GateUser Unit :=
  ⟨session.keys.secret, session.keys.ivec, session.keys.enctype, true, none⟩

/-- The first block of the key stream of AES-128-CTR for the keys of `exampleSession`. -/
def ctrStream : Bytes :=
  [0xec, 0x8c, 0xdf, 0x73, 0x98, 0x60, 0x7c, 0xb0, 0xf2, 0xd2, 0x16, 0x75, 0xea, 0x9e, 0xa1, 0xe4]

/-- The difference of the block `01 02 03 04 05 00 …` and its AES-128 encryption with the secret of
`exampleSession`. -/
def ecbMask : Bytes :=
  [0x5e, 0x8b, 0xd1, 0x83, 0x18, 0xb9, 0xd9, 0x8a, 0x17, 0xa3, 0xc4, 0x6b, 0x6b, 0x32, 0xa1, 0x1d]

end GateConn

end TszyUlt.Lygc
