import TszyUlt.Fszm.AesRoundTrip
import TszyUlt.Lygc.GateSession
import TszyUlt.Lygc.HandshakeClient

/-!
# Key agreement with a shared helper

Any number of clients that make a handshake with one gateway, each on a connection of its own. The
gateway handles the requests in any order with its single `HandshakeHelper`, which switches between
DH and ECDH, and handles requests of other connections in between, whatever they are.

`KeyAgreement` is the state of the gateway and of the exchanges, with the shared keys that both ends
compute. `OpensslSound` is what is assumed of OpenSSL, where any call may fail: decryption inverts
encryption, and the derivation of a shared secret commutes.

`key_agreement` says that a client that takes the keys of a session has computed the shared key that
the gateway has computed for its connection, and that both have the same secret, initialization
vector and session type. It holds in every run in which the key agreement of the gateway gives a
secret of at least 32 bytes for each request that it answers (`AgreementCondition`).
`not_key_agreement_short_key` is a run in which it does not: on the curve secp224r1 the client has
keys, and the gateway has none.

Scope. A client makes one handshake. Its request and the reply arrive as they were sent, or not at
all. The handling of a request holds a lock, so it is one step.
-/

set_option autoImplicit false
set_option relaxedAutoImplicit false

namespace TszyUlt.Lygc

open Lib Zbf Fszm

variable {Client Pkey UserHandler : Type*}

/-! ### What is assumed of OpenSSL -/

/-- What is assumed of OpenSSL, for its outcomes in a set of which each may fail at any call, and
for the key pair of the server: AES decryption inverts encryption; RSA encryption gives blocks of
the size of the key, and decryption inverts it; public values are short; and the derivation of a
shared secret commutes, from the keys that a client and the server have generated for one group. -/
structure OpensslSound (outcomes : Set (ClientEvp Pkey)) (publicKey privateKey : Pkey) : Prop where
  aes : ∀ first ∈ outcomes, ∀ second ∈ outcomes, AesInverts first.toEvp second.toEvp
  rsaSize : ∃ size : ℕ, 11 < size ∧ ∀ evp ∈ outcomes,
    evp.pkeySize publicKey = size ∧ evp.pkeySize privateKey = size ∧
    ∀ block output, evp.rsa .rsaPublicEnc publicKey block = some output → output.length = size
  rsaInverts : ∀ first ∈ outcomes, ∀ second ∈ outcomes, ∀ block output back,
    first.rsa .rsaPublicEnc publicKey block = some output →
    second.rsa .rsaPrivateDec privateKey output = some back → back = block
  exportsShort : ∀ evp ∈ outcomes, ∀ key value,
    evp.ecPubkey key = some value ∨ evp.dhPubkey key = some value ∨ evp.dhPrime key = some value ∨
      evp.dhGenerator key = some value → value.length < 2 ^ 16
  ecdhCommutes : ∀ client ∈ outcomes, ∀ server ∈ outcomes, ∀ later ∈ outcomes,
    ∀ curveNid own key ownPub pub ownPeer peer ownSecret secret,
    client.ecKeygen curveNid = some own → client.ecPubkey own = some ownPub →
    server.ecKeygen curveNid = some key → server.ecPubkey key = some pub →
    server.ecFromPubkey curveNid ownPub = some ownPeer →
    later.ecFromPubkey curveNid pub = some peer →
    server.derive key ownPeer = some secret → later.derive own peer = some ownSecret →
    ownSecret = secret
  dhCommutes : ∀ client ∈ outcomes, ∀ server ∈ outcomes, ∀ later ∈ outcomes,
    ∀ primeLen own key p g ownPub pub ownPeer peer ownSecret secret,
    client.dhParamgen primeLen = some own → client.dhPrime own = some p →
    client.dhGenerator own = some g → client.dhPubkey own = some ownPub →
    server.dhKeygen p g = some key → server.dhPubkey key = some pub →
    server.dhFromPubkey key ownPub = some ownPeer → later.dhFromPubkey own pub = some peer →
    server.derive key ownPeer = some secret → later.derive own peer = some ownSecret →
    ownSecret = secret

/-! ### The gateway and its clients -/

/-- The branch of `GateUser::onRequest` for a handshake, after `onHandshake`. -/
def GateUser.afterHandshake (user : GateUser UserHandler) (respData shareKey : Bytes)
    (sessionType : EncryptType) : GateUser UserHandler :=
  if respData = [] then user.setHandshakeFail else user.setHandshakeSuccess shareKey sessionType

/-- Where the exchange of a client stands: nothing sent, the request or the reply under way, or
finished. -/
inductive KeyExchangeStage
  | idle
  | requested (binHSReq : Bytes)
  | replied (binHSResp : Bytes)
  | finished
  deriving DecidableEq, Repr

/-- A client on a host of the given byte order, its connection at the gateway, and what an observer
records: the shared keys that both compute. -/
structure KeyExchange (Pkey UserHandler : Type*) where
  order : ByteOrder
  client : CommonClient Pkey
  user : GateUser UserHandler
  stage : KeyExchangeStage
  serverKey : Bytes
  clientKey : Bytes

/-- The helper of the gateway, and the exchanges of its clients. -/
structure KeyAgreement (Client Pkey UserHandler : Type*) where
  helper : HandshakeHelper Pkey
  exchanges : Client → KeyExchange Pkey UserHandler

/-- What happens. -/
inductive AgreementAction (Client Pkey : Type*)
  /-- A client sends its request, with a temporary secret of 32 random bytes. -/
  | handshake (client : Client) (evp : ClientEvp Pkey) (kxType : KeyExchangeType)
      (primeLen : BitVec 32) (tempType : EncryptType) (randomString : Fin 32 → Byte)
  /-- The gateway handles the request of a client. -/
  | serve (client : Client) (evp : ClientEvp Pkey)
  /-- A client handles the reply. -/
  | onHandshake (client : Client) (evp : ClientEvp Pkey)
  /-- The gateway handles a request of another connection. -/
  | other (evp : Evp Pkey) (reqData : Bytes)

/-- The outcomes of OpenSSL for a client or its connection are in the set. -/
def AgreementAction.Within (outcomes : Set (ClientEvp Pkey)) : AgreementAction Client Pkey → Prop
  | .handshake _ evp _ _ _ _ => evp ∈ outcomes
  | .serve _ evp => evp ∈ outcomes
  | .onHandshake _ evp => evp ∈ outcomes
  | .other _ _ => True

namespace KeyAgreement

/-- A gateway with its helper, and clients on hosts of the given byte orders that have its public
key. -/
def new (helper : HandshakeHelper Pkey) (publicKey : Pkey) (orders : Client → ByteOrder) :
    KeyAgreement Client Pkey UserHandler where
  helper := helper
  exchanges := fun client ↦ ⟨orders client, .new publicKey, .new, .idle, [], []⟩

variable [DecidableEq Client]

/-- One exchange goes on. -/
def setExchange (state : KeyAgreement Client Pkey UserHandler) (client : Client)
    (exchange : KeyExchange Pkey UserHandler) : KeyAgreement Client Pkey UserHandler :=
  { state with exchanges := Function.update state.exchanges client exchange }

theorem setExchange_self (state : KeyAgreement Client Pkey UserHandler) (client : Client)
    (exchange : KeyExchange Pkey UserHandler) :
    (state.setExchange client exchange).exchanges client = exchange := by
  simp [setExchange]

theorem setExchange_of_ne (state : KeyAgreement Client Pkey UserHandler) {client other : Client}
    (exchange : KeyExchange Pkey UserHandler) (hother : other ≠ client) :
    (state.setExchange client exchange).exchanges other = state.exchanges other := by
  simp [setExchange, hother]

/-- One step. -/
def step (config : GateConfig UserHandler) (state : KeyAgreement Client Pkey UserHandler) :
    AgreementAction Client Pkey → Option (KeyAgreement Client Pkey UserHandler)
  | .handshake client evp kxType primeLen tempType randomString =>
    let exchange := state.exchanges client
    match exchange.stage with
    | .idle =>
      let sent := exchange.client.handshake evp exchange.order kxType primeLen tempType
        (List.ofFn randomString)
      some (state.setExchange client { exchange with
        client := sent.2
        stage := sent.1.elim .finished .requested })
    | _ => none
  | .serve client evp =>
    let exchange := state.exchanges client
    match exchange.stage with
    | .requested binHSReq =>
      (GateConn.onHandshake evp.toEvp config state.helper binHSReq).map fun outcome ↦
        { state.setExchange client { exchange with
            user := exchange.user.afterHandshake outcome.1.1 outcome.1.2 config.sessionSymsecType
            stage := .replied outcome.1.1
            serverKey := outcome.1.2 } with
          helper := outcome.2 }
    | _ => none
  | .onHandshake client evp =>
    let exchange := state.exchanges client
    match exchange.stage with
    | .replied binHSResp =>
      (exchange.client.onHandshake evp.toEvp exchange.order binHSResp).map fun outcome ↦
        state.setExchange client { exchange with
          client := outcome.2
          stage := .finished
          clientKey := outcome.1 }
    | _ => none
  | .other evp reqData =>
    (GateConn.onHandshake evp config state.helper reqData).map fun outcome ↦
      { state with helper := outcome.2 }

end KeyAgreement

/-- A client that takes the keys of a session has the shared key of the gateway, and the gateway has
the same session. -/
def KeyExchange.Agrees (exchange : KeyExchange Pkey UserHandler) : Prop :=
  exchange.client.hsSuccess = true →
    exchange.clientKey = exchange.serverKey ∧
    ∃ sessionType, exchange.client.enctype = some sessionType ∧
      GateConn.sessionHeld exchange.user =
        some ⟨exchange.client.secret, exchange.client.ivec, sessionType⟩

/-- The key agreement of the gateway gives a secret of at least 32 bytes for each request of a
client that it answers. -/
def AgreementAction.DerivesLongKeys (config : GateConfig UserHandler)
    (state : KeyAgreement Client Pkey UserHandler) : AgreementAction Client Pkey → Prop
  | .serve client evp => ∀ binHSReq, (state.exchanges client).stage = .requested binHSReq →
    GateConn.AgreementCondition evp.toEvp config state.helper binHSReq
  | _ => True

/-! ### One exchange -/

namespace KeyExchange

/-- A request with a temporary secret of 32 bytes, for the exchange whose key the helper keeps. -/
structure Offered (evp : ClientEvp Pkey) (clientSide : HandshakeHelper Pkey) (hsReq : HandshakeReq)
    (own : Pkey) : Prop where
  kxType : clientSide.kxType = hsReq.kxType
  kept : (if clientSide.kxType = kxEcdh then clientSide.ecKey else clientSide.dh) = some own
  length_tempSymsec : hsReq.tempSymsec.length = 32
  tempSymsecType : ∃ type, type.isAes = true ∧ EncryptType.ofByte hsReq.tempSymsecType = some type
  fits : hsReq.Fits
  exchange : if hsReq.kxType = kxEcdh then
      clientSide.ecCurveNid = hsReq.ecdh.curveNid ∧ evp.ecKeygen hsReq.ecdh.curveNid = some own ∧
      hsReq.ecdh.pubkey = (evp.ecPubkey own).getD []
    else ∃ primeLen, evp.dhParamgen primeLen = some own ∧ hsReq.dh.p = (evp.dhPrime own).getD [] ∧
      hsReq.dh.g = (evp.dhGenerator own).getD [] ∧ hsReq.dh.pubkey = (evp.dhPubkey own).getD []

/-- The gateway has answered the request with a response that it could encrypt, and holds the
session of a shared key of at least 32 bytes. -/
structure Answered (evp : ClientEvp Pkey) (config : GateConfig UserHandler) (hsReq : HandshakeReq)
    (key : Pkey) (user : GateUser UserHandler) (binHSResp serverKey : Bytes) : Prop where
  generated : HandshakeHelper.generateKey evp.toEvp hsReq = some key
  encrypted : symmetricEncrypt evp.toEvp (HandshakeResp.serialize config.order
      ⟨hsReq.kxType, HandshakeHelper.exportPubkey evp.toEvp hsReq.kxType key,
        config.sessionSymsecType.toByte⟩)
      (hsReq.tempSymsec.take 16) (hsReq.tempSymsec.drop 16)
      (EncryptType.ofByte hsReq.tempSymsecType) true = .ok binHSResp
  derived : hsReq.getPeerPubkey ≠ [] ∧ ∃ peer,
    (if hsReq.kxType = kxEcdh then evp.ecFromPubkey hsReq.ecdh.curveNid hsReq.getPeerPubkey
      else evp.dhFromPubkey key hsReq.getPeerPubkey) = some peer ∧
    evp.derive key peer = some serverKey
  held : GateConn.sessionHeld user =
    some ⟨serverKey.take 16, (serverKey.drop 16).take 16, config.sessionSymsecType⟩

/-- The client waits for the reply to a request: it keeps the key of the exchange and the temporary
secret. -/
def Waits (evp : ClientEvp Pkey) (client : CommonClient Pkey) (hsReq : HandshakeReq) (own : Pkey) :
    Prop :=
  client.hsSuccess = false ∧ Offered evp client.clientSide hsReq own ∧
    client.tempSymsec = hsReq.tempSymsec ∧
    client.tempSymsecType = EncryptType.ofByte hsReq.tempSymsecType

/-- What holds of an exchange in each stage. -/
def Valid (outcomes : Set (ClientEvp Pkey)) (config : GateConfig UserHandler) (publicKey : Pkey)
    (exchange : KeyExchange Pkey UserHandler) : Prop :=
  match exchange.stage with
  | .idle => exchange.client.hsSuccess = false ∧ exchange.client.clientSide.rsaKey = publicKey
  | .requested binHSReq => exchange.client.clientSide.rsaKey = publicKey ∧ binHSReq ≠ [] ∧
    ∃ evp ∈ outcomes, ∃ hsReq own, Waits evp exchange.client hsReq own ∧
      binHSReq = exchange.client.clientSide.encryptHSReq evp.toEvp exchange.order hsReq
  | .replied binHSResp => exchange.client.hsSuccess = false ∧ (binHSResp ≠ [] →
    ∃ evp ∈ outcomes, ∃ server ∈ outcomes, ∃ hsReq own key, Waits evp exchange.client hsReq own ∧
      Answered server config hsReq key exchange.user binHSResp exchange.serverKey)
  | .finished => exchange.Agrees

/-! ### The request of a client -/

section Request

variable {outcomes : Set (ClientEvp Pkey)} {publicKey privateKey : Pkey} {evp : ClientEvp Pkey}

/-- What is exported is short, whether the export succeeds or not. -/
theorem length_getD_lt {exported : Option Bytes}
    (hshort : ∀ value, exported = some value → value.length < 2 ^ 16) :
    (exported.getD []).length < 2 ^ 16 := by
  cases exported with
  | none => decide
  | some value => exact hshort value rfl

/-- Assumes: sound outcomes, and a temporary secret of 32 bytes. A request that a client creates
comes with a key that its helper keeps. -/
theorem creatHSReq_eq_some (hsound : OpensslSound outcomes publicKey privateKey)
    (hevp : evp ∈ outcomes) {helper next : HandshakeHelper Pkey} {kxType : KeyExchangeType}
    {primeLen : BitVec 32} {tempType : EncryptType} {randomString : Bytes} {hsReq : HandshakeReq}
    (hrandom : randomString.length = 32)
    (hcreate : helper.creatHSReq evp kxType primeLen tempType randomString = (some hsReq, next)) :
    ∃ own, Offered evp next hsReq own := by
  have hshort := hsound.exportsShort evp hevp
  have hsymsec : randomString.length < 2 ^ 32 := by omega
  have hwords : 2 ^ 16 ≤ 2 ^ 32 := by decide
  unfold HandshakeHelper.creatHSReq at hcreate
  split_ifs at hcreate with haes hkx hprime
  · split at hcreate
    · rename_i key hkey
      cases hcreate
      refine ⟨key, rfl, if_pos hkx, hrandom, ⟨tempType, haes, ofByte_toByte tempType⟩,
        ⟨hsymsec, ?_⟩, ?_⟩
      · rw [if_pos hkx]
        exact ⟨(length_getD_lt fun value h ↦ hshort key value (.inl h)).trans_le hwords, rfl⟩
      · rw [if_pos hkx]
        exact ⟨rfl, hkey, rfl⟩
    · cases hcreate
  · cases hcreate
  · split at hcreate
    · rename_i key hkey
      cases hcreate
      refine ⟨key, rfl, if_neg hkx, hrandom, ⟨tempType, haes, ofByte_toByte tempType⟩,
        ⟨hsymsec, ?_⟩, ?_⟩
      · rw [if_neg hkx]
        exact
          ⟨(length_getD_lt fun value h ↦ hshort key value (.inr (.inr (.inl h)))).trans_le hwords,
            (length_getD_lt fun value h ↦ hshort key value (.inr (.inr (.inr h)))).trans_le hwords,
            (length_getD_lt fun value h ↦ hshort key value (.inr (.inl h))).trans_le hwords, rfl⟩
      · rw [if_neg hkx]
        exact ⟨_, hkey, rfl, rfl, rfl⟩
    · cases hcreate
  · cases hcreate

/-- The creation of a request leaves the RSA key. -/
theorem rsaKey_creatHSReq (evp : ClientEvp Pkey) (helper : HandshakeHelper Pkey)
    (kxType : KeyExchangeType) (primeLen : BitVec 32) (tempType : EncryptType)
    (randomString : Bytes) :
    (helper.creatHSReq evp kxType primeLen tempType randomString).2.rsaKey = helper.rsaKey := by
  unfold HandshakeHelper.creatHSReq
  split_ifs
  · split <;> rfl
  · rfl
  · split <;> rfl
  · rfl

/-- Assumes: sound outcomes, and a client that has not made a handshake. It waits for the reply to
the request that it sends, or has sent none. -/
theorem valid_handshake (hsound : OpensslSound outcomes publicKey privateKey)
    (hevp : evp ∈ outcomes) {config : GateConfig UserHandler}
    {exchange : KeyExchange Pkey UserHandler} (hidle : exchange.client.hsSuccess = false)
    (hkey : exchange.client.clientSide.rsaKey = publicKey) (kxType : KeyExchangeType)
    (primeLen : BitVec 32) (tempType : EncryptType) (randomString : Fin 32 → Byte) :
    Valid outcomes config publicKey { exchange with
      client := (exchange.client.handshake evp exchange.order kxType primeLen tempType
        (List.ofFn randomString)).2
      stage := (exchange.client.handshake evp exchange.order kxType primeLen tempType
        (List.ofFn randomString)).1.elim .finished .requested } := by
  have hrsa := rsaKey_creatHSReq evp exchange.client.clientSide kxType primeLen tempType
    (List.ofFn randomString)
  unfold CommonClient.handshake
  split
  · exact fun hsuccess ↦ absurd (hsuccess.symm.trans hidle) (by decide)
  · rename_i hsReq clientSide hcreate
    rw [hcreate] at hrsa
    split
    · exact fun hsuccess ↦ absurd (hsuccess.symm.trans hidle) (by decide)
    · rename_i byte binHSReq hbin
      obtain ⟨own, hoffered⟩ := creatHSReq_eq_some hsound hevp (List.length_ofFn) hcreate
      exact ⟨hrsa.trans hkey, List.cons_ne_nil _ _, evp, hevp, hsReq, own,
        ⟨hidle, hoffered, rfl, rfl⟩, hbin.symm⟩

end Request

/-! ### The answer of the gateway -/

section Answer

variable {outcomes : Set (ClientEvp Pkey)} {publicKey privateKey : Pkey}
  {evp server later : ClientEvp Pkey} {config : GateConfig UserHandler}

/-- A handshake leaves the RSA key. -/
theorem rsaKey_onHandshake {evp : Evp Pkey} {helper next : HandshakeHelper Pkey} {reqData : Bytes}
    {reply : Bytes × Bytes}
    (houtcome : GateConn.onHandshake evp config helper reqData = some (reply, next)) :
    next.rsaKey = helper.rsaKey := by
  by_cases hanswers : ∃ hsReq key, GateConn.Answers evp config helper reqData hsReq key
  · obtain ⟨hsReq, key, hanswers⟩ := hanswers
    obtain ⟨kept, hkept, -, -, -, hrsa⟩ := GateConn.onHandshake_of_answers hanswers
    obtain ⟨respData, -, heq⟩ := Option.map_eq_some_iff.mp (hkept.symm.trans houtcome)
    cases heq
    exact hrsa
  · obtain ⟨kept, hkept, hrsa⟩ := GateConn.onHandshake_of_not_answers
      fun hsReq key h ↦ hanswers ⟨hsReq, key, h⟩
    cases hkept.symm.trans houtcome
    exact hrsa

/-- Assumes: sound outcomes, the request of a client, an agreement that gives a long secret, and a
reply that is not empty. The gateway has answered the request, whatever its helper was used for
before. -/
theorem answered_of_onHandshake (hsound : OpensslSound outcomes publicKey privateKey)
    (hevp : evp ∈ outcomes) (hserver : server ∈ outcomes)
    {clientSide helper next : HandshakeHelper Pkey} {hsReq : HandshakeReq} {own : Pkey}
    (hoffered : Offered evp clientSide hsReq own) (hclientKey : clientSide.rsaKey = publicKey)
    (hserverKey : helper.rsaKey = privateKey) {order : ByteOrder}
    (hrequest : clientSide.encryptHSReq evp.toEvp order hsReq ≠ [])
    (hcondition : GateConn.AgreementCondition server.toEvp config helper
      (clientSide.encryptHSReq evp.toEvp order hsReq))
    {respData shareKey : Bytes}
    (houtcome : GateConn.onHandshake server.toEvp config helper
      (clientSide.encryptHSReq evp.toEvp order hsReq) = some ((respData, shareKey), next))
    (hreply : respData ≠ []) (user : GateUser UserHandler) :
    ∃ key, Answered server config hsReq key
      (user.afterHandshake respData shareKey config.sessionSymsecType) respData shareKey := by
  by_cases hanswers : ∃ decrypted key, GateConn.Answers server.toEvp config helper
      (clientSide.encryptHSReq evp.toEvp order hsReq) decrypted key
  · obtain ⟨decrypted, key, hanswers⟩ := hanswers
    obtain ⟨size, hroom, hsize⟩ := hsound.rsaSize
    have hsame : decrypted = hsReq := by
      have hinverts := hsound.rsaInverts evp hevp server hserver
      have hclientSize := hsize evp hevp
      have hserverSize := hsize server hserver
      rw [← hclientKey] at hinverts hclientSize
      rw [← hserverKey] at hinverts hserverSize
      exact HandshakeHelper.decryptHSReq_encryptHSReq hroom hclientSize.1 hserverSize.2.1
        hclientSize.2.2 hinverts order config.order hoffered.fits hrequest hanswers.1
    subst hsame
    obtain ⟨kept, hkept, hkxType, hkey, hcurve, -⟩ := GateConn.onHandshake_of_answers hanswers
    obtain ⟨encrypted, hencrypted, heq⟩ := Option.map_eq_some_iff.mp (hkept.symm.trans houtcome)
    cases heq
    have hlong : ¬ decrypted.tempSymsec.length < 16 := by
      rw [hoffered.length_tempSymsec]
      decide
    rw [HandshakeHelper.encryptHSResp, if_neg hlong] at hencrypted
    split at hencrypted
    · rename_i result hresult
      cases hencrypted
      have hderives := (hcondition decrypted key hanswers.1 hanswers.2.1 hanswers.2.2).2
        ⟨respData, hreply, hresult⟩
      have hlength := (HandshakeHelper.length_makeShareKey_iff hkxType hkey hcurve).mpr hderives
      have hne : next.makeShareKey server.toEvp decrypted.getPeerPubkey ≠ [] := by
        intro hempty
        rw [hempty] at hlength
        exact absurd hlength (by decide)
      obtain ⟨-, hpub, peer, size, hpeer, -, -, hsecret⟩ :=
        (HandshakeHelper.makeShareKey_eq_iff hkey hne).mp rfl
      refine ⟨key, hanswers.2.2, hresult, ⟨hpub, peer, ?_, hsecret⟩, ?_⟩
      · rw [hkxType] at hpeer
        split_ifs at hpeer ⊢ with hkx
        · rw [← hcurve hkx]
          exact hpeer
        · exact hpeer
      · rw [GateUser.afterHandshake, GateConn.sessionHeld_handshake, GateConn.sessionAfter,
          if_pos ⟨hreply, hlength⟩]
    · cases hencrypted
      exact absurd rfl hreply
  · obtain ⟨kept, hkept, -⟩ := GateConn.onHandshake_of_not_answers
      fun decrypted key h ↦ hanswers ⟨decrypted, key, h⟩
    cases hkept.symm.trans houtcome
    exact absurd rfl hreply

end Answer

/-! ### The keys of a client -/

section Keys

variable {outcomes : Set (ClientEvp Pkey)} {publicKey privateKey : Pkey}
  {evp server later : ClientEvp Pkey} {config : GateConfig UserHandler}

theorem eq_some_of_getD_ne_nil {exported : Option Bytes} (hne : exported.getD [] ≠ []) :
    exported = some (exported.getD []) := by
  cases exported with
  | none => exact absurd rfl hne
  | some value => rfl

/-- Assumes: sound outcomes, a request that the gateway has answered, and a shared key of the client
that is not empty. It is the shared key of the gateway. -/
theorem shareKey_eq (hsound : OpensslSound outcomes publicKey privateKey) (hevp : evp ∈ outcomes)
    (hserver : server ∈ outcomes) (hlater : later ∈ outcomes)
    {clientSide : HandshakeHelper Pkey} {hsReq : HandshakeReq} {own key : Pkey}
    {user : GateUser UserHandler} {binHSResp serverKey shareKey : Bytes}
    (hoffered : Offered evp clientSide hsReq own)
    (hanswered : Answered server config hsReq key user binHSResp serverKey) (hne : shareKey ≠ [])
    (hshare : clientSide.makeShareKey later.toEvp
      (HandshakeHelper.exportPubkey server.toEvp hsReq.kxType key) = shareKey) :
    shareKey = serverKey := by
  obtain ⟨-, hpub, peer, size, hpeer, -, -, hderive⟩ :=
    (HandshakeHelper.makeShareKey_eq_iff hoffered.kept hne).mp hshare
  obtain ⟨hownPub, ownPeer, hownPeer, hsecret⟩ := hanswered.derived
  have hgenerated := hanswered.generated
  have hexchange := hoffered.exchange
  rw [hoffered.kxType] at hpeer
  by_cases hkx : hsReq.kxType = kxEcdh
  · rw [if_pos hkx] at hpeer hownPeer hexchange
    rw [HandshakeHelper.exportPubkey, if_pos hkx] at hpub hpeer
    rw [HandshakeReq.getPeerPubkey, if_pos hkx] at hownPub hownPeer
    rw [HandshakeHelper.generateKey, if_pos hkx] at hgenerated
    obtain ⟨hcurve, hown, hexport⟩ := hexchange
    rw [hexport] at hownPub hownPeer
    rw [hcurve] at hpeer
    exact hsound.ecdhCommutes evp hevp server hserver later hlater _ own key _ _ ownPeer peer
      shareKey serverKey hown (eq_some_of_getD_ne_nil hownPub) hgenerated
      (eq_some_of_getD_ne_nil hpub) hownPeer hpeer hsecret hderive
  · rw [if_neg hkx] at hpeer hownPeer hexchange
    rw [HandshakeHelper.exportPubkey, if_neg hkx] at hpub hpeer
    rw [HandshakeReq.getPeerPubkey, if_neg hkx] at hownPub hownPeer
    rw [HandshakeHelper.generateKey, if_neg hkx, dhGenerate] at hgenerated
    split_ifs at hgenerated with hparameters
    obtain ⟨hp, hg⟩ := not_or.mp hparameters
    obtain ⟨primeLen, hown, hprime, hgenerator, hexport⟩ := hexchange
    rw [hexport] at hownPub hownPeer
    rw [hprime] at hp hgenerated
    rw [hgenerator] at hg hgenerated
    exact hsound.dhCommutes evp hevp server hserver later hlater primeLen own key _ _ _ _ ownPeer
      peer shareKey serverKey hown (eq_some_of_getD_ne_nil hp) (eq_some_of_getD_ne_nil hg)
      (eq_some_of_getD_ne_nil hownPub) hgenerated (eq_some_of_getD_ne_nil hpub) hownPeer hpeer
      hsecret hderive

/-- The response to a request, as the client reads it. -/
theorem decryptHSResp_eq (hsound : OpensslSound outcomes publicKey privateKey)
    (hserver : server ∈ outcomes) (hlater : later ∈ outcomes)
    {clientSide : HandshakeHelper Pkey} {hsReq : HandshakeReq} {own key : Pkey}
    {user : GateUser UserHandler} {binHSResp serverKey result : Bytes} (order : ByteOrder)
    (hoffered : Offered evp clientSide hsReq own)
    (hanswered : Answered server config hsReq key user binHSResp serverKey)
    (hdecrypt : symmetricEncrypt later.toEvp binHSResp (hsReq.tempSymsec.take 16)
      (hsReq.tempSymsec.drop 16) (EncryptType.ofByte hsReq.tempSymsecType) false = .ok result) :
    HandshakeResp.deserialize order result =
      ⟨hsReq.kxType, HandshakeHelper.exportPubkey server.toEvp hsReq.kxType key,
        config.sessionSymsecType.toByte⟩ := by
  obtain ⟨type, haes, htype⟩ := hoffered.tempSymsecType
  have hencrypted := hanswered.encrypted
  rw [htype] at hencrypted hdecrypt
  have hsecret : (hsReq.tempSymsec.take 16).length = 16 := by
    rw [List.length_take, hoffered.length_tempSymsec]
    rfl
  have hivec : (hsReq.tempSymsec.drop 16).length = 16 := by
    rw [List.length_drop, hoffered.length_tempSymsec]
  have hpadded := (hsound.aes server hserver later hlater).eq_zeroPadded haes hsecret hivec
    hencrypted hdecrypt
  have hpubkey : (HandshakeHelper.exportPubkey server.toEvp hsReq.kxType key).length < 2 ^ 16 := by
    have hshort := hsound.exportsShort server hserver key
    unfold HandshakeHelper.exportPubkey
    split_ifs
    · exact length_getD_lt fun value h ↦ hshort value (.inl h)
    · exact length_getD_lt fun value h ↦ hshort value (.inr (.inl h))
  have hlength : (HandshakeResp.serialize config.order
      ⟨hsReq.kxType, HandshakeHelper.exportPubkey server.toEvp hsReq.kxType key,
        config.sessionSymsecType.toByte⟩).length + 16 ≤ 2 ^ 32 := by
    simp only [HandshakeResp.serialize, serializeUint8, serializeStr, serializeUint32,
      List.length_append, length_store, List.length_singleton]
    omega
  -- A block cipher adds zeros, which the deserialization does not read.
  obtain ⟨count, hzeros⟩ := zeroPadded_eq_append haes hlength
  rw [hpadded, hzeros]
  exact HandshakeResp.deserialize_append config.order order _ (hpubkey.trans (by decide)) _

/-- Assumes: sound outcomes, a client that waits for the reply to a request, and a reply with which
the gateway has answered it. A client that takes the keys of a session agrees with the gateway. -/
theorem agrees_of_onHandshake (hsound : OpensslSound outcomes publicKey privateKey)
    (hevp : evp ∈ outcomes) (hserver : server ∈ outcomes) (hlater : later ∈ outcomes)
    {exchange : KeyExchange Pkey UserHandler} {hsReq : HandshakeReq} {own key : Pkey}
    {binHSResp shareKey : Bytes} {client : CommonClient Pkey}
    (hwaits : Waits evp exchange.client hsReq own)
    (hanswered : Answered server config hsReq key exchange.user binHSResp exchange.serverKey)
    (hreply : binHSResp ≠ [])
    (houtcome : exchange.client.onHandshake later.toEvp exchange.order binHSResp =
      some (shareKey, client)) :
    Agrees { exchange with client := client, stage := .finished, clientKey := shareKey } := by
  obtain ⟨hidle, hoffered, hsymsec, hsymsecType⟩ := hwaits
  have hlong : ¬ hsReq.tempSymsec.length < 16 := by
    rw [hoffered.length_tempSymsec]
    decide
  rw [CommonClient.onHandshake, if_neg hreply, hsymsec, hsymsecType, HandshakeHelper.decryptHSResp,
    if_neg hlong] at houtcome
  intro hsuccess
  split at houtcome
  · cases houtcome
  · cases houtcome
    exact absurd (hsuccess.symm.trans hidle) (by decide)
  · rename_i hsResp hdecrypted
    split at hdecrypted
    · rename_i result hresult
      obtain rfl := Option.some.inj (Option.some.inj hdecrypted)
      rw [decryptHSResp_eq hsound hserver hlater exchange.order hoffered hanswered hresult]
        at houtcome
      simp only at houtcome
      split_ifs at houtcome with hshort
      have hpair := Option.some.inj houtcome
      rw [Prod.mk.injEq] at hpair
      obtain ⟨hshare, hclient⟩ := hpair
      have hne : shareKey ≠ [] := by
        rintro rfl
        rw [hshare] at hshort
        exact hshort (by decide)
      have hsame := shareKey_eq hsound hevp hserver hlater hoffered hanswered hne hshare
      rw [hshare] at hclient
      subst hclient
      refine ⟨hsame, config.sessionSymsecType, ofByte_toByte _, ?_⟩
      rw [hsame]
      exact hanswered.held
    · cases hdecrypted

end Keys

end KeyExchange

/-! ### Every run -/

namespace KeyAgreement

variable {outcomes : Set (ClientEvp Pkey)} {publicKey privateKey : Pkey}
  {config : GateConfig UserHandler}

/-- The helper keeps its RSA key, and every exchange is valid in its stage. -/
structure Sound (outcomes : Set (ClientEvp Pkey)) (config : GateConfig UserHandler)
    (publicKey privateKey : Pkey) (state : KeyAgreement Client Pkey UserHandler) : Prop where
  rsaKey : state.helper.rsaKey = privateKey
  valid : ∀ client, (state.exchanges client).Valid outcomes config publicKey

theorem sound_new (outcomes : Set (ClientEvp Pkey)) (config : GateConfig UserHandler)
    (publicKey : Pkey) (helper : HandshakeHelper Pkey) (orders : Client → ByteOrder) :
    (new helper publicKey orders : KeyAgreement Client Pkey UserHandler).Sound outcomes config
      publicKey helper.rsaKey :=
  ⟨rfl, fun _ ↦ And.intro rfl rfl⟩

variable [DecidableEq Client]

/-- The other exchanges stay valid. -/
theorem Sound.setExchange {state : KeyAgreement Client Pkey UserHandler}
    (hstate : state.Sound outcomes config publicKey privateKey) {client : Client}
    {exchange : KeyExchange Pkey UserHandler}
    (hvalid : exchange.Valid outcomes config publicKey) :
    ∀ other, ((state.setExchange client exchange).exchanges other).Valid outcomes config
      publicKey := by
  intro other
  by_cases hother : other = client
  · subst hother
    rw [setExchange_self]
    exact hvalid
  · rw [setExchange_of_ne state exchange hother]
    exact hstate.valid other

/-- Assumes: sound outcomes, and a secret of at least 32 bytes for a request that is answered. A
step keeps every exchange valid. -/
theorem step_sound (hsound : OpensslSound outcomes publicKey privateKey)
    {state next : KeyAgreement Client Pkey UserHandler} {action : AgreementAction Client Pkey}
    (hstate : state.Sound outcomes config publicKey privateKey) (hwithin : action.Within outcomes)
    (hlong : action.DerivesLongKeys config state) (hstep : state.step config action = some next) :
    next.Sound outcomes config publicKey privateKey := by
  cases action with
  | handshake client evp kxType primeLen tempType randomString =>
    simp only [step] at hstep
    have hvalid := hstate.valid client
    unfold KeyExchange.Valid at hvalid
    split at hstep
    · rename_i hstage
      rw [hstage] at hvalid
      cases hstep
      exact ⟨hstate.rsaKey, hstate.setExchange (KeyExchange.valid_handshake hsound hwithin hvalid.1
        hvalid.2 kxType primeLen tempType randomString)⟩
    · cases hstep
  | serve client server =>
    simp only [step] at hstep
    have hvalid := hstate.valid client
    unfold KeyExchange.Valid at hvalid
    split at hstep
    · rename_i binHSReq hstage
      rw [hstage] at hvalid
      obtain ⟨hclientKey, hrequest, evp, hevp, hsReq, own, hwaits, rfl⟩ := hvalid
      obtain ⟨⟨⟨respData, shareKey⟩, helper⟩, houtcome, rfl⟩ := Option.map_eq_some_iff.mp hstep
      refine ⟨(KeyExchange.rsaKey_onHandshake houtcome).trans hstate.rsaKey,
        hstate.setExchange ⟨hwaits.1, fun hreply ↦ ?_⟩⟩
      obtain ⟨key, hanswered⟩ := KeyExchange.answered_of_onHandshake hsound hevp hwithin hwaits.2.1
        hclientKey hstate.rsaKey hrequest (hlong _ hstage) houtcome hreply
        (state.exchanges client).user
      exact ⟨evp, hevp, server, hwithin, hsReq, own, key, hwaits, hanswered⟩
    · cases hstep
  | onHandshake client later =>
    simp only [step] at hstep
    have hvalid := hstate.valid client
    unfold KeyExchange.Valid at hvalid
    split at hstep
    · rename_i binHSResp hstage
      rw [hstage] at hvalid
      obtain ⟨⟨shareKey, after⟩, houtcome, rfl⟩ := Option.map_eq_some_iff.mp hstep
      refine ⟨hstate.rsaKey, hstate.setExchange ?_⟩
      by_cases hreply : binHSResp = []
      · -- The client takes an empty reply for a failure.
        rw [CommonClient.onHandshake, if_pos hreply] at houtcome
        cases houtcome
        exact fun hsuccess ↦ absurd (hsuccess.symm.trans hvalid.1) (by decide)
      · obtain ⟨evp, hevp, server, hserver, hsReq, own, key, hwaits, hanswered⟩ :=
          hvalid.2 hreply
        exact KeyExchange.agrees_of_onHandshake hsound hevp hserver hwithin hwaits hanswered hreply
          houtcome
    · cases hstep
  | other evp reqData =>
    simp only [step] at hstep
    obtain ⟨⟨reply, helper⟩, houtcome, rfl⟩ := Option.map_eq_some_iff.mp hstep
    exact ⟨(KeyExchange.rsaKey_onHandshake houtcome).trans hstate.rsaKey, hstate.valid⟩

/-- A valid exchange agrees, in whatever stage. -/
theorem agrees_of_valid {exchange : KeyExchange Pkey UserHandler}
    (hvalid : exchange.Valid outcomes config publicKey) : exchange.Agrees := by
  intro hsuccess
  unfold KeyExchange.Valid at hvalid
  split at hvalid
  · exact absurd (hsuccess.symm.trans hvalid.1) (by decide)
  · obtain ⟨-, -, evp, -, hsReq, own, hwaits, -⟩ := hvalid
    exact absurd (hsuccess.symm.trans hwaits.1) (by decide)
  · exact absurd (hsuccess.symm.trans hvalid.1) (by decide)
  · exact hvalid hsuccess

/-- Assumes: sound outcomes of OpenSSL, and a run from the beginning in which the key agreement of
the gateway gives a secret of at least 32 bytes for each request of a client that it answers. Every
client that takes the keys of a session agrees with the gateway, whatever the order of the requests
and whatever other connections do. -/
theorem key_agreement (outcomes : Set (ClientEvp Pkey)) (publicKey privateKey : Pkey)
    (hsound : OpensslSound outcomes publicKey privateKey) (config : GateConfig UserHandler)
    (helper : HandshakeHelper Pkey) (hrsaKey : helper.rsaKey = privateKey)
    (orders : Client → ByteOrder) (actions : List (AgreementAction Client Pkey))
    (hwithin : ∀ action ∈ actions, action.Within outcomes)
    (hlong : Along (step config) (fun state action ↦ action.DerivesLongKeys config state)
      (new helper publicKey orders) actions)
    (final : KeyAgreement Client Pkey UserHandler)
    (hrun : runFrom (step config) (new helper publicKey orders) actions = some final) :
    ∀ client, (final.exchanges client).Agrees := by
  subst hrsaKey
  have hmeets := (along_of_forall (fun _ ↦ hwithin) (new helper publicKey orders)).and hlong
  have hfinal : final.Sound outcomes config publicKey helper.rsaKey :=
    runFrom_invariant_along (Sound outcomes config publicKey helper.rsaKey)
      (fun state action next hstate hmeets hstep ↦
        step_sound hsound hstate hmeets.1 hmeets.2 hstep)
      (sound_new outcomes config publicKey helper orders) hmeets hrun
  exact fun client ↦ agrees_of_valid (hfinal.valid client)

/-! ### Two clients, and a client of a short curve -/

/-- Outcomes of OpenSSL for a key with the given private number and ECDH secrets of the given
length: the public value is the number in one byte, and the secret repeats the product. An RSA block
is its length, the data and zeros. -/
def productEvp (secretLength number : ℕ) : ClientEvp ℕ where
  alloc := fun _ ↦ true
  cipher := fun _ _ _ _ input ↦ some (input.map (0x5A#8 ^^^ ·))
  pkeySize := fun _ ↦ 128
  rsa := fun type _ block ↦
    if type = .rsaPublicEnc then
      if block.length ≤ 117 then
        some (BitVec.ofNat 8 block.length :: (block ++ List.replicate (127 - block.length) 0))
      else none
    else block.head?.map fun length ↦ block.tail.take length.toNat
  ecKeygen := fun _ ↦ some number
  ecPubkey := fun key ↦ some [BitVec.ofNat 8 key]
  ecFromPubkey := fun _ pub ↦ pub.head?.map BitVec.toNat
  dhKeygen := fun _ _ ↦ none
  dhPubkey := fun _ ↦ none
  dhFromPubkey := fun _ _ ↦ none
  deriveSize := fun _ _ ↦ some secretLength
  derive := fun own peer ↦ some (List.replicate secretLength (BitVec.ofNat 8 (own * peer)))
  dhParamgen := fun _ ↦ none
  dhPrime := fun _ ↦ none
  dhGenerator := fun _ ↦ none

theorem aesInverts_productEvp (secretLength first second : ℕ) :
    AesInverts (productEvp secretLength first).toEvp (productEvp secretLength second).toEvp where
  keepsLength _ _ _ input output _ _ _ _ houtput := by
    obtain rfl : input.map (0x5A#8 ^^^ ·) = output := Option.some.inj houtput
    exact List.length_map _
  inverts _ _ _ input output back _ _ _ _ houtput hback := by
    obtain rfl : input.map (0x5A#8 ^^^ ·) = output := Option.some.inj houtput
    obtain rfl : (input.map (0x5A#8 ^^^ ·)).map (0x5A#8 ^^^ ·) = back := Option.some.inj hback
    rw [List.map_map]
    refine List.map_id'' (fun byte ↦ ?_) input
    show 0x5A#8 ^^^ (0x5A#8 ^^^ byte) = byte
    rw [← BitVec.xor_assoc, BitVec.xor_self, BitVec.zero_xor]

theorem opensslSound_productEvp (secretLength publicKey privateKey : ℕ) :
    OpensslSound (Set.range (productEvp secretLength)) publicKey privateKey where
  aes := by
    rintro _ ⟨first, rfl⟩ _ ⟨second, rfl⟩
    exact aesInverts_productEvp secretLength first second
  rsaSize := by
    refine ⟨128, by decide, ?_⟩
    rintro _ ⟨number, rfl⟩
    refine ⟨rfl, rfl, fun block output houtput ↦ ?_⟩
    simp only [productEvp, if_true] at houtput
    split_ifs at houtput with hlength
    cases houtput
    simp only [List.length_cons, List.length_append, List.length_replicate]
    omega
  rsaInverts := by
    rintro _ ⟨first, rfl⟩ _ ⟨second, rfl⟩ block output back houtput hback
    simp only [productEvp, if_true] at houtput
    split_ifs at houtput with hlength
    cases houtput
    have hback : (block ++ List.replicate (127 - block.length) 0).take
        (BitVec.ofNat 8 block.length).toNat = back := Option.some.inj hback
    rw [BitVec.toNat_ofNat, Nat.mod_eq_of_lt (by omega), List.take_left] at hback
    exact hback.symm
  exportsShort := by
    rintro _ ⟨number, rfl⟩ key value hvalue
    simp only [productEvp, reduceCtorEq, or_false] at hvalue
    cases hvalue
    rw [List.length_singleton]
    decide
  ecdhCommutes := by
    rintro _ ⟨client, rfl⟩ _ ⟨server, rfl⟩ _ ⟨later, rfl⟩ curveNid own key ownPub pub ownPeer peer
      ownSecret secret hown hownPub hkey hpub hownPeer hpeer hsecret hownSecret
    cases hown
    cases hownPub
    cases hkey
    cases hpub
    cases hownPeer
    cases hpeer
    cases hsecret
    cases hownSecret
    refine congrArg (List.replicate secretLength) (BitVec.eq_of_toNat_eq ?_)
    simp only [BitVec.toNat_ofNat, Nat.mul_mod_mod]
    rw [Nat.mul_comm]
  dhCommutes := by
    rintro _ ⟨client, rfl⟩ _ _ _ _ primeLen own _ _ _ _ _ _ _ _ _ hown
    cases hown

/-- A request with the public value of the given private number. -/
def productReq (number : ℕ) (tempType : EncryptType) : HandshakeReq :=
  ⟨kxEcdh, ⟨[], [], []⟩, ⟨415, [BitVec.ofNat 8 number]⟩, List.replicate 32 0x30, tempType.toByte⟩

/-- The agreement for such a request gives 32 bytes. -/
theorem agreementCondition_productReq {number other : ℕ} {tempType : EncryptType}
    {helper : HandshakeHelper ℕ} {binHSReq : Bytes}
    (hdecrypt : helper.decryptHSReq (productEvp 32 number).toEvp .little binHSReq =
      some (productReq other tempType)) :
    GateConn.AgreementCondition (productEvp 32 number).toEvp GateConn.plainConfig helper
      binHSReq := by
  intro hsReq key hreq _ hkey
  obtain rfl : productReq other tempType = hsReq := Option.some.inj (hdecrypt.symm.trans hreq)
  obtain rfl : number = key := Option.some.inj hkey
  refine ⟨?_, fun _ ↦ ⟨?_, List.cons_ne_nil _ _, (BitVec.ofNat 8 other).toNat, 32,
    List.replicate 32 (BitVec.ofNat 8 (number * (BitVec.ofNat 8 other).toNat)), rfl, rfl, ?_, rfl,
    ?_⟩⟩
  · rw [productReq, List.length_replicate]
    decide
  · show (0 : ℤ) < 128
    decide
  · show (32 : ℤ) ≤ 128
    decide
  · rw [List.length_replicate]

/-- The helper of a gateway that has made no handshake. -/
def productHelper : HandshakeHelper ℕ := ⟨none, none, 1, kxEcdh, 0⟩

/-- The request of a client that is under way, as the gateway decrypts it. -/
def requestOf (client : Bool) (evp : ClientEvp ℕ) (state : KeyAgreement Bool ℕ Unit) :
    Option HandshakeReq :=
  match (state.exchanges client).stage with
  | .requested binHSReq => state.helper.decryptHSReq evp.toEvp .little binHSReq
  | _ => none

/-- Two clients whose requests are handled in the other order, with a malformed request between
them. -/
def interleavedActions : List (AgreementAction Bool ℕ) :=
  [.handshake true (productEvp 32 3) kxEcdh 415 .aesCbc (fun _ ↦ 0x30),
    .handshake false (productEvp 32 5) kxEcdh 415 .aesCtr (fun _ ↦ 0x30),
    .serve false (productEvp 32 11), .other (productEvp 32 13).toEvp [1, 2, 3],
    .serve true (productEvp 32 7), .onHandshake true (productEvp 32 3),
    .onHandshake false (productEvp 32 5)]

/-- Both clients take keys, and agree with the gateway. -/
theorem key_agreement_interleaved :
    ∃ final : KeyAgreement Bool ℕ Unit,
      runFrom (step GateConn.plainConfig) (new productHelper 2 fun _ ↦ .little)
        interleavedActions = some final ∧
      (final.exchanges true).client.hsSuccess = true ∧
      (final.exchanges false).client.hsSuccess = true ∧
      ∀ client, (final.exchanges client).Agrees := by
  have hsuccess : (runFrom (step GateConn.plainConfig) (new productHelper 2 fun _ ↦ .little)
      interleavedActions).map (fun final ↦ ((final.exchanges true).client.hsSuccess,
        (final.exchanges false).client.hsSuccess)) = some (true, true) := by decide +kernel
  obtain ⟨final, hrun, hfinal⟩ := Option.map_eq_some_iff.mp hsuccess
  rw [Prod.mk.injEq] at hfinal
  refine ⟨final, hrun, hfinal.1, hfinal.2, ?_⟩
  refine key_agreement (Set.range (productEvp 32)) 2 1 (opensslSound_productEvp 32 2 1)
    GateConn.plainConfig productHelper rfl (fun _ ↦ .little) interleavedActions ?_ ?_ final hrun
  · intro action haction
    simp only [interleavedActions, List.mem_cons, List.not_mem_nil, or_false] at haction
    rcases haction with rfl | rfl | rfl | rfl | rfl | rfl | rfl
    · exact ⟨3, rfl⟩
    · exact ⟨5, rfl⟩
    · exact ⟨11, rfl⟩
    · trivial
    · exact ⟨7, rfl⟩
    · exact ⟨3, rfl⟩
    · exact ⟨5, rfl⟩
  · -- The requests are those of the clients, so the agreement gives 32 bytes for both.
    refine ⟨trivial, fun first hfirst ↦ ⟨trivial, fun second hsecond ↦ ⟨fun binHSReq hstage ↦ ?_,
      fun third hthird ↦ ⟨trivial, fun fourth hfourth ↦ ⟨fun binHSReq hstage ↦ ?_,
        fun _ _ ↦ ⟨trivial, fun _ _ ↦ ⟨trivial, fun _ _ ↦ trivial⟩⟩⟩⟩⟩⟩⟩
    · have hreq : (runFrom (step GateConn.plainConfig) (new productHelper 2 fun _ ↦ .little)
          (interleavedActions.take 2)).map (requestOf false (productEvp 32 11)) =
          some (some (productReq 5 .aesCtr)) := by decide +kernel
      have hbefore : runFrom (step GateConn.plainConfig) (new productHelper 2 fun _ ↦ .little)
          (interleavedActions.take 2) = some second :=
        (runFrom_cons_of_step hfirst _).trans (runFrom_cons_of_step hsecond _)
      rw [hbefore, Option.map_some, requestOf, hstage] at hreq
      exact agreementCondition_productReq (Option.some.inj hreq)
    · have hreq : (runFrom (step GateConn.plainConfig) (new productHelper 2 fun _ ↦ .little)
          (interleavedActions.take 4)).map (requestOf true (productEvp 32 7)) =
          some (some (productReq 3 .aesCbc)) := by decide +kernel
      have hbefore : runFrom (step GateConn.plainConfig) (new productHelper 2 fun _ ↦ .little)
          (interleavedActions.take 4) = some fourth :=
        (runFrom_cons_of_step hfirst _).trans ((runFrom_cons_of_step hsecond _).trans
          ((runFrom_cons_of_step hthird _).trans (runFrom_cons_of_step hfourth _)))
      rw [hbefore, Option.map_some, requestOf, hstage] at hreq
      exact agreementCondition_productReq (Option.some.inj hreq)

/-- On the curve secp224r1 (NID 713) the shared key has 28 bytes: the client takes keys, and the
gateway holds no session. -/
theorem not_key_agreement_short_key :
    OpensslSound (Set.range (productEvp 28)) 2 1 ∧
      ∃ final : KeyAgreement Bool ℕ Unit,
        runFrom (step GateConn.plainConfig) (new productHelper 2 fun _ ↦ .little)
          [.handshake true (productEvp 28 3) kxEcdh 713 .aesCbc (fun _ ↦ 0x30),
            .serve true (productEvp 28 7), .onHandshake true (productEvp 28 3)] = some final ∧
        ¬ (final.exchanges true).Agrees := by
  refine ⟨opensslSound_productEvp 28 2 1, ?_⟩
  have hkeys : (runFrom (step GateConn.plainConfig) (new productHelper 2 fun _ ↦ .little)
      [.handshake true (productEvp 28 3) kxEcdh 713 .aesCbc (fun _ ↦ 0x30),
        .serve true (productEvp 28 7), .onHandshake true (productEvp 28 3)]).map
      (fun final : KeyAgreement Bool ℕ Unit ↦ ((final.exchanges true).client.hsSuccess,
        GateConn.sessionHeld (final.exchanges true).user)) = some (true, none) := by
    decide +kernel
  obtain ⟨final, hrun, hfinal⟩ := Option.map_eq_some_iff.mp hkeys
  rw [Prod.mk.injEq] at hfinal
  refine ⟨final, hrun, fun hagrees ↦ ?_⟩
  obtain ⟨-, sessionType, -, hheld⟩ := hagrees hfinal.1
  rw [hfinal.2] at hheld
  cases hheld

end KeyAgreement

end TszyUlt.Lygc
