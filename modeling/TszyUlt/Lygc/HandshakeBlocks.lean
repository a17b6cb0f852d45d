import TszyUlt.Lygc.KeyAgreement

/-!
# The blocks of a handshake request

`rsaEncrypt` of `lygc/handshake_helper_v2.hpp`, which encrypts and decrypts block by block. Its loop
computes the offset of a block as a product of two `int`. `HandshakeBlocks.rsaEncrypt` follows the
loop, with `none` where the product overflows, and `rsaEncrypt_eq_rsaBlocks` says that it does the
same as the functions on lists of blocks as long as it does not.

`hsReqSurvives_iff` says when the request of a client is read by the server as it was written. The
encrypted request is longer than the request, and its last block may begin at an offset that is no
`int` any more.

Scope. The key has more than eleven bytes, and the length of the data fits a `size_t`, in which the
number of the blocks is computed.
-/

set_option autoImplicit false
set_option relaxedAutoImplicit false

namespace TszyUlt.Lygc

open Lib Zbf Fszm

variable {Pkey : Type*}

namespace HandshakeBlocks

/-! ### The loop -/

/-- The largest `int` and one. -/
def intEnd : ℕ := 2 ^ 31

/-- `block_in` of `rsaEncrypt`. -/
def blockIn (evp : Evp Pkey) (helper : HandshakeHelper Pkey) (enc : Bool) : ℕ :=
  if enc then (evp.pkeySize helper.rsaKey - 11).toNat else (evp.pkeySize helper.rsaKey).toNat

/-- The type of the RSA operation. -/
def encType (enc : Bool) : EncryptType := if enc then .rsaPublicEnc else .rsaPrivateDec

/-- `times` of `rsaEncrypt`: the number of blocks, which is converted to `int`. -/
def times (size blockIn : ℕ) : ℕ :=
  ((((size + blockIn - 1) / blockIn : ℕ) : ℤ).bmod (2 ^ 32)).toNat

section Loop

variable (evp : Evp Pkey) (key : Pkey) (type : EncryptType)

/-- The block with a number, where the last one has what is left. -/
def srcAt (data : Bytes) (blockIn times i : ℕ) : Bytes :=
  (data.drop (i * blockIn)).take (if i = times - 1 then data.length - i * blockIn else blockIn)

/-- The loop of `rsaEncrypt` from a block on, with so many blocks left. There is no result if the
offset of a block overflows. -/
def rsaLoop (data : Bytes) (blockIn times i rest : ℕ) (result : Bytes) : Option Bytes :=
  match rest with
  | 0 => some result
  | rest + 1 =>
    if i * blockIn < intEnd then
      match rsaEncryptBlock evp (srcAt data blockIn times i) key type with
      | some (byte :: dst) => rsaLoop data blockIn times (i + 1) rest (result ++ byte :: dst)
      | _ => some []
    else none

end Loop

/-- `rsaEncrypt`. -/
def rsaEncrypt (evp : Evp Pkey) (helper : HandshakeHelper Pkey) (data : Bytes) (enc : Bool) :
    Option Bytes :=
  rsaLoop evp helper.rsaKey (encType enc) data (blockIn evp helper enc)
    (times data.length (blockIn evp helper enc)) 0
    (times data.length (blockIn evp helper enc)) []

/-- `encryptHSReq`. -/
def encryptHSReq (evp : Evp Pkey) (order : ByteOrder) (helper : HandshakeHelper Pkey)
    (req : HandshakeReq) : Option Bytes :=
  rsaEncrypt evp helper (req.serialize order) true

/-- `decryptHSReq`. -/
def decryptHSReq (evp : Evp Pkey) (order : ByteOrder) (helper : HandshakeHelper Pkey)
    (data : Bytes) : Option (Option HandshakeReq) :=
  (rsaEncrypt evp helper data false).map fun result ↦
    if result = [] then none else some (HandshakeReq.deserialize order result)

/-! ### The loop over the blocks -/

section Blocks

variable (evp : Evp Pkey) (key : Pkey) (type : EncryptType)

/-- The loop over the blocks that are left, the first of which has the given number. -/
def blocksFrom (blockIn : ℕ) : ℕ → List Bytes → Bytes → Option Bytes
  | _, [], result => some result
  | i, src :: blocks, result =>
    if i * blockIn < intEnd then
      match rsaEncryptBlock evp src key type with
      | some (byte :: dst) => blocksFrom blockIn (i + 1) blocks (result ++ byte :: dst)
      | _ => some []
    else none

/-- Assumes: as many blocks are left as the data behind the offset have. The loop goes over them. -/
theorem rsaLoop_eq (data : Bytes) {blockIn times i rest : ℕ} (hblock : 0 < blockIn)
    (htimes : times = (data.length + blockIn - 1) / blockIn) (hrest : i + rest = times)
    (result : Bytes) :
    rsaLoop evp key type data blockIn times i rest result =
      blocksFrom evp key type blockIn i ((data.drop (i * blockIn)).toChunks blockIn) result := by
  have hdiv := Nat.div_add_mod (data.length + blockIn - 1) blockIn
  have hmod := Nat.mod_lt (data.length + blockIn - 1) hblock
  rw [← htimes, Nat.mul_comm] at hdiv
  induction rest generalizing i result with
  | zero =>
    rw [Nat.add_zero] at hrest
    rw [hrest, List.drop_of_length_le (by omega)]
    rfl
  | succ rest ih =>
    have hstart : i * blockIn < data.length := by
      have hone : blockIn ≤ times * blockIn := Nat.le_mul_of_pos_left _ (by omega)
      have hlast : (times - 1) * blockIn < data.length := by
        rw [Nat.sub_one_mul]
        omega
      exact Nat.lt_of_le_of_lt (Nat.mul_le_mul_right _ (by omega)) hlast
    have hne : data.drop (i * blockIn) ≠ [] := by
      rw [Ne, List.drop_eq_nil_iff]
      omega
    rw [rsaLoop, toChunks_of_ne_nil hblock hne, blocksFrom, List.drop_drop, ← Nat.succ_mul]
    have hsrc : srcAt data blockIn times i = (data.drop (i * blockIn)).take blockIn := by
      unfold srcAt
      split_ifs with hlast
      · have hnext : times * blockIn = i * blockIn + blockIn := by
          rw [← Nat.succ_mul]
          exact congrArg (· * blockIn) (by omega)
        have hleft : (data.drop (i * blockIn)).length = data.length - i * blockIn :=
          List.length_drop
        rw [List.take_of_length_le hleft.le, List.take_of_length_le (by omega)]
      · rfl
    rw [hsrc]
    split_ifs
    · split
      · exact ih (by omega) _
      · rfl
    · rfl

/-- The operation on a block gives nothing. -/
def Fails (src : Bytes) : Prop :=
  rsaEncryptBlock evp src key type = none ∨ rsaEncryptBlock evp src key type = some []

/-- Assumes: the operation on a block fails whose offset is an `int`. Nothing is returned. -/
theorem rsaLoop_of_fails {data : Bytes} {blockIn times i j rest : ℕ} (hle : i ≤ j)
    (hlt : j < i + rest) (hoffset : j * blockIn < intEnd)
    (hfails : Fails evp key type (srcAt data blockIn times j)) (result : Bytes) :
    rsaLoop evp key type data blockIn times i rest result = some [] := by
  induction rest generalizing i result with
  | zero => exact absurd hlt (by omega)
  | succ rest ih =>
    have hbefore : i * blockIn < intEnd :=
      Nat.lt_of_le_of_lt (Nat.mul_le_mul_right _ hle) hoffset
    rw [rsaLoop, if_pos hbefore]
    rcases Nat.eq_or_lt_of_le hle with rfl | hafter
    · rcases hfails with hnone | hempty
      · rw [hnone]
      · rw [hempty]
    · split
      · exact ih hafter (by omega) _
      · rfl

/-- As long as no offset overflows, the loop does the same as the functions on lists of blocks. -/
theorem blocksFrom_eq_rsaBlocks {blockIn i : ℕ} {blocks : List Bytes}
    (hoffsets : ∀ j < blocks.length, (i + j) * blockIn < intEnd) (result : Bytes) :
    blocksFrom evp key type blockIn i blocks result =
      some (HandshakeHelper.rsaBlocks evp key type blocks result) := by
  induction blocks generalizing i result with
  | nil => rfl
  | cons src blocks ih =>
    have hfirst : i * blockIn < intEnd := hoffsets 0 (Nat.succ_pos _)
    rw [blocksFrom, if_pos hfirst, HandshakeHelper.rsaBlocks]
    cases rsaEncryptBlock evp src key type with
    | none => rfl
    | some dst =>
      cases dst with
      | nil => rfl
      | cons byte dst =>
        refine ih (fun j hlt ↦ ?_) _
        rw [Nat.add_right_comm, Nat.add_assoc]
        exact hoffsets (j + 1) (Nat.succ_lt_succ hlt)

/-- Assumes: the operation succeeds on every block. The loop ends at the first offset that
overflows, or it has the results of all blocks. -/
theorem blocksFrom_of_forall₂ {blockIn i : ℕ} {blocks outputs : List Bytes}
    (hall : List.Forall₂ (fun src dst ↦ rsaEncryptBlock evp src key type = some dst ∧ dst ≠ [])
      blocks outputs) (result : Bytes) :
    blocksFrom evp key type blockIn i blocks result =
      if ∀ j < blocks.length, (i + j) * blockIn < intEnd then some (result ++ outputs.flatten)
      else none := by
  induction hall generalizing i result with
  | nil =>
    have hnone : ∀ j < ([] : List Bytes).length, (i + j) * blockIn < intEnd :=
      fun j hlt ↦ absurd hlt (Nat.not_lt_zero j)
    rw [if_pos hnone, List.flatten_nil, List.append_nil]
    rfl
  | @cons src dst blocks outputs hhead _ ih =>
    obtain ⟨hop, hne⟩ := hhead
    obtain ⟨byte, dst, rfl⟩ := List.exists_cons_of_ne_nil hne
    by_cases hoffset : i * blockIn < intEnd
    · rw [blocksFrom, if_pos hoffset, hop]
      dsimp only
      rw [ih, List.flatten_cons, List.append_assoc]
      refine if_congr ⟨fun hrest j hlt ↦ ?_, fun hrest j hlt ↦ ?_⟩ rfl rfl
      · cases j with
        | zero => exact hoffset
        | succ j =>
          rw [← Nat.add_assoc, Nat.add_right_comm]
          exact hrest j (Nat.lt_of_succ_lt_succ hlt)
      · rw [Nat.add_right_comm, Nat.add_assoc]
        exact hrest (j + 1) (Nat.succ_lt_succ hlt)
    · rw [blocksFrom, if_neg hoffset, if_neg fun hrest ↦ hoffset (hrest 0 (Nat.succ_pos _))]

/-- The offsets are all `int` if the last one is. -/
theorem forall_offsets_iff {blockIn number : ℕ} (hnumber : 0 < number) :
    (∀ j < number, (0 + j) * blockIn < intEnd) ↔ (number - 1) * blockIn < intEnd := by
  constructor
  · intro hall
    have hlast := hall (number - 1) (by omega)
    rwa [Nat.zero_add] at hlast
  · intro hlast j hlt
    rw [Nat.zero_add]
    exact Nat.lt_of_le_of_lt (Nat.mul_le_mul_right _ (by omega)) hlast

/-- Assumes: blocks of a positive length, and a number of them that is an `int`. -/
theorem rsaEncrypt_eq {evp : Evp Pkey} {helper : HandshakeHelper Pkey} {data : Bytes} {enc : Bool}
    (hblock : 0 < blockIn evp helper enc)
    (hnumber : (data.toChunks (blockIn evp helper enc)).length < intEnd) :
    rsaEncrypt evp helper data enc =
      blocksFrom evp helper.rsaKey (encType enc) (blockIn evp helper enc) 0
        (data.toChunks (blockIn evp helper enc)) [] := by
  rw [length_toChunks hblock] at hnumber
  have htimes : times data.length (blockIn evp helper enc) =
      (data.length + blockIn evp helper enc - 1) / blockIn evp helper enc := by
    unfold intEnd at hnumber
    unfold times
    generalize (data.length + blockIn evp helper enc - 1) / blockIn evp helper enc = number
      at hnumber ⊢
    rw [Int.bmod_eq_of_le (by omega) (by omega), Int.toNat_natCast]
  rw [rsaEncrypt, rsaLoop_eq _ _ _ data hblock htimes (Nat.zero_add _), Nat.zero_mul,
    List.drop_zero]

/-- Data that are shorter than the end of `int` have offsets that are `int`. -/
theorem offsets_lt {data : Bytes} {blockIn : ℕ} (hblock : 0 < blockIn)
    (hsize : data.length < intEnd) :
    (data.toChunks blockIn).length < intEnd ∧
      ∀ j < (data.toChunks blockIn).length, (0 + j) * blockIn < intEnd := by
  have hdiv := Nat.div_mul_le_self (data.length + blockIn - 1) blockIn
  rw [← length_toChunks hblock] at hdiv
  have hoffset : ∀ j < (data.toChunks blockIn).length, j * blockIn < data.length := by
    intro j hlt
    have hle := Nat.mul_le_mul_right blockIn (Nat.succ_le_of_lt hlt)
    rw [Nat.succ_mul] at hle
    omega
  constructor
  · rcases Nat.eq_zero_or_pos (data.toChunks blockIn).length with hzero | hpos
    · rw [hzero]
      decide
    · have hlast := hoffset _ (Nat.sub_lt hpos Nat.one_pos)
      have hle := Nat.le_mul_of_pos_right ((data.toChunks blockIn).length - 1) hblock
      omega
  · intro j hlt
    rw [Nat.zero_add]
    exact (hoffset j hlt).trans hsize

/-- Assumes: the data are shorter than the end of `int`. No offset overflows, and the loop does the
same as the functions on lists of blocks. -/
theorem rsaEncrypt_eq_rsaBlocks {evp : Evp Pkey} {helper : HandshakeHelper Pkey} {data : Bytes}
    {enc : Bool} (hblock : 0 < blockIn evp helper enc) (hsize : data.length < intEnd) :
    rsaEncrypt evp helper data enc =
      some (HandshakeHelper.rsaBlocks evp helper.rsaKey (encType enc)
        (data.toChunks (blockIn evp helper enc)) []) := by
  obtain ⟨hnumber, hoffsets⟩ := offsets_lt hblock hsize
  rw [rsaEncrypt_eq hblock hnumber, blocksFrom_eq_rsaBlocks evp _ _ hoffsets]

end Blocks

/-! ### There and back -/

/-- What is assumed of OpenSSL for a pair of keys of the given size: a block that leaves room for
the padding is encrypted to a block of the size, which decryption gives back. -/
structure RsaPair (client server : Evp Pkey) (publicKey privateKey : Pkey) (size : ℕ) : Prop where
  room : 11 < size
  publicSize : client.pkeySize publicKey = size
  privateSize : server.pkeySize privateKey = size
  inverts : ∀ block : Bytes, 1 ≤ block.length → block.length ≤ size - 11 →
    ∃ output, client.rsa .rsaPublicEnc publicKey block = some output ∧ output.length = size ∧
      server.rsa .rsaPrivateDec privateKey output = some block

/-- The last block of some data begins at an offset that is an `int` after their encryption. -/
def LastOffsetFits (dataLen size : ℕ) : Prop := (dataLen - 1) / (size - 11) * size < intEnd

instance (dataLen size : ℕ) : Decidable (LastOffsetFits dataLen size) :=
  inferInstanceAs (Decidable (_ < _))

section RoundTrip

variable {client server : Evp Pkey} {clientSide serverSide : HandshakeHelper Pkey} {size : ℕ}

/-- Assumes: a pair of keys, and data that are not empty and shorter than the end of `int`. They are
encrypted, and the decryption gives them back or computes an offset that overflows. -/
theorem rsaEncrypt_rsaEncrypt
    (hpair : RsaPair client server clientSide.rsaKey serverSide.rsaKey size) {data : Bytes}
    (hne : data ≠ []) (hsize : data.length < intEnd) :
    ∃ encrypted, rsaEncrypt client clientSide data true = some encrypted ∧
      rsaEncrypt server serverSide encrypted false =
        if LastOffsetFits data.length size then some data else none := by
  have hroom := hpair.room
  have hpos : 0 < size - 11 := by omega
  have hblockIn : blockIn client clientSide true = size - 11 := by
    rw [blockIn, hpair.publicSize]
    exact Int.toNat_sub size 11
  have hblockOut : blockIn server serverSide false = size := by
    rw [blockIn, hpair.privateSize]
    exact Int.toNat_natCast size
  obtain ⟨outputs, houtputs⟩ : ∃ outputs, List.Forall₂ (fun block output ↦ block ≠ [] ∧
      client.rsa .rsaPublicEnc clientSide.rsaKey block = some output ∧ output.length = size ∧
        server.rsa .rsaPrivateDec serverSide.rsaKey output = some block)
      (data.toChunks (size - 11)) outputs := by
    refine exists_forall₂ fun block hmem ↦ ?_
    obtain ⟨hlow, hhigh⟩ := length_of_mem_toChunks hpos hmem
    obtain ⟨output, houtput⟩ := hpair.inverts block hlow hhigh
    exact ⟨output, List.length_pos_iff.mp hlow, houtput⟩
  have hforth : List.Forall₂ (fun src dst ↦
      rsaEncryptBlock client src clientSide.rsaKey (encType true) = some dst ∧ dst ≠ [])
      (data.toChunks (size - 11)) outputs := by
    refine houtputs.imp fun src dst hdst ↦ ⟨hdst.2.1, ?_⟩
    rw [← List.length_pos_iff, hdst.2.2.1]
    omega
  have hback : List.Forall₂ (fun src dst ↦
      rsaEncryptBlock server src serverSide.rsaKey (encType false) = some dst ∧ dst ≠ [])
      outputs (data.toChunks (size - 11)) :=
    houtputs.flip.imp fun src dst hdst ↦ ⟨hdst.2.2.2, hdst.1⟩
  have hcut : outputs.flatten.toChunks size = outputs :=
    toChunks_flatten (by omega) (forall_mem_of_forall₂ (fun _ _ hdst ↦ hdst.2.2.1) houtputs)
  obtain ⟨hnumber, hoffsets⟩ := offsets_lt hpos hsize
  have hlength := houtputs.length_eq
  have hlast : outputs.length - 1 = (data.length - 1) / (size - 11) := by
    have hdata := List.length_pos_iff.mpr hne
    rw [← hlength, length_toChunks hpos,
      show data.length + (size - 11) - 1 = data.length - 1 + (size - 11) by omega,
      Nat.add_div_right _ hpos, Nat.succ_sub_one]
  refine ⟨outputs.flatten, ?_, ?_⟩
  · rw [rsaEncrypt_eq (hblockIn ▸ hpos) (hblockIn ▸ hnumber), hblockIn,
      blocksFrom_of_forall₂ _ _ _ hforth, if_pos hoffsets, List.nil_append]
  · rw [rsaEncrypt_eq (by omega) (by rw [hblockOut, hcut, ← hlength]; exact hnumber), hblockOut,
      hcut, blocksFrom_of_forall₂ _ _ _ hback, flatten_toChunks hpos, List.nil_append]
    refine if_congr ?_ rfl rfl
    rw [forall_offsets_iff, hlast]
    · rfl
    · have hdata := List.length_pos_iff.mpr hne
      rw [← hlength, length_toChunks hpos]
      exact Nat.div_pos (by omega) hpos

/-! ### The request -/

/-- What the server is to find in a request: the fields of the exchange in use, and the others. -/
def SameRequest (req back : HandshakeReq) : Prop :=
  back.kxType = req.kxType ∧
    (if req.kxType = kxEcdh then back.ecdh = req.ecdh else back.dh = req.dh) ∧
    back.tempSymsec = req.tempSymsec ∧ back.tempSymsecType = req.tempSymsecType

/-- The server reads the request as the client has written it. -/
def RequestSurvives (client server : Evp Pkey) (sender receiver : ByteOrder)
    (clientSide serverSide : HandshakeHelper Pkey) (req : HandshakeReq) : Prop :=
  ∃ encrypted back, encryptHSReq client sender clientSide req = some encrypted ∧
    decryptHSReq server receiver serverSide encrypted = some (some back) ∧ SameRequest req back

/-- An operation that fails on a block leaves nothing. -/
def FailuresEmpty (evp : Evp Pkey) (helper : HandshakeHelper Pkey) (data : Bytes) (enc : Bool) :
    Prop :=
  ∀ i < times data.length (blockIn evp helper enc), i * blockIn evp helper enc < intEnd →
    Fails evp helper.rsaKey (encType enc)
      (srcAt data (blockIn evp helper enc) (times data.length (blockIn evp helper enc)) i) →
    rsaEncrypt evp helper data enc = some []

theorem failuresEmpty (evp : Evp Pkey) (helper : HandshakeHelper Pkey) (data : Bytes)
    (enc : Bool) : FailuresEmpty evp helper data enc := by
  intro i hlt hoffset hfails
  refine rsaLoop_of_fails _ _ _ (Nat.zero_le i) ?_ hoffset hfails []
  rwa [Nat.zero_add]

/-- The request without the exchange that is not in use, which is not written. -/
def withoutUnused (req : HandshakeReq) : HandshakeReq :=
  if req.kxType = kxEcdh then { req with dh := ⟨[], [], []⟩ } else { req with ecdh := ⟨0, []⟩ }

theorem serialize_withoutUnused (order : ByteOrder) (req : HandshakeReq) :
    (withoutUnused req).serialize order = req.serialize order := by
  unfold withoutUnused HandshakeReq.serialize
  split_ifs <;> rfl

/-- The strings of a request are no longer than the request. -/
theorem fits_withoutUnused {order : ByteOrder} {req : HandshakeReq}
    (hsize : (req.serialize order).length < intEnd) : (withoutUnused req).Fits := by
  have hstr : ∀ data : Bytes, data.length ≤ (serializeStr order data).length := fun data ↦ by
    rw [serializeStr, List.length_append]
    exact Nat.le_add_left _ _
  have hsymsec := hstr req.tempSymsec
  have hp := hstr req.dh.p
  have hg := hstr req.dh.g
  have hdh := hstr req.dh.pubkey
  have hecdh := hstr req.ecdh.pubkey
  unfold intEnd at hsize
  unfold HandshakeReq.serialize at hsize
  unfold withoutUnused HandshakeReq.Fits
  split_ifs at hsize ⊢ with hkx
  · simp only [List.length_append, EcdhExchangeReq.serialize] at hsize
    simp only [and_true]
    omega
  · simp only [List.length_append, DhExchangeReq.serialize] at hsize
    simp only [and_true]
    omega

/-- The request is read as it was written, up to the exchange that is not in use. -/
theorem sameRequest_deserialize (sender receiver : ByteOrder) {req : HandshakeReq}
    (hsize : (req.serialize sender).length < intEnd) :
    SameRequest req (HandshakeReq.deserialize receiver (req.serialize sender)) := by
  rw [← serialize_withoutUnused,
    HandshakeReq.deserialize_serialize sender receiver _ (fits_withoutUnused hsize)]
  unfold withoutUnused SameRequest
  split_ifs <;> exact ⟨rfl, rfl, rfl, rfl⟩

/-- Assumes: a pair of keys, and a request whose encoding is shorter than the end of `int`. The
server reads it exactly if the last offset is an `int` after the encryption. -/
theorem requestSurvives_iff_fits
    (hpair : RsaPair client server clientSide.rsaKey serverSide.rsaKey size)
    (sender receiver : ByteOrder) {req : HandshakeReq}
    (hsize : (req.serialize sender).length < intEnd) :
    RequestSurvives client server sender receiver clientSide serverSide req ↔
      LastOffsetFits (req.serialize sender).length size := by
  have hne : req.serialize sender ≠ [] := List.cons_ne_nil _ _
  obtain ⟨encrypted, hencrypted, hdecrypted⟩ := rsaEncrypt_rsaEncrypt hpair hne hsize
  constructor
  · rintro ⟨encrypted', back, hencrypted', hback, -⟩
    cases hencrypted.symm.trans hencrypted'
    by_contra hoverflow
    rw [decryptHSReq, hdecrypted, if_neg hoverflow] at hback
    cases hback
  · intro hfits
    refine ⟨encrypted, _, hencrypted, ?_, sameRequest_deserialize sender receiver hsize⟩
    rw [decryptHSReq, hdecrypted, if_pos hfits, Option.map_some, if_neg hne]

/-- Assumes: a pair of keys, and a request whose encoding is shorter than the end of `int`. The
request survives, and no operation that fails leaves something, exactly if the last offset is an
`int` after the encryption. -/
theorem hsReqSurvives_iff
    (hpair : RsaPair client server clientSide.rsaKey serverSide.rsaKey size)
    (sender receiver : ByteOrder) (req : HandshakeReq)
    (hsize : (req.serialize sender).length < intEnd) :
    (RequestSurvives client server sender receiver clientSide serverSide req ∧
        ∀ (evp : Evp Pkey) (helper : HandshakeHelper Pkey) (data : Bytes) (enc : Bool),
          11 < evp.pkeySize helper.rsaKey → FailuresEmpty evp helper data enc) ↔
      LastOffsetFits (req.serialize sender).length size := by
  rw [requestSurvives_iff_fits hpair sender receiver hsize]
  exact and_iff_left fun evp helper data enc _ ↦ failuresEmpty evp helper data enc

end RoundTrip

/-! ### A short request and a long one -/

open KeyAgreement (productEvp)
open GateConn (curveReq)

/-- The key of the examples, of 128 bytes. -/
def exampleSide : HandshakeHelper ℕ := ⟨none, none, 3, kxEcdh, 0⟩

theorem rsaPair_productEvp (secretLength number : ℕ) :
    RsaPair (productEvp secretLength number).toEvp (productEvp secretLength number).toEvp
      exampleSide.rsaKey exampleSide.rsaKey 128 where
  room := by decide
  publicSize := rfl
  privateSize := rfl
  inverts block _ hlength := by
    refine ⟨_, if_pos hlength, ?_, ?_⟩
    · simp only [List.length_cons, List.length_append, List.length_replicate]
      omega
    · show some ((block ++ List.replicate (127 - block.length) 0).take
        (BitVec.ofNat 8 block.length).toNat) = some block
      rw [BitVec.toNat_ofNat, Nat.mod_eq_of_lt (by omega), List.take_left]

/-- A request of 109 bytes. -/
theorem requestSurvives_short :
    RequestSurvives (productEvp 32 3).toEvp (productEvp 32 3).toEvp .little .little exampleSide
      exampleSide (curveReq 415 64) :=
  ((hsReqSurvives_iff (rsaPair_productEvp 32 3) .little .little (curveReq 415 64)
    (by decide)).mpr (by decide)).1

theorem length_serialize_dh (order : ByteOrder) (dh : DhExchangeReq) (ecdh : EcdhExchangeReq)
    (tempSymsec : Bytes) (tempSymsecType : BitVec 8) :
    (HandshakeReq.serialize order ⟨kxDh, dh, ecdh, tempSymsec, tempSymsecType⟩).length =
      dh.p.length + dh.g.length + dh.pubkey.length + tempSymsec.length + 18 := by
  have hkx : kxDh ≠ kxEcdh := by decide
  simp only [HandshakeReq.serialize, if_neg hkx, DhExchangeReq.serialize, serializeUint8,
    serializeStr, serializeUint32, List.length_append, List.length_singleton, length_store]
  omega

/-- A request of 1,962,934,273 bytes. -/
def longReq : HandshakeReq := ⟨kxDh, ⟨[], [], []⟩, ⟨0, []⟩, List.replicate 1962934255 0, 14⟩

theorem length_longReq : (longReq.serialize .little).length = 1962934273 := by
  rw [longReq, length_serialize_dh, List.length_replicate]
  rfl

/-- The request survives for every pair of keys and every request: not for one whose encryption has
a last block that begins at an offset of 2 GiB. -/
theorem not_requestSurvives :
    ¬ ∀ (client server : Evp ℕ) (clientSide serverSide : HandshakeHelper ℕ) (size : ℕ)
      (req : HandshakeReq), RsaPair client server clientSide.rsaKey serverSide.rsaKey size →
        (req.serialize .little).length < intEnd →
        RequestSurvives client server .little .little clientSide serverSide req := by
  intro hall
  have hsize : (longReq.serialize .little).length < intEnd := by
    rw [length_longReq]
    decide
  have hsurvives := hall _ _ exampleSide exampleSide 128 longReq (rsaPair_productEvp 32 3) hsize
  rw [requestSurvives_iff_fits (rsaPair_productEvp 32 3) .little .little hsize, length_longReq]
    at hsurvives
  exact absurd hsurvives (by decide)

end HandshakeBlocks

end TszyUlt.Lygc
