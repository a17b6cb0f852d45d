import TszyUlt.Lib.Memory

/-!
# Base64

Every three bytes are written as four symbols of six bits each. One or two bytes that remain are
written as a group of four too, with padding in place of the symbols that are missing, and a reader
that takes padding for six zero bits gets three bytes from every group of four. So reading what was
written gives the bytes again, followed by a zero byte for each padding character
(`decode_encode`).

Scope. The reader is the one of a single block of text: it takes padding in any place, and does not
check that the bits the padding stands for are zero.
-/

set_option autoImplicit false
set_option relaxedAutoImplicit false

namespace TszyUlt.Lib.Base64

/-- The symbol for six bits: `A` to `Z`, `a` to `z`, `0` to `9`, `+` and `/`. -/
def symbol (sextet : ℕ) : Byte :=
  if sextet < 26 then BitVec.ofNat 8 (0x41 + sextet)
  else if sextet < 52 then BitVec.ofNat 8 (0x61 + (sextet - 26))
  else if sextet < 62 then BitVec.ofNat 8 (0x30 + (sextet - 52))
  else if sextet = 62 then 0x2B
  else 0x2F

/-- The padding character, `=`. -/
def pad : Byte := 0x3D

/-- The six bits of a character: zero for padding, `none` for a character that is neither padding
nor a symbol. -/
def sextet (char : Byte) : Option ℕ :=
  if 0x41 ≤ char ∧ char ≤ 0x5A then some (char.toNat - 0x41)
  else if 0x61 ≤ char ∧ char ≤ 0x7A then some (char.toNat - 0x61 + 26)
  else if 0x30 ≤ char ∧ char ≤ 0x39 then some (char.toNat - 0x30 + 52)
  else if char = 0x2B then some 62
  else if char = 0x2F then some 63
  else if char = pad then some 0
  else none

/-- The text for a list of bytes. -/
def encode : List Byte → List Byte
  | [] => []
  | [a] => [symbol (a.toNat / 4), symbol (a.toNat % 4 * 16), pad, pad]
  | [a, b] =>
    [symbol (a.toNat / 4), symbol (a.toNat % 4 * 16 + b.toNat / 16), symbol (b.toNat % 16 * 4), pad]
  | a :: b :: c :: rest =>
    symbol (a.toNat / 4) :: symbol (a.toNat % 4 * 16 + b.toNat / 16) ::
      symbol (b.toNat % 16 * 4 + c.toNat / 64) :: symbol (c.toNat % 64) :: encode rest

/-- The three bytes of a group of four sextets. -/
def group (p q r s : ℕ) : List Byte :=
  [BitVec.ofNat 8 (p * 4 + q / 16), BitVec.ofNat 8 (q % 16 * 16 + r / 4),
    BitVec.ofNat 8 (r % 4 * 64 + s)]

/-- The bytes of a text, group by group, or `none` for a text that has another character or is not
made up of groups. -/
def decode : List Byte → Option (List Byte)
  | [] => some []
  | p :: q :: r :: s :: rest => do
    let bytes := group (← sextet p) (← sextet q) (← sextet r) (← sextet s)
    some (bytes ++ (← decode rest))
  | _ => none

/-- How many padding characters the text for so many bytes ends with. -/
def padding (length : ℕ) : ℕ := (3 - length % 3) % 3

/-! ### Symbols -/

theorem sextet_symbol {n : ℕ} (hn : n < 64) : sextet (symbol n) = some n := by
  have hall : ∀ i : Fin 64, sextet (symbol i) = some i.val := by decide
  exact hall ⟨n, hn⟩

theorem sextet_pad : sextet pad = some 0 := by decide

theorem symbol_ne_pad {n : ℕ} (hn : n < 64) : symbol n ≠ pad := by
  have hall : ∀ i : Fin 64, symbol i ≠ pad := by decide
  exact hall ⟨n, hn⟩

/-! ### Reading what was written -/

theorem length_encode (bytes : List Byte) : (encode bytes).length = (bytes.length + 2) / 3 * 4 := by
  induction bytes using encode.induct with
  | case1 => rfl
  | case2 a => simp only [encode, List.length_cons, List.length_nil]
  | case3 a b => simp only [encode, List.length_cons, List.length_nil]
  | case4 a b c rest ih =>
    simp only [encode, List.length_cons, ih]
    omega

/-- Every character of the text is a symbol or padding. -/
theorem sextet_of_mem_encode {bytes : List Byte} {char : Byte} (hmem : char ∈ encode bytes) :
    sextet char ≠ none := by
  have hsymbol : ∀ n, n < 64 → sextet (symbol n) ≠ none := by
    intro n hn
    rw [sextet_symbol hn]
    exact Option.some_ne_none n
  have hpad : sextet pad ≠ none := by decide
  induction bytes using encode.induct with
  | case1 => cases hmem
  | case2 a =>
    have ha := a.isLt
    simp only [encode, List.mem_cons, List.not_mem_nil, or_false] at hmem
    rcases hmem with rfl | rfl | rfl | rfl
    · exact hsymbol _ (by omega)
    · exact hsymbol _ (by omega)
    · exact hpad
    · exact hpad
  | case3 a b =>
    have ha := a.isLt
    have hb := b.isLt
    simp only [encode, List.mem_cons, List.not_mem_nil, or_false] at hmem
    rcases hmem with rfl | rfl | rfl | rfl
    · exact hsymbol _ (by omega)
    · exact hsymbol _ (by omega)
    · exact hsymbol _ (by omega)
    · exact hpad
  | case4 a b c rest ih =>
    have ha := a.isLt
    have hb := b.isLt
    have hc := c.isLt
    simp only [encode, List.mem_cons] at hmem
    rcases hmem with rfl | rfl | rfl | rfl | hmem
    · exact hsymbol _ (by omega)
    · exact hsymbol _ (by omega)
    · exact hsymbol _ (by omega)
    · exact hsymbol _ (by omega)
    · exact ih hmem

/-- The sextets that three bytes are written as make up these bytes. -/
theorem group_sextets (a b c : Byte) :
    group (a.toNat / 4) (a.toNat % 4 * 16 + b.toNat / 16) (b.toNat % 16 * 4 + c.toNat / 64)
      (c.toNat % 64) = [a, b, c] := by
  have ha := a.isLt
  have hb := b.isLt
  have hc := c.isLt
  have hfst : a.toNat / 4 * 4 + (a.toNat % 4 * 16 + b.toNat / 16) / 16 = a.toNat := by omega
  have hsnd : (a.toNat % 4 * 16 + b.toNat / 16) % 16 * 16 +
      (b.toNat % 16 * 4 + c.toNat / 64) / 4 = b.toNat := by omega
  have htrd : (b.toNat % 16 * 4 + c.toNat / 64) % 4 * 64 + c.toNat % 64 = c.toNat := by omega
  rw [group, hfst, hsnd, htrd, BitVec.ofNat_toNat, BitVec.ofNat_toNat, BitVec.ofNat_toNat,
    BitVec.setWidth_eq, BitVec.setWidth_eq, BitVec.setWidth_eq]

/-- Reading a text whose first four characters stand for the given sextets. -/
theorem decode_group {p q r s : Byte} {i j k l : ℕ} (hp : sextet p = some i)
    (hq : sextet q = some j) (hr : sextet r = some k) (hs : sextet s = some l) (rest : List Byte) :
    decode (p :: q :: r :: s :: rest) = (decode rest).map (group i j k l ++ ·) := by
  simp only [decode, hp, hq, hr, hs, Option.bind_eq_bind, Option.bind_some]
  cases decode rest with
  | none => rfl
  | some tail => rfl

/-- Reading the text for some bytes gives these bytes, and a zero byte for each padding
character. -/
theorem decode_encode (bytes : List Byte) :
    decode (encode bytes) = some (bytes ++ List.replicate (padding bytes.length) 0) := by
  induction bytes using encode.induct with
  | case1 => rfl
  | case2 a =>
    have ha := a.isLt
    have hgroup : group (a.toNat / 4) (a.toNat % 4 * 16) 0 0 = [a, 0, 0] := group_sextets a 0 0
    have hread := decode_group (sextet_symbol (show a.toNat / 4 < 64 by omega))
      (sextet_symbol (show a.toNat % 4 * 16 < 64 by omega)) sextet_pad sextet_pad []
    rw [encode, hread, hgroup]
    rfl
  | case3 a b =>
    have ha := a.isLt
    have hb := b.isLt
    have hgroup : group (a.toNat / 4) (a.toNat % 4 * 16 + b.toNat / 16) (b.toNat % 16 * 4) 0 =
        [a, b, 0] := group_sextets a b 0
    have hread := decode_group (sextet_symbol (show a.toNat / 4 < 64 by omega))
      (sextet_symbol (show a.toNat % 4 * 16 + b.toNat / 16 < 64 by omega))
      (sextet_symbol (show b.toNat % 16 * 4 < 64 by omega)) sextet_pad []
    rw [encode, hread, hgroup]
    rfl
  | case4 a b c rest ih =>
    have ha := a.isLt
    have hb := b.isLt
    have hc := c.isLt
    have hread := decode_group (sextet_symbol (show a.toNat / 4 < 64 by omega))
      (sextet_symbol (show a.toNat % 4 * 16 + b.toNat / 16 < 64 by omega))
      (sextet_symbol (show b.toNat % 16 * 4 + c.toNat / 64 < 64 by omega))
      (sextet_symbol (show c.toNat % 64 < 64 by omega)) (encode rest)
    have hpadding : padding (a :: b :: c :: rest).length = padding rest.length := by
      simp only [padding, List.length_cons]
      omega
    rw [encode, hread, group_sextets, ih, hpadding]
    rfl

/-- A text that can be read gives three bytes for every four of its characters. -/
theorem length_decode {text bytes : List Byte} (hdecode : decode text = some bytes) :
    4 * bytes.length = 3 * text.length := by
  induction text using decode.induct generalizing bytes with
  | case1 =>
    cases hdecode
    rfl
  | case2 p q r s rest ih =>
    simp only [decode, Option.bind_eq_bind, Option.bind_eq_some_iff, Option.some.injEq] at hdecode
    obtain ⟨_, -, _, -, _, -, _, -, tail, htail, rfl⟩ := hdecode
    have hlength := ih htail
    simp only [group, List.length_append, List.length_cons, List.length_nil]
    omega
  | case3 text hnil hgroup =>
    unfold decode at hdecode
    split at hdecode
    · exact absurd rfl hnil
    · exact absurd rfl (hgroup _ _ _ _ _)
    · cases hdecode

/-! ### Where the padding is -/

/-- Assumes: at least one byte. The padding of the text is in the last two places of its last
group. -/
theorem exists_encode_eq {bytes : List Byte} (hne : bytes ≠ []) :
    ∃ front : List Byte, ∃ p q r s : Byte, encode bytes = front ++ [p, q, r, s] ∧
      (if s = pad then 1 else 0) + (if r = pad then 1 else 0) = padding bytes.length := by
  induction bytes using encode.induct with
  | case1 => exact absurd rfl hne
  | case2 a => exact ⟨[], _, _, pad, pad, rfl, rfl⟩
  | case3 a b =>
    have hb := b.isLt
    have hthird : symbol (b.toNat % 16 * 4) ≠ pad := symbol_ne_pad (by omega)
    refine ⟨[], _, _, _, pad, rfl, ?_⟩
    rw [if_pos rfl, if_neg hthird]
    rfl
  | case4 a b c rest ih =>
    by_cases hrest : rest = []
    · have hb := b.isLt
      have hc := c.isLt
      have hthird : symbol (b.toNat % 16 * 4 + c.toNat / 64) ≠ pad := symbol_ne_pad (by omega)
      have hfourth : symbol (c.toNat % 64) ≠ pad := symbol_ne_pad (by omega)
      subst hrest
      refine ⟨[], _, _, _, _, rfl, ?_⟩
      rw [if_neg hthird, if_neg hfourth]
      simp only [padding, List.length_cons, List.length_nil]
    · obtain ⟨front, p, q, r, s, htext, hpad⟩ := ih hrest
      refine ⟨symbol (a.toNat / 4) :: symbol (a.toNat % 4 * 16 + b.toNat / 16) ::
        symbol (b.toNat % 16 * 4 + c.toNat / 64) :: symbol (c.toNat % 64) :: front, p, q, r, s,
        ?_, ?_⟩
      · rw [encode, htext]
        · rfl
      · rw [hpad]
        simp only [padding, List.length_cons]
        omega

end TszyUlt.Lib.Base64
