import SqlxMssql.Foundations.LossyUtf8
import SqlxMssql.Options.PercentEscapes

/-! # What percent decoding undoes

The encodings of a text, which the decoder takes back, and the replacement of the escapes
with two digits, from which it departs where a sign stands before a digit.
-/
namespace SqlxMssql.PercentEscapes
open Loops Utf8 Utf8Bytes

/-- One escape for each of the bytes, with digits in either case. -/
inductive EscapesOf : List UInt8 → Text → Prop
  | nil : EscapesOf [] []
  | cons {b : UInt8} {bs : List UInt8} {h l : Char} {e : Text} :
      hexDigit h = some (b.toNat / 16) → hexDigit l = some (b.toNat % 16) → EscapesOf bs e →
      EscapesOf (b :: bs) ('%' :: h :: l :: e)

/-- A character is kept, unless it is a percent sign, or all of its bytes are escaped. -/
inductive PercentEncodes : Text → Text → Prop
  | nil : PercentEncodes [] []
  | keep {c : Char} {s e : Text} : c ≠ '%' → PercentEncodes s e → PercentEncodes (c :: s) (c :: e)
  | escape {c : Char} {s d e : Text} :
      EscapesOf (String.utf8EncodeChar c) d → PercentEncodes s e → PercentEncodes (c :: s) (d ++ e)

section Encodings

theorem hexDigit_lt {c : Char} {n : ℕ} (h : hexDigit c = some n) : n < 16 := by
  have hdigit : ∀ k < 0x80, ∀ v ∈ hexDigit (Char.ofNat k), v < 16 := by decide
  have hascii := hexDigit_ascii h
  revert h
  exact forall_ascii (P := fun c => hexDigit c = some n → n < 16) (fun k hk h => hdigit k hk n h) hascii

theorem fromStrRadix16_digits {h l : Char} {x y : ℕ} (hh : hexDigit h = some x) (hl : hexDigit l = some y) :
    fromStrRadix16 [h, l] = some (UInt8.ofNat (x * 16 + y)) := by
  have hx := hexDigit_lt hh
  have hy := hexDigit_lt hl
  have hplus : h ≠ '+' := by
    rintro rfl
    cases hh
  have hrun : hexDigits 0 [h, l] = some (x * 16 + y) := by
    simp only [hexDigits, hh, hl, Option.bind_some]
    rw [if_pos (by omega), if_pos (by omega), Nat.zero_mul, Nat.zero_add]
  rw [fromStrRadix16.eq_3 h [l] fun _ _ h' _ => hplus h', hrun]
  rfl

theorem join_pieces_escapes {bytes : List UInt8} {d : Text} (h : EscapesOf bytes d) (e : Text) :
    join (pieces (d ++ e)) = bytes ++ join (pieces e) := by
  induction h with
  | nil => rfl
  | @cons b bs h l d hh hl _ ih =>
    have hvalue : fromStrRadix16 [h, l] = some b := by
      rw [fromStrRadix16_digits hh hl, Nat.div_add_mod', UInt8.ofNat_toNat]
    simp only [List.cons_append, pieces, hvalue, join_cons, Piece.bytes, ih, List.nil_append]

theorem join_pieces_encodes {s e : Text} (h : PercentEncodes s e) : join (pieces e) = encode s := by
  induction h with
  | nil => rfl
  | @keep c s e hc _ ih =>
    rw [pieces.eq_2 c e fun _ _ _ h => absurd h hc, join_cons, ih]
    rfl
  | escape hd _ ih => rw [join_pieces_escapes hd, ih, encode_cons]

theorem percentDecode_of_encodes {s e : Text} (h : PercentEncodes s e) : percentDecode e = .ok s := by
  rw [percentDecode_eq, join_pieces_encodes h, fromUtf8Lossy_encode]

end Encodings

/-- The value of a byte as a hexadecimal digit. -/
def hexValue (b : UInt8) : Option ℕ := hexDigit (Char.ofNat b.toNat)

/-- The byte of two digits. -/
def digitPair (h l : UInt8) : Option UInt8 :=
  (hexValue h).bind fun x => (hexValue l).map fun y => UInt8.ofNat (x * 16 + y)

/-- Replaces every percent sign before two hexadecimal digits, from left to right. -/
def replaceEscapes : List UInt8 → List UInt8 := replacePairs digitPair

/-- Somewhere a percent sign is followed by a plus sign and a hexadecimal digit. -/
def HasSignedEscape (bytes : List UInt8) : Prop :=
  ∃ digit rest, 0x25 :: 0x2B :: digit :: rest <:+ bytes ∧ (hexValue digit).isSome

section Signs

theorem fromStrRadix16_pair (h l : Char) : fromStrRadix16 [h, l] =
    if h = '+' then (hexDigit l).map UInt8.ofNat
    else (hexDigit h).bind fun x => (hexDigit l).map fun y => UInt8.ofNat (x * 16 + y) := by
  have hone : hexDigits 0 [l] = hexDigit l := by
    cases hl : hexDigit l with
    | none => simp only [hexDigits, hl, Option.bind_none]
    | some y =>
      have hy := hexDigit_lt hl
      simp only [hexDigits, hl, Option.bind_some, Nat.zero_mul, Nat.zero_add]
      rw [if_pos (by omega)]
  split
  · rename_i hplus
    subst hplus
    rw [fromStrRadix16, hone]
  · rename_i hplus
    cases hh : hexDigit h with
    | none =>
      rw [fromStrRadix16.eq_3 h [l] fun _ _ h' _ => hplus h', hexDigits, hh]
      rfl
    | some x =>
      cases hl : hexDigit l with
      | none =>
        have hx := hexDigit_lt hh
        rw [fromStrRadix16.eq_3 h [l] fun _ _ h' _ => hplus h', hexDigits, hh, Option.bind_some, if_pos (by omega),
          hexDigits, hl]
        rfl
      | some y => rw [fromStrRadix16_digits hh hl]; rfl

theorem hexValue_ascii {b : UInt8} {n : ℕ} (h : hexValue b = some n) : b.toNat < 0x80 := by
  have hascii := hexDigit_ascii h
  have hvalid : b.toNat.isValidChar := Or.inl (b.toNat_lt.trans (by decide))
  rw [Char.ofNat, dif_pos hvalid] at hascii
  exact hascii

/-- Two bytes are the digits of an escape, or the first of them is a sign. -/
theorem hexByte_eq (h l : UInt8) :
    hexByte h l = if h = 0x2B then (hexValue l).map UInt8.ofNat else digitPair h l := by
  by_cases hascii : h.toNat < 0x80 ∧ l.toNat < 0x80
  · have hchars := hexByte_chars (h := Char.ofNat h.toNat) (l := Char.ofNat l.toNat)
      (by rw [toNat_ofNat_ascii hascii.1]; exact hascii.1) (by rw [toNat_ofNat_ascii hascii.2]; exact hascii.2)
    rw [toNat_ofNat_ascii hascii.1, toNat_ofNat_ascii hascii.2, UInt8.ofNat_toNat, UInt8.ofNat_toNat] at hchars
    have hplus : Char.ofNat h.toNat = '+' ↔ h = 0x2B := by
      constructor
      · intro heq
        have hnat := congrArg Char.toNat heq
        rw [toNat_ofNat_ascii hascii.1] at hnat
        exact UInt8.toNat_inj.mp hnat
      · rintro rfl
        rfl
    rw [hchars, fromStrRadix16_pair, if_congr hplus rfl rfl]
    rfl
  · have hnone : hexByte h l = none := by
      by_contra hsome
      obtain ⟨v, hv⟩ := Option.ne_none_iff_exists'.mp hsome
      exact hascii (hexByte_ascii hv)
    have hvalue {b : UInt8} (hb : ¬ b.toNat < 0x80) : hexValue b = none := by
      by_contra hsome
      obtain ⟨n, hn⟩ := Option.ne_none_iff_exists'.mp hsome
      exact hb (hexValue_ascii hn)
    rw [hnone, digitPair]
    by_cases hh : h.toNat < 0x80
    · have hl : hexValue l = none := hvalue fun hl => hascii ⟨hh, hl⟩
      rw [hl]
      cases hexValue h <;> split <;> rfl
    · have hplus : h ≠ 0x2B := by
        rintro rfl
        exact hh (by decide)
      rw [if_neg hplus, hvalue hh]
      rfl

theorem hasSignedEscape_cons {b : UInt8} {bytes : List UInt8} :
    HasSignedEscape (b :: bytes) ↔
      (∃ digit rest, b :: bytes = 0x25 :: 0x2B :: digit :: rest ∧ (hexValue digit).isSome) ∨ HasSignedEscape bytes := by
  constructor
  · rintro ⟨digit, rest, hsuffix, hdigit⟩
    rcases List.suffix_cons_iff.mp hsuffix with heq | hsuffix
    · exact Or.inl ⟨digit, rest, heq.symm, hdigit⟩
    · exact Or.inr ⟨digit, rest, hsuffix, hdigit⟩
  · rintro (⟨digit, rest, heq, hdigit⟩ | ⟨digit, rest, hsuffix, hdigit⟩)
    · exact ⟨digit, rest, heq ▸ List.suffix_rfl, hdigit⟩
    · exact ⟨digit, rest, hsuffix.trans (List.suffix_cons b bytes), hdigit⟩

theorem hasSignedEscape_later {b : UInt8} {bytes : List UInt8} (h : b ≠ 0x25 ∨ ∀ digit rest,
    bytes = 0x2B :: digit :: rest → hexValue digit = none) : HasSignedEscape (b :: bytes) ↔ HasSignedEscape bytes := by
  rw [hasSignedEscape_cons, or_iff_right]
  rintro ⟨digit, rest, heq, hdigit⟩
  cases heq
  rcases h with hb | hnone
  · exact hb rfl
  · rw [hnone digit rest rfl] at hdigit
    cases hdigit

theorem hexValue_percent : hexValue 0x25 = none := by decide

theorem ne_percent_of_hexValue {b : UInt8} (h : (hexValue b).isSome) : b ≠ 0x25 := by
  rintro rfl
  rw [hexValue_percent] at h
  cases h

/-- The decoder and the replacement agree on the bytes, or the decoder loses a plus sign. -/
def Compared (bytes : List UInt8) : Prop :=
  ¬ HasSignedEscape bytes ∧ replacePairs hexByte bytes = replacePairs digitPair bytes ∨
    HasSignedEscape bytes ∧ (replacePairs hexByte bytes).count 0x2B < (replacePairs digitPair bytes).count 0x2B

/-- A byte that both of them give keeps what holds of the rest. -/
theorem Compared.step {bytes rest : List UInt8} (value : UInt8) (h : Compared rest)
    (hsigned : HasSignedEscape bytes ↔ HasSignedEscape rest)
    (hdecode : replacePairs hexByte bytes = value :: replacePairs hexByte rest)
    (hreplace : replacePairs digitPair bytes = value :: replacePairs digitPair rest) : Compared bytes := by
  unfold Compared
  rw [hsigned, hdecode, hreplace, List.count_cons, List.count_cons]
  rcases h with ⟨hnot, heq⟩ | ⟨hsome, hlt⟩
  · exact Or.inl ⟨hnot, by rw [heq]⟩
  · exact Or.inr ⟨hsome, Nat.add_lt_add_right hlt _⟩

theorem Compared.count_le {bytes : List UInt8} (h : Compared bytes) :
    (replacePairs hexByte bytes).count 0x2B ≤ (replacePairs digitPair bytes).count 0x2B := by
  rcases h with ⟨-, heq⟩ | ⟨-, hlt⟩
  · rw [heq]
  · exact hlt.le

/-- The decoder gives one byte for a signed digit, where three bytes are to be copied. -/
theorem compared_signed {l : UInt8} {rest : List UInt8} {y : ℕ} (hy : hexValue l = some y) (ih : Compared rest) :
    Compared (0x25 :: 0x2B :: l :: rest) := by
  have hdecode : replacePairs hexByte (0x25 :: 0x2B :: l :: rest) = UInt8.ofNat y :: replacePairs hexByte rest := by
    have hbyte : hexByte 0x2B l = some (UInt8.ofNat y) := by rw [hexByte_eq, if_pos rfl, hy, Option.map_some]
    exact replacePairs_some hbyte rest
  have hreplace : replacePairs digitPair (0x25 :: 0x2B :: l :: rest) =
      0x25 :: 0x2B :: l :: replacePairs digitPair rest := by
    have hl : l ≠ 0x25 := ne_percent_of_hexValue (hy ▸ rfl)
    have hpair : digitPair 0x2B l = none := rfl
    rw [replacePairs_none hpair, replacePairs_cons (by decide), replacePairs_cons hl]
  have hy16 : y < 16 := hexDigit_lt hy
  have hne : UInt8.ofNat y ≠ 0x2B := by
    intro h
    have hnat := congrArg UInt8.toNat h
    rw [toNat_of_ofNat (by omega)] at hnat
    change y = 43 at hnat
    omega
  have hlne : l ≠ 0x2B := by
    rintro rfl
    cases hy
  refine Or.inr ⟨⟨l, rest, List.suffix_rfl, hy ▸ rfl⟩, ?_⟩
  rw [hdecode, hreplace, List.count_cons_of_ne hne, List.count_cons_of_ne (by decide), List.count_cons_self,
    List.count_cons_of_ne hlne]
  exact Nat.lt_succ_of_le ih.count_le

theorem compared_pair {h l value : UInt8} {rest : List UInt8} (hplus : h ≠ 0x2B) (hvalue : digitPair h l = some value)
    (ih : Compared rest) : Compared (0x25 :: h :: l :: rest) := by
  obtain ⟨x, hx, hmap⟩ := Option.bind_eq_some_iff.mp hvalue
  obtain ⟨y, hy, -⟩ := Option.map_eq_some_iff.mp hmap
  apply ih.step value
  · rw [hasSignedEscape_later (Or.inr fun _ _ heq => absurd (List.cons.inj heq).1 hplus),
      hasSignedEscape_later (Or.inl (ne_percent_of_hexValue (hx ▸ rfl))),
      hasSignedEscape_later (Or.inl (ne_percent_of_hexValue (hy ▸ rfl)))]
  · exact replacePairs_some (by rw [hexByte_eq, if_neg hplus, hvalue]) rest
  · exact replacePairs_some hvalue rest

theorem compared_copied {h l : UInt8} {rest : List UInt8} (hnone : hexByte h l = none)
    (ih : Compared (h :: l :: rest)) : Compared (0x25 :: h :: l :: rest) := by
  have hpair : digitPair h l = none ∧ (h = 0x2B → hexValue l = none) := by
    rw [hexByte_eq] at hnone
    split at hnone
    · rename_i hplus
      subst hplus
      exact ⟨rfl, fun _ => Option.map_eq_none_iff.mp hnone⟩
    · rename_i hplus
      exact ⟨hnone, fun heq => absurd heq hplus⟩
  apply ih.step 0x25
  · apply hasSignedEscape_later
    right
    intro digit rest' heq
    cases heq
    exact hpair.2 rfl
  · exact replacePairs_none hnone rest
  · exact replacePairs_none hpair.1 rest

theorem compared (bytes : List UInt8) : Compared bytes := by
  induction bytes using replacePairs.induct hexByte with
  | case1 h l rest value hvalue ih =>
    rw [hexByte_eq] at hvalue
    split at hvalue
    · rename_i hplus
      subst hplus
      obtain ⟨y, hy, -⟩ := Option.map_eq_some_iff.mp hvalue
      exact compared_signed hy ih
    · rename_i hplus
      exact compared_pair hplus hvalue ih
  | case2 h l rest hnone ih => exact compared_copied hnone ih
  | case3 b h l rest hb ih =>
    exact ih.step b (hasSignedEscape_later (Or.inl hb)) (replacePairs_cons hb _) (replacePairs_cons hb _)
  | case4 bytes hshort =>
    have hlength : bytes.length ≤ 2 := by
      match bytes, hshort with
      | [], _ => exact Nat.zero_le 2
      | [_], _ => exact Nat.le_succ 1
      | [_, _], _ => exact le_rfl
      | b :: h :: l :: rest, hshort => exact (hshort b h l rest rfl).elim
    refine Or.inl ⟨?_, by rw [replacePairs_short hlength, replacePairs_short hlength]⟩
    rintro ⟨digit, rest, hsuffix, -⟩
    have := hsuffix.length_le
    simp only [List.length_cons] at this
    omega

end Signs

theorem percentDecode_eq_replacePairs (s : Text) :
    percentDecode s = .ok (fromUtf8Lossy (replacePairs hexByte (encode s))) := by
  rw [percentDecode_eq, replacePairs_encode]

/-- Only the escapes with two digits are replaced, unless a sign stands before a digit. -/
theorem percentDecode_replaces_iff (s : Text) :
    percentDecode s = .ok (fromUtf8Lossy (replaceEscapes (encode s))) ↔ ¬ HasSignedEscape (encode s) := by
  rw [percentDecode_eq_replacePairs, replaceEscapes]
  rcases compared (encode s) with ⟨hnot, heq⟩ | ⟨hsigned, hlt⟩
  · rw [heq]
    exact iff_of_true rfl hnot
  · refine iff_of_false (fun h => ?_) (fun hnot => hnot hsigned)
    have hcount := congrArg (List.count (Char.ofNat (0x2B : UInt8).toNat)) (Except.ok.inj h)
    rw [count_fromUtf8Lossy (by decide), count_fromUtf8Lossy (by decide)] at hcount
    omega

/-- The password `50%+5` loses its sign and its digit. -/
theorem percentDecode_signed_replaced :
    percentDecode "50%+5".toList ≠ .ok (fromUtf8Lossy (replaceEscapes (encode "50%+5".toList))) := by
  decide

end SqlxMssql.PercentEscapes
