import SqlxMssql.Types.Decoding
import SqlxMssql.Foundations.PlainDecimals

/-! # Exact numbers read as integers

A decimal or a character value that spells a number, and when it is read as the integer that
it is, or not at all. What is no `i64` as it stands is read through the nearest `f64`, which
is cast with saturation.
-/
namespace SqlxMssql
open Utf8 BinaryFloats NumberTexts

def DecimalParts.number (parts : DecimalParts) : ℚ := parts.signed / 10 ^ parts.scale.toNat

/-- The text of a decimal is its expansion. -/
structure TdsNumbers.Expands (tds : TdsNumbers) : Prop where
  displayDecimal_expands {parts : DecimalParts} (h : parts.coefficient < 10 ^ 38) :
    ∃ p : PlainDecimal, tds.displayDecimal parts = p.text ∧ p.number = parts.number

theorem TdsNumbers.fixedPoint_expands : TdsNumbers.fixedPoint.Expands where
  displayDecimal_expands {parts} _ := by
    refine ⟨.ofFixedPoint (!parts.isPositive) parts.coefficient parts.scale.toNat,
      (PlainDecimal.text_ofFixedPoint ..).symm, (PlainDecimal.number_ofFixedPoint ..).trans ?_⟩
    rw [DecimalParts.number, DecimalParts.signed]
    cases parts.isPositive <;> rfl

/-- A coefficient of at most 38 digits, at any scale. -/
def IsDecimal (x : ℚ) : Prop := ∃ coefficient scale : ℕ, coefficient < 10 ^ 38 ∧ |x| = coefficient / 10 ^ scale

/-- The values that are an exact number. -/
inductive HoldsNumber : ColumnValues → ℚ → Prop
  | decimal {parts : DecimalParts} (h : parts.coefficient < 10 ^ 38) : HoldsNumber (.decimal parts) parts.number
  | numeric {parts : DecimalParts} (h : parts.coefficient < 10 ^ 38) : HoldsNumber (.numeric parts) parts.number
  | string {text : Text} (p : PlainDecimal) (htext : trim text = p.text) (h : IsDecimal p.number) :
    HoldsNumber (.string text) p.number

def InI64 (n : ℤ) : Prop := -9223372036854775808 ≤ n ∧ n ≤ 9223372036854775807

def integerDecoders : List (MssqlValueRef → Except Text ℤ) :=
  [decodeI8, decodeI16, decodeI32, decodeI64, decodeU8, decodeU16, decodeU32, decodeU64]

/-- A number is read as the integer that it is, or not at all. -/
structure ReadsExactly (value : MssqlValueRef) (x : ℚ) : Prop where
  exact {n : ℤ} : value.asI64 = some n → (n : ℚ) = x
  total {n : ℤ} : (n : ℚ) = x → InI64 n → value.asI64.isSome
  decoded {decode : MssqlValueRef → Except Text ℤ} {n : ℤ} :
    decode ∈ integerDecoders → decode value = .ok n → (n : ℚ) = x

/-- An `i64` spelled without a point, or, behind a point, one that is an `f64` or the one that
the cast saturates to. Of fractions, those with an `f64` nearer than every integer. -/
def Readable (text : Text) (x : ℚ) : Prop :=
  (∃ n : ℤ, x = n ∧ InI64 n ∧ ('.' ∉ text ∨ binary64.IsNumber x ∨ n = 9223372036854775807)) ∨
    (∀ n : ℤ, x ≠ n) ∧ ∃ w, binary64.IsNumber w ∧ ∀ n : ℤ, |x - w| < |x - n|

section Reading
variable {text : Text} {p : PlainDecimal}

theorem room_of_isDecimal (h : IsDecimal p.number) : p.magnitude < 2 ^ binary64.room := by
  obtain ⟨coefficient, scale, hlt, habs⟩ := h
  have hroom : binary64.room = 1023 := by decide
  have hpow : (1 : ℚ) ≤ 10 ^ scale := one_le_pow₀ (by norm_num)
  rw [← p.abs_number, habs, hroom]
  calc (coefficient / 10 ^ scale : ℚ)
      ≤ coefficient := div_le_self (Nat.cast_nonneg _) hpow
    _ < 10 ^ 38 := by exact_mod_cast hlt
    _ ≤ 2 ^ (127 : ℤ) := by norm_num
    _ ≤ 2 ^ (1023 : ℤ) := zpow_le_zpow_right₀ one_le_two (by norm_num)

/-- Digits without a point that fit are read as they stand. -/
theorem parseIntegerText_direct (htext : trim text = p.text) (hpoint : p.fraction = none) (hfits : InI64 p.signed) :
    parseIntegerText text = some p.signed := by
  have hrange : -2 ^ (64 - 1) ≤ p.signed ∧ p.signed < 2 ^ (64 - 1) := by
    obtain ⟨hlow, hhigh⟩ := hfits
    constructor <;> omega
  rw [parseIntegerText, htext, p.parseSigned_text, if_pos ⟨hpoint, hrange⟩, Option.some_or]

/-- Everything else is read through the nearest `f64`. -/
theorem parseIntegerText_rounded (htext : trim text = p.text) (hdirect : p.fraction = none → ¬ InI64 p.signed)
    (hx : IsDecimal p.number) :
    ∃ w, NearestNumber binary64 p.number w ∧
      ∀ n, parseIntegerText text = some n ↔ ∃ j : ℤ, (j : ℚ) = w ∧ saturateI64 j = n := by
  obtain ⟨w, hnearest, hread⟩ := p.parseFloat_toInt? binary64 (by decide) (room_of_isDecimal hx)
  refine ⟨w, hnearest, fun n => ?_⟩
  have hnone : parseSigned 64 p.text = none := by
    rw [p.parseSigned_text]
    refine if_neg fun ⟨hpoint, hlow, hhigh⟩ => hdirect hpoint ⟨?_, ?_⟩ <;> omega
  have hcast : ((parseFloat binary64 p.text).bind fun value => (binary64.toInt? value).map saturateI64) =
      ((parseFloat binary64 p.text).bind binary64.toInt?).map saturateI64 := Option.map_bind.symm
  rw [parseIntegerText, htext, hnone, Option.none_or, hcast, Option.map_eq_some_iff]
  exact exists_congr fun j => and_congr_left' (hread j)

example : parseIntegerText "9007199254740993.0".toList = some 9007199254740992 := by decide +kernel

theorem saturateI64_mem (n : ℤ) : InI64 (saturateI64 n) := by
  unfold InI64 saturateI64
  omega

theorem saturateI64_eq {n : ℤ} (h : InI64 n) : saturateI64 n = n := by
  unfold InI64 at h
  unfold saturateI64
  omega

theorem isNumber_minI64 : binary64.IsNumber (-9223372036854775808 : ℤ) := by
  refine ⟨1086 * 2 ^ 52, by decide, ?_⟩
  have hsignificand : binary64.significand (1086 * 2 ^ 52) = 2 ^ 52 := by decide
  have hunit : binary64.unit (1086 * 2 ^ 52) = 11 := by decide
  rw [BinaryFormat.value, hsignificand, hunit]
  norm_num

/-- An `f64` as large as the greatest `i64` or its neighbours is the next power of two. -/
theorem nearest_maxI64 {j : ℤ} (h : NearestNumber binary64 (9223372036854775807 : ℤ) j) :
    saturateI64 j = 9223372036854775807 := by
  have hpower : binary64.IsNumber (9223372036854775808 : ℤ) := by
    have hneg := isNumber_minI64.neg
    rwa [← Int.cast_neg, neg_neg] at hneg
  have hle := h.le hpower
  have habs : |9223372036854775807 - j| ≤ 1 := by
    have hone : |((9223372036854775807 : ℤ) : ℚ) - (9223372036854775808 : ℤ)| = 1 := by norm_num
    rw [hone] at hle
    exact_mod_cast hle
  have hlow := abs_le.mp habs
  have hfour : 2 ^ 2 ∣ j := by
    refine h.isNumber.dvd (le_trans ?_ (le_abs_self j))
    have hfraction : binary64.fraction = 52 := rfl
    rw [hfraction]
    omega
  unfold saturateI64
  omega

/-- The integers that survive their way through an `f64` and the cast. -/
theorem saturated_iff {i j : ℤ} (h : NearestNumber binary64 i j) :
    saturateI64 j = i ↔ InI64 i ∧ (binary64.IsNumber i ∨ i = 9223372036854775807) := by
  constructor
  · rintro rfl
    refine ⟨saturateI64_mem j, ?_⟩
    by_cases hfits : InI64 j
    · left
      rw [saturateI64_eq hfits]
      exact h.isNumber
    · have hcase : saturateI64 j = -9223372036854775808 ∨ saturateI64 j = 9223372036854775807 := by
        unfold InI64 at hfits
        unfold saturateI64
        omega
      rcases hcase with hmin | hmax
      · left
        rw [hmin]
        exact isNumber_minI64
      · exact .inr hmax
  · rintro ⟨hfits, hnumber | rfl⟩
    · have heq : j = i := by exact_mod_cast h.eq hnumber
      rw [heq, saturateI64_eq hfits]
    · exact nearest_maxI64 h

/-- What is not read directly is read exactly when the nearest `f64` tells an integer from a
fraction, and saturates to no other integer. -/
theorem rounded_exact_iff {x w : ℚ} (h : NearestNumber binary64 x w) :
    (∀ n j : ℤ, (j : ℚ) = w → saturateI64 j = n → (n : ℚ) = x) ↔
      (∃ n : ℤ, x = n ∧ InI64 n ∧ (binary64.IsNumber x ∨ n = 9223372036854775807)) ∨
        (∀ n : ℤ, x ≠ n) ∧ ∃ v, binary64.IsNumber v ∧ ∀ n : ℤ, |x - v| < |x - n| := by
  by_cases hinteger : ∃ i : ℤ, x = i
  · obtain ⟨i, rfl⟩ := hinteger
    obtain ⟨j, rfl⟩ := h.integer
    have hsaturated := saturated_iff h
    constructor
    · intro hexact
      have heq : saturateI64 j = i := by exact_mod_cast hexact _ j rfl rfl
      exact .inl ⟨i, rfl, hsaturated.mp heq⟩
    · rintro (⟨n, hn, hfits⟩ | ⟨hno, -⟩) m k hk rfl
      · obtain rfl : i = n := by exact_mod_cast hn
        obtain rfl : k = j := by exact_mod_cast hk
        rw [hsaturated.mpr hfits]
      · exact absurd rfl (hno i)
  · rw [not_exists] at hinteger
    constructor
    · intro hexact
      refine .inr ⟨hinteger, w, h.isNumber, h.lt fun j hj => ?_⟩
      exact hinteger _ (hexact _ j hj.symm rfl).symm
    · rintro (⟨n, hn, -⟩ | ⟨-, v, hv, hcloser⟩) m k hk -
      · exact absurd hn (hinteger n)
      · have hlt := hcloser k
        rw [hk] at hlt
        exact absurd (h.le hv) (not_le.mpr hlt)

/-- The text of an exact number, as the driver caches it, spells it. -/
theorem spelled_of_holds {tds : TdsNumbers} (htds : tds.Expands) {value : MssqlValue} {x : ℚ}
    (hx : HoldsNumber value.raw x) (htext : (value.asRef tds).text = some text) :
    (value.asRef tds).asI64 = parseIntegerText text ∧
      ∃ p : PlainDecimal, trim text = p.text ∧ p.number = x ∧ IsDecimal x := by
  obtain ⟨raw, typeInfo⟩ := value
  have hdecimal {parts : DecimalParts} (h : parts.coefficient < 10 ^ 38) :
      ∃ p : PlainDecimal, trim (tds.displayDecimal parts) = p.text ∧ p.number = parts.number ∧
        IsDecimal parts.number := by
    obtain ⟨p, hp, hnumber⟩ := htds.displayDecimal_expands h
    refine ⟨p, hp ▸ p.trim_text, hnumber, parts.coefficient, parts.scale.toNat, h, ?_⟩
    have hpos : (0 : ℚ) < 10 ^ parts.scale.toNat := by positivity
    rw [DecimalParts.number, DecimalParts.signed, abs_div, abs_of_pos hpos]
    congr 1
    split
    · exact_mod_cast abs_of_nonneg (Int.natCast_nonneg parts.coefficient)
    · exact_mod_cast (abs_neg _).trans (abs_of_nonneg (Int.natCast_nonneg parts.coefficient))
  cases hx with
  | decimal h =>
    obtain rfl : tds.displayDecimal _ = text := Option.some_inj.mp htext
    exact ⟨rfl, hdecimal h⟩
  | numeric h =>
    obtain rfl : tds.displayDecimal _ = text := Option.some_inj.mp htext
    exact ⟨rfl, hdecimal h⟩
  | string p hp h =>
    obtain rfl : _ = text := Option.some_inj.mp htext
    exact ⟨rfl, p, hp, rfl, h⟩

/-- A decoder returns what is read, or an error. -/
theorem asI64_of_decoded {value : MssqlValueRef} {decode : MssqlValueRef → Except Text ℤ} {n : ℤ}
    (hmem : decode ∈ integerDecoders) (hdecode : decode value = .ok n) : value.asI64 = some n := by
  have hinteger {target : String} {low high : ℤ} (h : decodeInteger value target low high = .ok n) :
      value.asI64 = some n := by
    unfold decodeInteger at h
    split at h
    · cases h
    · rename_i integer hread
      split at h
      · rw [hread, Except.ok.inj h]
      · cases h
  simp only [integerDecoders, List.mem_cons, List.not_mem_nil, or_false] at hmem
  rcases hmem with rfl | rfl | rfl | rfl | rfl | rfl | rfl | rfl
  all_goals exact hinteger hdecode

theorem readsExactly_iff {tds : TdsNumbers} (htds : tds.Expands) {value : MssqlValue} {x : ℚ}
    (hx : HoldsNumber value.raw x) (htext : (value.asRef tds).text = some text) :
    ReadsExactly (value.asRef tds) x ↔ Readable text x := by
  obtain ⟨hread, p, htrim, rfl, hdecimal⟩ := spelled_of_holds htds hx htext
  have hpoint : '.' ∉ text ↔ p.fraction = none := by
    rw [← mem_trim (by decide : ¬ isWhitespace '.'), htrim, p.point_mem_text, not_not]
  have hnumber (h : p.fraction = none) : p.number = p.signed := by
    rw [PlainDecimal.number, PlainDecimal.scale, h, Option.getD_none, List.length_nil, pow_zero, div_one]
  by_cases hdirect : p.fraction = none ∧ InI64 p.signed
  · have hparse := parseIntegerText_direct htrim hdirect.1 hdirect.2
    have hexact {n : ℤ} (h : (value.asRef tds).asI64 = some n) : (n : ℚ) = p.number := by
      rw [hread, hparse] at h
      rw [hnumber hdirect.1, Option.some_inj.mp h]
    refine iff_of_true ⟨hexact, fun _ _ => ?_, fun hmem h => hexact (asI64_of_decoded hmem h)⟩
      (.inl ⟨p.signed, hnumber hdirect.1, hdirect.2, .inl (hpoint.mpr hdirect.1)⟩)
    rw [hread, hparse]
    rfl
  · rw [not_and] at hdirect
    obtain ⟨w, hnearest, hrounded⟩ := parseIntegerText_rounded htrim hdirect hdecimal
    have hno {n : ℤ} (hx : p.number = n) (hfits : InI64 n) : ¬ '.' ∉ text := by
      intro h
      have heq : p.signed = n := by exact_mod_cast (hnumber (hpoint.mp h)).symm.trans hx
      exact hdirect (hpoint.mp h) (heq ▸ hfits)
    have hreadable : Readable text p.number ↔ _ := or_congr_left <| exists_congr fun n => and_congr_right fun hx =>
      and_congr_right fun hfits => or_iff_right (hno hx hfits)
    rw [hreadable, ← rounded_exact_iff hnearest]
    constructor
    · intro h n j hj hsaturated
      exact h.exact (hread.trans ((hrounded n).mpr ⟨j, hj, hsaturated⟩))
    · intro h
      have hexact {n : ℤ} (hn : (value.asRef tds).asI64 = some n) : (n : ℚ) = p.number := by
        obtain ⟨j, hj, hsaturated⟩ := (hrounded n).mp (hread ▸ hn)
        exact h n j hj hsaturated
      refine ⟨hexact, fun {n} hn _ => ?_, fun hmem hdecode => hexact (asI64_of_decoded hmem hdecode)⟩
      rw [← hn] at hnearest
      obtain ⟨j, rfl⟩ := hnearest.integer
      rw [hread, (hrounded _).mpr ⟨j, rfl, rfl⟩]
      rfl

end Reading

/-- The value of a decimal column. -/
def DecimalParts.value (parts : DecimalParts) : MssqlValue :=
  ⟨.decimal parts, ⟨"decimal".toList, TdsDataType.decimalN.code, 17, some parts.precision, some parts.scale⟩⟩

def pricePaid : DecimalParts := ⟨false, 9, 2, 1250⟩

theorem pricePaid_readsExactly_iff :
    HoldsNumber pricePaid.value.raw pricePaid.number ∧
      (ReadsExactly (pricePaid.value.asRef .fixedPoint) pricePaid.number ↔
        Readable "-12.50".toList pricePaid.number) := by
  have hx : HoldsNumber pricePaid.value.raw pricePaid.number := .decimal (by decide)
  exact ⟨hx, readsExactly_iff TdsNumbers.fixedPoint_expands hx (by decide)⟩

/-- Two to the 63rd, which no `i64` is. -/
def beyondI64 : DecimalParts := ⟨true, 19, 0, 9223372036854775808⟩

/-- Seventeen nines behind the point. -/
def belowOne : DecimalParts := ⟨true, 17, 17, 99999999999999999⟩

/-- An integer out of range is read as the greatest one, and a fraction as the integer above it. -/
theorem wrong_integers :
    (HoldsNumber beyondI64.value.raw beyondI64.number ∧
      ¬ ReadsExactly (beyondI64.value.asRef .fixedPoint) beyondI64.number) ∧
    HoldsNumber belowOne.value.raw belowOne.number ∧
      ¬ ReadsExactly (belowOne.value.asRef .fixedPoint) belowOne.number := by
  have hgreatest : (beyondI64.value.asRef .fixedPoint).asI64 = some 9223372036854775807 := by decide +kernel
  have hone : (belowOne.value.asRef .fixedPoint).asI64 = some 1 := by decide +kernel
  have hbeyond : beyondI64.number = 9223372036854775808 := by
    norm_num [DecimalParts.number, show beyondI64.signed = 9223372036854775808 from rfl,
      show beyondI64.scale.toNat = 0 from rfl]
  have hbelow : belowOne.number = 99999999999999999 / 10 ^ 17 := by
    norm_num [DecimalParts.number, show belowOne.signed = 99999999999999999 from rfl,
      show belowOne.scale.toNat = 17 from rfl]
  refine ⟨⟨.decimal (by decide), fun h => ?_⟩, .decimal (by decide), fun h => ?_⟩
  · have hexact := h.exact hgreatest
    rw [hbeyond] at hexact
    norm_num at hexact
  · have hexact := h.exact hone
    rw [hbelow] at hexact
    norm_num at hexact

end SqlxMssql
