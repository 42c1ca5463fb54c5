import SqlxMssql.Foundations.CorrectRounding
import SqlxMssql.Foundations.NumberTexts
import Mathlib.Data.List.TakeWhile

/-! # Plain decimal notation

Digits with a sign and a point, without an exponent: the number they spell, and how the
standard library reads them.
-/
namespace SqlxMssql.NumberTexts
open Utf8 BinaryFloats

theorem toNat_of_isDigit {c : Char} (h : c.isDigit) : 48 ≤ c.toNat ∧ c.toNat ≤ 57 := by
  simp only [Char.isDigit, Bool.and_eq_true, decide_eq_true_eq, UInt32.le_iff_toNat_le, Char.reduceVal,
    UInt32.reduceToNat] at h
  exact h

inductive Sign where
  | implicit
  | plus
  | minus
  deriving DecidableEq, Repr

def Sign.text : Sign → Text
  | .implicit => []
  | .plus => ['+']
  | .minus => ['-']

def Sign.negative (sign : Sign) : Bool := sign = .minus

/-- Digits before and behind a point, which may be left out; a digit there is. -/
structure PlainDecimal where
  sign : Sign
  whole : Text
  fraction : Option Text
  isDigit : ∀ c ∈ whole ++ fraction.getD [], c.isDigit
  nonempty : whole ++ fraction.getD [] ≠ []

namespace PlainDecimal
variable (p : PlainDecimal)

def unsignedText : Text :=
  p.whole ++ match p.fraction with
    | none => []
    | some digits => '.' :: digits

def text : Text := p.sign.text ++ p.unsignedText
def coefficient : ℕ := Nat.ofDigitChars 10 (p.whole ++ p.fraction.getD []) 0
def scale : ℕ := (p.fraction.getD []).length

/-- The coefficient with its sign. -/
def signed : ℤ := if p.sign.negative then -p.coefficient else p.coefficient

/-- The number that the text spells. -/
def number : ℚ := p.signed / 10 ^ p.scale
def magnitude : ℚ := p.coefficient / 10 ^ p.scale

theorem magnitude_nonneg : 0 ≤ p.magnitude := by
  unfold magnitude
  positivity

theorem number_eq : p.number = if p.sign.negative then -p.magnitude else p.magnitude := by
  unfold number signed magnitude
  split
  · rw [Int.cast_neg, Int.cast_natCast, neg_div]
  · rw [Int.cast_natCast]

theorem abs_number : |p.number| = p.magnitude := by
  rw [number_eq]
  split
  · rw [abs_neg, abs_of_nonneg p.magnitude_nonneg]
  · exact abs_of_nonneg p.magnitude_nonneg

theorem isDigit_whole {c : Char} (h : c ∈ p.whole) : c.isDigit := p.isDigit c (List.mem_append_left _ h)

theorem mem_unsignedText {c : Char} (h : c ∈ p.unsignedText) : c.isDigit ∨ c = '.' := by
  rcases List.mem_append.mp h with hwhole | hrest
  · exact .inl (p.isDigit_whole hwhole)
  · cases hfraction : p.fraction with
    | none =>
      rw [hfraction] at hrest
      exact absurd hrest List.not_mem_nil
    | some digits =>
      rw [hfraction] at hrest
      refine (List.mem_cons.mp hrest).symm.imp_left fun hdigits => p.isDigit c ?_
      rw [hfraction]
      exact List.mem_append_right _ hdigits

theorem point_mem_text : '.' ∈ p.text ↔ p.fraction ≠ none := by
  have hsign : '.' ∉ p.sign.text := by cases p.sign <;> decide
  have hwhole : '.' ∉ p.whole := fun h => absurd (p.isDigit_whole h) (by decide)
  cases hfraction : p.fraction with
  | none => simp [text, unsignedText, hfraction, hsign, hwhole]
  | some digits => simp [text, unsignedText, hfraction]

theorem not_isWhitespace {c : Char} (h : c ∈ p.text) : ¬ isWhitespace c := by
  rcases List.mem_append.mp h with hsign | hrest
  · cases hcase : p.sign with
    | implicit => simp [hcase, Sign.text] at hsign
    | plus =>
      obtain rfl : c = '+' := by simpa [hcase, Sign.text] using hsign
      decide
    | minus =>
      obtain rfl : c = '-' := by simpa [hcase, Sign.text] using hsign
      decide
  · rcases p.mem_unsignedText hrest with hdigit | rfl
    · have hrange := toNat_of_isDigit hdigit
      simp only [isWhitespace, Bool.or_eq_true, Bool.and_eq_true, decide_eq_true_eq]
      omega
    · decide

/-- There is nothing to trim. -/
theorem trim_text : trim p.text = p.text := trim_eq_self fun _ => p.not_isWhitespace

theorem unsignedText_cons : ∃ c rest, p.unsignedText = c :: rest ∧ (c.isDigit ∨ c = '.') := by
  cases htext : p.unsignedText with
  | nil =>
    have hnonempty := p.nonempty
    obtain ⟨hwhole, hrest⟩ := List.append_eq_nil_iff.mp htext
    cases hfraction : p.fraction with
    | none => simp [hwhole, hfraction] at hnonempty
    | some digits => simp [hfraction] at hrest
  | cons c rest => exact ⟨c, rest, rfl, p.mem_unsignedText (htext ▸ List.mem_cons_self)⟩

theorem splitSign_text : splitSign p.text = (p.sign.negative, p.unsignedText) := by
  obtain ⟨c, rest, htext, hc⟩ := p.unsignedText_cons
  unfold text
  cases hsign : p.sign with
  | implicit =>
    rw [htext, Sign.text, List.nil_append]
    unfold splitSign
    split
    · rename_i heq
      cases heq
      exact absurd hc (by decide)
    · rename_i heq
      cases heq
      exact absurd hc (by decide)
    · rfl
  | plus => rfl
  | minus => rfl

theorem digitsValue_digits : digitsValue (p.whole ++ p.fraction.getD []) = some p.coefficient :=
  if_pos ⟨p.nonempty, List.all_eq_true.mpr p.isDigit⟩

theorem parseNumber_unsignedText : parseNumber p.unsignedText = some (p.coefficient, -(p.scale : ℤ)) := by
  have hdigits := p.digitsValue_digits
  have hwhole : ∀ c ∈ p.whole, c.isDigit := fun _ => p.isDigit_whole
  have hfraction : ∀ c ∈ p.fraction.getD [], c.isDigit := fun c hc => p.isDigit c (List.mem_append_right _ hc)
  have hpoint : '.'.isDigit = false := by decide
  unfold parseNumber unsignedText scale
  rw [List.takeWhile_append_of_pos hwhole, List.dropWhile_append_of_pos hwhole]
  cases hcase : p.fraction with
  | none =>
    rw [hcase, Option.getD_none, List.append_nil] at hdigits
    simp [hdigits, parseExponent]
  | some digits =>
    rw [hcase] at hdigits hfraction
    have htake : digits.takeWhile Char.isDigit = digits := List.takeWhile_eq_self_iff.mpr hfraction
    have hdrop : digits.dropWhile Char.isDigit = [] := List.dropWhile_eq_nil_iff.mpr hfraction
    simp only [Option.getD_some] at hdigits
    simp [hpoint, htake, hdrop, hdigits, parseExponent]

/-- Digits with a point are not read as an integer, and without one as what they spell. -/
theorem parseSigned_text (bits : ℕ) :
    parseSigned bits p.text =
      if p.fraction = none ∧ -2 ^ (bits - 1) ≤ p.signed ∧ p.signed < 2 ^ (bits - 1) then some p.signed else none := by
  have hdigits := p.digitsValue_digits
  unfold parseSigned
  rw [splitSign_text]
  cases hcase : p.fraction with
  | none =>
    rw [hcase, Option.getD_none, List.append_nil] at hdigits
    have htext : p.unsignedText = p.whole := by rw [unsignedText, hcase, List.append_nil]
    simp [htext, hdigits, signed]
  | some digits =>
    have hpoint : digitsValue p.unsignedText = none := by
      refine if_neg fun h => ?_
      have hmem : '.' ∈ p.unsignedText := by
        rw [unsignedText, hcase]
        exact List.mem_append_right _ List.mem_cons_self
      exact absurd (List.all_eq_true.mp h.2 _ hmem) (by decide)
    simp [hpoint]

section Float
variable (f : BinaryFormat)

/-- A digit or a point is no letter, in either case. -/
theorem toLower_not_isAlpha {c : Char} (h : c.isDigit ∨ c = '.') : ¬ c.toLower.isAlpha := by
  have hlt : c.toNat < 0x80 := by
    rcases h with h | rfl
    · exact (toNat_of_isDigit h).2.trans_lt (by decide)
    · decide
  revert h
  exact forall_ascii (P := fun c => c.isDigit ∨ c = '.' → ¬ c.toLower.isAlpha) (by decide) hlt

theorem not_word {word : Text} (h : (toAsciiLowercase word).head?.any Char.isAlpha) :
    ¬ eqIgnoreAsciiCase p.unsignedText word := by
  obtain ⟨c, rest, htext, hc⟩ := p.unsignedText_cons
  intro heq
  rw [eqIgnoreAsciiCase, decide_eq_true_eq] at heq
  rw [← heq, htext] at h
  exact toLower_not_isAlpha hc h

/-- The number of the format, without its sign, that the text is read as. -/
def rounded : ℕ := if p.scale = 0 then f.round p.coefficient 0 else f.ratio p.coefficient (10 ^ p.scale)

theorem parseFloat_text : parseFloat f p.text = some (f.signed p.sign.negative (p.rounded f)) := by
  unfold parseFloat rounded
  rw [splitSign_text]
  dsimp only
  rw [if_neg (not_or.mpr ⟨p.not_word (by decide), p.not_word (by decide)⟩), if_neg (p.not_word (by decide)),
    parseNumber_unsignedText]
  by_cases hscale : p.scale = 0
  · simp [hscale]
  · simp [hscale]

theorem nearestNumber_rounded (hexponent : 2 ≤ f.exponent) (hroom : p.magnitude < 2 ^ f.room) :
    p.rounded f < f.infinity ∧ NearestNumber f p.magnitude (f.value (p.rounded f)) := by
  unfold magnitude at hroom ⊢
  unfold rounded
  split
  · rename_i hscale
    rw [hscale, pow_zero, div_one] at hroom ⊢
    exact nearestNumber_natCast hexponent hroom
  · have hratio := nearestNumber_ratio (f := f) (m := p.coefficient) (d := 10 ^ p.scale) hexponent (by positivity)
    push_cast at hratio
    exact hratio hroom

/-- The sign of the text is the sign of the number nearest to what it spells. -/
theorem nearestNumber_number {w : ℚ} (h : NearestNumber f p.magnitude w) :
    NearestNumber f p.number (if p.sign.negative then -w else w) := by
  rw [number_eq]
  split
  · exact h.neg
  · exact h

/-- The integer that a text is read as through the format is the number nearest to what it
spells, when this is one. -/
theorem parseFloat_toInt? (hexponent : 2 ≤ f.exponent) (hroom : p.magnitude < 2 ^ f.room) :
    ∃ w, NearestNumber f p.number w ∧
      ∀ n : ℤ, (parseFloat f p.text).bind f.toInt? = some n ↔ (n : ℚ) = w := by
  obtain ⟨hfinite, hnearest⟩ := p.nearestNumber_rounded f hexponent hroom
  refine ⟨_, p.nearestNumber_number f hnearest, fun n => ?_⟩
  rw [parseFloat_text, Option.bind_some, toInt?_signed hfinite]

end Float

section FixedPoint

theorem isDigit_lastDigits {k n : ℕ} {c : Char} (h : c ∈ lastDigits k n) : c.isDigit := by
  induction k generalizing n with
  | zero => exact absurd h List.not_mem_nil
  | succ k ih =>
    rcases List.mem_append.mp h with hinit | hlast
    · exact ih hinit
    · rw [List.mem_singleton.mp hlast, Nat.isDigit_digitChar, decide_eq_true_eq]
      exact Nat.mod_lt n (by decide)

/-- Fixed-point notation is plain. -/
def ofFixedPoint (negative : Bool) (coefficient scale : ℕ) : PlainDecimal where
  sign := if negative then .minus else .implicit
  whole := decimal (coefficient / 10 ^ scale)
  fraction := if scale = 0 then none else some (lastDigits scale coefficient)
  isDigit c h := by
    rcases List.mem_append.mp h with hwhole | hfraction
    · exact isDigit_of_mem_decimal hwhole
    · split at hfraction
      · exact absurd hfraction List.not_mem_nil
      · exact isDigit_lastDigits hfraction
  nonempty h := Nat.toDigits_ne_nil (List.append_eq_nil_iff.mp h).1

variable (negative : Bool) (c s : ℕ)

theorem text_ofFixedPoint : (ofFixedPoint negative c s).text = fixedPoint negative c s := by
  cases negative <;> by_cases hs : s = 0 <;>
    simp [text, unsignedText, ofFixedPoint, Sign.text, fixedPoint, unsignedFixedPoint, hs]

theorem number_ofFixedPoint :
    (ofFixedPoint negative c s).number = (if negative then -(c : ℤ) else c : ℤ) / 10 ^ s := by
  have hdigits : (if s = 0 then none else some (lastDigits s c)).getD [] = lastDigits s c := by
    by_cases hs : s = 0
    · rw [if_pos hs, hs]
      rfl
    · rw [if_neg hs]
      rfl
  have hcoefficient : (ofFixedPoint negative c s).coefficient = c := by
    simp only [coefficient, ofFixedPoint, hdigits, Nat.ofDigitChars_append, ofDigitChars_decimal,
      ofDigitChars_lastDigits, Nat.div_add_mod]
  have hscale : (ofFixedPoint negative c s).scale = s := by
    simp only [scale, ofFixedPoint, hdigits, length_lastDigits]
  have hsign : (ofFixedPoint negative c s).sign.negative = negative := by cases negative <;> rfl
  rw [number, signed, hcoefficient, hscale, hsign]

end FixedPoint

end PlainDecimal

end SqlxMssql.NumberTexts
