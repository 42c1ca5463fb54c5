import SqlxMssql.Foundations.Utf8
import SqlxMssql.Foundations.BinaryFloats

/-! # Numbers as texts

The readings of integers and floating-point numbers in the standard library, and decimal
numbers in fixed-point notation.
-/
namespace SqlxMssql.NumberTexts
open Utf8 BinaryFloats

/-- The sign that leads a text, and the rest. -/
def splitSign : Text → Bool × Text
  | '-' :: s => (true, s)
  | '+' :: s => (false, s)
  | s => (false, s)

/-- `s.parse()` for a signed integer of the given width. -/
def parseSigned (bits : ℕ) (s : Text) : Option ℤ := do
  let (negative, digits) := splitSign s
  let magnitude ← digitsValue digits
  let value : ℤ := if negative then -magnitude else magnitude
  if -2 ^ (bits - 1) ≤ value ∧ value < 2 ^ (bits - 1) then some value else none

/-- An exponent, which may be left out. -/
def parseExponent : Text → Option ℤ
  | [] => some 0
  | c :: s =>
    if c = 'e' ∨ c = 'E' then
      let (negative, digits) := splitSign s
      (digitsValue digits).map fun n => if negative then -n else n
    else none

/-- Digits with a point and an exponent: their coefficient, and the power of ten it is taken to. -/
def parseNumber (s : Text) : Option (ℕ × ℤ) := do
  let whole := s.takeWhile Char.isDigit
  let after := s.dropWhile Char.isDigit
  let (fraction, after) :=
    match after with
    | '.' :: rest => (rest.takeWhile Char.isDigit, rest.dropWhile Char.isDigit)
    | _ => ([], after)
  let coefficient ← digitsValue (whole ++ fraction)
  return (coefficient, (← parseExponent after) - fraction.length)

/-- `s.parse()` for a floating-point number of the format. -/
def parseFloat (f : BinaryFormat) (s : Text) : Option ℕ :=
  let (negative, rest) := splitSign s
  if eqIgnoreAsciiCase rest "inf".toList ∨ eqIgnoreAsciiCase rest "infinity".toList then
    some (f.signed negative f.infinity)
  else if eqIgnoreAsciiCase rest "nan".toList then some (f.signed negative f.quietNaN)
  else
    (parseNumber rest).map fun (coefficient, exponent) =>
      f.signed negative
        (if 0 ≤ exponent then f.round (coefficient * 10 ^ exponent.toNat) 0
          else f.ratio coefficient (10 ^ (-exponent).toNat))

example : parseSigned 64 "-9223372036854775808".toList = some (-9223372036854775808) := by decide
example : parseFloat binary64 "-2.5e1".toList = some 0xC039000000000000 := by decide
example : parseFloat binary64 ".".toList = none := by decide

section FixedPoint

/-- The last `k` digits of a number. -/
def lastDigits : ℕ → ℕ → Text
  | 0, _ => []
  | k + 1, n => lastDigits k (n / 10) ++ [(n % 10).digitChar]

/-- A coefficient with `scale` digits behind the point. -/
def unsignedFixedPoint (coefficient scale : ℕ) : Text :=
  decimal (coefficient / 10 ^ scale) ++ (if scale = 0 then [] else '.' :: lastDigits scale coefficient)

def fixedPoint (negative : Bool) (coefficient scale : ℕ) : Text :=
  (if negative then ['-'] else []) ++ unsignedFixedPoint coefficient scale

/-- The coefficient of digits with a point, and how many stand behind it. -/
def readUnsigned (s : Text) : ℕ × ℕ :=
  let whole := s.takeWhile Char.isDigit
  let fraction := (s.dropWhile Char.isDigit).tail
  (Nat.ofDigitChars 10 (whole ++ fraction) 0, fraction.length)

def readFixedPoint (s : Text) : ℤ × ℕ :=
  let (negative, digits) := splitSign s
  let (coefficient, scale) := readUnsigned digits
  (if negative then -coefficient else coefficient, scale)

theorem length_lastDigits (k n : ℕ) : (lastDigits k n).length = k := by
  induction k generalizing n with
  | zero => rfl
  | succ k ih => rw [lastDigits, List.length_append, ih, List.length_singleton]

theorem ofDigitChars_lastDigits (k n init : ℕ) :
    Nat.ofDigitChars 10 (lastDigits k n) init = 10 ^ k * init + n % 10 ^ k := by
  induction k generalizing n with
  | zero => simp [lastDigits, Nat.mod_one]
  | succ k ih =>
    rw [lastDigits, Nat.ofDigitChars_append, ih,
      Nat.ofDigitChars_cons_digitChar_of_lt_ten (Nat.mod_lt n (by decide)), Nat.ofDigitChars_nil]
    have hmod : n % 10 ^ (k + 1) = n % 10 + 10 * (n / 10 % 10 ^ k) := by
      rw [pow_succ', Nat.mod_mul]
    rw [hmod]
    ring

theorem readUnsigned_unsignedFixedPoint (coefficient scale : ℕ) :
    readUnsigned (unsignedFixedPoint coefficient scale) = (coefficient, scale) := by
  have hdigits : ∀ c ∈ decimal (coefficient / 10 ^ scale), c.isDigit := fun _ => isDigit_of_mem_decimal
  have hwhole := ofDigitChars_decimal (coefficient / 10 ^ scale)
  unfold readUnsigned unsignedFixedPoint
  rw [List.takeWhile_append_of_pos hdigits, List.dropWhile_append_of_pos hdigits]
  cases scale with
  | zero => simpa using hwhole
  | succ k =>
    have hpoint : '.'.isDigit = false := by decide
    simp only [Nat.succ_ne_zero, if_false, List.takeWhile_cons, List.dropWhile_cons, hpoint, List.append_nil,
      List.tail_cons, length_lastDigits, Nat.ofDigitChars_append, hwhole, ofDigitChars_lastDigits,
      Nat.div_add_mod, Bool.false_eq_true]

theorem splitSign_unsignedFixedPoint (coefficient scale : ℕ) :
    splitSign (unsignedFixedPoint coefficient scale) = (false, unsignedFixedPoint coefficient scale) := by
  cases hwhole : decimal (coefficient / 10 ^ scale) with
  | nil => exact absurd hwhole Nat.toDigits_ne_nil
  | cons c digits =>
    have hdigit : c.isDigit := isDigit_of_mem_decimal (hwhole ▸ List.mem_cons_self)
    rw [unsignedFixedPoint, hwhole, List.cons_append]
    unfold splitSign
    split
    · rename_i heq
      cases heq
      exact absurd hdigit (by decide)
    · rename_i heq
      cases heq
      exact absurd hdigit (by decide)
    · rfl

theorem readFixedPoint_fixedPoint (negative : Bool) (coefficient scale : ℕ) :
    readFixedPoint (fixedPoint negative coefficient scale) =
      (if negative then -(coefficient : ℤ) else coefficient, scale) := by
  have hsign : splitSign (fixedPoint negative coefficient scale) =
      (negative, unsignedFixedPoint coefficient scale) := by
    cases negative with
    | true => rfl
    | false => exact splitSign_unsignedFixedPoint coefficient scale
  unfold readFixedPoint
  rw [hsign]
  dsimp only
  rw [readUnsigned_unsignedFixedPoint]

end FixedPoint

end SqlxMssql.NumberTexts
