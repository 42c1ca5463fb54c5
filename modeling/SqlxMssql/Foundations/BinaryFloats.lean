import Mathlib.Data.Nat.Log
import Mathlib.Tactic.Linarith
import Mathlib.Tactic.Ring

/-! # Binary floating-point numbers

A number of a binary format is its bits: a sign, an exponent field and a fraction. Without
the sign it denotes its significand times a power of two, and a number is rounded to the
nearest one of a format, ties to even.
-/
namespace SqlxMssql.BinaryFloats

/-- The widths of the fraction and of the exponent field. -/
structure BinaryFormat where
  fraction : ℕ
  exponent : ℕ
  deriving DecidableEq, Repr

def binary32 : BinaryFormat := ⟨23, 8⟩
def binary64 : BinaryFormat := ⟨52, 11⟩

namespace BinaryFormat
variable (f : BinaryFormat)

/-- The exponent of the least unit. -/
def least : ℤ := 2 - 2 ^ (f.exponent - 1) - f.fraction

def infinity : ℕ := (2 ^ f.exponent - 1) * 2 ^ f.fraction

def signBit : ℕ := 2 ^ (f.exponent + f.fraction)

/-- The significand of a number without its sign. -/
def significand (bits : ℕ) : ℕ :=
  if bits / 2 ^ f.fraction = 0 then bits else 2 ^ f.fraction + bits % 2 ^ f.fraction

/-- The exponent of the unit of its significand. -/
def unit (bits : ℕ) : ℤ := f.least + (bits / 2 ^ f.fraction - 1 : ℕ)

/-- `m / 2 ^ k`, rounded to the nearest number and to the even one of two. -/
def nearest (m k : ℕ) : ℕ :=
  let q := m / 2 ^ k
  let r := m % 2 ^ k
  if 2 ^ k < 2 * r ∨ 2 * r = 2 ^ k ∧ q % 2 = 1 then q + 1 else q

/-- The number nearest to `m * 2 ^ e`. A significand that is rounded up to the next power of
two carries into the exponent field. -/
def round (m : ℕ) (e : ℤ) : ℕ :=
  if m = 0 then 0
  else
    let u := max (m.log2 + e - f.fraction) f.least
    let s := if e < u then nearest m (u - e).toNat else m * 2 ^ (e - u).toNat
    min ((u - f.least).toNat * 2 ^ f.fraction + s) f.infinity

def quietNaN : ℕ := f.infinity + 2 ^ (f.fraction - 1)

/-- The bits of a number in another format. -/
def convert (f g : BinaryFormat) (bits : ℕ) : ℕ :=
  let rest := bits % f.signBit
  if f.infinity < rest then g.quietNaN
  else (if f.signBit ≤ bits then g.signBit else 0) +
    (if rest = f.infinity then g.infinity else g.round (f.significand rest) (f.unit rest))

def signed (negative : Bool) (rest : ℕ) : ℕ := (if negative then f.signBit else 0) + rest

/-- The number nearest to an integer. -/
def ofInt (n : ℤ) : ℕ := f.signed (n < 0) (f.round n.natAbs 0)

/-- The number nearest to `m / d`. A remainder counts as a bit below all that are kept. -/
def ratio (m d : ℕ) : ℕ :=
  let k := f.fraction + 3 + d.log2
  f.round (2 * (m * 2 ^ k / d) + (if m * 2 ^ k % d = 0 then 0 else 1)) (-(k + 1))

/-- The integer that a number is, which has no fraction. -/
def toInt? (bits : ℕ) : Option ℤ :=
  let rest := bits % f.signBit
  let sign : ℤ := if f.signBit ≤ bits then -1 else 1
  if f.infinity ≤ rest then none
  else if 0 ≤ f.unit rest then some (sign * (f.significand rest * 2 ^ (f.unit rest).toNat : ℕ))
  else if f.significand rest % 2 ^ (-f.unit rest).toNat = 0 then
    some (sign * (f.significand rest / 2 ^ (-f.unit rest).toNat : ℕ))
  else none

def isZero (bits : ℕ) : Bool := bits % f.signBit = 0

end BinaryFormat

example : binary64.ratio 1 10 = 0x3FB999999999999A := by decide
example : binary64.toInt? (binary64.ofInt (-12)) = some (-12) := by decide
example : binary32.convert binary64 0x3FC00000 = 0x3FF8000000000000 := by decide
example : binary64.convert binary32 0x3FF8000000000001 = 0x3FC00000 := by decide
example : binary32.convert binary64 0x80000001 = 0xB6A0000000000000 := by decide

section Exact
variable {f : BinaryFormat}

/-- The significand, its unit and the bits of a number below infinity. -/
theorem bits_eq (f : BinaryFormat) (bits : ℕ) :
    (f.unit bits - f.least).toNat * 2 ^ f.fraction + f.significand bits = bits := by
  have hunit : (f.unit bits - f.least).toNat = bits / 2 ^ f.fraction - 1 := by
    unfold BinaryFormat.unit
    omega
  rw [hunit, BinaryFormat.significand]
  have hdiv := Nat.div_add_mod' bits (2 ^ f.fraction)
  generalize bits / 2 ^ f.fraction = field at *
  cases field with
  | zero => simp
  | succ field =>
    rw [if_neg (Nat.succ_ne_zero field), Nat.add_sub_cancel]
    rw [Nat.succ_mul] at hdiv
    omega

theorem least_le_unit (f : BinaryFormat) (bits : ℕ) : f.least ≤ f.unit bits := by
  unfold BinaryFormat.unit
  omega

theorem significand_lt (f : BinaryFormat) (bits : ℕ) : f.significand bits < 2 ^ (f.fraction + 1) := by
  have hpos : 0 < 2 ^ f.fraction := by positivity
  have hmod := Nat.mod_lt bits hpos
  unfold BinaryFormat.significand
  rw [pow_succ]
  split
  · rename_i hzero
    have := (Nat.div_eq_zero_iff_lt hpos).mp hzero
    omega
  · omega

/-- Above the least unit the significand takes all its bits. -/
theorem le_significand (f : BinaryFormat) {bits : ℕ} (h : f.least < f.unit bits) :
    2 ^ f.fraction ≤ f.significand bits := by
  have hfield : bits / 2 ^ f.fraction ≠ 0 := by
    intro hzero
    simp [BinaryFormat.unit, hzero] at h
  rw [BinaryFormat.significand, if_neg hfield]
  exact Nat.le_add_right _ _

/-- What is put together from a unit and a significand is taken apart again. -/
theorem parts_of_bits {s k : ℕ} (hs : 2 ^ f.fraction ≤ s) (hlt : s < 2 ^ (f.fraction + 1)) :
    f.significand (k * 2 ^ f.fraction + s) = s ∧ f.unit (k * 2 ^ f.fraction + s) = f.least + k := by
  have hpos : 0 < 2 ^ f.fraction := by positivity
  obtain ⟨r, rfl⟩ := Nat.exists_eq_add_of_le hs
  rw [pow_succ] at hlt
  have hr : r < 2 ^ f.fraction := by omega
  have hbits : k * 2 ^ f.fraction + (2 ^ f.fraction + r) = r + (k + 1) * 2 ^ f.fraction := by ring
  have hdiv : (k * 2 ^ f.fraction + (2 ^ f.fraction + r)) / 2 ^ f.fraction = k + 1 := by
    rw [hbits, Nat.add_mul_div_right _ _ hpos, Nat.div_eq_of_lt hr, Nat.zero_add]
  have hmod : (k * 2 ^ f.fraction + (2 ^ f.fraction + r)) % 2 ^ f.fraction = r := by
    rw [hbits, Nat.add_mul_mod_self_right, Nat.mod_eq_of_lt hr]
  constructor
  · rw [BinaryFormat.significand, hdiv, if_neg (Nat.succ_ne_zero k), hmod]
  · rw [BinaryFormat.unit, hdiv, Nat.add_sub_cancel]

theorem nearest_exact (m k : ℕ) : BinaryFormat.nearest (m * 2 ^ k) k = m := by
  have hpos : 0 < 2 ^ k := by positivity
  have hcut : ¬ (2 ^ k < 2 * 0 ∨ 2 * 0 = 2 ^ k ∧ m % 2 = 1) := by omega
  simp only [BinaryFormat.nearest, Nat.mul_mod_left, Nat.mul_div_cancel m hpos, if_neg hcut]

/-- A number whose unit lies `k` above the least one is held exactly, with all the bits of
the significand. -/
theorem round_exact {m k : ℕ} {e : ℤ} (hpos : m ≠ 0) (hlog : m.log2 ≤ f.fraction)
    (hk : m.log2 + e - f.fraction = f.least + k) (hroom : k + 3 ≤ 2 ^ f.exponent) :
    f.round m e < f.infinity ∧ f.significand (f.round m e) = m * 2 ^ (f.fraction - m.log2) ∧
      f.unit (f.round m e) = f.least + k := by
  have hlow := Nat.log2_self_le hpos
  have hhigh := Nat.lt_log2_self (n := m)
  obtain ⟨shift, hshift⟩ := Nat.exists_eq_add_of_le hlog
  have hs : 2 ^ f.fraction ≤ m * 2 ^ shift := by
    rw [hshift, pow_add]
    exact Nat.mul_le_mul_right _ hlow
  have hs' : m * 2 ^ shift < 2 ^ (f.fraction + 1) := by
    rw [hshift, add_right_comm, pow_add]
    exact Nat.mul_lt_mul_of_pos_right hhigh (by positivity)
  have hfits : k * 2 ^ f.fraction + m * 2 ^ shift < f.infinity := by
    have hle : (k + 2) * 2 ^ f.fraction ≤ f.infinity := Nat.mul_le_mul_right _ (by omega)
    rw [pow_succ] at hs'
    linarith
  have hmax : max (m.log2 + e - f.fraction) f.least = f.least + k := by omega
  have hgrow : (e - (f.least + k)).toNat = shift := by omega
  have hround : f.round m e = k * 2 ^ f.fraction + m * 2 ^ shift := by
    simp only [BinaryFormat.round, if_neg hpos, hmax, hgrow]
    rw [if_neg (by omega), add_sub_cancel_left, Int.toNat_natCast, min_eq_left hfits.le]
  have hsub : f.fraction - m.log2 = shift := by omega
  rw [hround, hsub]
  exact ⟨hfits, parts_of_bits hs hs'⟩

end Exact

theorem infinity_lt_signBit (f : BinaryFormat) : f.infinity < f.signBit := by
  have hpos : 0 < 2 ^ f.fraction := by positivity
  rw [BinaryFormat.infinity, BinaryFormat.signBit, pow_add]
  exact Nat.mul_lt_mul_of_pos_right (Nat.sub_lt (by positivity) one_pos) hpos

/-- Behind a sign a number keeps its bits. -/
theorem signed_parts (f : BinaryFormat) (negative : Prop) [Decidable negative] {rest : ℕ} (h : rest < f.signBit) :
    ((if negative then f.signBit else 0) + rest) % f.signBit = rest ∧
      (f.signBit ≤ (if negative then f.signBit else 0) + rest ↔ negative) := by
  by_cases hnegative : negative
  · rw [if_pos hnegative, Nat.add_mod_left, Nat.mod_eq_of_lt h]
    exact ⟨rfl, iff_of_true (Nat.le_add_right _ _) hnegative⟩
  · rw [if_neg hnegative, Nat.zero_add, Nat.mod_eq_of_lt h]
    exact ⟨rfl, iff_of_false (by omega) hnegative⟩

theorem round_le_infinity (f : BinaryFormat) (m : ℕ) (e : ℤ) : f.round m e ≤ f.infinity := by
  unfold BinaryFormat.round
  split
  · exact Nat.zero_le _
  · exact min_le_right _ _

theorem convert_lt (f g : BinaryFormat) (bits : ℕ) : f.convert g bits < 2 * g.signBit := by
  have hinfinity := infinity_lt_signBit g
  have hround := round_le_infinity g (f.significand (bits % f.signBit)) (f.unit (bits % f.signBit))
  have hquiet : 2 ^ (g.fraction - 1) ≤ g.signBit := Nat.pow_le_pow_right two_pos (by omega)
  unfold BinaryFormat.convert BinaryFormat.quietNaN
  dsimp only
  split
  · omega
  · split <;> split <;> omega

theorem sign_add_rest (f : BinaryFormat) {bits : ℕ} (h : bits < 2 * f.signBit) :
    (if f.signBit ≤ bits then f.signBit else 0) + bits % f.signBit = bits := by
  by_cases hnegative : f.signBit ≤ bits
  · rw [if_pos hnegative, Nat.mod_eq_sub_mod hnegative, Nat.mod_eq_of_lt (by omega)]
    omega
  · rw [if_neg hnegative, Nat.zero_add, Nat.mod_eq_of_lt (by omega)]

/-- Every finite number of the first format is one of the second, with room to spare. -/
structure Widens (f g : BinaryFormat) : Prop where
  fraction : f.fraction ≤ g.fraction
  least : g.least + g.fraction ≤ f.least
  greatest : f.fraction + f.least + (2 ^ f.exponent : ℕ) + 1 ≤ g.fraction + g.least + (2 ^ g.exponent : ℕ)

theorem binary32_widens : Widens binary32 binary64 where
  fraction := by decide
  least := by decide
  greatest := by decide

section Widen
variable {f g : BinaryFormat} (h : Widens f g)
include h

/-- A wider format holds a number exactly. -/
theorem round_wide {bits : ℕ} (hpos : f.significand bits ≠ 0) (hlt : bits < f.infinity) :
    let shift := g.fraction - (f.significand bits).log2
    let wide := g.round (f.significand bits) (f.unit bits)
    wide < g.infinity ∧ g.significand wide = f.significand bits * 2 ^ shift ∧ g.unit wide = f.unit bits - shift := by
  intro shift wide
  have hlog : (f.significand bits).log2 < f.fraction + 1 := (Nat.log2_lt hpos).mpr (significand_lt f bits)
  have hleast := least_le_unit f bits
  have hfield : bits / 2 ^ f.fraction < 2 ^ f.exponent - 1 := Nat.div_lt_of_lt_mul (by rwa [mul_comm])
  have hunit : f.unit bits + 2 ≤ f.least + (2 ^ f.exponent : ℕ) := by
    unfold BinaryFormat.unit
    generalize bits / 2 ^ f.fraction = field at hfield ⊢
    omega
  obtain ⟨hfraction, hbelow, habove⟩ := h
  obtain ⟨k, hk⟩ : ∃ k : ℕ, (f.significand bits).log2 + f.unit bits - g.fraction = g.least + k :=
    ⟨((f.significand bits).log2 + f.unit bits - g.fraction - g.least).toNat, by omega⟩
  obtain ⟨hwide, hsignificand, hunit'⟩ := round_exact hpos (by omega) hk (by omega)
  refine ⟨hwide, hsignificand, hunit'.trans ?_⟩
  omega

theorem infinity_pos : 0 < g.infinity := by
  have hpos : 0 < 2 ^ f.exponent := by positivity
  obtain ⟨-, hbelow, habove⟩ := h
  exact Nat.mul_pos (by omega) (by positivity)

/-- Narrowing what has been widened. -/
theorem round_round {bits : ℕ} (hlt : bits < f.infinity) :
    let wide := g.round (f.significand bits) (f.unit bits)
    wide < g.infinity ∧ f.round (g.significand wide) (g.unit wide) = bits := by
  intro wide
  by_cases hzero : f.significand bits = 0
  · have hwide : wide = 0 := by simp only [wide, BinaryFormat.round, hzero, if_true]
    have hbits : bits = 0 := by
      unfold BinaryFormat.significand at hzero
      split at hzero
      · exact hzero
      · have hpos : 0 < 2 ^ f.fraction := by positivity
        omega
    rw [hwide, hbits]
    exact ⟨infinity_pos h, by simp [BinaryFormat.significand, BinaryFormat.round]⟩
  · obtain ⟨hwide, hsignificand, hunit⟩ := round_wide h hzero hlt
    refine ⟨hwide, ?_⟩
    rw [hsignificand, hunit]
    have hbits := bits_eq f bits
    have hlog : (f.significand bits).log2 < f.fraction + 1 := (Nat.log2_lt hzero).mpr (significand_lt f bits)
    have hleast := least_le_unit f bits
    have hfull : f.least < f.unit bits → f.fraction ≤ (f.significand bits).log2 := fun habove =>
      (Nat.le_log2 hzero).mpr (le_significand f habove)
    have hfraction := h.fraction
    generalize f.significand bits = m at *
    generalize f.unit bits = e at *
    obtain ⟨shift, hshift⟩ : ∃ shift, m.log2 + shift = g.fraction := ⟨g.fraction - m.log2, by omega⟩
    have hsub : g.fraction - m.log2 = shift := by omega
    have hproduct : m * 2 ^ shift ≠ 0 := Nat.mul_ne_zero hzero (by positivity)
    have hlogProduct : (m * 2 ^ shift).log2 = m.log2 + shift := by
      rw [Nat.log2_eq_iff hproduct, add_right_comm, pow_add, pow_add]
      exact ⟨Nat.mul_le_mul_right _ (Nat.log2_self_le hzero),
        Nat.mul_lt_mul_of_pos_right Nat.lt_log2_self (by positivity)⟩
    have hmax : max ((m.log2 + shift : ℕ) + (e - shift) - f.fraction) f.least = e := by omega
    have hback : (e - (e - shift)).toNat = shift := by omega
    have hs : (if e - shift < e then BinaryFormat.nearest (m * 2 ^ shift) shift
        else m * 2 ^ shift * 2 ^ (e - shift - e).toNat) = m := by
      by_cases hlossy : e - shift < e
      · rw [if_pos hlossy, nearest_exact]
      · obtain rfl : shift = 0 := by omega
        simp
    rw [hsub]
    simp only [BinaryFormat.round, if_neg hproduct, hlogProduct, hmax, hback, hs]
    rw [hbits, min_eq_left hlt.le]

/-- A number survives its way through a wider format. -/
theorem convert_convert {bits : ℕ} (hbits : bits < 2 * f.signBit) (hnumber : bits % f.signBit ≤ f.infinity) :
    g.convert f (f.convert g bits) = bits := by
  have hinfinity := infinity_lt_signBit g
  rw [BinaryFormat.convert, BinaryFormat.convert, if_neg (Nat.not_lt.mpr hnumber)]
  by_cases hinf : bits % f.signBit = f.infinity
  · obtain ⟨hrest, hsign⟩ := signed_parts g (f.signBit ≤ bits) hinfinity
    simp only [if_pos hinf, hrest, hsign, lt_irrefl, if_false, if_true]
    rw [← hinf, sign_add_rest f hbits]
  · obtain ⟨hwide, hback⟩ := round_round h (lt_of_le_of_ne hnumber hinf)
    obtain ⟨hrest, hsign⟩ := signed_parts g (f.signBit ≤ bits) (hwide.trans hinfinity)
    simp only [if_neg hinf, hrest, hsign]
    rw [if_neg (Nat.not_lt.mpr hwide.le), if_neg hwide.ne, hback, sign_add_rest f hbits]

end Widen

end SqlxMssql.BinaryFloats
