import SqlxMssql.Foundations.BinaryFloats
import Mathlib.Algebra.Order.Field.Power
import Mathlib.Algebra.Order.Field.Rat
import Mathlib.Tactic.FieldSimp
import Mathlib.Tactic.Positivity

/-! # Rounding to the nearest number

What a number of a binary format denotes, and that rounding finds the nearest of them. Of
two integers at the same distance the even one is taken, so that a number that is rounded to
a fraction is closer to it than to every integer.
-/
namespace SqlxMssql.BinaryFloats

section Nearest

/-- An integer nearest to `y`, and the even one of two. -/
structure NearestEven (y : ℚ) (n : ℤ) : Prop where
  near : 2 * |y - n| ≤ 1
  even : 2 * |y - n| = 1 → 2 ∣ n

variable {y : ℚ} {n : ℤ}

theorem one_le_abs_sub {k : ℤ} (h : k ≠ n) : (1 : ℚ) ≤ |y - n| + |y - k| := by
  have hint : (1 : ℤ) ≤ |k - n| := Int.one_le_abs (sub_ne_zero.mpr h)
  have hcast : (1 : ℚ) ≤ |(k : ℚ) - n| := by exact_mod_cast hint
  have htriangle := abs_sub_le (k : ℚ) y n
  rw [abs_sub_comm (k : ℚ) y] at htriangle
  linarith

theorem NearestEven.le (h : NearestEven y n) (k : ℤ) : |y - n| ≤ |y - k| := by
  by_cases hk : k = n
  · rw [hk]
  · have hone := one_le_abs_sub (y := y) hk
    have hnear := h.near
    linarith

theorem NearestEven.le_of_le (h : NearestEven y n) {k : ℤ} (hk : y ≤ k) : n ≤ k := by
  by_contra hlt
  have hstep : (k : ℚ) + 1 ≤ n := by exact_mod_cast (show k + 1 ≤ n by omega)
  have hnear := h.near
  rw [abs_of_nonpos (by linarith)] at hnear
  linarith

theorem NearestEven.le_of_ge (h : NearestEven y n) {k : ℤ} (hk : k ≤ y) : k ≤ n := by
  by_contra hlt
  have hstep : (n : ℚ) + 1 ≤ k := by exact_mod_cast (show n + 1 ≤ k by omega)
  have hnear := h.near
  rw [abs_of_nonneg (by linarith)] at hnear
  linarith

/-- No other even integer is as near. -/
theorem NearestEven.lt (h : NearestEven y n) {k : ℤ} (hk : 2 ∣ k) (hne : k ≠ n) : |y - n| < |y - k| := by
  refine lt_of_le_of_ne (h.le k) fun heq => ?_
  have hone := one_le_abs_sub (y := y) hne
  have hnear := h.near
  have heven := h.even (by linarith)
  have hapart : 2 ≤ |k - n| :=
    Int.le_of_dvd (abs_pos.mpr (sub_ne_zero.mpr hne)) ((dvd_abs 2 _).mpr (dvd_sub hk heven))
  have hcast : (2 : ℚ) ≤ |(k : ℚ) - n| := by exact_mod_cast hapart
  have htriangle := abs_sub_le (k : ℚ) y n
  rw [abs_sub_comm (k : ℚ) y] at htriangle
  linarith

theorem nearestEven_div {p z : ℚ} (hp : 0 < p) (hlow : -p ≤ 2 * (z - n * p)) (hhigh : 2 * (z - n * p) ≤ p)
    (heven : 2 * (z - n * p) = p ∨ 2 * (z - n * p) = -p → 2 ∣ n) : NearestEven (z / p) n := by
  have hscale : |z / p - n| = |z - n * p| / p := by
    rw [← abs_of_pos hp, ← abs_div, abs_of_pos hp]
    congr 1
    field_simp
  have habs : 2 * |z - n * p| = |2 * (z - n * p)| := by rw [abs_mul, abs_two]
  constructor
  · rw [hscale, ← mul_div_assoc, div_le_one hp, habs]
    exact abs_le.mpr ⟨hlow, hhigh⟩
  · rw [hscale, ← mul_div_assoc, div_eq_one_iff_eq hp.ne', habs]
    exact fun h => heven ((abs_eq hp.le).mp h)

/-- An odd number that stands for all between the two even ones beside it. -/
structure Sticky (m : ℕ) (z : ℚ) : Prop where
  odd : m % 2 = 1
  below : (m : ℚ) - 1 < z
  above : z < m + 1

/-- The quotient and the remainder, and which way they are rounded. -/
theorem nearest_cases (m k : ℕ) : ∃ q r, m = q * 2 ^ k + r ∧ r < 2 ^ k ∧
    ((2 ^ k < 2 * r ∨ 2 * r = 2 ^ k ∧ q % 2 = 1) ∧ BinaryFormat.nearest m k = q + 1 ∨
      (2 * r < 2 ^ k ∨ 2 * r = 2 ^ k ∧ q % 2 = 0) ∧ BinaryFormat.nearest m k = q) := by
  refine ⟨m / 2 ^ k, m % 2 ^ k, (Nat.div_add_mod' m _).symm, Nat.mod_lt m (by positivity), ?_⟩
  by_cases hup : 2 ^ k < 2 * (m % 2 ^ k) ∨ 2 * (m % 2 ^ k) = 2 ^ k ∧ m / 2 ^ k % 2 = 1
  · exact .inl ⟨hup, if_pos hup⟩
  · exact .inr ⟨by omega, if_neg hup⟩

section Cut
variable {m k : ℕ} {z : ℚ}

theorem nearestEven_exact (m k : ℕ) : NearestEven ((m : ℚ) / 2 ^ k) (BinaryFormat.nearest m k : ℕ) := by
  obtain ⟨q, r, hm, hlt, hcases⟩ := nearest_cases m k
  obtain ⟨p, hp⟩ : ∃ p, 2 ^ k = p := ⟨_, rfl⟩
  have hp' : (2 : ℚ) ^ k = p := by exact_mod_cast hp
  have hpos : (0 : ℚ) < p := hp' ▸ by positivity
  rw [hp] at hm hlt hcases
  have hm' : (m : ℚ) = q * p + r := by exact_mod_cast hm
  have hlt' : (r : ℚ) < p := by exact_mod_cast hlt
  rw [hp']
  rcases hcases with ⟨hup, hnearest⟩ | ⟨hdown, hnearest⟩
  · have hdist : 2 * ((m : ℚ) - ((q + 1 : ℕ) : ℤ) * p) = 2 * r - 2 * p := by
      rw [hm']
      push_cast
      ring
    have hhalf : (p : ℚ) ≤ 2 * r := by exact_mod_cast (show p ≤ 2 * r by omega)
    rw [hnearest]
    refine nearestEven_div hpos (by linarith) (by linarith) fun htie => ?_
    have htie' : (2 * r : ℚ) = p := by rcases htie with h | h <;> linarith
    have : 2 * r = p := by exact_mod_cast htie'
    omega
  · have hdist : 2 * ((m : ℚ) - ((q : ℕ) : ℤ) * p) = 2 * r := by
      rw [hm']
      push_cast
      ring
    have hhalf : (2 * r : ℚ) ≤ p := by exact_mod_cast (show 2 * r ≤ p by omega)
    have hr : (0 : ℚ) ≤ r := Nat.cast_nonneg r
    rw [hnearest]
    refine nearestEven_div hpos (by linarith) (by linarith) fun htie => ?_
    have htie' : (2 * r : ℚ) = p := by rcases htie with h | h <;> linarith
    have : 2 * r = p := by exact_mod_cast htie'
    omega

/-- A number that stands for others is rounded as they are, when two bits or more are cut off:
none of them is halfway between two multiples. -/
theorem nearestEven_sticky (hk : 2 ≤ k) (hz : Sticky m z) :
    NearestEven (z / 2 ^ k) (BinaryFormat.nearest m k : ℕ) := by
  obtain ⟨hodd, hbelow, habove⟩ := hz
  obtain ⟨q, r, hm, hlt, hcases⟩ := nearest_cases m k
  obtain ⟨j, hj⟩ : 4 ∣ 2 ^ k := pow_dvd_pow 2 hk
  have hp : (2 : ℚ) ^ k = 4 * j := by exact_mod_cast hj
  have hpos : (0 : ℚ) < 4 * j := hp ▸ by positivity
  rw [hj] at hm hlt hcases
  have hr : r % 2 = 1 := by
    have heven : q * (4 * j) = 2 * (q * (2 * j)) := by ring
    omega
  have hm' : (m : ℚ) = q * (4 * j) + r := by exact_mod_cast hm
  rw [hp]
  rcases hcases with ⟨hup, hnearest⟩ | ⟨hdown, hnearest⟩
  · have hdist : 2 * (z - ((q + 1 : ℕ) : ℤ) * (4 * j)) = 2 * (z - m) + 2 * r - 2 * (4 * j) := by
      rw [hm']
      push_cast
      ring
    have hhalf : (4 * j : ℚ) + 2 ≤ 2 * r := by exact_mod_cast (show 4 * j + 2 ≤ 2 * r by omega)
    have hlt' : (r : ℚ) + 1 ≤ 4 * j := by exact_mod_cast hlt
    rw [hnearest]
    refine nearestEven_div hpos (by linarith) (by linarith) fun htie => ?_
    rcases htie with h | h <;> linarith
  · have hdist : 2 * (z - ((q : ℕ) : ℤ) * (4 * j)) = 2 * (z - m) + 2 * r := by
      rw [hm']
      push_cast
      ring
    have hhalf : (2 * r : ℚ) + 2 ≤ 4 * j := by exact_mod_cast (show 2 * r + 2 ≤ 4 * j by omega)
    have hone : (1 : ℚ) ≤ r := by exact_mod_cast (show 1 ≤ r by omega)
    rw [hnearest]
    refine nearestEven_div hpos (by linarith) (by linarith) fun htie => ?_
    rcases htie with h | h <;> linarith

end Cut

end Nearest

section Value
variable (f : BinaryFormat)

/-- The number that bits without a sign denote. -/
def BinaryFormat.value (bits : ℕ) : ℚ := f.significand bits * 2 ^ f.unit bits

/-- A number of the format, with either sign. -/
def BinaryFormat.IsNumber (x : ℚ) : Prop := ∃ bits < f.infinity, |x| = f.value bits

theorem value_nonneg (bits : ℕ) : 0 ≤ f.value bits := by
  unfold BinaryFormat.value
  positivity

variable {f}

/-- A multiple of a unit, up to the one that carries into the exponent field. -/
theorem value_parts {k n : ℕ} (hn : n ≤ 2 ^ (f.fraction + 1)) (hfull : k = 0 ∨ 2 ^ f.fraction ≤ n) :
    f.value (k * 2 ^ f.fraction + n) = n * 2 ^ (f.least + k) := by
  have hpos : 0 < 2 ^ f.fraction := by positivity
  rcases Nat.lt_or_ge n (2 ^ f.fraction) with hsmall | hlarge
  · obtain rfl : k = 0 := hfull.resolve_right (Nat.not_le.mpr hsmall)
    have hfield : n / 2 ^ f.fraction = 0 := Nat.div_eq_of_lt hsmall
    simp [BinaryFormat.value, BinaryFormat.significand, BinaryFormat.unit, hfield]
  · rcases Nat.lt_or_eq_of_le hn with hlt | rfl
    · obtain ⟨hsignificand, hunit⟩ := parts_of_bits (k := k) hlarge hlt
      rw [BinaryFormat.value, hsignificand, hunit]
    · have hcarry : k * 2 ^ f.fraction + 2 ^ (f.fraction + 1) = (k + 1) * 2 ^ f.fraction + 2 ^ f.fraction := by ring
      obtain ⟨hsignificand, hunit⟩ :=
        parts_of_bits (f := f) (k := k + 1) le_rfl (Nat.pow_lt_pow_right one_lt_two (Nat.lt_succ_self _))
      rw [BinaryFormat.value, hcarry, hsignificand, hunit]
      push_cast
      rw [← add_assoc, zpow_add_one₀ two_ne_zero, pow_succ]
      ring

end Value

section Round
variable {f : BinaryFormat}

/-- Below two to this power a number is rounded to a finite one. -/
def BinaryFormat.room (f : BinaryFormat) : ℤ := f.fraction + f.least + 2 ^ f.exponent - 3

theorem pow_log2_le {m : ℕ} {z : ℚ} (hm : m ≠ 0) (hz : z = m ∨ 1 ≤ m.log2 ∧ Sticky m z) :
    (2 : ℚ) ^ m.log2 ≤ z ∧ z < 2 ^ (m.log2 + 1) := by
  have hlow := Nat.log2_self_le hm
  have hhigh := Nat.lt_log2_self (n := m)
  rcases hz with rfl | ⟨hlog, hodd, hbelow, habove⟩
  · exact ⟨by exact_mod_cast hlow, by exact_mod_cast hhigh⟩
  · obtain ⟨j, hj⟩ : 2 ∣ 2 ^ m.log2 := dvd_pow_self 2 (by omega)
    have hlow' : ((2 : ℚ) ^ m.log2) + 1 ≤ m := by exact_mod_cast (show 2 ^ m.log2 + 1 ≤ m by omega)
    have hhigh' : (m : ℚ) + 1 ≤ 2 ^ (m.log2 + 1) := by exact_mod_cast hhigh
    exact ⟨by linarith, by linarith⟩

/-- What rounding a number comes to: a unit, and the nearest multiple of it. -/
structure Rounded (f : BinaryFormat) (y : ℚ) (bits k n : ℕ) : Prop where
  bits_eq : bits = k * 2 ^ f.fraction + n
  finite : bits < f.infinity
  nearest : NearestEven (y / 2 ^ (f.least + k)) n
  le : n ≤ 2 ^ (f.fraction + 1)
  full : k = 0 ∨ 2 ^ f.fraction ≤ n
  above : k = 0 ∨ 2 ^ f.fraction * 2 ^ (f.least + k) ≤ y

/-- An integer is the nearest one to itself. -/
theorem nearestEven_self (n : ℤ) : NearestEven (n : ℚ) n where
  near := by simp
  even h := by simp at h

theorem nearestEven_shift {m : ℕ} {e u : ℤ} {z : ℚ} (hz : z = m ∨ e + 2 ≤ u ∧ Sticky m z) :
    NearestEven (z * 2 ^ e / 2 ^ u)
      (if e < u then BinaryFormat.nearest m (u - e).toNat else m * 2 ^ (e - u).toNat : ℕ) := by
  split
  · rename_i hlossy
    obtain ⟨k, hk⟩ : ∃ k : ℕ, u = e + k := ⟨(u - e).toNat, by omega⟩
    have hscale : z * 2 ^ e / 2 ^ u = z / 2 ^ k := by
      rw [hk, zpow_add₀ two_ne_zero, zpow_natCast, mul_comm z, mul_div_mul_left _ _ (by positivity)]
    rw [hscale, show (u - e).toNat = k by omega]
    rcases hz with rfl | ⟨hcut, hsticky⟩
    · exact nearestEven_exact m k
    · exact nearestEven_sticky (by omega) hsticky
  · rename_i hexact
    obtain rfl : z = m := hz.resolve_right fun h => by omega
    obtain ⟨k, hk⟩ : ∃ k : ℕ, e = u + k := ⟨(e - u).toNat, by omega⟩
    have hscale : (m : ℚ) * 2 ^ e / 2 ^ u = ((m * 2 ^ k : ℕ) : ℤ) := by
      rw [hk, zpow_add₀ two_ne_zero, zpow_natCast]
      push_cast
      field_simp
    rw [hscale, show (e - u).toNat = k by omega]
    exact nearestEven_self _

section Unit
variable {L k n : ℕ} {e u : ℤ} {z : ℚ} (hu : max (L + e - f.fraction) f.least = u)
include hu

/-- Unless the unit is the least one, a number takes all the bits of the significand. -/
theorem le_of_unit (hlow : 2 ^ L ≤ z) : u = f.least ∨ (2 : ℚ) ^ f.fraction * 2 ^ u ≤ z * 2 ^ e := by
  rw [or_iff_not_imp_left]
  intro hne
  have hpower : (2 : ℚ) ^ f.fraction * 2 ^ u = 2 ^ L * 2 ^ e := by
    rw [← zpow_natCast, ← zpow_natCast, ← zpow_add₀ two_ne_zero, ← zpow_add₀ two_ne_zero]
    congr 1
    omega
  rw [hpower]
  exact mul_le_mul_of_nonneg_right hlow (by positivity)

theorem lt_of_unit (hhigh : z < 2 ^ (L + 1)) : z * 2 ^ e < 2 ^ (f.fraction + 1) * 2 ^ u := by
  refine (mul_lt_mul_of_pos_right hhigh (by positivity)).trans_le ?_
  rw [← zpow_natCast, ← zpow_natCast, ← zpow_add₀ two_ne_zero, ← zpow_add₀ two_ne_zero]
  exact zpow_le_zpow_right₀ one_le_two (by push_cast; omega)

/-- The exponent field has room for the unit, and for a carry. -/
theorem field_lt (hexponent : 2 ≤ f.exponent) (hlow : 2 ^ L ≤ z) (hroom : z * 2 ^ e < 2 ^ f.room)
    (hk : u = f.least + k) : k + 2 < 2 ^ f.exponent - 1 := by
  have hlog : (L : ℤ) + e < f.room := by
    have hlt : (2 : ℚ) ^ ((L : ℤ) + e) < 2 ^ f.room := by
      rw [zpow_add₀ two_ne_zero, zpow_natCast]
      exact (mul_le_mul_of_nonneg_right hlow (by positivity)).trans_lt hroom
    exact (zpow_lt_zpow_iff_right₀ one_lt_two).mp hlt
  have hfour : 2 ^ 2 ≤ 2 ^ f.exponent := Nat.pow_le_pow_right two_pos hexponent
  have hcast : ((2 ^ f.exponent : ℕ) : ℤ) = 2 ^ f.exponent := by push_cast; rfl
  rw [BinaryFormat.room, ← hcast] at hlog
  omega

end Unit

theorem finite_of_field_lt {k n : ℕ} (hk : k + 2 < 2 ^ f.exponent - 1) (hn : n ≤ 2 ^ (f.fraction + 1)) :
    k * 2 ^ f.fraction + n < f.infinity :=
  calc k * 2 ^ f.fraction + n
      ≤ k * 2 ^ f.fraction + 2 ^ (f.fraction + 1) := Nat.add_le_add_left hn _
    _ = (k + 2) * 2 ^ f.fraction := by ring
    _ < f.infinity := Nat.mul_lt_mul_of_pos_right hk (by positivity)

theorem rounded_round {m : ℕ} {e : ℤ} {z : ℚ} (hexponent : 2 ≤ f.exponent) (hm : m ≠ 0)
    (hz : z = m ∨ f.fraction + 2 ≤ m.log2 ∧ Sticky m z) (hroom : z * 2 ^ e < 2 ^ f.room) :
    ∃ k n, Rounded f (z * 2 ^ e) (f.round m e) k n := by
  obtain ⟨hlow, hhigh⟩ := pow_log2_le hm (hz.imp id fun h => ⟨by omega, h.2⟩)
  obtain ⟨u, hu⟩ : ∃ u, max (m.log2 + e - f.fraction) f.least = u := ⟨_, rfl⟩
  obtain ⟨k, hk⟩ : ∃ k : ℕ, u = f.least + k := ⟨(u - f.least).toNat, by omega⟩
  obtain ⟨n, hn⟩ : ∃ n, (if e < u then BinaryFormat.nearest m (u - e).toNat else m * 2 ^ (e - u).toNat) = n :=
    ⟨_, rfl⟩
  have hnearest := nearestEven_shift (m := m) (e := e) (u := u) (hz.imp id fun h => ⟨by omega, h.2⟩)
  rw [hn] at hnearest
  have hle : n ≤ 2 ^ (f.fraction + 1) := by
    have hbelow := lt_of_unit hu hhigh
    have h := hnearest.le_of_le (k := (2 ^ (f.fraction + 1) : ℕ)) ?_
    · exact_mod_cast h
    · rw [div_le_iff₀ (by positivity)]
      exact_mod_cast hbelow.le
  have habove : k = 0 ∨ (2 : ℚ) ^ f.fraction * 2 ^ u ≤ z * 2 ^ e :=
    (le_of_unit hu hlow).imp_left fun hleast => by omega
  have hfull : k = 0 ∨ 2 ^ f.fraction ≤ n := habove.imp_right fun h => by
    have h := hnearest.le_of_ge (k := (2 ^ f.fraction : ℕ)) ?_
    · exact_mod_cast h
    · rw [le_div_iff₀ (by positivity)]
      exact_mod_cast h
  have hfinite := finite_of_field_lt (field_lt hu hexponent hlow hroom hk) hle
  have hround : f.round m e = k * 2 ^ f.fraction + n := by
    simp only [BinaryFormat.round, if_neg hm, hu, hn]
    rw [show (u - f.least).toNat = k by omega, min_eq_left hfinite.le]
  exact ⟨k, n, hround, hround ▸ hfinite, hk ▸ hnearest, hle, hfull, hk ▸ habove⟩

/-- A number of the format that no other is nearer to. A number with a fraction is nearer than
every integer. -/
structure NearestNumber (f : BinaryFormat) (x w : ℚ) : Prop where
  isNumber : f.IsNumber w
  le {v : ℚ} : f.IsNumber v → |x - w| ≤ |x - v|
  lt : (∀ i : ℤ, w ≠ i) → ∀ i : ℤ, |x - w| < |x - i|

section Nearest
variable {x w y : ℚ} {bits k n : ℕ}

theorem BinaryFormat.IsNumber.neg (h : f.IsNumber x) : f.IsNumber (-x) := by
  obtain ⟨bits, hbits, hvalue⟩ := h
  exact ⟨bits, hbits, by rw [abs_neg, hvalue]⟩

theorem NearestNumber.neg (h : NearestNumber f x w) : NearestNumber f (-x) (-w) := by
  have hdist (v : ℚ) : |-x - v| = |x - -v| := by
    rw [← abs_neg]
    congr 1
    ring
  refine ⟨h.isNumber.neg, fun {v} hv => ?_, fun hw i => ?_⟩
  · rw [hdist, hdist, neg_neg]
    exact h.le hv.neg
  · have hlt := h.lt (fun j hj => hw (-j) (by rw [hj, Int.cast_neg])) (-i)
    rwa [hdist, hdist, neg_neg, ← Int.cast_neg]

theorem NearestNumber.refl (h : f.IsNumber x) : NearestNumber f x x where
  isNumber := h
  le _ := by rw [sub_self, abs_zero]; exact abs_nonneg _
  lt hx i := by rw [sub_self, abs_zero]; exact abs_pos.mpr (sub_ne_zero.mpr (hx i))

/-- A number is the nearest one to itself. -/
theorem NearestNumber.eq (h : NearestNumber f x w) (hx : f.IsNumber x) : w = x := by
  have hle := h.le hx
  rw [sub_self, abs_zero] at hle
  exact (sub_eq_zero.mp (abs_nonpos_iff.mp hle)).symm

/-- An integer is rounded to an integer. -/
theorem NearestNumber.integer {i : ℤ} (h : NearestNumber f i w) : ∃ j : ℤ, w = j := by
  by_contra! hno
  have hlt := h.lt hno i
  rw [sub_self, abs_zero] at hlt
  exact absurd hlt (not_lt.mpr (abs_nonneg _))

/-- A distance in units. -/
theorem abs_sub_multiple (y : ℚ) (j u : ℤ) : |y - j * 2 ^ u| = |y / 2 ^ u - j| * 2 ^ u := by
  have hpos : (0 : ℚ) < 2 ^ u := by positivity
  rw [← abs_of_pos hpos, ← abs_mul, abs_of_pos hpos]
  congr 1
  field_simp

variable (h : Rounded f y bits k n)
include h

theorem Rounded.value : f.value bits = n * 2 ^ (f.least + k) := by
  rw [h.bits_eq, value_parts h.le h.full]

theorem Rounded.le_multiple (j : ℤ) : |y - f.value bits| ≤ |y - j * 2 ^ (f.least + k)| := by
  rw [h.value, ← Int.cast_natCast, abs_sub_multiple, abs_sub_multiple]
  exact mul_le_mul_of_nonneg_right (h.nearest.le j) (by positivity)

/-- A number with a smaller unit lies below all that this one can have been rounded to. -/
theorem Rounded.le_smaller (hk : k ≠ 0) (hx : x ≤ 2 ^ f.fraction * 2 ^ (f.least + k)) :
    |y - f.value bits| ≤ |y - x| := by
  have habove := h.above.resolve_left hk
  have hle := h.le_multiple (2 ^ f.fraction)
  push_cast at hle
  rw [abs_of_nonneg (sub_nonneg.mpr habove)] at hle
  rw [abs_of_nonneg (by linarith : 0 ≤ y - x)]
  linarith

theorem Rounded.le_value (b : ℕ) : |y - f.value bits| ≤ |y - f.value b| := by
  have hleast := least_le_unit f b
  rcases le_or_gt (f.least + k) (f.unit b) with hcoarse | hfine
  · obtain ⟨j, hj⟩ : ∃ j : ℕ, f.unit b = f.least + k + j := ⟨(f.unit b - (f.least + k)).toNat, by omega⟩
    have hmultiple : f.value b = ((f.significand b * 2 ^ j : ℕ) : ℤ) * 2 ^ (f.least + k) := by
      rw [BinaryFormat.value, hj, zpow_add₀ two_ne_zero _ (j : ℤ), zpow_natCast]
      push_cast
      ring
    rw [hmultiple]
    exact h.le_multiple _
  · refine h.le_smaller (by omega) ?_
    have hlt : (f.significand b : ℚ) ≤ 2 ^ (f.fraction + 1) := by exact_mod_cast (significand_lt f b).le
    calc f.value b
        ≤ 2 ^ (f.fraction + 1) * 2 ^ f.unit b := mul_le_mul_of_nonneg_right hlt (by positivity)
      _ = 2 ^ f.fraction * 2 ^ (f.unit b + 1) := by
          rw [zpow_add_one₀ two_ne_zero, pow_succ]
          ring
      _ ≤ 2 ^ f.fraction * 2 ^ (f.least + k) :=
          mul_le_mul_of_nonneg_left (zpow_le_zpow_right₀ one_le_two (by omega)) (by positivity)

/-- What rounding comes to is the nearest number. -/
theorem Rounded.nearestNumber (hy : 0 ≤ y) : NearestNumber f y (f.value bits) where
  isNumber := ⟨bits, h.finite, abs_of_nonneg (value_nonneg f bits)⟩
  le {v} hv := by
    obtain ⟨b, -, hb⟩ := hv
    have hle := h.le_value b
    have habs := abs_abs_sub_abs_le_abs_sub y v
    rw [abs_of_nonneg hy, hb] at habs
    exact hle.trans habs
  lt hinteger i := by
    have hunit : f.least + k < 0 := by
      by_contra hge
      obtain ⟨j, hj⟩ := Int.eq_ofNat_of_zero_le (not_lt.mp hge)
      refine hinteger (n * 2 ^ j : ℕ) ?_
      rw [h.value, hj, zpow_natCast]
      push_cast
      rfl
    obtain ⟨j, hj⟩ : ∃ j : ℕ, f.least + k = -(j + 1 : ℕ) := ⟨(-(f.least + k) - 1).toNat, by omega⟩
    have hpower : (2 : ℚ) ^ (j + 1) * 2 ^ (f.least + k) = 1 := by
      rw [hj, zpow_neg, zpow_natCast]
      exact mul_inv_cancel₀ (by positivity)
    have hmultiple : (i : ℚ) = (i * 2 ^ (j + 1) : ℤ) * 2 ^ (f.least + k) := by
      push_cast
      rw [mul_assoc, hpower, mul_one]
    have hne : i * 2 ^ (j + 1) ≠ (n : ℤ) := by
      intro heq
      refine hinteger i ?_
      rw [hmultiple, heq, h.value, Int.cast_natCast]
    have hlt := h.nearest.lt (dvd_mul_of_dvd_right (dvd_pow_self 2 (Nat.succ_ne_zero j)) i) hne
    rw [hmultiple, h.value, ← Int.cast_natCast (n : ℕ), abs_sub_multiple, abs_sub_multiple]
    exact mul_lt_mul_of_pos_right hlt (by positivity)

end Nearest

section Source
variable {m d : ℕ}

theorem isNumber_zero (hexponent : 2 ≤ f.exponent) : f.IsNumber 0 := by
  have hfour : 2 ^ 2 ≤ 2 ^ f.exponent := Nat.pow_le_pow_right two_pos hexponent
  refine ⟨0, Nat.mul_pos (by omega) (by positivity), ?_⟩
  simp [BinaryFormat.value, BinaryFormat.significand]

/-- Rounding finds the nearest number. -/
theorem nearestNumber_round {e : ℤ} {z : ℚ} (hexponent : 2 ≤ f.exponent) (hm : m ≠ 0) (hpos : 0 ≤ z)
    (hz : z = m ∨ f.fraction + 2 ≤ m.log2 ∧ Sticky m z) (hroom : z * 2 ^ e < 2 ^ f.room) :
    f.round m e < f.infinity ∧ NearestNumber f (z * 2 ^ e) (f.value (f.round m e)) := by
  obtain ⟨k, n, h⟩ := rounded_round hexponent hm hz hroom
  exact ⟨h.finite, h.nearestNumber (by positivity)⟩

theorem nearestNumber_natCast (hexponent : 2 ≤ f.exponent) (hroom : (m : ℚ) < 2 ^ f.room) :
    f.round m 0 < f.infinity ∧ NearestNumber f m (f.value (f.round m 0)) := by
  by_cases hm : m = 0
  · obtain ⟨bits, hbits, hvalue⟩ := isNumber_zero hexponent
    have hzero : f.value 0 = 0 := by simp [BinaryFormat.value, BinaryFormat.significand]
    have hround : f.round m 0 = 0 := by rw [BinaryFormat.round, if_pos hm]
    rw [hround, hzero, hm, Nat.cast_zero]
    exact ⟨(Nat.zero_le _).trans_lt hbits, .refl (isNumber_zero hexponent)⟩
  · have h := nearestNumber_round (e := 0) hexponent hm (Nat.cast_nonneg m) (.inl rfl)
    rw [zpow_zero, mul_one] at h
    exact h hroom

/-- A quotient with a bit for its remainder stands for the quotient. -/
theorem sticky_div {p : ℕ} (hd : d ≠ 0) (hrem : p % d ≠ 0) : Sticky (2 * (p / d) + 1) (2 * (p / d : ℚ)) := by
  have hpos : (0 : ℚ) < d := by exact_mod_cast Nat.pos_of_ne_zero hd
  have hsplit : (p : ℚ) = d * (p / d : ℕ) + (p % d : ℕ) := by exact_mod_cast (Nat.div_add_mod p d).symm
  have hrem' : (0 : ℚ) < (p % d : ℕ) := by exact_mod_cast Nat.pos_of_ne_zero hrem
  have hlt : ((p % d : ℕ) : ℚ) < d := by exact_mod_cast Nat.mod_lt p (Nat.pos_of_ne_zero hd)
  refine ⟨by omega, ?_, ?_⟩
  · have hlow : ((p / d : ℕ) : ℚ) < p / d := by
      rw [lt_div_iff₀ hpos]
      linarith
    push_cast
    linarith
  · have hhigh : (p / d : ℚ) < (p / d : ℕ) + 1 := by
      rw [div_lt_iff₀ hpos]
      linarith
    push_cast
    linarith

theorem nearestNumber_ratio (hexponent : 2 ≤ f.exponent) (hd : d ≠ 0) (hroom : (m / d : ℚ) < 2 ^ f.room) :
    f.ratio m d < f.infinity ∧ NearestNumber f (m / d) (f.value (f.ratio m d)) := by
  by_cases hm : m = 0
  · have hratio : f.ratio m d = f.round 0 0 := by simp [BinaryFormat.ratio, BinaryFormat.round, hm]
    have h := nearestNumber_natCast (m := 0) hexponent (by positivity)
    rw [hratio, hm, Nat.cast_zero, zero_div]
    exact_mod_cast h
  · obtain ⟨k, hk⟩ : ∃ k, f.fraction + 3 + d.log2 = k := ⟨_, rfl⟩
    obtain ⟨p, hp⟩ : ∃ p, m * 2 ^ k = p := ⟨_, rfl⟩
    have hlarge : 2 ^ (f.fraction + 2) ≤ p / d := by
      rw [Nat.le_div_iff_mul_le (Nat.pos_of_ne_zero hd), ← hp, ← hk]
      calc 2 ^ (f.fraction + 2) * d
          ≤ 2 ^ (f.fraction + 2) * 2 ^ (d.log2 + 1) := Nat.mul_le_mul_left _ Nat.lt_log2_self.le
        _ = 1 * 2 ^ (f.fraction + 3 + d.log2) := by ring
        _ ≤ m * 2 ^ (f.fraction + 3 + d.log2) := Nat.mul_le_mul_right _ (Nat.pos_of_ne_zero hm)
    have hpos : 0 < 2 ^ (f.fraction + 2) := by positivity
    have hscale : (m / d : ℚ) = 2 * (p / d : ℚ) * 2 ^ (-(k + 1) : ℤ) := by
      have hcast : (p : ℚ) = m * 2 ^ k := by exact_mod_cast hp.symm
      rw [hcast, zpow_neg, zpow_add_one₀ two_ne_zero, zpow_natCast]
      field_simp
    simp only [BinaryFormat.ratio, hk, hp]
    rw [hscale] at hroom ⊢
    refine nearestNumber_round hexponent (by omega) (by positivity) ?_ hroom
    split
    · rename_i hrem
      left
      have hexact : (p : ℚ) = d * (p / d : ℕ) := by
        exact_mod_cast (Nat.mul_div_cancel' (Nat.dvd_of_mod_eq_zero hrem)).symm
      have hd' : (d : ℚ) ≠ 0 := by exact_mod_cast hd
      rw [hexact, mul_div_cancel_left₀ _ hd']
      push_cast
      ring
    · rename_i hrem
      right
      refine ⟨(Nat.le_log2 (by omega)).mpr ?_, sticky_div hd hrem⟩
      omega

end Source

end Round

section Integers
variable {f : BinaryFormat} {rest : ℕ}

theorem value_of_unit_nonneg {k : ℕ} (h : f.unit rest = k) : f.value rest = (f.significand rest * 2 ^ k : ℕ) := by
  rw [BinaryFormat.value, h, zpow_natCast]
  push_cast
  rfl

theorem value_of_unit_neg {k : ℕ} (h : f.unit rest = -k) : f.value rest * 2 ^ k = f.significand rest := by
  rw [BinaryFormat.value, h, zpow_neg, zpow_natCast]
  field_simp

/-- A significand without bits behind the point is an integer. -/
theorem value_of_divides {k : ℕ} (h : f.unit rest = -k) (hinteger : f.significand rest % 2 ^ k = 0) :
    f.value rest = (f.significand rest / 2 ^ k : ℕ) := by
  have hcut : ((f.significand rest : ℕ) : ℚ) = 2 ^ k * (f.significand rest / 2 ^ k : ℕ) := by
    exact_mod_cast (Nat.mul_div_cancel' (Nat.dvd_of_mod_eq_zero hinteger)).symm
  have hpos : (2 : ℚ) ^ k ≠ 0 := by positivity
  apply mul_right_cancel₀ hpos
  rw [value_of_unit_neg h, hcut, mul_comm]

/-- The integer that a number is. -/
theorem toInt?_signed (h : rest < f.infinity) (negative : Bool) (n : ℤ) :
    f.toInt? (f.signed negative rest) = some n ↔ (n : ℚ) = if negative then -f.value rest else f.value rest := by
  obtain ⟨hrest, hsign⟩ := signed_parts f (negative = true) (h.trans (infinity_lt_signBit f))
  have hsigned (q : ℕ) : ((if negative then (-1 : ℤ) else 1) * q = n) ↔
      (n : ℚ) = if negative then -(q : ℚ) else q := by
    cases negative with
    | true =>
      rw [if_pos rfl, if_pos rfl, neg_one_mul, eq_comm]
      exact_mod_cast Iff.rfl
    | false =>
      rw [if_neg (by decide), if_neg (by decide), one_mul, eq_comm]
      exact_mod_cast Iff.rfl
  simp only [BinaryFormat.toInt?, BinaryFormat.signed, hrest, hsign]
  rw [if_neg (Nat.not_le.mpr h)]
  split
  · rename_i hunit
    obtain ⟨k, hk⟩ := Int.eq_ofNat_of_zero_le hunit
    rw [hk, Int.toNat_natCast, Option.some_inj, hsigned, value_of_unit_nonneg hk]
  · rename_i hunit
    obtain ⟨k, hk⟩ : ∃ k : ℕ, f.unit rest = -k := ⟨(-f.unit rest).toNat, by omega⟩
    rw [hk, neg_neg, Int.toNat_natCast]
    split
    · rename_i hinteger
      rw [Option.some_inj, hsigned, value_of_divides hk hinteger]
    · rename_i hfraction
      refine iff_of_false nofun fun hn => hfraction ?_
      have habs : ((n.natAbs : ℕ) : ℚ) = f.value rest := by
        rw [Nat.cast_natAbs, Int.cast_abs, hn]
        cases negative with
        | true => simpa using abs_of_nonneg (value_nonneg f rest)
        | false => simpa using abs_of_nonneg (value_nonneg f rest)
      have hproduct : f.significand rest = n.natAbs * 2 ^ k := by
        have hvalue := value_of_unit_neg hk
        rw [← habs] at hvalue
        exact_mod_cast hvalue.symm
      rw [hproduct, Nat.mul_mod_left]

/-- An integer too long for the significand ends in zeros. -/
theorem BinaryFormat.IsNumber.dvd {n : ℤ} {k : ℕ} (h : f.IsNumber n)
    (hlarge : 2 ^ (f.fraction + 1 + k) ≤ |n|) : 2 ^ k ∣ n := by
  obtain ⟨bits, -, hvalue⟩ := h
  have hlt : (f.significand bits : ℚ) < 2 ^ (f.fraction + 1) := by exact_mod_cast significand_lt f bits
  have hunit : (k : ℤ) < f.unit bits := by
    rw [← zpow_lt_zpow_iff_right₀ (one_lt_two : (1 : ℚ) < 2), zpow_natCast]
    have hlarge' : (2 : ℚ) ^ (f.fraction + 1) * 2 ^ k ≤ |(n : ℚ)| := by
      rw [← pow_add]
      exact_mod_cast hlarge
    rw [hvalue] at hlarge'
    exact lt_of_mul_lt_mul_left (hlarge'.trans_lt (mul_lt_mul_of_pos_right hlt (by positivity))) (by positivity)
  obtain ⟨j, hj⟩ : ∃ j : ℕ, f.unit bits = j + k := ⟨(f.unit bits - k).toNat, by omega⟩
  have hproduct : |n| = f.significand bits * 2 ^ j * 2 ^ k := by
    rw [BinaryFormat.value, hj, ← Nat.cast_add, zpow_natCast, pow_add, ← mul_assoc] at hvalue
    exact_mod_cast hvalue
  exact (dvd_abs _ _).mp (hproduct ▸ dvd_mul_left _ _)

end Integers

end SqlxMssql.BinaryFloats
