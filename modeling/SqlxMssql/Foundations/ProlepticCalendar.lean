import Mathlib.Algebra.Order.Ring.Int
import Mathlib.Data.Int.ConditionallyCompleteOrder
import Mathlib.Order.Monotone.Basic
import Mathlib.Tactic.IntervalCases
import Mathlib.Tactic.Common

/-! # The proleptic Gregorian calendar

Civil dates of every year, numbered by the days since 0001-01-01, and the times of a day,
numbered by their nanoseconds.
-/
namespace ProlepticCalendar

def IsLeap (year : ℤ) : Prop := year % 4 = 0 ∧ (year % 100 = 0 → year % 400 = 0)

instance (year : ℤ) : Decidable (IsLeap year) :=
  inferInstanceAs (Decidable (year % 4 = 0 ∧ (year % 100 = 0 → year % 400 = 0)))

def monthLength (year : ℤ) : ℕ → ℕ
  | 2 => if IsLeap year then 29 else 28
  | 4 | 6 | 9 | 11 => 30
  | _ => 31

theorem one_le_monthLength (year : ℤ) (month : ℕ) : 1 ≤ monthLength year month := by
  unfold monthLength
  split
  · split <;> decide
  all_goals decide

def yearLength (year : ℤ) : ℕ := if IsLeap year then 366 else 365

@[ext] structure Civil where
  year : ℤ
  month : ℕ
  day : ℕ
  one_le_month : 1 ≤ month
  month_le : month ≤ 12
  one_le_day : 1 ≤ day
  day_le : day ≤ monthLength year month
  deriving DecidableEq

theorem Civil.day_le_thirtyOne (d : Civil) : d.day ≤ 31 := by
  refine d.day_le.trans ?_
  unfold monthLength
  split
  · split <;> decide
  all_goals decide

/-- The days from 0001-01-01 to the first day of a year. -/
def daysBeforeYear (year : ℤ) : ℤ :=
  365 * (year - 1) + (year - 1) / 4 - (year - 1) / 100 + (year - 1) / 400

theorem daysBeforeYear_succ (year : ℤ) :
    daysBeforeYear (year + 1) = daysBeforeYear year + yearLength year := by
  unfold daysBeforeYear yearLength
  split <;> rename_i h <;> unfold IsLeap at h <;> omega

theorem daysBeforeYear_strictMono : StrictMono daysBeforeYear := by
  apply strictMono_int_of_lt_succ
  intro year
  have h : 0 < yearLength year := by
    unfold yearLength
    split <;> omega
  rw [daysBeforeYear_succ]
  omega

/-- The days of a year before the first day of a month. -/
def daysBeforeMonth (year : ℤ) : ℕ → ℕ
  | 0 | 1 => 0
  | month + 2 => daysBeforeMonth year (month + 1) + monthLength year (month + 1)

theorem daysBeforeMonth_succ (year : ℤ) {month : ℕ} (h : 1 ≤ month) :
    daysBeforeMonth year (month + 1) = daysBeforeMonth year month + monthLength year month := by
  obtain ⟨m, rfl⟩ := Nat.exists_eq_add_of_le' h
  exact rfl

theorem daysBeforeMonth_year (year : ℤ) : daysBeforeMonth year 13 = yearLength year := by
  unfold yearLength
  simp only [daysBeforeMonth, monthLength]
  split <;> rfl

theorem daysBeforeMonth_mono (year : ℤ) : Monotone (daysBeforeMonth year) := by
  apply monotone_nat_of_le_succ
  intro month
  cases month with
  | zero => exact le_rfl
  | succ m =>
    rw [daysBeforeMonth_succ year (Nat.le_add_left 1 m)]
    exact Nat.le_add_right _ _

namespace Civil

variable (d : Civil)

def ordinal : ℕ := daysBeforeMonth d.year d.month + (d.day - 1)

def dayNumber : ℤ := daysBeforeYear d.year + d.ordinal

theorem ordinal_lt_next_month : d.ordinal < daysBeforeMonth d.year (d.month + 1) := by
  have hday := d.day_le
  have hone := d.one_le_day
  rw [daysBeforeMonth_succ d.year d.one_le_month]
  unfold ordinal
  omega

theorem ordinal_lt_year : d.ordinal < yearLength d.year := by
  have hmonth : d.month + 1 ≤ 13 := Nat.succ_le_succ d.month_le
  have hmono := daysBeforeMonth_mono d.year hmonth
  rw [daysBeforeMonth_year] at hmono
  exact lt_of_lt_of_le d.ordinal_lt_next_month hmono

theorem dayNumber_lt_next_year : d.dayNumber < daysBeforeYear (d.year + 1) := by
  have h := d.ordinal_lt_year
  rw [daysBeforeYear_succ]
  unfold dayNumber
  omega

theorem daysBeforeYear_le_dayNumber : daysBeforeYear d.year ≤ d.dayNumber := by
  unfold dayNumber
  omega

variable {d} {e : Civil}

theorem dayNumber_lt_of_year_lt (h : d.year < e.year) : d.dayNumber < e.dayNumber :=
  calc d.dayNumber < daysBeforeYear (d.year + 1) := d.dayNumber_lt_next_year
    _ ≤ daysBeforeYear e.year := daysBeforeYear_strictMono.monotone h
    _ ≤ e.dayNumber := e.daysBeforeYear_le_dayNumber

theorem ordinal_lt_of_month_lt (hyear : d.year = e.year) (h : d.month < e.month) :
    d.ordinal < e.ordinal :=
  calc d.ordinal < daysBeforeMonth d.year (d.month + 1) := d.ordinal_lt_next_month
    _ ≤ daysBeforeMonth d.year e.month := daysBeforeMonth_mono d.year h
    _ = daysBeforeMonth e.year e.month := by rw [hyear]
    _ ≤ e.ordinal := Nat.le_add_right _ _

theorem year_eq_of_dayNumber_eq (h : d.dayNumber = e.dayNumber) : d.year = e.year := by
  rcases lt_trichotomy d.year e.year with hlt | heq | hlt
  · exact absurd h (dayNumber_lt_of_year_lt hlt).ne
  · exact heq
  · exact absurd h (dayNumber_lt_of_year_lt hlt).ne'

theorem dayNumber_injective : Function.Injective dayNumber := by
  intro d e h
  have hyear := year_eq_of_dayNumber_eq h
  have hordinal : d.ordinal = e.ordinal := by
    unfold dayNumber at h
    rw [hyear] at h
    omega
  have hmonth : d.month = e.month := by
    rcases lt_trichotomy d.month e.month with hlt | heq | hlt
    · exact absurd hordinal (ordinal_lt_of_month_lt hyear hlt).ne
    · exact heq
    · exact absurd hordinal (ordinal_lt_of_month_lt hyear.symm hlt).ne'
  have hday : d.day = e.day := by
    have hd := d.one_le_day
    have he := e.one_le_day
    unfold ordinal at hordinal
    rw [hyear, hmonth] at hordinal
    omega
  exact Civil.ext hyear hmonth hday

end Civil

section Numbers

def yearOf (n : ℤ) : ℤ :=
  let guess := n * 400 / 146097 + 1
  if n < daysBeforeYear guess then guess - 1
  else if daysBeforeYear (guess + 1) ≤ n then guess + 1
  else guess

theorem yearOf_spec (n : ℤ) : daysBeforeYear (yearOf n) ≤ n ∧ n < daysBeforeYear (yearOf n + 1) := by
  unfold yearOf daysBeforeYear
  dsimp only
  split
  · constructor <;> omega
  · split <;> constructor <;> omega

/-- The last month up to `month` that starts at or before the `n`th day of the year. -/
def monthOf (year : ℤ) (n : ℕ) : ℕ → ℕ
  | 0 => 1
  | month + 1 => if daysBeforeMonth year (month + 1) ≤ n then month + 1 else monthOf year n month

theorem monthOf_spec (year : ℤ) (n : ℕ) {month : ℕ} (h : n < daysBeforeMonth year (month + 1)) :
    1 ≤ monthOf year n month ∧ monthOf year n month ≤ month ∧
      daysBeforeMonth year (monthOf year n month) ≤ n ∧
      n < daysBeforeMonth year (monthOf year n month + 1) := by
  induction month with
  | zero => exact absurd h (Nat.not_lt_zero n)
  | succ m ih =>
    unfold monthOf
    split
    · rename_i hle
      exact ⟨Nat.le_add_left 1 m, le_rfl, hle, h⟩
    · rename_i hlt
      obtain ⟨hone, hle, hfrom, hto⟩ := ih (Nat.lt_of_not_le hlt)
      exact ⟨hone, hle.trans (Nat.le_succ m), hfrom, hto⟩

def dayOfYear (n : ℤ) : ℕ := (n - daysBeforeYear (yearOf n)).toNat

def monthNumber (n : ℤ) : ℕ := monthOf (yearOf n) (dayOfYear n) 12

theorem monthNumber_spec (n : ℤ) :
    1 ≤ monthNumber n ∧ monthNumber n ≤ 12 ∧
      daysBeforeMonth (yearOf n) (monthNumber n) ≤ dayOfYear n ∧
      dayOfYear n < daysBeforeMonth (yearOf n) (monthNumber n + 1) := by
  apply monthOf_spec
  show dayOfYear n < daysBeforeMonth (yearOf n) 13
  have h := yearOf_spec n
  rw [daysBeforeYear_succ] at h
  rw [daysBeforeMonth_year]
  unfold dayOfYear
  omega

def Civil.ofDayNumber (n : ℤ) : Civil where
  year := yearOf n
  month := monthNumber n
  day := dayOfYear n - daysBeforeMonth (yearOf n) (monthNumber n) + 1
  one_le_month := (monthNumber_spec n).1
  month_le := (monthNumber_spec n).2.1
  one_le_day := Nat.le_add_left 1 _
  day_le := by
    obtain ⟨hone, -, hfrom, hto⟩ := monthNumber_spec n
    rw [daysBeforeMonth_succ _ hone] at hto
    omega

theorem Civil.dayNumber_ofDayNumber (n : ℤ) : (Civil.ofDayNumber n).dayNumber = n := by
  have hyear := (yearOf_spec n).1
  have hmonth := (monthNumber_spec n).2.2.1
  have hordinal : (Civil.ofDayNumber n).ordinal = dayOfYear n := by
    unfold Civil.ordinal Civil.ofDayNumber
    dsimp only
    omega
  unfold Civil.dayNumber
  rw [hordinal]
  unfold dayOfYear Civil.ofDayNumber
  dsimp only
  omega

theorem Civil.ofDayNumber_dayNumber (d : Civil) : Civil.ofDayNumber d.dayNumber = d :=
  Civil.dayNumber_injective (Civil.dayNumber_ofDayNumber d.dayNumber)

end Numbers

section Order

namespace Civil

/-- The first of January. -/
def newYear (year : ℤ) : Civil := ⟨year, 1, 1, le_rfl, by decide, le_rfl, one_le_monthLength year 1⟩

/-- The next calendar date. -/
def next (d : Civil) : Civil :=
  if h : d.day < monthLength d.year d.month then
    ⟨d.year, d.month, d.day + 1, d.one_le_month, d.month_le, Nat.le_add_left 1 _, h⟩
  else if h : d.month < 12 then
    ⟨d.year, d.month + 1, 1, Nat.le_add_left 1 _, h, le_rfl, one_le_monthLength _ _⟩
  else newYear (d.year + 1)

/-- The order of the calendar: by year, month and day. -/
def Before (d e : Civil) : Prop :=
  d.year < e.year ∨ d.year = e.year ∧ (d.month < e.month ∨ d.month = e.month ∧ d.day < e.day)

variable {d e : Civil}

theorem dayNumber_newYear (year : ℤ) : (newYear year).dayNumber = daysBeforeYear year := by
  have hordinal : (newYear year).ordinal = 0 := rfl
  rw [dayNumber, hordinal, Nat.cast_zero, add_zero]
  rfl

theorem ordinal_last (hday : ¬ d.day < monthLength d.year d.month) :
    d.ordinal + 1 = daysBeforeMonth d.year (d.month + 1) := by
  have hone := d.one_le_day
  have hle := d.day_le
  rw [daysBeforeMonth_succ _ d.one_le_month]
  unfold ordinal
  omega

theorem dayNumber_next (d : Civil) : d.next.dayNumber = d.dayNumber + 1 := by
  unfold next
  split
  · have hone := d.one_le_day
    unfold dayNumber ordinal
    dsimp only
    omega
  · rename_i hday
    have hlast := ordinal_last hday
    split
    · unfold dayNumber
      rw [ordinal]
      dsimp only
      omega
    · rename_i hmonth
      have htwelve : d.month + 1 = 13 := by
        have := d.month_le
        omega
      rw [htwelve, daysBeforeMonth_year] at hlast
      rw [dayNumber_newYear, daysBeforeYear_succ]
      unfold dayNumber
      omega

theorem dayNumber_iterate_next (d : Civil) (n : ℕ) : (next^[n] d).dayNumber = d.dayNumber + n := by
  induction n with
  | zero => rw [Function.iterate_zero, id, Nat.cast_zero, add_zero]
  | succ n ih => rw [Function.iterate_succ_apply', dayNumber_next, ih, Nat.cast_succ, add_assoc]

theorem dayNumber_lt_of_before (h : d.Before e) : d.dayNumber < e.dayNumber := by
  rcases h with hyear | ⟨hyear, h⟩
  · exact dayNumber_lt_of_year_lt hyear
  · have hordinal : d.ordinal < e.ordinal := by
      rcases h with hmonth | ⟨hmonth, hday⟩
      · exact ordinal_lt_of_month_lt hyear hmonth
      · have hone := d.one_le_day
        unfold ordinal
        rw [hyear, hmonth]
        omega
    unfold dayNumber
    rw [hyear]
    omega

theorem before_trichotomy (d e : Civil) : d.Before e ∨ d = e ∨ e.Before d := by
  unfold Before
  by_cases hsame : d.year = e.year ∧ d.month = e.month ∧ d.day = e.day
  · exact .inr (.inl (Civil.ext hsame.1 hsame.2.1 hsame.2.2))
  · omega

theorem dayNumber_lt_iff : d.dayNumber < e.dayNumber ↔ d.Before e := by
  refine ⟨fun h => ?_, dayNumber_lt_of_before⟩
  rcases before_trichotomy d e with hbefore | rfl | hafter
  · exact hbefore
  · exact absurd h (lt_irrefl _)
  · exact absurd h (dayNumber_lt_of_before hafter).asymm

end Civil

end Order

section Bounded

abbrev CivilIn (first last : ℤ) : Type := {d : Civil // first ≤ d.year ∧ d.year ≤ last}

namespace CivilIn
variable {first last : ℤ}

def ofCivil (d : Civil) : Option (CivilIn first last) :=
  if h : first ≤ d.year ∧ d.year ≤ last then some ⟨d, h⟩ else none

theorem ofCivil_eq_some {d : Civil} {date : CivilIn first last} : ofCivil d = some date ↔ date.val = d := by
  unfold ofCivil
  constructor
  · intro h
    split at h
    · cases h
      exact rfl
    · cases h
  · rintro rfl
    rw [dif_pos date.property]

def ofParts (year month day : ℤ) : Option (CivilIn first last) :=
  if h : 1 ≤ month.toNat ∧ month.toNat ≤ 12 ∧ 1 ≤ day.toNat ∧ day.toNat ≤ monthLength year month.toNat then
    ofCivil ⟨year, month.toNat, day.toNat, h.1, h.2.1, h.2.2.1, h.2.2.2⟩
  else none

theorem ofParts_eq_some {year month day : ℤ} {date : CivilIn first last} :
    ofParts year month day = some date ↔
      date.val.year = year ∧ date.val.month = month ∧ date.val.day = day := by
  unfold ofParts
  constructor
  · intro h
    split at h
    · rename_i hvalid
      rw [ofCivil_eq_some.mp h]
      dsimp only
      refine ⟨rfl, ?_, ?_⟩ <;> omega
    · cases h
  · obtain ⟨d, hrange⟩ := date
    rintro ⟨rfl, rfl, rfl⟩
    rw [dif_pos ⟨d.one_le_month, d.month_le, d.one_le_day, d.day_le⟩]
    exact ofCivil_eq_some.mpr rfl

def addDays (date : CivilIn first last) (n : ℤ) : Option (CivilIn first last) :=
  ofCivil (Civil.ofDayNumber (date.val.dayNumber + n))

theorem addDays_eq_some {date later : CivilIn first last} {n : ℤ} :
    date.addDays n = some later ↔ later.val.dayNumber = date.val.dayNumber + n := by
  rw [addDays, ofCivil_eq_some]
  constructor
  · intro h
    rw [h, Civil.dayNumber_ofDayNumber]
  · intro h
    rw [← h, Civil.ofDayNumber_dayNumber]

/-- 0001-01-01 -/
def origin (h : first ≤ 1 ∧ 1 ≤ last) : CivilIn first last :=
  ⟨⟨1, 1, 1, le_rfl, by decide, le_rfl, by decide⟩, h⟩

end CivilIn

end Bounded

def lastDay : ℤ := 3652058

theorem dayNumber_mem_iff (d : Civil) :
    0 ≤ d.dayNumber ∧ d.dayNumber ≤ lastDay ↔ 1 ≤ d.year ∧ d.year ≤ 9999 := by
  have hfrom := d.daysBeforeYear_le_dayNumber
  have hto := d.dayNumber_lt_next_year
  constructor
  · rintro ⟨h0, h1⟩
    constructor
    · by_contra h
      have := daysBeforeYear_strictMono.monotone (show d.year + 1 ≤ 1 by omega)
      have hone : daysBeforeYear 1 = 0 := rfl
      omega
    · by_contra h
      have := daysBeforeYear_strictMono.monotone (show 10000 ≤ d.year by omega)
      have hlast : daysBeforeYear 10000 = lastDay + 1 := rfl
      omega
  · rintro ⟨h0, h1⟩
    have hfirst := daysBeforeYear_strictMono.monotone h0
    have hlast := daysBeforeYear_strictMono.monotone (show d.year + 1 ≤ 10000 by omega)
    have hone : daysBeforeYear 1 = 0 := rfl
    have hend : daysBeforeYear 10000 = lastDay + 1 := rfl
    constructor <;> omega

theorem ofDayNumber_year_mem {n : ℤ} (hfrom : 0 ≤ n) (hto : n ≤ lastDay) :
    1 ≤ (Civil.ofDayNumber n).year ∧ (Civil.ofDayNumber n).year ≤ 9999 := by
  rw [← dayNumber_mem_iff, Civil.dayNumber_ofDayNumber]
  exact ⟨hfrom, hto⟩

def nanosPerDay : ℤ := 86400000000000

/-- A time of day, outside leap seconds. -/
@[ext] structure TimeOfDay where
  hour : ℕ
  minute : ℕ
  second : ℕ
  nanosecond : ℕ
  hour_lt : hour < 24
  minute_lt : minute < 60
  second_lt : second < 60
  nanosecond_lt : nanosecond < 1000000000
  deriving DecidableEq

namespace TimeOfDay

def nanos (t : TimeOfDay) : ℕ := ((t.hour * 60 + t.minute) * 60 + t.second) * 1000000000 + t.nanosecond

theorem nanos_eq_iff (t : TimeOfDay) (n : ℕ) :
    t.nanos = n ↔ t.hour = n / 1000000000 / 3600 ∧ t.minute = n / 1000000000 % 3600 / 60 ∧
      t.second = n / 1000000000 % 60 ∧ t.nanosecond = n % 1000000000 := by
  obtain ⟨hour, minute, second, nanosecond, _, _, _, _⟩ := t
  unfold nanos
  dsimp only
  have hsplit : n / 1000000000 % 3600 % 60 = n / 1000000000 % 60 := by omega
  omega

def ofParts (hour minute second nanosecond : ℤ) : Option TimeOfDay :=
  if h : (0 ≤ hour ∧ hour < 24) ∧ (0 ≤ minute ∧ minute < 60) ∧ (0 ≤ second ∧ second < 60) ∧
      0 ≤ nanosecond ∧ nanosecond < 1000000000 then
    some ⟨hour.toNat, minute.toNat, second.toNat, nanosecond.toNat, by omega, by omega, by omega, by omega⟩
  else none

theorem ofParts_eq_some {hour minute second nanosecond : ℤ} {t : TimeOfDay} :
    ofParts hour minute second nanosecond = some t ↔
      t.hour = hour ∧ t.minute = minute ∧ t.second = second ∧ t.nanosecond = nanosecond := by
  unfold ofParts
  constructor
  · intro h
    split at h
    · cases h
      dsimp only
      omega
    · cases h
  · obtain ⟨h, m, s, n, _, _, _, _⟩ := t
    rintro ⟨rfl, rfl, rfl, rfl⟩
    rw [dif_pos (by dsimp only; omega)]
    exact rfl

/-- The time that lies a number of nanoseconds after midnight. -/
def ofNanos (n : ℕ) (h : n < 86400000000000) : TimeOfDay where
  hour := n / 1000000000 / 3600
  minute := n / 1000000000 % 3600 / 60
  second := n / 1000000000 % 60
  nanosecond := n % 1000000000
  hour_lt := by omega
  minute_lt := by omega
  second_lt := by omega
  nanosecond_lt := by omega

theorem nanos_ofNanos {n : ℕ} (h : n < 86400000000000) : (ofNanos n h).nanos = n :=
  (nanos_eq_iff _ n).mpr ⟨rfl, rfl, rfl, rfl⟩

theorem nanos_lt (t : TimeOfDay) : t.nanos < 86400000000000 := by
  obtain ⟨hour, minute, second, nanosecond, _, _, _, _⟩ := t
  unfold nanos
  dsimp only
  omega

/-- The order of the clock. -/
def Before (t u : TimeOfDay) : Prop :=
  t.hour < u.hour ∨ t.hour = u.hour ∧ (t.minute < u.minute ∨ t.minute = u.minute ∧
    (t.second < u.second ∨ t.second = u.second ∧ t.nanosecond < u.nanosecond))

theorem nanos_lt_iff (t u : TimeOfDay) : t.nanos < u.nanos ↔ t.Before u := by
  obtain ⟨hour, minute, second, nanosecond, _, _, _, _⟩ := t
  obtain ⟨hour', minute', second', nanosecond', _, _, _, _⟩ := u
  unfold nanos Before
  dsimp only
  omega

/-- The time with its nanoseconds cut down to a multiple of the unit. -/
def truncate (unit : ℕ) (t : TimeOfDay) : TimeOfDay where
  hour := t.hour
  minute := t.minute
  second := t.second
  nanosecond := t.nanosecond / unit * unit
  hour_lt := t.hour_lt
  minute_lt := t.minute_lt
  second_lt := t.second_lt
  nanosecond_lt := (Nat.div_mul_le_self t.nanosecond unit).trans_lt t.nanosecond_lt

theorem nanos_truncate {unit : ℕ} (h : unit ∣ 1000000000) (t : TimeOfDay) :
    (t.truncate unit).nanos = t.nanos / unit * unit := by
  have hpos : 0 < unit := Nat.pos_of_dvd_of_pos h (by decide)
  obtain ⟨k, hk⟩ := h
  have hsplit : t.nanos = t.nanosecond + ((t.hour * 60 + t.minute) * 60 + t.second) * k * unit := by
    unfold nanos
    rw [Nat.mul_assoc _ k, Nat.mul_comm k, ← hk, Nat.add_comm]
  rw [hsplit, Nat.add_mul_div_right _ _ hpos, Nat.add_mul, nanos, truncate, Nat.mul_assoc _ k, Nat.mul_comm k, ← hk,
    Nat.add_comm]

/-- The time of the nanoseconds since some midnight. -/
def ofInstant (n : ℤ) : TimeOfDay := ofNanos (n % nanosPerDay).toNat (by unfold nanosPerDay; omega)

end TimeOfDay

end ProlepticCalendar
