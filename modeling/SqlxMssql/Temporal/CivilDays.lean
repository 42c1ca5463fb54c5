import SqlxMssql.Temporal.Jiff

/-! # The day numbers of `jiff` dates

The driver's calculation counts years from March and splits them into eras of 400 years. It
agrees with the calendar in every year, and its inverse finds the date again.
-/
namespace SqlxMssql.Jiff
open Utf8 ProlepticCalendar

section March

/-- The year that starts in the March up to a date. -/
def marchYear (d : Civil) : ℤ := if d.month ≤ 2 then d.year - 1 else d.year

def marchMonth (d : Civil) : ℕ := if d.month ≤ 2 then d.month + 9 else d.month - 3

def marchDay (d : Civil) : ℕ := (153 * marchMonth d + 2) / 5 + (d.day - 1)

/-- The months from March on have the lengths of the line `(153 m + 2) / 5`. -/
theorem ordinal_eq_marchDay (d : Civil) :
    (d.ordinal : ℤ) =
      if d.month ≤ 2 then (marchDay d : ℤ) - 306 else (yearLength d.year : ℤ) - 306 + marchDay d := by
  obtain ⟨year, month, day, hone, hle, hday, -⟩ := d
  have hstart : ((daysBeforeMonth year month : ℕ) : ℤ) =
      if month ≤ 2 then (((153 * (month + 9) + 2) / 5 : ℕ) : ℤ) - 306
      else (yearLength year : ℤ) - 306 + ((153 * (month - 3) + 2) / 5 : ℕ) := by
    by_cases hleap : IsLeap year <;> interval_cases month <;>
      simp [daysBeforeMonth, monthLength, yearLength, hleap]
  unfold Civil.ordinal marchDay marchMonth
  dsimp only
  split
  · rename_i h
    rw [if_pos h] at hstart
    omega
  · rename_i h
    rw [if_neg h] at hstart
    omega

theorem marchDay_le (d : Civil) :
    marchDay d ≤ 365 ∧ (marchDay d = 365 → IsLeap (marchYear d + 1)) := by
  obtain ⟨year, month, day, hone, hle, hday, hlength⟩ := d
  unfold marchDay marchMonth marchYear
  dsimp only
  by_cases hfeb : month = 2
  · subst hfeb
    have hleap : 28 < day → IsLeap year := by
      intro h
      by_contra hno
      simp only [monthLength, if_neg hno] at hlength
      omega
    have hmax : day ≤ 29 := by
      refine hlength.trans ?_
      simp only [monthLength]
      split <;> omega
    refine ⟨by simp; omega, fun h => ?_⟩
    simp only [le_refl, if_true] at h ⊢
    rw [sub_add_cancel]
    exact hleap (by omega)
  · interval_cases month <;> simp [monthLength] at hlength hfeb ⊢ <;> omega

end March

def eraDay (d : Civil) : ℤ :=
  marchYear d % 400 * 365 + marchYear d % 400 / 4 - marchYear d % 400 / 100 + marchDay d

theorem unixDaysFromDate_march (d : Civil) :
    unixDaysFromDate d = marchYear d / 400 * 146097 + eraDay d - 719468 := by
  have hone := d.one_le_day
  unfold unixDaysFromDate eraDay marchDay marchMonth marchYear
  dsimp only
  by_cases h : d.month ≤ 2
  · have hz : (d.month : ℤ) ≤ 2 := by omega
    have hz' : ¬ (d.month : ℤ) > 2 := by omega
    simp only [if_pos h, if_pos hz, if_neg hz']
    omega
  · have hz : ¬ (d.month : ℤ) ≤ 2 := by omega
    have hz' : (d.month : ℤ) > 2 := by omega
    simp only [if_neg h, if_neg hz, if_pos hz']
    omega

/-- The years of an era add up as those of the calendar do. -/
theorem daysBeforeYear_era (a : ℤ) :
    a / 400 * 146097 + (a % 400 * 365 + a % 400 / 4 - a % 400 / 100) = daysBeforeYear (a + 1) := by
  have hfour : a / 4 = a / 400 * 100 + a % 400 / 4 := by omega
  have hcentury : a / 100 = a / 400 * 4 + a % 400 / 100 := by omega
  unfold daysBeforeYear
  rw [add_sub_cancel_right, hfour, hcentury]
  omega

/-- The calculation is the calendar's day number, counted from 1970-01-01. -/
theorem unixDaysFromDate_eq (d : Civil) :
    unixDaysFromDate d = d.dayNumber - daysFromYearOneToEpoch := by
  have hordinal := ordinal_eq_marchDay d
  have hyear : daysBeforeYear (marchYear d + 1) =
      if d.month ≤ 2 then daysBeforeYear d.year else daysBeforeYear d.year + yearLength d.year := by
    unfold marchYear
    split
    · rw [sub_add_cancel]
    · exact daysBeforeYear_succ d.year
  rw [unixDaysFromDate_march, eraDay, ← add_assoc, daysBeforeYear_era, hyear]
  unfold Civil.dayNumber daysFromYearOneToEpoch
  by_cases h : d.month ≤ 2
  · rw [if_pos h] at hordinal ⊢
    omega
  · rw [if_neg h] at hordinal ⊢
    omega

section Inverse

/-- The divisors of the calculation find the year of the era: the last day of a leap year
is the only one that a plain division by 365 would put into the next year. -/
theorem yearOfEra_eq {y n : ℤ} (hy : 0 ≤ y ∧ y < 400) (hn : 0 ≤ n ∧ n ≤ 365)
    (hleap : n = 365 → IsLeap (y + 1)) {day : ℤ} (hday : day = y * 365 + y / 4 - y / 100 + n) :
    (day - day / 1460 + day / 36524 - day / 146096) / 365 = y := by
  unfold IsLeap at hleap
  -- centuries, groups of four years and single years
  obtain ⟨c, q, r, hc, hq, hr, rfl⟩ : ∃ c q r : ℤ, (0 ≤ c ∧ c < 4) ∧ (0 ≤ q ∧ q < 25) ∧
      (0 ≤ r ∧ r < 4) ∧ y = 100 * c + 4 * q + r :=
    ⟨y / 100, y % 100 / 4, y % 4, by omega, by omega, by omega, by omega⟩
  obtain rfl : day = 36524 * c + 1461 * q + 365 * r + n := by omega
  rcases eq_or_lt_of_le hn.2 with h | h
  · obtain ⟨hfour, hcentury⟩ := hleap h
    subst h
    obtain rfl : r = 3 := by omega
    by_cases hlast : q = 24
    · -- the last day of the era
      subst hlast
      obtain rfl : c = 3 := by omega
      decide
    · have h1 : (36524 * c + 1461 * q + 365 * 3 + 365) / 36524 = c := by omega
      have h2 : (36524 * c + 1461 * q + 365 * 3 + 365) / 146096 = 0 := by omega
      have h3 : (36524 * c + 1461 * q + 365 * 3 + 365) / 1460 = 25 * c + q + 1 := by omega
      omega
  · have h1 : (36524 * c + 1461 * q + 365 * r + n) / 36524 = c := by omega
    have h2 : (36524 * c + 1461 * q + 365 * r + n) / 146096 = 0 := by omega
    have h3 : (36524 * c + 1461 * q + 365 * r + n) / 1460 = 25 * c + q ∨
        (36524 * c + 1461 * q + 365 * r + n) / 1460 = 25 * c + q + 1 ∧ r = 3 ∧ 365 ≤ 24 * c + q + n := by
      omega
    omega

theorem eraDay_lt (d : Civil) : 0 ≤ eraDay d ∧ eraDay d < 146097 := by
  obtain ⟨hle, hleap⟩ := marchDay_le d
  unfold IsLeap at hleap
  unfold eraDay
  obtain ⟨y, hy, hylt, hmod⟩ : ∃ y : ℤ, 0 ≤ y ∧ y < 400 ∧ marchYear d % 400 = y :=
    ⟨_, Int.emod_nonneg _ (by decide), Int.emod_lt_of_pos _ (by decide), rfl⟩
  rw [hmod]
  have hfour : y / 4 ≤ 99 := by omega
  constructor <;> omega

theorem month_of_marchDay (d : Civil) : (5 * marchDay d + 2) / 153 = marchMonth d := by
  obtain ⟨year, month, day, hone, hle, hday, hlength⟩ := d
  have hmax : day ≤ if month = 2 then 29 else if month = 4 ∨ month = 6 ∨ month = 9 ∨ month = 11 then 30 else 31 := by
    refine hlength.trans ?_
    unfold monthLength
    split <;> simp_all
    split <;> omega
  unfold marchDay marchMonth
  dsimp only
  interval_cases month <;> simp at hmax ⊢ <;> omega

theorem civilFromUnixDays_unixDaysFromDate (d : Civil) :
    civilFromUnixDays (unixDaysFromDate d) = (d.year, (d.month : ℤ), (d.day : ℤ)) := by
  have hday := eraDay_lt d
  have hera : (unixDaysFromDate d + 719468) / 146097 = marchYear d / 400 := by
    rw [unixDaysFromDate_march]
    omega
  have heraDay : unixDaysFromDate d + 719468 - marchYear d / 400 * 146097 = eraDay d := by
    rw [unixDaysFromDate_march]
    omega
  have hyear : (eraDay d - eraDay d / 1460 + eraDay d / 36524 - eraDay d / 146096) / 365 =
      marchYear d % 400 := by
    obtain ⟨hle, hleap⟩ := marchDay_le d
    refine yearOfEra_eq ⟨Int.emod_nonneg _ (by decide), Int.emod_lt_of_pos _ (by decide)⟩
      ⟨Int.natCast_nonneg (marchDay d), by omega⟩ (fun h => ?_) rfl
    have h := hleap (by omega)
    unfold IsLeap at h ⊢
    omega
  have hmarchDay : eraDay d - (365 * (marchYear d % 400) + marchYear d % 400 / 4 -
      marchYear d % 400 / 100) = marchDay d := by
    unfold eraDay
    omega
  have hmonth : (5 * (marchDay d : ℤ) + 2) / 153 = marchMonth d := by
    have := month_of_marchDay d
    omega
  have hmonthOf : (if (marchMonth d : ℤ) < 10 then (marchMonth d : ℤ) + 3 else marchMonth d - 9) =
      d.month := by
    have hone := d.one_le_month
    have hle := d.month_le
    unfold marchMonth
    split <;> split <;> omega
  have hdayOf : (marchDay d : ℤ) - (153 * marchMonth d + 2) / 5 + 1 = d.day := by
    have hone := d.one_le_day
    unfold marchDay
    omega
  have hyearOf : marchYear d % 400 + marchYear d / 400 * 400 + (if (d.month : ℤ) ≤ 2 then 1 else 0) =
      d.year := by
    unfold marchYear
    split <;> split <;> omega
  unfold civilFromUnixDays
  simp only [hera, heraDay, hyear, hmarchDay, hmonth, hmonthOf, hdayOf, hyearOf]

variable {jiff : Jiff}

theorem dateFromUnixDays_eq_some (hg : jiff.Gregorian) {n : ℤ} {date : jiff.Date} :
    jiff.dateFromUnixDays n = some date ↔
      (jiff.civil date).dayNumber = n + daysFromYearOneToEpoch := by
  set d := Civil.ofDayNumber (n + daysFromYearOneToEpoch) with hd
  have hday : d.dayNumber = n + daysFromYearOneToEpoch := Civil.dayNumber_ofDayNumber _
  have hcivil : civilFromUnixDays n = (d.year, (d.month : ℤ), (d.day : ℤ)) := by
    rw [← civilFromUnixDays_unixDaysFromDate, unixDaysFromDate_eq, hday, add_sub_cancel_right]
  have hmonth : toI8 d.month = some (d.month : ℤ) := by
    have := d.month_le
    rw [toI8_eq_some]
    omega
  have hdate : toI8 d.day = some (d.day : ℤ) := by
    have hle := d.day_le_thirtyOne
    rw [toI8_eq_some]
    omega
  have hrun : jiff.dateFromUnixDays n =
      (toI16 d.year).bind fun year => jiff.dateNew year d.month d.day := by
    simp only [dateFromUnixDays, hcivil, hmonth, hdate]
    rfl
  rw [hrun, Option.bind_eq_some_iff, ← hday]
  constructor
  · rintro ⟨year, hyear, hnew⟩
    obtain ⟨rfl, -⟩ := toI16_eq_some.mp hyear
    obtain ⟨hyear, hmonth, hday⟩ := (hg.dateNew_iff _ _ _ _).mp hnew
    have hsame : jiff.civil date = d :=
      Civil.ext hyear (Int.ofNat_inj.mp hmonth) (Int.ofNat_inj.mp hday)
    rw [hsame]
  · intro h
    have hsame : jiff.civil date = d := Civil.dayNumber_injective h
    have hrange := hg.civil_year date
    rw [hsame] at hrange
    refine ⟨d.year, toI16_eq_some.mpr ⟨rfl, by omega⟩, (hg.dateNew_iff _ _ _ _).mpr ?_⟩
    rw [hsame]
    exact ⟨rfl, rfl, rfl⟩

end Inverse

section Machine

/-- A value that an `i64` can hold. -/
def FitsI64 (value : ℤ) : Prop := -9223372036854775808 ≤ value ∧ value < 9223372036854775808

/-- Everything that `unix_days_from_date` computes on its way from the numbers of a date. -/
def unixDaysSteps (year month day : ℤ) : List ℤ :=
  let adjustedYear := year - (if month ≤ 2 then 1 else 0)
  let era := adjustedYear / 400
  let yearOfEra := adjustedYear - era * 400
  let monthShift := if month > 2 then month - 3 else month + 9
  let dayOfYear := (153 * monthShift + 2) / 5 + day - 1
  let dayOfEra := yearOfEra * 365 + yearOfEra / 4 - yearOfEra / 100 + dayOfYear
  [adjustedYear, era * 400, yearOfEra, month - 3, month + 9, 153 * monthShift + 2,
    (153 * monthShift + 2) / 5 + day, dayOfYear, yearOfEra * 365 + yearOfEra / 4,
    yearOfEra * 365 + yearOfEra / 4 - yearOfEra / 100, dayOfEra, era * 146097, era * 146097 + dayOfEra,
    era * 146097 + dayOfEra - 719468]

/-- Everything that `date_from_unix_days` computes on its way. -/
def civilSteps (unixDays : ℤ) : List ℤ :=
  let shifted := unixDays + 719468
  let era := shifted / 146097
  let dayOfEra := shifted - era * 146097
  let yearOfEra := (dayOfEra - dayOfEra / 1460 + dayOfEra / 36524 - dayOfEra / 146096) / 365
  let dayOfYear := dayOfEra - (365 * yearOfEra + yearOfEra / 4 - yearOfEra / 100)
  let monthShift := (5 * dayOfYear + 2) / 153
  [shifted, era * 146097, dayOfEra, dayOfEra - dayOfEra / 1460, dayOfEra - dayOfEra / 1460 + dayOfEra / 36524,
    dayOfEra - dayOfEra / 1460 + dayOfEra / 36524 - dayOfEra / 146096, era * 400, yearOfEra + era * 400,
    365 * yearOfEra, 365 * yearOfEra + yearOfEra / 4, 365 * yearOfEra + yearOfEra / 4 - yearOfEra / 100, dayOfYear,
    5 * dayOfYear, 5 * dayOfYear + 2, 153 * monthShift, 153 * monthShift + 2, dayOfYear - (153 * monthShift + 2) / 5,
    dayOfYear - (153 * monthShift + 2) / 5 + 1, monthShift + 3, monthShift - 9, yearOfEra + era * 400 + 1]

theorem unixDaysFromDate_mem (d : Civil) : unixDaysFromDate d ∈ unixDaysSteps d.year d.month d.day :=
  List.mem_of_getLast? rfl

theorem civilFromUnixDays_mem (n : ℤ) : (civilFromUnixDays n).1 ∈ civilSteps n ∧
    (civilFromUnixDays n).2.1 ∈ civilSteps n ∧ (civilFromUnixDays n).2.2 ∈ civilSteps n := by
  have hyear {steps : List ℤ} {y : ℤ} {p : Prop} [Decidable p] (h : y ∈ steps) (hlater : y + 1 ∈ steps) :
      y + (if p then 1 else 0) ∈ steps := by
    split
    · exact hlater
    · rwa [add_zero]
  unfold civilFromUnixDays civilSteps
  dsimp only
  refine ⟨hyear (by simp) (by simp), ?_, by simp⟩
  split
  · simp
  · simp

theorem unixDaysSteps_fit {year month day : ℤ} (hyear : -32768 ≤ year ∧ year < 32768)
    (hmonth : -128 ≤ month ∧ month < 128) (hday : -128 ≤ day ∧ day < 128) :
    ∀ value ∈ unixDaysSteps year month day, FitsI64 value := by
  unfold unixDaysSteps FitsI64
  simp only [List.forall_mem_cons, List.not_mem_nil, false_imp_iff, implies_true, and_true]
  obtain ⟨a, ha⟩ : ∃ a, year - (if month ≤ 2 then 1 else 0) = a := ⟨_, rfl⟩
  obtain ⟨m, hm⟩ : ∃ m, (if month > 2 then month - 3 else month + 9) = m := ⟨_, rfl⟩
  have harange : -32769 ≤ a ∧ a < 32768 := by
    split at ha
    · omega
    · omega
  have hmrange : -131 ≤ m ∧ m < 137 := by
    split at hm
    · omega
    · omega
  rw [ha, hm]
  omega

theorem civilSteps_fit {n : ℤ} (hn : FitsI64 n) (hshifted : n + 719468 < 9223372036854775808) :
    ∀ value ∈ civilSteps n, FitsI64 value := by
  unfold FitsI64 at hn
  unfold civilSteps FitsI64
  simp only [List.forall_mem_cons, List.not_mem_nil, false_imp_iff, implies_true, and_true]
  obtain ⟨e, he⟩ : ∃ e, (n + 719468) / 146097 = e := ⟨_, rfl⟩
  obtain ⟨d, hd⟩ : ∃ d, n + 719468 - e * 146097 = d := ⟨_, rfl⟩
  have hdrange : 0 ≤ d ∧ d < 146097 := by omega
  obtain ⟨y, hy⟩ : ∃ y, (d - d / 1460 + d / 36524 - d / 146096) / 365 = y := ⟨_, rfl⟩
  have hyrange : 0 ≤ y ∧ y < 402 := by omega
  obtain ⟨o, ho⟩ : ∃ o, d - (365 * y + y / 4 - y / 100) = o := ⟨_, rfl⟩
  have horange : -200000 < o ∧ o < 200000 := by omega
  rw [he, hd, hy, ho]
  omega

end Machine

section Days

/-- 1970-01-01 -/
def epoch : Civil := .newYear 1970

variable {jiff : Jiff}

theorem unixDaysFromDate_injective : Function.Injective unixDaysFromDate := by
  intro d e h
  rw [unixDaysFromDate_eq, unixDaysFromDate_eq] at h
  exact Civil.dayNumber_injective (by omega)

theorem unixDaysFromDate_iterate_next (d : Civil) (n : ℕ) :
    unixDaysFromDate (Civil.next^[n] d) = unixDaysFromDate d + n := by
  rw [unixDaysFromDate_eq, unixDaysFromDate_eq, Civil.dayNumber_iterate_next]
  omega

theorem exists_unixDays (n : ℤ) : ∃ d, unixDaysFromDate d = n := by
  refine ⟨Civil.ofDayNumber (n + daysFromYearOneToEpoch), ?_⟩
  rw [unixDaysFromDate_eq, Civil.dayNumber_ofDayNumber, add_sub_cancel_right]

theorem civilFromUnixDays_eq_iff {n : ℤ} {d : Civil} :
    civilFromUnixDays n = (d.year, (d.month : ℤ), (d.day : ℤ)) ↔ unixDaysFromDate d = n := by
  obtain ⟨e, rfl⟩ := exists_unixDays n
  rw [civilFromUnixDays_unixDaysFromDate]
  constructor
  · intro h
    simp only [Prod.mk.injEq, Int.natCast_inj] at h
    rw [Civil.ext h.1 h.2.1 h.2.2]
  · intro h
    rw [unixDaysFromDate_injective h]

theorem daysFromDate_eq_some {date : jiff.Date} {days : UInt32} :
    jiff.daysFromDate date = some days ↔ (jiff.civil date).dayNumber = days.toNat := by
  rw [daysFromDate, toU32_eq_some, unixDaysFromDate_eq, sub_add_cancel]

theorem dateFromDays_eq_some (hg : jiff.Gregorian) {date : jiff.Date} {days : UInt32} :
    jiff.dateFromDays days = some date ↔ (jiff.civil date).dayNumber = days.toNat := by
  rw [dateFromDays, dateFromUnixDays_eq_some hg, sub_add_cancel]

end Days

/-- The day arithmetic is the calendar. -/
structure CountsDays (jiff : Jiff) : Prop where
  /-- 1970-01-01 has the number 0, and every date one more than the date before it. -/
  origin : unixDaysFromDate epoch = 0
  next (d : Civil) : unixDaysFromDate d.next = unixDaysFromDate d + 1
  /-- Every date is found by so many steps from 1970-01-01, or finds it. -/
  after (d : Civil) : 0 ≤ unixDaysFromDate d → Civil.next^[(unixDaysFromDate d).toNat] epoch = d
  before (d : Civil) : unixDaysFromDate d ≤ 0 → Civil.next^[(-unixDaysFromDate d).toNat] d = epoch
  /-- Every number gives a valid date, the one that has this number. -/
  valid (n : ℤ) : ∃ d : Civil, civilFromUnixDays n = (d.year, (d.month : ℤ), (d.day : ℤ))
  inverse (n : ℤ) (d : Civil) :
    civilFromUnixDays n = (d.year, (d.month : ℤ), (d.day : ℤ)) ↔ unixDaysFromDate d = n
  /-- The dates from 0001-01-01 to 9999-12-31 and the numbers up to 3652058 are mapped onto
  each other, in their order. -/
  encodes (date : jiff.Date) : 1 ≤ (jiff.civil date).year ∧ (jiff.civil date).year ≤ 9999 → ∃ days : UInt32,
    days.toNat ≤ 3652058 ∧ jiff.daysFromDate date = some days ∧ jiff.dateFromDays days = some date
  decodes (days : UInt32) : days.toNat ≤ 3652058 → ∃ date,
    (1 ≤ (jiff.civil date).year ∧ (jiff.civil date).year ≤ 9999) ∧ jiff.dateFromDays days = some date ∧
      jiff.daysFromDate date = some days
  ordered (date date' : jiff.Date) (days days' : UInt32) : jiff.daysFromDate date = some days →
    jiff.daysFromDate date' = some days' → (days < days' ↔ (jiff.civil date).Before (jiff.civil date'))
  /-- In 64 bits no step overflows, unless the first addition does. -/
  no_overflow (n : ℤ) : FitsI64 n → n + 719468 < 9223372036854775808 → ∀ value ∈ civilSteps n, FitsI64 value
  no_overflow_date (date : jiff.Date) :
    ∀ value ∈ unixDaysSteps (jiff.civil date).year (jiff.civil date).month (jiff.civil date).day, FitsI64 value

theorem counts_days {jiff : Jiff} (hg : jiff.Gregorian) : jiff.CountsDays where
  origin := by decide
  next d := unixDaysFromDate_iterate_next d 1
  after d h := by
    have horigin : unixDaysFromDate epoch = 0 := by decide
    apply unixDaysFromDate_injective
    rw [unixDaysFromDate_iterate_next, horigin]
    omega
  before d h := by
    have horigin : unixDaysFromDate epoch = 0 := by decide
    apply unixDaysFromDate_injective
    rw [unixDaysFromDate_iterate_next, horigin]
    omega
  valid n := by
    obtain ⟨d, hd⟩ := exists_unixDays n
    exact ⟨d, civilFromUnixDays_eq_iff.mpr hd⟩
  inverse n d := civilFromUnixDays_eq_iff
  encodes date h := by
    obtain ⟨hlo, hhi⟩ := (dayNumber_mem_iff _).mpr h
    unfold lastDay at hhi
    have hdays : (jiff.civil date).dayNumber = (UInt32.ofNat (jiff.civil date).dayNumber.toNat).toNat := by
      rw [UInt32.toNat_ofNat', Nat.mod_eq_of_lt (by omega)]
      omega
    exact ⟨_, by omega, daysFromDate_eq_some.mpr hdays, (dateFromDays_eq_some hg).mpr hdays⟩
  decodes days h := by
    have hyears := ofDayNumber_year_mem (Int.natCast_nonneg days.toNat) (by unfold lastDay; omega)
    obtain ⟨date, hdate⟩ := hg.exists_date (Civil.ofDayNumber days.toNat) (by omega) hyears.2
    have hdays : (jiff.civil date).dayNumber = days.toNat := by
      rw [hdate, Civil.dayNumber_ofDayNumber]
    exact ⟨date, hdate ▸ hyears, (dateFromDays_eq_some hg).mpr hdays, daysFromDate_eq_some.mpr hdays⟩
  ordered date date' days days' h h' := by
    rw [← Civil.dayNumber_lt_iff, daysFromDate_eq_some.mp h, daysFromDate_eq_some.mp h', UInt32.lt_iff_toNat_lt]
    omega
  no_overflow n := civilSteps_fit
  no_overflow_date date := by
    have hyear := hg.civil_year date
    have hmonth := (jiff.civil date).month_le
    have hday := (jiff.civil date).day_le_thirtyOne
    exact unixDaysSteps_fit (by omega) (by omega) (by omega)

theorem calendar_counts_days : calendar.CountsDays := counts_days calendar_gregorian

end SqlxMssql.Jiff
