import SqlxMssql.Temporal.Chrono

/-! # The range of the `chrono` integration

The encoder counts the days of a date from 1970-01-01 with their sign, the decoder adds an
unsigned number of days to it. They meet from 1970 on.
-/
namespace SqlxMssql.Chrono
open Utf8 ProlepticCalendar

section Parts
variable {chrono : Chrono}

theorem exists_day (hg : chrono.Gregorian) {n : ℤ} (hfrom : 0 ≤ n) (hto : n ≤ lastDay) :
    ∃ date, chrono.civil date = Civil.ofDayNumber n ∧ (chrono.civil date).dayNumber = n := by
  obtain ⟨hfirst, hlast⟩ := ofDayNumber_year_mem hfrom hto
  obtain ⟨date, hdate⟩ := hg.exists_date (Civil.ofDayNumber n) hfirst hlast
  exact ⟨date, hdate, hdate ▸ Civil.dayNumber_ofDayNumber n⟩

theorem exists_fromYmdOpt (hg : chrono.Gregorian) {n : ℤ} (hfrom : 0 ≤ n) (hto : n ≤ lastDay) :
    ∃ date, chrono.fromYmdOpt (Civil.ofDayNumber n).year (Civil.ofDayNumber n).month (Civil.ofDayNumber n).day =
      some date ∧ (chrono.civil date).dayNumber = n := by
  obtain ⟨date, hdate, hday⟩ := exists_day hg hfrom hto
  refine ⟨date, (hg.fromYmdOpt_iff _ _ _ date).mpr ?_, hday⟩
  rw [hdate]
  exact ⟨rfl, rfl, rfl⟩

theorem exists_epoch (hg : chrono.Gregorian) :
    ∃ date, chrono.epoch = some date ∧ (chrono.civil date).dayNumber = 719162 :=
  exists_fromYmdOpt hg (n := 719162) (by decide) (by decide)

theorem dateFromDays_eq_some (hg : chrono.Gregorian) {days : UInt32} {date : chrono.NaiveDate} :
    chrono.dateFromDays days = some date ↔
      719162 ≤ days.toNat ∧ (chrono.civil date).dayNumber = days.toNat := by
  obtain ⟨epoch, hepoch, hday⟩ := exists_epoch hg
  have hrun : chrono.dateFromDays days =
      ((days.toNat : ℤ) - 719162).toNat?.bind (chrono.checkedAddDays epoch) := by
    simp only [dateFromDays, hepoch]
    rfl
  rw [hrun, Option.bind_eq_some_iff]
  constructor
  · rintro ⟨n, hn, hadd⟩
    rw [Int.mem_toNat?] at hn
    rw [hg.checkedAddDays_iff, hday] at hadd
    constructor <;> omega
  · rintro ⟨hle, hdate⟩
    refine ⟨days.toNat - 719162, ?_, ?_⟩
    · rw [Int.mem_toNat?]
      omega
    · rw [hg.checkedAddDays_iff, hday]
      omega

theorem daysFromDate_eq_some (hg : chrono.Gregorian) {date : chrono.NaiveDate} {days : UInt32} :
    chrono.daysFromDate date = some days ↔ (chrono.civil date).dayNumber = days.toNat := by
  obtain ⟨epoch, hepoch, hday⟩ := exists_epoch hg
  have hrun : chrono.daysFromDate date = toU32 (chrono.daysSince date epoch + daysFromYearOneToEpoch) := by
    simp only [daysFromDate, hepoch]
    rfl
  rw [hrun, toU32_eq_some, hg.daysSince_eq, hday]
  unfold daysFromYearOneToEpoch
  omega

theorem exists_timeFromNanos (hk : chrono.Clock) {nanos : ℕ} (h : nanos < 86400000000000) :
    ∃ time, chrono.timeFromNanos nanos = some time ∧
      chrono.numSecondsFromMidnight time = nanos / 1000000000 ∧
      chrono.nanosecond time = nanos % 1000000000 := by
  obtain ⟨time, htime⟩ := Option.isSome_iff_exists.mp
    (hk.fromNumSeconds_isSome (nanos / 1000000000) (nanos % 1000000000) (by omega) (by omega))
  have hseconds : nanos / nanosPerSecond < 4294967296 := by
    unfold nanosPerSecond
    omega
  have hsubsecond : nanos % nanosPerSecond < 4294967296 := by
    unfold nanosPerSecond
    omega
  refine ⟨time, ?_, hk.fromNumSeconds_some _ _ _ htime⟩
  have hrun : chrono.timeFromNanos nanos =
      chrono.fromNumSecondsFromMidnightOpt (UInt32.ofNat (nanos / nanosPerSecond)).toNat
        (UInt32.ofNat (nanos % nanosPerSecond)).toNat := by
    simp only [timeFromNanos, toU32_natCast hseconds, toU32_natCast hsubsecond]
    rfl
  rw [hrun, UInt32.toNat_ofNat_of_lt' hseconds, UInt32.toNat_ofNat_of_lt' hsubsecond]
  exact htime

/-- The seconds are kept, and the nanosecond is cut to the ticks of the server. -/
def TruncatedTo (t u : chrono.NaiveTime) : Prop :=
  chrono.numSecondsFromMidnight u = chrono.numSecondsFromMidnight t ∧
    chrono.nanosecond u = chrono.nanosecond t / 100 * 100

theorem exists_truncated (hk : chrono.Clock) {time : chrono.NaiveTime}
    (h : chrono.nanosecond time < 1000000000) :
    ∃ read, chrono.timeFromNanos (ticksToNanos (chrono.sqlTimeFromTime time).timeNanoseconds) = some read ∧
      TruncatedTo time read := by
  have hseconds := hk.seconds_lt time
  have hticks : (chrono.sqlTimeFromTime time).timeNanoseconds.toNat = chrono.nanosFromTime time / 100 := by
    unfold sqlTimeFromTime nanosToTicks nanosFromTime nanosPerSecond
    rw [UInt64.toNat_ofNat', Nat.mod_eq_of_lt (by omega)]
  have hnanos : chrono.nanosFromTime time < 86400000000000 := by
    unfold nanosFromTime nanosPerSecond
    omega
  rw [ticksToNanos_of_lt (by omega), hticks]
  obtain ⟨read, hread, hs, hn⟩ := exists_timeFromNanos hk
    (show chrono.nanosFromTime time / 100 * 100 < 86400000000000 by omega)
  refine ⟨read, hread, ?_, ?_⟩
  · rw [hs]
    unfold nanosFromTime nanosPerSecond
    omega
  · rw [hn]
    unfold nanosFromTime nanosPerSecond
    omega

end Parts

section RoundTrips
variable {chrono : Chrono}

def DateInRange (date : chrono.NaiveDate) : Prop :=
  1 ≤ (chrono.civil date).year ∧ (chrono.civil date).year ≤ 9999

/-- From 0001-01-01 to 9999-12-31, and not in a leap second. -/
def NaiveDateTime.InRange (v : chrono.NaiveDateTime) : Prop :=
  DateInRange v.date ∧ chrono.nanosecond v.time < 1000000000

/-- The same date, and the time at the resolution of the server. -/
def NaiveDateTime.TruncatedTo (v w : chrono.NaiveDateTime) : Prop :=
  w.date = v.date ∧ Chrono.TruncatedTo v.time w.time

def RoundTrips (tds : TdsValues) (v : chrono.NaiveDateTime) : Prop :=
  ∃ stored w, encodeNaiveDateTime v = .push (.dateTime2 (some stored)) ∧
    decodeNaiveDateTime tds (.dateTime2 stored) = .ok w ∧ v.TruncatedTo w

def UtcRoundTrips (tds : TdsValues) (v : chrono.DateTimeUtc) : Prop :=
  ∃ stored w, encodeDateTimeUtc v = .push (.dateTimeOffset (some stored)) ∧
    decodeDateTimeUtc tds (.dateTimeOffset stored) = .ok w ∧ v.naiveUtc.TruncatedTo w.naiveUtc

def DateDecodes (tds : TdsValues) (date : chrono.NaiveDate) : Prop :=
  decodeNaiveDate tds (.date ⟨UInt32.ofNat (chrono.civil date).dayNumber.toNat⟩) = .ok date

theorem DateInRange.dayNumber {date : chrono.NaiveDate} (h : DateInRange date) :
    ((chrono.civil date).dayNumber : ℤ) =
      (UInt32.ofNat (chrono.civil date).dayNumber.toNat).toNat := by
  obtain ⟨hfrom, hto⟩ := (dayNumber_mem_iff (chrono.civil date)).mpr h
  unfold lastDay at hto
  rw [UInt32.toNat_ofNat', Nat.mod_eq_of_lt (by omega)]
  omega

theorem le_dayNumber_iff (d : Civil) : 719162 ≤ d.dayNumber ↔ 1970 ≤ d.year := by
  have hfrom := d.daysBeforeYear_le_dayNumber
  have hto := d.dayNumber_lt_next_year
  have hepoch : daysBeforeYear 1970 = 719162 := rfl
  constructor
  · intro h
    by_contra hyear
    have := daysBeforeYear_strictMono.monotone (show d.year + 1 ≤ 1970 by omega)
    omega
  · intro h
    have := daysBeforeYear_strictMono.monotone h
    omega

theorem dateFromDays_dayNumber (hg : chrono.Gregorian) {date : chrono.NaiveDate} (h : DateInRange date) :
    chrono.dateFromDays (UInt32.ofNat (chrono.civil date).dayNumber.toNat) = some date ↔
      1970 ≤ (chrono.civil date).year := by
  have hday := h.dayNumber
  rw [dateFromDays_eq_some hg, ← le_dayNumber_iff]
  omega

theorem exists_datetime2 (hg : chrono.Gregorian) {v : chrono.NaiveDateTime} (h : DateInRange v.date) :
    chrono.datetime2FromNaive v =
      some ⟨UInt32.ofNat (chrono.civil v.date).dayNumber.toNat, chrono.sqlTimeFromTime v.time⟩ := by
  have hdays := (daysFromDate_eq_some hg).mpr h.dayNumber
  simp only [datetime2FromNaive, hdays]
  rfl

theorem naive_round_trip_iff (hg : chrono.Gregorian) (hk : chrono.Clock) {v : chrono.NaiveDateTime}
    (hv : v.InRange) :
    (∃ w, chrono.naiveFromDatetime2
        ⟨UInt32.ofNat (chrono.civil v.date).dayNumber.toNat, chrono.sqlTimeFromTime v.time⟩ = some w ∧
      v.TruncatedTo w) ↔ 1970 ≤ (chrono.civil v.date).year := by
  obtain ⟨read, hread, htime⟩ := exists_truncated hk hv.2
  rw [← dateFromDays_dayNumber hg hv.1]
  unfold naiveFromDatetime2
  cases hdate : chrono.dateFromDays (UInt32.ofNat (chrono.civil v.date).dayNumber.toNat) with
  | none => simp
  | some date =>
    simp only [hread]
    constructor
    · rintro ⟨w, hw, hsame, -⟩
      cases hw
      rw [← hsame]
    · intro h
      cases h
      exact ⟨⟨v.date, read⟩, rfl, rfl, htime⟩

theorem roundTrips_iff (hg : chrono.Gregorian) (hk : chrono.Clock) (tds : TdsValues)
    {v : chrono.NaiveDateTime} (hv : v.InRange) :
    RoundTrips tds v ↔ 1970 ≤ (chrono.civil v.date).year := by
  rw [← naive_round_trip_iff hg hk hv]
  unfold RoundTrips encodeNaiveDateTime decodeNaiveDateTime
  simp only [exists_datetime2 hg hv.1, okOrElse_eq_ok]
  constructor
  · rintro ⟨stored, w, hstored, hread, hsame⟩
    have h := Encoding.push_injective hstored
    cases h
    exact ⟨w, hread, hsame⟩
  · rintro ⟨w, hread, hsame⟩
    exact ⟨_, w, rfl, hread, hsame⟩

theorem utcRoundTrips_iff (hg : chrono.Gregorian) (hk : chrono.Clock) (tds : TdsValues)
    {v : chrono.DateTimeUtc} (hv : v.naiveUtc.InRange) :
    UtcRoundTrips tds v ↔ 1970 ≤ (chrono.civil v.naiveUtc.date).year := by
  rw [← naive_round_trip_iff hg hk hv]
  unfold UtcRoundTrips encodeDateTimeUtc decodeDateTimeUtc
  simp only [exists_datetime2 hg hv.1, okOrElse_eq_ok, Option.map_eq_some_iff]
  constructor
  · rintro ⟨stored, w, hstored, ⟨naive, hread, rfl⟩, hsame⟩
    have h := Encoding.push_injective hstored
    cases h
    exact ⟨naive, hread, hsame⟩
  · rintro ⟨w, hread, hsame⟩
    exact ⟨_, ⟨w⟩, rfl, ⟨w, hread, rfl⟩, hsame⟩

theorem dateDecodes_iff (hg : chrono.Gregorian) (tds : TdsValues) {date : chrono.NaiveDate}
    (h : DateInRange date) : DateDecodes tds date ↔ 1970 ≤ (chrono.civil date).year := by
  unfold DateDecodes decodeNaiveDate
  rw [okOrElse_eq_ok]
  exact dateFromDays_dayNumber hg h

/-- The three types round-trip exactly the part of the server's range from 1970 on. -/
theorem round_trips_from_epoch (hg : chrono.Gregorian) (hk : chrono.Clock) (tds : TdsValues) :
    (∀ v : chrono.NaiveDateTime, v.InRange →
      (RoundTrips tds v ↔ 1970 ≤ (chrono.civil v.date).year)) ∧
    (∀ v : chrono.DateTimeUtc, v.naiveUtc.InRange →
      (UtcRoundTrips tds v ↔ 1970 ≤ (chrono.civil v.naiveUtc.date).year)) ∧
    (∀ date : chrono.NaiveDate, DateInRange date →
      (DateDecodes tds date ↔ 1970 ≤ (chrono.civil date).year)) := by
  constructor
  · intro v hv
    exact roundTrips_iff hg hk tds hv
  constructor
  · intro v hv
    exact utcRoundTrips_iff hg hk tds hv
  · intro date hdate
    exact dateDecodes_iff hg tds hdate

def eveOfEpoch : calendar.NaiveDateTime :=
  ⟨⟨Civil.ofDayNumber 719161, by decide⟩, ⟨(86399, 0), by decide⟩⟩

/-- The first second of 1970, with a nanosecond that is not a multiple of 100. -/
def startOfEpoch : calendar.NaiveDateTime :=
  ⟨⟨Civil.ofDayNumber 719162, by decide⟩, ⟨(0, 1234), by decide⟩⟩

theorem startOfEpoch_roundTrips : RoundTrips TdsValues.checked startOfEpoch :=
  ((round_trips_from_epoch calendar_gregorian calendar_clock TdsValues.checked).1 startOfEpoch
    ⟨⟨by decide, by decide⟩, by decide⟩).mpr (by decide)

theorem eveOfEpoch_lost : eveOfEpoch.InRange ∧ ¬ RoundTrips TdsValues.checked eveOfEpoch ∧
    ¬ UtcRoundTrips TdsValues.checked (⟨eveOfEpoch⟩ : calendar.DateTimeUtc) ∧
    ¬ DateDecodes TdsValues.checked eveOfEpoch.date := by
  refine ⟨⟨⟨by decide, by decide⟩, by decide⟩, ?_, ?_, ?_⟩
  · rw [roundTrips_iff calendar_gregorian calendar_clock _ ⟨⟨by decide, by decide⟩, by decide⟩]
    decide
  · rw [utcRoundTrips_iff calendar_gregorian calendar_clock _ ⟨⟨by decide, by decide⟩, by decide⟩]
    decide
  · rw [dateDecodes_iff calendar_gregorian _ ⟨by decide, by decide⟩]
    decide

end RoundTrips

end SqlxMssql.Chrono
