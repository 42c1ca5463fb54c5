import SqlxMssql.Temporal.ChronoRange

/-! # What the `chrono` integration refuses

The encoders promise to refuse what is outside the server's range. The only check is that the
number of days fits a `u32`, and the time is not checked at all.
-/
namespace SqlxMssql.Chrono
open ProlepticCalendar Utf8

/-- A value that the server accepts: up to 9999-12-31, and less than a day of ticks. -/
def Accepted : SqlType → Prop
  | .time (some time) => time.timeNanoseconds.toNat < 864000000000
  | .dateTime2 (some value) => value.InRange
  | .dateTimeOffset (some value) => value.datetime2.InRange
  | _ => False

/-- The encoder fails and leaves the buffer as it is, or it pushes one value that is accepted. -/
def NeverSendsMore (encode : Encoding) : Prop :=
  ∀ buf, (∃ message, encode buf = (.error message, buf)) ∨
    ∃ value, Accepted value ∧ encode buf = (.ok .no, buf ++ [value])

theorem neverSendsMore_fail (message : Text) : NeverSendsMore (.fail message) := fun _ => .inl ⟨message, rfl⟩

theorem neverSendsMore_push {value : SqlType} : NeverSendsMore (.push value) ↔ Accepted value := by
  constructor
  · intro h
    rcases h [] with ⟨message, herror⟩ | ⟨sent, haccepted, hsent⟩
    · cases herror
    · have hvalue := congrArg Prod.snd hsent
      rwa [(List.cons.inj hvalue).1]
  · exact fun haccepted buf => .inr ⟨value, haccepted, rfl⟩

/-- The dates of the crate span about 262,000 years in either direction. -/
structure Years (chrono : Chrono) : Prop where
  year_mem (date : chrono.NaiveDate) : -262143 ≤ (chrono.civil date).year ∧ (chrono.civil date).year ≤ 262142

section Encoders
variable {chrono : Chrono}

/-- The leap second of 23:59:59. -/
def LastLeapSecond (time : chrono.NaiveTime) : Prop :=
  chrono.numSecondsFromMidnight time = 86399 ∧ 1000000000 ≤ chrono.nanosecond time

theorem sqlTimeFromTime_lt_iff (hk : chrono.Clock) (time : chrono.NaiveTime) :
    (chrono.sqlTimeFromTime time).timeNanoseconds.toNat < 864000000000 ↔ ¬ LastLeapSecond time := by
  have hseconds := hk.seconds_lt time
  have hnanos := hk.nanosecond_lt time
  unfold sqlTimeFromTime nanosToTicks nanosFromTime nanosPerSecond LastLeapSecond
  rw [UInt64.toNat_ofNat', Nat.mod_eq_of_lt (by omega)]
  omega

theorem dayNumber_neg_iff (d : Civil) : d.dayNumber < 0 ↔ d.year < 1 := by
  have hfrom := d.daysBeforeYear_le_dayNumber
  have hto := d.dayNumber_lt_next_year
  have hone : daysBeforeYear 1 = 0 := rfl
  constructor
  · intro h
    by_contra hyear
    have := daysBeforeYear_strictMono.monotone (show 1 ≤ d.year by omega)
    omega
  · intro h
    have := daysBeforeYear_strictMono.monotone (show d.year + 1 ≤ 1 by omega)
    omega

theorem dayNumber_lt (hy : chrono.Years) (date : chrono.NaiveDate) : (chrono.civil date).dayNumber < 4294967296 := by
  have hto := (chrono.civil date).dayNumber_lt_next_year
  have hyear := hy.year_mem date
  have hlast := daysBeforeYear_strictMono.monotone (show (chrono.civil date).year + 1 ≤ 262143 by omega)
  have hvalue : daysBeforeYear 262143 = 95745399 := rfl
  omega

/-- Only dates before 0001-01-01 are refused. -/
theorem datetime2FromNaive_cases (hg : chrono.Gregorian) (hy : chrono.Years) (v : chrono.NaiveDateTime) :
    (chrono.civil v.date).year < 1 ∧ chrono.datetime2FromNaive v = none ∨
      1 ≤ (chrono.civil v.date).year ∧ ∃ days : UInt32, (chrono.civil v.date).dayNumber = days.toNat ∧
        chrono.datetime2FromNaive v = some ⟨days, chrono.sqlTimeFromTime v.time⟩ := by
  have hlt := dayNumber_lt hy v.date
  cases hdays : chrono.daysFromDate v.date with
  | none =>
    refine .inl ⟨?_, ?_⟩
    · rw [← dayNumber_neg_iff]
      by_contra hpos
      have hday : (chrono.civil v.date).dayNumber = (UInt32.ofNat (chrono.civil v.date).dayNumber.toNat).toNat := by
        rw [UInt32.toNat_ofNat', Nat.mod_eq_of_lt (by omega)]
        omega
      have hsome := (daysFromDate_eq_some hg).mpr hday
      rw [hdays] at hsome
      cases hsome
    · simp only [datetime2FromNaive, hdays]
      rfl
  | some days =>
    have hday := (daysFromDate_eq_some hg).mp hdays
    refine .inr ⟨?_, days, hday, ?_⟩
    · have hneg := mt (dayNumber_neg_iff (chrono.civil v.date)).mpr
      omega
    · simp only [datetime2FromNaive, hdays]
      rfl

theorem datetime2_inRange_iff (hk : chrono.Clock) {v : chrono.NaiveDateTime} {days : UInt32}
    (hdays : (chrono.civil v.date).dayNumber = days.toNat) :
    SqlDateTime2.InRange ⟨days, chrono.sqlTimeFromTime v.time⟩ ↔
      (chrono.civil v.date).year ≤ 9999 ∧ ¬ LastLeapSecond v.time := by
  have hyear := dayNumber_mem_iff (chrono.civil v.date)
  have hneg := dayNumber_neg_iff (chrono.civil v.date)
  unfold lastDay at hyear
  refine and_congr ?_ (sqlTimeFromTime_lt_iff hk v.time)
  dsimp only
  omega

/-- What the two encoders of a date and time share. -/
theorem neverSendsMore_datetime2 (hg : chrono.Gregorian) (hk : chrono.Clock) (hy : chrono.Years)
    (v : chrono.NaiveDateTime) (message : Text) {send : SqlDateTime2 → SqlType}
    (hsend : ∀ value, Accepted (send value) ↔ value.InRange) :
    NeverSendsMore (match chrono.datetime2FromNaive v with
        | none => .fail message
        | some value => .push (send value)) ↔
      (chrono.civil v.date).year < 1 ∨ (chrono.civil v.date).year ≤ 9999 ∧ ¬ LastLeapSecond v.time := by
  rcases datetime2FromNaive_cases hg hy v with ⟨hyear, hnone⟩ | ⟨hyear, days, hdays, hsome⟩
  · rw [hnone]
    exact iff_of_true (neverSendsMore_fail message) (.inl hyear)
  · rw [hsome]
    dsimp only
    rw [neverSendsMore_push, hsend, datetime2_inRange_iff hk hdays]
    exact ⟨.inr, fun h => h.resolve_left (by omega)⟩

theorem neverSendsMore_naiveTime (hk : chrono.Clock) (time : chrono.NaiveTime) :
    NeverSendsMore (encodeNaiveTime time) ↔ ¬ LastLeapSecond time :=
  neverSendsMore_push.trans (sqlTimeFromTime_lt_iff hk time)

theorem neverSendsMore_naiveDateTime (hg : chrono.Gregorian) (hk : chrono.Clock) (hy : chrono.Years)
    (v : chrono.NaiveDateTime) : NeverSendsMore (encodeNaiveDateTime v) ↔
      (chrono.civil v.date).year < 1 ∨ (chrono.civil v.date).year ≤ 9999 ∧ ¬ LastLeapSecond v.time :=
  neverSendsMore_datetime2 hg hk hy v _ fun _ => Iff.rfl

theorem neverSendsMore_dateTimeUtc (hg : chrono.Gregorian) (hk : chrono.Clock) (hy : chrono.Years)
    (v : chrono.DateTimeUtc) : NeverSendsMore (encodeDateTimeUtc v) ↔
      (chrono.civil v.naiveUtc.date).year < 1 ∨
        (chrono.civil v.naiveUtc.date).year ≤ 9999 ∧ ¬ LastLeapSecond v.naiveUtc.time :=
  neverSendsMore_datetime2 hg hk hy v.naiveUtc _ fun _ => Iff.rfl

end Encoders

/-- A time is sent within its range unless it is the leap second of 23:59:59, and a date with a
time unless it is that or lies behind 9999-12-31. -/
theorem never_sends_more_iff {chrono : Chrono} (hg : chrono.Gregorian) (hk : chrono.Clock) (hy : chrono.Years) :
    (∀ time : chrono.NaiveTime, NeverSendsMore (encodeNaiveTime time) ↔ ¬ LastLeapSecond time) ∧
    (∀ v : chrono.NaiveDateTime, NeverSendsMore (encodeNaiveDateTime v) ↔
      (chrono.civil v.date).year < 1 ∨ (chrono.civil v.date).year ≤ 9999 ∧ ¬ LastLeapSecond v.time) ∧
    ∀ v : chrono.DateTimeUtc, NeverSendsMore (encodeDateTimeUtc v) ↔
      (chrono.civil v.naiveUtc.date).year < 1 ∨
        (chrono.civil v.naiveUtc.date).year ≤ 9999 ∧ ¬ LastLeapSecond v.naiveUtc.time :=
  ⟨neverSendsMore_naiveTime hk, neverSendsMore_naiveDateTime hg hk hy, neverSendsMore_dateTimeUtc hg hk hy⟩

theorem calendar_years : calendar.Years := ⟨Subtype.property⟩

/-- 10000-01-01 00:00:00 -/
def yearTenThousand : calendar.NaiveDateTime := ⟨⟨Civil.ofDayNumber 3652059, by decide⟩, calendar.midnight⟩

/-- 23:59:60 on 2016-12-31 -/
def leapSecond : calendar.NaiveDateTime :=
  ⟨⟨Civil.ofDayNumber 736328, by decide⟩, ⟨(86399, 1000000000), by decide⟩⟩

theorem startOfEpoch_accepted : NeverSendsMore (encodeNaiveDateTime startOfEpoch) :=
  ((never_sends_more_iff calendar_gregorian calendar_clock calendar_years).2.1 startOfEpoch).mpr (.inr (by
    unfold LastLeapSecond
    decide))

theorem yearTenThousand_sent : ¬ NeverSendsMore (encodeNaiveDateTime yearTenThousand) ∧
    ¬ NeverSendsMore (encodeDateTimeUtc (⟨yearTenThousand⟩ : calendar.DateTimeUtc)) ∧
      ¬ NeverSendsMore (encodeNaiveDateTime leapSecond) ∧ ¬ NeverSendsMore (encodeNaiveTime leapSecond.time) := by
  have hleap : LastLeapSecond leapSecond.time := by
    unfold LastLeapSecond
    decide
  have hyear : ¬ ((calendar.civil yearTenThousand.date).year < 1 ∨
      (calendar.civil yearTenThousand.date).year ≤ 9999 ∧ ¬ LastLeapSecond yearTenThousand.time) := by
    rintro (h | ⟨h, -⟩) <;> exact absurd h (by decide)
  have hnaive := neverSendsMore_naiveDateTime calendar_gregorian calendar_clock calendar_years
  refine ⟨mt (hnaive _).mp hyear, ?_, mt (hnaive _).mp ?_, ?_⟩
  · exact mt (neverSendsMore_dateTimeUtc calendar_gregorian calendar_clock calendar_years _).mp hyear
  · rintro (h | ⟨-, h⟩)
    · exact absurd h (by decide)
    · exact h hleap
  · exact mt (neverSendsMore_naiveTime calendar_clock _).mp (not_not_intro hleap)

end SqlxMssql.Chrono
