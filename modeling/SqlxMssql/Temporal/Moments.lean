import SqlxMssql.Types.RustTypes

/-! # Moments

The day and the time of day that a stored value stands for, and the one that a value of a library
stands for. What is read is the moment that is stored, but where an offset is taken off twice.
-/
namespace SqlxMssql
open Utf8 ProlepticCalendar

/-- A day since 0001-01-01 and the nanoseconds in it, without an offset or in UTC. -/
structure Moment where
  day : ℤ
  nanos : ℕ
  deriving DecidableEq, Repr

namespace Moment
variable (m : Moment)

/-- From 0001-01-01 to 9999-12-31, and less than a day of nanoseconds. -/
def InRange : Prop := 0 ≤ m.day ∧ m.day ≤ lastDay ∧ m.nanos < 86400000000000

def unixNanos : ℤ := SqlxMssql.unixNanos m.day m.nanos

def ofUnixNanos (n : ℤ) : Moment := ⟨n / nanosPerDay + daysFromYearOneToEpoch, (n % nanosPerDay).toNat⟩

theorem ofUnixNanos_eq {day : ℤ} {nanos : ℕ} (h : nanos < 86400000000000) :
    ofUnixNanos (SqlxMssql.unixNanos day nanos) = ⟨day, nanos⟩ := by
  have hdiv : SqlxMssql.unixNanos day nanos / nanosPerDay = day - daysFromYearOneToEpoch := by
    unfold SqlxMssql.unixNanos nanosPerDay
    omega
  have hmod : SqlxMssql.unixNanos day nanos % nanosPerDay = nanos := by
    unfold SqlxMssql.unixNanos nanosPerDay
    omega
  rw [ofUnixNanos, hdiv, hmod, sub_add_cancel, Int.toNat_natCast]

theorem unixNanos_ofUnixNanos (n : ℤ) : (ofUnixNanos n).unixNanos = n := by
  have hnanos : 0 ≤ n % nanosPerDay := Int.emod_nonneg n (by decide)
  rw [unixNanos, ofUnixNanos, SqlxMssql.unixNanos, add_sub_cancel_right, Int.toNat_of_nonneg hnanos]
  exact Int.ediv_mul_add_emod n nanosPerDay

end Moment

/-- The ticks are hundreds of nanoseconds. -/
def SqlDateTime2.moment (value : SqlDateTime2) : Moment :=
  ⟨value.days.toNat, value.time.timeNanoseconds.toNat * 100⟩

theorem SqlDateTime2.InRange.ofUnixNanos {value : SqlDateTime2} (h : value.InRange) :
    Moment.ofUnixNanos value.unixNanos = value.moment :=
  Moment.ofUnixNanos_eq (mul_hundred_lt_of_lt h.2)

/-- The moment that a stored date or time stands for. The legacy types count their days from 1900,
and the thirds of a `datetime` are cut to the nanosecond. An instant is stored in UTC, whatever
its offset. -/
def ColumnValues.moment : ColumnValues → Option Moment
  | .date value => some ⟨value.days.toNat, 0⟩
  | .time value => some ⟨0, value.timeNanoseconds.toNat * 100⟩
  | .dateTime value => some ⟨693595 + value.days.toInt, value.time.toNat * nanosPerSecond / 300⟩
  | .smallDateTime value => some ⟨693595 + value.days.toNat, value.time.toNat * 60 * nanosPerSecond⟩
  | .dateTime2 value => some value.moment
  | .dateTimeOffset value => some value.datetime2.moment
  | _ => none

namespace TemporalType
variable (crates : Crates)

/-- The moment that a value stands for. -/
def moment : (type : TemporalType) → type.Value crates → Moment
  | chronoNaiveDate, date => ⟨(crates.chrono.civil date).dayNumber, 0⟩
  | chronoNaiveTime, time => ⟨0, crates.chrono.nanosFromTime time⟩
  | chronoNaiveDateTime, value =>
    ⟨(crates.chrono.civil value.date).dayNumber, crates.chrono.nanosFromTime value.time⟩
  | chronoDateTimeUtc, value =>
    ⟨(crates.chrono.civil value.naiveUtc.date).dayNumber, crates.chrono.nanosFromTime value.naiveUtc.time⟩
  | jiffDate, date => ⟨(crates.jiff.civil date).dayNumber, 0⟩
  | jiffTime, time => ⟨0, (crates.jiff.clock time).nanos⟩
  | jiffDateTime, value => ⟨(crates.jiff.civil value.1).dayNumber, (crates.jiff.clock value.2).nanos⟩
  | jiffTimestamp, timestamp => .ofUnixNanos (crates.jiff.asNanosecond timestamp)
  | timeDate, date => ⟨(crates.time.civil date).dayNumber, 0⟩
  | timeTime, time => ⟨0, (crates.time.clock time).nanos⟩
  | timePrimitiveDateTime, value => ⟨(crates.time.civil value.1).dayNumber, (crates.time.clock value.2).nanos⟩
  | timeOffsetDateTime, value => .ofUnixNanos (crates.time.unixTimestampNanos value)

/-- An offset is taken off a time that is in UTC already. -/
def AppliesOffset : TemporalType → ColumnValues → Prop
  | timeOffsetDateTime, .dateTimeOffset value => value.offset ≠ 0
  | _, _ => False

end TemporalType

/-- A timestamp is read as the date and time of its instant in UTC. -/
structure Jiff.Utc (jiff : Jiff) : Prop where
  utcDatetime_eq (timestamp : jiff.Timestamp) : (Moment.ofUnixNanos (jiff.asNanosecond timestamp)).InRange →
    unixNanos (jiff.civil (jiff.utcDatetime timestamp).1).dayNumber
      (jiff.clock (jiff.utcDatetime timestamp).2).nanos = jiff.asNanosecond timestamp

/-- A value is moved to UTC without changing its instant, and a date and time in UTC is one. -/
structure TimeCrate.Utc (crate : TimeCrate) : Prop where
  toUtc_ok (value : crate.OffsetDateTime) : (Moment.ofUnixNanos (crate.unixTimestampNanos value)).InRange →
    ∃ date time, crate.toUtc value = .ok (date, time) ∧
      unixNanos (crate.civil date).dayNumber (crate.clock time).nanos = crate.unixTimestampNanos value
  assumeUtc_eq (date : crate.Date) (time : crate.Time) :
    crate.unixTimestampNanos (crate.assumeUtc (date, time)) =
      unixNanos (crate.civil date).dayNumber (crate.clock time).nanos

/-- The crates keep dates and times as they document, and the client takes every date of the
server's range. -/
structure Crates.KeepTime (crates : Crates) : Prop where
  createDate (days : UInt32) : days.toNat ≤ 3652058 → crates.values.createDate days = .ok ⟨days⟩
  chrono : crates.chrono.Gregorian
  clock : crates.chrono.Clock
  jiff : crates.jiff.Gregorian
  bounded : crates.jiff.Bounded
  instants : crates.jiff.Instants
  jiffUtc : crates.jiff.Utc
  time : crates.time.Gregorian
  offsets : crates.time.Offsets
  timeUtc : crates.time.Utc

section Read
variable (tds : TdsValues)

namespace Chrono
variable {chrono : Chrono}

theorem nanos_of_timeFromNanos (hk : chrono.Clock) {nanos : ℕ} (hlt : nanos < 86400000000000)
    {time : chrono.NaiveTime} (h : chrono.timeFromNanos nanos = some time) : chrono.nanosFromTime time = nanos := by
  obtain ⟨read, hread, hseconds, hnanosecond⟩ := exists_timeFromNanos hk hlt
  rw [h] at hread
  cases hread
  unfold nanosFromTime nanosPerSecond
  omega

theorem decodeNaiveTime_nanos (hk : chrono.Clock) {stored : SqlTime}
    (hv : (ColumnValues.time stored).InTemporalRange) {time : chrono.NaiveTime}
    (h : decodeNaiveTime tds (.time stored) = .ok time) :
    chrono.nanosFromTime time = stored.timeNanoseconds.toNat * 100 := by
  simp only [decodeNaiveTime, okOrElse_eq_ok, ticksToNanos_of_lt hv] at h
  exact nanos_of_timeFromNanos hk (mul_hundred_lt_of_lt hv) h

def NaiveDateTime.moment (value : chrono.NaiveDateTime) : Moment :=
  ⟨(chrono.civil value.date).dayNumber, chrono.nanosFromTime value.time⟩

theorem moment_of_datetime2 (hg : chrono.Gregorian) (hk : chrono.Clock) {stored : SqlDateTime2}
    (hv : stored.InRange) {value : chrono.NaiveDateTime} (h : chrono.naiveFromDatetime2 stored = some value) :
    value.moment = stored.moment := by
  simp only [naiveFromDatetime2, ticksToNanos_of_lt hv.2, Option.bind_eq_bind, Option.bind_eq_some_iff,
    Option.pure_def, Option.some.injEq] at h
  obtain ⟨date, hdate, time, htime, rfl⟩ := h
  have hday := ((dateFromDays_eq_some hg).mp hdate).2
  have hnanos := nanos_of_timeFromNanos hk (mul_hundred_lt_of_lt hv.2) htime
  rw [NaiveDateTime.moment, hday, hnanos, SqlDateTime2.moment]

theorem moment_of_sqlDateTime (hg : chrono.Gregorian) (hk : chrono.Clock) {stored : SqlDateTime}
    (hv : (ColumnValues.dateTime stored).InTemporalRange) {value : chrono.NaiveDateTime}
    (h : chrono.datetimeFromSqlDateTime stored = some value) :
    (ColumnValues.dateTime stored).moment = some value.moment := by
  obtain ⟨hfrom, hto, hticks⟩ := hv
  obtain ⟨epoch, hepoch, hday⟩ := exists_legacyEpoch hg
  have hlt : stored.time.toNat * nanosPerSecond / 300 < 86400000000000 := by
    unfold nanosPerSecond
    omega
  simp only [datetimeFromSqlDateTime, hepoch, Option.bind_eq_bind, Option.bind_some, Option.pure_def] at h
  have hread : ∃ date, (chrono.civil date).dayNumber = 693595 + stored.days.toInt ∧
      ((chrono.timeFromNanos (stored.time.toNat * nanosPerSecond / 300)).bind fun time => some ⟨date, time⟩) =
        some value := by
    split at h
    · obtain ⟨n, hn, h⟩ := Option.bind_eq_some_iff.mp h
      obtain ⟨date, hadd, h⟩ := Option.bind_eq_some_iff.mp h
      have hcount := (hg.checkedAddDays_iff _ _ _).mp hadd
      have hn' := Int.mem_toNat?.mp hn
      exact ⟨date, by omega, h⟩
    · obtain ⟨n, hn, h⟩ := Option.bind_eq_some_iff.mp h
      obtain ⟨date, hsub, h⟩ := Option.bind_eq_some_iff.mp h
      have hcount := (hg.checkedSubDays_iff _ _ _).mp hsub
      have hn' := Int.mem_toNat?.mp hn
      -- the least day count is far from the least `i32`, which alone has no negation
      have hneg : (-stored.days).toInt = -stored.days.toInt := by
        rw [Int32.toInt_neg, Int.bmod_eq_of_le] <;> omega
      exact ⟨date, by omega, h⟩
  obtain ⟨date, hdays, h⟩ := hread
  simp only [Option.bind_eq_some_iff, Option.some.injEq] at h
  obtain ⟨time, htime, rfl⟩ := h
  rw [ColumnValues.moment, NaiveDateTime.moment, hdays, nanos_of_timeFromNanos hk hlt htime]

theorem moment_of_smallDateTime (hg : chrono.Gregorian) (hk : chrono.Clock) {stored : SqlSmallDateTime}
    {value : chrono.NaiveDateTime} (h : chrono.datetimeFromSmallDateTime stored = some value) :
    (ColumnValues.smallDateTime stored).moment = some value.moment := by
  obtain ⟨epoch, hepoch, hday⟩ := exists_legacyEpoch hg
  simp only [datetimeFromSmallDateTime, hepoch, Option.bind_eq_bind, Option.bind_some, Option.bind_eq_some_iff,
    Option.pure_def, Option.some.injEq] at h
  obtain ⟨date, hdate, time, htime, rfl⟩ := h
  have hcount := (hg.checkedAddDays_iff _ _ _).mp hdate
  obtain ⟨hseconds, hnanosecond⟩ := hk.fromNumSeconds_some _ _ _ htime
  have hdays : (chrono.civil date).dayNumber = 693595 + stored.days.toNat := by omega
  rw [ColumnValues.moment, NaiveDateTime.moment, hdays, nanosFromTime, hseconds, hnanosecond, Nat.add_zero]

/-- What is read from a value that the date and time types claim. -/
theorem decodeNaiveDateTime_moment (hg : chrono.Gregorian) (hk : chrono.Clock) {stored : ColumnValues}
    (hv : stored.InTemporalRange) (hclaimed : (∃ v, stored = .dateTime v) ∨ (∃ v, stored = .smallDateTime v) ∨
      ∃ v, stored = .dateTime2 v) {value : chrono.NaiveDateTime} (h : decodeNaiveDateTime tds stored = .ok value) :
    stored.moment = some value.moment := by
  obtain ⟨v, rfl⟩ | ⟨v, rfl⟩ | ⟨v, rfl⟩ := hclaimed
  · exact moment_of_sqlDateTime hg hk hv (okOrElse_eq_ok.mp h)
  · exact moment_of_smallDateTime hg hk (okOrElse_eq_ok.mp h)
  · exact congrArg some (moment_of_datetime2 hg hk hv (okOrElse_eq_ok.mp h)).symm

end Chrono

namespace Jiff
variable {jiff : Jiff}

theorem decodeTime_nanos (hg : jiff.Gregorian) {stored : SqlTime}
    (hv : (ColumnValues.time stored).InTemporalRange) {time : jiff.Time}
    (h : decodeTime tds (.time stored) = .ok time) :
    (jiff.clock time).nanos = stored.timeNanoseconds.toNat * 100 := by
  simp only [decodeTime, okOrElse_eq_ok, ticksToNanos_of_lt hv] at h
  exact (timeFromNanos_eq_some hg).mp h

theorem moment_of_datetime2 (hg : jiff.Gregorian) {stored : SqlDateTime2} (hv : stored.InRange)
    {value : jiff.DateTime} (h : jiff.civilFromDatetime2 stored = some value) :
    (⟨(jiff.civil value.1).dayNumber, (jiff.clock value.2).nanos⟩ : Moment) = stored.moment := by
  simp only [civilFromDatetime2, ticksToNanos_of_lt hv.2, Option.bind_eq_bind, Option.bind_eq_some_iff,
    hg.dateTimeNew_eq, Option.some.injEq] at h
  obtain ⟨date, hdate, time, htime, rfl⟩ := h
  rw [(dateFromDays_eq_some hg).mp hdate, (timeFromNanos_eq_some hg).mp htime, SqlDateTime2.moment]

theorem moment_of_timestamp (hg : jiff.Gregorian) (hi : jiff.Instants) {stored : SqlDateTime2}
    (hv : stored.InRange) {timestamp : jiff.Timestamp} (h : jiff.timestampFromDatetime2 stored = some timestamp) :
    Moment.ofUnixNanos (jiff.asNanosecond timestamp) = stored.moment := by
  rw [timestampFromDatetime2_unixNanos hg hi hv h, hv.ofUnixNanos]

end Jiff

namespace TimeCrate
variable {crate : TimeCrate}

theorem decodeTime_nanos (hg : crate.Gregorian) {stored : SqlTime}
    (hv : (ColumnValues.time stored).InTemporalRange) {time : crate.Time}
    (h : decodeTime tds (.time stored) = .ok time) :
    (crate.clock time).nanos = stored.timeNanoseconds.toNat * 100 := by
  simp only [decodeTime, okOrElse_eq_ok, ticksToNanos_of_lt hv] at h
  exact (timeFromNanos_eq_some hg).mp h

theorem moment_of_datetime2 (hg : crate.Gregorian) {stored : SqlDateTime2} (hv : stored.InRange)
    {value : crate.PrimitiveDateTime} (h : crate.primitiveFromDatetime2 stored = some value) :
    (⟨(crate.civil value.1).dayNumber, (crate.clock value.2).nanos⟩ : Moment) = stored.moment := by
  simp only [primitiveFromDatetime2, ticksToNanos_of_lt hv.2, Option.bind_eq_bind, Option.bind_eq_some_iff,
    Option.pure_def, Option.some.injEq] at h
  obtain ⟨date, hdate, time, htime, rfl⟩ := h
  rw [(dateFromDays_eq_some hg).mp hdate, (timeFromNanos_eq_some hg).mp htime, SqlDateTime2.moment]

theorem moment_of_utc (hg : crate.Gregorian) (hu : crate.Utc) {stored : SqlDateTime2} (hv : stored.InRange)
    {value : crate.PrimitiveDateTime} (h : crate.primitiveFromDatetime2 stored = some value) :
    Moment.ofUnixNanos (crate.unixTimestampNanos (crate.assumeUtc value)) = stored.moment := by
  have hmoment := moment_of_datetime2 hg hv h
  obtain ⟨date, time⟩ := value
  rw [hu.assumeUtc_eq, Moment.ofUnixNanos_eq (TimeOfDay.nanos_lt _)]
  exact hmoment

/-- The offset is taken off the stored time, and it has to be zero. -/
theorem moment_of_offset_iff (hg : crate.Gregorian) (ho : crate.Offsets) {stored : SqlDateTimeOffset}
    (hv : stored.datetime2.InRange) (hoffset : -840 ≤ stored.offset.toInt ∧ stored.offset.toInt ≤ 840)
    {value : crate.OffsetDateTime} (h : decodeOffsetDateTime tds (.dateTimeOffset stored) = .ok value) :
    stored.datetime2.moment = Moment.ofUnixNanos (crate.unixTimestampNanos value) ↔ stored.offset = 0 := by
  obtain ⟨read, hread, hnanos⟩ := exists_offsetDateTime hg ho tds hv hoffset
  rw [h] at hread
  cases hread
  have hzero : stored.offset = 0 ↔ stored.offset.toInt = 0 := by
    rw [← Int16.toInt_inj]
    exact Iff.rfl
  rw [hzero, ← hv.ofUnixNanos]
  constructor
  · intro hsame
    have hunix := congrArg Moment.unixNanos hsame
    rw [Moment.unixNanos_ofUnixNanos, Moment.unixNanos_ofUnixNanos] at hunix
    omega
  · intro hnone
    rw [hnanos, hnone, zero_mul, zero_mul, sub_zero]

end TimeCrate

variable {crates : Crates}

/-- A date or time that is read is the moment that is stored, but for an instant that its offset
is taken off twice. -/
theorem TemporalType.decode_moment_iff (h : crates.KeepTime) {ty : MssqlTypeInfo} {value : ColumnValues}
    {type : TemporalType} (hty : type.compatible ty) (hv : ty.Holds value) (hr : value.InTemporalRange)
    {read : type.Value crates} (hread : type.decode crates value = .ok read) :
    value.moment = some (type.moment crates read) ↔ ¬ type.AppliesOffset value := by
  cases type with
  | chronoNaiveDate =>
    obtain ⟨v, rfl⟩ := exists_date_of_holds hv hty
    have hday := ((Chrono.dateFromDays_eq_some h.chrono).mp (okOrElse_eq_ok.mp hread)).2
    exact iff_of_true (by rw [ColumnValues.moment, moment, hday]) id
  | jiffDate =>
    obtain ⟨v, rfl⟩ := exists_date_of_holds hv hty
    have hday := (Jiff.dateFromDays_eq_some h.jiff).mp (okOrElse_eq_ok.mp hread)
    exact iff_of_true (by rw [ColumnValues.moment, moment, hday]) id
  | timeDate =>
    obtain ⟨v, rfl⟩ := exists_date_of_holds hv hty
    have hday := (TimeCrate.dateFromDays_eq_some h.time).mp (okOrElse_eq_ok.mp hread)
    exact iff_of_true (by rw [ColumnValues.moment, moment, hday]) id
  | chronoNaiveTime =>
    obtain ⟨v, rfl⟩ := exists_time_of_holds hv hty
    have hnanos := Chrono.decodeNaiveTime_nanos crates.values h.clock hr hread
    exact iff_of_true (congrArg (fun nanos => some (Moment.mk 0 nanos)) hnanos.symm) id
  | jiffTime =>
    obtain ⟨v, rfl⟩ := exists_time_of_holds hv hty
    have hnanos := Jiff.decodeTime_nanos crates.values h.jiff hr hread
    exact iff_of_true (congrArg (fun nanos => some (Moment.mk 0 nanos)) hnanos.symm) id
  | timeTime =>
    obtain ⟨v, rfl⟩ := exists_time_of_holds hv hty
    have hnanos := TimeCrate.decodeTime_nanos crates.values h.time hr hread
    exact iff_of_true (congrArg (fun nanos => some (Moment.mk 0 nanos)) hnanos.symm) id
  | chronoNaiveDateTime =>
    have hclaimed := exists_datetime_of_holds hv hty
    have hmoment := Chrono.decodeNaiveDateTime_moment crates.values h.chrono h.clock hr hclaimed hread
    exact iff_of_true hmoment id
  | jiffDateTime =>
    obtain ⟨v, rfl⟩ | ⟨v, rfl⟩ | ⟨v, rfl⟩ := exists_datetime_of_holds hv hty
    · exact absurd ⟨read, hread⟩ (cannotDecode_ne_ok _ _ _)
    · exact absurd ⟨read, hread⟩ (cannotDecode_ne_ok _ _ _)
    · exact iff_of_true (congrArg some (Jiff.moment_of_datetime2 h.jiff hr (okOrElse_eq_ok.mp hread)).symm) id
  | timePrimitiveDateTime =>
    obtain ⟨v, rfl⟩ | ⟨v, rfl⟩ | ⟨v, rfl⟩ := exists_datetime_of_holds hv hty
    · exact absurd ⟨read, hread⟩ (cannotDecode_ne_ok _ _ _)
    · exact absurd ⟨read, hread⟩ (cannotDecode_ne_ok _ _ _)
    · exact iff_of_true (congrArg some (TimeCrate.moment_of_datetime2 h.time hr (okOrElse_eq_ok.mp hread)).symm) id
  | chronoDateTimeUtc =>
    refine iff_of_true ?_ id
    rcases Bool.or_eq_true_iff.mp hty with hnaive | hoffset
    · obtain ⟨v, rfl⟩ | ⟨v, rfl⟩ | ⟨v, rfl⟩ := exists_datetime_of_holds hv hnaive
      all_goals
        obtain ⟨naive, hnaive, rfl⟩ := Option.map_eq_some_iff.mp (okOrElse_eq_ok.mp hread)
      · exact Chrono.moment_of_sqlDateTime h.chrono h.clock hr hnaive
      · exact Chrono.moment_of_smallDateTime h.chrono h.clock hnaive
      · exact congrArg some (Chrono.moment_of_datetime2 h.chrono h.clock hr hnaive).symm
    · obtain ⟨v, rfl, -⟩ := exists_offset_of_holds hv hoffset
      obtain ⟨naive, hnaive, rfl⟩ := Option.map_eq_some_iff.mp (okOrElse_eq_ok.mp hread)
      exact congrArg some (Chrono.moment_of_datetime2 h.chrono h.clock hr hnaive).symm
  | jiffTimestamp =>
    refine iff_of_true ?_ id
    rcases Bool.or_eq_true_iff.mp hty with hnaive | hoffset
    · obtain ⟨v, rfl⟩ | ⟨v, rfl⟩ | ⟨v, rfl⟩ := exists_datetime_of_holds hv hnaive
      · exact absurd ⟨read, hread⟩ (cannotDecode_ne_ok _ _ _)
      · exact absurd ⟨read, hread⟩ (cannotDecode_ne_ok _ _ _)
      · exact congrArg some (Jiff.moment_of_timestamp h.jiff h.instants hr (okOrElse_eq_ok.mp hread)).symm
    · obtain ⟨v, rfl, -⟩ := exists_offset_of_holds hv hoffset
      exact congrArg some (Jiff.moment_of_timestamp h.jiff h.instants hr (okOrElse_eq_ok.mp hread)).symm
  | timeOffsetDateTime =>
    rcases Bool.or_eq_true_iff.mp hty with hnaive | hoffset
    · obtain ⟨v, rfl⟩ | ⟨v, rfl⟩ | ⟨v, rfl⟩ := exists_datetime_of_holds hv hnaive
      · exact absurd ⟨read, hread⟩ (cannotDecode_ne_ok _ _ _)
      · exact absurd ⟨read, hread⟩ (cannotDecode_ne_ok _ _ _)
      · obtain ⟨naive, hnaive, rfl⟩ := Option.map_eq_some_iff.mp (okOrElse_eq_ok.mp hread)
        exact iff_of_true (congrArg some (TimeCrate.moment_of_utc h.time h.timeUtc hr hnaive).symm) id
    · obtain ⟨v, rfl, hbounds⟩ := exists_offset_of_holds hv hoffset
      rw [AppliesOffset, not_not, ← TimeCrate.moment_of_offset_iff crates.values h.time h.offsets hr hbounds hread]
      exact Option.some_inj

end Read

section Calendar

theorem nanos_ofInstant (n : ℤ) : (TimeOfDay.ofInstant n).nanos = (n % nanosPerDay).toNat :=
  TimeOfDay.nanos_ofNanos _

/-- The date of a day in the server's range. -/
theorem exists_dateIn (day : ℤ) (hfrom : 0 ≤ day) (hto : day ≤ lastDay) :
    ∃ date : CivilIn (-9999) 9999, CivilIn.ofCivil (Civil.ofDayNumber day) = some date ∧ date.val.dayNumber = day := by
  obtain ⟨hfirst, hlast⟩ := ofDayNumber_year_mem hfrom hto
  exact ⟨⟨_, le_trans (by decide) hfirst, hlast⟩, CivilIn.ofCivil_eq_some.mpr rfl, Civil.dayNumber_ofDayNumber day⟩

theorem Jiff.calendar_utc : Jiff.calendar.Utc where
  utcDatetime_eq (timestamp : ℤ) h := by
    obtain ⟨date, hdate, hday⟩ := exists_dateIn (timestamp / nanosPerDay + daysFromYearOneToEpoch) h.1 h.2.1
    simp only [calendar, hdate, Option.getD_some, id, nanos_ofInstant, hday]
    unfold unixNanos nanosPerDay
    omega

theorem TimeCrate.calendar_utc : TimeCrate.calendar.Utc where
  toUtc_ok value h := by
    obtain ⟨⟨date, time⟩, offset⟩ := value
    let nanos : ℤ := time.nanos - offset * 1000000000
    have hmoment : Moment.ofUnixNanos (unixNanos date.val.dayNumber time.nanos - offset * 1000000000) =
        ⟨date.val.dayNumber + nanos / nanosPerDay, (nanos % nanosPerDay).toNat⟩ := by
      simp only [Moment.ofUnixNanos, nanos, unixNanos, nanosPerDay, Moment.mk.injEq]
      omega
    have hrange : (Moment.ofUnixNanos (unixNanos date.val.dayNumber time.nanos - offset * 1000000000)).InRange := h
    rw [hmoment] at hrange
    obtain ⟨utc, hutc, hday⟩ := exists_dateIn _ hrange.1 hrange.2.1
    have hadd : date.addDays (nanos / nanosPerDay) = some utc := hutc
    refine ⟨utc, TimeOfDay.ofInstant nanos, ?_, ?_⟩
    · simp only [calendar, nanos] at hadd ⊢
      rw [hadd]
      rfl
    · have hnanos := nanos_ofInstant nanos
      simp only [calendar, id, hday, hnanos, nanos]
      unfold unixNanos nanosPerDay
      omega
  assumeUtc_eq date time := by
    simp only [calendar, zero_mul, sub_zero, id]

theorem Crates.calendar_keepTime : Crates.calendar.KeepTime where
  createDate _ h := if_pos (UInt32.le_iff_toNat_le.mpr h)
  chrono := Chrono.calendar_gregorian
  clock := Chrono.calendar_clock
  jiff := Jiff.calendar_gregorian
  bounded := Jiff.calendar_bounded
  instants := Jiff.calendar_instants
  jiffUtc := Jiff.calendar_utc
  time := TimeCrate.calendar_gregorian
  offsets := TimeCrate.calendar_offsets
  timeUtc := TimeCrate.calendar_utc

end Calendar

end SqlxMssql
