import SqlxMssql.Temporal.Moments
import SqlxMssql.Temporal.TimesOfDay
import SqlxMssql.Types.Arguments

/-! # Dates and times between the libraries

What one library writes another may read. All of them write the same parameter for the same
moment, and read it as that moment at the resolution of the server.
-/
namespace SqlxMssql
open Utf8 ProlepticCalendar

namespace Moment
variable (m : Moment)

/-- At the resolution of the server. -/
def truncate : Moment := ⟨m.day, m.nanos / 100 * 100⟩

def date : SqlDate := ⟨UInt32.ofNat m.day.toNat⟩
def time : SqlTime := ⟨UInt64.ofNat (m.nanos / 100), 7⟩
def datetime2 : SqlDateTime2 := ⟨m.date.days, m.time⟩

variable {m}

theorem InRange.days (h : m.InRange) : (m.date.days.toNat : ℤ) = m.day := by
  obtain ⟨hfrom, hto, -⟩ := h
  unfold lastDay at hto
  rw [date, UInt32.toNat_ofNat', Nat.mod_eq_of_lt (by omega)]
  omega

theorem InRange.ticks (h : m.InRange) : m.time.timeNanoseconds.toNat = m.nanos / 100 := by
  have hlt : m.nanos / 100 < 864000000000 := Nat.div_lt_of_lt_mul h.2.2
  exact UInt64.toNat_ofNat_of_lt' (hlt.trans (by decide))

theorem InRange.datetime2 (h : m.InRange) : m.datetime2.InRange := by
  have hdays := h.days
  have hticks := h.ticks
  obtain ⟨-, hto, hnanos⟩ := h
  unfold lastDay at hto
  constructor
  · change m.date.days.toNat ≤ 3652058
    omega
  · change m.time.timeNanoseconds.toNat < 864000000000
    omega

theorem InRange.truncate (h : m.InRange) : m.truncate.InRange := by
  refine ⟨h.1, h.2.1, ?_⟩
  change m.nanos / 100 * 100 < 86400000000000
  have hnanos := h.2.2
  omega

theorem InRange.datetime2_unixNanos (h : m.InRange) : m.datetime2.unixNanos = m.truncate.unixNanos := by
  have hticks : m.datetime2.time.timeNanoseconds.toNat = m.nanos / 100 := h.ticks
  have hdays : (m.datetime2.days.toNat : ℤ) = m.day := h.days
  rw [SqlDateTime2.unixNanos, hticks, hdays]
  rfl

end Moment

inductive TemporalKind where
  | date
  | time
  | datetime
  | instant
  deriving DecidableEq, Repr

namespace TemporalKind

/-- The type that the server has for the kind. -/
def typeInfo : TemporalKind → MssqlTypeInfo
  | date => .date
  | time => .time
  | datetime => .datetime2
  | instant => .datetimeoffset

/-- The parameter of a moment. An instant is written in UTC. -/
def parameter (m : Moment) : TemporalKind → SqlType
  | date => .date (some m.date)
  | time => .time (some m.time)
  | datetime => .dateTime2 (some m.datetime2)
  | instant => .dateTimeOffset (some ⟨m.datetime2, 0⟩)

/-- What the kind keeps of a moment: of a date the day alone, of a time the nanoseconds alone. -/
def keeps (m : Moment) : TemporalKind → Moment
  | date => ⟨m.day, 0⟩
  | time => ⟨0, m.nanos⟩
  | datetime | instant => m

end TemporalKind

namespace TemporalType

def kind : TemporalType → TemporalKind
  | chronoNaiveDate | jiffDate | timeDate => .date
  | chronoNaiveTime | jiffTime | timeTime => .time
  | chronoNaiveDateTime | jiffDateTime | timePrimitiveDateTime => .datetime
  | chronoDateTimeUtc | jiffTimestamp | timeOffsetDateTime => .instant

theorem typeInfo_eq (type : TemporalType) : type.typeInfo = type.kind.typeInfo := by
  cases type <;> rfl

end TemporalType

section Written
variable {m : Moment}

theorem Chrono.datetime2_of_moment {chrono : Chrono} (hg : chrono.Gregorian) {value : chrono.NaiveDateTime}
    (hday : (chrono.civil value.date).dayNumber = m.day) (hnanos : chrono.nanosFromTime value.time = m.nanos)
    (hm : m.InRange) : chrono.datetime2FromNaive value = some m.datetime2 := by
  have hdays : chrono.daysFromDate value.date = some m.date.days :=
    (daysFromDate_eq_some hg).mpr (hday.trans hm.days.symm)
  have htime : chrono.sqlTimeFromTime value.time = m.time := by
    rw [sqlTimeFromTime, hnanos]
    rfl
  rw [datetime2FromNaive, hdays, htime]
  rfl

theorem Jiff.datetime2_of_moment {jiff : Jiff} {value : jiff.DateTime}
    (hday : (jiff.civil value.1).dayNumber = m.day) (hnanos : (jiff.clock value.2).nanos = m.nanos)
    (hm : m.InRange) : jiff.datetime2FromCivil value = some m.datetime2 := by
  have hdays : jiff.daysFromDate value.1 = some m.date.days :=
    daysFromDate_eq_some.mpr (hday.trans hm.days.symm)
  have htime : jiff.sqlTimeFromTime value.2 = some m.time := by
    rw [sqlTimeFromTime_eq, ticksOf, hnanos]
    rfl
  rw [datetime2FromCivil, hdays, htime]
  rfl

theorem TimeCrate.daysFromDate_eq_some {crate : TimeCrate} (hg : crate.Gregorian) {date : crate.Date}
    {days : UInt32} : crate.daysFromDate date = some days ↔ (crate.civil date).dayNumber = days.toNat := by
  obtain ⟨epoch, hepoch, hday⟩ := exists_epoch hg
  have hrun : crate.daysFromDate date = toU32 (crate.daysSince date epoch + daysFromYearOneToEpoch) := by
    rw [daysFromDate, hepoch]
    rfl
  rw [hrun, toU32_eq_some, hg.daysSince_eq, hday, sub_add_cancel]

theorem TimeCrate.datetime2_of_moment {crate : TimeCrate} (hg : crate.Gregorian) {value : crate.PrimitiveDateTime}
    (hday : (crate.civil value.1).dayNumber = m.day) (hnanos : (crate.clock value.2).nanos = m.nanos)
    (hm : m.InRange) : crate.datetime2FromPrimitive value = some m.datetime2 := by
  have hdays : crate.daysFromDate value.1 = some m.date.days :=
    (daysFromDate_eq_some hg).mpr (hday.trans hm.days.symm)
  have htime : crate.sqlTimeFromTime value.2 = m.time := by
    rw [sqlTimeFromTime_eq, ticksOf, hnanos]
    rfl
  rw [datetime2FromPrimitive, hdays, htime]
  rfl

variable {crates : Crates}

/-- Whichever library writes a moment, the parameter is the same. -/
theorem TemporalType.encode_eq (h : crates.KeepTime) {type : TemporalType} {value : type.Value crates}
    (hm : (type.moment crates value).InRange) :
    type.encode crates value = .ok (.push (type.kind.parameter (type.moment crates value))) := by
  have hdate : crates.values.createDate (type.moment crates value).date.days =
      .ok (type.moment crates value).date := h.createDate _ hm.datetime2.1
  cases type with
  | chronoNaiveDate =>
    have hdays := (Chrono.daysFromDate_eq_some h.chrono).mpr hm.days.symm
    simp only [encode, Chrono.encodeNaiveDate, hdays, hdate]
    rfl
  | chronoNaiveTime => rfl
  | chronoNaiveDateTime =>
    simp only [encode, Chrono.encodeNaiveDateTime, Chrono.datetime2_of_moment h.chrono rfl rfl hm]
    rfl
  | chronoDateTimeUtc =>
    simp only [encode, Chrono.encodeDateTimeUtc, Chrono.datetime2_of_moment h.chrono rfl rfl hm]
    rfl
  | jiffDate =>
    have hdays := Jiff.daysFromDate_eq_some.mpr hm.days.symm
    simp only [encode, Jiff.encodeDate, hdays, hdate]
    rfl
  | jiffTime =>
    have htime : crates.jiff.sqlTimeFromTime value = some (moment crates .jiffTime value).time :=
      Jiff.sqlTimeFromTime_eq _ _
    simp only [encode, Jiff.encodeTime, htime]
    rfl
  | jiffDateTime =>
    simp only [encode, Jiff.encodeDateTime, Jiff.datetime2_of_moment rfl rfl hm]
    rfl
  | jiffTimestamp =>
    have hutc := h.jiffUtc.utcDatetime_eq value hm
    have hmoment : moment crates .jiffTimestamp value =
        ⟨(crates.jiff.civil (crates.jiff.utcDatetime value).1).dayNumber,
          (crates.jiff.clock (crates.jiff.utcDatetime value).2).nanos⟩ := by
      rw [moment, ← hutc]
      exact Moment.ofUnixNanos_eq (TimeOfDay.nanos_lt _)
    rw [hmoment] at hm ⊢
    simp only [encode, Jiff.encodeTimestamp, Jiff.datetime2_of_moment rfl rfl hm]
    rfl
  | timeDate =>
    have hdays := (TimeCrate.daysFromDate_eq_some h.time).mpr hm.days.symm
    simp only [encode, TimeCrate.encodeDate, hdays, hdate]
    rfl
  | timeTime =>
    have htime : crates.time.sqlTimeFromTime value = (moment crates .timeTime value).time :=
      TimeCrate.sqlTimeFromTime_eq _ _
    simp only [encode, TimeCrate.encodeTime, htime]
    rfl
  | timePrimitiveDateTime =>
    simp only [encode, TimeCrate.encodePrimitiveDateTime, TimeCrate.datetime2_of_moment h.time rfl rfl hm]
    rfl
  | timeOffsetDateTime =>
    obtain ⟨date, time, hutc, hnanos⟩ := h.timeUtc.toUtc_ok value hm
    have hmoment : moment crates .timeOffsetDateTime value =
        ⟨(crates.time.civil date).dayNumber, (crates.time.clock time).nanos⟩ := by
      rw [moment, ← hnanos]
      exact Moment.ofUnixNanos_eq (TimeOfDay.nanos_lt _)
    rw [hmoment] at hm ⊢
    have hdatetime : crates.time.datetime2FromPrimitive (date, time) = some _ :=
      TimeCrate.datetime2_of_moment h.time rfl rfl hm
    simp only [encode, TimeCrate.encodeOffsetDateTime, hutc, bind, Except.bind, hdatetime]
    rfl

end Written

namespace TemporalType
variable {crates : Crates} {m : Moment}

/-- A date before 1970 is not read through `chrono`, nor the end of the year 9999 as a timestamp
of `jiff`. -/
def ReadsMoment (type : TemporalType) (kind : TemporalKind) (m : Moment) : Prop :=
  (type.OfChrono → kind ≠ .time → daysFromYearOneToEpoch ≤ m.day) ∧
    (type = jiffTimestamp → m.truncate.unixNanos ≤ 253402207200999999999)

theorem keeps_moment (type : TemporalType) (value : type.Value crates) :
    type.kind.keeps (type.moment crates value) = type.moment crates value := by
  cases type <;> rfl

theorem holds_cell (kind : TemporalKind) (m : Moment) : kind.typeInfo.Holds (kind.parameter m).cell := by
  cases kind with
  | date => exact Or.inl (by decide : _ = some _)
  | time => exact Or.inl (by decide : _ = some _)
  | datetime => exact Or.inl (by decide : _ = some _)
  | instant =>
    have hutc : -840 ≤ (0 : Int16).toInt ∧ (0 : Int16).toInt ≤ 840 := by decide
    exact Or.inl ⟨by decide, hutc⟩

theorem inTemporalRange_cell (kind : TemporalKind) (hm : m.InRange) : (kind.parameter m).cell.InTemporalRange := by
  have hdatetime := hm.datetime2
  cases kind with
  | date => exact hdatetime.1
  | time => exact hdatetime.2
  | datetime => exact hdatetime
  | instant => exact hdatetime

/-- The column of a parameter holds what the kind keeps of the moment. -/
theorem moment_cell (kind : TemporalKind) (hm : m.InRange) :
    (kind.parameter m).cell.moment = some (kind.keeps m).truncate := by
  have hdatetime : m.datetime2.moment = m.truncate := by
    rw [← hm.datetime2.ofUnixNanos, hm.datetime2_unixNanos]
    exact Moment.ofUnixNanos_eq hm.truncate.2.2
  cases kind with
  | date =>
    have hkeeps : (TemporalKind.date.keeps m).truncate = ⟨m.day, 0⟩ := by
      rw [TemporalKind.keeps, Moment.truncate, Nat.zero_div, Nat.zero_mul]
    rw [hkeeps, ← hm.days]
    rfl
  | time => exact congrArg (fun moment => some (Moment.mk 0 moment.nanos)) hdatetime
  | datetime => exact congrArg some hdatetime
  | instant => exact congrArg some hdatetime

/-- A parameter has no offset to apply. -/
theorem not_appliesOffset_cell (type : TemporalType) (kind : TemporalKind) (m : Moment) :
    ¬ type.AppliesOffset (kind.parameter m).cell := by
  cases type <;> cases kind
  case timeOffsetDateTime.instant => exact fun hoffset => hoffset rfl
  all_goals exact id

/-- Whichever library reads the column of a parameter, it reads its moment. -/
theorem decode_moment (h : crates.KeepTime) {kind : TemporalKind} {type : TemporalType}
    {read : type.Value crates} (hm : m.InRange) (hcompatible : type.compatible kind.typeInfo)
    (hread : type.decode crates (kind.parameter m).cell = .ok read) :
    type.moment crates read = (kind.keeps m).truncate := by
  have hstored := (decode_moment_iff h hcompatible (holds_cell kind m) (inTemporalRange_cell kind hm) hread).mpr
    (not_appliesOffset_cell type kind m)
  rw [moment_cell kind hm] at hstored
  exact (Option.some.inj hstored).symm

theorem exists_decode_cell_iff (h : crates.KeepTime) {kind : TemporalKind} {type : TemporalType} (hm : m.InRange)
    (hcompatible : type.compatible kind.typeInfo) :
    (∃ read, type.decode crates (kind.parameter m).cell = .ok read) ↔ type.ReadsMoment kind m := by
  rw [exists_decode_iff, decodes_iff crates.values h.chrono h.clock h.jiff h.bounded h.time h.offsets hcompatible
    (holds_cell kind m) (inTemporalRange_cell kind hm)]
  have hdays : 719162 ≤ m.date.days.toNat ↔ daysFromYearOneToEpoch ≤ m.day := by
    have := hm.days
    unfold daysFromYearOneToEpoch
    omega
  have hnanos := hm.datetime2_unixNanos
  have hlegacy : ¬ (kind.parameter m).cell.IsLegacy := by cases kind <;> exact id
  have hepoch : (kind.parameter m).cell.FromEpoch ↔ (kind ≠ .time → daysFromYearOneToEpoch ≤ m.day) := by
    cases kind with
    | time => exact iff_of_true trivial fun hne => absurd rfl hne
    | date | datetime | instant => exact hdays.trans (by simp)
  have hlast : (type = jiffTimestamp → (kind.parameter m).cell.ByLastTimestamp) ↔
      (type = jiffTimestamp → m.truncate.unixNanos ≤ 253402207200999999999) := by
    apply imp_congr_right
    rintro rfl
    rw [← hnanos]
    cases kind with
    | date | time => exact absurd hcompatible (by decide)
    | datetime | instant => exact Iff.rfl
  rw [Reads, ReadsMoment, hlast, hepoch]
  simp only [hlegacy, false_imp_iff, true_and]

/-- Whichever library writes a date or time, the parameter is that of its moment, and every type
that takes its column reads that moment cut to the server's resolution, if it reads at all. -/
theorem exchanged (h : crates.KeepTime) (written read : TemporalType) (value : written.Value crates)
    (hm : (written.moment crates value).InRange) (hcompatible : read.compatible written.typeInfo) :
    written.encode crates value = .ok (.push (written.kind.parameter (written.moment crates value))) ∧
      ((∃ v, read.decode crates (written.kind.parameter (written.moment crates value)).cell = .ok v) ↔
        read.ReadsMoment written.kind (written.moment crates value)) ∧
      ∀ v, read.decode crates (written.kind.parameter (written.moment crates value)).cell = .ok v →
        read.moment crates v = (written.moment crates value).truncate := by
  rw [typeInfo_eq] at hcompatible
  refine ⟨encode_eq h hm, exists_decode_cell_iff h hm hcompatible, fun v hv => ?_⟩
  rw [decode_moment h hm hcompatible hv, keeps_moment]

end TemporalType

/-- The first second of 1970, written through `chrono` and read as a timestamp of `jiff`. -/
theorem startOfEpoch_exchanged : ∃ read : TemporalType.jiffTimestamp.Value Crates.calendar,
    TemporalType.jiffTimestamp.decode Crates.calendar
      (TemporalKind.instant.parameter ⟨719162, 1234⟩).cell = .ok read ∧
    TemporalType.jiffTimestamp.moment Crates.calendar read = ⟨719162, 1200⟩ := by
  have hmoment : TemporalType.chronoDateTimeUtc.moment Crates.calendar
      (⟨Chrono.startOfEpoch⟩ : Chrono.calendar.DateTimeUtc) = ⟨719162, 1234⟩ := by decide
  obtain ⟨-, hreads, hread⟩ := TemporalType.exchanged Crates.calendar_keepTime .chronoDateTimeUtc .jiffTimestamp
    (⟨Chrono.startOfEpoch⟩ : Chrono.calendar.DateTimeUtc)
    (by rw [hmoment]; exact ⟨by decide, by decide, by decide⟩) (by decide)
  rw [hmoment] at hreads hread
  obtain ⟨read, hdecode⟩ := hreads.mpr ⟨fun h => absurd h (by decide), fun _ => by decide⟩
  exact ⟨read, hdecode, hread read hdecode⟩

end SqlxMssql
