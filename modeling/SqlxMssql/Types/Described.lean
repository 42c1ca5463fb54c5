import SqlxMssql.Any.Carriers
import SqlxMssql.Temporal.Exchange
import SqlxMssql.Types.TypeChecking

/-! # Described and fetched

A column is described by the name of its SQL type and fetched with a wire type, which is
another one where the column can hold `NULL`. The Rust type is chosen for the described type
and has to read what is fetched.
-/
namespace SqlxMssql
open Utf8 StagedMatch BinaryFloats

/-- The wire type of the columns that can hold `NULL`, and its length. -/
def TdsDataType.nullable : TdsDataType → Option (TdsDataType × UInt32)
  | int1 => some (intN, 1)
  | int2 => some (intN, 2)
  | int4 => some (intN, 4)
  | int8 => some (intN, 8)
  | bit => some (bitN, 1)
  | flt4 => some (fltN, 4)
  | flt8 => some (fltN, 8)
  | money => some (moneyN, 8)
  | money4 => some (moneyN, 4)
  | dateTime => some (dateTimeN, 8)
  | dateTim4 => some (dateTimeN, 4)
  | _ => Option.none

/-- The type of a column in a result set, by the type that it has been described with. -/
structure MssqlTypeInfo.FetchedAs (described fetched : MssqlTypeInfo) : Prop where
  wire : ∃ dataType, described.dataType = some dataType ∧ (fetched.dataType = some dataType ∨
    ∃ nullable length, dataType.nullable = some (nullable, length) ∧ fetched.dataType = some nullable ∧
      fetched.length = length)
  name : described.dataType = some .udt → eqIgnoreAsciiCase fetched.typeName described.typeName

namespace RustType

/-- The values that the Rust type of a described type reads: of a `tinyint` those that fit an
`i8`, a spatial value that decodes, and the dates and times that the library reads. -/
def ReadsValue (crates : Crates) : RustType → ColumnValues → Prop
  | integer .i8, .tinyInt value => value.toNat ≤ 127
  | mssqlGeometry, .bytes payload | mssqlGeography, .bytes payload => ∃ read, wireDecode crates.geo payload = .ok read
  | temporal type, value => type.Reads value
  | _, _ => True

/-- What a value is read as. Dates and times have forms of their own in each library, for one moment. -/
def Denotes (crates : Crates) : (type : RustType) → type.Value crates → ColumnValues → Prop
  | bool, read, .bit value => read = value
  | integer _, read, .tinyInt value => read.val = value.toNat
  | integer _, read, .smallInt value => read.val = value.toInt
  | integer _, read, .int value => read.val = value.toInt
  | integer _, read, .bigInt value => read.val = value.toInt
  | f32, read, .real bits => read = bits
  | f64, read, .float bits => read = bits
  | string, read, .string text => read = text
  | string, read, .xml document => document = Utf16.encodeLe read
  | string, read, .json document => document = Utf8Bytes.encode read
  | bytes, read, .bytes value => read = value
  | uuid, read, .uuid value => read = value
  | mssqlGeometry, read, .bytes payload => wireDecode crates.geo payload = .ok (read.srid, read.geometry)
  | mssqlGeography, read, .bytes payload => wireDecode crates.geo payload = .ok (read.srid, read.geometry)
  | temporal type, read, value => value.moment = some (type.moment crates read)
  | _, _, _ => False

/-- The offset of an instant is taken off once more when it is read. -/
def AppliesOffset : RustType → ColumnValues → Prop
  | temporal type, value => type.AppliesOffset value
  | _, _ => False

/-- The type reads a value of the column exactly where it can, and as the value that it is exactly
where no offset is applied once more. -/
structure ReadsAs (crates : Crates) (type : RustType) (column : MssqlTypeInfo) (value : ColumnValues) : Prop where
  reads : (∃ read, type.decode crates (MssqlValue.asRef crates.numbers ⟨value, column⟩) = .ok read) ↔
    type.ReadsValue crates value
  denotes : ∀ read, type.decode crates (MssqlValue.asRef crates.numbers ⟨value, column⟩) = .ok read →
    (type.Denotes crates read value ↔ ¬ type.AppliesOffset value)

end RustType

section Fetched
variable {described fetched : MssqlTypeInfo} {value : ColumnValues}

theorem ctorIdx_of_fetched {dataType : TdsDataType} (h : described.FetchedAs fetched)
    (hdata : described.dataType = some dataType) (hfixed : ∀ length, dataType.carriedForm length = dataType.carriedForm 0)
    (hv : fetched.HoldsFixed value) : value.ctorIdx = dataType.carriedForm 0 := by
  obtain ⟨carrier, hcarrier, -, hform⟩ := exists_form_of_holdsFixed hv
  obtain ⟨_, hdescribed, hwire⟩ := h.wire
  obtain rfl := Option.some.inj (hdata.symm.trans hdescribed)
  rw [← hform]
  rcases hwire with hfetched | ⟨nullable, length, hnullable, hfetched, hlength⟩
  · obtain rfl := Option.some.inj (hcarrier.symm.trans hfetched)
    exact hfixed _
  · obtain rfl := Option.some.inj (hcarrier.symm.trans hfetched)
    rw [hlength]
    have hwidth : ∀ t ∈ TdsDataType.all, ∀ p ∈ t.nullable, p.1.carriedForm p.2 = t.carriedForm 0 := by decide
    exact hwidth dataType dataType.mem_all _ hnullable

/-- A Rust type accepts the column that is fetched where it accepts the one described. -/
theorem compatible_fetched (h : described.FetchedAs fetched) (type : RustType) :
    type.compatible fetched = type.compatible described := by
  obtain ⟨dataType, hdescribed, hfetched | ⟨nullable, length, hnullable, hfetched, -⟩⟩ := h.wire
  · refine RustType.compatible_congr (MssqlTypeInfo.eq_iff.mpr ⟨?_, ?_⟩) type
    · rw [MssqlTypeInfo.code_of_dataType hfetched, MssqlTypeInfo.code_of_dataType hdescribed]
    · refine or_iff_not_imp_left.mpr fun hudt => h.name ?_
      have hfetched' : fetched.dataType = some .udt := by
        rw [MssqlTypeInfo.dataType, not_not.mp hudt]
        decide
      rw [hdescribed, ← hfetched, hfetched']
  · have hwire : ∀ t ∈ TdsDataType.all, ∀ p ∈ t.nullable, t ≠ .udt ∧ p.1 ≠ .udt ∧ ∀ type ∈ RustType.all,
        type.compatible (.plain "" p.1 0) = type.compatible (.plain "" t 0) := by decide +kernel
    obtain ⟨hudt, hudt', hsame⟩ := hwire dataType dataType.mem_all _ hnullable
    rw [← RustType.compatible_congr (eq_plain hfetched hudt') type,
      ← RustType.compatible_congr (eq_plain hdescribed hudt) type]
    exact hsame type type.mem_all

theorem sqlClass_fetched (h : described.FetchedAs fetched) : fetched.sqlClass = described.sqlClass := by
  obtain ⟨dataType, hdescribed, hfetched | ⟨nullable, length, hnullable, hfetched, -⟩⟩ := h.wire
  · rw [fetched.sqlClass_of_dataType hfetched, described.sqlClass_of_dataType hdescribed]
  · rw [fetched.sqlClass_of_dataType hfetched, described.sqlClass_of_dataType hdescribed]
    have hclass : ∀ t ∈ TdsDataType.all, ∀ p ∈ t.nullable, p.1.sqlClass = t.sqlClass := by decide
    exact hclass dataType dataType.mem_all _ hnullable

end Fetched

section Read
variable {crates : Crates} {type : RustType} {column : MssqlTypeInfo} {value : ColumnValues}

theorem RustType.ReadsAs.of_ok {read : type.Value crates}
    (hread : type.decode crates (MssqlValue.asRef crates.numbers ⟨value, column⟩) = .ok read)
    (hreads : type.ReadsValue crates value) (hdenotes : type.Denotes crates read value)
    (happlies : ¬ type.AppliesOffset value) : type.ReadsAs crates column value where
  reads := iff_of_true ⟨read, hread⟩ hreads
  denotes read' hread' := by
    obtain rfl := Except.ok.inj (hread.symm.trans hread')
    exact iff_of_true hdenotes happlies

theorem mapError_eq_ok {ε ε' α : Type} {f : ε → ε'} {x : Except ε α} {a : α} : x.mapError f = .ok a ↔ x = .ok a := by
  cases x with
  | error e => simp [Except.mapError]
  | ok b => simp [Except.mapError]

theorem IntegerType.decode_eq_ok_iff {type : IntegerType} {value : MssqlValueRef} {n : ℤ} (h : value.asI64 = some n)
    (read : type.Value) : type.decode value = .ok read ↔ read.val = n := by
  obtain ⟨m, hm⟩ := read
  constructor
  · intro hread
    unfold IntegerType.decode at hread
    simp only [h] at hread
    split at hread
    · exact (congrArg Subtype.val (Except.ok.inj hread)).symm
    · cases hread
  · rintro rfl
    exact IntegerType.decode_eq_ok h hm

theorem RustType.ReadsAs.integer {type : IntegerType} {n : ℤ}
    (hn : (MssqlValue.asRef crates.numbers ⟨value, column⟩).asI64 = some n)
    (hreads : (RustType.integer type).ReadsValue crates value ↔ type.low ≤ n ∧ n ≤ type.high)
    (hdenotes : ∀ read : type.Value, read.val = n → (RustType.integer type).Denotes crates read value) :
    (RustType.integer type).ReadsAs crates column value := by
  have hdecode (read : type.Value) : (RustType.integer type).decode crates
      (MssqlValue.asRef crates.numbers ⟨value, column⟩) = .ok read ↔ read.val = n := by
    rw [← IntegerType.decode_eq_ok_iff hn read]
    exact mapError_eq_ok
  refine ⟨?_, fun read hread => iff_of_true (hdenotes read ((hdecode read).mp hread)) id⟩
  rw [hreads]
  constructor
  · rintro ⟨read, hread⟩
    exact (hdecode read).mp hread ▸ read.2
  · intro hrange
    exact ⟨⟨n, hrange⟩, (hdecode ⟨n, hrange⟩).mpr rfl⟩

variable {described fetched : MssqlTypeInfo} {features : Features}

theorem dataType_of_eq {type : RustType} {dataType : TdsDataType} (h : type.typeInfo.eq described = true)
    (htype : type.typeInfo.dataType = some dataType) : described.dataType = some dataType :=
  (MssqlTypeInfo.dataType_congr h).symm.trans htype

/-- A number that the described type has a Rust type of its own for. -/
theorem basic_reads (h : described.FetchedAs fetched) {type : RustType} (hmem : type ∈ basicTypes)
    (heq : type.typeInfo.eq described = true) (hv : fetched.HoldsFixed value) : type.ReadsAs crates fetched value := by
  have hform (dataType : TdsDataType) (htype : type.typeInfo.dataType = some dataType)
      (hfixed : ∀ length, dataType.carriedForm length = dataType.carriedForm 0) :
      value.ctorIdx = dataType.carriedForm 0 := ctorIdx_of_fetched h (dataType_of_eq heq htype) hfixed hv
  simp only [basicTypes, List.mem_cons, List.not_mem_nil, or_false] at hmem
  rcases hmem with rfl | rfl | rfl | rfl | rfl | rfl | rfl
  · have hvalue := hform .bit (by decide) fun _ => rfl
    cases value with
    | bit v => exact .of_ok rfl trivial rfl id
    | _ => cases hvalue
  · have hvalue := hform .int1 (by decide) fun _ => rfl
    cases value with
    | tinyInt v =>
      refine .integer rfl ?_ fun read h => h
      change v.toNat ≤ 127 ↔ (-128 : ℤ) ≤ v.toNat ∧ (v.toNat : ℤ) ≤ 127
      omega
    | _ => cases hvalue
  · have hvalue := hform .int2 (by decide) fun _ => rfl
    cases value with
    | smallInt v => exact .integer rfl (iff_of_true trivial ⟨v.le_toInt, v.toInt_le⟩) fun read h => h
    | _ => cases hvalue
  · have hvalue := hform .int4 (by decide) fun _ => rfl
    cases value with
    | int v => exact .integer rfl (iff_of_true trivial ⟨v.le_toInt, v.toInt_le⟩) fun read h => h
    | _ => cases hvalue
  · have hvalue := hform .int8 (by decide) fun _ => rfl
    cases value with
    | bigInt v => exact .integer rfl (iff_of_true trivial ⟨v.le_toInt, v.toInt_le⟩) fun read h => h
    | _ => cases hvalue
  · have hvalue := hform .flt4 (by decide) fun _ => rfl
    cases value with
    | real bits => exact .of_ok (congrArg Except.ok (real_of_f64 hv.2)) trivial rfl id
    | _ => cases hvalue
  · have hvalue := hform .flt8 (by decide) fun _ => rfl
    cases value with
    | float bits => exact .of_ok rfl trivial rfl id
    | _ => cases hvalue

theorem holdsFixed_of_fetched (h : described.FetchedAs fetched) (hc : described.sqlClass ≠ .other)
    (hv : fetched.Holds value) : fetched.HoldsFixed value := by
  refine holdsFixed_of_holds (fun hvariant => hc ?_) hv
  rw [← sqlClass_fetched h, fetched.sqlClass_of_dataType hvariant]
  rfl

/-- The form of the values, where the described type is one of several. -/
theorem form_mem_of_fetched (h : described.FetchedAs fetched) (hv : fetched.HoldsFixed value) {types : List TdsDataType}
    {forms : List ℕ} (hdata : described.dataType ∈ types.map some)
    (hforms : ∀ t ∈ types, t ∉ [TdsDataType.intN, .fltN, .moneyN, .dateTimeN] ∧ t.carriedForm 0 ∈ forms) :
    value.ctorIdx ∈ forms := by
  obtain ⟨dataType, hmem, hdata⟩ := List.mem_map.mp hdata
  obtain ⟨hfixed, hform⟩ := hforms dataType hmem
  rw [ctorIdx_of_fetched h hdata.symm (fun length => ?_) hv]
  · exact hform
  · cases dataType with
    | intN | fltN | moneyN | dateTimeN => exact absurd (by decide) hfixed
    | _ => rfl

theorem text_reads (h : described.FetchedAs fetched) (hcharacter : described.acceptsCharacterData = true)
    (hv : fetched.HoldsFixed value) : RustType.string.ReadsAs crates fetched value := by
  have hdata : described.dataType ∈ [TdsDataType.bigChar, .bigVarChar, .char, .varChar, .text, .nChar, .nVarChar, .nText,
      .xml, .json].map some := of_decide_eq_true hcharacter
  have hforms : value.ctorIdx ∈ [12, 13, 14] := form_mem_of_fetched h hv hdata (by decide)
  cases value with
  | string text => exact .of_ok rfl trivial rfl id
  | xml document =>
    obtain ⟨-, text, rfl⟩ := hv
    exact .of_ok (congrArg Except.ok (utf16leToString_encodeLe text)) trivial rfl id
  | json document =>
    obtain ⟨-, text, rfl⟩ := hv
    exact .of_ok (congrArg Except.ok (Utf8Bytes.fromUtf8Lossy_encode text)) trivial rfl id
  | _ => simp [ColumnValues.ctorIdx] at hforms

theorem bytes_reads (h : described.FetchedAs fetched) (hbinary : described.acceptsBinaryData = true)
    (hv : fetched.HoldsFixed value) : RustType.bytes.ReadsAs crates fetched value := by
  have hdata : described.dataType ∈ [TdsDataType.bigBinary, .bigVarBinary, .binary, .varBinary, .image, .vector].map some :=
    of_decide_eq_true hbinary
  have hforms : value.ctorIdx ∈ [15] := form_mem_of_fetched h hv hdata (by decide)
  cases value with
  | bytes payload => exact .of_ok rfl trivial rfl id
  | _ => simp [ColumnValues.ctorIdx] at hforms

theorem uuid_reads (h : described.FetchedAs fetched) (hguid : described.dataType = some .guid)
    (hv : fetched.HoldsFixed value) : RustType.uuid.ReadsAs crates fetched value := by
  have hforms : value.ctorIdx ∈ [16] := form_mem_of_fetched h hv (List.mem_map.mpr ⟨_, List.mem_singleton_self _, hguid.symm⟩)
    (by decide)
  cases value with
  | uuid bytes => exact .of_ok rfl trivial rfl id
  | _ => simp [ColumnValues.ctorIdx] at hforms

theorem exists_payload (h : described.FetchedAs fetched) (hudt : described.dataType = some .udt)
    (hv : fetched.HoldsFixed value) : ∃ payload, value = .bytes payload := by
  have hforms : value.ctorIdx ∈ [15] := form_mem_of_fetched h hv (List.mem_map.mpr ⟨_, List.mem_singleton_self _, hudt.symm⟩)
    (by decide)
  cases value with
  | bytes payload => exact ⟨payload, rfl⟩
  | _ => simp [ColumnValues.ctorIdx] at hforms

/-- Where the type of the column is the expected one, a spatial value is what its payload decodes to. -/
theorem decodeSpatial_eq {isExpected : MssqlTypeInfo → Bool} (hexpected : isExpected fetched = true) (expected : String)
    (payload : List UInt8) : decodeSpatial crates.geo (MssqlValue.asRef crates.numbers ⟨.bytes payload, fetched⟩) isExpected
      expected = wireDecode crates.geo payload :=
  if_pos hexpected

/-- The two spatial types differ in the columns that they expect and in how they wrap what is read. -/
theorem spatial_reads (type : RustType) {isExpected : MssqlTypeInfo → Bool} {expected : String} {payload : List UInt8}
    (wrap : Int32 × Geometry → type.Value crates) (hexpected : isExpected fetched)
    (hdecode : ∀ value, type.decode crates value =
      decodeSpatial crates.geo value isExpected expected >>= fun found => pure (wrap found))
    (hreads : type.ReadsValue crates (.bytes payload) ↔ ∃ found, wireDecode crates.geo payload = .ok found)
    (hdenotes : ∀ found, wireDecode crates.geo payload = .ok found →
      type.Denotes crates (wrap found) (.bytes payload))
    (happlies : ¬ type.AppliesOffset (.bytes payload)) : type.ReadsAs crates fetched (.bytes payload) := by
  have hread := hdecode (MssqlValue.asRef crates.numbers ⟨.bytes payload, fetched⟩)
  rw [decodeSpatial_eq hexpected] at hread
  cases hfound : wireDecode crates.geo payload with
  | error e =>
    rw [hfound] at hread
    refine ⟨?_, fun read hok => ?_⟩
    · rw [hreads, hread, hfound]
      exact iff_of_false (fun ⟨_, hok⟩ => by cases hok) fun ⟨_, hok⟩ => by cases hok
    · rw [hread] at hok
      cases hok
  | ok found =>
    rw [hfound] at hread
    exact .of_ok hread (hreads.mpr ⟨found, hfound⟩) (hdenotes found hfound) happlies

theorem temporal_reads (hkeep : crates.KeepTime) {type : TemporalType} (hcompatible : type.compatible fetched = true)
    (hv : fetched.Holds value) (hrange : value.InTemporalRange) :
    (RustType.temporal type).ReadsAs crates fetched value := by
  refine ⟨?_, fun read hread => TemporalType.decode_moment_iff hkeep hcompatible hv hrange (mapError_eq_ok.mp hread)⟩
  have hdecodes := decodes_iff crates.values hkeep.chrono hkeep.clock hkeep.jiff hkeep.bounded hkeep.time hkeep.offsets
    hcompatible hv hrange
  rw [← TemporalType.exists_decode_iff] at hdecodes
  refine Iff.trans ?_ hdecodes
  exact exists_congr fun read => mapError_eq_ok

/-- A type reads the columns of what belongs to it. -/
theorem MssqlTypeInfo.Belongs.reads (hkeep : crates.KeepTime) {type : RustType} (hbelongs : described.Belongs features type)
    (h : described.FetchedAs fetched) (hcompatible : type.compatible fetched = true) (hv : fetched.Holds value)
    (hrange : value.InTemporalRange) : type.ReadsAs crates fetched value := by
  have hfixed (hc : described.sqlClass ≠ .other) : fetched.HoldsFixed value := holdsFixed_of_fetched h hc hv
  cases hbelongs with
  | basic hmem heq =>
    have hbasic : ∀ type ∈ basicTypes, type.typeInfo.sqlClass ≠ .other := by decide
    exact basic_reads h hmem heq (hfixed (sqlClass_congr heq ▸ hbasic _ hmem))
  | string hcharacter =>
    have hc : described.sqlClass = .character := of_decide_eq_true (described.acceptsCharacterData_eq ▸ hcharacter)
    exact text_reads h hcharacter (hfixed (by rw [hc]; decide))
  | bytes hbinary =>
    have hc : described.sqlClass = .binary := of_decide_eq_true (described.acceptsBinaryData_eq ▸ hbinary)
    exact bytes_reads h hbinary (hfixed (by rw [hc]; decide))
  | uuid hguid => exact uuid_reads h hguid (hfixed (by rw [described.sqlClass_of_dataType hguid]; decide))
  | mssqlGeometry hgeometry =>
    have hnamed := of_decide_eq_true hgeometry
    obtain ⟨payload, rfl⟩ := exists_payload h hnamed.1 (hfixed (by rw [described.sqlClass_of_named hnamed]; decide))
    exact spatial_reads .mssqlGeometry (fun found => (⟨found.1, found.2⟩ : MssqlGeometry)) hcompatible
      (fun _ => rfl) Iff.rfl (fun _ => id) id
  | mssqlGeography hgeography =>
    have hnamed := of_decide_eq_true hgeography
    obtain ⟨payload, rfl⟩ := exists_payload h hnamed.1 (hfixed (by rw [described.sqlClass_of_named hnamed]; decide))
    exact spatial_reads .mssqlGeography (fun found => (⟨found.1, found.2⟩ : MssqlGeography)) hcompatible
      (fun _ => rfl) Iff.rfl (fun _ => id) id
  | jiffDate | jiffTime | jiffDateTime | jiffTimestamp => exact temporal_reads hkeep hcompatible hv hrange

/-- Without `jiff` the type for a date or time is still one of a library. -/
theorem exists_temporal (checking : TypeChecking features) (hreported : described.hasExactRustMapping features = true)
    (hdatetime : described.acceptsDatetimeData = true) (hjiff : features.jiff = false) :
    ∃ type, checking.typeForId described = some (.temporal type) := by
  have hlisted : ∃ type ∈ checking.stages.flatten, type.compatible described = true := by
    have hlibraries := libraries_of_reported hdatetime hreported
    rw [hjiff, Bool.or_false, Bool.or_eq_true] at hlibraries
    rcases hlibraries with hchrono | htime
    · obtain ⟨type, hmem, hcompatible⟩ := exists_library hdatetime (.inl rfl)
      exact ⟨type, (mem_listed checking).mpr (.inr ⟨_, checking.chrono_mem.mpr hchrono, hmem⟩), hcompatible⟩
    · obtain ⟨type, hmem, hcompatible⟩ := exists_library hdatetime (.inr rfl)
      exact ⟨type, (mem_listed checking).mpr (.inr ⟨_, checking.time_mem.mpr htime, hmem⟩), hcompatible⟩
  have hresolved : ∃ type, checking.typeForId described = some type := exists_firstMatch hlisted
  obtain ⟨type, hfound⟩ := hresolved
  have hcompatible := (firstMatch_sound (fun b => RustType.compatible_of_eq) hfound).2
  have hclass : .datetime ∈ type.sqlClasses := sqlClass_of_datetime hdatetime ▸ RustType.sqlClass_mem hcompatible
  cases type with
  | temporal type => exact ⟨type, hfound⟩
  | _ => simp [RustType.sqlClasses] at hclass

end Read

/-- The type takes the column, and reads each of its values where it can. -/
structure RustType.ReadsColumn (crates : Crates) (type : RustType) (column : MssqlTypeInfo) : Prop where
  compatible : type.compatible column = true
  reads : ∀ value, column.Holds value → value.InTemporalRange → type.ReadsAs crates column value

theorem exists_readsColumn {crates : Crates} (hkeep : crates.KeepTime) {features : Features}
    (checking : TypeChecking features) {described fetched : MssqlTypeInfo}
    (hreported : described.hasExactRustMapping features = true) (hfetched : described.FetchedAs fetched) :
    ∃ type, checking.typeForId described = some type ∧ type.ReadsColumn crates fetched := by
  have hsound : ∀ b : RustType, b.typeInfo.eq described = true → b.compatible described = true :=
    fun b => RustType.compatible_of_eq
  by_cases howned : described.acceptsDatetimeData = true → features.jiff = true
  · obtain ⟨type, hbelongs⟩ := exists_belongs hreported howned
    have hfound : checking.typeForId described = some type := hbelongs.typeForId_eq
    have hcompatible : type.compatible fetched = true :=
      (compatible_fetched hfetched type).trans (firstMatch_sound hsound hfound).2
    exact ⟨type, hfound, hcompatible, fun value => hbelongs.reads hkeep hfetched hcompatible⟩
  · rw [Classical.not_imp, Bool.not_eq_true] at howned
    obtain ⟨type, hfound⟩ := exists_temporal checking hreported howned.1 howned.2
    have hcompatible : type.compatible fetched = true :=
      (compatible_fetched hfetched (.temporal type)).trans (firstMatch_sound hsound hfound).2
    exact ⟨.temporal type, hfound, hcompatible, fun value => temporal_reads hkeep hcompatible⟩

/-- The Rust type for a described column or parameter that is reported takes the column that is
fetched, with its nullable wire type, and reads all its values: all but those above 127 of a
`tinyint`, malformed spatial values, and the dates and times that the type of the library does not
read. What is read is the value, a date or time its moment, but for a `datetimeoffset` with an
offset other than zero where the type is `time`'s `OffsetDateTime`. The values of a vector column
are bytes here. -/
theorem described_reads {crates : Crates} (hkeep : crates.KeepTime) {features : Features} (checking : TypeChecking features)
    {described fetched : MssqlTypeInfo} (hreported : described.hasExactRustMapping features = true)
    (hfetched : described.FetchedAs fetched) : ∃ type, checking.typeForId described = some type ∧
      type.compatible fetched = true ∧ ∀ value, fetched.Holds value → value.InTemporalRange →
        type.ReadsAs crates fetched value := by
  obtain ⟨type, hfound, hreads⟩ := exists_readsColumn hkeep checking hreported hfetched
  exact ⟨type, hfound, hreads.compatible, hreads.reads⟩

/-- An `int` column that can hold `NULL`. -/
def nullableInt : MssqlTypeInfo := .plain "intn" .intN 4

theorem nullableInt_reads : ∃ type, TypeChecking.allLibraries.typeForId .integer = some type ∧
    type.compatible nullableInt = true ∧ type.ReadsAs Crates.calendar nullableInt (.int 7) := by
  have hfetched : MssqlTypeInfo.integer.FetchedAs nullableInt :=
    ⟨⟨.int4, by decide, .inr ⟨.intN, 4, by decide, by decide, rfl⟩⟩, fun h => absurd h (by decide)⟩
  obtain ⟨type, hfound, hcompatible, hreads⟩ :=
    described_reads Crates.calendar_keepTime TypeChecking.allLibraries (by decide) hfetched
  exact ⟨type, hfound, hcompatible, hreads (.int 7) (.inl (.inr ⟨by decide, rfl⟩)) trivial⟩

end SqlxMssql
