import SqlxMssql.Foundations.StagedMatch
import SqlxMssql.Types.RustTypes

/-! # The Rust types of described types

The query macros give a described column or parameter a Rust type, which is looked up among
the types that the driver lists. The column that is fetched then has to be one that this type
reads.
-/
namespace SqlxMssql
open Utf8 StagedMatch

/-- The main list of `impl_type_checking!`. -/
def mainTypes (features : Features) : List RustType :=
  [.bool, .integer .i8, .integer .i16, .integer .i32, .integer .i64, .f32, .f64, .string, .bytes] ++
    (if features.spatial then [.mssqlGeometry, .mssqlGeography, .geometry] else []) ++
    (if features.uuid then [.uuid] else []) ++
    if features.jiff then [.temporal .jiffDate, .temporal .jiffTime, .temporal .jiffDateTime, .temporal .jiffTimestamp]
    else []

/-- The lists of the crates that an application may prefer. -/
inductive TypeSection where
  | chrono
  | time
  | bigDecimal
  | rustDecimal
  deriving DecidableEq, Repr

def TypeSection.types : TypeSection → List RustType
  | chrono =>
    [.temporal .chronoNaiveDate, .temporal .chronoNaiveTime, .temporal .chronoNaiveDateTime, .temporal .chronoDateTimeUtc]
  | time =>
    [.temporal .timeDate, .temporal .timeTime, .temporal .timePrimitiveDateTime, .temporal .timeOffsetDateTime]
  | bigDecimal => [.bigDecimal]
  | rustDecimal => [.rustDecimal]

/-- The sections that are compiled in, in the order in which they are tried. The first of them
may be tried together with the main list. -/
structure TypeChecking (features : Features) where
  order : List TypeSection
  merged : ℕ
  nodup : order.Nodup
  chrono_mem : .chrono ∈ order ↔ features.chrono
  time_mem : .time ∈ order ↔ features.time

namespace TypeChecking
variable {features : Features} (checking : TypeChecking features)

def stages : List (List RustType) :=
  (mainTypes features ++ (checking.order.take checking.merged).flatMap TypeSection.types) ::
    (checking.order.drop checking.merged).map TypeSection.types

/-- `param_type_for_id`: the type of exactly this SQL type, or else the first that accepts it. -/
def typeForId (ty : MssqlTypeInfo) : Option RustType :=
  firstMatch (fun type => type.typeInfo.eq ty) (fun type => type.compatible ty) checking.stages

end TypeChecking

namespace MssqlTypeInfo
variable {a b : MssqlTypeInfo}

theorem eq_iff : a.eq b = true ↔ a.sqlDataType = b.sqlDataType ∧
    (a.sqlDataType ≠ TdsDataType.udt.code ∨ eqIgnoreAsciiCase a.typeName b.typeName) :=
  decide_eq_true_iff

theorem code_of_dataType {dataType : TdsDataType} (h : a.dataType = some dataType) : a.sqlDataType = dataType.code := by
  have hfound : TdsDataType.all.find? (fun t => t.code = a.sqlDataType) = some dataType := h
  have hcode : dataType.code = a.sqlDataType := by simpa using List.find?_some hfound
  exact hcode.symm

theorem dataType_congr (h : a.eq b = true) : a.dataType = b.dataType :=
  congrArg TdsDataType.ofCode (eq_iff.mp h).1

theorem eq_congr (h : a.eq b = true) (c : MssqlTypeInfo) : c.eq a = c.eq b := by
  obtain ⟨hcode, hname⟩ := eq_iff.mp h
  refine decide_eq_decide.mpr ?_
  rw [← hcode]
  refine and_congr_right fun hsame => or_congr_right' fun hudt => ?_
  have hlower : toAsciiLowercase a.typeName = toAsciiLowercase b.typeName :=
    of_decide_eq_true (hname.resolve_left fun hne => hudt (hsame ▸ hne))
  rw [eqIgnoreAsciiCase, eqIgnoreAsciiCase, hlower]

/-- Of a CLR UDT the name counts as well. -/
theorem named_congr (h : a.eq b = true) (name : Text) :
    (a.dataType = some .udt ∧ eqIgnoreAsciiCase a.typeName name) ↔
      b.dataType = some .udt ∧ eqIgnoreAsciiCase b.typeName name := by
  rw [dataType_congr h]
  refine and_congr_right fun hudt => ?_
  rw [← dataType_congr h] at hudt
  have hcode : a.sqlDataType = TdsDataType.udt.code := code_of_dataType hudt
  have hname : toAsciiLowercase a.typeName = toAsciiLowercase b.typeName :=
    of_decide_eq_true ((eq_iff.mp h).2.resolve_left fun hne => hne hcode)
  rw [eqIgnoreAsciiCase, eqIgnoreAsciiCase, hname]

theorem isGeometry_congr (h : a.eq b = true) : a.isGeometry = b.isGeometry :=
  decide_eq_decide.mpr (named_congr h _)

theorem isGeography_congr (h : a.eq b = true) : a.isGeography = b.isGeography :=
  decide_eq_decide.mpr (named_congr h _)

end MssqlTypeInfo

namespace RustType

/-- Equal types are accepted by the same Rust types. -/
theorem compatible_congr {a b : MssqlTypeInfo} (h : a.eq b = true) (type : RustType) :
    type.compatible a = type.compatible b := by
  have hdata := MssqlTypeInfo.dataType_congr h
  cases type with
  | mssqlGeometry => exact MssqlTypeInfo.isGeometry_congr h
  | mssqlGeography => exact MssqlTypeInfo.isGeography_congr h
  | temporal type =>
    simp only [compatible, TemporalType.compatible, MssqlTypeInfo.acceptsDateData, MssqlTypeInfo.acceptsTimeData,
      MssqlTypeInfo.acceptsNaiveDatetimeData, MssqlTypeInfo.acceptsDatetimeoffsetData, hdata]
  | _ =>
    simp only [compatible, MssqlTypeInfo.acceptsBooleanData, MssqlTypeInfo.acceptsNumericData,
      MssqlTypeInfo.acceptsCharacterData, MssqlTypeInfo.acceptsBinaryData, hdata]

theorem compatible_typeInfo (type : RustType) : type.compatible type.typeInfo = true := by
  cases type with
  | integer type => cases type <;> decide
  | temporal type => cases type <;> decide
  | _ => decide

theorem compatible_of_eq {type : RustType} {ty : MssqlTypeInfo} (h : type.typeInfo.eq ty = true) :
    type.compatible ty = true :=
  (compatible_congr h type).symm.trans (compatible_typeInfo type)

end RustType

/-- The classes of SQL types that the Rust types divide between them. -/
inductive SqlClass where
  | boolean
  | numeric
  | character
  | binary
  | datetime
  | guid
  | udt
  | other
  deriving DecidableEq, Repr

def TdsDataType.sqlClass : TdsDataType → SqlClass
  | bit | bitN => .boolean
  | int1 | int2 | int4 | int8 | intN | decimal | decimalN | numeric | numericN | money | money4 | moneyN | flt4 | flt8
  | fltN => .numeric
  | bigChar | bigVarChar | char | varChar | text | nChar | nVarChar | nText | xml | json => .character
  | bigBinary | bigVarBinary | binary | varBinary | image | vector => .binary
  | dateN | timeN | dateTime2N | dateTimeOffsetN | dateTime | dateTim4 | dateTimeN => .datetime
  | guid => .guid
  | udt => .udt
  | none | ssVariant => .other

namespace MssqlTypeInfo
variable (ty : MssqlTypeInfo)

def sqlClass : SqlClass := (ty.dataType.map TdsDataType.sqlClass).getD .other

theorem sqlClass_congr {a b : MssqlTypeInfo} (h : a.eq b = true) : a.sqlClass = b.sqlClass := by
  rw [sqlClass, sqlClass, dataType_congr h]

theorem acceptsBooleanData_eq : ty.acceptsBooleanData = decide (ty.sqlClass = .boolean) := by
  unfold acceptsBooleanData sqlClass
  rcases ty.dataType with _ | dataType
  · decide
  · cases dataType <;> decide

theorem acceptsNumericData_eq : ty.acceptsNumericData = decide (ty.sqlClass = .numeric) := by
  unfold acceptsNumericData sqlClass
  rcases ty.dataType with _ | dataType
  · decide
  · cases dataType <;> decide

theorem acceptsCharacterData_eq : ty.acceptsCharacterData = decide (ty.sqlClass = .character) := by
  unfold acceptsCharacterData sqlClass
  rcases ty.dataType with _ | dataType
  · decide
  · cases dataType <;> decide

theorem acceptsBinaryData_eq : ty.acceptsBinaryData = decide (ty.sqlClass = .binary) := by
  unfold acceptsBinaryData sqlClass
  rcases ty.dataType with _ | dataType
  · decide
  · cases dataType <;> decide

theorem acceptsDatetimeData_eq : ty.acceptsDatetimeData = decide (ty.sqlClass = .datetime) := by
  unfold acceptsDatetimeData sqlClass
  rcases ty.dataType with _ | dataType
  · decide
  · cases dataType <;> decide

theorem sqlClass_of_dataType {dataType : TdsDataType} (h : ty.dataType = some dataType) :
    ty.sqlClass = dataType.sqlClass := by
  rw [sqlClass, h]
  rfl

/-- The finer predicates on dates and times. -/
theorem sqlClass_of_temporal (h : ty.acceptsDateData = true ∨ ty.acceptsTimeData = true ∨
    ty.acceptsNaiveDatetimeData = true ∨ ty.acceptsDatetimeoffsetData = true) : ty.sqlClass = .datetime := by
  simp only [acceptsDateData, acceptsTimeData, acceptsNaiveDatetimeData, acceptsDatetimeoffsetData,
    decide_eq_true_eq, List.mem_cons, List.not_mem_nil, or_false] at h
  rcases h with h | h | (h | h | h | h) | h <;> exact ty.sqlClass_of_dataType h

theorem sqlClass_of_named {name : Text} (h : ty.dataType = some .udt ∧ eqIgnoreAsciiCase ty.typeName name) :
    ty.sqlClass = .udt :=
  ty.sqlClass_of_dataType h.1

end MssqlTypeInfo

namespace RustType

/-- The classes whose types a Rust type may accept. -/
def sqlClasses : RustType → List SqlClass
  | bool => [.boolean]
  | integer _ | f32 | f64 => [.numeric]
  | string => [.character]
  | bytes | geometry => [.binary]
  | mssqlGeometry | mssqlGeography => [.udt]
  | uuid => [.guid]
  | bigDecimal | rustDecimal => [.numeric, .character]
  | json => [.character, .binary]
  | temporal _ => [.datetime]

theorem sqlClass_mem {type : RustType} {ty : MssqlTypeInfo} (h : type.compatible ty = true) :
    ty.sqlClass ∈ type.sqlClasses := by
  cases type with
  | mssqlGeometry => exact List.mem_singleton.mpr (ty.sqlClass_of_named (of_decide_eq_true h))
  | mssqlGeography => exact List.mem_singleton.mpr (ty.sqlClass_of_named (of_decide_eq_true h))
  | uuid => exact List.mem_singleton.mpr (ty.sqlClass_of_dataType (of_decide_eq_true h))
  | temporal type =>
    refine List.mem_singleton.mpr (ty.sqlClass_of_temporal ?_)
    cases type with
    | chronoNaiveDate | jiffDate | timeDate => exact .inl h
    | chronoNaiveTime | jiffTime | timeTime => exact .inr (.inl h)
    | chronoNaiveDateTime | jiffDateTime | timePrimitiveDateTime => exact .inr (.inr (.inl h))
    | chronoDateTimeUtc | jiffTimestamp | timeOffsetDateTime => exact .inr (.inr ((Bool.or_eq_true _ _).mp h))
  | _ =>
    simpa [compatible, sqlClasses, MssqlTypeInfo.acceptsBooleanData_eq, MssqlTypeInfo.acceptsNumericData_eq,
      MssqlTypeInfo.acceptsCharacterData_eq, MssqlTypeInfo.acceptsBinaryData_eq] using h

/-- All Rust types of the driver. -/
def all : List RustType :=
  [bool, integer .i8, integer .i16, integer .i32, integer .i64, integer .u8, integer .u16, integer .u32, integer .u64,
    f32, f64, string, bytes, mssqlGeometry, mssqlGeography, geometry, uuid, bigDecimal, rustDecimal, json,
    temporal .chronoNaiveDate, temporal .chronoNaiveTime, temporal .chronoNaiveDateTime, temporal .chronoDateTimeUtc,
    temporal .jiffDate, temporal .jiffTime, temporal .jiffDateTime, temporal .jiffTimestamp,
    temporal .timeDate, temporal .timeTime, temporal .timePrimitiveDateTime, temporal .timeOffsetDateTime]

theorem mem_all (type : RustType) : type ∈ all := by
  cases type with
  | integer type => cases type <;> decide
  | temporal type => cases type <;> decide
  | _ => decide

end RustType

/-- The first types of the list, each for one type of the server. -/
def basicTypes : List RustType := [.bool, .integer .i8, .integer .i16, .integer .i32, .integer .i64, .f32, .f64]

/-- The Rust type that a reported type belongs to. -/
inductive MssqlTypeInfo.Belongs (features : Features) (ty : MssqlTypeInfo) : RustType → Prop where
  | basic {type : RustType} (h : type ∈ basicTypes) (heq : type.typeInfo.eq ty = true) : ty.Belongs features type
  | string (h : ty.acceptsCharacterData = true) : ty.Belongs features .string
  | bytes (h : ty.acceptsBinaryData = true) : ty.Belongs features .bytes
  | mssqlGeometry (h : ty.isGeometry = true) (hspatial : features.spatial = true) : ty.Belongs features .mssqlGeometry
  | mssqlGeography (h : ty.isGeography = true) (hspatial : features.spatial = true) :
    ty.Belongs features .mssqlGeography
  | uuid (h : ty.dataType = some .guid) (huuid : features.uuid = true) : ty.Belongs features .uuid
  | jiffDate (h : ty.acceptsDateData = true) (hjiff : features.jiff = true) : ty.Belongs features (.temporal .jiffDate)
  | jiffTime (h : ty.acceptsTimeData = true) (hjiff : features.jiff = true) : ty.Belongs features (.temporal .jiffTime)
  | jiffDateTime (h : ty.acceptsNaiveDatetimeData = true) (hjiff : features.jiff = true) :
    ty.Belongs features (.temporal .jiffDateTime)
  | jiffTimestamp (h : ty.acceptsDatetimeoffsetData = true) (hjiff : features.jiff = true) :
    ty.Belongs features (.temporal .jiffTimestamp)

section Lookup
variable {features : Features} {ty : MssqlTypeInfo} (checking : TypeChecking features) {own : RustType}
  {front back : List RustType}

/-- The main list without the types of `jiff`, which come last. -/
def typesBeforeJiff (spatial uuid : Bool) : List RustType :=
  [.bool, .integer .i8, .integer .i16, .integer .i32, .integer .i64, .f32, .f64, .string, .bytes] ++
    (if spatial then [.mssqlGeometry, .mssqlGeography, .geometry] else []) ++
    if uuid then [.uuid] else []

theorem mem_listed {type : RustType} : type ∈ checking.stages.flatten ↔
    type ∈ mainTypes features ∨ ∃ part ∈ checking.order, type ∈ part.types := by
  have horder (part : TypeSection) : part ∈ checking.order ↔
      part ∈ checking.order.take checking.merged ∨ part ∈ checking.order.drop checking.merged := by
    rw [← List.mem_append, List.take_append_drop]
  simp only [TypeChecking.stages, List.flatten_cons, List.mem_append, List.mem_flatMap, ← List.flatMap_def, horder,
    or_and_right, exists_or, or_assoc]

theorem json_not_listed : .json ∉ checking.stages.flatten := by
  rw [mem_listed]
  rintro (h | ⟨part, -, h⟩)
  · obtain ⟨spatial, chrono, time, jiff, uuid⟩ := features
    cases spatial <;> cases jiff <;> cases uuid <;> simp [mainTypes] at h
  · cases part <;> simp [TypeSection.types] at h

theorem typeForId_exact (hmain : mainTypes features = front ++ own :: back)
    (hfront : ∀ b ∈ front, b.typeInfo.eq own.typeInfo = false) (h : own.typeInfo.eq ty = true) :
    checking.typeForId ty = some own := by
  refine firstMatch_cons_of_some ?_
  rw [hmain, List.append_assoc, List.cons_append]
  refine inStage_exact (fun b hb => ?_) h
  rw [← MssqlTypeInfo.eq_congr h]
  exact hfront b hb

theorem typeForId_first (hmain : mainTypes features = front ++ own :: back)
    (hfront : ∀ b ∈ front, b.compatible ty = false) (hown : own.compatible ty = true)
    (hback : ∀ b : RustType, b ≠ .json → b.typeInfo.eq ty = true → own.typeInfo.eq ty = true) :
    checking.typeForId ty = some own := by
  refine firstMatch_cons_of_some ?_
  rw [hmain, List.append_assoc, List.cons_append]
  refine inStage_first (fun b => RustType.compatible_of_eq) hfront hown fun b hb => hback b ?_
  rintro rfl
  refine json_not_listed checking (List.mem_flatten.mpr ⟨_, List.mem_cons_self, ?_⟩)
  rw [hmain, List.append_assoc, List.cons_append]
  exact List.mem_append_right _ (List.mem_cons_of_mem _ hb)

variable {checking}

/-- By the classes of the types in front, but for those just before, where no other type has a
SQL type that the owner accepts. -/
theorem typeForId_class (front near : List RustType) {c : SqlClass}
    (hmain : mainTypes features = (front ++ near) ++ own :: back) (hc : ty.sqlClass = c)
    (hown : own.compatible ty = true) (hfront : ∀ b ∈ front, c ∉ b.sqlClasses)
    (hnear : ∀ b ∈ near, b.compatible ty = false)
    (hback : ∀ b ∈ RustType.all, b ≠ .json → own.compatible b.typeInfo = true → b.typeInfo = own.typeInfo) :
    checking.typeForId ty = some own := by
  refine typeForId_first checking hmain (fun b hb => ?_) hown fun b hb h => ?_
  · rcases List.mem_append.mp hb with hb | hb
    · exact Bool.eq_false_iff.mpr fun h => hfront b hb (hc ▸ RustType.sqlClass_mem h)
    · exact hnear b hb
  · exact hback b b.mem_all hb ((RustType.compatible_congr h own).trans hown) ▸ h

theorem datetime_not_mem : ∀ spatial uuid : Bool, ∀ b ∈ typesBeforeJiff spatial uuid, .datetime ∉ b.sqlClasses := by
  decide

theorem mainTypes_jiff (h : features.jiff = true) : mainTypes features = typesBeforeJiff features.spatial features.uuid ++
    [.temporal .jiffDate, .temporal .jiffTime, .temporal .jiffDateTime, .temporal .jiffTimestamp] := by
  rw [mainTypes, if_pos h]
  rfl

theorem eq_plain {dataType : TdsDataType} (h : ty.dataType = some dataType) (hudt : dataType ≠ .udt) :
    (MssqlTypeInfo.plain "" dataType 0).eq ty = true := by
  have hcode (t : TdsDataType) : t.code = TdsDataType.udt.code → t = .udt := by cases t <;> decide
  exact MssqlTypeInfo.eq_iff.mpr ⟨(MssqlTypeInfo.code_of_dataType h).symm, .inl fun heq => hudt (hcode _ heq)⟩

/-- Dates and times belong to the first type of `jiff` that accepts them. -/
theorem typeForId_jiff {type : TemporalType} (near later : List TemporalType) (hjiff : features.jiff = true)
    {dataType : TdsDataType} (hdata : ty.dataType = some dataType) (hudt : dataType ≠ .udt)
    (hsplit : [TemporalType.jiffDate, .jiffTime, .jiffDateTime, .jiffTimestamp] = near ++ type :: later)
    (hown : type.compatible (.plain "" dataType 0) = true) (hnear : ∀ b ∈ near, b.compatible (.plain "" dataType 0) = false)
    (hback : ∀ b ∈ RustType.all, b.typeInfo.eq (.plain "" dataType 0) = true →
      type.typeInfo.eq (.plain "" dataType 0) = true) : checking.typeForId ty = some (.temporal type) := by
  have heq := eq_plain hdata hudt
  have hown' : RustType.compatible ty (.temporal type) = true := (RustType.compatible_congr heq (.temporal type)).symm.trans hown
  have hmain : mainTypes features = (typesBeforeJiff features.spatial features.uuid ++ near.map .temporal) ++
      .temporal type :: later.map .temporal := by
    rw [mainTypes_jiff hjiff, List.append_assoc, ← List.map_cons, ← List.map_append, ← hsplit]
    rfl
  refine typeForId_first checking hmain (fun b hb => ?_) hown' fun b _ h => ?_
  · rcases List.mem_append.mp hb with hb | hb
    · refine Bool.eq_false_iff.mpr fun h => datetime_not_mem _ _ b hb ?_
      exact List.mem_singleton.mp (RustType.sqlClass_mem hown') ▸ RustType.sqlClass_mem h
    · obtain ⟨t, ht, rfl⟩ := List.mem_map.mp hb
      exact (RustType.compatible_congr heq (.temporal t)).symm.trans (hnear t ht)
  · rw [← MssqlTypeInfo.eq_congr heq] at h
    exact (MssqlTypeInfo.eq_congr heq _).symm.trans (hback b b.mem_all h)

theorem isGeometry_of_isGeography (h : ty.isGeography = true) : ty.isGeometry = false := by
  obtain ⟨-, hname⟩ := of_decide_eq_true h
  refine Bool.eq_false_iff.mpr fun h' => ?_
  obtain ⟨-, hname'⟩ := of_decide_eq_true h'
  have hsame := (of_decide_eq_true hname).symm.trans (of_decide_eq_true hname')
  exact absurd hsame (by decide)

theorem MssqlTypeInfo.Belongs.typeForId_eq {type : RustType} (h : ty.Belongs features type) :
    checking.typeForId ty = some type := by
  cases h with
  | basic h heq =>
    obtain ⟨front, later, hsplit⟩ := List.append_of_mem h
    have hdistinct : basicTypes.Pairwise fun a b => a.typeInfo.eq b.typeInfo = false := by decide
    have hmain : mainTypes features = front ++ type :: (later ++ (mainTypes features).drop 7) := by
      have hbasic : mainTypes features = basicTypes ++ (mainTypes features).drop 7 := rfl
      rw [hsplit, List.append_assoc, List.cons_append] at hbasic
      exact hbasic
    rw [hsplit, List.pairwise_append] at hdistinct
    exact typeForId_exact checking hmain (fun b hb => hdistinct.2.2 b hb type List.mem_cons_self) heq
  | string h =>
    have hc : ty.sqlClass = .character := of_decide_eq_true (ty.acceptsCharacterData_eq ▸ h)
    exact typeForId_class basicTypes [] rfl hc h (by decide) (by simp) (by decide)
  | bytes h =>
    have hc : ty.sqlClass = .binary := of_decide_eq_true (ty.acceptsBinaryData_eq ▸ h)
    exact typeForId_class (basicTypes ++ [.string]) [] rfl hc h (by decide) (by simp) (by decide)
  | mssqlGeometry h hspatial =>
    have hc := ty.sqlClass_of_named (of_decide_eq_true h)
    have hmain : mainTypes features =
        (basicTypes ++ [.string, .bytes] ++ []) ++ .mssqlGeometry :: (mainTypes features).drop 10 := by
      simp only [mainTypes, hspatial, if_true]
      rfl
    exact typeForId_class _ _ hmain hc h (by decide) (by simp) (by decide)
  | mssqlGeography h hspatial =>
    have hc := ty.sqlClass_of_named (of_decide_eq_true h)
    have hmain : mainTypes features =
        (basicTypes ++ [.string, .bytes] ++ [.mssqlGeometry]) ++ .mssqlGeography :: (mainTypes features).drop 11 := by
      simp only [mainTypes, hspatial, if_true]
      rfl
    exact typeForId_class _ _ hmain hc h (by decide)
      (fun b hb => List.mem_singleton.mp hb ▸ isGeometry_of_isGeography h) (by decide)
  | uuid h huuid =>
    have hmain : mainTypes features = ((basicTypes ++ [.string, .bytes] ++
        if features.spatial then [.mssqlGeometry, .mssqlGeography, .geometry] else []) ++ []) ++ .uuid ::
          if features.jiff then
            [.temporal .jiffDate, .temporal .jiffTime, .temporal .jiffDateTime, .temporal .jiffTimestamp]
          else [] := by
      simp only [mainTypes, huuid, if_true, List.append_nil, List.append_assoc]
      rfl
    refine typeForId_class _ _ hmain (ty.sqlClass_of_dataType h) (decide_eq_true h) ?_ (by simp) (by decide)
    cases features.spatial <;> decide
  | jiffDate h hjiff =>
    exact typeForId_jiff [] _ hjiff (of_decide_eq_true h) (by decide) rfl (by decide) (by decide) (by decide)
  | jiffTime h hjiff =>
    exact typeForId_jiff [.jiffDate] _ hjiff (of_decide_eq_true h) (by decide) rfl (by decide) (by decide) (by decide)
  | jiffDateTime h hjiff =>
    simp only [acceptsNaiveDatetimeData, decide_eq_true_eq, List.mem_cons, List.not_mem_nil, or_false] at h
    rcases h with h | h | h | h <;>
      exact typeForId_jiff [.jiffDate, .jiffTime] _ hjiff h (by decide) rfl (by decide) (by decide) (by decide)
  | jiffTimestamp h hjiff =>
    exact typeForId_jiff [.jiffDate, .jiffTime, .jiffDateTime] [] hjiff (of_decide_eq_true h) (by decide) rfl (by decide)
      (by decide) (by decide)

/-- A reported type belongs to a Rust type, unless it is a date or time that `jiff` is not there
for. -/
theorem exists_belongs (h : ty.hasExactRustMapping features = true)
    (hjiff : ty.acceptsDatetimeData = true → features.jiff = true) : ∃ type, ty.Belongs features type := by
  have hbasic (type : RustType) {dataType : TdsDataType} (hdata : ty.dataType = some dataType)
      (hmem : type ∈ basicTypes) (heq : type.typeInfo.eq (.plain "" dataType 0) = true) (hudt : dataType ≠ .udt) :
      ∃ type, ty.Belongs features type :=
    ⟨type, .basic hmem ((MssqlTypeInfo.eq_congr (eq_plain hdata hudt) _).symm.trans heq)⟩
  unfold MssqlTypeInfo.hasExactRustMapping at h
  split at h
  · rename_i hspatial
    rcases (Bool.or_eq_true _ _).mp hspatial with hgeometry | hgeography
    · exact ⟨_, .mssqlGeometry hgeometry h⟩
    · exact ⟨_, .mssqlGeography hgeography h⟩
  · split at h
    · rename_i hdata
      rcases (Bool.or_eq_true _ _).mp hdata with hcharacter | hbinary
      · exact ⟨_, .string hcharacter⟩
      · exact ⟨_, .bytes hbinary⟩
    · split at h
      · rename_i hdatetime
        have hjiff := hjiff hdatetime
        simp only [MssqlTypeInfo.acceptsDatetimeData, decide_eq_true_eq, List.mem_cons, List.not_mem_nil,
          or_false] at hdatetime
        rcases hdatetime with hdata | hdata | hdata | hdata | hdata | hdata | hdata
        · exact ⟨_, .jiffDate (decide_eq_true hdata) hjiff⟩
        · exact ⟨_, .jiffTime (decide_eq_true hdata) hjiff⟩
        · exact ⟨_, .jiffDateTime (decide_eq_true (by rw [hdata]; decide)) hjiff⟩
        · exact ⟨_, .jiffTimestamp (decide_eq_true hdata) hjiff⟩
        · exact ⟨_, .jiffDateTime (decide_eq_true (by rw [hdata]; decide)) hjiff⟩
        · exact ⟨_, .jiffDateTime (decide_eq_true (by rw [hdata]; decide)) hjiff⟩
        · exact ⟨_, .jiffDateTime (decide_eq_true (by rw [hdata]; decide)) hjiff⟩
      · split at h
        · exact ⟨_, .uuid ‹_› h⟩
        · exact hbasic (.integer .i8) ‹_› (by decide) (by decide) (by decide)
        · exact hbasic (.integer .i16) ‹_› (by decide) (by decide) (by decide)
        · exact hbasic (.integer .i32) ‹_› (by decide) (by decide) (by decide)
        · exact hbasic (.integer .i64) ‹_› (by decide) (by decide) (by decide)
        · exact hbasic .f32 ‹_› (by decide) (by decide) (by decide)
        · exact hbasic .f64 ‹_› (by decide) (by decide) (by decide)
        · exact hbasic .bool ‹_› (by decide) (by decide) (by decide)
        · cases h

theorem filter_eq_nil {types : List RustType} (h : ∀ b ∈ types, ty.sqlClass ∉ b.sqlClasses) :
    types.filter (fun type => type.compatible ty) = [] :=
  List.filter_eq_nil_iff.mpr fun b hb hcompatible => h b hb (RustType.sqlClass_mem hcompatible)

variable (hdatetime : ty.acceptsDatetimeData = true)
include hdatetime

theorem sqlClass_of_datetime : ty.sqlClass = .datetime :=
  of_decide_eq_true (ty.acceptsDatetimeData_eq ▸ hdatetime)

theorem filter_main_eq_nil (hjiff : features.jiff = false) :
    (mainTypes features).filter (fun type => type.compatible ty) = [] := by
  have hmain : mainTypes features = typesBeforeJiff features.spatial features.uuid := by
    rw [mainTypes, hjiff]
    exact List.append_nil _
  rw [hmain]
  refine filter_eq_nil fun b hb => ?_
  rw [sqlClass_of_datetime hdatetime]
  exact datetime_not_mem _ _ b hb

/-- Each of the libraries has a type for a date or time. -/
theorem exists_library {part : TypeSection} (hpart : part = .chrono ∨ part = .time) :
    ∃ type ∈ part.types, type.compatible ty = true := by
  have hlibraries : ∀ part ∈ [TypeSection.chrono, .time], ∀ dataType ∈
      [TdsDataType.dateN, .timeN, .dateTime2N, .dateTimeOffsetN, .dateTime, .dateTim4, .dateTimeN],
      ∃ type ∈ part.types, type.compatible (.plain "" dataType 0) = true := by decide
  have hdata : ty.dataType ∈ [TdsDataType.dateN, .timeN, .dateTime2N, .dateTimeOffsetN, .dateTime, .dateTim4,
      .dateTimeN].map some := of_decide_eq_true hdatetime
  obtain ⟨dataType, hmem, hdata⟩ := List.mem_map.mp hdata
  obtain ⟨type, htype, hcompatible⟩ := hlibraries part (by simpa using hpart) dataType hmem
  have hudt : dataType ≠ .udt := by
    rintro rfl
    exact absurd hmem (by decide)
  exact ⟨type, htype, (RustType.compatible_congr (eq_plain hdata.symm hudt) type).symm.trans hcompatible⟩

theorem exists_typeOfLibrary {part : TypeSection} (hpart : part = .chrono ∨ part = .time) : ∃ type ∈ part.types,
    inStage (fun type => type.typeInfo.eq ty) (fun type => type.compatible ty) part.types = some type := by
  have hfound : ∃ type, inStage (fun type => type.typeInfo.eq ty) (fun type => type.compatible ty) part.types =
      some type := exists_inStage (exists_library hdatetime hpart)
  obtain ⟨type, htype⟩ := hfound
  exact ⟨type, (inStage_sound (fun b => RustType.compatible_of_eq) htype).1, htype⟩

/-- With one library alone it is the same type in whatever order. -/
theorem typeForId_only (hjiff : features.jiff = false) {part other : TypeSection} {type : RustType}
    (hpart : part ∈ checking.order) (hother : other ∉ checking.order)
    (hlibraries : part = .chrono ∧ other = .time ∨ part = .time ∧ other = .chrono)
    (htype : inStage (fun type => type.typeInfo.eq ty) (fun type => type.compatible ty) part.types = some type) :
    checking.typeForId ty = some type := by
  have hsound : ∀ b : RustType, b.typeInfo.eq ty = true → b.compatible ty = true := fun b => RustType.compatible_of_eq
  have hempty : ∀ p ∈ checking.order, p ≠ part → p.types.filter (fun type => type.compatible ty) = [] := by
    intro p hp hne
    have hdecimal : p = .bigDecimal ∨ p = .rustDecimal := by
      cases p with
      | bigDecimal => exact .inl rfl
      | rustDecimal => exact .inr rfl
      | chrono =>
        obtain ⟨rfl, rfl⟩ | ⟨rfl, rfl⟩ := hlibraries
        · exact absurd rfl hne
        · exact absurd hp hother
      | time =>
        obtain ⟨rfl, rfl⟩ | ⟨rfl, rfl⟩ := hlibraries
        · exact absurd hp hother
        · exact absurd rfl hne
    refine filter_eq_nil fun b hb => ?_
    rw [sqlClass_of_datetime hdatetime]
    have hdecimals : ∀ p ∈ [TypeSection.bigDecimal, .rustDecimal], ∀ b ∈ p.types, .datetime ∉ b.sqlClasses := by decide
    exact hdecimals p (by simpa using hdecimal) b hb
  have hmerged : (mainTypes features ++ (checking.order.take checking.merged).flatMap TypeSection.types).filter
      (fun type => type.compatible ty) =
        if part ∈ checking.order.take checking.merged then part.types.filter (fun type => type.compatible ty) else [] := by
    rw [List.filter_append, filter_main_eq_nil hdatetime hjiff, List.nil_append]
    exact filter_flatMap_only (checking.nodup.sublist (List.take_sublist _ _)) fun p hp => hempty p (List.mem_of_mem_take hp)
  rw [← inStage_filter hsound] at htype
  refine firstMatch_only hsound htype ?_ ?_
  · rw [TypeChecking.stages, List.forall_mem_cons, hmerged]
    refine ⟨by split <;> simp, fun stage hstage => ?_⟩
    obtain ⟨p, hp, rfl⟩ := List.mem_map.mp hstage
    by_cases heq : p = part
    · exact .inr (heq ▸ rfl)
    · exact .inl (hempty p (List.mem_of_mem_drop hp) heq)
  · rw [← List.take_append_drop checking.merged checking.order, List.mem_append] at hpart
    rcases hpart with hpart | hpart
    · exact ⟨_, List.mem_cons_self, by rw [hmerged, if_pos hpart]⟩
    · exact ⟨_, List.mem_cons_of_mem _ (List.mem_map_of_mem hpart), rfl⟩

/-- The library that is tried first decides. -/
theorem typeForId_leading (hjiff : features.jiff = false) {part : TypeSection} {rest : List TypeSection}
    (horder : checking.order = part :: rest) (hmerged : checking.merged = 0) (hpart : part = .chrono ∨ part = .time) :
    ∃ type ∈ part.types, checking.typeForId ty = some type := by
  obtain ⟨type, hmem, htype⟩ := exists_typeOfLibrary hdatetime hpart
  refine ⟨type, hmem, ?_⟩
  have hstages : checking.stages = mainTypes features :: part.types :: rest.map TypeSection.types := by
    rw [TypeChecking.stages, hmerged, horder]
    simp
  have hnone := inStage_eq_none (fun b => RustType.compatible_of_eq) (filter_main_eq_nil hdatetime hjiff)
  rw [TypeChecking.typeForId, hstages, firstMatch_cons_of_none hnone]
  exact firstMatch_cons_of_some htype

theorem libraries_of_reported (h : ty.hasExactRustMapping features = true) :
    (features.chrono || features.time || features.jiff) = true := by
  have hc := sqlClass_of_datetime hdatetime
  have hspatial : ¬ (ty.isGeometry || ty.isGeography) = true := by
    rw [Bool.or_eq_true]
    rintro (hnamed | hnamed)
    · exact absurd (hc.symm.trans (ty.sqlClass_of_named (of_decide_eq_true hnamed))) (by decide)
    · exact absurd (hc.symm.trans (ty.sqlClass_of_named (of_decide_eq_true hnamed))) (by decide)
  have hdata : ¬ (ty.acceptsCharacterData || ty.acceptsBinaryData) = true := by
    rw [ty.acceptsCharacterData_eq, ty.acceptsBinaryData_eq, hc]
    decide
  rwa [MssqlTypeInfo.hasExactRustMapping, if_neg hspatial, if_neg hdata, if_pos hdatetime] at h

end Lookup

/-- A type that is reported has the same Rust type in whatever order the preferred crates are
tried, except for dates and times that only `chrono` and `time` are both there for. -/
theorem typeForId_unique_iff {features : Features} {ty : MssqlTypeInfo} (h : ty.hasExactRustMapping features = true) :
    (∃ type, ∀ checking : TypeChecking features, checking.typeForId ty = some type) ↔
      ¬ (ty.acceptsDatetimeData = true ∧ features.jiff = false ∧ features.chrono = true ∧ features.time = true) := by
  constructor
  · rintro ⟨type, hall⟩ ⟨hdatetime, hjiff, hchrono, htime⟩
    let chronoFirst : TypeChecking features :=
      ⟨[.chrono, .time], 0, by decide, iff_of_true (by decide) hchrono, iff_of_true (by decide) htime⟩
    let timeFirst : TypeChecking features :=
      ⟨[.time, .chrono], 0, by decide, iff_of_true (by decide) hchrono, iff_of_true (by decide) htime⟩
    have hchronoFirst : ∃ type ∈ TypeSection.chrono.types, chronoFirst.typeForId ty = some type :=
      typeForId_leading hdatetime hjiff rfl rfl (.inl rfl)
    have htimeFirst : ∃ type ∈ TypeSection.time.types, timeFirst.typeForId ty = some type :=
      typeForId_leading hdatetime hjiff rfl rfl (.inr rfl)
    obtain ⟨c, hc, hchronoType⟩ := hchronoFirst
    obtain ⟨t, ht, htimeType⟩ := htimeFirst
    have hdisjoint : ∀ type ∈ TypeSection.chrono.types, type ∉ TypeSection.time.types := by decide
    obtain rfl : type = c := Option.some.inj ((hall chronoFirst).symm.trans hchronoType)
    obtain rfl : type = t := Option.some.inj ((hall timeFirst).symm.trans htimeType)
    exact hdisjoint type hc ht
  · intro hnot
    by_cases howned : ty.acceptsDatetimeData = true → features.jiff = true
    · obtain ⟨type, hbelongs⟩ := exists_belongs h howned
      exact ⟨type, fun checking => hbelongs.typeForId_eq⟩
    · rw [Classical.not_imp, Bool.not_eq_true] at howned
      obtain ⟨hdatetime, hjiff⟩ := howned
      have hlibraries := libraries_of_reported hdatetime h
      rw [hjiff, Bool.or_false, Bool.or_eq_true] at hlibraries
      rcases hlibraries with hchrono | htime
      · have htime : ¬ features.time = true := fun htime => hnot ⟨hdatetime, hjiff, hchrono, htime⟩
        obtain ⟨type, -, htype⟩ := exists_typeOfLibrary hdatetime (.inl rfl)
        exact ⟨type, fun checking => typeForId_only hdatetime hjiff (checking.chrono_mem.mpr hchrono)
          (mt checking.time_mem.mp htime) (.inl ⟨rfl, rfl⟩) htype⟩
      · have hchrono : ¬ features.chrono = true := fun hchrono => hnot ⟨hdatetime, hjiff, hchrono, htime⟩
        obtain ⟨type, -, htype⟩ := exists_typeOfLibrary hdatetime (.inr rfl)
        exact ⟨type, fun checking => typeForId_only hdatetime hjiff (checking.time_mem.mpr htime)
          (mt checking.chrono_mem.mp hchrono) (.inr ⟨rfl, rfl⟩) htype⟩

/-- All date and time libraries, `chrono` before `time`. -/
def TypeChecking.allLibraries : TypeChecking ⟨true, true, true, true, true⟩ :=
  ⟨[.chrono, .time, .bigDecimal], 0, by decide, by decide, by decide⟩

/-- With `jiff` a `datetime2` is the same type whichever crates are preferred. -/
theorem datetime2_unique : ∃ type, ∀ checking : TypeChecking ⟨true, true, true, true, true⟩,
    checking.typeForId .datetime2 = some type :=
  (typeForId_unique_iff (by decide)).mpr (by decide)

example : TypeChecking.allLibraries.typeForId .datetime2 = some (.temporal .jiffDateTime) := by decide +kernel

end SqlxMssql
