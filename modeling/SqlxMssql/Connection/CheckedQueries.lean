import SqlxMssql.Connection.BoundValues
import SqlxMssql.Connection.Prepared
import SqlxMssql.Types.Described

/-! # Checked queries

A query is described when it is compiled and executed when the program runs, over another
connection. Where the server returns the columns that it has described, the Rust types that
were chosen then take the columns of the row and read its values.
-/
namespace SqlxMssql
open Loops Utf8 Interaction ParamMarkers

variable {δ : Type}

section Columns
variable {column : ResultColumn} {reported : MssqlColumn} {fetched : ColumnMetadata}

/-- A column of a result set is the one that the server knows: of the wire type of its SQL type,
or of the wire type that came with a name that is not modelled. -/
structure ResultColumn.FetchedAs (column : ResultColumn) (fetched : ColumnMetadata) : Prop where
  name : fetched.columnName = column.name.getD []
  nullable : fetched.isNullable = column.isNullable
  modelled : ∀ info, fromSystemTypeName column.typeName = .ok (some info) →
    info.FetchedAs (.fromColumnMetadata fetched)
  other : fromSystemTypeName column.typeName = .ok none → toU8 column.tdsTypeId.toInt = some fetched.dataType.code

/-- The values of a column, which are `NULL` only where the column can be. -/
def ResultColumn.Returns (column : ResultColumn) (fetched : ColumnMetadata) (value : ColumnValues) : Prop :=
  (value = .null ∧ column.isNullable = true) ∨
    (MssqlTypeInfo.fromColumnMetadata fetched).Holds value ∧ value.InTemporalRange

/-- The name of a spatial type is modelled. -/
theorem fromSystemTypeName_spatial {word : String} (hword : word ∈ ["geometry", "geography"]) {name : Text}
    (h : eqIgnoreAsciiCase name word.toList = true) : fromSystemTypeName name ≠ .ok none := by
  simp only [List.mem_cons, List.not_mem_nil, or_false] at hword
  have hletters : toAsciiLowercase word.toList = word.toList ∧ word.toList.all Char.isAlpha = true := by
    rcases hword with rfl | rfl
    · exact ⟨by decide, by decide⟩
    · exact ⟨by decide, by decide⟩
  have hlower : toAsciiLowercase name = word.toList := (of_decide_eq_true h).trans hletters.1
  have hall := letters_of_toAsciiLowercase hlower (List.all_eq_true.mp hletters.2)
  have htrim : trim name = name := trim_eq_self fun c hc hblank => isWhitespace_toLower hblank (hall c hc)
  have hopen : '(' ∉ name := fun hmem => absurd (hall _ hmem) (by decide)
  rw [fromSystemTypeName_bare hopen, htrim]
  simp only [fromSystemTypeName.known, htrim, hlower, String.ofList_toList]
  rcases hword with rfl | rfl
  · intro hnone
    cases hnone
  · intro hnone
    cases hnone

theorem spatial_of_exact {features : Features} {info : MssqlTypeInfo} (hudt : info.dataType = some .udt)
    (hexact : info.hasExactRustMapping features = true) : eqIgnoreAsciiCase info.typeName "geometry".toList = true ∨
      eqIgnoreAsciiCase info.typeName "geography".toList = true := by
  simp [MssqlTypeInfo.hasExactRustMapping, MssqlTypeInfo.isGeometry, MssqlTypeInfo.isGeography, hudt,
    MssqlTypeInfo.acceptsCharacterData, MssqlTypeInfo.acceptsBinaryData, MssqlTypeInfo.acceptsDatetimeData] at hexact
  exact hexact.1

/-- A reported type that a Rust type is chosen for is the type of the column that is fetched. -/
theorem ResultColumn.FetchedAs.typeInfo {features : Features} (h : column.FetchedAs fetched)
    (hreported : column.ReportedAs reported) (hexact : reported.typeInfo.hasExactRustMapping features = true) :
    reported.typeInfo.FetchedAs (.fromColumnMetadata fetched) := by
  obtain ⟨info, hinfo, htype⟩ := hreported.typeInfo
  cases info with
  | some info =>
    have hfetched := h.modelled info hinfo
    rw [htype]
    exact ⟨hfetched.wire, hfetched.name⟩
  | none =>
    have hcode : reported.typeInfo.sqlDataType = fetched.dataType.code := by
      rw [htype, Option.getD_none, MssqlTypeInfo.withPrecisionScale, h.other hinfo, Option.getD_some]
    have hdata : reported.typeInfo.dataType = some fetched.dataType := by
      rw [MssqlTypeInfo.dataType, hcode, TdsDataType.ofCode_code]
    refine ⟨⟨_, hdata, .inl (MssqlTypeInfo.fromColumnMetadata_dataType fetched)⟩, fun hudt => ?_⟩
    -- of the types of the CLR only the spatial ones have a Rust type, and their names are modelled
    have hname : reported.typeInfo.typeName = column.typeName := by rw [htype]; rfl
    have hspatial := spatial_of_exact hudt hexact
    rw [hname] at hspatial
    rcases hspatial with hgeometry | hgeography
    · exact absurd hinfo (fromSystemTypeName_spatial (by simp) hgeometry)
    · exact absurd hinfo (fromSystemTypeName_spatial (by simp) hgeography)

end Columns

section Rows
variable {crates : Crates} {features : Features}

/-- The column of the row is the described one, and the Rust type that is chosen for it takes it
and reads its value, where the server has not described it as `NULL`. -/
structure MssqlRow.Reads (crates : Crates) (checking : TypeChecking features) (row : MssqlRow)
    (described : MssqlColumn) : Prop where
  column : ∃ column, row.columns[described.ordinal]? = some column ∧ column.ordinal = described.ordinal ∧
    column.name = described.name ∧ column.nullable = described.nullable
  value : ∃ value, row.tryGetRaw described.ordinal = .ok value ∧
    (value.raw = .null → described.nullable = some true) ∧
    (described.typeInfo.hasExactRustMapping features = true →
      ∃ type, checking.typeForId described.typeInfo = some type ∧ type.compatible value.typeInfo = true ∧
        (value.raw ≠ .null → type.ReadsAs crates value.typeInfo value.raw))

end Rows

end SqlxMssql
