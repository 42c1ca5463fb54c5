import SqlxMssql.Any.Carriers
import SqlxMssql.Spatial.Normal
import SqlxMssql.Temporal.Exchange

/-! # Values through a column

What a Rust type encodes, put in a column as the parameter that it is and read back from
there as the same type.
-/
namespace SqlxMssql
open Loops Utf8 BinaryFloats

namespace RustType
variable (crates : Crates)

/-- The value of a parameter as it comes back in a column. -/
def returned (parameter : SqlType) (column : ColumnMetadata) : MssqlValueRef :=
  (MssqlValue.fromColumnValue parameter.cell column).asRef crates.numbers

/-- A column that the type is kept in: that of its parameter, and for the spatial types a column
of their own. -/
def KeptIn (parameter : SqlType) (column : ColumnMetadata) : RustType → Prop
  | mssqlGeometry => (MssqlTypeInfo.fromColumnMetadata column).isGeometry
  | mssqlGeography => (MssqlTypeInfo.fromColumnMetadata column).isGeography
  | _ => column.dataType = parameter.wireType

/-- The values that a parameter and the server's resolution can hold. What a third-party crate
writes as a text or bytes it has to read back. -/
def Storable : (type : RustType) → type.Value crates → Prop
  | integer _, n => n.val ≤ 9223372036854775807
  | f32, bits => ¬ IsNaN32 bits
  | mssqlGeometry, value => value.geometry.Sound ∧ (encodedTables crates.geo value.geometry).Small
  | mssqlGeography, value => value.geometry.Sound ∧ (encodedTables crates.geo value.geometry).Small
  | geometry, value => ∃ bytes, crates.wkb.writeGeometry value = .ok bytes ∧ crates.wkb.readWkb bytes = .ok value
  | bigDecimal, number => crates.bigDecimal.fromStr (trim (crates.bigDecimal.toString number)) = .ok number
  | rustDecimal, number => crates.rustDecimal.fromStr (trim (crates.rustDecimal.toString number)) = .ok number
  | json, document => ∃ text, crates.json.toString document = .ok text ∧ crates.json.fromStr text = .ok document
  | temporal type, value =>
    (type.moment crates value).InRange ∧ type.ReadsMoment type.kind (type.moment crates value)
  | _, _ => True

/-- What is read where the value was written: a spatial value in its native form, a date or time
cut to the server's resolution, and everything else as it was. -/
def Kept : (type : RustType) → type.Value crates → type.Value crates → Prop
  | mssqlGeometry, written, read => read = ⟨written.srid, written.geometry.native crates.geo⟩
  | mssqlGeography, written, read => read = ⟨written.srid, written.geometry.native crates.geo⟩
  | temporal type, written, read => type.moment crates read = (type.moment crates written).truncate
  | _, written, read => read = written

/-- A parameter that the type encodes, and what every column gives back for it. -/
def Exchanges (type : RustType) (value : type.Value crates) : Prop :=
  ∃ parameter, type.encode crates value = .ok (.push parameter) ∧
    ∀ column, type.KeptIn parameter column →
      type.compatible (.fromColumnMetadata column) ∧
        ∃ read, type.decode crates (returned crates parameter column) = .ok read ∧ type.Kept crates value read

variable {crates}

/-- The column of a parameter has its wire type. -/
theorem dataType_of_column {column : ColumnMetadata} {dataType : TdsDataType} (h : column.dataType = dataType) :
    (MssqlTypeInfo.fromColumnMetadata column).dataType = some dataType := by
  rw [MssqlTypeInfo.fromColumnMetadata_dataType, h]

theorem exchanges_integer {type : IntegerType} {n : type.Value} (h : n.val ≤ 9223372036854775807) :
    Exchanges crates (.integer type) n := by
  obtain ⟨n, hrange⟩ := n
  have hlow : -9223372036854775808 ≤ n := by
    refine le_trans ?_ hrange.1
    cases type <;> decide
  have hn : (Int64.ofInt n).toInt = n := Int64.toInt_ofInt_of_le hlow (Int.lt_add_one_of_le h)
  refine ⟨.bigInt (some (Int64.ofInt n)), ?_, fun column hcolumn => ⟨?_, ⟨n, hrange⟩, ?_, rfl⟩⟩
  · have hfits : ¬ (type = .u64 ∧ 9223372036854775807 < n) := fun hbig => absurd hbig.2 (not_lt.mpr h)
    exact congrArg Except.ok (if_neg hfits)
  · have htype : (MssqlTypeInfo.fromColumnMetadata column).dataType = some .intN :=
      dataType_of_column hcolumn
    simp only [compatible, MssqlTypeInfo.acceptsNumericData, htype]
    decide
  · have hread : (returned crates (.bigInt (some (Int64.ofInt n))) column).asI64 = some n := congrArg some hn
    rw [decode, IntegerType.decode_eq_ok hread hrange]
    rfl

theorem decodeSpatial_returned (hgeo : crates.geo.Lawful) (srid : Int32) {g : Geometry} (hsound : g.Sound)
    (hsmall : (encodedTables crates.geo g).Small) {column : ColumnMetadata} {isExpected : MssqlTypeInfo → Bool}
    (hcolumn : isExpected (.fromColumnMetadata column) = true) (expected : String) :
    decodeSpatial crates.geo (returned crates (.varBinaryMax (some (wireEncode crates.geo srid g))) column) isExpected
      expected = .ok (srid, g.native crates.geo) := by
  have htype : isExpected (returned crates (.varBinaryMax (some (wireEncode crates.geo srid g))) column).typeInfo =
      true := hcolumn
  rw [decodeSpatial, if_pos htype]
  exact wireDecode_sound hgeo srid hsound hsmall

/-- The two spatial types differ in the columns that they expect and in how they wrap what is read. -/
theorem exchanges_spatial (hgeo : crates.geo.Lawful) (type : RustType) {isExpected : MssqlTypeInfo → Bool}
    {expected : String} (wrap : Int32 × Geometry → type.Value crates) {srid : Int32} {g : Geometry} (hsound : g.Sound)
    (hsmall : (encodedTables crates.geo g).Small)
    (hencode : type.encode crates (wrap (srid, g)) =
      .ok (.push (.varBinaryMax (some (wireEncode crates.geo srid g)))))
    (hkeptIn : ∀ parameter column, type.KeptIn parameter column → isExpected (.fromColumnMetadata column))
    (hcompatible : ∀ ty, isExpected ty → type.compatible ty)
    (hdecode : ∀ value, type.decode crates value =
      decodeSpatial crates.geo value isExpected expected >>= fun found => pure (wrap found))
    (hkept : type.Kept crates (wrap (srid, g)) (wrap (srid, g.native crates.geo))) :
    Exchanges crates type (wrap (srid, g)) := by
  refine ⟨_, hencode, fun column hcolumn => ?_⟩
  have hexpected := hkeptIn _ column hcolumn
  refine ⟨hcompatible _ hexpected, wrap (srid, g.native crates.geo), ?_, hkept⟩
  rw [hdecode, decodeSpatial_returned hgeo srid hsound hsmall hexpected]
  rfl

theorem exchanges_temporal (h : crates.KeepTime) {type : TemporalType} {value : type.Value crates}
    (hm : (type.moment crates value).InRange) (hreads : type.ReadsMoment type.kind (type.moment crates value)) :
    Exchanges crates (.temporal type) value := by
  have hown : type.compatible type.kind.typeInfo := by cases type <;> decide
  refine ⟨_, TemporalType.encode_eq h hm, fun column hcolumn => ?_⟩
  obtain ⟨read, hread⟩ := (TemporalType.exists_decode_cell_iff h hm hown).mpr hreads
  refine ⟨?_, read, ?_, ?_⟩
  · have htype := dataType_of_column hcolumn
    have hkind : type.kind.typeInfo.dataType = some (type.kind.parameter (type.moment crates value)).wireType := by
      cases type <;> rfl
    rw [← hkind] at htype
    cases type <;> simpa [compatible, TemporalType.compatible, MssqlTypeInfo.acceptsDateData,
      MssqlTypeInfo.acceptsTimeData, MssqlTypeInfo.acceptsNaiveDatetimeData, MssqlTypeInfo.acceptsDatetimeoffsetData,
      htype] using hown
  · change (type.decode crates _).mapError Failure.error = _
    rw [show (returned crates (type.kind.parameter (type.moment crates value)) column).raw =
      (type.kind.parameter (type.moment crates value)).cell from rfl, hread]
    rfl
  · change type.moment crates read = _
    rw [TemporalType.decode_moment h hm hown hread, TemporalType.keeps_moment]

theorem exchanges_text {type : RustType} {value : type.Value crates} {text : Text}
    (hencode : type.encode crates value = .ok (.push (.nVarcharMax (some text))))
    (hcharacters : ∀ ty : MssqlTypeInfo, ty.acceptsCharacterData → type.compatible ty)
    (hkept : ∀ column, type.KeptIn (.nVarcharMax (some text)) column → column.dataType = .nVarChar)
    (hdecode : ∀ column, ∃ read, type.decode crates (returned crates (.nVarcharMax (some text)) column) = .ok read ∧
      type.Kept crates value read) : Exchanges crates type value := by
  refine ⟨_, hencode, fun column hcolumn => ⟨hcharacters _ ?_, hdecode column⟩⟩
  have htype : (MssqlTypeInfo.fromColumnMetadata column).dataType = some .nVarChar :=
    dataType_of_column (hkept column hcolumn)
  simp only [MssqlTypeInfo.acceptsCharacterData, htype]
  decide

theorem exchanges_geometry {value : Geometry} {bytes : List UInt8} (hwrite : crates.wkb.writeGeometry value = .ok bytes)
    (hread : crates.wkb.readWkb bytes = .ok value) : Exchanges crates .geometry value := by
  have hencode : encodeWkb crates value = .push (.varBinaryMax (some bytes)) := by
    funext buf
    simp only [encodeWkb, hwrite]
  refine ⟨.varBinaryMax (some bytes), congrArg Except.ok hencode, fun column hcolumn => ?_⟩
  have htype : (MssqlTypeInfo.fromColumnMetadata column).dataType = some .bigVarBinary :=
    dataType_of_column hcolumn
  refine ⟨?_, value, ?_, rfl⟩
  · simp only [compatible, MssqlTypeInfo.acceptsBinaryData, htype]
    decide
  · have hudt : ¬ (returned crates (.varBinaryMax (some bytes)) column).typeInfo.dataType = some .udt := by
      change ¬ (MssqlTypeInfo.fromColumnMetadata column).dataType = some .udt
      rw [htype]
      decide
    have hdecode : decodeWkb crates (returned crates (.varBinaryMax (some bytes)) column) = .ok value := by
      rw [decodeWkb, if_neg hudt]
      exact hread
    rw [decode, hdecode]
    rfl

theorem exchanges_json {document : crates.json.Document} {text : Text} (hwrite : crates.json.toString document = .ok text)
    (hread : crates.json.fromStr text = .ok document) : Exchanges crates .json document := by
  have hencode : encodeJson crates document = .push (.nVarcharMax (some text)) := by
    funext buf
    simp only [encodeJson, hwrite]
  refine exchanges_text (congrArg Except.ok hencode) (fun ty hty => ?_) (fun _ => id) fun column => ⟨document, ?_, rfl⟩
  · rw [compatible, hty, Bool.true_or]
  · exact congrArg (Except.mapError Failure.error) hread

/-- Every value that can be stored is encoded, and read back from each column it is kept in. -/
theorem exchanges (hkeep : crates.KeepTime) (hgeo : crates.geo.Lawful) {type : RustType} {value : type.Value crates}
    (h : type.Storable crates value) : Exchanges crates type value := by
  cases type with
  | bool =>
    refine ⟨_, rfl, fun column hcolumn => ⟨?_, value, rfl, rfl⟩⟩
    have htype : (MssqlTypeInfo.fromColumnMetadata column).dataType = some .bitN :=
      dataType_of_column hcolumn
    simp only [compatible, MssqlTypeInfo.acceptsBooleanData, htype]
    decide
  | integer type => exact exchanges_integer h
  | f32 =>
    refine ⟨_, rfl, fun column hcolumn => ⟨?_, value, ?_, rfl⟩⟩
    · have htype : (MssqlTypeInfo.fromColumnMetadata column).dataType = some .fltN :=
        dataType_of_column hcolumn
      simp only [compatible, MssqlTypeInfo.acceptsNumericData, htype]
      decide
    · exact congrArg Except.ok (real_of_f64 h)
  | f64 =>
    refine ⟨_, rfl, fun column hcolumn => ⟨?_, value, rfl, rfl⟩⟩
    have htype : (MssqlTypeInfo.fromColumnMetadata column).dataType = some .fltN :=
      dataType_of_column hcolumn
    simp only [compatible, MssqlTypeInfo.acceptsNumericData, htype]
    decide
  | string => exact exchanges_text rfl (fun _ => id) (fun _ => id) fun _ => ⟨value, rfl, rfl⟩
  | bytes =>
    refine ⟨_, rfl, fun column hcolumn => ⟨?_, value, rfl, rfl⟩⟩
    have htype : (MssqlTypeInfo.fromColumnMetadata column).dataType = some .bigVarBinary :=
      dataType_of_column hcolumn
    simp only [compatible, MssqlTypeInfo.acceptsBinaryData, htype]
    decide
  | mssqlGeometry =>
    exact exchanges_spatial hgeo .mssqlGeometry (fun found => (⟨found.1, found.2⟩ : MssqlGeometry)) h.1 h.2 rfl
      (fun _ _ => id) (fun _ => id) (fun _ => rfl) rfl
  | mssqlGeography =>
    exact exchanges_spatial hgeo .mssqlGeography (fun found => (⟨found.1, found.2⟩ : MssqlGeography)) h.1 h.2 rfl
      (fun _ _ => id) (fun _ => id) (fun _ => rfl) rfl
  | geometry =>
    obtain ⟨bytes, hwrite, hread⟩ := h
    exact exchanges_geometry hwrite hread
  | uuid =>
    refine ⟨_, rfl, fun column hcolumn => ⟨?_, value, rfl, rfl⟩⟩
    have htype : (MssqlTypeInfo.fromColumnMetadata column).dataType = some .guid :=
      dataType_of_column hcolumn
    exact decide_eq_true htype
  | bigDecimal =>
    refine exchanges_text rfl (fun ty hty => ?_) (fun _ => id) fun column => ⟨value, ?_, rfl⟩
    · rw [compatible, hty, Bool.or_true]
    · exact congrArg (Except.mapError Failure.error) h
  | rustDecimal =>
    refine exchanges_text rfl (fun ty hty => ?_) (fun _ => id) fun column => ⟨value, ?_, rfl⟩
    · rw [compatible, hty, Bool.or_true]
    · exact congrArg (Except.mapError Failure.error) h
  | json =>
    obtain ⟨text, hwrite, hread⟩ := h
    exact exchanges_json hwrite hread
  | temporal type => exact exchanges_temporal hkeep h.1 h.2

end RustType

end SqlxMssql
