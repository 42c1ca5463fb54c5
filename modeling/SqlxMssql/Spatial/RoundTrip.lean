import SqlxMssql.Spatial.Lookup

/-! # Spatial values survive their serialization

The decoder rebuilds from the tables of a geometry the geometry that was laid out, in the
form that the serialization can express.
-/
namespace SqlxMssql
open Loops ByteFormats ParentTables

variable {geo : GeoTypes} {l : Layout}

section Forms

theorem forms_eq_map (gs : List Geometry) : Geometry.forms geo gs = gs.map (Geometry.form geo) := by
  induction gs with
  | nil => rfl
  | cons g gs ih => rw [Geometry.forms, ih, List.map_cons]

theorem natives_eq_map (gs : List Geometry) : Geometry.natives geo gs = gs.map (Geometry.native geo) := by
  induction gs with
  | nil => rfl
  | cons g gs ih => rw [Geometry.natives, ih, List.map_cons]

theorem size_le_sizes {t : OrderedTree Form} {ts : List (OrderedTree Form)} (h : t ∈ ts) : t.size ≤ sizes ts := by
  induction ts with
  | nil => cases h
  | cons s ts ih =>
    rw [sizes]
    rcases List.mem_cons.mp h with rfl | h
    · exact Nat.le_add_right _ _
    · exact (ih h).trans (Nat.le_add_left _ _)

theorem outlinesOfAll_eq (ts : List (OrderedTree Form)) : outlinesOfAll ts = ts.flatMap outlinesOf := by
  induction ts with
  | nil => rfl
  | cons t ts ih => rw [outlinesOfAll, ih, List.flatMap_cons]

@[simp] theorem outlinesOf_leaf (form : Form) : outlinesOf (.node form []) = form.outlines := by
  simp [outlinesOf, outlinesOfAll]

theorem Polygon.exterior_ne_nil {p : Polygon} (hp : p.Sound) (h : ¬ p.isEmpty = true) : p.exterior ≠ [] := by
  intro hexterior
  refine hp.hole ?_ hexterior
  simpa [Polygon.isEmpty, hexterior] using h

end Forms

section Filled

/-- Every figure of the tree owns a point, and no interior ring is without its exterior. -/
structure WellLaid (t : OrderedTree Form) : Prop where
  filled : ∀ o ∈ outlinesOf t, o.coords ≠ []
  guarded : ∀ rest, Guarded rest → Guarded (outlinesOf t ++ rest)

theorem wellLaid_empty (shapeType : UInt8) : WellLaid (emptyForm shapeType) := by
  constructor
  · intro o ho
    rw [emptyForm, outlinesOf_leaf] at ho
    cases ho
  · intro rest hrest
    rwa [emptyForm, outlinesOf_leaf]

theorem wellLaid_stroke (shapeType : UInt8) {coords : List Coord} (h : coords ≠ []) :
    WellLaid (strokeForm shapeType coords) := by
  constructor
  · intro o ho
    rw [strokeForm, outlinesOf_leaf] at ho
    rwa [List.mem_singleton.mp ho]
  · intro rest hrest
    rw [strokeForm, outlinesOf_leaf]
    exact hrest.stroke

theorem wellLaid_lineString (cs : LineString) : WellLaid (lineStringForm cs) := by
  unfold lineStringForm
  split
  · exact wellLaid_empty _
  · rename_i h
    exact wellLaid_stroke _ (by simpa using h)

theorem wellLaid_polygon {p : Polygon} (hp : p.Sound) : WellLaid (polygonForm p) := by
  unfold polygonForm
  split
  · exact wellLaid_empty _
  · rename_i h
    constructor
    · intro o ho
      rw [outlinesOf_leaf] at ho
      rcases List.mem_cons.mp ho with rfl | ho
      · exact Polygon.exterior_ne_nil hp h
      · obtain ⟨ring, hring, rfl⟩ := List.mem_map.mp ho
        simpa using (List.mem_filter.mp hring).2
    · intro rest hrest
      rw [outlinesOf_leaf]
      exact guarded_exterior

theorem guarded_flatMap {ts : List (OrderedTree Form)} (h : ∀ t ∈ ts, WellLaid t) {rest : List Outline}
    (hrest : Guarded rest) : Guarded (ts.flatMap outlinesOf ++ rest) := by
  induction ts with
  | nil => exact hrest
  | cons t ts ih =>
    rw [List.flatMap_cons, List.append_assoc]
    exact (h t List.mem_cons_self).guarded _ (ih fun s hs => h s (List.mem_cons_of_mem t hs))

theorem wellLaid_parts (shapeType : UInt8) {ts : List (OrderedTree Form)} (h : ∀ t ∈ ts, WellLaid t) :
    WellLaid (.node ⟨shapeType, []⟩ ts) := by
  have houtlines : outlinesOf (.node ⟨shapeType, []⟩ ts) = ts.flatMap outlinesOf := by
    rw [outlinesOf, outlinesOfAll_eq, List.nil_append]
  constructor
  · intro o ho
    rw [houtlines] at ho
    obtain ⟨t, ht, ho⟩ := List.mem_flatMap.mp ho
    exact (h t ht).filled o ho
  · intro rest hrest
    rw [houtlines]
    exact guarded_flatMap h hrest

mutual
theorem wellLaid_form (hgeo : geo.Lawful) (g : Geometry) (hg : g.Sound) : WellLaid (g.form geo) := by
  cases g with
  | point c => exact wellLaid_stroke _ (List.cons_ne_nil _ _)
  | line start stop => exact wellLaid_stroke _ (List.cons_ne_nil _ _)
  | lineString cs => exact wellLaid_lineString cs
  | polygon p => exact wellLaid_polygon hg
  | multiPoint cs =>
    apply wellLaid_parts
    intro t ht
    obtain ⟨c, -, rfl⟩ := List.mem_map.mp ht
    exact wellLaid_stroke _ (List.cons_ne_nil _ _)
  | multiLineString lines =>
    apply wellLaid_parts
    intro t ht
    obtain ⟨cs, -, rfl⟩ := List.mem_map.mp ht
    exact wellLaid_lineString cs
  | multiPolygon ps =>
    apply wellLaid_parts
    intro t ht
    obtain ⟨p, hp, rfl⟩ := List.mem_map.mp ht
    exact wellLaid_polygon (hg p hp)
  | geometryCollection gs => exact wellLaid_parts _ (wellLaid_forms hgeo gs hg)
  | rect min max =>
    obtain ⟨ring, hring, hsound⟩ := hgeo.rectToPolygon min max hg.1 hg.2
    rw [Geometry.form, hring]
    exact wellLaid_polygon (.of_ring hsound)
  | triangle v0 v1 v2 =>
    obtain ⟨ring, hring, hsound⟩ := hgeo.triangleToPolygon v0 v1 v2 hg.1 hg.2.1 hg.2.2
    rw [Geometry.form, hring]
    exact wellLaid_polygon (.of_ring hsound)

theorem wellLaid_forms (hgeo : geo.Lawful) (gs : List Geometry) (hgs : Geometry.AllSound gs) :
    ∀ t ∈ Geometry.forms geo gs, WellLaid t := by
  cases gs with
  | nil =>
    intro t ht
    cases ht
  | cons g gs =>
    intro t ht
    rw [Geometry.forms] at ht
    rcases List.mem_cons.mp ht with rfl | ht
    · exact wellLaid_form hgeo g hgs.1
    · exact wellLaid_forms hgeo gs hgs.2 t ht
end

end Filled

section Building

/-- The figure that the root of a numbered tree refers to. -/
def figureOf (k : ℕ) : OrderedTree Form → Option ℕ
  | .node form ts => if form.outlines.isEmpty && ts.isEmpty then none else some k

theorem stored_number {k i : ℕ} {shapeType : UInt8} {os : List Outline} {ts : List (OrderedTree Form)}
    (h : Stored l.entries i (number k (.node ⟨shapeType, os⟩ ts))) :
    i < l.entries.length ∧
      (∃ parent, indexed l.tables.shapes i =
        .ok ⟨parent, tableIndex (figureOf k (.node ⟨shapeType, os⟩ ts)), shapeType⟩) ∧
      StoredAll l.entries (children l.entries i) (numberAll (k + os.length) ts) := by
  rw [number, Stored] at h
  obtain ⟨⟨parent, hentry⟩, hchildren⟩ := h
  exact ⟨(List.getElem?_eq_some_iff.mp hentry).1, ⟨_, indexed_eq hentry⟩, hchildren⟩

theorem figureCoords_lineString (hl : l.Readable) {cs : LineString} {k : ℕ} {rest : List Outline}
    (h : l.outlines.drop k = outlinesOf (lineStringForm cs) ++ rest) :
    l.tables.figureCoords (tableIndex (figureOf k (lineStringForm cs))) = .ok cs := by
  cases cs with
  | nil => exact figureCoords_none l.tables
  | cons c cs =>
    rw [lineStringForm, if_neg (by simp), strokeForm, outlinesOf_leaf] at h
    exact figureCoords_eq hl h

theorem firstCoord_point (hl : l.Readable) {c : Coord} {k : ℕ} {rest : List Outline}
    (h : l.outlines.drop k = outlinesOf (strokeForm shapePoint [c]) ++ rest) :
    l.tables.firstCoord (tableIndex (figureOf k (strokeForm shapePoint [c]))) = .ok c := by
  rw [strokeForm, outlinesOf_leaf] at h
  change (l.tables.figureCoords (tableIndex (some k)) >>= _) = _
  rw [figureCoords_eq hl h]
  rfl

theorem buildPolygon_polygon (hgeo : geo.Lawful) (hl : l.Readable) {p : Polygon} (hp : p.Sound) {k : ℕ}
    {rest : List Outline} (hrest : Guarded rest) (h : l.outlines.drop k = outlinesOf (polygonForm p) ++ rest) :
    l.tables.buildPolygon geo (tableIndex (figureOf k (polygonForm p))) = .ok p.dropEmptyHoles := by
  have hnew := hgeo.polygonNew_eq hp.dropEmptyHoles
  unfold polygonForm at h ⊢
  by_cases hempty : p.isEmpty = true
  · have hdrop : p.dropEmptyHoles = ⟨[], []⟩ := by
      obtain ⟨exterior, interiors⟩ := p
      simpa [Polygon.isEmpty, Polygon.dropEmptyHoles] using hempty
    rw [hdrop] at hnew ⊢
    rw [if_pos hempty]
    exact congrArg Except.ok hnew
  · rw [if_neg hempty, outlinesOf_leaf, List.cons_append] at h
    rw [if_neg hempty]
    have hk := (hl.index_lt h).2
    have hexterior := figureCoords_eq hl h
    have hinteriors := interiorRings_eq hl hrest (p.interiors.filter (· ≠ [])) (zipIdx_drop h).2
    change l.tables.buildPolygon geo (tableIndex (some k)) = _
    unfold Tables.buildPolygon
    rw [if_neg (tableIndex_not_neg hk), hexterior, toUsize_tableIndex hk]
    change (l.tables.interiorRings (l.tables.figures.zipIdx.drop (k + 1)) >>= _) = _
    rw [hinteriors]
    exact congrArg Except.ok hnew

theorem mapM_parts {α β : Type} (form : α → OrderedTree Form) (value : α → β) (read : ℕ → Decoded β) {parts : List α}
    (hlaid : ∀ a ∈ parts, WellLaid (form a))
    (hread : ∀ a ∈ parts, ∀ i k rest, Stored l.entries i (number k (form a)) →
      l.outlines.drop k = outlinesOf (form a) ++ rest → Guarded rest → read i = .ok (value a))
    {indices : List ℕ} {k : ℕ} {rest : List Outline}
    (hstored : StoredAll l.entries indices (numberAll k (parts.map form)))
    (hdrop : l.outlines.drop k = outlinesOfAll (parts.map form) ++ rest) (hrest : Guarded rest) :
    indices.mapM read = .ok (parts.map value) := by
  induction parts generalizing indices k with
  | nil =>
    cases indices with
    | nil => rfl
    | cons i indices => cases hstored
  | cons a parts ih =>
    cases indices with
    | nil => cases hstored
    | cons i indices =>
      rw [List.map_cons, numberAll, StoredAll] at hstored
      rw [List.map_cons, outlinesOfAll, List.append_assoc] at hdrop
      have hlater : ∀ b ∈ parts, WellLaid (form b) := fun b hb => hlaid b (List.mem_cons_of_mem a hb)
      have hguarded : Guarded (outlinesOfAll (parts.map form) ++ rest) := by
        rw [outlinesOfAll_eq]
        refine guarded_flatMap (fun t ht => ?_) hrest
        obtain ⟨b, hb, rfl⟩ := List.mem_map.mp ht
        exact hlater b hb
      have hnext : l.outlines.drop (k + (outlinesOf (form a)).length) = outlinesOfAll (parts.map form) ++ rest := by
        rw [← List.drop_drop, hdrop, List.drop_left]
      have hfirst := hread a List.mem_cons_self i k _ hstored.1 hdrop hguarded
      have hothers := ih hlater (fun b hb => hread b (List.mem_cons_of_mem a hb)) hstored.2 hnext
      rw [List.mapM_cons, hfirst, hothers]
      rfl

theorem eachChild_parts {α β : Type} (hl : l.Readable) (form : α → OrderedTree Form) (value : α → β)
    (read : Int32 → Decoded β) {parts : List α} (hlaid : ∀ a ∈ parts, WellLaid (form a))
    (hread : ∀ a ∈ parts, ∀ k rest, l.outlines.drop k = outlinesOf (form a) ++ rest → Guarded rest →
      read (tableIndex (figureOf k (form a))) = .ok (value a))
    {i k : ℕ} {rest : List Outline} (hi : i < l.entries.length)
    (hstored : StoredAll l.entries (children l.entries i) (numberAll k (parts.map form)))
    (hdrop : l.outlines.drop k = outlinesOfAll (parts.map form) ++ rest) (hrest : Guarded rest) :
    l.tables.eachChild i read = .ok (parts.map value) := by
  unfold Tables.eachChild
  rw [children_eq hl hi]
  refine mapM_parts form value _ hlaid (fun a ha j m later hj hm hlater => ?_) hstored hdrop hrest
  have hvalue := hread a ha m later hm hlater
  rcases hform : form a with ⟨⟨shapeType, os⟩, ts⟩
  rw [hform] at hj hvalue
  obtain ⟨-, ⟨parent, hshape⟩, -⟩ := stored_number hj
  rw [hshape]
  exact hvalue

/-- Wherever the tree of a geometry stands in a layout, the geometry is rebuilt from it. -/
def Rebuilt (geo : GeoTypes) (l : Layout) (g : Geometry) : Prop :=
  ∀ fuel i k rest, (g.form geo).size ≤ fuel → Stored l.entries i (number k (g.form geo)) →
    l.outlines.drop k = outlinesOf (g.form geo) ++ rest → Guarded rest →
      l.tables.buildShape geo fuel i = .ok (g.native geo)

theorem Rebuilt.of_node {g : Geometry} {shapeType : UInt8} {os : List Outline} {ts : List (OrderedTree Form)}
    (hform : g.form geo = .node ⟨shapeType, os⟩ ts)
    (h : ∀ fuel i k rest parent, i < l.entries.length → sizes ts ≤ fuel →
      indexed l.tables.shapes i = .ok ⟨parent, tableIndex (figureOf k (g.form geo)), shapeType⟩ →
      StoredAll l.entries (children l.entries i) (numberAll (k + os.length) ts) →
      l.outlines.drop k = outlinesOf (g.form geo) ++ rest → Guarded rest →
        l.tables.buildShape geo (fuel + 1) i = .ok (g.native geo)) : Rebuilt geo l g := by
  intro fuel i k rest hfuel hstored hdrop hrest
  rw [hform] at hstored hfuel
  rw [OrderedTree.size] at hfuel
  obtain ⟨hi, ⟨parent, hshape⟩, hchildren⟩ := stored_number hstored
  rw [← hform] at hshape
  cases fuel with
  | zero => omega
  | succ fuel => exact h fuel i k rest parent hi (by omega) hshape hchildren hdrop hrest

theorem lineStringForm_node (cs : LineString) : ∃ os, lineStringForm cs = .node ⟨shapeLineString, os⟩ [] := by
  unfold lineStringForm
  split
  · exact ⟨_, rfl⟩
  · exact ⟨_, rfl⟩

theorem polygonForm_node (p : Polygon) : ∃ os, polygonForm p = .node ⟨shapePolygon, os⟩ [] := by
  unfold polygonForm
  split
  · exact ⟨_, rfl⟩
  · exact ⟨_, rfl⟩

theorem rebuilt_lineString (hl : l.Readable) {g : Geometry} {cs : LineString}
    (hform : g.form geo = lineStringForm cs) (hnative : g.native geo = .lineString cs) : Rebuilt geo l g := by
  obtain ⟨os, hnode⟩ := lineStringForm_node cs
  apply Rebuilt.of_node (hform.trans hnode)
  intro fuel i k rest parent hi hfuel hshape _ hdrop hrest
  rw [hform] at hshape hdrop
  rw [Tables.buildShape, hshape, hnative]
  change (l.tables.figureCoords _ >>= _) = _
  rw [figureCoords_lineString hl hdrop]
  rfl

theorem rebuilt_polygon (hgeo : geo.Lawful) (hl : l.Readable) {g : Geometry} {p : Polygon} (hp : p.Sound)
    (hform : g.form geo = polygonForm p) (hnative : g.native geo = .polygon p.dropEmptyHoles) :
    Rebuilt geo l g := by
  obtain ⟨os, hnode⟩ := polygonForm_node p
  apply Rebuilt.of_node (hform.trans hnode)
  intro fuel i k rest parent hi hfuel hshape _ hdrop hrest
  rw [hform] at hshape hdrop
  rw [Tables.buildShape, hshape, hnative]
  change (l.tables.buildPolygon geo _ >>= _) = _
  rw [buildPolygon_polygon hgeo hl hp hrest hdrop]
  rfl

theorem drop_parts {shapeType : UInt8} {ts : List (OrderedTree Form)} {k : ℕ} {rest : List Outline}
    (h : l.outlines.drop k = outlinesOf (.node ⟨shapeType, []⟩ ts) ++ rest) :
    l.outlines.drop k = outlinesOfAll ts ++ rest := by
  rwa [outlinesOf, List.nil_append] at h

/-- A shape whose parts are read one by one. -/
theorem rebuilt_parts {α β : Type} (hl : l.Readable) {g : Geometry} {shapeType : UInt8} {parts : List α}
    (form : α → OrderedTree Form) (value : α → β) (read : Int32 → Decoded β) (wrap : List β → Geometry)
    (hform : g.form geo = .node ⟨shapeType, []⟩ (parts.map form)) (hnative : g.native geo = wrap (parts.map value))
    (hlaid : ∀ a ∈ parts, WellLaid (form a))
    (hread : ∀ a ∈ parts, ∀ k rest, l.outlines.drop k = outlinesOf (form a) ++ rest → Guarded rest →
      read (tableIndex (figureOf k (form a))) = .ok (value a))
    (hbuild : ∀ fuel i parent figureOffset, indexed l.tables.shapes i = .ok ⟨parent, figureOffset, shapeType⟩ →
      l.tables.buildShape geo (fuel + 1) i = do return wrap (← l.tables.eachChild i read)) : Rebuilt geo l g := by
  apply Rebuilt.of_node hform
  intro fuel i k rest parent hi hfuel hshape hchildren hdrop hrest
  rw [hform] at hdrop
  have hparts := eachChild_parts hl form value read hlaid hread hi hchildren (drop_parts hdrop) hrest
  rw [hbuild fuel i parent _ hshape, hparts, hnative]
  rfl

mutual
theorem rebuilt (hgeo : geo.Lawful) (hl : l.Readable) (g : Geometry) (hg : g.Sound) : Rebuilt geo l g := by
  cases g with
  | point c =>
    apply Rebuilt.of_node rfl
    intro fuel i k rest parent hi hfuel hshape _ hdrop hrest
    rw [Tables.buildShape, hshape]
    change (l.tables.firstCoord _ >>= _) = _
    rw [Geometry.form] at hdrop ⊢
    rw [firstCoord_point hl hdrop]
    rfl
  | line start stop => exact rebuilt_lineString hl rfl rfl
  | lineString cs => exact rebuilt_lineString hl rfl rfl
  | polygon p => exact rebuilt_polygon hgeo hl hg rfl rfl
  | multiPoint cs =>
    exact rebuilt_parts hl (fun c => strokeForm shapePoint [c]) id l.tables.firstCoord .multiPoint rfl
      (congrArg Geometry.multiPoint (List.map_id cs).symm)
      (fun c _ => wellLaid_stroke _ (List.cons_ne_nil _ _)) (fun c _ k rest h _ => firstCoord_point hl h)
      fun fuel i parent figureOffset hshape => by rw [Tables.buildShape, hshape]; rfl
  | multiLineString lines =>
    exact rebuilt_parts hl lineStringForm id l.tables.figureCoords .multiLineString rfl
      (congrArg Geometry.multiLineString (List.map_id lines).symm)
      (fun cs _ => wellLaid_lineString cs) (fun cs _ k rest h _ => figureCoords_lineString hl h)
      fun fuel i parent figureOffset hshape => by rw [Tables.buildShape, hshape]; rfl
  | multiPolygon ps =>
    exact rebuilt_parts hl polygonForm Polygon.dropEmptyHoles (l.tables.buildPolygon geo) .multiPolygon rfl rfl
      (fun p hp => wellLaid_polygon (hg p hp)) (fun p hp k rest h hr => buildPolygon_polygon hgeo hl (hg p hp) hr h)
      fun fuel i parent figureOffset hshape => by rw [Tables.buildShape, hshape]; rfl
  | geometryCollection gs =>
    apply Rebuilt.of_node rfl
    intro fuel i k rest parent hi hfuel hshape hchildren hdrop hrest
    have hrebuilt := rebuiltAll hgeo hl gs hg
    have hlaid := wellLaid_forms hgeo gs hg
    rw [forms_eq_map] at hlaid hfuel hchildren
    have hdrop := drop_parts hdrop
    rw [forms_eq_map] at hdrop
    have hparts := mapM_parts (Geometry.form geo) (Geometry.native geo) (l.tables.buildShape geo fuel)
      (fun g hg => hlaid _ (List.mem_map_of_mem hg))
      (fun g hg j m later hj hm hlater => hrebuilt g hg fuel j m later
        ((size_le_sizes (List.mem_map_of_mem hg)).trans hfuel) hj hm hlater)
      hchildren hdrop hrest
    rw [Tables.buildShape, hshape]
    change ((l.tables.children i).mapM (l.tables.buildShape geo fuel) >>= _) = _
    rw [children_eq hl hi, hparts, Geometry.native, natives_eq_map]
    rfl
  | rect min max =>
    obtain ⟨ring, hring, hsound⟩ := hgeo.rectToPolygon min max hg.1 hg.2
    exact rebuilt_polygon hgeo hl (hring ▸ .of_ring hsound) rfl rfl
  | triangle v0 v1 v2 =>
    obtain ⟨ring, hring, hsound⟩ := hgeo.triangleToPolygon v0 v1 v2 hg.1 hg.2.1 hg.2.2
    exact rebuilt_polygon hgeo hl (hring ▸ .of_ring hsound) rfl rfl

theorem rebuiltAll (hgeo : geo.Lawful) (hl : l.Readable) (gs : List Geometry) (hgs : Geometry.AllSound gs) :
    ∀ g ∈ gs, Rebuilt geo l g := by
  cases gs with
  | nil =>
    intro g hg
    cases hg
  | cons g gs =>
    intro h hh
    rcases List.mem_cons.mp hh with hh | hh
    · rw [hh]
      exact rebuilt hgeo hl g hgs.1
    · exact rebuiltAll hgeo hl gs hgs.2 h hh
end

end Building

section Encoding

theorem polygonForm_dropEmptyHoles (p : Polygon) : polygonForm p.dropEmptyHoles = polygonForm p := by
  have hholes : holes p.dropEmptyHoles.interiors = holes p.interiors := by
    simp [holes, Polygon.dropEmptyHoles]
  have hempty : p.dropEmptyHoles.isEmpty = p.isEmpty := by
    rw [Bool.eq_iff_iff]
    simp only [Polygon.isEmpty, Polygon.dropEmptyHoles, Bool.and_eq_true, List.all_eq_true, List.mem_filter,
      List.isEmpty_iff, decide_eq_true_eq]
    constructor
    · rintro ⟨hexterior, h⟩
      refine ⟨hexterior, fun ring hring => ?_⟩
      by_contra hne
      exact hne (h ring ⟨hring, hne⟩)
    · rintro ⟨hexterior, h⟩
      exact ⟨hexterior, fun ring hring => h ring hring.1⟩
  unfold polygonForm
  rw [hempty, hholes]
  rfl

mutual
/-- What the serialization cannot express leaves no mark on the layout. -/
theorem form_native (g : Geometry) : (g.native geo).form geo = g.form geo := by
  cases g with
  | point c => rfl
  | line start stop => rfl
  | lineString cs => rfl
  | polygon p => exact polygonForm_dropEmptyHoles p
  | multiPoint cs => rfl
  | multiLineString lines => rfl
  | multiPolygon ps =>
    rw [Geometry.native, Geometry.form, Geometry.form, List.map_map]
    exact congrArg _ (List.map_congr_left fun p _ => polygonForm_dropEmptyHoles p)
  | geometryCollection gs => rw [Geometry.native, Geometry.form, Geometry.form, forms_natives gs]
  | rect min max => exact polygonForm_dropEmptyHoles _
  | triangle v0 v1 v2 => exact polygonForm_dropEmptyHoles _

theorem forms_natives (gs : List Geometry) :
    Geometry.forms geo (Geometry.natives geo gs) = Geometry.forms geo gs := by
  cases gs with
  | nil => rfl
  | cons g gs => rw [Geometry.natives, Geometry.forms, Geometry.forms, form_native g, forms_natives gs]
end

theorem wireEncode_native (srid : Int32) (g : Geometry) :
    wireEncode geo srid (g.native geo) = wireEncode geo srid g := by
  have htables : encodedTables geo (g.native geo) = encodedTables geo g := by
    rw [encodedTables_eq, encodedTables_eq, layoutOf, layoutOf, form_native]
  rw [wireEncode, wireEncode, htables]

theorem layoutOf_entries (g : Geometry) : (layoutOf geo g).entries = (number 0 (g.form geo)).entries none 0 := rfl

theorem layoutOf_outlines (g : Geometry) : (layoutOf geo g).outlines = outlinesOf (g.form geo) := rfl

theorem length_layoutOf_entries (g : Geometry) : (layoutOf geo g).entries.length = (g.form geo).size := by
  rw [layoutOf_entries, length_entries, size_number]

theorem readable_layoutOf (hgeo : geo.Lawful) {g : Geometry} (hg : g.Sound) (h : (encodedTables geo g).Small) :
    (layoutOf geo g).Readable where
  small := by rwa [← encodedTables_eq]
  filled := (wellLaid_form hgeo g hg).filled
  parents e he j hj := by
    rw [layoutOf_entries] at he
    rw [length_layoutOf_entries]
    rcases parent_of_mem_entries he with hnone | ⟨i, hi, -, hlt⟩
    · rw [hj] at hnone
      cases hnone
    · rw [hj] at hi
      cases hi
      rwa [size_number, Nat.zero_add] at hlt

theorem findIdx?_top (g : Geometry) :
    (layoutOf geo g).tables.shapes.findIdx? (fun shape => shape.parent = -1) = some 0 := by
  rcases hform : g.form geo with ⟨form, ts⟩
  rw [Layout.tables, layoutOf_entries, hform, number, OrderedTree.entries, List.map_cons, List.findIdx?_cons,
    if_pos (by rfl)]

/-- The decoder finds in the tables of a geometry the native form of it. -/
theorem wireDecode_sound (hgeo : geo.Lawful) (srid : Int32) {g : Geometry} (hg : g.Sound)
    (hsmall : (encodedTables geo g).Small) : wireDecode geo (wireEncode geo srid g) = .ok (srid, g.native geo) := by
  have hfuel : (g.form geo).size ≤ (layoutOf geo g).tables.shapes.length := by
    rw [Layout.tables, List.length_map, length_layoutOf_entries]
  have houtlines : (layoutOf geo g).outlines.drop 0 = outlinesOf (g.form geo) ++ [] := by
    rw [List.append_nil, List.drop_zero, layoutOf_outlines]
  have hrebuild : (encodedTables geo g).rebuild geo = .ok (g.native geo) := by
    rw [encodedTables_eq, Tables.rebuild, findIdx?_top]
    exact rebuilt hgeo (readable_layoutOf hgeo hg hsmall) g hg _ 0 0 [] hfuel (stored _) houtlines guarded_nil
  rw [wireDecode, payload_wireEncode geo srid g hsmall]
  dsimp only
  rw [hrebuild]
  rfl

/-- Encoding and decoding make a geometry native, and keep what is native. -/
theorem wireDecode_wireEncode (hgeo : geo.Lawful) (srid : Int32) {g : Geometry} (hg : g.Sound)
    (hsmall : (encodedTables geo g).Small) :
    wireDecode geo (wireEncode geo srid g) = .ok (srid, g.native geo) ∧
      wireEncode geo srid (g.native geo) = wireEncode geo srid g := by
  constructor
  · exact wireDecode_sound hgeo srid hg hsmall
  · exact wireEncode_native srid g

end Encoding

section Nested

def triangleRing : LineString := [⟨f64One, f64One⟩, ⟨f64Three, f64One⟩, ⟨f64Three, f64Three⟩, ⟨f64One, f64One⟩]

/-- A point, a polygon with a hole and an empty one, an empty line and a line in a collection. -/
def nestedShapes : Geometry := .geometryCollection
  [.point ⟨f64One, f64Two⟩, .polygon ⟨triangleRing, [[], [⟨f64Two, f64One⟩, ⟨f64Three, f64Two⟩, ⟨f64Two, f64One⟩]]⟩,
    .lineString [], .geometryCollection [.line ⟨f64One, f64One⟩ ⟨f64Two, f64Two⟩]]

theorem nestedShapes_sound : nestedShapes.Sound := by
  have hexterior : RingSound triangleRing := ⟨by decide, by decide⟩
  have hinteriors : ∀ ring ∈ ([[], [⟨f64Two, f64One⟩, ⟨f64Three, f64Two⟩, ⟨f64Two, f64One⟩]] : List LineString),
      RingSound ring := by
    intro ring hring
    simp only [List.mem_cons, List.not_mem_nil, or_false] at hring
    rcases hring with rfl | rfl
    · exact ⟨by decide, by decide⟩
    · exact ⟨by decide, by decide⟩
  have hpoint : Coord.NotNan ⟨f64One, f64Two⟩ := by decide
  have hline : Coord.NotNan ⟨f64One, f64One⟩ ∧ Coord.NotNan ⟨f64Two, f64Two⟩ := by decide
  exact ⟨hpoint, ⟨hexterior, hinteriors, fun _ => List.cons_ne_nil _ _⟩, (fun _ h => by cases h), ⟨hline, trivial⟩,
    trivial⟩

theorem nestedShapes_roundTrip :
    wireDecode closingGeoTypes (wireEncode closingGeoTypes 4326 nestedShapes) =
        .ok (4326, nestedShapes.native closingGeoTypes) ∧
      wireEncode closingGeoTypes 4326 (nestedShapes.native closingGeoTypes) =
        wireEncode closingGeoTypes 4326 nestedShapes :=
  wireDecode_wireEncode closingGeoTypes_lawful 4326 nestedShapes_sound
    ⟨by decide, by decide, by decide⟩

end Nested

end SqlxMssql
