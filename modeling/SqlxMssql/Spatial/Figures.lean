import Mathlib.Data.Finset.Max
import SqlxMssql.Spatial.RoundTrip

/-! # Whose points the figures own

The end of a figure is not stored, it is found as the next larger offset. The figures of an
encoded geometry own the points that were written for them exactly when no two of them start
at one place, which a polygon with a hole and no exterior does not grant.
-/
namespace SqlxMssql
open Loops ParentTables OffsetTables

/-- What is written as figures of its own. -/
inductive Simple where
  | run (coords : LineString)
  | polygon (polygon : Polygon)

def Simple.outlines : Simple → List Outline
  | .run cs => if cs.isEmpty then [] else [⟨figureStroke, cs⟩]
  | .polygon p => if p.isEmpty then [] else ⟨figureExteriorRing, p.exterior⟩ :: holes p.interiors

mutual
/-- The runs of points and the polygons of a geometry, in the order in which they are written. -/
def Geometry.simples (geo : GeoTypes) : Geometry → List Simple
  | .point c => [.run [c]]
  | .line start stop => [.run [start, stop]]
  | .lineString cs => [.run cs]
  | .polygon p => [.polygon p]
  | .multiPoint cs => cs.map fun c => .run [c]
  | .multiLineString lines => lines.map .run
  | .multiPolygon ps => ps.map .polygon
  | .geometryCollection gs => Geometry.simplesOfAll geo gs
  | .rect min max => [.polygon (geo.rectToPolygon min max)]
  | .triangle v0 v1 v2 => [.polygon (geo.triangleToPolygon v0 v1 v2)]

def Geometry.simplesOfAll (geo : GeoTypes) : List Geometry → List Simple
  | [] => []
  | g :: gs => g.simples geo ++ Geometry.simplesOfAll geo gs
end

/-- The figures of a geometry with the points that are written for them. -/
def Geometry.outlines (geo : GeoTypes) (g : Geometry) : List Outline := (g.simples geo).flatMap Simple.outlines

section Outlines
variable (geo : GeoTypes)

theorem outlinesOf_lineStringForm (cs : LineString) : outlinesOf (lineStringForm cs) = (Simple.run cs).outlines := by
  rw [lineStringForm, Simple.outlines]
  split
  · exact outlinesOf_leaf _
  · exact outlinesOf_leaf _

theorem outlinesOf_polygonForm (p : Polygon) : outlinesOf (polygonForm p) = (Simple.polygon p).outlines := by
  rw [polygonForm, Simple.outlines]
  split
  · exact outlinesOf_leaf _
  · exact outlinesOf_leaf _

theorem outlinesOf_parts {α : Type} (shapeType : UInt8) {form : α → OrderedTree Form} {simple : α → Simple}
    (h : ∀ a, outlinesOf (form a) = (simple a).outlines) (parts : List α) :
    outlinesOf (.node ⟨shapeType, []⟩ (parts.map form)) = (parts.map simple).flatMap Simple.outlines := by
  rw [outlinesOf, outlinesOfAll_eq, List.nil_append, List.flatMap_map, List.flatMap_map]
  exact List.flatMap_congr fun a _ => h a

mutual
theorem outlinesOf_form (g : Geometry) : outlinesOf (g.form geo) = g.outlines geo := by
  unfold Geometry.outlines
  cases g with
  | point c => exact outlinesOf_leaf _
  | line start stop => exact outlinesOf_leaf _
  | lineString cs => exact (outlinesOf_lineStringForm cs).trans (List.flatMap_singleton _ _).symm
  | polygon p => exact (outlinesOf_polygonForm p).trans (List.flatMap_singleton _ _).symm
  | multiPoint cs => exact outlinesOf_parts shapeMultiPoint (fun c => outlinesOf_leaf _) cs
  | multiLineString lines => exact outlinesOf_parts shapeMultiLineString outlinesOf_lineStringForm lines
  | multiPolygon ps => exact outlinesOf_parts shapeMultiPolygon outlinesOf_polygonForm ps
  | geometryCollection gs =>
    rw [Geometry.form, outlinesOf, List.nil_append, Geometry.simples]
    exact outlinesOfAll_forms gs
  | rect min max => exact (outlinesOf_polygonForm _).trans (List.flatMap_singleton _ _).symm
  | triangle v0 v1 v2 => exact (outlinesOf_polygonForm _).trans (List.flatMap_singleton _ _).symm

theorem outlinesOfAll_forms (gs : List Geometry) :
    outlinesOfAll (Geometry.forms geo gs) = (Geometry.simplesOfAll geo gs).flatMap Simple.outlines := by
  cases gs with
  | nil => rfl
  | cons g gs =>
    rw [Geometry.forms, outlinesOfAll, Geometry.simplesOfAll, List.flatMap_append, outlinesOf_form g,
      outlinesOfAll_forms gs]
    rfl
end

theorem outlines_layoutOf (g : Geometry) : (layoutOf geo g).outlines = g.outlines geo := by
  rw [← outlinesOf_form geo g]
  rfl

end Outlines

/-- No polygon has a hole without an exterior ring around it. -/
def Geometry.Enclosed (geo : GeoTypes) (g : Geometry) : Prop :=
  ∀ p, Simple.polygon p ∈ g.simples geo → p.exterior = [] → ∀ ring ∈ p.interiors, ring = []

section Enclosed
variable {geo : GeoTypes}

theorem filled_holes (interiors : List LineString) : ∀ o ∈ holes interiors, o.coords ≠ [] := by
  intro o ho
  obtain ⟨ring, hring, rfl⟩ := List.mem_map.mp ho
  simpa using (List.mem_filter.mp hring).2

theorem filled_simple_iff (s : Simple) : (∀ o ∈ s.outlines, o.coords ≠ []) ↔
    ∀ p, s = .polygon p → p.exterior = [] → ∀ ring ∈ p.interiors, ring = [] := by
  cases s with
  | run cs =>
    refine iff_of_true (fun o ho => ?_) fun p hp => by cases hp
    rw [Simple.outlines] at ho
    split at ho
    · cases ho
    · rename_i hcs
      rw [List.mem_singleton.mp ho]
      simpa using hcs
  | polygon p =>
    constructor
    · rintro hfilled q ⟨rfl⟩ hexterior ring hring
      by_contra hne
      have hnonempty : ¬ p.isEmpty = true := by
        simp only [Polygon.isEmpty, hexterior, List.isEmpty_nil, Bool.true_and, List.all_eq_true]
        exact fun hall => hne (by simpa using hall ring hring)
      refine hfilled ⟨figureExteriorRing, p.exterior⟩ ?_ hexterior
      rw [Simple.outlines, if_neg hnonempty]
      exact List.mem_cons_self
    · intro henclosed o ho
      rw [Simple.outlines] at ho
      split at ho
      · cases ho
      · rename_i hnonempty
        rcases List.mem_cons.mp ho with rfl | ho
        · intro hexterior
          refine hnonempty ?_
          simpa [Polygon.isEmpty] using ⟨hexterior, henclosed p rfl hexterior⟩
        · exact filled_holes p.interiors o ho

theorem filled_iff (g : Geometry) : (∀ o ∈ g.outlines geo, o.coords ≠ []) ↔ g.Enclosed geo := by
  unfold Geometry.outlines Geometry.Enclosed
  simp only [List.mem_flatMap, forall_exists_index, and_imp]
  constructor
  · intro h p hp
    exact (filled_simple_iff (.polygon p)).mp (fun o ho => h o _ hp ho) p rfl
  · intro h o s hs ho
    exact (filled_simple_iff s).mpr (fun p hp => h p (hp ▸ hs)) o ho

/-- An empty figure has a figure behind it that starts at the same place. -/
def Followed : List Outline → Prop
  | [] => True
  | o :: os => (o.coords = [] → ∃ next rest, os = next :: rest ∧ next.coords ≠ []) ∧ Followed os

theorem followed_of_filled {os : List Outline} (h : ∀ o ∈ os, o.coords ≠ []) : Followed os := by
  induction os with
  | nil => trivial
  | cons o os ih =>
    exact ⟨fun hempty => absurd hempty (h o List.mem_cons_self), ih fun p hp => h p (List.mem_cons_of_mem o hp)⟩

theorem Followed.append {os ps : List Outline} (ho : Followed os) (hp : Followed ps) : Followed (os ++ ps) := by
  induction os with
  | nil => exact hp
  | cons o os ih =>
    refine ⟨fun hempty => ?_, ih ho.2⟩
    obtain ⟨next, rest, rfl, hnext⟩ := ho.1 hempty
    exact ⟨next, rest ++ ps, rfl, hnext⟩

theorem Followed.drop {os : List Outline} (h : Followed os) (k : ℕ) : Followed (os.drop k) := by
  induction k generalizing os with
  | zero => exact h
  | succ k ih =>
    cases os with
    | nil => exact h
    | cons o os => exact ih h.2

theorem followed_simple (s : Simple) : Followed s.outlines := by
  by_cases hfilled : ∀ o ∈ s.outlines, o.coords ≠ []
  · exact followed_of_filled hfilled
  · cases s with
    | run cs => exact absurd ((filled_simple_iff (.run cs)).mpr fun p hp => by cases hp) hfilled
    | polygon p =>
      rw [Simple.outlines]
      split
      · trivial
      · rename_i hnonempty
        refine ⟨fun hexterior => ?_, followed_of_filled (filled_holes p.interiors)⟩
        cases hrest : holes p.interiors with
        | nil =>
          refine absurd ?_ hnonempty
          have hall : ∀ ring ∈ p.interiors, ring = [] := by simpa [holes] using hrest
          simpa [Polygon.isEmpty] using ⟨hexterior, hall⟩
        | cons next rest => exact ⟨next, rest, rfl, filled_holes p.interiors next (hrest ▸ List.mem_cons_self)⟩

theorem followed_outlines (g : Geometry) : Followed (g.outlines geo) := by
  unfold Geometry.outlines
  induction g.simples geo with
  | nil => trivial
  | cons s rest ih => exact (followed_simple s).append ih

end Enclosed

/-- Every figure that the encoder writes has in the tables exactly the points that were written
for it, and together they are all the points. -/
structure FiguresOwnPoints (geo : GeoTypes) (g : Geometry) : Prop where
  figures : (encodedTables geo g).figures.length = (g.outlines geo).length
  points : (encodedTables geo g).points = (g.outlines geo).flatMap Outline.coords
  owned : ∀ k o, (g.outlines geo)[k]? = some o → (encodedTables geo g).figureCoords (Int32.ofNat k) = .ok o.coords

section Owning
variable {l : Layout}

/-- A figure is looked up by its offset alone. -/
theorem figureCoords_congr {tables : Tables} {i j : ℕ} {f f' : Figure} (hi : i < 2147483648) (hj : j < 2147483648)
    (hf : tables.figures[i]? = some f) (hf' : tables.figures[j]? = some f') (h : f.pointOffset = f'.pointOffset) :
    tables.figureCoords (Int32.ofNat i) = tables.figureCoords (Int32.ofNat j) := by
  have hneg {n : ℕ} (hn : n < 2147483648) : ¬ Int32.ofNat n < 0 := tableIndex_not_neg hn
  have husize {n : ℕ} (hn : n < 2147483648) : toUsize (Int32.ofNat n) = some n := toUsize_tableIndex hn
  unfold Tables.figureCoords
  rw [if_neg (hneg hi), if_neg (hneg hj), husize hi, husize hj]
  simp only [hf, hf', h]

theorem outlines_getElem? {k : ℕ} {o : Outline} (h : l.outlines[k]? = some o) :
    l.outlines = l.outlines.take k ++ o :: l.outlines.drop (k + 1) ∧ (l.outlines.take k).length = k := by
  obtain ⟨hk, hget⟩ := List.getElem?_eq_some_iff.mp h
  refine ⟨?_, List.length_take_of_le (Nat.le_of_lt hk)⟩
  rw [← hget, List.cons_getElem_drop_succ, List.take_append_drop]

theorem figure_of_outline {k : ℕ} {o : Outline} (h : l.outlines[k]? = some o) :
    l.tables.figures[k]? = some ⟨o.attr, UInt32.ofNat ((l.outlines.take k).flatMap Outline.coords).length⟩ := by
  obtain ⟨hsplit, hlength⟩ := outlines_getElem? h
  have hfigure := figures_getElem? hsplit
  rwa [hlength] at hfigure

theorem getElem?_of_drop {k : ℕ} {o : Outline} {os : List Outline} (h : l.outlines.drop k = o :: os) :
    l.outlines[k]? = some o := by
  have hhead : (l.outlines.drop k)[0]? = some o := by rw [h]; rfl
  rwa [List.getElem?_drop, Nat.add_zero] at hhead

/-- Behind an empty figure stands one of the same offset that is not empty. -/
theorem next_of_empty (hfollowed : Followed l.outlines) {k : ℕ} {o : Outline}
    (hk : l.outlines[k]? = some o) (hempty : o.coords = []) :
    ∃ next, l.outlines[k + 1]? = some next ∧ next.coords ≠ [] := by
  have hdrop : l.outlines.drop k = o :: l.outlines.drop (k + 1) := by
    obtain ⟨hlt, hget⟩ := List.getElem?_eq_some_iff.mp hk
    rw [← hget, List.drop_eq_getElem_cons hlt]
  have hbehind := hfollowed.drop k
  rw [hdrop] at hbehind
  obtain ⟨next, rest, hrest, hnext⟩ := hbehind.1 hempty
  exact ⟨next, getElem?_of_drop hrest, hnext⟩

variable (howned : ∀ k o, l.outlines[k]? = some o → l.tables.figureCoords (Int32.ofNat k) = .ok o.coords)
variable (hfollowed : Followed l.outlines)
include howned hfollowed

theorem indices_of_owned : l.outlines.length ≤ 2147483648 := by
  by_contra hlt
  have hk : 2147483648 < l.outlines.length := Nat.not_le.mp hlt
  have hnone (n : ℕ) (hlo : 2147483648 ≤ n) (hhi : n < 4294967296) : l.tables.figureCoords (Int32.ofNat n) = .ok [] :=
    if_pos ((ofNat_neg_iff n).mpr (by omega))
  have hget := List.getElem?_eq_getElem hk
  have hempty : l.outlines[2147483648].coords = [] := by
    have h := howned _ _ hget
    rw [hnone _ (by omega) (by omega)] at h
    exact (Except.ok.inj h).symm
  obtain ⟨next, hnext, hne⟩ := next_of_empty hfollowed hget hempty
  have h := howned _ _ hnext
  rw [hnone _ (by omega) (by omega)] at h
  exact hne (Except.ok.inj h).symm

theorem filled_of_owned : ∀ o ∈ l.outlines, o.coords ≠ [] := by
  intro o ho hempty
  obtain ⟨k, hk⟩ := List.getElem?_of_mem ho
  obtain ⟨next, hnext, hne⟩ := next_of_empty hfollowed hk hempty
  have hindices := indices_of_owned howned hfollowed
  have hlt := (List.getElem?_eq_some_iff.mp hnext).1
  have hoffset : (l.outlines.take (k + 1)).flatMap Outline.coords = (l.outlines.take k).flatMap Outline.coords := by
    rw [List.take_add_one, hk, List.flatMap_append, Option.toList_some, List.flatMap_singleton, hempty, List.append_nil]
  have hsame := figureCoords_congr (by omega) (by omega) (figure_of_outline hk) (figure_of_outline hnext)
    (by rw [hoffset])
  rw [howned k o hk, howned (k + 1) next hnext, hempty] at hsame
  exact hne (Except.ok.inj hsame).symm

/-- The figure of the largest offset reaches to the end of the points, so it is the last one. -/
theorem offsets_of_owned : (l.outlines.dropLast.flatMap Outline.coords).length < 4294967296 := by
  have hindices := indices_of_owned howned hfollowed
  have hfilled := filled_of_owned howned hfollowed
  by_cases hnil : l.outlines = []
  · rw [hnil]
    exact Nat.zero_lt_succ _
  obtain ⟨o, ho⟩ := List.exists_mem_of_ne_nil _ hnil
  obtain ⟨i, hi⟩ := List.getElem?_of_mem ho
  obtain ⟨f, hf, hmax⟩ := l.tables.figures.toFinset.exists_max_image (fun f => f.pointOffset.toNat)
    ⟨_, List.mem_toFinset.mpr (List.mem_of_getElem? (figure_of_outline hi))⟩
  obtain ⟨k, hk⟩ := List.getElem?_of_mem (List.mem_toFinset.mp hf)
  have hlt : k < l.outlines.length := by
    rw [← length_figures]
    exact (List.getElem?_eq_some_iff.mp hk).1
  have hget := List.getElem?_eq_getElem hlt
  have hfigure := figure_of_outline hget
  rw [hk, Option.some.injEq] at hfigure
  obtain ⟨hsplit, -⟩ := outlines_getElem? hget
  have hstop : spanEnd (l.tables.figures.map (·.pointOffset.toNat)) l.tables.points.length f.pointOffset.toNat =
      l.tables.points.length := by
    refine spanEnd_of_max fun a ha => ?_
    obtain ⟨f', hf', rfl⟩ := List.mem_map.mp ha
    exact hmax f' (List.mem_toFinset.mpr hf')
  have hoffset : f.pointOffset.toNat = ((l.outlines.take k).flatMap Outline.coords).length % 4294967296 := by
    rw [hfigure, UInt32.toNat_ofNat']
  have hpoints : l.tables.points.length = ((l.outlines.take k).flatMap Outline.coords).length +
      (l.outlines[k].coords.length + ((l.outlines.drop (k + 1)).flatMap Outline.coords).length) := by
    conv_lhs => rw [Layout.tables, hsplit, List.flatMap_append, List.flatMap_cons, List.length_append, List.length_append]
  have hcoords := howned k _ hget
  have hneg : ¬ Int32.ofNat k < 0 := tableIndex_not_neg (by omega)
  have hindex : toUsize (Int32.ofNat k) = some k := toUsize_tableIndex (by omega)
  unfold Tables.figureCoords at hcoords
  rw [if_neg hneg, hindex] at hcoords
  simp only [hk, hstop, getRange] at hcoords
  rw [if_pos ⟨by omega, Nat.le_refl _⟩] at hcoords
  have hlength := congrArg List.length (Except.ok.inj hcoords)
  rw [List.length_take, List.length_drop] at hlength
  have hlast : l.outlines.drop (k + 1) = [] := by
    have hbehind : ((l.outlines.drop (k + 1)).flatMap Outline.coords).length = 0 := by omega
    have hempty := List.flatMap_eq_nil_iff.mp (List.length_eq_zero_iff.mp hbehind)
    by_contra hne
    obtain ⟨p, hp⟩ := List.exists_mem_of_ne_nil _ hne
    exact hfilled p (List.mem_of_mem_drop hp) (hempty p hp)
  rw [hsplit, hlast, List.dropLast_concat]
  omega

end Owning

/-- The encoded figures own exactly their points when no polygon has a hole without an exterior
ring, there are at most 2^31 figures, and the last one starts behind fewer than 2^32 points;
and otherwise they do not. -/
theorem figures_own_points_iff (geo : GeoTypes) (g : Geometry) : FiguresOwnPoints geo g ↔
    g.Enclosed geo ∧ (g.outlines geo).length ≤ 2147483648 ∧
      ((g.outlines geo).dropLast.flatMap Outline.coords).length < 4294967296 := by
  have houtlines := outlines_layoutOf geo g
  have hfollowed : Followed (layoutOf geo g).outlines := houtlines ▸ followed_outlines g
  rw [← filled_iff, ← houtlines]
  constructor
  · rintro ⟨-, -, howned⟩
    rw [encodedTables_eq, ← houtlines] at howned
    exact ⟨filled_of_owned howned hfollowed, indices_of_owned howned hfollowed, offsets_of_owned howned hfollowed⟩
  · rintro ⟨hfilled, hindices, hoffsets⟩
    refine ⟨?_, ?_, fun k o hk => ?_⟩
    · rw [encodedTables_eq, length_figures, houtlines]
    · rw [encodedTables_eq, ← houtlines]
      rfl
    · rw [encodedTables_eq]
      rw [← houtlines] at hk
      obtain ⟨hlt, hget⟩ := List.getElem?_eq_some_iff.mp hk
      have hdrop : (layoutOf geo g).outlines.drop k = o :: (layoutOf geo g).outlines.drop (k + 1) := by
        rw [← hget, List.drop_eq_getElem_cons hlt]
      exact Layout.Addressable.figureCoords ⟨hindices, hoffsets, hfilled⟩ hdrop

/-- The empty exterior ring of a polygon with a hole is given the points of the hole. -/
theorem hole_shared : ¬ FiguresOwnPoints closingGeoTypes (.polygon ⟨[], [[⟨0, 0⟩]]⟩) := by
  intro h
  have howned := h.owned 0 ⟨figureExteriorRing, []⟩ rfl
  revert howned
  decide

end SqlxMssql
