import Mathlib.Data.List.Flatten
import SqlxMssql.Spatial.Layout
import SqlxMssql.Spatial.Payload

/-! # Searching a layout

In the tables of a layout whose runs are not empty, the searches of the decoder find what was
laid out: the points of a figure, the rings of a polygon and the children of a shape.
-/
namespace SqlxMssql
open OffsetTables ParentTables

/-- The figures can be named, and each of them starts at a place of its own. -/
structure Layout.Addressable (l : Layout) : Prop where
  indices : l.outlines.length ≤ 2147483648
  offsets : (l.outlines.dropLast.flatMap Outline.coords).length < 4294967296
  filled : ∀ o ∈ l.outlines, o.coords ≠ []

/-- Counts and indices are in range, and every figure owns a point. -/
structure Layout.Readable (l : Layout) : Prop where
  small : l.tables.Small
  filled : ∀ o ∈ l.outlines, o.coords ≠ []
  parents : ∀ e ∈ l.entries, ∀ j, e.parent = some j → j < l.entries.length

section Indices

theorem toInt_ofNat (n : ℕ) : (Int32.ofNat n).toInt =
    if n % 4294967296 < 2147483648 then ((n % 4294967296 : ℕ) : ℤ) else ((n % 4294967296 : ℕ) : ℤ) - 4294967296 := by
  have hsize : ((Int32.size : ℕ) : ℤ) = 4294967296 := rfl
  rw [Int32.toInt_ofNat', Int.bmod_def, hsize]
  split
  · rw [if_pos (by omega)]
    omega
  · rw [if_neg (by omega)]
    omega

theorem ofNat_neg_iff (n : ℕ) : Int32.ofNat n < 0 ↔ 2147483648 ≤ n % 4294967296 := by
  have hzero : Int32.toInt 0 = 0 := rfl
  rw [Int32.lt_iff_toInt_lt, toInt_ofNat, hzero]
  split
  · omega
  · omega

theorem toUsize_ofNat (n : ℕ) : toUsize (Int32.ofNat n) =
    if n % 4294967296 < 2147483648 then some (n % 4294967296) else none := by
  unfold toUsize
  split
  · rename_i h
    rw [if_neg (Nat.not_lt.mpr ((ofNat_neg_iff n).mp h))]
  · rename_i h
    have hlt := Nat.not_le.mp (mt (ofNat_neg_iff n).mpr h)
    rw [if_pos hlt, toInt_ofNat, if_pos hlt, Int.toNat_natCast]

theorem tableIndex_not_neg {n : ℕ} (hn : n < 2147483648) : ¬ tableIndex (some n) < 0 := by
  rw [tableIndex, ofNat_neg_iff]
  omega

theorem toUsize_tableIndex {n : ℕ} (hn : n < 2147483648) : toUsize (tableIndex (some n)) = some n := by
  rw [tableIndex, toUsize_ofNat, Nat.mod_eq_of_lt (by omega), if_pos hn]

theorem tableIndex_eq_iff {parent : Option ℕ} {n : ℕ} (hparent : ∀ j, parent = some j → j < 2147483648)
    (hn : n < 2147483648) : tableIndex parent = Int32.ofNat n ↔ parent = some n := by
  constructor
  · intro h
    cases parent with
    | none =>
      have hneg : tableIndex none < 0 := by decide
      rw [h] at hneg
      exact absurd hneg (tableIndex_not_neg hn)
    | some j =>
      have hj := toUsize_tableIndex (hparent j rfl)
      have hn := toUsize_tableIndex hn
      rw [h] at hj
      exact hj.symm.trans hn
  · rintro rfl
    rfl

end Indices

section Figures
variable {l : Layout}

theorem toNat_starts {base : ℕ} {os : List Outline}
    (h : ∀ a ∈ starts base (os.map Outline.coords), a < 4294967296) :
    (figuresFrom base os).map (·.pointOffset.toNat) = starts base (os.map Outline.coords) := by
  induction os generalizing base with
  | nil => rfl
  | cons o os ih =>
    rw [List.map_cons, starts] at h
    have hbase : (UInt32.ofNat base).toNat = base := by
      rw [UInt32.toNat_ofNat', Nat.mod_eq_of_lt (h base List.mem_cons_self)]
    rw [figuresFrom, List.map_cons, List.map_cons, starts, ih fun a ha => h a (List.mem_cons_of_mem base ha)]
    simp only [hbase]

theorem figures_getElem? {before after : List Outline} {o : Outline} (h : l.outlines = before ++ o :: after) :
    l.tables.figures[before.length]? =
      some ⟨o.attr, UInt32.ofNat (before.flatMap Outline.coords).length⟩ := by
  simp [Layout.tables, h, figuresFrom_append, figuresFrom]

theorem length_figures : l.tables.figures.length = l.outlines.length := length_figuresFrom 0 l.outlines

theorem lt_length_of_drop {k : ℕ} {o : Outline} {os : List Outline} (h : l.outlines.drop k = o :: os) :
    k < l.outlines.length := by
  by_contra hk
  rw [List.drop_eq_nil_of_le (Nat.le_of_not_lt hk)] at h
  cases h

theorem Layout.Readable.addressable (hl : l.Readable) : l.Addressable where
  indices := by
    have hsmall := hl.small.figures
    rw [length_figures] at hsmall
    omega
  offsets := by
    have htotal : (l.outlines.flatMap Outline.coords).length < 2147483648 := hl.small.points
    have hsub : (l.outlines.dropLast.flatMap Outline.coords).Sublist (l.outlines.flatMap Outline.coords) :=
      (List.dropLast_sublist l.outlines).flatMap Outline.coords
    have := hsub.length_le
    omega
  filled := hl.filled

theorem Layout.Readable.index_lt (hl : l.Readable) {k : ℕ} {o : Outline} {os : List Outline}
    (h : l.outlines.drop k = o :: os) : k < l.outlines.length ∧ k < 2147483648 := by
  have hk := lt_length_of_drop h
  have hindices := hl.addressable.indices
  exact ⟨hk, by omega⟩

theorem Layout.Addressable.start_lt (hl : l.Addressable) {a : ℕ}
    (ha : a ∈ starts 0 (l.outlines.map Outline.coords)) : a < 4294967296 := by
  have hle := le_last_of_mem_starts ha
  rw [← List.map_dropLast, ← List.flatMap_def, Nat.zero_add] at hle
  exact hle.trans_lt hl.offsets

/-- A figure has exactly the points that were laid out for it. -/
theorem Layout.Addressable.figureCoords (hl : l.Addressable) {k : ℕ} {o : Outline} {os : List Outline}
    (h : l.outlines.drop k = o :: os) : l.tables.figureCoords (tableIndex (some k)) = .ok o.coords := by
  have hk := lt_length_of_drop h
  have hsmall : k < 2147483648 := hk.trans_le hl.indices
  have hsplit : l.outlines = l.outlines.take k ++ o :: os := by rw [← h, List.take_append_drop]
  have hlength : (l.outlines.take k).length = k := List.length_take_of_le (Nat.le_of_lt hk)
  have hfigure := figures_getElem? hsplit
  rw [hlength] at hfigure
  have hpoints : l.tables.points = (l.outlines.map Outline.coords).flatten := List.flatMap_def
  have hoffsets : l.tables.figures.map (·.pointOffset.toNat) = starts 0 (l.outlines.map Outline.coords) :=
    toNat_starts fun a ha => hl.start_lt ha
  have hsegments : l.outlines.map Outline.coords =
      (l.outlines.take k).map Outline.coords ++ o.coords :: os.map Outline.coords := by
    conv_lhs => rw [hsplit, List.map_append, List.map_cons]
  have hmem : ((l.outlines.take k).map Outline.coords).flatten.length ∈ starts 0 (l.outlines.map Outline.coords) := by
    rw [hsegments, starts_append, Nat.zero_add, starts]
    exact List.mem_append_right _ List.mem_cons_self
  have hstart : (UInt32.ofNat ((l.outlines.take k).flatMap Outline.coords).length).toNat =
      ((l.outlines.take k).map Outline.coords).flatten.length := by
    rw [UInt32.toNat_ofNat', List.flatMap_def, Nat.mod_eq_of_lt (hl.start_lt hmem)]
  have hfilled : ∀ s ∈ (l.outlines.take k).map Outline.coords ++ o.coords :: os.map Outline.coords, s ≠ [] := by
    rw [← hsegments]
    intro s hs
    obtain ⟨o, ho, rfl⟩ := List.mem_map.mp hs
    exact hl.filled o ho
  have hrange := getRange_spanEnd hfilled
  rw [← hsegments, ← hstart] at hrange
  unfold Tables.figureCoords
  rw [if_neg (tableIndex_not_neg hsmall), toUsize_tableIndex hsmall]
  simp only [hfigure, hoffsets, hpoints, hrange]

theorem figureCoords_eq (hl : l.Readable) {k : ℕ} {o : Outline} {os : List Outline}
    (h : l.outlines.drop k = o :: os) : l.tables.figureCoords (tableIndex (some k)) = .ok o.coords :=
  hl.addressable.figureCoords h

theorem figureCoords_none (tables : Tables) : tables.figureCoords (tableIndex none) = .ok [] := if_pos (by decide)

end Figures

section Rings
variable {l : Layout}

/-- No interior ring comes before the next exterior ring. -/
def Guarded (os : List Outline) : Prop :=
  ∀ o ∈ os.takeWhile (·.attr ≠ figureExteriorRing), o.attr ≠ figureInteriorRing

theorem stroke_ne_exterior : figureStroke ≠ figureExteriorRing := by decide
theorem stroke_ne_interior : figureStroke ≠ figureInteriorRing := by decide
theorem interior_ne_exterior : figureInteriorRing ≠ figureExteriorRing := by decide

theorem guarded_nil : Guarded [] := fun _ h => by cases h

theorem Guarded.tail {o : Outline} {os : List Outline} (h : Guarded (o :: os)) (ho : o.attr ≠ figureExteriorRing) :
    o.attr ≠ figureInteriorRing ∧ Guarded os := by
  unfold Guarded at h
  rw [List.takeWhile_cons_of_pos (by simpa using ho)] at h
  exact ⟨h o List.mem_cons_self, fun p hp => h p (List.mem_cons_of_mem o hp)⟩

theorem Guarded.stroke {coords : List Coord} {os : List Outline} (h : Guarded os) :
    Guarded (⟨figureStroke, coords⟩ :: os) := by
  intro o ho
  rw [List.takeWhile_cons_of_pos (by simpa using stroke_ne_exterior)] at ho
  rcases List.mem_cons.mp ho with rfl | ho
  · exact stroke_ne_interior
  · exact h o ho

theorem guarded_exterior {coords : List Coord} {os : List Outline} :
    Guarded (⟨figureExteriorRing, coords⟩ :: os) := by
  intro o ho
  rw [List.takeWhile_cons_of_neg (by simp)] at ho
  cases ho

theorem zipIdx_drop {m : ℕ} {o : Outline} {os : List Outline} (h : l.outlines.drop m = o :: os) :
    (∃ offset, l.tables.figures.zipIdx.drop m = (⟨o.attr, offset⟩, m) :: l.tables.figures.zipIdx.drop (m + 1)) ∧
      l.outlines.drop (m + 1) = os := by
  have hm : m < l.outlines.length := by
    by_contra hm
    rw [List.drop_eq_nil_of_le (Nat.le_of_not_lt hm)] at h
    cases h
  have hsplit : l.outlines = l.outlines.take m ++ o :: os := by rw [← h, List.take_append_drop]
  have hlength : (l.outlines.take m).length = m := List.length_take_of_le (Nat.le_of_lt hm)
  have hfigure := figures_getElem? hsplit
  rw [hlength] at hfigure
  constructor
  · refine ⟨UInt32.ofNat ((l.outlines.take m).flatMap Outline.coords).length, ?_⟩
    have hzip : l.tables.figures.zipIdx[m]? =
        some (⟨o.attr, UInt32.ofNat ((l.outlines.take m).flatMap Outline.coords).length⟩, m) := by
      rw [List.getElem?_zipIdx, hfigure, Option.map_some, Nat.zero_add]
    obtain ⟨hlt, hget⟩ := List.getElem?_eq_some_iff.mp hzip
    rw [List.drop_eq_getElem_cons hlt, hget]
  · rw [← List.drop_drop, h]
    rfl

theorem zipIdx_drop_nil {m : ℕ} (h : l.outlines.drop m = []) : l.tables.figures.zipIdx.drop m = [] := by
  have hlength : l.tables.figures.length = l.outlines.length := length_figuresFrom 0 l.outlines
  have hm := List.drop_eq_nil_iff.mp h
  exact List.drop_eq_nil_of_le (by rw [List.length_zipIdx]; omega)

theorem interiorRings_guarded {rest : List Outline} (hrest : Guarded rest) {m : ℕ}
    (h : l.outlines.drop m = rest) : l.tables.interiorRings (l.tables.figures.zipIdx.drop m) = .ok [] := by
  induction rest generalizing m with
  | nil =>
    rw [zipIdx_drop_nil h]
    rfl
  | cons o rest ih =>
    obtain ⟨⟨offset, hdrop⟩, hnext⟩ := zipIdx_drop h
    rw [hdrop, Tables.interiorRings]
    by_cases ho : o.attr = figureExteriorRing
    · rw [if_pos ho]
    · obtain ⟨hinterior, htail⟩ := hrest.tail ho
      rw [if_neg ho, if_neg hinterior]
      exact ih htail hnext

/-- The interior rings behind an exterior ring are found, and no others. -/
theorem interiorRings_eq (hl : l.Readable) {rest : List Outline} (hrest : Guarded rest) (rings : List LineString)
    {m : ℕ} (h : l.outlines.drop m = rings.map (⟨figureInteriorRing, ·⟩) ++ rest) :
    l.tables.interiorRings (l.tables.figures.zipIdx.drop m) = .ok rings := by
  induction rings generalizing m with
  | nil => exact interiorRings_guarded hrest h
  | cons ring rings ih =>
    have hcoords := figureCoords_eq hl h
    obtain ⟨⟨offset, hdrop⟩, hnext⟩ := zipIdx_drop h
    rw [hdrop, Tables.interiorRings, if_neg interior_ne_exterior, if_pos rfl]
    change (l.tables.figureCoords (tableIndex (some m)) >>= _) = _
    rw [hcoords, ih hnext]
    rfl

end Rings

section Shapes
variable {l : Layout}

theorem findIdxs_congr {α : Type} {p q : α → Bool} {xs : List α} (h : ∀ x ∈ xs, p x = q x) (s : ℕ) :
    xs.findIdxs p s = xs.findIdxs q s := by
  induction xs generalizing s with
  | nil => rfl
  | cons x xs ih =>
    rw [List.findIdxs_cons, List.findIdxs_cons, h x List.mem_cons_self,
      ih fun y hy => h y (List.mem_cons_of_mem x hy)]

theorem Layout.Readable.entries_small (hl : l.Readable) : l.entries.length < 2147483648 := by
  have h := hl.small.shapes
  rwa [Layout.tables, List.length_map] at h

theorem children_eq (hl : l.Readable) {i : ℕ} (hi : i < l.entries.length) :
    l.tables.children i = children l.entries i := by
  have hsmall := hl.entries_small
  unfold Tables.children children
  rw [Layout.tables, List.findIdxs_map]
  refine findIdxs_congr (fun e he => ?_) 0
  have hparent : ∀ j, e.parent = some j → j < 2147483648 := fun j hj => (hl.parents e he j hj).trans hsmall
  exact decide_eq_decide.mpr (tableIndex_eq_iff hparent (hi.trans hsmall))

theorem indexed_eq {i : ℕ} {e : Entry Label} (h : l.entries[i]? = some e) :
    indexed l.tables.shapes i = .ok (shapeOf e) := by
  have hshape : l.tables.shapes[i]? = some (shapeOf e) := by rw [Layout.tables, List.getElem?_map, h]; rfl
  rw [indexed, hshape]

end Shapes

end SqlxMssql
