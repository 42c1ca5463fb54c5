import SqlxMssql.Spatial.Figures

/-! # What the shapes refer to

A shape names its parent and the first figure of its subtree by their indices. The encoder
writes the index of the figure that comes next, before it knows whether the members of the
shape have any figure at all.
-/
namespace SqlxMssql
open ParentTables

mutual
/-- The nodes of a tree in preorder, each with the index of the figure that comes next. -/
def numbered (k : ℕ) : OrderedTree Form → List (ℕ × OrderedTree Form)
  | .node form ts => (k, .node form ts) :: numberedAll (k + form.outlines.length) ts

def numberedAll (k : ℕ) : List (OrderedTree Form) → List (ℕ × OrderedTree Form)
  | [] => []
  | t :: ts => numbered k t ++ numberedAll (k + (outlinesOf t).length) ts
end

/-- A shape with members, none of which has a figure. -/
def Hollow : OrderedTree Form → Prop
  | .node form ts => ts ≠ [] ∧ outlinesOf (.node form ts) = []

section Numbering

mutual
theorem figure_entries (parent : Option ℕ) (base k : ℕ) (t : OrderedTree Form) :
    ((number k t).entries parent base).map (·.label.figure) = (numbered k t).map fun n => figureOf n.1 n.2 := by
  cases t with
  | node form ts =>
    rw [number, OrderedTree.entries, numbered, List.map_cons, List.map_cons, figure_forest base (base + 1) _ ts]
    rfl

theorem figure_forest (parent base k : ℕ) (ts : List (OrderedTree Form)) :
    (forest parent base (numberAll k ts)).map (·.label.figure) = (numberedAll k ts).map fun n => figureOf n.1 n.2 := by
  cases ts with
  | nil => rfl
  | cons t ts =>
    rw [numberAll, forest, numberedAll, List.map_append, List.map_append, figure_entries (some parent) base k t,
      figure_forest parent _ _ ts]
end

mutual
/-- The figures of a subtree stand from the index on that comes with it. -/
theorem drop_of_mem_numbered {root : OrderedTree Form} {k m : ℕ} {t : OrderedTree Form} (before after : List Outline)
    (h : (m, t) ∈ numbered k root) (hk : k = before.length) :
    ∃ rest, (before ++ (outlinesOf root ++ after)).drop m = outlinesOf t ++ rest := by
  cases root with
  | node form ts =>
    rcases List.mem_cons.mp h with heq | h
    · cases heq
      refine ⟨after, ?_⟩
      rw [hk, List.drop_left]
    · rw [outlinesOf]
      have hdrop := drop_of_mem_numberedAll (before ++ form.outlines) after h
        (by rw [hk, List.length_append])
      rwa [List.append_assoc, ← List.append_assoc form.outlines] at hdrop

theorem drop_of_mem_numberedAll {ts : List (OrderedTree Form)} {k m : ℕ} {t : OrderedTree Form}
    (before after : List Outline) (h : (m, t) ∈ numberedAll k ts) (hk : k = before.length) :
    ∃ rest, (before ++ (outlinesOfAll ts ++ after)).drop m = outlinesOf t ++ rest := by
  cases ts with
  | nil => cases h
  | cons s ts =>
    rw [outlinesOfAll, List.append_assoc]
    rcases List.mem_append.mp h with h | h
    · exact drop_of_mem_numbered before _ h hk
    · rw [← List.append_assoc]
      exact drop_of_mem_numberedAll _ after h (by rw [hk, List.length_append])
end

end Numbering

section Fields

theorem ofNat_eq_neg_one_iff (n : ℕ) : Int32.ofNat n = -1 ↔ (n + 1) % 4294967296 = 0 := by
  have hone : Int32.toInt (-1) = -1 := rfl
  rw [← Int32.toInt_inj, toInt_ofNat, hone]
  split
  · omega
  · omega

theorem toUsize_ofNat_self_iff (n : ℕ) : toUsize (Int32.ofNat n) = some n ↔ n < 2147483648 := by
  rw [toUsize_ofNat]
  split
  · rw [Option.some.injEq]
    omega
  · refine iff_of_false (by simp) ?_
    omega

theorem figureOf_some {k : ℕ} {t : OrderedTree Form} (h : outlinesOf t ≠ [] ∨ Hollow t) : figureOf k t = some k := by
  obtain ⟨form, ts⟩ := t
  refine if_neg fun hnone => ?_
  simp only [Bool.and_eq_true, List.isEmpty_iff] at hnone
  rcases h with h | h
  · refine h ?_
    rw [outlinesOf, hnone.1, hnone.2]
    rfl
  · exact h.1 hnone.2

theorem figureOf_none {k : ℕ} {t : OrderedTree Form} (h : outlinesOf t = []) (hsolid : ¬ Hollow t) :
    figureOf k t = none := by
  obtain ⟨form, ts⟩ := t
  have hts : ts = [] := by
    by_contra hts
    exact hsolid ⟨hts, h⟩
  subst hts
  rw [outlinesOf_leaf] at h
  refine if_pos ?_
  rw [h]
  rfl

/-- The figure that is written for a shape is the first of its subtree, or none. -/
theorem figure_fits_iff (k : ℕ) (t : OrderedTree Form) :
    ((outlinesOf t = [] → tableIndex (figureOf k t) = -1) ∧
        (outlinesOf t ≠ [] → toUsize (tableIndex (figureOf k t)) = some k)) ↔
      (Hollow t → (k + 1) % 4294967296 = 0) ∧ (outlinesOf t ≠ [] → k < 2147483648) := by
  have hempty (h : Hollow t) : outlinesOf t = [] := by
    obtain ⟨form, ts⟩ := t
    exact h.2
  refine and_congr ⟨fun h hhollow => ?_, fun h hnone => ?_⟩ (forall_congr' fun hsome => ?_)
  · have hfield := h (hempty hhollow)
    rw [figureOf_some (.inr hhollow)] at hfield
    exact (ofNat_eq_neg_one_iff k).mp hfield
  · by_cases hhollow : Hollow t
    · rw [figureOf_some (.inr hhollow)]
      exact (ofNat_eq_neg_one_iff k).mpr (h hhollow)
    · rw [figureOf_none hnone hhollow]
      rfl
  · rw [figureOf_some (.inl hsome)]
    exact toUsize_ofNat_self_iff k

end Fields

/-- The first shape is the only one without a parent, and the others have an earlier one. A shape
refers to the first figure of its subtree, and to none if there is none. -/
structure ShapesReference (geo : GeoTypes) (g : Geometry) : Prop where
  top : ∃ first rest, (encodedTables geo g).shapes = first :: rest ∧ first.parent = -1
  parents : ∀ i shape, 0 < i → (encodedTables geo g).shapes[i]? = some shape → ∃ j < i, toUsize shape.parent = some j
  figures : ∀ (i : ℕ) (shape : Shape), (encodedTables geo g).shapes[i]? = some shape → ∃ k t,
    (numbered 0 (g.form geo))[i]? = some (k, t) ∧ (∃ rest, (g.outlines geo).drop k = outlinesOf t ++ rest) ∧
      (outlinesOf t = [] → shape.figureOffset = -1) ∧ (outlinesOf t ≠ [] → toUsize shape.figureOffset = some k)
  bounded : ∀ shape : Shape, shape ∈ (encodedTables geo g).shapes →
    shape.figureOffset = -1 ∨ ∃ k < (encodedTables geo g).figures.length, toUsize shape.figureOffset = some k

section Encoding
variable {geo : GeoTypes} {g : Geometry}

theorem entries_layoutOf : (layoutOf geo g).entries = (number 0 (g.form geo)).entries none 0 := rfl

theorem shape_of_entry {i : ℕ} {shape : Shape} (h : (encodedTables geo g).shapes[i]? = some shape) :
    ∃ e, (layoutOf geo g).entries[i]? = some e ∧ shapeOf e = shape := by
  rw [encodedTables_eq, Layout.tables, List.getElem?_map] at h
  exact Option.map_eq_some_iff.mp h

theorem entry_of_numbered {i k : ℕ} {t : OrderedTree Form} (h : (numbered 0 (g.form geo))[i]? = some (k, t)) :
    ∃ e, (layoutOf geo g).entries[i]? = some e ∧ e.label.figure = figureOf k t := by
  have hfigures := congrArg (·[i]?) (figure_entries none 0 0 (g.form geo))
  simp only [List.getElem?_map, h, Option.map_some] at hfigures
  exact Option.map_eq_some_iff.mp hfigures

theorem numbered_of_entry {i : ℕ} {e : Entry Label} (h : (layoutOf geo g).entries[i]? = some e) :
    ∃ k t, (numbered 0 (g.form geo))[i]? = some (k, t) ∧ e.label.figure = figureOf k t := by
  have hfigures := congrArg (·[i]?) (figure_entries none 0 0 (g.form geo))
  rw [entries_layoutOf] at h
  simp only [List.getElem?_map, h, Option.map_some] at hfigures
  obtain ⟨⟨k, t⟩, hnumbered, hfigure⟩ := Option.map_eq_some_iff.mp hfigures.symm
  exact ⟨k, t, hnumbered, hfigure.symm⟩

theorem drop_of_numbered {k : ℕ} {t : OrderedTree Form} (h : (k, t) ∈ numbered 0 (g.form geo)) :
    ∃ rest, (g.outlines geo).drop k = outlinesOf t ++ rest := by
  obtain ⟨rest, hrest⟩ := drop_of_mem_numbered [] [] h rfl
  rw [List.append_nil, List.nil_append, outlinesOf_form] at hrest
  exact ⟨rest, hrest⟩

theorem parents_iff : (∀ i shape, 0 < i → (encodedTables geo g).shapes[i]? = some shape →
      ∃ j < i, toUsize shape.parent = some j) ↔
    ∀ e ∈ (layoutOf geo g).entries, ∀ j, e.parent = some j → j % 4294967296 < 2147483648 := by
  constructor
  · intro h e he j hj
    obtain ⟨i, hi⟩ := List.getElem?_of_mem he
    have hshape : (encodedTables geo g).shapes[i]? = some (shapeOf e) := by
      rw [encodedTables_eq, Layout.tables, List.getElem?_map, hi]
      rfl
    rcases parent_of_getElem? hi with ⟨-, hnone⟩ | ⟨hpos, -⟩
    · rw [hj] at hnone
      cases hnone
    · obtain ⟨m, -, hm⟩ := h i _ hpos hshape
      rw [shapeOf, hj, tableIndex, toUsize_ofNat] at hm
      split at hm
      · assumption
      · cases hm
  · intro h i shape hpos hshape
    obtain ⟨e, he, rfl⟩ := shape_of_entry hshape
    rw [entries_layoutOf] at he
    rcases parent_of_getElem? he with ⟨rfl, -⟩ | ⟨-, j, hj, -, hlt⟩
    · omega
    · refine ⟨j % 4294967296, by omega, ?_⟩
      rw [shapeOf, hj, tableIndex, toUsize_ofNat, if_pos (h e (List.mem_of_getElem? he) j hj)]

theorem shapes_top : ∃ first rest, (encodedTables geo g).shapes = first :: rest ∧ first.parent = -1 := by
  rw [encodedTables_eq, Layout.tables, entries_layoutOf]
  obtain ⟨form, ts⟩ := g.form geo
  exact ⟨_, _, rfl, rfl⟩

end Encoding

/-- The encoded shapes refer to what is there when no shape has members that are all without
figures, and the indices of parents and of first figures stay below 2^31; and otherwise they do
not. Indices are written modulo 2^32, so a parent may be named by accident, and `-1` may be. -/
theorem shapes_reference_iff (geo : GeoTypes) (g : Geometry) : ShapesReference geo g ↔
    (∀ k t, (k, t) ∈ numbered 0 (g.form geo) →
        (Hollow t → (k + 1) % 4294967296 = 0) ∧ (outlinesOf t ≠ [] → k < 2147483648)) ∧
      ∀ e ∈ (layoutOf geo g).entries, ∀ j, e.parent = some j → j % 4294967296 < 2147483648 := by
  constructor
  · intro h
    refine ⟨fun k t hmem => ?_, parents_iff.mp h.parents⟩
    obtain ⟨i, hi⟩ := List.getElem?_of_mem hmem
    obtain ⟨e, he, hfigure⟩ := entry_of_numbered hi
    have hshape : (encodedTables geo g).shapes[i]? = some (shapeOf e) := by
      rw [encodedTables_eq, Layout.tables, List.getElem?_map, he]
      rfl
    obtain ⟨m, s, hs, -, hfits⟩ := h.figures i _ hshape
    rw [hi] at hs
    cases hs
    rw [shapeOf, hfigure] at hfits
    exact (figure_fits_iff k t).mp hfits
  · rintro ⟨hfits, hparents⟩
    have hfigures (i : ℕ) (shape : Shape) (hshape : (encodedTables geo g).shapes[i]? = some shape) : ∃ k t,
        (numbered 0 (g.form geo))[i]? = some (k, t) ∧ (∃ rest, (g.outlines geo).drop k = outlinesOf t ++ rest) ∧
          (outlinesOf t = [] → shape.figureOffset = -1) ∧ (outlinesOf t ≠ [] → toUsize shape.figureOffset = some k) := by
      obtain ⟨e, he, rfl⟩ := shape_of_entry hshape
      obtain ⟨k, t, hnumbered, hfigure⟩ := numbered_of_entry he
      have hmem := List.mem_of_getElem? hnumbered
      rw [shapeOf, hfigure]
      exact ⟨k, t, hnumbered, drop_of_numbered hmem, (figure_fits_iff k t).mpr (hfits k t hmem)⟩
    refine ⟨shapes_top, parents_iff.mpr hparents, hfigures, fun shape hshape => ?_⟩
    obtain ⟨i, hi⟩ := List.getElem?_of_mem hshape
    obtain ⟨k, t, -, ⟨rest, hrest⟩, hnone, hsome⟩ := hfigures i shape hi
    by_cases hempty : outlinesOf t = []
    · exact .inl (hnone hempty)
    · refine .inr ⟨k, ?_, hsome hempty⟩
      rw [encodedTables_eq, length_figures, outlines_layoutOf]
      by_contra hk
      rw [List.drop_eq_nil_of_le (Nat.not_lt.mp hk)] at hrest
      exact hempty (List.append_eq_nil_iff.mp hrest.symm).1

/-- A multi-part shape with an empty member refers to a figure that does not exist. -/
theorem hollow_dangles : ¬ ShapesReference closingGeoTypes (.multiLineString [[]]) := by
  intro h
  have hdangling := h.bounded ⟨-1, 0, shapeMultiLineString⟩ (by decide)
  revert hdangling
  decide

end SqlxMssql
