import Mathlib.Data.List.Basic
import Mathlib.Data.List.MinMax

/-! # Offset tables

Segments are stored one behind the other, with a table of the places where they start.
The end of a segment is not stored: it is the least larger offset in the table. This finds
the segment again as long as no segment is empty, since only then are the offsets distinct.
-/
namespace SqlxMssql.OffsetTables

variable {α : Type}

/-- Where the segments start, the first of them at `base`. -/
def starts : ℕ → List (List α) → List ℕ
  | _, [] => []
  | base, s :: segments => base :: starts (base + s.length) segments

/-- `xs.get(a..b)` -/
def getRange (xs : List α) (a b : ℕ) : Option (List α) :=
  if a ≤ b ∧ b ≤ xs.length then some ((xs.drop a).take (b - a)) else none

/-- The least offset behind `start`, or the total when there is none. -/
def spanEnd (offsets : List ℕ) (total start : ℕ) : ℕ :=
  ((offsets.filter (start < ·)).min?).getD total

theorem starts_append (base : ℕ) (xs ys : List (List α)) :
    starts base (xs ++ ys) = starts base xs ++ starts (base + xs.flatten.length) ys := by
  induction xs generalizing base with
  | nil => simp [starts]
  | cons x xs ih => simp [starts, ih, Nat.add_assoc]

theorem le_of_mem_starts {base a : ℕ} {segments : List (List α)} (h : a ∈ starts base segments) :
    base ≤ a := by
  induction segments generalizing base with
  | nil => cases h
  | cons s segments ih =>
    rcases List.mem_cons.mp h with rfl | h
    · exact le_rfl
    · exact le_trans (Nat.le_add_right base s.length) (ih h)

theorem lt_of_mem_starts {base a : ℕ} {segments : List (List α)} (hsegments : ∀ s ∈ segments, s ≠ [])
    (h : a ∈ starts base segments) : a < base + segments.flatten.length := by
  induction segments generalizing base with
  | nil => cases h
  | cons s segments ih =>
    have hs : 0 < s.length := List.length_pos_iff.mpr (hsegments s List.mem_cons_self)
    rw [List.flatten_cons, List.length_append]
    rcases List.mem_cons.mp h with rfl | h
    · omega
    · have := ih (fun t ht => hsegments t (List.mem_cons_of_mem s ht)) h
      omega

/-- The last segment starts behind all the others. -/
theorem le_last_of_mem_starts {base a : ℕ} {segments : List (List α)} (h : a ∈ starts base segments) :
    a ≤ base + segments.dropLast.flatten.length := by
  induction segments generalizing base with
  | nil => cases h
  | cons s segments ih =>
    cases segments with
    | nil =>
      rw [List.mem_singleton.mp h]
      exact Nat.le_add_right _ _
    | cons t segments =>
      rw [List.dropLast_cons_cons, List.flatten_cons, List.length_append, ← Nat.add_assoc]
      rcases List.mem_cons.mp h with rfl | h
      · omega
      · exact ih h

theorem filter_starts {before after : List (List α)} {s : List α}
    (hsegments : ∀ t ∈ before ++ s :: after, t ≠ []) :
    (starts 0 (before ++ s :: after)).filter (before.flatten.length < ·) =
      starts (before.flatten.length + s.length) after := by
  have hs : 0 < s.length := List.length_pos_iff.mpr (hsegments s (by simp))
  have hbefore : (starts 0 before).filter (before.flatten.length < ·) = [] := by
    apply List.filter_eq_nil_iff.mpr
    intro a ha
    have := lt_of_mem_starts (fun t ht => hsegments t (List.mem_append_left _ ht)) ha
    simp only [decide_eq_true_eq]
    omega
  have hafter : (starts (before.flatten.length + s.length) after).filter (before.flatten.length < ·) =
      starts (before.flatten.length + s.length) after := by
    apply List.filter_eq_self.mpr
    intro a ha
    have := le_of_mem_starts ha
    simp only [decide_eq_true_eq]
    omega
  rw [starts_append, List.filter_append, hbefore, List.nil_append, Nat.zero_add, starts, List.filter_cons,
    if_neg (by simp), hafter]

theorem spanEnd_of_max {offsets : List ℕ} {total start : ℕ} (h : ∀ a ∈ offsets, a ≤ start) :
    spanEnd offsets total start = total := by
  have hnone : offsets.filter (start < ·) = [] :=
    List.filter_eq_nil_iff.mpr fun a ha => by simpa using h a ha
  rw [spanEnd, hnone]
  rfl

theorem min?_starts (base : ℕ) (segments : List (List α)) :
    (starts base segments).min?.getD (base + segments.flatten.length) = base := by
  cases segments with
  | nil => simp [starts]
  | cons s segments =>
    have hmin : (starts base (s :: segments)).min? = some base :=
      List.min?_eq_some_iff.mpr ⟨List.mem_cons_self, fun a ha => le_of_mem_starts ha⟩
    rw [hmin, Option.getD_some]

theorem spanEnd_starts {before after : List (List α)} {s : List α}
    (hsegments : ∀ t ∈ before ++ s :: after, t ≠ []) :
    spanEnd (starts 0 (before ++ s :: after)) (before ++ s :: after).flatten.length before.flatten.length =
      before.flatten.length + s.length := by
  have htotal : (before ++ s :: after).flatten.length =
      before.flatten.length + s.length + after.flatten.length := by
    simp [Nat.add_assoc]
  rw [spanEnd, filter_starts hsegments, htotal, min?_starts]

theorem getRange_middle (a b c : List α) :
    getRange (a ++ (b ++ c)) a.length (a.length + b.length) = some b := by
  unfold getRange
  rw [if_pos (by simp), List.drop_left, Nat.add_sub_cancel_left, List.take_left]

/-- From its start to the least larger offset lies the segment. -/
theorem getRange_spanEnd {before after : List (List α)} {s : List α}
    (hsegments : ∀ t ∈ before ++ s :: after, t ≠ []) :
    getRange (before ++ s :: after).flatten before.flatten.length
      (spanEnd (starts 0 (before ++ s :: after)) (before ++ s :: after).flatten.length before.flatten.length) =
        some s := by
  rw [spanEnd_starts hsegments, List.flatten_append, List.flatten_cons]
  exact getRange_middle _ _ _

end SqlxMssql.OffsetTables
