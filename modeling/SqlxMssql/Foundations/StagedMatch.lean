import Mathlib.Data.List.Basic

/-! # Lookup in stages

Candidates are tried stage by stage. In a stage the first one that matches exactly is taken,
or else the first one that accepts at all.
-/
namespace SqlxMssql.StagedMatch
variable {α : Type*} (exact accepts : α → Bool)

def inStage (stage : List α) : Option α := (stage.find? exact).or (stage.find? accepts)

def firstMatch (stages : List (List α)) : Option α := stages.findSome? (inStage exact accepts)

variable {exact accepts} {stage front back : List α} {stages : List (List α)} {a : α}

theorem inStage_exact (hfront : ∀ b ∈ front, exact b = false) (ha : exact a = true) :
    inStage exact accepts (front ++ a :: back) = some a := by
  have hnone : front.find? exact = none := List.find?_eq_none.mpr fun b hb => by simp [hfront b hb]
  rw [inStage, List.find?_append, hnone, Option.none_or, List.find?_cons_of_pos ha, Option.some_or]

theorem inStage_accepts (hexact : ∀ b ∈ front ++ a :: back, exact b = false)
    (hfront : ∀ b ∈ front, accepts b = false) (ha : accepts a = true) :
    inStage exact accepts (front ++ a :: back) = some a := by
  have hnone : (front ++ a :: back).find? exact = none := List.find?_eq_none.mpr fun b hb => by simp [hexact b hb]
  have hfront' : front.find? accepts = none := List.find?_eq_none.mpr fun b hb => by simp [hfront b hb]
  rw [inStage, hnone, Option.none_or, List.find?_append, hfront', Option.none_or, List.find?_cons_of_pos ha]

theorem firstMatch_cons_of_some (h : inStage exact accepts stage = some a) :
    firstMatch exact accepts (stage :: stages) = some a := by
  rw [firstMatch, List.findSome?_cons, h]

theorem exists_inStage (h : ∃ a ∈ stage, accepts a = true) : ∃ a, inStage exact accepts stage = some a := by
  have hfound : (stage.find? accepts).isSome = true := List.find?_isSome.mpr h
  rw [← Option.isSome_iff_exists, inStage, Option.isSome_or, hfound, Bool.or_true]

theorem exists_firstMatch (h : ∃ a ∈ stages.flatten, accepts a = true) : ∃ a, firstMatch exact accepts stages = some a := by
  obtain ⟨a, ha, haccepts⟩ := h
  obtain ⟨stage, hstage, ha⟩ := List.mem_flatten.mp ha
  rw [← Option.isSome_iff_exists, firstMatch, List.findSome?_isSome_iff]
  exact ⟨stage, hstage, Option.isSome_iff_exists.mpr (exists_inStage ⟨a, ha, haccepts⟩)⟩

theorem firstMatch_cons_of_none (h : inStage exact accepts stage = none) :
    firstMatch exact accepts (stage :: stages) = firstMatch exact accepts stages := by
  rw [firstMatch, List.findSome?_cons, h]
  rfl

/-- Of parts that occur once each, the candidates of the only one that has any. -/
theorem filter_flatMap_only {β : Type*} [DecidableEq β] {parts : List β} (hnodup : parts.Nodup) {f : β → List α} {only : β}
    (hother : ∀ part ∈ parts, part ≠ only → (f part).filter accepts = []) :
    (parts.flatMap f).filter accepts = if only ∈ parts then (f only).filter accepts else [] := by
  induction parts with
  | nil => rfl
  | cons part parts ih =>
    obtain ⟨hpart, hnodup⟩ := List.nodup_cons.mp hnodup
    obtain ⟨hhead, htail⟩ := List.forall_mem_cons.mp hother
    rw [List.flatMap_cons, List.filter_append, ih hnodup htail]
    by_cases heq : part = only
    · subst heq
      rw [if_neg hpart, if_pos List.mem_cons_self, List.append_nil]
    · have hmem : only ∈ part :: parts ↔ only ∈ parts := by
        rw [List.mem_cons, or_iff_right fun h => heq h.symm]
      simp only [hhead heq, List.nil_append, hmem]

section Sound
variable (hsound : ∀ b, exact b = true → accepts b = true)
include hsound

/-- The first that accepts is found where whatever matches exactly behind it leaves it the choice. -/
theorem inStage_first (hfront : ∀ b ∈ front, accepts b = false) (ha : accepts a = true)
    (hback : ∀ b ∈ back, exact b = true → exact a = true) : inStage exact accepts (front ++ a :: back) = some a := by
  have hbefore (b : α) (hb : b ∈ front) : exact b = false :=
    Bool.eq_false_iff.mpr fun h => Bool.eq_false_iff.mp (hfront b hb) (hsound b h)
  cases hexact : exact a with
  | true => exact inStage_exact hbefore hexact
  | false =>
    refine inStage_accepts (fun b hb => ?_) hfront ha
    rcases List.mem_append.mp hb with hb | hb
    · exact hbefore b hb
    · rcases List.mem_cons.mp hb with rfl | hb
      · exact hexact
      · exact Bool.eq_false_iff.mpr fun h => Bool.eq_false_iff.mp hexact (hback b hb h)

/-- Only the candidates that accept matter. -/
theorem inStage_filter (stage : List α) : inStage exact accepts (stage.filter accepts) = inStage exact accepts stage := by
  have hexact : (fun b => decide (accepts b = true ∧ exact b = true)) = exact := by
    funext b
    rw [Bool.eq_iff_iff, decide_eq_true_iff]
    exact ⟨And.right, fun h => ⟨hsound b h, h⟩⟩
  have haccepts : (fun b => decide (accepts b = true ∧ accepts b = true)) = accepts := by
    funext b
    rw [Bool.eq_iff_iff, decide_eq_true_iff, and_self]
  rw [inStage, List.find?_filter, List.find?_filter, hexact, haccepts]
  rfl

theorem inStage_eq_none (h : stage.filter accepts = []) : inStage exact accepts stage = none := by
  rw [← inStage_filter hsound, h]
  rfl

/-- A candidate that has been found is one of the stages, and accepts. -/
theorem inStage_sound (h : inStage exact accepts stage = some a) : a ∈ stage ∧ accepts a = true := by
  rw [inStage, Option.or_eq_some_iff] at h
  rcases h with h | ⟨-, h⟩
  · exact ⟨List.mem_of_find?_eq_some h, hsound a (List.find?_some h)⟩
  · exact ⟨List.mem_of_find?_eq_some h, List.find?_some h⟩

theorem firstMatch_sound (h : firstMatch exact accepts stages = some a) : a ∈ stages.flatten ∧ accepts a = true := by
  obtain ⟨stage, hstage, ha⟩ := List.exists_of_findSome?_eq_some h
  obtain ⟨hmem, haccepts⟩ := inStage_sound hsound ha
  exact ⟨List.mem_flatten_of_mem hstage hmem, haccepts⟩

/-- All that accept are the same part of a stage. -/
theorem firstMatch_only {found : List α} (hfound : inStage exact accepts found = some a)
    (hall : ∀ stage ∈ stages, stage.filter accepts = [] ∨ stage.filter accepts = found)
    (hsome : ∃ stage ∈ stages, stage.filter accepts = found) : firstMatch exact accepts stages = some a := by
  induction stages with
  | nil =>
    obtain ⟨stage, hstage, -⟩ := hsome
    exact absurd hstage List.not_mem_nil
  | cons stage stages ih =>
    obtain ⟨hhead, htail⟩ := List.forall_mem_cons.mp hall
    by_cases hstage : stage.filter accepts = found
    · rw [← hstage, inStage_filter hsound] at hfound
      exact firstMatch_cons_of_some hfound
    · have hnone := inStage_eq_none hsound (hhead.resolve_right hstage)
      obtain ⟨later, hlater, heq⟩ := hsome
      have hlater : later ∈ stages := (List.mem_cons.mp hlater).resolve_left fun h => hstage (h ▸ heq)
      rw [firstMatch, List.findSome?_cons, hnone]
      exact ih htail ⟨later, hlater, heq⟩

end Sound

end SqlxMssql.StagedMatch
