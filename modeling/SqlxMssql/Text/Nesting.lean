import SqlxMssql.Text.Renumbering

/-! # Markers in nested comments

In T-SQL block comments nest. What the scanner does with a marker is read off its output:
the output determines which markers have been rewritten.
-/
namespace SqlxMssql.ParamMarkers
open Loops Utf8

/-- Numbers the chosen markers from `k + 1` on and copies everything else. -/
def numberChosen : ℕ → List (Bool × Char) → Text × ℕ
  | k, [] => ([], k)
  | k, (chosen, c) :: s =>
    if chosen = true ∧ c = '?' then
      let (text, count) := numberChosen (k + 1) s
      (parameterName (k + 1) ++ text, count)
    else
      let (text, count) := numberChosen k s
      (c :: text, count)

/-- Some markers of the text are rewritten and counted, none in a comment at any depth, and
every one in the code. -/
def RespectsNesting (sql : Text) : Prop :=
  ∃ marked : List (Bool × Char), marked.map Prod.snd = sql ∧
    rewriteParamMarkers sql = .ok (numberChosen 0 marked) ∧
      ∀ (i : ℕ) (chosen : Bool) (region : Region), marked[i]? = some (chosen, '?') →
        (lex .code sql)[i]? = some (region, '?') →
          (1 ≤ region.commentDepth → chosen = false) ∧ (region = .code → chosen = true)

/-- Read as if comments did not nest, every marker of the code is in the code, and none of a
comment is. -/
def ReadingsAgree (sql : Text) : Prop :=
  ∀ (i : ℕ) (region flat : Region), (lex .code sql)[i]? = some (region, '?') →
    (lexFlat .code sql)[i]? = some (flat, '?') →
      (1 ≤ region.commentDepth → flat ≠ .code) ∧ (region = .code → flat = .code)

def isCode (e : Region × Char) : Bool × Char := (decide (e.1 = .code), e.2)

theorem numberMarkers_eq (k : ℕ) (tagged : List (Region × Char)) :
    numberMarkers k tagged = numberChosen k (tagged.map isCode) := by
  induction tagged generalizing k with
  | nil => rfl
  | cons e tagged ih =>
    simp only [numberMarkers, List.map_cons, isCode, numberChosen, decide_eq_true_eq, ih]
    rfl

theorem numberChosen_marker (k : ℕ) (marked : List (Bool × Char)) :
    (numberChosen k ((true, '?') :: marked)).1 = parameterName (k + 1) ++ (numberChosen (k + 1) marked).1 := rfl

theorem numberChosen_copy (k : ℕ) {e : Bool × Char} (h : ¬ (e.1 = true ∧ e.2 = '?'))
    (marked : List (Bool × Char)) :
    (numberChosen k (e :: marked)).1 = e.2 :: (numberChosen k marked).1 := by
  simp only [numberChosen, h, ↓reduceIte]

/-- The output tells which markers have been rewritten. -/
theorem numberChosen_injective {k : ℕ} {marked marked' : List (Bool × Char)}
    (htext : marked.map Prod.snd = marked'.map Prod.snd)
    (houtput : (numberChosen k marked).1 = (numberChosen k marked').1) {i : ℕ} {chosen chosen' : Bool}
    (h : marked[i]? = some (chosen, '?')) (h' : marked'[i]? = some (chosen', '?')) : chosen = chosen' := by
  induction marked generalizing k marked' i with
  | nil => simp at h
  | cons e marked ih =>
    rcases marked' with _ | ⟨e', marked'⟩
    · simp at h'
    obtain ⟨hchar, htails⟩ : e.2 = e'.2 ∧ marked.map Prod.snd = marked'.map Prod.snd := List.cons.inj htext
    by_cases hmarker : e.1 = true ∧ e.2 = '?'
    · obtain rfl : e = (true, '?') := Prod.ext hmarker.1 hmarker.2
      by_cases hmarker' : e'.1 = true ∧ e'.2 = '?'
      · obtain rfl : e' = (true, '?') := Prod.ext hmarker'.1 hmarker'.2
        rw [numberChosen_marker, numberChosen_marker] at houtput
        cases i with
        | zero => cases h; cases h'; rfl
        | succ i => exact ih htails (List.append_cancel_left houtput) h h'
      · rw [numberChosen_marker, numberChosen_copy k hmarker', ← hchar] at houtput
        exact absurd (List.cons.inj houtput).1 (by decide)
    · by_cases hmarker' : e'.1 = true ∧ e'.2 = '?'
      · obtain rfl : e' = (true, '?') := Prod.ext hmarker'.1 hmarker'.2
        rw [numberChosen_marker, numberChosen_copy k hmarker, hchar] at houtput
        exact absurd (List.cons.inj houtput).1 (by decide)
      · rw [numberChosen_copy k hmarker, numberChosen_copy k hmarker'] at houtput
        cases i with
        | zero =>
          cases h
          cases h'
          simp at hmarker hmarker'
          rw [hmarker, hmarker']
        | succ i => exact ih htails (List.cons.inj houtput).2 h h'

theorem map_isCode_chars (sql : Text) : ((lexFlat .code sql).map isCode).map Prod.snd = sql := by
  rw [List.map_map]
  exact lexFlat_chars .code sql

theorem RespectsNesting.readingsAgree {sql : Text} (h : RespectsNesting sql) : ReadingsAgree sql := by
  obtain ⟨marked, htext, hmarked, hnesting⟩ := h
  intro i region flat hregion hcode
  have hsql : sql[i]? = some '?' := by
    rw [← lexFlat_chars .code sql, List.getElem?_map, hcode]
    rfl
  rw [← htext, List.getElem?_map, Option.map_eq_some_iff] at hsql
  obtain ⟨⟨chosen, c⟩, hchosen, rfl⟩ := hsql
  have hscanner : ((lexFlat .code sql).map isCode)[i]? = some (decide (flat = .code), '?') := by
    rw [List.getElem?_map, hcode]
    rfl
  rw [rewriteParamMarkers_eq, numberMarkers_eq] at hmarked
  have heq := numberChosen_injective (htext.trans (map_isCode_chars sql).symm)
    (congrArg Prod.fst (Except.ok.inj hmarked)).symm hchosen hscanner
  obtain ⟨hcomment, hout⟩ := hnesting i chosen region hchosen hregion
  rw [heq] at hcomment hout
  exact ⟨fun hdepth => of_decide_eq_false (hcomment hdepth), fun h => of_decide_eq_true (hout h)⟩

theorem ReadingsAgree.respectsNesting {sql : Text} (h : ReadingsAgree sql) : RespectsNesting sql := by
  refine ⟨_, map_isCode_chars sql, (rewriteParamMarkers_eq sql).trans ?_, fun i chosen region hchosen hregion => ?_⟩
  · rw [numberMarkers_eq]
  · rw [List.getElem?_map, Option.map_eq_some_iff] at hchosen
    obtain ⟨⟨flat, c⟩, hcode, he⟩ := hchosen
    obtain ⟨rfl, rfl⟩ : decide (flat = .code) = chosen ∧ c = '?' := Prod.mk.inj he
    obtain ⟨hcomment, hout⟩ := h i region flat hregion hcode
    exact ⟨fun hdepth => decide_eq_false (hcomment hdepth), fun h => decide_eq_true (hout h)⟩

theorem respects_nesting_iff (sql : Text) : RespectsNesting sql ↔ ReadingsAgree sql :=
  ⟨RespectsNesting.readingsAgree, ReadingsAgree.respectsNesting⟩

/-- A marker at depth one is rewritten once a nested comment has been closed, and one behind
all comments is left alone when a quote in them opens a literal for the scanner. -/
theorem nested_marker_rewritten :
    ¬ RespectsNesting "/* /* */ ? */".toList ∧ ¬ RespectsNesting "/* /* */ ' */ ?".toList := by
  constructor
  · intro h
    exact (h.readingsAgree 9 (.blockComment 1) .code (by decide) (by decide)).1 le_rfl rfl
  · intro h
    have hcode := (h.readingsAgree 14 .code (.quoted '\'') (by decide) (by decide)).2 rfl
    cases hcode

end SqlxMssql.ParamMarkers
