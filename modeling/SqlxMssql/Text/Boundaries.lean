import SqlxMssql.Text.Lexing

/-! # The indices of the scan

Every index that the two loops of the scanner reach is a character boundary of the text, and
so are the ends of every slice they take. Each turn returns and moves the index on.
-/
namespace SqlxMssql.ParamMarkers
open Loops Utf8
open String (utf8Len utf8Len_cons utf8Len_append)

/-- The states of the outer loop. -/
def Scans (sql : Text) : Scan → Prop :=
  Reaches (fun s => decide (s.index < utf8Len sql)) (rewriteTurn sql) ⟨[], 0, 0⟩

/-- The states of the inner loop, entered where the outer loop stands at an opening delimiter. -/
inductive Copies (sql : Text) (closing : Char) : QuotedScan → Prop where
  | intro {outer : Scan} {opening : Char} {s : QuotedScan} (houter : Scans sql outer)
    (hmore : outer.index < utf8Len sql) (hopening : nextChar sql outer.index = .ok opening)
    (hquotes : (opening, closing) ∈ quotes)
    (h : Reaches (fun s => !s.ended && decide (s.index < utf8Len sql)) (copyQuotedTurn sql closing)
      ⟨outer.output ++ [opening], outer.index + opening.utf8Size, false⟩ s) : Copies sql closing s

/-- The slices that a turn of the outer loop takes, each once, with their two ends. The first is
taken for the current character, for the guards, for the newline and for an opening delimiter. -/
def rewriteSlices (sql : Text) (index : ℕ) : List (ℕ × ℕ) :=
  let rest := suffixAt sql index
  let ch := rest.headD '\uFFFD'
  (index, utf8Len sql) ::
    if ch = '-' ∧ startsWith rest ['-', '-'] then
      [(index, ((find ['\n'] rest).map (index + ·)).getD (utf8Len sql))]
    else if ch = '/' ∧ startsWith rest ['/', '*'] then
      [(index + 2, utf8Len sql),
        (index, ((find ['*', '/'] (suffixAt sql (index + 2))).map (index + 2 + · + 2)).getD (utf8Len sql))]
    else []

/-- The slices that a turn of the inner loop takes. -/
def copyQuotedSlices (sql : Text) (closing : Char) (index : ℕ) : List (ℕ × ℕ) :=
  let ch := (suffixAt sql index).headD '\uFFFD'
  (index, utf8Len sql) :: if ch = closing then [(index + ch.utf8Size, utf8Len sql)] else []

def OnBoundaries (sql : Text) (r : ℕ × ℕ) : Prop := Boundary sql r.1 ∧ Boundary sql r.2 ∧ r.1 ≤ r.2

section Slices
variable {sql : Text} {index : ℕ}

theorem OnBoundaries.slice_returns {r : ℕ × ℕ} (h : OnBoundaries sql r) : ∃ t, slice sql r.1 r.2 = .ok t :=
  h.1.slice_returns h.2.1 h.2.2

theorem onBoundaries_from (h : Boundary sql index) : OnBoundaries sql (index, utf8Len sql) :=
  ⟨h, Boundary.last sql, h.le⟩

theorem onBoundaries_to (h : Boundary sql index) {n : ℕ} (hn : Boundary (suffixAt sql index) n) :
    OnBoundaries sql (index, index + n) := ⟨h, h.add hn, Nat.le_add_right _ _⟩

theorem boundary_of_startsWith {s t : Text} (h : startsWith s t = true) : Boundary s (utf8Len t) := by
  obtain ⟨rest, rfl⟩ : t <+: s := by simpa [startsWith] using h
  exact ⟨t, rest, rfl, rfl⟩

theorem boundary_head (h : Boundary sql index) (hmore : index < utf8Len sql) :
    Boundary (suffixAt sql index) ((suffixAt sql index).headD '\uFFFD').utf8Size := by
  obtain ⟨before, after, rfl, rfl⟩ := h
  rw [suffixAt_append]
  cases after with
  | nil => simp at hmore
  | cons c after => exact ⟨[c], after, rfl, (Nat.zero_add _).symm⟩

theorem onBoundaries_rewriteSlices (h : Boundary sql index) : ∀ r ∈ rewriteSlices sql index, OnBoundaries sql r := by
  have hfrom := onBoundaries_from h
  refine List.forall_mem_cons.mpr ⟨hfrom, ?_⟩
  split
  · refine List.forall_mem_singleton.mpr ?_
    cases hfind : find ['\n'] (suffixAt sql index) with
    | none => exact hfrom
    | some n =>
      obtain ⟨before, after, hcut, rfl⟩ := find_spec hfind
      exact onBoundaries_to h ⟨before, _, hcut, rfl⟩
  · split
    · rename_i hopen
      have htwo : Boundary sql (index + 2) := h.add (boundary_of_startsWith hopen.2)
      refine List.forall_mem_cons.mpr ⟨onBoundaries_from htwo, List.forall_mem_singleton.mpr ?_⟩
      cases hfind : find ['*', '/'] (suffixAt sql (index + 2)) with
      | none => exact hfrom
      | some n =>
        obtain ⟨before, after, hcut, rfl⟩ := find_spec hfind
        have hclose : Boundary (suffixAt sql (index + 2)) (utf8Len before + 2) := by
          refine ⟨before ++ ['*', '/'], after, by rw [hcut, List.append_assoc], ?_⟩
          rw [utf8Len_append]
          rfl
        have hle : index ≤ index + 2 + (utf8Len before + 2) := by omega
        exact ⟨h, htwo.add hclose, hle⟩
    · exact List.forall_mem_nil _

theorem onBoundaries_copyQuotedSlices (h : Boundary sql index) (hmore : index < utf8Len sql) (closing : Char) :
    ∀ r ∈ copyQuotedSlices sql closing index, OnBoundaries sql r := by
  refine List.forall_mem_cons.mpr ⟨onBoundaries_from h, ?_⟩
  split
  · exact List.forall_mem_singleton.mpr (onBoundaries_from (h.add (boundary_head h hmore)))
  · exact List.forall_mem_nil _

end Slices

section Turns
variable {sql : Text}

theorem Scans.boundary {s : Scan} (h : Scans sql s) : Boundary sql s.index := by
  refine Reaches.invariant (P := fun s => Boundary sql s.index) (fun t u ht hmore hbody => ?_) (Boundary.zero sql) h
  obtain ⟨u', hrun, hboundary, -, -⟩ := rewriteTurn_keeps sql t ht hmore
  obtain rfl : u' = u := Except.ok.inj (hrun.symm.trans hbody)
  exact hboundary

theorem Copies.boundary {closing : Char} {s : QuotedScan} (h : Copies sql closing s) : Boundary sql s.index := by
  obtain ⟨houter, hmore, hopening, hquotes, h⟩ := h
  refine Reaches.invariant (P := fun s => Boundary sql s.index) (fun t u ht hmore hbody => ?_) ?_ h
  · obtain ⟨u', hrun, hboundary, -, -⟩ := copyQuotedTurn_keeps sql closing t ht hmore
    obtain rfl : u' = u := Except.ok.inj (hrun.symm.trans hbody)
    exact hboundary
  · rw [nextChar, houter.boundary.sliceFrom_eq] at hopening
    rw [← Except.ok.inj hopening]
    exact houter.boundary.add (boundary_head houter.boundary hmore)

/-- The scan of a text stays on its boundaries, never panics and always moves on. -/
theorem scan_stays_on_boundaries (sql : Text) :
    (∀ s, Scans sql s → Boundary sql s.index ∧ s.index ≤ utf8Len sql ∧
      (s.index < utf8Len sql →
        (∀ r ∈ rewriteSlices sql s.index, OnBoundaries sql r ∧ ∃ t, slice sql r.1 r.2 = .ok t) ∧
          ∃ t, rewriteTurn sql s = .ok t ∧ s.index < t.index)) ∧
    (∀ closing s, Copies sql closing s → Boundary sql s.index ∧ s.index ≤ utf8Len sql ∧
      (s.ended = false → s.index < utf8Len sql →
        (∀ r ∈ copyQuotedSlices sql closing s.index, OnBoundaries sql r ∧ ∃ t, slice sql r.1 r.2 = .ok t) ∧
          ∃ t, copyQuotedTurn sql closing s = .ok t ∧ s.index < t.index)) ∧
    ∃ result, rewriteParamMarkers sql = .ok result := by
  refine ⟨fun s hs => ⟨hs.boundary, hs.boundary.le, fun hmore => ?_⟩,
    fun closing s hs => ⟨hs.boundary, hs.boundary.le, fun hended hmore => ?_⟩, ⟨_, rewriteParamMarkers_eq sql⟩⟩
  · obtain ⟨t, hrun, -, hvariant, -⟩ := rewriteTurn_keeps sql s hs.boundary (by simpa using hmore)
    have hslices := onBoundaries_rewriteSlices hs.boundary
    exact ⟨fun r hr => ⟨hslices r hr, (hslices r hr).slice_returns⟩, t, hrun, by omega⟩
  · obtain ⟨t, hrun, -, hvariant, -⟩ :=
      copyQuotedTurn_keeps sql closing s hs.boundary (by simpa [hended] using hmore)
    have hslices := onBoundaries_copyQuotedSlices hs.boundary hmore closing
    exact ⟨fun r hr => ⟨hslices r hr, (hslices r hr).slice_returns⟩, t, hrun, by omega⟩

theorem multibyte_literal_copied :
    ∃ t, copyQuotedTurn "é'ü'".toList '\'' ⟨"é'ü".toList, 5, false⟩ = .ok t ∧ 5 < t.index := by
  have houter : Scans "é'ü'".toList ⟨['é'], 0, 2⟩ := .turn .start (by decide) rfl
  have hinner : Copies "é'ü'".toList '\'' ⟨"é'ü".toList, 5, false⟩ :=
    .intro houter (by decide) rfl (by decide) (.turn .start (by decide) rfl)
  exact (((scan_stays_on_boundaries "é'ü'".toList).2.1 '\'' _ hinner).2.2 rfl (by decide)).2

end Turns

end SqlxMssql.ParamMarkers
