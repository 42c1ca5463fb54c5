import SqlxMssql.Text.Renumbering
import SqlxMssql.Foundations.LongestMatch

/-! # Where a parameter's name merges with its neighbours

A marker is a token of its own wherever it stands. The name that replaces it is a word, and
merges with the word before it, with a character of a word behind it, and with another name.
-/
namespace SqlxMssql.ParamMarkers
open Loops Utf8 LongestMatch

/-- The words and literals of T-SQL. Identifiers and variables are words. -/
structure TransactSql where
  letter : Char → Bool
  literal : Text → Bool
  letter_ascii (c : Char) : c.val < 128 → letter c = c.isAlpha
  literal_chars (t : Text) : literal t = true → '?' ∉ t ∧ '@' ∉ t

def TransactSql.lexicon (T : TransactSql) : Lexicon Char where
  start c := T.letter c || c ∈ ['_', '@', '#']
  part c := T.letter c || c.isDigit || c ∈ ['_', '@', '#', '$']
  literal := T.literal

/-- A character of the top-level code, and a gap for any other. -/
def codeChar (e : Region × Char) : Option Char := if e.1 = .code then some e.2 else none

def codeChars (sql : Text) : List (Option Char) := (lex .code sql).map codeChar

def isVariable (t : Text) : Bool := t.head? = some '@'

/-- The variables of the top-level code. -/
def TransactSql.variables (T : TransactSql) (sql : Text) : List Text :=
  (T.lexicon.tokens (codeChars sql)).filter isVariable

/-- The variables of the rewritten text are the names of the parameters, one for each marker. -/
def NamesStandAlone (T : TransactSql) (sql : Text) : Prop :=
  ∃ rewritten markers, rewriteParamMarkers sql = .ok (rewritten, markers) ∧
    markers = (codeChars sql).reduceOption.count '?' ∧
      T.variables rewritten = (List.range' 1 markers).map parameterName

/-- When the markers count as characters of words, each of them is a word of its own. -/
def MarkersStandAlone (T : TransactSql) (sql : Text) : Prop :=
  ∀ t ∈ (T.lexicon.withPlaceholder '?').tokens (codeChars sql), '?' ∈ t → t = ['?']

instance (T : TransactSql) (sql : Text) : Decidable (MarkersStandAlone T sql) :=
  inferInstanceAs (Decidable (∀ t ∈ _, '?' ∈ t → t = ['?']))

theorem TransactSql.names (T : TransactSql) : Names T.lexicon '?' parameterName where
  begins n := ⟨'@', 'P' :: decimal n, rfl, by simp [lexicon], fun t ht => (T.literal_chars t ht).2⟩
  part n c hc := by
    obtain rfl | rfl | hdigit : c = '@' ∨ c = 'P' ∨ c ∈ decimal n := by simpa [parameterName] using hc
    · simp [lexicon]
    · simp [lexicon, T.letter_ascii 'P' (by decide)]
    · simp [lexicon, isDigit_of_mem_decimal hdigit]
  literal t ht := (T.literal_chars t ht).1

section Rewritten

theorem codeChar_gap {e : Region × Char} (h : e.1 ≠ .code) : codeChar e = none := if_neg h

theorem codeChar_eq_some {e : Region × Char} {c : Char} : codeChar e = some c ↔ e = (.code, c) := by
  obtain ⟨r, c'⟩ := e
  simp [codeChar, and_comm]

theorem numberMarkers_count (k : ℕ) (tagged : List (Region × Char)) :
    (numberMarkers k tagged).2 = k + (tagged.map codeChar).reduceOption.count '?' := by
  induction tagged generalizing k with
  | nil => rfl
  | cons e tagged ih =>
    rw [List.map_cons]
    by_cases hmarker : e.1 = .code ∧ e.2 = '?'
    · obtain rfl : e = (.code, '?') := Prod.ext hmarker.1 hmarker.2
      rw [numberMarkers_marker, ih, codeChar_eq_some.mpr rfl, List.reduceOption_cons_of_some, List.count_cons_self]
      omega
    · rw [numberMarkers_other k hmarker, ih]
      by_cases hr : e.1 = .code
      · rw [codeChar_eq_some.mpr (Prod.ext hr rfl), List.reduceOption_cons_of_some,
          List.count_cons_of_ne fun hc => hmarker ⟨hr, hc⟩]
      · rw [codeChar_gap hr, List.reduceOption_cons_of_none]

theorem fillGaps_other (k : ℕ) {e : Region × Char} (h : ¬ (e.1 = .code ∧ e.2 = '?')) (s : List (Option Char)) :
    fillGaps '?' parameterName k (codeChar e :: s) = codeChar e :: fillGaps '?' parameterName k s := by
  by_cases hr : e.1 = .code
  · rw [codeChar_eq_some.mpr (Prod.ext hr rfl), fillGaps, if_neg fun hc => h ⟨hr, hc⟩]
  · rw [codeChar_gap hr, fillGaps]

theorem lex_word {w : Text} (hw : ∀ c ∈ w, c ∉ ['-', '/', '\'', '"', '[', '?']) (s : Text) :
    lex .code (w ++ s) = w.map (Prod.mk .code) ++ lex .code s := by
  induction w with
  | nil => rfl
  | cons c w ih =>
    obtain ⟨hc, hw⟩ := List.forall_mem_cons.mp hw
    simp only [List.mem_cons, List.not_mem_nil, or_false, not_or] at hc
    have hstep : lex .code (c :: (w ++ s)) = (.code, c) :: lex .code (w ++ s) :=
      lex.eq_7 c (w ++ s) (fun _ h => absurd h hc.1) (fun _ h => absurd h hc.2.1) hc.2.2.1 hc.2.2.2.1 hc.2.2.2.2.1
    rw [List.cons_append, hstep, ih hw]
    rfl

/-- Rewriting turns the tokens of the code into those with names in place of markers. -/
theorem codeChars_rewritten (r : Region) (hr : r ≠ .quoted '@') (k : ℕ) (s : Text) :
    (lex r (numberMarkers k (lex r s)).1).map codeChar =
      fillGaps '?' parameterName k ((lex r s).map codeChar) := by
  fun_induction lex r s generalizing k with
  | case1 r => simp [numberMarkers, lex, fillGaps]
  | case7 c s hline hblock hsingle hdouble hbracket ih =>
    by_cases hc : c = '?'
    · subst hc
      have hrun := ih (by simp) (k + 1)
      rw [numberMarkers_marker, List.map_cons, codeChar_eq_some.mpr rfl, fillGaps, if_pos rfl, ← hrun]
      change List.map codeChar (lex .code (parameterName (k + 1) ++ _)) = _
      rw [lex_word (parameterName_chars (k + 1)), List.map_append, List.map_map]
      rfl
    · have hstep : lex .code (c :: (numberMarkers k (lex .code s)).1) =
          (.code, c) :: lex .code (numberMarkers k (lex .code s)).1 := by
        refine lex.eq_7 c _ (fun t hdash h => ?_) (fun t hslash h => ?_) hsingle hdouble hbracket
        · obtain ⟨s', hs⟩ := head_of_numberMarkers (lex_chars .code s) h (by decide)
          exact hline s' hdash hs
        · obtain ⟨s', hs⟩ := head_of_numberMarkers (lex_chars .code s) h (by decide)
          exact hblock s' hslash hs
      simp [numberMarkers_other, fillGaps_other, hc, hstep, ih]
  | case9 c s hnewline ih => simp [numberMarkers_other, lex, fillGaps_other, ih]
  | case10 d s ih =>
    have hrun := ih (by split <;> simp) k
    simp [numberMarkers_other, lex, fillGaps_other, hrun]
  | case12 d c s hclose hopen ih =>
    have hstep : lex (.blockComment d) (c :: (numberMarkers k (lex (.blockComment d) s)).1) =
        (.blockComment d, c) :: lex (.blockComment d) (numberMarkers k (lex (.blockComment d) s)).1 := by
      refine lex.eq_12 d c _ (fun t hstar h => ?_) (fun t hslash h => ?_)
      · obtain ⟨s', hs⟩ := head_of_numberMarkers (lex_chars (.blockComment d) s) h (by decide)
        exact hclose s' hstar hs
      · obtain ⟨s', hs⟩ := head_of_numberMarkers (lex_chars (.blockComment d) s) h (by decide)
        exact hopen s' hslash hs
    simp [numberMarkers_other, fillGaps_other, hstep, ih]
  | case13 q c => simp [numberMarkers, lex, fillGaps, codeChar]
  | case14 c s ih => simp [numberMarkers_other, lex, fillGaps_other, ih hr]
  | case15 c c' s hne ih =>
    obtain ⟨c'', t, hcut, hc''⟩ := numberMarkers_cons k (lex_chars .code (c' :: s))
    have hclosed : c'' ≠ c := by
      rintro rfl
      rcases hc'' with rfl | rfl
      · exact hne rfl
      · exact hr rfl
    have hrun := ih (by simp) k
    rw [hcut] at hrun
    simp [numberMarkers_other, lex, fillGaps_other, hcut, hclosed, hrun]
  | case16 q c c' s hne ih =>
    obtain ⟨c'', t, hcut, -⟩ := numberMarkers_cons k (lex_chars (.quoted q) (c' :: s))
    have hrun := ih hr k
    rw [hcut] at hrun
    simp [numberMarkers_other, lex, fillGaps_other, hcut, hne, hrun]
  | _ => simp [numberMarkers_other, lex, fillGaps_other, *]

end Rewritten

section Variables

theorem isVariable_fill {t : Text} (ht : '@' ∉ t) (k : ℕ) :
    isVariable (fill '?' parameterName k t) = true ↔ ∃ rest, t = '?' :: rest := by
  rcases t with _ | ⟨c, t⟩
  · simp [isVariable, fill]
  by_cases hc : c = '?'
  · subst hc
    rw [fill_marker]
    exact iff_of_true rfl ⟨t, rfl⟩
  · rw [fill_copy k hc]
    simp only [List.mem_cons, not_or] at ht
    simpa [isVariable, hc] using Ne.symm ht.1

theorem filter_cons_of_variable (k : ℕ) (t : Text) (ts : List Text) :
    (fillTokens '?' parameterName k (('?' :: t) :: ts)).filter isVariable =
      (parameterName (k + 1) ++ fill '?' parameterName (k + 1) t) ::
        (fillTokens '?' parameterName (k + 1 + t.count '?') ts).filter isVariable := by
  have hvariable : isVariable (fill '?' parameterName k ('?' :: t)) = true := by
    rw [fill_marker]
    rfl
  rw [fillTokens, List.filter_cons_of_pos hvariable, fill_marker, List.count_cons_self, Nat.add_right_comm,
    Nat.add_assoc]

theorem filter_cons_of_other {k : ℕ} {t : Text} (ht : '@' ∉ t) (hhead : ¬ ∃ rest, t = '?' :: rest) (ts : List Text) :
    (fillTokens '?' parameterName k (t :: ts)).filter isVariable =
      (fillTokens '?' parameterName (k + t.count '?') ts).filter isVariable := by
  rw [fillTokens, List.filter_cons_of_neg (by rwa [isVariable_fill ht])]

/-- There are no more variables than markers. -/
theorem length_filter_fillTokens (k : ℕ) {ts : List Text} (hvariables : ∀ t ∈ ts, '@' ∉ t) :
    ((fillTokens '?' parameterName k ts).filter isVariable).length ≤ ts.flatten.count '?' := by
  induction ts generalizing k with
  | nil => exact le_rfl
  | cons t ts ih =>
    obtain ⟨ht, hts⟩ := List.forall_mem_cons.mp hvariables
    rw [List.flatten_cons, List.count_append]
    by_cases hhead : ∃ rest, t = '?' :: rest
    · obtain ⟨rest, rfl⟩ := hhead
      have hle := ih (k + 1 + rest.count '?') hts
      rw [filter_cons_of_variable, List.length_cons, List.count_cons_self]
      omega
    · rw [filter_cons_of_other ht hhead]
      exact (ih _ hts).trans (Nat.le_add_left _ _)

theorem filter_fillTokens (k : ℕ) {ts : List Text} (hvariables : ∀ t ∈ ts, '@' ∉ t) :
    (fillTokens '?' parameterName k ts).filter isVariable =
        (List.range' (k + 1) (ts.flatten.count '?')).map parameterName ↔
      ∀ t ∈ ts, '?' ∈ t → t = ['?'] := by
  induction ts generalizing k with
  | nil => simp [fillTokens]
  | cons t ts ih =>
    obtain ⟨ht, hts⟩ := List.forall_mem_cons.mp hvariables
    rw [List.flatten_cons, List.count_append, List.forall_mem_cons]
    by_cases hhead : ∃ rest, t = '?' :: rest
    · obtain ⟨rest, rfl⟩ := hhead
      have hcount : ('?' :: rest).count '?' + ts.flatten.count '?' =
          rest.count '?' + ts.flatten.count '?' + 1 := by
        rw [List.count_cons_self]
        omega
      rw [filter_cons_of_variable, hcount, List.range'_succ, List.map_cons, List.cons.injEq]
      cases rest with
      | nil =>
        rw [fill, List.append_nil, List.count_nil, Nat.add_zero, Nat.zero_add, ih (k + 1) hts]
        exact and_congr_left fun _ => iff_of_true rfl fun _ => rfl
      | cons c rest =>
        refine iff_of_false (fun h => ?_) fun h => ?_
        · exact fill_ne_nil (fun n => List.cons_ne_nil '@' _) (k + 1) c rest (List.append_right_eq_self.mp h.1)
        · cases h.1 List.mem_cons_self
    · rw [filter_cons_of_other ht hhead]
      by_cases hmarker : '?' ∈ t
      · refine iff_of_false (fun h => ?_) fun h => hhead ⟨[], h.1 hmarker⟩
        have hle := length_filter_fillTokens (k + t.count '?') hts
        rw [h, List.length_map, List.length_range'] at hle
        have hpos := List.count_pos_iff.mpr hmarker
        omega
      · rw [List.count_eq_zero_of_not_mem hmarker, Nat.zero_add, Nat.add_zero, ih k hts]
        exact ⟨fun h => ⟨fun hmem => absurd hmem hmarker, h⟩, fun h => h.2⟩

end Variables

theorem names_stand_alone_iff (T : TransactSql) {sql : Text}
    (hcode : ∀ e ∈ lex .code sql, e ≠ (.code, '@')) (hflat : CommentsFlat (lex .code sql)) :
    NamesStandAlone T sql ↔ MarkersStandAlone T sql := by
  have hrun := rewriteParamMarkers_eq_reference sql hflat
  have htokens : T.lexicon.tokens (codeChars (referenceRewrite sql).1) =
      fillTokens '?' parameterName 0 ((T.lexicon.withPlaceholder '?').tokens (codeChars sql)) := by
    rw [← tokens_fillGaps T.names, codeChars, referenceRewrite, codeChars_rewritten .code (by simp)]
    rfl
  have hvariables : ∀ t ∈ (T.lexicon.withPlaceholder '?').tokens (codeChars sql), '@' ∉ t := by
    intro t ht hmem
    have hflatten := List.mem_flatten_of_mem ht hmem
    rw [Lexicon.flatten_tokens, List.reduceOption_mem_iff, codeChars, List.mem_map] at hflatten
    obtain ⟨e, he, hchar⟩ := hflatten
    exact hcode e he (codeChar_eq_some.mp hchar)
  have hcount : (referenceRewrite sql).2 = (codeChars sql).reduceOption.count '?' := by
    rw [referenceRewrite, numberMarkers_count, Nat.zero_add, codeChars]
  have hiff := filter_fillTokens 0 hvariables
  rw [← htokens, Lexicon.flatten_tokens, ← hcount] at hiff
  refine Iff.trans ⟨?_, fun hnames => ⟨_, _, hrun, hcount, hnames⟩⟩ hiff
  rintro ⟨rewritten, markers, hrewritten, -, hnames⟩
  obtain ⟨rfl, rfl⟩ : (referenceRewrite sql).1 = rewritten ∧ (referenceRewrite sql).2 = markers :=
    Prod.mk.inj (Except.ok.inj (hrun.symm.trans hrewritten))
  exact hnames

/-- Letters of ASCII, and numbers without a point. -/
def asciiWords : TransactSql where
  letter := Char.isAlpha
  literal t := !t.isEmpty && t.all Char.isDigit
  letter_ascii _ _ := rfl
  literal_chars t ht := by
    have hdigits : ∀ c ∈ t, c.isDigit = true := by simpa using (Bool.and_eq_true_iff.mp ht).2
    exact ⟨fun h => absurd (hdigits '?' h) (by decide), fun h => absurd (hdigits '@' h) (by decide)⟩

theorem spaced_markers_stand_alone : NamesStandAlone asciiWords "?= EXEC p 1? , b=?".toList :=
  (names_stand_alone_iff asciiWords (by decide) (by decide)).mpr (by decide)

/-- A name merges with an identifier on either side, with a digit behind it and with another name. -/
theorem names_merge : ¬ NamesStandAlone asciiWords "a=?AND b=?".toList ∧
    ¬ NamesStandAlone asciiWords "a?".toList ∧ ¬ NamesStandAlone asciiWords "?1".toList ∧
      ¬ NamesStandAlone asciiWords "??".toList := by
  have hmerges {sql : Text} (rewritten : Text) (markers : ℕ) (hrun : rewriteParamMarkers sql = .ok (rewritten, markers))
      (h : asciiWords.variables rewritten ≠ (List.range' 1 markers).map parameterName) :
      ¬ NamesStandAlone asciiWords sql := by
    rintro ⟨rewritten', markers', hrun', -, hnames⟩
    obtain ⟨rfl, rfl⟩ : rewritten = rewritten' ∧ markers = markers' :=
      Prod.mk.inj (Except.ok.inj (hrun.symm.trans hrun'))
    exact h hnames
  exact ⟨hmerges "a=@P1AND b=@P2".toList 2 rfl (by decide), hmerges "a@P1".toList 1 rfl (by decide),
    hmerges "@P11".toList 1 rfl (by decide), hmerges "@P1@P2".toList 2 rfl (by decide)⟩

end SqlxMssql.ParamMarkers
