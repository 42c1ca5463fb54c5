import SqlxMssql.Text.ParamMarkers

/-! # The marker scanner agrees with a lexer of T-SQL

The reference lexer cuts a text into regions, one character at a time and without any
index. Its block comments nest, as they do in T-SQL. The scanner reads the text as if they
did not: it agrees on every text with the lexer whose comments end with their first `*/`,
and so with the reference on the texts in which no comment contains a further `/*`.
-/
namespace SqlxMssql.ParamMarkers
open Loops Utf8
open String (utf8Len utf8Len_cons utf8Len_append)

/-- The region a character belongs to. A delimiter belongs to the region it delimits,
and the newline after a line comment to the code around it. -/
inductive Region where
  | code
  | lineComment
  | blockComment (depth : ℕ)
  | quoted (closing : Char)
  deriving DecidableEq, Repr

/-- The characters of a text, each with its region, for a text that starts inside the
given region. A region that is not closed runs to the end. -/
def lex : Region → Text → List (Region × Char)
  | _, [] => []
  | .code, '-' :: '-' :: s => (.lineComment, '-') :: (.lineComment, '-') :: lex .lineComment s
  | .code, '/' :: '*' :: s => (.blockComment 1, '/') :: (.blockComment 1, '*') :: lex (.blockComment 1) s
  | .code, '\'' :: s => (.quoted '\'', '\'') :: lex (.quoted '\'') s
  | .code, '"' :: s => (.quoted '"', '"') :: lex (.quoted '"') s
  | .code, '[' :: s => (.quoted ']', '[') :: lex (.quoted ']') s
  | .code, c :: s => (.code, c) :: lex .code s
  | .lineComment, '\n' :: s => (.code, '\n') :: lex .code s
  | .lineComment, c :: s => (.lineComment, c) :: lex .lineComment s
  | .blockComment d, '*' :: '/' :: s =>
    (.blockComment d, '*') :: (.blockComment d, '/') ::
      lex (if d ≤ 1 then .code else .blockComment (d - 1)) s
  | .blockComment d, '/' :: '*' :: s =>
    (.blockComment (d + 1), '/') :: (.blockComment (d + 1), '*') :: lex (.blockComment (d + 1)) s
  | .blockComment d, c :: s => (.blockComment d, c) :: lex (.blockComment d) s
  | .quoted q, [c] => [(.quoted q, c)]
  | .quoted q, c :: c' :: s =>
    if c = q then
      if c' = q then (.quoted q, c) :: (.quoted q, c') :: lex (.quoted q) s
      else (.quoted q, c) :: lex .code (c' :: s)
    else (.quoted q, c) :: lex (.quoted q) (c' :: s)

/-- The reading in which block comments do not nest. -/
def lexFlat : Region → Text → List (Region × Char)
  | _, [] => []
  | .code, '-' :: '-' :: s => (.lineComment, '-') :: (.lineComment, '-') :: lexFlat .lineComment s
  | .code, '/' :: '*' :: s =>
    (.blockComment 1, '/') :: (.blockComment 1, '*') :: lexFlat (.blockComment 1) s
  | .code, '\'' :: s => (.quoted '\'', '\'') :: lexFlat (.quoted '\'') s
  | .code, '"' :: s => (.quoted '"', '"') :: lexFlat (.quoted '"') s
  | .code, '[' :: s => (.quoted ']', '[') :: lexFlat (.quoted ']') s
  | .code, c :: s => (.code, c) :: lexFlat .code s
  | .lineComment, '\n' :: s => (.code, '\n') :: lexFlat .code s
  | .lineComment, c :: s => (.lineComment, c) :: lexFlat .lineComment s
  | .blockComment d, '*' :: '/' :: s => (.blockComment d, '*') :: (.blockComment d, '/') :: lexFlat .code s
  | .blockComment d, c :: s => (.blockComment d, c) :: lexFlat (.blockComment d) s
  | .quoted q, [c] => [(.quoted q, c)]
  | .quoted q, c :: c' :: s =>
    if c = q then
      if c' = q then (.quoted q, c) :: (.quoted q, c') :: lexFlat (.quoted q) s
      else (.quoted q, c) :: lexFlat .code (c' :: s)
    else (.quoted q, c) :: lexFlat (.quoted q) (c' :: s)

/-- Numbers the markers of the code from `k + 1` on and copies everything else. -/
def numberMarkers : ℕ → List (Region × Char) → Text × ℕ
  | k, [] => ([], k)
  | k, (r, c) :: s =>
    if r = .code ∧ c = '?' then
      let (text, count) := numberMarkers (k + 1) s
      (['@', 'P'] ++ decimal (k + 1) ++ text, count)
    else
      let (text, count) := numberMarkers k s
      (c :: text, count)

def referenceRewrite (sql : Text) : Text × ℕ := numberMarkers 0 (lex .code sql)

def Region.commentDepth : Region → ℕ
  | .blockComment d => d
  | _ => 0

/-- No block comment of the text contains a further `/*`. -/
def CommentsFlat (tagged : List (Region × Char)) : Prop := ∀ e ∈ tagged, e.1.commentDepth ≤ 1

instance (tagged : List (Region × Char)) : Decidable (CommentsFlat tagged) :=
  inferInstanceAs (Decidable (∀ e ∈ tagged, e.1.commentDepth ≤ 1))

@[simp] theorem commentDepth_code : Region.code.commentDepth = 0 := rfl
@[simp] theorem commentDepth_lineComment : Region.lineComment.commentDepth = 0 := rfl
@[simp] theorem commentDepth_quoted (closing : Char) : (Region.quoted closing).commentDepth = 0 := rfl
@[simp] theorem commentDepth_blockComment (d : ℕ) : (Region.blockComment d).commentDepth = d := rfl

@[simp] theorem commentsFlat_cons (e : Region × Char) (s : List (Region × Char)) :
    CommentsFlat (e :: s) ↔ e.1.commentDepth ≤ 1 ∧ CommentsFlat s := List.forall_mem_cons

/-- Where no comment contains a further `/*`, the two readings are the same. -/
theorem lex_eq_lexFlat {r : Region} {s : Text} (h : CommentsFlat (lex r s))
    (hr : ∀ d, r = .blockComment d → d = 1) : lex r s = lexFlat r s := by
  fun_induction lex r s with
  | case10 d s ih =>
    obtain rfl := hr d rfl
    simp_all [lexFlat]
  | case11 d s ih =>
    obtain rfl := hr d rfl
    simp at h
  | case12 d c s hclose hopen ih =>
    obtain rfl := hr d rfl
    simp [lexFlat, ih ((commentsFlat_cons _ _).mp h).2 (by simp)]
  | _ => simp_all [lexFlat]

theorem numberMarkers_marker (k : ℕ) (s : List (Region × Char)) : numberMarkers k ((.code, '?') :: s) =
    (['@', 'P'] ++ decimal (k + 1) ++ (numberMarkers (k + 1) s).1, (numberMarkers (k + 1) s).2) := rfl

theorem numberMarkers_other (k : ℕ) {e : Region × Char} (h : ¬ (e.1 = .code ∧ e.2 = '?'))
    (s : List (Region × Char)) :
    numberMarkers k (e :: s) = (e.2 :: (numberMarkers k s).1, (numberMarkers k s).2) := by
  simp only [numberMarkers, h, ↓reduceIte]

theorem numberMarkers_copy (k : ℕ) {copied : List (Region × Char)} (h : ∀ e ∈ copied, e.1 ≠ .code)
    (s : List (Region × Char)) :
    numberMarkers k (copied ++ s) =
      (copied.map Prod.snd ++ (numberMarkers k s).1, (numberMarkers k s).2) := by
  induction copied with
  | nil => rfl
  | cons e copied ih =>
    obtain ⟨he, hrest⟩ := List.forall_mem_cons.mp h
    rw [List.cons_append, numberMarkers_other k fun hmarker => he hmarker.1, ih hrest]
    rfl

theorem lexFlat_lineComment (s : Text) : ∃ comment rest, s = comment ++ rest ∧
    lexFlat .lineComment s = comment.map (Prod.mk .lineComment) ++ lexFlat .code rest ∧
    ∀ i, ((find ['\n'] s).map (i + ·)).getD (i + utf8Len s) = i + utf8Len comment := by
  induction s with
  | nil => exact ⟨[], [], rfl, by simp [lexFlat], by simp [find]⟩
  | cons c s ih =>
    by_cases hc : c = '\n'
    · subst hc
      refine ⟨[], '\n' :: s, rfl, by simp [lexFlat], fun i => ?_⟩
      rw [find_here (by simp)]
      simp
    · obtain ⟨comment, rest, rfl, hlex, hstop⟩ := ih
      refine ⟨c :: comment, rest, rfl, by simp [lexFlat, hlex], fun i => ?_⟩
      rw [find_later (by simpa [eq_comm] using hc)]
      have hnext := hstop (i + c.utf8Size)
      cases hf : find ['\n'] (comment ++ rest) with
      | none => simp [hf] at hnext ⊢; omega
      | some n => simp [hf] at hnext ⊢; omega

/-- A block comment ends with the first `*/`. -/
theorem lexFlat_blockComment (s : Text) : ∃ comment rest, s = comment ++ rest ∧
    lexFlat (.blockComment 1) s = comment.map (Prod.mk (.blockComment 1)) ++ lexFlat .code rest ∧
    ∀ i, ((find ['*', '/'] s).map (i + · + 2)).getD (i + utf8Len s) = i + utf8Len comment := by
  induction s with
  | nil => exact ⟨[], [], rfl, by simp [lexFlat], by simp [find]⟩
  | cons c s ih =>
    by_cases hclose : ['*', '/'] <+: c :: s
    · obtain ⟨rest, hrest⟩ := hclose
      obtain ⟨rfl, rfl⟩ : c = '*' ∧ s = '/' :: rest := by simpa [eq_comm] using hrest
      refine ⟨['*', '/'], rest, rfl, by simp [lexFlat], fun i => ?_⟩
      rw [find_here (by simp)]
      simp [Char.utf8Size]
    · have hclose' : ∀ t, c = '*' → s = '/' :: t → False := by
        rintro t rfl rfl
        exact hclose (by simp)
      obtain ⟨comment, rest, rfl, hlex, hstop⟩ := ih
      refine ⟨c :: comment, rest, rfl, by simp [lexFlat, hlex], fun i => ?_⟩
      rw [find_later hclose]
      have hnext := hstop (i + c.utf8Size)
      cases hf : find ['*', '/'] (comment ++ rest) with
      | none => simp [hf] at hnext ⊢; omega
      | some n => simp [hf] at hnext ⊢; omega

/-- A quoted region after its opening delimiter, up to its closing one, and what follows. -/
def quotedRegion (closing : Char) : Text → Text × Text
  | [] => ([], [])
  | [c] => ([c], [])
  | c :: c' :: s =>
    if c = closing then
      if c' = closing then (c :: c' :: (quotedRegion closing s).1, (quotedRegion closing s).2)
      else ([c], c' :: s)
    else (c :: (quotedRegion closing (c' :: s)).1, (quotedRegion closing (c' :: s)).2)

theorem quotedRegion_append (closing : Char) (s : Text) :
    (quotedRegion closing s).1 ++ (quotedRegion closing s).2 = s := by
  fun_induction quotedRegion closing s <;> simp_all

theorem lexFlat_quoted (closing : Char) (s : Text) :
    lexFlat (.quoted closing) s =
      (quotedRegion closing s).1.map (Prod.mk (.quoted closing)) ++
        lexFlat .code (quotedRegion closing s).2 := by
  fun_induction quotedRegion closing s <;> simp_all [lexFlat]

theorem not_startsWith_pair {c d e : Char} {s : Text} (h : ∀ t, c = d → s = e :: t → False) :
    ¬ (c = d ∧ startsWith (c :: s) [d, e]) := by
  rintro ⟨rfl, hstart⟩
  obtain ⟨t, ht⟩ : [e] <+: s := by simpa [startsWith] using hstart
  exact h t rfl ht.symm

section Scanner
variable (before : Text) (c : Char) (after : Text)

@[simp] theorem nextChar_at : nextChar (before ++ c :: after) (utf8Len before) = .ok c := by
  simp only [nextChar, sliceFrom_append]
  rfl

@[simp] theorem sliceFrom_next :
    sliceFrom (before ++ c :: after) (utf8Len before + c.utf8Size) = .ok after := by
  have h := sliceFrom_append (before ++ [c]) after
  simpa using h

end Scanner

theorem copyQuotedTurn_spec (closing : Char) (before : Text) (c : Char) (after output : Text) :
    ∃ taken rest ended, c :: after = taken ++ rest ∧ taken ≠ [] ∧
      copyQuotedTurn (before ++ c :: after) closing ⟨output, utf8Len before, false⟩ =
        .ok ⟨output ++ taken, utf8Len before + utf8Len taken, ended⟩ ∧
      (quotedRegion closing (c :: after)).1 =
        taken ++ (if ended then [] else (quotedRegion closing rest).1) := by
  by_cases hc : c = closing
  · subst hc
    by_cases hdouble : ∃ rest, after = c :: rest
    · obtain ⟨rest, rfl⟩ := hdouble
      refine ⟨[c, c], rest, false, rfl, by simp, ?_, by simp [quotedRegion]⟩
      simp [copyQuotedTurn, startsWith, Nat.add_assoc]
    · refine ⟨[c], after, true, rfl, by simp, ?_, ?_⟩
      · cases after with
        | nil => simp [copyQuotedTurn, startsWith]
        | cons c' rest =>
          have hne : ¬ c = c' := fun h => hdouble ⟨rest, by rw [h]⟩
          simp [copyQuotedTurn, startsWith, hne]
      · cases after with
        | nil => rfl
        | cons c' rest =>
          have hne : ¬ c' = c := fun h => hdouble ⟨rest, by rw [h]⟩
          simp [quotedRegion, hne]
  · refine ⟨[c], after, false, rfl, by simp, ?_, ?_⟩
    · simp [copyQuotedTurn, hc]
    · cases after with
      | nil => rfl
      | cons c' rest => simp [quotedRegion, hc]

/-- The output and index with which a quoted scan ends. -/
def QuotedScan.result (sql : Text) (closing : Char) (s : QuotedScan) : Text × ℕ :=
  let left := if s.ended then [] else (quotedRegion closing (suffixAt sql s.index)).1
  (s.output ++ left, s.index + utf8Len left)

/-- Every turn of a running scan keeps the result and moves the index on. -/
theorem copyQuotedTurn_keeps (sql : Text) (closing : Char) (s : QuotedScan)
    (hs : Boundary sql s.index) (hcond : (!s.ended && decide (s.index < utf8Len sql)) = true) :
    ∃ t, copyQuotedTurn sql closing s = .ok t ∧ Boundary sql t.index ∧
      utf8Len sql - t.index < utf8Len sql - s.index ∧
      t.result sql closing = s.result sql closing := by
  obtain ⟨output, index, ended⟩ := s
  obtain ⟨done, todo, rfl, rfl⟩ := hs
  obtain ⟨rfl, hlt⟩ : ended = false ∧ utf8Len done < utf8Len (done ++ todo) := by
    simpa using hcond
  cases todo with
  | nil => simp at hlt
  | cons c after =>
    obtain ⟨taken, rest, ended, hcut, htaken, hturn, hregion⟩ :=
      copyQuotedTurn_spec closing done c after output
    have hpos := utf8Len_pos htaken
    have hindex : utf8Len done + utf8Len taken = utf8Len (done ++ taken) := by simp
    refine ⟨_, hturn, ⟨done ++ taken, rest, by rw [hcut, List.append_assoc], hindex⟩, ?_, ?_⟩
    · simp only [utf8Len_append] at hlt ⊢
      omega
    · have hsuffix : suffixAt (done ++ c :: after) (utf8Len done + utf8Len taken) = rest := by
        rw [hcut, ← List.append_assoc, hindex, suffixAt_append]
      cases ended with
      | true => simp_all [QuotedScan.result]
      | false => simp_all [QuotedScan.result, Nat.add_assoc]

theorem copyQuoted_spec (closing : Char) (before : Text) (opening : Char) (after output : Text) :
    copyQuoted (before ++ opening :: after) output (utf8Len before) closing =
      .ok (output ++ opening :: (quotedRegion closing after).1,
        utf8Len before + utf8Len (opening :: (quotedRegion closing after).1)) := by
  obtain ⟨t, hrun, ⟨done, todo, hdone, hindex⟩, hcond, hresult⟩ :=
    whileLoop_returns (copyQuotedTurn_keeps (before ++ opening :: after) closing)
      (utf8Len (before ++ opening :: after) + 1)
      (s := ⟨output ++ [opening], utf8Len before + opening.utf8Size, false⟩)
      ⟨before ++ [opening], after, by simp, by simp⟩ (by simp only; omega)
  have hleft : t.result (before ++ opening :: after) closing = (t.output, t.index) := by
    cases hend : t.ended with
    | true => simp [QuotedScan.result, hend]
    | false =>
      obtain rfl : todo = [] := by simpa [hend, hdone, hindex] using hcond
      have hsuffix : suffixAt (before ++ opening :: after) t.index = [] := by
        rw [hdone, hindex, suffixAt_append]
      simp [QuotedScan.result, hend, hsuffix, quotedRegion]
  have hstart : suffixAt (before ++ opening :: after) (utf8Len before + opening.utf8Size) = after := by
    simp [suffixAt]
  obtain ⟨houtput, hstop⟩ : t.output = output ++ opening :: (quotedRegion closing after).1 ∧
      t.index = utf8Len before + utf8Len (opening :: (quotedRegion closing after).1) := by
    rw [hleft] at hresult
    simpa [QuotedScan.result, hstart, Nat.add_assoc, Nat.add_comm opening.utf8Size] using hresult
  simp only [copyQuoted, nextChar_at, ok_bind]
  rw [hrun]
  simp [houtput, hstop]

/-- The lexer cuts `taken` off the code, and numbering its markers from `k + 1` on writes
`written` and reaches `n`. -/
def Takes (k : ℕ) (text taken rest written : Text) (n : ℕ) : Prop :=
  text = taken ++ rest ∧ taken ≠ [] ∧ ∃ tagged, lexFlat .code text = tagged ++ lexFlat .code rest ∧
    ∀ tail, numberMarkers k (tagged ++ tail) =
      (written ++ (numberMarkers n tail).1, (numberMarkers n tail).2)

theorem Takes.region {k : ℕ} {text taken rest : Text} {r : Region} (hr : r ≠ .code)
    (htext : text = taken ++ rest) (htaken : taken ≠ [])
    (hlex : lexFlat .code text = taken.map (Prod.mk r) ++ lexFlat .code rest) :
    Takes k text taken rest taken k := by
  refine ⟨htext, htaken, taken.map (Prod.mk r), hlex, fun tail => ?_⟩
  rw [numberMarkers_copy k (by simp [hr])]
  simp [Function.comp_def]

theorem Takes.quoted {k : ℕ} {opening : Char} (closing : Char) {after : Text}
    (hlex : lexFlat .code (opening :: after) = (.quoted closing, opening) :: lexFlat (.quoted closing) after) :
    Takes k (opening :: after) (opening :: (quotedRegion closing after).1)
      (quotedRegion closing after).2 (opening :: (quotedRegion closing after).1) k := by
  refine Takes.region (r := .quoted closing) (by simp) ?_ (by simp) ?_
  · rw [List.cons_append, quotedRegion_append]
  · rw [hlex, lexFlat_quoted]
    rfl

/-- The delimiters that open a quoted region, each with the one that closes it. -/
def quotes : List (Char × Char) := [('\'', '\''), ('"', '"'), ('[', ']')]

section Turn
variable (before output : Text) (k : ℕ)

/-- One turn of the scanner, from a character boundary before `text`, takes one lexical
unit and writes what the numbering of its markers prescribes. -/
def TurnTakes (text : Text) : Prop :=
  ∃ taken rest written n, Takes k text taken rest written n ∧
    rewriteTurn (before ++ text) ⟨output, k, utf8Len before⟩ =
      .ok ⟨output ++ written, n, utf8Len before + utf8Len taken⟩

/-- The scanner copies a line comment up to the newline that the search has found. -/
theorem rewriteTurn_lineComment {comment rest : Text}
    (hstop : ∀ i, ((find ['\n'] (comment ++ rest)).map (i + ·)).getD (i + utf8Len (comment ++ rest)) =
      i + utf8Len comment) :
    rewriteTurn (before ++ '-' :: '-' :: (comment ++ rest)) ⟨output, k, utf8Len before⟩ =
      .ok ⟨output ++ '-' :: '-' :: comment, k, utf8Len before + utf8Len ('-' :: '-' :: comment)⟩ := by
  have hend : ((find ['\n'] ('-' :: '-' :: (comment ++ rest))).map (utf8Len before + ·)).getD
      (utf8Len (before ++ '-' :: '-' :: (comment ++ rest))) =
      utf8Len before + utf8Len ('-' :: '-' :: comment) := by
    have hnext := hstop (utf8Len before + 2)
    rw [find_later (by simp), find_later (by simp)]
    cases hf : find ['\n'] (comment ++ rest) with
    | none => simp [hf, Char.utf8Size] at hnext ⊢; omega
    | some n => simp [hf, Char.utf8Size] at hnext ⊢; omega
  have hslice := slice_append before ('-' :: '-' :: comment) rest
  simp only [List.cons_append] at hslice
  have hstart : startsWith ('-' :: '-' :: (comment ++ rest)) ['-', '-'] = true := by simp [startsWith]
  simp only [rewriteTurn, nextChar_at, ok_bind, sliceFrom_append, hstart, and_self, ↓reduceIte, hend,
    hslice, pure_eq_ok]

theorem turn_lineComment (s : Text) : TurnTakes before output k ('-' :: '-' :: s) := by
  obtain ⟨comment, rest, rfl, hlex, hstop⟩ := lexFlat_lineComment s
  exact ⟨'-' :: '-' :: comment, rest, _, k,
    Takes.region (r := .lineComment) (by simp) rfl (by simp) (by simp [lexFlat, hlex]),
    rewriteTurn_lineComment before output k hstop⟩

/-- The scanner copies a block comment up to the end that the search has found. -/
theorem rewriteTurn_blockComment {comment rest : Text}
    (hstop : ∀ i, ((find ['*', '/'] (comment ++ rest)).map (i + · + 2)).getD (i + utf8Len (comment ++ rest)) =
      i + utf8Len comment) :
    rewriteTurn (before ++ '/' :: '*' :: (comment ++ rest)) ⟨output, k, utf8Len before⟩ =
      .ok ⟨output ++ '/' :: '*' :: comment, k, utf8Len before + utf8Len ('/' :: '*' :: comment)⟩ := by
  have hrest : sliceFrom (before ++ '/' :: '*' :: (comment ++ rest)) (utf8Len before + 2) =
      .ok (comment ++ rest) := by
    have h := sliceFrom_append (before ++ ['/', '*']) (comment ++ rest)
    simpa [Char.utf8Size] using h
  have hend : ((find ['*', '/'] (comment ++ rest)).map (utf8Len before + 2 + · + 2)).getD
      (utf8Len (before ++ '/' :: '*' :: (comment ++ rest))) =
      utf8Len before + utf8Len ('/' :: '*' :: comment) := by
    have hnext := hstop (utf8Len before + 2)
    cases hf : find ['*', '/'] (comment ++ rest) with
    | none => simp [hf, Char.utf8Size] at hnext ⊢; omega
    | some n => simp [hf, Char.utf8Size] at hnext ⊢; omega
  have hslice := slice_append before ('/' :: '*' :: comment) rest
  simp only [List.cons_append] at hslice
  have hstart : startsWith ('/' :: '*' :: (comment ++ rest)) ['/', '*'] = true := by simp [startsWith]
  have hslash : ¬ '/' = '-' := by decide
  simp only [rewriteTurn, nextChar_at, ok_bind, sliceFrom_append, hslash, hstart, false_and, and_self,
    ↓reduceIte, hrest, hend, hslice, pure_eq_ok]

theorem turn_blockComment (s : Text) : TurnTakes before output k ('/' :: '*' :: s) := by
  obtain ⟨comment, rest, rfl, hlex, hstop⟩ := lexFlat_blockComment s
  exact ⟨'/' :: '*' :: comment, rest, _, k,
    Takes.region (r := .blockComment 1) (by simp) rfl (by simp) (by simp [lexFlat, hlex]),
    rewriteTurn_blockComment before output k hstop⟩

theorem rewriteTurn_quoted {opening closing : Char} (after : Text)
    (hmatch : (opening, closing) ∈ quotes) :
    rewriteTurn (before ++ opening :: after) ⟨output, k, utf8Len before⟩ =
      .ok ⟨output ++ opening :: (quotedRegion closing after).1, k,
        utf8Len before + utf8Len (opening :: (quotedRegion closing after).1)⟩ := by
  have hcopy := copyQuoted_spec closing before opening after output
  simp only [quotes, List.mem_cons, Prod.mk.injEq, List.not_mem_nil, or_false] at hmatch
  rcases hmatch with ⟨rfl, rfl⟩ | ⟨rfl, rfl⟩ | ⟨rfl, rfl⟩ <;> simp [rewriteTurn, startsWith, hcopy]

theorem turn_quoted {opening closing : Char} (after : Text)
    (hmatch : (opening, closing) ∈ quotes) :
    TurnTakes before output k (opening :: after) := by
  refine ⟨_, _, _, k, Takes.quoted closing ?_, rewriteTurn_quoted before output k after hmatch⟩
  simp only [quotes, List.mem_cons, Prod.mk.injEq, List.not_mem_nil, or_false] at hmatch
  rcases hmatch with ⟨rfl, rfl⟩ | ⟨rfl, rfl⟩ | ⟨rfl, rfl⟩ <;> simp [lexFlat]

theorem rewriteTurn_plain {c : Char} (after : Text) (hmarker : c ≠ '?')
    (hquote : ∀ closing, (c, closing) ∉ quotes)
    (hline : ∀ s, c = '-' → after = '-' :: s → False)
    (hblock : ∀ s, c = '/' → after = '*' :: s → False) :
    rewriteTurn (before ++ c :: after) ⟨output, k, utf8Len before⟩ =
      .ok ⟨output ++ [c], k, utf8Len before + utf8Len [c]⟩ := by
  simp only [quotes, List.mem_cons, Prod.mk.injEq, List.not_mem_nil, or_false, not_or, not_and] at hquote
  have hc : c ≠ '\'' ∧ c ≠ '"' ∧ c ≠ '[' :=
    ⟨fun h => (hquote _).1 h rfl, fun h => (hquote _).2.1 h rfl, fun h => (hquote _).2.2 h rfl⟩
  obtain ⟨hsingle, hdouble, hbracket⟩ := hc
  have hdash := not_startsWith_pair hline
  have hslash := not_startsWith_pair hblock
  simp only [rewriteTurn, nextChar_at, ok_bind, sliceFrom_append, hdash, hslash, ↓reduceIte]
  simp

theorem turn_plain {c : Char} (after : Text) (hmarker : c ≠ '?')
    (hquote : ∀ closing, (c, closing) ∉ quotes)
    (hline : ∀ s, c = '-' → after = '-' :: s → False)
    (hblock : ∀ s, c = '/' → after = '*' :: s → False) : TurnTakes before output k (c :: after) := by
  have hturn := rewriteTurn_plain before output k after hmarker hquote hline hblock
  simp only [quotes, List.mem_cons, Prod.mk.injEq, List.not_mem_nil, or_false, not_or, not_and] at hquote
  have hc : c ≠ '\'' ∧ c ≠ '"' ∧ c ≠ '[' :=
    ⟨fun h => (hquote _).1 h rfl, fun h => (hquote _).2.1 h rfl, fun h => (hquote _).2.2 h rfl⟩
  obtain ⟨hsingle, hdouble, hbracket⟩ := hc
  have hlex : lexFlat .code (c :: after) = (.code, c) :: lexFlat .code after := by
    simp [lexFlat]
  exact ⟨[c], after, [c], k,
    ⟨rfl, by simp, [(.code, c)], hlex, fun tail => by simp [numberMarkers, hmarker]⟩, hturn⟩

theorem rewriteTurn_marker (after : Text) :
    rewriteTurn (before ++ '?' :: after) ⟨output, k, utf8Len before⟩ =
      .ok ⟨output ++ (['@', 'P'] ++ decimal (k + 1)), k + 1, utf8Len before + utf8Len ['?']⟩ := by
  simp [rewriteTurn, startsWith, Char.utf8Size]

theorem turn_marker (after : Text) : TurnTakes before output k ('?' :: after) :=
  ⟨['?'], after, ['@', 'P'] ++ decimal (k + 1), k + 1,
    ⟨rfl, by simp, [(.code, '?')], by simp [lexFlat], fun tail => by simp [numberMarkers]⟩,
    rewriteTurn_marker before output k after⟩

theorem rewriteTurn_spec (c : Char) (after : Text) : TurnTakes before output k (c :: after) := by
  by_cases hquote : ∃ closing, (c, closing) ∈ quotes
  · obtain ⟨closing, hmatch⟩ := hquote
    exact turn_quoted before output k after hmatch
  by_cases hmarker : c = '?'
  · subst hmarker
    exact turn_marker before output k after
  by_cases hline : ∃ s, c = '-' ∧ after = '-' :: s
  · obtain ⟨s, rfl, rfl⟩ := hline
    exact turn_lineComment before output k s
  by_cases hblock : ∃ s, c = '/' ∧ after = '*' :: s
  · obtain ⟨s, rfl, rfl⟩ := hblock
    exact turn_blockComment before output k s
  exact turn_plain before output k after hmarker (fun closing h => hquote ⟨closing, h⟩)
    (fun s hc hs => hline ⟨s, hc, hs⟩) fun s hc hs => hblock ⟨s, hc, hs⟩

end Turn

def Scan.result (sql : Text) (s : Scan) : Text × ℕ :=
  let left := numberMarkers s.markers (lexFlat .code (suffixAt sql s.index))
  (s.output ++ left.1, left.2)

theorem rewriteTurn_keeps (sql : Text) (s : Scan) (hs : Boundary sql s.index)
    (hcond : decide (s.index < utf8Len sql) = true) :
    ∃ t, rewriteTurn sql s = .ok t ∧ Boundary sql t.index ∧
      utf8Len sql - t.index < utf8Len sql - s.index ∧ t.result sql = s.result sql := by
  obtain ⟨output, k, index⟩ := s
  obtain ⟨done, todo, rfl, rfl⟩ := hs
  have hlt : utf8Len done < utf8Len (done ++ todo) := by simpa using hcond
  cases todo with
  | nil => simp at hlt
  | cons c after =>
    obtain ⟨taken, rest, written, n, ⟨hcut, htaken, tagged, hlex, hnumber⟩, hturn⟩ :=
      rewriteTurn_spec done output k c after
    have hpos := utf8Len_pos htaken
    have hindex : utf8Len done + utf8Len taken = utf8Len (done ++ taken) := by simp
    have hsuffix : suffixAt (done ++ c :: after) (utf8Len done + utf8Len taken) = rest := by
      rw [hcut, ← List.append_assoc, hindex, suffixAt_append]
    refine ⟨_, hturn, ⟨done ++ taken, rest, by rw [hcut, List.append_assoc], hindex⟩, ?_, ?_⟩
    · simp only [utf8Len_append] at hlt ⊢
      omega
    · simp only [Scan.result, hsuffix, suffixAt_append, hlex, hnumber, List.append_assoc]

/-- The scanner rewrites exactly the markers that are code when comments do not nest. -/
theorem rewriteParamMarkers_eq (sql : Text) :
    rewriteParamMarkers sql = .ok (numberMarkers 0 (lexFlat .code sql)) := by
  obtain ⟨t, hrun, ⟨done, todo, hdone, hindex⟩, hcond, hresult⟩ :=
    whileLoop_returns (rewriteTurn_keeps sql) (utf8Len sql + 1) (s := ⟨[], 0, 0⟩)
      ⟨[], sql, rfl, rfl⟩ (by simp only; omega)
  obtain rfl : todo = [] := by simpa [hdone, hindex] using hcond
  have hend : suffixAt sql t.index = [] := by rw [hdone, hindex, suffixAt_append]
  have hleft : t.result sql = (t.output, t.markers) := by
    simp [Scan.result, hend, lexFlat, numberMarkers]
  have hstart : (⟨[], 0, 0⟩ : Scan).result sql = numberMarkers 0 (lexFlat .code sql) := by
    simp [Scan.result, suffixAt]
  simp only [rewriteParamMarkers, hrun, ok_bind, pure_eq_ok]
  rw [← hleft, hresult, hstart]

/-- On every text whose block comments do not nest, the scanner rewrites exactly the
markers that a lexer of T-SQL finds in the top-level code. -/
theorem rewriteParamMarkers_eq_reference (sql : Text) (hflat : CommentsFlat (lex .code sql)) :
    rewriteParamMarkers sql = .ok (referenceRewrite sql) := by
  rw [rewriteParamMarkers_eq, referenceRewrite, lex_eq_lexFlat hflat (by simp)]

/-- Markers in comments, literals and identifiers, escaped or unterminated, are data. -/
theorem rewriteParamMarkers_mixed :
    rewriteParamMarkers "?/*/?*/-- ?\n[a]]?]'?''?'? \"?".toList =
      .ok ("@P1/*/?*/-- ?\n[a]]?]'?''?'@P2 \"?".toList, 2) :=
  (rewriteParamMarkers_eq_reference _ (by decide)).trans (by rfl)

end SqlxMssql.ParamMarkers
