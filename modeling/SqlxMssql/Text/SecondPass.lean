import SqlxMssql.Text.Renumbering

/-! # The scan of a rewritten text

The scan of the rewritten text takes the pieces that the scan of the text takes, in the same
modes. Where the text has a marker, it takes the characters of the name one by one.
-/
namespace SqlxMssql.ParamMarkers
open Loops Utf8
open String (utf8Len utf8Len_cons utf8Len_append)

/-- The arm of the scanner's `match` that a turn takes. -/
inductive Mode where
  | lineComment
  | blockComment
  | quoted (closing : Char)
  | marker
  | plain
  deriving DecidableEq, Repr

/-- The mode of the turn at the beginning of `rest`. -/
def modeAt (rest : Text) : Mode :=
  let ch := rest.headD '\uFFFD'
  if ch = '-' ∧ startsWith rest ['-', '-'] then .lineComment
  else if ch = '/' ∧ startsWith rest ['/', '*'] then .blockComment
  else
    match ch with
    | '\'' => .quoted '\''
    | '"' => .quoted '"'
    | '[' => .quoted ']'
    | '?' => .marker
    | _ => .plain

/-- The turns of the scanner from one state to another, each with its mode and the piece of
the text that it takes. -/
inductive Passes (sql : Text) : Scan → List (Mode × Text) → Scan → Prop where
  | done (s : Scan) : Passes sql s [] s
  | turn {s t u : Scan} {piece : Text} {pieces : List (Mode × Text)} (hmore : s.index < utf8Len sql)
    (hturn : rewriteTurn sql s = .ok t) (hpiece : slice sql s.index t.index = .ok piece)
    (h : Passes sql t pieces u) : Passes sql s ((modeAt (suffixAt sql s.index), piece) :: pieces) u

/-- The pieces of the rewritten text. -/
def renumberPieces : ℕ → List (Mode × Text) → List (Mode × Text)
  | _, [] => []
  | k, (mode, piece) :: pieces =>
    if mode = .marker then
      (parameterName (k + 1)).map (fun c => (.plain, [c])) ++ renumberPieces (k + 1) pieces
    else (mode, piece) :: renumberPieces k pieces

def joinPieces (pieces : List (Mode × Text)) : Text := pieces.flatMap Prod.snd

section Pieces
variable (k : ℕ) (pieces : List (Mode × Text))

theorem renumberPieces_marker (piece : Text) : renumberPieces k ((.marker, piece) :: pieces) =
    (parameterName (k + 1)).map (fun c => (.plain, [c])) ++ renumberPieces (k + 1) pieces := if_pos rfl

theorem renumberPieces_copy {mode : Mode} (hmode : mode ≠ .marker) (piece : Text) :
    renumberPieces k ((mode, piece) :: pieces) = (mode, piece) :: renumberPieces k pieces := if_neg hmode

@[simp] theorem joinPieces_cons (e : Mode × Text) : joinPieces (e :: pieces) = e.2 ++ joinPieces pieces := rfl

theorem joinPieces_append (pieces' : List (Mode × Text)) :
    joinPieces (pieces ++ pieces') = joinPieces pieces ++ joinPieces pieces' := List.flatMap_append

theorem joinPieces_plain (w : Text) : joinPieces (w.map fun c => (.plain, [c])) = w := by
  induction w with
  | nil => rfl
  | cons c w ih => rw [List.map_cons, joinPieces_cons, ih]; rfl

end Pieces

theorem Passes.trans {sql : Text} {s t u : Scan} {pieces pieces' : List (Mode × Text)}
    (h : Passes sql s pieces t) (h' : Passes sql t pieces' u) : Passes sql s (pieces ++ pieces') u := by
  induction h with
  | done s => exact h'
  | turn hmore hturn hpiece h ih => exact .turn hmore hturn hpiece (ih h')

theorem Passes.reaches {sql : Text} {s t : Scan} {pieces : List (Mode × Text)} (h : Passes sql s pieces t)
    {r : Scan} (hr : Reaches (fun s => decide (s.index < utf8Len sql)) (rewriteTurn sql) r s) :
    Reaches (fun s => decide (s.index < utf8Len sql)) (rewriteTurn sql) r t := by
  induction h with
  | done s => exact hr
  | turn hmore hturn hpiece h ih => exact ih (.turn hr (decide_eq_true hmore) hturn)

/-- A text that takes the place of another behind a piece: it begins as the other does, or
with a name where the other begins with a marker. -/
def StandsFor (rest' rest : Text) : Prop :=
  (rest = [] ∧ rest' = []) ∨
    ∃ c s c' t, rest = c :: s ∧ rest' = c' :: t ∧ (c' = c ∨ (c = '?' ∧ c' = '@'))

namespace StandsFor

theorem refl (rest : Text) : StandsFor rest rest := by
  cases rest with
  | nil => exact .inl ⟨rfl, rfl⟩
  | cons c s => exact .inr ⟨c, s, c, s, rfl, rfl, .inl rfl⟩

theorem head {rest' rest : Text} (h : StandsFor rest' rest) {c : Char} {t : Text} (ht : rest' = c :: t)
    (hc : c ≠ '@') : ∃ s, rest = c :: s := by
  subst ht
  obtain ⟨-, hnil⟩ | ⟨c₁, s, c', t', rfl, hcons, rfl | ⟨-, rfl⟩⟩ := h
  · cases hnil
  · exact ⟨s, by rw [(List.cons.inj hcons).1]⟩
  · exact absurd (List.cons.inj hcons).1 hc

end StandsFor

/-- A turn takes `piece` in its mode and copies it, whatever stands for the rest. -/
def Copied (mode : Mode) (piece rest : Text) : Prop :=
  mode ≠ .marker ∧ piece ≠ [] ∧ ∀ rest', StandsFor rest' rest →
    modeAt (piece ++ rest') = mode ∧ ∀ before output k,
      rewriteTurn (before ++ (piece ++ rest')) ⟨output, k, utf8Len before⟩ =
        .ok ⟨output ++ piece, k, utf8Len before + utf8Len piece⟩

/-- A text cut into pieces. -/
inductive Cut : Text → List (Mode × Text) → Prop where
  | nil : Cut [] []
  | copy {mode : Mode} {piece rest : Text} {pieces : List (Mode × Text)} (hcopied : Copied mode piece rest)
    (h : Cut rest pieces) : Cut (piece ++ rest) ((mode, piece) :: pieces)
  | marker {rest : Text} {pieces : List (Mode × Text)} (h : Cut rest pieces) :
    Cut ('?' :: rest) ((.marker, ['?']) :: pieces)

section Arms

theorem copied_lineComment (s : Text) : ∃ piece rest, '-' :: '-' :: s = piece ++ rest ∧
    Copied .lineComment piece rest := by
  have hcomment : '\n' ∉ s.takeWhile (· ≠ '\n') := fun h => by simpa using List.mem_takeWhile_imp h
  refine ⟨'-' :: '-' :: s.takeWhile (· ≠ '\n'), s.dropWhile (· ≠ '\n'), ?_, by decide, List.cons_ne_nil _ _,
    fun rest' hrest => ⟨by simp [modeAt, startsWith], fun before output k => ?_⟩⟩
  · rw [List.cons_append, List.cons_append, List.takeWhile_append_dropWhile]
  · refine rewriteTurn_lineComment before output k fun i => ?_
    obtain ⟨-, rfl⟩ | ⟨c, t, c', t', hcut, rfl, hc⟩ := hrest
    · rw [List.append_nil, find_eq_none hcomment]
      rfl
    · obtain rfl : c = '\n' := by
        have hnewline := List.head?_dropWhile_not (· ≠ '\n') s
        rw [hcut] at hnewline
        simpa using hnewline
      obtain rfl : c' = '\n' := hc.resolve_right fun h => absurd h.1 (by decide)
      rw [find_append hcomment]
      rfl

theorem copied_blockComment (s : Text) : ∃ piece rest, '/' :: '*' :: s = piece ++ rest ∧
    Copied .blockComment piece rest := by
  cases hfind : find ['*', '/'] s with
  | none =>
    refine ⟨'/' :: '*' :: s, [], (List.append_nil _).symm, by decide, List.cons_ne_nil _ _, fun rest' hrest => ?_⟩
    obtain rfl : rest' = [] := by
      obtain ⟨-, h⟩ | ⟨c, t, c', t', hcut, -⟩ := hrest
      · exact h
      · cases hcut
    refine ⟨by simp [modeAt, startsWith], fun before output k => ?_⟩
    refine rewriteTurn_blockComment before output k fun i => ?_
    rw [List.append_nil, hfind]
    rfl
  | some n =>
    obtain ⟨inner, after, rfl, rfl⟩ := find_spec hfind
    refine ⟨'/' :: '*' :: (inner ++ ['*', '/']), after, by simp, by decide, List.cons_ne_nil _ _, fun rest' hrest =>
      ⟨by simp [modeAt, startsWith], fun before output k => rewriteTurn_blockComment before output k fun i => ?_⟩⟩
    rw [List.append_assoc, find_first hfind rest', utf8Len_append, ← Nat.add_assoc]
    simp [Char.utf8Size, Nat.add_assoc]

theorem quotedRegion_other {closing c : Char} (hc : c ≠ closing) (s : Text) :
    quotedRegion closing (c :: s) = (c :: (quotedRegion closing s).1, (quotedRegion closing s).2) := by
  cases s with
  | nil => rfl
  | cons c' s => rw [quotedRegion, if_neg hc]

/-- A quoted region ends at the same delimiter, since a name does not begin with one. -/
theorem quotedRegion_standsFor {closing : Char} (hclosing : closing ≠ '@') (s : Text) {rest : Text}
    (h : StandsFor rest (quotedRegion closing s).2) :
    quotedRegion closing ((quotedRegion closing s).1 ++ rest) = ((quotedRegion closing s).1, rest) := by
  fun_induction quotedRegion closing s with
  | case1 =>
    obtain ⟨-, rfl⟩ | ⟨c, t, c', t', hcut, -⟩ := h
    · rfl
    · cases hcut
  | case2 c =>
    obtain ⟨-, rfl⟩ | ⟨c, t, c', t', hcut, -⟩ := h
    · rfl
    · cases hcut
  | case3 s ih => simp [quotedRegion, ih h]
  | case4 c' s hne =>
    obtain ⟨hcut, -⟩ | ⟨c, t, c'', t', hcut, rfl, hc⟩ := h
    · cases hcut
    · have hopen : c'' ≠ closing := by
        rintro rfl
        rcases hc with rfl | ⟨-, h⟩
        · exact hne (List.cons.inj hcut).1
        · exact hclosing h
      simp [quotedRegion, hopen]
  | case5 c c' s hne ih => simp only [List.cons_append, quotedRegion_other hne, ih h]

theorem copied_quoted {opening closing : Char} (s : Text) (hquotes : (opening, closing) ∈ quotes) :
    ∃ piece rest, opening :: s = piece ++ rest ∧ Copied (.quoted closing) piece rest := by
  have hclosing : closing ≠ '@' ∧ ∀ t, modeAt (opening :: t) = .quoted closing := by
    simp only [quotes, List.mem_cons, Prod.mk.injEq, List.not_mem_nil, or_false] at hquotes
    rcases hquotes with ⟨rfl, rfl⟩ | ⟨rfl, rfl⟩ | ⟨rfl, rfl⟩ <;>
      exact ⟨by decide, fun t => by simp [modeAt]⟩
  refine ⟨opening :: (quotedRegion closing s).1, (quotedRegion closing s).2, ?_, by simp, List.cons_ne_nil _ _,
    fun rest' hrest => ⟨hclosing.2 _, fun before output k => ?_⟩⟩
  · rw [List.cons_append, quotedRegion_append]
  · have hturn := rewriteTurn_quoted before output k ((quotedRegion closing s).1 ++ rest') hquotes
    rw [quotedRegion_standsFor hclosing.1 s hrest] at hturn
    exact hturn

theorem modeAt_plain {c : Char} {s : Text} (hmarker : c ≠ '?') (hquote : ∀ closing, (c, closing) ∉ quotes)
    (hline : ∀ t, c = '-' → s = '-' :: t → False) (hblock : ∀ t, c = '/' → s = '*' :: t → False) :
    modeAt (c :: s) = .plain := by
  simp only [modeAt, List.headD_cons, not_startsWith_pair hline, not_startsWith_pair hblock, ↓reduceIte]
  split
  · exact absurd List.mem_cons_self (hquote '\'')
  · exact absurd (List.mem_cons_of_mem _ List.mem_cons_self) (hquote '"')
  · exact absurd (List.mem_cons_of_mem _ (List.mem_cons_of_mem _ List.mem_cons_self)) (hquote ']')
  · exact absurd rfl hmarker
  · rfl

theorem copied_plain {c : Char} (s : Text) (hmarker : c ≠ '?') (hquote : ∀ closing, (c, closing) ∉ quotes)
    (hline : ∀ t, c = '-' → s = '-' :: t → False) (hblock : ∀ t, c = '/' → s = '*' :: t → False) :
    Copied .plain [c] s := by
  refine ⟨by decide, List.cons_ne_nil _ _, fun rest' hrest => ?_⟩
  have hline' (t : Text) (hc : c = '-') (ht : rest' = '-' :: t) : False := by
    obtain ⟨s', hs⟩ := hrest.head ht (by decide)
    exact hline s' hc hs
  have hblock' (t : Text) (hc : c = '/') (ht : rest' = '*' :: t) : False := by
    obtain ⟨s', hs⟩ := hrest.head ht (by decide)
    exact hblock s' hc hs
  exact ⟨modeAt_plain hmarker hquote hline' hblock',
    fun before output k => rewriteTurn_plain before output k rest' hmarker hquote hline' hblock'⟩

end Arms

theorem exists_copied {c : Char} (s : Text) (hmarker : c ≠ '?') :
    ∃ mode piece rest, c :: s = piece ++ rest ∧ Copied mode piece rest := by
  by_cases hquote : ∃ closing, (c, closing) ∈ quotes
  · obtain ⟨closing, hquotes⟩ := hquote
    exact ⟨_, copied_quoted s hquotes⟩
  by_cases hline : ∃ t, c = '-' ∧ s = '-' :: t
  · obtain ⟨t, rfl, rfl⟩ := hline
    exact ⟨_, copied_lineComment t⟩
  by_cases hblock : ∃ t, c = '/' ∧ s = '*' :: t
  · obtain ⟨t, rfl, rfl⟩ := hblock
    exact ⟨_, copied_blockComment t⟩
  exact ⟨.plain, [c], s, rfl, copied_plain s hmarker (fun closing h => hquote ⟨closing, h⟩)
    (fun t hc ht => hline ⟨t, hc, ht⟩) fun t hc ht => hblock ⟨t, hc, ht⟩⟩

/-- The induction is on the length, since a piece may have any. -/
theorem exists_cut (s : Text) : ∃ pieces, Cut s pieces := by
  induction hn : s.length using Nat.strong_induction_on generalizing s with
  | _ n ih =>
    cases s with
    | nil => exact ⟨[], .nil⟩
    | cons c s =>
      by_cases hmarker : c = '?'
      · subst hmarker
        obtain ⟨pieces, h⟩ := ih s.length (by simp at hn; omega) s rfl
        exact ⟨_, .marker h⟩
      · obtain ⟨mode, piece, rest, hcut, hcopied⟩ := exists_copied s hmarker
        have hpos := List.length_pos_of_ne_nil hcopied.2.1
        obtain ⟨pieces, h⟩ := ih rest.length (by rw [← hn, hcut, List.length_append]; omega) rest rfl
        rw [hcut]
        exact ⟨_, .copy hcopied h⟩

section Scans
variable {before output : Text} {k : ℕ}

theorem Copied.passes {mode : Mode} {piece rest rest' : Text} (h : Copied mode piece rest)
    (hrest : StandsFor rest' rest) {pieces : List (Mode × Text)} {u : Scan}
    (hpasses : Passes (before ++ (piece ++ rest')) ⟨output ++ piece, k, utf8Len (before ++ piece)⟩ pieces u) :
    Passes (before ++ (piece ++ rest')) ⟨output, k, utf8Len before⟩ ((mode, piece) :: pieces) u := by
  obtain ⟨-, hpiece, hturns⟩ := h
  obtain ⟨hmode, hturn⟩ := hturns rest' hrest
  have hpos := utf8Len_pos hpiece
  have hmore : utf8Len before < utf8Len (before ++ (piece ++ rest')) := by
    simp only [utf8Len_append]
    omega
  rw [utf8Len_append] at hpasses
  have hfirst := Passes.turn hmore (hturn before output k) (slice_append before piece rest') hpasses
  rwa [suffixAt_append, hmode] at hfirst

theorem passes_word {w : Text} (hw : ∀ c ∈ w, c ∉ ['-', '/', '\'', '"', '[', '?']) (rest : Text) :
    Passes (before ++ (w ++ rest)) ⟨output, k, utf8Len before⟩ (w.map fun c => (.plain, [c]))
      ⟨output ++ w, k, utf8Len (before ++ w)⟩ := by
  induction w generalizing before output with
  | nil =>
    rw [List.append_nil, List.append_nil]
    exact .done _
  | cons c w ih =>
    obtain ⟨hc, hw⟩ := List.forall_mem_cons.mp hw
    simp only [List.mem_cons, List.not_mem_nil, or_false, not_or] at hc
    have hquote (closing : Char) : (c, closing) ∉ quotes := by simp [quotes, hc]
    have hplain : Copied .plain [c] (w ++ rest) :=
      copied_plain (w ++ rest) hc.2.2.2.2.2 hquote (fun t h => absurd h hc.1) fun t h => absurd h hc.2.1
    have hword : Passes (before ++ [c] ++ (w ++ rest)) ⟨output ++ [c], k, utf8Len (before ++ [c])⟩ _
        ⟨output ++ [c] ++ w, k, utf8Len (before ++ [c] ++ w)⟩ := ih hw
    simp only [List.append_assoc, List.singleton_append] at hword
    exact hplain.passes (.refl _) (by simpa using hword)

end Scans

namespace Cut
variable {s : Text} {pieces : List (Mode × Text)}

theorem standsFor (h : Cut s pieces) (k : ℕ) : StandsFor (joinPieces (renumberPieces k pieces)) s := by
  cases h with
  | nil => exact .refl []
  | @copy mode piece rest pieces hcopied h =>
    rw [renumberPieces_copy k pieces hcopied.1, joinPieces_cons]
    obtain ⟨c, t, rfl⟩ := List.exists_cons_of_ne_nil hcopied.2.1
    exact .inr ⟨c, _, c, _, rfl, rfl, .inl rfl⟩
  | marker h => exact .inr ⟨'?', _, '@', _, rfl, rfl, .inr ⟨rfl, rfl⟩⟩

theorem passes (h : Cut s pieces) (k : ℕ) (before output : Text) : ∃ n,
    Passes (before ++ s) ⟨output, k, utf8Len before⟩ pieces
      ⟨output ++ joinPieces (renumberPieces k pieces), n, utf8Len (before ++ s)⟩ := by
  induction h generalizing k before output with
  | nil => exact ⟨k, by simpa [joinPieces, renumberPieces] using Passes.done _⟩
  | @copy mode piece rest pieces hcopied h ih =>
    obtain ⟨n, hn⟩ := ih k (before ++ piece) (output ++ piece)
    simp only [List.append_assoc] at hn
    rw [renumberPieces_copy k pieces hcopied.1, joinPieces_cons]
    exact ⟨n, hcopied.passes (.refl rest) hn⟩
  | @marker rest pieces h ih =>
    obtain ⟨n, hn⟩ := ih (k + 1) (before ++ ['?']) (output ++ parameterName (k + 1))
    have hmore : utf8Len before < utf8Len (before ++ '?' :: rest) := by
      simp [Char.utf8Size]
    simp only [List.append_assoc, List.singleton_append] at hn
    rw [utf8Len_append] at hn
    rw [renumberPieces_marker, joinPieces_append, joinPieces_plain]
    have hfirst := Passes.turn hmore (rewriteTurn_marker before output k rest) (slice_append before ['?'] rest) hn
    rw [suffixAt_append] at hfirst
    exact ⟨n, hfirst⟩

theorem passes_rewritten (h : Cut s pieces) (k m : ℕ) (before output : Text) :
    Passes (before ++ joinPieces (renumberPieces k pieces)) ⟨output, m, utf8Len before⟩ (renumberPieces k pieces)
      ⟨output ++ joinPieces (renumberPieces k pieces), m,
        utf8Len (before ++ joinPieces (renumberPieces k pieces))⟩ := by
  induction h generalizing k before output with
  | nil => simpa [joinPieces, renumberPieces] using Passes.done _
  | @copy mode piece rest pieces hcopied h ih =>
    have hrest := ih k (before ++ piece) (output ++ piece)
    simp only [List.append_assoc] at hrest
    rw [renumberPieces_copy k pieces hcopied.1, joinPieces_cons]
    exact hcopied.passes (h.standsFor k) hrest
  | @marker rest pieces h ih =>
    have hrest := ih (k + 1) (before ++ parameterName (k + 1)) (output ++ parameterName (k + 1))
    simp only [List.append_assoc] at hrest
    rw [renumberPieces_marker, joinPieces_append, joinPieces_plain]
    exact (passes_word (parameterName_chars (k + 1)) _).trans hrest

end Cut

/-- The scanner returns what its turns have led to. -/
theorem rewriteParamMarkers_of_passes {sql output : Text} {markers : ℕ} {pieces : List (Mode × Text)}
    (h : Passes sql ⟨[], 0, 0⟩ pieces ⟨output, markers, utf8Len sql⟩) :
    rewriteParamMarkers sql = .ok (output, markers) := by
  have hreaches := h.reaches .start
  have hreturns := rewriteParamMarkers_eq sql
  rw [rewriteParamMarkers] at hreturns ⊢
  cases hrun : whileLoop (fun s => decide (s.index < utf8Len sql)) (rewriteTurn sql) (utf8Len sql + 1) ⟨[], 0, 0⟩ with
  | error e =>
    rw [hrun] at hreturns
    cases hreturns
  | ok u =>
    rw [hreaches.eq_of_returns (decide_eq_false (lt_irrefl _)) hrun]
    rfl

/-- Rewriting a rewritten text changes nothing, since its scan passes through the same modes. -/
theorem rewrite_idempotent (sql : Text) : ∃ rewritten markers pieces,
    rewriteParamMarkers sql = .ok (rewritten, markers) ∧ rewriteParamMarkers rewritten = .ok (rewritten, 0) ∧
      Passes sql ⟨[], 0, 0⟩ pieces ⟨rewritten, markers, utf8Len sql⟩ ∧
        Passes rewritten ⟨[], 0, 0⟩ (renumberPieces 0 pieces) ⟨rewritten, 0, utf8Len rewritten⟩ := by
  obtain ⟨pieces, hcut⟩ := exists_cut sql
  obtain ⟨markers, hpasses⟩ := hcut.passes 0 [] []
  have hrewritten := hcut.passes_rewritten 0 0 [] []
  exact ⟨_, markers, pieces, rewriteParamMarkers_of_passes hpasses, rewriteParamMarkers_of_passes hrewritten,
    hpasses, hrewritten⟩

end SqlxMssql.ParamMarkers
