import SqlxMssql.Foundations.Utf8
import Mathlib.Data.List.Count
import Mathlib.Tactic.Linarith

/-! # The tokens of a statement

A statement is split into words, symbols and quoted texts by a machine that reads it once
from the left. Inside quotes the closing delimiter is written twice to stand for itself,
and every other character stands for itself.
-/
namespace SqlxMssql.SqlTokens
open Utf8

/-- The quotes of an identifier, a string, and a string of the national character set. -/
inductive Quote where
  | bracket
  | plain
  | national
  deriving DecidableEq, Repr

/-- The delimiter that ends the quote. -/
def Quote.delimiter : Quote → Char
  | bracket => ']'
  | plain | national => '\''

/-- The content of a quoted token is unescaped. A number is a word, with its sign. -/
inductive Token where
  | word (s : Text)
  | symbol (c : Char)
  | quoted (quote : Quote) (content : Text)
  deriving DecidableEq, Repr

inductive Mode where
  | between
  | word (s : Text)
  | minus
  | slash
  | inside (quote : Quote) (content : Text)
  /-- Behind a delimiter, which ends the token unless it is written twice. -/
  | closing (quote : Quote) (content : Text)
  | lineComment
  | blockComment (depth : ℕ)
  | blockStar (depth : ℕ)
  | blockSlash (depth : ℕ)
  deriving DecidableEq, Repr

def isWordChar (c : Char) : Bool := c.isAlphanum || c = '_' || c = '@' || c = '#' || c = '$' || 128 ≤ c.toNat

/-- A character that starts something new. -/
def start (c : Char) : List Token × Mode :=
  if c.isWhitespace then ([], .between)
  else if isWordChar c then ([], .word [c])
  else if c = '[' then ([], .inside .bracket [])
  else if c = '\'' then ([], .inside .plain [])
  else if c = '-' then ([], .minus)
  else if c = '/' then ([], .slash)
  else ([.symbol c], .between)

def emit (t : Token) (r : List Token × Mode) : List Token × Mode := (t :: r.1, r.2)

def step : Mode → Char → List Token × Mode
  | .between, c => start c
  | .word s, c =>
    if isWordChar c then ([], .word (s ++ [c]))
    else if c = '\'' ∧ s = ['N'] then ([], .inside .national [])
    else emit (.word s) (start c)
  | .minus, c =>
    if c.isDigit then ([], .word ['-', c])
    else if c = '-' then ([], .lineComment)
    else emit (.symbol '-') (start c)
  | .slash, c => if c = '*' then ([], .blockComment 0) else emit (.symbol '/') (start c)
  | .inside quote content, c =>
    if c = quote.delimiter then ([], .closing quote content) else ([], .inside quote (content ++ [c]))
  | .closing quote content, c =>
    if c = quote.delimiter then ([], .inside quote (content ++ [c]))
    else emit (.quoted quote content) (start c)
  | .lineComment, c => ([], if c = '\n' then .between else .lineComment)
  | .blockComment depth, c =>
    ([], if c = '*' then .blockStar depth else if c = '/' then .blockSlash depth else .blockComment depth)
  | .blockStar depth, c =>
    ([], if c = '*' then .blockStar depth
      else if c = '/' then (if depth = 0 then .between else .blockComment (depth - 1))
      else .blockComment depth)
  | .blockSlash depth, c =>
    ([], if c = '*' then .blockComment (depth + 1) else if c = '/' then .blockSlash depth
      else .blockComment depth)

/-- The tokens that are complete, and the mode behind the text. -/
def scan : Mode → Text → List Token × Mode
  | m, [] => ([], m)
  | m, c :: s => ((step m c).1 ++ (scan (step m c).2 s).1, (scan (step m c).2 s).2)

/-- What the end of the text completes. A quote or a comment must not be left open. -/
def finish : Mode → Option (List Token)
  | .between | .lineComment => some []
  | .word s => some [.word s]
  | .minus => some [.symbol '-']
  | .slash => some [.symbol '/']
  | .closing quote content => some [.quoted quote content]
  | .inside _ _ | .blockComment _ | .blockStar _ | .blockSlash _ => none

def lex (s : Text) : Option (List Token) := (finish (scan .between s).2).map ((scan .between s).1 ++ ·)

theorem scan_append (m : Mode) (s t : Text) :
    scan m (s ++ t) = ((scan m s).1 ++ (scan (scan m s).2 t).1, (scan (scan m s).2 t).2) := by
  induction s generalizing m with
  | nil => rfl
  | cons c s ih => simp only [List.cons_append, scan, ih, List.append_assoc]

/-- From one mode to another, a text completes the tokens. -/
def Reads (m : Mode) (s : Text) (tokens : List Token) (m' : Mode) : Prop := scan m s = (tokens, m')

instance (m : Mode) (s : Text) (tokens : List Token) (m' : Mode) : Decidable (Reads m s tokens m') :=
  inferInstanceAs (Decidable (_ = _))

theorem Reads.append {m m' m'' : Mode} {s t : Text} {tokens later : List Token} (hs : Reads m s tokens m')
    (ht : Reads m' t later m'') : Reads m (s ++ t) (tokens ++ later) m'' := by
  unfold Reads at *
  rw [scan_append, hs]
  simp only [ht]

theorem Reads.lex {s : Text} {tokens last : List Token} {m : Mode} (hs : Reads .between s tokens m)
    (hm : finish m = some last) : lex s = some (tokens ++ last) := by
  unfold Reads at hs
  rw [SqlTokens.lex, hs, hm]
  rfl

/-- Writes the delimiter of the quote twice. -/
def escape (quote : Quote) (s : Text) : Text :=
  s.flatMap fun c => if c = quote.delimiter then [c, c] else [c]

/-- An escaped text is read back inside its quotes. -/
theorem reads_escape (quote : Quote) (content s : Text) :
    Reads (.inside quote content) (escape quote s) [] (.inside quote (content ++ s)) := by
  induction s generalizing content with
  | nil =>
    rw [List.append_nil]
    rfl
  | cons c s ih =>
    have hchar : Reads (.inside quote content) (if c = quote.delimiter then [c, c] else [c]) []
        (.inside quote (content ++ [c])) := by
      by_cases hc : c = quote.delimiter
      · rw [if_pos hc]
        simp [Reads, scan, step, hc]
      · rw [if_neg hc]
        simp [Reads, scan, step, hc]
    have hrest := hchar.append (ih (content ++ [c]))
    rwa [List.append_assoc] at hrest

theorem reads_quoted (quote : Quote) (s : Text) :
    Reads (.inside quote []) (escape quote s ++ [quote.delimiter]) [] (.closing quote s) := by
  apply (reads_escape quote [] s).append
  simp [Reads, scan, step]

/-- A text that starts with something else ends the quoted token. -/
theorem Reads.behind_quoted {quote : Quote} {content : Text} {c : Char} {s : Text} {tokens : List Token}
    {m : Mode} (hc : c ≠ quote.delimiter) (hs : Reads .between (c :: s) tokens m) :
    Reads (.closing quote content) (c :: s) (.quoted quote content :: tokens) m := by
  unfold Reads at *
  simp only [scan, step, if_neg hc, emit] at hs ⊢
  rw [List.cons_append]
  rw [Prod.mk.injEq] at hs ⊢
  exact ⟨congrArg _ hs.1, hs.2⟩

theorem reads_word {s w : Text} (hw : ∀ c ∈ w, isWordChar c = true) :
    Reads (.word s) w [] (.word (s ++ w)) := by
  induction w generalizing s with
  | nil =>
    rw [List.append_nil]
    rfl
  | cons c w ih =>
    have hchar : Reads (.word s) [c] [] (.word (s ++ [c])) := by
      simp [Reads, scan, step, hw c List.mem_cons_self]
    have hrest := hchar.append (ih (s := s ++ [c]) fun d hd => hw d (List.mem_cons_of_mem c hd))
    rwa [List.append_assoc] at hrest

/-- A text that starts with something else ends the word. -/
theorem Reads.behind_word {w : Text} {c : Char} {s : Text} {tokens : List Token} {m : Mode}
    (hc : isWordChar c = false) (hquote : c ≠ '\'') (hs : Reads .between (c :: s) tokens m) :
    Reads (.word w) (c :: s) (.word w :: tokens) m := by
  unfold Reads at *
  simp only [scan, step, hc, hquote, false_and, if_false, emit, Bool.false_eq_true] at hs ⊢
  rw [List.cons_append]
  rw [Prod.mk.injEq] at hs ⊢
  exact ⟨congrArg _ hs.1, hs.2⟩

/-- The single quotes that a token takes at least. -/
def Token.strokes : Token → ℕ
  | word _ | symbol _ => 0
  | quoted .bracket content => content.count '\''
  | quoted .plain content | quoted .national content => 2 + 2 * content.count '\''

def Mode.strokes : Mode → ℕ
  | inside .bracket content | closing .bracket content => content.count '\''
  | inside .plain content | inside .national content => 1 + 2 * content.count '\''
  | closing .plain content | closing .national content => 2 + 2 * content.count '\''
  | _ => 0

def strokes (tokens : List Token) : ℕ := (tokens.map Token.strokes).sum

theorem strokes_append (tokens later : List Token) :
    strokes (tokens ++ later) = strokes tokens + strokes later := by
  simp [strokes]

theorem start_strokes (c : Char) :
    strokes (start c).1 + (start c).2.strokes ≤ [c].count '\'' := by
  unfold start
  split_ifs <;> simp_all [strokes, Token.strokes, Mode.strokes]

theorem emit_strokes {t : Token} {m : Mode} {c : Char} (h : t.strokes ≤ m.strokes) :
    strokes (emit t (start c)).1 + (emit t (start c)).2.strokes ≤ m.strokes + [c].count '\'' := by
  have hstart := start_strokes c
  simp only [emit, strokes, List.map_cons, List.sum_cons] at hstart ⊢
  omega

theorem step_strokes (m : Mode) (c : Char) :
    strokes (step m c).1 + (step m c).2.strokes ≤ m.strokes + [c].count '\'' := by
  cases m with
  | between =>
    have hstart := start_strokes c
    simpa [step, Mode.strokes] using hstart
  | word s =>
    simp only [step]
    split_ifs with hword hquote
    · exact Nat.zero_le _
    · simp [strokes, Mode.strokes, hquote.1]
    · exact emit_strokes (m := .word s) (Nat.le_refl 0)
  | minus =>
    simp only [step]
    split_ifs
    · exact Nat.zero_le _
    · exact Nat.zero_le _
    · exact emit_strokes (m := .minus) (Nat.le_refl 0)
  | slash =>
    simp only [step]
    split_ifs
    · exact Nat.zero_le _
    · exact emit_strokes (m := .slash) (Nat.le_refl 0)
  | inside quote content =>
    simp only [step]
    split_ifs with hc
    · cases quote <;> simp_all [strokes, Mode.strokes, Quote.delimiter] <;> omega
    · cases quote <;> simp_all [strokes, Mode.strokes, Quote.delimiter]
  | closing quote content =>
    simp only [step]
    split_ifs with hc
    · cases quote <;> simp_all [strokes, Mode.strokes, Quote.delimiter] <;> omega
    · cases quote <;> exact emit_strokes (Nat.le_refl _)
  | lineComment =>
    simp only [step]
    split_ifs <;> exact Nat.zero_le _
  | blockComment depth =>
    simp only [step]
    split_ifs <;> exact Nat.zero_le _
  | blockStar depth =>
    simp only [step]
    split_ifs <;> exact Nat.zero_le _
  | blockSlash depth =>
    simp only [step]
    split_ifs <;> exact Nat.zero_le _

/-- A text has at least the single quotes that its tokens take. -/
theorem scan_strokes (m : Mode) (s : Text) :
    strokes (scan m s).1 + (scan m s).2.strokes ≤ m.strokes + s.count '\'' := by
  induction s generalizing m with
  | nil => simp [scan, strokes]
  | cons c s ih =>
    have hstep := step_strokes m c
    have hrest := ih (step m c).2
    have hcount : (c :: s).count '\'' = [c].count '\'' + s.count '\'' := by
      rw [← List.count_append, List.singleton_append]
    simp only [scan, strokes_append]
    omega

theorem strokes_le_of_lex {s : Text} {tokens : List Token} (h : lex s = some tokens) :
    strokes tokens ≤ s.count '\'' := by
  obtain ⟨last, hlast, rfl⟩ := Option.map_eq_some_iff.mp h
  have hscan := scan_strokes .between s
  have hfinish : strokes last ≤ (scan .between s).2.strokes := by
    generalize (scan .between s).2 = m at hlast
    cases m with
    | between | word | minus | slash | lineComment =>
      obtain rfl := Option.some.inj hlast
      exact Nat.zero_le _
    | closing quote content =>
      obtain rfl := Option.some.inj hlast
      cases quote <;> simp [strokes, Token.strokes, Mode.strokes]
    | inside | blockComment | blockStar | blockSlash => cases hlast
  rw [strokes_append]
  have hnone : Mode.between.strokes = 0 := rfl
  omega

end SqlxMssql.SqlTokens
