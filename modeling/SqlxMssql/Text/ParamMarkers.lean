import SqlxMssql.Foundations.Utf8

/-! # Rewriting `?` markers into `@Pn` names

The scanner of the source as it is written: byte indices into the text, substring
searches from the current index, and an inner loop for quoted regions that shares the
index and the output with the outer one.
-/
namespace SqlxMssql.ParamMarkers
open Loops Utf8
open String (utf8Len)

/-- `text.starts_with(pattern)` -/
def startsWith (text pattern : Text) : Bool := pattern.isPrefixOf text

/-- The character at `index`, which must be a character boundary. -/
def nextChar (sql : Text) (index : ℕ) : Run Char := do
  return (← sliceFrom sql index).headD '\uFFFD'

structure QuotedScan where
  output : Text
  index : ℕ
  /-- Set by the `break` after the closing delimiter. -/
  ended : Bool

def copyQuotedTurn (sql : Text) (closing : Char) (s : QuotedScan) : Run QuotedScan := do
  let ch ← nextChar sql s.index
  if ch = closing then
    let after := s.index + ch.utf8Size
    -- a doubled delimiter is an escaped character, not the end
    if startsWith (← sliceFrom sql after) [closing] then
      return ⟨s.output ++ [closing, closing], after + closing.utf8Size, false⟩
    return ⟨s.output ++ [closing], after, true⟩
  return ⟨s.output ++ [ch], s.index + ch.utf8Size, false⟩

/-- Copies a quoted region verbatim, including its delimiters. -/
def copyQuoted (sql output : Text) (index : ℕ) (closing : Char) : Run (Text × ℕ) := do
  let opening ← nextChar sql index
  let s ← whileLoop (fun s => !s.ended && decide (s.index < utf8Len sql))
    (copyQuotedTurn sql closing) (utf8Len sql + 1)
    ⟨output ++ [opening], index + opening.utf8Size, false⟩
  return (s.output, s.index)

structure Scan where
  output : Text
  markers : ℕ
  index : ℕ

def rewriteTurn (sql : Text) (s : Scan) : Run Scan := do
  let ch ← nextChar sql s.index
  let rest ← sliceFrom sql s.index
  if ch = '-' ∧ startsWith rest ['-', '-'] then
    let stop := ((find ['\n'] rest).map (s.index + ·)).getD (utf8Len sql)
    return { s with output := s.output ++ (← slice sql s.index stop), index := stop }
  if ch = '/' ∧ startsWith rest ['/', '*'] then
    let stop := ((find ['*', '/'] (← sliceFrom sql (s.index + 2))).map (s.index + 2 + · + 2)).getD
      (utf8Len sql)
    return { s with output := s.output ++ (← slice sql s.index stop), index := stop }
  match ch with
  | '\'' =>
    let (output, index) ← copyQuoted sql s.output s.index '\''
    return { s with output, index }
  | '"' =>
    let (output, index) ← copyQuoted sql s.output s.index '"'
    return { s with output, index }
  | '[' =>
    let (output, index) ← copyQuoted sql s.output s.index ']'
    return { s with output, index }
  | '?' =>
    let markers := s.markers + 1
    return ⟨s.output ++ ['@', 'P'] ++ decimal markers, markers, s.index + 1⟩
  | other => return { s with output := s.output ++ [other], index := s.index + other.utf8Size }

def rewriteParamMarkers (sql : Text) : Run (Text × ℕ) := do
  let s ← whileLoop (fun s => decide (s.index < utf8Len sql)) (rewriteTurn sql) (utf8Len sql + 1)
    ⟨[], 0, 0⟩
  return (s.output, s.markers)

example : rewriteParamMarkers "a = '''?''' AND b = ? -- ?".toList =
    .ok ("a = '''?''' AND b = @P1 -- ?".toList, 1) := by rfl

end SqlxMssql.ParamMarkers
