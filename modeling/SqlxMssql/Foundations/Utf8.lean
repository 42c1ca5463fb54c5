import SqlxMssql.Foundations.Loops
import Mathlib.Data.String.Basic
import Mathlib.Data.List.DropRight

/-! # Texts indexed by bytes

A text is its sequence of characters; the source addresses it by byte offsets into its
UTF-8 form. Slicing at an offset that lies outside the text or inside a character is a
panic, so an index that is computed wrongly shows up as a panic of the model.
-/
namespace SqlxMssql.Utf8
open Loops
open String (utf8Len utf8Len_cons utf8Len_append)

abbrev Text := List Char

theorem utf8Len_pos {s : Text} (h : s ≠ []) : 0 < utf8Len s := by
  cases s with
  | nil => exact absurd rfl h
  | cons c s => have := c.utf8Size_pos; simp only [utf8Len_cons]; omega

/-- `&s[index..]` -/
def sliceFrom : Text → ℕ → Run Text
  | s, 0 => .ok s
  | [], _ + 1 => .error .panic
  | c :: s, n + 1 => if c.utf8Size ≤ n + 1 then sliceFrom s (n + 1 - c.utf8Size) else .error .panic

/-- `&s[..index]` -/
def sliceTo : Text → ℕ → Run Text
  | _, 0 => .ok []
  | [], _ + 1 => .error .panic
  | c :: s, n + 1 =>
    if c.utf8Size ≤ n + 1 then (sliceTo s (n + 1 - c.utf8Size)).map (c :: ·) else .error .panic

/-- `&s[a..b]`, which also panics when the range is reversed. -/
def slice (s : Text) (a b : ℕ) : Run Text :=
  if a ≤ b then do sliceTo (← sliceFrom s a) (b - a) else .error .panic

@[simp] theorem sliceFrom_zero (s : Text) : sliceFrom s 0 = .ok s := by cases s <;> rfl
@[simp] theorem sliceTo_zero (s : Text) : sliceTo s 0 = .ok [] := by cases s <;> rfl

theorem utf8Len_cons_succ (c : Char) (s : Text) :
    ∃ n, utf8Len (c :: s) = n + 1 ∧ c.utf8Size ≤ n + 1 ∧ n + 1 - c.utf8Size = utf8Len s := by
  have hpos := c.utf8Size_pos
  refine ⟨c.utf8Size + utf8Len s - 1, ?_, by omega, by omega⟩
  rw [utf8Len_cons]
  omega

@[simp] theorem sliceFrom_append (s t : Text) : sliceFrom (s ++ t) (utf8Len s) = .ok t := by
  induction s with
  | nil => simp
  | cons c s ih =>
    obtain ⟨n, hn, hfits, hrest⟩ := utf8Len_cons_succ c s
    rw [hn, List.cons_append, sliceFrom, if_pos hfits, hrest, ih]

@[simp] theorem sliceTo_append (s t : Text) : sliceTo (s ++ t) (utf8Len s) = .ok s := by
  induction s with
  | nil => simp
  | cons c s ih =>
    obtain ⟨n, hn, hfits, hrest⟩ := utf8Len_cons_succ c s
    rw [hn, List.cons_append, sliceTo, if_pos hfits, hrest, ih]
    rfl

theorem slice_append (s t u : Text) :
    slice (s ++ (t ++ u)) (utf8Len s) (utf8Len s + utf8Len t) = .ok t := by
  simp only [slice, Nat.le_add_right, ↓reduceIte, sliceFrom_append, Nat.add_sub_cancel_left]
  exact sliceTo_append t u

/-- `s.find(pattern)`: the byte offset of the first occurrence. -/
def find (pattern : Text) : Text → Option ℕ
  | [] => if pattern.isEmpty then some 0 else none
  | c :: s => if pattern.isPrefixOf (c :: s) then some 0 else (find pattern s).map (c.utf8Size + ·)

theorem find_here {pattern s : Text} (h : pattern <+: s) : find pattern s = some 0 := by
  cases s with
  | nil => simp [find, List.prefix_nil.mp h]
  | cons c s => simp [find, h]

theorem find_later {pattern s : Text} {c : Char} (h : ¬ pattern <+: c :: s) :
    find pattern (c :: s) = (find pattern s).map (c.utf8Size + ·) := by simp [find, h]

/-- An index on a character boundary of the text, not beyond its end. -/
def Boundary (s : Text) (index : ℕ) : Prop := ∃ before after, s = before ++ after ∧ index = utf8Len before

def suffixAt (s : Text) (index : ℕ) : Text :=
  match sliceFrom s index with
  | .ok rest => rest
  | .error _ => []

@[simp] theorem suffixAt_append (s t : Text) : suffixAt (s ++ t) (utf8Len s) = t := by
  simp [suffixAt]

namespace Boundary
variable {s : Text} {i : ℕ}

theorem le (h : Boundary s i) : i ≤ utf8Len s := by
  obtain ⟨before, after, rfl, rfl⟩ := h
  rw [utf8Len_append]
  exact Nat.le_add_right _ _

theorem zero (s : Text) : Boundary s 0 := ⟨[], s, rfl, rfl⟩

theorem last (s : Text) : Boundary s (utf8Len s) := ⟨s, [], (List.append_nil s).symm, rfl⟩

theorem sliceFrom_eq (h : Boundary s i) : sliceFrom s i = .ok (suffixAt s i) := by
  obtain ⟨before, after, rfl, rfl⟩ := h
  rw [suffixAt_append, sliceFrom_append]

/-- A boundary of what follows a boundary is one of the text. -/
theorem add (h : Boundary s i) {n : ℕ} (hn : Boundary (suffixAt s i) n) : Boundary s (i + n) := by
  obtain ⟨before, after, rfl, rfl⟩ := h
  rw [suffixAt_append] at hn
  obtain ⟨inner, rest, rfl, rfl⟩ := hn
  exact ⟨before ++ inner, rest, (List.append_assoc _ _ _).symm, (utf8Len_append _ _).symm⟩

/-- A slice between boundaries does not panic. -/
theorem slice_returns (hi : Boundary s i) {j : ℕ} (hj : Boundary s j) (hle : i ≤ j) : ∃ t, slice s i j = .ok t := by
  obtain ⟨before, after, rfl, rfl⟩ := hi
  obtain ⟨before', after', hcut, rfl⟩ := hj
  have hordered : before <+: before' := by
    rcases List.prefix_or_prefix_of_prefix ⟨after, rfl⟩ ⟨after', hcut.symm⟩ with h | ⟨inner, rfl⟩
    · exact h
    · have hinner : inner = [] := by
        by_contra hne
        have hpos := utf8Len_pos hne
        rw [utf8Len_append] at hle
        omega
      exact ⟨[], by rw [hinner, List.append_nil, List.append_nil]⟩
  obtain ⟨inner, rfl⟩ := hordered
  refine ⟨inner, ?_⟩
  rw [hcut, utf8Len_append, List.append_assoc]
  exact slice_append before inner after'

end Boundary

theorem find_spec {pattern s : Text} {n : ℕ} (h : find pattern s = some n) :
    ∃ before after, s = before ++ (pattern ++ after) ∧ n = utf8Len before := by
  induction s generalizing n with
  | nil =>
    obtain ⟨hpattern, rfl⟩ : pattern = [] ∧ 0 = n := by simpa [find] using h
    exact ⟨[], [], by rw [hpattern]; rfl, rfl⟩
  | cons c s ih =>
    by_cases hhere : pattern <+: c :: s
    · rw [find_here hhere] at h
      obtain ⟨after, hafter⟩ := hhere
      exact ⟨[], after, hafter.symm, (Option.some.inj h).symm⟩
    · rw [find_later hhere, Option.map_eq_some_iff] at h
      obtain ⟨m, hm, rfl⟩ := h
      obtain ⟨before, after, rfl, rfl⟩ := ih hm
      exact ⟨c :: before, after, rfl, by rw [utf8Len_cons, Nat.add_comm]⟩

theorem find_occurs (pattern before after : Text) : ∃ n, find pattern (before ++ (pattern ++ after)) = some n := by
  induction before with
  | nil => exact ⟨0, find_here ⟨after, rfl⟩⟩
  | cons c before ih =>
    by_cases hhere : pattern <+: c :: (before ++ (pattern ++ after))
    · exact ⟨0, find_here hhere⟩
    · obtain ⟨n, hn⟩ := ih
      exact ⟨c.utf8Size + n, by rw [List.cons_append, find_later hhere, hn, Option.map_some]⟩

/-- What is found stays the first occurrence when the text goes on. -/
theorem find_append_of_some {pattern s : Text} {n : ℕ} (h : find pattern s = some n) (t : Text) :
    find pattern (s ++ t) = some n := by
  induction s generalizing n with
  | nil =>
    obtain ⟨rfl, rfl⟩ : pattern = [] ∧ 0 = n := by simpa [find] using h
    exact find_here (List.nil_prefix)
  | cons c s ih =>
    by_cases hhere : pattern <+: c :: s
    · rw [find_here hhere] at h
      rw [← h]
      exact find_here (hhere.trans (List.prefix_append _ _))
    · have hlater : ¬ pattern <+: c :: (s ++ t) := by
        intro hpattern
        rw [find_later hhere, Option.map_eq_some_iff] at h
        obtain ⟨m, hm, -⟩ := h
        obtain ⟨before, after, hs, -⟩ := find_spec hm
        have hlength : pattern.length ≤ (c :: s).length := by
          rw [hs]
          simp only [List.length_cons, List.length_append]
          omega
        exact hhere (List.prefix_of_prefix_length_le hpattern (List.prefix_append (c :: s) t) hlength)
      rw [find_later hhere, Option.map_eq_some_iff] at h
      obtain ⟨m, hm, rfl⟩ := h
      rw [List.cons_append, find_later hlater, ih hm, Option.map_some]

/-- The first occurrence does not depend on what follows it. -/
theorem find_first {pattern before after : Text} (h : find pattern (before ++ (pattern ++ after)) = some (utf8Len before))
    (t : Text) : find pattern (before ++ (pattern ++ t)) = some (utf8Len before) := by
  obtain ⟨n, hn⟩ := find_occurs pattern before []
  rw [List.append_nil] at hn
  have hfirst (t : Text) : find pattern (before ++ (pattern ++ t)) = some n := by
    rw [← List.append_assoc]
    exact find_append_of_some hn t
  rw [hfirst t, ← hfirst after, h]

/-- `s.rfind(c)`: the byte offset of the last occurrence of a character. -/
def rfind (c : Char) : Text → Option ℕ
  | [] => none
  | c' :: s =>
    match rfind c s with
    | some n => some (c'.utf8Size + n)
    | none => if c' = c then some 0 else none

theorem find_append {c : Char} {s : Text} (h : c ∉ s) (t : Text) : find [c] (s ++ c :: t) = some (utf8Len s) := by
  induction s with
  | nil => exact find_here ⟨t, rfl⟩
  | cons c' s ih =>
    obtain ⟨hc, hs⟩ := not_or.mp (List.mem_cons.not.mp h)
    have hnot : ¬ [c] <+: c' :: (s ++ c :: t) := fun hpre => hc (List.cons_prefix_cons.mp hpre).1
    rw [List.cons_append, find_later hnot, ih hs, Option.map_some, utf8Len_cons, Nat.add_comm]

theorem find_eq_none {c : Char} {s : Text} (h : c ∉ s) : find [c] s = none := by
  induction s with
  | nil => rfl
  | cons c' s ih =>
    obtain ⟨hc, hs⟩ := not_or.mp (List.mem_cons.not.mp h)
    have hnot : ¬ [c] <+: c' :: s := fun hpre => hc (List.cons_prefix_cons.mp hpre).1
    rw [find_later hnot, ih hs, Option.map_none]

theorem rfind_eq_none {c : Char} {s : Text} (h : c ∉ s) : rfind c s = none := by
  induction s with
  | nil => rfl
  | cons c' s ih =>
    obtain ⟨hc, hs⟩ := not_or.mp (List.mem_cons.not.mp h)
    rw [rfind, ih hs, if_neg (Ne.symm hc)]

theorem rfind_append {c : Char} (s : Text) {t : Text} (h : c ∉ t) :
    rfind c (s ++ c :: t) = some (utf8Len s) := by
  induction s with
  | nil => rw [List.nil_append, rfind, rfind_eq_none h, if_pos rfl]; rfl
  | cons c' s ih => rw [List.cons_append, rfind, ih, utf8Len_cons, Nat.add_comm]

/-- Unicode's `White_Space` property, by which `str::trim` trims. -/
def isWhitespace (c : Char) : Bool :=
  let n := c.toNat
  (0x9 ≤ n && n ≤ 0xD) || n = 0x20 || n = 0x85 || n = 0xA0 || n = 0x1680 ||
    (0x2000 ≤ n && n ≤ 0x200A) || n = 0x2028 || n = 0x2029 || n = 0x202F || n = 0x205F || n = 0x3000

def trimStart (s : Text) : Text := s.dropWhile isWhitespace
def trim (s : Text) : Text := (trimStart (trimStart s).reverse).reverse

theorem trimStart_eq_self {s : Text} (h : ∀ c ∈ s, ¬ isWhitespace c) : trimStart s = s := by
  cases s with
  | nil => rfl
  | cons c s => exact List.dropWhile_cons_of_neg (h c List.mem_cons_self)

theorem trim_eq_self {s : Text} (h : ∀ c ∈ s, ¬ isWhitespace c) : trim s = s := by
  rw [trim, trimStart_eq_self h, trimStart_eq_self fun c hc => h c (List.mem_reverse.mp hc), List.reverse_reverse]

theorem mem_trimStart {c : Char} (hc : ¬ isWhitespace c) {s : Text} : c ∈ trimStart s ↔ c ∈ s := by
  refine ⟨fun h => (List.dropWhile_sublist isWhitespace).mem h, fun h => ?_⟩
  rw [← List.takeWhile_append_dropWhile (p := isWhitespace) (l := s)] at h
  exact (List.mem_append.mp h).resolve_left fun htake => hc (List.all_eq_true.mp List.all_takeWhile c htake)

theorem mem_trim {c : Char} (hc : ¬ isWhitespace c) {s : Text} : c ∈ trim s ↔ c ∈ s := by
  rw [trim, List.mem_reverse, mem_trimStart hc, List.mem_reverse, mem_trimStart hc]

/-- Trimming stops at a character that is no white space. -/
theorem trimStart_append_cons {c : Char} (hc : ¬ isWhitespace c) (s t : Text) :
    trimStart (s ++ c :: t) = trimStart s ++ c :: t := by
  rw [trimStart, List.dropWhile_append]
  split
  · rename_i hall
    rw [trimStart, List.isEmpty_iff.mp hall]
    exact List.dropWhile_cons_of_neg hc
  · rfl

/-- `s.trim_end()` -/
def trimEnd (s : Text) : Text := (trimStart s.reverse).reverse

theorem trimEnd_append_cons {c : Char} (hc : ¬ isWhitespace c) (s t : Text) :
    trimEnd (s ++ c :: t) = s ++ c :: trimEnd t := by
  rw [trimEnd, trimEnd, List.reverse_append, List.reverse_cons, List.append_assoc, List.singleton_append,
    trimStart_append_cons hc, List.reverse_append, List.reverse_cons, List.reverse_reverse, List.append_assoc,
    List.singleton_append]

theorem trim_append_cons {c : Char} (hc : ¬ isWhitespace c) (s t : Text) :
    trim (s ++ c :: t) = trimStart s ++ c :: trimEnd t := by
  have htrim : trim (s ++ c :: t) = trimEnd (trimStart (s ++ c :: t)) := rfl
  rw [htrim, trimStart_append_cons hc, trimEnd_append_cons hc]

theorem trim_between {c d : Char} (hc : ¬ isWhitespace c) (hd : ¬ isWhitespace d) (before inner after : Text) :
    trim (before ++ c :: (inner ++ d :: after)) =
      trimStart before ++ c :: (inner ++ d :: trimEnd after) := by
  have hinner : before ++ c :: (inner ++ d :: after) = (before ++ c :: inner) ++ d :: after := by
    rw [List.append_assoc, List.cons_append]
  rw [hinner, trim_append_cons hd, trimStart_append_cons hc, List.append_assoc, List.cons_append]

theorem not_mem_trimStart {c : Char} {s : Text} (h : c ∉ s) : c ∉ trimStart s :=
  fun hmem => h ((List.dropWhile_sublist isWhitespace).mem hmem)

theorem not_mem_trimEnd {c : Char} {s : Text} (h : c ∉ s) : c ∉ trimEnd s :=
  fun hmem => not_mem_trimStart (fun hr => h (List.mem_reverse.mp hr)) (List.mem_reverse.mp hmem)

def Blank (s : Text) : Prop := ∀ c ∈ s, isWhitespace c

theorem trimStart_blank {s : Text} (h : Blank s) (t : Text) : trimStart (s ++ t) = trimStart t :=
  List.dropWhile_append_of_pos h

theorem trimStart_eq_nil {s : Text} (h : Blank s) : trimStart s = [] := by
  rw [← List.append_nil s, trimStart_blank h]
  rfl

theorem trimEnd_eq_nil {s : Text} (h : Blank s) : trimEnd s = [] := by
  rw [trimEnd, trimStart_eq_nil fun c hc => h c (List.mem_reverse.mp hc), List.reverse_nil]

theorem trim_trimStart (s : Text) : trim (trimStart s) = trim s := by
  have hagain : trimStart (trimStart s) = trimStart s := List.dropWhile_idempotent _ _
  rw [trim, trim, hagain]

theorem trim_trimEnd (s : Text) : trim (trimEnd s) = trim s := by
  by_cases hblank : Blank s
  · rw [trimEnd_eq_nil hblank, trim, trim, trimStart_eq_nil hblank]
    rfl
  · simp only [Blank, not_forall] at hblank
    obtain ⟨c, hmem, hc⟩ := hblank
    obtain ⟨before, after, rfl⟩ := List.append_of_mem hmem
    have hagain : trimEnd (trimEnd after) = trimEnd after := by
      have hreverse : trimStart (trimStart after.reverse) = trimStart after.reverse := List.dropWhile_idempotent _ _
      rw [trimEnd, trimEnd, List.reverse_reverse, hreverse]
    rw [trimEnd_append_cons hc, trim_append_cons hc, trim_append_cons hc, hagain]

/-- A text between blanks. -/
def Padded (s core : Text) : Prop :=
  ∃ before after, Blank before ∧ Blank after ∧ s = before ++ (core ++ after)

theorem Padded.trim_eq {s core : Text} (h : Padded s core) (hcore : ∀ c ∈ core, ¬ isWhitespace c) :
    trim s = core := by
  obtain ⟨before, after, hbefore, hafter, rfl⟩ := h
  have htrim : trim (before ++ (core ++ after)) = trimEnd (trimStart (core ++ after)) := by
    rw [trim, trimStart_blank hbefore]
    rfl
  rw [htrim]
  rcases List.eq_nil_or_concat core with rfl | ⟨front, c, rfl⟩
  · rw [List.nil_append, trimStart_eq_nil hafter]
    rfl
  · have hc : ¬ isWhitespace c := hcore c (by simp)
    have hfront : trimStart front = front := trimStart_eq_self fun d hd => hcore d (by simp [hd])
    rw [List.concat_eq_append, List.append_assoc, List.singleton_append, trimStart_append_cons hc, hfront,
      trimEnd_append_cons hc, trimEnd_eq_nil hafter]

/-- What is found by inspection of the ASCII characters. -/
theorem forall_ascii {P : Char → Prop} (h : ∀ n < 0x80, P (Char.ofNat n)) {c : Char} (hc : c.toNat < 0x80) : P c := by
  have hp := h c.toNat hc
  rwa [Char.ofNat_toNat] at hp

/-- `Char.toLower` maps the ASCII letters only. -/
def toAsciiLowercase (s : Text) : Text := s.map Char.toLower
def eqIgnoreAsciiCase (s t : Text) : Bool := toAsciiLowercase s = toAsciiLowercase t

def decimal (n : ℕ) : Text := Nat.toDigits 10 n

theorem isDigit_of_mem_decimal {n : ℕ} {c : Char} (h : c ∈ decimal n) : c.isDigit :=
  Nat.isDigit_of_mem_toDigits (by decide) (by decide) h

theorem ofDigitChars_decimal (n : ℕ) : Nat.ofDigitChars 10 (decimal n) 0 = n := Nat.ofDigitChars_ten_toDigits

theorem decimal_injective : Function.Injective decimal := fun i j h => by
  rw [← ofDigitChars_decimal i, h, ofDigitChars_decimal]

def decimalInt (n : ℤ) : Text := if n < 0 then '-' :: decimal n.natAbs else decimal n.natAbs

def digitsValue (s : Text) : Option ℕ :=
  if s ≠ [] ∧ s.all Char.isDigit then some (Nat.ofDigitChars 10 s 0) else none

/-- `s.parse()` for an unsigned integer of the given width: a `+` may lead the digits. -/
def parseUnsigned (bits : ℕ) (s : Text) : Option ℕ :=
  (digitsValue (if s.head? = some '+' then s.tail else s)).filter (· < 2 ^ bits)

end SqlxMssql.Utf8
