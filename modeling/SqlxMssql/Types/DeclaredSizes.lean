import SqlxMssql.Foundations.PlainDecimals
import SqlxMssql.Types.TypeInfo

/-! # Declared sizes

The names under which the server reports a declared type, and what is kept of the length,
the precision and the scale that they declare. An argument is read as a `u8`.
-/
namespace SqlxMssql
open Loops Utf8
open String (utf8Len utf8Len_cons utf8Len_append)

/-- The types that are declared with a length. -/
inductive SizedBase where
  | char
  | varchar
  | nchar
  | nvarchar
  | binary
  | varbinary
  deriving DecidableEq, Repr

namespace SizedBase

def word : SizedBase → String
  | char => "char"
  | varchar => "varchar"
  | nchar => "nchar"
  | nvarchar => "nvarchar"
  | binary => "binary"
  | varbinary => "varbinary"

def dataType : SizedBase → TdsDataType
  | char => .bigChar
  | varchar => .bigVarChar
  | nchar => .nChar
  | nvarchar => .nVarChar
  | binary => .bigBinary
  | varbinary => .bigVarBinary

def bytesPerUnit : SizedBase → ℕ
  | nchar | nvarchar => 2
  | _ => 1

/-- The greatest length that a declaration can have. -/
def limit : SizedBase → ℕ
  | nchar | nvarchar => 4000
  | _ => 8000

end SizedBase

/-- The types that are declared with a precision and a scale. -/
inductive ExactBase where
  | decimal
  | numeric
  deriving DecidableEq, Repr

def ExactBase.word : ExactBase → String
  | .decimal => "decimal"
  | .numeric => "numeric"

inductive Declaration where
  | sized (base : SizedBase) (n : ℕ)
  | max (base : SizedBase)
  | exact (base : ExactBase) (precision scale : ℕ)
  deriving DecidableEq, Repr

namespace Declaration

def name : Declaration → Text
  | sized base _ => base.word.toList
  | max base => base.word.toList
  | exact base _ _ => base.word.toList

/-- What the server can declare. -/
def Legal : Declaration → Prop
  | sized base n => 1 ≤ n ∧ n ≤ base.limit
  | max _ => True
  | exact _ precision scale => 1 ≤ precision ∧ precision ≤ 38 ∧ scale ≤ precision

def Arguments : Declaration → Text → Prop
  | sized _ n, args => Padded args (decimal n)
  | max _, args => ∃ word, toAsciiLowercase word = "max".toList ∧ Padded args word
  | exact _ precision scale, args => ∃ first second,
      Padded first (decimal precision) ∧ Padded second (decimal scale) ∧ args = first ++ ',' :: second

/-- `name(arguments)` in any letter case, with white space around each of its parts. -/
def Spells (d : Declaration) (s : Text) : Prop :=
  ∃ word base args after, toAsciiLowercase word = d.name ∧ Padded base word ∧ d.Arguments args ∧
    Blank after ∧ s = base ++ '(' :: (args ++ ')' :: after)

/-- The type information says what was declared; a length counts bytes. -/
def Kept (d : Declaration) (info : MssqlTypeInfo) : Prop :=
  info.typeName = d.name ∧
    match d with
    | sized base n => info.length.toNat = n * base.bytesPerUnit
    | max _ => info.length = 65535
    | exact _ precision scale =>
      info.precision.map UInt8.toNat = some precision ∧ info.scale.map UInt8.toNat = some scale

end Declaration

/-- The last `)` of the text stands before its first `(`. -/
def ClosedBeforeOpened (s : Text) : Prop :=
  ∃ before after, s = before ++ '(' :: after ∧ '(' ∉ before ∧ ')' ∈ before ∧ ')' ∉ after

/-- The name is read without a panic, and a declaration that it spells keeps its size. -/
def KeepsDeclaredSize (s : Text) : Prop :=
  (∃ result, fromSystemTypeName s = .ok result) ∧
    ∀ d : Declaration, d.Legal → d.Spells s → ∃ info, fromSystemTypeName s = .ok (some info) ∧ d.Kept info

section Parentheses

theorem exists_first {c : Char} {s : Text} (h : c ∈ s) : ∃ before after, s = before ++ c :: after ∧ c ∉ before := by
  obtain ⟨before, after, hs, hbefore⟩ := List.eq_append_cons_of_mem h
  exact ⟨before, after, hs, hbefore⟩

theorem exists_last {c : Char} {s : Text} (h : c ∈ s) : ∃ before after, s = before ++ c :: after ∧ c ∉ after := by
  obtain ⟨before, after, hs, hbefore⟩ := exists_first (List.mem_reverse.mpr h)
  refine ⟨after.reverse, before.reverse, ?_, fun hmem => hbefore (List.mem_reverse.mp hmem)⟩
  rw [← List.reverse_reverse s, hs, List.reverse_append, List.reverse_cons, List.append_assoc,
    List.singleton_append]

theorem fromSystemTypeName_bare {s : Text} (h : '(' ∉ s) :
    fromSystemTypeName s = .ok (fromSystemTypeName.known (trim s) none) := by
  have hnot : '(' ∉ trim s := fun hmem => h ((mem_trim (by decide)).mp hmem)
  simp only [fromSystemTypeName, find_eq_none hnot, pure_eq_ok]

theorem fromSystemTypeName_parenthesized {before inner after : Text} (hbefore : '(' ∉ before) (hafter : ')' ∉ after) :
    fromSystemTypeName (before ++ '(' :: (inner ++ ')' :: after)) =
      .ok (fromSystemTypeName.known (trimStart before) (some (trim inner))) := by
  have htrim := trim_between (c := '(') (d := ')') (by decide) (by decide) before inner after
  have hbefore' := not_mem_trimStart hbefore
  have hafter' := not_mem_trimEnd hafter
  generalize trimStart before = base at htrim hbefore'
  generalize trimEnd after = rest at htrim hafter'
  have hfind := find_append hbefore' (inner ++ ')' :: rest)
  have hrfind := rfind_append (base ++ '(' :: inner) hafter'
  have hslice := slice_append (base ++ ['(']) inner (')' :: rest)
  simp only [List.append_assoc, List.cons_append, List.nil_append, utf8Len_append, utf8Len_cons,
    show '('.utf8Size = 1 from rfl, String.utf8Len_nil, Nat.zero_add] at hrfind hslice
  rw [Nat.add_assoc, Nat.add_comm 1] at hslice
  simp only [fromSystemTypeName, htrim, hfind, hrfind, hslice, sliceTo_append, ok_bind, pure_eq_ok]

theorem fromSystemTypeName_unclosed {s : Text} (hopen : '(' ∈ s) (hclose : ')' ∉ s) :
    fromSystemTypeName s = .ok none := by
  have hopen' : '(' ∈ trim s := (mem_trim (by decide)).mpr hopen
  have hclose' : ')' ∉ trim s := fun hmem => hclose ((mem_trim (by decide)).mp hmem)
  obtain ⟨before, after, hs, hbefore⟩ := exists_first hopen'
  have hfind := find_append hbefore after
  rw [← hs] at hfind
  simp only [fromSystemTypeName, hfind, rfind_eq_none hclose', pure_eq_ok]

/-- The start of the slice is beyond its end. -/
theorem fromSystemTypeName_reversed {s : Text} (h : ClosedBeforeOpened s) : fromSystemTypeName s = .error .panic := by
  obtain ⟨before, after, rfl, hopen, hclose, hafter⟩ := h
  obtain ⟨front, back, rfl, hback⟩ := exists_last hclose
  have htrim := trim_between (c := ')') (d := '(') (by decide) (by decide) front back after
  have hopen' : '(' ∉ trimStart front ++ ')' :: back := by
    intro hmem
    rcases List.mem_append.mp hmem with hmem | hmem
    · exact not_mem_trimStart (fun h => hopen (List.mem_append_left _ h)) hmem
    · exact hopen (List.mem_append_right _ hmem)
  have hclose' : ')' ∉ back ++ '(' :: trimEnd after := by
    intro hmem
    rcases List.mem_append.mp hmem with hmem | hmem
    · exact hback hmem
    · exact not_mem_trimEnd hafter (List.mem_of_ne_of_mem (by decide) hmem)
  generalize trimStart front = base at htrim hopen'
  generalize trimEnd after = rest at htrim hclose'
  have hfind := find_append hopen' rest
  have hrfind := rfind_append base hclose'
  have hsliceTo := sliceTo_append (base ++ ')' :: back) ('(' :: rest)
  simp only [List.append_assoc, List.cons_append, utf8Len_append, utf8Len_cons] at hfind hsliceTo
  have hbeyond : ¬ utf8Len base + (utf8Len back + ')'.utf8Size) + 1 ≤ utf8Len base := by omega
  simp only [fromSystemTypeName, List.append_assoc, List.cons_append, htrim, hfind, hrfind, hsliceTo, ok_bind,
    slice, if_neg hbeyond]
  rfl

theorem fromSystemTypeName_returns_iff (s : Text) :
    (∃ result, fromSystemTypeName s = .ok result) ↔ ¬ ClosedBeforeOpened s := by
  constructor
  · rintro ⟨result, hresult⟩ hreversed
    rw [fromSystemTypeName_reversed hreversed] at hresult
    cases hresult
  · intro hnot
    by_cases hopen : '(' ∈ s
    · obtain ⟨before, rest, rfl, hbefore⟩ := exists_first hopen
      by_cases hrest : ')' ∈ rest
      · obtain ⟨inner, after, rfl, hafter⟩ := exists_last hrest
        exact ⟨_, fromSystemTypeName_parenthesized hbefore hafter⟩
      · have hclose : ')' ∉ before := fun hmem => hnot ⟨before, rest, rfl, hbefore, hmem, hrest⟩
        refine ⟨none, fromSystemTypeName_unclosed hopen fun hmem => ?_⟩
        rcases List.mem_append.mp hmem with hmem | hmem
        · exact hclose hmem
        · exact hrest (List.mem_of_ne_of_mem (by decide) hmem)
    · exact ⟨_, fromSystemTypeName_bare hopen⟩

end Parentheses

section Arguments

theorem isWhitespace_toLower {c : Char} (h : isWhitespace c) : ¬ c.toLower.isAlpha := by
  have hcode : c.toNat ∈ ([0x9, 0xA, 0xB, 0xC, 0xD, 0x20, 0x85, 0xA0, 0x1680, 0x2000, 0x2001, 0x2002, 0x2003, 0x2004,
      0x2005, 0x2006, 0x2007, 0x2008, 0x2009, 0x200A, 0x2028, 0x2029, 0x202F, 0x205F, 0x3000] : List ℕ) := by
    simp only [isWhitespace, Bool.or_eq_true, Bool.and_eq_true, decide_eq_true_eq] at h
    simp only [List.mem_cons, List.not_mem_nil, or_false]
    omega
  have hlist : ∀ n ∈ ([0x9, 0xA, 0xB, 0xC, 0xD, 0x20, 0x85, 0xA0, 0x1680, 0x2000, 0x2001, 0x2002, 0x2003, 0x2004,
      0x2005, 0x2006, 0x2007, 0x2008, 0x2009, 0x200A, 0x2028, 0x2029, 0x202F, 0x205F, 0x3000] : List ℕ),
      ¬ (Char.ofNat n).toLower.isAlpha := by decide
  have hc := hlist c.toNat hcode
  rwa [Char.ofNat_toNat] at hc

theorem isWhitespace_digit {c : Char} (h : c.isDigit) : ¬ isWhitespace c := by
  have hrange := NumberTexts.toNat_of_isDigit h
  simp only [isWhitespace, Bool.or_eq_true, Bool.and_eq_true, decide_eq_true_eq]
  omega

theorem letters_of_toAsciiLowercase {word letters : Text} (h : toAsciiLowercase word = letters)
    (hletters : ∀ c ∈ letters, c.isAlpha) : ∀ c ∈ word, c.toLower.isAlpha := by
  intro c hc
  rw [← h] at hletters
  exact hletters _ (List.mem_map_of_mem hc)

theorem trim_decimal {s : Text} {n : ℕ} (h : Padded s (decimal n)) : trim s = decimal n :=
  h.trim_eq fun _ hc => isWhitespace_digit (isDigit_of_mem_decimal hc)

theorem comma_notMem_decimal (n : ℕ) : ',' ∉ decimal n := fun hmem => absurd (isDigit_of_mem_decimal hmem) (by decide)

theorem parseUnsigned_decimal (bits n : ℕ) :
    parseUnsigned bits (decimal n) = if n < 2 ^ bits then some n else none := by
  have hne : decimal n ≠ [] := Nat.toDigits_ne_nil
  have hdigits : (decimal n).all Char.isDigit := List.all_eq_true.mpr fun c hc => isDigit_of_mem_decimal hc
  have hsign : (decimal n).head? ≠ some '+' := by
    intro h
    have hdigit := isDigit_of_mem_decimal (List.mem_of_mem_head? h)
    exact absurd hdigit (by decide)
  rw [parseUnsigned, if_neg hsign, digitsValue, if_pos ⟨hne, hdigits⟩, ofDigitChars_decimal, Option.filter_some]
  simp only [decide_eq_true_eq]

/-- A number from 256 on is no argument. -/
def narrow (n : ℕ) : Option UInt8 := if n < 2 ^ 8 then some (UInt8.ofNat n) else none

theorem parseArgument_of {args : Text} (argument : Text) {index n : ℕ} (h : (splitOn ',' args)[index]? = some argument)
    (hpadded : trim argument = decimal n) : parseArgument args index = narrow n := by
  rw [parseArgument, h]
  simp only [Option.bind_eq_bind, Option.bind_some, hpadded, parseUnsigned_decimal]
  by_cases hn : n < 2 ^ 8
  · rw [narrow, if_pos hn, if_pos hn]
    rfl
  · rw [narrow, if_neg hn, if_neg hn]
    rfl

theorem parseArgument_decimal (n : ℕ) : parseArgument (decimal n) 0 = narrow n := by
  apply parseArgument_of (decimal n)
  · rw [splitOn, List.splitOn_eq_singleton (comma_notMem_decimal n)]
    rfl
  · exact trim_eq_self fun _ hc => isWhitespace_digit (isDigit_of_mem_decimal hc)

/-- The comma parts the two numbers, each with its blanks. -/
theorem parseArgument_pair {first second : Text} {n m : ℕ} (hfirst : Padded first (decimal n))
    (hsecond : Padded second (decimal m)) :
    parseArgument (trim (first ++ ',' :: second)) 0 = narrow n ∧
      parseArgument (trim (first ++ ',' :: second)) 1 = narrow m := by
  have hcomma {s : Text} {k : ℕ} (h : Padded s (decimal k)) : ',' ∉ s := by
    intro hmem
    have htrimmed := (mem_trim (by decide)).mpr hmem
    rw [trim_decimal h] at htrimmed
    exact comma_notMem_decimal k htrimmed
  have hsplit : splitOn ',' (trimStart first ++ ',' :: trimEnd second) = [trimStart first, trimEnd second] := by
    rw [splitOn, List.splitOn_append_cons_self_of_not_mem (not_mem_trimStart (hcomma hfirst)),
      List.splitOn_eq_singleton (not_mem_trimEnd (hcomma hsecond))]
  rw [trim_append_cons (by decide)]
  constructor
  · apply parseArgument_of (trimStart first)
    · rw [hsplit]
      rfl
    · rw [trim_trimStart, trim_decimal hfirst]
  · apply parseArgument_of (trimEnd second)
    · rw [hsplit]
      rfl
    · rw [trim_trimEnd, trim_decimal hsecond]

theorem decimal_ne_max (n : ℕ) : ¬ eqIgnoreAsciiCase (decimal n) "max".toList := by
  intro h
  rw [eqIgnoreAsciiCase, decide_eq_true_eq] at h
  obtain ⟨c, rest, hcons⟩ : ∃ c rest, decimal n = c :: rest := List.exists_cons_of_ne_nil Nat.toDigits_ne_nil
  have hdigit : c.isDigit := isDigit_of_mem_decimal (n := n) (hcons ▸ List.mem_cons_self)
  rw [hcons, toAsciiLowercase, List.map_cons] at h
  have hletter : c.toLower.isAlpha := by
    rw [(List.cons.inj h).1]
    decide
  exact NumberTexts.PlainDecimal.toLower_not_isAlpha (.inl hdigit) hletter

end Arguments

section Known

/-- The length that a declaration with one argument is given. -/
def keptLength (base : SizedBase) (args : Text) : UInt32 :=
  if eqIgnoreAsciiCase args "max".toList then 65535
  else ((parseArgument args 0).map UInt8.toUInt32).getD 0 * UInt32.ofNat base.bytesPerUnit

theorem known_sized {base : SizedBase} {word : Text} (h : toAsciiLowercase (trim word) = base.word.toList)
    (args : Text) :
    fromSystemTypeName.known word (some args) = some (.plain base.word base.dataType (keptLength base args)) := by
  simp only [fromSystemTypeName.known, h, String.ofList_toList]
  cases base <;> rfl

theorem known_exact {base : ExactBase} {word : Text} (h : toAsciiLowercase (trim word) = base.word.toList)
    (args : Text) :
    fromSystemTypeName.known word (some args) =
      some ⟨base.word.toList, TdsDataType.decimalN.code, 17, parseArgument args 0, parseArgument args 1⟩ := by
  simp only [fromSystemTypeName.known, h, String.ofList_toList]
  cases base <;> rfl

theorem keptLength_decimal (base : SizedBase) (n : ℕ) :
    (keptLength base (decimal n)).toNat = if n < 2 ^ 8 then n * base.bytesPerUnit else 0 := by
  rw [keptLength, if_neg (decimal_ne_max n), parseArgument_decimal]
  by_cases hn : n < 2 ^ 8
  · have hbytes : base.bytesPerUnit ≤ 2 := by cases base <;> decide
    have hprod : n * base.bytesPerUnit ≤ 255 * 2 := Nat.mul_le_mul (by omega) hbytes
    have hunit : (UInt32.ofNat base.bytesPerUnit).toNat = base.bytesPerUnit :=
      UInt32.toNat_ofNat_of_lt' (hbytes.trans_lt (by decide))
    rw [narrow, if_pos hn, if_pos hn, Option.map_some, Option.getD_some, UInt32.toNat_mul, UInt8.toNat_toUInt32,
      UInt8.toNat_ofNat_of_lt' hn, hunit]
    exact Nat.mod_eq_of_lt (by omega)
  · rw [narrow, if_neg hn, if_neg hn, Option.map_none, Option.getD_none]
    simp

theorem keptLength_max {word : Text} (h : toAsciiLowercase word = "max".toList) (base : SizedBase) :
    keptLength base word = 65535 := by
  have hmax : eqIgnoreAsciiCase word "max".toList := by
    rw [eqIgnoreAsciiCase, h]
    decide
  rw [keptLength, if_pos hmax]

end Known

namespace Declaration
variable {d : Declaration} {s : Text}

theorem name_letters (d : Declaration) : ∀ c ∈ d.name, c.isAlpha := by
  have hsized (base : SizedBase) : ∀ c ∈ base.word.toList, c.isAlpha := by
    apply List.all_eq_true.mp
    cases base <;> decide
  have hexact (base : ExactBase) : ∀ c ∈ base.word.toList, c.isAlpha := by
    apply List.all_eq_true.mp
    cases base <;> decide
  cases d with
  | sized base n => exact hsized base
  | max base => exact hsized base
  | exact base precision scale => exact hexact base

/-- What is left of a declaration for the table of the names. -/
theorem Spells.read (h : d.Spells s) : ∃ word args, toAsciiLowercase (trim word) = d.name ∧ d.Arguments args ∧
    fromSystemTypeName s = .ok (fromSystemTypeName.known word (some (trim args))) := by
  obtain ⟨word, base, args, after, hword, hbase, hargs, hafter, rfl⟩ := h
  have hletters : ∀ c ∈ word, c.toLower.isAlpha := letters_of_toAsciiLowercase hword d.name_letters
  have htrim : trim base = word := hbase.trim_eq fun c hc hblank => isWhitespace_toLower hblank (hletters c hc)
  have hopen : '(' ∉ base := by
    intro hmem
    have hin : '(' ∈ word := htrim ▸ (mem_trim (by decide)).mpr hmem
    exact absurd (hletters _ hin) (by decide)
  have hclose : ')' ∉ after := fun hmem => absurd (hafter _ hmem) (by decide)
  refine ⟨trimStart base, args, ?_, hargs, fromSystemTypeName_parenthesized hopen hclose⟩
  rw [trim_trimStart, htrim, hword]

theorem kept_sized {base : SizedBase} {n : ℕ} (hn : 1 ≤ n) (h : (sized base n).Spells s) :
    (∃ info, fromSystemTypeName s = .ok (some info) ∧ (sized base n).Kept info) ↔ n ≤ 255 := by
  obtain ⟨word, args, hword, hargs, hread⟩ := h.read
  rw [hread, trim_decimal hargs, known_sized hword]
  have hbytes : 1 ≤ base.bytesPerUnit := by cases base <;> decide
  constructor
  · rintro ⟨info, hinfo, -, hlength⟩
    cases hinfo
    change (keptLength base (decimal n)).toNat = n * base.bytesPerUnit at hlength
    rw [keptLength_decimal] at hlength
    split at hlength
    · omega
    · have hpos : 1 * 1 ≤ n * base.bytesPerUnit := Nat.mul_le_mul hn hbytes
      omega
  · intro hle
    refine ⟨_, rfl, rfl, ?_⟩
    exact (keptLength_decimal base n).trans (if_pos (by omega))

theorem kept_max {base : SizedBase} (h : (max base).Spells s) :
    ∃ info, fromSystemTypeName s = .ok (some info) ∧ (max base).Kept info := by
  obtain ⟨word, args, hword, ⟨text, htext, hpadded⟩, hread⟩ := h.read
  have hletters : ∀ c ∈ text, c.toLower.isAlpha :=
    letters_of_toAsciiLowercase htext (List.all_eq_true.mp (by decide))
  have htrim : trim args = text := hpadded.trim_eq fun c hc hblank => isWhitespace_toLower hblank (hletters c hc)
  rw [hread, htrim, known_sized hword]
  exact ⟨_, rfl, rfl, keptLength_max htext base⟩

theorem kept_exact {base : ExactBase} {precision scale : ℕ} (hlegal : (exact base precision scale).Legal)
    (h : (exact base precision scale).Spells s) :
    ∃ info, fromSystemTypeName s = .ok (some info) ∧ (exact base precision scale).Kept info := by
  obtain ⟨word, args, hword, ⟨first, second, hfirst, hsecond, rfl⟩, hread⟩ := h.read
  obtain ⟨hprecision, hscale⟩ := parseArgument_pair hfirst hsecond
  have hnarrow {n : ℕ} (hn : n ≤ 38) : (narrow n).map UInt8.toNat = some n := by
    have hlt : n < 2 ^ 8 := by omega
    rw [narrow, if_pos hlt, Option.map_some, UInt8.toNat_ofNat_of_lt' hlt]
  obtain ⟨-, hle, hle'⟩ := hlegal
  rw [hread, known_exact hword, hprecision, hscale]
  exact ⟨_, rfl, rfl, hnarrow hle, hnarrow (hle'.trans hle)⟩

end Declaration

/-- A declared length is kept up to 255, and every other declared size always. -/
theorem keepsDeclaredSize_iff (s : Text) :
    KeepsDeclaredSize s ↔ ¬ ClosedBeforeOpened s ∧
      ∀ base n, (Declaration.sized base n).Legal → (Declaration.sized base n).Spells s → n ≤ 255 := by
  unfold KeepsDeclaredSize
  rw [fromSystemTypeName_returns_iff]
  apply and_congr_right
  intro _
  constructor
  · intro h base n hlegal hspells
    exact (Declaration.kept_sized hlegal.1 hspells).mp (h _ hlegal hspells)
  · intro h d hlegal hspells
    cases d with
    | sized base n => exact (Declaration.kept_sized hlegal.1 hspells).mpr (h base n hlegal hspells)
    | max base => exact Declaration.kept_max hspells
    | exact base precision scale => exact Declaration.kept_exact hlegal hspells

/-- A `varchar(300)` is given the length 0, and `)(` ends in a panic. -/
theorem not_keepsDeclaredSize_samples :
    ¬ KeepsDeclaredSize "varchar(300)".toList ∧ ¬ KeepsDeclaredSize ")(".toList := by
  constructor
  · intro h
    have hlegal : (Declaration.sized .varchar 300).Legal := ⟨by decide, by decide⟩
    have hspells : (Declaration.sized .varchar 300).Spells "varchar(300)".toList := by
      have hself (t : Text) : Padded t t := ⟨[], [], nofun, nofun, by simp⟩
      exact ⟨"varchar".toList, "varchar".toList, "300".toList, [], by decide, hself _, hself _, nofun, rfl⟩
    obtain ⟨info, hinfo, -, hlength⟩ := h.2 _ hlegal hspells
    have hread : fromSystemTypeName "varchar(300)".toList = .ok (some (.plain "varchar" .bigVarChar 0)) := by decide
    rw [hread] at hinfo
    cases hinfo
    exact absurd hlength (by decide)
  · intro h
    obtain ⟨result, hresult⟩ := h.1
    have hread : fromSystemTypeName ")(".toList = .error .panic := by decide
    rw [hread] at hresult
    cases hresult

end SqlxMssql
