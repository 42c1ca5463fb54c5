import SqlxMssql.Foundations.Utf8Bytes

/-! # Percent escapes in URL components

The decoder of the source is a loop over the bytes of a component. It replaces an escape by
one byte and reads the bytes as a text again, so a text survives it exactly when it holds no
escape.
-/
namespace SqlxMssql.PercentEscapes
open Loops Utf8 Utf8Bytes

/-- `c.to_digit(16)` -/
def hexDigit (c : Char) : Option ℕ :=
  if '0' ≤ c ∧ c ≤ '9' then some (c.toNat - 48)
  else if 'a' ≤ c ∧ c ≤ 'f' then some (c.toNat - 87)
  else if 'A' ≤ c ∧ c ≤ 'F' then some (c.toNat - 55)
  else none

/-- Takes in hexadecimal digits, as long as the number fits a byte. -/
def hexDigits (value : ℕ) : Text → Option ℕ
  | [] => some value
  | c :: s => (hexDigit c).bind fun digit =>
    if value * 16 + digit < 256 then hexDigits (value * 16 + digit) s else none

/-- `u8::from_str_radix(src, 16).ok()`: a `+` may lead the digits. -/
def fromStrRadix16 : Text → Option UInt8
  | [] => none
  | '+' :: c :: s => (hexDigits 0 (c :: s)).map UInt8.ofNat
  | c :: s => (hexDigits 0 (c :: s)).map UInt8.ofNat

/-- `&bytes[a..b]` -/
def sliceBytes (bytes : List UInt8) (a b : ℕ) : Run (List UInt8) :=
  if a ≤ b ∧ b ≤ bytes.length then .ok ((bytes.take b).drop a) else .error .panic

structure Decoding where
  index : ℕ
  output : List UInt8

def decodeTurn (bytes : List UInt8) (s : Decoding) : Run Decoding := do
  let byte ← orPanic bytes[s.index]?
  if byte = 0x25 ∧ s.index + 2 < bytes.length then
    let hex := fromUtf8 (← sliceBytes bytes (s.index + 1) (s.index + 3))
    match hex.bind fromStrRadix16 with
    | some value => return ⟨s.index + 3, s.output ++ [value]⟩
    | none => return ⟨s.index + 1, s.output ++ [byte]⟩
  else return ⟨s.index + 1, s.output ++ [byte]⟩

def percentDecode (input : Text) : Run Text :=
  if '%' ∉ input then .ok input
  else do
    let bytes := encode input
    let s ← whileLoop (fun s => decide (s.index < bytes.length)) (decodeTurn bytes) (bytes.length + 1) ⟨0, []⟩
    return fromUtf8Lossy s.output

set_option maxRecDepth 2000 in
example : percentDecode "%40%zz%C3%9F%4".toList = .ok "@%zzß%4".toList := by rfl

/-- The byte that two bytes behind a percent sign stand for. -/
def hexByte (h l : UInt8) : Option UInt8 := (fromUtf8 [h, l]).bind fromStrRadix16

/-- Replaces every percent sign before two bytes that are a pair, from left to right. -/
def replacePairs (pair : UInt8 → UInt8 → Option UInt8) : List UInt8 → List UInt8
  | b :: h :: l :: rest =>
    if b = 0x25 then
      match pair h l with
      | some value => value :: replacePairs pair rest
      | none => b :: replacePairs pair (h :: l :: rest)
    else b :: replacePairs pair (h :: l :: rest)
  | bytes => bytes

section Pairs
variable {pair : UInt8 → UInt8 → Option UInt8}

theorem replacePairs_cons {b : UInt8} (h : b ≠ 0x25) (rest : List UInt8) :
    replacePairs pair (b :: rest) = b :: replacePairs pair rest := by
  match rest with
  | [] => rfl
  | [_] => rfl
  | _ :: _ :: _ => rw [replacePairs, if_neg h]

theorem replacePairs_some {h l value : UInt8} (hpair : pair h l = some value) (rest : List UInt8) :
    replacePairs pair (0x25 :: h :: l :: rest) = value :: replacePairs pair rest := by
  rw [replacePairs, if_pos rfl, hpair]

theorem replacePairs_none {h l : UInt8} (hpair : pair h l = none) (rest : List UInt8) :
    replacePairs pair (0x25 :: h :: l :: rest) = 0x25 :: replacePairs pair (h :: l :: rest) := by
  rw [replacePairs, if_pos rfl, hpair]

theorem replacePairs_append {bs : List UInt8} (h : ∀ b ∈ bs, b ≠ 0x25) (rest : List UInt8) :
    replacePairs pair (bs ++ rest) = bs ++ replacePairs pair rest := by
  induction bs with
  | nil => rfl
  | cons b bs ih =>
    obtain ⟨hb, hbs⟩ := List.forall_mem_cons.mp h
    rw [List.cons_append, replacePairs_cons hb, ih hbs, List.cons_append]

theorem replacePairs_short {bytes : List UInt8} (h : bytes.length ≤ 2) : replacePairs pair bytes = bytes := by
  match bytes with
  | [] => rfl
  | [_] => rfl
  | [_, _] => rfl
  | _ :: _ :: _ :: _ => simp at h

end Pairs

section Loop

/-- What is left behind the bytes that have been read. -/
theorem drop_read (before read after : List UInt8) :
    (before ++ (read ++ after)).drop (before.length + read.length) = after := by
  rw [← List.append_assoc, ← List.length_append, List.drop_left]

theorem sliceBytes_middle (before after : List UInt8) (b h l : UInt8) :
    sliceBytes (before ++ b :: h :: l :: after) (before.length + 1) (before.length + 3) = .ok [h, l] := by
  have hsplit : before ++ b :: h :: l :: after = (before ++ [b, h, l]) ++ after := by simp
  have htake : (before ++ b :: h :: l :: after).take (before.length + 3) = before ++ [b, h, l] := by
    rw [hsplit]
    exact List.take_left' (by simp)
  have hdrop : (before ++ [b, h, l]).drop (before.length + 1) = [h, l] := drop_read before [b] [h, l]
  unfold sliceBytes
  rw [if_pos (by simp), htake, hdrop]

theorem decodeTurn_spec {bytes : List UInt8} {s : Decoding} (h : s.index < bytes.length) :
    ∃ t, decodeTurn bytes s = .ok t ∧ s.index < t.index ∧ t.index ≤ bytes.length ∧
      t.output ++ replacePairs hexByte (bytes.drop t.index) =
        s.output ++ replacePairs hexByte (bytes.drop s.index) := by
  obtain ⟨index, output⟩ := s
  obtain ⟨before, b, after, rfl, rfl⟩ : ∃ before b after, bytes = before ++ b :: after ∧
      index = before.length :=
    ⟨bytes.take index, bytes[index], bytes.drop (index + 1), by simp, by simp at h ⊢; omega⟩
  have hbyte : (before ++ b :: after)[before.length]? = some b := by simp
  have hrest : (before ++ b :: after).drop (before.length + 1) = after := drop_read before [b] after
  have hcopy (hkept : replacePairs hexByte (b :: after) = b :: replacePairs hexByte after) :
      (output ++ [b]) ++ replacePairs hexByte ((before ++ b :: after).drop (before.length + 1)) =
        output ++ replacePairs hexByte ((before ++ b :: after).drop before.length) := by
    rw [hrest, List.drop_left, hkept]
    simp
  unfold decodeTurn
  simp only [hbyte, orPanic_some, ok_bind]
  by_cases hpercent : b = 0x25
  · match after with
    | h :: l :: rest =>
      rw [if_pos ⟨hpercent, by simp⟩, sliceBytes_middle]
      have hthree : (before ++ b :: h :: l :: rest).drop (before.length + 3) = rest := drop_read before [b, h, l] rest
      cases hhex : hexByte h l with
      | none =>
        refine ⟨⟨before.length + 1, output ++ [b]⟩, ?_, Nat.lt_succ_self _, by simp, hcopy ?_⟩
        · simp only [ok_bind]
          rw [hexByte] at hhex
          rw [hhex]
          exact rfl
        · rw [hpercent, replacePairs_none hhex]
      | some value =>
        refine ⟨⟨before.length + 3, output ++ [value]⟩, ?_, by simp, by simp, ?_⟩
        · simp only [ok_bind]
          rw [hexByte] at hhex
          rw [hhex]
          exact rfl
        · rw [hthree, List.drop_left, hpercent, replacePairs_some hhex]
          simp
    | [] =>
      rw [if_neg (by simp)]
      exact ⟨_, rfl, Nat.lt_succ_self _, by simp, hcopy (replacePairs_short (by simp))⟩
    | [l] =>
      rw [if_neg (by simp)]
      exact ⟨_, rfl, Nat.lt_succ_self _, by simp, hcopy (by rw [replacePairs_short, replacePairs_short] <;> simp)⟩
  · rw [if_neg (fun hc => hpercent hc.1)]
    exact ⟨_, rfl, Nat.lt_succ_self _, by simp, hcopy (replacePairs_cons hpercent after)⟩

def Decoding.result (bytes : List UInt8) (s : Decoding) : List UInt8 :=
  s.output ++ replacePairs hexByte (bytes.drop s.index)

theorem decodeTurn_keeps (bytes : List UInt8) (s : Decoding) (_ : s.index ≤ bytes.length)
    (h : decide (s.index < bytes.length) = true) :
    ∃ t, decodeTurn bytes s = .ok t ∧ t.index ≤ bytes.length ∧
      bytes.length - t.index < bytes.length - s.index ∧ t.result bytes = s.result bytes := by
  have hindex : s.index < bytes.length := of_decide_eq_true h
  obtain ⟨t, ht, hlt, hle, hkeep⟩ := decodeTurn_spec hindex
  exact ⟨t, ht, hle, by omega, hkeep⟩

/-- The decoder reads nothing outside its input, ends, and replaces the escapes. -/
theorem decodeLoop_returns (bytes : List UInt8) :
    ∃ index, whileLoop (fun s => decide (s.index < bytes.length)) (decodeTurn bytes) (bytes.length + 1)
      ⟨0, []⟩ = .ok ⟨index, replacePairs hexByte bytes⟩ := by
  obtain ⟨t, hrun, -, hcond, hresult⟩ :=
    whileLoop_returns (decodeTurn_keeps bytes) (bytes.length + 1) (s := ⟨0, []⟩) (Nat.zero_le _) (by simp)
  have hend : bytes.length ≤ t.index := by simpa using hcond
  have houtput : t.output = replacePairs hexByte bytes := by
    have hleft : t.result bytes = t.output := by
      unfold Decoding.result
      rw [List.drop_eq_nil_of_le hend, replacePairs_short (by simp), List.append_nil]
    rw [← hleft, hresult]
    exact List.nil_append _
  exact ⟨t.index, by rw [hrun, ← houtput]⟩

end Loop

section Characters

theorem hexDigit_ascii {c : Char} {n : ℕ} (h : hexDigit c = some n) : c.toNat < 0x80 := by
  have hle (d : Char) (hd : d.toNat < 0x80) (hc : c ≤ d) : c.toNat < 0x80 :=
    Nat.lt_of_le_of_lt (UInt32.le_iff_toNat_le.mp hc) hd
  unfold hexDigit at h
  split at h
  · rename_i hc
    exact hle '9' (by decide) hc.2
  split at h
  · rename_i hc
    exact hle 'f' (by decide) hc.2
  split at h
  · rename_i hc
    exact hle 'F' (by decide) hc.2
  · cases h

theorem hexDigits_ascii {s : Text} {value n : ℕ} (h : hexDigits value s = some n) :
    ∀ c ∈ s, c.toNat < 0x80 := by
  induction s generalizing value with
  | nil => simp
  | cons c s ih =>
    obtain ⟨digit, hdigit, hrest⟩ := Option.bind_eq_some_iff.mp h
    split at hrest
    · exact List.forall_mem_cons.mpr ⟨hexDigit_ascii hdigit, ih hrest⟩
    · cases hrest

theorem fromStrRadix16_ascii {s : Text} {v : UInt8} (h : fromStrRadix16 s = some v) :
    ∀ c ∈ s, c.toNat < 0x80 := by
  unfold fromStrRadix16 at h
  split at h
  · cases h
  · obtain ⟨n, hn, -⟩ := Option.map_eq_some_iff.mp h
    exact List.forall_mem_cons.mpr ⟨by decide, hexDigits_ascii hn⟩
  · obtain ⟨n, hn, -⟩ := Option.map_eq_some_iff.mp h
    exact hexDigits_ascii hn

theorem hexByte_ascii {h l v : UInt8} (hv : hexByte h l = some v) : h.toNat < 0x80 ∧ l.toNat < 0x80 := by
  obtain ⟨s, hs, hradix⟩ := Option.bind_eq_some_iff.mp hv
  have hascii := fromStrRadix16_ascii hradix
  have hchunks : fromUtf8 [h, l] = ((chunk h [l]).1 :: chunks 1 (chunk h [l]).2).mapM id := rfl
  rw [hchunks] at hs
  by_cases hh : h.toNat < 0x80
  · refine ⟨hh, ?_⟩
    by_contra hl
    have hfirst : chunk h [l] = (some (Char.ofNat h.toNat), [l]) := by
      unfold chunk
      rw [if_pos hh]
    simp [hfirst, chunks, chunk_alone hl] at hs
  · exfalso
    rcases chunk_pair (l := l) hh with hnone | ⟨c, hc, hpair⟩
    · simp [hnone] at hs
    · obtain rfl : s = [c] := by simpa [hpair, chunks] using hs.symm
      exact hc (hascii c (List.mem_singleton_self c))

theorem hexByte_chars {h l : Char} (hh : h.toNat < 0x80) (hl : l.toNat < 0x80) :
    hexByte (UInt8.ofNat h.toNat) (UInt8.ofNat l.toNat) = fromStrRadix16 [h, l] := by
  have hbytes : [UInt8.ofNat h.toNat, UInt8.ofNat l.toNat] = encode [h, l] := by
    simp only [encode_cons, encode_nil, utf8EncodeChar_ascii hh, utf8EncodeChar_ascii hl]
    rfl
  unfold hexByte fromUtf8
  rw [hbytes, chunks_encode _ le_rfl]
  rfl

theorem utf8EncodeChar_not_ascii {c : Char} (h : ¬ c.toNat < 0x80) :
    ∀ b ∈ String.utf8EncodeChar c, ¬ b.toNat < 0x80 := by
  intro b hb hlt
  unfold String.utf8EncodeChar at hb
  dsimp only at hb
  have hv : ¬ c.val.toNat ≤ 0x7f := fun hle => h (Nat.lt_succ_of_le hle)
  rw [if_neg hv] at hb
  split_ifs at hb <;> simp only [List.mem_cons, List.not_mem_nil, or_false] at hb <;>
    rcases hb with rfl | rfl | rfl | rfl <;> rw [toNat_of_ofNat (by omega)] at hlt <;> omega

theorem utf8EncodeChar_ne_percent {c : Char} (hc : c ≠ '%') : ∀ b ∈ String.utf8EncodeChar c, b ≠ 0x25 := by
  intro b hb hpercent
  subst hpercent
  by_cases h : c.toNat < 0x80
  · rw [utf8EncodeChar_ascii h, List.mem_singleton] at hb
    have hnat := congrArg UInt8.toNat hb
    rw [toNat_of_ofNat (by omega)] at hnat
    apply hc
    rw [← Char.ofNat_toNat c, ← hnat]
    rfl
  · exact utf8EncodeChar_not_ascii h _ hb (by decide)

end Characters

section Pieces

/-- A text as what its characters and escapes stand for. -/
def pieces : Text → List Piece
  | '%' :: h :: l :: s =>
    match fromStrRadix16 [h, l] with
    | some value => .inr value :: pieces s
    | none => .inl '%' :: pieces (h :: l :: s)
  | c :: s => .inl c :: pieces s
  | [] => []

/-- Somewhere in the text a percent sign is followed by two digits. -/
def HasEscape (s : Text) : Prop :=
  ∃ h l rest v, '%' :: h :: l :: rest <:+ s ∧ fromStrRadix16 [h, l] = some v

theorem not_hasEscape_of_no_percent {s : Text} (hs : '%' ∉ s) : ¬ HasEscape s := by
  rintro ⟨h, l, rest, v, hsuffix, -⟩
  exact hs (hsuffix.subset List.mem_cons_self)

theorem encode_eq_cons {s : Text} {b : UInt8} {rest : List UInt8} (h : encode s = b :: rest)
    (hb : b.toNat < 0x80) :
    ∃ c s', s = c :: s' ∧ c.toNat < 0x80 ∧ b = UInt8.ofNat c.toNat ∧ rest = encode s' := by
  cases s with
  | nil => cases h
  | cons c s =>
    rw [encode_cons] at h
    by_cases hc : c.toNat < 0x80
    · rw [utf8EncodeChar_ascii hc] at h
      obtain ⟨rfl, rfl⟩ := List.cons.inj h
      exact ⟨c, s, rfl, hc, rfl, rfl⟩
    · obtain ⟨b', bs, hbytes, -⟩ := utf8EncodeChar_head c
      rw [hbytes] at h
      obtain ⟨rfl, -⟩ := List.cons.inj h
      exact absurd hb (utf8EncodeChar_not_ascii hc _ (by simp [hbytes]))

theorem replacePairs_percent {s : Text} (h : ∀ a b s', s = a :: b :: s' → fromStrRadix16 [a, b] = none) :
    replacePairs hexByte (0x25 :: encode s) = 0x25 :: replacePairs hexByte (encode s) := by
  cases hbytes : encode s with
  | nil => rfl
  | cons b₁ bs =>
    cases bs with
    | nil => rfl
    | cons b₂ bs =>
      have hnone : hexByte b₁ b₂ = none := by
        by_contra hsome
        obtain ⟨v, hv⟩ := Option.ne_none_iff_exists'.mp hsome
        obtain ⟨h₁, h₂⟩ := hexByte_ascii hv
        obtain ⟨a, s', rfl, ha, rfl, hrest⟩ := encode_eq_cons hbytes h₁
        obtain ⟨b, s'', rfl, hb, rfl, -⟩ := encode_eq_cons hrest.symm h₂
        rw [hexByte_chars ha hb, h a b s'' rfl] at hv
        cases hv
      rw [replacePairs_none hnone]

theorem replacePairs_encode (s : Text) : replacePairs hexByte (encode s) = join (pieces s) := by
  induction s using pieces.induct with
  | case1 h l s value hvalue ih =>
    have hascii := fromStrRadix16_ascii hvalue
    have hh : h.toNat < 0x80 := hascii h (by simp)
    have hl : l.toNat < 0x80 := hascii l (by simp)
    have hbytes : encode ('%' :: h :: l :: s) =
        0x25 :: UInt8.ofNat h.toNat :: UInt8.ofNat l.toNat :: encode s := by
      simp only [encode_cons, utf8EncodeChar_ascii hh, utf8EncodeChar_ascii hl]
      rfl
    rw [hbytes, replacePairs_some ((hexByte_chars hh hl).trans hvalue), ih]
    simp only [pieces, hvalue, join_cons, Piece.bytes]
    rfl
  | case2 h l s hnone ih =>
    have hbytes : encode ('%' :: h :: l :: s) = 0x25 :: encode (h :: l :: s) := rfl
    rw [hbytes, replacePairs_percent, ih]
    · simp only [pieces, hnone, join_cons, Piece.bytes]
      rfl
    · rintro a b s' heq
      cases heq
      exact hnone
  | case3 c s hc ih =>
    rw [pieces.eq_2 c s hc, join_cons, ← ih, encode_cons]
    by_cases hpercent : c = '%'
    · subst hpercent
      refine replacePairs_percent ?_
      rintro a b s' rfl
      exact absurd rfl (hc a b s' rfl)
    · exact replacePairs_append (utf8EncodeChar_ne_percent hpercent) _
  | case4 => rfl

theorem pieces_length_le (s : Text) : (pieces s).length ≤ s.length := by
  induction s using pieces.induct with
  | case1 h l s value hvalue ih =>
    simp only [pieces, hvalue, List.length_cons]
    omega
  | case2 h l s hnone ih =>
    simp only [pieces, hnone, List.length_cons] at ih ⊢
    omega
  | case3 c s hc ih =>
    rw [pieces.eq_2 c s hc]
    exact Nat.succ_le_succ ih
  | case4 => exact le_rfl

theorem hasEscape_cons {c : Char} {s : Text} :
    HasEscape (c :: s) ↔
      (∃ h l rest v, c :: s = '%' :: h :: l :: rest ∧ fromStrRadix16 [h, l] = some v) ∨ HasEscape s := by
  constructor
  · rintro ⟨h, l, rest, v, hsuffix, hv⟩
    rcases List.suffix_cons_iff.mp hsuffix with heq | hsuffix
    · exact Or.inl ⟨h, l, rest, v, heq.symm, hv⟩
    · exact Or.inr ⟨h, l, rest, v, hsuffix, hv⟩
  · rintro (⟨h, l, rest, v, heq, hv⟩ | ⟨h, l, rest, v, hsuffix, hv⟩)
    · exact ⟨h, l, rest, v, heq ▸ List.suffix_rfl, hv⟩
    · exact ⟨h, l, rest, v, hsuffix.trans (List.suffix_cons c s), hv⟩

theorem pieces_of_not_hasEscape {s : Text} (hs : ¬ HasEscape s) : pieces s = s.map .inl := by
  induction s using pieces.induct with
  | case1 h l s value hvalue ih => exact absurd ⟨h, l, s, value, List.suffix_rfl, hvalue⟩ hs
  | case2 h l s hnone ih =>
    have htail := ih fun h => hs (hasEscape_cons.mpr (Or.inr h))
    simp only [pieces, hnone, List.map_cons] at htail ⊢
    rw [htail]
  | case3 c s hc ih =>
    rw [pieces.eq_2 c s hc, ih fun h => hs (hasEscape_cons.mpr (Or.inr h)), List.map_cons]
  | case4 => rfl

theorem pieces_length_lt {s : Text} (hs : HasEscape s) : (pieces s).length < s.length := by
  induction s using pieces.induct with
  | case1 h l s value hvalue ih =>
    have hle := pieces_length_le s
    simp only [pieces, hvalue, List.length_cons]
    omega
  | case2 h l s hnone ih =>
    rcases hasEscape_cons.mp hs with ⟨h', l', rest, v, heq, hv⟩ | hs
    · cases heq
      rw [hnone] at hv
      cases hv
    · have htail := ih hs
      simp only [pieces, hnone, List.length_cons] at htail ⊢
      omega
  | case3 c s hc ih =>
    rcases hasEscape_cons.mp hs with ⟨h, l, rest, v, heq, hv⟩ | hs
    · cases heq
      exact absurd rfl (hc h l rest rfl)
    · rw [pieces.eq_2 c s hc]
      exact Nat.succ_lt_succ (ih hs)
  | case4 =>
    obtain ⟨h, l, rest, v, hsuffix, -⟩ := hs
    cases List.suffix_nil.mp hsuffix

end Pieces

/-- The decoder reads nothing outside its input, ends, and returns the text of the pieces. -/
theorem percentDecode_eq (s : Text) : percentDecode s = .ok (fromUtf8Lossy (join (pieces s))) := by
  unfold percentDecode
  split
  · rename_i hpercent
    rw [pieces_of_not_hasEscape (not_hasEscape_of_no_percent hpercent), join_chars, fromUtf8Lossy_encode]
  · obtain ⟨index, hrun⟩ := decodeLoop_returns (encode s)
    simp only [hrun, ok_bind]
    rw [replacePairs_encode]
    rfl

theorem percentDecode_of_not_hasEscape {s : Text} (h : ¬ HasEscape s) : percentDecode s = .ok s := by
  rw [percentDecode_eq, pieces_of_not_hasEscape h, join_chars, fromUtf8Lossy_encode]

theorem percentDecode_length {s t : Text} (h : percentDecode s = .ok t) :
    t.length ≤ s.length ∧ (HasEscape s → t.length < s.length) := by
  rw [percentDecode_eq] at h
  cases h
  have hread := fromUtf8Lossy_join_length (pieces s)
  exact ⟨hread.trans (pieces_length_le s), fun hs => hread.trans_lt (pieces_length_lt hs)⟩

end SqlxMssql.PercentEscapes
