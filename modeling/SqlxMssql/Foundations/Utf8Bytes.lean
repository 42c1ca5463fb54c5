import SqlxMssql.Foundations.Utf8

/-! # Texts and their bytes

The UTF-8 bytes of a text, and the readings of a sequence of bytes as a text: the strict
one, and the lossy one that replaces what is not well formed.
-/
namespace SqlxMssql.Utf8Bytes
open Utf8

def encode (s : Text) : List UInt8 := s.flatMap String.utf8EncodeChar

@[simp] theorem encode_nil : encode [] = [] := rfl
@[simp] theorem encode_cons (c : Char) (s : Text) : encode (c :: s) = String.utf8EncodeChar c ++ encode s :=
  List.flatMap_cons

/-- What a first byte of a longer character leads: how many bytes follow it, the bounds of
the next one, and its own part of the code point. -/
def lead (b : ℕ) : Option (ℕ × ℕ × ℕ × ℕ) :=
  if b < 0xC2 then none
  else if b ≤ 0xDF then some (1, 0x80, 0xBF, b - 0xC0)
  else if b = 0xE0 then some (2, 0xA0, 0xBF, 0)
  else if b = 0xED then some (2, 0x80, 0x9F, 13)
  else if b ≤ 0xEF then some (2, 0x80, 0xBF, b - 0xE0)
  else if b = 0xF0 then some (3, 0x90, 0xBF, 0)
  else if b ≤ 0xF3 then some (3, 0x80, 0xBF, b - 0xF0)
  else if b = 0xF4 then some (3, 0x80, 0x8F, 4)
  else none

def follow : ℕ → ℕ → ℕ → ℕ → List UInt8 → Option Char × List UInt8
  | 0, _, _, value, rest => (some (Char.ofNat value), rest)
  | _ + 1, _, _, _, [] => (none, [])
  | n + 1, low, high, value, b :: rest =>
    if low ≤ b.toNat ∧ b.toNat ≤ high then follow n 0x80 0xBF (value * 64 + (b.toNat - 0x80)) rest
    else (none, b :: rest)

/-- The first character of a sequence of bytes, or nothing for a maximal ill-formed part, and
what is left behind it. -/
def chunk (b : UInt8) (rest : List UInt8) : Option Char × List UInt8 :=
  if b.toNat < 0x80 then (some (Char.ofNat b.toNat), rest)
  else
    match lead b.toNat with
    | none => (none, rest)
    | some (more, low, high, value) => follow more low high value rest

/-- The chunks of a sequence of bytes; every chunk takes one byte and more. -/
def chunks : ℕ → List UInt8 → List (Option Char)
  | _, [] => []
  | 0, _ => []
  | fuel + 1, b :: rest => (chunk b rest).1 :: chunks fuel (chunk b rest).2

/-- `str::from_utf8` -/
def fromUtf8 (bytes : List UInt8) : Option Text := (chunks bytes.length bytes).mapM id

/-- `String::from_utf8_lossy` -/
def fromUtf8Lossy (bytes : List UInt8) : Text :=
  (chunks bytes.length bytes).map (·.getD '\uFFFD')

example : fromUtf8Lossy [0x61, 0xF0, 0x9F, 0x98, 0x62, 0x80, 0xC3, 0xC3, 0xA9] =
    "a\uFFFDb\uFFFD\uFFFDé".toList := by decide

section Reading

theorem toNat_of_ofNat {n : ℕ} (h : n < 256) : (UInt8.ofNat n).toNat = n := UInt8.toNat_ofNat_of_lt' h

theorem follow_cons {n low high value : ℕ} {b : UInt8} {rest : List UInt8}
    (h : low ≤ b.toNat ∧ b.toNat ≤ high) :
    follow (n + 1) low high value (b :: rest) = follow n 0x80 0xBF (value * 64 + (b.toNat - 0x80)) rest := by
  rw [follow, if_pos h]

theorem chunk_lead {b : UInt8} {more low high value : ℕ} {rest : List UInt8}
    (h : lead b.toNat = some (more, low, high, value)) :
    chunk b rest = follow more low high value rest := by
  have hle : ¬ b.toNat < 0x80 := by
    intro hlt
    unfold lead at h
    rw [if_pos (by omega)] at h
    cases h
  unfold chunk
  rw [if_neg hle, h]

theorem lead_two {d : ℕ} (h : 2 ≤ d ∧ d < 32) : lead (d + 192) = some (1, 0x80, 0xBF, d) := by
  unfold lead
  rw [if_neg (by omega), if_pos (by omega), Nat.add_sub_cancel]

/-- The bounds of the next byte leave out overlong characters and surrogates. -/
theorem lead_three {d next : ℕ} (hd : d < 16) (hlow : 0x80 ≤ next) (hhigh : next ≤ 0xBF)
    (hfirst : d = 0 → 0xA0 ≤ next) (hsurrogate : d = 13 → next ≤ 0x9F) :
    ∃ low high, lead (d + 224) = some (2, low, high, d) ∧ low ≤ next ∧ next ≤ high := by
  by_cases h0 : d = 0
  · refine ⟨0xA0, 0xBF, ?_, hfirst h0, hhigh⟩
    rw [h0]
    exact rfl
  by_cases h13 : d = 13
  · refine ⟨0x80, 0x9F, ?_, hlow, hsurrogate h13⟩
    rw [h13]
    exact rfl
  · refine ⟨0x80, 0xBF, ?_, hlow, hhigh⟩
    unfold lead
    rw [if_neg (by omega), if_neg (by omega), if_neg (by omega), if_neg (by omega), if_pos (by omega),
      Nat.add_sub_cancel]

theorem lead_four {d next : ℕ} (hd : d ≤ 4) (hlow : 0x80 ≤ next) (hhigh : next ≤ 0xBF)
    (hfirst : d = 0 → 0x90 ≤ next) (hlast : d = 4 → next ≤ 0x8F) :
    ∃ low high, lead (d + 240) = some (3, low, high, d) ∧ low ≤ next ∧ next ≤ high := by
  by_cases h0 : d = 0
  · refine ⟨0x90, 0xBF, ?_, hfirst h0, hhigh⟩
    rw [h0]
    exact rfl
  by_cases h4 : d = 4
  · refine ⟨0x80, 0x8F, ?_, hlow, hlast h4⟩
    rw [h4]
    exact rfl
  · refine ⟨0x80, 0xBF, ?_, hlow, hhigh⟩
    unfold lead
    rw [if_neg (by omega), if_neg (by omega), if_neg (by omega), if_neg (by omega), if_neg (by omega),
      if_neg (by omega), if_pos (by omega), Nat.add_sub_cancel]

theorem chunk_utf8EncodeChar (c : Char) (rest : List UInt8) :
    ∃ b bs, String.utf8EncodeChar c = b :: bs ∧ chunk b (bs ++ rest) = (some c, rest) := by
  have hvalid : c.val.toNat < 0xD800 ∨ 0xDFFF < c.val.toNat ∧ c.val.toNat < 0x110000 := c.valid
  have hchar : Char.ofNat c.val.toNat = c := Char.ofNat_toNat c
  unfold String.utf8EncodeChar
  dsimp only
  generalize c.val.toNat = v at *
  split
  · refine ⟨_, [], rfl, ?_⟩
    have hb := toNat_of_ofNat (show v < 256 by omega)
    unfold chunk
    rw [hb, if_pos (by omega), hchar]
    exact rfl
  split
  · refine ⟨_, [UInt8.ofNat (v % 64 + 128)], rfl, ?_⟩
    have hd : v / 64 % 32 = v / 64 := by omega
    have hb := toNat_of_ofNat (show v / 64 + 192 < 256 by omega)
    have h1 := toNat_of_ofNat (show v % 64 + 128 < 256 by omega)
    have hlead := lead_two (show 2 ≤ v / 64 ∧ v / 64 < 32 by omega)
    have hvalue : v / 64 * 64 + (v % 64 + 128 - 0x80) = v := by omega
    rw [← hb] at hlead
    rw [hd, chunk_lead hlead, List.singleton_append, follow_cons (by omega), h1, follow, hvalue, hchar]
  split
  · refine ⟨_, [UInt8.ofNat (v / 64 % 64 + 128), UInt8.ofNat (v % 64 + 128)], rfl, ?_⟩
    have hd : v / 4096 % 16 = v / 4096 := by omega
    have hb := toNat_of_ofNat (show v / 4096 + 224 < 256 by omega)
    have h1 := toNat_of_ofNat (show v / 64 % 64 + 128 < 256 by omega)
    have h2 := toNat_of_ofNat (show v % 64 + 128 < 256 by omega)
    obtain ⟨low, high, hlead, hlow, hhigh⟩ := lead_three (show v / 4096 < 16 by omega)
      (show 0x80 ≤ v / 64 % 64 + 128 by omega) (by omega) (by omega) (by omega)
    have hvalue : (v / 4096 * 64 + (v / 64 % 64 + 128 - 0x80)) * 64 + (v % 64 + 128 - 0x80) = v := by
      omega
    rw [← hb] at hlead
    rw [hd, chunk_lead hlead, List.cons_append, follow_cons (by omega), List.singleton_append,
      follow_cons (by omega), h1, h2, follow, hvalue, hchar]
  · refine ⟨_, [UInt8.ofNat (v / 4096 % 64 + 128), UInt8.ofNat (v / 64 % 64 + 128),
      UInt8.ofNat (v % 64 + 128)], rfl, ?_⟩
    have hd : v / 262144 % 8 = v / 262144 := by omega
    have hb := toNat_of_ofNat (show v / 262144 + 240 < 256 by omega)
    have h1 := toNat_of_ofNat (show v / 4096 % 64 + 128 < 256 by omega)
    have h2 := toNat_of_ofNat (show v / 64 % 64 + 128 < 256 by omega)
    have h3 := toNat_of_ofNat (show v % 64 + 128 < 256 by omega)
    obtain ⟨low, high, hlead, hlow, hhigh⟩ := lead_four (show v / 262144 ≤ 4 by omega)
      (show 0x80 ≤ v / 4096 % 64 + 128 by omega) (by omega) (by omega) (by omega)
    have hvalue : ((v / 262144 * 64 + (v / 4096 % 64 + 128 - 0x80)) * 64 + (v / 64 % 64 + 128 - 0x80)) * 64 +
        (v % 64 + 128 - 0x80) = v := by
      omega
    rw [← hb] at hlead
    rw [hd, chunk_lead hlead, List.cons_append, follow_cons (by omega), List.cons_append,
      follow_cons (by omega), List.singleton_append, follow_cons (by omega), h1, h2, h3, follow, hvalue,
      hchar]

/-- The first bytes of the longer characters, and what their next byte is bounded by. -/
theorem lead_some {b more low high value : ℕ} (h : lead b = some (more, low, high, value)) :
    0x80 ≤ low ∧ high ≤ 0xBF ∧
      (more = 1 ∧ b = value + 0xC0 ∧ 2 ≤ value ∧ value < 32 ∨
        more = 2 ∧ b = value + 0xE0 ∧ value < 16 ∧ (value = 0 → 0xA0 ≤ low) ∧ (value = 13 → high ≤ 0x9F) ∨
        more = 3 ∧ b = value + 0xF0 ∧ value < 5 ∧ (value = 0 → 0x90 ≤ low) ∧ (value = 4 → high ≤ 0x8F)) := by
  unfold lead at h
  split_ifs at h <;> cases h <;> omega

theorem chunk_alone {b : UInt8} (hb : ¬ b.toNat < 0x80) : (chunk b []).1 = none := by
  cases hlead : lead b.toNat with
  | none => rw [chunk, if_neg hb, hlead]
  | some r =>
    obtain ⟨more, low, high, value⟩ := r
    rw [chunk_lead hlead]
    obtain ⟨-, -, ⟨rfl, -⟩ | ⟨rfl, -⟩ | ⟨rfl, -⟩⟩ := lead_some hlead <;> rfl

/-- Two bytes of which the first leads make no character, or one outside ASCII. -/
theorem chunk_pair {h l : UInt8} (hh : ¬ h.toNat < 0x80) :
    (chunk h [l]).1 = none ∨ ∃ c : Char, ¬ c.toNat < 0x80 ∧ chunk h [l] = (some c, []) := by
  cases hlead : lead h.toNat with
  | none =>
    left
    rw [chunk, if_neg hh, hlead]
  | some r =>
    obtain ⟨more, low, high, value⟩ := r
    rw [chunk_lead hlead]
    by_cases hsecond : low ≤ l.toNat ∧ l.toNat ≤ high
    · obtain ⟨-, -, ⟨rfl, -, hvalue⟩ | ⟨rfl, -⟩ | ⟨rfl, -⟩⟩ := lead_some hlead
      · right
        have hvalid : (value * 64 + (l.toNat - 0x80)).isValidChar := by
          have hl := l.toNat_lt
          exact Or.inl (by omega)
        refine ⟨Char.ofNat (value * 64 + (l.toNat - 0x80)), ?_, ?_⟩
        · rw [Char.ofNat, dif_pos hvalid]
          change ¬ value * 64 + (l.toNat - 0x80) < 0x80
          omega
        · rw [follow_cons hsecond, follow]
      · left
        rw [follow_cons hsecond, follow]
      · left
        rw [follow_cons hsecond, follow]
    · left
      obtain ⟨-, -, ⟨rfl, -⟩ | ⟨rfl, -⟩ | ⟨rfl, -⟩⟩ := lead_some hlead
      all_goals rw [follow, if_neg hsecond]

theorem utf8EncodeChar_ascii {c : Char} (h : c.toNat < 0x80) :
    String.utf8EncodeChar c = [UInt8.ofNat c.toNat] := by
  unfold String.utf8EncodeChar
  exact if_pos (Nat.le_of_lt_succ h)

theorem utf8EncodeChar_head (c : Char) :
    ∃ b bs, String.utf8EncodeChar c = b :: bs ∧ ¬ (0x80 ≤ b.toNat ∧ b.toNat ≤ 0xBF) := by
  obtain ⟨b, bs, hbytes, hchunk⟩ := chunk_utf8EncodeChar c []
  refine ⟨b, bs, hbytes, fun hb => ?_⟩
  have hlead : lead b.toNat = none := by
    unfold lead
    rw [if_pos (by omega)]
  unfold chunk at hchunk
  rw [if_neg (by omega), hlead] at hchunk
  cases hchunk

theorem chunks_encode (s : Text) {fuel : ℕ} (h : (encode s).length ≤ fuel) :
    chunks fuel (encode s) = s.map some := by
  induction s generalizing fuel with
  | nil => cases fuel <;> rfl
  | cons c s ih =>
    obtain ⟨b, bs, hbytes, hchunk⟩ := chunk_utf8EncodeChar c (encode s)
    rw [encode_cons, hbytes] at h ⊢
    cases fuel with
    | zero => simp at h
    | succ fuel =>
      have hrest : (encode s).length ≤ fuel := by
        simp only [List.cons_append, List.length_cons, List.length_append] at h
        omega
      rw [List.cons_append, chunks, hchunk, ih hrest, List.map_cons]

theorem fromUtf8Lossy_encode (s : Text) : fromUtf8Lossy (encode s) = s := by
  unfold fromUtf8Lossy
  rw [chunks_encode s le_rfl, List.map_map]
  exact List.map_id s

end Reading

section Pieces

/-- A character, by all of its bytes, or one byte. -/
abbrev Piece : Type := Char ⊕ UInt8

def Piece.bytes : Piece → List UInt8
  | .inl c => String.utf8EncodeChar c
  | .inr b => [b]

def join (pieces : List Piece) : List UInt8 := pieces.flatMap Piece.bytes

@[simp] theorem join_nil : join [] = [] := rfl
@[simp] theorem join_cons (p : Piece) (ps : List Piece) : join (p :: ps) = p.bytes ++ join ps :=
  List.flatMap_cons

theorem join_chars (s : Text) : join (s.map .inl) = encode s := by
  induction s with
  | nil => rfl
  | cons c s ih =>
    rw [List.map_cons, join_cons, ih, encode_cons]
    exact rfl

/-- The bytes that follow a first byte are single: a whole character stops the reading. -/
theorem follow_join (n value : ℕ) {low high : ℕ} (hlow : 0x80 ≤ low) (hhigh : high ≤ 0xBF) (ps : List Piece) :
    ∃ qs, qs <:+ ps ∧ (follow n low high value (join ps)).2 = join qs := by
  induction n generalizing value low high ps with
  | zero => exact ⟨ps, List.suffix_rfl, rfl⟩
  | succ n ih =>
    cases ps with
    | nil => exact ⟨[], List.suffix_rfl, rfl⟩
    | cons p ps =>
      cases p with
      | inl c =>
        obtain ⟨b, bs, hbytes, hb⟩ := utf8EncodeChar_head c
        refine ⟨.inl c :: ps, List.suffix_rfl, ?_⟩
        rw [join_cons, Piece.bytes, hbytes, List.cons_append, follow, if_neg (by omega)]
      | inr b =>
        rw [join_cons, Piece.bytes, List.singleton_append, follow]
        split
        · obtain ⟨qs, hqs, hrest⟩ := ih (value * 64 + (b.toNat - 0x80)) le_rfl le_rfl ps
          exact ⟨qs, hqs.trans (List.suffix_cons _ ps), hrest⟩
        · exact ⟨.inr b :: ps, List.suffix_rfl, rfl⟩

theorem chunk_join (p : Piece) (ps : List Piece) :
    ∃ b bs qs, p.bytes = b :: bs ∧ qs <:+ ps ∧ (chunk b (bs ++ join ps)).2 = join qs := by
  cases p with
  | inl c =>
    obtain ⟨b, bs, hbytes, hchunk⟩ := chunk_utf8EncodeChar c (join ps)
    refine ⟨b, bs, ps, hbytes, List.suffix_rfl, ?_⟩
    rw [hchunk]
  | inr b =>
    unfold chunk
    by_cases hascii : b.toNat < 0x80
    · exact ⟨b, [], ps, rfl, List.suffix_rfl, by rw [if_pos hascii]; rfl⟩
    cases hlead : lead b.toNat with
    | none => exact ⟨b, [], ps, rfl, List.suffix_rfl, by rw [if_neg hascii, hlead]; rfl⟩
    | some l =>
      obtain ⟨more, low, high, value⟩ := l
      obtain ⟨hlow, hhigh, -⟩ := lead_some hlead
      obtain ⟨qs, hqs, hrest⟩ := follow_join more value hlow hhigh ps
      exact ⟨b, [], qs, rfl, hqs, by rw [if_neg hascii, hlead]; exact hrest⟩

theorem chunks_join_length (fuel : ℕ) (ps : List Piece) : (chunks fuel (join ps)).length ≤ ps.length := by
  induction fuel generalizing ps with
  | zero => cases h : join ps <;> simp [chunks]
  | succ fuel ih =>
    cases ps with
    | nil => simp [chunks]
    | cons p ps =>
      obtain ⟨b, bs, qs, hbytes, hqs, hrest⟩ := chunk_join p ps
      rw [join_cons, hbytes, List.cons_append, chunks, hrest, List.length_cons, List.length_cons]
      exact Nat.succ_le_succ ((ih qs).trans hqs.length_le)

theorem fromUtf8Lossy_join_length (ps : List Piece) : (fromUtf8Lossy (join ps)).length ≤ ps.length := by
  unfold fromUtf8Lossy
  rw [List.length_map]
  exact chunks_join_length _ ps

end Pieces

end SqlxMssql.Utf8Bytes
