import SqlxMssql.Foundations.Utf8Bytes

/-! # Texts and their UTF-16 units

The units of a text and their bytes in little-endian order, and the lossy reading of a
sequence of units.
-/
namespace SqlxMssql.Utf16
open Utf8

def encodeChar (c : Char) : List UInt16 :=
  if c.toNat < 0x10000 then [UInt16.ofNat c.toNat]
  else [UInt16.ofNat (0xD800 + (c.toNat - 0x10000) / 0x400), UInt16.ofNat (0xDC00 + (c.toNat - 0x10000) % 0x400)]

def encode (s : Text) : List UInt16 := s.flatMap encodeChar

@[simp] theorem encode_nil : encode [] = [] := rfl
@[simp] theorem encode_cons (c : Char) (s : Text) : encode (c :: s) = encodeChar c ++ encode s :=
  List.flatMap_cons

def IsHigh (u : UInt16) : Prop := 0xD800 ≤ u.toNat ∧ u.toNat < 0xDC00
def IsLow (u : UInt16) : Prop := 0xDC00 ≤ u.toNat ∧ u.toNat < 0xE000

instance (u : UInt16) : Decidable (IsHigh u) := inferInstanceAs (Decidable (_ ∧ _))
instance (u : UInt16) : Decidable (IsLow u) := inferInstanceAs (Decidable (_ ∧ _))

/-- The character of a unit by itself, which is not a surrogate. -/
def single (u : UInt16) : Char := if IsHigh u ∨ IsLow u then '\uFFFD' else Char.ofNat u.toNat

def paired (u v : UInt16) : Char := Char.ofNat (0x10000 + (u.toNat - 0xD800) * 0x400 + (v.toNat - 0xDC00))

/-- `String::from_utf16_lossy` -/
def fromUtf16Lossy : List UInt16 → Text
  | [] => []
  | [u] => [single u]
  | u :: v :: rest =>
    if IsHigh u ∧ IsLow v then paired u v :: fromUtf16Lossy rest else single u :: fromUtf16Lossy (v :: rest)

example : fromUtf16Lossy [0x61, 0xD83D, 0xDE00, 0xD83D, 0x62, 0xDE00] = "a😀\uFFFDb\uFFFD".toList := by decide

theorem unit_ofNat {n : ℕ} (h : n < 65536) : (UInt16.ofNat n).toNat = n := UInt16.toNat_ofNat_of_lt' h

theorem fromUtf16Lossy_single {u : UInt16} (h : ¬ IsHigh u) (rest : List UInt16) :
    fromUtf16Lossy (u :: rest) = single u :: fromUtf16Lossy rest := by
  cases rest with
  | nil => rfl
  | cons v rest => rw [fromUtf16Lossy, if_neg fun hpair => h hpair.1]

theorem fromUtf16Lossy_encode (s : Text) : fromUtf16Lossy (encode s) = s := by
  induction s with
  | nil => rfl
  | cons c s ih =>
    have hvalid : c.toNat < 0xD800 ∨ 0xDFFF < c.toNat ∧ c.toNat < 0x110000 := c.valid
    have hchar : Char.ofNat c.toNat = c := Char.ofNat_toNat c
    rw [encode_cons, encodeChar]
    by_cases hshort : c.toNat < 0x10000
    · have hunit : (UInt16.ofNat c.toNat).toNat = c.toNat := unit_ofNat hshort
      have hhigh : ¬ IsHigh (UInt16.ofNat c.toNat) := by
        unfold IsHigh
        omega
      have hlow : ¬ IsLow (UInt16.ofNat c.toNat) := by
        unfold IsLow
        omega
      rw [if_pos hshort, List.singleton_append, fromUtf16Lossy_single hhigh, ih, single,
        if_neg (not_or.mpr ⟨hhigh, hlow⟩), hunit, hchar]
    · have hhigh : (UInt16.ofNat (0xD800 + (c.toNat - 0x10000) / 0x400)).toNat =
          0xD800 + (c.toNat - 0x10000) / 0x400 := unit_ofNat (by omega)
      have hlow : (UInt16.ofNat (0xDC00 + (c.toNat - 0x10000) % 0x400)).toNat =
          0xDC00 + (c.toNat - 0x10000) % 0x400 := unit_ofNat (by omega)
      have hvalue : 0x10000 + (0xD800 + (c.toNat - 0x10000) / 0x400 - 0xD800) * 0x400 +
          (0xDC00 + (c.toNat - 0x10000) % 0x400 - 0xDC00) = c.toNat := by omega
      rw [if_neg hshort, List.cons_append, List.singleton_append, fromUtf16Lossy, if_pos, ih, paired, hhigh, hlow,
        hvalue, hchar]
      unfold IsHigh IsLow
      omega

/-- The low byte comes first. -/
def unitBytes (u : UInt16) : List UInt8 := [UInt8.ofNat (u.toNat % 256), UInt8.ofNat (u.toNat / 256)]

def encodeLe (s : Text) : List UInt8 := (encode s).flatMap unitBytes

/-- The units of the pairs of bytes; a last byte without a partner is left out. -/
def units : List UInt8 → List UInt16
  | low :: high :: rest => UInt16.ofNat (low.toNat + 256 * high.toNat) :: units rest
  | _ => []

theorem units_flatMap (us : List UInt16) : units (us.flatMap unitBytes) = us := by
  induction us with
  | nil => rfl
  | cons u us ih =>
    have hu := u.toNat_lt
    have hlow : (UInt8.ofNat (u.toNat % 256)).toNat = u.toNat % 256 := Utf8Bytes.toNat_of_ofNat (by omega)
    have hhigh : (UInt8.ofNat (u.toNat / 256)).toNat = u.toNat / 256 := Utf8Bytes.toNat_of_ofNat (by omega)
    rw [List.flatMap_cons, unitBytes, List.cons_append, List.singleton_append, units, ih, hlow, hhigh,
      Nat.mod_add_div, UInt16.ofNat_toNat]

end SqlxMssql.Utf16
