import Placeholder.Environment
import Mathlib.Algebra.Group.Nat.Defs

/-!
The order of names. Strings compare as the rows of their bytes in UTF-8 do.
-/
namespace Placeholder.Text

def bytes (s : String) : List UInt8 :=
  s.toByteArray.data.toList

private theorem bytes_eq_flatMap (s : String) : bytes s = s.toList.flatMap String.utf8EncodeChar := by
  rw [bytes, ← String.utf8Encode_toList, List.utf8Encode, List.data_toByteArray, List.toList_toArray]

/-- The bytes after the first for a code point: its last `n` digits to the base 64. -/
def trail : Nat → Nat → List UInt8
  | 0, _ => []
  | n + 1, v => UInt8.ofNat (v / 64 ^ n % 64 + 128) :: trail n v

private theorem cons_lt_of_toNat {a b : Nat} {x y : List UInt8} (hb : b < 256) (h : a < b ∨ a = b ∧ x < y) :
    UInt8.ofNat a :: x < UInt8.ofNat b :: y := by
  rw [List.cons_lt_cons_iff]
  rcases h with h | ⟨rfl, h⟩
  · left
    rw [UInt8.lt_iff_toNat_lt, UInt8.toNat_ofNat', UInt8.toNat_ofNat']
    omega
  · exact Or.inr ⟨rfl, h⟩

private theorem trail_lt {n v w : Nat} (h : v % 64 ^ n < w % 64 ^ n) (x y : List UInt8) :
    trail n v ++ x < trail n w ++ y := by
  induction n with
  | zero => simp [Nat.mod_one] at h
  | succ n ih =>
    have hv := Nat.mod_pow_succ (b := 64) (x := v) (k := n)
    have hw := Nat.mod_pow_succ (b := 64) (x := w) (k := n)
    refine cons_lt_of_toNat (by omega) ?_
    rcases Nat.lt_trichotomy (v / 64 ^ n % 64) (w / 64 ^ n % 64) with hlt | heq | hgt
    · exact Or.inl (by omega)
    · refine Or.inr ⟨by rw [heq], ih ?_⟩
      rw [hv, hw, heq] at h
      omega
    · -- Then the digits before would be the greater ones.
      have hle := Nat.mul_le_mul_left (64 ^ n) (Nat.succ_le_of_lt hgt)
      have hmod := Nat.mod_lt w (Nat.pow_pos (n := n) (by decide : 0 < 64))
      rw [hv, hw] at h
      rw [Nat.mul_succ] at hle
      omega

def trailing (v : Nat) : Nat :=
  if v ≤ 0x7f then 0 else if v ≤ 0x7ff then 1 else if v ≤ 0xffff then 2 else 3

/-- The first byte for a code point. It tells how many follow, and begins with the first digits. -/
def lead (v : Nat) : Nat :=
  if v ≤ 0x7f then v
  else if v ≤ 0x7ff then v / 64 + 0xc0
  else if v ≤ 0xffff then v / 4096 + 0xe0
  else v / 262144 + 0xf0

theorem toNat_lt (c : Char) : c.toNat < 0x110000 := by
  rcases c.valid with h | h
  · exact Nat.lt_trans h (by decide)
  · exact h.2

private theorem utf8EncodeChar_eq (c : Char) :
    String.utf8EncodeChar c = UInt8.ofNat (lead c.toNat) :: trail (trailing c.toNat) c.toNat := by
  have hlt := toNat_lt c
  have hval : c.val.toNat = c.toNat := rfl
  simp only [String.utf8EncodeChar, lead, trailing, hval]
  by_cases h1 : c.toNat ≤ 0x7f
  · simp [h1, trail]
  by_cases h2 : c.toNat ≤ 0x7ff
  · simp [h1, h2, trail, Nat.mod_eq_of_lt (show c.toNat / 64 < 32 by omega)]
  by_cases h3 : c.toNat ≤ 0xffff
  · simp [h1, h2, h3, trail, Nat.mod_eq_of_lt (show c.toNat / 4096 < 16 by omega)]
  · simp [h1, h2, h3, trail, Nat.mod_eq_of_lt (show c.toNat / 262144 < 8 by omega)]

private theorem lead_lt_or {v w : Nat} (h : v < w) (hw : w < 0x110000) :
    lead v < lead w ∨
      lead v = lead w ∧ trailing v = trailing w ∧ v % 64 ^ trailing w < w % 64 ^ trailing w := by
  unfold lead trailing
  by_cases h1 : w ≤ 0x7f
  · simp only [h1, if_true, show v ≤ 0x7f by omega]
    omega
  by_cases h2 : w ≤ 0x7ff
  · simp only [h1, h2, if_true, if_false, show v ≤ 0x7ff by omega]
    split <;> omega
  by_cases h3 : w ≤ 0xffff
  · simp only [h1, h2, h3, if_true, if_false, show v ≤ 0xffff by omega]
    split
    · omega
    · split <;> omega
  · simp only [h1, h2, h3, if_false]
    split
    · omega
    · split
      · omega
      · split <;> omega

private theorem lead_lt {v : Nat} (h : v < 0x110000) : lead v < 256 := by
  unfold lead
  split
  · omega
  · split
    · omega
    · split <;> omega

private theorem utf8EncodeChar_append_lt {c d : Char} (h : c < d) (x y : List UInt8) :
    String.utf8EncodeChar c ++ x < String.utf8EncodeChar d ++ y := by
  have hlt : c.toNat < d.toNat := UInt32.lt_iff_toNat_lt.mp h
  rw [utf8EncodeChar_eq, utf8EncodeChar_eq]
  apply cons_lt_of_toNat (lead_lt (toNat_lt d))
  rcases lead_lt_or hlt (toNat_lt d) with hlead | ⟨hlead, htrailing, hmod⟩
  · exact Or.inl hlead
  · refine Or.inr ⟨hlead, ?_⟩
    rw [htrailing]
    exact trail_lt hmod x y

private theorem utf8EncodeChar_ne_nil (c : Char) : String.utf8EncodeChar c ≠ [] := by
  rw [utf8EncodeChar_eq]
  exact List.cons_ne_nil _ _

/-- Names in order are in the order of their bytes. -/
theorem bytes_lt_of_lt {s t : String} (h : s < t) : bytes s < bytes t := by
  have hl : s.toList < t.toList := h
  rw [bytes_eq_flatMap, bytes_eq_flatMap]
  generalize s.toList = l at hl
  generalize t.toList = m at hl
  induction hl with
  | @nil c cs =>
    obtain ⟨b, bs, hb⟩ := List.exists_cons_of_ne_nil (utf8EncodeChar_ne_nil c)
    rw [List.flatMap_nil, List.flatMap_cons, hb]
    exact List.Lex.nil
  | rel h => exact utf8EncodeChar_append_lt h _ _
  | cons h ih =>
    rw [List.flatMap_cons, List.flatMap_cons]
    exact List.append_left_lt ih

end Placeholder.Text
