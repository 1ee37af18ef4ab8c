/-! Byte positions in text: widths in UTF-8 and cuts at character boundaries. -/
namespace Placeholder.Text

/-- The number of bytes that the characters take in UTF-8. -/
def width : List Char → Nat
  | [] => 0
  | c :: cs => c.utf8Size + width cs

@[simp] theorem width_nil : width [] = 0 := rfl

@[simp] theorem width_cons (c : Char) (cs : List Char) : width (c :: cs) = c.utf8Size + width cs := rfl

@[simp] theorem width_append (cs ds : List Char) : width (cs ++ ds) = width cs + width ds := by
  induction cs with
  | nil => simp
  | cons c cs ih => simp [ih, Nat.add_assoc]

theorem width_pos {cs : List Char} (h : cs ≠ []) : 0 < width cs := by
  obtain ⟨c, ds, rfl⟩ := List.exists_cons_of_ne_nil h
  have := c.utf8Size_pos
  rw [width_cons]
  omega

/-- The width is the size of the string that the characters make. -/
theorem width_eq_utf8ByteSize (cs : List Char) : width cs = (String.ofList cs).utf8ByteSize := by
  induction cs with
  | nil => simp
  | cons c cs ih =>
    have hcons : String.ofList (c :: cs) = String.singleton c ++ String.ofList cs := by simp
    rw [width_cons, ih, hcons, String.utf8ByteSize_append, String.utf8ByteSize_singleton]

@[simp] theorem width_toList (s : String) : width s.toList = s.utf8ByteSize := by
  simp [width_eq_utf8ByteSize]

/-- The text before and after byte `n`, when a character boundary lies there. -/
def splitAt? : Nat → List Char → Option (List Char × List Char)
  | 0, cs => some ([], cs)
  | _ + 1, [] => none
  | n + 1, c :: cs =>
    if c.utf8Size ≤ n + 1 then
      (splitAt? (n + 1 - c.utf8Size) cs).map fun (before, after) => (c :: before, after)
    else none

/-- A cut loses nothing, and its first part has the width asked for. -/
theorem splitAt?_eq_some_iff {n : Nat} {cs before after : List Char} :
    splitAt? n cs = some (before, after) ↔ cs = before ++ after ∧ width before = n := by
  fun_induction splitAt? n cs generalizing before with
  | case1 cs =>
    cases before with
    | nil => simp [eq_comm]
    | cons c cs =>
      have := c.utf8Size_pos
      simp
      omega
  | case2 n => cases before <;> simp
  | case3 n c cs hle ih =>
    cases before with
    | nil => simp
    | cons d ds =>
      have hw : width ds = n + 1 - c.utf8Size ↔ c.utf8Size + width ds = n + 1 := by omega
      constructor
      · intro h
        obtain ⟨⟨b, a⟩, hs, heq⟩ := Option.map_eq_some_iff.1 h
        cases heq
        obtain ⟨rfl, hb⟩ := ih.1 hs
        exact ⟨rfl, by simpa using hw.1 hb⟩
      · rintro ⟨heq, hd⟩
        cases heq
        rw [ih.2 ⟨rfl, hw.2 (by simpa using hd)⟩]
        rfl
  | case4 n c cs hlt =>
    cases before with
    | nil => simp
    | cons d ds =>
      simp
      rintro rfl _
      omega

end Placeholder.Text
