/-! Strings in JSON: the characters between the quotes, written and read. -/
namespace Placeholder.Json

def escape : Char → List Char
  | '\x22' => ['\\', '\x22']
  | '\\' => ['\\', '\\']
  | '\x08' => ['\\', 'b']
  | '\t' => ['\\', 't']
  | '\n' => ['\\', 'n']
  | '\x0c' => ['\\', 'f']
  | '\r' => ['\\', 'r']
  | c =>
    if c.toNat < 32 then
      ['\\', 'u', '0', '0', Nat.digitChar (c.toNat / 16), Nat.digitChar (c.toNat % 16)]
    else [c]

def quote (text : String) : List Char :=
  '\x22' :: text.toList.flatMap escape ++ ['\x22']

def hexDigit? (c : Char) : Option Nat :=
  if c.isDigit then some (c.toNat - '0'.toNat)
  else if 'a' ≤ c ∧ c ≤ 'f' then some (c.toNat - 'a'.toNat + 10)
  else if 'A' ≤ c ∧ c ≤ 'F' then some (c.toNat - 'A'.toNat + 10)
  else none

def codeUnit? : List Char → Option (Nat × List Char)
  | a :: b :: c :: d :: rest => do
    let a ← hexDigit? a
    let b ← hexDigit? b
    let c ← hexDigit? c
    let d ← hexDigit? d
    return (((a * 16 + b) * 16 + c) * 16 + d, rest)
  | _ => none

/-- The character that follows a backslash and the letter u, given by one unit of sixteen bits, or by two
that make a surrogate pair. -/
def unicodeEscape? (cs : List Char) : Option (Char × List Char) :=
  match codeUnit? cs with
  | none => none
  | some (high, rest) =>
    if high < 0xD800 ∨ 0xE000 ≤ high then some (Char.ofNat high, rest)
    else if high < 0xDC00 then
      match rest with
      | '\\' :: 'u' :: rest =>
        match codeUnit? rest with
        | some (low, rest) =>
          if 0xDC00 ≤ low ∧ low < 0xE000 then
            some (Char.ofNat (0x10000 + (high - 0xD800) * 0x400 + (low - 0xDC00)), rest)
          else none
        | none => none
      | _ => none
    else none

def shortEscape? : Char → Option Char
  | '\x22' => some '\x22'
  | '\\' => some '\\'
  | '/' => some '/'
  | 'b' => some '\x08'
  | 'f' => some '\x0c'
  | 'n' => some '\n'
  | 'r' => some '\r'
  | 't' => some '\t'
  | _ => none

/-- The character that a backslash before the text stands for, and the text after it. -/
def unescape? : List Char → Option (Char × List Char)
  | [] => none
  | c :: rest => if c = 'u' then unicodeEscape? rest else (shortEscape? c).map (·, rest)

private theorem length_le_of_codeUnit? {cs rest : List Char} {n : Nat} (h : codeUnit? cs = some (n, rest)) :
    rest.length ≤ cs.length := by
  unfold codeUnit? at h
  split at h
  · simp only [bind, pure, Option.bind_eq_some_iff, Option.some.injEq, Prod.mk.injEq] at h
    obtain ⟨_, _, _, _, _, _, _, _, _, rfl⟩ := h
    simp
    omega
  · simp at h

private theorem length_le_of_unicodeEscape? {cs rest : List Char} {c : Char}
    (h : unicodeEscape? cs = some (c, rest)) : rest.length ≤ cs.length := by
  unfold unicodeEscape? at h
  split at h
  · simp at h
  · next high rest' hhigh =>
    have hle := length_le_of_codeUnit? hhigh
    split at h
    · simp only [Option.some.injEq, Prod.mk.injEq] at h
      exact h.2 ▸ hle
    · split at h
      · split at h
        · next rest'' =>
          split at h
          · next low _ hlow =>
            have hle' := length_le_of_codeUnit? hlow
            split at h
            · simp only [Option.some.injEq, Prod.mk.injEq] at h
              simp only [← h.2, List.length_cons] at hle hle' ⊢
              omega
            · simp at h
          · simp at h
        · simp at h
      · simp at h

private theorem length_lt_of_unescape? {cs rest : List Char} {c : Char} (h : unescape? cs = some (c, rest)) :
    rest.length < cs.length := by
  cases cs with
  | nil => simp [unescape?] at h
  | cons d ds =>
    simp only [unescape?] at h
    split at h
    · exact Nat.lt_succ_of_le (length_le_of_unicodeEscape? h)
    · obtain ⟨_, _, heq⟩ := Option.map_eq_some_iff.1 h
      cases heq
      simp

/-- The text up to the closing quote, and what follows the quote. Control characters must be escaped. -/
def readQuoted (cs : List Char) : Option (List Char × List Char) :=
  match cs with
  | [] => none
  | c :: cs =>
    if c = '\x22' then some ([], cs)
    else if c = '\\' then
      match _ : unescape? cs with
      | some (d, rest) => (readQuoted rest).map fun (text, rest) => (d :: text, rest)
      | none => none
    else if c.toNat < 32 then none
    else (readQuoted cs).map fun (text, rest) => (c :: text, rest)
termination_by cs.length
decreasing_by
  · exact Nat.lt_succ_of_lt (length_lt_of_unescape? ‹_›)
  · simp

end Placeholder.Json
