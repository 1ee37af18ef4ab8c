import Placeholder.Listing
import Placeholder.Proofs.JsonScalars
import Placeholder.Proofs.Splitting

/-!
Listings for people, line by line: after the query a line for each binding, which is a comment of SQL. It stays
one line as long as no text among the values has a line break.
-/
namespace Placeholder

def unlines (lines : List String) : String :=
  String.join (lines.map (· ++ "\n"))

@[simp] theorem unlines_nil : unlines [] = "" := rfl

theorem toList_unlines (lines : List String) :
    (unlines lines).toList = lines.flatMap fun line => line.toList ++ ['\n'] := by
  simp [unlines, String.toList_join, List.flatMap_map]

theorem unlines_cons (line : String) (lines : List String) :
    unlines (line :: lines) = line ++ "\n" ++ unlines lines := by
  simp [← String.toList_inj, toList_unlines]

theorem unlines_append (lines lines' : List String) : unlines (lines ++ lines') = unlines lines ++ unlines lines' := by
  simp [← String.toList_inj, toList_unlines]

/-! Stretches between separators. -/

section Parts

variable {separator c : Char} {text : List Char}

theorem splitOn_cons_self : (separator :: text).splitOn separator = [] :: text.splitOn separator := by
  simp [List.splitOn_eq_splitOnP, List.splitOnP_cons_eq_if_modifyHead]

theorem splitOn_cons_of_ne (hc : c ≠ separator) :
    (c :: text).splitOn separator = (text.splitOn separator).modifyHead (c :: ·) := by
  simp [List.splitOn_eq_splitOnP, List.splitOnP_cons_eq_if_modifyHead, hc]

theorem exists_splitOn_eq_cons : ∃ part parts, text.splitOn separator = part :: parts :=
  List.exists_cons_of_ne_nil (List.splitOn_ne_nil separator text)

/-- With the same two texts around it and in place of each separator a text is its stretches between the two. -/
theorem surround_eq_flatMap (before after : List Char) :
    before ++ text.flatMap (fun c => if c = separator then after ++ before else [c]) ++ after =
      (text.splitOn separator).flatMap fun part => before ++ part ++ after := by
  induction text with
  | nil => simp
  | cons c text ih =>
    by_cases hc : c = separator
    · subst hc
      rw [splitOn_cons_self, List.flatMap_cons, List.flatMap_cons, ← ih]
      simp
    · obtain ⟨part, parts, hparts⟩ : ∃ part parts, text.splitOn separator = part :: parts := exists_splitOn_eq_cons
      rw [hparts, List.flatMap_cons] at ih
      rw [splitOn_cons_of_ne hc, hparts, List.modifyHead_cons, List.flatMap_cons, List.flatMap_cons, if_neg hc]
      simp only [List.append_assoc, List.cons_append, List.nil_append] at ih ⊢
      rw [List.append_cancel_left ih]

end Parts

/-! Literals on one line. -/

def Unbroken (text : String) : Prop :=
  '\n' ∉ text.toList

instance (text : String) : Decidable (Unbroken text) :=
  inferInstanceAs (Decidable ('\n' ∉ text.toList))

/-- Unbroken lines are what stands between the line breaks, with nothing behind the last. -/
theorem splitOn_unlines {lines : List String} (h : ∀ line ∈ lines, Unbroken line) :
    (unlines lines).toList.splitOn '\n' = lines.map String.toList ++ [[]] := by
  rw [List.splitOn_eq_splitOnP, toList_unlines]
  induction lines with
  | nil => rfl
  | cons line lines ih =>
    obtain ⟨hline, hlines⟩ := List.forall_mem_cons.mp h
    have hfirst : ∀ c ∈ line.toList, (c == '\n') = false := by
      intro c hc
      simpa using ne_of_mem_of_not_mem hc hline
    rw [List.flatMap_cons, List.append_assoc, List.singleton_append,
      List.splitOnP_append_cons_of_forall_mem hfirst _ (beq_self_eq_true '\n'), ih hlines]
    rfl

@[simp] theorem unbroken_append {s t : String} : Unbroken (s ++ t) ↔ Unbroken s ∧ Unbroken t := by
  simp [Unbroken]

private theorem newline_not_mem_toDigits (n : Nat) : '\n' ∉ Nat.toDigits 10 n := by
  intro h
  exact absurd (Json.isDigit_of_mem_toDigits h) (by decide)

theorem unbroken_toString_nat (n : Nat) : Unbroken (toString n) := by
  simpa [Unbroken] using newline_not_mem_toDigits n

theorem unbroken_toString_int (n : Int) : Unbroken (toString n) := by
  rw [Unbroken, Json.toList_toString, List.mem_append, not_or]
  exact ⟨by split <;> simp, newline_not_mem_toDigits _⟩

private theorem unbroken_plain (x : Decimal.Scaled) : Unbroken (Decimal.plain "" x) := by
  have hdigits := newline_not_mem_toDigits x.digits
  have htake : ∀ n, '\n' ∉ (Nat.toDigits 10 x.digits).take n := fun n h => hdigits (List.mem_of_mem_take h)
  have hdrop : ∀ n, '\n' ∉ (Nat.toDigits 10 x.digits).drop n := fun n h => hdigits (List.mem_of_mem_drop h)
  unfold Decimal.plain Unbroken
  dsimp only
  split
  · simp [hdigits]
  · split <;> simp [hdigits, htake, hdrop]

theorem unbroken_floatLiteral (x : Float) : Unbroken (Value.floatLiteral.render x) := by
  unfold Decimal.Layout.render
  cases Decimal.read x with
  | nan => decide
  | infinite negative => cases negative <;> decide
  | zero negative => cases negative <;> decide
  | finite negative m =>
    rw [unbroken_append]
    exact ⟨by cases negative <;> decide, unbroken_plain _⟩

private theorem newline_mem_doubleQuotes {text : List Char} : '\n' ∈ Value.doubleQuotes text ↔ '\n' ∈ text := by
  simp only [Value.doubleQuotes, List.mem_flatMap]
  constructor
  · rintro ⟨c, hc, hmem⟩
    split at hmem <;> simp at hmem
    exact hmem ▸ hc
  · exact fun h => ⟨'\n', h, by decide⟩

private theorem newline_not_mem_hexByte (byte : UInt8) : '\n' ∉ Value.hexByte byte := by
  have hdigit : ∀ n < 16, (Nat.digitChar n).toUpper ≠ '\n' := by decide
  have hlt := byte.toNat_lt
  simp only [Value.hexByte, List.mem_cons, List.not_mem_nil, or_false, not_or]
  exact ⟨(hdigit _ (by omega)).symm, (hdigit _ (by omega)).symm⟩

namespace Value

def Unbroken : Value → Prop
  | .text s => Placeholder.Unbroken s
  | _ => True

/-- Of all values only text has line breaks in its literal, and only its own. -/
theorem unbroken_literal_iff {v : Value} : Placeholder.Unbroken v.literal ↔ v.Unbroken := by
  cases v with
  | null => simp [Unbroken, Placeholder.Unbroken, literal]
  | bool b => cases b <;> simp [Unbroken, Placeholder.Unbroken, literal]
  | int n => simpa [Unbroken, literal] using unbroken_toString_int n.toInt
  | float x => simpa [Unbroken, literal] using unbroken_floatLiteral x
  | text s => simp [Unbroken, Placeholder.Unbroken, literal, newline_mem_doubleQuotes]
  | blob bytes => simp [Unbroken, Placeholder.Unbroken, literal, newline_not_mem_hexByte]

end Value

def Binding.Unbroken (b : Binding Value) : Prop :=
  ∀ v ∈ b.values, v.Unbroken

theorem unbroken_intercalate_iff {parts : List String} :
    Unbroken (", ".intercalate parts) ↔ ∀ part ∈ parts, Unbroken part := by
  induction parts with
  | nil => simp [Unbroken]
  | cons part parts ih =>
    cases parts with
    | nil => simp
    | cons part' parts =>
      have hcomma : Unbroken ", " := by decide
      rw [String.intercalate_cons_cons, unbroken_append, unbroken_append, ih, List.forall_mem_cons (a := part)]
      simp [hcomma]

theorem Binding.unbroken_literal_iff {b : Binding Value} : Placeholder.Unbroken (Listing.literal b) ↔ b.Unbroken := by
  cases b with
  | scalar v => simp [Binding.Unbroken, values, Listing.literal, Value.unbroken_literal_iff]
  | sequence vs =>
    have hopen : Placeholder.Unbroken "(" := by decide
    have hclose : Placeholder.Unbroken ")" := by decide
    simp [Binding.Unbroken, values, Listing.literal, hopen, hclose, unbroken_intercalate_iff,
      Value.unbroken_literal_iff]

/-! Lines of literals. -/

namespace Listing

def literalLine (k : Nat) (literal : String) : String :=
  "-- " ++ toString k ++ ": " ++ literal

theorem literalLines_eq_unlines (k : Nat) (literals : List String) :
    literalLines k literals = unlines ((literals.zipIdx k).map fun (literal, k) => literalLine k literal) := by
  induction literals generalizing k with
  | nil => rfl
  | cons literal literals ih =>
    rw [literalLines, ih, List.zipIdx_cons, List.map_cons, unlines_cons]
    rfl

/-- The output is the query and, behind a line break, a line for each literal: with the number of the literal
after two dashes at its front, and with the literal in it. -/
structure OnePerLine (query : String) (literals : List String) (output : String) (lines : List String) : Prop where
  output_eq : output = query ++ "\n" ++ unlines lines
  length_eq : lines.length = literals.length
  unbroken : ∀ line ∈ lines, Unbroken line
  label : ∀ k line literal, lines[k]? = some line → literals[k]? = some literal →
    ∃ before after, line = "-- " ++ toString (k + 1) ++ ": " ++ before ++ literal ++ after

/-- There is a line for each literal as long as no literal is broken. -/
theorem exists_onePerLine_iff {query : String} {literals : List String} :
    (∃ lines, OnePerLine query literals (withLiterals query literals) lines) ↔
      ∀ literal ∈ literals, Unbroken literal := by
  constructor
  · -- A literal is part of its line, and no line is broken.
    rintro ⟨lines, h⟩ literal hmem
    obtain ⟨k, hk⟩ := List.mem_iff_getElem?.mp hmem
    obtain ⟨hlt, -⟩ := List.getElem?_eq_some_iff.mp hk
    obtain ⟨line, hline⟩ : ∃ line, lines[k]? = some line := ⟨_, List.getElem?_eq_getElem (h.length_eq ▸ hlt)⟩
    obtain ⟨before, after, rfl⟩ := h.label k line literal hline hk
    have hunbroken := h.unbroken _ (List.mem_of_getElem? hline)
    simp only [unbroken_append] at hunbroken
    exact hunbroken.1.2
  · intro h
    refine ⟨(literals.zipIdx 1).map fun (literal, k) => literalLine k literal, ?_, ?_, ?_, ?_⟩
    · rw [withLiterals, literalLines_eq_unlines]
    · simp
    · intro line hline
      obtain ⟨⟨literal, k⟩, hmem, rfl⟩ := List.mem_map.mp hline
      have hliteral := h literal (List.fst_mem_of_mem_zipIdx hmem)
      simp only [literalLine, unbroken_append]
      exact ⟨⟨⟨by decide, unbroken_toString_nat k⟩, by decide⟩, hliteral⟩
    · intro k line literal hline hliteral
      rw [List.getElem?_map, List.getElem?_zipIdx, hliteral] at hline
      refine ⟨"", "", ?_⟩
      cases hline
      simp [literalLine, Nat.add_comm]

end Listing

/-! Lines of comments. -/

/-- The line is a comment of SQL: two dashes and what follows them up to the line break. -/
structure IsComment (line : String) : Prop where
  dashes : ∃ cs, line.toList = '-' :: '-' :: cs
  unbroken : Unbroken line

private theorem split_comment {line : String} (h : IsComment line) (rest : List Char) :
    Piece.split Form.all (line.toList ++ '\n' :: rest) =
      .lexeme (.plain (line.toList ++ ['\n'])) :: Piece.split Form.all rest := by
  obtain ⟨cs, hcs⟩ := h.dashes
  have hunbroken : '\n' ∉ cs := fun hmem => h.unbroken (by simp [hcs, hmem])
  have hcovers : Form.lineComment.Covers (.plain ('-' :: '-' :: (cs ++ ['\n']))) rest :=
    .lineComment (Or.inr ⟨cs, rfl, hunbroken⟩)
  have hsplit := Piece.split_lexeme hcovers
  simpa [Lexeme.plain, hcs] using hsplit

/-- Lines of comments hold no parameter: each line is a token of plain text. -/
theorem lex_unlines {lines : List String} (h : ∀ line ∈ lines, IsComment line) :
    (lex (unlines lines)).map (fun t => (t.kind, t.text)) = lines.map fun line => (.other, line ++ "\n") := by
  suffices hstart : ∀ start, (Piece.tokens start (Piece.split Form.all (unlines lines).toList)).map
      (fun t => (t.kind, t.text)) = lines.map fun line => (.other, line ++ "\n") from hstart 0
  induction lines with
  | nil => simp [Piece.split, Piece.tokens]
  | cons line lines ih =>
    intro start
    obtain ⟨hline, hlines⟩ := List.forall_mem_cons.mp h
    have hfront : (unlines (line :: lines)).toList = line.toList ++ '\n' :: (unlines lines).toList := by
      simp [unlines_cons]
    rw [hfront, split_comment hline, Piece.tokens, List.map_cons, ih hlines]
    simp [Piece.token, Lexeme.plain]

namespace Listing

theorem OnePerLine.isComment {query output : String} {literals lines : List String}
    (h : OnePerLine query literals output lines) : ∀ line ∈ lines, IsComment line := by
  intro line hmem
  obtain ⟨k, hk⟩ := List.mem_iff_getElem?.mp hmem
  obtain ⟨hlt, -⟩ := List.getElem?_eq_some_iff.mp hk
  obtain ⟨before, after, hline⟩ := h.label k line _ hk (List.getElem?_eq_getElem (h.length_eq ▸ hlt))
  obtain ⟨text, htext⟩ : ∃ text, line = "-- " ++ text := ⟨_, by rw [hline]; simp only [String.append_assoc]; rfl⟩
  exact ⟨⟨' ' :: text.toList, by rw [htext, String.toList_append]; rfl⟩, h.unbroken line hmem⟩

/-- Bindings and values are listed one to a line just when none of their texts has a line break. Then all that
is printed after the query is comments. -/
theorem onePerLine_iff (query : String) (bindings : List (Binding Value)) (values : List Value) :
    ((∃ lines, OnePerLine query (bindings.map literal) (resolved .text ⟨query, bindings⟩) lines) ↔
        ∀ b ∈ bindings, b.Unbroken) ∧
      ((∃ lines, OnePerLine query (values.map Value.literal) (expanded .text ⟨query, values⟩) lines) ↔
        ∀ v ∈ values, v.Unbroken) ∧
      ∀ literals output lines, OnePerLine query literals output lines →
        (lex (unlines lines)).map (fun t => (t.kind, t.text)) = lines.map fun line => (.other, line ++ "\n") := by
  refine ⟨?_, ?_, fun literals output lines h => lex_unlines h.isComment⟩
  · rw [resolved, exists_onePerLine_iff, List.forall_mem_map]
    simp only [Binding.unbroken_literal_iff]
  · rw [expanded, exists_onePerLine_iff, List.forall_mem_map]
    simp only [Value.unbroken_literal_iff]

/-- A line break in a text goes out as it is: what is behind it stands on a line of its own, which is no comment. -/
theorem not_onePerLine_of_line_break :
    resolved .text ⟨"a = ?", [.scalar (.text "x\ny")]⟩ = "a = ?\n-- 1: 'x\ny'\n" ∧
      ¬ ∃ lines, OnePerLine "a = ?" ([.scalar (.text "x\ny")].map literal)
        (resolved .text ⟨"a = ?", [.scalar (.text "x\ny")]⟩) lines := by
  refine ⟨by decide, ?_⟩
  rw [resolved, exists_onePerLine_iff]
  decide

end Listing
end Placeholder
