import Placeholder.Proofs.Lines
import Placeholder.Proofs.Relexing
import Placeholder.Proofs.Tiling
import Placeholder.Value

/-!
Quoted texts whose own quotes are doubled. The lexer knows no doubled quote: it closes the text at the first of
the two and opens another one at the second. So the text between the quotes falls into adjacent quoted texts, one
for each stretch without the quote, and all of it is hidden.
-/
namespace Placeholder
open Form Lexeme

/-- The text between quotes, with each quote in it doubled. -/
def enclose (quote : Char) (text : List Char) : List Char :=
  quote :: text.flatMap (fun c => if c = quote then [quote, quote] else [c]) ++ [quote]

/-- Values of text are written in this way. -/
theorem literal_text_eq_enclose (s : String) : (Value.text s).literal = String.ofList (enclose '\x27' s.toList) :=
  rfl

/-- A stretch without the quote, between quotes. -/
def enclosed (quote : Char) (part : List Char) : List Char :=
  quote :: (part ++ [quote])

section Parts

variable {quote c : Char} {text : List Char}

/-- The enclosed text is the stretches between its quotes, each enclosed, one after the other. -/
theorem enclose_eq_flatMap : enclose quote text = (text.splitOn quote).flatMap (enclosed quote) :=
  surround_eq_flatMap [quote] [quote]

private theorem length_splitOn : (text.splitOn quote).length = text.count quote + 1 := by
  induction text with
  | nil => rfl
  | cons c text ih =>
    by_cases hc : c = quote
    · rw [hc, splitOn_cons_self, List.length_cons, ih, List.count_cons_self]
    · rw [splitOn_cons_of_ne hc, List.length_modifyHead, ih, List.count_cons_of_ne hc]

private theorem mem_of_mem_splitOn {part : List Char} (hpart : part ∈ text.splitOn quote) (hc : c ∈ part) :
    c ∈ text ∧ c ≠ quote := by
  induction text generalizing part with
  | nil =>
    rw [List.mem_singleton.mp hpart] at hc
    cases hc
  | cons d text ih =>
    by_cases hd : d = quote
    · rw [hd, splitOn_cons_self] at hpart
      rcases List.mem_cons.mp hpart with rfl | hpart
      · cases hc
      · obtain ⟨hmem, hne⟩ := ih hpart hc
        exact ⟨List.mem_cons_of_mem d hmem, hne⟩
    · obtain ⟨first, parts, hparts⟩ : ∃ first parts, text.splitOn quote = first :: parts := exists_splitOn_eq_cons
      rw [splitOn_cons_of_ne hd, hparts, List.modifyHead_cons] at hpart
      rw [hparts] at ih
      rcases List.mem_cons.mp hpart with rfl | hpart
      · rcases List.mem_cons.mp hc with rfl | hc
        · exact ⟨List.mem_cons_self, hd⟩
        · obtain ⟨hmem, hne⟩ := ih List.mem_cons_self hc
          exact ⟨List.mem_cons_of_mem d hmem, hne⟩
      · obtain ⟨hmem, hne⟩ := ih (List.mem_cons_of_mem first hpart) hc
        exact ⟨List.mem_cons_of_mem d hmem, hne⟩

end Parts

private theorem quotedBody_of_not_mem {quote : Char} {part : List Char} (h : ∀ c ∈ part, c ≠ quote ∧ c ≠ '\\') :
    QuotedBody quote (part ++ [quote]) := by
  induction part with
  | nil => exact .close
  | cons c part ih =>
    obtain ⟨⟨hquote, hbackslash⟩, hpart⟩ := List.forall_mem_cons.mp h
    exact .other hquote hbackslash (ih hpart)

/-- Each of the three quotes has its form. -/
theorem exists_covers_of_quotedBody {quote : Char} (hq : quote ∈ ['\x27', '\x22', '\x60']) {body : List Char}
    (hb : QuotedBody quote body) (rest : List Char) : ∃ form : Form, form.Covers (.plain (quote :: body)) rest := by
  simp only [List.mem_cons, List.not_mem_nil, or_false] at hq
  rcases hq with rfl | rfl | rfl
  · exact ⟨.singleQuoted, .singleQuoted hb⟩
  · exact ⟨.doubleQuoted, .doubleQuoted hb⟩
  · exact ⟨.backquoted, .backquoted hb⟩

namespace Piece

/-- The quoted texts that an enclosed text falls into. -/
def enclosed (quote : Char) (text : List Char) : List Piece :=
  (text.splitOn quote).map fun part => .lexeme (.plain (Placeholder.enclosed quote part))

private theorem flatMap_text_enclosed (quote : Char) (text : List Char) :
    (enclosed quote text).flatMap Piece.text = enclose quote text := by
  rw [enclose_eq_flatMap, enclosed, List.flatMap_map]
  rfl

private theorem fits_of_mem_enclosed {quote : Char} (hq : quote ∈ ['\x27', '\x22', '\x60']) {text : List Char}
    (hb : '\\' ∉ text) {p : Piece} (hp : p ∈ enclosed quote text) (rest : List Char) : p.Fits rest := by
  obtain ⟨part, hpart, rfl⟩ := List.mem_map.mp hp
  refine exists_covers_of_quotedBody hq (quotedBody_of_not_mem fun c hc => ?_) rest
  obtain ⟨hmem, hne⟩ := mem_of_mem_splitOn hpart hc
  exact ⟨hne, fun heq => hb (heq ▸ hmem)⟩

private theorem foldr_join_enclosed (quote : Char) (text : List Char) (pieces : List Piece) :
    (enclosed quote text).foldr join pieces = enclosed quote text ++ pieces := by
  rw [enclosed, List.foldr_map]
  induction text.splitOn quote with
  | nil => rfl
  | cons part parts ih =>
    rw [List.foldr_cons, ih]
    rfl

theorem split_enclose {quote : Char} (hq : quote ∈ ['\x27', '\x22', '\x60']) {text : List Char}
    (hb : '\\' ∉ text) (rest : List Char) :
    split all (enclose quote text ++ rest) = enclosed quote text ++ split all rest := by
  rw [← flatMap_text_enclosed, split_flatMap (fitAll_of_forall (fun p hp => fits_of_mem_enclosed hq hb hp) rest),
    foldr_join_enclosed]

end Piece

/-- Between quotes and with its own quotes doubled, text without a backslash is hidden, all of it: it is lexed as
adjacent quoted texts, one more than it has quotes, and what stands behind it as if it stood alone. -/
theorem lex_enclose {quote : Char} (hq : quote ∈ ['\x27', '\x22', '\x60']) {text : List Char} (hb : '\\' ∉ text)
    (rest : List Char) :
    ∃ ts, lex (String.ofList (enclose quote text ++ rest)) =
        ts ++ (lex (String.ofList rest)).map (Token.shift (Text.width (enclose quote text))) ∧
      Tiles 0 (Text.width (enclose quote text)) ts ∧ (∀ t ∈ ts, t.kind = .other) ∧
      ts.map Token.text = ((text.splitOn quote).map (enclosed quote)).map String.ofList ∧
      ts.length = text.count quote + 1 := by
  have htext := Piece.flatMap_text_enclosed quote text
  have htexts : (Piece.tokens 0 (Piece.enclosed quote text)).map Token.text =
      ((text.splitOn quote).map (enclosed quote)).map String.ofList := by
    simp only [Piece.map_text_tokens, Piece.enclosed, List.map_map]
    rfl
  refine ⟨Piece.tokens 0 (Piece.enclosed quote text), ?_, ?_, ?_, htexts, ?_⟩
  · rw [lex, lexBy, String.toList_ofList, Piece.split_enclose hq hb, Piece.tokens_append, htext, lex, lexBy,
      String.toList_ofList, ← Piece.tokens_add, Nat.zero_add, Nat.add_zero]
  · have hne : ∀ p ∈ Piece.enclosed quote text, p.text ≠ [] := by
      intro p hp
      obtain ⟨part, -, rfl⟩ := List.mem_map.mp hp
      exact List.cons_ne_nil _ _
    have htiles := Piece.tiles_tokens hne 0
    rwa [htext, Nat.zero_add] at htiles
  · intro t ht
    obtain ⟨p, hp, start, rfl⟩ := Piece.exists_of_mem_tokens ht
    obtain ⟨part, -, rfl⟩ := List.mem_map.mp hp
    rfl
  · have hlength := congrArg List.length htexts
    simpa only [List.length_map, length_splitOn] using hlength

/-- The quote at the front of what follows opens a text of its own, although it stands next to the closing one. -/
theorem lex_enclose_comment_marks :
    '\x27' ∈ ['\x27', '\x22', '\x60'] ∧ '\\' ∉ "-- é\x27?\x22/*".toList ∧
      ∃ ts, lex "\x27-- é\x27\x27?\x22/*\x27\x27:a\x27 ?" = ts ++ (lex "\x27:a\x27 ?").map (Token.shift 13) ∧
        Tiles 0 13 ts ∧ (∀ t ∈ ts, t.kind = .other) ∧
        ts.map Token.text = ["\x27-- é\x27", "\x27?\x22/*\x27"] ∧ ts.length = 2 := by
  have hq : '\x27' ∈ ['\x27', '\x22', '\x60'] := by decide
  have hb : '\\' ∉ "-- é\x27?\x22/*".toList := by decide
  have hwidth : Text.width (enclose '\x27' "-- é\x27?\x22/*".toList) = 13 := by decide +kernel
  have hlex := lex_enclose hq hb "\x27:a\x27 ?".toList
  rw [hwidth] at hlex
  exact ⟨hq, hb, hlex⟩

end Placeholder
