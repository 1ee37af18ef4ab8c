import Placeholder.Proofs.Lines
import Placeholder.Proofs.Readback

/-!
Listings of tokens for people are read back: each line gives the kind, the span and the text of its token, whatever
the text is made of and whichever characters are written by their code points.
-/
namespace Placeholder
open Lexeme

/-! Text between quotes. -/

namespace Text

/-- How far the reading of a character has come. -/
inductive Reading
  /-- It has not begun. -/
  | start
  /-- A backslash has been read. -/
  | backslash
  /-- A backslash and the letter u have been read. -/
  | letter
  /-- Digits of a code point have been read, `n` so far. -/
  | code (n : Nat)

def shortEscape? : Char → Option Char
  | '\x22' => some '\x22'
  | '\\' => some '\\'
  | '0' => some '\x00'
  | 't' => some '\t'
  | 'r' => some '\r'
  | 'n' => some '\n'
  | _ => none

/-- The text up to the closing quote, and what follows the quote. -/
def unquoteFrom : Reading → List Char → Option (List Char × List Char)
  | _, [] => none
  | .start, c :: cs =>
    if c = '\x22' then some ([], cs)
    else if c = '\\' then unquoteFrom .backslash cs
    else (unquoteFrom .start cs).map fun (text, rest) => (c :: text, rest)
  | .backslash, c :: cs =>
    if c = 'u' then unquoteFrom .letter cs
    else (shortEscape? c).bind fun d => (unquoteFrom .start cs).map fun (text, rest) => (d :: text, rest)
  | .letter, c :: cs => if c = '\x7b' then unquoteFrom (.code 0) cs else none
  | .code n, c :: cs =>
    if c = '\x7d' then (unquoteFrom .start cs).map fun (text, rest) => (Char.ofNat n :: text, rest)
    else (Json.hexDigit? c).bind fun d => unquoteFrom (.code (16 * n + d)) cs

def unquote? : List Char → Option (List Char × List Char)
  | '\x22' :: cs => unquoteFrom .start cs
  | _ => none

private theorem unquoteFrom_digit {d : Nat} (hd : d < 16) (n : Nat) (cs : List Char) :
    unquoteFrom (.code n) (Nat.digitChar d :: cs) = unquoteFrom (.code (16 * n + d)) cs := by
  have hall : ∀ d < 16, Nat.digitChar d ≠ '\x7d' := by decide
  rw [unquoteFrom, if_neg (hall d hd), Json.hexDigit?_digitChar hd]
  rfl

private theorem unquoteFrom_toDigits (n : Nat) (cs : List Char) :
    unquoteFrom (.code 0) (Nat.toDigits 16 n ++ cs) = unquoteFrom (.code n) cs := by
  induction n using Nat.strongRecOn generalizing cs with
  | ind n ih =>
    by_cases hlt : n < 16
    · rw [Nat.toDigits_of_lt_base hlt, List.singleton_append, unquoteFrom_digit hlt, Nat.mul_zero, Nat.zero_add]
    · have hmod : n % 16 < 16 := Nat.mod_lt n (by decide)
      rw [Nat.toDigits_of_base_le (by decide) (Nat.not_lt.mp hlt), List.append_assoc, ih (n / 16) (by omega),
        List.singleton_append, unquoteFrom_digit hmod, Nat.div_add_mod]

private theorem unquoteFrom_escape (hidden : Char → Bool) (c : Char) (rest : List Char) :
    unquoteFrom .start (escape hidden c ++ rest) =
      (unquoteFrom .start rest).map fun (text, rest) => (c :: text, rest) := by
  unfold escape
  split
  case h_7 hquote hbackslash _ _ _ _ =>
    split
    · have hcode : unquoteFrom .start ('\\' :: 'u' :: '\x7b' :: Nat.toDigits 16 c.toNat ++ ['\x7d'] ++ rest) =
          unquoteFrom (.code 0) (Nat.toDigits 16 c.toNat ++ ('\x7d' :: rest)) := by
        rw [List.append_assoc]
        rfl
      rw [hcode, unquoteFrom_toDigits, unquoteFrom, if_pos rfl, Char.ofNat_toNat]
    · rw [List.singleton_append, unquoteFrom, if_neg hquote, if_neg hbackslash]
  all_goals rfl

private theorem unquoteFrom_flatMap_escape (hidden : Char → Bool) (text rest : List Char) :
    unquoteFrom .start (text.flatMap (escape hidden) ++ '\x22' :: rest) = some (text, rest) :=
  Json.read_flatMap (unquoteFrom_escape hidden) rfl text

theorem unquote?_quoteBy (hidden : Char → Bool) (text : String) (rest : List Char) :
    unquote? ((quoteBy hidden text).toList ++ rest) = some (text.toList, rest) := by
  rw [quoteBy, String.toList_ofList, List.append_assoc]
  exact unquoteFrom_flatMap_escape hidden text.toList rest

private theorem exists_digitChar_of_mem_toDigits {n : Nat} {c : Char} (h : c ∈ Nat.toDigits 16 n) :
    ∃ d < 16, c = Nat.digitChar d := by
  induction n using Nat.strongRecOn with
  | ind n ih =>
    by_cases hlt : n < 16
    · rw [Nat.toDigits_of_lt_base hlt] at h
      exact ⟨n, hlt, List.mem_singleton.mp h⟩
    · rw [Nat.toDigits_of_base_le (by decide) (Nat.not_lt.mp hlt)] at h
      rcases List.mem_append.mp h with hfront | hlast
      · exact ih (n / 16) (by omega) hfront
      · exact ⟨n % 16, Nat.mod_lt n (by decide), List.mem_singleton.mp hlast⟩

private theorem newline_not_mem_escape (hidden : Char → Bool) (c : Char) : '\n' ∉ escape hidden c := by
  have hdigits : '\n' ∉ Nat.toDigits 16 c.toNat := by
    intro h
    have hall : ∀ d < 16, '\n' ≠ Nat.digitChar d := by decide
    obtain ⟨d, hd, heq⟩ := exists_digitChar_of_mem_toDigits h
    exact hall d hd heq
  unfold escape
  split
  case h_7 hnewline =>
    split
    · simp [hdigits]
    · simpa using Ne.symm hnewline
  all_goals decide

theorem unbroken_quoteBy (hidden : Char → Bool) (text : String) : Unbroken (quoteBy hidden text) := by
  simp [Unbroken, quoteBy, newline_not_mem_escape]

end Text

/-! Columns. -/

namespace Listing

/-- The text up to the first space, and what stands behind the spaces there. -/
def column (cs : List Char) : List Char × List Char :=
  (cs.takeWhile (· != ' '), (cs.dropWhile (· != ' ')).dropWhile (· == ' '))

private theorem column_padEnd (width : Nat) {text : String} {rest : List Char} (htext : ' ' ∉ text.toList)
    (hrest : Stops (· == ' ') rest) : column ((padEnd width text ++ " ").toList ++ rest) = (text.toList, rest) := by
  let spaces := List.replicate (width - text.length + 1) ' '
  have hsplit : (padEnd width text ++ " ").toList ++ rest = text.toList ++ (spaces ++ rest) := by
    simp [padEnd, spaces, List.replicate_succ']
  have hstops : Stops (· != ' ') (spaces ++ rest) := stops_cons rfl _
  have hword := takeWhile_dropWhile_iff.mpr
    ⟨hsplit, fun c hc => by simpa using ne_of_mem_of_not_mem hc htext, hstops⟩
  have hspaces : ∀ c ∈ spaces, (c == ' ') = true := fun c hc => by simpa using List.eq_of_mem_replicate hc
  have hgap := takeWhile_dropWhile_iff.mpr ⟨rfl, hspaces, hrest⟩
  rw [column, hword.1, hword.2, hgap.2]

def readSpan (cs : List Char) : Span :=
  ⟨Nat.ofDigitChars 10 (cs.takeWhile Char.isDigit) 0,
    Nat.ofDigitChars 10 ((cs.dropWhile Char.isDigit).drop 2) 0⟩

private theorem toList_render_span (s : Span) :
    s.render.toList = Nat.toDigits 10 s.start ++ '.' :: '.' :: Nat.toDigits 10 s.stop := by
  simp [Span.render]

private theorem readSpan_render (s : Span) : readSpan s.render.toList = s := by
  have hdots : Stops Char.isDigit ('.' :: '.' :: Nat.toDigits 10 s.stop) := stops_cons rfl _
  have hstart := takeWhile_dropWhile_iff.mpr
    ⟨toList_render_span s, fun c hc => Json.isDigit_of_mem_toDigits hc, hdots⟩
  rw [readSpan, hstart.1, hstart.2]
  simp

/-! Lines. -/

def tokenText (hidden : Char → Bool) (t : Token) : String :=
  padEnd 12 t.kind.name ++ " " ++ padEnd 10 t.span.render ++ " " ++ Text.quoteBy hidden t.text

theorem tokenLines_eq_unlines (hidden : Char → Bool) (ts : List Token) :
    tokenLines hidden ts = unlines (ts.map (tokenText hidden)) := by
  rw [tokenLines, unlines, List.map_map]
  rfl

def shown (t : Token) : Kind × Span × String :=
  (t.kind, t.span, t.text)

def readTokenText? (line : List Char) : Option (Kind × Span × String) := do
  let (name, columns) := column line
  let (span, quoted) := column columns
  let kind ← Kind.ofName? (String.ofList name)
  let (text, _) ← Text.unquote? quoted
  return (kind, readSpan span, String.ofList text)

def readTokenLines? (listing : String) : Option (List (Kind × Span × String)) :=
  (listing.toList.splitOn '\n').dropLast.mapM readTokenText?

private theorem space_not_mem_name (k : Kind) : ' ' ∉ k.name.toList := by
  cases k <;> decide

private theorem space_not_mem_render (s : Span) : ' ' ∉ s.render.toList := by
  have hdigits : ∀ n, ' ' ∉ Nat.toDigits 10 n := fun n h => absurd (Json.isDigit_of_mem_toDigits h) (by decide)
  simp [toList_render_span, hdigits]

private theorem stops_render (s : Span) (rest : List Char) : Stops (· == ' ') (s.render.toList ++ rest) := by
  obtain ⟨c, cs, hcons⟩ := List.exists_cons_of_ne_nil (Nat.toDigits_ne_nil (n := s.start) (b := 10))
  have hc : c.isDigit := Json.isDigit_of_mem_toDigits (hcons ▸ List.mem_cons_self)
  have hspace : (c == ' ') = false := by
    rw [beq_eq_false_iff_ne]
    rintro rfl
    exact absurd hc (by decide)
  rw [toList_render_span, hcons]
  exact stops_cons (p := (· == ' ')) hspace _

/-- The columns of the line are the name of the kind, the span and the quoted text. -/
theorem readTokenText?_tokenText (hidden : Char → Bool) (t : Token) :
    readTokenText? (tokenText hidden t).toList = some (shown t) := by
  have hquoted : Stops (· == ' ') (Text.quoteBy hidden t.text).toList := by
    rw [Text.quoteBy, String.toList_ofList]
    exact stops_cons rfl _
  have hcolumns : Stops (· == ' ')
      ((padEnd 10 t.span.render ++ " ").toList ++ (Text.quoteBy hidden t.text).toList) := by
    have hfront := stops_render t.span
    simp only [padEnd, String.toList_append, List.append_assoc]
    exact hfront _
  have hkind := column_padEnd 12 (space_not_mem_name t.kind) hcolumns
  have hspan := column_padEnd 10 (space_not_mem_render t.span) hquoted
  have htext := Text.unquote?_quoteBy hidden t.text []
  rw [List.append_nil] at htext
  have hline : (tokenText hidden t).toList = (padEnd 12 t.kind.name ++ " ").toList ++
      ((padEnd 10 t.span.render ++ " ").toList ++ (Text.quoteBy hidden t.text).toList) := by
    simp [tokenText]
  rw [readTokenText?, hline]
  simp only [hkind, hspan, String.ofList_toList, Kind.ofName?_name, htext, readSpan_render, bind, pure,
    Option.bind_some]
  rfl

theorem unbroken_tokenText (hidden : Char → Bool) (t : Token) : Unbroken (tokenText hidden t) := by
  have hspaces : ∀ n, Unbroken (String.ofList (List.replicate n ' ')) := by
    intro n
    simp [Unbroken]
  have hkind : Unbroken t.kind.name := by
    cases t.kind <;> decide
  have hspan : Unbroken t.span.render := by
    simp only [Span.render, unbroken_append]
    exact ⟨⟨unbroken_toString_nat _, by decide⟩, unbroken_toString_nat _⟩
  have hspace : Unbroken " " := by decide
  simp only [tokenText, padEnd, unbroken_append]
  exact ⟨⟨⟨⟨⟨hkind, hspaces _⟩, hspace⟩, hspan, hspaces _⟩, hspace⟩, Text.unbroken_quoteBy hidden t.text⟩

private theorem unbroken_of_mem_map_tokenText (hidden : Char → Bool) (ts : List Token) :
    ∀ line ∈ ts.map (tokenText hidden), Unbroken line := by
  rw [List.forall_mem_map]
  exact fun t _ => unbroken_tokenText hidden t

theorem readTokenLines?_tokenLines (hidden : Char → Bool) (ts : List Token) :
    readTokenLines? (tokenLines hidden ts) = some (ts.map shown) := by
  rw [readTokenLines?, tokenLines_eq_unlines, splitOn_unlines (unbroken_of_mem_map_tokenText hidden ts),
    List.dropLast_concat]
  have hread : ∀ t ∈ ts, readTokenText? (tokenText hidden t).toList = pure (shown t) :=
    fun t _ => readTokenText?_tokenText hidden t
  rw [List.map_map]
  exact mapM_map_eq_pure hread

/-- The listing of tokens for people has a line for each token and loses nothing of what it shows: the kinds, the
spans and the texts of the tokens are read from it, whichever characters are written by their code points. Two
lists of tokens with the same listing are the same in all of this. -/
theorem token_lines_read_back (hidden : Char → Bool) (ts : List Token) :
    (∃ lines, tokenLines hidden ts = unlines lines ∧ lines.length = ts.length ∧ ∀ line ∈ lines, Unbroken line) ∧
      readTokenLines? (tokenLines hidden ts) = some (ts.map shown) ∧
      (∀ hidden' ts', tokenLines hidden' ts' = tokenLines hidden ts → ts'.map shown = ts.map shown) ∧
      tokens .text ts = tokenLines Unicode.isHidden ts := by
  have hread := readTokenLines?_tokenLines hidden ts
  refine ⟨⟨ts.map (tokenText hidden), tokenLines_eq_unlines hidden ts, List.length_map _,
    unbroken_of_mem_map_tokenText hidden ts⟩, hread, ?_, rfl⟩
  intro hidden' ts' heq
  rw [← heq, readTokenLines?_tokenLines] at hread
  exact Option.some.inj hread

end Listing
end Placeholder
