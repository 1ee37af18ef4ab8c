import Placeholder.Token.Lexeme

/-! The nine forms of lexemes, and the first of them that is found at the front of a text. -/
namespace Placeholder

inductive Form
  | lineComment
  | blockComment
  | singleQuoted
  | doubleQuoted
  | backquoted
  | implicit
  | explicit
  | named
  | percentNamed
deriving DecidableEq, Repr

namespace Form

/-- The lexeme of the form at the front of a text, and the text after it. -/
def read : Form → List Char → Option (Lexeme × List Char)
  | .lineComment => Lexeme.lineComment?
  | .blockComment => Lexeme.blockComment?
  | .singleQuoted => Lexeme.quoted? '\x27'
  | .doubleQuoted => Lexeme.quoted? '\x22'
  | .backquoted => Lexeme.quoted? '\x60'
  | .implicit => Lexeme.implicit?
  | .explicit => Lexeme.explicit?
  | .named => Lexeme.named?
  | .percentNamed => Lexeme.percentNamed?

/-- Every form, in the order in which they are tried. -/
def all : List Form :=
  [.lineComment, .blockComment, .singleQuoted, .doubleQuoted, .backquoted, .implicit, .explicit, .named,
   .percentNamed]

/-- What the first form in the list to be found at the front of a text reads there. -/
def first? (forms : List Form) (cs : List Char) : Option (Lexeme × List Char) :=
  forms.findSome? fun form => form.read cs

/-- A lexeme and the text after it are the text read. -/
theorem read_append {form : Form} {cs rest : List Char} {l : Lexeme} (h : form.read cs = some (l, rest)) :
    cs = l.text ++ rest := by
  cases form <;> simp only [read] at h
  case lineComment =>
    fun_cases Lexeme.lineComment? cs <;>
      grind [Lexeme.lineComment?, Lexeme.plain, Lexeme.throughNewline_append]
  case blockComment =>
    fun_cases Lexeme.blockComment? cs <;>
      grind [Lexeme.blockComment?, Lexeme.plain, Lexeme.throughStarSlash?_append, Option.map_eq_some_iff]
  case implicit => fun_cases Lexeme.implicit? cs <;> grind [Lexeme.implicit?]
  case explicit =>
    fun_cases Lexeme.explicit? cs <;>
      grind [Lexeme.explicit?, Text.natural?_append, Option.map_eq_some_iff]
  case named =>
    fun_cases Lexeme.named? cs <;> grind [Lexeme.named?, Lexeme.identifier?_append, Option.map_eq_some_iff]
  case percentNamed =>
    fun_cases Lexeme.percentNamed? cs <;> grind [Lexeme.percentNamed?, Lexeme.identifier?_append]
  all_goals
    cases cs <;>
      grind [Lexeme.quoted?, Lexeme.plain, Lexeme.throughQuote?_append, Option.map_eq_some_iff]

/-- No form covers the empty text. -/
theorem text_ne_nil_of_read {form : Form} {cs rest : List Char} {l : Lexeme}
    (h : form.read cs = some (l, rest)) : l.text ≠ [] := by
  cases form <;> simp only [read] at h
  case lineComment => fun_cases Lexeme.lineComment? cs <;> grind [Lexeme.lineComment?, Lexeme.plain]
  case blockComment =>
    fun_cases Lexeme.blockComment? cs <;> grind [Lexeme.blockComment?, Lexeme.plain, Option.map_eq_some_iff]
  case implicit => fun_cases Lexeme.implicit? cs <;> grind [Lexeme.implicit?]
  case explicit => fun_cases Lexeme.explicit? cs <;> grind [Lexeme.explicit?, Option.map_eq_some_iff]
  case named => fun_cases Lexeme.named? cs <;> grind [Lexeme.named?, Option.map_eq_some_iff]
  case percentNamed => fun_cases Lexeme.percentNamed? cs <;> grind [Lexeme.percentNamed?]
  all_goals cases cs <;> grind [Lexeme.quoted?, Lexeme.plain, Option.map_eq_some_iff]

theorem first?_append {forms : List Form} {cs rest : List Char} {l : Lexeme}
    (h : first? forms cs = some (l, rest)) : cs = l.text ++ rest := by
  obtain ⟨form, _, hr⟩ := List.exists_of_findSome?_eq_some h
  exact read_append hr

theorem text_ne_nil_of_first? {forms : List Form} {cs rest : List Char} {l : Lexeme}
    (h : first? forms cs = some (l, rest)) : l.text ≠ [] := by
  obtain ⟨form, _, hr⟩ := List.exists_of_findSome?_eq_some h
  exact text_ne_nil_of_read hr

/-- Reading a lexeme makes the text shorter. -/
theorem length_lt_of_first? {forms : List Form} {cs rest : List Char} {l : Lexeme}
    (h : first? forms cs = some (l, rest)) : rest.length < cs.length := by
  have := List.length_pos_iff.2 (text_ne_nil_of_first? h)
  rw [first?_append h, List.length_append]
  omega

end Form
end Placeholder
