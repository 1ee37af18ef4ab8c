import Placeholder.Text.Digits
import Placeholder.Token.Basic
import Placeholder.Unicode.Letter
import Placeholder.Unicode.DecimalDigit

/-!
What stands out from the plain text of a query: comments, quoted text and parameters, each as a reader at
the front of a text. A reader gives what it covers and the text after, which together are the text read.
-/
namespace Placeholder

/-- A stretch of a query that stands out. `inside` is the part that says which binding is meant. -/
structure Lexeme where
  kind : Kind
  text : List Char
  inside : List Char
deriving DecidableEq, Inhabited, Repr

namespace Lexeme

def plain (text : List Char) : Lexeme :=
  ⟨.other, text, []⟩

/-- The text through its first newline, or all of it if it has none, and the text after. -/
def throughNewline : List Char → List Char × List Char
  | [] => ([], [])
  | c :: cs =>
    if c = '\n' then ([c], cs)
    else let (line, rest) := throughNewline cs
      (c :: line, rest)

def lineComment? : List Char → Option (Lexeme × List Char)
  | '-' :: '-' :: cs =>
    let (line, rest) := throughNewline cs
    some (.plain ('-' :: '-' :: line), rest)
  | _ => none

/-- The text through the close of a block comment. A star that is not followed by a slash hides the
character after it, so two stars before a slash do not close. -/
def throughStarSlash? : List Char → Option (List Char × List Char)
  | [] => none
  | ['*'] => none
  | '*' :: '/' :: cs => some (['*', '/'], cs)
  | '*' :: c :: cs => (throughStarSlash? cs).map fun (body, rest) => ('*' :: c :: body, rest)
  | c :: cs => (throughStarSlash? cs).map fun (body, rest) => (c :: body, rest)

def blockComment? : List Char → Option (Lexeme × List Char)
  | '/' :: '*' :: cs => (throughStarSlash? cs).map fun (body, rest) => (.plain ('/' :: '*' :: body), rest)
  | _ => none

/-- The text through the closing quote. A backslash hides the character after it, which must not be a
newline. -/
def throughQuote? (quote : Char) : List Char → Option (List Char × List Char)
  | [] => none
  | c :: cs =>
    if c = quote then some ([c], cs)
    else if c = '\\' then
      match cs with
      | [] => none
      | d :: ds =>
        if d = '\n' then none else (throughQuote? quote ds).map fun (body, rest) => (c :: d :: body, rest)
    else (throughQuote? quote cs).map fun (body, rest) => (c :: body, rest)

def quoted? (quote : Char) : List Char → Option (Lexeme × List Char)
  | [] => none
  | c :: cs =>
    if c = quote then (throughQuote? quote cs).map fun (body, rest) => (.plain (c :: body), rest) else none

def implicit? : List Char → Option (Lexeme × List Char)
  | '?' :: cs => some (⟨.implicit, ['?'], ['?']⟩, cs)
  | _ => none

def isIndexSigil (c : Char) : Bool :=
  c == '$' || c == '@' || c == ':'

def explicit? : List Char → Option (Lexeme × List Char)
  | [] => none
  | c :: cs =>
    if isIndexSigil c then
      (Text.natural? cs).map fun (digits, rest) => (⟨.explicit, c :: digits, digits⟩, rest)
    else none

def isNameStart (c : Char) : Bool :=
  c == '_' || Unicode.isLetter c

def isNameChar (c : Char) : Bool :=
  isNameStart c || Unicode.isDecimalDigit c

/-- The longest name at the front. -/
def identifier? : List Char → Option (List Char × List Char)
  | [] => none
  | c :: cs =>
    if isNameStart c then some (c :: cs.takeWhile isNameChar, cs.dropWhile isNameChar) else none

def isNameSigil (c : Char) : Bool :=
  c == '@' || c == ':'

def named? : List Char → Option (Lexeme × List Char)
  | [] => none
  | c :: cs =>
    if isNameSigil c then (identifier? cs).map fun (name, rest) => (⟨.named, c :: name, name⟩, rest)
    else none

/-- A reference by name: percent, the name in parentheses, and the letter s. -/
def percentNamed? : List Char → Option (Lexeme × List Char)
  | '%' :: '(' :: cs =>
    match identifier? cs with
    | some (name, ')' :: 's' :: rest) =>
      some (⟨.percentNamed, '%' :: '(' :: name ++ [')', 's'], name⟩, rest)
    | _ => none
  | _ => none

@[simp] theorem throughNewline_append (cs : List Char) :
    (throughNewline cs).1 ++ (throughNewline cs).2 = cs := by
  fun_induction throughNewline cs <;> grind

theorem throughStarSlash?_append {cs body rest : List Char} (h : throughStarSlash? cs = some (body, rest)) :
    cs = body ++ rest := by
  fun_induction throughStarSlash? cs generalizing body <;> grind [Option.map_eq_some_iff]

theorem throughQuote?_append {quote : Char} {cs body rest : List Char}
    (h : throughQuote? quote cs = some (body, rest)) : cs = body ++ rest := by
  fun_induction throughQuote? quote cs generalizing body <;> grind [Option.map_eq_some_iff]

theorem identifier?_append {cs name rest : List Char} (h : identifier? cs = some (name, rest)) :
    cs = name ++ rest := by
  fun_cases identifier? cs <;> grind [identifier?, List.takeWhile_append_dropWhile]

end Lexeme
end Placeholder
