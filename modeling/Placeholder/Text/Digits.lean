/-! Natural numbers in decimal digits, at the front of a text. -/
namespace Placeholder.Text

/-- Zero alone, or all the digits that follow a nonzero one, and the text after. -/
def natural? : List Char → Option (List Char × List Char)
  | [] => none
  | c :: cs =>
    if c = '0' then some ([c], cs)
    else if c.isDigit then some (c :: cs.takeWhile Char.isDigit, cs.dropWhile Char.isDigit)
    else none

theorem natural?_append {cs digits rest : List Char} (h : natural? cs = some (digits, rest)) :
    cs = digits ++ rest := by
  fun_cases natural? cs <;> grind [natural?, List.takeWhile_append_dropWhile]

end Placeholder.Text
