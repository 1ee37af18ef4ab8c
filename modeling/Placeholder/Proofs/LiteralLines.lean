import Placeholder.Proofs.JsonValues
import Placeholder.Proofs.Lines

/-!
Listings of bindings for people tell all bindings apart that hold no float. A literal ends where it says it does:
a quote in a text is doubled, so no text can pass for the end of its literal, for a further element of a list or
for a further line.
-/
namespace Placeholder
open Lexeme

/-! What tells its own end. -/

section

variable {α : Type} {P : α → Prop} {goesOn : Char → Bool} {write : α → List Char}

/-- Of the elements with the property each is told, as it is written, from what follows it, as long as this does
not begin with a character that might go on with it. -/
def SelfDelimiting (P : α → Prop) (goesOn : Char → Bool) (write : α → List Char) : Prop :=
  ∀ a b, P a → P b → ∀ rest rest', Stops goesOn rest → Stops goesOn rest' →
    write a ++ rest = write b ++ rest' → a = b ∧ rest = rest'

/-- What is read back together with what follows it tells its own end. -/
theorem SelfDelimiting.of_read {read : List Char → Option (α × List Char)}
    (h : ∀ a, P a → ∀ rest, Stops goesOn rest → read (write a ++ rest) = some (a, rest)) :
    SelfDelimiting P goesOn write := by
  intro a b ha hb rest rest' hrest hrest' heq
  have hread := h a ha rest hrest
  rw [heq, h b hb rest' hrest'] at hread
  cases hread
  exact ⟨rfl, rfl⟩

private theorem stops_false (cs : List Char) : Stops (fun _ => false) cs :=
  fun _ _ => rfl

/-! Lists of what tells its own end. -/

variable {close : Char}

/-- Elements behind a comma each, through a closing mark. -/
def closing (close : Char) (write : α → List Char) (as : List α) : List Char :=
  as.flatMap (fun a => ',' :: ' ' :: write a) ++ [close]

def closed (close : Char) (write : α → List Char) : List α → List Char
  | [] => [close]
  | a :: as => write a ++ closing close write as

private theorem closing_cons (a : α) (as : List α) :
    closing close write (a :: as) = ',' :: ' ' :: closed close write (a :: as) := by
  simp [closing, closed]

private theorem toList_intercalate_append (close : Char) (write : α → String) (as : List α) :
    (", ".intercalate (as.map write)).toList ++ [close] = closed close (fun a => (write a).toList) as := by
  induction as with
  | nil => rfl
  | cons a as ih =>
    cases as with
    | nil => simp [closed, closing]
    | cons b bs =>
      rw [closed, closing_cons, ← ih, List.map_cons, List.map_cons, String.intercalate_cons_cons]
      simp

private theorem stops_closing (hcomma : goesOn ',' = false) (hclose : goesOn close = false) (as : List α)
    (rest : List Char) : Stops goesOn (closing close write as ++ rest) := by
  cases as with
  | nil => exact stops_cons hclose rest
  | cons a as => exact stops_cons hcomma _

/-- After each element it is told whether there is another one: a comma goes on and the closing mark does not. -/
theorem selfDelimiting_closing (h : SelfDelimiting P goesOn write) (hcomma : goesOn ',' = false)
    (hclose : goesOn close = false) (hne : ',' ≠ close) :
    SelfDelimiting (fun as => ∀ a ∈ as, P a) (fun _ => false) (closing close write) := by
  intro as bs has hbs rest rest' _ _ heq
  induction as generalizing bs with
  | nil =>
    cases bs with
    | nil => exact ⟨rfl, (List.cons.inj heq).2⟩
    | cons b bs => exact absurd (List.cons.inj heq).1.symm hne
  | cons a as ih =>
    cases bs with
    | nil => exact absurd (List.cons.inj heq).1 hne
    | cons b bs =>
      obtain ⟨ha, has'⟩ := List.forall_mem_cons.mp has
      obtain ⟨hb, hbs'⟩ := List.forall_mem_cons.mp hbs
      have hcut : write a ++ (closing close write as ++ rest) = write b ++ (closing close write bs ++ rest') := by
        simpa [closing] using heq
      obtain ⟨rfl, htail⟩ := h a b ha hb _ _ (stops_closing hcomma hclose as rest)
        (stops_closing hcomma hclose bs rest') hcut
      obtain ⟨rfl, hrest⟩ := ih bs has' hbs' htail
      exact ⟨rfl, hrest⟩

/-- A list tells its own end, however many elements it has, as long as none of them begins like the closing
mark. -/
theorem selfDelimiting_closed (h : SelfDelimiting P goesOn write) (hcomma : goesOn ',' = false)
    (hclose : goesOn close = false) (hne : ',' ≠ close)
    (hfirst : ∀ a, P a → ∃ c cs, write a = c :: cs ∧ c ≠ close) :
    SelfDelimiting (fun as => ∀ a ∈ as, P a) (fun _ => false) (closed close write) := by
  have hother : ∀ a as rest rest', P a → closed close write (a :: as) ++ rest ≠ close :: rest' := by
    intro a as rest rest' ha heq
    obtain ⟨c, cs, hcons, hc⟩ := hfirst a ha
    rw [closed, hcons] at heq
    exact hc (List.cons.inj heq).1
  intro as bs has hbs rest rest' _ _ heq
  cases as with
  | nil =>
    cases bs with
    | nil => exact ⟨rfl, (List.cons.inj heq).2⟩
    | cons b bs => exact absurd heq.symm (hother b bs _ _ (hbs b List.mem_cons_self))
  | cons a as =>
    cases bs with
    | nil => exact absurd heq (hother a as _ _ (has a List.mem_cons_self))
    | cons b bs =>
      -- With a comma in front both are lists that go on.
      have hclosing : closing close write (a :: as) ++ rest = closing close write (b :: bs) ++ rest' := by
        rw [closing_cons, closing_cons, List.cons_append, List.cons_append, heq, List.cons_append, List.cons_append]
      exact selfDelimiting_closing h hcomma hclose hne (a :: as) (b :: bs) has hbs rest rest' (stops_false rest)
        (stops_false rest') hclosing

end

/-! Literals of values. -/

namespace Value

def NoFloat (v : Value) : Prop :=
  ∀ x, v ≠ .float x

def continuesLiteral (c : Char) : Bool :=
  Json.continuesInteger c || c == '\x27'

/-- The text up to the closing quote, a doubled quote taken for one, and what follows. -/
def undouble? : List Char → Option (List Char × List Char)
  | [] => none
  | '\x27' :: '\x27' :: cs => (undouble? cs).map fun (front, rest) => ('\x27' :: front, rest)
  | c :: cs => if c = '\x27' then some ([], cs) else (undouble? cs).map fun (front, rest) => (c :: front, rest)

def readBytes? : List Char → Option (List UInt8 × List Char)
  | '\x27' :: cs => some ([], cs)
  | c :: d :: cs => do
    let high ← Json.hexDigit? c
    let low ← Json.hexDigit? d
    let (bytes, rest) ← readBytes? cs
    return (UInt8.ofNat (16 * high + low) :: bytes, rest)
  | _ => none

def readInteger? (cs : List Char) : Option (Value × List Char) :=
  match Json.readNumber cs with
  | some (.number (.integer n), rest) => some (.int (.ofInt n), rest)
  | _ => none

/-- The value whose literal stands at the front of a text, and what follows the literal. -/
def readLiteral? : List Char → Option (Value × List Char)
  | 'N' :: 'U' :: 'L' :: 'L' :: rest => some (.null, rest)
  | 'T' :: 'R' :: 'U' :: 'E' :: rest => some (.bool true, rest)
  | 'F' :: 'A' :: 'L' :: 'S' :: 'E' :: rest => some (.bool false, rest)
  | '\x27' :: cs => (undouble? cs).map fun (front, rest) => (.text (String.ofList front), rest)
  | 'X' :: '\x27' :: cs => (readBytes? cs).map fun (bytes, rest) => (.blob bytes, rest)
  | cs => readInteger? cs

private theorem undouble?_character (c : Char) (cs : List Char) :
    undouble? ((if c = '\x27' then ['\x27', '\x27'] else [c]) ++ cs) =
      (undouble? cs).map fun (front, rest) => (c :: front, rest) := by
  by_cases hc : c = '\x27'
  · subst hc
    rw [if_pos rfl, List.cons_append, List.singleton_append, undouble?]
  · rw [if_neg hc, List.singleton_append, undouble?, if_neg hc]
    rintro _ rfl
    exact absurd rfl hc

private theorem undouble?_quote {rest : List Char} (h : Stops (· == '\x27') rest) :
    undouble? ('\x27' :: rest) = some ([], rest) := by
  rw [undouble?, if_pos rfl]
  rintro cs - rfl
  exact absurd (h '\x27' rfl) (by decide)

private theorem undouble?_doubleQuotes (front : List Char) {rest : List Char} (h : Stops (· == '\x27') rest) :
    undouble? (doubleQuotes front ++ '\x27' :: rest) = some (front, rest) :=
  Json.read_flatMap undouble?_character (undouble?_quote h) front

private theorem readBytes?_hexByte (byte : UInt8) (cs : List Char) :
    readBytes? (hexByte byte ++ cs) = (readBytes? cs).map fun (bytes, rest) => (byte :: bytes, rest) := by
  have hdigit : ∀ n < 16, Json.hexDigit? (Nat.digitChar n).toUpper = some n := by decide
  have hquote : ∀ n < 16, (Nat.digitChar n).toUpper ≠ '\x27' := by decide
  have hlt := byte.toNat_lt
  have hhigh : byte.toNat / 16 < 16 := by omega
  have hlow : byte.toNat % 16 < 16 := by omega
  have hbyte : UInt8.ofNat (16 * (byte.toNat / 16) + byte.toNat % 16) = byte := by
    rw [Nat.div_add_mod, UInt8.ofNat_toNat]
  rw [hexByte, List.cons_append, List.singleton_append, readBytes?]
  · simp only [hdigit _ hhigh, hdigit _ hlow, hbyte, bind, Option.bind_some]
    cases readBytes? cs with
    | none => rfl
    | some read => rfl
  · exact hquote _ hhigh

private theorem readBytes?_flatMap_hexByte (bytes : List UInt8) (rest : List Char) :
    readBytes? (bytes.flatMap hexByte ++ '\x27' :: rest) = some (bytes, rest) :=
  Json.read_flatMap readBytes?_hexByte rfl bytes

private theorem readInteger?_toString (n : Int64) {rest : List Char} (h : Stops Json.continuesInteger rest) :
    readInteger? ((toString n.toInt).toList ++ rest) = some (.int n, rest) := by
  rw [readInteger?, Json.readNumber_integer (Json.isWord_toInt n) h]
  simp only [Int64.ofInt_toInt]

theorem readLiteral?_literal {v : Value} (hv : v.NoFloat) {rest : List Char} (h : Stops continuesLiteral rest) :
    readLiteral? (v.literal.toList ++ rest) = some (v, rest) := by
  have hinteger : Stops Json.continuesInteger rest := fun c hc => (Bool.or_eq_false_iff.mp (h c hc)).1
  have hquote : Stops (· == '\x27') rest := fun c hc => (Bool.or_eq_false_iff.mp (h c hc)).2
  cases v with
  | null => rfl
  | bool b => cases b <;> rfl
  | int n =>
    obtain ⟨c, cs, hcons, hc⟩ := Json.exists_toString_eq_cons n.toInt
    have hread := readInteger?_toString n hinteger
    rw [hcons, List.cons_append] at hread
    rw [literal, hcons, List.cons_append]
    -- No other literal begins with a minus or a digit.
    unfold readLiteral?
    split
    case h_6 => exact hread
    all_goals
      next heq =>
        obtain ⟨rfl, -⟩ := List.cons.inj heq
        exact absurd hc (by decide)
  | float x => exact absurd rfl (hv x)
  | text s =>
    have hread := undouble?_doubleQuotes s.toList hquote
    simp [literal, readLiteral?, hread]
  | blob bytes =>
    have hread := readBytes?_flatMap_hexByte bytes rest
    simp [literal, readLiteral?, hread]

theorem selfDelimiting_literal : SelfDelimiting NoFloat continuesLiteral fun v => v.literal.toList :=
  .of_read fun _ hv _ h => readLiteral?_literal hv h

private theorem exists_literal_eq_cons {v : Value} (hv : v.NoFloat) :
    ∃ c cs, v.literal.toList = c :: cs ∧ c ≠ '(' ∧ c ≠ ')' := by
  cases v with
  | null => exact ⟨'N', _, rfl, by decide, by decide⟩
  | bool b => cases b <;> exact ⟨_, _, rfl, by decide, by decide⟩
  | int n =>
    obtain ⟨c, cs, hcons, hc⟩ := Json.exists_toString_eq_cons n.toInt
    refine ⟨c, cs, hcons, ?_, ?_⟩ <;> rintro rfl <;> exact absurd hc (by decide)
  | float x => exact absurd rfl (hv x)
  | text s =>
    rw [literal, String.toList_ofList]
    exact ⟨'\x27', _, rfl, by decide, by decide⟩
  | blob bytes =>
    rw [literal, String.toList_ofList]
    exact ⟨'X', _, rfl, by decide, by decide⟩

end Value

/-! Literals of bindings. -/

def Binding.NoFloat (b : Binding Value) : Prop :=
  ∀ v ∈ b.values, v.NoFloat

namespace Listing

private theorem toList_literal_sequence (vs : List Value) :
    (literal (.sequence vs)).toList = '(' :: closed ')' (fun v => v.literal.toList) vs := by
  rw [← toList_intercalate_append]
  simp [literal]

/-- A list is told from a value by its parenthesis, and from another list by its elements. -/
theorem selfDelimiting_literal : SelfDelimiting Binding.NoFloat Value.continuesLiteral fun b => (literal b).toList := by
  have hlist : SelfDelimiting (fun vs : List Value => ∀ v ∈ vs, v.NoFloat) (fun _ => false)
      (closed ')' fun v => v.literal.toList) := by
    refine selfDelimiting_closed Value.selfDelimiting_literal rfl rfl (by decide) fun v hv => ?_
    obtain ⟨c, cs, hcons, -, hc⟩ := Value.exists_literal_eq_cons hv
    exact ⟨c, cs, hcons, hc⟩
  have hother : ∀ (v : Value) vs cs ds, v.NoFloat →
      v.literal.toList ++ cs ≠ (literal (.sequence vs)).toList ++ ds := by
    intro v vs cs ds hv heq
    obtain ⟨c, front, hcons, hc, -⟩ := Value.exists_literal_eq_cons hv
    rw [toList_literal_sequence, hcons] at heq
    exact hc (List.cons.inj heq).1
  intro a b ha hb rest rest' hrest hrest' heq
  cases a with
  | scalar v =>
    have hv : v.NoFloat := ha v List.mem_cons_self
    cases b with
    | scalar w =>
      obtain ⟨rfl, rfl⟩ := Value.selfDelimiting_literal v w hv (hb w List.mem_cons_self) rest rest' hrest hrest' heq
      exact ⟨rfl, rfl⟩
    | sequence ws => exact absurd heq (hother v ws _ _ hv)
  | sequence vs =>
    cases b with
    | scalar w => exact absurd heq.symm (hother w vs _ _ (hb w List.mem_cons_self))
    | sequence ws =>
      simp only [toList_literal_sequence] at heq
      obtain ⟨rfl, rfl⟩ :=
        hlist vs ws ha hb rest rest' (stops_false rest) (stops_false rest') (List.cons.inj heq).2
      exact ⟨rfl, rfl⟩

/-! Lines. -/

private theorem toList_literalLines_cons (k : Nat) (literal : String) (literals : List String) :
    (literalLines k (literal :: literals)).toList =
      ("-- " ++ toString k ++ ": ").toList ++ (literal.toList ++ '\n' :: (literalLines (k + 1) literals).toList) := by
  simp [literalLines]

private theorem literalLines_cons_ne_empty (k : Nat) (literal : String) (literals : List String) :
    literalLines k (literal :: literals) ≠ "" := by
  simp [literalLines]

private theorem eq_of_literalLines_eq {α : Type} {P : α → Prop} {goesOn : Char → Bool} {write : α → String}
    (h : SelfDelimiting P goesOn fun a => (write a).toList) (hbreak : goesOn '\n' = false) {as bs : List α}
    (has : ∀ a ∈ as, P a) (hbs : ∀ b ∈ bs, P b) {k : Nat}
    (heq : literalLines k (as.map write) = literalLines k (bs.map write)) : as = bs := by
  induction as generalizing bs k with
  | nil =>
    cases bs with
    | nil => rfl
    | cons b bs => exact absurd heq.symm (literalLines_cons_ne_empty k _ _)
  | cons a as ih =>
    cases bs with
    | nil => exact absurd heq (literalLines_cons_ne_empty k _ _)
    | cons b bs =>
      obtain ⟨ha, has'⟩ := List.forall_mem_cons.mp has
      obtain ⟨hb, hbs'⟩ := List.forall_mem_cons.mp hbs
      rw [← String.toList_inj, List.map_cons, List.map_cons, toList_literalLines_cons,
        toList_literalLines_cons] at heq
      obtain ⟨rfl, htail⟩ :=
        h a b ha hb _ _ (stops_cons hbreak _) (stops_cons hbreak _) (List.append_cancel_left heq)
      rw [ih has' hbs' (String.toList_inj.mp (List.cons.inj htail).2)]

/-- The listings for people of two lists of bindings without floats are the same only if the lists are, and so are
those of two lists of values, whatever quotes, commas, parentheses, line breaks and imitated lines stand in the
texts. -/
theorem literal_lines_injective (query : String) {bs bs' : List (Binding Value)} {vs vs' : List Value}
    (hbs : ∀ b ∈ bs, b.NoFloat) (hbs' : ∀ b ∈ bs', b.NoFloat) (hvs : ∀ v ∈ vs, v.NoFloat)
    (hvs' : ∀ v ∈ vs', v.NoFloat) :
    (resolved .text ⟨query, bs⟩ = resolved .text ⟨query, bs'⟩ ↔ bs = bs') ∧
      (expanded .text ⟨query, vs⟩ = expanded .text ⟨query, vs'⟩ ↔ vs = vs') := by
  have hlines : ∀ literals literals', withLiterals query literals = withLiterals query literals' →
      literalLines 1 literals = literalLines 1 literals' := by
    intro literals literals' heq
    rw [← String.toList_inj] at heq ⊢
    simpa [withLiterals] using heq
  refine ⟨⟨fun heq => ?_, fun heq => by rw [heq]⟩, ⟨fun heq => ?_, fun heq => by rw [heq]⟩⟩
  · exact eq_of_literalLines_eq selfDelimiting_literal rfl hbs hbs' (hlines _ _ heq)
  · exact eq_of_literalLines_eq Value.selfDelimiting_literal rfl hvs hvs' (hlines _ _ heq)

/-- A text that imitates the end of its line, and one that imitates the end of its list, are no two values. -/
theorem literal_lines_injective_imitations :
    (∀ b ∈ [Binding.scalar (.text "a'\n-- 2: 'b"), .sequence [.text "c', 'd"]], b.NoFloat) ∧
      (∀ b ∈ [Binding.scalar (.text "a"), .scalar (.text "b"), .sequence [.text "c", .text "d"]], b.NoFloat) ∧
      (∀ v ∈ [Value.text "NULL'\n-- 2: 1"], v.NoFloat) ∧ (∀ v ∈ [Value.text "NULL", .int 1], v.NoFloat) ∧
      resolved .text ⟨"?", [.scalar (.text "a'\n-- 2: 'b"), .sequence [.text "c', 'd"]]⟩ ≠
        resolved .text ⟨"?", [.scalar (.text "a"), .scalar (.text "b"), .sequence [.text "c", .text "d"]]⟩ ∧
      expanded .text ⟨"?", [.text "NULL'\n-- 2: 1"]⟩ ≠ expanded .text ⟨"?", [.text "NULL", .int 1]⟩ := by
  have htext : ∀ s, (Value.text s).NoFloat := fun s => nofun
  have hint : ∀ n, (Value.int n).NoFloat := fun n => nofun
  have hbs : ∀ b ∈ [Binding.scalar (.text "a'\n-- 2: 'b"), .sequence [.text "c', 'd"]], b.NoFloat := by
    simp [Binding.NoFloat, Binding.values, htext]
  have hbs' : ∀ b ∈ [Binding.scalar (.text "a"), .scalar (.text "b"), .sequence [.text "c", .text "d"]],
      b.NoFloat := by
    simp [Binding.NoFloat, Binding.values, htext]
  have hvs : ∀ v ∈ [Value.text "NULL'\n-- 2: 1"], v.NoFloat := by
    simp [htext]
  have hvs' : ∀ v ∈ [Value.text "NULL", .int 1], v.NoFloat := by
    simp [htext, hint]
  obtain ⟨hresolved, hexpanded⟩ := literal_lines_injective "?" hbs hbs' hvs hvs'
  exact ⟨hbs, hbs', hvs, hvs', fun heq => absurd (hresolved.mp heq) (by simp),
    fun heq => absurd (hexpanded.mp heq) (by simp)⟩

end Listing

end Placeholder
