import Placeholder.Proofs.JsonScalars

/-!
JSON values written over many lines are read back: strings and integers, and arrays and objects of them as
deep in one another as the reader goes.
-/
namespace Placeholder.Json
open Lexeme

/-- Arrays and objects stand at most `depth` deep in one another, and every number is an integer of 64 bits. -/
inductive Fits : Nat → Json → Prop
  | null {depth : Nat} : Fits depth .null
  | bool {depth : Nat} (b : Bool) : Fits depth (.bool b)
  | integer {depth : Nat} {n : Int} : IsWord n → Fits depth (.number (.integer n))
  | string {depth : Nat} (s : String) : Fits depth (.string s)
  | array {depth : Nat} {elements : List Json} : (∀ j ∈ elements, Fits depth j) →
    Fits (depth + 1) (.array elements)
  | object {depth : Nat} {members : List (String × Json)} : (∀ m ∈ members, Fits depth m.2) →
    Fits (depth + 1) (.object members)

def isBlank (c : Char) : Bool :=
  c == ' ' || c == '\n' || c == '\t' || c == '\r'

private theorem skipBlanks_cons_of_not {c : Char} (h : isBlank c = false) (cs : List Char) :
    skipBlanks (c :: cs) = c :: cs :=
  List.dropWhile_cons_of_neg (by simpa [isBlank] using h)

private theorem skipBlanks_append {blanks : List Char} (h : ∀ c ∈ blanks, isBlank c) (cs : List Char) :
    skipBlanks (blanks ++ cs) = skipBlanks cs :=
  List.dropWhile_append_of_pos h

private theorem skipBlanks_skipBlanks (cs : List Char) : skipBlanks (skipBlanks cs) = skipBlanks cs := by
  induction cs with
  | nil => rfl
  | cons c cs ih =>
    cases h : isBlank c with
    | true =>
      have hblank : ∀ d ∈ [c], isBlank d := by simpa using h
      have hskip : skipBlanks (c :: cs) = skipBlanks cs := skipBlanks_append hblank cs
      rw [hskip, ih]
    | false => rw [skipBlanks_cons_of_not h, skipBlanks_cons_of_not h]

private theorem skipBlanks_newLine (level : Nat) (cs : List Char) :
    skipBlanks (newLine level ++ cs) = skipBlanks cs := by
  apply skipBlanks_append
  intro c hc
  rcases List.mem_cons.mp hc with rfl | hc
  · decide
  · rw [List.eq_of_mem_replicate hc]
    decide

section Items

variable {α : Type} {item : List Char → Option (α × List Char)} {close : Char} {write : α → List Char}

/-- Items with commas between them, each on a line of its own. -/
def itemLines (level : Nat) (write : α → List Char) (as : List α) : List Char :=
  [','].intercalate (as.map fun a => newLine level ++ write a)

theorem itemLines_singleton (level : Nat) (a : α) : itemLines level write [a] = newLine level ++ write a :=
  List.intercalate_singleton

theorem itemLines_cons_cons (level : Nat) (a b : α) (as : List α) :
    itemLines level write (a :: b :: as) = newLine level ++ write a ++ ',' :: itemLines level write (b :: as) := by
  simp [itemLines]

/-- A reader of items skips blanks, and finds each of the items where it is written. No item begins like the
closing mark. -/
structure ReadsBack (item : List Char → Option (α × List Char)) (close : Char) (write : α → List Char)
    (as : List α) : Prop where
  skip : ∀ cs, item (skipBlanks cs) = item cs
  item : ∀ a ∈ as, ∀ rest, Stops continuesInteger rest → item (write a ++ rest) = some (a, rest)
  first : ∀ a ∈ as, ∃ c cs, write a = c :: cs ∧ isBlank c = false ∧ c ≠ close

theorem ReadsBack.tail {a : α} {as : List α} (h : ReadsBack item close write (a :: as)) :
    ReadsBack item close write as :=
  ⟨h.skip, fun b hb => h.item b (List.mem_cons_of_mem a hb), fun b hb => h.first b (List.mem_cons_of_mem a hb)⟩

structure Closes (close : Char) : Prop where
  not_blank : isBlank close = false
  ne_comma : close ≠ ','

private theorem readItems_skipBlanks (h : ∀ cs, item (skipBlanks cs) = item cs) (n : Nat) (cs : List Char) :
    readItems item close n (skipBlanks cs) = readItems item close n cs := by
  cases n with
  | zero => rfl
  | succ n => rw [readItems, readItems, h]

private theorem readItems_last {n : Nat} {cs rest rest' : List Char} {a : α} (ha : item cs = some (a, rest))
    (hclose : skipBlanks rest = close :: rest') : readItems item close (n + 1) cs = some ([a], rest') := by
  simp only [readItems, ha, hclose, if_true]

private theorem readItems_comma {n : Nat} {cs rest rest' : List Char} {a : α} (ha : item cs = some (a, rest))
    (hcomma : skipBlanks rest = ',' :: rest') (hne : close ≠ ',') :
    readItems item close (n + 1) cs = (readItems item close n rest').map fun (as, rest) => (a :: as, rest) := by
  simp only [readItems, ha, hcomma, if_neg hne.symm, if_true]

private theorem readItems_newLine (h : ∀ cs, item (skipBlanks cs) = item cs) (n level : Nat) (cs : List Char) :
    readItems item close n (newLine level ++ cs) = readItems item close n cs := by
  rw [← readItems_skipBlanks h, skipBlanks_newLine, readItems_skipBlanks h]

/-- Reading items over lines ends behind the closing mark, which stands on a line of its own. -/
theorem readItems_itemLines {a : α} {as : List α} (h : ReadsBack item close write (a :: as)) (hc : Closes close)
    {n : Nat} (hn : as.length < n) (level outer : Nat) (rest : List Char) :
    readItems item close n (itemLines level write (a :: as) ++ (newLine outer ++ close :: rest)) =
      some (a :: as, rest) := by
  induction as generalizing a n with
  | nil =>
    obtain ⟨n, rfl⟩ := Nat.exists_eq_add_of_lt hn
    have hitem := h.item a List.mem_cons_self (newLine outer ++ close :: rest) (stops_cons rfl _)
    have hskip : skipBlanks (newLine outer ++ close :: rest) = close :: rest := by
      rw [skipBlanks_newLine, skipBlanks_cons_of_not hc.not_blank]
    rw [itemLines_singleton, List.append_assoc, readItems_newLine h.skip]
    exact readItems_last hitem hskip
  | cons b as ih =>
    obtain ⟨n, rfl⟩ := Nat.exists_eq_add_of_lt hn
    let after := itemLines level write (b :: as) ++ (newLine outer ++ close :: rest)
    have hitem := h.item a List.mem_cons_self (',' :: after) (stops_cons rfl _)
    have hrest := ih h.tail (n := (b :: as).length + n) (by simp only [List.length_cons]; omega)
    rw [itemLines_cons_cons, List.append_assoc, List.append_assoc, List.cons_append, readItems_newLine h.skip,
      readItems_comma hitem (skipBlanks_cons_of_not rfl _) hc.ne_comma, hrest]
    rfl

private theorem length_le_itemLines (level : Nat) (as : List α) : as.length ≤ (itemLines level write as).length := by
  induction as with
  | nil => exact Nat.zero_le _
  | cons a as ih =>
    cases as with
    | nil =>
      rw [itemLines_singleton]
      simp [newLine]
    | cons b as =>
      rw [itemLines_cons_cons]
      simp only [List.length_append, List.length_cons] at ih ⊢
      omega

private theorem readList_of_first {c : Char} {cs rest : List Char} (h : ∀ cs, item (skipBlanks cs) = item cs)
    (hfirst : skipBlanks cs = c :: rest) (hc : c ≠ close) :
    readList item close cs = readItems item close cs.length cs := by
  rw [← readItems_skipBlanks h, readList, hfirst]
  exact if_neg hc

theorem readList_itemLines {as : List α} (h : ReadsBack item close write as) (hne : as ≠ []) (hc : Closes close)
    (level outer : Nat) (rest : List Char) :
    readList item close (itemLines level write as ++ (newLine outer ++ close :: rest)) = some (as, rest) := by
  obtain ⟨a, as, rfl⟩ := List.exists_cons_of_ne_nil hne
  obtain ⟨c, cs, hwrite, hblank, hclose⟩ := h.first a List.mem_cons_self
  have hfirst : ∃ after, skipBlanks (itemLines level write (a :: as) ++ (newLine outer ++ close :: rest)) =
      c :: after := by
    cases as with
    | nil =>
      rw [itemLines_singleton, List.append_assoc, skipBlanks_newLine, hwrite, List.cons_append,
        skipBlanks_cons_of_not hblank]
      exact ⟨_, rfl⟩
    | cons b as =>
      rw [itemLines_cons_cons, List.append_assoc, List.append_assoc, skipBlanks_newLine, hwrite, List.cons_append,
        skipBlanks_cons_of_not hblank]
      exact ⟨_, rfl⟩
  obtain ⟨after, hfirst⟩ := hfirst
  have hlength : (a :: as).length ≤ (itemLines level write (a :: as)).length := length_le_itemLines level (a :: as)
  rw [readList_of_first h.skip hfirst hclose]
  refine readItems_itemLines h hc ?_ level outer rest
  simp only [List.length_append, List.length_cons] at hlength ⊢
  omega

end Items

/-! Values. -/

private theorem indentedElements_eq (level : Nat) (js : List Json) :
    indentedElements level js = itemLines level (indented level) js := by
  match js with
  | [] => rfl
  | [j] => rw [indentedElements, itemLines_singleton]
  | j :: j' :: js => rw [indentedElements, itemLines_cons_cons, indentedElements_eq]; simp

def memberText (level : Nat) (m : String × Json) : List Char :=
  quote m.1 ++ ':' :: ' ' :: indented level m.2

private theorem indentedMembers_eq (level : Nat) (ms : List (String × Json)) :
    indentedMembers level ms = itemLines level (memberText level) ms := by
  match ms with
  | [] => rfl
  | [(name, j)] => rw [indentedMembers, itemLines_singleton]; simp [memberText]
  | (name, j) :: m :: ms => rw [indentedMembers, itemLines_cons_cons, indentedMembers_eq] <;> simp [memberText]

private theorem readValue_skipBlanks (depth : Nat) (cs : List Char) :
    readValue depth (skipBlanks cs) = readValue depth cs := by
  rw [readValue, readValue, skipBlanks_skipBlanks]

private theorem readMember_skipBlanks (value : List Char → Option (Json × List Char)) (cs : List Char) :
    readMember value (skipBlanks cs) = readMember value cs := by
  rw [readMember, readMember, skipBlanks_skipBlanks]

/-- An integer begins with a minus or a digit. -/
theorem exists_toString_eq_cons (n : Int) : ∃ c cs, (toString n).toList = c :: cs ∧ (c = '-' ∨ c.isDigit) := by
  rw [toList_toString]
  split
  · exact ⟨'-', _, rfl, Or.inl rfl⟩
  · obtain ⟨c, cs, hcons⟩ := List.exists_cons_of_ne_nil (Nat.toDigits_ne_nil (n := n.natAbs) (b := 10))
    exact ⟨c, cs, hcons, Or.inr (isDigit_of_mem_toDigits (hcons ▸ List.mem_cons_self))⟩

private theorem first_of_integer {c : Char} (h : c = '-' ∨ c.isDigit) :
    isBlank c = false ∧ c ∉ ['\x22', '[', ']', '\x7b'] := by
  have hall : ∀ d ∈ [' ', '\n', '\t', '\r', '\x22', '[', ']', '\x7b'], c ≠ d := by
    rintro d hd rfl
    simp only [List.mem_cons, List.not_mem_nil, or_false] at hd
    rcases hd with rfl | rfl | rfl | rfl | rfl | rfl | rfl | rfl <;> revert h <;> decide
  simp_all [isBlank]

private theorem exists_first {depth : Nat} {j : Json} (h : Fits depth j) (level : Nat) :
    ∃ c cs, indented level j = c :: cs ∧ isBlank c = false ∧ c ≠ ']' := by
  cases h with
  | null => exact ⟨'n', _, rfl, rfl, by decide⟩
  | bool b => cases b <;> exact ⟨_, _, rfl, rfl, by decide⟩
  | @integer _ n _ =>
    obtain ⟨c, cs, hcons, hc⟩ := exists_toString_eq_cons n
    have hfirst := first_of_integer hc
    exact ⟨c, cs, hcons, hfirst.1, fun heq => hfirst.2 (by simp [heq])⟩
  | string s => exact ⟨'\x22', _, rfl, rfl, by decide⟩
  | @array _ elements _ => cases elements <;> exact ⟨'[', _, rfl, rfl, by decide⟩
  | @object _ members _ => cases members <;> exact ⟨'\x7b', _, rfl, rfl, by decide⟩

private theorem readValue_integer {n : Int} (hn : IsWord n) (depth : Nat) {rest : List Char}
    (hrest : Stops continuesInteger rest) :
    readValue depth ((toString n).toList ++ rest) = some (.number (.integer n), rest) := by
  obtain ⟨c, cs, hcons, hc⟩ := exists_toString_eq_cons n
  obtain ⟨hblank, hmark⟩ := first_of_integer hc
  simp only [List.mem_cons, List.not_mem_nil, or_false, not_or] at hmark
  have hread := readNumber_integer hn hrest
  rw [hcons, List.cons_append] at hread ⊢
  rw [readValue, skipBlanks_cons_of_not hblank]
  simp only [hmark, hc, if_false, if_true, hread]

private theorem quote_append (s : String) (rest : List Char) :
    quote s ++ rest = '\x22' :: (s.toList.flatMap escape ++ '\x22' :: rest) := by
  simp [quote]

private theorem readValue_string (s : String) (depth : Nat) (rest : List Char) :
    readValue depth (quote s ++ rest) = some (.string s, rest) := by
  rw [quote_append, readValue, skipBlanks_cons_of_not rfl]
  simp [readQuoted_flatMap_escape]

private theorem readMember_memberText {value : List Char → Option (Json × List Char)} {m : String × Json} {level : Nat}
    {rest : List Char} (hskip : ∀ cs, value (skipBlanks cs) = value cs)
    (hvalue : value (indented level m.2 ++ rest) = some (m.2, rest)) :
    readMember value (memberText level m ++ rest) = some (m, rest) := by
  have hblank : value (' ' :: (indented level m.2 ++ rest)) = some (m.2, rest) := by
    rw [← hskip, ← List.singleton_append, skipBlanks_append (by simp [isBlank]), hskip, hvalue]
  rw [memberText, List.append_assoc, quote_append, readMember, skipBlanks_cons_of_not rfl]
  simp [readQuoted_flatMap_escape, skipBlanks_cons_of_not, hblank, isBlank]

private theorem readValue_array {depth : Nat} {cs rest : List Char} {elements : List Json}
    (h : readList (readValue depth) ']' cs = some (elements, rest)) :
    readValue (depth + 1) ('[' :: cs) = some (.array elements, rest) := by
  rw [readValue, skipBlanks_cons_of_not rfl]
  simp [h]

private theorem readValue_object {depth : Nat} {cs rest : List Char} {members : List (String × Json)}
    (h : readList (readMember (readValue depth)) '\x7d' cs = some (members, rest)) :
    readValue (depth + 1) ('\x7b' :: cs) = some (.object members, rest) := by
  rw [readValue, skipBlanks_cons_of_not rfl]
  simp [h]

private theorem readValue_word {depth : Nat} {c : Char} {cs rest : List Char} {j : Json} (hc : c ∈ ['n', 't', 'f'])
    (h : readWord (c :: cs) = some (j, rest)) : readValue depth (c :: cs) = some (j, rest) := by
  simp only [List.mem_cons, List.not_mem_nil, or_false] at hc
  rcases hc with rfl | rfl | rfl <;> rw [readValue, skipBlanks_cons_of_not rfl] <;> exact h

/-- A value is read back, whatever follows it that does not go on with a number. -/
theorem readValue_indented {depth : Nat} {j : Json} (h : Fits depth j) (level : Nat) {rest : List Char}
    (hrest : Stops continuesInteger rest) : readValue depth (indented level j ++ rest) = some (j, rest) := by
  induction h generalizing level rest with
  | null => exact readValue_word (c := 'n') (by decide) rfl
  | bool b =>
    cases b with
    | false => exact readValue_word (c := 'f') (by decide) rfl
    | true => exact readValue_word (c := 't') (by decide) rfl
  | integer hn => exact readValue_integer hn _ hrest
  | string s => exact readValue_string s _ rest
  | @array depth elements h ih =>
    cases elements with
    | nil => rfl
    | cons j js =>
      have hreads : ReadsBack (readValue depth) ']' (indented (level + 1)) (j :: js) :=
        ⟨readValue_skipBlanks depth, fun a ha _ hrest => ih a ha (level + 1) hrest,
          fun a ha => exists_first (h a ha) (level + 1)⟩
      have hlist := readList_itemLines hreads (by simp) ⟨rfl, by decide⟩ (level + 1) level rest
      rw [indented, indentedElements_eq]
      simpa using readValue_array hlist
  | @object depth members h ih =>
    cases members with
    | nil => rfl
    | cons m ms =>
      have hmember : ∀ a ∈ m :: ms, ∀ rest, Stops continuesInteger rest →
          readMember (readValue depth) (memberText (level + 1) a ++ rest) = some (a, rest) := fun a ha _ hrest =>
        readMember_memberText (readValue_skipBlanks depth) (ih a ha (level + 1) hrest)
      have hreads : ReadsBack (readMember (readValue depth)) '\x7d' (memberText (level + 1)) (m :: ms) :=
        ⟨readMember_skipBlanks _, hmember, fun a _ => ⟨'\x22', _, rfl, rfl, by decide⟩⟩
      have hlist := readList_itemLines hreads (by simp) ⟨rfl, by decide⟩ (level + 1) level rest
      rw [indented, indentedMembers_eq]
      simpa using readValue_object hlist

/-- Text written over lines is read as the value that is written. -/
theorem parse?_renderLines {j : Json} (h : Fits maxDepth j) : parse? j.renderLines = some j := by
  have hread : readValue maxDepth (indented 0 j ++ []) = some (j, []) := readValue_indented h 0 (by rintro c ⟨⟩)
  rw [List.append_nil] at hread
  simp only [parse?, renderLines, String.toList_ofList, hread]
  rfl

end Placeholder.Json
