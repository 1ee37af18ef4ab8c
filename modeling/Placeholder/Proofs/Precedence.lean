import Placeholder.Proofs.Splitting

/-!
The order of the forms. No two forms are found at one place, so none takes precedence over another: whichever is
tried first, the scan finds the one splitting of the text. Of the letters it matters only that no digit from 0 to 9
is one.
-/
namespace Placeholder
open Form

/-- Two forms that read the front of one text are the same form. -/
theorem Form.eq_of_isSome_read {form form' : Form} {cs : List Char} (h : (form.read cs).isSome)
    (h' : (form'.read cs).isSome) : form = form' := by
  obtain ⟨l, rest, heq, hl⟩ := begins_iff_isSome_read.mpr h
  obtain ⟨l', rest', heq', hl'⟩ := begins_iff_isSome_read.mpr h'
  have hboth : l.text ++ rest = l'.text ++ rest' := heq.symm.trans heq'
  exact (covers_unique hl hl' hboth).1

/-- The pieces of a text are the same in every order of the forms, because there is one splitting only. -/
theorem Piece.split_of_perm {forms : List Form} (hforms : forms.Perm all) (cs : List Char) :
    split forms cs = split all cs := by
  have hmem : ∀ form, form ∈ forms := fun form => hforms.mem_iff.mpr (mem_all form)
  exact splits_iff.mp (splits_split_of_forall_mem hmem cs)

/-- At each place of a query one form at most is found, and the query has the same tokens in whatever order the
forms are tried. -/
theorem forms_exclusive_in_any_order (query : String) :
    (∀ cs, cs <:+ query.toList → ∀ form form' : Form,
      (form.read cs).isSome → (form'.read cs).isSome → form = form') ∧
    ∀ forms : List Form, forms.Perm all → lexBy forms query = lex query := by
  constructor
  · intro cs _ form form' h h'
    exact eq_of_isSome_read h h'
  · intro forms hforms
    have hsplit := Piece.split_of_perm hforms query.toList
    rw [lexBy, hsplit, lex, lexBy]

/-- A sigil that opens an index opens no name, also when names are tried before indices. -/
theorem forms_exclusive_at_shared_sigil :
    (":1a".toList <:+ "x = :1a".toList ∧ (explicit.read ":1a".toList).isSome ∧
      (named.read ":1a".toList).isSome = false) ∧
    all.reverse.Perm all ∧ lexBy all.reverse "x = :1a" = lex "x = :1a" := by
  obtain ⟨hone, horder⟩ := forms_exclusive_in_any_order "x = :1a"
  have hplace : ":1a".toList <:+ "x = :1a".toList := ⟨"x = ".toList, by decide⟩
  have hindex : (explicit.read ":1a".toList).isSome := by decide
  have hname : (named.read ":1a".toList).isSome = false := by
    rw [Bool.eq_false_iff]
    intro h
    exact absurd (hone _ hplace _ _ hindex h) (by decide)
  have hperm : all.reverse.Perm all := List.reverse_perm all
  exact ⟨⟨hplace, hindex, hname⟩, hperm, horder _ hperm⟩

end Placeholder
