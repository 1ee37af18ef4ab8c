import Placeholder.Listing
import Placeholder.Proofs.JsonValues
import Placeholder.Proofs.Layers

/-!
Listings for programs are read back: bindings by the loader of positional bindings, tokens member by member.
-/
namespace Placeholder
open Json

inductive Value.Plain : Value → Prop
  | null : Plain .null
  | bool (b : Bool) : Plain (.bool b)
  | int (n : Int64) : Plain (.int n)
  | text (s : String) : Plain (.text s)

def Binding.Plain (b : Binding Value) : Prop :=
  ∀ v ∈ b.values, v.Plain

/-- Both ends are positions that a machine word of 64 bits holds. -/
structure Span.Sized (s : Span) : Prop where
  start : s.start < UInt64.size
  stop : s.stop < UInt64.size

/-! What is written fits the reader. -/

private theorem isWord_ofNat {n : Nat} (h : n < UInt64.size) : IsWord n :=
  ⟨by change (-9223372036854775808 : Int) ≤ n; omega, by exact_mod_cast h⟩

theorem Value.Plain.fits {v : Value} (h : v.Plain) (depth : Nat) : Fits depth v.toJson := by
  cases h with
  | null => exact .null
  | bool b => exact .bool b
  | int n => exact .integer (isWord_toInt n)
  | text s => exact .string s

theorem Binding.Plain.fits {b : Binding Value} (h : b.Plain) (depth : Nat) : Fits (depth + 1) b.toJson := by
  cases b with
  | scalar v => exact (h v List.mem_cons_self).fits _
  | sequence vs =>
    refine .array fun j hj => ?_
    obtain ⟨v, hv, rfl⟩ := List.mem_map.mp hj
    exact (h v hv).fits depth

theorem Span.Sized.fits {s : Span} (h : s.Sized) (depth : Nat) : Fits (depth + 1) s.toJson := by
  refine .object ?_
  simp only [List.forall_mem_cons]
  exact ⟨.integer (isWord_ofNat h.start), .integer (isWord_ofNat h.stop), by simp⟩

theorem Token.fits {t : Token} (h : t.span.Sized) (depth : Nat) : Fits (depth + 2) t.toJson := by
  refine .object ?_
  simp only [List.forall_mem_cons]
  exact ⟨.string _, .string _, .string _, h.fits depth, by simp⟩

/-! Values and bindings. -/

theorem Value.Plain.ofJson_toJson {v : Value} (h : v.Plain) : Value.ofJson v.toJson = .ok v := by
  cases h with
  | null | bool | text => rfl
  | int n =>
    have hn : Int64.minValue.toInt ≤ n.toInt ∧ n.toInt ≤ Int64.maxValue.toInt := ⟨n.minValue_le_toInt, n.toInt_le⟩
    rw [Value.toJson, Value.ofJson, Value.ofNumber?, Json.Number.int64?, if_pos hn, Int64.ofInt_toInt]
    rfl

theorem Value.Plain.ofElement_toJson {v : Value} (h : v.Plain) : Value.ofElement v.toJson = .ok v := by
  have hjson := h.ofJson_toJson
  cases h <;> exact hjson

private theorem mapM_ofElement_toJson {vs : List Value} (h : ∀ v ∈ vs, v.Plain) :
    (vs.map Value.toJson).mapM Value.ofElement = .ok vs := by
  have hall : ∀ v ∈ vs, Value.ofElement v.toJson = pure (id v) := fun v hv => (h v hv).ofElement_toJson
  rw [mapM_map_eq_pure hall, List.map_id]
  rfl

theorem Binding.Plain.ofJson_toJson {b : Binding Value} (h : b.Plain) : Binding.ofJson b.toJson = .ok b := by
  cases b with
  | scalar v =>
    have hv := h v List.mem_cons_self
    have hjson := hv.ofJson_toJson
    cases hv <;> simp only [Binding.toJson, Value.toJson, Binding.ofJson] at hjson ⊢ <;> rw [hjson] <;> rfl
  | sequence vs =>
    have hvs : (vs.map Value.toJson).mapM Value.ofElement = .ok vs := mapM_ofElement_toJson h
    rw [Binding.toJson, Binding.ofJson, hvs]
    rfl

/-- Elements that stand for bindings are added as they are. -/
theorem Environment.addPositional_toJson {bs : List (Binding Value)} (h : ∀ b ∈ bs, b.Plain) (env : Environment Value) :
    env.addPositional (bs.map Binding.toJson) = .ok ⟨env.named, env.positionals ++ bs⟩ := by
  induction bs generalizing env with
  | nil =>
    rw [List.append_nil]
    rfl
  | cons b bs ih =>
    obtain ⟨hb, hbs⟩ := List.forall_mem_cons.mp h
    rw [List.map_cons, addPositional_cons, Binding.ofNamedJson_eq_ok_iff.mpr hb.ofJson_toJson]
    exact (ih hbs (env.bindNext b)).trans (by simp [bindNext])

/-- A positional source of bindings, alone, is loaded as they are. -/
theorem BindingSources.load_positional {bs : List (Binding Value)} (h : ∀ b ∈ bs, b.Plain) {text : String}
    (htext : parse? text = some (.array (bs.map Binding.toJson))) (complain : Contents → String → String)
    (read : String → Except ReadError String) :
    (load complain read ⟨none, none, some text⟩).result = .ok ⟨∅, bs⟩ := by
  have hparse : parse (complain .array) elements? text = .ok (bs.map Binding.toJson) := by
    simp only [parse, htext, Option.bind_some, elements?]
  have henv : environment complain read ⟨none, none, some text⟩ =
      parse (complain .array) elements? text >>= Environment.empty.addPositional := by
    simp [environment]
  rw [load_result, henv, hparse]
  exact Environment.addPositional_toJson h _

/-- The text is read as an object of a query and an array of bindings and of nothing else, and the array, given
as the positional source in any of its spellings, is loaded as the bindings. -/
def ReadsAs (text query : String) (bindings : List (Binding Value)) : Prop :=
  ∃ elements, parse? text = some (.object [("query", .string query), ("bindings", .array elements)]) ∧
    (∃ source, parse? source = some (.array elements)) ∧
    ∀ complain read source, parse? source = some (.array elements) →
      (BindingSources.load complain read ⟨none, none, some source⟩).result = .ok ⟨∅, bindings⟩

/-- Of the depths that the reader allows, the object takes one, the array of the bindings one and a list one. -/
theorem readsAs_withBindings (query : String) {bs : List (Binding Value)} (h : ∀ b ∈ bs, b.Plain) :
    ReadsAs (Listing.withBindings query (bs.map Binding.toJson)) query bs := by
  have helements : ∀ depth, Fits (depth + 2) (.array (bs.map Binding.toJson)) := by
    refine fun depth => .array fun j hj => ?_
    obtain ⟨b, hb, rfl⟩ := List.mem_map.mp hj
    exact (h b hb).fits depth
  refine ⟨bs.map Binding.toJson, ?_, ⟨_, parse?_renderLines (helements 125)⟩, ?_⟩
  · apply parse?_renderLines
    refine .object ?_
    simp only [List.forall_mem_cons]
    exact ⟨.string query, helements 124, by simp⟩
  · exact fun complain read source hsource => BindingSources.load_positional h hsource complain read

/-! Tokens. -/

def Kind.ofName? (name : String) : Option Kind :=
  [other, implicit, explicit, named, percentNamed].find? (·.name == name)

def Json.natural? : Json → Option Nat
  | .number (.integer n) => n.toNat?
  | _ => none

def Json.string? : Json → Option String
  | .string s => some s
  | _ => none

def Span.ofJson? (json : Json) : Option Span := do
  let members ← json.members?
  let start ← (← members.lookup "start").natural?
  let stop ← (← members.lookup "end").natural?
  return ⟨start, stop⟩

def Token.ofJson? (json : Json) : Option Token := do
  let members ← json.members?
  let kind ← Kind.ofName? (← (← members.lookup "kind").string?)
  let text ← (← members.lookup "text").string?
  let inside ← (← members.lookup "inside").string?
  let span ← Span.ofJson? (← members.lookup "span")
  return ⟨kind, text, inside, span⟩

theorem Kind.ofName?_name (k : Kind) : ofName? k.name = some k := by
  cases k <;> decide

theorem Span.ofJson?_toJson (s : Span) : ofJson? s.toJson = some s := rfl

theorem Token.ofJson?_toJson (t : Token) : ofJson? t.toJson = some t := by
  change (Kind.ofName? t.kind.name >>= fun kind => some ⟨kind, t.text, t.inside, t.span⟩) = some t
  rw [Kind.ofName?_name]
  rfl

private theorem mapM_ofJson?_toJson (ts : List Token) : (ts.map Token.toJson).mapM Token.ofJson? = some ts := by
  have hall : ∀ t ∈ ts, Token.ofJson? t.toJson = pure (id t) := fun t _ => t.ofJson?_toJson
  rw [mapM_map_eq_pure hall, List.map_id]
  rfl

private theorem parse?_tokens {ts : List Token} (h : ∀ t ∈ ts, t.span.Sized) :
    parse? (Listing.tokens .json ts) = some (.array (ts.map Token.toJson)) := by
  refine parse?_renderLines (.array fun j hj => ?_)
  obtain ⟨t, ht, rfl⟩ := List.mem_map.mp hj
  exact t.fits (h t ht) 124

/-- What the listings for programs say is read from them: the query and the bindings of a bound query, with lists
and without, and the tokens. -/
theorem listings_read_back (q : String) (bs : List (Binding Value)) (vs : List Value) (ts : List Token)
    (hbs : ∀ b ∈ bs, b.Plain) (hvs : ∀ v ∈ vs, v.Plain) (hts : ∀ t ∈ ts, t.span.Sized) :
    ReadsAs (Listing.resolved .json ⟨q, bs⟩) q bs ∧
      ReadsAs (Listing.expanded .json ⟨q, vs⟩) q (vs.map .scalar) ∧
      ∃ elements, parse? (Listing.tokens .json ts) = some (.array elements) ∧
        elements.mapM Token.ofJson? = some ts := by
  refine ⟨readsAs_withBindings q hbs, ?_, _, parse?_tokens hts, mapM_ofJson?_toJson ts⟩
  have hscalars : ∀ b ∈ vs.map Binding.scalar, b.Plain := by
    intro b hb
    obtain ⟨v, hv, rfl⟩ := List.mem_map.mp hb
    simpa [Binding.Plain, Binding.values] using hvs v hv
  have hread := readsAs_withBindings q hscalars
  rwa [List.map_map] at hread

/-- Quotes, line breaks, controls and code points beyond 16 bits, the least and the greatest integer, and lists
without elements are among what is read back. -/
theorem listings_read_back_extremes :
    ReadsAs (Listing.resolved .json ⟨"\x22\\\n\x01\x7f😀 ?", [.scalar (.int Int64.minValue), .sequence [],
        .sequence [.text "\x22'\n\x00", .null]]⟩) "\x22\\\n\x01\x7f😀 ?"
      [.scalar (.int Int64.minValue), .sequence [], .sequence [.text "\x22'\n\x00", .null]] ∧
    ReadsAs (Listing.expanded .json ⟨"\x22\\\n\x01\x7f😀 ?", [.int Int64.maxValue, .bool false]⟩)
      "\x22\\\n\x01\x7f😀 ?" ([.int Int64.maxValue, .bool false].map .scalar) ∧
    ∃ elements, parse? (Listing.tokens .json [⟨.percentNamed, "%(\n)s", "\n", ⟨7, 12⟩⟩]) = some (.array elements) ∧
      elements.mapM Token.ofJson? = some [⟨.percentNamed, "%(\n)s", "\n", ⟨7, 12⟩⟩] := by
  refine listings_read_back _ _ _ _ ?_ ?_ ?_
  · simp only [List.forall_mem_cons, Binding.Plain, Binding.values]
    exact ⟨⟨.int _, by simp⟩, by simp, ⟨.text _, .null, by simp⟩, by simp⟩
  · simp only [List.forall_mem_cons]
    exact ⟨.int _, .bool _, by simp⟩
  · simp only [List.forall_mem_cons]
    exact ⟨⟨by decide, by decide⟩, by simp⟩

end Placeholder
