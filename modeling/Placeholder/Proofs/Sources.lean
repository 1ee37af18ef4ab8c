import Placeholder.Command.Bindings
import Placeholder.Proofs.Results
import Mathlib.Data.List.Basic
import Mathlib.Data.Option.Basic

/-!
What sources of bindings hold. Which JSON is a bindings file, and which are the parts of it, is told without the
reader; so is what becomes of a source that is absent, cannot be read or holds something else.
-/
namespace Placeholder

/-- What JSON holds that is to hold certain contents: the members of a named part and the elements of a positional
part. In a bindings file either part may be left out. -/
inductive Contents.Holds : Contents → Json → BindingsFile → Prop
  | parts {members : List (String × Json)} {file : BindingsFile} :
    (members.map Prod.fst).Nodup → (∀ name ∈ members.map Prod.fst, name = "named" ∨ name = "positional") →
    (("named", .object file.named) ∈ members ∨ "named" ∉ members.map Prod.fst ∧ file.named = []) →
    (("positional", .array file.positional) ∈ members ∨
      "positional" ∉ members.map Prod.fst ∧ file.positional = []) →
    Holds .bindingsFile (.object members) file
  | noRow : Holds .bindingsFile (.array []) ⟨[], []⟩
  | shortRow {named : List (String × Json)} : Holds .bindingsFile (.array [.object named]) ⟨named, []⟩
  | row {named : List (String × Json)} {positional : List Json} :
    Holds .bindingsFile (.array [.object named, .array positional]) ⟨named, positional⟩
  | object {members : List (String × Json)} : Holds .object (.object members) ⟨members, []⟩
  | array {elements : List Json} : Holds .array (.array elements) ⟨[], elements⟩

namespace BindingSources

/-- The text of a source, if there is the source. -/
def text? (read : String → Except ReadError String) (sources : BindingSources) :
    Contents → Option (Except Failure String)
  | .bindingsFile => sources.file.map fun path => (read path).mapError (.bindingsFile path)
  | .object => sources.named.map .ok
  | .array => sources.positional.map .ok

/-- What a source gives. One that is absent holds nothing; one that cannot be read, or does not hold what it is to
hold, fails. -/
inductive Gives (complain : Contents → String → String) (read : String → Except ReadError String)
    (sources : BindingSources) (contents : Contents) : Except Failure BindingsFile → Prop
  | absent : sources.text? read contents = none → Gives complain read sources contents (.ok ⟨[], []⟩)
  | unreadable {f : Failure} : sources.text? read contents = some (.error f) →
    Gives complain read sources contents (.error f)
  | held {text : String} {json : Json} {layer : BindingsFile} : sources.text? read contents = some (.ok text) →
    Json.parse? text = some json → contents.Holds json layer → Gives complain read sources contents (.ok layer)
  | malformed {text : String} : sources.text? read contents = some (.ok text) →
    (∀ json layer, Json.parse? text = some json → ¬ contents.Holds json layer) →
    Gives complain read sources contents (.error (.json (complain contents text)))

end BindingSources

/-! Readers of contents. -/

def Contents.part? : Contents → Json → Option BindingsFile
  | .bindingsFile, json => BindingsFile.ofJson? json
  | .object, json => json.members?.map (⟨·, []⟩)
  | .array, json => json.elements?.map (⟨[], ·⟩)

namespace Json

theorem members?_eq_some_iff {json : Json} {members : List (String × Json)} :
    json.members? = some members ↔ json = .object members := by
  cases json <;> simp [members?]

theorem elements?_eq_some_iff {json : Json} {elements : List Json} :
    json.elements? = some elements ↔ json = .array elements := by
  cases json <;> simp [elements?]

variable {members : List (String × Json)} {name : String} {json : Json}

private theorem lookup_eq_some_iff_mem (hnames : (members.map Prod.fst).Nodup) :
    members.lookup name = some json ↔ (name, json) ∈ members := by
  rw [List.lookup_eq_some_iff]
  constructor
  · rintro ⟨before, after, rfl, -⟩
    simp
  · intro h
    obtain ⟨before, after, rfl⟩ := List.append_of_mem h
    refine ⟨before, after, rfl, fun member hmember => ?_⟩
    simp only [List.map_append, List.map_cons, List.nodup_append] at hnames
    have hne := hnames.2.2 _ (List.mem_map_of_mem hmember) name List.mem_cons_self
    simpa using Ne.symm hne

private theorem lookup_elim_eq_some_iff {α : Type} {part : Json → Option (List α)} {wrap : List α → Json}
    (hpart : ∀ {json as}, part json = some as ↔ json = wrap as) (hnames : (members.map Prod.fst).Nodup)
    {as : List α} : (members.lookup name).elim (some []) part = some as ↔
      (name, wrap as) ∈ members ∨ name ∉ members.map Prod.fst ∧ as = [] := by
  cases hlookup : members.lookup name with
  | some json =>
    have hmem := (lookup_eq_some_iff_mem hnames).mp hlookup
    have hname : name ∈ members.map Prod.fst := List.mem_map_of_mem hmem
    rw [Option.elim_some, hpart, ← lookup_eq_some_iff_mem hnames, hlookup, Option.some.injEq]
    simp [hname]
  | none =>
    have hname : name ∉ members.map Prod.fst := by
      intro h
      obtain ⟨member, hmember, heq⟩ := List.mem_map.mp h
      have hne := List.lookup_eq_none_iff.mp hlookup member hmember
      simp [heq] at hne
    have hnot : (name, wrap as) ∉ members := fun h => hname (List.mem_map_of_mem h)
    rw [Option.elim_none, Option.some.injEq]
    simp only [hnot, hname, not_false_eq_true, true_and, false_or]
    exact eq_comm

end Json

namespace BindingsFile

private theorem ofJson?_object_eq_some_iff {members : List (String × Json)} {file : BindingsFile} :
    ofJson? (.object members) = some file ↔
      (members.map Prod.fst).Nodup ∧ (∀ name ∈ members.map Prod.fst, name = "named" ∨ name = "positional") ∧
        (members.lookup "named").elim (some []) Json.members? = some file.named ∧
        (members.lookup "positional").elim (some []) Json.elements? = some file.positional := by
  obtain ⟨named, positional⟩ := file
  simp [ofJson?, Option.bind_eq_some_iff, Option.guard_eq_some']

/-- A bindings file is read when it is one, and its parts are what is read. -/
theorem ofJson?_eq_some_iff {json : Json} {file : BindingsFile} :
    ofJson? json = some file ↔ Contents.bindingsFile.Holds json file := by
  constructor
  · intro h
    cases json with
    | object members =>
      obtain ⟨hnames, hknown, hnamed, hpositional⟩ := ofJson?_object_eq_some_iff.mp h
      exact .parts hnames hknown ((Json.lookup_elim_eq_some_iff Json.members?_eq_some_iff hnames).mp hnamed)
        ((Json.lookup_elim_eq_some_iff Json.elements?_eq_some_iff hnames).mp hpositional)
    | array elements =>
      rcases elements with _ | ⟨named, _ | ⟨positional, _ | ⟨_, _⟩⟩⟩
      · cases h
        exact .noRow
      · obtain ⟨members, hmembers, heq⟩ := Option.bind_eq_some_iff.mp h
        cases heq
        rw [Json.members?_eq_some_iff.mp hmembers]
        exact .shortRow
      · obtain ⟨members, hmembers, h⟩ := Option.bind_eq_some_iff.mp h
        obtain ⟨elements, helements, heq⟩ := Option.bind_eq_some_iff.mp h
        cases heq
        rw [Json.members?_eq_some_iff.mp hmembers, Json.elements?_eq_some_iff.mp helements]
        exact .row
      · cases h
    | null | bool | number | string => cases h
  · intro h
    cases h with
    | parts hnames hknown hnamed hpositional =>
      exact ofJson?_object_eq_some_iff.mpr ⟨hnames, hknown,
        (Json.lookup_elim_eq_some_iff Json.members?_eq_some_iff hnames).mpr hnamed,
        (Json.lookup_elim_eq_some_iff Json.elements?_eq_some_iff hnames).mpr hpositional⟩
    | noRow | shortRow | row => rfl

end BindingsFile

theorem Contents.part?_eq_some_iff {contents : Contents} {json : Json} {layer : BindingsFile} :
    contents.part? json = some layer ↔ contents.Holds json layer := by
  cases contents with
  | bindingsFile => exact BindingsFile.ofJson?_eq_some_iff
  | object =>
    rw [part?, Option.map_eq_some_iff]
    constructor
    · rintro ⟨members, h, rfl⟩
      rw [Json.members?_eq_some_iff.mp h]
      exact .object
    · rintro ⟨⟩
      exact ⟨_, rfl, rfl⟩
  | array =>
    rw [part?, Option.map_eq_some_iff]
    constructor
    · rintro ⟨elements, h, rfl⟩
      rw [Json.elements?_eq_some_iff.mp h]
      exact .array
    · rintro ⟨⟩
      exact ⟨_, rfl, rfl⟩

namespace BindingSources

def layer (complain : Contents → String → String) (read : String → Except ReadError String)
    (sources : BindingSources) (contents : Contents) : Except Failure BindingsFile :=
  match sources.text? read contents with
  | none => .ok ⟨[], []⟩
  | some text => text >>= parse (complain contents) contents.part?

/-- What the sources give, the file first. -/
def layers (complain : Contents → String → String) (read : String → Except ReadError String)
    (sources : BindingSources) : List (Except Failure BindingsFile) :=
  [Contents.bindingsFile, .object, .array].map (sources.layer complain read)

variable {complain : Contents → String → String} {read : String → Except ReadError String}
  {sources : BindingSources} {contents : Contents}

/-- Of an object the members alone are wanted. -/
theorem Gives.object {layer : BindingsFile} (h : sources.Gives complain read .object (.ok layer)) :
    ∃ members, layer = ⟨members, []⟩ := by
  cases h with
  | absent => exact ⟨[], rfl⟩
  | held _ _ hlayer =>
    cases hlayer
    exact ⟨_, rfl⟩

/-- Of an array the elements alone are wanted. -/
theorem Gives.array {layer : BindingsFile} (h : sources.Gives complain read .array (.ok layer)) :
    ∃ elements, layer = ⟨[], elements⟩ := by
  cases h with
  | absent => exact ⟨[], rfl⟩
  | held _ _ hlayer =>
    cases hlayer
    exact ⟨_, rfl⟩

private theorem parse_part?_eq_ok {text : String} {json : Json} {layer : BindingsFile}
    (hjson : Json.parse? text = some json) (hlayer : contents.Holds json layer) :
    parse (complain contents) contents.part? text = .ok layer := by
  rw [parse, hjson, Option.bind_some, Contents.part?_eq_some_iff.mpr hlayer]

private theorem parse_part?_eq_error {text : String}
    (h : ∀ json layer, Json.parse? text = some json → ¬ contents.Holds json layer) :
    parse (complain contents) contents.part? text = .error (.json (complain contents text)) := by
  have hnone : (Json.parse? text).bind contents.part? = none := by
    rw [Option.bind_eq_none_iff]
    intro json hjson
    rw [Option.eq_none_iff_forall_ne_some]
    exact fun layer hlayer => h json layer hjson (Contents.part?_eq_some_iff.mp hlayer)
  rw [parse, hnone]

private theorem layer_of_gives {r : Except Failure BindingsFile} (h : sources.Gives complain read contents r) :
    sources.layer complain read contents = r := by
  cases h with
  | absent htext => rw [layer, htext]
  | unreadable htext => rw [layer, htext]; rfl
  | held htext hjson hlayer => rw [layer, htext]; exact parse_part?_eq_ok hjson hlayer
  | malformed htext h => rw [layer, htext]; exact parse_part?_eq_error h

/-- Every source gives something, and one thing only. -/
theorem layer_eq_iff {r : Except Failure BindingsFile} :
    sources.layer complain read contents = r ↔ sources.Gives complain read contents r := by
  refine ⟨?_, layer_of_gives⟩
  rintro rfl
  suffices h : ∃ r, sources.Gives complain read contents r by
    obtain ⟨r, hr⟩ := h
    rwa [layer_of_gives hr]
  cases htext : sources.text? read contents with
  | none => exact ⟨_, .absent htext⟩
  | some text =>
    cases text with
    | error f => exact ⟨_, .unreadable htext⟩
    | ok text =>
      by_cases h : ∃ json layer, Json.parse? text = some json ∧ contents.Holds json layer
      · obtain ⟨json, layer, hjson, hlayer⟩ := h
        exact ⟨_, .held htext hjson hlayer⟩
      · exact ⟨_, .malformed htext fun json layer hjson hlayer => h ⟨json, layer, hjson, hlayer⟩⟩

end BindingSources
end Placeholder
