import Placeholder.Proofs.ByteOrder
import Placeholder.Proofs.Sources
import Mathlib.Data.List.Basic

/-!
Bindings in layers. The sources of bindings lie on one another, the file at the bottom: a name is bound by the
uppermost source that has it, positions go on from source to source, and the first thing that goes wrong, source
by source and member by member, is what loading fails with.
-/
namespace Placeholder

/-- What becomes of members: each is converted, in the order of the names. -/
def memberSteps (members : List (String × Json)) : List (Except Failure (Binding Value)) :=
  (Json.fields members).toList.map fun member => (Binding.ofJson member.2).mapError (.invalidBinding member.1)

/-- What becomes of elements that come after `before` others: each is converted, under the name of its place. -/
def elementSteps (before : Nat) (elements : List Json) : List (Except Failure (Binding Value)) :=
  (elements.zipIdx (before + 1)).map fun element =>
    (Binding.ofJson element.1).mapError (.invalidBinding ("#" ++ toString element.2))

@[simp] theorem memberSteps_nil : memberSteps [] = [] := rfl

@[simp] theorem elementSteps_nil (before : Nat) : elementSteps before [] = [] := rfl

/-- Elements are numbered on from one source to the next. -/
theorem elementSteps_append (before : Nat) (elements elements' : List Json) :
    elementSteps before (elements ++ elements') =
      elementSteps before elements ++ elementSteps (before + elements.length) elements' := by
  rw [elementSteps, List.zipIdx_append, List.map_append, Nat.add_right_comm]
  rfl

def BindingsFile.steps (before : Nat) (layer : BindingsFile) : List (Except Failure (Binding Value)) :=
  memberSteps layer.named ++ elementSteps before layer.positional

namespace BindingSources

/-- What becomes of the layers and their parts, in order. A layer that fails does so before its parts would. -/
def stepsFrom : Nat → List (Except Failure BindingsFile) → List (Except Failure (Binding Value))
  | _, [] => []
  | before, .error f :: layers => .error f :: stepsFrom before layers
  | before, .ok layer :: layers => layer.steps before ++ stepsFrom (before + layer.positional.length) layers

/-- All steps of loading. -/
def steps (complain : Contents → String → String) (read : String → Except ReadError String)
    (sources : BindingSources) : List (Except Failure (Binding Value)) :=
  stepsFrom 0 (sources.layers complain read)

end BindingSources

namespace Environment

def addLayer (env : Environment Value) (layer : Except Failure BindingsFile) :
    Except Failure (Environment Value) := do
  let part ← layer
  (← env.addNamed part.named).addPositional part.positional

variable (env : Environment Value)

@[simp] theorem addNamed_nil : env.addNamed [] = pure env := rfl

@[simp] theorem addPositional_nil : env.addPositional [] = pure env := rfl

private theorem addLayer_absent : env.addLayer (pure ⟨[], []⟩) = pure env := rfl

private theorem addLayer_bind {α : Type} (r : Except Failure α) (part : α → Except Failure BindingsFile) :
    env.addLayer (r >>= part) = r >>= fun a => part a >>= fun layer =>
      env.addNamed layer.named >>= fun env => env.addPositional layer.positional := by
  cases r <;> rfl

private theorem addLayer_named (r : Except Failure (List (String × Json))) :
    env.addLayer ((⟨·, []⟩) <$> r) = r >>= env.addNamed := by
  cases r with
  | error f => rfl
  | ok members =>
    change (env.addNamed members >>= fun env' => env'.addPositional []) = env.addNamed members
    cases env.addNamed members <;> rfl

private theorem addLayer_positional (r : Except Failure (List Json)) :
    env.addLayer ((⟨[], ·⟩) <$> r) = r >>= env.addPositional := by
  cases r <;> rfl

end Environment

namespace BindingSources

variable (complain : Contents → String → String) (read : String → Except ReadError String)
  (sources : BindingSources)

private theorem parse_map {α β : Type} (f : α → β) (part : Json → Option α) (complain : String → String)
    (text : String) : parse complain (fun json => (part json).map f) text = f <$> parse complain part text := by
  unfold parse
  cases Json.parse? text with
  | none => rfl
  | some json => cases h : part json <;> simp [h]

private theorem layer_bindingsFile :
    sources.layer complain read .bindingsFile = sources.file.elim (pure ⟨[], []⟩) fun path =>
      (read path).mapError (Failure.bindingsFile path) >>= parse (complain .bindingsFile) BindingsFile.ofJson? := by
  unfold layer text?
  cases sources.file <;> rfl

private theorem layer_inline {α : Type} {contents : Contents} (part : Json → Option (List α))
    (wrap : List α → BindingsFile) (hpart : contents.part? = fun json => (part json).map wrap)
    (hwrap : wrap [] = ⟨[], []⟩) {text : Option String} (htext : sources.text? read contents = text.map .ok) :
    sources.layer complain read contents = wrap <$> text.elim (pure []) (parse (complain contents) part) := by
  rw [layer, htext]
  cases text with
  | none => exact congrArg Except.ok hwrap.symm
  | some text =>
    rw [hpart]
    exact parse_map wrap part (complain contents) text

/-- Loading adds layer after layer. -/
theorem environment_eq :
    sources.environment complain read = (sources.layers complain read).foldlM Environment.addLayer .empty := by
  have hnamed : sources.layer complain read .object =
      (⟨·, []⟩) <$> sources.named.elim (pure []) (parse (complain .object) Json.members?) :=
    layer_inline complain read sources Json.members? (⟨·, []⟩) rfl rfl rfl
  have hpositional : sources.layer complain read .array =
      (⟨[], ·⟩) <$> sources.positional.elim (pure []) (parse (complain .array) Json.elements?) :=
    layer_inline complain read sources Json.elements? (⟨[], ·⟩) rfl rfl rfl
  rw [layers, List.map_cons, List.map_cons, List.map_cons, List.map_nil, layer_bindingsFile, hnamed, hpositional]
  obtain ⟨file, named, positional⟩ := sources
  unfold environment
  cases file <;> cases named <;> cases positional <;>
    simp [Environment.addLayer_absent, Environment.addLayer_named, Environment.addLayer_positional,
      Environment.addLayer_bind]

end BindingSources

namespace Json

/-- A name stands for the last of the members that have it. -/
theorem getElem?_fields (members : List (String × Json)) (name : String) :
    (fields members)[name]? = members.reverse.lookup name := by
  suffices h : ∀ map : Std.TreeMap String Json,
      (members.foldl (fun map member => map.insert member.1 member.2) map)[name]? =
        (members.reverse.lookup name).or map[name]? by
    have hempty := h ∅
    rw [Std.TreeMap.getElem?_emptyc, Option.or_none] at hempty
    exact hempty
  induction members with
  | nil => simp
  | cons member members ih =>
    intro map
    obtain ⟨key, json⟩ := member
    rw [List.foldl_cons, ih, Std.TreeMap.getElem?_insert, List.reverse_cons, List.lookup_append, Option.or_assoc,
      List.lookup_cons]
    by_cases h : key = name
    · simp [h]
    · simp [h, beq_eq_false_iff_ne.mpr (Ne.symm h)]

/-- The members are visited in the order of the bytes of their names. -/
theorem pairwise_fields (members : List (String × Json)) :
    (fields members).toList.Pairwise fun a b => Text.bytes a.1 < Text.bytes b.1 := by
  refine Std.TreeMap.ordered_keys_toList.imp fun {a b} h => Text.bytes_lt_of_lt ?_
  exact compareOfLessAndEq_eq_lt.mp h

theorem mem_fields {members : List (String × Json)} {name : String} {json : Json} :
    (name, json) ∈ (fields members).toList ↔ members.reverse.lookup name = some json := by
  rw [Std.TreeMap.mem_toList_iff_getElem?_eq_some, getElem?_fields]

end Json

theorem Binding.ofNamedJson_eq_ok_iff {name : String} {json : Json} {b : Binding Value} :
    Binding.ofNamedJson name json = .ok b ↔ Binding.ofJson json = .ok b := by
  unfold Binding.ofNamedJson
  cases Binding.ofJson json <;> simp [Except.mapError]

namespace Environment

def bindMembers (env : Environment Value) (members : List (String × Json)) : Except Failure (Environment Value) :=
  members.foldlM (fun env (name, json) => env.bindName name <$> Binding.ofNamedJson name json) env

private theorem bindMembers_cons (env : Environment Value) (name : String) (json : Json)
    (members : List (String × Json)) :
    env.bindMembers ((name, json) :: members) =
      (env.bindName name <$> Binding.ofNamedJson name json) >>= (bindMembers · members) := rfl

theorem addPositional_cons (env : Environment Value) (json : Json) (elements : List Json) :
    env.addPositional (json :: elements) =
      (env.bindNext <$> Binding.ofNamedJson ("#" ++ toString (env.positionals.length + 1)) json) >>=
        (addPositional · elements) := rfl

private theorem failure?_bindMembers (members : List (String × Json)) (env : Environment Value) :
    failure? (env.bindMembers members) =
      (members.map fun member => Binding.ofNamedJson member.1 member.2).findSome? failure? := by
  induction members generalizing env with
  | nil => rfl
  | cons member members ih =>
    obtain ⟨name, json⟩ := member
    rw [bindMembers_cons, List.map_cons, List.findSome?_cons]
    cases Binding.ofNamedJson name json with
    | ok b => exact ih (env.bindName name b)
    | error f => rfl

/-- Adding members fails as the first of their steps does. -/
theorem failure?_addNamed (env : Environment Value) (members : List (String × Json)) :
    failure? (env.addNamed members) = (memberSteps members).findSome? failure? :=
  failure?_bindMembers _ env

/-- Adding elements fails as the first of their steps does. -/
theorem failure?_addPositional (elements : List Json) (env : Environment Value) :
    failure? (env.addPositional elements) =
      (elementSteps env.positionals.length elements).findSome? failure? := by
  induction elements generalizing env with
  | nil => rfl
  | cons json elements ih =>
    rw [addPositional_cons, Binding.ofNamedJson, elementSteps, List.zipIdx_cons, List.map_cons, List.findSome?_cons]
    cases Binding.ofJson json with
    | ok b =>
      have hnext := ih (env.bindNext b)
      rw [positionals_bindNext, List.length_append] at hnext
      exact hnext
    | error reason => rfl

/-- Members with names of their own are all bound, the other names stay as they are. -/
theorem bindMembers_eq_ok {members : List (String × Json)} {env env' : Environment Value}
    (h : env.bindMembers members = .ok env') (hnames : members.Pairwise fun a b => a.1 ≠ b.1) :
    env'.positionals = env.positionals ∧
      (∀ name json, (name, json) ∈ members → (env'.lookup? name).map Except.ok = some (Binding.ofJson json)) ∧
      ∀ name, (∀ json, (name, json) ∉ members) → env'.lookup? name = env.lookup? name := by
  induction members generalizing env with
  | nil =>
    cases h
    simp
  | cons member members ih =>
    obtain ⟨key, json⟩ := member
    obtain ⟨hkey, hnames⟩ := List.pairwise_cons.mp hnames
    rw [bindMembers_cons] at h
    obtain ⟨env₁, hmember, hmembers⟩ := bind_eq_ok_iff.mp h
    obtain ⟨b, hb, rfl⟩ := map_eq_ok_iff.mp hmember
    obtain ⟨hpos, hbound, hother⟩ := ih hmembers hnames
    -- No later member has the name of this one, so its binding stays.
    refine ⟨hpos, fun name json' hmem => ?_, fun name hnot => ?_⟩
    · rcases List.mem_cons.mp hmem with heq | hmem
      · cases heq
        rw [hother key fun json' hmem => hkey _ hmem rfl, lookup?_bindName, if_pos rfl,
          Binding.ofNamedJson_eq_ok_iff.mp hb]
        rfl
      · exact hbound name json' hmem
    · have hne : key ≠ name := fun heq => hnot json (heq ▸ List.mem_cons_self)
      rw [hother name fun json' hmem => hnot json' (List.mem_cons_of_mem _ hmem), lookup?_bindName, if_neg hne]

/-- Members go over what lies below them. -/
theorem addNamed_eq_ok {members : List (String × Json)} {env env' : Environment Value}
    (h : env.addNamed members = .ok env') :
    env'.positionals = env.positionals ∧
      ∀ name, (env'.lookup? name).map Except.ok =
        ((members.reverse.lookup name).map Binding.ofJson).or ((env.lookup? name).map Except.ok) := by
  have hnames : (Json.fields members).toList.Pairwise fun a b => a.1 ≠ b.1 := by
    refine (Json.pairwise_fields members).imp fun {a b} hlt => ?_
    intro heq
    rw [heq] at hlt
    exact List.lt_irrefl _ hlt
  obtain ⟨hpos, hbound, hother⟩ := bindMembers_eq_ok h hnames
  refine ⟨hpos, fun name => ?_⟩
  cases hlookup : members.reverse.lookup name with
  | some json => simpa using hbound name json (Json.mem_fields.mpr hlookup)
  | none => simp [hother name fun json hmem => by simp [Json.mem_fields.mp hmem] at hlookup]

/-- Elements go after those that are there. -/
theorem addPositional_eq_ok {elements : List Json} {env env' : Environment Value}
    (h : env.addPositional elements = .ok env') :
    env'.named = env.named ∧
      env'.positionals.map Except.ok = env.positionals.map Except.ok ++ elements.map Binding.ofJson := by
  induction elements generalizing env with
  | nil =>
    cases h
    simp
  | cons json elements ih =>
    rw [addPositional_cons] at h
    obtain ⟨env₁, helement, helements⟩ := bind_eq_ok_iff.mp h
    obtain ⟨b, hb, rfl⟩ := map_eq_ok_iff.mp helement
    obtain ⟨hnamed, hpos⟩ := ih helements
    have hjson : Except.ok b = Binding.ofJson json := (Binding.ofNamedJson_eq_ok_iff.mp hb).symm
    exact ⟨hnamed, by simp [hpos, hjson]⟩

private theorem addLayer_ok (env : Environment Value) (layer : BindingsFile) :
    env.addLayer (.ok layer) = env.addNamed layer.named >>= (addPositional · layer.positional) := rfl

/-- Adding a layer fails as the first of its parts does. -/
theorem failure?_addLayer (env : Environment Value) (layer : BindingsFile) :
    failure? (env.addLayer (.ok layer)) = (layer.steps env.positionals.length).findSome? failure? := by
  rw [addLayer_ok, BindingsFile.steps, List.findSome?_append, ← failure?_addNamed env]
  cases hnamed : env.addNamed layer.named with
  | error f => rfl
  | ok envNamed =>
    rw [← (addNamed_eq_ok hnamed).1, ← failure?_addPositional]
    rfl

/-- A layer goes over those below it and its elements after theirs. -/
theorem addLayer_eq_ok {env env' : Environment Value} {layer : BindingsFile}
    (h : env.addLayer (.ok layer) = .ok env') :
    (∀ name, (env'.lookup? name).map Except.ok =
        ((layer.named.reverse.lookup name).map Binding.ofJson).or ((env.lookup? name).map Except.ok)) ∧
      env'.positionals.map Except.ok = env.positionals.map Except.ok ++ layer.positional.map Binding.ofJson := by
  rw [addLayer_ok] at h
  obtain ⟨envNamed, hnamed, hpositional⟩ := bind_eq_ok_iff.mp h
  obtain ⟨hcount, hlookup⟩ := addNamed_eq_ok hnamed
  obtain ⟨hsame, hpos⟩ := addPositional_eq_ok hpositional
  refine ⟨fun name => ?_, by rw [hpos, hcount]⟩
  rw [← hlookup name, lookup?, lookup?, hsame]

end Environment

namespace BindingSources

/-- Adding layers fails as the first of all their parts does. -/
theorem failure?_foldlM_addLayer (layers : List (Except Failure BindingsFile)) (env : Environment Value) :
    failure? (layers.foldlM Environment.addLayer env) =
      (stepsFrom env.positionals.length layers).findSome? failure? := by
  induction layers generalizing env with
  | nil => rfl
  | cons layer layers ih =>
    rw [List.foldlM_cons]
    cases layer with
    | error f => rfl
    | ok layer =>
      rw [stepsFrom, List.findSome?_append, ← Environment.failure?_addLayer]
      cases h : env.addLayer (.ok layer) with
      | error f => rfl
      | ok env' =>
        have hcount : env'.positionals.length = env.positionals.length + layer.positional.length := by
          simpa using congrArg List.length (Environment.addLayer_eq_ok h).2
        rw [← hcount]
        exact ih env'

/-- What layers make: a name is bound by the uppermost that has it, positions go on from layer to layer. -/
theorem foldlM_addLayer_eq_ok {layers : List (Except Failure BindingsFile)} {env env' : Environment Value}
    (h : layers.foldlM Environment.addLayer env = .ok env') :
    ∃ parts : List BindingsFile, layers = parts.map Except.ok ∧
      (∀ name, (env'.lookup? name).map Except.ok =
        ((parts.reverse.findSome? fun part => part.named.reverse.lookup name).map Binding.ofJson).or
          ((env.lookup? name).map Except.ok)) ∧
      env'.positionals.map Except.ok =
        env.positionals.map Except.ok ++ (parts.flatMap BindingsFile.positional).map Binding.ofJson := by
  induction layers generalizing env with
  | nil =>
    cases h
    exact ⟨[], rfl, by simp, by simp⟩
  | cons layer layers ih =>
    rw [List.foldlM_cons] at h
    obtain ⟨env₁, hlayer, hlayers⟩ := bind_eq_ok_iff.mp h
    cases layer with
    | error f => cases hlayer
    | ok part =>
      obtain ⟨parts, rfl, hlookup, hpos⟩ := ih hlayers
      obtain ⟨hlookup₁, hpos₁⟩ := Environment.addLayer_eq_ok hlayer
      -- The layers above this one are asked for a name first, the bindings below it last.
      refine ⟨part :: parts, rfl, fun name => ?_, ?_⟩
      · rw [hlookup, hlookup₁, List.reverse_cons, List.findSome?_append, ← Option.or_assoc, ← Option.map_or]
        simp
      · rw [hpos, hpos₁, List.append_assoc, List.flatMap_cons, List.map_append]

theorem load_result (complain : Contents → String → String) (read : String → Except ReadError String)
    (sources : BindingSources) : (sources.load complain read).result = sources.environment complain read := by
  unfold load
  cases sources.environment complain read <;> rfl

theorem failure?_load (complain : Contents → String → String) (read : String → Except ReadError String)
    (sources : BindingSources) :
    failure? (sources.load complain read).result = (sources.steps complain read).findSome? failure? := by
  rw [load_result, environment_eq, failure?_foldlM_addLayer]
  rfl

private theorem layers_eq_map_ok {complain : Contents → String → String} {read : String → Except ReadError String}
    {sources : BindingSources} {parts : List BindingsFile} (h : sources.layers complain read = parts.map Except.ok) :
    ∃ file named positional, parts = [file, ⟨named, []⟩, ⟨[], positional⟩] := by
  have hlength : parts.length = 3 := by simpa [layers] using (congrArg List.length h).symm
  obtain ⟨file, named, positional, rfl⟩ := List.length_eq_three.mp hlength
  simp only [layers, List.map_cons, List.map_nil, List.cons.injEq, and_true, layer_eq_iff] at h
  obtain ⟨-, hnamed, hpositional⟩ := h
  obtain ⟨members, rfl⟩ := hnamed.object
  obtain ⟨elements, rfl⟩ := hpositional.array
  exact ⟨file, members, elements, rfl⟩

/-- How sources of bindings lie on one another. -/
structure Layered (complain : Contents → String → String) (read : String → Except ReadError String)
    (sources : BindingSources) : Prop where
  /-- The layers are what the sources give. -/
  gives : ∀ file named positional, sources.layers complain read = [file, named, positional] ↔
    sources.Gives complain read .bindingsFile file ∧ sources.Gives complain read .object named ∧
      sources.Gives complain read .array positional
  /-- Loading works when all steps do. -/
  loads : (∃ env, (sources.load complain read).result = .ok env) ↔
    ∀ step ∈ sources.steps complain read, ∃ b, step = .ok b
  /-- It fails as the first step that fails. -/
  fails : ∀ f, (sources.load complain read).result = .error f ↔
    ∃ before after, sources.steps complain read = before ++ .error f :: after ∧ ∀ step ∈ before, ∃ b, step = .ok b
  /-- The order of the steps. The elements of both sources are numbered as one row. -/
  order : ∀ file named positional,
    sources.layers complain read = [.ok file, .ok ⟨named, []⟩, .ok ⟨[], positional⟩] →
      ∃ lower upper, sources.steps complain read = memberSteps file.named ++ lower ++ memberSteps named ++ upper ∧
        lower.length = file.positional.length ∧ lower ++ upper = elementSteps 0 (file.positional ++ positional)
  /-- The members come in the order of the bytes of their names, the last of several with one name. -/
  members : ∀ members : List (String × Json),
    ((Json.fields members).toList.Pairwise fun a b => Text.bytes a.1 < Text.bytes b.1) ∧
      ∀ name json, (name, json) ∈ (Json.fields members).toList ↔ members.reverse.lookup name = some json
  /-- What is loaded: the named source goes over the file, the elements follow those of the file. -/
  loaded : ∀ env, (sources.load complain read).result = .ok env → ∃ file named positional,
    sources.layers complain read = [.ok file, .ok ⟨named, []⟩, .ok ⟨[], positional⟩] ∧
      (∀ name, (env.lookup? name).map Except.ok =
        ((named.reverse.lookup name).or (file.named.reverse.lookup name)).map Binding.ofJson) ∧
      env.positionals.map Except.ok = (file.positional ++ positional).map Binding.ofJson

/-- Sources lie on one another, whichever of them are present and whatever they hold. -/
theorem layered (complain : Contents → String → String) (read : String → Except ReadError String)
    (sources : BindingSources) : Layered complain read sources where
  gives file named positional := by
    simp only [layers, List.map_cons, List.map_nil, List.cons.injEq, and_true, layer_eq_iff]
  loads := by
    rw [← failure?_eq_none_iff, failure?_load, findSome?_failure?_eq_none_iff]
  fails f := by
    rw [← failure?_eq_some_iff, failure?_load, findSome?_failure?_eq_some_iff]
  order file named positional h := by
    refine ⟨elementSteps 0 file.positional, elementSteps file.positional.length positional, ?_, ?_, ?_⟩
    · simp [steps, h, stepsFrom, BindingsFile.steps]
    · simp [elementSteps]
    · rw [elementSteps_append, Nat.zero_add]
  members members := ⟨Json.pairwise_fields members, fun _ _ => Json.mem_fields⟩
  loaded env h := by
    rw [load_result, environment_eq] at h
    obtain ⟨parts, hlayers, hlookup, hpos⟩ := foldlM_addLayer_eq_ok h
    obtain ⟨file, named, positional, rfl⟩ := layers_eq_map_ok hlayers
    refine ⟨file, named, positional, hlayers, fun name => ?_, by simpa [Environment.empty] using hpos⟩
    have hname := hlookup name
    rw [Environment.lookup?_empty, Option.map_none, Option.or_none] at hname
    rw [hname]
    cases hupper : named.reverse.lookup name <;> cases hlower : file.named.reverse.lookup name <;>
      simp [List.findSome?_cons, hupper, hlower]

end BindingSources
end Placeholder
