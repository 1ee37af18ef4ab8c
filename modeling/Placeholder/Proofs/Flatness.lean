import Placeholder.Proofs.JsonScalars
import Placeholder.Proofs.Layers

/-!
Which JSON values are bindings: the flat ones, scalars and arrays of scalars, each with one value for every
scalar in it. A number that is written as an integer of 64 bits keeps its exact value, every other number is a
float. What is not flat is refused for the first thing in it that is no scalar.
-/
namespace Placeholder

/-! Numbers. -/

namespace Json

/-- The numeral is an integer in digits, with neither point nor exponent, and is no minus zero. -/
structure Numeral.Writes (n : Numeral) (i : Int) : Prop where
  fraction : n.fraction = []
  exponent : n.exponent = none
  value : i = if n.negative then -(Nat.ofDigitChars 10 n.whole 0 : Int) else Nat.ofDigitChars 10 n.whole 0
  ne_minus_zero : n.negative → i ≠ 0

private theorem eq_ofDigitChars_of_gather {n m : Nat} {digits : List Char} (h : Numeral.gather n digits = (m, [])) :
    m = Nat.ofDigitChars 10 digits n := by
  induction digits generalizing n with
  | nil =>
    cases h
    rfl
  | cons c digits ih =>
    rw [Numeral.gather] at h
    split at h
    · rw [Nat.ofDigitChars_cons]
      exact ih h
    · cases h

/-- An exact number is the integer that was written. -/
theorem Numeral.writes_of_toNumber? {n : Numeral} {i : Int} (h : n.toNumber? = some (.integer i)) : n.Writes i := by
  obtain ⟨⟨leading, beyond⟩, hgather⟩ : ∃ gathered, gather 0 n.whole = gathered := ⟨_, rfl⟩
  simp only [toNumber?, hgather] at h
  split at h
  · next hdigits =>
    obtain ⟨hfraction, hexponent, rfl⟩ := hdigits
    have hvalue := eq_ofDigitChars_of_gather hgather
    split at h
    · next hnegative =>
      split at h
      · cases h
      · next hexact =>
        cases h
        exact ⟨hfraction, hexponent, by rw [if_pos hnegative, hvalue], fun _ => by omega⟩
    · next hnegative =>
      cases h
      exact ⟨hfraction, hexponent, by rw [if_neg hnegative, hvalue], fun hneg => absurd hneg hnegative⟩
  · obtain ⟨x, -, hreal⟩ := Option.map_eq_some_iff.mp h
    cases hreal

/-- An integer of 64 bits, with a sign or without, is read with its exact value. -/
theorem Numeral.Writes.toNumber? {n : Numeral} {i : Int} (h : n.Writes i) (hi : IsWord i) :
    n.toNumber? = some (.integer i) := by
  obtain ⟨hfraction, hexponent, hvalue, hminus⟩ := h
  obtain ⟨hlow, hhigh⟩ := hi
  have hmin : Int64.minValue.toInt = -9223372036854775808 := by decide
  have hsize : UInt64.size = 18446744073709551616 := rfl
  have hfits : Nat.ofDigitChars 10 n.whole 0 < UInt64.size := by
    split at hvalue <;> omega
  simp only [Numeral.toNumber?, gather_eq hfits, hfraction, hexponent, and_self, if_true]
  split at hvalue
  · next hnegative =>
    have hne := hminus hnegative
    rw [if_pos hnegative, if_neg (by omega), hvalue]
  · next hnegative => rw [if_neg hnegative, hvalue]

theorem Number.int64?_eq_some_iff {k : Number} {i : Int64} : k.int64? = some i ↔ k = .integer i.toInt := by
  have hlow := i.minValue_le_toInt
  have hhigh := i.toInt_le
  cases k with
  | real x => simp [int64?]
  | integer n =>
    rw [int64?]
    split
    · next hn =>
      have hofInt : (Int64.ofInt n).toInt = n := by
        apply Int64.toInt_ofInt_of_le
        · exact hn.1
        · exact Int.lt_of_le_of_lt hn.2 (by decide)
      rw [Option.some.injEq, Number.integer.injEq, ← Int64.toInt_inj, hofInt]
    · next hn =>
      simp only [Number.integer.injEq, reduceCtorEq, false_iff]
      rintro rfl
      exact hn ⟨hlow, hhigh⟩

theorem Number.int64?_eq_none_iff {k : Number} : k.int64? = none ↔ ∀ i : Int64, k ≠ .integer i.toInt := by
  simp only [Option.eq_none_iff_forall_ne_some, Ne, int64?_eq_some_iff]

private theorem Number.exists_float? (k : Number) : ∃ x, k.float? = some x := by
  cases k <;> exact ⟨_, rfl⟩

end Json

/-! Single values. -/

/-- The value that stands for a scalar. Of numbers the integers of 64 bits with a sign stand for themselves, and
for the others stand floats. -/
inductive Value.StandsFor : Value → Json → Prop
  | null : StandsFor .null .null
  | bool (b : Bool) : StandsFor (.bool b) (.bool b)
  | text (s : String) : StandsFor (.text s) (.string s)
  | int (i : Int64) : StandsFor (.int i) (.number (.integer i.toInt))
  | float {k : Json.Number} {x : Float} : (∀ i : Int64, k ≠ .integer i.toInt) → k.float? = some x →
    StandsFor (.float x) (.number k)

namespace Json

def IsScalar : Json → Prop
  | .array _ | .object _ => False
  | _ => True

def IsFlat : Json → Prop
  | .object _ => False
  | .array elements => ∀ j ∈ elements, j.IsScalar
  | _ => True

inductive OffendsInside : Json → Unbindable → Prop
  | array (elements : List Json) : OffendsInside (.array elements) .nestedArray
  | object (members : List (String × Json)) : OffendsInside (.object members) .object

/-- Why a JSON value is not flat. The first element of an array that is no scalar gives the reason. -/
inductive Offends : Json → Unbindable → Prop
  | object (members : List (String × Json)) : Offends (.object members) .object
  | element {before after : List Json} {j : Json} {reason : Unbindable} :
    (∀ i ∈ before, i.IsScalar) → j.OffendsInside reason → Offends (.array (before ++ j :: after)) reason

end Json

namespace Value

theorem ofNumber?_eq_some_iff {k : Json.Number} {v : Value} : ofNumber? k = some v ↔ v.StandsFor (.number k) := by
  rw [ofNumber?]
  constructor
  · intro h
    cases hint : k.int64? with
    | some i =>
      rw [hint] at h
      cases h
      rw [Json.Number.int64?_eq_some_iff.mp hint]
      exact .int i
    | none =>
      rw [hint, Option.map_none, Option.none_or] at h
      obtain ⟨x, hx, rfl⟩ := Option.map_eq_some_iff.mp h
      exact .float (Json.Number.int64?_eq_none_iff.mp hint) hx
  · rintro (_ | _ | _ | ⟨i⟩ | ⟨hint, hx⟩)
    · rw [Json.Number.int64?_eq_some_iff.mpr rfl]
      rfl
    · rw [Json.Number.int64?_eq_none_iff.mpr hint, hx]
      rfl

private theorem exists_ofNumber? (k : Json.Number) : ∃ v, ofNumber? k = some v := by
  obtain ⟨x, hx⟩ := k.exists_float?
  cases hint : k.int64? with
  | some i => exact ⟨.int i, by rw [ofNumber?, hint]; rfl⟩
  | none => exact ⟨.float x, by rw [ofNumber?, hint, hx]; rfl⟩

private theorem ofJson_number {k : Json.Number} {v : Value} (h : ofNumber? k = some v) :
    ofJson (.number k) = .ok v := by
  rw [ofJson, h]
  rfl

theorem ofJson_eq_ok_iff {json : Json} {v : Value} : ofJson json = .ok v ↔ v.StandsFor json := by
  constructor
  · intro h
    cases json with
    | null =>
      cases h
      exact .null
    | bool b =>
      cases h
      exact .bool b
    | string s =>
      cases h
      exact .text s
    | number k =>
      obtain ⟨w, hw⟩ := exists_ofNumber? k
      rw [ofJson_number hw] at h
      cases h
      exact ofNumber?_eq_some_iff.mp hw
    | array elements => cases h
    | object members => cases h
  · intro h
    cases h with
    | null | bool | text => rfl
    | int i => exact ofJson_number (ofNumber?_eq_some_iff.mpr (.int i))
    | float hint hx => exact ofJson_number (ofNumber?_eq_some_iff.mpr (.float hint hx))

/-- A value that stands alone is refused as an object, or as an array, and for no other reason. -/
theorem ofJson_eq_error_iff {json : Json} {reason : Unbindable} : ofJson json = .error reason ↔
    (∃ elements, json = .array elements) ∧ reason = .array ∨
      (∃ members, json = .object members) ∧ reason = .object := by
  cases json with
  | number k =>
    obtain ⟨v, hv⟩ := exists_ofNumber? k
    simp [ofJson_number hv]
  | null | bool | string | array | object => simp [ofJson, eq_comm]

theorem ofElement_eq_ok_iff {json : Json} {v : Value} : ofElement json = .ok v ↔ v.StandsFor json := by
  rw [← ofJson_eq_ok_iff]
  cases json <;> simp [ofElement, ofJson]

/-- An array among the elements is caught before its value is asked for. -/
theorem ofElement_eq_error_iff {json : Json} {reason : Unbindable} :
    ofElement json = .error reason ↔ json.OffendsInside reason := by
  constructor
  · intro h
    unfold ofElement at h
    split at h
    · cases h
      exact .array _
    · next harray =>
      rcases ofJson_eq_error_iff.mp h with ⟨⟨elements, rfl⟩, -⟩ | ⟨⟨members, rfl⟩, rfl⟩
      · exact absurd rfl (harray elements)
      · exact .object members
  · rintro (_ | _) <;> rfl

private theorem exists_standsFor_iff {json : Json} : (∃ v : Value, v.StandsFor json) ↔ json.IsScalar := by
  simp only [← ofJson_eq_ok_iff]
  cases json with
  | number k =>
    obtain ⟨v, hv⟩ := exists_ofNumber? k
    simp [ofJson_number hv, Json.IsScalar]
  | null | bool | string | array | object => simp [ofJson, Json.IsScalar]

end Value

/-! Bindings. -/

/-- The binding that stands for a flat value: a single value for a scalar, and for an array a list with one value
for each element, in order. -/
inductive Binding.StandsFor : Binding Value → Json → Prop
  | scalar {v : Value} {json : Json} : v.StandsFor json → StandsFor (.scalar v) json
  | sequence {vs : List Value} {elements : List Json} : List.Forall₂ Value.StandsFor vs elements →
    StandsFor (.sequence vs) (.array elements)

namespace Binding

private theorem ofJson_of_not_array {json : Json} (h : ∀ elements, json ≠ .array elements) :
    ofJson json = .scalar <$> Value.ofJson json := by
  cases json with
  | array elements => exact absurd rfl (h elements)
  | _ => rfl

theorem ofJson_eq_ok_iff {json : Json} {b : Binding Value} : ofJson json = .ok b ↔ b.StandsFor json := by
  constructor
  · intro h
    by_cases harray : ∃ elements, json = .array elements
    · obtain ⟨elements, rfl⟩ := harray
      obtain ⟨vs, hvs, rfl⟩ := map_eq_ok_iff.mp h
      have hall := mapM_eq_ok_iff.mp hvs
      simp only [Value.ofElement_eq_ok_iff] at hall
      exact .sequence hall
    · rw [ofJson_of_not_array (by simpa using harray)] at h
      obtain ⟨v, hv, rfl⟩ := map_eq_ok_iff.mp h
      exact .scalar (Value.ofJson_eq_ok_iff.mp hv)
  · intro h
    cases h with
    | @scalar v _ hv =>
      have hne : ∀ elements, json ≠ .array elements := by
        rintro elements rfl
        cases hv
      rw [ofJson_of_not_array hne, Value.ofJson_eq_ok_iff.mpr hv]
      rfl
    | @sequence vs elements hvs =>
      have hall : elements.mapM Value.ofElement = .ok vs := by
        rw [mapM_eq_ok_iff]
        simpa only [Value.ofElement_eq_ok_iff] using hvs
      rw [ofJson, hall]
      rfl

/-- The reason is that of the first element that is refused, or that the value is an object. -/
theorem ofJson_eq_error_iff {json : Json} {reason : Unbindable} :
    ofJson json = .error reason ↔ json.Offends reason := by
  constructor
  · intro h
    by_cases harray : ∃ elements, json = .array elements
    · obtain ⟨elements, rfl⟩ := harray
      obtain ⟨before, j, after, rfl, hj, hbefore⟩ := mapM_eq_error_iff.mp (map_eq_error_iff.mp h)
      refine .element (fun i hi => ?_) (Value.ofElement_eq_error_iff.mp hj)
      obtain ⟨v, hv⟩ := hbefore i hi
      exact Value.exists_standsFor_iff.mp ⟨v, Value.ofElement_eq_ok_iff.mp hv⟩
    · rw [ofJson_of_not_array (by simpa using harray)] at h
      rcases Value.ofJson_eq_error_iff.mp (map_eq_error_iff.mp h) with ⟨hsome, -⟩ | ⟨⟨members, rfl⟩, rfl⟩
      · exact absurd hsome harray
      · exact .object members
  · intro h
    cases h with
    | object members => rfl
    | @element before after j _ hbefore hj =>
      rw [ofJson, map_eq_error_iff, mapM_eq_error_iff]
      refine ⟨before, j, after, rfl, Value.ofElement_eq_error_iff.mpr hj, fun i hi => ?_⟩
      obtain ⟨v, hv⟩ := Value.exists_standsFor_iff.mpr (hbefore i hi)
      exact ⟨v, Value.ofElement_eq_ok_iff.mpr hv⟩

theorem exists_ofJson_eq_ok_iff {json : Json} : (∃ b, ofJson json = .ok b) ↔ json.IsFlat := by
  cases json with
  | array elements =>
    rw [ofJson, exists_map_eq_ok_iff, exists_mapM_eq_ok_iff]
    simp only [Value.ofElement_eq_ok_iff, Value.exists_standsFor_iff]
    rfl
  | null | bool | string | number | object =>
    rw [ofJson_of_not_array (by simp), exists_map_eq_ok_iff]
    simp only [Value.ofJson_eq_ok_iff, Value.exists_standsFor_iff]
    rfl

theorem ofNamedJson_eq_error_iff {name : String} {json : Json} {f : Failure} :
    ofNamedJson name json = .error f ↔ ∃ reason, json.Offends reason ∧ f = .invalidBinding name reason := by
  simp only [← ofJson_eq_error_iff, ofNamedJson]
  cases ofJson json <;> simp [Except.mapError, eq_comm]

end Binding

/-! What the numbers of a text become. -/

/-- Written as an integer of 64 bits with a sign a number is that integer, and written otherwise it is a float. -/
structure Json.Numeral.Kept (n : Numeral) : Prop where
  exact : ∀ i : Int64, n.Writes i.toInt →
    ∃ k, n.toNumber? = some k ∧ ∀ v : Value, v.StandsFor (.number k) ↔ v = .int i
  float : ∀ k, n.toNumber? = some k → (∀ i : Int64, ¬ n.Writes i.toInt) →
    ∃ x, k.float? = some x ∧ ∀ v : Value, v.StandsFor (.number k) ↔ v = .float x

theorem Value.standsFor_unique {v w : Value} {json : Json} (hv : v.StandsFor json) (hw : w.StandsFor json) :
    v = w := by
  rw [← ofJson_eq_ok_iff] at hv hw
  rw [hv] at hw
  exact Except.ok.inj hw

theorem Value.standsFor_iff_eq {v w : Value} {json : Json} (hw : w.StandsFor json) : v.StandsFor json ↔ v = w := by
  constructor
  · exact fun hv => standsFor_unique hv hw
  · rintro rfl
    exact hw

private theorem Json.Numeral.kept (n : Numeral) : n.Kept where
  exact i hi := ⟨_, hi.toNumber? (isWord_toInt i), fun v => Value.standsFor_iff_eq (.int i)⟩
  float k hk hnone := by
    obtain ⟨x, hx⟩ := k.exists_float?
    refine ⟨x, hx, fun v => Value.standsFor_iff_eq (.float (fun i heq => ?_) hx)⟩
    rw [heq] at hk
    exact hnone i (writes_of_toNumber? hk)

/-- How a JSON value is taken for the binding of a name. -/
structure Json.TakenFor (name : String) (json : Json) : Prop where
  /-- It is taken just when it is flat. -/
  accepts : (∃ b, Binding.ofNamedJson name json = .ok b) ↔ json.IsFlat
  /-- The binding has a value for each scalar. -/
  binds : ∀ b, Binding.ofNamedJson name json = .ok b ↔ b.StandsFor json
  /-- A failure tells the name and the first reason. -/
  refuses : ∀ f, Binding.ofNamedJson name json = .error f ↔
    ∃ reason, json.Offends reason ∧ f = .invalidBinding name reason
  /-- Of the reasons two never come up. -/
  reasons : ∀ f, Binding.ofNamedJson name json = .error f →
    f = .invalidBinding name .object ∨ f = .invalidBinding name .nestedArray

/-- JSON values are bindings just when they are flat, and the numbers in them are kept exactly wherever an integer
of 64 bits is written. -/
theorem json_taken_when_flat (name : String) (json : Json) :
    json.TakenFor name ∧ ∀ n : Json.Numeral, n.Kept := by
  refine ⟨⟨?_, fun b => ?_, fun f => Binding.ofNamedJson_eq_error_iff, fun f hf => ?_⟩, Json.Numeral.kept⟩
  · simp only [Binding.ofNamedJson_eq_ok_iff, Binding.exists_ofJson_eq_ok_iff]
  · rw [Binding.ofNamedJson_eq_ok_iff, Binding.ofJson_eq_ok_iff]
  · obtain ⟨reason, hreason, rfl⟩ := Binding.ofNamedJson_eq_error_iff.mp hf
    rcases hreason with _ | ⟨-, _ | _⟩
    · exact Or.inl rfl
    · exact Or.inr rfl
    · exact Or.inl rfl

end Placeholder
