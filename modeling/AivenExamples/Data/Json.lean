import AivenExamples.Data.Dict
import AivenExamples.Data.Raising
import Mathlib.Data.List.Infix
import Mathlib.Data.Option.Basic
import Mathlib.Data.Rat.Defs

/-! JSON values the way Python programs see them: truth, equality and the errors of misuse. -/

namespace AivenExamples

/-- The exceptions that reading a value the wrong way raises. -/
inductive PyError where
  | attributeError
  | keyError (key : String)
  | typeError
  | valueError (message : String)
  | overflowError
  | runtimeError (message : String)
  /-- A request that did not produce a response, or a status that `raise_for_status` rejects. -/
  | requestError
  deriving DecidableEq

/-- A parsed JSON value; an object is a dictionary with distinct keys. -/
inductive Json where
  | null
  | bool (value : Bool)
  /-- A number, integral or not, by its value. -/
  | num (value : Rat)
  | str (text : String)
  | arr (items : List Json)
  | obj (fields : List (String × Json))

namespace Json

/-- Python truth: empty containers, empty text, zero, `False` and `None` are false. -/
def truthy : Json → Bool
  | .null => false
  | .bool value => value
  | .num value => value ≠ 0
  | .str text => text ≠ ""
  | .arr items => !items.isEmpty
  | .obj fields => !fields.isEmpty

mutual

/-- Python `==`: booleans compare as numbers and dictionaries regardless of order. -/
def pyEq : Json → Json → Bool
  | .null, .null => true
  | .bool left, .bool right => left == right
  -- A boolean counts as zero or one beside a number.
  | .bool left, .num right => right == (if left then 1 else 0)
  | .num left, .bool right => left == (if right then 1 else 0)
  | .num left, .num right => left == right
  | .str left, .str right => left == right
  | .arr left, .arr right => pyEqItems left right
  -- Equally many fields, and every field of the one found in the other.
  | .obj left, .obj right => left.length == right.length && pyEqFields left right
  | _, _ => false

/-- Lists are equal position by position. -/
def pyEqItems : List Json → List Json → Bool
  | [], [] => true
  | left :: lefts, right :: rights => pyEq left right && pyEqItems lefts rights
  | _, _ => false

/-- Every field of the first dictionary is found with an equal value in the second. -/
def pyEqFields : List (String × Json) → List (String × Json) → Bool
  | [], _ => true
  | (key, left) :: lefts, rights =>
    (match Dict.get? rights key with
      | some right => pyEq left right
      | none => false) && pyEqFields lefts rights

end

mutual

/-- The value with the fields of every object in the order of their keys. -/
def sortKeys : Json → Json
  | .arr items => .arr (sortKeysItems items)
  | .obj fields =>
    .obj ((sortKeysFields fields).mergeSort fun first second => first.1 ≤ second.1)
  | value => value

/-- The elements of a list, each with its fields in order. -/
def sortKeysItems : List Json → List Json
  | [] => []
  | item :: items => sortKeys item :: sortKeysItems items

/-- The fields of an object where they are, each with its own fields in order. -/
def sortKeysFields : List (String × Json) → List (String × Json)
  | [] => []
  | (key, value) :: fields => (key, sortKeys value) :: sortKeysFields fields

end

mutual

/-- Every object inside the value lists each of its keys once, as parsing guarantees. -/
def WellFormed : Json → Prop
  | .arr items => WellFormedItems items
  | .obj fields => (Dict.keys fields).Nodup ∧ WellFormedFields fields
  | _ => True

/-- Every element of a list is well formed. -/
def WellFormedItems : List Json → Prop
  | [] => True
  | item :: items => WellFormed item ∧ WellFormedItems items

/-- Every value of a dictionary is well formed. -/
def WellFormedFields : List (String × Json) → Prop
  | [] => True
  | (_, value) :: fields => WellFormed value ∧ WellFormedFields fields

end

/-- The values of a dictionary are well formed exactly when each stored one is. -/
theorem wellFormedFields_iff {fields : List (String × Json)} :
    WellFormedFields fields ↔ ∀ item ∈ fields, item.2.WellFormed := by
  -- The definition asks for one field after the other.
  induction fields with
  | nil => simp [WellFormedFields]
  | cons item fields ih => simp [WellFormedFields, ih]

/-- Lists of texts are well formed. -/
theorem wellFormedItems_str (texts : List String) : WellFormedItems (texts.map .str) := by
  induction texts with
  | nil => trivial
  | cons text texts ih => exact ⟨trivial, ih⟩

/-- Field by field comparison succeeds exactly when every field finds an equal partner. -/
theorem pyEqFields_iff {left right : List (String × Json)} :
    pyEqFields left right = true ↔
      ∀ item ∈ left, ∃ value, Dict.get? right item.1 = some value ∧ item.2.pyEq value = true := by
  -- Each field is looked up in the same second dictionary.
  induction left with
  | nil => simp [pyEqFields]
  | cons item left ih =>
    rcases item with ⟨key, value⟩
    cases found : Dict.get? right key with
    -- A field without a partner decides against equality.
    | none => simp [pyEqFields, found]
    | some partner => simp [pyEqFields, found, ih]

mutual

/-- A well formed value equals itself. -/
theorem pyEq_refl : ∀ value : Json, value.WellFormed → value.pyEq value = true
  | .null, _ => rfl
  | .bool _, _ => by simp [pyEq]
  | .num _, _ => by simp [pyEq]
  | .str _, _ => by simp [pyEq]
  | .arr items, wellFormed => by
    simp only [WellFormed] at wellFormed
    simpa [pyEq] using pyEqItems_refl items wellFormed
  | .obj fields, wellFormed => by
    -- Distinct keys make every field its own partner.
    simp only [WellFormed] at wellFormed
    simp only [pyEq, beq_self_eq_true, Bool.true_and, pyEqFields_iff]
    intro item member
    exact ⟨item.2, Dict.get?_of_mem wellFormed.1 member,
      pyEqFields_refl fields wellFormed.2 item member⟩

/-- A list of well formed values equals itself. -/
theorem pyEqItems_refl : ∀ items : List Json, WellFormedItems items → pyEqItems items items = true
  | [], _ => rfl
  | item :: items, wellFormed => by
    simp only [WellFormedItems] at wellFormed
    simp [pyEqItems, pyEq_refl item wellFormed.1, pyEqItems_refl items wellFormed.2]

/-- Every value of a well formed dictionary equals itself. -/
theorem pyEqFields_refl : ∀ fields : List (String × Json), WellFormedFields fields →
    ∀ item ∈ fields, item.2.pyEq item.2 = true
  | [], _ => by simp
  | (key, value) :: fields, wellFormed => by
    simp only [WellFormedFields] at wellFormed
    -- The value comes first, or it is one of those behind.
    intro item member
    rcases List.mem_cons.mp member with here | later
    · exact here ▸ pyEq_refl value wellFormed.1
    · exact pyEqFields_refl fields wellFormed.2 item later

end

/-- Two dictionaries with distinct keys are equal when they agree under every key. -/
theorem pyEq_obj_iff {left right : List (String × Json)} (leftDistinct : (Dict.keys left).Nodup)
    (rightDistinct : (Dict.keys right).Nodup) :
    pyEq (.obj left) (.obj right) = true ↔
      ∀ key, Option.Rel (fun first second => first.pyEq second = true)
        (Dict.get? left key) (Dict.get? right key) := by
  -- The definition counts the fields and then walks through the first dictionary only.
  simp only [pyEq, Bool.and_eq_true, beq_iff_eq, pyEqFields_iff]
  constructor
  · intro equal key
    obtain ⟨length, partners⟩ := equal
    cases found : Dict.get? left key with
    | some value =>
      -- A present key finds its partner in the second dictionary.
      obtain ⟨partner, there, equal⟩ := partners (key, value) (Dict.mem_of_get? found)
      simpa [there] using Option.Rel.some equal
    | none =>
      -- Equal lengths leave the second dictionary no key of its own.
      have subset : ∀ key ∈ Dict.keys left, key ∈ Dict.keys right := by
        intro key member
        obtain ⟨value, here⟩ := Dict.mem_keys.mp member
        obtain ⟨partner, there, _⟩ := partners (key, value) (Dict.mem_of_get? here)
        exact Dict.mem_keys.mpr ⟨partner, there⟩
      have absent : key ∉ Dict.keys right := fun member => Dict.get?_eq_none.mp found
        (Dict.keys_subset_of_length leftDistinct subset length key member)
      rw [Dict.get?_eq_none.mpr absent]
      exact Option.Rel.none
  · intro agree
    constructor
    -- Agreement under every key makes the keys the same, so their number is.
    · apply Dict.length_eq_of_keys leftDistinct rightDistinct
      intro key
      have related := agree key
      simp only [Dict.mem_keys]
      cases here : Dict.get? left key <;> cases there : Dict.get? right key <;>
        simp_all
    -- What the second dictionary has under the key is an equal partner.
    · intro field member
      obtain ⟨key, value⟩ := field
      have related := agree key
      rw [Dict.get?_of_mem leftDistinct member] at related
      cases there : Dict.get? right key with
      | none => rw [there] at related; cases related
      | some partner =>
        rw [there] at related
        cases related with
        | some equal => exact ⟨partner, rfl, equal⟩

mutual

/-- Equality of well formed values holds in both directions. -/
theorem pyEq_symm : ∀ left right : Json, left.WellFormed → right.WellFormed →
    left.pyEq right = true → right.pyEq left = true
  | .null, right, _, _, equal => by
    cases right with
    | null => rfl
    | _ => simp [pyEq] at equal
  | .bool value, right, _, _, equal => by
    cases right <;> simp_all [pyEq]
  | .num value, right, _, _, equal => by
    cases right <;> simp_all [pyEq]
  | .str text, right, _, _, equal => by
    cases right <;> simp_all [pyEq]
  | .arr items, right, leftWell, rightWell, equal => by
    cases right with
    | arr others =>
      simp only [WellFormed] at leftWell rightWell
      exact pyEqItems_symm items others leftWell rightWell equal
    | _ => simp [pyEq] at equal
  | .obj fields, right, leftWell, rightWell, equal => by
    cases right with
    | obj others =>
      simp only [WellFormed] at leftWell rightWell
      -- Under every key the dictionaries have values that are equal, or none.
      refine (pyEq_obj_iff rightWell.1 leftWell.1).mpr fun key => ?_
      have related := (pyEq_obj_iff leftWell.1 rightWell.1).mp equal key
      cases first : Dict.get? fields key with
      | none =>
        cases second : Dict.get? others key with
        | none => exact .none
        | some other => simp [first, second] at related
      | some value =>
        cases second : Dict.get? others key with
        | none => simp [first, second] at related
        | some other =>
          rw [first, second, Option.rel_some_some] at related
          exact .some (pyEqFields_symm fields leftWell.2 _ (Dict.mem_of_get? first) other
            (wellFormedFields_iff.mp rightWell.2 _ (Dict.mem_of_get? second)) related)
    | _ => simp [pyEq] at equal

/-- Equality of lists of well formed values holds in both directions. -/
theorem pyEqItems_symm : ∀ lefts rights : List Json, WellFormedItems lefts →
    WellFormedItems rights → pyEqItems lefts rights = true → pyEqItems rights lefts = true
  | [], [], _, _, _ => rfl
  | [], _ :: _, _, _, equal => by simp [pyEqItems] at equal
  | _ :: _, [], _, _, equal => by simp [pyEqItems] at equal
  | left :: lefts, right :: rights, leftWell, rightWell, equal => by
    simp only [WellFormedItems] at leftWell rightWell
    simp only [pyEqItems, Bool.and_eq_true] at equal ⊢
    -- The first items are swapped, and the others by the recursion.
    exact ⟨pyEq_symm left right leftWell.1 rightWell.1 equal.1,
      pyEqItems_symm lefts rights leftWell.2 rightWell.2 equal.2⟩

/-- Equality with a value of a well formed dictionary holds in both directions. -/
theorem pyEqFields_symm : ∀ fields : List (String × Json), WellFormedFields fields →
    ∀ field ∈ fields, ∀ other : Json, other.WellFormed → field.2.pyEq other = true →
      other.pyEq field.2 = true
  | [], _ => by simp
  | (key, value) :: fields, wellFormed => by
    simp only [WellFormedFields] at wellFormed
    intro field member other otherWell equal
    -- The field is the first one, or one of the others.
    rcases List.mem_cons.mp member with here | later
    · subst here
      exact pyEq_symm value other wellFormed.1 otherWell equal
    · exact pyEqFields_symm fields wellFormed.2 field later other otherWell equal

end

/-- Equal values are equally true. -/
theorem truthy_of_pyEq {left right : Json} (equal : left.pyEq right = true) :
    left.truthy = right.truthy := by
  -- Numbers and booleans mix, and containers are compared by their length first.
  cases left with
  | null => cases right <;> simp_all [pyEq, truthy]
  | str text => cases right <;> simp_all [pyEq, truthy]
  | bool value => cases right <;> cases value <;> simp_all [pyEq, truthy]
  | num value =>
    cases right with
    | bool other => cases other <;> simp_all [pyEq, truthy]
    | _ => simp_all [pyEq, truthy]
  | arr items =>
    cases right with
    | arr others => cases items <;> cases others <;> simp_all [pyEq, pyEqItems, truthy]
    | _ => simp [pyEq] at equal
  | obj fields =>
    cases right with
    | obj others => cases fields <;> cases others <;> simp_all [pyEq, truthy]
    | _ => simp [pyEq] at equal

/-- What is found in a well formed dictionary is well formed. -/
theorem wellFormed_of_get? {fields : List (String × Json)} (wellFormed : (obj fields).WellFormed)
    {key : String} {value : Json} (found : Dict.get? fields key = some value) :
    value.WellFormed := by
  simp only [WellFormed] at wellFormed
  exact wellFormedFields_iff.mp wellFormed.2 _ (Dict.mem_of_get? found)

/-- The keys of a well formed dictionary are distinct. -/
theorem nodup_of_wellFormed {fields : List (String × Json)} (wellFormed : (obj fields).WellFormed) :
    (Dict.keys fields).Nodup := by
  simp only [WellFormed] at wellFormed
  exact wellFormed.1

/-- Item access by key: a dictionary raises for an absent key, any other value for its type. -/
def item (value : Json) (key : String) : Except PyError Json :=
  match value with
  | .obj fields =>
    match Dict.get? fields key with
    | some found => .ok found
    | none => .error (.keyError key)
  -- Lists, texts and numbers do not take a text as an index.
  | _ => .error .typeError

/-- Item access succeeds exactly for the present keys of dictionaries. -/
theorem item_eq_ok {value found : Json} {key : String} :
    value.item key = .ok found ↔
      ∃ fields, value = .obj fields ∧ Dict.get? fields key = some found := by
  -- Only the branch of dictionaries can succeed.
  cases value with
  | obj fields => cases present : Dict.get? fields key <;> simp [item, present]
  | _ => simp [item]

/-- The method call `value.get(key, default)`, which only dictionaries have. -/
def get (value : Json) (key : String) (default : Json) : Except PyError Json :=
  match value with
  | .obj fields => .ok ((Dict.get? fields key).getD default)
  | _ => .error .attributeError

/-- The method call `value.pop(key, None)`: what was stored and what is left. -/
def pop (value : Json) (key : String) : Except PyError (Json × List (String × Json)) :=
  match value with
  | .obj fields => .ok ((Dict.get? fields key).getD .null, Dict.erase fields key)
  -- The method of lists takes one argument at most.
  | .arr _ => .error .typeError
  | _ => .error .attributeError

/-- Only dictionaries answer the method call `get`. -/
theorem get_eq_ok {value found default : Json} {key : String} :
    value.get key default = .ok found ↔
      ∃ fields, value = .obj fields ∧ (Dict.get? fields key).getD default = found := by
  cases value <;> simp [get]

/-- Only dictionaries answer the method call `pop` with a key. -/
theorem pop_eq_ok {value : Json} {key : String} {result : Json × List (String × Json)} :
    value.pop key = .ok result ↔ ∃ fields, value = .obj fields ∧
      ((Dict.get? fields key).getD .null, Dict.erase fields key) = result := by
  cases value <;> simp [pop]

/-- The `in` operator with a text on the left. -/
def contains (value : Json) (text : String) : Except PyError Bool :=
  match value with
  -- An element of a list, a key of a dictionary, or a part of a text.
  | .arr items => .ok (items.any fun item => item.pyEq (.str text))
  | .obj fields => .ok (decide (text ∈ Dict.keys fields))
  | .str whole => .ok (decide (text.toList <:+: whole.toList))
  | _ => .error .typeError

end Json

end AivenExamples
