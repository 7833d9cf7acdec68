import Mathlib.Data.List.Nodup
import Mathlib.Data.List.Perm.Subperm

/-! Dictionaries that keep their insertion order, written as association lists. -/

namespace AivenExamples

/--
A dictionary as its list of items.

A plain list rather than a finite map, since iteration follows insertion and values may nest.
-/
abbrev Dict (κ α : Type) := List (κ × α)

namespace Dict

variable {κ α β : Type}

/-- The keys in insertion order. -/
def keys (dict : Dict κ α) : List κ := dict.map Prod.fst

/-- The values in insertion order. -/
def values (dict : Dict κ α) : List α := dict.map Prod.snd

@[simp] theorem keys_nil : keys ([] : Dict κ α) = [] := rfl

@[simp] theorem keys_cons (item : κ × α) (dict : Dict κ α) :
    keys (item :: dict) = item.1 :: keys dict := rfl

@[simp] theorem length_values (dict : Dict κ α) : (values dict).length = dict.length :=
  List.length_map _

@[simp] theorem length_keys (dict : Dict κ α) : (keys dict).length = dict.length :=
  List.length_map _

/-- A dictionary is its keys side by side with its values. -/
theorem zip_keys_values (dict : Dict κ α) : (keys dict).zip (values dict) = dict := by
  simp [keys, values, List.zip_map']

/-- Two dictionaries over the same keys, each listed once, have equally many items. -/
theorem length_eq_of_keys {first : Dict κ α} {second : Dict κ β} (firstDistinct : first.keys.Nodup)
    (secondDistinct : second.keys.Nodup) (same : ∀ key, key ∈ first.keys ↔ key ∈ second.keys) :
    first.length = second.length := by
  -- Distinct keys over the same set are rearrangements of each other.
  have perm := (List.perm_ext_iff_of_nodup firstDistinct secondDistinct).mpr same
  simpa [keys] using perm.length_eq

/-- Keys that all occur in an equally long dictionary are all of its keys. -/
theorem keys_subset_of_length {first : Dict κ α} {second : Dict κ β}
    (firstDistinct : first.keys.Nodup) (subset : ∀ key ∈ first.keys, key ∈ second.keys)
    (length : first.length = second.length) : ∀ key ∈ second.keys, key ∈ first.keys := by
  -- Distinct keys inside a list of the same length leave no room for another key.
  have perm := (List.subperm_of_subset firstDistinct subset).perm_of_length_le
    (by simp [keys, length])
  exact fun key member => perm.mem_iff.mpr member

variable [DecidableEq κ]

/-- The value stored under a key. -/
def get? : Dict κ α → κ → Option α
  | [], _ => none
  | item :: dict, key => if item.1 = key then some item.2 else get? dict key

/-- Assignment replaces the value of a present key in place and appends a new key. -/
def set : Dict κ α → κ → α → Dict κ α
  | [], key, value => [(key, value)]
  | item :: dict, key, value =>
    if item.1 = key then (key, value) :: dict else item :: set dict key value

/-- The dictionary without a key. -/
def erase (dict : Dict κ α) (key : κ) : Dict κ α := dict.filter fun item => !decide (item.1 = key)

/-- Every item of the second dictionary assigned into the first. -/
def update (dict other : Dict κ α) : Dict κ α :=
  other.foldl (fun dict item => dict.set item.1 item.2) dict

@[simp] theorem get?_nil (key : κ) : get? ([] : Dict κ α) key = none := rfl

/-- The first entry is found under its key, and the others behind it. -/
theorem get?_cons (item : κ × α) (dict : Dict κ α) (key : κ) :
    get? (item :: dict) key = if item.1 = key then some item.2 else get? dict key := rfl

/-- A key is absent exactly when looking it up finds nothing. -/
theorem get?_eq_none {dict : Dict κ α} {key : κ} : dict.get? key = none ↔ key ∉ dict.keys := by
  -- The search either stops at the head or goes on behind it.
  induction dict with
  | nil => simp
  | cons item dict ih =>
    by_cases same : item.1 = key
    · simp [get?_cons, same]
    · simp [get?_cons, same, ih, Ne.symm same]

/-- A key is present exactly when looking it up finds a value. -/
theorem mem_keys {dict : Dict κ α} {key : κ} :
    key ∈ dict.keys ↔ ∃ value, dict.get? key = some value := by
  rw [← Option.ne_none_iff_exists', ne_eq, get?_eq_none, not_not]

/-- A value that is found is one of the stored items. -/
theorem mem_of_get? {dict : Dict κ α} {key : κ} {value : α} (found : dict.get? key = some value) :
    (key, value) ∈ dict := by
  -- The induction follows the search to the item at which it stops.
  induction dict with
  | nil => simp at found
  | cons item dict ih =>
    by_cases same : item.1 = key
    · rw [get?_cons, if_pos same] at found
      -- The search stopped at the head, which is the item that was asked for.
      have here : item = (key, value) := Prod.ext same (Option.some.inj found)
      simp [here]
    · rw [get?_cons, if_neg same] at found
      exact List.mem_cons_of_mem _ (ih found)

/-- With distinct keys every stored item is found under its key. -/
theorem get?_of_mem {dict : Dict κ α} (distinct : dict.keys.Nodup) {key : κ} {value : α}
    (member : (key, value) ∈ dict) : dict.get? key = some value := by
  -- The search could only stop early at an item with the same key.
  induction dict with
  | nil => simp at member
  | cons item dict ih =>
    rw [keys_cons, List.nodup_cons] at distinct
    rcases List.mem_cons.mp member with here | later
    · simp [get?_cons, ← here]
    · -- The head cannot carry the same key, or the keys would repeat.
      have other : item.1 ≠ key :=
        fun same => distinct.1 (same ▸ List.mem_map.mpr ⟨(key, value), later, rfl⟩)
      rw [get?_cons, if_neg other]
      exact ih distinct.2 later

/-- An assigned key reads back its new value. -/
@[simp] theorem get?_set_self (dict : Dict κ α) (key : κ) (value : α) :
    (dict.set key value).get? key = some value := by
  -- The search meets the key where the assignment has put it.
  induction dict with
  | nil => simp [set, get?_cons]
  | cons item dict ih =>
    by_cases same : item.1 = key
    · simp [set, same, get?_cons]
    · simp [set, same, get?_cons, ih]

/-- A new key is assigned behind all others. -/
theorem set_of_not_mem {dict : Dict κ α} {key : κ} (absent : key ∉ dict.keys) (value : α) :
    dict.set key value = dict ++ [(key, value)] := by
  -- No entry on the way has the key.
  induction dict with
  | nil => rfl
  | cons item dict ih =>
    rw [keys_cons, List.mem_cons, not_or] at absent
    simp [set, Ne.symm absent.1, ih absent.2]

/-- A dictionary with an assigned key is not empty. -/
theorem set_ne_nil (dict : Dict κ α) (key : κ) (value : α) : dict.set key value ≠ [] := by
  -- The assigned key can be looked up, which the empty dictionary denies.
  intro empty
  have stored := get?_set_self dict key value
  rw [empty] at stored
  cases stored

/-- Assignment leaves every other key alone. -/
@[simp] theorem get?_set_of_ne (dict : Dict κ α) {key other : κ} (value : α) (ne : other ≠ key) :
    (dict.set key value).get? other = dict.get? other := by
  -- The only item that changes carries another key.
  induction dict with
  | nil => simp [set, get?_cons, Ne.symm ne]
  | cons item dict ih =>
    by_cases same : item.1 = key
    -- The assignment stops here, and the search passes the item before and after it.
    · simp [set, same, get?_cons, Ne.symm ne]
    · simp [set, same, get?_cons, ih]

/-- What an assignment makes of every key. -/
theorem get?_set (dict : Dict κ α) (key other : κ) (value : α) :
    (dict.set key value).get? other = if other = key then some value else dict.get? other := by
  by_cases same : other = key
  · simp [same]
  · simp [same]

/-- An erased key is gone. -/
@[simp] theorem get?_erase_self (dict : Dict κ α) (key : κ) : (dict.erase key).get? key = none := by
  simp [get?_eq_none, erase, keys]

/-- Erasing leaves every other key alone. -/
@[simp] theorem get?_erase_of_ne (dict : Dict κ α) {key other : κ} (ne : other ≠ key) :
    (dict.erase key).get? other = dict.get? other := by
  -- Only items that the search passes anyway are dropped.
  induction dict with
  | nil => rfl
  | cons item dict ih =>
    unfold erase at ih ⊢
    by_cases same : item.1 = key
    · simp [same, get?_cons, Ne.symm ne, ih]
    · simp [same, get?_cons, ih]

/-- Assignment adds at most the assigned key. -/
theorem mem_keys_set {dict : Dict κ α} {key other : κ} {value : α} :
    other ∈ (dict.set key value).keys ↔ other = key ∨ other ∈ dict.keys := by
  -- A key is a key that is found, and what is found after an assignment is known.
  simp only [mem_keys, get?_set]
  by_cases same : other = key <;> simp [same]

/-- Assignment keeps the keys distinct. -/
theorem nodup_set {dict : Dict κ α} (distinct : dict.keys.Nodup) (key : κ) (value : α) :
    (dict.set key value).keys.Nodup := by
  -- A present key keeps its place, and a new key differs from all others.
  induction dict with
  | nil => simp [set]
  | cons item dict ih =>
    rw [keys_cons, List.nodup_cons] at distinct
    by_cases same : item.1 = key
    -- The item is replaced by one with the same key.
    · simpa [set, same] using ⟨same ▸ distinct.1, distinct.2⟩
    -- The key of the head differs from the assigned one and from the keys behind it.
    · simp only [set, if_neg same, keys_cons, List.nodup_cons, mem_keys_set, not_or]
      exact ⟨⟨same, distinct.1⟩, ih distinct.2⟩

/-- Erasing keeps the keys distinct. -/
theorem nodup_erase {dict : Dict κ α} (distinct : dict.keys.Nodup) (key : κ) :
    (dict.erase key).keys.Nodup :=
  distinct.sublist (List.filter_sublist.map _)

/-- Merging keeps the keys distinct. -/
theorem nodup_update {dict : Dict κ α} (distinct : dict.keys.Nodup) (other : Dict κ α) :
    (dict.update other).keys.Nodup := by
  -- Every item of the other dictionary is one more assignment.
  induction other generalizing dict with
  | nil => exact distinct
  | cons item other ih => exact ih (nodup_set distinct item.1 item.2)

/-- A merged dictionary reads the second dictionary first and falls back to the first one. -/
theorem get?_update (dict : Dict κ α) {other : Dict κ α} (distinct : other.keys.Nodup) (key : κ) :
    (dict.update other).get? key = (other.get? key).or (dict.get? key) := by
  -- The first dictionary grows with every item, so it stays quantified over.
  induction other generalizing dict with
  | nil => rfl
  | cons item other ih =>
    rw [keys_cons, List.nodup_cons] at distinct
    -- The first item is assigned before all others.
    show (update (dict.set item.1 item.2) other).get? key = _
    rw [ih _ distinct.2, get?_set, get?_cons]
    by_cases same : item.1 = key
    · -- No later item carries this key again, so the assignment made here stays.
      have absent : get? other key = none := get?_eq_none.mpr (same ▸ distinct.1)
      simp [same, absent]
    · simp [same, Ne.symm same]

/-- A rearranged dictionary with distinct keys reads the same. -/
theorem get?_perm {first second : Dict κ α} (perm : first.Perm second)
    (distinct : first.keys.Nodup) (key : κ) : first.get? key = second.get? key := by
  have secondDistinct : second.keys.Nodup := (perm.map Prod.fst).nodup distinct
  -- With distinct keys a value is found exactly when its item is stored.
  apply Option.ext
  intro value
  constructor
  · intro found
    exact get?_of_mem secondDistinct (perm.mem_iff.mp (mem_of_get? found))
  · intro found
    exact get?_of_mem distinct (perm.mem_iff.mpr (mem_of_get? found))

/-- Converting the values converts what is found. -/
theorem get?_map_values (convert : α → β) (dict : Dict κ α) (key : κ) :
    get? (dict.map fun item => (item.1, convert item.2)) key = (dict.get? key).map convert := by
  -- Entry by entry the keys are the same.
  induction dict with
  | nil => rfl
  | cons item dict ih =>
    by_cases same : item.1 = key
    · simp [get?_cons, same]
    · simp [get?_cons, same, ih]

end Dict

end AivenExamples
