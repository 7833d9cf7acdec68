import AivenExamples.Data.Json

/-! Comparing the collected data of two clusters, index by index. -/

namespace AivenExamples.MigrationValidation

/-- What `compare_indices` returns. -/
structure Comparison where
  total : Nat
  severity0 : Nat
  severity1 : Nat
  severity2 : Nat
  severity3 : Nat
  severity4 : Nat
  severity5 : Nat
  mismatchedIndices : List (String × Nat)
  deriving DecidableEq

/-- Nothing has been compared yet. -/
def Comparison.empty : Comparison := ⟨0, 0, 0, 0, 0, 0, 0, []⟩

/-- Whether two records differ in one of the fields, which are compared one after the other. -/
def anyDiffers (data1 data2 : Json) : List String → Except PyError Bool
  | [] => return false
  | name :: names => do
    let first ← data1.item name
    let second ← data2.item name
    if first.pyEq second then anyDiffers data1 data2 names else return true

/-- The severity of different document counts. -/
def countSeverity (data1 : Json) : Except PyError Nat := do
  let delta ← data1.item "document_count_delta"
  if delta.truthy then return 1
  let writeAlias ← data1.item "has_write_alias"
  return if writeAlias.truthy then 2 else 3

/-- The severity of the difference of two records. -/
def recordSeverity (data1 data2 : Json) : Except PyError Nat := do
  if ← anyDiffers data1 data2 ["has_write_alias", "ism_policy", "aliases"] then return 4
  if ← anyDiffers data1 data2 ["document_count", "document_count2"] then countSeverity data1
  else return 0

/-- The severity of what is found for one index of the first file. -/
def severityOf (json2 : Json) (index : String) (data1 : Json) : Except PyError Nat := do
  let indices2 ← json2.get "indices" (.obj [])
  let data2 ← indices2.get index .null
  if data2.truthy then recordSeverity data1 data2 else return 5

/-- One more index of a severity; those above zero are listed. -/
def Comparison.add (comparison : Comparison) (index : String) (severity : Nat) : Comparison :=
  let counted := { comparison with total := comparison.total + 1 }
  -- Only an index that differs is listed.
  let listed := { counted with
    mismatchedIndices := counted.mismatchedIndices ++ [(index, severity)] }
  match severity with
  | 0 => { counted with severity0 := counted.severity0 + 1 }
  | 1 => { listed with severity1 := listed.severity1 + 1 }
  | 2 => { listed with severity2 := listed.severity2 + 1 }
  | 3 => { listed with severity3 := listed.severity3 + 1 }
  | 4 => { listed with severity4 := listed.severity4 + 1 }
  | _ => { listed with severity5 := listed.severity5 + 1 }

/-- The loop over the indices of the first file. -/
def compareItems (json2 : Json) (comparison : Comparison) :
    List (String × Json) → Except PyError Comparison
  | [] => return comparison
  | (index, data1) :: items => do
    let severity ← severityOf json2 index data1
    compareItems json2 (comparison.add index severity) items

/-- `compare_indices` -/
def compareIndices (json1 json2 : Json) : Except PyError Comparison := do
  let indices1 ← json1.get "indices" (.obj [])
  match indices1 with
  | .obj items => compareItems json2 .empty items
  -- Only a dictionary has items.
  | _ => .error .attributeError

/-- Two records agree in a field that both have. -/
def AgreeIn (data1 data2 : Json) (name : String) : Prop :=
  ∃ first second, data1.item name = .ok first ∧ data2.item name = .ok second ∧
    first.pyEq second = true

/-- Comparing fields finds no difference exactly when the records agree in all of them. -/
theorem anyDiffers_eq_false {data1 data2 : Json} {names : List String} :
    anyDiffers data1 data2 names = .ok false ↔ ∀ name ∈ names, AgreeIn data1 data2 name := by
  -- The comparison goes on only behind a field in which the records agree.
  induction names with
  | nil => simp [anyDiffers, pure, Except.pure]
  | cons name names ih =>
    simp only [anyDiffers, bind_eq_ok, List.forall_mem_cons, ← ih]
    constructor
    · intro passed
      obtain ⟨first, firstRead, second, secondRead, rest⟩ := passed
      by_cases equal : first.pyEq second = true
      · rw [if_pos equal] at rest
        exact ⟨⟨first, second, firstRead, secondRead, equal⟩, rest⟩
      · rw [if_neg equal] at rest
        cases rest
    · intro agree
      obtain ⟨⟨first, second, firstRead, secondRead, equal⟩, rest⟩ := agree
      exact ⟨first, firstRead, second, secondRead, by rw [if_pos equal]; exact rest⟩

/-- Comparing fields raises nothing when both records have all of them. -/
theorem anyDiffers_succeeds {data1 data2 : Json} (names : List String)
    (present1 : ∀ name ∈ names, ∃ value, data1.item name = .ok value)
    (present2 : ∀ name ∈ names, ∃ value, data2.item name = .ok value) :
    ∃ differs, anyDiffers data1 data2 names = .ok differs := by
  induction names with
  | nil => exact ⟨false, rfl⟩
  | cons name names ih =>
    obtain ⟨first, firstRead⟩ := present1 name (by simp)
    obtain ⟨second, secondRead⟩ := present2 name (by simp)
    obtain ⟨differs, rest⟩ := ih (fun other member => present1 other (by simp [member]))
      (fun other member => present2 other (by simp [member]))
    -- The search stops at the first field that differs.
    by_cases equal : first.pyEq second = true
    · exact ⟨differs, by simp [anyDiffers, firstRead, secondRead, equal, rest, bind, Except.bind]⟩
    · exact ⟨true, by simp [anyDiffers, firstRead, secondRead, equal, bind, Except.bind, pure,
        Except.pure]⟩

/-- Different document counts are never a perfect match. -/
theorem countSeverity_ne_zero (data1 : Json) : countSeverity data1 ≠ .ok 0 := by
  -- The delta and the write alias decide between the severities 1, 2 and 3.
  intro zero
  obtain ⟨delta, _, rest⟩ := bind_eq_ok.mp zero
  split at rest
  · cases rest
  · obtain ⟨writeAlias, _, value⟩ := bind_eq_ok.mp rest
    split at value <;> cases value

/-- The fields whose agreement makes an index a perfect match. -/
def comparedFields : List String :=
  ["has_write_alias", "ism_policy", "aliases", "document_count", "document_count2"]

/-- Two records are a perfect match exactly when they agree in all compared fields. -/
theorem recordSeverity_eq_zero {data1 data2 : Json} :
    recordSeverity data1 data2 = .ok 0 ↔ ∀ name ∈ comparedFields, AgreeIn data1 data2 name := by
  -- The compared fields are those of the two searches together.
  have both : (∀ name ∈ comparedFields, AgreeIn data1 data2 name) ↔
      anyDiffers data1 data2 ["has_write_alias", "ism_policy", "aliases"] = .ok false ∧
        anyDiffers data1 data2 ["document_count", "document_count2"] = .ok false := by
    rw [anyDiffers_eq_false, anyDiffers_eq_false, ← List.forall_mem_append]
    rfl
  rw [both]
  constructor
  · intro zero
    obtain ⟨first, firstRead, rest⟩ := bind_eq_ok.mp zero
    cases first with
    | true => cases rest
    | false =>
      obtain ⟨second, secondRead, value⟩ := bind_eq_ok.mp rest
      cases second with
      | true => exact absurd value (countSeverity_ne_zero data1)
      | false => exact ⟨firstRead, secondRead⟩
  · intro equal
    obtain ⟨first, second⟩ := equal
    simp [recordSeverity, first, second, bind, Except.bind, pure, Except.pure]

/-- The other record is looked up among the indices of the other file. -/
theorem severityOf_eq {json2 : Json} {indices2 : Dict String Json}
    (contents : json2.get "indices" (.obj []) = .ok (.obj indices2)) (index : String)
    (data1 : Json) : severityOf json2 index data1 =
      if ((Dict.get? indices2 index).getD .null).truthy then
        recordSeverity data1 ((Dict.get? indices2 index).getD .null) else .ok 5 := by
  -- A record that is absent, or empty, has the highest severity.
  rw [severityOf, contents]
  rfl

/-- Severity zero means that the other file has the index, with a record that agrees. -/
theorem severityOf_eq_zero {json2 data1 : Json} {indices2 : Dict String Json} {index : String}
    (contents : json2.get "indices" (.obj []) = .ok (.obj indices2)) :
    severityOf json2 index data1 = .ok 0 ↔ ∃ data2, Dict.get? indices2 index = some data2 ∧
      data2.truthy = true ∧ ∀ name ∈ comparedFields, AgreeIn data1 data2 name := by
  rw [severityOf_eq contents]
  cases found : Dict.get? indices2 index with
  -- A missing index reads as `None`, which is false.
  | none => simp [Json.truthy]
  | some data2 =>
    cases truthy : data2.truthy <;> simp [truthy, recordSeverity_eq_zero]

/-- The other file has the index, with a record that agrees in all fields that are compared. -/
def MatchedBy (json2 : Json) (index : String) (data1 : Json) : Prop :=
  ∃ indices2 data2, json2.get "indices" (.obj []) = .ok (.obj indices2) ∧
    Dict.get? indices2 index = some data2 ∧ data2.truthy = true ∧
    ∀ name ∈ comparedFields, AgreeIn data1 data2 name

/-- Severity zero stands for a match. -/
theorem matchedBy_iff {json2 data1 : Json} {index : String} :
    MatchedBy json2 index data1 ↔ severityOf json2 index data1 = .ok 0 := by
  constructor
  · intro matched
    obtain ⟨indices2, data2, contents, found, truthy, agree⟩ := matched
    exact (severityOf_eq_zero contents).mpr ⟨data2, found, truthy, agree⟩
  · intro zero
    -- Only a dictionary can be asked for the index.
    obtain ⟨value, contents, rest⟩ := bind_eq_ok.mp zero
    obtain ⟨_, looked, -⟩ := bind_eq_ok.mp rest
    obtain ⟨indices2, rfl, -⟩ := Json.get_eq_ok.mp looked
    obtain ⟨data2, found, truthy, agree⟩ := (severityOf_eq_zero contents).mp zero
    exact ⟨indices2, data2, contents, found, truthy, agree⟩

/-- An index is listed unless its severity is zero. -/
theorem mismatchedIndices_add (comparison : Comparison) (index : String) (severity : Nat) :
    (comparison.add index severity).mismatchedIndices = comparison.mismatchedIndices ++
      if severity = 0 then [] else [(index, severity)] := by
  -- Severities from five on share their counter.
  unfold Comparison.add
  split <;> simp_all

/-- An index is listed with a severity exactly when it has that severity, above zero. -/
theorem mem_mismatchedIndices {json2 : Json} {items : List (String × Json)}
    {comparison result : Comparison} (done : compareItems json2 comparison items = .ok result)
    {index : String} {severity : Nat} :
    (index, severity) ∈ result.mismatchedIndices ↔
      (index, severity) ∈ comparison.mismatchedIndices ∨ ∃ data, (index, data) ∈ items ∧
        severityOf json2 index data = .ok severity ∧ severity ≠ 0 := by
  -- The comparison grows along the loop, so it stays quantified over.
  induction items generalizing comparison with
  | nil =>
    cases done
    simp
  | cons item items ih =>
    obtain ⟨other, data⟩ := item
    obtain ⟨found, here, rest⟩ := bind_eq_ok.mp done
    rw [ih rest, mismatchedIndices_add, List.mem_append, or_assoc]
    refine or_congr_right ?_
    constructor
    · intro new
      rcases new with head | ⟨later, member, severe⟩
      · by_cases zero : found = 0
        · simp [zero] at head
        · simp only [zero, if_false, List.mem_singleton, Prod.mk.injEq] at head
          exact ⟨data, by simp [head.1], head.1 ▸ head.2 ▸ here, head.2 ▸ zero⟩
      · exact ⟨later, List.mem_cons_of_mem _ member, severe⟩
    · intro listed
      obtain ⟨later, member, severe, nonzero⟩ := listed
      rcases List.mem_cons.mp member with same | member
      · cases same
        cases severe.symm.trans here
        simp [nonzero]
      · exact .inr ⟨later, member, severe, nonzero⟩

/-- Every index of the first file has a severity when the comparison goes through. -/
theorem severityOf_of_compareItems {json2 : Json} {items : List (String × Json)}
    {comparison result : Comparison} (done : compareItems json2 comparison items = .ok result)
    {item : String × Json} (member : item ∈ items) :
    ∃ severity, severityOf json2 item.1 item.2 = .ok severity := by
  -- The loop raises at the first index without a severity.
  induction items generalizing comparison with
  | nil => cases member
  | cons head items ih =>
    obtain ⟨found, here, rest⟩ := bind_eq_ok.mp done
    rcases List.mem_cons.mp member with same | later
    · exact ⟨found, same ▸ here⟩
    · exact ih rest later

/-- The comparison goes through when every index has a severity. -/
theorem compareItems_succeeds {json2 : Json} {items : List (String × Json)}
    (fine : ∀ item ∈ items, ∃ severity, severityOf json2 item.1 item.2 = .ok severity)
    (comparison : Comparison) : ∃ result, compareItems json2 comparison items = .ok result := by
  -- The counts do not matter for whether the loop goes on.
  induction items generalizing comparison with
  | nil => exact ⟨comparison, rfl⟩
  | cons item items ih =>
    obtain ⟨severity, found⟩ := fine item List.mem_cons_self
    obtain ⟨result, rest⟩ :=
      ih (fun other member => fine other (List.mem_cons_of_mem _ member)) _
    exact ⟨result, bind_eq_ok.mpr ⟨severity, found, rest⟩⟩

end AivenExamples.MigrationValidation
