import AivenExamples.MigrationValidation.Files
import Mathlib.Data.Finset.Card

/-! The tables that are printed for two files, and how they add up. -/

namespace AivenExamples.MigrationValidation

open JsonText (noFloats)

/-! ### What is printed -/

/-- The row of the indices of one severity. -/
def severityRow (item severity : String) (number : Nat) (explanation : String) : List String :=
  [item, severity, toString number, explanation]

/-- The indices that are counted with a severity above zero. -/
def Comparison.issues (comparison : Comparison) : Nat :=
  comparison.severity1 + comparison.severity2 + comparison.severity3 + comparison.severity4 +
    comparison.severity5

/-- The rows of the table `Results`. -/
def resultRows (result : Comparison) : List (List String) :=
  [severityRow "Total indices" "" result.total "Number of indices",
    severityRow "Perfect Matches" "0" result.severity0 "No issues",
    severityRow "Indices with issues" ">0" result.issues "Issues or possible issues",
    ["---------------", "-", "--", "-------------------------"],
    severityRow "Probably ok" "1" result.severity1 "Diff nb docs, but indexing was ongoing",
    severityRow "Probably ok" "2" result.severity2 "Diff nb docs, on index with write alias",
    severityRow "Check Issues" "3" result.severity3
      "Diff nb docs, no indexing found, no write alias",
    severityRow "Major Issues" "4" result.severity4 "Diff in ISM, aliases",
    severityRow "Missing index" "5" result.severity5 "Index was not restored"]

/-- The rows of the table `Indices with issues`, which are numbered from zero. -/
def issueRows (number : Nat) : List (String × Nat) → List (List String)
  | [] => []
  | (index, severity) :: listed =>
    [toString number, index, toString severity] :: issueRows (number + 1) listed

/-- What the script prints; the second table is left out when it would be empty. -/
structure Printed where
  results : List (List String)
  issues : Option (List (List String))

/-- The printing behind the comparison. -/
def printed (result : Comparison) : Printed where
  results := resultRows result
  issues :=
    if result.mismatchedIndices.isEmpty then none
    else some (issueRows 0 result.mismatchedIndices)

/--
Why no tables are printed: a file that is not read, or an exception of the comparison.

What is not read is no JSON, or has `NaN`, an infinity or half of a surrogate pair in it, which
the values here leave out.
-/
inductive Failure where
  | notRead
  | raised (error : PyError)

/-- `json.load(f)` -/
def loadFile (floats : JsonText.Floats) (file : String) : Except Failure Json :=
  match JsonText.loads floats file with
  | some value => .ok value
  | none => .error .notRead

/-- `compare_json_files`, by the content of the two files. -/
def compareJsonFiles (floats : JsonText.Floats) (file1 file2 : String) :
    Except Failure Printed := do
  let json1 ← loadFile floats file1
  let json2 ← loadFile floats file2
  let result ← (compareIndices json1 json2).mapError .raised
  return printed result

/-! ### Counting by severity -/

/-- What a comparison has to say about indices that are judged by their severities. -/
def Comparison.of (judged : List (String × Nat)) : Comparison where
  total := judged.length
  severity0 := judged.countP fun entry => entry.2 = 0
  severity1 := judged.countP fun entry => entry.2 = 1
  severity2 := judged.countP fun entry => entry.2 = 2
  severity3 := judged.countP fun entry => entry.2 = 3
  severity4 := judged.countP fun entry => entry.2 = 4
  severity5 := judged.countP fun entry => entry.2 = 5
  mismatchedIndices := judged.filter fun entry => entry.2 ≠ 0

/-- The severities of indices whose document counts differ are one, two and three. -/
theorem countSeverity_range {data1 : Json} {severity : Nat}
    (found : countSeverity data1 = .ok severity) : 1 ≤ severity ∧ severity ≤ 3 := by
  obtain ⟨delta, _, rest⟩ := bind_eq_ok.mp found
  -- A count that still changes is the first severity, and the alias tells the others apart.
  split at rest
  · cases rest
    decide
  · obtain ⟨writeAlias, _, value⟩ := bind_eq_ok.mp rest
    split at value <;> cases value <;> decide

/-- Severities that do not depend on which of the two records comes first. -/
def kind (severity : Nat) : Nat :=
  if severity = 0 then 0 else if severity ≤ 3 then 1 else severity

/-- The first fields decide on the severity four, and the document counts on the others. -/
theorem recordSeverity_cases {data1 data2 : Json} {severity : Nat}
    (found : recordSeverity data1 data2 = .ok severity) :
    ∃ differs, anyDiffers data1 data2 ["has_write_alias", "ism_policy", "aliases"] = .ok differs ∧
      (differs = true ∧ severity = 4 ∨ differs = false ∧
        ∃ counts, anyDiffers data1 data2 ["document_count", "document_count2"] = .ok counts ∧
          severity ≤ 3 ∧ kind severity = if counts then 1 else 0) := by
  -- The document counts are only compared when the first fields agree.
  obtain ⟨differs, first, rest⟩ := bind_eq_ok.mp found
  refine ⟨differs, first, ?_⟩
  cases differs with
  | true =>
    cases rest
    exact .inl ⟨rfl, rfl⟩
  | false =>
    obtain ⟨counts, second, value⟩ := bind_eq_ok.mp rest
    refine .inr ⟨rfl, counts, second, ?_⟩
    cases counts with
    | true =>
      have range := countSeverity_range value
      have nonzero : severity ≠ 0 := by omega
      simp [kind, nonzero, range.2]
    | false =>
      cases value
      simp [kind]

/-- There are six severities. -/
theorem severityOf_le {json2 data1 : Json} {index : String} {severity : Nat}
    (found : severityOf json2 index data1 = .ok severity) : severity ≤ 5 := by
  obtain ⟨indices2, _, rest⟩ := bind_eq_ok.mp found
  obtain ⟨data2, _, rest⟩ := bind_eq_ok.mp rest
  -- An index that is missing has the fifth severity, and its record decides otherwise.
  split at rest
  · obtain ⟨_, _, four | low⟩ := recordSeverity_cases rest
    · omega
    · obtain ⟨_, _, _, low, _⟩ := low
      omega
  · cases rest
    decide

/-- One more index is counted behind the others. -/
theorem add_of {judged : List (String × Nat)} {index : String} {severity : Nat}
    (known : severity ≤ 5) :
    (Comparison.of judged).add index severity = Comparison.of (judged ++ [(index, severity)]) := by
  -- There is a counter for each of the six severities.
  have six : severity = 0 ∨ severity = 1 ∨ severity = 2 ∨ severity = 3 ∨ severity = 4 ∨
      severity = 5 := by omega
  rcases six with rfl | rfl | rfl | rfl | rfl | rfl <;> simp [Comparison.of, Comparison.add]

/-- An index and the severity that is found for it. -/
def Judges (json2 : Json) (item : String × Json) (entry : String × Nat) : Prop :=
  entry.1 = item.1 ∧ severityOf json2 item.1 item.2 = .ok entry.2

/-- The loop judges the indices one after the other and counts them. -/
theorem judged_of_compareItems {json2 : Json} {before : List (String × Nat)}
    {items : List (String × Json)} {result : Comparison}
    (done : compareItems json2 (.of before) items = .ok result) :
    ∃ judged, List.Forall₂ (Judges json2) items judged ∧ result = .of (before ++ judged) := by
  -- What has been judged grows along the loop, so it stays quantified over.
  induction items generalizing before with
  | nil =>
    cases done
    exact ⟨[], .nil, by rw [List.append_nil]⟩
  | cons item items ih =>
    obtain ⟨severity, found, rest⟩ := bind_eq_ok.mp done
    rw [add_of (severityOf_le found)] at rest
    obtain ⟨judged, each, same⟩ := ih rest
    refine ⟨(item.1, severity) :: judged, .cons ⟨rfl, found⟩ each, ?_⟩
    rw [same, List.append_assoc, List.singleton_append]

/-- A comparison that goes through counts the indices of the first file by their severities. -/
theorem judged_of_compareIndices {json1 json2 : Json} {result : Comparison}
    (compared : compareIndices json1 json2 = .ok result) :
    ∃ indices1 judged, json1.get "indices" (.obj []) = .ok (.obj indices1) ∧
      List.Forall₂ (Judges json2) indices1 judged ∧ result = .of judged := by
  -- Only a dictionary has items.
  obtain ⟨value, read, rest⟩ := bind_eq_ok.mp compared
  cases value with
  | obj indices1 =>
    have counted : compareItems json2 (.of []) indices1 = .ok result := rest
    obtain ⟨judged, each, same⟩ := judged_of_compareItems counted
    exact ⟨indices1, judged, read, each, same⟩
  | _ => cases rest

/-- The names of judged indices are those of the file. -/
theorem Judges.names {json2 : Json} {items : List (String × Json)} {judged : List (String × Nat)}
    (each : List.Forall₂ (Judges json2) items judged) : judged.map Prod.fst = Dict.keys items := by
  induction each with
  | nil => rfl
  | cons head _ ih => rw [List.map_cons, ih, head.1, Dict.keys_cons]

/-- The severities of judged indices are at most five. -/
theorem Judges.le {json2 : Json} {items : List (String × Json)} {judged : List (String × Nat)}
    (each : List.Forall₂ (Judges json2) items judged) : ∀ entry ∈ judged, entry.2 ≤ 5 := by
  induction each with
  | nil => simp
  | cons head _ ih =>
    intro entry member
    -- The index is the first one, or one of the others.
    rcases List.mem_cons.mp member with same | later
    · exact same ▸ severityOf_le head.2
    · exact ih entry later

/-- Every judged index is counted once: as a perfect match or as one with issues. -/
theorem total_of {judged : List (String × Nat)} (known : ∀ entry ∈ judged, entry.2 ≤ 5) :
    (Comparison.of judged).total =
        (Comparison.of judged).severity0 + (Comparison.of judged).issues ∧
      (Comparison.of judged).mismatchedIndices.length = (Comparison.of judged).issues := by
  induction judged with
  | nil => exact ⟨rfl, rfl⟩
  | cons entry judged ih =>
    obtain ⟨total, listed⟩ := ih fun other member => known other (List.mem_cons_of_mem _ member)
    have six : entry.2 = 0 ∨ entry.2 = 1 ∨ entry.2 = 2 ∨ entry.2 = 3 ∨ entry.2 = 4 ∨
        entry.2 = 5 := by
      have := known entry List.mem_cons_self
      omega
    simp only [Comparison.of, Comparison.issues, ne_eq, decide_not] at total listed ⊢
    -- The first index raises the total and one of the counters.
    rcases six with same | same | same | same | same | same <;>
      simp only [List.length_cons, List.countP_cons, List.filter_cons, same] <;> simp <;> omega

/-- The rows of the second table are the listed indices, numbered from zero. -/
theorem issueRows_eq (number : Nat) (listed : List (String × Nat)) :
    issueRows number listed =
      (listed.zipIdx number).map fun entry =>
        [toString entry.2, entry.1.1, toString entry.1.2] := by
  -- The first row has the number from which the others go on.
  induction listed generalizing number with
  | nil => rfl
  | cons entry listed ih => simp [issueRows, ih]

/-! ### The other way around -/

/-- Well formed records agree in both directions. -/
theorem agreeIn_symm {data1 data2 : Json} {name : String} (wellFormed1 : data1.WellFormed)
    (wellFormed2 : data2.WellFormed) (agree : AgreeIn data1 data2 name) :
    AgreeIn data2 data1 name := by
  -- Equality of Python values is symmetric where keys are distinct.
  obtain ⟨first, second, read1, read2, equal⟩ := agree
  have inside {data found : Json} (wellFormed : data.WellFormed)
      (read : data.item name = .ok found) : found.WellFormed := by
    obtain ⟨fields, rfl, stored⟩ := Json.item_eq_ok.mp read
    exact Json.wellFormed_of_get? wellFormed stored
  exact ⟨second, first, read2, read1,
    Json.pyEq_symm first second (inside wellFormed1 read1) (inside wellFormed2 read2) equal⟩

/-- Whether a field differs does not depend on which record comes first. -/
theorem anyDiffers_symm {data1 data2 : Json} {names : List String} {forward backward : Bool}
    (wellFormed1 : data1.WellFormed) (wellFormed2 : data2.WellFormed)
    (there : anyDiffers data1 data2 names = .ok forward)
    (back : anyDiffers data2 data1 names = .ok backward) : forward = backward := by
  -- Finding no difference means agreement in all fields, which has no direction.
  have same : forward = false ↔ backward = false := by
    have forwards : forward = false ↔ anyDiffers data1 data2 names = .ok false := by simp [there]
    have backwards : backward = false ↔ anyDiffers data2 data1 names = .ok false := by simp [back]
    rw [forwards, backwards, anyDiffers_eq_false, anyDiffers_eq_false]
    exact ⟨fun agree name member => agreeIn_symm wellFormed1 wellFormed2 (agree name member),
      fun agree name member => agreeIn_symm wellFormed2 wellFormed1 (agree name member)⟩
  cases forward <;> cases backward <;> simp_all

/-- Two records are judged alike, whichever of them comes first. -/
theorem kind_symm {data1 data2 : Json} {forward backward : Nat} (wellFormed1 : data1.WellFormed)
    (wellFormed2 : data2.WellFormed) (there : recordSeverity data1 data2 = .ok forward)
    (back : recordSeverity data2 data1 = .ok backward) : kind forward = kind backward := by
  -- Both directions look at the same fields, and equality of fields is symmetric.
  obtain ⟨differs1, first1, cases1⟩ := recordSeverity_cases there
  obtain ⟨differs2, first2, cases2⟩ := recordSeverity_cases back
  have same := anyDiffers_symm wellFormed1 wellFormed2 first1 first2
  rcases cases1 with ⟨yes1, four1⟩ | ⟨no1, counts1, second1, -, kind1⟩ <;>
    rcases cases2 with ⟨yes2, four2⟩ | ⟨no2, counts2, second2, -, kind2⟩
  · rw [four1, four2]
  · simp [yes1, no2] at same
  · simp [no1, yes2] at same
  · rw [kind1, kind2, anyDiffers_symm wellFormed1 wellFormed2 second1 second2]

/-- A record with a severity below five has fields, so that it is true. -/
theorem truthy_of_recordSeverity {data1 data2 : Json} {severity : Nat}
    (found : recordSeverity data1 data2 = .ok severity) : data1.truthy = true := by
  obtain ⟨differs, first, -⟩ := recordSeverity_cases found
  obtain ⟨value, read, -⟩ := bind_eq_ok.mp first
  obtain ⟨fields, rfl, stored⟩ := Json.item_eq_ok.mp read
  have member := Dict.mem_of_get? stored
  -- Fields were read from it, so that it has some.
  cases fields with
  | nil => cases member
  | cons field fields => rfl

/-- Every judged index is an index of the file, and the other way around. -/
theorem Judges.mem {json2 : Json} {items : List (String × Json)} {judged : List (String × Nat)}
    (each : List.Forall₂ (Judges json2) items judged) (index : String) (severity : Nat) :
    (index, severity) ∈ judged ↔
      ∃ data1, (index, data1) ∈ items ∧ severityOf json2 index data1 = .ok severity := by
  induction each with
  | nil => simp
  | @cons item entry items judged head _ ih =>
    rw [List.mem_cons, ih]
    constructor
    · intro either
      rcases either with here | ⟨data1, member, found⟩
      · subst here
        have same : index = item.1 := head.1
        exact ⟨item.2, by simp [same], same ▸ head.2⟩
      · exact ⟨data1, List.mem_cons_of_mem _ member, found⟩
    · intro judges
      obtain ⟨data1, member, found⟩ := judges
      rcases List.mem_cons.mp member with here | later
      · -- The first item has the first entry.
        subst here
        cases found.symm.trans head.2
        exact .inl (Prod.ext head.1.symm rfl)
      · exact .inr ⟨data1, later, found⟩

/-- Every index of the file has a severity. -/
theorem Judges.succeeds {json2 : Json} {items : List (String × Json)}
    {judged : List (String × Nat)} (each : List.Forall₂ (Judges json2) items judged)
    {item : String × Json} (member : item ∈ items) :
    ∃ severity, severityOf json2 item.1 item.2 = .ok severity := by
  -- The index is the first one, or one of the others.
  induction each with
  | nil => cases member
  | cons head _ ih =>
    rcases List.mem_cons.mp member with here | later
    · exact ⟨_, here ▸ head.2⟩
    · exact ih later

/-- The indices that are counted with severities of a kind. -/
def ofKind (number : Nat) (judged : List (String × Nat)) : List (String × Nat) :=
  judged.filter fun entry => kind entry.2 = number

/-- What is judged in one direction is judged alike in the other one, unless it is missing. -/
theorem mem_keys_ofKind {json1 json2 : Json} {indices1 indices2 : Dict String Json}
    {judged1 judged2 : List (String × Nat)} {number : Nat} {index : String}
    (wellFormed1 : (Json.obj indices1).WellFormed) (wellFormed2 : (Json.obj indices2).WellFormed)
    (contents1 : json1.get "indices" (.obj []) = .ok (.obj indices1))
    (contents2 : json2.get "indices" (.obj []) = .ok (.obj indices2))
    (each1 : List.Forall₂ (Judges json2) indices1 judged1)
    (each2 : List.Forall₂ (Judges json1) indices2 judged2) (present : number ≠ 5)
    (member : index ∈ Dict.keys (ofKind number judged1)) :
    index ∈ Dict.keys (ofKind number judged2) := by
  simp only [ofKind, Dict.keys, List.mem_map, List.mem_filter, decide_eq_true_eq] at member ⊢
  obtain ⟨⟨index, severity⟩, ⟨judges, sort⟩, rfl⟩ := member
  obtain ⟨data1, stored1, found⟩ := (Judges.mem each1 index severity).mp judges
  have first := Dict.get?_of_mem (Json.nodup_of_wellFormed wellFormed1) stored1
  rw [severityOf_eq contents2] at found
  cases second : Dict.get? indices2 index with
  | none =>
    -- A missing index has the severity five.
    simp only [second, Option.getD_none, Json.truthy, Bool.false_eq_true, if_false,
      Except.ok.injEq] at found
    exact absurd (sort.symm.trans (congrArg kind found.symm)) present
  | some data2 =>
    simp only [second, Option.getD_some] at found
    split_ifs at found with truthy
    · obtain ⟨other, backwards, back⟩ : ∃ other, (index, other) ∈ judged2 ∧
          recordSeverity data2 data1 = .ok other := by
        have stored2 := Dict.mem_of_get? second
        obtain ⟨other, judged⟩ := Judges.succeeds each2 stored2
        refine ⟨other, (Judges.mem each2 index other).mpr ⟨data2, stored2, judged⟩, ?_⟩
        rw [severityOf_eq contents1, first] at judged
        simpa [truthy_of_recordSeverity found] using judged
      have alike := kind_symm (Json.wellFormed_of_get? wellFormed1 first)
        (Json.wellFormed_of_get? wellFormed2 second) found back
      exact ⟨(index, other), ⟨backwards, alike ▸ sort⟩, rfl⟩
    · cases found
      exact absurd sort.symm present

/-- The counters by the kind of the severity. -/
theorem length_ofKind {judged : List (String × Nat)} (known : ∀ entry ∈ judged, entry.2 ≤ 5) :
    (ofKind 0 judged).length = (Comparison.of judged).severity0 ∧
      (ofKind 1 judged).length = (Comparison.of judged).severity1 +
        (Comparison.of judged).severity2 + (Comparison.of judged).severity3 ∧
      (ofKind 4 judged).length = (Comparison.of judged).severity4 := by
  induction judged with
  | nil => exact ⟨rfl, rfl, rfl⟩
  | cons entry judged ih =>
    obtain ⟨none, some, four⟩ := ih fun other member => known other (List.mem_cons_of_mem _ member)
    have six : entry.2 = 0 ∨ entry.2 = 1 ∨ entry.2 = 2 ∨ entry.2 = 3 ∨ entry.2 = 4 ∨
        entry.2 = 5 := by
      have := known entry List.mem_cons_self
      omega
    simp only [Comparison.of, ofKind] at none some four ⊢
    have kinds : kind 0 = 0 ∧ kind 1 = 1 ∧ kind 2 = 1 ∧ kind 3 = 1 ∧ kind 4 = 4 ∧ kind 5 = 5 := by
      decide
    -- The first index belongs to one kind and raises one counter.
    rcases six with same | same | same | same | same | same <;>
      simp only [List.filter_cons, List.countP_cons, same, kinds] <;> simp <;> omega

/-- The keys of a part of the judged indices are distinct. -/
theorem nodup_ofKind {json2 : Json} {indices1 : Dict String Json} {judged : List (String × Nat)}
    (wellFormed : (Json.obj indices1).WellFormed)
    (each : List.Forall₂ (Judges json2) indices1 judged) (number : Nat) :
    (Dict.keys (ofKind number judged)).Nodup := by
  -- The names are the keys of the first file, where they are distinct.
  have names : (Dict.keys judged).Nodup := by
    rw [Dict.keys, Judges.names each]
    exact Json.nodup_of_wellFormed wellFormed
  exact names.sublist (List.filter_sublist.map _)

/-- The indices that are read from a well formed file are well formed. -/
theorem wellFormed_indices {json : Json} {indices : Dict String Json} (wellFormed : json.WellFormed)
    (contents : json.get "indices" (.obj []) = .ok (.obj indices)) :
    (Json.obj indices).WellFormed := by
  obtain ⟨fields, rfl, same⟩ := Json.get_eq_ok.mp contents
  -- Without indices the empty dictionary is taken.
  cases stored : Dict.get? fields "indices" with
  | none =>
    rw [stored] at same
    cases same
    simp [Json.WellFormed, Json.WellFormedFields]
  | some value =>
    rw [stored] at same
    cases same
    exact Json.wellFormed_of_get? wellFormed stored

/-- What the two comparisons of two well formed files have in common. -/
theorem compareIndices_swap {json1 json2 : Json} {forward backward : Comparison}
    (wellFormed1 : json1.WellFormed) (wellFormed2 : json2.WellFormed)
    (there : compareIndices json1 json2 = .ok forward)
    (back : compareIndices json2 json1 = .ok backward) :
    forward.severity0 = backward.severity0 ∧
      forward.severity1 + forward.severity2 + forward.severity3 =
        backward.severity1 + backward.severity2 + backward.severity3 ∧
      forward.severity4 = backward.severity4 := by
  -- Indices of a kind have the same names in both directions, each of them once.
  obtain ⟨indices1, judged1, contents1, each1, rfl⟩ := judged_of_compareIndices there
  obtain ⟨indices2, judged2, contents2, each2, rfl⟩ := judged_of_compareIndices back
  have well1 := wellFormed_indices wellFormed1 contents1
  have well2 := wellFormed_indices wellFormed2 contents2
  have alike (number : Nat) (present : number ≠ 5) :
      (ofKind number judged1).length = (ofKind number judged2).length :=
    Dict.length_eq_of_keys (nodup_ofKind well1 each1 number) (nodup_ofKind well2 each2 number)
      fun index => ⟨mem_keys_ofKind well1 well2 contents1 contents2 each1 each2 present,
        mem_keys_ofKind well2 well1 contents2 contents1 each2 each1 present⟩
  obtain ⟨none1, some1, four1⟩ := length_ofKind (Judges.le each1)
  obtain ⟨none2, some2, four2⟩ := length_ofKind (Judges.le each2)
  exact ⟨by rw [← none1, ← none2, alike 0 (by decide)],
    by rw [← some1, ← some2, alike 1 (by decide)], by rw [← four1, ← four2, alike 4 (by decide)]⟩

/-! ### Two files -/

variable {floats : JsonText.Floats} {file1 file2 : String}

/-- The tables are printed for the values of the two files, which are well formed. -/
theorem compareJsonFiles_eq_ok {tables : Printed} :
    compareJsonFiles floats file1 file2 = .ok tables ↔
      ∃ json1 json2 result, JsonText.loads floats file1 = some json1 ∧
        JsonText.loads floats file2 = some json2 ∧
        compareIndices json1 json2 = .ok result ∧ printed result = tables := by
  unfold compareJsonFiles loadFile
  -- A file that cannot be read ends the program before the tables.
  cases JsonText.loads floats file1 with
  | none => simp [bind, Except.bind]
  | some json1 =>
    cases JsonText.loads floats file2 with
    | none => simp [bind, Except.bind]
    | some json2 =>
      cases compared : compareIndices json1 json2 <;>
        simp [bind, Except.bind, pure, Except.pure, Except.mapError, compared]

/--
The tables show severities that add up, and number the listed indices without a gap.

The listed indices are those without a match in the other file, in the order of the first file.
-/
structure AddsUp (indices1 : Dict String Json) (json2 : Json) (result : Comparison)
    (tables : Printed) : Prop where
  total : result.total = indices1.length
  parts : result.total = result.severity0 + result.issues
  results : tables.results = resultRows result
  issues : tables.issues.getD [] = (result.mismatchedIndices.zipIdx).map fun entry =>
    [toString entry.2, entry.1.1, toString entry.1.2]
  listed : (tables.issues.getD []).length = result.issues
  names : (result.mismatchedIndices.map Prod.fst).Sublist (Dict.keys indices1)
  distinct : (Dict.keys indices1).Nodup
  exactly : ∀ index, index ∈ result.mismatchedIndices.map Prod.fst ↔
    ∃ data1, Dict.get? indices1 index = some data1 ∧ ¬MatchedBy json2 index data1
  severities : ∀ index severity, (index, severity) ∈ result.mismatchedIndices →
    ∃ data1, Dict.get? indices1 index = some data1 ∧
      severityOf json2 index data1 = .ok severity

/-- The listed indices are those whose severity is not zero. -/
theorem mem_mismatchedIndices_of {json2 : Json} {indices1 : Dict String Json}
    {judged : List (String × Nat)} (distinct : (Dict.keys indices1).Nodup)
    (each : List.Forall₂ (Judges json2) indices1 judged) (index : String) (severity : Nat) :
    (index, severity) ∈ (Comparison.of judged).mismatchedIndices ↔
      ∃ data1, Dict.get? indices1 index = some data1 ∧
        severityOf json2 index data1 = .ok severity ∧ severity ≠ 0 := by
  -- Every index has one severity, which is that of its record.
  simp only [Comparison.of, List.mem_filter, decide_eq_true_eq, Judges.mem each]
  constructor
  · intro judges
    obtain ⟨⟨data1, member, found⟩, nonzero⟩ := judges
    exact ⟨data1, Dict.get?_of_mem distinct member, found, nonzero⟩
  · intro judges
    obtain ⟨data1, stored, found, nonzero⟩ := judges
    exact ⟨⟨data1, Dict.mem_of_get? stored, found⟩, nonzero⟩

/-- The tables that are printed add up, and the issues are the indices that do not match. -/
theorem compareJsonFiles_adds_up {tables : Printed}
    (compared : compareJsonFiles floats file1 file2 = .ok tables) :
    ∃ json1 json2 indices1 result, JsonText.loads floats file1 = some json1 ∧
      JsonText.loads floats file2 = some json2 ∧
      json1.get "indices" (.obj []) = .ok (.obj indices1) ∧
      AddsUp indices1 json2 result tables := by
  obtain ⟨json1, json2, result, read1, read2, done, rfl⟩ := compareJsonFiles_eq_ok.mp compared
  obtain ⟨indices1, judged, contents, each, rfl⟩ := judged_of_compareIndices done
  obtain ⟨total, listed⟩ := total_of (Judges.le each)
  -- An empty second table is left out.
  have rows : (printed (.of judged)).issues.getD [] =
      issueRows 0 (Comparison.of judged).mismatchedIndices := by
    unfold printed
    dsimp only
    split_ifs with empty
    · rw [List.isEmpty_iff.mp empty]
      rfl
    · rfl
  have wellFormed := wellFormed_indices (JsonText.loads_wellFormed read1) contents
  have distinct := Json.nodup_of_wellFormed wellFormed
  have member := mem_mismatchedIndices_of distinct each
  refine ⟨json1, json2, indices1, .of judged, read1, read2, contents,
    { total := each.length_eq.symm, parts := total, results := rfl, issues := ?_, listed := ?_,
      names := ?_, distinct := distinct, exactly := fun index => ?_,
      severities := fun index severity there => ?_ }⟩
  · rw [rows, issueRows_eq]
  · rw [rows, issueRows_eq, List.length_map, List.length_zipIdx, listed]
  · rw [← Judges.names each]
    exact List.filter_sublist.map _
  · rw [List.mem_map]
    constructor
    · intro there
      obtain ⟨⟨index, severity⟩, entry, rfl⟩ := there
      obtain ⟨data1, stored, found, nonzero⟩ := (member index severity).mp entry
      refine ⟨data1, stored, fun matched => nonzero ?_⟩
      exact Except.ok.inj (found.symm.trans (matchedBy_iff.mp matched))
    · intro there
      obtain ⟨data1, stored, unmatched⟩ := there
      -- The index has been judged, and not with the severity of a match.
      obtain ⟨severity, found⟩ := Judges.succeeds each (Dict.mem_of_get? stored)
      refine ⟨(index, severity), (member index severity).mpr ⟨data1, stored, found, ?_⟩, rfl⟩
      intro zero
      exact unmatched (matchedBy_iff.mpr (zero ▸ found))
  · obtain ⟨data1, stored, found, -⟩ := (member index severity).mp there
    exact ⟨data1, stored, found⟩

/-- The record of an index, by its number of documents and whether that was still growing. -/
def indexRecord (count : Nat) (delta : Bool) : Json :=
  .obj [("has_write_alias", .bool false), ("ism_policy", .null), ("aliases", .obj []),
    ("document_count", .num count), ("document_count2", .num count),
    ("document_count_delta", .bool delta)]

/-- Three indices, into one of which documents were written. -/
def sourceFile : Json :=
  .obj [("indices", .obj [("logs", indexRecord 3 false), ("users", indexRecord 5 true),
    ("old", indexRecord 1 false)])]

/-- Two of the indices, one of which has got another document. -/
def targetFile : Json :=
  .obj [("indices", .obj [("users", indexRecord 6 false), ("logs", indexRecord 3 false)])]

/-- Both files are read as they were written. -/
theorem portable_sourceFile : JsonText.Portable sourceFile ∧ JsonText.Portable targetFile := by
  -- The records are made of numbers, truth values and empty values.
  have record (count : Nat) (delta : Bool) : JsonText.Portable (indexRecord count delta) := by
    refine JsonText.portable_obj.mpr ⟨by simp [Dict.keys], ?_⟩
    simp [JsonText.portable_bool, JsonText.portable_null, JsonText.portable_empty,
      JsonText.portable_nat]
  constructor
  · refine JsonText.portable_field (JsonText.portable_obj.mpr ⟨by simp [Dict.keys], ?_⟩)
    simp [record]
  · refine JsonText.portable_field (JsonText.portable_obj.mpr ⟨by simp [Dict.keys], ?_⟩)
    simp [record]

/-- The tables for the two files, from the first one to the second. -/
theorem compareJsonFiles_sourceFile :
    compareJsonFiles noFloats (outfile noFloats sourceFile) (outfile noFloats targetFile) =
      .ok (printed ⟨3, 1, 1, 0, 0, 0, 1, [("users", 1), ("old", 5)]⟩) :=
  compareJsonFiles_eq_ok.mpr ⟨_, _, _, JsonText.loads_dumps portable_sourceFile.1,
    JsonText.loads_dumps portable_sourceFile.2, rfl, rfl⟩

/-- The tables for the two files, the other way around. -/
theorem compareJsonFiles_targetFile :
    compareJsonFiles noFloats (outfile noFloats targetFile) (outfile noFloats sourceFile) =
      .ok (printed ⟨2, 1, 0, 0, 1, 0, 0, [("users", 3)]⟩) :=
  compareJsonFiles_eq_ok.mpr ⟨_, _, _, JsonText.loads_dumps portable_sourceFile.2,
    JsonText.loads_dumps portable_sourceFile.1, rfl, rfl⟩

/-- The tables of the two files list an index that has grown and one that is missing. -/
theorem compareJsonFiles_adds_up_sourceFile : ∃ json1 json2 indices1 result,
    JsonText.loads noFloats (outfile noFloats sourceFile) = some json1 ∧
      JsonText.loads noFloats (outfile noFloats targetFile) = some json2 ∧
      json1.get "indices" (.obj []) = .ok (.obj indices1) ∧
      AddsUp indices1 json2 result
        (printed ⟨3, 1, 1, 0, 0, 0, 1, [("users", 1), ("old", 5)]⟩) :=
  compareJsonFiles_adds_up compareJsonFiles_sourceFile

/--
Exchanging the files changes nothing about perfect matches, major issues and different counts.

Only the indices that are missing from one of the files depend on the direction.
-/
theorem compareJsonFiles_swap {forward backward : Printed}
    (there : compareJsonFiles floats file1 file2 = .ok forward)
    (back : compareJsonFiles floats file2 file1 = .ok backward) :
    ∃ result1 result2, forward = printed result1 ∧ backward = printed result2 ∧
      result1.severity0 = result2.severity0 ∧
      result1.severity1 + result1.severity2 + result1.severity3 =
        result2.severity1 + result2.severity2 + result2.severity3 ∧
      result1.severity4 = result2.severity4 := by
  obtain ⟨json1, json2, result1, read1, read2, done1, rfl⟩ := compareJsonFiles_eq_ok.mp there
  obtain ⟨json2', json1', result2, again2, again1, done2, rfl⟩ := compareJsonFiles_eq_ok.mp back
  cases read1.symm.trans again1
  cases read2.symm.trans again2
  -- What is read from a file is well formed, which makes the comparison of records symmetric.
  have swapped := compareIndices_swap (JsonText.loads_wellFormed read1)
    (JsonText.loads_wellFormed read2) done1 done2
  exact ⟨result1, result2, rfl, rfl, swapped⟩

/-- The index that has grown has another severity in each direction, but is no match in either. -/
theorem compareJsonFiles_swap_sourceFile : ∃ result1 result2,
    printed ⟨3, 1, 1, 0, 0, 0, 1, [("users", 1), ("old", 5)]⟩ = printed result1 ∧
      printed ⟨2, 1, 0, 0, 1, 0, 0, [("users", 3)]⟩ = printed result2 ∧
      result1.severity0 = result2.severity0 ∧
      result1.severity1 + result1.severity2 + result1.severity3 =
        result2.severity1 + result2.severity2 + result2.severity3 ∧
      result1.severity4 = result2.severity4 :=
  compareJsonFiles_swap compareJsonFiles_sourceFile compareJsonFiles_targetFile

end AivenExamples.MigrationValidation
