import AivenExamples.MigrationValidation.Completeness

/-! When a perfect match rests on values that were retrieved on both clusters. -/

namespace AivenExamples.MigrationValidation

/-- What becomes of retrieving a value: the value, or what the record has in its place. -/
inductive Outcome where
  | retrieved (value : Json)
  | failed (recorded : Json)

namespace Outcome

/-- What the record has. -/
def recorded : Outcome → Json
  | retrieved value => value
  | failed recorded => recorded

/-- Both values were retrieved, and they are equal. -/
def Same : Outcome → Outcome → Prop
  | retrieved value1, retrieved value2 => value1.pyEq value2 = true
  | _, _ => False

/-- A failure that the records do not show: what they have is equal all the same. -/
def Hides : Outcome → Outcome → Prop
  | retrieved _, retrieved _ => False
  | outcome1, outcome2 => outcome1.recorded.pyEq outcome2.recorded = true

/-- Equal records rest on equal values or hide a failure. -/
theorem recorded_pyEq_iff (outcome1 outcome2 : Outcome) :
    outcome1.recorded.pyEq outcome2.recorded = true ↔
      Same outcome1 outcome2 ∨ Hides outcome1 outcome2 := by
  cases outcome1 <;> cases outcome2 <;> simp [Same, Hides, recorded]

/-- What was retrieved on both sides hides nothing. -/
theorem not_hides_of_same {outcome1 outcome2 : Outcome} (same : Same outcome1 outcome2) :
    ¬ Hides outcome1 outcome2 := by
  cases outcome1 <;> cases outcome2 <;> simp_all [Same, Hides]

end Outcome

/-- What becomes of retrieving the aliases; only an answer that can be read has a value. -/
def aliasesOutcome (index : String) (reply : Reply) : Outcome :=
  match reply with
  | .ok answer =>
    match aliasesOf index answer with
    | .ok aliases => .retrieved aliases
    | .error _ => .failed .null
  | .error _ => .failed .null

/-- What becomes of retrieving a document count. -/
def countOutcome (reply : Reply) : Outcome :=
  match reply with
  | .ok answer =>
    match docCount answer with
    | .ok count => .retrieved count
    | .error _ => .failed .null
  | .error _ => .failed .null

/-- What becomes of retrieving the policy: a failure leaves its text behind. -/
def policyOutcome (textOf : PyError → String) (index : String) (reply : Reply) : Outcome :=
  match reply with
  | .ok answer =>
    match policyId index answer with
    | .ok id => .retrieved id
    | .error fault => .failed (policyError (textOf fault))
  | .error fault => .failed (policyError fault.message)

/-- The count that `get_index_doc_count` returns is what the outcome records. -/
theorem recorded_count {reply : Reply} {count : Json}
    (read : getIndexDocCount reply = .ok count) : (countOutcome reply).recorded = count := by
  -- The handlers of `get_index_doc_count` are those of the outcome.
  rcases reply with ⟨_ | _⟩ | answer
  · cases read
    rfl
  · cases read
  · simp only [getIndexDocCount] at read
    simp [countOutcome, read, Outcome.recorded]

/-- The policy, or the text in its place, is what the outcome records. -/
theorem recorded_policy (textOf : PyError → String) (index : String) (reply : Reply) :
    (policyOutcome textOf index reply).recorded = getIsmPolicy textOf index reply := by
  -- A policy that cannot be read leaves the text of its error.
  cases reply with
  | error fault => rfl
  | ok answer => cases read : policyId index answer <;>
      simp [policyOutcome, getIsmPolicy, read, Outcome.recorded]

/-- What becomes of the requests for an index in the last rounds of the two runs. -/
structure Outcomes where
  aliases : Outcome
  policy : Outcome
  count : Outcome
  count2 : Outcome

/-- The outcomes for an index in one round of a run. -/
def outcomes (textOf : PyError → String) (cluster : Cluster) (index : String) (round : Nat) :
    Outcomes where
  aliases := aliasesOutcome index (cluster.aliases round)
  policy := policyOutcome textOf index (cluster.policy round)
  count := countOutcome (cluster.count round)
  count2 := countOutcome (cluster.count2 round)

/-- Everything was retrieved on both clusters, with equal values. -/
structure Evident (first second : Outcomes) : Prop where
  aliases : first.aliases.Same second.aliases
  policy : first.policy.Same second.policy
  count : first.count.Same second.count
  count2 : first.count2.Same second.count2

/--
Failures that look like a match.

The aliases are equal, and each of the other data is equal or hides a failure, at least one of them
the latter.
-/
structure Masked (first second : Outcomes) : Prop where
  aliases : first.aliases.Same second.aliases
  policy : first.policy.Same second.policy ∨ first.policy.Hides second.policy
  count : first.count.Same second.count ∨ first.count.Hides second.count
  count2 : first.count2.Same second.count2 ∨ first.count2.Hides second.count2
  failure : first.policy.Hides second.policy ∨ first.count.Hides second.count ∨
    first.count2.Hides second.count2

/-- Whether the settings of an alias make it a write alias. -/
def writeFlag (settings : Json) : Bool :=
  match settings with
  | .obj fields => ((Dict.get? fields "is_write_index").getD (.bool false)).truthy
  | _ => false

/-- Going through the aliases looks for one with the flag. -/
theorem anyWriteIndex_iff {items : List (String × Json)} {writeAlias : Bool}
    (looked : anyWriteIndex items = .ok writeAlias) :
    writeAlias = true ↔ ∃ item ∈ items, writeFlag item.2 = true := by
  induction items with
  | nil =>
    cases looked
    simp
  | cons item items ih =>
    obtain ⟨name, entry⟩ := item
    obtain ⟨flag, read, rest⟩ := bind_eq_ok.mp looked
    obtain ⟨fields, same, value⟩ := Json.get_eq_ok.mp read
    have head : writeFlag entry = flag.truthy := by rw [same, writeFlag, value]
    -- The loop stops at the first alias with the flag.
    by_cases truthy : flag.truthy = true
    · rw [if_pos truthy] at rest
      cases rest
      simp [head, truthy]
    · rw [if_neg truthy] at rest
      simp [head, truthy, ih rest]

/-- Equal settings have equal flags. -/
theorem writeFlag_congr {settings1 settings2 : Json} (wellFormed1 : settings1.WellFormed)
    (wellFormed2 : settings2.WellFormed) (equal : settings1.pyEq settings2 = true) :
    writeFlag settings1 = writeFlag settings2 := by
  cases settings1 with
  | obj fields1 =>
    cases settings2 with
    | obj fields2 =>
      -- Both are objects, and their flags are equal values or both absent.
      have agree := (Json.pyEq_obj_iff (Json.nodup_of_wellFormed wellFormed1)
        (Json.nodup_of_wellFormed wellFormed2)).mp equal "is_write_index"
      simp only [writeFlag]
      cases found1 : Dict.get? fields1 "is_write_index" <;>
        cases found2 : Dict.get? fields2 "is_write_index" <;> rw [found1, found2] at agree
      · cases agree
      · cases agree
      · cases agree with
        | some same => exact Json.truthy_of_pyEq same
    | _ => simp [Json.pyEq] at equal
  | _ => cases settings2 <;> simp_all [Json.pyEq, writeFlag]

/-- With distinct names an alias is found under its name. -/
theorem exists_writeFlag_iff {items : Dict String Json} (distinct : (Dict.keys items).Nodup) :
    (∃ item ∈ items, writeFlag item.2 = true) ↔
      ∃ name settings, Dict.get? items name = some settings ∧ writeFlag settings = true := by
  -- A name of a dictionary has one value, so items and names say the same.
  constructor
  · intro flagged
    obtain ⟨item, member, flag⟩ := flagged
    exact ⟨item.1, item.2, Dict.get?_of_mem distinct member, flag⟩
  · intro flagged
    obtain ⟨name, settings, found, flag⟩ := flagged
    exact ⟨(name, settings), Dict.mem_of_get? found, flag⟩

/-- Equal aliases have write aliases alike. -/
theorem hasWriteAlias_congr {aliases1 aliases2 : Json} (wellFormed1 : aliases1.WellFormed)
    (wellFormed2 : aliases2.WellFormed) (equal : aliases1.pyEq aliases2 = true)
    {writeAlias1 writeAlias2 : Bool} (looked1 : hasWriteAlias aliases1 = .ok writeAlias1)
    (looked2 : hasWriteAlias aliases2 = .ok writeAlias2) : writeAlias1 = writeAlias2 := by
  cases aliases1 with
  | obj items1 =>
    cases aliases2 with
    | obj items2 =>
      have distinct1 := Json.nodup_of_wellFormed wellFormed1
      have distinct2 := Json.nodup_of_wellFormed wellFormed2
      have agree := (Json.pyEq_obj_iff distinct1 distinct2).mp equal
      rw [Bool.eq_iff_iff, anyWriteIndex_iff looked1, anyWriteIndex_iff looked2,
        exists_writeFlag_iff distinct1, exists_writeFlag_iff distinct2]
      refine exists_congr fun name => ?_
      -- Under each name there are equal settings on both sides, or none.
      have related := agree name
      cases found1 : Dict.get? items1 name with
      | none =>
        rw [found1] at related
        cases found2 : Dict.get? items2 name with
        | none => simp
        | some settings2 =>
          rw [found2] at related
          cases related
      | some settings1 =>
        rw [found1] at related
        cases found2 : Dict.get? items2 name with
        | none =>
          rw [found2] at related
          cases related
        | some settings2 =>
          rw [found2] at related
          cases related with
          | some same =>
            simp [writeFlag_congr (Json.wellFormed_of_get? wellFormed1 found1)
              (Json.wellFormed_of_get? wellFormed2 found2) same]
    | _ => cases looked2
  | _ => cases looked1

/-- The aliases of a parsed answer are well formed. -/
theorem wellFormed_aliasesOf {index : String} {answer aliases : Json} (parsed : answer.WellFormed)
    (read : aliasesOf index answer = .ok aliases) : aliases.WellFormed := by
  have empty : (Json.obj []).WellFormed := by simp [Json.WellFormed, Json.WellFormedFields]
  -- Each lookup yields a part of a parsed value or the empty dictionary.
  have lookup : ∀ {value found : Json} {key : String}, value.WellFormed →
      value.get key (.obj []) = .ok found → found.WellFormed := by
    intro value found key wellFormed got
    obtain ⟨fields, same, stored⟩ := Json.get_eq_ok.mp got
    cases same
    cases there : Dict.get? fields key with
    | none =>
      rw [there] at stored
      exact stored ▸ empty
    | some part =>
      rw [there] at stored
      exact stored ▸ Json.wellFormed_of_get? wellFormed there
  obtain ⟨entry, entryRead, aliasesRead⟩ := bind_eq_ok.mp read
  exact lookup (lookup parsed entryRead) aliasesRead

/-- Agreement in a field is about what both records have there. -/
theorem agreeIn_iff {data1 data2 value1 value2 : Json} {name : String}
    (read1 : data1.item name = .ok value1) (read2 : data2.item name = .ok value2) :
    AgreeIn data1 data2 name ↔ value1.pyEq value2 = true := by
  simp [AgreeIn, read1, read2]

/-- Two complete records agree exactly when what they say about the index does. -/
theorem agreeIn_record {info1 info2 : Info} :
    (∀ name ∈ comparedFields, AgreeIn (.obj info1.record) (.obj info2.record) name) ↔
      info1.writeAlias = info2.writeAlias ∧ info1.policy.pyEq info2.policy = true ∧
      info1.aliases.pyEq info2.aliases = true ∧ info1.count.pyEq info2.count = true ∧
      info1.count2.pyEq info2.count2 = true := by
  -- The compared fields are all in both records, so that each of them has to agree.
  simp only [comparedFields, List.forall_mem_cons]
  rw [agreeIn_iff (by rfl) (by rfl), agreeIn_iff (by rfl) (by rfl), agreeIn_iff (by rfl) (by rfl),
    agreeIn_iff (by rfl) (by rfl), agreeIn_iff (by rfl) (by rfl)]
  simp [Json.pyEq]

/-- An index is counted as a perfect match: it is listed, and not among the mismatched ones. -/
def CountedPerfect (file1 : Json) (comparison : Comparison) (index : String) : Prop :=
  (∃ indices1, file1.get "indices" (.obj []) = .ok (.obj indices1) ∧
    index ∈ Dict.keys indices1) ∧
  ∀ severity, (index, severity) ∉ comparison.mismatchedIndices

/-- The answers to the requests for aliases are parsed, so that no key occurs twice in them. -/
def Parsed (cluster : Cluster) : Prop :=
  ∀ round answer, cluster.aliases round = .ok answer → answer.WellFormed

/-- Aliases that were gone through stem from an answer. -/
theorem retrieved_aliases {index : String} {reply : Reply} {aliases : Json} {writeAlias : Bool}
    (read : getAliases index reply = .ok aliases)
    (looked : hasWriteAlias aliases = .ok writeAlias) :
    ∃ answer, reply = .ok answer ∧ aliasesOf index answer = .ok aliases := by
  -- The text of an error has no items to go through.
  rcases reply with ⟨_ | _⟩ | answer
  · cases read
    cases looked
  · cases read
  · exact ⟨answer, rfl, read⟩

/-- Equal aliases that were gone through lead to the same write alias. -/
theorem writeAlias_eq {textOf : PyError → String} {cluster1 cluster2 : Cluster} {index : String}
    {round1 round2 : Nat} {info1 info2 : Info} (parsed1 : Parsed cluster1)
    (parsed2 : Parsed cluster2) (known1 : Known textOf cluster1 index round1 info1)
    (known2 : Known textOf cluster2 index round2 info2)
    (equal : info1.aliases.pyEq info2.aliases = true) : info1.writeAlias = info2.writeAlias := by
  -- The flag is read from the answers themselves, which are well formed.
  obtain ⟨answer1, replied1, read1⟩ :=
    retrieved_aliases known1.collects.aliases known1.completes.writeAlias
  obtain ⟨answer2, replied2, read2⟩ :=
    retrieved_aliases known2.collects.aliases known2.completes.writeAlias
  exact hasWriteAlias_congr (wellFormed_aliasesOf (parsed1 _ _ replied1) read1)
    (wellFormed_aliasesOf (parsed2 _ _ replied2) read2) equal known1.completes.writeAlias
    known2.completes.writeAlias

/-- The aliases of a finished run were retrieved. -/
theorem aliasesOutcome_eq {textOf : PyError → String} {cluster : Cluster} {index : String}
    {round : Nat} {info : Info} (known : Known textOf cluster index round info) :
    aliasesOutcome index (cluster.aliases round) = .retrieved info.aliases := by
  -- A run that finishes has had an answer to read.
  obtain ⟨answer, replied, read⟩ :=
    retrieved_aliases known.collects.aliases known.completes.writeAlias
  simp [aliasesOutcome, replied, read]

/-- Data that agrees is evident unless a failure is masked. -/
theorem evident_or_masked_iff {first second : Outcomes} :
    Evident first second ∨ Masked first second ↔ first.aliases.Same second.aliases ∧
      (first.policy.Same second.policy ∨ first.policy.Hides second.policy) ∧
      (first.count.Same second.count ∨ first.count.Hides second.count) ∧
      (first.count2.Same second.count2 ∨ first.count2.Hides second.count2) := by
  constructor
  · intro either
    rcases either with evident | masked
    · exact ⟨evident.aliases, .inl evident.policy, .inl evident.count, .inl evident.count2⟩
    · exact ⟨masked.aliases, masked.policy, masked.count, masked.count2⟩
  · intro agree
    obtain ⟨aliases, policy, count, count2⟩ := agree
    by_cases failure : first.policy.Hides second.policy ∨ first.count.Hides second.count ∨
        first.count2.Hides second.count2
    · exact .inr ⟨aliases, policy, count, count2, failure⟩
    · -- Without a hidden failure each agreement is one of retrieved values.
      simp only [not_or] at failure
      exact .inl ⟨aliases, policy.resolve_right failure.1, count.resolve_right failure.2.1,
        count2.resolve_right failure.2.2⟩

/-- Two records agree exactly when the data is evident on both sides or failures are masked. -/
theorem agree_iff {textOf : PyError → String} {cluster1 cluster2 : Cluster} {index : String}
    {round1 round2 : Nat} {info1 info2 : Info} (parsed1 : Parsed cluster1)
    (parsed2 : Parsed cluster2) (known1 : Known textOf cluster1 index round1 info1)
    (known2 : Known textOf cluster2 index round2 info2) :
    (∀ name ∈ comparedFields, AgreeIn (.obj info1.record) (.obj info2.record) name) ↔
      Evident (outcomes textOf cluster1 index round1) (outcomes textOf cluster2 index round2) ∨
      Masked (outcomes textOf cluster1 index round1) (outcomes textOf cluster2 index round2) := by
  have aliases : info1.aliases.pyEq info2.aliases = true ↔
      (outcomes textOf cluster1 index round1).aliases.Same
        (outcomes textOf cluster2 index round2).aliases := by
    simp [outcomes, aliasesOutcome_eq known1, aliasesOutcome_eq known2, Outcome.Same]
  -- Each record of the other data is what its outcome leaves there.
  have policy := Outcome.recorded_pyEq_iff
    (outcomes textOf cluster1 index round1).policy (outcomes textOf cluster2 index round2).policy
  have count := Outcome.recorded_pyEq_iff
    (outcomes textOf cluster1 index round1).count (outcomes textOf cluster2 index round2).count
  have count2 := Outcome.recorded_pyEq_iff
    (outcomes textOf cluster1 index round1).count2 (outcomes textOf cluster2 index round2).count2
  simp only [outcomes, recorded_policy, known1.collects.policy, known2.collects.policy] at policy
  simp only [outcomes, recorded_count known1.collects.count,
    recorded_count known2.collects.count] at count
  simp only [outcomes, recorded_count known1.completes.count2,
    recorded_count known2.completes.count2] at count2
  rw [agreeIn_record, policy, count, count2, aliases, evident_or_masked_iff]
  constructor
  · intro agree
    obtain ⟨_, samePolicy, sameAliases, sameCounts⟩ := agree
    exact ⟨sameAliases, samePolicy, sameCounts⟩
  · intro agree
    obtain ⟨sameAliases, samePolicy, sameCounts⟩ := agree
    exact ⟨writeAlias_eq parsed1 parsed2 known1 known2 (aliases.mpr sameAliases), samePolicy,
      sameAliases, sameCounts⟩

/-- What is evident masks nothing. -/
theorem not_masked_of_evident {first second : Outcomes} (evident : Evident first second) :
    ¬ Masked first second := by
  intro masked
  -- Each of the three failures would have to show.
  rcases masked.failure with policy | count | count2
  · exact Outcome.not_hides_of_same evident.policy policy
  · exact Outcome.not_hides_of_same evident.count count
  · exact Outcome.not_hides_of_same evident.count2 count2

/-- A perfect match is an index of both files whose records agree. -/
theorem countedPerfect_iff {indices1 indices2 : Dict String Json} {file1 file2 : Json}
    {comparison : Comparison} (distinct : (Dict.keys indices1).Nodup)
    (contents1 : file1.get "indices" (.obj []) = .ok (.obj indices1))
    (contents2 : file2.get "indices" (.obj []) = .ok (.obj indices2))
    (compared : compareIndices file1 file2 = .ok comparison) (index : String) :
    CountedPerfect file1 comparison index ↔ ∃ data1 data2,
      Dict.get? indices1 index = some data1 ∧ Dict.get? indices2 index = some data2 ∧
      data2.truthy = true ∧ ∀ name ∈ comparedFields, AgreeIn data1 data2 name := by
  have done : compareItems file2 .empty indices1 = .ok comparison := by
    rw [compareIndices, contents1] at compared
    exact compared
  constructor
  · intro counted
    obtain ⟨⟨indices, contents, member⟩, unlisted⟩ := counted
    cases contents1.symm.trans contents
    obtain ⟨data1, found1⟩ := Dict.mem_keys.mp member
    obtain ⟨severity, severe⟩ := severityOf_of_compareItems done (Dict.mem_of_get? found1)
    -- A severity above zero would be listed.
    have zero : severity = 0 := by
      by_contra nonzero
      exact unlisted severity ((mem_mismatchedIndices done).mpr
        (.inr ⟨data1, Dict.mem_of_get? found1, severe, nonzero⟩))
    rw [zero] at severe
    obtain ⟨data2, found2, truthy, agree⟩ := (severityOf_eq_zero contents2).mp severe
    exact ⟨data1, data2, found1, found2, truthy, agree⟩
  · intro agreeing
    obtain ⟨data1, data2, found1, found2, truthy, agree⟩ := agreeing
    refine ⟨⟨indices1, contents1, Dict.mem_keys.mpr ⟨data1, found1⟩⟩, fun severity listed => ?_⟩
    rcases (mem_mismatchedIndices done).mp listed with old | ⟨data, member, severe, nonzero⟩
    · cases old
    · -- The index is listed once, with severity zero.
      cases (Dict.get?_of_mem distinct member).symm.trans found1
      cases severe.symm.trans
        ((severityOf_eq_zero contents2).mpr ⟨data2, found2, truthy, agree⟩)
      exact nonzero rfl

/-- The last round in which a run visits an index, whose answers the record keeps. -/
def LastVisit (patterns : List String) (cluster : Cluster) (index : String) (round : Nat) : Prop :=
  ∃ matching, getMatchingIndices cluster.indices patterns = .ok matching ∧
    lastRound index matching.zipIdx = some round

/-- A run has at most one last visit to an index. -/
theorem LastVisit.unique {patterns : List String} {cluster : Cluster} {index : String}
    {round other : Nat} (last : LastVisit patterns cluster index round)
    (lastToo : LastVisit patterns cluster index other) : round = other := by
  obtain ⟨matching, listed, visit⟩ := last
  obtain ⟨matchingToo, listedToo, visitToo⟩ := lastToo
  -- Both visits are the last one of the same list.
  cases listed.symm.trans listedToo
  exact Option.some.inj (visit.symm.trans visitToo)

/-- An index is counted as a perfect match when its data is evident, or when failures are masked. -/
theorem countedPerfect_collected {textOf : PyError → String} {patterns1 patterns2 : List String}
    {header1 header2 : Header} {cluster1 cluster2 : Cluster} {file1 file2 : Json}
    {comparison : Comparison} (parsed1 : Parsed cluster1) (parsed2 : Parsed cluster2)
    (collected1 : collect textOf patterns1 header1 cluster1 = .ok file1)
    (collected2 : collect textOf patterns2 header2 cluster2 = .ok file2)
    (compared : compareIndices file1 file2 = .ok comparison) (index : String) :
    CountedPerfect file1 comparison index ↔ ∃ round1 round2,
      LastVisit patterns1 cluster1 index round1 ∧ LastVisit patterns2 cluster2 index round2 ∧
      (Evident (outcomes textOf cluster1 index round1) (outcomes textOf cluster2 index round2) ∨
        Masked (outcomes textOf cluster1 index round1)
          (outcomes textOf cluster2 index round2)) := by
  obtain ⟨matching1, indexData1, listed1, finished1, same1⟩ := collect_eq_ok collected1
  obtain ⟨matching2, indexData2, listed2, finished2, same2⟩ := collect_eq_ok collected2
  have distinct := (keys_fileIndices_perm indexData1).symm.nodup finished1.distinct
  rw [countedPerfect_iff distinct (same1 ▸ get_outputData header1 indexData1 _)
    (same2 ▸ get_outputData header2 indexData2 _) compared]
  constructor
  · -- Both files have a record of the index, from the last visits of their runs.
    intro perfect
    obtain ⟨data1, data2, found1, found2, _, agree⟩ := perfect
    obtain ⟨round1, info1, last1, known1, record1⟩ := (get?_fileIndices_eq_some finished1).mp found1
    obtain ⟨round2, info2, last2, known2, record2⟩ := (get?_fileIndices_eq_some finished2).mp found2
    rw [← record1, ← record2] at agree
    exact ⟨round1, round2, ⟨matching1, listed1, last1⟩, ⟨matching2, listed2, last2⟩,
      (agree_iff parsed1 parsed2 known1 known2).mp agree⟩
  · -- A visit in each run is a record in each file.
    intro visited
    obtain ⟨round1, round2, ⟨_, listedToo1, last1⟩, ⟨_, listedToo2, last2⟩, either⟩ := visited
    cases listed1.symm.trans listedToo1
    cases listed2.symm.trans listedToo2
    obtain ⟨info1, known1, _⟩ := finished1.records index round1 last1
    obtain ⟨info2, known2, _⟩ := finished2.records index round2 last2
    exact ⟨_, _, (get?_fileIndices_eq_some finished1).mpr ⟨round1, info1, last1, known1, rfl⟩,
      (get?_fileIndices_eq_some finished2).mpr ⟨round2, info2, last2, known2, rfl⟩, rfl,
      (agree_iff parsed1 parsed2 known1 known2).mpr either⟩

/--
Perfect matches rest on evidence exactly when no failures are masked.

An index may be visited several times, and what counts is its last visit in each of the runs.
-/
theorem evident_iff {textOf : PyError → String} {patterns1 patterns2 : List String}
    {header1 header2 : Header} {cluster1 cluster2 : Cluster} {file1 file2 : Json}
    {comparison : Comparison} (parsed1 : Parsed cluster1) (parsed2 : Parsed cluster2)
    (collected1 : collect textOf patterns1 header1 cluster1 = .ok file1)
    (collected2 : collect textOf patterns2 header2 cluster2 = .ok file2)
    (compared : compareIndices file1 file2 = .ok comparison) :
    (∀ index, CountedPerfect file1 comparison index → ∃ round1 round2,
      LastVisit patterns1 cluster1 index round1 ∧ LastVisit patterns2 cluster2 index round2 ∧
      Evident (outcomes textOf cluster1 index round1) (outcomes textOf cluster2 index round2)) ↔
    ∀ index round1 round2, LastVisit patterns1 cluster1 index round1 →
      LastVisit patterns2 cluster2 index round2 →
      ¬ Masked (outcomes textOf cluster1 index round1) (outcomes textOf cluster2 index round2) := by
  have perfect := countedPerfect_collected parsed1 parsed2 collected1 collected2 compared
  constructor
  · -- A masked failure is counted as a match, and it is no evidence.
    intro evidence index round1 round2 last1 last2 masked
    obtain ⟨other1, other2, lastToo1, lastToo2, evident⟩ := evidence index
      ((perfect index).mpr ⟨round1, round2, last1, last2, .inr masked⟩)
    rw [last1.unique lastToo1, last2.unique lastToo2] at masked
    exact not_masked_of_evident evident masked
  · intro unmasked index counted
    obtain ⟨round1, round2, last1, last2, either⟩ := (perfect index).mp counted
    exact ⟨round1, round2, last1, last2, either.resolve_right (unmasked index _ _ last1 last2)⟩

/-- The cluster with one index, with every request answered. -/
def answering : Cluster := oneIndex (fun _ => .ok noAliases) (.ok (countAnswer 3))

/-- The same cluster, but for its policies, which it fails to give. -/
def unexplained : Cluster := { answering with policy := fun _ => notFound }

/-- What the file says about the index, by what it says about the policy. -/
def logsInfo (policy : Json) : Info := ⟨.obj [], policy, .num (3 : Nat), .num (3 : Nat), false⟩

/-- The file that is written. -/
def logsFile (policy : Json) : Json := outputData ⟨"", "", ""⟩ [("logs", (logsInfo policy).record)]

/-- A run against the answering cluster records no policy. -/
theorem collect_answering :
    collect (fun _ => "") ["*"] ⟨"", "", ""⟩ answering = .ok (logsFile .null) := by
  rfl

/-- A run against the other one records the text of its failure. -/
theorem collect_unexplained : collect (fun _ => "") ["*"] ⟨"", "", ""⟩ unexplained =
    .ok (logsFile (policyError "NotFoundError(404)")) := by
  rfl

/-- Comparing the file with itself finds a perfect match. -/
theorem compare_logsFile {policy : Json} (reflexive : policy.pyEq policy = true) :
    compareIndices (logsFile policy) (logsFile policy) = .ok ⟨1, 1, 0, 0, 0, 0, 0, []⟩ := by
  have contents : (logsFile policy).get "indices" (.obj []) =
      .ok (.obj [("logs", .obj (logsInfo policy).record)]) := by
    rw [logsFile, get_outputData]
    simp [fileIndices, sorted]
  have agree : ∀ name ∈ comparedFields,
      AgreeIn (.obj (logsInfo policy).record) (.obj (logsInfo policy).record) name :=
    agreeIn_record.mpr ⟨rfl, reflexive, by rfl, by simp [logsInfo, Json.pyEq],
      by simp [logsInfo, Json.pyEq]⟩
  -- All compared fields agree, so the severity of the only index is zero.
  have zero : severityOf (logsFile policy) "logs" (.obj (logsInfo policy).record) = .ok 0 :=
    (severityOf_eq_zero contents).mpr ⟨_, rfl, rfl, agree⟩
  rw [compareIndices, contents]
  simp [bind, Except.bind, compareItems, zero, Comparison.add, Comparison.empty, pure, Except.pure]

/-- The only index of the file is the perfect match. -/
theorem countedPerfect_logsFile (policy : Json) :
    CountedPerfect (logsFile policy) ⟨1, 1, 0, 0, 0, 0, 0, []⟩ "logs" :=
  ⟨⟨_, get_outputData _ _ _, by simp [fileIndices, sorted]⟩, by simp⟩

/-- The only index of the cluster is visited once. -/
theorem lastVisit_oneIndex {cluster : Cluster} (indices : cluster.indices = .ok ["logs"])
    {index : String} {round : Nat} :
    LastVisit ["*"] cluster index round ↔ index = "logs" ∧ round = 0 := by
  -- The listing has one index, which the only pattern matches.
  have listed : getMatchingIndices cluster.indices ["*"] = .ok ["logs"] := by
    rw [indices]
    rfl
  simp only [LastVisit, listed, Except.ok.injEq, exists_eq_left']
  simp [lastRound, List.zipIdx, eq_comm]

/-- The answers of the cluster are well formed. -/
theorem parsed_answering : Parsed answering := by
  intro round answer replied
  cases replied
  simp [noAliases, Json.WellFormed, Json.WellFormedFields]

/-- With every request answered a perfect match is evident. -/
theorem evident_answering :
    CountedPerfect (logsFile .null) ⟨1, 1, 0, 0, 0, 0, 0, []⟩ "logs" ∧ ∃ round1 round2,
      LastVisit ["*"] answering "logs" round1 ∧ LastVisit ["*"] answering "logs" round2 ∧
      Evident (outcomes (fun _ => "") answering "logs" round1)
        (outcomes (fun _ => "") answering "logs" round2) := by
  refine ⟨countedPerfect_logsFile .null, (evident_iff parsed_answering parsed_answering
    collect_answering collect_answering (compare_logsFile rfl)).mpr ?_ "logs"
    (countedPerfect_logsFile .null)⟩
  intro index round1 round2 last1 last2 masked
  obtain ⟨same, _⟩ := (lastVisit_oneIndex rfl).mp last1
  subst same
  -- Nothing has failed that could be hidden.
  rcases masked.failure with policy | count | count2
  · exact policy
  · exact count
  · exact count2

/-- The policies of two clusters that fail alike make a perfect match. -/
theorem evident_counterexample :
    collect (fun _ => "") ["*"] ⟨"", "", ""⟩ unexplained =
      .ok (logsFile (policyError "NotFoundError(404)")) ∧
    ∃ comparison, compareIndices (logsFile (policyError "NotFoundError(404)"))
        (logsFile (policyError "NotFoundError(404)")) = .ok comparison ∧
      CountedPerfect (logsFile (policyError "NotFoundError(404)")) comparison "logs" ∧
      ¬ ∃ round1 round2, LastVisit ["*"] unexplained "logs" round1 ∧
        LastVisit ["*"] unexplained "logs" round2 ∧
        Evident (outcomes (fun _ => "") unexplained "logs" round1)
          (outcomes (fun _ => "") unexplained "logs" round2) := by
  refine ⟨collect_unexplained, _, compare_logsFile (by simp [policyError, Json.pyEq]),
    countedPerfect_logsFile _, ?_⟩
  -- Neither policy was retrieved, so that the match is no evidence.
  intro evidence
  obtain ⟨_, _, _, _, evident⟩ := evidence
  exact evident.policy

end AivenExamples.MigrationValidation
