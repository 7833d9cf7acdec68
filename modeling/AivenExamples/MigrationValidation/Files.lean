import AivenExamples.Data.JsonRoundTrip
import AivenExamples.MigrationValidation.Evidence

/-! The file that a run writes: what the cluster has answered can be read from it again. -/

namespace AivenExamples.MigrationValidation

open JsonText

/-- `json.dump(output_data, f, ensure_ascii=False, indent=4)` -/
def outfile (floats : Floats) (outputData : Json) : String :=
  dumps ⟨false, some 4⟩ floats outputData

/-- The answers of the cluster are values as JSON has them, with integral numbers. -/
structure PortableAnswers (cluster : Cluster) : Prop where
  aliases : ∀ round answer, cluster.aliases round = .ok answer → Portable answer
  policy : ∀ round answer, cluster.policy round = .ok answer → Portable answer
  count : ∀ round answer, cluster.count round = .ok answer → Portable answer
  count2 : ∀ round answer, cluster.count2 round = .ok answer → Portable answer

/-- A count that is recorded is a part of an answer, or nothing. -/
theorem portable_count {reply : Reply} {count : Json}
    (answers : ∀ answer, reply = .ok answer → Portable answer)
    (read : getIndexDocCount reply = .ok count) : Portable count := by
  -- The count stands four dictionaries deep in the answer.
  rcases reply with ⟨_ | _⟩ | stats
  · cases read
    exact portable_null
  · cases read
  · obtain ⟨all, inAll, rest⟩ := bind_eq_ok.mp read
    obtain ⟨primaries, inPrimaries, rest⟩ := bind_eq_ok.mp rest
    obtain ⟨docs, inDocs, rest⟩ := bind_eq_ok.mp rest
    exact ((((answers stats rfl).item inAll).item inPrimaries).item inDocs).item rest

/-- Aliases that are recorded are a part of an answer, or nothing. -/
theorem portable_aliases {index : String} {reply : Reply} {aliases : Json}
    (answers : ∀ answer, reply = .ok answer → Portable answer)
    (read : getAliases index reply = .ok aliases) : Portable aliases := by
  -- An answer that is missing is recorded as nothing, and any other error raises.
  rcases reply with ⟨_ | _⟩ | answer
  · cases read
    exact portable_null
  · cases read
  · obtain ⟨entry, found, rest⟩ := bind_eq_ok.mp read
    exact ((answers answer rfl).get portable_empty found).get portable_empty rest

/-- A policy that is recorded is a part of an answer, nothing, or the text of an error. -/
theorem portable_policy {textOf : PyError → String} {index : String} {reply : Reply}
    (answers : ∀ answer, reply = .ok answer → Portable answer) :
    Portable (getIsmPolicy textOf index reply) := by
  cases reply with
  | error fault => exact portable_str _
  | ok settings =>
    cases explained : policyId index settings with
    | error fault =>
      simp only [getIsmPolicy, explained]
      exact portable_str _
    | ok id =>
      have portable := answers settings rfl
      simp only [getIsmPolicy, explained]
      obtain ⟨_, found, rest⟩ := bind_eq_ok.mp explained
      obtain ⟨newer, read, rest⟩ := bind_eq_ok.mp rest
      -- The newer name counts when it has a value, and then the older one.
      split at rest
      · cases rest
        exact (portable.item found).get portable_null read
      · obtain ⟨_, foundAgain, rest⟩ := bind_eq_ok.mp rest
        obtain ⟨older, readToo, value⟩ := bind_eq_ok.mp rest
        split at value
        · cases value
          exact (portable.item foundAgain).get portable_null readToo
        · cases value
          exact portable_null

/-- A record of what is known of an index is portable. -/
theorem portable_record {textOf : PyError → String} {cluster : Cluster} {index : String}
    {round : Nat} {info : Info} (answers : PortableAnswers cluster)
    (known : Known textOf cluster index round info) : Portable (.obj info.record) := by
  -- Each of the six fields has its own answer, or is a truth value.
  have aliases := portable_aliases (answers.aliases round) known.collects.aliases
  have count := portable_count (answers.count round) known.collects.count
  have count2 := portable_count (answers.count2 round) known.completes.count2
  have policy : Portable info.policy :=
    known.collects.policy ▸ portable_policy (answers.policy round)
  refine portable_obj.mpr ⟨by simp [Info.record, Dict.keys], fun field member => ?_⟩
  simp only [Info.record, List.mem_cons, List.not_mem_nil, or_false] at member
  rcases member with same | same | same | same | same | same <;> subst same
  · exact aliases
  · exact count
  · exact policy
  · exact count2
  · exact portable_bool _
  · exact portable_bool _

/-- The file of a run against a cluster with portable answers is portable. -/
theorem portable_collected {textOf : PyError → String} {patterns : List String} {header : Header}
    {cluster : Cluster} {file : Json} (answers : PortableAnswers cluster)
    (collected : collect textOf patterns header cluster = .ok file) : Portable file := by
  obtain ⟨matching, indexData, listed, finished, rfl⟩ := collect_eq_ok collected
  have complete := completeFile_of_finished finished header
  have indices : Portable (.obj (fileIndices indexData)) := by
    refine portable_obj.mpr ⟨complete.distinct, fun item member => ?_⟩
    -- Every record stems from the last round of its index.
    have found := Dict.get?_of_mem complete.distinct member
    obtain ⟨round, info, _, known, same⟩ := (get?_fileIndices_eq_some finished).mp found
    exact same ▸ portable_record answers known
  refine portable_obj.mpr ⟨by simp [Dict.keys], fun field member => ?_⟩
  simp only [List.mem_cons, List.not_mem_nil, or_false] at member
  rcases member with same | same | same | same <;> subst same
  · exact portable_str _
  · exact portable_str _
  · exact portable_str _
  · exact indices

/-- The answers of the cluster with one index are portable. -/
theorem portable_answering : PortableAnswers answering where
  -- Every answer of the cluster is a dictionary around a number or around nothing.
  aliases round answer replied := by
    cases replied
    exact portable_field (portable_field portable_empty)
  policy round answer replied := by
    cases replied
    exact portable_field portable_empty
  count round answer replied := by
    cases replied
    exact portable_field (portable_field (portable_field (portable_field (portable_nat 3))))
  count2 round answer replied := by
    cases replied
    exact portable_field (portable_field (portable_field (portable_field (portable_nat 3))))

/-- So are those of the cluster that fails to give its policies. -/
theorem portable_unexplained : PortableAnswers unexplained where
  aliases := portable_answering.aliases
  policy round answer replied := by cases replied
  count := portable_answering.count
  count2 := portable_answering.count2

end AivenExamples.MigrationValidation
