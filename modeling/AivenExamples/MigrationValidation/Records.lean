import AivenExamples.MigrationValidation.Collect

/-! What a run of the collector leaves in its records: the answers of the last rounds. -/

namespace AivenExamples.MigrationValidation

/-- The last round in which an index is visited. -/
def lastRound (index : String) : List (String × Nat) → Option Nat
  | [] => none
  | (other, round) :: rounds =>
    (lastRound index rounds).or (if other = index then some round else none)

/-- What a complete record says about an index. -/
structure Info where
  aliases : Json
  policy : Json
  count : Json
  count2 : Json
  writeAlias : Bool

/-- The record after the first pass. -/
def Info.collected (info : Info) : Record :=
  [("aliases", info.aliases), ("document_count", info.count), ("ism_policy", info.policy)]

/-- The record after the second pass. -/
def Info.record (info : Info) : Record :=
  [("aliases", info.aliases), ("document_count", info.count), ("ism_policy", info.policy),
    ("document_count2", info.count2),
    ("document_count_delta", .bool (!info.count2.pyEq info.count)),
    ("has_write_alias", .bool info.writeAlias)]

/-- What the helpers return for an index in one round of the first pass. -/
structure Collects (textOf : PyError → String) (cluster : Cluster) (index : String) (round : Nat)
    (info : Info) : Prop where
  aliases : getAliases index (cluster.aliases round) = .ok info.aliases
  policy : getIsmPolicy textOf index (cluster.policy round) = info.policy
  count : getIndexDocCount (cluster.count round) = .ok info.count

/-- What one round of the second pass adds. -/
structure Completes (cluster : Cluster) (round : Nat) (info : Info) : Prop where
  count2 : getIndexDocCount (cluster.count2 round) = .ok info.count2
  writeAlias : hasWriteAlias info.aliases = .ok info.writeAlias

/-- An index is visited in a last round exactly when it is visited at all. -/
theorem lastRound_eq_none {index : String} {rounds : List (String × Nat)} :
    lastRound index rounds = none ↔ index ∉ rounds.map Prod.fst := by
  induction rounds with
  | nil => simp [lastRound]
  | cons item rounds ih =>
    -- The first round is one of the index, or it is passed over.
    by_cases same : item.1 = index
    · simp [lastRound, same]
    · simp only [lastRound, if_neg same, Option.or_none, ih, List.map_cons, List.mem_cons, not_or]
      exact (and_iff_right (Ne.symm same)).symm

/-- The first pass keeps one record for each index. -/
theorem nodup_firstPass {textOf : PyError → String} {cluster : Cluster}
    {rounds : List (String × Nat)} {indexData result : Dict String Record}
    (done : firstPass textOf cluster indexData rounds = .ok result)
    (distinct : (Dict.keys indexData).Nodup) : (Dict.keys result).Nodup := by
  -- Writing a record under a key that is there replaces the old one.
  induction rounds generalizing indexData with
  | nil =>
    cases done
    exact distinct
  | cons item rounds ih =>
    obtain ⟨info, _, rest⟩ := bind_eq_ok.mp done
    exact ih rest (Dict.nodup_set distinct _ _)

/-- After the first pass an index has what its last round has collected. -/
theorem firstPass_get? {textOf : PyError → String} {cluster : Cluster}
    {rounds : List (String × Nat)} {indexData result : Dict String Record}
    (done : firstPass textOf cluster indexData rounds = .ok result) (index : String) :
    match lastRound index rounds with
    | some round => ∃ info, Collects textOf cluster index round info ∧
        Dict.get? result index = some info.collected
    | none => Dict.get? result index = Dict.get? indexData index := by
  -- The dictionary grows along the loop, so it stays quantified over.
  induction rounds generalizing indexData with
  | nil =>
    cases done
    rfl
  | cons item rounds ih =>
    obtain ⟨other, round⟩ := item
    obtain ⟨record, collected, rest⟩ := bind_eq_ok.mp done
    have later := ih rest
    cases last : lastRound index rounds with
    -- A later round replaces whatever this one has collected.
    | some final => simpa [lastRound, last] using later
    | none =>
      rw [last] at later
      by_cases same : other = index
      · obtain ⟨aliases, aliasesOk, continued⟩ := bind_eq_ok.mp collected
        obtain ⟨count, countOk, value⟩ := bind_eq_ok.mp continued
        cases value
        simp only [lastRound, last, same, if_true, Option.none_or]
        refine ⟨⟨aliases, _, count, .null, false⟩, ⟨same ▸ aliasesOk, rfl, countOk⟩, ?_⟩
        rw [later, same, Dict.get?_set_self]
        rfl
      · simp only [lastRound, last, same, if_false, Option.or_none]
        rw [later, Dict.get?_set_of_ne _ _ (Ne.symm same)]

/-- The first pass gets through when every round collects something. -/
theorem firstPass_succeeds {textOf : PyError → String} {cluster : Cluster}
    {rounds : List (String × Nat)}
    (fine : ∀ item ∈ rounds, ∃ info, Collects textOf cluster item.1 item.2 info)
    (indexData : Dict String Record) :
    ∃ result, firstPass textOf cluster indexData rounds = .ok result := by
  -- The aliases, the policy and the count of each round are recorded one after the other.
  induction rounds generalizing indexData with
  | nil => exact ⟨indexData, rfl⟩
  | cons item rounds ih =>
    obtain ⟨info, collects⟩ := fine item List.mem_cons_self
    obtain ⟨result, rest⟩ :=
      ih (fun other member => fine other (List.mem_cons_of_mem _ member)) _
    refine ⟨result, bind_eq_ok.mpr ⟨info.collected, ?_, rest⟩⟩
    simp [collectIndexInfo, collects.aliases, collects.count, collects.policy, Info.collected,
      bind, Except.bind, pure, Except.pure]

/-- A record of an index between the first pass and the end of the second one. -/
inductive Started (info : Info) : Record → Prop where
  | collected : Started info info.collected
  | completed (count2 : Json) (writeAlias : Bool) :
      Started info { info with count2 := count2, writeAlias := writeAlias }.record

/-- A round of the second pass counts again and looks through the aliases, whatever it finds. -/
theorem completeRecord_eq_ok {info : Info} {record result : Record} (started : Started info record)
    (reply : Reply) : completeRecord record reply = .ok result ↔
      ∃ count2 writeAlias, getIndexDocCount reply = .ok count2 ∧
        hasWriteAlias info.aliases = .ok writeAlias ∧
        { info with count2 := count2, writeAlias := writeAlias }.record = result := by
  -- The fields that the first pass has stored are there in both forms of the record.
  cases started <;>
    simp [completeRecord, bind_eq_ok, field, Json.item, Info.collected, Info.record, Dict.set,
      Dict.get?_cons, pure, Except.pure]

/-- One round of the second pass, for the index of the round or for another one. -/
theorem secondPass_cons_eq_ok {cluster : Cluster} {index : String} {round : Nat}
    {rounds : List (String × Nat)} {indexData result : Dict String Record} :
    secondPass cluster indexData ((index, round) :: rounds) = .ok result ↔
      ∃ record completed, Dict.get? indexData index = some record ∧
        completeRecord record (cluster.count2 round) = .ok completed ∧
        secondPass cluster (indexData.set index completed) rounds = .ok result := by
  -- An index without a record raises, which the first pass rules out.
  cases found : Dict.get? indexData index <;> simp [secondPass, found, bind_eq_ok]

/-- The second pass keeps one record for each index, and adds none. -/
theorem keys_secondPass {cluster : Cluster} {rounds : List (String × Nat)}
    {indexData result : Dict String Record}
    (done : secondPass cluster indexData rounds = .ok result)
    (distinct : (Dict.keys indexData).Nodup) : (Dict.keys result).Nodup ∧
      ∀ index, index ∈ Dict.keys result ↔ index ∈ Dict.keys indexData := by
  induction rounds generalizing indexData with
  | nil =>
    cases done
    exact ⟨distinct, fun index => Iff.rfl⟩
  | cons item rounds ih =>
    obtain ⟨record, completed, found, _, rest⟩ := secondPass_cons_eq_ok.mp done
    obtain ⟨nodup, keys⟩ := ih rest (Dict.nodup_set distinct _ _)
    refine ⟨nodup, fun index => ?_⟩
    rw [keys, Dict.mem_keys_set, or_iff_right_iff_imp]
    -- The assigned key is the one whose record was read.
    intro same
    exact same ▸ Dict.mem_keys.mpr ⟨record, found⟩

/-- After the second pass an index has what its last round has completed. -/
theorem secondPass_get? {cluster : Cluster} {index : String} {info : Info} {record : Record}
    (started : Started info record) {rounds : List (String × Nat)}
    {indexData result : Dict String Record}
    (done : secondPass cluster indexData rounds = .ok result)
    (found : Dict.get? indexData index = some record) :
    match lastRound index rounds with
    | some round => ∃ count2 writeAlias,
        Completes cluster round { info with count2 := count2, writeAlias := writeAlias } ∧
        Dict.get? result index =
          some { info with count2 := count2, writeAlias := writeAlias }.record
    | none => Dict.get? result index = some record := by
  -- The record changes along the loop, but it stays a started one.
  induction rounds generalizing indexData record with
  | nil =>
    cases done
    exact found
  | cons item rounds ih =>
    obtain ⟨other, round⟩ := item
    obtain ⟨old, completed, read, complete, rest⟩ := secondPass_cons_eq_ok.mp done
    by_cases same : other = index
    · subst same
      cases read.symm.trans found
      obtain ⟨count2, writeAlias, counted, looked, new⟩ :=
        (completeRecord_eq_ok started _).mp complete
      subst new
      have later := ih (.completed count2 writeAlias) rest (Dict.get?_set_self _ _ _)
      cases last : lastRound other rounds with
      | some final => simpa [lastRound, last] using later
      | none =>
        rw [last] at later
        simp only [lastRound, last, if_true, Option.none_or]
        exact ⟨count2, writeAlias, ⟨counted, looked⟩, later⟩
    · have later := ih started rest
        ((Dict.get?_set_of_ne _ _ (Ne.symm same)).trans found)
      simpa [lastRound, same] using later

/-- The second pass gets through when every round counts and the aliases can be looked through. -/
theorem secondPass_succeeds (cluster : Cluster) (indexData : Dict String Record)
    (rounds : List (String × Nat))
    (fine : ∀ item ∈ rounds, (∃ count2, getIndexDocCount (cluster.count2 item.2) = .ok count2) ∧
      ∃ info record, Dict.get? indexData item.1 = some record ∧ Started info record ∧
        ∃ writeAlias, hasWriteAlias info.aliases = .ok writeAlias) :
    ∃ result, secondPass cluster indexData rounds = .ok result := by
  induction rounds generalizing indexData with
  | nil => exact ⟨indexData, rfl⟩
  | cons item rounds ih =>
    obtain ⟨index, round⟩ := item
    obtain ⟨⟨count2, counted⟩, info, record, found, started, writeAlias, looked⟩ :=
      fine (index, round) List.mem_cons_self
    have completed := (completeRecord_eq_ok started (cluster.count2 round)).mpr
      ⟨count2, writeAlias, counted, looked, rfl⟩
    obtain ⟨result, rest⟩ := @ih (indexData.set index _) (by
      intro other member
      obtain ⟨counts, info', record', found', started', looks⟩ :=
        fine other (List.mem_cons_of_mem _ member)
      refine ⟨counts, ?_⟩
      by_cases same : other.1 = index
      · -- The completed record still has the aliases of the first pass.
        rw [same, Dict.get?_set_self]
        exact ⟨info, _, rfl, .completed count2 writeAlias, writeAlias, looked⟩
      · rw [Dict.get?_set_of_ne _ _ same]
        exact ⟨info', record', found', started', looks⟩)
    exact ⟨result, secondPass_cons_eq_ok.mpr ⟨record, _, found, completed, rest⟩⟩

/-- What a finished run knows of an index: the answers of the last round that visits it. -/
structure Known (textOf : PyError → String) (cluster : Cluster) (index : String) (round : Nat)
    (info : Info) : Prop where
  collects : Collects textOf cluster index round info
  completes : Completes cluster round info

/-- The data behind the file of a finished run: one record for each matching index. -/
structure Finished (textOf : PyError → String) (cluster : Cluster) (matching : List String)
    (indexData : Dict String Record) : Prop where
  distinct : (Dict.keys indexData).Nodup
  keys : ∀ index, index ∈ Dict.keys indexData ↔ index ∈ matching
  records : ∀ index round, lastRound index matching.zipIdx = some round →
    ∃ info, Known textOf cluster index round info ∧ Dict.get? indexData index = some info.record

/-- A run that finishes writes the records of the matching indices. -/
theorem collect_eq_ok {textOf : PyError → String} {patterns : List String} {header : Header}
    {cluster : Cluster} {file : Json}
    (done : collect textOf patterns header cluster = .ok file) :
    ∃ matching indexData, getMatchingIndices cluster.indices patterns = .ok matching ∧
      Finished textOf cluster matching indexData ∧ file = outputData header indexData := by
  obtain ⟨matching, listed, afterListing⟩ := bind_eq_ok.mp done
  obtain ⟨first, firstDone, afterFirst⟩ := bind_eq_ok.mp afterListing
  obtain ⟨second, secondDone, written⟩ := bind_eq_ok.mp afterFirst
  cases written
  refine ⟨matching, second, listed, ?_, rfl⟩
  -- The second pass completes the records that the first one has left.
  have firstDistinct := nodup_firstPass firstDone (by simp)
  obtain ⟨distinct, keys⟩ := keys_secondPass secondDone firstDistinct
  refine ⟨distinct, fun index => ?_, fun index round last => ?_⟩
  · -- A record is there exactly when the index is visited in some round.
    rw [keys, Dict.mem_keys]
    -- The record is that of the last round, completed by its second count.
    have collected := firstPass_get? firstDone index
    have visited : lastRound index matching.zipIdx = none ↔ index ∉ matching := by
      rw [lastRound_eq_none, List.zipIdx_map_fst]
    cases last : lastRound index matching.zipIdx with
    | none =>
      rw [last] at collected
      simp [collected, visited.mp last]
    | some round =>
      rw [last] at collected
      obtain ⟨info, _, found⟩ := collected
      have member : index ∈ matching := by
        by_contra absent
        rw [visited.mpr absent] at last
        cases last
      exact ⟨fun _ => member, fun _ => ⟨_, found⟩⟩
  · have collected := firstPass_get? firstDone index
    rw [last] at collected
    obtain ⟨info, collects, found⟩ := collected
    have completed := secondPass_get? .collected secondDone found
    rw [last] at completed
    obtain ⟨count2, writeAlias, completes, there⟩ := completed
    exact ⟨{ info with count2 := count2, writeAlias := writeAlias },
      ⟨⟨collects.aliases, collects.policy, collects.count⟩, completes⟩, there⟩

/-- A run finishes when no round of it raises anything. -/
theorem collect_succeeds (textOf : PyError → String) {patterns matching : List String}
    {cluster : Cluster} (header : Header)
    (listed : getMatchingIndices cluster.indices patterns = .ok matching)
    (collects : ∀ item ∈ matching.zipIdx, ∃ info, Collects textOf cluster item.1 item.2 info)
    (counts : ∀ item ∈ matching.zipIdx,
      ∃ count2, getIndexDocCount (cluster.count2 item.2) = .ok count2)
    (looks : ∀ index round, lastRound index matching.zipIdx = some round → ∀ aliases,
      getAliases index (cluster.aliases round) = .ok aliases →
        ∃ writeAlias, hasWriteAlias aliases = .ok writeAlias) :
    ∃ file, collect textOf patterns header cluster = .ok file := by
  obtain ⟨first, firstDone⟩ := firstPass_succeeds collects []
  -- The second pass looks through the aliases that the last rounds have left.
  obtain ⟨second, secondDone⟩ := secondPass_succeeds cluster first matching.zipIdx (by
      intro item member
      refine ⟨counts item member, ?_⟩
      have collected := firstPass_get? firstDone item.1
      cases last : lastRound item.1 matching.zipIdx with
      | none => exact absurd (List.mem_map_of_mem member) (lastRound_eq_none.mp last)
      | some round =>
        rw [last] at collected
        obtain ⟨info, there, found⟩ := collected
        exact ⟨info, _, found, .collected, looks _ _ last _ there.aliases⟩)
  exact ⟨_, bind_eq_ok.mpr ⟨matching, listed, bind_eq_ok.mpr ⟨first, firstDone,
    bind_eq_ok.mpr ⟨second, secondDone, rfl⟩⟩⟩⟩

/-- The records as the file lists them. -/
def fileIndices (indexData : Dict String Record) : Dict String Json :=
  (sorted indexData).map fun item => (item.1, .obj item.2)

/-- What a reader of the file finds under `indices`. -/
theorem get_outputData (header : Header) (indexData : Dict String Record) (default : Json) :
    (outputData header indexData).get "indices" default = .ok (.obj (fileIndices indexData)) := by
  simp [outputData, Json.get, Dict.get?_cons, fileIndices]

/-- Sorting the records keeps all of them. -/
theorem perm_sorted (indexData : Dict String Record) : (sorted indexData).Perm indexData :=
  List.mergeSort_perm _ _

/-- The file lists the records under the same keys, each once. -/
theorem keys_fileIndices_perm (indexData : Dict String Record) :
    (Dict.keys (fileIndices indexData)).Perm (Dict.keys indexData) := by
  -- Sorting moves the records and changes no key.
  have same : Dict.keys (fileIndices indexData) = Dict.keys (sorted indexData) := by
    simp [Dict.keys, fileIndices]
  rw [same]
  exact (perm_sorted indexData).map Prod.fst

/-- Sorting the records does not change what is found. -/
theorem get?_fileIndices {indexData : Dict String Record} (distinct : (Dict.keys indexData).Nodup)
    (index : String) :
    Dict.get? (fileIndices indexData) index = (Dict.get? indexData index).map Json.obj := by
  -- Keys that occur once are found wherever they stand.
  have sortedDistinct : (Dict.keys (sorted indexData)).Nodup :=
    ((perm_sorted indexData).map Prod.fst).symm.nodup distinct
  rw [fileIndices, Dict.get?_map_values, Dict.get?_perm (perm_sorted indexData) sortedDistinct]

/-- What a run knows of an index from one round is determined by the answers. -/
theorem Known.unique {textOf : PyError → String} {cluster : Cluster} {index : String} {round : Nat}
    {info other : Info} (known : Known textOf cluster index round info)
    (knownToo : Known textOf cluster index round other) : info = other := by
  -- Each field is the answer of the cluster in this round.
  have aliases := Except.ok.inj (known.collects.aliases.symm.trans knownToo.collects.aliases)
  have policy := known.collects.policy.symm.trans knownToo.collects.policy
  have count := Except.ok.inj (known.collects.count.symm.trans knownToo.collects.count)
  have count2 := Except.ok.inj (known.completes.count2.symm.trans knownToo.completes.count2)
  have writeAlias := Except.ok.inj (known.completes.writeAlias.symm.trans
    (aliases ▸ knownToo.completes.writeAlias))
  cases info
  cases other
  simp_all

/-- The file lists an index with what is known of it from the last round that visits it. -/
theorem get?_fileIndices_eq_some {textOf : PyError → String} {matching : List String}
    {cluster : Cluster} {indexData : Dict String Record}
    (finished : Finished textOf cluster matching indexData) {index : String} {data : Json} :
    Dict.get? (fileIndices indexData) index = some data ↔ ∃ round info,
      lastRound index matching.zipIdx = some round ∧ Known textOf cluster index round info ∧
        .obj info.record = data := by
  rw [get?_fileIndices finished.distinct, Option.map_eq_some_iff]
  constructor
  · intro found
    obtain ⟨record, stored, same⟩ := found
    -- A stored index is a matching one, so some round visits it.
    have visited : lastRound index matching.zipIdx ≠ none := by
      rw [ne_eq, lastRound_eq_none, List.zipIdx_map_fst, not_not, ← finished.keys]
      exact Dict.mem_keys.mpr ⟨record, stored⟩
    obtain ⟨round, last⟩ := Option.ne_none_iff_exists'.mp visited
    obtain ⟨info, known, there⟩ := finished.records index round last
    cases there.symm.trans stored
    exact ⟨round, info, last, known, same⟩
  · intro visited
    obtain ⟨round, info, last, known, same⟩ := visited
    obtain ⟨stored, knownToo, there⟩ := finished.records index round last
    exact ⟨info.record, known.unique knownToo ▸ there, same⟩

end AivenExamples.MigrationValidation
