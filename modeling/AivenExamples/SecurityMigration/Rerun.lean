import AivenExamples.SecurityMigration.ManagerSafety

/-! What a second run against the same source makes of an entry that a first run has stored. -/

namespace AivenExamples.SecurityMigration

/-- When the change test of a section takes two values under one key for the same. -/
def SameUnder (section_ : String) (first second : Option Json) : Prop :=
  if section_ = "rolesmapping" then
    (first.getD .null).truthy ∨ (second.getD .null).truthy →
      (first.getD .null).pyEq (second.getD .null)
  else Option.Rel (fun left right => left.pyEq right = true) first second

/-- The values stored in an entry are well formed. -/
def ValuesWellFormed (entry : Entry) : Prop :=
  ∀ key value, Dict.get? entry key = some value → value.WellFormed

/-- The filtered source entry assigned into the filtered Aiven entry changes some key. -/
def MergeChanges (section_ : String) (values aivenEntry : Entry) : Prop :=
  ¬ ∀ key, SameUnder section_
    (Dict.get? (Dict.update (inplaceFilterNonMigratableFields aivenEntry)
      (inplaceFilterNonMigratableFields values)) key)
    (Dict.get? (inplaceFilterNonMigratableFields aivenEntry) key)

/-- The entry that a first run leaves in Aiven. -/
def storedEntry (section_ : String) (values aivenEntry : Entry) : Entry :=
  if sectionChanged section_ (preparedValues section_ values)
      (inplaceFilterNonMigratableFields aivenEntry) then
    Dict.update (inplaceFilterNonMigratableFields aivenEntry) (preparedValues section_ values)
  else aivenEntry

/-- Equal values under every key of the source leave the Aiven entry no key of its own. -/
def CoveredWhenEqual (section_ : String) (values aivenEntry : Entry) : Prop :=
  (∀ key ∈ Dict.keys (inplaceFilterNonMigratableFields values),
    SameUnder section_ (Dict.get? (inplaceFilterNonMigratableFields values) key)
      (Dict.get? (inplaceFilterNonMigratableFields aivenEntry) key)) →
  ∀ key, key ∉ Dict.keys (inplaceFilterNonMigratableFields values) →
    SameUnder section_ none (Dict.get? (inplaceFilterNonMigratableFields aivenEntry) key)

/-- Every key of the Aiven entry that counts in the section is written by the source entry. -/
def Covered (section_ : String) (values aivenEntry : Entry) : Prop :=
  ∀ key, key ∉ Dict.keys (preparedValues section_ values) →
    SameUnder section_ none (Dict.get? (inplaceFilterNonMigratableFields aivenEntry) key)

/-- The two entries have the same value under every key. -/
def EntriesAgree (section_ : String) (values aivenEntry : Entry) : Prop :=
  ∀ key, SameUnder section_ (Dict.get? (inplaceFilterNonMigratableFields values) key)
    (Dict.get? (inplaceFilterNonMigratableFields aivenEntry) key)

/-- A round for a stored entry succeeds and finds nothing to change. -/
def Quiet (section_ : String) (values stored : Entry) : Prop :=
  Updatable section_ values stored ∧
    sectionChanged section_ (preparedValues section_ values)
      (inplaceFilterNonMigratableFields stored) = false

/-- The membership test on the users of a source mapping does not raise. -/
def UsersReadable (values : Entry) : Prop :=
  ∃ held, (sourceUsers values).contains aivenSecurityManager = .ok held

/-- Testing the same users twice only needs the test not to raise. -/
theorem readable_iff (users : Json) :
    (users.contains aivenSecurityManager = .ok false ∨
        users.contains aivenSecurityManager = .ok true ∧
          users.contains aivenSecurityManager = .ok true) ↔
      ∃ held, users.contains aivenSecurityManager = .ok held := by
  -- A test that does not raise says true or false.
  rw [and_self]
  constructor
  · intro either
    rcases either with absent | held
    · exact ⟨_, absent⟩
    · exact ⟨_, held⟩
  · intro tested
    obtain ⟨held, read⟩ := tested
    cases held
    · exact Or.inl read
    · exact Or.inr read

/-- A value counts as equal to itself. -/
theorem sameUnder_refl (section_ : String) {value : Option Json}
    (wellFormed : ∀ stored, value = some stored → stored.WellFormed) :
    SameUnder section_ value value := by
  unfold SameUnder
  -- Mappings take absent values for equal, and other sections have nothing to compare.
  cases value with
  | none => split <;> simp [Json.truthy]
  | some value =>
    have same := Json.pyEq_refl value (wellFormed value rfl)
    split <;> simp [same]

/-- Nothing counts as equal to the value of an absent key. -/
theorem sameUnder_absent (section_ : String) {entry : Entry} {key : String}
    (missing : Dict.get? entry key = none) : SameUnder section_ none (Dict.get? entry key) := by
  rw [missing]
  exact sameUnder_refl section_ (by simp)

/-- The change test compares key by key. -/
theorem sectionChanged_eq_false_iff {section_ : String} {osValues aivenValues : Entry}
    (osDistinct : (Dict.keys osValues).Nodup) (aivenDistinct : (Dict.keys aivenValues).Nodup) :
    sectionChanged section_ osValues aivenValues = false ↔
      ∀ key, SameUnder section_ (Dict.get? osValues key) (Dict.get? aivenValues key) := by
  unfold sectionChanged SameUnder
  by_cases mapping : section_ = "rolesmapping"
  · -- A key of neither mapping has no value that is true.
    simp only [mapping, if_true, mappingChanged, List.any_eq_false, List.mem_append]
    refine forall_congr' fun key => ?_
    by_cases known : key ∈ Dict.keys osValues ∨ key ∈ Dict.keys aivenValues
    · simp [known]
    · have absent := not_or.mp known
      simp [known, Dict.get?_eq_none.mpr absent.1, Dict.get?_eq_none.mpr absent.2, Json.truthy]
  · simp only [if_neg mapping, Bool.not_eq_false', Json.pyEq_obj_iff osDistinct aivenDistinct]

/-- The default for missing users makes no difference to the change test. -/
theorem sameUnder_prepared (section_ : String) (values : Entry) (key : String)
    (other : Option Json) :
    SameUnder section_ (Dict.get? (preparedValues section_ values) key) other ↔
      SameUnder section_ (Dict.get? (inplaceFilterNonMigratableFields values) key) other := by
  unfold preparedValues
  split
  · next mapping =>
    by_cases users : key = "users"
    · -- Missing users and an empty list are both false, and so is equality with a true value.
      subst users
      rw [withUsers_users]
      unfold sourceUsers
      cases Dict.get? (inplaceFilterNonMigratableFields values) "users" with
      | some users => rfl
      | none =>
        cases other with
        | none => simp [SameUnder, mapping, Json.truthy]
        | some value =>
          cases value with
          | arr items => cases items <;> simp [SameUnder, mapping, Json.truthy, Json.pyEq,
              Json.pyEqItems]
          | _ => simp [SameUnder, mapping, Json.truthy, Json.pyEq]
    · rw [withUsers_get?_of_ne _ users]
  · rfl

/-- A flag that is not set leaves no trace after the filter. -/
theorem filter_get?_unset {d : Entry} {flag : String} (special : IsFlag flag)
    (unset : flagSet d flag = false) :
    Dict.get? (inplaceFilterNonMigratableFields d) flag = none := by
  -- The two defaults for a missing flag are both false.
  have falsy : ((Dict.get? d flag).getD .null).truthy = false := by
    unfold flagSet at unset
    cases found : Dict.get? d flag with
    | none => rfl
    | some value => simpa [found] using unset
  rw [filter_get?]
  rcases special with rfl | rfl | rfl <;> simp [falsy]

/-- A set `hidden` flag is what the filter turns into `False`. -/
theorem filter_get?_hidden (d : Entry) :
    Dict.get? (inplaceFilterNonMigratableFields d) "hidden" =
      if flagSet d "hidden" then some (.bool false) else none := by
  -- A flag that is not set is dropped, and one that is set becomes `False`.
  rw [filter_get?]
  unfold flagSet
  cases Dict.get? d "hidden" <;> simp [Json.truthy]

/-- The filter keeps the stored values well formed. -/
theorem filter_valuesWellFormed {d : Entry} (wellFormed : ValuesWellFormed d) :
    ValuesWellFormed (inplaceFilterNonMigratableFields d) := by
  intro key value found
  -- A flag is at most a boolean after the filter, and other values are untouched.
  by_cases flag : IsFlag key
  · rcases filter_flag_false d flag with gone | cleared
    · simp [gone] at found
    · obtain rfl : Json.bool false = value := by simpa [cleared] using found
      trivial
  · exact wellFormed key value (by rwa [filter_get?_of_not_flag d flag] at found)

/-- Filtering twice loses the flags altogether and nothing else. -/
theorem filter_filter_get? (d : Entry) (key : String) :
    Dict.get? (inplaceFilterNonMigratableFields (inplaceFilterNonMigratableFields d)) key =
      if IsFlag key then none else Dict.get? d key := by
  -- After the first pass no flag is set, so that the second one drops it.
  by_cases flag : IsFlag key
  · rw [if_pos flag]
    apply filter_get?_unset flag
    rcases filter_flag_false d flag with gone | cleared
    · simp [flagSet, gone, Json.truthy]
    · simp [flagSet, cleared, Json.truthy]
  · rw [if_neg flag, filter_get?_of_not_flag _ flag, filter_get?_of_not_flag _ flag]

/-- The prepared source values have distinct keys. -/
theorem preparedValues_nodup (section_ : String) {values : Entry}
    (distinct : (Dict.keys values).Nodup) : (Dict.keys (preparedValues section_ values)).Nodup := by
  -- Only mappings get their users written anew.
  unfold preparedValues
  split
  · exact withUsers_nodup (filter_nodup distinct)
  · exact filter_nodup distinct

/-- Flags of the prepared values are those that the filter leaves. -/
theorem preparedValues_get?_flag (section_ : String) (values : Entry) {key : String}
    (flag : IsFlag key) : Dict.get? (preparedValues section_ values) key =
      Dict.get? (inplaceFilterNonMigratableFields values) key := by
  -- The users are no flag.
  have other : key ≠ "users" := by rcases flag with rfl | rfl | rfl <;> decide
  unfold preparedValues
  split
  · exact withUsers_get?_of_ne _ other
  · rfl

/-- The prepared source values are well formed. -/
theorem preparedValues_wellFormed (section_ : String) {values : Entry}
    (wellFormed : ValuesWellFormed values) :
    ValuesWellFormed (preparedValues section_ values) := by
  have filtered := filter_valuesWellFormed wellFormed
  unfold preparedValues
  -- Only the default for users is new, and it is the empty list.
  split
  · intro key value found
    by_cases users : key = "users"
    · subst users
      rw [withUsers_users, Option.some.injEq] at found
      subst found
      unfold sourceUsers
      cases present : Dict.get? (inplaceFilterNonMigratableFields values) "users" with
      | none => trivial
      | some users => exact filtered "users" users present
    · exact filtered key value (by rwa [withUsers_get?_of_ne _ users] at found)
  · exact filtered

/-- Outside mappings a set `hidden` flag of the source shows against an entry without flags. -/
theorem hidden_of_sameUnder {section_ : String} {values : Entry}
    (other : section_ ≠ "rolesmapping")
    (same : SameUnder section_
      (Dict.get? (inplaceFilterNonMigratableFields values) "hidden") none) :
    flagSet values "hidden" = false := by
  rw [filter_get?_hidden] at same
  -- A set flag leaves `False` behind, which is not the same as nothing.
  by_contra set
  simp only [Bool.not_eq_false] at set
  simp only [SameUnder, if_neg other, set, if_true] at same
  cases same

/-- Without `reserved`, only a set `hidden` flag can tell the source from an entry without flags. -/
theorem sameUnder_flag {section_ : String} {values : Entry} {key : String} (flag : IsFlag key)
    (unreserved : flagSet values "reserved" = false)
    (unhidden : section_ ≠ "rolesmapping" → flagSet values "hidden" = false) :
    SameUnder section_ (Dict.get? (inplaceFilterNonMigratableFields values) key) none := by
  -- Of the three flags `static` is always dropped and `reserved` is not set.
  rcases flag with rfl | rfl | rfl
  · rw [filter_get?, if_pos rfl]
    exact sameUnder_refl section_ (by simp)
  · rw [filter_get?_hidden]
    by_cases mapping : section_ = "rolesmapping"
    · -- Mappings take `False` for absent.
      cases flagSet values "hidden" <;> simp [SameUnder, mapping, Json.truthy]
    · simp only [unhidden mapping, Bool.false_eq_true, if_false]
      exact sameUnder_refl section_ (by simp)
  · rw [filter_get?_unset (by decide) unreserved]
    exact sameUnder_refl section_ (by simp)

/-- After the filter no flag of an entry is set. -/
theorem flagSet_filter (entry : Entry) {flag : String} (special : IsFlag flag) :
    flagSet (inplaceFilterNonMigratableFields entry) flag = false := by
  -- Neither a missing flag nor `False` is set.
  rcases filter_flag_false entry special with gone | cleared
  · simp [flagSet, gone, Json.truthy]
  · simp [flagSet, cleared, Json.truthy]

/-- No flag of a written entry is set. -/
theorem flagSet_merged (section_ : String) {values : Entry} (aivenEntry : Entry)
    (distinct : (Dict.keys values).Nodup) {flag : String} (special : IsFlag flag) :
    flagSet (Dict.update (inplaceFilterNonMigratableFields aivenEntry)
      (preparedValues section_ values)) flag = false := by
  -- Both sides of the merge were filtered.
  have source := flagSet_filter values special
  have target := flagSet_filter aivenEntry special
  unfold flagSet at source target ⊢
  rw [Dict.get?_update _ (preparedValues_nodup section_ distinct),
    preparedValues_get?_flag section_ values special]
  cases found : Dict.get? (inplaceFilterNonMigratableFields values) flag with
  | none => simpa using target
  | some value => simpa [found] using source

section Pair

variable {section_ : String} {values aivenEntry : Entry}

/-- What is written keeps no flag, and otherwise reads the source first. -/
theorem filter_merged_get? (distinct : (Dict.keys values).Nodup) (key : String) :
    Dict.get? (inplaceFilterNonMigratableFields (Dict.update
        (inplaceFilterNonMigratableFields aivenEntry) (preparedValues section_ values))) key =
      if IsFlag key then none
      else (Dict.get? (preparedValues section_ values) key).or (Dict.get? aivenEntry key) := by
  have merged := fun key => Dict.get?_update (inplaceFilterNonMigratableFields aivenEntry)
    (preparedValues_nodup section_ distinct) key
  by_cases flag : IsFlag key
  · -- Both sides of the merge have lost the flag or hold `False` for it.
    rw [if_pos flag]
    apply filter_get?_unset flag
    unfold flagSet
    rw [merged, preparedValues_get?_flag section_ values flag]
    rcases filter_flag_false values flag with gone | cleared
    · rcases filter_flag_false aivenEntry flag with missing | unset
      · simp [gone, missing, Json.truthy]
      · simp [gone, unset, Json.truthy]
    · simp [cleared, Json.truthy]
  · rw [if_neg flag, filter_get?_of_not_flag _ flag, merged, filter_get?_of_not_flag _ flag]

/-- An Aiven entry without set flags has lost all its flags after the filter. -/
theorem filter_get?_unprotected
    (unprotected : ∀ flag, IsFlag flag → flagSet aivenEntry flag = false) (key : String) :
    Dict.get? (inplaceFilterNonMigratableFields aivenEntry) key =
      if IsFlag key then none else Dict.get? aivenEntry key := by
  -- Flags that are not set are dropped, and other keys are kept.
  by_cases flag : IsFlag key
  · rw [if_pos flag, filter_get?_unset flag (unprotected key flag)]
  · rw [if_neg flag, filter_get?_of_not_flag _ flag]

/-- After a merge the second round finds no change exactly when the source covers the entry. -/
theorem merged_unchanged_iff (sourceDistinct : (Dict.keys values).Nodup)
    (aivenDistinct : (Dict.keys aivenEntry).Nodup) (wellFormed : ValuesWellFormed values)
    (unreserved : flagSet values "reserved" = false)
    (unprotected : ∀ flag, IsFlag flag → flagSet aivenEntry flag = false) :
    sectionChanged section_ (preparedValues section_ values)
        (inplaceFilterNonMigratableFields (Dict.update
          (inplaceFilterNonMigratableFields aivenEntry) (preparedValues section_ values))) =
        false ↔
      (∀ key, key ∉ Dict.keys (preparedValues section_ values) →
        SameUnder section_ none (Dict.get? (inplaceFilterNonMigratableFields aivenEntry) key)) ∧
      (section_ ≠ "rolesmapping" → flagSet values "hidden" = false) := by
  -- The stored entry is the merge without its flags, compared key by key.
  rw [sectionChanged_eq_false_iff (preparedValues_nodup section_ sourceDistinct)
    (filter_nodup (Dict.nodup_update (filter_nodup aivenDistinct) _))]
  simp only [filter_merged_get? sourceDistinct, filter_get?_unprotected unprotected]
  constructor
  · intro same
    refine ⟨fun key absent => ?_, fun other => ?_⟩
    · have here := same key
      rwa [Dict.get?_eq_none.mpr absent, Option.none_or] at here
    · -- The stored entry has no `hidden` key, while the source brings one when it is set.
      have here := same "hidden"
      rw [preparedValues_get?_flag section_ values (by decide),
        if_pos (by decide : IsFlag "hidden")] at here
      exact hidden_of_sameUnder other here
  -- Under source keys the merge has the source value, and the others are covered.
  · intro conditions key
    obtain ⟨covered, hidden⟩ := conditions
    by_cases flag : IsFlag key
    · rw [if_pos flag, preparedValues_get?_flag section_ values flag]
      exact sameUnder_flag flag unreserved hidden
    · rw [if_neg flag]
      cases found : Dict.get? (preparedValues section_ values) key with
      | some value =>
        rw [Option.some_or]
        refine sameUnder_refl section_ fun stored same => ?_
        cases same
        exact preparedValues_wellFormed section_ wellFormed key value found
      | none =>
        have here := covered key (Dict.get?_eq_none.mp found)
        rwa [if_neg flag] at here

/-- The change test compares the two filtered entries. -/
theorem unchanged_iff (section_ : String) (sourceDistinct : (Dict.keys values).Nodup)
    (aivenDistinct : (Dict.keys aivenEntry).Nodup) :
    sectionChanged section_ (preparedValues section_ values)
        (inplaceFilterNonMigratableFields aivenEntry) = false ↔
      EntriesAgree section_ values aivenEntry := by
  -- The default for users does not count in the comparison.
  rw [sectionChanged_eq_false_iff (preparedValues_nodup section_ sourceDistinct)
    (filter_nodup aivenDistinct)]
  exact forall_congr' fun key => sameUnder_prepared section_ values key _

/-- Merging changes nothing exactly when the Aiven entry has the value of every source key. -/
theorem not_mergeChanges_iff (section_ : String) (sourceDistinct : (Dict.keys values).Nodup)
    (wellFormed : ValuesWellFormed aivenEntry) :
    ¬ MergeChanges section_ values aivenEntry ↔
      ∀ key ∈ Dict.keys (inplaceFilterNonMigratableFields values),
        SameUnder section_ (Dict.get? (inplaceFilterNonMigratableFields values) key)
          (Dict.get? (inplaceFilterNonMigratableFields aivenEntry) key) := by
  simp only [MergeChanges, not_not, Dict.get?_update _ (filter_nodup sourceDistinct)]
  -- Keys that the source lacks keep the value that they had.
  refine forall_congr' fun key => ?_
  cases found : Dict.get? (inplaceFilterNonMigratableFields values) key with
  | some value => simp [Dict.mem_keys, found]
  | none =>
    have same := sameUnder_refl section_ (filter_valuesWellFormed wellFormed key)
    simp [Dict.mem_keys, found, same]

/-- The change test is exact when equal source keys leave nothing uncovered. -/
theorem changed_iff_mergeChanges_iff (sourceDistinct : (Dict.keys values).Nodup)
    (aivenDistinct : (Dict.keys aivenEntry).Nodup) (wellFormed : ValuesWellFormed aivenEntry) :
    (sectionChanged section_ (preparedValues section_ values)
        (inplaceFilterNonMigratableFields aivenEntry) = true ↔
      MergeChanges section_ values aivenEntry) ↔ CoveredWhenEqual section_ values aivenEntry := by
  -- Agreement under all keys is agreement under the source keys and under the others.
  have merge := not_mergeChanges_iff section_ sourceDistinct wellFormed
  have test := unchanged_iff section_ sourceDistinct aivenDistinct
  have split : EntriesAgree section_ values aivenEntry ↔
      ¬ MergeChanges section_ values aivenEntry ∧
        ∀ key, key ∉ Dict.keys (inplaceFilterNonMigratableFields values) →
          SameUnder section_ none
            (Dict.get? (inplaceFilterNonMigratableFields aivenEntry) key) := by
    rw [merge]
    constructor
    · intro agree
      refine ⟨fun key _ => agree key, fun key absent => ?_⟩
      simpa [Dict.get?_eq_none.mpr absent] using agree key
    · intro parts key
      obtain ⟨present, rest⟩ := parts
      by_cases known : key ∈ Dict.keys (inplaceFilterNonMigratableFields values)
      · exact present key known
      · simpa [Dict.get?_eq_none.mpr known] using rest key known
  rw [← Bool.not_eq_false, test, split, CoveredWhenEqual, ← merge]
  tauto

/-- Equal entries leave nothing uncovered. -/
theorem covered_of_agree (agree : EntriesAgree section_ values aivenEntry) :
    Covered section_ values aivenEntry := by
  -- A key that the source lacks agrees with nothing there.
  intro key absent
  have here := (sameUnder_prepared section_ values key _).mpr (agree key)
  rwa [Dict.get?_eq_none.mpr absent] at here

/-- An entry equal to an unprotected one does not set `hidden`, mappings apart. -/
theorem hidden_of_agree (unprotected : ∀ flag, IsFlag flag → flagSet aivenEntry flag = false)
    (other : section_ ≠ "rolesmapping") (agree : EntriesAgree section_ values aivenEntry) :
    flagSet values "hidden" = false := by
  -- The stored entry shows no `hidden`, and the two entries agree there.
  have here := agree "hidden"
  rw [filter_get?_unset (d := aivenEntry) (by decide) (unprotected _ (by decide))] at here
  exact hidden_of_sameUnder other here

/-- The written mapping can be read again when the source users can. -/
theorem managerKept_merged_iff (sourceDistinct : (Dict.keys values).Nodup) :
    ManagerKept values (Dict.update (inplaceFilterNonMigratableFields aivenEntry)
        (preparedValues "rolesmapping" values)) ↔ UsersReadable values := by
  -- Both membership tests read the source users after the merge.
  have users : Dict.get? (Dict.update (inplaceFilterNonMigratableFields aivenEntry)
      (preparedValues "rolesmapping" values)) "users" = some (sourceUsers values) := by
    rw [Dict.get?_update _ (preparedValues_nodup _ sourceDistinct), preparedValues, if_pos rfl,
      withUsers_users]
    simp [sourceUsers]
  simp only [ManagerKept, users, Option.some.injEq, exists_eq_left', UsersReadable, readable_iff]

/-- A merge that changes something leaves a nonempty entry. -/
theorem merged_ne_nil (sourceDistinct : (Dict.keys values).Nodup)
    (differ : ¬ EntriesAgree section_ values aivenEntry) :
    Dict.update (inplaceFilterNonMigratableFields aivenEntry) (preparedValues section_ values) ≠
      [] := by
  -- An empty result means that both entries were empty, and then they agree.
  intro empty
  refine differ fun key => ?_
  have merged := Dict.get?_update (inplaceFilterNonMigratableFields aivenEntry)
    (preparedValues_nodup section_ sourceDistinct) key
  rw [empty, Dict.get?_nil, eq_comm, Option.or_eq_none_iff] at merged
  rw [← sameUnder_prepared, merged.1, merged.2]
  exact sameUnder_refl section_ (by simp)

/-- A second round leaves an entry alone exactly under these conditions on the two entries. -/
theorem quiet_stored_iff (sourceDistinct : (Dict.keys values).Nodup)
    (aivenDistinct : (Dict.keys aivenEntry).Nodup) (wellFormed : ValuesWellFormed values)
    (unreserved : flagSet values "reserved" = false)
    (unprotected : ∀ flag, IsFlag flag → flagSet aivenEntry flag = false)
    (updatable : Updatable section_ values aivenEntry) :
    Quiet section_ values (storedEntry section_ values aivenEntry) ↔
      Covered section_ values aivenEntry ∧
        (section_ ≠ "rolesmapping" → flagSet values "hidden" = false) ∧
        (section_ = "rolesmapping" →
          EntriesAgree section_ values aivenEntry ∨ UsersReadable values) := by
  have test := unchanged_iff section_ sourceDistinct aivenDistinct
  unfold Quiet storedEntry
  by_cases agree : EntriesAgree section_ values aivenEntry
  · -- Nothing was written, so the second round repeats the first one.
    have unchanged := test.mpr agree
    simp only [unchanged, Bool.false_eq_true, if_false, and_true]
    exact iff_of_true updatable ⟨covered_of_agree agree,
      fun other => hidden_of_agree unprotected other agree, fun _ => Or.inl agree⟩
  -- Something was written, so the second round meets the merge.
  · have changed : sectionChanged section_ (preparedValues section_ values)
        (inplaceFilterNonMigratableFields aivenEntry) = true := by
      rw [← Bool.not_eq_false, test]
      exact agree
    simp only [changed, if_true, agree, false_or]
    rw [merged_unchanged_iff sourceDistinct aivenDistinct wellFormed unreserved unprotected,
      Updatable, and_iff_right (merged_ne_nil sourceDistinct agree)]
    have kept : (section_ = "rolesmapping" → ManagerKept values
          (Dict.update (inplaceFilterNonMigratableFields aivenEntry)
            (preparedValues section_ values))) ↔
        (section_ = "rolesmapping" → UsersReadable values) := by
      refine imp_congr_right ?_
      intro mapping
      subst mapping
      exact managerKept_merged_iff sourceDistinct
    rw [kept, Covered]
    tauto

/-- A second round leaves a created entry alone exactly under these conditions on the source. -/
theorem quiet_added_iff (distinct : (Dict.keys values).Nodup) (wellFormed : ValuesWellFormed values)
    (unreserved : flagSet values "reserved" = false) :
    Quiet section_ values (inplaceFilterNonMigratableFields values) ↔
      inplaceFilterNonMigratableFields values ≠ [] ∧
        (section_ ≠ "rolesmapping" → flagSet values "hidden" = false) ∧
        (section_ = "rolesmapping" → "users" ∈ Dict.keys values ∧ UsersReadable values) := by
  -- The created entry is the source entry without its flags.
  have unchanged : sectionChanged section_ (preparedValues section_ values)
        (inplaceFilterNonMigratableFields (inplaceFilterNonMigratableFields values)) = false ↔
      (section_ ≠ "rolesmapping" → flagSet values "hidden" = false) := by
    rw [sectionChanged_eq_false_iff (preparedValues_nodup section_ distinct)
      (filter_nodup (filter_nodup distinct))]
    simp only [sameUnder_prepared, filter_filter_get?]
    constructor
    · intro same other
      exact hidden_of_sameUnder other (by simpa [IsFlag] using same "hidden")
    · intro unhidden key
      by_cases flag : IsFlag key
      · rw [if_pos flag]
        exact sameUnder_flag flag unreserved unhidden
      · rw [if_neg flag, filter_get?_of_not_flag values flag]
        exact sameUnder_refl section_ (wellFormed key)
  have kept : ManagerKept values (inplaceFilterNonMigratableFields values) ↔
      "users" ∈ Dict.keys values ∧ UsersReadable values := by
    -- Both membership tests read the same users.
    simp only [ManagerKept, filter_users, Dict.mem_keys, UsersReadable, sourceUsers]
    cases Dict.get? values "users" with
    | none => simp
    | some users =>
      simp only [Option.some.injEq, exists_eq_left', Option.getD_some, readable_iff, exists_eq',
        true_and]
  rw [Quiet, Updatable, kept, unchanged]
  tauto

end Pair

end AivenExamples.SecurityMigration
