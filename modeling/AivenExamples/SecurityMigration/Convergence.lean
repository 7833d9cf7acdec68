import AivenExamples.SecurityMigration.Rerun

/-! When a second run finds everything that a first run has stored to be up to date. -/

namespace AivenExamples.SecurityMigration

/-- The Aiven section after a server has stored the operations of a run as they were sent. -/
structure StoredAsSent {section_ : String} {order : SetOrder} {source aiven : WellFormedSection}
    (run : SectionRun section_ order source aiven) (stored : WellFormedSection) : Prop where
  sent : ∀ action ∈ run.operations, ∀ name, action.path = "/" ++ name →
    Dict.get? stored.entries name = some action.value
  kept : ∀ name, (∀ action ∈ run.operations, action.path ≠ "/" ++ name) →
    Dict.get? stored.entries name = Dict.get? aiven.entries name

/-- A run against a section creates nothing, replaces nothing and counts this many entries. -/
def EmitsNothing (section_ : String) (order : SetOrder) (source aiven : WellFormedSection)
    (unchanged : Nat) : Prop :=
  (selected order source aiven (predefinedUntouchables section_)).add = [] ∧
    sectionAwareUpdater section_ aiven.entries
      (selected order source aiven (predefinedUntouchables section_)).update = .ok ([], unchanged)

/--
The run replaces what merging would change, and a second run finds everything unchanged.

Internal users are excepted from the second part, since the API hides the password hashes.
-/
def Converges {section_ : String} {order : SetOrder} {source aiven : WellFormedSection}
    (run : SectionRun section_ order source aiven) (stored : WellFormedSection) : Prop :=
  (∀ name values aivenEntry, (name, values) ∈ run.chosen.update →
    Dict.get? aiven.entries name = some aivenEntry →
      (run.Replaces name ↔ MergeChanges section_ values aivenEntry)) ∧
  (section_ ≠ "internalusers" → ∀ again : SetOrder,
    EmitsNothing section_ again source stored
      ((Dict.keys source.entries).filter
        (migratable source.entries aiven.entries (predefinedUntouchables section_))).length)

/-- What a source entry and its Aiven entry, if any, must satisfy to be settled by one run. -/
def Settled (section_ : String) (values : Entry) : Option Entry → Prop
  -- An entry that is there gets the merge, which has to look like the source afterwards.
  | some aivenEntry =>
    CoveredWhenEqual section_ values aivenEntry ∧
      (section_ ≠ "internalusers" →
        Covered section_ values aivenEntry ∧
        (section_ ≠ "rolesmapping" → flagSet values "hidden" = false) ∧
        (section_ = "rolesmapping" →
          EntriesAgree section_ values aivenEntry ∨ UsersReadable values))
  -- An entry that is missing is created from the filtered source entry.
  | none =>
    section_ ≠ "internalusers" →
      inplaceFilterNonMigratableFields values ≠ [] ∧
      (section_ ≠ "rolesmapping" → flagSet values "hidden" = false) ∧
      (section_ = "rolesmapping" → "users" ∈ Dict.keys values ∧ UsersReadable values)

/-- A quiet updater is one with a quiet round for every entry. -/
theorem sectionAwareUpdater_quiet_iff {section_ : String} {aiven entries : Section}
    (present : ∀ item ∈ entries, item.1 ∈ Dict.keys aiven) :
    sectionAwareUpdater section_ aiven entries = .ok ([], entries.length) ↔
      ∀ item ∈ entries, ∀ aivenEntry, Dict.get? aiven item.1 = some aivenEntry →
        Quiet section_ item.2 aivenEntry := by
  -- A round emits nothing exactly when its change test finds nothing.
  have silent : ∀ item ∈ entries, ∀ aivenEntry, Dict.get? aiven item.1 = some aivenEntry →
      (emitted section_ aiven item = none ↔
        sectionChanged section_ (preparedValues section_ item.2)
          (inplaceFilterNonMigratableFields aivenEntry) = false) := by
    intro item _ aivenEntry found
    simp [emitted, roundAction, found]
  rw [sectionAwareUpdater_ok_iff present]
  constructor
  -- No action was collected, so no round has emitted one.
  · intro completes item member aivenEntry found
    obtain ⟨holds, result⟩ := completes
    have none : emitted section_ aiven item = none :=
      List.filterMap_eq_nil_iff.mp (Prod.mk.inj result).1.symm item member
    exact ⟨holds item member aivenEntry found, (silent item member aivenEntry found).mp none⟩
  · intro quiet
    have none : ∀ item ∈ entries, emitted section_ aiven item = none := by
      intro item member
      obtain ⟨aivenEntry, found⟩ := Dict.mem_keys.mp (present item member)
      exact (silent item member aivenEntry found).mpr (quiet item member aivenEntry found).2
    refine ⟨fun item member aivenEntry found => (quiet item member aivenEntry found).1, ?_⟩
    rw [List.filterMap_eq_nil_iff.mpr none, List.countP_eq_length.mpr]
    simpa using none

section Stored

variable {section_ : String} {order : SetOrder} {source aiven stored : WellFormedSection}
  {run : SectionRun section_ order source aiven}

/-- A created name is stored with its filtered source entry. -/
theorem stored_added (server : StoredAsSent run stored) {name : String} {values : Entry}
    (member : (name, values) ∈ run.chosen.add) :
    Dict.get? stored.entries name = some (inplaceFilterNonMigratableFields values) := by
  -- The server stores the creation as it was sent.
  have operation : (⟨.add, "/" ++ name, inplaceFilterNonMigratableFields values⟩ : Action) ∈
      run.operations := List.mem_append_left _ (run.mem_additions.mpr ⟨name, values, member, rfl⟩)
  exact server.sent _ operation name rfl

/-- A name to update is stored with what its round has left. -/
theorem stored_updated (server : StoredAsSent run stored) {name : String}
    {values aivenEntry : Entry} (member : (name, values) ∈ run.chosen.update)
    (found : Dict.get? aiven.entries name = some aivenEntry) :
    Dict.get? stored.entries name = some (storedEntry section_ values aivenEntry) := by
  -- The change test decides whether the name has an operation.
  cases changed : sectionChanged section_ (preparedValues section_ values)
      (inplaceFilterNonMigratableFields aivenEntry) with
  | true =>
    have operation : (⟨.replace, "/" ++ name, storedEntry section_ values aivenEntry⟩ : Action) ∈
        run.operations := by
      refine List.mem_append_right _
        (run.mem_updates.mpr ⟨name, values, aivenEntry, member, found, ?_⟩)
      simp [roundAction, storedEntry, changed]
    exact server.sent _ operation name rfl
  | false =>
    -- No operation carries the name, so the server keeps the entry.
    rw [server.kept name, found, storedEntry, changed]
    · rfl
    · intro action sent path
      rcases List.mem_append.mp sent with added | replaced
      · have adds := run.adds_iff.mp ⟨action, added, path⟩
        have entry := (mem_selected_update_item order source aiven _).mp member
        exact ((mem_selected_add order source aiven _).mp adds).2 entry.1.2
      · have replaces := (run.replaces_iff_changed member found).mp ⟨action, replaced, path⟩
        rw [changed] at replaces
        cases replaces

/-- An entry that is not migratable is stored as it was. -/
theorem stored_other (server : StoredAsSent run stored) {name : String}
    (left : migratable source.entries aiven.entries (predefinedUntouchables section_) name =
      false) :
    Dict.get? stored.entries name = Dict.get? aiven.entries name := by
  -- Operations are about migratable names only.
  refine server.kept name fun action member path => ?_
  obtain ⟨other, carried, otherPath⟩ := run.operation_migratable member
  obtain rfl : other = name := path_injective (otherPath.symm.trans path)
  rw [left] at carried
  cases carried

/-- An entry without set flags is not protected. -/
theorem protectedIn_eq_false {aiven : Section} {name : String} {entry : Entry}
    (found : Dict.get? aiven name = some entry)
    (unset : ∀ flag, IsFlag flag → flagSet entry flag = false) :
    protectedIn aiven name = false := by
  -- The three flags are all that protects an entry.
  simp [protectedIn, found, unset "reserved" (by decide), unset "static" (by decide),
    unset "hidden" (by decide)]

/-- The flags of an unprotected entry are not set. -/
theorem unset_of_not_protected {aiven : Section} {name : String} {entry : Entry}
    (found : Dict.get? aiven name = some entry) (unprotected : protectedIn aiven name = false) :
    ∀ flag, IsFlag flag → flagSet entry flag = false := by
  -- An entry is protected as soon as one of the three flags is set.
  simp only [protectedIn, found, Bool.or_eq_false_iff] at unprotected
  intro flag named
  rcases named with rfl | rfl | rfl
  · exact unprotected.1.2
  · exact unprotected.2
  · exact unprotected.1.1

/-- Storing the operations makes no other entries migratable. -/
theorem migratable_stored (server : StoredAsSent run stored) (name : String) :
    migratable source.entries stored.entries (predefinedUntouchables section_) name =
      migratable source.entries aiven.entries (predefinedUntouchables section_) name := by
  cases carried :
    migratable source.entries aiven.entries (predefinedUntouchables section_) name with
  | false =>
    have same := stored_other server carried
    simpa [migratable, protectedIn, same] using carried
  | true =>
    -- What is stored under a migratable name has no flag set.
    have parts := carried
    simp only [migratable, Bool.and_eq_true, Bool.not_eq_true', decide_eq_true_eq] at parts
    obtain ⟨values, there⟩ := Dict.mem_keys.mp (mem_keys_of_migratable carried)
    have unprotected : protectedIn stored.entries name = false := by
      by_cases present : name ∈ Dict.keys aiven.entries
      · obtain ⟨aivenEntry, found⟩ := Dict.mem_keys.mp present
        have member :=
          (mem_selected_update_item order source aiven _).mpr ⟨⟨carried, present⟩, there⟩
        refine protectedIn_eq_false (stored_updated server member found) fun flag special => ?_
        unfold storedEntry
        split
        · exact flagSet_merged section_ aivenEntry (source.entry_nodup there) special
        · exact unset_of_not_protected found parts.1.2 flag special
      · have member := (mem_selected_add_item order source aiven _).mpr ⟨⟨carried, present⟩, there⟩
        exact protectedIn_eq_false (stored_added server member) fun flag special =>
          flagSet_filter values special
    simp [migratable, parts.1.1, parts.2, unprotected]

/-- A second run emits nothing exactly when the round of every migratable entry is quiet. -/
theorem emitsNothing_iff (server : StoredAsSent run stored) (again : SetOrder) :
    EmitsNothing section_ again source stored
        ((Dict.keys source.entries).filter
          (migratable source.entries aiven.entries (predefinedUntouchables section_))).length ↔
      ∀ name values storedValues,
        migratable source.entries aiven.entries (predefinedUntouchables section_) name →
        Dict.get? source.entries name = some values →
        Dict.get? stored.entries name = some storedValues → Quiet section_ values storedValues := by
  have same := funext (migratable_stored server)
  have total := selected_length again source stored (predefinedUntouchables section_)
  have chosen := @mem_selected_update_item again source stored (predefinedUntouchables section_)
  -- Every migratable name is stored, so nothing is left to create.
  have nothing : (selected again source stored (predefinedUntouchables section_)).add = [] := by
    rw [List.eq_nil_iff_forall_not_mem]
    intro item member
    obtain ⟨name, values⟩ := item
    obtain ⟨⟨carried, absent⟩, there⟩ := (mem_selected_add_item again source stored _).mp member
    rw [same] at carried
    refine absent (Dict.mem_keys.mpr ?_)
    by_cases present : name ∈ Dict.keys aiven.entries
    · obtain ⟨aivenEntry, found⟩ := Dict.mem_keys.mp present
      exact ⟨_, stored_updated server
        ((mem_selected_update_item order source aiven _).mpr ⟨⟨carried, present⟩, there⟩) found⟩
    · exact ⟨_, stored_added server
        ((mem_selected_add_item order source aiven _).mpr ⟨⟨carried, present⟩, there⟩)⟩
  rw [nothing, List.length_nil, Nat.zero_add, same] at total
  rw [EmitsNothing, and_iff_right nothing, ← total,
    sectionAwareUpdater_quiet_iff (selected_update_present again source stored _)]
  simp only [Prod.forall, chosen, same]
  -- The names to update are the migratable ones, all of which are stored.
  constructor
  · intro quiet name values storedValues carried there here
    exact quiet name values ⟨⟨carried, Dict.mem_keys.mpr ⟨_, here⟩⟩, there⟩ storedValues here
  · intro quiet name values updated storedValues here
    obtain ⟨⟨carried, _⟩, there⟩ := updated
    exact quiet name values storedValues carried there here

end Stored

/-- The values of the entries of a section are well formed. -/
theorem WellFormedSection.entry_valuesWellFormed (entries : WellFormedSection) {name : String}
    {entry : Entry} (found : Dict.get? entries.entries name = some entry) :
    ValuesWellFormed entry := by
  -- An entry is a value of its section, and its values are well formed with it.
  have wellFormed := entries.wellFormed _ (Dict.mem_of_get? found)
  simp only [Json.WellFormed, Json.wellFormedFields_iff] at wellFormed
  exact fun key value here => wellFormed.2 _ (Dict.mem_of_get? here)

/-- A migratable source entry is not reserved. -/
theorem unreserved_of_migratable {source aiven : Section} {untouchables : List String}
    {name : String} {values : Entry} (carried : migratable source aiven untouchables name = true)
    (there : Dict.get? source name = some values) : flagSet values "reserved" = false := by
  -- The selection passes over reserved entries of the source.
  simp only [migratable, movable, there, Bool.and_eq_true, Bool.not_eq_true',
    Bool.or_eq_false_iff] at carried
  exact carried.1.1.1

/-- No flag is set in the Aiven entry of a migratable name. -/
theorem unset_of_migratable {source aiven : Section} {untouchables : List String} {name : String}
    {aivenEntry : Entry} (carried : migratable source aiven untouchables name = true)
    (found : Dict.get? aiven name = some aivenEntry) :
    ∀ flag, IsFlag flag → flagSet aivenEntry flag = false := by
  simp only [migratable, Bool.and_eq_true, Bool.not_eq_true'] at carried
  exact unset_of_not_protected found carried.1.2

section Settling

variable {section_ : String} {order : SetOrder} {source aiven stored : WellFormedSection}
  {run : SectionRun section_ order source aiven} {name : String} {values : Entry}

/-- An entry that Aiven has is settled when its rounds in both runs are as they should be. -/
theorem settled_some_iff (server : StoredAsSent run stored) {aivenEntry : Entry}
    (member : (name, values) ∈ run.chosen.update)
    (found : Dict.get? aiven.entries name = some aivenEntry) :
    Settled section_ values (some aivenEntry) ↔
      (run.Replaces name ↔ MergeChanges section_ values aivenEntry) ∧
        (section_ ≠ "internalusers" → ∀ storedValues,
          Dict.get? stored.entries name = some storedValues →
            Quiet section_ values storedValues) := by
  obtain ⟨⟨carried, _⟩, there⟩ := (mem_selected_update_item order source aiven _).mp member
  have distinct := source.entry_nodup there
  -- The first run replaces what its change test finds, and the second one meets what it has left.
  have first : (sectionChanged section_ (preparedValues section_ values)
        (inplaceFilterNonMigratableFields aivenEntry) = true ↔
      MergeChanges section_ values aivenEntry) ↔ CoveredWhenEqual section_ values aivenEntry :=
    changed_iff_mergeChanges_iff distinct (aiven.entry_nodup found)
      (aiven.entry_valuesWellFormed found)
  have second := quiet_stored_iff distinct (aiven.entry_nodup found)
    (source.entry_valuesWellFormed there) (unreserved_of_migratable carried there)
    (unset_of_migratable carried found) (run.updatable _ member aivenEntry found)
  rw [Settled, run.replaces_iff_changed member found, first, ← second]
  simp only [stored_updated server member found, Option.some.injEq, forall_eq']

/-- An entry that Aiven lacks is settled when a second run finds nothing to change. -/
theorem settled_none_iff (server : StoredAsSent run stored)
    (member : (name, values) ∈ run.chosen.add) :
    Settled section_ values none ↔
      (section_ ≠ "internalusers" → ∀ storedValues,
        Dict.get? stored.entries name = some storedValues →
          Quiet section_ values storedValues) := by
  obtain ⟨⟨carried, _⟩, there⟩ := (mem_selected_add_item order source aiven _).mp member
  -- What is stored under the name is the filtered source entry.
  have second : Quiet section_ values (inplaceFilterNonMigratableFields values) ↔ _ :=
    quiet_added_iff (source.entry_nodup there) (source.entry_valuesWellFormed there)
      (unreserved_of_migratable carried there)
  rw [Settled, ← second]
  simp only [stored_added server member, Option.some.injEq, forall_eq']

/-- A migratable entry is settled when its rounds in both runs are as they should be. -/
theorem settled_iff (server : StoredAsSent run stored)
    (carried :
      migratable source.entries aiven.entries (predefinedUntouchables section_) name = true)
    (there : Dict.get? source.entries name = some values) :
    Settled section_ values (Dict.get? aiven.entries name) ↔
      (∀ aivenEntry, Dict.get? aiven.entries name = some aivenEntry →
        (run.Replaces name ↔ MergeChanges section_ values aivenEntry)) ∧
      (section_ ≠ "internalusers" → ∀ storedValues,
        Dict.get? stored.entries name = some storedValues →
          Quiet section_ values storedValues) := by
  -- Each migratable name is either updated or created by the run.
  cases found : Dict.get? aiven.entries name with
  | some aivenEntry =>
    have member : (name, values) ∈ run.chosen.update :=
      (mem_selected_update_item order source aiven _).mpr
        ⟨⟨carried, Dict.mem_keys.mpr ⟨_, found⟩⟩, there⟩
    simpa using settled_some_iff server member found
  | none =>
    have member : (name, values) ∈ run.chosen.add :=
      (mem_selected_add_item order source aiven _).mpr
        ⟨⟨carried, Dict.get?_eq_none.mp found⟩, there⟩
    simpa using settled_none_iff server member

end Settling

/-- A role without a description. -/
def plainRole : WellFormedSection :=
  roleOf "reader" [("cluster_permissions", "read")] permission_nodup

/-- The same role with a description. -/
def describedRole : WellFormedSection :=
  roleOf "reader" [("cluster_permissions", "read"), ("description", "Reads")] (by decide)

/-- Migrating a role that Aiven has with a description. -/
def describedRun : SectionRun "roles" .listed plainRole describedRole where
  updates := [⟨.replace, "/reader",
    [("cluster_permissions", .str "read"), ("description", .str "Reads")]⟩]
  unchanged := 0
  completes := rfl

/--
A run converges exactly when every migratable entry is settled by it.

The stored section is whatever the server returns after storing the operations as sent.
-/
theorem converges_iff {section_ : String} {order : SetOrder}
    {source aiven stored : WellFormedSection} (run : SectionRun section_ order source aiven)
    (server : StoredAsSent run stored) :
    Converges run stored ↔
      ∀ name values,
        migratable source.entries aiven.entries (predefinedUntouchables section_) name →
        Dict.get? source.entries name = some values →
        Settled section_ values (Dict.get? aiven.entries name) := by
  -- Both parts of the property are about one migratable name at a time.
  have second : (∀ again : SetOrder, EmitsNothing section_ again source stored
        ((Dict.keys source.entries).filter
          (migratable source.entries aiven.entries (predefinedUntouchables section_))).length) ↔
      ∀ name values storedValues,
        migratable source.entries aiven.entries (predefinedUntouchables section_) name →
        Dict.get? source.entries name = some values →
        Dict.get? stored.entries name = some storedValues → Quiet section_ values storedValues :=
    ⟨fun quiet => (emitsNothing_iff server .listed).mp (quiet .listed),
      fun quiet again => (emitsNothing_iff server again).mpr quiet⟩
  rw [Converges, second]
  constructor
  · intro converges name values carried there
    refine (settled_iff server carried there).mpr ⟨fun aivenEntry found => ?_,
      fun checked storedValues => converges.2 checked name values storedValues carried there⟩
    have member : (name, values) ∈ run.chosen.update :=
      (mem_selected_update_item order source aiven _).mpr
        ⟨⟨carried, Dict.mem_keys.mpr ⟨_, found⟩⟩, there⟩
    exact converges.1 name values aivenEntry member found
  · intro settled
    refine ⟨fun name values aivenEntry member found => ?_,
      fun checked name values storedValues carried there => ?_⟩
    · obtain ⟨⟨carried, _⟩, there⟩ := (mem_selected_update_item order source aiven _).mp member
      exact ((settled_iff server carried there).mp (settled name values carried there)).1 _ found
    · exact ((settled_iff server carried there).mp (settled name values carried there)).2 checked _

/-- A role with one permission is settled, whatever permission Aiven has for it. -/
theorem settled_permission (source : String) (aiven : Option String) :
    Settled "roles" [("cluster_permissions", .str source)]
      (aiven.map fun permission => [("cluster_permissions", .str permission)]) := by
  cases aiven with
  | none => exact fun _ => ⟨List.cons_ne_nil _ _, fun _ => rfl, by simp⟩
  | some permission =>
    -- The entry in Aiven has no key of its own.
    refine ⟨fun _ key absent => ?_, fun _ => ⟨fun key absent => ?_, fun _ => rfl, by simp⟩⟩
    · exact sameUnder_absent "roles" (Dict.get?_eq_none.mpr absent)
    · exact sameUnder_absent "roles" (Dict.get?_eq_none.mpr absent)

/-- The three roles in Aiven behind the run. -/
def migratedRoles : WellFormedSection :=
  rolesOf [("auditor", "read"), ("reader", "read"), ("writer", "write")] (by decide)

/-- The server stores the role that is added and the one that is replaced. -/
theorem migratedRoles_stored : StoredAsSent threeRolesRun migratedRoles := by
  have sends : threeRolesRun.operations =
      [⟨.add, "/writer", [("cluster_permissions", .str "write")]⟩,
        ⟨.replace, "/reader", [("cluster_permissions", .str "read")]⟩] := rfl
  refine ⟨fun action member name path => ?_, fun name other => ?_⟩
  · rw [sends, List.mem_cons, List.mem_singleton] at member
    rcases member with rfl | rfl
    · obtain rfl : "writer" = name := path_injective path
      rfl
    · obtain rfl : "reader" = name := path_injective path
      rfl
  · -- No operation is about the third one, or about a role that is not there.
    rw [sends] at other
    have notWriter : "writer" ≠ name := fun same => other _ (.head _) (same ▸ rfl)
    have notReader : "reader" ≠ name := fun same => other _ (.tail _ (.head _)) (same ▸ rfl)
    simp [migratedRoles, rolesOf, Dict.get?_cons, notWriter, notReader]

/-- The run that adds one of three roles and replaces another one converges. -/
theorem threeRolesRun_converges : Converges threeRolesRun migratedRoles := by
  refine (converges_iff threeRolesRun migratedRoles_stored).mpr fun name values _ there => ?_
  -- Each of the roles has one permission, on both sides.
  have member := Dict.mem_of_get? there
  simp only [rolesOf, List.map_cons, List.map_nil, List.mem_cons, Prod.mk.injEq,
    List.not_mem_nil, or_false] at member
  rcases member with ⟨rfl, rfl⟩ | ⟨rfl, rfl⟩ | ⟨rfl, rfl⟩
  · exact settled_permission "write" none
  · exact settled_permission "read" (some "all")
  · exact settled_permission "read" (some "read")

/-- A role that Aiven has with a description is replaced, although merging changes nothing. -/
theorem describedRun_counterexample :
    StoredAsSent describedRun describedRole ∧ ¬ Converges describedRun describedRole := by
  constructor
  -- The server stores the one replacement.
  · refine ⟨fun action member name path => ?_, fun _ _ => rfl⟩
    obtain rfl : action = _ := List.mem_singleton.mp member
    obtain rfl : "reader" = name := path_injective path
    rfl
  · intro converges
    obtain ⟨exact, _⟩ := converges
    have member : ("reader", [("cluster_permissions", .str "read")]) ∈ describedRun.chosen.update :=
      List.mem_singleton.mpr rfl
    refine (exact "reader" _ _ member rfl).mp ⟨_, List.mem_singleton.mpr rfl, rfl⟩ fun key => ?_
    -- The merged entry is the Aiven entry itself.
    have found : Dict.get? describedRole.entries "reader" = some _ := rfl
    exact sameUnder_refl _
      (filter_valuesWellFormed (describedRole.entry_valuesWellFormed found) key)

end AivenExamples.SecurityMigration
