import AivenExamples.SecurityMigration.Selection

/-! When the updater neither crashes on the security manager nor unmaps it. -/

namespace AivenExamples.SecurityMigration

/-- The users of an entry, where it has any, are a list. -/
def UsersAreLists (entries : Section) : Prop :=
  ∀ item ∈ entries, ∀ users, Dict.get? item.2 "users" = some users → ∃ items, users = .arr items

/-- The security manager is among the listed users of an entry. -/
def MapsManager (entry : Entry) : Prop :=
  ∃ items, Dict.get? entry "users" = some (.arr items) ∧
    items.any fun item => item.pyEq (.str aivenSecurityManager)

/-- The updater completes, and no replacement of a mapping drops the security manager. -/
def KeepsManager (section_ : String) (order : SetOrder) (source aiven : WellFormedSection) : Prop :=
  ∃ updates unchanged,
    sectionAwareUpdater section_ aiven.entries
      (selected order source aiven (predefinedUntouchables section_)).update =
        .ok (updates, unchanged) ∧
    (section_ = "rolesmapping" → ∀ action ∈ updates, ∀ name aivenEntry,
      action.path = "/" ++ name → Dict.get? aiven.entries name = some aivenEntry →
        MapsManager aivenEntry → MapsManager action.value)

/--
An Aiven entry with which a source entry can be merged.

A mapping needs users, and may hold the security manager only where the source mapping does too.
-/
def Mergeable (section_ : String) (values aivenEntry : Entry) : Prop :=
  aivenEntry ≠ [] ∧ (section_ = "rolesmapping" →
    "users" ∈ Dict.keys aivenEntry ∧ (MapsManager aivenEntry → MapsManager values))

/-- For listed users the membership tests of the updater say whether the manager is mapped. -/
theorem managerKept_iff {values aivenEntry : Entry}
    (sourceList : ∀ users, Dict.get? values "users" = some users → ∃ items, users = .arr items)
    (aivenList : ∀ users, Dict.get? aivenEntry "users" = some users → ∃ items, users = .arr items) :
    ManagerKept values aivenEntry ↔
      "users" ∈ Dict.keys aivenEntry ∧ (MapsManager aivenEntry → MapsManager values) := by
  -- Missing source users are read as an empty list, which does not hold the manager.
  have sourceReads : (sourceUsers values).contains aivenSecurityManager = .ok true ↔
      MapsManager values := by
    unfold sourceUsers MapsManager
    cases found : Dict.get? values "users" with
    | none => simp [Json.contains]
    | some users =>
      obtain ⟨items, rfl⟩ := sourceList users found
      simp [Json.contains]
  unfold ManagerKept
  rw [sourceReads, Dict.mem_keys]
  -- Aiven users that are missing make both sides false.
  cases found : Dict.get? aivenEntry "users" with
  | none => simp
  | some users =>
    obtain ⟨items, rfl⟩ := aivenList users found
    have maps : MapsManager aivenEntry ↔
        items.any (fun item => item.pyEq (.str aivenSecurityManager)) = true := by
      simp [MapsManager, found]
    simp only [maps, Option.some.injEq, exists_eq_left', Json.contains, Except.ok.injEq]
    cases items.any fun item => item.pyEq (.str aivenSecurityManager) <;> simp

/-- A replaced mapping carries the users of the source entry. -/
theorem roundAction_users {path : String} {values aivenEntry : Entry} {action : Action}
    (distinct : (Dict.keys values).Nodup)
    (emits : roundAction "rolesmapping" path values aivenEntry = some action) :
    Dict.get? action.value "users" = some (sourceUsers values) := by
  unfold roundAction at emits
  split at emits
  -- Merging reads the source first, and its users are there after the default.
  · cases emits
    rw [preparedValues, if_pos rfl, Dict.get?_update _ (withUsers_nodup (filter_nodup distinct)),
      withUsers_users]
    simp [sourceUsers]
  · cases emits

/-- The entries of a well formed section have distinct keys. -/
theorem WellFormedSection.entry_nodup (entries : WellFormedSection) {name : String} {entry : Entry}
    (found : Dict.get? entries.entries name = some entry) : (Dict.keys entry).Nodup := by
  have wellFormed := entries.wellFormed _ (Dict.mem_of_get? found)
  simp only [Json.WellFormed] at wellFormed
  exact wellFormed.1

/-- A section with one mapping, held by the listed users. -/
def mappingOf (users : List String) : WellFormedSection where
  entries := [("admins", [("users", .arr (users.map .str))])]
  names_nodup := by simp
  wellFormed := by
    simp [Json.WellFormed, Json.WellFormedFields, Json.wellFormedItems_str]

/-- The users of such a section are a list. -/
theorem mappingOf_lists (users : List String) : UsersAreLists (mappingOf users).entries := by
  simp [UsersAreLists, mappingOf, Dict.get?_cons]

/-- Such a section has one entry. -/
theorem mappingOf_found {users : List String} {name : String} {entry : Entry}
    (found : Dict.get? (mappingOf users).entries name = some entry) :
    name = "admins" ∧ entry = [("users", .arr (users.map .str))] := by
  simpa [mappingOf, Dict.get?_cons, eq_comm] using found

/--
The manager is kept exactly when every selected entry can be merged.

Where the Aiven mapping holds the manager and the source mapping does not, the repair raises.
-/
theorem keepsManager_iff (section_ : String) (order : SetOrder) (source aiven : WellFormedSection)
    (sourceLists : UsersAreLists source.entries) (aivenLists : UsersAreLists aiven.entries) :
    KeepsManager section_ order source aiven ↔
      ∀ name, migratable source.entries aiven.entries (predefinedUntouchables section_) name →
        ∀ values aivenEntry, Dict.get? source.entries name = some values →
          Dict.get? aiven.entries name = some aivenEntry →
            Mergeable section_ values aivenEntry := by
  -- A completed updater has gone through a round for every selected entry, and vice versa.
  have present := selected_update_present order source aiven (predefinedUntouchables section_)
  have mergeable : ∀ {name values aivenEntry}, Dict.get? source.entries name = some values →
      Dict.get? aiven.entries name = some aivenEntry →
        (Updatable section_ values aivenEntry ↔ Mergeable section_ values aivenEntry) := by
    intro name values aivenEntry there here
    refine and_congr_right fun _ => imp_congr_right fun _ => managerKept_iff ?_ ?_
    · exact sourceLists _ (Dict.mem_of_get? there)
    · exact aivenLists _ (Dict.mem_of_get? here)
  have chosen := @mem_selected_update_item order source aiven (predefinedUntouchables section_)
  constructor
  -- The rounds of a completed updater were all updatable.
  · intro keeps name carried values aivenEntry there here
    obtain ⟨updates, unchanged, completes, _⟩ := keeps
    have rounds := ((sectionAwareUpdater_ok_iff present).mp completes).1
    exact (mergeable there here).mp (rounds (name, values)
      (chosen.mpr ⟨⟨carried, Dict.mem_keys.mpr ⟨_, here⟩⟩, there⟩) aivenEntry here)
  · intro allMergeable
    refine ⟨_, _, (sectionAwareUpdater_ok_iff present).mpr ⟨?_, rfl⟩, ?_⟩
    -- Mergeable entries have rounds that do not raise.
    · intro item member aivenEntry here
      obtain ⟨name, values⟩ := item
      obtain ⟨⟨carried, _⟩, there⟩ := chosen.mp member
      exact (mergeable there here).mpr (allMergeable name carried values aivenEntry there here)
    · -- The users written for a mapping are those of its source entry.
      intro mapping action emittedHere name aivenEntry path here maps
      subst mapping
      obtain ⟨⟨other, values⟩, member, emits⟩ := List.mem_filterMap.mp emittedHere
      obtain rfl : other = name := path_injective ((emitted_path emits).symm.trans path)
      obtain ⟨⟨carried, _⟩, there⟩ := chosen.mp member
      obtain ⟨_, kept⟩ := allMergeable other carried values aivenEntry there here
      obtain ⟨items, users, holds⟩ := (kept rfl).2 maps
      refine ⟨items, ?_, holds⟩
      rw [roundAction_users (source.entry_nodup there) (by simpa [emitted, here] using emits),
        sourceUsers, users, Option.getD_some]

/-- A source and an Aiven mapping that both hold the manager are merged. -/
theorem keepsManager_bothMapped :
    KeepsManager "rolesmapping" .listed (mappingOf ["os-sec-admin", "alice"])
      (mappingOf ["os-sec-admin"]) := by
  refine (keepsManager_iff _ _ _ _ (mappingOf_lists _) (mappingOf_lists _)).mpr ?_
  -- Each section has the one mapping, and both hold the manager.
  intro name _ values aivenEntry there here
  obtain ⟨rfl, rfl⟩ := mappingOf_found there
  obtain ⟨_, rfl⟩ := mappingOf_found here
  exact ⟨by simp, fun _ => ⟨by simp, fun _ => ⟨_, rfl, by decide⟩⟩⟩

/-- A mapping that only Aiven gives to the security manager makes the updater raise. -/
theorem keepsManager_counterexample :
    UsersAreLists (mappingOf []).entries ∧ UsersAreLists (mappingOf ["os-sec-admin"]).entries ∧
      ¬ KeepsManager "rolesmapping" .listed (mappingOf []) (mappingOf ["os-sec-admin"]) := by
  refine ⟨mappingOf_lists _, mappingOf_lists _, ?_⟩
  intro keeps
  obtain ⟨updates, unchanged, completes, _⟩ := keeps
  -- The repair calls a set method on the list of users.
  have raises : sectionAwareUpdater "rolesmapping" (mappingOf ["os-sec-admin"]).entries
      (selected .listed (mappingOf []) (mappingOf ["os-sec-admin"])
        (predefinedUntouchables "rolesmapping")).update = .error .attributeError := rfl
  rw [raises] at completes
  cases completes

end AivenExamples.SecurityMigration
