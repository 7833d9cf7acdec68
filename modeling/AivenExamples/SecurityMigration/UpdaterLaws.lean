import AivenExamples.SecurityMigration.Sections

/-! What one round of the updater does, and what that means for a whole section. -/

namespace AivenExamples.SecurityMigration

/-- The three flags that the filter treats specially. -/
def IsFlag (key : String) : Prop := key = "static" ∨ key = "hidden" ∨ key = "reserved"

instance (key : String) : Decidable (IsFlag key) := inferInstanceAs (Decidable (_ ∨ _))

/-- Popping one flag leaves `False` behind when it was set, and nothing otherwise. -/
theorem popFlag_get? (d : Entry) (flag key : String) :
    Dict.get? (popFlag d flag) key =
      if key = flag then
        if ((Dict.get? d flag).getD .null).truthy then some (.bool false) else none
      else Dict.get? d key := by
  unfold popFlag
  -- Only the flag itself is affected, by what it was before.
  by_cases same : key = flag
  · subst same
    by_cases set : ((Dict.get? d key).getD .null).truthy <;> simp [set]
  · by_cases set : ((Dict.get? d flag).getD .null).truthy <;> simp [set, same]

/-- Popping a flag keeps the keys distinct. -/
theorem popFlag_nodup {d : Entry} (distinct : (Dict.keys d).Nodup) (flag : String) :
    (Dict.keys (popFlag d flag)).Nodup := by
  unfold popFlag
  -- A flag that is put back comes after it was taken out.
  by_cases set : ((Dict.get? d flag).getD .null).truthy
  · simpa [set] using Dict.nodup_set (Dict.nodup_erase distinct flag) _ _
  · simpa [set] using Dict.nodup_erase distinct flag

/-- What the filter leaves under every key. -/
theorem filter_get? (d : Entry) (key : String) :
    Dict.get? (inplaceFilterNonMigratableFields d) key =
      if key = "static" then none
      else if key = "hidden" ∨ key = "reserved" then
        if ((Dict.get? d key).getD .null).truthy then some (.bool false) else none
      else Dict.get? d key := by
  -- The three flags are popped one after the other, and none of them is another one.
  simp only [inplaceFilterNonMigratableFields, List.foldl_cons, List.foldl_nil, popFlag_get?]
  by_cases reserved : key = "reserved"
  · subst reserved
    simp
  · by_cases hidden : key = "hidden"
    · subst hidden
      simp
    · by_cases static : key = "static"
      · subst static
        simp
      · simp [reserved, hidden, static]

/-- Keys that are no flags pass the filter unchanged. -/
theorem filter_get?_of_not_flag (d : Entry) {key : String} (plain : ¬ IsFlag key) :
    Dict.get? (inplaceFilterNonMigratableFields d) key = Dict.get? d key := by
  simp only [IsFlag, not_or] at plain
  simp [filter_get?, plain]

/-- After the filter no flag is set. -/
theorem filter_flag_false (d : Entry) {key : String} (flag : IsFlag key) :
    Dict.get? (inplaceFilterNonMigratableFields d) key = none ∨
      Dict.get? (inplaceFilterNonMigratableFields d) key = some (.bool false) := by
  -- The flag `static` is gone, and the other two are at most switched off.
  rw [filter_get?]
  rcases flag with rfl | rfl | rfl
  · exact Or.inl rfl
  · by_cases set : ((Dict.get? d "hidden").getD .null).truthy <;> simp [set]
  · by_cases set : ((Dict.get? d "reserved").getD .null).truthy <;> simp [set]

/-- The filter keeps the keys of an entry distinct. -/
theorem filter_nodup {d : Entry} (distinct : (Dict.keys d).Nodup) :
    (Dict.keys (inplaceFilterNonMigratableFields d)).Nodup :=
  popFlag_nodup (popFlag_nodup (Dict.nodup_erase distinct _) _) _

/-- The source values of a mapping, with an empty user list where users are missing. -/
def withUsers (osValues : Entry) : Entry :=
  if "users" ∈ Dict.keys osValues then osValues else Dict.set osValues "users" (.arr [])

/-- The users the updater reads for a source mapping. -/
def sourceUsers (osValues : Entry) : Json := (Dict.get? osValues "users").getD (.arr [])

/-- A mapping always has users after the default is filled in. -/
theorem withUsers_users (osValues : Entry) :
    Dict.get? (withUsers osValues) "users" = some (sourceUsers osValues) := by
  unfold withUsers sourceUsers
  -- Users that are there are kept, and missing ones are the empty list.
  by_cases present : "users" ∈ Dict.keys osValues
  · obtain ⟨users, found⟩ := Dict.mem_keys.mp present
    simp [present, found]
  · simp [present, Dict.get?_eq_none.mpr present]

/-- Filling in the default changes no other key. -/
theorem withUsers_get?_of_ne (osValues : Entry) {key : String} (other : key ≠ "users") :
    Dict.get? (withUsers osValues) key = Dict.get? osValues key := by
  -- Only `users` is assigned, and only where it is missing.
  unfold withUsers
  split
  · rfl
  · simp [other]

/-- Filling in the default keeps the keys distinct. -/
theorem withUsers_nodup {osValues : Entry} (distinct : (Dict.keys osValues).Nodup) :
    (Dict.keys (withUsers osValues)).Nodup := by
  -- Assigning a key keeps the keys distinct.
  unfold withUsers
  split
  · exact distinct
  · exact Dict.nodup_set distinct _ _

/--
The security manager step succeeds in exactly two situations.

Either the Aiven mapping does not hold the manager, or both mappings do.
-/
theorem keepSecurityManager_ok_iff {osValues aivenValues result : Entry} :
    keepSecurityManager osValues aivenValues = .ok result ↔
      result = withUsers osValues ∧ ∃ users, Dict.get? aivenValues "users" = some users ∧
        (users.contains aivenSecurityManager = .ok false ∨
          (users.contains aivenSecurityManager = .ok true ∧
            (sourceUsers osValues).contains aivenSecurityManager = .ok true)) := by
  -- Adding the manager to a list always raises, so that branch never succeeds.
  have filled := withUsers_users osValues
  unfold withUsers at filled ⊢
  simp only [keepSecurityManager, Json.item, addMethod]
  cases found : Dict.get? aivenValues "users" with
  -- Without Aiven users the item access raises.
  | none => simp [bind, Except.bind]
  | some users =>
    cases held : users.contains aivenSecurityManager with
    -- A value without parts does not take the membership test.
    | error fault => simp [held, bind, Except.bind]
    | ok manages =>
      cases manages with
      -- Aiven does not map the manager, so there is nothing to keep.
      | false => simp [held, bind, Except.bind, pure, Except.pure, eq_comm]
      | true =>
        -- Aiven maps the manager, so the source has to map it as well.
        cases mapped : (sourceUsers osValues).contains aivenSecurityManager with
        | error fault => simp [held, filled, mapped, bind, Except.bind]
        | ok maps =>
          cases maps <;>
            simp [held, filled, mapped, bind, Except.bind, pure, Except.pure, eq_comm]

/-- The users of an entry pass the flag filter. -/
@[simp] theorem filter_users (d : Entry) :
    Dict.get? (inplaceFilterNonMigratableFields d) "users" = Dict.get? d "users" :=
  filter_get?_of_not_flag d (by decide)

/-- The source values that are compared and merged. -/
def preparedValues (section_ : String) (values : Entry) : Entry :=
  if section_ = "rolesmapping" then withUsers (inplaceFilterNonMigratableFields values)
  else inplaceFilterNonMigratableFields values

/-- The change test of a section. -/
def sectionChanged (section_ : String) (osValues aivenValues : Entry) : Bool :=
  if section_ = "rolesmapping" then mappingChanged osValues aivenValues
  else !(Json.obj osValues).pyEq (.obj aivenValues)

/-- The mappings for which the security manager step does not raise. -/
def ManagerKept (values aivenEntry : Entry) : Prop :=
  ∃ users, Dict.get? aivenEntry "users" = some users ∧
    (users.contains aivenSecurityManager = .ok false ∨
      (users.contains aivenSecurityManager = .ok true ∧
        (sourceUsers values).contains aivenSecurityManager = .ok true))

/-- The entries for which a round of the updater does not raise. -/
def Updatable (section_ : String) (values aivenEntry : Entry) : Prop :=
  aivenEntry ≠ [] ∧ (section_ = "rolesmapping" → ManagerKept values aivenEntry)

/-- What a successful round emits for an entry. -/
def roundAction (section_ path : String) (values aivenEntry : Entry) : Option Action :=
  if sectionChanged section_ (preparedValues section_ values)
      (inplaceFilterNonMigratableFields aivenEntry) then
    some
      { op := .replace, path := "/" ++ path
        value := Dict.update (inplaceFilterNonMigratableFields aivenEntry)
          (preparedValues section_ values) }
  else none

/-- The section specific step succeeds exactly when the security manager is kept. -/
theorem sectionSpecific_ok_iff {section_ : String} {values aivenEntry : Entry}
    {result : Entry × Bool} :
    sectionSpecific section_ (inplaceFilterNonMigratableFields values)
        (inplaceFilterNonMigratableFields aivenEntry) = .ok result ↔
      (section_ = "rolesmapping" → ManagerKept values aivenEntry) ∧
        result = (preparedValues section_ values,
          sectionChanged section_ (preparedValues section_ values)
            (inplaceFilterNonMigratableFields aivenEntry)) := by
  unfold sectionSpecific preparedValues sectionChanged
  by_cases mapping : section_ = "rolesmapping"
  · -- Filtering leaves the users as they were, so the step reads the original ones.
    simp only [mapping, if_true, true_imp_iff]
    constructor
    -- A step that succeeds tells what the manager step has returned.
    · intro succeeded
      cases kept : keepSecurityManager (inplaceFilterNonMigratableFields values)
          (inplaceFilterNonMigratableFields aivenEntry) with
      | error fault => simp [kept, bind, Except.bind] at succeeded
      | ok osValues =>
        obtain ⟨same, holds⟩ := keepSecurityManager_ok_iff.mp kept
        simp only [kept, bind, Except.bind, pure, Except.pure, Except.ok.injEq] at succeeded
        subst same
        exact ⟨by simpa [ManagerKept, sourceUsers] using holds, succeeded.symm⟩
    · intro kept
      obtain ⟨holds, rfl⟩ := kept
      have kept := keepSecurityManager_ok_iff.mpr
        ⟨rfl, (by simpa [ManagerKept, sourceUsers] using holds :
          ∃ users, Dict.get? (inplaceFilterNonMigratableFields aivenEntry) "users" = some users ∧
            (users.contains aivenSecurityManager = .ok false ∨
              (users.contains aivenSecurityManager = .ok true ∧
                (sourceUsers (inplaceFilterNonMigratableFields values)).contains
                  aivenSecurityManager = .ok true)))⟩
      simp [kept, bind, Except.bind, pure, Except.pure]
  -- The other sections have no step that could raise.
  · simp [mapping, pure, Except.pure, eq_comm]

/-- A round succeeds exactly for the updatable entries, and its action is then determined. -/
theorem updateEntry_ok_iff {section_ path : String} {aiven : Section} {values aivenEntry : Entry}
    {action : Option Action} (present : Dict.get? aiven path = some aivenEntry) :
    updateEntry section_ aiven path values = .ok action ↔
      Updatable section_ values aivenEntry ∧
        action = roundAction section_ path values aivenEntry := by
  unfold updateEntry getFilteredForMigration Updatable roundAction
  by_cases empty : aivenEntry = []
  -- An empty Aiven entry counts as missing.
  · simp [present, empty, bind, Except.bind]
  · have filled : aivenEntry.isEmpty = false := by simpa using empty
    have step := @sectionSpecific_ok_iff section_ values aivenEntry
    cases specific : sectionSpecific section_ (inplaceFilterNonMigratableFields values)
        (inplaceFilterNonMigratableFields aivenEntry) with
    | error fault =>
      -- A refused step means that the manager cannot be kept.
      have refused : ¬ (section_ = "rolesmapping" → ManagerKept values aivenEntry) := by
        intro holds
        have := step.mpr ⟨holds, rfl⟩
        rw [specific] at this
        cases this
      simp [present, filled, specific, refused, bind, Except.bind]
    -- The change test of the step decides about the action.
    | ok result =>
      obtain ⟨holds, rfl⟩ := step.mp specific
      cases changed : sectionChanged section_ (preparedValues section_ values)
          (inplaceFilterNonMigratableFields aivenEntry) with
      | false =>
        simp only [present, Option.getD_some, filled, specific, changed, bind, Except.bind, pure,
          Except.pure, Bool.false_eq_true, if_false, Except.ok.injEq]
        exact ⟨fun same => ⟨⟨empty, holds⟩, same.symm⟩, fun both => both.2.symm⟩
      | true =>
        simp only [present, Option.getD_some, filled, specific, changed, bind, Except.bind, pure,
          Except.pure, Bool.false_eq_true, if_false, if_true, Except.ok.injEq]
        exact ⟨fun same => ⟨⟨empty, holds⟩, same.symm⟩, fun both => both.2.symm⟩

/-- What the updater emits for an entry once its round has succeeded. -/
def emitted (section_ : String) (aiven : Section) (item : String × Entry) : Option Action :=
  roundAction section_ item.1 item.2 ((Dict.get? aiven item.1).getD [])

/-- The updater succeeds exactly when every round does, and collects what the rounds emit. -/
theorem sectionAwareUpdater_ok_iff {section_ : String} {aiven : Section} {entries : Section}
    {result : List Action × Nat} (present : ∀ item ∈ entries, item.1 ∈ Dict.keys aiven) :
    sectionAwareUpdater section_ aiven entries = .ok result ↔
      (∀ item ∈ entries, ∀ aivenEntry, Dict.get? aiven item.1 = some aivenEntry →
        Updatable section_ item.2 aivenEntry) ∧
      result = (entries.filterMap (emitted section_ aiven),
        entries.countP fun item => (emitted section_ aiven item).isNone) := by
  -- The first entry is settled by its own round, the rest by the same statement.
  induction entries generalizing result with
  | nil => simp [sectionAwareUpdater, eq_comm]
  | cons item entries ih =>
    rcases item with ⟨path, values⟩
    obtain ⟨aivenEntry, found⟩ := Dict.mem_keys.mp (present (path, values) (by simp))
    have restPresent : ∀ item ∈ entries, item.1 ∈ Dict.keys aiven :=
      fun item member => present item (List.mem_cons_of_mem _ member)
    have own : emitted section_ aiven (path, values) =
        roundAction section_ path values aivenEntry := by simp [emitted, found]
    have headIff : (∀ entry, Dict.get? aiven path = some entry → Updatable section_ values entry) ↔
        Updatable section_ values aivenEntry := by simp [found]
    simp only [sectionAwareUpdater, List.forall_mem_cons, headIff]
    cases round : updateEntry section_ aiven path values with
    -- The round of the first entry raises, and with it the updater.
    | error fault =>
      have refused : ¬ Updatable section_ values aivenEntry := fun holds => by
        have := (updateEntry_ok_iff found).mpr ⟨holds, rfl⟩
        rw [round] at this
        cases this
      simp [refused, bind, Except.bind]
    | ok action =>
      obtain ⟨holds, rfl⟩ := (updateEntry_ok_iff found).mp round
      cases rest : sectionAwareUpdater section_ aiven entries with
      -- The updater raises in one of the later rounds.
      | error fault =>
        have refused : ¬ ∀ item ∈ entries, ∀ aivenEntry, Dict.get? aiven item.1 = some aivenEntry →
            Updatable section_ item.2 aivenEntry := fun holds => by
          have := (ih restPresent).mpr ⟨holds, rfl⟩
          rw [rest] at this
          cases this
        simp only [bind, Except.bind, reduceCtorEq, false_iff]
        exact fun both => refused both.1.2
      | ok collected =>
        obtain ⟨restHolds, rfl⟩ := (ih restPresent).mp rest
        rw [List.filterMap_cons, List.countP_cons, own]
        -- The first round adds to the actions or to the count.
        cases emittedHere : roundAction section_ path values aivenEntry with
        | none =>
          simp only [bind, Except.bind, pure, Except.pure, Except.ok.injEq, Option.isNone_none,
            if_true]
          exact ⟨fun same => ⟨⟨holds, restHolds⟩, same.symm⟩, fun both => both.2.symm⟩
        | some action =>
          simp only [bind, Except.bind, pure, Except.pure, Except.ok.injEq, Option.isNone_some,
            Bool.false_eq_true, if_false, Nat.add_zero]
          exact ⟨fun same => ⟨⟨holds, restHolds⟩, same.symm⟩, fun both => both.2.symm⟩

end AivenExamples.SecurityMigration
