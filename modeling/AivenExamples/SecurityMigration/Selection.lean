import AivenExamples.SecurityMigration.UpdaterLaws

/-! Which source entries are created, which are updated or kept, and which are left out. -/

namespace AivenExamples.SecurityMigration

/-- Whether a flag of an entry is set. -/
def flagSet (entry : Entry) (field : String) : Bool :=
  ((Dict.get? entry field).getD (.bool false)).truthy

/-- A source entry that exists and is neither reserved nor static. -/
def movable (source : Section) (name : String) : Bool :=
  match Dict.get? source name with
  | some entry => !(flagSet entry "reserved" || flagSet entry "static")
  | none => false

/-- An Aiven entry that exists and is reserved, static or hidden. -/
def protectedIn (aiven : Section) (name : String) : Bool :=
  match Dict.get? aiven name with
  | some entry => flagSet entry "reserved" || flagSet entry "static" || flagSet entry "hidden"
  | none => false

/-- A source entry that the migration has to carry over. -/
def migratable (source aiven : Section) (untouchables : List String) (name : String) : Bool :=
  movable source name && !protectedIn aiven name && decide (name ∉ untouchables)

/-- A name is reported exactly when its entry has one of the fields set. -/
theorem mem_untouchableIfFieldSet {entries : Section} (distinct : (Dict.keys entries).Nodup)
    (fields : List String) (name : String) :
    name ∈ (untouchableIfFieldSet entries fields).2 ↔
      ∃ entry, Dict.get? entries name = some entry ∧ ∃ field ∈ fields, flagSet entry field := by
  -- With distinct names the entries of the list are those that are looked up.
  simp only [untouchableIfFieldSet, Dict.keys, List.mem_map, List.mem_filter, List.any_eq_true]
  constructor
  · intro reported
    obtain ⟨⟨_, entry⟩, ⟨member, set⟩, rfl⟩ := reported
    exact ⟨entry, Dict.get?_of_mem distinct member, set⟩
  · intro stored
    obtain ⟨entry, found, set⟩ := stored
    exact ⟨(name, entry), ⟨Dict.mem_of_get? found, set⟩, rfl⟩

/-- The source names that survive both scans and the exclusion table are the migratable ones. -/
theorem simpleAnalyzes_eq {source aiven : Section} (sourceDistinct : (Dict.keys source).Nodup)
    (aivenDistinct : (Dict.keys aiven).Nodup) (untouchables : List String) :
    simpleAnalyzes source aiven untouchables =
      (((Dict.keys source).filter (migratable source aiven untouchables)).filter
          fun name => decide (name ∉ Dict.keys aiven),
        ((Dict.keys source).filter (migratable source aiven untouchables)).filter
          fun name => decide (name ∈ Dict.keys aiven)) := by
  have valid : ∀ name ∈ Dict.keys source,
      (decide (name ∉ (untouchableIfFieldSet source ["reserved", "static"]).2 ∧
        name ∉ (untouchableIfFieldSet aiven ["reserved", "static", "hidden"]).2 ++ untouchables)) =
      migratable source aiven untouchables name := by
    -- Both scans look the name up and test the same flags.
    intro name member
    obtain ⟨entry, found⟩ := Dict.mem_keys.mp member
    rw [Bool.eq_iff_iff]
    simp only [decide_eq_true_eq, List.mem_append, not_or, mem_untouchableIfFieldSet sourceDistinct,
      mem_untouchableIfFieldSet aivenDistinct, migratable, movable, protectedIn, found]
    cases target : Dict.get? aiven name <;> simp [and_assoc]
  simp only [simpleAnalyzes, untouchableIfFieldSet] at valid ⊢
  rw [List.filter_congr valid]
  rfl

/-- The selected entries are listed under exactly the requested names. -/
theorem keys_selectEntries {source : Section} {names : List String}
    (known : ∀ name ∈ names, name ∈ Dict.keys source) :
    Dict.keys (selectEntries source names) = names := by
  -- Every known name finds its entry.
  induction names with
  | nil => rfl
  | cons name names ih =>
    obtain ⟨entry, found⟩ := Dict.mem_keys.mp (known name (by simp))
    have rest := ih fun other member => known other (List.mem_cons_of_mem _ member)
    simpa [selectEntries, found] using rest

/-- A selected entry is the source entry of its name. -/
theorem mem_selectEntries {source : Section} {names : List String} {name : String} {entry : Entry} :
    (name, entry) ∈ selectEntries source names ↔
      name ∈ names ∧ Dict.get? source name = some entry := by
  -- The comprehension looks every name up.
  simp only [selectEntries, List.mem_filterMap, Option.map_eq_some_iff, Prod.mk.injEq]
  constructor
  · intro chosen
    obtain ⟨_, member, _, found, rfl, rfl⟩ := chosen
    exact ⟨member, found⟩
  · intro named
    obtain ⟨member, found⟩ := named
    exact ⟨name, member, entry, found, rfl, rfl⟩

/-- A selected entry is the source entry of a selected name. -/
theorem mem_selectEntries_iff {source : Section} {names : List String} {name : String}
    {entry : Entry} :
    (name, entry) ∈ selectEntries source names ↔
      name ∈ Dict.keys (selectEntries source names) ∧ Dict.get? source name = some entry := by
  constructor
  · intro member
    exact ⟨List.mem_map_of_mem (f := Prod.fst) member, (mem_selectEntries.mp member).2⟩
  · -- A name that is selected is selected with the entry found under it.
    intro chosen
    obtain ⟨member, found⟩ := chosen
    obtain ⟨⟨_, _⟩, there, rfl⟩ := List.mem_map.mp member
    exact mem_selectEntries.mpr ⟨(mem_selectEntries.mp there).1, found⟩

/-- A migratable name is in particular a name of the source. -/
theorem mem_keys_of_migratable {source aiven : Section} {untouchables : List String} {name : String}
    (carried : migratable source aiven untouchables name = true) : name ∈ Dict.keys source := by
  rw [Dict.mem_keys]
  -- A name without a source entry is not movable.
  cases found : Dict.get? source name with
  | some entry => exact ⟨entry, rfl⟩
  | none => simp [migratable, movable, found] at carried

section Selected

variable (order : SetOrder) (source aiven : WellFormedSection) (untouchables : List String)

/-- The selection for two well formed sections. -/
def selected : Actions := simpleActions order source.entries aiven.entries untouchables

/-- The selected names, in some order, are the migratable names on one side of the Aiven section. -/
theorem selected_perm :
    (Dict.keys (selected order source aiven untouchables).add).Perm
        (((Dict.keys source.entries).filter
          (migratable source.entries aiven.entries untouchables)).filter
            fun name => decide (name ∉ Dict.keys aiven.entries)) ∧
      (Dict.keys (selected order source aiven untouchables).update).Perm
        (((Dict.keys source.entries).filter
          (migratable source.entries aiven.entries untouchables)).filter
            fun name => decide (name ∈ Dict.keys aiven.entries)) := by
  -- Selecting entries keeps the requested names, and iteration only reorders them.
  simp only [selected, simpleActions,
    simpleAnalyzes_eq source.names_nodup aiven.names_nodup untouchables]
  have arranged : ∀ p q : String → Bool,
      (Dict.keys (selectEntries source.entries
        (order.arrange (((Dict.keys source.entries).filter p).filter q)))).Perm
      (((Dict.keys source.entries).filter p).filter q) := by
    intro p q
    rw [keys_selectEntries]
    · exact order.perm _
    · intro name member
      rw [(order.perm _).mem_iff] at member
      exact List.mem_of_mem_filter (List.mem_of_mem_filter member)
  exact ⟨arranged _ _, arranged _ _⟩

/-- The names of the entries to create. -/
theorem mem_selected_add {name : String} :
    name ∈ Dict.keys (selected order source aiven untouchables).add ↔
      migratable source.entries aiven.entries untouchables name ∧
        name ∉ Dict.keys aiven.entries := by
  -- The selection is a rearrangement, and migratable names are names of the source.
  rw [(selected_perm order source aiven untouchables).1.mem_iff]
  simp only [List.mem_filter, decide_eq_true_eq]
  exact ⟨fun both => ⟨both.1.2, both.2⟩,
    fun both => ⟨⟨mem_keys_of_migratable both.1, both.1⟩, both.2⟩⟩

/-- The names of the entries to update. -/
theorem mem_selected_update {name : String} :
    name ∈ Dict.keys (selected order source aiven untouchables).update ↔
      migratable source.entries aiven.entries untouchables name ∧
        name ∈ Dict.keys aiven.entries := by
  -- As for the names to create, but present in the Aiven section.
  rw [(selected_perm order source aiven untouchables).2.mem_iff]
  simp only [List.mem_filter, decide_eq_true_eq]
  exact ⟨fun both => ⟨both.1.2, both.2⟩,
    fun both => ⟨⟨mem_keys_of_migratable both.1, both.1⟩, both.2⟩⟩

/-- The names to create and the names to update are distinct, together and among themselves. -/
theorem selected_nodup :
    (Dict.keys (selected order source aiven untouchables).add ++
      Dict.keys (selected order source aiven untouchables).update).Nodup := by
  -- A name to create is absent from the Aiven section, a name to update is present.
  have perms := selected_perm order source aiven untouchables
  refine List.nodup_append.mpr ⟨?_, ?_, ?_⟩
  · exact perms.1.nodup_iff.mpr ((source.names_nodup.filter _).filter _)
  · exact perms.2.nodup_iff.mpr ((source.names_nodup.filter _).filter _)
  · intro name created other updated same
    subst same
    exact ((mem_selected_add order source aiven untouchables).mp created).2
      ((mem_selected_update order source aiven untouchables).mp updated).2

/-- Creations and updates together are as many as the migratable entries. -/
theorem selected_length :
    (selected order source aiven untouchables).add.length +
        (selected order source aiven untouchables).update.length =
      ((Dict.keys source.entries).filter
        (migratable source.entries aiven.entries untouchables)).length := by
  -- The two filters are complementary, and reordering keeps the lengths.
  obtain ⟨addPerm, updatePerm⟩ := selected_perm order source aiven untouchables
  have addLength := addPerm.length_eq
  have updateLength := updatePerm.length_eq
  have split := List.length_eq_countP_add_countP
    (fun name => decide (name ∈ Dict.keys aiven.entries))
    (l := (Dict.keys source.entries).filter (migratable source.entries aiven.entries untouchables))
  simp only [Dict.length_keys, ← List.countP_eq_length_filter, decide_eq_true_eq]
    at addLength updateLength split ⊢
  omega

/-- The entries to create are the source entries of the names to create. -/
theorem mem_selected_add_item {name : String} {values : Entry} :
    (name, values) ∈ (selected order source aiven untouchables).add ↔
      (migratable source.entries aiven.entries untouchables name ∧
        name ∉ Dict.keys aiven.entries) ∧ Dict.get? source.entries name = some values := by
  -- The names are those of the selection, and the entries those of the source.
  rw [← mem_selected_add order source aiven untouchables, selected, simpleActions]
  exact mem_selectEntries_iff

/-- The entries to update are the source entries of the names to update. -/
theorem mem_selected_update_item {name : String} {values : Entry} :
    (name, values) ∈ (selected order source aiven untouchables).update ↔
      (migratable source.entries aiven.entries untouchables name ∧
        name ∈ Dict.keys aiven.entries) ∧ Dict.get? source.entries name = some values := by
  rw [← mem_selected_update order source aiven untouchables, selected, simpleActions]
  exact mem_selectEntries_iff

/-- Every entry to update is present in the Aiven section. -/
theorem selected_update_present :
    ∀ item ∈ (selected order source aiven untouchables).update,
      item.1 ∈ Dict.keys aiven.entries := fun _ member =>
  ((mem_selected_update order source aiven untouchables).mp
    (List.mem_map_of_mem (f := Prod.fst) member)).2

end Selected

/-- The paths of the creations are the names to create. -/
theorem simpleAdder_paths (entries : Section) :
    (simpleAdder entries).map Action.path = (Dict.keys entries).map ("/" ++ ·) := by
  simp [simpleAdder, Dict.keys]

/-- Two names that give the same path are the same. -/
theorem path_injective : Function.Injective fun name : String => "/" ++ name := by
  intro first second same
  -- The names are what follows the slash.
  have chars := congrArg String.toList same
  exact String.toList_inj.mp (by simpa using chars)

/-- A round emits its action under the path of its entry. -/
theorem emitted_path {section_ : String} {aiven : Section} {item : String × Entry} {action : Action}
    (emits : emitted section_ aiven item = some action) : action.path = "/" ++ item.1 := by
  unfold emitted roundAction at emits
  -- A round that emits at all emits its own path.
  split at emits
  · cases emits
    rfl
  · cases emits

/-- The paths of the replacements are among the names to update, in their order. -/
theorem emitted_paths_sublist (section_ : String) (aiven entries : Section) :
    ((entries.filterMap (emitted section_ aiven)).map Action.path).Sublist
      ((Dict.keys entries).map ("/" ++ ·)) := by
  -- A round adds the path of its entry, or is passed over.
  induction entries with
  | nil => simp
  | cons item entries ih =>
    cases emits : emitted section_ aiven item with
    | none => simpa [List.filterMap_cons, emits] using ih.cons _
    | some action =>
      simpa [List.filterMap_cons, emits, emitted_path emits] using ih.cons_cons ("/" ++ item.1)

/-- A name is replaced exactly when the round of one of its entries emits something. -/
theorem replaced_iff {section_ : String} {aiven entries : Section} {name : String} :
    (∃ action ∈ entries.filterMap (emitted section_ aiven), action.path = "/" ++ name) ↔
      ∃ values, (name, values) ∈ entries ∧ (emitted section_ aiven (name, values)).isSome := by
  constructor
  -- The path of the action tells from which round it stems.
  · intro replaced
    obtain ⟨action, member, path⟩ := replaced
    obtain ⟨⟨other, values⟩, there, emits⟩ := List.mem_filterMap.mp member
    obtain rfl : other = name := path_injective ((emitted_path emits).symm.trans path)
    exact ⟨values, there, by simp [emits]⟩
  · intro round
    obtain ⟨values, there, some⟩ := round
    obtain ⟨action, emits⟩ := Option.isSome_iff_exists.mp some
    exact ⟨action, List.mem_filterMap.mpr ⟨_, there, emits⟩, emitted_path emits⟩

/-- A pass over one section whose updater completes. -/
structure SectionRun (section_ : String) (order : SetOrder) (source aiven : WellFormedSection) where
  updates : List Action
  unchanged : Nat
  completes : sectionAwareUpdater section_ aiven.entries
    (selected order source aiven (predefinedUntouchables section_)).update =
      .ok (updates, unchanged)

namespace SectionRun

variable {section_ : String} {order : SetOrder} {source aiven : WellFormedSection}
  (run : SectionRun section_ order source aiven)

/-- The selected source entries of the section. -/
def chosen (_ : SectionRun section_ order source aiven) : Actions :=
  selected order source aiven (predefinedUntouchables section_)

/-- The operations that create entries. -/
def additions : List Action := simpleAdder run.chosen.add

/-- All operations that are sent for the section. -/
def operations : List Action := run.additions ++ run.updates

/-- The name has an operation that creates it. -/
def Adds (name : String) : Prop := ∃ action ∈ run.additions, action.path = "/" ++ name

/-- The name has an operation that replaces it. -/
def Replaces (name : String) : Prop := ∃ action ∈ run.updates, action.path = "/" ++ name

/-- The name has a round of the updater that finds nothing to change. -/
def CountsUnchanged (name : String) : Prop :=
  ∃ values, (name, values) ∈ run.chosen.update ∧
    updateEntry section_ aiven.entries name values = .ok none

/-- Every round of the updater succeeded. -/
theorem updatable : ∀ item ∈ run.chosen.update, ∀ aivenEntry,
    Dict.get? aiven.entries item.1 = some aivenEntry → Updatable section_ item.2 aivenEntry :=
  ((sectionAwareUpdater_ok_iff (selected_update_present order source aiven _)).mp
    run.completes).1

/-- The replacements are what the rounds emitted. -/
theorem updates_eq : run.updates = run.chosen.update.filterMap (emitted section_ aiven.entries) :=
  (Prod.mk.inj ((sectionAwareUpdater_ok_iff (selected_update_present order source aiven _)).mp
    run.completes).2).1

/-- The rounds that emitted nothing are counted. -/
theorem unchanged_eq : run.unchanged =
    run.chosen.update.countP fun item => (emitted section_ aiven.entries item).isNone :=
  (Prod.mk.inj ((sectionAwareUpdater_ok_iff (selected_update_present order source aiven _)).mp
    run.completes).2).2

/-- The names with an operation that creates them. -/
theorem adds_iff {name : String} : run.Adds name ↔ name ∈ Dict.keys run.chosen.add := by
  unfold Adds additions
  rw [← List.mem_map, simpleAdder_paths, List.mem_map_of_injective path_injective]

/-- The names with an operation that replaces them. -/
theorem replaces_iff {name : String} : run.Replaces name ↔
    ∃ values, (name, values) ∈ run.chosen.update ∧
      (emitted section_ aiven.entries (name, values)).isSome := by
  unfold Replaces
  rw [updates_eq, replaced_iff]

/-- A round finds nothing to change exactly when it emits nothing. -/
theorem countsUnchanged_iff {name : String} : run.CountsUnchanged name ↔
    ∃ values, (name, values) ∈ run.chosen.update ∧
      emitted section_ aiven.entries (name, values) = none := by
  -- The rounds of a completed run succeed, so they emit an action or nothing.
  refine exists_congr fun values => and_congr_right fun member => ?_
  obtain ⟨aivenEntry, found⟩ :=
    Dict.mem_keys.mp (selected_update_present order source aiven _ _ member)
  rw [updateEntry_ok_iff found, and_iff_right (run.updatable _ member _ found), eq_comm]
  simp [emitted, found]

/-- The names to update are those that are replaced or counted unchanged. -/
theorem replaces_or_countsUnchanged_iff {name : String} :
    run.Replaces name ∨ run.CountsUnchanged name ↔ name ∈ Dict.keys run.chosen.update := by
  rw [replaces_iff, countsUnchanged_iff, ← exists_or]
  -- Of every round one of the two is true.
  simp only [← and_or_left, Dict.keys, List.mem_map, Prod.exists, exists_and_right,
    exists_eq_right]
  refine exists_congr fun values => and_iff_left ?_
  cases emitted section_ aiven.entries (name, values) <;> simp

/-- No name is both replaced and counted unchanged. -/
theorem not_replaces_and_countsUnchanged (name : String) :
    ¬ (run.Replaces name ∧ run.CountsUnchanged name) := by
  rw [replaces_iff, countsUnchanged_iff]
  intro both
  obtain ⟨⟨first, firstMember, emits⟩, ⟨second, secondMember, silent⟩⟩ := both
  -- Both rounds are about the one source entry of the name.
  have firstFound := ((mem_selected_update_item order source aiven _).mp firstMember).2
  have secondFound := ((mem_selected_update_item order source aiven _).mp secondMember).2
  obtain rfl : first = second := Option.some.inj (firstFound.symm.trans secondFound)
  simp [silent] at emits

/-- The operations stand for distinct names. -/
theorem operations_nodup : (run.operations.map Action.path).Nodup := by
  unfold operations additions
  rw [List.map_append, simpleAdder_paths, updates_eq]
  -- The replacements are some of the names to update, which differ from those to create.
  refine List.Nodup.sublist ((List.Sublist.refl _).append (emitted_paths_sublist _ _ _)) ?_
  rw [← List.map_append]
  exact (selected_nodup order source aiven _).map path_injective

/-- Every operation is about a migratable name. -/
theorem operation_migratable {action : Action} (member : action ∈ run.operations) :
    ∃ name, migratable source.entries aiven.entries (predefinedUntouchables section_) name ∧
      action.path = "/" ++ name := by
  -- Creations and replacements both stem from the selection.
  rcases List.mem_append.mp member with added | replaced
  · obtain ⟨item, there, rfl⟩ := List.mem_map.mp added
    exact ⟨item.1, ((mem_selected_add order source aiven _).mp (List.mem_map_of_mem there)).1, rfl⟩
  · rw [updates_eq] at replaced
    obtain ⟨item, there, emits⟩ := List.mem_filterMap.mp replaced
    exact ⟨item.1, ((mem_selected_update order source aiven _).mp (List.mem_map_of_mem there)).1,
      emitted_path emits⟩

/-- The three counts add up to the number of migratable entries. -/
theorem counts_total : run.additions.length + run.updates.length + run.unchanged =
    ((Dict.keys source.entries).filter
      (migratable source.entries aiven.entries (predefinedUntouchables section_))).length := by
  -- Every round either emits an action or is counted.
  rw [← selected_length order source aiven, updates_eq, unchanged_eq,
    List.length_filterMap_eq_countP]
  have rounds := List.length_eq_countP_add_countP
    (fun item => (emitted section_ aiven.entries item).isSome) (l := run.chosen.update)
  have silent : (fun item => decide ¬ (emitted section_ aiven.entries item).isSome = true) =
      fun item => (emitted section_ aiven.entries item).isNone := by
    funext item
    cases emitted section_ aiven.entries item <;> rfl
  rw [silent] at rounds
  simp only [additions, simpleAdder, List.length_map, chosen] at rounds ⊢
  omega

/-- The operations that create entries. -/
theorem mem_additions {action : Action} : action ∈ run.additions ↔
    ∃ name values, (name, values) ∈ run.chosen.add ∧
      action = ⟨.add, "/" ++ name, inplaceFilterNonMigratableFields values⟩ := by
  simp only [additions, simpleAdder, List.mem_map, Prod.exists, eq_comm]

/-- The operations that replace entries. -/
theorem mem_updates {action : Action} : action ∈ run.updates ↔
    ∃ name values aivenEntry, (name, values) ∈ run.chosen.update ∧
      Dict.get? aiven.entries name = some aivenEntry ∧
      roundAction section_ name values aivenEntry = some action := by
  -- The Aiven entry of a round is there, since the name was selected for an update.
  rw [updates_eq, List.mem_filterMap, Prod.exists]
  refine exists_congr fun name => exists_congr fun values => ?_
  constructor
  · intro updated
    obtain ⟨member, emits⟩ := updated
    obtain ⟨aivenEntry, found⟩ :=
      Dict.mem_keys.mp (selected_update_present order source aiven _ _ member)
    exact ⟨aivenEntry, member, found, by simpa [emitted, found] using emits⟩
  · intro updated
    obtain ⟨aivenEntry, member, found, emits⟩ := updated
    exact ⟨member, by simpa [emitted, found] using emits⟩

/-- An entry to update is replaced exactly when the change test finds a difference. -/
theorem replaces_iff_changed {name : String} {values aivenEntry : Entry}
    (member : (name, values) ∈ run.chosen.update)
    (found : Dict.get? aiven.entries name = some aivenEntry) :
    run.Replaces name ↔ sectionChanged section_ (preparedValues section_ values)
      (inplaceFilterNonMigratableFields aivenEntry) = true := by
  have entry := (mem_selected_update_item order source aiven _).mp member
  rw [replaces_iff]
  constructor
  -- The source has one entry under the name, so it is the one that was replaced.
  · intro replaced
    obtain ⟨other, there, emits⟩ := replaced
    have same := ((mem_selected_update_item order source aiven _).mp there).2
    obtain rfl := Option.some.inj (same.symm.trans entry.2)
    by_contra unchanged
    simp [emitted, found, roundAction, unchanged] at emits
  · intro changed
    exact ⟨values, member, by simp [emitted, found, roundAction, changed]⟩

end SectionRun

/-- A section with one role whose fields are texts. -/
def roleOf (name : String) (fields : Dict String String) (distinct : (Dict.keys fields).Nodup) :
    WellFormedSection where
  entries := [(name, fields.map fun field => (field.1, .str field.2))]
  names_nodup := by simp
  wellFormed := by
    simp only [List.mem_singleton, forall_eq, Json.WellFormed, Json.wellFormedFields_iff]
    refine ⟨by simpa [Dict.keys, Function.comp_def] using distinct, fun item member => ?_⟩
    obtain ⟨field, _, rfl⟩ := List.mem_map.mp member
    trivial

/-- A role with a permission has one field. -/
theorem permission_nodup : (Dict.keys [("cluster_permissions", "read")]).Nodup := by decide

/-- Roles with one permission each. -/
def rolesOf (roles : Dict String String) (distinct : (Dict.keys roles).Nodup) :
    WellFormedSection where
  entries := roles.map fun role => (role.1, [("cluster_permissions", .str role.2)])
  names_nodup := by simpa [Dict.keys, Function.comp_def] using distinct
  wellFormed := by
    intro item member
    obtain ⟨role, _, rfl⟩ := List.mem_map.mp member
    simp [Json.WellFormed, Json.WellFormedFields]

/-- One role is missing in Aiven, one has another permission there, and one is the same. -/
def threeRolesRun : SectionRun "roles" .listed
    (rolesOf [("writer", "write"), ("reader", "read"), ("auditor", "read")] (by decide))
    (rolesOf [("auditor", "read"), ("reader", "all")] (by decide)) where
  updates := [⟨.replace, "/reader", [("cluster_permissions", .str "read")]⟩]
  unchanged := 1
  completes := rfl

end AivenExamples.SecurityMigration
