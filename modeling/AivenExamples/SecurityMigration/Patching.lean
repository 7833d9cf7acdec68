import AivenExamples.SecurityMigration.Rerun

/-! What the operations of a run make of the Aiven section when they are applied as a JSON patch. -/

namespace AivenExamples.SecurityMigration

/-- A section as the document that the patch operations address. -/
def sectionDocument (entries : Section) : Dict String Json :=
  entries.map fun item => (item.1, .obj item.2)

/-- A member of the document is an entry of the section. -/
theorem sectionDocument_get? (entries : Section) (name : String) :
    Dict.get? (sectionDocument entries) name = (Dict.get? entries name).map .obj := by
  -- The document lists the entries in the same order.
  induction entries with
  | nil => rfl
  | cons item entries ih =>
    have rest : Dict.get? (entries.map fun item => (item.1, Json.obj item.2)) name =
        (Dict.get? entries name).map .obj := ih
    by_cases same : item.1 = name <;> simp [sectionDocument, Dict.get?_cons, same, rest]

/-- The operation as it is sent in the body of a request. -/
def Action.toPatchOp (action : Action) : PatchOp :=
  { op := action.op, path := action.path, value := .obj action.value }

/-- The entry reads the filtered source entry first and then the filtered Aiven entry. -/
def Overlaid (values aivenEntry entry : Entry) : Prop :=
  ∀ key, Dict.get? entry key =
    (Dict.get? (inplaceFilterNonMigratableFields values) key).or
      (Dict.get? (inplaceFilterNonMigratableFields aivenEntry) key)

section Run

variable {section_ : String} {order : SetOrder} {source aiven : WellFormedSection}
  (run : SectionRun section_ order source aiven)

/-- The Aiven section after the two requests of a run, the additions before the updates. -/
def patched : Option Json := do
  let document ← Json.applyPatch (.obj (sectionDocument aiven.entries))
    (run.additions.map Action.toPatchOp)
  Json.applyPatch document (run.updates.map Action.toPatchOp)

/-- The configuration that a run is meant to produce. -/
structure IntendedResult (after : Dict String Json) : Prop where
  added : ∀ name values, (name, values) ∈ run.chosen.add →
    Dict.get? after name = some (.obj (inplaceFilterNonMigratableFields values))
  updated : ∀ name values aivenEntry, (name, values) ∈ run.chosen.update →
    Dict.get? aiven.entries name = some aivenEntry → run.Replaces name →
      ∃ entry, Dict.get? after name = some (.obj entry) ∧ Overlaid values aivenEntry entry
  untouched : ∀ name, ¬ run.Adds name → ¬ run.Replaces name →
    Dict.get? after name = (Dict.get? aiven.entries name).map .obj

/-- The operations apply, produce the intended configuration and set no flag. -/
def Intended : Prop :=
  (∃ after, patched run = some (.obj after) ∧ IntendedResult run after) ∧
    ∀ action ∈ run.operations, ∀ flag, IsFlag flag → flagSet action.value flag = false

end Run

/--
Every entry that is written has a plain name, and a written mapping brings its own users.

Without users of its own a mapping may only meet an Aiven mapping with an empty user list.
-/
def Addressable (section_ : String) (source aiven : Section) : Prop :=
  ∀ name values, migratable source aiven (predefinedUntouchables section_) name →
    Dict.get? source name = some values →
    match Dict.get? aiven name with
    | none => JsonPointer.Plain name
    | some aivenEntry => EntriesAgree section_ values aivenEntry ∨
      (JsonPointer.Plain name ∧ (section_ = "rolesmapping" →
        "users" ∈ Dict.keys values ∨ Dict.get? aivenEntry "users" = some (.arr [])))

/-- No entry with a special name is written although the Aiven entry is already the overlay. -/
def SpecialWritesDiffer (section_ : String) (source aiven : Section) : Prop :=
  ∀ name values aivenEntry, migratable source aiven (predefinedUntouchables section_) name →
    Dict.get? source name = some values → Dict.get? aiven name = some aivenEntry →
    ¬ JsonPointer.Plain name → ¬ EntriesAgree section_ values aivenEntry →
    ¬ Overlaid values aivenEntry aivenEntry

/-- What is written is the overlay unless missing users displace a user list. -/
theorem overlaid_iff {section_ : String} {values aivenEntry : Entry}
    (distinct : (Dict.keys values).Nodup) :
    Overlaid values aivenEntry (Dict.update (inplaceFilterNonMigratableFields aivenEntry)
        (preparedValues section_ values)) ↔
      (section_ = "rolesmapping" →
        "users" ∈ Dict.keys values ∨ Dict.get? aivenEntry "users" = some (.arr [])) := by
  simp only [Overlaid, Dict.get?_update _ (preparedValues_nodup section_ distinct)]
  by_cases mapping : section_ = "rolesmapping"
  · -- Only the users can differ, and only when the default was filled in.
    simp only [mapping, true_imp_iff, preparedValues, if_true]
    constructor
    -- Users that the source lacks are written as an empty list.
    · intro overlay
      have users := overlay "users"
      rw [withUsers_users, sourceUsers] at users
      by_cases present : "users" ∈ Dict.keys values
      · exact Or.inl present
      · simp only [filter_users, Dict.get?_eq_none.mpr present] at users
        exact Or.inr users.symm
    · intro brings key
      by_cases users : key = "users"
      · subst users
        rw [withUsers_users, sourceUsers]
        cases found : Dict.get? values "users" with
        | some users => simp [found]
        | none =>
          -- The Aiven users are the empty list that the default writes.
          have empty := brings.resolve_left (Dict.get?_eq_none.mp found)
          simp [found, empty]
      · rw [withUsers_get?_of_ne _ users]
  · simp [mapping, preparedValues]

section Run

variable {section_ : String} {order : SetOrder} {source aiven : WellFormedSection}
  (run : SectionRun section_ order source aiven)

/-- The two requests of a run amount to one patch. -/
theorem patched_eq : patched run = Json.applyPatch (.obj (sectionDocument aiven.entries))
    (run.operations.map Action.toPatchOp) := by
  simp only [patched, Json.applyPatch, SectionRun.operations, List.map_append, List.foldlM_append]

/-- The operation with the name of its entry in place of a path. -/
def Action.named (nameOf : Action → String) (action : Action) : MemberOp :=
  { op := action.op, name := nameOf action, value := .obj action.value }

/-- The operations of a run carry names behind a slash. -/
theorem exists_nameOf : ∃ nameOf : Action → String,
    (∀ action ∈ run.operations, action.path = "/" ++ nameOf action) ∧
      run.operations.map Action.toPatchOp =
        (run.operations.map (Action.named nameOf)).map MemberOp.toPatchOp := by
  -- Every operation is about a migratable name, so a name can be chosen for it.
  have named : ∀ action ∈ run.operations, ∃ name,
      migratable source.entries aiven.entries (predefinedUntouchables section_) name ∧
        action.path = "/" ++ name := fun _ member => run.operation_migratable member
  choose! nameOf carried using named
  refine ⟨nameOf, fun action member => (carried action member).2, ?_⟩
  rw [List.map_map]
  refine List.map_congr_left fun action member => ?_
  simp [Action.toPatchOp, Action.named, MemberOp.toPatchOp, (carried action member).2]

/-- Names that are replaced differ from their Aiven entries. -/
theorem replaces_iff_differ {name : String} {values aivenEntry : Entry}
    (member : (name, values) ∈ run.chosen.update)
    (found : Dict.get? aiven.entries name = some aivenEntry) :
    run.Replaces name ↔ ¬ EntriesAgree section_ values aivenEntry := by
  have entry := (mem_selected_update_item order source aiven _).mp member
  -- The change test compares the two filtered entries key by key.
  rw [run.replaces_iff_changed member found, ← Bool.not_eq_false,
    unchanged_iff section_ (source.entry_nodup entry.2) (aiven.entry_nodup found)]

/-- The names of all operations are plain exactly when every entry that is written has one. -/
theorem plain_of_addressable (addressable : Addressable section_ source.entries aiven.entries)
    {name : String} (written : run.Adds name ∨ run.Replaces name) : JsonPointer.Plain name := by
  -- A created name is absent from Aiven, and a replaced one differs there.
  rcases written with adds | replaces
  · obtain ⟨carried, absent⟩ := (mem_selected_add order source aiven _).mp (run.adds_iff.mp adds)
    obtain ⟨values, there⟩ := Dict.mem_keys.mp (mem_keys_of_migratable carried)
    simpa [Dict.get?_eq_none.mpr absent] using addressable name values carried there
  · obtain ⟨values, member, _⟩ := run.replaces_iff.mp replaces
    obtain ⟨⟨carried, present⟩, there⟩ := (mem_selected_update_item order source aiven _).mp member
    obtain ⟨aivenEntry, found⟩ := Dict.mem_keys.mp present
    have condition := addressable name values carried there
    simp only [found] at condition
    exact (condition.resolve_left ((replaces_iff_differ run member found).mp replaces)).1

/-- The flags of everything that is written are not set. -/
theorem operations_unset : ∀ action ∈ run.operations, ∀ flag, IsFlag flag →
    flagSet action.value flag = false := by
  intro action member flag special
  -- Creations are filtered, and replacements merge two filtered entries.
  rcases List.mem_append.mp member with added | replaced
  · obtain ⟨name, values, _, rfl⟩ := run.mem_additions.mp added
    exact flagSet_filter values special
  · obtain ⟨name, values, aivenEntry, there, _, emits⟩ := run.mem_updates.mp replaced
    have entry := (mem_selected_update_item order source aiven _).mp there
    unfold roundAction at emits
    split at emits
    · cases emits
      exact flagSet_merged section_ aivenEntry (source.entry_nodup entry.2) special
    · cases emits

/-- An operation creates or replaces the name in its path. -/
theorem adds_or_replaces {action : Action} (member : action ∈ run.operations) {name : String}
    (path : action.path = "/" ++ name) : run.Adds name ∨ run.Replaces name := by
  rcases List.mem_append.mp member with added | replaced
  · exact Or.inl ⟨action, added, path⟩
  · exact Or.inr ⟨action, replaced, path⟩

section Named

variable {nameOf : Action → String}
  (named : ∀ action ∈ run.operations, action.path = "/" ++ nameOf action)

include named

/-- What an operation replaces is there. -/
theorem named_present : ∀ operation ∈ run.operations.map (Action.named nameOf),
    operation.op = .replace → operation.name ∈ Dict.keys (sectionDocument aiven.entries) := by
  -- Only updates replace, and they are about entries that Aiven has.
  intro operation member kind
  obtain ⟨action, there, rfl⟩ := List.mem_map.mp member
  rcases List.mem_append.mp there with added | replaced
  · obtain ⟨name, values, _, rfl⟩ := run.mem_additions.mp added
    cases kind
  · obtain ⟨values, chosen, _⟩ := run.replaces_iff.mp ⟨action, replaced, named action there⟩
    obtain ⟨aivenEntry, found⟩ :=
      Dict.mem_keys.mp (selected_update_present order source aiven _ _ chosen)
    exact Dict.mem_keys.mpr ⟨.obj aivenEntry, by simp [Action.named, sectionDocument_get?, found]⟩

/-- No two operations have the same name. -/
theorem named_nodup :
    (Dict.keys ((run.operations.map (Action.named nameOf)).map MemberOp.item)).Nodup := by
  -- Operations with one name would have one path.
  have paths : run.operations.map Action.path = (run.operations.map nameOf).map ("/" ++ ·) := by
    rw [List.map_map]
    exact List.map_congr_left fun action member => named action member
  have nodup := run.operations_nodup
  rw [paths] at nodup
  simpa [Dict.keys, Function.comp_def, MemberOp.item, Action.named] using nodup.of_map

/-- The one operation of a name assigns its value. -/
theorem named_found {action : Action} (member : action ∈ run.operations) {name : String}
    (path : action.path = "/" ++ name) :
    Dict.get? ((run.operations.map (Action.named nameOf)).map MemberOp.item) name =
      some (.obj action.value) := by
  -- The path tells the name, and no two operations have the same one.
  have same : nameOf action = name := path_injective ((named action member).symm.trans path)
  refine Dict.get?_of_mem (named_nodup run named) ?_
  rw [List.map_map]
  exact List.mem_map.mpr ⟨action, member, by simp [MemberOp.item, Action.named, same]⟩

/-- No operation assigns a name that is neither created nor replaced. -/
theorem named_missing {name : String} (notAdds : ¬ run.Adds name)
    (notReplaces : ¬ run.Replaces name) :
    Dict.get? ((run.operations.map (Action.named nameOf)).map MemberOp.item) name = none := by
  -- Every operation creates the entry that it names, or replaces it.
  rw [Dict.get?_eq_none]
  intro member
  simp only [Dict.keys, List.map_map, List.mem_map] at member
  obtain ⟨action, there, rfl⟩ := member
  exact (adds_or_replaces run there (named action there)).elim notAdds notReplaces

end Named

/-- What plain names lead to: every operation assigns the member of its name. -/
theorem patched_plain
    (plain : ∀ name, run.Adds name ∨ run.Replaces name → JsonPointer.Plain name) :
    ∃ after, patched run = some (.obj after) ∧
      (∀ action ∈ run.operations, ∀ name, action.path = "/" ++ name →
        Dict.get? after name = some (.obj action.value)) ∧
      (∀ name, ¬ run.Adds name → ¬ run.Replaces name →
        Dict.get? after name = (Dict.get? aiven.entries name).map .obj) := by
  obtain ⟨nameOf, named, operations_eq⟩ := exists_nameOf run
  have plainNames : ∀ operation ∈ run.operations.map (Action.named nameOf),
      JsonPointer.Plain operation.name := by
    intro operation member
    obtain ⟨action, there, rfl⟩ := List.mem_map.mp member
    exact plain _ (adds_or_replaces run there (named action there))
  have applied := MemberOp.applyPatch_plain plainNames (named_present run named)
  rw [← operations_eq, ← patched_eq] at applied
  -- Distinct names make every assignment the last one of its name.
  have assigned := fun name =>
    Dict.get?_update (sectionDocument aiven.entries) (named_nodup run named) name
  refine ⟨_, applied, fun action member name path => ?_, fun name notAdds notReplaces => ?_⟩
  · rw [assigned, named_found run named member path, Option.some_or]
  · rw [assigned, named_missing run named notAdds notReplaces, Option.none_or,
      sectionDocument_get?]

/-- A replacement carries the merge of its two entries. -/
theorem replacement_value {name : String} {values aivenEntry : Entry}
    (member : (name, values) ∈ run.chosen.update)
    (found : Dict.get? aiven.entries name = some aivenEntry) (replaces : run.Replaces name) :
    ∃ action ∈ run.operations, action.path = "/" ++ name ∧
      action.value = Dict.update (inplaceFilterNonMigratableFields aivenEntry)
        (preparedValues section_ values) := by
  -- The round emits an action exactly when the merge changes the entry.
  have changed := (run.replaces_iff_changed member found).mp replaces
  refine ⟨_, List.mem_append_right _ (run.mem_updates.mpr
    ⟨name, values, aivenEntry, member, found, by rw [roundAction, if_pos changed]⟩), rfl, rfl⟩

/-- Addressable entries get what the run intends for them. -/
theorem intended_of_addressable
    (addressable : Addressable section_ source.entries aiven.entries) : Intended run := by
  obtain ⟨after, applied, assigned, kept⟩ :=
    patched_plain run fun name written => plain_of_addressable run addressable written
  refine ⟨⟨after, applied, ?_, ?_, kept⟩, operations_unset run⟩
  -- A created member holds the filtered source entry.
  · intro name values member
    exact assigned ⟨.add, "/" ++ name, inplaceFilterNonMigratableFields values⟩
      (List.mem_append_left _ (run.mem_additions.mpr ⟨name, values, member, rfl⟩)) name rfl
  -- A replaced member holds the merge, which is the overlay by the condition on users.
  · intro name values aivenEntry member found replaces
    obtain ⟨action, sent, path, value⟩ := replacement_value run member found replaces
    refine ⟨_, assigned action sent name path, ?_⟩
    have entry := (mem_selected_update_item order source aiven _).mp member
    have condition := addressable name values entry.1.1 entry.2
    simp only [found] at condition
    rw [value, overlaid_iff (source.entry_nodup entry.2)]
    exact (condition.resolve_left ((replaces_iff_differ run member found).mp replaces)).2

/-- A result as intended leaves no written entry under a special name. -/
theorem plain_of_intended (differ : SpecialWritesDiffer section_ source.entries aiven.entries)
    (intended : Intended run) :
    ∀ name, run.Adds name ∨ run.Replaces name → JsonPointer.Plain name := by
  obtain ⟨⟨after, applied, result⟩, _⟩ := intended
  obtain ⟨nameOf, named, operations_eq⟩ := exists_nameOf run
  rw [patched_eq, operations_eq] at applied
  by_contra some
  -- No operation reaches the longest special name, so its entry stays as Aiven had it.
  have special : ∃ operation ∈ run.operations.map (Action.named nameOf),
      ¬ JsonPointer.Plain operation.name := by
    push Not at some
    obtain ⟨name, written, notPlain⟩ := some
    obtain ⟨action, member, path⟩ : ∃ action ∈ run.operations, action.path = "/" ++ name := by
      rcases written with ⟨action, member, path⟩ | ⟨action, member, path⟩
      · exact ⟨action, List.mem_append_left _ member, path⟩
      · exact ⟨action, List.mem_append_right _ member, path⟩
    have same : nameOf action = name := path_injective ((named action member).symm.trans path)
    exact ⟨_, List.mem_map_of_mem member, by simpa [Action.named, same] using notPlain⟩
  obtain ⟨longest, there, notPlain, bound⟩ := MemberOp.exists_longest_special special
  obtain ⟨final, same, kept⟩ := MemberOp.applyPatch_frame notPlain bound applied
  cases same
  rw [sectionDocument_get?] at kept
  obtain ⟨action, member, rfl⟩ := List.mem_map.mp there
  have path := named action member
  simp only [Action.named] at kept notPlain
  generalize nameOf action = name at path kept notPlain
  rcases List.mem_append.mp member with added | replaced
  -- A creation would have to bring an entry that Aiven did not have.
  · have adds := run.adds_iff.mp ⟨action, added, path⟩
    have absent := ((mem_selected_add order source aiven _).mp adds).2
    obtain ⟨⟨_, values⟩, chosen, rfl⟩ := List.mem_map.mp adds
    rw [result.added _ values chosen, Dict.get?_eq_none.mpr absent] at kept
    cases kept
  -- A replacement would have to leave the overlay where nothing was written.
  · have replaces : run.Replaces name := ⟨action, replaced, path⟩
    obtain ⟨values, chosen, _⟩ := run.replaces_iff.mp replaces
    obtain ⟨⟨carried, present⟩, there⟩ :=
      (mem_selected_update_item order source aiven _).mp chosen
    obtain ⟨aivenEntry, found⟩ := Dict.mem_keys.mp present
    obtain ⟨entry, bound, overlaid⟩ := result.updated name values aivenEntry chosen found replaces
    rw [bound, found, Option.map_some, Option.some.injEq, Json.obj.injEq] at kept
    subst kept
    exact differ name values entry carried there found notPlain
      ((replaces_iff_differ run chosen found).mp replaces) overlaid

/-- A result as intended means that all written entries are addressable. -/
theorem addressable_of_intended
    (differ : SpecialWritesDiffer section_ source.entries aiven.entries)
    (intended : Intended run) : Addressable section_ source.entries aiven.entries := by
  have plain := plain_of_intended run differ intended
  obtain ⟨⟨after, applied, result⟩, _⟩ := intended
  obtain ⟨final, appliedPlain, assigned, _⟩ := patched_plain run plain
  obtain rfl : final = after := by simpa using appliedPlain.symm.trans applied
  intro name values carried there
  cases found : Dict.get? aiven.entries name with
  | none =>
    have absent : name ∉ Dict.keys aiven.entries := Dict.get?_eq_none.mp found
    exact plain name (Or.inl (run.adds_iff.mpr
      ((mem_selected_add order source aiven _).mpr ⟨carried, absent⟩)))
  | some aivenEntry =>
    have chosen : (name, values) ∈ run.chosen.update :=
      (mem_selected_update_item order source aiven _).mpr
        ⟨⟨carried, Dict.mem_keys.mpr ⟨_, found⟩⟩, there⟩
    -- Entries that agree are not written at all.
    by_cases agree : EntriesAgree section_ values aivenEntry
    · exact Or.inl agree
    · have replaces := (replaces_iff_differ run chosen found).mpr agree
      refine Or.inr ⟨plain name (Or.inr replaces), ?_⟩
      -- What the server stores is what was sent, so the overlay shows which users were sent.
      obtain ⟨action, sent, path, value⟩ := replacement_value run chosen found replaces
      obtain ⟨entry, stored, overlaid⟩ :=
        result.updated name values aivenEntry chosen found replaces
      rw [assigned action sent name path, Option.some.injEq, Json.obj.injEq] at stored
      rw [← stored, value, overlaid_iff (source.entry_nodup there)] at overlaid
      exact overlaid

/--
The operations produce the intended configuration exactly when what they write is addressable.

The converse leaves out writes to special names that would not have changed their entry anyway.
-/
theorem intended_iff {section_ : String} {order : SetOrder} {source aiven : WellFormedSection}
    (run : SectionRun section_ order source aiven) :
    (Addressable section_ source.entries aiven.entries → Intended run) ∧
      (SpecialWritesDiffer section_ source.entries aiven.entries →
        (Intended run ↔ Addressable section_ source.entries aiven.entries)) :=
  ⟨intended_of_addressable run,
    fun differ => ⟨addressable_of_intended run differ, intended_of_addressable run⟩⟩

end Run

/-- A section without entries. -/
def noRoles : WellFormedSection where
  entries := []
  names_nodup := by simp
  wellFormed := by simp

/-- Migrating a role to an Aiven section that does not have it. -/
def addingRun (name : String) : SectionRun "roles" .listed
    (roleOf name [("cluster_permissions", "read")] permission_nodup) noRoles where
  updates := []
  unchanged := 0
  completes := rfl

/-- A role with a plain name is created as intended. -/
theorem addingRun_intended : Intended (addingRun "reader") := by
  refine (intended_iff _).1 fun name values _ there => ?_
  -- The section has the one role.
  obtain ⟨rfl, _⟩ : "reader" = name ∧ _ = values := by
    simpa [roleOf, Dict.get?_cons] using there
  show JsonPointer.Plain "reader"
  decide

/-- The path of a role with a slash in its name addresses a member that does not exist. -/
theorem addingRun_counterexample : ¬ Intended (addingRun "team/reader") := by
  intro intended
  obtain ⟨⟨after, applied, _⟩, _⟩ := intended
  -- The member above the one that is addressed does not exist.
  have refused : patched (addingRun "team/reader") = none := rfl
  rw [refused] at applied
  cases applied

end AivenExamples.SecurityMigration
