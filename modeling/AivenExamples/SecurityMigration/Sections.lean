import AivenExamples.Data.JsonPatch

/-! What the security migration decides and writes for one section of the two configurations. -/

namespace AivenExamples.SecurityMigration

/-- The sections in the order they are migrated. -/
def securityConfigSections : List String :=
  ["roles", "rolesmapping", "actiongroups", "tenants", "internalusers"]

/-- The user that manages security on the Aiven side. -/
def aivenSecurityManager : String := "os-sec-admin"

/-- One role, mapping, action group, tenant or user. -/
abbrev Entry := Dict String Json

/-- The entries of one section by name. -/
abbrev Section := Dict String Entry

/-- A section as parsing delivers it: distinct names, and distinct keys inside every entry. -/
structure WellFormedSection where
  entries : Section
  names_nodup : (Dict.keys entries).Nodup
  wellFormed : ∀ item ∈ entries, (Json.obj item.2).WellFormed

/-- The order in which the interpreter happens to iterate over a set of names. -/
structure SetOrder where
  arrange : List String → List String
  perm : ∀ names, (arrange names).Perm names

/-- An iteration that visits the names as they are listed. -/
def SetOrder.listed : SetOrder where
  arrange := id
  perm := List.Perm.refl

/-- All names of a section, and those for which one of the fields is set. -/
def untouchableIfFieldSet (entries : Section) (fields : List String) :
    List String × List String :=
  (Dict.keys entries,
    Dict.keys (entries.filter fun item =>
      fields.any fun field => ((Dict.get? item.2 field).getD (.bool false)).truthy))

/-- The names to create and the names to update; sets are lists without repetition. -/
def simpleAnalyzes (opendistro aiven : Section) (untouchables : List String) :
    List String × List String :=
  let (osEntries, osUnmovable) := untouchableIfFieldSet opendistro ["reserved", "static"]
  let (aivenEntries, aivenUntouchables) :=
    untouchableIfFieldSet aiven ["reserved", "static", "hidden"]
  -- The two sets of names are joined.
  let aivenUntouchables := aivenUntouchables ++ untouchables
  let validOsEntries := osEntries.filter fun name =>
    name ∉ osUnmovable ∧ name ∉ aivenUntouchables
  (validOsEntries.filter fun name => name ∉ aivenEntries,
    validOsEntries.filter fun name => name ∈ aivenEntries)

/-- The source entries to create and to update. -/
structure Actions where
  add : Section
  update : Section

/-- The dictionary comprehension `{name: opendistro[name] for name in names}`. -/
def selectEntries (opendistro : Section) (names : List String) : Section :=
  names.filterMap fun name => (Dict.get? opendistro name).map fun entry => (name, entry)

/-- The selected source entries, in the iteration order of the two sets of names. -/
def simpleActions (order : SetOrder) (opendistro aiven : Section) (untouchables : List String) :
    Actions :=
  let (new, updated) := simpleAnalyzes opendistro aiven untouchables
  { add := selectEntries opendistro (order.arrange new)
    update := selectEntries opendistro (order.arrange updated) }

/-- The names that are never touched in a section. -/
def predefinedUntouchables (section_ : String) : List String :=
  if section_ = "internalusers" then [aivenSecurityManager]
  else if section_ = "rolesmapping" then ["manage_snapshots"]
  else []

/-- `if d.pop(key, None): d[key] = False`. -/
def popFlag (d : Entry) (key : String) : Entry :=
  let popped := (Dict.get? d key).getD .null
  let d := Dict.erase d key
  -- The flag is put back, switched off, only where it was set.
  if popped.truthy then Dict.set d key (.bool false) else d

/-- The flags that are never migrated; a set `hidden` or `reserved` is replaced by `False`. -/
def inplaceFilterNonMigratableFields (d : Entry) : Entry :=
  -- The flag `static` goes without a trace.
  ["hidden", "reserved"].foldl popFlag (Dict.erase d "static")

/-- One emitted patch action. -/
structure Action where
  op : PatchKind
  path : String
  value : Entry

/-- The patch actions that create the missing entries. -/
def simpleAdder (entries : Section) : List Action :=
  entries.map fun item =>
    { op := .add, path := "/" ++ item.1, value := inplaceFilterNonMigratableFields item.2 }

/-- The filtered pair of entries; an Aiven entry that is missing or empty is an error. -/
def getFilteredForMigration (name : String) (entry : Entry) (aiven : Section) :
    Except PyError (Entry × Entry) :=
  let aivenEntry := (Dict.get? aiven name).getD []
  if aivenEntry.isEmpty then
    .error (.runtimeError ("Missing " ++ name ++ " in Aiven configuration"))
  else
    .ok (inplaceFilterNonMigratableFields entry, inplaceFilterNonMigratableFields aivenEntry)

/-- The method call `users.add(user)`: parsed JSON has no value with such a method. -/
def addMethod (_users : Json) (_user : String) : Except PyError Json :=
  .error .attributeError

/-- The part of the updater that keeps the security manager mapped. -/
def keepSecurityManager (osValues aivenValues : Entry) : Except PyError Entry := do
  let osValues :=
    if "users" ∈ Dict.keys osValues then osValues else Dict.set osValues "users" (.arr [])
  let aivenUsers ← (Json.obj aivenValues).item "users"
  -- The repair is made only where Aiven maps the manager.
  if ← aivenUsers.contains aivenSecurityManager then
    let osUsers ← (Json.obj osValues).item "users"
    if ← osUsers.contains aivenSecurityManager then return osValues
    else
      -- What looks like a set is a list.
      let users ← addMethod osUsers aivenSecurityManager
      return Dict.set osValues "users" users
  else return osValues

/-- Whether two mappings differ under some key, where two empty values never differ. -/
def mappingChanged (osValues aivenValues : Entry) : Bool :=
  (Dict.keys osValues ++ Dict.keys aivenValues).any fun key =>
    let osValue := (Dict.get? osValues key).getD .null
    let aivenValue := (Dict.get? aivenValues key).getD .null
    (osValue.truthy || aivenValue.truthy) && !osValue.pyEq aivenValue

/-- The section specific processing: the values to write and whether anything changes. -/
def sectionSpecific (section_ : String) (osValues aivenValues : Entry) :
    Except PyError (Entry × Bool) :=
  if section_ = "rolesmapping" then do
    let osValues ← keepSecurityManager osValues aivenValues
    return (osValues, mappingChanged osValues aivenValues)
  -- All other sections compare the entries as a whole.
  else return (osValues, !(Json.obj osValues).pyEq (.obj aivenValues))

/-- One round of the updater: nothing for an unchanged entry, else its replacement. -/
def updateEntry (section_ : String) (aiven : Section) (path : String) (values : Entry) :
    Except PyError (Option Action) := do
  let (osValues, aivenValues) ← getFilteredForMigration path values aiven
  let (osValues, changed) ← sectionSpecific section_ osValues aivenValues
  if changed then
    return some
      { op := .replace, path := "/" ++ path, value := Dict.update aivenValues osValues }
  else return none

/--
The replacements of a section and the number of unchanged entries.

The names are distinct, so the in-place filtering of one round is not seen by another.
-/
def sectionAwareUpdater (section_ : String) (aiven : Section) :
    Section → Except PyError (List Action × Nat)
  | [] => .ok ([], 0)
  | (path, values) :: entries => do
    let action ← updateEntry section_ aiven path values
    let (actions, skipped) ← sectionAwareUpdater section_ aiven entries
    match action with
    | some action => return (action :: actions, skipped)
    -- A round that emits nothing is one more unchanged entry.
    | none => return (actions, skipped + 1)

end AivenExamples.SecurityMigration
