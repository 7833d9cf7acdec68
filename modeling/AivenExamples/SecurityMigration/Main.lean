import AivenExamples.Data.Http
import AivenExamples.Data.Run
import AivenExamples.SecurityMigration.Sections

/-! The whole migration, from the first section that is read to the summary. -/

namespace AivenExamples.SecurityMigration

/-- What the summary reports for a section. -/
structure Counts where
  additions : Nat
  updates : Nat
  unchanged : Nat
  deriving DecidableEq

/-- What can be observed of a migration: its requests and what it reports. -/
inductive Event where
  | getOpendistro (section_ : String)
  | getAiven (section_ : String)
  | patch (section_ : String) (actions : List Action) (reply : Reply)
  /-- `Failed to get security configuration …` -/
  | failedToGet (section_ : String)
  /-- An exception that nothing catches. -/
  | uncaught
  /-- `Failed to add …` -/
  | failedToAdd (section_ : String)
  /-- `Failed to migrate …` -/
  | failedToMigrate (section_ : String)
  /-- `Failed to update …` -/
  | failedToUpdate (section_ : String)
  /-- `Migration completed` and the summary. -/
  | migrationCompleted (counts : List (String × Counts))

/-- How the two servers behave; every request occurs at most once in a run. -/
structure Servers where
  opendistro : String → Reply
  aiven : String → Reply
  patch : String → PatchKind → Reply

/-- The checks of the popped `_meta` of a section, `None` when it was missing. -/
def checkMeta (entry : String) (metadata : Json) : Except PyError Unit :=
  if metadata matches .null then .error (.valueError ("Missing _meta in " ++ entry))
  else do
    let version ← metadata.get "config_version" (.num 0)
    if !version.pyEq (.num 2) then
      .error (.valueError ("Unsupported config_version in " ++ entry))
    else
      -- The type has to be the name of the section.
      let type ← metadata.get "type" (.str "")
      if !type.pyEq (.str entry) then
        .error (.valueError ("Invalid type in _meta for " ++ entry))
      else return ()

section Reading

variable (decode : Json → Except PyError Json)

/--
`OpendistroSecurity.get`: the decoded section without its `_meta`, or `{}` for another `_id`.

`decode` stands for `json.loads(base64.b64decode(…).decode("utf-8"))`.
-/
def opendistroGet (entry : String) (reply : Reply) : Except PyError (Dict String Json) := do
  let r ← reply
  let d ← r.json
  let id ← d.get "_id" .null
  if id.pyEq (.str entry) then
    let source ← d.get "_source" (.obj [])
    let encoded ← source.get entry (.str "")
    let content ← decode encoded
    let (metadata, content) ← content.pop "_meta"
    checkMeta entry metadata
    return content
  -- Any other document counts as an empty section.
  else return []

/-- `AivenForOpensearchSecurity.get`: whatever JSON the server answers. -/
def aivenGet (reply : Reply) : Except PyError Json := do
  let r ← reply
  r.json

/-- The entries of a section; the analysis calls methods that only dictionaries have. -/
def asSection : Json → Except PyError Section
  | .obj fields => fields.mapM fun item =>
    match item.2 with
    | .obj entry => .ok (item.1, entry)
    | _ => .error .attributeError
  | _ => .error .attributeError

/-- Both configurations of one section as they were read. -/
structure Configuration where
  section_ : String
  opendistro : Dict String Json
  aiven : Json

/-- Reading one section from both servers. -/
def readSection (servers : Servers) (section_ : String) : Run Event Configuration := do
  Run.emit (.getOpendistro section_)
  let opendistro ←
    Run.attempt (opendistroGet decode section_ (servers.opendistro section_))
      (.failedToGet section_)
  -- Both reads share one handler, which ends the run.
  Run.emit (.getAiven section_)
  let aiven ← Run.attempt (aivenGet (servers.aiven section_)) (.failedToGet section_)
  return { section_, opendistro, aiven }

end Reading

/-- The selected entries of one section, next to the Aiven section they are compared with. -/
structure Plan where
  section_ : String
  aiven : Section
  actions : Actions

/-- The analysis of one section, outside of every handler. -/
def analyzeSection (order : SetOrder) (configuration : Configuration) : Run Event Plan := do
  let opendistro ← Run.attempt (asSection (.obj configuration.opendistro)) .uncaught
  let aiven ← Run.attempt (asSection configuration.aiven) .uncaught
  return {
    section_ := configuration.section_
    aiven
    actions := simpleActions order opendistro aiven
      (predefinedUntouchables configuration.section_) }

/-- Sending one patch request; a refused one and one that raises are reported and end the run. -/
def sendPatch (section_ : String) (actions : List Action) (reply : Reply) (refused raised : Event) :
    Run Event Unit := do
  Run.emit (.patch section_ actions reply)
  match reply with
  | .ok result =>
    -- The status decides, whatever the body says.
    if result.ok then return ()
    else
      Run.emit refused
      Run.stop
  | .error _ =>
    Run.emit raised
    Run.stop

/-- `if actions:` guards each of the two requests of a section. -/
def sendActions (section_ : String) (actions : List Action) (reply : Reply)
    (refused raised : Event) : Run Event Unit :=
  if actions.isEmpty then return () else sendPatch section_ actions reply refused raised

/-- Migrating one section: the additions, then the updates. -/
def migrateSection (servers : Servers) (plan : Plan) : Run Event (String × Counts) := do
  let section_ := plan.section_
  let additions := simpleAdder plan.actions.add
  -- The two requests report their failures in different words.
  sendActions section_ additions (servers.patch section_ .add)
    (.failedToAdd section_) (.failedToMigrate section_)
  let (updates, unchanged) ←
    Run.attempt (sectionAwareUpdater section_ plan.aiven plan.actions.update)
      (.failedToUpdate section_)
  sendActions section_ updates (servers.patch section_ .replace)
    (.failedToUpdate section_) (.failedToUpdate section_)
  return (section_, { additions := additions.length, updates := updates.length, unchanged })

/-- `main` from the point where both connection tests have passed. -/
def main (decode : Json → Except PyError Json) (order : SetOrder) (servers : Servers) :
    Run Event Unit := do
  -- All sections are read and analysed before the first one is changed.
  let configurations ← Run.forEach (readSection decode servers) securityConfigSections
  let plans ← Run.forEach (analyzeSection order) configurations
  let counts ← Run.forEach (migrateSection servers) plans
  Run.emit (.migrationCompleted counts)

end AivenExamples.SecurityMigration
