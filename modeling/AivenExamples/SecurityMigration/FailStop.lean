import AivenExamples.SecurityMigration.Main

/-! Which failures stop the migration before it changes anything or reports success. -/

namespace AivenExamples.SecurityMigration

/-- The event changes the target or reports success. -/
def Event.Proceeds : Event → Prop
  | .patch _ _ _ => True
  | .migrationCompleted _ => True
  | _ => False

/-- The event is a patch request that was not accepted. -/
def Event.Rejected : Event → Prop
  | .patch _ _ reply => reply.accepted = false
  | _ => False

section Reads

variable (decode : Json → Except PyError Json) (section_ : String)

/-- The document belongs to the section and its content has a valid `_meta`. -/
def ValidContent (document content : Dict String Json) : Prop :=
  Dict.get? document "_id" = some (.str section_) ∧
  ∃ source metadata version,
    (Dict.get? document "_source").getD (.obj []) = .obj source ∧
    decode ((Dict.get? source section_).getD (.str "")) = .ok (.obj content) ∧
    Dict.get? content "_meta" = some (.obj metadata) ∧
    Dict.get? metadata "config_version" = some version ∧ version.pyEq (.num 2) = true ∧
    Dict.get? metadata "type" = some (.str section_)

/-- The read is answered with success and a valid document of the section. -/
def ValidRead (reply : Reply) : Prop :=
  ∃ response document content, reply = .ok response ∧ response.ok = true ∧
    response.body = some (.obj document) ∧ ValidContent decode section_ document content

/--
A failure that reading a section does not notice.

Either a JSON object without the right `_id` is answered, or a valid document with an error status.
-/
def Swallowed (reply : Reply) : Prop :=
  ∃ response document, reply = .ok response ∧ response.body = some (.obj document) ∧
    (Dict.get? document "_id" ≠ some (.str section_) ∨
      (response.ok = false ∧ ∃ content, ValidContent decode section_ document content))

end Reads

/-- A run with an invalid read proceeds with nothing, and neither does one with a rejected patch. -/
structure FailStop (decode : Json → Except PyError Json) (order : SetOrder) (servers : Servers) :
    Prop where
  reads : (∃ section_ ∈ securityConfigSections,
      ¬ ValidRead decode section_ (servers.opendistro section_)) →
    (main decode order servers).Always fun event => ¬ event.Proceeds
  patches : (main decode order servers).events.Pairwise fun earlier later =>
    earlier.Rejected → ¬ later.Proceeds

/-- A value equals a text only when it is that text. -/
theorem pyEq_str_iff {value : Json} {text : String} :
    value.pyEq (.str text) = true ↔ value = .str text := by
  -- No other kind of value is ever equal to a text.
  cases value <;> simp [Json.pyEq]

/-- The metadata that passes the checks. -/
theorem checkMeta_ok {entry : String} (named : entry ≠ "") {metadata : Json}
    (passed : checkMeta entry metadata = .ok ()) :
    ∃ fields version, metadata = .obj fields ∧
      Dict.get? fields "config_version" = some version ∧ version.pyEq (.num 2) = true ∧
      Dict.get? fields "type" = some (.str entry) := by
  -- The defaults for missing keys are refused just like wrong values.
  unfold checkMeta at passed
  split at passed
  · cases passed
  · obtain ⟨version, versionRead, passed⟩ := bind_eq_ok.mp passed
    obtain ⟨fields, rfl, rfl⟩ := Json.get_eq_ok.mp versionRead
    split at passed
    · cases passed
    · next supported =>
      obtain ⟨type, typeRead, passed⟩ := bind_eq_ok.mp passed
      obtain ⟨_, same, rfl⟩ := Json.get_eq_ok.mp typeRead
      cases same
      split at passed
      · cases passed
      · next typed =>
        simp only [Bool.not_eq_true, Bool.not_eq_false', pyEq_str_iff] at supported typed
        refine ⟨fields, _, rfl, ?_, supported, ?_⟩
        · cases found : Dict.get? fields "config_version" with
          | some version => rfl
          | none =>
            rw [found] at supported
            simp [Json.pyEq] at supported
        · cases found : Dict.get? fields "type" with
          | some type => simpa [found] using typed
          | none =>
            rw [found, Option.getD_none, Json.str.injEq] at typed
            exact absurd typed.symm named

/-- What a read that is not an error has seen. -/
theorem opendistroGet_ok {decode : Json → Except PyError Json} {section_ : String} {reply : Reply}
    {content : Dict String Json} (named : section_ ≠ "")
    (succeeds : opendistroGet decode section_ reply = .ok content) :
    ∃ response document, reply = .ok response ∧ response.body = some (.obj document) ∧
      (Dict.get? document "_id" ≠ some (.str section_) ∨
        ∃ full, ValidContent decode section_ document full) := by
  -- Every step of the read that succeeds is one of the facts to show.
  simp only [opendistroGet, bind_eq_ok, Response.json_eq_ok] at succeeds
  obtain ⟨response, rfl, body, found, id, identified, succeeds⟩ := succeeds
  obtain ⟨document, rfl, rfl⟩ := Json.get_eq_ok.mp identified
  refine ⟨response, document, rfl, found, ?_⟩
  by_cases own : Dict.get? document "_id" = some (.str section_)
  · refine Or.inr ?_
    -- With the right `_id` the rest of the read has to succeed as well.
    simp only [own, Option.getD_some, pyEq_str_iff, if_true, bind_eq_ok] at succeeds
    obtain ⟨_, sourceRead, encoded, encodedRead, full, decoded, popped, popRead, _, checked, _⟩ :=
      succeeds
    obtain ⟨_, same, rfl⟩ := Json.get_eq_ok.mp sourceRead
    cases same
    obtain ⟨source, sourceFound, rfl⟩ := Json.get_eq_ok.mp encodedRead
    obtain ⟨fields, rfl, rfl⟩ := Json.pop_eq_ok.mp popRead
    obtain ⟨metadata, version, metaFound, rest⟩ := checkMeta_ok named checked
    refine ⟨fields, own, source, metadata, version, sourceFound, decoded, ?_, rest⟩
    cases present : Dict.get? fields "_meta" with
    | some value => simpa [present] using metaFound
    | none => simp [present] at metaFound
  · exact Or.inl own

/-- An invalid read that is not swallowed raises. -/
theorem opendistroGet_error {decode : Json → Except PyError Json} {section_ : String}
    {reply : Reply} (named : section_ ≠ "") (noticed : ¬ Swallowed decode section_ reply)
    (invalid : ¬ ValidRead decode section_ reply) :
    ∃ fault, opendistroGet decode section_ reply = .error fault := by
  cases outcome : opendistroGet decode section_ reply with
  | error fault => exact ⟨fault, rfl⟩
  | ok content =>
    -- A read that succeeds is swallowed or valid.
    exfalso
    obtain ⟨response, document, answered, body, seen⟩ := opendistroGet_ok named outcome
    rcases seen with foreign | ⟨full, valid⟩
    -- A document of something else is taken for an empty section.
    · exact noticed ⟨response, document, answered, body, Or.inl foreign⟩
    · cases successful : response.ok with
      -- With a status that is not rejected the read was valid after all.
      | true => exact invalid ⟨response, document, full, answered, successful, body, valid⟩
      | false =>
        exact noticed ⟨response, document, answered, body, Or.inr ⟨successful, full, valid⟩⟩

/-- Reading changes nothing and reports no success. -/
theorem readSection_always (decode : Json → Except PyError Json) (servers : Servers)
    (section_ : String) :
    (readSection decode servers section_).Always fun event => ¬ event.Proceeds := by
  -- Both requests only read, and their failures are reported as such.
  refine Run.always_bind (Run.always_emit id) fun _ _ => ?_
  refine Run.always_bind (Run.always_attempt _ id) fun _ _ => ?_
  refine Run.always_bind (Run.always_emit id) fun _ _ => ?_
  exact Run.always_bind (Run.always_attempt _ id) fun _ _ => Run.always_pure _ _

/-- A read that raises ends the run. -/
theorem readSection_ended {decode : Json → Except PyError Json} {servers : Servers}
    {section_ : String} {fault : PyError}
    (raises : opendistroGet decode section_ (servers.opendistro section_) = .error fault) :
    (readSection decode servers section_).result = none := by
  -- The handler of the read has no result.
  rw [readSection, Run.bind_of_some (Run.result_emit _), raises]
  rfl

/-- An event that cannot be a rejected patch. -/
theorem not_rejected_of_not_proceeds {event : Event} (quiet : ¬ event.Proceeds) :
    ¬ event.Rejected := by
  cases event <;> simp_all [Event.Proceeds, Event.Rejected]

/-- A part that does not proceed halts trivially. -/
theorem halts_of_quiet {α : Type} {run : Run Event α}
    (quiet : run.Always fun event => ¬ event.Proceeds) :
    run.Halts Event.Rejected Event.Proceeds :=
  Run.halts_of_always fun event member => not_rejected_of_not_proceeds (quiet event member)

/-- After a rejected patch nothing but its report follows. -/
theorem sendPatch_halts (section_ : String) (actions : List Action) (reply : Reply)
    {refused raised : Event} (refusedQuiet : ¬ refused.Proceeds) (raisedQuiet : ¬ raised.Proceeds) :
    (sendPatch section_ actions reply refused raised).Halts Event.Rejected Event.Proceeds := by
  unfold sendPatch
  cases reply with
  -- The request that raised is followed by its report alone.
  | error fault =>
    refine ⟨?_, by simp [Run.bind_of_some]⟩
    simp [Run.bind_of_some, raisedQuiet]
  | ok result =>
    cases successful : result.ok with
    -- An accepted request may be followed by anything.
    | true =>
      refine Run.halts_of_always ?_
      simp [Run.Always, Run.bind_of_some, successful, Event.Rejected, Reply.accepted]
    -- The refused request is followed by its report alone.
    | false =>
      refine ⟨?_, by simp [Run.bind_of_some, successful]⟩
      simp [Run.bind_of_some, successful, refusedQuiet]

/-- Without actions nothing is sent, and otherwise the request halts. -/
theorem sendActions_halts (section_ : String) (actions : List Action) (reply : Reply)
    {refused raised : Event} (refusedQuiet : ¬ refused.Proceeds) (raisedQuiet : ¬ raised.Proceeds) :
    (sendActions section_ actions reply refused raised).Halts Event.Rejected Event.Proceeds := by
  -- An empty list of actions is not sent.
  unfold sendActions
  split
  · exact halts_of_quiet (Run.always_pure _ _)
  · exact sendPatch_halts section_ actions reply refusedQuiet raisedQuiet

/-- Migrating a section halts after its first rejected patch. -/
theorem migrateSection_halts (servers : Servers) (plan : Plan) :
    (migrateSection servers plan).Halts Event.Rejected Event.Proceeds := by
  -- The additions, the updater and the updates halt one after the other.
  refine Run.halts_bind (sendActions_halts _ _ _ id id) fun _ => ?_
  refine Run.halts_bind (halts_of_quiet (Run.always_attempt _ id)) fun collected => ?_
  refine Run.halts_bind (sendActions_halts _ _ _ id id) fun _ => ?_
  exact halts_of_quiet (Run.always_pure _ _)

/-- The analysis sends and reports nothing. -/
theorem analyzeSection_always (order : SetOrder) (configuration : Configuration) :
    (analyzeSection order configuration).Always fun event => ¬ event.Proceeds := by
  refine Run.always_bind (Run.always_attempt _ id) fun _ _ => ?_
  exact Run.always_bind (Run.always_attempt _ id) fun _ _ => Run.always_pure _ _

/-- The whole migration halts after its first rejected patch. -/
theorem main_halts (decode : Json → Except PyError Json) (order : SetOrder) (servers : Servers) :
    (main decode order servers).Halts Event.Rejected Event.Proceeds := by
  -- Only the last of the three loops sends patches.
  refine Run.halts_bind (Run.halts_forEach _ fun section_ =>
    halts_of_quiet (readSection_always decode servers section_)) fun configurations => ?_
  refine Run.halts_bind (Run.halts_forEach _ fun configuration =>
    halts_of_quiet (analyzeSection_always order configuration)) fun plans => ?_
  refine Run.halts_bind (Run.halts_forEach _ (migrateSection_halts servers)) fun counts => ?_
  refine Run.halts_of_always (Run.always_emit ?_)
  simp [Event.Rejected]

/-- The names of the sections are not empty. -/
theorem section_named {section_ : String} (member : section_ ∈ securityConfigSections) :
    section_ ≠ "" := by
  intro same
  subst same
  simp [securityConfigSections] at member

/-- A migration that swallows no failure of a read is fail-stop. -/
theorem failStop_of_noticed (decode : Json → Except PyError Json) (order : SetOrder)
    (servers : Servers) (noticed : ∀ section_ ∈ securityConfigSections,
      ¬ Swallowed decode section_ (servers.opendistro section_)) :
    FailStop decode order servers where
  reads := by
    -- The invalid read raises, so the loop over the reads has no result and nothing follows it.
    intro missed
    obtain ⟨section_, member, invalid⟩ := missed
    obtain ⟨fault, raises⟩ :=
      opendistroGet_error (section_named member) (noticed section_ member) invalid
    have ended : (Run.forEach (readSection decode servers) securityConfigSections).result = none :=
      Run.forEach_result_none member (readSection_ended raises)
    rw [main, Run.bind_of_none ended]
    exact Run.always_forEach fun section_ _ => readSection_always decode servers section_
  patches := (main_halts decode order servers).after

/-- A swallowed failure is not a valid read. -/
theorem not_validRead_of_swallowed {decode : Json → Except PyError Json} {section_ : String}
    {reply : Reply} (swallowed : Swallowed decode section_ reply) :
    ¬ ValidRead decode section_ reply := by
  obtain ⟨response, document, rfl, body, seen⟩ := swallowed
  intro validRead
  obtain ⟨_, other, content, same, successful, otherBody, valid⟩ := validRead
  cases same
  obtain rfl : document = other := by simpa [body] using otherBody
  -- Either the `_id` is wrong or the status is.
  rcases seen with foreign | ⟨refused, _⟩
  · exact foreign valid.1
  · rw [refused] at successful
    cases successful

/-- The read delivers entries that the analysis can work with. -/
def Usable (decode : Json → Except PyError Json) (section_ : String) (reply : Reply) : Prop :=
  ∃ content entries, opendistroGet decode section_ reply = .ok content ∧
    asSection (.obj content) = .ok entries

/-- Servers on which nothing fails after the reads from Opendistro: an empty target. -/
def emptyTarget (opendistro : String → Reply) : Servers where
  opendistro := opendistro
  aiven := fun _ => .ok { status := 200, body := some (.obj []) }
  patch := fun _ _ => .ok { status := 200, body := none }

/-- Against an empty target there is nothing to update. -/
theorem simpleActions_update_nil (order : SetOrder) (source : Section)
    (untouchables : List String) : (simpleActions order source [] untouchables).update = [] := by
  -- No name is present in an empty section.
  have arranged : order.arrange [] = [] := (order.perm []).eq_nil
  simp [simpleActions, simpleAnalyzes, untouchableIfFieldSet, selectEntries, arranged]

/-- Requests that are accepted have a result. -/
theorem sendActions_accepted (section_ : String) (actions : List Action) {response : Response}
    (refused raised : Event) (successful : response.ok = true) :
    (sendActions section_ actions (.ok response) refused raised).result = some () := by
  -- Nothing is sent without actions, and what is sent is accepted.
  unfold sendActions sendPatch
  split
  · rfl
  · simp [Run.bind_of_some, successful]

/-- Usable reads and an empty target give configurations that the analysis accepts. -/
theorem reads_usable {decode : Json → Except PyError Json} {opendistro : String → Reply}
    (usable : ∀ section_ ∈ securityConfigSections, Usable decode section_ (opendistro section_)) :
    ∃ configurations,
      (Run.forEach (readSection decode (emptyTarget opendistro)) securityConfigSections).result =
        some configurations ∧
      ∀ configuration ∈ configurations, configuration.aiven = .obj [] ∧
        ∃ entries, asSection (.obj configuration.opendistro) = .ok entries := by
  -- Each section is read with success from both servers.
  refine Run.forEach_result_some fun section_ member => ?_
  obtain ⟨content, entries, succeeds, accepted⟩ := usable section_ member
  have found : opendistroGet decode section_ ((emptyTarget opendistro).opendistro section_) =
      .ok content := succeeds
  refine ⟨{ section_, opendistro := content, aiven := .obj [] }, ?_, rfl, entries, accepted⟩
  rw [readSection, found]
  rfl

/-- The analysis against an empty target leaves nothing to update. -/
theorem analysis_empty {configurations : List Configuration}
    (readable : ∀ configuration ∈ configurations, configuration.aiven = .obj [] ∧
      ∃ entries, asSection (.obj configuration.opendistro) = .ok entries) :
    ∃ plans, (Run.forEach (analyzeSection .listed) configurations).result = some plans ∧
      ∀ plan ∈ plans, plan.actions.update = [] := by
  refine Run.forEach_result_some fun configuration member => ?_
  obtain ⟨target, entries, accepted⟩ := readable configuration member
  -- The target is an empty dictionary.
  have nothing : asSection configuration.aiven = .ok [] := by
    rw [target]
    rfl
  refine ⟨⟨configuration.section_, [], simpleActions .listed entries []
    (predefinedUntouchables configuration.section_)⟩, ?_, simpleActions_update_nil _ _ _⟩
  rw [analyzeSection, accepted, nothing]
  rfl

/-- Without updates and with accepted requests every section is migrated. -/
theorem migration_accepted (opendistro : String → Reply) {plans : List Plan}
    (empty : ∀ plan ∈ plans, plan.actions.update = []) :
    ∃ counts, (Run.forEach (migrateSection (emptyTarget opendistro)) plans).result = some counts ∧
      ∀ count ∈ counts, count.2.updates = 0 := by
  refine Run.forEach_result_some fun plan member => ?_
  refine ⟨(plan.section_, ⟨(simpleAdder plan.actions.add).length, 0, 0⟩), ?_, rfl⟩
  -- The empty target accepts every request.
  have successful : ({ status := 200, body := none } : Response).ok = true := rfl
  have added := sendActions_accepted plan.section_ (simpleAdder plan.actions.add)
    (.failedToAdd plan.section_) (.failedToMigrate plan.section_) successful
  rw [migrateSection, empty plan member]
  simp only [emptyTarget]
  rw [Run.bind_of_some added]
  rfl

/-- A migration from usable reads to an empty target is reported as completed. -/
theorem completes_of_usable {decode : Json → Except PyError Json} {opendistro : String → Reply}
    (usable : ∀ section_ ∈ securityConfigSections, Usable decode section_ (opendistro section_)) :
    ∃ counts, Event.migrationCompleted counts ∈
      (main decode .listed (emptyTarget opendistro)).events := by
  obtain ⟨configurations, read, readable⟩ := reads_usable usable
  obtain ⟨plans, analyzed, empty⟩ := analysis_empty readable
  obtain ⟨counts, migrated, _⟩ := migration_accepted opendistro empty
  -- The report comes last, after the three loops.
  refine ⟨counts, ?_⟩
  simp [main, Run.bind_of_some read, Run.bind_of_some analyzed, Run.bind_of_some migrated]

/-- A section that was read holds what the read delivered. -/
theorem readSection_opendistro {decode : Json → Except PyError Json} {servers : Servers}
    {section_ : String} {configuration : Configuration}
    (read : (readSection decode servers section_).result = some configuration) :
    opendistroGet decode section_ (servers.opendistro section_) =
      .ok configuration.opendistro := by
  cases outcome : opendistroGet decode section_ (servers.opendistro section_) with
  -- A read that raises has no result.
  | error fault =>
    rw [readSection_ended outcome] at read
    cases read
  | ok content =>
    rw [readSection, outcome] at read
    cases answered : aivenGet (servers.aiven section_) with
    | error fault =>
      rw [answered] at read
      cases read
    | ok target =>
      rw [answered] at read
      cases read
      rfl

/-- A read that the analysis cannot work with stops the run before it proceeds. -/
theorem quiet_of_unusable {decode : Json → Except PyError Json} {servers : Servers}
    {section_ : String} (order : SetOrder) (member : section_ ∈ securityConfigSections)
    (unusable : ¬ Usable decode section_ (servers.opendistro section_)) :
    (main decode order servers).Always fun event => ¬ event.Proceeds := by
  have reading : (Run.forEach (readSection decode servers) securityConfigSections).Always
      fun event => ¬ event.Proceeds :=
    Run.always_forEach fun section_ _ => readSection_always decode servers section_
  unfold main
  refine Run.always_bind reading fun configurations read => ?_
  -- All reads went through, so it is the analysis that stops at this section.
  obtain ⟨configuration, there, found⟩ := Run.mem_of_forEach_result read member
  have ended : (analyzeSection order configuration).result = none := by
    unfold analyzeSection
    cases accepted : asSection (.obj configuration.opendistro) with
    | error fault => rfl
    | ok entries => exact absurd ⟨_, entries, readSection_opendistro found, accepted⟩ unusable
  rw [Run.bind_of_none (Run.forEach_result_none there ended)]
  exact Run.always_forEach fun configuration _ => analyzeSection_always order configuration

/--
What Opendistro answers decides alone whether a migration is fail-stop whatever the target does.

Either no failure of a read is swallowed, or some read stops every run.
-/
theorem failStop_iff (decode : Json → Except PyError Json) (opendistro : String → Reply) :
    (∀ order aiven patch, FailStop decode order { opendistro, aiven, patch }) ↔
      (∀ section_ ∈ securityConfigSections, ¬ Swallowed decode section_ (opendistro section_)) ∨
        ∃ section_ ∈ securityConfigSections, ¬ Usable decode section_ (opendistro section_) := by
  constructor
  · intro always
    by_contra neither
    push Not at neither
    obtain ⟨⟨section_, member, swallowed⟩, usable⟩ := neither
    -- An empty target completes the run although one read was no valid document.
    obtain ⟨counts, completed⟩ := completes_of_usable usable
    exact (always .listed (emptyTarget opendistro).aiven (emptyTarget opendistro).patch).reads
      ⟨section_, member, not_validRead_of_swallowed swallowed⟩ _ completed trivial
  -- Both conditions hold before the target is even asked.
  · intro either order aiven patch
    rcases either with noticed | ⟨section_, member, unusable⟩
    · exact failStop_of_noticed decode order _ noticed
    · exact ⟨fun _ => quiet_of_unusable order member unusable, (main_halts decode order _).after⟩

/-- Opendistro refuses every read with an error document. -/
def refusingOpendistro (_ : String) : Reply :=
  .ok {
    status := 403
    body := some (.obj [("error", .str "no permissions"), ("status", .num 403)]) }

/-- A migration whose reads are all refused is reported as completed. -/
theorem refusingOpendistro_counterexample :
    ¬ ∃ decode, FailStop decode .listed (emptyTarget refusingOpendistro) := by
  intro stops
  obtain ⟨decode, failStop⟩ := stops
  -- The error document has no `_id`, so every section is taken to be empty.
  have swallowed : Swallowed decode "roles" (refusingOpendistro "roles") :=
    ⟨_, _, rfl, rfl, Or.inl (by simp [Dict.get?_cons])⟩
  obtain ⟨counts, completed⟩ := completes_of_usable
    fun section_ _ => (⟨[], [], rfl, rfl⟩ : Usable decode section_ (refusingOpendistro section_))
  exact failStop.reads ⟨"roles", by simp [securityConfigSections],
    not_validRead_of_swallowed swallowed⟩ _ completed trivial

end AivenExamples.SecurityMigration
