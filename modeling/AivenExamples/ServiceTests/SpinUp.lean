import AivenExamples.Data.Schedule
import Mathlib.Data.List.Nodup
import Mathlib.Data.List.Perm.Basic
import Mathlib.Logic.Function.Basic

/-! The services that the tests of the examples need, and the threads that start them. -/

namespace AivenExamples.ServiceTests

/-! ### Required services -/

/-- A service that a test needs. -/
structure ServiceSpec where
  type : String
  version : String
  plan : String
  deriving DecidableEq

/-- The name that the service has, or gets when it is created. -/
def ServiceSpec.name (spec : ServiceSpec) : String :=
  spec.type ++ "-" ++ spec.version ++ "-" ++ spec.plan

/-- A class of tests, with the attributes that it has of its own. -/
inductive TestClass where
  | mk (requiredServices : Option (List ServiceSpec))
    (supportedCloudProviders : Option (List String)) (subclasses : List TestClass)

/-- The services of a class and of those below it, behind `update_required_services`. -/
def updatedServices (cloudProvider : String) (inherited : List ServiceSpec)
    (providers : List String) : TestClass → List (List ServiceSpec)
  | .mk requiredServices supportedCloudProviders subclasses =>
    let supported := supportedCloudProviders.getD providers
    let required :=
      if supported ≠ [] ∧ cloudProvider ∉ supported then [] else requiredServices.getD inherited
    -- A subclass sees what its base class has been left with.
    required :: subclasses.flatMap (updatedServices cloudProvider required supported)

/-- `service_specifications.update(…)`, where specifications with the same hash are equal. -/
def update (hash : String → Int) (set specs : List ServiceSpec) : List ServiceSpec :=
  specs.foldl (fun set spec =>
    if set.any fun other => hash other.name = hash spec.name then set else set ++ [spec]) set

/-- `_discover_required_services`, for the classes directly below `AivenExampleTest`. -/
def discoverRequiredServices (hash : String → Int) (cloudProvider : String)
    (subclasses : List TestClass) : List ServiceSpec :=
  (subclasses.flatMap (updatedServices cloudProvider [] [])).foldl (update hash) []

/-! ### Threads -/

/-- What the API says about a service. -/
structure Service where
  serviceType : String
  state : String
  deriving DecidableEq

/-- Where a thread is in `_create_service`. -/
inductive Phase where
  /-- In front of `get_service`. -/
  | polling
  /-- The answer was `404`, and `create_service` is next. -/
  | missing
  | returned (service : Service)
  | raised
  deriving DecidableEq

/-- The services of the project by name, the threads, and the calls of `create_service`. -/
structure State where
  cloud : String → Option Service
  phase : Nat → Phase
  requests : List String

/-- What a thread or the cloud does next. -/
inductive Action where
  | getService (thread : Nat)
  | getFails (thread : Nat)
  /-- The cloud makes the service, which starts in some state. -/
  | createService (thread : Nat) (state : String)
  /-- The answer is an error, even when the service has been made. -/
  | createFails (thread : Nat) (made : Option String)
  | timeout (thread : Nat)
  /-- A service of the project goes on to another state. -/
  | progress (name : String) (state : String)

/-- One thread is somewhere else. -/
def State.move (state : State) (thread : Nat) (phase : Phase) : State :=
  { state with phase := Function.update state.phase thread phase }

/-- `create_service` is called, and makes the service or does not. -/
def State.create (state : State) (spec : ServiceSpec) (made : Option String) : State :=
  { state with
    requests := state.requests ++ [spec.name]
    cloud := match made with
      | some starting => Function.update state.cloud spec.name (some ⟨spec.type, starting⟩)
      | none => state.cloud }

/-- One step of a thread or of the cloud, where a thread only does what comes next in it. -/
def step (specs : List ServiceSpec) (state : State) : Action → Option State
  | .getService thread =>
    match specs[thread]?, state.phase thread with
    | some spec, .polling =>
      match state.cloud spec.name with
      | none => some (state.move thread .missing)
      | some service =>
        -- In any other state the thread sleeps and asks again.
        if service.state = "RUNNING" then some (state.move thread (.returned service))
        else some state
    | _, _ => none
  | .getFails thread | .timeout thread =>
    match specs[thread]?, state.phase thread with
    | some _, .polling => some (state.move thread .raised)
    | _, _ => none
  | .createService thread starting =>
    match specs[thread]?, state.phase thread with
    | some spec, .missing =>
      match state.cloud spec.name with
      | none => some ((state.create spec (some starting)).move thread .polling)
      -- The service is there already, and the answer is an error.
      | some _ => some ((state.create spec none).move thread .raised)
    | _, _ => none
  | .createFails thread made =>
    match specs[thread]?, state.phase thread with
    | some spec, .missing =>
      match state.cloud spec.name with
      | none => some ((state.create spec made).move thread .raised)
      | some _ => some ((state.create spec none).move thread .raised)
    | _, _ => none
  | .progress name later =>
    match state.cloud name with
    | some service =>
      some { state with
        cloud := Function.update state.cloud name (some { service with state := later }) }
    | none => none

/-- All threads are in front of their first request. -/
def start (cloud : String → Option Service) : State := ⟨cloud, fun _ => .polling, []⟩

/-- The services that are left behind `tear_down_services`, and whether a request raised. -/
structure TornDown where
  cloud : String → Option Service
  raised : Bool

/-- `tear_down_services`, where the requests for some names fail. -/
def tearDownServices (fails : String → Bool) (cloud : String → Option Service) :
    List ServiceSpec → TornDown
  | [] => ⟨cloud, false⟩
  | spec :: specs =>
    match cloud spec.name with
    -- The answer is `404`, and nothing catches the error.
    | none => ⟨cloud, true⟩
    | some _ =>
      if fails spec.name then ⟨cloud, true⟩
      else tearDownServices fails (Function.update cloud spec.name none) specs

/-! ### Specifications by their hash -/

/-- The names are all different, and their hashes are. -/
theorem update_distinct {hash : String → Int} {set : List ServiceSpec} (specs : List ServiceSpec)
    (distinct : (set.map fun spec => hash spec.name).Nodup) :
    ((update hash set specs).map fun spec => hash spec.name).Nodup := by
  -- A specification is added when no other has its hash.
  induction specs generalizing set with
  | nil => exact distinct
  | cons spec specs ih =>
    rw [update, List.foldl_cons]
    refine ih ?_
    split_ifs with present
    · exact distinct
    · rw [List.map_append, List.map_singleton, List.nodup_append]
      refine ⟨distinct, List.nodup_singleton _, ?_⟩
      intro first member second single same
      rw [List.mem_singleton.mp single] at same
      obtain ⟨other, inside, hashed⟩ := List.mem_map.mp member
      exact present (List.any_eq_true.mpr ⟨other, inside, decide_eq_true (hashed.trans same)⟩)

/-- The required services have different names. -/
theorem discovered_distinct (hash : String → Int) (cloudProvider : String)
    (subclasses : List TestClass) :
    ((discoverRequiredServices hash cloudProvider subclasses).map ServiceSpec.name).Nodup := by
  -- Equal names have the same hash, whatever the hash is.
  have hashes (lists : List (List ServiceSpec)) (set : List ServiceSpec)
      (distinct : (set.map fun spec => hash spec.name).Nodup) :
      ((lists.foldl (update hash) set).map fun spec => hash spec.name).Nodup := by
    induction lists generalizing set with
    | nil => exact distinct
    | cons specs lists ih => exact ih _ (update_distinct specs distinct)
  have distinct := hashes (subclasses.flatMap (updatedServices cloudProvider [] [])) []
    List.nodup_nil
  have mapped : ((discoverRequiredServices hash cloudProvider subclasses).map fun spec =>
      hash spec.name) = ((discoverRequiredServices hash cloudProvider subclasses).map
        ServiceSpec.name).map hash := (List.map_map ..).symm
  exact List.Nodup.of_map hash (mapped ▸ distinct)

/-- What has been collected stays, and every new specification has one with its hash. -/
theorem mem_update {hash : String → Int} {set : List ServiceSpec} (specs : List ServiceSpec)
    {spec : ServiceSpec} (member : spec ∈ set ∨ spec ∈ specs) :
    ∃ found ∈ update hash set specs, hash found.name = hash spec.name := by
  -- A specification that is not added has its hash in the set already.
  induction specs generalizing set spec with
  | nil => exact ⟨spec, member.resolve_right List.not_mem_nil, rfl⟩
  | cons first specs ih =>
    rw [update, List.foldl_cons]
    split_ifs with present
    · rcases member with inside | new
      · exact ih (.inl inside)
      · rcases List.mem_cons.mp new with same | later
        · obtain ⟨other, inside, hashed⟩ := List.any_eq_true.mp present
          obtain ⟨found, kept, equal⟩ := @ih set other (.inl inside)
          exact ⟨found, kept, equal.trans (same ▸ of_decide_eq_true hashed)⟩
        · exact ih (.inr later)
    · refine ih ?_
      rcases member with inside | new
      · exact .inl (List.mem_append_left _ inside)
      · rcases List.mem_cons.mp new with same | later
        · exact .inl (List.mem_append_right _ (List.mem_singleton.mpr same))
        · exact .inr later

/-- Every service that a class needs has a specification with the hash of its name. -/
theorem discovered_covers (hash : String → Int) {cloudProvider : String}
    {subclasses : List TestClass} {needed : List ServiceSpec} {spec : ServiceSpec}
    (inside : needed ∈ subclasses.flatMap (updatedServices cloudProvider [] []))
    (member : spec ∈ needed) :
    ∃ found ∈ discoverRequiredServices hash cloudProvider subclasses,
      hash found.name = hash spec.name := by
  -- It is in the set when its class is reached, and what is in the set stays.
  have kept (lists : List (List ServiceSpec)) (set : List ServiceSpec) (spec : ServiceSpec)
      (there : spec ∈ set ∨ ∃ specs ∈ lists, spec ∈ specs) :
      ∃ found ∈ lists.foldl (update hash) set, hash found.name = hash spec.name := by
    induction lists generalizing set spec with
    | nil =>
      rcases there with old | ⟨_, none, _⟩
      · exact ⟨spec, old, rfl⟩
      · exact absurd none List.not_mem_nil
    | cons specs lists ih =>
      have now (member : spec ∈ set ∨ spec ∈ specs) :
          ∃ found ∈ (specs :: lists).foldl (update hash) set, hash found.name = hash spec.name := by
        obtain ⟨first, added, hashed⟩ := mem_update specs member
        obtain ⟨found, last, equal⟩ := ih (update hash set specs) first (.inl added)
        exact ⟨found, last, equal.trans hashed⟩
      rcases there with old | ⟨others, which, member⟩
      · exact now (.inl old)
      · rcases List.mem_cons.mp which with same | later
        · exact now (.inr (same ▸ member))
        · exact ih (update hash set specs) spec (.inr ⟨others, later, member⟩)
  exact kept _ [] spec (.inr ⟨needed, inside, member⟩)

/-! ### What a step does -/

/-- Where a request for a service leads, by what the API knows about the service. -/
inductive Answered (current : Option Service) : Phase → Prop where
  | missing (none : current = none) : Answered current .missing
  | running (service : Service) (known : current = some service)
      (running : service.state = "RUNNING") : Answered current (.returned service)
  | raised : Answered current .raised

/-- The other threads stay where they are. -/
theorem State.phase_move_of_ne (state : State) {thread other : Nat} (apart : other ≠ thread)
    (phase : Phase) : (state.move thread phase).phase other = state.phase other :=
  Function.update_of_ne apart _ _

/-- The service of the call that makes it is new, when one is made. -/
theorem State.cloud_create_self (state : State) (spec : ServiceSpec) (made : Option String) :
    (state.create spec made).cloud spec.name =
      (made.map (Service.mk spec.type)).or (state.cloud spec.name) := by
  cases made <;> simp [State.create]

/-- The other services are what they were. -/
theorem State.cloud_create_of_ne (state : State) {spec : ServiceSpec} {name : String}
    (apart : name ≠ spec.name) (made : Option String) :
    (state.create spec made).cloud name = state.cloud name := by
  cases made with
  | none => rfl
  | some starting => exact Function.update_of_ne apart _ _

/-- Everything that a step can do. -/
inductive Happens (specs : List ServiceSpec) (state : State) : State → Prop where
  | nothing : Happens specs state state
  | asks (thread : Nat) (spec : ServiceSpec) (phase : Phase) (own : specs[thread]? = some spec)
      (polling : state.phase thread = .polling)
      (answered : Answered (state.cloud spec.name) phase) :
      Happens specs state (state.move thread phase)
  | creates (thread : Nat) (spec : ServiceSpec) (made : Option String) (phase : Phase)
      (own : specs[thread]? = some spec) (missing : state.phase thread = .missing)
      (conflict : state.cloud spec.name ≠ none → made = none)
      (goesOn : phase = .raised ∨ made ≠ none ∧ phase = .polling) :
      Happens specs state ((state.create spec made).move thread phase)
  | progresses (name : String) (service : Service) (later : String)
      (known : state.cloud name = some service) : Happens specs state { state with
        cloud := Function.update state.cloud name (some { service with state := later }) }

section Run

variable {specs : List ServiceSpec} {state next : State} {cloud : String → Option Service}

/-- A step does one of these. -/
theorem step_happens {action : Action} (taken : step specs state action = some next) :
    Happens specs state next := by
  -- The step is refused in every other phase, and for a thread that is not there.
  cases action with
  | getService thread =>
    simp only [step] at taken
    split at taken
    · rename_i spec own polling
      split at taken
      · rename_i none
        cases taken
        exact .asks thread spec _ own polling (.missing none)
      · rename_i service known
        split_ifs at taken with running
        · cases taken
          exact .asks thread spec _ own polling (.running service known running)
        · cases taken
          exact .nothing
    · cases taken
  | getFails thread =>
    simp only [step] at taken
    split at taken
    · rename_i spec own polling
      cases taken
      exact .asks thread spec _ own polling .raised
    · cases taken
  | timeout thread =>
    simp only [step] at taken
    split at taken
    · rename_i spec own polling
      cases taken
      exact .asks thread spec _ own polling .raised
    · cases taken
  | createService thread starting =>
    simp only [step] at taken
    split at taken
    · rename_i spec own missing
      split at taken
      · rename_i none
        cases taken
        exact .creates thread spec _ _ own missing (absurd none) (.inr ⟨by simp, rfl⟩)
      · cases taken
        exact .creates thread spec _ _ own missing (fun _ => rfl) (.inl rfl)
    · cases taken
  | createFails thread made =>
    simp only [step] at taken
    split at taken
    · rename_i spec own missing
      split at taken
      · rename_i none
        cases taken
        exact .creates thread spec _ _ own missing (absurd none) (.inl rfl)
      · cases taken
        exact .creates thread spec _ _ own missing (fun _ => rfl) (.inl rfl)
    · cases taken
  | progress name later =>
    simp only [step] at taken
    split at taken
    · rename_i service known
      cases taken
      exact .progresses name service later known
    · cases taken

/-! ### Invariant -/

/-- What holds of a thread, of the service it is for, and of whether that has been asked for. -/
structure Good (spec : ServiceSpec) (initial current : Option Service) (asked : Prop)
    (phase : Phase) : Prop where
  fresh : asked → initial = none
  kept : current = none → initial = none
  made : ∀ service, current = some service → initial = none →
    asked ∧ service.serviceType = spec.type
  missing : phase = .missing → ¬asked ∧ current = none
  -- A service that was asked for is there, or the thread has failed.
  lost : asked → current = none → phase = .raised
  returned : ∀ service, phase = .returned service → service.state = "RUNNING" ∧
    current ≠ none ∧ (initial = none → service.serviceType = spec.type)

/-- Every thread is good, no service is asked for twice, and the others are left alone. -/
structure Sound (specs : List ServiceSpec) (cloud : String → Option Service) (state : State) :
    Prop where
  threads : ∀ thread spec, specs[thread]? = some spec → Good spec (cloud spec.name)
    (state.cloud spec.name) (spec.name ∈ state.requests) (state.phase thread)
  nodup : state.requests.Nodup
  required : ∀ name ∈ state.requests, name ∈ specs.map ServiceSpec.name
  others : ∀ name ∉ specs.map ServiceSpec.name, state.cloud name = none ↔ cloud name = none

section Good

variable {spec : ServiceSpec} {initial current : Option Service} {asked : Prop} {phase : Phase}

/-- A request keeps a thread good. -/
theorem Good.answered (good : Good spec initial current asked .polling)
    (answered : Answered current phase) : Good spec initial current asked phase := by
  -- Nothing but the phase has changed.
  refine ⟨good.fresh, good.kept, good.made, ?_, ?_, ?_⟩
  · intro missing
    cases answered with
    | missing none => exact ⟨fun yes => Phase.noConfusion (good.lost yes none), none⟩
    | running => cases missing
    | raised => cases missing
  · exact fun yes none => Phase.noConfusion (good.lost yes none)
  · intro service returned
    cases answered with
    | missing => cases returned
    | running found known running =>
      cases returned
      exact ⟨running, known ▸ Option.some_ne_none service,
        fun none => (good.made service known none).2⟩
    | raised => cases returned

/-- A call of `create_service` keeps a thread good. -/
theorem Good.created (good : Good spec initial current asked .missing) {made : Option String}
    (goesOn : phase = .raised ∨ made ≠ none ∧ phase = .polling) :
    Good spec initial ((made.map (Service.mk spec.type)).or current) True phase := by
  -- The service was missing, and nobody had asked for it.
  have absent := (good.missing rfl).2
  have initially := good.kept absent
  have notMissing : phase ≠ .missing := by
    rcases goesOn with raised | ⟨-, polling⟩
    · simp [raised]
    · simp [polling]
  have notReturned (service : Service) : phase ≠ .returned service := by
    rcases goesOn with raised | ⟨-, polling⟩
    · simp [raised]
    · simp [polling]
  refine ⟨fun _ => initially, fun _ => initially, ?_, fun same => absurd same notMissing, ?_,
    fun service same => absurd same (notReturned service)⟩
  · intro service known _
    cases made with
    | none => exact absurd (absent.symm.trans known) (by simp)
    | some starting =>
      cases known
      exact ⟨trivial, rfl⟩
  · intro _ none
    cases made with
    | none => exact goesOn.resolve_right fun both => both.1 rfl
    | some starting => cases none

/-- A service that goes on to another state keeps a thread good. -/
theorem Good.progressed {service : Service} (good : Good spec initial (some service) asked phase)
    (later : String) : Good spec initial (some { service with state := later }) asked phase := by
  -- Its type stays, and its state is not looked at.
  refine ⟨good.fresh, fun none => absurd none (Option.some_ne_none _), ?_, ?_,
    fun _ none => absurd none (Option.some_ne_none _), ?_⟩
  · intro other known none
    cases known
    exact good.made service rfl none
  · exact fun missing => absurd (good.missing missing).2 (by simp)
  · intro other returned
    exact ⟨(good.returned other returned).1, by simp, (good.returned other returned).2.2⟩

end Good

/-- Threads with the same name are the same thread. -/
theorem thread_inj (distinct : (specs.map ServiceSpec.name).Nodup) {first second : Nat}
    {spec other : ServiceSpec} (own : specs[first]? = some spec)
    (others : specs[second]? = some other) (same : other.name = spec.name) : second = first := by
  -- The names of the specifications are all different.
  have bound : second < (specs.map ServiceSpec.name).length := by
    rw [List.length_map]
    exact (List.getElem?_eq_some_iff.mp others).1
  refine (List.getElem?_inj bound distinct).mp ?_
  rw [List.getElem?_map, List.getElem?_map, own, others, Option.map_some, Option.map_some, same]

/-- Every step keeps all threads good. -/
theorem Sound.step (distinct : (specs.map ServiceSpec.name).Nodup)
    (sound : Sound specs cloud state) (happens : Happens specs state next) :
    Sound specs cloud next := by
  -- A thread only changes what belongs to its own name.
  cases happens with
  | nothing => exact sound
  | asks thread spec phase own polling answered =>
    refine ⟨fun other others there => ?_, sound.nodup, sound.required, sound.others⟩
    have good := sound.threads other others there
    by_cases same : other = thread
    · subst same
      cases Option.some.inj (own.symm.trans there)
      rw [polling] at good
      simpa [State.move] using good.answered answered
    · rw [state.phase_move_of_ne same]
      exact good
  | creates thread spec made phase own missing conflict goesOn =>
    have before := sound.threads thread spec own
    rw [missing] at before
    obtain ⟨notAsked, absent⟩ := before.missing rfl
    have inside : spec.name ∈ specs.map ServiceSpec.name :=
      List.mem_map.mpr ⟨spec, List.mem_of_getElem? own, rfl⟩
    refine ⟨fun other others there => ?_, ?_, ?_, ?_⟩
    · have good := sound.threads other others there
      by_cases same : other = thread
      · subst same
        cases Option.some.inj (own.symm.trans there)
        rw [missing] at good
        have asked : spec.name ∈ (state.create spec made).requests := by simp [State.create]
        have created := good.created goesOn
        rw [← state.cloud_create_self, ← eq_true asked] at created
        simpa [State.move] using created
      · have apart : others.name ≠ spec.name :=
          fun equal => same (thread_inj distinct own there equal)
        have asked : others.name ∈ (state.create spec made).requests ↔
            others.name ∈ state.requests := by simp [State.create, apart]
        rw [← state.cloud_create_of_ne apart made, ← asked] at good
        rw [State.phase_move_of_ne _ same]
        exact good
    · have twice : ∀ first ∈ state.requests, ∀ second ∈ [spec.name], first ≠ second := by
        intro first member second single equal
        rw [List.mem_singleton.mp single] at equal
        exact notAsked (equal ▸ member)
      exact List.nodup_append.mpr ⟨sound.nodup, List.nodup_singleton _, twice⟩
    · intro name member
      rcases List.mem_append.mp member with old | new
      · exact sound.required name old
      · exact List.mem_singleton.mp new ▸ inside
    · intro name other
      have apart : name ≠ spec.name := fun same => other (same ▸ inside)
      have unchanged := state.cloud_create_of_ne apart made
      exact unchanged.symm ▸ sound.others name other
  | progresses name service later known =>
    refine ⟨fun other others there => ?_, sound.nodup, sound.required, fun other outside => ?_⟩
    · have good := sound.threads other others there
      by_cases same : others.name = name
      · subst same
        rw [known] at good
        simpa using good.progressed later
      · simpa [Function.update_of_ne same] using good
    · rw [← sound.others other outside]
      by_cases same : other = name
      · subst same
        simp [known]
      · simp [Function.update_of_ne same]

/-- A service is asked for only where there was none. -/
theorem Sound.fresh (sound : Sound specs cloud state) {name : String}
    (asked : name ∈ state.requests) : cloud name = none := by
  -- The name belongs to a thread, which asks only where there is no service.
  obtain ⟨spec, inside, same⟩ := List.mem_map.mp (sound.required name asked)
  obtain ⟨thread, own⟩ := List.mem_iff_getElem?.mp inside
  subst same
  exact (sound.threads thread spec own).fresh asked

/-- All threads are good at the start. -/
theorem sound_start : Sound specs cloud (start cloud) where
  threads _ _ _ :=
    -- Nothing has been asked for, and every thread is polling.
    { fresh := fun asked => absurd asked List.not_mem_nil
      kept := id
      made := fun _ known none => absurd (known.symm.trans none) (Option.some_ne_none _)
      missing := fun same => Phase.noConfusion same
      lost := fun asked => absurd asked List.not_mem_nil
      returned := fun _ same => Phase.noConfusion same }
  nodup := List.nodup_nil
  required _ member := absurd member List.not_mem_nil
  others _ _ := Iff.rfl

/-- Along every schedule all threads are good. -/
theorem sound_of_run (distinct : (specs.map ServiceSpec.name).Nodup) {schedule : List Action}
    (ran : schedule.foldlM (ServiceTests.step specs) (start cloud) = some state) :
    Sound specs cloud state :=
  Schedule.invariant (fun _ => Sound specs cloud) sound_start
    (fun _ _ _ _ _ sound taken => sound.step distinct (step_happens taken)) ran

/-- Tearing down raises at a service that is missing, or whose request fails. -/
theorem raised_tearDownServices (fails : String → Bool) (cloud : String → Option Service)
    (distinct : (specs.map ServiceSpec.name).Nodup) :
    (tearDownServices fails cloud specs).raised = false ↔
      ∀ spec ∈ specs, cloud spec.name ≠ none ∧ fails spec.name = false := by
  -- A service that is deleted is not the one of a later specification.
  induction specs generalizing cloud with
  | nil => simp [tearDownServices]
  | cons spec specs ih =>
    obtain ⟨fresh, rest⟩ := List.nodup_cons.mp distinct
    have later : (∀ other ∈ specs, Function.update cloud spec.name none other.name ≠ none ∧
        fails other.name = false) ↔
          ∀ other ∈ specs, cloud other.name ≠ none ∧ fails other.name = false := by
      refine forall₂_congr fun other member => ?_
      have apart : other.name ≠ spec.name :=
        fun same => fresh (same ▸ List.mem_map_of_mem member)
      rw [Function.update_of_ne apart]
    rw [tearDownServices, List.forall_mem_cons]
    cases found : cloud spec.name with
    | none => simp
    | some service =>
      cases refused : fails spec.name with
      | true => simp
      | false => simp [ih _ rest, later]

/-- Without the services of the specifications all others are left. -/
theorem cloud_tearDownServices (fails : String → Bool) (cloud : String → Option Service)
    (whole : (tearDownServices fails cloud specs).raised = false) (name : String) :
    (tearDownServices fails cloud specs).cloud name =
      if name ∈ specs.map ServiceSpec.name then none else cloud name := by
  -- Deleting one more service goes on with the cloud without it.
  induction specs generalizing cloud with
  | nil => rfl
  | cons spec specs ih =>
    rw [tearDownServices] at whole ⊢
    cases found : cloud spec.name with
    | none => simp [found] at whole
    | some service =>
      cases refused : fails spec.name with
      | true => simp [found, refused] at whole
      | false =>
        simp only [found, refused, Bool.false_eq_true, if_false] at whole ⊢
        rw [ih _ whole]
        by_cases same : name = spec.name
        · simp [same]
        · simp [same]

end Run

/-! ### Runs -/

section Runs

variable {hash : String → Int} {cloudProvider : String} {subclasses : List TestClass}
  {specs : List ServiceSpec} {cloud : String → Option Service} {schedule : List Action}
  {final : State}

/-- All threads are good along the schedules of the required services. -/
theorem sound_of_required
    (required : specs.Perm (discoverRequiredServices hash cloudProvider subclasses))
    (ran : schedule.foldlM (step specs) (start cloud) = some final) : Sound specs cloud final := by
  -- The set of specifications has one for each name.
  have distinct : (specs.map ServiceSpec.name).Nodup :=
    (required.map _).nodup_iff.mpr (discovered_distinct hash cloudProvider subclasses)
  exact sound_of_run distinct ran

/-- A thread that has returned found a service, which it asked for where there was none. -/
theorem Good.of_returned {spec : ServiceSpec} {initial current : Option Service} {asked : Prop}
    {service : Service} (good : Good spec initial current asked (.returned service)) :
    current ≠ none ∧ (initial = none → asked ∧ service.serviceType = spec.type) := by
  obtain ⟨-, there, typed⟩ := good.returned service rfl
  -- The service that was seen is still there.
  obtain ⟨found, known⟩ := Option.ne_none_iff_exists'.mp there
  exact ⟨there, fun none => ⟨(good.made found known none).1, typed none⟩⟩

/-- However the threads take turns, a service is asked for once, and only where there is none. -/
theorem createService_once
    (required : specs.Perm (discoverRequiredServices hash cloudProvider subclasses))
    (ran : schedule.foldlM (step specs) (start cloud) = some final) :
    final.requests.Nodup ∧
    (∀ name ∈ final.requests, name ∈ specs.map ServiceSpec.name ∧ cloud name = none) ∧
    ∀ thread spec service, specs[thread]? = some spec → final.phase thread = .returned service →
      service.state = "RUNNING" ∧
        (cloud spec.name = none →
          spec.name ∈ final.requests ∧ service.serviceType = spec.type) := by
  -- Each part is what the invariant says, for the names and for each thread.
  have sound := sound_of_required required ran
  refine ⟨sound.nodup, fun name member => ⟨sound.required name member, sound.fresh member⟩,
    fun thread spec service own returned => ?_⟩
  have good := sound.threads thread spec own
  rw [returned] at good
  exact ⟨(good.returned service rfl).1, good.of_returned.2⟩

/-- The service of the PostgreSQL tests. -/
def postgres : ServiceSpec := ⟨"pg", "latest", "startup-4"⟩

/-- The service of the Kafka tests. -/
def kafka : ServiceSpec := ⟨"kafka", "latest", "startup-2"⟩

/-- The tests of two services. -/
def serviceTests : List TestClass :=
  [.mk (some [postgres]) none [], .mk (some [kafka]) none []]

/-- A project in which the service of the Kafka tests is being rebuilt. -/
def rebuilding : String → Option Service :=
  Function.update (fun _ => none) "kafka-latest-startup-2" (some ⟨"kafka", "REBUILDING"⟩)

/-- Two threads take turns: one waits for its service, the other one finds none and creates it. -/
def twoThreads : List Action := [.getService 0, .getService 1, .createService 0 "REBUILDING",
  .progress "kafka-latest-startup-2" "RUNNING", .getService 0, .getService 1,
  .progress "pg-latest-startup-4" "RUNNING", .getService 0]

/-- The two services are all that the tests need. -/
theorem discovered_serviceTests : [postgres, kafka].Perm
    (discoverRequiredServices (fun name => name.length) "google" serviceTests) := by
  have needed : serviceTests.flatMap (updatedServices "google" [] []) = [[postgres], [kafka]] := by
    simp [updatedServices, serviceTests]
  -- Their names are of different length.
  rw [discoverRequiredServices, needed]
  exact .of_eq (by decide)

/-- Both threads get to the end. -/
theorem returned_twoThreads {final : State}
    (ran : twoThreads.foldlM (step [postgres, kafka]) (start rebuilding) = some final) :
    ∀ thread < 2, ∃ service, final.phase thread = .returned service := by
  intro thread bound
  -- The final state is computed from the run.
  cases show some _ = some final from ran
  match thread, bound with
  | 0, _ => exact ⟨_, rfl⟩
  | 1, _ => exact ⟨_, rfl⟩

/-- Only the service that is missing is asked for, and both threads return a running one. -/
theorem createService_once_twoThreads : ∃ final,
    twoThreads.foldlM (step [postgres, kafka]) (start rebuilding) = some final ∧
    final.requests.Nodup ∧ (∀ name ∈ final.requests, rebuilding name = none) ∧
    final.phase 0 = .returned ⟨"pg", "RUNNING"⟩ ∧
    final.phase 1 = .returned ⟨"kafka", "RUNNING"⟩ := by
  have ran := show twoThreads.foldlM (step [postgres, kafka]) (start rebuilding) = some _ from rfl
  -- The run itself is computed.
  obtain ⟨nodup, fresh, -⟩ := createService_once discovered_serviceTests ran
  exact ⟨_, ran, nodup, fun name member => (fresh name member).2, rfl, rfl⟩

/-- The service of a thread that has returned is there, and was asked for where it was missing. -/
theorem Sound.there (sound : Sound specs cloud final)
    (returned : ∀ thread < specs.length, ∃ service, final.phase thread = .returned service)
    {spec : ServiceSpec} (inside : spec ∈ specs) : final.cloud spec.name ≠ none ∧
      (cloud spec.name = none → spec.name ∈ final.requests) := by
  -- Every specification has a thread of its own.
  obtain ⟨thread, own⟩ := List.mem_iff_getElem?.mp inside
  obtain ⟨service, done⟩ := returned thread (List.getElem?_eq_some_iff.mp own).1
  have good := sound.threads thread spec own
  rw [done] at good
  exact ⟨good.of_returned.1, fun none => (good.of_returned.2 none).1⟩

/-- When all threads return, every required service is there, and the missing ones were made. -/
theorem spinUpServices_returned
    (required : specs.Perm (discoverRequiredServices hash cloudProvider subclasses))
    (ran : schedule.foldlM (step specs) (start cloud) = some final)
    (returned : ∀ thread < specs.length, ∃ service, final.phase thread = .returned service) :
    (∀ needed ∈ subclasses.flatMap (updatedServices cloudProvider [] []), ∀ spec ∈ needed,
      ∃ found ∈ specs, hash found.name = hash spec.name ∧ final.cloud found.name ≠ none) ∧
    ∀ name, name ∈ final.requests ↔ name ∈ specs.map ServiceSpec.name ∧ cloud name = none := by
  -- A thread that has returned knows that its service is there.
  have sound := sound_of_required required ran
  refine ⟨fun needed inside spec member => ?_, fun name => ⟨fun asked => ?_, fun both => ?_⟩⟩
  · obtain ⟨found, kept, hashed⟩ := discovered_covers hash inside member
    have required := required.mem_iff.mpr kept
    exact ⟨found, required, hashed, (sound.there returned required).1⟩
  · exact ⟨sound.required name asked, sound.fresh asked⟩
  · obtain ⟨spec, inside, same⟩ := List.mem_map.mp both.1
    subst same
    exact (sound.there returned inside).2 both.2

/-- Both services are there behind the run, and just the missing one was made. -/
theorem spinUpServices_returned_twoThreads : ∃ final,
    twoThreads.foldlM (step [postgres, kafka]) (start rebuilding) = some final ∧
    "pg-latest-startup-4" ∈ final.requests ∧ "kafka-latest-startup-2" ∉ final.requests ∧
    ∃ found ∈ [postgres, kafka], (found.name.length : Int) = kafka.name.length ∧
      final.cloud found.name ≠ none := by
  have ran := show twoThreads.foldlM (step [postgres, kafka]) (start rebuilding) = some _ from rfl
  obtain ⟨there, made⟩ :=
    spinUpServices_returned discovered_serviceTests ran (returned_twoThreads ran)
  -- The service of the Kafka tests was there before, so that nobody asks for it.
  refine ⟨_, ran, (made _).mpr ⟨by decide, rfl⟩, fun asked => ?_, ?_⟩
  · exact absurd ((made _).mp asked).2 (by decide)
  · exact there [kafka] (by simp [serviceTests, updatedServices]) kafka (.head _)

/-- Tearing down goes through when all services are there, and leaves just the others. -/
theorem tearDownServices_left
    (required : specs.Perm (discoverRequiredServices hash cloudProvider subclasses))
    (ran : schedule.foldlM (step specs) (start cloud) = some final) (fails : String → Bool)
    {order : List ServiceSpec}
    (again : order.Perm (discoverRequiredServices hash cloudProvider subclasses)) :
    ((tearDownServices fails final.cloud order).raised = false ↔
      ∀ spec ∈ specs, final.cloud spec.name ≠ none ∧ fails spec.name = false) ∧
    ((tearDownServices fails final.cloud order).raised = false → ∀ name,
      (tearDownServices fails final.cloud order).cloud name = none ↔
        cloud name = none ∨ name ∈ specs.map ServiceSpec.name) ∧
    ((∀ thread < specs.length, ∃ service, final.phase thread = .returned service) →
      ((tearDownServices fails final.cloud order).raised = false ↔
        ∀ spec ∈ specs, fails spec.name = false)) := by
  -- The specifications may come out of the set in another order.
  have sound := sound_of_required required ran
  have same : order.Perm specs := again.trans required.symm
  have distinct : (order.map ServiceSpec.name).Nodup :=
    (again.map _).nodup_iff.mpr (discovered_distinct hash cloudProvider subclasses)
  have goesThrough : (tearDownServices fails final.cloud order).raised = false ↔
      ∀ spec ∈ specs, final.cloud spec.name ≠ none ∧ fails spec.name = false :=
    (raised_tearDownServices fails final.cloud distinct).trans
      (forall_congr' fun spec => imp_congr_left same.mem_iff)
  refine ⟨goesThrough, fun whole name => ?_, fun returned => goesThrough.trans ?_⟩
  · -- The services of the other names are those from the start.
    have names : name ∈ order.map ServiceSpec.name ↔ name ∈ specs.map ServiceSpec.name :=
      (same.map _).mem_iff
    rw [cloud_tearDownServices fails final.cloud whole]
    by_cases member : name ∈ specs.map ServiceSpec.name
    · simp only [names.mpr member, if_true, member, or_true]
    · simp only [mt names.mp member, if_false, member, or_false, sound.others name member]
  · exact forall₂_congr fun spec inside => and_iff_right (sound.there returned inside).1

/-- Behind the run of the two threads both services are deleted, in the other order. -/
theorem tearDownServices_left_twoThreads : ∃ final,
    twoThreads.foldlM (step [postgres, kafka]) (start rebuilding) = some final ∧
    (tearDownServices (fun _ => false) final.cloud [kafka, postgres]).raised = false ∧
    (tearDownServices (fun _ => false) final.cloud [kafka, postgres]).cloud
      "kafka-latest-startup-2" = none := by
  have ran := show twoThreads.foldlM (step [postgres, kafka]) (start rebuilding) = some _ from rfl
  -- The set may give out the two specifications in the other order.
  have swapped := (List.Perm.swap postgres kafka []).trans discovered_serviceTests
  obtain ⟨-, left, answered⟩ := tearDownServices_left discovered_serviceTests ran
    (fun _ => false) swapped
  have whole := (answered (returned_twoThreads ran)).mpr fun _ _ => rfl
  exact ⟨_, ran, whole, (left whole _).mpr (.inr (by decide))⟩

end Runs

end AivenExamples.ServiceTests
