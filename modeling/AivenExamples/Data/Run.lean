import Mathlib.Data.List.Pairwise

/-! Programs that produce observable events and may end early, and what holds of their events. -/

namespace AivenExamples

/-- The events of a run, in order, and its result unless the program has ended. -/
structure Run (ε α : Type) where
  events : List ε
  result : Option α

namespace Run

variable {ε α β : Type}

/-- The rest of a program only runs when the first part has a result. -/
def andThen (first : Run ε α) (rest : α → Run ε β) : Run ε β :=
  match first.result with
  | some value => { events := first.events ++ (rest value).events, result := (rest value).result }
  -- A part that has ended takes the rest of the program with it.
  | none => { events := first.events, result := none }

instance : Monad (Run ε) where
  pure value := { events := [], result := some value }
  bind := andThen

/-- One event. -/
def emit (event : ε) : Run ε Unit := { events := [event], result := some () }

/-- The program ends here. -/
def stop : Run ε α := { events := [], result := none }

/-- The value of an attempt that succeeded; a failed one leaves an event and ends the program. -/
def attempt {φ : Type} (outcome : Except φ α) (failure : ε) : Run ε α :=
  match outcome with
  | .ok value => { events := [], result := some value }
  | .error _ => { events := [failure], result := none }

/-- The same step for every item of a list, in order. -/
def forEach (step : α → Run ε β) : List α → Run ε (List β)
  | [] => pure []
  | item :: items => do
    let first ← step item
    let rest ← forEach step items
    return first :: rest

/-- A step for every item of a list that hands a state on. -/
def fold {σ : Type} (step : σ → α → Run ε σ) : σ → List α → Run ε σ
  | state, [] => pure state
  | state, item :: items => do
    let next ← step state item
    fold step next items

@[simp] theorem events_pure (value : α) : (pure value : Run ε α).events = [] := rfl

@[simp] theorem result_pure (value : α) : (pure value : Run ε α).result = some value := rfl

@[simp] theorem events_emit (event : ε) : (emit event).events = [event] := rfl

@[simp] theorem result_emit (event : ε) : (emit event).result = some () := rfl

@[simp] theorem events_stop : (stop : Run ε α).events = [] := rfl

@[simp] theorem result_stop : (stop : Run ε α).result = none := rfl

/-- A part with a result hands over to the rest. -/
theorem bind_of_some {first : Run ε α} {value : α} (done : first.result = some value)
    (rest : α → Run ε β) : first >>= rest =
      { events := first.events ++ (rest value).events, result := (rest value).result } := by
  show andThen first rest = _
  simp [andThen, done]

/-- A part without a result is all that happens. -/
theorem bind_of_none {first : Run ε α} (ended : first.result = none) (rest : α → Run ε β) :
    first >>= rest = { events := first.events, result := none } := by
  show andThen first rest = _
  simp [andThen, ended]

/-- An event comes before those of the rest. -/
@[simp] theorem events_emit_bind (event : ε) (rest : Unit → Run ε α) :
    (emit event >>= rest).events = event :: (rest ()).events := rfl

/-- An attempt that succeeds hands over to the rest. -/
@[simp] theorem attempt_ok_bind {φ : Type} (value : α) (failure : ε) (rest : α → Run ε β) :
    attempt (.ok value : Except φ α) failure >>= rest = rest value := rfl

/-- An attempt that fails is the last that happens. -/
@[simp] theorem attempt_error_bind {φ : Type} (fault : φ) (failure : ε) (rest : α → Run ε β) :
    attempt (.error fault : Except φ α) failure >>= rest =
      { events := [failure], result := none } := rfl

/-- An event satisfies the predicate whenever it occurs in the run. -/
def Always (allowed : ε → Prop) (run : Run ε α) : Prop := ∀ event ∈ run.events, allowed event

/-- A run without events satisfies every such property. -/
theorem always_pure (allowed : ε → Prop) (value : α) : Always allowed (pure value) := by
  simp [Always]

/-- A single event has to be allowed itself. -/
theorem always_emit {allowed : ε → Prop} {event : ε} (fine : allowed event) :
    Always allowed (emit event) := by
  simpa [Always] using fine

/-- An attempt has at most the event of its failure. -/
theorem always_attempt {φ : Type} {allowed : ε → Prop} (outcome : Except φ α) {failure : ε}
    (fine : allowed failure) : Always allowed (attempt outcome failure) := by
  -- Only the failing attempt has an event, the given one.
  cases outcome with
  | ok value => simp [Always, attempt]
  | error fault => simpa [Always, attempt] using fine

/-- A composed run has the events of its parts only. -/
theorem always_bind {allowed : ε → Prop} {first : Run ε α} {rest : α → Run ε β}
    (firstFine : first.Always allowed)
    (restFine : ∀ value, first.result = some value → (rest value).Always allowed) :
    (first >>= rest).Always allowed := by
  -- An event stems from the first part, or from the rest that followed its result.
  intro event member
  cases done : first.result with
  | none =>
    rw [bind_of_none done] at member
    exact firstFine event member
  | some value =>
    rw [bind_of_some done, List.mem_append] at member
    exact member.elim (firstFine event) (restFine value done event)

/-- A loop has the events of its steps only. -/
theorem always_forEach {allowed : ε → Prop} {step : α → Run ε β} {items : List α}
    (fine : ∀ item ∈ items, (step item).Always allowed) :
    (forEach step items).Always allowed := by
  -- Collecting the results behind the steps adds no events.
  induction items with
  | nil => exact always_pure allowed []
  | cons item items ih =>
    refine always_bind (fine item (by simp)) fun first _ => ?_
    exact always_bind (ih fun other member => fine other (List.mem_cons_of_mem _ member))
      fun rest _ => always_pure allowed _

/-- Events of the first part are events of the whole. -/
theorem mem_bind_left {first : Run ε α} {rest : α → Run ε β} {event : ε}
    (member : event ∈ first.events) : event ∈ (first >>= rest).events := by
  -- When the first part stops, its events are all there are.
  cases done : first.result with
  | none => rwa [bind_of_none done]
  | some value =>
    rw [bind_of_some done]
    exact List.mem_append_left _ member

/-- Events of the rest are events of the whole when the first part has a result. -/
theorem mem_bind_right {first : Run ε α} {rest : α → Run ε β} {value : α} {event : ε}
    (done : first.result = some value) (member : event ∈ (rest value).events) :
    event ∈ (first >>= rest).events := by
  rw [bind_of_some done]
  exact List.mem_append_right _ member

/-- A composed run has a result when both of its parts have one. -/
theorem result_bind (first : Run ε α) (rest : α → Run ε β) :
    (first >>= rest).result = first.result.bind fun value => (rest value).result := by
  cases done : first.result with
  | none => rw [bind_of_none done, Option.bind_none]
  | some value => rw [bind_of_some done, Option.bind_some]

/-- A composed run has the events of its parts when the first part has a result. -/
theorem events_bind {first : Run ε α} {value : α} (done : first.result = some value)
    (rest : α → Run ε β) : (first >>= rest).events = first.events ++ (rest value).events := by
  rw [bind_of_some done]

/-- A loop collects the result of its first step and those of the other ones. -/
theorem forEach_result_cons (step : α → Run ε β) (item : α) (items : List α) :
    (forEach step (item :: items)).result =
      (step item).result.bind fun first => (forEach step items).result.map (first :: ·) := by
  rw [forEach, result_bind]
  congr 1
  funext first
  -- Putting the results together adds no result of its own.
  rw [result_bind]
  cases (forEach step items).result <;> rfl

/-- A loop has no result when one of its steps never has one. -/
theorem forEach_result_none {step : α → Run ε β} {items : List α} {item : α} (member : item ∈ items)
    (ended : (step item).result = none) : (forEach step items).result = none := by
  -- Either the first step ends the loop or, by induction, a later one does.
  induction items with
  | nil => cases member
  | cons head items ih =>
    rw [forEach_result_cons]
    rcases List.mem_cons.mp member with here | later
    · rw [← here, ended, Option.bind_none]
    · simp [ih later]

/-- The results of a loop include that of every step. -/
theorem mem_of_forEach_result {step : α → Run ε β} {items : List α} {values : List β}
    (done : (forEach step items).result = some values) {item : α} (member : item ∈ items) :
    ∃ value ∈ values, (step item).result = some value := by
  -- The collected results vary, since every step puts its own in front.
  induction items generalizing values with
  | nil => cases member
  | cons head items ih =>
    rw [forEach_result_cons, Option.bind_eq_some_iff] at done
    obtain ⟨value, first, rest⟩ := done
    obtain ⟨others, collected, same⟩ := Option.map_eq_some_iff.mp rest
    subst same
    rcases List.mem_cons.mp member with here | later
    · exact ⟨value, by simp, here ▸ first⟩
    · -- The result of a later step is among the results of the rest of the loop.
      obtain ⟨found, there, result⟩ := ih collected later
      exact ⟨found, List.mem_cons_of_mem _ there, result⟩

/-- A loop whose steps all have results of a kind collects results of that kind. -/
theorem forEach_result_some {step : α → Run ε β} {items : List α} {kind : β → Prop}
    (done : ∀ item ∈ items, ∃ value, (step item).result = some value ∧ kind value) :
    ∃ values, (forEach step items).result = some values ∧ ∀ value ∈ values, kind value := by
  -- The first step has a result, so that the others are made.
  induction items with
  | nil => exact ⟨[], rfl, by simp⟩
  | cons item items ih =>
    obtain ⟨value, first, fine⟩ := done item (by simp)
    obtain ⟨values, rest, restFine⟩ :=
      ih fun other member => done other (List.mem_cons_of_mem _ member)
    refine ⟨value :: values, ?_, by simpa using ⟨fine, restFine⟩⟩
    simp [forEach_result_cons, first, rest]

/--
After a failing event nothing of a kind happens any more.

A run that still has a result has had no failing event, so that further parts may follow.
-/
structure Halts (failing acting : ε → Prop) (run : Run ε α) : Prop where
  after : run.events.Pairwise fun earlier later => failing earlier → ¬ acting later
  unharmed : ∀ value, run.result = some value → ∀ event ∈ run.events, ¬ failing event

/-- A run without failing events needs no halt. -/
theorem halts_of_always {failing acting : ε → Prop} {run : Run ε α}
    (fine : run.Always fun event => ¬ failing event) : Halts failing acting run where
  after := List.pairwise_of_forall_mem_list fun earlier member _ _ failed =>
    absurd failed (fine earlier member)
  unharmed := fun _ _ => fine

/-- A part that halts may be followed by parts that halt. -/
theorem halts_bind {failing acting : ε → Prop} {first : Run ε α} {rest : α → Run ε β}
    (firstHalts : Halts failing acting first)
    (restHalts : ∀ value, Halts failing acting (rest value)) :
    Halts failing acting (first >>= rest) := by
  cases done : first.result with
  -- Nothing follows a part that has ended.
  | none =>
    rw [bind_of_none done]
    exact ⟨firstHalts.after, by simp⟩
  | some value =>
    -- The first part has a result, hence no failing event that the rest could follow.
    have clean := firstHalts.unharmed value done
    rw [bind_of_some done]
    refine ⟨List.pairwise_append.mpr ⟨firstHalts.after, (restHalts value).after,
      fun earlier member _ _ failed => absurd failed (clean earlier member)⟩, ?_⟩
    -- With a result of the rest both parts are unharmed.
    intro final same event member
    exact (List.mem_append.mp member).elim (clean event)
      ((restHalts value).unharmed final same event)

/-- A loop of parts that halt is a run that halts. -/
theorem halts_forEach {failing acting : ε → Prop} {step : α → Run ε β} (items : List α)
    (stepHalts : ∀ item, Halts failing acting (step item)) :
    Halts failing acting (forEach step items) := by
  -- Every step may be followed by the other steps, and these by collecting their results.
  induction items with
  | nil => exact halts_of_always (always_pure _ [])
  | cons item items ih =>
    exact halts_bind (stepHalts item) fun first =>
      halts_bind ih fun rest => halts_of_always (always_pure _ _)

end Run

end AivenExamples
