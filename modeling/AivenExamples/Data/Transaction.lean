import Mathlib.Data.List.Induction
import Mathlib.Logic.Basic

/-! Programs over one connection to a transactional store, where anything that is sent can fail. -/

namespace AivenExamples.Transaction

/-- How a commit ends. -/
inductive CommitOutcome where
  | done
  | refused
  -- The store has committed, and the client does not learn of it.
  | lost

/-- What goes wrong from outside, by the number of what has been sent before. -/
structure Network where
  fails : Nat → Bool
  commits : Nat → CommitOutcome

/-- A connection, with the state that others see and the one that its transaction sees. -/
structure Session (δ : Type) where
  committed : δ
  working : δ
  aborted : Bool
  sent : Nat

/-- A connection without a transaction. -/
def Session.start {δ : Type} (store : δ) : Session δ :=
  { committed := store, working := store, aborted := false, sent := 0 }

/-- What a transaction leaves behind at its end: nothing of it after a statement has failed. -/
def Session.result {δ : Type} (session : Session δ) : δ :=
  if session.aborted then session.committed else session.working

/-- The connection at the end of a transaction, without another one. -/
def Session.ended {δ : Type} (session : Session δ) (store : δ) : Session δ :=
  { committed := store, working := store, aborted := false, sent := session.sent + 1 }

/-- The connection behind a statement that has failed. -/
def Session.failed {δ : Type} (session : Session δ) : Session δ :=
  { session with aborted := true, sent := session.sent + 1 }

/-- A program, which has a result unless it raises. -/
def Program (δ α : Type) := Session δ → Option α × Session δ

namespace Program

variable {δ α β : Type}

/-- The rest of a program only runs when the first part has a result. -/
def andThen (first : Program δ α) (rest : α → Program δ β) : Program δ β := fun session =>
  match first session with
  | (some value, next) => rest value next
  | (none, next) => (none, next)

instance : Monad (Program δ) where
  pure value := fun session => (some value, session)
  bind := andThen

/-- The program ends here with an exception. -/
def raise : Program δ α := fun session => (none, session)

/-- The exception of a part is caught, and the program goes on. -/
def attempt (part : Program δ α) : Program δ (Option α) := fun session =>
  ((some (part session).1), (part session).2)

/-- A statement changes what the transaction sees, or aborts the transaction. -/
def execute (network : Network) (statement : δ → Option (α × δ)) : Program δ α := fun session =>
  if session.aborted || network.fails session.sent then (none, session.failed)
  else
    match statement session.working with
    | none => (none, session.failed)
    | some (value, working) => (some value, { session with working, sent := session.sent + 1 })

/-- A transaction ends; that it was aborted is no error for the client. -/
def commit (network : Network) : Program δ Unit := fun session =>
  match network.commits session.sent with
  | .done => (some (), session.ended session.result)
  | .lost => (none, session.ended session.result)
  | .refused => (none, session.ended session.committed)

/-- The same step for every item of a list, in order. -/
def forEach (step : α → Program δ β) : List α → Program δ (List β)
  | [] => pure []
  | item :: items => do
    let first ← step item
    let rest ← forEach step items
    return first :: rest

/--
A program that starts where one condition holds ends where another does.

The last condition holds where the program raises.
-/
def Triple (before : Session δ → Prop) (program : Program δ α)
    (after : α → Session δ → Prop) (raised : Session δ → Prop) : Prop :=
  ∀ session, before session →
    match program session with
    | (some value, next) => after value next
    | (none, next) => raised next

variable {before : Session δ → Prop} {raised : Session δ → Prop} {after : α → Session δ → Prop}

theorem triple_pure {value : α} (holds : ∀ session, before session → after value session) :
    Triple before (pure value) after raised := holds

theorem triple_raise (holds : ∀ session, before session → raised session) :
    Triple before (raise : Program δ α) after raised := holds

/-- Two parts are put together at what holds between them. -/
theorem triple_bind {first : Program δ α} {rest : α → Program δ β}
    {final : β → Session δ → Prop} (one : Triple before first after raised)
    (two : ∀ value, Triple (after value) (rest value) final raised) :
    Triple before (first >>= rest) final raised := by
  intro session holds
  have middle := one session holds
  show match andThen first rest session with
    | (some value, next) => final value next
    | (none, next) => raised next
  unfold andThen
  -- The rest starts where the first part has ended, unless it has raised.
  match ran : first session with
  | (some value, next) =>
    rw [ran] at middle
    exact two value next middle
  | (none, next) =>
    rw [ran] at middle
    exact middle

/-- The rest of a program starts where the first part has ended. -/
theorem bind_of_some {first : Program δ α} {rest : α → Program δ β} {session next : Session δ}
    {value : α} (ran : first session = (some value, next)) :
    (first >>= rest) session = rest value next := by
  show andThen first rest session = rest value next
  rw [andThen, ran]

/-- What holds at the end whether the program raises or not. -/
theorem Triple.always {program : Program δ α} {holds : Session δ → Prop}
    (one : Triple before program (fun _ => holds) holds) {session : Session δ}
    (starts : before session) : holds (program session).2 := by
  -- Both ends say the same.
  have ended := one session starts
  match ran : program session with
  | (some value, next) =>
    rw [ran] at ended
    exact ended
  | (none, next) =>
    rw [ran] at ended
    exact ended

/-- A program may start where more holds, and less may be said of its end. -/
theorem Triple.consequence {program : Program δ α} (one : Triple before program after raised)
    {earlier : Session δ → Prop} {later : α → Session δ → Prop} {caught : Session δ → Prop}
    (starts : ∀ session, earlier session → before session)
    (ends : ∀ value session, after value session → later value session)
    (raises : ∀ session, raised session → caught session) :
    Triple earlier program later caught := by
  intro session holds
  -- The program itself does what it did.
  have middle := one session (starts session holds)
  match ran : program session with
  | (some value, next) =>
    rw [ran] at middle
    exact ends value next middle
  | (none, next) =>
    rw [ran] at middle
    exact raises next middle

/-- A fact that is not about the connection is known all the way. -/
theorem Triple.assume {program : Program δ α} {fact : Prop}
    (one : fact → Triple before program after raised) :
    Triple (fun session => fact ∧ before session) program after raised :=
  fun session holds => one holds.1 session holds.2

/-- A statement does what it says in a transaction that goes on, or aborts the transaction. -/
theorem triple_execute {network : Network} {statement : δ → Option (α × δ)}
    (succeeds : ∀ session value working, before session → session.aborted = false →
      statement session.working = some (value, working) →
      after value { session with working, sent := session.sent + 1 })
    (fails : ∀ session, before session → raised session.failed) :
    Triple before (execute network statement) after raised := by
  intro session holds
  unfold execute
  -- In an aborted transaction nothing succeeds, and neither does what the network drops.
  by_cases refused : (session.aborted || network.fails session.sent) = true
  · rw [if_pos refused]
    exact fails session holds
  · rw [if_neg refused]
    match done : statement session.working with
    | none => exact fails session holds
    | some (value, working) =>
      have going : session.aborted = false := by
        cases aborted : session.aborted with
        | false => rfl
        | true => simp [aborted] at refused
      exact succeeds session value working holds going done

/-- A commit makes the result of the transaction visible, or fails before or after it has. -/
theorem triple_commit {network : Network} {after : Unit → Session δ → Prop}
    (done : ∀ session, before session → after () (session.ended session.result))
    (lost : ∀ session, before session → raised (session.ended session.result))
    (refused : ∀ session, before session → raised (session.ended session.committed)) :
    Triple before (commit network) after raised := by
  intro session holds
  unfold commit
  -- A lost answer leaves the store as if it had arrived.
  match network.commits session.sent with
  | .done => exact done session holds
  | .lost => exact lost session holds
  | .refused => exact refused session holds

/-- A caught exception is one of two results. -/
theorem triple_attempt {part : Program δ α} (one : Triple before part after raised)
    {caught : Session δ → Prop} :
    Triple before (attempt part) (fun result session =>
      match result with
      | some value => after value session
      | none => raised session) caught := by
  intro session holds
  have middle := one session holds
  -- The result says which of the two ends it was.
  match ran : part session with
  | (some value, next) =>
    rw [ran] at middle
    simpa only [attempt, ran] using middle
  | (none, next) =>
    rw [ran] at middle
    simpa only [attempt, ran] using middle

/-- A loop keeps what each of its rounds takes from the items before to those with its own. -/
theorem triple_forEach {step : α → Program δ β} (loop : List α → List β → Session δ → Prop)
    {items : List α} (round : ∀ front item rest results, items = front ++ item :: rest →
      Triple (loop front results) (step item)
        (fun result => loop (front ++ [item]) (results ++ [result])) raised) :
    Triple (loop [] []) (forEach step items) (loop items) raised := by
  -- The loop has done the items in front, and the others are left.
  suffices general : ∀ front rest results, items = front ++ rest →
      Triple (loop front results) (forEach step rest)
        (fun more => loop items (results ++ more)) raised from general [] items [] rfl
  intro front rest
  induction rest generalizing front with
  | nil =>
    intro results split
    rw [List.append_nil] at split
    subst split
    exact triple_pure fun session holds => by rwa [List.append_nil]
  | cons item rest ih =>
    intro results split
    refine triple_bind (round front item rest results split) fun result => ?_
    have others := ih (front ++ [item]) (results ++ [result]) (by simp [split])
    refine triple_bind others fun more => triple_pure fun session holds => ?_
    simpa using holds

end Program

end AivenExamples.Transaction
