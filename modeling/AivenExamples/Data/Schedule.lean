import Mathlib.Data.List.Induction
import Mathlib.Data.Option.Basic

/-! Schedules of a step function that may refuse a step, and what holds along them. -/

namespace AivenExamples.Schedule

variable {σ α : Type} {step : σ → α → Option σ} {initial : σ}

/-- The last action of a schedule is taken in the state to which the others lead. -/
theorem foldlM_concat (schedule : List α) (action : α) :
    (schedule ++ [action]).foldlM step initial =
      schedule.foldlM step initial >>= fun state => step state action := by
  simp [List.foldlM_append]

/-- What holds at the start and is kept by every step holds behind every schedule. -/
theorem invariant (holds : List α → σ → Prop) (start : holds [] initial)
    (kept : ∀ schedule action state next, schedule.foldlM step initial = some state →
      holds schedule state → step state action = some next → holds (schedule ++ [action]) next)
    {schedule : List α} {final : σ} (ran : schedule.foldlM step initial = some final) :
    holds schedule final := by
  -- The last action is taken away, and the state before it is that of the shorter schedule.
  induction schedule using List.reverseRecOn generalizing final with
  | nil =>
    cases ran
    exact start
  | append_singleton schedule action ih =>
    rw [foldlM_concat] at ran
    obtain ⟨state, before, taken⟩ := Option.bind_eq_some_iff.mp ran
    exact kept schedule action state final before (ih before) taken

/-- A longer schedule is cut at its end, or before its last action. -/
theorem concat_eq_append_iff {schedule earlier later : List α} {last : α} :
    schedule ++ [last] = earlier ++ later ↔ (earlier = schedule ++ [last] ∧ later = []) ∨
      ∃ front, later = front ++ [last] ∧ schedule = earlier ++ front := by
  constructor
  · intro split
    -- The later part is empty, or the last action is its last one.
    rcases List.eq_nil_or_concat later with empty | ⟨front, other, joined⟩
    · subst empty
      rw [List.append_nil] at split
      exact .inl ⟨split.symm, rfl⟩
    · rw [List.concat_eq_append] at joined
      subst joined
      rw [← List.append_assoc] at split
      obtain ⟨before, same⟩ := List.append_inj' split rfl
      exact .inr ⟨front, by rw [(List.cons.inj same).1], before⟩
  · intro either
    rcases either with ⟨whole, empty⟩ | ⟨front, joined, before⟩
    · rw [whole, empty, List.append_nil]
    · rw [joined, before, List.append_assoc]

/-- An action of a longer schedule is the last one, or one of those before. -/
theorem concat_eq_cons_iff {schedule earlier later : List α} {last action : α} :
    schedule ++ [last] = earlier ++ action :: later ↔
      (earlier = schedule ∧ action = last ∧ later = []) ∨
        ∃ front, later = front ++ [last] ∧ schedule = earlier ++ action :: front := by
  rw [concat_eq_append_iff]
  constructor
  · intro either
    rcases either with ⟨-, empty⟩ | ⟨front, joined, before⟩
    · cases empty
    · -- The action is the last one when nothing else is cut off with it.
      cases front with
      | nil =>
        obtain ⟨same, empty⟩ := List.cons.inj joined
        exact .inl ⟨by rw [before, List.append_nil], same, empty⟩
      | cons other front =>
        obtain ⟨same, rest⟩ := List.cons.inj joined
        exact .inr ⟨front, rest, by rw [before, same]⟩
  · intro either
    rcases either with ⟨before, same, empty⟩ | ⟨front, joined, before⟩
    · exact .inr ⟨[], by rw [same, empty, List.nil_append], by rw [before, List.append_nil]⟩
    · exact .inr ⟨action :: front, by rw [joined, List.cons_append], before⟩

end AivenExamples.Schedule
