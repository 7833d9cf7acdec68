import Mathlib.Data.List.Basic
import Mathlib.Data.List.Induction
import Mathlib.Tactic.SplitIfs

/-! The items at the end of a list that all have a property, counted as a loop counts them. -/

namespace AivenExamples.Streak

variable {α : Type} (keep : α → Bool)

/-- How many items at the end are all kept. -/
def streak (items : List α) : Nat := (items.reverse.takeWhile keep).length

@[simp] theorem streak_nil : streak keep [] = 0 := rfl

@[simp] theorem streak_concat (items : List α) (item : α) :
    streak keep (items ++ [item]) = if keep item then streak keep items + 1 else 0 := by
  -- The last item is looked at first.
  rw [streak, List.reverse_append, List.reverse_singleton, List.singleton_append,
    List.takeWhile_cons]
  split
  · rfl
  · rfl

/-- A streak is as long as a number exactly when so many items at the end are all kept. -/
theorem le_streak_iff {items : List α} {count : Nat} : count ≤ streak keep items ↔
    ∃ earlier recent, items = earlier ++ recent ∧ recent.length = count ∧
      ∀ item ∈ recent, keep item := by
  -- The induction is on the items, the last one first.
  induction items using List.reverseRecOn generalizing count with
  | nil =>
    constructor
    · intro none
      exact ⟨[], [], rfl, (Nat.le_zero.mp none).symm,
        fun _ member => absurd member List.not_mem_nil⟩
    · intro split
      obtain ⟨earlier, recent, split, length, -⟩ := split
      rw [← length, (List.append_eq_nil_iff.mp split.symm).2]
      exact Nat.zero_le _
  | append_singleton items item ih =>
    cases count with
    | zero =>
      simp only [Nat.zero_le, true_iff]
      exact ⟨_, [], (List.append_nil _).symm, rfl, fun _ member => absurd member List.not_mem_nil⟩
    | succ count =>
      rw [streak_concat]
      constructor
      · intro enough
        split_ifs at enough with kept
        · obtain ⟨earlier, recent, split, length, all⟩ := ih.mp (Nat.le_of_succ_le_succ enough)
          refine ⟨earlier, recent ++ [item], by rw [split, List.append_assoc], by simp [length], ?_⟩
          exact List.forall_mem_append.mpr ⟨all, List.forall_mem_singleton.mpr kept⟩
        · exact absurd enough (Nat.not_succ_le_zero count)
      · intro split
        obtain ⟨earlier, recent, split, length, all⟩ := split
        -- The last one of them is the last item.
        have some : recent ≠ [] := by
          intro none
          rw [none] at length
          exact absurd length (Nat.succ_ne_zero count).symm
        have last := List.dropLast_append_getLast some
        rw [← last, ← List.append_assoc] at split
        obtain ⟨front, same⟩ := List.append_inj' split rfl
        have kept : keep item := List.singleton_inj.mp same ▸ all _ (List.getLast_mem some)
        rw [if_pos kept]
        refine Nat.succ_le_succ (ih.mpr ⟨earlier, recent.dropLast, front, by simp [length], ?_⟩)
        exact fun other member => all other (List.dropLast_subset _ member)

end AivenExamples.Streak
