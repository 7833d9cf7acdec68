import Mathlib.Data.List.Forall2

/-! Computations that may raise an exception, one after the other and in a loop. -/

namespace AivenExamples

/-- A computation that may raise succeeds exactly when both of its parts do. -/
theorem bind_eq_ok {φ α β : Type} {first : Except φ α} {rest : α → Except φ β} {result : β} :
    first >>= rest = .ok result ↔ ∃ value, first = .ok value ∧ rest value = .ok result := by
  cases first <;> simp [bind, Except.bind]

/-- A loop succeeds with the results of its rounds. -/
theorem mapM_eq_ok_iff {φ α β : Type} {step : α → Except φ β} {items : List α} {results : List β} :
    items.mapM step = .ok results ↔
      List.Forall₂ (fun item result => step item = .ok result) items results := by
  -- The results vary, since every round puts its own in front.
  induction items generalizing results with
  | nil => simp [pure, Except.pure, eq_comm]
  | cons item items ih =>
    rw [List.mapM_cons, bind_eq_ok, List.forall₂_cons_left_iff]
    constructor
    · intro succeeds
      obtain ⟨first, head, rest⟩ := succeeds
      obtain ⟨others, tail, same⟩ := bind_eq_ok.mp rest
      cases same
      exact ⟨first, others, head, ih.mp tail, rfl⟩
    · intro related
      obtain ⟨first, others, head, tail, same⟩ := related
      exact ⟨first, head, bind_eq_ok.mpr ⟨others, ih.mpr tail, congrArg _ same.symm⟩⟩

/-- A loop whose rounds all succeed collects their results. -/
theorem mapM_eq_ok {φ α β : Type} {step : α → Except φ β} {result : α → β} {items : List α}
    (succeeds : ∀ item ∈ items, step item = .ok (result item)) :
    items.mapM step = .ok (items.map result) := by
  -- Every round hands its result on to the next ones.
  induction items with
  | nil => rfl
  | cons item items ih =>
    have rest := ih fun other member => succeeds other (List.mem_cons_of_mem _ member)
    simp [List.mapM_cons, succeeds item (by simp), rest, bind, Except.bind, pure, Except.pure]

/-- The results of a loop include that of every round. -/
theorem exists_mem_of_mapM {φ α β : Type} {step : α → Except φ β} {items : List α}
    {results : List β} (succeeds : items.mapM step = .ok results) {item : α}
    (member : item ∈ items) : ∃ result ∈ results, step item = .ok result := by
  -- Every item has its result at its own place.
  have related := mapM_eq_ok_iff.mp succeeds
  clear succeeds
  induction related with
  | nil => cases member
  | cons head tail ih =>
    rcases List.mem_cons.mp member with here | later
    · exact ⟨_, List.mem_cons_self, here ▸ head⟩
    · obtain ⟨result, there, found⟩ := ih later
      exact ⟨result, List.mem_cons_of_mem _ there, found⟩

/-- A loop succeeds exactly when each of its rounds does. -/
theorem mapM_succeeds_iff {φ α β : Type} {step : α → Except φ β} {items : List α} :
    (∃ results, items.mapM step = .ok results) ↔
      ∀ item ∈ items, ∃ result, step item = .ok result := by
  constructor
  · intro succeeds item member
    obtain ⟨results, succeeds⟩ := succeeds
    obtain ⟨result, _, found⟩ := exists_mem_of_mapM succeeds member
    exact ⟨result, found⟩
  · -- The loop is taken apart round by round.
    intro every
    induction items with
    | nil => exact ⟨[], rfl⟩
    | cons item items ih =>
      obtain ⟨first, head⟩ := every item (by simp)
      obtain ⟨others, tail⟩ := ih fun other member => every other (List.mem_cons_of_mem _ member)
      exact ⟨first :: others, mapM_eq_ok_iff.mpr (.cons head (mapM_eq_ok_iff.mp tail))⟩

end AivenExamples
