import Mathlib.Data.List.Induction

/-! Tables that keep every written row and answer reads with the newest version of each key. -/

namespace AivenExamples

/-- How a replacing table reads the key, the version and the deletion mark of a stored row. -/
structure RowReader (ρ κ : Type) where
  /-- The sorting key, which is what two rows compete for. -/
  key : ρ → κ
  /-- The version that decides the competition. -/
  version : ρ → Nat
  /-- Whether the winning row only records that its key is gone. -/
  deleted : ρ → Bool

namespace RowReader

variable {ρ κ : Type} (reader : RowReader ρ κ)

/-- Of two competing rows the later one survives unless its version is strictly smaller. -/
def newer (held : Option ρ) (row : ρ) : Option ρ :=
  match held with
  | none => some row
  | some old => if reader.version old ≤ reader.version row then some row else some old

/-- The merge keeps one of the two rows it is given. -/
theorem newer_eq_or (held : Option ρ) (row : ρ) :
    reader.newer held row = some row ∨ reader.newer held row = held := by
  -- Nothing held lets the row in, and else the versions decide.
  cases held with
  | none => exact Or.inl rfl
  | some old =>
    by_cases ordered : reader.version old ≤ reader.version row
    · exact Or.inl (by simp [newer, ordered])
    · exact Or.inr (by simp [newer, ordered])

variable [DecidableEq κ]

/-- The surviving row of one key, found by merging its rows in arrival order. -/
def newest (rows : List ρ) (key : κ) : Option ρ :=
  (rows.filter fun row => reader.key row = key).foldl reader.newer none

/-- A merged read shows the surviving row of a key, unless that row is a deletion mark. -/
def final (rows : List ρ) (key : κ) : Option ρ :=
  (reader.newest rows key).filter fun row => !reader.deleted row

/-- One more row for the key competes with the survivor so far. -/
theorem newest_append_same (rows : List ρ) (row : ρ) :
    reader.newest (rows ++ [row]) (reader.key row) =
      reader.newer (reader.newest rows (reader.key row)) row := by
  -- The new row passes the key filter and is folded in last.
  simp [newest, List.filter_append]

/-- A row for another key leaves the survivor alone. -/
theorem newest_append_other (rows : List ρ) {row : ρ} {key : κ} (other : reader.key row ≠ key) :
    reader.newest (rows ++ [row]) key = reader.newest rows key := by
  -- The new row does not pass the key filter.
  simp [newest, List.filter_append, other]

/-- The survivor of a key is one of the rows written for it. -/
theorem newest_mem {rows : List ρ} {key : κ} {row : ρ} (found : reader.newest rows key = some row) :
    row ∈ rows ∧ reader.key row = key := by
  -- Rows arrive one at a time, and the merge only ever keeps a row it has seen.
  induction rows using List.reverseRecOn with
  | nil => simp [newest] at found
  | append_singleton rows last ih =>
    by_cases same : reader.key last = key
    -- The last row competes with the survivor of the rows before.
    · subst same
      rw [newest_append_same] at found
      rcases reader.newer_eq_or (reader.newest rows (reader.key last)) last with taken | kept
      · rw [taken] at found
        cases found
        exact ⟨by simp, rfl⟩
      · obtain ⟨member, named⟩ := ih (kept ▸ found)
        exact ⟨List.mem_append_left _ member, named⟩
    -- The last row is about another key.
    · rw [newest_append_other reader rows same] at found
      obtain ⟨member, named⟩ := ih found
      exact ⟨List.mem_append_left _ member, named⟩

/-- A row that is newer than every other row of its key is the survivor. -/
theorem newest_append_dominating {rows : List ρ} {row : ρ}
    (dominates : ∀ old ∈ rows, reader.key old = reader.key row →
      reader.version old ≤ reader.version row) :
    reader.newest (rows ++ [row]) (reader.key row) = some row := by
  -- Whatever survived so far was written for the same key, so it cannot be newer.
  rw [newest_append_same]
  cases held : reader.newest rows (reader.key row) with
  | none => rfl
  | some old =>
    obtain ⟨member, named⟩ := reader.newest_mem held
    simp [newer, dominates old member named]

/-- Reading a key after a dominating row shows that row, or nothing when it marks a deletion. -/
theorem final_append_dominating {rows : List ρ} {row : ρ}
    (dominates : ∀ old ∈ rows, reader.key old = reader.key row →
      reader.version old ≤ reader.version row) :
    reader.final (rows ++ [row]) (reader.key row) =
      if reader.deleted row then none else some row := by
  -- The dominating row survives the merge, so only its own mark decides what is shown.
  rw [final, reader.newest_append_dominating dominates]
  cases marked : reader.deleted row <;> simp [marked]

/-- Writing a row for one key does not change what a read of another key shows. -/
theorem final_append_other (rows : List ρ) {row : ρ} {key : κ} (other : reader.key row ≠ key) :
    reader.final (rows ++ [row]) key = reader.final rows key := by
  -- Reading only depends on the survivor, and the row does not compete for the key.
  rw [final, reader.newest_append_other rows other, final]

/-- A key without a survivor has no row at all. -/
theorem newest_eq_none {rows : List ρ} {key : κ} (none : reader.newest rows key = none) :
    ∀ row ∈ rows, reader.key row ≠ key := by
  -- A merge that has seen a row holds a row ever after.
  induction rows using List.reverseRecOn with
  | nil => simp
  | append_singleton rows last ih =>
    by_cases same : reader.key last = key
    · subst same
      rw [newest_append_same] at none
      rcases reader.newer_eq_or (reader.newest rows (reader.key last)) last with taken | kept
      · rw [taken] at none
        cases none
      · -- Nothing held so far means that the last row was taken.
        rw [kept] at none
        simp [none, newer] at kept
    · rw [newest_append_other reader rows same] at none
      intro row member
      rcases List.mem_append.mp member with before | here
      · exact ih none row before
      · cases List.mem_singleton.mp here
        exact same

/-- No row of a key is newer than the survivor of the key. -/
theorem newest_newest {rows : List ρ} {key : κ} {row : ρ}
    (found : reader.newest rows key = some row) :
    ∀ other ∈ rows, reader.key other = key → reader.version other ≤ reader.version row := by
  -- The survivor only ever gives way to a row that is at least as new.
  induction rows using List.reverseRecOn generalizing row with
  | nil => simp
  | append_singleton rows last ih =>
    intro other member named
    by_cases same : reader.key last = key
    · subst same
      rw [newest_append_same] at found
      cases held : reader.newest rows (reader.key last) with
      | none =>
        -- Without a survivor so far the last row is the only one of its key.
        rw [held] at found
        cases found
        rcases List.mem_append.mp member with before | here
        · exact absurd named (reader.newest_eq_none held other before)
        · cases List.mem_singleton.mp here
          exact Nat.le_refl _
      | some old =>
        have oldNewest := ih held
        rw [held, newer] at found
        by_cases ordered : reader.version old ≤ reader.version last
        · rw [if_pos ordered] at found
          cases found
          rcases List.mem_append.mp member with before | here
          · exact Nat.le_trans (oldNewest other before named) ordered
          · cases List.mem_singleton.mp here
            exact Nat.le_refl _
        · rw [if_neg ordered] at found
          cases found
          rcases List.mem_append.mp member with before | here
          · exact oldNewest other before named
          · cases List.mem_singleton.mp here
            exact Nat.le_of_not_le ordered
    -- A last row of another key is not the one that is asked about.
    · rw [newest_append_other reader rows same] at found
      rcases List.mem_append.mp member with before | here
      · exact ih found other before named
      · cases List.mem_singleton.mp here
        exact absurd named same

/-- The rows of a key in one table all have a counterpart of the same version in another. -/
def Covered (first second : List ρ) (key : κ) : Prop :=
  ∀ row ∈ first, reader.key row = key →
    ∃ other ∈ second, reader.key other = key ∧ reader.version other = reader.version row

/--
Tables with the same versions of a key show the same under it.

Neither the order in which the rows arrive nor how often they do makes a difference.
-/
theorem final_congr {σ : Type} {view : ρ → σ} {first second : List ρ} {key : κ}
    (forth : reader.Covered first second key) (back : reader.Covered second first key)
    (agree : ∀ row ∈ first, ∀ other ∈ second, reader.key row = key → reader.key other = key →
      reader.version row = reader.version other →
        reader.deleted row = reader.deleted other ∧ view row = view other) :
    (reader.final first key).map view = (reader.final second key).map view := by
  unfold final
  cases survivor : reader.newest first key with
  | none =>
    cases rival : reader.newest second key with
    | none => rfl
    | some other =>
      -- The survivor of the second table would have a counterpart in the first one.
      obtain ⟨member, named⟩ := reader.newest_mem rival
      obtain ⟨row, there, rowNamed, _⟩ := back other member named
      exact absurd rowNamed (reader.newest_eq_none survivor row there)
  | some row =>
    obtain ⟨member, named⟩ := reader.newest_mem survivor
    obtain ⟨counterpart, there, counterpartNamed, same⟩ := forth row member named
    cases rival : reader.newest second key with
    | none => exact absurd counterpartNamed (reader.newest_eq_none rival counterpart there)
    | some other =>
      obtain ⟨otherMember, otherNamed⟩ := reader.newest_mem rival
      -- Each survivor is at least as new as the counterpart of the other one.
      have atMost : reader.version row ≤ reader.version other :=
        same ▸ reader.newest_newest rival counterpart there counterpartNamed
      have atLeast : reader.version other ≤ reader.version row := by
        obtain ⟨back, backThere, backNamed, backSame⟩ := back other otherMember otherNamed
        exact backSame ▸ reader.newest_newest survivor back backThere backNamed
      obtain ⟨marks, views⟩ := agree row member other otherMember named otherNamed
        (Nat.le_antisymm atMost atLeast)
      cases marked : reader.deleted row <;> simp [Option.filter, ← marks, marked, views]

end RowReader

end AivenExamples
