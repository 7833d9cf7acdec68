import Mathlib.Data.Finset.Sort

/-! The first few entries of a set that changes, kept without the rest of the set. -/

namespace AivenExamples.Leaderboard

variable {α : Type} [LinearOrder α]

/-- The entries of a set that come before a given one. -/
def ahead (entries : Finset α) (entry : α) : Finset α := entries.filter (· < entry)

/-- A board that has room for so many entries gives up its last one when it is too large. -/
def trim (capacity : Nat) (entries : Finset α) : Finset α :=
  if large : capacity < entries.card then
    entries.erase (entries.max' (Finset.card_pos.mp (by omega)))
  else entries

/--
A board knows enough to hold the first entries of a set again.

Some entries are withdrawn: they have left the set and may come back, in a better place only.
-/
structure Covers (capacity : Nat) (board present withdrawn : Finset α) : Prop where
  subset : board ⊆ present
  -- What is not on the board has a full board ahead of it, counting what has been withdrawn.
  behind : ∀ entry ∈ present, entry ∉ board →
    capacity ≤ (ahead (board ∪ withdrawn) entry).card

variable {capacity : Nat} {board present withdrawn : Finset α} {entry : α}

theorem mem_ahead {entries : Finset α} {other : α} :
    other ∈ ahead entries entry ↔ other ∈ entries ∧ other < entry := by
  simp [ahead]

/-- More entries leave more of them ahead. -/
theorem ahead_mono {entries others : Finset α} (subset : entries ⊆ others) :
    ahead entries entry ⊆ ahead others entry :=
  Finset.filter_subset_filter _ subset

/-- An empty board covers an empty set. -/
theorem covers_empty : Covers capacity (∅ : Finset α) ∅ ∅ where
  subset := Finset.Subset.refl ∅
  behind := by simp

/-- An entry that is withdrawn leaves the board and the set together. -/
theorem Covers.withdraw (covers : Covers capacity board present withdrawn) :
    Covers capacity (board.erase entry) (present.erase entry) (insert entry withdrawn) where
  subset := Finset.erase_subset_erase entry covers.subset
  behind := by
    -- The entry is still counted, among those withdrawn.
    intro other there missing
    obtain ⟨different, inside⟩ := Finset.mem_erase.mp there
    have outside : other ∉ board := fun on => missing (Finset.mem_erase.mpr ⟨different, on⟩)
    refine (covers.behind other inside outside).trans (Finset.card_le_card (ahead_mono ?_))
    intro counted among
    by_cases same : counted = entry
    · simp [same]
    · rcases Finset.mem_union.mp among with on | away
      · exact Finset.mem_union_left _ (Finset.mem_erase.mpr ⟨same, on⟩)
      · exact Finset.mem_union_right _ (Finset.mem_insert_of_mem away)

/-- An entry that has never been withdrawn enters the board and the set together. -/
theorem Covers.enter (covers : Covers capacity board present withdrawn) :
    Covers capacity (insert entry board) (insert entry present) withdrawn where
  subset := Finset.insert_subset_insert entry covers.subset
  behind := by
    -- The board has only grown.
    intro other there missing
    obtain ⟨different, outside⟩ := not_or.mp (fun either => missing (Finset.mem_insert.mpr either))
    have inside := (Finset.mem_insert.mp there).resolve_left different
    refine (covers.behind other inside outside).trans (Finset.card_le_card (ahead_mono ?_))
    exact Finset.union_subset_union_left (Finset.subset_insert entry board)

/-- An entry that comes back in a better place counts for all that it counted for. -/
theorem Covers.improve {old : α} (covers : Covers capacity board present withdrawn)
    (better : entry ≤ old) (fresh : entry ∉ board) (alone : entry ∉ withdrawn.erase old) :
    Covers capacity (insert entry board) (insert entry present) (withdrawn.erase old) where
  subset := Finset.insert_subset_insert entry covers.subset
  behind := by
    intro other there missing
    obtain ⟨different, outside⟩ := not_or.mp (fun either => missing (Finset.mem_insert.mpr either))
    have inside := (Finset.mem_insert.mp there).resolve_left different
    refine (covers.behind other inside outside).trans ?_
    -- Apart from the two places of the entry, the same is counted before and after.
    have rest : (ahead (board ∪ withdrawn) other).erase old ⊆
        (ahead (insert entry board ∪ withdrawn.erase old) other).erase entry := by
      intro counted among
      obtain ⟨notOld, before⟩ := Finset.mem_erase.mp among
      obtain ⟨somewhere, earlier⟩ := mem_ahead.mp before
      have kept : counted ∈ board ∪ withdrawn.erase old := by
        rcases Finset.mem_union.mp somewhere with on | away
        · exact Finset.mem_union_left _ on
        · exact Finset.mem_union_right _ (Finset.mem_erase.mpr ⟨notOld, away⟩)
      refine Finset.mem_erase.mpr ⟨?_, mem_ahead.mpr ⟨?_, earlier⟩⟩
      · intro same
        subst same
        rcases Finset.mem_union.mp kept with on | away
        · exact fresh on
        · exact alone away
      · exact Finset.union_subset_union_left (Finset.subset_insert entry board) kept
    by_cases counted : old ∈ ahead (board ∪ withdrawn) other
    · -- The new place is before whatever the old one was before.
      have earlier := better.trans_lt (mem_ahead.mp counted).2
      have placed : entry ∈ ahead (insert entry board ∪ withdrawn.erase old) other :=
        mem_ahead.mpr ⟨by simp, earlier⟩
      have fewer := Finset.card_le_card rest
      rw [Finset.card_erase_of_mem counted, Finset.card_erase_of_mem placed] at fewer
      have some := Finset.card_pos.mpr ⟨entry, placed⟩
      omega
    · rw [Finset.erase_eq_of_notMem counted] at rest
      exact (Finset.card_le_card rest).trans (Finset.card_le_card (Finset.erase_subset _ _))

theorem trim_subset : trim capacity board ⊆ board := by
  -- One entry is taken out at most.
  unfold trim
  split
  · exact Finset.erase_subset _ _
  · exact Finset.Subset.refl board

/-- A board that is too large by one entry has the right size again. -/
theorem card_trim (size : board.card ≤ capacity + 1) : (trim capacity board).card ≤ capacity := by
  -- The one entry too many is taken out.
  unfold trim
  split
  · rw [Finset.card_erase_of_mem (Finset.max'_mem _ _)]
    omega
  · omega

/-- A board that has room keeps all of its entries. -/
theorem trim_of_fits (fits : board.card ≤ capacity) : trim capacity board = board :=
  dif_neg (by omega)

/-- A board that was too large by one entry is full. -/
theorem card_trim_of_large (size : board.card = capacity + 1) :
    (trim capacity board).card = capacity := by
  unfold trim
  rw [dif_pos (by omega), Finset.card_erase_of_mem (Finset.max'_mem _ _), size]
  rfl

/-- Only the last entry is given up. -/
theorem mem_trim_of_lt {other : α} (there : entry ∈ board) (another : other ∈ board)
    (later : entry < other) : entry ∈ trim capacity board := by
  -- The entry that is taken out is the last one, so that it is not this one.
  unfold trim
  split
  · exact Finset.mem_erase.mpr ⟨ne_of_lt (later.trans_le (board.le_max' other another)), there⟩
  · exact there

/-- The entry that is given up has the whole of the remaining board ahead of it. -/
theorem Covers.trim (covers : Covers capacity board present withdrawn)
    (size : board.card ≤ capacity + 1) :
    Covers capacity (trim capacity board) present withdrawn := by
  unfold Leaderboard.trim
  split
  case isFalse => exact covers
  case isTrue large =>
    have nonempty : board.Nonempty := Finset.card_pos.mp (by omega)
    -- After the last entry has gone the board is exactly full.
    have full : (board.erase (board.max' nonempty)).card = capacity := by
      rw [Finset.card_erase_of_mem (board.max'_mem nonempty)]
      omega
    refine ⟨(Finset.erase_subset _ _).trans covers.subset, fun other there missing => ?_⟩
    by_cases beyond : board.max' nonempty ≤ other
    · -- Everything left on the board comes before an entry that is not before the last one.
      refine full.ge.trans (Finset.card_le_card fun counted among => mem_ahead.mpr ⟨?_, ?_⟩)
      · exact Finset.mem_union_left _ among
      · obtain ⟨notLast, on⟩ := Finset.mem_erase.mp among
        exact (lt_of_le_of_ne (board.le_max' counted on) notLast).trans_le beyond
    · -- An entry before the last one was not on the board, and the last one did not count for it.
      have earlier := not_le.mp beyond
      have outside : other ∉ board := fun on =>
        missing (Finset.mem_erase.mpr ⟨ne_of_lt earlier, on⟩)
      refine (covers.behind other there outside).trans (Finset.card_le_card ?_)
      intro counted among
      obtain ⟨somewhere, before⟩ := mem_ahead.mp among
      refine mem_ahead.mpr ⟨?_, before⟩
      rcases Finset.mem_union.mp somewhere with on | away
      · exact Finset.mem_union_left _
          (Finset.mem_erase.mpr ⟨ne_of_lt (before.trans earlier), on⟩)
      · exact Finset.mem_union_right _ away

/-- At most one board of the right size covers a set while nothing is withdrawn. -/
theorem Covers.unique {other : Finset α} (covers : Covers capacity board present ∅)
    (small : board.card ≤ capacity) (covered : Covers capacity other present ∅)
    (fits : other.card ≤ capacity) : board ⊆ other := by
  intro entry on
  by_contra missing
  -- The entry has a full board ahead of it, which is then the whole other board.
  have full := covered.behind entry (covers.subset on) missing
  rw [Finset.union_empty] at full
  have whole : ahead other entry = other :=
    Finset.eq_of_subset_of_card_le (Finset.filter_subset _ _) (by omega)
  -- The other board is not larger, so something on it is missing here.
  have notInside : ¬ other ⊆ board := by
    intro inside
    have larger := Finset.card_lt_card
      (Finset.ssubset_iff_subset_ne.mpr ⟨inside, fun same => missing (same ▸ on)⟩)
    rw [← whole] at larger
    omega
  obtain ⟨absent, there, gone⟩ := Finset.not_subset.mp notInside
  have behind := covers.behind absent (covered.subset there) gone
  rw [Finset.union_empty] at behind
  have all : ahead board absent = board :=
    Finset.eq_of_subset_of_card_le (Finset.filter_subset _ _) (by omega)
  -- Each of the two entries would come before the other.
  have first := (mem_ahead.mp (whole.symm ▸ there)).2
  have second := (mem_ahead.mp (all.symm ▸ on)).2
  exact lt_asymm first second

/-- The first entries of the sorted set cover it. -/
theorem covers_take (capacity : Nat) (present : Finset α) :
    Covers capacity (present.sort.take capacity).toFinset present ∅ where
  subset := by
    intro entry among
    exact (Finset.mem_sort (· ≤ ·)).mp (List.mem_of_mem_take (List.mem_toFinset.mp among))
  behind := by
    intro entry there missing
    rw [Finset.union_empty]
    have listed : entry ∈ present.sort.take capacity ++ present.sort.drop capacity := by
      rw [List.take_append_drop]
      exact (Finset.mem_sort (· ≤ ·)).mpr there
    have later : entry ∈ present.sort.drop capacity :=
      (List.mem_append.mp listed).resolve_left fun first => missing (List.mem_toFinset.mpr first)
    -- Everything among the first comes before what is listed later.
    have ordered : (present.sort.take capacity ++ present.sort.drop capacity).Pairwise (· < ·) := by
      rw [List.take_append_drop]
      exact Finset.sortedLT_sort present |>.pairwise
    have whole : ahead (present.sort.take capacity).toFinset entry =
        (present.sort.take capacity).toFinset := by
      refine Finset.filter_true_of_mem fun first among => ?_
      exact (List.pairwise_append.mp ordered).2.2 first (List.mem_toFinset.mp among) entry later
    have longer := List.length_pos_of_mem later
    rw [List.length_drop] at longer
    rw [whole, List.toFinset_card_of_nodup
      ((Finset.sort_nodup present (· ≤ ·)).sublist (List.take_sublist _ _)), List.length_take]
    omega

/-- While nothing is withdrawn a board in order is the beginning of the sorted set. -/
theorem Covers.sort_eq (covers : Covers capacity board present ∅) (small : board.card ≤ capacity) :
    board.sort = present.sort.take capacity := by
  have short : (present.sort.take capacity).toFinset.card ≤ capacity :=
    (List.toFinset_card_le _).trans (List.length_take_le _ _)
  have same : board = (present.sort.take capacity).toFinset :=
    Finset.Subset.antisymm (covers.unique small (covers_take capacity present) short)
      ((covers_take capacity present).unique short covers small)
  -- The first of a sorted list are sorted.
  have nodup := (Finset.sort_nodup present (· ≤ ·)).sublist (List.take_sublist capacity _)
  rw [same]
  refine (List.toFinset_sort (· ≤ ·) nodup).mpr ?_
  exact (Finset.pairwise_sort present (· ≤ ·)).sublist (List.take_sublist capacity _)

end AivenExamples.Leaderboard
