import AivenExamples.KafkaMusic.TopFiveSongs

/-! What the aggregator relies on in the order of the calls that it gets. -/

namespace AivenExamples.KafkaMusic

open Leaderboard

/-- What an aggregation calls: the adder with a new value, or the subtractor with an old one. -/
inductive Call where
  | add (value : SongPlayCount)
  | remove (value : SongPlayCount)
deriving DecidableEq

namespace TopFiveSongs

variable {songs : TopFiveSongs}

/-- The aggregate after a call. -/
def call (songs : TopFiveSongs) : Call → TopFiveSongs
  | .add value => songs.add value
  | .remove value => songs.remove value

/-- A removal fits when the chart lists the removed count, or nothing for its song. -/
def Fits (songs : TopFiveSongs) : Call → Prop
  | .add _ => True
  | .remove value => ∀ entry ∈ songs.topFive, entry.songId = value.songId → entry = value

/-- A call keeps the map and the tree together exactly when it fits. -/
theorem Consistent.call_iff (consistent : songs.Consistent) (call : Call) :
    (songs.call call).Consistent ↔ songs.Fits call := by
  cases call with
  | add value => exact ⟨fun _ => trivial, fun _ => (consistent.add value).1⟩
  | remove value => exact consistent.remove_iff value

/-- The map and the tree agree all along the calls exactly when every call fits where it comes. -/
theorem consistent_calls_iff (calls : List Call) :
    (∀ front, front <+: calls → (front.foldl call {}).Consistent) ↔
      ∀ front next, front ++ [next] <+: calls → (front.foldl call {}).Fits next := by
  constructor
  · intro kept front next shorter
    -- Both the state before the call and the one after it are consistent.
    have after := kept (front ++ [next]) shorter
    rw [List.foldl_append, List.foldl_cons, List.foldl_nil] at after
    exact ((kept front ((List.prefix_append front [next]).trans shorter)).call_iff next).mp after
  · intro fits front shorter
    induction front using List.reverseRecOn with
    | nil => exact consistent_empty
    | append_singleton front next ih =>
      rw [List.foldl_append, List.foldl_cons, List.foldl_nil]
      have before := ih ((List.prefix_append front [next]).trans shorter)
      exact (before.call_iff next).mpr (fits front next shorter)

variable {old new mid newer : SongPlayCount}

/-- The only count of a song that can be in the tree after its adder is the new one. -/
theorem Consistent.mem_add (consistent : songs.Consistent) {entry : SongPlayCount}
    (inside : entry ∈ (songs.add new).topFive) (same : entry.songId = new.songId) :
    entry = new := by
  -- Every other entry of the song is filtered out before the new one is inserted.
  rw [(consistent.add new).2] at inside
  rcases Finset.mem_insert.mp (trim_subset inside) with equal | other
  · exact equal
  · exact absurd same (Finset.mem_filter.mp other).2

/--
With the adder before the subtractor the map loses the song of a count that stays in the tree.

The two only agree when the new count is not charted, or is the old one.
-/
theorem Consistent.add_remove_iff (consistent : songs.Consistent)
    (same : old.songId = new.songId) : ((songs.add new).remove old).Consistent ↔
      new = old ∨ new ∉ (songs.add new).topFive := by
  rw [(consistent.add new).1.remove_iff]
  constructor
  · intro current
    by_cases inside : new ∈ (songs.add new).topFive
    · exact .inl (current new inside same.symm)
    · exact .inr inside
  · intro either entry inside own
    -- The tree holds no other count of the song than the new one.
    have equal := consistent.mem_add inside (own.trans same)
    subst equal
    rcases either with unchanged | outside
    · exact unchanged
    · exact absurd inside outside

/-- In a full chart the first song is lost by the map when its adder comes first. -/
theorem add_remove_iff_fiveSongs :
    ((fiveSongs.add ⟨1, 10⟩).remove ⟨1, 9⟩).Consistent ↔
      (⟨1, 10⟩ : SongPlayCount) = ⟨1, 9⟩ ∨ ⟨1, 10⟩ ∉ (fiveSongs.add ⟨1, 10⟩).topFive :=
  (foldl_add _).1.add_remove_iff rfl

/-- A better count of a charted song takes the place of the old one in the tree. -/
theorem Consistent.add_charted (consistent : songs.Consistent) (small : songs.topFive.card ≤ 5)
    (inside : old ∈ songs.topFive) (same : old.songId = new.songId) :
    (songs.add new).topFive = insert new (songs.topFive.erase old) := by
  rw [(consistent.add new).2, ← same, ← consistent.erase_eq inside]
  -- One entry has gone and one has come, so none is given up.
  have larger := Finset.card_insert_le new (songs.topFive.erase old)
  rw [Finset.card_erase_of_mem inside] at larger
  have some := Finset.card_pos.mpr ⟨old, inside⟩
  exact trim_of_fits (by omega)

/-- A count of a song that the map does not know comes in for no other one. -/
theorem add_of_unknown (unknown : songs.currentSongs new.songId = none) :
    (songs.add new).topFive = trim 5 (insert new songs.topFive) := by
  unfold TopFiveSongs.add
  rw [topFive_limit, forget, unknown]

/--
Two updates of one charted song push another song off a full chart in the other order.

The first update makes the map forget the song, and the second one finds both of its counts.
-/
theorem Consistent.card_swapped (consistent : songs.Consistent) (full : songs.topFive.card = 5)
    (inside : old ∈ songs.topFive) (first : old.songId = mid.songId)
    (second : mid.songId = newer.songId) (grown : mid ≠ old) (again : newer ≠ mid)
    (behind : ∃ entry ∈ songs.topFive, entry.songId ≠ mid.songId ∧ mid < entry) :
    ((((songs.add mid).remove old).add newer).remove mid).topFive.card = 4 := by
  have once : ((songs.add mid).remove old).topFive = insert mid (songs.topFive.erase old) := by
    show (songs.add mid).topFive.erase old = _
    rw [consistent.add_charted full.le inside first, Finset.erase_eq_of_notMem]
    intro there
    rcases Finset.mem_insert.mp there with equal | other
    · exact grown equal.symm
    · exact (Finset.mem_erase.mp other).1 rfl
  -- The map does not know the song any more.
  have unknown : ((songs.add mid).remove old).currentSongs newer.songId = none := by
    rw [← second, ← first]
    exact Function.update_self ..
  have others : ∀ entry ∈ songs.topFive.erase old, entry.songId ≠ mid.songId := by
    intro entry there own
    obtain ⟨different, on⟩ := Finset.mem_erase.mp there
    exact different (consistent.unique on inside (own.trans first.symm))
  have midOut : mid ∉ songs.topFive.erase old := fun there => others mid there rfl
  have newerOut : newer ∉ insert mid (songs.topFive.erase old) := by
    intro there
    rcases Finset.mem_insert.mp there with equal | other
    · exact again equal
    · exact others newer other second.symm
  have five : (insert mid (songs.topFive.erase old)).card = 5 := by
    rw [Finset.card_insert_of_notMem midOut, Finset.card_erase_of_mem inside, full]
  have six : (insert newer (insert mid (songs.topFive.erase old))).card = 6 := by
    rw [Finset.card_insert_of_notMem newerOut, five]
  -- The tree gives up its last entry, which is another song, and then the count in the middle.
  have stays : mid ∈ trim 5 (insert newer (insert mid (songs.topFive.erase old))) := by
    obtain ⟨entry, on, different, later⟩ := behind
    have kept : entry ∈ songs.topFive.erase old :=
      Finset.mem_erase.mpr ⟨fun equal => different (equal ▸ first), on⟩
    have among := Finset.mem_insert_of_mem (b := newer) (Finset.mem_insert_of_mem (b := mid) kept)
    exact mem_trim_of_lt (by simp) among later
  show ((((songs.add mid).remove old).add newer).topFive.erase mid).card = 4
  rw [add_of_unknown unknown, once, Finset.card_erase_of_mem stays, card_trim_of_large six]

/-- Two updates of the first song in the other order leave four of five songs. -/
theorem card_swapped_fiveSongs :
    ((((fiveSongs.add ⟨1, 10⟩).remove ⟨1, 9⟩).add ⟨1, 11⟩).remove ⟨1, 10⟩).topFive.card = 4 := by
  refine Consistent.card_swapped (foldl_add _).1 ?_ ?_ rfl rfl (by decide) (by decide)
    ⟨⟨2, 8⟩, ?_, by decide, by decide⟩
  -- The five songs are those that were added.
  all_goals
    rw [topFive_fiveSongs]
    decide

end TopFiveSongs

end AivenExamples.KafkaMusic
