import AivenExamples.Data.Leaderboard
import Mathlib.Data.List.Induction
import Mathlib.Logic.Function.Basic

/-! The aggregator that keeps the five most played songs of a Kafka Streams table. -/

namespace AivenExamples.KafkaMusic

open Leaderboard

/-- Java's `long` is ordered by its signed values. -/
instance linearOrderLong : LinearOrder Int64 where
  le_refl := Int64.le_refl
  le_trans _ _ _ := Int64.le_trans
  lt_iff_le_not_ge first second := by
    rw [Int64.lt_iff_toInt_lt, Int64.le_iff_toInt_le, Int64.le_iff_toInt_le]
    omega
  le_antisymm _ _ := Int64.le_antisymm
  le_total := Int64.le_total
  toDecidableLE := inferInstance
  toDecidableEq := inferInstance

/-- How often a song has been played. -/
structure SongPlayCount where
  songId : Int64
  plays : Int64
deriving DecidableEq

/-- The order of the tree: more plays first, and smaller ids first among equals. -/
def comparator (o1 o2 : SongPlayCount) : Ordering :=
  let result := compare o2.plays o1.plays
  if result ≠ .eq then result else compare o1.songId o2.songId

/-- The order in terms of the two numbers. -/
theorem comparator_ne_gt {o1 o2 : SongPlayCount} : comparator o1 o2 ≠ .gt ↔
    o2.plays < o1.plays ∨ o1.plays = o2.plays ∧ o1.songId ≤ o2.songId := by
  -- Equal plays leave the decision to the ids.
  unfold comparator
  rcases lt_trichotomy o2.plays o1.plays with fewer | same | more
  · simp [compare_lt_iff_lt.mpr fewer, fewer]
  · simp [same, compare_le_iff_le]
  · simp [compare_gt_iff_gt.mpr more, lt_asymm more, ne_of_lt more]

/-- The comparator orders all counts, and only a count is equal to itself. -/
instance : LinearOrder SongPlayCount where
  le o1 o2 := comparator o1 o2 ≠ .gt
  le_refl o := comparator_ne_gt.mpr (.inr ⟨rfl, le_refl o.songId⟩)
  le_trans o1 o2 o3 first second := by
    rw [comparator_ne_gt] at first second ⊢
    grind
  le_antisymm o1 o2 first second := by
    rw [comparator_ne_gt] at first second
    obtain ⟨id1, plays1⟩ := o1
    obtain ⟨id2, plays2⟩ := o2
    grind
  le_total o1 o2 := by
    rw [comparator_ne_gt, comparator_ne_gt]
    grind
  toDecidableLE o1 o2 := inferInstanceAs (Decidable (comparator o1 o2 ≠ .gt))
  toDecidableEq := inferInstance

/-- The songs that are charted, by id and in the order of the comparator. -/
@[ext] structure TopFiveSongs where
  currentSongs : Int64 → Option SongPlayCount := fun _ => none
  topFive : Finset SongPlayCount := ∅

namespace TopFiveSongs

/-- A count that is known by its id is taken out of the tree and out of the map. -/
def forget (songs : TopFiveSongs) (id : Int64) : TopFiveSongs :=
  match songs.currentSongs id with
  | some known =>
    { currentSongs := Function.update songs.currentSongs id none
      topFive := songs.topFive.erase known }
  | none => songs

/-- The last of a tree that holds more than five is taken out again. -/
def limit (songs : TopFiveSongs) : TopFiveSongs :=
  if large : 5 < songs.topFive.card then
    let last := songs.topFive.max' (Finset.card_pos.mp (by omega))
    { currentSongs := Function.update songs.currentSongs last.songId none
      topFive := songs.topFive.erase last }
  else songs

/-- The new count of a song takes the place of the one that is known. -/
def add (songs : TopFiveSongs) (songPlayCount : SongPlayCount) : TopFiveSongs :=
  let others := songs.forget songPlayCount.songId
  limit
    { currentSongs :=
        Function.update others.currentSongs songPlayCount.songId (some songPlayCount)
      topFive := insert songPlayCount others.topFive }

/-- A count is taken out of the tree, and the song of that count out of the map. -/
def remove (songs : TopFiveSongs) (value : SongPlayCount) : TopFiveSongs where
  currentSongs := Function.update songs.currentSongs value.songId none
  topFive := songs.topFive.erase value

/-- The map lists the entries of the tree under their ids. -/
def Consistent (songs : TopFiveSongs) : Prop :=
  ∀ id entry, songs.currentSongs id = some entry ↔ entry ∈ songs.topFive ∧ entry.songId = id

variable {songs : TopFiveSongs}

theorem consistent_empty : Consistent {} := by
  intro id entry
  simp

/-- The tree says all about a consistent aggregate. -/
theorem Consistent.ext {others : TopFiveSongs} (consistent : songs.Consistent)
    (also : others.Consistent) (same : songs.topFive = others.topFive) : songs = others := by
  refine TopFiveSongs.ext (funext fun id => Option.ext fun entry => ?_) same
  rw [consistent id entry, also id entry, same]

/-- A consistent tree has no song twice. -/
theorem Consistent.unique (consistent : songs.Consistent) {first second : SongPlayCount}
    (one : first ∈ songs.topFive) (two : second ∈ songs.topFive)
    (same : first.songId = second.songId) : first = second := by
  -- The map has one entry for the song.
  have known := (consistent first.songId first).mpr ⟨one, rfl⟩
  rw [(consistent first.songId second).mpr ⟨two, same.symm⟩] at known
  exact (Option.some.inj known).symm

/-- Taking one entry out of a consistent tree takes out all that its song has there. -/
theorem Consistent.erase_eq (consistent : songs.Consistent) {known : SongPlayCount}
    (inside : known ∈ songs.topFive) :
    songs.topFive.erase known = songs.topFive.filter (·.songId ≠ known.songId) := by
  -- Another entry of the same song would be the same entry.
  ext entry
  rw [Finset.mem_erase, Finset.mem_filter]
  constructor
  · intro among
    obtain ⟨different, there⟩ := among
    exact ⟨there, fun same => different (consistent.unique there inside same)⟩
  · intro among
    obtain ⟨there, different⟩ := among
    exact ⟨fun same => different (by rw [same]), there⟩

/-- A song can be left out of the map and the tree together. -/
theorem Consistent.without (consistent : songs.Consistent) (id : Int64) : Consistent
    { currentSongs := Function.update songs.currentSongs id none
      topFive := songs.topFive.filter (·.songId ≠ id) } := by
  intro other entry
  simp only [Finset.mem_filter]
  -- Nothing is left under the id, and the other songs are where they were.
  by_cases same : other = id
  · subst same
    rw [Function.update_self]
    exact ⟨fun absent => (by cases absent), fun listed => absurd listed.2 listed.1.2⟩
  · rw [Function.update_of_ne same, consistent other entry]
    constructor
    · intro listed
      exact ⟨⟨listed.1, fun own => same (listed.2.symm.trans own)⟩, listed.2⟩
    · intro listed
      exact ⟨listed.1.1, listed.2⟩

/-- The entry that the map knows is the one in the tree. -/
theorem Consistent.forget (consistent : songs.Consistent) (id : Int64) :
    (songs.forget id).Consistent ∧
      (songs.forget id).topFive = songs.topFive.filter (·.songId ≠ id) := by
  unfold TopFiveSongs.forget
  split
  case h_1 known found =>
    obtain ⟨inside, own⟩ := (consistent id known).mp found
    subst own
    rw [consistent.erase_eq inside]
    exact ⟨consistent.without known.songId, rfl⟩
  case h_2 unknown =>
    -- What the map does not know is not in the tree either.
    refine ⟨consistent, (Finset.filter_true_of_mem fun entry there same => ?_).symm⟩
    have known := (consistent id entry).mpr ⟨there, same⟩
    rw [unknown] at known
    cases known

/-- The tree is cut to five entries. -/
theorem topFive_limit : songs.limit.topFive = trim 5 songs.topFive := by
  unfold TopFiveSongs.limit trim
  split <;> rfl

/-- Taking out the last entry takes out its song. -/
theorem Consistent.limit (consistent : songs.Consistent) : songs.limit.Consistent := by
  unfold TopFiveSongs.limit
  split
  case isFalse => exact consistent
  case isTrue large =>
    have nonempty : songs.topFive.Nonempty := Finset.card_pos.mp (by omega)
    -- The last of the entries is the one that is taken out.
    have kept := consistent.without (songs.topFive.max' nonempty).songId
    rw [← consistent.erase_eq (songs.topFive.max'_mem nonempty)] at kept
    exact kept

/-- A count can enter a consistent chart that has no other count of its song. -/
theorem Consistent.enter (consistent : songs.Consistent) {value : SongPlayCount}
    (fresh : ∀ entry ∈ songs.topFive, entry.songId ≠ value.songId) : Consistent
    { currentSongs := Function.update songs.currentSongs value.songId (some value)
      topFive := insert value songs.topFive } := by
  intro id entry
  simp only [Finset.mem_insert]
  -- Under the id of the new count there is nothing else, and other ids are as before.
  by_cases same : id = value.songId
  · subst same
    rw [Function.update_self, Option.some.injEq]
    constructor
    · intro equal
      exact ⟨.inl equal.symm, by rw [equal]⟩
    · intro listed
      rcases listed.1 with equal | other
      · exact equal.symm
      · exact absurd listed.2 (fresh entry other)
  · rw [Function.update_of_ne same, consistent id entry]
    constructor
    · intro listed
      exact ⟨.inr listed.1, listed.2⟩
    · intro listed
      rcases listed.1 with equal | other
      · exact absurd (equal ▸ listed.2.symm) same
      · exact ⟨other, listed.2⟩

/-- A new count comes in for the other counts of its song, and the last entry goes if need be. -/
theorem Consistent.add (consistent : songs.Consistent) (value : SongPlayCount) :
    (songs.add value).Consistent ∧ (songs.add value).topFive =
      trim 5 (insert value (songs.topFive.filter (·.songId ≠ value.songId))) := by
  obtain ⟨kept, others⟩ := consistent.forget value.songId
  -- Before the limit the tree and the map agree on the new entry.
  have fresh : ∀ entry ∈ (songs.forget value.songId).topFive, entry.songId ≠ value.songId := by
    simp [others]
  have inserted := kept.enter fresh
  rw [← others]
  exact ⟨inserted.limit, topFive_limit⟩

/-- A count that is taken out must be the current one, unless its song is not charted. -/
theorem Consistent.remove_iff (consistent : songs.Consistent) (value : SongPlayCount) :
    (songs.remove value).Consistent ↔
      ∀ entry ∈ songs.topFive, entry.songId = value.songId → entry = value := by
  constructor
  · intro kept entry there same
    -- An entry that stays in the tree would be unknown to the map.
    by_contra different
    have known := (kept value.songId entry).mpr
      ⟨Finset.mem_erase.mpr ⟨different, there⟩, same⟩
    simp [TopFiveSongs.remove] at known
  · intro current
    -- The entry taken out is all that the song has in the tree.
    have others : songs.topFive.erase value = songs.topFive.filter (·.songId ≠ value.songId) := by
      by_cases inside : value ∈ songs.topFive
      · exact consistent.erase_eq inside
      · rw [Finset.erase_eq_of_notMem inside]
        refine (Finset.filter_true_of_mem fun entry there same => ?_).symm
        exact inside (current entry there same ▸ there)
    unfold TopFiveSongs.remove
    rw [others]
    exact consistent.without value.songId

/-- Adding keeps the tree to five entries, consistent or not. -/
theorem card_add_le (small : songs.topFive.card ≤ 5) (value : SongPlayCount) :
    (songs.add value).topFive.card ≤ 5 := by
  -- At most one entry comes in, and then one goes.
  have fewer : (songs.forget value.songId).topFive.card ≤ 5 := by
    unfold TopFiveSongs.forget
    split
    · exact (Finset.card_erase_le).trans small
    · exact small
  have larger := Finset.card_insert_le value (songs.forget value.songId).topFive
  unfold TopFiveSongs.add
  rw [topFive_limit]
  exact card_trim (larger.trans (by omega))

/-- Any entries that are added leave a consistent aggregate of at most five songs. -/
theorem foldl_add (entries : List SongPlayCount) :
    (entries.foldl add {}).Consistent ∧
      (entries.foldl add {}).topFive.card ≤ 5 := by
  -- The last entry is added to a chart that the others have left consistent.
  induction entries using List.reverseRecOn with
  | nil => exact ⟨consistent_empty, by simp⟩
  | append_singleton entries last ih =>
    rw [List.foldl_append, List.foldl_cons, List.foldl_nil]
    exact ⟨(ih.1.add last).1, card_add_le ih.2 last⟩

/-- Something is charted as soon as something has been added. -/
theorem nonempty_foldl_add {entries : List SongPlayCount} (some : entries ≠ []) :
    (entries.foldl add {}).topFive.Nonempty := by
  obtain ⟨front, last, rfl⟩ := List.eq_nil_or_concat entries |>.resolve_left some
  rw [List.concat_eq_append, List.foldl_append, List.foldl_cons, List.foldl_nil]
  obtain ⟨consistent, small⟩ := foldl_add front
  have fewer := (Finset.card_filter_le _ (·.songId ≠ last.songId)).trans small
  rw [(consistent.add last).2]
  generalize (front.foldl add {}).topFive.filter (·.songId ≠ last.songId) = others
    at fewer ⊢
  -- A tree that gives up an entry still has five.
  by_cases fits : (insert last others).card ≤ 5
  · rw [trim_of_fits fits]
    exact Finset.insert_nonempty last others
  · have larger := Finset.card_insert_le last others
    have five : (trim 5 (insert last others)).card = 5 := card_trim_of_large (by omega)
    exact Finset.card_pos.mp (by omega)

/-- Up to five songs that are all different are all charted. -/
theorem foldl_add_distinct {entries : List SongPlayCount} (few : entries.length ≤ 5)
    (distinct : (entries.map SongPlayCount.songId).Nodup) :
    (entries.foldl add {}).topFive = entries.toFinset := by
  induction entries using List.reverseRecOn with
  | nil => rfl
  | append_singleton entries last ih =>
    rw [List.map_append, List.nodup_append] at distinct
    obtain ⟨before, -, apart⟩ := distinct
    rw [List.length_append, List.length_singleton] at few
    rw [List.foldl_append, List.foldl_cons, List.foldl_nil, ((foldl_add entries).1.add last).2,
      ih (by omega) before]
    -- The last song is a new one, and there is room for it.
    have fresh : entries.toFinset.filter (·.songId ≠ last.songId) = entries.toFinset := by
      refine Finset.filter_true_of_mem fun entry there same => ?_
      exact apart _ (List.mem_map_of_mem (List.mem_toFinset.mp there)) _ (by simp) same
    have room : (insert last entries.toFinset).card ≤ 5 :=
      (Finset.card_insert_le _ _).trans (by have := List.toFinset_card_le entries; omega)
    rw [fresh, trim_of_fits room]
    ext entry
    simp

/-- A chart of five songs. -/
def fiveSongs : TopFiveSongs :=
  [⟨1, 9⟩, ⟨2, 8⟩, ⟨3, 7⟩, ⟨4, 6⟩, ⟨5, 5⟩].foldl add {}

/-- All of the five songs are charted. -/
theorem topFive_fiveSongs :
    fiveSongs.topFive = [⟨1, 9⟩, ⟨2, 8⟩, ⟨3, 7⟩, ⟨4, 6⟩, ⟨5, 5⟩].toFinset :=
  foldl_add_distinct (by decide) (by decide)

end TopFiveSongs

end AivenExamples.KafkaMusic
