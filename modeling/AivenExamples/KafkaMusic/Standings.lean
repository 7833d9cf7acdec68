import AivenExamples.Data.Schedule
import AivenExamples.KafkaMusic.Topology

/-! What the calls on their way to an aggregation say about each song, and what the chart keeps. -/

namespace AivenExamples.KafkaMusic

open Leaderboard

/-- What an aggregation has been told about a song. -/
inductive Standing where
  | unheard
  | listed (plays : Int64)
  -- The old count has been taken out, and the new one is still to come.
  | withdrawn (plays : Int64)
deriving DecidableEq

/-- A call that continues what has been told about a song, whose count never falls. -/
def Standing.next (id : Int64) : Standing → Call → Option Standing
  | .unheard, .add value => if value.songId = id then some (.listed value.plays) else none
  | .listed plays, .remove value =>
    if value = { songId := id, plays } then some (.withdrawn plays) else none
  | .withdrawn plays, .add value =>
    if value.songId = id ∧ plays ≤ value.plays then some (.listed value.plays) else none
  | _, _ => none

/-- A song is listed with the count that was forwarded last. -/
def Standing.told : Option Int64 → Standing
  | none => .unheard
  | some plays => .listed plays

/-- The calls about a changed count lead from the old count to the new one. -/
theorem foldlM_changes (song : Song) (oldPlays : Option Int64) (newPlays : Int64)
    (grown : ∀ plays ∈ oldPlays, plays ≤ newPlays) :
    (changes song oldPlays newPlays).foldlM (Standing.next song.id) (.told oldPlays) =
      some (.listed newPlays) := by
  -- A song that is listed is withdrawn before it is listed again.
  cases oldPlays with
  | none => simp [changes, Standing.told, Standing.next]
  | some plays => simp [changes, Standing.told, Standing.next, grown plays rfl]

/-- A song of the aggregate has the count of the entry, in the given standing. -/
def Reports (key : Song → Prop) (standing : Song → Standing) (told : Int64 → Standing)
    (entry : SongPlayCount) : Prop :=
  ∃ song, key song ∧ song.id = entry.songId ∧ standing song = told entry.plays

variable {key : Song → Prop} {standing : Song → Standing} {song : Song} {entry : SongPlayCount}
  {told : Int64 → Standing} {now : Standing}

/-- A song is the only one that has been heard of under its id. -/
def Identified (standing : Song → Standing) (song : Song) : Prop :=
  ∀ other, standing other ≠ .unheard → other.id = song.id → other = song

/-- About its own id a song speaks for itself. -/
theorem reports_self (own : key song) (identified : Identified standing song)
    (heard : told entry.plays ≠ .unheard) (same : song.id = entry.songId) :
    Reports key standing told entry ↔ standing song = told entry.plays := by
  constructor
  · intro reported
    -- Any other song that reports the entry would have the same id.
    obtain ⟨other, -, id, standing⟩ := reported
    have equal := identified other (by rw [standing]; exact heard) (id.trans same.symm)
    rw [← equal, standing]
  · intro standing
    exact ⟨song, own, same, standing⟩

/-- A song keeps its id to itself whatever is told about it. -/
theorem Identified.update (identified : Identified standing song) (now : Standing) :
    Identified (Function.update standing song now) song := by
  intro other heard same
  -- For another song nothing has changed.
  by_contra different
  rw [Function.update_of_ne different] at heard
  exact different (identified other heard same)

/-- News about a song of another aggregate is no news here. -/
theorem reports_update_of_other (now : Standing) (other : ¬ key song) :
    Reports key (Function.update standing song now) told entry ↔
      Reports key standing told entry := by
  refine exists_congr fun one => and_congr_right fun own => and_congr_right fun _ => ?_
  -- Songs of the key are other songs.
  have different : one ≠ song := fun equal => other (equal ▸ own)
  rw [Function.update_of_ne different]

/-- After news about a song only the entries under its id can be others than before. -/
theorem mem_iff_reports {before after : Finset SongPlayCount} (own : key song)
    (identified : Identified standing song) (heard : ∀ plays, told plays ≠ .unheard)
    (reported : ∀ entry, entry ∈ before ↔ Reports key standing told entry)
    (self : ∀ entry, song.id = entry.songId → (entry ∈ after ↔ now = told entry.plays))
    (others : ∀ entry, song.id ≠ entry.songId → (entry ∈ after ↔ entry ∈ before))
    (entry : SongPlayCount) :
    entry ∈ after ↔ Reports key (Function.update standing song now) told entry := by
  -- Under the id of the song its news decide, and under other ids what was before.
  by_cases same : song.id = entry.songId
  · rw [self entry same, reports_self own (identified.update now) (heard _) same,
      Function.update_self]
  · rw [others entry same, reported entry]
    refine exists_congr fun one => and_congr_right fun _ => and_congr_right fun id => ?_
    have different : one ≠ song := fun equal => same (equal ▸ id)
    rw [Function.update_of_ne different]

/--
What an aggregate is, compared with what has been told about the songs of its key.

The listed songs are the set that the tree has the first five of, and the withdrawn ones may
come back.
-/
structure Charted (key : Song → Prop) (standing : Song → Standing) (songs : TopFiveSongs) :
    Prop where
  consistent : songs.Consistent
  small : songs.topFive.card ≤ 5
  covers : ∃ present withdrawn : Finset SongPlayCount,
    Covers 5 songs.topFive present withdrawn ∧
    (∀ entry, entry ∈ present ↔ Reports key standing .listed entry) ∧
    ∀ entry, entry ∈ withdrawn ↔ Reports key standing .withdrawn entry

variable {songs : TopFiveSongs}

/-- Before the first call nothing is listed. -/
theorem charted_empty : Charted key (fun _ => .unheard) {} where
  consistent := TopFiveSongs.consistent_empty
  small := by simp
  covers := ⟨∅, ∅, covers_empty, by simp [Reports], by simp [Reports]⟩

/-- Calls for the songs of other keys change nothing. -/
theorem Charted.of_other (charted : Charted key standing songs) (other : ¬ key song)
    (now : Standing) : Charted key (Function.update standing song now) songs where
  consistent := charted.consistent
  small := charted.small
  covers := by
    -- None of the reported entries belongs to the song.
    obtain ⟨present, withdrawn, covers, listed, away⟩ := charted.covers
    refine ⟨present, withdrawn, covers, fun entry => ?_, fun entry => ?_⟩
    · rw [reports_update_of_other now other, listed entry]
    · rw [reports_update_of_other now other, away entry]

variable {value : SongPlayCount}

/-- A count that comes in for a song that is not listed goes to its place in the tree. -/
theorem Charted.topFive_add (charted : Charted key standing songs) (own : key song)
    (identified : Identified standing song) (unlisted : ∀ plays, standing song ≠ .listed plays)
    (id : value.songId = song.id) :
    (songs.add value).topFive = trim 5 (insert value songs.topFive) := by
  obtain ⟨present, withdrawn, covers, listed, -⟩ := charted.covers
  -- The tree has no other count of the song.
  have others : songs.topFive.filter (·.songId ≠ value.songId) = songs.topFive := by
    refine Finset.filter_true_of_mem fun entry there same => ?_
    have reported := (listed entry).mp (covers.subset there)
    exact unlisted entry.plays
      ((reports_self own identified (by simp) (id.symm.trans same.symm)).mp reported)
  rw [(charted.consistent.add value).2, others]

/-- Two entries of one song are told apart by their counts. -/
theorem eq_iff_plays (id : value.songId = song.id) (same : song.id = entry.songId) :
    entry = value ↔ value.plays = entry.plays := by
  obtain ⟨valueId, valuePlays⟩ := value
  obtain ⟨entryId, entryPlays⟩ := entry
  -- The ids are the same, so that the counts are left to compare.
  subst id same
  simp [eq_comm]

/-- An entry of another song is another one. -/
theorem ne_of_songId (id : value.songId = song.id) (apart : song.id ≠ entry.songId) :
    entry ≠ value := fun equal => apart (by rw [equal, id])

/-- The first count of a song enters the chart. -/
theorem Charted.enter (charted : Charted key standing songs) (own : key song)
    (identified : Identified standing song) (unheard : standing song = .unheard)
    (id : value.songId = song.id) :
    Charted key (Function.update standing song (.listed value.plays)) (songs.add value) where
  consistent := (charted.consistent.add value).1
  small := TopFiveSongs.card_add_le charted.small value
  covers := by
    rw [charted.topFive_add own identified (by simp [unheard]) id]
    obtain ⟨present, withdrawn, covers, listed, away⟩ := charted.covers
    have size := (Finset.card_insert_le value songs.topFive).trans
      (Nat.add_le_add_right charted.small 1)
    refine ⟨insert value present, withdrawn, covers.enter.trim size,
      mem_iff_reports own identified (by simp) listed (fun entry same => ?_)
        (fun entry apart => ?_),
      mem_iff_reports own identified (by simp) away (fun entry same => ?_) fun _ _ => Iff.rfl⟩
    · -- Nothing was listed under the id of the song.
      rw [Finset.mem_insert, listed, reports_self own identified (by simp) same, unheard,
        eq_iff_plays id same]
      simp
    · rw [Finset.mem_insert, or_iff_right (ne_of_songId id apart)]
    · rw [away, reports_self own identified (by simp) same, unheard]
      simp

/-- The count that is listed for a song leaves the chart. -/
theorem Charted.leave (charted : Charted key standing songs) (own : key song)
    (identified : Identified standing song) (id : value.songId = song.id)
    (known : standing song = .listed value.plays) :
    Charted key (Function.update standing song (.withdrawn value.plays)) (songs.remove value) where
  consistent := by
    obtain ⟨present, withdrawn, covers, listed, -⟩ := charted.covers
    refine (charted.consistent.remove_iff value).mpr fun entry there same => ?_
    -- The tree can only have the listed count of the song.
    have own' := id.symm.trans same.symm
    have reported := (listed entry).mp (covers.subset there)
    rw [reports_self own identified (by simp) own', known, Standing.listed.injEq] at reported
    exact (eq_iff_plays id own').mpr reported
  small := (Finset.card_erase_le).trans charted.small
  covers := by
    obtain ⟨present, withdrawn, covers, listed, away⟩ := charted.covers
    refine ⟨present.erase value, insert value withdrawn, covers.withdraw,
      mem_iff_reports own identified (by simp) listed (fun entry same => ?_)
        (fun entry apart => ?_),
      mem_iff_reports own identified (by simp) away (fun entry same => ?_) fun entry apart => ?_⟩
    · rw [Finset.mem_erase, listed, reports_self own identified (by simp) same, known, Ne,
        eq_iff_plays id same]
      simp
    · rw [Finset.mem_erase, and_iff_right (ne_of_songId id apart)]
    · rw [Finset.mem_insert, away, reports_self own identified (by simp) same, known,
        eq_iff_plays id same]
      simp
    · rw [Finset.mem_insert, or_iff_right (ne_of_songId id apart)]

/-- A count that has been taken out comes back as one that is not smaller. -/
theorem Charted.improve (charted : Charted key standing songs) (own : key song)
    (identified : Identified standing song) (id : value.songId = song.id) {plays : Int64}
    (gone : standing song = .withdrawn plays) (grown : plays ≤ value.plays) :
    Charted key (Function.update standing song (.listed value.plays)) (songs.add value) where
  consistent := (charted.consistent.add value).1
  small := TopFiveSongs.card_add_le charted.small value
  covers := by
    rw [charted.topFive_add own identified (by simp [gone]) id]
    obtain ⟨present, withdrawn, covers, listed, away⟩ := charted.covers
    have size := (Finset.card_insert_le value songs.topFive).trans
      (Nat.add_le_add_right charted.small 1)
    -- In the order of the tree the new count comes first.
    have better : value ≤ { songId := song.id, plays } := by
      refine comparator_ne_gt.mpr ?_
      rcases grown.lt_or_eq with fewer | same
      · exact .inl fewer
      · exact .inr ⟨same.symm, id.le⟩
    have oldId : ({ songId := song.id, plays } : SongPlayCount).songId = song.id := rfl
    have fresh : value ∉ songs.topFive := by
      intro there
      have reported := (listed value).mp (covers.subset there)
      rw [reports_self own identified (by simp) id.symm, gone] at reported
      cases reported
    have alone : value ∉ withdrawn.erase { songId := song.id, plays } := by
      rw [Finset.mem_erase, away, reports_self own identified (by simp) id.symm, gone, Ne,
        eq_iff_plays oldId id.symm]
      simp
    refine ⟨insert value present, withdrawn.erase { songId := song.id, plays },
      (covers.improve better fresh alone).trim size,
      mem_iff_reports own identified (by simp) listed (fun entry same => ?_)
        (fun entry apart => ?_),
      mem_iff_reports own identified (by simp) away (fun entry same => ?_) fun entry apart => ?_⟩
    · rw [Finset.mem_insert, listed, reports_self own identified (by simp) same, gone,
        eq_iff_plays id same]
      simp
    · rw [Finset.mem_insert, or_iff_right (ne_of_songId id apart)]
    · rw [Finset.mem_erase, away, reports_self own identified (by simp) same, gone, Ne,
        eq_iff_plays oldId same]
      simp
    · rw [Finset.mem_erase, and_iff_right (ne_of_songId oldId apart)]

/-- A call that continues what has been told about a song keeps the chart. -/
theorem Charted.call (charted : Charted key standing songs) (own : key song)
    (identified : Identified standing song) {call : Call}
    (continued : (standing song).next song.id call = some now) :
    Charted key (Function.update standing song now) (songs.call call) := by
  -- The cases are those in which a call continues the standing of its song.
  cases before : standing song with
  | unheard =>
    cases call with
    | add value =>
      simp only [before, Standing.next, Option.ite_none_right_eq_some, Option.some.injEq]
        at continued
      obtain ⟨id, rfl⟩ := continued
      exact charted.enter own identified before id
    | remove value => simp [before, Standing.next] at continued
  | listed plays =>
    cases call with
    | add value => simp [before, Standing.next] at continued
    | remove value =>
      simp only [before, Standing.next, Option.ite_none_right_eq_some, Option.some.injEq]
        at continued
      obtain ⟨rfl, rfl⟩ := continued
      have known : standing song = .listed (SongPlayCount.mk song.id plays).plays := before
      exact charted.leave own identified rfl known
  | withdrawn plays =>
    cases call with
    | add value =>
      simp only [before, Standing.next, Option.ite_none_right_eq_some, Option.some.injEq]
        at continued
      obtain ⟨⟨id, grown⟩, rfl⟩ := continued
      exact charted.improve own identified id before grown
    | remove value => simp [before, Standing.next] at continued

/-- Once nothing is withdrawn the tree has the first five of all listed entries. -/
theorem Charted.sort_eq (charted : Charted key standing songs)
    (arrived : ∀ song plays, standing song ≠ .withdrawn plays) {ranked : Finset SongPlayCount}
    (complete : ∀ entry, entry ∈ ranked ↔ Reports key standing .listed entry) :
    songs.topFive.sort = ranked.sort.take 5 := by
  obtain ⟨present, withdrawn, covers, listed, away⟩ := charted.covers
  -- A withdrawn entry would still wait for its successor.
  have none : withdrawn = ∅ := by
    refine Finset.eq_empty_of_forall_notMem fun entry there => ?_
    obtain ⟨song, -, -, gone⟩ := (away entry).mp there
    exact arrived song entry.plays gone
  have all : present = ranked := Finset.ext fun entry => (listed entry).trans (complete entry).symm
  subst none all
  exact covers.sort_eq charted.small

end AivenExamples.KafkaMusic
