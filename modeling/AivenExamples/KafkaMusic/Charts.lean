import AivenExamples.KafkaMusic.Counts
import AivenExamples.KafkaMusic.Standings

/-! The charts of songs with ids of their own, along every schedule and once all has arrived. -/

namespace AivenExamples.KafkaMusic

open Leaderboard TopFiveSerde

variable {toLowerCase : String → String}

/-- The aggregate of a store, as a reader of the store gets it. -/
def Reads (stored : Option (List UInt8)) (songs : TopFiveSongs) : Prop :=
  deserialize stored = .ok (if songs.topFive = ∅ then none else some songs)

variable {stored : Option (List UInt8)} {songs : TopFiveSongs}

/-- A call on a stored aggregate stores what the call makes of it. -/
theorem aggregate_eq (reads : Reads stored songs) (consistent : songs.Consistent)
    (call : Call) (kept : (songs.call call).Consistent)
    (small : (songs.call call).topFive.card ≤ 5) :
    ∃ after, aggregate stored call = .ok after ∧ Reads after (songs.call call) := by
  -- What is written can be read again.
  have written : Reads (some (serialize (songs.call call))) (songs.call call) := by
    rw [Reads, deserialize, isEmpty_serialize, readEntries_serialize kept small]
    by_cases empty : (songs.call call).topFive = ∅
    · simp [empty]
    · simp [empty, Except.map]
  by_cases empty : songs.topFive = ∅
  · -- An empty aggregate is not there, and a new one takes its place.
    have new : songs = {} := consistent.ext TopFiveSongs.consistent_empty empty
    rw [Reads, if_pos empty] at reads
    cases call with
    | add value =>
      refine ⟨_, by rw [aggregate, reads]; rfl, ?_⟩
      rw [new] at written ⊢
      exact written
    | remove value =>
      refine ⟨none, by rw [aggregate, reads]; rfl, ?_⟩
      have still : (songs.call (.remove value)).topFive = ∅ := by
        show songs.topFive.erase value = ∅
        rw [empty, Finset.erase_empty]
      rw [Reads, if_pos still]
      rfl
  · rw [Reads, if_neg empty] at reads
    cases call with
    | add value => exact ⟨_, by rw [aggregate, reads]; rfl, written⟩
    | remove value => exact ⟨_, by rw [aggregate, reads]; rfl, written⟩

/-- What holds of the stores and the topics after a schedule. -/
structure Tracks (toLowerCase : String → String) (schedule : List Event) (state : State)
    (counted : Song → Nat) (standing : Chart → Song → Standing) : Prop
    extends Counted schedule state counted where
  -- The calls on the way lead to the count that was forwarded last.
  queued : ∀ chart song, (state.updates chart song).foldlM (Standing.next song.id)
    (standing chart song) = some (.told (state.forwarded song))
  charted : ∀ chart key, ∃ songs, Reads (state.topFiveSongs chart key) songs ∧
    Charted (Chart.key toLowerCase · chart = key) (standing chart) songs

/-- Nothing has been told before the first event. -/
theorem tracks_initial :
    Tracks toLowerCase [] {} (fun _ => 0) (fun _ _ => .unheard) where
  toCounted := counted_initial
  queued := fun _ _ => rfl
  charted := fun _ _ => ⟨{}, by simp [Reads, deserialize], charted_empty⟩

/-- The description of every song is on the topic. -/
theorem mem_describedSongs_of_table {schedule : List Event} {id : Int64} {song : Song}
    (known : schedule.foldl readSong (fun _ => none) id = some song) :
    song ∈ describedSongs schedule := by
  induction schedule using List.reverseRecOn with
  | nil => cases known
  | append_singleton schedule last ih =>
    rw [List.foldl_append, List.foldl_cons, List.foldl_nil] at known
    rw [describedSongs_append, List.mem_append]
    by_cases before : schedule.foldl readSong (fun _ => none) id = some song
    · exact .inl (ih before)
    · -- The song is new, so that the last event describes it.
      cases last with
      | song key description =>
        by_cases same : id = key
        · subst same
          simp only [readSong, Function.update_self] at known
          exact .inr (by simp [describedSongs, known])
        · rw [readSong, Function.update_of_ne same] at known
          exact absurd known before
      | _ => exact absurd known before

/-- Only songs with a description are played. -/
theorem plays_subset (schedule : List Event) : plays schedule ⊆ describedSongs schedule := by
  induction schedule using List.reverseRecOn with
  | nil => exact List.Subset.refl _
  | append_singleton schedule last ih =>
    intro song played
    rw [plays_concat, List.mem_append] at played
    rw [describedSongs_append, List.mem_append]
    rcases played with before | now
    · exact .inl (ih before)
    · -- The last event is a play of a song that the table has.
      cases last with
      | play event =>
        simp only [playedSong] at now
        split at now
        · exact .inl (mem_describedSongs_of_table (Option.mem_toList.mp now))
        · cases now
      | _ => cases now

/-- Calls never lead back to a song that has not been heard of. -/
theorem unheard_of_foldlM {id : Int64} {calls : List Call} {start : Standing}
    (led : calls.foldlM (Standing.next id) start = some .unheard) :
    start = .unheard ∧ calls = [] := by
  induction calls using List.reverseRecOn with
  | nil => exact ⟨Option.some.inj led, rfl⟩
  | append_singleton calls last =>
    rw [Schedule.foldlM_concat] at led
    obtain ⟨middle, -, taken⟩ := Option.bind_eq_some_iff.mp led
    -- The last call would have listed or withdrawn the song.
    cases middle <;> cases last <;> simp [Standing.next] at taken

variable {schedule : List Event} {state next : State} {counted : Song → Nat}
  {standing : Chart → Song → Standing}

/-- A song that an aggregation has heard of, or is to hear of, has been played. -/
theorem Tracks.mem_plays (tracks : Tracks toLowerCase schedule state counted standing)
    {chart : Chart} {song : Song}
    (heard : standing chart song ≠ .unheard ∨ state.updates chart song ≠ []) :
    song ∈ plays schedule := by
  have queued := tracks.queued chart song
  cases last : state.forwarded song with
  | none =>
    rw [last] at queued
    obtain ⟨unheard, none⟩ := unheard_of_foldlM queued
    exact absurd heard (not_or.mpr ⟨fun heard => heard unheard, fun some => some none⟩)
  | some count =>
    -- A count that was forwarded is one of a play.
    obtain ⟨earlier, positive, fewer, -⟩ := tracks.forwarded song count last
    have played := fewer.trans (tracks.le_count song)
    exact List.count_pos_iff.mp (positive.trans_le played)

/-- What the aggregations have been told stays as long as no call is sent or delivered. -/
theorem Tracks.frame (tracks : Tracks toLowerCase schedule state counted standing) {event : Event}
    {more : Song → Nat} (counts : Counted (schedule ++ [event]) next more)
    (forwarded : next.forwarded = state.forwarded) (updates : next.updates = state.updates)
    (topFiveSongs : next.topFiveSongs = state.topFiveSongs) :
    Tracks toLowerCase (schedule ++ [event]) next more standing where
  toCounted := counts
  queued := by
    -- The calls on the way are those from before.
    rw [updates, forwarded]
    exact tracks.queued
  charted := topFiveSongs ▸ tracks.charted

/-- A count that is forwarded follows the one before on the way to both aggregations. -/
theorem Tracks.flush (tracks : Tracks toLowerCase schedule state counted standing) {song : Song}
    (short : (plays schedule).length < 2 ^ 63)
    (stepped : step toLowerCase state (.flush song) = some next) :
    Tracks toLowerCase (schedule ++ [.flush song]) next counted standing := by
  have counts := tracks.toCounted.flush stepped
  obtain ⟨count, held, -, rfl⟩ := step_flush.mp stepped
  obtain ⟨-, equal⟩ := tracks.count_eq held
  -- What was forwarded before was a smaller count, and counts do not overflow.
  have grown : ∀ plays ∈ state.forwarded song, plays ≤ count := by
    intro plays told
    obtain ⟨earlier, -, fewer, same⟩ := tracks.forwarded song plays told
    have small := (tracks.le_count song).trans List.count_le_length
    rw [same, equal]
    exact (Int64.ofNat_le_iff_le (by omega) (by omega)).mpr fewer
  refine { toCounted := counts, queued := fun chart other => ?_, charted := tracks.charted }
  dsimp only
  by_cases same : other = song
  · subst same
    rw [Function.update_self, Function.update_self, List.foldlM_append, tracks.queued]
    exact foldlM_changes other _ count grown
  · rw [Function.update_of_ne same, Function.update_of_ne same]
    exact tracks.queued chart other

/-- No two songs are described under one id. -/
def Unambiguous (schedule : List Event) : Prop :=
  ∀ one ∈ describedSongs schedule, ∀ other ∈ describedSongs schedule,
    one.id = other.id → one = other

/-- A song with calls on the way is the only one that has been heard of under its id. -/
theorem Tracks.identified (tracks : Tracks toLowerCase schedule state counted standing)
    (unambiguous : Unambiguous schedule) {chart : Chart} {song : Song}
    (waiting : state.updates chart song ≠ []) : Identified (standing chart) song := by
  -- Every song that has been heard of has a description of its own.
  have known := plays_subset schedule (tracks.mem_plays (.inr waiting))
  intro other heard same
  exact unambiguous other (plays_subset schedule (tracks.mem_plays (.inl heard))) song known same

/-- The next call about a song finds an aggregate that it fits. -/
theorem Tracks.delivers (tracks : Tracks toLowerCase schedule state counted standing)
    {chart : Chart} {song : Song} (identified : Identified (standing chart) song) {call : Call}
    {later : List Call} (waiting : state.updates chart song = call :: later) :
    ∃ now written songs, later.foldlM (Standing.next song.id) now =
        some (.told (state.forwarded song)) ∧
      aggregate (state.topFiveSongs chart (chart.key toLowerCase song)) call =
        .ok written ∧ Reads written songs ∧
      Charted (Chart.key toLowerCase · chart = chart.key toLowerCase song)
        (Function.update (standing chart) song now) songs := by
  have queued := tracks.queued chart song
  rw [waiting, List.foldlM_cons] at queued
  -- The call continues the standing of the song, and the others continue from there.
  obtain ⟨now, continued, rest⟩ := Option.bind_eq_some_iff.mp queued
  obtain ⟨songs, reads, charted⟩ := tracks.charted chart (chart.key toLowerCase song)
  have after := charted.call rfl identified continued
  obtain ⟨written, done, stored⟩ :=
    aggregate_eq reads charted.consistent call after.consistent after.small
  exact ⟨now, written, _, rest, done, stored, after⟩

/-- A delivered call changes the aggregate of its key as far as it says. -/
theorem Tracks.deliver (tracks : Tracks toLowerCase schedule state counted standing)
    (unambiguous : Unambiguous schedule) {chart : Chart} {song : Song}
    (stepped : step toLowerCase state (.deliver chart song) = some next) :
    ∃ told, Tracks toLowerCase (schedule ++ [.deliver chart song]) next counted told := by
  -- A call is delivered to one chart and one key, and all others stay.
  obtain ⟨call, later, after, waiting, made, rfl⟩ := step_deliver.mp stepped
  have identified := tracks.identified unambiguous
    (by rw [waiting]; simp : state.updates chart song ≠ [])
  obtain ⟨now, written, songs, rest, done, stored, told⟩ := tracks.delivers identified waiting
  cases made.symm.trans done
  refine ⟨Function.update standing chart (Function.update (standing chart) song now),
    { toCounted := tracks.toCounted.frame rfl rfl rfl rfl, queued := fun other one => ?_,
      charted := fun other key => ?_ }⟩
  · dsimp only
    by_cases sameChart : other = chart
    · subst sameChart
      rw [Function.update_self, Function.update_self]
      by_cases same : one = song
      · subst same
        rw [Function.update_self, Function.update_self]
        exact rest
      · rw [Function.update_of_ne same, Function.update_of_ne same]
        exact tracks.queued other one
    · rw [Function.update_of_ne sameChart, Function.update_of_ne sameChart]
      exact tracks.queued other one
  · dsimp only
    by_cases sameChart : other = chart
    · subst sameChart
      rw [Function.update_self, Function.update_self]
      by_cases same : key = other.key toLowerCase song
      · subst same
        rw [Function.update_self]
        exact ⟨_, stored, told⟩
      · rw [Function.update_of_ne same]
        obtain ⟨others, read, kept⟩ := tracks.charted other key
        exact ⟨others, read, kept.of_other (fun own => same own.symm) now⟩
    · rw [Function.update_of_ne sameChart, Function.update_of_ne sameChart]
      exact tracks.charted other key

/-- Every step keeps track of what has been told. -/
theorem Tracks.after_step (tracks : Tracks toLowerCase schedule state counted standing)
    (unambiguous : Unambiguous schedule) (short : (plays schedule).length < 2 ^ 63)
    {event : Event} (stepped : step toLowerCase state event = some next) :
    ∃ more told, Tracks toLowerCase (schedule ++ [event]) next more told := by
  -- Only a flush tells something new, and only a delivery passes it on.
  cases event with
  | song key song =>
    cases stepped
    exact ⟨_, _, tracks.frame (tracks.toCounted.frame rfl rfl rfl rfl) rfl rfl rfl⟩
  | play event =>
    rw [step_play] at stepped
    cases stepped
    exact ⟨_, _, tracks.frame (tracks.toCounted.frame rfl rfl rfl rfl) rfl rfl rfl⟩
  | count song =>
    have counts := (tracks.toCounted.count stepped).1
    obtain ⟨-, rfl⟩ := step_count.mp stepped
    exact ⟨_, _, tracks.frame counts rfl rfl rfl⟩
  | flush song => exact ⟨_, _, tracks.flush short stepped⟩
  | deliver chart song =>
    obtain ⟨told, after⟩ := tracks.deliver unambiguous stepped
    exact ⟨counted, told, after⟩

/-- The stores keep track along every schedule, whatever the order of its events. -/
theorem tracks_run (ran : schedule.foldlM (step toLowerCase) {} = some state)
    (unambiguous : Unambiguous schedule) (short : (plays schedule).length < 2 ^ 63) :
    ∃ counted standing, Tracks toLowerCase schedule state counted standing := by
  refine Schedule.invariant
    (fun schedule state => Unambiguous schedule → (plays schedule).length < 2 ^ 63 →
      ∃ counted standing, Tracks toLowerCase schedule state counted standing)
    (fun _ _ => ⟨_, _, tracks_initial⟩) ?_ ran unambiguous short
  intro schedule last state next _ before stepped unambiguous short
  -- What is assumed of the longer schedule holds of the shorter one.
  have described : describedSongs schedule ⊆ describedSongs (schedule ++ [last]) := by
    rw [describedSongs_append]
    exact List.subset_append_left _ _
  have unambiguousBefore : Unambiguous schedule := fun one first other second =>
    unambiguous one (described first) other (described second)
  have shortBefore : (plays schedule).length < 2 ^ 63 := by
    rw [plays_concat, List.length_append] at short
    omega
  obtain ⟨counted, standing, tracks⟩ := before unambiguousBefore shortBefore
  exact tracks.after_step unambiguousBefore shortBefore stepped

/-- A reader of a store always gets an aggregate, whose entries are among those listed. -/
theorem Tracks.reads (tracks : Tracks toLowerCase schedule state counted standing)
    (chart : Chart) (key : String) : ∃ read, deserialize (state.topFiveSongs chart key) = .ok read ∧
      Charted (Chart.key toLowerCase · chart = key) (standing chart) (read.getD {}) := by
  -- The stored bytes are those of an aggregate that lists what has been told.
  obtain ⟨songs, reads, charted⟩ := tracks.charted chart key
  refine ⟨_, reads, ?_⟩
  by_cases empty : songs.topFive = ∅
  · have new : songs = {} := charted.consistent.ext TopFiveSongs.consistent_empty empty
    rw [if_pos empty, Option.getD_none, ← new]
    exact charted
  · rw [if_neg empty, Option.getD_some]
    exact charted

/-- Once everything has arrived a song is listed with the number of its plays. -/
theorem Tracks.listed_iff (tracks : Tracks toLowerCase schedule state counted standing)
    (settled : state.Settled) {chart : Chart} {song : Song} {count : Int64} :
    standing chart song = .listed count ↔
      song ∈ plays schedule ∧ .ofNat ((plays schedule).count song) = count := by
  obtain ⟨noneWaiting, allForwarded, noUpdates⟩ := settled
  -- The standing is what was forwarded, which is what has been counted.
  have queued := tracks.queued chart song
  rw [noUpdates, List.foldlM_nil, allForwarded, tracks.stored] at queued
  have told := Option.some.inj queued
  have total := tracks.total song
  rw [noneWaiting, List.count_nil, Nat.add_zero] at total
  rw [told, total, ← List.count_pos_iff]
  by_cases unplayed : (plays schedule).count song = 0
  · simp [unplayed, Standing.told]
  · simp [unplayed, Standing.told, Nat.pos_of_ne_zero unplayed]

/-- Once everything has arrived no song is withdrawn. -/
theorem Tracks.not_withdrawn (tracks : Tracks toLowerCase schedule state counted standing)
    (settled : state.Settled) (chart : Chart) (song : Song) (count : Int64) :
    standing chart song ≠ .withdrawn count := by
  intro gone
  have queued := tracks.queued chart song
  -- With no calls on the way the standing is what has been told last.
  rw [settled.2.2, List.foldlM_nil, gone] at queued
  cases last : state.forwarded song <;> simp [last, Standing.told] at queued

/-- Once everything has arrived every chart is the ranking of its songs, cut to five. -/
theorem chart_settled (ran : schedule.foldlM (step toLowerCase) {} = some state)
    (settled : state.Settled) (unambiguous : Unambiguous schedule)
    (short : (plays schedule).length < 2 ^ 63) (chart : Chart) (key : String) :
    (deserialize (state.topFiveSongs chart key)).map
        (fun read => (read.getD {}).topFive.sort) =
      .ok ((ranking toLowerCase schedule chart key).sort.take 5) := by
  obtain ⟨counted, standing, tracks⟩ := tracks_run ran unambiguous short
  obtain ⟨read, done, charted⟩ := tracks.reads chart key
  have complete : ∀ entry, entry ∈ ranking toLowerCase schedule chart key ↔
      Reports (Chart.key toLowerCase · chart = key) (standing chart) .listed entry := by
    intro entry
    rw [ranking, Finset.mem_image]
    -- An entry of the ranking is that of a song which is listed with it.
    refine exists_congr fun song => ?_
    rw [tracks.listed_iff settled, Finset.mem_filter, List.mem_toFinset]
    obtain ⟨id, count⟩ := entry
    rw [SongPlayCount.mk.injEq]
    tauto
  rw [done]
  exact congrArg Except.ok (charted.sort_eq (tracks.not_withdrawn settled chart) complete)

end AivenExamples.KafkaMusic
