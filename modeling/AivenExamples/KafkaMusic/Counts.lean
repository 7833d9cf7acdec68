import AivenExamples.Data.Schedule
import AivenExamples.KafkaMusic.Topology

/-! What the counts and the charts keep to along every schedule, whatever the songs are called. -/

namespace AivenExamples.KafkaMusic

open Leaderboard TopFiveSerde

variable {toLowerCase : String → String} {schedule : List Event} {state next : State}

/-- The songs of the plays after one more event. -/
theorem plays_concat (schedule : List Event) (last : Event) : plays (schedule ++ [last]) =
    plays schedule ++ playedSong (schedule.foldl readSong fun _ => none) last :=
  playsFrom_concat _ schedule last

/-! ### Steps -/

section Steps

variable {chart : Chart} {song : Song}

/-- A play is on the way to its count when its song is known. -/
theorem step_play (event : PlayEvent) : step toLowerCase state (.play event) =
    some { state with
      songPlays := playedSong state.allSongs (.play event) ++ state.songPlays } := by
  -- A play that is too short, or has no song, leaves everything as it is.
  by_cases long : chartable event = true
  · cases known : state.allSongs event.songId with
    | none => simp [step, playedSong, long, known]
    | some song => simp [step, playedSong, long, known]
  · simp [step, playedSong, long]

/-- A play that waits is counted. -/
theorem step_count : step toLowerCase state (.count song) = some next ↔
    song ∈ state.songPlays ∧ next = { state with
      songPlays := state.songPlays.erase song
      songPlayCount := Function.update state.songPlayCount song
        (some ((state.songPlayCount song).getD 0 + 1)) } := by
  rw [step, Option.ite_none_right_eq_some, Option.some.injEq, eq_comm]

/-- A count is flushed when it is another one than before. -/
theorem step_flush : step toLowerCase state (.flush song) = some next ↔
    ∃ count, state.songPlayCount song = some count ∧ state.forwarded song ≠ some count ∧
      next = { state with
        forwarded := Function.update state.forwarded song (some count)
        updates := fun chart => Function.update (state.updates chart) song
          (state.updates chart song ++ changes song (state.forwarded song) count) } := by
  -- A song without a count has none to forward.
  cases held : state.songPlayCount song with
  | none => simp [step, held]
  | some count =>
    simp only [step, held, Option.ite_none_left_eq_some, Option.some.injEq, exists_eq_left']
    rw [eq_comm (a := next)]

/-- The first call on the way is delivered to the aggregate of its key. -/
theorem step_deliver : step toLowerCase state (.deliver chart song) = some next ↔
    ∃ call later stored, state.updates chart song = call :: later ∧
      aggregate (state.topFiveSongs chart (chart.key toLowerCase song)) call = .ok stored ∧
      next = { state with
        updates := Function.update state.updates chart
          (Function.update (state.updates chart) song later)
        topFiveSongs := Function.update state.topFiveSongs chart
          (Function.update (state.topFiveSongs chart) (chart.key toLowerCase song) stored) } := by
  -- The step is refused without a call, and where the stored bytes cannot be read.
  cases waiting : state.updates chart song with
  | nil => simp [step, waiting]
  | cons call later =>
    cases done : aggregate (state.topFiveSongs chart (chart.key toLowerCase song)) call with
    | error fault => simp [step, waiting, done]
    | ok stored =>
      simp only [step, waiting, done, Option.some.injEq]
      constructor
      · intro same
        exact ⟨call, later, stored, rfl, done, same.symm⟩
      · intro found
        obtain ⟨_, _, _, same, own, result⟩ := found
        cases same
        cases done.symm.trans own
        exact result.symm

end Steps

/-! ### Counts -/

/-- What the stored counts, and those that were forwarded, have to do with the plays. -/
structure Counted (schedule : List Event) (state : State) (counted : Song → Nat) : Prop where
  table : state.allSongs = schedule.foldl readSong fun _ => none
  -- Every play has been counted, or is on the way to its count.
  total : ∀ song, counted song + state.songPlays.count song = (plays schedule).count song
  stored : ∀ song, state.songPlayCount song =
    if counted song = 0 then none else some (.ofNat (counted song))
  forwarded : ∀ song plays, state.forwarded song = some plays →
    ∃ earlier, 0 < earlier ∧ earlier ≤ counted song ∧ plays = .ofNat earlier

/-- Nothing has been counted before the first event. -/
theorem counted_initial : Counted [] {} fun _ => 0 where
  table := rfl
  total := fun _ => rfl
  stored := fun _ => rfl
  forwarded := fun _ _ none => by cases none

variable {counted : Song → Nat}

/-- A song has been played at least as often as it has been counted. -/
theorem Counted.le_count (counts : Counted schedule state counted) (song : Song) :
    counted song ≤ (plays schedule).count song := by
  have total := counts.total song
  omega

/-- An event that leaves the counts as they are only brings in descriptions and plays. -/
theorem Counted.frame (counts : Counted schedule state counted) {event : Event}
    (table : next.allSongs = readSong state.allSongs event)
    (waiting : next.songPlays = playedSong state.allSongs event ++ state.songPlays)
    (stored : next.songPlayCount = state.songPlayCount)
    (forwarded : next.forwarded = state.forwarded) :
    Counted (schedule ++ [event]) next counted where
  table := by
    rw [List.foldl_append, ← counts.table, table]
    rfl
  total := by
    intro song
    -- Plays that come in wait, and are not counted yet.
    have total := counts.total song
    rw [plays_concat, ← counts.table, waiting, List.count_append, List.count_append]
    omega
  stored := stored ▸ counts.stored
  forwarded := forwarded ▸ counts.forwarded

/-- A play moves from those that wait to those that are counted. -/
theorem Counted.count (counts : Counted schedule state counted) {song : Song}
    (stepped : step toLowerCase state (.count song) = some next) :
    Counted (schedule ++ [.count song]) next (Function.update counted song (counted song + 1)) ∧
      ∀ other, counted other ≤ Function.update counted song (counted song + 1) other := by
  obtain ⟨waiting, rfl⟩ := step_count.mp stepped
  have more : ∀ other, counted other ≤ Function.update counted song (counted song + 1) other := by
    intro other
    by_cases same : other = song
    · subst same
      simp
    · rw [Function.update_of_ne same]
  have none : plays (schedule ++ [.count song]) = plays schedule := by
    simp [plays_concat, playedSong]
  refine ⟨?_, more⟩
  refine
    { table := ?_, total := fun other => ?_, stored := fun other => ?_,
      forwarded := fun other count told => ?_ }
  · rw [List.foldl_append, ← counts.table]
    rfl
  · have total := counts.total other
    rw [none]
    by_cases same : other = song
    · subst same
      have some := List.count_pos_iff.mpr waiting
      rw [Function.update_self, List.count_erase_self]
      omega
    · rw [Function.update_of_ne same, List.count_erase_of_ne same]
      exact total
  · -- The stored count grows with the number of the plays.
    dsimp only
    by_cases same : other = song
    · subst same
      rw [Function.update_self, Function.update_self, counts.stored other]
      by_cases first : counted other = 0
      · simp [first]
      · simp [first]
    · rw [Function.update_of_ne same, Function.update_of_ne same, counts.stored other]
  · obtain ⟨earlier, positive, fewer, equal⟩ := counts.forwarded other count told
    exact ⟨earlier, positive, fewer.trans (more other), equal⟩

/-- A stored count is the number of the plays that have been counted, which are some. -/
theorem Counted.count_eq (counts : Counted schedule state counted) {song : Song} {count : Int64}
    (held : state.songPlayCount song = some count) :
    0 < counted song ∧ count = .ofNat (counted song) := by
  have stored := counts.stored song
  rw [held] at stored
  -- A song without counted plays has no count.
  split at stored
  · cases stored
  · rename_i some
    exact ⟨Nat.pos_of_ne_zero some, Option.some.inj stored⟩

/-- What is forwarded is the count as it is stored. -/
theorem Counted.flush (counts : Counted schedule state counted) {song : Song}
    (stepped : step toLowerCase state (.flush song) = some next) :
    Counted (schedule ++ [.flush song]) next counted := by
  obtain ⟨count, held, -, rfl⟩ := step_flush.mp stepped
  obtain ⟨some, equal⟩ := counts.count_eq held
  refine
    { table := ?_, total := ?_, stored := counts.stored,
      forwarded := fun other plays told => ?_ }
  · rw [List.foldl_append, ← counts.table]
    rfl
  · simpa [plays_concat, playedSong] using counts.total
  · dsimp only at told
    -- For the song itself the stored count is the one that is told now.
    by_cases same : other = song
    · subst same
      rw [Function.update_self, Option.some.injEq] at told
      exact ⟨counted other, some, le_refl _, by rw [← told, equal]⟩
    · rw [Function.update_of_ne same] at told
      exact counts.forwarded other plays told

/-- Every step keeps to the plays, and no count is taken back. -/
theorem Counted.after_step (counts : Counted schedule state counted) {event : Event}
    (stepped : step toLowerCase state event = some next) :
    ∃ more, Counted (schedule ++ [event]) next more ∧ ∀ song, counted song ≤ more song := by
  -- Only a count changes what has been counted.
  cases event with
  | song key song =>
    cases stepped
    exact ⟨counted, counts.frame rfl rfl rfl rfl, fun _ => le_refl _⟩
  | play event =>
    rw [step_play] at stepped
    cases stepped
    exact ⟨counted, counts.frame rfl rfl rfl rfl, fun _ => le_refl _⟩
  | count song => exact ⟨_, counts.count stepped⟩
  | flush song => exact ⟨counted, counts.flush stepped, fun _ => le_refl _⟩
  | deliver chart song =>
    obtain ⟨_, _, _, -, -, rfl⟩ := step_deliver.mp stepped
    exact ⟨counted, counts.frame rfl rfl rfl rfl, fun _ => le_refl _⟩

/-! ### Entries -/

/-- An entry for one of some songs, with the number of the first of its plays. -/
def Earned (counted : Song → Nat) (own : Song → Prop) (entry : SongPlayCount) : Prop :=
  ∃ song, own song ∧ ∃ count, 0 < count ∧ count ≤ counted song ∧
    entry = { songId := song.id, plays := .ofNat count }

/-- Further plays do not make an entry worth less. -/
theorem Earned.mono {own : Song → Prop} {entry : SongPlayCount} (earned : Earned counted own entry)
    {more : Song → Nat} (grown : ∀ song, counted song ≤ more song) : Earned more own entry := by
  obtain ⟨song, its, count, positive, fewer, same⟩ := earned
  exact ⟨song, its, count, positive, fewer.trans (grown song), same⟩

/-- A reader of a store gets a chart of up to five entries, all of some kind. -/
def Lists (kind : SongPlayCount → Prop) (stored : Option (List UInt8)) : Prop :=
  ∃ read, deserialize stored = .ok read ∧ (read.getD {}).Consistent ∧
    (read.getD {}).topFive.card ≤ 5 ∧ ∀ entry ∈ (read.getD {}).topFive, kind entry

/-- A call lists the entry that it adds, and none that was not there otherwise. -/
theorem Lists.aggregate {kind : SongPlayCount → Prop} {stored after : Option (List UInt8)}
    (lists : Lists kind stored) {call : Call} (done : aggregate stored call = .ok after)
    (added : ∀ value, call = .add value → kind value) : Lists kind after := by
  obtain ⟨read, found, consistent, small, all⟩ := lists
  cases call with
  | add value =>
    have after_eq : after = some (serialize ((read.getD {}).add value)) := by
      rw [KafkaMusic.aggregate, found] at done
      exact (Except.ok.inj done).symm
    obtain ⟨kept, tree⟩ := consistent.add value
    obtain ⟨again, reads, also, same⟩ := deserialize_tree (fun _ one _ two => kept.unique one two)
      (TopFiveSongs.card_add_le small value)
    refine ⟨again, by rw [after_eq, reads], also, same ▸ TopFiveSongs.card_add_le small value,
      fun entry there => ?_⟩
    rw [same, tree] at there
    rcases Finset.mem_insert.mp (trim_subset there) with new | old
    · exact new ▸ added value rfl
    · exact all entry (Finset.mem_of_mem_filter entry old)
  | remove value =>
    cases read with
    | none =>
      -- There is no aggregate to take anything out of.
      have after_eq : after = none := by
        rw [KafkaMusic.aggregate, found] at done
        exact (Except.ok.inj done).symm
      exact ⟨none, by rw [after_eq]; rfl, consistent, small, all⟩
    | some songs =>
      have after_eq : after = some (serialize (songs.remove value)) := by
        rw [KafkaMusic.aggregate, found] at done
        exact (Except.ok.inj done).symm
      -- The map may have lost a song of the tree, but only the tree is written.
      have fewer : (songs.remove value).topFive ⊆ songs.topFive := Finset.erase_subset _ _
      have size := (Finset.card_le_card fewer).trans small
      obtain ⟨again, reads, also, same⟩ := deserialize_tree
        (fun _ one _ two => consistent.unique (fewer one) (fewer two)) size
      exact ⟨again, by rw [after_eq, reads], also, same ▸ size,
        fun entry there => all entry (fewer (same ▸ there))⟩

/-- The values on the way to the charts, and the entries in them, are earned by plays. -/
structure Sound (toLowerCase : String → String) (state : State) (counted : Song → Nat) : Prop where
  queued : ∀ chart song value, Call.add value ∈ state.updates chart song →
    Earned counted (· = song) value
  charted : ∀ chart key, Lists (Earned counted (Chart.key toLowerCase · chart = key))
    (state.topFiveSongs chart key)

/-- The charts are empty before the first event. -/
theorem sound_initial : Sound toLowerCase {} fun _ => 0 where
  queued := fun _ _ _ there => absurd there List.not_mem_nil
  charted := fun _ _ => ⟨none, rfl, TopFiveSongs.consistent_empty, by simp, by simp⟩

/-- What has been earned stays so when neither calls nor charts change. -/
theorem Sound.frame (sound : Sound toLowerCase state counted) {more : Song → Nat}
    (grown : ∀ song, counted song ≤ more song) (updates : next.updates = state.updates)
    (topFiveSongs : next.topFiveSongs = state.topFiveSongs) : Sound toLowerCase next more where
  queued := fun chart song value there =>
    (sound.queued chart song value (updates ▸ there)).mono grown
  charted := by
    -- Larger counts only leave more room for what has been earned.
    intro chart key
    obtain ⟨read, found, consistent, small, all⟩ := sound.charted chart key
    exact ⟨read, topFiveSongs ▸ found, consistent, small,
      fun entry there => (all entry there).mono grown⟩

/-- A count that is flushed is the number of plays so far. -/
theorem Sound.flush (sound : Sound toLowerCase state counted)
    (counts : Counted schedule state counted) {song : Song}
    (stepped : step toLowerCase state (.flush song) = some next) :
    Sound toLowerCase next counted := by
  obtain ⟨count, held, -, rfl⟩ := step_flush.mp stepped
  obtain ⟨some, equal⟩ := counts.count_eq held
  refine { queued := fun chart other value there => ?_, charted := sound.charted }
  dsimp only at there
  by_cases same : other = song
  · subst same
    rw [Function.update_self, List.mem_append] at there
    rcases there with before | now
    · exact sound.queued chart other value before
    · -- Of the two calls only the last one is of the adder.
      have new : value = { songId := other.id, plays := count } := by
        rw [changes, List.mem_append, List.mem_singleton, Option.mem_toList] at now
        rcases now with old | new
        · obtain ⟨plays, -, other⟩ := Option.map_eq_some_iff.mp old
          cases other
        · exact Call.add.inj new
      exact ⟨other, rfl, counted other, some, le_refl _, by rw [new, equal]⟩
  · rw [Function.update_of_ne same] at there
    exact sound.queued chart other value there

/-- A call that is delivered brings an earned entry into the chart of its key. -/
theorem Sound.deliver (sound : Sound toLowerCase state counted) {chart : Chart} {song : Song}
    (stepped : step toLowerCase state (.deliver chart song) = some next) :
    Sound toLowerCase next counted := by
  obtain ⟨call, later, stored, waiting, done, rfl⟩ := step_deliver.mp stepped
  have earned {value : SongPlayCount} (own : call = .add value) : Earned counted (· = song) value :=
    sound.queued chart song value (by rw [waiting, own]; exact List.mem_cons_self)
  refine { queued := fun one other value there => ?_, charted := fun one key => ?_ }
  · -- The calls that are left were on the way before.
    refine sound.queued one other value ?_
    dsimp only at there
    by_cases sameChart : one = chart
    · subst sameChart
      rw [Function.update_self] at there
      by_cases same : other = song
      · subst same
        rw [Function.update_self] at there
        rw [waiting]
        exact List.mem_cons_of_mem _ there
      · rwa [Function.update_of_ne same] at there
    · rwa [Function.update_of_ne sameChart] at there
  · dsimp only
    by_cases sameChart : one = chart
    · subst sameChart
      rw [Function.update_self]
      by_cases same : key = one.key toLowerCase song
      · subst same
        rw [Function.update_self]
        refine (sound.charted one _).aggregate done fun value own => ?_
        obtain ⟨player, is, counts⟩ := earned own
        exact ⟨player, by rw [is], counts⟩
      · rw [Function.update_of_ne same]
        exact sound.charted one key
    · rw [Function.update_of_ne sameChart]
      exact sound.charted one key

/-- Every step keeps the charts sound. -/
theorem Sound.after_step (sound : Sound toLowerCase state counted)
    (counts : Counted schedule state counted) {event : Event}
    (stepped : step toLowerCase state event = some next) {more : Song → Nat}
    (grown : ∀ song, counted song ≤ more song) : Sound toLowerCase next more := by
  -- Only a flush sends calls, and only a delivery changes a chart.
  cases event with
  | song key song =>
    cases stepped
    exact sound.frame grown rfl rfl
  | play event =>
    rw [step_play] at stepped
    cases stepped
    exact sound.frame grown rfl rfl
  | count song =>
    obtain ⟨-, rfl⟩ := step_count.mp stepped
    exact sound.frame grown rfl rfl
  | flush song => exact (sound.flush counts stepped).frame grown rfl rfl
  | deliver chart song => exact (sound.deliver stepped).frame grown rfl rfl

/-- Along every schedule the counts keep to the plays, and the charts to the counts. -/
theorem sound_run (ran : schedule.foldlM (step toLowerCase) {} = some state) :
    ∃ counted, Counted schedule state counted ∧ Sound toLowerCase state counted := by
  refine Schedule.invariant (fun schedule state => ∃ counted, Counted schedule state counted ∧
    Sound toLowerCase state counted) ⟨_, counted_initial, sound_initial⟩ ?_ ran
  -- The counts are carried along first, since the charts depend on them.
  intro schedule last state next _ before stepped
  obtain ⟨counted, counts, sound⟩ := before
  obtain ⟨more, after, grown⟩ := counts.after_step stepped
  exact ⟨more, after, sound.after_step counts stepped grown⟩

/--
At any time a chart can be read, and lists up to five songs of its key once each.

A song is listed with the number of the first so many of its plays.
-/
theorem chart_sound (ran : schedule.foldlM (step toLowerCase) {} = some state) (chart : Chart)
    (key : String) :
    ∃ read, deserialize (state.topFiveSongs chart key) = .ok read ∧
      (read.getD {}).Consistent ∧ (read.getD {}).topFive.card ≤ 5 ∧
      ∀ entry ∈ (read.getD {}).topFive, ∃ song ∈ plays schedule,
        chart.key toLowerCase song = key ∧ ∃ count, 0 < count ∧
          count ≤ (plays schedule).count song ∧
          entry = { songId := song.id, plays := .ofNat count } := by
  obtain ⟨counted, counts, sound⟩ := sound_run ran
  obtain ⟨read, found, consistent, small, all⟩ := sound.charted chart key
  refine ⟨read, found, consistent, small, fun entry there => ?_⟩
  obtain ⟨song, own, count, positive, fewer, same⟩ := all entry there
  -- What has been counted has been played.
  have played := fewer.trans (counts.le_count song)
  exact ⟨song, List.count_pos_iff.mp (positive.trans_le played), own, count, positive, played, same⟩

/-- A song that is played twice. -/
def anthem : Song where
  id := 2
  album := "First"
  artist := "Band"
  name := "Anthem"
  genre := "Punk"

/-- The song as it is described anew under its id. -/
def cover : Song := { anthem with name := "Cover", genre := "Folk" }

/-- A song is played twice, gets another description, and is played again. -/
def renamed : List Event :=
  [.song 2 (some anthem), .play ⟨2, 60000⟩, .play ⟨2, 60000⟩, .song 2 (some cover),
    .play ⟨2, 60000⟩, .count anthem, .count cover, .count anthem, .flush anthem, .flush cover,
    .deliver .byGenre cover, .deliver .overall anthem, .deliver .byGenre anthem]

/-- The chart of the second genre lists the song with the play that it had there. -/
theorem chart_sound_renamed : ∃ state read,
    renamed.foldlM (step String.toLower) {} = some state ∧
      deserialize (state.topFiveSongs .byGenre "folk") = .ok read ∧
      (read.getD {}).Consistent ∧ (read.getD {}).topFive = {⟨2, 1⟩} ∧
      ∀ entry ∈ (read.getD {}).topFive, ∃ song ∈ plays renamed,
        Chart.byGenre.key String.toLower song = "folk" ∧ ∃ count, 0 < count ∧
          count ≤ (plays renamed).count song ∧
          entry = { songId := song.id, plays := .ofNat count } := by
  obtain ⟨state, ran⟩ := Option.isSome_iff_exists.mp
    (by decide +kernel : (renamed.foldlM (step String.toLower) {}).isSome)
  obtain ⟨read, found, consistent, -, earned⟩ := chart_sound ran .byGenre "folk"
  -- The chart itself is computed from the run.
  have folk : (renamed.foldlM (step String.toLower) {}).bind
      (fun state => (deserialize (state.topFiveSongs .byGenre "folk")).toOption.map
        fun read => (read.getD {}).topFive) = some {⟨2, 1⟩} := by decide +kernel
  rw [ran, Option.bind_some, found] at folk
  exact ⟨state, read, ran, found, consistent, Option.some.inj folk, earned⟩

end AivenExamples.KafkaMusic
