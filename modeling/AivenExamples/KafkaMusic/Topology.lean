import AivenExamples.KafkaMusic.CallOrder
import AivenExamples.KafkaMusic.TopFiveSerde

/-! The topology of the music charts, from the two topics that it reads to its three stores. -/

namespace AivenExamples.KafkaMusic

/-- The song that was played, and for how long. -/
structure PlayEvent where
  songId : Int64
  duration : Int64

/-- The description of a song. -/
structure Song where
  id : Int64
  album : String
  artist : String
  name : String
  genre : String
deriving DecidableEq

/-- Plays that are shorter do not count, in milliseconds. -/
def minChartableDuration : Int64 := 30 * 1000

/-- Whether a play counts. -/
def chartable (event : PlayEvent) : Bool := event.duration ≥ minChartableDuration

/-- The key of the only entry in the store of the overall chart. -/
def topFiveKey : String := "all"

/-- The two aggregations of the counts. -/
inductive Chart where
  | byGenre
  | overall
deriving DecidableEq

/-- The entry of its store to which an aggregation adds the count of a song. -/
def Chart.key (toLowerCase : String → String) (song : Song) : Chart → String
  | .byGenre => toLowerCase song.genre
  | .overall => topFiveKey

/-- The stores of the topology, and the records on the topics between its parts. -/
structure State where
  -- The store behind the table of the songs.
  allSongs : Int64 → Option Song := fun _ => none
  -- Plays that have found their song and are on the way to its count.
  songPlays : List Song := []
  songPlayCount : Song → Option Int64 := fun _ => none
  -- The count of which the aggregations have been told last.
  forwarded : Song → Option Int64 := fun _ => none
  -- Calls on the way to an aggregation; those of one song stay in order.
  updates : Chart → Song → List Call := fun _ _ => []
  topFiveSongs : Chart → String → Option (List UInt8) := fun _ _ => none

/-- One record of a topic is processed, or a count is flushed from its cache. -/
inductive Event where
  | song (key : Int64) (song : Option Song)
  | play (event : PlayEvent)
  | count (song : Song)
  | flush (song : Song)
  | deliver (chart : Chart) (song : Song)

/-- A song whose count has changed is taken out with the old count and put in with the new one. -/
def changes (song : Song) (oldPlays : Option Int64) (newPlays : Int64) : List Call :=
  (oldPlays.map fun plays => Call.remove { songId := song.id, plays }).toList ++
    [.add { songId := song.id, plays := newPlays }]

/-- The aggregate is read from its store, changed by the call, and written. -/
def aggregate (stored : Option (List UInt8)) (call : Call) :
    Except RuntimeException (Option (List UInt8)) := do
  let aggregate ← TopFiveSerde.deserialize stored
  match call with
  -- The subtractor is not called while there is no aggregate.
  | .remove value => return aggregate.map fun songs => TopFiveSerde.serialize (songs.remove value)
  | .add value => return some (TopFiveSerde.serialize ((aggregate.getD {}).add value))

/-- One step of the topology, when it can be taken. -/
def step (toLowerCase : String → String) (state : State) : Event → Option State
  | .song key song => some { state with allSongs := Function.update state.allSongs key song }
  | .play event =>
    if chartable event then
      match state.allSongs event.songId with
      -- A play without a song has no key to be counted under.
      | none => some state
      | some song => some { state with songPlays := song :: state.songPlays }
    else some state
  | .count song =>
    if song ∈ state.songPlays then
      some { state with
        songPlays := state.songPlays.erase song
        songPlayCount := Function.update state.songPlayCount song
          (some ((state.songPlayCount song).getD 0 + 1)) }
    else none
  | .flush song =>
    match state.songPlayCount song with
    | none => none
    | some plays =>
      if state.forwarded song = some plays then none
      else
        some { state with
          forwarded := Function.update state.forwarded song (some plays)
          updates := fun chart => Function.update (state.updates chart) song
            (state.updates chart song ++ changes song (state.forwarded song) plays) }
  | .deliver chart song =>
    match state.updates chart song with
    | [] => none
    | call :: later =>
      let key := chart.key toLowerCase song
      match aggregate (state.topFiveSongs chart key) call with
      | .error _ => none
      | .ok stored =>
        some { state with
          updates := Function.update state.updates chart
            (Function.update (state.updates chart) song later)
          topFiveSongs := Function.update state.topFiveSongs chart
            (Function.update (state.topFiveSongs chart) key stored) }

/-- Every play is counted, every count is forwarded, and every update has arrived. -/
def State.Settled (state : State) : Prop :=
  state.songPlays = [] ∧ (∀ song, state.forwarded song = state.songPlayCount song) ∧
    ∀ chart song, state.updates chart song = []

/-- The table of the songs after an event. -/
def readSong (table : Int64 → Option Song) : Event → Int64 → Option Song
  | .song key song => Function.update table key song
  | _ => table

/-- The song of a play that counts, when the table has it. -/
def playedSong (table : Int64 → Option Song) : Event → List Song
  | .play event => if chartable event then (table event.songId).toList else []
  | _ => []

/-- The songs of all plays that count, from an event on. -/
def playsFrom (table : Int64 → Option Song) : List Event → List Song
  | [] => []
  | event :: later => playedSong table event ++ playsFrom (readSong table event) later

/-- The songs of all plays that count. -/
def plays (schedule : List Event) : List Song := playsFrom (fun _ => none) schedule

/-- The songs that are described on the topic. -/
def describedSongs (schedule : List Event) : List Song :=
  schedule.flatMap fun event =>
    match event with
    | .song _ song => song.toList
    | _ => []

theorem describedSongs_append (first second : List Event) :
    describedSongs (first ++ second) = describedSongs first ++ describedSongs second :=
  List.flatMap_append

/-- The last event of a schedule finds the table that the others have left. -/
theorem playsFrom_concat (table : Int64 → Option Song) (schedule : List Event) (last : Event) :
    playsFrom table (schedule ++ [last]) =
      playsFrom table schedule ++ playedSong (schedule.foldl readSong table) last := by
  induction schedule generalizing table with
  | nil => simp [playsFrom]
  | cons event schedule ih => simp [playsFrom, ih]

/-- The counts that a chart is about, once they have all arrived. -/
def ranking (toLowerCase : String → String) (schedule : List Event) (chart : Chart)
    (key : String) : Finset SongPlayCount :=
  ((plays schedule).toFinset.filter (chart.key toLowerCase · = key)).image fun song =>
    { songId := song.id, plays := .ofNat ((plays schedule).count song) }

end AivenExamples.KafkaMusic
