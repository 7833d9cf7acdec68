import AivenExamples.KafkaMusic.Charts
import Mathlib.Algebra.BigOperators.Group.Finset.Basic
import Mathlib.Algebra.Order.BigOperators.Group.Finset

/-! The topology comes to rest when no more records come in, whatever the order of its steps. -/

namespace AivenExamples.KafkaMusic

variable {toLowerCase : String → String} {schedule : List Event} {state next final : State}
  {counted : Song → Nat} {standing : Chart → Song → Standing}

/-- The steps that process what has come in, without anything new. -/
def Event.Internal : Event → Prop
  | .song _ _ => False
  | .play _ => False
  | .count _ => True
  | .flush _ => True
  | .deliver _ _ => True

/-- What is left to do about the count of a song once it has been counted. -/
def State.unsettled (state : State) (song : Song) : Nat :=
  (if state.forwarded song = state.songPlayCount song then 0 else 5) +
    ((state.updates .byGenre song).length + (state.updates .overall song).length)

/-- A bound on the steps that are left, for some songs. -/
def State.remaining (songs : Finset Song) (state : State) : Nat :=
  6 * state.songPlays.length + ∑ song ∈ songs, state.unsettled song

/-- A step about one song leaves less to do when it does for that song. -/
theorem remaining_lt_of {songs : Finset Song} {song : Song} (among : song ∈ songs)
    (others : ∀ other, other ≠ song → next.unsettled other = state.unsettled other)
    (less : 6 * next.songPlays.length + next.unsettled song <
      6 * state.songPlays.length + state.unsettled song) :
    next.remaining songs < state.remaining songs := by
  unfold State.remaining
  rw [← Finset.add_sum_erase songs next.unsettled among,
    ← Finset.add_sum_erase songs state.unsettled among]
  -- The other songs contribute the same to both sums.
  have same : ∑ other ∈ songs.erase song, next.unsettled other =
      ∑ other ∈ songs.erase song, state.unsettled other :=
    Finset.sum_congr rfl fun other there => others other (Finset.ne_of_mem_erase there)
  omega

/-- Two records at most are sent for a changed count. -/
theorem length_changes_le (song : Song) (oldPlays : Option Int64) (newPlays : Int64) :
    (changes song oldPlays newPlays).length ≤ 2 := by
  cases oldPlays <;> simp [changes]

/-- A play that is counted leaves less to do, even if its count has to be forwarded now. -/
theorem Tracks.remaining_count (tracks : Tracks toLowerCase schedule state counted standing)
    {song : Song} (stepped : step toLowerCase state (.count song) = some next) :
    next.remaining (plays schedule).toFinset < state.remaining (plays schedule).toFinset := by
  obtain ⟨waiting, rfl⟩ := step_count.mp stepped
  have total := tracks.total song
  have some := List.count_pos_iff.mpr waiting
  have among := List.mem_toFinset.mpr
    (List.count_pos_iff.mp (by omega : 0 < (plays schedule).count song))
  -- The six for the play pay for the five of a count that may have to be forwarded.
  refine remaining_lt_of among (fun other different => ?_) ?_
  · simp [State.unsettled, Function.update_of_ne different]
  · have length := List.length_pos_of_mem waiting
    simp only [State.unsettled, List.length_erase_of_mem waiting]
    split <;> split <;> omega

/-- A count that is forwarded is paid for by the difference that it makes up. -/
theorem Tracks.remaining_flush (tracks : Tracks toLowerCase schedule state counted standing)
    {song : Song} (stepped : step toLowerCase state (.flush song) = some next) :
    next.remaining (plays schedule).toFinset < state.remaining (plays schedule).toFinset := by
  obtain ⟨count, held, behind, rfl⟩ := step_flush.mp stepped
  have played := (tracks.count_eq held).1.trans_le (tracks.le_count song)
  -- The five for the difference pay for two calls at most to each of the two charts.
  refine remaining_lt_of (List.mem_toFinset.mpr (List.count_pos_iff.mp played))
    (fun other different => ?_) ?_
  · simp [State.unsettled, Function.update_of_ne different]
  · have calls := length_changes_le song (state.forwarded song) count
    simp only [State.unsettled, Function.update_self, List.length_append, held, if_neg behind,
      if_true]
    omega

/-- A call that is delivered is one less on the way. -/
theorem Tracks.remaining_deliver (tracks : Tracks toLowerCase schedule state counted standing)
    {chart : Chart} {song : Song}
    (stepped : step toLowerCase state (.deliver chart song) = some next) :
    next.remaining (plays schedule).toFinset < state.remaining (plays schedule).toFinset := by
  obtain ⟨call, later, stored, waiting, -, rfl⟩ := step_deliver.mp stepped
  have played := tracks.mem_plays (.inr (by rw [waiting]; simp : state.updates chart song ≠ []))
  -- Nothing but the calls of one song to one chart changes the bound.
  refine remaining_lt_of (List.mem_toFinset.mpr played) (fun other different => ?_) ?_
  · cases chart <;> simp [State.unsettled, Function.update, different]
  · cases chart <;> simp [State.unsettled, Function.update, waiting]

/-- Every step that processes something leaves less to do. -/
theorem Tracks.remaining_lt (tracks : Tracks toLowerCase schedule state counted standing)
    {event : Event} (internal : event.Internal)
    (stepped : step toLowerCase state event = some next) :
    next.remaining (plays schedule).toFinset < state.remaining (plays schedule).toFinset := by
  -- Each of the three kinds of work is measured by a part of its own.
  cases event with
  | song key song => cases internal
  | play event => cases internal
  | count song => exact tracks.remaining_count stepped
  | flush song => exact tracks.remaining_flush stepped
  | deliver chart song => exact tracks.remaining_deliver stepped

/-- The steps that process something do not change what has come in. -/
theorem Event.Internal.plays_concat {event : Event} (internal : event.Internal)
    (schedule : List Event) : plays (schedule ++ [event]) = plays schedule ∧
      describedSongs (schedule ++ [event]) = describedSongs schedule := by
  rw [KafkaMusic.plays_concat, describedSongs_append]
  -- Only songs and plays that come in are recorded.
  cases event with
  | song key song => cases internal
  | play event => cases internal
  | _ => exact ⟨List.append_nil _, List.append_nil _⟩

/-- No more steps than a bound can be taken before something new comes in. -/
theorem length_le_remaining (ran : schedule.foldlM (step toLowerCase) {} = some state)
    (unambiguous : Unambiguous schedule) (short : (plays schedule).length < 2 ^ 63)
    {later : List Event} (internal : ∀ event ∈ later, event.Internal)
    (processed : later.foldlM (step toLowerCase) state = some final) :
    later.length + final.remaining (plays schedule).toFinset ≤
      state.remaining (plays schedule).toFinset := by
  induction later generalizing schedule state with
  | nil =>
    cases processed
    simp
  | cons event later ih =>
    rw [List.foldlM_cons] at processed
    obtain ⟨middle, stepped, rest⟩ := Option.bind_eq_some_iff.mp processed
    have own := internal event (by simp)
    obtain ⟨samePlays, sameSongs⟩ := own.plays_concat schedule
    have ranOn : (schedule ++ [event]).foldlM (step toLowerCase) {} = some middle := by
      rw [Schedule.foldlM_concat, ran]
      exact stepped
    -- The rest of the steps starts behind this one, with the same plays.
    have others := ih ranOn (by rw [Unambiguous, sameSongs]; exact unambiguous)
      (by rw [samePlays]; exact short) (fun one among => internal one (by simp [among])) rest
    obtain ⟨counted, standing, tracks⟩ := tracks_run ran unambiguous short
    have less := tracks.remaining_lt own stepped
    rw [samePlays] at others
    rw [List.length_cons]
    omega

/-- When nothing can be processed any more, everything has arrived. -/
theorem settled_of_stuck (ran : schedule.foldlM (step toLowerCase) {} = some state)
    (unambiguous : Unambiguous schedule) (short : (plays schedule).length < 2 ^ 63)
    (stuck : ∀ event, event.Internal → step toLowerCase state event = none) : state.Settled := by
  obtain ⟨counted, standing, tracks⟩ := tracks_run ran unambiguous short
  refine ⟨List.eq_nil_iff_forall_not_mem.mpr fun song waiting => ?_, fun song => ?_,
    fun chart song => ?_⟩
  · have refused := stuck (.count song) trivial
    simp [step, waiting] at refused
  · -- A count that is not the one that was forwarded could be flushed.
    have refused := stuck (.flush song) trivial
    cases held : state.songPlayCount song with
    | none =>
      cases last : state.forwarded song with
      | none => rfl
      | some count =>
        obtain ⟨earlier, positive, fewer, -⟩ := tracks.forwarded song count last
        have stored := tracks.stored song
        rw [held, if_neg (by omega)] at stored
        cases stored
    | some count => simpa [step, held] using refused
  · have refused := stuck (.deliver chart song) trivial
    cases waiting : state.updates chart song with
    | nil => rfl
    | cons call later =>
      -- The aggregate can be read, so that the call could be delivered.
      have identified := tracks.identified unambiguous
        (by rw [waiting]; simp : state.updates chart song ≠ [])
      obtain ⟨_, written, _, _, done, -⟩ := tracks.delivers identified waiting
      simp [step, waiting, done] at refused

/-- Steps that process something lead from one run to a longer one with the same plays. -/
theorem run_append (ran : schedule.foldlM (step toLowerCase) {} = some state)
    {later : List Event} (internal : ∀ event ∈ later, event.Internal)
    (processed : later.foldlM (step toLowerCase) state = some final) :
    (schedule ++ later).foldlM (step toLowerCase) {} = some final ∧
      plays (schedule ++ later) = plays schedule ∧
      describedSongs (schedule ++ later) = describedSongs schedule := by
  refine ⟨by rw [List.foldlM_append, ran]; exact processed, ?_⟩
  clear processed
  -- The last step leaves the plays of all earlier ones.
  induction later using List.reverseRecOn with
  | nil => simp
  | append_singleton later last ih =>
    obtain ⟨samePlays, sameSongs⟩ := ih fun event among => internal event (by simp [among])
    have step := (internal last (by simp)).plays_concat (schedule ++ later)
    rw [← List.append_assoc, step.1, step.2]
    exact ⟨samePlays, sameSongs⟩

/--
However the plays that have come in are processed, this ends, and the charts are right then.

The ranking is that of the plays, and does not depend on how they were processed.
-/
theorem chart_at_rest (ran : schedule.foldlM (step toLowerCase) {} = some state)
    (unambiguous : Unambiguous schedule) (short : (plays schedule).length < 2 ^ 63)
    {later : List Event} (internal : ∀ event ∈ later, event.Internal)
    (processed : later.foldlM (step toLowerCase) state = some final) :
    later.length ≤ state.remaining (plays schedule).toFinset ∧
      ((∀ event, event.Internal → step toLowerCase final event = none) →
        ∀ chart key, (TopFiveSerde.deserialize (final.topFiveSongs chart key)).map
            (fun read => (read.getD {}).topFive.sort) =
          .ok ((ranking toLowerCase schedule chart key).sort.take 5)) := by
  have bound := length_le_remaining ran unambiguous short internal processed
  refine ⟨by omega, fun stuck chart key => ?_⟩
  obtain ⟨ranAll, samePlays, sameSongs⟩ := run_append ran internal processed
  have unambiguousAll : Unambiguous (schedule ++ later) := by
    rw [Unambiguous, sameSongs]
    exact unambiguous
  have shortAll : (plays (schedule ++ later)).length < 2 ^ 63 := by rwa [samePlays]
  -- Nothing is left, so that the longer run has settled.
  have settled := settled_of_stuck ranAll unambiguousAll shortAll stuck
  have ranked := chart_settled ranAll settled unambiguousAll shortAll chart key
  rw [ranking, samePlays] at ranked
  exact ranked

/-- Processing what has come in can always be carried on until nothing is left. -/
theorem exists_rest (ran : schedule.foldlM (step toLowerCase) {} = some state)
    (unambiguous : Unambiguous schedule) (short : (plays schedule).length < 2 ^ 63) :
    ∃ (later : List Event) (final : State), (∀ event ∈ later, event.Internal) ∧
      later.foldlM (step toLowerCase) state = some final ∧
      ∀ event, event.Internal → step toLowerCase final event = none := by
  -- The bound falls with every step, so that there is a last one.
  induction left : state.remaining (plays schedule).toFinset using Nat.strong_induction_on
    generalizing schedule state with
  | _ left ih =>
    by_cases stuck : ∀ event, event.Internal → step toLowerCase state event = none
    · exact ⟨[], state, by simp, rfl, stuck⟩
    · rw [not_forall] at stuck
      obtain ⟨event, possible⟩ := stuck
      obtain ⟨internal, taken⟩ := Classical.not_imp.mp possible
      obtain ⟨next, stepped⟩ := Option.ne_none_iff_exists'.mp taken
      obtain ⟨samePlays, sameSongs⟩ := internal.plays_concat schedule
      obtain ⟨counted, standing, tracks⟩ := tracks_run ran unambiguous short
      have less := tracks.remaining_lt internal stepped
      have ranOn : (schedule ++ [event]).foldlM (step toLowerCase) {} = some next := by
        rw [Schedule.foldlM_concat, ran]
        exact stepped
      obtain ⟨later, final, all, processed, rest⟩ := ih _ (left ▸ less) ranOn
        (by rw [Unambiguous, sameSongs]; exact unambiguous) (by rw [samePlays]; exact short)
        (by rw [samePlays])
      refine ⟨event :: later, final, List.forall_mem_cons.mpr ⟨internal, all⟩, ?_, rest⟩
      rw [List.foldlM_cons, stepped]
      exact processed

/-- A song that is played once. -/
def ballad : Song := { anthem with id := 1, name := "Ballad", genre := "Folk" }

/-- Three plays that come in before any of them is processed. -/
def threePlays : List Event :=
  [.song 2 (some anthem), .song 1 (some ballad), .play ⟨2, 60000⟩, .play ⟨1, 60000⟩,
    .play ⟨2, 60000⟩]

/-- However the three plays are processed, the song with two of them comes first. -/
theorem chart_at_rest_threePlays : ∃ (state : State) (later : List Event) (final : State),
    threePlays.foldlM (step String.toLower) {} = some state ∧
      later.foldlM (step String.toLower) state = some final ∧
      (TopFiveSerde.deserialize (final.topFiveSongs .overall topFiveKey)).map
        (fun read => (read.getD {}).topFive.sort) = .ok [⟨2, 2⟩, ⟨1, 1⟩] := by
  -- The two songs have ids of their own.
  have unambiguous : Unambiguous threePlays := by
    have apart : ∀ one ∈ [anthem, ballad], ∀ other ∈ [anthem, ballad],
        one.id = other.id → one = other := by decide
    exact apart
  obtain ⟨state, ran⟩ := Option.isSome_iff_exists.mp
    (by decide +kernel : (threePlays.foldlM (step String.toLower) {}).isSome)
  have short : (plays threePlays).length < 2 ^ 63 := by decide +kernel
  -- Whatever is left of the work can be done to its end.
  obtain ⟨later, final, internal, processed, stuck⟩ := exists_rest ran unambiguous short
  have rested := chart_at_rest ran unambiguous short internal processed
  -- The ranking is computed as a set, and then put in order.
  have ranked : ranking String.toLower threePlays .overall topFiveKey =
      [⟨2, 2⟩, ⟨1, 1⟩].toFinset := by decide +kernel
  have sorted : (ranking String.toLower threePlays .overall topFiveKey).sort =
      [⟨2, 2⟩, ⟨1, 1⟩] := by
    rw [ranked]
    exact (List.toFinset_sort (· ≤ ·) (by decide)).mpr (by decide)
  have charts := rested.2 stuck .overall topFiveKey
  rw [sorted] at charts
  exact ⟨state, later, final, ran, processed, charts⟩

end AivenExamples.KafkaMusic
