import AivenExamples.Data.BigEndian
import AivenExamples.KafkaMusic.TopFiveSongs

/-! The bytes as which the aggregate is kept in a state store. -/

namespace AivenExamples.KafkaMusic

open BigEndian Leaderboard

/-- The exception of a reader that finds half an entry, an `EOFException` inside. -/
inductive RuntimeException where
  | endOfFile
deriving DecidableEq

namespace TopFiveSerde

/-- The two numbers of an entry. -/
def writeEntry (songPlayCount : SongPlayCount) : List UInt8 :=
  writeLong songPlayCount.songId ++ writeLong songPlayCount.plays

/-- The entries of the tree in its order. -/
def serialize (topFiveSongs : TopFiveSongs) : List UInt8 :=
  topFiveSongs.topFive.sort.flatMap writeEntry

/-- The loop of the reader, which is entered at most once for every byte. -/
def readEntries : Nat → List UInt8 → TopFiveSongs → Except RuntimeException TopFiveSongs
  | 0, _, result => .ok result
  | rounds + 1, data, result =>
    if data.isEmpty then .ok result
    else
      match readLong data with
      | none => .error .endOfFile
      | some (songId, rest) =>
        match readLong rest with
        | none => .error .endOfFile
        | some (plays, rest) => readEntries rounds rest (result.add { songId, plays })

/-- Without any bytes there is no aggregate, which makes the aggregation start a new one. -/
def deserialize (bytes : Option (List UInt8)) : Except RuntimeException (Option TopFiveSongs) :=
  match bytes with
  | none => .ok none
  | some data => if data.isEmpty then .ok none else (readEntries data.length data {}).map some

variable {songs : TopFiveSongs} {data : List UInt8} {rounds : Nat}

theorem length_flatMap_writeEntry (entries : List SongPlayCount) :
    (entries.flatMap writeEntry).length = 16 * entries.length := by
  -- Every entry takes two numbers of eight bytes.
  induction entries with
  | nil => rfl
  | cons entry entries ih =>
    simp [writeEntry, ih]
    omega

/-- Entries that were written are added one after the other. -/
theorem readEntries_flatMap (entries : List SongPlayCount) (result : TopFiveSongs)
    (enough : entries.length ≤ rounds) :
    readEntries rounds (entries.flatMap writeEntry) result =
      .ok (entries.foldl TopFiveSongs.add result) := by
  -- Each round of the loop takes the sixteen bytes of one entry.
  induction entries generalizing rounds result with
  | nil => cases rounds <;> rfl
  | cons entry entries ih =>
    obtain ⟨rounds, rfl⟩ : ∃ fewer, rounds = fewer + 1 := ⟨rounds - 1, by simp at enough; omega⟩
    have full : ((entry :: entries).flatMap writeEntry).isEmpty = false := by
      rw [List.isEmpty_eq_false_iff, ← List.length_pos_iff, length_flatMap_writeEntry]
      simp
    rw [readEntries, full]
    simp [writeEntry, ih _ (by simpa using enough)]

/-- Bytes are whole entries, or the reader fails in the middle of one. -/
theorem readEntries_cases (result : TopFiveSongs) (enough : data.length ≤ rounds) :
    (∃ entries : List SongPlayCount, data = entries.flatMap writeEntry) ∨
      data.length % 16 ≠ 0 ∧ readEntries rounds data result = .error .endOfFile := by
  induction rounds generalizing data result with
  | zero => exact .inl ⟨[], List.length_eq_zero_iff.mp (by omega)⟩
  | succ rounds ih =>
    by_cases empty : data = []
    · exact .inl ⟨[], empty⟩
    have full : data.isEmpty = false := by simpa using empty
    rw [readEntries, full]
    -- Either of the two numbers can be missing.
    cases first : readLong data with
    | none =>
      have short := readLong_eq_none.mp first
      have some := List.length_pos_iff.mpr empty
      exact .inr ⟨by omega, by simp⟩
    | some read =>
      obtain ⟨songId, rest⟩ := read
      have written := eq_writeLong_of_readLong first
      have size := congrArg List.length written
      rw [List.length_append, length_writeLong] at size
      cases second : readLong rest with
      | none =>
        have short := readLong_eq_none.mp second
        exact .inr ⟨by omega, by simp [second]⟩
      | some read =>
        obtain ⟨plays, rest⟩ := read
        have follows := eq_writeLong_of_readLong second
        have left := congrArg List.length follows
        rw [List.length_append, length_writeLong] at left
        simp only [second]
        have fewer : rest.length ≤ rounds := by omega
        rcases ih (result.add { songId, plays }) fewer with whole | half
        · obtain ⟨entries, others⟩ := whole
          refine .inl ⟨{ songId, plays } :: entries, ?_⟩
          rw [written, follows, others]
          simp [writeEntry]
        · exact .inr ⟨by omega, half.2⟩

/-- Nothing is written for an aggregate without entries. -/
theorem isEmpty_serialize (songs : TopFiveSongs) :
    (serialize songs).isEmpty = decide (songs.topFive = ∅) := by
  -- There are sixteen bytes for each entry.
  have size : (serialize songs).length = 16 * songs.topFive.card := by
    rw [serialize, length_flatMap_writeEntry, Finset.length_sort]
  rw [Bool.eq_iff_iff, List.isEmpty_iff, decide_eq_true_eq, ← List.length_eq_zero_iff, size,
    ← Finset.card_eq_zero]
  omega

/-- Entries of different songs are read as an aggregate of its own that has them. -/
theorem readEntries_tree (distinct : ∀ first ∈ songs.topFive, ∀ second ∈ songs.topFive,
    first.songId = second.songId → first = second) (small : songs.topFive.card ≤ 5) :
    ∃ read : TopFiveSongs, read.Consistent ∧ read.topFive = songs.topFive ∧
      readEntries (serialize songs).length (serialize songs) {} = .ok read := by
  -- Each entry is read once, and no two are of one song.
  have size : songs.topFive.sort.length = songs.topFive.card := Finset.length_sort _
  have enough : songs.topFive.sort.length ≤ (serialize songs).length := by
    rw [serialize, length_flatMap_writeEntry]
    omega
  have apart : (songs.topFive.sort.map SongPlayCount.songId).Nodup := by
    refine List.Nodup.map_on (fun first one second two same => ?_) (Finset.sort_nodup _ _)
    exact distinct first ((Finset.mem_sort _).mp one) second ((Finset.mem_sort _).mp two) same
  refine ⟨songs.topFive.sort.foldl TopFiveSongs.add {}, (TopFiveSongs.foldl_add _).1, ?_, ?_⟩
  · rw [TopFiveSongs.foldl_add_distinct (by omega) apart, Finset.sort_toFinset]
  · rw [serialize] at enough ⊢
    exact readEntries_flatMap _ _ enough

/-- The entries of different songs that were written are read again. -/
theorem deserialize_tree (distinct : ∀ first ∈ songs.topFive, ∀ second ∈ songs.topFive,
    first.songId = second.songId → first = second) (small : songs.topFive.card ≤ 5) :
    ∃ read : Option TopFiveSongs, deserialize (some (serialize songs)) = .ok read ∧
      (read.getD {}).Consistent ∧ (read.getD {}).topFive = songs.topFive := by
  rw [deserialize, isEmpty_serialize]
  by_cases empty : songs.topFive = ∅
  · exact ⟨none, by simp [empty], TopFiveSongs.consistent_empty, by simp [empty]⟩
  · -- The map of the aggregate is filled again from the entries.
    obtain ⟨read, consistent, same, done⟩ := readEntries_tree distinct small
    exact ⟨some read, by simp [empty, done, Except.map], consistent, same⟩

/-- The entries that were written are read as the aggregate that they come from. -/
theorem readEntries_serialize (consistent : songs.Consistent) (small : songs.topFive.card ≤ 5) :
    readEntries (serialize songs).length (serialize songs) {} = .ok songs := by
  obtain ⟨read, also, same, done⟩ :=
    readEntries_tree (fun _ one _ two => consistent.unique one two) small
  -- The tree says all about a consistent aggregate.
  rw [done, also.ext consistent same]

/-- An aggregate that was written is read again, except that an empty one is none at all. -/
theorem deserialize_serialize (consistent : songs.Consistent) (small : songs.topFive.card ≤ 5) :
    deserialize (some (serialize songs)) =
      .ok (if songs.topFive = ∅ then none else some songs) := by
  -- The reader is only left early for an aggregate without entries.
  rw [deserialize, isEmpty_serialize, readEntries_serialize consistent small]
  by_cases empty : songs.topFive = ∅
  · simp [empty]
  · simp [empty, Except.map]

/-- A full chart is read again. -/
theorem deserialize_serialize_fiveSongs :
    deserialize (some (serialize TopFiveSongs.fiveSongs)) =
      .ok (if TopFiveSongs.fiveSongs.topFive = ∅ then none else some TopFiveSongs.fiveSongs) :=
  deserialize_serialize (TopFiveSongs.foldl_add _).1 (TopFiveSongs.foldl_add _).2

/-- Bytes are read unless an entry is cut, and then as an aggregate that is well formed. -/
theorem deserialize_cases (data : List UInt8) :
    data.length % 16 ≠ 0 ∧ deserialize (some data) = .error .endOfFile ∨
      data.length % 16 = 0 ∧ ∃ songs : TopFiveSongs, songs.Consistent ∧
        songs.topFive.card ≤ 5 ∧ (songs.topFive = ∅ ↔ data = []) ∧
        deserialize (some data) = .ok (if songs.topFive = ∅ then none else some songs) := by
  by_cases empty : data = []
  · subst empty
    exact .inr ⟨rfl, {}, TopFiveSongs.consistent_empty, by simp, by simp, by simp [deserialize]⟩
  have full : data.isEmpty = false := by simpa using empty
  rw [deserialize, full]
  rcases readEntries_cases {} (le_refl data.length) with whole | half
  · -- The entries are added in the order in which they come.
    obtain ⟨entries, written⟩ := whole
    have size := length_flatMap_writeEntry entries
    rw [← written] at size
    have some : entries ≠ [] := fun none => empty (by rw [written, none]; rfl)
    have charted := Finset.nonempty_iff_ne_empty.mp (TopFiveSongs.nonempty_foldl_add some)
    obtain ⟨consistent, small⟩ := TopFiveSongs.foldl_add entries
    refine .inr ⟨by omega, _, consistent, small, by simp [charted, empty], ?_⟩
    have enough : entries.length ≤ data.length := by omega
    have read := readEntries_flatMap entries {} enough
    rw [← written] at read
    simp [read, charted, Except.map]
  · exact .inl ⟨half.1, by simp [half.2, Except.map]⟩

end TopFiveSerde

end AivenExamples.KafkaMusic
