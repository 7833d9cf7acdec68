import AivenExamples.ClickhouseCdc.Regional
import Mathlib.Data.List.Infix

/-! A regional table tracks its region exactly as long as no row leaves that region. -/

namespace AivenExamples.ClickhouseCdc

variable {π : Type}

/-- The image the view reads for a change. -/
def Change.image : Change π → SourceRow π
  | .insert _ new => new
  | .update _ new => new
  | .delete old => old

/-- Whether a change removes its row. -/
def Change.removes : Change π → Bool
  | .insert _ _ => false
  | .update _ _ => false
  | .delete _ => true

/-- The row the view writes for a commit that passes its filter. -/
def Commit.row (commit : Commit π) : RegionalRow π where
  id := commit.change.image.id
  ts := commit.tsMs
  region := commit.change.image.region
  value := commit.change.image.value
  version := commit.lsn
  deleted := commit.change.removes

/-- A view writes one row for a change whose image lies in its region, and nothing otherwise. -/
theorem regionalMv_debezium (regionId : Int) (absent : SourceRow π) (commit : Commit π) :
    regionalMv regionId (debezium absent commit) =
      if commit.change.image.region = regionId then some commit.row else none := by
  -- Every operation of a row change passes the second half of the filter.
  rcases commit with ⟨change, lsn, tsMs⟩
  cases change with
  -- A snapshot read and a create pass alike.
  | insert snapshot new =>
    by_cases inside : new.region = regionId <;> cases snapshot <;>
      simp [regionalMv, debezium, Commit.row, Change.image, Change.removes, inside]
  | update old new =>
    by_cases inside : new.region = regionId <;>
      simp [regionalMv, debezium, Commit.row, Change.image, Change.removes, inside]
  -- A deletion is filtered by its old image.
  | delete old =>
    by_cases inside : old.region = regionId <;>
      simp [regionalMv, debezium, Commit.row, Change.image, Change.removes, inside]

/-- A legal change reads the image of the very row it changes. -/
theorem Change.Legal.image_id {source : SourceTable π} {change : Change π}
    (legal : change.Legal source) : change.image.id = change.id := by
  -- Only an update could change the key, and a legal one does not.
  cases change with
  | insert snapshot new => rfl
  | update old new => exact legal.2
  | delete old => rfl

/-- The source table after one more commit. -/
theorem sourceAfter_append (history : List (Commit π)) (commit : Commit π) :
    sourceAfter (history ++ [commit]) = commit.change.apply (sourceAfter history) := by
  simp [sourceAfter]

/-- A history is legal up to its last commit, which the table reached so far admits. -/
theorem legalFrom_append (source : SourceTable π) (history : List (Commit π)) (commit : Commit π) :
    LegalFrom source (history ++ [commit]) ↔ LegalFrom source history ∧
      commit.change.Legal
        (history.foldl (fun source commit => commit.change.apply source) source) := by
  -- The starting table moves along with the commits already consumed.
  induction history generalizing source with
  | nil => simp [LegalFrom]
  | cons first rest ih => simp [LegalFrom, ih, and_assoc]

/-- Every commit of a legal history reads the image of the row it changes. -/
theorem legalFrom_image_id {source : SourceTable π} {history : List (Commit π)}
    (legal : LegalFrom source history) :
    ∀ commit ∈ history, commit.change.image.id = commit.change.id := by
  -- Every commit is legal for the table that the commits before it have left.
  induction history generalizing source with
  | nil => simp
  | cons first rest ih =>
    intro commit member
    rcases List.mem_cons.mp member with same | later
    · exact same ▸ legal.1.image_id
    · exact ih legal.2 commit later

/-- Rows of a regional table carry the key and the log position of a commit. -/
theorem regionalTable_row {regionId : Int} {absent : SourceRow π} {history : List (Commit π)}
    {row : RegionalRow π} (member : row ∈ regionalTable regionId (history.map (debezium absent))) :
    ∃ commit ∈ history, row = commit.row := by
  -- Each stored row was produced by the view from one of the delivered events.
  simp only [regionalTable, List.mem_filterMap, List.mem_map] at member
  obtain ⟨_, ⟨commit, inHistory, rfl⟩, written⟩ := member
  rw [regionalMv_debezium] at written
  split at written
  · exact ⟨commit, inHistory, (Option.some.inj written).symm⟩
  · cases written

/-- The newest commit of a row outdates every row its regional table already holds for it. -/
theorem regionalTable_outdated {regionId : Int} {absent : SourceRow π}
    {history : List (Commit π)} {commit : Commit π} {source : SourceTable π}
    (legal : LegalFrom source (history ++ [commit]))
    (increasing : LsnIncreasing (history ++ [commit])) :
    ∀ old ∈ regionalTable regionId (history.map (debezium absent)),
      mergeTree.key old = mergeTree.key commit.row →
        mergeTree.version old ≤ mergeTree.version commit.row := by
  -- Both rows stem from commits of one source row, whose log positions grow strictly.
  intro old member sameKey
  obtain ⟨earlier, inHistory, rfl⟩ := regionalTable_row member
  have images := legalFrom_image_id legal
  -- Rows with one key stem from commits of one source row.
  have sameId : earlier.change.id = commit.change.id := by
    rw [← images earlier (by simp [inHistory]), ← images commit (by simp)]
    exact sameKey
  have ordered := (List.pairwise_append.mp increasing).2.2 earlier inHistory commit (by simp)
  exact Nat.le_of_lt (ordered sameId)

/-- A commit outside the region leaves every read of the regional table as it was. -/
theorem readFinal_outside {regionId : Int} {absent : SourceRow π} (history : List (Commit π))
    {commit : Commit π} (outside : commit.change.image.region ≠ regionId) (id : Int) :
    readFinal regionId ((history ++ [commit]).map (debezium absent)) id =
      readFinal regionId (history.map (debezium absent)) id := by
  -- The view filters the event away, so nothing is written.
  simp [readFinal, regionalTable, List.filterMap_append, regionalMv_debezium, outside]

/-- A commit inside the region decides what is read under its own key, and nothing else. -/
theorem readFinal_inside {regionId : Int} {absent : SourceRow π} {history : List (Commit π)}
    {commit : Commit π} {source : SourceTable π} (legal : LegalFrom source (history ++ [commit]))
    (increasing : LsnIncreasing (history ++ [commit]))
    (inside : commit.change.image.region = regionId) (id : Int) :
    readFinal regionId ((history ++ [commit]).map (debezium absent)) id =
      if commit.change.id = id then (if commit.change.removes then none else some commit.row)
      else readFinal regionId (history.map (debezium absent)) id := by
  -- The written row is the newest of its key and competes with no other key.
  have written : regionalTable regionId ((history ++ [commit]).map (debezium absent)) =
      regionalTable regionId (history.map (debezium absent)) ++ [commit.row] := by
    simp [regionalTable, List.filterMap_append, regionalMv_debezium, inside]
  have named : commit.change.image.id = commit.change.id :=
    legalFrom_image_id legal commit (by simp)
  rw [readFinal, written]
  by_cases same : commit.change.id = id
  -- Under its own key the new row outdates whatever the table holds.
  · have outdated : ∀ old ∈ regionalTable regionId (history.map (debezium absent)),
        mergeTree.key old = mergeTree.key commit.row →
          mergeTree.version old ≤ mergeTree.version commit.row :=
      regionalTable_outdated legal increasing
    have shown := mergeTree.final_append_dominating outdated
    have key : mergeTree.key commit.row = id := named.trans same
    rw [key] at shown
    rw [shown, if_pos same]
    rfl
  -- Reads of other keys do not see the new row.
  · have other : mergeTree.key commit.row ≠ id := fun key => same (named.symm.trans key)
    rw [mergeTree.final_append_other _ other, if_neg same, readFinal]

/-- A commit outside the region does not touch the rows of the region, unless one of them leaves. -/
theorem currentIn_outside {regionId : Int} {source : SourceTable π} {change : Change π}
    (legal : change.Legal source) (outside : change.image.region ≠ regionId)
    (stays : ¬ change.Leaves regionId) (id : Int) :
    currentIn regionId (change.apply source) id = currentIn regionId source id := by
  -- Under the changed key neither the old nor the new row belongs to the region.
  cases change with
  | insert snapshot new =>
    by_cases same : id = new.id
    · subst same
      simp only [Change.Legal] at legal
      simp only [Change.image] at outside
      simp [currentIn, Change.apply, legal, outside]
    · simp [currentIn, Change.apply, same]
  | update old new =>
    by_cases same : id = old.id
    · subst same
      simp only [Change.image] at outside
      -- The old row was outside as well, or it would leave now.
      have oldOutside : old.region ≠ regionId := fun was => stays ⟨was, outside⟩
      simp [currentIn, Change.apply, legal.1, Option.filter, outside, oldOutside]
    · simp [currentIn, Change.apply, same]
  | delete old =>
    by_cases same : id = old.id
    · subst same
      simp only [Change.Legal] at legal
      simp only [Change.image] at outside
      simp [currentIn, Change.apply, legal, Option.filter, outside]
    · simp [currentIn, Change.apply, same]

/-- A commit inside the region leaves its new row there, or removes it. -/
theorem currentIn_inside {regionId : Int} {source : SourceTable π} {change : Change π}
    (inside : change.image.region = regionId) (id : Int) :
    currentIn regionId (change.apply source) id =
      if change.id = id then (if change.removes then none else some change.image)
      else currentIn regionId source id := by
  -- Reading the updated key gives the written row, and every other key is unchanged.
  by_cases same : change.id = id
  · subst same
    cases change with
    | insert snapshot new =>
      simp only [Change.image] at inside
      simp [currentIn, Change.apply, Change.id, Change.image, Change.removes, inside]
    | update old new =>
      simp only [Change.image] at inside
      simp [currentIn, Change.apply, Change.id, Change.image, Change.removes, inside]
    | delete old => simp [currentIn, Change.apply, Change.id, Change.removes]
  · rw [if_neg same]
    cases change <;> simp_all [currentIn, Change.apply, Change.id, Function.update, eq_comm]

/-- One more commit keeps a tracking table tracking, unless it takes a row out of the region. -/
theorem tracks_append {regionId : Int} {absent : SourceRow π} {history : List (Commit π)}
    {commit : Commit π} (legal : LegalFrom (fun _ => none) (history ++ [commit]))
    (increasing : LsnIncreasing (history ++ [commit]))
    (stays : ¬ commit.change.Leaves regionId) (tracks : Tracks regionId absent history) :
    Tracks regionId absent (history ++ [commit]) := by
  -- The two sides make the same step, inside the region as well as outside of it.
  intro id
  have admitted : commit.change.Legal (sourceAfter history) :=
    ((legalFrom_append _ _ _).mp legal).2
  rw [sourceAfter_append]
  -- The view writes a row exactly for a commit inside the region.
  by_cases inside : commit.change.image.region = regionId
  · rw [readFinal_inside legal increasing inside, currentIn_inside inside]
    by_cases same : commit.change.id = id
    · simp only [if_pos same]
      cases removed : commit.change.removes <;> simp [Commit.row, RegionalRow.columns]
    · simpa only [if_neg same] using tracks id
  · rw [readFinal_outside history inside, currentIn_outside admitted inside stays]
    exact tracks id

/-- A row that leaves its region stays visible there. -/
theorem not_tracks_of_leaves {regionId : Int} {absent : SourceRow π} {history : List (Commit π)}
    {commit : Commit π} (legal : commit.change.Legal (sourceAfter history))
    (leaves : commit.change.Leaves regionId) (tracks : Tracks regionId absent history) :
    ¬ Tracks regionId absent (history ++ [commit]) := by
  -- The filter drops the event that would have retracted the row, while the source row moved on.
  intro tracksAfter
  rcases commit with ⟨change, lsn, tsMs⟩
  cases change with
  | insert snapshot new => exact leaves
  | delete old => exact leaves
  -- The row is read as before the update, although it is in the region no more.
  | update old new =>
    have outside : (Change.update old new).image.region ≠ regionId := leaves.2
    have before := tracks old.id
    have after := tracksAfter old.id
    rw [readFinal_outside history outside, before, sourceAfter_append] at after
    simp [currentIn, Change.apply, legal.1, Option.filter, leaves.1, leaves.2] at after

/-- A row of region 10 that an update moves to region 11. -/
def movedRow : SourceHistory Int where
  commits :=
    [⟨.insert false ⟨1, 10, 1493⟩, 100, 0⟩, ⟨.update ⟨1, 10, 1493⟩ ⟨1, 11, 1493⟩, 101, 1⟩]
  legal := by simp [LegalFrom, Change.Legal, Change.apply]
  lsnIncreasing := by simp [LsnIncreasing]

end AivenExamples.ClickhouseCdc
