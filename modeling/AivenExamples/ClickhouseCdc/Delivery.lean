import AivenExamples.ClickhouseCdc.Isolation

/-! Regional tables fed by deliveries that repeat events and rearrange them at will. -/

namespace AivenExamples.ClickhouseCdc

variable {π : Type}

/-- Two reports of one commit, which may differ in the wall clock of the connector. -/
def Commit.Reports (report commit : Commit π) : Prop :=
  report.change = commit.change ∧ report.lsn = commit.lsn

/-- A delivery reports every commit at least once, and nothing else, in any order. -/
structure AtLeastOnce (history delivered : List (Commit π)) : Prop where
  genuine : ∀ report ∈ delivered, ∃ commit ∈ history, report.Reports commit
  complete : ∀ commit ∈ history, ∃ report ∈ delivered, report.Reports commit

/-- No update moves its row to another region. -/
def Change.StaysPut : Change π → Prop
  | .insert _ _ => True
  | .update old new => new.region = old.region
  | .delete _ => True

/-- A change that moves no row takes none out of any region. -/
theorem Change.StaysPut.not_leaves {change : Change π} (stays : change.StaysPut) (regionId : Int) :
    ¬ change.Leaves regionId := by
  -- Only an update could take a row out, and it would end up where it was.
  cases change with
  | insert snapshot new => exact not_false
  | update old new => exact fun leaves => leaves.2 (stays.trans leaves.1)
  | delete old => exact not_false

/-- Without moved rows the reads follow the source along the whole history. -/
theorem tracks_of_stays {regionId : Int} {absent : SourceRow π} {commits : List (Commit π)}
    (legal : LegalFrom (fun _ => none) commits) (increasing : LsnIncreasing commits)
    (stays : ∀ commit ∈ commits, ¬ commit.change.Leaves regionId) :
    Tracks regionId absent commits := by
  -- The history grows by its last commit, which keeps a tracking table tracking.
  induction commits using List.reverseRecOn with
  | nil =>
    intro id
    rfl
  | append_singleton commits commit ih =>
    have legalBefore := ((legalFrom_append _ _ _).mp legal).1
    have before := ih legalBefore (List.pairwise_append.mp increasing).1
      fun earlier member => stays earlier (by simp [member])
    exact tracks_append legal increasing (stays commit (by simp)) before

/-- The log position tells the commits of a row apart. -/
theorem commit_of_lsn {commits : List (Commit π)} (increasing : LsnIncreasing commits)
    {first second : Commit π} (firstIn : first ∈ commits) (secondIn : second ∈ commits)
    (sameRow : first.change.id = second.change.id) (sameLsn : first.lsn = second.lsn) :
    first = second := by
  -- Of two commits of a row one comes later, and its position is greater.
  have apart : commits.Pairwise fun first second =>
      first.change.id = second.change.id → first.lsn = second.lsn → first = second :=
    increasing.imp fun ordered sameRow sameLsn => absurd sameLsn (Nat.ne_of_lt (ordered sameRow))
  have mirrored : commits.Pairwise fun first second =>
      second.change.id = first.change.id → second.lsn = first.lsn → second = first :=
    apart.imp fun same sameRow sameLsn => (same sameRow.symm sameLsn.symm).symm
  exact apart.forall_of_forall_of_flip (fun _ _ _ _ => rfl) mirrored firstIn secondIn sameRow
    sameLsn

/-- A commit in the region has its row in the regional table. -/
theorem row_mem_regionalTable {regionId : Int} {absent : SourceRow π} {delivered : List (Commit π)}
    {commit : Commit π} (member : commit ∈ delivered)
    (inside : commit.change.image.region = regionId) :
    commit.row ∈ regionalTable regionId (delivered.map (debezium absent)) := by
  -- The view lets the event of the commit pass.
  refine List.mem_filterMap.mpr ⟨debezium absent commit, List.mem_map_of_mem member, ?_⟩
  rw [regionalMv_debezium, if_pos inside]

/-- Every row of a regional table is the row of a delivered commit in the region. -/
theorem mem_regionalTable {regionId : Int} {absent : SourceRow π} {delivered : List (Commit π)}
    {row : RegionalRow π}
    (member : row ∈ regionalTable regionId (delivered.map (debezium absent))) :
    ∃ commit ∈ delivered, commit.change.image.region = regionId ∧ row = commit.row := by
  -- The view keeps the rows of its region and drops all others.
  obtain ⟨event, inEvents, written⟩ := List.mem_filterMap.mp member
  obtain ⟨commit, inDelivered, rfl⟩ := List.mem_map.mp inEvents
  rw [regionalMv_debezium] at written
  split at written
  · exact ⟨commit, inDelivered, ‹_›, (Option.some.inj written).symm⟩
  · cases written

/-- Reports of one commit write rows that differ in their wall clock only. -/
theorem Commit.Reports.row {report commit : Commit π} (reports : report.Reports commit) :
    report.row.id = commit.row.id ∧ report.row.version = commit.row.version ∧
      report.row.deleted = commit.row.deleted ∧ report.row.columns = commit.row.columns := by
  simp [Commit.row, RegionalRow.columns, reports.1, reports.2]

/-- A table that has been fed every report holds the same versions as one fed in commit order. -/
theorem covered_of_reports {regionId : Int} {absent : SourceRow π} {first second : List (Commit π)}
    (reported : ∀ commit ∈ first, ∃ other ∈ second, other.Reports commit) (id : Int) :
    mergeTree.Covered (regionalTable regionId (first.map (debezium absent)))
      (regionalTable regionId (second.map (debezium absent))) id := by
  intro row member named
  obtain ⟨commit, inFirst, inside, rfl⟩ := mem_regionalTable member
  obtain ⟨other, inSecond, reports⟩ := reported commit inFirst
  -- The other report lies in the same region, so the view has written its row as well.
  refine ⟨other.row, row_mem_regionalTable inSecond (reports.1 ▸ inside), ?_, reports.row.2.1⟩
  exact reports.row.1.trans named

/-- A row of region 10 that is deleted and inserted again. -/
def rebornRow : SourceHistory Int where
  commits := [⟨.insert false ⟨1, 10, 5⟩, 100, 0⟩, ⟨.delete ⟨1, 10, 5⟩, 101, 1⟩,
    ⟨.insert false ⟨1, 10, 7⟩, 102, 2⟩]
  legal := by simp [LegalFrom, Change.Legal, Change.apply]
  lsnIncreasing := by simp [LsnIncreasing]

end AivenExamples.ClickhouseCdc
