import AivenExamples.PgSync.Replication

/-! The sink table mirrors the source table, change by change. -/

namespace AivenExamples.PgSync

/-- Pairing a list with its own images keeps every element beside its image. -/
theorem zip_map_self {α β : Type} (items : List α) (image : α → β) :
    items.zip (items.map image) = items.map fun item => (item, image item) := by
  induction items with
  | nil => rfl
  | cons item items ih => simp [ih]

/-- A WHERE clause is satisfied when every column has a value, and the one asked for. -/
theorem satisfies_map {columns : List String} {wanted row : Row}
    (present : ∀ column ∈ columns, row column ≠ .null) :
    satisfies columns (columns.map wanted) row =
      decide (columns.map row = columns.map wanted) := by
  rw [satisfies, zip_map_self, List.all_map, Bool.eq_iff_iff, List.all_eq_true,
    decide_eq_true_iff, List.map_inj_left]
  -- The comparison of one column is true exactly when its value is the wanted one.
  refine forall₂_congr fun column member => ?_
  have value := present column member
  constructor
  · intro equal
    simp only [Function.comp_apply, sqlEq, Bool.and_eq_true, decide_eq_true_eq] at equal
    exact equal.2
  · intro equal
    simp [sqlEq, ← equal, value]

/-- Looking up a column beside the images of the cells finds the image of its cell. -/
theorem get?_zip_map (image : Image) (cell : String → Value → Value) (column : String) :
    Dict.get? ((Dict.keys image).zip (image.map fun item => cell item.1 item.2)) column =
      (Dict.get? image column).map (cell column) := by
  -- The image and the list of casts have their cells in the same order.
  induction image with
  | nil => rfl
  | cons item image ih =>
    simp only [Dict.keys_cons, List.map_cons, List.zip_cons_cons, Dict.get?_cons, ih]
    by_cases here : item.1 = column
    · simp [here]
    · simp [here]

namespace WholeImage

variable {config : Config} {t : ConfiguredTable config}

/-- Columns that the table does not have are NULL. -/
theorem sinkRow_outside (row : WholeImage t) {column : String} (outside : column ∉ t.columns) :
    row.sinkRow column = .null := by
  -- The image has the columns of the table and no others.
  have absent : Dict.get? row.image column = none := by
    rw [Dict.get?_eq_none, row.full]
    exact outside
  simp [sinkRow, absent]

/-- Assigning all cells of a row gives the row, and leaves other columns alone. -/
theorem assign_castedValues (row : WholeImage t) (old : Row) (column : String) :
    assign (Dict.keys row.image) row.castedValues old column =
      if column ∈ t.columns then row.sinkRow column else old column := by
  -- A column of the table is one of the image.
  rw [assign, castedValues, get?_zip_map]
  split_ifs with member
  · obtain ⟨value, found⟩ := row.found member
    simp [found, row.sinkRow_of_found found]
  · rw [← row.full, ← Dict.get?_eq_none] at member
    simp [member]

end WholeImage

namespace FullImage

variable {config : Config} {r : Replication config}

/-- Columns that the table does not have are NULL. -/
theorem sinkRow_outside (row : FullImage r) {column : String} (outside : column ∉ r.columns) :
    row.sinkRow column = .null := row.whole.sinkRow_outside outside

/-- The columns of the identifier are not NULL in the sink. -/
theorem sinkRow_ne_null (row : FullImage r) {column : String} (member : column ∈ r.identifier) :
    row.sinkRow column ≠ .null := by
  obtain ⟨value, found⟩ := row.identifier_found member
  -- The key has values, and no cast loses them.
  have present : value ≠ .null := by
    intro null
    subst null
    exact row.keyed column member found
  have succeeds := row.castColumn_eq_ok found
  rw [row.sinkRow_of_found found]
  intro null
  exact castColumn_ne_null present (null ▸ succeeds)

/-- Rows with one key have one key in the sink. -/
theorem sinkKey_congr {first second : FullImage r} (same : first.rowKey = second.rowKey) :
    first.sinkKey = second.sinkKey := by
  unfold rowKey at same
  rw [List.map_inj_left] at same
  -- Equal values of the key are cast alike, column by column.
  refine List.map_congr_left fun column member => ?_
  obtain ⟨value, found⟩ := first.identifier_found member
  obtain ⟨other, foundOther⟩ := second.identifier_found member
  have equal := same column member
  simp only [found, foundOther, Option.getD_some] at equal
  rw [first.sinkRow_of_found found, second.sinkRow_of_found foundOther, equal]

/-- The WHERE clause of a change holds of the rows that have the key of its subject. -/
theorem satisfies_sinkKey (row other : FullImage r) :
    satisfies r.identifier other.sinkKey row.sinkRow = decide (row.sinkKey = other.sinkKey) :=
  satisfies_map fun _ member => row.sinkRow_ne_null member

/-- Assigning all cells of a row gives the row, whatever the cells were. -/
theorem assign_castedValues (row : FullImage r) {old : Row}
    (outside : ∀ column, column ∉ r.columns → old column = .null) :
    assign (Dict.keys row.image) row.castedValues old = row.sinkRow := by
  -- The columns outside of the table were NULL before.
  funext column
  have assigned := row.whole.assign_castedValues old column
  by_cases member : column ∈ r.columns
  · exact assigned.trans (if_pos member)
  · rw [row.sinkRow_outside member, ← outside column member]
    exact assigned.trans (if_neg member)

@[simp] theorem length_sinkKey (row : FullImage r) : row.sinkKey.length = r.identifier.length :=
  List.length_map _

end FullImage

variable {config : Config} {r : Replication config}

/-- Rows whose keys stay apart when they are cast. -/
def KeysApart (rows : List (FullImage r)) : Prop :=
  ∀ first ∈ rows, ∀ second ∈ rows, first.sinkKey = second.sinkKey → first.rowKey = second.rowKey

/-- Keys stay apart among fewer rows. -/
theorem KeysApart.mono {first second : List (FullImage r)} (apart : KeysApart second)
    (known : ∀ row ∈ first, row ∈ second) : KeysApart first := fun row member other otherMember =>
  apart row (known row member) other (known other otherMember)

/-- Keys that stay apart for the images of a change stay apart for its subject. -/
theorem KeysApart.subject {change : SourceChange r} {source : List (FullImage r)}
    (apart : KeysApart (change.images ++ source)) : KeysApart (change.subject :: source) := by
  -- The subject of a change is one of its images.
  refine apart.mono fun row member => ?_
  rcases List.mem_cons.mp member with rfl | there
  · exact List.mem_append_left _ change.subject_mem_images
  · exact List.mem_append_right _ there

/-- A sink whose table has the source rows, each mapped through its casts. -/
def Mirrors (unique : List (List String)) (sink : Database) (source : List (FullImage r)) : Prop :=
  ∃ table, sink r.target = some table ∧ (∀ column ∈ r.columns, column ∈ table.columns) ∧
    table.unique = unique ∧ table.rows.Perm (source.map FullImage.sinkRow)

/-- A mirror stays one when its table is the same. -/
theorem Mirrors.congr {unique : List (List String)} {sink other : Database}
    {source : List (FullImage r)} (mirrors : Mirrors unique sink source)
    (same : other r.target = sink r.target) : Mirrors unique other source := by
  unfold Mirrors at mirrors ⊢
  rwa [same]

/-- The table of a mirror has the constraints of the mirror. -/
theorem Mirrors.unique_eq {unique : List (List String)} {sink : Database}
    {source : List (FullImage r)} (mirrors : Mirrors unique sink source) {table : Table}
    (found : sink r.target = some table) : table.unique = unique := by
  obtain ⟨mirror, there, _, uniques, _⟩ := mirrors
  rw [there, Option.some.injEq] at found
  exact found ▸ uniques

/-- A mirror does not tell the order of the rows. -/
theorem Mirrors.perm {unique : List (List String)} {sink : Database}
    {source other : List (FullImage r)} (mirrors : Mirrors unique sink source)
    (same : source.Perm other) : Mirrors unique sink other := by
  obtain ⟨table, there, covered, uniques, rows⟩ := mirrors
  exact ⟨table, there, covered, uniques, rows.trans (same.map _)⟩

/-- The statement of a change is about the replicated table. -/
@[simp] theorem target_statementOf (change : SourceChange r) :
    (statementOf r change).target = r.target := by
  cases change <;> rfl

/-- An insert adds the row, with NULL where the table has more columns. -/
theorem rowsAfter_insert (after : FullImage r) (rows : List Row) :
    (statementOf r (.insert after)).rowsAfter (paramsOf (.insert after)) rows =
      rows ++ [after.sinkRow] := by
  have inserted := after.assign_castedValues fun (column : String) _ => rfl
  simp [statementOf, paramsOf, Statement.rowsAfter, inserted]

/-- The statement of a change does to the mapped rows what the change does to the rows. -/
theorem rowsAfter_statementOf {source : List (FullImage r)} {change : SourceChange r}
    (apart : KeysApart (change.subject :: source)) :
    (statementOf r change).rowsAfter (paramsOf change) (source.map FullImage.sinkRow) =
      (change.apply FullImage.rowKey source).map FullImage.sinkRow := by
  -- The WHERE clause selects the rows with the key of the subject, since the casts keep keys apart.
  have selects : ∀ row ∈ source, satisfies r.identifier change.subject.sinkKey row.sinkRow =
      decide (row.rowKey = change.subject.rowKey) := by
    intro row member
    rw [row.satisfies_sinkKey, decide_eq_decide]
    exact ⟨apart row (by simp [member]) _ (by simp), FullImage.sinkKey_congr⟩
  cases change with
  | insert after => simp [rowsAfter_insert, RowChange.apply]
  -- The parameters split where the assigned columns end.
  | update before after =>
    have length := after.length_castedValues
    rw [← Dict.length_keys after.image] at length
    simp only [statementOf, paramsOf, Statement.rowsAfter, RowChange.apply, List.map_map,
      List.take_left' length, List.drop_left' length]
    refine List.map_congr_left fun row member => ?_
    have updated := after.assign_castedValues fun column outside => row.sinkRow_outside outside
    have selected := selects row member
    simp only [RowChange.subject] at selected
    by_cases same : row.rowKey = before.rowKey
    · simp [selected, same, updated]
    · simp [selected, same]
  -- The rows that the WHERE clause selects are the ones to drop.
  | delete before =>
    simp only [statementOf, paramsOf, Statement.rowsAfter, RowChange.apply, List.filter_map]
    congr 1
    exact List.filter_congr fun row member => congrArg not (selects row member)

/-- A table with the columns of the source accepts the statements of its changes. -/
theorem accepts_statementOf {table : Table}
    (covered : ∀ column ∈ r.columns, column ∈ table.columns) (change : SourceChange r) :
    table.accepts (statementOf r change) (paramsOf change) = true := by
  rw [← statementOf_whole]
  exact r.configuredTable.accepts_statementOf covered
    (r.configuredTable.castParams_length (castParams_whole change))

/-- An attempt that takes effect keeps the sink a mirror of the source. -/
theorem mirrors_effect {unique : List (List String)} {sink after : Database}
    {source : List (FullImage r)} {change : SourceChange r} (mirrors : Mirrors unique sink source)
    (apart : KeysApart (change.subject :: source))
    (applied : effect config sink (SourceMessage.event change).value = .ok after) :
    Mirrors unique after (change.apply FullImage.rowKey source) := by
  -- The attempt executes the statement of the change on the one table.
  rw [effect_event, execute_eq_ok] at applied
  obtain ⟨table, changed, found, _, taken, rfl⟩ := applied
  obtain ⟨mirror, there, covered, uniques, rows⟩ := mirrors
  rw [target_statementOf, there, Option.some.injEq] at found
  subst found
  obtain ⟨sameColumns, sameUnique, newRows⟩ := Table.withRows_eq_ok.mp taken
  refine ⟨changed, by simp, sameColumns ▸ covered, sameUnique.trans uniques, ?_⟩
  -- The rows of the sink and of the source are changed alike.
  rw [newRows, ← rowsAfter_statementOf apart]
  exact Statement.rowsAfter_perm rows _ _

/-- Rows with different keys conflict in no constraint that has the columns of the key. -/
theorem not_conflicting {columns : List String} (keyed : ∀ column ∈ r.identifier, column ∈ columns)
    {first second : FullImage r} (apart : first.sinkKey ≠ second.sinkKey) :
    ¬ Conflicting columns first.sinkRow second.sinkRow := by
  -- A conflict would make all columns of the key equal.
  intro conflict
  exact apart (List.map_congr_left fun column member => (conflict column (keyed column member)).2)

/-- Conflicts go both ways. -/
theorem Conflicting.symm {columns : List String} {first second : Row}
    (conflict : Conflicting columns first second) : Conflicting columns second first := by
  intro column member
  obtain ⟨present, same⟩ := conflict column member
  exact ⟨same ▸ present, same.symm⟩

/-- Source rows with distinct keys have no conflicts in the sink. -/
theorem pairwise_not_conflicting {columns : List String}
    (keyed : ∀ column ∈ r.identifier, column ∈ columns) {source : List (FullImage r)}
    (apart : KeysApart source) (distinct : (source.map FullImage.rowKey).Nodup) :
    (source.map FullImage.sinkRow).Pairwise
      fun first second => ¬ Conflicting columns first second := by
  rw [List.Nodup, List.pairwise_map] at distinct
  rw [List.pairwise_map]
  -- The casts keep the distinct keys apart.
  refine distinct.imp_of_mem fun {first second} inFirst inSecond different => ?_
  exact not_conflicting keyed fun same => different (apart first inFirst second inSecond same)

/-- A legal change takes effect when every constraint has the columns of the key. -/
theorem effect_succeeds {unique : List (List String)} {sink : Database}
    {source : List (FullImage r)} {change : SourceChange r} (mirrors : Mirrors unique sink source)
    (keyed : ∀ columns ∈ unique, ∀ column ∈ r.identifier, column ∈ columns)
    (distinct : (source.map FullImage.rowKey).Nodup) (legal : change.Legal FullImage.rowKey source)
    (apart : KeysApart (change.images ++ source)) :
    ∃ after, effect config sink (SourceMessage.event change).value = .ok after := by
  obtain ⟨table, there, covered, uniques, rows⟩ := mirrors
  -- The changed source has distinct keys, which stay distinct in the sink.
  have changedKeys : ((change.apply FullImage.rowKey source).map FullImage.rowKey).Nodup :=
    RowChange.distinct_apply distinct legal
  have changedApart : KeysApart (change.apply FullImage.rowKey source) :=
    apart.mono fun _ member => List.mem_append.mpr (RowChange.mem_apply member).symm
  have rearranged := Statement.rowsAfter_perm rows (statementOf r change) (paramsOf change)
  rw [rowsAfter_statementOf apart.subject] at rearranged
  have tableRows : ∀ columns ∈ table.unique,
      ((statementOf r change).rowsAfter (paramsOf change) table.rows).Pairwise
        fun first second => ¬ Conflicting columns first second := by
    intro columns constrained
    -- The rows of the sink are a rearrangement, and conflicts do not depend on the order.
    refine (rearranged.pairwise_iff fun apartRows conflict => apartRows conflict.symm).mpr ?_
    exact pairwise_not_conflicting (keyed columns (uniques ▸ constrained)) changedApart changedKeys
  rw [effect_event]
  refine ⟨_, execute_eq_ok.mpr ⟨table, ⟨table.columns, table.unique, _, tableRows⟩, ?_,
    accepts_statementOf covered change, ?_, rfl⟩⟩
  · rwa [target_statementOf]
  · exact Table.withRows_eq_ok.mpr ⟨rfl, rfl, rfl⟩

/-- The ids of users stay apart, since they are not cast. -/
theorem users_keysApart (rows : List (FullImage users)) : KeysApart rows := by
  -- No field list names a column, so that every value is its own cast.
  have uncast : ∀ row : FullImage users, row.sinkKey = row.rowKey := by
    intro row
    refine List.map_congr_left fun column member => ?_
    obtain ⟨value, found⟩ := row.identifier_found member
    rw [row.sinkRow_of_found found, found]
    simp [castCell, castColumn, users]
  intro first _ second _ same
  rwa [uncast, uncast] at same

/-- The empty sink mirrors the empty source. -/
theorem usersSink_empty (unique : List (List String)) :
    Mirrors unique (usersSink unique) ([] : List (FullImage users)) :=
  ⟨⟨["id", "email"], unique, [], by simp⟩, by simp [usersSink, users, Replication.target],
    by simp [users], rfl, List.Perm.nil⟩

end AivenExamples.PgSync
