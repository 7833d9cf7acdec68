import AivenExamples.PgSync.Replay
import AivenExamples.PgSync.Stalling

/-! Updates and deletes of tables without a row identifier, which compare all columns. -/

namespace AivenExamples.PgSync

/-- The rows that the WHERE clause of a statement holds of. -/
def Statement.hits (statement : Statement) (params : List Value) (rows : List Row) : List Row :=
  match statement with
  | .update _ _ assigned conditions =>
    rows.filter fun row => satisfies conditions (params.drop assigned.length) row
  | .insert _ _ _ _ => []
  | .delete _ _ conditions => rows.filter fun row => satisfies conditions params row

/-- A statement with a WHERE clause. -/
def Statement.Selects : Statement → Prop
  | .update _ _ _ _ => True
  | .insert _ _ _ _ => False
  | .delete _ _ _ => True

/-- A statement with a WHERE clause treats the rows one by one. -/
theorem Statement.Selects.rowsAfter_append {statement : Statement} (selects : statement.Selects)
    (params : List Value) (first second : List Row) :
    statement.rowsAfter params (first ++ second) =
      statement.rowsAfter params first ++ statement.rowsAfter params second := by
  -- An update maps the rows and a delete filters them; an insert has no clause.
  cases statement with
  | update => exact List.map_append
  | insert => exact selects.elim
  | delete => exact List.filter_append _ _

/-- Rows that the WHERE clause does not hold of stay as they are. -/
theorem Statement.Selects.rowsAfter_of_no_hits {statement : Statement}
    (selects : statement.Selects) {params : List Value} {rows : List Row}
    (missed : statement.hits params rows = []) : statement.rowsAfter params rows = rows := by
  cases statement with
  | update schema table assigned conditions =>
    simp only [hits, List.filter_eq_nil_iff] at missed
    -- No row is assigned to.
    refine (List.map_congr_left fun row member => ?_).trans (List.map_id rows)
    rw [if_neg (missed row member), id]
  | insert => exact selects.elim
  | delete schema table conditions =>
    simp only [hits, List.filter_eq_nil_iff] at missed
    -- No row is dropped.
    refine List.filter_eq_self.mpr fun row member => ?_
    simp [missed row member]

namespace WholeImage

variable {config : Config} {t : ConfiguredTable config}

/-- A row of the sink that has the cast of the image in every column of the table. -/
def Matches (row : WholeImage t) (stored : Row) : Prop :=
  ∀ column ∈ t.columns, stored column = row.sinkRow column

instance (row : WholeImage t) (stored : Row) : Decidable (row.Matches stored) :=
  inferInstanceAs (Decidable (∀ column ∈ t.columns, _))

/-- No column of the image is NULL. -/
def WithoutNull (row : WholeImage t) : Prop :=
  ∀ column ∈ t.columns, Dict.get? row.image column ≠ some .null

instance (row : WholeImage t) : Decidable row.WithoutNull :=
  inferInstanceAs (Decidable (∀ column ∈ t.columns, _))

/-- No cast of a value of the image raises. -/
def Castable (row : WholeImage t) : Prop :=
  ∀ item ∈ row.image, ∃ cast, castColumn t.settings item.1 item.2 = .ok cast

/-- A castable value has the cast of its cell. -/
theorem Castable.castColumn_eq {row : WholeImage t} (castable : row.Castable)
    {item : String × Value} (member : item ∈ row.image) :
    castColumn t.settings item.1 item.2 = .ok (castCell t.settings item.1 item.2) := by
  obtain ⟨cast, succeeds⟩ := castable item member
  simp [castCell, succeeds]

/-- The cast of a whole image. -/
theorem Castable.castAll_eq {row : WholeImage t} (castable : row.Castable) :
    t.castAll row.image = .ok row.castedValues :=
  mapM_eq_ok fun _ member => castable.castColumn_eq member

/-- A cell is NULL in the sink exactly when it is NULL in the image. -/
theorem Castable.sinkRow_ne_null {row : WholeImage t} (castable : row.Castable) {column : String}
    {value : Value} (found : Dict.get? row.image column = some value) :
    row.sinkRow column ≠ .null ↔ value ≠ .null := by
  -- The cast of the cell succeeds, and no cast makes NULL out of a value.
  have succeeds := castable.castColumn_eq (Dict.mem_of_get? found)
  rw [row.sinkRow_of_found found]
  constructor
  · intro cell missing
    subst missing
    exact cell (castColumn_null succeeds)
  · intro present cell
    exact castColumn_ne_null present (succeeds.trans (congrArg _ cell))

/-- The comparison of all columns holds of the rows that match an image without NULL. -/
theorem Castable.satisfies_iff {row : WholeImage t} (castable : row.Castable) (stored : Row) :
    satisfies (Dict.keys row.image) row.castedValues stored = true ↔
      row.WithoutNull ∧ row.Matches stored := by
  -- Column by column a comparison with NULL is not true.
  have compared : satisfies (Dict.keys row.image) row.castedValues stored = true ↔
      ∀ item ∈ row.image,
        sqlEq (stored item.1) (castCell t.settings item.1 item.2) = true := by
    rw [satisfies, castedValues, Dict.keys, List.zip_map', List.all_map, List.all_eq_true]
    rfl
  have cells : (∀ item ∈ row.image,
      sqlEq (stored item.1) (castCell t.settings item.1 item.2) = true) ↔
        ∀ column ∈ t.columns, Dict.get? row.image column ≠ some .null ∧
          stored column = row.sinkRow column := by
    constructor
    · intro every column member
      obtain ⟨value, found⟩ := row.found member
      have equal := every (column, value) (Dict.mem_of_get? found)
      simp only [sqlEq, Bool.and_eq_true, decide_eq_true_eq] at equal
      rw [← row.sinkRow_of_found found] at equal
      have present := (castable.sinkRow_ne_null found).mp equal.1.2
      exact ⟨by simpa [found] using present, equal.2⟩
    · intro every item member
      have found := Dict.get?_of_mem row.distinct member
      have inTable := (row.full item.1).mp (Dict.mem_keys.mpr ⟨_, found⟩)
      obtain ⟨notNull, same⟩ := every item.1 inTable
      have present : row.sinkRow item.1 ≠ .null :=
        (castable.sinkRow_ne_null found).mpr (by simpa [found] using notNull)
      rw [← row.sinkRow_of_found found, same]
      simp [sqlEq, present]
  rw [compared, cells]
  exact ⟨fun every => ⟨fun column member => (every column member).1,
    fun column member => (every column member).2⟩,
    fun both column member => ⟨both.1 column member, both.2 column member⟩⟩

/-- Assigning all columns of an image makes a row match it. -/
theorem matches_assign (row : WholeImage t) (old : Row) :
    row.Matches (assign (Dict.keys row.image) row.castedValues old) :=
  fun column member => (row.assign_castedValues old column).trans (if_pos member)

end WholeImage

namespace ConfiguredTable

variable {config : Config} (t : ConfiguredTable config)

/-- A table of the sink with the columns of the table, whose constraints are about its columns. -/
structure HasSink (database : Database) (sink : Table) : Prop where
  there : database t.target = some sink
  columns : ∀ column, column ∈ sink.columns ↔ column ∈ t.columns
  constrained : ∀ constraint ∈ sink.unique, ∀ column ∈ constraint, column ∈ sink.columns

/-- What a change is to leave in the place of the row that it is about. -/
def Outcome : TableChange t → List Row → Prop
  | .insert _, _ => False
  | .update _ after, left => ∃ row, left = [row] ∧ after.Matches row
  | .delete _, left => left = []

/--
The event of a change changes exactly one row, the one that equals the before image.

The statement hits no other row, and all other rows stay as and where they were.
-/
def HitsItsRow (database : Database) (sink : Table) (change : TableChange t) : Prop :=
  ∃ params front row back left changed, t.castParams change = .ok params ∧
    (t.statementOf change).hits params sink.rows = [row] ∧ change.subject.Matches row ∧
    sink.rows = front ++ row :: back ∧
    effect config database (some (t.event change)) =
      .ok (Function.update database t.target (some changed)) ∧
    changed.rows = front ++ left ++ back ∧ t.Outcome change left

/-- The new row repeats no unique value of a row that the change is not about. -/
def NoClash (sink : Table) : TableChange t → Prop
  | .update before after => ∀ constraint ∈ sink.unique, ∀ row ∈ sink.rows,
    ¬ before.Matches row → ¬ Conflicting constraint row after.sinkRow
  | _ => True

/-- Without a row identifier all items of the image identify the row. -/
theorem identifyingItems_unidentified (unidentified : t.identifier? = none)
    (before : WholeImage t) : t.identifyingItems before = before.image := by
  simp [identifyingItems, unidentified]

variable {t}

/-- The casts of all columns of the images, those of the new image first. -/
def imageParams : TableChange t → List Value
  | .insert after => after.castedValues
  | .update before after => after.castedValues ++ before.castedValues
  | .delete before => before.castedValues

/-- The parameters of a change of a table without a row identifier. -/
theorem castParams_unidentified (unidentified : t.identifier? = none) {change : TableChange t}
    (castable : ∀ row ∈ change.images, row.Castable) :
    t.castParams change = .ok (imageParams change) := by
  -- Each image is cast as a whole, in the order of the statement's parameters.
  cases change with
  | insert after =>
    have cast := (castable after (by simp [RowChange.images])).castAll_eq
    simp [castParams, castCalls, imageParams, cast, bind, Except.bind, pure, Except.pure]
  | update before after =>
    have castBefore := (castable before (by simp [RowChange.images])).castAll_eq
    have castAfter := (castable after (by simp [RowChange.images])).castAll_eq
    simp [castParams, castCalls, imageParams, t.identifyingItems_unidentified unidentified,
      castBefore, castAfter, bind, Except.bind, pure, Except.pure]
  | delete before =>
    have cast := (castable before (by simp [RowChange.images])).castAll_eq
    simp [castParams, castCalls, imageParams, t.identifyingItems_unidentified unidentified, cast,
      bind, Except.bind, pure, Except.pure]

/-- The WHERE clause holds of the rows that match the before image, if that has no NULL. -/
theorem hits_unidentified (unidentified : t.identifier? = none) {change : TableChange t}
    (castable : ∀ row ∈ change.images, row.Castable)
    (overwrites : ∀ after, change ≠ .insert after) {params : List Value}
    (casts : t.castParams change = .ok params) (rows : List Row) :
    (t.statementOf change).hits params rows = rows.filter fun row =>
      decide (change.subject.WithoutNull ∧ change.subject.Matches row) := by
  rw [castParams_unidentified unidentified castable, Except.ok.injEq] at casts
  subst casts
  cases change with
  | insert after => exact absurd rfl (overwrites after)
  | update before after =>
    -- The parameters of the comparison follow those of the assignment.
    have castableBefore := castable before (by simp [RowChange.images])
    have rest : (after.castedValues ++ before.castedValues).drop (Dict.keys after.image).length =
        before.castedValues := by
      rw [Dict.length_keys, ← after.length_castedValues, List.drop_left]
    simp only [statementOf, Statement.hits, imageParams, rest,
      t.identifyingItems_unidentified unidentified]
    refine List.filter_congr fun row _ => ?_
    rw [Bool.eq_iff_iff, castableBefore.satisfies_iff, decide_eq_true_iff]
    rfl
  | delete before =>
    have castableBefore := castable before (by simp [RowChange.images])
    simp only [statementOf, Statement.hits, imageParams,
      t.identifyingItems_unidentified unidentified]
    refine List.filter_congr fun row _ => ?_
    rw [Bool.eq_iff_iff, castableBefore.satisfies_iff, decide_eq_true_iff]
    rfl

/-- A single hit leaves the rows in front of it and behind it as they are. -/
theorem rowsAfter_of_single_hit {change : TableChange t} {params : List Value}
    {front back : List Row} {row : Row} (overwrites : ∀ after, change ≠ .insert after)
    (frontMissed : (t.statementOf change).hits params front = [])
    (backMissed : (t.statementOf change).hits params back = []) :
    (t.statementOf change).rowsAfter params (front ++ row :: back) =
      front ++ (t.statementOf change).rowsAfter params [row] ++ back := by
  have selects : (t.statementOf change).Selects := by
    cases change with
    | insert after => exact absurd rfl (overwrites after)
    | update before after => trivial
    | delete before => trivial
  -- The three parts are treated on their own, and the outer ones are missed.
  have parts : front ++ row :: back = front ++ [row] ++ back := by simp
  rw [parts, selects.rowsAfter_append, selects.rowsAfter_append,
    selects.rowsAfter_of_no_hits frontMissed, selects.rowsAfter_of_no_hits backMissed]

/-- The hit row becomes what the change asks for. -/
theorem outcome_of_hit (unidentified : t.identifier? = none) {change : TableChange t}
    (castable : ∀ row ∈ change.images, row.Castable)
    (overwrites : ∀ after, change ≠ .insert after) {params : List Value}
    (casts : t.castParams change = .ok params) {row : Row}
    (hit : (t.statementOf change).hits params [row] = [row]) :
    t.Outcome change ((t.statementOf change).rowsAfter params [row]) := by
  rw [castParams_unidentified unidentified castable, Except.ok.injEq] at casts
  subst casts
  cases change with
  | insert after => exact absurd rfl (overwrites after)
  | update before after =>
    -- The first parameters are assigned, and the others are compared.
    have assigned : (after.castedValues ++ before.castedValues).take
        (Dict.keys after.image).length = after.castedValues := by
      rw [Dict.length_keys, ← after.length_castedValues, List.take_left]
    have holds : satisfies (Dict.keys (t.identifyingItems before))
        ((after.castedValues ++ before.castedValues).drop (Dict.keys after.image).length) row =
          true := by simpa [statementOf, Statement.hits, imageParams, List.filter_cons] using hit
    refine ⟨_, ?_, after.matches_assign row⟩
    simp only [statementOf, Statement.rowsAfter, imageParams, List.map_cons, List.map_nil,
      if_pos holds, assigned]
  | delete before =>
    have holds : satisfies (Dict.keys (t.identifyingItems before)) before.castedValues row =
        true := by simpa [statementOf, Statement.hits, imageParams, List.filter_cons] using hit
    simp [Outcome, statementOf, Statement.rowsAfter, imageParams, holds]

/-- Whether two rows conflict is decided by the columns of the constraint. -/
theorem conflicting_congr {columns : List String} {first second other : Row}
    (same : ∀ column ∈ columns, second column = other column) :
    Conflicting columns first second ↔ Conflicting columns first other := by
  -- The comparison reads no other column.
  unfold Conflicting
  refine forall₂_congr fun column member => ?_
  rw [same column member]

/-- A table that has taken the outcome shows that the new row clashes with no other row. -/
theorem noClash_of_taken {sink changed : Table} {change : TableChange t}
    {front back left : List Row} {row : Row}
    (constrained : ∀ constraint ∈ sink.unique, ∀ column ∈ constraint, column ∈ t.columns)
    (split : sink.rows = front ++ row :: back) (matched : change.subject.Matches row)
    (outcome : t.Outcome change left) (rows : changed.rows = front ++ left ++ back)
    (unique : changed.unique = sink.unique) : t.NoClash sink change := by
  cases change with
  | insert after => trivial
  | delete before => trivial
  | update before after =>
    intro constraint isConstraint other inSink unmatched conflict
    obtain ⟨new, same, newMatches⟩ := outcome
    subst same
    have clash : Conflicting constraint other new :=
      (conflicting_congr fun column member =>
        newMatches column (constrained constraint isConstraint column member)).mpr conflict
    have apart := changed.distinct constraint (unique ▸ isConstraint)
    rw [rows] at apart
    obtain ⟨frontAndNew, _, beforeBack⟩ := List.pairwise_append.mp apart
    -- The other row stands in front of the hit one or behind it.
    rw [split] at inSink
    rcases List.mem_append.mp inSink with inFront | rest
    · exact (List.pairwise_append.mp frontAndNew).2.2 other inFront new (by simp) clash
    · rcases List.mem_cons.mp rest with here | inBack
      · exact unmatched (here ▸ matched)
      · exact beforeBack new (by simp) other inBack clash.symm

/-- Without a clash the outcome satisfies the constraints of the table. -/
theorem distinct_of_noClash {sink : Table} {change : TableChange t} {front back left : List Row}
    {row : Row}
    (constrained : ∀ constraint ∈ sink.unique, ∀ column ∈ constraint, column ∈ t.columns)
    (split : sink.rows = front ++ row :: back)
    (unmatched : ∀ other ∈ front ++ back, ¬ change.subject.Matches other)
    (outcome : t.Outcome change left) (noClash : t.NoClash sink change) :
    ∀ constraint ∈ sink.unique, (front ++ left ++ back).Pairwise
      fun first second => ¬ Conflicting constraint first second := by
  intro constraint isConstraint
  have apart := sink.distinct constraint isConstraint
  rw [split] at apart
  have others : (front ++ back).Pairwise fun first second =>
      ¬ Conflicting constraint first second :=
    apart.sublist ((List.Sublist.refl front).append (List.sublist_cons_self row back))
  cases change with
  | insert after => exact outcome.elim
  | delete before =>
    cases outcome
    simpa using others
  | update before after =>
    obtain ⟨new, same, newMatches⟩ := outcome
    subst same
    -- The new row conflicts with none of the other rows, on either side.
    have clear : ∀ other ∈ front ++ back, ¬ Conflicting constraint other new := by
      intro other member clash
      have inSink : other ∈ sink.rows := by
        rw [split]
        rcases List.mem_append.mp member with inFront | inBack
        · exact List.mem_append_left _ inFront
        · exact List.mem_append_right _ (List.mem_cons_of_mem _ inBack)
      exact noClash constraint isConstraint other inSink (unmatched other member)
        ((conflicting_congr fun column inConstraint =>
          newMatches column (constrained constraint isConstraint column inConstraint)).mp clash)
    obtain ⟨frontApart, backApart, across⟩ := List.pairwise_append.mp others
    refine List.pairwise_append.mpr ⟨List.pairwise_append.mpr ⟨frontApart, by simp, ?_⟩,
      backApart, ?_⟩
    · intro first inFront second isNew
      cases List.mem_singleton.mp isNew
      exact clear first (List.mem_append_left _ inFront)
    · intro first inFirst second inBack
      rcases List.mem_append.mp inFirst with inFront | isNew
      · exact across first inFront second inBack
      · cases List.mem_singleton.mp isNew
        exact fun clash => clear second (List.mem_append_right _ inBack) clash.symm

/-- A statement that has taken effect leaves a table with the same constraints. -/
theorem unique_of_effect {database : Database} {sink changed : Table} {change : TableChange t}
    (there : database t.target = some sink)
    (applied : effect config database (some (t.event change)) =
      .ok (Function.update database t.target (some changed))) : changed.unique = sink.unique := by
  rw [t.effect_event] at applied
  obtain ⟨params, _, executed⟩ := bind_eq_ok.mp applied
  obtain ⟨table, taken, found, _, takes, same⟩ := execute_eq_ok.mp executed
  rw [t.target_statementOf] at found same
  -- The table in the updated database is the one that took the rows.
  have entry := congrFun same t.target
  rw [Function.update_self, Function.update_self, Option.some.injEq] at entry
  rw [there, Option.some.injEq] at found
  subst entry found
  exact (Table.withRows_eq_ok.mp takes).2.1

/-- A row that is hit shows that nothing was compared with NULL. -/
theorem withoutNull_of_hit (unidentified : t.identifier? = none) {change : TableChange t}
    (castable : ∀ row ∈ change.images, row.Castable)
    (overwrites : ∀ after, change ≠ .insert after) {params : List Value}
    (casts : t.castParams change = .ok params) {rows : List Row} {row : Row}
    (single : (t.statementOf change).hits params rows = [row]) : change.subject.WithoutNull := by
  -- The row that is hit satisfies the comparison with every column.
  have member : row ∈ (t.statementOf change).hits params rows := by
    rw [single]
    exact List.mem_singleton_self row
  rw [hits_unidentified unidentified castable overwrites casts] at member
  exact (of_decide_eq_true (List.mem_filter.mp member).2).1

/-- The database takes the rows that a statement leaves if they satisfy its constraints. -/
theorem effect_of_rowsAfter {database : Database} {sink changed : Table} {change : TableChange t}
    (hasSink : t.HasSink database sink) {params : List Value}
    (casts : t.castParams change = .ok params) (columns : changed.columns = sink.columns)
    (unique : changed.unique = sink.unique)
    (rows : changed.rows = (t.statementOf change).rowsAfter params sink.rows) :
    effect config database (some (t.event change)) =
      .ok (Function.update database t.target (some changed)) := by
  have accepted := t.accepts_statementOf
    (fun column member => (hasSink.columns column).mpr member) (t.castParams_length casts)
  rw [t.effect_event, casts]
  -- The statement runs on the sink, and its constraints are those of the new rows.
  refine execute_eq_ok.mpr ⟨sink, changed, ?_, accepted, Table.withRows_eq_ok.mpr
    ⟨columns, unique, rows⟩, ?_⟩
  · rw [t.target_statementOf, hasSink.there]
  · rw [t.target_statementOf]

/--
Without a row identifier an update or a delete hits exactly its row under three conditions.

The before image has no NULL, exactly one row of the sink matches it, and the new row of an update
repeats no unique value of another row.
-/
theorem hitsItsRow_iff {database : Database} {sink : Table} (hasSink : t.HasSink database sink)
    (unidentified : t.identifier? = none) {change : TableChange t}
    (castable : ∀ row ∈ change.images, row.Castable)
    (overwrites : ∀ after, change ≠ .insert after) :
    t.HitsItsRow database sink change ↔ change.subject.WithoutNull ∧
      (sink.rows.filter fun row => decide (change.subject.Matches row)).length = 1 ∧
        t.NoClash sink change := by
  have casts := castParams_unidentified unidentified castable
  have hits := hits_unidentified unidentified castable overwrites casts
  have constrained : ∀ constraint ∈ sink.unique, ∀ column ∈ constraint, column ∈ t.columns :=
    fun constraint isConstraint column member =>
      (hasSink.columns column).mp (hasSink.constrained constraint isConstraint column member)
  constructor
  · intro hitsItsRow
    obtain ⟨params, front, row, back, left, changed, given, single, matched, split, applied, rows,
      outcome⟩ := hitsItsRow
    rw [casts, Except.ok.injEq] at given
    subst given
    have withoutNull := withoutNull_of_hit unidentified castable overwrites casts single
    rw [hits] at single
    simp only [withoutNull, true_and] at single
    exact ⟨withoutNull, by rw [single]; rfl,
      noClash_of_taken constrained split matched outcome rows
        (unique_of_effect hasSink.there applied)⟩
  · intro conditions
    obtain ⟨withoutNull, single, noClash⟩ := conditions
    simp only [withoutNull, true_and] at hits
    obtain ⟨row, only⟩ := List.length_eq_one_iff.mp single
    obtain ⟨front, back, split, frontMissed, matched, backMissed⟩ :=
      List.filter_eq_cons_iff.mp only
    -- The one row that matches is hit, and the rows on both sides of it are not.
    have hit : (t.statementOf change).hits (imageParams change) [row] = [row] := by
      rw [hits, List.filter_cons, if_pos matched, List.filter_nil]
    have unmatched : ∀ other ∈ front ++ back, ¬ change.subject.Matches other := by
      intro other member same
      rcases List.mem_append.mp member with inFront | inBack
      · exact frontMissed other inFront (decide_eq_true same)
      · exact List.filter_eq_nil_iff.mp backMissed other inBack (decide_eq_true same)
    have outcome := outcome_of_hit unidentified castable overwrites casts hit
    have rows : (t.statementOf change).rowsAfter (imageParams change) (front ++ row :: back) =
        front ++ (t.statementOf change).rowsAfter (imageParams change) [row] ++ back :=
      rowsAfter_of_single_hit overwrites
        ((hits front).trans (List.filter_eq_nil_iff.mpr frontMissed)) ((hits back).trans backMissed)
    let changed : Table := ⟨sink.columns, sink.unique, _,
      distinct_of_noClash constrained split unmatched outcome noClash⟩
    refine ⟨_, front, row, back, _, changed, casts, ?_, of_decide_eq_true matched, split, ?_, rfl,
      outcome⟩
    · rw [hits, only]
    · exact effect_of_rowsAfter hasSink casts rfl rfl (by rw [split, rows])

end ConfiguredTable

/-- A configuration with one table, whose rows are told apart by all of their columns. -/
def notesConfig : Config := [("notes", ⟨[], [], [], [], [], [], [], none⟩)]

/-- The table of the configuration. -/
def notes : ConfiguredTable notesConfig where
  schema := "public"
  table := "notes"
  settings := ⟨[], [], [], [], [], [], [], none⟩
  columns := ["id", "note"]
  columns_ne_nil := by simp
  configured := rfl
  identifier_columns := by simp

/-- A row of the table. -/
def noteRow (id : Int) (note : Value) : WholeImage notes where
  image := [("id", .int id), ("note", note)]
  distinct := by simp
  full := by simp [notes]

/-- Nothing in the table is cast. -/
theorem notes_castable (row : WholeImage notes) : row.Castable := by
  intro item _
  exact ⟨item.2, by simp [castColumn, notes]⟩

/-- The sink table with some rows. -/
def notesSink (rows : List Row) : Table := ⟨["id", "note"], [], rows, by simp⟩

/-- A sink with this table. -/
def notesDatabase (rows : List Row) : Database :=
  Function.update (fun _ => none) notes.target (some (notesSink rows))

/-- The sink has the table. -/
theorem notes_hasSink (rows : List Row) :
    notes.HasSink (notesDatabase rows) (notesSink rows) where
  there := Function.update_self _ _ _
  columns := by simp [notesSink, notes]
  constrained := by simp [notesSink]

/-- A delete of one of two rows without NULL removes that row. -/
theorem hitsItsRow_note :
    notes.HitsItsRow (notesDatabase [(noteRow 1 (.text "a")).sinkRow, (noteRow 2 .null).sinkRow])
      (notesSink [(noteRow 1 (.text "a")).sinkRow, (noteRow 2 .null).sinkRow])
      (.delete (noteRow 1 (.text "a"))) := by
  refine (ConfiguredTable.hitsItsRow_iff (notes_hasSink _) rfl (fun row _ => notes_castable row)
    (by simp)).mpr ⟨?_, ?_, trivial⟩
  · decide
  · -- Only the first row of the sink matches.
    decide

/-- A delete of a row with NULL in a column leaves the row in the sink. -/
theorem hitsItsRow_counterexample :
    (∃ row ∈ (notesSink [(noteRow 2 .null).sinkRow]).rows, (noteRow 2 .null).Matches row) ∧
      ¬ notes.HitsItsRow (notesDatabase [(noteRow 2 .null).sinkRow])
        (notesSink [(noteRow 2 .null).sinkRow]) (.delete (noteRow 2 .null)) := by
  refine ⟨⟨_, List.mem_singleton_self _, fun _ _ => rfl⟩, fun hitsItsRow => ?_⟩
  obtain ⟨params, front, row, back, left, changed, casts, single, _⟩ := hitsItsRow
  -- The comparison with NULL is true of no row, so nothing is hit.
  have given : notes.castParams (.delete (noteRow 2 .null)) = .ok [.int 2, .null] := rfl
  rw [given, Except.ok.injEq] at casts
  subst casts
  have missed : (notes.statementOf (.delete (noteRow 2 .null))).hits [.int 2, .null]
      (notesSink [(noteRow 2 .null).sinkRow]).rows = [] := rfl
  rw [missed] at single
  cases single

end AivenExamples.PgSync
