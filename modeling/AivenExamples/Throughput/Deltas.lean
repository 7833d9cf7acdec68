import AivenExamples.Data.AwkNumber
import AivenExamples.Data.Dict
import AivenExamples.Data.TopicName

/-! How far the offsets of consumer groups move between two samples. -/

namespace AivenExamples.Throughput

open Fields AwkNumber Regex Rounding

/-! ### Script -/

/-- `text ~ /expression/` -/
def matchesText (expression text : List Char) : Bool :=
  ((parse .extended expression).bind fun parts => search parts text).isSome

/-- `$1`, `$2` and so on. -/
def field (line : List Char) (index : ℕ) : List Char := (fields line).getD (index - 1) []

/-- `$1","$2","$3` -/
def lineKey (line : List Char) : List Char :=
  field line 1 ++ ',' :: (field line 2 ++ ',' :: field line 3)

/-- The lines of a file that are not skipped by `FNR==1 || /^GROUP / { next }`. -/
def dataLines (file : List (List Char)) : List (List Char) :=
  (file.drop 1).filter fun line => !matchesText "^GROUP ".toList line

/-- `o1` after the first file. -/
def firstOffsets (file : List (List Char)) : Dict (List Char) (List Char) :=
  (dataLines file).foldl (fun o1 line => o1.set (lineKey line) (field line 4)) []

/-- What a line of the second file does to `group_sum`. -/
def addDelta (o1 : Dict (List Char) (List Char)) (groupSum : Dict (List Char) ℚ)
    (line : List Char) : Dict (List Char) ℚ :=
  match o1.get? (lineKey line) with
  -- A partition that is not in the first sample adds nothing.
  | none => groupSum
  | some old =>
    if matchesText "^[0-9]+$".toList (field line 4) && matchesText "^[0-9]+$".toList old then
      -- Offsets that are known at both ends have a delta; a negative one is a reset.
      let delta := double (numeric (field line 4) - numeric old)
      if 0 ≤ delta then
        groupSum.set (field line 1) (double ((groupSum.get? (field line 1)).getD 0 + delta))
      else groupSum
    else groupSum

/-- `group_sum` after both files. -/
def groupSums (s1 s2 : List (List Char)) : Dict (List Char) ℚ :=
  (dataLines s2).foldl (addDelta (firstOffsets s1)) []

/-! ### Samples -/

/-- A partition that a group has an offset for, or none that is known yet. -/
structure Row where
  group : List Char
  topic : TopicName
  partition : ℕ
  offset : Option ℕ
  -- The blanks that fill the columns, and the columns behind the offset.
  gaps : ℕ × ℕ × ℕ
  rest : List Char
  nonempty : group ≠ []
  solid : ∀ char ∈ group, char.isWhitespace = false
  apart : ∀ char ∈ rest.head?, isBlank char

/-- An offset as text. -/
def offsetText : Option ℕ → List Char
  | some offset => Nat.toDigits 10 offset
  | none => ['-']

/-- The blanks between two columns. -/
def blanks (gap : ℕ) : List Char := List.replicate gap ' '

/-- The line of a partition. -/
def Row.text (row : Row) : List Char :=
  row.group ++ ' ' :: (blanks row.gaps.1 ++ (row.topic.name ++ ' ' :: (blanks row.gaps.2.1 ++
    (Nat.toDigits 10 row.partition ++ ' ' :: (blanks row.gaps.2.2 ++
      (offsetText row.offset ++ row.rest))))))

/-- The partition of a group. -/
def Row.key (row : Row) : List Char × List Char × ℕ := (row.group, row.topic.name, row.partition)

/-- A line without a partition. -/
inductive Heading where
  | blank (text : List Char) (blanks : ∀ char ∈ text, isBlank char)
  | header (columns : List Char)

/-- The text of a line without a partition. -/
def Heading.text : Heading → List Char
  | .blank text _ => text
  | .header columns => "GROUP ".toList ++ columns

/-- A line of a sample. -/
inductive Line where
  | heading (head : Heading)
  | partition (row : Row)

/-- The text of a line. -/
def Line.text : Line → List Char
  | .heading head => head.text
  | .partition row => row.text

/-- The partitions in the lines of a sample. -/
def rows (lines : List Line) : List Row := lines.filterMap fun line =>
  match line with
  | .heading _ => none
  | .partition row => some row

/-- The output of `kafka-consumer-groups.sh --describe`, with every partition of a group once. -/
structure Sample where
  first : Heading
  lines : List Line
  distinct : ((rows lines).map Row.key).Nodup

/-- The lines of a sample as text. -/
def Sample.text (sample : Sample) : List (List Char) :=
  sample.first.text :: sample.lines.map Line.text

/-! ### Deltas -/

/-- The offset of a partition, when it is there and known. -/
def Sample.offsetOf (sample : Sample) (key : List Char × List Char × ℕ) : Option ℕ :=
  ((rows sample.lines).find? fun row => row.key = key).bind Row.offset

/-- How far the offset of a partition has moved on since an earlier sample, or zero. -/
def partitionDelta (first : Sample) (row : Row) : ℕ :=
  match first.offsetOf row.key, row.offset with
  | some old, some new => new - old
  | _, _ => 0

/-- How far a group has moved on in all of its partitions. -/
def groupDelta (first second : Sample) (group : List Char) : ℕ :=
  (((rows second.lines).filter fun row => row.group = group).map (partitionDelta first)).sum

/-- How far all groups have moved on in all of their partitions. -/
def totalDelta (first second : Sample) : ℕ := ((rows second.lines).map (partitionDelta first)).sum

/-- The known offsets of a sample are whole numbers in double precision. -/
def Sample.Small (sample : Sample) : Prop :=
  ∀ row ∈ rows sample.lines, ∀ offset ∈ row.offset, offset ≤ 2 ^ 53

/-! ### Fields of a line -/

/-- A group id is a word. -/
theorem Row.group_isWord (row : Row) : IsWord row.group :=
  ⟨row.nonempty, @solid_of_all (fun char => !char.isWhitespace) rfl rfl _ fun char member => by
    rw [row.solid char member, Bool.not_false]⟩

/-- An offset is a word. -/
theorem offset_isWord (offset : Option ℕ) : IsWord (offsetText offset) := by
  cases offset with
  | none => decide
  | some offset => exact toDigits_isWord offset

/-- The fields in the line of a partition. -/
theorem Row.fields_text (row : Row) : ∃ others, fields row.text =
    row.group :: row.topic.name :: Nat.toDigits 10 row.partition ::
      offsetText row.offset :: others := by
  -- Each column is a word, and the blanks between two of them count as one.
  have gap (count : ℕ) : ∀ char ∈ blanks count, isBlank char :=
    fun char member => List.eq_of_mem_replicate member ▸ rfl
  have ending : ∃ others,
      fields (offsetText row.offset ++ row.rest) = offsetText row.offset :: others := by
    cases rest : row.rest with
    | nil => exact ⟨[], by rw [List.append_nil, fields_last (offset_isWord _)]⟩
    | cons blank rest' =>
      have separated := row.apart blank (by rw [rest]; rfl)
      exact ⟨_, fields_word (offset_isWord _) separated rest'⟩
  obtain ⟨others, ending⟩ := ending
  refine ⟨others, ?_⟩
  rw [Row.text, fields_word row.group_isWord rfl, fields_blanks (gap _),
    fields_word row.topic.isWord rfl, fields_blanks (gap _), fields_word (toDigits_isWord _) rfl,
    fields_blanks (gap _), ending]

/-- The key of a partition as text. -/
def keyText (key : List Char × List Char × ℕ) : List Char :=
  key.1 ++ ',' :: (key.2.1 ++ ',' :: Nat.toDigits 10 key.2.2)

/-- `$1` of a row is its group. -/
theorem Row.field_group (row : Row) : field row.text 1 = row.group := by
  obtain ⟨others, split⟩ := row.fields_text
  rw [field, split]
  rfl

/-- `$4` of a row is its offset. -/
theorem Row.field_offset (row : Row) : field row.text 4 = offsetText row.offset := by
  obtain ⟨others, split⟩ := row.fields_text
  rw [field, split]
  rfl

/-- The key of a line is made of the group, the topic and the partition. -/
theorem Row.lineKey_text (row : Row) : lineKey row.text = keyText row.key := by
  obtain ⟨others, split⟩ := row.fields_text
  simp only [lineKey, field, split]
  rfl

/-! ### Expressions -/

/-- The skipped lines begin with the name of a column. -/
theorem matches_header (line : List Char) :
    matchesText "^GROUP ".toList line ↔ "GROUP ".toList <+: line := by
  have parsed : parse .extended "^GROUP ".toList = some (.start :: literals "GROUP ".toList) := by
    decide
  rw [matchesText, parsed, Option.bind_some, search_start]

/-- Offsets are compared when they are digits. -/
theorem matches_digits (text : List Char) :
    matchesText "^[0-9]+$".toList text ↔ text ≠ [] ∧ ∀ char ∈ text, char.isDigit := by
  -- Both anchors are there, so the digits have to be the whole field.
  have parsed : parse .extended "^[0-9]+$".toList =
      some (.start :: ([.item .digit .some] ++ [.finish])) := by decide
  rw [matchesText, parsed, Option.bind_some, search_anchored]
  simp only [Matches, Times.Allows, has_digit]
  constructor
  · intro found
    obtain ⟨taken, left, split, digits, some, empty⟩ := found
    rw [split, empty, List.append_nil]
    exact ⟨List.ne_nil_of_length_pos some, digits⟩
  · intro both
    exact ⟨text, [], (List.append_nil text).symm, both.2, List.length_pos_iff.mpr both.1, rfl⟩

/-- A known offset is digits, and an unknown one is not. -/
theorem matches_offset (offset : Option ℕ) :
    matchesText "^[0-9]+$".toList (offsetText offset) = offset.isSome := by
  cases offset with
  | none => decide
  | some offset => exact (matches_digits _).mpr ⟨Nat.toDigits_ne_nil, isDigit_toDigits offset⟩

/-- The digits of a known offset are read as the offset. -/
theorem numeric_offset {offset : ℕ} (small : offset ≤ 2 ^ 53) :
    numeric (offsetText (some offset)) = offset := by
  -- No digit is lost when the number is read as a double.
  have read := (toDigits_shows offset).leading_eq (by simp) (show exponent [] = (0, []) from rfl)
  have number_eq : number (offsetText (some offset)) = offset := by
    rw [offsetText, number, read, zpow_zero, mul_one]
    rfl
  rw [numeric, number_eq, double_natCast small]

/-- The line of a partition is skipped when its group has the name of the column. -/
theorem header_prefix_iff (row : Row) :
    "GROUP ".toList <+: row.text ↔ row.group = "GROUP".toList := by
  -- The first blank of the line stands right behind the group.
  have label : "GROUP ".toList = "GROUP".toList ++ [' '] := by decide
  obtain ⟨tail, text_eq⟩ : ∃ tail, row.text = row.group ++ ' ' :: tail := ⟨_, rfl⟩
  rw [label, text_eq]
  constructor
  · intro beginning
    obtain ⟨rest, split⟩ := beginning
    rw [List.append_assoc, List.singleton_append] at split
    rcases split_mark (by decide) split with same | longer
    · exact same.1
    · obtain ⟨between, group_eq, -⟩ := longer
      have solid := row.group_isWord.solid ' ' (group_eq ▸ by simp)
      exact absurd solid (by decide)
  · intro same
    rw [same]
    exact ⟨tail, by rw [List.append_assoc, List.singleton_append]⟩

/-! ### Keys -/

/-- The text of a key tells the partitions of groups apart, also with commas in the groups. -/
theorem keyText_inj {first second : Row} (same : keyText first.key = keyText second.key) :
    first.key = second.key := by
  have noComma (row : Row) :
      ',' ∉ row.topic.name.reverse ∧ ',' ∉ (Nat.toDigits 10 row.partition).reverse := by
    rw [List.mem_reverse, List.mem_reverse]
    exact ⟨row.topic.not_mem (by decide),
      fun member => absurd (isDigit_toDigits row.partition ',' member) (by decide)⟩
  -- From the end, the first two commas are those between the fields.
  have reversed := congrArg List.reverse same
  simp only [keyText, Row.key, List.reverse_append, List.reverse_cons, List.append_assoc,
    List.singleton_append] at reversed
  have unmarked {digits rest before after : List Char} (absent : ',' ∉ digits)
      (absentThere : ',' ∉ before) (split : digits ++ ',' :: rest = before ++ ',' :: after) :
      digits = before ∧ rest = after := by
    rcases split_mark absent split with here | later
    · exact ⟨here.1.symm, here.2.symm⟩
    · obtain ⟨between, before_eq, -⟩ := later
      exact absurd (before_eq ▸ by simp) absentThere
  obtain ⟨partition, reversed⟩ := unmarked (noComma first).2 (noComma second).2 reversed
  obtain ⟨topic, group⟩ := unmarked (noComma first).1 (noComma second).1 reversed
  have number := congrArg (fun digits => Nat.ofDigitChars 10 digits 0)
    (List.reverse_inj.mp partition)
  simp only [Nat.ofDigitChars_ten_toDigits] at number
  exact Prod.ext (List.reverse_inj.mp group) (Prod.ext (List.reverse_inj.mp topic) number)

/-- A blank line has no fields. -/
theorem fields_blankLine {text : List Char} (blank : ∀ char ∈ text, isBlank char) :
    fields text = [] := by
  have none := fields_blanks blank []
  rwa [List.append_nil] at none

/-- The key of a blank line is no key of a partition. -/
theorem lineKey_blank_ne {text : List Char} (blank : ∀ char ∈ text, isBlank char) (row : Row) :
    lineKey text ≠ keyText row.key := by
  -- Without fields the key is two commas, which is too short for a partition.
  intro same
  have lengths := congrArg List.length same
  have group := List.length_pos_iff.mpr row.nonempty
  simp only [lineKey, field, fields_blankLine blank, keyText, Row.key, List.getD_nil,
    List.length_append, List.length_cons, List.length_nil] at lengths
  omega

/-! ### Offsets of the first sample -/

/-- Whether a line of a sample is not skipped. -/
def Line.kept : Line → Bool
  | .heading (.header _) => false
  | .heading (.blank _ _) => true
  | .partition row => row.group ≠ "GROUP".toList

/-- The lines that are not skipped. -/
theorem dataLines_sample (sample : Sample) :
    dataLines sample.text = (sample.lines.filter Line.kept).map Line.text := by
  -- The first line is dropped, and of the others only repeated headers match.
  have kept (line : Line) : (!matchesText "^GROUP ".toList line.text) = line.kept := by
    rw [Bool.eq_iff_iff, Bool.not_eq_true', ← Bool.not_eq_true, matches_header]
    cases line with
    | heading head =>
      cases head with
      | header columns =>
        exact iff_of_false (not_not_intro (List.prefix_append _ _)) Bool.false_ne_true
      | blank text blank =>
        refine iff_of_true (fun beginning => ?_) rfl
        exact absurd (blank 'G' (beginning.mem (by decide))) (by decide)
    | partition row => rw [Line.text, header_prefix_iff, Line.kept, decide_eq_true_eq]
  have unfolded : dataLines sample.text =
      (sample.lines.map Line.text).filter fun line => !matchesText "^GROUP ".toList line := rfl
  rw [unfolded, List.filter_map]
  exact congrArg _ (List.filter_congr fun line _ => kept line)

/-- The lines of a sample store an offset for each of their partitions, and keep the others. -/
theorem get?_foldl_offsets (row : Row) (counted : row.group ≠ "GROUP".toList) (lines : List Line)
    (distinct : ((rows lines).map Row.key).Nodup) (o1 : Dict (List Char) (List Char)) :
    ((lines.filter Line.kept).foldl
        (fun o1 line => o1.set (lineKey line.text) (field line.text 4)) o1).get? (keyText row.key) =
      (((rows lines).find? fun other => other.key = row.key).map fun other =>
        offsetText other.offset).or (o1.get? (keyText row.key)) := by
  -- Lines of other partitions and blank lines have other keys.
  induction lines generalizing o1 with
  | nil => rfl
  | cons line lines ih =>
    cases line with
    | heading head =>
      have unfolded : rows (.heading head :: lines) = rows lines := rfl
      rw [unfolded] at distinct ⊢
      cases head with
      | header columns => rw [List.filter_cons_of_neg (by simp [Line.kept]), ih distinct]
      | blank text blank =>
        have other := Dict.get?_set_of_ne o1 (field text 4) (lineKey_blank_ne blank row).symm
        rw [List.filter_cons_of_pos rfl, List.foldl_cons, ih distinct]
        exact congrArg _ other
    | partition other =>
      have unfolded : rows (.partition other :: lines) = other :: rows lines := rfl
      rw [unfolded] at distinct ⊢
      rw [List.map_cons, List.nodup_cons] at distinct
      by_cases same : other.key = row.key
      · have kept : Line.kept (.partition other) := by
          have group : other.group = row.group := congrArg Prod.fst same
          rw [Line.kept, group, decide_eq_true_eq]
          exact counted
        -- No later line is about the same partition.
        have noOther : (rows lines).find? (fun other => other.key = row.key) = none := by
          rw [List.find?_eq_none]
          intro later member equal
          exact distinct.1 (List.mem_map.mpr
            ⟨later, member, (of_decide_eq_true equal).trans same.symm⟩)
        have key : keyText row.key = lineKey (Line.partition other).text := by
          rw [Line.text, other.lineKey_text, same]
        rw [List.filter_cons_of_pos kept, List.foldl_cons, ih distinct.2, noOther, key,
          Dict.get?_set_self, List.find?_cons_of_pos (by simpa using same), Line.text,
          other.field_offset]
        rfl
      · have otherKey : keyText row.key ≠ lineKey (Line.partition other).text := by
          rw [Line.text, other.lineKey_text]
          exact fun equal => same (keyText_inj equal).symm
        rw [List.find?_cons_of_neg (by simpa using same)]
        by_cases kept : Line.kept (.partition other)
        · rw [List.filter_cons_of_pos kept, List.foldl_cons, ih distinct.2,
            Dict.get?_set_of_ne _ _ otherKey]
        · rw [List.filter_cons_of_neg kept, ih distinct.2]

/-- The offset that is stored for a partition is the one in its only line. -/
theorem get?_firstOffsets (sample : Sample) (row : Row) (counted : row.group ≠ "GROUP".toList) :
    (firstOffsets sample.text).get? (keyText row.key) =
      ((rows sample.lines).find? fun other => other.key = row.key).map fun other =>
        offsetText other.offset := by
  -- No offset is stored before the first line.
  have whole := get?_foldl_offsets row counted sample.lines sample.distinct []
  rw [Dict.get?_nil, Option.or_none] at whole
  rw [firstOffsets, dataLines_sample, List.foldl_map]
  exact whole

/-! ### Sums of the groups -/

/-- What the line of a partition adds to a sum that stays a whole number in double precision. -/
theorem addDelta_row {first : Sample} {row : Row} (firstSmall : first.Small)
    (small : ∀ offset ∈ row.offset, offset ≤ 2 ^ 53) (counted : row.group ≠ "GROUP".toList)
    {groupSum : Dict (List Char) ℚ} {group : List Char} {before : ℕ}
    (sum_eq : (groupSum.get? group).getD 0 = before)
    (fits : row.group = group → before + partitionDelta first row ≤ 2 ^ 53) :
    ((addDelta (firstOffsets first.text) groupSum row.text).get? group).getD 0 =
      ((before + if row.group = group then partitionDelta first row else 0 : ℕ) : ℚ) := by
  -- A delta is added when both offsets are known and the second one is not smaller.
  have unchanged : (groupSum.get? group).getD 0 =
      ((before + if row.group = group then 0 else 0 : ℕ) : ℚ) := by simp [sum_eq]
  rw [partitionDelta, Sample.offsetOf] at fits ⊢
  rw [addDelta, row.lineKey_text, get?_firstOffsets first row counted, row.field_offset,
    row.field_group]
  cases found : (rows first.lines).find? fun other => other.key = row.key with
  | none => exact unchanged
  | some other =>
    rw [found] at fits
    rw [Option.map_some, Option.bind_some]
    simp only [matches_offset, Option.bind_some] at fits ⊢
    have otherSmall := firstSmall other (List.mem_of_find?_eq_some found)
    cases old_eq : other.offset with
    | none =>
      rw [Option.isSome_none, Bool.and_false, if_neg Bool.false_ne_true]
      exact unchanged
    | some old =>
      cases new_eq : row.offset with
      | none => exact unchanged
      | some new =>
        have oldSmall := otherSmall old old_eq
        have newSmall := small new new_eq
        simp only [old_eq, new_eq] at fits
        simp only [Option.isSome_some, Bool.and_self, if_true, numeric_offset oldSmall,
          numeric_offset newSmall]
        rcases Nat.lt_or_ge new old with backward | forward
        · -- The offset was reset, and the delta is a negative double.
          have negative : ((new : ℚ) - old) < 0 := sub_neg.mpr (by exact_mod_cast backward)
          rw [if_neg (not_le.mpr (double_neg negative)), Nat.sub_eq_zero_of_le backward.le]
          exact unchanged
        · have delta : double ((new : ℚ) - old) = ((new - old : ℕ) : ℚ) := by
            rw [← Nat.cast_sub forward, double_natCast (by omega)]
          rw [delta, if_pos (Nat.cast_nonneg _), Dict.get?_set]
          by_cases same : row.group = group
          · subst same
            have whole := double_natCast (fits rfl)
            rw [Nat.cast_add] at whole
            rw [if_pos rfl, if_pos rfl, Option.getD_some, sum_eq, whole, Nat.cast_add]
          · rw [if_neg (Ne.symm same), if_neg same, Nat.add_zero, sum_eq]

/-- A line does not change the sum of another group. -/
theorem addDelta_other (o1 : Dict (List Char) (List Char)) (groupSum : Dict (List Char) ℚ)
    {line group : List Char} (other : field line 1 ≠ group) :
    (addDelta o1 groupSum line).get? group = groupSum.get? group := by
  -- Only the sum of the group in the first field is set.
  rw [addDelta]
  split
  · rfl
  · dsimp only
    split
    · split
      · exact Dict.get?_set_of_ne _ _ other.symm
      · rfl
    · rfl

/-- Blank lines have no delta. -/
theorem addDelta_blank (o1 : Dict (List Char) (List Char)) (groupSum : Dict (List Char) ℚ)
    {text : List Char} (blank : ∀ char ∈ text, isBlank char) :
    addDelta o1 groupSum (Line.heading (.blank text blank)).text = groupSum := by
  -- The empty field is no offset, whatever the key.
  show addDelta o1 groupSum text = groupSum
  have noOffset : matchesText "^[0-9]+$".toList (field text 4) = false := by
    rw [field, fields_blankLine blank]
    decide
  rw [addDelta]
  split
  · rfl
  · rw [noOffset, Bool.false_and, if_neg Bool.false_ne_true]

/-- The lines of a sample add what their partitions have moved on to the sum of a group. -/
theorem getD_foldl_addDelta {first : Sample} (firstSmall : first.Small) {group : List Char}
    (counted : group ≠ "GROUP".toList) (lines : List Line)
    (small : ∀ row ∈ rows lines, ∀ offset ∈ row.offset, offset ≤ 2 ^ 53)
    {groupSum : Dict (List Char) ℚ} {before : ℕ}
    (sum_eq : (groupSum.get? group).getD 0 = before)
    (fits : before + (((rows lines).filter fun row => row.group = group).map
      (partitionDelta first)).sum ≤ 2 ^ 53) :
    (((lines.filter Line.kept).foldl (fun groupSum line =>
        addDelta (firstOffsets first.text) groupSum line.text) groupSum).get? group).getD 0 =
      ((before + (((rows lines).filter fun row => row.group = group).map
        (partitionDelta first)).sum : ℕ) : ℚ) := by
  -- Skipped rows are those of the group that has the name of the column.
  induction lines generalizing groupSum before with
  | nil => exact sum_eq
  | cons line lines ih =>
    cases line with
    | heading head =>
      have unfolded : rows (.heading head :: lines) = rows lines := rfl
      rw [unfolded] at small fits ⊢
      cases head with
      | header columns =>
        rw [List.filter_cons_of_neg (by simp [Line.kept]), ih small sum_eq fits]
      | blank text blank =>
        rw [List.filter_cons_of_pos rfl, List.foldl_cons, addDelta_blank _ _ blank,
          ih small sum_eq fits]
    | partition row =>
      have unfolded : rows (.partition row :: lines) = row :: rows lines := rfl
      rw [unfolded] at small fits ⊢
      obtain ⟨smallHere, smallThere⟩ := List.forall_mem_cons.mp small
      by_cases kept : row.group = "GROUP".toList
      · have skipped : ¬Line.kept (.partition row) := by simp [Line.kept, kept]
        have other : row.group ≠ group := fun same => counted (same.symm.trans kept)
        rw [List.filter_cons_of_neg (by simpa using other)] at fits
        rw [List.filter_cons_of_neg skipped, List.filter_cons_of_neg (by simpa using other),
          ih smallThere sum_eq fits]
      · have counts : Line.kept (.partition row) := decide_eq_true kept
        rw [List.filter_cons_of_pos counts, List.foldl_cons, Line.text]
        by_cases same : row.group = group
        · rw [List.filter_cons_of_pos (by simpa using same), List.map_cons, List.sum_cons,
            ← Nat.add_assoc] at fits ⊢
          have added := addDelta_row firstSmall smallHere kept sum_eq fun _ =>
            (Nat.le_add_right _ _).trans fits
          rw [if_pos same] at added
          exact ih smallThere added fits
        · rw [List.filter_cons_of_neg (by simpa using same)] at fits ⊢
          have added := addDelta_row firstSmall smallHere kept sum_eq fun equal => absurd equal same
          rw [if_neg same, Nat.add_zero] at added
          exact ih smallThere added fits

/-- The sum of a group is what it has moved on. -/
theorem groupSums_get? {first second : Sample} (firstSmall : first.Small)
    (secondSmall : second.Small) {group : List Char}
    (fits : groupDelta first second group ≤ 2 ^ 53) (counted : group ≠ "GROUP".toList) :
    ((groupSums first.text second.text).get? group).getD 0 = groupDelta first second group := by
  -- The sums start from nothing.
  have nothing : (Dict.get? ([] : Dict (List Char) ℚ) group).getD 0 = (0 : ℕ) :=
    Nat.cast_zero.symm
  have whole := getD_foldl_addDelta firstSmall counted second.lines secondSmall nothing
    (by rwa [Nat.zero_add])
  rw [Nat.zero_add] at whole
  rw [groupSums, dataLines_sample, List.foldl_map, groupDelta]
  exact whole

/-- A line that is not skipped has no sum for the name of the column. -/
theorem addDelta_header (o1 : Dict (List Char) (List Char)) (groupSum : Dict (List Char) ℚ)
    {line : Line} (kept : line.kept) :
    (addDelta o1 groupSum line.text).get? "GROUP".toList = groupSum.get? "GROUP".toList := by
  -- A header line is not kept, a blank one adds nothing, and a row is of another group.
  cases line with
  | heading head =>
    cases head with
    | header columns => exact absurd kept Bool.false_ne_true
    | blank text blank => rw [addDelta_blank _ _ blank]
  | partition row =>
    rw [Line.kept, decide_eq_true_eq] at kept
    exact addDelta_other _ _ (row.field_group ▸ kept)

/-- A group with the name of the column has no sum. -/
theorem groupSums_header (first second : Sample) :
    (groupSums first.text second.text).get? "GROUP".toList = none := by
  -- Every line that is kept leaves the name of the column without a sum.
  rw [groupSums, dataLines_sample, List.foldl_map]
  refine List.foldlRecOn (motive := fun groupSum : Dict (List Char) ℚ =>
    groupSum.get? "GROUP".toList = none) _ _ rfl fun groupSum none line member => ?_
  rw [addDelta_header _ _ (List.mem_filter.mp member).2, none]

/-- A line leaves one sum for every group. -/
theorem nodup_addDelta (o1 : Dict (List Char) (List Char)) {groupSum : Dict (List Char) ℚ}
    (distinct : groupSum.keys.Nodup) (line : List Char) :
    (addDelta o1 groupSum line).keys.Nodup := by
  -- The sum of a group is written under its name, whether it was there or not.
  rw [addDelta]
  split
  · exact distinct
  · dsimp only
    split
    · split
      · exact Dict.nodup_set distinct _ _
      · exact distinct
    · exact distinct

/-- Every group has one sum. -/
theorem groupSums_nodup (s1 s2 : List (List Char)) : (groupSums s1 s2).keys.Nodup :=
  List.foldlRecOn (motive := fun groupSum : Dict (List Char) ℚ => groupSum.keys.Nodup) _ _
    List.nodup_nil fun _ distinct line _ => nodup_addDelta _ distinct line

/-- A group that has moved on has a sum, unless it has the name of the column. -/
theorem mem_groupSums {first second : Sample} (firstSmall : first.Small)
    (secondSmall : second.Small) {group : List Char}
    (fits : groupDelta first second group ≤ 2 ^ 53)
    (moved : 0 < groupDelta first second group) (counted : group ≠ "GROUP".toList) :
    (groupSums first.text second.text).get? group = some (groupDelta first second group : ℚ) := by
  -- A group without a sum would have moved by zero.
  have sum := groupSums_get? firstSmall secondSmall fits counted
  cases found : (groupSums first.text second.text).get? group with
  | none =>
    rw [found, Option.getD_none] at sum
    have none : groupDelta first second group = 0 := by exact_mod_cast sum.symm
    omega
  | some value => rw [← sum, found, Option.getD_some]

/-- A value is counted once for a member of a list without repetitions. -/
theorem sum_ite {groups : List (List Char)} (distinct : groups.Nodup) (group : List Char)
    (value : ℕ) : (groups.map fun other => if group = other then value else 0).sum =
      if group ∈ groups then value else 0 := by
  -- The member is met once, and the rest of the list adds nothing.
  induction groups with
  | nil => simp
  | cons first groups ih =>
    rw [List.nodup_cons] at distinct
    rw [List.map_cons, List.sum_cons, ih distinct.2]
    by_cases same : group = first
    · subst same
      simp [distinct.1]
    · simp [same]

/-- Rows are added up by groups when these include all groups of rows that count. -/
theorem sum_groups {groups : List (List Char)} (distinct : groups.Nodup) (value : Row → ℕ)
    (listed : List Row) (all : ∀ row ∈ listed, 0 < value row → row.group ∈ groups) :
    (groups.map fun group => ((listed.filter fun row => row.group = group).map value).sum).sum =
      (listed.map value).sum := by
  -- Each row is added in the sum of its own group only.
  induction listed with
  | nil => simp
  | cons row listed ih =>
    obtain ⟨here, others⟩ := List.forall_mem_cons.mp all
    have split (group : List Char) :
        (((row :: listed).filter fun row => row.group = group).map value).sum =
          (if row.group = group then value row else 0) +
            ((listed.filter fun row => row.group = group).map value).sum := by
      by_cases same : row.group = group <;> simp [same]
    simp only [split]
    rw [List.sum_map_add, ih others, sum_ite distinct, List.map_cons, List.sum_cons]
    split
    · rfl
    · rename_i missing
      have none : value row = 0 := by
        by_contra moved
        exact missing (here (Nat.pos_of_ne_zero moved))
      rw [none]

/-- All groups together have moved on by the deltas of all partitions. -/
theorem sum_groupDelta (first second : Sample) {groups : List (List Char)} (distinct : groups.Nodup)
    (all : ∀ row ∈ rows second.lines, 0 < partitionDelta first row → row.group ∈ groups) :
    (groups.map (groupDelta first second)).sum = totalDelta first second :=
  sum_groups distinct (partitionDelta first) (rows second.lines) all

/-- A partition moves on no farther than its group. -/
theorem partitionDelta_le (first : Sample) {second : Sample} {row : Row}
    (member : row ∈ rows second.lines) :
    partitionDelta first row ≤ groupDelta first second row.group :=
  List.single_le_sum (fun _ _ => Nat.zero_le _) _ (List.mem_map.mpr
    ⟨row, List.mem_filter.mpr ⟨member, decide_eq_true rfl⟩, rfl⟩)

end AivenExamples.Throughput
