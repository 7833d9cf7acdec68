import AivenExamples.Throughput.Deltas
import Mathlib.Algebra.BigOperators.Ring.Finset

/-! The throughput of a cluster, added up from the rows that are written for its groups. -/

namespace AivenExamples.Throughput

open Fields AwkNumber Regex Rounding

/-! ### Script -/

/-- `mps`: the messages in a second. -/
def mps (interval sum : ℚ) : ℚ := double (sum / double interval)

/-- `mps * avg_bytes`: the bytes in a second. -/
def bps (interval : ℚ) (avgBytes : ℕ) (sum : ℚ) : ℚ := double (mps interval sum * double avgBytes)

section Script

variable (awk : Awk) (interval : ℚ) (avgBytes : ℕ)

/-- The row of a group in `throughput_by_group.csv`. -/
def csvRow (group : List Char) (sum : ℚ) : List Char :=
  let bytes := if 0 < avgBytes then numberText awk (bps interval avgBytes sum) else "N/A".toList
  group ++ ',' :: (numberText awk sum ++ ',' :: (numberText awk (mps interval sum) ++ ',' :: bytes))

/-- The groups with their rows, in the order in which awk goes through them. -/
def groupRows (groupSum : Dict (List Char) ℚ) (order : List (List Char)) :
    List (List Char × List Char) :=
  order.filterMap fun group =>
    match groupSum.get? group with
    | some sum => if 0 < sum then some (group, csvRow awk interval avgBytes group sum) else none
    | none => none

/-- The lines of `throughput_by_group.csv`. -/
def csvLines (rows : List (List Char × List Char)) : List (List Char) :=
  "GROUP,MESSAGES_DELTA,MESSAGES_PER_SEC,BYTES_PER_SEC".toList :: rows.map Prod.snd

/-- `$3` and `$4` between commas. -/
def column (line : List Char) (index : ℕ) : List Char := (line.splitOn ',').getD (index - 1) []

/-- `$3>0` -/
def countsMessages (line : List Char) : Bool := isPositive (column line 3)

/-- `$4 ~ /^[0-9]+\.?[0-9]*$/` -/
def countsBytes (line : List Char) : Bool :=
  matchesText "^[0-9]+\\.?[0-9]*$".toList (column line 4)

/-- The sum of a column over the lines that count, as it is printed. -/
def total (csv : List (List Char)) (counts : List Char → Bool) (index : ℕ) : List Char :=
  numberText awk (((csv.drop 1).filter counts).foldl
    (fun sum line => double (sum + numeric (column line index))) 0)

/-- The totals in `throughput_summary.txt`. -/
structure Summary where
  totalMps : List Char
  totalBps : Option (List Char)

/-- The totals for two samples, when awk goes through the groups in some order. -/
def summary (s1 s2 : List (List Char)) (order : List (List Char)) : Summary :=
  let csv := csvLines (groupRows awk interval avgBytes (groupSums s1 s2) order)
  { totalMps := total awk csv countsMessages 3
    totalBps :=
      -- The shell compares numbers of 64 bits, and takes a larger one for a mistake.
      if 0 < avgBytes ∧ avgBytes < 2 ^ 63 then some (total awk csv countsBytes 4) else none }

end Script

/-! ### Totals -/

/--
A total of printed numbers that is printed itself.

Both are rounded to six digits, and what is done before and in between is rounded to doubles.
-/
def Within (operations : ℕ) (reported exact : ℚ) : Prop :=
  Near (textFactor ^ 2 * unitFactor ^ operations) reported exact

/--
The totals are right up to rounding, and every group that has moved on is in both of them.

One double is made for each group that is added, and five for a rate that is written and read.
-/
structure Right (awk : Awk) (first second : Sample) (interval : ℚ) (avgBytes : ℕ)
    (order : List (List Char)) : Prop where
  messages : Within (order.length + 5)
    (number (summary awk interval avgBytes first.text second.text order).totalMps)
    (totalDelta first second / interval)
  bytes : ∃ text ∈ (summary awk interval avgBytes first.text second.text order).totalBps,
    Within (order.length + 5) (number text) (avgBytes * (totalDelta first second / interval))
  everyGroup : ∀ group, 0 < groupDelta first second group →
    ∃ row ∈ groupRows awk interval avgBytes (groupSums first.text second.text) order,
      row.1 = group ∧ countsMessages row.2 ∧ countsBytes row.2

/--
The numbers are neither too large nor too small for double precision.

Beyond `2 ^ 53` not every whole number is a double.
-/
structure InRange (first second : Sample) (interval : ℚ) (avgBytes : ℕ) : Prop where
  firstSmall : first.Small
  secondSmall : second.Small
  deltas : ∀ group, groupDelta first second group ≤ 2 ^ 53
  intervals : 1 / 2 ^ 1000 ≤ interval ∧ interval ≤ 2 ^ 1000
  rate : avgBytes * (totalDelta first second / interval) ≤ 2 ^ 1000

/-- The groups that have moved on pass through the text of the rows unharmed. -/
structure Readable (awk : Awk) (first second : Sample) (interval : ℚ) (avgBytes : ℕ) : Prop where
  compared : avgBytes < 2 ^ 63
  groups : ∀ group, 0 < groupDelta first second group → group ≠ "GROUP".toList ∧ ',' ∉ group ∧
    Plain awk (bps interval avgBytes (groupDelta first second group))

/-! ### Rows -/

section Rows

variable {awk : Awk} {interval : ℚ} {avgBytes : ℕ} {order : List (List Char)}
variable {group : List Char} {sum : ℚ}

/-- The rows are those of the groups with a positive sum. -/
theorem mem_groupRows {groupSum : Dict (List Char) ℚ} {row : List Char × List Char} :
    row ∈ groupRows awk interval avgBytes groupSum order ↔ row.1 ∈ order ∧ ∃ sum,
      groupSum.get? row.1 = some sum ∧ 0 < sum ∧
        row.2 = csvRow awk interval avgBytes row.1 sum := by
  -- A row is written for a stored sum that is positive.
  rw [groupRows, List.mem_filterMap]
  constructor
  · intro found
    obtain ⟨group, member, made⟩ := found
    split at made
    · rename_i sum stored
      split at made
      · rename_i positive
        rw [← Option.some.inj made]
        exact ⟨member, sum, stored, positive, rfl⟩
      · cases made
    · cases made
  · intro found
    obtain ⟨member, sum, stored, positive, made⟩ := found
    refine ⟨row.1, member, ?_⟩
    simp only [stored, if_pos positive, ← made]

/-- Numbers are written without commas. -/
theorem noComma_numberText {value : ℚ} (nonneg : 0 ≤ value) : ',' ∉ numberText awk value := by
  -- A comma is neither a digit nor part of an exponent.
  intro member
  rcases numberText_chars nonneg ',' member with digit | other
  · exact absurd digit (by decide)
  · exact absurd other (by decide)

/-- The messages in a second are off by two roundings at most. -/
theorem near_mps (intervalPositive : 0 < interval) (nonneg : 0 ≤ sum) :
    0 ≤ mps interval sum ∧ Near (unitFactor ^ 2) (mps interval sum) (1 / interval * sum) := by
  -- The interval is rounded when it is read, and then the quotient is.
  have factor : 0 ≤ unitFactor := zero_le_one.trans one_le_unitFactor
  have divisor := double_pos intervalPositive
  have inverse := (near_double intervalPositive.le).inv divisor intervalPositive
  have quotient := inverse.mul (near_refl (le_refl 1) nonneg) factor
    (inv_pos.mpr divisor).le (inv_pos.mpr intervalPositive).le nonneg nonneg
  rw [mul_one] at quotient
  have exactNonneg : 0 ≤ (double interval)⁻¹ * sum := mul_nonneg (inv_pos.mpr divisor).le nonneg
  rw [mps, div_eq_inv_mul, one_div, pow_two]
  exact ⟨double_nonneg exactNonneg, (near_double exactNonneg).trans quotient factor factor⟩

/-- The bytes in a second are off by four roundings at most. -/
theorem near_bps (intervalPositive : 0 < interval) (nonneg : 0 ≤ sum) :
    0 ≤ bps interval avgBytes sum ∧
      Near (unitFactor ^ 4) (bps interval avgBytes sum) (avgBytes / interval * sum) := by
  -- The size of a message is rounded when it is read, and then the product is.
  have factor : 0 ≤ unitFactor := zero_le_one.trans one_le_unitFactor
  obtain ⟨rateNonneg, rate⟩ := near_mps intervalPositive nonneg
  have size := @near_double (avgBytes : ℚ) (Nat.cast_nonneg _)
  have sizeNonneg := @double_nonneg (avgBytes : ℚ) (Nat.cast_nonneg _)
  have product := rate.mul size (pow_nonneg factor 2) rateNonneg (by positivity) sizeNonneg
    (Nat.cast_nonneg _)
  have productNonneg := mul_nonneg rateNonneg sizeNonneg
  have near := (near_double productNonneg).trans product factor (by positivity)
  have factors : unitFactor * (unitFactor ^ 2 * unitFactor) = unitFactor ^ 4 := by ring
  have exact_eq : 1 / interval * sum * avgBytes = avgBytes / interval * sum := by ring
  rw [factors, exact_eq] at near
  exact ⟨double_nonneg productNonneg, near⟩

/-- A number that is written and read again is off by the rounding of its text in addition. -/
theorem near_numeric {value exact : ℚ} (nonneg : 0 ≤ value)
    (near : Near (unitFactor ^ 4) value exact) : 0 ≤ numeric (numberText awk value) ∧
      Near (textFactor * unitFactor ^ 5) (numeric (numberText awk value)) exact := by
  -- What is shown of the number is read as the double next to it.
  have factor : 0 ≤ unitFactor := zero_le_one.trans one_le_unitFactor
  have text : 0 ≤ textFactor := zero_le_one.trans one_le_textFactor
  have shownNonneg := @shown_nonneg awk value nonneg
  have written := (@near_shown awk value nonneg).trans near text (pow_nonneg factor 4)
  have read := (near_double shownNonneg).trans written factor (mul_nonneg text (by positivity))
  have factors : unitFactor * (textFactor * unitFactor ^ 4) = textFactor * unitFactor ^ 5 := by
    ring
  rw [factors] at read
  rw [numeric, number_numberText nonneg]
  exact ⟨double_nonneg shownNonneg, read⟩

/-- The columns in the row of a group without commas. -/
theorem column_csvRow (given : 0 < avgBytes) (intervalPositive : 0 < interval) (nonneg : 0 ≤ sum)
    (noComma : ',' ∉ group) :
    column (csvRow awk interval avgBytes group sum) 3 = numberText awk (mps interval sum) ∧
      column (csvRow awk interval avgBytes group sum) 4 =
        numberText awk (bps interval avgBytes sum) := by
  -- The commas of the row are those between its four columns.
  have messages := (near_mps intervalPositive nonneg).1
  have bytes := (@near_bps interval avgBytes sum intervalPositive nonneg).1
  have split : (csvRow awk interval avgBytes group sum).splitOn ',' = [group, numberText awk sum,
      numberText awk (mps interval sum), numberText awk (bps interval avgBytes sum)] := by
    simp only [csvRow, if_pos given]
    rw [List.splitOn_append_cons_self_of_not_mem noComma,
      List.splitOn_append_cons_self_of_not_mem (noComma_numberText nonneg),
      List.splitOn_append_cons_self_of_not_mem (noComma_numberText messages),
      List.splitOn_eq_singleton (noComma_numberText bytes)]
  rw [column, column, split]
  exact ⟨rfl, rfl⟩

/-- What the expression for the fourth column accepts. -/
theorem matches_plain (text : List Char) : matchesText "^[0-9]+\\.?[0-9]*$".toList text ↔
    ∃ whole point frac, text = whole ++ (point ++ frac) ∧ whole ≠ [] ∧
      (∀ char ∈ whole, char.isDigit) ∧ (point = [] ∨ point = ['.']) ∧
        ∀ char ∈ frac, char.isDigit := by
  have parsed : parse .extended "^[0-9]+\\.?[0-9]*$".toList = some (.start :: ([.item .digit .some,
      .item (.single '.') .maybe, .item .digit .many] ++ [.finish])) := by decide
  rw [matchesText, parsed, Option.bind_some, search_anchored]
  simp only [Matches, Times.Allows, has_digit, has_single, true_and]
  constructor
  · intro found
    obtain ⟨whole, _, split, wholeDigits, some, point, _, behind, points, atMost, frac, _, last,
      fracDigits, empty⟩ := found
    rw [empty, List.append_nil] at last
    refine ⟨whole, point, frac, by rw [split, behind, last], List.ne_nil_of_length_pos some,
      wholeDigits, ?_, fracDigits⟩
    -- At most one character, and that is the point.
    cases point with
    | nil => exact .inl rfl
    | cons char others =>
      have none : others = [] := List.eq_nil_of_length_eq_zero (by simpa using atMost)
      exact .inr (by rw [none, points char List.mem_cons_self])
  · intro found
    obtain ⟨whole, point, frac, split, nonempty, wholeDigits, either, fracDigits⟩ := found
    refine ⟨whole, _, split, wholeDigits, List.length_pos_iff.mpr nonempty, point, frac, rfl,
      ?_, ?_, frac, [], (List.append_nil _).symm, fracDigits, rfl⟩
    · rcases either with same | same <;> simp [same]
    · rcases either with same | same <;> simp [same]

/-- The fourth column counts when the number in it has no exponent. -/
theorem matches_numberText_iff {value : ℚ} (nonneg : 0 ≤ value) :
    matchesText "^[0-9]+\\.?[0-9]*$".toList (numberText awk value) ↔ Plain awk value := by
  -- An exponent brings in a letter that the expression has no place for.
  rw [matches_plain]
  constructor
  · intro found
    obtain ⟨whole, point, frac, split, -, wholeDigits, either, fracDigits⟩ := found
    by_contra notPlain
    have letter := numberText_exponent nonneg notPlain
    rw [split, List.mem_append, List.mem_append] at letter
    rcases letter with inWhole | inPoint | inFrac
    · exact absurd (wholeDigits 'e' inWhole) (by decide)
    · rcases either with same | same <;> simp [same] at inPoint
    · exact absurd (fracDigits 'e' inFrac) (by decide)
  · intro plain
    obtain ⟨whole, frac, shows⟩ := numberText_plain nonneg plain
    rw [shows.text_eq, List.append_nil, fixed]
    have stripped := stripZeros_digits shows.fracDigits
    split
    · exact ⟨whole, [], [], rfl, shows.nonempty, shows.wholeDigits, .inl rfl, by simp⟩
    · exact ⟨whole, ['.'], _, rfl, shows.nonempty, shows.wholeDigits, .inr rfl, stripped⟩

end Rows

/-! ### Totals of all groups -/

section Totals

variable {awk : Awk} {first second : Sample} {interval : ℚ} {avgBytes : ℕ}
variable {order : List (List Char)}

/-- The groups that have moved on, in the order in which awk goes through them. -/
def moved (first second : Sample) (order : List (List Char)) : List (List Char) :=
  order.filter fun group => 0 < groupDelta first second group

/-- A stored sum is what its group has moved on. -/
theorem sum_eq_groupDelta (inRange : InRange first second interval avgBytes) {group : List Char}
    {sum : ℚ} (stored : (groupSums first.text second.text).get? group = some sum) :
    group ≠ "GROUP".toList ∧ sum = groupDelta first second group := by
  -- No sum is stored for the name of the column.
  have counted : group ≠ "GROUP".toList := by
    intro same
    rw [same, groupSums_header] at stored
    cases stored
  have sum_eq :=
    groupSums_get? inRange.firstSmall inRange.secondSmall (inRange.deltas group) counted
  rw [stored, Option.getD_some] at sum_eq
  exact ⟨counted, sum_eq⟩

/-- There is a row for each group that has moved on. -/
theorem groupRows_eq (inRange : InRange first second interval avgBytes)
    (any : order.Perm (groupSums first.text second.text).keys) :
    groupRows awk interval avgBytes (groupSums first.text second.text) order =
      (moved first second order).map fun group =>
        (group, csvRow awk interval avgBytes group (groupDelta first second group)) := by
  -- The rows follow the order in which the groups are visited.
  have listed : ∀ group ∈ order, ∃ sum, (groupSums first.text second.text).get? group = some sum :=
    fun group member => Dict.mem_keys.mp (any.mem_iff.mp member)
  clear any
  induction order with
  | nil => rfl
  | cons group order ih =>
    obtain ⟨⟨sum, stored⟩, others⟩ := List.forall_mem_cons.mp listed
    have sum_eq := (sum_eq_groupDelta inRange stored).2
    have shown := ih others
    rw [groupRows, moved] at shown ⊢
    by_cases positive : 0 < groupDelta first second group
    · have cast : 0 < sum := by
        rw [sum_eq]
        exact_mod_cast positive
      rw [List.filter_cons_of_pos (by simpa using positive), List.map_cons, ← shown, ← sum_eq]
      simp only [List.filterMap_cons, stored, if_pos cast]
    · have cast : ¬0 < sum := by
        rw [sum_eq]
        exact_mod_cast positive
      rw [List.filter_cons_of_neg (by simpa using positive), ← shown]
      simp only [List.filterMap_cons, stored, if_neg cast]

/-- The deltas of the groups are those of all partitions when no group is skipped. -/
theorem sum_moved (inRange : InRange first second interval avgBytes)
    (any : order.Perm (groupSums first.text second.text).keys)
    (counted : groupDelta first second "GROUP".toList = 0) :
    ((moved first second order).map (groupDelta first second)).sum = totalDelta first second := by
  -- A partition that has moved on belongs to a group that has.
  have distinct : (moved first second order).Nodup :=
    (any.symm.nodup (groupSums_nodup _ _)).filter _
  refine sum_groupDelta first second distinct fun row member positive => ?_
  have further := partitionDelta_le first member
  have notHeader : row.group ≠ "GROUP".toList := by
    intro same
    rw [same, counted] at further
    omega
  have stored := mem_groupSums inRange.firstSmall inRange.secondSmall (inRange.deltas row.group)
    (Nat.lt_of_lt_of_le positive further) notHeader
  exact List.mem_filter.mpr ⟨any.mem_iff.mpr (Dict.mem_keys.mpr ⟨_, stored⟩),
    decide_eq_true (Nat.lt_of_lt_of_le positive further)⟩

/-- A total is right when every row counts with a number near the rate of its group. -/
theorem within_total {rate : ℚ} (written : ℚ → ℚ) {counts : List Char → Bool} {index : ℕ}
    (inRange : InRange first second interval avgBytes)
    (any : order.Perm (groupSums first.text second.text).keys)
    (counted : groupDelta first second "GROUP".toList = 0)
    (all : ∀ group ∈ moved first second order,
      counts (csvRow awk interval avgBytes group (groupDelta first second group)) ∧
      column (csvRow awk interval avgBytes group (groupDelta first second group)) index =
        numberText awk (written (groupDelta first second group)))
    (rateNonneg : 0 ≤ rate)
    (near : ∀ sum, 0 ≤ sum → 0 ≤ written sum ∧ Near (unitFactor ^ 4) (written sum) (rate * sum)) :
    Within (order.length + 5) (number (total awk (csvLines (groupRows awk interval avgBytes
      (groupSums first.text second.text) order)) counts index))
      (rate * totalDelta first second) := by
  -- No row is filtered out.
  have kept : ((moved first second order).map fun group =>
      csvRow awk interval avgBytes group (groupDelta first second group)).filter counts =
        (moved first second order).map fun group =>
          csvRow awk interval avgBytes group (groupDelta first second group) := by
    rw [List.filter_eq_self, List.forall_mem_map]
    exact fun group member => (all group member).1
  have lines : ((csvLines (groupRows awk interval avgBytes (groupSums first.text second.text)
      order)).drop 1).filter counts = (moved first second order).map fun group =>
        csvRow awk interval avgBytes group (groupDelta first second group) := by
    rw [csvLines, groupRows_eq inRange any, List.drop_one, List.tail_cons, List.map_map]
    exact kept
  -- The numbers in the rows are near the exact rates, and so is their sum.
  have each (group : List Char) (member : group ∈ moved first second order) :=
    (all group member).2 ▸ @near_numeric awk _ _ (near _ (Nat.cast_nonneg _)).1
      (near (groupDelta first second group) (Nat.cast_nonneg _)).2
  have large : 1 ≤ textFactor * unitFactor ^ 5 :=
    one_le_mul_of_one_le_of_one_le one_le_textFactor (one_le_pow₀ one_le_unitFactor)
  obtain ⟨sumNonneg, sumNear⟩ := near_foldl_double large (moved first second order)
    (fun group => numeric (column (csvRow awk interval avgBytes group
      (groupDelta first second group)) index)) (fun group => rate * groupDelta first second group)
    (fun group member => (each group member).2) (fun group member => (each group member).1)
    (fun group _ => mul_nonneg rateNonneg (Nat.cast_nonneg _))
  have exact_eq : ((moved first second order).map fun group =>
      rate * groupDelta first second group).sum = rate * totalDelta first second := by
    rw [List.sum_map_mul_left, ← sum_moved inRange any counted, Nat.cast_list_sum, List.map_map]
    rfl
  rw [exact_eq] at sumNear
  rw [total, lines, List.foldl_map, number_numberText sumNonneg, Within]
  -- It is printed once more.
  have text : 0 ≤ textFactor := zero_le_one.trans one_le_textFactor
  have unit : 0 ≤ unitFactor := zero_le_one.trans one_le_unitFactor
  have printed := (@near_shown awk _ sumNonneg).trans sumNear text (by positivity)
  refine printed.mono ?_ (shown_nonneg sumNonneg) (mul_nonneg rateNonneg (Nat.cast_nonneg _))
  have fewer : (moved first second order).length + 5 ≤ order.length + 5 :=
    Nat.add_le_add_right (List.length_filter_le _ _) 5
  calc textFactor * (textFactor * unitFactor ^ 5 * unitFactor ^ (moved first second order).length)
      = textFactor ^ 2 * unitFactor ^ ((moved first second order).length + 5) := by ring
    _ ≤ textFactor ^ 2 * unitFactor ^ (order.length + 5) :=
      mul_le_mul_of_nonneg_left (pow_le_pow_right₀ one_le_unitFactor fewer) (by positivity)

/-- Groups that pass through the text unharmed are added up right. -/
theorem right_of_readable (intervalPositive : 0 < interval) (given : 0 < avgBytes)
    (inRange : InRange first second interval avgBytes)
    (any : order.Perm (groupSums first.text second.text).keys)
    (readable : Readable awk first second interval avgBytes) :
    Right awk first second interval avgBytes order := by
  -- Every row counts in both totals, with the rates of its group in its columns.
  have counted : groupDelta first second "GROUP".toList = 0 := by
    by_contra positive
    exact (readable.groups _ (Nat.pos_of_ne_zero positive)).1 rfl
  have positive {group : List Char} (member : group ∈ moved first second order) :
      0 < groupDelta first second group := of_decide_eq_true (List.mem_filter.mp member).2
  have columns (group : List Char) (moved : 0 < groupDelta first second group) :=
    @column_csvRow awk interval avgBytes group (groupDelta first second group) given
      intervalPositive (Nat.cast_nonneg _) (readable.groups group moved).2.1
  have countsMps (group : List Char) (moved : 0 < groupDelta first second group) :
      countsMessages (csvRow awk interval avgBytes group (groupDelta first second group)) := by
    have some : (0 : ℚ) < groupDelta first second group := by exact_mod_cast moved
    rw [countsMessages, (columns group moved).1]
    exact isPositive_numberText (double_pos (div_pos some (double_pos intervalPositive)))
  have countsBps (group : List Char) (moved : 0 < groupDelta first second group) :
      countsBytes (csvRow awk interval avgBytes group (groupDelta first second group)) := by
    have nonneg := (@near_bps interval avgBytes _ intervalPositive
      (Nat.cast_nonneg (groupDelta first second group))).1
    rw [countsBytes, (columns group moved).2, matches_numberText_iff nonneg]
    exact (readable.groups group moved).2.2
  refine ⟨?_, ?_, ?_⟩
  · rw [← one_div_mul_eq_div]
    refine within_total (mps interval) inRange any counted (fun group member =>
      ⟨countsMps group (positive member), (columns group (positive member)).1⟩) (by positivity)
      fun sum nonneg => ?_
    obtain ⟨rateNonneg, near⟩ := near_mps intervalPositive nonneg
    exact ⟨rateNonneg, near.mono (pow_le_pow_right₀ one_le_unitFactor (by omega)) rateNonneg
      (by positivity)⟩
  · refine ⟨_, by rw [summary, if_pos ⟨given, readable.compared⟩]; rfl, ?_⟩
    rw [← mul_comm_div]
    exact within_total (bps interval avgBytes) inRange any counted (fun group member =>
      ⟨countsBps group (positive member), (columns group (positive member)).2⟩) (by positivity)
      fun sum nonneg => near_bps intervalPositive nonneg
  · intro group moved'
    have stored := mem_groupSums inRange.firstSmall inRange.secondSmall (inRange.deltas group)
      moved' (readable.groups group moved').1
    refine ⟨(group, csvRow awk interval avgBytes group (groupDelta first second group)), ?_, rfl,
      countsMps group moved', countsBps group moved'⟩
    rw [groupRows_eq inRange any]
    exact List.mem_map.mpr ⟨group, List.mem_filter.mpr
      ⟨any.mem_iff.mpr (Dict.mem_keys.mpr ⟨_, stored⟩), decide_eq_true moved'⟩, rfl⟩

/-- A group without commas that is in both totals has passed through the text unharmed. -/
theorem readable_of_counted (intervalPositive : 0 < interval) (given : 0 < avgBytes)
    (inRange : InRange first second interval avgBytes) {group : List Char} (noComma : ',' ∉ group)
    {row : List Char × List Char}
    (member : row ∈ groupRows awk interval avgBytes (groupSums first.text second.text) order)
    (same : row.1 = group) (counts : countsBytes row.2) :
    group ≠ "GROUP".toList ∧ Plain awk (bps interval avgBytes (groupDelta first second group)) := by
  -- The fourth column of the row is the number of bytes, and it has counted.
  subst same
  obtain ⟨-, sum, stored, positive, made⟩ := mem_groupRows.mp member
  obtain ⟨counted, sum_eq⟩ := sum_eq_groupDelta inRange stored
  have columns := @column_csvRow awk _ _ _ _ given intervalPositive positive.le noComma
  have nonneg := (@near_bps interval avgBytes _ intervalPositive positive.le).1
  rw [made, countsBytes, columns.2, matches_numberText_iff nonneg, sum_eq] at counts
  exact ⟨counted, counts⟩

/-- A sample of a group that has read one partition up to an offset. -/
def ordersAt (offset : ℕ) : Sample where
  first := .blank [] (by simp)
  lines := [.heading (.header "TOPIC PARTITION CURRENT-OFFSET".toList), .partition
    { group := "orders".toList
      topic := ⟨"events".toList, by decide, List.all_eq_true.mp rfl⟩
      partition := 0
      offset := some offset
      gaps := (0, 0, 0)
      rest := []
      nonempty := by decide
      solid := List.forall_iff_forall_mem.mp (by decide)
      apart := by simp }]
  distinct := List.nodup_singleton _

/-- The group moves on by the difference of its offsets. -/
theorem groupDelta_orders (old new : ℕ) (group : List Char) :
    groupDelta (ordersAt old) (ordersAt new) group =
      if group = "orders".toList then new - old else 0 := by
  -- There is one row, and it is that of the group `orders`.
  by_cases same : group = "orders".toList
  · subst same
    rfl
  · have other : (rows (ordersAt new).lines).filter (fun row => row.group = group) = [] := by
      rw [List.filter_eq_nil_iff]
      intro row member
      have only : row.group = "orders".toList := by
        rw [List.mem_singleton.mp member]
      rw [only, decide_eq_true_eq]
      exact Ne.symm same
    rw [groupDelta, other, if_neg same]
    rfl

/-- The numbers of the group are in range. -/
theorem inRange_orders {new avgBytes : ℕ} (small : new ≤ 2 ^ 53)
    (rate : (avgBytes : ℚ) * (new / 10) ≤ 2 ^ 1000) :
    InRange (ordersAt 0) (ordersAt new) 10 avgBytes where
  firstSmall := by
    intro row member offset known
    rw [List.mem_singleton.mp member] at known
    exact Option.some.inj known ▸ Nat.zero_le _
  secondSmall := by
    intro row member offset known
    rw [List.mem_singleton.mp member] at known
    exact Option.some.inj known ▸ small
  deltas := by
    intro group
    rw [groupDelta_orders]
    split <;> omega
  intervals := by decide +kernel
  rate := by
    -- There is one partition, and it began at zero.
    have moved : totalDelta (ordersAt 0) (ordersAt new) = new := by
      show new - 0 + 0 = new
      omega
    rw [moved]
    exact rate

end Totals

/-- An awk that prints whole numbers of 32 bits in full, as old versions of mawk do. -/
def mawk : Awk := ⟨2 ^ 31, by decide⟩

/-- Also a rate that would be whole if the arithmetic were exact is printed with an exponent. -/
example : numberText mawk (bps 10 1000 10241) = "1.0241e+06".toList := by decide +kernel

end AivenExamples.Throughput
