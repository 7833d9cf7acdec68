import AivenExamples.Data.Fields
import AivenExamples.Data.Regex

/-! What is cut out of a line behind the last place where a name and a mark stand. -/

namespace AivenExamples.Regex

/-! ### Names with any character in some places -/

/-- Each character of a text is in its own set. -/
def fits : List CharSet → List Char → Bool
  | [], [] => true
  | set :: sets, char :: text => set.has char && fits sets text
  | _, _ => false

/-- A text ends with characters of the sets. -/
def endsWith (sets : List CharSet) (text : List Char) : Bool := text.tails.any (fits sets)

/-- A name in which the dots stand for any characters. -/
def dotted (name : List Char) : List CharSet :=
  name.map fun char => if char = '.' then .dot else .single char

/-- The parts for one character of each set. -/
def characters (sets : List CharSet) : List Piece := sets.map fun set => .item set .one

/-- `.*name=\(…*\).*`, where the mark stands for the equals sign. -/
def valueBehind (sets : List CharSet) (mark : Char) (value : CharSet) : List Piece :=
  .item .dot .many :: (characters (sets ++ [.single mark]) ++
    [.openGroup, .item value .many, .closeGroup, .item .dot .many])

variable {sets first second : List CharSet} {value : CharSet} {mark : Char}
variable {line text tail before rest : List Char}

/-- A text that fits is as long as the name. -/
theorem length_of_fits (fit : fits sets text) : text.length = sets.length := by
  -- There is one set for each character.
  induction sets generalizing text with
  | nil =>
    cases text with
    | nil => rfl
    | cons char text => exact absurd fit (by simp [fits])
  | cons set sets ih =>
    cases text with
    | nil => exact absurd fit (by simp [fits])
    | cons char text =>
      rw [fits, Bool.and_eq_true] at fit
      rw [List.length_cons, List.length_cons, ih fit.2]

/-- Texts of the right lengths fit one after the other. -/
theorem fits_append (length : text.length = first.length) :
    fits (first ++ second) (text ++ tail) = (fits first text && fits second tail) := by
  -- The first sets are used up when the first text is.
  induction first generalizing text with
  | nil =>
    rw [List.eq_nil_of_length_eq_zero length]
    simp [fits]
  | cons set first ih =>
    cases text with
    | nil => exact absurd length (by simp)
    | cons char text =>
      have shorter : text.length = first.length := Nat.succ.inj length
      simp only [List.cons_append, fits, ih shorter, Bool.and_assoc]

/-- What fits two names in a row is a text for the first and one for the second. -/
theorem fits_append_split (fit : fits (first ++ second) text) :
    ∃ start finish, text = start ++ finish ∧ fits first start ∧ fits second finish := by
  -- The text is cut where the first name ends.
  have length := length_of_fits fit
  rw [List.length_append] at length
  have start : (text.take first.length).length = first.length := by
    rw [List.length_take]
    omega
  rw [← List.take_append_drop first.length text, fits_append start, Bool.and_eq_true] at fit
  exact ⟨_, _, (List.take_append_drop first.length text).symm, fit.1, fit.2⟩

/-- A text ends in a name when its last characters fit it. -/
theorem endsWith_iff :
    endsWith sets text ↔ ∃ before word, text = before ++ word ∧ fits sets word := by
  -- A tail of the text is what is left behind some of it.
  simp only [endsWith, List.any_eq_true, List.mem_tails]
  constructor
  · intro found
    obtain ⟨word, ⟨before, split⟩, fit⟩ := found
    exact ⟨before, word, split.symm, fit⟩
  · intro found
    obtain ⟨before, word, split, fit⟩ := found
    exact ⟨word, ⟨before, split.symm⟩, fit⟩

/-- The last characters of a text are compared with the last sets. -/
theorem endsWith_append (length : tail.length = second.length) :
    endsWith (first ++ second) (text ++ tail) = (endsWith first text && fits second tail) := by
  -- The last characters are as many as the last sets.
  rw [Bool.eq_iff_iff, Bool.and_eq_true, endsWith_iff, endsWith_iff]
  constructor
  · intro found
    obtain ⟨before, word, split, fit⟩ := found
    obtain ⟨start, finish, whole, left, right⟩ := fits_append_split fit
    rw [whole, ← List.append_assoc] at split
    have same : tail.length = finish.length := length.trans (length_of_fits right).symm
    obtain ⟨text_eq, tail_eq⟩ := List.append_inj' split same
    exact ⟨⟨before, start, text_eq, left⟩, tail_eq ▸ right⟩
  · intro found
    obtain ⟨⟨before, word, split, left⟩, right⟩ := found
    refine ⟨before, word ++ tail, by rw [split, List.append_assoc], ?_⟩
    rw [fits_append (length_of_fits left), left, right, Bool.and_true]

/-- A text that ends with other characters does not end with the name. -/
theorem endsWith_other (length : tail.length = second.length) (other : fits second tail = false) :
    endsWith (first ++ second) (text ++ tail) = false := by
  rw [endsWith_append length, other, Bool.and_false]

/-- A character that the name has no place for separates it from what stands before. -/
theorem endsWith_separated {sep : Char} (apart : ∀ front set back, sets = front ++ set :: back →
    set.has sep → fits back tail = false) :
    endsWith sets (text ++ sep :: tail) = endsWith sets tail := by
  -- What fits does not reach across the separator.
  have across (more : List Char) : ¬fits sets (more ++ sep :: tail) := by
    intro fit
    have length := length_of_fits fit
    rw [List.length_append] at length
    have start : more.length = (sets.take more.length).length := by
      rw [List.length_take]
      omega
    rw [← List.take_append_drop more.length sets, fits_append start, Bool.and_eq_true] at fit
    cases behind : sets.drop more.length with
    | nil => simp [behind, fits] at fit
    | cons set back =>
      have split := List.take_append_drop more.length sets
      rw [behind] at split fit
      rw [fits, Bool.and_eq_true] at fit
      rw [apart _ set back split.symm fit.2.1] at fit
      exact Bool.noConfusion fit.2.2
  rw [Bool.eq_iff_iff, endsWith_iff, endsWith_iff]
  constructor
  · intro found
    obtain ⟨before, word, split, fit⟩ := found
    rcases List.append_eq_append_iff.mp split with inside | reaching
    · obtain ⟨more, -, whole⟩ := inside
      cases more with
      | nil => exact absurd (whole ▸ fit) (across [])
      | cons char more => exact ⟨more, word, (List.cons.inj whole).2, fit⟩
    · obtain ⟨more, -, whole⟩ := reaching
      exact absurd (whole ▸ fit) (across more)
  · intro found
    obtain ⟨before, word, split, fit⟩ := found
    exact ⟨text ++ sep :: before, word, by rw [split, List.append_assoc, List.cons_append], fit⟩

/-- A name without dots is fitted by itself only. -/
theorem fits_dotted {name : List Char} (noDot : '.' ∉ name) :
    fits (dotted name) text ↔ text = name := by
  -- Without dots every set has a single character.
  induction name generalizing text with
  | nil => cases text <;> simp [dotted, fits]
  | cons char name ih =>
    rw [List.mem_cons, not_or] at noDot
    have unfolded : dotted (char :: name) = .single char :: dotted name := by
      simp [dotted, Ne.symm noDot.1]
    cases text with
    | nil => simp [unfolded, fits]
    | cons first text =>
      rw [unfolded, fits, Bool.and_eq_true, has_single, ih noDot.2, List.cons.injEq,
        @eq_comm _ first]

/-- A text behind a separator ends with two dotted words when it does so on its own. -/
theorem endsWith_dotted {word last : List Char} {sep : Char} (noDot : '.' ∉ word ++ last)
    (noSep : sep ∉ word ++ last) (other : tail ≠ last) :
    endsWith (dotted (word ++ '.' :: last)) (text ++ sep :: tail) =
      endsWith (dotted (word ++ '.' :: last)) tail := by
  have dots {name : List Char} (noDot : '.' ∉ name) : CharSet.dot ∉ dotted name := by
    intro member
    obtain ⟨char, inside, same⟩ := List.mem_map.mp member
    rw [if_neg fun dot : char = '.' => noDot (dot ▸ inside)] at same
    exact absurd same (by simp [CharSet.single, CharSet.dot])
  refine endsWith_separated fun front set back split allowed => ?_
  -- Only the dot has a place for the separator.
  have isDot : set = .dot := by
    have member : set ∈ dotted (word ++ '.' :: last) := split ▸ by simp
    obtain ⟨char, inside, same⟩ := List.mem_map.mp member
    by_cases dot : char = '.'
    · rw [← same, if_pos dot]
    · rw [if_neg dot] at same
      rw [← same, has_single] at allowed
      subst allowed
      simp only [List.mem_append, List.mem_cons, dot, false_or] at inside noSep
      exact absurd inside noSep
  have parts : dotted (word ++ '.' :: last) = dotted word ++ .dot :: dotted last := by
    simp [dotted]
  rw [parts, isDot] at split
  rw [List.mem_append, not_or] at noDot
  rcases Fields.split_mark (dots noDot.1) split with here | later
  · rw [here.2, ← Bool.not_eq_true, fits_dotted noDot.2]
    exact other
  · obtain ⟨between, -, inLast⟩ := later
    exact absurd (inLast ▸ by simp) (dots noDot.2)

/-! ### The last place of a name -/

/-- As much as possible of a line without breaks is skipped. -/
theorem greedy_dots {α : Type} {next : List Char → Option α} (noBreak : '\n' ∉ text) :
    greedy .dot next text = text.tails.reverse.findSome? next := by
  -- The whole text is what is tried last.
  induction text with
  | nil => simp [greedy]
  | cons char text ih =>
    rw [List.mem_cons, not_or] at noBreak
    rw [greedy, if_pos (has_dot.mpr (Ne.symm noBreak.1)), ih noBreak.2, List.tails_cons,
      List.reverse_cons, List.findSome?_append]
    simp

/-- Of the ends of a line the shortest one that succeeds is found. -/
theorem findSome?_tails {α : Type} {next : List Char → Option α} {found : List Char} {result : α}
    (split : line = before ++ found) (success : next found = some result)
    (shorter : ∀ other, other <:+ found → other ≠ found → next other = none) :
    line.tails.reverse.findSome? next = some result := by
  -- What stands before the place is only tried later.
  subst split
  induction before with
  | nil =>
    rw [List.nil_append]
    cases found with
    | nil => simpa using success
    | cons char text =>
      have none : text.tails.reverse.findSome? next = none := by
        rw [List.findSome?_eq_none_iff]
        intro other member
        have suffix : other <:+ text := (List.mem_tails other text).mp (List.mem_reverse.mp member)
        refine shorter other (suffix.trans (List.suffix_cons char text)) fun same => ?_
        have bound := suffix.length_le
        rw [same, List.length_cons] at bound
        omega
      rw [List.tails_cons, List.reverse_cons, List.findSome?_append, none, Option.none_or,
        List.findSome?_singleton, success]
  | cons char before ih =>
    rw [List.cons_append, List.tails_cons, List.reverse_cons, List.findSome?_append, ih,
      Option.some_or]

/-- A repetition takes what it can when the rest of the match always succeeds. -/
theorem greedy_total {α : Type} {next : List Char → Option α} (total : ∀ text, (next text).isSome) :
    greedy value next text = next (text.dropWhile value.has) := by
  -- The rest of the match succeeds behind the longest run of the set already.
  induction text with
  | nil => rfl
  | cons char text ih =>
    rw [greedy]
    split
    · rename_i inside
      rw [ih, Option.or_of_isSome (total _), List.dropWhile_cons_of_pos inside]
    · rename_i outside
      rw [List.dropWhile_cons_of_neg outside]

/-- Parts for single characters match what fits, and nothing else. -/
theorem run_characters {others : List Piece} {group : Group} :
    run line (characters sets ++ others) group text =
      if fits sets (text.take sets.length) then run line others group (text.drop sets.length)
      else none := by
  -- Each part takes a character of its set, or the match fails.
  induction sets generalizing text with
  | nil => simp [characters, fits]
  | cons set sets ih =>
    have unfolded : characters (set :: sets) ++ others =
        .item set .one :: (characters sets ++ others) := rfl
    rw [unfolded, run]
    cases text with
    | nil => simp [single, fits]
    | cons char text =>
      by_cases inside : set.has char
      · simp [single, fits, inside, ih]
      · simp [single, fits, inside]

/-- The group takes the characters of the value, and the rest of the line is skipped. -/
theorem run_group (noBreak : '\n' ∉ rest) (group : Group) :
    run line [.openGroup, .item value .many, .closeGroup, .item .dot .many] group rest =
      some (⟨rest, rest.takeWhile value.has⟩, []) := by
  -- The repetition stops at the first other character, and the dots take what is left.
  have skipped {text : List Char} {group : Group} (noBreak : '\n' ∉ text) :
      run line [.item .dot .many] group text = some (group, []) := by
    rw [run, greedy_dots noBreak]
    exact findSome?_tails (List.append_nil text).symm rfl fun other suffix ne =>
      absurd (List.suffix_nil.mp suffix) ne
  have total (text : List Char) :
      (run line [.closeGroup, .item .dot .many] ⟨rest, group.captured⟩ text).isSome := by
    rw [run_isSome_iff]
    exact ⟨text, [], text, rfl, by simp, trivial, rfl⟩
  have dropped : '\n' ∉ rest.dropWhile value.has :=
    fun member => noBreak ((List.dropWhile_suffix _).mem member)
  have length : rest.length - (rest.dropWhile value.has).length =
      (rest.takeWhile value.has).length := by
    have whole := congrArg List.length (@List.takeWhile_append_dropWhile _ value.has rest)
    rw [List.length_append] at whole
    omega
  rw [run, run, greedy_total total, run, skipped dropped, length,
    ← List.prefix_iff_eq_take.mp (List.takeWhile_prefix _)]

/-- There is no match where the text does not go on with the name and the mark. -/
theorem run_unnamed {others : List Piece} {group : Group}
    (unnamed : ∀ word left, text = word ++ mark :: left → fits sets word = false) :
    run line (characters (sets ++ [.single mark]) ++ others) group text = none := by
  -- The mark stands behind the characters that fit the name.
  rw [run_characters, if_neg]
  intro fit
  obtain ⟨word, finish, split, left, right⟩ := fits_append_split fit
  obtain ⟨char, single⟩ := List.length_eq_one_iff.mp (length_of_fits right)
  have same : mark = char := by simpa [single, fits] using right
  have whole := List.take_append_drop (sets ++ [CharSet.single mark]).length text
  rw [split, single, ← same, List.append_assoc] at whole
  rw [unnamed word _ whole.symm] at left
  exact Bool.noConfusion left

/-- Nothing is cut out of a line without the name and the mark. -/
theorem valueBehind_none (noBreak : '\n' ∉ line)
    (nowhere : ∀ before rest, line = before ++ mark :: rest → endsWith sets before = false) :
    substituteGroup (valueBehind sets mark value) line = none := by
  have none : search (valueBehind sets mark value) line = none := by
    rw [search, List.findSome?_eq_none_iff]
    intro text member
    have suffix := (List.mem_tails text line).mp member
    rw [valueBehind, run, greedy_dots fun inside => noBreak (suffix.mem inside)]
    have none : text.tails.reverse.findSome? (run line (characters (sets ++ [.single mark]) ++
        [.openGroup, .item value .many, .closeGroup, .item .dot .many]) ⟨[], []⟩) = none := by
      rw [List.findSome?_eq_none_iff]
      intro other member
      have farther := (List.mem_tails other text).mp (List.mem_reverse.mp member)
      obtain ⟨before, whole⟩ := farther.trans suffix
      refine run_unnamed fun word left split => ?_
      -- Where the name and the mark stand in an end of the line they stand in the line.
      rw [split, ← List.append_assoc] at whole
      have unnamed := nowhere _ left whole.symm
      by_contra fit
      rw [Bool.not_eq_false] at fit
      rw [endsWith_iff.mpr ⟨before, word, rfl, fit⟩] at unnamed
      exact Bool.noConfusion unnamed
    rw [none, Option.map_none]
  rw [substituteGroup, none, Option.map_none]

/-- Where the name and the mark stand, the value behind them is captured. -/
theorem run_named {word : List Char} (fit : fits sets word) (noBreak : '\n' ∉ rest)
    (group : Group) :
    run line (characters (sets ++ [.single mark]) ++
      [.openGroup, .item value .many, .closeGroup, .item .dot .many]) group (word ++ mark :: rest) =
        some (⟨rest, rest.takeWhile value.has⟩, []) := by
  -- The name and the mark are taken character by character, and the group begins behind them.
  have length : (word ++ [mark]).length = (sets ++ [CharSet.single mark]).length := by
    simp [length_of_fits fit]
  have shape : word ++ mark :: rest = word ++ [mark] ++ rest := by simp
  have both : fits (sets ++ [.single mark]) (word ++ [mark]) := by
    rw [fits_append (length_of_fits fit), fit]
    simp [fits]
  rw [run_characters, shape, List.take_left' length, List.drop_left' length, if_pos both,
    run_group noBreak]

/-- A later place of the name and the mark has its mark in what stands behind the first place. -/
theorem later_place {word later left : List Char} (fit : fits sets word) (fitting : fits sets later)
    (suffix : later ++ mark :: left <:+ word ++ mark :: rest)
    (other : later ++ mark :: left ≠ word ++ mark :: rest) :
    ∃ between, rest = between ++ mark :: left ∧ endsWith sets (word ++ mark :: between) := by
  -- Both places are as long as the name, so the later mark is behind the earlier one.
  have shorter := Nat.lt_of_le_of_ne suffix.length_le fun same => other (suffix.eq_of_length same)
  have lengths := (length_of_fits fit).trans (length_of_fits fitting).symm
  simp only [List.length_append, lengths, List.length_cons] at shorter
  have ending : mark :: left <:+ word ++ mark :: rest := (List.suffix_append later _).trans suffix
  have restEnding : rest <:+ word ++ mark :: rest :=
    (List.suffix_cons mark rest).trans (List.suffix_append word _)
  obtain ⟨between, inRest⟩ :=
    List.suffix_of_suffix_length_le ending restEnding (by rw [List.length_cons]; omega)
  obtain ⟨first, position⟩ := suffix
  have twice : word ++ mark :: between ++ mark :: left = first ++ later ++ mark :: left := by
    rw [List.append_assoc, List.cons_append, inRest, List.append_assoc, position]
  refine ⟨between, inRest.symm, ?_⟩
  rw [List.append_cancel_right twice]
  exact endsWith_iff.mpr ⟨first, later, rfl, fitting⟩

/-- What is cut out is the start of what stands behind the last place of the name and the mark. -/
theorem valueBehind_last (noBreak : '\n' ∉ line) (split : line = before ++ mark :: rest)
    (named : endsWith sets before) (last : ∀ between after, rest = between ++ mark :: after →
      endsWith sets (before ++ mark :: between) = false) :
    substituteGroup (valueBehind sets mark value) line = some (rest.takeWhile value.has) := by
  -- The dots take all that they can, so that the last place of the name is found.
  obtain ⟨start, word, whole, fit⟩ := endsWith_iff.mp named
  have inLine : line = start ++ (word ++ mark :: rest) := by rw [split, whole, List.append_assoc]
  have noBreakBehind : '\n' ∉ rest := fun member => noBreak (by simp [split, member])
  have matched : run line (valueBehind sets mark value) ⟨[], []⟩ line =
      some (⟨rest, rest.takeWhile value.has⟩, []) := by
    rw [valueBehind, run, greedy_dots noBreak]
    refine findSome?_tails inLine (run_named fit noBreakBehind _) fun other suffix ne => ?_
    refine run_unnamed fun later left same => ?_
    by_contra fitting
    rw [Bool.not_eq_false] at fitting
    subst same
    obtain ⟨between, inRest, ending⟩ := later_place fit fitting suffix ne
    obtain ⟨front, tail, split, fit⟩ := endsWith_iff.mp ending
    have unnamed := last between left inRest
    rw [whole, List.append_assoc, split, ← List.append_assoc,
      endsWith_iff.mpr ⟨_, tail, rfl, fit⟩] at unnamed
    exact Bool.noConfusion unnamed
  have found : search (valueBehind sets mark value) line =
      some ⟨[], rest.takeWhile value.has, []⟩ := by
    have tails : line.tails = line :: line.tails.tail := by cases line <;> rfl
    rw [search, tails, List.findSome?_cons, matched, Option.map_some, Nat.sub_self, List.take_zero]
  rw [substituteGroup, found, Option.map_some, List.nil_append, List.append_nil]

end AivenExamples.Regex
