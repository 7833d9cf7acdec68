import Mathlib.Data.List.Basic
import Mathlib.Data.List.Infix

/-! Regular expressions without alternatives: their syntax, their language and a greedy matcher. -/

namespace AivenExamples.Regex

/-! ### Syntax -/

/-- A set of characters: inside, or outside, of some ranges. -/
structure CharSet where
  negated : Bool
  ranges : List (Char × Char)
  deriving DecidableEq

/-- Whether a character is in the set. -/
def CharSet.has (set : CharSet) (char : Char) : Bool :=
  (set.ranges.any fun range => range.1 ≤ char && char ≤ range.2) != set.negated

/-- The set of one character. -/
def CharSet.single (char : Char) : CharSet := ⟨false, [(char, char)]⟩

/-- `.`: every character but the end of a line. -/
def CharSet.dot : CharSet := ⟨true, [('\n', '\n')]⟩

/-- `[0-9]` -/
def CharSet.digit : CharSet := ⟨false, [('0', '9')]⟩

/-- How often a character of a set may come in a row. -/
inductive Times where
  | one
  /-- `?` -/
  | maybe
  /-- `*` -/
  | many
  /-- `+` -/
  | some
  deriving DecidableEq

/-- One part of an expression. -/
inductive Piece where
  | start
  | finish
  | openGroup
  | closeGroup
  | item (set : CharSet) (times : Times)
  deriving DecidableEq

/-- Basic expressions escape their groups; extended ones escape inside of brackets too. -/
inductive Dialect where
  | basic
  | extended
  deriving DecidableEq

/-- What the text of an expression consists of. -/
inductive Token where
  | piece (piece : Piece)
  | times (times : Times)
  deriving DecidableEq

/-- Where the reader of an expression is; a bracket keeps its content in reverse. -/
inductive Mode where
  | plain
  | escape
  | bracket (negated : Bool) (content : List (Option Char))
  | bracketEscape (negated : Bool) (content : List (Option Char))

/-- A character that stands for itself. -/
def Token.literal (char : Char) : Token := .piece (.item (.single char) .one)

/-- The ranges in a bracket, whose hyphens are given as nothing. -/
def bracketRanges : List (Option Char) → List (Char × Char)
  | some low :: none :: some high :: rest => (low, high) :: bracketRanges rest
  | some char :: rest => (char, char) :: bracketRanges rest
  | none :: rest => ('-', '-') :: bracketRanges rest
  | [] => []

/-- A character of a bracket, where only a hyphen may be something else. -/
def bracketChar (char : Char) : Option Char := if char = '-' then none else some char

/-- The tokens of an expression, unless it has alternatives, counts or classes by name. -/
def tokens (dialect : Dialect) : Mode → List Char → Option (List Token)
  | .plain, [] => some []
  | .plain, '\\' :: rest => tokens dialect .escape rest
  | .plain, '[' :: '^' :: rest => tokens dialect (.bracket true []) rest
  | .plain, '[' :: rest => tokens dialect (.bracket false []) rest
  | .plain, char :: rest => do
    let others ← tokens dialect .plain rest
    match char with
    | '.' => return .piece (.item .dot .one) :: others
    | '*' => return .times .many :: others
    | _ =>
      if dialect = .basic then
        -- Anchors are only those at the ends.
        if char = '$' ∧ rest = [] then return .piece .finish :: others
        else return .literal char :: others
      else
        match char with
        | '^' => return .piece .start :: others
        | '$' => return .piece .finish :: others
        | '+' => return .times .some :: others
        | '?' => return .times .maybe :: others
        | '(' => return .piece .openGroup :: others
        | ')' => return .piece .closeGroup :: others
        | '|' => none
        | '{' => none
        | _ => return .literal char :: others
  | .escape, [] => none
  | .escape, char :: rest => do
    let others ← tokens dialect .plain rest
    if char.isAlphanum then none
    else if dialect = .basic ∧ char = '(' then return .piece .openGroup :: others
    else if dialect = .basic ∧ char = ')' then return .piece .closeGroup :: others
    else if dialect = .basic ∧ char ∈ ['{', '}', '|', '+', '?'] then none
    else return .literal char :: others
  -- A bracket that is never closed is no expression.
  | .bracket _ _, [] => none
  | .bracket negated content, char :: rest =>
    if char = ']' ∧ content ≠ [] then do
      let others ← tokens dialect .plain rest
      return .piece (.item ⟨negated, bracketRanges content.reverse⟩ .one) :: others
    else if char = '\\' ∧ dialect = .extended then
      tokens dialect (.bracketEscape negated content) rest
    else tokens dialect (.bracket negated (bracketChar char :: content)) rest
  | .bracketEscape _ _, [] => none
  | .bracketEscape negated content, char :: rest =>
    tokens dialect (.bracket negated (some char :: content)) rest

/-- The parts of an expression; repetitions belong to the part before them. -/
def pieces : List Token → Option (List Piece)
  | [] => some []
  | .piece (.item set _) :: .times times :: rest => do return .item set times :: (← pieces rest)
  | .piece piece :: rest => do return piece :: (← pieces rest)
  | .times _ :: _ => none

/-- An expression of a dialect. -/
def parse (dialect : Dialect) (text : List Char) : Option (List Piece) :=
  match text with
  | '^' :: rest => do return .start :: (← (tokens dialect .plain rest).bind pieces)
  | _ => (tokens dialect .plain text).bind pieces

example : parse .basic ".*a\\([0-9]*\\)".toList = some [.item .dot .many,
    .item (.single 'a') .one, .openGroup, .item ⟨false, [('0', '9')]⟩ .many, .closeGroup] := by
  decide

/-- The parts for text that stands for itself. -/
def literals (text : List Char) : List Piece := text.map fun char => .item (.single char) .one

/-- A character without a meaning of its own stands for itself. -/
theorem tokens_ordinary {char : Char}
    (ordinary : char ∉ ['\\', '[', '.', '*', '^', '$', '+', '?', '(', ')', '|', '{'])
    (rest : List Char) : tokens .extended .plain (char :: rest) =
      (tokens .extended .plain rest).map (.literal char :: ·) := by
  -- None of the characters with a meaning is tried before the last case.
  simp only [List.mem_cons, List.not_mem_nil, or_false, not_or] at ordinary
  cases others : tokens .extended .plain rest <;> simp [tokens, ordinary, others]

/-- A dot in brackets stands for itself. -/
theorem tokens_bracketDot (rest : List Char) : tokens .extended .plain ('[' :: '.' :: ']' :: rest) =
    (tokens .extended .plain rest).map (.literal '.' :: ·) := by
  cases others : tokens .extended .plain rest <;>
    simp [tokens, others, bracketChar, bracketRanges, Token.literal, CharSet.single]

/-- Literal tokens in front of another part are literal parts in front of it. -/
theorem pieces_literals (text : List Char) (piece : Piece) (others : List Token) :
    pieces (text.map Token.literal ++ .piece piece :: others) =
      (pieces (.piece piece :: others)).map (literals text ++ ·) := by
  induction text with
  | nil => simp [literals]
  | cons char text ih =>
    -- What follows the first literal is a part again, and no repetition.
    have first : pieces ((char :: text).map Token.literal ++ .piece piece :: others) =
        (pieces (text.map Token.literal ++ .piece piece :: others)).map
          (.item (.single char) .one :: ·) := by
      rw [Option.map_eq_bind]
      cases text <;> rfl
    rw [first, ih, Option.map_map]
    rfl

/-! ### Language -/

/-- Whether a repetition may have so many characters. -/
def Times.Allows : Times → Nat → Prop
  | .one, count => count = 1
  | .maybe, count => count ≤ 1
  | .many, _ => True
  | .some, count => 1 ≤ count

/-- The parts of an expression match from a place in a line up to another one. -/
def Matches (line : List Char) : List Piece → List Char → List Char → Prop
  | [], text, rest => text = rest
  | .start :: others, text, rest => text = line ∧ Matches line others text rest
  | .finish :: others, text, rest => text = [] ∧ Matches line others text rest
  | .openGroup :: others, text, rest => Matches line others text rest
  | .closeGroup :: others, text, rest => Matches line others text rest
  | .item set times :: others, text, rest => ∃ taken left, text = taken ++ left ∧
      (∀ char ∈ taken, set.has char) ∧ times.Allows taken.length ∧ Matches line others left rest

/-! ### Matching -/

/-- The text where the group was opened, and what it has captured. -/
structure Group where
  opened : List Char
  captured : List Char
  deriving DecidableEq

/-- As many characters of a set as the rest of the match allows. -/
def greedy {α : Type} (set : CharSet) (next : List Char → Option α) : List Char → Option α
  | [] => next []
  | char :: rest =>
    if set.has char then (greedy set next rest).or (next (char :: rest)) else next (char :: rest)

/-- One character of a set, and the rest of the match behind it. -/
def single {α : Type} (set : CharSet) (next : List Char → Option α) : List Char → Option α
  | [] => none
  | char :: rest => if set.has char then next rest else none

/-- The group and the rest of the line behind a match that starts here. -/
def run (line : List Char) : List Piece → Group → List Char → Option (Group × List Char)
  | [], group, text => some (group, text)
  | .start :: others, group, text => if text = line then run line others group text else none
  | .finish :: others, group, text => if text = [] then run line others group text else none
  | .openGroup :: others, group, text => run line others { group with opened := text } text
  | .closeGroup :: others, group, text =>
    let captured := group.opened.take (group.opened.length - text.length)
    run line others { group with captured := captured } text
  | .item set .one :: others, group, text => single set (run line others group) text
  | .item set .maybe :: others, group, text =>
    (single set (run line others group) text).or (run line others group text)
  | .item set .many :: others, group, text => greedy set (run line others group) text
  | .item set .some :: others, group, text =>
    single set (greedy set (run line others group)) text

/-- A match: what comes before it, its group and what comes behind it. -/
structure Found where
  before : List Char
  captured : List Char
  after : List Char
  deriving DecidableEq

/-- The first match in a line. -/
def search (expression : List Piece) (line : List Char) : Option Found :=
  line.tails.findSome? fun text => (run line expression ⟨[], []⟩ text).map fun found =>
    ⟨line.take (line.length - text.length), found.1.captured, found.2⟩

/-- A match of the whole line. -/
def fullMatch (expression : List Piece) (line : List Char) : Bool :=
  (run line (expression ++ [.finish]) ⟨[], []⟩ line).isSome

/-- `s/…/\1/p`: the line with its first match replaced by the group, when there is a match. -/
def substituteGroup (expression : List Piece) (line : List Char) : Option (List Char) :=
  (search expression line).map fun found => found.before ++ found.captured ++ found.after

/-! ### The matcher decides the language -/

section Correctness

variable {α : Type} {set : CharSet} {next : List Char → Option α} {text : List Char}

/-- A repetition succeeds when the rest of the match does behind some of its characters. -/
theorem greedy_isSome_iff : (greedy set next text).isSome ↔
    ∃ taken left, text = taken ++ left ∧ (∀ char ∈ taken, set.has char) ∧ (next left).isSome := by
  -- Either a character more is taken, or the rest of the match starts here.
  induction text with
  | nil => simp [greedy]
  | cons char rest ih =>
    have here : (next (char :: rest)).isSome → ∃ taken left, char :: rest = taken ++ left ∧
        (∀ char ∈ taken, set.has char) ∧ (next left).isSome :=
      fun fits => ⟨[], char :: rest, rfl, by simp, fits⟩
    rw [greedy]
    split
    · rename_i inside
      rw [Option.isSome_or, Bool.or_eq_true, ih]
      constructor
      · intro either
        rcases either with further | stop
        · obtain ⟨taken, left, split, all, fits⟩ := further
          refine ⟨char :: taken, left, by rw [split, List.cons_append], ?_, fits⟩
          exact List.forall_mem_cons.mpr ⟨inside, all⟩
        · exact here stop
      · intro found
        obtain ⟨taken, left, split, all, fits⟩ := found
        cases taken with
        | nil => exact .inr (split ▸ fits)
        | cons first taken =>
          obtain ⟨-, others⟩ := List.cons.inj split
          exact .inl ⟨taken, left, others, (List.forall_mem_cons.mp all).2, fits⟩
    · rename_i outside
      refine ⟨here, fun found => ?_⟩
      obtain ⟨taken, left, split, all, fits⟩ := found
      cases taken with
      | nil => exact split ▸ fits
      | cons first taken =>
        obtain ⟨same, -⟩ := List.cons.inj split
        exact absurd (all first List.mem_cons_self) (same ▸ outside)

/-- One character of the set and the rest of the match behind it. -/
theorem single_isSome_iff : (single set next text).isSome ↔
    ∃ char left, text = char :: left ∧ set.has char ∧ (next left).isSome := by
  -- Nothing is taken at the end of the line.
  cases text with
  | nil => simp [single]
  | cons char rest =>
    rw [single]
    split <;> simp [*]

/-- Exactly one character of the set and the rest of the match behind it. -/
theorem one_isSome_iff : (single set next text).isSome ↔
    ∃ taken left, text = taken ++ left ∧ (∀ char ∈ taken, set.has char) ∧
      Times.one.Allows taken.length ∧ (next left).isSome := by
  -- A text of length one is its only character.
  rw [single_isSome_iff]
  constructor
  · intro found
    obtain ⟨char, left, split, inside, fits⟩ := found
    exact ⟨[char], left, split, by simpa using inside, rfl, fits⟩
  · intro found
    obtain ⟨taken, left, split, all, one, fits⟩ := found
    obtain ⟨char, same⟩ := List.length_eq_one_iff.mp one
    subst same
    exact ⟨char, left, split, all char List.mem_cons_self, fits⟩

/-- One character of the set, or the rest of the match right away. -/
theorem maybe_isSome_iff : ((single set next text).or (next text)).isSome ↔
    ∃ taken left, text = taken ++ left ∧ (∀ char ∈ taken, set.has char) ∧
      Times.maybe.Allows taken.length ∧ (next left).isSome := by
  rw [Option.isSome_or, Bool.or_eq_true, single_isSome_iff]
  constructor
  · intro either
    rcases either with found | fits
    · obtain ⟨char, left, split, inside, fits⟩ := found
      exact ⟨[char], left, split, by simpa using inside, Nat.le_refl 1, fits⟩
    · exact ⟨[], text, rfl, by simp, Nat.zero_le 1, fits⟩
  · intro found
    obtain ⟨taken, left, split, all, few, fits⟩ := found
    cases taken with
    | nil => exact .inr (split ▸ fits)
    | cons char more =>
      -- A second character would be too many.
      have none : more = [] :=
        List.eq_nil_of_length_eq_zero (Nat.le_zero.mp (Nat.le_of_succ_le_succ few))
      subst none
      exact .inl ⟨char, left, split, all char List.mem_cons_self, fits⟩

/-- One character of the set, as many more of it as can be, and the rest of the match. -/
theorem some_isSome_iff : (single set (greedy set next) text).isSome ↔
    ∃ taken left, text = taken ++ left ∧ (∀ char ∈ taken, set.has char) ∧
      Times.some.Allows taken.length ∧ (next left).isSome := by
  -- The first character is taken apart from those that may follow.
  simp only [single_isSome_iff, greedy_isSome_iff]
  constructor
  · intro found
    obtain ⟨char, _, split, inside, taken, left, more, all, fits⟩ := found
    refine ⟨char :: taken, left, by rw [split, more, List.cons_append], ?_, ?_, fits⟩
    · exact List.forall_mem_cons.mpr ⟨inside, all⟩
    · exact Nat.le_add_left 1 _
  · intro found
    obtain ⟨taken, left, split, all, atLeast, fits⟩ := found
    cases taken with
    | nil => exact absurd atLeast (Nat.not_succ_le_zero 0)
    | cons char more =>
      obtain ⟨inside, others⟩ := List.forall_mem_cons.mp all
      exact ⟨char, more ++ left, split, inside, more, left, rfl, others, fits⟩

end Correctness

/-- An item is matched by as many characters as its repetition allows, and by the others. -/
theorem run_item_isSome_iff {line : List Char} {set : CharSet} {times : Times}
    {others : List Piece} {group : Group} {text : List Char} :
    (run line (.item set times :: others) group text).isSome ↔
      ∃ taken left, text = taken ++ left ∧ (∀ char ∈ taken, set.has char) ∧
        times.Allows taken.length ∧ (run line others group left).isSome := by
  -- The lemmas on the four repetitions say the same of different counts.
  cases times with
  | one => rw [run, one_isSome_iff]
  | maybe => rw [run, maybe_isSome_iff]
  | many => simp only [run, greedy_isSome_iff, Times.Allows, true_and]
  | some => rw [run, some_isSome_iff]

/-- The matcher finds a match exactly where the expression has one. -/
theorem run_isSome_iff (line : List Char) (expression : List Piece) (group : Group)
    (text : List Char) :
    (run line expression group text).isSome ↔ ∃ rest, Matches line expression text rest := by
  -- The group does not matter for whether there is a match.
  induction expression generalizing group text with
  | nil => simp [run, Matches]
  | cons piece others ih =>
    cases piece with
    | start =>
      simp only [run, Matches]
      split <;> simp [*]
    | finish =>
      simp only [run, Matches]
      split <;> simp [*]
    | openGroup => exact ih _ text
    | closeGroup => exact ih _ text
    | item set times =>
      -- What is left behind the characters of the item is matched by the others.
      simp only [run_item_isSome_iff, Matches, ih]
      constructor
      · intro found
        obtain ⟨taken, left, split, all, allowed, rest, others⟩ := found
        exact ⟨rest, taken, left, split, all, allowed, others⟩
      · intro found
        obtain ⟨rest, taken, left, split, all, allowed, others⟩ := found
        exact ⟨taken, left, split, all, allowed, rest, others⟩

/-- The parts of two expressions in a row match one after the other. -/
theorem matches_append {line : List Char} {first second : List Piece} {text rest : List Char} :
    Matches line (first ++ second) text rest ↔
      ∃ middle, Matches line first text middle ∧ Matches line second middle rest := by
  -- The first expression is taken apart from its start.
  induction first generalizing text with
  | nil => simp [Matches]
  | cons piece others ih =>
    cases piece with
    | item set times =>
      simp only [List.cons_append, Matches, ih]
      constructor
      · intro found
        obtain ⟨taken, left, split, all, allowed, middle, before, after⟩ := found
        exact ⟨middle, ⟨taken, left, split, all, allowed, before⟩, after⟩
      · intro found
        obtain ⟨middle, ⟨taken, left, split, all, allowed, before⟩, after⟩ := found
        exact ⟨taken, left, split, all, allowed, middle, before, after⟩
    | _ => simp [Matches, ih, and_assoc]

/-- A line matches as a whole when the parts match from its start to its end. -/
theorem fullMatch_iff {expression : List Piece} {line : List Char} :
    fullMatch expression line ↔ Matches line expression line [] := by
  -- The anchor at the end leaves nothing of the line.
  rw [fullMatch, run_isSome_iff]
  simp only [matches_append, Matches]
  constructor
  · intro found
    obtain ⟨rest, middle, whole, empty, -⟩ := found
    exact empty ▸ whole
  · intro whole
    exact ⟨[], [], whole, rfl, rfl⟩

/-- A search succeeds when the parts match somewhere in the line. -/
theorem search_isSome_iff {expression : List Piece} {line : List Char} :
    (search expression line).isSome ↔
      ∃ before text rest, line = before ++ text ∧ Matches line expression text rest := by
  -- The places in a line are its tails, from the first to the last.
  rw [search, List.findSome?_isSome_iff]
  simp only [List.mem_tails, Option.isSome_map, run_isSome_iff]
  constructor
  · intro found
    obtain ⟨text, ⟨before, split⟩, rest, there⟩ := found
    exact ⟨before, text, rest, split.symm, there⟩
  · intro found
    obtain ⟨before, text, rest, split, there⟩ := found
    exact ⟨text, ⟨before, split.symm⟩, rest, there⟩

/-- Between anchors a search is for a match of the whole line. -/
theorem search_anchored {expression : List Piece} {line : List Char} :
    (search (.start :: (expression ++ [.finish])) line).isSome ↔
      Matches line expression line [] := by
  -- The anchors leave no other place than the whole line.
  rw [search_isSome_iff]
  simp only [Matches, matches_append]
  constructor
  · intro found
    obtain ⟨before, text, rest, -, same, middle, whole, empty, -⟩ := found
    rw [same, empty] at whole
    exact whole
  · intro whole
    exact ⟨[], line, [], rfl, rfl, [], whole, rfl, rfl⟩

/-! ### Literal text -/

/-- A set of single characters has those and no others. -/
theorem has_list {chars : List Char} {other : Char} :
    (CharSet.mk false (chars.map fun char => (char, char))).has other ↔ other ∈ chars := by
  simp only [CharSet.has, Bool.bne_false, List.any_map, List.any_eq_true, Function.comp_apply,
    Bool.and_eq_true, decide_eq_true_eq]
  constructor
  · -- A range of one character holds nothing else.
    intro found
    obtain ⟨char, member, low, high⟩ := found
    exact Char.le_antisymm low high ▸ member
  · intro member
    exact ⟨other, member, Char.le_refl _, Char.le_refl _⟩

/-- The set of one character has no other one. -/
@[simp] theorem has_single {char other : Char} : (CharSet.single char).has other ↔ char = other :=
  (@has_list [char] other).trans (List.mem_singleton.trans eq_comm)

/-- Literal parts match their own text. -/
theorem matches_literals {line text word rest : List Char} {others : List Piece} :
    Matches line (literals word ++ others) text rest ↔
      ∃ left, text = word ++ left ∧ Matches line others left rest := by
  -- Each literal part takes one character, which is its own.
  induction word generalizing text with
  | nil => simp [literals]
  | cons char word ih =>
    have unfolded : literals (char :: word) ++ others =
        .item (.single char) .one :: (literals word ++ others) := rfl
    simp only [unfolded, Matches, ih, Times.Allows]
    constructor
    · intro found
      obtain ⟨taken, left, split, all, one, behind, same, there⟩ := found
      obtain ⟨first, single⟩ := List.length_eq_one_iff.mp one
      subst single
      have agree := has_single.mp (all first List.mem_cons_self)
      exact ⟨behind, by rw [split, same, agree]; rfl, there⟩
    · intro found
      obtain ⟨left, split, there⟩ := found
      exact ⟨[char], word ++ left, split, by simp, rfl, left, rfl, there⟩

/-- Literal parts alone take exactly their text. -/
theorem matches_word {line text word rest : List Char} :
    Matches line (literals word) text rest ↔ text = word ++ rest := by
  have whole := @matches_literals line text word rest []
  simpa [Matches] using whole

/-- An anchored text is found in the lines that begin with it. -/
theorem search_start {line word : List Char} :
    (search (.start :: literals word) line).isSome ↔ word <+: line := by
  -- The anchor leaves only the match at the start of the line.
  rw [search_isSome_iff]
  simp only [Matches, matches_word]
  constructor
  · intro found
    obtain ⟨before, text, rest, -, whole, same⟩ := found
    exact ⟨rest, by rw [← same, whole]⟩
  · intro beginning
    obtain ⟨rest, split⟩ := beginning
    exact ⟨[], line, rest, rfl, rfl, split.symm⟩

/-- A text is found in the lines that have it in them. -/
theorem search_literals {line word : List Char} :
    (search (literals word) line).isSome ↔ word <:+: line := by
  -- The match may be anywhere, and the text behind it is free.
  rw [search_isSome_iff]
  simp only [matches_word]
  constructor
  · intro found
    obtain ⟨before, text, rest, split, same⟩ := found
    exact ⟨before, rest, by rw [split, same, List.append_assoc]⟩
  · intro inside
    obtain ⟨before, rest, split⟩ := inside
    exact ⟨before, _, rest, by rw [← split, List.append_assoc], rfl⟩

/-- In a line the dot stands for every character. -/
theorem has_dot {char : Char} : CharSet.dot.has char ↔ char ≠ '\n' := by
  -- The line break is the only character that is left out.
  constructor
  · intro inside same
    subst same
    exact absurd inside (by decide)
  · intro other
    have outside : (decide ('\n' ≤ char) && decide (char ≤ '\n')) = false := by
      by_contra both
      rw [Bool.not_eq_false, Bool.and_eq_true, decide_eq_true_eq, decide_eq_true_eq] at both
      exact other (Char.le_antisymm both.2 both.1)
    simp only [CharSet.has, CharSet.dot, List.any_cons, List.any_nil, Bool.or_false, outside]
    rfl

/-- The digits are what is between the first and the last one of them. -/
theorem has_digit {char : Char} : CharSet.digit.has char ↔ char.isDigit := by
  simp only [CharSet.has, CharSet.digit, List.any_cons, List.any_nil, Bool.or_false, Bool.bne_false,
    Bool.and_eq_true, decide_eq_true_eq, Char.isDigit, Char.le_def]

/-- `.*` takes any text of a line. -/
theorem matches_dots {line text rest : List Char} {others : List Piece} (noBreak : '\n' ∉ text) :
    Matches line (.item .dot .many :: others) text rest ↔
      ∃ taken left, text = taken ++ left ∧ Matches line others left rest := by
  simp only [Matches, Times.Allows, true_and]
  constructor
  · intro found
    obtain ⟨taken, left, split, -, there⟩ := found
    exact ⟨taken, left, split, there⟩
  · intro found
    obtain ⟨taken, left, split, there⟩ := found
    -- Only the end of a line is no dot, and it is not in the text.
    refine ⟨taken, left, split, fun char member => has_dot.mpr fun same => ?_, there⟩
    exact noBreak (split ▸ List.mem_append_left _ (same ▸ member))

end AivenExamples.Regex
