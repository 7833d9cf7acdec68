import AivenExamples.Data.Regex
import AivenExamples.Data.TopicName

/-! The topics that are created for a replication flow and those that it selects. -/

namespace AivenExamples.MirrorMaker

open Regex

/-- A file with a topic name or nothing in each of its lines. -/
structure TopicsFile where
  content : List Char
  lines : ∀ line ∈ content.splitOn '\n', ∀ char ∈ line, legalChar char

/-! ### The Terraform configuration -/

/-- `distinct(compact(split("\n", content)))` -/
def topicList (file : TopicsFile) : List (List Char) :=
  ((file.content.splitOn '\n').filter fun line => line ≠ []).eraseDups

/-- `replace(topic, ".", "[.]")` -/
def escapeDots (topic : List Char) : List Char :=
  topic.flatMap fun char => if char = '.' then ['[', '.', ']'] else [char]

/-- The expressions of the replication flow, one for each topic. -/
def mirrormakerTopicRegexList (file : TopicsFile) : List (List Char) :=
  (topicList file).map fun topic => '^' :: (escapeDots topic ++ ['$'])

/-- `topics_blacklist` of the replication flow. -/
def topicsBlacklist : List (List Char) :=
  [".*[\\-\\.]internal".toList, ".*\\.replica".toList, "__.*".toList, "connect.*".toList]

/-- A destination topic of this name is created. -/
def Created (file : TopicsFile) (topic : TopicName) : Prop := topic.name ∈ topicList file

/-- The whole name matches an expression. -/
def matchesName (expression : List Char) (name : List Char) : Bool :=
  ((parse .extended expression).map fun parts => fullMatch parts name).getD false

/-- MirrorMaker selects a topic: an expression of the topics matches, and none of the blacklist. -/
def Selected (file : TopicsFile) (topic : TopicName) : Prop :=
  (∃ expression ∈ mirrormakerTopicRegexList file, matchesName expression topic.name) ∧
    ∀ expression ∈ topicsBlacklist, ¬matchesName expression topic.name

/-! ### Names that match -/

/-- The name is one that the blacklist keeps out. -/
def Excluded (topic : TopicName) : Prop :=
  "-internal".toList <:+ topic.name ∨ ".internal".toList <:+ topic.name ∨
    ".replica".toList <:+ topic.name ∨ "__".toList <+: topic.name ∨ "connect".toList <+: topic.name

/-- A legal character other than a dot has no meaning of its own in an expression. -/
theorem ordinary_of_legal {char : Char} (legal : legalChar char) (noDot : char ≠ '.') :
    char ∉ ['\\', '[', '.', '*', '^', '$', '+', '?', '(', ')', '|', '{'] := by
  -- All but the dot are no characters of names.
  intro member
  simp only [List.mem_cons, List.not_mem_nil, or_false] at member
  rcases member with same | same | same | same | same | same | same | same | same | same | same |
    same <;> subst same <;> first | exact absurd legal (by decide) | exact noDot rfl

/-- The escaped name of a topic reads as that name literally. -/
theorem tokens_escapeDots {name : List Char} (legal : ∀ char ∈ name, legalChar char)
    (rest : List Char) : tokens .extended .plain (escapeDots name ++ rest) =
      (tokens .extended .plain rest).map (name.map Token.literal ++ ·) := by
  -- One character after the other, where a dot has been put into brackets.
  induction name with
  | nil => simp [escapeDots]
  | cons char name ih =>
    obtain ⟨first, others⟩ := List.forall_mem_cons.mp legal
    by_cases dot : char = '.'
    · subst dot
      have unfolded : escapeDots ('.' :: name) ++ rest =
          '[' :: '.' :: ']' :: (escapeDots name ++ rest) := rfl
      rw [unfolded, tokens_bracketDot, ih others, Option.map_map]
      rfl
    · have unfolded : escapeDots (char :: name) ++ rest = char :: (escapeDots name ++ rest) := by
        simp [escapeDots, dot]
      rw [unfolded, tokens_ordinary (ordinary_of_legal first dot), ih others, Option.map_map]
      rfl

/-- The expression made of a topic matches the name of that topic only. -/
theorem matches_escaped {topic name : List Char} (legal : ∀ char ∈ topic, legalChar char) :
    matchesName ('^' :: (escapeDots topic ++ ['$'])) name ↔ name = topic := by
  -- The anchors are there, and the escaped name is literal text.
  have parsed : parse .extended ('^' :: (escapeDots topic ++ ['$'])) =
      some (.start :: (literals topic ++ [.finish])) := by
    have finish : tokens .extended .plain ['$'] = some [.piece .finish] := by decide
    simp only [parse, tokens_escapeDots legal, finish, Option.map_some, Option.bind_some,
      pieces_literals]
    rfl
  rw [matchesName, parsed, Option.map_some, Option.getD_some, fullMatch_iff]
  simp only [Matches, matches_literals, true_and]
  constructor
  · intro found
    obtain ⟨left, split, empty, -⟩ := found
    rw [split, empty, List.append_nil]
  · intro same
    exact ⟨[], by rw [same, List.append_nil], rfl, rfl⟩

/-- An expression that goes on literally behind `.*` matches the names with this ending. -/
theorem matches_ending (topic : TopicName) {expression word : List Char}
    (parsed : parse .extended expression = some (.item .dot .many :: literals word)) :
    matchesName expression topic.name ↔ word <:+ topic.name := by
  -- What comes before the ending is free.
  rw [matchesName, parsed, Option.map_some, Option.getD_some, fullMatch_iff,
    matches_dots (topic.not_mem (by decide))]
  simp only [matches_word, List.append_nil]
  constructor
  · intro found
    obtain ⟨taken, left, split, same⟩ := found
    exact ⟨taken, same ▸ split.symm⟩
  · intro ending
    obtain ⟨taken, split⟩ := ending
    exact ⟨taken, word, split.symm, rfl⟩

/-- An expression that is literal up to `.*` matches the names with this beginning. -/
theorem matches_beginning (topic : TopicName) {expression word : List Char}
    (parsed : parse .extended expression = some (literals word ++ [.item .dot .many])) :
    matchesName expression topic.name ↔ word <+: topic.name := by
  -- What comes behind the beginning is free.
  rw [matchesName, parsed, Option.map_some, Option.getD_some, fullMatch_iff, matches_literals]
  constructor
  · intro found
    obtain ⟨left, split, -⟩ := found
    exact ⟨left, split.symm⟩
  · intro beginning
    obtain ⟨left, split⟩ := beginning
    have noBreak : '\n' ∉ left := fun member =>
      (topic.not_mem (by decide)) (split ▸ List.mem_append_right word member)
    exact ⟨left, split.symm, (matches_dots noBreak).mpr ⟨left, [], by simp, rfl⟩⟩

/-- The first expression of the blacklist matches the names of internal topics. -/
theorem matches_internal (topic : TopicName) :
    matchesName ".*[\\-\\.]internal".toList topic.name ↔
      "-internal".toList <:+ topic.name ∨ ".internal".toList <:+ topic.name := by
  have parsed : parse .extended ".*[\\-\\.]internal".toList = some (.item .dot .many ::
      .item ⟨false, [('-', '-'), ('.', '.')]⟩ .one :: literals "internal".toList) := by decide
  have inSet {char : Char} : (CharSet.mk false [('-', '-'), ('.', '.')]).has char ↔
      char = '-' ∨ char = '.' := by
    have listed := @has_list ['-', '.'] char
    simpa using listed
  rw [matchesName, parsed, Option.map_some, Option.getD_some, fullMatch_iff,
    matches_dots (topic.not_mem (by decide))]
  simp only [Matches, matches_word, List.append_nil, Times.Allows]
  constructor
  · intro found
    obtain ⟨before, _, split, taken, left, sign, all, one, same⟩ := found
    obtain ⟨char, single⟩ := List.length_eq_one_iff.mp one
    subst single same sign
    -- The character in front is one of the two in the brackets.
    rcases inSet.mp (all char List.mem_cons_self) with same | same <;> subst same
    · exact .inl ⟨before, split.symm⟩
    · exact .inr ⟨before, split.symm⟩
  · intro either
    rcases either with ending | ending <;> obtain ⟨before, split⟩ := ending
    · exact ⟨before, _, split.symm, ['-'], _, rfl, by simpa using inSet.mpr (.inl rfl), rfl, rfl⟩
    · exact ⟨before, _, split.symm, ['.'], _, rfl, by simpa using inSet.mpr (.inr rfl), rfl, rfl⟩

/-- The blacklist keeps out exactly the excluded names. -/
theorem blacklisted_iff (topic : TopicName) :
    (∃ expression ∈ topicsBlacklist, matchesName expression topic.name) ↔ Excluded topic := by
  -- Each expression of the list is text with `.*` at one of its ends.
  have replica : parse .extended ".*\\.replica".toList =
      some (.item .dot .many :: literals ".replica".toList) := by decide
  have double : parse .extended "__.*".toList =
      some (literals "__".toList ++ [.item .dot .many]) := by decide
  have connect : parse .extended "connect.*".toList =
      some (literals "connect".toList ++ [.item .dot .many]) := by decide
  simp only [topicsBlacklist, List.exists_mem_cons_iff, List.not_mem_nil, false_and, exists_false,
    or_false, matches_internal, matches_ending topic replica, matches_beginning topic double,
    matches_beginning topic connect, Excluded, or_assoc]

/-- A topic is created exactly when its name is a line of the file. -/
theorem created_iff (file : TopicsFile) (topic : TopicName) :
    Created file topic ↔ topic.name ∈ file.content.splitOn '\n' := by
  -- Empty lines are no names, and lines that are there twice are kept once.
  rw [Created, topicList, List.mem_eraseDups, List.mem_filter]
  exact and_iff_left (decide_eq_true topic.nonempty)

/-- Some expression of the flow matches a topic exactly when the topic is created. -/
theorem matched_iff (file : TopicsFile) (topic : TopicName) :
    (∃ expression ∈ mirrormakerTopicRegexList file, matchesName expression topic.name) ↔
      Created file topic := by
  -- Each expression matches the name that it was made of, and no other one.
  have legal : ∀ listed ∈ topicList file, ∀ char ∈ listed, legalChar char := by
    intro listed member
    rw [topicList, List.mem_eraseDups, List.mem_filter] at member
    exact file.lines listed member.1
  constructor
  · intro found
    obtain ⟨expression, made, fits⟩ := found
    obtain ⟨listed, member, same⟩ := List.mem_map.mp made
    subst same
    have name : topic.name = listed := (matches_escaped (legal listed member)).mp fits
    rw [Created, name]
    exact member
  · intro created
    exact ⟨_, List.mem_map.mpr ⟨topic.name, created, rfl⟩,
      (matches_escaped (legal topic.name created)).mpr rfl⟩

/-- A topic is selected exactly when it is created and the blacklist does not keep it out. -/
theorem selected_iff (file : TopicsFile) (topic : TopicName) :
    Selected file topic ↔ Created file topic ∧ ¬Excluded topic := by
  rw [Selected, matched_iff, ← blacklisted_iff]
  simp

/-- A file that lists the offsets topic of Kafka Connect. -/
def connectFile : TopicsFile where
  content := "connect-offsets\n".toList
  lines := by
    have legal : ("connect-offsets\n".toList.splitOn '\n').all fun line => line.all legalChar := by
      decide
    exact fun line member => List.all_eq_true.mp (List.all_eq_true.mp legal line member)

/-- The offsets topic of Kafka Connect. -/
def connectOffsets : TopicName where
  name := "connect-offsets".toList
  nonempty := by decide
  legal := List.all_eq_true.mp rfl

/-- A topic that is listed and created is not selected. -/
theorem created_not_selected :
    Created connectFile connectOffsets ∧ ¬Selected connectFile connectOffsets := by
  -- The name begins with `connect`.
  have excluded : Excluded connectOffsets := .inr (.inr (.inr (.inr (by decide))))
  have listed : connectOffsets.name ∈ connectFile.content.splitOn '\n' := by decide
  refine ⟨(created_iff ..).mpr listed, fun selected => ?_⟩
  obtain ⟨expression, member, fits⟩ := (blacklisted_iff connectOffsets).mpr excluded
  exact selected.2 expression member fits

end AivenExamples.MirrorMaker
