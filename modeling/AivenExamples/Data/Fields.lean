import Mathlib.Data.List.Basic

/-! Lines of text as words between blanks, and the places of a mark in them. -/

namespace AivenExamples.Fields

/-- The characters that separate words in a line. -/
def isBlank (char : Char) : Bool := char = ' ' || char = '\t'

/-- The words between the blanks of a line. -/
def fields (line : List Char) : List (List Char) :=
  (line.splitOnP isBlank).filter fun word => !word.isEmpty

/-- The line without the blanks at its ends. -/
def trim (line : List Char) : List Char :=
  ((line.dropWhile isBlank).reverse.dropWhile isBlank).reverse

/-- Nothing is dropped from the start of a text whose first character is kept. -/
theorem dropWhile_of_head {α : Type} {drop : α → Bool} {text : List α}
    (start : ∀ first ∈ text.head?, drop first = false) : text.dropWhile drop = text := by
  -- The first character decides.
  cases text with
  | nil => rfl
  | cons first rest =>
    rw [List.dropWhile_cons_of_neg]
    simp [start first rfl]

/-- A word: some characters, and no blanks. -/
structure IsWord (word : List Char) : Prop where
  nonempty : word ≠ []
  solid : ∀ char ∈ word, isBlank char = false

instance (word : List Char) : Decidable (IsWord word) :=
  decidable_of_iff (word ≠ [] ∧ word.Forall fun char => isBlank char = false)
    ⟨fun both => ⟨both.1, List.forall_iff_forall_mem.mp both.2⟩,
      fun isWord => ⟨isWord.nonempty, List.forall_iff_forall_mem.mpr isWord.solid⟩⟩

/-- Text of characters that are of a kind to which no blank belongs. -/
theorem solid_of_all {kind : Char → Bool} (noBlank : kind ' ' = false) (noTab : kind '\t' = false)
    {text : List Char} (all : ∀ char ∈ text, kind char) : ∀ char ∈ text, isBlank char = false := by
  -- A blank would have to be of the kind.
  intro char member
  have inside := all char member
  by_contra blank
  rw [Bool.not_eq_false, isBlank, Bool.or_eq_true, decide_eq_true_eq, decide_eq_true_eq] at blank
  rcases blank with same | same <;> subst same
  · exact Bool.false_ne_true (noBlank.symm.trans inside)
  · exact Bool.false_ne_true (noTab.symm.trans inside)

/-- The digits of a number are a word. -/
theorem toDigits_isWord (number : Nat) : IsWord (Nat.toDigits 10 number) :=
  ⟨Nat.toDigits_ne_nil, @solid_of_all Char.isDigit rfl rfl _ fun _ member =>
    Nat.isDigit_of_mem_toDigits (by omega) (by omega) member⟩

/-- Digits of a positive number start with one that is not zero. -/
theorem toDigits_head {value : Nat} (positive : 0 < value) :
    ∃ first others, Nat.toDigits 10 value = first :: others ∧ first ≠ '0' := by
  -- The last digit is taken away until there is only one.
  induction value using Nat.strongRecOn with
  | ind value ih =>
    by_cases small : value < 10
    · have figures : ∀ value < 10, 0 < value → Nat.digitChar value ≠ '0' := by decide
      exact ⟨_, [], Nat.toDigits_of_lt_base small, figures value small positive⟩
    · obtain ⟨first, others, digits, nonzero⟩ := ih (value / 10) (by omega) (by omega)
      refine ⟨first, others ++ [(value % 10).digitChar], ?_, nonzero⟩
      rw [Nat.toDigits_of_base_le (by decide) (by omega), digits, List.cons_append]

section Words

variable {word rest : List Char} {blank : Char}

@[simp] theorem fields_nil : fields [] = [] := rfl

/-- Two words in a row without a blank between them are one. -/
theorem IsWord.append {first second : List Char} (isWord : IsWord first)
    (solid : ∀ char ∈ second, isBlank char = false) : IsWord (first ++ second) where
  nonempty := List.append_ne_nil_of_left_ne_nil isWord.nonempty second
  solid := List.forall_mem_append.mpr ⟨isWord.solid, solid⟩

/-- A word at the start of a line is its first field. -/
theorem fields_word (isWord : IsWord word) (separated : isBlank blank) (rest : List Char) :
    fields (word ++ blank :: rest) = word :: fields rest := by
  rw [fields, List.splitOnP_append_cons_of_forall_mem isWord.solid blank separated,
    List.filter_cons_of_pos (by simpa using isWord.nonempty), fields]

/-- A word alone is the only field. -/
theorem fields_last (isWord : IsWord word) : fields word = [word] := by
  rw [fields, List.splitOnP_eq_singleton isWord.solid]
  simp [isWord.nonempty]

/-- A blank at the start of a line makes no difference to its fields. -/
theorem fields_blank (separated : isBlank blank) (rest : List Char) :
    fields (blank :: rest) = fields rest := by
  -- The empty word in front of the blank is no field.
  have empty : ∀ char ∈ ([] : List Char), isBlank char = false := by simp
  have split := List.splitOnP_append_cons_of_forall_mem empty blank separated rest
  rw [List.nil_append] at split
  rw [fields, split, List.filter_cons_of_neg (by simp), fields]

/-- More blanks between two words make no difference. -/
theorem fields_blanks {blanks : List Char} (separated : ∀ char ∈ blanks, isBlank char)
    (rest : List Char) : fields (blanks ++ rest) = fields rest := by
  -- One blank after the other is passed over.
  induction blanks with
  | nil => rfl
  | cons blank blanks ih =>
    obtain ⟨first, others⟩ := List.forall_mem_cons.mp separated
    rw [List.cons_append, fields_blank first, ih others]

/-- A blank at the end of a line is trimmed away. -/
theorem trim_blank {line : List Char} (start : ∀ char ∈ line.head?, isBlank char = false)
    (nonempty : line ≠ []) (separated : isBlank blank) : trim (line ++ [blank]) = trim line := by
  -- The line starts with a character that is kept, and only its end is cut.
  cases line with
  | nil => exact absurd rfl nonempty
  | cons first rest =>
    have solid := start first rfl
    simp [trim, solid, separated]

/-- A line that starts and ends with words is not changed by trimming. -/
theorem trim_eq_self {line : List Char} (start : ∀ char ∈ line.head?, isBlank char = false)
    (finish : ∀ char ∈ line.getLast?, isBlank char = false) : trim line = line := by
  have reversed : ∀ char ∈ line.reverse.head?, isBlank char = false := by
    rwa [List.head?_reverse]
  rw [trim, dropWhile_of_head start, dropWhile_of_head reversed, List.reverse_reverse]

end Words

/-- The start of a text does not go on behind a character that stops it. -/
theorem takeWhile_stop {α : Type} {keep : α → Bool} {stop : α} (stops : keep stop = false)
    (text rest : List α) : (text ++ stop :: rest).takeWhile keep = text.takeWhile keep := by
  -- Either the text has a character that ends it, or the stopping one does.
  induction text with
  | nil => simp [stops]
  | cons first text ih =>
    by_cases kept : keep first
    · simp [kept, ih]
    · simp [kept]

/-- The places of a mark in a text behind whose first one there is another text. -/
theorem split_mark {α : Type} {mark : α} {first rest before after : List α}
    (absent : mark ∉ first) (split : first ++ mark :: rest = before ++ mark :: after) :
    (before = first ∧ after = rest) ∨
      ∃ between, before = first ++ mark :: between ∧ rest = between ++ mark :: after := by
  rcases List.append_eq_append_iff.mp split with longer | shorter
  · obtain ⟨more, whole, tail⟩ := longer
    -- What the other place is farther behind starts with the first mark.
    cases more with
    | nil =>
      rw [List.append_nil] at whole
      exact .inl ⟨whole, (List.cons.inj tail).2.symm⟩
    | cons char between =>
      obtain ⟨same, split⟩ := List.cons.inj tail
      exact .inr ⟨between, same ▸ whole, split⟩
  · obtain ⟨more, whole, tail⟩ := shorter
    cases more with
    | nil =>
      rw [List.append_nil] at whole
      exact .inl ⟨whole.symm, (List.cons.inj tail).2⟩
    | cons char between =>
      obtain ⟨same, -⟩ := List.cons.inj tail
      exact absurd (whole ▸ same ▸ by simp) absent

end AivenExamples.Fields
