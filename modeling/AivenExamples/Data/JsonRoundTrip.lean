import AivenExamples.Data.Fields
import AivenExamples.Data.JsonScanner

/-! What is written as text reads back as the same value, and what is read is well formed. -/

namespace AivenExamples.JsonText

/-! ### Texts -/

/-- A hexadecimal digit reads back as its value. -/
theorem hexValue_digitChar {digit : Nat} (small : digit < 16) :
    hexValue digit.digitChar = some digit := by
  -- There are sixteen of them, ten figures and six letters.
  have all : ∀ digit < 16, hexValue digit.digitChar = some digit := by decide
  exact all digit small

/-- Four hexadecimal digits read back as the code unit. -/
theorem hexUnit_digits {unit : Nat} (small : unit < 0x10000) :
    hexUnit (unit / 4096).digitChar (unit / 256 % 16).digitChar (unit / 16 % 16).digitChar
      (unit % 16).digitChar = some unit := by
  have first : unit / 4096 < 16 := Nat.div_lt_of_lt_mul small
  have below (part : Nat) : part % 16 < 16 := Nat.mod_lt _ (by decide)
  -- The four digits are the unit in base sixteen.
  have whole : (unit / 4096 * 16 + unit / 256 % 16) * 256 + (unit / 16 % 16 * 16 + unit % 16) =
      unit := by omega
  simp [hexUnit, hexValue_digitChar first, hexValue_digitChar (below _), whole]

/-- An escape of four digits is read as its code unit. -/
theorem scanUnits_unicodeEscape {unit : Nat} (small : unit < 0x10000) (rest : List Char) :
    scanUnits (unicodeEscape unit ++ rest) =
      (scanUnits rest).map fun scanned => (unit :: scanned.1, scanned.2) := by
  simp [unicodeEscape, scanUnits, hexUnit_digits small]

/-- The letter of a short escape stands for its character, and starts no longer one. -/
theorem unescape_letter {char letter : Char} (short : (char, letter) ∈ shortEscapes) :
    unescape letter = some char ∧ letter ≠ 'u' := by
  have all : ∀ item ∈ shortEscapes, unescape item.2 = some item.1 ∧ item.2 ≠ 'u' := by decide
  exact all (char, letter) short

/-- A short escape is read as its character. -/
theorem scanUnits_short {char letter : Char} (short : (char, letter) ∈ shortEscapes)
    (rest : List Char) : scanUnits ('\\' :: letter :: rest) =
      (scanUnits rest).map fun scanned => (char.toNat :: scanned.1, scanned.2) := by
  obtain ⟨stands, other⟩ := unescape_letter short
  -- The letter stands for the character, and is not that of a code unit.
  rw [scanUnits.eq_def]
  simp [stands, other]

/-- A character that needs no escape is read as itself. -/
theorem scanUnits_plain {char : Char} (plain : Dict.get? shortEscapes char = none)
    (printable : 0x20 ≤ char.toNat) (rest : List Char) : scanUnits (char :: rest) =
      (scanUnits rest).map fun scanned => (char.toNat :: scanned.1, scanned.2) := by
  -- Quotes and backslashes have short escapes.
  have quote : char ≠ '\x22' := fun same => by simp [same, shortEscapes, Dict.get?] at plain
  have backslash : char ≠ '\\' := fun same => by simp [same, shortEscapes, Dict.get?] at plain
  rw [scanUnits.eq_def]
  simp [quote, backslash, Nat.not_lt.mpr printable]

/-- Code units that are joined to a character, whatever comes behind them. -/
def Joins (units : List Nat) (char : Char) : Prop :=
  ∀ more, joinUnits (units ++ more) = (joinUnits more).map (char :: ·)

/-- No character has the code of a surrogate, and there is a last code. -/
theorem code_cases (char : Char) :
    char.toNat < 0xd800 ∨ 0xe000 ≤ char.toNat ∧ char.toNat < 0x110000 := by
  rcases char.valid with low | high
  · exact .inl low
  · exact .inr ⟨high.1, high.2⟩

/-- A character is joined from its own code. -/
theorem joins_code (char : Char) : Joins [char.toNat] char := by
  -- No character is a half of a pair.
  intro more
  have notHigh : ¬ (0xd800 ≤ char.toNat ∧ char.toNat < 0xdc00) := by
    have := code_cases char
    omega
  have notLow : ¬ (0xdc00 ≤ char.toNat ∧ char.toNat < 0xe000) := by
    have := code_cases char
    omega
  rw [List.singleton_append, joinUnits.eq_def]
  simp [notHigh, notLow]

/-- A character beyond the basic plane is joined from its surrogates. -/
theorem joins_surrogates {char : Char} (beyond : 0x10000 ≤ char.toNat) :
    Joins (surrogates char.toNat) char := by
  intro more
  have bounded : char.toNat - 0x10000 < 0x400 * 0x400 := by
    have := code_cases char
    omega
  have high : (char.toNat - 0x10000) / 0x400 < 0x400 := Nat.div_lt_of_lt_mul bounded
  have low : (char.toNat - 0x10000) % 0x400 < 0x400 := Nat.mod_lt _ (by decide)
  have first : 0xd800 ≤ 0xd800 + (char.toNat - 0x10000) / 0x400 ∧
      0xd800 + (char.toNat - 0x10000) / 0x400 < 0xdc00 := by omega
  have second : 0xdc00 ≤ 0xdc00 + (char.toNat - 0x10000) % 0x400 ∧
      0xdc00 + (char.toNat - 0x10000) % 0x400 < 0xe000 := by omega
  -- The two halves of the code are put together again.
  have whole : 0x10000 + (0xd800 + (char.toNat - 0x10000) / 0x400 - 0xd800) * 0x400 +
      (0xdc00 + (char.toNat - 0x10000) % 0x400 - 0xdc00) = char.toNat := by omega
  rw [surrogates, List.cons_append, List.singleton_append, joinUnits, if_pos first, if_pos second,
    whole, Char.ofNat_toNat]

/-- A character is written as units that are read in one go and joined to it again. -/
theorem scanUnits_escape (layout : Layout) (char : Char) : ∃ units, Joins units char ∧
    ∀ rest, scanUnits (escape layout char ++ rest) =
      (scanUnits rest).map fun scanned => (units ++ scanned.1, scanned.2) := by
  unfold escape
  cases short : Dict.get? shortEscapes char with
  | some letter =>
    exact ⟨[char.toNat], joins_code char, scanUnits_short (Dict.mem_of_get? short)⟩
  | none =>
    dsimp only
    split_ifs with control ascii basic
    · exact ⟨[char.toNat], joins_code char, scanUnits_unicodeEscape (by omega)⟩
    · exact ⟨[char.toNat], joins_code char, scanUnits_unicodeEscape basic⟩
    · -- Beyond the basic plane there are two escapes.
      have bounded : char.toNat - 0x10000 < 0x400 * 0x400 := by
        have := code_cases char
        omega
      have high : 0xd800 + (char.toNat - 0x10000) / 0x400 < 0x10000 := by omega
      have low : 0xdc00 + (char.toNat - 0x10000) % 0x400 < 0x10000 := by omega
      refine ⟨surrogates char.toNat, joins_surrogates (Nat.not_lt.mp basic), fun rest => ?_⟩
      simp [surrogates, List.append_assoc, scanUnits_unicodeEscape high,
        scanUnits_unicodeEscape low, Function.comp_def]
    · exact ⟨[char.toNat], joins_code char, scanUnits_plain short (Nat.not_lt.mp control)⟩

/-- A quoted text is read behind its opening quote. -/
theorem scanString_escaped (layout : Layout) (text : String) (rest : List Char) :
    scanString (text.toList.flatMap (escape layout) ++ '\x22' :: rest) = some (text, rest) := by
  -- By induction on the characters, the units are those that are joined to the text.
  have scanned : ∀ chars : List Char, ∃ units, joinUnits units = some chars ∧
      scanUnits (chars.flatMap (escape layout) ++ '\x22' :: rest) = some (units, rest) := by
    intro chars
    induction chars with
    | nil => exact ⟨[], rfl, by rw [List.flatMap_nil, List.nil_append, scanUnits.eq_def]; simp⟩
    | cons char chars ih =>
      obtain ⟨first, joins, reads⟩ := scanUnits_escape layout char
      obtain ⟨others, joined, read⟩ := ih
      refine ⟨first ++ others, by rw [joins others, joined]; rfl, ?_⟩
      rw [List.flatMap_cons, List.append_assoc, reads, read]
      rfl
  obtain ⟨units, joined, read⟩ := scanned text.toList
  simp [scanString, read, joined]

/-! ### Numbers -/

/-- A text that goes on with nothing that could belong to a number. -/
def Ends (rest : List Char) : Prop :=
  ∀ char ∈ rest.head?, char.isDigit = false ∧ char ≠ '.' ∧ char ≠ 'e' ∧ char ≠ 'E'

/-- Digits are read up to the first character that is none. -/
theorem scanDigits_toDigits (value : Nat) {rest : List Char} (ends : Ends rest) :
    scanDigits (Nat.toDigits 10 value ++ rest) = (Nat.toDigits 10 value, rest) := by
  have all : ∀ char ∈ Nat.toDigits 10 value, char.isDigit :=
    fun char member => Nat.isDigit_of_mem_toDigits (by decide) (by decide) member
  rcases Nat.eq_zero_or_pos value with zero | positive
  · -- A zero is read alone.
    simp [zero, scanDigits]
  · obtain ⟨first, others, digits, nonzero⟩ := Fields.toDigits_head positive
    have stops : rest.takeWhile Char.isDigit = [] ∧ rest.dropWhile Char.isDigit = rest := by
      cases rest with
      | nil => simp
      | cons char rest => simp [(ends char rfl).1]
    have whole : scanDigits (Nat.toDigits 10 value ++ rest) =
        ((Nat.toDigits 10 value ++ rest).takeWhile Char.isDigit,
          (Nat.toDigits 10 value ++ rest).dropWhile Char.isDigit) := by
      simp [scanDigits, digits, nonzero]
    rw [whole, List.takeWhile_append_of_pos all, List.dropWhile_append_of_pos all, stops.1,
      stops.2, List.append_nil]

/-- A number ends where neither a point nor an exponent follows. -/
theorem scanUnsigned_toDigits (floats : Floats) (sign : List Char) (value : Nat)
    {rest : List Char} (ends : Ends rest) :
    scanUnsigned floats sign (Nat.toDigits 10 value ++ rest) =
      some (.num (if sign.isEmpty then value else -value : Int), rest) := by
  -- What is behind the digits is neither a point nor the letter of an exponent.
  have noFraction : scanFraction rest = ([], rest) := by
    unfold scanFraction
    split
    · exact absurd rfl (ends '.' rfl).2.1
    · rfl
  have noExponent : scanExponent rest = ([], rest) := by
    unfold scanExponent
    split
    · next letter tail => simp [(ends letter rfl).2.2.1, (ends letter rfl).2.2.2]
    · rfl
  simp [scanUnsigned, scanDigits_toDigits value ends, Nat.toDigits_ne_nil, noFraction, noExponent,
    Nat.ofDigitChars_ten_toDigits]

/-- The text of a number starts with a digit. -/
theorem toDigits_cons (value : Nat) :
    ∃ first others, Nat.toDigits 10 value = first :: others ∧ first.isDigit := by
  obtain ⟨first, others, digits⟩ := List.exists_cons_of_ne_nil
    (Nat.toDigits_ne_nil (n := value) (b := 10))
  -- The first of the digits is one of them.
  have member : first ∈ Nat.toDigits 10 value := digits ▸ List.mem_cons_self
  exact ⟨first, others, digits, Nat.isDigit_of_mem_toDigits (by decide) (by decide) member⟩

/-- The text of an integer starts with a minus or a digit. -/
theorem integer_cons (value : Int) :
    ∃ first others, integer value = first :: others ∧ (first = '-' ∨ first.isDigit) := by
  -- Only a negative number has a minus.
  cases value with
  | ofNat value =>
    obtain ⟨first, others, digits, digit⟩ := toDigits_cons value
    exact ⟨first, others, digits, .inr digit⟩
  | negSucc value => exact ⟨'-', _, rfl, .inl rfl⟩

/-- An integer is read as the number that it is. -/
theorem scanNumber_integer (floats : Floats) (value : Int) {rest : List Char} (ends : Ends rest) :
    scanNumber floats (integer value ++ rest) = some (.num value, rest) := by
  cases value with
  | ofNat value =>
    -- A digit is no sign.
    obtain ⟨first, others, digits, digit⟩ := toDigits_cons value
    have noSign : first ≠ '-' := fun same => by simp [same] at digit
    have unsigned : scanNumber floats (integer (.ofNat value) ++ rest) =
        scanUnsigned floats [] (Nat.toDigits 10 value ++ rest) := by
      rw [integer, digits, List.cons_append, scanNumber]
      exact fun _ same => absurd (List.cons.inj same).1 noSign
    rw [unsigned, scanUnsigned_toDigits floats [] value ends]
    rfl
  | negSucc value =>
    rw [integer, List.cons_append, scanNumber, scanUnsigned_toDigits floats _ _ ends]
    rfl

/-! ### Values -/

/-- The text starts with the value, which some amount of fuel is enough to read. -/
def Reads (floats : Floats) (text : List Char) (value : Json) (rest : List Char) : Prop :=
  ∃ bound, ∀ fuel, bound ≤ fuel → scanOnce floats fuel text = some (value, rest)

/-- The characters that no value starts with. -/
def noStart : List Char := [' ', '\t', '\n', '\r', ']', '\x7d', '\ufeff']

/-- No value starts with a blank. -/
theorem isBlank_of_not_mem_noStart {char : Char} (start : char ∉ noStart) :
    isBlank char = false := by
  simp only [noStart, List.mem_cons, not_or] at start
  simp [isBlank, start]

/-- A value that is written as text can be read again, whatever comes behind it. -/
structure Legible (layout : Layout) (floats : Floats) (value : Json) : Prop where
  starts : ∀ level, ∃ char others, write layout floats level value = char :: others ∧
    char ∉ noStart
  reads : ∀ level rest, Ends rest →
    Reads floats (write layout floats level value ++ rest) value rest

variable {layout : Layout} {floats : Floats}

/-- What was expected is taken away. -/
theorem expect_append (expected rest : List Char) :
    expect expected (expected ++ rest) = some rest := by
  simp [expect]

/-- Another first character is not what was expected. -/
theorem expect_cons_of_ne {first char : Char} (other : first ≠ char) (expected rest : List Char) :
    expect (first :: expected) (char :: rest) = none := by
  simp [expect, other]

/-- A value whose text neither starts with a quote nor opens a container is legible. -/
theorem legible_scalar {value : Json} {first : Char} {others : List Char}
    (text : ∀ level, write layout floats level value = first :: others)
    (letter : first ∉ noStart)
    (scalar : first ≠ '\x22' ∧ first ≠ '[' ∧ first ≠ '\x7b')
    (scanned : ∀ rest, Ends rest →
      scanScalar floats (first :: (others ++ rest)) = some (value, rest)) :
    Legible layout floats value where
  starts level := ⟨first, others, text level, letter⟩
  reads level rest ends := by
    refine ⟨1, fun fuel enough => ?_⟩
    obtain ⟨fuel, rfl⟩ := Nat.exists_eq_add_of_le' enough
    -- The first character leads to none of the three cases in front.
    rw [text, List.cons_append, scanOnce, if_neg scalar.1, if_neg scalar.2.1, if_neg scalar.2.2]
    exact scanned rest ends

/-- The constant `None` is legible. -/
theorem legible_null : Legible layout floats .null :=
  legible_scalar (fun _ => rfl) (by decide) (by decide) fun rest _ => by
    have null : expect nullText ('n' :: (['u', 'l', 'l'] ++ rest)) = some rest :=
      expect_append nullText rest
    simp only [scanScalar, null]

/-- The constants `True` and `False` are legible. -/
theorem legible_bool (value : Bool) : Legible layout floats (.bool value) := by
  -- The first letter tells the constants apart.
  cases value with
  | true =>
    refine legible_scalar (fun _ => rfl) (by decide) (by decide) fun rest _ => ?_
    have null : expect nullText ('t' :: (['r', 'u', 'e'] ++ rest)) = none :=
      expect_cons_of_ne (by decide) _ _
    have true : expect trueText ('t' :: (['r', 'u', 'e'] ++ rest)) = some rest :=
      expect_append trueText rest
    simp only [scanScalar, null, true]
  | false =>
    refine legible_scalar (fun _ => rfl) (by decide) (by decide) fun rest _ => ?_
    have null : expect nullText ('f' :: (['a', 'l', 's', 'e'] ++ rest)) = none :=
      expect_cons_of_ne (by decide) _ _
    have true : expect trueText ('f' :: (['a', 'l', 's', 'e'] ++ rest)) = none :=
      expect_cons_of_ne (by decide) _ _
    have false : expect falseText ('f' :: (['a', 'l', 's', 'e'] ++ rest)) = some rest :=
      expect_append falseText rest
    simp only [scanScalar, null, true, false]

/-- A minus or a digit is none of the characters that have another meaning. -/
theorem number_start {first : Char} (start : first = '-' ∨ first.isDigit) :
    first ∉ noStart ∧ first ∉ ['\x22', '[', '\x7b'] ∧ first ∉ ['n', 't', 'f'] := by
  -- None of these characters is a minus or a digit.
  have digits : ∀ char ∈ noStart ++ ['\x22', '[', '\x7b', 'n', 't', 'f'],
      char ≠ '-' ∧ char.isDigit = false :=
    List.forall_iff_forall_mem.mp (by decide)
  have none (others : List Char)
      (among : others ⊆ noStart ++ ['\x22', '[', '\x7b', 'n', 't', 'f']) : first ∉ others := by
    intro member
    obtain ⟨noMinus, noDigit⟩ := digits first (among member)
    rcases start with minus | digit
    · exact noMinus minus
    · simp [noDigit] at digit
  exact ⟨none _ (by decide), none _ (by decide), none _ (by decide)⟩

/-- An integral number is legible. -/
theorem legible_num {value : Rat} (integral : value.den = 1) :
    Legible layout floats (.num value) := by
  obtain ⟨first, others, text, start⟩ := integer_cons value.num
  obtain ⟨letter, scalar, constant⟩ := number_start start
  simp only [List.mem_cons, List.not_mem_nil, or_false, not_or] at scalar constant
  have written : number floats value = first :: others := by rw [number, if_pos integral, text]
  refine legible_scalar (fun _ => by rw [write, written]) letter scalar fun rest ends => ?_
  -- None of the constants starts like a number.
  have null : expect nullText (first :: (others ++ rest)) = none :=
    expect_cons_of_ne (Ne.symm constant.1) _ _
  have true : expect trueText (first :: (others ++ rest)) = none :=
    expect_cons_of_ne (Ne.symm constant.2.1) _ _
  have false : expect falseText (first :: (others ++ rest)) = none :=
    expect_cons_of_ne (Ne.symm constant.2.2) _ _
  have scanned := scanNumber_integer floats value.num ends
  rw [text, List.cons_append] at scanned
  simp only [scanScalar, null, true, false]
  rw [scanned, Rat.coe_int_num_of_den_eq_one integral]

/-- A text is legible. -/
theorem legible_str (text : String) : Legible layout floats (.str text) where
  -- The quote leads to the text, whose escapes are read up to the other quote.
  starts level := ⟨'\x22', _, by rw [write, quoted, List.cons_append], by decide⟩
  reads level rest ends := by
    refine ⟨1, fun fuel enough => ?_⟩
    obtain ⟨fuel, rfl⟩ := Nat.exists_eq_add_of_le' enough
    rw [write, quoted, List.cons_append, List.cons_append, scanOnce, if_pos rfl, List.append_assoc,
      List.singleton_append, scanString_escaped]
    rfl

/-! ### Containers -/

/-- Blanks are skipped. -/
theorem skipBlanks_append {blanks : List Char} (blank : ∀ char ∈ blanks, isBlank char = true)
    (rest : List Char) : skipBlanks (blanks ++ rest) = skipBlanks rest :=
  List.dropWhile_append_of_pos blank

/-- Nothing is skipped in front of another character. -/
theorem skipBlanks_cons {char : Char} (other : isBlank char = false) (rest : List Char) :
    skipBlanks (char :: rest) = char :: rest :=
  List.dropWhile_cons_of_neg (by simp [other])

/-- New lines and indentations are blanks. -/
theorem newline_blank (layout : Layout) (level : Nat) :
    ∀ char ∈ newline layout level, isBlank char = true := by
  intro char member
  unfold newline at member
  split at member
  · cases member
  · -- The indentation is made of spaces.
    rcases List.mem_cons.mp member with same | space
    · exact same ▸ rfl
    · exact List.eq_of_mem_replicate space ▸ rfl

/-- A separator is a comma and blanks. -/
theorem separator_eq (layout : Layout) (level : Nat) :
    ∃ blanks, separator layout level = ',' :: blanks ∧ ∀ char ∈ blanks, isBlank char = true := by
  unfold separator
  -- On a single line the comma is followed by one blank.
  split
  · exact ⟨[' '], rfl, List.forall_mem_singleton.mpr rfl⟩
  · exact ⟨_, rfl, newline_blank layout level⟩

/-- What ends an item does not belong to a number. -/
theorem ends_cons {char : Char} (stop : char ∈ [' ', '\t', '\n', '\r', ',', ']', '\x7d'])
    (rest : List Char) : Ends (char :: rest) := by
  -- No digit, point or letter is among these characters.
  have none : ∀ char ∈ [' ', '\t', '\n', '\r', ',', ']', '\x7d'],
      char.isDigit = false ∧ char ≠ '.' ∧ char ≠ 'e' ∧ char ≠ 'E' :=
    List.forall_iff_forall_mem.mp (by decide)
  intro first head
  cases head
  exact none _ stop

/-- Blanks do not belong to a number either. -/
theorem ends_blanks {blanks : List Char} (blank : ∀ char ∈ blanks, isBlank char = true)
    {rest : List Char} (ends : Ends rest) : Ends (blanks ++ rest) := by
  -- The first of the blanks decides, if there is one.
  cases blanks with
  | nil => exact ends
  | cons first blanks =>
    have here := blank first List.mem_cons_self
    simp only [isBlank, decide_eq_true_eq] at here
    exact ends_cons (List.mem_append_left [',', ']', '\x7d'] here) _

/-- Blanks in front of a written value are skipped, and nothing else. -/
theorem skipBlanks_write {value : Json} (legible : Legible layout floats value)
    {blanks : List Char} (blank : ∀ char ∈ blanks, isBlank char = true) (level : Nat)
    (rest : List Char) : skipBlanks (blanks ++ (write layout floats level value ++ rest)) =
      write layout floats level value ++ rest := by
  -- A legible value starts with a character that is no blank.
  obtain ⟨char, others, text, start⟩ := legible.starts level
  rw [skipBlanks_append blank, text, List.cons_append,
    skipBlanks_cons (isBlank_of_not_mem_noStart start)]

/-- The text starts with the items of a list, up to the closing bracket. -/
def ReadsItems (floats : Floats) (text : List Char) (items : List Json) (rest : List Char) : Prop :=
  ∃ bound, ∀ fuel, bound ≤ fuel → scanItems floats fuel text = some (items, rest)

/-- The items of a list are read one after the other. -/
theorem readsItems_write {item : Json} {items : List Json}
    (legible : ∀ other ∈ item :: items, Legible layout floats other) (level outer : Nat)
    (rest : List Char) : ReadsItems floats (write layout floats level item ++
      (writeItems layout floats level items ++ (newline layout outer ++ ']' :: rest)))
      (item :: items) rest := by
  have first := (legible item List.mem_cons_self).reads level
  -- By induction on the items behind the first one.
  induction items generalizing item with
  | nil =>
    obtain ⟨bound, reads⟩ := first (newline layout outer ++ ']' :: rest)
      (ends_blanks (newline_blank layout outer) (ends_cons (by simp) rest))
    refine ⟨bound + 1, fun fuel enough => ?_⟩
    obtain ⟨fuel, rfl⟩ := Nat.exists_eq_add_of_le' (Nat.le_trans (Nat.le_add_left 1 bound) enough)
    have closing : skipBlanks (newline layout outer ++ ']' :: rest) = ']' :: rest := by
      rw [skipBlanks_append (newline_blank layout outer), skipBlanks_cons rfl]
    rw [writeItems, List.nil_append, scanItems, reads fuel (by omega)]
    simp [closing]
  | cons next items ih =>
    obtain ⟨blanks, separated, blank⟩ := separator_eq layout level
    obtain ⟨later, behind⟩ := ih (fun other member => legible other (List.mem_cons_of_mem _ member))
      ((legible next (by simp)).reads level)
    obtain ⟨bound, reads⟩ := first (',' :: (blanks ++ (write layout floats level next ++
      (writeItems layout floats level items ++ (newline layout outer ++ ']' :: rest)))))
      (ends_cons (by simp) _)
    refine ⟨max bound later + 1, fun fuel enough => ?_⟩
    obtain ⟨fuel, rfl⟩ := Nat.exists_eq_add_of_le' (Nat.le_trans (Nat.le_add_left 1 _) enough)
    -- Behind the comma there are blanks, and then the next item.
    have comma (rest : List Char) : skipBlanks (',' :: rest) = ',' :: rest :=
      skipBlanks_cons rfl rest
    rw [writeItems, separated]
    simp only [List.append_assoc, List.cons_append] at reads ⊢
    rw [scanItems, reads fuel (by omega)]
    simp [comma, skipBlanks_write (legible next (by simp)) blank, behind fuel (by omega)]

/-- A written field is read, and what is behind it decides how to go on. -/
theorem scanFields_field {key : String} {value : Json} (legible : Legible layout floats value)
    {level fuel : Nat} {rest : List Char}
    (reads : scanOnce floats fuel (write layout floats level value ++ rest) = some (value, rest)) :
    scanFields floats (fuel + 1) (quoted layout key ++
        ([':', ' '] ++ (write layout floats level value ++ rest))) =
      match skipBlanks rest with
      | '\x7d' :: rest => some ([(key, value)], rest)
      | ',' :: rest => do
        let (fields, rest) ← scanFields floats fuel (skipBlanks rest)
        return ((key, value) :: fields, rest)
      | _ => none := by
  -- The key, the colon and the value are read one after the other.
  have opened (rest : List Char) : expect ['\x22'] ('\x22' :: rest) = some rest :=
    expect_append ['\x22'] rest
  have colon (rest : List Char) : skipBlanks (':' :: rest) = ':' :: rest := skipBlanks_cons rfl rest
  have behind (rest : List Char) : expect [':'] (':' :: rest) = some rest :=
    expect_append [':'] rest
  have blank : ∀ char ∈ [' '], isBlank char = true := List.forall_mem_singleton.mpr rfl
  have space : skipBlanks (' ' :: (write layout floats level value ++ rest)) =
      write layout floats level value ++ rest := skipBlanks_write legible blank level rest
  rw [quoted, List.append_assoc, List.cons_append, scanFields]
  simp only [List.cons_append, List.nil_append, opened, Option.pure_def, Option.bind_eq_bind,
    Option.bind_some, scanString_escaped, colon, behind, space]
  rw [reads]
  rfl

/-- The text starts with the fields of a dictionary, up to the closing brace. -/
def ReadsFields (floats : Floats) (text : List Char) (fields : List (String × Json))
    (rest : List Char) : Prop :=
  ∃ bound, ∀ fuel, bound ≤ fuel → scanFields floats fuel text = some (fields, rest)

/-- The fields of a dictionary are read one after the other. -/
theorem readsFields_write {field : String × Json} {fields : List (String × Json)}
    (legible : ∀ other ∈ field :: fields, Legible layout floats other.2) (level outer : Nat)
    (rest : List Char) : ReadsFields floats (quoted layout field.1 ++ ([':', ' '] ++
      (write layout floats level field.2 ++ (writeFields layout floats level fields ++
        (newline layout outer ++ '\x7d' :: rest))))) (field :: fields) rest := by
  have here := legible field List.mem_cons_self
  -- By induction on the fields behind the first one.
  induction fields generalizing field with
  | nil =>
    obtain ⟨bound, reads⟩ := here.reads level (newline layout outer ++ '\x7d' :: rest)
      (ends_blanks (newline_blank layout outer) (ends_cons (by simp) rest))
    refine ⟨bound + 1, fun fuel enough => ?_⟩
    obtain ⟨fuel, rfl⟩ := Nat.exists_eq_add_of_le' (Nat.le_trans (Nat.le_add_left 1 bound) enough)
    have closing : skipBlanks (newline layout outer ++ '\x7d' :: rest) = '\x7d' :: rest := by
      rw [skipBlanks_append (newline_blank layout outer), skipBlanks_cons rfl]
    rw [writeFields, List.nil_append, scanFields_field here (reads fuel (by omega)), closing]
    rfl
  | cons next fields ih =>
    obtain ⟨blanks, separated, blank⟩ := separator_eq layout level
    obtain ⟨later, behind⟩ := ih (fun other member => legible other (List.mem_cons_of_mem _ member))
      (legible next (by simp))
    obtain ⟨bound, reads⟩ := here.reads level (',' :: (blanks ++ (quoted layout next.1 ++
      ([':', ' '] ++ (write layout floats level next.2 ++ (writeFields layout floats level fields ++
        (newline layout outer ++ '\x7d' :: rest))))))) (ends_cons (by simp) _)
    refine ⟨max bound later + 1, fun fuel enough => ?_⟩
    obtain ⟨fuel, rfl⟩ := Nat.exists_eq_add_of_le' (Nat.le_trans (Nat.le_add_left 1 _) enough)
    -- Behind the comma there are blanks, and then the next key.
    have comma (rest : List Char) : skipBlanks (',' :: rest) = ',' :: rest :=
      skipBlanks_cons rfl rest
    have inside (rest : List Char) : skipBlanks (blanks ++ (quoted layout next.1 ++ rest)) =
        quoted layout next.1 ++ rest := by
      rw [skipBlanks_append blank, quoted, List.cons_append, List.cons_append, skipBlanks_cons rfl]
    have text : writeFields layout floats level (next :: fields) ++
          (newline layout outer ++ '\x7d' :: rest) =
        ',' :: (blanks ++ (quoted layout next.1 ++ ([':', ' '] ++
          (write layout floats level next.2 ++ (writeFields layout floats level fields ++
            (newline layout outer ++ '\x7d' :: rest)))))) := by
      simp [writeFields, separated]
    rw [text, scanFields_field here (reads fuel (by omega)), comma]
    simp only [inside, behind fuel (by omega)]
    rfl

/-- A list of legible items is legible. -/
theorem legible_arr {items : List Json} (legible : ∀ item ∈ items, Legible layout floats item) :
    Legible layout floats (.arr items) := by
  -- An empty list has its own text, and any other one a first item.
  cases items with
  | nil =>
    refine ⟨fun level => ⟨'[', _, by rw [write], by decide⟩, fun level rest _ =>
      ⟨1, fun fuel enough => ?_⟩⟩
    obtain ⟨fuel, rfl⟩ := Nat.exists_eq_add_of_le' enough
    have closing : skipBlanks (']' :: rest) = ']' :: rest := skipBlanks_cons rfl rest
    simp [write, scanOnce, closing]
  | cons item items =>
    refine ⟨fun level => ⟨'[', _, by rw [write, List.append_assoc]; rfl, by decide⟩,
      fun level rest _ => ?_⟩
    obtain ⟨bound, reads⟩ := readsItems_write legible (level + 1) level rest
    refine ⟨bound + 1, fun fuel enough => ?_⟩
    obtain ⟨fuel, rfl⟩ := Nat.exists_eq_add_of_le' (Nat.le_trans (Nat.le_add_left 1 bound) enough)
    have first := legible item List.mem_cons_self
    obtain ⟨char, others, text, start⟩ := first.starts (level + 1)
    have inside := skipBlanks_write first (newline_blank layout (level + 1)) (level + 1)
    have scanned := reads fuel (by omega)
    rw [write]
    simp only [List.append_assoc, List.cons_append, List.nil_append] at inside scanned ⊢
    rw [scanOnce, if_neg (by decide), if_pos rfl, inside]
    rw [text, List.cons_append] at scanned ⊢
    split
    · next same => exact absurd (by rw [(List.cons.inj same).1]; decide) start
    · rw [scanned]
      rfl

/-- Items that are assigned one after the other under distinct keys stay as they are. -/
theorem update_of_nodup {before fields : List (String × Json)}
    (distinct : (Dict.keys (before ++ fields)).Nodup) :
    Dict.update before fields = before ++ fields := by
  -- The dictionary grows by one item in every round.
  induction fields generalizing before with
  | nil => simp [Dict.update]
  | cons field fields ih =>
    have absent : field.1 ∉ Dict.keys before := by
      intro member
      rw [Dict.keys, List.map_append, List.nodup_append] at distinct
      exact distinct.2.2 field.1 member field.1 (by simp) rfl
    have shifted : before ++ field :: fields = (before ++ [field]) ++ fields := by simp
    rw [shifted] at distinct ⊢
    rw [← ih distinct]
    show Dict.update (Dict.set before field.1 field.2) fields = _
    rw [Dict.set_of_not_mem absent]

/-- A dictionary of legible values under distinct keys is legible. -/
theorem legible_obj {fields : List (String × Json)} (distinct : (Dict.keys fields).Nodup)
    (legible : ∀ field ∈ fields, Legible layout floats field.2) :
    Legible layout floats (.obj fields) := by
  cases fields with
  | nil =>
    refine ⟨fun level => ⟨'\x7b', _, by rw [write], by decide⟩, fun level rest _ =>
      ⟨1, fun fuel enough => ?_⟩⟩
    obtain ⟨fuel, rfl⟩ := Nat.exists_eq_add_of_le' enough
    have closing : skipBlanks ('\x7d' :: rest) = '\x7d' :: rest := skipBlanks_cons rfl rest
    simp [write, scanOnce, closing]
  | cons field fields =>
    refine ⟨fun level => ⟨'\x7b', _, by simp only [write, List.append_assoc]; rfl, by decide⟩,
      fun level rest _ => ?_⟩
    obtain ⟨bound, reads⟩ := readsFields_write legible (level + 1) level rest
    refine ⟨bound + 1, fun fuel enough => ?_⟩
    obtain ⟨fuel, rfl⟩ := Nat.exists_eq_add_of_le' (Nat.le_trans (Nat.le_add_left 1 bound) enough)
    -- The first key starts with its quote.
    have inside (rest : List Char) : skipBlanks (newline layout (level + 1) ++
        (quoted layout field.1 ++ rest)) = quoted layout field.1 ++ rest := by
      rw [skipBlanks_append (newline_blank layout (level + 1)), quoted, List.cons_append,
        List.cons_append, skipBlanks_cons rfl]
    have scanned := reads fuel (by omega)
    rw [write]
    simp only [List.append_assoc, List.cons_append, List.nil_append] at inside scanned ⊢
    rw [scanOnce, if_neg (by decide), if_neg (by decide), if_pos rfl, inside]
    rw [quoted, List.cons_append, List.cons_append] at scanned ⊢
    split
    · next same => exact absurd (List.cons.inj same).1 (by decide)
    · have whole : Dict.update [] (field :: fields) = field :: fields :=
        update_of_nodup distinct
      rw [scanned, Option.map_some, whole]

/-! ### Whole texts -/

mutual

/-- All of the numbers inside of the value are integral. -/
def Integral : Json → Prop
  | .num value => value.den = 1
  | .arr items => IntegralItems items
  | .obj fields => IntegralFields fields
  | _ => True

/-- All of the numbers inside of the items are integral. -/
def IntegralItems : List Json → Prop
  | [] => True
  | item :: items => Integral item ∧ IntegralItems items

/-- All of the numbers inside of the fields are integral. -/
def IntegralFields : List (String × Json) → Prop
  | [] => True
  | (_, value) :: fields => Integral value ∧ IntegralFields fields

end

mutual

/-- A well formed value is legible when its numbers are integral. -/
theorem legible : ∀ value : Json, value.WellFormed → Integral value →
    Legible layout floats value
  | .null, _, _ => legible_null
  | .bool value, _, _ => legible_bool value
  | .num _, _, integral => legible_num integral
  | .str text, _, _ => legible_str text
  | .arr items, wellFormed, integral => by
    -- The items are legible by the recursion.
    simp only [Json.WellFormed] at wellFormed
    simp only [Integral] at integral
    exact legible_arr (legibleItems items wellFormed integral)
  | .obj fields, wellFormed, integral => by
    simp only [Json.WellFormed] at wellFormed
    simp only [Integral] at integral
    exact legible_obj wellFormed.1 (legibleFields fields wellFormed.2 integral)

/-- The items of a list are legible. -/
theorem legibleItems : ∀ items : List Json, Json.WellFormedItems items → IntegralItems items →
    ∀ item ∈ items, Legible layout floats item
  | [], _, _ => by simp
  | first :: items, wellFormed, integral => by
    simp only [Json.WellFormedItems] at wellFormed
    simp only [IntegralItems] at integral
    intro item member
    -- The item is the first one, or one of the others.
    rcases List.mem_cons.mp member with here | later
    · exact here ▸ legible first wellFormed.1 integral.1
    · exact legibleItems items wellFormed.2 integral.2 item later

/-- The values of a dictionary are legible. -/
theorem legibleFields : ∀ fields : List (String × Json), Json.WellFormedFields fields →
    IntegralFields fields → ∀ field ∈ fields, Legible layout floats field.2
  | [], _, _ => by simp
  | (key, value) :: fields, wellFormed, integral => by
    simp only [Json.WellFormedFields] at wellFormed
    simp only [IntegralFields] at integral
    intro field member
    -- The value is the first one, or one of the others.
    rcases List.mem_cons.mp member with here | later
    · exact here ▸ legible value wellFormed.1 integral.1
    · exact legibleFields fields wellFormed.2 integral.2 field later

end

/-- Values that survive being written and read: no key twice, and no number with a point. -/
def Portable (value : Json) : Prop := value.WellFormed ∧ Integral value

/-- The fields have integral numbers exactly when each of the values does. -/
theorem integralFields_iff {fields : List (String × Json)} :
    IntegralFields fields ↔ ∀ field ∈ fields, Integral field.2 := by
  induction fields with
  | nil => simp [IntegralFields]
  | cons field fields ih => simp [IntegralFields, ih]

/-- A dictionary is portable when its keys are distinct and its values are portable. -/
theorem portable_obj {fields : List (String × Json)} :
    Portable (.obj fields) ↔
      (Dict.keys fields).Nodup ∧ ∀ field ∈ fields, Portable field.2 := by
  simp only [Portable, Json.WellFormed, Json.wellFormedFields_iff, Integral, integralFields_iff,
    forall_and, and_assoc]

/-- What is found in a portable value is portable. -/
theorem Portable.item {value found : Json} {key : String} (portable : Portable value)
    (read : value.item key = .ok found) : Portable found := by
  obtain ⟨fields, rfl, stored⟩ := Json.item_eq_ok.mp read
  exact (portable_obj.mp portable).2 _ (Dict.mem_of_get? stored)

/-- What is found in a portable value, or taken in place of it, is portable. -/
theorem Portable.get {value found default : Json} {key : String} (portable : Portable value)
    (instead : Portable default) (read : value.get key default = .ok found) : Portable found := by
  obtain ⟨fields, rfl, same⟩ := Json.get_eq_ok.mp read
  -- A portable dictionary has portable values only.
  cases stored : Dict.get? fields key with
  | none =>
    rw [stored] at same
    exact same ▸ instead
  | some value =>
    rw [stored] at same
    exact same ▸ (portable_obj.mp portable).2 _ (Dict.mem_of_get? stored)

/-- The empty dictionary is portable. -/
theorem portable_empty : Portable (.obj []) := portable_obj.mpr ⟨List.nodup_nil, by simp⟩

/-- Constants and texts are portable. -/
theorem portable_null : Portable .null := ⟨trivial, trivial⟩

theorem portable_bool (value : Bool) : Portable (.bool value) := ⟨trivial, trivial⟩

theorem portable_str (text : String) : Portable (.str text) := ⟨trivial, trivial⟩

/-- Natural numbers are portable. -/
theorem portable_nat (value : Nat) : Portable (.num value) := ⟨trivial, Rat.den_natCast value⟩

/-- A dictionary with a single item is portable when its value is. -/
theorem portable_field {key : String} {value : Json} (portable : Portable value) :
    Portable (.obj [(key, value)]) :=
  portable_obj.mpr ⟨by simp [Dict.keys], by simpa using portable⟩

/-- What `json.dumps` writes is read by `json.loads` as the same value, in any layout. -/
theorem loads_dumps {value : Json} (portable : Portable value) :
    loads floats (dumps layout floats value) = some value := by
  have readable : Legible layout floats value := legible value portable.1 portable.2
  obtain ⟨starts, reads⟩ := readable
  obtain ⟨char, others, text, start⟩ := starts 0
  obtain ⟨bound, scanned⟩ := reads 0 [] (fun _ none => by cases none)
  rw [List.append_nil, text] at scanned
  have noMark : char ≠ '\ufeff' := fun same => start (by simp [same, noStart])
  -- The fuel of the program reads what more of it would read.
  have enough : scanOnce floats (2 * (char :: others).length + 1) (char :: others) =
      some (value, []) := by
    rw [((scan_fuel floats ((char :: others).length + 1) (char :: others) (Nat.lt_succ_self _)).1 _
      (max bound (2 * (char :: others).length + 1)) (by omega) (by omega))]
    exact scanned _ (le_max_left _ _)
  have unmarked : ¬(char :: others).head? = some '\ufeff' :=
    fun same => noMark (Option.some.inj same)
  rw [dumps, text, loads, String.toList_ofList, if_neg unmarked,
    skipBlanks_cons (isBlank_of_not_mem_noStart start), enough]
  rfl

/-- The texts of numbers where all of them are integers. -/
def noFloats : Floats := ⟨fun _ => [], fun _ => 0⟩

end AivenExamples.JsonText
