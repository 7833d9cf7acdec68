import AivenExamples.Data.JsonText

/-! The scanner of JSON text: its fuel is enough, and what it reads is well formed. -/

namespace AivenExamples.JsonText

variable {floats : Floats}

/-- Skipping blanks makes a text no longer. -/
theorem length_skipBlanks_le (text : List Char) : (skipBlanks text).length ≤ text.length :=
  (List.dropWhile_sublist isBlank).length_le

/-- What is read is wrapped, and what is behind it stays. -/
theorem exists_of_map_eq_some {α β : Type} {scanned : Option (α × List Char)} {wrap : α → β}
    {value : β} {rest : List Char}
    (wrapped : (scanned.map fun item => (wrap item.1, item.2)) = some (value, rest)) :
    ∃ inner, scanned = some (inner, rest) ∧ wrap inner = value := by
  obtain ⟨item, found, same⟩ := Option.map_eq_some_iff.mp wrapped
  cases same
  exact ⟨item.1, found, rfl⟩

/-- Behind a text in quotes there is less than there was. -/
theorem scanUnits_shorter {text rest : List Char} {units : List Nat}
    (scanned : scanUnits text = some (units, rest)) : rest.length < text.length := by
  -- The quote that is read at the end is no part of the rest.
  induction length : text.length using Nat.strong_induction_on generalizing text units with
  | h length ih =>
    subst length
    cases text with
    | nil => cases scanned
    | cons char behind =>
      rw [scanUnits.eq_def] at scanned
      dsimp only at scanned
      split_ifs at scanned with quote escape
      · cases scanned
        exact Nat.lt_succ_self _
      · cases behind with
        | nil => cases scanned
        | cons letter behind =>
          dsimp only at scanned
          split_ifs at scanned with unit
          · split at scanned
            · rename_i first second third fourth others
              obtain ⟨unit, -, wrapped⟩ := Option.bind_eq_some_iff.mp scanned
              obtain ⟨found, read, -⟩ := exists_of_map_eq_some wrapped
              have shorter := ih others.length (by simp only [List.length_cons]; omega) read rfl
              simp only [List.length_cons]
              omega
            · cases scanned
          · obtain ⟨char, -, wrapped⟩ := Option.bind_eq_some_iff.mp scanned
            obtain ⟨found, read, -⟩ := exists_of_map_eq_some wrapped
            have shorter := ih behind.length (by simp only [List.length_cons]; omega) read rfl
            simp only [List.length_cons]
            omega
      · obtain ⟨found, read, -⟩ := exists_of_map_eq_some scanned
        exact Nat.lt_succ_of_lt (ih behind.length (Nat.lt_succ_self _) read rfl)

/-- Behind a text in quotes there is less than there was. -/
theorem scanString_shorter {text rest : List Char} {found : String}
    (scanned : scanString text = some (found, rest)) : rest.length < text.length := by
  obtain ⟨units, read, joined⟩ := Option.bind_eq_some_iff.mp scanned
  -- Joining the units takes nothing from what is behind the text.
  obtain ⟨chars, -, same⟩ := Option.bind_eq_some_iff.mp joined
  cases same
  exact scanUnits_shorter read

/-- Behind something that was expected there is less than there was. -/
theorem expect_shorter {first : Char} {expected text rest : List Char}
    (found : expect (first :: expected) text = some rest) : rest.length < text.length := by
  unfold expect at found
  split_ifs at found with starts
  cases found
  -- The text has at least the first character that was expected.
  have nonempty : text ≠ [] := fun empty => by simp [empty] at starts
  have positive : 0 < text.length := List.length_pos_iff.mpr nonempty
  rw [List.length_drop, List.length_cons]
  omega

/-- Behind a fraction there is no more than there was. -/
theorem length_scanFraction_le (text : List Char) : (scanFraction text).2.length ≤ text.length := by
  unfold scanFraction
  split
  · next digit rest =>
    -- Digits are taken behind the point, or nothing is.
    split_ifs
    · have shorter := (List.dropWhile_sublist Char.isDigit (l := rest)).length_le
      simp only [List.length_cons]
      omega
    · exact Nat.le_refl _
  · exact Nat.le_refl _

/-- Behind a sign there is no more than there was. -/
theorem length_scanSign_le (text : List Char) : (scanSign text).2.length ≤ text.length := by
  -- One character is taken for a plus or minus, and none otherwise.
  unfold scanSign
  split
  · exact Nat.le_succ _
  · exact Nat.le_succ _
  · exact Nat.le_refl _

/-- Behind an exponent there is no more than there was. -/
theorem length_scanExponent_le (text : List Char) : (scanExponent text).2.length ≤ text.length := by
  unfold scanExponent
  split
  · next letter rest =>
    split_ifs
    · -- The letter is only taken when digits follow, behind a sign or without one.
      dsimp only
      split_ifs
      · exact Nat.le_refl _
      · have behind := length_scanSign_le rest
        have shorter := (List.dropWhile_sublist Char.isDigit (l := (scanSign rest).2)).length_le
        simp only [List.length_cons]
        omega
    · exact Nat.le_refl _
  · exact Nat.le_refl _

/-- Behind some digits there is less than there was. -/
theorem scanDigits_shorter {text : List Char} (digits : (scanDigits text).1 ≠ []) :
    (scanDigits text).2.length < text.length := by
  -- A first zero is the only digit.
  unfold scanDigits at digits ⊢
  split at digits
  · exact Nat.lt_succ_self _
  · have whole : text.length = (text.takeWhile Char.isDigit).length +
        (text.dropWhile Char.isDigit).length := by
      rw [← List.length_append, List.takeWhile_append_dropWhile]
    have positive : 0 < (text.takeWhile Char.isDigit).length := List.length_pos_iff.mpr digits
    dsimp only
    omega

/-- Behind a number there is less than there was. -/
theorem scanNumber_shorter {text rest : List Char} {value : Json}
    (scanned : scanNumber floats text = some (value, rest)) : rest.length < text.length := by
  have unsigned {sign text : List Char} (scanned : scanUnsigned floats sign text =
      some (value, rest)) : rest.length < text.length := by
    unfold scanUnsigned at scanned
    dsimp only at scanned
    split_ifs at scanned with none whole
    all_goals
      -- A number without a digit is none, and the other parts add nothing.
      have digits : (scanDigits text).2.length < text.length :=
        scanDigits_shorter (by simpa using none)
      have fraction := length_scanFraction_le (scanDigits text).2
      have exponent := length_scanExponent_le (scanFraction (scanDigits text).2).2
      cases scanned
      omega
  unfold scanNumber at scanned
  split at scanned
  · exact Nat.lt_succ_of_lt (unsigned scanned)
  · exact unsigned scanned

/-- Behind a constant or a number there is less than there was. -/
theorem scanScalar_shorter {text rest : List Char} {value : Json}
    (scanned : scanScalar floats text = some (value, rest)) : rest.length < text.length := by
  -- The three names are tried in front of the numbers.
  unfold scanScalar at scanned
  split at scanned
  · next found =>
    cases scanned
    exact expect_shorter found
  · split at scanned
    · next found =>
      cases scanned
      exact expect_shorter found
    · split at scanned
      · next found =>
        cases scanned
        exact expect_shorter found
      · exact scanNumber_shorter scanned

/-- What a value that was read can be. -/
theorem scanOnce_cases {fuel : Nat} {char : Char} {text rest : List Char} {value : Json}
    (scanned : scanOnce floats (fuel + 1) (char :: text) = some (value, rest)) :
    (∃ found, scanString text = some (found, rest) ∧ value = .str found) ∨
      (skipBlanks text = ']' :: rest ∧ value = .arr []) ∨
      (∃ items, scanItems floats fuel (skipBlanks text) = some (items, rest) ∧
        value = .arr items) ∨
      (skipBlanks text = '\x7d' :: rest ∧ value = .obj []) ∨
      (∃ fields, scanFields floats fuel (skipBlanks text) = some (fields, rest) ∧
        value = .obj (Dict.update [] fields)) ∨
      scanScalar floats (char :: text) = some (value, rest) := by
  -- Each kind of value begins with its own character.
  rw [scanOnce] at scanned
  split_ifs at scanned
  · obtain ⟨found, read, same⟩ := exists_of_map_eq_some scanned
    exact .inl ⟨found, read, same.symm⟩
  · split at scanned
    · next empty =>
      cases scanned
      exact .inr (.inl ⟨empty, rfl⟩)
    · obtain ⟨items, read, same⟩ := exists_of_map_eq_some scanned
      exact .inr (.inr (.inl ⟨items, read, same.symm⟩))
  · split at scanned
    · next empty =>
      cases scanned
      exact .inr (.inr (.inr (.inl ⟨empty, rfl⟩)))
    · obtain ⟨⟨fields, behind⟩, read, same⟩ := Option.map_eq_some_iff.mp scanned
      cases same
      exact .inr (.inr (.inr (.inr (.inl ⟨fields, read, rfl⟩))))
  · exact .inr (.inr (.inr (.inr (.inr scanned))))

/-- The items of a list that were read are a first one, and those behind a comma. -/
theorem scanItems_cases {fuel : Nat} {text rest : List Char} {items : List Json}
    (scanned : scanItems floats (fuel + 1) text = some (items, rest)) :
    ∃ item behind, scanOnce floats fuel text = some (item, behind) ∧
      ((skipBlanks behind = ']' :: rest ∧ items = [item]) ∨
        ∃ next others, skipBlanks behind = ',' :: next ∧
          scanItems floats fuel (skipBlanks next) = some (others, rest) ∧
            items = item :: others) := by
  rw [scanItems] at scanned
  obtain ⟨⟨item, behind⟩, read, rests⟩ := Option.bind_eq_some_iff.mp scanned
  refine ⟨item, behind, read, ?_⟩
  dsimp only at rests
  -- Behind the first item there is a bracket, a comma, or nothing that belongs to a list.
  split at rests
  · next closed =>
    cases rests
    exact .inl ⟨closed, rfl⟩
  · next next separated =>
    obtain ⟨⟨others, last⟩, later, same⟩ := Option.bind_eq_some_iff.mp rests
    cases same
    exact .inr ⟨next, others, separated, later, rfl⟩
  · cases rests

/-- The fields of a dictionary that were read are a first one, and those behind a comma. -/
theorem scanFields_cases {fuel : Nat} {text rest : List Char} {fields : List (String × Json)}
    (scanned : scanFields floats (fuel + 1) text = some (fields, rest)) :
    ∃ opened key marked colon value behind, expect ['\x22'] text = some opened ∧
      scanString opened = some (key, marked) ∧ expect [':'] (skipBlanks marked) = some colon ∧
      scanOnce floats fuel (skipBlanks colon) = some (value, behind) ∧
      ((skipBlanks behind = '\x7d' :: rest ∧ fields = [(key, value)]) ∨
        ∃ next others, skipBlanks behind = ',' :: next ∧
          scanFields floats fuel (skipBlanks next) = some (others, rest) ∧
            fields = (key, value) :: others) := by
  rw [scanFields] at scanned
  -- Each part is read where the one before it has ended.
  obtain ⟨opened, quote, scanned⟩ := Option.bind_eq_some_iff.mp scanned
  obtain ⟨⟨key, marked⟩, named, scanned⟩ := Option.bind_eq_some_iff.mp scanned
  obtain ⟨colon, parted, scanned⟩ := Option.bind_eq_some_iff.mp scanned
  obtain ⟨⟨value, behind⟩, read, rests⟩ := Option.bind_eq_some_iff.mp scanned
  refine ⟨opened, key, marked, colon, value, behind, quote, named, parted, read, ?_⟩
  dsimp only at rests
  -- Behind the first value there is a brace, a comma, or nothing that belongs to a dictionary.
  split at rests
  · next closed =>
    cases rests
    exact .inl ⟨closed, rfl⟩
  · next next separated =>
    obtain ⟨⟨others, last⟩, later, same⟩ := Option.bind_eq_some_iff.mp rests
    cases same
    exact .inr ⟨next, others, separated, later, rfl⟩
  · cases rests

/-- Behind a value, and behind the rest of a container, there is less than there was. -/
theorem scan_shorter (floats : Floats) (fuel : Nat) :
    (∀ text value rest, scanOnce floats fuel text = some (value, rest) →
      rest.length < text.length) ∧
    (∀ text items rest, scanItems floats fuel text = some (items, rest) →
      rest.length < text.length) ∧
    ∀ text fields rest, scanFields floats fuel text = some (fields, rest) →
      rest.length < text.length := by
  -- By induction on the fuel, since every call of the three has less of it.
  induction fuel with
  | zero => exact ⟨nofun, nofun, nofun⟩
  | succ fuel ih =>
    obtain ⟨once, items, fields⟩ := ih
    refine ⟨fun text value rest scanned => ?_, fun text found rest scanned => ?_,
      fun text found rest scanned => ?_⟩
    · cases text with
      | nil => cases scanned
      | cons char text =>
        have skipped := length_skipBlanks_le text
        rw [List.length_cons]
        rcases scanOnce_cases scanned with ⟨found, read, -⟩ | ⟨empty, -⟩ | ⟨found, read, -⟩ |
          ⟨empty, -⟩ | ⟨found, read, -⟩ | read
        · exact Nat.lt_succ_of_lt (scanString_shorter read)
        · rw [empty, List.length_cons] at skipped
          omega
        · have shorter := items _ _ _ read
          omega
        · rw [empty, List.length_cons] at skipped
          omega
        · have shorter := fields _ _ _ read
          omega
        · exact scanScalar_shorter read
    · obtain ⟨item, behind, read, rests⟩ := scanItems_cases scanned
      have shorter := once _ _ _ read
      have skipped := length_skipBlanks_le behind
      rcases rests with ⟨closed, -⟩ | ⟨next, others, separated, later, -⟩
      · rw [closed, List.length_cons] at skipped
        omega
      · have rest := items _ _ _ later
        have blanks := length_skipBlanks_le next
        rw [separated, List.length_cons] at skipped
        omega
    · obtain ⟨opened, key, marked, colon, value, behind, quote, named, parted, read, rests⟩ :=
        scanFields_cases scanned
      have first := expect_shorter quote
      have second := scanString_shorter named
      have third := expect_shorter parted
      have shorter := once _ _ _ read
      have blanks := length_skipBlanks_le marked
      have spaces := length_skipBlanks_le colon
      have skipped := length_skipBlanks_le behind
      rcases rests with ⟨closed, -⟩ | ⟨next, others, separated, later, -⟩
      · rw [closed, List.length_cons] at skipped
        omega
      · have rest := fields _ _ _ later
        have gap := length_skipBlanks_le next
        rw [separated, List.length_cons] at skipped
        omega

variable {first second : Nat}

/-- Reading a value only depends on the fuel when it opens a container. -/
theorem scanOnce_congr {char : Char} {text : List Char}
    (items : ∀ inner : List Char, inner.length ≤ text.length →
      scanItems floats first inner = scanItems floats second inner)
    (fields : ∀ inner : List Char, inner.length ≤ text.length →
      scanFields floats first inner = scanFields floats second inner) :
    scanOnce floats (first + 1) (char :: text) = scanOnce floats (second + 1) (char :: text) := by
  have inside := length_skipBlanks_le text
  rw [scanOnce, scanOnce]
  generalize skipBlanks text = inner at inside
  -- Texts and numbers need no fuel, and empty containers do not either.
  split_ifs
  · rfl
  · split
    · rfl
    · rw [items inner inside]
  · split
    · rfl
    · rw [fields inner inside]
  · rfl

/-- Reading the items of a list depends on the fuel by the first one and by those behind it. -/
theorem scanItems_congr {text : List Char}
    (once : scanOnce floats first text = scanOnce floats second text)
    (items : ∀ inner : List Char, inner.length < text.length →
      scanItems floats first inner = scanItems floats second inner) :
    scanItems floats (first + 1) text = scanItems floats (second + 1) text := by
  rw [scanItems, scanItems, once]
  cases read : scanOnce floats second text with
  | none => rfl
  | some scanned =>
    obtain ⟨item, behind⟩ := scanned
    -- What is behind the first item is shorter than the text.
    have shorter := (scan_shorter floats second).1 _ _ _ read
    have inside := length_skipBlanks_le behind
    simp only [Option.bind_eq_bind, Option.bind_some]
    split
    · rfl
    · next next separated =>
      have gap := length_skipBlanks_le next
      rw [separated, List.length_cons] at inside
      rw [items (skipBlanks next) (by omega)]
    · rfl

/-- Reading the fields of a dictionary depends on the fuel in the same way. -/
theorem scanFields_congr {text : List Char}
    (once : ∀ inner : List Char, inner.length < text.length →
      scanOnce floats first inner = scanOnce floats second inner)
    (fields : ∀ inner : List Char, inner.length < text.length →
      scanFields floats first inner = scanFields floats second inner) :
    scanFields floats (first + 1) text = scanFields floats (second + 1) text := by
  -- A field is a key, a value and what decides how to go on.
  rw [scanFields, scanFields]
  cases quote : expect ['\x22'] text with
  | none => rfl
  | some opened =>
    have opening := expect_shorter quote
    simp only [Option.bind_eq_bind, Option.bind_some]
    cases named : scanString opened with
    | none => rfl
    | some scanned =>
      obtain ⟨key, marked⟩ := scanned
      have naming := scanString_shorter named
      have blanks := length_skipBlanks_le marked
      simp only [Option.bind_some]
      cases parted : expect [':'] (skipBlanks marked) with
      | none => rfl
      | some colon =>
        have parting := expect_shorter parted
        have spaces := length_skipBlanks_le colon
        simp only [Option.bind_some]
        rw [once (skipBlanks colon) (by omega)]
        cases read : scanOnce floats second (skipBlanks colon) with
        | none => rfl
        | some scanned =>
          obtain ⟨value, behind⟩ := scanned
          have shorter := (scan_shorter floats second).1 _ _ _ read
          have inside := length_skipBlanks_le behind
          simp only [Option.bind_some]
          split
          · rfl
          · next next separated =>
            have gap := length_skipBlanks_le next
            rw [separated, List.length_cons] at inside
            rw [fields (skipBlanks next) (by omega)]
          · rfl

/-- Any two amounts of fuel read the same when both are enough for the length of the text. -/
theorem scan_fuel (floats : Floats) (length : Nat) : ∀ text : List Char, text.length < length →
    (∀ first second, 2 * length ≤ first + 1 → 2 * length ≤ second + 1 →
      scanOnce floats first text = scanOnce floats second text) ∧
    ∀ first second, 2 * length ≤ first → 2 * length ≤ second →
      scanItems floats first text = scanItems floats second text ∧
      scanFields floats first text = scanFields floats second text := by
  -- By induction on the length: what is inside of a container is shorter than the container.
  induction length with
  | zero => exact fun text none => absurd none (Nat.not_lt_zero _)
  | succ length ih =>
    have once : ∀ text : List Char, text.length < length + 1 → ∀ first second,
        2 * (length + 1) ≤ first + 1 → 2 * (length + 1) ≤ second + 1 →
        scanOnce floats first text = scanOnce floats second text := by
      intro text short first second enough more
      obtain ⟨first, rfl⟩ := Nat.exists_eq_add_of_le' (show 1 ≤ first by omega)
      obtain ⟨second, rfl⟩ := Nat.exists_eq_add_of_le' (show 1 ≤ second by omega)
      cases text with
      | nil => rfl
      | cons char text =>
        rw [List.length_cons] at short
        have inner (inside : List Char) (shorter : inside.length ≤ text.length) :=
          (ih inside (by omega)).2 first second (by omega) (by omega)
        exact scanOnce_congr (fun inside shorter => (inner inside shorter).1)
          fun inside shorter => (inner inside shorter).2
    intro text short
    refine ⟨once text short, fun first second enough more => ?_⟩
    obtain ⟨first, rfl⟩ := Nat.exists_eq_add_of_le' (show 1 ≤ first by omega)
    obtain ⟨second, rfl⟩ := Nat.exists_eq_add_of_le' (show 1 ≤ second by omega)
    have inner (inside : List Char) (shorter : inside.length < text.length) :=
      (ih inside (by omega)).2 first second (by omega) (by omega)
    have values (inside : List Char) (shorter : inside.length ≤ text.length) :=
      once inside (by omega) first second (by omega) (by omega)
    exact ⟨scanItems_congr (values text (Nat.le_refl _)) fun inside shorter =>
        (inner inside shorter).1,
      scanFields_congr (fun inside shorter => values inside (Nat.le_of_lt shorter))
        fun inside shorter => (inner inside shorter).2⟩

/-! ### Well-formedness -/

/-- Assignment stores the new item and keeps some of the others. -/
theorem mem_set {fields : List (String × Json)} {key : String} {value : Json}
    {field : String × Json} (member : field ∈ Dict.set fields key value) :
    field = (key, value) ∨ field ∈ fields := by
  -- The assignment stops at the key, or goes on behind another one.
  induction fields with
  | nil => exact .inl (List.mem_singleton.mp member)
  | cons first fields ih =>
    rw [Dict.set] at member
    split_ifs at member
    · rcases List.mem_cons.mp member with here | later
      · exact .inl here
      · exact .inr (List.mem_cons_of_mem _ later)
    · rcases List.mem_cons.mp member with here | later
      · exact .inr (here ▸ List.mem_cons_self)
      · exact (ih later).imp_right (List.mem_cons_of_mem _)

/-- Every item of a merged dictionary stems from one of the two. -/
theorem mem_update {before fields : List (String × Json)} {field : String × Json}
    (member : field ∈ Dict.update before fields) : field ∈ before ∨ field ∈ fields := by
  -- The dictionary grows along the loop, so it stays quantified over.
  induction fields generalizing before with
  | nil => exact .inl member
  | cons first fields ih =>
    rcases ih member with early | late
    · rcases mem_set early with here | before
      · exact .inr (here ▸ List.mem_cons_self)
      · exact .inl before
    · exact .inr (List.mem_cons_of_mem _ late)

/-- A dictionary that is made of well formed values is well formed. -/
theorem wellFormed_update {fields : List (String × Json)}
    (values : ∀ field ∈ fields, field.2.WellFormed) :
    (Json.obj (Dict.update [] fields)).WellFormed := by
  rw [Json.WellFormed, Json.wellFormedFields_iff]
  have empty : (Dict.keys ([] : Dict String Json)).Nodup := List.nodup_nil
  -- The keys stay distinct, and every value is that of a field.
  refine ⟨Dict.nodup_update empty fields, fun field member => ?_⟩
  exact values field ((mem_update member).resolve_left List.not_mem_nil)

/-- A list of well formed items is well formed. -/
theorem wellFormed_arr {items : List Json} (each : ∀ item ∈ items, item.WellFormed) :
    (Json.arr items).WellFormed := by
  rw [Json.WellFormed]
  -- One item is asked for after the other.
  induction items with
  | nil => trivial
  | cons item items ih =>
    exact ⟨each item List.mem_cons_self,
      ih fun other member => each other (List.mem_cons_of_mem _ member)⟩

/-- Constants and numbers are well formed. -/
theorem wellFormed_scalar {text rest : List Char} {value : Json}
    (scanned : scanScalar floats text = some (value, rest)) : value.WellFormed := by
  have unsigned {sign text : List Char} (scanned : scanUnsigned floats sign text =
      some (value, rest)) : value.WellFormed := by
    unfold scanUnsigned at scanned
    dsimp only at scanned
    split_ifs at scanned
    all_goals
      cases scanned
      trivial
  -- The three constants are tried before a number, with or without a minus.
  unfold scanScalar at scanned
  split at scanned
  · cases scanned
    trivial
  · split at scanned
    · cases scanned
      trivial
    · split at scanned
      · cases scanned
        trivial
      · unfold scanNumber at scanned
        split at scanned
        · exact unsigned scanned
        · exact unsigned scanned

/-- What is read is well formed. -/
theorem scan_wellFormed (floats : Floats) (fuel : Nat) :
    (∀ text value rest, scanOnce floats fuel text = some (value, rest) → value.WellFormed) ∧
    (∀ text items rest, scanItems floats fuel text = some (items, rest) →
      ∀ item ∈ items, item.WellFormed) ∧
    ∀ text fields rest, scanFields floats fuel text = some (fields, rest) →
      ∀ field ∈ fields, field.2.WellFormed := by
  -- By induction on the fuel, as the three call each other.
  induction fuel with
  | zero => exact ⟨nofun, nofun, nofun⟩
  | succ fuel ih =>
    obtain ⟨once, items, fields⟩ := ih
    refine ⟨fun text value rest scanned => ?_, fun text found rest scanned item member => ?_,
      fun text found rest scanned field member => ?_⟩
    · cases text with
      | nil => cases scanned
      | cons char text =>
        rcases scanOnce_cases scanned with ⟨found, -, rfl⟩ | ⟨-, rfl⟩ | ⟨found, read, rfl⟩ |
          ⟨-, rfl⟩ | ⟨found, read, rfl⟩ | read
        · trivial
        · exact wellFormed_arr (by simp)
        · exact wellFormed_arr (items _ _ _ read)
        · simp [Json.WellFormed, Json.WellFormedFields]
        · exact wellFormed_update (fields _ _ _ read)
        · exact wellFormed_scalar read
    · obtain ⟨first, behind, read, rests⟩ := scanItems_cases scanned
      rcases rests with ⟨-, rfl⟩ | ⟨next, others, -, later, rfl⟩
      · exact List.mem_singleton.mp member ▸ once _ _ _ read
      · rcases List.mem_cons.mp member with here | among
        · exact here ▸ once _ _ _ read
        · exact items _ _ _ later item among
    · obtain ⟨_, key, _, _, value, behind, -, -, -, read, rests⟩ := scanFields_cases scanned
      rcases rests with ⟨-, rfl⟩ | ⟨next, others, -, later, rfl⟩
      · exact List.mem_singleton.mp member ▸ once _ _ _ read
      · rcases List.mem_cons.mp member with here | among
        · exact here ▸ once _ _ _ read
        · exact fields _ _ _ later field among

/-- What `json.loads` accepts is a well formed value. -/
theorem loads_wellFormed {text : String} {value : Json} (read : loads floats text = some value) :
    value.WellFormed := by
  unfold loads at read
  dsimp only at read
  split_ifs at read
  obtain ⟨⟨found, rest⟩, scanned, ended⟩ := Option.bind_eq_some_iff.mp read
  dsimp only at ended
  split_ifs at ended
  cases ended
  -- Only blanks are left behind the value.
  exact (scan_wellFormed floats _).1 _ _ _ scanned

end AivenExamples.JsonText
