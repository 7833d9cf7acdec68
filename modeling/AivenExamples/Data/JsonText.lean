import AivenExamples.Data.Json

/-! JSON as text: how Python's `json` module writes a value, and how it reads one. -/

namespace AivenExamples.JsonText

/-- The layout of the text; without an indent it is a single line. -/
structure Layout where
  ensureAscii : Bool
  indent : Option Nat

/--
The text of a number that is not integral, and the value of such a text.

Values are finite; a text beyond the range of the format has whatever value is given here.
-/
structure Floats where
  repr : Rat → List Char
  value : List Char → Rat

/-- `None` as text. -/
def nullText : List Char := ['n', 'u', 'l', 'l']

/-- `True` as text. -/
def trueText : List Char := ['t', 'r', 'u', 'e']

/-- `False` as text. -/
def falseText : List Char := ['f', 'a', 'l', 's', 'e']

/-! ### Writing -/

/-- A code unit as an escape of four hexadecimal digits. -/
def unicodeEscape (unit : Nat) : List Char :=
  ['\\', 'u', (unit / 4096).digitChar, (unit / 256 % 16).digitChar, (unit / 16 % 16).digitChar,
    (unit % 16).digitChar]

/-- The code units of a character beyond the basic plane. -/
def surrogates (code : Nat) : List Nat :=
  [0xd800 + (code - 0x10000) / 0x400, 0xdc00 + (code - 0x10000) % 0x400]

/-- The characters with an escape of their own, and the letters that stand for them. -/
def shortEscapes : List (Char × Char) :=
  [('\x22', '\x22'), ('\\', '\\'), ('\n', 'n'), ('\r', 'r'), ('\t', 't'), ('\x0c', 'f'),
    ('\x08', 'b')]

/-- A character inside of a text. -/
def escape (layout : Layout) (char : Char) : List Char :=
  match Dict.get? shortEscapes char with
  | some letter => ['\\', letter]
  | none =>
    if char.toNat < 0x20 then unicodeEscape char.toNat
    else if layout.ensureAscii && 0x7e < char.toNat then
      if char.toNat < 0x10000 then unicodeEscape char.toNat
      else (surrogates char.toNat).flatMap unicodeEscape
    else [char]

/-- A text between quotes. -/
def quoted (layout : Layout) (text : String) : List Char :=
  '\x22' :: text.toList.flatMap (escape layout) ++ ['\x22']

/-- An integer. -/
def integer : Int → List Char
  | .ofNat value => Nat.toDigits 10 value
  | .negSucc value => '-' :: Nat.toDigits 10 (value + 1)

/-- A number, which only has a point when it is not integral. -/
def number (floats : Floats) (value : Rat) : List Char :=
  if value.den = 1 then integer value.num else floats.repr value

/-- What stands before the first item of a container, and behind the last one. -/
def newline (layout : Layout) (level : Nat) : List Char :=
  match layout.indent with
  | none => []
  | some width => '\n' :: List.replicate (width * level) ' '

/-- What stands between two items of a container. -/
def separator (layout : Layout) (level : Nat) : List Char :=
  match layout.indent with
  | none => [',', ' ']
  | some _ => ',' :: newline layout level

mutual

/-- A value at a level of indentation. -/
def write (layout : Layout) (floats : Floats) (level : Nat) : Json → List Char
  | .null => nullText
  | .bool true => trueText
  | .bool false => falseText
  | .num value => number floats value
  | .str text => quoted layout text
  | .arr [] => ['[', ']']
  | .arr (item :: items) =>
    '[' :: newline layout (level + 1) ++ write layout floats (level + 1) item ++
      writeItems layout floats (level + 1) items ++ newline layout level ++ [']']
  | .obj [] => ['\x7b', '\x7d']
  | .obj ((key, value) :: fields) =>
    '\x7b' :: newline layout (level + 1) ++ quoted layout key ++ [':', ' '] ++
      write layout floats (level + 1) value ++ writeFields layout floats (level + 1) fields ++
        newline layout level ++ ['\x7d']

/-- The items of a list behind the first one. -/
def writeItems (layout : Layout) (floats : Floats) (level : Nat) : List Json → List Char
  | [] => []
  | item :: items =>
    separator layout level ++ write layout floats level item ++
      writeItems layout floats level items

/-- The fields of a dictionary behind the first one. -/
def writeFields (layout : Layout) (floats : Floats) (level : Nat) :
    List (String × Json) → List Char
  | [] => []
  | (key, value) :: fields =>
    separator layout level ++ quoted layout key ++ [':', ' '] ++
      write layout floats level value ++ writeFields layout floats level fields

end

/-- `json.dumps(value, …)` -/
def dumps (layout : Layout) (floats : Floats) (value : Json) : String :=
  String.ofList (write layout floats 0 value)

/-! ### Reading -/

/-- The characters that may stand around the parts of a value. -/
def isBlank (char : Char) : Bool := char ∈ [' ', '\t', '\n', '\r']

/-- The text behind its blanks. -/
def skipBlanks (text : List Char) : List Char := text.dropWhile isBlank

/-- The value of a hexadecimal digit, small or capital. -/
def hexValue (char : Char) : Option Nat :=
  if '0' ≤ char ∧ char ≤ '9' then some (char.toNat - '0'.toNat)
  else if 'a' ≤ char ∧ char ≤ 'f' then some (char.toNat - 'a'.toNat + 10)
  else if 'A' ≤ char ∧ char ≤ 'F' then some (char.toNat - 'A'.toNat + 10)
  else none

/-- The code unit of four hexadecimal digits. -/
def hexUnit (first second third fourth : Char) : Option Nat := do
  let high := (← hexValue first) * 16 + (← hexValue second)
  let low := (← hexValue third) * 16 + (← hexValue fourth)
  return high * 256 + low

/-- The character that an escape of one letter stands for. -/
def unescape (letter : Char) : Option Char :=
  if letter = '/' then some '/'
  else (shortEscapes.find? fun item => item.2 = letter).map Prod.fst

/-- The code units up to the closing quote, and the text behind it. -/
def scanUnits : List Char → Option (List Nat × List Char)
  | [] => none
  | char :: rest =>
    if char = '\x22' then some ([], rest)
    else if char = '\\' then
      match rest with
      | [] => none
      | letter :: rest =>
        if letter = 'u' then
          match rest with
          | first :: second :: third :: fourth :: rest =>
            (hexUnit first second third fourth).bind fun unit =>
              (scanUnits rest).map fun scanned => (unit :: scanned.1, scanned.2)
          | _ => none
        else (unescape letter).bind fun char =>
          (scanUnits rest).map fun scanned => (char.toNat :: scanned.1, scanned.2)
    -- A control character has to be escaped.
    else if char.toNat < 0x20 then none
    else (scanUnits rest).map fun scanned => (char.toNat :: scanned.1, scanned.2)

/-- The characters that code units stand for; a surrogate without its partner is none. -/
def joinUnits : List Nat → Option (List Char)
  | [] => some []
  | unit :: units =>
    if 0xd800 ≤ unit ∧ unit < 0xdc00 then
      match units with
      | low :: units =>
        if 0xdc00 ≤ low ∧ low < 0xe000 then
          (joinUnits units).map
            (Char.ofNat (0x10000 + (unit - 0xd800) * 0x400 + (low - 0xdc00)) :: ·)
        else none
      | [] => none
    else if 0xdc00 ≤ unit ∧ unit < 0xe000 then none
    else (joinUnits units).map (Char.ofNat unit :: ·)

/-- A text behind its opening quote. -/
def scanString (text : List Char) : Option (String × List Char) := do
  let (units, rest) ← scanUnits text
  return (String.ofList (← joinUnits units), rest)

/-- The digits behind a point, when there are some. -/
def scanFraction (text : List Char) : List Char × List Char :=
  match text with
  | '.' :: digit :: rest =>
    if digit.isDigit then ('.' :: digit :: rest.takeWhile Char.isDigit, rest.dropWhile Char.isDigit)
    else ([], text)
  | _ => ([], text)

/-- The sign of an exponent, which may be left out. -/
def scanSign (text : List Char) : List Char × List Char :=
  match text with
  | '+' :: rest => (['+'], rest)
  | '-' :: rest => (['-'], rest)
  | _ => ([], text)

/-- The exponent, when there is one. -/
def scanExponent (text : List Char) : List Char × List Char :=
  match text with
  | letter :: rest =>
    if letter = 'e' ∨ letter = 'E' then
      let (sign, digits) := scanSign rest
      if (digits.takeWhile Char.isDigit).isEmpty then ([], text)
      else (letter :: sign ++ digits.takeWhile Char.isDigit, digits.dropWhile Char.isDigit)
    else ([], text)
  | [] => ([], text)

/-- The digits before the point, which only start with a zero when it is the only one. -/
def scanDigits (text : List Char) : List Char × List Char :=
  match text with
  | '0' :: rest => (['0'], rest)
  | _ => (text.takeWhile Char.isDigit, text.dropWhile Char.isDigit)

/-- A number behind its sign. -/
def scanUnsigned (floats : Floats) (sign : List Char) (text : List Char) :
    Option (Json × List Char) :=
  let (digits, rest) := scanDigits text
  if digits.isEmpty then none
  else
    let (fraction, rest) := scanFraction rest
    let (exponent, rest) := scanExponent rest
    if fraction.isEmpty && exponent.isEmpty then
      let value : Int := Nat.ofDigitChars 10 digits 0
      some (.num (if sign.isEmpty then value else -value : Int), rest)
    else some (.num (floats.value (sign ++ digits ++ fraction ++ exponent)), rest)

/-- A number. -/
def scanNumber (floats : Floats) (text : List Char) : Option (Json × List Char) :=
  match text with
  | '-' :: rest => scanUnsigned floats ['-'] rest
  | _ => scanUnsigned floats [] text

/-- What is behind the expected text. -/
def expect (expected text : List Char) : Option (List Char) :=
  if expected.isPrefixOf text then some (text.drop expected.length) else none

/-- One of the three constants or a number. -/
def scanScalar (floats : Floats) (text : List Char) : Option (Json × List Char) :=
  match expect nullText text with
  | some rest => some (.null, rest)
  | none =>
    match expect trueText text with
    | some rest => some (.bool true, rest)
    | none =>
      match expect falseText text with
      | some rest => some (.bool false, rest)
      | none => scanNumber floats text

mutual

/-- One value at the start of the text, and the text behind it; the fuel bounds the nesting. -/
def scanOnce (floats : Floats) : Nat → List Char → Option (Json × List Char)
  | 0, _ => none
  | _ + 1, [] => none
  | fuel + 1, char :: rest =>
    if char = '\x22' then (scanString rest).map fun scanned => (.str scanned.1, scanned.2)
    else if char = '[' then
      match skipBlanks rest with
      | ']' :: rest => some (.arr [], rest)
      | text => (scanItems floats fuel text).map fun scanned => (.arr scanned.1, scanned.2)
    else if char = '\x7b' then
      match skipBlanks rest with
      | '\x7d' :: rest => some (.obj [], rest)
      -- A later value of a key takes the place of the earlier one.
      | text => (scanFields floats fuel text).map fun scanned =>
          (.obj (Dict.update [] scanned.1), scanned.2)
    else scanScalar floats (char :: rest)

/-- The items of a list up to its closing bracket. -/
def scanItems (floats : Floats) : Nat → List Char → Option (List Json × List Char)
  | 0, _ => none
  | fuel + 1, text => do
    let (item, rest) ← scanOnce floats fuel text
    match skipBlanks rest with
    | ']' :: rest => return ([item], rest)
    | ',' :: rest => do
      let (items, rest) ← scanItems floats fuel (skipBlanks rest)
      return (item :: items, rest)
    | _ => none

/-- The fields of a dictionary up to its closing brace. -/
def scanFields (floats : Floats) : Nat → List Char → Option (List (String × Json) × List Char)
  | 0, _ => none
  | fuel + 1, text => do
    let (key, rest) ← scanString (← expect ['\x22'] text)
    let rest ← expect [':'] (skipBlanks rest)
    let (value, rest) ← scanOnce floats fuel (skipBlanks rest)
    match skipBlanks rest with
    | '\x7d' :: rest => return ([(key, value)], rest)
    | ',' :: rest => do
      let (fields, rest) ← scanFields floats fuel (skipBlanks rest)
      return ((key, value) :: fields, rest)
    | _ => none

end

/--
`json.loads(text)`, or nothing when the text is refused.

`NaN`, `Infinity`, `-Infinity` and half of a surrogate pair, which Python reads, are refused here:
no value stands for them.
-/
def loads (floats : Floats) (text : String) : Option Json :=
  let text := text.toList
  -- A byte order mark is not a blank.
  if text.head? = some '\ufeff' then none
  else do
    let (value, rest) ← scanOnce floats (2 * text.length + 1) (skipBlanks text)
    if (skipBlanks rest).isEmpty then some value else none

end AivenExamples.JsonText
