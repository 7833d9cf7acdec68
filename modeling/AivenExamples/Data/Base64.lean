import AivenExamples.Data.Json

/-! Encoding base64, and decoding it the lenient way, which skips what is not in the alphabet. -/

namespace AivenExamples.Base64

/-- The six bits that a character of the alphabet stands for. -/
def sextet (char : Char) : Option Nat :=
  if 'A' ≤ char ∧ char ≤ 'Z' then some (char.toNat - 'A'.toNat)
  else if 'a' ≤ char ∧ char ≤ 'z' then some (char.toNat - 'a'.toNat + 26)
  else if '0' ≤ char ∧ char ≤ '9' then some (char.toNat - '0'.toNat + 52)
  else if char = '+' then some 62
  else if char = '/' then some 63
  else none

/--
The decoder inside a group of four characters.

It keeps the position in the group, the bits that are left over and the paddings in a row.
-/
def decodeFrom (position left pads : Nat) : List Char → Except PyError (List UInt8)
  | [] =>
    -- Whole groups are fine, and a group that has begun is not.
    if position = 0 then .ok []
    else if position = 1 then .error (.valueError "Invalid base64-encoded string")
    else .error (.valueError "Incorrect padding")
  | char :: rest =>
    if char = '=' then
      -- Enough padding ends the data, whatever follows.
      if 2 ≤ position then
        if 4 ≤ position + (pads + 1) then .ok [] else decodeFrom position left (pads + 1) rest
      else decodeFrom position left pads rest
    else
      -- Characters outside of the alphabet are passed over.
      match sextet char with
      | none => decodeFrom position left pads rest
      | some bits =>
        -- Three bytes come out of a group of four characters.
        match position with
        | 0 => decodeFrom 1 bits 0 rest
        | 1 => do return .ofNat (left * 4 + bits / 16) :: (← decodeFrom 2 (bits % 16) 0 rest)
        | 2 => do return .ofNat (left * 16 + bits / 4) :: (← decodeFrom 3 (bits % 4) 0 rest)
        | _ => do return .ofNat (left * 64 + bits) :: (← decodeFrom 0 0 0 rest)

/-- `base64.b64decode` of a text, which has to be ASCII. -/
def b64decode (text : String) : Except PyError (List UInt8) :=
  if text.toList.all fun char => char.toNat < 128 then decodeFrom 0 0 0 text.toList
  else .error (.valueError "string argument should contain only ASCII characters")

example : b64decode "YmxvYg==" = .ok [98, 108, 111, 98] := by decide

/-- `base64.b64decode` of bytes, which are read as the characters of their codes. -/
def b64decodeBytes (data : List UInt8) : Except PyError (List UInt8) :=
  decodeFrom 0 0 0 (data.map fun byte => .ofNat byte.toNat)

/-- The character of the alphabet that stands for six bits. -/
def digit (bits : Nat) : Char :=
  if bits < 26 then .ofNat ('A'.toNat + bits)
  else if bits < 52 then .ofNat ('a'.toNat + (bits - 26))
  else if bits < 62 then .ofNat ('0'.toNat + (bits - 52))
  else if bits = 62 then '+'
  else '/'

/-- The encoder: four characters for three bytes, the last group filled up with paddings. -/
def encode : List UInt8 → List Char
  | [] => []
  | [first] => [digit (first.toNat / 4), digit (first.toNat % 4 * 16), '=', '=']
  | [first, second] =>
    [digit (first.toNat / 4), digit (first.toNat % 4 * 16 + second.toNat / 16),
      digit (second.toNat % 16 * 4), '=']
  | first :: second :: third :: rest =>
    digit (first.toNat / 4) :: digit (first.toNat % 4 * 16 + second.toNat / 16) ::
      digit (second.toNat % 16 * 4 + third.toNat / 64) :: digit (third.toNat % 64) :: encode rest

/-- `base64.b64encode` of bytes, which returns bytes. -/
def b64encode (data : List UInt8) : List UInt8 :=
  (encode data).map fun char => .ofNat char.toNat

/-- Each digit stands for its own six bits, is no padding and is ASCII. -/
theorem digit_spec {bits : Nat} (small : bits < 64) :
    sextet (digit bits) = some bits ∧ digit bits ≠ '=' ∧ (digit bits).toNat < 256 := by
  -- There are sixty-four digits.
  have all : ∀ bits : Fin 64, sextet (digit bits) = some bits.val ∧ digit bits ≠ '=' ∧
      (digit bits).toNat < 256 := by decide
  exact all ⟨bits, small⟩

/-- A digit is decoded by its six bits, at any position of a group. -/
theorem decodeFrom_digit {bits : Nat} (small : bits < 64) (position left pads : Nat)
    (rest : List Char) :
    decodeFrom position left pads (digit bits :: rest) =
      match position with
      | 0 => decodeFrom 1 bits 0 rest
      | 1 => do return .ofNat (left * 4 + bits / 16) :: (← decodeFrom 2 (bits % 16) 0 rest)
      | 2 => do return .ofNat (left * 16 + bits / 4) :: (← decodeFrom 3 (bits % 4) 0 rest)
      | _ => do return .ofNat (left * 64 + bits) :: (← decodeFrom 0 0 0 rest) := by
  -- A digit is neither padding nor a character to be skipped.
  obtain ⟨bitsOf, noPadding, -⟩ := digit_spec small
  rw [decodeFrom.eq_def]
  simp only [if_neg noPadding, bitsOf]

/-- The first byte of a group is made of its first two digits. -/
theorem first_byte (first : UInt8) {low : Nat} (short : low < 16) :
    UInt8.ofNat (first.toNat / 4 * 4 + (first.toNat % 4 * 16 + low) / 16) = first := by
  have joined : first.toNat / 4 * 4 + (first.toNat % 4 * 16 + low) / 16 = first.toNat := by omega
  rw [joined, UInt8.ofNat_toNat]

/-- The second byte of a group is made of its second and third digits. -/
theorem second_byte (second : UInt8) (high : Nat) {low : Nat} (short : low < 4) :
    UInt8.ofNat ((high * 16 + second.toNat / 16) % 16 * 16 + (second.toNat % 16 * 4 + low) / 4) =
      second := by
  have size := second.toNat_lt
  -- The upper half comes from the digit before, whatever else that digit holds.
  have joined : (high * 16 + second.toNat / 16) % 16 * 16 +
      (second.toNat % 16 * 4 + low) / 4 = second.toNat := by omega
  rw [joined, UInt8.ofNat_toNat]

/-- The third byte of a group is made of its third and fourth digits. -/
theorem third_byte (third : UInt8) (high : Nat) :
    UInt8.ofNat ((high * 4 + third.toNat / 64) % 4 * 64 + third.toNat % 64) = third := by
  have size := third.toNat_lt
  have joined : (high * 4 + third.toNat / 64) % 4 * 64 + third.toNat % 64 = third.toNat := by omega
  rw [joined, UInt8.ofNat_toNat]

/-- The decoder gives back what was encoded. -/
theorem decodeFrom_encode (data : List UInt8) : decodeFrom 0 0 0 (encode data) = .ok data := by
  -- One group of three bytes at a time, and the padded group at the end.
  fun_induction encode data with
  | case1 => rfl
  | case2 first =>
    have size := first.toNat_lt
    have byte := first_byte first (show 0 < 16 by omega)
    rw [Nat.add_zero] at byte
    simp (disch := omega) only [decodeFrom_digit, byte]
    rfl
  | case3 first second =>
    have size := first.toNat_lt
    have size' := second.toNat_lt
    have byte := second_byte second (first.toNat % 4) (show 0 < 4 by omega)
    rw [Nat.add_zero] at byte
    simp (disch := omega) only [decodeFrom_digit, first_byte, byte]
    rfl
  | case4 first second third rest ih =>
    have size := first.toNat_lt
    have size' := second.toNat_lt
    have size'' := third.toNat_lt
    simp (disch := omega) only [decodeFrom_digit, first_byte, second_byte, third_byte, ih]
    rfl

/-- Every character that the encoder writes has a code of one byte. -/
theorem encode_small (data : List UInt8) : ∀ char ∈ encode data, char.toNat < 256 := by
  -- They are digits and paddings.
  have small {bits : Nat} (within : bits < 64) : (digit bits).toNat < 256 := (digit_spec within).2.2
  fun_induction encode data with
  | case1 => simp
  | case2 first =>
    have size := first.toNat_lt
    simp [small (show first.toNat / 4 < 64 by omega),
      small (show first.toNat % 4 * 16 < 64 by omega)]
  | case3 first second =>
    have size := first.toNat_lt
    have size' := second.toNat_lt
    simp [small (show first.toNat / 4 < 64 by omega),
      small (show first.toNat % 4 * 16 + second.toNat / 16 < 64 by omega),
      small (show second.toNat % 16 * 4 < 64 by omega)]
  | case4 first second third rest ih =>
    have size := first.toNat_lt
    have size' := second.toNat_lt
    have size'' := third.toNat_lt
    simp only [List.forall_mem_cons]
    exact ⟨small (by omega), small (by omega), small (by omega), small (by omega), ih⟩

/-- Decoding the encoded bytes gives them back. -/
theorem b64decodeBytes_b64encode (data : List UInt8) :
    b64decodeBytes (b64encode data) = .ok data := by
  -- The bytes are the codes of the characters, which all fit.
  have chars : (b64encode data).map (fun byte => Char.ofNat byte.toNat) = encode data := by
    rw [b64encode, List.map_map]
    refine (List.map_congr_left fun char member => ?_).trans (List.map_id _)
    have code : (UInt8.ofNat char.toNat).toNat = char.toNat := by
      rw [UInt8.toNat_ofNat']
      exact Nat.mod_eq_of_lt (encode_small data char member)
    rw [Function.comp, code, Char.ofNat_toNat, id]
  rw [b64decodeBytes, chars, decodeFrom_encode]

end AivenExamples.Base64
