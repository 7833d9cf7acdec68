import AivenExamples.Data.Json
import Mathlib.Algebra.Group.Nat.Defs

/-! Decimal numbers as text: their digits, and how Python reads them. -/

namespace AivenExamples.Decimal

/-- The blanks that Python strips from the ends of a number, as far as they are ASCII. -/
def isBlank (char : Char) : Bool := char ∈ [' ', '\t', '\n', '\r', '\x0b', '\x0c']

/-- Text without the blanks at its ends. -/
def strip (text : List Char) : List Char :=
  (text.dropWhile isBlank).reverse.dropWhile isBlank |>.reverse

/-- Groups of digits with single underscores between them. -/
def digitGroups (text : List Char) : Option Nat :=
  let groups := text.splitOn '_'
  if groups.all fun group => !group.isEmpty && group.all Char.isDigit then
    some (Nat.ofDigitChars 10 groups.flatten 0)
  else none

/-- `int(text)` for ASCII text. -/
def int (text : List Char) : Except PyError Int :=
  let number := match strip text with
    | '-' :: digits => (digitGroups digits).map fun value => -(value : Int)
    | '+' :: digits => (digitGroups digits).map fun value => (value : Int)
    | digits => (digitGroups digits).map fun value => (value : Int)
  match number with
  | some value => .ok value
  | none => .error (.valueError "invalid literal for int() with base 10")

/-- A digit is no blank. -/
theorem isBlank_of_isDigit {char : Char} (digit : char.isDigit) : isBlank char = false := by
  -- None of the six blanks is a digit.
  by_contra blank
  simp only [isBlank, List.mem_cons, List.not_mem_nil, or_false, Bool.not_eq_false,
    decide_eq_true_eq] at blank
  rcases blank with same | same | same | same | same | same <;> rw [same] at digit <;>
    exact absurd digit (by decide)

/-- Digits are left alone by stripping. -/
theorem strip_digits {text : List Char} (digits : ∀ char ∈ text, char.isDigit) :
    strip text = text := by
  -- There is nothing to strip at either end.
  have kept {text : List Char} (digits : ∀ char ∈ text, char.isDigit) :
      text.dropWhile isBlank = text := by
    cases text with
    | nil => rfl
    | cons first rest =>
      rw [List.dropWhile_cons_of_neg]
      simp [isBlank_of_isDigit (digits first List.mem_cons_self)]
  have reversed : ∀ char ∈ text.reverse, char.isDigit :=
    fun char member => digits char (List.mem_reverse.mp member)
  rw [strip, kept digits, kept reversed, List.reverse_reverse]

/-- Digits are read as the number they stand for. -/
theorem int_digits {text : List Char} (nonempty : text ≠ [])
    (digits : ∀ char ∈ text, char.isDigit) :
    int text = .ok (Nat.ofDigitChars 10 text 0 : Nat) := by
  have noUnderscore : '_' ∉ text := fun member => absurd (digits '_' member) (by decide)
  have whole : digitGroups text = some (Nat.ofDigitChars 10 text 0) := by
    have all : text.all Char.isDigit := List.all_eq_true.mpr digits
    simp [digitGroups, List.splitOn_eq_singleton noUnderscore, nonempty, all]
  unfold int
  rw [strip_digits digits]
  -- A digit is neither of the signs.
  split
  · exact absurd (digits '-' List.mem_cons_self) (by decide)
  · exact absurd (digits '+' List.mem_cons_self) (by decide)
  · rw [whole]
    rfl

/-- The first digits of a number are what is left when the others are divided away. -/
theorem ofDigitChars_take_toDigits (cut : Nat) {number count : Nat}
    (low : 10 ^ count ≤ number / 10 ^ cut) (high : number / 10 ^ cut < 10 ^ (count + 1)) :
    Nat.ofDigitChars 10 ((Nat.toDigits 10 number).take (count + 1)) 0 = number / 10 ^ cut := by
  -- One digit after the other is dropped from the end.
  induction cut generalizing number with
  | zero =>
    rw [Nat.pow_zero, Nat.div_one] at high ⊢
    have short := (Nat.length_toDigits_le_iff (by omega) (by omega)).mpr high
    rw [List.take_of_length_le short, Nat.ofDigitChars_ten_toDigits]
  | succ cut ih =>
    have shift : number / 10 ^ (cut + 1) = number / 10 / 10 ^ cut := by
      rw [Nat.pow_succ, Nat.mul_comm, Nat.div_div_eq_div_mul]
    rw [shift] at low high ⊢
    have atLeast : 10 ^ count ≤ number / 10 := Nat.le_trans low (Nat.div_le_self _ _)
    have positive : 1 ≤ 10 ^ count := Nat.one_le_pow _ _ (by omega)
    have long : count + 1 ≤ (Nat.toDigits 10 (number / 10)).length := by
      by_contra short
      cases count with
      | zero =>
        have some := @Nat.length_toDigits_pos 10 (number / 10)
        omega
      | succ count =>
        have small := (Nat.length_toDigits_le_iff (b := 10) (by omega) (by omega)).mp
          (Nat.le_of_lt_succ (Nat.lt_of_not_le short))
        omega
    rw [Nat.toDigits_of_base_le (by omega) (by omega), List.take_append_of_le_length long]
    exact ih low high

end AivenExamples.Decimal
