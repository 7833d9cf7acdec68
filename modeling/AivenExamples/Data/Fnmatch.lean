import Mathlib.Data.List.Infix

/-! Shell-style patterns for names: `*`, `?` and sets of characters. -/

namespace AivenExamples.Fnmatch

/-- One part of a pattern. -/
inductive Token where
  /-- `*`: any number of characters. -/
  | many
  /-- `?`: one character. -/
  | one
  /-- `[…]` or `[!…]`: one character inside, or outside, of the ranges. -/
  | set (negated : Bool) (ranges : List (Char × Char))
  | char (literal : Char)
  deriving DecidableEq

/-- The ranges that a set lists; a hyphen without a character on either side stands for itself. -/
def ranges : List Char → List (Char × Char)
  | low :: '-' :: high :: rest => (low, high) :: ranges rest
  | literal :: rest => (literal, literal) :: ranges rest
  | [] => []

/-- What is between the opening and the closing bracket, and what follows, if a set closes. -/
def closeSet (pattern : List Char) : Option (List Char × List Char) :=
  let bang := pattern.takeWhile (· == '!') |>.take 1
  let afterBang := pattern.drop bang.length
  -- A closing bracket in the first place belongs to the set.
  let bracket := afterBang.takeWhile (· == ']') |>.take 1
  let afterBracket := afterBang.drop bracket.length
  match afterBracket.dropWhile (· != ']') with
  | [] => none
  | _ :: rest => some (bang ++ bracket ++ afterBracket.takeWhile (· != ']'), rest)

/-- The set that the text between the brackets describes. -/
def setOf : List Char → Token
  | '!' :: content => .set true (ranges content)
  | content => .set false (ranges content)

/-- The parts of a pattern, of which there are no more than the fuel. -/
def parse : Nat → List Char → List Token
  | 0, _ => []
  | _ + 1, [] => []
  | fuel + 1, '*' :: rest => .many :: parse fuel rest
  | fuel + 1, '?' :: rest => .one :: parse fuel rest
  | fuel + 1, '[' :: rest =>
    match closeSet rest with
    | some (content, rest) => setOf content :: parse fuel rest
    -- A bracket that is never closed stands for itself.
    | none => .char '[' :: parse fuel rest
  | fuel + 1, literal :: rest => .char literal :: parse fuel rest

/-- Whether the parts fit the whole name. -/
def accepts : List Token → List Char → Bool
  | [], name => name.isEmpty
  | .many :: tokens, name => name.tails.any (accepts tokens)
  | .one :: tokens, _ :: name => accepts tokens name
  | .set negated ranges :: tokens, char :: name =>
    (ranges.any fun range => range.1 ≤ char && char ≤ range.2) != negated && accepts tokens name
  | .char literal :: tokens, char :: name => literal == char && accepts tokens name
  | _, [] => false

end Fnmatch

/-- `fnmatch` where the case of letters matters. -/
def fnmatch (name pattern : String) : Bool :=
  Fnmatch.accepts (Fnmatch.parse pattern.toList.length pattern.toList) name.toList

example : fnmatch "logs-2024" "l?gs-[!a-z]*" = true := by decide

end AivenExamples
