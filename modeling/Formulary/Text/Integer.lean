import Formulary.Text.Quoted

namespace Formulary.Text

/-- The value of a digit. Letters of either case are the digits from ten on. -/
def digitValue? (c : Char) : Option Nat :=
  if '0' ≤ c && c ≤ '9' then some (c.toNat - '0'.toNat)
  else if 'a' ≤ c && c ≤ 'z' then some (c.toNat - 'a'.toNat + 10)
  else if 'A' ≤ c && c ≤ 'Z' then some (c.toNat - 'A'.toNat + 10)
  else none

/-- Whether a number fits into 64 bits, one of them for the sign. -/
def isWord (n : Int) : Bool := -0x8000000000000000 ≤ n && n < 0x8000000000000000

/-- The sign of a written number, and what is behind it. -/
def splitSign : List Char → Int × List Char
  | '-' :: rest => (-1, rest)
  | '+' :: rest => (1, rest)
  | cs => (1, cs)

/-- The number that decimal digits behind an optional sign denote. -/
def integer? (cs : List Char) : Option Int :=
  let (sign, digits) := splitSign cs
  let digit? (c : Char) : Option Nat := (digitValue? c).filter (· < 10)
  if digits.isEmpty then none
  else ((digitsValue? 10 digit? digits).map fun n => sign * n).filter isWord

inductive NumberError where
  | malformed
  | tooLarge

def NumberError.message : NumberError → String
  | .malformed => "parse error"
  | .tooLarge => "value out of range"

/-- The base that a number is written in, and its digits. A prefix of `0b`, `0o` or `0x` tells the
base, a zero in front alone is for octal. -/
def splitBase : List Char → Nat × List Char
  | '0' :: 'b' :: c :: rest | '0' :: 'B' :: c :: rest => (2, c :: rest)
  | '0' :: 'o' :: c :: rest | '0' :: 'O' :: c :: rest => (8, c :: rest)
  | '0' :: 'x' :: c :: rest | '0' :: 'X' :: c :: rest => (16, c :: rest)
  | '0' :: rest => (8, rest)
  | cs => (10, cs)

/-- The value of digits of a base after those that have the value `n`. Underscores are skipped. What is
wrong first counts, so a number is too large whatever follows. -/
def readDigits (base n : Nat) : List Char → Except NumberError Nat
  | [] => .ok n
  | c :: rest =>
    if c = '_' then readDigits base n rest
    else
      match (digitValue? c).filter (· < base) with
      | none => .error .malformed
      | some d =>
        if n * base + d < 0x10000000000000000 then readDigits base (n * base + d) rest else .error .tooLarge

/-- Whether each underscore stands between digits, given whether a digit is in front. -/
def isSeparated (digitBefore : Bool) : List Char → Bool
  | [] => digitBefore
  | c :: rest => if c = '_' then digitBefore && isSeparated false rest else isSeparated true rest

/-- Whether the underscores of a number are in place. The prefix of a base counts as a digit. -/
def underscoresFit : List Char → Bool
  | '0' :: c :: rest =>
    if c ∈ ['b', 'B', 'o', 'O', 'x', 'X'] then isSeparated true rest
    else isSeparated true (c :: rest)
  | cs => isSeparated false cs

/-- The number that digits of some base behind an optional sign denote. -/
def prefixedInteger (cs : List Char) : Except NumberError Int := do
  let (sign, unsigned) := splitSign cs
  if unsigned.isEmpty then throw .malformed
  let (base, digits) := splitBase unsigned
  let n ← readDigits base 0 digits
  unless '_' ∉ unsigned || underscoresFit unsigned do throw .malformed
  if isWord (sign * n) then return sign * n else throw .tooLarge

end Formulary.Text
