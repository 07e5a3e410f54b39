import Formulary.Text.Printable
import Formulary.Text.Utf8

namespace Formulary.Text

def hexDigit (n : Nat) : Char :=
  if n < 10 then Char.ofNat ('0'.toNat + n) else Char.ofNat ('a'.toNat + (n - 10))

/-- The last `width` hexadecimal digits of a number. -/
def hexDigits : Nat → Nat → List Char
  | 0, _ => []
  | width + 1, n => hexDigits width (n / 16) ++ [hexDigit (n % 16)]

/-- A character between the quotes `quote`. -/
def escapeChar (quote c : Char) : List Char :=
  if c == quote || c == '\\' then ['\\', c]
  else if isPrintable c then [c]
  else match c.toNat with
    | 0x07 => ['\\', 'a']
    | 0x08 => ['\\', 'b']
    | 0x0c => ['\\', 'f']
    | 0x0a => ['\\', 'n']
    | 0x0d => ['\\', 'r']
    | 0x09 => ['\\', 't']
    | 0x0b => ['\\', 'v']
    | n =>
      if n < 0x20 || n == 0x7f then '\\' :: 'x' :: hexDigits 2 n
      else if n < 0x10000 then '\\' :: 'u' :: hexDigits 4 n
      else '\\' :: 'U' :: hexDigits 8 n

def escapeUnit : ByteUnit → List Char
  | .char c => escapeChar '"' c
  | .stray b => '\\' :: 'x' :: hexDigits 2 b.toNat

/-- The literal that denotes a byte sequence. -/
def quoteBytes (bytes : List UInt8) : String :=
  String.ofList ('"' :: (units bytes).flatMap escapeUnit ++ ['"'])

def quote (s : String) : String :=
  String.ofList ('"' :: s.toList.flatMap (escapeChar '"') ++ ['"'])

def quoteChar (c : Char) : String :=
  String.ofList ('\'' :: escapeChar '\'' c ++ ['\''])

def hexValue? (c : Char) : Option Nat :=
  if '0' ≤ c && c ≤ '9' then some (c.toNat - '0'.toNat)
  else if 'a' ≤ c && c ≤ 'f' then some (c.toNat - 'a'.toNat + 10)
  else if 'A' ≤ c && c ≤ 'F' then some (c.toNat - 'A'.toNat + 10)
  else none

def octalValue? (c : Char) : Option Nat :=
  if '0' ≤ c && c ≤ '7' then some (c.toNat - '0'.toNat) else none

/-- Reads digits of a base, most significant first. -/
def digitsValue? (base : Nat) (digit? : Char → Option Nat) (cs : List Char) : Option Nat :=
  cs.foldlM (fun value c => (digit? c).map (value * base + ·)) 0

/-- The bytes of the character with a given code point, if there is one. -/
def codePointBytes? (n : Nat) : Option (List UInt8) :=
  if n.isValidChar then some (encodeUtf8 (String.singleton (Char.ofNat n))) else none

def byte? (n : Nat) : Option (List UInt8) :=
  if n < 256 then some [UInt8.ofNat n] else none

/-- The letters that stand for a character behind a backslash. Of the quotes, only the one around the
literal may be escaped. -/
def simpleEscape? (quote c : Char) : Option Char :=
  match c with
  | 'a' => some '\x07'
  | 'b' => some '\x08'
  | 'f' => some '\x0c'
  | 'n' => some '\n'
  | 'r' => some '\r'
  | 't' => some '\t'
  | 'v' => some '\x0b'
  | '\\' => some '\\'
  | c => if c == quote then some quote else none

/-- Reads one character or escape inside a literal. -/
def unescape? (quote : Char) : List Char → Option (List UInt8 × List Char)
  | [] => none
  | '\\' :: 'x' :: h₁ :: h₀ :: rest =>
    (digitsValue? 16 hexValue? [h₁, h₀] >>= byte?).map (·, rest)
  | '\\' :: 'u' :: h₃ :: h₂ :: h₁ :: h₀ :: rest =>
    (digitsValue? 16 hexValue? [h₃, h₂, h₁, h₀] >>= codePointBytes?).map (·, rest)
  | '\\' :: 'U' :: h₇ :: h₆ :: h₅ :: h₄ :: h₃ :: h₂ :: h₁ :: h₀ :: rest =>
    (digitsValue? 16 hexValue? [h₇, h₆, h₅, h₄, h₃, h₂, h₁, h₀] >>= codePointBytes?).map (·, rest)
  | '\\' :: c :: rest =>
    match simpleEscape? quote c with
    | some d => some (encodeUtf8 (String.singleton d), rest)
    | none =>
      match rest with
      | o₁ :: o₀ :: rest' => (digitsValue? 8 octalValue? [c, o₁, o₀] >>= byte?).map (·, rest')
      | _ => none
  | c :: rest =>
    if c == quote || c == '\n' || c == '\\' then none
    else some (encodeUtf8 (String.singleton c), rest)

theorem length_of_unescape? {quote : Char} {cs rest : List Char} {bytes : List UInt8}
    (h : unescape? quote cs = some (bytes, rest)) : rest.length < cs.length := by
  unfold unescape? at h
  repeat' split at h
  all_goals simp only [Option.map_eq_some_iff, Option.some.injEq, Prod.mk.injEq, reduceCtorEq] at h
  all_goals simp only [List.length_cons]; grind

/-- Reads what follows the opening quote of a literal, up to a closing quote that ends it. -/
def unquoteRest (quote : Char) (cs : List Char) : Option (List UInt8) :=
  if cs = [quote] then some []
  else
    match _ : unescape? quote cs with
    | none => none
    | some (bytes, rest) => (unquoteRest quote rest).map (bytes ++ ·)
termination_by cs.length
decreasing_by exact length_of_unescape? ‹_›

/-- The bytes that a literal denotes. Between single quotes there is at most one character, and
between back quotes nothing is escaped and carriage returns do not count. -/
def unquote? : List Char → Option (List UInt8)
  | '"' :: rest => unquoteRest '"' rest
  | '\'' :: rest =>
    if rest = ['\''] then some []
    else
      match unescape? '\'' rest with
      | some (bytes, ['\'']) => some bytes
      | _ => none
  | '\x60' :: rest =>
    if rest.getLast? = some '\x60' && '\x60' ∉ rest.dropLast then
      some (encodeUtf8 (String.ofList (rest.dropLast.filter (· ≠ '\r'))))
    else none
  | _ => none

end Formulary.Text
