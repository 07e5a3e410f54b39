import Formulary.Expr
import Formulary.Parser.Step

/-!
Reading patterns and expressions. Operators bind by strength; an operator of a chain takes the
operands up to the next operator that does not bind more strongly.
-/

namespace Formulary.Parser

open Formulary.Text

/-- A name without arguments in a pattern is a constructor if it starts with an upper case letter,
and a variable otherwise. -/
def isConstructorName (name : String) : Bool := name.toList.head?.any isUpperCase

def pattern (finish : Position) (ts : List Token) : Step Pattern ts :=
  match ts with
  | [] => failAt finish .expectedPattern []
  | t :: rest =>
    match t.kind with
    | .underscore => .ok ⟨(.wildcard, rest), by simp⟩
    | .number | .string => .ok ⟨(.const t.lexeme, rest), by simp⟩
    | .minus => do
      let ⟨(n, rest'), hn⟩ ← need finish .number "after '-' in pattern" rest
      .ok ⟨(.const ("-" ++ n.lexeme), rest'), Nat.lt_succ_of_lt hn⟩
    | .identifier =>
      let bare : Pattern :=
        if isConstructorName t.lexeme then .constructor t.lexeme [] else .var t.lexeme
      match rest with
      | [] => .ok ⟨(bare, []), by simp⟩
      | u :: rest' =>
        if u.kind = .leftParen then do
          let ⟨(args, rest''), hargs⟩ ←
            commaList finish .rightParen "to close constructor pattern" rest'
              fun us _ => pattern finish us
          .ok ⟨(.constructor t.lexeme args, rest''), Nat.lt_succ_of_lt (Nat.lt_succ_of_lt hargs)⟩
        else .ok ⟨(bare, u :: rest'), by simp⟩
    | _ => failAt finish .expectedPattern (t :: rest)
termination_by ts.length
decreasing_by grind

/-- An operator between two operands. -/
structure BinaryOperator where
  /-- The operation that the operator stands for. -/
  name : String
  strength : Nat
  toTheRight : Bool

/-- The least strength that an operator needs to be taken into the right operand. -/
def BinaryOperator.bound (op : BinaryOperator) : Nat :=
  if op.toTheRight then op.strength - 1 else op.strength

def binaryOperator? : Token.Kind → Option BinaryOperator
  | .equals | .doubleEquals => some ⟨"equals", 10, false⟩
  | .less => some ⟨"less_than", 20, false⟩
  | .greater => some ⟨"greater_than", 20, false⟩
  | .plus => some ⟨"plus", 30, false⟩
  | .minus => some ⟨"minus", 30, false⟩
  | .times => some ⟨"times", 40, false⟩
  | .divide => some ⟨"divide", 40, false⟩
  | .power => some ⟨"power", 50, true⟩
  | _ => none

/-- A minus in front of an operand binds more strongly than products, less strongly than powers. -/
def negationStrength : Nat := 45

/-- Whether the tokens start with a number that is no base of a power. Behind a minus such a number
is a literal. -/
def startsWithFactor : List Token → Bool
  | t :: u :: _ => t.kind = .number && u.kind ≠ .power
  | [t] => t.kind = .number
  | [] => false

mutual

/-- Reads an operand and the operators behind it that are stronger than `bound`. -/
def expr (finish : Position) (bound : Nat) (ts : List Token) : Step Expr ts := do
  let ⟨(left, rest), hleft⟩ ← operand finish ts
  let ⟨(e, rest'), he⟩ ← operators finish bound left rest
  .ok ⟨(e, rest'), by simp only at *; omega⟩
termination_by (ts.length, 1)
decreasing_by all_goals grind

def operators (finish : Position) (bound : Nat) (left : Expr) (ts : List Token) :
    OptionalStep Expr ts :=
  match ts with
  | [] => .ok ⟨(left, []), by simp⟩
  | t :: rest =>
    match binaryOperator? t.kind with
    | none => .ok ⟨(left, t :: rest), by simp⟩
    | some op =>
      if op.strength ≤ bound then .ok ⟨(left, t :: rest), by simp⟩
      else do
        let ⟨(right, rest'), hright⟩ ← expr finish op.bound rest
        let ⟨(e, rest''), he⟩ ←
          operators finish bound (.operation op.name [left, right]) rest'
        .ok ⟨(e, rest''), by simp only [List.length_cons] at *; omega⟩
termination_by (ts.length, 0)
decreasing_by all_goals grind

def operand (finish : Position) (ts : List Token) : Step Expr ts :=
  match ts with
  | [] => failAt finish .expectedExpression []
  | t :: rest =>
    match t.kind with
    | .number | .string => .ok ⟨(.const t.lexeme, rest), by simp⟩
    | .minus =>
      match rest with
      | [] => failAt finish .expectedExpression []
      | n :: rest' =>
        if startsWithFactor (n :: rest') then
          .ok ⟨(.const ("-" ++ n.lexeme), rest'), by simp only [List.length_cons] at *; omega⟩
        else do
          let ⟨(e, rest''), he⟩ ← expr finish negationStrength (n :: rest')
          .ok ⟨(.operation "negate" [e], rest''), by simp only [List.length_cons] at *; omega⟩
    | .identifier =>
      match rest with
      | [] => .ok ⟨(.object t.lexeme, []), by simp⟩
      | u :: rest' =>
        if u.kind = .leftParen then do
          let ⟨(args, rest''), hargs⟩ ←
            commaList finish .rightParen "to close arguments" rest' fun us _ => expr finish 0 us
          .ok ⟨(.operation t.lexeme args, rest''), by simp only [List.length_cons] at *; omega⟩
        else .ok ⟨(.object t.lexeme, u :: rest'), by simp⟩
    | .leftParen => do
      let ⟨(inner, rest'), hinner⟩ ← expr finish 0 rest
      let ⟨(_, rest''), hclose⟩ ←
        need finish .rightParen "to close parenthesized expression" rest'
      .ok ⟨(inner, rest''), by simp only [List.length_cons] at *; omega⟩
    | .matchWord => do
      let ⟨(scrutinee, rest₁), hscrutinee⟩ ← expr finish 0 rest
      let ⟨(_, rest₂), hopen⟩ ← need finish .leftBrace "to open match cases" rest₁
      let ⟨(_, rest₃), hbar⟩ := skip .bar rest₂
      let ⟨(cases, rest₄), hcases⟩ ← matchCases finish rest₃
      .ok ⟨(.matching scrutinee cases, rest₄), by simp only [List.length_cons] at *; omega⟩
    | _ => failAt finish .expectedExpression (t :: rest)
termination_by (ts.length, 0)
decreasing_by all_goals grind

/-- Reads the cases of a match up to and with its closing brace. A bar or a semicolon separates two
cases and may follow the last. -/
def matchCases (finish : Position) (ts : List Token) : Step (List (Pattern × Expr)) ts :=
  match ts with
  | [] => failAt finish .expectedPattern []
  | t :: rest =>
    if t.kind = .rightBrace then .ok ⟨([], rest), by simp⟩
    else do
      let ⟨(p, rest₁), hp⟩ ← pattern finish (t :: rest)
      let ⟨(_, rest₂), harrow⟩ ← need finish .fatArrow "after pattern" rest₁
      let ⟨(body, rest₃), hbody⟩ ← expr finish 0 rest₂
      match rest₃, hbody with
      | [], _ => failAt finish .expectedCaseEnd []
      | u :: rest₄, hbody =>
        if u.kind = .bar ∨ u.kind = .semicolon then do
          let ⟨(cases, rest₅), hcases⟩ ← matchCases finish rest₄
          .ok ⟨((p, body) :: cases, rest₅), by simp only [List.length_cons] at *; omega⟩
        else if u.kind = .rightBrace then
          .ok ⟨([(p, body)], rest₄), by simp only [List.length_cons] at *; omega⟩
        else failAt finish .expectedCaseEnd (u :: rest₄)
termination_by (ts.length, 0)
decreasing_by all_goals grind

end

end Formulary.Parser
