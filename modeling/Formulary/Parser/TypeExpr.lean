import Formulary.Parser.Step
import Formulary.TypeExpr

namespace Formulary.Parser

/-- The largest number that may be written in a type. -/
def largestNatural : Nat := 0x7fffffffffffffff

/-- The value of a number that is written with digits only and is not too large. -/
def natural? (lexeme : String) : Option Nat :=
  if lexeme.toList.all Token.isDigit then
    (Text.digitsValue? 10 (fun c => some (c.toNat - '0'.toNat)) lexeme.toList).filter
      (· ≤ largestNatural)
  else none

mutual

def typeExpr (finish : Position) (ts : List Token) : Step TypeExpr ts := do
  let ⟨(domain, rest), hdomain⟩ ← typeAtom finish ts
  let ⟨(arrow, rest'), harrow⟩ := skip .arrow rest
  if arrow then
    let ⟨(codomain, rest''), hcodomain⟩ ← typeExpr finish rest'
    .ok ⟨(.arrow domain codomain, rest''), by simp only at *; omega⟩
  else
    .ok ⟨(domain, rest'), by simp only at *; omega⟩
termination_by (ts.length, 1)
decreasing_by all_goals grind

def typeAtom (finish : Position) (ts : List Token) : Step TypeExpr ts :=
  match ts with
  | [] => failAt finish .expectedType []
  | t :: rest =>
    match t.kind with
    | .identifier =>
      match rest with
      | [] => .ok ⟨(.named t.lexeme, []), by simp⟩
      | u :: rest' =>
        if u.kind = .leftParen then do
          let ⟨(args, rest''), hargs⟩ ←
            commaList finish .rightParen "to close type arguments" rest'
              fun us _ => typeExpr finish us
          .ok ⟨(.app t.lexeme args, rest''), by simp only [List.length_cons] at *; omega⟩
        else .ok ⟨(.named t.lexeme, u :: rest'), by simp⟩
    | .number =>
      match natural? t.lexeme with
      | some n => .ok ⟨(.nat n, rest), by simp⟩
      | none => .error ⟨t.position, .notNatural t.lexeme⟩
    | .string => .ok ⟨(.tag ((Tag.ofLiteral? t.lexeme).getD []), rest), by simp⟩
    | .leftParen => do
      let ⟨(inner, rest'), hinner⟩ ← typeExpr finish rest
      let ⟨(_, rest''), hclose⟩ ← need finish .rightParen "to close type" rest'
      .ok ⟨(inner, rest''), by simp only [List.length_cons] at *; omega⟩
    | _ => failAt finish .expectedType (t :: rest)
termination_by (ts.length, 0)
decreasing_by all_goals grind

end

end Formulary.Parser
