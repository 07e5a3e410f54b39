import Formulary.Parser.Declaration

namespace Formulary

namespace Parser

/-- Splits a text into the tokens before the end of input and the position of the end. -/
def inputOf (source : String) : Except ParseError (List Token × Position) := do
  let tokens ← tokenize source
  return (tokens.dropLast, (tokens.getLast?.map (·.position)).getD .start)

end Parser

/-- Reads a text that is one expression. -/
def Expr.parse (source : String) : Except ParseError Expr := do
  let (tokens, finish) ← Parser.inputOf source
  let ⟨(e, rest), _⟩ ← Parser.expr finish 0 tokens
  if rest.isEmpty then return e else Parser.failAt finish .afterExpression rest

/-- Reads a text that is one type. -/
def TypeExpr.parse (source : String) : Except ParseError TypeExpr := do
  let (tokens, finish) ← Parser.inputOf source
  let ⟨(t, rest), _⟩ ← Parser.typeExpr finish tokens
  if rest.isEmpty then return t else Parser.failAt finish .afterType rest

/-- Reads a text that is a sequence of declarations. -/
def Declaration.parseAll (source : String) : Except ParseError (List Declaration) := do
  let (tokens, finish) ← Parser.inputOf source
  Parser.declarations finish tokens

end Formulary
