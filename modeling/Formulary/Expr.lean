import Formulary.Pattern

namespace Formulary

inductive Expr where
  /-- A place where nothing is written. -/
  | blank
  /-- A literal, as written. -/
  | const (value : String)
  /-- A name on its own. -/
  | object (name : String)
  /-- A name applied to arguments: a constructor, an operation or a defined function. -/
  | operation (name : String) (args : List Expr)
  /-- A choice between cases; the first that matches wins. -/
  | matching (scrutinee : Expr) (cases : List (Pattern × Expr))
deriving Inhabited

namespace Expr

def kindName : Expr → String
  | .blank => ""
  | .const _ => "Const"
  | .object _ => "Object"
  | .operation _ _ => "Operation"
  | .matching _ _ => "Match"

mutual

/-- The number of nodes of an expression, its lists included. -/
def size : Expr → Nat
  | .blank | .const _ | .object _ => 1
  | .operation _ args => sizeList args + 1
  | .matching scrutinee cases => scrutinee.size + sizeCases cases + 1

def sizeList : List Expr → Nat
  | [] => 0
  | e :: es => e.size + sizeList es + 1

def sizeCases : List (Pattern × Expr) → Nat
  | [] => 0
  | (_, body) :: rest => body.size + sizeCases rest + 1

end

mutual

def render : Expr → String
  | .blank => "<nil>"
  | .const value => value
  | .object name => name
  | .operation name [] => name
  | .operation name (e :: es) => name ++ "(" ++ e.render ++ renderRest es ++ ")"
  | .matching scrutinee [] => "match " ++ scrutinee.render ++ " \x7b \x7d"
  | .matching scrutinee ((p, body) :: rest) =>
    "match " ++ scrutinee.render ++ " \x7b " ++ p.render ++ " => " ++ body.render ++
      renderCases rest ++ " \x7d"

/-- The arguments after the first, each behind a comma. -/
def renderRest : List Expr → String
  | [] => ""
  | e :: es => ", " ++ e.render ++ renderRest es

/-- The cases after the first, each behind a bar. -/
def renderCases : List (Pattern × Expr) → String
  | [] => ""
  | (p, body) :: rest => " | " ++ p.render ++ " => " ++ body.render ++ renderCases rest

end

mutual

/-- An expression and the expressions in it, each before its parts. Blanks are left out. -/
def parts : Expr → List Expr
  | .blank => []
  | .const value => [.const value]
  | .object name => [.object name]
  | .operation name args => .operation name args :: partsList args
  | .matching scrutinee cases =>
    .matching scrutinee cases :: scrutinee.parts ++ partsCases cases

def partsList : List Expr → List Expr
  | [] => []
  | e :: es => e.parts ++ partsList es

def partsCases : List (Pattern × Expr) → List Expr
  | [] => []
  | (_, body) :: rest => body.parts ++ partsCases rest

end

mutual

/-- The occurrences of names that no enclosing case and none of `bound` binds, from left to right.
The name of an applied operation is an occurrence too. -/
def freeOccurrences (bound : List String) : Expr → List String
  | .blank | .const _ => []
  | .object name => if name ∈ bound then [] else [name]
  | .operation name args =>
    (if name ∈ bound then [] else [name]) ++ freeOccurrencesList bound args
  | .matching scrutinee cases =>
    scrutinee.freeOccurrences bound ++ freeOccurrencesCases bound cases

def freeOccurrencesList (bound : List String) : List Expr → List String
  | [] => []
  | e :: es => e.freeOccurrences bound ++ freeOccurrencesList bound es

def freeOccurrencesCases (bound : List String) : List (Pattern × Expr) → List String
  | [] => []
  | (p, body) :: rest =>
    body.freeOccurrences (p.vars ++ bound) ++ freeOccurrencesCases bound rest

end

/-- The names an expression refers to, in the order of their first free occurrence. -/
def freeNames (e : Expr) : List String := (e.freeOccurrences []).eraseDups

mutual

/-- The names of objects, bound or free, and of case variables in an expression. -/
def mentioned : Expr → List String
  | .blank | .const _ => []
  | .object name => [name]
  | .operation _ args => mentionedList args
  | .matching scrutinee cases => scrutinee.mentioned ++ mentionedCases cases

def mentionedList : List Expr → List String
  | [] => []
  | e :: es => e.mentioned ++ mentionedList es

def mentionedCases : List (Pattern × Expr) → List String
  | [] => []
  | (p, body) :: rest => p.vars ++ body.mentioned ++ mentionedCases rest

end

end Expr

end Formulary
