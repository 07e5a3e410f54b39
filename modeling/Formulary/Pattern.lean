namespace Formulary

inductive Pattern where
  /-- Matches every value and binds nothing. -/
  | wildcard
  /-- Matches every value and binds it. -/
  | var (name : String)
  /-- Matches the identical literal only. -/
  | const (value : String)
  /-- Matches the values built with a constructor whose arguments match. -/
  | constructor (name : String) (args : List Pattern)
deriving Inhabited

namespace Pattern

def kindName : Pattern → String
  | .wildcard => "Wildcard"
  | .var _ => "Variable"
  | .const _ => "Constant"
  | .constructor _ _ => "Constructor"

/-- A wildcard or a bare variable. -/
def isIrrefutable : Pattern → Bool
  | .wildcard | .var _ => true
  | .const _ | .constructor _ _ => false

mutual

/-- The names a pattern binds, from left to right, as often as they occur. -/
def vars : Pattern → List String
  | .wildcard | .const _ => []
  | .var name => [name]
  | .constructor _ args => varsList args

def varsList : List Pattern → List String
  | [] => []
  | p :: ps => p.vars ++ varsList ps

end

mutual

def render : Pattern → String
  | .wildcard => "_"
  | .var name => name
  | .const value => value
  | .constructor name [] => name
  | .constructor name (p :: ps) => name ++ "(" ++ p.render ++ renderRest ps ++ ")"

/-- The arguments after the first, each behind a comma. -/
def renderRest : List Pattern → String
  | [] => ""
  | p :: ps => ", " ++ p.render ++ renderRest ps

end

mutual

/-- Renames the variables of a pattern. -/
def rename (names : List (String × String)) : Pattern → Pattern
  | .wildcard => .wildcard
  | .var name => .var ((names.lookup name).getD name)
  | .const value => .const value
  | .constructor name args => .constructor name (renameList names args)

def renameList (names : List (String × String)) : List Pattern → List Pattern
  | [] => []
  | p :: ps => p.rename names :: renameList names ps

end

end Pattern

end Formulary
