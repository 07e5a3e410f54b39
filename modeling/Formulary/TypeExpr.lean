import Formulary.Tag

/-!
Types as written in declarations and signatures. What a name in them means, a type, a parameter or a
dimension, is settled later by the declarations that are known.
-/

namespace Formulary

inductive TypeExpr where
  /-- A place where nothing is written. -/
  | blank
  | named (name : String)
  | app (name : String) (args : List TypeExpr)
  | arrow (domain codomain : TypeExpr)
  | nat (value : Int)
  | tag (value : Tag)
deriving Inhabited

namespace TypeExpr

def kindName : TypeExpr → String
  | .blank => ""
  | .named _ => "Name"
  | .app _ _ => "App"
  | .arrow _ _ => "Arrow"
  | .nat _ => "Nat"
  | .tag _ => "String"

def isArrow : TypeExpr → Bool
  | .arrow _ _ => true
  | _ => false

mutual

def render : TypeExpr → String
  | .blank => ""
  | .named name => name
  | .app name [] => name ++ "()"
  | .app name (t :: ts) => name ++ "(" ++ t.render ++ renderRest ts ++ ")"
  | .arrow domain codomain =>
    (if domain.isArrow then "(" ++ domain.render ++ ")" else domain.render) ++
      " → " ++ codomain.render
  | .nat value => toString value
  | .tag value => value.literal

/-- The arguments after the first, each behind a comma. -/
def renderRest : List TypeExpr → String
  | [] => ""
  | t :: ts => ", " ++ t.render ++ renderRest ts

end

/-- The parameters of a signature and its result. -/
def splitArrow : TypeExpr → List TypeExpr × TypeExpr
  | .arrow domain codomain => (domain :: (splitArrow codomain).1, (splitArrow codomain).2)
  | t => ([], t)

end TypeExpr

end Formulary
