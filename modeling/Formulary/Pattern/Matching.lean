import Formulary.Expr.Substitution

namespace Formulary

/-- Binds a name, in place of what it was bound to before. -/
def Expr.Bindings.bind (bindings : Bindings) (name : String) (e : Expr) : Bindings :=
  (name, e) :: bindings.without [name]

namespace Pattern

mutual

/-- Matches a value and adds what the variables of the pattern stand for. A constructor without
arguments is written like a name. -/
def matchInto (bindings : Expr.Bindings) : Pattern → Expr → Option Expr.Bindings
  | .wildcard, _ => some bindings
  | .var name, value => some (bindings.bind name value)
  | .const literal, .const value => if value = literal then some bindings else none
  | .constructor name [], .object value => if value = name then some bindings else none
  | .constructor name args, .operation value values =>
    if value = name then matchListInto bindings args values else none
  | _, _ => none

def matchListInto (bindings : Expr.Bindings) : List Pattern → List Expr → Option Expr.Bindings
  | [], [] => some bindings
  | p :: ps, value :: values =>
    match p.matchInto bindings value with
    | some bindings => matchListInto bindings ps values
    | none => none
  | _, _ => none

end

/-- What the variables of a pattern stand for in a value that it matches. -/
def matches? (p : Pattern) (value : Expr) : Option Expr.Bindings := p.matchInto [] value

mutual

/-- Whether the form of the first pattern alone shows that it matches every value that the second
matches. -/
def subsumes : Pattern → Pattern → Bool
  | .wildcard, _ | .var _, _ => true
  | .const a, .const b => a = b
  | .constructor a as, .constructor b bs => a = b && subsumesList as bs
  | _, _ => false

def subsumesList : List Pattern → List Pattern → Bool
  | [], [] => true
  | a :: as, b :: bs => a.subsumes b && subsumesList as bs
  | _, _ => false

end

/-- The places of the patterns that a pattern before them subsumes, counted from `index`. -/
def unreachableFrom (earlier : List Pattern) (index : Nat) : List Pattern → List Nat
  | [] => []
  | p :: ps =>
    let rest := unreachableFrom (earlier ++ [p]) (index + 1) ps
    if earlier.any (·.subsumes p) then index :: rest else rest

/-- The places of the patterns that a pattern before them subsumes. -/
def unreachable (ps : List Pattern) : List Nat := unreachableFrom [] 0 ps

end Pattern

namespace Expr

/-- The first case that matches a value: its place, counted from `index`, what its pattern binds and
its body. -/
def selectFrom? (value : Expr) (index : Nat) :
    List (Pattern × Expr) → Option (Nat × Bindings × Expr)
  | [] => none
  | (p, body) :: rest =>
    match p.matches? value with
    | some bindings => some (index, bindings, body)
    | none => selectFrom? value (index + 1) rest

/-- The first case that matches a value: its place, what its pattern binds and its body. -/
def select? (value : Expr) (cases : List (Pattern × Expr)) : Option (Nat × Bindings × Expr) :=
  value.selectFrom? 0 cases

end Expr

end Formulary
