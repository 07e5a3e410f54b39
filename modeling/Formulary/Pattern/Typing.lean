import Formulary.Registry.Resolution
import Formulary.TypeEnv

namespace Formulary.Pattern

/-- What is known while a pattern is checked: the substitution under which it matches values of the
expected type, and the types of the variables it binds. -/
structure Typing where
  subst : Subst
  bindings : TypeEnv

namespace Typing

/-- Nothing is known. -/
def start : Typing := ⟨∅, ∅⟩

/-- Demands that two types agree. -/
def require (t : Typing) (expected actual : Ty) : Except Fault Typing :=
  match Ty.unify (t.subst.apply expected) actual with
  | .ok next => .ok { t with subst := t.subst.compose next }
  | .error e => .error (.unify e)

end Typing

mutual

/-- Checks a pattern after the patterns to its left. -/
def checkAfter (r : DataTypes) (t : Typing) : Pattern → Ty → Fresh Typing
  | .wildcard, _ => return t
  | .var name, expected =>
    if (t.bindings.get? name).isSome then throw (.repeatedVariable name)
    else return { t with bindings := t.bindings.insert name expected }
  | .const _, expected => t.require expected .scalar
  | .constructor name args, expected => do
    let v ← r.instantiate name
    if args.length ≠ v.fields.length then
      throw (.patternArity name v.fields.length args.length)
    checkListAfter r (← t.require expected v.result) args (v.fields.map (·.type))

def checkListAfter (r : DataTypes) (t : Typing) : List Pattern → List Ty → Fresh Typing
  | p :: ps, field :: fields => do
    checkListAfter r (← checkAfter r t p (t.subst.apply field)) ps fields
  | _, _ => return t

end

/-- Checks a pattern for values of an expected type. -/
def check (r : DataTypes) (p : Pattern) (expected : Ty) : Fresh Typing := do
  let t ← checkAfter r .start p expected
  return { t with bindings := t.bindings.mapValues t.subst.apply }

end Formulary.Pattern
