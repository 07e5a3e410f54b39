import Formulary.Fault
import Formulary.Pattern.Matching

/-!
Symbolic evaluation. Calls of defined functions are expanded and matches select their first matching
case; everything else stays as it is, since literals are never turned into numbers.

Each expansion and each selection goes one level deeper, and the depth is bounded, so evaluation
always ends.
-/

namespace Formulary.Evaluation

/-- The definition of a name. A later one replaces an earlier one. -/
def definition? (defs : List Definition) (name : String) : Option Definition :=
  (defs.filter (·.name = name)).getLast?

/-- What the parameters of a definition stand for in a call. Of two parameters of one name the later
counts. -/
def arguments (d : Definition) (args : List Expr) : Expr.Bindings :=
  (d.paramNames.zip args).foldl (fun bindings (name, arg) => bindings.bind name arg) []

/-- The body of a definition that takes as many arguments as are given, with the arguments in it. -/
def expand? (defs : List Definition) (name : String) (args : List Expr) : Option Expr :=
  match definition? defs name with
  | some d =>
    if d.params.length = args.length then some (d.body.substitute (arguments d args)) else none
  | none => none

mutual

/-- Evaluates on one level. What is expanded or selected is evaluated by `deeper`. -/
def evalWith (defs : List Definition) (deeper : Expr → Except Fault Expr) : Expr → Except Fault Expr
  | .blank => .error .emptyExpression
  | .const value => .ok (.const value)
  | .object name =>
    match expand? defs name [] with
    | some body => deeper body
    | none => .ok (.object name)
  | .operation name args => do
    let values ← evalListWith defs deeper args
    match expand? defs name values with
    | some body => deeper body
    | none => .ok (.operation name values)
  | .matching scrutinee cases => do
    let value ← evalWith defs deeper scrutinee
    match value.select? cases with
    | some (_, bindings, body) => deeper (body.substitute bindings)
    | none => .error (.noMatchingCase value)

def evalListWith (defs : List Definition) (deeper : Expr → Except Fault Expr) :
    List Expr → Except Fault (List Expr)
  | [] => .ok []
  | e :: es => do
    let value ← evalWith defs deeper e
    let values ← evalListWith defs deeper es
    return value :: values

end

/-- Evaluates with a number of levels left, of `bound + 1` in all. -/
def evalLevels (defs : List Definition) (bound : Nat) : Nat → Expr → Except Fault Expr
  | 0, _ => .error (.tooDeep bound)
  | levels + 1, e => evalWith defs (evalLevels defs bound levels) e

/-- The depth to which evaluation goes unless another is chosen. -/
def defaultDepth : Nat := 1000

/-- A depth that is not positive chooses the default. -/
def depthBound (depth : Int) : Nat := if depth ≤ 0 then defaultDepth else depth.toNat

/-- Evaluates an expression. -/
def eval (defs : List Definition) (depth : Int) (e : Expr) : Except Fault Expr :=
  evalLevels defs (depthBound depth) (depthBound depth + 1) e

end Formulary.Evaluation
