import Formulary.Inference.Call

/-!
Inference of types. An expression is walked through once; what is found out about variables is kept
in a substitution. Matches that do not cover all values, and cases that are never reached, are
warnings.
-/

namespace Formulary.Inference

/-- Looks for values that no case covers and for cases that are never reached. -/
def reviewCases (c : Context) (e : Expr) (scrutinee : Ty) (ps : List Pattern) : Infer Unit := do
  let missing ← fresh (Pattern.missing c.data ps scrutinee : StateM Supply (List String))
  unless missing.isEmpty do
    let f := Fault.nonExhaustive scrutinee missing
    if c.strict then failAt e f else warn f
  (Pattern.unreachable ps).forM fun i => warn (.unreachable (ps[i]?.getD .wildcard) i)

/-- What the variables of a case pattern are, for values of a type. -/
def bindPattern (c : Context) (e : Expr) (p : Pattern) (scrutinee : Ty) : Infer TypeEnv := do
  let t ← known scrutinee
  let typing ← blaming e (fresh (p.check c.data t))
  modify (·.refine typing.subst)
  return typing.bindings

mutual

def infer (c : Context) (env : TypeEnv) : Expr → Infer Ty
  | .blank => throw .emptyExpression
  | .const _ => return .scalar
  | .object name => inferName c env name
  | .operation name args => do inferCall c env name args (← inferList c env args)
  | .matching scrutinee cases => do
    let e := Expr.matching scrutinee cases
    if cases.isEmpty then failAt e .noCases
    let t ← infer c env scrutinee
    let result ← inferCases c env e t none cases
    reviewCases c e (← known t) (cases.map (·.1))
    known (result.getD .blank)

def inferList (c : Context) (env : TypeEnv) : List Expr → Infer (List Ty)
  | [] => return []
  | e :: es => do
    let t ← infer c env e
    return t :: (← inferList c env es)

/-- The type of the cases of a match, which all have the same type. The variables of a pattern are
known in its case only. -/
def inferCases (c : Context) (env : TypeEnv) (e : Expr) (scrutinee : Ty) (result : Option Ty) :
    List (Pattern × Expr) → Infer (Option Ty)
  | [] => return result
  | (p, body) :: rest => do
    let bindings ← bindPattern c e p scrutinee
    let t ← infer c (env.extend bindings.entries) body
    match result with
    | none => inferCases c env e scrutinee (some t) rest
    | some result =>
      blaming body (unify c result t)
      inferCases c env e scrutinee (some result) rest

end

/-- The type of an expression on its own. -/
def inferExpr (c : Context) (env : TypeEnv) (e : Expr) : Infer Ty := do
  if e matches .blank then throw .emptyExpression
  modify State.reset
  let t ← infer c env e
  blaming e requireIdempotent
  let t ← known t
  if c.trace then
    log ("infer " ++ e.render ++ " : " ++ t.render ++ " (" ++ toString (← get).supply.count ++
      " type-variables)")
  return t

end Formulary.Inference
