import Formulary.Inference.Construction

namespace Formulary.Inference

/-- Whether a type is a value of the type level. -/
def isValue : Ty → Bool
  | .nat _ | .tag _ => true
  | _ => false

/-- Two values of the type level that do not agree are told as a conflict of dimensions. -/
def asDimensions (requirer : Requirer) : Fault → Fault
  | .unify (.mismatch expected actual) =>
    if isValue expected && isValue actual then
      .inconsistentDims requirer expected actual (expected.render, actual.render)
    else .unify (.mismatch expected actual)
  | f => f

/-- Unifies on behalf of a callee. -/
def unifyFor (c : Context) (requirer : Requirer) (e : Expr) (a b : Ty) : Infer Unit :=
  tryCatch (unify c a b) fun f => failAt e (asDimensions requirer f)

/-- The number of arguments that a type takes, unless it is not known. -/
def arity? : Ty → Option Nat
  | .var _ => none
  | t => some t.uncurry.1.length

/-- The type of a call of something of a function type. -/
def inferApplication (c : Context) (e : Expr) (name : String) (t : Ty) (args : List Ty) :
    Infer Ty := do
  let fn ← instantiate t
  if let some n := arity? (← known fn) then
    if n ≠ args.length then failAt e (.arity name n args.length)
  let result ← freshVar
  unifyFor c (.function name) e fn (Ty.curry args result)
  known result

/-- Meets the constraints that a call leaves. -/
def meetConstraints (c : Context) (requirer : Requirer) (e : Expr) :
    List Signature.Constraint → Infer Unit
  | [] => return ()
  | constraint :: rest => do
    unifyFor c requirer e constraint.expected constraint.actual
    meetConstraints c requirer e rest

/-- The type of a call of an operation. Some implementation of its structure has to take the
arguments. -/
def inferOperation (c : Context) (e : Expr) (s : Structure) (op : Operation) (args : List Ty) :
    Infer Ty := do
  let before ← args.mapM known
  let outcome ← blaming e (fresh (Signature.Call.interpret ⟨c.registry, s, op, before, c.lenient⟩))
  meetConstraints c (.operation s.name op.name) e outcome.constraints
  if c.implemented then
    let after ← args.mapM known
    blaming e (fresh (c.registry.validate s.name op.name after))
  known outcome.type

/-- The type of a name on its own. A name that nothing declares may have any type, but only one. -/
def inferName (c : Context) (env : TypeEnv) (name : String) : Infer Ty :=
  match env.get? name with
  | some t => instantiate t
  | none =>
    match c.data.variant? name, c.registry.operation? name with
    | some (_, ⟨_, []⟩), _ => inferConstruction c (.object name) name []
    | _, some (s, op) =>
      if op.signature.splitArrow.1.isEmpty then inferOperation c (.object name) s op []
      else freeName name
    | _, none => freeName name

/-- The type of a name applied to arguments. -/
def inferCall (c : Context) (env : TypeEnv) (name : String) (args : List Expr) (types : List Ty) :
    Infer Ty :=
  let e := Expr.operation name args
  if (c.data.variant? name).isSome then inferConstruction c e name (args.zip types)
  else
    match env.get? name, c.registry.operation? name with
    | some t, _ => inferApplication c e name t types
    | none, some (s, op) => inferOperation c e s op types
    | none, none => failAt e (.unknownOperation name (Text.suggest name (c.callable env)))

end Formulary.Inference
