import Formulary.Declaration.Groups
import Formulary.Inference

namespace Formulary.Inference

/-- Steps of inference whose errors tell where they happened. -/
abbrev Review (α : Type) := Attempt State Error α

/-- Binds the parameters of a definition. -/
def bindParams (c : Context) (env : TypeEnv) (names : Annotations) :
    List Binder → Infer (List Ty × TypeEnv × Annotations)
  | [] => return ([], env, names)
  | p :: rest => do
    let var ← freshVar
    let names ← match p.type with
      | none => pure names
      | some e => do
        let (t, names) ← annotated c [] names e
        unify c var t
        pure names
    let (types, env, names) ← bindParams c (env.extend [(p.name, var)]) names rest
    return (var :: types, env, names)

/-- The type of a definition. -/
def inferDefinition (c : Context) (env : TypeEnv) (d : Definition) : Infer Ty := do
  let (params, env, names) ← bindParams c env [] d.params
  let t ← infer c env d.body
  if let some e := d.result then
    let (result, _) ← annotated c [] names e
    blaming d.body (unify c t result)
  known (Ty.curry params t)

/-- Gives each definition of a group a variable. -/
def bindGroup (env : TypeEnv) : List Definition → Infer (List (Definition × Ty) × TypeEnv)
  | [] => return ([], env)
  | d :: rest => do
    let var ← freshVar
    let (group, env) ← bindGroup (env.extend [(d.name, var)]) rest
    return ((d, var) :: group, env)

/-- Adds the definitions of a group. Inside the group they have one type each; outside they hold for
every value of their variables. -/
def inferGroup (c : Context) (env : TypeEnv) (group : List Definition) : Review TypeEnv := do
  modify State.reset
  let (group, inner) ← Attempt.ofFaults (bindGroup env group)
  group.forM fun (d, var) =>
    Attempt.within ("define " ++ d.name) <| Attempt.ofFaults do
      let t ← inferDefinition c inner d
      blaming d.body (unify c var t)
  Attempt.ofFaults requireIdempotent
  let subst := (← get).subst
  return env.extend (group.map fun (d, var) =>
    (d.name, (subst.apply var).generalize fun _ => false))

/-- Adds groups of definitions up to the first that fails. -/
def inferGroups (c : Context) (env : TypeEnv) :
    List (List Definition) → StateM State (TypeEnv × Except Error Unit)
  | [] => return (env, .ok ())
  | group :: rest => do
    match ← (inferGroup c env group).run with
    | .ok env => inferGroups c env rest
    | .error e => return (env, .error e)

/-- Adds definitions in the order of their dependency. When one fails, the groups before it stay. -/
def inferDefinitions (c : Context) (env : TypeEnv) (defs : List Definition) :
    StateM State (TypeEnv × Except Error Unit) :=
  inferGroups c env ((Definition.groups defs).map fun group => group.filterMap (defs[·]?))

/-- Binds the variables that an axiom is about. -/
def bindAxiomVars (c : Context) (scope : Scope) (env : TypeEnv) (names : Annotations) :
    List Binder → Infer TypeEnv
  | [] => return env
  | b :: rest => do
    let var ← freshVar
    match b.type with
    | none => bindAxiomVars c scope (env.extend [(b.name, var)]) names rest
    | some e =>
      let (t, names) ← annotated c scope names e
      bindAxiomVars c scope (env.extend [(b.name, t)]) names rest

/-- The type of an axiom. The parameters of its structure may be anything, so its operations need no
implementation. -/
def inferAxiom (c : Context) (env : TypeEnv) (s : Structure) (ax : Axiom) : Review Ty := do
  modify State.reset
  Attempt.within ("axiom " ++ ax.name) <| Attempt.ofFaults do
    let scope : Scope ← s.params.mapM fun p => do return (p.name, some (← freshVar))
    let env ← bindAxiomVars c scope env [] ax.vars
    let t ← infer { c with implemented := false } env ax.body
    known t

/-- Checks the body of an operation against its signature, with the type arguments of the
implementation put for the parameters of the structure. -/
def checkBody (c : Context) (env : TypeEnv) (i : RegisteredImplementation) (op : Operation)
    (body : OperationBody) (e : Expr) : Review Unit := do
  modify State.reset
  let (params, result) ← Attempt.ofFaults do
    let (types, _) ← annotatedList c [] [] i.decl.args
    let scope : Scope := (i.interface.params.map (·.name)).zip (types.map some)
    let (signature, _) ← annotated c scope [] op.signature
    return signature.uncurry
  if params.length ≠ body.params.length then
    throw (.fault (.bodyArity body.name i.interface.name i.args))
  Attempt.within (i.interface.name ++ i.args ++ ": operation " ++ body.name) <|
    Attempt.ofFaults do
      let t ← infer c (env.extend (body.params.zip params)) e
      unify c result t

/-- Checks the bodies of an implementation that are expressions. -/
def checkImplementation (c : Context) (env : TypeEnv) (i : RegisteredImplementation) :
    Review Unit :=
  i.decl.bodies.forM fun body =>
    match body.expr, i.interface.operation? body.name with
    | some e, some op => checkBody c env i op body e
    | _, _ => return ()

end Formulary.Inference
