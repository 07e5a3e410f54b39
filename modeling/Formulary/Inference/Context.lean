import Formulary.Error
import Formulary.Pattern.Exhaustive
import Formulary.Pattern.Matching
import Formulary.Pattern.Typing
import Formulary.Registry.Validation
import Formulary.Signature

/-!
What inference works with: the declarations, the choices of the user, and what has been found out so
far.
-/

namespace Formulary.Inference

/-- What does not change while a type is inferred. -/
structure Context where
  registry : Registry
  /-- Whether a match that does not cover all values is refused. -/
  strict : Bool
  /-- Whether a type parameter that no argument binds becomes the scalar type. -/
  lenient : Bool
  /-- Whether unifications are logged. -/
  trace : Bool
  /-- Whether calls of operations need an implementation. -/
  implemented : Bool

namespace Context

def data (c : Context) : DataTypes := c.registry.data

/-- Every name that a call may refer to, for suggestions. -/
def callable (c : Context) (env : TypeEnv) : List String :=
  c.data.variantNames ++ c.registry.operationNames ++ env.names

end Context

/-- What has been found out. Variables are numbered on from one inference to the next. -/
structure State where
  supply : Supply
  subst : Subst
  /-- The substitutions that have been held, the latest first, each with the number of the next
  variable when it was taken up. They decide nothing and are kept as the record of what has been. -/
  held : List (Subst × Int)
  /-- The variables of names that nothing declares. -/
  free : List (String × Int)
  /-- What is questionable and not refused, in the order of discovery. -/
  warnings : List Fault
  /-- The first fault, with the expression that is to blame. -/
  failure : Option (Fault × Expr)
  log : Array String

namespace State

def initial : State := ⟨.startingAt 0, ∅, [(∅, 0)], [], [], none, #[]⟩

/-- Holds a substitution in place of the one before. -/
def hold (s : State) (subst : Subst) : State :=
  { s with subst, held := (subst, s.supply.next) :: s.held }

/-- Adds what a step found to the substitution. -/
def refine (s : State) (found : Subst) : State := s.hold (s.subst.compose found)

/-- Forgets all but the numbering of variables and the records of what has been. -/
def reset (s : State) : State :=
  { s.hold ∅ with supply := s.supply.resetCount, free := [], warnings := [], failure := none }

end State

/-- Steps of inference. -/
abbrev Infer (α : Type) := Attempt State Fault α

/-- Records a fault, unless one is recorded already, and fails. -/
def failAt {α : Type} (e : Expr) (f : Fault) : Infer α := do
  modify fun s => { s with failure := s.failure.or (some (f, e)) }
  throw f

/-- Blames an expression for the failure of some steps. -/
def blaming {α : Type} (e : Expr) (steps : Infer α) : Infer α := tryCatch steps (failAt e)

def warn (f : Fault) : Infer Unit := modify fun s => { s with warnings := s.warnings ++ [f] }

def log (line : String) : Infer Unit := modify fun s => { s with log := s.log.push line }

/-- Runs steps that hand out variables. -/
def fresh {α : Type} (steps : Fresh α) : Infer α :=
  Attempt.zoom (·.supply) (fun s supply => { s with supply }) steps

def freshVar : Infer Ty := do return .var (← fresh (Supply.fresh : StateM Supply Int))

def instantiate (t : Ty) : Infer Ty := fresh (t.instantiate : StateM Supply Ty)

/-- A type as far as it is known. -/
def known (t : Ty) : Infer Ty := do return (← get).subst.apply t

/-- The variable of a name that nothing declares. -/
def freeName (name : String) : Infer Ty := do
  match (← get).free.lookup name with
  | some id => return .var id
  | none =>
    let id ← fresh (Supply.fresh : StateM Supply Int)
    modify fun s => { s with free := (name, id) :: s.free }
    return .var id

/-- The names of parameters in type annotations, with their variables. -/
abbrev Annotations := List (String × Int)

/-- The type that an annotation stands for. A lower case name stands for one variable throughout. -/
def annotated (c : Context) (scope : Scope) (names : Annotations) (e : TypeExpr) :
    Infer (Ty × Annotations) :=
  fresh fun supply =>
    let (result, vars) := (c.data.resolve scope true e).run.run ⟨supply, names⟩
    (result.map (·, vars.vars), vars.supply)

/-- The types that several annotations stand for. -/
def annotatedList (c : Context) (scope : Scope) (names : Annotations) :
    List TypeExpr → Infer (List Ty × Annotations)
  | [] => return ([], names)
  | e :: es => do
    let (t, names) ← annotated c scope names e
    let (ts, names) ← annotatedList c scope names es
    return (t :: ts, names)

/-- Makes two types the same. -/
def unify (c : Context) (a b : Ty) : Infer Unit := do
  let a ← known a
  let b ← known b
  if c.trace then log ("unify " ++ a.renderRaw ++ " ~ " ++ b.renderRaw)
  match Ty.unify a b with
  | .ok found => modify (·.refine found)
  | .error e => throw (.unify e)

/-- The substitution is one that changes nothing when it is applied again. -/
def requireIdempotent : Infer Unit := do
  let subst := (← get).subst
  unless subst.isIdempotent do throw (.notIdempotent subst)

end Formulary.Inference
