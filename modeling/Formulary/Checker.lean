import Formulary.Evaluation
import Formulary.Inference.Declaration
import Formulary.Parser
import Formulary.StandardLibrary

/-!
A checker takes in declarations and then checks and evaluates expressions against them. What has been
declared is never changed or taken back; what a source declares before its first error stays.
-/

namespace Formulary

/-- What a user may choose. -/
structure Checker.Options where
  /-- Refuse matches that do not cover all values. -/
  strict : Bool
  /-- Let a type parameter that no argument binds be the scalar type. -/
  lenient : Bool
  /-- How deep evaluation goes. What is not positive chooses the default. -/
  depth : Int
  /-- Start without the standard library. -/
  bare : Bool
  /-- Log every unification. -/
  trace : Bool

structure Checker where
  options : Checker.Options
  registry : Registry
  inference : Inference.State
  env : TypeEnv
  /-- The definitions in the order of loading. -/
  definitions : List Definition

namespace Checker

/-- The steps of a checker. -/
abbrev Run (α : Type) := Attempt Checker Error α

def context (c : Checker) : Inference.Context :=
  ⟨c.registry, c.options.strict, c.options.lenient, c.options.trace, true⟩

def log (line : String) : Run Unit :=
  modify fun c => { c with inference := { c.inference with log := c.inference.log.push line } }

/-- Runs steps of inference. -/
def inferring {α : Type} (steps : Inference.Review α) : Run α :=
  Attempt.zoom (·.inference) (fun c inference => { c with inference }) steps

/-- Lets a fault be an error. -/
def orFault {α : Type} : Except Fault α → Run α
  | .ok a => return a
  | .error f => throw (.fault f)

/-- Changes what is declared. -/
def declare (change : Registry → Except Fault Registry) : Run Unit := do
  let registry ← orFault (change (← get).registry)
  modify fun c => { c with registry }

def loadData (d : DataType) : Run Unit := do
  declare (·.registerData d)
  log ("data " ++ d.name ++ ": " ++ toString d.variants.length ++ " variants")

/-- Checks the fields of a data type, once all data types of a source are known. -/
def checkData (d : DataType) : Run Unit := do
  let c ← get
  Attempt.within ("data " ++ d.name) (orFault (c.registry.data.checkFields d.name))

def loadStructure (s : Structure) : Run Unit := do
  declare (·.registerStructure s)
  log ("structure " ++ s.name ++ ": " ++ toString s.operations.length ++ " operations")
  s.axioms.forM fun ax => do
    let c ← get
    let _ ← Attempt.within ("structure " ++ s.name)
      (inferring (Inference.inferAxiom c.context c.env s ax))

def loadImplementation (i : Implementation) : Run Unit := do
  declare (·.registerImplementation i)
  log ("implements " ++ i.structureName ++ renderTypeArgs i.args)
  let c ← get
  match c.registry.implementations.getLast? with
  | some registered => inferring (Inference.checkImplementation c.context c.env registered)
  | none => return ()

def loadInterface : Declaration → Run Unit
  | .interface s => loadStructure s
  | .implementation i => loadImplementation i
  | .data _ | .definition _ => return ()

/-- Whether a name is taken, for a definition. -/
def isTaken (c : Checker) (name : String) : Bool :=
  c.definitions.any (·.name = name) || (c.registry.data.variant? name).isSome ||
    (c.registry.operation? name).isSome

/-- Refuses definitions of names that are taken, or that come a second time. -/
def checkNames (c : Checker) (earlier : List String) : List Definition → Except Fault Unit
  | [] => .ok ()
  | d :: rest =>
    if c.isTaken d.name || d.name ∈ earlier then .error (.definitionConflict d.name)
    else c.checkNames (d.name :: earlier) rest

/-- Infers the types of definitions. None is known unless all have types. -/
def inferDefinitions (defs : List Definition) : Run TypeEnv := do
  let c ← get
  let (env, outcome) ← inferring
    (Inference.inferDefinitions c.context c.env defs :
      StateM Inference.State (TypeEnv × Except Error Unit))
  match outcome with
  | .ok () => return env
  | .error e => throw e

def loadDefinitions (defs : List Definition) : Run Unit := do
  orFault ((← get).checkNames [] defs)
  let env ← inferDefinitions defs
  modify fun c => { c with env, definitions := c.definitions ++ defs }
  defs.forM fun d =>
    match env.get? d.name with
    | some t => log ("define " ++ d.name ++ " : " ++ t.render)
    | none => return ()

/-- Takes in declarations: first the data types, which may refer to each other in any order; then
structures and implementations in their order; then definitions in the order of dependency. -/
def load (decls : List Declaration) : Run Unit := do
  let types := dataTypesOf decls
  types.forM loadData
  types.forM checkData
  decls.forM loadInterface
  loadDefinitions (definitionsOf decls)

/-- Takes in a source of some name. -/
def loadSource (name source : String) : Run Unit :=
  Attempt.within name do
    match Declaration.parseAll source with
    | .ok decls => load decls
    | .error e => throw (.parse e)

/-- A checker that knows nothing. -/
def empty (options : Options) : Checker := ⟨options, .empty, .initial, ∅, []⟩

/-- Takes in the standard library, the data types before the structures. -/
def loadLibrary : Run Unit := do
  load StandardLibrary.dataTypes
  load StandardLibrary.structures

/-- A checker that has taken in the standard library, unless that is not wanted. -/
def create (options : Options) : Checker :=
  if options.bare then empty options else (loadLibrary.run.run (empty options)).2

/-- The type of a definition. -/
def typeOf? (c : Checker) (name : String) : Option Ty :=
  if c.definitions.any (·.name = name) then c.env.get? name else none

/-- The names of the definitions, in the order of loading. -/
def definitionNames (c : Checker) : List String := c.definitions.map (·.name)

def axioms (c : Checker) (structureName : String) : List Axiom := c.registry.axiomsOf structureName

/-- Reads an expression. -/
def parseExpr (source : String) : Run Expr :=
  match Expr.parse source with
  | .ok e => return e
  | .error e => throw (.within "parse" (.parse e))

/-- The type of an expression, and what is questionable about it. -/
structure Verdict where
  type : Ty
  warnings : List Fault

def check (e : Expr) : Run Verdict := do
  let c ← get
  let t ← inferring (Attempt.ofFaults (Inference.inferExpr c.context c.env e))
  return ⟨t, (← get).inference.warnings⟩

/-- Checks an expression and then evaluates it. -/
def evaluate (e : Expr) : Run Expr := do
  let _ ← check e
  let c ← get
  orFault (Evaluation.eval c.definitions c.options.depth e)

def checkSource (source : String) : Run Verdict := do check (← parseExpr source)

def evaluateSource (source : String) : Run Expr := do evaluate (← parseExpr source)

end Checker

end Formulary
