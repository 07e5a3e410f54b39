import Formulary.Registry.Resolution

namespace Formulary

/-- How the type arguments of an implementation are written. -/
def renderTypeArgs (args : List TypeExpr) : String :=
  "(" ++ ", ".intercalate (args.map TypeExpr.render) ++ ")"

/-- An implementation with the structure it belongs to. -/
structure RegisteredImplementation where
  interface : Structure
  decl : Implementation
  /-- The types that the arguments stand for, printed with their parameters named by first
  appearance. -/
  template : String

def RegisteredImplementation.args (i : RegisteredImplementation) : String :=
  renderTypeArgs i.decl.args

/-- What has been declared, each kind in the order of declaration. How it is kept by name, with an
index of the operations, is the business of `Store`. -/
structure Registry where
  data : DataTypes
  structures : List Structure
  implementations : List RegisteredImplementation

namespace Registry

def empty : Registry := ⟨.empty, [], []⟩

def structure? (r : Registry) (name : String) : Option Structure :=
  r.structures.find? (·.name = name)

/-- The structure that declares an operation. -/
def structureFor? (r : Registry) (operation : String) : Option Structure :=
  r.structures.find? fun s => (s.operation? operation).isSome

/-- The operation of a name, with the structure that declares it. -/
def operation? (r : Registry) (name : String) : Option (Structure × Operation) :=
  r.structures.findSome? fun s => (s.operation? name).map (s, ·)

def structureNames (r : Registry) : List String := r.structures.map (·.name)

/-- The names of all operations, sorted. -/
def operationNames (r : Registry) : List String :=
  sortNames (r.structures.flatMap fun s => s.operations.map (·.name))

def implementationsOf (r : Registry) (name : String) : List RegisteredImplementation :=
  r.implementations.filter (·.interface.name = name)

def axiomsOf (r : Registry) (name : String) : List Axiom :=
  ((r.structure? name).map (·.axioms)).getD []

/-- What the declared parameters of a structure stand for. -/
def paramKinds (r : Registry) (s : Structure) : List (String × ParamKind) :=
  s.params.map fun p =>
    (p.name, match p.type.map (r.data.resolveClosed []) with
      | some (.ok t) => t.paramKind
      | _ => .type)

def registerData (r : Registry) (d : DataType) : Except Fault Registry := do
  return { r with data := ← r.data.register d }

mutual

/-- Checks that every name in a type is a declared parameter, a lower case name, or something
declared. -/
def checkNames (r : Registry) (params : List String) : TypeExpr → Except Fault Unit
  | .named name =>
    if name ∈ params || isParamName name || (r.data.lookupName? name).isSome then .ok ()
    else .error (r.data.unknownType name)
  | .app name args =>
    match r.data.fieldKinds? name with
    | none => .error (r.data.unknownType name)
    | some kinds =>
      if kinds.length = args.length then checkNamesList r params args
      else .error (.arity name kinds.length args.length)
  | .arrow domain codomain => do
    checkNames r params domain
    checkNames r params codomain
  | .blank | .nat _ | .tag _ => .ok ()

def checkNamesList (r : Registry) (params : List String) : List TypeExpr → Except Fault Unit
  | [] => .ok ()
  | e :: es => do
    checkNames r params e
    checkNamesList r params es

end

/-- Checks the parameters of a structure one after the other: no name twice, and every kind means
something. -/
def checkParams (r : Registry) (structureName : String) (earlier : List String) :
    List Binder → Except Fault Unit
  | [] => .ok ()
  | p :: rest => do
    if p.name ∈ earlier then throw (.duplicateParam p.name structureName)
    if let some kind := p.type then
      let _ ← r.data.resolveClosed [] kind
    checkParams r structureName (p.name :: earlier) rest

/-- Checks the operations of a structure one after the other: no name twice, no name of another
structure, and every signature means something. -/
def checkOperations (r : Registry) (s : Structure) (earlier : List String) :
    List Operation → Except Fault Unit
  | [] => .ok ()
  | op :: rest => do
    if op.name ∈ earlier then throw (.duplicateOperation op.name s.name)
    if let some owner := r.structureFor? op.name then
      throw (.operationExists op.name s.name owner.name)
    r.checkNames (s.params.map (·.name)) op.signature
    checkOperations r s (op.name :: earlier) rest

/-- Adds a structure. -/
def registerStructure (r : Registry) (s : Structure) : Except Fault Registry := do
  if (r.structure? s.name).isSome then throw (.structureExists s.name)
  r.checkParams s.name [] s.params
  r.checkOperations s [] s.operations
  return { r with structures := r.structures ++ [s] }

/-- Checks that every body is for a declared operation, and none twice. -/
def checkBodies (s : Structure) (earlier : List String) : List OperationBody → Except Fault Unit
  | [] => .ok ()
  | body :: rest => do
    if (s.operation? body.name).isNone then throw (.undeclaredOperation body.name s.name)
    if body.name ∈ earlier then throw (.duplicateBody body.name)
    checkBodies s (body.name :: earlier) rest

/-- The types that arguments stand for, printed so that lists which differ by the names of their
parameters only are the same. -/
def templateOf (r : Registry) (structureName : String) (args : List TypeExpr) :
    Except Fault String := do
  let types ← (r.data.resolveList [] true args).closed
  return (Ty.instanceOf structureName types).render

/-- Adds an implementation. It supplies a body for each operation of its structure, and no other. -/
def registerImplementation (r : Registry) (i : Implementation) : Except Fault Registry := do
  let some s := r.structure? i.structureName
    | throw (.unknownStructure i.structureName (Text.suggest i.structureName r.structureNames))
  if i.args.length ≠ s.params.length then
    throw (.arity i.structureName s.params.length i.args.length)
  r.checkNamesList [] i.args
  checkBodies s [] i.bodies
  if let some op := s.operations.find? fun op => (i.body? op.name).isNone then
    throw (.missingBody s.name op.name)
  let template ← r.templateOf s.name i.args
  if let some earlier := (r.implementationsOf s.name).find? (·.template = template) then
    throw (.implementationExists s.name (renderTypeArgs i.args) earlier.args)
  return { r with implementations := r.implementations ++ [⟨s, i, template⟩] }

/-- Adds a declaration, definitions apart. -/
def register (r : Registry) : Declaration → Except Fault Registry
  | .data d => r.registerData d
  | .interface s => r.registerStructure s
  | .implementation i => r.registerImplementation i
  | .definition _ => .ok r

end Registry

end Formulary
