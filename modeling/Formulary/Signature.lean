import Formulary.Registry

/-!
Calls of operations that structures declare. The parameters of the signature are bound by walking
through it together with the types of the arguments: the first occurrence of a parameter binds it,
and every later one has to agree. So a signature demands equal dimensions by using a parameter twice.

Where an argument is not known yet, agreement is not decided but left as a constraint.
-/

namespace Formulary

namespace Signature

/-- What a parameter was bound to in a call. -/
structure ParamBinding where
  kind : ParamKind
  type : Ty
  /-- The argument that bound the parameter. -/
  arg : Nat

/-- Two types that have to be unified, and the argument that asks for it. -/
structure Constraint where
  expected : Ty
  actual : Ty
  arg : Nat

/-- A call that is interpreted. -/
structure Call where
  registry : Registry
  interface : Structure
  operation : Operation
  args : List Ty
  /-- Whether a type parameter that no argument binds becomes the scalar type. -/
  lenient : Bool

/-- What has been found out about a call. -/
structure Progress where
  supply : Supply
  bindings : SortedMap String ParamBinding
  constraints : List Constraint

/-- Steps of interpreting a call. -/
abbrev Interpret := ExceptT Fault (StateM Progress)

namespace Call

def data (c : Call) : DataTypes := c.registry.data

/-- A name is a parameter if the structure declares it, or if it is a lower case name that stands for
nothing else. -/
def isParam (c : Call) (name : String) : Bool :=
  c.interface.params.any (·.name = name) ||
    (isParamName name && (c.data.lookupName? name).isNone)

/-- What a parameter stands for: what its declaration says, else what it was bound as, else what the
place of its first occurrence asks for. -/
def kindOf (c : Call) (bindings : SortedMap String ParamBinding) (name : String)
    (hint : ParamKind) : ParamKind :=
  match (c.registry.paramKinds c.interface).lookup name with
  | some kind => kind
  | none => ((bindings.get? name).map (·.kind)).getD hint

/-- How an argument is shown in a message about dimensions: by its dimensions if it has any. -/
def shape (c : Call) (t : Ty) : String :=
  match t with
  | .data name constructor args =>
    let head := if name = Ty.metaName then constructor else name
    let dims := (args.zipIdx.filter fun (_, i) => c.data.fieldKind head i ≠ .type).map (·.1)
    if dims.isEmpty then t.render else Ty.renderDims dims
  | _ => t.render

/-- What to do with a parameter that is not bound: bind it to a fresh variable, or, in the result of a
call, refuse it. -/
inductive Unbound where
  | fresh
  | refuse

def bindTo (name : String) (b : ParamBinding) : Interpret Unit :=
  modify fun p => { p with bindings := p.bindings.insert name b }

def freshVar : Interpret Ty := do
  let p ← get
  let (id, supply) := Supply.fresh.run p.supply
  set { p with supply }
  return .var id

/-- The type of a parameter that is not bound. -/
def unboundParam (c : Call) (mode : Unbound) (name : String) (kind : ParamKind) (arg : Nat) :
    Interpret Ty :=
  match mode with
  | .fresh => do
    let t ← freshVar
    bindTo name ⟨kind, t, arg⟩
    return t
  | .refuse =>
    if c.lenient && kind = .type then do
      bindTo name ⟨kind, .scalar, arg⟩
      return .scalar
    else throw (.unresolvedResult kind name c.interface.name c.operation.name)

mutual

/-- The type that a part of the signature stands for under the bindings found so far. -/
def build (c : Call) (mode : Unbound) (arg : Nat) (hint : ParamKind) : TypeExpr → Interpret Ty
  | .blank => throw (.blankType (some c.operation.name))
  | .named name => do
    if c.isParam name then
      let bindings := (← get).bindings
      match bindings.get? name with
      | some b => return b.type
      | none => c.unboundParam mode name (c.kindOf bindings name hint) arg
    else c.data.resolveClosed [] (.named name)
  | .app name args => do c.data.applyName name (← buildList c mode arg name 0 args)
  | .arrow domain codomain => do
    return .fn (← build c mode arg .type domain) (← build c mode arg .type codomain)
  | .nat value => return .nat value
  | .tag value => return .tag value

/-- The arguments of an applied name, from place `i` on. -/
def buildList (c : Call) (mode : Unbound) (arg : Nat) (name : String) (i : Nat) :
    List TypeExpr → Interpret (List Ty)
  | [] => return []
  | e :: es => do
    let t ← build c mode arg (c.data.fieldKind name i) e
    return t :: (← buildList c mode arg name (i + 1) es)

end

def constrain (expected actual : Ty) (arg : Nat) : Interpret Unit :=
  modify fun p => { p with constraints := p.constraints ++ [⟨expected, actual, arg⟩] }

/-- Whether a type can be the value of a parameter. -/
def fits (kind : ParamKind) : Ty → Bool
  | .var _ => true
  | .nat _ => kind = .dimension
  | .tag _ => kind = .string
  | _ => kind = .type

/-- How two values of a parameter are shown: by the arguments they come from, or, if they come from
one argument, by themselves. -/
def disagreeing (c : Call) (earlier : ParamBinding) (actual : Ty) (arg : Nat) : String × String :=
  if earlier.arg = arg then (earlier.type.render, actual.render)
  else (c.shape (c.args[earlier.arg]?.getD .blank), c.shape (c.args[arg]?.getD .blank))

/-- Binds a parameter, or checks a type against what the parameter is bound to. -/
def bindParam (c : Call) (name : String) (hint : ParamKind) (actual : Ty) (arg : Nat) :
    Interpret Unit := do
  let bindings := (← get).bindings
  let kind := c.kindOf bindings name hint
  match bindings.get? name with
  | none =>
    if fits kind actual then bindTo name ⟨kind, actual, arg⟩
    else throw (.wrongKind name kind c.operation.name actual)
  | some earlier =>
    if Ty.same earlier.type actual then return ()
    else if !earlier.type.isGround || !actual.isGround then constrain earlier.type actual arg
    else if kind = .type then
      throw (.inconsistentType c.interface.name c.operation.name name earlier.type actual)
    else
      throw (.inconsistentDims (.operation c.interface.name c.operation.name) earlier.type actual
        (c.disagreeing earlier actual arg))

/-- Asks that two types are the same, now if both are known. -/
def require (c : Call) (expected actual : Ty) (arg : Nat) : Interpret Unit :=
  if expected.isGround && actual.isGround then
    if Ty.same expected actual then return ()
    else throw (.argumentMismatch c.operation.name expected actual)
  else constrain expected actual arg

/-- Fails because an argument is not built as the signature asks. -/
def mismatch (c : Call) (pattern : TypeExpr) (hint : ParamKind) (actual : Ty) (arg : Nat) :
    Interpret Unit := do
  let expected ← c.build .fresh arg hint pattern
  throw (.argumentMismatch c.operation.name expected actual)

/-- Whether an instance of a data type is one of the type or variant of a name. -/
def sameConstructor (name : String) (dataName constructor : String) : Bool :=
  if dataName = Ty.metaName then constructor = name else dataName = name

mutual

/-- Walks through a part of the signature together with a type. -/
def matchType (c : Call) (arg : Nat) (hint : ParamKind) (pattern : TypeExpr) (actual : Ty) :
    Interpret Unit :=
  match pattern, actual with
  | .named name, .var id => do
    if c.isParam name then c.bindParam name hint (.var id) arg
    else
      let expected ← c.build .fresh arg hint (.named name)
      constrain expected (.var id) arg
  | pattern, .var id => do
    let expected ← c.build .fresh arg hint pattern
    constrain expected (.var id) arg
  | .named name, actual => do
    if c.isParam name then c.bindParam name hint actual arg
    else
      let expected ← c.data.resolveClosed [] (.named name)
      c.require expected actual arg
  | .app name params, .data dataName constructor args =>
    if sameConstructor name dataName constructor && args.length = params.length then
      matchTypes c arg name 0 params args
    else c.mismatch (.app name params) hint (.data dataName constructor args) arg
  | .arrow domain codomain, .fn a b => do
    matchType c arg .type domain a
    matchType c arg .type codomain b
  | .nat value, actual => c.require (.nat value) actual arg
  | .tag value, actual => c.require (.tag value) actual arg
  | .blank, _ => throw (.blankType (some c.operation.name))
  | pattern, actual => c.mismatch pattern hint actual arg

/-- Walks through the arguments of an applied name, from place `i` on. -/
def matchTypes (c : Call) (arg : Nat) (name : String) (i : Nat) (patterns : List TypeExpr)
    (actuals : List Ty) : Interpret Unit :=
  match patterns, actuals with
  | pattern :: patterns, actual :: actuals => do
    matchType c arg (c.data.fieldKind name i) pattern actual
    matchTypes c arg name (i + 1) patterns actuals
  | _, _ => return ()

end

/-- Walks through the parameters of the signature together with the arguments, from argument `i`
on. -/
def matchArgs (c : Call) (i : Nat) : List TypeExpr → List Ty → Interpret Unit
  | pattern :: patterns, actual :: actuals => do
    c.matchType i .type pattern actual
    c.matchArgs (i + 1) patterns actuals
  | _, _ => return ()

end Call

/-- What a call comes to: its type, the values of the parameters, and what is left to unify. -/
structure Outcome where
  type : Ty
  bindings : SortedMap String ParamBinding
  constraints : List Constraint

namespace Outcome

/-- The parameters of a kind with their values, sorted by name. -/
def bindingsOf (o : Outcome) (kind : ParamKind) : List (String × Ty) :=
  (o.bindings.entries.filter fun (_, b) => b.kind = kind).map fun (name, b) => (name, b.type)

end Outcome

/-- Interprets a call: binds the parameters of the signature against the arguments and builds the type
of the result. -/
def Call.interpret (c : Call) : Fresh Outcome := do
  let (params, result) := c.operation.signature.splitArrow
  if params.length ≠ c.args.length then
    throw (.arity c.operation.name params.length c.args.length)
  let steps : Interpret Outcome := do
    c.matchArgs 0 params c.args
    let t ← c.build .refuse c.args.length .type result
    let p ← get
    return ⟨t, p.bindings, p.constraints⟩
  let supply ← get
  let (outcome, progress) := steps.run.run ⟨supply, ∅, []⟩
  set progress.supply
  match outcome with
  | .ok o => return o
  | .error f => throw f

end Signature

end Formulary
