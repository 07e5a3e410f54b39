import Formulary.Registry.Data
import Formulary.Ty.Scheme

/-!
What a written type means, given the declared data types. A name stands for what its scope binds it
to, then for a data type, a variant of the type of types or a built-in name; a lower case name that
stands for none of these may be a parameter, which gets a fresh variable.
-/

namespace Formulary

/-- The parameters that a type expression may use. One without a type is declared and not bound. -/
abbrev Scope := List (String × Option Ty)

/-- Steps that may fail and hand out variables. Variables handed out before a failure stay used. -/
abbrev Fresh := ExceptT Fault (StateM Supply)

/-- Steps that may fail and hand out variables by name. -/
abbrev FreshNamed := ExceptT Fault (StateM NamedVars)

/-- Runs steps that hand out variables by name, with no name used before. -/
def Fresh.named {α : Type} (steps : FreshNamed α) : Fresh α :=
  fun supply =>
    let (result, vars) := steps.run.run ⟨supply, []⟩
    (result, vars.supply)

/-- Runs steps that hand out no variable. -/
def FreshNamed.closed {α : Type} (steps : FreshNamed α) : Except Fault α :=
  (steps.run.run ⟨.startingAt 0, []⟩).1

namespace DataTypes

/-- The built-in names. A declared data type of the same name hides them. -/
def builtinNames : List (String × Ty) :=
  [("ℝ", .scalar), ("Real", .scalar), ("Nat", .prim .nat), ("ℕ", .prim .nat),
    ("String", .prim .string), ("Bool", .prim .bool)]

/-- What a name on its own stands for. -/
def lookupName? (r : DataTypes) (name : String) : Option Ty :=
  match r.find? name with
  | some ⟨_, [], _⟩ => some (.instanceOf name [])
  | _ =>
    match r.metaVariant? name with
    | some ⟨_, []⟩ => some (.variant name [])
    | _ => builtinNames.lookup name

/-- The type that a name stands for when it is applied: an instance of a data type, or a variant of
the type of types. -/
def applyName (r : DataTypes) (name : String) (args : List Ty) : Except Fault Ty :=
  match r.find? name with
  | some d =>
    if d.params.length = args.length then .ok (.instanceOf name args)
    else .error (.arity name d.params.length args.length)
  | none =>
    match r.metaVariant? name with
    | some v =>
      if v.fields.length = args.length then .ok (.variant name args)
      else .error (.arity name v.fields.length args.length)
    | none => .error (r.unknownType name)

/-- The fresh variable of a parameter. -/
def freeParam (name : String) : FreshNamed Ty := do
  return .var (← (NamedVars.varFor name : StateM NamedVars Int))

mutual

/-- The type that a type expression stands for. With `free`, parameters that are not bound get fresh
variables; without it they are refused. -/
def resolve (r : DataTypes) (scope : Scope) (free : Bool) : TypeExpr → FreshNamed Ty
  | .blank => throw (.blankType none)
  | .named name =>
    match scope.lookup name with
    | some (some t) => return t
    | some none => if free then freeParam name else throw (.unresolvedParam name)
    | none =>
      match r.lookupName? name with
      | some t => return t
      | none => if free && isParamName name then freeParam name else throw (r.unknownType name)
  | .app name args => do r.applyName name (← resolveList r scope free args)
  | .arrow domain codomain => do
    return .fn (← resolve r scope free domain) (← resolve r scope free codomain)
  | .nat value => return .nat value
  | .tag value => return .tag value

def resolveList (r : DataTypes) (scope : Scope) (free : Bool) : List TypeExpr → FreshNamed (List Ty)
  | [] => return []
  | e :: es => do return (← resolve r scope free e) :: (← resolveList r scope free es)

end

/-- The type that a type expression without free parameters stands for. -/
def resolveClosed (r : DataTypes) (scope : Scope) (e : TypeExpr) : Except Fault Ty :=
  (r.resolve scope false e).closed

/-- Checks the field types of a data type. Its parameters stand for themselves. -/
def checkFields (r : DataTypes) (name : String) : Except Fault Unit :=
  match r.find? name with
  | none => .error (r.unknownType name)
  | some d =>
    let scope : Scope := d.params.zipIdx.map fun (p, i) => (p, some (.var (-1 - i)))
    d.variants.forM fun v => v.fields.forM fun f => do
      let _ ← r.resolveClosed scope f.type

/-- What the arguments of an applied name stand for, if the name can be applied. -/
def fieldKinds? (r : DataTypes) (name : String) : Option (List ParamKind) :=
  match r.find? name with
  | some d => some (d.params.map fun _ => .type)
  | none =>
    (r.metaVariant? name).map fun v => v.fields.map fun f =>
      match r.resolveClosed [] f.type with
      | .ok t => t.paramKind
      | .error _ => .type

/-- What the argument in a place of an applied name stands for. -/
def fieldKind (r : DataTypes) (name : String) (i : Nat) : ParamKind :=
  (((r.fieldKinds? name).getD [])[i]?).getD .type

end DataTypes

/-- A field of a variant, with its type in an instance and with what it stands for. -/
structure FieldInstance where
  label : Option String
  type : Ty
  kind : ParamKind

/-- A variant with fresh variables for the parameters of its data type. -/
structure VariantInstance where
  owner : String
  name : String
  /-- The type of what is built with the variant. -/
  result : Ty
  fields : List FieldInstance

namespace VariantInstance

/-- A variant of the type of types that takes dimensions and then one value. It may also be built
from its dimensions and its elements one by one. -/
def isShaped (v : VariantInstance) : Bool :=
  v.owner = Ty.metaName && 2 ≤ v.fields.length &&
    match v.fields.reverse with
    | [] => false
    | last :: dims => last.kind = .type && dims.all (·.kind = .dimension)

end VariantInstance

namespace DataTypes

/-- The field of a variant of the type of types. A field whose declared type is a data type keeps
that type; every other field is a value of the type level and gets a fresh variable. -/
def metaField (r : DataTypes) (f : Field) : Fresh FieldInstance := do
  let declared ← r.resolveClosed [] f.type
  let own : Bool := match declared with
    | .data name _ _ => name ≠ Ty.metaName
    | _ => false
  if own then return ⟨f.label, declared, declared.paramKind⟩
  else return ⟨f.label, .var (← (Supply.fresh : StateM Supply Int)), declared.paramKind⟩

/-- A variant with fresh variables. -/
def instantiate (r : DataTypes) (name : String) : Fresh VariantInstance :=
  match r.variant? name with
  | none => throw (.unknownConstructor name (Text.suggest name r.variantNames))
  | some (d, v) => do
    if d.name = Ty.metaName then
      let fields ← v.fields.mapM r.metaField
      return ⟨d.name, name, .variant name (fields.map (·.type)), fields⟩
    else
      let params ← d.params.mapM fun p => do
        return (p, Ty.var (← (Supply.fresh : StateM Supply Int)))
      let scope : Scope := params.map fun (p, t) => (p, some t)
      let fields ← v.fields.mapM fun f => do
        let t ← r.resolveClosed scope f.type
        return (⟨f.label, t, t.paramKind⟩ : FieldInstance)
      return ⟨d.name, name, .instanceOf d.name (params.map (·.2)), fields⟩

end DataTypes

end Formulary
