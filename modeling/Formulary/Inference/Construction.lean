import Formulary.Inference.Context
import Formulary.Text.Integer

namespace Formulary.Inference

/-- The natural number that a literal denotes. -/
def dimension? : Expr → Option Nat
  | .const value => ((Text.integer? value.toList).filter (0 ≤ ·)).map Int.toNat
  | _ => none

/-- The value of the type level that a literal denotes, for a field of some kind. -/
def literal? (kind : ParamKind) (arg : Expr) : Option Ty :=
  match kind, arg with
  | .dimension, arg => (dimension? arg).map fun n => .nat n
  | .string, .const value => (Tag.ofLiteral? value).map .tag
  | _, _ => none

/-- The number of elements of a shape, unless one of its dimensions, or the number of elements up to
some dimension, is above a bound. -/
def elementCount? (bound : Nat) (dims : List Nat) : Option Nat :=
  dims.foldlM (fun n d => if d ≤ bound ∧ n * d ≤ bound then some (n * d) else none) 1

/-- Whether arguments are literal dimensions followed by as many elements as these ask for. -/
def areElements (v : VariantInstance) (args : List Expr) : Bool :=
  let dims := v.fields.length - 1
  v.isShaped && dims ≤ args.length &&
    match (args.take dims).mapM dimension? >>= elementCount? args.length with
    | some count => args.length = dims + count
    | none => false

/-- What an argument that is no literal means for a field of the type level. A type that is not known
yet is let through; a type of the right kind is too, and a value of the right kind is taken over. -/
def bindValue (c : Context) (kind : ParamKind) (field : Ty) (refusal : Fault) (actual : Ty) :
    Infer Unit :=
  let take : Infer Unit := match field with
    | .var _ => unify c field actual
    | _ => return ()
  match actual with
  | .var _ => return ()
  | .prim _ => if actual.paramKind = kind then return () else throw refusal
  | .nat _ => if kind = .dimension then take else throw refusal
  | .tag _ => if kind = .string then take else throw refusal
  | _ => throw refusal

/-- Checks an argument against the field with a number. -/
def bindField (c : Context) (v : VariantInstance) (index : Nat) (field : FieldInstance)
    (arg : Expr) (argType : Ty) : Infer Unit := do
  let refusal := Fault.notLiteral v.name field.kind (field.label.getD (toString (index + 1))) arg
  if field.kind = .type then unify c field.type argType
  else
    match literal? field.kind arg, arg with
    | some value, _ =>
      match field.type with
      | .var _ => unify c field.type value
      | _ => return ()
    | none, .const _ => throw (refusal .blank)
    | none, _ =>
      let actual ← known argType
      bindValue c field.kind field.type (refusal actual) actual

/-- Checks arguments against fields, from the field with a number on. -/
def bindFields (c : Context) (v : VariantInstance) (index : Nat) :
    List FieldInstance → List (Expr × Ty) → Infer Unit
  | field :: fields, (arg, argType) :: args => do
    bindField c v index field arg argType
    bindFields c v (index + 1) fields args
  | _, _ => return ()

/-- Checks the elements of a shape. -/
def bindElements (c : Context) (element : Ty) : List (Expr × Ty) → Infer Unit
  | [] => return ()
  | (arg, argType) :: args => do
    blaming arg (unify c element argType)
    bindElements c element args

/-- The type of what a constructor builds from arguments. -/
def inferConstruction (c : Context) (e : Expr) (name : String) (args : List (Expr × Ty)) :
    Infer Ty := do
  let v ← blaming e (fresh (c.data.instantiate name))
  if args.length = v.fields.length then blaming e (bindFields c v 0 v.fields args)
  else if areElements v (args.map (·.1)) then
    let dims := v.fields.length - 1
    blaming e (bindFields c v 0 (v.fields.take dims) (args.take dims))
    bindElements c ((v.fields.getLast?.map (·.type)).getD .blank) (args.drop dims)
  else failAt e (.constructorArity name v.fields.length args.length)
  known v.result

end Formulary.Inference
