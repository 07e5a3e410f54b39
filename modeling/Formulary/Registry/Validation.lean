import Formulary.Registry

namespace Formulary.Registry

/-- Whether an implementation takes arguments of some types. -/
def accepts (r : Registry) (i : RegisteredImplementation) (params : List TypeExpr)
    (args : List Ty) : StateM Supply Bool := do
  let attempt : Fresh Bool := do
    let types ← Fresh.named (r.data.resolveList [] true i.decl.args)
    let scope : Scope := (i.interface.params.map (·.name)).zip (types.map some)
    let expected ← Fresh.named (r.data.resolveList scope true params)
    return (Ty.unifyList expected args).toBool
  match ← attempt.run with
  | .ok accepted => return accepted
  | .error _ => return false

/-- The first implementation in a list that takes the arguments decides. -/
def acceptsSome (r : Registry) (params : List TypeExpr) (args : List Ty) :
    List RegisteredImplementation → StateM Supply Bool
  | [] => return false
  | i :: rest => do
    if ← r.accepts i params args then return true else acceptsSome r params args rest

/-- Checks that some implementation of a structure takes the arguments of a call. -/
def validate (r : Registry) (structureName operation : String) (args : List Ty) : Fresh Unit := do
  let some s := r.structure? structureName | throw (.unknownStructure structureName "")
  let some op := s.operation? operation | throw (.undeclaredOperation operation structureName)
  let (params, _) := op.signature.splitArrow
  if params.length ≠ args.length then throw (.arity operation params.length args.length)
  let accepted ← (r.acceptsSome params args (r.implementationsOf structureName) : StateM Supply Bool)
  unless accepted do throw (.notImplemented structureName operation args)

end Formulary.Registry
