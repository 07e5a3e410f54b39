import Formulary.Expr
import Formulary.TypeExpr

namespace Formulary

/-- A field of a variant, with a label unless it is positional. -/
structure Field where
  label : Option String
  type : TypeExpr

/-- One alternative of a data type. -/
structure Variant where
  name : String
  fields : List Field

structure DataType where
  name : String
  params : List String
  variants : List Variant

/-- A name with the type or kind written behind it, if one is. -/
structure Binder where
  name : String
  type : Option TypeExpr

/-- An operation that a structure declares. Elements are operations without parameters. -/
structure Operation where
  name : String
  signature : TypeExpr
  isElement : Bool

structure Axiom where
  name : String
  vars : List Binder
  body : Expr

structure Structure where
  name : String
  params : List Binder
  operations : List Operation
  axioms : List Axiom

/-- What an implementation supplies for an operation: the name of something built in, or parameters
and an expression. -/
structure OperationBody where
  name : String
  params : List String
  builtin : Option String
  expr : Option Expr

structure Implementation where
  structureName : String
  args : List TypeExpr
  bodies : List OperationBody

structure Definition where
  name : String
  params : List Binder
  result : Option TypeExpr
  body : Expr

inductive Declaration where
  | data (d : DataType)
  | interface (s : Structure)
  | implementation (i : Implementation)
  | definition (d : Definition)

namespace Structure

def operation? (s : Structure) (name : String) : Option Operation :=
  s.operations.find? (·.name = name)

end Structure

namespace Implementation

def body? (i : Implementation) (name : String) : Option OperationBody :=
  i.bodies.find? (·.name = name)

end Implementation

namespace Definition

def paramNames (d : Definition) : List String := d.params.map (·.name)

end Definition

namespace Declaration

def kindName : Declaration → String
  | .data _ => "data"
  | .interface _ => "structure"
  | .implementation _ => "implements"
  | .definition _ => "define"

def dataType? : Declaration → Option DataType
  | .data d => some d
  | _ => none

def definition? : Declaration → Option Definition
  | .definition d => some d
  | _ => none

end Declaration

/-- The data types among some declarations, in their order. -/
def dataTypesOf (decls : List Declaration) : List DataType :=
  decls.filterMap Declaration.dataType?

/-- The definitions among some declarations, in their order. -/
def definitionsOf (decls : List Declaration) : List Definition :=
  decls.filterMap Declaration.definition?

end Formulary
