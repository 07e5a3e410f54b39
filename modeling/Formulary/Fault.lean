import Formulary.Declaration
import Formulary.Ty.Unification

namespace Formulary

inductive FaultKind where
  | unknownIdentifier
  | arityMismatch
  | unificationFailure
  | occursCheck
  | dimensionMismatch
  | nonExhaustiveMatch
  | unreachablePattern
  | registryConflict
  | unresolvedParameter
  | missingImplementation
  | internalError
deriving DecidableEq

namespace FaultKind

def name : FaultKind → String
  | .unknownIdentifier => "unknown identifier"
  | .arityMismatch => "arity mismatch"
  | .unificationFailure => "unification failure"
  | .occursCheck => "occurs check"
  | .dimensionMismatch => "dimension mismatch"
  | .nonExhaustiveMatch => "non-exhaustive match"
  | .unreachablePattern => "unreachable pattern"
  | .registryConflict => "registry conflict"
  | .unresolvedParameter => "unresolved parameter"
  | .missingImplementation => "missing implementation"
  | .internalError => "internal error"

/-- The kinds in order. -/
def all : List FaultKind :=
  [.unknownIdentifier, .arityMismatch, .unificationFailure, .occursCheck, .dimensionMismatch,
    .nonExhaustiveMatch, .unreachablePattern, .registryConflict, .unresolvedParameter,
    .missingImplementation, .internalError]

/-- The name of the kind with a number, counted from one. Other numbers stand for an error that is
not classified. -/
def numberedName (n : Int) : String :=
  if n ≤ 0 then "error" else (all[(n - 1).toNat]?.map name).getD "error"

end FaultKind

/-- Who asks that two dimensions agree. -/
inductive Requirer where
  | operation (structureName operation : String)
  | function (name : String)

/-- The callee whose call is at fault. -/
def Requirer.callee : Requirer → String
  | .operation _ op => op
  | .function f => f

def Requirer.demand : Requirer → String
  | .operation s op => s ++ " requires consistent dimensions for " ++ op
  | .function f => f ++ " requires consistent dimensions"

inductive Fault where
  -- types
  | unify (e : UnifyError)
  | unknownType (name hint : String)
  | unresolvedParam (name : String)
  /-- A type is missing, in the signature of an operation if one is named. -/
  | blankType (operation : Option String)
  /-- Something is applied to the wrong number of arguments. -/
  | arity (name : String) (expected actual : Nat)
  -- declarations of data types
  | unnamedData
  | dataExists (name : String)
  | duplicateTypeParam (param dataName : String)
  | duplicateVariant (variant dataName : String)
  | variantExists (variant dataName owner : String)
  -- declarations and implementations of structures
  | structureExists (name : String)
  | duplicateParam (param structureName : String)
  | duplicateOperation (operation structureName : String)
  | operationExists (operation structureName owner : String)
  | unknownStructure (name hint : String)
  | undeclaredOperation (operation structureName : String)
  | duplicateBody (operation : String)
  | missingBody (structureName operation : String)
  /-- The second argument list is how the arguments are spelled in the earlier block. -/
  | implementationExists (structureName args earlier : String)
  | notImplemented (structureName operation : String) (args : List Ty)
  | bodyArity (operation structureName args : String)
  -- calls of operations
  | inconsistentType (structureName operation param : String) (expected actual : Ty)
  | inconsistentDims (requirer : Requirer) (expected actual : Ty) (values : String × String)
  | wrongKind (param : String) (kind : ParamKind) (operation : String) (actual : Ty)
  | argumentMismatch (operation : String) (expected actual : Ty)
  | unresolvedResult (kind : ParamKind) (param structureName operation : String)
  -- patterns
  | unknownConstructor (name hint : String)
  | repeatedVariable (name : String)
  | patternArity (name : String) (expected actual : Nat)
  -- expressions
  | emptyExpression
  | unknownOperation (name hint : String)
  | constructorArity (name : String) (expected actual : Nat)
  /-- A field that takes a literal got something else, of the type `actual` if that is known. -/
  | notLiteral (constructor : String) (kind : ParamKind) (field : String) (arg : Expr)
      (actual : Ty)
  | noCases
  | nonExhaustive (scrutinee : Ty) (missing : List String)
  | unreachable (pattern : Pattern) (index : Nat)
  /-- A substitution that changes what it puts. -/
  | notIdempotent (subst : Subst)
  -- definitions and evaluation
  | definitionConflict (name : String)
  | tooDeep (bound : Nat)
  | noMatchingCase (value : Expr)

namespace UnifyError

def kind : UnifyError → FaultKind
  | .mismatch _ _ => .unificationFailure
  | .arity _ _ _ => .arityMismatch
  | .occurs _ _ => .occursCheck
  | .quantified => .internalError

def text : UnifyError → String
  | .mismatch expected actual => "Failed to unify " ++ expected.render ++ " with " ++ actual.render
  | .arity expected actual _ =>
    "Failed to unify " ++ expected.render ++ " with " ++ actual.render ++
      ": different number of arguments"
  | .occurs id t =>
    "Recursive types are not supported: " ++ Ty.rawName id ++ " occurs in " ++ t.renderRaw
  | .quantified => "Type schemes must be instantiated before unification"

end UnifyError

namespace Fault

def kind : Fault → FaultKind
  | .unify e => e.kind
  | .unknownType _ _ | .unknownStructure _ _ | .undeclaredOperation _ _ | .unknownConstructor _ _
  | .unknownOperation _ _ => .unknownIdentifier
  | .unresolvedParam _ | .unresolvedResult _ _ _ _ => .unresolvedParameter
  | .blankType _ | .emptyExpression | .notIdempotent _ | .tooDeep _ => .internalError
  | .arity _ _ _ | .bodyArity _ _ _ | .patternArity _ _ _ | .constructorArity _ _ _ =>
    .arityMismatch
  | .unnamedData | .dataExists _ | .duplicateTypeParam _ _ | .duplicateVariant _ _
  | .variantExists _ _ _ | .structureExists _ | .duplicateParam _ _ | .duplicateOperation _ _
  | .operationExists _ _ _ | .duplicateBody _ | .implementationExists _ _ _
  | .repeatedVariable _ | .definitionConflict _ => .registryConflict
  | .missingBody _ _ | .notImplemented _ _ _ => .missingImplementation
  | .inconsistentType _ _ _ _ _ | .wrongKind _ _ _ _ | .argumentMismatch _ _ _
  | .notLiteral _ _ _ _ _ => .unificationFailure
  | .inconsistentDims _ _ _ _ => .dimensionMismatch
  | .noCases | .nonExhaustive _ _ | .noMatchingCase _ => .nonExhaustiveMatch
  | .unreachable _ _ => .unreachablePattern

/-- "X expects n arguments, got m" -/
def countText (what : String) (expected actual : Nat) : String :=
  what ++ " expects " ++ toString expected ++ " arguments, got " ++ toString actual

/-- What is wrong, without a suggestion. -/
def text : Fault → String
  | .unify e => e.text
  | .unknownType name _ => "Unknown type " ++ name
  | .unresolvedParam name => "Unresolved parameter " ++ name
  | .blankType none => "Unknown type expression: (interface \x7b\x7d) <nil>"
  | .blankType (some operation) =>
    "Unknown type expression in signature of " ++ operation ++ ": (interface \x7b\x7d) <nil>"
  | .arity name expected actual => countText name expected actual
  | .unnamedData => "Data type must have a name"
  | .dataExists name => "Data type " ++ name ++ " is already defined"
  | .duplicateTypeParam param name =>
    "Duplicate type parameter " ++ param ++ " in data type " ++ name
  | .duplicateVariant variant name => "Duplicate variant " ++ variant ++ " in data type " ++ name
  | .variantExists variant name owner =>
    "Variant " ++ variant ++ " of data type " ++ name ++ " is already defined by data type " ++ owner
  | .structureExists name => "Structure " ++ name ++ " is already defined"
  | .duplicateParam param name => "Duplicate parameter " ++ param ++ " in structure " ++ name
  | .duplicateOperation operation name =>
    "Duplicate operation " ++ operation ++ " in structure " ++ name
  | .operationExists operation name owner =>
    "Operation " ++ operation ++ " of structure " ++ name ++
      " is already declared by structure " ++ owner
  | .unknownStructure name _ => "Unknown structure " ++ name
  | .undeclaredOperation operation name =>
    "Operation " ++ operation ++ " is not declared by structure " ++ name
  | .duplicateBody operation => "Duplicate body for operation " ++ operation
  | .missingBody name operation =>
    "Implementation of " ++ name ++ " is missing operation " ++ operation
  | .implementationExists name args earlier =>
    name ++ args ++ " is already implemented" ++
      if args = earlier then "" else " as " ++ name ++ earlier
  | .notImplemented name operation args =>
    name ++ " is not implemented for (" ++ ", ".intercalate (args.map Ty.render) ++
      ") (required by " ++ operation ++ ")"
  | .bodyArity operation name args =>
    "Body of " ++ operation ++ " in " ++ name ++ args ++ " has the wrong number of parameters"
  | .inconsistentType name operation param expected actual =>
    name ++ " requires consistent " ++ param ++ " for " ++ operation ++ "; got " ++
      expected.render ++ " and " ++ actual.render
  | .inconsistentDims requirer _ _ (first, second) =>
    requirer.demand ++ "; got " ++ first ++ " and " ++ second
  | .wrongKind param kind operation actual =>
    "Expected a " ++ kind.name ++ " for " ++ param ++ " in " ++ operation ++ ", got " ++
      actual.render
  | .argumentMismatch operation expected actual =>
    operation ++ ": " ++ (UnifyError.mismatch expected actual).text
  | .unresolvedResult kind param name operation =>
    "Cannot resolve " ++ kind.name ++ " parameter " ++ param ++ " of " ++ name ++
      " in the result of " ++ operation
  | .unknownConstructor name _ => "Unknown constructor " ++ name
  | .repeatedVariable name => "Variable " ++ name ++ " is bound more than once in pattern"
  | .patternArity name expected actual => countText ("Pattern " ++ name) expected actual
  | .emptyExpression => "Empty expression"
  | .unknownOperation name _ => "Unknown operation " ++ name
  | .constructorArity name expected actual => countText ("Constructor " ++ name) expected actual
  | .notLiteral constructor kind field arg actual =>
    let wanted := match kind with
      | .string => "a string literal"
      | _ => "a natural number"
    let got := match actual with
      | .blank => arg.render
      | t => arg.render ++ " : " ++ t.render
    "Constructor " ++ constructor ++ " expects " ++ wanted ++ " for field " ++ field ++ ", got " ++ got
  | .noCases => "Match must have at least one case"
  | .nonExhaustive scrutinee missing =>
    "Non-exhaustive match on " ++ scrutinee.render ++ ": missing " ++ ", ".intercalate missing
  | .unreachable pattern index =>
    "Unreachable pattern " ++ pattern.render ++ " in case " ++ toString (index + 1)
  | .notIdempotent subst =>
    "Substitution is not idempotent: (string) (len=" ++ toString subst.render.utf8ByteSize ++ ") " ++
      Text.quote subst.render
  | .definitionConflict name => "Definition " ++ name ++ " conflicts with an existing name"
  | .tooDeep bound => "Evaluation exceeded the maximum depth of " ++ toString bound
  | .noMatchingCase value => "No case matches " ++ value.render

/-- A name that may have been meant, or nothing. -/
def hint : Fault → String
  | .unknownType _ hint | .unknownStructure _ hint | .unknownConstructor _ hint
  | .unknownOperation _ hint => hint
  | _ => ""

def message (f : Fault) : String :=
  if f.hint = "" then f.text else f.text ++ " (did you mean " ++ f.hint ++ "?)"

/-- The name that is at fault, or nothing. -/
def name : Fault → String
  | .unify (.arity _ _ constructor) => constructor
  | .unknownType name _ | .unresolvedParam name | .arity name _ _ | .dataExists name
  | .duplicateTypeParam name _ | .duplicateVariant name _ | .variantExists name _ _
  | .structureExists name | .duplicateParam name _ | .duplicateOperation name _
  | .operationExists name _ _ | .unknownStructure name _ | .undeclaredOperation name _
  | .duplicateBody name | .missingBody _ name | .implementationExists name _ _
  | .notImplemented name _ _ | .bodyArity name _ _ | .inconsistentType _ name _ _ _
  | .wrongKind name _ _ _ | .argumentMismatch name _ _ | .unresolvedResult _ name _ _
  | .unknownConstructor name _ | .repeatedVariable name | .patternArity name _ _
  | .unknownOperation name _ | .constructorArity name _ _ | .notLiteral name _ _ _ _
  | .definitionConflict name => name
  | .inconsistentDims requirer _ _ _ => requirer.callee
  | .unreachable pattern _ => pattern.render
  | _ => ""

/-- The type that was asked for, or no type. -/
def expected : Fault → Ty
  | .unify (.mismatch expected _) | .unify (.arity expected _ _)
  | .inconsistentType _ _ _ expected _ | .inconsistentDims _ expected _ _
  | .argumentMismatch _ expected _ => expected
  | .unify (.occurs id _) => .var id
  | _ => .blank

/-- The type that was found, or no type. -/
def actual : Fault → Ty
  | .unify (.mismatch _ actual) | .unify (.arity _ actual _) | .unify (.occurs _ actual)
  | .inconsistentType _ _ _ _ actual | .inconsistentDims _ _ actual _ | .wrongKind _ _ _ actual
  | .argumentMismatch _ _ actual | .notLiteral _ _ _ _ actual | .nonExhaustive actual _ => actual
  | _ => .blank

/-- The values that disagree. -/
def values : Fault → List String
  | .inconsistentDims _ _ _ (first, second) => [first, second]
  | .unreachable _ index => [toString index]
  | _ => []

/-- The constructors that no case covers. -/
def missing : Fault → List String
  | .nonExhaustive _ missing => missing
  | _ => []

end Fault

end Formulary
