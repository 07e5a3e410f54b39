import Formulary.Declaration

namespace Formulary.StandardLibrary

def positional (t : TypeExpr) : Field := ⟨none, t⟩

def labelled (label : String) (t : TypeExpr) : Field := ⟨some label, t⟩

def typeNamed (name : String) : TypeExpr := .named name

/-- A signature from some parameters to a result. -/
def signature (params : List TypeExpr) (result : TypeExpr) : TypeExpr :=
  params.foldr .arrow result

def operation (name : String) (params : List TypeExpr) (result : TypeExpr) : Operation :=
  ⟨name, signature params result, false⟩

def dimension (name : String) : Binder := ⟨name, some (typeNamed "Nat")⟩

def typeParam (name : String) : Binder := ⟨name, none⟩

/-- An axiom about some variables of one type. -/
def law (name : String) (vars : List String) (t : TypeExpr) (left right : Expr) : Axiom :=
  ⟨name, vars.map (⟨·, some t⟩), .operation "equals" [left, right]⟩

def call (name : String) (args : List Expr) : Expr := .operation name args

/-- An implementation whose bodies are all built in. -/
def builtins (structureName : String) (args : List String) (bodies : List (String × String)) :
    Declaration :=
  .implementation ⟨structureName, args.map typeNamed,
    bodies.map fun (name, builtin) => ⟨name, [], some builtin, none⟩⟩

def dataTypes : List Declaration := [
  .data ⟨"Type", [], [
    ⟨"Scalar", []⟩,
    ⟨"Vector", [labelled "n" (typeNamed "Nat"), labelled "T" (typeNamed "Type")]⟩,
    ⟨"Matrix", [labelled "m" (typeNamed "Nat"), labelled "n" (typeNamed "Nat"),
      labelled "T" (typeNamed "Type")]⟩]⟩,
  .data ⟨"Bool", [], [⟨"True", []⟩, ⟨"False", []⟩]⟩,
  .data ⟨"Option", ["T"], [⟨"None", []⟩, ⟨"Some", [positional (typeNamed "T")]⟩]⟩,
  .data ⟨"List", ["T"], [⟨"Nil", []⟩,
    ⟨"Cons", [positional (typeNamed "T"), positional (.app "List" [typeNamed "T"])]⟩]⟩]

def elementType : TypeExpr := typeNamed "T"

def truthType : TypeExpr := typeNamed "Bool"

def matrixType (rows columns : String) : TypeExpr :=
  .app "Matrix" [typeNamed rows, typeNamed columns, elementType]

def vectorType : TypeExpr := .app "Vector" [typeNamed "n", elementType]

def x : Expr := .object "x"

def y : Expr := .object "y"

def z : Expr := .object "z"

def equatable : Structure :=
  ⟨"Equatable", [typeParam "T"],
    [operation "equals" [elementType, elementType] truthType],
    [law "reflexivity" ["x"] elementType x x,
      law "symmetry" ["x", "y"] elementType (call "equals" [x, y]) (call "equals" [y, x])]⟩

def ordered : Structure :=
  ⟨"Ordered", [typeParam "T"],
    [operation "less_than" [elementType, elementType] truthType,
      operation "greater_than" [elementType, elementType] truthType],
    [law "converse" ["x", "y"] elementType (call "less_than" [x, y])
      (call "greater_than" [y, x])]⟩

def arithmetic : Structure :=
  ⟨"Arithmetic", [typeParam "T"],
    [operation "plus" [elementType, elementType] elementType,
      operation "minus" [elementType, elementType] elementType,
      operation "times" [elementType, elementType] elementType,
      operation "divide" [elementType, elementType] elementType,
      operation "negate" [elementType] elementType,
      operation "power" [elementType, elementType] elementType],
    [law "commutativity" ["x", "y"] elementType (call "plus" [x, y]) (call "plus" [y, x]),
      law "associativity" ["x", "y", "z"] elementType
        (call "plus" [call "plus" [x, y], z]) (call "plus" [x, call "plus" [y, z]]),
      law "distributivity" ["x", "y", "z"] elementType
        (call "times" [x, call "plus" [y, z]])
        (call "plus" [call "times" [x, y], call "times" [x, z]]),
      law "inverse" ["x", "y"] elementType
        (call "minus" [x, y]) (call "plus" [x, call "negate" [y]])]⟩

def matrixAddable : Structure :=
  let a : Expr := .object "A"
  let b : Expr := .object "B"
  ⟨"MatrixAddable", [dimension "m", dimension "n", typeParam "T"],
    [operation "add" [matrixType "m" "n", matrixType "m" "n"] (matrixType "m" "n")],
    [law "commutativity" ["A", "B"] (matrixType "m" "n") (call "add" [a, b]) (call "add" [b, a])]⟩

def matrixMultipliable : Structure :=
  ⟨"MatrixMultipliable", [dimension "m", dimension "n", dimension "p", typeParam "T"],
    [operation "multiply" [matrixType "m" "n", matrixType "n" "p"] (matrixType "m" "p")], []⟩

def transposable : Structure :=
  let a : Expr := .object "A"
  ⟨"Transposable", [dimension "m", dimension "n", typeParam "T"],
    [operation "transpose" [matrixType "m" "n"] (matrixType "n" "m")],
    [law "involution" ["A"] (matrixType "m" "n") (call "transpose" [call "transpose" [a]]) a]⟩

def vectorSpace : Structure :=
  ⟨"VectorSpace", [dimension "n", typeParam "T"],
    [operation "dot" [vectorType, vectorType] elementType,
      operation "scale" [elementType, vectorType] vectorType], []⟩

/-- Two truth values are equal if the second is true just when the first is. -/
def equalTruth : Declaration :=
  let true : Pattern := .constructor "True" []
  let false : Pattern := .constructor "False" []
  .implementation ⟨"Equatable", [truthType],
    [⟨"equals", ["a", "b"], none, some (.matching (.object "a")
      [(true, .object "b"),
        (false, .matching (.object "b") [(true, .object "False"), (false, .object "True")])])⟩]⟩

def structures : List Declaration := [
  .interface equatable,
  .interface ordered,
  .interface arithmetic,
  .interface matrixAddable,
  .interface matrixMultipliable,
  .interface transposable,
  .interface vectorSpace,
  builtins "Equatable" ["ℝ"] [("equals", "builtin_real_eq")],
  equalTruth,
  builtins "Ordered" ["ℝ"]
    [("less_than", "builtin_real_lt"), ("greater_than", "builtin_real_gt")],
  builtins "Arithmetic" ["ℝ"]
    [("plus", "builtin_real_add"), ("minus", "builtin_real_sub"), ("times", "builtin_real_mul"),
      ("divide", "builtin_real_div"), ("negate", "builtin_real_neg"),
      ("power", "builtin_real_pow")],
  builtins "MatrixAddable" ["m", "n", "ℝ"] [("add", "builtin_matrix_add")],
  builtins "MatrixMultipliable" ["m", "n", "p", "ℝ"] [("multiply", "builtin_matrix_mul")],
  builtins "Transposable" ["m", "n", "ℝ"] [("transpose", "builtin_matrix_transpose")],
  builtins "VectorSpace" ["n", "ℝ"]
    [("dot", "builtin_vector_dot"), ("scale", "builtin_vector_scale")]]

end Formulary.StandardLibrary
