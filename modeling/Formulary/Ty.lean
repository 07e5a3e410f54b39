import Formulary.Tag

/-!
Types of expressions. Besides data types and functions there are the things that data types take as
arguments: natural numbers as dimensions, and string tags. Type variables are numbered.
-/

namespace Formulary

/-- The kinds that classify the parameters of structures and constructors. -/
inductive PrimKind where
  | nat
  | string
  | bool
deriving DecidableEq

/-- What a parameter of a structure or a constructor stands for. -/
inductive ParamKind where
  | type
  | dimension
  | string
deriving DecidableEq

def PrimKind.name : PrimKind → String
  | .nat => "Nat"
  | .string => "String"
  | .bool => "Bool"

def ParamKind.name : ParamKind → String
  | .type => "type"
  | .dimension => "dimension"
  | .string => "string"

/-- The name of the kind with a number, counted from zero. -/
def PrimKind.numberedName (n : Int) : String :=
  match n with
  | 0 => PrimKind.nat.name
  | 1 => PrimKind.string.name
  | 2 => PrimKind.bool.name
  | _ => "?"

/-- The name of the kind with a number, counted from zero. What is no other kind is a type. -/
def ParamKind.numberedName (n : Int) : String :=
  match n with
  | 1 => ParamKind.dimension.name
  | 2 => ParamKind.string.name
  | _ => ParamKind.type.name

inductive Ty where
  /-- No type. -/
  | blank
  | prim (kind : PrimKind)
  /-- A dimension. -/
  | nat (value : Int)
  | tag (value : Tag)
  | var (id : Int)
  /-- An instance of a data type. A variant of the type of types names its constructor; for every
  other data type the constructor repeats the name. -/
  | data (name constructor : String) (args : List Ty)
  | fn (domain codomain : Ty)
  /-- A type that holds for every value of a variable. -/
  | poly (id : Int) (body : Ty)
deriving Inhabited

namespace Ty

/-- The data type whose variants classify values. -/
def metaName : String := "Type"

/-- A variant of the type of types. -/
def variant (constructor : String) (args : List Ty) : Ty := .data metaName constructor args

/-- An instance of a declared data type. -/
def instanceOf (name : String) (args : List Ty) : Ty := .data name name args

def scalar : Ty := variant "Scalar" []

def kindName : Ty → String
  | .blank => ""
  | .prim _ => "Prim"
  | .nat _ => "NatValue"
  | .tag _ => "StringValue"
  | .var _ => "Var"
  | .data _ _ _ => "Data"
  | .fn _ _ => "Function"
  | .poly _ _ => "ForAll"

def isMeta : Ty → Bool
  | .data name _ _ => name = metaName
  | _ => false

def isScalar : Ty → Bool
  | .data name constructor _ => name = metaName && constructor = "Scalar"
  | _ => false

/-- What a parameter of this type stands for. -/
def paramKind : Ty → ParamKind
  | .prim .nat => .dimension
  | .prim .string => .string
  | _ => .type

/-- The function type from some parameters to a result. -/
def curry (params : List Ty) (result : Ty) : Ty := params.foldr .fn result

/-- The parameters of a function type and its result. -/
def uncurry : Ty → List Ty × Ty
  | .fn domain codomain => (domain :: (uncurry codomain).1, (uncurry codomain).2)
  | t => ([], t)

/-- Binds variables over a type, the first outermost. -/
def quantify (ids : List Int) (t : Ty) : Ty := ids.foldr .poly t

/-- The variables that a type binds in front of its body, and the body. -/
def unquantify : Ty → List Int × Ty
  | .poly id body => (id :: (unquantify body).1, (unquantify body).2)
  | t => ([], t)

mutual

/-- Whether two types are identical, variables compared by number. Where there is no type there is
nothing to be identical. -/
def same : Ty → Ty → Bool
  | .prim a, .prim b => a = b
  | .nat a, .nat b => a = b
  | .tag a, .tag b => a = b
  | .var a, .var b => a = b
  | .data n c as, .data n' c' bs => n = n' && c = c' && sameList as bs
  | .fn a b, .fn a' b' => same a a' && same b b'
  | .poly id a, .poly id' a' => id = id' && same a a'
  | _, _ => false

def sameList : List Ty → List Ty → Bool
  | [], [] => true
  | a :: as, b :: bs => same a b && sameList as bs
  | _, _ => false

end

mutual

/-- Whether a variable occurs free. -/
def occurs (id : Int) : Ty → Bool
  | .blank | .prim _ | .nat _ | .tag _ => false
  | .var id' => id' = id
  | .data _ _ args => occursList id args
  | .fn a b => a.occurs id || b.occurs id
  | .poly id' body => id' ≠ id && body.occurs id

def occursList (id : Int) : List Ty → Bool
  | [] => false
  | t :: ts => t.occurs id || occursList id ts

end

mutual

/-- The free occurrences of variables, from left to right. -/
def freeOccurrences : Ty → List Int
  | .blank | .prim _ | .nat _ | .tag _ => []
  | .var id => [id]
  | .data _ _ args => freeOccurrencesList args
  | .fn a b => a.freeOccurrences ++ b.freeOccurrences
  | .poly id body => body.freeOccurrences.filter (· ≠ id)

def freeOccurrencesList : List Ty → List Int
  | [] => []
  | t :: ts => t.freeOccurrences ++ freeOccurrencesList ts

end

/-- The free variables, in the order of their first occurrence. -/
def freeVars (t : Ty) : List Int := t.freeOccurrences.eraseDups

mutual

/-- Whether a type holds no variables, bound ones included. -/
def isGround : Ty → Bool
  | .blank | .prim _ | .nat _ | .tag _ => true
  | .var _ | .poly _ _ => false
  | .data _ _ args => isGroundList args
  | .fn a b => a.isGround && b.isGround

def isGroundList : List Ty → Bool
  | [] => true
  | t :: ts => t.isGround && isGroundList ts

end

mutual

def size : Ty → Nat
  | .blank | .prim _ | .nat _ | .tag _ | .var _ => 1
  | .data _ _ args => sizeList args + 1
  | .fn a b => a.size + b.size + 1
  | .poly _ body => body.size + 1

def sizeList : List Ty → Nat
  | [] => 0
  | t :: ts => t.size + sizeList ts + 1

end

mutual

theorem occurs_iff_mem (id : Int) (t : Ty) : t.occurs id = true ↔ id ∈ t.freeOccurrences := by
  cases t with
  | blank | prim | nat | tag => simp [occurs, freeOccurrences]
  | var id' => simp [occurs, freeOccurrences, eq_comm]
  | data name constructor args => simp [occurs, freeOccurrences, occursList_iff_mem id args]
  | fn a b => simp [occurs, freeOccurrences, occurs_iff_mem id a, occurs_iff_mem id b]
  | poly id' body =>
    simp only [occurs, freeOccurrences, Bool.and_eq_true, decide_eq_true_eq, List.mem_filter,
      occurs_iff_mem id body, ne_eq]
    rw [and_comm, eq_comm]

theorem occursList_iff_mem (id : Int) (ts : List Ty) :
    occursList id ts = true ↔ id ∈ freeOccurrencesList ts := by
  cases ts with
  | nil => simp [occursList, freeOccurrencesList]
  | cons t ts =>
    simp [occursList, freeOccurrencesList, occurs_iff_mem id t, occursList_iff_mem id ts]

end

end Ty

end Formulary
