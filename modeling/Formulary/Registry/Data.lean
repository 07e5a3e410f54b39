import Formulary.Fault
import Formulary.Text.Letter
import Formulary.Text.Suggestion

namespace Formulary

/-- Sorts names. -/
def sortNames (names : List String) : List String := names.mergeSort fun a b => decide (a ≤ b)

/-- The first name that occurs a second time, given the names before. -/
def firstRepeated? (earlier : List String) : List String → Option String
  | [] => none
  | name :: rest => if name ∈ earlier then some name else firstRepeated? (name :: earlier) rest

/-- A name that starts with a lower case letter may stand for a parameter that is not declared. -/
def isParamName (name : String) : Bool := name.toList.head?.any Text.isLowerCase

/-- Data types in the order of their declaration. How they are kept by name, with an index of their
variants, is the business of `DataStore`. -/
structure DataTypes where
  types : List DataType

namespace DataTypes

def empty : DataTypes := ⟨[]⟩

def find? (r : DataTypes) (name : String) : Option DataType := r.types.find? (·.name = name)

/-- A variant and the data type that declares it. -/
def variant? (r : DataTypes) (name : String) : Option (DataType × Variant) :=
  r.types.findSome? fun d => (d.variants.find? (·.name = name)).map (d, ·)

/-- A variant of the type of types. -/
def metaVariant? (r : DataTypes) (name : String) : Option Variant :=
  match r.variant? name with
  | some (d, v) => if d.name = Ty.metaName then some v else none
  | none => none

def typeNames (r : DataTypes) : List String := r.types.map (·.name)

/-- The names of all variants, sorted. -/
def variantNames (r : DataTypes) : List String :=
  sortNames (r.types.flatMap fun d => d.variants.map (·.name))

/-- The names of the variants of a data type, in the order of declaration. -/
def variantsOf (r : DataTypes) (name : String) : List String :=
  match r.find? name with
  | some d => d.variants.map (·.name)
  | none => []

def unknownType (r : DataTypes) (name : String) : Fault :=
  .unknownType name (Text.suggest name (r.typeNames ++ r.variantNames))

/-- Refuses variants that occur twice or belong to another data type. -/
def checkVariants (r : DataTypes) (dataName : String) (earlier : List String) :
    List Variant → Except Fault Unit
  | [] => .ok ()
  | v :: rest =>
    if v.name ∈ earlier then .error (.duplicateVariant v.name dataName)
    else
      match r.variant? v.name with
      | some (owner, _) => .error (.variantExists v.name dataName owner.name)
      | none => checkVariants r dataName (v.name :: earlier) rest

/-- Adds a data type. A declaration that conflicts leaves nothing behind. -/
def register (r : DataTypes) (d : DataType) : Except Fault DataTypes :=
  if d.name = "" then .error .unnamedData
  else if (r.find? d.name).isSome then .error (.dataExists d.name)
  else
    match firstRepeated? [] d.params with
    | some param => .error (.duplicateTypeParam param d.name)
    | none =>
      match r.checkVariants d.name [] d.variants with
      | .error e => .error e
      | .ok () => .ok ⟨r.types ++ [d]⟩

end DataTypes

end Formulary
