import Formulary.Error
import Formulary.Registry

namespace Formulary

/-- Where a variant is found: the name of its data type, and its place among the variants there. -/
structure VariantEntry where
  typeName : String
  index : Nat

/-- Data types as they are kept: by name, with the order of their names and an index of all variants
beside. Nothing in the record says that the three agree. -/
structure DataStore where
  types : SortedMap String DataType
  order : List String
  variants : SortedMap String VariantEntry

namespace DataStore

def empty : DataStore := ⟨∅, [], ∅⟩

/-- The name of the data type that the index gives for a variant, and what stands in the place that
it gives. -/
def lookupVariant? (s : DataStore) (name : String) : Option (String × Option Variant) :=
  (s.variants.get? name).map fun entry =>
    (entry.typeName, (s.types.get? entry.typeName).bind (·.variants[entry.index]?))

/-- The names in the index, sorted. -/
def variantNames (s : DataStore) : List String := s.variants.keys

/-- The names of the variants of a data type, in the order of declaration. -/
def variantsOf (s : DataStore) (name : String) : List String :=
  match s.types.get? name with
  | some d => d.variants.map (·.name)
  | none => []

/-- The data types in the order of declaration. -/
def view (s : DataStore) : DataTypes := ⟨s.order.filterMap s.types.get?⟩

/-- Refuses variants that occur twice or are in the index. -/
def checkVariants (dataName : String) (earlier : List String) :
    List Variant → Attempt DataStore Fault Unit
  | [] => return
  | v :: rest => do
    if v.name ∈ earlier then throw (.duplicateVariant v.name dataName)
    if let some entry := (← get).variants.get? v.name then
      throw (.variantExists v.name dataName entry.typeName)
    checkVariants dataName (v.name :: earlier) rest

/-- Puts variants into the index, one after the other, from a place on. -/
def indexVariants (dataName : String) (place : Nat) : List Variant → Attempt DataStore Fault Unit
  | [] => return
  | v :: rest => do
    modify fun s => { s with variants := s.variants.insert v.name ⟨dataName, place⟩ }
    indexVariants dataName (place + 1) rest

/-- Adds a data type: all checks come first, then the three collections change in turn. -/
def register (d : DataType) : Attempt DataStore Fault Unit := do
  if d.name = "" then throw .unnamedData
  if (← get).types.contains d.name then throw (.dataExists d.name)
  if let some param := firstRepeated? [] d.params then throw (.duplicateTypeParam param d.name)
  checkVariants d.name [] d.variants
  modify fun s => { s with types := s.types.insert d.name d }
  modify fun s => { s with order := s.order ++ [d.name] }
  indexVariants d.name 0 d.variants

end DataStore

/-- What has been declared as it is kept: structures by name with the order of their names, the name
of the structure for every operation, and the implementations of every structure. -/
structure Store where
  data : DataStore
  structures : SortedMap String Structure
  order : List String
  operations : SortedMap String String
  implementations : SortedMap String (List RegisteredImplementation)

namespace Store

def empty : Store := ⟨.empty, ∅, [], ∅, ∅⟩

/-- What is kept under the name that the index gives for an operation. -/
def structureFor? (s : Store) (operation : String) : Option (Option Structure) :=
  (s.operations.get? operation).map s.structures.get?

/-- The names of all operations, sorted. -/
def operationNames (s : Store) : List String := s.operations.keys

/-- The implementations of a structure, in the order of declaration. -/
def implementationsOf (s : Store) (name : String) : List RegisteredImplementation :=
  (s.implementations.get? name).getD []

def axiomsOf (s : Store) (name : String) : List Axiom :=
  ((s.structures.get? name).map (·.axioms)).getD []

/-- All that is kept, each kind in the order of declaration, with the implementations of one
structure after those of another. -/
def view (s : Store) : Registry :=
  ⟨s.data.view, s.order.filterMap s.structures.get?, s.order.flatMap s.implementationsOf⟩

/-- Checks something against what is kept. -/
def check {α : Type} (test : Registry → Except Fault α) : Attempt Store Fault α := do
  liftM (test (← get).view)

def registerData (d : DataType) : Attempt Store Fault Unit :=
  Attempt.zoom (·.data) (fun s data => { s with data }) (DataStore.register d)

/-- Checks the operations of a structure one after the other: no name twice, no name in the index,
and every signature means something. -/
def checkOperations (interface : Structure) (earlier : List String) :
    List Operation → Attempt Store Fault Unit
  | [] => return
  | op :: rest => do
    if op.name ∈ earlier then throw (.duplicateOperation op.name interface.name)
    if let some owner := (← get).operations.get? op.name then
      throw (.operationExists op.name interface.name owner)
    check fun r => r.checkNames (interface.params.map (·.name)) op.signature
    checkOperations interface (op.name :: earlier) rest

/-- Puts operations into the index, one after the other. -/
def indexOperations (structureName : String) : List Operation → Attempt Store Fault Unit
  | [] => return
  | op :: rest => do
    modify fun s => { s with operations := s.operations.insert op.name structureName }
    indexOperations structureName rest

/-- Adds a structure: all checks come first, then the collections change in turn. -/
def registerStructure (interface : Structure) : Attempt Store Fault Unit := do
  if (← get).structures.contains interface.name then throw (.structureExists interface.name)
  check fun r => r.checkParams interface.name [] interface.params
  checkOperations interface [] interface.operations
  modify fun s => { s with structures := s.structures.insert interface.name interface }
  modify fun s => { s with order := s.order ++ [interface.name] }
  indexOperations interface.name interface.operations

/-- Adds an implementation to those of its structure. -/
def registerImplementation (i : Implementation) : Attempt Store Fault Unit := do
  let some interface := (← get).structures.get? i.structureName
    | throw (.unknownStructure i.structureName (Text.suggest i.structureName (← get).order))
  if i.args.length ≠ interface.params.length then
    throw (.arity i.structureName interface.params.length i.args.length)
  check fun r => r.checkNamesList [] i.args
  check fun _ => Registry.checkBodies interface [] i.bodies
  if let some op := interface.operations.find? fun op => (i.body? op.name).isNone then
    throw (.missingBody interface.name op.name)
  let template ← check fun r => r.templateOf interface.name i.args
  let earlier := (← get).implementationsOf interface.name
  if let some same := earlier.find? (·.template = template) then
    throw (.implementationExists interface.name (renderTypeArgs i.args) same.args)
  modify fun s => { s with implementations :=
    s.implementations.insert interface.name (earlier ++ [⟨interface, i, template⟩]) }

/-- Adds a declaration, definitions apart. -/
def register : Declaration → Attempt Store Fault Unit
  | .data d => registerData d
  | .interface s => registerStructure s
  | .implementation i => registerImplementation i
  | .definition _ => return

end Store

end Formulary
