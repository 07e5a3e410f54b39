import Formulary.Pattern
import Formulary.Registry.Resolution

/-!
Which values no pattern matches. The cases of a match are the rows of a matrix that starts with one
column. A query row is useful when some value that it matches is matched by no row; whether it is
useful is decided column by column.
-/

namespace Formulary.Pattern

mutual

/-- The number of constructors in a pattern. -/
def weight : Pattern → Nat
  | .wildcard | .var _ | .const _ => 0
  | .constructor _ args => weightList args + 1

def weightList : List Pattern → Nat
  | [] => 0
  | p :: ps => p.weight + weightList ps

end

/-- Exactly `n` patterns: the given ones, cut off or filled up with wildcards. -/
def fit : Nat → List Pattern → List Pattern
  | 0, _ => []
  | n + 1, [] => .wildcard :: fit n []
  | n + 1, p :: ps => p :: fit n ps

abbrev Row := List Pattern

/-- The row for the fields of a value that is built with a constructor of `n` fields, when the row
may match such a value. -/
def specializeRow (constructor : String) (n : Nat) : Row → Option Row
  | .constructor name args :: rest => if name = constructor then some (fit n args ++ rest) else none
  | .wildcard :: rest | .var _ :: rest => some (fit n [] ++ rest)
  | .const _ :: _ | [] => none

/-- The rest of a row that may match a literal. -/
def specializeConst (literal : String) : Row → Option Row
  | .const value :: rest => if value = literal then some rest else none
  | .wildcard :: rest | .var _ :: rest => some rest
  | .constructor _ _ :: _ | [] => none

/-- The rest of a row that begins with a pattern that matches every value. -/
def defaultRow : Row → Option Row
  | .wildcard :: rest | .var _ :: rest => some rest
  | .const _ :: _ | .constructor _ _ :: _ | [] => none

/-- The matrix for the fields of the values that are built with a constructor of `n` fields. -/
def specialize (constructor : String) (n : Nat) (rows : List Row) : List Row :=
  rows.filterMap (specializeRow constructor n)

/-- The matrix without its first column, for one literal in that column. -/
def specializeToConst (literal : String) (rows : List Row) : List Row :=
  rows.filterMap (specializeConst literal)

/-- The matrix without its first column, for a value that no row names in that column. -/
def defaultRows (rows : List Row) : List Row := rows.filterMap defaultRow

/-- The constructor at the head of a row. -/
def headConstructor? : Row → Option String
  | .constructor name _ :: _ => some name
  | _ => none

/-- Whether every constructor is at the head of some row, and there are constructors. -/
def covers (rows : List Row) (constructors : List String) : Bool :=
  !constructors.isEmpty && constructors.all (· ∈ rows.filterMap headConstructor?)

/-- The number of constructors in a matrix. -/
def weightRows : List Row → Nat
  | [] => 0
  | row :: rows => weightList row + weightRows rows

theorem weightList_append (ps qs : List Pattern) :
    weightList (ps ++ qs) = weightList ps + weightList qs := by
  induction ps with
  | nil => simp [weightList]
  | cons p ps ih => simp only [List.cons_append, weightList, ih, Nat.add_assoc]

theorem weightList_fit_nil (n : Nat) : weightList (fit n []) = 0 := by
  induction n with
  | zero => rfl
  | succ n ih => simp only [fit, weightList, weight, ih]

theorem weightList_fit_le (n : Nat) (ps : List Pattern) : weightList (fit n ps) ≤ weightList ps := by
  induction ps generalizing n with
  | nil => simp [weightList_fit_nil]
  | cons p ps ih =>
    cases n with
    | zero => simp [fit, weightList]
    | succ n => simpa only [fit, weightList] using Nat.add_le_add_left (ih n) _

theorem weightRows_filterMap_le {step : Row → Option Row}
    (h : ∀ row row', step row = some row' → weightList row' ≤ weightList row) (rows : List Row) :
    weightRows (rows.filterMap step) ≤ weightRows rows := by
  induction rows with
  | nil => simp
  | cons row rows ih =>
    cases hstep : step row with
    | none =>
      rw [List.filterMap_cons_none hstep]
      simp only [weightRows] at ih ⊢
      omega
    | some row' =>
      have := h row row' hstep
      rw [List.filterMap_cons_some hstep]
      simp only [weightRows] at ih ⊢
      omega

theorem weightList_specializeRow_le {constructor : String} {n : Nat} (row row' : Row)
    (h : specializeRow constructor n row = some row') : weightList row' ≤ weightList row := by
  match row with
  | .constructor name args :: rest =>
    simp only [specializeRow] at h
    split at h
    · cases h
      have := weightList_fit_le n args
      simp only [weightList_append, weightList, weight]
      omega
    · cases h
  | .wildcard :: rest | .var _ :: rest =>
    cases h
    simp [weightList_append, weightList_fit_nil, weightList]
  | .const _ :: _ | [] => cases h

theorem weightList_specializeConst_le {literal : String} (row row' : Row)
    (h : specializeConst literal row = some row') : weightList row' ≤ weightList row := by
  match row with
  | .const value :: rest =>
    simp only [specializeConst] at h
    split at h
    · cases h
      simp [weightList]
    · cases h
  | .wildcard :: rest | .var _ :: rest =>
    cases h
    simp [weightList]
  | .constructor _ _ :: _ | [] => cases h

theorem weightList_defaultRow_le (row row' : Row) (h : defaultRow row = some row') :
    weightList row' ≤ weightList row := by
  match row with
  | .wildcard :: rest | .var _ :: rest =>
    cases h
    simp [weightList]
  | .const _ :: _ | .constructor _ _ :: _ | [] => cases h

theorem weightList_specializeRow_lt {constructor : String} {n : Nat} {row row' : Row}
    (hhead : (headConstructor? row).isSome) (h : specializeRow constructor n row = some row') :
    weightList row' < weightList row := by
  match row with
  | .constructor name args :: rest =>
    simp only [specializeRow] at h
    split at h
    · cases h
      have := weightList_fit_le n args
      simp only [weightList_append, weightList, weight]
      omega
    · cases h
  | .wildcard :: _ | .var _ :: _ | .const _ :: _ | [] => cases hhead

theorem weightList_pos {row : Row} (hhead : (headConstructor? row).isSome) : 0 < weightList row := by
  match row with
  | .constructor name args :: rest =>
    simp only [weightList, weight]
    omega
  | .wildcard :: _ | .var _ :: _ | .const _ :: _ | [] => cases hhead

/-- Specializing a matrix with a constructor in its first column takes a constructor away. -/
theorem weightRows_specialize_lt {constructor : String} {n : Nat} {rows : List Row}
    (h : ∃ row ∈ rows, (headConstructor? row).isSome) :
    weightRows (specialize constructor n rows) < weightRows rows := by
  unfold specialize
  induction rows with
  | nil =>
    obtain ⟨row, hmem, _⟩ := h
    cases hmem
  | cons row rows ih =>
    have hle := weightRows_filterMap_le (@weightList_specializeRow_le constructor n) rows
    by_cases hhead : (headConstructor? row).isSome
    · cases hstep : specializeRow constructor n row with
      | none =>
        have := weightList_pos hhead
        rw [List.filterMap_cons_none hstep]
        simp only [weightRows] at hle ⊢
        omega
      | some row' =>
        have := weightList_specializeRow_lt hhead hstep
        rw [List.filterMap_cons_some hstep]
        simp only [weightRows] at hle ⊢
        omega
    · have hrest : ∃ row ∈ rows, (headConstructor? row).isSome := by
        obtain ⟨row', hmem, hsome⟩ := h
        rcases List.mem_cons.1 hmem with rfl | hmem
        · exact absurd hsome hhead
        · exact ⟨row', hmem, hsome⟩
      have hlt := ih hrest
      cases hstep : specializeRow constructor n row with
      | none =>
        rw [List.filterMap_cons_none hstep]
        simp only [weightRows] at hlt ⊢
        omega
      | some row' =>
        have := weightList_specializeRow_le _ _ hstep
        rw [List.filterMap_cons_some hstep]
        simp only [weightRows] at hlt ⊢
        omega

theorem exists_head_of_covers {rows : List Row} {constructors : List String}
    (h : covers rows constructors = true) : ∃ row ∈ rows, (headConstructor? row).isSome := by
  cases constructors with
  | nil => simp [covers] at h
  | cons name rest =>
    simp only [covers, List.all_cons, Bool.and_eq_true, decide_eq_true_eq, List.mem_filterMap] at h
    obtain ⟨row, hmem, hhead⟩ := h.2.1
    exact ⟨row, hmem, by simp [hhead]⟩

/-- A query: the patterns of a row, each with the type of the values in its column. -/
abbrev Query := List (Pattern × Ty)

def weightQuery (q : Query) : Nat := weightList (q.map (·.1))

/-- The columns for the fields of a constructor. -/
def columns (args : List Pattern) (fields : List Ty) : Query := (fit fields.length args).zip fields

theorem length_fit (n : Nat) (ps : List Pattern) : (fit n ps).length = n := by
  induction n generalizing ps with
  | zero => rfl
  | succ n ih => cases ps <;> simp [fit, ih]

theorem weightQuery_columns_append (args : List Pattern) (fields : List Ty) (rest : Query) :
    weightQuery (columns args fields ++ rest) =
      weightList (fit fields.length args) + weightQuery rest := by
  simp [weightQuery, columns, weightList_append, List.map_fst_zip, length_fit]

theorem query_lt_cons {rows rows' : List Row} (h : weightRows rows' ≤ weightRows rows)
    (column : Pattern × Ty) (rest : Query) :
    Prod.Lex (· < ·) (· < ·) (weightRows rows' + weightQuery rest, rest.length)
      (weightRows rows + weightQuery (column :: rest), (column :: rest).length) := by
  have hquery : weightQuery (column :: rest) = column.1.weight + weightQuery rest := rfl
  rcases Nat.lt_or_ge (weightRows rows' + weightQuery rest)
      (weightRows rows + weightQuery (column :: rest)) with hlt | hge
  · exact Prod.Lex.left _ _ hlt
  · have heq : weightRows rows' + weightQuery rest =
        weightRows rows + weightQuery (column :: rest) := by omega
    rw [heq]
    exact Prod.Lex.right _ (by simp)

/-- The constructors that build the values of a type. There are none when they are not known. -/
def constructorsOf (r : DataTypes) : Ty → List String
  | .data name variant _ => if name = Ty.metaName then [variant] else r.variantsOf name
  | _ => []

/-- The types of the fields of a constructor in a value of a type. -/
def fieldTypes (r : DataTypes) (constructor : String) (t : Ty) : StateM Supply (List Ty) := do
  match ← (r.instantiate constructor).run with
  | .error _ => return []
  | .ok v =>
    let fields := v.fields.map (·.type)
    match Ty.unify t v.result with
    | .ok s => return fields.map s.apply
    | .error _ => return fields

/-- Whether some value that the query matches is matched by no row. -/
def useful (r : DataTypes) (rows : List Row) : Query → StateM Supply Bool
  | [] => return rows.isEmpty
  | (.constructor name args, t) :: rest => do
    let fields ← fieldTypes r name t
    useful r (specialize name fields.length rows) (columns args fields ++ rest)
  | (.const literal, _) :: rest => useful r (specializeToConst literal rows) rest
  | (.wildcard, t) :: rest | (.var _, t) :: rest =>
    if _ : covers rows (constructorsOf r t) then
      (constructorsOf r t).anyM fun name => do
        let fields ← fieldTypes r name t
        useful r (specialize name fields.length rows) (columns [] fields ++ rest)
    else useful r (defaultRows rows) rest
termination_by q => (weightRows rows + weightQuery q, q.length)
decreasing_by
  · have hrows := weightRows_filterMap_le (@weightList_specializeRow_le name fields.length) rows
    have hquery := weightList_fit_le fields.length args
    apply Prod.Lex.left
    rw [weightQuery_columns_append]
    simp only [specialize, weightQuery, List.map_cons, weightList, weight]
    omega
  · exact query_lt_cons (weightRows_filterMap_le weightList_specializeConst_le rows) _ _
  · have hrows := @weightRows_specialize_lt name fields.length rows (exists_head_of_covers ‹_›)
    apply Prod.Lex.left
    simp only [weightQuery_columns_append, weightList_fit_nil]
    simp only [weightQuery, List.map_cons, weightList]
    omega
  · exact query_lt_cons (weightRows_filterMap_le weightList_defaultRow_le rows) _ _
  · have hrows := @weightRows_specialize_lt name fields.length rows (exists_head_of_covers ‹_›)
    apply Prod.Lex.left
    simp only [weightQuery_columns_append, weightList_fit_nil]
    simp only [weightQuery, List.map_cons, weightList]
    omega
  · exact query_lt_cons (weightRows_filterMap_le weightList_defaultRow_le rows) _ _

/-- The constructors of the values of a type that some pattern is missing for, in the order of
declaration. A type whose constructors are not known lacks a pattern for every value. -/
def missing (r : DataTypes) (ps : List Pattern) (t : Ty) : StateM Supply (List String) := do
  let rows := ps.map fun p => [p]
  match constructorsOf r t with
  | [] => return if ← useful r rows [(.wildcard, t)] then ["_"] else []
  | constructors =>
    constructors.filterM fun name =>
      let arity := match r.variant? name with
        | some (_, v) => v.fields.length
        | none => 0
      useful r rows [(.constructor name (fit arity []), t)]

end Formulary.Pattern
