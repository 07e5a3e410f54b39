import Formulary.Expr

/-!
Simultaneous substitution of expressions for names. A name that a case binds is not replaced in that
case, and a case variable that would catch a name of a substituted expression is renamed first, so
that every name keeps its meaning. Names of applied operations are never replaced.
-/

namespace Formulary.Expr

abbrev Bindings := List (String × Expr)

/-- Leaves out the bindings of some names. -/
def Bindings.without (bindings : Bindings) (names : List String) : Bindings :=
  bindings.filter fun (name, _) => name ∉ names

/-- The names that the bound expressions refer to. -/
def Bindings.freeNames (bindings : Bindings) : List String :=
  bindings.flatMap fun (_, e) => e.freeNames

mutual

/-- Renames free objects. -/
def rename (names : List (String × String)) : Expr → Expr
  | .blank => .blank
  | .const value => .const value
  | .object name => .object ((names.lookup name).getD name)
  | .operation name args => .operation name (renameList names args)
  | .matching scrutinee cases => .matching (scrutinee.rename names) (renameCases names cases)

def renameList (names : List (String × String)) : List Expr → List Expr
  | [] => []
  | e :: es => e.rename names :: renameList names es

def renameCases (names : List (String × String)) : List (Pattern × Expr) → List (Pattern × Expr)
  | [] => []
  | (p, body) :: rest =>
    (p, body.rename (names.filter fun (name, _) => name ∉ p.vars)) :: renameCases names rest

end

mutual

theorem size_rename (names : List (String × String)) (e : Expr) :
    (e.rename names).size = e.size := by
  cases e with
  | blank => rfl
  | const value => rfl
  | object name => rfl
  | operation name args => simp only [rename, size, sizeList_renameList]
  | matching scrutinee cases =>
    simp only [rename, size, size_rename names scrutinee, sizeCases_renameCases]

theorem sizeList_renameList (names : List (String × String)) (es : List Expr) :
    sizeList (renameList names es) = sizeList es := by
  cases es with
  | nil => rfl
  | cons e es => simp only [renameList, sizeList, size_rename names e, sizeList_renameList]

theorem sizeCases_renameCases (names : List (String × String)) (cases : List (Pattern × Expr)) :
    sizeCases (renameCases names cases) = sizeCases cases := by
  match cases with
  | [] => rfl
  | (p, body) :: rest =>
    simp only [renameCases, sizeCases, size_rename _ body, sizeCases_renameCases]

end

/-- The first of `name1`, `name2`, … that is not used. One more candidate than there are used names
is enough. -/
def freshName (name : String) (used : List String) : String :=
  let candidates := (List.range (used.length + 1)).map fun i => name ++ toString (i + 1)
  (candidates.find? fun candidate => candidate ∉ used).getD name

/-- Fresh names for a list of names. A name that is listed twice gets the later of its fresh
names. -/
def freshNames (used : List String) : List String → List (String × String)
  | [] => []
  | name :: rest =>
    let fresh := freshName name used
    let others := freshNames (fresh :: used) rest
    if (others.lookup name).isSome then others else (name, fresh) :: others

/-- Renames the variables of a case that the bindings refer to. -/
def avoidCapture (bindings : Bindings) (p : Pattern) (body : Expr) : Pattern × Expr :=
  let caught := p.vars.filter (· ∈ bindings.freeNames)
  if caught.isEmpty then (p, body)
  else
    let used := body.mentioned ++ bindings.map (·.1) ++ bindings.freeNames ++ p.vars
    let names := freshNames used caught
    (p.rename names, body.rename names)

theorem size_avoidCapture (bindings : Bindings) (p : Pattern) (body : Expr) :
    (avoidCapture bindings p body).2.size = body.size := by
  simp only [avoidCapture]
  split
  · rfl
  · exact size_rename _ body

mutual

def substitute (bindings : Bindings) : Expr → Expr
  | .blank => .blank
  | .const value => .const value
  | .object name => (bindings.lookup name).getD (.object name)
  | .operation name args => .operation name (substituteList bindings args)
  | .matching scrutinee cases =>
    .matching (substitute bindings scrutinee) (substituteCases bindings cases)
termination_by e => e.size
decreasing_by all_goals simp only [size]; omega

def substituteList (bindings : Bindings) : List Expr → List Expr
  | [] => []
  | e :: es => substitute bindings e :: substituteList bindings es
termination_by es => sizeList es
decreasing_by all_goals simp only [sizeList]; omega

def substituteCases (bindings : Bindings) : List (Pattern × Expr) → List (Pattern × Expr)
  | [] => []
  | (p, body) :: rest =>
    let inner := bindings.without p.vars
    let renamed := avoidCapture inner p body
    (renamed.1, substitute inner renamed.2) :: substituteCases bindings rest
termination_by cases => sizeCases cases
decreasing_by
  · simp only [sizeCases, size_avoidCapture]
    omega
  · simp only [sizeCases]
    omega

end

end Formulary.Expr
