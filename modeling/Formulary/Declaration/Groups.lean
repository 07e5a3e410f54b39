import Formulary.Declaration

/-!
Groups of definitions that refer to each other. Definitions are checked group by group, every group
after the groups it refers to, so that a definition is general where a later group uses it and has
one type inside its own group.

A group is a strongly connected component of the references, found by Tarjan's algorithm: one walk
through the references numbers the definitions as it enters them, and keeps on a stack those whose
group is not complete. A definition behind which no lower number is found on the stack is the first
of its group, and the rest of the group lies above it.
-/

namespace Formulary.Definition

/-- The index that a name refers to: the last definition of that name. -/
def indexOf? (defs : List Definition) (name : String) : Option Nat :=
  (List.range defs.length).reverse.find? fun i => (defs[i]?).any (·.name = name)

/-- The indexes that a definition's body refers to, in the order of first reference. A parameter
hides a definition of the same name. -/
def references (defs : List Definition) (d : Definition) : List Nat :=
  ((d.body.freeNames.filter (· ∉ d.paramNames)).filterMap (indexOf? defs)).eraseDups

/-- The state of the search for components. -/
structure Search where
  /-- How many vertices have been visited. -/
  count : Nat
  /-- The number of a visited vertex, counted from one, and zero for the others. -/
  visited : Nat → Nat
  /-- The least number on the stack that is known to be reachable from a visited vertex. -/
  low : Nat → Nat
  /-- The visited vertices whose component is not complete, in the order of their numbers. -/
  stack : List Nat
  onStack : Nat → Bool
  /-- The complete components. -/
  groups : List (List Nat)

namespace Search

/-- A map that differs in one place. -/
def put {α : Type} (f : Nat → α) (v : Nat) (x : α) : Nat → α := fun w => if w = v then x else f w

def start : Search := ⟨0, fun _ => 0, fun _ => 0, [], fun _ => false, []⟩

/-- Numbers a vertex and puts it on the stack. -/
def enter (s : Search) (v : Nat) : Search :=
  { s with
    count := s.count + 1
    visited := put s.visited v (s.count + 1)
    low := put s.low v (s.count + 1)
    stack := s.stack ++ [v]
    onStack := put s.onStack v true }

def lower (s : Search) (v number : Nat) : Search :=
  { s with low := put s.low v (min (s.low v) number) }

/-- Completes a component, which lies on the stack from its root on. -/
def close (s : Search) (root : Nat) : Search :=
  let i := s.stack.idxOf root
  let group := s.stack.drop i
  { s with
    stack := s.stack.take i
    onStack := fun w => s.onStack w && w ∉ group
    groups := s.groups ++ [group.mergeSort] }

/-- Follows a reference, given the search from a vertex that has not been visited. -/
def follow (visit : Search → Nat → Search) (v : Nat) (s : Search) (w : Nat) : Search :=
  if s.visited w = 0 then
    let inner := visit s w
    inner.lower v (inner.low w)
  else if s.onStack w then s.lower v (s.visited w)
  else s

/-- Visits a vertex that has not been visited, and what can be reached from it. The search never goes
deeper than there are vertices. -/
def visit (next : Nat → List Nat) : Nat → Search → Nat → Search
  | 0, s, _ => s
  | depth + 1, s, v =>
    let inner := (next v).foldl (follow (visit next depth) v) (s.enter v)
    if inner.low v = inner.visited v then inner.close v else inner

end Search

/-- The strongly connected components of a graph on `0, …, n - 1`, each in increasing order. A
component follows every component it refers to. -/
def search (n : Nat) (next : Nat → List Nat) : List (List Nat) :=
  let visit (s : Search) (v : Nat) : Search :=
    if s.visited v = 0 then .visit next n s v else s
  ((List.range n).foldl visit .start).groups

/-- The indexes of definitions in groups that refer to each other, in dependency order. -/
def groups (defs : List Definition) : List (List Nat) :=
  let next := (defs.map (references defs)).toArray
  search defs.length fun v => next[v]?.getD []

end Formulary.Definition
