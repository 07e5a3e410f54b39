/-!
Sets of characters as data. A property of characters changes its value at few places, so a set is
kept as the ascending list of the code points at which membership changes, starting outside. The
classes of characters are those of Unicode 17.
-/

namespace Formulary.Text

structure CodePointSet where
  edges : List Nat

namespace CodePointSet

/-- Membership, starting outside the set and changing sides at every edge that is passed. -/
def inside (x : Nat) : List Nat → Bool
  | [] => false
  | edge :: rest => if x < edge then false else !(inside x rest)

def contains (s : CodePointSet) (c : Char) : Bool := inside c.toNat s.edges

theorem inside_eq_false_of_lt {x edge : Nat} (rest : List Nat) (h : x < edge) :
    inside x (edge :: rest) = false := by
  simp [inside, h]

end CodePointSet

end Formulary.Text
