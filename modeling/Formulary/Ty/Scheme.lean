import Formulary.Ty.Substitution

/-!
Fresh variables, and types that hold for every value of some variables. Numbers of variables are
handed out in increasing order; they have sixty-four bits, and behind the largest comes the
smallest.
-/

namespace Formulary

/-- The source of fresh variables. -/
structure Supply where
  /-- The number of the first variable. -/
  first : Int
  /-- How many variables have been handed out. -/
  drawn : Nat
  /-- How many of them had been handed out when the count was last set back. -/
  uncounted : Nat

namespace Supply

def startingAt (first : Int) : Supply := ⟨first, 0, 0⟩

/-- The number of the next variable. -/
def next (s : Supply) : Int := (s.first + s.drawn).bmod 0x10000000000000000

/-- How many variables have been handed out since the count was last set back. -/
def count (s : Supply) : Nat := s.drawn - s.uncounted

def resetCount (s : Supply) : Supply := { s with uncounted := s.drawn }

/-- Hands out a variable. -/
def fresh : StateM Supply Int := modifyGet fun s => (s.next, { s with drawn := s.drawn + 1 })

end Supply

namespace Ty

/-- Binds the free variables of a type, except those that are kept free. -/
def generalize (t : Ty) (keep : Int → Bool) : Ty :=
  quantify (t.freeVars.filter fun id => !keep id) t

/-- Puts fresh variables for the variables that a type binds. -/
def instantiate (t : Ty) : StateM Supply Ty := do
  let (ids, body) := t.unquantify
  if ids.isEmpty then return t
  else
    let s ← ids.foldlM (fun (s : Subst) id => do return s.insert id (.var (← Supply.fresh))) ∅
    return s.apply body

end Ty

/-- Fresh variables by name: a name that is used again gets the variable it got first. -/
structure NamedVars where
  supply : Supply
  vars : List (String × Int)

namespace NamedVars

/-- The variable of a name. -/
def varFor (name : String) : StateM NamedVars Int := do
  let s ← get
  match s.vars.lookup name with
  | some id => return id
  | none =>
    let (id, supply) := Supply.fresh.run s.supply
    set ({ supply, vars := (name, id) :: s.vars } : NamedVars)
    return id

end NamedVars

end Formulary
