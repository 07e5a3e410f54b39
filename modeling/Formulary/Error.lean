import Formulary.Fault
import Formulary.ParseError

namespace Formulary

inductive Error where
  | parse (e : ParseError)
  | fault (f : Fault)
  /-- An error in a place. -/
  | within (place : String) (e : Error)

namespace Error

/-- The places from the outermost to the innermost, then what is wrong there. -/
def message : Error → String
  | .parse e => e.message
  | .fault f => f.message
  | .within place e => place ++ ": " ++ e.message

/-- What is wrong, without the places. -/
def cause : Error → ParseError ⊕ Fault
  | .parse e => .inl e
  | .fault f => .inr f
  | .within _ e => e.cause

/-- Whether more text could have mended the error. -/
def isIncomplete (e : Error) : Bool :=
  match e.cause with
  | .inl p => p.isIncomplete
  | .inr _ => false

end Error

/-- Steps that keep what they did before they fail. -/
abbrev Attempt (σ ε α : Type) := ExceptT ε (StateM σ) α

namespace Attempt

/-- Tells the errors of some steps where they happened. -/
def within {σ α : Type} (place : String) (steps : Attempt σ Error α) : Attempt σ Error α :=
  ExceptT.adapt (Error.within place) steps

/-- Lets the faults of some steps be errors. -/
def ofFaults {σ α : Type} (steps : Attempt σ Fault α) : Attempt σ Error α :=
  ExceptT.adapt Error.fault steps

/-- Runs steps on a part of the state. -/
def zoom {σ τ ε α : Type} (get : σ → τ) (set : σ → τ → σ) (steps : Attempt τ ε α) :
    Attempt σ ε α :=
  fun s =>
    let (result, part) := steps.run.run (get s)
    (result, set s part)

end Attempt

end Formulary
