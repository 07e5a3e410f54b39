import Formulary.Ty

namespace Formulary.Ty

/-- Where a type is printed: on its own, left of an arrow, or behind a quantifier. -/
inductive Place where
  | alone
  | domain
  | quantified

/-- The text of a type that binds no variable in front, at a place. -/
def Place.plain : Place → String → String
  | .quantified, s => ". " ++ s
  | _, s => s

/-- The text of a type with an arrow in front, at a place. -/
def Place.arrow : Place → String → String
  | .alone, s => s
  | .domain, s => "(" ++ s ++ ")"
  | .quantified, s => ". " ++ s

mutual

def renderWith (name : Int → String) (place : Place) : Ty → String
  | .blank => place.plain "<nil>"
  | .prim kind => place.plain kind.name
  | .nat value => place.plain (toString value)
  | .tag value => place.plain value.literal
  | .var id => place.plain (name id)
  | .data n constructor [] => place.plain (if n = metaName then constructor else n)
  | .data n constructor (t :: ts) =>
    place.plain ((if n = metaName then constructor else n) ++ "(" ++
      renderWith name .alone t ++ renderRest name ts ++ ")")
  | .fn a b => place.arrow (renderWith name .domain a ++ " → " ++ renderWith name .alone b)
  | .poly id body =>
    match place with
    | .alone => "∀" ++ name id ++ renderWith name .quantified body
    | .domain => "(∀" ++ name id ++ renderWith name .quantified body ++ ")"
    | .quantified => " " ++ name id ++ renderWith name .quantified body

/-- The arguments after the first, each behind a comma. -/
def renderRest (name : Int → String) : List Ty → String
  | [] => ""
  | t :: ts => ", " ++ renderWith name .alone t ++ renderRest name ts

end

mutual

/-- The variables of a type in the order of printing, bound ones included. -/
def mentions : Ty → List Int
  | .blank | .prim _ | .nat _ | .tag _ => []
  | .var id => [id]
  | .data _ _ args => mentionsList args
  | .fn a b => a.mentions ++ b.mentions
  | .poly id body => id :: body.mentions

def mentionsList : List Ty → List Int
  | [] => []
  | t :: ts => t.mentions ++ mentionsList ts

end

/-- The name of the variable that appears after `n` others: a letter, and behind the first twenty-six
how often the letters have been used up. -/
def varName (n : Nat) : String :=
  let letter := "'" ++ String.singleton (Char.ofNat ('a'.toNat + n % 26))
  if n < 26 then letter else letter ++ toString (n / 26)

def rawName (id : Int) : String := "'_" ++ toString id

/-- Prints a type with its variables named by first appearance. -/
def render (t : Ty) : String :=
  let order := t.mentions.eraseDups
  t.renderWith (fun id => varName (order.idxOf id)) .alone

/-- Prints a type with the numbers of its variables. -/
def renderRaw (t : Ty) : String := t.renderWith rawName .alone

/-- Prints dimensions as a tuple, each type in it on its own. -/
def renderDims (dims : List Ty) : String :=
  "(" ++ ",".intercalate (dims.map render) ++ ")"

end Formulary.Ty
