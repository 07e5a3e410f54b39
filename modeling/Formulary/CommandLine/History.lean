import Formulary.Text.Lines

namespace Formulary.CommandLine

abbrev History := List String

namespace History

/-- The number of inputs that are kept. -/
def limit : Nat := 1000

/-- Forgets the oldest inputs above the limit. -/
def trim (h : History) : History := h.drop (h.length - limit)

/-- Adds an input, unless it repeats the one before. -/
def add (h : History) (input : String) : History :=
  if h.getLast? = some input then h else trim (h ++ [input])

/-- The input on a line, if the line is whole and is a text. -/
def input? (line : Text.Line) : Option String :=
  if line.isPiece then none else (Text.decodeUtf8? line.bytes).map String.ofList

/-- The inputs up to the first line that cannot be one. -/
def takeInputs : List Text.Line → History
  | [] => []
  | line :: rest =>
    match input? line with
    | some input => input :: takeInputs rest
    | none => []

def parse (file : String) : History := trim (takeInputs (Text.lines (Text.encodeUtf8 file)))

def render (h : History) : String := String.join (h.map (· ++ "\n"))

end History

end Formulary.CommandLine
