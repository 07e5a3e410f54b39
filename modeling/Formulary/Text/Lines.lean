import Formulary.Text.Utf8

namespace Formulary.Text

/-- A line, or a piece of one. -/
structure Line where
  bytes : List UInt8
  /-- Whether more of the same line follows. -/
  isPiece : Bool

/-- The number of bytes in which a line has to end, its line feed included. -/
def lineLimit : Nat := 4096

def lineFeed : UInt8 := 10

def carriageReturn : UInt8 := 13

/-- A line without the carriage return at its end. -/
def dropReturn (bytes : List UInt8) : List UInt8 :=
  if bytes.getLast? = some carriageReturn then bytes.dropLast else bytes

/-- The first line of a byte sequence that is not empty, and the number of bytes it takes. A carriage
return at the end of a piece is left for the next one. -/
def firstLine (bytes : List UInt8) : Line × Nat :=
  let window := bytes.take lineLimit
  let line := window.takeWhile (· ≠ lineFeed)
  if line.length < window.length then (⟨dropReturn line, false⟩, line.length + 1)
  else if window.length < lineLimit then (⟨line, false⟩, line.length)
  else (⟨dropReturn line, true⟩, (dropReturn line).length)

theorem length_dropReturn (bytes : List UInt8) :
    bytes.length ≤ (dropReturn bytes).length + 1 := by
  unfold dropReturn
  split
  · simp only [List.length_dropLast]
    omega
  · omega

theorem firstLine_pos {bytes : List UInt8} (h : bytes ≠ []) : 0 < (firstLine bytes).2 := by
  have hlen : 0 < bytes.length := List.length_pos_iff.2 h
  have hreturn := length_dropReturn ((bytes.take lineLimit).takeWhile (· ≠ lineFeed))
  simp only [firstLine]
  split
  · exact Nat.succ_pos _
  · rename_i hline
    have hwindow : (bytes.take lineLimit).length = min lineLimit bytes.length := List.length_take
    have hlimit : lineLimit = 4096 := rfl
    split <;> grind

/-- The lines of a byte sequence. -/
def lines (bytes : List UInt8) : List Line :=
  if _ : bytes = [] then []
  else (firstLine bytes).1 :: lines (bytes.drop (firstLine bytes).2)
termination_by bytes.length
decreasing_by
  have hne : bytes ≠ [] := ‹_›
  have hpos := firstLine_pos hne
  have hlen : 0 < bytes.length := List.length_pos_iff.2 hne
  simp only [List.length_drop]
  omega

end Formulary.Text
