namespace Formulary.Text

/-- One row of the edit distance table. `above` is the rest of the row before, `diagonal` its entry
before those, and `left` the entry just computed. -/
def distanceRow (c : Char) (left diagonal : Nat) : List Char → List Nat → List Nat
  | d :: ds, up :: above =>
    let here := min (min (up + 1) (left + 1)) (diagonal + if c = d then 0 else 1)
    here :: distanceRow c here up ds above
  | _, _ => []

/-- Extends the table by the characters of the first text. A row starts with the number of
characters read. -/
def distanceRows (target : List Char) : Nat → List Nat → List Char → List Nat
  | _, row, [] => row
  | i, row, c :: cs =>
    distanceRows target (i + 1)
      ((i + 1) :: distanceRow c (i + 1) (row.headD 0) target row.tail) cs

/-- The least number of insertions, deletions and replacements that turn one text into the
other. -/
def editDistance (source target : String) : Nat :=
  (distanceRows target.toList 0 (List.range (target.toList.length + 1)) source.toList).getLastD 0

/-- The candidate closest to a name, or the empty name if none is close enough. Of candidates at the
same distance the smallest wins. -/
def suggest (name : String) (candidates : List String) : String :=
  (candidates.foldl step ("", name.toList.length / 2 + 1)).1
where
  step : String × Nat → String → String × Nat
    | (best, bound), candidate =>
      if candidate = name then (best, bound)
      else
        let distance := editDistance name candidate
        if distance < bound ∨ (distance = bound ∧ best ≠ "" ∧ candidate < best) then
          (candidate, distance)
        else (best, bound)

end Formulary.Text
