namespace Formulary.Text

def leadBase : Nat := 0x1100
def vowelBase : Nat := 0x1161
def trailBase : Nat := 0x11a7
def syllableBase : Nat := 0xac00
def leadCount : Nat := 19
def vowelCount : Nat := 21
def trailCount : Nat := 28
def syllableCount : Nat := leadCount * vowelCount * trailCount

def isSyllable (x : Nat) : Bool := syllableBase ≤ x && x < syllableBase + syllableCount

/-- A syllable is a lead, a vowel and perhaps a trail. -/
def syllableParts (x : Nat) : List Nat :=
  let i := x - syllableBase
  let lead := leadBase + i / (vowelCount * trailCount)
  let vowel := vowelBase + i % (vowelCount * trailCount) / trailCount
  if i % trailCount == 0 then [lead, vowel] else [lead, vowel, trailBase + i % trailCount]

/-- The second part of a syllable. -/
def isVowel (x : Nat) : Bool := vowelBase ≤ x && x < vowelBase + vowelCount

/-- The third part of a syllable. -/
def isTrail (x : Nat) : Bool := trailBase < x && x < trailBase + trailCount

/-- The block of the parts of syllables, modern and old. -/
def isSyllablePart (x : Nat) : Bool := 0x1100 ≤ x && x < 0x1200

/-- Puts a lead and a vowel together, or a syllable without a trail and a trail. -/
def joinSyllable? (x y : Nat) : Option Nat :=
  if leadBase ≤ x && x < leadBase + leadCount && isVowel y then
    some (syllableBase + ((x - leadBase) * vowelCount + (y - vowelBase)) * trailCount)
  else if isSyllable x && (x - syllableBase) % trailCount == 0 && isTrail y then
    some (x + (y - trailBase))
  else
    none

end Formulary.Text
