import Formulary.Text.CombiningClass
import Formulary.Text.Decomposition
import Formulary.Text.Hangul
import Formulary.Text.HiddenMarks

/-!
Canonical composition of text: characters are taken apart, marks are put into canonical order, and
what can be joined is joined again. Two spellings that a reader cannot tell apart, such as a letter
with an accent and the letter followed by the accent, become the same text.

This goes segment by segment. A segment is a character with the marks behind it, and with other
characters that may join with one before them. A run of more than thirty marks is broken by a
joiner, so that a segment never grows without bound.
-/

namespace Formulary.Text

def aliasOf? (x : Nat) : List (Nat × List Nat) → Option Nat
  | [] => none
  | (first, targets) :: rest =>
    if x < first then none
    else if x < first + targets.length then targets[x - first]?
    else aliasOf? x rest

/-- The parts of a code point, one step down. -/
def partsOnce? (x : Nat) : Option (List Nat) :=
  if isSyllable x then
    some (syllableParts x)
  else
    match (composites.find? (·.1 == x)).or (brokenComposites.find? (·.1 == x)) with
    | some (_, first, second) => some [first, second]
    | none => (aliasOf? x aliases).map ([·])

/-- The parts of a code point after at most `depth` steps. -/
def partsWithin : Nat → Nat → List Nat
  | 0, x => [x]
  | depth + 1, x =>
    match partsOnce? x with
    | some parts => parts.flatMap (partsWithin depth)
    | none => [x]

/-- Takes a character apart. No table entry needs more than three steps. -/
def decompose (c : Char) : List Char :=
  if c.toNat < 0xc0 then [c] else (partsWithin 3 c.toNat).map Char.ofNat

/-- Whether a character is the second part of a composite. -/
def joinsBackward (c : Char) : Bool :=
  0x300 ≤ c.toNat && (isVowel c.toNat || isTrail c.toNat || composites.any (·.2.2 == c.toNat))

/-- Whether a character belongs to the segment of the one before it. -/
def isAttached (c : Char) : Bool := !isStarter c || joinsBackward c

/-- The number of attached characters at the front of what a character stands for. -/
def leadingMarks (c : Char) : Nat :=
  if isMarkForm c then 1 else ((decompose c).takeWhile isAttached).length

/-- The number of attached characters at the end of what a character stands for. -/
def trailingMarks (c : Char) : Nat :=
  (hiddenMarks? c).getD ((decompose c).reverse.takeWhile isAttached).length

/-- The joiner that breaks a run of marks. -/
def graphemeJoiner : Char := '\u034f'

def longestRun : Nat := 30

/-- The parts of a character, each with whether a segment begins with it. What holds for the first
part depends on the characters before it. -/
def segmentParts (begins : Bool) (c : Char) : List (Bool × Char) :=
  match decompose c with
  | [] => []
  | part :: parts => (begins, part) :: parts.map fun p => (!isAttached p, p)

/-- Takes a text apart, marking where segments begin and putting a joiner where a run of marks would
pass the limit. `run` counts the marks in the segment so far. -/
def takeApart : Nat → List Char → List (Bool × Char)
  | _, [] => []
  | run, c :: rest =>
    let marks := leadingMarks c
    if marks = 0 then
      segmentParts true c ++ takeApart (trailingMarks c) rest
    else if run + marks > longestRun then
      (false, graphemeJoiner) :: segmentParts true c ++ takeApart marks rest
    else
      segmentParts false c ++ takeApart (run + marks) rest

/-- The segments of a text, taken apart. -/
def segments (cs : List Char) : List (List Char) :=
  ((takeApart 0 cs).splitBy fun _ next => !next.1).map (·.map (·.2))

/-- Puts a mark in front of a sorted text, behind the marks of a lower class. -/
def insertMark (c : Char) : List Char → List Char
  | [] => [c]
  | d :: rest =>
    if combiningClass d != 0 && combiningClass d < combiningClass c then d :: insertMark c rest
    else c :: d :: rest

/-- Sorts every run of marks by class; marks of one class keep their order. -/
def sortMarks : List Char → List Char
  | [] => []
  | c :: rest => insertMark c (sortMarks rest)

/-- The composite of two characters. Parts are told apart by the last sixteen bits of their code
points. -/
def joinPair? (first second : Char) : Option Char :=
  (composites.find? fun (_, x, y) =>
    x % 0x10000 == first.toNat % 0x10000 && y % 0x10000 == second.toNat % 0x10000).map
      (Char.ofNat ·.1)

/-- Joins what follows `base` in its segment. `held` has, last one first, the characters after
`base` that did not join. A character that may join looks past marks of a lower class for its base;
if a starter is right before it, that one becomes the base. From the first part of a syllable on,
only syllables are put together. -/
def composeFrom (syllabic : Bool) (base : Char) (held : List Char) : List Char → List Char
  | [] => base :: held.reverse
  | c :: rest =>
    let syllabic := syllabic || isSyllablePart c.toNat
    let join? := fun (base : Char) =>
      if syllabic then (joinSyllable? base.toNat c.toNat).map Char.ofNat else joinPair? base c
    if !syllabic && !joinsBackward c then
      composeFrom syllabic base (c :: held) rest
    else
      match held with
      | [] =>
        match join? base with
        | some joined => composeFrom syllabic joined [] rest
        | none => composeFrom syllabic base [c] rest
      | last :: others =>
        if isStarter last then
          base :: others.reverse ++
            match join? last with
            | some joined => composeFrom syllabic joined [] rest
            | none => composeFrom syllabic last [c] rest
        else
          match if combiningClass last < combiningClass c then join? base else none with
          | some joined => composeFrom syllabic joined held rest
          | none => composeFrom syllabic base (c :: held) rest

def compose : List Char → List Char
  | [] => []
  | c :: rest => composeFrom false c [] rest

/-- The canonical composed form of a text. Below the first mark every character is its own
canonical form. -/
def canonical (cs : List Char) : List Char :=
  if cs.all (·.toNat < 0x300) then cs
  else (segments cs).flatMap fun segment => compose (sortMarks segment)

theorem canonical_of_all_lt {cs : List Char} (h : cs.all (·.toNat < 0x300) = true) :
    canonical cs = cs := by
  simp only [canonical, h, if_true]

end Formulary.Text
