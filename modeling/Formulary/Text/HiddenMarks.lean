import Formulary.Text.CodePointSet

namespace Formulary.Text

/-- The characters that stand for a mark and are none. -/
def markForms : CodePointSet where
  edges := [
    0x3133, 0x3134, 0x3135, 0x3137, 0x313a, 0x3140, 0x314f, 0x3164, 0xff9e, 0xffa0, 0xffa3, 0xffa4,
    0xffa5, 0xffa7, 0xffaa, 0xffb0, 0xffc2, 0xffc8, 0xffca, 0xffd0, 0xffd2, 0xffd8, 0xffda, 0xffdd]

/-- Characters, from a first to a last one, with the number of marks at the end of what they stand
for. -/
def hiddenMarks : List (Nat × Nat × Nat) := [
    (0xa8, 0xa8, 1), (0xaf, 0xaf, 1), (0xb4, 0xb4, 1), (0xb8, 0xb8, 1), (0x1c4, 0x1c6, 1),
    (0x2d8, 0x2dd, 1), (0x37a, 0x37a, 1), (0x384, 0x384, 1), (0x385, 0x385, 2), (0xf77, 0xf77, 2),
    (0xf79, 0xf79, 2), (0x1fbd, 0x1fbd, 1), (0x1fbf, 0x1fc0, 1), (0x1fc1, 0x1fc1, 2),
    (0x1fcd, 0x1fcf, 2), (0x1fdd, 0x1fdf, 2), (0x1fed, 0x1fee, 2), (0x1ffd, 0x1ffe, 1),
    (0x2017, 0x2017, 1), (0x203e, 0x203e, 1), (0x309b, 0x309c, 1), (0x3133, 0x3133, 1),
    (0x3135, 0x3136, 1), (0x313a, 0x313f, 1), (0x314f, 0x3163, 1), (0x326e, 0x327e, 1),
    (0x3304, 0x3304, 1), (0x3307, 0x3307, 1), (0x3310, 0x3310, 1), (0x331e, 0x331e, 1),
    (0x3321, 0x3321, 1), (0x3332, 0x3332, 1), (0x333b, 0x333b, 1), (0x3340, 0x3340, 1),
    (0x334b, 0x334b, 1), (0x334e, 0x334e, 1), (0xfba4, 0xfba5, 1), (0xfbb0, 0xfbb1, 1),
    (0xfc5b, 0xfc5d, 1), (0xfc5e, 0xfc63, 2), (0xfc90, 0xfc90, 1), (0xfcd9, 0xfcd9, 1),
    (0xfcf2, 0xfcf4, 2), (0xfd3c, 0xfd3d, 1), (0xfe49, 0xfe4c, 1), (0xfe70, 0xfe72, 1),
    (0xfe74, 0xfe74, 1), (0xfe76, 0xfe7f, 1), (0xfe81, 0xfe8c, 1), (0xfef5, 0xfefa, 1),
    (0xff9e, 0xff9f, 1), (0xffa3, 0xffa3, 1), (0xffa5, 0xffa6, 1), (0xffaa, 0xffaf, 1),
    (0xffc2, 0xffc7, 1), (0xffca, 0xffcf, 1), (0xffd2, 0xffd7, 1), (0xffda, 0xffdc, 1),
    (0xffe3, 0xffe3, 1), (0x1f213, 0x1f213, 1)]

def isMarkForm (c : Char) : Bool := markForms.contains c

def hiddenMarks? (c : Char) : Option Nat :=
  (hiddenMarks.find? fun (first, last, _) => first ≤ c.toNat && c.toNat ≤ last).map (·.2.2)

end Formulary.Text
