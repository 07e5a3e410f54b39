import Formulary.ParseError
import Formulary.Text.Blank
import Formulary.Text.Canonical
import Formulary.Text.Letter
import Formulary.Text.NameMark

/-!
Splitting a text into tokens. The text is first brought to its canonical composed form, so that
spellings of a name that look the same are the same name. Blanks and comments separate tokens and
are dropped; every other character belongs to exactly one token.
-/

namespace Formulary.Token

open Formulary.Text

/-- Where a scan over blanks and comments stands. A block comment remembers where it started. -/
inductive TriviaMode where
  | between
  | lineComment
  | blockComment (start : Position)

/-- Skips blanks and comments. The result is the rest of the text and its position. -/
def skipTrivia : TriviaMode → Position → List Char →
    Except ParseError (Position × List Char)
  | .between, p, [] => .ok (p, [])
  | .between, p, '/' :: '/' :: cs => skipTrivia .lineComment ((p.next '/').next '/') cs
  | .between, p, '/' :: '*' :: cs => skipTrivia (.blockComment p) ((p.next '/').next '*') cs
  | .between, p, c :: cs =>
    if isBlank c then skipTrivia .between (p.next c) cs else .ok (p, c :: cs)
  | .lineComment, p, [] => .ok (p, [])
  | .lineComment, p, c :: cs =>
    skipTrivia (if c = '\n' then .between else .lineComment) (p.next c) cs
  | .blockComment start, _, [] => .error ⟨start, .unterminatedComment⟩
  | .blockComment _, p, '*' :: '/' :: cs => skipTrivia .between ((p.next '*').next '/') cs
  | .blockComment start, p, c :: cs => skipTrivia (.blockComment start) (p.next c) cs

theorem skipTrivia_length_le {mode : TriviaMode} {p q : Position} {cs rest : List Char}
    (h : skipTrivia mode p cs = .ok (q, rest)) : rest.length ≤ cs.length := by
  fun_induction skipTrivia mode p cs <;> simp_all <;> grind

/-- The digits of a number; letters outside the ten of these never start one. -/
def isDigit (c : Char) : Bool := '0' ≤ c && c ≤ '9'

def isNameStart (c : Char) : Bool := c == '_' || isLetter c

def isNamePart (c : Char) : Bool :=
  c == '_' || c == '\'' || isLetter c || isDecimalDigit c || isNonspacingMark c

/-- The text of a string after its opening quote, up to and with the closing one, and what follows.
A quote behind a backslash does not close, and a string does not reach over a line. -/
def closeString : List Char → Option (List Char × List Char)
  | [] => none
  | '\n' :: _ => none
  | '"' :: rest => some (['"'], rest)
  | '\\' :: c :: rest => (closeString rest).map fun (text, rest) => ('\\' :: c :: text, rest)
  | c :: rest => (closeString rest).map fun (text, rest) => (c :: text, rest)

/-- The longest number at the start of a text that starts with a digit: digits, and digits after a
point if there are any. -/
def spanNumber (cs : List Char) : List Char × List Char :=
  let whole := cs.takeWhile isDigit
  match cs.dropWhile isDigit with
  | '.' :: d :: rest =>
    if isDigit d then
      (whole ++ '.' :: (d :: rest).takeWhile isDigit, (d :: rest).dropWhile isDigit)
    else (whole, '.' :: d :: rest)
  | rest => (whole, rest)

/-- The kind of the tokens that are one character long. -/
def symbolKind? (c : Char) : Option Kind :=
  match c with
  | '(' => some .leftParen
  | ')' => some .rightParen
  | '\x7b' => some .leftBrace
  | '\x7d' => some .rightBrace
  | ',' => some .comma
  | ':' => some .colon
  | ';' => some .semicolon
  | '.' => some .period
  | '|' => some .bar
  | '=' => some .equals
  | '→' => some .arrow
  | '⇒' => some .fatArrow
  | '+' => some .plus
  | '-' => some .minus
  | '*' | '×' => some .times
  | '/' | '÷' => some .divide
  | '^' => some .power
  | '<' => some .less
  | '>' => some .greater
  | '∀' => some .forallWord
  | _ => none

/-- The kind, the text and the rest of the token that starts with `c`. -/
def scanLexeme (c : Char) (cs : List Char) :
    Except ParseError.Cause (Kind × List Char × List Char) :=
  match c, cs with
  | '-', '>' :: rest => .ok (.arrow, ['-', '>'], rest)
  | '=', '>' :: rest => .ok (.fatArrow, ['=', '>'], rest)
  | '=', '=' :: rest => .ok (.doubleEquals, ['=', '='], rest)
  | '"', _ =>
    match closeString cs with
    | none => .error .unterminatedString
    | some (text, rest) =>
      if (unquote? ('"' :: text)).isSome then .ok (.string, '"' :: text, rest)
      else .error (.invalidString (String.ofList ('"' :: text)))
  | _, _ =>
    match symbolKind? c with
    | some kind => .ok (kind, [c], cs)
    | none =>
      if isDigit c then
        let (text, rest) := spanNumber (c :: cs)
        .ok (.number, text, rest)
      else if isNameStart c then
        let text := c :: cs.takeWhile isNamePart
        .ok (wordKind (String.ofList text), text, cs.dropWhile isNamePart)
      else .error (.unexpectedCharacter c)

theorem closeString_append {cs text rest : List Char} (h : closeString cs = some (text, rest)) :
    text ++ rest = cs := by
  fun_induction closeString cs generalizing text with
  | case1 | case2 => simp at h
  | case3 rest' =>
    simp only [Option.some.injEq, Prod.mk.injEq] at h
    obtain ⟨rfl, rfl⟩ := h
    rfl
  | case4 c rest' ih =>
    obtain ⟨⟨text', rest''⟩, h', heq⟩ := Option.map_eq_some_iff.1 h
    simp only [Prod.mk.injEq] at heq
    obtain ⟨rfl, rfl⟩ := heq
    simp [ih h']
  | case5 c rest' _ _ _ ih =>
    obtain ⟨⟨text', rest''⟩, h', heq⟩ := Option.map_eq_some_iff.1 h
    simp only [Prod.mk.injEq] at heq
    obtain ⟨rfl, rfl⟩ := heq
    simp [ih h']

theorem spanNumber_append (cs : List Char) : (spanNumber cs).1 ++ (spanNumber cs).2 = cs := by
  have whole := List.takeWhile_append_dropWhile (p := isDigit) (l := cs)
  unfold spanNumber
  split
  · rename_i d rest hrest
    split
    · rw [List.append_assoc, List.cons_append, List.takeWhile_append_dropWhile, ← hrest, whole]
    · rw [← hrest, whole]
  · exact whole

theorem scanLexeme_append {c : Char} {cs text rest : List Char} {kind : Kind}
    (h : scanLexeme c cs = .ok (kind, text, rest)) : text ++ rest = c :: cs := by
  unfold scanLexeme at h
  split at h
  · cases h
    rfl
  · cases h
    rfl
  · cases h
    rfl
  · split at h
    · simp at h
    · rename_i text' rest' hclose
      split at h
      · simp only [Except.ok.injEq, Prod.mk.injEq] at h
        obtain ⟨-, rfl, rfl⟩ := h
        simp [closeString_append hclose]
      · simp at h
  · split at h
    · cases h
      rfl
    · split at h
      · simp only [Except.ok.injEq, Prod.mk.injEq] at h
        obtain ⟨-, rfl, rfl⟩ := h
        exact spanNumber_append _
      · split at h
        · simp only [Except.ok.injEq, Prod.mk.injEq] at h
          obtain ⟨-, rfl, rfl⟩ := h
          simp
        · simp at h

theorem spanNumber_fst_ne_nil {c : Char} (cs : List Char) (h : isDigit c = true) :
    (spanNumber (c :: cs)).1 ≠ [] := by
  unfold spanNumber
  split
  · split <;> simp [h]
  · simp [h]

theorem scanLexeme_length_lt {c : Char} {cs text rest : List Char} {kind : Kind}
    (h : scanLexeme c cs = .ok (kind, text, rest)) : rest.length < (c :: cs).length := by
  have hne : text ≠ [] := by
    unfold scanLexeme at h
    split at h
    · cases h
      simp
    · cases h
      simp
    · cases h
      simp
    · split at h
      · simp at h
      · split at h
        · simp only [Except.ok.injEq, Prod.mk.injEq] at h
          obtain ⟨-, rfl, -⟩ := h
          simp
        · simp at h
    · split at h
      · cases h
        simp
      · split at h
        · rename_i hd
          simp only [Except.ok.injEq, Prod.mk.injEq] at h
          obtain ⟨-, rfl, -⟩ := h
          exact spanNumber_fst_ne_nil cs hd
        · split at h
          · simp only [Except.ok.injEq, Prod.mk.injEq] at h
            obtain ⟨-, rfl, -⟩ := h
            simp
          · simp at h
  have hlen := congrArg List.length (scanLexeme_append h)
  have hpos := List.length_pos_iff.2 hne
  simp only [List.length_append] at hlen
  omega

/-- The tokens of a text that starts at a position, the end of input last. -/
def tokensFrom (p : Position) (cs : List Char) : Except ParseError (List Token) :=
  match _ : skipTrivia .between p cs with
  | .error e => .error e
  | .ok (q, []) => .ok [⟨.endOfInput, "", q⟩]
  | .ok (q, c :: rest) =>
    match _ : scanLexeme c rest with
    | .error cause => .error ⟨q, cause⟩
    | .ok (kind, text, rest') =>
      (tokensFrom (q.after text) rest').map (⟨kind, String.ofList text, q⟩ :: ·)
termination_by cs.length
decreasing_by
  have := skipTrivia_length_le ‹skipTrivia .between p cs = _›
  have := scanLexeme_length_lt ‹scanLexeme c rest = _›
  omega

end Formulary.Token

namespace Formulary

/-- Splits a text into tokens, the end of input last. -/
def tokenize (source : String) : Except ParseError (List Token) :=
  Token.tokensFrom .start (Text.canonical source.toList)

end Formulary
