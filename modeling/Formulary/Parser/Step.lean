import Formulary.Token.Lexer

/-!
Steps of reading. Reading works on the tokens before the end of input; the position of the end is
kept aside for messages. A step that succeeds tells what it read and what is left, and that what is
left is shorter: this is what makes reading terminate.
-/

namespace Formulary.Parser

/-- A step on `ts` that consumes at least one token. -/
abbrev Step (α : Type) (ts : List Token) : Type :=
  Except ParseError { r : α × List Token // r.2.length < ts.length }

/-- A step on `ts` that may consume nothing. -/
abbrev OptionalStep (α : Type) (ts : List Token) : Type :=
  Except ParseError { r : α × List Token // r.2.length ≤ ts.length }

/-- Fails at the next token, or at the end of input. -/
def failAt {α : Type} (finish : Position) (cause : ParseError.Found → ParseError.Cause) :
    List Token → Except ParseError α
  | [] => .error ⟨finish, cause .endOfInput⟩
  | t :: _ => .error ⟨t.position, cause (.token t)⟩

/-- Reads a token of a kind. -/
def need (finish : Position) (kind : Token.Kind) (context : String) (ts : List Token) :
    Step Token ts :=
  match ts with
  | [] => failAt finish (.expected kind context) []
  | t :: rest =>
    if t.kind = kind then .ok ⟨(t, rest), by simp⟩
    else failAt finish (.expected kind context) (t :: rest)

/-- Drops the next token if it is of a kind. -/
def skip (kind : Token.Kind) (ts : List Token) :
    { r : Bool × List Token // r.2.length ≤ ts.length } :=
  match ts with
  | [] => ⟨(false, []), by simp⟩
  | t :: rest => if t.kind = kind then ⟨(true, rest), by simp⟩ else ⟨(false, t :: rest), by simp⟩

/-- Reads items with commas between them, up to and with a closing token. An item is only read where
at most `n` tokens are left. -/
def commaItems {α : Type} {n : Nat} (finish : Position) (close : Token.Kind) (context : String)
    (item : (ts : List Token) → ts.length ≤ n → Step α ts) (ts : List Token)
    (h : ts.length ≤ n) : Step (List α) ts := do
  let ⟨(x, rest), hx⟩ ← item ts h
  let ⟨(more, rest'), hmore⟩ := skip .comma rest
  if more then
    let ⟨(xs, rest''), hxs⟩ ← commaItems finish close context item rest' (by grind)
    .ok ⟨(x :: xs, rest''), by grind⟩
  else
    let ⟨(_, rest''), hclose⟩ ← need finish close context rest'
    .ok ⟨([x], rest''), by grind⟩
termination_by ts.length
decreasing_by grind

/-- Reads a list of items after its opening token. The list may be empty. -/
def commaList {α : Type} (finish : Position) (close : Token.Kind) (context : String)
    (ts : List Token) (item : (us : List Token) → us.length ≤ ts.length → Step α us) :
    Step (List α) ts :=
  match ts with
  | [] => commaItems finish close context item [] (Nat.le_refl _)
  | t :: rest =>
    if t.kind = close then .ok ⟨([], rest), by simp⟩
    else commaItems finish close context item (t :: rest) (Nat.le_refl _)

end Formulary.Parser
