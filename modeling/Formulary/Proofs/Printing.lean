import Formulary.Proofs.Lexing
import Formulary.Proofs.Parsing

namespace Formulary

open Token Text

def isName (text : String) : Bool := isLexeme .identifier text

/-- Whether a text is a number behind a minus. -/
def isNegative (text : String) : Bool :=
  match text.toList with
  | '-' :: digits => isLexeme .number (String.ofList digits)
  | _ => false

def isLiteral (text : String) : Bool :=
  isLexeme .number text || isLexeme .string text || isNegative text

namespace Pattern

mutual

/-- Whether a pattern is one that can be written down: a variable does not look like a constructor,
and a constructor without arguments does. -/
def isWellFormed : Pattern → Bool
  | .wildcard => true
  | .var name => isName name && !Parser.isConstructorName name
  | .const value => isLiteral value
  | .constructor name [] => isName name && Parser.isConstructorName name
  | .constructor name (p :: ps) => isName name && p.isWellFormed && isWellFormedList ps

def isWellFormedList : List Pattern → Bool
  | [] => true
  | p :: ps => p.isWellFormed && isWellFormedList ps

end

mutual

/-- Reads a constructor without arguments that does not look like one as the variable that is
written the same way. -/
def plain : Pattern → Pattern
  | .wildcard => .wildcard
  | .var name => .var name
  | .const value => .const value
  | .constructor name [] =>
    if Parser.isConstructorName name then .constructor name [] else .var name
  | .constructor name (p :: ps) => .constructor name (p.plain :: plainList ps)

def plainList : List Pattern → List Pattern
  | [] => []
  | p :: ps => p.plain :: plainList ps

end

end Pattern

namespace Expr

mutual

/-- Whether an expression is one that can be written down: names are names, constants are literals,
and an operation has an argument. -/
def isWellFormed : Expr → Bool
  | .blank => false
  | .const value => isLiteral value
  | .object name => isName name
  | .operation _ [] => false
  | .operation name (e :: es) => isName name && e.isWellFormed && isWellFormedList es
  | .matching scrutinee cases => scrutinee.isWellFormed && isWellFormedCases cases

def isWellFormedList : List Expr → Bool
  | [] => true
  | e :: es => e.isWellFormed && isWellFormedList es

def isWellFormedCases : List (Pattern × Expr) → Bool
  | [] => true
  | (p, body) :: rest => p.isWellFormed && body.isWellFormed && isWellFormedCases rest

end

mutual

/-- Reads an operation without arguments as the name that is written the same way, and patterns
likewise. -/
def plain : Expr → Expr
  | .blank => .blank
  | .const value => .const value
  | .object name => .object name
  | .operation name [] => .object name
  | .operation name (e :: es) => .operation name (e.plain :: plainList es)
  | .matching scrutinee cases => .matching scrutinee.plain (plainCases cases)

def plainList : List Expr → List Expr
  | [] => []
  | e :: es => e.plain :: plainList es

def plainCases : List (Pattern × Expr) → List (Pattern × Expr)
  | [] => []
  | (p, body) :: rest => (p.plain, body.plain) :: plainCases rest

end

end Expr

/-- A token without its position. -/
abbrev Word : Type := Kind × String

def literalWords (text : String) : List Word :=
  if isLexeme .number text then [(.number, text)]
  else if isLexeme .string text then [(.string, text)]
  else [(.minus, "-"), (.number, String.ofList text.toList.tail)]

mutual

def Pattern.words : Pattern → List Word
  | .wildcard => [(.underscore, "_")]
  | .var name => [(.identifier, name)]
  | .const value => literalWords value
  | .constructor name [] => [(.identifier, name)]
  | .constructor name (p :: ps) =>
    [(.identifier, name)] ++ [(.leftParen, "(")] ++ p.words ++ Pattern.wordsRest ps ++
      [(.rightParen, ")")]

def Pattern.wordsRest : List Pattern → List Word
  | [] => []
  | p :: ps => [(.comma, ",")] ++ p.words ++ Pattern.wordsRest ps

end

mutual

def Expr.words : Expr → List Word
  | .blank => []
  | .const value => literalWords value
  | .object name => [(.identifier, name)]
  | .operation name [] => [(.identifier, name)]
  | .operation name (e :: es) =>
    [(.identifier, name)] ++ [(.leftParen, "(")] ++ e.words ++ Expr.wordsRest es ++
      [(.rightParen, ")")]
  | .matching scrutinee [] =>
    [(.matchWord, "match")] ++ scrutinee.words ++ [(.leftBrace, "\x7b"), (.rightBrace, "\x7d")]
  | .matching scrutinee ((p, body) :: rest) =>
    [(.matchWord, "match")] ++ scrutinee.words ++ [(.leftBrace, "\x7b")] ++ p.words ++
      [(.fatArrow, "=>")] ++ body.words ++ Expr.wordsCases rest ++ [(.rightBrace, "\x7d")]

def Expr.wordsRest : List Expr → List Word
  | [] => []
  | e :: es => [(.comma, ",")] ++ e.words ++ Expr.wordsRest es

def Expr.wordsCases : List (Pattern × Expr) → List Word
  | [] => []
  | (p, body) :: rest =>
    [(.bar, "|")] ++ p.words ++ [(.fatArrow, "=>")] ++ body.words ++ Expr.wordsCases rest

end

theorem Pattern.wordsRest_eq (ps : List Pattern) :
    Pattern.wordsRest ps = ps.flatMap fun p => (.comma, ",") :: p.words := by
  induction ps with
  | nil => rfl
  | cons p ps ih => rw [Pattern.wordsRest, ih, List.flatMap_cons, List.singleton_append]

theorem Expr.wordsRest_eq (es : List Expr) :
    Expr.wordsRest es = es.flatMap fun e => (.comma, ",") :: e.words := by
  induction es with
  | nil => rfl
  | cons e es ih => rw [Expr.wordsRest, ih, List.flatMap_cons, List.singleton_append]

namespace Token

theorem isApart_append {first second : List Char} (h : isApart first = true)
    (h' : isApart second = true) : isApart (first ++ second) = true := by
  cases first with
  | nil => exact h'
  | cons c cs => exact h

theorem scans_word {tail cs : List Char} {c : Char} (hstart : isNameStart c = true)
    (hpart : ∀ d ∈ cs, isNamePart d = true) (htail : isApart tail = true) :
    Scans tail (c :: cs) [(wordKind (String.ofList (c :: cs)), String.ofList (c :: cs))] := by
  obtain ⟨htake, hdrop⟩ := span_append_of_all tail hpart fun d hd =>
    (not_part_of_isSeparator ((Option.all_eq_true _ _).1 htail d hd)).1
  have hslash : c ≠ '/' := by
    rintro rfl
    exact absurd hstart (by decide)
  refine scans_of_scanLexeme (isBlank_of_isNameStart hstart) hslash ?_
  rw [scanLexeme_of_isNameStart _ hstart, htake, hdrop]

theorem scans_string {tail : List Char} {text : String} {kind : Kind}
    (h : isLexeme kind text = true) (hkind : kind.isText = true) (htail : isApart tail = true) :
    Scans tail text.toList [(kind, text)] := by
  rw [← String.ofList_toList (s := text)] at h
  have hscans := scans_text h hkind htail
  rwa [String.ofList_toList] at hscans

section Symbols

variable {text : String} {kind : Kind} {words : List Word}

theorem scans_symbol (c : Char) (cs : List Char) (htext : text.toList = c :: cs)
    (hstart : isBlank c = false ∧ c ≠ '/')
    (hscan : ∀ tail, scanLexeme c (cs ++ tail) = .ok (kind, c :: cs, tail)) (tail : List Char) :
    Scans tail text.toList [(kind, String.ofList (c :: cs))] := by
  rw [htext]
  exact scans_of_scanLexeme hstart.1 hstart.2 (hscan tail)

theorem scans_before_blank (first : String) (htext : text.toList = first.toList ++ [' '])
    {tail : List Char} (hscans : Scans ([' '] ++ tail) first.toList words) :
    Scans tail text.toList words := by
  rw [htext, ← List.append_nil words]
  exact hscans.append (scans_blank tail)

theorem scans_after_blank (second : String) (htext : text.toList = [' '] ++ second.toList)
    {tail : List Char} (hscans : Scans tail second.toList words) : Scans tail text.toList words := by
  rw [htext, ← List.nil_append words]
  exact (scans_blank _).append hscans

end Symbols

theorem scans_leftParen (tail : List Char) : Scans tail "(".toList [(.leftParen, "(")] :=
  scans_symbol '(' [] (by decide) (by decide) (fun _ => rfl) tail

theorem scans_rightParen (tail : List Char) : Scans tail ")".toList [(.rightParen, ")")] :=
  scans_symbol ')' [] (by decide) (by decide) (fun _ => rfl) tail

theorem scans_comma (tail : List Char) : Scans tail ", ".toList [(.comma, ",")] :=
  scans_before_blank "," (by decide)
    (scans_symbol ',' [] (by decide) (by decide) (fun _ => rfl) _)

theorem scans_leftBrace (tail : List Char) : Scans tail " \x7b ".toList [(.leftBrace, "\x7b")] :=
  scans_before_blank " \x7b" (by decide) <| scans_after_blank "\x7b" (by decide)
    (scans_symbol '\x7b' [] (by decide) (by decide) (fun _ => rfl) _)

theorem scans_rightBrace (tail : List Char) : Scans tail " \x7d".toList [(.rightBrace, "\x7d")] :=
  scans_after_blank "\x7d" (by decide)
    (scans_symbol '\x7d' [] (by decide) (by decide) (fun _ => rfl) _)

theorem scans_braces (tail : List Char) :
    Scans tail " \x7b \x7d".toList [(.leftBrace, "\x7b"), (.rightBrace, "\x7d")] := by
  have hopen : Scans (" \x7d".toList ++ tail) "\x7b".toList [(.leftBrace, "\x7b")] :=
    scans_symbol '\x7b' [] (by decide) (by decide) (fun _ => rfl) _
  exact scans_after_blank ("\x7b" ++ " \x7d") (by decide)
    (String.toList_append ▸ hopen.append (scans_rightBrace tail))

theorem scans_bar (tail : List Char) : Scans tail " | ".toList [(.bar, "|")] :=
  scans_before_blank " |" (by decide) <| scans_after_blank "|" (by decide)
    (scans_symbol '|' [] (by decide) (by decide) (fun _ => rfl) _)

theorem scans_fatArrow (tail : List Char) : Scans tail " => ".toList [(.fatArrow, "=>")] :=
  scans_before_blank " =>" (by decide) <| scans_after_blank "=>" (by decide)
    (scans_symbol '=' ['>'] (by decide) (by decide) (fun _ => rfl) _)

theorem scans_matchWord (tail : List Char) : Scans tail "match ".toList [(.matchWord, "match")] := by
  refine scans_before_blank "match" (by decide) ?_
  have hpart : ['a', 't', 'c', 'h'].all isNamePart = true := by decide
  have hscans := scans_word (c := 'm') (by decide) (List.all_eq_true.1 hpart)
    (show isApart ([' '] ++ tail) = true from rfl)
  exact hscans

end Token

theorem literal_cases {text : String} (h : isLiteral text = true) :
    (isLexeme .number text = true ∧ literalWords text = [(.number, text)]) ∨
    (isLexeme .string text = true ∧ literalWords text = [(.string, text)]) ∨
    ∃ digits, isLexeme .number digits = true ∧ text = "-" ++ digits ∧
      literalWords text = [(.minus, "-"), (.number, digits)] := by
  unfold literalWords
  by_cases hnumber : isLexeme .number text = true
  · exact .inl ⟨hnumber, if_pos hnumber⟩
  by_cases hstring : isLexeme .string text = true
  · exact .inr (.inl ⟨hstring, by rw [if_neg hnumber, if_pos hstring]⟩)
  · simp only [isLiteral, hnumber, hstring, Bool.false_or] at h
    unfold isNegative at h
    split at h
    · rename_i digits htext
      refine .inr (.inr ⟨String.ofList digits, h, ?_, ?_⟩)
      · apply String.toList_injective
        rw [htext, String.toList_append, String.toList_ofList, String.toList_ofList]
        rfl
      · rw [if_neg hnumber, if_neg hstring, htext, List.tail_cons]
    · cases h

theorem scans_minus {digits : String} (h : isLexeme .number digits = true) {tail : List Char} :
    Scans (digits.toList ++ tail) "-".toList [(.minus, "-")] := by
  obtain ⟨c, cs, heq, hscan⟩ := isLexeme_iff.1 h
  have harrow : c ≠ '>' := by
    rintro rfl
    cases hscan
  rw [heq, List.cons_append]
  have hscan : scanLexeme '-' ([] ++ c :: (cs ++ tail)) = .ok (.minus, ['-'], c :: (cs ++ tail)) := ?_
  · exact scans_of_scanLexeme (by decide) (by decide) hscan
  rw [List.nil_append]
  unfold scanLexeme
  split
  · rename_i hcons
    exact absurd (List.cons.inj hcons).1 harrow
  · rename_i hminus _
    exact absurd hminus (by decide)
  · rename_i hminus _
    exact absurd hminus (by decide)
  · rename_i hminus
    exact absurd hminus (by decide)
  · rfl

theorem scans_literal {text : String} (h : isLiteral text = true) {tail : List Char}
    (htail : isApart tail = true) : Scans tail text.toList (literalWords text) := by
  obtain ⟨hnumber, hwords⟩ | ⟨hstring, hwords⟩ | ⟨digits, hdigits, rfl, hwords⟩ := literal_cases h
  · rw [hwords]
    exact scans_string hnumber rfl htail
  · rw [hwords]
    exact scans_string hstring rfl htail
  · rw [hwords, String.toList_append]
    exact (scans_minus hdigits).append (scans_string hdigits rfl htail)

namespace Pattern

theorem isApart_renderRest (ps : List Pattern) : isApart (renderRest ps).toList = true := by
  cases ps with
  | nil => rfl
  | cons p ps =>
      rw [renderRest, String.toList_append, String.toList_append]
      rfl

mutual

theorem scans : (p : Pattern) → p.isWellFormed = true → {tail : List Char} →
    isApart tail = true → Scans tail p.render.toList p.words
  | .wildcard, _, _, htail =>
      scans_word (c := '_') (by decide) (List.forall_mem_nil _) htail
  | .var name, h, _, htail => by
      simp only [isWellFormed, Bool.and_eq_true] at h
      exact scans_string h.1 rfl htail
  | .const value, h, _, htail => scans_literal h htail
  | .constructor name [], h, _, htail => by
      simp only [isWellFormed, Bool.and_eq_true] at h
      exact scans_string h.1 rfl htail
  | .constructor name (p :: ps), h, tail, htail => by
      simp only [isWellFormed, Bool.and_eq_true] at h
      obtain ⟨⟨hname, hp⟩, hps⟩ := h
      simp only [render, words, String.toList_append]
      refine Scans.append (Scans.append (Scans.append (Scans.append ?_ (scans_leftParen _)) ?_) ?_)
        (scans_rightParen _)
      · exact scans_string hname rfl rfl
      · exact p.scans hp (isApart_append (isApart_renderRest ps) rfl)
      · exact scansRest ps hps rfl

theorem scansRest : (ps : List Pattern) → isWellFormedList ps = true → {tail : List Char} →
    isApart tail = true → Scans tail (renderRest ps).toList (wordsRest ps)
  | [], _, tail, _ => Scans.nil tail
  | p :: ps, h, tail, htail => by
      simp only [isWellFormedList, Bool.and_eq_true] at h
      simp only [renderRest, wordsRest, String.toList_append]
      refine Scans.append (Scans.append (scans_comma _) ?_) (scansRest ps h.2 htail)
      exact p.scans h.1 (isApart_append (isApart_renderRest ps) htail)

end

end Pattern

namespace Expr

theorem isApart_renderRest (es : List Expr) : isApart (renderRest es).toList = true := by
  cases es with
  | nil => rfl
  | cons e es =>
      rw [renderRest, String.toList_append, String.toList_append]
      rfl

theorem isApart_renderCases (cases : List (Pattern × Expr)) :
    isApart (renderCases cases).toList = true := by
  cases cases with
  | nil => rfl
  | cons c cases =>
      rw [renderCases, String.toList_append, String.toList_append, String.toList_append,
        String.toList_append]
      rfl

mutual

theorem scans : (e : Expr) → e.isWellFormed = true → {tail : List Char} → isApart tail = true →
    Scans tail e.render.toList e.words
  | .blank, h, _, _ => absurd h (by decide)
  | .const value, h, _, htail => scans_literal h htail
  | .object name, h, _, htail => scans_string h rfl htail
  | .operation name [], h, _, _ => absurd h (by simp [isWellFormed])
  | .operation name (e :: es), h, tail, htail => by
      simp only [isWellFormed, Bool.and_eq_true] at h
      obtain ⟨⟨hname, he⟩, hes⟩ := h
      simp only [render, words, String.toList_append]
      refine Scans.append (Scans.append (Scans.append (Scans.append ?_ (scans_leftParen _)) ?_) ?_)
        (scans_rightParen _)
      · exact scans_string hname rfl rfl
      · exact e.scans he (isApart_append (isApart_renderRest es) rfl)
      · exact scansRest es hes rfl
  | .matching scrutinee [], h, tail, htail => by
      simp only [isWellFormed, isWellFormedCases, Bool.and_true] at h
      simp only [render, words, String.toList_append]
      refine Scans.append (Scans.append (scans_matchWord _) (scrutinee.scans h rfl)) ?_
      exact scans_braces tail
  | .matching scrutinee ((p, body) :: rest), h, tail, htail => by
      simp only [isWellFormed, isWellFormedCases, Bool.and_eq_true] at h
      obtain ⟨hscrutinee, ⟨hp, hbody⟩, hrest⟩ := h
      simp only [render, words, String.toList_append]
      refine Scans.append (Scans.append (Scans.append (Scans.append (Scans.append (Scans.append
        (Scans.append (scans_matchWord _) ?_) (scans_leftBrace _)) ?_) (scans_fatArrow _)) ?_) ?_)
        (scans_rightBrace _)
      · exact scrutinee.scans hscrutinee rfl
      · exact p.scans hp rfl
      · exact body.scans hbody (isApart_append (isApart_renderCases rest) rfl)
      · exact scansCases rest hrest rfl

theorem scansRest : (es : List Expr) → isWellFormedList es = true → {tail : List Char} →
    isApart tail = true → Scans tail (renderRest es).toList (wordsRest es)
  | [], _, tail, _ => Scans.nil tail
  | e :: es, h, tail, htail => by
      simp only [isWellFormedList, Bool.and_eq_true] at h
      simp only [renderRest, wordsRest, String.toList_append]
      refine Scans.append (Scans.append (scans_comma _) ?_) (scansRest es h.2 htail)
      exact e.scans h.1 (isApart_append (isApart_renderRest es) htail)

theorem scansCases : (cases : List (Pattern × Expr)) → isWellFormedCases cases = true →
    {tail : List Char} → isApart tail = true →
    Scans tail (renderCases cases).toList (wordsCases cases)
  | [], _, tail, _ => Scans.nil tail
  | (p, body) :: rest, h, tail, htail => by
      simp only [isWellFormedCases, Bool.and_eq_true] at h
      obtain ⟨⟨hp, hbody⟩, hrest⟩ := h
      simp only [renderCases, wordsCases, String.toList_append]
      refine Scans.append (Scans.append (Scans.append (Scans.append (scans_bar _) ?_)
        (scans_fatArrow _)) ?_) (scansCases rest hrest htail)
      · exact p.scans hp rfl
      · exact body.scans hbody (isApart_append (isApart_renderCases rest) htail)

end

end Expr

namespace Parser

variable {α : Type}

/-- Whether what is left of the tokens does not go on with an expression. -/
def stops (ts : List Token) : Bool :=
  ts.head?.all fun t => (binaryOperator? t.kind).isNone && t.kind ≠ .leftParen

/-- Tokens of the words that a step takes are read as a value, whatever follows that the step stops
at. -/
def TakesBefore (stop : List Token → Bool) (step : (ts : List Token) → Step α ts)
    (words : List Word) (x : α) : Prop :=
  ∀ us rest, us.map word = words → stop rest = true → ∃ h, step (us ++ rest) = .ok ⟨(x, rest), h⟩

/-- A step that stops at what does not go on with an expression. -/
abbrev Takes (step : (ts : List Token) → Step α ts) (words : List Word) (x : α) : Prop :=
  TakesBefore stops step words x

/-- The kinds of the first tokens of patterns, expressions and types. -/
def starts : Kind → Bool
  | .underscore | .identifier | .number | .string | .minus | .matchWord | .leftParen => true
  | _ => false

def Starts (words : List Word) : Prop := ∃ w ws, words = w :: ws ∧ starts w.1 = true

theorem exists_of_map_word {us : List Token} {w : Word} {ws : List Word}
    (h : us.map word = w :: ws) : ∃ p us', us = ⟨w.1, w.2, p⟩ :: us' ∧ us'.map word = ws := by
  obtain ⟨⟨kind, lexeme, p⟩, us', rfl, rfl, hus⟩ := List.map_eq_cons_iff.1 h
  exact ⟨p, us', rfl, hus⟩

theorem exists_of_call_words {us : List Token} {name : String} {first others : List Word}
    (h : us.map word = [(.identifier, name)] ++ [(.leftParen, "(")] ++ first ++ others ++
      [(.rightParen, ")")]) :
    ∃ p q r inner, us = ⟨.identifier, name, p⟩ :: ⟨.leftParen, "(", q⟩ ::
      (inner ++ [⟨.rightParen, ")", r⟩]) ∧ inner.map word = first ++ others := by
  simp only [List.append_assoc, List.singleton_append] at h
  obtain ⟨p, us₁, rfl, h₁⟩ := exists_of_map_word h
  obtain ⟨q, us₂, rfl, h₂⟩ := exists_of_map_word h₁
  have h₃ : us₂.map word = (first ++ others) ++ [(.rightParen, ")")] := by
    rw [List.append_assoc]
    exact h₂
  obtain ⟨inner, us₄, rfl, hinner, h₄⟩ := List.map_eq_append_iff.1 h₃
  obtain ⟨r, us₅, rfl, h₅⟩ := exists_of_map_word h₄
  obtain rfl := List.map_eq_nil_iff.1 h₅
  exact ⟨p, q, r, inner, rfl, hinner⟩

theorem literalWords_starts {text : String} (h : isLiteral text = true) :
    Starts (literalWords text) := by
  obtain ⟨-, hwords⟩ | ⟨-, hwords⟩ | ⟨digits, -, -, hwords⟩ := literal_cases h
  all_goals exact ⟨_, _, hwords, rfl⟩

theorem ok_bind {ε β : Type} {x : α} {f : α → Except ε β} : Except.ok x >>= f = f x := rfl

section Symbols

variable {kind : Kind} {lexeme : String} {p : Position} {rest : List Token}

theorem need_mk (finish : Position) (context : String) :
    need finish kind context (⟨kind, lexeme, p⟩ :: rest) = .ok ⟨(⟨kind, lexeme, p⟩, rest), by simp⟩ :=
  if_pos rfl

theorem skip_mk : skip kind (⟨kind, lexeme, p⟩ :: rest) = ⟨(true, rest), by simp⟩ := if_pos rfl

theorem skip_of_ne {ts : List Token} (h : ∀ t ∈ ts.head?, t.kind ≠ kind) :
    skip kind ts = ⟨(false, ts), Nat.le_refl _⟩ := by
  cases ts with
  | nil => rfl
  | cons t ts => exact if_neg (h t rfl)

end Symbols

theorem inputOf_of_scans {text : String} {words : List Word} (h : Scans [] text.toList words)
    (hcanonical : canonical text.toList = text.toList) :
    ∃ us q, us.map word = words ∧ inputOf text = .ok (us, q) := by
  obtain ⟨us, q, hus, htokens⟩ := h .start
  have hend : tokensFrom q [] = .ok [⟨.endOfInput, "", q⟩] := by
    rw [tokensFrom]
    rfl
  refine ⟨us, q, hus, ?_⟩
  rw [List.append_nil, hend] at htokens
  rw [inputOf, tokenize, hcanonical, htokens]
  simp [Except.map, pure, Except.pure, bind, Except.bind]

theorem commaItems_takes {stop : List Token → Bool} {step : (ts : List Token) → Step α ts}
    {words : α → List Word} {n : Nat} (finish : Position) (context : String) (close : Position)
    (rest : List Token) {x : α} {xs : List α}
    (hsteps : ∀ y ∈ x :: xs, TakesBefore stop step (words y) y)
    (hstop : ∀ t ts, t.kind = .comma ∨ t.kind = .rightParen → stop (t :: ts) = true)
    {us ts : List Token}
    (hts : us ++ ⟨.rightParen, ")", close⟩ :: rest = ts)
    (hus : us.map word = words x ++ xs.flatMap fun y => (.comma, ",") :: words y)
    (h : ts.length ≤ n) :
    ∃ hlt, commaItems finish .rightParen context (fun ts _ => step ts) ts h =
      .ok ⟨(x :: xs, rest), hlt⟩ := by
  induction xs generalizing x us ts with
  | nil =>
      subst hts
      rw [List.flatMap_nil, List.append_nil] at hus
      obtain ⟨hlt, hstep⟩ := hsteps x (List.mem_cons_self ..) us (⟨.rightParen, ")", close⟩ :: rest)
        hus (hstop _ _ (.inr rfl))
      refine ⟨by simp only [List.length_append, List.length_cons]; omega, ?_⟩
      rw [commaItems]
      dsimp only
      rw [hstep, ok_bind]
      dsimp only
      rw [skip_of_ne (by simp)]
      dsimp only
      rw [if_neg Bool.false_ne_true, need_mk, ok_bind]
  | cons y xs ih =>
      rw [List.flatMap_cons, List.cons_append] at hus
      obtain ⟨first, second, rfl, hfirst, hsecond⟩ := List.map_eq_append_iff.1 hus
      obtain ⟨p, others, rfl, hothers⟩ := exists_of_map_word hsecond
      rw [List.append_assoc, List.cons_append] at hts
      subst hts
      obtain ⟨hlt, hstep⟩ := hsteps x (List.mem_cons_self ..) first
        (⟨.comma, ",", p⟩ :: (others ++ ⟨.rightParen, ")", close⟩ :: rest)) hfirst
        (hstop _ _ (.inl rfl))
      have hbound : (others ++ ⟨.rightParen, ")", close⟩ :: rest).length ≤ n := by
        rw [List.length_append, List.length_cons] at h
        omega
      obtain ⟨hlt', hitems⟩ :=
        ih (fun z hz => hsteps z (List.mem_cons_of_mem _ hz)) rfl hothers hbound
      refine ⟨by simp only [List.length_append, List.length_cons] at hlt' ⊢; omega, ?_⟩
      rw [commaItems]
      dsimp only
      rw [hstep, ok_bind]
      dsimp only
      rw [skip_mk]
      dsimp only
      rw [if_pos rfl, hitems, ok_bind]

theorem commaList_takes {stop : List Token → Bool} {step : (ts : List Token) → Step α ts}
    {words : α → List Word} (finish : Position) (context : String) (close : Position)
    (rest : List Token) {x : α} {xs : List α}
    (hsteps : ∀ y ∈ x :: xs, TakesBefore stop step (words y) y)
    (hstop : ∀ t ts, t.kind = .comma ∨ t.kind = .rightParen → stop (t :: ts) = true)
    (hstarts : Starts (words x)) {us ts : List Token} (hts : us ++ ⟨.rightParen, ")", close⟩ :: rest = ts)
    (hus : us.map word = words x ++ xs.flatMap fun y => (.comma, ",") :: words y) :
    ∃ hlt, commaList finish .rightParen context ts (fun ts _ => step ts) =
      .ok ⟨(x :: xs, rest), hlt⟩ := by
  obtain ⟨hlt, hitems⟩ := commaItems_takes finish context close rest hsteps hstop hts hus
    (Nat.le_refl _)
  refine ⟨hlt, ?_⟩
  obtain ⟨w, ws, hwords, hw⟩ := hstarts
  rw [hwords, List.cons_append] at hus
  obtain ⟨p, us', rfl, -⟩ := exists_of_map_word hus
  subst hts
  have hkind : w.1 ≠ .rightParen := by
    intro heq
    rw [heq] at hw
    cases hw
  exact (if_neg hkind).trans hitems

theorem stops_of_list {t : Token} (rest : List Token) (h : t.kind = .comma ∨ t.kind = .rightParen) :
    stops (t :: rest) = true := by
  rcases h with h | h <;> simp [stops, h, binaryOperator?]

theorem pattern_takes_literal (finish : Position) {text : String} (h : isLiteral text = true) :
    Takes (pattern finish) (literalWords text) (.const text) := by
  intro us rest hus hrest
  obtain ⟨hnumber, hwords⟩ | ⟨hstring, hwords⟩ | ⟨digits, hdigits, rfl, hwords⟩ := literal_cases h
  · rw [hwords] at hus
    obtain ⟨p, us', rfl, hnil⟩ := exists_of_map_word hus
    obtain rfl := List.map_eq_nil_iff.1 hnil
    exact ⟨by simp, by rw [pattern.eq_def]; rfl⟩
  · rw [hwords] at hus
    obtain ⟨p, us', rfl, hnil⟩ := exists_of_map_word hus
    obtain rfl := List.map_eq_nil_iff.1 hnil
    exact ⟨by simp, by rw [pattern.eq_def]; rfl⟩
  · rw [hwords] at hus
    obtain ⟨p, us', rfl, hus'⟩ := exists_of_map_word hus
    obtain ⟨q, us'', rfl, hnil⟩ := exists_of_map_word hus'
    obtain rfl := List.map_eq_nil_iff.1 hnil
    exact ⟨by simp, by rw [pattern.eq_def]; rfl⟩

theorem pattern_takes_wildcard (finish : Position) :
    Takes (pattern finish) [(.underscore, "_")] .wildcard := by
  intro us rest hus _
  obtain ⟨p, us', rfl, hnil⟩ := exists_of_map_word hus
  obtain rfl := List.map_eq_nil_iff.1 hnil
  exact ⟨by simp, by rw [pattern.eq_def]; rfl⟩

theorem pattern_takes_name (finish : Position) (name : String) :
    Takes (pattern finish) [(.identifier, name)]
      (if isConstructorName name then .constructor name [] else .var name) := by
  intro us rest hus hrest
  obtain ⟨p, us', rfl, hnil⟩ := exists_of_map_word hus
  obtain rfl := List.map_eq_nil_iff.1 hnil
  refine ⟨by simp, ?_⟩
  rw [pattern.eq_def]
  cases rest with
  | nil => rfl
  | cons u rest =>
      simp only [stops, List.head?_cons, Option.all_some, Bool.and_eq_true, decide_eq_true_eq] at hrest
      exact if_neg hrest.2

theorem pattern_takes_application (finish : Position) (name : String) {p : Pattern}
    {ps : List Pattern} (hsteps : ∀ q ∈ p :: ps, Takes (pattern finish) q.words q)
    (hstarts : Starts p.words) :
    Takes (pattern finish) (Pattern.constructor name (p :: ps)).words
      (.constructor name (p :: ps)) := by
  intro us rest hus _
  rw [Pattern.words, Pattern.wordsRest_eq] at hus
  obtain ⟨p₁, p₂, p₃, inner, rfl, hinner⟩ := exists_of_call_words hus
  obtain ⟨hlt, hlist⟩ := commaList_takes finish "to close constructor pattern" p₃ rest hsteps
    (fun _ => stops_of_list) hstarts rfl hinner
  have hts : ⟨.identifier, name, p₁⟩ :: ⟨.leftParen, "(", p₂⟩ ::
      (inner ++ [⟨.rightParen, ")", p₃⟩]) ++ rest = (⟨.identifier, name, p₁⟩ : Token) ::
        ⟨.leftParen, "(", p₂⟩ :: (inner ++ ⟨.rightParen, ")", p₃⟩ :: rest) := by simp
  rw [hts]
  refine ⟨by simp only [List.length_append, List.length_cons]; omega, ?_⟩
  rw [pattern.eq_def]
  dsimp only
  rw [if_pos rfl, hlist, ok_bind]

end Parser

namespace Pattern

open Formulary.Parser

theorem words_starts (p : Pattern) (h : p.isWellFormed = true) : Starts p.words := by
  cases p with
  | wildcard => exact ⟨_, _, rfl, rfl⟩
  | var name => exact ⟨_, _, rfl, rfl⟩
  | const value => exact literalWords_starts h
  | constructor name args =>
      cases args with
      | nil => exact ⟨_, _, rfl, rfl⟩
      | cons p ps => exact ⟨_, _, rfl, rfl⟩

mutual

theorem takes (finish : Position) : (p : Pattern) → p.isWellFormed = true →
    Takes (pattern finish) p.words p
  | .wildcard, _ => pattern_takes_wildcard finish
  | .var name, h => by
      simp only [isWellFormed, Bool.and_eq_true, Bool.not_eq_true'] at h
      simpa [words, h.2] using pattern_takes_name finish name
  | .const value, h => pattern_takes_literal finish h
  | .constructor name [], h => by
      simp only [isWellFormed, Bool.and_eq_true] at h
      simpa [words, h.2] using pattern_takes_name finish name
  | .constructor name (p :: ps), h => by
      simp only [isWellFormed, Bool.and_eq_true] at h
      refine pattern_takes_application finish name ?_ (p.words_starts h.1.2)
      exact List.forall_mem_cons.2 ⟨p.takes finish h.1.2, takesAll finish ps h.2⟩

theorem takesAll (finish : Position) : (ps : List Pattern) → isWellFormedList ps = true →
    ∀ p ∈ ps, Takes (pattern finish) p.words p
  | [], _ => by simp
  | p :: ps, h => by
      simp only [isWellFormedList, Bool.and_eq_true] at h
      exact List.forall_mem_cons.2 ⟨p.takes finish h.1, takesAll finish ps h.2⟩

end

end Pattern

namespace Parser

theorem operators_of_stops (finish : Position) (bound : Nat) (left : Expr) {rest : List Token}
    (h : stops rest = true) :
    operators finish bound left rest = .ok ⟨(left, rest), Nat.le_refl _⟩ := by
  cases rest with
  | nil => rw [operators]
  | cons t rest =>
      simp only [stops, List.head?_cons, Option.all_some, Bool.and_eq_true, Option.isNone_iff_eq_none]
        at h
      rw [operators]
      split
      · rfl
      · rename_i op hop
        rw [h.1] at hop
        cases hop

theorem expr_takes {finish : Position} {words : List Word} {e : Expr}
    (h : Takes (operand finish) words e) (bound : Nat) : Takes (expr finish bound) words e := by
  intro us rest hus hrest
  obtain ⟨hlt, hoperand⟩ := h us rest hus hrest
  refine ⟨hlt, ?_⟩
  rw [expr, hoperand, ok_bind]
  dsimp only
  rw [operators_of_stops _ _ _ hrest, ok_bind]

theorem operand_takes_literal (finish : Position) {text : String} (h : isLiteral text = true) :
    Takes (operand finish) (literalWords text) (.const text) := by
  intro us rest hus hrest
  obtain ⟨hnumber, hwords⟩ | ⟨hstring, hwords⟩ | ⟨digits, hdigits, rfl, hwords⟩ := literal_cases h
  · rw [hwords] at hus
    obtain ⟨p, us', rfl, hnil⟩ := exists_of_map_word hus
    obtain rfl := List.map_eq_nil_iff.1 hnil
    exact ⟨by simp, by rw [operand.eq_def]; rfl⟩
  · rw [hwords] at hus
    obtain ⟨p, us', rfl, hnil⟩ := exists_of_map_word hus
    obtain rfl := List.map_eq_nil_iff.1 hnil
    exact ⟨by simp, by rw [operand.eq_def]; rfl⟩
  · rw [hwords] at hus
    obtain ⟨p, us', rfl, hus'⟩ := exists_of_map_word hus
    obtain ⟨q, us'', rfl, hnil⟩ := exists_of_map_word hus'
    obtain rfl := List.map_eq_nil_iff.1 hnil
    -- A power behind the number would take it away from the minus.
    have hfactor : startsWithFactor (⟨.number, digits, q⟩ :: rest) = true := by
      cases rest with
      | nil => rfl
      | cons t rest =>
          simp only [stops, List.head?_cons, Option.all_some, Bool.and_eq_true,
            Option.isNone_iff_eq_none] at hrest
          have hpower : t.kind ≠ .power := by
            intro hpower
            rw [hpower] at hrest
            cases hrest.1
          simp [startsWithFactor, hpower]
    refine ⟨by simp, ?_⟩
    rw [operand.eq_def]
    exact if_pos hfactor

theorem operand_takes_name (finish : Position) (name : String) :
    Takes (operand finish) [(.identifier, name)] (.object name) := by
  intro us rest hus hrest
  obtain ⟨p, us', rfl, hnil⟩ := exists_of_map_word hus
  obtain rfl := List.map_eq_nil_iff.1 hnil
  refine ⟨by simp, ?_⟩
  rw [operand.eq_def]
  cases rest with
  | nil => rfl
  | cons u rest =>
      simp only [stops, List.head?_cons, Option.all_some, Bool.and_eq_true, decide_eq_true_eq] at hrest
      exact if_neg hrest.2

theorem operand_takes_application (finish : Position) (name : String) {e : Expr} {es : List Expr}
    (hsteps : ∀ a ∈ e :: es, Takes (operand finish) a.words a)
    (hstarts : Starts e.words) :
    Takes (operand finish) (Expr.operation name (e :: es)).words (.operation name (e :: es)) := by
  intro us rest hus _
  rw [Expr.words, Expr.wordsRest_eq] at hus
  obtain ⟨p₁, p₂, p₃, inner, rfl, hinner⟩ := exists_of_call_words hus
  obtain ⟨hlt, hlist⟩ := commaList_takes finish "to close arguments" p₃ rest
    (fun a ha => expr_takes (hsteps a ha) 0) (fun _ => stops_of_list) hstarts rfl hinner
  have hts : ⟨.identifier, name, p₁⟩ :: ⟨.leftParen, "(", p₂⟩ ::
      (inner ++ [⟨.rightParen, ")", p₃⟩]) ++ rest = (⟨.identifier, name, p₁⟩ : Token) ::
        ⟨.leftParen, "(", p₂⟩ :: (inner ++ ⟨.rightParen, ")", p₃⟩ :: rest) := by simp
  rw [hts]
  refine ⟨by simp only [List.length_append, List.length_cons]; omega, ?_⟩
  rw [operand.eq_def]
  dsimp only
  rw [if_pos rfl, hlist, ok_bind]

/-- A case of a match, read by its parts. -/
structure TakesCase (finish : Position) (c : Pattern × Expr) : Prop where
  pattern : Takes (pattern finish) c.1.words c.1
  starts : Starts c.1.words
  body : Takes (operand finish) c.2.words c.2

theorem matchCases_first (finish : Position) {c : Pattern × Expr} (h : TakesCase finish c) (u : Token)
    (rest : List Token) (hstops : stops (u :: rest) = true) {us ts : List Token}
    (hts : us ++ u :: rest = ts) (hus : us.map word = c.1.words ++ [(.fatArrow, "=>")] ++ c.2.words) :
    (u.kind = .rightBrace → ∃ hlt, matchCases finish ts = .ok ⟨([c], rest), hlt⟩) ∧
    (u.kind = .bar → ∀ cases rest' hlt, matchCases finish rest = .ok ⟨(cases, rest'), hlt⟩ →
      ∃ hlt, matchCases finish ts = .ok ⟨(c :: cases, rest'), hlt⟩) := by
  obtain ⟨w, ws, hwords, hw⟩ := h.starts
  obtain ⟨front, bodyTokens, rfl, hfront, hbodyTokens⟩ := List.map_eq_append_iff.1 hus
  obtain ⟨patternTokens, arrow, rfl, hpatternTokens, harrow⟩ := List.map_eq_append_iff.1 hfront
  obtain ⟨p, none, rfl, hnone⟩ := exists_of_map_word harrow
  obtain rfl := List.map_eq_nil_iff.1 hnone
  obtain ⟨hlt, hpattern⟩ := h.pattern patternTokens
    (⟨.fatArrow, "=>", p⟩ :: (bodyTokens ++ u :: rest)) hpatternTokens rfl
  obtain ⟨hlt', hbody⟩ := expr_takes h.body 0 bodyTokens (u :: rest) hbodyTokens hstops
  have hw : w.1 ≠ .rightBrace := by
    intro heq
    rw [heq] at hw
    cases hw
  rw [hwords] at hpatternTokens
  obtain ⟨q, others, rfl, -⟩ := exists_of_map_word hpatternTokens
  have hts' : ts = ⟨w.1, w.2, q⟩ :: (others ++ ⟨.fatArrow, "=>", p⟩ :: (bodyTokens ++ u :: rest)) := by
    simp [← hts]
  subst hts'
  change pattern finish
    (⟨w.1, w.2, q⟩ :: (others ++ ⟨.fatArrow, "=>", p⟩ :: (bodyTokens ++ u :: rest))) = _ at hpattern
  constructor
  · intro hbrace
    refine ⟨by simp only [List.length_append, List.length_cons]; omega, ?_⟩
    rw [matchCases, if_neg hw, hpattern, ok_bind]
    dsimp only
    rw [need_mk, ok_bind]
    dsimp only
    rw [hbody, ok_bind]
    dsimp only
    rw [if_neg (by rw [hbrace]; decide), if_pos hbrace]
  · intro hbar cases rest' hlt'' hcases
    refine ⟨by simp only [List.length_append, List.length_cons] at hlt'' ⊢; omega, ?_⟩
    rw [matchCases, if_neg hw, hpattern, ok_bind]
    dsimp only
    rw [need_mk, ok_bind]
    dsimp only
    rw [hbody, ok_bind]
    dsimp only
    rw [if_pos (.inl hbar), hcases, ok_bind]

theorem matchCases_takes (finish close : Position) (rest : List Token) {c : Pattern × Expr}
    {cases : List (Pattern × Expr)} (hcases : ∀ d ∈ c :: cases, TakesCase finish d)
    {us ts : List Token} (hts : us ++ ⟨.rightBrace, "\x7d", close⟩ :: rest = ts)
    (hus : us.map word = c.1.words ++ [(.fatArrow, "=>")] ++ c.2.words ++ Expr.wordsCases cases) :
    ∃ hlt, matchCases finish ts = .ok ⟨(c :: cases, rest), hlt⟩ := by
  induction cases generalizing c us ts with
  | nil =>
      rw [Expr.wordsCases, List.append_nil] at hus
      exact (matchCases_first finish (hcases c (List.mem_cons_self ..)) _ rest rfl hts hus).1 rfl
  | cons d cases ih =>
      obtain ⟨first, second, rfl, hfirst, hsecond⟩ := List.map_eq_append_iff.1 hus
      simp only [Expr.wordsCases, List.append_assoc, List.singleton_append] at hsecond
      obtain ⟨p, others, rfl, hothers⟩ := exists_of_map_word hsecond
      rw [List.append_assoc, List.cons_append] at hts
      obtain ⟨hlt, hrest⟩ := ih (fun x hx => hcases x (List.mem_cons_of_mem _ hx)) rfl
        (hothers.trans (by simp))
      exact (matchCases_first finish (hcases c (List.mem_cons_self ..)) _ _ rfl hts hfirst).2 rfl
        _ _ hlt hrest

theorem operand_takes_braces (finish : Position) {scrutinee : Expr} {cases : List (Pattern × Expr)}
    (hscrutinee : Takes (operand finish) scrutinee.words scrutinee) {inner : List Word}
    (hbar : ∀ w ∈ inner.head?, w.1 ≠ .bar)
    (hcases : ∀ us rest close, us.map word = inner → ∃ hlt, matchCases finish
      (us ++ ⟨.rightBrace, "\x7d", close⟩ :: rest) = .ok ⟨(cases, rest), hlt⟩) :
    Takes (operand finish) ([(.matchWord, "match")] ++ scrutinee.words ++ [(.leftBrace, "\x7b")] ++
      inner ++ [(.rightBrace, "\x7d")]) (.matching scrutinee cases) := by
  intro us rest hus _
  obtain ⟨us₁, last, rfl, h₁, hlast⟩ := List.map_eq_append_iff.1 hus
  obtain ⟨close, none, rfl, hnone⟩ := exists_of_map_word hlast
  obtain rfl := List.map_eq_nil_iff.1 hnone
  obtain ⟨us₂, caseTokens, rfl, h₂, hcaseTokens⟩ := List.map_eq_append_iff.1 h₁
  obtain ⟨us₃, brace, rfl, h₃, hbrace⟩ := List.map_eq_append_iff.1 h₂
  obtain ⟨opened, none, rfl, hnone⟩ := exists_of_map_word hbrace
  obtain rfl := List.map_eq_nil_iff.1 hnone
  obtain ⟨p, scrutineeTokens, rfl, hscrutineeTokens⟩ := exists_of_map_word h₃
  obtain ⟨hlt, hexpr⟩ := expr_takes hscrutinee 0 scrutineeTokens
    (⟨.leftBrace, "\x7b", opened⟩ :: (caseTokens ++ ⟨.rightBrace, "\x7d", close⟩ :: rest))
    hscrutineeTokens rfl
  obtain ⟨hlt', hmatch⟩ := hcases caseTokens rest close hcaseTokens
  have hts : ⟨.matchWord, "match", p⟩ :: scrutineeTokens ++ [⟨.leftBrace, "\x7b", opened⟩] ++ caseTokens ++
      [⟨.rightBrace, "\x7d", close⟩] ++ rest = (⟨.matchWord, "match", p⟩ : Token) ::
        (scrutineeTokens ++ ⟨.leftBrace, "\x7b", opened⟩ ::
          (caseTokens ++ ⟨.rightBrace, "\x7d", close⟩ :: rest)) := by simp
  have hhead : ∀ t ∈ (caseTokens ++ ⟨.rightBrace, "\x7d", close⟩ :: rest).head?, t.kind ≠ .bar := by
    cases caseTokens with
    | nil => simp
    | cons t others =>
        subst hcaseTokens
        simpa [word] using hbar
  rw [hts]
  refine ⟨by simp only [List.length_append, List.length_cons]; omega, ?_⟩
  rw [operand.eq_def]
  dsimp only
  rw [hexpr, ok_bind]
  dsimp only
  rw [need_mk, ok_bind]
  dsimp only
  rw [skip_of_ne hhead]
  dsimp only
  rw [hmatch, ok_bind]

theorem operand_takes_match (finish : Position) {scrutinee : Expr} {cases : List (Pattern × Expr)}
    (hscrutinee : Takes (operand finish) scrutinee.words scrutinee)
    (hcases : ∀ c ∈ cases, TakesCase finish c) :
    Takes (operand finish) (Expr.matching scrutinee cases).words (.matching scrutinee cases) := by
  cases cases with
  | nil =>
      have hnone : ∀ us rest close, us.map word = [] → ∃ hlt, matchCases finish
          (us ++ ⟨.rightBrace, "\x7d", close⟩ :: rest) = .ok ⟨([], rest), hlt⟩ := by
        intro us rest close hus
        obtain rfl := List.map_eq_nil_iff.1 hus
        exact ⟨by simp, by rw [matchCases.eq_def]; rfl⟩
      have htakes := operand_takes_braces finish hscrutinee (by simp) hnone
      simpa only [Expr.words, List.append_nil, List.append_assoc, List.cons_append, List.nil_append]
        using htakes
  | cons c cases =>
      have hbar : ∀ w ∈ (c.1.words ++ [(Kind.fatArrow, "=>")] ++ c.2.words ++
          Expr.wordsCases cases).head?, w.1 ≠ .bar := by
        obtain ⟨w, ws, hwords, hw⟩ := (hcases c (List.mem_cons_self ..)).starts
        rw [hwords]
        intro v hv heq
        cases hv
        rw [heq] at hw
        cases hw
      have htakes := operand_takes_braces finish hscrutinee hbar
        fun us rest close hus => matchCases_takes finish close rest hcases rfl hus
      simpa only [Expr.words, List.append_assoc] using htakes

end Parser

namespace Expr

open Formulary.Parser

theorem words_starts (e : Expr) (h : e.isWellFormed = true) : Starts e.words := by
  cases e with
  | blank => cases h
  | const value => exact literalWords_starts h
  | object name => exact ⟨_, _, rfl, rfl⟩
  | operation name args =>
      cases args with
      | nil => exact ⟨_, _, rfl, rfl⟩
      | cons e es => exact ⟨_, _, rfl, rfl⟩
  | matching scrutinee cases =>
      cases cases with
      | nil => exact ⟨_, _, rfl, rfl⟩
      | cons c cases => exact ⟨_, _, rfl, rfl⟩

mutual

theorem takes (finish : Position) : (e : Expr) → e.isWellFormed = true →
    Takes (operand finish) e.words e
  | .blank, h => absurd h (by decide)
  | .const value, h => operand_takes_literal finish h
  | .object name, _ => operand_takes_name finish name
  | .operation name [], h => absurd h (by simp [isWellFormed])
  | .operation name (e :: es), h => by
      simp only [isWellFormed, Bool.and_eq_true] at h
      refine operand_takes_application finish name ?_ (e.words_starts h.1.2)
      exact List.forall_mem_cons.2 ⟨e.takes finish h.1.2, takesAll finish es h.2⟩
  | .matching scrutinee cases, h => by
      simp only [isWellFormed, Bool.and_eq_true] at h
      exact operand_takes_match finish (scrutinee.takes finish h.1) (takesCases finish cases h.2)

theorem takesAll (finish : Position) : (es : List Expr) → isWellFormedList es = true →
    ∀ e ∈ es, Takes (operand finish) e.words e
  | [], _ => by simp
  | e :: es, h => by
      simp only [isWellFormedList, Bool.and_eq_true] at h
      exact List.forall_mem_cons.2 ⟨e.takes finish h.1, takesAll finish es h.2⟩

theorem takesCases (finish : Position) : (cases : List (Pattern × Expr)) →
    isWellFormedCases cases = true → ∀ c ∈ cases, TakesCase finish c
  | [], _ => by simp
  | (p, body) :: rest, h => by
      simp only [isWellFormedCases, Bool.and_eq_true] at h
      obtain ⟨⟨hp, hbody⟩, hrest⟩ := h
      exact List.forall_mem_cons.2
        ⟨⟨p.takes finish hp, p.words_starts hp, body.takes finish hbody⟩, takesCases finish rest hrest⟩

end

theorem parse_of_canonical {e : Expr} (h : e.isWellFormed = true)
    (hcanonical : canonical e.render.toList = e.render.toList) : parse e.render = .ok e := by
  obtain ⟨us, q, hus, hinput⟩ := inputOf_of_scans (e.scans h rfl) hcanonical
  have hread := expr_takes (e.takes q h) 0 us [] hus rfl
  rw [List.append_nil] at hread
  obtain ⟨hlt, hexpr⟩ := hread
  rw [parse, hinput, ok_bind]
  dsimp only
  rw [hexpr, ok_bind]
  rfl

end Expr

end Formulary
