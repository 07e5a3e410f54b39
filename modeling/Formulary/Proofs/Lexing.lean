import Formulary.Parser
import Formulary.Proofs.Steps

namespace Formulary

namespace Text

theorem CodePointSet.inside_cons_cons (x low high : Nat) (rest : List Nat) :
    inside x (low :: high :: rest) = true ↔ low ≤ x ∧ (x < high ∨ inside x rest = true) := by
  simp only [inside]
  split_ifs <;> simp_all

theorem isLetter_of_isBlank {c : Char} (h : isBlank c = true) : isLetter c = false := by
  simp only [isBlank, CodePointSet.contains, blanks, CodePointSet.inside_cons_cons] at h
  simp only [CodePointSet.inside, Bool.false_eq_true, or_false] at h
  simp only [isLetter, CodePointSet.contains]
  generalize c.toNat = x at h ⊢
  have hx : x ∈ [9, 10, 11, 12, 13, 32, 133, 160, 5760, 8192, 8193, 8194, 8195, 8196, 8197, 8198, 8199,
      8200, 8201, 8202, 8232, 8233, 8239, 8287, 12288] := by
    simp only [List.mem_cons, List.not_mem_nil, or_false]
    omega
  clear h
  revert x
  decide +kernel

end Text

namespace Token

open Formulary.Text

theorem symbolKind?_of_isNameStart {c : Char} (h : isNameStart c = true) : symbolKind? c = none := by
  unfold symbolKind?
  split
  all_goals first | rfl | (revert h; decide +kernel)

theorem isNameStart_of_isDigit {c : Char} (h : isDigit c = true) : isNameStart c = false := by
  simp only [isDigit, Bool.and_eq_true, decide_eq_true_eq] at h
  have hlt : c.toNat < 0x41 := Nat.lt_of_le_of_lt (show c.toNat ≤ '9'.toNat from h.2) (by decide)
  have hne : c ≠ '_' := by
    rintro rfl
    revert hlt
    decide
  rw [isNameStart, Bool.or_eq_false_iff, beq_eq_false_iff_ne]
  exact ⟨hne, CodePointSet.inside_eq_false_of_lt _ hlt⟩

theorem symbolKind?_of_isDigit {c : Char} (h : isDigit c = true) : symbolKind? c = none := by
  unfold symbolKind?
  split
  all_goals first | rfl | (revert h; decide)

theorem isBlank_of_isNameStart {c : Char} (h : isNameStart c = true) : isBlank c = false := by
  by_contra hblank
  have hletter := isLetter_of_isBlank (Bool.eq_true_of_not_eq_false hblank)
  rw [isNameStart, hletter, Bool.or_false, beq_iff_eq] at h
  subst h
  exact hblank (by decide)

theorem isBlank_of_isDigit {c : Char} (h : isDigit c = true) : isBlank c = false := by
  simp only [isDigit, Bool.and_eq_true, decide_eq_true_eq] at h
  have hlow : 0x30 ≤ c.toNat := h.1
  have hhigh : c.toNat ≤ 0x39 := h.2
  rw [← Bool.not_eq_true]
  simp only [isBlank, CodePointSet.contains, blanks, CodePointSet.inside_cons_cons]
  omega

theorem scanLexeme_of_isNameStart {c : Char} (cs : List Char) (h : isNameStart c = true) :
    scanLexeme c cs = .ok (wordKind (String.ofList (c :: cs.takeWhile isNamePart)),
      c :: cs.takeWhile isNamePart, cs.dropWhile isNamePart) := by
  have hdigit : isDigit c = false := by
    by_contra hdigit
    rw [isNameStart_of_isDigit (Bool.eq_true_of_not_eq_false hdigit)] at h
    cases h
  unfold scanLexeme
  split
  · exact absurd h (by decide)
  · exact absurd h (by decide)
  · exact absurd h (by decide)
  · exact absurd h (by decide)
  · rw [symbolKind?_of_isNameStart h, hdigit, h]
    rfl

theorem scanLexeme_of_isDigit {c : Char} (cs : List Char) (h : isDigit c = true) :
    scanLexeme c cs = .ok (.number, spanNumber (c :: cs)) := by
  unfold scanLexeme
  split
  · exact absurd h (by decide)
  · exact absurd h (by decide)
  · exact absurd h (by decide)
  · exact absurd h (by decide)
  · rw [symbolKind?_of_isDigit h, h]
    rfl

theorem scanLexeme_of_closeString {cs text rest : List Char}
    (hclose : closeString cs = some (text, rest)) (hvalue : (unquote? ('"' :: text)).isSome = true) :
    scanLexeme '"' cs = .ok (.string, '"' :: text, rest) := by
  simp only [scanLexeme, hclose, hvalue, if_true]

/-- Names, numbers and strings, which are shown as they are written. -/
def Kind.isText : Kind → Bool
  | .identifier | .number | .string => true
  | _ => false

theorem symbolKind?_isText {c : Char} {kind : Kind} (h : symbolKind? c = some kind) :
    kind.isText = false := by
  unfold symbolKind? at h
  split at h
  all_goals first
    | cases h; rfl
    | cases h

/-- What the text of a token is made of, by the kind of the token. -/
inductive Lexeme (c : Char) (cs : List Char) : Kind → List Char → List Char → Prop
  | name (hstart : isNameStart c = true) :
      Lexeme c cs (wordKind (String.ofList (c :: cs.takeWhile isNamePart)))
        (c :: cs.takeWhile isNamePart) (cs.dropWhile isNamePart)
  | number (hstart : isDigit c = true) :
      Lexeme c cs .number (spanNumber (c :: cs)).1 (spanNumber (c :: cs)).2
  | string {text rest : List Char} (hstart : c = '"') (hclose : closeString cs = some (text, rest))
      (hvalue : (unquote? ('"' :: text)).isSome = true) : Lexeme c cs .string ('"' :: text) rest
  | symbol {kind : Kind} {text rest : List Char} (hkind : kind.isText = false) :
      Lexeme c cs kind text rest

theorem lexeme_of_scanLexeme {c : Char} {cs text rest : List Char} {kind : Kind}
    (h : scanLexeme c cs = .ok (kind, text, rest)) : Lexeme c cs kind text rest := by
  unfold scanLexeme at h
  split at h
  · cases h
    exact .symbol rfl
  · cases h
    exact .symbol rfl
  · cases h
    exact .symbol rfl
  · split at h
    · cases h
    · rename_i inner rest' hclose
      split at h
      · rename_i hvalue
        cases h
        exact .string rfl hclose hvalue
      · cases h
  · split at h
    · rename_i kind' hsymbol
      cases h
      exact .symbol (symbolKind?_isText hsymbol)
    · split at h
      · rename_i hdigit
        cases h
        exact .number hdigit
      · split at h
        · rename_i hstart
          cases h
          exact .name hstart
        · cases h

theorem span_append_of_all {p : Char → Bool} {cs : List Char} (tail : List Char)
    (hcs : ∀ c ∈ cs, p c = true) (htail : ∀ c ∈ tail.head?, p c = false) :
    (cs ++ tail).takeWhile p = cs ∧ (cs ++ tail).dropWhile p = tail := by
  rw [List.takeWhile_append_of_pos hcs, List.dropWhile_append_of_pos hcs]
  cases tail with
  | nil => simp
  | cons c tail =>
      have hc := htail c rfl
      simp [hc]

theorem closeString_append_tail {cs text rest : List Char} (tail : List Char)
    (h : closeString cs = some (text, rest)) :
    closeString (cs ++ tail) = some (text, rest ++ tail) := by
  fun_induction closeString cs generalizing text with
  | case1 | case2 => cases h
  | case3 rest' =>
      cases h
      rfl
  | case4 c rest' ih =>
      obtain ⟨⟨inner, last⟩, hinner, heq⟩ := Option.map_eq_some_iff.1 h
      cases heq
      rw [List.cons_append, List.cons_append, closeString, ih hinner]
      rfl
  | case5 c rest' hline hquote hescape ih =>
      obtain ⟨⟨inner, last⟩, hinner, heq⟩ := Option.map_eq_some_iff.1 h
      cases heq
      have hescape' : ∀ d ds, c = '\\' → rest' ++ tail = d :: ds → False := by
        rintro d ds rfl -
        cases rest' with
        | nil => cases hinner
        | cons e es => exact hescape e es rfl rfl
      rw [List.cons_append, closeString, ih hinner]
      · rfl
      · exact hline
      · exact hquote
      · exact hescape'

theorem closeString_text {cs text rest : List Char} (h : closeString cs = some (text, rest)) :
    closeString text = some (text, []) := by
  fun_induction closeString cs generalizing text with
  | case1 | case2 => cases h
  | case3 rest' =>
      cases h
      rfl
  | case4 c rest' ih =>
      obtain ⟨⟨inner, last⟩, hinner, heq⟩ := Option.map_eq_some_iff.1 h
      cases heq
      rw [closeString, ih hinner]
      rfl
  | case5 c rest' hline hquote hescape ih =>
      obtain ⟨⟨inner, last⟩, hinner, heq⟩ := Option.map_eq_some_iff.1 h
      cases heq
      have happend := closeString_append hinner
      rw [closeString, ih hinner]
      · rfl
      · exact hline
      · exact hquote
      · rintro d ds hc rfl
        exact hescape d (ds ++ rest) hc happend.symm

theorem spanNumber_whole {digits tail : List Char} (hdigits : ∀ c ∈ digits, isDigit c = true)
    (htail : ∀ c ∈ tail.head?, isDigit c = false ∧ c ≠ '.') :
    spanNumber (digits ++ tail) = (digits, tail) := by
  obtain ⟨htake, hdrop⟩ := span_append_of_all tail hdigits fun c hc => (htail c hc).1
  unfold spanNumber
  rw [htake, hdrop]
  split
  · exact absurd rfl (htail '.' rfl).2
  · rfl

theorem spanNumber_fraction {digits fraction tail : List Char}
    (hdigits : ∀ c ∈ digits, isDigit c = true) (hfraction : ∀ c ∈ fraction, isDigit c = true)
    (hsome : fraction ≠ []) (htail : ∀ c ∈ tail.head?, isDigit c = false) :
    spanNumber (digits ++ '.' :: (fraction ++ tail)) = (digits ++ '.' :: fraction, tail) := by
  obtain ⟨htake, hdrop⟩ := span_append_of_all ('.' :: (fraction ++ tail)) hdigits
    fun c hc => by
      cases hc
      decide
  obtain ⟨htake', hdrop'⟩ := span_append_of_all tail hfraction htail
  cases fraction with
  | nil => exact absurd rfl hsome
  | cons d ds =>
      unfold spanNumber
      rw [htake, hdrop]
      simp only [List.cons_append] at htake' hdrop' ⊢
      rw [if_pos (hfraction d (List.mem_cons_self ..)), htake', hdrop']

theorem exists_digits_of_spanNumber (cs : List Char) :
    ∃ digits : List Char, (∀ c ∈ digits, isDigit c = true) ∧ ((spanNumber cs).1 = digits ∨
      ∃ fraction : List Char, (∀ c ∈ fraction, isDigit c = true) ∧ fraction ≠ [] ∧
        (spanNumber cs).1 = digits ++ '.' :: fraction) := by
  have hall : ∀ cs : List Char, ∀ c ∈ cs.takeWhile isDigit, isDigit c = true := fun cs c hc =>
    List.mem_takeWhile_imp hc
  refine ⟨cs.takeWhile isDigit, hall cs, ?_⟩
  unfold spanNumber
  split
  · rename_i d rest hrest
    split
    · rename_i hd
      exact .inr ⟨(d :: rest).takeWhile isDigit, hall _, by simp [hd], rfl⟩
    · exact .inl rfl
  · exact .inl rfl

theorem spanNumber_append_tail {cs tail : List Char} (h : (spanNumber cs).1 = cs)
    (htail : ∀ c ∈ tail.head?, isDigit c = false ∧ c ≠ '.') :
    spanNumber (cs ++ tail) = (cs, tail) := by
  obtain ⟨digits, hdigits, heq | ⟨fraction, hfraction, hsome, heq⟩⟩ := exists_digits_of_spanNumber cs
  · obtain rfl := h.symm.trans heq
    exact spanNumber_whole hdigits htail
  · obtain rfl := h.symm.trans heq
    rw [List.append_assoc, List.cons_append]
    exact spanNumber_fraction hdigits hfraction hsome fun c hc => (htail c hc).1

theorem spanNumber_text (cs : List Char) :
    spanNumber (spanNumber cs).1 = ((spanNumber cs).1, []) := by
  have hend : ∀ c ∈ ([] : List Char).head?, isDigit c = false ∧ c ≠ '.' := by simp
  obtain ⟨digits, hdigits, heq | ⟨fraction, hfraction, hsome, heq⟩⟩ := exists_digits_of_spanNumber cs
  · rw [heq]
    simpa using spanNumber_whole hdigits hend
  · rw [heq]
    simpa using spanNumber_fraction hdigits hfraction hsome fun c hc => (hend c hc).1

/-- Whether a text is one token of a kind, from its first character to its last. -/
def isLexeme (kind : Kind) (text : String) : Bool :=
  match text.toList with
  | [] => false
  | c :: cs =>
    match scanLexeme c cs with
    | .ok (found, _, []) => found = kind
    | _ => false

theorem isLexeme_iff {kind : Kind} {text : String} : isLexeme kind text = true ↔
    ∃ c cs, text.toList = c :: cs ∧ scanLexeme c cs = .ok (kind, c :: cs, []) := by
  unfold isLexeme
  cases htext : text.toList with
  | nil => simp
  | cons c cs =>
      constructor
      · intro h
        refine ⟨c, cs, rfl, ?_⟩
        dsimp only at h
        split at h
        · rename_i found read hscan
          have happend := scanLexeme_append hscan
          rw [List.append_nil] at happend
          rw [hscan, happend, of_decide_eq_true h]
        · cases h
      · rintro ⟨c', cs', heq, hscan⟩
        cases heq
        dsimp only
        rw [hscan]
        simp

theorem isLexeme_of_scanLexeme {c : Char} {cs text rest : List Char} {kind : Kind}
    (h : scanLexeme c cs = .ok (kind, text, rest)) (hkind : kind.isText = true) :
    isLexeme kind (String.ofList text) = true := by
  refine isLexeme_iff.2 ?_
  rw [String.toList_ofList]
  cases lexeme_of_scanLexeme h with
  | name hstart =>
      refine ⟨c, _, rfl, ?_⟩
      have hall : ∀ d ∈ cs.takeWhile isNamePart, isNamePart d = true := fun d hd =>
        List.mem_takeWhile_imp hd
      rw [scanLexeme_of_isNameStart _ hstart, List.takeWhile_eq_self_iff.2 hall,
        List.dropWhile_eq_nil_iff.2 hall]
  | number hstart =>
      have htext := spanNumber_text (c :: cs)
      have hne := spanNumber_fst_ne_nil cs hstart
      have happend := spanNumber_append (c :: cs)
      obtain ⟨d, ds, heq⟩ := List.exists_cons_of_ne_nil hne
      rw [heq] at htext happend ⊢
      obtain rfl : d = c := (List.cons.inj happend).1
      exact ⟨d, ds, rfl, by rw [scanLexeme_of_isDigit _ hstart, htext]⟩
  | @string text rest hstart hclose hvalue =>
      exact ⟨'"', text, rfl, scanLexeme_of_closeString (closeString_text hclose) hvalue⟩
  | symbol hsymbol =>
      rw [hsymbol] at hkind
      cases hkind

/-- The characters that follow a name or a number in what is printed. -/
def isSeparator (c : Char) : Bool := c = '(' || c = ')' || c = ',' || c = ' '

/-- Whether a text, put behind a name or a number, does not go on with it. -/
def isApart (tail : List Char) : Bool := tail.head?.all isSeparator

theorem not_part_of_isSeparator {c : Char} (h : isSeparator c = true) :
    isNamePart c = false ∧ isDigit c = false ∧ c ≠ '.' := by
  simp only [isSeparator, Bool.or_eq_true, decide_eq_true_eq] at h
  obtain ((rfl | rfl) | rfl) | rfl := h <;> decide

theorem scanLexeme_of_isLexeme {kind : Kind} {c : Char} {cs tail : List Char}
    (h : scanLexeme c cs = .ok (kind, c :: cs, [])) (hkind : kind.isText = true)
    (htail : isApart tail = true) : scanLexeme c (cs ++ tail) = .ok (kind, c :: cs, tail) := by
  have happart : ∀ d ∈ tail.head?, isNamePart d = false ∧ isDigit d = false ∧ d ≠ '.' :=
    fun d hd => not_part_of_isSeparator ((Option.all_eq_true _ _).1 htail d hd)
  generalize htext : c :: cs = text at h ⊢
  generalize hrest : [] = rest at h
  cases lexeme_of_scanLexeme h with
  | name hstart =>
      have hall : ∀ d ∈ cs, isNamePart d = true := List.dropWhile_eq_nil_iff.1 hrest.symm
      obtain ⟨htake, hdrop⟩ := span_append_of_all tail hall fun d hd => (happart d hd).1
      rw [scanLexeme_of_isNameStart _ hstart, htake, hdrop, List.takeWhile_eq_self_iff.2 hall]
  | number hstart =>
      rw [scanLexeme_of_isDigit _ hstart, ← List.cons_append,
        spanNumber_append_tail htext.symm fun d hd => (happart d hd).2]
      rw [← htext]
  | @string inner rest hstart hclose hvalue =>
      subst hstart hrest
      exact scanLexeme_of_closeString (closeString_append_tail tail hclose) hvalue
  | symbol hsymbol =>
      rw [hsymbol] at hkind
      cases hkind

theorem start_of_isText {kind : Kind} {c : Char} {cs text rest : List Char}
    (h : scanLexeme c cs = .ok (kind, text, rest)) (hkind : kind.isText = true) :
    isBlank c = false ∧ c ≠ '/' := by
  cases lexeme_of_scanLexeme h with
  | name hstart =>
      refine ⟨isBlank_of_isNameStart hstart, ?_⟩
      rintro rfl
      exact absurd hstart (by decide)
  | number hstart =>
      refine ⟨isBlank_of_isDigit hstart, ?_⟩
      rintro rfl
      exact absurd hstart (by decide)
  | string hstart =>
      subst hstart
      decide
  | symbol hsymbol =>
      rw [hsymbol] at hkind
      cases hkind

/-- A token without its position. -/
def word (t : Token) : Kind × String := (t.kind, t.lexeme)

/-- In front of `tail` a text comes to the tokens of some words. -/
def Scans (tail text : List Char) (words : List (Kind × String)) : Prop :=
  ∀ p, ∃ us q, us.map word = words ∧
    tokensFrom p (text ++ tail) = (tokensFrom q tail).map (us ++ ·)

theorem Scans.nil (tail : List Char) : Scans tail [] [] := fun p => by
  refine ⟨[], p, rfl, ?_⟩
  rw [List.nil_append]
  cases tokensFrom p tail <;> rfl

theorem Scans.append {tail first second : List Char} {ws ws' : List (Kind × String)}
    (h : Scans (second ++ tail) first ws) (h' : Scans tail second ws') :
    Scans tail (first ++ second) (ws ++ ws') := fun p => by
  obtain ⟨us, q, hus, heq⟩ := h p
  obtain ⟨us', q', hus', heq'⟩ := h' q
  refine ⟨us ++ us', q', by rw [List.map_append, hus, hus'], ?_⟩
  rw [List.append_assoc, heq, heq']
  cases tokensFrom q' tail with
  | ok ts => simp [Except.map]
  | error e => rfl

theorem skipTrivia_of_start {p : Position} {c : Char} {cs : List Char} (hblank : isBlank c = false)
    (hslash : c ≠ '/') : skipTrivia .between p (c :: cs) = .ok (p, c :: cs) := by
  rw [skipTrivia]
  · rw [hblank]
    rfl
  · rintro _ rfl _
    exact hslash rfl
  · rintro _ rfl _
    exact hslash rfl

theorem tokensFrom_of_start {p : Position} {c : Char} {cs text rest : List Char} {kind : Kind}
    (hblank : isBlank c = false) (hslash : c ≠ '/')
    (h : scanLexeme c cs = .ok (kind, text, rest)) :
    tokensFrom p (c :: cs) =
      (tokensFrom (p.after text) rest).map (⟨kind, String.ofList text, p⟩ :: ·) := by
  have htrivia : skipTrivia .between p (c :: cs) = .ok (p, c :: cs) :=
    skipTrivia_of_start hblank hslash
  rw [tokensFrom]
  split
  · rename_i heq
    cases htrivia.symm.trans heq
  · rename_i heq
    cases htrivia.symm.trans heq
  · rename_i heq
    cases htrivia.symm.trans heq
    split
    · rename_i heq
      cases h.symm.trans heq
    · rename_i heq
      cases h.symm.trans heq
      rfl

theorem tokensFrom_of_blank {p : Position} {c : Char} (cs : List Char) (hblank : isBlank c = true) :
    tokensFrom p (c :: cs) = tokensFrom (p.next c) cs := by
  have hslash : c ≠ '/' := by
    rintro rfl
    exact absurd hblank (by decide)
  have htrivia : skipTrivia .between p (c :: cs) = skipTrivia .between (p.next c) cs := by
    rw [skipTrivia]
    · rw [hblank]
      rfl
    · rintro _ rfl _
      exact hslash rfl
    · rintro _ rfl _
      exact hslash rfl
  rw [tokensFrom, tokensFrom, htrivia]

theorem scans_text {tail text : List Char} {kind : Kind} (h : isLexeme kind (String.ofList text) = true)
    (hkind : kind.isText = true) (htail : isApart tail = true) :
    Scans tail text [(kind, String.ofList text)] := fun p => by
  obtain ⟨c, cs, heq, hscan⟩ := isLexeme_iff.1 h
  rw [String.toList_ofList] at heq
  subst heq
  obtain ⟨hblank, hslash⟩ := start_of_isText hscan hkind
  exact ⟨[_], _, rfl, tokensFrom_of_start hblank hslash (scanLexeme_of_isLexeme hscan hkind htail)⟩

theorem scans_of_scanLexeme {tail cs : List Char} {c : Char} {kind : Kind}
    (hblank : isBlank c = false) (hslash : c ≠ '/')
    (h : scanLexeme c (cs ++ tail) = .ok (kind, c :: cs, tail)) :
    Scans tail (c :: cs) [(kind, String.ofList (c :: cs))] := fun _ =>
  ⟨[_], _, rfl, tokensFrom_of_start hblank hslash h⟩

theorem scans_blank (tail : List Char) : Scans tail [' '] [] := fun p => by
  refine ⟨[], p.next ' ', rfl, ?_⟩
  rw [List.singleton_append, tokensFrom_of_blank tail (by decide)]
  cases tokensFrom (p.next ' ') tail <;> rfl

end Token

end Formulary
