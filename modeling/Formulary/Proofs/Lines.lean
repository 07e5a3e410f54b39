import Formulary.Proofs.Foresight
import Formulary.Proofs.Lexing

namespace Formulary.Text

theorem exists_digit_of_digitsValue? {base n : Nat} {digit? : Char → Option Nat} {cs : List Char}
    (h : digitsValue? base digit? cs = some n) : ∀ c ∈ cs, (digit? c).isSome = true := by
  intro c hc
  rw [digitsValue?] at h
  generalize 0 = start at h
  induction cs generalizing start with
  | nil => cases hc
  | cons d cs ih =>
      rw [List.foldlM_cons] at h
      obtain ⟨value, hvalue, hrest⟩ := Option.bind_eq_some_iff.1 h
      obtain ⟨digit, hdigit, -⟩ := Option.map_eq_some_iff.1 hvalue
      rcases List.mem_cons.1 hc with rfl | hc
      · rw [hdigit]
        rfl
      · exact ih hc value hrest

theorem not_mem_of_digits {base : Nat} {digit? : Char → Option Nat} {digits tail rest : List Char}
    {bytes : List UInt8} {read? : Nat → Option (List UInt8)}
    (h : (digitsValue? base digit? digits >>= read?).map (·, tail) = some (bytes, rest))
    (hline : digit? '\n' = none) : tail = rest ∧ '\n' ∉ digits := by
  obtain ⟨bytes', hread, heq⟩ := Option.map_eq_some_iff.1 h
  obtain ⟨n, hdigits, -⟩ := Option.bind_eq_some_iff.1 hread
  refine ⟨congrArg Prod.snd heq, fun hmem => ?_⟩
  have hdigit := exists_digit_of_digitsValue? hdigits _ hmem
  rw [hline] at hdigit
  cases hdigit

theorem exists_chunk_of_unescape? {cs rest : List Char} {bytes : List UInt8}
    (h : unescape? '"' cs = some (bytes, rest)) : ∃ chunk, cs = chunk ++ rest ∧ '\n' ∉ chunk := by
  unfold unescape? at h
  split at h
  · cases h
  · rename_i h₁ h₀ tail
    obtain ⟨rfl, hline⟩ := not_mem_of_digits h (by decide)
    exact ⟨['\\', 'x', h₁, h₀], rfl, by simp_all⟩
  · rename_i h₃ h₂ h₁ h₀ tail
    obtain ⟨rfl, hline⟩ := not_mem_of_digits h (by decide)
    exact ⟨['\\', 'u', h₃, h₂, h₁, h₀], rfl, by simp_all⟩
  · rename_i h₇ h₆ h₅ h₄ h₃ h₂ h₁ h₀ tail
    obtain ⟨rfl, hline⟩ := not_mem_of_digits h (by decide)
    exact ⟨['\\', 'U', h₇, h₆, h₅, h₄, h₃, h₂, h₁, h₀], rfl, by simp_all⟩
  · rename_i c tail _ _ _
    split at h
    · rename_i d hsimple
      cases h
      refine ⟨['\\', c], rfl, ?_⟩
      have hline : c ≠ '\n' := by
        rintro rfl
        cases hsimple
      simp [hline.symm]
    · split at h
      · rename_i o₁ o₀ tail' _ _ _
        obtain ⟨rfl, hline⟩ := not_mem_of_digits h (by decide)
        exact ⟨['\\', c, o₁, o₀], rfl, by simp_all⟩
      · cases h
  · rename_i c tail _ _ _ _
    split at h
    · cases h
    · rename_i hplain
      cases h
      simp only [Bool.or_eq_true, beq_iff_eq, not_or] at hplain
      exact ⟨[c], rfl, fun hmem => hplain.1.2 (List.mem_singleton.1 hmem).symm⟩

theorem not_mem_of_unquoteRest {cs : List Char} {bytes : List UInt8}
    (h : unquoteRest '"' cs = some bytes) : '\n' ∉ cs := by
  fun_induction unquoteRest '"' cs generalizing bytes with
  | case1 => decide
  | case2 => cases h
  | case3 cs _ bytes' rest hunescape ih =>
      obtain ⟨others, hrest, -⟩ := Option.map_eq_some_iff.1 h
      obtain ⟨chunk, rfl, hchunk⟩ := exists_chunk_of_unescape? hunescape
      rw [List.mem_append, not_or]
      exact ⟨hchunk, ih hrest⟩

end Formulary.Text

namespace Formulary.Token

open Formulary.Text

variable {ds : List Char}

theorem exists_cons_of_append_line {cs rest : List Char} {c : Char}
    (h : cs ++ '\n' :: ds = c :: rest) (hc : c ≠ '\n') : ∃ rest', cs = c :: rest' := by
  cases cs with
  | nil => exact absurd (List.cons.inj h).1.symm hc
  | cons d cs => exact ⟨cs, by rw [(List.cons.inj h).1]⟩

theorem skipTrivia_line {mode : TriviaMode} {p q : Position} {cs rest : List Char} {c : Char}
    (h : skipTrivia mode p cs = .ok (q, c :: rest)) :
    skipTrivia mode p (cs ++ '\n' :: ds) = .ok (q, c :: (rest ++ '\n' :: ds)) := by
  fun_induction skipTrivia mode p cs with
  | case1 => cases h
  | case2 p cs ih => exact ih h
  | case3 p cs ih => exact ih h
  | case4 p c' cs hline hblock hblank ih =>
      rw [List.cons_append, skipTrivia, if_pos hblank, ih h]
      · intro rest' hc hcs
        obtain ⟨rest'', hrest⟩ := exists_cons_of_append_line hcs (by decide)
        exact hline _ hc hrest
      · intro rest' hc hcs
        obtain ⟨rest'', hrest⟩ := exists_cons_of_append_line hcs (by decide)
        exact hblock _ hc hrest
  | case5 p c' cs hline hblock hblank =>
      cases h
      rw [List.cons_append, skipTrivia, if_neg hblank]
      · intro rest' hc hcs
        obtain ⟨rest'', hrest⟩ := exists_cons_of_append_line hcs (by decide)
        exact hline _ hc hrest
      · intro rest' hc hcs
        obtain ⟨rest'', hrest⟩ := exists_cons_of_append_line hcs (by decide)
        exact hblock _ hc hrest
  | case6 => cases h
  | case7 p c' cs ih => exact ih h
  | case8 => cases h
  | case9 start p cs ih => exact ih h
  | case10 start p c' cs hclose ih =>
      rw [List.cons_append, skipTrivia, ih h]
      intro rest' hc hcs
      obtain ⟨rest'', hrest⟩ := exists_cons_of_append_line hcs (by decide)
      exact hclose _ hc hrest

theorem cause_of_skipTrivia {mode : TriviaMode} {p : Position} {cs : List Char} {e : ParseError}
    (h : skipTrivia mode p cs = .error e) : e.cause = .unterminatedComment := by
  fun_induction skipTrivia mode p cs <;> simp_all
  subst h
  rfl

theorem closeString_line {cs text rest : List Char}
    (h : closeString (cs ++ '\n' :: ds) = some (text, rest)) (hline : '\n' ∉ text) :
    ∃ rest', closeString cs = some (text, rest') ∧ rest = rest' ++ '\n' :: ds := by
  fun_induction closeString cs generalizing text with
  | case1 => cases h
  | case2 => cases h
  | case3 rest' =>
      cases h
      exact ⟨rest', rfl, rfl⟩
  | case4 c cs ih =>
      obtain ⟨⟨text', rest'⟩, hclose, heq⟩ := Option.map_eq_some_iff.1 h
      cases heq
      simp only [List.mem_cons, not_or] at hline
      obtain ⟨rest'', hclose', hrest⟩ := ih hclose hline.2.2
      exact ⟨rest'', by rw [hclose']; rfl, hrest⟩
  | case5 c cs hnewline hquote hescape ih =>
      by_cases hlast : c = '\\' ∧ cs = []
      · obtain ⟨rfl, rfl⟩ := hlast
        obtain ⟨⟨text', rest'⟩, -, heq⟩ := Option.map_eq_some_iff.1 h
        cases heq
        exact absurd (by simp) hline
      · rw [List.cons_append, closeString] at h
        · obtain ⟨⟨text', rest'⟩, hclose, heq⟩ := Option.map_eq_some_iff.1 h
          cases heq
          simp only [List.mem_cons, not_or] at hline
          obtain ⟨rest'', hclose', hrest⟩ := ih hclose hline.2
          exact ⟨rest'', by rw [hclose']; rfl, hrest⟩
        · exact hnewline
        · exact hquote
        · intro d ds' hc hcs
          cases cs with
          | nil => exact hlast ⟨hc, rfl⟩
          | cons e cs => exact hescape e cs hc rfl

theorem takeWhile_line {p : Char → Bool} (hp : p '\n' = false) (cs : List Char) :
    (cs ++ '\n' :: ds).takeWhile p = cs.takeWhile p := by
  induction cs with
  | nil => simp [hp]
  | cons c cs ih => simp only [List.cons_append, List.takeWhile_cons, ih]

theorem dropWhile_line {p : Char → Bool} (hp : p '\n' = false) (cs : List Char) :
    (cs ++ '\n' :: ds).dropWhile p = cs.dropWhile p ++ '\n' :: ds := by
  induction cs with
  | nil => simp [hp]
  | cons c cs ih =>
      simp only [List.cons_append, List.dropWhile_cons, ih]
      split <;> rfl

theorem spanNumber_line (cs : List Char) :
    spanNumber (cs ++ '\n' :: ds) = ((spanNumber cs).1, (spanNumber cs).2 ++ '\n' :: ds) := by
  have hline : isDigit '\n' = false := by decide
  fun_cases spanNumber cs with
  | case1 whole d rest hdrop hd =>
      rw [spanNumber, dropWhile_line hline, hdrop]
      refine (if_pos hd).trans ?_
      change ((cs ++ '\n' :: ds).takeWhile isDigit ++ '.' :: ((d :: rest) ++ '\n' :: ds).takeWhile isDigit,
        ((d :: rest) ++ '\n' :: ds).dropWhile isDigit) = _
      rw [takeWhile_line hline, takeWhile_line hline, dropWhile_line hline]
  | case2 whole d rest hdrop hd =>
      rw [spanNumber, dropWhile_line hline, hdrop]
      refine (if_neg hd).trans ?_
      rw [takeWhile_line hline]
      rfl
  | case3 whole hother =>
      rw [spanNumber, takeWhile_line hline, dropWhile_line hline]
      split
      · rename_i d rest heq
        obtain ⟨rest', hdrop⟩ := exists_cons_of_append_line heq (by decide)
        rw [hdrop] at heq
        split
        · rename_i hd
          have hne : d ≠ '\n' := by
            rintro rfl
            cases hline.symm.trans hd
          obtain ⟨rest'', rfl⟩ := exists_cons_of_append_line (List.cons.inj heq).2 hne
          exact absurd hdrop (hother d rest'')
        · rw [hdrop, heq]
      · rfl

theorem scanLexeme_line {c : Char} {cs text rest : List Char} {kind : Kind}
    (h : scanLexeme c (cs ++ '\n' :: ds) = .ok (kind, text, rest)) :
    ∃ rest', scanLexeme c cs = .ok (kind, text, rest') ∧ rest = rest' ++ '\n' :: ds := by
  unfold scanLexeme at h
  split at h
  · rename_i rest'' heq
    obtain ⟨cs', rfl⟩ := exists_cons_of_append_line heq (by decide)
    cases heq
    cases h
    exact ⟨cs', rfl, rfl⟩
  · rename_i rest'' heq
    obtain ⟨cs', rfl⟩ := exists_cons_of_append_line heq (by decide)
    cases heq
    cases h
    exact ⟨cs', rfl, rfl⟩
  · rename_i rest'' heq
    obtain ⟨cs', rfl⟩ := exists_cons_of_append_line heq (by decide)
    cases heq
    cases h
    exact ⟨cs', rfl, rfl⟩
  · split at h
    · cases h
    · rename_i hclose
      split at h
      · rename_i hvalue
        cases h
        obtain ⟨bytes, hbytes⟩ := Option.isSome_iff_exists.1 hvalue
        obtain ⟨rest', hclose', hrest⟩ := closeString_line hclose (not_mem_of_unquoteRest hbytes)
        exact ⟨rest', scanLexeme_of_closeString hclose' hvalue, hrest⟩
      · cases h
  · rename_i c _ _ hquote harrow hfat hdouble
    rw [scanLexeme]
    · cases hsymbol : symbolKind? c with
      | some kind =>
          rw [hsymbol] at h
          cases h
          exact ⟨cs, rfl, rfl⟩
      | none =>
          rw [hsymbol] at h
          dsimp only at h ⊢
          by_cases hdigit : isDigit c = true
          · rw [if_pos hdigit, ← List.cons_append, spanNumber_line] at h
            cases h
            rw [if_pos hdigit]
            exact ⟨_, rfl, rfl⟩
          · rw [if_neg hdigit] at h ⊢
            by_cases hname : isNameStart c = true
            · rw [if_pos hname, takeWhile_line (by decide), dropWhile_line (by decide)] at h
              cases h
              rw [if_pos hname]
              exact ⟨_, rfl, rfl⟩
            · rw [if_neg hname] at h
              cases h
    · exact hquote
    · rintro rest' hc rfl
      exact harrow _ hc rfl
    · rintro rest' hc rfl
      exact hfat _ hc rfl
    · rintro rest' hc rfl
      exact hdouble _ hc rfl

theorem tokensFrom_of_skipTrivia {p q : Position} {cs rest : List Char} {c : Char}
    (h : skipTrivia .between p cs = .ok (q, c :: rest)) :
    tokensFrom p cs =
      match scanLexeme c rest with
      | .error cause => .error ⟨q, cause⟩
      | .ok (kind, text, rest') =>
        (tokensFrom (q.after text) rest').map (⟨kind, String.ofList text, q⟩ :: ·) := by
  rw [tokensFrom]
  split
  · rename_i heq
    cases h.symm.trans heq
  · rename_i heq
    cases h.symm.trans heq
  · rename_i heq
    cases h.symm.trans heq
    split
    · rename_i heq
      rw [heq]
    · rename_i heq
      rw [heq]

theorem exists_of_map_ok {ε α β : Type} {x : Except ε α} {f : α → β} {b : β}
    (h : x.map f = .ok b) : ∃ a, x = .ok a ∧ f a = b := by
  cases x with
  | error e => cases h
  | ok a =>
      cases h
      exact ⟨a, rfl, rfl⟩

theorem ne_nil_of_tokensFrom {p : Position} {cs : List Char} {ts : List Token}
    (h : tokensFrom p cs = .ok ts) : ts ≠ [] := by
  rw [tokensFrom] at h
  split at h
  · cases h
  · cases h
    exact List.cons_ne_nil _ _
  · split at h
    · cases h
    · obtain ⟨others, -, rfl⟩ := exists_of_map_ok h
      exact List.cons_ne_nil _ _

theorem tokensFrom_line {p : Position} {cs : List Char} {ts : List Token}
    (h : tokensFrom p (cs ++ '\n' :: ds) = .ok ts) :
    (∃ e, tokensFrom p cs = .error e ∧ e.cause = .unterminatedComment) ∨
      ∃ us q, tokensFrom p cs = .ok (us ++ [⟨.endOfInput, "", q⟩]) ∧
        ∃ more, more ≠ [] ∧ ts = us ++ more := by
  fun_induction tokensFrom p cs generalizing ts with
  | case1 p cs e htrivia => exact .inl ⟨e, rfl, cause_of_skipTrivia htrivia⟩
  | case2 p cs q htrivia => exact .inr ⟨[], q, rfl, ts, ne_nil_of_tokensFrom h, rfl⟩
  | case3 p cs q c rest htrivia cause hlexeme =>
      rw [tokensFrom_of_skipTrivia (skipTrivia_line htrivia)] at h
      split at h
      · cases h
      · rename_i hline
        obtain ⟨rest'', hlexeme', -⟩ := scanLexeme_line hline
        cases hlexeme.symm.trans hlexeme'
  | case4 p cs q c rest htrivia kind text rest' hlexeme ih =>
      rw [tokensFrom_of_skipTrivia (skipTrivia_line htrivia)] at h
      split at h
      · cases h
      · rename_i hline
        obtain ⟨rest'', hlexeme', rfl⟩ := scanLexeme_line hline
        cases hlexeme.symm.trans hlexeme'
        obtain ⟨others, htokens, rfl⟩ := exists_of_map_ok h
        obtain ⟨e, herror, hcause⟩ | ⟨us, q', hfront, more, hmore, rfl⟩ := ih htokens
        · exact .inl ⟨e, by rw [herror]; rfl, hcause⟩
        · refine .inr ⟨⟨kind, String.ofList text, q⟩ :: us, q', ?_, more, hmore, rfl⟩
          rw [hfront]
          rfl

end Formulary.Token

namespace Formulary

open Token Text Formulary.Parser

/-- Bringing a text to its canonical form does not act across the end of a line. -/
def SplitsAtLine (front back : String) : Prop :=
  canonical (front ++ "\n" ++ back).toList = canonical front.toList ++ '\n' :: canonical back.toList

theorem splitsAtLine_of_all_lt {front back : String} (h : front.toList.all (·.toNat < 0x300) = true)
    (h' : back.toList.all (·.toNat < 0x300) = true) : SplitsAtLine front back := by
  have hline : (front ++ "\n" ++ back).toList = front.toList ++ '\n' :: back.toList := by
    rw [String.toList_append, String.toList_append, List.append_assoc]
    rfl
  rw [SplitsAtLine, hline, canonical_of_all_lt h, canonical_of_all_lt h', canonical_of_all_lt]
  rw [List.all_append, List.all_cons, h, h']
  rfl

/-- Reading goes well, or fails for what may still come. -/
def Continuable {α : Type} (r : Except ParseError α) : Prop :=
  (∃ a, r = .ok a) ∨ ∃ e, r = .error e ∧ e.isIncomplete = true

theorem Continuable.of_ends {α : Type} {r : Except ParseError α}
    (h : Ends (fun _ => True) (·.isIncomplete = true) r) : Continuable r := by
  cases r with
  | ok a => exact .inl ⟨a, rfl⟩
  | error e => exact .inr ⟨e, rfl, h⟩

theorem inputOf_line {front back : String} (hsplits : SplitsAtLine front back) {ts : List Token}
    {finish : Position} (h : inputOf (front ++ "\n" ++ back) = .ok (ts, finish)) :
    (∃ e, inputOf front = .error e ∧ e.isIncomplete = true) ∨
      ∃ us finish' more, inputOf front = .ok (us, finish') ∧ ts = us ++ more := by
  cases hwhole : tokenize (front ++ "\n" ++ back) with
  | error e =>
      rw [inputOf, hwhole] at h
      cases h
  | ok tokens =>
      rw [inputOf, hwhole] at h
      cases h
      rw [tokenize, hsplits] at hwhole
      obtain ⟨e, herror, hcause⟩ | ⟨us, q, hfront, more, hmore, rfl⟩ := tokensFrom_line hwhole
      · refine .inl ⟨e, ?_, ?_⟩
        · rw [inputOf, tokenize, herror]
          rfl
        · rw [ParseError.isIncomplete, hcause]
          rfl
      · refine .inr ⟨us, q, more.dropLast, ?_, List.dropLast_append_of_ne_nil hmore⟩
        rw [inputOf, tokenize, hfront]
        simp [pure, Except.pure, bind, Except.bind]

theorem Expr.continuable_of_parse {front back : String} (hsplits : SplitsAtLine front back) {e : Expr}
    (h : Expr.parse (front ++ "\n" ++ back) = .ok e) : Continuable (Expr.parse front) := by
  cases hinput : inputOf (front ++ "\n" ++ back) with
  | error err =>
      rw [Expr.parse, hinput] at h
      cases h
  | ok input =>
      obtain ⟨ts, finish⟩ := input
      rw [Expr.parse, hinput] at h
      obtain ⟨err, herror, hincomplete⟩ | ⟨us, finish', more, hfront, rfl⟩ := inputOf_line hsplits hinput
      · exact .inr ⟨err, by rw [Expr.parse, herror]; rfl, hincomplete⟩
      · refine .of_ends ?_
        rw [Expr.parse, hfront]
        refine (expr_foresees 0 us more).ends h ?_ fun _ _ => trivial
        intro x rest hx hx' hrest
        dsimp only at hrest ⊢
        cases rest with
        | nil => trivial
        | cons t rest => cases hrest

theorem Declaration.continuable_of_parseAll {front back : String} (hsplits : SplitsAtLine front back)
    {ds : List Declaration} (h : Declaration.parseAll (front ++ "\n" ++ back) = .ok ds) :
    Continuable (Declaration.parseAll front) := by
  cases hinput : inputOf (front ++ "\n" ++ back) with
  | error err =>
      rw [Declaration.parseAll, hinput] at h
      cases h
  | ok input =>
      obtain ⟨ts, finish⟩ := input
      rw [Declaration.parseAll, hinput] at h
      obtain ⟨err, herror, hincomplete⟩ | ⟨us, finish', more, hfront, rfl⟩ := inputOf_line hsplits hinput
      · exact .inr ⟨err, by rw [Declaration.parseAll, herror]; rfl, hincomplete⟩
      · refine .of_ends ?_
        rw [Declaration.parseAll, hfront]
        exact declarations_ahead us more h

end Formulary
