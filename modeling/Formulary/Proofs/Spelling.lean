import Formulary.Proofs.Printing

namespace Formulary

open Token Text

/-- Whether a token that is shown as it is written is one by itself. -/
def Token.isSpelled (t : Token) : Bool := !t.kind.isText || isLexeme t.kind t.lexeme

theorem isSpelled_of_tokensFrom {p : Position} {cs : List Char} {ts : List Token}
    (h : tokensFrom p cs = .ok ts) : ∀ t ∈ ts, t.isSpelled = true := by
  fun_induction tokensFrom p cs generalizing ts with
  | case1 => cases h
  | case2 p cs q hend =>
      cases h
      simp [Token.isSpelled, Kind.isText]
  | case3 => cases h
  | case4 p cs q c rest htrivia kind text rest' hlexeme ih =>
      cases hrest : tokensFrom (q.after text) rest' with
      | error e =>
          rw [hrest] at h
          cases h
      | ok others =>
          rw [hrest] at h
          cases h
          refine List.forall_mem_cons.2 ⟨?_, ih hrest⟩
          cases hkind : kind.isText with
          | false => simp [Token.isSpelled, hkind]
          | true => simp [Token.isSpelled, isLexeme_of_scanLexeme hlexeme hkind]

namespace Pattern

theorem isWellFormedList_plainList {ps : List Pattern} :
    isWellFormedList (plainList ps) = true ↔ ∀ p ∈ ps, p.plain.isWellFormed = true := by
  induction ps with
  | nil => simp [plainList, isWellFormedList]
  | cons p ps ih => rw [plainList, isWellFormedList, Bool.and_eq_true, ih, List.forall_mem_cons]

theorem isWellFormed_bare {name : String} (h : isName name = true) :
    (if Parser.isConstructorName name then Pattern.constructor name [] else .var name).isWellFormed
      = true := by
  by_cases hname : Parser.isConstructorName name = true
  · rw [if_pos hname, isWellFormed, h, hname]
    rfl
  · rw [if_neg hname, isWellFormed, h]
    simpa using hname

theorem plain_bare (name : String) :
    (if Parser.isConstructorName name then Pattern.constructor name [] else .var name).plain =
      if Parser.isConstructorName name then .constructor name [] else .var name := by
  by_cases hname : Parser.isConstructorName name = true
  · rw [if_pos hname, plain, if_pos hname]
  · rw [if_neg hname, plain]

theorem isWellFormed_plain_application {name : String} (h : isName name = true) {args : List Pattern}
    (hargs : ∀ p ∈ args, p.plain.isWellFormed = true) :
    (Pattern.constructor name args).plain.isWellFormed = true := by
  cases args with
  | nil => exact isWellFormed_bare h
  | cons p ps =>
      rw [plain, isWellFormed, h, hargs p (List.mem_cons_self ..), isWellFormedList_plainList.2]
      · rfl
      · exact fun q hq => hargs q (List.mem_cons_of_mem _ hq)

mutual

theorem render_plain : (p : Pattern) → p.plain.render = p.render
  | .wildcard | .var _ | .const _ => rfl
  | .constructor name [] => by
      rw [plain]
      split <;> rfl
  | .constructor name (p :: ps) => by
      rw [plain, render, render, p.render_plain, renderRest_plainList ps]

theorem renderRest_plainList : (ps : List Pattern) → renderRest (plainList ps) = renderRest ps
  | [] => rfl
  | p :: ps => by rw [plainList, renderRest, renderRest, p.render_plain, renderRest_plainList ps]

end

end Pattern

namespace Expr

theorem isWellFormedList_plainList {es : List Expr} :
    isWellFormedList (plainList es) = true ↔ ∀ e ∈ es, e.plain.isWellFormed = true := by
  induction es with
  | nil => simp [plainList, isWellFormedList]
  | cons e es ih => rw [plainList, isWellFormedList, Bool.and_eq_true, ih, List.forall_mem_cons]

theorem isWellFormed_plain_operation {name : String} (h : isName name = true) {args : List Expr}
    (hargs : ∀ e ∈ args, e.plain.isWellFormed = true) :
    (Expr.operation name args).plain.isWellFormed = true := by
  cases args with
  | nil => exact h
  | cons e es =>
      rw [plain, isWellFormed, h, hargs e (List.mem_cons_self ..), isWellFormedList_plainList.2]
      · rfl
      · exact fun a ha => hargs a (List.mem_cons_of_mem _ ha)

mutual

theorem render_plain : (e : Expr) → e.plain.render = e.render
  | .blank | .const _ | .object _ => rfl
  | .operation name [] => rfl
  | .operation name (e :: es) => by
      rw [plain, render, render, e.render_plain, renderRest_plainList es]
  | .matching scrutinee [] => by
      rw [plain, plainCases, render, render, scrutinee.render_plain]
  | .matching scrutinee ((p, body) :: rest) => by
      rw [plain, plainCases, render, render, scrutinee.render_plain, p.render_plain,
        body.render_plain, renderCases_plainCases rest]

theorem renderRest_plainList : (es : List Expr) → renderRest (plainList es) = renderRest es
  | [] => rfl
  | e :: es => by rw [plainList, renderRest, renderRest, e.render_plain, renderRest_plainList es]

theorem renderCases_plainCases : (cases : List (Pattern × Expr)) →
    renderCases (plainCases cases) = renderCases cases
  | [] => rfl
  | (p, body) :: rest => by
      rw [plainCases, renderCases, renderCases, p.render_plain, body.render_plain,
        renderCases_plainCases rest]

end

end Expr

namespace Parser

variable {α : Type} {p : α → Prop}

def Spelled (ts : List Token) : Prop := ∀ t ∈ ts, t.isSpelled = true

/-- A step reads something with a property and leaves spelled tokens. -/
abbrev Spells {q : α × List Token → Prop} (p : α → Prop)
    (step : Except ParseError { r : α × List Token // q r }) : Prop :=
  Ends (fun r => p r.1.1 ∧ Spelled r.1.2) (fun _ => True) step

theorem Spelled.tail {t : Token} {ts : List Token} (h : Spelled (t :: ts)) : Spelled ts :=
  fun u hu => h u (List.mem_cons_of_mem _ hu)

theorem Spelled.isLexeme {t : Token} {ts : List Token} (h : Spelled (t :: ts))
    (hkind : t.kind.isText = true) : isLexeme t.kind t.lexeme = true := by
  have hspelled := h t (List.mem_cons_self ..)
  rw [Token.isSpelled, hkind] at hspelled
  exact hspelled

theorem need_spells {finish : Position} {kind : Kind} {context : String} {ts : List Token}
    (h : Spelled ts) :
    Spells (fun t => kind.isText = true → isLexeme kind t.lexeme = true) (need finish kind context ts)
    := by
  cases ts with
  | nil => trivial
  | cons t rest =>
      rw [need]
      split
      · rename_i hkind
        exact ⟨fun htext => hkind ▸ h.isLexeme (hkind ▸ htext), h.tail⟩
      · exact ends_failAt

theorem Spelled.skip {kind : Kind} {ts : List Token} (h : Spelled ts) : Spelled (skip kind ts).1.2 := by
  cases ts with
  | nil => exact h
  | cons t rest =>
      rw [Parser.skip]
      split
      · exact h.tail
      · exact h

theorem commaItems_spells {n : Nat} {finish : Position} {close : Token.Kind} {context : String}
    {item : (ts : List Token) → ts.length ≤ n → Step α ts}
    (hitem : ∀ ts h, Spelled ts → Spells p (item ts h)) (ts : List Token) (h : ts.length ≤ n)
    (hts : Spelled ts) : Spells (∀ x ∈ ·, p x) (commaItems finish close context item ts h) := by
  rw [commaItems]
  refine (hitem ts h hts).bind ?_
  rintro ⟨⟨x, rest⟩, hx⟩ ⟨hp, hrest⟩
  have hskip := (Parser.skip .comma rest).2
  dsimp only
  split
  · refine (commaItems_spells hitem (Parser.skip .comma rest).1.2 _ hrest.skip).bind ?_
    rintro ⟨⟨xs, rest''⟩, hxs⟩ ⟨hps, hrest''⟩
    exact ⟨List.forall_mem_cons.2 ⟨hp, hps⟩, hrest''⟩
  · refine (need_spells hrest.skip).bind ?_
    rintro ⟨⟨_, rest''⟩, hclose⟩ ⟨-, hrest''⟩
    exact ⟨List.forall_mem_singleton.2 hp, hrest''⟩
termination_by ts.length
decreasing_by grind

theorem commaList_spells {finish : Position} {close : Token.Kind} {context : String}
    {ts : List Token} {item : (us : List Token) → us.length ≤ ts.length → Step α us}
    (hitem : ∀ us h, Spelled us → Spells p (item us h)) (hts : Spelled ts) :
    Spells (∀ x ∈ ·, p x) (commaList finish close context ts item) := by
  cases ts with
  | nil => exact commaItems_spells hitem _ _ hts
  | cons t rest =>
      simp only [commaList]
      split
      · exact ⟨by simp, hts.tail⟩
      · exact commaItems_spells hitem _ _ hts

theorem isLiteral_of_isLexeme {kind : Kind} {text : String} (hkind : kind = .number ∨ kind = .string)
    (h : isLexeme kind text = true) : isLiteral text = true := by
  rcases hkind with rfl | rfl
  · simp [isLiteral, h]
  · simp [isLiteral, h]

theorem isLiteral_neg {digits : String} (h : isLexeme .number digits = true) :
    isLiteral ("-" ++ digits) = true := by
  have hnegative : isNegative ("-" ++ digits) = true := by
    rw [isNegative, String.toList_append]
    show isLexeme .number (String.ofList digits.toList) = true
    rw [String.ofList_toList]
    exact h
  simp [isLiteral, hnegative]

theorem pattern_spells (finish : Position) (ts : List Token) (hts : Spelled ts) :
    Spells (·.plain.isWellFormed = true) (pattern finish ts) := by
  match ts, hts with
  | [], _ =>
      rw [pattern.eq_def]
      dsimp only
      exact ends_failAt
  | t :: rest, hts =>
      rw [pattern.eq_def]
      dsimp only
      split
      · exact ⟨rfl, hts.tail⟩
      · rename_i hkind
        exact ⟨isLiteral_of_isLexeme (.inl hkind) (hts.isLexeme (by rw [hkind]; rfl)), hts.tail⟩
      · rename_i hkind
        exact ⟨isLiteral_of_isLexeme (.inr hkind) (hts.isLexeme (by rw [hkind]; rfl)), hts.tail⟩
      · refine (need_spells hts.tail).bind ?_
        rintro ⟨⟨n, rest'⟩, hn⟩ ⟨hnumber, hrest⟩
        exact ⟨isLiteral_neg (hnumber rfl), hrest⟩
      · rename_i hkind
        have hname : isName t.lexeme = true := by
          rw [isName, ← hkind]
          exact hts.isLexeme (by rw [hkind]; rfl)
        have hbare := Pattern.isWellFormed_bare hname
        rw [← Pattern.plain_bare] at hbare
        split
        · exact ⟨hbare, hts.tail⟩
        · rename_i u rest'
          split
          · refine (commaList_spells (fun us _ hus => pattern_spells finish us hus) hts.tail.tail).bind ?_
            rintro ⟨⟨args, rest''⟩, hargs⟩ ⟨hall, hrest⟩
            exact ⟨Pattern.isWellFormed_plain_application hname hall, hrest⟩
          · exact ⟨hbare, hts.tail⟩
      · exact ends_failAt
termination_by ts.length
decreasing_by grind

theorem isName_of_binaryOperator? {kind : Kind} {op : BinaryOperator}
    (h : binaryOperator? kind = some op) : isName op.name = true := by
  unfold binaryOperator? at h
  split at h
  all_goals first
    | (cases h; decide +kernel)
    | cases h

mutual

theorem expr_spells (finish : Position) (bound : Nat) (ts : List Token) (hts : Spelled ts) :
    Spells (·.plain.isWellFormed = true) (expr finish bound ts) := by
  rw [expr]
  refine (operand_spells finish ts hts).bind ?_
  rintro ⟨⟨left, rest⟩, hleft⟩ ⟨hl, hrest⟩
  refine (operators_spells finish bound left rest hl hrest).bind ?_
  rintro ⟨⟨e, rest'⟩, he⟩ hend
  exact hend
termination_by (ts.length, 1)
decreasing_by all_goals grind

theorem operators_spells (finish : Position) (bound : Nat) (left : Expr) (ts : List Token)
    (hleft : left.plain.isWellFormed = true) (hts : Spelled ts) :
    Spells (·.plain.isWellFormed = true) (operators finish bound left ts) := by
  match ts, hts with
  | [], hts =>
      rw [operators]
      exact ⟨hleft, hts⟩
  | t :: rest, hts =>
      rw [operators]
      split
      · exact ⟨hleft, hts⟩
      · rename_i op hop
        split
        · exact ⟨hleft, hts⟩
        · refine (expr_spells finish op.bound rest hts.tail).bind ?_
          rintro ⟨⟨right, rest'⟩, hright⟩ ⟨hr, hrest⟩
          have hboth : ∀ e ∈ [left, right], e.plain.isWellFormed = true := by
            simp [hleft, hr]
          refine (operators_spells finish bound (.operation op.name [left, right]) rest'
            (Expr.isWellFormed_plain_operation (isName_of_binaryOperator? hop) hboth) hrest).bind ?_
          rintro ⟨⟨e, rest''⟩, he⟩ hend
          exact hend
termination_by (ts.length, 0)
decreasing_by all_goals grind

theorem operand_spells (finish : Position) (ts : List Token) (hts : Spelled ts) :
    Spells (·.plain.isWellFormed = true) (operand finish ts) := by
  match ts, hts with
  | [], _ =>
      rw [operand.eq_def]
      dsimp only
      exact ends_failAt
  | t :: rest, hts =>
      rw [operand.eq_def]
      dsimp only
      split
      · rename_i hkind
        exact ⟨isLiteral_of_isLexeme (.inl hkind) (hts.isLexeme (by rw [hkind]; rfl)), hts.tail⟩
      · rename_i hkind
        exact ⟨isLiteral_of_isLexeme (.inr hkind) (hts.isLexeme (by rw [hkind]; rfl)), hts.tail⟩
      · split
        · exact ends_failAt
        · rename_i n rest'
          split
          · rename_i hfactor
            have hkind : n.kind = .number := by
              unfold startsWithFactor at hfactor
              split at hfactor <;> simp_all
            have hnumber := hts.tail.isLexeme (by rw [hkind]; rfl)
            rw [hkind] at hnumber
            exact ⟨isLiteral_neg hnumber, hts.tail.tail⟩
          · refine (expr_spells finish negationStrength (n :: rest') hts.tail).bind ?_
            rintro ⟨⟨e, rest''⟩, he⟩ ⟨hinner, hrest⟩
            exact ⟨Expr.isWellFormed_plain_operation (by decide +kernel)
              (List.forall_mem_singleton.2 hinner), hrest⟩
      · rename_i hkind
        have hname : isName t.lexeme = true := by
          rw [isName, ← hkind]
          exact hts.isLexeme (by rw [hkind]; rfl)
        split
        · exact ⟨hname, hts.tail⟩
        · rename_i u rest'
          split
          · refine (commaList_spells (fun us _ hus => expr_spells finish 0 us hus) hts.tail.tail).bind ?_
            rintro ⟨⟨args, rest''⟩, hargs⟩ ⟨hall, hrest⟩
            exact ⟨Expr.isWellFormed_plain_operation hname hall, hrest⟩
          · exact ⟨hname, hts.tail⟩
      · refine (expr_spells finish 0 rest hts.tail).bind ?_
        rintro ⟨⟨inner, rest'⟩, hinner⟩ ⟨hformed, hrest⟩
        refine (need_spells hrest).bind ?_
        rintro ⟨⟨_, rest''⟩, hclose⟩ ⟨-, hrest'⟩
        exact ⟨hformed, hrest'⟩
      · refine (expr_spells finish 0 rest hts.tail).bind ?_
        rintro ⟨⟨scrutinee, rest₁⟩, hscrutinee⟩ ⟨hs, hrest₁⟩
        refine (need_spells hrest₁).bind ?_
        rintro ⟨⟨_, rest₂⟩, hopen⟩ ⟨-, hrest₂⟩
        have hskip := (Parser.skip .bar rest₂).2
        refine (matchCases_spells finish (Parser.skip .bar rest₂).1.2 hrest₂.skip).bind ?_
        rintro ⟨⟨cases, rest₄⟩, hcases⟩ ⟨hall, hrest₄⟩
        refine ⟨?_, hrest₄⟩
        simp only [Expr.plain, Expr.isWellFormed, Bool.and_eq_true]
        exact ⟨hs, hall⟩
      · exact ends_failAt
termination_by (ts.length, 0)
decreasing_by all_goals grind

theorem matchCases_spells (finish : Position) (ts : List Token) (hts : Spelled ts) :
    Spells (fun cases => Expr.isWellFormedCases (Expr.plainCases cases) = true)
      (matchCases finish ts) := by
  match ts, hts with
  | [], _ =>
      rw [matchCases]
      exact ends_failAt
  | t :: rest, hts =>
      rw [matchCases]
      split
      · exact ⟨rfl, hts.tail⟩
      · refine (pattern_spells finish (t :: rest) hts).bind ?_
        rintro ⟨⟨p, rest₁⟩, hp⟩ ⟨hpattern, hrest₁⟩
        refine (need_spells hrest₁).bind ?_
        rintro ⟨⟨_, rest₂⟩, harrow⟩ ⟨-, hrest₂⟩
        refine (expr_spells finish 0 rest₂ hrest₂).bind ?_
        rintro ⟨⟨body, rest₃⟩, hbody⟩ ⟨hformed, hrest₃⟩
        dsimp only
        match rest₃, hbody, hrest₃ with
        | [], _, _ => exact ends_failAt
        | u :: rest₄, hbody, hrest₃ =>
            dsimp only
            split
            · refine (matchCases_spells finish rest₄ hrest₃.tail).bind ?_
              rintro ⟨⟨cases, rest₅⟩, hcases⟩ ⟨hall, hrest₅⟩
              refine ⟨?_, hrest₅⟩
              simp only [Expr.plainCases, Expr.isWellFormedCases, Bool.and_eq_true]
              exact ⟨⟨hpattern, hformed⟩, hall⟩
            · split
              · refine ⟨?_, hrest₃.tail⟩
                simp only [Expr.plainCases, Expr.isWellFormedCases, Bool.and_eq_true]
                exact ⟨⟨hpattern, hformed⟩, trivial⟩
              · exact ends_failAt
termination_by (ts.length, 0)
decreasing_by all_goals grind

end

end Parser

theorem Expr.isWellFormed_of_parse {source : String} {e : Expr} (h : Expr.parse source = .ok e) :
    e.plain.isWellFormed = true := by
  have hparse : Ends (·.plain.isWellFormed = true) (fun _ => True) (Expr.parse source) := by
    unfold Expr.parse Parser.inputOf tokenize
    cases htokens : tokensFrom .start (canonical source.toList) with
    | error e => trivial
    | ok tokens =>
        have hspelled : Parser.Spelled tokens.dropLast := fun t ht =>
          isSpelled_of_tokensFrom htokens t (List.mem_of_mem_dropLast ht)
        refine (Parser.expr_spells _ 0 tokens.dropLast hspelled).bind ?_
        rintro ⟨⟨e, rest⟩, hlt⟩ ⟨hformed, -⟩
        dsimp only
        split
        · exact hformed
        · exact Parser.ends_failAt
  rw [h] at hparse
  exact hparse

/-- Printing is undone by reading: a well-formed expression is read back from its text, as long as
the text is in its canonical form, and what is read from any text is printed like a well-formed
expression, the one that takes names without arguments for what they look like. -/
theorem parse_render :
    (∀ e : Expr, e.isWellFormed = true → canonical e.render.toList = e.render.toList →
      Expr.parse e.render = .ok e) ∧
    ∀ (source : String) (e : Expr), Expr.parse source = .ok e →
      e.plain.isWellFormed = true ∧ e.plain.render = e.render :=
  ⟨fun _ hformed hcanonical => Expr.parse_of_canonical hformed hcanonical,
    fun _ e h => ⟨Expr.isWellFormed_of_parse h, e.render_plain⟩⟩

/-- A match whose cases hold a call, a negative literal, a string and a match without cases. -/
def callsInMatch : Expr :=
  .matching (.object "x") [
    (.constructor "Some" [.var "n", .wildcard], .operation "f" [.object "n", .const "-1.5"]),
    (.constructor "None" [], .matching (.const "\"a\"") [])]

theorem parse_render_match :
    callsInMatch.render =
      "match x \x7b Some(n, _) => f(n, -1.5) | None => match \"a\" \x7b \x7d \x7d" ∧
    Expr.parse callsInMatch.render = .ok callsInMatch ∧ callsInMatch.plain.isWellFormed = true ∧
    callsInMatch.plain.render = callsInMatch.render := by
  have hparse : Expr.parse callsInMatch.render = .ok callsInMatch :=
    parse_render.1 callsInMatch (by decide +kernel) (canonical_of_all_lt (by decide +kernel))
  obtain ⟨hformed, hrender⟩ := parse_render.2 _ _ hparse
  exact ⟨by decide +kernel, hparse, hformed, hrender⟩

end Formulary
