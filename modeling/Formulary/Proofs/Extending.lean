import Formulary.Proofs.Foresight
import Formulary.Proofs.Printing

namespace Formulary.Parser

variable {α β : Type} {q q' : α × List Token → Prop} {s s' : β × List Token → Prop}
  {finish finish' : Position} {more us : List Token}

/-- Where reading a front of the tokens goes well, reading all of them gives the same, and leaves in
addition the tokens behind the front. -/
def Extends (more : List Token) (front : Except ParseError { r : α × List Token // q' r })
    (whole : Except ParseError { r : α × List Token // q r }) : Prop :=
  ∀ x rest h', front = .ok ⟨(x, rest), h'⟩ → ∃ h, whole = .ok ⟨(x, rest ++ more), h⟩

theorem extends_ok {x : α} {rest : List Token} {h : q (x, rest ++ more)} {h' : q' (x, rest)} :
    Extends more (.ok ⟨(x, rest), h'⟩) (.ok ⟨(x, rest ++ more), h⟩) := by
  rintro _ _ _ ⟨⟩
  exact ⟨h, rfl⟩

/-- Where nothing of the front is left over, what stands behind it is left over. -/
theorem extends_ok_all {x : α} {h : q (x, more)} {h' : q' (x, [])} :
    Extends more (.ok ⟨(x, []), h'⟩) (.ok ⟨(x, more), h⟩) := by
  rintro _ _ _ ⟨⟩
  exact ⟨h, rfl⟩

theorem extends_failAt {cause : ParseError.Found → ParseError.Cause} {ts : List Token}
    {whole : Except ParseError { r : α × List Token // q r }} :
    Extends more (failAt finish cause ts : Except ParseError { r : α × List Token // q' r })
      whole := by
  cases ts <;> exact fun _ _ _ h => nomatch h

theorem Extends.of_nil {front : Step α []}
    {f : { r : α × List Token // r.2.length < ([] : List Token).length } →
      Except ParseError { r : β × List Token // s' r }}
    {whole : Except ParseError { r : β × List Token // s r }} :
    Extends more (front >>= f) whole := by
  cases front with
  | error e => exact fun _ _ _ h => nomatch h
  | ok r => exact absurd r.2 (Nat.not_lt_zero _)

theorem Extends.bind {front : Except ParseError { r : α × List Token // q' r }}
    {whole : Except ParseError { r : α × List Token // q r }}
    {f' : { r : α × List Token // q' r } → Except ParseError { r : β × List Token // s' r }}
    {f : { r : α × List Token // q r } → Except ParseError { r : β × List Token // s r }}
    (h : Extends more front whole)
    (hsame : ∀ x rest h h', Extends more (f' ⟨(x, rest), h'⟩) (f ⟨(x, rest ++ more), h⟩)) :
    Extends more (front >>= f') (whole >>= f) := by
  cases front with
  | error e => exact fun _ _ _ h => nomatch h
  | ok r =>
      obtain ⟨⟨x, rest⟩, h'⟩ := r
      obtain ⟨hwhole, rfl⟩ := h x rest h' rfl
      exact hsame x rest hwhole h'

theorem Extends.ite {c : Prop} [Decidable c]
    {front front' : Except ParseError { r : α × List Token // q' r }}
    {whole whole' : Except ParseError { r : α × List Token // q r }}
    (hthen : c → Extends more front whole) (helse : ¬c → Extends more front' whole') :
    Extends more (if c then front else front') (if c then whole else whole') := by
  by_cases h : c
  · rw [if_pos h, if_pos h]
    exact hthen h
  · rw [if_neg h, if_neg h]
    exact helse h

theorem need_extends (kind : Token.Kind) (context : String) (us more : List Token) :
    Extends more (need finish' kind context us) (need finish kind context (us ++ more)) := by
  cases us with
  | nil =>
      unfold need
      exact extends_failAt
  | cons t us =>
      unfold need
      exact Extends.ite (fun _ => extends_ok) fun _ => extends_failAt

section Lists

variable {close : Token.Kind} {context : String}

theorem commaItems_extends {n n' : Nat} {item : (ts : List Token) → ts.length ≤ n → Step α ts}
    {item' : (ts : List Token) → ts.length ≤ n' → Step α ts}
    (hitem : ∀ us h h', Extends more (item' us h') (item (us ++ more) h)) (us : List Token)
    (h : (us ++ more).length ≤ n) (h' : us.length ≤ n') :
    Extends more (commaItems finish' close context item' us h')
      (commaItems finish close context item (us ++ more) h) := by
  rw [commaItems, commaItems]
  refine (hitem us h h').bind ?_
  intro x rest hx hx'
  dsimp only
  refine skip_ahead .comma rest more ?_ ?_
  · intro b rest' hb hb'
    dsimp only
    refine Extends.ite (fun _ => ?_) fun _ => ?_
    · exact (commaItems_extends hitem rest' _ _).bind fun _ _ _ _ => extends_ok
    · exact (need_extends close context rest' more).bind fun _ _ _ _ => extends_ok
  · intro w b hb'
    cases b with
    | true => exact Extends.of_nil
    | false => exact Extends.of_nil
termination_by us.length
decreasing_by grind

theorem commaList_extends {us more : List Token}
    {item : (ts : List Token) → ts.length ≤ (us ++ more).length → Step α ts}
    {item' : (ts : List Token) → ts.length ≤ us.length → Step α ts}
    (hitem : ∀ ts h h', Extends more (item' ts h') (item (ts ++ more) h)) :
    Extends more (commaList finish' close context us item')
      (commaList finish close context (us ++ more) item) := by
  cases us with
  | nil =>
      rw [commaList, commaItems]
      exact Extends.of_nil
  | cons t us =>
      simp only [List.cons_append, commaList]
      refine Extends.ite (fun _ => extends_ok) fun _ => ?_
      exact commaItems_extends hitem (t :: us) _ _

end Lists

theorem not_leftParen_of_stops {t : Token} (h : stops (t :: us) = true) : t.kind ≠ .leftParen := by
  simp only [stops, List.head?_cons, Option.all_some, Bool.and_eq_true, decide_eq_true_eq] at h
  exact h.2

theorem pattern_extends (us : List Token) {more : List Token} (hstops : stops more = true) :
    Extends more (pattern finish' us) (pattern finish (us ++ more)) := by
  cases us with
  | nil =>
      rw [pattern.eq_def]
      exact extends_failAt
  | cons token rest =>
      obtain ⟨kind, lexeme, p⟩ := token
      rw [List.cons_append, pattern.eq_def, pattern.eq_def]
      dsimp only
      split
      · exact extends_ok
      · exact extends_ok
      · exact extends_ok
      · exact (need_extends .number _ rest more).bind fun _ _ _ _ => extends_ok
      · rcases rest with _ | ⟨u, rest'⟩
        · rcases more with _ | ⟨t, more⟩
          · exact extends_ok_all
          · dsimp only [List.nil_append]
            rw [if_neg (not_leftParen_of_stops hstops)]
            exact extends_ok_all
        · dsimp only [List.cons_append]
          refine Extends.ite (fun _ => ?_) fun _ => extends_ok
          exact (commaList_extends fun ts _ _ => pattern_extends ts hstops).bind
            fun _ _ _ _ => extends_ok
      · exact extends_failAt
termination_by us.length
decreasing_by all_goals grind

theorem startsWithFactor_append (n : Token) (rest : List Token) {more : List Token}
    (hstops : stops more = true) :
    startsWithFactor (n :: (rest ++ more)) = startsWithFactor (n :: rest) := by
  cases rest with
  | cons u rest => rfl
  | nil =>
      cases more with
      | nil => rfl
      | cons t more =>
          have hpower : t.kind ≠ .power := by
            intro hpower
            simp [stops, hpower, binaryOperator?] at hstops
          simp [startsWithFactor, hpower]

mutual

theorem expr_extends (bound : Nat) (us : List Token) {more : List Token}
    (hstops : stops more = true) :
    Extends more (expr finish' bound us) (expr finish bound (us ++ more)) := by
  rw [expr, expr]
  refine (operand_extends us hstops).bind ?_
  intro left rest h h'
  exact (operators_extends bound left rest hstops).bind fun _ _ _ _ => extends_ok
termination_by (us.length, 1)
decreasing_by all_goals grind

theorem operators_extends (bound : Nat) (left : Expr) (us : List Token) {more : List Token}
    (hstops : stops more = true) :
    Extends more (operators finish' bound left us) (operators finish bound left (us ++ more)) := by
  match us with
  | [] =>
      rw [List.nil_append, operators_of_stops _ _ _ hstops, operators]
      exact extends_ok_all
  | t :: rest =>
      rw [List.cons_append, operators, operators]
      split
      · exact extends_ok
      · rename_i op hop
        refine Extends.ite (fun _ => extends_ok) fun _ => ?_
        refine (expr_extends op.bound rest hstops).bind ?_
        intro right rest' h h'
        exact (operators_extends bound _ rest' hstops).bind fun _ _ _ _ => extends_ok
termination_by (us.length, 0)
decreasing_by all_goals grind

theorem operand_extends (us : List Token) {more : List Token} (hstops : stops more = true) :
    Extends more (operand finish' us) (operand finish (us ++ more)) := by
  cases us with
  | nil =>
      rw [operand.eq_def]
      exact extends_failAt
  | cons token rest =>
      obtain ⟨kind, lexeme, p⟩ := token
      rw [List.cons_append, operand.eq_def, operand.eq_def]
      dsimp only
      split
      · exact extends_ok
      · exact extends_ok
      · match rest with
        | [] => exact extends_failAt
        | n :: rest' =>
            dsimp only [List.cons_append]
            rw [startsWithFactor_append n rest' hstops]
            refine Extends.ite (fun _ => extends_ok) fun _ => ?_
            exact (expr_extends negationStrength (n :: rest') hstops).bind
              fun _ _ _ _ => extends_ok
      · rcases rest with _ | ⟨u, rest'⟩
        · rcases more with _ | ⟨t, more⟩
          · exact extends_ok_all
          · dsimp only [List.nil_append]
            rw [if_neg (not_leftParen_of_stops hstops)]
            exact extends_ok_all
        · dsimp only [List.cons_append]
          refine Extends.ite (fun _ => ?_) fun _ => extends_ok
          exact (commaList_extends fun ts _ _ => expr_extends 0 ts hstops).bind
            fun _ _ _ _ => extends_ok
      · refine (expr_extends 0 rest hstops).bind ?_
        intro inner rest' h h'
        exact (need_extends .rightParen _ rest' more).bind fun _ _ _ _ => extends_ok
      · refine (expr_extends 0 rest hstops).bind ?_
        intro scrutinee rest₁ h h'
        refine (need_extends .leftBrace _ rest₁ more).bind ?_
        intro brace rest₂ hbrace hbrace'
        dsimp only
        refine skip_ahead .bar rest₂ more ?_ ?_
        · intro b rest₃ hbar hbar'
          exact (matchCases_extends rest₃ hstops).bind fun _ _ _ _ => extends_ok
        · intro w b hbar'
          exact Extends.of_nil
      · exact extends_failAt
termination_by (us.length, 0)
decreasing_by all_goals grind

theorem matchCases_extends (us : List Token) {more : List Token} (hstops : stops more = true) :
    Extends more (matchCases finish' us) (matchCases finish (us ++ more)) := by
  match us with
  | [] =>
      rw [matchCases.eq_def]
      exact extends_failAt
  | t :: rest =>
      rw [List.cons_append, matchCases, matchCases]
      refine Extends.ite (fun _ => extends_ok) fun _ => ?_
      refine (pattern_extends (t :: rest) hstops).bind ?_
      intro pat rest₁ h h'
      refine (need_extends .fatArrow _ rest₁ more).bind ?_
      intro arrow rest₂ harrow harrow'
      refine (expr_extends 0 rest₂ hstops).bind ?_
      intro body rest₃ hbody hbody'
      match rest₃ with
      | [] => exact extends_failAt
      | u :: rest₄ =>
          dsimp only [List.cons_append]
          refine Extends.ite (fun _ => ?_) fun _ => ?_
          · exact (matchCases_extends rest₄ hstops).bind fun _ _ _ _ => extends_ok
          · exact Extends.ite (fun _ => extends_ok) fun _ => extends_failAt
termination_by (us.length, 0)
decreasing_by all_goals grind

end

end Formulary.Parser
