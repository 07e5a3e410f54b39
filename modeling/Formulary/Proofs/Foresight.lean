import Formulary.Parser
import Formulary.Proofs.Steps

/-!
Reading a front of the tokens. Where a step goes well on some tokens, it does the same on a front of
them as long as it does not come to their end; and where it does come to the end, it has read
something that may be a whole, or it fails because more is expected. Each step looks ahead by one or
two tokens only, and takes a missing one for the end.
-/

namespace Formulary.Parser

variable {α β : Type} {q q' : α × List Token → Prop} {s s' : β × List Token → Prop}
  {finish finish' : Position} {more us : List Token}

/-- Reading comes to the end of the tokens, or fails there. -/
abbrev Exhausts (front : Except ParseError { r : α × List Token // q r }) : Prop :=
  Ends (·.1.2 = []) (·.isIncomplete = true) front

/-- Where reading goes well with more tokens behind, reading the front alone gives the same and leaves
the same except for these tokens, or it comes to the end of the tokens or fails there. -/
def Foresees (more : List Token) (whole : Except ParseError { r : α × List Token // q r })
    (front : Except ParseError { r : α × List Token // q' r }) : Prop :=
  match whole with
  | .ok r => Ends (fun r' => r'.1.2 = [] ∨ (r'.1.1 = r.1.1 ∧ r'.1.2 ++ more = r.1.2))
      (·.isIncomplete = true) front
  | .error _ => True

theorem Exhausts.foresees {whole : Except ParseError { r : α × List Token // q r }}
    {front : Except ParseError { r : α × List Token // q' r }} (h : Exhausts front) :
    Foresees more whole front := by
  cases whole with
  | ok r => exact Ends.imp h fun _ => .inl
  | error e => trivial

theorem foresees_ok {x : α} {rest : List Token} {h : q (x, rest ++ more)} {h' : q' (x, rest)} :
    Foresees more (.ok ⟨(x, rest ++ more), h⟩) (.ok ⟨(x, rest), h'⟩) :=
  .inr ⟨rfl, rfl⟩

theorem foresees_failAt {cause : ParseError.Found → ParseError.Cause} {ts : List Token}
    {front : Except ParseError { r : α × List Token // q' r }} :
    Foresees more (failAt finish cause ts : Except ParseError { r : α × List Token // q r })
      front := by
  cases ts <;> trivial

/-- What holds of two looks ahead that agree, and of any two of which the one at the front comes to
the end of the tokens. -/
theorem Foresees.elim {w : { r : α × List Token // q r }} {f : { r : α × List Token // q' r }}
    (h : Foresees more (.ok w) (.ok f))
    {motive : { r : α × List Token // q r } → { r : α × List Token // q' r } → Prop}
    (hsame : ∀ x rest h h', motive ⟨(x, rest ++ more), h⟩ ⟨(x, rest), h'⟩)
    (hend : ∀ w x h', motive w ⟨(x, []), h'⟩) : motive w f := by
  obtain ⟨⟨x, rest⟩, hw⟩ := w
  obtain ⟨⟨x', rest'⟩, hf⟩ := f
  obtain heq | ⟨heq, hrest⟩ := h
  · obtain rfl : rest' = [] := heq
    exact hend _ _ _
  · obtain rfl : x' = x := heq
    obtain rfl : rest' ++ more = rest := hrest
    exact hsame _ _ _ _

theorem Foresees.bind {whole : Except ParseError { r : α × List Token // q r }}
    {front : Except ParseError { r : α × List Token // q' r }}
    {f : { r : α × List Token // q r } → Except ParseError { r : β × List Token // s r }}
    {f' : { r : α × List Token // q' r } → Except ParseError { r : β × List Token // s' r }}
    (h : Foresees more whole front)
    (hsame : ∀ x rest h h', Foresees more (f ⟨(x, rest ++ more), h⟩) (f' ⟨(x, rest), h'⟩))
    (hend : ∀ x h', Exhausts (f' ⟨(x, []), h'⟩)) :
    Foresees more (whole >>= f) (front >>= f') := by
  cases whole with
  | error e => trivial
  | ok r =>
      cases front with
      | error e =>
          change Foresees more (f r) (.error e)
          cases f r with
          | error e' => trivial
          | ok r' => exact h
      | ok r' =>
          exact h.elim (motive := fun w g => Foresees more (f w) (f' g)) hsame
            fun _ x h' => (hend x h').foresees

theorem Foresees.ite {c : Prop} [Decidable c]
    {whole whole' : Except ParseError { r : α × List Token // q r }}
    {front front' : Except ParseError { r : α × List Token // q' r }}
    (hthen : c → Foresees more whole front) (helse : ¬c → Foresees more whole' front') :
    Foresees more (if c then whole else whole') (if c then front else front') := by
  by_cases h : c
  · rw [if_pos h, if_pos h]
    exact hthen h
  · rw [if_neg h, if_neg h]
    exact helse h

theorem Exhausts.bind {front : Except ParseError { r : α × List Token // q r }}
    {f : { r : α × List Token // q r } → Except ParseError { r : β × List Token // s r }}
    (h : Exhausts front) (hend : ∀ x h', Exhausts (f ⟨(x, []), h'⟩)) : Exhausts (front >>= f) := by
  refine Ends.bind h ?_
  rintro ⟨⟨x, rest⟩, hr⟩ heq
  obtain rfl : rest = [] := heq
  exact hend x hr

/-- No step that consumes a token goes well where there is none. -/
theorem Exhausts.behind {front : Step α []}
    {f : { r : α × List Token // r.2.length < ([] : List Token).length } →
      Except ParseError { r : β × List Token // s r }} (h : Exhausts front) :
    Exhausts (front >>= f) :=
  h.bind fun _ h' => absurd h' (Nat.not_lt_zero _)

theorem skip_foresees (kind : Token.Kind) (us more : List Token) :
    Foresees more (.ok (skip kind (us ++ more))) (.ok (skip kind us)) := by
  cases us with
  | nil => exact .inl rfl
  | cons t us =>
      unfold skip
      by_cases h : t.kind = kind
      · simp only [List.cons_append, if_pos h]
        exact foresees_ok
      · simp only [List.cons_append, if_neg h]
        exact .inr ⟨rfl, rfl⟩

theorem need_foresees (kind : Token.Kind) (context : String) (us more : List Token) :
    Foresees more (need finish kind context (us ++ more)) (need finish' kind context us) := by
  cases us with
  | nil => exact Exhausts.foresees rfl
  | cons t us =>
      unfold need
      by_cases h : t.kind = kind
      · simp only [List.cons_append, if_pos h]
        exact foresees_ok
      · simp only [List.cons_append, if_neg h]
        exact foresees_failAt

/-- Reading on to the end of a text. -/
theorem Foresees.ends {γ : Type} {whole : Except ParseError { r : α × List Token // q r }}
    {front : Except ParseError { r : α × List Token // q' r }}
    {f : { r : α × List Token // q r } → Except ParseError γ}
    {f' : { r : α × List Token // q' r } → Except ParseError γ} {c : γ}
    (h : Foresees more whole front) (hwhole : whole >>= f = .ok c)
    (hsame : ∀ x rest h h', f ⟨(x, rest ++ more), h⟩ = .ok c →
      Ends (fun _ => True) (·.isIncomplete = true) (f' ⟨(x, rest), h'⟩))
    (hend : ∀ x h', Ends (fun _ => True) (·.isIncomplete = true) (f' ⟨(x, []), h'⟩)) :
    Ends (fun _ => True) (·.isIncomplete = true) (front >>= f') := by
  cases whole with
  | error e => cases hwhole
  | ok r =>
      cases front with
      | error e => exact h
      | ok r' =>
          exact h.elim (motive := fun w g => f w = .ok c →
            Ends (fun _ => True) (·.isIncomplete = true) (f' g)) hsame (fun _ x h' _ => hend x h')
            hwhole

@[elab_as_elim]
theorem skip_ahead (kind : Token.Kind) (us more : List Token)
    {motive : { r : Bool × List Token // r.2.length ≤ (us ++ more).length } →
      { r : Bool × List Token // r.2.length ≤ us.length } → Prop}
    (hsame : ∀ b rest h h', motive ⟨(b, rest ++ more), h⟩ ⟨(b, rest), h'⟩)
    (hend : ∀ w b h', motive w ⟨(b, []), h'⟩) : motive (skip kind (us ++ more)) (skip kind us) :=
  (skip_foresees kind us more).elim hsame hend

section Lists

variable {close : Token.Kind} {context : String}

theorem commaItems_exhausts {n : Nat} {item : (ts : List Token) → ts.length ≤ n → Step α ts}
    (h : ([] : List Token).length ≤ n) (hitem : Exhausts (item [] h)) :
    Exhausts (commaItems finish close context item [] h) := by
  rw [commaItems]
  exact hitem.behind

theorem commaItems_foresees {n n' : Nat} {item : (ts : List Token) → ts.length ≤ n → Step α ts}
    {item' : (ts : List Token) → ts.length ≤ n' → Step α ts}
    (hitem : ∀ us h h', Foresees more (item (us ++ more) h) (item' us h'))
    (hend : ∀ h, Exhausts (item' [] h)) (us : List Token) (h : (us ++ more).length ≤ n)
    (h' : us.length ≤ n') :
    Foresees more (commaItems finish close context item (us ++ more) h)
      (commaItems finish' close context item' us h') := by
  rw [commaItems, commaItems]
  refine (hitem us h h').bind ?_ fun _ _ => rfl
  intro x rest hx hx'
  dsimp only
  refine skip_ahead .comma rest more ?_ ?_
  · intro b rest' hb hb'
    dsimp only
    refine Foresees.ite (fun _ => ?_) fun _ => ?_
    · exact (commaItems_foresees hitem hend rest' _ _).bind (fun _ _ _ _ => foresees_ok)
        fun _ _ => rfl
    · exact (need_foresees close context rest' more).bind (fun _ _ _ _ => foresees_ok)
        fun _ _ => rfl
  · intro w b hb'
    refine Exhausts.foresees ?_
    cases b with
    | true => exact (commaItems_exhausts _ (hend _)).behind
    | false => rfl
termination_by us.length
decreasing_by grind

theorem commaList_exhausts {item : (ts : List Token) → ts.length ≤ ([] : List Token).length → Step α ts}
    (hitem : ∀ h, Exhausts (item [] h)) : Exhausts (commaList finish close context [] item) :=
  commaItems_exhausts _ (hitem _)

theorem commaList_foresees {us more : List Token}
    {item : (ts : List Token) → ts.length ≤ (us ++ more).length → Step α ts}
    {item' : (ts : List Token) → ts.length ≤ us.length → Step α ts}
    (hitem : ∀ ts h h', Foresees more (item (ts ++ more) h) (item' ts h'))
    (hend : ∀ h, Exhausts (item' [] h)) :
    Foresees more (commaList finish close context (us ++ more) item)
      (commaList finish' close context us item') := by
  cases us with
  | nil => exact (commaList_exhausts hend).foresees
  | cons t us =>
      simp only [List.cons_append, commaList]
      refine Foresees.ite (fun _ => foresees_ok) fun _ => ?_
      exact commaItems_foresees hitem hend (t :: us) _ _

end Lists

theorem typeAtom_exhausts (finish : Position) : Exhausts (typeAtom finish []) := by
  rw [typeAtom.eq_def]
  exact rfl

theorem typeExpr_exhausts (finish : Position) : Exhausts (typeExpr finish []) := by
  rw [typeExpr]
  exact (typeAtom_exhausts finish).behind

mutual

theorem typeExpr_foresees (us more : List Token) :
    Foresees more (typeExpr finish (us ++ more)) (typeExpr finish' us) := by
  rw [typeExpr, typeExpr]
  refine (typeAtom_foresees us more).bind ?_ fun _ _ => rfl
  intro domain rest h h'
  dsimp only
  refine skip_ahead .arrow rest more ?_ ?_
  · intro b rest' hb hb'
    dsimp only
    refine Foresees.ite (fun _ => ?_) fun _ => foresees_ok
    exact (typeExpr_foresees rest' more).bind (fun _ _ _ _ => foresees_ok) fun _ _ => rfl
  · intro w b hb'
    refine Exhausts.foresees ?_
    cases b with
    | true => exact (typeExpr_exhausts _).behind
    | false => rfl
termination_by (us.length, 1)
decreasing_by all_goals grind

theorem typeAtom_foresees (us more : List Token) :
    Foresees more (typeAtom finish (us ++ more)) (typeAtom finish' us) := by
  match us with
  | [] => exact (typeAtom_exhausts finish').foresees
  | ⟨kind, lexeme, p⟩ :: rest =>
      rw [List.cons_append, typeAtom.eq_def, typeAtom.eq_def]
      dsimp only
      split
      · match rest with
        | [] => exact Exhausts.foresees rfl
        | u :: rest' =>
            dsimp only [List.cons_append]
            refine Foresees.ite (fun _ => ?_) fun _ => foresees_ok
            exact (commaList_foresees (fun ts _ _ => typeExpr_foresees ts more)
              fun _ => typeExpr_exhausts _).bind (fun _ _ _ _ => foresees_ok) fun _ _ => rfl
      · split
        · exact foresees_ok
        · trivial
      · exact foresees_ok
      · refine (typeExpr_foresees rest more).bind ?_ fun _ _ => rfl
        intro inner rest' h h'
        exact (need_foresees .rightParen _ rest' more).bind (fun _ _ _ _ => foresees_ok)
          fun _ _ => rfl
      · exact foresees_failAt
termination_by (us.length, 0)
decreasing_by all_goals grind

end

theorem pattern_exhausts (finish : Position) : Exhausts (pattern finish []) := by
  rw [pattern.eq_def]
  exact rfl

theorem pattern_foresees (us more : List Token) :
    Foresees more (pattern finish (us ++ more)) (pattern finish' us) := by
  match us with
  | [] => exact (pattern_exhausts finish').foresees
  | ⟨kind, lexeme, p⟩ :: rest =>
      rw [List.cons_append, pattern.eq_def, pattern.eq_def]
      dsimp only
      split
      · exact foresees_ok
      · exact foresees_ok
      · exact foresees_ok
      · exact (need_foresees .number _ rest more).bind (fun _ _ _ _ => foresees_ok) fun _ _ => rfl
      · match rest with
        | [] => exact Exhausts.foresees rfl
        | u :: rest' =>
            dsimp only [List.cons_append]
            refine Foresees.ite (fun _ => ?_) fun _ => foresees_ok
            exact (commaList_foresees (fun ts _ _ => pattern_foresees ts more)
              fun _ => pattern_exhausts _).bind (fun _ _ _ _ => foresees_ok) fun _ _ => rfl
      · exact foresees_failAt
termination_by us.length
decreasing_by all_goals grind

theorem startsWithFactor_ahead (n : Token) (rest more : List Token) :
    startsWithFactor (n :: (rest ++ more)) = startsWithFactor (n :: rest) ∨
      startsWithFactor (n :: rest) = true ∧ rest = [] := by
  cases rest with
  | cons u rest => exact .inl rfl
  | nil =>
      by_cases h : n.kind = .number
      · exact .inr ⟨decide_eq_true h, rfl⟩
      · refine .inl ?_
        cases more <;> simp [startsWithFactor, h]

theorem operand_exhausts (finish : Position) : Exhausts (operand finish []) := by
  rw [operand.eq_def]
  exact rfl

theorem expr_exhausts (finish : Position) (bound : Nat) : Exhausts (expr finish bound []) := by
  rw [expr]
  exact (operand_exhausts finish).behind

theorem operators_exhausts (finish : Position) (bound : Nat) (left : Expr) :
    Exhausts (operators finish bound left []) := by
  rw [operators]
  exact rfl

theorem matchCases_exhausts (finish : Position) : Exhausts (matchCases finish []) := by
  rw [matchCases.eq_def]
  exact rfl

mutual

theorem expr_foresees (bound : Nat) (us more : List Token) :
    Foresees more (expr finish bound (us ++ more)) (expr finish' bound us) := by
  rw [expr, expr]
  refine (operand_foresees us more).bind ?_ ?_
  · intro left rest h h'
    exact (operators_foresees bound left rest more).bind (fun _ _ _ _ => foresees_ok) fun _ _ => rfl
  · intro left h'
    exact (operators_exhausts _ bound left).bind fun _ _ => rfl
termination_by (us.length, 1)
decreasing_by all_goals grind

theorem operators_foresees (bound : Nat) (left : Expr) (us more : List Token) :
    Foresees more (operators finish bound left (us ++ more)) (operators finish' bound left us) := by
  match us with
  | [] => exact (operators_exhausts finish' bound left).foresees
  | t :: rest =>
      rw [List.cons_append, operators, operators]
      split
      · exact foresees_ok
      · rename_i op hop
        refine Foresees.ite (fun _ => foresees_ok) fun _ => ?_
        refine (expr_foresees op.bound rest more).bind ?_ ?_
        · intro right rest' h h'
          exact (operators_foresees bound _ rest' more).bind (fun _ _ _ _ => foresees_ok)
            fun _ _ => rfl
        · intro right h'
          exact (operators_exhausts _ bound _).bind fun _ _ => rfl
termination_by (us.length, 0)
decreasing_by all_goals grind

theorem operand_foresees (us more : List Token) :
    Foresees more (operand finish (us ++ more)) (operand finish' us) := by
  match us with
  | [] => exact (operand_exhausts finish').foresees
  | ⟨kind, lexeme, p⟩ :: rest =>
      rw [List.cons_append, operand.eq_def, operand.eq_def]
      dsimp only
      split
      · exact foresees_ok
      · exact foresees_ok
      · match rest with
        | [] => exact Exhausts.foresees rfl
        | n :: rest' =>
            dsimp only [List.cons_append]
            obtain hsame | ⟨hfactor, rfl⟩ := startsWithFactor_ahead n rest' more
            · rw [hsame]
              refine Foresees.ite (fun _ => foresees_ok) fun _ => ?_
              exact (expr_foresees negationStrength (n :: rest') more).bind
                (fun _ _ _ _ => foresees_ok) fun _ _ => rfl
            · refine Exhausts.foresees ?_
              rw [if_pos hfactor]
              exact rfl
      · match rest with
        | [] => exact Exhausts.foresees rfl
        | u :: rest' =>
            dsimp only [List.cons_append]
            refine Foresees.ite (fun _ => ?_) fun _ => foresees_ok
            exact (commaList_foresees (fun ts _ _ => expr_foresees 0 ts more)
              fun _ => expr_exhausts _ 0).bind (fun _ _ _ _ => foresees_ok) fun _ _ => rfl
      · refine (expr_foresees 0 rest more).bind ?_ fun _ _ => rfl
        intro inner rest' h h'
        exact (need_foresees .rightParen _ rest' more).bind (fun _ _ _ _ => foresees_ok)
          fun _ _ => rfl
      · refine (expr_foresees 0 rest more).bind ?_ fun _ _ => rfl
        intro scrutinee rest₁ h h'
        refine (need_foresees .leftBrace _ rest₁ more).bind ?_ ?_
        · intro brace rest₂ hbrace hbrace'
          dsimp only
          refine skip_ahead .bar rest₂ more ?_ ?_
          · intro b rest₃ hbar hbar'
            exact (matchCases_foresees rest₃ more).bind (fun _ _ _ _ => foresees_ok) fun _ _ => rfl
          · intro w b hbar'
            exact (matchCases_exhausts finish').behind.foresees
        · intro brace hbrace'
          exact (matchCases_exhausts finish').behind
      · exact foresees_failAt
termination_by (us.length, 0)
decreasing_by all_goals grind

theorem matchCases_foresees (us more : List Token) :
    Foresees more (matchCases finish (us ++ more)) (matchCases finish' us) := by
  match us with
  | [] => exact (matchCases_exhausts finish').foresees
  | t :: rest =>
      rw [List.cons_append, matchCases, matchCases]
      refine Foresees.ite (fun _ => foresees_ok) fun _ => ?_
      refine (pattern_foresees (t :: rest) more).bind ?_ fun _ _ => rfl
      intro pat rest₁ h h'
      refine (need_foresees .fatArrow _ rest₁ more).bind ?_ ?_
      · intro arrow rest₂ harrow harrow'
        refine (expr_foresees 0 rest₂ more).bind ?_ fun _ _ => rfl
        intro body rest₃ hbody hbody'
        match rest₃ with
        | [] => exact Exhausts.foresees rfl
        | u :: rest₄ =>
            dsimp only [List.cons_append]
            refine Foresees.ite (fun _ => ?_) fun _ => ?_
            · exact (matchCases_foresees rest₄ more).bind (fun _ _ _ _ => foresees_ok)
                fun _ _ => rfl
            · exact Foresees.ite (fun _ => foresees_ok) fun _ => foresees_failAt
      · intro arrow harrow'
        exact (expr_exhausts _ 0).behind
termination_by (us.length, 0)
decreasing_by all_goals grind

end

theorem optionalParens_foresees {context : String} {item item' : (us : List Token) → Step α us}
    (hitem : ∀ ts, Foresees more (item (ts ++ more)) (item' ts)) (hend : Exhausts (item' []))
    (us : List Token) :
    Foresees more (optionalParens finish context (us ++ more) item)
      (optionalParens finish' context us item') := by
  simp only [optionalParens]
  refine skip_ahead .leftParen us more ?_ ?_
  · intro b rest h h'
    refine Foresees.ite (fun _ => ?_) fun _ => foresees_ok
    exact (commaList_foresees (fun ts _ _ => hitem ts) fun _ => hend).bind
      (fun _ _ _ _ => foresees_ok) fun _ _ => rfl
  · intro w b h'
    refine Exhausts.foresees ?_
    cases b with
    | true => exact (commaList_exhausts fun _ => hend).behind
    | false => rfl

theorem identifier_foresees (context : String) (us more : List Token) :
    Foresees more (identifier finish context (us ++ more)) (identifier finish' context us) :=
  (need_foresees .identifier context us more).bind (fun _ _ _ _ => foresees_ok) fun _ _ => rfl

theorem colonType_foresees (us more : List Token) :
    Foresees more (colonType finish (us ++ more)) (colonType finish' us) := by
  simp only [colonType]
  refine skip_ahead .colon us more ?_ ?_
  · intro b rest h h'
    refine Foresees.ite (fun _ => ?_) fun _ => foresees_ok
    exact (typeExpr_foresees rest more).bind (fun _ _ _ _ => foresees_ok) fun _ _ => rfl
  · intro w b h'
    refine Exhausts.foresees ?_
    cases b with
    | true => exact (typeExpr_exhausts finish').behind
    | false => rfl

theorem binder_foresees (context : String) (us more : List Token) :
    Foresees more (binder finish context (us ++ more)) (binder finish' context us) := by
  refine (identifier_foresees context us more).bind ?_ fun _ _ => rfl
  intro name rest h h'
  exact (colonType_foresees rest more).bind (fun _ _ _ _ => foresees_ok) fun _ _ => rfl

theorem positionalField_foresees (us more : List Token) :
    Foresees more (positionalField finish (us ++ more)) (positionalField finish' us) :=
  (typeExpr_foresees us more).bind (fun _ _ _ _ => foresees_ok) fun _ _ => rfl

theorem positionalField_exhausts (finish : Position) : Exhausts (positionalField finish []) :=
  (typeExpr_exhausts finish).behind

theorem positionalField_exhausts_name {t : Token} (h : t.kind = .identifier) :
    Exhausts (positionalField finish [t]) := by
  obtain ⟨kind, lexeme, p⟩ := t
  obtain rfl : kind = .identifier := h
  refine Exhausts.bind ?_ fun _ _ => rfl
  rw [typeExpr, typeAtom.eq_def]
  exact rfl

theorem field_foresees (us more : List Token) :
    Foresees more (field finish (us ++ more)) (field finish' us) := by
  match us with
  | [] => exact (positionalField_exhausts finish').foresees
  | [label] =>
      by_cases hlabel : label.kind = .identifier
      · exact (positionalField_exhausts_name hlabel).foresees
      · have hwhole : field finish ([label] ++ more) = positionalField finish ([label] ++ more) := by
          cases more with
          | nil => rfl
          | cons colon more => exact if_neg fun h => hlabel h.1
        rw [hwhole]
        exact positionalField_foresees [label] more
  | label :: colon :: rest =>
      refine Foresees.ite (fun _ => ?_) fun _ => positionalField_foresees (label :: colon :: rest) more
      exact (typeExpr_foresees rest more).bind (fun _ _ _ _ => foresees_ok) fun _ _ => rfl

theorem variant_foresees (us more : List Token) :
    Foresees more (variant finish (us ++ more)) (variant finish' us) := by
  refine (identifier_foresees _ us more).bind ?_ fun _ _ => rfl
  intro name rest h h'
  exact (optionalParens_foresees (fun ts => field_foresees ts more)
    (positionalField_exhausts _) rest).bind (fun _ _ _ _ => foresees_ok) fun _ _ => rfl

theorem variants_exhausts (finish : Position) : Exhausts (variants finish []) := by
  rw [variants]
  exact rfl

theorem variants_foresees (us more : List Token) :
    Foresees more (variants finish (us ++ more)) (variants finish' us) := by
  rw [variants, variants]
  refine (variant_foresees us more).bind ?_ fun _ _ => rfl
  intro v rest h h'
  dsimp only
  refine skip_ahead .bar rest more ?_ ?_
  · intro b rest' hb hb'
    refine Foresees.ite (fun _ => ?_) fun _ => foresees_ok
    exact (variants_foresees rest' more).bind (fun _ _ _ _ => foresees_ok) fun _ _ => rfl
  · intro w b hb'
    refine Exhausts.foresees ?_
    cases b with
    | true => exact (variants_exhausts finish').behind
    | false => rfl
termination_by us.length
decreasing_by grind

theorem dataType_foresees (us more : List Token) :
    Foresees more (dataType finish (us ++ more)) (dataType finish' us) := by
  refine (identifier_foresees _ us more).bind ?_ fun _ _ => rfl
  intro name rest₁ h₁ h₁'
  refine (optionalParens_foresees (fun ts => binder_foresees _ ts more) rfl rest₁).bind ?_
    fun _ _ => rfl
  intro params rest₂ h₂ h₂'
  refine (need_foresees .equals _ rest₂ more).bind ?_ fun _ _ => (variants_exhausts _).behind
  intro equals rest₃ h₃ h₃'
  dsimp only
  refine skip_ahead .bar rest₃ more ?_ ?_
  · intro b rest₄ h₄ h₄'
    exact (variants_foresees rest₄ more).bind (fun _ _ _ _ => foresees_ok) fun _ _ => rfl
  · intro w b h₄'
    exact (variants_exhausts finish').behind.foresees

theorem quantifiedNames_foresees (us more : List Token) :
    Foresees more (.ok (quantifiedNames (us ++ more))) (.ok (quantifiedNames us)) := by
  match us with
  | [] =>
      rw [quantifiedNames]
      exact .inl rfl
  | t :: rest =>
      rw [List.cons_append, quantifiedNames, quantifiedNames]
      by_cases ht : t.kind = .identifier
      · rw [if_pos ht, if_pos ht]
        refine skip_ahead .comma rest more ?_ ?_
        · intro b rest' h h'
          obtain hend | ⟨hnames, hrest⟩ := quantifiedNames_foresees rest' more
          · exact .inl hend
          · exact .inr ⟨congrArg (t.lexeme :: ·) hnames, hrest⟩
        · intro w b h'
          refine .inl ?_
          dsimp only
          rw [quantifiedNames]
      · rw [if_neg ht, if_neg ht]
        exact .inr ⟨rfl, rfl⟩
termination_by us.length
decreasing_by grind

@[elab_as_elim]
theorem quantifiedNames_ahead (us more : List Token)
    {motive : { r : List String × List Token // r.2.length ≤ (us ++ more).length } →
      { r : List String × List Token // r.2.length ≤ us.length } → Prop}
    (hsame : ∀ names rest h h', motive ⟨(names, rest ++ more), h⟩ ⟨(names, rest), h'⟩)
    (hend : ∀ w names h', motive w ⟨(names, []), h'⟩) :
    motive (quantifiedNames (us ++ more)) (quantifiedNames us) :=
  (quantifiedNames_foresees us more).elim hsame hend

theorem quantifiers_exhausts (finish : Position) : Exhausts (quantifiers finish []) := by
  rw [quantifiers]
  exact rfl

theorem quantifiers_foresees (us more : List Token) :
    Foresees more (quantifiers finish (us ++ more)) (quantifiers finish' us) := by
  rw [quantifiers, quantifiers]
  refine skip_ahead .leftParen us more ?_ ?_
  · intro b rest₁ h₁ h₁'
    refine Foresees.ite (fun _ => ?_) fun _ => ?_
    · dsimp only
      refine quantifiedNames_ahead rest₁ more ?_ ?_
      · intro names rest₂ h₂ h₂'
        refine Foresees.ite (fun _ => foresees_failAt) fun _ => ?_
        refine (need_foresees .colon _ rest₂ more).bind ?_ fun _ _ => (typeExpr_exhausts _).behind
        intro colon rest₃ h₃ h₃'
        refine (typeExpr_foresees rest₃ more).bind ?_ fun _ _ => rfl
        intro t rest₄ h₄ h₄'
        refine (need_foresees .rightParen _ rest₄ more).bind ?_
          fun _ _ => (quantifiers_exhausts _).behind
        intro close rest₅ h₅ h₅'
        exact (quantifiers_foresees rest₅ more).bind (fun _ _ _ _ => foresees_ok) fun _ _ => rfl
      · intro w names h₂'
        refine Exhausts.foresees ?_
        cases names with
        | nil => rfl
        | cons name names => rfl
    · exact (need_foresees .period _ rest₁ more).bind (fun _ _ _ _ => foresees_ok) fun _ _ => rfl
  · intro w b h₁'
    refine Exhausts.foresees ?_
    cases b with
    | true =>
        dsimp only
        rw [quantifiedNames]
        rfl
    | false => rfl
termination_by us.length
decreasing_by all_goals grind

theorem operationMember_foresees (isElement : Bool) (us more : List Token) :
    Foresees more (operationMember finish isElement (us ++ more))
      (operationMember finish' isElement us) := by
  refine (identifier_foresees _ us more).bind ?_ fun _ _ => rfl
  intro name rest₁ h₁ h₁'
  refine (need_foresees .colon _ rest₁ more).bind ?_ fun _ _ => (typeExpr_exhausts _).behind
  intro colon rest₂ h₂ h₂'
  exact (typeExpr_foresees rest₂ more).bind (fun _ _ _ _ => foresees_ok) fun _ _ => rfl

theorem lawMember_foresees (us more : List Token) :
    Foresees more (lawMember finish (us ++ more)) (lawMember finish' us) := by
  refine (identifier_foresees _ us more).bind ?_ fun _ _ => rfl
  intro name rest₁ h₁ h₁'
  refine (need_foresees .colon _ rest₁ more).bind ?_ fun _ _ => (expr_exhausts _ 0).behind
  intro colon rest₂ h₂ h₂'
  dsimp only
  refine skip_ahead .forallWord rest₂ more ?_ ?_
  · intro b rest₃ h₃ h₃'
    refine Foresees.ite (fun _ => ?_) fun _ => ?_
    · refine (quantifiers_foresees rest₃ more).bind ?_ fun _ _ => (expr_exhausts _ 0).behind
      intro vars rest₄ h₄ h₄'
      exact (expr_foresees 0 rest₄ more).bind (fun _ _ _ _ => foresees_ok) fun _ _ => rfl
    · exact (expr_foresees 0 rest₃ more).bind (fun _ _ _ _ => foresees_ok) fun _ _ => rfl
  · intro w b h₃'
    refine Exhausts.foresees ?_
    cases b with
    | true => exact (quantifiers_exhausts finish').behind
    | false => exact (expr_exhausts finish' 0).behind

/-- An item behind a keyword and the items behind it. -/
theorem itemAndMore_foresees {t t' : Token} {rest more : List Token} {item : Step α (rest ++ more)}
    {item' : Step α rest} {others others' : (us : List Token) → Step (List α) us}
    (hitem : Foresees more item item')
    (hothers : ∀ us, us.length < rest.length → Foresees more (others (us ++ more)) (others' us))
    (hend : Exhausts (others' [])) :
    Foresees more
      (do
        let ⟨(x, rest'), hx⟩ ← item
        let ⟨(xs, rest''), hxs⟩ ← others rest'
        (.ok ⟨(x :: xs, rest''), Nat.lt_trans hxs (Nat.lt_succ_of_lt hx)⟩ :
          Step (List α) (t :: (rest ++ more))))
      (do
        let ⟨(x, rest'), hx⟩ ← item'
        let ⟨(xs, rest''), hxs⟩ ← others' rest'
        (.ok ⟨(x :: xs, rest''), Nat.lt_trans hxs (Nat.lt_succ_of_lt hx)⟩ :
          Step (List α) (t' :: rest))) := by
  refine hitem.bind ?_ fun _ _ => hend.behind
  intro x rest' h h'
  exact (hothers rest' h').bind (fun _ _ _ _ => foresees_ok) fun _ _ => rfl

theorem members_exhausts (finish : Position) (name : String) : Exhausts (members finish name []) := by
  rw [members.eq_def]
  exact rfl

theorem members_foresees (name : String) (us more : List Token) :
    Foresees more (members finish name (us ++ more)) (members finish' name us) := by
  match us with
  | [] => exact (members_exhausts finish' name).foresees
  | ⟨kind, lexeme, p⟩ :: rest =>
      rw [List.cons_append, members.eq_def, members.eq_def]
      dsimp only
      split
      · exact foresees_ok
      · exact (members_foresees name rest more).bind (fun _ _ _ _ => foresees_ok) fun _ _ => rfl
      · exact itemAndMore_foresees (operationMember_foresees false rest more)
          (fun us _ => members_foresees name us more) (members_exhausts _ name)
      · exact itemAndMore_foresees (operationMember_foresees true rest more)
          (fun us _ => members_foresees name us more) (members_exhausts _ name)
      · exact itemAndMore_foresees (lawMember_foresees rest more)
          (fun us _ => members_foresees name us more) (members_exhausts _ name)
      · exact foresees_failAt
termination_by us.length
decreasing_by all_goals grind

theorem interface_foresees (us more : List Token) :
    Foresees more (interface finish (us ++ more)) (interface finish' us) := by
  refine (identifier_foresees _ us more).bind ?_ fun _ _ => rfl
  intro name rest₁ h₁ h₁'
  refine (optionalParens_foresees (fun ts => binder_foresees _ ts more) rfl rest₁).bind ?_
    fun _ _ => rfl
  intro params rest₂ h₂ h₂'
  refine (need_foresees .leftBrace _ rest₂ more).bind ?_ fun _ _ => (members_exhausts _ _).behind
  intro brace rest₃ h₃ h₃'
  exact (members_foresees name rest₃ more).bind (fun _ _ _ _ => foresees_ok) fun _ _ => rfl

theorem startsWithBuiltin_ahead (t : Token) (rest more : List Token) :
    startsWithBuiltin (t :: (rest ++ more)) = startsWithBuiltin (t :: rest) ∨
      t.kind = .identifier ∧ rest = [] := by
  cases rest with
  | cons u rest => exact .inl rfl
  | nil =>
      by_cases h : t.kind = .identifier
      · exact .inr ⟨h, rfl⟩
      · refine .inl ?_
        cases more <;> simp [startsWithBuiltin, h]

theorem operationBody_foresees (us more : List Token) :
    Foresees more (operationBody finish (us ++ more)) (operationBody finish' us) := by
  refine (identifier_foresees _ us more).bind ?_ fun _ _ => rfl
  intro name rest₁ h₁ h₁'
  refine (optionalParens_foresees (fun ts => identifier_foresees _ ts more) rfl rest₁).bind ?_
    fun _ _ => rfl
  intro params rest₂ h₂ h₂'
  refine (need_foresees .equals _ rest₂ more).bind ?_ ?_
  · intro equals rest₃ h₃ h₃'
    have hexpr : Foresees more (expr finish 0 (rest₃ ++ more)) (expr finish' 0 rest₃) :=
      expr_foresees 0 rest₃ more
    match rest₃ with
    | [] =>
        refine Exhausts.foresees ?_
        cases params <;> exact (expr_exhausts finish' 0).behind
    | t :: rest =>
        cases params with
        | some ps => exact hexpr.bind (fun _ _ _ _ => foresees_ok) fun _ _ => rfl
        | none =>
            dsimp only [List.cons_append, Option.isNone_none, Bool.true_and]
            obtain hsame | ⟨hname, rfl⟩ := startsWithBuiltin_ahead t rest more
            · rw [hsame]
              refine Foresees.ite (fun _ => ?_) fun _ => ?_
              · exact (identifier_foresees _ (t :: rest) more).bind (fun _ _ _ _ => foresees_ok)
                  fun _ _ => rfl
              · exact hexpr.bind (fun _ _ _ _ => foresees_ok) fun _ _ => rfl
            · refine Exhausts.foresees ?_
              obtain ⟨kind, lexeme, p⟩ := t
              obtain rfl : kind = .identifier := hname
              exact rfl
  · intro equals h₃'
    cases params <;> exact (expr_exhausts finish' 0).behind

theorem operationBodies_exhausts (finish : Position) (name : String) :
    Exhausts (operationBodies finish name []) := by
  rw [operationBodies.eq_def]
  exact rfl

theorem operationBodies_foresees (name : String) (us more : List Token) :
    Foresees more (operationBodies finish name (us ++ more)) (operationBodies finish' name us) := by
  match us with
  | [] => exact (operationBodies_exhausts finish' name).foresees
  | ⟨kind, lexeme, p⟩ :: rest =>
      rw [List.cons_append, operationBodies.eq_def, operationBodies.eq_def]
      dsimp only
      split
      · exact foresees_ok
      · exact (operationBodies_foresees name rest more).bind (fun _ _ _ _ => foresees_ok)
          fun _ _ => rfl
      · exact itemAndMore_foresees (operationBody_foresees rest more)
          (fun us _ => operationBodies_foresees name us more) (operationBodies_exhausts _ name)
      · exact itemAndMore_foresees (operationBody_foresees rest more)
          (fun us _ => operationBodies_foresees name us more) (operationBodies_exhausts _ name)
      · exact foresees_failAt
termination_by us.length
decreasing_by all_goals grind

theorem implementation_foresees (us more : List Token) :
    Foresees more (implementation finish (us ++ more)) (implementation finish' us) := by
  refine (identifier_foresees _ us more).bind ?_ fun _ _ => rfl
  intro name rest₁ h₁ h₁'
  refine (optionalParens_foresees (fun ts => typeExpr_foresees ts more) (typeExpr_exhausts _)
    rest₁).bind ?_ fun _ _ => rfl
  intro args rest₂ h₂ h₂'
  dsimp only
  refine skip_ahead .leftBrace rest₂ more ?_ ?_
  · intro b rest₃ h₃ h₃'
    refine Foresees.ite (fun _ => ?_) fun _ => foresees_ok
    exact (operationBodies_foresees name rest₃ more).bind (fun _ _ _ _ => foresees_ok)
      fun _ _ => rfl
  · intro w b h₃'
    refine Exhausts.foresees ?_
    cases b with
    | true => exact (operationBodies_exhausts finish' name).behind
    | false => rfl

theorem definition_foresees (us more : List Token) :
    Foresees more (definition finish (us ++ more)) (definition finish' us) := by
  refine (identifier_foresees _ us more).bind ?_ fun _ _ => rfl
  intro name rest₁ h₁ h₁'
  refine (optionalParens_foresees (fun ts => binder_foresees _ ts more) rfl rest₁).bind ?_
    fun _ _ => rfl
  intro params rest₂ h₂ h₂'
  refine (colonType_foresees rest₂ more).bind ?_ fun _ _ => rfl
  intro result rest₃ h₃ h₃'
  refine (need_foresees .equals _ rest₃ more).bind ?_ fun _ _ => (expr_exhausts _ 0).behind
  intro equals rest₄ h₄ h₄'
  exact (expr_foresees 0 rest₄ more).bind (fun _ _ _ _ => foresees_ok) fun _ _ => rfl

theorem declaration_foresees (us more : List Token) :
    Foresees more (declaration finish (us ++ more)) (declaration finish' us) := by
  match us with
  | [] => exact Exhausts.foresees rfl
  | ⟨kind, lexeme, p⟩ :: rest =>
      simp only [List.cons_append, declaration]
      split
      · exact (dataType_foresees rest more).bind (fun _ _ _ _ => foresees_ok) fun _ _ => rfl
      · exact (interface_foresees rest more).bind (fun _ _ _ _ => foresees_ok) fun _ _ => rfl
      · exact (implementation_foresees rest more).bind (fun _ _ _ _ => foresees_ok) fun _ _ => rfl
      · exact (definition_foresees rest more).bind (fun _ _ _ _ => foresees_ok) fun _ _ => rfl
      · exact foresees_failAt

theorem declarations_ahead (us more : List Token) {ds : List Declaration}
    (h : declarations finish (us ++ more) = .ok ds) :
    Ends (fun _ => True) (·.isIncomplete = true) (declarations finish' us) := by
  match us with
  | [] =>
      rw [declarations]
      trivial
  | t :: rest =>
      rw [List.cons_append, declarations] at h
      rw [declarations]
      by_cases ht : t.kind = .semicolon
      · rw [if_pos ht] at h ⊢
        exact declarations_ahead rest more h
      · rw [if_neg ht] at h ⊢
        refine (declaration_foresees (t :: rest) more).ends h ?_ ?_
        · intro d rest' hd hd' hrest
          cases hwhole : declarations finish (rest' ++ more) with
          | error e =>
              dsimp only at hrest
              rw [hwhole] at hrest
              cases hrest
          | ok ds' => exact (declarations_ahead rest' more hwhole).bind fun _ _ => trivial
        · intro d hd'
          dsimp only
          rw [declarations]
          trivial
termination_by us.length
decreasing_by all_goals grind

end Formulary.Parser
