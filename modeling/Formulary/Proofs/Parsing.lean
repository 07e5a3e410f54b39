import Formulary.Parser
import Formulary.Proofs.Steps
import Formulary.Proofs.Wholeness

namespace Formulary.Parser

variable {α β : Type} {p : α → Prop}

/-- What a step reads, if it reads anything, has a property. -/
abbrev Reads {q : α × List Token → Prop} (p : α → Prop)
    (step : Except ParseError { r : α × List Token // q r }) : Prop :=
  Ends (fun r => p r.1.1) (fun _ => True) step

/-- What is read on the way and thrown away does not matter. -/
theorem ends_behind {x : Except ParseError β} {f : β → Except ParseError α}
    (h : ∀ b, Ends p (fun _ => True) (f b)) : Ends p (fun _ => True) (x >>= f) := by
  cases x with
  | ok b => exact h b
  | error e => trivial

theorem ends_failAt {finish : Position} {cause : ParseError.Found → ParseError.Cause}
    {ts : List Token} : Ends p (fun _ => True) (failAt finish cause ts : Except ParseError α) := by
  cases ts <;> trivial

theorem commaItems_reads {n : Nat} {finish : Position} {close : Token.Kind} {context : String}
    {item : (ts : List Token) → ts.length ≤ n → Step α ts}
    (hitem : ∀ ts h, Reads p (item ts h)) (ts : List Token) (h : ts.length ≤ n) :
    Reads (∀ x ∈ ·, p x) (commaItems finish close context item ts h) := by
  rw [commaItems]
  refine (hitem ts h).bind ?_
  rintro ⟨⟨x, rest⟩, hx⟩ hp
  have hskip := (skip .comma rest).2
  dsimp only
  split
  · refine (commaItems_reads hitem (skip .comma rest).1.2 _).bind ?_
    rintro ⟨⟨xs, rest''⟩, hxs⟩ hps
    exact List.forall_mem_cons.2 ⟨hp, hps⟩
  · refine ends_behind ?_
    rintro ⟨⟨_, rest''⟩, hclose⟩
    exact List.forall_mem_singleton.2 hp
termination_by ts.length
decreasing_by grind

theorem commaList_reads {finish : Position} {close : Token.Kind} {context : String}
    {ts : List Token} {item : (us : List Token) → us.length ≤ ts.length → Step α us}
    (hitem : ∀ us h, Reads p (item us h)) :
    Reads (∀ x ∈ ·, p x) (commaList finish close context ts item) := by
  cases ts with
  | nil => exact commaItems_reads hitem _ _
  | cons t rest =>
      simp only [commaList]
      split
      · simp [Ends]
      · exact commaItems_reads hitem _ _

/-- An item behind a keyword and the items behind it. -/
theorem itemAndMore_reads {t : Token} {rest : List Token} {item : Step α rest}
    {more : (us : List Token) → Step (List α) us} (hitem : Reads p item)
    (hmore : ∀ us, us.length < rest.length → Reads (∀ x ∈ ·, p x) (more us)) :
    Reads (∀ x ∈ ·, p x) (do
      let ⟨(x, rest'), hx⟩ ← item
      let ⟨(xs, rest''), hxs⟩ ← more rest'
      (.ok ⟨(x :: xs, rest''), Nat.lt_trans hxs (Nat.lt_succ_of_lt hx)⟩ :
        Step (List α) (t :: rest))) := by
  refine hitem.bind ?_
  rintro ⟨⟨x, rest'⟩, hx⟩ hp
  refine (hmore rest' hx).bind ?_
  rintro ⟨⟨xs, rest''⟩, hxs⟩ hps
  exact List.forall_mem_cons.2 ⟨hp, hps⟩

mutual

theorem typeExpr_reads (finish : Position) (ts : List Token) :
    Reads (·.isWhole = true) (typeExpr finish ts) := by
  rw [typeExpr]
  refine (typeAtom_reads finish ts).bind ?_
  rintro ⟨⟨domain, rest⟩, hdomain⟩ hd
  have hskip := (skip .arrow rest).2
  dsimp only
  split
  · refine (typeExpr_reads finish (skip .arrow rest).1.2).bind ?_
    rintro ⟨⟨codomain, rest''⟩, hcodomain⟩ hc
    simp only [Ends, TypeExpr.isWhole, Bool.and_eq_true]
    exact ⟨hd, hc⟩
  · exact hd
termination_by (ts.length, 1)
decreasing_by all_goals grind

theorem typeAtom_reads (finish : Position) (ts : List Token) :
    Reads (·.isWhole = true) (typeAtom finish ts) := by
  match ts with
  | [] =>
      rw [typeAtom.eq_def]
      dsimp only
      exact ends_failAt
  | t :: rest =>
      rw [typeAtom.eq_def]
      dsimp only
      split
      · split
        · rfl
        · rename_i u rest'
          split
          · refine (commaList_reads fun us _ => typeExpr_reads finish us).bind ?_
            rintro ⟨⟨args, rest''⟩, hargs⟩ hall
            exact TypeExpr.isWholeList_iff.2 hall
          · rfl
      · split
        · rfl
        · trivial
      · rfl
      · refine (typeExpr_reads finish rest).bind ?_
        rintro ⟨⟨inner, rest'⟩, hinner⟩ hwhole
        refine ends_behind ?_
        rintro ⟨⟨_, rest''⟩, hclose⟩
        exact hwhole
      · exact ends_failAt
termination_by (ts.length, 0)
decreasing_by all_goals grind

end

mutual

theorem expr_reads (finish : Position) (bound : Nat) (ts : List Token) :
    Reads (·.isWhole = true) (expr finish bound ts) := by
  rw [expr]
  refine (operand_reads finish ts).bind ?_
  rintro ⟨⟨left, rest⟩, hleft⟩ hl
  refine (operators_reads finish bound left rest hl).bind ?_
  rintro ⟨⟨e, rest'⟩, he⟩ hwhole
  exact hwhole
termination_by (ts.length, 1)
decreasing_by all_goals grind

theorem operators_reads (finish : Position) (bound : Nat) (left : Expr) (ts : List Token)
    (hleft : left.isWhole = true) : Reads (·.isWhole = true) (operators finish bound left ts) := by
  match ts with
  | [] =>
      rw [operators]
      exact hleft
  | t :: rest =>
      rw [operators]
      split
      · exact hleft
      · rename_i op hop
        split
        · exact hleft
        · refine (expr_reads finish op.bound rest).bind ?_
          rintro ⟨⟨right, rest'⟩, hright⟩ hr
          refine (operators_reads finish bound (.operation op.name [left, right]) rest' ?_).bind ?_
          · simp [Expr.isWhole, Expr.isWholeList, hleft, hr]
          · rintro ⟨⟨e, rest''⟩, he⟩ hwhole
            exact hwhole
termination_by (ts.length, 0)
decreasing_by all_goals grind

theorem operand_reads (finish : Position) (ts : List Token) :
    Reads (·.isWhole = true) (operand finish ts) := by
  match ts with
  | [] =>
      rw [operand.eq_def]
      dsimp only
      exact ends_failAt
  | t :: rest =>
      rw [operand.eq_def]
      dsimp only
      split
      · rfl
      · rfl
      · split
        · exact ends_failAt
        · rename_i n rest'
          split
          · rfl
          · refine (expr_reads finish negationStrength (n :: rest')).bind ?_
            rintro ⟨⟨e, rest''⟩, he⟩ hwhole
            simpa [Ends, Expr.isWhole, Expr.isWholeList] using hwhole
      · split
        · rfl
        · rename_i u rest'
          split
          · refine (commaList_reads fun us _ => expr_reads finish 0 us).bind ?_
            rintro ⟨⟨args, rest''⟩, hargs⟩ hall
            exact Expr.isWholeList_iff.2 hall
          · rfl
      · refine (expr_reads finish 0 rest).bind ?_
        rintro ⟨⟨inner, rest'⟩, hinner⟩ hwhole
        refine ends_behind ?_
        rintro ⟨⟨_, rest''⟩, hclose⟩
        exact hwhole
      · refine (expr_reads finish 0 rest).bind ?_
        rintro ⟨⟨scrutinee, rest₁⟩, hscrutinee⟩ hs
        refine ends_behind ?_
        rintro ⟨⟨_, rest₂⟩, hopen⟩
        have hskip := (skip .bar rest₂).2
        refine (matchCases_reads finish (skip .bar rest₂).1.2).bind ?_
        rintro ⟨⟨cases, rest₄⟩, hcases⟩ hall
        simp only [Ends, Expr.isWhole, Bool.and_eq_true]
        exact ⟨hs, hall⟩
      · exact ends_failAt
termination_by (ts.length, 0)
decreasing_by all_goals grind

theorem matchCases_reads (finish : Position) (ts : List Token) :
    Reads (Expr.isWholeCases · = true) (matchCases finish ts) := by
  match ts with
  | [] =>
      rw [matchCases]
      exact ends_failAt
  | t :: rest =>
      rw [matchCases]
      split
      · rfl
      · refine ends_behind ?_
        rintro ⟨⟨p, rest₁⟩, hp⟩
        refine ends_behind ?_
        rintro ⟨⟨_, rest₂⟩, harrow⟩
        refine (expr_reads finish 0 rest₂).bind ?_
        rintro ⟨⟨body, rest₃⟩, hbody⟩ hwhole
        dsimp only
        match rest₃, hbody with
        | [], _ => exact ends_failAt
        | u :: rest₄, hbody =>
            dsimp only
            split
            · refine (matchCases_reads finish rest₄).bind ?_
              rintro ⟨⟨cases, rest₅⟩, hcases⟩ hall
              simp only [Ends, Expr.isWholeCases, Bool.and_eq_true]
              exact ⟨hwhole, hall⟩
            · split
              · simpa [Ends, Expr.isWholeCases] using hwhole
              · exact ends_failAt
termination_by (ts.length, 0)
decreasing_by all_goals grind

end

theorem optionalParens_reads {finish : Position} {context : String} {ts : List Token}
    {item : (us : List Token) → Step α us} (hitem : ∀ us, Reads p (item us)) :
    Reads (∀ x ∈ ·.getD [], p x) (optionalParens finish context ts item) := by
  simp only [optionalParens]
  split
  · refine (commaList_reads fun us _ => hitem us).bind ?_
    rintro ⟨⟨items, rest'⟩, hitems⟩ hall
    exact hall
  · simp [Ends]

theorem colonType_reads (finish : Position) (ts : List Token) :
    Reads (·.all TypeExpr.isWhole = true) <| colonType finish ts := by
  unfold colonType
  dsimp only
  split
  · refine (typeExpr_reads finish _).bind ?_
    rintro ⟨⟨t, rest'⟩, ht⟩ hwhole
    exact hwhole
  · rfl

theorem binder_reads (finish : Position) (context : String) (ts : List Token) :
    Reads (·.isWhole = true) (binder finish context ts) := by
  refine ends_behind ?_
  rintro ⟨⟨name, rest⟩, hname⟩
  refine (colonType_reads finish rest).bind ?_
  rintro ⟨⟨type, rest'⟩, htype⟩ hwhole
  exact hwhole

theorem field_reads (finish : Position) (ts : List Token) :
    Reads (·.type.isWhole = true) (field finish ts) := by
  have hpositional : ∀ us, Reads (·.type.isWhole = true) (positionalField finish us) := by
    intro us
    refine (typeExpr_reads finish us).bind ?_
    rintro ⟨⟨t, rest⟩, h⟩ hwhole
    exact hwhole
  unfold field
  split
  · split
    · refine (typeExpr_reads finish _).bind ?_
      rintro ⟨⟨t, rest'⟩, h⟩ hwhole
      exact hwhole
    · exact hpositional _
  · exact hpositional _

theorem variant_reads (finish : Position) (ts : List Token) :
    Reads (fun v => ∀ f ∈ v.fields, f.type.isWhole = true) (variant finish ts) := by
  refine ends_behind ?_
  rintro ⟨⟨name, rest⟩, hname⟩
  refine (optionalParens_reads (field_reads finish)).bind ?_
  rintro ⟨⟨fields, rest'⟩, hfields⟩ hall
  exact hall

theorem variants_reads (finish : Position) (ts : List Token) :
    Reads (∀ v ∈ ·, ∀ f ∈ v.fields, f.type.isWhole = true) (variants finish ts) := by
  rw [variants]
  refine (variant_reads finish ts).bind ?_
  rintro ⟨⟨v, rest⟩, hv⟩ hwhole
  have hskip := (skip .bar rest).2
  dsimp only
  split
  · refine (variants_reads finish (skip .bar rest).1.2).bind ?_
    rintro ⟨⟨vs, rest''⟩, hvs⟩ hall
    exact List.forall_mem_cons.2 ⟨hwhole, hall⟩
  · exact List.forall_mem_singleton.2 hwhole
termination_by ts.length
decreasing_by grind

theorem dataType_reads (finish : Position) (ts : List Token) :
    Reads (·.isWhole = true) (dataType finish ts) := by
  refine ends_behind ?_
  rintro ⟨⟨name, rest₁⟩, hname⟩
  refine ends_behind ?_
  rintro ⟨⟨params, rest₂⟩, hparams⟩
  refine ends_behind ?_
  rintro ⟨⟨_, rest₃⟩, hequals⟩
  refine (variants_reads finish _).bind ?_
  rintro ⟨⟨vs, rest₅⟩, hvs⟩ hall
  simpa [Ends, DataType.isWhole] using hall

theorem quantifiers_reads (finish : Position) (ts : List Token) :
    Reads (∀ b ∈ ·, b.isWhole = true) (quantifiers finish ts) := by
  rw [quantifiers]
  have hskip := (skip .leftParen ts).2
  have hnames := (quantifiedNames (skip .leftParen ts).1.2).2
  dsimp only
  split
  · split
    · exact ends_failAt
    · refine ends_behind ?_
      rintro ⟨⟨_, rest₃⟩, hcolon⟩
      refine (typeExpr_reads finish rest₃).bind ?_
      rintro ⟨⟨t, rest₄⟩, ht⟩ hwhole
      refine ends_behind ?_
      rintro ⟨⟨_, rest₅⟩, hclose⟩
      have hshorter : rest₅.length < ts.length :=
        Nat.lt_of_lt_of_le (Nat.lt_trans hclose (Nat.lt_trans ht hcolon))
          (Nat.le_trans hnames hskip)
      refine (quantifiers_reads finish rest₅).bind ?_
      rintro ⟨⟨binders, rest₆⟩, hbinders⟩ hall
      intro b hb
      rcases List.mem_append.1 hb with hb | hb
      · obtain ⟨name, -, rfl⟩ := List.mem_map.1 hb
        exact hwhole
      · exact hall b hb
  · refine ends_behind ?_
    rintro ⟨⟨_, rest₂⟩, hperiod⟩
    simp [Ends]
termination_by ts.length
decreasing_by exact hshorter

/-- A member of a structure that lacks no part. -/
def Member.isWhole : Member → Bool
  | .operation o => o.signature.isWhole
  | .law a => a.isWhole

theorem operationMember_reads (finish : Position) (isElement : Bool) (ts : List Token) :
    Reads (·.isWhole = true) (operationMember finish isElement ts) := by
  refine ends_behind ?_
  rintro ⟨⟨name, rest₁⟩, hname⟩
  refine ends_behind ?_
  rintro ⟨⟨_, rest₂⟩, hcolon⟩
  refine (typeExpr_reads finish rest₂).bind ?_
  rintro ⟨⟨signature, rest₃⟩, hsignature⟩ hwhole
  exact hwhole

theorem lawMember_reads (finish : Position) (ts : List Token) :
    Reads (·.isWhole = true) (lawMember finish ts) := by
  refine ends_behind ?_
  rintro ⟨⟨name, rest₁⟩, hname⟩
  refine ends_behind ?_
  rintro ⟨⟨_, rest₂⟩, hcolon⟩
  dsimp only
  split
  · refine (quantifiers_reads finish _).bind ?_
    rintro ⟨⟨vars, rest₄⟩, hvars⟩ hall
    refine (expr_reads finish 0 rest₄).bind ?_
    rintro ⟨⟨body, rest₅⟩, hbody⟩ hwhole
    simp only [Ends, Member.isWhole, Axiom.isWhole, Bool.and_eq_true, List.all_eq_true]
    exact ⟨hall, hwhole⟩
  · refine (expr_reads finish 0 _).bind ?_
    rintro ⟨⟨body, rest₄⟩, hbody⟩ hwhole
    simpa [Ends, Member.isWhole, Axiom.isWhole] using hwhole

theorem members_reads (finish : Position) (structureName : String) (ts : List Token) :
    Reads (∀ m ∈ ·, m.isWhole = true) (members finish structureName ts) := by
  match ts with
  | [] =>
      rw [members]
      exact ends_failAt
  | t :: rest =>
      rw [members.eq_def]
      dsimp only
      have hmore : ∀ us : List Token, us.length < rest.length →
          Reads (∀ m ∈ ·, m.isWhole = true) (members finish structureName us) :=
        fun us _ => members_reads finish structureName us
      split
      · simp [Ends]
      · refine (members_reads finish structureName rest).bind ?_
        rintro ⟨⟨ms, rest'⟩, hms⟩ hall
        exact hall
      · exact itemAndMore_reads (operationMember_reads finish false rest) hmore
      · exact itemAndMore_reads (operationMember_reads finish true rest) hmore
      · exact itemAndMore_reads (lawMember_reads finish rest) hmore
      · exact ends_failAt
termination_by ts.length
decreasing_by all_goals grind

theorem interface_reads (finish : Position) (ts : List Token) :
    Reads (·.isWhole = true) (interface finish ts) := by
  refine ends_behind ?_
  rintro ⟨⟨name, rest₁⟩, hname⟩
  refine (optionalParens_reads (binder_reads finish _)).bind ?_
  rintro ⟨⟨params, rest₂⟩, hparams⟩ hbinders
  refine ends_behind ?_
  rintro ⟨⟨_, rest₃⟩, hopen⟩
  refine (members_reads finish name rest₃).bind ?_
  rintro ⟨⟨ms, rest₄⟩, hms⟩ hall
  simp only [Ends, Structure.isWhole, Bool.and_eq_true, List.all_eq_true, List.mem_filterMap]
  refine ⟨⟨hbinders, ?_⟩, ?_⟩
  · rintro op ⟨m, hm, hop⟩
    cases m with
    | operation o =>
        cases hop
        exact hall _ hm
    | law a => cases hop
  · rintro ax ⟨m, hm, hax⟩
    cases m with
    | operation o => cases hax
    | law a =>
        cases hax
        exact hall _ hm

theorem operationBody_reads (finish : Position) (ts : List Token) :
    Reads (·.isWhole = true) (operationBody finish ts) := by
  refine ends_behind ?_
  rintro ⟨⟨name, rest₁⟩, hname⟩
  refine ends_behind ?_
  rintro ⟨⟨params, rest₂⟩, hparams⟩
  refine ends_behind ?_
  rintro ⟨⟨_, rest₃⟩, hequals⟩
  dsimp only
  split
  · refine ends_behind ?_
    rintro ⟨⟨builtin, rest₄⟩, hbuiltin⟩
    rfl
  · refine (expr_reads finish 0 rest₃).bind ?_
    rintro ⟨⟨body, rest₄⟩, hbody⟩ hwhole
    exact hwhole

theorem operationBodies_reads (finish : Position) (structureName : String) (ts : List Token) :
    Reads (∀ b ∈ ·, b.isWhole = true) (operationBodies finish structureName ts) := by
  match ts with
  | [] =>
      rw [operationBodies]
      exact ends_failAt
  | t :: rest =>
      rw [operationBodies.eq_def]
      dsimp only
      have hmore : ∀ us : List Token, us.length < rest.length →
          Reads (∀ b ∈ ·, b.isWhole = true) (operationBodies finish structureName us) :=
        fun us _ => operationBodies_reads finish structureName us
      split
      · simp [Ends]
      · refine (operationBodies_reads finish structureName rest).bind ?_
        rintro ⟨⟨bodies, rest'⟩, hbodies⟩ hall
        exact hall
      · exact itemAndMore_reads (operationBody_reads finish rest) hmore
      · exact itemAndMore_reads (operationBody_reads finish rest) hmore
      · exact ends_failAt
termination_by ts.length
decreasing_by all_goals grind

theorem implementation_reads (finish : Position) (ts : List Token) :
    Reads (·.isWhole = true) (implementation finish ts) := by
  refine ends_behind ?_
  rintro ⟨⟨name, rest₁⟩, hname⟩
  refine (optionalParens_reads (typeExpr_reads finish)).bind ?_
  rintro ⟨⟨args, rest₂⟩, hargs⟩ hall
  dsimp only
  split
  · refine (operationBodies_reads finish name _).bind ?_
    rintro ⟨⟨bodies, rest₄⟩, hbodies⟩ hbodiesWhole
    simp only [Ends, Implementation.isWhole, Bool.and_eq_true, List.all_eq_true]
    exact ⟨TypeExpr.isWholeList_iff.2 hall, hbodiesWhole⟩
  · simpa [Ends, Implementation.isWhole] using TypeExpr.isWholeList_iff.2 hall

theorem definition_reads (finish : Position) (ts : List Token) :
    Reads (·.isWhole = true) (definition finish ts) := by
  refine ends_behind ?_
  rintro ⟨⟨name, rest₁⟩, hname⟩
  refine (optionalParens_reads (binder_reads finish _)).bind ?_
  rintro ⟨⟨params, rest₂⟩, hparams⟩ hbinders
  refine (colonType_reads finish rest₂).bind ?_
  rintro ⟨⟨result, rest₃⟩, hresult⟩ htype
  refine ends_behind ?_
  rintro ⟨⟨_, rest₄⟩, hequals⟩
  refine (expr_reads finish 0 rest₄).bind ?_
  rintro ⟨⟨body, rest₅⟩, hbody⟩ hwhole
  simp only [Ends, Definition.isWhole, Bool.and_eq_true, List.all_eq_true]
  exact ⟨⟨hbinders, htype⟩, hwhole⟩

theorem declaration_reads (finish : Position) (ts : List Token) :
    Reads (·.isWhole = true) (declaration finish ts) := by
  unfold declaration
  split
  · exact ends_failAt
  · split
    · refine (dataType_reads finish _).bind ?_
      rintro ⟨⟨d, rest'⟩, h⟩ hwhole
      exact hwhole
    · refine (interface_reads finish _).bind ?_
      rintro ⟨⟨s, rest'⟩, h⟩ hwhole
      exact hwhole
    · refine (implementation_reads finish _).bind ?_
      rintro ⟨⟨i, rest'⟩, h⟩ hwhole
      exact hwhole
    · refine (definition_reads finish _).bind ?_
      rintro ⟨⟨d, rest'⟩, h⟩ hwhole
      exact hwhole
    · exact ends_failAt

theorem declarations_ends (finish : Position) (ts : List Token) :
    Ends (∀ d ∈ ·, d.isWhole = true) (fun _ => True) (declarations finish ts) := by
  match ts with
  | [] =>
      rw [declarations]
      simp [Ends]
  | t :: rest =>
      rw [declarations]
      split
      · exact declarations_ends finish rest
      · refine (declaration_reads finish (t :: rest)).bind ?_
        rintro ⟨⟨d, rest'⟩, hd⟩ hwhole
        refine (declarations_ends finish rest').bind ?_
        intro ds hall
        exact List.forall_mem_cons.2 ⟨hwhole, hall⟩
termination_by ts.length
decreasing_by all_goals grind

end Formulary.Parser

namespace Formulary

theorem Expr.parse_isWhole {source : String} {e : Expr} (h : Expr.parse source = .ok e) :
    e.isWhole = true := by
  have hends : Ends (·.isWhole = true) (fun _ => True) (Expr.parse source) := by
    refine Parser.ends_behind ?_
    rintro ⟨tokens, finish⟩
    refine (Parser.expr_reads finish 0 tokens).bind ?_
    rintro ⟨⟨e, rest⟩, he⟩ hwhole
    dsimp only
    split
    · exact hwhole
    · exact Parser.ends_failAt
  simpa [h, Ends] using hends

theorem Declaration.parseAll_isWhole {source : String} {decls : List Declaration}
    (h : Declaration.parseAll source = .ok decls) : ∀ d ∈ decls, d.isWhole = true := by
  have hends : Ends (∀ d ∈ ·, d.isWhole = true) (fun _ => True) (Declaration.parseAll source) := by
    refine Parser.ends_behind ?_
    rintro ⟨tokens, finish⟩
    exact Parser.declarations_ends finish tokens
  simpa [h, Ends] using hends

end Formulary
